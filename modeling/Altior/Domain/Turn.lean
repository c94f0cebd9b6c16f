import Altior.Domain.Id

/-!
# Turns, permissions and checkpoints

The enumerations and records of `altior-domain/src/entity.rs` that the runtime
works with, and the identifiers whose body is formatted from numbers.
-/

namespace Altior.Domain

/-- How far the delivery of a prompt is known to have got. -/
inductive DeliveryState
  | absent
  | confirmed
  | rejected
  | indeterminate
deriving DecidableEq, Repr

/-- The text of a delivery state in a payload. -/
def DeliveryState.asStr : DeliveryState → String
  | absent => "absent"
  | confirmed => "confirmed"
  | rejected => "rejected"
  | indeterminate => "indeterminate"

/-- The lifecycle of a turn. -/
inductive TurnState
  | active
  | completed
  | cancelled
  | failed
deriving DecidableEq, Repr

/-- What a permission is requested for. -/
inductive PermissionKind
  | execute
  | read
  | write
  | network
deriving DecidableEq, Repr

/-- The canonical name. -/
def PermissionKind.asStr : PermissionKind → String
  | execute => "execute"
  | read => "read"
  | write => "write"
  | network => "network"

/-- The decision on a permission. -/
inductive PermissionDecision
  | pending
  | approved
  | denied
deriving DecidableEq, Repr

/-- The canonical name. -/
def PermissionDecision.asStr : PermissionDecision → String
  | pending => "pending"
  | approved => "approved"
  | denied => "denied"

/-- Maximum length of a permission description in bytes. -/
def maxPermissionDescriptionBytes : Nat := 4096

/-- A bounded permission description. -/
structure PermissionDescription where
  asStr : String
  bounded : asStr.utf8ByteSize ≤ maxPermissionDescriptionBytes
deriving DecidableEq

/-- The boundary a checkpoint guards. -/
inductive BoundaryKind
  | createSession
  | resumeSession
  | prompt
  | steer
  | permissionDecision
  | cancel
  | close
deriving DecidableEq, Repr

/-- The state of a checkpoint. -/
inductive CheckpointState
  | intent
  | confirmed
  | rejected
  | indeterminate
deriving DecidableEq, Repr

/-- The canonical name. -/
def CheckpointState.asStr : CheckpointState → String
  | intent => "intent"
  | confirmed => "confirmed"
  | rejected => "rejected"
  | indeterminate => "indeterminate"

/-- Whether the checkpoint is settled. -/
def CheckpointState.isTerminal : CheckpointState → Bool
  | intent => false
  | _ => true

/-- A row of `runtime_checkpoint`.  The runtime sets neither the remote request
id nor the diagnostic summary; both are bounded texts nothing looks into. -/
structure RuntimeCheckpoint where
  id : RuntimeCheckpointId
  threadId : ThreadId
  turnId : Option TurnId
  operationId : OperationId
  boundaryKind : BoundaryKind
  state : CheckpointState
  remoteRequestId : Option String
  diagnosticSummary : Option String
  createdAt : UInt64
  settledAt : Option UInt64
deriving DecidableEq

/-! ## Identifiers from numbers -/

/-- One lowercase hexadecimal digit. -/
def hexDigit (n : Nat) : Char :=
  if n < 10 then Char.ofNat (48 + n) else Char.ofNat (87 + n)

/-- `{:016x}` of a 64-bit number. -/
def hex16 (n : UInt64) : List Char :=
  (List.range 16).map fun i => hexDigit ((n.toNat >>> (4 * (15 - i))) % 16)

/-- The characters of an identifier body. -/
def isBodyChar (c : Char) : Bool := c.isLower || c.isDigit

theorem isBodyChar_hexDigit (n : Nat) : isBodyChar (hexDigit (n % 16)) = true := by
  have h : ∀ k < 16, isBodyChar (hexDigit k) = true := by decide
  exact h _ (Nat.mod_lt _ (by decide))

@[simp] theorem length_hex16 (n : UInt64) : (hex16 n).length = 16 := by simp [hex16]

theorem all_hex16 (n : UInt64) : (hex16 n).all isBodyChar = true := by
  rw [List.all_eq_true]
  intro c hc
  obtain ⟨i, -, rfl⟩ := List.mem_map.1 hc
  exact isBodyChar_hexDigit _

theorem length_flatMap_hex16 (numbers : List UInt64) :
    (numbers.flatMap hex16).length = 16 * numbers.length := by
  induction numbers with
  | nil => rfl
  | cons n ns ih =>
    rw [List.flatMap_cons, List.length_append, length_hex16, ih, List.length_cons]
    omega

theorem splitOnce_append (sep : Char) (head body : List Char) (h : sep ∉ head) :
    splitOnce sep (head ++ sep :: body) = some (head, body) := by
  induction head with
  | nil => simp [splitOnce]
  | cons c cs ih =>
    rw [List.mem_cons, not_or] at h
    rw [List.cons_append, splitOnce, if_neg fun hc => h.1 hc.symm, ih h.2, Option.map_some]

/-- A text with the kind's prefix and a body of the right characters and length
is an identifier. -/
theorem validate_of_body {head body : List Char} (hhead : '_' ∉ head)
    (hbody : body.all isBodyChar = true) (hmin : minBodyLen ≤ body.length)
    (hmax : body.length ≤ maxBodyLen) :
    validate (String.ofList (head ++ '_' :: body)) (String.ofList (head ++ ['_'])) = .ok () := by
  have hne : (String.ofList (head ++ '_' :: body)).isEmpty = false := by
    rw [← Bool.not_eq_true, String.isEmpty_iff]
    intro h
    have hlist := congrArg String.toList h
    rw [String.toList_ofList] at hlist
    cases head <;> cases hlist
  have hfind : (body.findIdx? fun c => !c.isLower && !c.isDigit) = none := by
    rw [List.findIdx?_eq_none_iff]
    intro c hc
    have hchar := List.all_eq_true.1 hbody c hc
    unfold isBodyChar at hchar
    revert hchar
    cases c.isLower <;> cases c.isDigit <;> decide
  unfold validate
  rw [hne, String.toList_ofList, splitOnce_append _ _ _ hhead]
  simp only [Bool.false_eq_true, if_false, ne_eq, not_true_eq_false, hfind]
  rw [if_neg (Nat.not_lt.2 hmin), if_neg (Nat.not_lt.2 hmax)]

/-- An identifier whose body is a tag followed by 64-bit numbers. -/
def hexId {pre : String} (head tag : List Char) (numbers : List UInt64)
    (hpre : String.ofList (head ++ ['_']) = pre) (hhead : '_' ∉ head)
    (htag : tag.all isBodyChar = true) (hmin : 1 ≤ numbers.length)
    (hmax : tag.length + 16 * numbers.length ≤ maxBodyLen) : Id pre where
  asStr := String.ofList (head ++ '_' :: (tag ++ numbers.flatMap hex16))
  valid := by
    have hlen := length_flatMap_hex16 numbers
    subst hpre
    refine validate_of_body hhead ?_ ?_ ?_
    · rw [List.all_append, htag, Bool.true_and, List.all_flatMap, List.all_eq_true]
      intro n _
      exact all_hex16 n
    · rw [List.length_append, hlen]
      unfold minBodyLen
      omega
    · rw [List.length_append, hlen]
      exact hmax

theorem hexDigit_inj {m n : Nat} (hm : m < 16) (hn : n < 16) (h : hexDigit m = hexDigit n) :
    m = n := by
  have hall : ∀ m < 16, ∀ n < 16, hexDigit m = hexDigit n → m = n := by decide
  exact hall m hm n hn h

/-- A number is given by its lowest hexadecimal digits, if it has no others. -/
theorem eq_of_nibbles {n : Nat} : ∀ {a b : Nat}, a >>> (4 * n) = 0 → b >>> (4 * n) = 0 →
    (∀ k < n, (a >>> (4 * k)) % 16 = (b >>> (4 * k)) % 16) → a = b := by
  induction n with
  | zero =>
    intro a b ha hb _
    exact ha.trans hb.symm
  | succ n ih =>
    intro a b ha hb h
    have hshift (x k : Nat) : (x / 16) >>> (4 * k) = x >>> (4 * (k + 1)) := by
      rw [Nat.mul_succ, Nat.add_comm, Nat.shiftRight_add, Nat.shiftRight_eq_div_pow x 4]
    have hlow : a % 16 = b % 16 := h 0 (Nat.succ_pos n)
    have hhigh : a / 16 = b / 16 := by
      refine ih ((hshift a n).trans ha) ((hshift b n).trans hb) fun k hk => ?_
      rw [hshift, hshift]
      exact h (k + 1) (Nat.succ_lt_succ hk)
    omega

theorem hex16_inj {a b : UInt64} (h : hex16 a = hex16 b) : a = b := by
  rw [← UInt64.toNat_inj]
  have hlast (x : UInt64) : x.toNat >>> (4 * 16) = 0 := by
    rw [Nat.shiftRight_eq_div_pow]
    exact Nat.div_eq_of_lt x.toNat_lt
  refine eq_of_nibbles (hlast a) (hlast b) fun k hk => ?_
  have hdigit := List.map_inj_left.1 h (15 - k) (List.mem_range.2 (by omega))
  rw [show 15 - (15 - k) = k by omega] at hdigit
  exact hexDigit_inj (Nat.mod_lt _ (by decide)) (Nat.mod_lt _ (by decide)) hdigit

theorem flatMap_hex16_inj {numbers numbers' : List UInt64} (hlen : numbers.length = numbers'.length)
    (h : numbers.flatMap hex16 = numbers'.flatMap hex16) : numbers = numbers' := by
  induction numbers generalizing numbers' with
  | nil => exact (List.length_eq_zero_iff.1 hlen.symm).symm
  | cons n ns ih =>
    cases numbers' with
    | nil => cases hlen
    | cons n' ns' =>
      rw [List.flatMap_cons, List.flatMap_cons] at h
      obtain ⟨hhead, htail⟩ := List.append_inj h (by simp)
      rw [hex16_inj hhead, ih (Nat.succ.inj hlen) htail]

/-- Identifiers of one kind with the same tag differ when their numbers do. -/
theorem hexId_inj {pre : String} {head tag : List Char} {numbers numbers' : List UInt64}
    {hpre : String.ofList (head ++ ['_']) = pre} {hhead : '_' ∉ head}
    {htag : tag.all isBodyChar = true} {hmin : 1 ≤ numbers.length}
    {hmax : tag.length + 16 * numbers.length ≤ maxBodyLen} {hmin' : 1 ≤ numbers'.length}
    {hmax' : tag.length + 16 * numbers'.length ≤ maxBodyLen}
    (h : (hexId head tag numbers hpre hhead htag hmin hmax).asStr =
      (hexId head tag numbers' hpre hhead htag hmin' hmax').asStr)
    (hlen : numbers.length = numbers'.length) : numbers = numbers' := by
  have hlist := congrArg String.toList h
  simp only [hexId, String.toList_ofList, List.append_cancel_left_eq, List.cons.injEq, true_and]
    at hlist
  exact flatMap_hex16_inj hlen hlist

theorem hexId_singleton_inj {pre : String} {head tag : List Char} {a b : UInt64}
    {hpre : String.ofList (head ++ ['_']) = pre} {hhead : '_' ∉ head}
    {htag : tag.all isBodyChar = true} {hmin : 1 ≤ [a].length}
    {hmax : tag.length + 16 * [a].length ≤ maxBodyLen} {hmin' : 1 ≤ [b].length}
    {hmax' : tag.length + 16 * [b].length ≤ maxBodyLen}
    (h : (hexId head tag [a] hpre hhead htag hmin hmax).asStr =
      (hexId head tag [b] hpre hhead htag hmin' hmax').asStr) : a = b :=
  (List.cons.inj (hexId_inj h rfl)).1

/-- The event identifier with these two numbers in its body. -/
def eventIdOf (a b : UInt64) : EventId :=
  hexId ['e', 'v', 't'] [] [a, b] (by decide) (by decide) rfl (by simp) (by simp [maxBodyLen])

/-- The checkpoint identifier with these two numbers in its body. -/
def checkpointIdOf (a b : UInt64) : RuntimeCheckpointId :=
  hexId ['c', 'h', 'k'] [] [a, b] (by decide) (by decide) rfl (by simp) (by simp [maxBodyLen])

example : (eventIdOf 0x18bcfe5687b 2).asStr = "evt_0000018bcfe5687b0000000000000002" := by decide

end Altior.Domain
