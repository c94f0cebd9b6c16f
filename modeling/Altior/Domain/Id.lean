import Mathlib.Data.List.Basic

/-!
# Stable, kind-prefixed identifiers

Every identifier is a newtype over a canonical `<prefix>_<body>` string whose
body is 16 to 64 characters from `[0-9a-z]` (`altior-domain/src/id.rs`).  An
`Id pre` carries the proof that its text passes `validate`, so a parsed
identifier and its stored text determine each other.
-/

namespace Altior.Domain

/-- Minimum number of characters in an identifier body after the prefix. -/
def minBodyLen : Nat := 16

/-- Maximum number of characters in an identifier body after the prefix. -/
def maxBodyLen : Nat := 64

/-- Typed validation failure for a malformed identifier string. -/
inductive IdParseError
  | empty
  | missingSeparator
  | unexpectedPrefix (expected found : String)
  | invalidCharacter (character : Char) (position : Nat)
  | bodyTooShort (length : Nat)
  | bodyTooLong (length : Nat)
deriving DecidableEq, Repr

/-- `str::split_once` on a list of characters. -/
def splitOnce (sep : Char) : List Char → Option (List Char × List Char)
  | [] => none
  | c :: cs =>
    if c = sep then some ([], cs)
    else (splitOnce sep cs).map fun (head, tail) => (c :: head, tail)

/-- Validates a candidate identifier against one type's prefix. -/
def validate (candidate pre : String) : Except IdParseError Unit :=
  if candidate.isEmpty then .error .empty
  else match splitOnce '_' candidate.toList with
    | none => .error .missingSeparator
    | some (head, body) =>
      let found := String.ofList (head ++ ['_'])
      if found ≠ pre then .error (.unexpectedPrefix pre found)
      else match body.findIdx? fun c => !c.isLower && !c.isDigit with
        -- Everything before the offender is ASCII, so its byte offset is its index.
        | some offset => .error (.invalidCharacter (body.getD offset ' ') (found.length + offset))
        | none =>
          if body.length < minBodyLen then .error (.bodyTooShort body.length)
          else if maxBodyLen < body.length then .error (.bodyTooLong body.length)
          else .ok ()

/-- An identifier of the kind whose canonical prefix is `pre`. -/
structure Id (pre : String) where
  /-- The canonical string form. -/
  asStr : String
  valid : validate asStr pre = .ok ()

namespace Id

variable {pre : String}

@[ext] theorem ext {a b : Id pre} (h : a.asStr = b.asStr) : a = b := by
  cases a
  cases b
  cases h
  rfl

theorem asStr_inj {a b : Id pre} : a.asStr = b.asStr ↔ a = b :=
  ⟨ext, congrArg asStr⟩

instance : DecidableEq (Id pre) := fun _ _ => decidable_of_iff _ asStr_inj

/-- `FromStr` of the identifier kind: validates, then keeps the text. -/
def parse (pre : String) (s : String) : Except IdParseError (Id pre) :=
  match h : validate s pre with
  | .ok () => .ok ⟨s, h⟩
  | .error e => .error e

/-- Parsing the text of an identifier gives the identifier back. -/
@[simp] theorem parse_asStr (a : Id pre) : parse pre a.asStr = .ok a := by
  unfold parse
  split
  · rfl
  · rename_i e h
    rw [a.valid] at h
    cases h

/-- What parses keeps its text. -/
theorem asStr_of_parse {s : String} {a : Id pre} (h : parse pre s = .ok a) : a.asStr = s := by
  unfold parse at h
  split at h
  · cases h; rfl
  · cases h

theorem splitOnce_eq_some {sep : Char} {cs head body : List Char}
    (h : splitOnce sep cs = some (head, body)) : cs = head ++ sep :: body := by
  induction cs generalizing head with
  | nil => cases h
  | cons c cs ih =>
    rw [splitOnce] at h
    split at h
    · rename_i hc
      cases h
      rw [hc]
      rfl
    · obtain ⟨⟨head', body'⟩, hsplit, heq⟩ := Option.map_eq_some_iff.1 h
      cases heq
      rw [ih hsplit]
      rfl

/-- Identifiers are short. -/
theorem length_asStr_le (a : Id pre) : a.asStr.toList.length ≤ pre.toList.length + maxBodyLen := by
  have hvalid := a.valid
  unfold validate at hvalid
  split at hvalid
  · cases hvalid
  · split at hvalid
    · cases hvalid
    · rename_i head body hsplit
      dsimp only at hvalid
      split at hvalid
      · cases hvalid
      · rename_i hpre
        rw [not_not] at hpre
        split at hvalid
        · cases hvalid
        · split at hvalid
          · cases hvalid
          · split at hvalid
            · cases hvalid
            · rename_i hlen
              rw [splitOnce_eq_some hsplit, ← hpre, String.toList_ofList]
              simp only [List.length_append, List.length_cons, List.length_nil]
              omega

instance : Ord (Id pre) := ⟨fun a b => compare a.asStr b.asStr⟩

theorem compare_def (a b : Id pre) : compare a b = compare a.asStr b.asStr := rfl

instance : Std.OrientedOrd (Id pre) where
  eq_swap {a b} := @Std.OrientedCmp.eq_swap String compare _ a.asStr b.asStr

instance : Std.TransOrd (Id pre) where
  isLE_trans {a b c} := @Std.TransCmp.isLE_trans String compare _ a.asStr b.asStr c.asStr

instance : Std.LawfulEqOrd (Id pre) where
  compare_self {a} := @Std.ReflCmp.compare_self String compare _ a.asStr
  eq_of_compare {a b} h := ext (@Std.LawfulEqCmp.eq_of_compare String compare _ a.asStr b.asStr h)

end Id

abbrev AgentProfileId := Id "agp_"
abbrev HarnessBindingId := Id "hsb_"
abbrev ThreadId := Id "thr_"
abbrev TurnId := Id "trn_"
abbrev OperationId := Id "op_"
abbrev EventId := Id "evt_"
abbrev ProjectId := Id "prj_"
abbrev RuntimeCheckpointId := Id "chk_"
abbrev MemoryId := Id "mem_"

example : (Id.parse "thr_" "thr_fixture000000001").isOk = true := by decide
example : Id.parse "thr_" "trn_fixture000000002" =
    .error (.unexpectedPrefix "thr_" "trn_") := by decide

end Altior.Domain
