import Altior.Domain.Memory
import Altior.Domain.Turn

/-!
# Memory and permission records

The typed records the store hands out, with the checks their text forms go
through (`altior-domain/src/entity.rs`).
-/

namespace Altior.Domain

/-! ## Permissions -/

def PermissionKind.tryFromStr (s : String) : Except EntityError PermissionKind :=
  if s = "execute" then .ok .execute
  else if s = "read" then .ok .read
  else if s = "write" then .ok .write
  else if s = "network" then .ok .network
  else .error .invalidPermissionKind

def PermissionDecision.tryFromStr (s : String) : Except EntityError PermissionDecision :=
  if s = "pending" then .ok .pending
  else if s = "approved" then .ok .approved
  else if s = "denied" then .ok .denied
  else .error .invalidPermissionDecision

def PermissionDescription.tryFrom (value : String) : Except EntityError PermissionDescription :=
  if h : value.utf8ByteSize ≤ maxPermissionDescriptionBytes then .ok ⟨value, h⟩
  else .error (.permissionDescriptionTooLong value.utf8ByteSize maxPermissionDescriptionBytes)

theorem PermissionDescription.tryFrom_ok_iff {value : String} :
    (∃ d, PermissionDescription.tryFrom value = .ok d) ↔
      value.utf8ByteSize ≤ maxPermissionDescriptionBytes := by
  unfold PermissionDescription.tryFrom
  split <;> simp_all

/-- A permission request and its decision. -/
structure Permission where
  eventId : EventId
  turnId : TurnId
  threadId : ThreadId
  kind : PermissionKind
  description : PermissionDescription
  decision : PermissionDecision
  requestedAt : UInt64
  decidedAt : Option UInt64
deriving DecidableEq

/-! ## Memories -/

/-- The lifecycle of a memory. -/
inductive MemoryState
  | candidate
  | confirmed
  | rejected
  | forgotten
  | expired
deriving DecidableEq, Repr

/-- The canonical name. -/
def MemoryState.asStr : MemoryState → String
  | candidate => "candidate"
  | confirmed => "confirmed"
  | rejected => "rejected"
  | forgotten => "forgotten"
  | expired => "expired"

def MemoryState.tryFromStr (s : String) : Except EntityError MemoryState :=
  if s = "candidate" then .ok .candidate
  else if s = "confirmed" then .ok .confirmed
  else if s = "rejected" then .ok .rejected
  else if s = "forgotten" then .ok .forgotten
  else if s = "expired" then .ok .expired
  else .error .invalidMemoryState

/-- What parses keeps its text. -/
theorem MemoryState.asStr_of_tryFromStr {s : String} {state : MemoryState}
    (h : MemoryState.tryFromStr s = .ok state) : state.asStr = s := by
  unfold MemoryState.tryFromStr at h
  split_ifs at h <;> cases h <;> simp_all [MemoryState.asStr]

/-- Trimmed, non-empty, bounded memory content. -/
structure MemoryContent where
  chars : List Char
  trimmed : trim chars = chars
  ne_nil : chars ≠ []
  len_le : utf8Len chars ≤ memoryContentMaxBytes

theorem MemoryContent.chars_inj {a b : MemoryContent} : a.chars = b.chars ↔ a = b := by
  cases a
  cases b
  simp

instance : DecidableEq MemoryContent := fun _ _ => decidable_of_iff _ MemoryContent.chars_inj

/-- `MemoryContent::try_from`: keeps the trimmed text. -/
def MemoryContent.tryFrom (value : String) : Except EntityError MemoryContent :=
  let trimmed := trim value.toList
  if h : trimmed = [] then .error .emptyMemoryContent
  else if hlen : utf8Len trimmed ≤ memoryContentMaxBytes then
    .ok ⟨trimmed, trim_trim_toList value, h, hlen⟩
  else .error (.memoryContentTooLong (utf8Len trimmed) memoryContentMaxBytes)

/-- A content's text is accepted as that content. -/
theorem MemoryContent.tryFrom_ofList (content : MemoryContent) :
    MemoryContent.tryFrom (String.ofList content.chars) = .ok content := by
  simp only [tryFrom, String.toList_ofList, content.trimmed, content.ne_nil, content.len_le,
    dite_true, dite_false]

/-- A trimmed, bounded excerpt. -/
structure MemoryExcerpt where
  chars : List Char
  trimmed : trim chars = chars
  len_le : utf8Len chars ≤ memoryExcerptMaxBytes

instance : DecidableEq MemoryExcerpt := fun a b =>
  decidable_of_iff (a.chars = b.chars) (by cases a; cases b; simp)

/-- `MemoryExcerpt::try_from`: keeps the trimmed text. -/
def MemoryExcerpt.tryFrom (value : String) : Except EntityError MemoryExcerpt :=
  let trimmed := trim value.toList
  if hlen : utf8Len trimmed ≤ memoryExcerptMaxBytes then
    .ok ⟨trimmed, trim_trim_toList value, hlen⟩
  else .error (.memoryExcerptTooLong (utf8Len trimmed) memoryExcerptMaxBytes)

/-- The context a memory was derived from. -/
structure MemoryProvenance where
  threadId : Option ThreadId
  turnId : Option TurnId
  excerpt : Option MemoryExcerpt
deriving DecidableEq

/-- A durable, queryable memory. -/
structure MemoryRecord where
  memoryId : MemoryId
  content : MemoryContent
  scope : MemoryScope
  kind : MemoryKind
  state : MemoryState
  confidence : UInt8
  sensitivity : MemorySensitivity
  source : MemorySource
  provenance : MemoryProvenance
  createdAt : UInt64
  updatedAt : UInt64
  expiresAt : Option UInt64
  supersededBy : Option MemoryId
deriving DecidableEq

/-- What a memory is created or corrected from. -/
structure MemoryDraft where
  id : Option MemoryId
  content : MemoryContent
  scope : MemoryScope
  kind : MemoryKind
  state : Option MemoryState
  confidence : UInt8
  sensitivity : MemorySensitivity
  source : MemorySource
  provenance : MemoryProvenance
  expiresAt : Option UInt64

/-- `MemoryRecord::validate`. -/
def MemoryRecord.validate (record : MemoryRecord) : Except EntityError Unit :=
  if 100 < record.confidence then .error (.invalidMemoryConfidence record.confidence)
  else if record.updatedAt < record.createdAt then
    .error (.invalidMemoryTransition "created_at" "updated_at earlier than created_at")
  else if record.supersededBy.isSome ∧ record.state ≠ .confirmed then
    .error (.invalidMemoryTransition record.state.asStr "superseded requires confirmed state")
  else .ok ()

/-! ## Trimming -/

theorem trim_sublist (cs : List Char) : (trim cs).Sublist cs := by
  unfold trim trimMatches
  have h := (List.dropWhile_sublist isWhitespace (l := (cs.dropWhile isWhitespace).reverse)).reverse
  rw [List.reverse_reverse] at h
  exact h.trans (List.dropWhile_sublist _)

/-- Trimming a text does not make it longer. -/
theorem utf8Len_trim_le (s : String) : utf8Len (trim s.toList) ≤ s.utf8ByteSize := by
  rw [← utf8Len_toList]
  exact utf8Len_le_of_sublist (trim_sublist _)

/-- Content that is not blank and within the bound is accepted. -/
theorem MemoryContent.exists_of_bounded {value : String} (hne : trim value.toList ≠ [])
    (hlen : value.utf8ByteSize ≤ memoryContentMaxBytes) :
    ∃ content, MemoryContent.tryFrom value = .ok content := by
  simp [MemoryContent.tryFrom, hne, Nat.le_trans (utf8Len_trim_le value) hlen]

/-- An excerpt within the bound is accepted. -/
theorem MemoryExcerpt.exists_of_bounded {value : String}
    (hlen : value.utf8ByteSize ≤ memoryExcerptMaxBytes) :
    ∃ excerpt, MemoryExcerpt.tryFrom value = .ok excerpt := by
  simp [MemoryExcerpt.tryFrom, Nat.le_trans (utf8Len_trim_le value) hlen]

end Altior.Domain
