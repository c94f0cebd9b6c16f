import Altior.Domain.Event
import Altior.Domain.SecretShape

/-!
# Memory vocabulary

Scopes, kinds, sensitivities and sources of memories, with the checks of their
text forms (`altior-domain/src/entity.rs`).
-/

namespace Altior.Domain

/-- Maximum length of memory content in bytes. -/
def memoryContentMaxBytes : Nat := 8192

/-- Maximum length of a provenance excerpt in bytes. -/
def memoryExcerptMaxBytes : Nat := 1024

/-- Maximum length of a label in bytes. -/
def maxLabelBytes : Nat := 256

/-- Maximum length of a thread title in bytes. -/
def maxThreadTitleBytes : Nat := 512

/-- A trimmed, non-empty, bounded label. -/
structure BoundedLabel where
  chars : List Char
  trimmed : trim chars = chars
  ne_nil : chars ≠ []
  len_le : utf8Len chars ≤ maxLabelBytes
deriving DecidableEq

/-- `BoundedLabel::try_from`: keeps the trimmed text. -/
def BoundedLabel.tryFrom (value : String) : Except EntityError BoundedLabel :=
  let trimmed := trim value.toList
  if h : trimmed = [] then .error .emptyLabel
  else if hlen : utf8Len trimmed ≤ maxLabelBytes then .ok ⟨trimmed, trim_trim_toList value, h, hlen⟩
  else .error (.labelTooLong (utf8Len trimmed) maxLabelBytes)

/-- A label's text is accepted as that label. -/
theorem BoundedLabel.tryFrom_ofList (label : BoundedLabel) :
    BoundedLabel.tryFrom (String.ofList label.chars) = .ok label := by
  simp only [tryFrom, String.toList_ofList, label.trimmed, label.ne_nil, label.len_le, dite_true,
    dite_false]

/-- Scope of applicability of a memory. -/
inductive MemoryScope
  | global
  | person (target : BoundedLabel)
  | project (target : BoundedLabel)
  | thread (target : BoundedLabel)
deriving DecidableEq

/-- The scope of a kind and an optional target. -/
def MemoryScope.tryFromParts (kind : String) (target : Option String) :
    Except EntityError MemoryScope :=
  let labelled (scope : BoundedLabel → MemoryScope) : Except EntityError MemoryScope :=
    match target with
    | none => .error .emptyLabel
    | some t => (BoundedLabel.tryFrom t).map scope
  if kind = "global" then
    if target.isSome ∧ target ≠ some "" then .error .invalidMemoryScopeKind else .ok .global
  else if kind = "person" then labelled .person
  else if kind = "project" then labelled .project
  else if kind = "thread" then labelled .thread
  else .error .invalidMemoryScopeKind

/-- Semantic classification of a memory. -/
inductive MemoryKind
  | fact
  | preference
  | instruction
  | summary
deriving DecidableEq, Repr

def MemoryKind.asStr : MemoryKind → String
  | fact => "fact"
  | preference => "preference"
  | instruction => "instruction"
  | summary => "summary"

def MemoryKind.tryFromStr (s : String) : Except EntityError MemoryKind :=
  if s = "fact" then .ok .fact
  else if s = "preference" then .ok .preference
  else if s = "instruction" then .ok .instruction
  else if s = "summary" then .ok .summary
  else .error .invalidMemoryKind

theorem MemoryKind.tryFromStr_asStr (kind : MemoryKind) :
    MemoryKind.tryFromStr kind.asStr = .ok kind := by
  cases kind <;> rfl

/-- Sensitivity of a memory. -/
inductive MemorySensitivity
  | normal
  | sensitive
deriving DecidableEq, Repr

def MemorySensitivity.asStr : MemorySensitivity → String
  | normal => "normal"
  | sensitive => "sensitive"

def MemorySensitivity.tryFromStr (s : String) : Except EntityError MemorySensitivity :=
  if s = "normal" then .ok .normal
  else if s = "sensitive" then .ok .sensitive
  else .error .invalidMemorySensitivity

/-- Where a memory came from. -/
inductive MemorySource
  | explicit
  | inferred
deriving DecidableEq, Repr

def MemorySource.asStr : MemorySource → String
  | explicit => "explicit"
  | inferred => "inferred"

def MemorySource.isExplicit : MemorySource → Bool
  | explicit => true
  | inferred => false

def MemorySource.tryFromStr (s : String) : Except EntityError MemorySource :=
  if s = "explicit" then .ok .explicit
  else if s = "inferred" then .ok .inferred
  else .error .invalidMemorySource

end Altior.Domain
