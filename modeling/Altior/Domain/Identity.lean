import Altior.Domain.Record

/-!
# Identity documents

The "about me" statements of the user (`altior-domain/src/identity.rs`).
-/

namespace Altior.Domain

abbrev IdentityDocumentId := Id "idd_"

/-- Maximum length of one identity document in bytes. -/
def identityContentMaxBytes : Nat := 4096

/-- Maximum number of identity documents on a device. -/
def identityDocumentCountMax : Nat := 32

/-- Default and largest page of identity documents. -/
def identityDocumentListLimitMax : Nat := 32

/-- Trimmed, non-empty, bounded content. -/
structure IdentityContent where
  chars : List Char
  trimmed : trim chars = chars
  ne_nil : chars ≠ []
  len_le : utf8Len chars ≤ identityContentMaxBytes

/-- The content as a text. -/
def IdentityContent.asStr (content : IdentityContent) : String := String.ofList content.chars

/-- `IdentityContent::try_from`: keeps the trimmed text. -/
def IdentityContent.tryFrom (value : String) : Except EntityError IdentityContent :=
  let trimmed := trim value.toList
  if h : trimmed = [] then .error .emptyIdentityContent
  else if hlen : utf8Len trimmed ≤ identityContentMaxBytes then
    .ok ⟨trimmed, trim_trim_toList value, h, hlen⟩
  else .error (.identityContentTooLong (utf8Len trimmed) identityContentMaxBytes)

/-- What was checked once passes again. -/
theorem IdentityContent.tryFrom_asStr (content : IdentityContent) :
    IdentityContent.tryFrom content.asStr = .ok content := by
  simp only [tryFrom, asStr, String.toList_ofList, content.trimmed, content.ne_nil, content.len_le,
    dite_true, dite_false]

/-- Classification of an identity document. -/
inductive IdentityDocumentKind
  | name
  | about
  | preference
  | instruction
deriving DecidableEq, Repr

namespace IdentityDocumentKind

def asStr : IdentityDocumentKind → String
  | name => "name"
  | about => "about"
  | preference => "preference"
  | instruction => "instruction"

/-- Name, then about, then instructions, then preferences. -/
def renderPriority : IdentityDocumentKind → Nat
  | name => 0
  | about => 1
  | instruction => 2
  | preference => 3

def tryFromStr (s : String) : Except EntityError IdentityDocumentKind :=
  if s = "name" then .ok name
  else if s = "about" then .ok about
  else if s = "preference" then .ok preference
  else if s = "instruction" then .ok instruction
  else .error .invalidIdentityDocumentKind

theorem tryFromStr_asStr (kind : IdentityDocumentKind) : tryFromStr kind.asStr = .ok kind := by
  cases kind <;> rfl

end IdentityDocumentKind

/-- An identity document. -/
structure IdentityDocument where
  id : IdentityDocumentId
  kind : IdentityDocumentKind
  content : IdentityContent
  createdAt : UInt64
  updatedAt : UInt64

/-- `IdentityDocument::validate`. -/
def IdentityDocument.validate (doc : IdentityDocument) : Except EntityError Unit :=
  if doc.updatedAt < doc.createdAt then
    .error (.invalidIdentityDocument "updated_at earlier than created_at")
  else .ok ()

end Altior.Domain
