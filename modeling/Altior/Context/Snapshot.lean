import Altior.Domain.Identity

/-!
# The audit record of an assembled context

What is kept of the context of one turn (`altior-domain/src/identity.rs`), with the
memory hits it is assembled from and its serialized shape.
-/

namespace Altior.Context

open Domain

/-! ## Scores -/

/-- The bits of a 64-bit float. -/
abbrev F64 : Type := UInt64

/-- The exponent is full and the fraction is not zero. -/
def F64.isNan (x : F64) : Bool := 0x7ff0000000000000 < x &&& 0x7fffffffffffffff

/-- The order of the floats that are numbers; the two zeros are one. -/
def F64.key (x : F64) : Int :=
  let magnitude : Int := (x &&& 0x7fffffffffffffff).toNat
  if x &&& 0x8000000000000000 = 0 then magnitude else -magnitude

/-- `f64::partial_cmp`. -/
def F64.partialCmp (x y : F64) : Option Ordering :=
  if x.isNan || y.isNan then none else some (compare x.key y.key)

example : F64.partialCmp 0x8000000000000000 0 = some .eq := by decide
example : F64.partialCmp 0xbff0000000000000 0x3ff0000000000000 = some .lt := by decide

/-! ## Memory hits -/

/-- Whether and how far memories are used. -/
inductive MemoryMode
  | off
  | session
  | longTerm
deriving DecidableEq, Repr

/-- `MemoryMode::try_from_str`. -/
def MemoryMode.tryFromStr (s : String) : Option MemoryMode :=
  if s = "off" then some .off
  else if s = "session" then some .session
  else if s = "long_term" then some .longTerm
  else none

/-- Whether a scope may be injected in the given context. -/
def isAllowedInContext (scope : MemoryScope) (mode : MemoryMode) (targetThreadId : ThreadId)
    (targetProjectId : Option ProjectId) : Bool :=
  match mode, scope with
  | .off, _ => false
  | .session, .thread label => String.ofList label.chars = targetThreadId.asStr
  | .session, _ => false
  | .longTerm, .global | .longTerm, .person _ => true
  | .longTerm, .thread label => String.ofList label.chars = targetThreadId.asStr
  | .longTerm, .project label =>
    targetProjectId.any fun p => String.ofList label.chars = p.asStr

/-- `Display` of a scope. -/
def displayScope : MemoryScope → String
  | .global => "global"
  | .person label => "person:" ++ String.ofList label.chars
  | .project label => "project:" ++ String.ofList label.chars
  | .thread label => "thread:" ++ String.ofList label.chars

/-- The part of `MemoryMatchExplanation` the assembler reads. -/
structure MemoryMatchExplanation where
  totalScore : F64
  whySelected : String

/-- A memory found by the search. -/
structure MemoryHit where
  record : MemoryRecord
  explanation : MemoryMatchExplanation

/-! ## The record -/

/-- Why a memory is not in the prompt. -/
inductive ContextDropReason
  | budgetExhausted
  | scopeDisallowed
deriving DecidableEq, Repr

def ContextDropReason.asStr : ContextDropReason → String
  | budgetExhausted => "budget_exhausted"
  | scopeDisallowed => "scope_disallowed"

/-- A recorded lack of information. -/
structure ContextDegradation where
  code : String
  detail : String
deriving DecidableEq, Repr

/-- Token accounting. -/
structure ContextTokenBudget where
  identityLimitTokens : Nat
  memoryLimitTokens : Nat
  promptTokens : Nat
  identityTokens : Nat
  memoryTokens : Nat
  totalTokens : Nat

/-- A document in the prompt. -/
structure ContextIdentityEntry where
  documentId : IdentityDocumentId
  kind : IdentityDocumentKind
  tokens : Nat

/-- A memory in the prompt. -/
structure ContextMemoryEntry where
  memoryId : MemoryId
  kind : MemoryKind
  scope : MemoryScope
  confidence : UInt8
  explicit : Bool
  tokens : Nat
  score : F64
  whySelected : String
  provenanceThreadId : Option ThreadId
  provenanceTurnId : Option TurnId

/-- A memory left out of the prompt. -/
structure ContextDroppedEntry where
  memoryId : MemoryId
  tokens : Nat
  rank : Nat
  reason : ContextDropReason

/-- The audit record of one turn. -/
structure ContextSnapshot where
  turnId : TurnId
  threadId : ThreadId
  memoryMode : String
  createdAt : UInt64
  passthrough : Bool
  budget : ContextTokenBudget
  identity : List ContextIdentityEntry
  memories : List ContextMemoryEntry
  dropped : List ContextDroppedEntry
  degraded : Option ContextDegradation
  renderedPrompt : Option String

/-! ## The serialized shape -/

def text (s : String) : Json := .scalar (.string s)

def number (n : Nat) : Json := .scalar (.number (.posInt (.ofNat n)))

def orNull {α : Type} (f : α → Json) : Option α → Json
  | none => .scalar .null
  | some a => f a

/-- A variant with a label is an object of one member. -/
def scopeJson : MemoryScope → Json
  | .global => text "Global"
  | .person label => .object [("Person", text (String.ofList label.chars))]
  | .project label => .object [("Project", text (String.ofList label.chars))]
  | .thread label => .object [("Thread", text (String.ofList label.chars))]

def ContextTokenBudget.toJson (budget : ContextTokenBudget) : Json :=
  .object
    [("identity_limit_tokens", number budget.identityLimitTokens),
      ("memory_limit_tokens", number budget.memoryLimitTokens),
      ("prompt_tokens", number budget.promptTokens),
      ("identity_tokens", number budget.identityTokens),
      ("memory_tokens", number budget.memoryTokens),
      ("total_tokens", number budget.totalTokens)]

def ContextIdentityEntry.toJson (entry : ContextIdentityEntry) : Json :=
  .object
    [("document_id", text entry.documentId.asStr), ("kind", text entry.kind.asStr),
      ("tokens", number entry.tokens)]

def ContextMemoryEntry.toJson (entry : ContextMemoryEntry) : Json :=
  .object
    [("memory_id", text entry.memoryId.asStr), ("kind", text entry.kind.asStr),
      ("scope", scopeJson entry.scope), ("confidence", number entry.confidence.toNat),
      ("explicit", .scalar (.bool entry.explicit)), ("tokens", number entry.tokens),
      ("score", .scalar (.number (.float entry.score))), ("why_selected", text entry.whySelected),
      ("provenance_thread_id", orNull (fun id => text id.asStr) entry.provenanceThreadId),
      ("provenance_turn_id", orNull (fun id => text id.asStr) entry.provenanceTurnId)]

def ContextDroppedEntry.toJson (entry : ContextDroppedEntry) : Json :=
  .object
    [("memory_id", text entry.memoryId.asStr), ("tokens", number entry.tokens),
      ("rank", number entry.rank), ("reason", text entry.reason.asStr)]

def ContextDegradation.toJson (degraded : ContextDegradation) : Json :=
  .object [("code", text degraded.code), ("detail", text degraded.detail)]

/-- The members in the order of the fields; the prompt is left out when there is
none. -/
def ContextSnapshot.toJson (snapshot : ContextSnapshot) : Json :=
  .object
    ([("turn_id", text snapshot.turnId.asStr), ("thread_id", text snapshot.threadId.asStr),
      ("memory_mode", text snapshot.memoryMode), ("created_at", number snapshot.createdAt.toNat),
      ("passthrough", .scalar (.bool snapshot.passthrough)), ("budget", snapshot.budget.toJson),
      ("identity", .array (snapshot.identity.map ContextIdentityEntry.toJson)),
      ("memories", .array (snapshot.memories.map ContextMemoryEntry.toJson)),
      ("dropped", .array (snapshot.dropped.map ContextDroppedEntry.toJson)),
      ("degraded", orNull ContextDegradation.toJson snapshot.degraded)]
      ++ (snapshot.renderedPrompt.map fun prompt => ("rendered_prompt", text prompt)).toList)

/-- The writer of JSON texts. -/
class JsonWriter where
  /-- `serde_json::to_string` of a value of this shape. -/
  toString : Json → Except String String

end Altior.Context
