import Altior.Domain.Id
import Altior.Domain.Json

/-!
# The domain journal record

Event kinds with their canonical names, bounded payloads and the domain event
(`altior-domain/src/entity.rs`).
-/

namespace Altior.Domain

/-- The entity errors of the modelled constructors. -/
inductive EntityError
  | invalidDomainEventKind
  | eventPayloadTooLarge (sizeBytes limitBytes : Nat)
  | eventPayloadNotUtf8
  | eventPayloadNotJsonObject
  | emptyLabel
  | labelTooLong (length max : Nat)
  | invalidMemoryScopeKind
  | invalidMemoryKind
  | invalidMemorySensitivity
  | invalidMemorySource
  | permissionDescriptionTooLong (length max : Nat)
  | invalidPermissionKind
  | invalidPermissionDecision
  | emptyMemoryContent
  | memoryContentTooLong (length max : Nat)
  | memoryExcerptTooLong (length max : Nat)
  | invalidMemoryState
  | invalidMemoryConfidence (value : UInt8)
  | invalidMemoryTransition (source target : String)
  | emptyIdentityContent
  | identityContentTooLong (length max : Nat)
  | invalidIdentityDocumentKind
  | invalidIdentityDocument (detail : String)
deriving DecidableEq, Repr

/-! ## Kinds -/

/-- Classification of a domain event for routing and projection. -/
inductive DomainEventKind
  | threadCreated
  | threadTitleChanged
  | threadStateChanged
  | turnStarted
  | messageDelta
  | turnCompleted
  | turnCancelled
  | turnFailed
  | permissionRequested
  | permissionDecided
  | memoryProposed
  | memoryConfirmed
  | memoryRejected
  | memorySuperseded
  | memoryForgotten
  | memoryExpired
  | other (name : String)
deriving DecidableEq, Repr

namespace DomainEventKind

/-- Maximum length in bytes of a kind name. -/
def maxOtherKindBytes : Nat := 128

/-- The canonical name. -/
def asStr : DomainEventKind → String
  | threadCreated => "thread.created"
  | threadTitleChanged => "thread.title_changed"
  | threadStateChanged => "thread.state_changed"
  | turnStarted => "turn.started"
  | messageDelta => "message.delta"
  | turnCompleted => "turn.completed"
  | turnCancelled => "turn.cancelled"
  | turnFailed => "turn.failed"
  | permissionRequested => "permission.requested"
  | permissionDecided => "permission.decided"
  | memoryProposed => "memory.proposed"
  | memoryConfirmed => "memory.confirmed"
  | memoryRejected => "memory.rejected"
  | memorySuperseded => "memory.superseded"
  | memoryForgotten => "memory.forgotten"
  | memoryExpired => "memory.expired"
  | other name => name

/-- The kinds with a name of their own. -/
def known : List DomainEventKind :=
  [threadCreated, threadTitleChanged, threadStateChanged, turnStarted, messageDelta, turnCompleted,
    turnCancelled, turnFailed, permissionRequested, permissionDecided, memoryProposed,
    memoryConfirmed, memoryRejected, memorySuperseded, memoryForgotten, memoryExpired]

/-- The characters a kind name is made of. -/
def isKindChar (c : Char) : Bool :=
  c.isLower || c.isDigit || c == '.' || c == '_' || c == '-'

/-- A non-empty, bounded name over `isKindChar`. -/
def canonicalName (s : String) : Bool :=
  !s.isEmpty && s.utf8ByteSize ≤ maxOtherKindBytes && s.toList.all isKindChar

/-- The kind a name belongs to: a known kind, or `other` of the name. -/
def ofName (s : String) : DomainEventKind :=
  (known.find? fun kind => kind.asStr == s).getD (other s)

/-- Parses a kind name. -/
def tryFromStr (s : String) : Except EntityError DomainEventKind :=
  if canonicalName s then .ok (ofName s) else .error .invalidDomainEventKind

/-- A custom kind that carries a known kind's name: its text parses as the known
kind. -/
def Masquerades : DomainEventKind → Prop
  | other s => s ∈ known.map asStr
  | _ => False

instance : DecidablePred Masquerades := fun kind => by
  cases kind <;> unfold Masquerades <;> infer_instance

/-- The text of a kind parses back to the kind unless it masquerades. -/
theorem ofName_asStr {kind : DomainEventKind} (h : ¬ kind.Masquerades) :
    ofName kind.asStr = kind := by
  cases kind with
  | other s =>
    have hnone : (known.find? fun kind => kind.asStr == s) = none := by
      rw [List.find?_eq_none]
      intro kind hkind heq
      exact h (List.mem_map.2 ⟨kind, hkind, by simpa using heq⟩)
    change (known.find? fun kind => kind.asStr == s).getD (other s) = other s
    rw [hnone, Option.getD_none]
  | _ => decide

/-- What parses keeps its text. -/
theorem asStr_of_tryFromStr {s : String} {kind : DomainEventKind} (h : tryFromStr s = .ok kind) :
    kind.asStr = s := by
  unfold tryFromStr at h
  split at h
  · cases h
    unfold ofName
    cases hfind : known.find? fun kind => kind.asStr == s with
    | none => rfl
    | some kind => simpa using List.find?_some hfind
  · cases h

end DomainEventKind

/-! ## Payloads -/

section

variable [SerdeJson]

open SerdeJson

/-- Maximum length of a payload in bytes. -/
def maxEventPayloadBytes : Nat := 1024 * 1024

/-- `EventPayload::try_from` as a check of the bytes. -/
def checkPayload (bytes : Bytes) : Except EntityError Unit :=
  if maxEventPayloadBytes < len bytes then
    .error (.eventPayloadTooLarge (len bytes) maxEventPayloadBytes)
  else if !isUtf8 bytes then .error .eventPayloadNotUtf8
  else match fromSlice bytes with
    | some (.object _) => .ok ()
    | _ => .error .eventPayloadNotJsonObject

/-- A bounded payload: the JSON object of one event. -/
structure EventPayload where
  asBytes : Bytes
  valid : checkPayload asBytes = .ok ()

namespace EventPayload

@[ext] theorem ext {a b : EventPayload} (h : a.asBytes = b.asBytes) : a = b := by
  cases a
  cases b
  cases h
  rfl

instance : DecidableEq EventPayload := fun a b =>
  decidable_of_iff (a.asBytes = b.asBytes) ⟨ext, congrArg asBytes⟩

/-- `EventPayload::try_from`. -/
def tryFrom (bytes : Bytes) : Except EntityError EventPayload :=
  match h : checkPayload bytes with
  | .ok () => .ok ⟨bytes, h⟩
  | .error e => .error e

@[simp] theorem tryFrom_asBytes (p : EventPayload) : tryFrom p.asBytes = .ok p := by
  unfold tryFrom
  split
  · rfl
  · rename_i e h
    rw [p.valid] at h
    cases h

theorem asBytes_of_tryFrom {bytes : Bytes} {p : EventPayload} (h : tryFrom bytes = .ok p) :
    p.asBytes = bytes := by
  unfold tryFrom at h
  split at h
  · cases h; rfl
  · cases h

/-- The length bound holds of every payload. -/
theorem len_le (p : EventPayload) : len p.asBytes ≤ maxEventPayloadBytes := by
  have h := p.valid
  unfold checkPayload at h
  split at h
  · cases h
  · omega

/-- Every payload parses to an object. -/
theorem exists_object (p : EventPayload) : ∃ fields, fromSlice p.asBytes = some (.object fields) := by
  have h := p.valid
  unfold checkPayload at h
  split at h
  · cases h
  · split at h
    · cases h
    · split at h
      · exact ⟨_, ‹_›⟩
      · cases h

end EventPayload

/-- A domain event: the durable record of one thing that happened. -/
structure DomainEvent where
  eventId : EventId
  threadId : Option ThreadId
  turnId : Option TurnId
  operationId : Option OperationId
  kind : DomainEventKind
  payload : EventPayload
  /-- Unix milliseconds. -/
  occurredAt : UInt64
deriving DecidableEq

end

variable {fields : List (String × Scalar)}

/-- What is written within the capacity is a payload. -/
theorem EventPayload.exists_of_len [SerdeJsonWriter] [LawfulWriter]
    (hnodup : (fields.map Prod.fst).Nodup)
    (hlen : SerdeJson.len (SerdeJsonWriter.toVec (.flat fields)) ≤ maxEventPayloadBytes) :
    ∃ payload, EventPayload.tryFrom (SerdeJsonWriter.toVec (.flat fields)) = .ok payload := by
  obtain ⟨fields', -, hread⟩ := LawfulWriter.fromSlice_toVec fields hnodup
  have hcheck : checkPayload (SerdeJsonWriter.toVec (.flat fields)) = .ok () := by
    unfold checkPayload
    rw [if_neg (Nat.not_lt.2 hlen), LawfulWriter.isUtf8_toVec, hread]
    rfl
  refine ⟨⟨_, hcheck⟩, ?_⟩
  unfold EventPayload.tryFrom
  split
  · rfl
  · rename_i e herror
    rw [hcheck] at herror
    cases herror

/-- The members of a written payload read back. -/
theorem EventPayload.get_of_tryFrom [SerdeJsonWriter] [LawfulWriter] {payload : EventPayload}
    (hnodup : (fields.map Prod.fst).Nodup)
    (h : EventPayload.tryFrom (SerdeJsonWriter.toVec (.flat fields)) = .ok payload) :
    ∃ v, SerdeJson.fromSlice payload.asBytes = some v ∧
      ∀ k a, (k, a) ∈ fields → v.get k = some (.scalar a) := by
  obtain ⟨fields', hperm, hread⟩ := LawfulWriter.fromSlice_toVec fields hnodup
  rw [EventPayload.asBytes_of_tryFrom h]
  exact ⟨_, hread, fun k a hmem => Json.get_flat hperm hnodup hmem⟩

theorem EventPayload.getStr_of_tryFrom [SerdeJsonWriter] [LawfulWriter] {payload : EventPayload}
    (hnodup : (fields.map Prod.fst).Nodup)
    (h : EventPayload.tryFrom (SerdeJsonWriter.toVec (.flat fields)) = .ok payload) :
    ∃ v, SerdeJson.fromSlice payload.asBytes = some v ∧
      ∀ k s, (k, Scalar.string s) ∈ fields → v.getStr k = some s := by
  obtain ⟨v, hv, hget⟩ := EventPayload.get_of_tryFrom hnodup h
  refine ⟨v, hv, fun k s hmem => ?_⟩
  unfold Json.getStr
  rw [hget k _ hmem]
  rfl

end Altior.Domain
