import Altior.Storage.Projection

/-!
# Folding domain events into the projections

`fold_domain_event_in_tx` of `altior-storage/src/lib.rs`: what one journal event
does to the tables.  Both the append path and the rebuild run it.
-/

namespace Altior.Storage

open Domain Lib

variable [SerdeJson]

open SerdeJson

/-- A string member of the payload, if the payload has one under the key. -/
def extractJsonString (bytes : Bytes) (k : String) : Option String :=
  (fromSlice bytes).bind fun v => v.getStr k

/-- The activity columns of a thread row after an event. -/
def ThreadRow.touch (row : ThreadRow) (seq : Int) (eventId kind : String) (at_ : Int) : ThreadRow :=
  { row with
    eventCount := row.eventCount + 1
    lastEventSeq := some seq
    lastEventId := some eventId
    lastEventKind := some kind
    updatedAt := at_ }

/-- Records thread activity; the row has to be there. -/
def updateThreadActivity (p : Projections) (thread : String) (seq : Int) (eventId kind : String)
    (at_ : Int) : Except StorageError Projections :=
  if thread ∈ p.thread then
    .ok (p.updateThread thread fun row => row.touch seq eventId kind at_)
  else .error (.invalidDomainEvent "thread missing during fold")

/-! ## Memories -/

/-- The row a memory draft in the payload inserts. -/
def draftRow (v : Json) (state source : String) (explicit : Bool) (occurredAt : Int) : MemoryRow where
  content := (v.getStr "content").getD ""
  scopeKind := (v.getStr "scope_kind").getD "global"
  scopeTarget := v.getStr "scope_target"
  kind := (v.getStr "kind").getD "fact"
  state := state
  -- `as i64` on the unsigned value
  confidence := ((v.getU64 "confidence").getD 100).toInt64.toInt
  sensitivity := (v.getStr "sensitivity").getD "normal"
  source := (v.getStr "source").getD source
  explicit := if (v.getBool "explicit").getD explicit then 1 else 0
  provenanceThreadId := v.getStr "provenance_thread_id"
  provenanceTurnId := v.getStr "provenance_turn_id"
  excerpt := v.getStr "excerpt"
  createdAt := occurredAt
  updatedAt := occurredAt
  expiresAt := v.getI64 "expires_at"
  supersededBy := none

/-- The draft written over an existing row; the creation time and the
supersession stay. -/
def MemoryRow.overwrite (old new : MemoryRow) : MemoryRow :=
  { new with createdAt := old.createdAt, supersededBy := old.supersededBy }

def foldMemoryProposedInTx (p : Projections) (event : DomainEvent) (occurredAt : Int) :
    Except StorageError Projections :=
  match fromSlice event.payload.asBytes with
  | none => .error (.invalidDomainEvent "payload is not JSON")
  | some v =>
    let memId := (v.getStr "memory_id").getD ""
    let row := draftRow v "candidate" "inferred" false occurredAt
    if memId ∈ p.memory then .ok (p.updateMemory memId fun old => old.overwrite row)
    else .ok (p.insertMemory memId row)

def foldMemoryConfirmedInTx (p : Projections) (event : DomainEvent) (occurredAt : Int) :
    Except StorageError Projections :=
  match fromSlice event.payload.asBytes with
  | none => .error (.invalidDomainEvent "payload is not JSON")
  | some v =>
    let memId := (v.getStr "memory_id").getD ""
    if memId ∈ p.memory then
      .ok (p.updateMemory memId fun row => { row with state := "confirmed", updatedAt := occurredAt })
    else .ok (p.insertMemory memId (draftRow v "confirmed" "explicit" true occurredAt))

/-- `UPDATE memory SET state = …, updated_at = …` for the memory the payload
names. -/
def setMemoryState (p : Projections) (event : DomainEvent) (state : String) (occurredAt : Int) :
    Projections :=
  p.updateMemory ((extractJsonString event.payload.asBytes "memory_id").getD "") fun row =>
    { row with state := state, updatedAt := occurredAt }

/-- What a memory event does to the memory table; `none` for the other kinds. -/
def foldMemory (p : Projections) (event : DomainEvent) (occurredAt : Int) :
    Option (Except StorageError Projections) :=
  match event.kind with
  | .memoryProposed => some (foldMemoryProposedInTx p event occurredAt)
  | .memoryConfirmed => some (foldMemoryConfirmedInTx p event occurredAt)
  | .memoryRejected => some (.ok (setMemoryState p event "rejected" occurredAt))
  | .memorySuperseded =>
    let memId := (extractJsonString event.payload.asBytes "memory_id").getD ""
    let supersededBy := (extractJsonString event.payload.asBytes "superseded_by").getD ""
    some (.ok (p.updateMemory memId fun row =>
      { row with supersededBy := some supersededBy, updatedAt := occurredAt }))
  | .memoryForgotten => some (.ok (setMemoryState p event "forgotten" occurredAt))
  | .memoryExpired => some (.ok (setMemoryState p event "expired" occurredAt))
  | _ => none

/-! ## Threads, turns and permissions -/

/-- Closes a turn: its state, its end and one more event. -/
def TurnRow.close (row : TurnRow) (state : String) (endedAt : Int) : TurnRow :=
  { row with state := state, eventCount := row.eventCount + 1, endedAt := some endedAt }

/-- The upsert of a `thread.created` event. -/
def foldThreadCreated (p : Projections) (event : DomainEvent) (threadId : String) (seq : Int)
    (occurredAt : Int) : Projections :=
  if threadId ∈ p.thread then
    p.updateThread threadId fun row => row.touch seq event.eventId.asStr event.kind.asStr occurredAt
  else
    p.insertThread threadId
      { agentProfileId := (extractJsonString event.payload.asBytes "agent_profile_id").getD ""
        title := (extractJsonString event.payload.asBytes "title").getD ""
        state := "open"
        projectId := extractJsonString event.payload.asBytes "project_id"
        eventCount := 1
        firstEventSeq := some seq
        lastEventSeq := some seq
        lastEventId := some event.eventId.asStr
        lastEventKind := some event.kind.asStr
        createdAt := occurredAt
        updatedAt := occurredAt }

/-- The upsert of a `turn.started` event. -/
def foldTurnStarted (p : Projections) (turnId threadId : String) (operationId : Option String)
    (occurredAt : Int) : Projections :=
  if turnId ∈ p.turn then
    p.updateTurn turnId fun row => { row with eventCount := row.eventCount + 1 }
  else
    p.insertTurn turnId
      { threadId := threadId, operationId := operationId, state := "active", delivery := "absent"
        eventCount := 1, startedAt := occurredAt, endedAt := none }

/-- The insert of a `permission.requested` event; an existing row stays. -/
def foldPermissionRequested (p : Projections) (event : DomainEvent) (turnId threadId : String)
    (occurredAt : Int) : Projections :=
  if event.eventId.asStr ∈ p.permission then p
  else
    p.insertPermission event.eventId.asStr
      { turnId := turnId, threadId := threadId
        kind := (extractJsonString event.payload.asBytes "permission_kind").getD "execute"
        description := (extractJsonString event.payload.asBytes "description").getD ""
        decision := "pending", requestedAt := occurredAt, decidedAt := none }

/-- The update of a `permission.decided` event. -/
def foldPermissionDecided (p : Projections) (event : DomainEvent) (occurredAt : Int) :
    Projections :=
  match extractJsonString event.payload.asBytes "permission_event_id" with
  | none => p
  | some permEventId =>
    p.updatePermission permEventId fun row =>
      { row with
        decision := (extractJsonString event.payload.asBytes "decision").getD "denied"
        decidedAt := some occurredAt }

/-- What a turn or permission event does to the turn and permission tables. -/
def foldTurnScope (p : Projections) (event : DomainEvent) (threadId : String) (occurredAt : Int) :
    Projections :=
  match event.kind, event.turnId with
  | .turnStarted, some turnId =>
    foldTurnStarted p turnId.asStr threadId (event.operationId.map Id.asStr) occurredAt
  | .turnCompleted, some turnId =>
    p.updateTurn turnId.asStr fun row =>
      { row.close "completed" occurredAt with delivery := "confirmed" }
  | .turnCancelled, some turnId => p.updateTurn turnId.asStr fun row => row.close "cancelled" occurredAt
  | .turnFailed, some turnId => p.updateTurn turnId.asStr fun row => row.close "failed" occurredAt
  | .messageDelta, some turnId =>
    p.updateTurn turnId.asStr fun row => { row with eventCount := row.eventCount + 1 }
  | .permissionRequested, some turnId =>
    foldPermissionRequested p event turnId.asStr threadId occurredAt
  | .permissionDecided, _ => foldPermissionDecided p event occurredAt
  | _, _ => p

/-- Folds one domain event into the projections. -/
def foldDomainEventInTx (p : Projections) (event : DomainEvent) (seq occurredAt : Int) :
    Except StorageError Projections :=
  let activity (p : Projections) (threadId : ThreadId) : Except StorageError Projections :=
    updateThreadActivity p threadId.asStr seq event.eventId.asStr event.kind.asStr occurredAt
  match foldMemory p event occurredAt with
  | some (.error e) => .error e
  | some (.ok p') =>
    match event.threadId with
    | some threadId => activity p' threadId
    | none => .ok p'
  | none =>
    match event.threadId with
    | none => .ok p
    | some threadId =>
      match event.kind with
      | .threadCreated => .ok (foldThreadCreated p event threadId.asStr seq occurredAt)
      | .threadTitleChanged =>
        .ok (p.updateThreadTitle threadId.asStr
          ((extractJsonString event.payload.asBytes "title").getD "")
          fun row => row.touch seq event.eventId.asStr event.kind.asStr occurredAt)
      | .threadStateChanged =>
        .ok (p.updateThread threadId.asStr fun row =>
          { row.touch seq event.eventId.asStr event.kind.asStr occurredAt with
            state := (extractJsonString event.payload.asBytes "state").getD "open" })
      | _ => activity (foldTurnScope p event threadId.asStr occurredAt) threadId

end Altior.Storage
