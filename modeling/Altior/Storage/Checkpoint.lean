import Altior.Domain.Turn
import Altior.Storage.Journal
import Mathlib.Data.List.Sort

/-!
# The store of the application

The domain journal next to the device-local tables of the runtime: checkpoints
of the calls across the harness boundary, session bindings and context snapshots
(`altior-storage/src/lib.rs`, `altior-storage/src/identity.rs`).  The local
tables take no part in rebuilding the projections.
-/

namespace Altior.Storage

open Domain Lib

/-- Page size of checkpoint listings. -/
def checkpointListLimitMax : Nat := 500

/-- Page size of turn listings. -/
def turnListLimitMax : Nat := 500

/-- Cap on the JSON text of a context snapshot in bytes. -/
def contextSnapshotPayloadMaxBytes : Nat := 64 * 1024

/-- A row of `thread_session_binding`, keyed by the thread. -/
structure SessionBinding where
  harnessBindingId : HarnessBindingId
  opaqueSessionId : String
  updatedAt : UInt64
deriving DecidableEq

/-- The audit record of an assembled context.  Everything in it but the identity
and the time is read through its JSON text, or as one of the texts that are
checked for secrets on their own. -/
structure ContextSnapshot where
  turnId : TurnId
  threadId : ThreadId
  createdAt : UInt64
  components : List String
  payloadJson : String
deriving DecidableEq

variable [SerdeJson]

open SerdeJson

/-- The durable state of one device. -/
structure Store where
  domain : DomainStore
  checkpoint : Table RuntimeCheckpointId RuntimeCheckpoint
  sessionBinding : Table ThreadId SessionBinding
  contextSnapshot : Table TurnId String
deriving DecidableEq

namespace Store

/-- A freshly migrated store. -/
def empty : Store := ⟨.empty, ∅, ∅, ∅⟩

/-! ## Domain projections -/

/-- `append_domain_event` on the whole store. -/
def appendDomainEvent (s : Store) (e : DomainEvent) : Except StorageError (AppendOutcome × Store) :=
  match Storage.appendDomainEvent s.domain e with
  | .ok (outcome, domain) => .ok (outcome, { s with domain := domain })
  | .error err => .error err

def threadById (s : Store) (threadId : ThreadId) : Option ThreadRow :=
  s.domain.projections.thread[threadId.asStr]?

/-- The first turns of a thread, oldest first. -/
def turnsForThread (s : Store) (threadId : ThreadId) (limit : Nat) : List (String × TurnRow) :=
  ((s.domain.projections.turn.toList.filter fun (turnId, row) =>
      row.threadId == threadId.asStr
        && (-1 < row.startedAt || (row.startedAt == -1 && "" < turnId))).insertionSort
    fun a b => a.2.startedAt ≤ b.2.startedAt).take limit

/-! ## Runtime checkpoints -/

/-- The turn of an intent exists and belongs to its thread. -/
def checkIntentTurn (s : Store) (checkpoint : RuntimeCheckpoint) : Except StorageError Unit :=
  match checkpoint.turnId with
  | none => .ok ()
  | some turnId =>
    match s.domain.projections.turn[turnId.asStr]? with
    | none => .error (.turnNotFound turnId.asStr)
    | some row =>
      if row.threadId ≠ checkpoint.threadId.asStr then
        .error (.turnThreadMismatch turnId.asStr checkpoint.threadId.asStr row.threadId)
      else .ok ()

/-- Durably records an intent before an external call.  Recording the same
intent again changes nothing, whatever its state is by now. -/
def recordRuntimeIntent (s : Store) (checkpoint : RuntimeCheckpoint) : Except StorageError Store :=
  if checkpoint.state ≠ .intent then
    .error (.invalidCheckpointTransition checkpoint.id.asStr
      "record_runtime_intent requires state to be intent")
  else do
    s.checkIntentTurn checkpoint
    match s.checkpoint[checkpoint.id]? with
    | some existing =>
      if existing.threadId = checkpoint.threadId ∧ existing.turnId = checkpoint.turnId
          ∧ existing.operationId = checkpoint.operationId
          ∧ existing.boundaryKind = checkpoint.boundaryKind
          ∧ existing.createdAt = checkpoint.createdAt then .ok s
      else .error (.checkpointCollision checkpoint.id.asStr
        "existing checkpoint has conflicting intent parameters")
    | none =>
      if i64Max < checkpoint.createdAt.toNat then
        .error (.invalidEntityData ("created_at " ++ toString checkpoint.createdAt.toNat
          ++ " exceeds i64 column"))
      else if i64Max < (checkpoint.settledAt.getD 0).toNat then
        .error (.invalidEntityData ("settled_at "
          ++ toString (checkpoint.settledAt.getD 0).toNat ++ " exceeds i64 column"))
      else .ok { s with checkpoint := s.checkpoint.insert checkpoint.id checkpoint }

/-- Durably settles an intent; settling again to the same state changes nothing. -/
def settleRuntimeCheckpoint (s : Store) (id : RuntimeCheckpointId) (state : CheckpointState)
    (remoteRequestId diagnosticSummary : Option String) (settledAt : UInt64) :
    Except StorageError Store :=
  if !state.isTerminal then
    .error (.invalidCheckpointTransition id.asStr "cannot settle to non-terminal state")
  else match s.checkpoint[id]? with
    | none => .error (.checkpointNotFound id.asStr)
    | some existing =>
      if existing.state = .intent then
        if i64Max < settledAt.toNat then
          .error (.invalidEntityData ("settled_at " ++ toString settledAt.toNat
            ++ " exceeds i64 column"))
        else .ok { s with checkpoint := s.checkpoint.update id fun row =>
          { row with
            state := state
            remoteRequestId := remoteRequestId
            diagnosticSummary := diagnosticSummary
            settledAt := some settledAt } }
      else if existing.state = state then .ok s
      else .error (.checkpointSettlementConflict id.asStr existing.state.asStr state.asStr)

/-- A row after the recovery of unsettled intents. -/
def recoverCheckpoint (row : RuntimeCheckpoint) : RuntimeCheckpoint :=
  if row.state = .intent then
    { row with state := .indeterminate, settledAt := some (row.settledAt.getD row.createdAt) }
  else row

/-- Marks every unsettled intent as indeterminate. -/
def recoverUnsettledCheckpoints (s : Store) : Store :=
  { s with checkpoint := s.checkpoint.map fun _ row => recoverCheckpoint row }

/-- The first checkpoints that meet a condition, newest first and by id within
one time; the rows come out of the table in the order of their ids. -/
def listCheckpoints (s : Store) (keep : RuntimeCheckpoint → Bool) (limit : Nat) :
    List RuntimeCheckpoint :=
  (((s.checkpoint.toList.map Prod.snd).filter keep).insertionSort
    fun a b => b.createdAt ≤ a.createdAt).take limit

def runtimeCheckpoints (s : Store) (threadId : ThreadId) : List RuntimeCheckpoint :=
  s.listCheckpoints (fun row => row.threadId == threadId) checkpointListLimitMax

/-- The unsettled intents of a thread. -/
def activeCheckpoints (s : Store) (threadId : ThreadId) : List RuntimeCheckpoint :=
  s.listCheckpoints (fun row => row.state == .intent && row.threadId == threadId)
    checkpointListLimitMax

/-! ## Session bindings and context snapshots -/

def replaceSessionBinding (s : Store) (threadId : ThreadId) (binding : SessionBinding) :
    Except StorageError Store :=
  if i64Max < binding.updatedAt.toNat then
    .error (.invalidEntityData ("updated_at " ++ toString binding.updatedAt.toNat
      ++ " exceeds i64 column"))
  else .ok { s with sessionBinding := s.sessionBinding.insert threadId binding }

/-- Records the snapshot of a turn once; the same text again is accepted.  The
source also compares the parsed snapshots, which are equal only when the texts
are. -/
def recordContextSnapshot (s : Store) (snapshot : ContextSnapshot) : Except StorageError Store :=
  if snapshot.components.any isSecretShaped || isSecretShaped snapshot.payloadJson then
    .error .secretShapedContent
  else if contextSnapshotPayloadMaxBytes < snapshot.payloadJson.utf8ByteSize then
    .error (.payloadTooLarge snapshot.payloadJson.utf8ByteSize contextSnapshotPayloadMaxBytes)
  else if i64Max < snapshot.createdAt.toNat then
    .error (.invalidEntityData ("created_at " ++ toString snapshot.createdAt.toNat
      ++ " exceeds i64"))
  else match s.contextSnapshot[snapshot.turnId]? with
    | some existing =>
      if existing = snapshot.payloadJson then .ok s
      else .error (.contextSnapshotConflict snapshot.turnId.asStr)
    | none => .ok { s with
        contextSnapshot := s.contextSnapshot.insert snapshot.turnId snapshot.payloadJson }

/-! ## Opening -/

/-- `Store::open_inner`: heals the projections, then recovers the checkpoints.  The
second component is what is left on disk when the first is an error. -/
def openInner (s : Store) : Except StorageError Unit × Store :=
  match ensureDomainProjectionsCurrent s.domain with
  | (.ok (), domain) => (.ok (), { s with domain := domain }.recoverUnsettledCheckpoints)
  | (.error e, domain) => (.error e, { s with domain := domain })

end Store

end Altior.Storage
