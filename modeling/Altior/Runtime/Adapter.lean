import Altior.Runtime.State

/-!
# The checkpoint adapter

How intents and settlements become rows of the store
(`altior-core/src/runtime/adapters/storage.rs`).  A checkpoint's identifier is a
hash of its kind, its thread and what it is about.
-/

namespace Altior.Runtime

open Domain Lib Storage

/-- A value written to a hasher. -/
inductive HashWrite
  | str (s : String)
  | u64 (n : UInt64)
deriving DecidableEq, Repr

/-- `std::collections::hash_map::DefaultHasher`: the hash of what was written so
far.  Its algorithm is not specified. -/
class DefaultHasher where
  finish : List HashWrite → UInt64

/-- A hash that multiplies and adds. -/
abbrev linearHasher : DefaultHasher where
  finish writes := writes.foldl (fun h w => match w with
    | .str s => s.toList.foldl (fun h c => h * 31 + c.toNat.toUInt64) h
    | .u64 n => h * 31 + n) 7

section Ids

variable [DefaultHasher]

/-- The constant written before the second half of an identifier is read. -/
def hashTail : UInt64 := 0x9e3779b97f4a7c15

def deterministicCheckpointId (kindTag : String) (threadId : ThreadId) (scope : String)
    (ts : UInt64) : RuntimeCheckpointId :=
  let writes := [.str kindTag, .str threadId.asStr, .str scope, .u64 ts]
  checkpointIdOf (DefaultHasher.finish writes) (DefaultHasher.finish (writes ++ [.u64 hashTail]))

def checkpointIdFromOp (op : OperationId) (threadId : ThreadId) (tag : String) (ts : UInt64) :
    RuntimeCheckpointId :=
  deterministicCheckpointId tag threadId op.asStr ts

def checkpointIdFromEvent (eventId : EventId) (threadId : ThreadId) (tag : String) (ts : UInt64) :
    RuntimeCheckpointId :=
  deterministicCheckpointId tag threadId eventId.asStr ts

/-- An operation identifier for a call that has none of its own; the tag is
dropped when it would not parse. -/
def syntheticOp (tag : String) (threadId : ThreadId) (ts : UInt64) : OperationId :=
  let h := DefaultHasher.finish [.str tag, .str threadId.asStr, .u64 ts]
  if htag : tag.toList.all isBodyChar = true ∧ tag.toList.length + 16 ≤ maxBodyLen then
    hexId ['o', 'p'] tag.toList [h] (by decide) (by decide) htag.1 (Nat.le_refl 1) htag.2
  else hexId ['o', 'p'] [] [h] (by decide) (by decide) List.all_nil (Nat.le_refl 1)
    (show 0 + 16 * 1 ≤ maxBodyLen by decide)

/-- The row an intent is recorded as. -/
def mapIntentToCheckpoint : CheckpointIntent → RuntimeCheckpoint
  | .prompt threadId turnId operationId timestamp =>
    { id := checkpointIdFromOp operationId threadId "prompt" timestamp
      threadId := threadId, turnId := some turnId, operationId := operationId
      boundaryKind := .prompt, state := .intent, remoteRequestId := none
      diagnosticSummary := none, createdAt := timestamp, settledAt := none }
  | .permissionDecision threadId turnId permissionId _ timestamp =>
    { id := checkpointIdFromEvent permissionId threadId "perm" timestamp
      threadId := threadId, turnId := some turnId
      operationId := syntheticOp "perm" threadId timestamp
      boundaryKind := .permissionDecision, state := .intent, remoteRequestId := none
      diagnosticSummary := none, createdAt := timestamp, settledAt := none }
  | .cancel threadId turnId operationId timestamp =>
    let op := operationId.getD (syntheticOp "cancel" threadId timestamp)
    { id := checkpointIdFromOp op threadId "cancel" timestamp
      threadId := threadId, turnId := turnId, operationId := op
      boundaryKind := .cancel, state := .intent, remoteRequestId := none
      diagnosticSummary := none, createdAt := timestamp, settledAt := none }
  | .close threadId timestamp =>
    let op := syntheticOp "close" threadId timestamp
    { id := checkpointIdFromOp op threadId "close" timestamp
      threadId := threadId, turnId := none, operationId := op
      boundaryKind := .close, state := .intent, remoteRequestId := none
      diagnosticSummary := none, createdAt := timestamp, settledAt := none }

end Ids

variable [SerdeJson]

/-- Settles each of the listed checkpoints; a checkpoint that cannot be settled
is left alone. -/
def settleEach (s : Store) (checkpoints : List RuntimeCheckpoint) (state : CheckpointState)
    (settledAt : UInt64) : Store :=
  checkpoints.foldl (fun s cp =>
    match s.settleRuntimeCheckpoint cp.id state none none settledAt with
    | .ok s' => s'
    | .error _ => s) s

/-- The state a finished turn settles its checkpoints to. -/
def terminalTarget : TurnState → DeliveryState → CheckpointState
  | .completed, .confirmed => .confirmed
  | .cancelled, .confirmed => .rejected
  | _, _ => .indeterminate

/-- Records a settlement.  A prompt in flight stays an intent, so that a restart
turns it into indeterminate. -/
def settleCheckpoint (s : Store) : CheckpointSettled → Except CheckpointError Store
  | .promptDelivered threadId _ delivery timestamp =>
    if delivery = .confirmed then
      .ok (settleEach s (s.activeCheckpoints threadId) .confirmed timestamp)
    else .ok s
  | .turnTerminal threadId turnId state delivery timestamp =>
    .ok (settleEach s
      ((s.activeCheckpoints threadId).filter fun cp =>
        cp.turnId == some turnId || cp.turnId.isNone)
      (terminalTarget state delivery) timestamp)
  | .permissionSettled threadId _ _ decision timestamp =>
    let settle (target : CheckpointState) : Except CheckpointError Store :=
      .ok (settleEach s
        ((s.activeCheckpoints threadId).filter fun cp => cp.boundaryKind == .permissionDecision)
        target timestamp)
    match decision with
    | .approved => settle .confirmed
    | .denied => settle .rejected
    | .pending => .error (.conflict "a pending permission is not a settlement")
  | .sessionClosed threadId timestamp =>
    .ok (settleEach s (s.activeCheckpoints threadId) .confirmed timestamp)

variable [DefaultHasher] [ErrorText]

/-- Records an intent. -/
def checkpointIntent (s : Store) (intent : CheckpointIntent) : Except CheckpointError Store :=
  match s.recordRuntimeIntent (mapIntentToCheckpoint intent) with
  | .ok s' => .ok s'
  | .error (.checkpointCollision _ detail) => .error (.conflict detail)
  | .error other => .error (.persistence (ErrorText.storage other))

/-- Records the session a thread is bound to. -/
def recordBinding (s : Store) (threadId : ThreadId) (binding : SessionBinding) :
    Except CheckpointError Store :=
  match s.replaceSessionBinding threadId binding with
  | .ok s' => .ok s'
  | .error e => .error (.persistence (ErrorText.storage e))

end Altior.Runtime
