import Altior.Lib.Proc
import Altior.Runtime.Adapter

/-!
# Thread supervision

The state machine that runs one thread's turns over the harness and the
checkpoint port (`altior-core/src/runtime/supervisor.rs`), and the coordinator
that keeps one such machine for each thread
(`altior-core/src/runtime/coordinator.rs`).  A port call is an atomic action; a
crash falls between two of them.
-/

namespace Altior.Runtime

open Domain Lib Storage

/-- Capacity of the per-thread operation registry. -/
def operationRegistryCapacity : Nat := 32

/-- The supervisor of one thread.  Who owns a running turn when the desktop goes
away is not part of it. -/
structure ThreadRuntimeSupervisor where
  threadId : ThreadId
  sessionId : Option HarnessSessionId
  capabilities : CapabilitySet
  state : SupervisorState
  operations : OperationRegistry
  turnHistory : Table TurnId TurnExecutionRecord

/-- The turn of a state that has one. -/
def SupervisorState.activeTurnId : SupervisorState → Option TurnId
  | prompting turnId _ _ => some turnId
  | awaitingPermission turnId _ _ => some turnId
  | cancelling (some turnId) _ => some turnId
  | _ => none

/-- The turn and the operation of a state that has both. -/
def SupervisorState.activeWork : SupervisorState → Option (TurnId × OperationId)
  | prompting turnId operationId _ => some (turnId, operationId)
  | awaitingPermission turnId operationId _ => some (turnId, operationId)
  | cancelling (some turnId) (some operationId) => some (turnId, operationId)
  | _ => none

namespace ThreadRuntimeSupervisor

/-- A supervisor without a session. -/
def new (threadId : ThreadId) : ThreadRuntimeSupervisor :=
  ⟨threadId, none, ∅, .idle, .new operationRegistryCapacity, ∅⟩

def markStarting (v : ThreadRuntimeSupervisor) : ThreadRuntimeSupervisor :=
  { v with state := .starting }

def resetIdle (v : ThreadRuntimeSupervisor) : ThreadRuntimeSupervisor :=
  { v with state := .idle, sessionId := none }

def onSessionEstablished (v : ThreadRuntimeSupervisor) (info : HarnessSessionInfo) :
    ThreadRuntimeSupervisor :=
  { v with sessionId := some info.sessionId, capabilities := info.capabilities, state := .ready }

/-- Refuses a capability that is declared unsupported. -/
def checkCapability (v : ThreadRuntimeSupervisor) (capability : String) : Except RuntimeError Unit :=
  if v.capabilities[capability]? = some .unsupported then
    .error (.unsupportedCapability capability)
  else .ok ()

/-- Refuses a turn that may have been delivered already. -/
def checkHistory (v : ThreadRuntimeSupervisor) (turnId : TurnId) : Except RuntimeError Unit :=
  match v.turnHistory[turnId]? with
  | some record =>
    if record.delivery = .indeterminate ∨ record.delivery = .confirmed then
      .error (.automaticResendForbidden v.threadId turnId record.delivery)
    else .ok ()
  | none => .ok ()

/-- Refuses a supervisor that is not ready. -/
def checkReady (v : ThreadRuntimeSupervisor) : Except RuntimeError Unit :=
  if v.state = .ready then .ok ()
  else match v.state.activeTurnId with
    | some active => .error (.activeOperationInProgress v.threadId active)
    | none => .error (.sessionNotReady (.state v.state))

/-- The session of a supervisor that has one. -/
def boundSession (v : ThreadRuntimeSupervisor) : Except RuntimeError HarnessSessionId :=
  match v.sessionId with
  | some sessionId => .ok sessionId
  | none => .error (.sessionNotReady (.text "no bound session"))

/-- The checks a prompt passes before its operation is looked at. -/
def checkPrompt (v : ThreadRuntimeSupervisor) (turnId : TurnId) :
    Except RuntimeError HarnessSessionId := do
  v.checkHistory turnId
  v.checkReady
  v.boundSession

def preflightPrompt (v : ThreadRuntimeSupervisor) (operationId : OperationId) (turnId : TurnId) :
    Except RuntimeError TurnAdmission := do
  let _ ← v.checkPrompt turnId
  pure (if v.operations.knows operationId then .duplicate else .admitted)

/-- The turn awaiting the given permission. -/
def activePermissionTurnId (v : ThreadRuntimeSupervisor) (permissionId : EventId) : Option TurnId :=
  match v.state with
  | .awaitingPermission turnId _ pending => if pending = permissionId then some turnId else none
  | _ => none

/-- The supervisor after a turn ended. -/
def endTurn (v : ThreadRuntimeSupervisor) (turnId : TurnId) (operationId : OperationId)
    (state : TurnState) (delivery : DeliveryState) (next : SupervisorState) :
    ThreadRuntimeSupervisor :=
  { v with
    operations := v.operations.retire operationId
    turnHistory := v.turnHistory.insert turnId ⟨turnId, operationId, delivery, state⟩
    state := next }

end ThreadRuntimeSupervisor

/-! ## One thread -/

variable [SerdeJsonWriter]

/-- A supervisor with the two ports it is called with. -/
structure Supervised (H : Type) where
  supervisor : ThreadRuntimeSupervisor
  harness : H
  store : Store

variable {H : Type}

/-- A call of the harness. -/
def callHarness {α : Type} (f : H → Except HarnessError α × H) :
    Proc (Supervised H) HarnessError α :=
  .act fun s => ((f s.harness).1, { s with harness := (f s.harness).2 })

/-- A call of the checkpoint port. -/
def callCheckpoint (f : Store → Except CheckpointError Store) :
    Proc (Supervised H) RuntimeError Unit :=
  .act fun s =>
    match f s.store with
    | .ok store => (.ok (), { s with store := store })
    | .error e => (.error (.checkpoint e), s)

/-- A change of the supervisor in memory. -/
def onSupervisor (f : ThreadRuntimeSupervisor → ThreadRuntimeSupervisor) :
    Proc (Supervised H) RuntimeError Unit :=
  .modify fun s => { s with supervisor := f s.supervisor }

/-! ## Polling -/

/-- An event for which no turn is running. -/
def untracked (v : ThreadRuntimeSupervisor) (name raw : String) : RuntimeEvent :=
  .unknown v.threadId name (.fromRaw raw)

/-- Ends the running turn: settles its checkpoints, then moves on.  A failed
settlement leaves the supervisor as it was. -/
def finishTurn (turnId : TurnId) (operationId : OperationId) (state : TurnState)
    (delivery : DeliveryState) (next : SupervisorState) (now : UInt64) :
    Proc (Supervised H) RuntimeError Unit := do
  let v := (← Proc.get).supervisor
  callCheckpoint fun s =>
    settleCheckpoint s (.turnTerminal v.threadId turnId state delivery now)
  onSupervisor fun v => v.endTurn turnId operationId state delivery next

/-- The process exited in the middle of a turn; a failed settlement is ignored. -/
def crashTurn (turnId : TurnId) (operationId : OperationId) (exitCode : Option Int32)
    (now : UInt64) : Proc (Supervised H) RuntimeError Unit := do
  let v := (← Proc.get).supervisor
  Proc.ignore (callCheckpoint fun s =>
    settleCheckpoint s (.turnTerminal v.threadId turnId .failed .indeterminate now))
  onSupervisor fun v => v.endTurn turnId operationId .failed .indeterminate
    (.crashed ("unexpected subprocess exit with code " ++ debugExitCode exitCode) .indeterminate)

/-- The text of an untracked completion. -/
def completedText (payload : Option EventPayload) : String :=
  (payload.map fun p => SerdeJsonWriter.text p.asBytes).getD "completed without active turn"

/-- Applies one harness event. -/
def applyEvent (event : HarnessEvent) (now : UInt64) :
    Proc (Supervised H) RuntimeError (Option RuntimeEvent) := do
  let v := (← Proc.get).supervisor
  match event with
  | .started turnId => pure (some (.turnStarted v.threadId turnId))
  | .messageDelta text =>
    match v.state.activeTurnId with
    | some turnId => pure (some (.messageDelta v.threadId turnId text))
    | none => pure (some (untracked v "untracked.message_delta" text))
  | .permissionRequest eventId kind description =>
    match v.state with
    | .prompting turnId operationId _ => do
        onSupervisor fun v => { v with state := .awaitingPermission turnId operationId eventId }
        pure (some (.permissionRequested v.threadId turnId eventId kind description))
    | _ => pure none
  | .completed payload =>
    match v.state.activeWork with
    | some (turnId, operationId) => do
        finishTurn turnId operationId .completed .confirmed .ready now
        pure (some (.turnCompleted v.threadId turnId payload))
    | none => pure (some (untracked v "untracked.completed" (completedText payload)))
  | .cancelled =>
    match v.state.activeWork with
    | some (turnId, operationId) => do
        finishTurn turnId operationId .cancelled .confirmed .ready now
        pure (some (.turnCancelled v.threadId turnId))
    | none => pure (some (untracked v "untracked.cancelled" "cancelled without active turn"))
  | .failed error delivery =>
    match v.state.activeWork with
    | some (turnId, operationId) => do
        finishTurn turnId operationId .failed delivery
          (if delivery = .indeterminate then .crashed error delivery else .ready) now
        pure (some (.turnFailed v.threadId turnId error delivery))
    | none => pure (some (untracked v "untracked.failed" error))
  | .processExited exitCode => do
      match v.state with
      | .prompting turnId operationId _ => crashTurn turnId operationId exitCode now
      | .awaitingPermission turnId operationId _ => crashTurn turnId operationId exitCode now
      | .cancelling _ _ | .ready | .idle => onSupervisor fun v => { v with state := .closed }
      | .closed | .crashed _ _ | .starting => pure ()
      pure (some (.processExited v.threadId exitCode))
  | .toolCall toolCallId status =>
    match v.state.activeTurnId with
    | some turnId => pure (some (.toolCall v.threadId turnId toolCallId status))
    | none => pure (some (untracked v "untracked.tool_call" toolCallId))
  | .rawUnknown name data => pure (some (.unknown v.threadId name (.fromRaw data)))

variable [HarnessRuntimePort H]

/-- Takes the next event of the harness, if there is one, and applies it. -/
def pollStream (now : UInt64) : Proc (Supervised H) RuntimeError (Option RuntimeEvent) := do
  match (← Proc.get).supervisor.sessionId with
  | none => pure none
  | some sessionId =>
    match ← (callHarness fun h => HarnessRuntimePort.pollEvent h sessionId).mapError .harness with
    | none => pure none
    | some event => applyEvent event now

/-! ## Commands -/

variable [DefaultHasher] [ErrorText]

/-- Initiates a prompt turn.  A failed call leaves the delivery unknown, so the
turn is settled as indeterminate and the supervisor has crashed. -/
def prompt (operationId : OperationId) (turnId : TurnId) (content : String) (now : UInt64) :
    Proc (Supervised H) RuntimeError TurnAdmission := do
  let v := (← Proc.get).supervisor
  let sessionId ← Proc.ofExcept (v.checkPrompt turnId)
  match v.operations.admitOperation operationId with
  | (.ok .duplicate, _) => pure .duplicate
  | (.error err, _) => Proc.fail (.operationAdmitFailed err)
  | (.ok .execute, operations) => do
      onSupervisor fun v => { v with operations := operations }
      callCheckpoint fun s => checkpointIntent s (.prompt v.threadId turnId operationId now)
      match ← (callHarness fun h =>
          HarnessRuntimePort.sendPrompt h sessionId ⟨turnId, operationId, content⟩).attempt with
      | .error err => do
          Proc.ignore (callCheckpoint fun s =>
            settleCheckpoint s (.promptDelivered v.threadId turnId .indeterminate now))
          Proc.ignore (callCheckpoint fun s =>
            settleCheckpoint s (.turnTerminal v.threadId turnId .failed .indeterminate now))
          onSupervisor fun v =>
            { v with
              turnHistory := v.turnHistory.insert turnId
                ⟨turnId, operationId, .indeterminate, .failed⟩
              state := .crashed err.display .indeterminate }
          Proc.fail (.harness err)
      | .ok () => do
          callCheckpoint fun s =>
            settleCheckpoint s (.promptDelivered v.threadId turnId .indeterminate now)
          onSupervisor fun v => { v with state := .prompting turnId operationId .indeterminate }
          pure .admitted

/-- Submits a decision on the permission the supervisor awaits. -/
def decidePermission (permissionId : EventId) (decision : PermissionDecision) (now : UInt64) :
    Proc (Supervised H) RuntimeError Unit := do
  let v := (← Proc.get).supervisor
  match v.state with
  | .awaitingPermission turnId operationId pending =>
    if pending ≠ permissionId then Proc.fail (.permissionNotFound v.threadId permissionId)
    else match v.sessionId with
      | none => Proc.fail (.sessionNotReady (.text "no bound session"))
      | some sessionId => do
          callCheckpoint fun s => checkpointIntent s
            (.permissionDecision v.threadId turnId permissionId decision now)
          (callHarness fun h =>
            HarnessRuntimePort.decidePermission h sessionId permissionId decision).mapError
              .harness
          callCheckpoint fun s => settleCheckpoint s
            (.permissionSettled v.threadId turnId permissionId decision now)
          onSupervisor fun v => { v with state := .prompting turnId operationId .indeterminate }
  | _ => Proc.fail (.permissionNotFound v.threadId permissionId)

/-- Asks the harness to cancel the running turn. -/
def cancelActive (v : ThreadRuntimeSupervisor) (now : UInt64) :
    Proc (Supervised H) RuntimeError CancelOutcome :=
  match v.state.activeWork, v.sessionId with
  | some (turnId, operationId), some sessionId => do
      callCheckpoint fun s => checkpointIntent s
        (.cancel v.threadId (some turnId) (some operationId) now)
      (callHarness fun h => HarnessRuntimePort.cancelTurn h sessionId).mapError .harness
      onSupervisor fun v => { v with state := .cancelling (some turnId) (some operationId) }
      pure .cancelledActive
  | _, _ => Proc.fail (.sessionNotReady (.text "no bound session"))

/-- Initiates the cancellation of the running turn, if there is one. -/
def steerCancel (now : UInt64) : Proc (Supervised H) RuntimeError CancelOutcome := do
  let v := (← Proc.get).supervisor
  Proc.ofExcept (v.checkCapability "session.cancel")
  match v.state with
  | .cancelling _ _ => pure .alreadyCancelling
  | .prompting _ _ _ | .awaitingPermission _ _ _ => cancelActive v now
  | _ => pure .noActiveTurn

/-- Closes the session; failures on the way are ignored. -/
def closeSession (now : UInt64) : Proc (Supervised H) RuntimeError Unit := do
  let v := (← Proc.get).supervisor
  match v.sessionId with
  | none => pure ()
  | some sessionId => do
      onSupervisor fun v => { v with sessionId := none }
      Proc.ignore (callCheckpoint fun s => checkpointIntent s (.close v.threadId now))
      Proc.ignore ((callHarness fun h =>
        HarnessRuntimePort.closeSession h sessionId).mapError .harness)
      Proc.ignore (callCheckpoint fun s => settleCheckpoint s (.sessionClosed v.threadId now))
  onSupervisor fun v => { v with state := .closed }

/-- The storage adapter's `bind_session`. -/
def bindSession (binding : AcpHarnessBinding) (sessionId : HarnessSessionId) (now : UInt64) :
    Proc (Supervised H) RuntimeError Unit := do
  let v := (← Proc.get).supervisor
  callCheckpoint fun s => recordBinding s v.threadId ⟨binding.id, sessionId.asStr, now⟩

/-- `create_session` of the coordinator on the thread's supervisor. -/
def createSession (binding : AcpHarnessBinding) (now : UInt64) :
    Proc (Supervised H) RuntimeError HarnessSessionId := do
  let v := (← Proc.get).supervisor
  if v.sessionId.isSome then Proc.fail (.sessionAlreadyActive v.threadId)
  else do
    onSupervisor fun v => v.markStarting
    match ← (callHarness fun h =>
        HarnessRuntimePort.createSession h binding v.threadId).attempt with
    | .error err => do
        onSupervisor fun v => v.resetIdle
        Proc.fail (.harness err)
    | .ok info => do
        Proc.ignore (bindSession binding info.sessionId now)
        onSupervisor fun v => v.onSessionEstablished info
        pure info.sessionId

/-- `resume_session` of the coordinator on the thread's supervisor. -/
def resumeSession (binding : AcpHarnessBinding) (sessionId : HarnessSessionId) (now : UInt64) :
    Proc (Supervised H) RuntimeError Unit := do
  let v := (← Proc.get).supervisor
  if v.sessionId.isSome then Proc.fail (.sessionAlreadyActive v.threadId)
  else do
    onSupervisor fun v => v.markStarting
    match ← (callHarness fun h =>
        HarnessRuntimePort.resumeSession h binding sessionId v.threadId).attempt with
    | .error err => do
        onSupervisor fun v => v.resetIdle
        Proc.fail (.harness err)
    | .ok info =>
      if info.capabilities["session.resume"]? = some .unsupported then do
        onSupervisor fun v => v.resetIdle
        Proc.fail (.unsupportedCapability "session.resume")
      else do
        Proc.ignore (bindSession binding sessionId now)
        onSupervisor fun v => v.onSessionEstablished info

/-! ## All threads -/

/-- The coordinator: the two ports and a supervisor for each thread. -/
structure AgentRuntimeSupervisor (H : Type) where
  harness : H
  store : Store
  threads : Table ThreadId ThreadRuntimeSupervisor

namespace AgentRuntimeSupervisor

/-- The ports with one supervisor. -/
def view (v : ThreadRuntimeSupervisor) (s : AgentRuntimeSupervisor H) : Supervised H :=
  ⟨v, s.harness, s.store⟩

/-- Writes the ports and the supervisor of a thread back. -/
def put (threadId : ThreadId) (s : AgentRuntimeSupervisor H) (x : Supervised H) :
    AgentRuntimeSupervisor H :=
  ⟨x.harness, x.store, s.threads.insert threadId x.supervisor⟩

/-- Runs a computation on the supervisor of a thread, which has to be there. -/
def onThread {α : Type} (threadId : ThreadId) (m : Proc (Supervised H) RuntimeError α) :
    Proc (AgentRuntimeSupervisor H) RuntimeError α := do
  match (← Proc.get).threads[threadId]? with
  | none => Proc.fail (.unknownThread threadId)
  | some v => Proc.zoom (view v) (put threadId) m

/-- Runs a computation on the supervisor of a thread, which is made if need be. -/
def onEntry {α : Type} (threadId : ThreadId) (m : Proc (Supervised H) RuntimeError α) :
    Proc (AgentRuntimeSupervisor H) RuntimeError α := do
  let v := (← Proc.get).threads[threadId]?.getD (.new threadId)
  Proc.zoom (view v) (put threadId) m

/-- The state of a thread's supervisor; a thread without one is idle. -/
def stateOf (s : AgentRuntimeSupervisor H) (threadId : ThreadId) : SupervisorState :=
  (s.threads[threadId]?.map ThreadRuntimeSupervisor.state).getD .idle

def activeTurnId (s : AgentRuntimeSupervisor H) (threadId : ThreadId) : Option TurnId :=
  s.threads[threadId]?.bind fun v => v.state.activeTurnId

def activePermissionTurnId (s : AgentRuntimeSupervisor H) (threadId : ThreadId)
    (permissionId : EventId) : Option TurnId :=
  s.threads[threadId]?.bind fun v => v.activePermissionTurnId permissionId

def preflightPrompt (s : AgentRuntimeSupervisor H) (threadId : ThreadId)
    (operationId : OperationId) (turnId : TurnId) : Except RuntimeError TurnAdmission :=
  match s.threads[threadId]? with
  | none => .error (.unknownThread threadId)
  | some v => v.preflightPrompt operationId turnId

end AgentRuntimeSupervisor

end Altior.Runtime
