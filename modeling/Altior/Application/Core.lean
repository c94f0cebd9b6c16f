import Altior.Application.EventPump

/-!
# The application

Starting, cancelling and deciding turns, and polling a thread's events
(`altior-core/src/application/mod.rs`).  The coordinator passes time zero to the
supervisors.
-/

namespace Altior.Application

open Domain Lib Storage Altior.Runtime

variable [SerdeJsonWriter] {H : Type}

/-- Runs a computation of the coordinator. -/
def onRuntime {α : Type} (m : Proc (AgentRuntimeSupervisor H) RuntimeError α) :
    Proc (CoreApplication H) RuntimeError α :=
  Proc.zoom CoreApplication.supervisor (fun s supervisor => { s with supervisor := supervisor }) m

/-- A computation on one thread's supervisor, with the application's errors. -/
def onThread {α : Type} (threadId : ThreadId) (m : Proc (Supervised H) RuntimeError α) :
    Proc (CoreApplication H) CoreAppError α :=
  (onRuntime (AgentRuntimeSupervisor.onThread threadId m)).mapError .ofRuntime

/-- A computation on a supervisor that is made if need be. -/
def onEntry {α : Type} (threadId : ThreadId) (m : Proc (Supervised H) RuntimeError α) :
    Proc (CoreApplication H) RuntimeError α :=
  onRuntime (AgentRuntimeSupervisor.onEntry threadId m)

/-- Serializes the members of a payload. -/
def payloadOf (fields : List (String × Scalar)) : Except CoreAppError EventPayload :=
  (EventPayload.tryFrom (SerdeJsonWriter.toVec (.flat fields))).mapError .entity

/-! ## Threads and sessions -/

/-- Creates a thread by appending its creation to the journal. -/
def createThread (threadId : ThreadId) (agentProfileId : AgentProfileId) (title : Option String)
    (projectId : Option ProjectId) (now : UInt64) :
    Proc (CoreApplication H) CoreAppError ThreadRow := do
  let payload ← Proc.ofExcept (payloadOf
    [("agent_profile_id", .string agentProfileId.asStr), ("title", .string (title.getD "")),
      ("project_id", optString (projectId.map Id.asStr))])
  let eventId ← nextEventId now
  let _ ← appendDomainEvent ⟨eventId, some threadId, none, none, .threadCreated, payload, now⟩
  match (← Proc.get).store.threadById threadId with
  | some row => pure row
  | none => Proc.fail (.threadNotFound threadId)

section Open

variable [HarnessRuntimePort H] [ErrorText]

/-- Resumes the session a thread was last bound to, if there is one. -/
def resumeBound (threadId : ThreadId) (binding : AcpHarnessBinding) :
    Proc (CoreApplication H) RuntimeError Unit := do
  match (← Proc.get).store.sessionBinding[threadId]? with
  | none => Proc.fail (.sessionNotReady (.text "no binding"))
  | some bound =>
    match HarnessSessionId.new bound.opaqueSessionId with
    | none => Proc.fail (.invalidSessionId "opaque session id")
    | some sessionId =>
      onEntry threadId (resumeSession binding sessionId 0)

/-- Resumes the session of a thread or creates one.  A session that cannot be had
is no failure. -/
def openSession (threadId : ThreadId) (binding : AcpHarnessBinding) :
    Proc (CoreApplication H) CoreAppError Unit := do
  match ← (resumeBound threadId binding).attempt with
  | .ok () => pure ()
  | .error _ => do
      let _ ← (onEntry threadId (createSession binding 0)).attempt
      pure ()

/-- Opens a thread.  Which binding is used is looked up in tables that hold nothing
else; `binding` is what the lookup returns. -/
def openThread (threadId : ThreadId) (binding : Store → Except CoreAppError AcpHarnessBinding) :
    Proc (CoreApplication H) CoreAppError Unit := do
  let s ← Proc.get
  if (s.store.threadById threadId).isNone then Proc.fail (.threadNotFound threadId)
  else do
    let binding ← Proc.ofExcept (binding s.store)
    match s.supervisor.stateOf threadId with
    | .idle | .closed => openSession threadId binding
    | _ => pure ()

end Open

/-! ## Polling -/

section Poll

variable [HarnessRuntimePort H]

/-- Takes the next event of a thread and publishes it with the store attached. -/
def pollThreadEvents (threadId : ThreadId) (now : UInt64) :
    Proc (CoreApplication H) CoreAppError (Option EventEnvelope) := do
  match ← onThread threadId (pollStream 0) with
  | none => pure none
  | some event => do
      let envelope ← publishRuntimeEvent event none none now true
      pure (some envelope)

end Poll

/-! ## Turns -/

variable [ErrorText]

/-- The delivery a turn row records. -/
def deliveryOfText : String → DeliveryState
  | "confirmed" => .confirmed
  | "indeterminate" => .indeterminate
  | "rejected" => .rejected
  | _ => .absent

/-- A row of the turn that forbids sending it. -/
def forbidsResend (turnId : TurnId) (row : String × TurnRow) : Bool :=
  row.1 == turnId.asStr
    && (["completed", "cancelled", "failed"].contains row.2.state
      || deliveryOfText row.2.delivery == .confirmed
      || deliveryOfText row.2.delivery == .indeterminate)

/-- The delivery a settled checkpoint stands for. -/
def deliveryOfCheckpoint : CheckpointState → DeliveryState
  | .confirmed => .confirmed
  | .indeterminate => .indeterminate
  | .rejected => .rejected
  | .intent => .absent

/-- What the durable record says about sending a turn: the listed turns and
checkpoints of its thread are looked through. -/
def checkResend (store : Store) (threadId : ThreadId) (turnId : TurnId) :
    Except CoreAppError Unit :=
  match (store.turnsForThread threadId turnListLimitMax).find? (forbidsResend turnId) with
  | some row => .error (.automaticResendForbidden threadId turnId (deliveryOfText row.2.delivery))
  | none =>
    match (store.runtimeCheckpoints threadId).find? fun cp =>
        cp.turnId == some turnId && cp.state.isTerminal with
    | some cp =>
      .error (.automaticResendForbidden threadId turnId (deliveryOfCheckpoint cp.state))
    | none => .ok ()

def persistTurnStarted (threadId : ThreadId) (turnId : TurnId) (operationId : OperationId)
    (content : String) (now : UInt64) : Proc (CoreApplication H) CoreAppError Unit := do
  let payload ← Proc.ofExcept (payloadOf
    [("thread_id", .string threadId.asStr), ("turn_id", .string turnId.asStr),
      ("content", .string content)])
  let eventId ← nextEventId now
  let _ ← appendDomainEvent
    ⟨eventId, some threadId, some turnId, some operationId, .turnStarted, payload, now⟩
  pure ()

/-- The delivery a failed prompt is journaled with. -/
def deliveryOfFailure : RuntimeError → DeliveryState
  | .harness _ => .indeterminate
  | .unsupportedCapability _ | .automaticResendForbidden _ _ _ => .rejected
  | _ => .absent

def persistTurnFailed (threadId : ThreadId) (turnId : TurnId) (operationId : OperationId)
    (promptErr : RuntimeError) (now : UInt64) : Proc (CoreApplication H) CoreAppError Unit := do
  let payload ← Proc.ofExcept (payloadOf
    [("thread_id", .string threadId.asStr), ("turn_id", .string turnId.asStr),
      ("reason", .string promptErr.display),
      ("delivery", .string (deliveryOfFailure promptErr).asStr)])
  let eventId ← nextEventId now
  let _ ← appendDomainEvent
    ⟨eventId, some threadId, some turnId, some operationId, .turnFailed, payload, now⟩
  pure ()

/-- `record_context_snapshot` on the store of the application. -/
def recordContextSnapshot (snapshot : ContextSnapshot) :
    Proc (CoreApplication H) StorageError Unit :=
  .act fun s =>
    match s.store.recordContextSnapshot snapshot with
    | .ok store => (.ok (), s.setStore store)
    | .error err => (.error err, s)

/-- What the context assembly hands over: the audit record and the text that is
sent. -/
structure AssembledContext where
  snapshot : ContextSnapshot
  wirePrompt : String

variable [HarnessRuntimePort H] [DefaultHasher]

/-- Sends an admitted turn to the harness and publishes its start; a failed send
is journaled as a failed turn. -/
def deliverPrompt (operationId : OperationId) (threadId : ThreadId) (turnId : TurnId)
    (wirePrompt : String) (now : UInt64) :
    Proc (CoreApplication H) CoreAppError (TurnAdmission × Option EventEnvelope) := do
  match ← (onRuntime (AgentRuntimeSupervisor.onThread threadId
      (prompt operationId turnId wirePrompt 0))).attempt with
  | .ok .admitted => do
      let envelope ← publishRuntimeEvent (.turnStarted threadId turnId) (some operationId)
        (some turnId) now false
      pure (.admitted, some envelope)
  | .ok .duplicate => pure (.duplicate, none)
  | .error promptErr => do
      match ← (persistTurnFailed threadId turnId operationId promptErr now).attempt with
      | .ok () => Proc.fail (.ofRuntime promptErr)
      | .error persistError => Proc.fail (.unpersisted promptErr persistError)

/-- Initiates a prompt turn.  The assembly of the context reads the store and
changes nothing; `assemble` is what it returns. -/
def startPromptEnvelope (operationId : OperationId) (threadId : ThreadId) (turnId : TurnId)
    (content : String) (now : UInt64) (assemble : Store → Except CoreAppError AssembledContext) :
    Proc (CoreApplication H) CoreAppError (TurnAdmission × Option EventEnvelope) := do
  let s ← Proc.get
  if (s.store.threadById threadId).isNone then Proc.fail (.threadNotFound threadId)
  else do
    Proc.ofExcept (checkResend s.store threadId turnId)
    match ← Proc.ofExcept
        ((s.supervisor.preflightPrompt threadId operationId turnId).mapError .ofRuntime) with
    | .duplicate => pure (.duplicate, none)
    | .admitted => do
        let assembled ← Proc.ofExcept (assemble s.store)
        persistTurnStarted threadId turnId operationId content now
        match ← (recordContextSnapshot assembled.snapshot).attempt with
        | .error e => do
            Proc.ignore (persistTurnFailed threadId turnId operationId
              (.checkpoint (.persistence
                ("failed to record context snapshot: " ++ ErrorText.storage e))) now)
            Proc.fail (.storage e)
        | .ok () => deliverPrompt operationId threadId turnId assembled.wirePrompt now

/-- Cancels the running turn of a thread and journals the cancellation at once. -/
def cancelTurn (operationId : OperationId) (threadId : ThreadId) (now : UInt64) :
    Proc (CoreApplication H) CoreAppError CancelOutcome := do
  let activeTurn := (← Proc.get).supervisor.activeTurnId threadId
  match ← onThread threadId (steerCancel 0) with
  | .cancelledActive =>
    match activeTurn with
    | none => Proc.fail (.other "missing active turn during cancel")
    | some turnId => do
        let eventId ← nextEventId now
        let payload ← Proc.ofExcept (payloadOf
          [("thread_id", .string threadId.asStr), ("turn_id", .string turnId.asStr),
            ("operation_id", .string operationId.asStr)])
        let _ ← appendDomainEvent
          ⟨eventId, some threadId, some turnId, some operationId, .turnCancelled, payload, now⟩
        pure .cancelledActive
  | outcome => pure outcome

/-- The text a decision is journaled as. -/
def decisionStr : PermissionDecision → Except CoreAppError String
  | .approved => .ok "approved"
  | .denied => .ok "denied"
  | .pending => .error (.invalidInput "pending is not a valid permission decision")

/-- Submits a decision and journals it. -/
def decidePermission (operationId : OperationId) (threadId : ThreadId) (permissionId : EventId)
    (decision : PermissionDecision) (now : UInt64) : Proc (CoreApplication H) CoreAppError Unit := do
  let text ← Proc.ofExcept (decisionStr decision)
  match (← Proc.get).supervisor.activePermissionTurnId threadId permissionId with
  | none => Proc.fail (.permissionNotFound threadId permissionId)
  | some turnId => do
      onThread threadId (Runtime.decidePermission permissionId decision 0)
      let payload ← Proc.ofExcept (payloadOf
        [("thread_id", .string threadId.asStr), ("turn_id", .string turnId.asStr),
          ("permission_event_id", .string permissionId.asStr), ("decision", .string text)])
      let eventId ← nextEventId now
      let _ ← appendDomainEvent
        ⟨eventId, some threadId, some turnId, some operationId, .permissionDecided, payload, now⟩
      pure ()

end Altior.Application
