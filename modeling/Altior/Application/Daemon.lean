import Altior.Application.Client

/-!
# The daemon

One step of the daemon: it takes up connections, reads frames, executes the
control commands and then the others, pumps the threads' events and broadcasts
them (`altior-core/src/application/daemon.rs`).
-/

namespace Altior.Application

open Domain Lib Storage Altior.Runtime

/-! ## Texts -/

/-- The texts of the errors of the other crates.  Nothing is relied on but that
they are functions. -/
class ProtocolText where
  entity : EntityError → String
  id : IdParseError → String
  protocol : ProtocolError → String
  ipc : IpcError → String

/-- Texts that leave everything out. -/
abbrev plainProtocolText : ProtocolText where
  entity _ := ""
  id _ := ""
  protocol _ := ""
  ipc _ := ""

def CoreAppError.display [ErrorText] [ProtocolText] : CoreAppError → String
  | threadNotFound threadId => "thread not found: " ++ threadId.asStr
  | admission .full => "operation admission error: Full"
  | storage err => "storage error: " ++ ErrorText.storage err
  | entity err => "domain entity error: " ++ ProtocolText.entity err
  | ipc err => "IPC error: " ++ ProtocolText.ipc err
  | protocol err => "protocol error: " ++ ProtocolText.protocol err
  | harness err => "harness error: " ++ err.display
  | checkpoint err => "checkpoint error: " ++ err.display
  | activeTurnInProgress threadId turnId =>
    "active turn " ++ turnId.asStr ++ " already in progress for thread " ++ threadId.asStr
  | automaticResendForbidden threadId turnId delivery =>
    "automatic resend of turn " ++ turnId.asStr ++ " on thread " ++ threadId.asStr
      ++ " is forbidden with delivery state " ++ debugDelivery delivery
  | permissionNotFound threadId permissionId =>
    "permission " ++ permissionId.asStr ++ " not found on thread " ++ threadId.asStr
  | unsupportedCapability cap => "unsupported capability: " ++ cap
  | sessionNotReady (.state s) => "session is not ready: " ++ ErrorText.debugState s
  | sessionNotReady (.text s) => "session is not ready: " ++ s
  | sessionAlreadyActive threadId => "session already active for thread: " ++ threadId.asStr
  | id err => "identifier error: " ++ ProtocolText.id err
  | invalidInput msg => "invalid input: " ++ msg
  | unpersisted promptErr persistError =>
    "application error: prompt failed: " ++ promptErr.display
      ++ "; failed to persist terminal turn state: " ++ persistError.display
  | other msg => "application error: " ++ msg

/-! ## Identifiers -/

/-- The allocator of entity identifiers: a counter, and noise of the process. -/
structure EntityIdAllocator where
  counter : UInt64
  noise : UInt64

namespace EntityIdAllocator

/-- Twelve digits of the time and four of the counter mixed with the noise. -/
def body (a : EntityIdAllocator) (now : UInt64) : UInt64 :=
  (now &&& 0xFFFFFFFFFFFF) * 0x10000 + ((a.counter + a.noise) &&& 0xFFFF)

/-- One number fits into the body of an identifier. -/
theorem body_le : ([] : List Char).length + 16 * 1 ≤ maxBodyLen := by decide

theorem one_number : 1 ≤ 1 := Nat.le_refl 1

theorem no_tag : ([] : List Char).all isBodyChar = true := List.all_nil

theorem thread_head : '_' ∉ ['t', 'h', 'r'] := by decide

theorem turn_head : '_' ∉ ['t', 'r', 'n'] := by decide

def newThreadId (a : EntityIdAllocator) (now : UInt64) : ThreadId :=
  hexId ['t', 'h', 'r'] [] [a.body now] rfl thread_head no_tag one_number body_le

def newTurnId (a : EntityIdAllocator) (now : UInt64) : TurnId :=
  hexId ['t', 'r', 'n'] [] [a.body now] rfl turn_head no_tag one_number body_le

def next (a : EntityIdAllocator) : EntityIdAllocator := { a with counter := a.counter + 1 }

end EntityIdAllocator

/-! ## What the handlers work on -/

variable [SerdeJsonWriter] {H : Type}

/-- What all sessions share during a step.  `appended` is a history variable: every
envelope the log was given, oldest first. -/
structure Shared (H : Type) where
  app : CoreApplication H
  entityIds : EntityIdAllocator
  broadcastEvents : List EventEnvelope
  dispatched : Nat
  appended : List EventEnvelope

/-- What the handler of a command works on. -/
structure Serving (H : Type) where
  shared : Shared H
  session : DaemonClientSession

/-- A computation of the application. -/
def Shared.onApp {α : Type} (m : Proc (CoreApplication H) CoreAppError α) :
    Proc (Shared H) CoreAppError α :=
  Proc.zoom Shared.app (fun w app => { w with app := app }) m

/-- Notes an envelope the log was given. -/
def Shared.record (envelope : EventEnvelope) : Proc (Shared H) CoreAppError Unit :=
  .modify fun w => { w with appended := w.appended ++ [envelope] }

namespace Serving

/-- A computation on what is shared. -/
def onShared {α : Type} (m : Proc (Shared H) CoreAppError α) : Proc (Serving H) CoreAppError α :=
  Proc.zoom Serving.shared (fun x shared => { x with shared := shared }) m

/-- A computation of the application. -/
def onApp {α : Type} (m : Proc (CoreApplication H) CoreAppError α) :
    Proc (Serving H) CoreAppError α :=
  onShared (Shared.onApp m)

/-- A computation on the session. -/
def onSession {α : Type} (m : Proc DaemonClientSession CoreAppError α) :
    Proc (Serving H) CoreAppError α :=
  Proc.zoom Serving.session (fun x session => { x with session := session }) m

/-- Sends a frame to the client of the session. -/
def send (frame : Frame) : Proc (Serving H) CoreAppError Unit := onSession (sendJson frame)

end Serving

open Serving (onApp onShared onSession send)

/-- The coordinator, the counter of event identifiers and the allocator: what a
query may change.  The log is not part of it. -/
structure QueryState (H : Type) where
  supervisor : AgentRuntimeSupervisor H
  counter : UInt64
  entityIds : EntityIdAllocator

/-- The parts of the application the commands are handed on to: the views that are
put together for a client, the lookups a turn needs, and the queries. -/
class CoreServices (H : Type) where
  threadRowToDto : ThreadRow → Except CoreAppError Json
  threadSnapshotDto : ThreadId → CoreApplication H → Except CoreAppError Json
  lookupBinding : ThreadId → Store → Except CoreAppError AcpHarnessBinding
  assembleContext : OperationId → ThreadId → TurnId → String → UInt64 → Store →
    Except CoreAppError AssembledContext
  snapshotQuery : SnapshotQuery → Option Json → UInt64 → QueryState H →
    Except CoreAppError Json × QueryState H
  resultQuery : ResultQuery → Option Json → UInt64 → QueryState H →
    Except CoreAppError (Option Json) × QueryState H

/-- A harness that has finitely many events at any time: taking one leaves fewer. -/
class QueuedHarness (H : Type) [HarnessRuntimePort H] where
  backlog : H → Nat
  backlog_pollEvent : ∀ (h : H) (sessionId : HarnessSessionId) (event : HarnessEvent),
    (HarnessRuntimePort.pollEvent h sessionId).1 = .ok (some event) →
      backlog (HarnessRuntimePort.pollEvent h sessionId).2 < backlog h

/-! ## Replies -/

/-- The bound of an encoded payload in bytes. -/
def payloadBytes : Nat := 64 * 1024

/-- Whether a payload is within its bound. -/
def fits (data : Json) : Bool := SerdeJson.len (SerdeJsonWriter.toVec data) ≤ payloadBytes

/-- `BoundedPayload::new`. -/
def boundedPayload (data : Json) : Except CoreAppError Json :=
  if fits data then .ok data
  else .error (.protocol
    (.payloadTooLarge (SerdeJson.len (SerdeJsonWriter.toVec data)) payloadBytes))

def makeCommandResultEvent (operationId : OperationId) (success : Bool) (data : Option Json)
    (now : UInt64) : Proc (CoreApplication H) CoreAppError ReplyEnvelope := do
  let data ← Proc.ofExcept (data.mapM boundedPayload)
  let eventId ← nextEventId now
  pure ⟨eventId, operationId, now, .commandResult success data⟩

/-- The text of an error reply; one that is too long is replaced. -/
def errorMessage (message : String) : DiagnosticText :=
  if h : message.utf8ByteSize ≤ diagnosticTextBytes then ⟨message, h⟩ else ⟨"error", by decide⟩

def makeCommandErrorEvent (operationId : OperationId) (code message : String) (now : UInt64) :
    Proc (CoreApplication H) CoreAppError ReplyEnvelope := do
  let eventId ← nextEventId now
  pure ⟨eventId, operationId, now, .commandError code (errorMessage message)⟩

/-- Answers with a result. -/
def replyResult (operationId : OperationId) (data : Option Json) (now : UInt64) :
    Proc (Serving H) CoreAppError Unit := do
  let event ← onApp (makeCommandResultEvent operationId true data now)
  send (.reply event)

/-- Answers with an error. -/
def replyError (operationId : OperationId) (code message : String) (now : UInt64) :
    Proc (Serving H) CoreAppError Unit := do
  let event ← onApp (makeCommandErrorEvent operationId code message now)
  send (.reply event)

/-- Answers with a snapshot. -/
def replySnapshot (operationId : OperationId) (data : Json) (now : UInt64) :
    Proc (Serving H) CoreAppError Unit := do
  let data ← Proc.ofExcept (boundedPayload data)
  send (.snapshot ⟨operationId, now, data⟩)

section Answer

variable [ErrorText] [ProtocolText]

/-- A handler: what `reply` makes of the outcome, or the failure with its code. -/
def answer {α : Type} (operationId : OperationId) (code : String)
    (closure : Proc (Serving H) CoreAppError α) (reply : α → Proc (Serving H) CoreAppError Unit)
    (now : UInt64) : Proc (Serving H) CoreAppError Unit := do
  match ← closure.attempt with
  | .ok a => reply a
  | .error err => replyError operationId code err.display now

end Answer

/-! ## Control commands -/

section Control

variable [HarnessRuntimePort H] [DefaultHasher] [ErrorText]

/-- Cancels the turn of the first thread that has one; failures are passed over. -/
def cancelFirst (operationId : OperationId) (now : UInt64) :
    List ThreadId → Proc (CoreApplication H) CoreAppError Bool
  | [] => pure false
  | threadId :: rest => do
      match ← (cancelTurn operationId threadId now).attempt with
      | .ok .cancelledActive => pure true
      | _ => cancelFirst operationId now rest

/-- `Debug` of a cancel outcome. -/
def debugOutcome : CancelOutcome → String
  | .cancelledActive => "CancelledActive"
  | .alreadyCancelling => "AlreadyCancelling"
  | .noActiveTurn => "NoActiveTurn"

/-- The threads that have a supervisor. -/
def threadIds (app : CoreApplication H) : List ThreadId := app.supervisor.threads.keys

/-- The first thread that awaits the permission. -/
def findThreadForPermission (app : CoreApplication H) (permissionId : EventId) : Option ThreadId :=
  (threadIds app).find? fun threadId =>
    (app.supervisor.activePermissionTurnId threadId permissionId).isSome

/-- The decision a client's text stands for. -/
def decisionOfText (decision : String) : Option PermissionDecision :=
  match decision.toLower with
  | "approved" => some .approved
  | "denied" => some .denied
  | _ => none

/-- The result of a `cancel`. -/
def cancelData (cancelled : Bool) (target : Option OperationId) : Json :=
  .flat [("cancelled", .bool cancelled), ("target_operation_id", optString (target.map Id.asStr))]

/-- The result of a `cancel_turn`. -/
def cancelTurnData (outcome : CancelOutcome) (threadId : ThreadId) : Json :=
  .flat [("outcome", .string (debugOutcome outcome)), ("thread_id", .string threadId.asStr)]

/-- A failed cancellation or decision is handed on, not answered. -/
def executeControlCommand (cmd : CommandEnvelope) (now : UInt64) :
    Proc (Serving H) CoreAppError Unit :=
  match cmd.command with
  | .ping => replyResult cmd.operationId none now
  | .cancel payload => do
      let threads := threadIds (← Proc.get).shared.app
      let cancelled ← onApp (cancelFirst cmd.operationId now threads)
      replyResult cmd.operationId (some (cancelData cancelled (cancelTarget payload))) now
  | .cancelTurn (.ok c) => do
      let outcome ← onApp (cancelTurn cmd.operationId c.threadId now)
      replyResult cmd.operationId (some (cancelTurnData outcome c.threadId)) now
  | .cancelTurn (.error _) =>
    replyError cmd.operationId "INVALID_PAYLOAD" "malformed cancel_turn payload" now
  | .respondPermission (.ok p) =>
    match decisionOfText p.decision with
    | none =>
      replyError cmd.operationId "INVALID_DECISION" "decision must be 'approved' or 'denied'" now
    | some decision => do
        match findThreadForPermission (← Proc.get).shared.app p.eventId with
        | some threadId => do
            onApp (decidePermission cmd.operationId threadId p.eventId decision now)
            replyResult cmd.operationId none now
        | none =>
          replyError cmd.operationId "PERMISSION_NOT_FOUND"
            ("permission " ++ p.eventId.asStr ++ " not found on any active thread") now
  | .respondPermission (.error _) =>
    replyError cmd.operationId "INVALID_PAYLOAD" "malformed respond_permission payload" now
  | _ => pure ()

end Control

/-! ## Subscriptions -/

/-- Gives the log the boundary of a catch-up. -/
def publishBoundary (boundary : EventEnvelope) : Proc (Serving H) CoreAppError EventEnvelope :=
  onShared do
    let boundary ← Shared.onApp (sequenceEnvelope boundary)
    Shared.record boundary
    pure boundary

/-- `ServerSession::accept_subscribe`. -/
def acceptSubscribe (operationId : OperationId) (payload : Option Json)
    (boundaryEventId : EventId) (now : UInt64) : Proc (Serving H) CoreAppError CatchUpDelivery := do
  let x ← Proc.get
  if x.session.selectedVersion.isNone then
    Proc.fail (.ipc (.sessionOrder "subscribe before the handshake completed"))
  else if x.session.subscribed then
    Proc.fail (.ipc (.sessionOrder "subscribe twice on one connection"))
  else do
    let since ← Proc.ofExcept ((subscribeSince payload).mapError fun e => .ipc (.protocol e))
    onSession (Proc.modify fun s =>
      { s with subscribed := true, subscribedAt := x.shared.appended.length })
    match x.shared.app.log.replayAfter since with
    | .replay events => do
        let boundary ← publishBoundary (boundaryEnvelope operationId boundaryEventId now
          (.streamReplayed ((events.head?.map EventEnvelope.sequence).getD 1)
            ((events.getLast?.map EventEnvelope.sequence).getD 1)))
        pure (.replay events boundary)
    | .gap firstMissing => do
        let boundary ← publishBoundary (boundaryEnvelope operationId boundaryEventId now
          (.streamGap firstMissing))
        pure (.gap boundary)
    | .upToDate => pure .upToDate

/-- Sends the replayed envelopes in order. -/
def sendEvents : List EventEnvelope → Proc (Serving H) CoreAppError Unit
  | [] => pure ()
  | e :: rest => do
      send (.event e)
      sendEvents rest

/-- Catches a subscriber up.  One that is up to date is sent nothing. -/
def handleSubscribe (operationId : OperationId) (payload : Option Json) (now : UInt64) :
    Proc (Serving H) CoreAppError Unit := do
  let boundaryEventId ← onApp (nextEventId now)
  match ← acceptSubscribe operationId payload boundaryEventId now with
  | .replay events boundary => do
      sendEvents events
      send (.event boundary)
  | .gap boundary => send (.event boundary)
  | .upToDate => pure ()
  onSession (Proc.modify fun s => { s with state := .subscribed })

/-! ## Other commands -/

/-- Allocates an identifier. -/
def allocate {α : Type} (mint : EntityIdAllocator → α) : Proc (Serving H) CoreAppError α :=
  onShared do
    let w ← Proc.get
    Proc.modify fun w => { w with entityIds := w.entityIds.next }
    pure (mint w.entityIds)

/-- What a query works on. -/
def Shared.queryState (w : Shared H) : QueryState H :=
  ⟨w.app.supervisor, w.app.counter, w.entityIds⟩

/-- Writes back what a query worked on. -/
def Shared.putQuery (w : Shared H) (q : QueryState H) : Shared H :=
  { w with
    app := { w.app with supervisor := q.supervisor, counter := q.counter }
    entityIds := q.entityIds }

/-- A query of another part of the application. -/
def onQuery {α : Type} (f : QueryState H → Except CoreAppError α × QueryState H) :
    Proc (Serving H) CoreAppError α :=
  onShared (Proc.act fun w => ((f w.queryState).1, w.putQuery (f w.queryState).2))

section Normal

variable [HarnessRuntimePort H] [DefaultHasher] [ErrorText] [ProtocolText] [CoreServices H]

/-- `ThreadTitle::try_from(..).ok()`. -/
def threadTitle (title : String) : Option String :=
  if title.utf8ByteSize ≤ maxThreadTitleBytes then some title else none

/-- Creates a thread and shows it. -/
def createdThread (payload : Except ProtocolError CreateThreadCommand) (now : UInt64) :
    Proc (Serving H) CoreAppError Json := do
  let payload ← Proc.ofExcept (payload.mapError .protocol)
  let threadId ← allocate fun ids => ids.newThreadId now
  let row ← onApp (createThread threadId payload.agentProfileId
    (payload.title.bind threadTitle) payload.projectId now)
  Proc.ofExcept (CoreServices.threadRowToDto H row)

def handleCreateThread (operationId : OperationId)
    (payload : Except ProtocolError CreateThreadCommand) (now : UInt64) :
    Proc (Serving H) CoreAppError Unit :=
  answer operationId "CREATE_THREAD_FAILED" (createdThread payload now)
    (fun dto => replyResult operationId (some dto) now) now

/-- Opens a thread and shows it. -/
def openedThread (payload : Except ProtocolError OpenThreadCommand) :
    Proc (Serving H) CoreAppError Json := do
  let payload ← Proc.ofExcept (payload.mapError .protocol)
  onApp (openThread payload.threadId (CoreServices.lookupBinding H payload.threadId))
  let x ← Proc.get
  Proc.ofExcept (CoreServices.threadSnapshotDto payload.threadId x.shared.app)

def handleOpenThread (operationId : OperationId)
    (payload : Except ProtocolError OpenThreadCommand) (now : UInt64) :
    Proc (Serving H) CoreAppError Unit :=
  answer operationId "OPEN_THREAD_FAILED" (openedThread payload)
    (fun dto => replySnapshot operationId dto now) now

/-- Notes the envelope of a start, if there is one. -/
def recordStart (turnId : TurnId) (started : TurnAdmission × Option EventEnvelope) :
    Proc (Serving H) CoreAppError (TurnId × TurnAdmission × Option EventEnvelope) :=
  match started.2 with
  | some envelope => do
      onShared (Shared.record envelope)
      pure (turnId, started.1, some envelope)
  | none => pure (turnId, started.1, none)

/-- Starts a turn; the envelope of its start has gone through the log when it is
returned. -/
def startTurn (operationId : OperationId) (payload : Except ProtocolError StartTurnCommand)
    (now : UInt64) :
    Proc (Serving H) CoreAppError (TurnId × TurnAdmission × Option EventEnvelope) := do
  let payload ← Proc.ofExcept (payload.mapError .protocol)
  let turnId ← match payload.turnId with
    | some turnId => pure turnId
    | none => allocate fun ids => ids.newTurnId now
  let started ← onApp (startPromptEnvelope operationId payload.threadId turnId
    payload.prompt.asStr now
    (CoreServices.assembleContext H operationId payload.threadId turnId payload.prompt.asStr now))
  recordStart turnId started

/-- The result of a `start_turn`. -/
def startTurnData (turnId : TurnId) (admission : TurnAdmission) : Json :=
  .flat [("admission", .string (match admission with
      | .admitted => "admitted"
      | .duplicate => "duplicate")), ("turn_id", .string turnId.asStr)]

/-- Queues an envelope for the broadcast. -/
def queueBroadcast (envelope : Option EventEnvelope) : Proc (Serving H) CoreAppError Unit :=
  match envelope with
  | some envelope => onShared (Proc.modify fun w =>
    { w with broadcastEvents := w.broadcastEvents ++ [envelope] })
  | none => pure ()

/-- The envelope is queued for the broadcast only after the result was sent. -/
def handleStartTurn (operationId : OperationId) (payload : Except ProtocolError StartTurnCommand)
    (now : UInt64) : Proc (Serving H) CoreAppError Unit :=
  answer operationId "START_TURN_FAILED" (startTurn operationId payload now)
    (fun started => do
      replyResult operationId (some (startTurnData started.1 started.2.1)) now
      queueBroadcast started.2.2) now

/-- The number of threads as the status reports it, at most `u32::MAX`. -/
def activeThreads (app : CoreApplication H) : Nat := min app.supervisor.threads.size 4294967295

/-- The status is always there to be had. -/
def handleRuntimeStatus (operationId : OperationId) (now : UInt64) :
    Proc (Serving H) CoreAppError Unit := do
  let threads := activeThreads (← Proc.get).shared.app
  let eventId ← onApp (nextEventId now)
  send (.reply ⟨eventId, operationId, now, .runtimeStatus "ready" threads⟩)

/-- A query that is answered with a snapshot. -/
def handleSnapshotQuery (code : String) (query : SnapshotQuery) (operationId : OperationId)
    (payload : Option Json) (now : UInt64) : Proc (Serving H) CoreAppError Unit :=
  answer operationId code (onQuery (CoreServices.snapshotQuery query payload now))
    (fun dto => replySnapshot operationId dto now) now

/-- A request that is answered with a result. -/
def handleResultQuery (code : String) (query : ResultQuery) (operationId : OperationId)
    (payload : Option Json) (now : UInt64) : Proc (Serving H) CoreAppError Unit :=
  answer operationId code (onQuery (CoreServices.resultQuery query payload now))
    (fun data => replyResult operationId data now) now

def handleListThreads : OperationId → Option Json → UInt64 → Proc (Serving H) CoreAppError Unit :=
  handleSnapshotQuery "LIST_THREADS_FAILED" .listThreads

def handleSearchThreads : OperationId → Option Json → UInt64 → Proc (Serving H) CoreAppError Unit :=
  handleSnapshotQuery "SEARCH_THREADS_FAILED" .searchThreads

def handleGetHistory : OperationId → Option Json → UInt64 → Proc (Serving H) CoreAppError Unit :=
  handleSnapshotQuery "GET_HISTORY_FAILED" .getHistory

def handleDiagnostics : OperationId → Option Json → UInt64 → Proc (Serving H) CoreAppError Unit :=
  handleSnapshotQuery "DIAGNOSTICS_FAILED" .diagnostics

def handleRequestSnapshot : OperationId → Option Json → UInt64 →
    Proc (Serving H) CoreAppError Unit :=
  handleSnapshotQuery "REQUEST_SNAPSHOT_FAILED" .requestSnapshot

def handleConfigureAgent : OperationId → Option Json → UInt64 →
    Proc (Serving H) CoreAppError Unit :=
  handleResultQuery "CONFIGURE_AGENT_FAILED" .configureAgent

def handleTestHarnessBinding : OperationId → Option Json → UInt64 →
    Proc (Serving H) CoreAppError Unit :=
  handleResultQuery "TEST_HARNESS_FAILED" .testHarnessBinding

def handlePutIdentityDocument : OperationId → Option Json → UInt64 →
    Proc (Serving H) CoreAppError Unit :=
  handleResultQuery "PUT_IDENTITY_DOCUMENT_FAILED" .putIdentityDocument

def handleDeleteIdentityDocument : OperationId → Option Json → UInt64 →
    Proc (Serving H) CoreAppError Unit :=
  handleResultQuery "DELETE_IDENTITY_DOCUMENT_FAILED" .deleteIdentityDocument

def handleListIdentityDocuments : OperationId → Option Json → UInt64 →
    Proc (Serving H) CoreAppError Unit :=
  handleResultQuery "LIST_IDENTITY_DOCUMENTS_FAILED" .listIdentityDocuments

def handleGetContextSnapshot : OperationId → Option Json → UInt64 →
    Proc (Serving H) CoreAppError Unit :=
  handleResultQuery "GET_CONTEXT_SNAPSHOT_FAILED" .getContextSnapshot

def handleListMemories : OperationId → Option Json → UInt64 → Proc (Serving H) CoreAppError Unit :=
  handleResultQuery "list_memories_failed" .listMemories

def handleProposeMemory : OperationId → Option Json → UInt64 → Proc (Serving H) CoreAppError Unit :=
  handleResultQuery "propose_memory_failed" .proposeMemory

def handleConfirmMemory : OperationId → Option Json → UInt64 → Proc (Serving H) CoreAppError Unit :=
  handleResultQuery "confirm_memory_failed" .confirmMemory

def handleRejectMemory : OperationId → Option Json → UInt64 → Proc (Serving H) CoreAppError Unit :=
  handleResultQuery "reject_memory_failed" .rejectMemory

def handleCorrectMemory : OperationId → Option Json → UInt64 → Proc (Serving H) CoreAppError Unit :=
  handleResultQuery "correct_memory_failed" .correctMemory

def handleForgetMemory : OperationId → Option Json → UInt64 → Proc (Serving H) CoreAppError Unit :=
  handleResultQuery "forget_memory_failed" .forgetMemory

def executeNormalCommand (cmd : CommandEnvelope) (now : UInt64) :
    Proc (Serving H) CoreAppError Unit :=
  match cmd.command with
  | .subscribe payload => handleSubscribe cmd.operationId payload now
  | .createThread payload => handleCreateThread cmd.operationId payload now
  | .openThread payload => handleOpenThread cmd.operationId payload now
  | .startTurn payload => handleStartTurn cmd.operationId payload now
  | .runtimeStatus => handleRuntimeStatus cmd.operationId now
  | .snapshotQuery .listThreads payload => handleListThreads cmd.operationId payload now
  | .snapshotQuery .searchThreads payload => handleSearchThreads cmd.operationId payload now
  | .snapshotQuery .getHistory payload => handleGetHistory cmd.operationId payload now
  | .snapshotQuery .diagnostics payload => handleDiagnostics cmd.operationId payload now
  | .snapshotQuery .requestSnapshot payload => handleRequestSnapshot cmd.operationId payload now
  | .resultQuery .configureAgent payload => handleConfigureAgent cmd.operationId payload now
  | .resultQuery .testHarnessBinding payload => handleTestHarnessBinding cmd.operationId payload now
  | .resultQuery .putIdentityDocument payload =>
    handlePutIdentityDocument cmd.operationId payload now
  | .resultQuery .deleteIdentityDocument payload =>
    handleDeleteIdentityDocument cmd.operationId payload now
  | .resultQuery .listIdentityDocuments payload =>
    handleListIdentityDocuments cmd.operationId payload now
  | .resultQuery .getContextSnapshot payload => handleGetContextSnapshot cmd.operationId payload now
  | .resultQuery .listMemories payload => handleListMemories cmd.operationId payload now
  | .resultQuery .proposeMemory payload => handleProposeMemory cmd.operationId payload now
  | .resultQuery .confirmMemory payload => handleConfirmMemory cmd.operationId payload now
  | .resultQuery .rejectMemory payload => handleRejectMemory cmd.operationId payload now
  | .resultQuery .correctMemory payload => handleCorrectMemory cmd.operationId payload now
  | .resultQuery .forgetMemory payload => handleForgetMemory cmd.operationId payload now
  | .ping | .cancel _ | .cancelTurn _ | .respondPermission _ => pure ()

end Normal

end Altior.Application
