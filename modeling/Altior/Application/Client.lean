import Altior.Application.Core

/-!
# Clients

What a client and the daemon send each other, one client's connection, and the
session the daemon keeps for it (`altior-protocol/src/command.rs`,
`altior-core/src/application/connection.rs`, `altior-ipc/src/session.rs`).  The
bytes of a frame are left out: a frame is what it decodes to.
-/

namespace Altior.Application

open Domain Lib Storage Altior.Runtime

/-! ## Commands -/

/-- Payload of `start_turn`. -/
structure StartTurnCommand where
  threadId : ThreadId
  turnId : Option TurnId
  prompt : MessageText

/-- The part of the payload of `cancel_turn` that is read. -/
structure CancelTurnCommand where
  threadId : ThreadId

/-- Payload of `respond_permission`. -/
structure RespondPermissionCommand where
  eventId : EventId
  decision : String

/-- Payload of `create_thread`. -/
structure CreateThreadCommand where
  agentProfileId : AgentProfileId
  title : Option String
  projectId : Option ProjectId

/-- Payload of `open_thread`. -/
structure OpenThreadCommand where
  threadId : ThreadId

/-- The queries that are answered with a snapshot. -/
inductive SnapshotQuery
  | listThreads
  | searchThreads
  | getHistory
  | diagnostics
  | requestSnapshot
deriving DecidableEq, Repr

/-- The requests of the other parts of the application that are answered with a
result. -/
inductive ResultQuery
  | configureAgent
  | testHarnessBinding
  | putIdentityDocument
  | deleteIdentityDocument
  | listIdentityDocuments
  | getContextSnapshot
  | listMemories
  | proposeMemory
  | confirmMemory
  | rejectMemory
  | correctMemory
  | forgetMemory
deriving DecidableEq, Repr

/-- A command with its payload.  Where the code decodes the payload with the JSON
library's derived decoder, the payload is what the decoder returns. -/
inductive Command
  | ping
  | cancel (payload : Option Json)
  | cancelTurn (payload : Except ProtocolError CancelTurnCommand)
  | respondPermission (payload : Except ProtocolError RespondPermissionCommand)
  | subscribe (payload : Option Json)
  | createThread (payload : Except ProtocolError CreateThreadCommand)
  | openThread (payload : Except ProtocolError OpenThreadCommand)
  | startTurn (payload : Except ProtocolError StartTurnCommand)
  | runtimeStatus
  | snapshotQuery (query : SnapshotQuery) (payload : Option Json)
  | resultQuery (query : ResultQuery) (payload : Option Json)

/-- A well-formed command envelope. -/
structure CommandEnvelope where
  operationId : OperationId
  command : Command

/-- The commands that go before all others. -/
def isControlCommand : Command → Bool
  | .ping | .cancel _ | .cancelTurn _ | .respondPermission _ => true
  | _ => false

/-- The operation a `cancel` names, if it names one. -/
def cancelTarget (payload : Option Json) : Option OperationId :=
  (payload.bind (Json.getStr "target_operation_id")).bind fun s =>
    (Id.parse "op_" s).toOption

/-- `CommandEnvelope::subscribe_since` of a `subscribe`: the sequence the client
has seen last, or nothing for "from now". -/
def subscribeSince (payload : Option Json) : Except ProtocolError (Option UInt64) :=
  match payload with
  | none => .error (.malformedEnvelope "subscribe command without payload")
  | some payload =>
    match payload.get "since" with
    | none => .error (.malformedEnvelope "subscribe payload without since")
    | some (.scalar .null) => .ok none
    | some since =>
      match since.asU64 with
      | none => .error (.malformedEnvelope "subscribe since is not a sequence number")
      | some raw =>
        if raw = 0 then
          .error (.malformedEnvelope "subscribe since is not a sequence number")
        else .ok (some raw)

/-! ## Frames -/

/-- The hello of a client. -/
structure DesktopHello where
  minVersion : Nat
  maxVersion : Nat
  launchToken : String

/-- A frame of a client: what its bytes decode to as a hello and as a command. -/
structure ClientFrame where
  hello : Option DesktopHello
  command : Option CommandEnvelope

/-- What `recv_frame` hands over. -/
inductive Received
  | frame (frame : ClientFrame)
  | error

/-- The body of a reply. -/
inductive ReplyBody
  | commandResult (success : Bool) (data : Option Json)
  | commandError (code : String) (message : DiagnosticText)
  | runtimeStatus (status : String) (activeThreads : Nat)

/-- An envelope that answers a command.  It does not go through the log, and its
sequence is always the first one. -/
structure ReplyEnvelope where
  eventId : EventId
  operationId : OperationId
  occurredAt : UInt64
  body : ReplyBody

/-- A snapshot that answers a query.  Its scope is part of its data. -/
structure SnapshotEnvelope where
  operationId : OperationId
  asOf : UInt64
  data : Json

/-- A frame of the daemon. -/
inductive Frame
  | coreHello
  | coreGreeting (selectedVersion : Nat) (retained : Option (UInt64 × UInt64))
  | event (envelope : EventEnvelope)
  | reply (envelope : ReplyEnvelope)
  | snapshot (envelope : SnapshotEnvelope)

/-- The envelopes that end a catch-up. -/
def EventEnvelope.isBoundary (e : EventEnvelope) : Bool :=
  match e.body with
  | .known (.streamReplayed _ _) | .known (.streamGap _) => true
  | _ => false

/-- Whether a frame answers the operation: a reply, a snapshot, or the boundary of
a catch-up. -/
def Frame.isReplyTo (operationId : OperationId) : Frame → Bool
  | .event e => e.isBoundary && e.operationId == some operationId
  | .reply r => r.operationId == operationId
  | .snapshot s => s.operationId == operationId
  | .coreHello | .coreGreeting _ _ => false

/-! ## Connections -/

/-- A connection: what is still to be received, whether each of the next sends
fails, and the frames that were sent. -/
structure Connection where
  incoming : List Received
  faults : List Bool
  closed : Bool
  sent : List Frame

namespace Connection

/-- A connection nothing was sent over yet. -/
def new (incoming : List Received) (faults : List Bool) : Connection := ⟨incoming, faults, false, []⟩

def recvFrame (c : Connection) : Option Received × Connection :=
  (c.incoming.head?, { c with incoming := c.incoming.tail })

/-- Whether the next frame goes out. -/
def accepts (c : Connection) : Bool := !c.closed && !c.faults.headD false

/-- Sends a frame, if the connection takes it. -/
def sendFrame (c : Connection) (frame : Frame) : Except IpcError Unit × Connection :=
  if c.closed then (.error (.sessionOrder "send frame over closed connection"), c)
  else if c.faults.headD false then (.error .frameRefused, { c with faults := c.faults.tail })
  else (.ok (), { c with faults := c.faults.tail, sent := c.sent ++ [frame] })

def close (c : Connection) : Connection := { c with closed := true }

end Connection

/-! ## Sessions -/

inductive DaemonSessionState
  | handshaking
  | authenticated
  | subscribed
deriving DecidableEq, Repr

/-- The session of a client, with what the server session underneath remembers.
`subscribedAt` is a history variable: how many envelopes the log had been given
when the session subscribed. -/
structure DaemonClientSession where
  connection : Connection
  selectedVersion : Option Nat
  subscribed : Bool
  state : DaemonSessionState
  pendingControlCommands : List CommandEnvelope
  pendingNormalCommands : List CommandEnvelope
  connectedAt : UInt64
  lastActivityAt : UInt64
  subscribedAt : Nat

namespace DaemonClientSession

def new (connection : Connection) (connectedAt : UInt64) : DaemonClientSession :=
  ⟨connection, none, false, .handshaking, [], [], connectedAt, connectedAt, 0⟩

def close (s : DaemonClientSession) : DaemonClientSession :=
  { s with connection := s.connection.close }

end DaemonClientSession

/-- Sends a frame to the client of a session. -/
def sendJson (frame : Frame) : Proc DaemonClientSession CoreAppError Unit :=
  .act fun s =>
    let (res, connection) := s.connection.sendFrame frame
    (res.mapError .ipc, { s with connection := connection })

/-! ## Catching up -/

/-- How a subscriber catches up. -/
inductive ReplayPlan
  | replay (events : List EventEnvelope)
  | gap (firstMissing : UInt64)
  | upToDate

namespace EventLog

/-- The first and the last sequence that are retained. -/
def retained (log : EventLog) : Option (UInt64 × UInt64) :=
  match log.events.head?, log.events.getLast? with
  | some first, some last => some (first.sequence, last.sequence)
  | _, _ => none

/-- Plans the catch-up of a subscriber whose last seen sequence is `since`. -/
def replayAfter (log : EventLog) (since : Option UInt64) : ReplayPlan :=
  match since, log.retained with
  | some since, some (first, last) =>
    if last ≤ since then .upToDate
    else if since + 1 < first then .gap (since + 1)
    else .replay (log.events.filter fun e => since < e.sequence)
  | _, _ => .upToDate

end EventLog

/-- What `accept_subscribe` has the daemon deliver. -/
inductive CatchUpDelivery
  | replay (events : List EventEnvelope) (boundary : EventEnvelope)
  | gap (boundary : EventEnvelope)
  | upToDate

/-- The boundary of a catch-up, before it has a sequence. -/
def boundaryEnvelope (operationId : OperationId) (eventId : EventId) (now : UInt64)
    (body : KnownEvent) : EventEnvelope :=
  ⟨eventId, some operationId, none, none, 1, now, .known body⟩

/-! ## Reading frames -/

/-- What the daemon was configured with. -/
structure CoreDaemonConfig where
  launchToken : String
  minVersion : Nat
  maxVersion : Nat
  handshakeTimeoutMs : Nat
  idleTimeoutMs : Option Nat
  maxClientSessions : Nat

/-- Frames that are read from a session in one step. -/
def maxFramesPerStepPerSession : Nat := 64

/-- `ServerSession::accept_hello`. -/
def acceptHello (config : CoreDaemonConfig) (hello : DesktopHello) :
    Proc DaemonClientSession CoreAppError Nat := do
  let s ← Proc.get
  if s.selectedVersion.isSome then
    Proc.fail (.ipc (.sessionOrder "accept a second hello on one connection"))
  else if hello.launchToken ≠ config.launchToken then Proc.fail (.ipc .authenticationRejected)
  else if min hello.maxVersion config.maxVersion < max hello.minVersion config.minVersion then
    Proc.fail (.ipc (.protocol .noCommonProtocolVersion))
  else do
    let version := min hello.maxVersion config.maxVersion
    Proc.modify fun s => { s with selectedVersion := some version }
    pure version

/-- A frame is a hello first and a command afterwards. -/
def processIncomingFrame (config : CoreDaemonConfig) (log : EventLog) (frame : ClientFrame) :
    Proc DaemonClientSession CoreAppError Unit := do
  match (← Proc.get).state with
  | .handshaking =>
    match frame.hello with
    | none => Proc.fail (.protocol (.malformedEnvelope "hello"))
    | some hello => do
        let version ← acceptHello config hello
        sendJson .coreHello
        sendJson (.coreGreeting version log.retained)
        Proc.modify fun s => { s with state := .authenticated }
  | _ =>
    match frame.command with
    | none => Proc.fail (.protocol (.malformedEnvelope "command"))
    | some cmd =>
      Proc.modify fun s =>
        if isControlCommand cmd.command then
          { s with pendingControlCommands := s.pendingControlCommands ++ [cmd] }
        else { s with pendingNormalCommands := s.pendingNormalCommands ++ [cmd] }

/-- Reads the frames that are there, at most `budget` of them; the flag says that
the session is to be evicted. -/
def readFrames (config : CoreDaemonConfig) (log : EventLog) (now : UInt64) :
    Nat → DaemonClientSession → DaemonClientSession × Bool
  | 0, s => (s, false)
  | budget + 1, s =>
    match s.connection.recvFrame with
    | (none, _) => (s, false)
    | (some .error, connection) => (({ s with connection := connection }).close, true)
    | (some (.frame frame), connection) =>
      match processIncomingFrame config log frame
          { s with connection := connection, lastActivityAt := now } none with
      | ⟨.done (), s, _⟩ => readFrames config log now budget s
      | ⟨_, s, _⟩ => (s.close, true)

/-- The deadlines of a session that is open. -/
def overdue (config : CoreDaemonConfig) (now : UInt64) (s : DaemonClientSession) : Bool :=
  if s.state = .handshaking then
    config.handshakeTimeoutMs ≤ now.toNat - s.connectedAt.toNat
  else match config.idleTimeoutMs with
    | none => false
    | some timeout => timeout ≤ now.toNat - s.lastActivityAt.toNat

/-- Reads from a session and checks its deadlines. -/
def readSession (config : CoreDaemonConfig) (log : EventLog) (now : UInt64)
    (s : DaemonClientSession) : DaemonClientSession × Bool :=
  if s.connection.closed then (s, true)
  else
    let (s, gone) := readFrames config log now maxFramesPerStepPerSession s
    if s.connection.closed then (s, gone)
    else if overdue config now s then (s.close, true)
    else (s, gone)

end Altior.Application
