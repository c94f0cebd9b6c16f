import Altior.Acp.Runtime
import Altior.Acp.Events

/-!
# A session and its worker

One session of the harness adapter: the worker thread that runs its prompts, the
channels between the two, and the calls of the adapter on the session's handle
(`altior-core/src/runtime/adapters/acp.rs`).  The worker stands at one of the
places where it may have to wait; a step takes it from there to the next.
-/

namespace Altior.Acp

open Domain Lib Altior.Runtime

/-- Capacity of the command and event channels. -/
def channelBound : Nat := 1024

/-- A command to the worker. -/
inductive WorkerCommand
  | prompt (request : HarnessPromptRequest)
  | close
deriving DecidableEq

/-- The prompt the worker runs. -/
structure Running where
  turnId : TurnId
  sessionId : String
  promptId : RpcId
deriving DecidableEq

variable [SerdeJson]

/-- Where the worker stands. -/
inductive WorkerAt
  /-- Waits for a command. -/
  | idle
  /-- At the top of the prompt loop. -/
  | looping (p : Running)
  /-- Reads from the agent. -/
  | reading (p : Running)
  /-- Sends an event of a message; `rest` is still to be reported. -/
  | reporting (p : Running) (event : HarnessEvent) (rest : List NormalizedEvent) (m : RpcMessage)
  /-- Waits until the event was taken. -/
  | awaitingAck (p : Running) (rest : List NormalizedEvent) (m : RpcMessage)
  /-- Sends a permission request. -/
  | requesting (p : Running) (id : RpcId) (event : HarnessEvent)
  /-- Waits for the decision. -/
  | awaitingDecision (p : Running) (id : RpcId)
  /-- Sends the events that end the turn. -/
  | ending (events : List HarnessEvent)
  | stopped

/-- The prompt that is running at this point. -/
def WorkerAt.running : WorkerAt → Option Running
  | looping p | reading p | reporting p _ _ _ | awaitingAck p _ _ | requesting p _ _
  | awaitingDecision p _ => some p
  | idle | ending _ | stopped => none

/-- A session.  The channel of a permission request is known by its number;
`decision` is what is in the channel made last. -/
structure Session (σ : Type) where
  turn : Turn σ
  worker : WorkerAt
  commands : List WorkerCommand
  events : List HarnessEvent
  ack : Bool
  eventAwaitingAck : Bool
  cancelSignal : Bool
  permissionTxs : Table EventId Nat
  channel : Nat
  decision : Option PermissionDecision

variable {σ : Type}

namespace Session

/-- A session after its handshake. -/
def opened (runtime : AcpRuntime) (peer : σ) : Session σ where
  turn := Turn.start runtime peer
  worker := .idle
  commands := []
  events := []
  ack := false
  eventAwaitingAck := false
  cancelSignal := false
  permissionTxs := ∅
  channel := 0
  decision := none

/-! ## The handle -/

/-- Tells the worker that its event was taken, if that is still to be told. -/
def ackIfAwaiting (s : Session σ) : Session σ :=
  if s.eventAwaitingAck then { s with eventAwaitingAck := false, ack := true } else s

/-- Puts a command into the channel. -/
def push (s : Session σ) (command : WorkerCommand) : Session σ :=
  { s with commands := s.commands ++ [command] }

/-- The command channel has no room. -/
def full (s : Session σ) : Bool := channelBound ≤ s.commands.length

def cancelTurn (s : Session σ) : Session σ :=
  { s with cancelSignal := true }.ackIfAwaiting

/-- Sends a decision into a channel; only the one made last has a receiver. -/
def decide (s : Session σ) (channel : Nat) (decision : PermissionDecision) : Session σ :=
  if channel = s.channel then { s with decision := some decision } else s

/-- A decision for an unknown request goes to the only one there is. -/
def decidePermission (s : Session σ) (eventId : EventId) (decision : PermissionDecision) :
    Except HarnessError Unit × Session σ :=
  match s.permissionTxs[eventId]? with
  | some channel =>
    (.ok (), { s with permissionTxs := s.permissionTxs.erase eventId }.decide channel decision)
  | none =>
    match s.permissionTxs.toList with
    | [(_, channel)] => (.ok (), { s with permissionTxs := ∅ }.decide channel decision)
    | _ => (.error (.other ("pending permission " ++ eventId.asStr ++ " not found")), s)

/-- Takes the next event; whether the worker waits for it is noted. -/
def pollEvent (s : Session σ) : Option HarnessEvent × Session σ :=
  match s.ackIfAwaiting.events with
  | [] => (none, s.ackIfAwaiting)
  | event :: rest =>
    (some event, { s.ackIfAwaiting with
      events := rest
      eventAwaitingAck := s.ackIfAwaiting.eventAwaitingAck || requiresAck event })

/-- Sets the signal and tells the worker what it waits for, before the command is
sent. -/
def beginClose (s : Session σ) : Session σ := s.cancelTurn

/-! ## The worker -/

/-- Runs a part of the prompt loop; a failure ends the prompt. -/
def perform {α : Type} (s : Session σ) (m : Proc (Turn σ) AcpError α)
    (k : α → Session σ → Session σ) : Session σ :=
  match m s.turn none with
  | ⟨.done a, t, _⟩ => k a { s with turn := t }
  | ⟨.failed e, t, _⟩ => { s with turn := t, worker := .ending (terminalEvents (.error e)) }
  | ⟨.crashed, t, _⟩ => { s with turn := t }

/-- Sends an event and goes on; a full channel makes it wait. -/
def emit (s : Session σ) (event : HarnessEvent) (next : WorkerAt) : Session σ :=
  if s.events.length < channelBound then { s with events := s.events ++ [event], worker := next }
  else s

section Worker

variable [AcpSerde] [DefaultHasher] [ProcessTransport σ]

/-- The event of a permission request. -/
def permissionRequest (id : RpcId) (toolCallId : Option String) : HarnessEvent :=
  .permissionRequest (permissionEventIdForRpc id) .execute (describePermission toolCallId)

/-- Handles a message whose events were reported.  A request that has to be
decided gets a channel of its own. -/
def dispatch (p : Running) (m : RpcMessage) (s : Session σ) : Session σ :=
  s.perform (Acp.dispatch p.promptId m) fun r s =>
    match r with
    | .settled stopReason => { s with worker := .ending (terminalEvents (.ok stopReason)) }
    | .goOn => { s with worker := .looping p }
    | .undecided id toolCallId =>
      { s with
        worker := .requesting p id (permissionRequest id toolCallId)
        permissionTxs := s.permissionTxs.insert (permissionEventIdForRpc id) (s.channel + 1)
        channel := s.channel + 1
        decision := none }

/-- Reports the events of a message, up to the first that is sent. -/
def deliver (p : Running) (m : RpcMessage) : List NormalizedEvent → Session σ → Session σ
  | [], s => s.dispatch p m
  | event :: rest, s =>
    match harnessEvent p.turnId event.event with
    | some reported => { s with worker := .reporting p reported rest m }
    | none => deliver p m rest s

/-- Takes a command.  A prompt resets the cancellation signal. -/
def takeCommand (s : Session σ) : Session σ :=
  match s.commands with
  | [] => s
  | .close :: rest => { s with commands := rest, worker := .stopped }
  | .prompt request :: rest =>
    { s with
      commands := rest
      cancelSignal := false
      turn := Turn.start s.turn.runtime s.turn.peer }.perform
        (beginPrompt [.text request.prompt]) fun ids s =>
          { s with worker := .looping ⟨request.turnId, ids.1, ids.2⟩ }

/-- Looks at the signal and passes a cancel on, once. -/
def checkSignal (p : Running) (s : Session σ) : Session σ :=
  if s.turn.cancelSent = false ∧ s.cancelSignal = true then
    s.perform (passCancel p.sessionId) fun _ s => { s with worker := .reading p }
  else { s with worker := .reading p }

/-- Reads from the agent. -/
def read (p : Running) (s : Session σ) : Session σ :=
  s.perform receive fun r s =>
    match r with
    | none => { s with worker := .looping p }
    | some m => s.perform (Proc.ofExcept (normalizeMessage m)) fun events s => s.deliver p m events

/-- One step of the worker; where it has to wait, nothing happens. -/
def workerStep (s : Session σ) : Session σ :=
  match s.worker with
  | .idle => s.takeCommand
  | .looping p => s.checkSignal p
  | .reading p => s.read p
  | .reporting p event rest m => s.emit event (.awaitingAck p rest m)
  | .awaitingAck p rest m => if s.ack then { s with ack := false }.deliver p m rest else s
  | .requesting p id event => s.emit event (.awaitingDecision p id)
  | .awaitingDecision p id =>
    match s.decision with
    | none => s
    | some decision =>
      { s with decision := none }.perform (replyPermission id (permissionOutcome decision))
        fun _ s => { s with worker := .looping p }
  | .ending [] => { s with worker := .idle }
  | .ending (event :: rest) => s.emit event (.ending rest)
  | .stopped => s

end Worker

end Session

end Altior.Acp
