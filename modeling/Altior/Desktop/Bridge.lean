import Altior.Desktop.Session

/-!
# The bridge to Core

The worker of the desktop bridge, which takes one message of the frontend after the
other, and the reader of its connection (`apps/desktop/src-tauri/src/state.rs`).  The
two share the commands that wait for an answer.  A command is three steps of the
worker, between which the reader may run; of every other message the worker first ends
the reader, or has ended it before, so that it is one step.
-/

namespace Altior.Desktop

open Application Domain Ipc Lib

inductive TransportStatus
  | disconnected
  | connecting
  | connected
  | reconnecting
  | unavailable
  | closed
deriving DecidableEq, Repr

/-- Reconnect cursor of the frontend. -/
structure ReconnectCursor where
  lastSequence : Option UInt64
  cursorId : Option String
deriving DecidableEq, Repr

/-- What a command is answered with. -/
inductive CommandValue
  | echo
  | duplicate (operationId : OperationId)
  | data (value : Option Json)
  | status (body : ReplyBody)
  | snapshot (snapshot : SnapshotEnvelope)

/-- An answer to the frontend. -/
abbrev Answer := Except BridgeError CommandValue

/-- The operation a frame answers, and what its caller gets. -/
def answerOf : Frame → Option (OperationId × Answer)
  | .reply r => some (r.operationId,
      match r.body with
      | .commandResult true data => .ok (.data data)
      | .commandResult false _ =>
        .error (.commandFailed "COMMAND_FAILED" "Operation returned unsuccessful")
      | .commandError code message => .error (.commandFailed code message.asStr)
      | .runtimeStatus _ _ => .ok (.status r.body))
  | .snapshot s => some (s.operationId, .ok (.snapshot s))
  | .event _ | .coreHello | .coreGreeting _ _ => none

/-- Kind of a reply. -/
def replyKind : ReplyBody → String
  | .commandResult _ _ => "command.result"
  | .commandError _ _ => "command.error"
  | .runtimeStatus _ _ => "runtime.status"

/-- A frame as an event of the stream.  The body of a reply stands for itself: the
stream does not look at it. -/
def eventOf : Frame → Option EventEnvelope
  | .event e => some e
  | .reply r => some ⟨r.eventId, some r.operationId, none, none, 1, r.occurredAt,
      .unknown (replyKind r.body) ⟨"", by decide⟩⟩
  | .snapshot _ | .coreHello | .coreGreeting _ _ => none

/-- What an attempt to attach comes to: a failure, or the greeting of a Core on a new
connection, of which a handle for the reader is had or not. -/
inductive AttachOutcome
  | failed (error : BridgeError)
  | greeted (greeting : CoreGreeting) (selectedVersion : Nat) (cloned : Bool)

/-- What sending a command comes to. -/
inductive SendOutcome
  | sent
  | failed (error : BridgeError)

/-- How far the worker is: between two messages, with a command the ledger took, or
with one whose frame was sent and that is not registered yet. -/
inductive Worker
  | idle
  | recorded (command : Nat) (envelope : CommandEnvelope)
  | sent (command : Nat) (operationId : OperationId)

/-- What the caller of a command is owed. -/
inductive Due
  | contents (answer : Answer)
  | error

/-- A command message.  `record` is what the ledger said, if it was asked;
`connection` is the connection its frame was sent on.  `due` is history: what the
caller is owed since the reply was read, or the connection was gone. -/
structure Issued where
  operationId : OperationId
  ping : Bool
  record : Option (Except BridgeError RecordOutcome)
  connection : Option Nat
  due : Option Due

/-- Whether a command is a mere test of the connection. -/
def isPing (envelope : CommandEnvelope) : Bool := envelope.command matches .ping

/-- A command that was taken and not sent yet. -/
def Issued.taken (envelope : CommandEnvelope) (record : Option (Except BridgeError RecordOutcome)) :
    Issued :=
  ⟨envelope.operationId, isPing envelope, record, none, none⟩

/-- The bridge.  Connections and commands are known by the order in which they were
opened and taken.  `gone`, `issued`, `answers` and `delivered` are history: whether the
last connection was lost, the commands, what was answered to which of them, and the
events handed to the subscribers. -/
structure Bridge where
  status : TransportStatus
  handshake : Option Nat
  lastSequence : UInt64
  session : BridgeSession
  pending : Table OperationId Nat
  channel : Option Nat
  reader : Option Nat
  stopReader : Bool
  worker : Worker
  opened : Nat
  gone : Bool
  issued : List Issued
  answers : List (Nat × Answer)
  delivered : List EventEnvelope

/-- What may happen to a bridge. -/
inductive Bridging
  | handshake (outcome : AttachOutcome)
  | command (envelope : CommandEnvelope)
  | send (outcome : SendOutcome)
  | register
  | reconnect (cursor : Option ReconnectCursor) (outcome : AttachOutcome)
  | close
  | read (frame : Frame)
  | disconnect

namespace Bridge

/-- The bridge as it is created. -/
def new : Bridge :=
  { status := .disconnected, handshake := none, lastSequence := 0, session := .new, pending := ∅
    channel := none, reader := none, stopReader := false, worker := .idle, opened := 0
    gone := false, issued := [], answers := [], delivered := [] }

/-- Answers a command. -/
def answer (s : Bridge) (command : Nat) (a : Answer) : Bridge :=
  { s with answers := s.answers ++ [(command, a)] }

/-- From now on the commands that were sent over connection `c` and are owed nothing
yet are owed `due`. -/
def owe (due : Due) (owed : Issued → Bool) (issued : List Issued) : List Issued :=
  issued.map fun i =>
    if i.connection.isSome && i.due.isNone && owed i then { i with due := some due } else i

/-- The connection is gone. -/
def lose (s : Bridge) : Bridge :=
  { s with gone := true, issued := owe .error (fun _ => true) s.issued }

/-! ## The worker -/

/-- The connection of a Core that greeted, or the failure. -/
def attach (s : Bridge) (failed : TransportStatus) : AttachOutcome → Bridge
  | .failed _ => { s with status := failed }
  | .greeted greeting version cloned =>
    match s.session.acceptGreeting greeting version with
    | .error _ => { s with status := failed }
    | .ok (_, session) =>
      -- the connection there was is replaced
      { s.lose with
        session := session
        handshake := some version
        status := .connected
        stopReader := false
        channel := some s.opened
        reader := if cloned then some s.opened else none
        opened := s.opened + 1
        gone := false }

/-- A `Handshake` message. -/
def handshakeWith (s : Bridge) (outcome : AttachOutcome) : Bridge :=
  if s.status = .connected ∧ s.handshake.isSome then s
  else { s with status := .connecting }.attach .unavailable outcome

/-- A command is taken. -/
def issue (s : Bridge) (i : Issued) : Bridge := { s with issued := s.issued ++ [i] }

/-- A `Command` message, until its frame is sent. -/
def takeCommand (s : Bridge) (envelope : CommandEnvelope) : Bridge :=
  let k := s.issued.length
  if s.status = .closed then
    (s.issue (.taken envelope none)).answer k (.error .connectionClosed)
  else if s.status ≠ .connected then
    (s.issue (.taken envelope none)).answer k
      (.error (.transportUnavailable "Not connected to Core"))
  else match s.session.recordCommand envelope with
    | (.ok .alreadyIssued, session) =>
      ({ s with session := session }.issue (.taken envelope (some (.ok .alreadyIssued)))).answer k
        (.ok (.duplicate envelope.operationId))
    | (.error e, session) =>
      ({ s with session := session }.issue (.taken envelope (some (.error e)))).answer k (.error e)
    | (.ok .recorded, session) =>
      { s with session := session, worker := .recorded k envelope }.issue
        (.taken envelope (some (.ok .recorded)))

/-- The frame of a command is sent over the connection, which may be gone. -/
def send (s : Bridge) (command : Nat) (envelope : CommandEnvelope) (outcome : SendOutcome) :
    Bridge :=
  match s.channel with
  | none => { s with worker := .idle }.answer command
      (.error (.transportUnavailable "Channel is None"))
  | some c =>
    match outcome with
    | .failed e => { s with worker := .idle }.answer command (.error e)
    | .sent =>
      let s := { s with issued := s.issued.modify command fun i =>
        { i with connection := some c, due := if s.gone then some .error else none } }
      if isPing envelope then
        { s with worker := .idle }.answer command (.ok .echo)
      else { s with worker := .sent command envelope.operationId }

/-- A command that was sent waits for its answer. -/
def register (s : Bridge) (command : Nat) (operationId : OperationId) : Bridge :=
  { s with pending := s.pending.insert operationId command, worker := .idle }

/-- The reader is stopped and the connection closed; the cursor says what the frontend
has seen last. -/
def detach (s : Bridge) (cursor : Option ReconnectCursor) : Bridge :=
  { s.lose with
    status := .reconnecting
    stopReader := false
    reader := none
    channel := none
    lastSequence := (cursor.bind ReconnectCursor.lastSequence).getD s.lastSequence }

/-- A `Reconnect` message. -/
def reconnectWith (s : Bridge) (cursor : Option ReconnectCursor) (outcome : AttachOutcome) :
    Bridge :=
  (s.detach cursor).attach .disconnected outcome

/-- A `Close` message. -/
def close (s : Bridge) : Bridge :=
  { s.lose with
    status := .closed
    stopReader := true
    channel := none
    handshake := none
    pending := ∅
    answers := s.answers ++ s.pending.toList.map fun (_, command) =>
      (command, .error .connectionClosed) }

/-! ## The reader -/

/-- The waiter of the operation that the frame names is answered. -/
def complete (s : Bridge) (frame : Frame) : Bridge :=
  match answerOf frame with
  | none => s
  | some (operationId, a) =>
    match s.pending[operationId]? with
    | none => s
    | some command => { s with pending := s.pending.erase operationId }.answer command a

/-- A frame only takes a waiter and answers. -/
theorem complete_frame (s : Bridge) (frame : Frame) : ∃ pending answers,
    s.complete frame = { s with pending := pending, answers := answers } := by
  unfold complete
  split
  · exact ⟨_, _, rfl⟩
  · split <;> exact ⟨_, _, rfl⟩

/-- The event is taken into the stream and handed to the subscribers. -/
def dispatch (s : Bridge) (frame : Frame) : Bridge :=
  match eventOf frame with
  | none => s
  | some event =>
    let s := match s.session.acceptEvent event with
      | .ok (.applied sequence, session) =>
        { s with session := session, lastSequence := sequence }
      | .ok (.duplicate, session) => { s with session := session }
      | .error _ => s
    { s with delivered := s.delivered ++ [event] }

/-- An event only moves the stream. -/
theorem dispatch_frame (s : Bridge) (frame : Frame) : ∃ inner lastSequence delivered,
    s.dispatch frame = { s with
      session := { s.session with inner := inner }
      lastSequence := lastSequence
      delivered := delivered } := by
  unfold Bridge.dispatch
  split
  · exact ⟨_, _, _, rfl⟩
  · rename_i event _
    cases haccept : s.session.inner.acceptEvent event with
    | error e =>
      simp only [BridgeSession.acceptEvent, haccept, Except.map]
      exact ⟨_, _, _, rfl⟩
    | ok pair =>
      obtain ⟨delivery, inner⟩ := pair
      simp only [BridgeSession.acceptEvent, haccept, Except.map]
      cases delivery <;> exact ⟨_, _, _, rfl⟩

/-- An event is dropped if it was seen, and else gives the last sequence. -/
theorem dispatch_event {s : Bridge} {frame : Frame} {event : EventEnvelope}
    (hevent : eventOf frame = some event) (hgreeted : s.session.inner.instanceId.isSome) :
    s.dispatch frame =
      if event.eventId ∈ s.session.inner.seenEventIds then
        { s with delivered := s.delivered ++ [event] }
      else { s with
        session := { s.session with inner := { s.session.inner with
          seenEventIds := s.session.inner.seenEventIds.insert event.eventId
          lastSequence := some (s.session.inner.lastSequence.elim event.sequence fun last =>
            if last < event.sequence then event.sequence else last) } }
        lastSequence := event.sequence
        delivered := s.delivered ++ [event] } := by
  have hsome : ¬ s.session.inner.instanceId.isNone := by
    rw [Option.isNone_iff_eq_none, ← Option.not_isSome_iff_eq_none, not_not]
    exact hgreeted
  by_cases hseen : event.eventId ∈ s.session.inner.seenEventIds
  · simp only [Bridge.dispatch, hevent, BridgeSession.acceptEvent, ClientSession.acceptEvent,
      if_neg hsome, if_pos hseen, Except.map]
  · simp only [Bridge.dispatch, hevent, BridgeSession.acceptEvent, ClientSession.acceptEvent,
      if_neg hsome, if_neg hseen, Except.map]
    cases s.session.inner.lastSequence <;> rfl

/-- What the commands sent over connection `c` are owed once the frame was read. -/
def oweReply (frame : Frame) (c : Nat) (issued : List Issued) : List Issued :=
  match answerOf frame with
  | none => issued
  | some (operationId, a) =>
    owe (.contents a) (fun i => i.operationId = operationId && i.connection = some c) issued

/-- The reader reads a frame.  It ends when it was told to stop. -/
def read (s : Bridge) (frame : Frame) : Bridge :=
  match s.reader with
  | none => s
  | some c =>
    let s := { s with issued := oweReply frame c s.issued }
    let s := (s.complete frame).dispatch frame
    { s with reader := if s.stopReader then none else some c }

/-- A frame that is read goes into the stream. -/
theorem read_eq {s : Bridge} {c : Nat} (hreader : s.reader = some c) (frame : Frame) :
    ∃ s' : Bridge, s'.session = s.session ∧ s'.lastSequence = s.lastSequence ∧
      s'.stopReader = s.stopReader ∧
      s.read frame = { s'.dispatch frame with
        reader := if (s'.dispatch frame).stopReader then none else some c } := by
  obtain ⟨pending, answers, hcomplete⟩ :=
    complete_frame { s with issued := oweReply frame c s.issued } frame
  unfold Bridge.read
  split
  · rename_i hnone
    cases hnone.symm.trans hreader
  · rename_i c' hsome
    cases hsome.symm.trans hreader
    refine ⟨{ s with issued := oweReply frame c s.issued }.complete frame, ?_, ?_, ?_, rfl⟩
    all_goals rw [hcomplete]

/-- The connection is lost.  The reader, where one runs, finds out and ends. -/
def disconnect (s : Bridge) : Bridge :=
  match s.reader with
  | none => s.lose
  | some _ => { s.lose with
      reader := none
      status := if s.stopReader then s.status else .disconnected }

/-! ## Steps -/

/-- The worker takes a message when it is done with the one before. -/
def whenIdle (s : Bridge) (f : Bridge → Bridge) : Bridge :=
  match s.worker with
  | .idle => f s
  | .recorded _ _ | .sent _ _ => s

/-- One step. -/
def step (s : Bridge) : Bridging → Bridge
  | .handshake outcome => s.whenIdle fun s => s.handshakeWith outcome
  | .command envelope => s.whenIdle fun s => s.takeCommand envelope
  | .send outcome =>
    match s.worker with
    | .recorded command envelope => s.send command envelope outcome
    | .idle | .sent _ _ => s
  | .register =>
    match s.worker with
    | .sent command operationId => s.register command operationId
    | .idle | .recorded _ _ => s
  | .reconnect cursor outcome => s.whenIdle fun s => s.reconnectWith cursor outcome
  | .close => s.whenIdle close
  | .read frame => s.read frame
  | .disconnect => s.disconnect

/-- A bridge over its whole life. -/
def machine : Machine Bridge Bridging := ⟨new, step⟩

/-! ## Samples -/

def sampleOperation : OperationId := ⟨"op_00000000000000d1", by decide⟩

def sampleAttach : AttachOutcome := .greeted ⟨1, ⟨"cor_00000000000000d1", by decide⟩, none⟩ 1 true

end Bridge

end Altior.Desktop
