import Altior.Acp.Adapter
import Altior.Acp.Blocking

/-!
# A cancel on its way to the prompt loop

The turns of one thread and their cancels, from the client that sends them to the
worker that runs them: the daemon reads what arrived and executes the control
commands before the others (`altior-core/src/application/daemon.rs`), the supervisor
passes them on to the adapter, and the worker takes prompts from its channel and
resets the signal as it does (`altior-core/src/runtime/adapters/acp.rs`).
-/

namespace Altior.Acp

open Domain Lib Altior.Runtime

/-! ## What a cancel is answered -/

/-- The answer of `steer_cancel`, given the answers of the ports. -/
def cancelAnswer (v : ThreadRuntimeSupervisor) (intent : Except CheckpointError Unit)
    (sent : Except HarnessError Unit) : Except RuntimeError CancelOutcome := do
  v.checkCapability "session.cancel"
  match v.state with
  | .cancelling _ _ => pure .alreadyCancelling
  | .prompting _ _ _ | .awaitingPermission _ _ _ =>
    match v.sessionId, intent, sent with
    | none, _, _ => throw (.sessionNotReady (.text "no bound session"))
    | some _, .error e, _ => throw (.checkpoint e)
    | some _, .ok (), .error e => throw (.harness e)
    | some _, .ok (), .ok () => pure .cancelledActive
  | _ => pure .noActiveTurn

/-- Whether the cancel gets to the harness. -/
def cancelReaches (v : ThreadRuntimeSupervisor) (intent : Except CheckpointError Unit) : Bool :=
  (v.checkCapability "session.cancel").isOk && v.sessionId.isSome && intent.isOk &&
    match v.state with
    | .prompting _ _ _ | .awaitingPermission _ _ _ => true
    | _ => false

/-! ## Commands -/

/-- A turn the client asks for, the how manieth it is. -/
structure StartTurn where
  number : Nat
  operationId : OperationId
  turnId : TurnId
  content : String

/-- A command of the client.  A cancel bears the number of turns asked for before
it. -/
inductive ClientCommand
  | startTurn (turn : StartTurn)
  | cancelTurn (after : Nat)

def ClientCommand.startTurn? : ClientCommand → Option StartTurn
  | startTurn turn => some turn
  | cancelTurn _ => none

def ClientCommand.cancelTurn? : ClientCommand → Option Nat
  | startTurn _ => none
  | cancelTurn after => some after

theorem mem_cancelTurns {commands : List ClientCommand} {after : Nat} :
    after ∈ commands.filterMap ClientCommand.cancelTurn? ↔ .cancelTurn after ∈ commands := by
  rw [List.mem_filterMap]
  constructor
  · rintro ⟨command, hmem, hsome⟩
    cases command with
    | startTurn turn => cases hsome
    | cancelTurn other =>
      cases hsome
      exact hmem
  · exact fun hmem => ⟨_, hmem, rfl⟩

theorem mem_startTurns {commands : List ClientCommand} {turn : StartTurn} :
    turn ∈ commands.filterMap ClientCommand.startTurn? ↔ .startTurn turn ∈ commands := by
  rw [List.mem_filterMap]
  constructor
  · rintro ⟨command, hmem, hsome⟩
    cases command with
    | startTurn other =>
      cases hsome
      exact hmem
    | cancelTurn after => cases hsome
  · exact fun hmem => ⟨_, hmem, rfl⟩

/-- The worker takes a prompt in its next step. -/
def Session.takesPrompt [SerdeJson] {σ : Type} (s : Session σ) : Bool :=
  match s.worker, s.commands with
  | .idle, .prompt _ :: _ => true
  | _, _ => false

section Desk

variable [SerdeJsonWriter] {σ : Type}

/-- A thread with its session and the commands on their way to it.  The last four
fields are history: how many turns were asked for, the numbers of the prompts in the
channel of the worker and of the one it took last, and the cancels that were
answered. -/
structure Desk (σ : Type) where
  inbox : List ClientCommand
  control : List Nat
  normal : List StartTurn
  supervisor : ThreadRuntimeSupervisor
  session : Session σ
  sent : Nat
  queued : List Nat
  current : Option Nat
  acknowledged : List Nat

/-- What may happen next, with the answers of the checkpoint port.  `passes` says
whether the application lets the turn through to the supervisor. -/
inductive Errand (σ : Type)
  | startTurn (operationId : OperationId) (turnId : TurnId) (content : String)
  | cancelTurn
  | read (frames : Nat)
  | control (intent : Except CheckpointError Unit)
  | normal (passes : Bool) (intent settled : Except CheckpointError Unit)
  | pollStream (settled : Except CheckpointError Unit)
  | decidePermission (eventId : EventId) (decision : PermissionDecision)
      (intent settled : Except CheckpointError Unit)
  | worker
  | agent (f : σ → σ)

namespace Desk

/-- A thread whose session has just been established. -/
def opened (threadId : ThreadId) (info : HarnessSessionInfo) (runtime : AcpRuntime) (peer : σ) :
    Desk σ where
  inbox := []
  control := []
  normal := []
  supervisor := ((ThreadRuntimeSupervisor.new threadId).created (.ok info)).2
  session := .opened runtime peer
  sent := 0
  queued := []
  current := none
  acknowledged := []

/-- The daemon begins a step: what it reads is put in order. -/
def read (s : Desk σ) (frames : Nat) : Desk σ :=
  match s.control, s.normal with
  | [], [] =>
    { s with
      inbox := s.inbox.drop frames
      control := (s.inbox.take frames).filterMap ClientCommand.cancelTurn?
      normal := (s.inbox.take frames).filterMap ClientCommand.startTurn? }
  | _, _ => s

/-- Executes a control command. -/
def executeControl (s : Desk σ) (intent : Except CheckpointError Unit) : Desk σ :=
  match s.control with
  | [] => s
  | after :: rest =>
    { s with
      control := rest
      supervisor := s.supervisor.cancelled intent (.ok ())
      session := if cancelReaches s.supervisor intent then s.session.cancelTurn else s.session
      acknowledged :=
        if (cancelAnswer s.supervisor intent (.ok ())).isOk then s.acknowledged ++ [after]
        else s.acknowledged }

variable [ErrorText]

/-- Hands a turn to the supervisor, and its prompt to the worker if the supervisor
does. -/
def prompt (s : Desk σ) (turn : StartTurn) (intent settled : Except CheckpointError Unit) :
    Desk σ :=
  if s.supervisor.admits turn.operationId turn.turnId && intent.isOk then
    match s.session.sendPrompt ⟨turn.turnId, turn.operationId, turn.content⟩ with
    | (.ok (), session) =>
      { s with
        supervisor := (s.supervisor.prompted turn.operationId turn.turnId intent (.ok ())
          settled).2
        session := session
        queued := s.queued ++ [turn.number] }
    | (.error err, session) =>
      { s with
        supervisor := (s.supervisor.prompted turn.operationId turn.turnId intent (.error err)
          settled).2
        session := session }
  else
    { s with
      supervisor := (s.supervisor.prompted turn.operationId turn.turnId intent (.ok ())
        settled).2 }

/-- Executes another command, once no control command is left. -/
def executeNormal (s : Desk σ) (passes : Bool) (intent settled : Except CheckpointError Unit) :
    Desk σ :=
  match s.control, s.normal with
  | [], turn :: rest =>
    if passes then { s with normal := rest }.prompt turn intent settled
    else { s with normal := rest }
  | _, _ => s

/-- Takes the next event of the session. -/
def pollStream (s : Desk σ) (settled : Except CheckpointError Unit) : Desk σ :=
  match s.supervisor.sessionId with
  | none => s
  | some _ =>
    { s with
      supervisor := s.supervisor.polled (.ok s.session.pollEvent.1) settled
      session := s.session.pollEvent.2 }

/-- Decides on the permission the supervisor awaits. -/
def decidePermission (s : Desk σ) (eventId : EventId) (decision : PermissionDecision)
    (intent settled : Except CheckpointError Unit) : Desk σ :=
  match s.supervisor.activePermissionTurnId eventId, s.supervisor.sessionId, intent with
  | some _, some _, .ok () =>
    { s with
      supervisor := s.supervisor.decided eventId intent
        (s.session.decidePermission eventId decision).1 settled
      session := (s.session.decidePermission eventId decision).2 }
  | _, _, _ => s

variable [AcpSerde] [DefaultHasher] [ProcessTransport σ]

/-- A step of the worker, with the number of the prompt it takes, if it does. -/
def workerStep (s : Desk σ) : Desk σ :=
  if s.session.takesPrompt then
    { s with
      session := s.session.workerStep
      queued := s.queued.tail
      current := s.queued.head? }
  else { s with session := s.session.workerStep }

def step (s : Desk σ) : Errand σ → Desk σ
  | .startTurn operationId turnId content =>
    { s with
      inbox := s.inbox ++ [.startTurn ⟨s.sent + 1, operationId, turnId, content⟩]
      sent := s.sent + 1 }
  | .cancelTurn => { s with inbox := s.inbox ++ [.cancelTurn s.sent] }
  | .read frames => s.read frames
  | .control intent => s.executeControl intent
  | .normal passes intent settled => s.executeNormal passes intent settled
  | .pollStream settled => s.pollStream settled
  | .decidePermission eventId decision intent settled =>
    s.decidePermission eventId decision intent settled
  | .worker => s.workerStep
  | .agent f =>
    { s with session := { s.session with
        turn := { s.session.turn with peer := f s.session.turn.peer } } }

/-- The thread over the life of its session. -/
def machine (threadId : ThreadId) (info : HarnessSessionInfo) (runtime : AcpRuntime) (peer : σ) :
    Machine (Desk σ) (Errand σ) :=
  ⟨opened threadId info runtime peer, step⟩

/-! ## Cancels that are kept -/

omit [ErrorText] [AcpSerde] [DefaultHasher] [ProcessTransport σ]

/-- The prompt of the turn is in the channel, or the worker runs it. -/
def Outstanding (s : Desk σ) (number : Nat) : Prop :=
  number ∈ s.queued ∨ s.current = some number ∧ s.session.worker.running ≠ none

/-- As long as a prompt is not done whose turn was asked for before a cancel that was
answered, the signal is raised. -/
def Kept (s : Desk σ) : Prop :=
  ∀ after ∈ s.acknowledged, ∀ number ≤ after, s.Outstanding number →
    s.session.cancelSignal = true

/-- A cancel is executed when the turns asked for before it were handed on, the
delivery of a prompt the worker was sent is settled, and the worker takes no prompt
of a turn that is being cancelled. -/
def Timely (s : Desk σ) : Errand σ → Prop
  | .control _ =>
    ∀ after, s.control.head? = some after → ∀ turn ∈ s.normal, after < turn.number
  | .normal passes intent settled =>
    ∀ turn, s.control = [] → s.normal.head? = some turn → passes →
      s.supervisor.admits turn.operationId turn.turnId → intent.isOk → settled.isOk
  | .worker => s.session.takesPrompt → s.supervisor.state.isCancelling = false
  | _ => True

end Desk

end Desk

/-! ## One prompt at a time -/

section Session

variable [SerdeJson] {σ : Type}

/-- Whether an event ends a turn. -/
def endsTurn : HarnessEvent → Bool
  | .completed _ | .cancelled | .failed _ _ | .processExited _ => true
  | _ => false

/-- What may be left of the events that end a turn. -/
inductive Remaining : List HarnessEvent → Prop
  | nothing : Remaining []
  | completed : Remaining [.completed none]
  | cancelled : Remaining [.cancelled]
  | failed (error : String) : Remaining [.failed error .indeterminate, .processExited none]
  | exited : Remaining [.processExited none]

theorem Remaining.tail {event : HarnessEvent} {rest : List HarnessEvent}
    (h : Remaining (event :: rest)) : Remaining rest := by
  cases h with
  | completed => exact .nothing
  | cancelled => exact .nothing
  | failed error => exact .exited
  | exited => exact .nothing

theorem remaining_terminalEvents (r : Except AcpError StopReason) :
    Remaining (terminalEvents r) := by
  unfold terminalEvents
  split
  · exact .cancelled
  · exact .cancelled
  · exact .completed
  · exact .failed _

theorem endsTurn_terminalEvents (r : Except AcpError StopReason) :
    (terminalEvents r).filter endsTurn = terminalEvents r := by
  unfold terminalEvents
  split <;> rfl

theorem endsTurn_harnessEvent [AcpSerde] {turnId : TurnId} {event : AgentEvent}
    {reported : HarnessEvent} (h : harnessEvent turnId event = some reported) :
    endsTurn reported = false := by
  cases event <;> cases h <;> rfl

/-- What the worker has still to send of the events that end a turn. -/
def WorkerAt.ends : WorkerAt → List HarnessEvent
  | .ending events => events
  | _ => []

/-- The worker is running a prompt, and sends nothing that ends a turn. -/
def WorkerAt.Runs (w : WorkerAt) : Prop :=
  w.running ≠ none ∧ (∀ p event rest m, w = .reporting p event rest m → endsTurn event = false) ∧
    ∀ p id event, w = .requesting p id event → endsTurn event = false

namespace Session

/-- The events on their way that end a turn. -/
def ends (s : Session σ) : List HarnessEvent := (s.events ++ s.worker.ends).filter endsTurn

/-- No prompt is in the channel, none runs and none has just ended. -/
structure Quiet (s : Session σ) : Prop where
  commands : s.commands = []
  running : s.worker.running = none

/-- There is at most one prompt: in the channel, running, or ending. -/
structure Single (s : Session σ) : Prop where
  prompts : ∀ command ∈ s.commands, command ≠ .close
  one : s.commands.length ≤ 1
  waiting : s.commands ≠ [] → s.worker.running = none ∧ s.ends = []
  running : s.worker.running ≠ none → s.worker.Runs ∧ s.ends = []
  remaining : Remaining s.ends

/-- A part of the prompt loop ran: the prompt goes on or ends. -/
structure Performed (s s' : Session σ) : Prop where
  commands : s'.commands = s.commands
  cancelSignal : s'.cancelSignal = s.cancelSignal
  events : s'.events = s.events
  worker : s'.worker.Runs ∨ ∃ r, s'.worker = .ending (terminalEvents r)

variable {s s' : Session σ}

theorem performed_perform {α : Type} {m : Proc (Turn σ) AcpError α}
    {k : α → Session σ → Session σ} (hm : m.Ends)
    (hk : ∀ a t, Performed s (k a { s with turn := t })) : Performed s (s.perform m k) := by
  unfold perform
  rcases hm.cases s.turn with ⟨a, t, hrun⟩ | ⟨e, t, hrun⟩
  · rw [hrun]
    exact hk a t
  · rw [hrun]
    exact ⟨rfl, rfl, rfl, .inr ⟨.error e, rfl⟩⟩

theorem performed_looping {p : Running} {t : Turn σ} :
    Performed s { s with turn := t, worker := .looping p } :=
  ⟨rfl, rfl, rfl, .inl ⟨nofun, by simp, by simp⟩⟩

theorem performed_reading {p : Running} {t : Turn σ} :
    Performed s { s with turn := t, worker := .reading p } :=
  ⟨rfl, rfl, rfl, .inl ⟨nofun, by simp, by simp⟩⟩

/-- What was performed is what a later state shows of it. -/
theorem Performed.of_eq (h : Performed s s') {s₀ : Session σ} (hcommands : s.commands = s₀.commands)
    (hsignal : s.cancelSignal = s₀.cancelSignal) (hevents : s.events = s₀.events) :
    Performed s₀ s' :=
  ⟨h.commands.trans hcommands, h.cancelSignal.trans hsignal, h.events.trans hevents, h.worker⟩

/-- The worker takes a prompt: it runs, or ends at once. -/
structure Takes (s s' : Session σ) : Prop where
  takes : s.takesPrompt
  commands : s'.commands = s.commands.tail
  events : s'.events = s.events
  worker : s'.worker.Runs ∨ ∃ r, s'.worker = .ending (terminalEvents r)

/-- The worker goes on, or stands, without a change of what it runs. -/
structure Moves (s s' : Session σ) : Prop where
  commands : s'.commands = s.commands
  cancelSignal : s'.cancelSignal = s.cancelSignal
  ends : s'.ends = s.ends
  worker : s'.worker.running ≠ none → s.worker.running ≠ none ∧ s'.worker.Runs

theorem moves_stay (h : s.Single) : Moves s s :=
  ⟨rfl, rfl, rfl, fun hrunning => ⟨hrunning, (h.running hrunning).1⟩⟩

theorem moves_emit (h : s.Single) {event : HarnessEvent} {next : WorkerAt}
    (hends : (event :: next.ends).filter endsTurn = s.worker.ends.filter endsTurn)
    (hnext : next.running ≠ none → s.worker.running ≠ none ∧ next.Runs) :
    Moves s (s.emit event next) := by
  unfold emit
  split
  · refine ⟨rfl, rfl, ?_, hnext⟩
    change ((s.events ++ [event]) ++ next.ends).filter endsTurn = _
    rw [List.append_assoc, List.singleton_append, List.filter_append, hends, ends,
      List.filter_append]
  · exact moves_stay h

variable [AcpSerde] [DefaultHasher] [ProcessTransport σ]

theorem performed_dispatch (p : Running) (m : RpcMessage) : Performed s (s.dispatch p m) := by
  refine performed_perform (ends_dispatch _ _) fun r t => ?_
  cases r with
  | settled stopReason => exact ⟨rfl, rfl, rfl, .inr ⟨.ok stopReason, rfl⟩⟩
  | goOn => exact performed_looping
  | undecided id toolCallId =>
    refine ⟨rfl, rfl, rfl, .inl ⟨nofun, by simp, ?_⟩⟩
    rintro _ _ _ ⟨⟩
    rfl

theorem performed_deliver (p : Running) (m : RpcMessage) (events : List NormalizedEvent) :
    Performed s (s.deliver p m events) := by
  induction events with
  | nil => exact performed_dispatch p m
  | cons event rest ih =>
    unfold deliver
    split
    · rename_i reported hreported
      refine ⟨rfl, rfl, rfl, .inl ⟨nofun, ?_, by simp⟩⟩
      rintro _ _ _ _ ⟨⟩
      exact endsTurn_harnessEvent hreported
    · exact ih

theorem performed_read (p : Running) : Performed s (s.read p) := by
  refine performed_perform ends_receive fun r t => ?_
  cases r with
  | none => exact performed_looping
  | some m =>
    exact (performed_perform (.ofExcept _) fun events t' =>
      (performed_deliver p m events).of_eq rfl rfl rfl).of_eq rfl rfl rfl

omit [DefaultHasher] in
theorem performed_checkSignal (p : Running) : Performed s (s.checkSignal p) := by
  unfold checkSignal
  split
  · exact performed_perform (ends_passCancel _) fun _ _ => performed_reading
  · exact performed_reading

/-- A step of the worker. -/
theorem workerStep_cases (h : s.Single) :
    Takes s s.workerStep ∨ s.worker.running ≠ none ∧ Performed s s.workerStep ∨
      s.takesPrompt = false ∧ Moves s s.workerStep := by
  unfold workerStep
  cases hworker : s.worker with
  | idle =>
    change Takes s s.takeCommand ∨ _ ∨ _ ∧ Moves s s.takeCommand
    unfold takeCommand
    split
    · rename_i hcommands
      exact .inr (.inr ⟨by simp [takesPrompt, hworker, hcommands], moves_stay h⟩)
    · rename_i rest hcommands
      exact absurd rfl (h.prompts .close (by rw [hcommands]; exact List.mem_cons_self))
    · rename_i request rest hcommands
      refine .inl ?_
      have hperformed := performed_perform (s := { s with
        commands := rest
        cancelSignal := false
        turn := Turn.start s.turn.runtime s.turn.peer })
        (k := fun ids s => { s with worker := .looping ⟨request.turnId, ids.1, ids.2⟩ })
        (ends_beginPrompt [.text request.prompt]) fun _ _ => performed_looping
      exact ⟨by simp [takesPrompt, hworker, hcommands],
        hperformed.commands.trans (by rw [hcommands]; exact rfl), hperformed.events,
        hperformed.worker⟩
  | looping p => exact .inr (.inl ⟨nofun, performed_checkSignal p⟩)
  | reading p => exact .inr (.inl ⟨nofun, performed_read p⟩)
  | reporting p event rest m =>
    have hquiet : endsTurn event = false :=
      (h.running (by rw [hworker]; nofun)).1.2.1 p event rest m hworker
    refine .inr (.inr ⟨by simp [takesPrompt, hworker], moves_emit h ?_ fun _ => ?_⟩)
    · rw [hworker, List.filter_cons_of_neg (by rw [hquiet]; exact Bool.false_ne_true)]
      exact rfl
    · exact ⟨by rw [hworker]; nofun, nofun, by simp, by simp⟩
  | awaitingAck p rest m =>
    dsimp only
    split
    · exact .inr (.inl ⟨nofun, (performed_deliver p m rest).of_eq rfl rfl rfl⟩)
    · exact .inr (.inr ⟨by simp [takesPrompt, hworker], moves_stay h⟩)
  | requesting p id event =>
    have hquiet : endsTurn event = false :=
      (h.running (by rw [hworker]; nofun)).1.2.2 p id event hworker
    refine .inr (.inr ⟨by simp [takesPrompt, hworker], moves_emit h ?_ fun _ => ?_⟩)
    · rw [hworker, List.filter_cons_of_neg (by rw [hquiet]; exact Bool.false_ne_true)]
      exact rfl
    · exact ⟨by rw [hworker]; nofun, nofun, by simp, by simp⟩
  | awaitingDecision p id =>
    dsimp only
    split
    · exact .inr (.inr ⟨by simp [takesPrompt, hworker], moves_stay h⟩)
    · exact .inr (.inl ⟨nofun, (performed_perform (ends_replyPermission _ _)
        fun _ _ => performed_looping).of_eq rfl rfl rfl⟩)
  | ending events =>
    have htakes : s.takesPrompt = false := by simp [takesPrompt, hworker]
    cases events with
    | nil =>
      refine .inr (.inr ⟨htakes, rfl, rfl, ?_, fun hrunning => absurd rfl hrunning⟩)
      simp only [ends, hworker]
      exact rfl
    | cons event rest =>
      refine .inr (.inr ⟨htakes, moves_emit h ?_ fun hrunning => absurd rfl hrunning⟩)
      rw [hworker]
      exact rfl
  | stopped => exact .inr (.inr ⟨by simp [takesPrompt, hworker], moves_stay h⟩)

omit [AcpSerde] [DefaultHasher] [ProcessTransport σ]

theorem ends_of_runs {w : WorkerAt} (h : w.Runs) : w.ends = [] := by
  cases w with
  | ending events => exact absurd rfl h.1
  | idle | looping | reading | reporting | awaitingAck | requesting | awaitingDecision | stopped =>
    rfl

/-- A prompt that goes on or ends is the only one there is. -/
theorem single_of_performed (hcommands : s'.commands = [])
    (hevents : s'.events.filter endsTurn = [])
    (hworker : s'.worker.Runs ∨ ∃ r, s'.worker = .ending (terminalEvents r)) : s'.Single := by
  have hends : s'.ends = s'.worker.ends.filter endsTurn := by
    rw [ends, List.filter_append, hevents, List.nil_append]
  refine ⟨?_, ?_, fun hwaiting => absurd hcommands hwaiting, ?_, ?_⟩
  · rw [hcommands]
    exact nofun
  · rw [hcommands]
    exact Nat.zero_le 1
  · intro hrunning
    rcases hworker with hruns | ⟨r, hr⟩
    · refine ⟨hruns, ?_⟩
      rw [hends, ends_of_runs hruns]
      rfl
    · rw [hr] at hrunning
      exact absurd rfl hrunning
  · rw [hends]
    rcases hworker with hruns | ⟨r, hr⟩
    · rw [ends_of_runs hruns]
      exact .nothing
    · rw [hr]
      change Remaining ((terminalEvents r).filter endsTurn)
      rw [endsTurn_terminalEvents]
      exact remaining_terminalEvents r

theorem filter_events_of_ends (h : s.ends = []) : s.events.filter endsTurn = [] := by
  rw [ends, List.filter_append] at h
  exact (List.append_eq_nil_iff.1 h).1

theorem takes_iff : s.takesPrompt = true ↔
    s.worker = .idle ∧ ∃ request rest, s.commands = .prompt request :: rest := by
  unfold takesPrompt
  split <;> simp_all

variable [AcpSerde] [DefaultHasher] [ProcessTransport σ]

theorem Single.workerStep (h : s.Single) : s.workerStep.Single := by
  rcases workerStep_cases h with htakes | ⟨hrunning, hperformed⟩ | ⟨-, hmoves⟩
  · obtain ⟨hidle, request, rest, hcommands⟩ := takes_iff.1 htakes.takes
    have hrest : rest = [] := by
      have hone := h.one
      rw [hcommands] at hone
      exact List.length_eq_zero_iff.1 (Nat.le_zero.1 (Nat.le_of_succ_le_succ hone))
    refine single_of_performed ?_ ?_ htakes.worker
    · rw [htakes.commands, hcommands, hrest]
      rfl
    · rw [htakes.events]
      exact filter_events_of_ends (h.waiting (by rw [hcommands]; exact List.cons_ne_nil _ _)).2
  · refine single_of_performed ?_ ?_ hperformed.worker
    · rw [hperformed.commands]
      by_contra hwaiting
      exact hrunning (h.waiting hwaiting).1
    · rw [hperformed.events]
      exact filter_events_of_ends (h.running hrunning).2
  · constructor
    · rw [hmoves.commands]
      exact h.prompts
    · rw [hmoves.commands]
      exact h.one
    · rw [hmoves.commands, hmoves.ends]
      intro hwaiting
      refine ⟨?_, (h.waiting hwaiting).2⟩
      by_contra hrunning
      exact (hmoves.worker hrunning).1 (h.waiting hwaiting).1
    · rw [hmoves.ends]
      exact fun hrunning =>
        ⟨(hmoves.worker hrunning).2, (h.running (hmoves.worker hrunning).1).2⟩
    · rw [hmoves.ends]
      exact h.remaining

/-- A step in which no prompt is taken. -/
theorem workerStep_of_not_takes (h : s.Single) (htakes : s.takesPrompt = false) :
    s.workerStep.commands = s.commands ∧ s.workerStep.cancelSignal = s.cancelSignal ∧
      (s.workerStep.worker.running ≠ none → s.worker.running ≠ none) ∧
      (s.worker.running = none → s.workerStep.ends = s.ends) := by
  rcases workerStep_cases h with hcase | ⟨hrunning, hperformed⟩ | ⟨-, hmoves⟩
  · exact absurd hcase.takes (by rw [htakes]; exact Bool.false_ne_true)
  · exact ⟨hperformed.commands, hperformed.cancelSignal, fun _ => hrunning,
      fun hnone => absurd hnone hrunning⟩
  · exact ⟨hmoves.commands, hmoves.cancelSignal, fun hrunning => (hmoves.worker hrunning).1,
      fun _ => hmoves.ends⟩

omit [AcpSerde] [DefaultHasher] [ProcessTransport σ]

/-! ## The calls of the adapter -/

/-- A call leaves the prompts and the worker alone. -/
structure Spares (s s' : Session σ) : Prop where
  commands : s'.commands = s.commands
  worker : s'.worker = s.worker
  events : s'.events = s.events

theorem spares_ackIfAwaiting (s : Session σ) : Spares s s.ackIfAwaiting := by
  unfold ackIfAwaiting
  split <;> exact ⟨rfl, rfl, rfl⟩

theorem Spares.ends (h : Spares s s') : s'.ends = s.ends := by
  rw [Session.ends, Session.ends, h.events, h.worker]

theorem Spares.single (h : Spares s s') (hs : s.Single) : s'.Single := by
  have hends := h.ends
  constructor
  · rw [h.commands]
    exact hs.prompts
  · rw [h.commands]
    exact hs.one
  · rw [h.commands, h.worker, hends]
    exact hs.waiting
  · rw [h.worker, hends]
    exact hs.running
  · rw [hends]
    exact hs.remaining

theorem spares_cancelTurn (s : Session σ) : Spares s s.cancelTurn :=
  let h := spares_ackIfAwaiting { s with cancelSignal := true }
  ⟨h.commands, h.worker, h.events⟩

theorem cancelSignal_ackIfAwaiting (s : Session σ) :
    s.ackIfAwaiting.cancelSignal = s.cancelSignal := by
  unfold ackIfAwaiting
  split <;> rfl

theorem spares_decidePermission (s : Session σ) (eventId : EventId)
    (decision : PermissionDecision) :
    Spares s (s.decidePermission eventId decision).2 ∧
      (s.decidePermission eventId decision).2.cancelSignal = s.cancelSignal := by
  have hdecide (txs : Table EventId Nat) (channel : Nat) :
      Spares s ({ s with permissionTxs := txs }.decide channel decision) ∧
        ({ s with permissionTxs := txs }.decide channel decision).cancelSignal =
          s.cancelSignal := by
    unfold decide
    split <;> exact ⟨⟨rfl, rfl, rfl⟩, rfl⟩
  unfold decidePermission
  split
  · exact hdecide _ _
  · split
    · exact hdecide _ _
    · exact ⟨⟨rfl, rfl, rfl⟩, rfl⟩

/-- Taking an event leaves the rest in place. -/
theorem pollEvent_spec (s : Session σ) :
    s.pollEvent.2.commands = s.commands ∧ s.pollEvent.2.worker = s.worker ∧
      s.pollEvent.2.cancelSignal = s.cancelSignal ∧
      s.ends = s.pollEvent.1.toList.filter endsTurn ++ s.pollEvent.2.ends := by
  have hack := spares_ackIfAwaiting s
  have hsignal := cancelSignal_ackIfAwaiting s
  unfold pollEvent
  split <;> rename_i hevents
  · refine ⟨hack.commands, hack.worker, hsignal, ?_⟩
    change _ = [] ++ s.ackIfAwaiting.ends
    rw [List.nil_append, ends, ends, hack.events, hack.worker]
  · rename_i event rest
    refine ⟨hack.commands, hack.worker, hsignal, ?_⟩
    change (s.events ++ s.worker.ends).filter endsTurn =
      [event].filter endsTurn ++ (rest ++ s.ackIfAwaiting.worker.ends).filter endsTurn
    rw [← List.filter_append, ← hack.events, hevents, hack.worker]
    rfl

end Session

end Session

/-! ## The supervisor among its calls -/

section Supervisor

variable {v : ThreadRuntimeSupervisor}

/-- A cancel that gets to the harness is what the supervisor is at from then on; any
other changes nothing. -/
theorem cancelled_eq (v : ThreadRuntimeSupervisor) (intent : Except CheckpointError Unit) :
    (cancelReaches v intent = true ∧ (v.cancelled intent (.ok ())).state.activeWork ≠ none ∧
        (v.cancelled intent (.ok ())).state.isCancelling = true) ∨
      (cancelReaches v intent = false ∧ v.cancelled intent (.ok ()) = v) := by
  unfold cancelReaches ThreadRuntimeSupervisor.cancelled
  cases hstate : v.state with
  | prompting turnId operationId delivery =>
    dsimp only
    split
    · rename_i hreaches
      exact .inl ⟨by simp [hreaches.1, hreaches.2.1, hreaches.2.2.1], nofun, rfl⟩
    · rename_i hnot
      refine .inr ⟨?_, rfl⟩
      rw [Bool.eq_false_iff]
      simpa [Except.isOk, Except.toBool, and_assoc] using hnot
  | awaitingPermission turnId operationId pending =>
    dsimp only
    split
    · rename_i hreaches
      exact .inl ⟨by simp [hreaches.1, hreaches.2.1, hreaches.2.2.1], nofun, rfl⟩
    · rename_i hnot
      refine .inr ⟨?_, rfl⟩
      rw [Bool.eq_false_iff]
      simpa [Except.isOk, Except.toBool, and_assoc] using hnot
  | idle | starting | ready | cancelling | closed | crashed =>
    exact .inr ⟨by simp, rfl⟩

/-- A cancel that is answered got to the harness, or an earlier one did, or there is no
turn. -/
theorem cases_of_cancelAnswer {intent : Except CheckpointError Unit}
    (h : (cancelAnswer v intent (.ok ())).isOk = true) :
    cancelReaches v intent = true ∨ v.state.isCancelling = true ∨ v.state.activeWork = none := by
  unfold cancelAnswer at h
  cases hcapability : v.checkCapability "session.cancel" with
  | error err => simp [hcapability, bind, Except.bind, Except.isOk, Except.toBool] at h
  | ok _ =>
    simp only [hcapability, bind, Except.bind] at h
    unfold cancelReaches
    rw [hcapability]
    cases hstate : v.state with
    | cancelling turnId operationId => exact .inr (.inl rfl)
    | prompting turnId operationId delivery =>
      refine .inl ?_
      rw [hstate] at h
      rcases hsession : v.sessionId with _ | sessionId <;> rcases intent with err | _ <;>
        simp_all [Except.isOk, Except.toBool, throw, throwThe, MonadExceptOf.throw]
    | awaitingPermission turnId operationId pending =>
      refine .inl ?_
      rw [hstate] at h
      rcases hsession : v.sessionId with _ | sessionId <;> rcases intent with err | _ <;>
        simp_all [Except.isOk, Except.toBool, throw, throwThe, MonadExceptOf.throw]
    | idle | starting | ready | closed | crashed => exact .inr (.inr rfl)

theorem state_decided (permissionId : EventId) (intent : Except CheckpointError Unit)
    (sent : Except HarnessError Unit) (settled : Except CheckpointError Unit) :
    (v.decided permissionId intent sent settled).state = v.state ∨
      v.state.activeWork ≠ none ∧ v.state.isCancelling = false ∧
        (v.decided permissionId intent sent settled).state.activeWork ≠ none ∧
        (v.decided permissionId intent sent settled).state.isCancelling = false := by
  unfold ThreadRuntimeSupervisor.decided
  split
  · rename_i turnId operationId pending hstate
    split
    · rw [hstate]
      exact .inr ⟨nofun, rfl, nofun, rfl⟩
    · exact .inl rfl
  · exact .inl rfl

variable [SerdeJson]

/-- An event that ends no turn leaves the supervisor at its work. -/
theorem afterEvent_goesOn {event : HarnessEvent} (h : endsTurn event = false)
    (settled : Except CheckpointError Unit) :
    (v.afterEvent event settled).state = v.state ∨
      v.state.activeWork ≠ none ∧ v.state.isCancelling = false ∧
        (v.afterEvent event settled).state.activeWork ≠ none ∧
        (v.afterEvent event settled).state.isCancelling = false := by
  cases event with
  | started | messageDelta | toolCall | rawUnknown => exact .inl rfl
  | permissionRequest eventId kind description =>
    unfold ThreadRuntimeSupervisor.afterEvent
    dsimp only
    split
    · rename_i turnId operationId delivery hstate
      rw [hstate]
      exact .inr ⟨nofun, rfl, nofun, rfl⟩
    · exact .inl rfl
  | completed | cancelled | failed | processExited => cases h

omit [SerdeJson] in
/-- A turn that ends leaves the supervisor as it was, or where the turn led it. -/
theorem state_afterTurn (state : TurnState) (delivery : DeliveryState) (next : SupervisorState)
    (settled : Except CheckpointError Unit) :
    v.afterTurn state delivery next settled = v ∨
      (v.afterTurn state delivery next settled).state = next := by
  unfold ThreadRuntimeSupervisor.afterTurn
  split
  · exact .inr rfl
  · exact .inl rfl

/-- An event that ends a turn is no cancel, and leaves a supervisor ready only if
nothing follows it. -/
theorem afterEvent_ends {event : HarnessEvent} {rest : List HarnessEvent}
    (h : Remaining (event :: rest)) (settled : Except CheckpointError Unit) :
    ((v.afterEvent event settled).state.isCancelling = true → v.state.isCancelling = true) ∧
      ((v.afterEvent event settled).state = .ready → v.state = .ready ∨ rest = []) := by
  cases h with
  | completed =>
    rcases state_afterTurn (v := v) .completed .confirmed .ready settled with heq | heq
    · exact ⟨fun hc => heq ▸ hc, fun _ => .inr rfl⟩
    · exact ⟨fun hc => absurd (heq ▸ hc : SupervisorState.ready.isCancelling = true) nofun,
        fun _ => .inr rfl⟩
  | cancelled =>
    rcases state_afterTurn (v := v) .cancelled .confirmed .ready settled with heq | heq
    · exact ⟨fun hc => heq ▸ hc, fun _ => .inr rfl⟩
    · exact ⟨fun hc => absurd (heq ▸ hc : SupervisorState.ready.isCancelling = true) nofun,
        fun _ => .inr rfl⟩
  | failed error =>
    rcases state_afterTurn (v := v) .failed .indeterminate
      (.crashed error .indeterminate) settled with heq | heq
    · exact ⟨fun hc => heq ▸ hc, fun hready => .inl (heq ▸ hready)⟩
    · refine ⟨fun hc => ?_, fun hready => ?_⟩
      · exact absurd (heq ▸ hc :
          (SupervisorState.crashed error .indeterminate).isCancelling = true) nofun
      · exact absurd (heq.symm.trans hready) nofun
  | exited =>
    unfold ThreadRuntimeSupervisor.afterEvent
    cases hstate : v.state <;> simp_all [ThreadRuntimeSupervisor.endTurn,
      SupervisorState.isCancelling]

end Supervisor

/-! ## The thread -/

section Thread

variable [SerdeJsonWriter] {σ : Type}

namespace Desk

variable {s : Desk σ}

/-- The commands on their way are in the order of the client. -/
structure Ordered (s : Desk σ) : Prop where
  inbox : s.inbox.Pairwise fun c c' =>
    ∀ after turn, c = .cancelTurn after → c' = .startTurn turn → after < turn.number
  control : ∀ after ∈ s.control, ∀ turn, .startTurn turn ∈ s.inbox → after < turn.number
  acknowledged : ∀ after ∈ s.acknowledged, ∀ turn : StartTurn,
    turn ∈ s.normal ∨ .startTurn turn ∈ s.inbox → after < turn.number
  sent : ∀ after, .cancelTurn after ∈ s.inbox ∨ after ∈ s.control ∨ after ∈ s.acknowledged →
    after ≤ s.sent

/-- The supervisor knows of the prompt the worker has, and a cancel of it stands. -/
structure Paired (s : Desk σ) : Prop where
  single : s.session.Single
  numbers : s.queued.length = s.session.commands.length
  inactive : s.supervisor.state.activeWork = none → s.session.Quiet
  ready : s.supervisor.state = .ready → s.session.ends = []
  signal : s.supervisor.state.isCancelling = true → s.session.cancelSignal = true
  covered : ∀ after ∈ s.acknowledged, ∀ number ≤ after, s.Outstanding number →
    s.supervisor.state.isCancelling = true

theorem Paired.kept (h : s.Paired) : s.Kept :=
  fun after hafter number hle hout => h.signal (h.covered after hafter number hle hout)

/-- Without a prompt there is none outstanding. -/
theorem not_outstanding (hnumbers : s.queued.length = s.session.commands.length)
    (hquiet : s.session.Quiet) (number : Nat) : ¬ s.Outstanding number := by
  rintro (hqueued | ⟨-, hrunning⟩)
  · rw [hquiet.commands] at hnumbers
    rw [List.length_eq_zero_iff.1 hnumbers] at hqueued
    cases hqueued
  · exact hrunning hquiet.running

/-- An event that ends a turn is only there when no prompt is. -/
theorem quiet_of_ends {session : Session σ} (h : session.Single) (hends : session.ends ≠ []) :
    session.Quiet := by
  constructor
  · by_contra hwaiting
    exact hends (h.waiting hwaiting).2
  · by_contra hrunning
    exact hends (h.running hrunning).2

/-! ## One step -/

theorem ordered_startTurn (h : s.Ordered) (turn : StartTurn) (hnumber : turn.number = s.sent + 1) :
    Ordered { s with inbox := s.inbox ++ [.startTurn turn], sent := s.sent + 1 } := by
  have hlater : ∀ after, after ≤ s.sent → after < turn.number := by
    intro after hafter
    omega
  constructor
  · refine List.pairwise_append.2 ⟨h.inbox, List.pairwise_singleton _ _, ?_⟩
    rintro c hc c' hc' after t rfl rfl
    cases List.mem_singleton.1 hc'
    exact hlater after (h.sent after (.inl hc))
  · intro after hafter t ht
    rcases List.mem_append.1 ht with ht | ht
    · exact h.control after hafter t ht
    · cases List.mem_singleton.1 ht
      exact hlater after (h.sent after (.inr (.inl hafter)))
  · rintro after hafter t (ht | ht)
    · exact h.acknowledged after hafter t (.inl ht)
    · rcases List.mem_append.1 ht with ht | ht
      · exact h.acknowledged after hafter t (.inr ht)
      · cases List.mem_singleton.1 ht
        exact hlater after (h.sent after (.inr (.inr hafter)))
  · rintro after (hafter | hafter)
    · rcases List.mem_append.1 hafter with hafter | hafter
      · exact Nat.le_succ_of_le (h.sent after (.inl hafter))
      · cases List.mem_singleton.1 hafter
    · exact Nat.le_succ_of_le (h.sent after (.inr hafter))

theorem ordered_cancelTurn (h : s.Ordered) :
    Ordered { s with inbox := s.inbox ++ [.cancelTurn s.sent] } := by
  have hstart {turn : StartTurn} (hmem : .startTurn turn ∈ s.inbox ++ [.cancelTurn s.sent]) :
      .startTurn turn ∈ s.inbox := by
    rcases List.mem_append.1 hmem with hmem | hmem
    · exact hmem
    · cases List.mem_singleton.1 hmem
  constructor
  · refine List.pairwise_append.2 ⟨h.inbox, List.pairwise_singleton _ _, ?_⟩
    rintro c hc c' hc' after t rfl rfl
    cases List.mem_singleton.1 hc'
  · exact fun after hafter t ht => h.control after hafter t (hstart ht)
  · exact fun after hafter t ht => h.acknowledged after hafter t (ht.imp_right hstart)
  · rintro after (hafter | hafter)
    · rcases List.mem_append.1 hafter with hafter | hafter
      · exact h.sent after (.inl hafter)
      · cases List.mem_singleton.1 hafter
        exact Nat.le_refl _
    · exact h.sent after (.inr hafter)

theorem ordered_read (h : s.Ordered) (frames : Nat) : (s.read frames).Ordered := by
  unfold read
  split
  · have hsplit := h.inbox
    rw [← List.take_append_drop frames s.inbox] at hsplit
    obtain ⟨-, hrest, hacross⟩ := List.pairwise_append.1 hsplit
    constructor
    · exact hrest
    · intro after hafter turn hturn
      exact hacross _ (mem_cancelTurns.1 hafter) _ hturn after turn rfl rfl
    · rintro after hafter turn (hturn | hturn)
      · exact h.acknowledged after hafter turn
          (.inr (List.mem_of_mem_take (mem_startTurns.1 hturn)))
      · exact h.acknowledged after hafter turn (.inr (List.mem_of_mem_drop hturn))
    · rintro after (hafter | hafter | hafter)
      · exact h.sent after (.inl (List.mem_of_mem_drop hafter))
      · exact h.sent after (.inl (List.mem_of_mem_take (mem_cancelTurns.1 hafter)))
      · exact h.sent after (.inr (.inr hafter))
  · exact h

theorem ordered_executeControl (h : s.Ordered)
    (hguard : ∀ after, s.control.head? = some after → ∀ turn ∈ s.normal, after < turn.number)
    (intent : Except CheckpointError Unit) : (s.executeControl intent).Ordered := by
  unfold executeControl
  split
  · exact h
  · rename_i after rest hcontrol
    have hhead : after ∈ s.control := by rw [hcontrol]; exact List.mem_cons_self
    have hrest {other : Nat} (hmem : other ∈ rest) : other ∈ s.control := by
      rw [hcontrol]
      exact List.mem_cons_of_mem _ hmem
    have hacknowledged {other : Nat} (hmem : other ∈
        if (cancelAnswer s.supervisor intent (.ok ())).isOk then s.acknowledged ++ [after]
        else s.acknowledged) : other ∈ s.acknowledged ∨ other = after := by
      split at hmem
      · exact (List.mem_append.1 hmem).imp_right List.mem_singleton.1
      · exact .inl hmem
    constructor
    · exact h.inbox
    · exact fun other hother => h.control other (hrest hother)
    · intro other hother turn hturn
      rcases hacknowledged hother with hother | rfl
      · exact h.acknowledged other hother turn hturn
      · rcases hturn with hturn | hturn
        · exact hguard other (by rw [hcontrol]; rfl) turn hturn
        · exact h.control other hhead turn hturn
    · rintro other (hother | hother | hother)
      · exact h.sent other (.inl hother)
      · exact h.sent other (.inr (.inl (hrest hother)))
      · rcases hacknowledged hother with hother | rfl
        · exact h.sent other (.inr (.inr hother))
        · exact h.sent other (.inr (.inl hhead))

/-- Only the client, the daemon and the answers to cancels touch the commands. -/
theorem Ordered.of_eq (h : s.Ordered) {s' : Desk σ} (hinbox : s'.inbox = s.inbox)
    (hcontrol : s'.control = s.control) (hnormal : ∀ turn ∈ s'.normal, turn ∈ s.normal)
    (hacknowledged : s'.acknowledged = s.acknowledged) (hsent : s'.sent = s.sent) :
    s'.Ordered := by
  constructor
  · rw [hinbox]
    exact h.inbox
  · rw [hcontrol, hinbox]
    exact h.control
  · rw [hacknowledged, hinbox]
    exact fun after hafter turn hturn =>
      h.acknowledged after hafter turn (hturn.imp_left (hnormal turn))
  · rw [hacknowledged, hcontrol, hinbox, hsent]
    exact h.sent

/-- The supervisor stays at its work or changes it, and the session keeps its
prompts. -/
theorem Paired.goesOn (h : s.Paired) {s' : Desk σ} (hsingle : s'.session.Single)
    (hcommands : s'.session.commands = s.session.commands)
    (hworker : s'.session.worker = s.session.worker) (hends : s'.session.ends = s.session.ends)
    (hsignal : s'.session.cancelSignal = s.session.cancelSignal)
    (hqueued : s'.queued = s.queued) (hcurrent : s'.current = s.current)
    (hacknowledged : s'.acknowledged = s.acknowledged)
    (hstate : s'.supervisor.state = s.supervisor.state ∨
      s.supervisor.state.activeWork ≠ none ∧ s.supervisor.state.isCancelling = false ∧
        s'.supervisor.state.activeWork ≠ none ∧ s'.supervisor.state.isCancelling = false) :
    s'.Paired := by
  have hout {number : Nat} (hnumber : s'.Outstanding number) : s.Outstanding number := by
    unfold Outstanding at hnumber
    rwa [hqueued, hcurrent, hworker] at hnumber
  have hcancelling : s'.supervisor.state.isCancelling = s.supervisor.state.isCancelling := by
    rcases hstate with heq | ⟨-, hno, -, hno'⟩
    · rw [heq]
    · rw [hno, hno']
  have hquiet (hs : s.session.Quiet) : s'.session.Quiet :=
    ⟨hcommands.trans hs.commands, (congrArg _ hworker).trans hs.running⟩
  constructor
  · exact hsingle
  · rw [hqueued, hcommands]
    exact h.numbers
  · intro hnone
    rcases hstate with heq | ⟨-, -, hwork, -⟩
    · exact hquiet (h.inactive (heq ▸ hnone))
    · exact absurd hnone hwork
  · intro hready
    rw [hends]
    rcases hstate with heq | ⟨-, -, hwork, -⟩
    · exact h.ready (heq.symm.trans hready)
    · exact absurd (congrArg SupervisorState.activeWork hready) hwork
  · rw [hcancelling, hsignal]
    exact h.signal
  · rw [hacknowledged, hcancelling]
    exact fun after hafter number hle hnumber => h.covered after hafter number hle (hout hnumber)

theorem paired_executeControl (h : s.Paired) (intent : Except CheckpointError Unit) :
    (s.executeControl intent).Paired := by
  unfold executeControl
  split
  · exact h
  · rename_i after rest hcontrol
    have hcases {other : Nat} (hmem : other ∈
        if (cancelAnswer s.supervisor intent (.ok ())).isOk then s.acknowledged ++ [after]
        else s.acknowledged) :
        other ∈ s.acknowledged ∨ (cancelAnswer s.supervisor intent (.ok ())).isOk = true := by
      split at hmem
      · exact .inr ‹_›
      · exact .inl hmem
    rcases cancelled_eq s.supervisor intent with ⟨hreaches, hwork, hcancelling⟩ | ⟨hnot, hsame⟩
    · have hspares := Session.spares_cancelTurn s.session
      have hsingle := hspares.single h.single
      rw [hreaches]
      constructor
      · exact hsingle
      · exact h.numbers.trans (congrArg List.length hspares.commands.symm)
      · intro hnone
        exact absurd hnone hwork
      · intro hready
        exact absurd (congrArg SupervisorState.isCancelling hready) (by rw [hcancelling]; nofun)
      · exact fun _ => Session.cancelSignal_ackIfAwaiting _
      · exact fun _ _ _ _ _ => hcancelling
    · rw [hnot, hsame]
      constructor
      · exact h.single
      · exact h.numbers
      · exact h.inactive
      · exact h.ready
      · exact h.signal
      · intro other hother number hle hout
        rcases hcases hother with hother | hok
        · exact h.covered other hother number hle hout
        · rcases cases_of_cancelAnswer hok with hreaches | hcancelling | hnone
          · rw [hnot] at hreaches
            cases hreaches
          · exact hcancelling
          · exact absurd hout (not_outstanding h.numbers (h.inactive hnone) number)

/-- A prompt gets a session that is at rest its only prompt. -/
theorem single_push {session : Session σ} (hs : session.Single) (hquiet : session.Quiet)
    (hends : session.ends = []) (request : HarnessPromptRequest) :
    (session.push (.prompt request)).Single := by
  have hcommands : (session.push (.prompt request)).commands = [.prompt request] :=
    congrArg (· ++ [WorkerCommand.prompt request]) hquiet.commands
  constructor
  · rw [hcommands]
    rintro command hcommand rfl
    cases List.mem_singleton.1 hcommand
  · rw [hcommands]
    exact Nat.le_refl 1
  · exact fun _ => ⟨hquiet.running, hends⟩
  · exact fun hrunning => absurd hquiet.running hrunning
  · exact hs.remaining

section Prompt

variable [ErrorText]

variable {intent settled : Except CheckpointError Unit}

omit [SerdeJsonWriter] in
/-- A prompt that is not sent leaves the supervisor where it was. -/
theorem state_prompted_of_not {v : ThreadRuntimeSupervisor} {operationId : OperationId}
    {turnId : TurnId} (h : ¬ (v.admits operationId turnId && intent.isOk) = true) :
    (v.prompted operationId turnId intent (.ok ()) settled).2.state = v.state := by
  cases hadmits : v.admits operationId turnId with
  | false => rw [ThreadRuntimeSupervisor.prompted_of_not_admits hadmits]
  | true =>
    rw [ThreadRuntimeSupervisor.prompted_of_admits hadmits]
    cases intent with
    | error err => rfl
    | ok _ => exact absurd (by rw [hadmits]; rfl) h

theorem paired_prompt (h : s.Paired) (turn : StartTurn)
    (hfresh : ∀ after ∈ s.acknowledged, after < turn.number)
    (hsettled : s.supervisor.admits turn.operationId turn.turnId = true → intent.isOk = true →
      settled.isOk = true) : (s.prompt turn intent settled).Paired := by
  unfold prompt
  split
  · rename_i hsends
    obtain ⟨hadmits, hintent⟩ := Bool.and_eq_true_iff.1 hsends
    obtain ⟨hready, -⟩ := ThreadRuntimeSupervisor.ready_of_admits hadmits
    have hquiet : s.session.Quiet := h.inactive (by rw [hready]; rfl)
    have hspares := Session.spares_ackIfAwaiting s.session
    have hsingle := hspares.single h.single
    have hquiet' : s.session.ackIfAwaiting.Quiet :=
      ⟨hspares.commands.trans hquiet.commands, (congrArg _ hspares.worker).trans hquiet.running⟩
    have hends : s.session.ackIfAwaiting.ends = [] := hspares.ends.trans (h.ready hready)
    have hqueued : s.queued = [] := by
      have hlength := h.numbers
      rw [hquiet.commands] at hlength
      exact List.length_eq_zero_iff.1 hlength
    rw [ThreadRuntimeSupervisor.prompted_of_admits hadmits]
    cases intent with
    | error err => cases hintent
    | ok _ =>
      cases settled with
      | error err => cases hsettled hadmits rfl
      | ok _ =>
        unfold Session.sendPrompt
        split <;> rename_i heq <;> split at heq <;> cases heq
        · -- the worker takes commands
          dsimp only
          refine ⟨single_push hsingle hquiet' hends _, ?_, nofun, nofun, nofun, ?_⟩
          · change (s.queued ++ [turn.number]).length = (s.session.ackIfAwaiting.commands ++
              [WorkerCommand.prompt _]).length
            rw [hqueued, hquiet'.commands]
            rfl
          · rintro after hafter number hle (hnumber | ⟨-, hrunning⟩)
            · change number ∈ s.queued ++ [turn.number] at hnumber
              rw [hqueued] at hnumber
              cases List.mem_singleton.1 hnumber
              exact absurd (hfresh after hafter) (Nat.not_lt.2 hle)
            · exact absurd hquiet'.running hrunning
        · have hnumbers : s.queued.length = s.session.ackIfAwaiting.commands.length :=
            h.numbers.trans (congrArg List.length hspares.commands.symm)
          rw [ThreadRuntimeSupervisor.prompted_of_admits hadmits]
          refine ⟨hsingle, hnumbers, fun _ => hquiet', nofun, nofun, ?_⟩
          exact fun after _ number _ hout => absurd hout
            (not_outstanding (s := { s with session := s.session.ackIfAwaiting }) hnumbers
              hquiet' number)
  · rename_i hnot
    exact h.goesOn h.single rfl rfl rfl rfl rfl rfl rfl (.inl (state_prompted_of_not hnot))

theorem paired_executeNormal (h : s.Paired) (hordered : s.Ordered) {passes : Bool}
    (hguard : s.Timely (.normal passes intent settled)) :
    (s.executeNormal passes intent settled).Paired := by
  unfold executeNormal
  split
  · rename_i turn rest hcontrol hnormal
    have hnext : Paired { s with normal := rest } :=
      ⟨h.single, h.numbers, h.inactive, h.ready, h.signal, h.covered⟩
    split
    · rename_i hpasses
      refine paired_prompt hnext turn (fun after hafter => ?_)
        (hguard turn hcontrol (by rw [hnormal]; rfl) hpasses)
      exact hordered.acknowledged after hafter turn
        (.inl (by rw [hnormal]; exact List.mem_cons_self))
    · exact hnext
  · exact h

theorem ordered_prompt (h : s.Ordered) (turn : StartTurn)
    (intent settled : Except CheckpointError Unit) : (s.prompt turn intent settled).Ordered := by
  unfold prompt
  split
  · split <;> exact h.of_eq rfl rfl (fun _ hturn => hturn) rfl rfl
  · exact h.of_eq rfl rfl (fun _ hturn => hturn) rfl rfl

theorem ordered_executeNormal (h : s.Ordered) (passes : Bool)
    (intent settled : Except CheckpointError Unit) :
    (s.executeNormal passes intent settled).Ordered := by
  unfold executeNormal
  split
  · rename_i turn rest hcontrol hnormal
    have hnext : Ordered { s with normal := rest } :=
      h.of_eq rfl rfl (fun _ hturn => by rw [hnormal]; exact List.mem_cons_of_mem _ hturn) rfl rfl
    split
    · exact ordered_prompt hnext turn intent settled
    · exact hnext
  · exact h

end Prompt

theorem single_pollEvent {session : Session σ} (h : session.Single) :
    session.pollEvent.2.Single := by
  obtain ⟨hcommands, hworker, -, hends⟩ := Session.pollEvent_spec session
  have hnil : session.ends = [] → session.pollEvent.2.ends = [] := by
    intro hnone
    rw [hends] at hnone
    exact (List.append_eq_nil_iff.1 hnone).2
  constructor
  · rw [hcommands]
    exact h.prompts
  · rw [hcommands]
    exact h.one
  · rw [hcommands, hworker]
    exact fun hwaiting => ⟨(h.waiting hwaiting).1, hnil (h.waiting hwaiting).2⟩
  · rw [hworker]
    exact fun hrunning => ⟨(h.running hrunning).1, hnil (h.running hrunning).2⟩
  · have hremaining := h.remaining
    rw [hends] at hremaining
    cases hanswer : session.pollEvent.1 with
    | none =>
      rw [hanswer] at hremaining
      exact hremaining
    | some event =>
      rw [hanswer, Option.toList_some] at hremaining
      cases hevent : endsTurn event with
      | false =>
        rw [List.filter_cons_of_neg (by rw [hevent]; nofun)] at hremaining
        exact hremaining
      | true =>
        rw [List.filter_cons_of_pos hevent] at hremaining
        exact hremaining.tail

theorem paired_pollStream (h : s.Paired) (settled : Except CheckpointError Unit) :
    (s.pollStream settled).Paired := by
  unfold pollStream
  split
  · exact h
  · rename_i sessionId hsession
    obtain ⟨hcommands, hworker, hsignal, hends⟩ := Session.pollEvent_spec s.session
    have hsingle := single_pollEvent h.single
    unfold ThreadRuntimeSupervisor.polled
    rw [hsession]
    cases hanswer : s.session.pollEvent.1 with
    | none =>
      rw [hanswer] at hends
      exact h.goesOn hsingle hcommands hworker hends.symm hsignal rfl rfl rfl (.inl rfl)
    | some event =>
      rw [hanswer] at hends
      cases hevent : endsTurn event with
      | false =>
        have hsame : s.session.ends = s.session.pollEvent.2.ends := by
          rw [hends, Option.toList_some, List.filter_cons_of_neg (by rw [hevent]; nofun)]
          rfl
        exact h.goesOn hsingle hcommands hworker hsame.symm hsignal rfl rfl rfl
          (afterEvent_goesOn hevent settled)
      | true =>
        -- the prompt is done, so none is outstanding
        have hcons : s.session.ends = event :: s.session.pollEvent.2.ends := by
          rw [hends, Option.toList_some, List.filter_cons_of_pos hevent]
          rfl
        have hquiet : s.session.Quiet :=
          quiet_of_ends h.single (by rw [hcons]; exact List.cons_ne_nil _ _)
        have hquiet' : s.session.pollEvent.2.Quiet :=
          ⟨hcommands.trans hquiet.commands, (congrArg _ hworker).trans hquiet.running⟩
        have hremaining := h.single.remaining
        rw [hcons] at hremaining
        obtain ⟨hcancelling, hready⟩ :=
          afterEvent_ends (v := s.supervisor) hremaining settled
        have hnumbers : s.queued.length = s.session.pollEvent.2.commands.length :=
          h.numbers.trans (congrArg List.length hcommands.symm)
        refine ⟨hsingle, hnumbers, fun _ => hquiet', fun h' => ?_, fun h' => ?_, ?_⟩
        · rcases hready h' with hready | hrest
          · rw [h.ready hready] at hcons
            cases hcons
          · exact hrest
        · exact hsignal.trans (h.signal (hcancelling h'))
        · exact fun after _ number _ hout => absurd hout
            (not_outstanding (s := { s with session := s.session.pollEvent.2 }) hnumbers
              hquiet' number)

theorem paired_decidePermission (h : s.Paired) (eventId : EventId) (decision : PermissionDecision)
    (intent settled : Except CheckpointError Unit) :
    (s.decidePermission eventId decision intent settled).Paired := by
  unfold decidePermission
  split
  · obtain ⟨hspares, hsignal⟩ := Session.spares_decidePermission s.session eventId decision
    exact h.goesOn (hspares.single h.single) hspares.commands hspares.worker hspares.ends hsignal
      rfl rfl rfl (state_decided _ _ _ _)
  · exact h

section Step

variable [ErrorText] [AcpSerde] [DefaultHasher] [ProcessTransport σ]

omit [ErrorText] in
theorem paired_workerStep (h : s.Paired)
    (hguard : s.session.takesPrompt = true → s.supervisor.state.isCancelling = false) :
    s.workerStep.Paired := by
  unfold workerStep
  split
  · rename_i htakes
    obtain ⟨-, request, rest, hcommands⟩ := Session.takes_iff.1 htakes
    have hcancelling := hguard htakes
    have hwork : s.supervisor.state.activeWork ≠ none := by
      intro hnone
      rw [(h.inactive hnone).commands] at hcommands
      cases hcommands
    have htail : s.session.workerStep.commands = s.session.commands.tail := by
      rcases Session.workerStep_cases h.single with hcase | ⟨hrunning, -⟩ | ⟨hnot, -⟩
      · exact hcase.commands
      · exact absurd (h.single.waiting (by rw [hcommands]; exact List.cons_ne_nil _ _)).1 hrunning
      · exact absurd htakes (by rw [hnot]; exact Bool.false_ne_true)
    constructor
    · exact h.single.workerStep
    · change s.queued.tail.length = s.session.workerStep.commands.length
      rw [htail, List.length_tail, List.length_tail, h.numbers]
    · exact fun hnone => absurd hnone hwork
    · exact fun hready => absurd (congrArg SupervisorState.activeWork hready) hwork
    · exact fun h' => absurd h' (by rw [hcancelling]; exact Bool.false_ne_true)
    · intro after hafter number hle hout
      refine h.covered after hafter number hle (.inl ?_)
      rcases hout with hqueued | ⟨hcurrent, -⟩
      · exact List.mem_of_mem_tail hqueued
      · exact List.mem_of_head? hcurrent
  · rename_i hnot
    obtain ⟨hcommands, hsignal, hrunning, hends⟩ :=
      Session.workerStep_of_not_takes h.single (Bool.not_eq_true _ ▸ hnot)
    have hquiet (hs : s.session.Quiet) : s.session.workerStep.Quiet :=
      ⟨hcommands.trans hs.commands, by_contra fun hne => hrunning hne hs.running⟩
    constructor
    · exact h.single.workerStep
    · exact h.numbers.trans (congrArg List.length hcommands.symm)
    · exact fun hnone => hquiet (h.inactive hnone)
    · intro hready
      have hrest := (h.inactive (by rw [hready]; rfl)).running
      exact (hends hrest).trans (h.ready hready)
    · exact fun h' => hsignal.trans (h.signal h')
    · exact fun after hafter number hle hout =>
        h.covered after hafter number hle (hout.imp_right (And.imp_right hrunning))

theorem ordered_step (h : s.Ordered) (errand : Errand σ) (hguard : s.Timely errand) :
    (s.step errand).Ordered := by
  cases errand with
  | startTurn operationId turnId content => exact ordered_startTurn h _ rfl
  | cancelTurn => exact ordered_cancelTurn h
  | read frames => exact ordered_read h frames
  | control intent => exact ordered_executeControl h hguard intent
  | normal passes intent settled => exact ordered_executeNormal h passes intent settled
  | pollStream settled =>
    simp only [step, pollStream]
    split
    · exact h
    · exact h.of_eq rfl rfl (fun _ hturn => hturn) rfl rfl
  | decidePermission eventId decision intent settled =>
    simp only [step, decidePermission]
    split
    · exact h.of_eq rfl rfl (fun _ hturn => hturn) rfl rfl
    · exact h
  | worker =>
    simp only [step, workerStep]
    split <;> exact h.of_eq rfl rfl (fun _ hturn => hturn) rfl rfl
  | agent f => exact h.of_eq rfl rfl (fun _ hturn => hturn) rfl rfl

theorem paired_step (h : s.Paired) (hordered : s.Ordered) (errand : Errand σ)
    (hguard : s.Timely errand) : (s.step errand).Paired := by
  cases errand with
  | startTurn operationId turnId content =>
    exact ⟨h.single, h.numbers, h.inactive, h.ready, h.signal, h.covered⟩
  | cancelTurn => exact ⟨h.single, h.numbers, h.inactive, h.ready, h.signal, h.covered⟩
  | read frames =>
    simp only [step, read]
    split
    · exact ⟨h.single, h.numbers, h.inactive, h.ready, h.signal, h.covered⟩
    · exact h
  | control intent => exact paired_executeControl h intent
  | normal passes intent settled => exact paired_executeNormal h hordered hguard
  | pollStream settled => exact paired_pollStream h settled
  | decidePermission eventId decision intent settled =>
    exact paired_decidePermission h eventId decision intent settled
  | worker => exact paired_workerStep h hguard
  | agent f =>
    exact h.goesOn ⟨h.single.prompts, h.single.one, h.single.waiting, h.single.running,
      h.single.remaining⟩ rfl rfl rfl rfl rfl rfl rfl (.inl rfl)

/-- **Cancels.** In every run whose steps are all timely, a cancel that was answered
keeps the signal raised until the prompts it was sent after are done. -/
theorem cancels_kept (threadId : ThreadId) (info : HarnessSessionInfo) (runtime : AcpRuntime)
    (peer : σ) (errands : List (Errand σ))
    (h : (machine threadId info runtime peer).Meets Timely
      (machine threadId info runtime peer).init errands) :
    ((machine threadId info runtime peer).run errands).Kept := by
  refine ((machine threadId info runtime peer).invariant_of_meets
    (I := fun s => s.Ordered ∧ s.Paired)
    (fun s errand hs hguard => ⟨ordered_step hs.1 errand hguard,
      paired_step hs.2 hs.1 errand hguard⟩) ⟨?_, ?_⟩ h).2.kept
  · exact ⟨.nil, nofun, nofun, fun _ hafter => by
      rcases hafter with hafter | hafter | hafter <;> cases hafter⟩
  · exact ⟨⟨nofun, Nat.zero_le 1, fun hwaiting => absurd rfl hwaiting,
      fun hrunning => absurd rfl hrunning, .nothing⟩, rfl, fun _ => ⟨rfl, rfl⟩, fun _ => rfl,
      nofun, nofun⟩

end Step

end Desk

end Thread

section Sample

attribute [local instance] flatWriter plainText linearHasher plainSerde

/-- A turn and its cancel; `early` steps of the worker come before the cancel is
executed. -/
def turnAndCancel (early : Nat) : List (Errand Scripted) :=
  [.startTurn ⟨"op_cancelled000000001", by decide⟩ ⟨"trn_cancelled00000001", by decide⟩ "hello",
    .read 1, .normal true (.ok ()) (.ok ()), .cancelTurn] ++
    List.replicate early .worker ++ [.read 1, .control (.ok ()), .worker]

/-- The thread of the sample runs. -/
def cancelledMachine : Machine (Desk Scripted) (Errand Scripted) :=
  Desk.machine ⟨"thr_cancelled00000001", by decide⟩ openedInfo sampleRuntime ⟨[], [], [], [], []⟩

theorem cancels_kept_taken :
    (cancelledMachine.run (turnAndCancel 1)).acknowledged = [1] ∧
      (cancelledMachine.run (turnAndCancel 1)).Outstanding 1 ∧
      (cancelledMachine.run (turnAndCancel 1)).Kept := by
  refine ⟨by decide, .inr ⟨by decide, by decide⟩,
    Desk.cancels_kept _ _ _ _ _ ?_⟩
  refine ⟨trivial, trivial, fun _ _ _ _ _ _ => rfl, trivial, fun _ => ?_, trivial,
    fun after _ turn hturn => ?_, fun htakes => ?_, trivial⟩
  · decide
  · exact absurd hturn (List.eq_nil_iff_forall_not_mem.1
      (List.length_eq_zero_iff.1 (by decide)) turn)
  · exact absurd htakes (by decide)

/-- The cancel is executed before the worker has taken the prompt, which resets the
signal. -/
theorem not_kept_untaken :
    ¬ ∀ (threadId : ThreadId) (info : HarnessSessionInfo) (runtime : AcpRuntime)
      (peer : Scripted) (errands : List (Errand Scripted)),
      ((Desk.machine threadId info runtime peer).run errands).Kept := by
  intro h
  have hkept : (cancelledMachine.run (turnAndCancel 0)).Kept := h _ _ _ _ _
  have hraised := hkept 1 (by decide) 1 (Nat.le_refl 1)
    (.inr ⟨by decide, by decide⟩)
  exact absurd hraised (by decide)

end Sample

end Altior.Acp
