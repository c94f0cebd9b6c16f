import Altior.Acp.Pending
import Altior.Acp.Script

/-!
# The adapter and a worker that wait for each other

One session with the adapter that holds it
(`altior-core/src/runtime/adapters/acp.rs`).  A call borrows the adapter until it
returns, so a call that waits for the worker, for room in the command channel or
for its end, holds up every other call.  The worker in turn waits for what only
other calls supply: that its event is taken, and that its request is decided.
-/

namespace Altior.Acp

open Domain Lib Altior.Runtime

/-! ## What the worker performs runs to its end -/

section Ends

variable {σ : Type}

theorem ends_reportPhase (f : AgentPhase → Except AcpError (List HostAction × AgentPhase)) :
    Proc.Ends (reportPhase f : Proc (Turn σ) AcpError (List HostAction)) :=
  .bind .get fun _ => .bind (.ofExcept _) fun _ => .bind (.modify _) fun _ => .pure _

theorem ends_reportDelivery (f : PromptDelivery → Except AcpError PromptDelivery) :
    Proc.Ends (reportDelivery f : Proc (Turn σ) AcpError Unit) :=
  .bind .get fun _ => .bind (.ofExcept _) fun _ => .modify _

theorem ends_connectionLost : Proc.Ends (connectionLost : Proc (Turn σ) AcpError Unit) :=
  .bind (.ignore (ends_reportDelivery _)) fun _ => .modify _

theorem ends_settlePrompt (id : RpcId)
    (verdict : PromptDelivery → Except AcpError PromptDelivery) :
    Proc.Ends (settlePrompt id verdict : Proc (Turn σ) AcpError Unit) :=
  .bind (.modify _) fun _ => .bind (ends_reportDelivery _) fun _ =>
    .bind (ends_reportPhase _) fun _ => .pure _

variable [AcpSerde] [ProcessTransport σ]

theorem ends_executeHostActions (sessionId : String) (actions : List HostAction) :
    Proc.Ends (executeHostActions sessionId actions : Proc (Turn σ) AcpError Unit) := by
  induction actions with
  | nil => exact .pure _
  | cons action rest ih =>
    refine .bind ?_ fun _ => ih
    cases action with
    | continue_ => exact .pure _
    | turnSettled => exact .pure _
    | sendCancelNotification => exact .act _
    | answerPermissionCancelled id => exact .act _
    | killAndReap => exact .act _

theorem ends_passCancel (sessionId : String) :
    Proc.Ends (passCancel sessionId : Proc (Turn σ) AcpError Unit) :=
  .bind (.bind (ends_reportPhase _) fun _ => ends_executeHostActions _ _) fun _ => .modify _

theorem ends_receive : Proc.Ends (receive : Proc (Turn σ) AcpError (Option RpcMessage)) := by
  refine .bind (.attempt (.act _)) fun r => ?_
  split
  · exact .bind ends_connectionLost fun _ => .fail _
  · exact .pure _
  · exact .bind ends_connectionLost fun _ => .fail _
  · split
    · exact .bind ends_connectionLost fun _ => .fail _
    · exact .pure _

theorem ends_answerCancelled (actions : List HostAction) :
    Proc.Ends (answerCancelled actions : Proc (Turn σ) AcpError Bool) := by
  induction actions with
  | nil => exact .pure _
  | cons action rest ih =>
    cases action with
    | continue_ => exact ih
    | turnSettled => exact ih
    | sendCancelNotification => exact ih
    | answerPermissionCancelled id => exact .bind (.act _) fun _ => .bind ih fun _ => .pure _
    | killAndReap => exact ih

theorem ends_dispatch (promptId : RpcId) (m : RpcMessage) :
    Proc.Ends (dispatch promptId m : Proc (Turn σ) AcpError Dispatched) := by
  unfold dispatch
  split
  · split
    · exact .bind (ends_settlePrompt _ _) fun _ => .bind (.ofExcept _) fun _ => .pure _
    · exact .pure _
  · split
    · exact .bind (ends_settlePrompt _ _) fun _ => .fail _
    · exact .pure _
  · split
    · exact .bind (ends_reportPhase _) fun _ => .bind (ends_answerCancelled _) fun _ => .pure _
    · exact .bind (.act _) fun _ => .pure _
  · exact .pure _

theorem ends_replyPermission (id : RpcId) (outcome : Option Json) :
    Proc.Ends (replyPermission id outcome : Proc (Turn σ) AcpError Unit) := by
  cases outcome with
  | none => exact .act _
  | some value => exact .act _

theorem ends_beginPrompt (prompt : List ContentBlock) :
    Proc.Ends (beginPrompt prompt : Proc (Turn σ) AcpError (String × RpcId)) := by
  refine .bind .get fun t => ?_
  split
  · exact .fail _
  · exact .bind (.modify _) fun _ => .bind (ends_reportDelivery _) fun _ =>
      .bind (.modify _) fun _ => .bind (.act _) fun _ => .pure _

end Ends

section Blocking

variable [SerdeJson] {σ : Type}

/-! ## The two parties -/

def WorkerAt.isStopped : WorkerAt → Bool
  | .stopped => true
  | _ => false

/-- Where the adapter stands. -/
inductive AdapterAt
  /-- No call is running. -/
  | free
  /-- Sends a command to the worker. -/
  | sending (command : WorkerCommand)
  /-- Waits for the worker to end. -/
  | joining
  /-- The session is closed. -/
  | closed
deriving DecidableEq

/-- A session and its adapter. -/
structure Parties (σ : Type) where
  session : Session σ
  adapter : AdapterAt

/-- A call on the session. -/
inductive Call
  | sendPrompt (request : HarnessPromptRequest)
  | cancelTurn
  | decidePermission (eventId : EventId) (decision : PermissionDecision)
  | pollEvent
  | closeSession

/-- What may happen next.  `resume` is the running call going on where it waits. -/
inductive Move (σ : Type)
  | call (call : Call)
  | resume
  | worker
  | agent (f : σ → σ)

/-- Where the adapter is after a command was sent. -/
def WorkerCommand.sent : WorkerCommand → AdapterAt
  | .prompt _ => .free
  | .close => .joining

namespace Parties

/-- Sends a command; a full channel makes the call wait, and one without a receiver
takes nothing. -/
def send (s : Parties σ) (command : WorkerCommand) : Parties σ :=
  if s.session.worker.isStopped then { s with adapter := command.sent }
  else if s.session.full then { s with adapter := .sending command }
  else { session := s.session.push command, adapter := command.sent }

/-- A call, from its beginning. -/
def call (s : Parties σ) : Call → Parties σ
  | .sendPrompt request => { s with session := s.session.ackIfAwaiting }.send (.prompt request)
  | .cancelTurn => { s with session := s.session.cancelTurn }
  | .decidePermission eventId decision =>
    { s with session := (s.session.decidePermission eventId decision).2 }
  | .pollEvent => { s with session := s.session.pollEvent.2 }
  | .closeSession => { s with session := s.session.beginClose }.send .close

section Step

variable [AcpSerde] [DefaultHasher] [ProcessTransport σ]

/-- One step of one of the parties, or of the agent. -/
def step (s : Parties σ) : Move σ → Parties σ
  | .call call =>
    match s.adapter with
    | .free => s.call call
    | _ => s
  | .resume =>
    match s.adapter with
    | .sending command => s.send command
    | .joining => if s.session.worker.isStopped then { s with adapter := .closed } else s
    | .free | .closed => s
  | .worker => { s with session := s.session.workerStep }
  | .agent f =>
    { s with session := { s.session with
        turn := { s.session.turn with peer := f s.session.turn.peer } } }

/-- The parties from the handshake on. -/
def machine (runtime : AcpRuntime) (peer : σ) : Machine (Parties σ) (Move σ) :=
  ⟨⟨.opened runtime peer, .free⟩, step⟩

end Step

end Parties

/-! ## Waiting -/

/-- The worker waits for the adapter, and nothing was sent yet. -/
def Session.waits (s : Session σ) : Bool :=
  match s.worker with
  | .awaitingAck _ _ _ => !s.ack
  | .awaitingDecision _ _ => s.decision.isNone
  | _ => false

/-- The next step of the worker takes it to where it waits for the adapter. -/
def Session.turnsWaiting (s : Session σ) : Bool :=
  match s.worker with
  | .reporting _ _ _ _ => s.events.length < channelBound && !s.ack
  | .requesting _ _ _ => s.events.length < channelBound && s.decision.isNone
  | _ => false

namespace Parties

/-- The adapter waits for the worker. -/
def blocked (s : Parties σ) : Bool :=
  match s.adapter with
  | .sending _ => !s.session.worker.isStopped && s.session.full
  | .joining => !s.session.worker.isStopped
  | .free | .closed => false

section Step

variable [AcpSerde] [DefaultHasher] [ProcessTransport σ]

/-- The adapter waits for the worker, and the worker waits for what no step
supplies, whatever happens next. -/
structure Deadlocked (s : Parties σ) : Prop where
  blocked : s.blocked
  forever : ∀ (runtime : AcpRuntime) (peer : σ) (moves : List (Move σ)),
    ((machine runtime peer).runFrom s moves).session.waits

/-- A command may be sent: the worker does not wait, or the call does not either. -/
def Admits (s : Parties σ) (command : WorkerCommand) : Prop :=
  s.session.waits → s.session.full = false ∧ command ≠ .close

/-- A call that may have to wait is made, and goes on, only when the worker does not
wait for the adapter; and while a call waits, the worker does not begin to. -/
def Orderly (s : Parties σ) : Move σ → Prop
  | .call (.sendPrompt request) =>
    s.adapter = .free → { s with session := s.session.ackIfAwaiting }.Admits (.prompt request)
  | .call .closeSession =>
    s.adapter = .free → { s with session := s.session.beginClose }.Admits .close
  | .call _ | .agent _ => True
  | .resume => ∀ command, s.adapter = .sending command → s.Admits command
  | .worker => s.blocked → s.session.turnsWaiting = false

end Step

end Parties

/-! ## When the worker begins to wait -/

namespace Session

variable {s : Session σ}

/-- A part of the prompt loop that is performed does not end where the worker waits. -/
theorem waits_perform {α : Type} {m : Proc (Turn σ) AcpError α} {k : α → Session σ → Session σ}
    (hm : m.Ends) (hk : ∀ a s, (k a s).waits = false) : (s.perform m k).waits = false := by
  unfold perform
  rcases hm.cases s.turn with ⟨a, t, hrun⟩ | ⟨e, t, hrun⟩
  · rw [hrun]
    exact hk a _
  · rw [hrun]
    rfl

variable [AcpSerde] [DefaultHasher] [ProcessTransport σ]

theorem workerStep_of_waits (h : s.waits) : s.workerStep = s := by
  unfold waits at h
  unfold workerStep
  split at h
  · rename_i hworker
    rw [hworker]
    exact if_neg (by simpa using h)
  · rename_i hworker
    rw [hworker]
    dsimp only
    rw [Option.isNone_iff_eq_none.1 h]
  · cases h

theorem waits_dispatch (p : Running) (m : RpcMessage) : (s.dispatch p m).waits = false := by
  refine waits_perform (ends_dispatch _ _) fun r s => ?_
  cases r with
  | settled stopReason => rfl
  | goOn => rfl
  | undecided id toolCallId => rfl

theorem waits_deliver (p : Running) (m : RpcMessage) (events : List NormalizedEvent) :
    (s.deliver p m events).waits = false := by
  induction events with
  | nil => exact waits_dispatch p m
  | cons event rest ih =>
    unfold deliver
    split
    · rfl
    · exact ih

omit [DefaultHasher] in
theorem waits_takeCommand (h : s.worker = .idle) : s.takeCommand.waits = false := by
  unfold takeCommand
  split
  · simp only [waits, h]
  · rfl
  · exact waits_perform (ends_beginPrompt _) fun _ _ => rfl

theorem waits_read (p : Running) : (s.read p).waits = false := by
  refine waits_perform ends_receive fun r s => ?_
  cases r with
  | none => rfl
  | some m => exact waits_perform (.ofExcept _) fun events s => waits_deliver p m events

/-- A worker that does not wait begins to where it sends what has to be answered. -/
theorem waits_workerStep (h : s.waits = false) : s.workerStep.waits = s.turnsWaiting := by
  unfold workerStep turnsWaiting
  cases hworker : s.worker with
  | idle => exact waits_takeCommand hworker
  | looping p =>
    change (s.checkSignal p).waits = false
    unfold checkSignal
    split
    · exact waits_perform (ends_passCancel _) fun _ _ => rfl
    · rfl
  | reading p => exact waits_read p
  | reporting p event rest m =>
    change (s.emit event _).waits = _
    unfold emit
    split <;> simp_all [waits]
  | awaitingAck p rest m =>
    change (if s.ack then _ else _ : Session σ).waits = false
    split
    · exact waits_deliver p m rest
    · exact h
  | requesting p id event =>
    change (s.emit event _).waits = _
    unfold emit
    split <;> simp_all [waits]
  | awaitingDecision p id =>
    dsimp only
    split
    · exact h
    · exact waits_perform (ends_replyPermission _ _) fun _ _ => rfl
  | ending events =>
    cases events with
    | nil => rfl
    | cons event rest =>
      change (s.emit event _).waits = false
      unfold emit
      split <;> simp_all [waits]
  | stopped => exact h

/-- Sending what has to be answered leaves the commands and the worker in place. -/
theorem workerStep_of_turnsWaiting (h : s.turnsWaiting) :
    s.workerStep.full = s.full ∧ s.workerStep.worker.isStopped = false ∧
      s.worker.isStopped = false := by
  unfold turnsWaiting at h
  unfold workerStep
  split at h <;> rename_i hworker
  · rw [hworker]
    have hroom : s.events.length < channelBound := of_decide_eq_true (Bool.and_eq_true_iff.1 h).1
    dsimp only
    rw [emit, if_pos hroom]
    exact ⟨rfl, rfl, rfl⟩
  · rw [hworker]
    have hroom : s.events.length < channelBound := of_decide_eq_true (Bool.and_eq_true_iff.1 h).1
    dsimp only
    rw [emit, if_pos hroom]
    exact ⟨rfl, rfl, rfl⟩
  · cases h

end Session

namespace Parties

variable {s : Parties σ}

/-- Neither party can go on. -/
def Stuck (s : Parties σ) : Prop := s.blocked ∧ s.session.waits

/-- Sending makes the parties stuck unless the command may be sent. -/
theorem stuck_send (command : WorkerCommand) : (s.send command).Stuck ↔ ¬ s.Admits command := by
  unfold send Stuck Admits
  cases hstopped : s.session.worker.isStopped with
  | true =>
    have hwaits : s.session.waits = false := by
      unfold WorkerAt.isStopped at hstopped
      split at hstopped
      · rename_i hworker
        simp only [Session.waits, hworker]
      · cases hstopped
    simp [hwaits]
  | false =>
    cases hfull : s.session.full with
    | true => simp [blocked, hstopped, hfull]
    | false =>
      cases command with
      | prompt request => simp [blocked, WorkerCommand.sent]
      | close =>
        have hpush : (s.session.push .close).waits = s.session.waits := rfl
        have hworker : (s.session.push .close).worker = s.session.worker := rfl
        simp [blocked, WorkerCommand.sent, hpush, hworker, hstopped]

theorem not_stuck_of_free (h : s.adapter = .free) : ¬ s.Stuck := by
  rintro ⟨hblocked, -⟩
  simp [blocked, h] at hblocked

variable [AcpSerde] [DefaultHasher] [ProcessTransport σ]

/-- Parties that are stuck stay so: no call can begin, the one that runs cannot go on,
and the worker gets nothing. -/
theorem Stuck.step (h : s.Stuck) (move : Move σ) : (s.step move).Stuck := by
  obtain ⟨hblocked, hwaits⟩ := h
  cases move with
  | call call =>
    simp only [Parties.step]
    split
    · exact absurd ⟨hblocked, hwaits⟩ (not_stuck_of_free ‹_›)
    · exact ⟨hblocked, hwaits⟩
  | resume =>
    simp only [Parties.step]
    split <;> rename_i hadapter
    · simp only [blocked, hadapter, Bool.and_eq_true, Bool.not_eq_true'] at hblocked
      refine (stuck_send _).2 fun hadmits => ?_
      rw [(hadmits hwaits).1] at hblocked
      cases hblocked.2
    · simp only [blocked, hadapter, Bool.not_eq_true'] at hblocked
      rw [hblocked]
      exact ⟨by simp [blocked, hadapter, hblocked], hwaits⟩
    · exact ⟨hblocked, hwaits⟩
    · exact ⟨hblocked, hwaits⟩
  | worker =>
    simp only [Parties.step, Session.workerStep_of_waits hwaits]
    exact ⟨hblocked, hwaits⟩
  | agent f => exact ⟨hblocked, hwaits⟩

theorem deadlocked_iff_stuck : s.Deadlocked ↔ s.Stuck := by
  constructor
  · intro h
    exact ⟨h.blocked, h.forever ⟨0, ∅, .ready, .notSent, none⟩ s.session.turn.peer []⟩
  · intro h
    refine ⟨h.1, fun runtime peer moves => ?_⟩
    exact ((machine runtime peer).invariant (I := Stuck) (fun _ move hs => hs.step move) h moves).2

/-- A worker that goes on makes the parties stuck iff it begins to wait while the
adapter waits for it. -/
theorem stuck_worker (h : ¬ s.Stuck) :
    (s.step .worker).Stuck ↔ s.blocked ∧ s.session.turnsWaiting := by
  have hstep : s.step .worker = { s with session := s.session.workerStep } := rfl
  cases hwaits : s.session.waits with
  | true =>
    have hturns : s.session.turnsWaiting = false := by
      unfold Session.waits at hwaits
      unfold Session.turnsWaiting
      cases hworker : s.session.worker <;> rw [hworker] at hwaits <;> simp_all
    rw [hstep, Session.workerStep_of_waits hwaits, hturns]
    simpa using h
  | false =>
    unfold Stuck
    rw [hstep]
    change _ ∧ s.session.workerStep.waits = true ↔ _
    rw [Session.waits_workerStep hwaits]
    refine and_congr_left fun hturns => ?_
    obtain ⟨hfull, hafter, hbefore⟩ := Session.workerStep_of_turnsWaiting hturns
    simp only [blocked, hfull, hafter, hbefore]

/-- One step from parties that are not stuck. -/
theorem not_stuck_step (h : ¬ s.Stuck) (move : Move σ) :
    ¬ (s.step move).Stuck ↔ s.Orderly move := by
  cases move with
  | call call =>
    by_cases hfree : s.adapter = .free
    · have hstep : s.step (.call call) = s.call call := by simp only [step, hfree]
      rw [hstep]
      cases call with
      | sendPrompt request =>
        rw [Parties.call, stuck_send, not_not]
        exact ⟨fun hadmits _ => hadmits, fun hadmits => hadmits hfree⟩
      | closeSession =>
        rw [Parties.call, stuck_send, not_not]
        exact ⟨fun hadmits _ => hadmits, fun hadmits => hadmits hfree⟩
      | cancelTurn => exact iff_of_true (not_stuck_of_free hfree) trivial
      | decidePermission eventId decision =>
        exact iff_of_true (not_stuck_of_free hfree) trivial
      | pollEvent => exact iff_of_true (not_stuck_of_free hfree) trivial
    · -- the adapter is borrowed by another call
      have hstep : s.step (.call call) = s := by
        simp only [step]
      rw [hstep]
      refine iff_of_true h ?_
      cases call with
      | sendPrompt request => exact fun h => absurd h hfree
      | closeSession => exact fun h => absurd h hfree
      | cancelTurn => trivial
      | decidePermission eventId decision => trivial
      | pollEvent => trivial
  | resume =>
    simp only [step, Orderly]
    cases hadapter : s.adapter with
    | sending command =>
      dsimp only
      rw [stuck_send, not_not]
      refine ⟨fun hadmits other hother => ?_, fun hall => hall command rfl⟩
      cases hother
      exact hadmits
    | joining =>
      refine iff_of_true (fun hstuck => ?_) fun _ => nofun
      dsimp only at hstuck
      split at hstuck
      · simp [Stuck, blocked] at hstuck
      · exact h hstuck
    | free => exact iff_of_true h fun _ => nofun
    | closed => exact iff_of_true h fun _ => nofun
  | worker =>
    rw [stuck_worker h, not_and, Bool.not_eq_true]
    exact Iff.rfl
  | agent f => exact iff_of_true h trivial

/-- **No deadlock.** In no state of a run do the adapter and the worker wait for each
other iff every step of the run is orderly. -/
theorem not_deadlocked_iff (runtime : AcpRuntime) (peer : σ) (moves : List (Move σ)) :
    (∀ done, done <+: moves → ¬ ((machine runtime peer).run done).Deadlocked) ↔
      (machine runtime peer).Meets Orderly (machine runtime peer).init moves := by
  have hinit : ¬ (machine runtime peer).init.Stuck := not_stuck_of_free rfl
  rw [← (machine runtime peer).prefixes_iff_meets (I := fun s => ¬ s.Stuck)
    (fun s move h => not_stuck_step h move) hinit]
  exact forall₂_congr fun done _ => not_congr deadlocked_iff_stuck

end Parties

end Blocking

section Sample

attribute [local instance] flatWriter plainText linearHasher plainSerde

set_option maxRecDepth 20000 in
/-- A prompt whose agent says something, and the session closed before the event is
taken: the worker waits for the event to be taken, the adapter for the worker. -/
theorem not_deadlock_free :
    ¬ ∀ (runtime : AcpRuntime) (peer : Scripted) (moves : List (Move Scripted)),
      ¬ ((Parties.machine runtime peer).run moves).Deadlocked := by
  intro h
  refine h sampleRuntime ⟨[], [.ok (some (some deltaLine))], [], [], []⟩
    ([.call (.sendPrompt ⟨⟨"trn_blocking00000001", by decide⟩,
        ⟨"op_blocking00000001", by decide⟩, "hello"⟩)] ++
      List.replicate 4 .worker ++ [.call .closeSession]) ?_
  exact Parties.deadlocked_iff_stuck.2 ⟨by decide, by decide⟩

end Sample

end Altior.Acp
