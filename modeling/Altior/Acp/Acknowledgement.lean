import Altior.Acp.Cancellation

/-!
# The acknowledgement of events

The worker of a session sends an event of a message and waits until it was taken; the
adapter tells it so with the first call after the one that took the event
(`altior-core/src/runtime/adapters/acp.rs`).  What is on its way between the two is
at most one such event, or the acknowledgement of it.
-/

namespace Altior.Acp

open Domain Lib Altior.Runtime

variable [SerdeJson] {σ : Type}

/-! ## Where the worker stands in the exchange -/

/-- The worker has an event of a message in hand. -/
def WorkerAt.reports : WorkerAt → Bool
  | .reporting _ _ _ _ => true
  | _ => false

/-- The worker waits for an acknowledgement. -/
def WorkerAt.awaits : WorkerAt → Bool
  | .awaitingAck _ _ _ => true
  | _ => false

/-- The events the worker has in hand: one of a message is acknowledged, the others
are not. -/
def WorkerAt.Sound : WorkerAt → Prop
  | .reporting _ event _ _ => requiresAck event = true
  | .requesting _ _ event => requiresAck event = false
  | .ending events => ∀ event ∈ events, requiresAck event = false
  | _ => True

theorem WorkerAt.sound_ending (r : Except AcpError StopReason) :
    Sound (.ending (terminalEvents r)) := fun _ hevent => requiresAck_terminalEvents hevent

/-! ## The exchange -/

/-- The calls that tell the worker that its event was taken. -/
def Call.releases : Call → Bool
  | .decidePermission _ _ => false
  | .sendPrompt _ | .cancelTurn | .pollEvent | .closeSession => true

/-- The two parties, with a count of the acknowledged events: those the worker has
begun to produce, those `poll_event` has returned, and those of them that were
followed by a call that releases the worker. -/
structure Exchange (σ : Type) where
  parties : Parties σ
  started : Nat
  polled : Nat
  followed : Nat

namespace Exchange

variable [AcpSerde] [DefaultHasher] [ProcessTransport σ]

/-- A call that begins: what was returned before is followed by it, and what it
returns counts as polled. -/
def call (x : Exchange σ) (call : Call) : Exchange σ :=
  { parties := x.parties.step (.call call)
    started := x.started
    polled :=
      match call with
      | .pollEvent => x.polled + (x.parties.session.pollEvent.1.any requiresAck).toNat
      | _ => x.polled
    followed := if call.releases then x.polled else x.followed }

/-- One step; a call does not begin while another one runs. -/
def step (x : Exchange σ) : Move σ → Exchange σ
  | .call call =>
    match x.parties.adapter with
    | .free => x.call call
    | _ => x
  | .worker =>
    let parties := x.parties.step .worker
    let starts := !x.parties.session.worker.reports && parties.session.worker.reports
    { x with parties := parties, started := x.started + starts.toNat }
  | .resume => { x with parties := x.parties.step .resume }
  | .agent f => { x with parties := x.parties.step (.agent f) }

/-- The two parties from the handshake on. -/
def machine (runtime : AcpRuntime) (peer : σ) : Machine (Exchange σ) (Move σ) :=
  ⟨⟨(Parties.machine runtime peer).init, 0, 0, 0⟩, step⟩

end Exchange

/-- The acknowledged events that are not done with: sent, taken but not yet
acknowledged, or acknowledged without the worker having seen it. -/
def Session.outstanding (s : Session σ) : Nat :=
  (s.events.filter requiresAck).length + s.eventAwaitingAck.toNat + s.ack.toNat

/-- The handshake: at most one event is not done with, an acknowledgement that is due
finds room in its channel and the worker there to receive it, and the worker begins
to produce an event only after the one before was returned and followed by a call. -/
structure Exchange.Alternates (x : Exchange σ) : Prop where
  outstanding : x.parties.session.outstanding ≤ 1
  room : x.parties.session.eventAwaitingAck = true → x.parties.session.ack = false ∧
    x.parties.session.worker.isStopped = false
  inTurn : x.started ≤ x.followed + 1
  counted : x.followed ≤ x.polled ∧ x.polled ≤ x.started

/-! ## The worker -/

namespace Session

/-- The worker went on without sending anything or waiting for an acknowledgement. -/
structure GoesOn (s s' : Session σ) : Prop where
  events : s'.events = s.events
  flag : s'.eventAwaitingAck = s.eventAwaitingAck
  ack : s'.ack = s.ack
  sound : s'.worker.Sound
  awaits : s'.worker.awaits = false

variable {s s' : Session σ}

theorem GoesOn.of_eq (h : GoesOn s s') {s₀ : Session σ} (hevents : s.events = s₀.events)
    (hflag : s.eventAwaitingAck = s₀.eventAwaitingAck) (hack : s.ack = s₀.ack) : GoesOn s₀ s' :=
  ⟨h.events.trans hevents, h.flag.trans hflag, h.ack.trans hack, h.sound, h.awaits⟩

theorem goesOn_perform {α : Type} {m : Proc (Turn σ) AcpError α} {k : α → Session σ → Session σ}
    (hm : m.Ends) (hk : ∀ a t, GoesOn s (k a { s with turn := t })) :
    GoesOn s (s.perform m k) := by
  unfold perform
  rcases hm.cases s.turn with ⟨a, t, hrun⟩ | ⟨e, t, hrun⟩
  · rw [hrun]
    exact hk a t
  · rw [hrun]
    exact ⟨rfl, rfl, rfl, WorkerAt.sound_ending _, rfl⟩

theorem goesOn_looping {p : Running} {t : Turn σ} :
    GoesOn s { s with turn := t, worker := .looping p } :=
  ⟨rfl, rfl, rfl, trivial, rfl⟩

theorem goesOn_reading {p : Running} {t : Turn σ} :
    GoesOn s { s with turn := t, worker := .reading p } :=
  ⟨rfl, rfl, rfl, trivial, rfl⟩

variable [AcpSerde] [DefaultHasher] [ProcessTransport σ]

theorem goesOn_dispatch (p : Running) (m : RpcMessage) : GoesOn s (s.dispatch p m) := by
  refine goesOn_perform (ends_dispatch _ _) fun r t => ?_
  cases r with
  | settled stopReason => exact ⟨rfl, rfl, rfl, WorkerAt.sound_ending _, rfl⟩
  | goOn => exact goesOn_looping
  | undecided id toolCallId =>
    exact ⟨rfl, rfl, rfl, (rfl : requiresAck _ = false), rfl⟩

theorem goesOn_deliver (p : Running) (m : RpcMessage) (events : List NormalizedEvent) :
    GoesOn s (s.deliver p m events) := by
  induction events with
  | nil => exact goesOn_dispatch p m
  | cons event rest ih =>
    unfold deliver
    split
    · rename_i reported hreported
      exact ⟨rfl, rfl, rfl, requiresAck_harnessEvent hreported, rfl⟩
    · exact ih

theorem goesOn_read (p : Running) : GoesOn s (s.read p) := by
  refine goesOn_perform ends_receive fun r t => ?_
  cases r with
  | none => exact goesOn_looping
  | some m =>
    exact (goesOn_perform (.ofExcept _) fun events t' =>
      (goesOn_deliver p m events).of_eq rfl rfl rfl).of_eq rfl rfl rfl

omit [DefaultHasher] in
theorem goesOn_checkSignal (p : Running) : GoesOn s (s.checkSignal p) := by
  unfold checkSignal
  split
  · exact goesOn_perform (ends_passCancel _) fun _ _ => goesOn_reading
  · exact goesOn_reading

omit [DefaultHasher] in
theorem goesOn_takeCommand (h : s.worker.Sound) (hidle : s.worker = .idle) :
    GoesOn s s.takeCommand := by
  unfold takeCommand
  split
  · exact ⟨rfl, rfl, rfl, h, by rw [hidle]; rfl⟩
  · exact ⟨rfl, rfl, rfl, trivial, rfl⟩
  · exact (goesOn_perform (ends_beginPrompt _) fun _ _ => goesOn_looping).of_eq rfl rfl rfl

omit [AcpSerde] [DefaultHasher] [ProcessTransport σ]

/-- What is not done with is what the worker waits for. -/
structure Settled (s : Session σ) : Prop where
  sound : s.worker.Sound
  outstanding : s.outstanding = s.worker.awaits.toNat

/-- The events that were sent and not returned, with the one in hand. -/
def ahead (s : Session σ) : Nat := (s.events.filter requiresAck).length + s.worker.reports.toNat

/-- Whether the worker begins to produce an acknowledged event. -/
def begins (s s' : Session σ) : Bool := !s.worker.reports && s'.worker.reports

/-- What a step of the worker does to the exchange. -/
structure Produces (s s' : Session σ) : Prop where
  settled : s'.Settled
  flag : s'.eventAwaitingAck = s.eventAwaitingAck
  ahead : s'.ahead = s.ahead + (begins s s').toNat

theorem produces_stay (h : s.Settled) : Produces s s := by
  refine ⟨h, rfl, ?_⟩
  cases hreports : s.worker.reports <;> simp [begins, hreports]

theorem GoesOn.produces (h : GoesOn s s') (hs : s.outstanding = 0) (hreports : s.worker.reports = false) :
    Produces s s' := by
  refine ⟨⟨h.sound, ?_⟩, h.flag, ?_⟩
  · rw [outstanding, h.events, h.flag, h.ack, h.awaits]
    exact hs
  · simp [Session.ahead, begins, h.events, hreports]

/-- An event is sent that is not acknowledged. -/
theorem produces_emit (h : s.Settled) {event : HarnessEvent} {next : WorkerAt}
    (hevent : requiresAck event = false) (hawaits : s.worker.awaits = false)
    (hreports : s.worker.reports = false) (hsound : next.Sound) (hnext : next.awaits = false)
    (hnext' : next.reports = false) : Produces s (s.emit event next) := by
  unfold emit
  split
  · refine ⟨⟨hsound, ?_⟩, rfl, ?_⟩
    · have houtstanding := h.outstanding
      rw [hawaits] at houtstanding
      simpa [outstanding, hevent, hnext] using houtstanding
    · simp [Session.ahead, begins, hevent, hreports, hnext']
  · exact produces_stay h

/-- An event of a message is sent, and the worker waits. -/
theorem produces_report (h : s.Settled) {p : Running} {event : HarnessEvent}
    {rest : List NormalizedEvent} {m : RpcMessage} (hworker : s.worker = .reporting p event rest m) :
    Produces s (s.emit event (.awaitingAck p rest m)) := by
  have hevent : requiresAck event = true := by
    have hsound := h.sound
    rwa [hworker] at hsound
  have hnothing : s.outstanding = 0 := by
    rw [h.outstanding, hworker]
    rfl
  unfold emit
  split
  · refine ⟨⟨trivial, ?_⟩, rfl, ?_⟩
    · change (List.filter requiresAck (s.events ++ [event])).length + s.eventAwaitingAck.toNat +
        s.ack.toNat = 1
      rw [List.filter_append, List.length_append, List.filter_cons_of_pos hevent]
      simp only [outstanding] at hnothing
      simp only [List.filter_nil, List.length_singleton]
      omega
    · simp [Session.ahead, begins, hevent, hworker, WorkerAt.reports]
  · exact produces_stay h

variable [AcpSerde] [DefaultHasher] [ProcessTransport σ]

theorem produces_workerStep (h : s.Settled) : Produces s s.workerStep := by
  have houtstanding := h.outstanding
  unfold workerStep
  cases hworker : s.worker with
  | idle =>
    rw [hworker] at houtstanding
    exact (goesOn_takeCommand h.sound hworker).produces houtstanding (by rw [hworker]; rfl)
  | looping p =>
    rw [hworker] at houtstanding
    exact (goesOn_checkSignal p).produces houtstanding (by rw [hworker]; rfl)
  | reading p =>
    rw [hworker] at houtstanding
    exact (goesOn_read p).produces houtstanding (by rw [hworker]; rfl)
  | reporting p event rest m => exact produces_report h hworker
  | awaitingAck p rest m =>
    dsimp only
    split
    · -- the acknowledgement was all that was outstanding
      rename_i hack
      have hgoes := goesOn_deliver
        (s := { s with ack := false, worker := .awaitingAck p rest m }) p m rest
      rw [hworker, outstanding, hack] at houtstanding
      simp only [WorkerAt.awaits, Bool.toNat_true] at houtstanding
      refine ⟨⟨hgoes.sound, ?_⟩, hgoes.flag, ?_⟩
      · rw [outstanding, hgoes.events, hgoes.flag, hgoes.ack, hgoes.awaits]
        simp only [Bool.toNat_false]
        omega
      · simp [Session.ahead, begins, hgoes.events, hworker, WorkerAt.reports]
    · exact produces_stay h
  | requesting p id event =>
    have hevent := h.sound
    rw [hworker] at hevent
    exact produces_emit h hevent (by rw [hworker]; rfl) (by rw [hworker]; rfl) trivial rfl rfl
  | awaitingDecision p id =>
    rw [hworker] at houtstanding
    dsimp only
    split
    · exact produces_stay h
    · refine GoesOn.produces ((goesOn_perform (ends_replyPermission _ _)
        fun _ _ => goesOn_looping).of_eq rfl rfl rfl) houtstanding ?_
      rw [hworker]
      rfl
  | ending events =>
    have hending := h.sound
    rw [hworker] at hending
    cases events with
    | nil =>
      rw [hworker] at houtstanding
      exact GoesOn.produces ⟨rfl, rfl, rfl, trivial, rfl⟩ houtstanding
        (by rw [hworker]; rfl)
    | cons event rest =>
      exact produces_emit h (hending event (List.mem_cons_self ..)) (by rw [hworker]; rfl)
        (by rw [hworker]; rfl) (fun other hother => hending other (List.mem_cons_of_mem _ hother))
        rfl rfl
  | stopped => exact produces_stay h

end Session

/-! ## The calls -/

namespace Session

variable {s : Session σ}

/-- An acknowledgement that is due is sent, and none is lost. -/
theorem settled_ackIfAwaiting (h : s.Settled) :
    s.ackIfAwaiting.Settled ∧ s.ackIfAwaiting.eventAwaitingAck = false ∧
      s.ackIfAwaiting.events = s.events ∧ s.ackIfAwaiting.worker = s.worker := by
  have houtstanding := h.outstanding
  have hle : s.worker.awaits.toNat ≤ 1 := Bool.toNat_le _
  unfold ackIfAwaiting
  split
  · rename_i hflag
    have hack : s.ack = false := by
      cases hack : s.ack with
      | false => rfl
      | true =>
        rw [outstanding, hflag, hack] at houtstanding
        simp only [Bool.toNat_true] at houtstanding
        omega
    refine ⟨⟨h.sound, ?_⟩, rfl, rfl, rfl⟩
    rw [outstanding, hflag, hack] at houtstanding
    simpa [outstanding] using houtstanding
  · rename_i hflag
    exact ⟨h, Bool.eq_false_iff.2 hflag, rfl, rfl⟩

theorem Settled.of_eq (h : s.Settled) {s' : Session σ} (hworker : s'.worker = s.worker)
    (hevents : s'.events = s.events) (hflag : s'.eventAwaitingAck = s.eventAwaitingAck)
    (hack : s'.ack = s.ack) : s'.Settled := by
  refine ⟨hworker ▸ h.sound, ?_⟩
  rw [Session.outstanding, hevents, hflag, hack, hworker]
  exact h.outstanding

end Session

/-! ## The run -/

namespace Exchange

/-- The counts agree with what is on its way. -/
structure Balanced (x : Exchange σ) : Prop where
  settled : x.parties.session.Settled
  started : x.started = x.polled + x.parties.session.ahead
  polled : x.polled = x.followed + x.parties.session.eventAwaitingAck.toNat

variable {x : Exchange σ}

theorem Balanced.alternating (h : x.Balanced) : x.Alternates := by
  have houtstanding := h.settled.outstanding
  have hstarted := h.started
  have hpolled := h.polled
  have hle : x.parties.session.worker.awaits.toNat ≤ 1 := Bool.toNat_le _
  simp only [Session.outstanding, Session.ahead] at houtstanding hstarted
  refine ⟨by simp only [Session.outstanding]; omega, fun hflag => ?_, ?_, by omega, by omega⟩
  · rw [hflag] at houtstanding
    simp only [Bool.toNat_true] at houtstanding
    constructor
    · refine Bool.eq_false_iff.2 fun hack => ?_
      rw [hack] at houtstanding
      simp only [Bool.toNat_true] at houtstanding
      omega
    · cases hworker : x.parties.session.worker with
      | stopped =>
        rw [hworker] at houtstanding
        simp [WorkerAt.awaits] at houtstanding
      | idle | looping | reading | reporting | awaitingAck | requesting | awaitingDecision
        | ending => rfl
  · -- the worker has an event in hand only while it does not wait
    have hexcludes : x.parties.session.worker.reports.toNat +
        x.parties.session.worker.awaits.toNat ≤ 1 := by
      cases x.parties.session.worker <;> simp [WorkerAt.reports, WorkerAt.awaits]
    omega

/-- A call that leaves the exchange alone after the acknowledgement was sent. -/
theorem Balanced.released (h : x.Balanced) {parties : Parties σ}
    (hworker : parties.session.worker = x.parties.session.worker)
    (hevents : parties.session.events = x.parties.session.events)
    (hflag : parties.session.eventAwaitingAck = false)
    (hsettled : parties.session.Settled) :
    Balanced ⟨parties, x.started, x.polled, x.polled⟩ := by
  refine ⟨hsettled, ?_, ?_⟩
  · rw [Session.ahead, hevents, hworker]
    exact h.started
  · rw [hflag]
    rfl

theorem session_send (s : Parties σ) (command : WorkerCommand) :
    (s.send command).session = s.session ∨
      (s.send command).session = s.session.push command := by
  unfold Parties.send
  split
  · exact .inl rfl
  · split
    · exact .inl rfl
    · exact .inr rfl

/-- A call that acknowledges and then sends a command. -/
theorem Balanced.send (h : x.Balanced) {session : Session σ} {adapter : AdapterAt}
    (hsession : session.Settled) (hflag : session.eventAwaitingAck = false)
    (hevents : session.events = x.parties.session.events)
    (hworker : session.worker = x.parties.session.worker) (command : WorkerCommand) :
    Balanced ⟨Parties.send ⟨session, adapter⟩ command, x.started, x.polled, x.polled⟩ := by
  rcases session_send ⟨session, adapter⟩ command with hsend | hsend
  · refine h.released ?_ ?_ ?_ ?_ <;> rw [hsend] <;> assumption
  · refine h.released ?_ ?_ ?_ ?_ <;> rw [hsend]
    · exact hworker
    · exact hevents
    · exact hflag
    · exact hsession.of_eq rfl rfl rfl rfl

theorem Balanced.decided (h : x.Balanced) (eventId : EventId) (decision : PermissionDecision) :
    Balanced { x with parties := { x.parties with
      session := (x.parties.session.decidePermission eventId decision).2 } } := by
  have hdecide (txs : Table EventId Nat) (channel : Nat) : Balanced { x with parties :=
      { x.parties with session :=
        { x.parties.session with permissionTxs := txs }.decide channel decision } } := by
    unfold Session.decide
    split <;> exact ⟨h.settled.of_eq rfl rfl rfl rfl, h.started, h.polled⟩
  unfold Session.decidePermission
  split
  · exact hdecide _ _
  · split
    · exact hdecide _ _
    · exact h

/-- Taking an event: what was taken before is followed by this call. -/
theorem Balanced.taken (h : x.Balanced) :
    Balanced ⟨{ x.parties with session := x.parties.session.pollEvent.2 }, x.started,
      x.polled + (x.parties.session.pollEvent.1.any requiresAck).toNat, x.polled⟩ := by
  obtain ⟨hsettled, hflag, hevents, hworker⟩ := Session.settled_ackIfAwaiting h.settled
  have hstarted := h.started
  rw [Session.ahead, ← hevents, ← hworker] at hstarted
  have houtstanding := hsettled.outstanding
  unfold Session.pollEvent
  split <;> rename_i htaken
  · exact h.released hworker hevents hflag hsettled
  · rename_i event rest
    rw [Session.outstanding, htaken, hflag] at houtstanding
    rw [htaken] at hstarted
    refine ⟨⟨hsettled.sound, ?_⟩, ?_, ?_⟩
    · rw [← houtstanding, Session.outstanding, hflag]
      cases hrequires : requiresAck event <;> simp [hrequires]
    · rw [hstarted, Session.ahead]
      cases hrequires : requiresAck event <;> simp [hrequires]
      omega
    · simp [hflag]

variable [AcpSerde] [DefaultHasher] [ProcessTransport σ]

theorem Balanced.call (h : x.Balanced) (hfree : x.parties.adapter = .free) (call : Call) :
    (x.call call).Balanced := by
  unfold Exchange.call Parties.step
  rw [hfree]
  dsimp only
  obtain ⟨hsettled, hflag, hevents, hworker⟩ := Session.settled_ackIfAwaiting h.settled
  -- the signal is set before the acknowledgement is sent
  have hcancelling : ({ x.parties.session with cancelSignal := true } : Session σ).Settled :=
    h.settled.of_eq rfl rfl rfl rfl
  obtain ⟨hsettled', hflag', hevents', hworker'⟩ := Session.settled_ackIfAwaiting hcancelling
  cases call with
  | sendPrompt request => exact h.send hsettled hflag hevents hworker _
  | cancelTurn => exact h.released hworker' hevents' hflag' hsettled'
  | decidePermission eventId decision => exact h.decided eventId decision
  | pollEvent => exact h.taken
  | closeSession => exact h.send hsettled' hflag' hevents' hworker' _

theorem Balanced.worked (h : x.Balanced) : (x.step .worker).Balanced := by
  have hproduces := Session.produces_workerStep h.settled
  refine ⟨hproduces.settled, ?_, ?_⟩
  · have hstarted := h.started
    have hahead := hproduces.ahead
    simp only [Session.begins] at hahead
    simp only [step, Parties.step]
    omega
  · exact h.polled.trans (by rw [← hproduces.flag]; rfl)

theorem Balanced.step (h : x.Balanced) (move : Move σ) : (x.step move).Balanced := by
  cases move with
  | call call =>
    unfold Exchange.step
    dsimp only
    split
    · rename_i hfree
      exact h.call hfree call
    · exact h
  | resume =>
    unfold Exchange.step Parties.step
    dsimp only
    split
    · rename_i command hsending
      rcases session_send x.parties command with hsend | hsend
      · refine ⟨?_, ?_, ?_⟩ <;> dsimp only <;> rw [hsend]
        · exact h.settled
        · exact h.started
        · exact h.polled
      · refine ⟨?_, ?_, ?_⟩ <;> dsimp only <;> rw [hsend]
        · exact h.settled.of_eq rfl rfl rfl rfl
        · exact h.started
        · exact h.polled
    · split <;> exact ⟨h.settled, h.started, h.polled⟩
    · exact h
    · exact h
  | worker => exact h.worked
  | agent f => exact ⟨h.settled.of_eq rfl rfl rfl rfl, h.started, h.polled⟩

/-- **Event acknowledgement handshake.** Whatever the adapter, the worker and the
agent do, at most one event is not done with, no acknowledgement is lost, and the
worker begins to produce an event only after the one before was returned and
followed by another call. -/
theorem alternates (runtime : AcpRuntime) (peer : σ) (moves : List (Move σ)) :
    ((machine runtime peer).run moves).Alternates := by
  have hinit : (machine runtime peer).init.Balanced := ⟨⟨trivial, rfl⟩, rfl, rfl⟩
  exact ((machine runtime peer).invariant (I := Balanced) (fun _ move h => h.step move) hinit
    moves).alternating

end Exchange

end Altior.Acp
