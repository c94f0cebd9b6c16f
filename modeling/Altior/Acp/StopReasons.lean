import Altior.Acp.Cancellation
import Altior.Acp.Permissions

/-!
# The meaning of a stop reason

The agent ends a prompt with a stop reason, and two parties judge it: the mapping of
the adapter (`altior-acp/src/mapping.rs`, `map_stop_reason`), whose event the handler of
the worker drops, and the worker itself, which sends the event that ends the turn
(`altior-core/src/runtime/adapters/acp.rs`, `run_session_worker`).  They agree on a turn
that is known to be running iff the stop reason is a success.
-/

namespace Altior.Acp

open Domain Lib Altior.Runtime

/-! ## What a transcript ends with -/

section Transcript

variable [AcpSerde]

/-- The stop reason that a message answers the prompt with. -/
def RpcMessage.stopReason? (promptId : RpcId) : RpcMessage → Option StopReason
  | .response id result =>
    if id = promptId then (AcpSerde.promptResult result).toOption else none
  | _ => none

/-- The stop reason that the transcript of a prompt ends with: what the agent said last
answers the prompt. -/
def endedWith (promptId : RpcId) (log : List Observed) : Option StopReason :=
  match lastRead log with
  | some (.received m) => m.stopReason? promptId
  | _ => none

variable {promptId : RpcId}

theorem endedWith_concat {log : List Observed} {x : Observed} (h : x.isRead = false) :
    endedWith promptId (log ++ [x]) = endedWith promptId log := by
  rw [endedWith, endedWith, lastRead_concat, h]
  rfl

theorem endedWith_received (log : List Observed) (m : RpcMessage) :
    endedWith promptId (log ++ [.received m]) = m.stopReason? promptId := by
  rw [endedWith, lastRead_concat]
  rfl

theorem endedWith_lost (log : List Observed) : endedWith promptId (log ++ [.lost]) = none := by
  rw [endedWith, lastRead_concat]
  rfl

/-- A message with a stop reason answers the prompt. -/
theorem stopReason?_eq_some {m : RpcMessage} {r : StopReason} (h : m.stopReason? promptId = some r) :
    ∃ result, m = .response promptId result ∧ AcpSerde.promptResult result = .ok r := by
  cases m with
  | response id result =>
    obtain ⟨rfl, hresult⟩ := Option.ite_none_right_eq_some.1 h
    refine ⟨result, rfl, ?_⟩
    cases hprompt : AcpSerde.promptResult result with
    | error e =>
      rw [hprompt] at hresult
      cases hresult
    | ok r' =>
      rw [hprompt] at hresult
      exact congrArg Except.ok (Option.some.inj hresult)
  | request | notification | errorResponse => cases h

/-- The event of such a message is not reported. -/
theorem harnessEvent_of_stopReason? [SerdeJson] {m : RpcMessage} {r : StopReason}
    (hm : m.stopReason? promptId = some r) {events : List NormalizedEvent}
    (hevents : normalizeMessage m = .ok events) (turnId : TurnId) :
    ∀ event ∈ events, harnessEvent turnId event.event = none := by
  obtain ⟨result, rfl, hresult⟩ := stopReason?_eq_some hm
  cases hevents
  intro event hevent
  rw [List.mem_singleton.1 hevent]
  dsimp only [mapResult]
  rw [hresult]
  split
  · rfl
  · dsimp only [mapStopReason]
    split <;> rfl

end Transcript

/-! ## A prompt under way -/

section Turn

variable [AcpSerde] {σ : Type}

/-- The prompt was sent and its delivery is open; its transcript ends with the stop
reason, if any. -/
structure Held (promptId : RpcId) (stopReason : Option StopReason) (t : Turn σ) : Prop where
  delivery : t.runtime.delivery = .unanswered
  ended : endedWith promptId t.log = stopReason

variable {promptId : RpcId} {x : Option StopReason}

theorem Held.observe {t : Turn σ} (h : Held promptId x t) (peer : σ) {o : Observed}
    (ho : o.isRead = false) : Held promptId x (t.observe peer [o]) :=
  ⟨h.delivery, (endedWith_concat ho).trans h.ended⟩

variable [ProcessTransport σ]

theorem ensures_write_held (m : RpcMessage) :
    Ensures (Held promptId x) (write m : Proc (Turn σ) _ _) (fun _ => Held promptId x)
      fun _ t => endedWith promptId t.log = x :=
  ensures_write (fun _ peer h => h.observe peer rfl) fun _ peer _ _ h => (h.observe peer rfl).ended

theorem ensures_executeHostActions_held (sessionId : String) (actions : List HostAction) :
    Ensures (Held promptId x) (executeHostActions sessionId actions : Proc (Turn σ) _ _)
      (fun _ => Held promptId x) fun _ t => endedWith promptId t.log = x := by
  induction actions with
  | nil => exact .pure fun _ h => h
  | cons action rest ih =>
    refine .bind (M := fun _ => Held promptId x) ?_ fun _ => ih
    cases action with
    | continue_ | turnSettled => exact .pure fun _ h => h
    | sendCancelNotification => exact ensures_write_held _
    | answerPermissionCancelled id => exact ensures_write_held _
    | killAndReap =>
      exact .act (fun t _ h _ => ⟨h.delivery, h.ended⟩) (fun t _ h _ => h.ended)
        fun _ _ => trivial

theorem ensures_passCancel_held (sessionId : String) :
    Ensures (Held promptId x) (passCancel sessionId : Proc (Turn σ) _ _)
      (fun _ => Held promptId x) fun _ t => endedWith promptId t.log = x := by
  refine .bind (M := fun _ => Held promptId x) ?_ fun _ =>
    .modify fun t h => ⟨h.delivery, h.ended⟩
  exact .bind (M := fun _ => Held promptId x)
    (ensures_reportPhase (fun t _ _ _ h => ⟨h.delivery, h.ended⟩) fun _ _ _ h => h.ended)
    (ensures_executeHostActions_held sessionId)

/-- What is read next decides what the transcript ends with. -/
theorem ensures_receive_held (phase : AgentPhase) :
    Ensures (fun t => Held promptId none t ∧ t.runtime.phase = phase)
      (receive : Proc (Turn σ) _ _)
      (fun r t => match r with
        | none => Held promptId none t
        | some m => Held promptId (m.stopReason? promptId) t ∧ t.runtime.phase = phase)
      fun _ t => endedWith promptId t.log = none := by
  refine ensures_receive ?_ ?_ ?_
  · rintro t peer ⟨h, -⟩
    exact ⟨h.delivery, (congrArg _ (List.append_nil t.log)).trans h.ended⟩
  · rintro t peer m ⟨h, hphase⟩
    exact ⟨⟨h.delivery, endedWith_received t.log m⟩, hphase⟩
  · rintro t peer e ⟨h, -⟩
    have hlog : (t.observe peer [.lost]).lose.log = t.log ++ [.lost] := by
      unfold Turn.lose
      rw [show (t.observe peer [.lost]).runtime.delivery = .unanswered from h.delivery,
        PromptDelivery.onConnectionLost_unanswered]
      rfl
    rw [hlog]
    exact endedWith_lost t.log

theorem ensures_answerCancelled_held (actions : List HostAction) :
    Ensures (Held promptId x) (answerCancelled actions : Proc (Turn σ) _ _)
      (fun _ => Held promptId x) fun _ t => endedWith promptId t.log = x := by
  induction actions with
  | nil => exact .pure fun _ h => h
  | cons action rest ih =>
    cases action with
    | answerPermissionCancelled id =>
      exact .bind (ensures_write_held _) fun _ => .bind ih fun _ => .pure fun _ h => h
    | continue_ | sendCancelNotification | turnSettled | killAndReap => exact ih

theorem ensures_replyPermission_held (id : RpcId) (outcome : Option Json) :
    Ensures (Held promptId x) (replyPermission id outcome : Proc (Turn σ) _ _)
      (fun _ => Held promptId x) fun _ t => endedWith promptId t.log = x := by
  cases outcome with
  | none => exact ensures_write_held _
  | some outcome => exact ensures_write_held _

theorem ensures_beginPrompt_held (prompt : List ContentBlock) :
    Ensures (fun t => lastRead t.log = none) (beginPrompt prompt : Proc (Turn σ) _ _)
      (fun ids => Held ids.2 none) fun _ _ => True := by
  refine .bind (M := fun _ t => lastRead t.log = none) (.get fun _ h => h) fun s => ?_
  split
  · exact .fail fun _ _ => trivial
  · rename_i sessionId _
    refine .bind (M := fun _ t => lastRead t.log = none ∧ t.runtime.delivery = .notSent)
      (.modify fun _ h => ⟨h, rfl⟩) fun _ => ?_
    refine .bind (M := fun _ t => Held (.number (s.runtime.nextId + 1)) none t)
      (ensures_reportDelivery ?_ fun _ _ _ _ => trivial) fun _ => ?_
    · rintro t d hd ⟨hlog, hdelivery⟩
      rw [hdelivery, PromptDelivery.markWritten_notSent] at hd
      cases hd
      refine ⟨rfl, ?_⟩
      change endedWith _ t.log = none
      rw [endedWith, hlog]
    · exact .bind (M := fun _ => Held (.number (s.runtime.nextId + 1)) none)
        (.modify fun _ h => ⟨h.delivery, h.ended⟩) fun _ =>
        .bind ((ensures_write_held _).mono (fun _ h => h) (fun _ _ h => h) (fun _ _ _ => trivial)
          fun _ h => h) fun _ => .pure fun _ h => h

/-- Refused where no turn is running. -/
def notOutstanding : AcpError := .outOfOrder "settle a prompt with no turn outstanding"

omit [ProcessTransport σ] in
/-- Settling the prompt: the lifecycle decides whether a turn is running. -/
theorem ensures_settlePrompt_held (phase : AgentPhase) (id : RpcId)
    {verdict : PromptDelivery → Except AcpError PromptDelivery} {settled : PromptDelivery}
    (hverdict : verdict .unanswered = .ok settled) :
    Ensures (fun t => Held promptId x t ∧ t.runtime.phase = phase)
      (settlePrompt id verdict : Proc (Turn σ) _ _)
      (fun _ t => endedWith promptId t.log = x ∧ phase.Running)
      fun e t => endedWith promptId t.log = x ∧ e = notOutstanding ∧ ¬ phase.Running := by
  refine .bind (M := fun _ t => Held promptId x t ∧ t.runtime.phase = phase)
    (.modify fun _ h => ⟨⟨h.1.delivery, h.1.ended⟩, h.2⟩) fun _ => ?_
  refine .bind (M := fun _ t => endedWith promptId t.log = x ∧ t.runtime.phase = phase)
    (ensures_reportDelivery (fun _ _ _ h => ⟨h.1.ended, h.2⟩) fun t e he h => ?_) fun _ => ?_
  · rw [h.1.delivery, hverdict] at he
    cases he
  · refine .bind (M := fun _ t => endedWith promptId t.log = x ∧ phase.Running)
      (ensures_reportPhase ?_ ?_) fun _ => .pure fun _ h => h
    · rintro t actions phase' hreport ⟨hended, rfl⟩
      rcases t.runtime.phase.onPromptSettled_cases with ⟨hrunning, -⟩ | ⟨-, herror⟩
      · exact ⟨hended, hrunning⟩
      · cases herror.symm.trans hreport
    · rintro t e hreport ⟨hended, rfl⟩
      rcases t.runtime.phase.onPromptSettled_cases with ⟨-, hok⟩ | ⟨hnot, herror⟩
      · cases hok.symm.trans hreport
      · cases herror.symm.trans hreport
        exact ⟨hended, rfl, hnot⟩

/-- What a message leaves to do, when the transcript ends with no other stop reason than
its own. -/
theorem ensures_dispatch_held (phase : AgentPhase) (m : RpcMessage)
    (hx : ∀ r, x = some r → m.stopReason? promptId = some r) :
    Ensures (fun t => Held promptId x t ∧ t.runtime.phase = phase)
      (dispatch promptId m : Proc (Turn σ) _ _)
      (fun d t => match d with
        | .settled r' => endedWith promptId t.log = x ∧ ∀ r, x = some r → r' = r ∧ phase.Running
        | .undecided _ _ | .goOn => Held promptId none t)
      fun e t => endedWith promptId t.log = x ∧
        ∀ r, x = some r → e = notOutstanding ∧ ¬ phase.Running := by
  have hnone (hm : m.stopReason? promptId = none) : x = none := by
    cases x with
    | none => rfl
    | some r => exact absurd (hx r rfl) (by rw [hm]; nofun)
  have hquiet (hm : m.stopReason? promptId = none) (t : Turn σ) (h : Held promptId x t) :
      Held promptId none t := hnone hm ▸ h
  have herror (hm : m.stopReason? promptId = none) (e : AcpError) (t : Turn σ)
      (h : endedWith promptId t.log = x) : endedWith promptId t.log = x ∧
        ∀ r, x = some r → e = notOutstanding ∧ ¬ phase.Running :=
    ⟨h, fun r hr => by rw [hnone hm] at hr; cases hr⟩
  cases m with
  | response id result =>
    refine .ite (fun hid => ?_) fun hid => ?_
    · refine .bind (M := fun _ t => endedWith promptId t.log = x ∧ phase.Running)
        ((ensures_settlePrompt_held phase id PromptDelivery.onPromptResponse_unanswered).mono
          (fun _ h => h) (fun _ _ h => h) (fun e t h => ⟨h.1, fun _ _ => h.2⟩) fun _ h => h)
        fun _ => .ofExcept_bind (fun r' hr' => .pure fun t h => ⟨h.1, fun r hr => ?_⟩)
          fun e he t h => ⟨h.1, fun r hr => ?_⟩
      · obtain ⟨_, ⟨⟩, hresult⟩ := stopReason?_eq_some (hx r hr)
        rw [hresult] at hr'
        cases hr'
        exact ⟨rfl, h.2⟩
      · obtain ⟨_, ⟨⟩, hresult⟩ := stopReason?_eq_some (hx r hr)
        rw [hresult] at he
        cases he
    · exact .pure fun t h => hquiet (if_neg hid) t h.1
  | errorResponse id error =>
    refine .ite (fun hid => ?_) fun hid => .pure fun t h => hquiet rfl t h.1
    exact .bind (M := fun _ t => endedWith promptId t.log = x)
      ((ensures_settlePrompt_held phase id PromptDelivery.onErrorResponse_unanswered).mono
        (fun _ h => h) (fun _ _ h => h.1) (fun e t h => ⟨h.1, fun _ _ => h.2⟩) fun _ h => h)
      fun _ => .fail (herror rfl _)
  | request id method params =>
    refine .ite (fun _ => ?_) fun _ => ?_
    · refine .bind (M := fun _ => Held promptId x)
        (ensures_reportPhase (fun t _ _ _ h => ⟨h.1.delivery, h.1.ended⟩)
          fun t e _ h => herror rfl e t h.1.ended) fun actions => ?_
      refine .bind (M := fun _ => Held promptId x)
        ((ensures_answerCancelled_held actions).mono (fun _ h => h) (fun _ _ h => h)
          (herror rfl) fun _ h => h) fun answered => .pure fun t h => ?_
      split
      · rename_i hsettled
        split at hsettled <;> cases hsettled
      · exact hquiet rfl t h
      · exact hquiet rfl t h
    · exact .bind (M := fun _ => Held promptId x)
        ((ensures_write_held _).mono (fun _ h => h.1) (fun _ _ h => h) (herror rfl) fun _ h => h)
        fun _ => .pure (hquiet rfl)
  | notification method params => exact .pure fun t h => hquiet rfl t h.1

end Turn

/-! ## The worker -/

section Worker

variable [SerdeJson] {σ : Type}

/-- What a prompt comes to that the agent ends with a stop reason: a lifecycle without a
running turn refuses to settle it. -/
def outcomeOf (turnRunning : Bool) (r : StopReason) : Except AcpError StopReason :=
  if turnRunning then .ok r else .error notOutstanding

variable [AcpSerde]

/-- A prompt that is running is open. -/
def Session.Underway (s : Session σ) : Prop :=
  ∀ p, s.worker.running = some p → Held p.promptId none s.turn

/-- The prompt goes on, or ends as its transcript and the lifecycle have it. -/
structure Settles (p : Running) (phase : AgentPhase) (s' : Session σ) : Prop where
  underway : s'.Underway
  ends : ∀ events, s'.worker = .ending events → ∀ r,
    endedWith p.promptId s'.turn.log = some r →
      events = terminalEvents (outcomeOf (decide phase.Running) r)

namespace Session

omit [AcpSerde] in
/-- A part of the prompt loop in the worker. -/
theorem perform_rule {α : Type} {P : Turn σ → Prop} {m : Proc (Turn σ) AcpError α}
    {Q : α → Turn σ → Prop} {E : AcpError → Turn σ → Prop} {k : α → Session σ → Session σ}
    {I : Session σ → Prop} {s : Session σ} (hm : Ensures P m Q E) (hs : P s.turn)
    (hok : ∀ a t, Q a t → I (k a { s with turn := t }))
    (herror : ∀ e t, E e t →
      I { s with turn := t, worker := .ending (terminalEvents (.error e)) }) :
    I (s.perform m k) := by
  have hrun := hm s.turn none hs
  unfold perform
  revert hrun
  rcases m s.turn none with ⟨a | e | _, t, n⟩
  · exact fun h => hok a t h.1
  · exact fun h => herror e t h.1
  · exact fun h => absurd rfl h.2

variable {p : Running} {phase : AgentPhase} {s : Session σ}

/-- The prompt goes on. -/
theorem settles_running {s' : Session σ} (hworker : s'.worker.running = some p)
    (h : Held p.promptId none s'.turn) : Settles p phase s' := by
  constructor
  · intro q hq
    cases hworker.symm.trans hq
    exact h
  · intro events hevents
    rw [hevents] at hworker
    cases hworker

/-- The prompt failed before the agent answered it. -/
theorem settles_failed {t : Turn σ} {e : AcpError} (h : endedWith p.promptId t.log = none) :
    Settles p phase { s with turn := t, worker := .ending (terminalEvents (.error e)) } := by
  refine ⟨nofun, fun events _ r hr => ?_⟩
  cases h.symm.trans hr

variable [DefaultHasher] [ProcessTransport σ]

theorem settles_dispatch {x : Option StopReason} (m : RpcMessage)
    (hx : ∀ r, x = some r → m.stopReason? p.promptId = some r)
    (h : Held p.promptId x s.turn) (hphase : s.turn.runtime.phase = phase) :
    Settles p phase (s.dispatch p m) := by
  refine perform_rule (ensures_dispatch_held phase m hx) ⟨h, hphase⟩ (fun d t hd => ?_)
    fun e t he => ⟨nofun, fun events hevents r hr => ?_⟩
  · cases d with
    | settled r' =>
      refine ⟨nofun, fun events hevents r hr => ?_⟩
      obtain ⟨rfl, hrunning⟩ := hd.2 r (hd.1.symm.trans hr)
      cases hevents
      rw [outcomeOf, if_pos (decide_eq_true hrunning)]
    | goOn => exact settles_running rfl hd
    | undecided id toolCallId => exact settles_running rfl hd
  · obtain ⟨rfl, hnot⟩ := he.2 r (he.1.symm.trans hr)
    cases hevents
    rw [outcomeOf, if_neg (by rw [decide_eq_false hnot]; exact Bool.false_ne_true)]

theorem settles_deliver {x : Option StopReason} (m : RpcMessage)
    (hx : ∀ r, x = some r → m.stopReason? p.promptId = some r) {events : List NormalizedEvent}
    (hquiet : ∀ r, x = some r → ∀ event ∈ events, harnessEvent p.turnId event.event = none)
    (h : Held p.promptId x s.turn) (hphase : s.turn.runtime.phase = phase) :
    Settles p phase (s.deliver p m events) := by
  induction events with
  | nil => exact settles_dispatch m hx h hphase
  | cons event rest ih =>
    unfold deliver
    split
    · rename_i reported hreported
      refine settles_running rfl ?_
      cases x with
      | none => exact h
      | some r =>
        rw [hquiet r rfl event List.mem_cons_self] at hreported
        cases hreported
    · exact ih fun r hr event hevent => hquiet r hr event (List.mem_cons_of_mem _ hevent)

theorem settles_read (h : Held p.promptId none s.turn) (hphase : s.turn.runtime.phase = phase) :
    Settles p phase (s.read p) := by
  refine perform_rule (ensures_receive_held phase) ⟨h, hphase⟩ (fun r t hr => ?_)
    fun e t he => settles_failed he
  cases r with
  | none => exact settles_running rfl hr
  | some m =>
    refine perform_rule (P := fun t => Held p.promptId (m.stopReason? p.promptId) t ∧
        t.runtime.phase = phase)
      (Q := fun events t => normalizeMessage m = .ok events ∧
        Held p.promptId (m.stopReason? p.promptId) t ∧ t.runtime.phase = phase)
      (E := fun e t => endedWith p.promptId t.log = none)
      (.ofExcept (fun _ _ hok ht => ⟨hok, ht⟩) fun e t he ht => ?_) hr
      (fun events t ht => ?_) fun e t he => settles_failed he
    · -- a message that cannot be mapped is no answer
      rw [ht.1.ended]
      cases hstop : m.stopReason? p.promptId with
      | none => rfl
      | some r =>
        obtain ⟨result, rfl, -⟩ := stopReason?_eq_some hstop
        cases he
    · exact settles_deliver m (fun _ => id)
        (fun r hr => harnessEvent_of_stopReason? hr ht.1 p.turnId) ht.2.1 ht.2.2

omit [DefaultHasher] in
theorem settles_checkSignal (h : Held p.promptId none s.turn) :
    Settles p phase (s.checkSignal p) := by
  unfold checkSignal
  split
  · exact perform_rule (ensures_passCancel_held p.sessionId) h
      (fun _ _ ht => settles_running rfl ht) fun e t he => settles_failed he
  · exact settles_running rfl h

/-- A step of the worker at a running prompt. -/
theorem settles_workerStep (h : s.Underway) (hrunning : s.worker.running = some p) :
    Settles p s.turn.runtime.phase s.workerStep := by
  have hheld := h p hrunning
  have hemit (event : HarnessEvent) (next : WorkerAt) (hnext : next.running = some p) :
      Settles p s.turn.runtime.phase (s.emit event next) := by
    unfold emit
    split
    · exact settles_running hnext hheld
    · exact settles_running hrunning hheld
  unfold workerStep
  cases hworker : s.worker with
  | idle | ending _ | stopped =>
    rw [hworker] at hrunning
    cases hrunning
  | looping q =>
    rw [hworker] at hrunning
    cases hrunning
    exact settles_checkSignal hheld
  | reading q =>
    rw [hworker] at hrunning
    cases hrunning
    exact settles_read hheld rfl
  | reporting q event rest m =>
    rw [hworker] at hrunning
    exact hemit event _ hrunning
  | awaitingAck q rest m =>
    dsimp only
    split
    · rw [hworker] at hrunning
      cases hrunning
      exact settles_deliver (x := none) m nofun nofun hheld rfl
    · exact settles_running hrunning hheld
  | requesting q id event =>
    rw [hworker] at hrunning
    exact hemit event _ hrunning
  | awaitingDecision q id =>
    dsimp only
    split
    · exact settles_running hrunning hheld
    · rw [hworker] at hrunning
      cases hrunning
      exact perform_rule (ensures_replyPermission_held id _) hheld
        (fun _ _ ht => settles_running rfl ht) fun e t he => settles_failed he

omit [DefaultHasher] in
theorem underway_takeCommand (h : s.Underway) : s.takeCommand.Underway := by
  unfold takeCommand
  split
  · exact h
  · exact nofun
  · refine perform_rule (ensures_beginPrompt_held _) rfl (fun ids t ht => ?_) fun _ _ _ => nofun
    rintro p ⟨⟩
    exact ht

theorem Underway.workerStep (h : s.Underway) : s.workerStep.Underway := by
  cases hrunning : s.worker.running with
  | some p => exact (settles_workerStep h hrunning).underway
  | none =>
    unfold Session.workerStep
    cases hworker : s.worker with
    | idle => exact underway_takeCommand h
    | ending events =>
      cases events with
      | nil => exact nofun
      | cons event rest =>
        dsimp only
        unfold emit
        split
        · exact nofun
        · exact h
    | stopped => exact h
    | looping | reading | reporting | awaitingAck | requesting | awaitingDecision =>
      rw [hworker] at hrunning
      cases hrunning

end Session

/-! ## The handle -/

/-- The worker stands where it stood, over the same turn. -/
structure Session.Unmoved (s s' : Session σ) : Prop where
  worker : s'.worker = s.worker
  turn : s'.turn = s.turn

namespace Session

omit [AcpSerde]

theorem unmoved_ackIfAwaiting (s : Session σ) : Unmoved s s.ackIfAwaiting := by
  unfold ackIfAwaiting
  split <;> exact ⟨rfl, rfl⟩

theorem unmoved_cancelTurn (s : Session σ) : Unmoved s s.cancelTurn :=
  let h := unmoved_ackIfAwaiting { s with cancelSignal := true }
  ⟨h.worker, h.turn⟩

theorem unmoved_decidePermission (s : Session σ) (eventId : EventId)
    (decision : PermissionDecision) : Unmoved s (s.decidePermission eventId decision).2 := by
  have hdecide (txs : Table EventId Nat) (channel : Nat) :
      Unmoved s ({ s with permissionTxs := txs }.decide channel decision) := by
    unfold decide
    split <;> exact ⟨rfl, rfl⟩
  unfold decidePermission
  split
  · exact hdecide _ _
  · split
    · exact hdecide _ _
    · exact ⟨rfl, rfl⟩

theorem unmoved_pollEvent (s : Session σ) : Unmoved s s.pollEvent.2 := by
  have hack := s.unmoved_ackIfAwaiting
  unfold pollEvent
  split
  · exact hack
  · exact ⟨hack.worker, hack.turn⟩

end Session

omit [AcpSerde] in
theorem unmoved_send (s : Parties σ) (command : WorkerCommand) :
    Session.Unmoved s.session (s.send command).session := by
  unfold Parties.send
  split
  · exact ⟨rfl, rfl⟩
  · split <;> exact ⟨rfl, rfl⟩

omit [AcpSerde] in
theorem unmoved_call (s : Parties σ) (call : Call) :
    Session.Unmoved s.session (s.call call).session := by
  cases call with
  | sendPrompt request =>
    have hack := s.session.unmoved_ackIfAwaiting
    have hsend := unmoved_send { s with session := s.session.ackIfAwaiting } (.prompt request)
    exact ⟨hsend.worker.trans hack.worker, hsend.turn.trans hack.turn⟩
  | cancelTurn => exact s.session.unmoved_cancelTurn
  | decidePermission eventId decision => exact s.session.unmoved_decidePermission eventId decision
  | pollEvent => exact s.session.unmoved_pollEvent
  | closeSession =>
    have hcancel := s.session.unmoved_cancelTurn
    have hsend := unmoved_send { s with session := s.session.beginClose } .close
    exact ⟨hsend.worker.trans hcancel.worker, hsend.turn.trans hcancel.turn⟩

end Worker

/-! ## The events that end a turn -/

section Account

variable [SerdeJson]

/-- Completed, cancelled or failed. -/
def isTerminal : HarnessEvent → Bool
  | .completed _ | .cancelled | .failed _ _ => true
  | _ => false

/-- The event that ends a turn says of it what the agent event does. -/
def agrees : AgentEvent → HarnessEvent → Bool
  | .turnCompleted .cancelled, .cancelled => true
  | .turnCompleted stopReason, .completed _ => decide (stopReason ≠ .cancelled)
  | .turnFailed _, .failed _ _ => true
  | _, _ => false

/-- How a prompt ended: the stop reason its transcript ends with, whether the lifecycle
had a turn running when it was to be settled, and the events that the worker has sent
of it. -/
structure TurnEnd where
  stopReason : Option StopReason
  turnRunning : Bool
  sent : List HarnessEvent

/-- The terminal event keeps the meaning of the stop reason. -/
def TurnEnd.KeepsMeaning (e : TurnEnd) : Prop :=
  ∀ r, e.stopReason = some r → ∀ event ∈ e.sent, isTerminal event = true →
    agrees (mapStopReason r) event = true

/-- A success, on a turn that is known to be running; or neither. -/
def TurnEnd.Plain (e : TurnEnd) : Prop :=
  ∀ r, e.stopReason = some r → e.sent ≠ [] → e.turnRunning = r.isSuccess

/-- The first event of a prompt's end is the terminal one. -/
theorem terminalEvents_outcomeOf (turnRunning : Bool) (r : StopReason) :
    ∃ event rest, terminalEvents (outcomeOf turnRunning r) = event :: rest ∧
      isTerminal event = true ∧ (∀ e ∈ rest, isTerminal e = false) ∧
      agrees (mapStopReason r) event = (turnRunning == r.isSuccess) := by
  cases turnRunning <;> cases r <;> exact ⟨_, _, rfl, rfl, by simp [isTerminal], rfl⟩

theorem TurnEnd.keepsMeaning_iff {e : TurnEnd}
    (h : ∀ r, e.stopReason = some r → e.sent <+: terminalEvents (outcomeOf e.turnRunning r)) :
    e.KeepsMeaning ↔ e.Plain := by
  refine forall₂_congr fun r hr => ?_
  obtain ⟨event, rest, hevents, hterminal, hrest, hagrees⟩ :=
    terminalEvents_outcomeOf e.turnRunning r
  have hstart := h r hr
  rw [hevents, List.prefix_cons_iff] at hstart
  obtain hnil | ⟨sent, hsent, hstart⟩ := hstart
  · rw [hnil]
    exact iff_of_true nofun fun hne => absurd rfl hne
  · rw [hsent]
    refine ⟨fun hall _ => ?_, fun hplain other hother hother' => ?_⟩
    · have hfirst := hall event List.mem_cons_self hterminal
      rw [hagrees] at hfirst
      exact eq_of_beq hfirst
    · obtain rfl | hmem := List.mem_cons.1 hother
      · rw [hagrees]
        exact beq_iff_eq.2 (hplain (List.cons_ne_nil _ _))
      · rw [hrest other (hstart.subset hmem)] at hother'
        cases hother'

variable [AcpSerde] [DefaultHasher] {σ : Type} [ProcessTransport σ]

def WorkerAt.isEnding : WorkerAt → Bool
  | .ending _ => true
  | _ => false

/-- The event of the end of a turn that the worker sends next, if there is room. -/
def Session.sending (s : Session σ) : Option HarnessEvent :=
  if s.events.length < channelBound then s.worker.ends.head? else none

/-- The two parties, with an account of how the prompts so far ended, the last of them
first. -/
structure Account (σ : Type) where
  parties : Parties σ
  ends : List TurnEnd

namespace Account

/-- An event is sent of the end that was noted last. -/
def sends (event : HarnessEvent) : List TurnEnd → List TurnEnd
  | [] => []
  | e :: rest => { e with sent := e.sent ++ [event] } :: rest

/-- What a step of the worker adds to the account. -/
def noted (x : Account σ) : List TurnEnd :=
  let s := x.parties.session
  if s.worker.isEnding then s.sending.elim x.ends fun event => sends event x.ends
  else if s.workerStep.worker.isEnding then
    { stopReason := s.worker.running.bind fun p => endedWith p.promptId s.workerStep.turn.log
      turnRunning := decide s.turn.runtime.phase.Running
      sent := [] } :: x.ends
  else x.ends

def step (x : Account σ) (move : Move σ) : Account σ :=
  { parties := x.parties.step move
    ends :=
      match move with
      | .worker => x.noted
      | .call _ | .resume | .agent _ => x.ends }

/-- The parties from the handshake on. -/
def machine (runtime : AcpRuntime) (peer : σ) : Machine (Account σ) (Move σ) :=
  ⟨⟨(Parties.machine runtime peer).init, []⟩, step⟩

/-- Every stop reason so far kept its meaning. -/
def KeepsMeaning (x : Account σ) : Prop := ∀ e ∈ x.ends, e.KeepsMeaning

/-- Every stop reason so far was plain. -/
def Plain (x : Account σ) : Prop := ∀ e ∈ x.ends, e.Plain

/-- The events sent of the end of a prompt are the first of those it came to; those left
are in the hands of the worker. -/
structure Kept (x : Account σ) : Prop where
  underway : x.parties.session.Underway
  sent : ∀ e ∈ x.ends, ∀ r, e.stopReason = some r →
    e.sent <+: terminalEvents (outcomeOf e.turnRunning r)
  current : ∀ events, x.parties.session.worker = .ending events →
    ∃ e rest, x.ends = e :: rest ∧ ∀ r, e.stopReason = some r →
      e.sent ++ events = terminalEvents (outcomeOf e.turnRunning r)

variable {x : Account σ}

omit [DefaultHasher] [ProcessTransport σ] in
theorem Kept.keepsMeaning_iff (h : x.Kept) : x.KeepsMeaning ↔ x.Plain :=
  forall₂_congr fun e he => TurnEnd.keepsMeaning_iff (h.sent e he)

omit [DefaultHasher] [ProcessTransport σ] in
/-- Moves that leave the worker and the transcript alone. -/
theorem Kept.same (h : x.Kept) {parties : Parties σ}
    (hworker : parties.session.worker = x.parties.session.worker)
    (hruntime : parties.session.turn.runtime = x.parties.session.turn.runtime)
    (hlog : parties.session.turn.log = x.parties.session.turn.log) :
    Kept { x with parties := parties } := by
  refine ⟨fun p hp => ?_, h.sent, fun events hevents => h.current events (hworker ▸ hevents)⟩
  obtain ⟨hdelivery, hended⟩ := h.underway p (hworker ▸ hp)
  exact ⟨by rw [hruntime, hdelivery], by rw [hlog, hended]⟩

omit [DefaultHasher] [ProcessTransport σ] in
theorem Kept.unmoved (h : x.Kept) {parties : Parties σ}
    (hparties : Session.Unmoved x.parties.session parties.session) :
    Kept { x with parties := parties } :=
  h.same hparties.worker (by rw [hparties.turn]) (by rw [hparties.turn])

/-- A step of the worker at the end of a turn. -/
theorem Kept.ending (h : x.Kept) {events : List HarnessEvent}
    (hworker : x.parties.session.worker = .ending events) : (x.step .worker).Kept := by
  obtain ⟨e, rest, hends, hcurrent⟩ := h.current events hworker
  have hunderway : x.parties.session.workerStep.Underway := h.underway.workerStep
  have hnoted : (x.step .worker).ends =
      x.parties.session.sending.elim x.ends fun event => sends event x.ends :=
    if_pos (by rw [hworker]; rfl)
  cases events with
  | nil =>
    have hstep : x.parties.session.workerStep = { x.parties.session with worker := .idle } := by
      unfold Session.workerStep
      rw [hworker]
    have hsending : x.parties.session.sending = none := by
      rw [Session.sending, hworker]
      exact ite_self _
    rw [hsending] at hnoted
    refine ⟨hunderway, ?_, fun events hevents => ?_⟩
    · rw [hnoted]
      exact h.sent
    · change x.parties.session.workerStep.worker = _ at hevents
      rw [hstep] at hevents
      cases hevents
  | cons event events =>
    have hstep : x.parties.session.workerStep = x.parties.session.emit event (.ending events) := by
      unfold Session.workerStep
      rw [hworker]
    by_cases hroom : x.parties.session.events.length < channelBound
    · have hsending : x.parties.session.sending = some event := by
        rw [Session.sending, if_pos hroom, hworker]
        rfl
      rw [hsending, hends] at hnoted
      have hsent (r : StopReason) (hr : e.stopReason = some r) :
          (e.sent ++ [event]) ++ events = terminalEvents (outcomeOf e.turnRunning r) := by
        rw [List.append_assoc]
        exact hcurrent r hr
      refine ⟨hunderway, fun e' he' r hr => ?_, fun events' hevents' => ?_⟩
      · rw [hnoted] at he'
        obtain rfl | he' := List.mem_cons.1 he'
        · exact ⟨events, hsent r hr⟩
        · exact h.sent e' (by rw [hends]; exact List.mem_cons_of_mem _ he') r hr
      · change x.parties.session.workerStep.worker = _ at hevents'
        rw [hstep, Session.emit, if_pos hroom] at hevents'
        cases hevents'
        exact ⟨_, rest, hnoted, hsent⟩
    · have hsending : x.parties.session.sending = none := if_neg hroom
      have hstay : (x.step .worker).parties.session = x.parties.session :=
        hstep.trans (if_neg hroom)
      rw [hsending] at hnoted
      refine ⟨hunderway, by rw [hnoted]; exact h.sent, ?_⟩
      rw [hstay, hnoted]
      exact h.current

/-- A step of the worker that may end a turn. -/
theorem Kept.worked (h : x.Kept) (hworker : x.parties.session.worker.isEnding = false) :
    (x.step .worker).Kept := by
  have hunderway : x.parties.session.workerStep.Underway := h.underway.workerStep
  have hnoted : (x.step .worker).ends = x.noted := rfl
  unfold noted at hnoted
  rw [if_neg (by rw [hworker]; exact Bool.false_ne_true)] at hnoted
  by_cases hends : x.parties.session.workerStep.worker.isEnding = true
  · rw [if_pos hends] at hnoted
    refine ⟨hunderway, fun e he r hr => ?_, fun events hevents => ⟨_, _, hnoted, fun r hr => ?_⟩⟩
    · rw [hnoted] at he
      obtain rfl | he := List.mem_cons.1 he
      · exact List.nil_prefix
      · exact h.sent e he r hr
    · obtain ⟨p, hp, hended⟩ := Option.bind_eq_some_iff.1 hr
      exact (Session.settles_workerStep h.underway hp).ends events hevents r hended
  · rw [if_neg hends] at hnoted
    refine ⟨hunderway, by rw [hnoted]; exact h.sent, fun events hevents => ?_⟩
    change x.parties.session.workerStep.worker = _ at hevents
    rw [hevents] at hends
    exact absurd rfl hends

theorem Kept.step (h : x.Kept) (move : Move σ) : (x.step move).Kept := by
  cases move with
  | call call =>
    refine h.unmoved ?_
    unfold Parties.step
    dsimp only
    split
    · exact unmoved_call x.parties call
    · exact ⟨rfl, rfl⟩
  | resume =>
    refine h.unmoved ?_
    unfold Parties.step
    dsimp only
    split
    · exact unmoved_send x.parties _
    · split <;> exact ⟨rfl, rfl⟩
    · exact ⟨rfl, rfl⟩
    · exact ⟨rfl, rfl⟩
  | agent f => exact h.same rfl rfl rfl
  | worker =>
    cases hworker : x.parties.session.worker with
    | ending events => exact h.ending hworker
    | idle | looping | reading | reporting | awaitingAck | requesting | awaitingDecision
    | stopped => exact h.worked (by rw [hworker]; rfl)

end Account

/-- **Stop reasons.**  In every run, the events that the worker sent of the prompts it
ended keep the meaning of the stop reasons of the agent iff every one of these was a
success on a turn that was known to be running, or neither. -/
theorem stopReasons_keepMeaning_iff (runtime : AcpRuntime) (peer : σ) (moves : List (Move σ)) :
    let x := (Account.machine runtime peer).run moves
    x.KeepsMeaning ↔ x.Plain := by
  intro x
  have hkept : x.Kept := by
    refine (Account.machine runtime peer).invariant (I := Account.Kept)
      (fun x move h => h.step move) ?_ moves
    exact ⟨nofun, nofun, nofun⟩
  exact hkept.keepsMeaning_iff

end Account

section Sample

/-- The agent declines the prompt with id three. -/
def refusalLine : String :=
  "\x7b\"jsonrpc\":\"2.0\",\"id\":3,\"result\":\x7b\"stopReason\":\"refusal\"\x7d\x7d"

/-- The JSON library of the sample runs on this line as well. -/
abbrev refusalSerde : AcpSerde :=
  { plainSerde with
    fromStr := fun line =>
      if line = refusalLine then
        .ok (.object [("jsonrpc", str "2.0"), ("id", .scalar (.number (.posInt 3))),
          ("result", .object [("stopReason", str "refusal")])])
      else plainFromStr line
    promptResult := fun v =>
      if v.getStr "stopReason" = some "refusal" then .ok .refusal else plainSerde.promptResult v }

attribute [local instance] flatWriter plainText linearHasher refusalSerde

/-- A prompt that the agent refuses is reported as completed. -/
theorem refusal_reported_as_completed :
    ¬ ∀ (runtime : AcpRuntime) (peer : Scripted) (moves : List (Move Scripted)),
      ((Account.machine runtime peer).run moves).KeepsMeaning := by
  intro h
  let x := (Account.machine sampleRuntime
    (⟨[], [.ok (some (some refusalLine))], [], [], []⟩ : Scripted)).run
      ([.call (.sendPrompt ⟨⟨"trn_refusal000000001", by decide⟩,
        ⟨"op_refusal000000001", by decide⟩, "hello"⟩)] ++ List.replicate 4 .worker)
  have hkeeps : x.KeepsMeaning := h _ _ _
  have hrefused : x.ends.any (fun e => decide (e.stopReason = some .refusal) &&
      e.sent.any fun event => isTerminal event && !agrees (mapStopReason .refusal) event) = true := by
    decide
  obtain ⟨e, he, hmatch⟩ := List.any_eq_true.1 hrefused
  rw [Bool.and_eq_true, decide_eq_true_eq] at hmatch
  obtain ⟨event, hevent, hterminal⟩ := List.any_eq_true.1 hmatch.2
  rw [Bool.and_eq_true, Bool.not_eq_true'] at hterminal
  have hagrees := hkeeps e he .refusal hmatch.1 event hevent hterminal.1
  rw [hterminal.2] at hagrees
  cases hagrees

end Sample

end Altior.Acp
