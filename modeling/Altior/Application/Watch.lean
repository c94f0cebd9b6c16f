import Altior.Application.Stable

/-!
# Supervisors and the journal

A supervisor is at work on a turn only while the journal has that turn open in
the supervisor's own thread.  The supervisors change no journal, so the two are
brought together call by call: a turn is opened before its prompt, and it is
closed after the supervisor is done with it.
-/

namespace Altior.Application

open Domain Lib Storage Altior.Runtime

section Journal

variable [SerdeJsonWriter] {H : Type}

/-- The supervisor of a thread and the journal agree. -/
structure Supervises (p : Projections) (threadId : ThreadId) (v : ThreadRuntimeSupervisor) :
    Prop where
  own : v.threadId = threadId
  thread : threadId.asStr ∈ p.thread
  turn : ∀ turnId, running v.state = some turnId → OpenTurn p threadId turnId

/-- Every supervisor and the journal agree. -/
def Watched (app : CoreApplication H) : Prop :=
  ∀ (threadId : ThreadId) v, app.supervisor.threads[threadId]? = some v →
    Supervises app.store.domain.projections threadId v

/-- The journal is this one, and the supervisor agrees with it. -/
def Agrees (d : DomainStore) (threadId : ThreadId) (x : Supervised H) : Prop :=
  x.store.domain = d ∧ Supervises d.projections threadId x.supervisor

variable {threadId : ThreadId} {v : ThreadRuntimeSupervisor} {app : CoreApplication H}
  {e : DomainEvent} {event : RuntimeEvent}

omit [SerdeJsonWriter] in
theorem Supervises.follows {p : Projections} {v' : ThreadRuntimeSupervisor}
    (h : Supervises p threadId v) (hv : Follows v v') : Supervises p threadId v' := by
  refine ⟨hv.threadId.trans h.own, h.thread, fun turnId hrun => ?_⟩
  rcases hv.running with hnone | hsame
  · rw [hnone] at hrun
    cases hrun
  · exact h.turn turnId (hsame ▸ hrun)

/-- Any call of the harness. -/
def Anything (_ _ : H) : Prop := True

theorem quiet_anything [HarnessRuntimePort H] : Quiet (Anything (H := H)) where
  createSession _ _ _ := trivial
  resumeSession _ _ _ _ := trivial
  cancelTurn _ _ := trivial
  decidePermission _ _ _ _ := trivial
  pollEvent _ _ := trivial
  closeSession _ _ := trivial

theorem stable_agrees (d : DomainStore) (threadId : ThreadId) :
    Stable Anything (Agrees (H := H) d threadId) where
  store _ _ h hx := ⟨h.domain.trans hx.1, hx.2⟩
  harness _ _ _ hx := hx
  supervisor _ _ hv hx := ⟨hx.1, hx.2.follows hv⟩

/-- A thread's call that leaves the journal alone. -/
theorem watched_put {x : Supervised H} (h : Watched app) (hx : Agrees app.store.domain threadId x) :
    Watched { app with supervisor := .put threadId app.supervisor x } := by
  intro threadId' v hv
  have hdomain : x.store.domain = app.store.domain := hx.1
  change Supervises x.store.domain.projections threadId' v
  rw [hdomain]
  change (app.supervisor.threads.insert threadId x.supervisor)[threadId']? = some v at hv
  rw [Table.getElem?_insert_eq] at hv
  split at hv
  · rename_i heq
    cases hv
    exact heq ▸ hx.2
  · exact h threadId' v hv

/-- An accepted event that ends no turn its thread is at work on. -/
theorem watched_append {o : AppendOutcome} {store : Store}
    (h : app.store.appendDomainEvent e = .ok (o, store))
    (hclose : ∀ threadId v turnId, e.threadId = some threadId →
      app.supervisor.threads[threadId]? = some v → running v.state = some turnId →
      closesTurn turnId.asStr e = false) (hw : Watched app) : Watched (app.setStore store) := by
  intro threadId v hv
  have hs := hw threadId v hv
  refine ⟨hs.own, mem_thread_append h hs.thread, fun turnId hrun => ?_⟩
  obtain ⟨domain, happend, rfl⟩ := Store.appendDomainEvent_cases h
  rcases Storage.appendDomainEvent_cases happend with
    ⟨row, -, -, -, rfl⟩ | ⟨p, -, -, hvalid, hfold, -, rfl⟩
  · exact hs.turn turnId hrun
  · exact openTurn_step hvalid hfold (hs.turn turnId hrun)
      fun hthread => hclose threadId v turnId hthread hv hrun

theorem appStable_watched : AppStable Anything (Watched (H := H)) where
  scratch _ _ _ h := h
  context app store h hw threadId v hv := by
    change Supervises store.domain.projections threadId v
    rw [h.domain]
    exact hw threadId v hv
  append _ _ _ _ he h hw := watched_append h (fun _ _ _ _ _ _ => he _) hw
  thread app threadId v hw hv := by
    refine ⟨Agrees app.store.domain threadId, stable_agrees _ _, ⟨rfl, ?_⟩,
      fun x hx => watched_put hw hx⟩
    rcases hv with hv | ⟨rfl, hknown⟩
    · exact hw threadId v hv
    · exact ⟨rfl, known_iff.1 hknown, fun turnId hrun => by cases hrun⟩

/-! ## Prompts -/

/-- The supervisor is not at work on the turn. -/
def NotAt (turnId : TurnId) (v : ThreadRuntimeSupervisor) : Prop := running v.state ≠ some turnId

omit [SerdeJsonWriter] in
theorem NotAt.follows {turnId : TurnId} {v' : ThreadRuntimeSupervisor} (h : NotAt turnId v)
    (hv : Follows v v') : NotAt turnId v' := by
  unfold NotAt
  rcases hv.running with hnone | hsame
  · rw [hnone]
    exact (Option.some_ne_none turnId).symm
  · rw [hsame]
    exact h

theorem stable_notAt (turnId : TurnId) :
    Stable Anything fun x : Supervised H => NotAt turnId x.supervisor where
  store _ _ _ hx := hx
  harness _ _ _ hx := hx
  supervisor _ _ hv hx := hx.follows hv

section Prompt

variable [HarnessRuntimePort H] [DefaultHasher] [ErrorText]

/-- A prompt of a turn that is open: the supervisor is at work on it only if the
prompt went well. -/
theorem agrees_prompt {d : DomainStore} {turnId : TurnId}
    (hopen : OpenTurn d.projections threadId turnId) (operationId : OperationId)
    (content : String) (now : UInt64) :
    Proc.Spec (fun x : Supervised H => Agrees d threadId x ∧ NotAt turnId x.supervisor)
      (prompt operationId turnId content now) (fun _ => Agrees d threadId)
      (fun _ x => Agrees d threadId x ∧ NotAt turnId x.supervisor) (Agrees d threadId) := by
  have hJ := (stable_agrees (H := H) d threadId).and (stable_notAt turnId)
  have hports := hJ.toPortStable
  have hkeep {α : Type} {m : Proc (Supervised H) RuntimeError α}
      (hm : Proc.Keeps (fun x => Agrees d threadId x ∧ NotAt turnId x.supervisor) m) :
      Proc.Spec (fun x => Agrees d threadId x ∧ NotAt turnId x.supervisor) m
        (fun _ x => Agrees d threadId x ∧ NotAt turnId x.supervisor)
        (fun _ x => Agrees d threadId x ∧ NotAt turnId x.supervisor) (Agrees d threadId) :=
    hm.mono (fun _ h => h) (fun _ _ h => h) (fun _ _ h => h) fun _ h => h.1
  refine .bind (hkeep .get) fun x => .bind (hkeep (.ofExcept _)) fun sessionId => ?_
  split
  · exact .pure fun _ h => h.1
  · exact .fail fun _ h => h
  · refine .bind (hkeep (.modify fun y hy => hJ.supervisor y _ ⟨rfl, .inr rfl⟩ hy)) fun _ =>
      .bind (hkeep (keeps_intent hports _)) fun _ =>
        .bind (hkeep (.attempt (keeps_callHarness hports fun _ => trivial))) fun r => ?_
    split
    · exact .bind (hkeep (.ignore (keeps_settle hports _))) fun _ =>
        .bind (hkeep (.ignore (keeps_settle hports _))) fun _ =>
          .bind (hkeep (keeps_rest hJ (fun _ => rfl) fun _ => rfl)) fun _ => .fail fun _ h => h
    · refine .bind (hkeep (keeps_settle hports _)) fun _ =>
        .bind (M := fun _ => Agrees d threadId) (.modify fun y hy => ⟨hy.1.1, ?_⟩) fun _ =>
          .pure fun _ h => h
      refine ⟨hy.1.2.own, hy.1.2.thread, fun turn hrun => ?_⟩
      cases hrun
      exact hopen

/-- The turn was just opened, and its thread is not at work on it. -/
def Opened (threadId : ThreadId) (turnId : TurnId) (app : CoreApplication H) : Prop :=
  Watched app ∧ OpenTurn app.store.domain.projections threadId turnId ∧
    ∀ v, app.supervisor.threads[threadId]? = some v → NotAt turnId v

/-- The thread is not at work on the turn. -/
def Left (threadId : ThreadId) (turnId : TurnId) (app : CoreApplication H) : Prop :=
  Watched app ∧ ∀ v, app.supervisor.threads[threadId]? = some v → NotAt turnId v

omit [HarnessRuntimePort H] [DefaultHasher] [ErrorText] in
/-- Ending a turn its thread is not at work on. -/
theorem watched_end {o : AppendOutcome} {store : Store} {turnId : TurnId}
    (h : app.store.appendDomainEvent e = .ok (o, store)) (hthread : e.threadId = some threadId)
    (hturn : e.turnId = some turnId) (hleft : Left threadId turnId app) :
    Watched (app.setStore store) := by
  refine watched_append h (fun threadId' v turn ht hv hrun => ?_) hleft.1
  rw [hthread, Option.some.injEq] at ht
  subst ht
  have hne : turn ≠ turnId := by
    rintro rfl
    exact hleft.2 v hv hrun
  have hstr : turnId.asStr ≠ turn.asStr := fun heq => hne (Id.asStr_inj.1 heq).symm
  simp [closesTurn, hturn, hstr]

omit [HarnessRuntimePort H] [DefaultHasher] in
theorem spec_persistTurnFailed (threadId : ThreadId) (turnId : TurnId) (operationId : OperationId)
    (promptErr : RuntimeError) (now : UInt64) :
    Proc.Spec (Left (H := H) threadId turnId)
      (persistTurnFailed threadId turnId operationId promptErr now) (fun _ => Watched)
      (fun _ => Watched) fun _ => True := by
  refine .bind (M := fun _ => Left threadId turnId)
    (.ofExcept (fun _ _ _ h => h) fun _ _ _ h => h.1) fun payload => ?_
  refine .bind (M := fun _ => Left threadId turnId)
    (.bind (M := fun _ => Left threadId turnId) (.get fun _ h => h) fun _ =>
      .bind (M := fun _ => Left threadId turnId) (.modify fun _ h => h) fun _ =>
        .pure fun _ h => h) fun eventId => ?_
  exact .bind (M := fun _ => Watched) (spec_appendDomainEvent
    (fun _ _ _ h hs => watched_end h rfl rfl hs) (fun _ _ _ hs => hs.1) fun _ _ => trivial)
    fun _ => .pure fun _ h => h

/-- Sending a turn that was just opened. -/
theorem watched_deliverPrompt (operationId : OperationId) (threadId : ThreadId) (turnId : TurnId)
    (wirePrompt : String) (now : UInt64) :
    Proc.Spec (Opened (H := H) threadId turnId)
      (deliverPrompt operationId threadId turnId wirePrompt now) (fun _ => Watched)
      (fun _ => Watched) fun _ => True := by
  refine .bind (M := fun r app => Watched app ∧ ∀ err, r = .error err → Left threadId turnId app)
    (.attempt (spec_onThread ?_ fun app v h hv => ?_)) fun r => ?_
  · exact fun app h _ => ⟨h.1, fun _ _ => ⟨h.1, h.2.2⟩⟩
  · refine (agrees_prompt h.2.1 operationId wirePrompt 0).mono ?_ ?_ ?_ fun _ _ => trivial
    · rintro x rfl
      exact ⟨⟨rfl, h.1 threadId v hv⟩, h.2.2 v hv⟩
    · exact fun _ x hx => ⟨watched_put h.1 hx, fun _ herr => by cases herr⟩
    · refine fun _ x hx => ⟨watched_put h.1 hx.1, fun _ _ => ⟨watched_put h.1 hx.1, fun v' hv' => ?_⟩⟩
      change (app.supervisor.threads.insert threadId x.supervisor)[threadId]? = some v' at hv'
      rw [Table.getElem?_insert_same, Option.some.injEq] at hv'
      exact hv' ▸ hx.2
  · split
    · refine .bind ((keeps_publish_unstored appStable_watched _ _ _ _).mono (fun _ h => h.1)
        (fun _ _ h => h) (fun _ _ h => h) fun _ _ => trivial) fun _ => .pure fun _ h => h
    · exact .pure fun _ h => h.1
    · refine .bind (M := fun _ => Watched)
        (.attempt ((spec_persistTurnFailed threadId turnId operationId _ now).mono
          (fun _ h => h.2 _ rfl) (fun _ _ h => h) (fun _ _ h => h) fun _ h => h)) fun r => ?_
      split <;> exact .fail fun _ h => h

omit [HarnessRuntimePort H] [DefaultHasher] [ErrorText] in
/-- The start of a turn that is not journaled yet. -/
theorem watched_persistTurnStarted (app : CoreApplication H) (threadId : ThreadId)
    (turnId : TurnId) (operationId : OperationId) (content : String) (now : UInt64)
    (hok : ¬ Regenerated app turnId now) :
    Proc.Spec (fun s => s = app ∧ Watched s)
      (persistTurnStarted threadId turnId operationId content now)
      (fun _ => Opened threadId turnId) (fun _ => Watched) fun _ => True := by
  refine .bind (M := fun _ s => s = app ∧ Watched s)
    (.ofExcept (fun _ _ _ h => h) fun _ _ _ h => h.2) fun payload => ?_
  refine .bind (M := fun eventId s => s.store = app.store ∧ eventId = eventIdOf now app.counter
    ∧ Watched s) ?_ fun eventId => ?_
  · refine .bind (M := fun x s => x = app ∧ s = app ∧ Watched s) (.get fun s h => ⟨h.1, h⟩)
      fun x => ?_
    refine .bind (M := fun _ s => x = app ∧ s.store = app.store ∧ Watched s)
      (.modify fun s h => ⟨h.1, h.2.1 ▸ rfl, h.2.2⟩) fun _ => ?_
    exact .pure fun s h => ⟨h.2.1, h.1 ▸ rfl, h.2.2⟩
  · refine .bind (M := fun _ => Opened threadId turnId) ?_ fun _ => .pure fun _ h => h
    refine spec_appendDomainEvent (fun s o store h hs => ?_) (fun _ _ _ hs => hs.2.2)
      fun _ _ => trivial
    obtain ⟨hstore, rfl, hw⟩ := hs
    have hwatched : Watched (s.setStore store) :=
      watched_append h (fun _ _ _ _ _ _ => by simp [closesTurn, terminalState]) hw
    obtain ⟨domain, happend, rfl⟩ := Store.appendDomainEvent_cases h
    rcases Storage.appendDomainEvent_cases happend with
      ⟨row, hrow, heq, -, -⟩ | ⟨p, -, -, hvalid, hfold, -, rfl⟩
    · exfalso
      rw [hstore] at hrow
      refine hok ⟨row, hrow, ?_, ?_, ?_⟩ <;> rw [heq] <;> rfl
    · refine ⟨hwatched, openTurn_of_started hvalid hfold rfl rfl rfl, fun v hv hrun => ?_⟩
      obtain ⟨turn, thread, hturn, -, hnone⟩ := validate_turnStarted hvalid rfl
      cases hturn
      obtain ⟨row, hrow, -⟩ := openTurn_iff.1 ((hw threadId v hv).turn turnId hrun)
      rw [hnone] at hrow
      cases hrow

/-- Starting a turn. -/
theorem watched_startPromptEnvelope (app : CoreApplication H) (operationId : OperationId)
    (threadId : ThreadId) (turnId : TurnId) (content : String) (now : UInt64)
    (assemble : Store → Except CoreAppError AssembledContext)
    (hok : ¬ Regenerated app turnId now) :
    Proc.Spec (fun s => s = app ∧ Watched s)
      (startPromptEnvelope operationId threadId turnId content now assemble)
      (fun _ => Watched) (fun _ => Watched) fun _ => True := by
  have hcheck {α : Type} (r : Except CoreAppError α) :
      Proc.Spec (fun s => s = app ∧ Watched s) (Proc.ofExcept r)
        (fun _ s => s = app ∧ Watched s) (fun _ => Watched) fun _ => True :=
    .ofExcept (fun _ _ _ h => h) fun _ _ _ h => h.2
  refine .bind (M := fun _ s => s = app ∧ Watched s) (.get fun _ h => h) fun x => ?_
  split
  · exact .fail fun _ h => h.2
  refine .bind (hcheck _) fun _ => .bind (hcheck _) fun admission => ?_
  split
  · exact .pure fun _ h => h.2
  refine .bind (hcheck _) fun assembled =>
    .bind (watched_persistTurnStarted app threadId turnId operationId content now hok) fun _ => ?_
  have hsnapshot : Proc.Keeps (Opened (H := H) threadId turnId)
      (recordContextSnapshot assembled.snapshot) :=
    spec_recordContextSnapshot fun app store h hopened =>
      ⟨appStable_watched.context app store h hopened.1, by
        change OpenTurn store.domain.projections threadId turnId
        rw [h.domain]
        exact hopened.2.1, hopened.2.2⟩
  refine .bind (hsnapshot.attempt.mono (fun _ h => h) (fun _ _ h => h) (fun _ _ h => h.1)
    fun _ _ => trivial) fun r => ?_
  split
  · refine .bind (M := fun _ => Watched) ?_ fun _ => .fail fun _ h => h
    exact .ignore ((spec_persistTurnFailed threadId turnId operationId _ now).mono
      (fun _ h => ⟨h.1, h.2.2⟩) (fun _ _ h => h) (fun _ _ h => h) fun _ h => h)
  · exact watched_deliverPrompt operationId threadId turnId _ now

end Prompt

/-! ## Polling -/

/-- What a supervisor makes of a harness event. -/
def reported (v : ThreadRuntimeSupervisor) : HarnessEvent → Option RuntimeEvent
  | .started turnId => some (.turnStarted v.threadId turnId)
  | .messageDelta text =>
    match v.state.activeTurnId with
    | some turnId => some (.messageDelta v.threadId turnId text)
    | none => some (untracked v "untracked.message_delta" text)
  | .permissionRequest eventId kind description =>
    match v.state with
    | .prompting turnId _ _ =>
      some (.permissionRequested v.threadId turnId eventId kind description)
    | _ => none
  | .completed payload =>
    match v.state.activeWork with
    | some (turnId, _) => some (.turnCompleted v.threadId turnId payload)
    | none => some (untracked v "untracked.completed" (completedText payload))
  | .cancelled =>
    match v.state.activeWork with
    | some (turnId, _) => some (.turnCancelled v.threadId turnId)
    | none => some (untracked v "untracked.cancelled" "cancelled without active turn")
  | .failed error delivery =>
    match v.state.activeWork with
    | some (turnId, _) => some (.turnFailed v.threadId turnId error delivery)
    | none => some (untracked v "untracked.failed" error)
  | .processExited exitCode => some (.processExited v.threadId exitCode)
  | .toolCall toolCallId status =>
    match v.state.activeTurnId with
    | some turnId => some (.toolCall v.threadId turnId toolCallId status)
    | none => some (untracked v "untracked.tool_call" toolCallId)
  | .rawUnknown name data => some (.unknown v.threadId name (.fromRaw data))

theorem thread_reported {ev : HarnessEvent} (h : reported v ev = some event) :
    extractThreadId event = v.threadId := by
  unfold reported at h
  split at h
  all_goals first
    | (cases h; rfl)
    | (split at h <;> cases h <;> rfl)

/-- What applying an event returns, and that the end of a turn leaves the
supervisor at rest. -/
def Applied (d : DomainStore) (threadId : ThreadId) (expected r : Option RuntimeEvent)
    (x : Supervised H) : Prop :=
  r = expected ∧ Agrees d threadId x ∧
    ∀ event, r = some event → endsTurn event = true → running x.supervisor.state = none

theorem spec_applyEvent {d : DomainStore} (v : ThreadRuntimeSupervisor) (ev : HarnessEvent)
    (now : UInt64) :
    Proc.Spec (fun x : Supervised H => x.supervisor = v ∧ Agrees d threadId x)
      (applyEvent ev now) (Applied d threadId (reported v ev)) (fun _ => Agrees d threadId)
      (Agrees d threadId) := by
  have hJ := stable_agrees (H := H) d threadId
  have hports := hJ.toPortStable
  have hstep : Proc.Spec (fun x : Supervised H => x.supervisor = v ∧ Agrees d threadId x)
      Proc.get (fun x s => x.supervisor = v ∧ s.supervisor = v ∧ Agrees d threadId s)
      (fun _ : RuntimeError => Agrees d threadId) (Agrees d threadId) :=
    .get fun x h => ⟨h.1, h⟩
  refine .bind hstep fun x => ?_
  intro s n hs
  obtain ⟨rfl, hs⟩ := hs
  revert s n
  change Proc.Spec (fun s : Supervised H => s.supervisor = x.supervisor ∧ Agrees d threadId s) _ _ _ _
  -- an event that ends no turn
  have hpure {event : RuntimeEvent} (hends : endsTurn event = false) :
      Proc.Spec (fun s : Supervised H => s.supervisor = x.supervisor ∧ Agrees d threadId s)
        (pure (some event)) (Applied d threadId (some event)) (fun _ : RuntimeError => Agrees d threadId)
        (Agrees d threadId) :=
    .pure fun _ h => ⟨rfl, h.2, fun _ heq hend => by
      cases heq
      rw [hends] at hend
      cases hend⟩
  -- a turn that is finished
  have hfinish (turnId : TurnId) (operationId : OperationId) (state : TurnState)
      (delivery : DeliveryState) (next : SupervisorState) (hnext : running next = none)
      (event : RuntimeEvent) :
      Proc.Spec (fun s : Supervised H => s.supervisor = x.supervisor ∧ Agrees d threadId s)
        (do
          finishTurn turnId operationId state delivery next now
          pure (some event)) (Applied d threadId (some event)) (fun _ : RuntimeError => Agrees d threadId)
        (Agrees d threadId) := by
    refine .bind (M := fun _ s => Agrees d threadId s ∧ running s.supervisor.state = none)
      (.bind (M := fun _ => Agrees d threadId) (.get fun _ h => h.2) fun _ =>
        .bind (keeps_settle hports _) fun _ => .modify fun y hy => ?_) fun _ =>
          .pure fun _ h => ⟨rfl, h.1, fun _ _ _ => h.2⟩
    exact ⟨hJ.supervisor y _ ⟨rfl, .inl hnext⟩ hy, hnext⟩
  cases ev with
  | started | rawUnknown => exact hpure rfl
  | messageDelta | toolCall =>
    dsimp only [reported]
    cases x.supervisor.state.activeTurnId <;> exact hpure rfl
  | permissionRequest eventId kind description =>
    dsimp only [reported]
    cases hstate : x.supervisor.state with
    | prompting turnId operationId delivery =>
      exact .bind (spec_stay hJ (v := x.supervisor) rfl (by rw [hstate]; rfl)) fun _ =>
        .pure fun _ h => ⟨rfl, h, fun _ heq hend => by cases heq; cases hend⟩
    | _ => exact .pure fun _ h => ⟨rfl, h.2, fun _ heq => by cases heq⟩
  | completed | cancelled =>
    dsimp only [reported]
    cases x.supervisor.state.activeWork with
    | none => exact hpure rfl
    | some work => exact hfinish _ _ _ _ _ rfl _
  | failed error delivery =>
    dsimp only [reported]
    cases x.supervisor.state.activeWork with
    | none => exact hpure rfl
    | some work =>
      refine hfinish _ _ _ _ _ ?_ _
      split <;> rfl
  | processExited exitCode =>
    have hexit {m : Proc (Supervised H) RuntimeError Unit}
        (hm : Proc.Keeps (Agrees d threadId) m) :
        Proc.Spec (fun s : Supervised H => s.supervisor = x.supervisor ∧ Agrees d threadId s)
          (do
            m
            pure (some (.processExited x.supervisor.threadId exitCode)))
          (Applied d threadId (some (.processExited x.supervisor.threadId exitCode)))
          (fun _ : RuntimeError => Agrees d threadId) (Agrees d threadId) :=
      .bind (M := fun _ => Agrees d threadId) (hm.mono (fun _ h => h.2) (fun _ _ h => h)
        (fun _ _ h => h) fun _ h => h) fun _ => .pure fun _ h => ⟨rfl, h, fun _ heq hend => by
          cases heq
          cases hend⟩
    dsimp only [reported]
    cases hstate : x.supervisor.state with
    | prompting | awaitingPermission => exact hexit (keeps_crashTurn hJ _ _ _ _)
    | cancelling | ready | idle => exact hexit (keeps_rest hJ (fun _ => rfl) fun _ => rfl)
    | closed | crashed | starting => exact hpure rfl

/-- The thread is at work on nothing. -/
def Rests (threadId : ThreadId) (app : CoreApplication H) : Prop :=
  ∀ v, app.supervisor.threads[threadId]? = some v → running v.state = none

/-- The event is what the thread's supervisor makes of the next event of its
session. -/
def Reported [HarnessRuntimePort H] (app : CoreApplication H) (threadId : ThreadId)
    (v : ThreadRuntimeSupervisor) (event : RuntimeEvent) : Prop :=
  app.supervisor.threads[threadId]? = some v ∧
    ∃ sessionId ev, v.sessionId = some sessionId ∧
      (HarnessRuntimePort.pollEvent app.supervisor.harness sessionId).1 = .ok (some ev) ∧
        reported v ev = some event

/-- The application after a supervisor was polled. -/
structure AfterPoll [HarnessRuntimePort H] (app : CoreApplication H) (threadId : ThreadId)
    (r : Option RuntimeEvent) (s : CoreApplication H) : Prop where
  watched : Watched s
  domain : s.store.domain = app.store.domain
  counter : s.counter = app.counter
  log : s.log = app.log
  reported : ∀ event, r = some event → ∃ v, Reported app threadId v event
  rests : ∀ event, r = some event → endsTurn event = true → Rests threadId s

section Poll

variable [HarnessRuntimePort H]

theorem spec_poll (app : CoreApplication H) (threadId : ThreadId) (hw : Watched app) (now : UInt64) :
    Proc.Spec (· = app) (onRuntime (AgentRuntimeSupervisor.onThread threadId (pollStream now)))
      (AfterPoll app threadId) (fun _ => Watched) fun _ => True := by
  refine spec_onThread (fun s hs _ => hs ▸ hw) fun s v hs hv => ?_
  subst hs
  -- what the two ways of returning nothing leave behind
  have hnone (x : Supervised H) (hx : Agrees s.store.domain threadId x) :
      AfterPoll s threadId none { s with supervisor := .put threadId s.supervisor x } :=
    ⟨watched_put hw hx, hx.1, rfl, rfl, fun _ h => (by cases h), fun _ h => (by cases h)⟩
  have hagrees : Agrees s.store.domain threadId (AgentRuntimeSupervisor.view v s.supervisor) :=
    ⟨rfl, hw threadId v hv⟩
  refine .bind (M := fun x y => x = AgentRuntimeSupervisor.view v s.supervisor
    ∧ y = AgentRuntimeSupervisor.view v s.supervisor) (.get fun _ h => ⟨h, h⟩) fun x => ?_
  split
  · refine .pure fun y hy => ?_
    obtain ⟨-, rfl⟩ := hy
    exact hnone _ hagrees
  · rename_i sessionId hsession
    refine .bind (M := fun r y => (x.supervisor = v ∧ y.supervisor = v)
      ∧ Agrees s.store.domain threadId y ∧
        (HarnessRuntimePort.pollEvent s.supervisor.harness sessionId).1 = .ok r)
      (.mapError (.act ?_ ?_ fun _ _ => trivial)) fun r => ?_
    · rintro y r ⟨rfl, rfl⟩ hr
      exact ⟨⟨rfl, rfl⟩, hagrees, hr⟩
    · rintro y e ⟨-, rfl⟩ -
      exact watched_put hw hagrees
    · split
      · exact .pure fun y hy => hnone y hy.2.1
      · rename_i ev
        intro y n hy
        obtain ⟨⟨hxv, hyv⟩, hyagrees, hev⟩ := hy
        have happly : Proc.Spec (fun x : Supervised H => x.supervisor = v ∧
            Agrees s.store.domain threadId x) (applyEvent ev now)
            (fun r x => AfterPoll s threadId r
              { s with supervisor := .put threadId s.supervisor x })
            (fun _ x => Watched { s with supervisor := .put threadId s.supervisor x })
            fun _ => True :=
          (spec_applyEvent v ev now).mono (fun _ h => h) (fun r z hz => ?_)
            (fun _ z hz => watched_put hw hz) fun _ _ => trivial
        · exact happly y n ⟨hyv, hyagrees⟩
        refine ⟨watched_put hw hz.2.1, hz.2.1.1, rfl, rfl, fun event hr => ?_, fun event hr hend => ?_⟩
        · exact ⟨v, hv, sessionId, ev, hxv ▸ hsession, hev, hz.1 ▸ hr⟩
        · intro v' hv'
          change (s.supervisor.threads.insert threadId z.supervisor)[threadId]? = some v' at hv'
          rw [Table.getElem?_insert_same, Option.some.injEq] at hv'
          exact hv' ▸ hz.2.2 event hr hend

end Poll

/-! ## Publishing -/

/-- The kind and the members of the record of a runtime event. -/
def recordOf : RuntimeEvent → Option (DomainEventKind × List (String × Scalar))
  | .turnStarted _ _ => none
  | .messageDelta tid trnid text => some (.messageDelta,
      [("thread_id", .string tid.asStr), ("turn_id", .string trnid.asStr), ("text", .string text)])
  | .permissionRequested tid trnid permissionId kind description => some (.permissionRequested,
      [("thread_id", .string tid.asStr), ("turn_id", .string trnid.asStr),
        ("permission_id", .string permissionId.asStr), ("permission_kind", .string kind.asStr),
        ("description", .string description.asStr)])
  | .toolCall tid trnid toolCallId status => some (.other "tool.call",
      [("thread_id", .string tid.asStr), ("turn_id", .string trnid.asStr),
        ("tool_call_id", .string toolCallId), ("status", optString status)])
  | .turnCompleted tid trnid payload => some (.turnCompleted,
      [("thread_id", .string tid.asStr), ("turn_id", .string trnid.asStr),
        ("content", .string ((payload.map fun p => SerdeJsonWriter.text p.asBytes).getD ""))])
  | .turnCancelled tid trnid => some (.turnCancelled,
      [("thread_id", .string tid.asStr), ("turn_id", .string trnid.asStr)])
  | .turnFailed tid trnid reason delivery => some (.turnFailed,
      [("thread_id", .string tid.asStr), ("turn_id", .string trnid.asStr),
        ("reason", .string reason), ("delivery", .string delivery.asStr)])
  | .processExited tid exitCode => some (.other "process.exited",
      [("thread_id", .string tid.asStr), ("exit_code", optExitCode exitCode)])
  | .unknown tid name summary => some (.other (unknownKindName name),
      [("thread_id", .string tid.asStr), ("name", .string name),
        ("summary", .string summary.asStr)])

theorem mapRuntimeToDomainEvent_eq (ctx : EventContext) (event : RuntimeEvent) :
    mapRuntimeToDomainEvent ctx event = match recordOf event with
      | none => .ok none
      | some (kind, fields) => some <$> ctx.intoDomainEvent kind fields := by
  cases event <;> rfl

/-- A record is the record of its event, in the scope it is made for. -/
theorem of_mapRuntimeToDomainEvent {ctx : EventContext}
    (h : mapRuntimeToDomainEvent ctx event = .ok (some e)) :
    ∃ kind fields, recordOf event = some (kind, fields) ∧
      ctx.intoDomainEvent kind fields = .ok e := by
  rw [mapRuntimeToDomainEvent_eq] at h
  split at h
  · cases h
  · rename_i kind fields hrecord
    obtain ⟨e', he', heq⟩ := map_eq_ok.1 h
    cases heq
    exact ⟨kind, fields, hrecord, he'⟩

theorem of_intoDomainEvent {ctx : EventContext} {kind : DomainEventKind}
    {fields : List (String × Scalar)} (h : ctx.intoDomainEvent kind fields = .ok e) : ∃ payload,
      EventPayload.tryFrom (SerdeJsonWriter.toVec (.flat fields)) = .ok payload ∧
        e = ⟨ctx.eventId, ctx.threadId, ctx.turnId, ctx.operationId, kind, payload,
          ctx.occurredAt⟩ := by
  unfold EventContext.intoDomainEvent at h
  split at h
  · cases h
    exact ⟨_, ‹_›, rfl⟩
  · cases h

/-- Only the end of a turn is recorded as one. -/
theorem terminalState_recordOf {kind : DomainEventKind} {fields : List (String × Scalar)}
    (h : recordOf event = some (kind, fields)) (hends : endsTurn event = false) :
    terminalState kind = none := by
  cases event <;> cases h <;> first
    | rfl
    | cases hends

/-- A runtime event with what is known of its thread. -/
def Pending (threadId : ThreadId) (event : RuntimeEvent) (app : CoreApplication H) : Prop :=
  Watched app ∧ (endsTurn event = true → Rests threadId app)

/-- The record of an event whose end leaves the thread at rest. -/
theorem watched_record {ctx : EventContext} {o : AppendOutcome} {store : Store}
    (hmap : mapRuntimeToDomainEvent ctx event = .ok (some e))
    (hctx : ctx.threadId = some threadId) (h : app.store.appendDomainEvent e = .ok (o, store))
    (hp : Pending threadId event app) : Watched (app.setStore store) := by
  obtain ⟨kind, fields, hrecord, hinto⟩ := of_mapRuntimeToDomainEvent hmap
  obtain ⟨payload, -, rfl⟩ := of_intoDomainEvent hinto
  refine watched_append h (fun threadId' v turnId hthread hv hrun => ?_) hp.1
  cases hends : endsTurn event with
  | true =>
    rw [show ctx.threadId = some threadId' from hthread, Option.some.injEq] at hctx
    subst hctx
    rw [hp.2 hends v hv] at hrun
    cases hrun
  | false => simp [closesTurn, terminalState_recordOf hrecord hends]

theorem watched_journal (ctx : EventContext) (threadId : ThreadId) (event : RuntimeEvent)
    (hctx : ctx.threadId = some threadId) :
    Proc.Spec (Pending (H := H) threadId event) (journalRuntimeEvent ctx event)
      (fun _ => Watched) (fun _ => Watched) fun _ => True := by
  refine .bind (M := fun _ => Pending threadId event) (.get fun _ h => h) fun s => ?_
  split
  · refine .bind (M := fun r app => Pending threadId event app ∧
      mapRuntimeToDomainEvent ctx event = .ok r) (.ofExcept (fun _ _ hr h => ⟨h, hr⟩)
        fun _ _ _ h => h.1) fun r => ?_
    split
    · exact .pure fun _ h => h.1.1
    · exact .bind (M := fun _ => Watched) (spec_appendDomainEvent
        (fun app o store h hp => watched_record hp.2 hctx h hp.1) (fun _ _ _ hp => hp.1.1)
          fun _ _ => trivial) fun _ => .pure fun _ h => h
  · exact .pure fun _ h => h.1

theorem watched_publish (threadId : ThreadId) (event : RuntimeEvent) (now : UInt64)
    (hthread : extractThreadId event = threadId) :
    Proc.Spec (Pending (H := H) threadId event) (publishRuntimeEvent event none none now true)
      (fun _ => Watched) (fun _ => Watched) fun _ => True := by
  have hid : Proc.Spec (Pending (H := H) threadId event) (publishedId event now)
      (fun _ => Pending threadId event) (fun _ => Watched) fun _ => True := by
    unfold publishedId
    split
    · exact .pure fun _ h => h
    · exact .bind (M := fun _ => Pending threadId _) (.get fun _ h => h) fun _ =>
        .bind (M := fun _ => Pending threadId _) (.modify fun _ h => h) fun _ => .pure fun _ h => h
  refine .bind hid fun eventId =>
    .bind (watched_journal _ threadId event (congrArg some hthread)) fun _ => ?_
  exact (Proc.Keeps.bind (.ofExcept _) fun _ => keeps_sequenceEnvelope appStable_watched _).mono
    (fun _ h => h) (fun _ _ h => h) (fun _ _ h => h) fun _ _ => trivial

section Calls

variable [HarnessRuntimePort H]

theorem watched_pollThreadEvents (app : CoreApplication H) (threadId : ThreadId) (now : UInt64)
    (hw : Watched app) :
    Proc.Spec (· = app) (pollThreadEvents threadId now) (fun _ => Watched) (fun _ => Watched)
      fun _ => True := by
  refine .bind (.mapError (spec_poll app threadId hw 0)) fun r => ?_
  split
  · exact .pure fun _ h => h.watched
  · rename_i event
    refine .bind (M := fun _ => Watched) ?_ fun _ => .pure fun _ h => h
    intro s n hs
    obtain ⟨v, hv, -, ev, -, -, hev⟩ := hs.reported event rfl
    have hthread : extractThreadId event = threadId :=
      (thread_reported hev).trans (hw threadId v hv).own
    exact watched_publish threadId event now hthread s n ⟨hs.watched, hs.rests event rfl⟩

variable [DefaultHasher] [ErrorText]

/-- A turn that is being cancelled is not waited for. -/
theorem spec_steerCancel (d : DomainStore) (threadId : ThreadId) (now : UInt64) :
    Proc.Spec (Agrees (H := H) d threadId) (steerCancel now)
      (fun r x => Agrees d threadId x ∧ (r = .cancelledActive → running x.supervisor.state = none))
      (fun _ => Agrees d threadId) (Agrees d threadId) := by
  have hJ := stable_agrees (H := H) d threadId
  have hactive (v : ThreadRuntimeSupervisor) : Proc.Spec (Agrees (H := H) d threadId)
      (cancelActive v now) (fun r x => Agrees d threadId x ∧
        (r = .cancelledActive → running x.supervisor.state = none))
      (fun _ => Agrees d threadId) (Agrees d threadId) := by
    unfold cancelActive
    split
    · refine .bind (keeps_intent hJ.toPortStable _) fun _ =>
        .bind (keeps_callHarness hJ.toPortStable fun _ => trivial).mapError fun _ => ?_
      exact .bind (M := fun _ x => Agrees d threadId x ∧ running x.supervisor.state = none)
        (.modify fun x hx => ⟨hJ.supervisor x _ ⟨rfl, .inl rfl⟩ hx, rfl⟩) fun _ =>
          .pure fun _ h => ⟨h.1, fun _ => h.2⟩
    · exact .fail fun _ h => h
  have hnone {r : CancelOutcome} (hr : r ≠ .cancelledActive) :
      Proc.Spec (Agrees (H := H) d threadId) (pure r) (fun r x => Agrees d threadId x ∧
        (r = .cancelledActive → running x.supervisor.state = none))
        (fun _ : RuntimeError => Agrees d threadId) (Agrees d threadId) :=
    .pure fun _ h => ⟨h, fun heq => absurd heq hr⟩
  refine .bind Proc.Keeps.get fun x => .bind (Proc.Keeps.ofExcept _) fun _ => ?_
  split
  · exact hnone (by decide)
  · exact hactive _
  · exact hactive _
  · exact hnone (by decide)

theorem watched_cancelTurn (operationId : OperationId) (threadId : ThreadId) (now : UInt64) :
    Proc.Spec (Watched (H := H)) (cancelTurn operationId threadId now) (fun _ => Watched)
      (fun _ => Watched) fun _ => True := by
  refine .bind (M := fun _ => Watched) (.get fun _ h => h) fun s => ?_
  refine .bind (M := fun r app => Watched app ∧ (r = .cancelledActive → Rests threadId app))
    (.mapError (spec_onThread (fun _ h _ => h) fun app v h hv => ?_)) fun r => ?_
  · refine (spec_steerCancel app.store.domain threadId 0).mono ?_ ?_
      (fun _ x hx => watched_put h hx) fun _ _ => trivial
    · rintro x rfl
      exact ⟨rfl, h threadId v hv⟩
    · refine fun r x hx => ⟨watched_put h hx.1, fun hr v' hv' => ?_⟩
      change (app.supervisor.threads.insert threadId x.supervisor)[threadId]? = some v' at hv'
      rw [Table.getElem?_insert_same, Option.some.injEq] at hv'
      exact hv' ▸ hx.2 hr
  · split
    · split
      · exact .fail fun _ h => h.1
      · rename_i turnId _
        have hleft (app : CoreApplication H)
            (h : Watched app ∧ (CancelOutcome.cancelledActive = .cancelledActive →
              Rests threadId app)) : Left threadId turnId app :=
          ⟨h.1, fun v hv hrun => by rw [h.2 rfl v hv] at hrun; cases hrun⟩
        refine .bind (M := fun _ => Left threadId turnId)
          (.bind (M := fun _ => Left threadId turnId) (.get hleft) fun _ =>
            .bind (M := fun _ => Left threadId turnId) (.modify fun _ h => h) fun _ =>
              .pure fun _ h => h) fun eventId => ?_
        refine .bind (M := fun _ => Left threadId turnId)
          (.ofExcept (fun _ _ _ h => h) fun _ _ _ h => h.1) fun payload => ?_
        exact .bind (M := fun _ => Watched) (spec_appendDomainEvent
          (fun _ _ _ h hs => watched_end h rfl rfl hs) (fun _ _ _ hs => hs.1) fun _ _ => trivial)
          fun _ => .pure fun _ h => h
    · exact .pure fun _ h => h.1

end Calls

/-! ## Runs -/

section Runs

variable [HarnessRuntimePort H] [DefaultHasher] [ErrorText]

/-- The invariant of a process; one that is down has no supervisors. -/
def Process.Watched : Process H → Prop
  | .up app => Application.Watched app
  | .down _ _ => True

/-- A start that is no retry under an identifier that is taken. -/
def NoRetry (p : Process H) : Input H → Prop
  | .call (.startPrompt _ _ turnId _ now _) _ =>
    match p with
    | .up app => ¬ Regenerated app turnId now
    | .down _ _ => True
  | _ => True

instance (p : Process H) (i : Input H) : Decidable (NoRetry p i) :=
  match p, i with
  | .up app, .call (.startPrompt _ _ turnId _ now _) _ =>
    inferInstanceAs (Decidable (¬ Regenerated app turnId now))
  | .down _ _, .call (.startPrompt ..) _ | _, .call (.createThread ..) _
  | _, .call (.openThread ..) _ | _, .call (.cancelTurn ..) _
  | _, .call (.decidePermission ..) _ | _, .call (.poll ..) _ | _, .call (.closeSession ..) _
  | _, .agents _ | _, .restart _ => .isTrue trivial

omit [HarnessRuntimePort H] [DefaultHasher] [ErrorText] in
theorem watched_afterCall {P : CoreApplication H → Prop}
    {m : Proc (CoreApplication H) CoreAppError Unit}
    (hm : Proc.Spec P m (fun _ => Watched) (fun _ => Watched) fun _ => True) (crash : Option Nat)
    (hP : P app) : (afterCall (m app crash)).Watched := by
  have hrun := hm app crash hP
  unfold afterCall
  revert hrun
  rcases m app crash with ⟨a | e | _, s', n'⟩ <;> exact And.left

/-- Every call keeps the supervisors and the journal in agreement. -/
theorem watched_perform (app : CoreApplication H) (c : Call) (crash : Option Nat)
    (hok : NoRetry (.up app) (.call c crash)) (h : Watched app) :
    (afterCall (perform c app crash)).Watched := by
  have hK := appStable_watched (H := H)
  have hkeep {m : Proc (CoreApplication H) CoreAppError Unit} (hm : Proc.Keeps Watched m) :
      (afterCall (m app crash)).Watched :=
    watched_afterCall (hm.mono (fun _ h => h) (fun _ _ h => h) (fun _ _ h => h)
      fun _ _ => trivial) crash h
  cases c with
  | createThread => exact hkeep (.bind (keeps_createThread hK _ _ _ _ _) fun _ => .pure _)
  | openThread => exact hkeep (keeps_openThread hK quiet_anything _ _)
  | startPrompt operationId threadId turnId content now assemble =>
    exact watched_afterCall (.bind (watched_startPromptEnvelope app operationId threadId turnId
      content now assemble hok) fun _ => .pure fun _ h => h) crash ⟨rfl, h⟩
  | cancelTurn operationId threadId now =>
    exact watched_afterCall (.bind (watched_cancelTurn operationId threadId now)
      fun _ => .pure fun _ h => h) crash h
  | decidePermission => exact hkeep (keeps_decidePermission hK quiet_anything _ _ _ _ _)
  | poll threadId now =>
    exact watched_afterCall (.bind (watched_pollThreadEvents app threadId now h)
      fun _ => .pure fun _ h => h) crash rfl
  | closeSession =>
    exact hkeep (keeps_onThread hK (fun _ hJ => keeps_closeSession quiet_anything hJ 0) _)

/-- Every step keeps the supervisors and the journal in agreement. -/
theorem watched_systemStep (p : Process H) (i : Input H) (h : p.Watched) (hok : NoRetry p i) :
    (systemStep p i).Watched := by
  cases i with
  | call c crash =>
    cases p with
    | up app => exact watched_perform app c crash hok h
    | down harness store => exact h
  | agents f => cases p <;> exact h
  | restart f =>
    change Process.Watched (start _ p.store)
    unfold start
    split
    · intro threadId v hv
      change (∅ : Table ThreadId ThreadRuntimeSupervisor)[threadId]? = some v at hv
      simp at hv
    · exact trivial

/-- No turn is run by the supervisors of two threads. -/
def Process.Exclusive : Process H → Prop
  | .up app => ∀ (a b : ThreadId) v w turnId, app.supervisor.threads[a]? = some v →
      app.supervisor.threads[b]? = some w → running v.state = some turnId →
      running w.state = some turnId → a = b
  | .down _ _ => True

omit [HarnessRuntimePort H] [DefaultHasher] [ErrorText] in
theorem Process.Watched.exclusive {p : Process H} (h : p.Watched) : p.Exclusive := by
  cases p with
  | up app =>
    intro a b v w turnId ha hb hv hw
    have hturn := ((h a v ha).turn turnId hv).symm.trans ((h b w hb).turn turnId hw)
    exact Id.asStr_inj.1 (by simpa using hturn)
  | down => trivial

/-- **Agreement.** In every run whose prompts are no retries, the turn a supervisor is at
work on is open in the journal, in the supervisor's own thread, and no other supervisor
is at work on it. -/
theorem watched_run (harness : H) (store : Store) (inputs : List (Input H))
    (hok : (systemMachine harness store).Meets NoRetry (systemMachine harness store).init inputs) :
    ((systemMachine harness store).run inputs).Watched ∧
      ((systemMachine harness store).run inputs).Exclusive := by
  suffices h : ((systemMachine harness store).run inputs).Watched from ⟨h, h.exclusive⟩
  exact (systemMachine harness store).invariant_of_meets watched_systemStep trivial hok

end Runs

end Journal

section Sample

attribute [local instance] flatWriter plainText linearHasher

theorem watched_run_prompt :
    let p := (systemMachine (⟨∅⟩ : Queued) .empty).run
      (sampleOpen ++ [samplePrompt sampleOperation sampleTurnId 2])
    p.Watched ∧ p.Exclusive := by
  apply watched_run
  decide

end Sample

end Altior.Application
