import Altior.Application.Heard
import Altior.Application.Publish

/-!
# What a cancel command hits

A `cancel` names an operation.  The daemon goes through the supervised threads in order
and ends the first running turn that lets itself be ended; the name is only echoed in the
reply.  A thread whose cancellation cannot be journaled has been struck all the same, and
the walk goes on behind it.
-/

namespace Altior.Application

open Domain Lib Storage Altior.Runtime

section Cancel

variable [SerdeJsonWriter] {H : Type}

/-- The journal of the store. -/
def CoreApplication.journal (app : CoreApplication H) : List DomainJournalRow :=
  app.store.domain.journal

/-- The supervisor of a thread. -/
def CoreApplication.supervised (app : CoreApplication H) (threadId : ThreadId) :
    Option ThreadRuntimeSupervisor :=
  app.supervisor.threads[threadId]?

variable {app : CoreApplication H} {turnId : TurnId}

theorem stateOf_eq_of_supervised {app' : CoreApplication H} {threadId : ThreadId}
    (h : app.supervised threadId = app'.supervised threadId) :
    app.supervisor.stateOf threadId = app'.supervisor.stateOf threadId :=
  congrArg (fun v => (v.map ThreadRuntimeSupervisor.state).getD .idle) h

/-! ## The target -/

/-- A turn of a supervised thread that belongs to the operation. -/
def ActiveFor (app : CoreApplication H) (operationId : OperationId) (threadId : ThreadId)
    (turnId : TurnId) : Prop :=
  ∃ v, app.supervised threadId = some v ∧ v.state.activeWork = some (turnId, operationId)

/-- Only turns of the operation are touched: a supervisor that differs has one, and a row
that was journaled is about one. -/
structure Targeted (operationId : OperationId) (before after : CoreApplication H) : Prop where
  supervised : ∀ threadId, after.supervised threadId ≠ before.supervised threadId →
    ∃ turnId, ActiveFor before operationId threadId turnId
  journal : ∃ rows, after.journal = before.journal ++ rows ∧
    ∀ row ∈ rows, ∃ threadId turnId, ActiveFor before operationId threadId turnId ∧
      row.turnId = some turnId.asStr

/-! ## Turns that can be cancelled -/

/-- The turn a supervisor is at work on, and its operation; a cancelled turn is not waited
for. -/
def runningWork : SupervisorState → Option (TurnId × OperationId)
  | .prompting turnId operationId _ => some (turnId, operationId)
  | .awaitingPermission turnId operationId _ => some (turnId, operationId)
  | _ => none

omit [SerdeJsonWriter] in
theorem activeWork_of_runningWork {state : SupervisorState} {work : TurnId × OperationId}
    (h : runningWork state = some work) : state.activeWork = some work := by
  cases state with
  | prompting => exact h
  | awaitingPermission => exact h
  | _ => cases h

omit [SerdeJsonWriter] in
theorem activeTurnId_of_runningWork {state : SupervisorState} {operationId : OperationId}
    (h : runningWork state = some (turnId, operationId)) : state.activeTurnId = some turnId := by
  cases state with
  | prompting | awaitingPermission => exact congrArg (Option.map Prod.fst) h
  | _ => cases h

variable [HarnessRuntimePort H] [DefaultHasher] [ErrorText]

/-- What it takes for the running turn of a supervisor to be cancelled, apart from the
capability: the store takes the intent, and the harness takes the call. -/
def AcceptsCancel (x : Supervised H) (turnId : TurnId) (operationId : OperationId) : Prop :=
  ∃ sessionId store, x.supervisor.sessionId = some sessionId ∧
    checkpointIntent x.store (.cancel x.supervisor.threadId (some turnId) (some operationId) 0) =
      .ok store ∧
    (HarnessRuntimePort.cancelTurn x.harness sessionId).1 = .ok ()

/-- The supervisor is at work on a turn that can be cancelled. -/
structure Cancellable (x : Supervised H) (turnId : TurnId) (operationId : OperationId) : Prop where
  running : runningWork x.supervisor.state = some (turnId, operationId)
  capable : x.supervisor.checkCapability "session.cancel" = .ok ()
  accepts : AcceptsCancel x turnId operationId

/-- The supervisor of a cancelled turn. -/
def cancelledSupervisor (v : ThreadRuntimeSupervisor) (turnId : TurnId)
    (operationId : OperationId) : ThreadRuntimeSupervisor :=
  { v with state := .cancelling (some turnId) (some operationId) }

/-! ## One thread -/

/-- A call on a supervisor that leaves it as it was and cancels nothing. -/
structure Missed (x : Supervised H) (r : Outcome (Supervised H) RuntimeError CancelOutcome) :
    Prop where
  ending : r.ending ≠ .done .cancelledActive
  left : r.left = none
  supervisor : r.state.supervisor = x.supervisor
  store : x.store.Local r.state.store

variable {x : Supervised H} {v : ThreadRuntimeSupervisor}

section Ports

omit [HarnessRuntimePort H] [DefaultHasher] [ErrorText]

theorem callCheckpoint_ok {f : Store → Except CheckpointError Store} {store : Store}
    (h : f x.store = .ok store) :
    callCheckpoint f x none = ⟨.done (), { x with store := store }, none⟩ := by
  unfold callCheckpoint
  rw [Proc.act_run_none]
  simp only [h]
  rfl

theorem callCheckpoint_error {f : Store → Except CheckpointError Store} {e : CheckpointError}
    (h : f x.store = .error e) : callCheckpoint f x none = ⟨.failed (.checkpoint e), x, none⟩ := by
  unfold callCheckpoint
  rw [Proc.act_run_none]
  simp only [h]
  rfl

theorem callHarness_ok {α : Type} {f : H → Except HarnessError α × H} {a : α}
    (h : (f x.harness).1 = .ok a) :
    (callHarness f).mapError RuntimeError.harness x none =
      ⟨.done a, { x with harness := (f x.harness).2 }, none⟩ := by
  unfold callHarness Proc.mapError
  rw [Proc.act_run_none, h]
  rfl

theorem callHarness_error {α : Type} {f : H → Except HarnessError α × H} {e : HarnessError}
    (h : (f x.harness).1 = .error e) :
    (callHarness f).mapError RuntimeError.harness x none =
      ⟨.failed (.harness e), { x with harness := (f x.harness).2 }, none⟩ := by
  unfold callHarness Proc.mapError
  rw [Proc.act_run_none, h]
  rfl

end Ports

theorem cancelActive_accepted {operationId : OperationId}
    (hwork : x.supervisor.state.activeWork = some (turnId, operationId))
    (h : AcceptsCancel x turnId operationId) :
    ∃ harness store, x.store.Local store ∧
      cancelActive x.supervisor 0 x none = ⟨.done .cancelledActive,
        ⟨cancelledSupervisor x.supervisor turnId operationId, harness, store⟩, none⟩ := by
  obtain ⟨sessionId, store, hsession, hintent, hharness⟩ := h
  refine ⟨(HarnessRuntimePort.cancelTurn x.harness sessionId).2, store,
    local_checkpointIntent hintent, ?_⟩
  unfold cancelActive
  simp only [hwork, hsession]
  rw [Proc.bind_run_done _ _ (callCheckpoint_ok (f := fun s => checkpointIntent s _) hintent)]
  exact Proc.bind_run_done _ _ (callHarness_ok (x := { x with store := store })
    (f := fun h => HarnessRuntimePort.cancelTurn h sessionId) hharness)

theorem cancelActive_refused {operationId : OperationId}
    (hwork : x.supervisor.state.activeWork = some (turnId, operationId))
    (h : ¬ AcceptsCancel x turnId operationId) : Missed x (cancelActive x.supervisor 0 x none) := by
  unfold cancelActive
  cases hsession : x.supervisor.sessionId with
  | none =>
    simp only [hwork]
    exact ⟨(fun h => nomatch h), rfl, rfl, .refl _⟩
  | some sessionId =>
    simp only [hwork]
    cases hintent : checkpointIntent x.store
        (.cancel x.supervisor.threadId (some turnId) (some operationId) 0) with
    | error e =>
      rw [Proc.bind_run_failed _ _
        (callCheckpoint_error (f := fun s => checkpointIntent s _) hintent)]
      exact ⟨(fun h => nomatch h), rfl, rfl, .refl _⟩
    | ok store =>
      rw [Proc.bind_run_done _ _
        (callCheckpoint_ok (f := fun s => checkpointIntent s _) hintent)]
      cases hharness : (HarnessRuntimePort.cancelTurn x.harness sessionId).1 with
      | ok => exact absurd ⟨sessionId, store, hsession, hintent, hharness⟩ h
      | error e =>
        rw [Proc.bind_run_failed _ _ (callHarness_error (x := { x with store := store })
          (f := fun h => HarnessRuntimePort.cancelTurn h sessionId) hharness)]
        exact ⟨(fun h => nomatch h), rfl, rfl, local_checkpointIntent hintent⟩

/-- A turn that can be cancelled is cancelled. -/
theorem steerCancel_cancellable {operationId : OperationId} (h : Cancellable x turnId operationId) :
    ∃ harness store, x.store.Local store ∧
      steerCancel 0 x none = ⟨.done .cancelledActive,
        ⟨cancelledSupervisor x.supervisor turnId operationId, harness, store⟩, none⟩ := by
  obtain ⟨harness, store, hlocal, hrun⟩ :=
    cancelActive_accepted (activeWork_of_runningWork h.running) h.accepts
  refine ⟨harness, store, hlocal, ?_⟩
  unfold steerCancel
  rw [Proc.bind_run_done _ _ (Proc.get_run x none)]
  rw [h.capable]
  have hrunning := h.running
  cases hstate : x.supervisor.state with
  | prompting | awaitingPermission => exact hrun
  | _ =>
    rw [hstate] at hrunning
    cases hrunning

/-- At any other supervisor the call is a miss. -/
theorem steerCancel_missed (h : ∀ turnId operationId, ¬ Cancellable x turnId operationId) :
    Missed x (steerCancel 0 x none) := by
  unfold steerCancel
  rw [Proc.bind_run_done _ _ (Proc.get_run x none)]
  cases hcapable : x.supervisor.checkCapability "session.cancel" with
  | error e => exact ⟨(fun h => nomatch h), rfl, rfl, .refl _⟩
  | ok =>
    have hrefused : ∀ turnId operationId,
        runningWork x.supervisor.state = some (turnId, operationId) →
        Missed x (cancelActive x.supervisor 0 x none) := fun turnId operationId hrunning =>
      cancelActive_refused (activeWork_of_runningWork hrunning) fun haccepts =>
        h turnId operationId ⟨hrunning, hcapable, haccepts⟩
    cases hstate : x.supervisor.state with
    | prompting turnId operationId =>
      exact hrefused turnId operationId (congrArg runningWork hstate)
    | awaitingPermission turnId operationId =>
      exact hrefused turnId operationId (congrArg runningWork hstate)
    | _ => exact ⟨(fun h => nomatch h), rfl, rfl, .refl _⟩

/-! ## One thread of the application -/

/-- The supervisor of a thread with the two ports. -/
def CoreApplication.view (app : CoreApplication H) (v : ThreadRuntimeSupervisor) : Supervised H :=
  AgentRuntimeSupervisor.view v app.supervisor

/-- Writes the ports and the supervisor of a thread back. -/
def CoreApplication.put (app : CoreApplication H) (threadId : ThreadId) (x : Supervised H) :
    CoreApplication H :=
  { app with supervisor := .put threadId app.supervisor x }

/-- The running turn of a thread can be cancelled. -/
def Cancels (app : CoreApplication H) (threadId : ThreadId) (turnId : TurnId)
    (operationId : OperationId) : Prop :=
  ∃ v, app.supervised threadId = some v ∧ Cancellable (app.view v) turnId operationId

omit [HarnessRuntimePort H] [DefaultHasher] [ErrorText] in
theorem onThread_run {α : Type} {threadId : ThreadId} (hv : app.supervised threadId = some v)
    (m : Proc (Supervised H) RuntimeError α) :
    onThread threadId m app none =
      Proc.mapError CoreAppError.ofRuntime (Proc.zoom (fun app => app.view v)
        (fun app x => app.put threadId x) m) app none := by
  unfold onThread onRuntime AgentRuntimeSupervisor.onThread Proc.mapError Proc.zoom
  rw [Proc.bind_run_done _ _ (Proc.get_run app.supervisor none),
    show app.supervisor.threads[threadId]? = some v from hv]
  rfl

omit [HarnessRuntimePort H] [DefaultHasher] [ErrorText] in
theorem supervised_put (app : CoreApplication H) (threadId : ThreadId) (x : Supervised H)
    (a : ThreadId) :
    (app.put threadId x).supervised a =
      if threadId = a then some x.supervisor else app.supervised a :=
  Table.getElem?_insert_eq _ _ _ _

variable (operationId : OperationId) (threadId : ThreadId) (now : UInt64)

/-- A thread without a turn that can be cancelled is passed over. -/
theorem cancelTurn_missed (h : ∀ turnId target, ¬ Cancels app threadId turnId target) :
    (cancelTurn operationId threadId now app none).ending ≠ .done .cancelledActive ∧
      (∀ a, (cancelTurn operationId threadId now app none).state.supervised a = app.supervised a) ∧
      (cancelTurn operationId threadId now app none).state.journal = app.journal := by
  unfold cancelTurn
  rw [Proc.bind_run_done _ _ (Proc.get_run app none)]
  cases hv : app.supervised threadId with
  | none =>
    have hunknown : onThread threadId (steerCancel 0) app none =
        ⟨.failed (.threadNotFound threadId), app, none⟩ := by
      unfold onThread onRuntime AgentRuntimeSupervisor.onThread Proc.mapError Proc.zoom
      rw [Proc.bind_run_done _ _ (Proc.get_run app.supervisor none),
        show app.supervisor.threads[threadId]? = none from hv]
      rfl
    rw [Proc.bind_run_failed _ _ hunknown]
    exact ⟨(fun h => nomatch h), fun _ => rfl, rfl⟩
  | some v =>
    have hmissed := steerCancel_missed (x := app.view v) fun turnId target hcancel =>
      h turnId target ⟨v, hv, hcancel⟩
    have hsame : ∀ x : Supervised H, x.supervisor = v → app.store.Local x.store →
        (∀ a, (app.put threadId x).supervised a = app.supervised a) ∧
          (app.put threadId x).journal = app.journal := by
      intro x hx hlocal
      refine ⟨fun a => ?_, congrArg DomainStore.journal hlocal.domain⟩
      rw [supervised_put, hx]
      split
      · rw [← ‹threadId = a›, hv]
      · rfl
    have hrun := onThread_run hv (steerCancel 0)
    obtain ⟨hending, hleft, hsupervisor, hstore⟩ := hmissed
    unfold Proc.mapError Proc.zoom at hrun
    revert hrun hending hleft hsupervisor hstore
    dsimp only
    rcases steerCancel 0 (app.view v) none with ⟨outcome | e | _, x, n⟩
    · intro hrun hending _ hsupervisor hstore
      rw [Proc.bind_run_done _ _ hrun]
      cases outcome with
      | cancelledActive => exact absurd rfl hending
      | _ => exact ⟨(fun h => nomatch h), hsame x hsupervisor hstore⟩
    · intro hrun _ _ hsupervisor hstore
      rw [Proc.bind_run_failed _ _ hrun]
      exact ⟨(fun h => nomatch h), hsame x hsupervisor hstore⟩
    · intro hrun _ _ hsupervisor hstore
      rw [Proc.bind_run, hrun]
      exact ⟨(fun h => nomatch h), hsame x hsupervisor hstore⟩

/-- The supervisors are the same, and the rows that were journaled are about the turn. -/
structure Noted (turnId : TurnId) (before after : CoreApplication H) : Prop where
  supervised : ∀ a, after.supervised a = before.supervised a
  journal : ∃ rows, after.journal = before.journal ++ rows ∧
    ∀ row ∈ rows, row.turnId = some turnId.asStr

omit [HarnessRuntimePort H] [DefaultHasher] [ErrorText] in
theorem keeps_noted_nextEventId (before : CoreApplication H) (turnId : TurnId) :
    Proc.Keeps (Noted turnId before) (nextEventId now) :=
  .bind .get fun _ => .bind (.modify fun _ h => ⟨h.supervised, h.journal⟩) fun _ => .pure _

omit [HarnessRuntimePort H] [DefaultHasher] [ErrorText] in
theorem keeps_noted_append (before : CoreApplication H) {e : DomainEvent}
    (hturn : e.turnId = some turnId) : Proc.Keeps (Noted turnId before) (appendDomainEvent e) := by
  refine .act fun app happ => ?_
  cases happend : app.store.appendDomainEvent e with
  | error e => exact happ
  | ok r =>
    obtain ⟨outcome, store⟩ := r
    refine ⟨happ.supervised, ?_⟩
    obtain ⟨rows, hrows, habout⟩ := happ.journal
    obtain ⟨domain, hdomain, rfl⟩ := Store.appendDomainEvent_cases happend
    rcases Storage.appendDomainEvent_cases hdomain with
      ⟨row, -, -, -, rfl⟩ | ⟨p, -, -, -, -, -, rfl⟩
    · exact ⟨rows, hrows, habout⟩
    · refine ⟨rows ++ [durableRow (domainJournalMaxSeq app.store.domain.journal + 1) e], ?_, ?_⟩
      · rw [← List.append_assoc, ← hrows]
        rfl
      · intro row hrow
        rcases List.mem_append.1 hrow with hrow | hrow
        · exact habout row hrow
        · rw [List.mem_singleton.1 hrow]
          exact congrArg (Option.map Id.asStr) hturn

/-- A thread with a turn that can be cancelled: its supervisor waits for the end of the
turn, and what is journaled is about the turn. -/
theorem cancelTurn_struck {target : OperationId} (hv : app.supervised threadId = some v)
    (h : Cancellable (app.view v) turnId target) :
    (∀ a, (cancelTurn operationId threadId now app none).state.supervised a =
      if threadId = a then some (cancelledSupervisor v turnId target) else app.supervised a) ∧
    ∃ rows, (cancelTurn operationId threadId now app none).state.journal = app.journal ++ rows ∧
      ∀ row ∈ rows, row.turnId = some turnId.asStr := by
  obtain ⟨harness, store, hlocal, hsteer⟩ := steerCancel_cancellable h
  have hrun := onThread_run hv (steerCancel 0)
  unfold Proc.mapError Proc.zoom at hrun
  dsimp only at hrun
  rw [hsteer] at hrun
  have hactive : app.supervisor.activeTurnId threadId = some turnId := by
    unfold AgentRuntimeSupervisor.activeTurnId
    rw [show app.supervisor.threads[threadId]? = some v from hv]
    exact activeTurnId_of_runningWork h.running
  have hnoted : Noted turnId
      (app.put threadId ⟨cancelledSupervisor v turnId target, harness, store⟩)
      (cancelTurn operationId threadId now app none).state := by
    unfold cancelTurn
    rw [Proc.bind_run_done _ _ (Proc.get_run app none), Proc.bind_run_done _ _ hrun]
    dsimp only
    rw [hactive]
    refine (Proc.Keeps.bind (keeps_noted_nextEventId _ _ _) fun eventId =>
      Proc.Keeps.bind (.ofExcept _) fun payload =>
        Proc.Keeps.bind (keeps_noted_append _ rfl) fun _ => .pure _).state ?_
    exact ⟨fun _ => rfl, [], (List.append_nil _).symm, fun _ hrow => absurd hrow List.not_mem_nil⟩
  refine ⟨fun a => ?_, ?_⟩
  · rw [hnoted.supervised, supervised_put]
  · obtain ⟨rows, hrows, habout⟩ := hnoted.journal
    exact ⟨rows, hrows.trans (congrArg (·.journal ++ rows) hlocal.domain), habout⟩

/-- A cancellation touches no other thread. -/
theorem cancelTurn_supervised (app : CoreApplication H) {a : ThreadId} (h : threadId ≠ a) :
    (cancelTurn operationId threadId now app none).state.supervised a = app.supervised a := by
  by_cases hcancels : ∃ turnId target, Cancels app threadId turnId target
  · obtain ⟨turnId, target, v, hv, hcancellable⟩ := hcancels
    rw [(cancelTurn_struck operationId threadId now hv hcancellable).1, if_neg h]
  · exact (cancelTurn_missed operationId threadId now fun turnId target hc =>
      hcancels ⟨turnId, target, hc⟩).2.1 a

/-! ## The walk -/

/-- The threads the walk comes to, each with the application it finds there. -/
def visits : List ThreadId → CoreApplication H → List (ThreadId × CoreApplication H)
  | [], _ => []
  | threadId :: rest, app =>
    (threadId, app) :: match (cancelTurn operationId threadId now app none).ending with
      | .done .cancelledActive => []
      | _ => visits rest (cancelTurn operationId threadId now app none).state

/-- The walk ends at a thread or goes on behind it. -/
theorem walk_cons (rest : List ThreadId) (app : CoreApplication H) :
    ((cancelFirst operationId now (threadId :: rest) app none).state =
        (cancelTurn operationId threadId now app none).state ∧
      visits operationId now (threadId :: rest) app = [(threadId, app)]) ∨
    ((cancelFirst operationId now (threadId :: rest) app none).state =
        (cancelFirst operationId now rest (cancelTurn operationId threadId now app none).state
          none).state ∧
      visits operationId now (threadId :: rest) app = (threadId, app) ::
        visits operationId now rest (cancelTurn operationId threadId now app none).state) := by
  rw [cancelFirst, visits]
  rcases (ends_cancelTurn operationId threadId now).cases app with
    ⟨outcome, app', hrun⟩ | ⟨e, app', hrun⟩
  · have hattempt : (cancelTurn operationId threadId now).attempt app none =
        (⟨.done (.ok outcome), app', none⟩ :
          Outcome (CoreApplication H) CoreAppError (Except CoreAppError CancelOutcome)) := by
      unfold Proc.attempt
      rw [hrun]
    rw [Proc.bind_run_done _ _ hattempt, hrun]
    cases outcome with
    | cancelledActive => exact .inl ⟨rfl, rfl⟩
    | _ => exact .inr ⟨rfl, rfl⟩
  · have hattempt : (cancelTurn operationId threadId now).attempt app none =
        (⟨.done (.error e), app', none⟩ :
          Outcome (CoreApplication H) CoreAppError (Except CoreAppError CancelOutcome)) := by
      unfold Proc.attempt
      rw [hrun]
    rw [Proc.bind_run_done _ _ hattempt, hrun]
    exact .inr ⟨rfl, rfl⟩

variable {threads : List ThreadId}

theorem cancelFirst_supervised {a : ThreadId} (app : CoreApplication H) (h : a ∉ threads) :
    (cancelFirst operationId now threads app none).state.supervised a = app.supervised a := by
  induction threads generalizing app with
  | nil => rfl
  | cons threadId rest ih =>
    have hne : threadId ≠ a := fun heq => h (heq ▸ List.mem_cons_self)
    have hstep := cancelTurn_supervised operationId threadId now app hne
    rcases walk_cons operationId threadId now rest app with ⟨hstate, -⟩ | ⟨hstate, -⟩
    · rw [hstate, hstep]
    · rw [hstate, ih _ fun hmem => h (List.mem_cons_of_mem _ hmem), hstep]

/-- The walk finds a thread as it was at the start. -/
theorem visits_supervised {found : CoreApplication H} (hnodup : threads.Nodup)
    (h : (threadId, found) ∈ visits operationId now threads app) :
    threadId ∈ threads ∧ found.supervised threadId = app.supervised threadId := by
  induction threads generalizing app with
  | nil => cases h
  | cons head rest ih =>
    obtain ⟨hhead, hrest⟩ := List.nodup_cons.1 hnodup
    rcases walk_cons operationId head now rest app with ⟨-, hvisits⟩ | ⟨-, hvisits⟩
    · rw [hvisits] at h
      cases List.mem_singleton.1 h
      exact ⟨List.mem_cons_self, rfl⟩
    · rw [hvisits] at h
      rcases List.mem_cons.1 h with heq | h
      · cases heq
        exact ⟨List.mem_cons_self, rfl⟩
      · obtain ⟨hmem, hfound⟩ := ih hrest h
        refine ⟨List.mem_cons_of_mem _ hmem, hfound.trans ?_⟩
        exact cancelTurn_supervised operationId head now app fun heq => hhead (heq ▸ hmem)

/-- A turn that can be cancelled when the walk comes to its thread is cancelled. -/
theorem cancelFirst_struck {found : CoreApplication H} {target : OperationId}
    (hnodup : threads.Nodup) (h : (threadId, found) ∈ visits operationId now threads app)
    (hv : found.supervised threadId = some v) (hcancel : Cancellable (found.view v) turnId target) :
    (cancelFirst operationId now threads app none).state.supervised threadId =
      some (cancelledSupervisor v turnId target) := by
  induction threads generalizing app with
  | nil => cases h
  | cons head rest ih =>
    obtain ⟨hhead, hrest⟩ := List.nodup_cons.1 hnodup
    have hhere : (threadId, found) = (head, app) →
        (cancelTurn operationId head now app none).state.supervised threadId =
          some (cancelledSupervisor v turnId target) ∧ threadId = head := by
      intro heq
      cases heq
      rw [(cancelTurn_struck operationId threadId now hv hcancel).1, if_pos rfl]
      exact ⟨rfl, rfl⟩
    rcases walk_cons operationId head now rest app with ⟨hstate, hvisits⟩ | ⟨hstate, hvisits⟩
    · rw [hvisits] at h
      rw [hstate]
      exact (hhere (List.mem_singleton.1 h)).1
    · rw [hvisits] at h
      rw [hstate]
      rcases List.mem_cons.1 h with heq | h
      · obtain ⟨hstruck, rfl⟩ := hhere heq
        rw [cancelFirst_supervised operationId now _ hhead, hstruck]
      · exact ih hrest h

/-- A thread whose supervisor changed had a turn that could be cancelled. -/
theorem cancelFirst_changed {a : ThreadId}
    (h : (cancelFirst operationId now threads app none).state.supervised a ≠ app.supervised a) :
    ∃ found turnId target, (a, found) ∈ visits operationId now threads app ∧
      Cancels found a turnId target := by
  induction threads generalizing app with
  | nil => exact absurd rfl h
  | cons head rest ih =>
    have hhere : (cancelTurn operationId head now app none).state.supervised a ≠
        app.supervised a → ∃ turnId target, a = head ∧ Cancels app a turnId target := by
      intro hchanged
      have hhead : head = a := by
        by_contra hne
        exact hchanged (cancelTurn_supervised operationId head now app hne)
      subst hhead
      by_contra hnone
      exact hchanged ((cancelTurn_missed operationId head now fun turnId target hc =>
        hnone ⟨turnId, target, rfl, hc⟩).2.1 head)
    rcases walk_cons operationId head now rest app with ⟨hstate, hvisits⟩ | ⟨hstate, hvisits⟩
    · rw [hstate] at h
      obtain ⟨turnId, target, rfl, hcancels⟩ := hhere h
      exact ⟨app, turnId, target, hvisits ▸ List.mem_singleton.2 rfl, hcancels⟩
    · rw [hstate] at h
      by_cases hstep : (cancelTurn operationId head now app none).state.supervised a =
          app.supervised a
      · obtain ⟨found, turnId, target, hmem, hcancels⟩ := ih (hstep ▸ h)
        exact ⟨found, turnId, target, hvisits ▸ List.mem_cons_of_mem _ hmem, hcancels⟩
      · obtain ⟨turnId, target, rfl, hcancels⟩ := hhere hstep
        exact ⟨app, turnId, target, hvisits ▸ List.mem_cons_self, hcancels⟩

/-- What the walk journals is about turns that could be cancelled. -/
theorem cancelFirst_journal (app : CoreApplication H) :
    ∃ rows, (cancelFirst operationId now threads app none).state.journal = app.journal ++ rows ∧
      ∀ row ∈ rows, ∃ threadId found turnId target,
        (threadId, found) ∈ visits operationId now threads app ∧
        Cancels found threadId turnId target ∧ row.turnId = some turnId.asStr := by
  induction threads generalizing app with
  | nil => exact ⟨[], (List.append_nil _).symm, fun _ hrow => absurd hrow List.not_mem_nil⟩
  | cons head rest ih =>
    have hhere : ∃ rows, (cancelTurn operationId head now app none).state.journal =
        app.journal ++ rows ∧ ∀ row ∈ rows, ∃ turnId target,
          Cancels app head turnId target ∧ row.turnId = some turnId.asStr := by
      by_cases hcancels : ∃ turnId target, Cancels app head turnId target
      · obtain ⟨turnId, target, v, hv, hcancellable⟩ := hcancels
        obtain ⟨rows, hrows, habout⟩ := (cancelTurn_struck operationId head now hv hcancellable).2
        exact ⟨rows, hrows, fun row hrow =>
          ⟨turnId, target, ⟨v, hv, hcancellable⟩, habout row hrow⟩⟩
      · refine ⟨[], ?_, fun _ hrow => absurd hrow List.not_mem_nil⟩
        rw [List.append_nil]
        exact (cancelTurn_missed operationId head now fun turnId target hc =>
          hcancels ⟨turnId, target, hc⟩).2.2
    obtain ⟨rows, hrows, habout⟩ := hhere
    rcases walk_cons operationId head now rest app with ⟨hstate, hvisits⟩ | ⟨hstate, hvisits⟩
    · rw [hstate, hvisits]
      refine ⟨rows, hrows, fun row hrow => ?_⟩
      obtain ⟨turnId, target, hcancels, hturn⟩ := habout row hrow
      exact ⟨head, app, turnId, target, List.mem_singleton.2 rfl, hcancels, hturn⟩
    · rw [hstate, hvisits]
      obtain ⟨rows', hrows', habout'⟩ := ih (cancelTurn operationId head now app none).state
      refine ⟨rows ++ rows', ?_, fun row hrow => ?_⟩
      · rw [hrows', hrows, List.append_assoc]
      · rcases List.mem_append.1 hrow with hrow | hrow
        · obtain ⟨turnId, target, hcancels, hturn⟩ := habout row hrow
          exact ⟨head, app, turnId, target, List.mem_cons_self, hcancels, hturn⟩
        · obtain ⟨threadId, found, turnId, target, hmem, hcancels, hturn⟩ := habout' row hrow
          exact ⟨threadId, found, turnId, target, List.mem_cons_of_mem _ hmem, hcancels, hturn⟩

/-! ## The command -/

omit [HarnessRuntimePort H] [DefaultHasher] [ErrorText] in
/-- A reply leaves the coordinator alone. -/
theorem fixes_supervisor_replyResult (data : Option Json) :
    Proc.Fixes (fun x : Serving H => x.shared.app.supervisor)
      (replyResult operationId data now) := by
  have hmake : Proc.Fixes CoreApplication.supervisor
      (makeCommandResultEvent (H := H) operationId true data now) :=
    .bind (.ofExcept _) fun _ =>
      .bind (.bind .get fun _ => .bind (.modify fun _ => rfl) fun _ => .pure _) fun _ => .pure _
  have hsend : ∀ frame, Proc.Fixes (fun x : Serving H => x.shared.app.supervisor)
      (Serving.send frame) := by
    intro frame
    unfold Serving.send Serving.onSession
    exact .zoom fun _ _ => rfl
  have happ : Proc.Fixes (fun x : Serving H => x.shared.app.supervisor)
      (Serving.onApp (makeCommandResultEvent operationId true data now)) := by
    unfold Serving.onApp Serving.onShared Shared.onApp
    exact .zoom_part (g := fun w : Shared H => w.app.supervisor) (fun _ _ h => h)
      (.zoom_part (g := CoreApplication.supervisor) (fun _ _ h => h) hmake)
  exact .bind happ fun _ => hsend _

omit [HarnessRuntimePort H] [DefaultHasher] [ErrorText] in
theorem nodup_threadIds (app : CoreApplication H) : (threadIds app).Nodup :=
  Std.ExtTreeMap.distinct_keys.imp fun hne heq => hne (Table.compare_eq_iff.2 heq)

variable {operationId now} in
/-- The coordinator after a `cancel` is the one the walk ended with. -/
theorem executeControlCommand_cancel {cmd : CommandEnvelope} {payload : Option Json}
    (hcmd : cmd.command = .cancel payload) (x : Serving H) :
    (executeControlCommand cmd now x none).state.shared.app.supervisor =
      (cancelFirst cmd.operationId now (threadIds x.shared.app) x.shared.app
        none).state.supervisor := by
  unfold executeControlCommand
  simp only [hcmd]
  rw [Proc.bind_run_done _ _ (Proc.get_run x none)]
  exact Proc.Fixes.bind_state (f := fun x : Serving H => x.shared.app.supervisor)
    (fun cancelled => fixes_supervisor_replyResult cmd.operationId now _) x none

/-- Every turn that can be cancelled when the walk comes to its thread belongs to the
operation. -/
def OnlyCancels (target : OperationId) (operationId : OperationId) (now : UInt64)
    (app : CoreApplication H) : Prop :=
  ∀ threadId found turnId other,
    (threadId, found) ∈ visits operationId now (threadIds app) app →
    Cancels found threadId turnId other → other = target

end Cancel

/-! ## A turn of another operation -/

section Sample

local instance cancelWriter : SerdeJsonWriter := flatWriter
local instance cancelText : ErrorText := plainText
local instance cancelHasher : DefaultHasher := linearHasher

/-- An operation no turn belongs to. -/
def absentOperation : OperationId := ⟨"op_fixture0000000c1", by decide⟩

/-- A `cancel` that names it. -/
def absentPayload : Option Json :=
  some (.flat [("target_operation_id", .string "op_fixture0000000c1")])

def absentCancel : CommandEnvelope :=
  ⟨⟨"op_fixture0000000c2", by decide⟩, .cancel absentPayload⟩

/-- A client of the application. -/
def servingOf (app : CoreApplication Queued) : Serving Queued :=
  ⟨⟨app, ⟨0, 0⟩, [], 0, []⟩, .new (.new [] []) 0⟩

/-- One turn is running, and the command that names no turn ends it. -/
def Process.cancelsOther : Process Queued → Bool
  | .up app => app.supervisor.stateOf sampleThread ==
        .prompting sampleTurnId sampleOperation .indeterminate
      && (executeControlCommand absentCancel 3 (servingOf app) none).state.shared.app.supervisor.stateOf
          sampleThread == .cancelling (some sampleTurnId) (some sampleOperation)
  | .down _ _ => false

set_option maxRecDepth 20000 in
theorem cancels_other :
    ((systemMachine (⟨∅⟩ : Queued) .empty).run
      (sampleOpen ++ [samplePrompt sampleOperation sampleTurnId 2])).cancelsOther = true := by
  decide

end Sample

end Altior.Application
