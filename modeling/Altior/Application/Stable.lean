import Altior.Application.System
import Altior.Storage.Acceptance

/-!
# What the calls of the application keep

The calls other than a prompt change little: the store only in its local tables
or by one accepted event, the harness by calls that send nothing, a supervisor
so that it stays at work on its turn or rests.  A condition that survives these
changes is kept by every such call, wherever a crash cuts it short.
-/

namespace Altior.Application

open Domain Lib Storage Altior.Runtime

variable [SerdeJsonWriter]

/-! ## The store under the adapter -/

theorem local_settleEach (s : Store) (checkpoints : List RuntimeCheckpoint)
    (state : CheckpointState) (settledAt : UInt64) :
    s.Local (settleEach s checkpoints state settledAt) := by
  induction checkpoints generalizing s with
  | nil => exact .refl s
  | cons cp cps ih =>
    unfold settleEach
    rw [List.foldl_cons]
    cases h : s.settleRuntimeCheckpoint cp.id state none none settledAt with
    | ok s' => exact (Store.local_settleRuntimeCheckpoint h).trans (ih s')
    | error _ => exact ih s

variable {s s' : Store}

theorem local_settleCheckpoint {settled : CheckpointSettled}
    (h : settleCheckpoint s settled = .ok s') : s.Local s' := by
  unfold settleCheckpoint at h
  cases settled with
  | promptDelivered =>
    dsimp only at h
    split at h <;> cases h
    · exact local_settleEach _ _ _ _
    · exact .refl s
  | permissionSettled threadId turnId permissionId decision timestamp =>
    cases decision <;> cases h <;> exact local_settleEach _ _ _ _
  | turnTerminal => cases h; exact local_settleEach _ _ _ _
  | sessionClosed => cases h; exact local_settleEach _ _ _ _

section Intent

variable [ErrorText]

theorem local_recordBinding {threadId : ThreadId} {binding : SessionBinding}
    (h : recordBinding s threadId binding = .ok s') : s.Local s' := by
  unfold recordBinding at h
  split at h <;> cases h
  exact Store.local_replaceSessionBinding ‹_›

variable [DefaultHasher]

/-- A recorded intent went through the store. -/
theorem recordRuntimeIntent_of_checkpointIntent {intent : CheckpointIntent}
    (h : checkpointIntent s intent = .ok s') :
    s.recordRuntimeIntent (mapIntentToCheckpoint intent) = .ok s' := by
  unfold checkpointIntent at h
  split at h <;> cases h
  assumption

theorem local_checkpointIntent {intent : CheckpointIntent}
    (h : checkpointIntent s intent = .ok s') : s.Local s' :=
  Store.local_recordRuntimeIntent (recordRuntimeIntent_of_checkpointIntent h)

end Intent

/-! ## Stable conditions on one thread's call -/

/-- The turn a supervisor is at work on; a cancelled turn is not waited for. -/
def running : SupervisorState → Option TurnId
  | .prompting turnId _ _ => some turnId
  | .awaitingPermission turnId _ _ => some turnId
  | _ => none

/-- The supervisor stays at work on its turn, or rests. -/
structure Follows (v v' : ThreadRuntimeSupervisor) : Prop where
  threadId : v'.threadId = v.threadId
  running : running v'.state = none ∨ running v'.state = running v.state

variable {H : Type}

/-- What the harness calls other than a prompt do to the harness. -/
structure Quiet [HarnessRuntimePort H] (quiet : H → H → Prop) : Prop where
  createSession : ∀ h binding threadId,
    quiet h (HarnessRuntimePort.createSession h binding threadId).2
  resumeSession : ∀ h binding sessionId threadId,
    quiet h (HarnessRuntimePort.resumeSession h binding sessionId threadId).2
  cancelTurn : ∀ h sessionId, quiet h (HarnessRuntimePort.cancelTurn h sessionId).2
  decidePermission : ∀ h sessionId permissionId decision,
    quiet h (HarnessRuntimePort.decidePermission h sessionId permissionId decision).2
  pollEvent : ∀ h sessionId, quiet h (HarnessRuntimePort.pollEvent h sessionId).2
  closeSession : ∀ h sessionId, quiet h (HarnessRuntimePort.closeSession h sessionId).2

/-- The condition survives the calls of the two ports. -/
structure PortStable (quiet : H → H → Prop) (J : Supervised H → Prop) : Prop where
  store : ∀ x store, x.store.Local store → J x → J { x with store := store }
  harness : ∀ x harness, quiet x.harness harness → J x → J { x with harness := harness }

/-- The condition also survives a supervisor that stays at work or rests. -/
structure Stable (quiet : H → H → Prop) (J : Supervised H → Prop) : Prop
    extends PortStable quiet J where
  supervisor : ∀ x v, Follows x.supervisor v → J x → J { x with supervisor := v }

variable {quiet : H → H → Prop} {J : Supervised H → Prop}

theorem PortStable.withSupervisor (hJ : PortStable quiet J) (v : ThreadRuntimeSupervisor) :
    PortStable quiet fun x => x.supervisor = v ∧ J x where
  store x store h hx := ⟨hx.1, hJ.store x store h hx.2⟩
  harness x harness h hx := ⟨hx.1, hJ.harness x harness h hx.2⟩

theorem Stable.and {J' : Supervised H → Prop} (hJ : Stable quiet J) (hJ' : Stable quiet J') :
    Stable quiet fun x => J x ∧ J' x where
  store x store h hx := ⟨hJ.store x store h hx.1, hJ'.store x store h hx.2⟩
  harness x harness h hx := ⟨hJ.harness x harness h hx.1, hJ'.harness x harness h hx.2⟩
  supervisor x v h hx := ⟨hJ.supervisor x v h hx.1, hJ'.supervisor x v h hx.2⟩

section Ports

variable {α : Type}

/-- A call of the checkpoint port replaces the store or fails. -/
theorem spec_callCheckpoint {P R : Supervised H → Prop} {Q : Unit → Supervised H → Prop}
    {E : RuntimeError → Supervised H → Prop} {f : Store → Except CheckpointError Store}
    (hok : ∀ x s', f x.store = .ok s' → P x → Q () { x with store := s' })
    (herror : ∀ x e, f x.store = .error e → P x → E (.checkpoint e) x)
    (hcrash : ∀ x, P x → R x) : Proc.Spec P (callCheckpoint f) Q E R := by
  refine .act (fun x a hx ha => ?_) (fun x e hx he => ?_) hcrash
  · cases hf : f x.store with
    | ok s' => simpa only [hf] using hok x s' hf hx
    | error e => simp only [hf, reduceCtorEq] at ha
  · cases hf : f x.store with
    | ok s' => simp only [hf, reduceCtorEq] at he
    | error e' =>
      simp only [hf, Except.error.injEq] at he ⊢
      exact he ▸ herror x e' hf hx

theorem keeps_callCheckpoint (hJ : PortStable quiet J) {f : Store → Except CheckpointError Store}
    (hf : ∀ s s', f s = .ok s' → s.Local s') : Proc.Keeps J (callCheckpoint f) :=
  spec_callCheckpoint (fun x s' h hx => hJ.store x s' (hf _ _ h) hx) (fun _ _ _ hx => hx)
    fun _ hx => hx

theorem keeps_callHarness (hJ : PortStable quiet J) {f : H → Except HarnessError α × H}
    (hf : ∀ h, quiet h (f h).2) : Proc.Keeps J (callHarness f) :=
  Proc.Keeps.act fun x hx => hJ.harness x _ (hf _) hx

theorem keeps_settle (hJ : PortStable quiet J) (settled : CheckpointSettled) :
    Proc.Keeps J (callCheckpoint fun s => settleCheckpoint s settled) :=
  keeps_callCheckpoint hJ fun _ _ => local_settleCheckpoint

theorem keeps_intent [DefaultHasher] [ErrorText] (hJ : PortStable quiet J)
    (intent : CheckpointIntent) : Proc.Keeps J (callCheckpoint fun s => checkpointIntent s intent) :=
  keeps_callCheckpoint hJ fun _ _ => local_checkpointIntent

/-- A supervisor that comes to rest. -/
theorem keeps_rest (hJ : Stable quiet J) {f : ThreadRuntimeSupervisor → ThreadRuntimeSupervisor}
    (hid : ∀ v, (f v).threadId = v.threadId) (hstate : ∀ v, running (f v).state = none) :
    Proc.Keeps J (onSupervisor f) :=
  Proc.Keeps.modify fun x hx => hJ.supervisor x _ ⟨hid _, .inl (hstate _)⟩ hx

/-- A supervisor that was read before stays at work on its turn. -/
theorem spec_stay (hJ : Stable quiet J) {v : ThreadRuntimeSupervisor}
    {f : ThreadRuntimeSupervisor → ThreadRuntimeSupervisor} (hid : (f v).threadId = v.threadId)
    (hstate : running (f v).state = running v.state) :
    Proc.Spec (fun x => x.supervisor = v ∧ J x) (onSupervisor f) (fun _ => J) (fun _ => J) J :=
  .modify fun x hx => hJ.supervisor x _ ⟨hx.1 ▸ hid, .inr (hx.1 ▸ hstate)⟩ hx.2

end Ports

/-! ## One thread -/

theorem keeps_finishTurn (hJ : Stable quiet J) (turnId : TurnId) (operationId : OperationId)
    (state : TurnState) (delivery : DeliveryState) (next : SupervisorState) (now : UInt64)
    (hnext : running next = none) :
    Proc.Keeps J (finishTurn turnId operationId state delivery next now) :=
  .bind .get fun _ => .bind (keeps_settle hJ.toPortStable _) fun _ =>
    keeps_rest hJ (fun _ => rfl) fun _ => hnext

theorem keeps_crashTurn (hJ : Stable quiet J) (turnId : TurnId) (operationId : OperationId)
    (exitCode : Option Int32) (now : UInt64) :
    Proc.Keeps J (crashTurn turnId operationId exitCode now) :=
  .bind .get fun _ => .bind (.ignore (keeps_settle hJ.toPortStable _)) fun _ =>
    keeps_rest hJ (fun _ => rfl) fun _ => rfl

theorem keeps_applyEvent (hJ : Stable quiet J) (event : HarnessEvent) (now : UInt64) :
    Proc.Keeps J (applyEvent event now) := by
  refine Proc.Spec.bind (M := fun x s => s.supervisor = x.supervisor ∧ J s)
    (.get fun s h => ⟨rfl, h⟩) fun x => ?_
  have hpure (r : Option RuntimeEvent) : Proc.Spec (fun s => s.supervisor = x.supervisor ∧ J s)
      (pure r : Proc (Supervised H) RuntimeError _) (fun _ => J) (fun _ => J) J :=
    .pure fun _ h => h.2
  have hweak {m : Proc (Supervised H) RuntimeError (Option RuntimeEvent)} (h : Proc.Keeps J m) :
      Proc.Spec (fun s => s.supervisor = x.supervisor ∧ J s) m (fun _ => J) (fun _ => J) J :=
    h.mono (fun _ hs => hs.2) (fun _ _ hs => hs) (fun _ _ hs => hs) fun _ hs => hs
  cases event with
  | started | rawUnknown => exact hpure _
  | messageDelta | toolCall =>
    dsimp only
    split <;> exact hpure _
  | permissionRequest eventId kind description =>
    dsimp only
    split
    · rename_i hstate
      exact .bind (spec_stay hJ (v := x.supervisor) rfl (by rw [hstate]; rfl)) fun _ =>
        .pure fun _ h => h
    · exact hpure _
  | completed | cancelled =>
    dsimp only
    split
    · exact hweak (.bind (keeps_finishTurn hJ _ _ _ _ _ _ rfl) fun _ => .pure _)
    · exact hpure _
  | failed error delivery =>
    dsimp only
    split
    · refine hweak (.bind (keeps_finishTurn hJ _ _ _ _ _ _ ?_) fun _ => .pure _)
      split <;> rfl
    · exact hpure _
  | processExited =>
    dsimp only
    split
    · exact hweak (.bind (keeps_crashTurn hJ _ _ _ _) fun _ => .pure _)
    · exact hweak (.bind (keeps_crashTurn hJ _ _ _ _) fun _ => .pure _)
    all_goals first
      | exact hweak (.bind (keeps_rest hJ (fun _ => rfl) fun _ => rfl) fun _ => .pure _)
      | exact hpure _

theorem keeps_bindSession [ErrorText] (hJ : PortStable quiet J) (binding : AcpHarnessBinding)
    (sessionId : HarnessSessionId) (now : UInt64) :
    Proc.Keeps J (bindSession binding sessionId now) :=
  .bind .get fun _ => keeps_callCheckpoint hJ fun _ _ => local_recordBinding

section Harness

variable [HarnessRuntimePort H] (hq : Quiet quiet)

include hq

theorem keeps_pollStream (hJ : Stable quiet J) (now : UInt64) : Proc.Keeps J (pollStream now) := by
  refine .bind .get fun x => ?_
  split
  · exact .pure _
  · refine .bind (.mapError (keeps_callHarness hJ.toPortStable fun h => hq.pollEvent h _))
      fun event => ?_
    split
    · exact .pure _
    · exact keeps_applyEvent hJ _ _

variable [ErrorText]

theorem keeps_createSession (hJ : Stable quiet J) (binding : AcpHarnessBinding) (now : UInt64) :
    Proc.Keeps J (createSession binding now) := by
  refine .bind .get fun x => ?_
  dsimp only
  split
  · exact .fail _
  · refine .bind (keeps_rest hJ (fun _ => rfl) fun _ => rfl) fun _ =>
      .bind (.attempt (keeps_callHarness hJ.toPortStable fun h => hq.createSession h _ _))
        fun r => ?_
    split
    · exact .bind (keeps_rest hJ (fun _ => rfl) fun _ => rfl) fun _ => .fail _
    · exact .bind (.ignore (keeps_bindSession hJ.toPortStable _ _ _)) fun _ =>
        .bind (keeps_rest hJ (fun _ => rfl) fun _ => rfl) fun _ => .pure _

theorem keeps_resumeSession (hJ : Stable quiet J) (binding : AcpHarnessBinding)
    (sessionId : HarnessSessionId) (now : UInt64) :
    Proc.Keeps J (resumeSession binding sessionId now) := by
  refine .bind .get fun x => ?_
  dsimp only
  split
  · exact .fail _
  · refine .bind (keeps_rest hJ (fun _ => rfl) fun _ => rfl) fun _ =>
      .bind (.attempt (keeps_callHarness hJ.toPortStable fun h => hq.resumeSession h _ _ _))
        fun r => ?_
    split
    · exact .bind (keeps_rest hJ (fun _ => rfl) fun _ => rfl) fun _ => .fail _
    · split
      · exact .bind (keeps_rest hJ (fun _ => rfl) fun _ => rfl) fun _ => .fail _
      · exact .bind (.ignore (keeps_bindSession hJ.toPortStable _ _ _)) fun _ =>
          keeps_rest hJ (fun _ => rfl) fun _ => rfl

variable [DefaultHasher]

theorem keeps_decide (hJ : Stable quiet J) (permissionId : EventId) (decision : PermissionDecision)
    (now : UInt64) : Proc.Keeps J (Runtime.decidePermission permissionId decision now) := by
  refine Proc.Spec.bind (M := fun x s => s.supervisor = x.supervisor ∧ J s)
    (.get fun s h => ⟨rfl, h⟩) fun x => ?_
  have hx := hJ.toPortStable.withSupervisor x.supervisor
  dsimp only
  split
  · rename_i hstate
    split
    · exact .fail fun _ h => h.2
    · split
      · exact .fail fun _ h => h.2
      · refine .bind ((keeps_intent hx _).toSpec fun _ h => h.2) fun _ => ?_
        refine .bind ((keeps_callHarness hx fun h => hq.decidePermission h _ _ _).mapError.toSpec
          fun _ h => h.2) fun _ => ?_
        refine .bind ((keeps_settle hx _).toSpec fun _ h => h.2) fun _ => ?_
        exact spec_stay hJ rfl (by rw [hstate]; rfl)
  · exact .fail fun _ h => h.2

theorem keeps_cancelActive (hJ : Stable quiet J) (v : ThreadRuntimeSupervisor) (now : UInt64) :
    Proc.Keeps J (cancelActive v now) := by
  unfold cancelActive
  split
  · exact .bind (keeps_intent hJ.toPortStable _) fun _ =>
      .bind (.mapError (keeps_callHarness hJ.toPortStable fun h => hq.cancelTurn h _)) fun _ =>
        .bind (keeps_rest hJ (fun _ => rfl) fun _ => rfl) fun _ => .pure _
  · exact .fail _

theorem keeps_steerCancel (hJ : Stable quiet J) (now : UInt64) : Proc.Keeps J (steerCancel now) := by
  refine .bind .get fun x => .bind (.ofExcept _) fun _ => ?_
  split
  · exact .pure _
  · exact keeps_cancelActive hq hJ _ now
  · exact keeps_cancelActive hq hJ _ now
  · exact .pure _

theorem keeps_closeSession (hJ : Stable quiet J) (now : UInt64) :
    Proc.Keeps J (closeSession now) := by
  refine .bind .get fun x => ?_
  dsimp only
  split
  · exact keeps_rest hJ (fun _ => rfl) fun _ => rfl
  · refine .bind (.modify fun y hy => hJ.supervisor y _ ⟨rfl, .inr rfl⟩ hy) fun _ => ?_
    exact .bind (.ignore (keeps_intent hJ.toPortStable _)) fun _ =>
      .bind (.ignore (.mapError (keeps_callHarness hJ.toPortStable fun h =>
        hq.closeSession h _))) fun _ =>
          .bind (.ignore (keeps_settle hJ.toPortStable _)) fun _ =>
            keeps_rest hJ (fun _ => rfl) fun _ => rfl

end Harness

/-! ## Stable conditions on the application -/

/-- The event ends no turn. -/
def Harmless (e : DomainEvent) : Prop := ∀ turnId, closesTurn turnId e = false

/-- The condition survives what a call that sends no prompt and ends no turn does
to the application. -/
structure AppStable (quiet : H → H → Prop) (K : CoreApplication H → Prop) : Prop where
  scratch : ∀ app counter log, K app → K { app with counter := counter, log := log }
  context : ∀ app store, app.store.Local store → K app → K (app.setStore store)
  append : ∀ app e o store, Harmless e → app.store.appendDomainEvent e = .ok (o, store) → K app →
    K (app.setStore store)
  thread : ∀ app threadId v, K app →
    (app.supervisor.threads[threadId]? = some v ∨
      v = .new threadId ∧ (app.store.threadById threadId).isSome) →
    ∃ J, Stable quiet J ∧ J (AgentRuntimeSupervisor.view v app.supervisor) ∧
      ∀ x, J x → K { app with supervisor := .put threadId app.supervisor x }

variable {K : CoreApplication H → Prop}

theorem AppStable.and {K' : CoreApplication H → Prop} (hK : AppStable quiet K)
    (hK' : AppStable quiet K') : AppStable quiet fun app => K app ∧ K' app where
  scratch app counter log h := ⟨hK.scratch app counter log h.1, hK'.scratch app counter log h.2⟩
  context app store h hk := ⟨hK.context app store h hk.1, hK'.context app store h hk.2⟩
  append app e o store he h hk :=
    ⟨hK.append app e o store he h hk.1, hK'.append app e o store he h hk.2⟩
  thread app threadId v h hv := by
    obtain ⟨J, hJ, hview, hput⟩ := hK.thread app threadId v h.1 hv
    obtain ⟨J', hJ', hview', hput'⟩ := hK'.thread app threadId v h.2 hv
    exact ⟨_, hJ.and hJ', ⟨hview, hview'⟩, fun x hx => ⟨hput x hx.1, hput' x hx.2⟩⟩

/-- The thread is in the store. -/
def Known (threadId : ThreadId) (app : CoreApplication H) : Prop :=
  (app.store.threadById threadId).isSome

theorem known_iff {threadId : ThreadId} {app : CoreApplication H} :
    Known threadId app ↔ threadId.asStr ∈ app.store.domain.projections.thread := by
  unfold Known Store.threadById
  rw [← Std.ExtTreeMap.mem_iff_isSome_getElem?]

theorem mem_thread_append {e : DomainEvent} {o : AppendOutcome}
    (h : s.appendDomainEvent e = .ok (o, s')) {k : String} (hk : k ∈ s.domain.projections.thread) :
    k ∈ s'.domain.projections.thread := by
  obtain ⟨domain, happend, rfl⟩ := Store.appendDomainEvent_cases h
  rcases Storage.appendDomainEvent_cases happend with
    ⟨row, -, -, -, rfl⟩ | ⟨p, -, -, -, hfold, -, rfl⟩
  · exact hk
  · exact mem_thread_step hfold hk

theorem appStable_known (threadId : ThreadId) : AppStable quiet (Known (H := H) threadId) where
  scratch _ _ _ h := h
  context app store h hk := by
    rw [known_iff] at hk ⊢
    exact h.domain ▸ hk
  append app e o store _ h hk := by
    rw [known_iff] at hk ⊢
    exact mem_thread_append h hk
  thread app threadId' v hk _ := by
    refine ⟨fun x => threadId.asStr ∈ x.store.domain.projections.thread, ?_, known_iff.1 hk,
      fun x hx => known_iff.2 hx⟩
    exact ⟨⟨fun x store h hx => h.domain ▸ hx, fun _ _ _ hx => hx⟩, fun _ _ _ hx => hx⟩

/-! ## The application -/

variable {P : CoreApplication H → Prop}

/-- A computation on a thread, from the application as it is at the start. -/
theorem spec_onThread {α : Type} {R : CoreApplication H → Prop} {Q : α → CoreApplication H → Prop}
    {E : RuntimeError → CoreApplication H → Prop} {m : Proc (Supervised H) RuntimeError α}
    {threadId : ThreadId} (hmissing : ∀ app, P app → app.supervisor.threads[threadId]? = none →
      E (.unknownThread threadId) app)
    (hm : ∀ app v, P app → app.supervisor.threads[threadId]? = some v →
      Proc.Spec (· = AgentRuntimeSupervisor.view v app.supervisor) m
        (fun a x => Q a { app with supervisor := .put threadId app.supervisor x })
        (fun e x => E e { app with supervisor := .put threadId app.supervisor x })
        fun x => R { app with supervisor := .put threadId app.supervisor x }) :
    Proc.Spec P (onRuntime (AgentRuntimeSupervisor.onThread threadId m)) Q E R := by
  refine Proc.Spec.zoom fun app happ => ?_
  refine .bind (M := fun s s' => s = app.supervisor ∧ s' = app.supervisor)
    (.get fun s hs => ⟨hs, hs⟩) fun s => ?_
  split
  · rename_i hnone
    refine .fail fun s' hs' => ?_
    obtain ⟨rfl, rfl⟩ := hs'
    exact hmissing app happ hnone
  · rename_i v hv
    refine .zoom fun s' hs' => ?_
    obtain ⟨rfl, rfl⟩ := hs'
    exact hm app v happ hv

section Lift

variable {α : Type} (hK : AppStable quiet K)

include hK

theorem keeps_onThread {m : Proc (Supervised H) RuntimeError α}
    (hm : ∀ J, Stable quiet J → Proc.Keeps J m) (threadId : ThreadId) :
    Proc.Keeps K (onThread threadId m) := by
  refine .mapError (spec_onThread (fun app happ _ => happ) fun app v happ hv => ?_)
  obtain ⟨J, hJ, hview, hput⟩ := hK.thread app threadId v happ (.inl hv)
  exact (hm J hJ).mono (fun x hx => hx ▸ hview) (fun _ x hx => hput x hx)
    (fun _ x hx => hput x hx) fun x hx => hput x hx

/-- A thread that is known keeps its condition when a supervisor is made for it. -/
theorem keeps_onEntry {m : Proc (Supervised H) RuntimeError α}
    (hm : ∀ J, Stable quiet J → Proc.Keeps J m) (threadId : ThreadId) :
    Proc.Keeps (fun app => K app ∧ Known threadId app) (onEntry threadId m) := by
  unfold onEntry
  refine Proc.Spec.zoom fun app happ => ?_
  refine .bind (M := fun s s' => s = app.supervisor ∧ s' = app.supervisor)
    (.get fun s hs => ⟨hs, hs⟩) fun s => ?_
  refine .zoom fun s' hs' => ?_
  obtain ⟨rfl, rfl⟩ := hs'
  have hv : app.supervisor.threads[threadId]? =
        some (app.supervisor.threads[threadId]?.getD (.new threadId)) ∨
      app.supervisor.threads[threadId]?.getD (.new threadId) = .new threadId ∧
        (app.store.threadById threadId).isSome := by
    cases app.supervisor.threads[threadId]? with
    | none => exact .inr ⟨rfl, happ.2⟩
    | some v => exact .inl rfl
  obtain ⟨J, hJ, hview, hput⟩ := (hK.and (appStable_known threadId)).thread app threadId _ happ hv
  exact (hm J hJ).mono (fun x hx => hx ▸ hview) (fun _ x hx => hput x hx)
    (fun _ x hx => hput x hx) fun x hx => hput x hx

end Lift

/-- An append replaces the store or fails. -/
theorem spec_appendDomainEvent {R : CoreApplication H → Prop}
    {Q : AppendOutcome → CoreApplication H → Prop} {E : CoreAppError → CoreApplication H → Prop}
    {e : DomainEvent}
    (hok : ∀ s o store, s.store.appendDomainEvent e = .ok (o, store) → P s → Q o (s.setStore store))
    (herror : ∀ s err, s.store.appendDomainEvent e = .error err → P s → E (.storage err) s)
    (hcrash : ∀ s, P s → R s) : Proc.Spec P (appendDomainEvent e) Q E R := by
  refine .act (fun s o hs ho => ?_) (fun s err hs herr => ?_) hcrash
  · cases h : s.store.appendDomainEvent e with
    | ok r =>
      simp only [h, Except.ok.injEq] at ho ⊢
      exact ho ▸ hok s r.1 r.2 h hs
    | error err => simp only [h, reduceCtorEq] at ho
  · cases h : s.store.appendDomainEvent e with
    | ok r => simp only [h, reduceCtorEq] at herr
    | error err' =>
      simp only [h, Except.error.injEq] at herr ⊢
      exact herr ▸ herror s err' h hs

/-- A recorded snapshot changes a local table. -/
theorem spec_recordContextSnapshot {snapshot : ContextSnapshot}
    (hP : ∀ app store, app.store.Local store → P app → P (app.setStore store)) :
    Proc.Keeps P (recordContextSnapshot snapshot) := by
  refine Proc.Keeps.act fun s hs => ?_
  split
  · exact hP _ _ (Store.local_recordContextSnapshot ‹_›) hs
  · exact hs

section Calls

variable (hK : AppStable quiet K)

include hK

theorem keeps_nextEventId (now : UInt64) : Proc.Keeps K (nextEventId now) :=
  .bind .get fun _ => .bind (.modify fun app h => hK.scratch app _ _ h) fun _ => .pure _

theorem keeps_appendDomainEvent {e : DomainEvent} (he : Harmless e) :
    Proc.Keeps K (appendDomainEvent e) :=
  spec_appendDomainEvent (fun s o store h hs => hK.append s e o store he h hs)
    (fun _ _ _ hs => hs) fun _ hs => hs

theorem keeps_sequenceEnvelope (envelope : EventEnvelope) :
    Proc.Keeps K (sequenceEnvelope envelope) := by
  refine .bind .get fun s => ?_
  split
  · exact .fail _
  · exact .bind (.modify fun app h => hK.scratch app _ _ h) fun _ => .pure _

theorem keeps_publishedId (event : RuntimeEvent) (now : UInt64) :
    Proc.Keeps K (publishedId event now) := by
  unfold publishedId
  split
  · exact .pure _
  · exact keeps_nextEventId hK now

/-- Publishing without the store. -/
theorem keeps_publish_unstored (event : RuntimeEvent) (operationId : Option OperationId)
    (turnId : Option TurnId) (now : UInt64) :
    Proc.Keeps K (publishRuntimeEvent event operationId turnId now false) :=
  .bind (keeps_publishedId hK event now) fun _ => .bind (.ofExcept _) fun _ =>
    keeps_sequenceEnvelope hK _

theorem keeps_createThread (threadId : ThreadId) (agentProfileId : AgentProfileId)
    (title : Option String) (projectId : Option ProjectId) (now : UInt64) :
    Proc.Keeps K (createThread threadId agentProfileId title projectId now) := by
  refine .bind (.ofExcept _) fun _ => .bind (keeps_nextEventId hK now) fun _ =>
    .bind (keeps_appendDomainEvent hK fun _ => rfl) fun _ => .bind .get fun s => ?_
  split
  · exact .pure _
  · exact .fail _

variable [HarnessRuntimePort H] (hq : Quiet quiet) [ErrorText]

include hq

theorem keeps_openSession (threadId : ThreadId) (binding : AcpHarnessBinding) :
    Proc.Keeps (fun app => K app ∧ Known threadId app) (openSession threadId binding) := by
  refine .bind (.attempt (.bind .get fun s => ?_)) fun r => ?_
  · split
    · exact .fail _
    · split
      · exact .fail _
      · exact keeps_onEntry hK (fun _ hJ => keeps_resumeSession hq hJ _ _ _) threadId
  · split
    · exact .pure _
    · exact .bind (.attempt (keeps_onEntry hK (fun _ hJ => keeps_createSession hq hJ _ _) threadId))
        fun _ => .pure _

theorem keeps_openThread (threadId : ThreadId)
    (binding : Store → Except CoreAppError AcpHarnessBinding) :
    Proc.Keeps K (openThread threadId binding) := by
  refine Proc.Spec.bind (M := fun s app => s = app ∧ K app) (.get fun _ h => ⟨rfl, h⟩) fun s => ?_
  split
  · exact .fail fun _ h => h.2
  rename_i hknown
  have hopen (binding : AcpHarnessBinding) : Proc.Spec (fun app => s = app ∧ K app)
      (openSession threadId binding) (fun _ => K) (fun _ => K) K := by
    refine (keeps_openSession hK hq threadId binding).mono ?_ (fun _ _ h => h.1)
      (fun _ _ h => h.1) fun _ h => h.1
    rintro app ⟨rfl, happ⟩
    exact ⟨happ, by simpa [Known, Option.isSome_iff_ne_none] using hknown⟩
  refine .bind (M := fun _ app => s = app ∧ K app)
    (.ofExcept (fun _ _ _ h => h) fun _ _ _ h => h.2) fun binding => ?_
  split
  · exact hopen binding
  · exact hopen binding
  · exact .pure fun _ h => h.2

variable [DefaultHasher]

theorem keeps_decidePermission (operationId : OperationId) (threadId : ThreadId)
    (permissionId : EventId) (decision : PermissionDecision) (now : UInt64) :
    Proc.Keeps K (decidePermission operationId threadId permissionId decision now) := by
  refine .bind (.ofExcept _) fun text => .bind .get fun s => ?_
  split
  · exact .fail _
  · exact .bind (keeps_onThread hK (fun _ hJ => keeps_decide hq hJ _ _ _) threadId) fun _ =>
      .bind (.ofExcept _) fun _ => .bind (keeps_nextEventId hK now) fun _ =>
        .bind (keeps_appendDomainEvent hK fun _ => rfl) fun _ => .pure _

end Calls

/-! ## Retries -/

/-- The identifier the next record gets at this time is already that of the start
of this turn. -/
def Regenerated (app : CoreApplication H) (turnId : TurnId) (now : UInt64) : Prop :=
  ∃ row ∈ app.store.domain.journal,
    row.eventId = (eventIdOf now app.counter).asStr ∧ StartsTurn turnId.asStr row

instance (app : CoreApplication H) (turnId : TurnId) (now : UInt64) :
    Decidable (Regenerated app turnId now) :=
  inferInstanceAs (Decidable (∃ row ∈ app.store.domain.journal,
    row.eventId = (eventIdOf now app.counter).asStr ∧ StartsTurn turnId.asStr row))

end Altior.Application
