import Altior.Runtime.Binding
import Altior.Runtime.Settlement

/-!
# What a settled checkpoint says

A settlement goes over all unsettled checkpoints of its thread and picks by turn
or by kind.  This module follows which rows each operation of a supervisor
settles, and says when a confirmed checkpoint stands for something that happened.
-/

namespace Altior.Runtime

open Domain Lib Storage

section Rows

variable [SerdeJson]

/-- Every row is stored under its own identifier, and the rows about a turn name
it. -/
structure WellKept (s : Store) : Prop where
  keyed : ∀ (id : RuntimeCheckpointId) cp, s.checkpoint[id]? = some cp → cp.id = id
  turned : ∀ (id : RuntimeCheckpointId) cp, s.checkpoint[id]? = some cp →
    cp.boundaryKind = .prompt ∨ cp.boundaryKind = .permissionDecision ∨
      cp.boundaryKind = .cancel → cp.turnId.isSome = true

/-- A row as the adapter settles it. -/
def settledRow (cp : RuntimeCheckpoint) (state : CheckpointState) (settledAt : UInt64) :
    RuntimeCheckpoint :=
  { cp with
    state := state
    remoteRequestId := none
    diagnosticSummary := none
    settledAt := some settledAt }

/-- The rows of the table are as they were, or unsettled ones of a kind that have
been settled. -/
def SettlesOnly (s s' : Store) (keep : RuntimeCheckpoint → Prop) (state : CheckpointState)
    (settledAt : UInt64) : Prop :=
  ∀ (id : RuntimeCheckpointId) cp', s'.checkpoint[id]? = some cp' →
    s.checkpoint[id]? = some cp' ∨
      ∃ cp, s.checkpoint[id]? = some cp ∧ cp.state = .intent ∧ keep cp ∧
        cp' = settledRow cp state settledAt

theorem mem_activeCheckpoints {s : Store} {threadId : ThreadId} {cp : RuntimeCheckpoint}
    (h : cp ∈ s.activeCheckpoints threadId) :
    (∃ id : RuntimeCheckpointId, s.checkpoint[id]? = some cp) ∧ cp.state = .intent ∧
      cp.threadId = threadId := by
  have hsorted := List.mem_of_mem_take h
  rw [List.mem_insertionSort, List.mem_filter, List.mem_map] at hsorted
  obtain ⟨⟨⟨id, cp'⟩, hmem, rfl⟩, hkeep⟩ := hsorted
  obtain ⟨hstate, hthread⟩ := Bool.and_eq_true_iff.1 hkeep
  exact ⟨⟨id, Std.ExtTreeMap.mem_toList_iff_getElem?_eq_some.1 hmem⟩, beq_iff_eq.1 hstate,
    beq_iff_eq.1 hthread⟩

/-- The rows of a settlement over listed rows that were in the table when the list
was made. -/
theorem settlesOnly_settleEach {s : Store} (hkept : WellKept s)
    {keep : RuntimeCheckpoint → Prop} {state : CheckpointState} {settledAt : UInt64}
    {checkpoints : List RuntimeCheckpoint}
    (h : ∀ cp ∈ checkpoints, (∃ id : RuntimeCheckpointId, s.checkpoint[id]? = some cp) ∧ keep cp) :
    SettlesOnly s (settleEach s checkpoints state settledAt) keep state settledAt := by
  -- the rows listed are those of the first store, the rows settled those of the current one
  suffices hgen : ∀ t : Store, SettlesOnly s t keep state settledAt →
      SettlesOnly s (settleEach t checkpoints state settledAt) keep state settledAt from
    hgen s fun id cp' hcp' => .inl hcp'
  induction checkpoints with
  | nil => exact fun t ht => ht
  | cons cp checkpoints ih =>
    intro t ht
    have ih := ih fun cp' hcp' => h cp' (List.mem_cons_of_mem cp hcp')
    unfold settleEach
    rw [List.foldl_cons]
    cases hsettle : t.settleRuntimeCheckpoint cp.id state none none settledAt with
    | error err => exact ih t ht
    | ok t' =>
      refine ih t' ?_
      obtain ⟨-, row, hrow, ⟨hintent, rfl⟩ | ⟨-, rfl⟩⟩ := settleRuntimeCheckpoint_cases hsettle
      · obtain ⟨⟨id₀, hid₀⟩, hkeep⟩ := h cp List.mem_cons_self
        have hkey := hkept.keyed id₀ cp hid₀
        subst hkey
        intro id cp' hcp'
        rw [Table.getElem?_update] at hcp'
        split at hcp'
        · rename_i heq
          subst heq
          rw [hrow] at hcp'
          cases hcp'
          right
          -- an intent is not settled yet, so it is the row of the first store
          rcases ht _ row hrow with hsame | ⟨cp₁, -, -, -, rfl⟩
          · rw [hid₀] at hsame
            cases hsame
            exact ⟨cp, hid₀, hintent, hkeep, rfl⟩
          · have hterminal := (settleRuntimeCheckpoint_cases hsettle).1
            rw [show state = CheckpointState.intent from hintent] at hterminal
            cases hterminal
        · exact ht id cp' hcp'
      · exact ht

end Rows

/-! ## The store an operation leaves -/

variable {now : UInt64}

section Supervision

variable [SerdeJsonWriter] {H : Type}

/-- The supervisor and the store are given ones. -/
def Here (w : ThreadRuntimeSupervisor) (st : Store) (x : Supervised H) : Prop :=
  x.supervisor = w ∧ x.store = st

section Rules

variable {α β ε : Type} {w : ThreadRuntimeSupervisor} {st : Store} {S : Store → Prop}

/-- However the computation ends, the store is among the given ones. -/
def Leaves (P : Supervised H → Prop) (m : Proc (Supervised H) ε α) (S : Store → Prop) : Prop :=
  Proc.Spec P m (fun _ x => S x.store) (fun _ x => S x.store) fun _ => True

theorem here_read {Q : β → Supervised H → Prop} {E : ε → Supervised H → Prop}
    {R : Supervised H → Prop} {k : Supervised H → Proc (Supervised H) ε β}
    (h : ∀ x, x.supervisor = w → Proc.Spec (Here w st) (k x) Q E R) :
    Proc.Spec (Here w st) (Proc.get >>= k) Q E R :=
  fun s n hs => h s hs.1 s n hs

theorem leaves_read {k : Supervised H → Proc (Supervised H) RuntimeError β}
    (h : ∀ x, x.supervisor = w → Leaves (Here w st) (k x) S) :
    Leaves (Here w st) (Proc.get >>= k) S :=
  here_read h

/-- A computation that begins by reading the state it is started in. -/
theorem leaves_get {s : Supervised H} {k : Supervised H → Proc (Supervised H) RuntimeError β}
    (h : Leaves (· = s) (k s) S) : Leaves (· = s) (Proc.get >>= k) S := by
  rintro x n rfl
  exact h x n rfl

theorem leaves_stay {m : Proc (Supervised H) ε α} (hm : Proc.Keeps (Here w st) m) (h : S st) :
    Leaves (Here w st) m S :=
  hm.mono (fun _ hx => hx) (fun _ x hx => by rw [hx.2]; exact h)
    (fun _ x hx => by rw [hx.2]; exact h) fun _ _ => trivial

variable {k : Unit → Proc (Supervised H) RuntimeError β} {f : Store → Except CheckpointError Store}

theorem leaves_change {g : ThreadRuntimeSupervisor → ThreadRuntimeSupervisor}
    (h : Leaves (Here (g w) st) (k ()) S) : Leaves (Here w st) (onSupervisor g >>= k) S :=
  .bind (M := fun _ => Here (g w) st) (.modify fun _ hx => ⟨congrArg g hx.1, hx.2⟩) fun _ => h

theorem leaves_last {g : ThreadRuntimeSupervisor → ThreadRuntimeSupervisor} (h : S st) :
    Leaves (Here w st) (onSupervisor g : Proc (Supervised H) RuntimeError Unit) S :=
  .modify fun x hx => by
    rw [show ({ x with supervisor := g x.supervisor } : Supervised H).store = st from hx.2]
    exact h

/-- A call of the checkpoint port: it writes, or fails and writes nothing. -/
theorem spec_write {Q : β → Supervised H → Prop} {E : RuntimeError → Supervised H → Prop}
    (hfail : ∀ e x, Here w st x → E e x)
    (h : ∀ st', f st = .ok st' → Proc.Spec (Here w st') (k ()) Q E fun _ => True) :
    Proc.Spec (Here w st) (callCheckpoint f >>= k) Q E fun _ => True := by
  cases hf : f st with
  | ok st' =>
    refine .bind (M := fun _ => Here w st') (.act ?_ ?_ fun _ _ => trivial) fun _ => h st' hf
    · rintro x a ⟨rfl, rfl⟩ -
      rw [hf]
      exact ⟨rfl, rfl⟩
    · rintro x e ⟨rfl, rfl⟩ he
      rw [hf] at he
      cases he
  | error err =>
    refine .bind (M := fun _ _ => False) (.act ?_ ?_ fun _ _ => trivial) fun _ _ _ hx => hx.elim
    · rintro x a ⟨rfl, rfl⟩ ha
      rw [hf] at ha
      cases ha
    · rintro x e ⟨rfl, rfl⟩ -
      rw [hf]
      exact hfail e x ⟨rfl, rfl⟩

theorem leaves_write (hfail : S st) (h : ∀ st', f st = .ok st' → Leaves (Here w st') (k ()) S) :
    Leaves (Here w st) (callCheckpoint f >>= k) S :=
  spec_write (fun _ x hx => by rw [hx.2]; exact hfail) h

/-- A call of the checkpoint port whose failure is ignored. -/
theorem spec_tried {E : RuntimeError → Supervised H → Prop} :
    Proc.Spec (Here w st) (Proc.ignore (callCheckpoint f) : Proc (Supervised H) RuntimeError Unit)
      (fun _ => Here w (written st (f st))) E fun _ => True := by
  refine .ignore (.act ?_ ?_ fun _ _ => trivial)
  · rintro x a ⟨rfl, rfl⟩ ha
    cases hf : f x.store with
    | ok st' => exact ⟨rfl, rfl⟩
    | error err =>
      rw [hf] at ha
      cases ha
  · rintro x e ⟨rfl, rfl⟩ he
    cases hf : f x.store with
    | ok st' =>
      rw [hf] at he
      cases he
    | error err => exact ⟨rfl, rfl⟩

theorem leaves_tried (h : Leaves (Here w (written st (f st))) (k ()) S) :
    Leaves (Here w st) (Proc.ignore (callCheckpoint f) >>= k) S :=
  .bind spec_tried fun _ => h

theorem here_callHarness (f : H → Except HarnessError α × H) :
    Proc.Keeps (Here w st) (callHarness f : Proc (Supervised H) HarnessError α) :=
  .act fun _ hx => hx

theorem leaves_attempt {f : H → Except HarnessError α × H}
    {k : Except HarnessError α → Proc (Supervised H) RuntimeError β}
    (h : ∀ answer, Leaves (Here w st) (k answer) S) :
    Leaves (Here w st) ((callHarness f).attempt >>= k) S :=
  .bind (M := fun _ => Here w st) (.attempt ((here_callHarness f).mono (fun _ hx => hx)
    (fun _ _ hx => hx) (fun _ _ hx => hx) fun _ _ => trivial)) h

theorem leaves_harness {f : H → Except HarnessError α × H}
    {k : α → Proc (Supervised H) RuntimeError β} (hfail : S st)
    (h : ∀ a, Leaves (Here w st) (k a) S) :
    Leaves (Here w st) ((callHarness f).mapError .harness >>= k) S :=
  .bind (M := fun _ => Here w st) (.mapError ((here_callHarness f).mono (fun _ hx => hx)
    (fun _ _ hx => hx) (fun _ x hx => by rw [hx.2]; exact hfail) fun _ _ => trivial)) h

/-- A call of the harness whose failure is ignored. -/
theorem leaves_ignored {m : Proc (Supervised H) RuntimeError α} (hm : Proc.Keeps (Here w st) m)
    (h : Leaves (Here w st) (k ()) S) : Leaves (Here w st) (Proc.ignore m >>= k) S :=
  .bind (M := fun _ => Here w st) (.ignore (hm.mono (fun _ hx => hx) (fun _ _ hx => hx)
    (fun _ _ hx => hx) fun _ _ => trivial)) fun _ => h

end Rules

section Operations

variable {w : ThreadRuntimeSupervisor} {st : Store}

/-- The settlement an event of the harness makes for the running turn. -/
def settlementOf (threadId : ThreadId) (turnId : TurnId) (event : HarnessEvent) (now : UInt64) :
    Option CheckpointSettled :=
  match event with
  | .completed _ => some (.turnTerminal threadId turnId .completed .confirmed now)
  | .cancelled => some (.turnTerminal threadId turnId .cancelled .confirmed now)
  | .failed _ delivery => some (.turnTerminal threadId turnId .failed delivery now)
  | .processExited _ => some (.turnTerminal threadId turnId .failed .indeterminate now)
  | _ => none

/-- The store an event leaves: the same, or with the running turn settled. -/
def EventStore (w : ThreadRuntimeSupervisor) (st : Store) (event : HarnessEvent) (now : UInt64)
    (st' : Store) : Prop :=
  st' = st ∨ ∃ turnId operationId settled, w.state.activeWork = some (turnId, operationId) ∧
    settlementOf w.threadId turnId event now = some settled ∧
      st' = written st (settleCheckpoint st settled)

theorem leaves_applyEvent (event : HarnessEvent) (now : UInt64) :
    Leaves (Here w st)
      (applyEvent event now : Proc (Supervised H) RuntimeError (Option RuntimeEvent))
      (EventStore w st event now) := by
  refine here_read fun x hx => ?_
  subst hx
  have hsame : EventStore x.supervisor st event now st := .inl rfl
  have hdone {w : ThreadRuntimeSupervisor} {st' : Store} (r : Option RuntimeEvent)
      (h : EventStore x.supervisor st event now st') : Leaves (Here w st')
        (pure r : Proc (Supervised H) RuntimeError (Option RuntimeEvent))
        (EventStore x.supervisor st event now) :=
    leaves_stay (.pure r) h
  have hfinish {turnId : TurnId} {operationId : OperationId} {state : TurnState}
      {delivery : DeliveryState} {next : SupervisorState} {r : Option RuntimeEvent}
      (hwork : x.supervisor.state.activeWork = some (turnId, operationId))
      (hsettle : settlementOf x.supervisor.threadId turnId event now =
        some (.turnTerminal x.supervisor.threadId turnId state delivery now)) :
      Leaves (Here x.supervisor st) (do
          finishTurn turnId operationId state delivery next now
          pure r : Proc (Supervised H) RuntimeError (Option RuntimeEvent))
        (EventStore x.supervisor st event now) := by
    refine .bind (M := fun _ => Here (x.supervisor.endTurn turnId operationId state delivery next)
      (written st (settleCheckpoint st
        (.turnTerminal x.supervisor.threadId turnId state delivery now))))
      (here_read fun y hy => spec_write (fun _ z hz => ?_) fun st' hst' => .modify fun z hz => ?_)
      fun _ => hdone r (.inr ⟨turnId, operationId, _, hwork, hsettle, rfl⟩)
    · rw [hz.2]
      exact hsame
    · rw [← hy, hst']
      exact ⟨congrArg (fun v : ThreadRuntimeSupervisor => v.endTurn turnId operationId state
        delivery next) (hz.1.trans hy.symm), hz.2⟩
  cases event with
  | started | rawUnknown => exact hdone _ hsame
  | messageDelta | toolCall =>
    dsimp only
    split <;> exact hdone _ hsame
  | permissionRequest eventId kind description =>
    dsimp only
    split
    · exact leaves_change (hdone _ hsame)
    · exact hdone _ hsame
  | completed | cancelled | failed =>
    dsimp only
    split
    · rename_i hwork
      exact hfinish hwork rfl
    · exact hdone _ hsame
  | processExited exitCode =>
    have hcrash {turnId : TurnId} {operationId : OperationId} {r : Option RuntimeEvent}
        (hwork : x.supervisor.state.activeWork = some (turnId, operationId)) :
        Leaves (Here x.supervisor st) (do
            crashTurn turnId operationId exitCode now
            pure r : Proc (Supervised H) RuntimeError (Option RuntimeEvent))
          (EventStore x.supervisor st (.processExited exitCode) now) := by
      refine .bind (M := fun _ => Here (x.supervisor.endTurn turnId operationId .failed
        .indeterminate (.crashed ("unexpected subprocess exit with code "
          ++ debugExitCode exitCode) .indeterminate)) (written st (settleCheckpoint st
        (.turnTerminal x.supervisor.threadId turnId .failed .indeterminate now))))
        (here_read fun y hy => .bind spec_tried fun _ => .modify fun z hz => ?_)
        fun _ => hdone r (.inr ⟨turnId, operationId, _, hwork, rfl, rfl⟩)
      rw [hy] at hz
      exact ⟨congrArg (fun v : ThreadRuntimeSupervisor => v.endTurn turnId operationId .failed
        .indeterminate _) hz.1, hz.2⟩
    dsimp only
    split <;> rename_i hstate
    · exact hcrash (by rw [hstate]; rfl)
    · exact hcrash (by rw [hstate]; rfl)
    all_goals first
      | exact hdone _ hsame
      | exact leaves_change (hdone _ hsame)

variable [HarnessRuntimePort H]

/-- The event a poll of the supervised thread finds. -/
def polledEvent (s : Supervised H) : Option HarnessEvent :=
  match s.supervisor.sessionId with
  | none => none
  | some sessionId =>
    match (HarnessRuntimePort.pollEvent s.harness sessionId).1 with
    | .ok event => event
    | .error _ => none

/-- A poll leaves the store as it is, or as the event it finds does. -/
def PollStore (s : Supervised H) (now : UInt64) (st' : Store) : Prop :=
  st' = s.store ∨ ∃ event, polledEvent s = some event ∧
    EventStore s.supervisor s.store event now st'

theorem leaves_pollStream (s : Supervised H) (now : UInt64) :
    Leaves (· = s) (pollStream now : Proc (Supervised H) RuntimeError (Option RuntimeEvent))
      (PollStore s now) := by
  refine leaves_get ?_
  split
  · exact .pure fun y hy => .inl (by rw [hy])
  · rename_i sessionId hsession
    refine .bind (M := fun answer y => Here s.supervisor s.store y ∧
      (HarnessRuntimePort.pollEvent s.harness sessionId).1 = .ok answer)
      (.mapError (.act ?_ ?_ fun _ _ => trivial)) fun answer => ?_
    · rintro y answer rfl hanswer
      exact ⟨⟨rfl, rfl⟩, hanswer⟩
    · rintro y err rfl -
      exact .inl rfl
    · cases answer with
      | none => exact .pure fun y hy => .inl hy.1.2
      | some event =>
        intro y n hy
        have hevent : polledEvent s = some event := by
          simp only [polledEvent, hsession, hy.2]
        have hrun : Leaves (Here s.supervisor s.store)
            (applyEvent event now : Proc (Supervised H) RuntimeError (Option RuntimeEvent))
            (PollStore s now) :=
          (leaves_applyEvent event now).mono (fun _ h => h)
            (fun _ _ h => .inr ⟨event, hevent, h⟩) (fun _ _ h => .inr ⟨event, hevent, h⟩)
            fun _ h => h
        exact hrun y n hy.1

variable [DefaultHasher] [ErrorText]

/-- The stores an operation may leave that records an intent and then makes a
settlement. -/
def BoundaryStore (st : Store) (intent : CheckpointIntent) (settled : Option CheckpointSettled)
    (st' : Store) : Prop :=
  st' = st ∨ ∃ st₁, checkpointIntent st intent = .ok st₁ ∧
    (st' = st₁ ∨ ∃ done, settled = some done ∧ st' = written st₁ (settleCheckpoint st₁ done))

theorem leaves_prompt (operationId : OperationId) (turnId : TurnId) (content : String)
    (now : UInt64) : Leaves (Here w st)
      (prompt operationId turnId content now : Proc (Supervised H) RuntimeError TurnAdmission)
      (BoundaryStore st (.prompt w.threadId turnId operationId now)
        (some (.turnTerminal w.threadId turnId .failed .indeterminate now))) := by
  refine leaves_read fun x hx => ?_
  subst hx
  refine .ofExcept_bind (fun sessionId _ => ?_) fun _ _ y hy => .inl hy.2
  change Leaves _ _ (BoundaryStore _ _ _)
  split
  · exact leaves_stay (.pure _) (.inl rfl)
  · exact leaves_stay (.fail _) (.inl rfl)
  · refine leaves_change (leaves_write (.inl rfl) fun st₁ hst₁ => leaves_attempt fun answer => ?_)
    cases answer with
    | error err =>
      exact leaves_tried (leaves_tried (leaves_change (leaves_stay (.fail _)
        (.inr ⟨st₁, hst₁, .inr ⟨_, rfl, rfl⟩⟩))))
    | ok _ =>
      refine leaves_write (.inr ⟨st₁, hst₁, .inl rfl⟩) fun st₂ hst₂ =>
        leaves_change (leaves_stay (.pure _) ?_)
      -- a delivery that is not confirmed settles nothing
      cases hst₂
      exact .inr ⟨st₁, hst₁, .inl rfl⟩

/-- A decision on the permission the supervisor awaits leaves its checkpoint. -/
def DecisionStore (w : ThreadRuntimeSupervisor) (st : Store) (permissionId : EventId)
    (decision : PermissionDecision) (now : UInt64) (st' : Store) : Prop :=
  st' = st ∨ ∃ turnId operationId,
    w.state = .awaitingPermission turnId operationId permissionId ∧ w.sessionId.isSome = true ∧
      BoundaryStore st (.permissionDecision w.threadId turnId permissionId decision now)
        (some (.permissionSettled w.threadId turnId permissionId decision now)) st'

theorem leaves_decidePermission (permissionId : EventId) (decision : PermissionDecision)
    (now : UInt64) : Leaves (Here w st)
      (decidePermission permissionId decision now : Proc (Supervised H) RuntimeError Unit)
      (DecisionStore w st permissionId decision now) := by
  refine leaves_read fun x hx => ?_
  subst hx
  dsimp only
  split
  · rename_i turnId operationId pending hstate
    refine .ite (fun _ => leaves_stay (.fail _) (Or.inl rfl)) fun hpending => ?_
    rw [not_not] at hpending
    subst hpending
    split
    · exact leaves_stay (.fail _) (Or.inl rfl)
    · rename_i sessionId hsession
      have hdone {st' : Store} (h : BoundaryStore st _ _ st') :
          DecisionStore x.supervisor st pending decision now st' :=
        .inr ⟨turnId, operationId, hstate, by rw [hsession]; rfl, h⟩
      refine leaves_write (.inl rfl) fun st₁ hst₁ => ?_
      have hfirst := hdone (.inr ⟨st₁, hst₁, .inl rfl⟩)
      refine leaves_harness hfirst fun _ => leaves_write hfirst fun st₂ hst₂ => leaves_last ?_
      refine hdone (.inr ⟨st₁, hst₁, .inr ⟨_, rfl, ?_⟩⟩)
      rw [hst₂]
      rfl
  · exact leaves_stay (.fail _) (Or.inl rfl)

/-- A cancellation leaves the checkpoint of the turn it is about. -/
def CancelStore (w : ThreadRuntimeSupervisor) (st : Store) (now : UInt64) (st' : Store) : Prop :=
  st' = st ∨ ∃ turnId operationId, w.state.activeWork = some (turnId, operationId) ∧
    BoundaryStore st (.cancel w.threadId (some turnId) (some operationId) now) none st'

theorem leaves_steerCancel (now : UInt64) : Leaves (Here w st)
      (steerCancel now : Proc (Supervised H) RuntimeError CancelOutcome)
      (CancelStore w st now) := by
  refine leaves_read fun x hx => ?_
  subst hx
  have hsame : CancelStore x.supervisor st now st := .inl rfl
  refine .ofExcept_bind (fun _ _ => ?_) fun _ _ y hy => .inl hy.2
  change Leaves _ _ (CancelStore _ _ _)
  have hcancel : Leaves (Here x.supervisor st)
      (cancelActive x.supervisor now : Proc (Supervised H) RuntimeError CancelOutcome)
      (CancelStore x.supervisor st now) := by
    unfold cancelActive
    split
    · rename_i turnId operationId sessionId hwork hsession
      refine leaves_write hsame fun st₁ hst₁ => ?_
      have hfirst : CancelStore x.supervisor st now st₁ :=
        .inr ⟨turnId, operationId, hwork, .inr ⟨st₁, hst₁, .inl rfl⟩⟩
      exact leaves_harness hfirst fun _ => leaves_change (leaves_stay (.pure _) hfirst)
    · exact leaves_stay (.fail _) hsame
  split
  · exact leaves_stay (.pure _) hsame
  · exact hcancel
  · exact hcancel
  · exact leaves_stay (.pure _) hsame

/-- Closing records its own intent, if it can, and settles what is open. -/
def CloseStore (w : ThreadRuntimeSupervisor) (st : Store) (now : UInt64) (st' : Store) : Prop :=
  st' = st ∨ (w.sessionId.isSome = true ∧ ∃ st₁,
    (st₁ = st ∨ checkpointIntent st (.close w.threadId now) = .ok st₁) ∧
      st' = written st₁ (settleCheckpoint st₁ (.sessionClosed w.threadId now)))

theorem leaves_closeSession (now : UInt64) : Leaves (Here w st)
      (closeSession now : Proc (Supervised H) RuntimeError Unit) (CloseStore w st now) := by
  refine leaves_read fun x hx => ?_
  subst hx
  dsimp only
  split
  · exact leaves_last (.inl rfl)
  · rename_i sessionId hsession
    refine leaves_change (leaves_tried (leaves_ignored (.mapError (here_callHarness _))
      (leaves_tried (leaves_last (.inr ⟨by rw [hsession]; rfl, _, ?_, rfl⟩)))))
    cases h : checkpointIntent st (.close x.supervisor.threadId now) with
    | ok st₁ => exact .inr rfl
    | error err => exact .inl rfl

end Operations

section Opening

variable [HarnessRuntimePort H] [ErrorText] {table : Table RuntimeCheckpointId RuntimeCheckpoint}

/-- The checkpoints are given ones. -/
def Checkpoints (table : Table RuntimeCheckpointId RuntimeCheckpoint) (x : Supervised H) : Prop :=
  x.store.checkpoint = table

omit [HarnessRuntimePort H] in
theorem keeps_bound (binding : AcpHarnessBinding) (sessionId : HarnessSessionId) (now : UInt64) :
    Proc.Keeps (Checkpoints table)
      (bindSession binding sessionId now : Proc (Supervised H) RuntimeError Unit) := by
  refine .bind .get fun y => .act fun x hx => ?_
  dsimp only
  split
  · rename_i st' hst'
    unfold recordBinding at hst'
    split at hst' <;> cases hst'
    rename_i hreplace
    unfold Store.replaceSessionBinding at hreplace
    split at hreplace <;> cases hreplace
    exact hx
  · exact hx

omit [HarnessRuntimePort H] [ErrorText] in
theorem keeps_harness {α : Type} (f : H → Except HarnessError α × H) :
    Proc.Keeps (Checkpoints table) (callHarness f : Proc (Supervised H) HarnessError α) :=
  .act fun _ h => h

/-- Opening a session leaves the checkpoints alone. -/
theorem keeps_createSession (binding : AcpHarnessBinding) (now : UInt64) :
    Proc.Keeps (Checkpoints table)
      (createSession binding now : Proc (Supervised H) RuntimeError HarnessSessionId) := by
  refine .bind .get fun x => .ite (fun _ => Proc.Keeps.fail _) fun _ => Proc.Keeps.bind
    (.modify fun _ h => h) fun _ => .bind (.attempt (keeps_harness _)) fun answer => ?_
  cases answer with
  | error err => exact Proc.Keeps.bind (.modify fun _ h => h) fun _ => .fail _
  | ok info =>
    exact Proc.Keeps.bind (.ignore (keeps_bound _ _ _)) fun _ =>
      .bind (.modify fun _ h => h) fun _ => .pure _

theorem keeps_resumeSession (binding : AcpHarnessBinding) (sessionId : HarnessSessionId)
    (now : UInt64) : Proc.Keeps (Checkpoints table)
      (resumeSession binding sessionId now : Proc (Supervised H) RuntimeError Unit) := by
  refine .bind .get fun x => .ite (fun _ => Proc.Keeps.fail _) fun _ => Proc.Keeps.bind
    (.modify fun _ h => h) fun _ => .bind (.attempt (keeps_harness _)) fun answer => ?_
  cases answer with
  | error err => exact Proc.Keeps.bind (.modify fun _ h => h) fun _ => .fail _
  | ok info =>
    refine .ite (fun _ => Proc.Keeps.bind (.modify fun _ h => h) fun _ => .fail _) fun _ => ?_
    exact Proc.Keeps.bind (.ignore (keeps_bound _ _ _)) fun _ => .modify fun _ h => h

end Opening

/-! ## Rows -/

section Effects

variable {st st' : Store}

omit [SerdeJsonWriter] in
theorem WellKept.of_eq [SerdeJson] {s s' : Store} (h : WellKept s)
    (heq : s'.checkpoint = s.checkpoint) : WellKept s' := by
  constructor
  · rw [heq]
    exact h.keyed
  · rw [heq]
    exact h.turned

theorem WellKept.settles {keep : RuntimeCheckpoint → Prop} {state : CheckpointState}
    {settledAt : UInt64} (h : WellKept st) (hs : SettlesOnly st st' keep state settledAt) :
    WellKept st' := by
  constructor
  · intro id cp' hcp'
    rcases hs id cp' hcp' with hsame | ⟨cp, hcp, -, -, rfl⟩
    · exact h.keyed id cp' hsame
    · exact h.keyed id cp hcp
  · intro id cp' hcp'
    rcases hs id cp' hcp' with hsame | ⟨cp, hcp, -, -, rfl⟩
    · exact h.turned id cp' hsame
    · exact h.turned id cp hcp

/-- The rows a settlement looks at. -/
def inScope : CheckpointSettled → RuntimeCheckpoint → Prop
  | .promptDelivered threadId _ _ _, cp => cp.threadId = threadId
  | .permissionSettled threadId _ _ _ _, cp =>
    cp.threadId = threadId ∧ cp.boundaryKind = .permissionDecision
  | .turnTerminal threadId turnId _ _ _, cp =>
    cp.threadId = threadId ∧ (cp.turnId = some turnId ∨ cp.turnId = none)
  | .sessionClosed threadId _, cp => cp.threadId = threadId

/-- The state a settlement settles to. -/
def targetOf : CheckpointSettled → CheckpointState
  | .promptDelivered _ _ _ _ => .confirmed
  | .permissionSettled _ _ _ decision _ => if decision = .approved then .confirmed else .rejected
  | .turnTerminal _ _ state delivery _ => terminalTarget state delivery
  | .sessionClosed _ _ => .confirmed

/-- The time of a settlement. -/
def settledTimestamp : CheckpointSettled → UInt64
  | .promptDelivered _ _ _ timestamp => timestamp
  | .permissionSettled _ _ _ _ timestamp => timestamp
  | .turnTerminal _ _ _ _ timestamp => timestamp
  | .sessionClosed _ timestamp => timestamp

/-- A settlement settles unsettled rows in its scope to its state. -/
theorem settlesOnly_settleCheckpoint (hkept : WellKept st) (settled : CheckpointSettled) :
    SettlesOnly st (written st (settleCheckpoint st settled)) (inScope settled) (targetOf settled)
      (settledTimestamp settled) := by
  have hsame : SettlesOnly st st (inScope settled) (targetOf settled)
      (settledTimestamp settled) := fun _ _ h => .inl h
  cases settled with
  | promptDelivered threadId turnId delivery timestamp =>
    simp only [settleCheckpoint]
    split
    · refine settlesOnly_settleEach hkept fun cp hcp => ?_
      obtain ⟨hrow, -, hthread⟩ := mem_activeCheckpoints hcp
      exact ⟨hrow, hthread⟩
    · exact hsame
  | permissionSettled threadId turnId permissionId decision timestamp =>
    have hscope (state : CheckpointState) : SettlesOnly st (settleEach st
        ((st.activeCheckpoints threadId).filter fun cp => cp.boundaryKind == .permissionDecision)
        state timestamp) (fun cp => cp.threadId = threadId ∧
          cp.boundaryKind = .permissionDecision) state timestamp := by
      refine settlesOnly_settleEach hkept fun cp hcp => ?_
      obtain ⟨hcp, hkind⟩ := List.mem_filter.1 hcp
      obtain ⟨hrow, -, hthread⟩ := mem_activeCheckpoints hcp
      exact ⟨hrow, hthread, beq_iff_eq.1 hkind⟩
    cases decision with
    | approved => exact hscope .confirmed
    | denied => exact hscope .rejected
    | pending => exact hsame
  | turnTerminal threadId turnId state delivery timestamp =>
    refine settlesOnly_settleEach hkept fun cp hcp => ?_
    obtain ⟨hcp, hturn⟩ := List.mem_filter.1 hcp
    obtain ⟨hrow, -, hthread⟩ := mem_activeCheckpoints hcp
    refine ⟨hrow, hthread, ?_⟩
    simpa [Option.isNone_iff_eq_none] using hturn
  | sessionClosed threadId timestamp =>
    refine settlesOnly_settleEach hkept fun cp hcp => ?_
    obtain ⟨hrow, -, hthread⟩ := mem_activeCheckpoints hcp
    exact ⟨hrow, hthread⟩

end Effects

section Intents

variable [DefaultHasher] [ErrorText] {st st₁ st' : Store} {intent : CheckpointIntent}

/-- The turn of an intent that is about one is named. -/
def NamesTurn (intent : CheckpointIntent) : Prop :=
  (mapIntentToCheckpoint intent).boundaryKind = .prompt ∨
    (mapIntentToCheckpoint intent).boundaryKind = .permissionDecision ∨
      (mapIntentToCheckpoint intent).boundaryKind = .cancel →
    (mapIntentToCheckpoint intent).turnId.isSome = true

variable {id : RuntimeCheckpointId} {settled : Option CheckpointSettled}

/-- A recorded intent adds its row or nothing. -/
theorem rows_checkpointIntent (h : checkpointIntent st intent = .ok st₁) {cp : RuntimeCheckpoint}
    (hcp : st₁.checkpoint[id]? = some cp) :
    st.checkpoint[id]? = some cp ∨ (st.checkpoint[id]? = none ∧
      (mapIntentToCheckpoint intent).id = id ∧ cp = mapIntentToCheckpoint intent) := by
  have hrecord : st.recordRuntimeIntent (mapIntentToCheckpoint intent) = .ok st₁ := by
    unfold checkpointIntent at h
    split at h <;> cases h
    assumption
  obtain ⟨-, ⟨existing, -, -, rfl⟩ | ⟨hnone, rfl⟩⟩ := Store.recordRuntimeIntent_cases hrecord
  · exact .inl hcp
  · rw [Table.getElem?_insert_eq] at hcp
    split at hcp
    · rename_i heq
      cases hcp
      exact .inr ⟨heq ▸ hnone, heq, rfl⟩
    · exact .inl hcp

theorem WellKept.records (hkept : WellKept st) (hturn : NamesTurn intent)
    (h : checkpointIntent st intent = .ok st₁) : WellKept st₁ := by
  constructor
  · intro id cp hcp
    rcases rows_checkpointIntent h hcp with hcp | ⟨-, hid, rfl⟩
    · exact hkept.keyed id cp hcp
    · exact hid
  · intro id cp hcp
    rcases rows_checkpointIntent h hcp with hcp | ⟨-, -, rfl⟩
    · exact hkept.turned id cp hcp
    · exact hturn

omit [SerdeJsonWriter] [ErrorText] in
/-- The row of an intent is an intent. -/
theorem state_mapIntent (intent : CheckpointIntent) :
    (mapIntentToCheckpoint intent).state = .intent := by
  cases intent <;> rfl

/-- What a row may be after an intent and a settlement: as it was, the new intent,
or an unsettled row in the scope of the settlement, settled. -/
inductive BoundaryRow (st : Store) (intent : CheckpointIntent)
    (settled : Option CheckpointSettled) (id : RuntimeCheckpointId) (cp' : RuntimeCheckpoint) : Prop
  | same (h : st.checkpoint[id]? = some cp')
  | fresh (h : st.checkpoint[id]? = none) (hstate : cp'.state = .intent)
  | settled (done : CheckpointSettled) (cp : RuntimeCheckpoint) (hdone : settled = some done)
      (h : st.checkpoint[id]? = some cp ∨ (st.checkpoint[id]? = none ∧
        (mapIntentToCheckpoint intent).id = id ∧ cp = mapIntentToCheckpoint intent))
      (hintent : cp.state = .intent) (hscope : inScope done cp)
      (hcp' : cp' = settledRow cp (targetOf done) (settledTimestamp done))

theorem boundaryRow_intent (h : checkpointIntent st intent = .ok st₁) {cp : RuntimeCheckpoint}
    (hcp : st₁.checkpoint[id]? = some cp) : BoundaryRow st intent settled id cp := by
  rcases rows_checkpointIntent h hcp with hcp | ⟨hnone, -, rfl⟩
  · exact .same hcp
  · exact .fresh hnone (state_mapIntent intent)

theorem boundaryRow_settled (hkept : WellKept st) (hturn : NamesTurn intent)
    (h : st₁ = st ∨ checkpointIntent st intent = .ok st₁) (done : CheckpointSettled)
    {cp' : RuntimeCheckpoint}
    (hcp' : (written st₁ (settleCheckpoint st₁ done)).checkpoint[id]? = some cp') :
    BoundaryRow st intent (some done) id cp' := by
  have hkept₁ : WellKept st₁ := by
    rcases h with rfl | h
    · exact hkept
    · exact hkept.records hturn h
  rcases settlesOnly_settleCheckpoint hkept₁ done id cp' hcp' with
    hsame | ⟨cp, hcp, hintent, hscope, rfl⟩
  · rcases h with rfl | h
    · exact .same hsame
    · exact boundaryRow_intent h hsame
  · rcases h with rfl | h
    · exact .settled done cp rfl (.inl hcp) hintent hscope rfl
    · exact .settled done cp rfl (rows_checkpointIntent h hcp) hintent hscope rfl

theorem boundaryRow_of_store (hkept : WellKept st) (hturn : NamesTurn intent)
    (h : BoundaryStore st intent settled st') {cp' : RuntimeCheckpoint}
    (hcp' : st'.checkpoint[id]? = some cp') : BoundaryRow st intent settled id cp' := by
  rcases h with rfl | ⟨st₁, hst₁, rfl | ⟨done, rfl, rfl⟩⟩
  · exact .same hcp'
  · exact boundaryRow_intent hst₁ hcp'
  · exact boundaryRow_settled hkept hturn (.inr hst₁) done hcp'

theorem WellKept.boundary (hkept : WellKept st) (hturn : NamesTurn intent)
    (h : BoundaryStore st intent settled st') : WellKept st' := by
  rcases h with rfl | ⟨st₁, hst₁, rfl | ⟨done, -, rfl⟩⟩
  · exact hkept
  · exact hkept.records hturn hst₁
  · have hkept₁ := hkept.records hturn hst₁
    exact hkept₁.settles (settlesOnly_settleCheckpoint hkept₁ done)

end Intents

/-! ## Whole runs -/

section Audit

variable [HarnessRuntimePort H] [DefaultHasher] [ErrorText]

/-- A supervised thread with the permission each checkpoint of a decision was
recorded for. -/
structure Audited (H : Type) where
  thread : Supervised H
  decisions : List (RuntimeCheckpointId × EventId)

/-- The checkpoint a decision records. -/
def decisionCheckpoint (s : Supervised H) (permissionId : EventId) (decision : PermissionDecision)
    (now : UInt64) : Option RuntimeCheckpointId :=
  match s.supervisor.state with
  | .awaitingPermission turnId _ pending =>
    let intent := CheckpointIntent.permissionDecision s.supervisor.threadId turnId permissionId
      decision now
    if pending = permissionId ∧ s.supervisor.sessionId.isSome = true ∧
        (checkpointIntent s.store intent).isOk = true then
      some (mapIntentToCheckpoint intent).id
    else none
  | _ => none

/-- One step. -/
def Audited.step (s : Audited H) : SupervisedOp → Audited H
  | .decidePermission permissionId decision now =>
    ⟨s.thread.apply (.decidePermission permissionId decision now),
      ((decisionCheckpoint s.thread permissionId decision now).toList.map (·, permissionId))
        ++ s.decisions⟩
  | op => ⟨s.thread.apply op, s.decisions⟩

/-- The operation is a poll that finds the running turn reported so. -/
def Reports (s : Audited H) (op : SupervisedOp) (turnId : TurnId) (good : HarnessEvent → Prop) :
    Prop :=
  ∃ now operationId event, op = .pollStream now ∧
    s.thread.supervisor.state.activeWork = some (turnId, operationId) ∧
    polledEvent s.thread = some event ∧ good event

/-- What a row that was not settled before the step may be after it: a prompt is
confirmed by the completion of its turn, a decision is settled by a decision on
the same permission, and a cancellation is confirmed by the turn being reported as
cancelled. -/
structure Rightful (s : Audited H) (op : SupervisedOp) (id : RuntimeCheckpointId)
    (cp : RuntimeCheckpoint) : Prop where
  prompt : cp.boundaryKind = .prompt → cp.state = .confirmed →
    ∃ turnId, cp.turnId = some turnId ∧ Reports s op turnId fun event => ∃ payload,
      event = .completed payload
  permission : cp.boundaryKind = .permissionDecision → cp.state ≠ .intent →
    ∃ permissionId decision now, op = .decidePermission permissionId decision now ∧
      (id, permissionId) ∈ (s.step op).decisions
  cancel : cp.boundaryKind = .cancel → cp.state = .confirmed →
    ∃ turnId, cp.turnId = some turnId ∧ Reports s op turnId fun event => event = .cancelled

/-- Every checkpoint the step settles is settled by what happened. -/
def SettlesRightly (s : Audited H) (op : SupervisedOp) : Prop :=
  ∀ (id : RuntimeCheckpointId) cp', (s.step op).thread.store.checkpoint[id]? = some cp' →
    (∀ cp, s.thread.store.checkpoint[id]? = some cp → cp.state = .intent) → Rightful s op id cp'

/-- No checkpoint of the thread that is of one of the kinds is unsettled. -/
def NoneOpen (st : Store) (threadId : ThreadId) (kinds : List BoundaryKind) : Prop :=
  ∀ (id : RuntimeCheckpointId) cp, st.checkpoint[id]? = some cp → cp.threadId = threadId →
    cp.state = .intent → cp.boundaryKind ∉ kinds

/-- No checkpoint of the turn that is of one of the kinds is unsettled. -/
def NoneOpenOf (st : Store) (threadId : ThreadId) (turnId : TurnId) (kinds : List BoundaryKind) :
    Prop :=
  ∀ (id : RuntimeCheckpointId) cp, st.checkpoint[id]? = some cp → cp.threadId = threadId →
    cp.turnId = some turnId → cp.state = .intent → cp.boundaryKind ∉ kinds

/-- The operation finds nothing unsettled that it is not about: a turn ends with no
decision of it unsettled, and completes with no cancellation of it unsettled; a
permission is decided with no decision on another one unsettled; a session is
closed with nothing unsettled but closings. -/
def NothingLeftOpen (s : Audited H) : SupervisedOp → Prop
  | .prompt _ turnId _ _ =>
    NoneOpenOf s.thread.store s.thread.supervisor.threadId turnId [.permissionDecision]
  | .pollStream _ =>
    ∀ turnId operationId, s.thread.supervisor.state.activeWork = some (turnId, operationId) →
    match polledEvent s.thread with
    | some (.completed _) =>
      NoneOpenOf s.thread.store s.thread.supervisor.threadId turnId
        [.permissionDecision, .cancel]
    | some .cancelled | some (.failed _ _) | some (.processExited _) =>
      NoneOpenOf s.thread.store s.thread.supervisor.threadId turnId [.permissionDecision]
    | _ => True
  | .decidePermission permissionId _ _ =>
    ∀ (id : RuntimeCheckpointId) cp, s.thread.store.checkpoint[id]? = some cp →
      cp.threadId = s.thread.supervisor.threadId → cp.state = .intent →
      cp.boundaryKind = .permissionDecision → (id, permissionId) ∈ s.decisions
  | .closeSession _ =>
    s.thread.supervisor.sessionId.isSome = true →
    NoneOpen s.thread.store s.thread.supervisor.threadId
      [.prompt, .permissionDecision, .cancel]
  | _ => True

variable {s : Audited H} {op : SupervisedOp} {id : RuntimeCheckpointId} {cp : RuntimeCheckpoint}

/-- Nothing is asked of a row that is not settled. -/
theorem rightful_of_intent (h : cp.state = .intent) : Rightful s op id cp := by
  constructor
  · intro _ hstate
    rw [h] at hstate
    cases hstate
  · exact fun _ hstate => absurd h hstate
  · intro _ hstate
    rw [h] at hstate
    cases hstate

/-- Nothing is asked of the rows of the other kinds. -/
theorem rightful_of_kind
    (h : cp.boundaryKind ∉ [BoundaryKind.prompt, .permissionDecision, .cancel]) :
    Rightful s op id cp := by
  simp only [List.mem_cons, List.not_mem_nil, or_false, not_or] at h
  exact ⟨fun hkind => absurd hkind h.1, fun hkind => absurd hkind h.2.1,
    fun hkind => absurd hkind h.2.2⟩

/-- A row that is settled without being confirmed is in order when it is no
decision. -/
theorem rightful_of_unconfirmed (h : cp.state ≠ .confirmed)
    (hkind : cp.boundaryKind ≠ .permissionDecision) : Rightful s op id cp :=
  ⟨fun _ hstate => absurd hstate h, fun hdecision => absurd hdecision hkind,
    fun _ hstate => absurd hstate h⟩

omit [DefaultHasher] [ErrorText] [HarnessRuntimePort H] in
/-- A row about a turn that a turn's end settles is about that turn. -/
theorem turn_of_scope {st : Store} {turnId : TurnId} (hkept : WellKept st)
    (hcp : st.checkpoint[id]? = some cp)
    (hkind : cp.boundaryKind = .prompt ∨ cp.boundaryKind = .permissionDecision ∨
      cp.boundaryKind = .cancel)
    (hturn : cp.turnId = some turnId ∨ cp.turnId = none) : cp.turnId = some turnId := by
  rcases hturn with hturn | hturn
  · exact hturn
  · have hnamed := hkept.turned id cp hcp hkind
    rw [hturn] at hnamed
    cases hnamed

variable {intent : CheckpointIntent} {settled : Option CheckpointSettled}

/-- The rows of an operation are in order when those it settles are. -/
theorem settlesRightly_of_rows
    (hrow : ∀ (id : RuntimeCheckpointId) cp',
      (s.step op).thread.store.checkpoint[id]? = some cp' →
      BoundaryRow s.thread.store intent settled id cp')
    (hsettled : ∀ (done : CheckpointSettled) (id : RuntimeCheckpointId) (cp : RuntimeCheckpoint),
      settled = some done →
      (s.thread.store.checkpoint[id]? = some cp ∨ (s.thread.store.checkpoint[id]? = none ∧
        (mapIntentToCheckpoint intent).id = id ∧ cp = mapIntentToCheckpoint intent)) →
      cp.state = .intent → inScope done cp →
      Rightful s op id (settledRow cp (targetOf done) (settledTimestamp done))) :
    SettlesRightly s op := by
  intro id cp' hcp' hopen
  cases hrow id cp' hcp' with
  | same h => exact rightful_of_intent (hopen cp' h)
  | fresh _ hstate => exact rightful_of_intent hstate
  | settled done cp hdone h hintent hscope hcp' =>
    subst hcp'
    exact hsettled done id cp hdone h hintent hscope

omit [HarnessRuntimePort H] [DefaultHasher] [ErrorText] in
theorem here_self (x : Supervised H) : Here x.supervisor x.store x := ⟨rfl, rfl⟩

theorem rightly_prompt {operationId : OperationId} {turnId : TurnId} {content : String}
    (hkept : WellKept s.thread.store)
    (h : NothingLeftOpen s (.prompt operationId turnId content now)) :
    SettlesRightly s (.prompt operationId turnId content now) := by
  have hstore := (leaves_prompt operationId turnId content now).state_none (here_self s.thread)
  refine settlesRightly_of_rows (fun id cp' hcp' => boundaryRow_of_store hkept (fun _ => rfl)
    hstore hcp') ?_
  rintro done id cp ⟨⟩ hcp hintent ⟨hthread, hturn⟩
  refine rightful_of_unconfirmed nofun ?_
  rcases hcp with hcp | ⟨-, -, rfl⟩
  · exact fun hkind => h id cp hcp hthread (turn_of_scope hkept hcp (.inr (.inl hkind)) hturn)
      hintent (hkind ▸ List.mem_singleton_self _)
  · exact nofun

theorem rightly_steerCancel (hkept : WellKept s.thread.store) :
    SettlesRightly s (.steerCancel now) := by
  rcases (leaves_steerCancel now).state_none (here_self s.thread) with
    hsame | ⟨turnId, operationId, -, hstore⟩
  · intro id cp' hcp' hopen
    exact rightful_of_intent (hopen cp' (hsame ▸ hcp'))
  · refine settlesRightly_of_rows (fun id cp' hcp' => boundaryRow_of_store hkept (fun _ => rfl)
      hstore hcp') ?_
    rintro done id cp ⟨⟩

theorem rightly_closeSession (hkept : WellKept s.thread.store)
    (h : NothingLeftOpen s (.closeSession now)) : SettlesRightly s (.closeSession now) := by
  rcases (leaves_closeSession now).state_none (here_self s.thread) with
    hsame | ⟨hsession, st₁, hst₁, hstore⟩
  · intro id cp' hcp' hopen
    exact rightful_of_intent (hopen cp' (hsame ▸ hcp'))
  · refine settlesRightly_of_rows (fun id cp' hcp' => boundaryRow_settled hkept ?_ hst₁ _
      (hstore ▸ hcp')) ?_
    · rintro (hkind | hkind | hkind) <;> cases hkind
    · rintro done id cp ⟨⟩ hcp hintent hthread
      refine rightful_of_kind ?_
      rcases hcp with hcp | ⟨-, -, rfl⟩
      · exact h hsession id cp hcp hthread hintent
      · change BoundaryKind.close ∉ _
        decide

theorem rightly_decidePermission {permissionId : EventId} {decision : PermissionDecision}
    (hkept : WellKept s.thread.store)
    (h : NothingLeftOpen s (.decidePermission permissionId decision now)) :
    SettlesRightly s (.decidePermission permissionId decision now) := by
  rcases (leaves_decidePermission permissionId decision now).state_none (here_self s.thread) with
    hsame | ⟨turnId, operationId, hstate, hsession, hstore⟩
  · intro id cp' hcp' hopen
    exact rightful_of_intent (hopen cp' (hsame ▸ hcp'))
  · rcases hstore with hsame | ⟨st₁, hst₁, hstore⟩
    · intro id cp' hcp' hopen
      exact rightful_of_intent (hopen cp' (hsame ▸ hcp'))
    have hrecord : decisionCheckpoint s.thread permissionId decision now =
        some (mapIntentToCheckpoint (.permissionDecision s.thread.supervisor.threadId turnId
          permissionId decision now)).id := by
      simp only [decisionCheckpoint, hstate, hst₁, hsession, Except.isOk, Except.toBool, and_self,
        if_true]
    refine settlesRightly_of_rows (fun id cp' hcp' => boundaryRow_of_store hkept (fun _ => rfl)
      (.inr ⟨st₁, hst₁, hstore⟩) hcp') ?_
    rintro done id cp ⟨⟩ hcp hintent ⟨hthread, hkind⟩
    refine ⟨fun hprompt => ?_, fun _ _ => ⟨permissionId, decision, now, rfl, ?_⟩, fun hcancel => ?_⟩
    · cases hkind.symm.trans hprompt
    · rcases hcp with hcp | ⟨hnone, hid, rfl⟩
      · exact List.mem_append_right _ (h id cp hcp hthread hintent hkind)
      · refine List.mem_append_left _ ?_
        rw [hrecord, ← hid]
        exact List.mem_cons_self
    · cases hkind.symm.trans hcancel

theorem rightly_pollStream (hkept : WellKept s.thread.store)
    (h : NothingLeftOpen s (.pollStream now)) : SettlesRightly s (.pollStream now) := by
  intro id cp' hcp' hopen
  rcases (leaves_pollStream s.thread now).state_none rfl with
    hsame | ⟨event, hevent, hsame | ⟨turnId, operationId, done, hwork, hdone, hstore⟩⟩
  · exact rightful_of_intent (hopen cp' (hsame ▸ hcp'))
  · exact rightful_of_intent (hopen cp' (hsame ▸ hcp'))
  -- the running turn was settled
  have hstep : (s.step (.pollStream now)).thread.store =
      written s.thread.store (settleCheckpoint s.thread.store done) := hstore
  rw [hstep] at hcp'
  rcases settlesOnly_settleCheckpoint hkept done id cp' hcp' with
    hsame | ⟨cp, hcp, hintent, hscope, rfl⟩
  · exact rightful_of_intent (hopen cp' hsame)
  have hguard := h turnId operationId hwork
  rw [hevent] at hguard
  cases event with
  | started | messageDelta | permissionRequest | toolCall | rawUnknown => cases hdone
  | completed payload =>
    cases hdone
    obtain ⟨hthread, hturn⟩ := hscope
    have hof (hkind : _) := turn_of_scope hkept hcp hkind hturn
    have hnone (hkind : _) := hguard id cp hcp hthread (hof hkind) hintent
    simp only [List.mem_cons, List.not_mem_nil, or_false, not_or] at hnone
    refine ⟨fun hkind _ => ?_, fun hkind => absurd hkind (hnone (.inr (.inl hkind))).1,
      fun hkind => absurd hkind (hnone (.inr (.inr hkind))).2⟩
    exact ⟨turnId, hof (.inl hkind), now, operationId, .completed payload, rfl, hwork, hevent,
      payload, rfl⟩
  | cancelled | failed | processExited =>
    cases hdone
    exact rightful_of_unconfirmed nofun fun hkind =>
      hguard id cp hcp hscope.1 (turn_of_scope hkept hcp (.inr (.inl hkind)) hscope.2) hintent
        (hkind ▸ List.mem_singleton_self _)

/-- Opening a session settles nothing. -/
theorem rightly_of_same (h : (s.step op).thread.store.checkpoint = s.thread.store.checkpoint) :
    SettlesRightly s op := by
  intro id cp' hcp' hopen
  rw [h] at hcp'
  exact rightful_of_intent (hopen cp' hcp')

/-- **One operation.** -/
theorem settlesRightly_step (hkept : WellKept s.thread.store) (h : NothingLeftOpen s op) :
    SettlesRightly s op := by
  cases op with
  | createSession binding now =>
    exact rightly_of_same ((keeps_createSession binding now).state rfl)
  | resumeSession binding sessionId now =>
    exact rightly_of_same ((keeps_resumeSession binding sessionId now).state rfl)
  | prompt operationId turnId content now => exact rightly_prompt hkept h
  | pollStream now => exact rightly_pollStream hkept h
  | decidePermission permissionId decision now => exact rightly_decidePermission hkept h
  | steerCancel now => exact rightly_steerCancel hkept
  | closeSession now => exact rightly_closeSession hkept h

theorem wellKept_apply {x : Supervised H} (hkept : WellKept x.store) (op : SupervisedOp) :
    WellKept (x.apply op).store := by
  cases op with
  | createSession binding now =>
    exact hkept.of_eq ((keeps_createSession binding now).state (s := x) rfl)
  | resumeSession binding sessionId now =>
    exact hkept.of_eq ((keeps_resumeSession binding sessionId now).state (s := x) rfl)
  | prompt operationId turnId content now =>
    exact hkept.boundary (fun _ => rfl)
      ((leaves_prompt operationId turnId content now).state_none (here_self x))
  | pollStream now =>
    rcases (leaves_pollStream x now).state_none rfl with
      hsame | ⟨event, -, hsame | ⟨turnId, operationId, done, -, -, hstore⟩⟩
    · exact hkept.of_eq (congrArg Store.checkpoint hsame)
    · exact hkept.of_eq (congrArg Store.checkpoint hsame)
    · exact (hkept.settles (settlesOnly_settleCheckpoint hkept done)).of_eq
        (congrArg Store.checkpoint hstore)
  | decidePermission permissionId decision now =>
    rcases (leaves_decidePermission permissionId decision now).state_none (here_self x) with
      hsame | ⟨turnId, operationId, -, -, hstore⟩
    · exact hkept.of_eq (congrArg Store.checkpoint hsame)
    · exact hkept.boundary (fun _ => rfl) hstore
  | steerCancel now =>
    rcases (leaves_steerCancel now).state_none (here_self x) with
      hsame | ⟨turnId, operationId, -, hstore⟩
    · exact hkept.of_eq (congrArg Store.checkpoint hsame)
    · exact hkept.boundary (fun _ => rfl) hstore
  | closeSession now =>
    rcases (leaves_closeSession now).state_none (here_self x) with
      hsame | ⟨-, st₁, hst₁, hstore⟩
    · exact hkept.of_eq (congrArg Store.checkpoint hsame)
    · have hkept₁ : WellKept st₁ := by
        rcases hst₁ with rfl | hst₁
        · exact hkept
        · refine hkept.records ?_ hst₁
          rintro (hkind | hkind | hkind) <;> cases hkind
      exact (hkept₁.settles (settlesOnly_settleCheckpoint hkept₁ _)).of_eq
        (congrArg Store.checkpoint hstore)

/-! ### All threads -/

/-- The coordinator with the permission each checkpoint of a decision was recorded
for. -/
structure Fleet (H : Type) where
  runtime : AgentRuntimeSupervisor H
  decisions : List (RuntimeCheckpointId × EventId)

/-- What happens to the coordinator: an operation on a thread, or an event that is
journaled. -/
inductive FleetOp
  | supervise (threadId : ThreadId) (op : SupervisedOp)
  | recordEvent (e : DomainEvent)

/-- One supervisor with the two ports. -/
def Fleet.focus (s : Fleet H) (v : ThreadRuntimeSupervisor) : Audited H :=
  ⟨AgentRuntimeSupervisor.view v s.runtime, s.decisions⟩

/-- One step. -/
def Fleet.step (s : Fleet H) : FleetOp → Fleet H
  | .supervise threadId op =>
    match s.runtime.entry threadId op with
    | none => s
    | some v =>
      let x := (s.focus v).step op
      ⟨AgentRuntimeSupervisor.put threadId s.runtime x.thread, x.decisions⟩
  | .recordEvent e =>
    let store := written s.runtime.store ((s.runtime.store.appendDomainEvent e).map Prod.snd)
    { s with runtime := { s.runtime with store := store } }

/-- The coordinator from an empty store on. -/
def fleetMachine (harness : H) : Machine (Fleet H) FleetOp :=
  ⟨⟨⟨harness, .empty, ∅⟩, []⟩, Fleet.step⟩

/-- The step settles rightly. -/
def Fleet.Rightly (s : Fleet H) : FleetOp → Prop
  | .supervise threadId op => ∀ v, s.runtime.entry threadId op = some v → SettlesRightly (s.focus v) op
  | .recordEvent e =>
    (s.step (.recordEvent e)).runtime.store.checkpoint = s.runtime.store.checkpoint

/-- The step finds nothing unsettled that it is not about. -/
def Fleet.Tidy (s : Fleet H) : FleetOp → Prop
  | .supervise threadId op =>
    ∀ v, s.runtime.entry threadId op = some v → NothingLeftOpen (s.focus v) op
  | .recordEvent _ => True

omit [HarnessRuntimePort H] [DefaultHasher] [ErrorText] in
theorem checkpoint_append (st : Store) (e : DomainEvent) :
    (written st ((st.appendDomainEvent e).map Prod.snd)).checkpoint = st.checkpoint := by
  cases h : st.appendDomainEvent e with
  | error err => rfl
  | ok r =>
    obtain ⟨outcome, st'⟩ := r
    obtain ⟨domain, -, rfl⟩ := Store.appendDomainEvent_cases h
    rfl

theorem wellKept_fleet {s : Fleet H} (hkept : WellKept s.runtime.store) (op : FleetOp) :
    WellKept (s.step op).runtime.store := by
  cases op with
  | supervise threadId op =>
    unfold Fleet.step
    dsimp only
    split
    · exact hkept
    · rename_i v _
      have hstep : ((s.focus v).step op).thread = (s.focus v).thread.apply op := by
        cases op <;> rfl
      change WellKept ((s.focus v).step op).thread.store
      rw [hstep]
      exact wellKept_apply hkept op
  | recordEvent e => exact hkept.of_eq (checkpoint_append _ e)

/-- **Confirmed checkpoints.** In every run of the supervisors over a harness and a
store in which no operation finds something unsettled that it is not about, every
checkpoint is settled by what happened. -/
theorem settles_rightly (harness : H) (ops : List FleetOp)
    (h : (fleetMachine harness).Meets Fleet.Tidy (fleetMachine harness).init ops) :
    (fleetMachine harness).Meets Fleet.Rightly (fleetMachine harness).init ops := by
  refine (fleetMachine harness).meets_of_invariant (I := fun s => WellKept s.runtime.store)
    (fun s op hkept _ => wellKept_fleet hkept op) (fun s op hkept htidy => ?_) ?_ h
  · cases op with
    | supervise threadId op =>
      intro v hv
      exact settlesRightly_step hkept (htidy v hv)
    | recordEvent e => exact checkpoint_append _ e
  · have hnone (id : RuntimeCheckpointId) :
        (fleetMachine harness).init.runtime.store.checkpoint[id]? = none :=
      Std.ExtTreeMap.getElem?_empty
    constructor
    · intro id cp hcp
      cases (hnone id).symm.trans hcp
    · intro id cp hcp
      cases (hnone id).symm.trans hcp

end Audit

end Supervision

section Sample

attribute [local instance] flatWriter plainText linearHasher

/-- A harness that reports given events, one a poll. -/
structure Replayed where
  events : List HarnessEvent

instance : HarnessRuntimePort Replayed where
  createSession h _ _ := (.ok openedInfo, h)
  resumeSession h _ _ _ := (.ok openedInfo, h)
  sendPrompt h _ _ := (.ok (), h)
  cancelTurn h _ := (.ok (), h)
  decidePermission h _ _ _ := (.ok (), h)
  pollEvent h _ := (.ok h.events.head?, ⟨h.events.tail⟩)
  closeSession h _ := (.ok (), h)

/-- A turn of the sample thread is prompted for. -/
def prompted : List FleetOp :=
  sampleTurn.map .recordEvent ++
    [.supervise sampleThreadId (.createSession ⟨⟨"hsb_confirm000000001", by decide⟩⟩ 6),
      .supervise sampleThreadId
        (.prompt ⟨"op_confirm000000001", by decide⟩ sampleTurnId "hello" 7)]

variable {s : Fleet Replayed} {v : ThreadRuntimeSupervisor}

/-- Whether none is unsettled can be read off the rows. -/
theorem noneOpen_of_rows {threadId : ThreadId} {kinds : List BoundaryKind}
    (h : ∀ e ∈ s.runtime.store.checkpoint.toList, e.2.state = .intent →
      e.2.boundaryKind ∉ kinds) : NoneOpen (s.focus v).thread.store threadId kinds :=
  fun id cp hcp _ hstate =>
    h (id, cp) (Std.ExtTreeMap.mem_toList_iff_getElem?_eq_some.2 hcp) hstate

/-- Any event may be polled when neither a decision nor a cancellation is
unsettled. -/
theorem nothingLeftOpen_poll (h : ∀ e ∈ s.runtime.store.checkpoint.toList, e.2.state = .intent →
      e.2.boundaryKind ∉ [BoundaryKind.permissionDecision, .cancel]) :
    NothingLeftOpen (s.focus v) (.pollStream now) := by
  intro turnId operationId _
  have hnone : NoneOpen (s.focus v).thread.store (s.focus v).thread.supervisor.threadId
      [.permissionDecision, .cancel] := noneOpen_of_rows h
  split
  · exact fun id cp hcp hthread _ hstate => hnone id cp hcp hthread hstate
  all_goals first
    | exact fun id cp hcp hthread _ hstate hkind =>
      hnone id cp hcp hthread hstate (List.mem_cons.2 (.inl (List.mem_singleton.1 hkind)))
    | trivial

set_option maxRecDepth 20000 in
theorem settles_rightly_completed :
    let m := fleetMachine (H := Replayed) ⟨[.completed none]⟩
    let ops := prompted ++ [.supervise sampleThreadId (.pollStream 8),
      .supervise sampleThreadId (.closeSession 9)]
    m.Meets Fleet.Tidy m.init ops ∧ m.Meets Fleet.Rightly m.init ops := by
  intro m ops
  have h : m.Meets Fleet.Tidy m.init ops := by
    refine ⟨trivial, trivial, fun _ _ => trivial, ?_, ?_, ?_, trivial⟩
    · intro v _ id cp hcp hthread _
      exact noneOpen_of_rows (by decide) id cp hcp hthread
    · exact fun v _ => nothingLeftOpen_poll (by decide)
    · exact fun v _ _ => noneOpen_of_rows (by decide)
  exact ⟨h, settles_rightly _ ops h⟩

set_option maxRecDepth 20000 in
/-- A session that is closed while its turn runs: the prompt is confirmed though
nothing was reported. -/
theorem not_rightly_when_closed :
    ¬ ∀ ops : List FleetOp,
      let m := fleetMachine (H := Replayed) ⟨[]⟩
      m.Meets Fleet.Rightly m.init ops := by
  intro h
  obtain ⟨-, hlast, -⟩ := (Machine.meets_append _).1
    (h (prompted ++ [.supervise sampleThreadId (.closeSession 9)]))
  generalize hs : (fleetMachine (H := Replayed) ⟨[]⟩).runFrom _ prompted = s at hlast
  have hbefore : ∀ e ∈ s.runtime.store.checkpoint.toList, e.2.state = .intent := by
    rw [← hs]
    decide
  have hafter : ∃ e ∈ (s.step (.supervise sampleThreadId (.closeSession 9))
      ).runtime.store.checkpoint.toList, e.2.boundaryKind = .prompt ∧ e.2.state = .confirmed := by
    rw [← hs]
    decide
  obtain ⟨⟨id, cp⟩, hmem, hkind, hstate⟩ := hafter
  cases hv : s.runtime.entry sampleThreadId (.closeSession 9) with
  | none =>
    rw [Fleet.step, hv] at hmem
    cases (hbefore _ hmem).symm.trans hstate
  | some v =>
    rw [Fleet.step, hv] at hmem
    have hrightful := hlast v hv id cp (Std.ExtTreeMap.mem_toList_iff_getElem?_eq_some.1 hmem)
      fun cp hcp => hbefore (id, cp) (Std.ExtTreeMap.mem_toList_iff_getElem?_eq_some.2 hcp)
    obtain ⟨_, -, _, _, _, hop, -⟩ := hrightful.prompt hkind hstate
    cases hop

end Sample

end Altior.Runtime
