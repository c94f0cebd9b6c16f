import Altior.Runtime.Calls

/-!
# What an operation asks of the harness

Every operation on a supervised thread makes at most one call of the harness, and
makes it on the session the supervisor is bound to.
-/

namespace Altior.Runtime

open Domain Lib Storage

variable [SerdeJsonWriter] {H : Type}

/-- The supervisor is bound to a given session, if any, and the harness is a given
one. -/
def Sits (bound : Option HarnessSessionId) (h : H) (x : Supervised H) : Prop :=
  x.supervisor.sessionId = bound ∧ x.harness = h

variable {g : ThreadRuntimeSupervisor → ThreadRuntimeSupervisor}

section Rules

variable {α β ε : Type} {bound : Option HarnessSessionId} {h : H}
  {S : Option HarnessSessionId → H → Prop}

/-- However the computation ends, the session and the harness are among the given
ones. -/
def EndsAt (P : Supervised H → Prop) (m : Proc (Supervised H) ε α)
    (S : Option HarnessSessionId → H → Prop) : Prop :=
  Proc.Spec P m (fun _ x => S x.supervisor.sessionId x.harness)
    (fun _ x => S x.supervisor.sessionId x.harness) fun _ => True

theorem endsAt_read_of {P : Supervised H → Prop} {k : Supervised H → Proc (Supervised H) ε β}
    (hP : ∀ x, P x → Sits bound h x) (hk : ∀ x, P x → EndsAt (Sits bound h) (k x) S) :
    EndsAt P (Proc.get >>= k) S :=
  fun s n hs => hk s hs s n (hP s hs)

theorem endsAt_read {k : Supervised H → Proc (Supervised H) ε β}
    (hk : ∀ x, Sits bound h x → EndsAt (Sits bound h) (k x) S) :
    EndsAt (Sits bound h) (Proc.get >>= k) S :=
  endsAt_read_of (fun _ hx => hx) hk

theorem endsAt_stay {m : Proc (Supervised H) ε α} (hm : Proc.Keeps (Sits bound h) m)
    (hS : S bound h) : EndsAt (Sits bound h) m S :=
  hm.mono (fun _ hx => hx) (fun _ x hx => by rw [hx.1, hx.2]; exact hS)
    (fun _ x hx => by rw [hx.1, hx.2]; exact hS) fun _ _ => trivial

/-- A part that asks nothing of the harness comes first. -/
theorem endsAt_first {m : Proc (Supervised H) ε α} {k : α → Proc (Supervised H) ε β}
    (hm : Proc.Keeps (Sits bound h) m) (hS : S bound h)
    (hk : ∀ a, EndsAt (Sits bound h) (k a) S) : EndsAt (Sits bound h) (m >>= k) S :=
  .bind (M := fun _ => Sits bound h) (hm.mono (fun _ hx => hx) (fun _ _ hx => hx)
    (fun _ x hx => by rw [hx.1, hx.2]; exact hS) fun _ _ => trivial) hk

variable {k : Unit → Proc (Supervised H) RuntimeError β} {f : H → Except HarnessError α × H}

/-- A part whose failure is ignored comes first. -/
theorem endsAt_tried {m : Proc (Supervised H) RuntimeError α} (hm : Proc.Keeps (Sits bound h) m)
    (hk : EndsAt (Sits bound h) (k ()) S) : EndsAt (Sits bound h) (Proc.ignore m >>= k) S :=
  .bind (M := fun _ => Sits bound h) (.ignore (hm.mono (fun _ hx => hx) (fun _ _ hx => hx)
    (fun _ _ hx => hx) fun _ _ => trivial)) fun _ => hk

/-- The supervisor is bound or let go. -/
theorem endsAt_change {bound' : Option HarnessSessionId}
    (hg : ∀ v, v.sessionId = bound → (g v).sessionId = bound')
    (hk : EndsAt (Sits bound' h) (k ()) S) : EndsAt (Sits bound h) (onSupervisor g >>= k) S :=
  .bind (M := fun _ => Sits bound' h) (.modify fun _ hx => ⟨hg _ hx.1, hx.2⟩) fun _ => hk

theorem endsAt_last {bound' : Option HarnessSessionId}
    (hg : ∀ v, v.sessionId = bound → (g v).sessionId = bound') (hS : S bound' h) :
    EndsAt (Sits bound h) (onSupervisor g : Proc (Supervised H) RuntimeError Unit) S :=
  .modify fun x hx => by
    change S (g x.supervisor).sessionId x.harness
    rw [hg _ hx.1, hx.2]
    exact hS

theorem sits_callCheckpoint (f : Store → Except CheckpointError Store) :
    Proc.Keeps (Sits bound h) (callCheckpoint f) :=
  .act fun x hx => by
    split
    · exact hx
    · exact hx

/-- The call of the harness, whose answer is looked at. -/
theorem endsAt_attempt {k : Except HarnessError α → Proc (Supervised H) RuntimeError β}
    (hk : EndsAt (Sits bound (f h).2) (k (f h).1) S) :
    EndsAt (Sits bound h) ((callHarness f).attempt >>= k) S := by
  refine .bind (M := fun answer x => answer = (f h).1 ∧ Sits bound (f h).2 x)
    (.attempt (.act ?_ ?_ fun _ _ => trivial)) fun answer x n hx => ?_
  · rintro x a ⟨hbound, rfl⟩ ha
    exact ⟨ha.symm, hbound, rfl⟩
  · rintro x e ⟨hbound, rfl⟩ he
    exact ⟨he.symm, hbound, rfl⟩
  · obtain ⟨rfl, hx⟩ := hx
    exact hk x n hx

/-- The call of the harness, whose failure is passed on. -/
theorem endsAt_harness {k : α → Proc (Supervised H) RuntimeError β} (hS : S bound (f h).2)
    (hk : ∀ a, (f h).1 = .ok a → EndsAt (Sits bound (f h).2) (k a) S) :
    EndsAt (Sits bound h) ((callHarness f).mapError .harness >>= k) S := by
  refine .bind (M := fun a x => (f h).1 = .ok a ∧ Sits bound (f h).2 x)
    (.mapError (.act ?_ ?_ fun _ _ => trivial)) fun a x n hx => hk a hx.1 x n hx.2
  · rintro x a ⟨hbound, rfl⟩ ha
    exact ⟨ha, hbound, rfl⟩
  · rintro x e ⟨rfl, rfl⟩ -
    exact hS

/-- The call of the harness, whose answer does not matter. -/
theorem endsAt_ignored (hk : EndsAt (Sits bound (f h).2) (k ()) S) :
    EndsAt (Sits bound h) (Proc.ignore ((callHarness f).mapError .harness) >>= k) S := by
  refine .bind (M := fun _ => Sits bound (f h).2) (.ignore (.mapError (.act ?_ ?_ fun _ _ =>
    trivial))) fun _ => hk
  · rintro x a ⟨hbound, rfl⟩ -
    exact ⟨hbound, rfl⟩
  · rintro x e ⟨hbound, rfl⟩ -
    exact ⟨hbound, rfl⟩

end Rules

/-! ## The operations -/

variable [HarnessRuntimePort H]

/-- A call of the harness on a session that stays open. -/
inductive PortCall (h : H) (sessionId : HarnessSessionId) : H → Prop
  | sendPrompt (request : HarnessPromptRequest) :
      PortCall h sessionId (HarnessRuntimePort.sendPrompt h sessionId request).2
  | cancelTurn : PortCall h sessionId (HarnessRuntimePort.cancelTurn h sessionId).2
  | decidePermission (eventId : EventId) (decision : PermissionDecision) :
      PortCall h sessionId (HarnessRuntimePort.decidePermission h sessionId eventId decision).2
  | pollEvent : PortCall h sessionId (HarnessRuntimePort.pollEvent h sessionId).2

/-- The binding stays, and at most one call is made, on the bound session. -/
def Calls (bound : Option HarnessSessionId) (h : H) (bound' : Option HarnessSessionId) (h' : H) :
    Prop :=
  bound' = bound ∧ (h' = h ∨ ∃ sessionId, bound = some sessionId ∧ PortCall h sessionId h')

section Operations

variable {bound : Option HarnessSessionId} {h : H}

theorem Calls.refl : Calls bound h bound h := ⟨rfl, .inl rfl⟩

theorem Calls.on {sessionId : HarnessSessionId} {h' : H} (hbound : bound = some sessionId)
    (hcall : PortCall h sessionId h') : Calls bound h bound h' :=
  ⟨rfl, .inr ⟨sessionId, hbound, hcall⟩⟩

omit [HarnessRuntimePort H] in
theorem sits_onSupervisor (hg : ∀ v, (g v).sessionId = v.sessionId) :
    Proc.Keeps (Sits bound h) (onSupervisor g : Proc (Supervised H) RuntimeError Unit) :=
  .modify fun _ hx => ⟨(hg _).trans hx.1, hx.2⟩

omit [HarnessRuntimePort H] in
theorem sits_finishTurn (turnId : TurnId) (operationId : OperationId) (state : TurnState)
    (delivery : DeliveryState) (next : SupervisorState) (now : UInt64) :
    Proc.Keeps (Sits bound h) (finishTurn turnId operationId state delivery next now) :=
  .bind .get fun _ => .bind (sits_callCheckpoint _) fun _ => sits_onSupervisor fun _ => rfl

omit [HarnessRuntimePort H] in
theorem sits_crashTurn (turnId : TurnId) (operationId : OperationId) (exitCode : Option Int32)
    (now : UInt64) : Proc.Keeps (Sits bound h) (crashTurn turnId operationId exitCode now) :=
  .bind .get fun _ => .bind (.ignore (sits_callCheckpoint _)) fun _ =>
    sits_onSupervisor fun _ => rfl

omit [HarnessRuntimePort H] in
/-- What is made of an event asks nothing of the harness. -/
theorem sits_applyEvent (event : HarnessEvent) (now : UInt64) :
    Proc.Keeps (Sits bound h) (applyEvent event now) := by
  refine .bind .get fun x => ?_
  cases event with
  | started | rawUnknown => exact .pure _
  | messageDelta | toolCall =>
    dsimp only
    split <;> exact .pure _
  | permissionRequest =>
    dsimp only
    split
    · exact .bind (sits_onSupervisor fun _ => rfl) fun _ => .pure _
    · exact .pure _
  | completed | cancelled | failed =>
    dsimp only
    split
    · exact .bind (sits_finishTurn _ _ _ _ _ _) fun _ => .pure _
    · exact .pure _
  | processExited =>
    dsimp only
    split
    all_goals first
      | exact .bind (sits_crashTurn _ _ _ _) fun _ => .pure _
      | exact .bind (sits_onSupervisor fun _ => rfl) fun _ => .pure _

theorem calls_pollStream (now : UInt64) :
    EndsAt (Sits bound h) (pollStream now : Proc (Supervised H) RuntimeError _)
      (Calls bound h) := by
  refine endsAt_read fun x hx => ?_
  split
  · exact endsAt_stay (.pure _) .refl
  · rename_i sessionId hsession
    have hcall := Calls.on (hx.1.symm.trans hsession) (PortCall.pollEvent (h := h))
    refine endsAt_harness hcall fun event _ => ?_
    cases event with
    | none => exact endsAt_stay (.pure _) hcall
    | some event => exact endsAt_stay (sits_applyEvent event now) hcall

variable [DefaultHasher] [ErrorText]

theorem calls_prompt (operationId : OperationId) (turnId : TurnId) (content : String)
    (now : UInt64) : EndsAt (Sits bound h)
      (prompt operationId turnId content now : Proc (Supervised H) RuntimeError TurnAdmission)
      (Calls bound h) := by
  refine endsAt_read fun x hx => .ofExcept_bind (fun sessionId hcheck => ?_) fun _ _ y hy => ?_
  · have hsession : bound = some sessionId := by
      rw [← hx.1]
      simp only [ThreadRuntimeSupervisor.checkPrompt, bind, Except.bind] at hcheck
      split at hcheck
      · cases hcheck
      · split at hcheck
        · cases hcheck
        · unfold ThreadRuntimeSupervisor.boundSession at hcheck
          split at hcheck
          · rename_i hbound
            cases hcheck
            exact hbound
          · cases hcheck
    change EndsAt _ _ (Calls _ _)
    split
    · exact endsAt_stay (.pure _) .refl
    · exact endsAt_stay (.fail _) .refl
    · refine endsAt_first (sits_onSupervisor fun _ => rfl) .refl fun _ =>
        endsAt_first (sits_callCheckpoint _) .refl fun _ => endsAt_attempt ?_
      have hcall := Calls.on hsession (PortCall.sendPrompt (h := h) ⟨turnId, operationId, content⟩)
      split
      · exact endsAt_stay (.bind (.ignore (sits_callCheckpoint _)) fun _ =>
          .bind (.ignore (sits_callCheckpoint _)) fun _ =>
            .bind (sits_onSupervisor fun _ => rfl) fun _ => .fail _) hcall
      · exact endsAt_stay (.bind (sits_callCheckpoint _) fun _ =>
          .bind (sits_onSupervisor fun _ => rfl) fun _ => .pure _) hcall
  · rw [hy.1, hy.2]
    exact .refl

theorem calls_decidePermission (permissionId : EventId) (decision : PermissionDecision)
    (now : UInt64) : EndsAt (Sits bound h)
      (decidePermission permissionId decision now : Proc (Supervised H) RuntimeError Unit)
      (Calls bound h) := by
  refine endsAt_read fun x hx => ?_
  dsimp only
  split
  · refine .ite (fun _ => endsAt_stay (.fail _) .refl) fun _ => ?_
    split
    · exact endsAt_stay (.fail _) .refl
    · rename_i sessionId hsession
      have hcall := Calls.on (hx.1.symm.trans hsession)
        (PortCall.decidePermission (h := h) permissionId decision)
      exact endsAt_first (sits_callCheckpoint _) .refl fun _ =>
        endsAt_harness hcall fun _ _ => endsAt_stay (.bind (sits_callCheckpoint _) fun _ =>
          sits_onSupervisor fun _ => rfl) hcall
  · exact endsAt_stay (.fail _) .refl

theorem calls_steerCancel (now : UInt64) : EndsAt (Sits bound h)
      (steerCancel now : Proc (Supervised H) RuntimeError CancelOutcome) (Calls bound h) := by
  refine endsAt_read fun x hx => endsAt_first (.ofExcept _) .refl fun _ => ?_
  have hcancel : EndsAt (Sits bound h)
      (cancelActive x.supervisor now : Proc (Supervised H) RuntimeError CancelOutcome)
      (Calls bound h) := by
    unfold cancelActive
    split
    · rename_i turnId operationId sessionId hwork hsession
      have hcall := Calls.on (hx.1.symm.trans hsession) (PortCall.cancelTurn (h := h))
      exact endsAt_first (sits_callCheckpoint _) .refl fun _ =>
        endsAt_harness hcall fun _ _ => endsAt_stay (.bind (sits_onSupervisor fun _ => rfl)
          fun _ => .pure _) hcall
    · exact endsAt_stay (.fail _) .refl
  split
  · exact endsAt_stay (.pure _) .refl
  · exact hcancel
  · exact hcancel
  · exact endsAt_stay (.pure _) .refl

/-- Closing lets the session go and closes it. -/
def Closes (bound : Option HarnessSessionId) (h : H) (bound' : Option HarnessSessionId) (h' : H) :
    Prop :=
  bound' = none ∧ h' = bound.elim h fun sessionId => (HarnessRuntimePort.closeSession h sessionId).2

theorem closes_closeSession (now : UInt64) : EndsAt (Sits bound h)
      (closeSession now : Proc (Supervised H) RuntimeError Unit) (Closes bound h) := by
  refine endsAt_read fun x hx => ?_
  dsimp only
  split
  · rename_i hsession
    have hbound : bound = none := hx.1.symm.trans hsession
    subst hbound
    exact endsAt_last (fun _ hv => hv) ⟨rfl, rfl⟩
  · rename_i sessionId hsession
    have hbound : bound = some sessionId := hx.1.symm.trans hsession
    subst hbound
    refine endsAt_change (fun _ _ => rfl) (endsAt_tried (sits_callCheckpoint _)
      (endsAt_ignored (endsAt_tried (sits_callCheckpoint _) (endsAt_last (fun _ hv => hv) ?_))))
    exact ⟨rfl, rfl⟩

/-- Opening asks the harness once, unless a session is bound; what it answers is
bound, or nothing is. -/
def Opens (bound : Option HarnessSessionId) (h : H)
    (opened : Except HarnessError HarnessSessionInfo × H) (bound' : Option HarnessSessionId)
    (h' : H) : Prop :=
  (bound.isSome = true ∧ bound' = bound ∧ h' = h) ∨
    (bound = none ∧ h' = opened.2 ∧ (bound' = none ∨
      ∃ info, opened.1 = .ok info ∧ bound' = some info.sessionId))

omit [HarnessRuntimePort H] [DefaultHasher] in
theorem sits_bindSession (binding : AcpHarnessBinding) (sessionId : HarnessSessionId)
    (now : UInt64) : Proc.Keeps (Sits bound h) (bindSession binding sessionId now) :=
  .bind .get fun _ => sits_callCheckpoint _

omit [DefaultHasher] in
theorem opens_createSession (binding : AcpHarnessBinding) (now : UInt64) (threadId : ThreadId) :
    EndsAt (fun x : Supervised H => x.supervisor.threadId = threadId ∧ Sits bound h x)
      (createSession binding now)
      (Opens bound h (HarnessRuntimePort.createSession h binding threadId)) := by
  refine endsAt_read_of (fun _ hx => hx.2) ?_
  rintro x ⟨rfl, hx⟩
  refine .ite (fun hsome => endsAt_stay (.fail _) (Or.inl ⟨hx.1 ▸ hsome, rfl, rfl⟩))
    fun hnone => ?_
  have hbound : bound = none := by
    rw [← hx.1]
    exact Option.not_isSome_iff_eq_none.1 hnone
  subst hbound
  refine endsAt_change (fun _ hv => hv) (endsAt_attempt ?_)
  split
  · exact endsAt_change (fun _ _ => rfl) (endsAt_stay (.fail _) (.inr ⟨rfl, rfl, .inl rfl⟩))
  · rename_i info hinfo
    exact endsAt_tried (sits_bindSession _ _ _) (endsAt_change (fun _ _ => rfl)
      (endsAt_stay (.pure _) (.inr ⟨rfl, rfl, .inr ⟨info, hinfo, rfl⟩⟩)))

omit [DefaultHasher] in
theorem opens_resumeSession (binding : AcpHarnessBinding) (sessionId : HarnessSessionId)
    (now : UInt64) (threadId : ThreadId) :
    EndsAt (fun x : Supervised H => x.supervisor.threadId = threadId ∧ Sits bound h x)
      (resumeSession binding sessionId now)
      (Opens bound h (HarnessRuntimePort.resumeSession h binding sessionId threadId)) := by
  refine endsAt_read_of (fun _ hx => hx.2) ?_
  rintro x ⟨rfl, hx⟩
  refine .ite (fun hsome => endsAt_stay (.fail _) (Or.inl ⟨hx.1 ▸ hsome, rfl, rfl⟩))
    fun hnone => ?_
  have hbound : bound = none := by
    rw [← hx.1]
    exact Option.not_isSome_iff_eq_none.1 hnone
  subst hbound
  refine endsAt_change (fun _ hv => hv) (endsAt_attempt ?_)
  split
  · exact endsAt_change (fun _ _ => rfl) (endsAt_stay (.fail _) (.inr ⟨rfl, rfl, .inl rfl⟩))
  · rename_i info hinfo
    refine .ite (fun _ => endsAt_change (fun _ _ => rfl)
      (endsAt_stay (.fail _) (.inr ⟨rfl, rfl, .inl rfl⟩))) fun _ => ?_
    exact endsAt_tried (sits_bindSession _ _ _) (endsAt_last (fun _ _ => rfl)
      (.inr ⟨rfl, rfl, .inr ⟨info, hinfo, rfl⟩⟩))

/-- What an operation makes of the binding and the harness. -/
def Effect (x : Supervised H) (op : SupervisedOp) :
    Option HarnessSessionId → H → Prop :=
  match op with
  | .createSession binding _ => Opens x.supervisor.sessionId x.harness
      (HarnessRuntimePort.createSession x.harness binding x.supervisor.threadId)
  | .resumeSession binding sessionId _ => Opens x.supervisor.sessionId x.harness
      (HarnessRuntimePort.resumeSession x.harness binding sessionId x.supervisor.threadId)
  | .closeSession _ => Closes x.supervisor.sessionId x.harness
  | _ => Calls x.supervisor.sessionId x.harness

/-- **One operation.** -/
theorem effect_apply (x : Supervised H) (op : SupervisedOp) :
    Effect x op (x.apply op).supervisor.sessionId (x.apply op).harness := by
  have hx : Sits x.supervisor.sessionId x.harness x := ⟨rfl, rfl⟩
  cases op with
  | createSession binding now => exact (opens_createSession binding now _).state_none ⟨rfl, hx⟩
  | resumeSession binding sessionId now =>
    exact (opens_resumeSession binding sessionId now _).state_none ⟨rfl, hx⟩
  | prompt operationId turnId content now =>
    exact (calls_prompt operationId turnId content now).state_none hx
  | pollStream now => exact (calls_pollStream now).state_none hx
  | decidePermission permissionId decision now =>
    exact (calls_decidePermission permissionId decision now).state_none hx
  | steerCancel now => exact (calls_steerCancel now).state_none hx
  | closeSession now => exact (closes_closeSession now).state_none hx

omit [HarnessRuntimePort H] [DefaultHasher] in
/-- A supervisor stays that of its thread. -/
theorem threadId_call (v : ThreadRuntimeSupervisor) (call : SupervisorCall) :
    (v.call call).threadId = v.threadId := by
  have hturn (state : TurnState) (delivery : DeliveryState) (next : SupervisorState)
      (settled : Except CheckpointError Unit) :
      (v.afterTurn state delivery next settled).threadId = v.threadId := by
    unfold ThreadRuntimeSupervisor.afterTurn
    split <;> rfl
  cases call with
  | createSession answer =>
    simp only [ThreadRuntimeSupervisor.call, ThreadRuntimeSupervisor.created]
    split
    · rfl
    · split <;> rfl
  | resumeSession answer =>
    simp only [ThreadRuntimeSupervisor.call, ThreadRuntimeSupervisor.resumed]
    split
    · rfl
    · split
      · rfl
      · split <;> rfl
  | prompt operationId turnId intent sent settled =>
    simp only [ThreadRuntimeSupervisor.call, ThreadRuntimeSupervisor.prompted]
    split
    · rfl
    · split
      · rfl
      · rfl
      · split <;> rfl
  | pollStream answer settled =>
    simp only [ThreadRuntimeSupervisor.call, ThreadRuntimeSupervisor.polled]
    split
    · rename_i event _
      cases event with
      | started | messageDelta | toolCall | rawUnknown => rfl
      | completed | cancelled | failed => exact hturn _ _ _ _
      | permissionRequest | processExited =>
        simp only [ThreadRuntimeSupervisor.afterEvent]
        split <;> rfl
    · rfl
  | decidePermission permissionId intent sent settled =>
    simp only [ThreadRuntimeSupervisor.call, ThreadRuntimeSupervisor.decided]
    split
    · split <;> rfl
    · rfl
  | steerCancel intent sent =>
    simp only [ThreadRuntimeSupervisor.call, ThreadRuntimeSupervisor.cancelled]
    split
    · split <;> rfl
    · split <;> rfl
    · rfl
  | closeSession => rfl

theorem threadId_apply (x : Supervised H) (op : SupervisedOp) :
    (x.apply op).supervisor.threadId = x.supervisor.threadId := by
  obtain ⟨call, hcall⟩ := called_apply x op
  rw [hcall]
  exact threadId_call _ call

end Operations

end Altior.Runtime
