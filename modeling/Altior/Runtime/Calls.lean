import Altior.Runtime.Supervisor

/-!
# A supervisor among arbitrary ports

What the operations of `ThreadRuntimeSupervisor` do to the supervisor itself,
with the answers of the two ports as inputs.  Every run of a supervisor over a
harness and a store is a run of this machine, so what holds for all answers
holds whatever the ports are.
-/

namespace Altior.Runtime

open Domain Lib

/-- Whether a state stands for a session that is up. -/
def SupervisorState.isBound : SupervisorState → Bool
  | ready | prompting _ _ _ | awaitingPermission _ _ _ | cancelling _ _ => true
  | idle | starting | closed | crashed _ _ => false

/-- Whether a turn is being cancelled. -/
def SupervisorState.isCancelling : SupervisorState → Bool
  | cancelling _ _ => true
  | _ => false

namespace ThreadRuntimeSupervisor

/-- A prompt for this turn and this operation passes every check that comes
before the ports. -/
def admits (v : ThreadRuntimeSupervisor) (operationId : OperationId) (turnId : TurnId) : Bool :=
  (v.checkPrompt turnId).isOk && (v.operations.admitOperation operationId).1 matches .ok .execute

/-- The coordinator's `create_session`, given the harness's answer. -/
def created (v : ThreadRuntimeSupervisor) (answer : Except HarnessError HarnessSessionInfo) :
    Except RuntimeError HarnessSessionId × ThreadRuntimeSupervisor :=
  if v.sessionId.isSome then (.error (.sessionAlreadyActive v.threadId), v)
  else match answer with
    | .error err => (.error (.harness err), v.markStarting.resetIdle)
    | .ok info => (.ok info.sessionId, v.markStarting.onSessionEstablished info)

/-- The coordinator's `resume_session`, given the harness's answer. -/
def resumed (v : ThreadRuntimeSupervisor) (answer : Except HarnessError HarnessSessionInfo) :
    Except RuntimeError Unit × ThreadRuntimeSupervisor :=
  if v.sessionId.isSome then (.error (.sessionAlreadyActive v.threadId), v)
  else match answer with
    | .error err => (.error (.harness err), v.markStarting.resetIdle)
    | .ok info =>
      if info.capabilities["session.resume"]? = some .unsupported then
        (.error (.unsupportedCapability "session.resume"), v.markStarting.resetIdle)
      else (.ok (), v.markStarting.onSessionEstablished info)

section Prompt

variable [ErrorText]

/-- `prompt`, given the answers to the intent, the call of the harness and the
settlement of the delivery. -/
def prompted (v : ThreadRuntimeSupervisor) (operationId : OperationId) (turnId : TurnId)
    (intent : Except CheckpointError Unit) (sent : Except HarnessError Unit)
    (settled : Except CheckpointError Unit) :
    Except RuntimeError TurnAdmission × ThreadRuntimeSupervisor :=
  match v.checkPrompt turnId with
  | .error err => (.error err, v)
  | .ok _ =>
    match v.operations.admitOperation operationId with
    | (.ok .duplicate, _) => (.ok .duplicate, v)
    | (.error err, _) => (.error (.operationAdmitFailed err), v)
    | (.ok .execute, operations) =>
      let w := { v with operations := operations }
      match intent, sent, settled with
      | .error err, _, _ => (.error (.checkpoint err), w)
      | .ok (), .error err, _ =>
        (.error (.harness err),
          { w with
            turnHistory := w.turnHistory.insert turnId
              ⟨turnId, operationId, .indeterminate, .failed⟩
            state := .crashed err.display .indeterminate })
      | .ok (), .ok (), .error err => (.error (.checkpoint err), w)
      | .ok (), .ok (), .ok () =>
        (.ok .admitted, { w with state := .prompting turnId operationId .indeterminate })

/-- The supervisor once the operation is in its registry. -/
def admitted (v : ThreadRuntimeSupervisor) (operationId : OperationId) : ThreadRuntimeSupervisor :=
  { v with operations := (v.operations.admitOperation operationId).2 }

variable {v : ThreadRuntimeSupervisor} {operationId : OperationId} {turnId : TurnId}
  {intent : Except CheckpointError Unit} {sent : Except HarnessError Unit}
  {settled : Except CheckpointError Unit}

/-- A prompt that does not pass the checks changes nothing and is not taken. -/
theorem prompted_of_not_admits (h : v.admits operationId turnId = false) :
    (v.prompted operationId turnId intent sent settled).2 = v := by
  unfold prompted
  cases hcheck : v.checkPrompt turnId with
  | error err => rfl
  | ok sessionId =>
    rcases hadmit : v.operations.admitOperation operationId with ⟨err | _ | _, operations⟩
    · rfl
    · simp [admits, hcheck, hadmit, Except.isOk, Except.toBool] at h
    · rfl

/-- A prompt that passes the checks. -/
theorem prompted_of_admits (h : v.admits operationId turnId = true) :
    v.prompted operationId turnId intent sent settled =
      match intent, sent, settled with
      | .error err, _, _ => (.error (.checkpoint err), v.admitted operationId)
      | .ok (), .error err, _ =>
        (.error (.harness err),
          { v.admitted operationId with
            turnHistory := v.turnHistory.insert turnId
              ⟨turnId, operationId, .indeterminate, .failed⟩
            state := .crashed err.display .indeterminate })
      | .ok (), .ok (), .error err => (.error (.checkpoint err), v.admitted operationId)
      | .ok (), .ok (), .ok () =>
        (.ok .admitted,
          { v.admitted operationId with
            state := .prompting turnId operationId .indeterminate }) := by
  unfold prompted admitted
  cases hcheck : v.checkPrompt turnId with
  | error err => simp [admits, hcheck, Except.isOk, Except.toBool] at h
  | ok sessionId =>
    rcases hadmit : v.operations.admitOperation operationId with ⟨err | _ | _, operations⟩
    · simp [admits, hadmit] at h
    · rfl
    · simp [admits, hadmit] at h

end Prompt

/-- A terminal event, given the answer to the settlement of the turn. -/
def afterTurn (v : ThreadRuntimeSupervisor) (state : TurnState) (delivery : DeliveryState)
    (next : SupervisorState) (settled : Except CheckpointError Unit) : ThreadRuntimeSupervisor :=
  match v.state.activeWork, settled with
  | some (turnId, operationId), .ok () => v.endTurn turnId operationId state delivery next
  | _, _ => v

/-- `decide_permission`, given the answers of the ports. -/
def decided (v : ThreadRuntimeSupervisor) (permissionId : EventId)
    (intent : Except CheckpointError Unit) (sent : Except HarnessError Unit)
    (settled : Except CheckpointError Unit) : ThreadRuntimeSupervisor :=
  match v.state with
  | .awaitingPermission turnId operationId pending =>
    if pending = permissionId ∧ v.sessionId.isSome ∧ intent.isOk ∧ sent.isOk ∧ settled.isOk then
      { v with state := .prompting turnId operationId .indeterminate }
    else v
  | _ => v

/-- `steer_cancel`, given the answers of the ports. -/
def cancelled (v : ThreadRuntimeSupervisor) (intent : Except CheckpointError Unit)
    (sent : Except HarnessError Unit) : ThreadRuntimeSupervisor :=
  let cancelling (turnId : TurnId) (operationId : OperationId) : ThreadRuntimeSupervisor :=
    if (v.checkCapability "session.cancel").isOk ∧ v.sessionId.isSome ∧ intent.isOk ∧ sent.isOk then
      { v with state := .cancelling (some turnId) (some operationId) }
    else v
  match v.state with
  | .prompting turnId operationId _ => cancelling turnId operationId
  | .awaitingPermission turnId operationId _ => cancelling turnId operationId
  | _ => v

/-- `close_session`: no answer of a port matters. -/
def closed (v : ThreadRuntimeSupervisor) : ThreadRuntimeSupervisor :=
  { v with sessionId := none, state := .closed }

variable [SerdeJson]

/-- An event of the harness, given the answer to the settlement it makes. -/
def afterEvent (v : ThreadRuntimeSupervisor) (event : HarnessEvent)
    (settled : Except CheckpointError Unit) : ThreadRuntimeSupervisor :=
  match event with
  | .permissionRequest eventId _ _ =>
    match v.state with
    | .prompting turnId operationId _ =>
      { v with state := .awaitingPermission turnId operationId eventId }
    | _ => v
  | .completed _ => v.afterTurn .completed .confirmed .ready settled
  | .cancelled => v.afterTurn .cancelled .confirmed .ready settled
  | .failed error delivery =>
    v.afterTurn .failed delivery
      (if delivery = .indeterminate then .crashed error delivery else .ready) settled
  | .processExited exitCode =>
    let crash (turnId : TurnId) (operationId : OperationId) : ThreadRuntimeSupervisor :=
      v.endTurn turnId operationId .failed .indeterminate
        (.crashed ("unexpected subprocess exit with code " ++ debugExitCode exitCode)
          .indeterminate)
    match v.state with
    | .prompting turnId operationId _ => crash turnId operationId
    | .awaitingPermission turnId operationId _ => crash turnId operationId
    | .cancelling _ _ | .ready | .idle => { v with state := .closed }
    | .closed | .crashed _ _ | .starting => v
  | .started _ | .messageDelta _ | .toolCall _ _ | .rawUnknown _ _ => v

/-- `poll_stream`, given the event the harness has and the answer to the
settlement it makes. -/
def polled (v : ThreadRuntimeSupervisor) (answer : Except HarnessError (Option HarnessEvent))
    (settled : Except CheckpointError Unit) : ThreadRuntimeSupervisor :=
  match v.sessionId, answer with
  | some _, .ok (some event) => v.afterEvent event settled
  | _, _ => v

end ThreadRuntimeSupervisor

/-- An operation on a supervisor with what the ports answer in it. -/
inductive SupervisorCall [SerdeJson]
  | createSession (answer : Except HarnessError HarnessSessionInfo)
  | resumeSession (answer : Except HarnessError HarnessSessionInfo)
  | prompt (operationId : OperationId) (turnId : TurnId) (intent : Except CheckpointError Unit)
      (sent : Except HarnessError Unit) (settled : Except CheckpointError Unit)
  | pollStream (answer : Except HarnessError (Option HarnessEvent))
      (settled : Except CheckpointError Unit)
  | decidePermission (permissionId : EventId) (intent : Except CheckpointError Unit)
      (sent : Except HarnessError Unit) (settled : Except CheckpointError Unit)
  | steerCancel (intent : Except CheckpointError Unit) (sent : Except HarnessError Unit)
  | closeSession

variable [SerdeJson] [ErrorText]

/-- One operation. -/
def ThreadRuntimeSupervisor.call (v : ThreadRuntimeSupervisor) :
    SupervisorCall → ThreadRuntimeSupervisor
  | .createSession answer => (v.created answer).2
  | .resumeSession answer => (v.resumed answer).2
  | .prompt operationId turnId intent sent settled =>
    (v.prompted operationId turnId intent sent settled).2
  | .pollStream answer settled => v.polled answer settled
  | .decidePermission permissionId intent sent settled =>
    v.decided permissionId intent sent settled
  | .steerCancel intent sent => v.cancelled intent sent
  | .closeSession => v.closed

/-- The supervisor of a thread over its whole life. -/
def supervisorMachine (threadId : ThreadId) : Machine ThreadRuntimeSupervisor SupervisorCall :=
  ⟨.new threadId, ThreadRuntimeSupervisor.call⟩

/-! ## Supervisors over a harness and a store -/

/-- An operation on a supervised thread with its arguments. -/
inductive SupervisedOp
  | createSession (binding : AcpHarnessBinding) (now : UInt64)
  | resumeSession (binding : AcpHarnessBinding) (sessionId : HarnessSessionId) (now : UInt64)
  | prompt (operationId : OperationId) (turnId : TurnId) (content : String) (now : UInt64)
  | pollStream (now : UInt64)
  | decidePermission (permissionId : EventId) (decision : PermissionDecision) (now : UInt64)
  | steerCancel (now : UInt64)
  | closeSession (now : UInt64)

end Altior.Runtime

namespace Altior.Runtime

open Domain Lib Storage

variable [SerdeJsonWriter] [ErrorText] {H : Type}

/-- The supervisor is a given one. -/
def At (w : ThreadRuntimeSupervisor) (s : Supervised H) : Prop := s.supervisor = w

/-- The supervisor is what some answers of the ports make of a given one. -/
def Called (v : ThreadRuntimeSupervisor) (s : Supervised H) : Prop :=
  ∃ call, s.supervisor = v.call call

section Rules

variable {α β : Type} {v w : ThreadRuntimeSupervisor} {Q : β → Supervised H → Prop}
  {E : RuntimeError → Supervised H → Prop}

omit [ErrorText] in
theorem spec_read {R : Supervised H → Prop}
    {k : Supervised H → Proc (Supervised H) RuntimeError β}
    (h : ∀ x, x.supervisor = v → Proc.Spec (At v) (k x) Q E R) :
    Proc.Spec (At v) (Proc.get >>= k) Q E R :=
  fun s n hs => h s hs s n hs

omit [ErrorText] in
theorem at_callCheckpoint (f : Store → Except CheckpointError Store) :
    Proc.Keeps (At w) (callCheckpoint f : Proc (Supervised H) RuntimeError Unit) := by
  refine .act fun s hs => ?_
  cases f s.store <;> exact hs

omit [ErrorText] in
theorem at_callHarness (f : H → Except HarnessError α × H) :
    Proc.Keeps (At w) (callHarness f : Proc (Supervised H) HarnessError α) :=
  .act fun _ hs => hs

variable {k : Unit → Proc (Supervised H) RuntimeError β}

omit [ErrorText] in
theorem spec_change {g : ThreadRuntimeSupervisor → ThreadRuntimeSupervisor}
    (h : Proc.Spec (At (g w)) (k ()) Q E fun _ => True) :
    Proc.Spec (At w) (onSupervisor g >>= k) Q E fun _ => True :=
  .bind (M := fun _ => At (g w)) (.modify fun _ hs => congrArg g hs) fun _ => h

omit [ErrorText] in
/-- A call of the checkpoint port whose failure stops the operation. -/
theorem spec_checkpoint {f : Store → Except CheckpointError Store} (hfail : ∀ e s, At w s → E e s)
    (h : Proc.Spec (At w) (k ()) Q E fun _ => True) :
    Proc.Spec (At w) (callCheckpoint f >>= k) Q E fun _ => True :=
  .bind ((at_callCheckpoint f).mono (fun _ hs => hs) (fun _ _ hs => hs) hfail fun _ _ => trivial)
    fun _ => h

omit [ErrorText] in
/-- A call of a port whose failure is ignored. -/
theorem spec_ignored {m : Proc (Supervised H) RuntimeError α} (hm : Proc.Keeps (At w) m)
    (h : Proc.Spec (At w) (k ()) Q E fun _ => True) :
    Proc.Spec (At w) (Proc.ignore m >>= k) Q E fun _ => True :=
  .bind (.ignore (hm.mono (fun _ hs => hs) (fun _ _ hs => hs) (fun _ _ hs => hs)
    fun _ _ => trivial)) fun _ => h

omit [ErrorText] in
/-- A call of the harness whose answer is looked at. -/
theorem spec_attempt {f : H → Except HarnessError α × H}
    {k : Except HarnessError α → Proc (Supervised H) RuntimeError β}
    (h : ∀ answer, Proc.Spec (At w) (k answer) Q E fun _ => True) :
    Proc.Spec (At w) ((callHarness f).attempt >>= k) Q E fun _ => True :=
  .bind (M := fun _ => At w) (.attempt ((at_callHarness f).mono (fun _ hs => hs)
    (fun _ _ hs => hs) (fun _ _ hs => hs) fun _ _ => trivial)) h

omit [ErrorText] in
/-- A call of the harness whose failure stops the operation. -/
theorem spec_harness {f : H → Except HarnessError α × H}
    {k : α → Proc (Supervised H) RuntimeError β} (hfail : ∀ e s, At w s → E e s)
    (h : ∀ a, Proc.Spec (At w) (k a) Q E fun _ => True) :
    Proc.Spec (At w) ((callHarness f).mapError .harness >>= k) Q E fun _ => True :=
  .bind (.mapError ((at_callHarness f).mono (fun _ hs => hs) (fun _ _ hs => hs)
    (fun _ s hs => hfail _ s hs) fun _ _ => trivial)) h

end Rules

/-! ## Refinement -/

section Refinement

variable {α : Type} {v : ThreadRuntimeSupervisor}

/-- Run without a crash, the computation does to the supervisor what some answers
of the ports do. -/
def Refines (v : ThreadRuntimeSupervisor) (m : Proc (Supervised H) RuntimeError α) : Prop :=
  Proc.Spec (At v) m (fun _ => Called v) (fun _ => Called v) fun _ => True

variable [HarnessRuntimePort H]

omit [HarnessRuntimePort H] in
theorem at_bindSession {w : ThreadRuntimeSupervisor} (binding : AcpHarnessBinding)
    (sessionId : HarnessSessionId) (now : UInt64) :
    Proc.Keeps (At w) (bindSession binding sessionId now : Proc (Supervised H) RuntimeError Unit) :=
  .bind .get fun _ => at_callCheckpoint _

theorem refines_createSession (binding : AcpHarnessBinding) (now : UInt64) : Refines v
      (createSession binding now : Proc (Supervised H) RuntimeError HarnessSessionId) := by
  refine spec_read fun x hx => ?_
  subst hx
  have hcalled (answer : Except HarnessError HarnessSessionInfo) {w : ThreadRuntimeSupervisor}
      (h : (x.supervisor.created answer).2 = w) (s : Supervised H) (hs : At w s) :
      Called x.supervisor s :=
    ⟨.createSession answer, hs.trans h.symm⟩
  unfold ThreadRuntimeSupervisor.created at hcalled
  refine .ite (fun hsome => .fail fun s hs => ?_) fun hnone =>
    spec_change (spec_attempt fun answer => ?_)
  · exact hcalled (.error (.other "")) (by rw [if_pos hsome]) s hs
  · cases answer with
    | error err =>
      exact spec_change (.fail fun s hs => hcalled (.error err) (by rw [if_neg hnone]) s hs)
    | ok info =>
      exact spec_ignored (at_bindSession _ _ _)
        (spec_change (.pure fun s hs => hcalled (.ok info) (by rw [if_neg hnone]) s hs))

theorem refines_resumeSession (binding : AcpHarnessBinding) (sessionId : HarnessSessionId)
    (now : UInt64) : Refines v
      (resumeSession binding sessionId now : Proc (Supervised H) RuntimeError Unit) := by
  refine spec_read fun x hx => ?_
  subst hx
  have hcalled (answer : Except HarnessError HarnessSessionInfo) {w : ThreadRuntimeSupervisor}
      (h : (x.supervisor.resumed answer).2 = w) (s : Supervised H) (hs : At w s) :
      Called x.supervisor s :=
    ⟨.resumeSession answer, hs.trans h.symm⟩
  unfold ThreadRuntimeSupervisor.resumed at hcalled
  refine .ite (fun hsome => .fail fun s hs => ?_) fun hnone =>
    spec_change (spec_attempt fun answer => ?_)
  · exact hcalled (.error (.other "")) (by rw [if_pos hsome]) s hs
  · cases answer with
    | error err =>
      exact spec_change (.fail fun s hs => hcalled (.error err) (by rw [if_neg hnone]) s hs)
    | ok info =>
      refine .ite (fun hcap => spec_change (.fail fun s hs => ?_)) fun hcap =>
        spec_ignored (at_bindSession _ _ _) (.modify fun s hs => ?_)
      · exact hcalled (.ok info) (by simp only [if_neg hnone, if_pos hcap]) s hs
      · refine hcalled (.ok info) (w := x.supervisor.markStarting.onSessionEstablished info)
          (by simp only [if_neg hnone, if_neg hcap]) _ ?_
        exact congrArg (fun v => v.onSessionEstablished info) hs

omit [HarnessRuntimePort H] in
theorem refines_applyEvent (event : HarnessEvent) (now : UInt64)
    (hsession : v.sessionId.isSome) : Refines v
      (applyEvent event now : Proc (Supervised H) RuntimeError (Option RuntimeEvent)) := by
  refine spec_read fun x hx => ?_
  subst hx
  obtain ⟨sessionId, hsessionId⟩ := Option.isSome_iff_exists.1 hsession
  have hcalled (settled : Except CheckpointError Unit) {w : ThreadRuntimeSupervisor}
      (h : x.supervisor.afterEvent event settled = w) (s : Supervised H) (hs : At w s) :
      Called x.supervisor s := by
    refine ⟨.pollStream (.ok (some event)) settled, hs.trans (h.symm.trans ?_)⟩
    simp only [ThreadRuntimeSupervisor.call, ThreadRuntimeSupervisor.polled, hsessionId]
  have hsame (s : Supervised H) (hs : At x.supervisor s) : Called x.supervisor s := by
    refine ⟨.pollStream (.ok none) (.ok ()), hs.trans ?_⟩
    simp only [ThreadRuntimeSupervisor.call, ThreadRuntimeSupervisor.polled, hsessionId]
  -- a terminal event settles, then moves on
  have hfinish {turnId : TurnId} {operationId : OperationId} {state : TurnState}
      {delivery : DeliveryState} {next : SupervisorState} {r : Option RuntimeEvent}
      (h : x.supervisor.afterEvent event (.ok ()) =
        x.supervisor.endTurn turnId operationId state delivery next) :
      Proc.Spec (At x.supervisor) (do
          finishTurn turnId operationId state delivery next now
          pure r : Proc (Supervised H) RuntimeError (Option RuntimeEvent))
        (fun _ => Called x.supervisor) (fun _ => Called x.supervisor) fun _ => True := by
    refine .bind (M := fun _ => At (x.supervisor.endTurn turnId operationId state delivery next))
      (spec_read fun y _ => spec_checkpoint (fun _ s hs => hsame s hs) ?_)
      fun _ => .pure fun s hs => hcalled (.ok ()) h s hs
    exact .modify fun s hs => congrArg
      (fun v : ThreadRuntimeSupervisor => v.endTurn turnId operationId state delivery next) hs
  cases event with
  | started | rawUnknown => exact .pure fun s hs => hsame s hs
  | messageDelta | toolCall =>
    dsimp only
    split <;> exact .pure fun s hs => hsame s hs
  | permissionRequest eventId kind description =>
    dsimp only
    split
    · rename_i turnId operationId delivery hstate
      refine spec_change (.pure fun s hs => hcalled (.ok ()) ?_ s hs)
      simp only [ThreadRuntimeSupervisor.afterEvent, hstate]
    · exact .pure fun s hs => hsame s hs
  | completed | cancelled | failed =>
    dsimp only
    split
    · rename_i hwork
      refine hfinish ?_
      simp only [ThreadRuntimeSupervisor.afterEvent, ThreadRuntimeSupervisor.afterTurn, hwork]
    · exact .pure fun s hs => hsame s hs
  | processExited exitCode =>
    have hcrash {turnId : TurnId} {operationId : OperationId} {r : Option RuntimeEvent}
        (h : x.supervisor.afterEvent (.processExited exitCode) (.ok ()) =
          x.supervisor.endTurn turnId operationId .failed .indeterminate
            (.crashed ("unexpected subprocess exit with code " ++ debugExitCode exitCode)
              .indeterminate)) :
        Proc.Spec (At x.supervisor) (do
            crashTurn turnId operationId exitCode now
            pure r : Proc (Supervised H) RuntimeError (Option RuntimeEvent))
          (fun _ => Called x.supervisor) (fun _ => Called x.supervisor) fun _ => True := by
      refine .bind (M := fun _ => At (x.supervisor.endTurn turnId operationId .failed
        .indeterminate (.crashed ("unexpected subprocess exit with code "
          ++ debugExitCode exitCode) .indeterminate)))
        (spec_read fun y _ => spec_ignored (at_callCheckpoint _) ?_)
        fun _ => .pure fun s hs => hcalled (.ok ()) h s hs
      exact .modify fun s hs => congrArg (fun v : ThreadRuntimeSupervisor =>
        v.endTurn turnId operationId .failed .indeterminate _) hs
    dsimp only
    split <;> rename_i hstate
    · exact hcrash (by simp only [ThreadRuntimeSupervisor.afterEvent, hstate])
    · exact hcrash (by simp only [ThreadRuntimeSupervisor.afterEvent, hstate])
    all_goals first
      | exact .pure fun s hs => hsame s hs
      | exact spec_change (.pure fun s hs => hcalled (.ok ())
          (by simp only [ThreadRuntimeSupervisor.afterEvent, hstate]) s hs)

theorem refines_pollStream (now : UInt64) : Refines v
      (pollStream now : Proc (Supervised H) RuntimeError (Option RuntimeEvent)) := by
  refine spec_read fun x hx => ?_
  subst hx
  have hsame (s : Supervised H) (hs : At x.supervisor s) : Called x.supervisor s := by
    refine ⟨.pollStream (.ok none) (.ok ()), hs.trans ?_⟩
    simp only [ThreadRuntimeSupervisor.call, ThreadRuntimeSupervisor.polled]
    split <;> simp_all
  split
  · exact .pure fun s hs => hsame s hs
  · rename_i sessionId hsession
    refine spec_harness (fun _ s hs => hsame s hs) fun event => ?_
    split
    · exact .pure fun s hs => hsame s hs
    · exact refines_applyEvent _ _ (by rw [hsession]; rfl)

variable [DefaultHasher]

theorem refines_prompt (operationId : OperationId) (turnId : TurnId) (content : String)
    (now : UInt64) : Refines v
      (prompt operationId turnId content now : Proc (Supervised H) RuntimeError TurnAdmission) := by
  refine spec_read fun x hx => ?_
  subst hx
  have hcalled (intent : Except CheckpointError Unit) (sent : Except HarnessError Unit)
      (settled : Except CheckpointError Unit) {w : ThreadRuntimeSupervisor}
      (h : (x.supervisor.prompted operationId turnId intent sent settled).2 = w) (s : Supervised H)
      (hs : At w s) : Called x.supervisor s :=
    ⟨.prompt operationId turnId intent sent settled, hs.trans h.symm⟩
  simp only [ThreadRuntimeSupervisor.prompted] at hcalled
  refine .ofExcept_bind (fun sessionId hcheck => ?_) fun err hcheck s hs => ?_
  · rcases hadmit : x.supervisor.operations.admitOperation operationId with
      ⟨err | _ | _, operations⟩ <;> simp only [hcheck, hadmit] at hcalled
    · exact .fail fun s hs => hcalled (.ok ()) (.ok ()) (.ok ()) rfl s hs
    · have hstay : ∀ s : Supervised H, At { x.supervisor with operations := operations } s →
          Called x.supervisor s :=
        hcalled (.error (.other "")) (.ok ()) (.ok ()) rfl
      refine spec_change (spec_checkpoint (fun _ s hs => hstay s hs) (spec_attempt fun answer => ?_))
      cases answer with
      | error err =>
        exact spec_ignored (at_callCheckpoint _) (spec_ignored (at_callCheckpoint _)
          (spec_change (.fail fun s hs => hcalled (.ok ()) (.error err) (.ok ()) rfl s hs)))
      | ok _ =>
        exact spec_checkpoint (fun _ s hs => hstay s hs)
          (spec_change (.pure fun s hs => hcalled (.ok ()) (.ok ()) (.ok ()) rfl s hs))
    · exact .pure fun s hs => hcalled (.ok ()) (.ok ()) (.ok ()) rfl s hs
  · simp only [hcheck] at hcalled
    exact hcalled (.ok ()) (.ok ()) (.ok ()) rfl s hs

theorem refines_decidePermission (permissionId : EventId) (decision : PermissionDecision)
    (now : UInt64) : Refines v
      (decidePermission permissionId decision now : Proc (Supervised H) RuntimeError Unit) := by
  refine spec_read fun x hx => ?_
  subst hx
  -- an operation that stops on the way leaves the supervisor as it was
  have hsame (s : Supervised H) (hs : At x.supervisor s) : Called x.supervisor s := by
    refine ⟨.decidePermission permissionId (.error (.other "")) (.ok ()) (.ok ()), hs.trans ?_⟩
    simp only [ThreadRuntimeSupervisor.call, ThreadRuntimeSupervisor.decided]
    split
    · rw [if_neg fun h => Bool.false_ne_true h.2.2.1]
    · rfl
  dsimp only
  split
  · rename_i turnId operationId pending hstate
    refine .ite (fun _ => .fail fun s hs => hsame s hs) fun hpending => ?_
    split
    · exact .fail fun s hs => hsame s hs
    · rename_i sessionId hsession
      refine spec_checkpoint (fun _ s hs => hsame s hs) (spec_harness (fun _ s hs => hsame s hs)
        fun _ => spec_checkpoint (fun _ s hs => hsame s hs) ?_)
      refine .modify fun s hs => ⟨.decidePermission permissionId (.ok ()) (.ok ()) (.ok ()), ?_⟩
      rw [show s.supervisor = x.supervisor from hs]
      simp only [ThreadRuntimeSupervisor.call, ThreadRuntimeSupervisor.decided, hstate, hsession]
      rw [if_pos ⟨not_not.1 hpending, rfl, rfl, rfl, rfl⟩]
  · exact .fail fun s hs => hsame s hs

theorem refines_steerCancel (now : UInt64) :
    Refines v
      (steerCancel now : Proc (Supervised H) RuntimeError CancelOutcome) := by
  refine spec_read fun x hx => ?_
  subst hx
  have hsame (s : Supervised H) (hs : At x.supervisor s) : Called x.supervisor s := by
    refine ⟨.steerCancel (.error (.other "")) (.ok ()), hs.trans ?_⟩
    simp only [ThreadRuntimeSupervisor.call, ThreadRuntimeSupervisor.cancelled]
    split <;> first
      | rw [if_neg fun h => Bool.false_ne_true h.2.2.1]
      | rfl
  refine .ofExcept_bind (fun _ hcapability => ?_) fun _ _ s hs => hsame s hs
  have hcancel {turnId : TurnId} {operationId : OperationId}
      (hwork : x.supervisor.state.activeWork = some (turnId, operationId))
      (hcall : x.supervisor.sessionId.isSome → x.supervisor.cancelled (.ok ()) (.ok ()) =
        { x.supervisor with state := .cancelling (some turnId) (some operationId) }) :
      Proc.Spec (At x.supervisor)
        (cancelActive x.supervisor now : Proc (Supervised H) RuntimeError CancelOutcome)
        (fun _ => Called x.supervisor) (fun _ => Called x.supervisor) fun _ => True := by
    unfold cancelActive
    rw [hwork]
    split
    · rename_i heq hsession
      cases heq
      refine spec_checkpoint (fun _ s hs => hsame s hs) (spec_harness (fun _ s hs => hsame s hs)
        fun _ => spec_change (.pure fun s hs => ⟨.steerCancel (.ok ()) (.ok ()), ?_⟩))
      exact hs.trans (hcall (by rw [hsession]; rfl)).symm
    · exact .fail fun s hs => hsame s hs
  have hok : (x.supervisor.checkCapability "session.cancel").isOk = true := by
    rw [hcapability]
    rfl
  split
  · exact .pure fun s hs => hsame s hs
  · rename_i turnId operationId delivery hstate
    refine hcancel (by rw [hstate]; rfl) fun hsession => ?_
    simp only [ThreadRuntimeSupervisor.cancelled, hstate]
    rw [if_pos ⟨hok, hsession, rfl, rfl⟩]
  · rename_i turnId operationId pending hstate
    refine hcancel (by rw [hstate]; rfl) fun hsession => ?_
    simp only [ThreadRuntimeSupervisor.cancelled, hstate]
    rw [if_pos ⟨hok, hsession, rfl, rfl⟩]
  · exact .pure fun s hs => hsame s hs

theorem refines_closeSession (now : UInt64) :
    Refines v
      (closeSession now : Proc (Supervised H) RuntimeError Unit) := by
  refine spec_read fun x hx => ?_
  subst hx
  dsimp only
  split
  · rename_i hsession
    refine .modify fun s hs => ⟨.closeSession, ?_⟩
    rw [show s.supervisor = x.supervisor from hs]
    simp only [ThreadRuntimeSupervisor.call, ThreadRuntimeSupervisor.closed, hsession]
  · refine spec_change (spec_ignored (at_callCheckpoint _) (spec_ignored (.mapError
      (at_callHarness _)) (spec_ignored (at_callCheckpoint _) ?_)))
    refine .modify fun s hs => ⟨.closeSession, ?_⟩
    change { s.supervisor with state := .closed } = x.supervisor.closed
    rw [show s.supervisor = { x.supervisor with sessionId := none } from hs]
    rfl

/-- One operation on a supervised thread. -/
def Supervised.apply (s : Supervised H) : SupervisedOp → Supervised H
  | .createSession binding now => (createSession binding now s none).state
  | .resumeSession binding sessionId now => (resumeSession binding sessionId now s none).state
  | .prompt operationId turnId content now => (prompt operationId turnId content now s none).state
  | .pollStream now => (pollStream now s none).state
  | .decidePermission permissionId decision now =>
    (decidePermission permissionId decision now s none).state
  | .steerCancel now => (steerCancel now s none).state
  | .closeSession now => (closeSession now s none).state

theorem called_apply (s : Supervised H) (op : SupervisedOp) :
    Called s.supervisor (s.apply op) := by
  cases op with
  | createSession binding now => exact (refines_createSession binding now).state_none rfl
  | resumeSession binding sessionId now =>
    exact (refines_resumeSession binding sessionId now).state_none rfl
  | prompt operationId turnId content now =>
    exact (refines_prompt operationId turnId content now).state_none rfl
  | pollStream now => exact (refines_pollStream now).state_none rfl
  | decidePermission permissionId decision now =>
    exact (refines_decidePermission permissionId decision now).state_none rfl
  | steerCancel now => exact (refines_steerCancel now).state_none rfl
  | closeSession now => exact (refines_closeSession now).state_none rfl

/-- Whether an operation makes the supervisor of its thread. -/
def SupervisedOp.opens : SupervisedOp → Bool
  | .createSession _ _ | .resumeSession _ _ _ => true
  | _ => false

/-- The supervisor an operation on a thread is for. -/
def AgentRuntimeSupervisor.entry (s : AgentRuntimeSupervisor H) (threadId : ThreadId)
    (op : SupervisedOp) : Option ThreadRuntimeSupervisor :=
  match s.threads[threadId]? with
  | some v => some v
  | none => if op.opens then some (.new threadId) else none

/-- A thread supervised over a harness and a store. -/
def supervisedMachine (s : Supervised H) : Machine (Supervised H) SupervisedOp :=
  ⟨s, Supervised.apply⟩

/-- **Refinement.** What a run over a harness and a store does to the supervisor,
a run among arbitrary ports does. -/
theorem exists_calls (threadId : ThreadId) (s : Supervised H) (ops : List SupervisedOp) :
    ∃ calls, ((supervisedMachine s).run ops).supervisor =
      (supervisorMachine threadId).runFrom s.supervisor calls := by
  suffices h : ∀ (m : Machine (Supervised H) SupervisedOp) (t : Supervised H),
      m.step = Supervised.apply →
      ∃ calls, (m.runFrom t ops).supervisor = (supervisorMachine threadId).runFrom t.supervisor calls
    from h _ _ rfl
  intro m t hm
  induction ops generalizing t with
  | nil => exact ⟨[], rfl⟩
  | cons op ops ih =>
    obtain ⟨call, hcall⟩ := called_apply t op
    obtain ⟨calls, hcalls⟩ := ih (t.apply op)
    refine ⟨call :: calls, ?_⟩
    rw [Machine.runFrom_cons, hm, hcalls, hcall]
    rfl

end Refinement

end Altior.Runtime
