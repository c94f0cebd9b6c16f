import Altior.Runtime.Calls

/-!
# A supervisor and its session

Whether a supervisor that has a session is in a state that stands for one.  The
operations that open and close a session write both fields; the ones that find
the session lost write the state only.
-/

namespace Altior.Runtime

open Domain Lib

namespace ThreadRuntimeSupervisor

/-- The supervisor has a session exactly when its state stands for one. -/
def Agrees (v : ThreadRuntimeSupervisor) : Prop := v.sessionId.isSome = v.state.isBound

instance (v : ThreadRuntimeSupervisor) : Decidable v.Agrees :=
  inferInstanceAs (Decidable (v.sessionId.isSome = v.state.isBound))

/-- A supervisor that is done with its session can be given a new one. -/
def Reopens (v : ThreadRuntimeSupervisor) : Prop :=
  v.state.isBound = false → ∀ info, (v.created (.ok info)).1 = .ok info.sessionId

variable {v : ThreadRuntimeSupervisor}

theorem Agrees.reopens (h : v.Agrees) : v.Reopens := by
  intro hbound info
  have hnone : v.sessionId.isSome = false := h.trans hbound
  simp [created, hnone]

/-- A prompt that passes the checks finds a session that is ready. -/
theorem ready_of_checkPrompt {turnId : TurnId} (hcheck : (v.checkPrompt turnId).isOk = true) :
    v.state = .ready ∧ v.sessionId.isSome = true := by
  unfold checkPrompt at hcheck
  cases hhistory : v.checkHistory turnId with
  | error err => simp [hhistory, bind, Except.bind, Except.isOk, Except.toBool] at hcheck
  | ok _ =>
    cases hready : v.checkReady with
    | error err => simp [hhistory, hready, bind, Except.bind, Except.isOk, Except.toBool] at hcheck
    | ok _ =>
      simp only [hhistory, hready, bind, Except.bind] at hcheck
      constructor
      · unfold checkReady at hready
        split at hready
        · assumption
        · split at hready <;> cases hready
      · unfold boundSession at hcheck
        split at hcheck
        · rename_i hsession
          rw [hsession]
          rfl
        · cases hcheck

theorem ready_of_admits {operationId : OperationId} {turnId : TurnId}
    (h : v.admits operationId turnId = true) : v.state = .ready ∧ v.sessionId.isSome = true :=
  ready_of_checkPrompt (Bool.and_eq_true_iff.1 h).1

variable [SerdeJson]

/-- The operation does not find the session lost: no prompt that passes the checks
is refused by the harness, the process of a bound session does not exit, and no
running turn fails with its delivery unknown. -/
def KeepsSession (v : ThreadRuntimeSupervisor) : SupervisorCall → Prop
  | .prompt operationId turnId intent sent _ =>
    v.admits operationId turnId = true → intent.isOk = true → sent.isOk = true
  | .pollStream (.ok (some (.processExited _))) _ => v.sessionId = none
  | .pollStream (.ok (some (.failed _ .indeterminate))) settled =>
    v.sessionId.isSome = true → v.state.activeWork.isSome = true → settled.isOk = false
  | _ => True

end ThreadRuntimeSupervisor

open ThreadRuntimeSupervisor

section Calls

variable [SerdeJson] [ErrorText] {v : ThreadRuntimeSupervisor}

variable {settled : Except CheckpointError Unit}

theorem agrees_prompted (h : v.Agrees) {operationId : OperationId} {turnId : TurnId}
    {intent : Except CheckpointError Unit} {sent : Except HarnessError Unit} :
    (v.prompted operationId turnId intent sent settled).2.Agrees ↔
      v.KeepsSession (.prompt operationId turnId intent sent settled) := by
  cases hadmits : v.admits operationId turnId with
  | false =>
    rw [prompted_of_not_admits hadmits]
    simp [h, KeepsSession, hadmits]
  | true =>
    obtain ⟨hstate, hsession⟩ := ready_of_admits hadmits
    rw [prompted_of_admits hadmits]
    rcases intent with err | _ <;> rcases sent with err | _ <;> rcases settled with err | _ <;>
      simp [KeepsSession, hadmits, Agrees, admitted, hsession, hstate, SupervisorState.isBound,
        Except.isOk, Except.toBool]

omit [SerdeJson] [ErrorText] in
/-- A turn that ends leaves the session as it was. -/
theorem agrees_afterTurn (h : v.Agrees) (hsession : v.sessionId.isSome = true) {state : TurnState}
    {delivery : DeliveryState} {next : SupervisorState} :
    (v.afterTurn state delivery next settled).Agrees ↔
      (v.state.activeWork.isSome = true → settled.isOk = true → next.isBound = true) := by
  unfold afterTurn
  rcases hwork : v.state.activeWork with _ | ⟨turnId, operationId⟩
  · simp [h]
  · rcases settled with err | _
    · simp [h, Except.isOk, Except.toBool]
    · simp only [Agrees, endTurn, hsession, Option.isSome_some, forall_const]
      exact ⟨fun hnext _ => hnext.symm, fun hnext => (hnext rfl).symm⟩

omit [ErrorText] in
theorem agrees_polled (h : v.Agrees) {answer : Except HarnessError (Option HarnessEvent)} :
    (v.polled answer settled).Agrees ↔ v.KeepsSession (.pollStream answer settled) := by
  unfold polled
  rcases hid : v.sessionId with _ | sessionId
  · -- without a session nothing is polled
    refine iff_of_true h ?_
    unfold KeepsSession
    split <;> simp_all
  have hsession : v.sessionId.isSome = true := by rw [hid]; rfl
  have hbound : v.state.isBound = true := h.symm.trans hsession
  rcases answer with err | _ | event
  · exact iff_of_true h trivial
  · exact iff_of_true h trivial
  cases event with
  | started | messageDelta | toolCall | rawUnknown => exact iff_of_true h trivial
  | permissionRequest eventId kind description =>
    refine iff_of_true ?_ trivial
    simp only [afterEvent]
    split
    · exact hsession
    · exact h
  | completed | cancelled =>
    exact (agrees_afterTurn h hsession).trans (iff_of_true (fun _ _ => rfl) trivial)
  | failed error delivery =>
    refine (agrees_afterTurn h hsession).trans ?_
    cases delivery with
    | indeterminate =>
      simp only [KeepsSession, hsession, if_true, SupervisorState.isBound]
      cases settled.isOk <;> simp
    | absent | confirmed | rejected => exact iff_of_true (fun _ _ => rfl) trivial
  | processExited exitCode =>
    refine iff_of_false ?_ ?_
    · -- every state that stands for a session is left
      simp only [afterEvent, Agrees]
      split <;> simp_all [endTurn, SupervisorState.isBound]
    · simp [KeepsSession, hid]

/-- **One operation.** -/
theorem agrees_call (h : v.Agrees) (call : SupervisorCall) :
    (v.call call).Agrees ↔ v.KeepsSession call := by
  cases call with
  | createSession answer =>
    refine iff_of_true ?_ trivial
    simp only [call, created]
    split
    · exact h
    · cases answer <;> rfl
  | resumeSession answer =>
    refine iff_of_true ?_ trivial
    simp only [call, resumed]
    split
    · exact h
    · cases answer with
      | error err => rfl
      | ok info =>
        dsimp only
        split <;> rfl
  | prompt operationId turnId intent sent settled => exact agrees_prompted h
  | pollStream answer settled => exact agrees_polled h
  | decidePermission permissionId intent sent settled =>
    refine iff_of_true ?_ trivial
    simp only [call, decided]
    split
    · split
      · rename_i hif
        exact hif.2.1
      · exact h
    · exact h
  | steerCancel intent sent =>
    refine iff_of_true ?_ trivial
    simp only [call, cancelled]
    split
    · split
      · rename_i hif
        exact hif.2.1
      · exact h
    · split
      · rename_i hif
        exact hif.2.1
      · exact h
    · exact h
  | closeSession => exact iff_of_true rfl trivial

/-- **State and session.** Over every life of a supervisor, it has a session
exactly in the states that stand for one, and can be given a new one in the
others, as long as no operation finds the session lost. -/
theorem session_agrees_iff (threadId : ThreadId) (calls : List SupervisorCall) :
    (∀ done, done <+: calls → ((supervisorMachine threadId).run done).Agrees ∧
        ((supervisorMachine threadId).run done).Reopens) ↔
      (supervisorMachine threadId).Meets KeepsSession (.new threadId) calls := by
  rw [← (supervisorMachine threadId).prefixes_iff_meets (I := Agrees)
    (fun v call h => agrees_call h call) (s := .new threadId) rfl]
  constructor
  · intro h done hdone
    exact (h done hdone).1
  · intro h done hdone
    exact ⟨h done hdone, (h done hdone).reopens⟩

end Calls

section Sample

attribute [local instance] flatObjects plainText

/-- The session the sample harness opens. -/
def openedInfo : HarnessSessionInfo := ⟨⟨"session", by decide⟩, ∅⟩

/-- A process that exits while its session is ready: the supervisor is closed and
keeps the session, so no new one can be opened for the thread. -/
theorem not_agrees_after_exit :
    ¬ ∀ calls : List SupervisorCall,
      ((supervisorMachine ⟨"thr_0000000000000001", by decide⟩).run calls).Agrees ∧
        ((supervisorMachine ⟨"thr_0000000000000001", by decide⟩).run calls).Reopens := by
  intro h
  have hagrees := (h [.createSession (.ok openedInfo),
    .pollStream (.ok (some (.processExited none))) (.ok ())]).1
  exact absurd hagrees (by decide)

end Sample

end Altior.Runtime
