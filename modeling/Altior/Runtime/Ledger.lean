import Altior.Runtime.Binding

/-!
# The operations of a supervisor

A prompt puts its operation into the registry before any port is called; the
terminal events of its turn take it out again.  This module says when the two
are matched: when the registry holds the operation of the running turn only, and
an operation is answered as a duplicate only after its prompt was handed over.
-/

namespace Altior.Runtime

open Domain Lib

/-! ## The registry -/

namespace OperationRegistry

variable {r : OperationRegistry} {op a : OperationId}

theorem mem_admitted_retire : a ∈ (r.retire op).admitted ↔ a ≠ op ∧ a ∈ r.admitted := by
  rw [Table.mem_iff, Table.mem_iff]
  simp only [retire, Table.getElem?_erase_eq]
  by_cases h : op = a
  · simp [h]
  · simp [h, Ne.symm h]

theorem mem_finished_retire (h : a ∈ (r.retire op).finished) : a = op ∨ a ∈ r.finished := by
  simp only [retire, List.mem_append, List.mem_singleton] at h
  rcases h with h | h
  · right
    split at h
    · exact List.mem_of_mem_drop h
    · exact h
  · exact .inl h

/-- What an admission does to the registry. -/
theorem admitOperation_cases (r : OperationRegistry) (op : OperationId) :
    (r.admitOperation op = (.ok .duplicate, r) ∧ r.knows op = true) ∨
      (r.admitOperation op = (.error .full, r) ∧ r.admitted.size = r.capacity) ∨
      (r.admitOperation op = (.ok .execute, { r with admitted := r.admitted.insert op () }) ∧
        r.knows op = false) := by
  unfold admitOperation
  split
  · exact .inl ⟨rfl, ‹_›⟩
  · rename_i hknows
    split
    · exact .inr (.inl ⟨rfl, ‹_›⟩)
    · exact .inr (.inr ⟨rfl, Bool.eq_false_iff.2 hknows⟩)

theorem knows_iff : r.knows op = true ↔ op ∈ r.admitted ∨ op ∈ r.finished := by
  rw [knows, Bool.or_eq_true, ← Std.ExtTreeMap.mem_iff_contains, List.contains_iff_mem]

/-- An operation is executed when it is new and there is room. -/
theorem execute_iff : (r.admitOperation op).1 = .ok .execute ↔
    op ∉ r.admitted ∧ op ∉ r.finished ∧ r.admitted.size ≠ r.capacity := by
  rw [← and_assoc, ← not_or, ← knows_iff]
  unfold admitOperation
  split
  · simp_all
  · split <;> simp_all

end OperationRegistry

/-! ## One supervisor -/

namespace ThreadRuntimeSupervisor

variable {v v' : ThreadRuntimeSupervisor} {handed : List OperationId}

/-- What holds of the registry whatever the ports answer: the operation of a
running turn is in it and was handed over on a session, and a finished operation
was handed over. -/
structure Booked (v : ThreadRuntimeSupervisor) (handed : List OperationId) : Prop where
  running : ∀ turnId op, v.state.activeWork = some (turnId, op) →
    v.sessionId.isSome = true ∧ op ∈ v.operations.admitted ∧ op ∈ handed
  finished : ∀ op ∈ v.operations.finished, op ∈ handed

/-- The registry holds nothing but the operation of the running turn. -/
def Cleared (v : ThreadRuntimeSupervisor) : Prop :=
  ∀ op ∈ v.operations.admitted, ∃ turnId, v.state.activeWork = some (turnId, op)

/-- The same work goes on. -/
structure SameWork (v v' : ThreadRuntimeSupervisor) : Prop where
  operations : v'.operations = v.operations
  work : v'.state.activeWork = v.state.activeWork
  session : v'.sessionId = v.sessionId

theorem SameWork.booked (h : SameWork v v') (hv : v.Booked handed) : v'.Booked handed := by
  constructor
  · intro turnId op hwork
    rw [h.session, h.operations]
    exact hv.running turnId op (h.work ▸ hwork)
  · rw [h.operations]
    exact hv.finished

theorem SameWork.cleared (h : SameWork v v') : v'.Cleared ↔ v.Cleared := by
  unfold Cleared
  rw [h.operations, h.work]

/-- The supervisor rests without having touched its registry. -/
structure Rests (v v' : ThreadRuntimeSupervisor) : Prop where
  operations : v'.operations = v.operations
  work : v'.state.activeWork = none

theorem Rests.booked (h : Rests v v') (hv : v.Booked handed) : v'.Booked handed := by
  constructor
  · intro turnId op hwork
    rw [h.work] at hwork
    cases hwork
  · rw [h.operations]
    exact hv.finished

/-- A supervisor that comes to rest leaves nothing behind iff it was not at work. -/
theorem Rests.cleared (h : Rests v v') (hv : v.Booked handed) (hclear : v.Cleared) :
    v'.Cleared ↔ v.state.activeWork = none := by
  unfold Cleared
  rw [h.operations, h.work]
  constructor
  · intro hall
    rcases hwork : v.state.activeWork with _ | ⟨turnId, op⟩
    · rfl
    · obtain ⟨_, hnone⟩ := hall op (hv.running turnId op hwork).2.1
      cases hnone
  · intro hnone op hop
    obtain ⟨turnId, hwork⟩ := hclear op hop
    rw [hnone] at hwork
    cases hwork

variable {turnId : TurnId} {op : OperationId} {state : TurnState} {delivery : DeliveryState}
  {next : SupervisorState}

theorem booked_endTurn (hv : v.Booked handed) (hwork : v.state.activeWork = some (turnId, op))
    (hnext : next.activeWork = none) : (v.endTurn turnId op state delivery next).Booked handed := by
  constructor
  · intro turnId' op' hwork'
    cases hnext.symm.trans hwork'
  · intro a ha
    rcases OperationRegistry.mem_finished_retire ha with rfl | ha
    · exact (hv.running turnId _ hwork).2.2
    · exact hv.finished a ha

theorem cleared_endTurn (hclear : v.Cleared) (hwork : v.state.activeWork = some (turnId, op)) :
    (v.endTurn turnId op state delivery next).Cleared := by
  intro a ha
  obtain ⟨hne, ha⟩ := OperationRegistry.mem_admitted_retire.1 ha
  obtain ⟨turnId', hwork'⟩ := hclear a ha
  rw [hwork] at hwork'
  cases hwork'
  exact absurd rfl hne

theorem SameWork.refl (v : ThreadRuntimeSupervisor) : SameWork v v := ⟨rfl, rfl, rfl⟩

/-- How the registry of a supervisor stands to its work after an operation, next
to how it stood before: kept whatever happened, and free of leftovers iff `ok`. -/
structure Keeps (v v' : ThreadRuntimeSupervisor) (handed : List OperationId) (ok : Prop) : Prop where
  booked : v'.Booked handed
  cleared : v.Cleared → (v'.Cleared ↔ ok)

theorem keeps_same (hv : v.Booked handed) (h : SameWork v v') : Keeps v v' handed True :=
  ⟨h.booked hv, fun hclear => iff_of_true (h.cleared.2 hclear) trivial⟩

theorem keeps_rests (hv : v.Booked handed) (h : Rests v v') :
    Keeps v v' handed (v.state.activeWork = none) :=
  ⟨h.booked hv, h.cleared hv⟩

theorem keeps_endTurn (hv : v.Booked handed) (hwork : v.state.activeWork = some (turnId, op))
    (hnext : next.activeWork = none) :
    Keeps v (v.endTurn turnId op state delivery next) handed True :=
  ⟨booked_endTurn hv hwork hnext, fun hclear => iff_of_true (cleared_endTurn hclear hwork) trivial⟩

theorem Keeps.congr {ok ok' : Prop} (h : Keeps v v' handed ok) (hok : ok ↔ ok') :
    Keeps v v' handed ok' :=
  ⟨h.booked, fun hclear => (h.cleared hclear).trans hok⟩

variable {settled : Except CheckpointError Unit} {operationId : OperationId}

theorem keeps_afterTurn (hv : v.Booked handed) (hnext : next.activeWork = none) :
    Keeps v (v.afterTurn state delivery next settled) handed True := by
  unfold afterTurn
  split
  · rename_i hwork
    exact keeps_endTurn hv hwork hnext
  · exact keeps_same hv (.refl v)

/-- A supervisor without a session is not at work. -/
theorem Booked.idle (hv : v.Booked handed) (h : v.sessionId.isSome = false) :
    v.state.activeWork = none := by
  rcases hwork : v.state.activeWork with _ | ⟨turnId, op⟩
  · rfl
  · rw [(hv.running turnId op hwork).1] at h
    cases h

theorem keeps_opened (hv : v.Booked handed) (h : v.sessionId.isSome = false)
    (hrests : Rests v v') : Keeps v v' handed True :=
  (keeps_rests hv hrests).congr (iff_of_true (hv.idle h) trivial)

/-- What a prompt that passes the checks does to the registry. -/
theorem admitted_of_admits (h : v.admits operationId turnId = true) :
    v.admitted operationId = { v with operations :=
      { v.operations with admitted := v.operations.admitted.insert operationId () } } := by
  have hexecute := (Bool.and_eq_true_iff.1 h).2
  unfold admitted
  rcases OperationRegistry.admitOperation_cases v.operations operationId with
    ⟨hcase, -⟩ | ⟨hcase, -⟩ | ⟨hcase, -⟩
  · simp [hcase] at hexecute
  · simp [hcase] at hexecute
  · rw [hcase]

/-- A ready supervisor has an empty registry when nothing was left behind. -/
theorem Cleared.not_mem (hclear : v.Cleared) (hwork : v.state.activeWork = none)
    (a : OperationId) : a ∉ v.operations.admitted := by
  intro ha
  obtain ⟨turnId, h⟩ := hclear a ha
  rw [hwork] at h
  cases h

/-- Only an operation the registry knows is a duplicate. -/
theorem of_duplicate [ErrorText] {intent : Except CheckpointError Unit}
    {sent : Except HarnessError Unit}
    (h : (v.prompted operationId turnId intent sent settled).1 = .ok .duplicate) :
    v.state = .ready ∧ v.operations.knows operationId = true := by
  cases hadmits : v.admits operationId turnId with
  | true =>
    rw [prompted_of_admits hadmits] at h
    rcases intent with err | _ <;> rcases sent with err | _ <;> rcases settled with err | _ <;>
      cases h
  | false =>
    unfold prompted at h
    cases hcheck : v.checkPrompt turnId with
    | error err =>
      rw [hcheck] at h
      cases h
    | ok sessionId =>
      refine ⟨(ready_of_checkPrompt (by rw [hcheck]; rfl)).1, ?_⟩
      rw [hcheck] at h
      rcases OperationRegistry.admitOperation_cases v.operations operationId with
        ⟨hcase, hknows⟩ | ⟨hcase, -⟩ | ⟨hcase, -⟩
      · exact hknows
      · rw [hcase] at h
        cases h
      · simp [admits, hcheck, hcase, Except.isOk, Except.toBool] at hadmits

variable [SerdeJson]

theorem keeps_afterEvent (hv : v.Booked handed) {event : HarnessEvent} :
    Keeps v (v.afterEvent event settled) handed
      (match event with
        | .processExited _ => v.state.isCancelling = true → v.state.activeWork = none
        | _ => True) := by
  cases event with
  | started | messageDelta | toolCall | rawUnknown => exact keeps_same hv (.refl v)
  | permissionRequest eventId kind description =>
    refine keeps_same hv ?_
    simp only [afterEvent]
    split
    · rename_i hstate
      exact ⟨rfl, by rw [hstate]; rfl, rfl⟩
    · exact .refl v
  | completed | cancelled => exact keeps_afterTurn hv rfl
  | failed error delivery =>
    refine keeps_afterTurn hv ?_
    split <;> rfl
  | processExited exitCode =>
    have hrests : Rests v { v with state := .closed } := ⟨rfl, rfl⟩
    simp only [afterEvent]
    split <;> rename_i hstate
    · refine (keeps_endTurn hv (by rw [hstate]; rfl) rfl).congr ?_
      simp [hstate, SupervisorState.isCancelling]
    · refine (keeps_endTurn hv (by rw [hstate]; rfl) rfl).congr ?_
      simp [hstate, SupervisorState.isCancelling]
    · refine (keeps_rests hv hrests).congr ?_
      simp [hstate, SupervisorState.isCancelling]
    · refine (keeps_rests hv hrests).congr ?_
      simp [hstate, SupervisorState.isCancelling, SupervisorState.activeWork]
    · refine (keeps_rests hv hrests).congr ?_
      simp [hstate, SupervisorState.isCancelling, SupervisorState.activeWork]
    all_goals
      refine (keeps_same hv (.refl v)).congr ?_
      simp [hstate, SupervisorState.isCancelling]

/-- The operation takes out of the registry what it or its turn put in: no prompt
that passes the checks is stopped by a port, no process exits while its turn is
being cancelled, and no session is closed in the middle of a turn. -/
def Matched (v : ThreadRuntimeSupervisor) : SupervisorCall → Prop
  | .prompt operationId turnId intent sent settled =>
    v.admits operationId turnId = true →
      intent.isOk = true ∧ sent.isOk = true ∧ settled.isOk = true
  | .pollStream (.ok (some (.processExited _))) _ =>
    v.sessionId.isSome = true → v.state.isCancelling = true → v.state.activeWork = none
  | .closeSession => v.state.activeWork = none
  | _ => True

/-- The prompt is handed over to the harness. -/
def handsOver (v : ThreadRuntimeSupervisor) : SupervisorCall → Option OperationId
  | .prompt operationId turnId intent sent _ =>
    if v.admits operationId turnId = true ∧ intent.isOk = true ∧ sent.isOk = true then
      some operationId
    else none
  | _ => none

theorem keeps_polled (hv : v.Booked handed) {answer : Except HarnessError (Option HarnessEvent)} :
    Keeps v (v.polled answer settled) handed (v.Matched (.pollStream answer settled)) := by
  unfold polled
  rcases hsession : v.sessionId with _ | sessionId
  · refine (keeps_same hv (.refl v)).congr (iff_of_true trivial ?_)
    unfold Matched
    split <;> simp_all
  · rcases answer with err | _ | event
    · exact keeps_same hv (.refl v)
    · exact keeps_same hv (.refl v)
    · refine (keeps_afterEvent hv).congr ?_
      cases event <;> simp [Matched, hsession]

variable [ErrorText]

/-- **A prompt.** -/
theorem keeps_prompted (hv : v.Booked handed) {intent : Except CheckpointError Unit}
    {sent : Except HarnessError Unit} :
    Keeps v (v.prompted operationId turnId intent sent settled).2
      ((v.handsOver (.prompt operationId turnId intent sent settled)).toList ++ handed)
      (v.Matched (.prompt operationId turnId intent sent settled)) := by
  have hmore : ∀ op ∈ v.operations.finished,
      op ∈ (v.handsOver (.prompt operationId turnId intent sent settled)).toList ++ handed :=
    fun op hop => List.mem_append_right _ (hv.finished op hop)
  cases hadmits : v.admits operationId turnId with
  | false =>
    rw [prompted_of_not_admits hadmits]
    refine ⟨⟨fun turnId op hwork => ?_, hmore⟩, fun hclear => ?_⟩
    · obtain ⟨hsession, hadmitted, hhanded⟩ := hv.running turnId op hwork
      exact ⟨hsession, hadmitted, List.mem_append_right _ hhanded⟩
    · simp [hclear, Matched, hadmits]
  | true =>
    obtain ⟨hstate, hsession⟩ := ready_of_admits hadmits
    have hidle : v.state.activeWork = none := by rw [hstate]; rfl
    have hself : operationId ∈ (v.admitted operationId).operations.admitted := by
      rw [admitted_of_admits hadmits]
      exact Table.mem_insert_iff.2 (.inl rfl)
    -- an operation that is admitted and not worked on is left behind
    have hleft {w : ThreadRuntimeSupervisor}
        (hops : w.operations = (v.admitted operationId).operations)
        (hwork : w.state.activeWork = none) : ¬ w.Cleared := by
      intro hclear
      exact hclear.not_mem hwork operationId (hops ▸ hself)
    have hrest {w : ThreadRuntimeSupervisor}
        (hops : w.operations = (v.admitted operationId).operations)
        (hwork : w.state.activeWork = none) : w.Booked
          ((v.handsOver (.prompt operationId turnId intent sent settled)).toList ++ handed) := by
      refine ⟨fun _ _ h => ?_, ?_⟩
      · rw [hwork] at h
        cases h
      · rw [hops, admitted_of_admits hadmits]
        exact hmore
    rw [prompted_of_admits hadmits]
    rcases intent with err | _
    · exact ⟨hrest rfl hidle, fun _ => iff_of_false (hleft rfl hidle)
        (by simp [Matched, hadmits, Except.isOk, Except.toBool])⟩
    rcases sent with err | _
    · exact ⟨hrest rfl rfl, fun _ => iff_of_false (hleft rfl rfl)
        (by simp [Matched, hadmits, Except.isOk, Except.toBool])⟩
    rcases settled with err | _
    · exact ⟨hrest rfl hidle, fun _ => iff_of_false (hleft rfl hidle)
        (by simp [Matched, hadmits, Except.isOk, Except.toBool])⟩
    · refine ⟨⟨?_, ?_⟩, fun hclear => iff_of_true ?_ ?_⟩
      · rintro turnId' op hwork
        cases hwork
        refine ⟨hsession, hself, List.mem_append_left _ ?_⟩
        simp [handsOver, hadmits, Except.isOk, Except.toBool]
      · rw [admitted_of_admits hadmits]
        exact hmore
      · intro a ha
        rw [admitted_of_admits hadmits] at ha
        rcases Table.mem_insert_iff.1 ha with rfl | ha
        · exact ⟨turnId, rfl⟩
        · exact absurd ha (hclear.not_mem hidle a)
      · simp [Matched, Except.isOk, Except.toBool]

/-- **One operation.** -/
theorem keeps_call (hv : v.Booked handed) (call : SupervisorCall) :
    Keeps v (v.call call) ((v.handsOver call).toList ++ handed) (v.Matched call) := by
  cases call with
  | createSession answer =>
    simp only [call, created]
    split
    · exact keeps_same hv (.refl v)
    · rename_i hnone
      refine keeps_opened hv (Bool.eq_false_iff.2 hnone) ?_
      cases answer <;> exact ⟨rfl, rfl⟩
  | resumeSession answer =>
    simp only [call, resumed]
    split
    · exact keeps_same hv (.refl v)
    · rename_i hnone
      refine keeps_opened hv (Bool.eq_false_iff.2 hnone) ?_
      cases answer with
      | error err => exact ⟨rfl, rfl⟩
      | ok info =>
        dsimp only
        split <;> exact ⟨rfl, rfl⟩
  | prompt operationId turnId intent sent settled => exact keeps_prompted hv
  | pollStream answer settled => exact keeps_polled hv
  | decidePermission permissionId intent sent settled =>
    refine keeps_same hv ?_
    simp only [call, decided]
    split
    · rename_i hstate
      split
      · exact ⟨rfl, by rw [hstate]; rfl, rfl⟩
      · exact .refl v
    · exact .refl v
  | steerCancel intent sent =>
    refine keeps_same hv ?_
    simp only [call, cancelled]
    split
    · rename_i hstate
      split
      · exact ⟨rfl, by rw [hstate]; rfl, rfl⟩
      · exact .refl v
    · rename_i hstate
      split
      · exact ⟨rfl, by rw [hstate]; rfl, rfl⟩
      · exact .refl v
    · exact .refl v
  | closeSession => exact keeps_rests hv ⟨rfl, rfl⟩

end ThreadRuntimeSupervisor

/-! ## Whole lives -/

open ThreadRuntimeSupervisor

/-- A supervisor with the operations whose prompts the harness took so far, and
those answered as duplicates without being among them. -/
structure Tracked where
  supervisor : ThreadRuntimeSupervisor
  handed : List OperationId
  unearned : List OperationId

/-- Every admitted operation is worked on and every duplicate was handed over
before. -/
structure Tracked.Accounted (t : Tracked) : Prop where
  cleared : t.supervisor.Cleared
  earned : t.unearned = []

section Runs

variable [SerdeJson] [ErrorText]

/-- The operation a prompt answers as a duplicate. -/
def ThreadRuntimeSupervisor.duplicates (v : ThreadRuntimeSupervisor) :
    SupervisorCall → Option OperationId
  | .prompt operationId turnId intent sent settled =>
    if (v.prompted operationId turnId intent sent settled).1 matches .ok .duplicate then
      some operationId
    else none
  | _ => none

/-- One operation. -/
def Tracked.call (t : Tracked) (call : SupervisorCall) : Tracked where
  supervisor := t.supervisor.call call
  handed := (t.supervisor.handsOver call).toList ++ t.handed
  unearned := ((t.supervisor.duplicates call).toList.filter (· ∉ t.handed)) ++ t.unearned

/-- A supervisor over its whole life, tracked. -/
def trackedMachine (threadId : ThreadId) : Machine Tracked SupervisorCall :=
  ⟨⟨.new threadId, [], []⟩, Tracked.call⟩

/-- When nothing was left behind, a duplicate was handed over. -/
theorem handed_of_duplicates {v : ThreadRuntimeSupervisor} {handed : List OperationId}
    (hv : v.Booked handed) (hclear : v.Cleared) {call : SupervisorCall} {op : OperationId}
    (h : v.duplicates call = some op) : op ∈ handed := by
  cases call with
  | prompt operationId turnId intent sent settled =>
    simp only [duplicates] at h
    split at h
    · rename_i hduplicate
      cases h
      obtain ⟨hready, hknows⟩ := of_duplicate hduplicate
      rcases OperationRegistry.knows_iff.1 hknows with hmem | hmem
      · exact absurd hmem (hclear.not_mem (by rw [hready]; rfl) op)
      · exact hv.finished op hmem
    · cases h
  | _ => cases h

/-- **Prompt operations.** Over every life of a supervisor, the registry holds the
operation of the running turn only and every duplicate was handed over before, as
long as every operation takes out what was put in. -/
theorem operations_accounted_iff (threadId : ThreadId) (calls : List SupervisorCall) :
    (∀ done, done <+: calls → ((trackedMachine threadId).run done).Accounted) ↔
      (trackedMachine threadId).Meets (fun t call => t.supervisor.Matched call)
        (trackedMachine threadId).init calls := by
  have hbooked : ∀ done, ((trackedMachine threadId).run done).supervisor.Booked
      ((trackedMachine threadId).run done).handed :=
    (trackedMachine threadId).invariant (I := fun t => t.supervisor.Booked t.handed)
      (fun t call hv => (keeps_call hv call).booked)
      ⟨fun _ _ h => (Option.some_ne_none _ h.symm).elim, fun _ h => absurd h List.not_mem_nil⟩
  have hstep : ∀ (t : Tracked) (call : SupervisorCall),
      t.supervisor.Booked t.handed ∧ t.Accounted →
      ((t.call call).supervisor.Booked (t.call call).handed ∧ (t.call call).Accounted ↔
        t.supervisor.Matched call) := by
    rintro t call ⟨hv, hclear, hearned⟩
    have hkeeps := keeps_call hv call
    rw [← hkeeps.cleared hclear]
    refine ⟨fun h => h.2.cleared, fun h => ⟨hkeeps.booked, h, ?_⟩⟩
    -- no duplicate is added without having been handed over
    change _ ++ _ = []
    rw [hearned, List.append_nil, List.filter_eq_nil_iff]
    intro op hop
    simpa using handed_of_duplicates hv hclear (Option.mem_toList.1 hop)
  have hinit : (trackedMachine threadId).init.supervisor.Booked
      (trackedMachine threadId).init.handed ∧ (trackedMachine threadId).init.Accounted :=
    ⟨hbooked [], fun _ h => absurd h Std.ExtTreeMap.not_mem_empty, rfl⟩
  rw [← (trackedMachine threadId).prefixes_iff_meets hstep hinit]
  exact forall₂_congr fun done _ => (and_iff_right (hbooked done)).symm

end Runs

section Sample

attribute [local instance] flatObjects plainText

/-- A prompt whose intent could not be recorded, tried again: the operation was
never handed over and is answered as a duplicate. -/
theorem not_accounted_after_failure :
    ¬ ∀ calls : List SupervisorCall,
      ((trackedMachine ⟨"thr_0000000000000001", by decide⟩).run calls).Accounted := by
  intro h
  have hearned := (h [.createSession (.ok openedInfo),
    .prompt ⟨"op_0000000000000001", by decide⟩ ⟨"trn_0000000000000001", by decide⟩
      (.error (.persistence "disk full")) (.ok ()) (.ok ()),
    .prompt ⟨"op_0000000000000001", by decide⟩ ⟨"trn_0000000000000001", by decide⟩
      (.ok ()) (.ok ()) (.ok ())]).earned
  exact absurd hearned (by decide)

end Sample

end Altior.Runtime
