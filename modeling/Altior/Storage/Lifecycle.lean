import Altior.Lib.Lifecycle
import Altior.Storage.Recovery

/-!
# Turns and permissions

A turn is started once, used by its thread while it is active and closed once; a
permission is requested once and decided once while it is pending.  Both are
one-shot lifecycles: the tables hold, for every id, the phase of the history of
accepted events.
-/

namespace Altior.Storage

open Domain Lib Lib.Lifecycle

/-! ## What the tables say -/

/-- The phase of a turn row; the owner is its thread. -/
def turnPhase : Option TurnRow → Phase (Option String) String
  | none => .absent
  | some row =>
    if row.state = "active" then .opened (some row.threadId)
    else .closed (some row.threadId) row.state

theorem owner_turnPhase (row : TurnRow) :
    (turnPhase (some row)).owner? = some (some row.threadId) := by
  simp only [turnPhase]
  split <;> rfl

/-- The phase of a permission row; the owner is its turn and thread. -/
def permissionPhase : Option PermissionRow → Phase (Option String × Option String) String
  | none => .absent
  | some row =>
    if row.decision = "pending" then .opened (some row.turnId, some row.threadId)
    else .closed (some row.turnId, some row.threadId) row.decision

theorem permissionPhase_eq_absent {row? : Option PermissionRow}
    (h : permissionPhase row? = .absent) : row? = none := by
  cases row? with
  | none => rfl
  | some row =>
    simp only [permissionPhase] at h
    split at h <;> cases h

/-! ## What the single checks promise -/

theorem req_eq_ok {v : Json} {k s : String} (h : req v k = .ok s) : v.getStr k = some s := by
  have h := requireSome_eq_ok.1 h
  exact (Option.filter_eq_some_iff.1 h).1

variable {p p' : Projections} {seq : Int}

theorem requireTurnOfThread_eq_ok {turn : TurnId} {t : ThreadId}
    (h : requireTurnOfThread p turn t = .ok ()) :
    ∃ row, p.turn[turn.asStr]? = some row ∧ row.threadId = t.asStr := by
  have h := require_eq_ok.1 h
  rw [Option.any_eq_true] at h
  obtain ⟨row, hrow, heq⟩ := h
  exact ⟨row, hrow, by simpa using heq⟩

theorem requireActiveTurn_eq_ok {turn : TurnId} {detail : Detail} {row : TurnRow}
    (h : requireActiveTurn p turn detail = .ok ()) (hrow : p.turn[turn.asStr]? = some row) :
    row.state = "active" := by
  have h := require_eq_ok.1 h
  rw [hrow] at h
  simpa using h

/-! ## Statements that leave the two tables alone -/

theorem updateThreadActivity_frame {thread : String} {at_ : Int} {eventId kind : String}
    (h : updateThreadActivity p thread seq eventId kind at_ = .ok p') :
    p'.turn = p.turn ∧ p'.permission = p.permission := by
  unfold updateThreadActivity at h
  split at h
  · cases h
    exact ⟨rfl, rfl⟩
  · cases h

theorem updateMemory_frame (p : Projections) (memoryId : String) (f : MemoryRow → MemoryRow) :
    (p.updateMemory memoryId f).turn = p.turn ∧
      (p.updateMemory memoryId f).permission = p.permission := by
  unfold Projections.updateMemory
  split <;> exact ⟨rfl, rfl⟩

variable [SerdeJson]

open SerdeJson

/-! ## What an event says -/

/-- What an event means to the turn with this id. -/
def turnAct (turnId : String) (e : DomainEvent) : Act (Option String) String :=
  if e.turnId.map Id.asStr = some turnId then
    match e.kind with
    | .turnStarted => .start (e.threadId.map Id.asStr)
    | .messageDelta | .permissionRequested | .permissionDecided => .use (e.threadId.map Id.asStr)
    | .turnCompleted => .close (e.threadId.map Id.asStr) "completed"
    | .turnCancelled => .close (e.threadId.map Id.asStr) "cancelled"
    | .turnFailed => .close (e.threadId.map Id.asStr) "failed"
    | _ => .skip
  else .skip

/-- The permission a decision names. -/
def decidedPermission (e : DomainEvent) : Option String :=
  extractJsonString e.payload.asBytes "permission_event_id"

/-- The decision in the payload. -/
def decisionOf (e : DomainEvent) : String :=
  (extractJsonString e.payload.asBytes "decision").getD "denied"

/-- What an event means to the permission requested by the event with this id. -/
def permissionAct (permissionId : String) (e : DomainEvent) :
    Act (Option String × Option String) String :=
  match e.kind with
  | .permissionRequested =>
    if e.eventId.asStr = permissionId then
      .start (e.turnId.map Id.asStr, e.threadId.map Id.asStr)
    else .skip
  | .permissionDecided =>
    if decidedPermission e = some permissionId then
      .close (e.turnId.map Id.asStr, e.threadId.map Id.asStr) (decisionOf e)
    else .skip
  | _ => .skip

/-! ## What validation promises -/

variable {e : DomainEvent} {occurredAt : Int} {turnId : String}

/-- The checks an accepted thread, turn or permission event went through. -/
theorem validateKind_of_validate (h : validateDomainEventInTx p e = .ok ())
    (hmem : isMemoryKind e.kind = false) (hother : isOther e.kind = false) :
    ∃ v t, fromSlice e.payload.asBytes = some v ∧ e.threadId = some t ∧
      validateKind p e t v = .ok () ∧ (e.kind = .threadCreated ∨ t.asStr ∈ p.thread) := by
  obtain ⟨⟨⟩, -, h⟩ := bind_eq_ok.1 h
  obtain ⟨v, hv, h⟩ := bind_eq_ok.1 h
  rw [requireSome_eq_ok] at hv
  simp only [hmem, hother, Bool.false_and, Bool.false_eq_true, if_false] at h
  obtain ⟨t, ht, h⟩ := bind_eq_ok.1 h
  obtain ⟨⟨⟩, hkind, h⟩ := bind_eq_ok.1 h
  exact ⟨v, t, (Option.filter_eq_some_iff.1 hv).1, requireSome_eq_ok.1 ht, hkind,
    require_eq_ok.1 h⟩

/-- An accepted start names a turn that is not there yet. -/
theorem validate_turnStarted (h : validateDomainEventInTx p e = .ok ())
    (hkind : e.kind = .turnStarted) :
    ∃ turn thread, e.turnId = some turn ∧ e.threadId = some thread ∧
      p.turn[turn.asStr]? = none := by
  obtain ⟨v, t, -, ht, hv, -⟩ := validateKind_of_validate h (by rw [hkind]; rfl) (by rw [hkind]; rfl)
  simp only [validateKind, hkind] at hv
  obtain ⟨turn, hturn, hv⟩ := bind_eq_ok.1 hv
  exact ⟨turn, t, requireSome_eq_ok.1 hturn, ht, Table.not_mem_iff.1 (require_eq_ok.1 hv)⟩

/-- The kinds that need an active turn of their thread. -/
def needsActiveTurn : DomainEventKind → Bool
  | .messageDelta | .permissionRequested | .permissionDecided | .turnCompleted | .turnCancelled
  | .turnFailed => true
  | _ => false

/-- An accepted event of these kinds names an active turn of its thread. -/
theorem validate_needsActiveTurn (h : validateDomainEventInTx p e = .ok ())
    (hkind : needsActiveTurn e.kind = true) :
    ∃ turn thread row, e.turnId = some turn ∧ e.threadId = some thread ∧
      p.turn[turn.asStr]? = some row ∧ row.threadId = thread.asStr ∧ row.state = "active" := by
  have hmem : isMemoryKind e.kind = false := by cases hk : e.kind <;> simp_all [needsActiveTurn, isMemoryKind]
  have hother : isOther e.kind = false := by cases hk : e.kind <;> simp_all [needsActiveTurn, isOther]
  obtain ⟨v, t, -, ht, hv, -⟩ := validateKind_of_validate h hmem hother
  unfold validateKind at hv
  cases hk : e.kind <;> simp only [hk, needsActiveTurn, Bool.false_eq_true] at hkind hv
  all_goals
    obtain ⟨turn, hturn, hv⟩ := bind_eq_ok.1 hv
    obtain ⟨⟨⟩, hthread, hv⟩ := bind_eq_ok.1 hv
    obtain ⟨row, hrow, howner⟩ := requireTurnOfThread_eq_ok hthread
    refine ⟨turn, t, row, requireSome_eq_ok.1 hturn, ht, hrow, howner, ?_⟩
  -- The activity check is the last one of the kinds that look at nothing else.
  case messageDelta | turnCompleted | turnCancelled | turnFailed =>
    exact requireActiveTurn_eq_ok hv hrow
  all_goals
    obtain ⟨⟨⟩, hactive, -⟩ := bind_eq_ok.1 hv
    exact requireActiveTurn_eq_ok hactive hrow

/-- An accepted decision names a pending permission of its turn and thread. -/
theorem validate_permissionDecided (h : validateDomainEventInTx p e = .ok ())
    (hkind : e.kind = .permissionDecided) :
    ∃ turn thread id row, e.turnId = some turn ∧ e.threadId = some thread ∧
      decidedPermission e = some id ∧ decisionOf e ∈ ["approved", "denied"] ∧
      p.permission[id]? = some row ∧ row.turnId = turn.asStr ∧ row.threadId = thread.asStr ∧
      row.decision = "pending" := by
  obtain ⟨v, t, hjson, ht, hv, -⟩ :=
    validateKind_of_validate h (by rw [hkind]; rfl) (by rw [hkind]; rfl)
  simp only [validateKind, hkind] at hv
  obtain ⟨turn, hturn, hv⟩ := bind_eq_ok.1 hv
  obtain ⟨⟨⟩, -, hv⟩ := bind_eq_ok.1 hv
  obtain ⟨⟨⟩, -, hv⟩ := bind_eq_ok.1 hv
  obtain ⟨id, hid, hv⟩ := bind_eq_ok.1 hv
  obtain ⟨decision, hdecision, hv⟩ := bind_eq_ok.1 hv
  obtain ⟨⟨⟩, hvalid, hv⟩ := bind_eq_ok.1 hv
  have hpending := require_eq_ok.1 hv
  rw [Option.any_eq_true] at hpending
  obtain ⟨row, hrow, heq⟩ := hpending
  simp only [Bool.and_eq_true, beq_iff_eq] at heq
  have hvalue : decisionOf e = decision := by
    simp [decisionOf, extractJsonString, hjson, req_eq_ok hdecision]
  refine ⟨turn, t, id, row, requireSome_eq_ok.1 hturn, ht, ?_, ?_, hrow, heq.1.1, heq.1.2, heq.2⟩
  · simp [decidedPermission, extractJsonString, hjson, req_eq_ok hid]
  · rw [hvalue]
    exact require_eq_ok.1 hvalid

/-! ## What folding does to the two tables -/

theorem foldMemory_frame (h : foldMemory p e occurredAt = some (.ok p')) :
    p'.turn = p.turn ∧ p'.permission = p.permission := by
  unfold foldMemory at h
  split at h
  case h_1 =>
    simp only [foldMemoryProposedInTx, Option.some.injEq] at h
    split at h
    · cases h
    · split at h
      · cases h; exact updateMemory_frame _ _ _
      · cases h; exact ⟨rfl, rfl⟩
  case h_2 =>
    simp only [foldMemoryConfirmedInTx, Option.some.injEq] at h
    split at h
    · cases h
    · split at h
      · cases h; exact updateMemory_frame _ _ _
      · cases h; exact ⟨rfl, rfl⟩
  case h_7 => cases h
  all_goals
    cases h
    exact updateMemory_frame _ _ _

/-- Memory events have no statement on the turn and permission tables. -/
theorem foldTurnScope_of_foldMemory (h : foldMemory p e occurredAt ≠ none) (threadId : String) :
    foldTurnScope p e threadId occurredAt = p := by
  unfold foldMemory at h
  unfold foldTurnScope
  cases hk : e.kind <;> simp_all

/-- Only the statements of `foldTurnScope` change the turn and permission
tables. -/
theorem foldDomainEventInTx_turnScope {thread : ThreadId}
    (h : foldDomainEventInTx p e seq occurredAt = .ok p') (hthread : e.threadId = some thread) :
    p'.turn = (foldTurnScope p e thread.asStr occurredAt).turn ∧
      p'.permission = (foldTurnScope p e thread.asStr occurredAt).permission := by
  unfold foldDomainEventInTx at h
  cases hmem : foldMemory p e occurredAt with
  | some r =>
    rw [foldTurnScope_of_foldMemory (by rw [hmem]; simp)]
    cases r with
    | error err => simp [hmem] at h
    | ok q =>
      simp only [hmem, hthread] at h
      obtain ⟨hturn, hperm⟩ := updateThreadActivity_frame h
      obtain ⟨hturn', hperm'⟩ := foldMemory_frame hmem
      exact ⟨hturn.trans hturn', hperm.trans hperm'⟩
  | none =>
    simp only [hmem, hthread] at h
    split at h
    · rename_i hk
      cases h
      simp only [foldTurnScope, hk, foldThreadCreated]
      split <;> exact ⟨rfl, rfl⟩
    · rename_i hk
      cases h
      simp only [foldTurnScope, hk]
      exact ⟨rfl, rfl⟩
    · rename_i hk
      cases h
      simp only [foldTurnScope, hk]
      exact ⟨rfl, rfl⟩
    · exact updateThreadActivity_frame h

theorem foldDomainEventInTx_noThread (h : foldDomainEventInTx p e seq occurredAt = .ok p')
    (hthread : e.threadId = none) : p'.turn = p.turn ∧ p'.permission = p.permission := by
  unfold foldDomainEventInTx at h
  cases hmem : foldMemory p e occurredAt with
  | some r =>
    cases r with
    | error err => simp [hmem] at h
    | ok q =>
      simp only [hmem, hthread] at h
      cases h
      exact foldMemory_frame hmem
  | none =>
    simp only [hmem, hthread] at h
    cases h
    exact ⟨rfl, rfl⟩

@[simp] theorem foldPermissionRequested_turn (p : Projections) (e : DomainEvent)
    (turnId threadId : String) (occurredAt : Int) :
    (foldPermissionRequested p e turnId threadId occurredAt).turn = p.turn := by
  unfold foldPermissionRequested
  split <;> rfl

@[simp] theorem foldPermissionDecided_turn (p : Projections) (e : DomainEvent) (occurredAt : Int) :
    (foldPermissionDecided p e occurredAt).turn = p.turn := by
  unfold foldPermissionDecided
  split <;> rfl

/-! ## One event -/

/-- An event that means nothing to a turn leaves its row alone. -/
theorem turn_of_skip (hfold : foldDomainEventInTx p e seq occurredAt = .ok p')
    (hskip : turnAct turnId e = .skip) : p'.turn[turnId]? = p.turn[turnId]? := by
  cases hthread : e.threadId with
  | none => rw [(foldDomainEventInTx_noThread hfold hthread).1]
  | some thread =>
    rw [(foldDomainEventInTx_turnScope hfold hthread).1]
    unfold turnAct at hskip
    unfold foldTurnScope foldTurnStarted
    cases hturn : e.turnId with
    | none => cases e.kind <;> simp
    | some turn =>
      simp only [hturn, hthread, Option.map_some, Option.some.injEq] at hskip
      by_cases heq : turn.asStr = turnId
      · cases hk : e.kind <;> simp_all
      · cases e.kind <;> simp only [Projections.updateTurn, Projections.insertTurn,
          foldPermissionRequested_turn, foldPermissionDecided_turn]
        all_goals
          (try split) <;>
            simp [Table.getElem?_update_of_ne, Table.getElem?_insert_of_ne, heq]

/-- Every accepted event is a legal act on every turn. -/
theorem turn_step (hvalid : validateDomainEventInTx p e = .ok ())
    (hfold : foldDomainEventInTx p e seq occurredAt = .ok p') (turnId : String) :
    step (turnPhase p.turn[turnId]?) (turnAct turnId e) = some (turnPhase p'.turn[turnId]?) := by
  by_cases hskip : turnAct turnId e = .skip
  · rw [hskip, turn_of_skip hfold hskip]
    cases turnPhase p.turn[turnId]? <;> rfl
  · by_cases hstart : e.kind = .turnStarted
    · obtain ⟨turn, thread, hturn, hthread, hnone⟩ := validate_turnStarted hvalid hstart
      have heq : turn.asStr = turnId := by
        by_contra hne
        exact hskip (by simp [turnAct, hturn, hne])
      subst heq
      rw [(foldDomainEventInTx_turnScope hfold hthread).1]
      have hmem : turn.asStr ∉ p.turn := Table.not_mem_iff.2 hnone
      simp [foldTurnScope, foldTurnStarted, turnAct, hstart, hturn, hthread, hmem,
        Projections.insertTurn, turnPhase, step]
    · have hneeds : needsActiveTurn e.kind = true := by
        by_contra hno
        refine hskip ?_
        unfold turnAct
        cases hk : e.kind <;> simp_all [needsActiveTurn]
      obtain ⟨turn, thread, row, hturn, hthread, hrow, howner, hactive⟩ :=
        validate_needsActiveTurn hvalid hneeds
      have heq : turn.asStr = turnId := by
        by_contra hne
        exact hskip (by simp [turnAct, hturn, hne])
      subst heq
      rw [(foldDomainEventInTx_turnScope hfold hthread).1]
      cases hk : e.kind <;> simp only [hk, needsActiveTurn, Bool.false_eq_true] at hneeds
      all_goals
        simp [foldTurnScope, turnAct, hk, hturn, hthread, hrow, Projections.updateTurn, turnPhase,
          step, howner, hactive, TurnRow.close]

/-- An event that means nothing to a permission leaves its row alone. -/
theorem permission_of_skip (hvalid : validateDomainEventInTx p e = .ok ())
    (hfold : foldDomainEventInTx p e seq occurredAt = .ok p') {permissionId : String}
    (hskip : permissionAct permissionId e = .skip) :
    p'.permission[permissionId]? = p.permission[permissionId]? := by
  cases hthread : e.threadId with
  | none => rw [(foldDomainEventInTx_noThread hfold hthread).2]
  | some thread =>
    rw [(foldDomainEventInTx_turnScope hfold hthread).2]
    by_cases hreq : e.kind = .permissionRequested
    · cases hturn : e.turnId with
      | none => simp [foldTurnScope, hreq, hturn]
      | some turn =>
        have hne : e.eventId.asStr ≠ permissionId := by
          intro heq
          simp [permissionAct, hreq, heq] at hskip
        simp only [foldTurnScope, hreq, hturn, foldPermissionRequested]
        split
        · rfl
        · exact Table.getElem?_insert_of_ne _ _ hne
    · by_cases hdec : e.kind = .permissionDecided
      · obtain ⟨turn, thread', id, row, hturn, hthread', hid, -⟩ :=
          validate_permissionDecided hvalid hdec
        have hne : id ≠ permissionId := by
          intro heq
          simp [permissionAct, hdec, hid, heq] at hskip
        have hpayload : extractJsonString e.payload.asBytes "permission_event_id" = some id := hid
        simp only [foldTurnScope, hdec, foldPermissionDecided, hpayload]
        exact Table.getElem?_update_of_ne _ _ hne
      · unfold foldTurnScope foldTurnStarted
        cases hk : e.kind <;> first | contradiction | skip
        all_goals
          cases e.turnId <;> (try simp only) <;> (try split) <;> rfl

/-- Every accepted event is a legal act on every permission. -/
theorem permission_step (hvalid : validateDomainEventInTx p e = .ok ())
    (hfold : foldDomainEventInTx p e seq occurredAt = .ok p')
    (hfresh : p.permission[e.eventId.asStr]? = none) (permissionId : String) :
    step (permissionPhase p.permission[permissionId]?) (permissionAct permissionId e) =
      some (permissionPhase p'.permission[permissionId]?) := by
  by_cases hskip : permissionAct permissionId e = .skip
  · rw [hskip, permission_of_skip hvalid hfold hskip]
    cases permissionPhase p.permission[permissionId]? <;> rfl
  · by_cases hreq : e.kind = .permissionRequested
    · obtain ⟨turn, thread, -, hturn, hthread, -⟩ :=
        validate_needsActiveTurn hvalid (by rw [hreq]; rfl)
      have heq : e.eventId.asStr = permissionId := by
        by_contra hne
        exact hskip (by simp [permissionAct, hreq, hne])
      subst heq
      rw [(foldDomainEventInTx_turnScope hfold hthread).2]
      have hmem : e.eventId.asStr ∉ p.permission := Table.not_mem_iff.2 hfresh
      simp [foldTurnScope, foldPermissionRequested, permissionAct, hreq, hturn, hthread, hmem,
        Projections.insertPermission, permissionPhase, step]
    · have hdec : e.kind = .permissionDecided := by
        by_contra hno
        refine hskip ?_
        unfold permissionAct
        cases hk : e.kind <;> first | contradiction | rfl
      obtain ⟨turn, thread, id, row, hturn, hthread, hid, hdecision, hrow, hturnId, hthreadId,
        hpending⟩ := validate_permissionDecided hvalid hdec
      have heq : id = permissionId := by
        by_contra hne
        exact hskip (by simp [permissionAct, hdec, hid, hne])
      subst heq
      have hpayload : extractJsonString e.payload.asBytes "permission_event_id" = some id := hid
      have hnot : decisionOf e ≠ "pending" := by
        rintro h
        rw [h] at hdecision
        revert hdecision
        decide
      have hvalue : (extractJsonString e.payload.asBytes "decision").getD "denied" ≠ "pending" := hnot
      rw [(foldDomainEventInTx_turnScope hfold hthread).2]
      simp [foldTurnScope, foldPermissionDecided, permissionAct, hdec, hturn, hthread, hid, hpayload,
        Projections.updatePermission, permissionPhase, step, hrow, hturnId, hthreadId, hpending,
        hvalue, decisionOf]

/-! ## Whole runs -/

/-- One append beside the list of events accepted so far. -/
def recordStep (h : DomainStore × List DomainEvent) (e : DomainEvent) :
    DomainStore × List DomainEvent :=
  match appendDomainEvent h.1 e with
  | .ok (.appended _, s') => (s', h.2 ++ [e])
  | .ok (.duplicate _, s') => (s', h.2)
  | .error _ => h

/-- The store of a run of appends with its accepted events. -/
def recordMachine : Machine (DomainStore × List DomainEvent) DomainEvent :=
  ⟨(.empty, []), recordStep⟩

/-- The events of a run that added a journal row, in order. -/
def acceptedEvents (events : List DomainEvent) : List DomainEvent := (recordMachine.run events).2

theorem recordStep_fst (h : DomainStore × List DomainEvent) (e : DomainEvent) :
    (recordStep h e).1 = storeStep h.1 (.append e) := by
  unfold recordStep
  simp only [storeStep]
  split <;> simp_all

theorem recordMachine_runFrom_fst (h : DomainStore × List DomainEvent)
    (events : List DomainEvent) :
    (recordMachine.runFrom h events).1 = storeMachine.runFrom h.1 (appends events) := by
  induction events generalizing h with
  | nil => rfl
  | cons e events ih =>
    change (recordMachine.runFrom (recordStep h e) events).1 =
      storeMachine.runFrom (storeStep h.1 (.append e)) (appends events)
    rw [ih, recordStep_fst]

theorem recordMachine_run_fst (events : List DomainEvent) :
    (recordMachine.run events).1 = storeMachine.run (appends events) :=
  recordMachine_runFrom_fst _ events

/-- The tables hold the phase of the accepted events, and every permission row
comes from a journal row. -/
structure Recorded (h : DomainStore × List DomainEvent) : Prop where
  turns : ∀ turnId, phase (h.2.map (turnAct turnId)) = some (turnPhase h.1.projections.turn[turnId]?)
  permissions : ∀ id, phase (h.2.map (permissionAct id)) =
    some (permissionPhase h.1.projections.permission[id]?)
  journaled : ∀ id row, h.1.projections.permission[id]? = some row →
    ∃ r ∈ h.1.journal, r.eventId = id

theorem permissionAct_start {id : String} {owner : Option String × Option String}
    (h : permissionAct id e = .start owner) : e.eventId.asStr = id := by
  unfold permissionAct at h
  split at h
  · split at h
    · assumption
    · cases h
  · split at h <;> cases h
  · cases h

/-- A new permission row is the row of the event just folded. -/
theorem eventId_of_new_permission (hvalid : validateDomainEventInTx p e = .ok ())
    (hfold : foldDomainEventInTx p e seq occurredAt = .ok p')
    (hfresh : p.permission[e.eventId.asStr]? = none) {id : String} {row : PermissionRow}
    (hold : p.permission[id]? = none) (hnew : p'.permission[id]? = some row) :
    e.eventId.asStr = id := by
  have hstep := permission_step hvalid hfold hfresh id
  rw [hold] at hstep
  rcases step_cases hstep with ⟨-, hsame⟩ | ⟨owner, -, hact, -⟩ | ⟨owner, hphase, -⟩ |
    ⟨owner, outcome, hphase, -⟩
  · have := permissionPhase_eq_absent (hsame.trans rfl)
    simp [hnew] at this
  · exact permissionAct_start hact
  · cases hphase
  · cases hphase

/-- A recorded append changes nothing or accepts the event. -/
theorem recordStep_cases (h : DomainStore × List DomainEvent) (e : DomainEvent) :
    recordStep h e = h ∨
    ∃ p seq s', existingDomainEvent h.1 e = none ∧
      validateDomainEventInTx h.1.projections e = .ok () ∧
      foldDomainEventInTx h.1.projections e seq e.occurredAt.toNat = .ok p ∧
      s'.projections = p ∧ s'.journal = h.1.journal ++ [durableRow seq e] ∧
      recordStep h e = (s', h.2 ++ [e]) := by
  unfold recordStep
  split
  · rename_i n s' happ
    rcases appendDomainEvent_cases happ with ⟨_, _, _, ho, _⟩ | ⟨p, -, hnone, hvalid, hfold, -, rfl⟩
    · cases ho
    · exact .inr ⟨p, _, _, hnone, hvalid, hfold, rfl, rfl, rfl⟩
  · rename_i n s' happ
    rcases appendDomainEvent_cases happ with ⟨_, _, _, _, rfl⟩ | ⟨_, _, _, _, _, ho, _⟩
    · exact .inl rfl
    · cases ho
  · exact .inl rfl

/-- The id of an event that is not in the journal has no permission row. -/
theorem Recorded.fresh {h : DomainStore × List DomainEvent} (hr : Recorded h)
    (hnone : existingDomainEvent h.1 e = none) :
    h.1.projections.permission[e.eventId.asStr]? = none := by
  cases hrow : h.1.projections.permission[e.eventId.asStr]? with
  | none => rfl
  | some row =>
    obtain ⟨r, hmem, hid⟩ := hr.journaled _ row hrow
    exact absurd (List.find?_eq_none.1 hnone r hmem) (by simp [hid])

theorem recorded_step {h : DomainStore × List DomainEvent} (hr : Recorded h) :
    Recorded (recordStep h e) := by
  rcases recordStep_cases h e with hsame | ⟨p, seq, s', hnone, hvalid, hfold, hproj, hjournal, heq⟩
  · rw [hsame]
    exact hr
  · have hfresh := hr.fresh hnone
    rw [heq]
    subst hproj
    refine ⟨fun turnId => ?_, fun id => ?_, fun id row hrow => ?_⟩
    · rw [List.map_append]
      exact phase_append_act (hr.turns turnId) (turn_step hvalid hfold turnId)
    · rw [List.map_append]
      exact phase_append_act (hr.permissions id) (permission_step hvalid hfold hfresh id)
    · rw [hjournal]
      cases hold : h.1.projections.permission[id]? with
      | some old =>
        obtain ⟨r, hmem, hid⟩ := hr.journaled id old hold
        exact ⟨r, List.mem_append_left _ hmem, hid⟩
      | none =>
        exact ⟨_, List.mem_append_right _ (List.mem_singleton.2 rfl),
          eventId_of_new_permission hvalid hfold hfresh hold hrow⟩

theorem recorded_run (events : List DomainEvent) : Recorded (recordMachine.run events) :=
  recordMachine.invariant (fun _ _ hr => recorded_step hr)
    ⟨fun _ => rfl, fun _ => rfl, fun _ _ h => by cases h⟩ events

/-- A closed turn survives every later append unchanged. -/
theorem turn_frozen {h : DomainStore × List DomainEvent} {row : TurnRow}
    (hrow : h.1.projections.turn[turnId]? = some row) (hclosed : row.state ≠ "active")
    (events : List DomainEvent) :
    (recordMachine.runFrom h events).1.projections.turn[turnId]? = some row := by
  refine recordMachine.invariant (I := fun h => h.1.projections.turn[turnId]? = some row) ?_ hrow
    events
  intro h e hrow
  change (recordStep h e).1.projections.turn[turnId]? = some row
  rcases recordStep_cases h e with hsame | ⟨p, seq, s', -, hvalid, hfold, rfl, -, heq⟩
  · rw [hsame]
    exact hrow
  · have hstep := turn_step hvalid hfold turnId
    rw [hrow] at hstep
    simp only [turnPhase, hclosed, if_false] at hstep
    rw [heq]
    rcases step_cases hstep with ⟨hskip, -⟩ | ⟨_, hphase, -⟩ | ⟨_, hphase, -⟩ | ⟨_, _, hphase, -⟩
    · exact (turn_of_skip hfold hskip).trans hrow
    all_goals cases hphase

/-- A decided permission survives every later append unchanged. -/
theorem permission_frozen {h : DomainStore × List DomainEvent} (hr : Recorded h) {id : String}
    {row : PermissionRow} (hrow : h.1.projections.permission[id]? = some row)
    (hdecided : row.decision ≠ "pending") (events : List DomainEvent) :
    (recordMachine.runFrom h events).1.projections.permission[id]? = some row := by
  refine (recordMachine.invariant
    (I := fun h => Recorded h ∧ h.1.projections.permission[id]? = some row) ?_ ⟨hr, hrow⟩ events).2
  rintro h e ⟨hr, hrow⟩
  refine ⟨recorded_step hr, ?_⟩
  change (recordStep h e).1.projections.permission[id]? = some row
  rcases recordStep_cases h e with hsame | ⟨p, seq, s', hnone, hvalid, hfold, rfl, -, heq⟩
  · rw [hsame]
    exact hrow
  · have hstep := permission_step hvalid hfold (hr.fresh hnone) id
    rw [hrow] at hstep
    simp only [permissionPhase, hdecided, if_false] at hstep
    rw [heq]
    rcases step_cases hstep with ⟨hskip, -⟩ | ⟨_, hphase, -⟩ | ⟨_, hphase, -⟩ | ⟨_, _, hphase, -⟩
    · exact (permission_of_skip hvalid hfold hskip).trans hrow
    all_goals cases hphase

/-! ## The lifecycle law -/

/-- The event starts the turn. -/
def startsTurn (turnId : String) (e : DomainEvent) : Bool :=
  e.kind = .turnStarted ∧ e.turnId.map Id.asStr = some turnId

/-- The state a terminal kind closes a turn with. -/
def terminalState : DomainEventKind → Option String
  | .turnCompleted => some "completed"
  | .turnCancelled => some "cancelled"
  | .turnFailed => some "failed"
  | _ => none

/-- The event closes the turn. -/
def closesTurn (turnId : String) (e : DomainEvent) : Bool :=
  (terminalState e.kind).isSome ∧ e.turnId.map Id.asStr = some turnId

/-- The event is one of the turn's own: its start, its end, or something that
happened in it. -/
def belongsToTurn (turnId : String) (e : DomainEvent) : Bool :=
  (e.kind = .turnStarted ∨ needsActiveTurn e.kind) ∧ e.turnId.map Id.asStr = some turnId

/-- The event requests the permission. -/
def requestsPermission (id : String) (e : DomainEvent) : Bool :=
  e.kind = .permissionRequested ∧ e.eventId.asStr = id

/-- The event decides the permission. -/
def decidesPermission (id : String) (e : DomainEvent) : Bool :=
  e.kind = .permissionDecided ∧ decidedPermission e = some id

theorem opens_turnAct (turnId : String) (e : DomainEvent) :
    (turnAct turnId e).opens = startsTurn turnId e := by
  unfold turnAct startsTurn
  split <;> cases e.kind <;> simp_all [Act.opens]

theorem closes_turnAct (turnId : String) (e : DomainEvent) :
    (turnAct turnId e).closes = closesTurn turnId e := by
  unfold turnAct closesTurn
  split <;> cases e.kind <;> simp_all [Act.closes, terminalState]

theorem owner_turnAct (h : belongsToTurn turnId e = true) :
    (turnAct turnId e).owner? = some (e.threadId.map Id.asStr) := by
  unfold belongsToTurn at h
  unfold turnAct
  cases hk : e.kind <;> simp_all [Act.owner?, needsActiveTurn]

theorem close_turnAct {outcome : String} {owner : Option String}
    (h : turnAct turnId e = .close owner outcome) :
    closesTurn turnId e = true ∧ terminalState e.kind = some outcome := by
  unfold turnAct at h
  unfold closesTurn
  split at h
  · cases hk : e.kind <;> simp_all [terminalState]
  · cases h

theorem opens_permissionAct (id : String) (e : DomainEvent) :
    (permissionAct id e).opens = requestsPermission id e := by
  unfold permissionAct requestsPermission
  by_cases hrequested : e.eventId.asStr = id <;> by_cases hdecided : decidedPermission e = some id <;>
    cases e.kind <;> simp [hrequested, hdecided, Act.opens]

theorem closes_permissionAct (id : String) (e : DomainEvent) :
    (permissionAct id e).closes = decidesPermission id e := by
  unfold permissionAct decidesPermission
  by_cases hrequested : e.eventId.asStr = id <;> by_cases hdecided : decidedPermission e = some id <;>
    cases e.kind <;> simp [hrequested, hdecided, Act.closes]

theorem countP_startsTurn (turnId : String) (events : List DomainEvent) :
    events.countP (startsTurn turnId) = (events.map (turnAct turnId)).countP Act.opens := by
  rw [List.countP_map]
  exact List.countP_congr fun e _ => by rw [Function.comp_apply, opens_turnAct]

theorem countP_closesTurn (turnId : String) (events : List DomainEvent) :
    events.countP (closesTurn turnId) = (events.map (turnAct turnId)).countP Act.closes := by
  rw [List.countP_map]
  exact List.countP_congr fun e _ => by rw [Function.comp_apply, closes_turnAct]

theorem countP_requestsPermission (id : String) (events : List DomainEvent) :
    events.countP (requestsPermission id) = (events.map (permissionAct id)).countP Act.opens := by
  rw [List.countP_map]
  exact List.countP_congr fun e _ => by rw [Function.comp_apply, opens_permissionAct]

theorem countP_decidesPermission (id : String) (events : List DomainEvent) :
    events.countP (decidesPermission id) = (events.map (permissionAct id)).countP Act.closes := by
  rw [List.countP_map]
  exact List.countP_congr fun e _ => by rw [Function.comp_apply, closes_permissionAct]

/-- The turn half of the law, for one run: each turn is started and closed at
most once, all its events name one thread, and its row is active until the
closing event and holds that event's outcome from then on. -/
structure TurnLaw (events : List DomainEvent) : Prop where
  started_once : ∀ turnId, (acceptedEvents events).countP (startsTurn turnId) ≤ 1
  closed_once : ∀ turnId, (acceptedEvents events).countP (closesTurn turnId) ≤ 1
  one_thread : ∀ turnId, ∀ e ∈ acceptedEvents events, ∀ e' ∈ acceptedEvents events,
    belongsToTurn turnId e → belongsToTurn turnId e' → e.threadId = e'.threadId
  owner : ∀ (turnId : String) (row : TurnRow),
    (storeMachine.run (appends events)).projections.turn[turnId]? = some row →
    ∃ e ∈ acceptedEvents events, startsTurn turnId e ∧ e.threadId.map Id.asStr = some row.threadId
  state : ∀ (turnId : String) (row : TurnRow),
    (storeMachine.run (appends events)).projections.turn[turnId]? = some row →
    (row.state = "active" ∧ (acceptedEvents events).countP (closesTurn turnId) = 0) ∨
    ∃ e ∈ acceptedEvents events, closesTurn turnId e ∧ terminalState e.kind = some row.state
  final : ∀ (turnId : String) (row : TurnRow),
    (storeMachine.run (appends events)).projections.turn[turnId]? = some row →
    row.state ≠ "active" → ∀ later,
    (storeMachine.run (appends (events ++ later))).projections.turn[turnId]? = some row

/-- The permission half of the law. -/
structure PermissionLaw (events : List DomainEvent) : Prop where
  requested_once : ∀ id, (acceptedEvents events).countP (requestsPermission id) ≤ 1
  decided_once : ∀ id, (acceptedEvents events).countP (decidesPermission id) ≤ 1
  final : ∀ (id : String) (row : PermissionRow),
    (storeMachine.run (appends events)).projections.permission[id]? = some row →
    row.decision ≠ "pending" → ∀ later,
    (storeMachine.run (appends (events ++ later))).projections.permission[id]? = some row

/-- What an accepted event finds in the state it is accepted in. -/
structure AcceptedLaw (p : Projections) (e : DomainEvent) : Prop where
  starts_new : e.kind = .turnStarted → ∃ turn, e.turnId = some turn ∧ turn.asStr ∉ p.turn
  in_active_turn : needsActiveTurn e.kind = true →
    ∃ turn thread row, e.turnId = some turn ∧ e.threadId = some thread ∧
      p.turn[turn.asStr]? = some row ∧ row.threadId = thread.asStr ∧ row.state = "active"
  requests_new : e.kind = .permissionRequested → e.eventId.asStr ∉ p.permission
  decides_pending : e.kind = .permissionDecided →
    ∃ id row, decidedPermission e = some id ∧ p.permission[id]? = some row ∧
      row.decision = "pending"

theorem turnLaw_of_run (events : List DomainEvent) : TurnLaw events := by
  have hr : Recorded (storeMachine.run (appends events), acceptedEvents events) := by
    rw [← recordMachine_run_fst]
    exact recorded_run events
  refine ⟨fun turnId => ?_, fun turnId => ?_, fun turnId e he e' he' hbel hbel' => ?_,
    fun turnId row hrow => ?_, fun turnId row hrow => ?_,
    fun turnId row hrow hclosed later => ?_⟩
  · rw [countP_startsTurn]
    exact opens_le_one (hr.turns turnId)
  · rw [countP_closesTurn]
    exact closes_le_one (hr.turns turnId)
  · have h := owner_unique (hr.turns turnId) (List.mem_map_of_mem he) (List.mem_map_of_mem he')
      (owner_turnAct hbel) (owner_turnAct hbel')
    exact Option.map_injective (fun a b => Id.asStr_inj.1) h
  · have hended := ended_of_phase (hr.turns turnId)
    rw [hrow] at hended
    have hone : 0 < (acceptedEvents events).countP (startsTurn turnId) := by
      rw [countP_startsTurn, hended.opens, owner_turnPhase]
      exact Nat.one_pos
    obtain ⟨e, he, hstarts⟩ := List.countP_pos_iff.1 hone
    have hbelongs : belongsToTurn turnId e = true := by
      simp only [startsTurn, belongsToTurn, decide_eq_true_eq] at hstarts ⊢
      exact ⟨.inl hstarts.1, hstarts.2⟩
    have h := hended.owners _ (List.mem_map_of_mem he) _ (owner_turnAct hbelongs)
    exact ⟨e, he, hstarts, (Option.some.inj ((owner_turnPhase row).symm.trans h)).symm⟩
  · have hended := ended_of_phase (hr.turns turnId)
    rw [hrow] at hended
    by_cases hactive : row.state = "active"
    · refine .inl ⟨hactive, ?_⟩
      rw [countP_closesTurn, hended.closes]
      simp [turnPhase, hactive, Phase.isClosed]
    · have hmem := hended.outcome (some row.threadId) row.state (by simp [turnPhase, hactive])
      obtain ⟨e, he, hact⟩ := List.mem_map.1 hmem
      exact .inr ⟨e, he, close_turnAct hact⟩
  · rw [← recordMachine_run_fst] at hrow
    rw [← recordMachine_run_fst, Machine.run_append]
    exact turn_frozen hrow hclosed later

theorem permissionLaw_of_run (events : List DomainEvent) : PermissionLaw events := by
  have hr := recorded_run events
  refine ⟨fun id => ?_, fun id => ?_, fun id row hrow hdecided later => ?_⟩
  · rw [countP_requestsPermission]
    exact opens_le_one (hr.permissions id)
  · rw [countP_decidesPermission]
    exact closes_le_one (hr.permissions id)
  · rw [← recordMachine_run_fst] at hrow
    rw [← recordMachine_run_fst, Machine.run_append]
    exact permission_frozen hr hrow hdecided later

theorem acceptedLaw_of_run (events : List DomainEvent) {n : Int} {s' : DomainStore}
    (h : appendDomainEvent (storeMachine.run (appends events)) e = .ok (.appended n, s')) :
    AcceptedLaw (storeMachine.run (appends events)).projections e := by
  have hr := recorded_run events
  rcases appendDomainEvent_cases h with ⟨_, _, _, ho, _⟩ | ⟨p, -, hnone, hvalid, -⟩
  · cases ho
  · refine ⟨fun hkind => ?_, fun hkind => validate_needsActiveTurn hvalid hkind, fun _ => ?_,
      fun hkind => ?_⟩
    · obtain ⟨turn, thread, hturn, -, hnew⟩ := validate_turnStarted hvalid hkind
      exact ⟨turn, hturn, Table.not_mem_iff.2 hnew⟩
    · rw [← recordMachine_run_fst] at hnone ⊢
      exact Table.not_mem_iff.2 (hr.fresh hnone)
    · obtain ⟨-, -, id, row, -, -, hid, -, hrow, -, -, hpending⟩ :=
        validate_permissionDecided hvalid hkind
      exact ⟨id, row, hid, hrow, hpending⟩

/-- **Turn and permission lifecycle.** -/
theorem turn_and_permission_lifecycle (events : List DomainEvent) :
    TurnLaw events ∧ PermissionLaw events ∧
      ∀ e n s', appendDomainEvent (storeMachine.run (appends events)) e = .ok (.appended n, s') →
        AcceptedLaw (storeMachine.run (appends events)).projections e :=
  ⟨turnLaw_of_run events, permissionLaw_of_run events, fun _ _ _ h => acceptedLaw_of_run events h⟩

end Altior.Storage
