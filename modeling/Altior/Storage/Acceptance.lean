import Altior.Storage.Growth

/-!
# What the journal accepts

Sufficient conditions for an append, by the kind of the event, and what an
accepted event leaves as it was: threads stay, and an open turn stays open until
it is closed by an event of its own thread.
-/

namespace Altior.Storage

open Domain Lib Lib.Lifecycle

/-! ## Open turns -/

/-- The turn is active and belongs to the thread. -/
def OpenTurn (p : Projections) (threadId : ThreadId) (turnId : TurnId) : Prop :=
  turnPhase p.turn[turnId.asStr]? = .opened (some threadId.asStr)

variable {p p' : Projections} {threadId : ThreadId} {turnId : TurnId} {seq : Int}

theorem openTurn_iff :
    OpenTurn p threadId turnId ↔ ∃ row, p.turn[turnId.asStr]? = some row ∧
      row.threadId = threadId.asStr ∧ row.state = "active" := by
  unfold OpenTurn
  cases p.turn[turnId.asStr]? with
  | none => simp [turnPhase]
  | some row =>
    simp only [turnPhase, Option.some.injEq, exists_eq_left']
    split <;> simp_all

instance (p : Projections) (threadId : ThreadId) (turnId : TurnId) :
    Decidable (OpenTurn p threadId turnId) :=
  decidable_of_iff ((p.turn[turnId.asStr]?).any fun row =>
      row.threadId == threadId.asStr && row.state == "active") (by
    rw [openTurn_iff]
    simp [Option.any_eq_true])

/-! ## Threads under one event -/

theorem thread_updateMemory {memoryId : String} {f : MemoryRow → MemoryRow} :
    (p.updateMemory memoryId f).thread = p.thread := by
  unfold Projections.updateMemory
  split <;> rfl

theorem mem_thread_activity {thread : String} {at_ : Int} {eventId kind : String}
    (h : updateThreadActivity p thread seq eventId kind at_ = .ok p') {k : String}
    (hk : k ∈ p.thread) : k ∈ p'.thread := by
  unfold updateThreadActivity at h
  split at h
  · cases h
    exact Table.mem_update.2 hk
  · cases h

variable [SerdeJson]

open SerdeJson

variable {e : DomainEvent} {occurredAt : Int}

theorem thread_foldMemory (h : foldMemory p e occurredAt = some (.ok p')) :
    p'.thread = p.thread := by
  unfold foldMemory at h
  split at h
  case h_1 =>
    simp only [foldMemoryProposedInTx, Option.some.injEq] at h
    split at h
    · cases h
    · split at h
      · cases h; exact thread_updateMemory
      · cases h; rfl
  case h_2 =>
    simp only [foldMemoryConfirmedInTx, Option.some.injEq] at h
    split at h
    · cases h
    · split at h
      · cases h; exact thread_updateMemory
      · cases h; rfl
  case h_7 => cases h
  all_goals
    cases h
    exact thread_updateMemory

theorem thread_foldTurnScope (p : Projections) (e : DomainEvent) (threadId : String)
    (occurredAt : Int) : (foldTurnScope p e threadId occurredAt).thread = p.thread := by
  unfold foldTurnScope
  split
  all_goals first
    | rfl
    | (unfold foldTurnStarted; split <;> rfl)
    | (unfold foldPermissionRequested; split <;> rfl)
    | (unfold foldPermissionDecided; split <;> rfl)

/-- Folding an event keeps the threads. -/
theorem mem_thread_step (h : foldDomainEventInTx p e seq occurredAt = .ok p') {k : String}
    (hk : k ∈ p.thread) : k ∈ p'.thread := by
  unfold foldDomainEventInTx at h
  cases hmem : foldMemory p e occurredAt with
  | some r =>
    cases r with
    | error err => simp [hmem] at h
    | ok q =>
      rw [← thread_foldMemory hmem] at hk
      simp only [hmem] at h
      split at h
      · exact mem_thread_activity h hk
      · cases h
        exact hk
  | none =>
    simp only [hmem] at h
    split at h
    · cases h
      exact hk
    · split at h
      · cases h
        unfold foldThreadCreated
        split
        · exact Table.mem_update.2 hk
        · exact Std.ExtTreeMap.mem_insert.2 (.inr hk)
      · cases h
        exact Table.mem_update.2 hk
      · cases h
        exact Table.mem_update.2 hk
      · refine mem_thread_activity h ?_
        rw [thread_foldTurnScope]
        exact hk

/-! ## Open turns under one event -/

theorem owner_of_close {turnId outcome : String} {owner : Option String}
    (h : turnAct turnId e = .close owner outcome) : owner = e.threadId.map Id.asStr := by
  have howner : (turnAct turnId e).owner? = some (e.threadId.map Id.asStr) := owner_turnAct (by
    obtain ⟨hcloses, -⟩ := close_turnAct h
    unfold closesTurn at hcloses
    unfold belongsToTurn
    cases hk : e.kind <;> simp_all [terminalState, needsActiveTurn])
  rw [h] at howner
  exact Option.some.inj howner

/-- An open turn stays open under an accepted event, unless an event of its own
thread ends it. -/
theorem openTurn_step (hvalid : validateDomainEventInTx p e = .ok ())
    (hfold : foldDomainEventInTx p e seq occurredAt = .ok p') (hopen : OpenTurn p threadId turnId)
    (hclose : e.threadId = some threadId → closesTurn turnId.asStr e = false) :
    OpenTurn p' threadId turnId := by
  have hstep := turn_step hvalid hfold turnId.asStr
  rw [show turnPhase p.turn[turnId.asStr]? = _ from hopen] at hstep
  unfold OpenTurn
  cases hact : turnAct turnId.asStr e with
  | start owner => simp [hact, step] at hstep
  | use owner =>
    simp only [hact, step] at hstep
    split at hstep
    · exact (Option.some.inj hstep).symm
    · cases hstep
  | close owner outcome =>
    simp only [hact, step] at hstep
    split at hstep
    · rename_i howner
      -- the owner of the act is the thread of the event
      have hthread : e.threadId = some threadId := by
        rw [owner_of_close hact, Option.map_eq_some_iff] at howner
        obtain ⟨t, ht, heq⟩ := howner
        rw [ht, Option.some.injEq]
        exact Id.asStr_inj.1 heq
      rw [(close_turnAct hact).1] at hclose
      exact absurd (hclose hthread) (by simp)
    · cases hstep
  | skip =>
    simp only [hact, step, Option.some.injEq] at hstep
    exact hstep.symm

/-- A turn that an accepted event ends is open no more. -/
theorem not_openTurn_of_closes (hvalid : validateDomainEventInTx p e = .ok ())
    (hfold : foldDomainEventInTx p e seq occurredAt = .ok p')
    (hclose : closesTurn turnId.asStr e = true) (threadId : ThreadId) :
    ¬ OpenTurn p' threadId turnId := by
  have hstep := turn_step hvalid hfold turnId.asStr
  rw [← closes_turnAct] at hclose
  unfold OpenTurn
  intro hopen
  rw [hopen] at hstep
  revert hclose hstep
  cases turnAct turnId.asStr e <;> cases turnPhase p.turn[turnId.asStr]? <;>
    simp only [Act.closes, step, Bool.false_eq_true, false_imp_iff, true_imp_iff, reduceCtorEq]
  split <;> simp

/-- A turn that an accepted event starts is open. -/
theorem openTurn_of_started (hvalid : validateDomainEventInTx p e = .ok ())
    (hfold : foldDomainEventInTx p e seq occurredAt = .ok p') (hkind : e.kind = .turnStarted)
    (hthread : e.threadId = some threadId) (hturn : e.turnId = some turnId) :
    OpenTurn p' threadId turnId := by
  obtain ⟨turn, thread, hturn', -, hnone⟩ := validate_turnStarted hvalid hkind
  rw [hturn, Option.some.injEq] at hturn'
  subst hturn'
  have hstep := turn_step hvalid hfold turnId.asStr
  have hact : turnAct turnId.asStr e = .start (some threadId.asStr) := by
    simp [turnAct, hturn, hkind, hthread]
  rw [hact, hnone] at hstep
  exact (Option.some.inj hstep).symm

/-! ## Accepted events -/

/-- An event of a thread that passes the checks can be folded. -/
theorem exists_fold (hkind : isMemoryKind e.kind = false) (hthread : e.threadId = some threadId)
    (hmem : threadId.asStr ∈ p.thread) : ∃ p', foldDomainEventInTx p e seq occurredAt = .ok p' := by
  have hnone : foldMemory p e occurredAt = none := by
    unfold foldMemory
    cases hk : e.kind <;> simp_all [isMemoryKind]
  unfold foldDomainEventInTx
  simp only [hnone, hthread]
  split
  · exact ⟨_, rfl⟩
  · exact ⟨_, rfl⟩
  · exact ⟨_, rfl⟩
  · unfold updateThreadActivity
    rw [thread_foldTurnScope, if_pos hmem]
    exact ⟨_, rfl⟩

/-- A new event that passes the checks and can be folded is appended. -/
theorem append_of_fold {s : DomainStore} (hnow : e.occurredAt.toNat ≤ i64Max)
    (hnew : existingDomainEvent s e = none)
    (hvalid : validateDomainEventInTx s.projections e = .ok ())
    (hfold : foldDomainEventInTx s.projections e (domainJournalMaxSeq s.journal + 1)
      e.occurredAt.toNat = .ok p) :
    appendDomainEvent s e = .ok (.appended (domainJournalMaxSeq s.journal + 1),
      { journal := s.journal ++ [durableRow (domainJournalMaxSeq s.journal + 1) e]
        projections := p
        marker := some (markerAfterAppend s e p (domainJournalMaxSeq s.journal + 1)) }) := by
  have hlen : ¬ journalPayloadMax < len e.payload.asBytes := Nat.not_lt.2 e.payload.len_le
  unfold appendDomainEvent
  rw [if_neg hlen, if_neg (Nat.not_lt.2 hnow), hnew]
  exact bind_eq_ok.2 ⟨(), hvalid, bind_eq_ok.2 ⟨p, hfold, rfl⟩⟩

/-- A new event of a thread that passes the checks is appended. -/
theorem append_of_validate {s : DomainStore} (hnow : e.occurredAt.toNat ≤ i64Max)
    (hnew : existingDomainEvent s e = none) (hkind : isMemoryKind e.kind = false)
    (hthread : e.threadId = some threadId) (hmem : threadId.asStr ∈ s.projections.thread)
    (hvalid : validateDomainEventInTx s.projections e = .ok ()) :
    ∃ s', appendDomainEvent s e = .ok (.appended (domainJournalMaxSeq s.journal + 1), s') ∧
      durableRow (domainJournalMaxSeq s.journal + 1) e ∈ s'.journal := by
  obtain ⟨p, hfold⟩ : ∃ p, foldDomainEventInTx s.projections e
      (domainJournalMaxSeq s.journal + 1) e.occurredAt.toNat = .ok p :=
    exists_fold hkind hthread hmem
  refine ⟨_, append_of_fold hnow hnew hvalid hfold, ?_⟩
  exact List.mem_append_right _ (List.mem_singleton_self _)

/-- The thread of an accepted event is there, unless the event creates it. -/
theorem mem_thread_of_validate (hvalid : validateDomainEventInTx p e = .ok ())
    (hkind : isMemoryKind e.kind = false) (hcreated : e.kind ≠ .threadCreated)
    (hthread : e.threadId = some threadId) : threadId.asStr ∈ p.thread := by
  obtain ⟨⟨⟩, -, h⟩ := bind_eq_ok.1 hvalid
  obtain ⟨v, -, h⟩ := bind_eq_ok.1 h
  rw [hkind, if_neg Bool.false_ne_true] at h
  split at h
  · cases h
  · rw [hthread, Option.isNone_some, Bool.and_false, if_neg Bool.false_ne_true] at h
    obtain ⟨t, ht, h⟩ := bind_eq_ok.1 h
    obtain ⟨⟨⟩, -, h⟩ := bind_eq_ok.1 h
    cases requireSome_eq_ok.1 ht
    exact (require_eq_ok.1 h).resolve_left hcreated

/-- The checks before those of the kind. -/
theorem validate_of_kind (hname : DomainEventKind.canonicalName e.kind.asStr = true)
    (hkind : isMemoryKind e.kind = false) (hother : isOther e.kind = true → e.turnId = none)
    (hthread : e.threadId = some threadId) (hmem : threadId.asStr ∈ p.thread)
    (hchecks : ∀ v, fromSlice e.payload.asBytes = some v → validateKind p e threadId v = .ok ()) :
    validateDomainEventInTx p e = .ok () := by
  obtain ⟨fields, hjson⟩ := e.payload.exists_object
  unfold validateDomainEventInTx
  refine bind_eq_ok.2 ⟨(), requireOk_eq_ok.2 ⟨_, if_pos hname⟩, ?_⟩
  refine bind_eq_ok.2 ⟨.object fields, requireSome_eq_ok.2 ?_, ?_⟩
  · rw [hjson]
    rfl
  · have hturn : (isOther e.kind && e.turnId.isSome) = false := by
      cases hk : isOther e.kind with
      | false => rfl
      | true => rw [hother hk]; rfl
    simp only [hkind, hturn, hthread, Option.isNone_some, Bool.and_false, Bool.false_eq_true, if_false]
    exact bind_eq_ok.2 ⟨threadId, rfl, bind_eq_ok.2 ⟨(), hchecks _ hjson,
      require_eq_ok.2 (.inr hmem)⟩⟩

omit [SerdeJson] in
/-- The checks of an open turn. -/
theorem requireTurn_of_open (h : OpenTurn p threadId turnId) (detail : Detail) :
    requireTurnOfThread p turnId threadId = .ok () ∧ requireActiveTurn p turnId detail = .ok () := by
  obtain ⟨row, hrow, hthread, hstate⟩ := openTurn_iff.1 h
  unfold requireTurnOfThread requireActiveTurn
  rw [require_eq_ok, require_eq_ok, hrow]
  simp [hthread, hstate]

/-- The kinds whose only check is that their turn is open. -/
def onlyOpenTurn : DomainEventKind → Bool
  | .messageDelta | .turnCompleted | .turnCancelled | .turnFailed => true
  | _ => false

/-- An event of these kinds passes in an open turn. -/
theorem validate_openTurn (hkind : onlyOpenTurn e.kind = true)
    (hthread : e.threadId = some threadId) (hturn : e.turnId = some turnId)
    (hmem : threadId.asStr ∈ p.thread) (hopen : OpenTurn p threadId turnId) :
    validateDomainEventInTx p e = .ok () := by
  refine validate_of_kind ?_ ?_ ?_ hthread hmem fun v _ => ?_
  · cases hk : e.kind <;> simp only [hk, onlyOpenTurn, Bool.false_eq_true] at hkind <;> decide
  · cases hk : e.kind <;> simp_all [onlyOpenTurn, isMemoryKind]
  · cases hk : e.kind <;> simp_all [onlyOpenTurn, isOther]
  · unfold validateKind
    rw [hturn]
    cases hk : e.kind <;> simp only [hk, onlyOpenTurn, Bool.false_eq_true] at hkind ⊢
    all_goals
      obtain ⟨hof, hactive⟩ := requireTurn_of_open hopen _
      exact bind_eq_ok.2 ⟨turnId, rfl, bind_eq_ok.2 ⟨(), hof, hactive⟩⟩

/-- A request passes in an open turn when it has a description and a kind. -/
theorem validate_permissionRequested {description kind : String}
    (hkind : e.kind = .permissionRequested) (hthread : e.threadId = some threadId)
    (hturn : e.turnId = some turnId) (hmem : threadId.asStr ∈ p.thread)
    (hopen : OpenTurn p threadId turnId) (hread : ∀ v, fromSlice e.payload.asBytes = some v →
      v.getStr "description" = some description ∧ v.getStr "permission_kind" = some kind)
    (hdescription : description ≠ "") (hvalid : kind ∈ ["execute", "read", "write", "network"]) :
    validateDomainEventInTx p e = .ok () := by
  refine validate_of_kind (by rw [hkind]; decide) (by rw [hkind]; rfl)
    (by rw [hkind]; intro h; cases h) hthread hmem fun v hv => ?_
  obtain ⟨hof, hactive⟩ :=
    requireTurn_of_open hopen "turn is terminal; requires active turn"
  obtain ⟨hdesc, hpermission⟩ := hread v hv
  have hreq {k s : String} (h : v.getStr k = some s) (hs : s ≠ "") : req v k = .ok s := by
    unfold req
    rw [h, requireSome_eq_ok, Option.filter_eq_some_iff]
    exact ⟨rfl, by simpa [String.isEmpty_iff] using hs⟩
  have hne : kind ≠ "" := by
    rintro rfl
    revert hvalid
    decide
  unfold validateKind
  rw [hkind, hturn]
  exact bind_eq_ok.2 ⟨turnId, rfl, bind_eq_ok.2 ⟨(), hof, bind_eq_ok.2 ⟨(), hactive,
    bind_eq_ok.2 ⟨_, hreq hdesc hdescription, bind_eq_ok.2 ⟨_, hreq hpermission hne,
      require_eq_ok.2 hvalid⟩⟩⟩⟩⟩

/-- A custom event passes when its name is canonical and it has no turn. -/
theorem validate_other {name : String} (hkind : e.kind = .other name)
    (hname : DomainEventKind.canonicalName name = true) (hthread : e.threadId = some threadId)
    (hturn : e.turnId = none) (hmem : threadId.asStr ∈ p.thread) :
    validateDomainEventInTx p e = .ok () := by
  refine validate_of_kind (by rw [hkind]; exact hname) (by rw [hkind]; rfl) (fun _ => hturn) hthread
    hmem fun v _ => ?_
  unfold validateKind
  rw [hkind]

end Altior.Storage
