import Altior.Storage.MemoryIndex

/-!
# What a terminal event says about delivery

The `delivery` column of a turn starts as `absent` and is written once more, by
the fold of `turn.completed`.  The folds of the other two terminal kinds leave it
alone, so the column repeats what the terminal event said exactly as long as those
events say `absent`, before and after every rebuild.
-/

namespace Altior.Storage

open Domain Lib Lib.Lifecycle

section

variable [SerdeJson]

open SerdeJson

/-! ## Terminal rows of the journal -/

/-- The row is the terminal event of the turn. -/
def EndsTurn (turnId : String) (r : DomainJournalRow) : Prop :=
  r.kind ∈ ["turn.completed", "turn.cancelled", "turn.failed"] ∧ r.turnId = some turnId

/-- The delivery a terminal row reports: completion implies a confirmed one, the
other kinds say it in their payload. -/
def reportedDelivery (r : DomainJournalRow) : Option String :=
  if r.kind = "turn.completed" then some "confirmed"
  else extractJsonString r.payload "delivery"

/-- The delivery the fold of a terminal row leaves in the column. -/
def foldedDelivery (r : DomainJournalRow) : String :=
  if r.kind = "turn.completed" then "confirmed" else "absent"

/-- Every terminal turn has a terminal row, and its delivery column holds what the
row reports. -/
structure DeliveryTold (s : DomainStore) : Prop where
  ended : ∀ (turnId : String) (row : TurnRow), s.projections.turn[turnId]? = some row →
    row.state ≠ "active" → ∃ r ∈ s.journal, EndsTurn turnId r
  told : ∀ r ∈ s.journal, ∀ (turnId : String) (row : TurnRow), EndsTurn turnId r →
    s.projections.turn[turnId]? = some row → ∀ d, reportedDelivery r = some d → row.delivery = d

/-! ## One event -/

/-- What an accepted event does to the row of one turn. -/
inductive TurnRowStep (turnId : String) (e : DomainEvent) : Option TurnRow → Option TurnRow → Prop
  | same (h : closesTurn turnId e = false) (row? : Option TurnRow) : TurnRowStep turnId e row? row?
  | start {row : TurnRow} (h : closesTurn turnId e = false) (hstate : row.state = "active")
      (hdelivery : row.delivery = "absent") : TurnRowStep turnId e none (some row)
  | use {row row' : TurnRow} (h : closesTurn turnId e = false) (hstate : row.state = "active")
      (hstate' : row'.state = "active") (hdelivery : row'.delivery = row.delivery) :
      TurnRowStep turnId e (some row) (some row')
  | close {row row' : TurnRow} (h : closesTurn turnId e = true) (hstate : row.state = "active")
      (hstate' : row'.state ≠ "active")
      (hdelivery : row'.delivery = if e.kind = .turnCompleted then "confirmed" else row.delivery) :
      TurnRowStep turnId e (some row) (some row')

variable {e : DomainEvent} {p : Projections} {r : DomainJournalRow}

/-- Every accepted event is a step of every turn row. -/
theorem turnRow_step {p' : Projections} {seq at_ : Int}
    (hvalid : validateDomainEventInTx p e = .ok ())
    (hfold : foldDomainEventInTx p e seq at_ = .ok p') (turnId : String) :
    TurnRowStep turnId e p.turn[turnId]? p'.turn[turnId]? := by
  by_cases hskip : turnAct turnId e = .skip
  · rw [turn_of_skip hfold hskip]
    refine .same ?_ _
    rw [← closes_turnAct, hskip]
    rfl
  · by_cases hstart : e.kind = .turnStarted
    · obtain ⟨turn, thread, hturn, hthread, hnone⟩ := validate_turnStarted hvalid hstart
      have heq : turn.asStr = turnId := by
        by_contra hne
        exact hskip (by simp [turnAct, hturn, hne])
      subst heq
      rw [(foldDomainEventInTx_turnScope hfold hthread).1, hnone]
      have hmem : turn.asStr ∉ p.turn := Table.not_mem_iff.2 hnone
      simp only [foldTurnScope, foldTurnStarted, hstart, hturn, hmem, if_false,
        Projections.insertTurn, Table.getElem?_insert_same]
      exact .start (by simp [closesTurn, hstart, terminalState]) rfl rfl
    · have hneeds : needsActiveTurn e.kind = true := by
        by_contra hno
        refine hskip ?_
        unfold turnAct
        cases hk : e.kind <;> simp_all [needsActiveTurn]
      obtain ⟨turn, thread, row, hturn, hthread, hrow, -, hactive⟩ :=
        validate_needsActiveTurn hvalid hneeds
      have heq : turn.asStr = turnId := by
        by_contra hne
        exact hskip (by simp [turnAct, hturn, hne])
      subst heq
      rw [(foldDomainEventInTx_turnScope hfold hthread).1, hrow]
      cases hk : e.kind <;> simp only [hk, needsActiveTurn, Bool.false_eq_true] at hneeds
      case turnCompleted | turnCancelled | turnFailed =>
        simp only [foldTurnScope, hk, hturn, Projections.updateTurn, Table.getElem?_update_same, hrow,
          Option.map_some]
        refine .close (by simp [closesTurn, hk, hturn, terminalState]) hactive ?_ ?_
        · simp [TurnRow.close]
        · simp [TurnRow.close, hk]
      case messageDelta =>
        simp only [foldTurnScope, hk, hturn, Projections.updateTurn, Table.getElem?_update_same, hrow,
          Option.map_some]
        exact .use (by simp [closesTurn, hk, terminalState]) hactive hactive rfl
      all_goals
        simp only [foldTurnScope, hk, hturn, foldPermissionRequested_turn, foldPermissionDecided_turn,
          hrow]
        exact .same (by simp [closesTurn, hk, terminalState]) _

/-! ## Events and their rows -/

/-- The row is the durable form of the event, as far as a turn is concerned. -/
structure Describes (r : DomainJournalRow) (e : DomainEvent) : Prop where
  kind : r.kind = e.kind.asStr
  turnId : r.turnId = e.turnId.map Id.asStr

theorem describes_durableRow (seq : Int) (e : DomainEvent) : Describes (durableRow seq e) e :=
  ⟨rfl, rfl⟩

theorem describes_eventOfRow (h : eventOfRow r = .ok e) : Describes r e := by
  obtain ⟨hkind, hturn, -⟩ := eventOfRow_eq_ok h
  exact ⟨(DomainEventKind.asStr_of_tryFromStr hkind).symm, hturn.symm⟩

/-- A custom event in a turn is refused. -/
theorem not_isOther_of_turn (h : validateDomainEventInTx p e = .ok ()) {turn : TurnId}
    (hturn : e.turnId = some turn) : isOther e.kind = false := by
  cases hother : isOther e.kind with
  | false => rfl
  | true =>
    obtain ⟨⟨⟩, -, h⟩ := bind_eq_ok.1 h
    obtain ⟨v, -, h⟩ := bind_eq_ok.1 h
    have hmem : isMemoryKind e.kind = false := by
      cases hk : e.kind <;> simp_all [isMemoryKind, isOther]
    simp [hmem, hother, hturn] at h

/-- The row of an accepted event ends a turn exactly when the event does. -/
theorem endsTurn_iff (hvalid : validateDomainEventInTx p e = .ok ()) (hr : Describes r e)
    {turnId : String} : EndsTurn turnId r ↔ closesTurn turnId e = true := by
  unfold EndsTurn closesTurn
  rw [hr.kind, hr.turnId]
  cases hturn : e.turnId with
  | none => simp
  | some turn =>
    have hother := not_isOther_of_turn hvalid hturn
    cases hk : e.kind <;>
      simp_all [isOther, terminalState, DomainEventKind.asStr]

theorem completed_iff {turnId : String} (hr : Describes r e)
    (hcloses : closesTurn turnId e = true) :
    r.kind = "turn.completed" ↔ e.kind = .turnCompleted := by
  rw [hr.kind]
  unfold closesTurn at hcloses
  cases hk : e.kind <;> simp_all [terminalState, DomainEventKind.asStr]

/-! ## Folding a journal -/

/-- The turn table as the terminal rows of a journal leave it. -/
structure TurnEnds (rows : List DomainJournalRow) (p : Projections) : Prop where
  opened : ∀ (turnId : String) (row : TurnRow), p.turn[turnId]? = some row →
    row.state = "active" → row.delivery = "absent"
  ended : ∀ (turnId : String) (row : TurnRow), p.turn[turnId]? = some row →
    row.state ≠ "active" → ∃ r ∈ rows, EndsTurn turnId r
  folded : ∀ r ∈ rows, ∀ turnId, EndsTurn turnId r →
    ∃ row, p.turn[turnId]? = some row ∧ row.state ≠ "active" ∧ row.delivery = foldedDelivery r

theorem turnEnds_of_empty (h : p.turn = ∅) : TurnEnds [] p where
  opened turnId row hrow := by simp [h] at hrow
  ended turnId row hrow := by simp [h] at hrow
  folded r hr := by cases hr

/-- An accepted event and its row keep the table in step with the journal. -/
theorem turnEnds_step {rows : List DomainJournalRow} {p' : Projections} {seq at_ : Int}
    (h : TurnEnds rows p) (hvalid : validateDomainEventInTx p e = .ok ())
    (hfold : foldDomainEventInTx p e seq at_ = .ok p') (hr : Describes r e) :
    TurnEnds (rows ++ [r]) p' := by
  have hlast : r ∈ rows ++ [r] := List.mem_append_right _ (List.mem_singleton_self r)
  refine ⟨fun turnId row hrow hstate => ?_, fun turnId row hrow hstate => ?_,
    fun r' hr' turnId hends => ?_⟩
  · have hstep := turnRow_step hvalid hfold turnId
    rw [hrow] at hstep
    generalize hold : p.turn[turnId]? = old at hstep
    cases hstep with
    | same hcloses => exact h.opened turnId row hold hstate
    | start hcloses _ hdelivery => exact hdelivery
    | use hcloses hactive _ hdelivery =>
      rw [hdelivery]
      exact h.opened turnId _ hold hactive
    | close hcloses _ hclosed => exact absurd hstate hclosed
  · have hstep := turnRow_step hvalid hfold turnId
    rw [hrow] at hstep
    generalize hold : p.turn[turnId]? = old at hstep
    cases hstep with
    | same hcloses =>
      obtain ⟨r', hr', hends⟩ := h.ended turnId row hold hstate
      exact ⟨r', List.mem_append_left _ hr', hends⟩
    | start hcloses hactive => exact absurd hactive hstate
    | use hcloses _ hactive => exact absurd hactive hstate
    | close hcloses => exact ⟨r, hlast, (endsTurn_iff hvalid hr).2 hcloses⟩
  · have hstep := turnRow_step hvalid hfold turnId
    rcases List.mem_append.1 hr' with hr' | hr'
    · -- a turn that has ended is not touched again
      obtain ⟨row, hrow, hclosed, hdelivery⟩ := h.folded r' hr' turnId hends
      rw [hrow] at hstep
      generalize hnew : p'.turn[turnId]? = new at hstep
      cases hstep with
      | same hcloses => exact ⟨row, rfl, hclosed, hdelivery⟩
      | use hcloses hactive => exact absurd hactive hclosed
      | close hcloses hactive => exact absurd hactive hclosed
    · rw [List.mem_singleton] at hr'
      subst hr'
      have hcloses := (endsTurn_iff hvalid hr).1 hends
      generalize hold : p.turn[turnId]? = old at hstep
      generalize hnew : p'.turn[turnId]? = new at hstep
      cases hstep with
      | same hnot =>
        rw [hnot] at hcloses
        cases hcloses
      | start hnot =>
        rw [hnot] at hcloses
        cases hcloses
      | use hnot =>
        rw [hnot] at hcloses
        cases hcloses
      | close _ hactive hclosed hdelivery =>
        refine ⟨_, rfl, hclosed, ?_⟩
        rw [hdelivery, h.opened turnId _ hold hactive]
        unfold foldedDelivery
        simp only [completed_iff hr hcloses]

/-- A journal that replays leaves the table in step with it. -/
theorem turnEnds_replay {rows rows' : List DomainJournalRow} {p' : Projections}
    (h : TurnEnds rows p) (hreplay : replay replayRow p rows' = .ok p') :
    TurnEnds (rows ++ rows') p' := by
  induction rows' generalizing rows p with
  | nil =>
    cases hreplay
    rw [List.append_nil]
    exact h
  | cons r rows' ih =>
    unfold replay at hreplay
    rw [List.foldlM_cons] at hreplay
    obtain ⟨q, hrow, hreplay⟩ := bind_eq_ok.1 hreplay
    obtain ⟨e, he, hvalid, hfold⟩ := replayRow_eq_ok hrow
    have hq := turnEnds_step h hvalid hfold (describes_eventOfRow he)
    have hall := ih hq hreplay
    rw [List.append_assoc] at hall
    exact hall

/-! ## Runs of appends and rebuilds -/

theorem turnEnds_run (inputs : List ProjectionInput) :
    TurnEnds (projectionMachine.run inputs).journal (projectionMachine.run inputs).projections := by
  refine projectionMachine.invariant (I := fun s => TurnEnds s.journal s.projections) ?_
    (turnEnds_of_empty rfl) inputs
  intro s i h
  cases i with
  | append e =>
    change TurnEnds (storeStep s (.append e)).journal (storeStep s (.append e)).projections
    rcases storeStep_append_cases s e with ⟨-, hsame⟩ | ⟨-, seq, hvalid, hfold, hjournal⟩
    · rw [hsame]
      exact h
    · rw [hjournal]
      exact turnEnds_step h hvalid hfold (describes_durableRow seq e)
  | rebuild =>
    change TurnEnds (projectionStep s .rebuild).journal (projectionStep s .rebuild).projections
    rcases projectionStep_rebuild_cases s with hsame | ⟨p, hreplay, hproj, hjournal⟩
    · rw [hsame]
      exact h
    · rw [hproj, hjournal]
      have hp := turnEnds_replay (turnEnds_of_empty rfl) hreplay
      exact ⟨hp.opened, hp.ended, hp.folded⟩

/-- A failed or cancelled turn reports no delivery other than `absent`. -/
def ReportsAbsent (r : DomainJournalRow) : Prop :=
  r.kind = "turn.failed" ∨ r.kind = "turn.cancelled" → r.turnId.isSome →
    ∀ d, extractJsonString r.payload "delivery" = some d → d = "absent"

/-- The column repeats the terminal rows exactly when these report `absent`
wherever the fold does not look. -/
theorem deliveryTold_iff {s : DomainStore} (h : TurnEnds s.journal s.projections) :
    DeliveryTold s ↔ ∀ r ∈ s.journal, ReportsAbsent r := by
  constructor
  · intro htold r hr hkind hturn d hd
    obtain ⟨turnId, hid⟩ := Option.isSome_iff_exists.1 hturn
    have hne : r.kind ≠ "turn.completed" := by
      rcases hkind with hk | hk <;> rw [hk] <;> decide
    have hends : EndsTurn turnId r := ⟨by rcases hkind with hk | hk <;> simp [hk], hid⟩
    obtain ⟨row, hrow, -, hdelivery⟩ := h.folded r hr turnId hends
    have hcolumn := htold.told r hr turnId row hends hrow d (by rw [reportedDelivery, if_neg hne, hd])
    rw [← hcolumn, hdelivery, foldedDelivery, if_neg hne]
  · intro habsent
    refine ⟨h.ended, fun r hr turnId row hends hrow d hd => ?_⟩
    obtain ⟨row', hrow', -, hdelivery⟩ := h.folded r hr turnId hends
    rw [hrow, Option.some.injEq] at hrow'
    subst hrow'
    rw [hdelivery]
    unfold reportedDelivery at hd
    unfold foldedDelivery
    split at hd
    · rename_i hcompleted
      rw [if_pos hcompleted]
      exact Option.some.inj hd
    · rename_i hne
      rw [if_neg hne]
      have hkind : r.kind = "turn.failed" ∨ r.kind = "turn.cancelled" := by
        have hmem := hends.1
        simp only [List.mem_cons, List.not_mem_nil, or_false] at hmem
        rcases hmem with hk | hk | hk
        · exact absurd hk hne
        · exact .inr hk
        · exact .inl hk
      exact (habsent r hr hkind (by rw [hends.2]; rfl) d hd).symm

/-- The event says nothing of a delivery that the fold would have to write. -/
def SaysAbsent (e : DomainEvent) : Prop :=
  e.kind = .turnFailed ∨ e.kind = .turnCancelled →
    ∀ d, extractJsonString e.payload.asBytes "delivery" = some d → d = "absent"

/-- The input, should the journal accept it as an event, says `absent`. -/
def InputSaysAbsent (s : DomainStore) : ProjectionInput → Prop
  | .append e => Accepts s e → SaysAbsent e
  | .rebuild => True

/-- The row of an accepted event reports what the event says. -/
theorem reportsAbsent_durableRow {seq : Int} (hvalid : validateDomainEventInTx p e = .ok ()) :
    ReportsAbsent (durableRow seq e) ↔ SaysAbsent e := by
  have hends : ∀ k, e.kind = k → needsActiveTurn k = true → (e.turnId.map Id.asStr).isSome := by
    rintro k rfl hneeds
    obtain ⟨turn, -, -, hturn, -⟩ := validate_needsActiveTurn hvalid hneeds
    rw [hturn]
    rfl
  constructor
  · intro h hkind d hd
    rcases hkind with hk | hk
    · exact h (.inl (congrArg DomainEventKind.asStr hk)) (hends _ hk rfl) d hd
    · exact h (.inr (congrArg DomainEventKind.asStr hk)) (hends _ hk rfl) d hd
  · intro h hkind hturn d hd
    refine h ?_ d hd
    change (e.turnId.map Id.asStr).isSome at hturn
    rw [Option.isSome_map] at hturn
    obtain ⟨turn, hid⟩ := Option.isSome_iff_exists.1 hturn
    have hother := not_isOther_of_turn hvalid hid
    change e.kind.asStr = "turn.failed" ∨ e.kind.asStr = "turn.cancelled" at hkind
    cases hk : e.kind <;> simp_all [isOther, DomainEventKind.asStr]

/-- **Turn delivery is what the terminal event said**, in every state of a run of
appends and rebuilds, exactly when no accepted failure or cancellation says
anything but `absent`. -/
theorem delivery_told_iff (inputs : List ProjectionInput) :
    (∀ prior, prior <+: inputs → DeliveryTold (projectionMachine.run prior)) ↔
      projectionMachine.Meets InputSaysAbsent .empty inputs := by
  have hrows : ∀ prior, DeliveryTold (projectionMachine.run prior) ↔
      ∀ r ∈ (projectionMachine.run prior).journal, ReportsAbsent r := fun prior =>
    deliveryTold_iff (turnEnds_run prior)
  simp only [hrows]
  refine projectionMachine.prefixes_iff_meets (I := fun s => ∀ r ∈ s.journal, ReportsAbsent r)
    (fun s i h => ?_) (fun r hr => by cases hr)
  cases i with
  | append e =>
    change (∀ r ∈ (storeStep s (.append e)).journal, ReportsAbsent r) ↔ (Accepts s e → SaysAbsent e)
    rcases storeStep_append_cases s e with ⟨hnot, hsame⟩ | ⟨haccept, seq, hvalid, -, hjournal⟩
    · rw [hsame]
      exact iff_of_true h fun haccept => absurd haccept hnot
    · rw [hjournal, List.forall_mem_append, List.forall_mem_singleton,
        reportsAbsent_durableRow hvalid]
      exact ⟨fun h' _ => h'.2, fun h' => ⟨h, h' haccept⟩⟩
  | rebuild =>
    change (∀ r ∈ (projectionStep s .rebuild).journal, ReportsAbsent r) ↔ True
    rcases projectionStep_rebuild_cases s with hsame | ⟨p, -, -, hjournal⟩
    · rw [hsame]
      exact iff_of_true h trivial
    · rw [hjournal]
      exact iff_of_true h trivial

end

/-! ## Samples -/

section Sample

attribute [local instance] flatJson

/-- A failure whose prompt may or may not have arrived. -/
def sampleFailure : DomainEvent :=
  sampleEvent ⟨"evt_fixture000000008", by decide⟩ sampleThreadId sampleTurnId .turnFailed
    [("delivery", .string "indeterminate")] (by decide)

/-- The column of a turn that failed with indeterminate delivery says `absent`. -/
theorem indeterminate_failure_untold :
    ¬ ∀ inputs : List ProjectionInput, DeliveryTold (projectionMachine.run inputs) := by
  intro h
  have htold := (h ((sampleTurn ++ [sampleFailure]).map .append)).told
    (durableRow 3 sampleFailure) (by decide) sampleTurnId.asStr
  have hcolumn : (((projectionMachine.run
      ((sampleTurn ++ [sampleFailure]).map .append)).projections.turn[sampleTurnId.asStr]?).map
        TurnRow.delivery) = some "absent" := by
    decide
  obtain ⟨row, hrow, hdelivery⟩ := Option.map_eq_some_iff.1 hcolumn
  have hsaid := htold row ⟨by decide, rfl⟩ hrow "indeterminate" (by decide)
  rw [hsaid] at hdelivery
  revert hdelivery
  decide

end Sample

end Altior.Storage
