import Altior.Storage.Readable

/-!
# Keys and times

The columns the listings go by: in every store a run reaches, the keys of the tables are
identifiers and the times fit the signed column they are kept in.
-/

namespace Altior.Storage

open Domain Lib

/-! ## One table -/

/-- A time the column can hold. -/
def InColumn (t : Int) : Prop := 0 ≤ t ∧ t ≤ i64Max

/-- The keys are identifiers and the times fit their column. -/
structure Admitted {α : Type} (pre : String) (time : α → Int) (t : Table String α) : Prop where
  key : ∀ (id : String) (row : α), t[id]? = some row → ∃ key : Id pre, key.asStr = id
  time : ∀ (id : String) (row : α), t[id]? = some row → InColumn (time row)

section Table

variable {α : Type} {pre : String} {time : α → Int} {t : Table String α}

theorem admitted_empty (pre : String) (time : α → Int) :
    Admitted pre time (∅ : Table String α) where
  key id row h := by simp at h
  time id row h := by simp at h

theorem Admitted.insert (h : Admitted pre time t) (id : Id pre) {row : α}
    (hrow : InColumn (time row)) : Admitted pre time (t.insert id.asStr row) where
  key k row' hk := by
    rw [Table.getElem?_insert_eq] at hk
    split at hk
    · exact ⟨id, ‹_›⟩
    · exact h.key k row' hk
  time k row' hk := by
    rw [Table.getElem?_insert_eq] at hk
    split at hk
    · cases hk
      exact hrow
    · exact h.time k row' hk

/-- A row that is changed keeps its time or gets one that fits. -/
theorem Admitted.update (h : Admitted pre time t) (id : String) {f : α → α}
    (hf : ∀ row, time (f row) = time row ∨ InColumn (time (f row))) :
    Admitted pre time (t.update id f) where
  key k row' hk := by
    rw [Table.getElem?_update] at hk
    split at hk
    · obtain ⟨row, hrow, -⟩ := Option.map_eq_some_iff.1 hk
      exact h.key k row hrow
    · exact h.key k row' hk
  time k row' hk := by
    rw [Table.getElem?_update] at hk
    split at hk
    · obtain ⟨row, hrow, rfl⟩ := Option.map_eq_some_iff.1 hk
      rcases hf row with hsame | hfits
      · rw [hsame]
        exact h.time k row hrow
      · exact hfits
    · exact h.time k row' hk

/-- A row that is there may be replaced by one whose time fits. -/
theorem Admitted.replace (h : Admitted pre time t) {id : String} {row row' : α}
    (hid : t[id]? = some row) (hrow : InColumn (time row')) :
    Admitted pre time (t.insert id row') := by
  obtain ⟨key, rfl⟩ := h.key id row hid
  exact h.insert key hrow

end Table

/-- What a turn row says besides parses: the operation is an identifier and the end a time. -/
structure TurnRow.Parses (row : TurnRow) : Prop where
  operation : ∀ op, row.operationId = some op → ∃ id : OperationId, id.asStr = op
  ended : ∀ t, row.endedAt = some t → InColumn t

/-- The turn rows parse. -/
def TurnsParse (t : Table String TurnRow) : Prop :=
  ∀ (id : String) (row : TurnRow), t[id]? = some row → row.Parses

theorem turnsParse_empty : TurnsParse ∅ := fun id row h => by simp at h

theorem TurnsParse.insert {t : Table String TurnRow} (h : TurnsParse t) (id : String) {row : TurnRow}
    (hrow : row.Parses) : TurnsParse (t.insert id row) := by
  intro k row' hk
  rw [Table.getElem?_insert_eq] at hk
  split at hk
  · cases hk
    exact hrow
  · exact h k row' hk

theorem TurnsParse.update {t : Table String TurnRow} (h : TurnsParse t) (id : String)
    {f : TurnRow → TurnRow} (hf : ∀ row, row.Parses → (f row).Parses) : TurnsParse (t.update id f) := by
  intro k row' hk
  rw [Table.getElem?_update] at hk
  split at hk
  · obtain ⟨row, hrow, rfl⟩ := Option.map_eq_some_iff.1 hk
    exact hf row (h k row hrow)
  · exact h k row' hk

/-! ## The projections -/

/-- The keys and times of the four listed tables, and the other texts of a turn. -/
structure ColumnsAdmitted (p : Projections) : Prop where
  thread : Admitted "thr_" ThreadRow.updatedAt p.thread
  turn : Admitted "trn_" TurnRow.startedAt p.turn
  turnRows : TurnsParse p.turn
  permission : Admitted "evt_" PermissionRow.requestedAt p.permission
  memory : Admitted "mem_" MemoryRow.updatedAt p.memory

theorem columnsAdmitted_empty : ColumnsAdmitted .empty :=
  ⟨admitted_empty _ _, admitted_empty _ _, turnsParse_empty, admitted_empty _ _, admitted_empty _ _⟩

variable {at_ seq : Int} {p p' : Projections}

theorem admitted_activity {thread : String} {eventId kind : String} (hat : InColumn at_)
    (h : updateThreadActivity p thread seq eventId kind at_ = .ok p')
    (hp : Admitted "thr_" ThreadRow.updatedAt p.thread) :
    Admitted "thr_" ThreadRow.updatedAt p'.thread := by
  unfold updateThreadActivity at h
  split at h
  · cases h
    exact hp.update thread fun _ => .inr hat
  · cases h

section

variable [SerdeJson]

open SerdeJson

variable {e : DomainEvent} {s : Store}

/-- The thread rows after an event: the one it is about has been touched. -/
theorem admitted_thread_step (hat : InColumn at_)
    (hfold : foldDomainEventInTx p e seq at_ = .ok p')
    (h : Admitted "thr_" ThreadRow.updatedAt p.thread) :
    Admitted "thr_" ThreadRow.updatedAt p'.thread := by
  unfold foldDomainEventInTx at hfold
  cases hmem : foldMemory p e at_ with
  | some r =>
    cases r with
    | error err => simp [hmem] at hfold
    | ok q =>
      rw [← thread_foldMemory hmem] at h
      simp only [hmem] at hfold
      split at hfold
      · exact admitted_activity hat hfold h
      · cases hfold
        exact h
  | none =>
    simp only [hmem] at hfold
    split at hfold
    · cases hfold
      exact h
    · rename_i threadId hthread
      split at hfold
      · cases hfold
        unfold foldThreadCreated
        split
        · exact h.update _ fun _ => .inr hat
        · exact h.insert threadId hat
      · cases hfold
        exact h.update _ fun _ => .inr hat
      · cases hfold
        exact h.update _ fun _ => .inr hat
      · rw [← thread_foldTurnScope p e threadId.asStr at_] at h
        exact admitted_activity hat hfold h

/-- The turn rows after an event: a turn keeps the time it started at. -/
theorem admitted_turn_step (hat : InColumn at_) (hfold : foldDomainEventInTx p e seq at_ = .ok p')
    (h : Admitted "trn_" TurnRow.startedAt p.turn) : Admitted "trn_" TurnRow.startedAt p'.turn := by
  cases hthread : e.threadId with
  | none =>
    rw [(foldDomainEventInTx_noThread hfold hthread).1]
    exact h
  | some thread =>
    rw [(foldDomainEventInTx_turnScope hfold hthread).1]
    unfold foldTurnScope
    split
    · rename_i turnId _ _
      unfold foldTurnStarted
      split
      · exact h.update _ fun _ => .inl rfl
      · exact h.insert turnId hat
    · exact h.update _ fun _ => .inl rfl
    · exact h.update _ fun _ => .inl rfl
    · exact h.update _ fun _ => .inl rfl
    · exact h.update _ fun _ => .inl rfl
    · rw [foldPermissionRequested_turn]
      exact h
    · rw [foldPermissionDecided_turn]
      exact h
    · exact h

/-- A started turn has the operation of its event, and a turn ends at the time of one. -/
theorem turnsParse_step (hat : InColumn at_) (hfold : foldDomainEventInTx p e seq at_ = .ok p')
    (h : TurnsParse p.turn) : TurnsParse p'.turn := by
  have hclose : ∀ (row : TurnRow) (state : String), row.Parses → (row.close state at_).Parses := by
    refine fun row state hrow => ⟨hrow.operation, fun t ht => ?_⟩
    cases ht
    exact hat
  cases hthread : e.threadId with
  | none =>
    rw [(foldDomainEventInTx_noThread hfold hthread).1]
    exact h
  | some thread =>
    rw [(foldDomainEventInTx_turnScope hfold hthread).1]
    unfold foldTurnScope
    split
    · unfold foldTurnStarted
      split
      · exact h.update _ fun _ hrow => ⟨hrow.operation, hrow.ended⟩
      · refine h.insert _ ⟨fun op hop => ?_, nofun⟩
        obtain ⟨id, -, hid⟩ := Option.map_eq_some_iff.1 hop
        exact ⟨id, hid⟩
    · refine h.update _ fun row hrow => ?_
      have hrow := hclose row "completed" hrow
      exact ⟨hrow.operation, hrow.ended⟩
    · exact h.update _ fun row => hclose row "cancelled"
    · exact h.update _ fun row => hclose row "failed"
    · exact h.update _ fun _ hrow => ⟨hrow.operation, hrow.ended⟩
    · rw [foldPermissionRequested_turn]
      exact h
    · rw [foldPermissionDecided_turn]
      exact h
    · exact h

theorem admitted_permission_step (hat : InColumn at_)
    (hvalid : validateDomainEventInTx p e = .ok ())
    (hfold : foldDomainEventInTx p e seq at_ = .ok p')
    (h : Admitted "evt_" PermissionRow.requestedAt p.permission) :
    Admitted "evt_" PermissionRow.requestedAt p'.permission := by
  cases permissionTable_step hvalid hfold with
  | same hnot hsame =>
    rw [hsame]
    exact h
  | request hcreates turn thread kind hkind hinsert =>
    rw [hinsert]
    exact h.insert e.eventId hat
  | decide hnot hrow decision hdecision hinsert =>
    have hsame := h.time _ _ hrow
    rw [hinsert]
    exact h.replace hrow hsame

theorem admitted_memory_step (hat : InColumn at_) (hvalid : validateDomainEventInTx p e = .ok ())
    (hfold : foldDomainEventInTx p e seq at_ = .ok p')
    (h : Admitted "mem_" MemoryRow.updatedAt p.memory) :
    Admitted "mem_" MemoryRow.updatedAt p'.memory := by
  cases memory_step hvalid hfold with
  | same hkind hsame =>
    rw [hsame.memory]
    exact h
  | create hv hdraft hcreate hnew hmemory hfts =>
    obtain ⟨-, -, -, ⟨id, hid⟩, -⟩ :=
      validate_memory hvalid (by cases hcreate <;> simp_all [isMemoryKind])
    rw [hmemory, ← Id.asStr_of_parse hid]
    refine h.insert id ?_
    cases hcreate <;> exact hat
  | move hrow hmove hmemory hfts =>
    rw [hmemory]
    refine h.replace hrow ?_
    cases hmove <;> exact hat

/-- An accepted event keeps the keys and times. -/
theorem ColumnsAdmitted.step (h : ColumnsAdmitted p) (hat : InColumn at_)
    (hvalid : validateDomainEventInTx p e = .ok ())
    (hfold : foldDomainEventInTx p e seq at_ = .ok p') : ColumnsAdmitted p' where
  thread := admitted_thread_step hat hfold h.thread
  turn := admitted_turn_step hat hfold h.turn
  turnRows := turnsParse_step hat hfold h.turnRows
  permission := admitted_permission_step hat hvalid hfold h.permission
  memory := admitted_memory_step hat hvalid hfold h.memory

/-! ## Runs -/

/-- What can happen to the content of a store. -/
inductive ContentInput
  | append (e : DomainEvent)
  | reopen
  | rebuild
  | recordIntent (checkpoint : RuntimeCheckpoint)
  | settle (id : RuntimeCheckpointId) (state : CheckpointState)
      (remoteRequestId diagnosticSummary : Option String) (settledAt : UInt64)

/-- One input.  A refused call leaves the store as it was. -/
def contentStep (s : Store) : ContentInput → Store
  | .append e =>
    match s.appendDomainEvent e with
    | .ok (_, s') => s'
    | .error _ => s
  | .reopen => s.openInner.2
  | .rebuild =>
    match rebuildDomainProjections s.domain with
    | .ok (_, domain) => { s with domain := domain }
    | .error _ => s
  | .recordIntent checkpoint => (s.recordRuntimeIntent checkpoint).toOption.getD s
  | .settle id state remoteRequestId diagnosticSummary settledAt =>
    (s.settleRuntimeCheckpoint id state remoteRequestId diagnosticSummary settledAt).toOption.getD s

/-- The content of a store under any sequence of calls. -/
def contentMachine : Machine Store ContentInput := ⟨.empty, contentStep⟩

theorem contentStep_append {o : AppendOutcome} {d : DomainStore}
    (h : appendDomainEvent s.domain e = .ok (o, d)) : (contentStep s (.append e)).domain = d := by
  simp only [contentStep, Store.appendDomainEvent, h]

/-- What appends and rebuilds keep of the journal and the projections is kept by every
call. -/
theorem contentStep_keeps {I : DomainStore → Prop}
    (happend : ∀ s s' e o, appendDomainEvent s e = .ok (o, s') → I s → I s')
    (hrebuild : ∀ s s' n, rebuildDomainProjections s = .ok (n, s') → I s → I s') (s : Store)
    (i : ContentInput) (h : I s.domain) : I (contentStep s i).domain := by
  cases i with
  | append e =>
    simp only [contentStep]
    split
    · rename_i o s' hdone
      obtain ⟨domain, hdomain, rfl⟩ := Store.appendDomainEvent_cases hdone
      exact happend _ _ _ _ hdomain h
    · exact h
  | reopen =>
    have hensure : I (ensureDomainProjectionsCurrent s.domain).2 := by
      unfold ensureDomainProjectionsCurrent
      split
      · exact h
      · exact h
      · split
        · exact h
        · exact hrebuild _ _ _ ‹_› h
    simp only [contentStep, Store.openInner]
    revert hensure
    rcases ensureDomainProjectionsCurrent s.domain with ⟨_ | _, domain⟩
    · exact fun h => h
    · exact fun h => h
  | rebuild =>
    simp only [contentStep]
    split
    · exact hrebuild _ _ _ ‹_› h
    · exact h
  | recordIntent checkpoint =>
    simp only [contentStep]
    cases hrecord : s.recordRuntimeIntent checkpoint with
    | error e => exact h
    | ok s' => exact (Store.local_recordRuntimeIntent hrecord).domain ▸ h
  | settle id state remoteRequestId diagnosticSummary settledAt =>
    simp only [contentStep]
    cases hsettle : s.settleRuntimeCheckpoint id state remoteRequestId diagnosticSummary
        settledAt with
    | error e => exact h
    | ok s' => exact (Store.local_settleRuntimeCheckpoint hsettle).domain ▸ h

/-- What holds of the journal and the projections of a store. -/
structure DomainAdmitted (s : DomainStore) : Prop where
  journal : ∀ row ∈ s.journal, InColumn row.occurredAt
  columns : ColumnsAdmitted s.projections
  indexed : s.projections.Indexed

/-- What holds of the content of a store. -/
structure ContentAdmitted (s : Store) : Prop where
  domain : DomainAdmitted s.domain
  checkpoint : ∀ (id : RuntimeCheckpointId) row, s.checkpoint[id]? = some row →
    row.id = id ∧ row.createdAt.toNat ≤ i64Max

theorem DomainAdmitted.append {s s' : DomainStore} {o : AppendOutcome} (h : DomainAdmitted s)
    (happend : appendDomainEvent s e = .ok (o, s')) : DomainAdmitted s' := by
  rcases appendDomainEvent_cases happend with
    ⟨row, -, -, -, rfl⟩ | ⟨p, hbound, -, hvalid, hfold, -, rfl⟩
  · exact h
  · have hat : InColumn e.occurredAt.toNat := ⟨Int.natCast_nonneg _, Int.ofNat_le.2 hbound⟩
    refine ⟨fun row hrow => ?_, h.columns.step hat hvalid hfold,
      foldDomainEventInTx_indexed h.indexed hfold⟩
    rcases List.mem_append.1 hrow with hrow | hrow
    · exact h.journal row hrow
    · rw [List.mem_singleton.1 hrow]
      exact hat

theorem DomainAdmitted.rebuild {s s' : DomainStore} {n : Int} (h : DomainAdmitted s)
    (hrebuild : rebuildDomainProjections s = .ok (n, s')) : DomainAdmitted s' := by
  obtain ⟨p, hreplay, hdone⟩ := bind_eq_ok.1 hrebuild
  cases hdone
  rw [h.indexed.rebuildFts, h.indexed.wipe] at hreplay
  have hp : ColumnsAdmitted p ∧ p.Indexed := by
    refine replay_invariant_of_mem (I := fun p => ColumnsAdmitted p ∧ p.Indexed)
      (fun row hmem q q' hrow hq => ?_) ⟨columnsAdmitted_empty, Projections.indexed_empty⟩ hreplay
    obtain ⟨e, -, hvalid, hfold⟩ := replayRow_eq_ok hrow
    exact ⟨hq.1.step (h.journal row hmem) hvalid hfold, foldDomainEventInTx_indexed hq.2 hfold⟩
  have hsame := hp.2.rebuildFts
  refine ⟨h.journal, ?_, ?_⟩
  · change ColumnsAdmitted p.rebuildFts
    rw [hsame]
    exact hp.1
  · change p.rebuildFts.Indexed
    rw [hsame]
    exact hp.2

omit [SerdeJson] in
/-- A recovered checkpoint keeps its key and the time it was created at. -/
theorem recoverCheckpoint_frame (row : RuntimeCheckpoint) :
    (Store.recoverCheckpoint row).id = row.id ∧
      (Store.recoverCheckpoint row).createdAt = row.createdAt := by
  unfold Store.recoverCheckpoint
  split <;> exact ⟨rfl, rfl⟩

/-- Every checkpoint is kept under its identifier, with a time that fits the column. -/
def CheckpointsAdmitted (s : Store) : Prop :=
  ∀ (id : RuntimeCheckpointId) row, s.checkpoint[id]? = some row →
    row.id = id ∧ row.createdAt.toNat ≤ i64Max

theorem CheckpointsAdmitted.recordIntent {s' : Store} {checkpoint : RuntimeCheckpoint}
    (h : CheckpointsAdmitted s) (hrecord : s.recordRuntimeIntent checkpoint = .ok s') :
    CheckpointsAdmitted s' := by
  unfold Store.recordRuntimeIntent at hrecord
  split at hrecord
  · cases hrecord
  obtain ⟨⟨⟩, -, hrecord⟩ := bind_eq_ok.1 hrecord
  split at hrecord
  · split at hrecord
    · cases hrecord
      exact h
    · cases hrecord
  · split at hrecord
    · cases hrecord
    · rename_i hbound
      split at hrecord
      · cases hrecord
      · cases hrecord
        intro id row hrow
        rw [Table.getElem?_insert_eq] at hrow
        split at hrow
        · cases hrow
          exact ⟨‹_›, Nat.le_of_not_lt hbound⟩
        · exact h id row hrow

theorem CheckpointsAdmitted.settle {s' : Store} {id : RuntimeCheckpointId}
    {state : CheckpointState} {remoteRequestId diagnosticSummary : Option String}
    {settledAt : UInt64} (h : CheckpointsAdmitted s)
    (hsettle : s.settleRuntimeCheckpoint id state remoteRequestId diagnosticSummary settledAt =
      .ok s') : CheckpointsAdmitted s' := by
  unfold Store.settleRuntimeCheckpoint at hsettle
  split at hsettle
  · cases hsettle
  · split at hsettle
    · cases hsettle
    · split at hsettle
      · split at hsettle
        · cases hsettle
        · cases hsettle
          intro key row hrow
          rw [Table.getElem?_update] at hrow
          split at hrow
          · obtain ⟨old, hold, rfl⟩ := Option.map_eq_some_iff.1 hrow
            exact h key old hold
          · exact h key row hrow
      · split at hsettle
        · cases hsettle
          exact h
        · cases hsettle

theorem CheckpointsAdmitted.reopen (h : CheckpointsAdmitted s) :
    CheckpointsAdmitted s.openInner.2 := by
  unfold Store.openInner
  rcases ensureDomainProjectionsCurrent s.domain with ⟨_ | _, domain⟩
  · exact h
  · intro id row hrow
    simp only [Store.recoverUnsettledCheckpoints, Std.ExtTreeMap.getElem?_map] at hrow
    obtain ⟨old, hold, rfl⟩ := Option.map_eq_some_iff.1 hrow
    obtain ⟨hid, hcreated⟩ := recoverCheckpoint_frame old
    rw [hid, hcreated]
    exact h id old hold

theorem CheckpointsAdmitted.step (h : CheckpointsAdmitted s) (i : ContentInput) :
    CheckpointsAdmitted (contentStep s i) := by
  cases i with
  | append e =>
    simp only [contentStep]
    split
    · rename_i o s' happend
      obtain ⟨domain, -, rfl⟩ := Store.appendDomainEvent_cases happend
      exact h
    · exact h
  | reopen => exact h.reopen
  | rebuild =>
    simp only [contentStep]
    split <;> exact h
  | recordIntent checkpoint =>
    simp only [contentStep]
    cases hrecord : s.recordRuntimeIntent checkpoint with
    | error e => exact h
    | ok s' => exact h.recordIntent hrecord
  | settle id state remoteRequestId diagnosticSummary settledAt =>
    simp only [contentStep]
    cases hsettle : s.settleRuntimeCheckpoint id state remoteRequestId diagnosticSummary
        settledAt with
    | error e => exact h
    | ok s' => exact h.settle hsettle

/-- Every call keeps what the columns can hold. -/
theorem ContentAdmitted.step (h : ContentAdmitted s) (i : ContentInput) :
    ContentAdmitted (contentStep s i) where
  domain := contentStep_keeps (fun _ _ _ _ happend hs => hs.append happend)
    (fun _ _ _ hrebuild hs => hs.rebuild hrebuild) s i h.domain
  checkpoint := CheckpointsAdmitted.step h.checkpoint i

theorem contentAdmitted_empty : ContentAdmitted .empty where
  domain := ⟨fun row h => absurd h List.not_mem_nil, columnsAdmitted_empty,
    Projections.indexed_empty⟩
  checkpoint id row h := by simp [Store.empty] at h

/-- In every state of a run the keys are identifiers and the times fit their columns. -/
theorem contentAdmitted_run (inputs : List ContentInput) :
    ContentAdmitted (contentMachine.run inputs) :=
  contentMachine.invariant (I := ContentAdmitted) (fun _ i h => h.step i) contentAdmitted_empty inputs

end

end Altior.Storage
