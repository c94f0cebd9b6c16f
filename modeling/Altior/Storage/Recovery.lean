import Altior.Storage.Journal

/-!
# Append, rebuild and open agree

The projections an append folds incrementally are the ones a rebuild replays
from the journal, as long as no custom event kind carries a known kind's name.
From that follow the two recovery results: a rebuild changes no row, and opening
a store always succeeds with a current marker.
-/

namespace Altior.Storage

open Domain Lib

/-! ## The search indexes follow the tables -/

variable {p p' : Projections}

namespace Projections

/-- The thread index copies the titles and every entry of the memory index
belongs to a memory row. -/
structure Indexed (p : Projections) : Prop where
  thread : p.threadSearch = p.titles
  memory : ∀ e ∈ p.memoryFts, e.1 ∈ p.memory

theorem indexed_empty : Indexed empty where
  thread := by
    refine Std.ExtTreeMap.ext_getElem? fun k => ?_
    simp [empty, titles]
  memory := by simp [empty]

theorem getElem?_titles (p : Projections) (k : String) :
    p.titles[k]? = p.thread[k]?.map ThreadRow.title := by
  simp [titles, Std.ExtTreeMap.getElem?_map]

theorem Indexed.getElem?_threadSearch (h : p.Indexed) (k : String) :
    p.threadSearch[k]? = p.thread[k]?.map ThreadRow.title := by
  rw [h.thread, getElem?_titles]

/-- The thread index agrees when it agrees key by key. -/
theorem threadSearch_eq_titles
    (h : ∀ k : String, p.threadSearch[k]? = p.thread[k]?.map ThreadRow.title) :
    p.threadSearch = p.titles :=
  Std.ExtTreeMap.ext_getElem? fun k => by rw [h, getElem?_titles]

theorem Indexed.insertThread (h : p.Indexed) (threadId : String) (row : ThreadRow) :
    (p.insertThread threadId row).Indexed where
  thread := threadSearch_eq_titles fun k => by
    simp only [Projections.insertThread, Table.getElem?_insert_eq]
    split
    · rfl
    · exact h.getElem?_threadSearch k
  memory := h.memory

theorem Indexed.updateThread (h : p.Indexed) (threadId : String) {f : ThreadRow → ThreadRow}
    (hf : ∀ row, (f row).title = row.title) :
    (p.updateThread threadId f).Indexed where
  thread := threadSearch_eq_titles fun k => by
    simp only [Projections.updateThread, Table.getElem?_update]
    rw [h.getElem?_threadSearch k]
    split
    · cases p.thread[k]? <;> simp [hf]
    · rfl
  memory := h.memory

theorem Indexed.updateThreadTitle (h : p.Indexed) (threadId title : String)
    (f : ThreadRow → ThreadRow) : (p.updateThreadTitle threadId title f).Indexed where
  thread := threadSearch_eq_titles fun k => by
    simp only [Projections.updateThreadTitle, Table.getElem?_update]
    by_cases hmem : threadId ∈ p.thread
    · obtain ⟨row, hrow⟩ := Table.mem_iff.1 hmem
      rw [if_pos hmem, Table.getElem?_insert_eq]
      split
      · rename_i hk
        subst hk
        simp [hrow]
      · exact h.getElem?_threadSearch k
    · rw [if_neg hmem, h.getElem?_threadSearch k]
      split
      · rename_i hk
        subst hk
        simp [Table.not_mem_iff.1 hmem]
      · rfl
  memory := h.memory

/-- Statements on the turn and permission tables leave the indexed tables alone. -/
theorem Indexed.of_eq {q : Projections} (h : p.Indexed) (hthread : q.thread = p.thread)
    (hsearch : q.threadSearch = p.threadSearch) (hmemory : q.memory = p.memory)
    (hfts : q.memoryFts = p.memoryFts) : q.Indexed where
  thread := by rw [hsearch, h.thread, titles, titles, hthread]
  memory := by rw [hfts, hmemory]; exact h.memory

theorem mem_ftsEntry {memoryId : String} {row : MemoryRow} {e : String × String}
    (h : e ∈ ftsEntry memoryId row) : e.1 = memoryId := by
  unfold ftsEntry at h
  split at h
  · rw [List.mem_singleton.1 h]
  · cases h

theorem Indexed.insertMemory (h : p.Indexed) (memoryId : String) (row : MemoryRow) :
    (p.insertMemory memoryId row).Indexed where
  thread := h.thread
  memory := by
    intro e he
    simp only [Projections.insertMemory, List.mem_append] at he ⊢
    rw [Table.mem_iff, Table.getElem?_insert_eq]
    split
    · exact ⟨_, rfl⟩
    · rename_i hne
      rcases he with he | he
      · exact Table.mem_iff.1 (h.memory e he)
      · exact absurd (mem_ftsEntry he).symm hne

theorem Indexed.updateMemory (h : p.Indexed) (memoryId : String) (f : MemoryRow → MemoryRow) :
    (p.updateMemory memoryId f).Indexed := by
  unfold Projections.updateMemory
  split
  · exact h
  · refine ⟨h.thread, fun e he => ?_⟩
    simp only [List.mem_append, List.mem_filter] at he ⊢
    rw [Table.mem_iff, Table.getElem?_insert_eq]
    split
    · exact ⟨_, rfl⟩
    · rename_i hne
      rcases he with he | he
      · exact Table.mem_iff.1 (h.memory e he.1)
      · exact absurd (mem_ftsEntry he).symm hne

/-- Wiping indexed projections leaves nothing behind. -/
theorem Indexed.wipe (h : p.Indexed) : p.wipe = empty := by
  have hsearch : p.threadSearch.filter (fun threadId _ => !p.thread.contains threadId) = ∅ := by
    refine Std.ExtTreeMap.ext_getElem? fun k => ?_
    rw [Std.ExtTreeMap.getElem?_filter', h.getElem?_threadSearch]
    cases hk : p.thread[k]? with
    | none => simp
    | some row =>
      have hc : p.thread.contains k = true :=
        Std.ExtTreeMap.contains_iff_mem.2 (Table.mem_iff.2 ⟨row, hk⟩)
      simp [hc]
  have hfts : p.memoryFts.filter (fun e => !p.memory.contains e.1) = [] := by
    rw [List.filter_eq_nil_iff]
    intro e he
    simp [Std.ExtTreeMap.contains_iff_mem.2 (h.memory e he)]
  simp only [Projections.wipe, empty, hsearch, hfts]

theorem Indexed.rebuildFts (h : p.Indexed) : p.rebuildFts = p := by
  unfold Projections.rebuildFts
  rw [← h.thread]

theorem Indexed.checkFtsConsistency (h : p.Indexed) : p.checkFtsConsistency = true := by
  simp [Projections.checkFtsConsistency, h.thread]

end Projections

theorem updateThreadActivity_indexed {thread : String} {seq at_ : Int} {eventId kind : String}
    (h : p.Indexed) (hp : updateThreadActivity p thread seq eventId kind at_ = .ok p') :
    p'.Indexed := by
  unfold updateThreadActivity at hp
  split at hp
  · cases hp
    exact h.updateThread thread fun _ => rfl
  · cases hp

@[simp] theorem parseColumn_asStr {pre : String} (id : Option (Id pre)) (detail : String) :
    parseColumn pre (id.map Id.asStr) detail = .ok id := by
  cases id <;> simp [parseColumn]

section

variable [SerdeJson]

open SerdeJson

variable {e : DomainEvent} {s : DomainStore}

theorem foldMemory_indexed {occurredAt : Int} (h : p.Indexed)
    (hp : foldMemory p e occurredAt = some (.ok p')) : p'.Indexed := by
  unfold foldMemory at hp
  split at hp
  case h_1 =>
    simp only [foldMemoryProposedInTx, Option.some.injEq] at hp
    split at hp
    · cases hp
    · split at hp
      · cases hp; exact h.updateMemory _ _
      · cases hp; exact h.insertMemory _ _
  case h_2 =>
    simp only [foldMemoryConfirmedInTx, Option.some.injEq] at hp
    split at hp
    · cases hp
    · split at hp
      · cases hp; exact h.updateMemory _ _
      · cases hp; exact h.insertMemory _ _
  case h_7 => cases hp
  all_goals
    cases hp
    exact h.updateMemory _ _

theorem foldThreadCreated_indexed (h : p.Indexed) (e : DomainEvent) (threadId : String)
    (seq occurredAt : Int) : (foldThreadCreated p e threadId seq occurredAt).Indexed := by
  unfold foldThreadCreated
  split
  · exact h.updateThread _ fun _ => rfl
  · exact h.insertThread _ _

/-- The turn and permission statements do not touch the indexed tables. -/
theorem foldTurnScope_frame (p : Projections) (e : DomainEvent) (threadId : String)
    (occurredAt : Int) :
    (foldTurnScope p e threadId occurredAt).thread = p.thread ∧
      (foldTurnScope p e threadId occurredAt).threadSearch = p.threadSearch ∧
      (foldTurnScope p e threadId occurredAt).memory = p.memory ∧
      (foldTurnScope p e threadId occurredAt).memoryFts = p.memoryFts := by
  unfold foldTurnScope foldTurnStarted foldPermissionRequested foldPermissionDecided
  split <;> (try split) <;> exact ⟨rfl, rfl, rfl, rfl⟩

theorem foldTurnScope_indexed (h : p.Indexed) (e : DomainEvent) (threadId : String)
    (occurredAt : Int) : (foldTurnScope p e threadId occurredAt).Indexed := by
  obtain ⟨hthread, hsearch, hmemory, hfts⟩ := foldTurnScope_frame p e threadId occurredAt
  exact h.of_eq hthread hsearch hmemory hfts

/-- Folding an event keeps the indexes in step with the tables. -/
theorem foldDomainEventInTx_indexed {seq occurredAt : Int} (h : p.Indexed)
    (hp : foldDomainEventInTx p e seq occurredAt = .ok p') : p'.Indexed := by
  unfold foldDomainEventInTx at hp
  cases hmem : foldMemory p e occurredAt with
  | some r =>
    cases r with
    | error err => simp [hmem] at hp
    | ok q =>
      have hq := foldMemory_indexed h hmem
      cases hthread : e.threadId with
      | none =>
        simp only [hmem, hthread] at hp
        cases hp
        exact hq
      | some threadId =>
        simp only [hmem, hthread] at hp
        exact updateThreadActivity_indexed hq hp
  | none =>
    cases hthread : e.threadId with
    | none =>
      simp only [hmem, hthread] at hp
      cases hp
      exact h
    | some threadId =>
      simp only [hmem, hthread] at hp
      split at hp
      · cases hp; exact foldThreadCreated_indexed h _ _ _ _
      · cases hp; exact h.updateThreadTitle _ _ _
      · cases hp; exact h.updateThread _ fun _ => rfl
      · exact updateThreadActivity_indexed (foldTurnScope_indexed h _ _ _) hp

/-! ## What one append does -/

/-- An accepted append either finds the event or adds exactly one row. -/
theorem appendDomainEvent_cases {s' : DomainStore} {o : AppendOutcome}
    (h : appendDomainEvent s e = .ok (o, s')) :
    (∃ row ∈ s.journal, row = durableRow row.seq e ∧ o = .duplicate row.seq ∧ s' = s) ∨
    (∃ p, e.occurredAt.toNat ≤ i64Max ∧ existingDomainEvent s e = none ∧
      validateDomainEventInTx s.projections e = .ok () ∧
      foldDomainEventInTx s.projections e (domainJournalMaxSeq s.journal + 1)
        e.occurredAt.toNat = .ok p ∧
      o = .appended (domainJournalMaxSeq s.journal + 1) ∧
      s' = { journal := s.journal ++ [durableRow (domainJournalMaxSeq s.journal + 1) e]
             projections := p
             marker := some (markerAfterAppend s e p (domainJournalMaxSeq s.journal + 1)) }) := by
  unfold appendDomainEvent at h
  split at h
  · cases h
  · split at h
    · cases h
    · rename_i hbound
      split at h
      · rename_i existing hex
        split at h
        · rename_i heq
          cases h
          exact .inl ⟨existing, List.mem_of_find?_eq_some hex, heq, rfl, rfl⟩
        · cases h
      · rename_i hnone
        obtain ⟨⟨⟩, hvalid, h⟩ := bind_eq_ok.1 h
        obtain ⟨p, hfold, h⟩ := bind_eq_ok.1 h
        cases h
        exact .inr ⟨p, by omega, hnone, hvalid, hfold, rfl, rfl⟩

/-- The kind of a validated event has a canonical name. -/
theorem canonicalName_of_validate (h : validateDomainEventInTx p e = .ok ()) :
    DomainEventKind.canonicalName e.kind.asStr = true := by
  obtain ⟨⟨⟩, hkind, -⟩ := bind_eq_ok.1 h
  obtain ⟨kind, hkind⟩ := requireOk_eq_ok.1 hkind
  unfold DomainEventKind.tryFromStr at hkind
  split at hkind
  · assumption
  · cases hkind

/-- A row parses back to its event, with the kind read again from its name. -/
theorem eventOfRow_durableRow (seq : Int) (e : DomainEvent)
    (hname : DomainEventKind.canonicalName e.kind.asStr = true) :
    eventOfRow (durableRow seq e) = .ok { e with kind := .ofName e.kind.asStr } := by
  have hkind : DomainEventKind.tryFromStr e.kind.asStr = .ok (.ofName e.kind.asStr) := by
    rw [DomainEventKind.tryFromStr, if_pos hname]
  have hat : ¬ ((e.occurredAt.toNat : Int) < 0) := by omega
  simp only [eventOfRow, durableRow, Id.parse_asStr, parseColumn_asStr, hkind,
    EventPayload.tryFrom_asBytes, hat, if_false, Int.toNat_natCast, UInt64.ofNat_toNat]
  rfl

/-- Replaying the row of an accepted event repeats the append. -/
theorem replayRow_durableRow {seq : Int} (hkind : ¬ e.kind.Masquerades)
    (hvalid : validateDomainEventInTx p e = .ok ())
    (hfold : foldDomainEventInTx p e seq e.occurredAt.toNat = .ok p') :
    replayRow p (durableRow seq e) = .ok p' := by
  have hrow : eventOfRow (durableRow seq e) = .ok e := by
    rw [eventOfRow_durableRow seq e (canonicalName_of_validate hvalid),
      DomainEventKind.ofName_asStr hkind]
  unfold replayRow
  rw [hrow]
  change (validateDomainEventInTx p e >>= fun _ => _) = _
  rw [hvalid]
  exact hfold

/-- A replayed row is an accepted event. -/
theorem replayRow_eq_ok {row : DomainJournalRow} (h : replayRow p row = .ok p') :
    ∃ e, eventOfRow row = .ok e ∧ validateDomainEventInTx p e = .ok () ∧
      foldDomainEventInTx p e row.seq row.occurredAt = .ok p' := by
  obtain ⟨e, he, h⟩ := bind_eq_ok.1 h
  obtain ⟨⟨⟩, hvalid, hfold⟩ := bind_eq_ok.1 h
  exact ⟨e, he, hvalid, hfold⟩

/-- The new row carries the largest sequence number. -/
theorem domainJournalMaxSeq_append (journal : List DomainJournalRow) (e : DomainEvent) :
    domainJournalMaxSeq (journal ++ [durableRow (domainJournalMaxSeq journal + 1) e]) =
      domainJournalMaxSeq journal + 1 := by
  unfold domainJournalMaxSeq
  cases journal with
  | nil => rfl
  | cons row rows =>
    simp only [List.cons_append, List.map_cons, List.map_append, List.map_nil, List.max?_cons',
      List.foldl_append, List.foldl_cons, List.foldl_nil, Option.getD_some, durableRow]
    omega

/-! ## The folded store -/

/-- The store invariant: replaying the journal gives the projections, the
indexes agree with them, and the marker is the one the last append or rebuild
wrote. -/
structure Folded (s : DomainStore) : Prop where
  replayed : replay replayRow .empty s.journal = .ok s.projections
  indexed : s.projections.Indexed
  marker_none : s.marker = none → s.journal = []
  marker_some : ∀ m, s.marker = some m →
    m.projectionVersion = domainProjectionVersion ∧ m.journalMaxSeq = domainJournalMaxSeq s.journal

theorem folded_empty : Folded .empty where
  replayed := rfl
  indexed := Projections.indexed_empty
  marker_none _ := rfl
  marker_some _ h := by cases h

/-- An append of a kind that does not masquerade keeps the store folded. -/
theorem Folded.append {s' : DomainStore} {o : AppendOutcome} (hs : Folded s)
    (hkind : ¬ e.kind.Masquerades) (h : appendDomainEvent s e = .ok (o, s')) : Folded s' := by
  rcases appendDomainEvent_cases h with ⟨row, -, -, -, rfl⟩ | ⟨p, -, -, hvalid, hfold, -, rfl⟩
  · exact hs
  · refine ⟨replay_append_row hs.replayed (replayRow_durableRow hkind hvalid hfold),
      foldDomainEventInTx_indexed hs.indexed hfold, fun hm => (Option.some_ne_none _ hm).elim,
      fun m hm => ?_⟩
    cases hm
    exact ⟨rfl, (domainJournalMaxSeq_append s.journal e).symm⟩

/-- Rebuilding a store whose journal folds to its projections changes the marker
only. -/
theorem rebuildDomainProjections_of_folded
    (hreplay : replay replayRow .empty s.journal = .ok s.projections)
    (hindexed : s.projections.Indexed) :
    rebuildDomainProjections s =
      .ok (s.journal.length,
        { s with marker := some (markerAfterRebuild s.journal s.projections) }) := by
  unfold rebuildDomainProjections
  rw [hindexed.rebuildFts, hindexed.wipe, hreplay]
  change Except.ok _ = _
  simp only [hindexed.rebuildFts]

/-- The rebuilt store passes its own verification. -/
theorem verifyRebuilt_of_folded (hindexed : s.projections.Indexed) :
    verifyRebuilt (domainJournalMaxSeq s.journal)
      { s with marker := some (markerAfterRebuild s.journal s.projections) } = .ok () := by
  simp [verifyRebuilt, markerAfterRebuild, domainProjectionDigest_ne_empty,
    hindexed.checkFtsConsistency]

/-- The marker is of the current version and ahead of the journal. -/
def MarkerAhead (s : DomainStore) : Prop :=
  ∃ m, s.marker = some m ∧ m.projectionVersion = domainProjectionVersion ∧
    domainJournalMaxSeq s.journal < m.journalMaxSeq

/-- The marker matches the journal and the tables. -/
def MarkerCurrent (s : DomainStore) : Prop :=
  ∃ m, s.marker = some m ∧ m.projectionVersion = domainProjectionVersion ∧
    m.journalMaxSeq = domainJournalMaxSeq s.journal ∧
    m.projectionDigest = domainProjectionDigest s.projections

/-- The check on open, case by case: a marker ahead of the journal is refused;
otherwise it asks for a rebuild or the marker is current. -/
theorem needsRebuild_cases :
    (MarkerAhead s ∧ ∃ e, needsRebuild s = .error e) ∨
    (¬ MarkerAhead s ∧ needsRebuild s = .ok true) ∨
    (¬ MarkerAhead s ∧ needsRebuild s = .ok false ∧ MarkerCurrent s) := by
  unfold needsRebuild MarkerAhead MarkerCurrent
  cases hm : s.marker with
  | none => exact .inr (.inl ⟨by simp, rfl⟩)
  | some m =>
    by_cases hversion : m.projectionVersion = domainProjectionVersion
    · rcases Int.lt_trichotomy m.journalMaxSeq (domainJournalMaxSeq s.journal)
        with hlt | heq | hgt
      · exact .inr (.inl ⟨by simp; omega, by simp [hversion, hlt]⟩)
      · by_cases hrebuild : m.projectionDigest.isEmpty ∨
            (domainProjectionDigest s.projections != m.projectionDigest ||
              !s.projections.checkFtsConsistency) = true
        · refine .inr (.inl ⟨by simp; omega, ?_⟩)
          rcases hrebuild with hempty | hstale <;> simp_all
        · obtain ⟨hempty, hfresh⟩ := not_or.1 hrebuild
          refine .inr (.inr ⟨by simp; omega, by simp_all, m, rfl, hversion, heq, ?_⟩)
          simp_all
      · exact .inl ⟨⟨m, rfl, hversion, hgt⟩, by simp [hversion, hgt, Int.not_lt.2 (Int.le_of_lt hgt)]⟩
    · exact .inr (.inl ⟨by simp [hversion], by simp [hversion]⟩)

/-- Opening a store whose journal folds to its projections, whatever its marker:
refused without a change when the marker is ahead, and healed otherwise. -/
theorem ensureDomainProjectionsCurrent_of_folded
    (hreplay : replay replayRow .empty s.journal = .ok s.projections)
    (hindexed : s.projections.Indexed) :
    (MarkerAhead s ∧ ∃ e, ensureDomainProjectionsCurrent s = (.error e, s)) ∨
    (¬ MarkerAhead s ∧ ∃ s', ensureDomainProjectionsCurrent s = (.ok (), s') ∧
      s'.journal = s.journal ∧ s'.projections = s.projections ∧ MarkerCurrent s') := by
  unfold ensureDomainProjectionsCurrent
  rcases needsRebuild_cases (s := s) with ⟨hahead, e, he⟩ | ⟨hahead, hr⟩ | ⟨hahead, hr, hcur⟩
  · exact .inl ⟨hahead, e, by rw [he]⟩
  · refine .inr ⟨hahead, { s with marker := some (markerAfterRebuild s.journal s.projections) },
      ?_, rfl, rfl, _, rfl, rfl, rfl, rfl⟩
    rw [hr, rebuildDomainProjections_of_folded hreplay hindexed]
    exact congrArg (·, _) (verifyRebuilt_of_folded hindexed)
  · exact .inr ⟨hahead, s, by rw [hr], rfl, rfl, hcur⟩

/-- A folded store is never refused on open. -/
theorem Folded.not_markerAhead (hs : Folded s) : ¬ MarkerAhead s := by
  rintro ⟨m, hm, -, hlt⟩
  have := (hs.marker_some m hm).2
  omega

theorem Folded.reopen (hs : Folded s) : Folded (ensureDomainProjectionsCurrent s).2 := by
  rcases ensureDomainProjectionsCurrent_of_folded hs.replayed hs.indexed with
    ⟨hahead, -⟩ | ⟨-, s', hs', hjournal, hproj, m, hm, hversion, hseq, -⟩
  · exact absurd hahead hs.not_markerAhead
  · rw [hs']
    refine ⟨by rw [hjournal, hproj]; exact hs.replayed, by rw [hproj]; exact hs.indexed,
      fun h => by simp [hm] at h, fun m' hm' => ?_⟩
    obtain rfl : m = m' := Option.some.inj (hm.symm.trans hm')
    exact ⟨hversion, hseq⟩

/-! ## Whole runs -/

/-- An input that does not append a masquerading kind. -/
def StoreInput.Honest : StoreInput → Prop
  | .append e => ¬ e.kind.Masquerades
  | .reopen => True

theorem Folded.step {i : StoreInput} (hs : Folded s) (hi : i.Honest) : Folded (storeStep s i) := by
  cases i with
  | append e =>
    simp only [storeStep]
    split
    · exact hs.append hi ‹_›
    · exact hs
  | reopen => exact hs.reopen

/-- Every run without masquerading kinds ends in a folded store. -/
theorem folded_run {inputs : List StoreInput} (h : ∀ i ∈ inputs, i.Honest) :
    Folded (storeMachine.run inputs) :=
  storeMachine.invariant_of_meets (fun _ _ hs hi => hs.step hi) folded_empty
    (storeMachine.meets_const.2 h)

/-- A rebuild succeeds and leaves every projection row as the appends left it. -/
def RebuildAgrees (s : DomainStore) : Prop :=
  ∃ n s', rebuildDomainProjections s = .ok (n, s') ∧ s'.projections = s.projections ∧
    domainProjectionDigest s'.projections = domainProjectionDigest s.projections

/-- **Incremental fold equals rebuild.** -/
theorem rebuildDomainProjections_agrees (events : List DomainEvent)
    (h : ∀ e ∈ events, ¬ e.kind.Masquerades) :
    RebuildAgrees (storeMachine.run (appends events)) := by
  have hs : Folded (storeMachine.run (appends events)) := by
    refine folded_run fun i hi => ?_
    obtain ⟨e, he, rfl⟩ := List.mem_map.1 hi
    exact h e he
  exact ⟨_, _, rebuildDomainProjections_of_folded hs.replayed hs.indexed, rfl, rfl⟩

/-- Opening the store succeeds; the marker is at the last sequence number, the
stored digest is the one of the tables, and the tables are the fold of the
journal. -/
def OpensCurrent (s : DomainStore) : Prop :=
  ∃ s', ensureDomainProjectionsCurrent s = (.ok (), s') ∧ s'.journal = s.journal ∧
    MarkerCurrent s' ∧ replay replayRow .empty s'.journal = .ok s'.projections

/-- Opening the store with any marker fails exactly when the marker is ahead,
and then alters nothing. -/
def RefusesOnlyAhead (s : DomainStore) : Prop :=
  ∀ marker : Option ProjectionMarker, ∀ t, t = { s with marker := marker } →
    ((∃ e, (ensureDomainProjectionsCurrent t).1 = .error e) ↔ MarkerAhead t) ∧
    (MarkerAhead t → (ensureDomainProjectionsCurrent t).2 = t)

/-- **Projections heal on open.** -/
theorem ensureDomainProjectionsCurrent_heals (inputs : List StoreInput)
    (h : ∀ i ∈ inputs, i.Honest) :
    OpensCurrent (storeMachine.run inputs) ∧ RefusesOnlyAhead (storeMachine.run inputs) := by
  have hs := folded_run h
  constructor
  · rcases ensureDomainProjectionsCurrent_of_folded hs.replayed hs.indexed with
      ⟨hahead, -⟩ | ⟨-, s', hs', hjournal, hproj, hcur⟩
    · exact absurd hahead hs.not_markerAhead
    · exact ⟨s', hs', hjournal, hcur, by rw [hjournal, hproj]; exact hs.replayed⟩
  · rintro marker t rfl
    rcases ensureDomainProjectionsCurrent_of_folded (s := { storeMachine.run inputs with marker := marker })
      hs.replayed hs.indexed with ⟨hahead, e, he⟩ | ⟨hahead, s', hs', -⟩
    · rw [he]
      exact ⟨⟨fun _ => hahead, fun _ => ⟨e, rfl⟩⟩, fun _ => rfl⟩
    · rw [hs']
      exact ⟨⟨fun ⟨_, herr⟩ => (nomatch herr), fun h => absurd h hahead⟩, fun h => absurd h hahead⟩

end

/-! ## Sample runs -/

section

local instance flatJson : SerdeJson := flatObjects

/-- An event over flat payloads. -/
def sampleEvent (eventId : EventId) (threadId : Option ThreadId) (turnId : Option TurnId)
    (kind : DomainEventKind) (fields : List (String × Scalar)) (h : checkPayload fields = .ok ()) :
    DomainEvent where
  eventId := eventId
  threadId := threadId
  turnId := turnId
  operationId := none
  kind := kind
  payload := ⟨fields, h⟩
  occurredAt := 5

theorem agentFields_fit :
    checkPayload [("agent_profile_id", .string "agp_fixture000000001")] = .ok () := by decide

theorem noFields_fit : checkPayload [] = .ok () := by decide

def sampleThreadId : ThreadId := ⟨"thr_fixture000000001", by decide⟩

def sampleTurnId : TurnId := ⟨"trn_fixture000000001", by decide⟩

/-- A thread with one started turn. -/
def sampleTurn : List DomainEvent :=
  [sampleEvent ⟨"evt_fixture000000001", by decide⟩ sampleThreadId none .threadCreated
      _ agentFields_fit,
    sampleEvent ⟨"evt_fixture000000002", by decide⟩ sampleThreadId sampleTurnId .turnStarted []
      noFields_fit]

/-- A delta of the sample turn. -/
def sampleDelta : DomainEvent :=
  sampleEvent ⟨"evt_fixture000000003", by decide⟩ sampleThreadId sampleTurnId .messageDelta []
    noFields_fit

/-- A custom event with the name of a known kind and no scope. -/
def sampleMasquerade : DomainEvent :=
  sampleEvent ⟨"evt_fixture000000004", by decide⟩ none none (.other "turn.started") [] noFields_fit

theorem rebuildDomainProjections_agrees_sample :
    (∀ e ∈ sampleTurn ++ [sampleDelta], ¬ e.kind.Masquerades) ∧
      RebuildAgrees (storeMachine.run (appends (sampleTurn ++ [sampleDelta]))) :=
  ⟨by decide, rebuildDomainProjections_agrees _ (by decide)⟩

/-- A custom event named like a known kind is accepted and then refused by the
rebuild, which reads the name as the known kind. -/
theorem rebuildDomainProjections_refuses_masquerade :
    ¬ ∀ events : List DomainEvent, RebuildAgrees (storeMachine.run (appends events)) := by
  intro h
  obtain ⟨n, s', hrebuild, -⟩ := h [sampleMasquerade]
  have herr : rebuildDomainProjections (storeMachine.run (appends [sampleMasquerade])) =
      .error (.invalidDomainEvent "thread scope required") := by
    decide
  rw [herr] at hrebuild
  cases hrebuild

theorem ensureDomainProjectionsCurrent_heals_sample :
    (∀ i ∈ appends sampleTurn ++ [.append sampleDelta, .reopen], i.Honest) ∧
      OpensCurrent (storeMachine.run (appends sampleTurn ++ [.append sampleDelta, .reopen])) := by
  have h : ∀ i ∈ appends sampleTurn ++ [.append sampleDelta, .reopen], i.Honest := by
    intro i hi
    simp only [appends, sampleTurn, List.map_cons, List.map_nil, List.cons_append, List.nil_append,
      List.mem_cons, List.not_mem_nil, or_false] at hi
    rcases hi with rfl | rfl | rfl | rfl
    · exact id
    · exact id
    · exact id
    · trivial
  exact ⟨h, (ensureDomainProjectionsCurrent_heals _ h).1⟩

set_option maxRecDepth 20000 in
/-- A masquerading event followed by a delta, which leaves the digest stale,
makes every later open fail although the marker is not ahead. -/
theorem ensureDomainProjectionsCurrent_refuses_masquerade :
    ¬ ∀ inputs : List StoreInput,
      OpensCurrent (storeMachine.run inputs) ∧ RefusesOnlyAhead (storeMachine.run inputs) := by
  intro h
  obtain ⟨⟨s', hopen, -⟩, -⟩ := h (appends (sampleTurn ++ [sampleMasquerade, sampleDelta]))
  have herr : (ensureDomainProjectionsCurrent (storeMachine.run
      (appends (sampleTurn ++ [sampleMasquerade, sampleDelta])))).1 =
        .error (.invalidDomainEvent "thread scope required") := by
    decide
  rw [hopen] at herr
  cases herr

end

end Altior.Storage
