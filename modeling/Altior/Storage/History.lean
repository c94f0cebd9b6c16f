import Altior.Lib.Backward
import Altior.Storage.Listings

/-!
# The journal of a thread, backward

The queries behind a page of history (`journal_events_for_thread` and `journal_has_older`
of `altior-storage/src/lib.rs`).  The journal is numbered upwards and only grows, so what
lies before a row stays the same.
-/

namespace Altior.Storage

open Domain Lib

variable [SerdeJson]

open SerdeJson

/-- `u64::try_from` of a sequence number. -/
def columnSeq (seq : Int) : Option UInt64 := if 0 ≤ seq then some (.ofNat seq.toNat) else none

/-- `i64::try_from` of a sequence number, or the largest one. -/
def boundSeq (seq : Option UInt64) : Int :=
  (seq.bind fun n => if n.toNat ≤ i64Max then some (n.toNat : Int) else none).getD i64Max

/-- The largest number of a thread. -/
def journalHighWater (s : DomainStore) (threadId : String) : Option UInt64 :=
  (((s.journal.filter fun row => row.threadId == some threadId).map DomainJournalRow.seq).max?).bind
    columnSeq

/-- The newest rows of a thread before a sequence number, oldest first, and the largest
number of the thread. -/
def journalEventsForThread (s : DomainStore) (threadId : String) (beforeSeq : Option UInt64)
    (limit : Nat) : List DomainJournalRow × Option UInt64 :=
  let page := ((s.journal.filter fun row =>
    row.threadId == some threadId && row.seq < boundSeq beforeSeq).mergeSort
      fun a b => b.seq ≤ a.seq).take limit
  (page.reverse, journalHighWater s threadId)

/-- Whether the thread has a row before a sequence number. -/
def journalHasOlder (s : DomainStore) (threadId : String) (beforeSeq : UInt64) : Bool :=
  s.journal.any fun row => row.threadId == some threadId && row.seq < boundSeq (some beforeSeq)

/-! ## Numbers -/

/-- The rows are numbered from one on. -/
structure Numbered (journal : List DomainJournalRow) : Prop where
  seq : journal.map DomainJournalRow.seq = (List.range journal.length).map fun i : Nat => (i : Int) + 1
  max : domainJournalMaxSeq journal = journal.length

theorem numbered_nil : Numbered [] := ⟨rfl, rfl⟩

variable {journal : List DomainJournalRow}

theorem Numbered.append (h : Numbered journal) (e : DomainEvent) :
    Numbered (journal ++ [durableRow (domainJournalMaxSeq journal + 1) e]) where
  seq := by
    rw [List.map_append, h.seq, h.max, List.length_append, List.length_singleton, List.range_succ,
      List.map_append]
    rfl
  max := by
    rw [domainJournalMaxSeq_append, h.max, List.length_append, List.length_singleton]
    rfl

theorem Numbered.ascending (h : Numbered journal) : journal.Pairwise fun a b => a.seq < b.seq := by
  rw [← List.pairwise_map (f := DomainJournalRow.seq), h.seq, List.pairwise_map]
  exact List.pairwise_lt_range.imp fun hlt => Int.add_lt_add_right (Int.ofNat_lt.2 hlt) 1

variable {row : DomainJournalRow}

theorem Numbered.positive (h : Numbered journal) (hrow : row ∈ journal) : 0 < row.seq := by
  have hmem := List.mem_map_of_mem (f := DomainJournalRow.seq) hrow
  rw [h.seq] at hmem
  obtain ⟨i, -, hi⟩ := List.mem_map.1 hmem
  omega

/-! ## Growth -/

/-- The second journal is the first one with more rows behind it. -/
def JournalExtends (journal journal' : List DomainJournalRow) : Prop :=
  ∃ more, journal' = journal ++ more

theorem JournalExtends.refl (journal : List DomainJournalRow) : JournalExtends journal journal :=
  ⟨[], (List.append_nil _).symm⟩

theorem JournalExtends.trans {journal' journal'' : List DomainJournalRow}
    (h : JournalExtends journal journal') (h' : JournalExtends journal' journal'') :
    JournalExtends journal journal'' := by
  obtain ⟨more, rfl⟩ := h
  obtain ⟨more', rfl⟩ := h'
  exact ⟨more ++ more', List.append_assoc _ _ _⟩

/-- The journal after one call: as it was, or with one accepted event behind it. -/
theorem journal_contentStep (s : Store) (i : ContentInput) :
    (contentStep s i).domain.journal = s.domain.journal ∨
      ∃ e, (contentStep s i).domain.journal =
        s.domain.journal ++ [durableRow (domainJournalMaxSeq s.domain.journal + 1) e] := by
  cases i with
  | append e =>
    simp only [contentStep]
    split
    · rename_i o s' happend
      obtain ⟨domain, hdomain, rfl⟩ := Store.appendDomainEvent_cases happend
      rcases appendDomainEvent_cases hdomain with ⟨row, -, -, -, rfl⟩ | ⟨p, -, -, -, -, -, rfl⟩
      · exact .inl rfl
      · exact .inr ⟨e, rfl⟩
    · exact .inl rfl
  | reopen =>
    have hkeeps := (ensureDomainProjectionsCurrent_keeps s.domain).1
    refine .inl ?_
    simp only [contentStep, Store.openInner]
    revert hkeeps
    rcases ensureDomainProjectionsCurrent s.domain with ⟨_ | _, domain⟩
    · exact fun h => h
    · exact fun h => h
  | rebuild =>
    simp only [contentStep]
    split
    · rename_i n domain hrebuild
      obtain ⟨p, -, hdone⟩ := bind_eq_ok.1 hrebuild
      cases hdone
      exact .inl rfl
    · exact .inl rfl
  | recordIntent checkpoint =>
    simp only [contentStep]
    cases hrecord : s.recordRuntimeIntent checkpoint with
    | error e => exact .inl rfl
    | ok s' =>
      have hsame := (Store.local_recordRuntimeIntent hrecord).domain
      exact .inl (congrArg DomainStore.journal hsame)
  | settle id state remoteRequestId diagnosticSummary settledAt =>
    simp only [contentStep]
    cases hsettle : s.settleRuntimeCheckpoint id state remoteRequestId diagnosticSummary
        settledAt with
    | error e => exact .inl rfl
    | ok s' =>
      have hsame := (Store.local_settleRuntimeCheckpoint hsettle).domain
      exact .inl (congrArg DomainStore.journal hsame)

theorem Numbered.step {s : Store} (h : Numbered s.domain.journal) (i : ContentInput) :
    Numbered (contentStep s i).domain.journal := by
  rcases journal_contentStep s i with hsame | ⟨e, hnew⟩
  · rwa [hsame]
  · rw [hnew]
    exact h.append e

theorem extends_step (s : Store) (i : ContentInput) :
    JournalExtends s.domain.journal (contentStep s i).domain.journal := by
  rcases journal_contentStep s i with hsame | ⟨e, hnew⟩
  · rw [hsame]
    exact .refl _
  · exact ⟨_, hnew⟩

/-- The journal of a run is numbered. -/
theorem numbered_run (inputs : List ContentInput) :
    Numbered (contentMachine.run inputs).domain.journal :=
  contentMachine.invariant (I := fun s => Numbered s.domain.journal) (fun _ i h => h.step i)
    numbered_nil inputs

theorem extends_runFrom (s : Store) (inputs : List ContentInput) :
    JournalExtends s.domain.journal (contentMachine.runFrom s inputs).domain.journal := by
  induction inputs generalizing s with
  | nil => exact .refl _
  | cons i inputs ih => exact (extends_step s i).trans (ih _)

/-! ## The rows of a thread -/

/-- The rows of a thread that come before a number, the newest first. -/
def rowsBefore (journal : List DomainJournalRow) (threadId : String) (bound : Int) :
    List DomainJournalRow :=
  (journal.filter fun row => row.threadId == some threadId && row.seq < bound).reverse

/-- Newest first. -/
def seqKey (row : DomainJournalRow) : Intᵒᵈ := OrderDual.toDual row.seq

section Rows

variable {journal : List DomainJournalRow} {threadId : String} {bound : Int}

theorem mem_rowsBefore : row ∈ rowsBefore journal threadId bound ↔
    row ∈ journal ∧ row.threadId = some threadId ∧ row.seq < bound := by
  unfold rowsBefore
  simp

theorem Numbered.descending (h : Numbered journal) (threadId : String) (bound : Int) :
    (rowsBefore journal threadId bound).Pairwise fun a b => seqKey a < seqKey b :=
  List.pairwise_reverse.2 (h.ascending.sublist List.filter_sublist)

/-- A page of the query is cut off the newest rows. -/
theorem Numbered.journalEventsForThread_fst {s : DomainStore} (h : Numbered s.journal)
    (threadId : String) (beforeSeq : Option UInt64) (limit : Nat) :
    (journalEventsForThread s threadId beforeSeq limit).1 =
      ((rowsBefore s.journal threadId (boundSeq beforeSeq)).take limit).reverse := by
  have hdesc := h.descending threadId (boundSeq beforeSeq)
  have hsorted : (s.journal.filter fun row =>
      row.threadId == some threadId && row.seq < boundSeq beforeSeq).mergeSort
        (fun a b => b.seq ≤ a.seq) = rowsBefore s.journal threadId (boundSeq beforeSeq) := by
    exact Keyset.inOrder_eq_of_strict (List.reverse_perm _) hdesc
  unfold journalEventsForThread
  rw [hsorted]

theorem journalHasOlder_eq {s : DomainStore} (threadId : String) (beforeSeq : UInt64) :
    journalHasOlder s threadId beforeSeq = true ↔
      rowsBefore s.journal threadId (boundSeq (some beforeSeq)) ≠ [] := by
  unfold journalHasOlder rowsBefore
  rw [List.any_eq_true, ne_eq, List.reverse_eq_nil_iff, List.filter_eq_nil_iff]
  simp

/-- What comes before a row of the first journal is the same in the second one. -/
theorem Numbered.rowsBefore_extends {journal' : List DomainJournalRow} (h : Numbered journal')
    (hextends : JournalExtends journal journal') (hrow : row ∈ journal) :
    rowsBefore journal' threadId row.seq = rowsBefore journal threadId row.seq := by
  obtain ⟨more, rfl⟩ := hextends
  have hmore : more.filter (fun other => other.threadId == some threadId && other.seq < row.seq) =
      [] := by
    rw [List.filter_eq_nil_iff]
    intro other hother
    have hlt := (List.pairwise_append.1 h.ascending).2.2 row hrow other hother
    simp [hlt.le]
  unfold rowsBefore
  rw [List.filter_append, hmore, List.append_nil]

/-- What comes before a row of the thread is what follows it, the newest first. -/
theorem Numbered.rowsBefore_row (h : Numbered journal) {newer older : List DomainJournalRow}
    (hrows : rowsBefore journal threadId bound = newer ++ row :: older) :
    rowsBefore journal threadId row.seq = older := by
  have hdesc := h.descending threadId bound
  rw [hrows] at hdesc
  have hmem : row ∈ rowsBefore journal threadId bound := by
    rw [hrows]
    exact List.mem_append_right _ List.mem_cons_self
  rw [← Keyset.filter_behind hdesc, ← hrows]
  unfold rowsBefore
  rw [List.filter_reverse, List.filter_filter]
  congr 1
  refine List.filter_congr fun other _ => ?_
  have hbound := (mem_rowsBefore.1 hmem).2.2
  rw [Bool.eq_iff_iff]
  simp only [Bool.and_eq_true, beq_iff_eq, decide_eq_true_eq, seqKey, OrderDual.toDual_lt_toDual]
  constructor
  · exact fun ⟨hthread, hlt⟩ => ⟨hlt, hthread, hlt.trans hbound⟩
  · exact fun ⟨hlt, hthread, _⟩ => ⟨hthread, hlt⟩

end Rows

end Altior.Storage
