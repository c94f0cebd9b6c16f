import Altior.Storage.Journal
import Altior.Lib.Simulation
import Mathlib.Data.List.Dedup
import Mathlib.Data.List.Induction

/-!
# The protocol journal

The journal of the event envelopes with a summary of each thread
(`altior-storage/src/lib.rs`).  An append brings the summary of its thread up to date; a
rebuild groups the whole journal by thread and joins each group with its last row.
-/

namespace Altior.Storage

open Domain Lib

/-- Version of the fold that produced the summaries. -/
def projectionVersion : Int := 1

/-- An envelope as an append reads it: its encoding, if it has one, and its columns. -/
structure ProtocolEnvelope where
  json : Option (List UInt8)
  eventId : EventId
  threadId : Option ThreadId
  turnId : Option TurnId
  sequence : UInt64
  occurredAt : UInt64
  kindName : String

/-- A row of `journal`. -/
structure JournalRow where
  seq : Int
  eventId : String
  threadId : Option String
  turnId : Option String
  streamSequence : Int
  kind : String
  payload : List UInt8
  occurredAt : Int

/-- A row of `thread_projection`, keyed by `thread_id`. -/
structure ThreadSummary where
  eventCount : Int
  firstSeq : Int
  lastSeq : Int
  lastEventId : String
  lastKind : String
  updatedAt : Int
deriving DecidableEq

/-- The row of `projection_state`. -/
structure ProtocolMarker where
  journalMaxSeq : Int
  projectionVersion : Int
  rebuiltAt : Int
deriving DecidableEq

/-- The journal in sequence order, the summaries and the marker. -/
structure ProtocolStore where
  journal : List JournalRow
  threadProjection : Table String ThreadSummary
  marker : Option ProtocolMarker

namespace ProtocolStore

/-- A freshly migrated store. -/
def empty : ProtocolStore := ⟨[], ∅, none⟩

/-- `EncodeFailed`, or another failure of an append. -/
inductive AppendError
  | encodeFailed
  | storage (e : StorageError)

/-- `SELECT COALESCE(MAX(seq), 0)`. -/
def journalMaxSeq (journal : List JournalRow) : Int := (journal.map JournalRow.seq).max?.getD 0

/-- The upsert of an append: a first row of the thread, or one more. -/
def upsertSummary (summary : Option ThreadSummary) (row : JournalRow) : ThreadSummary :=
  match summary with
  | none => ⟨1, row.seq, row.seq, row.eventId, row.kind, row.occurredAt⟩
  | some old =>
    { old with
      eventCount := old.eventCount + 1
      lastSeq := row.seq
      lastEventId := row.eventId
      lastKind := row.kind
      updatedAt := row.occurredAt }

/-- What an append writes. -/
def insertRow (s : ProtocolStore) (row : JournalRow) : ProtocolStore where
  journal := s.journal ++ [row]
  threadProjection :=
    match row.threadId with
    | none => s.threadProjection
    | some thread =>
      s.threadProjection.insert thread (upsertSummary s.threadProjection[thread]? row)
  marker := some ⟨row.seq, projectionVersion, row.occurredAt⟩

/-- Appends an event, idempotently by event id. -/
def appendEvent (s : ProtocolStore) (envelope : ProtocolEnvelope) :
    Except AppendError AppendOutcome × ProtocolStore :=
  match envelope.json with
  | none => (.error .encodeFailed, s)
  | some bytes =>
    if journalPayloadMax < bytes.length then
      (.error (.storage (.payloadTooLarge bytes.length journalPayloadMax)), s)
    else if i64Max < envelope.occurredAt.toNat then
      (.error (.storage (.rebuildInvariant ("occurred_at " ++ toString envelope.occurredAt.toNat
        ++ " exceeds the i64 column" : String))), s)
    else if i64Max < envelope.sequence.toNat then
      (.error (.storage (.rebuildInvariant ("sequence " ++ toString envelope.sequence.toNat
        ++ " exceeds the i64 column" : String))), s)
    else
      match s.journal.find? fun row => row.eventId == envelope.eventId.asStr with
      | some existing =>
        if existing.payload = bytes then (.ok (.duplicate existing.seq), s)
        else (.error (.storage (.eventIdCollision envelope.eventId.asStr existing.seq)), s)
      | none =>
        let row : JournalRow :=
          { seq := journalMaxSeq s.journal + 1
            eventId := envelope.eventId.asStr
            threadId := envelope.threadId.map Id.asStr
            turnId := envelope.turnId.map Id.asStr
            streamSequence := envelope.sequence.toNat
            kind := envelope.kindName
            payload := bytes
            occurredAt := envelope.occurredAt.toNat }
        (.ok (.appended row.seq), s.insertRow row)

/-- The rows of a thread. -/
def ofThread (journal : List JournalRow) (thread : String) : List JournalRow :=
  journal.filter fun row => row.threadId = some thread

/-- The aggregates of a thread, joined with the row that has its last sequence. -/
def joined (journal : List JournalRow) (thread : String) : List (String × ThreadSummary) :=
  let rows := ofThread journal thread
  let firstSeq := (rows.map JournalRow.seq).min?.getD 0
  let lastSeq := (rows.map JournalRow.seq).max?.getD 0
  (journal.filter fun j => j.threadId = some thread ∧ j.seq = lastSeq).map fun j =>
    (thread, ⟨rows.length, firstSeq, j.seq, j.eventId, j.kind, j.occurredAt⟩)

/-- Rebuilds the summaries and the marker from the journal; returns the number of rows. -/
def rebuildProjections (s : ProtocolStore) : Int × ProtocolStore :=
  let threads := (s.journal.filterMap JournalRow.threadId).dedup
  (s.journal.length,
    { journal := s.journal
      threadProjection := (threads.flatMap (joined s.journal)).foldl
        (fun table row => table.insert row.1 row.2) ∅
      marker := some ⟨journalMaxSeq s.journal, projectionVersion,
        (s.journal.map JournalRow.occurredAt).max?.getD 0⟩ })

/-- The store under any sequence of appends. -/
def appending : Machine ProtocolStore ProtocolEnvelope := ⟨empty, fun s e => (s.appendEvent e).2⟩

/-! ## Summaries -/

/-- What the upserts make of the rows of a thread. -/
def summary (rows : List JournalRow) : Option ThreadSummary :=
  rows.foldl (fun old row => some (upsertSummary old row)) none

theorem summary_concat (rows : List JournalRow) (row : JournalRow) :
    summary (rows ++ [row]) = some (upsertSummary (summary rows) row) := by
  rw [summary, List.foldl_append]
  rfl

/-- The count and the first sequence of the rows, and the columns of the last. -/
theorem summary_eq (front : List JournalRow) (last : JournalRow) :
    summary (front ++ [last]) = some ⟨(front ++ [last]).length,
      ((front ++ [last]).head?.map JournalRow.seq).getD 0, last.seq, last.eventId, last.kind,
      last.occurredAt⟩ := by
  induction front using List.reverseRecOn generalizing last with
  | nil => rfl
  | append_singleton front row ih =>
    rw [summary_concat, ih, upsertSummary, @List.length_append _ (front ++ [row])]
    cases front <;> simp

section Ascending

variable {journal : List JournalRow} (hascending : journal.Pairwise fun a b => a.seq < b.seq)
include hascending

theorem max?_seq {front : List JournalRow} {last : JournalRow} (h : journal = front ++ [last]) :
    (journal.map JournalRow.seq).max? = some last.seq := by
  subst h
  rw [List.pairwise_append] at hascending
  rw [List.max?_eq_some_iff]
  refine ⟨by simp, fun seq hseq => ?_⟩
  obtain ⟨row, hrow, rfl⟩ := List.mem_map.1 hseq
  rcases List.mem_append.1 hrow with hrow | hrow
  · exact Int.le_of_lt (hascending.2.2 row hrow last (List.mem_singleton_self last))
  · exact Int.le_of_eq (congrArg JournalRow.seq (List.mem_singleton.1 hrow))

theorem min?_seq : (journal.map JournalRow.seq).min? = journal.head?.map JournalRow.seq := by
  cases journal with
  | nil => rfl
  | cons first rows =>
    rw [List.pairwise_cons] at hascending
    rw [List.head?_cons, Option.map_some, List.min?_eq_some_iff]
    refine ⟨by simp, fun seq hseq => ?_⟩
    obtain ⟨row, hrow, rfl⟩ := List.mem_map.1 hseq
    rcases List.mem_cons.1 hrow with rfl | hrow
    · exact Int.le_refl _
    · exact Int.le_of_lt (hascending.1 row hrow)

/-- Where the sequences ascend, the join finds the one last row of a thread, and what it is
joined with is the summary. -/
theorem joined_eq {thread : String} (h : ofThread journal thread ≠ []) :
    ∃ row, joined journal thread = [(thread, row)] ∧ summary (ofThread journal thread) = some row := by
  have hrows : (ofThread journal thread).Pairwise fun a b => a.seq < b.seq :=
    hascending.filter _
  obtain ⟨front, last, hlast⟩ := (List.eq_nil_or_concat _).resolve_left h
  rw [List.concat_eq_append] at hlast
  have hjoin : (journal.filter fun j => j.threadId = some thread ∧ j.seq = last.seq) = [last] := by
    have hsplit : (journal.filter fun j => j.threadId = some thread ∧ j.seq = last.seq) =
        (ofThread journal thread).filter fun j => j.seq = last.seq := by
      rw [ofThread, List.filter_filter]
      exact List.filter_congr fun j _ => by simp [and_comm]
    have hfront : front.filter (fun j => j.seq = last.seq) = [] := by
      rw [hlast, List.pairwise_append] at hrows
      refine List.filter_eq_nil_iff.2 fun j hj => ?_
      have := hrows.2.2 j hj last (List.mem_singleton_self last)
      simp
      omega
    rw [hsplit, hlast, List.filter_append, hfront]
    simp
  refine ⟨_, ?_, hlast ▸ summary_eq front last⟩
  simp only [joined, max?_seq hrows hlast, min?_seq hrows, Option.getD_some, hjoin,
    List.map_singleton]

/-- The rebuilt summaries. -/
theorem getElem?_rebuilt {threads : List String} (h : ∀ t ∈ threads, ofThread journal t ≠ [])
    (table : Table String ThreadSummary) (thread : String) :
    ((threads.flatMap (joined journal)).foldl (fun table row => table.insert row.1 row.2)
      table)[thread]? =
      if thread ∈ threads then summary (ofThread journal thread) else table[thread]? := by
  induction threads generalizing table with
  | nil => rfl
  | cons t threads ih =>
    rw [List.forall_mem_cons] at h
    obtain ⟨row, hjoined, hsummary⟩ := joined_eq hascending h.1
    rw [List.flatMap_cons, hjoined, List.singleton_append, List.foldl_cons, ih h.2,
      Table.getElem?_insert_eq]
    by_cases ht : t = thread
    · subst ht
      simp [hsummary]
    · simp [ht, Ne.symm ht]

end Ascending

theorem ofThread_ne_nil {journal : List JournalRow} {thread : String} :
    ofThread journal thread ≠ [] ↔ thread ∈ (journal.filterMap JournalRow.threadId).dedup := by
  rw [List.mem_dedup, List.mem_filterMap, ofThread, Ne, List.filter_eq_nil_iff]
  simp

/-! ## Runs -/

/-- The summaries and the marker are those of the journal. -/
structure Current (s : ProtocolStore) : Prop where
  ascending : s.journal.Pairwise fun a b => a.seq < b.seq
  summaries : ∀ thread, s.threadProjection[thread]? = summary (ofThread s.journal thread)
  marker : s.marker.map ProtocolMarker.journalMaxSeq =
    if s.journal = [] then none else some (journalMaxSeq s.journal)

theorem seq_le_journalMaxSeq {journal : List JournalRow} {row : JournalRow} (h : row ∈ journal) :
    row.seq ≤ journalMaxSeq journal := by
  have hmem := List.mem_map_of_mem (f := JournalRow.seq) h
  unfold journalMaxSeq
  cases hmax : (journal.map JournalRow.seq).max? with
  | none =>
    rw [List.max?_eq_none_iff.1 hmax] at hmem
    cases hmem
  | some m => exact (List.max?_eq_some_iff.1 hmax).2 _ hmem

/-- A row behind the last is taken in. -/
theorem Current.insertRow {s : ProtocolStore} (h : s.Current) {row : JournalRow}
    (hseq : row.seq = journalMaxSeq s.journal + 1) : (s.insertRow row).Current := by
  have hascending : (s.journal ++ [row]).Pairwise fun a b => a.seq < b.seq := by
    refine List.pairwise_append.2 ⟨h.ascending, List.pairwise_singleton _ _, fun a ha b hb => ?_⟩
    have := seq_le_journalMaxSeq ha
    rw [List.mem_singleton.1 hb]
    omega
  refine ⟨hascending, fun thread => ?_, ?_⟩
  · have hrows : ofThread (s.journal ++ [row]) thread =
        ofThread s.journal thread ++ if row.threadId = some thread then [row] else [] := by
      rw [ofThread, List.filter_append, ofThread]
      by_cases hthread : row.threadId = some thread <;> simp [hthread]
    simp only [ProtocolStore.insertRow, hrows]
    cases hid : row.threadId with
    | none => simpa using h.summaries thread
    | some id =>
      rw [Table.getElem?_insert_eq]
      by_cases hthread : id = thread
      · subst hthread
        rw [if_pos rfl, if_pos rfl, summary_concat, ← h.summaries]
      · rw [if_neg hthread, if_neg (fun heq => hthread (Option.some.inj heq)), List.append_nil]
        exact h.summaries thread
  · have hmax : journalMaxSeq (s.journal ++ [row]) = row.seq := by
      rw [journalMaxSeq, max?_seq hascending rfl, Option.getD_some]
    simp [ProtocolStore.insertRow, hmax]

/-- What an append does. -/
theorem appendEvent_cases (s : ProtocolStore) (envelope : ProtocolEnvelope) :
    ((∀ seq, (s.appendEvent envelope).1 ≠ .ok (.appended seq)) ∧ (s.appendEvent envelope).2 = s) ∨
      ∃ row, row.seq = journalMaxSeq s.journal + 1 ∧
        s.appendEvent envelope = (.ok (.appended row.seq), s.insertRow row) := by
  unfold appendEvent
  split
  · exact .inl ⟨nofun, rfl⟩
  split
  · exact .inl ⟨nofun, rfl⟩
  split
  · exact .inl ⟨nofun, rfl⟩
  split
  · exact .inl ⟨nofun, rfl⟩
  split
  · split
    · exact .inl ⟨nofun, rfl⟩
    · exact .inl ⟨nofun, rfl⟩
  · exact .inr ⟨_, rfl, rfl⟩

theorem current_run (envelopes : List ProtocolEnvelope) : (appending.run envelopes).Current := by
  refine appending.invariant (I := Current) (fun s envelope h => ?_)
    ⟨List.Pairwise.nil, fun thread => rfl, rfl⟩ envelopes
  obtain ⟨-, hsame⟩ | ⟨row, hseq, happend⟩ := s.appendEvent_cases envelope
  · simp only [appending, hsame]
    exact h
  · simp only [appending, happend]
    exact h.insertRow hseq

/-- After any appends the summaries are those a rebuild makes of the journal, and so is
the marker, which is there once a row is; a call that appends nothing changes nothing. -/
theorem rebuildProjections_run (envelopes : List ProtocolEnvelope) :
    let s := appending.run envelopes
    s.threadProjection = s.rebuildProjections.2.threadProjection ∧
    s.marker.map ProtocolMarker.journalMaxSeq =
      (if s.journal = [] then none
        else s.rebuildProjections.2.marker.map ProtocolMarker.journalMaxSeq) ∧
    ∀ envelope, (∀ seq, (s.appendEvent envelope).1 ≠ .ok (.appended seq)) →
      (s.appendEvent envelope).2 = s := by
  intro s
  have h : s.Current := current_run envelopes
  refine ⟨Std.ExtTreeMap.ext_getElem? fun thread => ?_, h.marker, fun envelope hrefused => ?_⟩
  · simp only [rebuildProjections]
    rw [h.summaries, getElem?_rebuilt h.ascending fun t ht => ofThread_ne_nil.2 ht]
    split
    · rfl
    · rename_i hnone
      rw [not_not.1 (mt ofThread_ne_nil.1 hnone)]
      rfl
  · obtain ⟨-, hsame⟩ | ⟨row, -, happend⟩ := s.appendEvent_cases envelope
    · exact hsame
    · rw [happend] at hrefused
      exact absurd rfl (hrefused row.seq)

/-- Before the first append there is no marker, and a rebuild writes one. -/
theorem rebuildProjections_empty : ¬ ∀ envelopes : List ProtocolEnvelope,
    (appending.run envelopes).marker.map ProtocolMarker.journalMaxSeq =
      (appending.run envelopes).rebuildProjections.2.marker.map ProtocolMarker.journalMaxSeq := by
  intro h
  have hempty := h []
  cases hempty

end ProtocolStore

end Altior.Storage
