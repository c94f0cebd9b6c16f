import Altior.Storage.Columns
import Altior.Storage.Supersession
import Altior.Storage.Sweep

/-!
# Corrections

A correction journals the replacement and the supersession one after the other
(`correct_memory` in `altior-storage/src/memory.rs`).  The main result says when the two
come to one: when the second event is refused after the first, or when the first one
confirmed a candidate that says something else, the caller is told otherwise.
-/

namespace Altior.Storage

open Domain Lib SerdeJson

/-! ## What a record says -/

/-- A text or `null` of an object reads back. -/
theorem getStr_nullable {v : Json} {k : String} {o : Option String}
    (h : v.get k = some (.scalar (nullable o))) : v.getStr k = o := by
  unfold Json.getStr
  rw [h]
  cases o <;> rfl

/-- The columns of a scope are those of that scope. -/
theorem tryFromParts_scopeColumns (scope : MemoryScope) :
    MemoryScope.tryFromParts (scopeColumns scope).1 (scopeColumns scope).2 = .ok scope := by
  cases scope with
  | global => rfl
  | person target | project target | thread target =>
    change (BoundedLabel.tryFrom (String.ofList target.chars)).map _ = _
    rw [target.tryFrom_ofList]
    rfl

theorem MemoryState.tryFromStr_asStr (state : MemoryState) :
    MemoryState.tryFromStr state.asStr = .ok state := by
  cases state <;> rfl

variable {p : Projections}

/-- What is read under an identifier comes from a row that decodes. -/
theorem getMemory_eq_some {memoryId : MemoryId} {record : MemoryRecord} :
    getMemory p memoryId = .ok (some record) ↔
      ∃ row, p.memory[memoryId.asStr]? = some row ∧ rowToMemoryRecord memoryId.asStr row = .ok record := by
  unfold getMemory readRow
  cases p.memory[memoryId.asStr]? with
  | none => simp [readOption]
  | some row =>
    cases h : rowToMemoryRecord memoryId.asStr row <;>
      simp [readOption, h, Functor.map, Except.map]

/-- Under the identifier a memory is read in the state, with the content, scope and kind of
the draft. -/
def Says (draft : Domain.MemoryDraft) (memoryId : MemoryId) (state : MemoryState)
    (p : Projections) : Prop :=
  ∃ record, getMemory p memoryId = .ok (some record) ∧ record.state = state ∧
    record.content = draft.content ∧ record.scope = draft.scope ∧ record.kind = draft.kind

/-- The row decodes to a record in the state, with the content, scope and kind of the draft. -/
structure RowSays (draft : Domain.MemoryDraft) (memoryId : MemoryId) (state : MemoryState)
    (row : MemoryRow) : Prop where
  decodes : row.Decodes memoryId.asStr
  content : MemoryContent.tryFrom row.content = .ok draft.content
  scope : MemoryScope.tryFromParts row.scopeKind row.scopeTarget = .ok draft.scope
  kind : MemoryKind.tryFromStr row.kind = .ok draft.kind
  state : row.state = state.asStr

theorem asStr_inj {a b : MemoryState} (h : a.asStr = b.asStr) : a = b :=
  Except.ok.inj ((MemoryState.tryFromStr_asStr a).symm.trans (h ▸ MemoryState.tryFromStr_asStr b))

theorem says_iff {draft : Domain.MemoryDraft} {memoryId : MemoryId} {state : MemoryState} :
    Says draft memoryId state p ↔
      ∃ row, p.memory[memoryId.asStr]? = some row ∧ RowSays draft memoryId state row := by
  constructor
  · rintro ⟨record, hget, rfl, hcontent, hscope, hkind⟩
    obtain ⟨row, hrow, hread⟩ := getMemory_eq_some.1 hget
    have hfrom := readFrom_of_rowToMemoryRecord hread
    exact ⟨row, hrow, exists_rowToMemoryRecord.1 ⟨record, hread⟩, hcontent ▸ hfrom.content,
      hscope ▸ hfrom.scope, hkind ▸ hfrom.kind, hfrom.state⟩
  · rintro ⟨row, hrow, hreads⟩
    obtain ⟨record, hread⟩ := exists_rowToMemoryRecord.2 hreads.decodes
    have hfrom := readFrom_of_rowToMemoryRecord hread
    refine ⟨record, getMemory_eq_some.2 ⟨row, hrow, hread⟩, ?_, ?_, ?_, ?_⟩
    · exact asStr_inj (hfrom.state.symm.trans hreads.state)
    · exact Except.ok.inj (hfrom.content.symm.trans hreads.content)
    · exact Except.ok.inj (hfrom.scope.symm.trans hreads.scope)
    · exact Except.ok.inj (hfrom.kind.symm.trans hreads.kind)

/-! ## One event -/

section Store

variable [SerdeJsonWriter]

/-- The append of the event finds it in the journal. -/
def Repeats (s : DomainStore) (e : DomainEvent) : Prop :=
  ∃ n s', appendDomainEvent s e = .ok (.duplicate n, s')

/-- An accepted event is journaled and folded. -/
structure Journaled (e : DomainEvent) (s s' : DomainStore) : Prop where
  unused : ∀ row ∈ s.journal, row.eventId ≠ e.eventId.asStr
  valid : validateDomainEventInTx s.projections e = .ok ()
  folded : ∃ seq, foldDomainEventInTx s.projections e seq e.occurredAt.toNat = .ok s'.projections
  journal : ∃ seq, s'.journal = s.journal ++ [durableRow seq e]

theorem Journaled.grows {e : DomainEvent} {s s' : DomainStore} (h : Journaled e s s') :
    s.journal.length < s'.journal.length := by
  obtain ⟨seq, hjournal⟩ := h.journal
  rw [hjournal, List.length_append]
  exact Nat.lt_succ_self _

/-- An append is refused, finds the event, or journals it. -/
theorem appendEvent_cases (s : DomainStore) (e : DomainEvent) :
    (¬ Accepts s e ∧ ¬ Repeats s e ∧ ∃ err, appendEvent e s none = ⟨.failed err, s, none⟩) ∨
    (¬ Accepts s e ∧ Repeats s e ∧ appendEvent e s none = ⟨.done (), s, none⟩) ∨
    (Accepts s e ∧ ¬ Repeats s e ∧
      ∃ s', appendEvent e s none = ⟨.done (), s', none⟩ ∧ Journaled e s s') := by
  rw [appendEvent_run]
  cases happend : appendDomainEvent s e with
  | error err =>
    refine .inl ⟨?_, ?_, _, rfl⟩
    all_goals
      rintro ⟨n, s', h⟩
      rw [happend] at h
      cases h
  | ok out =>
    obtain ⟨o, s'⟩ := out
    obtain ⟨row, -, -, rfl, rfl⟩ | ⟨p, -, hnew, hvalid, hfold, rfl, rfl⟩ :=
      appendDomainEvent_cases happend
    · refine .inr (.inl ⟨?_, ⟨_, _, happend⟩, rfl⟩)
      rintro ⟨n, s', h⟩
      rw [happend] at h
      cases h
    · refine .inr (.inr ⟨⟨_, _, happend⟩, ?_, _, rfl, ?_⟩)
      · rintro ⟨n, s', h⟩
        rw [happend] at h
        cases h
      · exact ⟨existingDomainEvent_eq_none.1 hnew, hvalid, ⟨_, hfold⟩, ⟨_, rfl⟩⟩

/-- What is accepted or found has a time that fits the column. -/
theorem occurredAt_le_of_append {s s' : DomainStore} {e : DomainEvent} {o : AppendOutcome}
    (h : appendDomainEvent s e = .ok (o, s')) : e.occurredAt.toNat ≤ i64Max := by
  unfold appendDomainEvent at h
  split at h
  · cases h
  · split at h
    · cases h
    · exact Nat.not_lt.1 ‹_›

/-- A memory that has to be there is read, or the call fails; the store stays. -/
theorem fetchMemory_cases (memoryId : MemoryId) (s : DomainStore) :
    (∃ record, getMemory s.projections memoryId = .ok (some record) ∧
      fetchMemory memoryId s none = ⟨.done record, s, none⟩) ∨
    ((∀ record, getMemory s.projections memoryId ≠ .ok (some record)) ∧
      ∃ err, fetchMemory memoryId s none = ⟨.failed err, s, none⟩) := by
  unfold fetchMemory
  rw [Proc.bind_run]
  dsimp only [Proc.get]
  cases getMemory s.projections memoryId with
  | error e => exact .inr ⟨by rintro _ ⟨⟩, _, rfl⟩
  | ok found => cases found with
    | none => exact .inr ⟨by rintro _ ⟨⟩, _, rfl⟩
    | some record => exact .inl ⟨record, rfl, rfl⟩

/-! ## The two events -/

/-- The memory that takes over. -/
def replacementId (draft : Domain.MemoryDraft) (occurredAt : UInt64) : MemoryId :=
  draft.id.getD (generateMemoryId occurredAt 4)

/-- The event that confirms the replacement. -/
def replacementEvent (draft : Domain.MemoryDraft) (occurredAt : UInt64) :
    Except EntityError DomainEvent :=
  (EventPayload.tryFrom (SerdeJsonWriter.toVec
    (.flat (draftFields (replacementId draft occurredAt) draft "confirmed")))).map fun payload =>
      ⟨generateEventId occurredAt 5, draft.provenance.threadId, draft.provenance.turnId, none,
        .memoryConfirmed, payload, occurredAt⟩

/-- The event that supersedes the original. -/
def supersessionEvent (memoryId : MemoryId) (existing : MemoryRecord) (draft : Domain.MemoryDraft)
    (occurredAt : UInt64) : Except EntityError DomainEvent :=
  (EventPayload.tryFrom (SerdeJsonWriter.toVec (.flat [("memory_id", .string memoryId.asStr),
    ("superseded_by", .string (replacementId draft occurredAt).asStr)]))).map fun payload =>
      ⟨generateEventId occurredAt 6, existing.provenance.threadId, existing.provenance.turnId, none,
        .memorySuperseded, payload, occurredAt⟩

/-- Appends an event whose payload could be written. -/
def journalEvent : Except EntityError DomainEvent → MemoryProc Unit
  | .error e => .fail (.storage (.invalidDomainEvent (.entityError "" e)))
  | .ok e => appendEvent e

/-- The checks at the start of a correction pass. -/
structure Checked (memoryId : MemoryId) (draft : Domain.MemoryDraft) (existing : MemoryRecord)
    (s : DomainStore) : Prop where
  valid : validateDraftBeforeAppend draft = .ok ()
  found : getMemory s.projections memoryId = .ok (some existing)
  confirmed : existing.state = .confirmed
  current : existing.supersededBy = none

theorem journalMemory_eq (eventId : EventId) (kind : DomainEventKind) (threadId : Option ThreadId)
    (turnId : Option TurnId) (fields : List (String × Scalar)) (t : UInt64) :
    journalMemory eventId kind threadId turnId fields t =
      journalEvent ((EventPayload.tryFrom (SerdeJsonWriter.toVec (.flat fields))).map fun payload =>
        ⟨eventId, threadId, turnId, none, kind, payload, t⟩) := by
  unfold journalMemory
  cases EventPayload.tryFrom (SerdeJsonWriter.toVec (.flat fields)) <;> rfl

section Call

variable {memoryId : MemoryId} {draft : Domain.MemoryDraft} {t : UInt64} {existing : MemoryRecord}
  {s : DomainStore}

/-- A correction whose checks pass is its two events and a read. -/
theorem correctMemory_checked (h : Checked memoryId draft existing s) :
    correctMemory memoryId draft t s none =
      (journalEvent (replacementEvent draft t) >>= fun _ =>
        journalEvent (supersessionEvent memoryId existing draft t) >>= fun _ =>
          fetchMemory (replacementId draft t)) s none := by
  have hfetch : fetchMemory memoryId s none = ⟨.done existing, s, none⟩ := by
    rcases fetchMemory_cases memoryId s with ⟨record, hget, hrun⟩ | ⟨hnone, -⟩
    · rw [h.found] at hget
      cases hget
      exact hrun
    · exact absurd h.found (hnone existing)
  have hvalid : (Proc.ofExcept (validateDraftBeforeAppend draft) : MemoryProc Unit) s none =
      ⟨.done (), s, none⟩ := by
    rw [h.valid]
    rfl
  have hpass : ¬ (existing.state ≠ .confirmed ∨ existing.supersededBy.isSome) := by
    rw [h.confirmed, h.current]
    decide
  unfold correctMemory
  rw [Proc.bind_run_done _ _ hvalid, Proc.bind_run_done _ _ hfetch, if_neg hpass]
  simp only [journalMemory_eq]
  rfl

/-- A correction whose checks do not pass changes nothing. -/
theorem correctMemory_unchecked (h : ∀ existing, ¬ Checked memoryId draft existing s) :
    ∃ err, correctMemory memoryId draft t s none = ⟨.failed err, s, none⟩ := by
  unfold correctMemory
  cases hvalid : validateDraftBeforeAppend draft with
  | error err => exact ⟨err, rfl⟩
  | ok _ =>
    have hdone : (Proc.ofExcept (.ok ()) : MemoryProc Unit) s none = ⟨.done (), s, none⟩ := rfl
    rw [Proc.bind_run_done _ _ hdone]
    rcases fetchMemory_cases memoryId s with ⟨existing, hget, hrun⟩ | ⟨-, err, hrun⟩
    · rw [Proc.bind_run_done _ _ hrun, if_pos]
      · exact ⟨_, rfl⟩
      · by_contra hpass
        obtain ⟨hstate, hcurrent⟩ := not_or.1 hpass
        exact h existing ⟨hvalid, hget, not_not.1 hstate, Option.not_isSome_iff_eq_none.1 hcurrent⟩
    · exact ⟨err, Proc.bind_run_failed _ _ hrun⟩

end Call

/-! ## What the replacement does -/

section Replacement

variable [LawfulWriter] {draft : Domain.MemoryDraft} {t : UInt64} {s s' : DomainStore}

omit [SerdeJsonWriter] [LawfulWriter] in
/-- A row made of the draft's payload says what the draft says. -/
theorem rowSays_draftRow {v : Json} {memoryId : MemoryId} {at_ : Int} (hat : 0 ≤ at_)
    (hget : ∀ k a, (k, a) ∈ draftFields memoryId draft "confirmed" → v.get k = some (.scalar a))
    (hchecked : CheckedDraft v) :
    RowSays draft memoryId .confirmed (draftRow v "confirmed" "explicit" true at_) := by
  have hcontent : v.getStr "content" = some (String.ofList draft.content.chars) :=
    getStr_nullable (hget "content" _ (by simp [draftFields, nullable]))
  have hscope : v.getStr "scope_kind" = some (scopeColumns draft.scope).1 :=
    getStr_nullable (hget "scope_kind" _ (by simp [draftFields, nullable]))
  have htarget : v.getStr "scope_target" = (scopeColumns draft.scope).2 :=
    getStr_nullable (hget "scope_target" _ (by simp [draftFields]))
  have hkind : v.getStr "kind" = some draft.kind.asStr :=
    getStr_nullable (hget "kind" _ (by simp [draftFields, nullable]))
  have hthread : v.getStr "provenance_thread_id" = draft.provenance.threadId.map Id.asStr :=
    getStr_nullable (hget "provenance_thread_id" _ (by simp [draftFields]))
  have hturn : v.getStr "provenance_turn_id" = draft.provenance.turnId.map Id.asStr :=
    getStr_nullable (hget "provenance_turn_id" _ (by simp [draftFields]))
  have hexpires := hget "expires_at" (draft.expiresAt.elim .null fun t => .number (.posInt t))
    (by simp [draftFields])
  refine ⟨(draftRow_decodes hchecked ⟨_, Id.parse_asStr memoryId⟩ hat ⟨.confirmed, rfl⟩
    ⟨.explicit, rfl⟩).2 ⟨?_, ?_, ?_⟩, ?_, ?_, ?_, rfl⟩
  · intro id hid
    obtain ⟨thread, -, rfl⟩ := Option.map_eq_some_iff.1 (hthread.symm.trans hid)
    exact ⟨thread, Id.parse_asStr thread⟩
  · intro id hid
    obtain ⟨turn, -, rfl⟩ := Option.map_eq_some_iff.1 (hturn.symm.trans hid)
    exact ⟨turn, Id.parse_asStr turn⟩
  · intro n hn
    unfold Json.getI64 at hn
    rw [hexpires] at hn
    cases hdraft : draft.expiresAt with
    | none => rw [hdraft] at hn; cases hn
    | some expiresAt =>
      rw [hdraft] at hn
      obtain ⟨-, heq⟩ := Option.ite_none_right_eq_some.1 hn
      cases heq
      exact Int.natCast_nonneg _
  · simp only [draftRow, hcontent, Option.getD_some, draft.content.tryFrom_ofList]
  · simp only [draftRow, hscope, htarget, Option.getD_some, tryFromParts_scopeColumns]
  · simp only [draftRow, hkind, Option.getD_some, MemoryKind.tryFromStr_asStr]

omit [SerdeJsonWriter] [LawfulWriter] in
/-- Confirming a candidate changes nothing of what it says. -/
theorem rowSays_confirmed {row : MemoryRow} {memoryId : MemoryId} {at_ : Int} (hat : 0 ≤ at_)
    (hrow : 0 ≤ row.updatedAt) (hstate : row.state = "candidate") :
    RowSays draft memoryId .confirmed { row with state := "confirmed", updatedAt := at_ } ↔
      RowSays draft memoryId .candidate row := by
  constructor
  · intro h
    exact ⟨{ h.decodes with state := hstate ▸ ⟨.candidate, rfl⟩, updatedAt := hrow }, h.content,
      h.scope, h.kind, hstate⟩
  · intro h
    exact ⟨{ h.decodes with state := ⟨.confirmed, rfl⟩, updatedAt := hat }, h.content, h.scope,
      h.kind, rfl⟩

/-- What the confirmation of the replacement leaves behind. -/
structure Replaced (draft : Domain.MemoryDraft) (memoryId : MemoryId) (s s' : DomainStore) :
    Prop where
  other : ∀ m, memoryId.asStr ≠ m → s'.projections.memory[m]? = s.projections.memory[m]?
  candidate : ∀ row, s.projections.memory[memoryId.asStr]? = some row → row.state = "candidate"
  readsBack : Says draft memoryId .confirmed s'.projections ↔
    memoryId.asStr ∉ s.projections.memory ∨ Says draft memoryId .candidate s.projections
  thread : ∀ k, k ∈ s'.projections.thread ↔ k ∈ s.projections.thread

theorem replaced_of_journaled {e : DomainEvent} (he : replacementEvent draft t = .ok e)
    (h : Journaled e s s')
    (htimes : ∀ (id : String) row, s.projections.memory[id]? = some row → 0 ≤ row.updatedAt) :
    Replaced draft (replacementId draft t) s s' := by
  obtain ⟨payload, hpayload, rfl⟩ := map_eq_ok.1 he
  obtain ⟨v, hv, hget⟩ := EventPayload.get_of_tryFrom (draftFields_nodup ..) hpayload
  have hid : memoryIdOf ⟨generateEventId t 5, draft.provenance.threadId, draft.provenance.turnId,
      none, .memoryConfirmed, payload, t⟩ = (replacementId draft t).asStr :=
    memoryIdOf_payload hpayload (draftFields_nodup ..) (mem_draftFields ..)
  obtain ⟨seq, hfold⟩ := h.folded
  have hat : (0 : Int) ≤ t.toNat := Int.natCast_nonneg _
  have hstep := memory_step h.valid hfold
  refine ⟨fun m hm => hstep.other (hid ▸ hm), fun row hrow => ?_, ?_,
    mem_thread_memoryEvent hfold rfl⟩
  · cases hstep with
    | same hnot => cases hnot
    | create _ _ _ hnew => rw [hid, hrow] at hnew; cases hnew
    | move hold hmove =>
      rw [hid] at hold
      obtain rfl := Option.some.inj (hold.symm.trans hrow)
      cases hmove with
      | confirm _ hstate => exact hstate
      | reject hk | supersede hk | forget hk | expire hk => cases hk
  · simp only [says_iff]
    cases hstep with
    | same hnot => cases hnot
    | @create v' row hv' hchecked hdraft hnew hmemory =>
      obtain rfl := Option.some.inj (hv.symm.trans hv')
      rw [hid] at hnew hmemory
      rw [hmemory]
      refine iff_of_true ⟨row, Table.getElem?_insert_same .., ?_⟩ (.inl (Table.not_mem_iff.2 hnew))
      cases hdraft with
      | proposed hk => cases hk
      | confirmed => exact rowSays_draftRow hat hget hchecked
    | @move row row' hold hmove hmemory =>
      rw [hid] at hold hmemory
      rw [hmemory]
      cases hmove with
      | reject hk | supersede hk | forget hk | expire hk => cases hk
      | confirm _ hstate =>
        have hreads : RowSays draft (replacementId draft t) .confirmed
            { row with state := "confirmed", updatedAt := t.toNat } ↔
              RowSays draft (replacementId draft t) .candidate row :=
          rowSays_confirmed hat (htimes _ row hold) hstate
        simp only [Table.getElem?_insert_same, hold, Option.some.injEq, exists_eq_left', hreads]
        exact (or_iff_right fun hnot => hnot (Table.mem_iff.2 ⟨row, hold⟩)).symm

end Replacement

/-! ## What the supersession does -/

/-- The journal takes the supersession as a new event. -/
structure Supersedable (existing : MemoryRecord) (occurredAt : UInt64) (s : DomainStore) : Prop where
  unused : ∀ row ∈ s.journal, row.eventId ≠ (generateEventId occurredAt 6).asStr
  thread : ∀ thr, existing.provenance.threadId = some thr → thr.asStr ∈ s.projections.thread

/-- What the supersession leaves behind. -/
structure Superseded (memoryId other : MemoryId) (occurredAt : UInt64) (s s' : DomainStore) :
    Prop where
  grows : s.journal.length < s'.journal.length
  memory : ∃ row : MemoryRow, row.Decodes memoryId.asStr ∧
    s.projections.memory[memoryId.asStr]? = some row ∧
    s'.projections.memory = s.projections.memory.insert memoryId.asStr
      { row with supersededBy := some other.asStr, updatedAt := occurredAt.toNat }

section Supersession

variable [LawfulWriter] [CompactWriter] {draft : Domain.MemoryDraft} {t : UInt64}
  {s s' : DomainStore} {memoryId : MemoryId} {existing : MemoryRecord}

/-- The payload of a supersession is always written. -/
theorem exists_supersessionPayload (memoryId other : MemoryId) : ∃ payload,
    EventPayload.tryFrom (SerdeJsonWriter.toVec (.flat [("memory_id", .string memoryId.asStr),
      ("superseded_by", .string other.asStr)])) = .ok payload := by
  refine EventPayload.exists_of_len supersedeKeys_nodup ?_
  have hlen := CompactWriter.len_toVec [("memory_id", memoryId.asStr), ("superseded_by", other.asStr)]
  have hid := memoryId.length_asStr_le
  have hother := other.length_asStr_le
  have hsize := utf8ByteSize_le memoryId.asStr
  have hsize' := utf8ByteSize_le other.asStr
  rw [← String.length_toList] at hsize hsize'
  simp only [List.map_cons, List.map_nil, List.sum_cons, List.sum_nil] at hlen
  rw [show "memory_id".utf8ByteSize = 9 from rfl,
    show "superseded_by".utf8ByteSize = 13 from rfl] at hlen
  rw [show "mem_".toList.length = 4 from rfl] at hid hother
  unfold maxBodyLen at hid hother
  unfold maxEventPayloadBytes
  omega

omit [SerdeJsonWriter] [LawfulWriter] [CompactWriter] in
theorem req_memoryId {v : Json} {k : String} {memoryId : MemoryId}
    (h : v.getStr k = some memoryId.asStr) : req v k = .ok memoryId.asStr := by
  have hne : memoryId.asStr.isEmpty = false := by
    rw [← Bool.not_eq_true, String.isEmpty_iff]
    intro hempty
    have hvalid := memoryId.valid
    rw [hempty] at hvalid
    cases hvalid
  unfold req
  rw [requireSome_eq_ok, h, Option.filter_eq_some_iff]
  exact ⟨rfl, by rw [hne]; rfl⟩

omit [LawfulWriter] [CompactWriter] in
/-- An accepted memory event is in the scope of a thread that is there. -/
theorem mem_thread_of_memory {e : DomainEvent} (h : validateDomainEventInTx p e = .ok ())
    (hkind : isMemoryKind e.kind = true) {thr : ThreadId} (hthr : e.threadId = some thr) :
    thr.asStr ∈ p.thread := by
  obtain ⟨⟨⟩, -, h⟩ := bind_eq_ok.1 h
  obtain ⟨_, -, h⟩ := bind_eq_ok.1 h
  rw [if_pos hkind] at h
  obtain ⟨⟨⟩, hscope, -⟩ := bind_eq_ok.1 h
  exact require_eq_ok.1 (whenSome_eq_ok.1 hscope thr hthr)

omit [CompactWriter] in
/-- The supersession is refused, or found, or new and journaled. -/
theorem supersession_cases {e : DomainEvent} (he : supersessionEvent memoryId existing draft t = .ok e)
    (hfound : getMemory s.projections memoryId = .ok (some existing))
    (hstate : existing.state = .confirmed) (hcurrent : existing.supersededBy = none)
    (ht : t.toNat ≤ i64Max) :
    (¬ Supersedable existing t s ∧ ¬ Repeats s e ∧
      ∃ err, appendEvent e s none = ⟨.failed err, s, none⟩) ∨
    (¬ Supersedable existing t s ∧ Repeats s e ∧ appendEvent e s none = ⟨.done (), s, none⟩) ∨
    (Supersedable existing t s ∧ ¬ Repeats s e ∧
      ∃ s', appendEvent e s none = ⟨.done (), s', none⟩ ∧
        Superseded memoryId (replacementId draft t) t s s') := by
  obtain ⟨payload, hpayload, rfl⟩ := map_eq_ok.1 he
  have hkeys : ([("memory_id", Scalar.string memoryId.asStr),
      ("superseded_by", .string (replacementId draft t).asStr)].map Prod.fst).Nodup :=
    supersedeKeys_nodup
  obtain ⟨v, hv, hget⟩ := EventPayload.getStr_of_tryFrom hkeys hpayload
  have hid : memoryIdOf ⟨generateEventId t 6, existing.provenance.threadId,
      existing.provenance.turnId, none, .memorySuperseded, payload, t⟩ = memoryId.asStr :=
    memoryIdOf_payload hpayload hkeys List.mem_cons_self
  have hother : v.getStr "superseded_by" = some (replacementId draft t).asStr :=
    hget _ _ (List.mem_cons_of_mem _ List.mem_cons_self)
  obtain ⟨row, hrow, hread⟩ := getMemory_eq_some.1 hfound
  have hfrom := readFrom_of_rowToMemoryRecord hread
  have hrowState : row.state = "confirmed" := by rw [hfrom.state, hstate]; rfl
  have hrowCurrent : row.supersededBy = none := by rw [hfrom.supersededBy, hcurrent]; rfl
  rcases appendEvent_cases s ⟨generateEventId t 6, existing.provenance.threadId,
      existing.provenance.turnId, none, .memorySuperseded, payload, t⟩ with
    ⟨hnot, hnew, hrun⟩ | ⟨-, hrepeats, hrun⟩ | ⟨-, hnew, s', hrun, hjournaled⟩
  · refine .inl ⟨fun h => hnot ?_, hnew, hrun⟩
    have hvalid : validateDomainEventInTx s.projections ⟨generateEventId t 6,
        existing.provenance.threadId, existing.provenance.turnId, none, .memorySuperseded, payload,
        t⟩ = .ok () :=
      validate_of_memory rfl hv (hget _ _ List.mem_cons_self) h.thread
        (bind_eq_ok.2 ⟨_, req_memoryId hother, bind_eq_ok.2 ⟨(),
          requireOk_eq_ok.2 ⟨_, Id.parse_asStr _⟩, bind_eq_ok.2 ⟨row, requireSome_eq_ok.2 hrow,
            require_eq_ok.2 ⟨hrowState, hrowCurrent⟩⟩⟩⟩)
    obtain ⟨p, hfold⟩ := exists_foldMemoryEvent hvalid rfl (domainJournalMaxSeq s.journal + 1) t.toNat
    exact ⟨_, _, append_of_fold ht (existingDomainEvent_eq_none.2 h.unused) hvalid hfold⟩
  · refine .inr (.inl ⟨fun h => ?_, hrepeats, hrun⟩)
    obtain ⟨n, s', happend⟩ := hrepeats
    obtain ⟨found, hmem, heq, -, -⟩ | ⟨p, -, -, -, -, ho, -⟩ := appendDomainEvent_cases happend
    · exact h.unused found hmem (congrArg DomainJournalRow.eventId heq)
    · cases ho
  · refine .inr (.inr ⟨⟨hjournaled.unused, fun thr hthr =>
      mem_thread_of_memory hjournaled.valid rfl hthr⟩, hnew, s', hrun, hjournaled.grows, ?_⟩)
    obtain ⟨seq, hfold⟩ := hjournaled.folded
    cases memory_step hjournaled.valid hfold with
    | same hnot => cases hnot
    | create _ _ _ hnone => rw [hid, hrow] at hnone; cases hnone
    | @move old new hold hmove hmemory =>
      rw [hid] at hold hmemory
      obtain rfl := Option.some.inj (hold.symm.trans hrow)
      cases hmove with
      | confirm hk | reject hk | forget hk | expire hk => cases hk
      | supersede =>
        refine ⟨old, exists_rowToMemoryRecord.1 ⟨existing, hread⟩, hold, ?_⟩
        rw [hmemory]
        unfold supersedingOf
        rw [extractJsonString_of_fromSlice hv, hother, Option.getD_some]

omit [LawfulWriter] [CompactWriter] in
/-- A supersession changes nothing of what the memories say. -/
theorem Superseded.says_iff {other read : MemoryId} (h : Superseded memoryId other t s s')
    {state : MemoryState} :
    Says draft read state s'.projections ↔ Says draft read state s.projections := by
  obtain ⟨row, hdecodes, hrow, hmemory⟩ := h.memory
  simp only [Storage.says_iff, hmemory]
  by_cases hthis : memoryId.asStr = read.asStr
  · obtain rfl := Id.asStr_inj.1 hthis
    simp only [Table.getElem?_insert_same, hrow, Option.some.injEq, exists_eq_left']
    constructor
    · intro hreads
      exact ⟨hdecodes, hreads.content, hreads.scope, hreads.kind, hreads.state⟩
    · intro hreads
      refine ⟨{ hdecodes with updatedAt := Int.natCast_nonneg _, supersededBy := ?_ },
        hreads.content, hreads.scope, hreads.kind, hreads.state⟩
      intro id hid
      cases hid
      exact ⟨other, Id.parse_asStr other⟩
  · rw [Table.getElem?_insert_of_ne _ _ hthis]

end Supersession

/-! ## Both together -/

/-- The record is the draft confirmed, and the original points to it. -/
structure Corrected (memoryId : MemoryId) (draft : Domain.MemoryDraft) (record : MemoryRecord)
    (p : Projections) : Prop where
  state : record.state = .confirmed
  content : record.content = draft.content
  scope : record.scope = draft.scope
  kind : record.kind = draft.kind
  superseded : ∃ row, p.memory[memoryId.asStr]? = some row ∧
    row.supersededBy = some record.memoryId.asStr

/-- The correction does both of its steps or none. -/
structure CorrectionAtomic (memoryId : MemoryId) (draft : Domain.MemoryDraft) (occurredAt : UInt64)
    (s : DomainStore) : Prop where
  done : ∀ record s', correctMemory memoryId draft occurredAt s none = ⟨.done record, s', none⟩ →
    Corrected memoryId draft record s'.projections
  failed : ∀ err s', correctMemory memoryId draft occurredAt s none = ⟨.failed err, s', none⟩ →
    s'.journal = s.journal ∧ s'.projections.memory = s.projections.memory

/-- Should the checks pass: a replacement the journal accepts is of a new memory, or of a
candidate that says the same, and the supersession is accepted behind it; a replacement
found in the journal is still there when the supersession is accepted, and the supersession
is not found as well. -/
def CorrectionOrderly (memoryId : MemoryId) (draft : Domain.MemoryDraft) (occurredAt : UInt64)
    (s : DomainStore) : Prop :=
  ∀ existing, Checked memoryId draft existing s → ∀ e, replacementEvent draft occurredAt = .ok e →
    (Accepts s e → Supersedable existing occurredAt s ∧
      ((replacementId draft occurredAt).asStr ∉ s.projections.memory ∨
        Says draft (replacementId draft occurredAt) .candidate s.projections)) ∧
    (Repeats s e →
      (Supersedable existing occurredAt s →
        Says draft (replacementId draft occurredAt) .confirmed s.projections) ∧
      ∀ e', supersessionEvent memoryId existing draft occurredAt = .ok e' → Repeats s e' →
        ∀ record, getMemory s.projections (replacementId draft occurredAt) ≠ .ok (some record))

section Correction

variable {draft : Domain.MemoryDraft} {t : UInt64} {s s' : DomainStore} {memoryId : MemoryId}
  {existing : MemoryRecord}

/-- A correction that failed without a trace. -/
theorem correctionAtomic_of_failed {err : MemoryError}
    (h : correctMemory memoryId draft t s none = ⟨.failed err, s, none⟩) :
    CorrectionAtomic memoryId draft t s where
  done record s' hdone := by
    rw [h] at hdone
    cases hdone
  failed err' s' hfailed := by
    rw [h] at hfailed
    cases hfailed
    exact ⟨rfl, rfl⟩

/-- A correction that failed after the replacement. -/
theorem not_correctionAtomic_of_failed {err : MemoryError}
    (h : correctMemory memoryId draft t s none = ⟨.failed err, s', none⟩)
    (hgrows : s.journal.length < s'.journal.length) : ¬ CorrectionAtomic memoryId draft t s :=
  fun hatomic => Nat.ne_of_gt hgrows (congrArg List.length (hatomic.failed err s' h).1)

/-- A correction that only has to read the replacement: it is atomic when the memory read is
the draft confirmed. -/
theorem correctionAtomic_iff_read (hrun : correctMemory memoryId draft t s none =
      fetchMemory (replacementId draft t) s' none) (hgrows : s.journal.length < s'.journal.length)
    (hsuperseded : ∃ row, s'.projections.memory[memoryId.asStr]? = some row ∧
      row.supersededBy = some (replacementId draft t).asStr) :
    CorrectionAtomic memoryId draft t s ↔
      Says draft (replacementId draft t) .confirmed s'.projections := by
  rcases fetchMemory_cases (replacementId draft t) s' with ⟨record, hget, hdone⟩ | ⟨hnone, err, hfailed⟩
  · rw [hdone] at hrun
    constructor
    · intro h
      obtain ⟨hstate, hcontent, hscope, hkind, -⟩ := h.done record s' hrun
      exact ⟨record, hget, hstate, hcontent, hscope, hkind⟩
    · rintro ⟨record', hget', hstate, hcontent, hscope, hkind⟩
      rw [hget] at hget'
      cases hget'
      obtain ⟨row, -, hread⟩ := getMemory_eq_some.1 hget
      have hid := (readFrom_of_rowToMemoryRecord hread).memoryId
      rw [Id.parse_asStr, Except.ok.injEq] at hid
      refine ⟨fun r x hrx => ?_, fun e x hex => ?_⟩
      · rw [hrun] at hrx
        cases hrx
        exact ⟨hstate, hcontent, hscope, hkind, hid ▸ hsuperseded⟩
      · rw [hrun] at hex
        cases hex
  · rw [hfailed] at hrun
    refine iff_of_false (not_correctionAtomic_of_failed hrun hgrows) ?_
    rintro ⟨record, hget, -⟩
    exact hnone record hget

omit [SerdeJsonWriter] in
/-- A memory that nothing superseded was not corrected. -/
theorem not_corrected {record : MemoryRecord}
    (hfound : getMemory p memoryId = .ok (some existing))
    (hcurrent : existing.supersededBy = none) : ¬ Corrected memoryId draft record p := by
  intro h
  obtain ⟨row, hrow, hread⟩ := getMemory_eq_some.1 hfound
  obtain ⟨row', hrow', hother⟩ := h.superseded
  obtain rfl := Option.some.inj (hrow.symm.trans hrow')
  rw [(readFrom_of_rowToMemoryRecord hread).supersededBy, hcurrent] at hother
  cases hother

variable [LawfulWriter] {e e' : DomainEvent}

omit [LawfulWriter] in
/-- The replacement is not in the way of the supersession. -/
theorem supersedable_iff_of_journaled (he : replacementEvent draft t = .ok e)
    (hjournaled : Journaled e s s')
    (hthread : ∀ k, k ∈ s'.projections.thread ↔ k ∈ s.projections.thread) :
    Supersedable existing t s' ↔ Supersedable existing t s := by
  obtain ⟨seq, hjournal⟩ := hjournaled.journal
  have hid : e.eventId.asStr ≠ (generateEventId t 6).asStr := by
    obtain ⟨payload, -, rfl⟩ := map_eq_ok.1 he
    exact fun heq => absurd (generateEventId_inj heq).2 (by decide)
  constructor
  · intro h
    refine ⟨fun row hrow => h.unused row ?_, fun thr hthr => (hthread _).1 (h.thread thr hthr)⟩
    rw [hjournal]
    exact List.mem_append_left _ hrow
  · intro h
    refine ⟨fun row hrow => ?_, fun thr hthr => (hthread _).2 (h.thread thr hthr)⟩
    rw [hjournal] at hrow
    rcases List.mem_append.1 hrow with hold | hnew
    · exact h.unused row hold
    · rw [List.mem_singleton.1 hnew]
      exact hid

/-- The replacement was found in the journal. -/
theorem correctionAtomic_iff_of_repeats (hchecked : Checked memoryId draft existing s)
    (he' : supersessionEvent memoryId existing draft t = .ok e') (ht : t.toNat ≤ i64Max)
    (hrun : correctMemory memoryId draft t s none =
      (appendEvent e' >>= fun _ => fetchMemory (replacementId draft t)) s none) :
    CorrectionAtomic memoryId draft t s ↔
      (Supersedable existing t s → Says draft (replacementId draft t) .confirmed s.projections) ∧
        (Repeats s e' → ∀ record,
          getMemory s.projections (replacementId draft t) ≠ .ok (some record)) := by
  rcases supersession_cases he' hchecked.found hchecked.confirmed hchecked.current ht with
    ⟨hnot, hnew, err, hevent⟩ | ⟨hnot, hrepeats, hevent⟩ | ⟨htakes, hnew, s', hevent, hsuperseded⟩
  · rw [Proc.bind_run_failed _ _ hevent] at hrun
    exact iff_of_true (correctionAtomic_of_failed hrun)
      ⟨fun h => absurd h hnot, fun h => absurd h hnew⟩
  · rw [Proc.bind_run_done _ _ hevent] at hrun
    rcases fetchMemory_cases (replacementId draft t) s with
      ⟨record, hget, hfetch⟩ | ⟨hnone, err, hfetch⟩
    · rw [hfetch] at hrun
      refine iff_of_false (fun h => ?_) fun h => h.2 hrepeats record hget
      exact not_corrected hchecked.found hchecked.current (h.done record s hrun)
    · rw [hfetch] at hrun
      exact iff_of_true (correctionAtomic_of_failed hrun)
        ⟨fun h => absurd h hnot, fun _ => hnone⟩
  · rw [Proc.bind_run_done _ _ hevent] at hrun
    obtain ⟨row, -, -, hmemory⟩ := hsuperseded.memory
    rw [correctionAtomic_iff_read hrun hsuperseded.grows
      ⟨_, by rw [hmemory, Table.getElem?_insert_same], rfl⟩, hsuperseded.says_iff]
    exact ⟨fun h => ⟨fun _ => h, fun h => absurd h hnew⟩, fun h => h.1 htakes⟩

/-- The replacement was journaled. -/
theorem correctionAtomic_iff_of_accepts (hchecked : Checked memoryId draft existing s)
    (he : replacementEvent draft t = .ok e)
    (he' : supersessionEvent memoryId existing draft t = .ok e') (ht : t.toNat ≤ i64Max)
    (htimes : ∀ (id : String) row, s.projections.memory[id]? = some row → 0 ≤ row.updatedAt)
    (hjournaled : Journaled e s s') (hrun : correctMemory memoryId draft t s none =
      (appendEvent e' >>= fun _ => fetchMemory (replacementId draft t)) s' none) :
    CorrectionAtomic memoryId draft t s ↔ Supersedable existing t s ∧
      ((replacementId draft t).asStr ∉ s.projections.memory ∨
        Says draft (replacementId draft t) .candidate s.projections) := by
  have hreplaced := replaced_of_journaled he hjournaled htimes
  obtain ⟨row, hrow, hread⟩ := getMemory_eq_some.1 hchecked.found
  have hne : (replacementId draft t).asStr ≠ memoryId.asStr := by
    intro heq
    have hcandidate := hreplaced.candidate row (heq ▸ hrow)
    rw [(readFrom_of_rowToMemoryRecord hread).state, hchecked.confirmed] at hcandidate
    revert hcandidate
    decide
  have hfound : getMemory s'.projections memoryId = .ok (some existing) :=
    getMemory_eq_some.2 ⟨row, (hreplaced.other _ hne).trans hrow, hread⟩
  have hsame : Supersedable existing t s' ↔ Supersedable existing t s :=
    supersedable_iff_of_journaled he hjournaled hreplaced.thread
  rw [← hreplaced.readsBack, ← hsame]
  rcases supersession_cases he' hfound hchecked.confirmed hchecked.current ht with
    ⟨hnot, -, err, hevent⟩ | ⟨hnot, -, hevent⟩ | ⟨htakes, -, s'', hevent, hsuperseded⟩
  · rw [Proc.bind_run_failed _ _ hevent] at hrun
    exact iff_of_false (not_correctionAtomic_of_failed hrun hjournaled.grows) fun h => hnot h.1
  · rw [Proc.bind_run_done _ _ hevent] at hrun
    refine iff_of_false ?_ fun h => hnot h.1
    rcases fetchMemory_cases (replacementId draft t) s' with
      ⟨record, -, hfetch⟩ | ⟨-, err, hfetch⟩
    · rw [hfetch] at hrun
      exact fun h => not_corrected hfound hchecked.current (h.done record s' hrun)
    · rw [hfetch] at hrun
      exact not_correctionAtomic_of_failed hrun hjournaled.grows
  · rw [Proc.bind_run_done _ _ hevent] at hrun
    obtain ⟨_, -, -, hmemory⟩ := hsuperseded.memory
    rw [correctionAtomic_iff_read hrun (hjournaled.grows.trans hsuperseded.grows)
      ⟨_, by rw [hmemory, Table.getElem?_insert_same], rfl⟩, hsuperseded.says_iff]
    exact ⟨fun h => ⟨htakes, h⟩, fun h => h.2⟩

variable [CompactWriter]

theorem exists_supersessionEvent (memoryId : MemoryId) (existing : MemoryRecord)
    (draft : Domain.MemoryDraft) (t : UInt64) :
    ∃ e, supersessionEvent memoryId existing draft t = .ok e := by
  obtain ⟨payload, hpayload⟩ := exists_supersessionPayload memoryId (replacementId draft t)
  exact ⟨_, map_eq_ok.2 ⟨payload, hpayload, rfl⟩⟩

omit [LawfulWriter] [CompactWriter] in
/-- What is asked of a correction whose events are known. -/
theorem correctionOrderly_iff (hchecked : Checked memoryId draft existing s)
    (he : replacementEvent draft t = .ok e)
    (he' : supersessionEvent memoryId existing draft t = .ok e') :
    CorrectionOrderly memoryId draft t s ↔
      (Accepts s e → Supersedable existing t s ∧
        ((replacementId draft t).asStr ∉ s.projections.memory ∨
          Says draft (replacementId draft t) .candidate s.projections)) ∧
      (Repeats s e → (Supersedable existing t s →
          Says draft (replacementId draft t) .confirmed s.projections) ∧
        (Repeats s e' → ∀ record,
          getMemory s.projections (replacementId draft t) ≠ .ok (some record))) := by
  constructor
  · intro h
    obtain ⟨haccepts, hrepeats⟩ := h existing hchecked e he
    exact ⟨haccepts, fun hr => ⟨(hrepeats hr).1, (hrepeats hr).2 e' he'⟩⟩
  · rintro ⟨haccepts, hrepeats⟩ other hother e₁ he₁
    have heq := hchecked.found.symm.trans hother.found
    rw [he] at he₁
    cases heq
    cases he₁
    refine ⟨haccepts, fun hr => ⟨(hrepeats hr).1, fun e₂ he₂ => ?_⟩⟩
    rw [he'] at he₂
    cases he₂
    exact (hrepeats hr).2

/-- A correction does both of its steps or none exactly when it is orderly. -/
theorem correctionAtomic_iff_orderly
    (htimes : ∀ (id : String) row, s.projections.memory[id]? = some row → 0 ≤ row.updatedAt) :
    CorrectionAtomic memoryId draft t s ↔ CorrectionOrderly memoryId draft t s := by
  by_cases hpass : ∃ existing, Checked memoryId draft existing s
  · obtain ⟨existing, hchecked⟩ := hpass
    have hrun := correctMemory_checked (t := t) hchecked
    cases he : replacementEvent draft t with
    | error err =>
      rw [he] at hrun
      refine iff_of_true (correctionAtomic_of_failed hrun) fun _ _ e he' => ?_
      rw [he] at he'
      cases he'
    | ok e =>
      obtain ⟨e', he'⟩ := exists_supersessionEvent memoryId existing draft t
      have htime : e.occurredAt = t := by
        obtain ⟨payload, -, rfl⟩ := map_eq_ok.1 he
        rfl
      rw [correctionOrderly_iff hchecked he he']
      rw [he, he'] at hrun
      change _ = (appendEvent e >>= fun _ => appendEvent e' >>= fun _ =>
        fetchMemory (replacementId draft t)) s none at hrun
      rcases appendEvent_cases s e with
        ⟨hnot, hnew, err, hevent⟩ | ⟨hnot, hrepeats, hevent⟩ |
          ⟨haccepts, hnew, s', hevent, hjournaled⟩
      · rw [Proc.bind_run_failed _ _ hevent] at hrun
        exact iff_of_true (correctionAtomic_of_failed hrun)
          ⟨fun h => absurd h hnot, fun h => absurd h hnew⟩
      · obtain ⟨n, s', happend⟩ := hrepeats
        have ht := occurredAt_le_of_append happend
        rw [htime] at ht
        rw [Proc.bind_run_done _ _ hevent] at hrun
        rw [correctionAtomic_iff_of_repeats hchecked he' ht hrun]
        exact ⟨fun h => ⟨fun h => absurd h hnot, fun _ => h⟩, fun h => h.2 ⟨n, s', happend⟩⟩
      · obtain ⟨n, s₁, happend⟩ := haccepts
        have ht := occurredAt_le_of_append happend
        rw [htime] at ht
        rw [Proc.bind_run_done _ _ hevent] at hrun
        rw [correctionAtomic_iff_of_accepts hchecked he he' ht htimes hjournaled hrun]
        exact ⟨fun h => ⟨fun _ => h, fun h => absurd h hnew⟩, fun h => h.1 ⟨n, s₁, happend⟩⟩
  · have hnone : ∀ existing, ¬ Checked memoryId draft existing s := fun existing h =>
      hpass ⟨existing, h⟩
    obtain ⟨err, hrun⟩ := correctMemory_unchecked (t := t) hnone
    exact iff_of_true (correctionAtomic_of_failed hrun) fun existing h => absurd h (hnone existing)

end Correction

end Store

/-! ## Samples -/

section Sample

attribute [local instance] flatWriter

/-- A memory that was proposed. -/
def proposedMilk : DomainEvent :=
  sampleEvent dueMilk.eventId none none .memoryProposed
    [("memory_id", .string "mem_fixture00000000k"), ("content", .string "tabs")] (by decide)

/-- What the candidate says, confirmed. -/
def confirmedMilk : MemoryRecord where
  memoryId := milkId
  content := ⟨"tabs".toList, by decide, by decide, by decide⟩
  scope := .global
  kind := .fact
  state := .confirmed
  confidence := 100
  sensitivity := .normal
  source := .inferred
  provenance := ⟨none, none, none⟩
  createdAt := 5
  updatedAt := 9
  expiresAt := none
  supersededBy := none

end Sample

end Altior.Storage
