import Altior.Storage.MemoryCalls
import Mathlib.Algebra.GroupWithZero.Nat

/-!
# The expiry sweep

`sweep_expired_memories` journals one `memory.expired` for each memory that is past
due (`altior-storage/src/memory.rs`).  The identifiers of these events are made from
the time of the sweep and a number that starts at 100 in every sweep, so what a sweep
does depends on the sweeps of the same time before it.
-/

namespace Altior.Storage

open Domain Lib

/-- The largest `u32`. -/
def u32Max : Nat := 4294967295

/-- What is relied on of the size of JSON texts: a byte takes six at most, beside the
punctuation. -/
class CompactWriter [SerdeJsonWriter] : Prop where
  len_toVec : ∀ fields : List (String × String),
    SerdeJson.len (SerdeJsonWriter.toVec (.flat (fields.map fun f => (f.1, .string f.2)))) ≤
      2 + (fields.map fun f => 6 * f.1.utf8ByteSize + 6 * f.2.utf8ByteSize + 6).sum

/-- The memory is confirmed and past due. -/
def Due (now : UInt64) (row : MemoryRow) : Prop :=
  row.state = "confirmed" ∧ ∃ expiresAt, row.expiresAt = some expiresAt ∧ expiresAt ≤ now.toNat

/-- The query of the sweep.  What does not parse as an id is skipped. -/
def dueMemories (p : Projections) (now : UInt64) : List MemoryId :=
  p.memory.toList.filterMap fun x =>
    if x.2.state = "confirmed" ∧ x.2.expiresAt.any fun expiresAt => expiresAt ≤ min (now.toNat : Int) i64Max then
      (Id.parse "mem_" x.1).toOption
    else none

/-- The order in which a query without `ORDER BY` returns its rows. -/
structure RowOrder where
  arrange : List MemoryId → List MemoryId
  perm : ∀ memIds, (arrange memIds).Perm memIds

section Sweep

variable [SerdeJsonWriter]

open SerdeJson

/-- The loop of the sweep. -/
def sweepFrom (now : UInt64) : Nat → List MemoryId → MemoryProc Unit
  | _, [] => pure ()
  | disambiguator, memId :: memIds => do
      journalMemory (generateEventId now disambiguator) .memoryExpired none none
        [("memory_id", .string memId.asStr)] now
      sweepFrom now (min (disambiguator + 1) u32Max) memIds

/-- Expires what is past due and returns it. -/
def sweepExpiredMemories (order : RowOrder) (now : UInt64) : MemoryProc (List MemoryId) := do
  let s ← Proc.get
  let expiredIds := order.arrange (dueMemories s.projections now)
  sweepFrom now 100 expiredIds
  pure expiredIds

/-! ## The identifiers of a sweep -/

omit [SerdeJsonWriter] in
/-- The identifiers the loop journals under. -/
def sweepIds (now : UInt64) : Nat → Nat → List EventId
  | _, 0 => []
  | disambiguator, n + 1 =>
    generateEventId now disambiguator :: sweepIds now (min (disambiguator + 1) u32Max) n

variable {now : UInt64} {s : DomainStore}

omit [SerdeJsonWriter] in
theorem mem_sweepIds {id : EventId} : ∀ {n d : Nat}, d ≤ u32Max →
    (id ∈ sweepIds now d n ↔ ∃ i < n, id = generateEventId now (min (d + i) u32Max)) := by
  intro n
  induction n with
  | zero =>
    intro d _
    simp [sweepIds]
  | succ n ih =>
    intro d hd
    rw [sweepIds, List.mem_cons, ih (Nat.min_le_right _ _)]
    constructor
    · rintro (rfl | ⟨i, hi, rfl⟩)
      · exact ⟨0, Nat.succ_pos n, by rw [Nat.add_zero, Nat.min_eq_left hd]⟩
      · refine ⟨i + 1, Nat.succ_lt_succ hi, ?_⟩
        congr 1
        omega
    · rintro ⟨i, hi, rfl⟩
      cases i with
      | zero => exact .inl (by rw [Nat.add_zero, Nat.min_eq_left hd])
      | succ i =>
        refine .inr ⟨i, Nat.lt_of_succ_lt_succ hi, ?_⟩
        congr 1
        omega

omit [SerdeJsonWriter] in
/-- `{:08x}` tells 32-bit numbers apart. -/
theorem hex8_inj {a b : Nat} (ha : a ≤ u32Max) (hb : b ≤ u32Max) (h : hex8 a = hex8 b) : a = b := by
  have hlast (x : Nat) (hx : x ≤ u32Max) : x >>> (4 * 8) = 0 := by
    rw [Nat.shiftRight_eq_div_pow]
    exact Nat.div_eq_of_lt (Nat.lt_of_le_of_lt hx (by decide))
  refine eq_of_nibbles (hlast a ha) (hlast b hb) fun k hk => ?_
  have hdigit := List.map_inj_left.1 h (7 - k) (List.mem_range.2 (by omega))
  rw [show 7 - (7 - k) = k by omega] at hdigit
  exact hexDigit_inj (Nat.mod_lt _ (by decide)) (Nat.mod_lt _ (by decide)) hdigit

omit [SerdeJsonWriter] in
/-- They are different as long as the numbers last. -/
theorem sweepIds_nodup_iff : ∀ {n d : Nat}, d ≤ u32Max →
    ((sweepIds now d n).Nodup ↔ d + n ≤ u32Max + 1) := by
  intro n
  induction n with
  | zero =>
    intro d hd
    simp only [sweepIds, List.nodup_nil, true_iff]
    omega
  | succ n ih =>
    intro d hd
    rw [sweepIds, List.nodup_cons, ih (Nat.min_le_right _ _), mem_sweepIds (Nat.min_le_right _ _)]
    constructor
    · rintro ⟨hnew, hrest⟩
      by_contra hlt
      have hmax : d = u32Max := by omega
      have hpos : 0 < n := by omega
      exact hnew ⟨0, hpos, by congr 1; omega⟩
    · intro hle
      refine ⟨?_, by omega⟩
      rintro ⟨i, hi, heq⟩
      have hnum := hex8_inj hd (Nat.min_le_right _ _)
        (generateEventId_inj (congrArg Id.asStr heq)).2
      omega

/-! ## One expiry -/

/-- The event that expires a memory. -/
def expiryEvent (now : UInt64) (disambiguator : Nat) (payload : EventPayload) : DomainEvent :=
  ⟨generateEventId now disambiguator, none, none, none, .memoryExpired, payload, now⟩

/-- A journal row that expires the memory. -/
def ExpiryRow (memId : MemoryId) (row : DomainJournalRow) : Prop :=
  row.kind = "memory.expired" ∧ extractJsonString row.payload "memory_id" = some memId.asStr

section Writer

variable [LawfulWriter] [CompactWriter]

/-- The payload of an expiry is always written. -/
theorem exists_expiryPayload (memId : MemoryId) : ∃ payload,
    EventPayload.tryFrom (SerdeJsonWriter.toVec (.flat [("memory_id", .string memId.asStr)]))
      = .ok payload := by
  refine EventPayload.exists_of_len (by simp) ?_
  have hlen := CompactWriter.len_toVec [("memory_id", memId.asStr)]
  have hid := memId.length_asStr_le
  have hsize := utf8ByteSize_le memId.asStr
  rw [← String.length_toList] at hsize
  simp only [List.map_cons, List.map_nil, List.sum_cons, List.sum_nil] at hlen
  rw [show "memory_id".utf8ByteSize = 9 from rfl] at hlen
  rw [show "mem_".toList.length = 4 from rfl] at hid
  unfold maxBodyLen at hid
  unfold maxEventPayloadBytes
  omega

/-- One round of the loop. -/
theorem journalExpiry_eq (now : UInt64) (d : Nat) (memId : MemoryId) : ∃ payload v,
    journalMemory (generateEventId now d) .memoryExpired none none
        [("memory_id", .string memId.asStr)] now = appendEvent (expiryEvent now d payload) ∧
      fromSlice payload.asBytes = some v ∧ v.getStr "memory_id" = some memId.asStr := by
  obtain ⟨payload, hpayload⟩ := exists_expiryPayload memId
  obtain ⟨v, hv, hget⟩ := EventPayload.getStr_of_tryFrom (by simp) hpayload
  refine ⟨payload, v, ?_, hv, hget "memory_id" memId.asStr List.mem_cons_self⟩
  unfold journalMemory
  rw [hpayload]
  rfl

end Writer

/-- A confirmed memory is expired under a new identifier. -/
theorem expire_done {d : Nat} {payload : EventPayload} {v : Json} {memId : MemoryId}
    {row : MemoryRow} (hv : fromSlice payload.asBytes = some v)
    (hid : v.getStr "memory_id" = some memId.asStr)
    (hrow : s.projections.memory[memId.asStr]? = some row) (hstate : row.state = "confirmed")
    (hnow : now.toNat ≤ i64Max)
    (hfresh : ∀ r ∈ s.journal, r.eventId ≠ (generateEventId now d).asStr) :
    ∃ s' r, appendEvent (expiryEvent now d payload) s none = ⟨.done (), s', none⟩ ∧
      s'.journal = s.journal ++ [r] ∧ r.eventId = (generateEventId now d).asStr ∧
      ExpiryRow memId r ∧ s'.projections.memory = s.projections.memory.insert memId.asStr
        { row with state := "expired", updatedAt := now.toNat } := by
  have hkind : isMemoryKind (expiryEvent now d payload).kind = true := rfl
  have hget : extractJsonString (expiryEvent now d payload).payload.asBytes "memory_id"
      = some memId.asStr := (extractJsonString_of_fromSlice hv "memory_id").trans hid
  have hmemId : memoryIdOf (expiryEvent now d payload) = memId.asStr := by
    unfold memoryIdOf
    rw [hget, Option.getD_some]
  have hvalid : validateDomainEventInTx s.projections (expiryEvent now d payload) = .ok () := by
    refine validate_of_memory hkind hv hid (fun thr hthr => by cases hthr) ?_
    change requireMemoryState _ _ _ _ = _
    unfold requireMemoryState
    exact bind_eq_ok.2 ⟨row, requireSome_eq_ok.2 hrow, require_eq_ok.2 hstate⟩
  have hnew : existingDomainEvent s (expiryEvent now d payload) = none :=
    existingDomainEvent_eq_none.2 hfresh
  obtain ⟨p, hfold⟩ := exists_foldMemoryEvent hvalid hkind (domainJournalMaxSeq s.journal + 1)
    now.toNat
  have happend := append_of_fold hnow hnew hvalid hfold
  refine ⟨_, durableRow (domainJournalMaxSeq s.journal + 1) (expiryEvent now d payload),
    by rw [appendEvent_run, happend], rfl, rfl, ⟨rfl, hget⟩, ?_⟩
  · cases memory_step hvalid hfold with
    | same hnot => rw [hnot] at hkind; cases hkind
    | create hv hvalid hdraft hnone =>
      rw [hmemId, hrow] at hnone
      cases hnone
    | move hold hmove hmemory =>
      rw [hmemId, hrow, Option.some.injEq] at hold
      subst hold
      rw [hmemId] at hmemory
      cases hmove with
      | expire => exact hmemory
      | confirm hk | reject hk | supersede hk | forget hk => cases hk

/-! ## The whole loop -/

/-- The row of a memory once it has expired. -/
def MemoryRow.expired (row : MemoryRow) (now : UInt64) : MemoryRow :=
  { row with state := "expired", updatedAt := now.toNat }

/-- The listed memories are expired, each by one journal row, and the others are as
they were. -/
structure Expired (now : UInt64) (memIds : List MemoryId) (s s' : DomainStore) : Prop where
  journaled : ∃ rows, s'.journal = s.journal ++ rows ∧ List.Forall₂ ExpiryRow memIds rows
  memory : ∀ id, s'.projections.memory[id]? =
    if id ∈ memIds.map Id.asStr then s.projections.memory[id]?.map fun row => row.expired now
    else s.projections.memory[id]?

theorem expired_nil (now : UInt64) (s : DomainStore) : Expired now [] s s :=
  ⟨⟨[], (List.append_nil _).symm, .nil⟩, fun _ => rfl⟩

section Writer

variable [LawfulWriter] [CompactWriter]

theorem sweepFrom_done (hnow : now.toNat ≤ i64Max) :
    ∀ {memIds : List MemoryId} {d : Nat} {s : DomainStore}, d ≤ u32Max →
      memIds.Nodup →
      (∀ memId ∈ memIds, ∃ row, s.projections.memory[memId.asStr]? = some row ∧
        row.state = "confirmed") →
      (sweepIds now d memIds.length).Nodup →
      (∀ id ∈ sweepIds now d memIds.length, ∀ r ∈ s.journal, r.eventId ≠ id.asStr) →
      ∃ s', sweepFrom now d memIds s none = ⟨.done (), s', none⟩ ∧ Expired now memIds s s' := by
  intro memIds
  induction memIds with
  | nil =>
    intro d s _ _ _ _ _
    exact ⟨s, rfl, expired_nil now s⟩
  | cons memId memIds ih =>
    intro d s hd hnodup hrows hids hfresh
    obtain ⟨hnot, hnodup⟩ := List.nodup_cons.1 hnodup
    obtain ⟨row, hrow, hstate⟩ := hrows memId List.mem_cons_self
    rw [List.length_cons, sweepIds] at hids hfresh
    obtain ⟨hidnew, hids⟩ := List.nodup_cons.1 hids
    obtain ⟨payload, v, hexpiry, hv, hid⟩ := journalExpiry_eq now d memId
    obtain ⟨s₁, r, hdone, hjournal, hr, hexpired, hmemory⟩ :=
      expire_done hv hid hrow hstate hnow (hfresh _ List.mem_cons_self)
    have hne {other : MemoryId} (h : other ∈ memIds) : memId.asStr ≠ other.asStr :=
      fun heq => hnot (Id.asStr_inj.1 heq ▸ h)
    obtain ⟨s', hrest, ⟨rows, hjournal', hexpiries⟩, hmemory'⟩ := ih (s := s₁)
      (Nat.min_le_right (d + 1) u32Max) hnodup
      (fun other hother => by
        rw [hmemory, Table.getElem?_insert_of_ne _ _ (hne hother)]
        exact hrows other (List.mem_cons_of_mem _ hother))
      hids
      (fun id hmem row' hrow' => by
        rw [hjournal, List.mem_append, List.mem_singleton] at hrow'
        rcases hrow' with hold | rfl
        · exact hfresh id (List.mem_cons_of_mem _ hmem) row' hold
        · rw [hr]
          intro heq
          exact hidnew (Id.asStr_inj.1 heq ▸ hmem))
    refine ⟨s', ?_, ⟨r :: rows, ?_, .cons hexpired hexpiries⟩, fun id => ?_⟩
    · rw [sweepFrom, hexpiry, Proc.bind_run_done _ _ hdone, hrest]
    · rw [hjournal', hjournal, List.append_assoc, List.singleton_append]
    · rw [hmemory' id, hmemory, Table.getElem?_insert_eq, List.map_cons]
      by_cases hthis : memId.asStr = id
      · subst hthis
        have hnot' : memId.asStr ∉ memIds.map Id.asStr := by
          intro hmem
          obtain ⟨other, hother, heq⟩ := List.mem_map.1 hmem
          exact hne hother heq.symm
        rw [if_neg hnot', if_pos rfl, if_pos List.mem_cons_self, hrow]
        rfl
      · simp only [List.mem_cons, Ne.symm hthis, false_or, hthis, if_false]

end Writer

/-! ## What a loop that is done went through -/

/-- A round that is done found the identifier in the journal or journaled under it. -/
theorem journalExpiry_cases {d : Nat} {memId : MemoryId} {s' : DomainStore} {n : Option Nat}
    (h : journalMemory (generateEventId now d) .memoryExpired none none
      [("memory_id", .string memId.asStr)] now s none = ⟨.done (), s', n⟩) :
    n = none ∧ (∃ r ∈ s'.journal, r.eventId = (generateEventId now d).asStr) ∧
      (s' = s ∨ now.toNat ≤ i64Max ∧
        (∀ r ∈ s.journal, r.eventId ≠ (generateEventId now d).asStr) ∧
        ∃ r, s'.journal = s.journal ++ [r] ∧ r.eventId = (generateEventId now d).asStr) := by
  unfold journalMemory at h
  cases hpayload : EventPayload.tryFrom
      (SerdeJsonWriter.toVec (.flat [("memory_id", .string memId.asStr)])) with
  | error err =>
    rw [hpayload] at h
    cases h
  | ok payload =>
    rw [hpayload] at h
    change appendEvent (expiryEvent now d payload) s none = _ at h
    rw [appendEvent_run] at h
    split at h
    · rename_i o s₁ happend
      cases h
      rcases appendDomainEvent_cases happend with
        ⟨row, hmem, hrow, -, rfl⟩ | ⟨p, hnow, hnew, -, -, -, rfl⟩
      · exact ⟨rfl, ⟨row, hmem, congrArg DomainJournalRow.eventId hrow⟩, .inl rfl⟩
      · exact ⟨rfl, ⟨_, List.mem_append_right _ List.mem_cons_self, rfl⟩,
          .inr ⟨hnow, existingDomainEvent_eq_none.1 hnew, _, rfl, rfl⟩⟩
    · cases h

/-- A loop that adds a row for each memory found its time in range and its
identifiers unused. -/
theorem of_sweepFrom_done : ∀ {memIds : List MemoryId} {d : Nat} {s s' : DomainStore}
    {n : Option Nat}, sweepFrom now d memIds s none = ⟨.done (), s', n⟩ →
      s'.journal.length ≤ s.journal.length + memIds.length ∧
      (s'.journal.length = s.journal.length + memIds.length →
        (memIds ≠ [] → now.toNat ≤ i64Max) ∧ (sweepIds now d memIds.length).Nodup ∧
        ∀ id ∈ sweepIds now d memIds.length, ∀ r ∈ s.journal, r.eventId ≠ id.asStr) := by
  intro memIds
  induction memIds with
  | nil =>
    intro d s s' n h
    cases h
    refine ⟨Nat.le_refl _, fun _ => ⟨fun hne => absurd rfl hne, List.nodup_nil, ?_⟩⟩
    intro id hid
    cases hid
  | cons memId memIds ih =>
    intro d s s' n h
    rw [sweepFrom, Proc.bind_run] at h
    split at h
    · rename_i s₁ n₁ hround
      obtain ⟨rfl, -, hcases⟩ := journalExpiry_cases hround
      obtain ⟨hle, hall⟩ := ih h
      rw [List.length_cons]
      rcases hcases with rfl | ⟨hnow, hnew, r, hjournal, hr⟩
      · exact ⟨by omega, fun heq => by omega⟩
      · rw [hjournal, List.length_append, List.length_singleton] at hle hall
        refine ⟨by omega, fun heq => ?_⟩
        obtain ⟨-, hids, hfresh⟩ := hall (by omega)
        refine ⟨fun _ => hnow, List.nodup_cons.2 ⟨fun hmem => ?_, hids⟩, fun id hid r' hr' => ?_⟩
        · exact hfresh _ hmem r (List.mem_append_right _ List.mem_cons_self) hr
        · rcases List.mem_cons.1 hid with rfl | hid
          · exact hnew r' hr'
          · exact hfresh id hid r' (List.mem_append_left _ hr')
    · cases h
    · cases h

/-! ## What the memory table holds -/

/-- Every memory is kept under an identifier, and its expiry fits the column. -/
def WellKept (p : Projections) : Prop :=
  ∀ (id : String) (row : MemoryRow), p.memory[id]? = some row →
    (∃ memId, Id.parse "mem_" id = .ok memId) ∧
      ∀ expiresAt, row.expiresAt = some expiresAt → expiresAt ≤ i64Max

omit [SerdeJsonWriter] in
theorem getI64_le {v : Json} {k : String} {n : Int} (h : v.getI64 k = some n) : n ≤ i64Max := by
  obtain ⟨member, -, hn⟩ := Option.bind_eq_some_iff.1 h
  unfold Json.asI64 at hn
  split at hn
  · split at hn
    · cases hn
      exact_mod_cast ‹_›
    · cases hn
  · rename_i m
    cases hn
    have hlt := m.toBitVec.toInt_lt
    have hmax : (i64Max : Int) = 2 ^ 63 - 1 := by decide
    change m.toBitVec.toInt ≤ _
    omega
  · cases hn

/-- An accepted event keeps the table so. -/
theorem WellKept.step {e : DomainEvent} {seq at_ : Int} {p p' : Projections} (h : WellKept p)
    (hvalid : validateDomainEventInTx p e = .ok ())
    (hfold : foldDomainEventInTx p e seq at_ = .ok p') : WellKept p' := by
  intro id row hrow
  cases memory_step hvalid hfold with
  | same hkind hsame =>
    rw [hsame.memory] at hrow
    exact h id row hrow
  | @create v new hv hchecked hdraft hnone hmemory hfts =>
    rw [hmemory, Table.getElem?_insert_eq] at hrow
    split at hrow
    · rename_i hid
      subst hid
      cases hrow
      have hkind : isMemoryKind e.kind = true := by
        cases hdraft with
        | proposed hk | confirmed hk => rw [hk]; rfl
      obtain ⟨-, -, -, hparse, -⟩ := validate_memory hvalid hkind
      refine ⟨hparse, fun expiresAt hexpires => ?_⟩
      cases hdraft with
      | proposed | confirmed => exact getI64_le hexpires
    · exact h id row hrow
  | @move old new hold hmove hmemory hfts =>
    rw [hmemory, Table.getElem?_insert_eq] at hrow
    split at hrow
    · rename_i hid
      subst hid
      cases hrow
      obtain ⟨hparse, hexpires⟩ := h _ old hold
      rw [hmove.sameOrigin]
      exact ⟨hparse, hexpires⟩
    · exact h id row hrow

omit [SerdeJsonWriter] in
theorem wellKept_empty {p : Projections} (h : p.memory = ∅) : WellKept p := by
  intro id row hrow
  rw [h] at hrow
  simp at hrow

theorem wellKept_append {e : DomainEvent} (h : WellKept s.projections) :
    WellKept (storeStep s (.append e)).projections := by
  rcases storeStep_append_cases s e with ⟨-, hsame⟩ | ⟨-, seq, hvalid, hfold, -⟩
  · rw [hsame]
    exact h
  · exact h.step hvalid hfold

theorem wellKept_rebuild (h : WellKept s.projections) :
    WellKept (projectionStep s .rebuild).projections := by
  rcases projectionStep_rebuild_cases s with hsame | ⟨p, hreplay, hproj, -⟩
  · rw [hsame]
    exact h
  · rw [hproj]
    have hp : WellKept p := by
      refine replay_invariant (fun q row q' hrow hq => ?_) (wellKept_empty rfl) hreplay
      obtain ⟨e, -, hvalid, hfold⟩ := replayRow_eq_ok hrow
      exact hq.step hvalid hfold
    exact hp

/-- What every append keeps is kept by an operation that journals. -/
theorem journalMemory_keeps {I : DomainStore → Prop} (hI : ∀ s e, I s → I (storeStep s (.append e)))
    (eventId : EventId) (kind : DomainEventKind) (threadId : Option ThreadId)
    (turnId : Option TurnId) (fields : List (String × Scalar)) (occurredAt : UInt64) :
    Proc.Keeps I (journalMemory eventId kind threadId turnId fields occurredAt) := by
  unfold journalMemory
  split
  · exact Proc.Keeps.fail _
  · rename_i payload hpayload
    refine Proc.Keeps.act fun s hs => ?_
    have hstep := hI s ⟨eventId, threadId, turnId, none, kind, payload, occurredAt⟩ hs
    simp only [storeStep] at hstep
    split
    · rename_i o s' happend
      rw [happend] at hstep
      exact hstep
    · exact hs

theorem sweepFrom_keeps {I : DomainStore → Prop} (hI : ∀ s e, I s → I (storeStep s (.append e)))
    (now : UInt64) (memIds : List MemoryId) (d : Nat) : Proc.Keeps I (sweepFrom now d memIds) := by
  induction memIds generalizing d with
  | nil => exact Proc.Keeps.pure ()
  | cons memId memIds ih =>
    rw [sweepFrom]
    exact .bind (journalMemory_keeps hI _ _ _ _ _ _) fun _ => ih _

/-! ## The due memories -/

omit [SerdeJsonWriter] in
/-- The query takes the memory. -/
theorem due_iff {row : MemoryRow}
    (hkept : ∀ expiresAt, row.expiresAt = some expiresAt → expiresAt ≤ i64Max) :
    (row.state = "confirmed" ∧
      row.expiresAt.any fun expiresAt => expiresAt ≤ min (now.toNat : Int) i64Max) ↔ Due now row := by
  unfold Due
  refine and_congr_right fun _ => ?_
  cases hexpires : row.expiresAt with
  | none => simp
  | some expiresAt =>
    have hle := hkept expiresAt hexpires
    simp only [Option.any_some, decide_eq_true_eq, Option.some.injEq, exists_eq_left']
    omega

omit [SerdeJsonWriter] in
theorem parse_of_toOption {id : String} {memId : MemoryId}
    (h : (Id.parse "mem_" id).toOption = some memId) : Id.parse "mem_" id = .ok memId := by
  cases hparse : (Id.parse "mem_" id : Except IdParseError MemoryId) with
  | ok other =>
    rw [hparse] at h
    cases h
    rfl
  | error e =>
    rw [hparse] at h
    cases h

omit [SerdeJsonWriter] in
theorem mem_dueMemories {p : Projections} (h : WellKept p) {id : String} :
    id ∈ (dueMemories p now).map Id.asStr ↔ ∃ row, p.memory[id]? = some row ∧ Due now row := by
  unfold dueMemories
  constructor
  · intro hmem
    obtain ⟨memId, hsel, rfl⟩ := List.mem_map.1 hmem
    obtain ⟨⟨key, row⟩, hrow, hsome⟩ := List.mem_filterMap.1 hsel
    have hrow := Std.ExtTreeMap.mem_toList_iff_getElem?_eq_some.1 hrow
    split at hsome
    · rename_i hdue
      obtain ⟨⟨other, hparse⟩, hexpires⟩ := h key row hrow
      rw [hparse] at hsome
      obtain rfl := Option.some.inj hsome
      rw [Id.asStr_of_parse hparse]
      exact ⟨row, hrow, (due_iff hexpires).1 hdue⟩
    · cases hsome
  · rintro ⟨row, hrow, hdue⟩
    obtain ⟨⟨memId, hparse⟩, hexpires⟩ := h id row hrow
    refine List.mem_map.2 ⟨memId, List.mem_filterMap.2 ⟨(id, row),
      Std.ExtTreeMap.mem_toList_iff_getElem?_eq_some.2 hrow, ?_⟩, Id.asStr_of_parse hparse⟩
    rw [if_pos ((due_iff hexpires).2 hdue), hparse]
    rfl

omit [SerdeJsonWriter] in
theorem nodup_dueMemories (p : Projections) (now : UInt64) : (dueMemories p now).Nodup := by
  have hkeys : p.memory.toList.Pairwise fun a b => a.1 ≠ b.1 :=
    (Std.ExtTreeMap.distinct_keys_toList (t := p.memory)).imp fun h heq =>
      h (Table.compare_eq_iff.2 heq)
  unfold dueMemories
  refine List.pairwise_filterMap.2 (hkeys.imp fun hne memId hmem memId' hmem' heq => hne ?_)
  subst heq
  split at hmem
  · split at hmem'
    · have hparse := Id.asStr_of_parse (parse_of_toOption hmem)
      exact hparse.symm.trans (Id.asStr_of_parse (parse_of_toOption hmem'))
    · cases hmem'
  · cases hmem

/-! ## Runs of appends, rebuilds and sweeps -/

/-- What can happen to a store that is also swept.  The rows of a query come in an
order of the database. -/
inductive SweepInput
  | append (e : DomainEvent)
  | rebuild
  | sweep (order : RowOrder) (now : UInt64)

def sweepStep (s : DomainStore) : SweepInput → DomainStore
  | .append e => projectionStep s (.append e)
  | .rebuild => projectionStep s .rebuild
  | .sweep order now => (sweepExpiredMemories order now s none).state

def sweepMachine : Machine DomainStore SweepInput := ⟨.empty, sweepStep⟩

theorem wellKept_run (inputs : List SweepInput) :
    WellKept (sweepMachine.run inputs).projections := by
  refine sweepMachine.invariant (I := fun s => WellKept s.projections) (fun s i h => ?_)
    (wellKept_empty rfl) inputs
  cases i with
  | append e => exact wellKept_append h
  | rebuild => exact wellKept_rebuild h
  | sweep order now =>
    have hkeeps : Proc.Keeps (fun s => WellKept s.projections)
        (sweepExpiredMemories order now) :=
      .bind .get fun s => .bind (sweepFrom_keeps (fun _ _ h => wellKept_append h) now _ 100)
        fun _ => .pure _
    exact hkeeps.state (n := none) h

/-- The sweep expires what is due and nothing else. -/
def SweepExact (order : RowOrder) (now : UInt64) (s : DomainStore) : Prop :=
  ∃ memIds s', sweepExpiredMemories order now s none = ⟨.done memIds, s', none⟩ ∧ memIds.Nodup ∧
    (∀ id, id ∈ memIds.map Id.asStr ↔
      ∃ row, s.projections.memory[id]? = some row ∧ Due now row) ∧
    Expired now memIds s s'

/-- Nothing is due, or the time fits the journal and the identifiers of the sweep last
and are unused. -/
def SweepReady (now : UInt64) (s : DomainStore) : Prop :=
  (dueMemories s.projections now).length = 0 ∨
    now.toNat ≤ i64Max ∧ 100 + (dueMemories s.projections now).length ≤ u32Max + 1 ∧
      ∀ i < (dueMemories s.projections now).length, ∀ row ∈ s.journal,
        row.eventId ≠ (generateEventId now (100 + i)).asStr

instance (now : UInt64) (s : DomainStore) : Decidable (SweepReady now s) :=
  inferInstanceAs (Decidable (_ ∨ _ ∧ _ ∧
    ∀ i < (dueMemories s.projections now).length, ∀ row ∈ s.journal,
      row.eventId ≠ (generateEventId now (100 + i)).asStr))

theorem sweepExpiredMemories_done_iff {order : RowOrder} {s' : DomainStore}
    {memIds : List MemoryId} :
    sweepExpiredMemories order now s none = ⟨.done memIds, s', none⟩ ↔
      memIds = order.arrange (dueMemories s.projections now) ∧
        sweepFrom now 100 memIds s none = ⟨.done (), s', none⟩ := by
  have hrun : sweepExpiredMemories order now s none =
      (sweepFrom now 100 (order.arrange (dueMemories s.projections now)) >>= fun _ =>
        pure (order.arrange (dueMemories s.projections now))) s none := rfl
  rw [hrun, Proc.bind_run]
  constructor
  · intro h
    split at h
    · rename_i s₁ n₁ hloop
      cases h
      exact ⟨rfl, hloop⟩
    · cases h
    · cases h
  · rintro ⟨rfl, hloop⟩
    rw [hloop]
    rfl

/-- The identifiers of a sweep that has enough of them. -/
theorem fresh_sweepIds {n : Nat} {journal : List DomainJournalRow} (hlast : 100 + n ≤ u32Max + 1) :
    (∀ id ∈ sweepIds now 100 n, ∀ r ∈ journal, r.eventId ≠ id.asStr) ↔
      ∀ i < n, ∀ r ∈ journal, r.eventId ≠ (generateEventId now (100 + i)).asStr := by
  have hmem (id : EventId) : id ∈ sweepIds now 100 n ↔
      ∃ i < n, id = generateEventId now (min (100 + i) u32Max) :=
    mem_sweepIds (by decide)
  constructor
  · intro h i hi
    exact h _ ((hmem _).2 ⟨i, hi, by rw [Nat.min_eq_left (by omega)]⟩)
  · intro h id hid
    obtain ⟨i, hi, rfl⟩ := (hmem id).1 hid
    rw [Nat.min_eq_left (by omega)]
    exact h i hi

section Writer

variable [LawfulWriter] [CompactWriter]

end Writer

end Sweep

/-! ## A second sweep -/

theorem len_flatObjects_cons (k v : String) (fields : List (String × Scalar)) :
    flatObjects.len ((k, .string v) :: fields) =
      flatObjects.len fields + k.utf8ByteSize + v.utf8ByteSize + 6 := by
  change 1 + (_ + k.utf8ByteSize + 4 + (v.utf8ByteSize + 2)) = 1 + _ + _ + _ + 6
  omega

theorem flatWriter_compact : @CompactWriter flatWriter := by
  refine @CompactWriter.mk flatWriter fun fields => ?_
  rw [flatWriter_toVec]
  induction fields with
  | nil => decide
  | cons field fields ih =>
    rw [List.map_cons, List.map_cons, List.sum_cons, len_flatObjects_cons]
    omega

section Sample

attribute [local instance] flatWriter

/-- A confirmed memory that was good until 3. -/
def dueEvent (eventId : EventId) (memId : String)
    (h : checkPayload [("memory_id", .string memId), ("content", .string "tabs"),
      ("expires_at", .number (.posInt 3))] = .ok ()) : DomainEvent :=
  sampleEvent eventId none none .memoryConfirmed _ h

def dueTea : DomainEvent :=
  dueEvent ⟨"evt_fixture00000000t", by decide⟩ "mem_fixture00000000t" (by decide)

def dueMilk : DomainEvent :=
  dueEvent ⟨"evt_fixture00000000k", by decide⟩ "mem_fixture00000000k" (by decide)

/-- The rows as the table has them. -/
def tableOrder : RowOrder := ⟨id, fun _ => .refl _⟩

end Sample

end Altior.Storage
