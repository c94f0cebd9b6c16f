import Altior.Lib.Acyclic
import Altior.Storage.Readable

/-!
# Well-formed memories

`MemoryRecord::validate` is never run again after a fold, and nothing checks where
a supersession leads.  The journal keeps the memories well-formed exactly along
the runs in which each accepted memory event is orderly: not earlier than the
memory it is about, no retirement of a superseded memory, and a successor that is
there and does not lead back.
-/

namespace Altior.Storage

open Domain Lib Relation

/-! ## Well-formed rows -/

/-- The checks of `MemoryRecord::validate`, on the columns they read. -/
structure MemoryRow.Valid (row : MemoryRow) : Prop where
  confidence : row.confidence ≤ 100
  updatedAt : row.createdAt ≤ row.updatedAt
  superseded : row.supersededBy.isSome → row.state = "confirmed"

theorem readEntity_eq_ok {α : Type} {r : Except EntityError α} {detail : String} {a : α}
    (h : readEntity r detail = .ok a) : r = .ok a := by
  unfold readEntity at h
  split at h
  · cases h
    rfl
  · cases h

theorem readMillis_toNat {raw : Int} {field : String} {t : UInt64}
    (h : readMillis raw field = .ok t) (hfit : raw < 18446744073709551616) : (t.toNat : Int) = raw := by
  unfold readMillis at h
  split at h
  · cases h
  · cases h
    rw [UInt64.toNat_ofNat_of_lt' (show raw.toNat < 18446744073709551616 by omega)]
    omega

theorem readU8_toNat {raw : Int} {field : String} {n : UInt8} (h : readU8 raw field = .ok n) :
    (n.toNat : Int) = raw := by
  unfold readU8 at h
  split at h
  · cases h
    rw [UInt8.toNat_ofNat_of_lt' (show raw.toNat < 256 by omega)]
    omega
  · cases h

theorem readId_eq_ok {pre raw detail : String} {id : Id pre} (h : readId pre raw detail = .ok id) :
    Id.parse pre raw = .ok id := by
  unfold readId at h
  split at h
  · cases h
    assumption
  · cases h

/-- An optional identifier reads back as the column. -/
theorem readOption_readId {pre detail : String} {raw : Option String} {id : Option (Id pre)}
    (h : readOption raw (fun s => readId pre s detail) = .ok id) : raw = id.map Id.asStr := by
  cases raw with
  | none =>
    cases h
    rfl
  | some s =>
    obtain ⟨a, ha, rfl⟩ := map_eq_ok.1 h
    rw [Option.map_some, Id.asStr_of_parse (readId_eq_ok ha)]

/-- The columns a record was read from. -/
structure ReadFrom (id : String) (row : MemoryRow) (record : MemoryRecord) : Prop where
  memoryId : Id.parse "mem_" id = .ok record.memoryId
  content : MemoryContent.tryFrom row.content = .ok record.content
  scope : MemoryScope.tryFromParts row.scopeKind row.scopeTarget = .ok record.scope
  kind : MemoryKind.tryFromStr row.kind = .ok record.kind
  state : row.state = record.state.asStr
  confidence : readU8 row.confidence "confidence" = .ok record.confidence
  createdAt : readMillis row.createdAt "created_at" = .ok record.createdAt
  updatedAt : readMillis row.updatedAt "updated_at" = .ok record.updatedAt
  supersededBy : row.supersededBy = record.supersededBy.map Id.asStr

variable {id : String} {row : MemoryRow} {p p' : Projections}

theorem readFrom_of_rowToMemoryRecord {record : MemoryRecord}
    (h : rowToMemoryRecord id row = .ok record) : ReadFrom id row record := by
  obtain ⟨confidence, hconfidence, h⟩ := bind_eq_ok.1 h
  obtain ⟨memoryId, hid, h⟩ := bind_eq_ok.1 h
  obtain ⟨content, hcontent, h⟩ := bind_eq_ok.1 h
  obtain ⟨scope, hscope, h⟩ := bind_eq_ok.1 h
  obtain ⟨kind, hkind, h⟩ := bind_eq_ok.1 h
  obtain ⟨state, hstate, h⟩ := bind_eq_ok.1 h
  obtain ⟨_, -, h⟩ := bind_eq_ok.1 h
  obtain ⟨_, -, h⟩ := bind_eq_ok.1 h
  obtain ⟨_, -, h⟩ := bind_eq_ok.1 h
  obtain ⟨_, -, h⟩ := bind_eq_ok.1 h
  obtain ⟨_, -, h⟩ := bind_eq_ok.1 h
  obtain ⟨createdAt, hcreated, h⟩ := bind_eq_ok.1 h
  obtain ⟨updatedAt, hupdated, h⟩ := bind_eq_ok.1 h
  obtain ⟨_, -, h⟩ := bind_eq_ok.1 h
  obtain ⟨supersededBy, hsuperseded, h⟩ := bind_eq_ok.1 h
  cases h
  exact
    { memoryId := readId_eq_ok hid
      content := readEntity_eq_ok hcontent
      scope := readEntity_eq_ok hscope
      kind := readEntity_eq_ok hkind
      state := (MemoryState.asStr_of_tryFromStr (readEntity_eq_ok hstate)).symm
      confidence := hconfidence
      createdAt := hcreated
      updatedAt := hupdated
      supersededBy := readOption_readId hsuperseded }

/-- A record read back passes its check exactly when the row does. -/
theorem validate_rowToMemoryRecord {record : MemoryRecord}
    (h : rowToMemoryRecord id row = .ok record) (hcreated : row.createdAt < 18446744073709551616)
    (hupdated : row.updatedAt < 18446744073709551616) : record.validate = .ok () ↔ row.Valid := by
  have hfrom := readFrom_of_rowToMemoryRecord h
  have hconfidence := readU8_toNat hfrom.confidence
  have hc := readMillis_toNat hfrom.createdAt hcreated
  have hu := readMillis_toNat hfrom.updatedAt hupdated
  have hsuperseded : record.supersededBy.isSome = row.supersededBy.isSome := by
    rw [hfrom.supersededBy, Option.isSome_map]
  have hconfirmed : record.state = .confirmed ↔ row.state = "confirmed" := by
    rw [hfrom.state]
    cases record.state <;> simp [MemoryState.asStr]
  unfold MemoryRecord.validate
  simp only [hsuperseded, ne_eq, hconfirmed]
  constructor
  · intro hvalid
    split_ifs at hvalid with h1 h2 h3
    refine ⟨?_, ?_, ?_⟩
    · have := UInt8.not_lt.1 h1
      have : record.confidence.toNat ≤ 100 := this
      omega
    · have := UInt64.not_lt.1 h2
      have : record.createdAt.toNat ≤ record.updatedAt.toNat := this
      omega
    · intro hs
      by_contra hne
      exact h3 ⟨hs, hne⟩
  · intro hvalid
    rw [if_neg, if_neg, if_neg]
    · rintro ⟨hs, hne⟩
      exact hne (hvalid.superseded hs)
    · intro hlt
      have : record.updatedAt.toNat < record.createdAt.toNat := hlt
      have := hvalid.updatedAt
      omega
    · intro hlt
      have : 100 < record.confidence.toNat := hlt
      have := hvalid.confidence
      omega

/-! ## Links -/

/-- The first memory is superseded by the second. -/
def SupersededBy (p : Projections) (a b : String) : Prop :=
  ∃ row, p.memory[a]? = some row ∧ row.supersededBy = some b

/-- The rows are well-formed: each passes its check, a successor is there, and
following the successors never leads back. -/
structure MemoriesSound (p : Projections) : Prop where
  valid : ∀ (id : String) (row : MemoryRow), p.memory[id]? = some row → row.Valid
  successor : ∀ a b, SupersededBy p a b → b ∈ p.memory
  acyclic : Acyclic (SupersededBy p)

theorem memoriesSound_empty : MemoriesSound .empty where
  valid id row h := by simp [Projections.empty] at h
  successor a b h := by
    obtain ⟨row, hrow, -⟩ := h
    simp [Projections.empty] at hrow
  acyclic x h := by
    obtain ⟨y, ⟨row, hrow, -⟩, -⟩ := TransGen.head'_iff.1 h
    simp [Projections.empty] at hrow

theorem MemoriesSound.same (h : MemoriesSound p) (hmemory : p'.memory = p.memory) :
    MemoriesSound p' := by
  have hlinks : SupersededBy p' = SupersededBy p := by
    unfold SupersededBy
    rw [hmemory]
  refine ⟨?_, ?_, ?_⟩
  · rw [hmemory]
    exact h.valid
  · rw [hlinks, hmemory]
    exact h.successor
  · rw [hlinks]
    exact h.acyclic

/-- The links of a table whose row is replaced by one with the same link. -/
theorem supersededBy_insert (hmemory : p'.memory = p.memory.insert id row)
    (hlink : row.supersededBy = (p.memory[id]?).bind MemoryRow.supersededBy) :
    SupersededBy p' = SupersededBy p := by
  funext a b
  unfold SupersededBy
  rw [hmemory, Table.getElem?_insert_eq]
  split
  · rename_i heq
    subst heq
    cases hold : p.memory[id]? with
    | none => simp_all
    | some old => simp_all
  · rfl

/-- The links of a table whose row gets a link. -/
theorem supersededBy_link {other : String} {row' : MemoryRow} (hrow : p.memory[id]? = some row)
    (hnone : row.supersededBy = none) (hmemory : p'.memory = p.memory.insert id row')
    (hlink : row'.supersededBy = some other) :
    SupersededBy p' = AddEdge (SupersededBy p) id other := by
  funext a b
  refine propext ?_
  unfold SupersededBy AddEdge
  rw [hmemory, Table.getElem?_insert_eq]
  by_cases heq : id = a
  · subst heq
    simp [hrow, hnone, hlink, eq_comm]
  · simp [heq, Ne.symm heq]

/-- A row with the same link keeps the memories well-formed iff it is valid. -/
theorem MemoriesSound.insert_iff (h : MemoriesSound p)
    (hmemory : p'.memory = p.memory.insert id row)
    (hlink : row.supersededBy = (p.memory[id]?).bind MemoryRow.supersededBy) :
    MemoriesSound p' ↔ row.Valid := by
  constructor
  · intro h'
    refine h'.valid id row ?_
    rw [hmemory, Table.getElem?_insert_same]
  · intro hvalid
    refine ⟨?_, ?_, ?_⟩
    · rw [hmemory]
      exact (Table.forall_insert_iff h.valid).2 hvalid
    · rw [supersededBy_insert hmemory hlink, hmemory]
      intro a b hab
      exact Table.mem_insert_iff.2 (.inr (h.successor a b hab))
    · rw [supersededBy_insert hmemory hlink]
      exact h.acyclic

/-- A new link keeps the memories well-formed iff the row is valid and the
successor is there and does not lead back. -/
theorem MemoriesSound.link_iff {other : String} {row' : MemoryRow} (h : MemoriesSound p)
    (hrow : p.memory[id]? = some row) (hnone : row.supersededBy = none)
    (hmemory : p'.memory = p.memory.insert id row') (hlink : row'.supersededBy = some other) :
    MemoriesSound p' ↔
      row'.Valid ∧ other ∈ p.memory ∧ ¬ ReflTransGen (SupersededBy p) other id := by
  have hlinks := supersededBy_link hrow hnone hmemory hlink
  have hmem : ∀ k, k ∈ p'.memory ↔ k ∈ p.memory := by
    intro k
    rw [hmemory, Table.mem_insert_iff, or_iff_right_iff_imp]
    rintro rfl
    exact Table.mem_iff.2 ⟨row, hrow⟩
  rw [← h.acyclic.addEdge_iff, ← hlinks]
  constructor
  · intro h'
    refine ⟨h'.valid id row' ?_, ?_, h'.acyclic⟩
    · rw [hmemory, Table.getElem?_insert_same]
    · refine (hmem other).1 (h'.successor id other ?_)
      rw [hlinks]
      exact .inr ⟨rfl, rfl⟩
  · rintro ⟨hvalid, hother, hacyclic⟩
    refine ⟨?_, ?_, hacyclic⟩
    · rw [hmemory]
      exact (Table.forall_insert_iff h.valid).2 hvalid
    · rw [hlinks]
      rintro a b (hab | ⟨-, rfl⟩)
      · exact (hmem b).2 (h.successor a b hab)
      · exact (hmem b).2 hother

section

variable [SerdeJson]

open SerdeJson

/-! ## One event -/

/-- What the journal does not ask of a memory event: that it is not earlier than
the memory it is about, that a memory it retires is not superseded, and that the
successor it names is there and does not lead back to the memory. -/
structure OrderlyEvent (p : Projections) (e : DomainEvent) : Prop where
  time : isMemoryKind e.kind = true → ∀ row, p.memory[memoryIdOf e]? = some row →
    row.createdAt ≤ e.occurredAt.toNat
  retires : e.kind = .memoryForgotten ∨ e.kind = .memoryExpired →
    ∀ row, p.memory[memoryIdOf e]? = some row → row.supersededBy = none
  successor : e.kind = .memorySuperseded → supersedingOf e ∈ p.memory ∧
    ¬ ReflTransGen (SupersededBy p) (supersedingOf e) (memoryIdOf e)

omit [SerdeJson] in
/-- A checked draft is valid. -/
theorem draftRow_valid {v : Json} {state source : String} {explicit : Bool} {at_ : Int}
    (h : CheckedDraft v) : (draftRow v state source explicit at_).Valid := by
  refine ⟨?_, Int.le_refl _, fun hs => by cases hs⟩
  simp only [draftRow]
  cases hconf : v.getU64 "confidence" with
  | none => decide
  | some n => exact (toInt64_of_le_hundred (h.confidence n hconf)).2

omit [SerdeJson] in
/-- A state change keeps a row valid iff it is not early and retires no
superseded memory. -/
theorem valid_setState_iff {state : String} {at_ : Int} (h : row.Valid) :
    MemoryRow.Valid { row with state := state, updatedAt := at_ } ↔
      row.createdAt ≤ at_ ∧ (row.supersededBy.isSome → state = "confirmed") :=
  ⟨fun h' => ⟨h'.updatedAt, h'.superseded⟩, fun h' => ⟨h.confidence, h'.1, h'.2⟩⟩

omit [SerdeJson] in
/-- A candidate is not superseded. -/
theorem MemoryRow.Valid.candidate (h : row.Valid) (hstate : row.state = "candidate") :
    row.supersededBy = none := by
  rw [← Option.not_isSome_iff_eq_none]
  intro hs
  rw [h.superseded hs] at hstate
  revert hstate
  decide

/-- A move keeps the memories well-formed iff the event is orderly. -/
theorem memoriesSound_move {e : DomainEvent} {row' : MemoryRow} (h : MemoriesSound p)
    (hrow : p.memory[memoryIdOf e]? = some row) (hmove : MemoryMove e e.occurredAt.toNat row row')
    (hmemory : p'.memory = p.memory.insert (memoryIdOf e) row') :
    MemoriesSound p' ↔ OrderlyEvent p e := by
  have hold : row.Valid := h.valid _ row hrow
  -- what the event has to meet, once its memory is known
  have horderly : OrderlyEvent p e ↔ row.createdAt ≤ e.occurredAt.toNat ∧
      (e.kind = .memoryForgotten ∨ e.kind = .memoryExpired → row.supersededBy = none) ∧
      (e.kind = .memorySuperseded → supersedingOf e ∈ p.memory ∧
        ¬ ReflTransGen (SupersededBy p) (supersedingOf e) (memoryIdOf e)) := by
    have hkind : isMemoryKind e.kind = true := by cases hmove <;> simp_all [isMemoryKind]
    constructor
    · intro h'
      exact ⟨h'.time hkind row hrow, fun hk => h'.retires hk row hrow, h'.successor⟩
    · rintro ⟨htime, hretires, hsuccessor⟩
      refine ⟨fun _ r hr => ?_, fun hk r hr => ?_, hsuccessor⟩
      · rw [hrow, Option.some.injEq] at hr
        exact hr ▸ htime
      · rw [hrow, Option.some.injEq] at hr
        exact hr ▸ hretires hk
  rw [horderly]
  cases hmove with
  | confirm hkind hstate =>
    rw [h.insert_iff hmemory (by rw [hrow]; rfl), valid_setState_iff hold]
    simp [hkind]
  | reject hkind hstate =>
    rw [h.insert_iff hmemory (by rw [hrow]; rfl), valid_setState_iff hold]
    simp [hkind, hold.candidate hstate]
  | supersede hkind hstate hnone hid =>
    rw [h.link_iff hrow hnone hmemory rfl]
    have hv : MemoryRow.Valid { row with
        supersededBy := some (supersedingOf e), updatedAt := (e.occurredAt.toNat : Int) } ↔
        row.createdAt ≤ e.occurredAt.toNat :=
      ⟨fun h' => h'.updatedAt, fun h' => ⟨hold.confidence, h', fun _ => hstate⟩⟩
    rw [hv]
    simp [hkind]
  | forget hkind hstate =>
    rw [h.insert_iff hmemory (by rw [hrow]; rfl), valid_setState_iff hold]
    simp [hkind]
  | expire hkind hstate =>
    rw [h.insert_iff hmemory (by rw [hrow]; rfl), valid_setState_iff hold]
    simp [hkind]

/-- The memories stay well-formed under an accepted event iff it is orderly. -/
theorem memoriesSound_step {e : DomainEvent} {seq : Int}
    (hvalid : validateDomainEventInTx p e = .ok ())
    (hfold : foldDomainEventInTx p e seq e.occurredAt.toNat = .ok p') (h : MemoriesSound p) :
    MemoriesSound p' ↔ OrderlyEvent p e := by
  cases memory_step hvalid hfold with
  | same hkind hsame =>
    refine iff_of_true (h.same hsame.memory) ⟨fun hk => ?_, fun hk => ?_, fun hk => ?_⟩
    · rw [hkind] at hk
      cases hk
    · rcases hk with hk | hk <;> rw [hk] at hkind <;> cases hkind
    · rw [hk] at hkind
      cases hkind
  | @create v row hv hdraft hcreate hnew hmemory hfts =>
    have hrow : row.Valid ∧ row.supersededBy = none := by
      cases hcreate with
      | proposed => exact ⟨draftRow_valid hdraft, rfl⟩
      | confirmed => exact ⟨draftRow_valid hdraft, rfl⟩
    have hp : MemoriesSound p' :=
      (h.insert_iff hmemory (by rw [hnew, hrow.2, Option.bind_none])).2 hrow.1
    refine iff_of_true hp ⟨fun _ old hold => ?_, fun _ old hold => ?_, fun hk => ?_⟩
    · rw [hnew] at hold
      cases hold
    · rw [hnew] at hold
      cases hold
    · cases hcreate <;> simp_all
  | @move row row' hrow hmove hmemory hfts => exact memoriesSound_move h hrow hmove hmemory

/-! ## Runs of appends -/

/-- The time columns fit an unsigned word. -/
def TimesFit (p : Projections) : Prop :=
  ∀ (id : String) (row : MemoryRow), p.memory[id]? = some row →
    row.createdAt < 18446744073709551616 ∧ row.updatedAt < 18446744073709551616

theorem timesFit_step {e : DomainEvent} (hstep : MemoryStep e e.occurredAt.toNat p p')
    (h : TimesFit p) : TimesFit p' := by
  have hnow : (e.occurredAt.toNat : Int) < 18446744073709551616 := by
    have := e.occurredAt.toNat_lt
    omega
  unfold TimesFit
  cases hstep with
  | same hkind hsame =>
    rw [hsame.memory]
    exact h
  | create hv hdraft hcreate hnew hmemory hfts =>
    rw [hmemory]
    refine (Table.forall_insert_iff h).2 ?_
    cases hcreate <;> exact ⟨hnow, hnow⟩
  | move hrow hmove hmemory hfts =>
    rw [hmemory]
    refine (Table.forall_insert_iff h).2 ?_
    cases hmove <;> exact ⟨(h _ _ hrow).1, hnow⟩

theorem timesFit_run (events : List DomainEvent) :
    TimesFit (appendMachine.run events).projections := by
  refine appendMachine.invariant (I := fun s => TimesFit s.projections) ?_ ?_ events
  · intro s e h
    change TimesFit (storeStep s (.append e)).projections
    rcases storeStep_append_cases s e with ⟨-, hsame⟩ | ⟨-, seq, hvalid, hfold, -⟩
    · rw [hsame]
      exact h
    · exact timesFit_step (memory_step hvalid hfold) h
  · intro id row hrow
    simp [appendMachine, DomainStore.empty, Projections.empty] at hrow

/-- The stored memories are well-formed, row by row and as the records they are
read as. -/
structure MemoriesWellFormed (p : Projections) : Prop extends MemoriesSound p where
  validates : ∀ (id : String) (row : MemoryRow) (record : MemoryRecord),
    p.memory[id]? = some row → rowToMemoryRecord id row = .ok record → record.validate = .ok ()

/-- The event, should the journal accept it, is orderly. -/
def Orderly (s : DomainStore) (e : DomainEvent) : Prop :=
  Accepts s e → OrderlyEvent s.projections e

theorem orderly_step (s : DomainStore) (e : DomainEvent) (h : MemoriesSound s.projections) :
    MemoriesSound (storeStep s (.append e)).projections ↔ Orderly s e := by
  rcases storeStep_append_cases s e with ⟨hnot, hsame⟩ | ⟨haccept, seq, hvalid, hfold, -⟩
  · rw [hsame]
    exact iff_of_true h fun haccept => absurd haccept hnot
  · rw [memoriesSound_step hvalid hfold h]
    exact ⟨fun h' _ => h', fun h' => h' haccept⟩

/-- **Stored memories stay well-formed** in every state of a run exactly when
every accepted memory event of it is orderly. -/
theorem memories_wellFormed_iff (events : List DomainEvent) :
    (∀ prior, prior <+: events → MemoriesWellFormed (appendMachine.run prior).projections) ↔
      appendMachine.Meets Orderly .empty events := by
  have hsound : ∀ prior, MemoriesWellFormed (appendMachine.run prior).projections ↔
      MemoriesSound (appendMachine.run prior).projections := by
    intro prior
    refine ⟨fun h => h.toMemoriesSound, fun h => ⟨h, fun id row record hrow hread => ?_⟩⟩
    obtain ⟨hcreated, hupdated⟩ := timesFit_run prior id row hrow
    exact (validate_rowToMemoryRecord hread hcreated hupdated).2 (h.valid id row hrow)
  simp only [hsound]
  exact appendMachine.prefixes_iff_meets (I := fun s => MemoriesSound s.projections) orderly_step
    memoriesSound_empty

end

/-! ## Samples -/

section Sample

attribute [local instance] flatJson

/-- A confirmed memory. -/
def sampleRemembered : DomainEvent :=
  sampleEvent ⟨"evt_fixture000000006", by decide⟩ none none .memoryConfirmed
    [("memory_id", .string "mem_fixture000000001"), ("content", .string "tabs")] (by decide)

/-- The memory superseded by itself. -/
def sampleSelfSuperseded : DomainEvent :=
  sampleEvent ⟨"evt_fixture000000007", by decide⟩ none none .memorySuperseded
    [("memory_id", .string "mem_fixture000000001"),
      ("superseded_by", .string "mem_fixture000000001")] (by decide)

/-- The journal accepts a memory that supersedes itself. -/
theorem self_superseded_cycles :
    ¬ ∀ events : List DomainEvent,
      MemoriesWellFormed (appendMachine.run events).projections := by
  intro h
  have hcycle := (h [sampleRemembered, sampleSelfSuperseded]).acyclic "mem_fixture000000001"
  refine hcycle (.single ?_)
  have hlink : (((appendMachine.run [sampleRemembered, sampleSelfSuperseded]).projections.memory[
      "mem_fixture000000001"]?).bind MemoryRow.supersededBy) = some "mem_fixture000000001" := by
    decide
  obtain ⟨row, hrow, hby⟩ := Option.bind_eq_some_iff.1 hlink
  exact ⟨row, hrow, hby⟩

end Sample

end Altior.Storage
