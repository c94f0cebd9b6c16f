import Altior.Storage.Memories

/-!
# The memory search index

`memory_fts` is kept by the triggers of the memory table and emptied with it by a
rebuild.  In every state that appends and rebuilds reach it holds one entry for
each retrievable memory, with its current content, and nothing else.
-/

namespace Altior.Storage

open Domain Lib

/-! ## The index and the search query -/

/-- The entries of each memory are the ones its row contributes. -/
def IndexAgrees (p : Projections) : Prop :=
  ∀ id : String, p.memoryFts.filter (fun x => x.1 == id) =
    (p.memory[id]?).elim [] (Projections.ftsEntry id)

/-- `AND m.scope_kind = …` of a search; everything global is in every scope. -/
def inScope (scopeFilter : Option MemoryScope) (row : MemoryRow) : Bool :=
  let labelled (kind : String) (target : BoundedLabel) : Bool :=
    row.scopeKind == "global" ||
      (row.scopeKind == kind && row.scopeTarget == some (String.ofList target.chars))
  match scopeFilter with
  | none => true
  | some .global => row.scopeKind == "global"
  | some (.project target) => labelled "project" target
  | some (.person target) => labelled "person" target
  | some (.thread target) => labelled "thread" target

/-- The conditions of a search on the row of a hit. -/
def searchable (scopeFilter : Option MemoryScope) (now : UInt64) (row : MemoryRow) : Bool :=
  row.state == "confirmed" && row.supersededBy.isNone
    && (row.expiresAt.all fun expiresAt => min (now.toNat : Int) i64Max < expiresAt)
    && inScope scopeFilter row

/-- The rows of the full-text query of `search_memories`.  Whether a content
matches the expression is up to the index. -/
def ftsHits (p : Projections) (ftsMatch : String → Bool) (scopeFilter : Option MemoryScope)
    (now : UInt64) : List (String × MemoryRow) :=
  p.memoryFts.filterMap fun x =>
    if ftsMatch x.2 then
      ((p.memory[x.1]?).filter (searchable scopeFilter now)).map fun row => (x.1, row)
    else none

/-! ## Statements -/

theorem filter_ftsEntry (memoryId id : String) (row : MemoryRow) :
    (Projections.ftsEntry memoryId row).filter (fun x => x.1 == id) =
      if memoryId = id then Projections.ftsEntry memoryId row else [] := by
  unfold Projections.ftsEntry
  by_cases hret : row.retrievable <;> by_cases hid : memoryId = id <;> simp [hret, hid]

theorem IndexAgrees.same {p p' : Projections} (h : IndexAgrees p) (hsame : SameMemories p p') :
    IndexAgrees p' := by
  unfold IndexAgrees
  rw [hsame.memory, hsame.memoryFts]
  exact h

/-- Every entry belongs to a retrievable memory and holds its content. -/
theorem IndexAgrees.entry {p : Projections} (h : IndexAgrees p) {x : String × String}
    (hx : x ∈ p.memoryFts) : ∃ row, p.memory[x.1]? = some row ∧ row.retrievable = true ∧
      x = (x.1, row.content) := by
  have hmem : x ∈ p.memoryFts.filter (fun y => y.1 == x.1) := List.mem_filter.2 ⟨hx, by simp⟩
  rw [h x.1] at hmem
  cases hrow : p.memory[x.1]? with
  | none =>
    rw [hrow] at hmem
    cases hmem
  | some row =>
    rw [hrow, Option.elim_some] at hmem
    unfold Projections.ftsEntry at hmem
    split at hmem
    · rename_i hret
      exact ⟨row, rfl, hret, List.mem_singleton.1 hmem⟩
    · cases hmem

theorem indexAgrees_empty : IndexAgrees .empty := by
  intro id
  simp [Projections.empty]

/-- Deleting the rows empties the index. -/
theorem IndexAgrees.wipe {p : Projections} (h : IndexAgrees p) : IndexAgrees p.rebuildFts.wipe := by
  have hfts : p.rebuildFts.wipe.memoryFts = [] := by
    change p.memoryFts.filter (fun x => !p.memory.contains x.1) = []
    rw [List.filter_eq_nil_iff]
    intro x hx
    obtain ⟨row, hrow, -⟩ := h.entry hx
    simp [Std.ExtTreeMap.contains_iff_mem.2 (Table.mem_iff.2 ⟨row, hrow⟩)]
  intro id
  rw [hfts]
  change [] = ((∅ : Table String MemoryRow)[id]?).elim [] _
  simp

variable [SerdeJson]

open SerdeJson

/-- Every accepted event keeps the index in step. -/
theorem IndexAgrees.step {e : DomainEvent} {at_ : Int} {p p' : Projections} (h : IndexAgrees p)
    (hstep : MemoryStep e at_ p p') : IndexAgrees p' := by
  cases hstep with
  | same hkind hsame => exact h.same hsame
  | @create v row hv hvalid hdraft hnew hmemory hfts =>
    intro id
    rw [hfts, hmemory, List.filter_append, h id, filter_ftsEntry, Table.getElem?_insert_eq]
    by_cases hid : memoryIdOf e = id
    · subst hid
      simp [hnew]
    · simp [hid]
  | @move row row' hrow hmove hmemory hfts =>
    intro id
    rw [hfts, hmemory, List.filter_append, filter_ftsEntry, Table.getElem?_insert_eq]
    by_cases hid : memoryIdOf e = id
    · subst hid
      -- the update trigger has deleted every entry of the row
      have hnil : (p.memoryFts.filter (fun x => x.1 != memoryIdOf e)).filter
          (fun x => x.1 == memoryIdOf e) = [] := by
        rw [List.filter_eq_nil_iff]
        intro x hx
        have hne := (List.mem_filter.1 hx).2
        simpa using hne
      simp [hnil]
    · have hkeep : (p.memoryFts.filter (fun x => x.1 != memoryIdOf e)).filter
          (fun x => x.1 == id) = p.memoryFts.filter (fun x => x.1 == id) := by
        rw [List.filter_filter]
        refine List.filter_congr fun x _ => ?_
        by_cases hx : x.1 = id
        · simp [hx, Ne.symm hid]
        · simp [hx]
      rw [hkeep, h id]
      simp [hid]

/-! ## Runs of appends and rebuilds -/

/-- What can happen to the projections of an open store. -/
inductive ProjectionInput
  | append (e : DomainEvent)
  | rebuild

/-- One input.  A rejected append and a failed rebuild leave the store as it was. -/
def projectionStep (s : DomainStore) : ProjectionInput → DomainStore
  | .append e => storeStep s (.append e)
  | .rebuild =>
    match rebuildDomainProjections s with
    | .ok (_, s') => s'
    | .error _ => s

/-- The store under any sequence of appends and rebuilds. -/
def projectionMachine : Machine DomainStore ProjectionInput := ⟨.empty, projectionStep⟩

/-- A rebuild changes nothing, or replays the journal over the wiped tables. -/
theorem projectionStep_rebuild_cases (s : DomainStore) :
    projectionStep s .rebuild = s ∨
      ∃ p, replay replayRow s.projections.rebuildFts.wipe s.journal = .ok p ∧
        (projectionStep s .rebuild).projections = p.rebuildFts ∧
        (projectionStep s .rebuild).journal = s.journal := by
  simp only [projectionStep]
  split
  · rename_i n s' hrebuild
    obtain ⟨p, hreplay, h⟩ := bind_eq_ok.1 hrebuild
    cases h
    exact .inr ⟨p, hreplay, rfl, rfl⟩
  · exact .inl rfl

theorem indexAgrees_step (s : DomainStore) (i : ProjectionInput)
    (h : IndexAgrees s.projections) : IndexAgrees (projectionStep s i).projections := by
  cases i with
  | append e =>
    change IndexAgrees (storeStep s (.append e)).projections
    rcases storeStep_append_cases s e with ⟨-, hsame⟩ | ⟨-, seq, hvalid, hfold, -⟩
    · rw [hsame]
      exact h
    · exact h.step (memory_step hvalid hfold)
  | rebuild =>
    rcases projectionStep_rebuild_cases s with hsame | ⟨p, hreplay, hproj, -⟩
    · rw [hsame]
      exact h
    · rw [hproj]
      have hp : IndexAgrees p := by
        refine replay_invariant (fun q row q' hrow hq => ?_) h.wipe hreplay
        obtain ⟨e, -, hvalid, hfold⟩ := replayRow_eq_ok hrow
        exact hq.step (memory_step hvalid hfold)
      exact hp.same ⟨rfl, rfl⟩

theorem indexAgrees_run (inputs : List ProjectionInput) :
    IndexAgrees (projectionMachine.run inputs).projections :=
  projectionMachine.invariant indexAgrees_step indexAgrees_empty inputs

/-- The index holds the retrievable memories: one entry for each, with its
content, none for any other, so that a search finds no other either. -/
structure SearchAgrees (p : Projections) : Prop where
  indexed_once : ∀ (id : String) (row : MemoryRow), p.memory[id]? = some row →
    row.state = "confirmed" → row.supersededBy = none →
    p.memoryFts.filter (fun x => x.1 == id) = [(id, row.content)]
  no_other : ∀ (id content : String), (id, content) ∈ p.memoryFts →
    ∃ row, p.memory[id]? = some row ∧ row.state = "confirmed" ∧ row.supersededBy = none
  hits : ∀ ftsMatch scopeFilter now, ∀ hit ∈ ftsHits p ftsMatch scopeFilter now,
    p.memory[hit.1]? = some hit.2 ∧ hit.2.state = "confirmed" ∧ hit.2.supersededBy = none

omit [SerdeJson] in
theorem MemoryRow.retrievable_iff {row : MemoryRow} :
    row.retrievable = true ↔ row.state = "confirmed" ∧ row.supersededBy = none := by
  simp [MemoryRow.retrievable]

omit [SerdeJson] in
theorem mem_ftsHits {p : Projections} {ftsMatch : String → Bool}
    {scopeFilter : Option MemoryScope} {now : UInt64} {hit : String × MemoryRow}
    (h : hit ∈ ftsHits p ftsMatch scopeFilter now) :
    p.memory[hit.1]? = some hit.2 ∧ ∃ content, (hit.1, content) ∈ p.memoryFts := by
  obtain ⟨x, hx, h⟩ := List.mem_filterMap.1 h
  split at h
  · obtain ⟨row, hrow, rfl⟩ := Option.map_eq_some_iff.1 h
    exact ⟨(Option.filter_eq_some_iff.1 hrow).1, x.2, hx⟩
  · cases h

/-- **The search index follows the lifecycle.** -/
theorem search_index_agrees (inputs : List ProjectionInput) :
    SearchAgrees (projectionMachine.run inputs).projections := by
  have h := indexAgrees_run inputs
  have hno : ∀ (id content : String),
      (id, content) ∈ (projectionMachine.run inputs).projections.memoryFts →
      ∃ row, (projectionMachine.run inputs).projections.memory[id]? = some row ∧
        row.state = "confirmed" ∧ row.supersededBy = none := by
    intro id content hmem
    obtain ⟨row, hrow, hret, -⟩ := h.entry hmem
    exact ⟨row, hrow, MemoryRow.retrievable_iff.1 hret⟩
  refine ⟨fun id row hrow hstate hnone => ?_, hno, fun ftsMatch scopeFilter now hit hhit => ?_⟩
  · rw [h id, hrow, Option.elim_some]
    exact if_pos (MemoryRow.retrievable_iff.2 ⟨hstate, hnone⟩)
  · obtain ⟨hrow, content, hmem⟩ := mem_ftsHits hhit
    obtain ⟨row, hrow', hstate, hnone⟩ := hno _ _ hmem
    rw [hrow, Option.some.injEq] at hrow'
    subst hrow'
    exact ⟨hrow, hstate, hnone⟩

end Altior.Storage
