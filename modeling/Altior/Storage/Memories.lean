import Altior.Storage.Acceptance

/-!
# Memories

What the journal does to the memory table and its search index.  An accepted
memory event creates one row or moves one row along the lifecycle; from this one
fact follow the lifecycle law of every row and the agreement of the index with
the table, over every run of appends and rebuilds.
-/

namespace Altior.Storage

open Domain Lib

/-! ## Statements that leave the memories alone -/

/-- The two states hold the same memories and the same index. -/
structure SameMemories (p p' : Projections) : Prop where
  memory : p'.memory = p.memory
  memoryFts : p'.memoryFts = p.memoryFts

theorem SameMemories.refl (p : Projections) : SameMemories p p := ⟨rfl, rfl⟩

theorem SameMemories.trans {p p' p'' : Projections} (h : SameMemories p p')
    (h' : SameMemories p' p'') : SameMemories p p'' :=
  ⟨h'.memory.trans h.memory, h'.memoryFts.trans h.memoryFts⟩

theorem sameMemories_activity {p p' : Projections} {thread : String} {seq at_ : Int}
    {eventId kind : String} (h : updateThreadActivity p thread seq eventId kind at_ = .ok p') :
    SameMemories p p' := by
  unfold updateThreadActivity at h
  split at h
  · cases h
    exact ⟨rfl, rfl⟩
  · cases h

theorem updateMemory_of_getElem? {p : Projections} {memoryId : String} {row : MemoryRow}
    (hrow : p.memory[memoryId]? = some row) (f : MemoryRow → MemoryRow) :
    p.updateMemory memoryId f =
      { p with
        memory := p.memory.insert memoryId (f row)
        memoryFts := p.memoryFts.filter (fun e => e.1 != memoryId)
          ++ Projections.ftsEntry memoryId (f row) } := by
  unfold Projections.updateMemory
  rw [hrow]

/-- What the check of a draft promises. -/
structure CheckedDraft (v : Json) : Prop where
  content : ∃ content, v.getStr "content" = some content ∧ trim content.toList ≠ [] ∧
    content.utf8ByteSize ≤ memoryContentMaxBytes
  scope : ∃ scope, MemoryScope.tryFromParts ((v.getStr "scope_kind").getD "global")
    (v.getStr "scope_target") = .ok scope
  kind : ∃ kind, MemoryKind.tryFromStr ((v.getStr "kind").getD "fact") = .ok kind
  confidence : ∀ n, v.getU64 "confidence" = some n → n ≤ 100
  sensitivity : ∀ s, v.getStr "sensitivity" = some s → ∃ a, MemorySensitivity.tryFromStr s = .ok a
  source : ∀ s, v.getStr "source" = some s → ∃ a, MemorySource.tryFromStr s = .ok a
  excerpt : ∀ s, v.getStr "excerpt" = some s → s.utf8ByteSize ≤ memoryExcerptMaxBytes

theorem validateMemoryDraftPayload_eq_ok {v : Json} (h : validateMemoryDraftPayload v = .ok ()) :
    CheckedDraft v := by
  obtain ⟨content, hcontent, h⟩ := bind_eq_ok.1 h
  obtain ⟨⟨⟩, hblank, h⟩ := bind_eq_ok.1 h
  obtain ⟨⟨⟩, hsize, h⟩ := bind_eq_ok.1 h
  obtain ⟨⟨⟩, -, h⟩ := bind_eq_ok.1 h
  obtain ⟨⟨⟩, hscope, h⟩ := bind_eq_ok.1 h
  obtain ⟨⟨⟩, hkind, h⟩ := bind_eq_ok.1 h
  obtain ⟨⟨⟩, hconfidence, h⟩ := bind_eq_ok.1 h
  obtain ⟨⟨⟩, hsensitivity, h⟩ := bind_eq_ok.1 h
  obtain ⟨⟨⟩, hsource, hexcerpt⟩ := bind_eq_ok.1 h
  rw [whenSome_eq_ok] at hconfidence hsensitivity hsource hexcerpt
  refine ⟨⟨content, requireSome_eq_ok.1 hcontent, require_eq_ok.1 hblank, require_eq_ok.1 hsize⟩,
    requireOk_eq_ok.1 hscope, requireOk_eq_ok.1 hkind, fun n hn => require_eq_ok.1 (hconfidence n hn),
    fun s hs => requireOk_eq_ok.1 (hsensitivity s hs), fun s hs => requireOk_eq_ok.1 (hsource s hs),
    fun s hs => ?_⟩
  obtain ⟨⟨⟩, hlen, -⟩ := bind_eq_ok.1 (hexcerpt s hs)
  exact require_eq_ok.1 hlen

/-- A percentage fits the signed column. -/
theorem toInt64_of_le_hundred {n : UInt64} (h : n ≤ 100) :
    0 ≤ n.toInt64.toInt ∧ n.toInt64.toInt ≤ 100 := by
  have hle : n.toNat ≤ 100 := h
  have hint : n.toInt64.toInt = n.toNat := by
    change n.toBitVec.toInt = _
    rw [BitVec.toInt_eq_toNat_of_lt (by change 2 * n.toNat < _; omega)]
    rfl
  omega

variable [SerdeJson]

open SerdeJson

theorem sameMemories_foldTurnScope (p : Projections) (e : DomainEvent) (threadId : String)
    (occurredAt : Int) : SameMemories p (foldTurnScope p e threadId occurredAt) := by
  unfold foldTurnScope
  split
  all_goals first
    | exact ⟨rfl, rfl⟩
    | (unfold foldTurnStarted; split <;> exact ⟨rfl, rfl⟩)
    | (unfold foldPermissionRequested; split <;> exact ⟨rfl, rfl⟩)
    | (unfold foldPermissionDecided; split <;> exact ⟨rfl, rfl⟩)

/-! ## What a memory event does -/

/-- The memory an event is about. -/
def memoryIdOf (e : DomainEvent) : String :=
  (extractJsonString e.payload.asBytes "memory_id").getD ""

/-- The memory that takes over, as a supersession names it. -/
def supersedingOf (e : DomainEvent) : String :=
  (extractJsonString e.payload.asBytes "superseded_by").getD ""

/-- The row an accepted event creates. -/
inductive MemoryDraft (e : DomainEvent) (at_ : Int) (v : Json) : MemoryRow → Prop
  | proposed (h : e.kind = .memoryProposed) :
      MemoryDraft e at_ v (draftRow v "candidate" "inferred" false at_)
  | confirmed (h : e.kind = .memoryConfirmed) :
      MemoryDraft e at_ v (draftRow v "confirmed" "explicit" true at_)

/-- The move of an existing row by an accepted event. -/
inductive MemoryMove (e : DomainEvent) (at_ : Int) (row : MemoryRow) : MemoryRow → Prop
  | confirm (hkind : e.kind = .memoryConfirmed) (h : row.state = "candidate") :
      MemoryMove e at_ row { row with state := "confirmed", updatedAt := at_ }
  | reject (hkind : e.kind = .memoryRejected) (h : row.state = "candidate") :
      MemoryMove e at_ row { row with state := "rejected", updatedAt := at_ }
  | supersede (hkind : e.kind = .memorySuperseded) (h : row.state = "confirmed")
      (hnone : row.supersededBy = none)
      (hid : ∃ id, Id.parse "mem_" (supersedingOf e) = .ok id) :
      MemoryMove e at_ row { row with supersededBy := some (supersedingOf e), updatedAt := at_ }
  | forget (hkind : e.kind = .memoryForgotten) (h : row.state = "confirmed") :
      MemoryMove e at_ row { row with state := "forgotten", updatedAt := at_ }
  | expire (hkind : e.kind = .memoryExpired) (h : row.state = "confirmed") :
      MemoryMove e at_ row { row with state := "expired", updatedAt := at_ }

/-- What an accepted event does to the memories. -/
inductive MemoryStep (e : DomainEvent) (at_ : Int) (p p' : Projections) : Prop
  | same (hkind : isMemoryKind e.kind = false) (h : SameMemories p p')
  | create {v : Json} {row : MemoryRow} (hv : fromSlice e.payload.asBytes = some v)
      (hvalid : CheckedDraft v) (hdraft : MemoryDraft e at_ v row)
      (hnew : p.memory[memoryIdOf e]? = none)
      (hmemory : p'.memory = p.memory.insert (memoryIdOf e) row)
      (hfts : p'.memoryFts = p.memoryFts ++ Projections.ftsEntry (memoryIdOf e) row)
  | move {row row' : MemoryRow} (hrow : p.memory[memoryIdOf e]? = some row)
      (hmove : MemoryMove e at_ row row')
      (hmemory : p'.memory = p.memory.insert (memoryIdOf e) row')
      (hfts : p'.memoryFts = p.memoryFts.filter (fun x => x.1 != memoryIdOf e)
        ++ Projections.ftsEntry (memoryIdOf e) row')

/-- Statements beside the memory tables change nothing about the step. -/
theorem MemoryStep.andThen {e : DomainEvent} {at_ : Int} {p q p' : Projections}
    (h : MemoryStep e at_ p q) (hq : SameMemories q p') : MemoryStep e at_ p p' := by
  cases h with
  | same hkind h => exact .same hkind (h.trans hq)
  | create hv hvalid hdraft hnew hmemory hfts =>
    exact .create hv hvalid hdraft hnew (hq.memory.trans hmemory) (hq.memoryFts.trans hfts)
  | move hrow hmove hmemory hfts =>
    exact .move hrow hmove (hq.memory.trans hmemory) (hq.memoryFts.trans hfts)

/-! ## What validation promises -/

theorem extractJsonString_of_fromSlice {bytes : Bytes} {v : Json} (h : fromSlice bytes = some v)
    (k : String) : extractJsonString bytes k = v.getStr k := by
  unfold extractJsonString
  rw [h, Option.bind_some]

/-- The checks an accepted memory event went through. -/
theorem validate_memory {p : Projections} {e : DomainEvent}
    (h : validateDomainEventInTx p e = .ok ()) (hkind : isMemoryKind e.kind = true) :
    ∃ v, fromSlice e.payload.asBytes = some v ∧ v.getStr "memory_id" = some (memoryIdOf e) ∧
      (∃ id, Id.parse "mem_" (memoryIdOf e) = .ok id) ∧
      validateMemoryKindTransitionInTx p e.kind (memoryIdOf e) v = .ok () := by
  obtain ⟨⟨⟩, -, h⟩ := bind_eq_ok.1 h
  obtain ⟨v, hv, h⟩ := bind_eq_ok.1 h
  have hjson := (Option.filter_eq_some_iff.1 (requireSome_eq_ok.1 hv)).1
  rw [if_pos hkind] at h
  obtain ⟨⟨⟩, -, h⟩ := bind_eq_ok.1 h
  obtain ⟨memId, hid, h⟩ := bind_eq_ok.1 h
  obtain ⟨⟨⟩, hparse, h⟩ := bind_eq_ok.1 h
  have hget : v.getStr "memory_id" = some memId := req_eq_ok hid
  have heq : memoryIdOf e = memId := by
    unfold memoryIdOf
    rw [extractJsonString_of_fromSlice hjson, hget, Option.getD_some]
  subst heq
  exact ⟨v, hjson, hget, requireOk_eq_ok.1 hparse, h⟩

/-- A memory event passes when its payload names its memory, its thread is there and
the transition is allowed. -/
theorem validate_of_memory {p : Projections} {e : DomainEvent} {v : Json} {memoryId : MemoryId}
    (hkind : isMemoryKind e.kind = true) (hv : fromSlice e.payload.asBytes = some v)
    (hid : v.getStr "memory_id" = some memoryId.asStr)
    (hthread : ∀ thr, e.threadId = some thr → thr.asStr ∈ p.thread)
    (hchecks : validateMemoryKindTransitionInTx p e.kind memoryId.asStr v = .ok ()) :
    validateDomainEventInTx p e = .ok () := by
  have hname : DomainEventKind.canonicalName e.kind.asStr = true := by
    cases hk : e.kind <;> simp only [hk, isMemoryKind, Bool.false_eq_true] at hkind <;> decide
  have hne : memoryId.asStr.isEmpty = false := by
    rw [← Bool.not_eq_true, String.isEmpty_iff]
    intro hempty
    have hvalid := memoryId.valid
    rw [hempty] at hvalid
    cases hvalid
  have hobject : v.isObject = true := by
    obtain ⟨fields, hfields⟩ := e.payload.exists_object
    rw [hv, Option.some.injEq] at hfields
    rw [hfields]
    rfl
  unfold validateDomainEventInTx
  refine bind_eq_ok.2 ⟨(), requireOk_eq_ok.2 ⟨_, if_pos hname⟩, bind_eq_ok.2 ⟨v, ?_, ?_⟩⟩
  · rw [requireSome_eq_ok, hv, Option.filter_eq_some_iff]
    exact ⟨rfl, hobject⟩
  · rw [if_pos hkind]
    refine bind_eq_ok.2 ⟨(), ?_, bind_eq_ok.2 ⟨memoryId.asStr, ?_, bind_eq_ok.2 ⟨(), ?_, hchecks⟩⟩⟩
    · exact whenSome_eq_ok.2 fun thr hthr => require_eq_ok.2 (hthread thr hthr)
    · unfold req
      rw [requireSome_eq_ok, hid, Option.filter_eq_some_iff]
      exact ⟨rfl, by rw [hne]; rfl⟩
    · exact requireOk_eq_ok.2 ⟨memoryId, Id.parse_asStr memoryId⟩

omit [SerdeJson] in
theorem requireMemoryState_eq_ok {p : Projections} {memId state : String} {detail : Detail}
    (h : requireMemoryState p memId state detail = .ok ()) :
    ∃ row, p.memory[memId]? = some row ∧ row.state = state := by
  obtain ⟨row, hrow, h⟩ := bind_eq_ok.1 h
  exact ⟨row, requireSome_eq_ok.1 hrow, require_eq_ok.1 h⟩

/-! ## One event -/

/-- The fold of an accepted memory event. -/
theorem memoryStep_foldMemory {p q : Projections} {e : DomainEvent} {at_ : Int}
    (hvalid : validateDomainEventInTx p e = .ok ())
    (hfold : foldMemory p e at_ = some (.ok q)) : MemoryStep e at_ p q := by
  have hkind : isMemoryKind e.kind = true := by
    unfold foldMemory at hfold
    cases hk : e.kind <;> simp_all [isMemoryKind]
  obtain ⟨v, hv, hid, -, hchecks⟩ := validate_memory hvalid hkind
  unfold foldMemory at hfold
  unfold validateMemoryKindTransitionInTx at hchecks
  cases hk : e.kind <;> simp only [hk, isMemoryKind, Bool.false_eq_true] at hkind hfold hchecks
  case memoryProposed =>
    obtain ⟨⟨⟩, hdraft, hnew⟩ := bind_eq_ok.1 hchecks
    have hnew := require_eq_ok.1 hnew
    simp only [foldMemoryProposedInTx, hv, hid, Option.getD_some, hnew, if_false,
      Option.some.injEq, Except.ok.injEq] at hfold
    subst hfold
    exact .create hv (validateMemoryDraftPayload_eq_ok hdraft) (.proposed hk)
      (Table.not_mem_iff.1 hnew) rfl rfl
  case memoryConfirmed =>
    simp only [foldMemoryConfirmedInTx, hv, hid, Option.getD_some, Option.some.injEq] at hfold
    cases hrow : p.memory[memoryIdOf e]? with
    | none =>
      rw [hrow] at hchecks
      rw [if_neg (Table.not_mem_iff.2 hrow), Except.ok.injEq] at hfold
      subst hfold
      exact .create hv (validateMemoryDraftPayload_eq_ok hchecks) (.confirmed hk) hrow rfl rfl
    | some row =>
      rw [hrow] at hchecks
      rw [if_pos (Table.mem_iff.2 ⟨row, hrow⟩), Except.ok.injEq,
        updateMemory_of_getElem? hrow] at hfold
      subst hfold
      exact .move hrow (.confirm hk (require_eq_ok.1 hchecks)) rfl rfl
  case memorySuperseded =>
    obtain ⟨superseding, hsuperseding, hchecks⟩ := bind_eq_ok.1 hchecks
    obtain ⟨⟨⟩, hparse, hchecks⟩ := bind_eq_ok.1 hchecks
    obtain ⟨row, hrow, hchecks⟩ := bind_eq_ok.1 hchecks
    have hrow := requireSome_eq_ok.1 hrow
    obtain ⟨hstate, hnone⟩ := require_eq_ok.1 hchecks
    have hother : supersedingOf e = superseding := by
      unfold supersedingOf
      rw [extractJsonString_of_fromSlice hv, req_eq_ok hsuperseding, Option.getD_some]
    rw [← hother] at hparse
    rw [Option.some.injEq, Except.ok.injEq] at hfold
    change p.updateMemory (memoryIdOf e) (fun row =>
      { row with supersededBy := some (supersedingOf e), updatedAt := at_ }) = q at hfold
    rw [updateMemory_of_getElem? hrow] at hfold
    subst hfold
    exact .move hrow (.supersede hk hstate hnone (requireOk_eq_ok.1 hparse)) rfl rfl
  all_goals
    obtain ⟨row, hrow, hstate⟩ := requireMemoryState_eq_ok hchecks
    rw [Option.some.injEq, Except.ok.injEq] at hfold
    unfold setMemoryState at hfold
    change p.updateMemory (memoryIdOf e) _ = q at hfold
    rw [updateMemory_of_getElem? hrow] at hfold
    subst hfold
  case memoryRejected => exact .move hrow (.reject hk hstate) rfl rfl
  case memoryForgotten => exact .move hrow (.forget hk hstate) rfl rfl
  case memoryExpired => exact .move hrow (.expire hk hstate) rfl rfl

/-- Every accepted event is a memory step. -/
theorem memory_step {p p' : Projections} {e : DomainEvent} {seq at_ : Int}
    (hvalid : validateDomainEventInTx p e = .ok ())
    (hfold : foldDomainEventInTx p e seq at_ = .ok p') : MemoryStep e at_ p p' := by
  unfold foldDomainEventInTx at hfold
  cases hmem : foldMemory p e at_ with
  | some r =>
    cases r with
    | error err => simp [hmem] at hfold
    | ok q =>
      simp only [hmem] at hfold
      have hstep := memoryStep_foldMemory hvalid hmem
      split at hfold
      · exact hstep.andThen (sameMemories_activity hfold)
      · cases hfold
        exact hstep
  | none =>
    have hkind : isMemoryKind e.kind = false := by
      unfold foldMemory at hmem
      cases hk : e.kind <;> simp_all [isMemoryKind]
    simp only [hmem] at hfold
    refine .same hkind ?_
    split at hfold
    · cases hfold
      exact .refl p
    · split at hfold
      · cases hfold
        unfold foldThreadCreated
        split <;> exact ⟨rfl, rfl⟩
      · cases hfold
        exact ⟨rfl, rfl⟩
      · cases hfold
        exact ⟨rfl, rfl⟩
      · exact (sameMemories_foldTurnScope ..).trans (sameMemories_activity hfold)

/-- The append of the event adds a journal row. -/
def Accepts (s : DomainStore) (e : DomainEvent) : Prop :=
  ∃ n s', appendDomainEvent s e = .ok (.appended n, s')

/-- An append leaves the store as it is or journals and folds an accepted event. -/
theorem storeStep_append_cases (s : DomainStore) (e : DomainEvent) :
    (¬ Accepts s e ∧ storeStep s (.append e) = s) ∨
      (Accepts s e ∧ ∃ seq, validateDomainEventInTx s.projections e = .ok () ∧
        foldDomainEventInTx s.projections e seq e.occurredAt.toNat =
          .ok (storeStep s (.append e)).projections ∧
        (storeStep s (.append e)).journal = s.journal ++ [durableRow seq e]) := by
  simp only [storeStep]
  split
  · rename_i o s' happend
    rcases appendDomainEvent_cases happend with
      ⟨row, -, -, rfl, rfl⟩ | ⟨p, -, -, hvalid, hfold, rfl, rfl⟩
    · refine .inl ⟨?_, rfl⟩
      rintro ⟨n, s'', haccept⟩
      rw [haccept] at happend
      cases happend
    · exact .inr ⟨⟨_, _, happend⟩, _, hvalid, hfold, rfl⟩
  · rename_i err happend
    refine .inl ⟨?_, rfl⟩
    rintro ⟨n, s', haccept⟩
    rw [haccept] at happend
    cases happend

/-! ## The lifecycle of one row -/

/-- What an append does to one row of the memory table. -/
inductive MemoryRowStep (e : DomainEvent) : Option MemoryRow → Option MemoryRow → Prop
  | same (row? : Option MemoryRow) : MemoryRowStep e row? row?
  | created {row : MemoryRow} (hstate : row.state = "candidate" ∨ row.state = "confirmed")
      (hnone : row.supersededBy = none) : MemoryRowStep e none (some row)
  | moved {row row' : MemoryRow} (h : MemoryMove e e.occurredAt.toNat row row') :
      MemoryRowStep e (some row) (some row')

theorem MemoryStep.row {e : DomainEvent} {p p' : Projections}
    (h : MemoryStep e e.occurredAt.toNat p p') (id : String) :
    MemoryRowStep e p.memory[id]? p'.memory[id]? := by
  cases h with
  | same hkind h =>
    rw [h.memory]
    exact .same _
  | create hv hvalid hdraft hnew hmemory hfts =>
    rw [hmemory, Table.getElem?_insert_eq]
    split
    · rename_i heq
      rw [← heq, hnew]
      cases hdraft with
      | proposed => exact .created (.inl rfl) rfl
      | confirmed => exact .created (.inr rfl) rfl
    · exact .same _
  | move hrow hmove hmemory hfts =>
    rw [hmemory, Table.getElem?_insert_eq]
    split
    · rename_i heq
      rw [← heq, hrow]
      exact .moved hmove
    · exact .same _

/-- Every append is a step of every row. -/
theorem memoryRowStep_append (s : DomainStore) (e : DomainEvent) (id : String) :
    MemoryRowStep e s.projections.memory[id]?
      (storeStep s (.append e)).projections.memory[id]? := by
  rcases storeStep_append_cases s e with ⟨-, hsame⟩ | ⟨-, seq, hvalid, hfold, -⟩
  · rw [hsame]
    exact .same _
  · exact (memory_step hvalid hfold).row id

/-- What every step of a row keeps is kept by every run of appends. -/
theorem memoryRow_invariant {Q : Option MemoryRow → Prop}
    (hstep : ∀ e row? row?', MemoryRowStep e row? row?' → Q row? → Q row?') {s : DomainStore}
    {id : String} (h : Q s.projections.memory[id]?) (later : List DomainEvent) :
    Q (storeMachine.runFrom s (appends later)).projections.memory[id]? := by
  induction later generalizing s with
  | nil => exact h
  | cons e later ih => exact ih (hstep e _ _ (memoryRowStep_append s e id) h)

/-- The states a memory never leaves. -/
def finalMemoryStates : List String := ["rejected", "forgotten", "expired"]

/-- Everything but the state, the supersession and the update time is the same. -/
def MemoryRow.SameOrigin (row row' : MemoryRow) : Prop :=
  row' = { row with
    state := row'.state, supersededBy := row'.supersededBy, updatedAt := row'.updatedAt }

omit [SerdeJson] in
theorem MemoryRow.SameOrigin.trans {row row' row'' : MemoryRow} (h : row.SameOrigin row')
    (h' : row'.SameOrigin row'') : row.SameOrigin row'' := by
  unfold MemoryRow.SameOrigin at *
  rw [h', h]

theorem MemoryMove.sameOrigin {e : DomainEvent} {at_ : Int} {row row' : MemoryRow}
    (h : MemoryMove e at_ row row') : row.SameOrigin row' := by
  cases h <;> rfl

theorem MemoryMove.not_final {e : DomainEvent} {at_ : Int} {row row' : MemoryRow}
    (h : MemoryMove e at_ row row') : row.state ∉ finalMemoryStates := by
  cases h <;> simp_all [finalMemoryStates]

/-- A supersession is set once. -/
theorem MemoryMove.supersededBy {e : DomainEvent} {at_ : Int} {row row' : MemoryRow}
    (h : MemoryMove e at_ row row') {other : String} (hother : row.supersededBy = some other) :
    row'.supersededBy = some other := by
  cases h with
  | supersede hkind h hnone hid =>
    rw [hnone] at hother
    cases hother
  | _ => exact hother

/-- The lifecycle of the memories in one run: what one more append can do to a
row, and what no later append changes. -/
structure MemoryLaw (events : List DomainEvent) : Prop where
  moves : ∀ (e : DomainEvent) (id : String),
    MemoryRowStep e (storeMachine.run (appends events)).projections.memory[id]?
      (storeMachine.run (appends (events ++ [e]))).projections.memory[id]?
  final : ∀ (id : String) (row : MemoryRow),
    (storeMachine.run (appends events)).projections.memory[id]? = some row →
    row.state ∈ finalMemoryStates → ∀ later,
    (storeMachine.run (appends (events ++ later))).projections.memory[id]? = some row
  superseded : ∀ (id : String) (row : MemoryRow) (other : String),
    (storeMachine.run (appends events)).projections.memory[id]? = some row →
    row.supersededBy = some other → ∀ later, ∃ row',
    (storeMachine.run (appends (events ++ later))).projections.memory[id]? = some row' ∧
      row'.supersededBy = some other
  origin : ∀ (id : String) (row : MemoryRow),
    (storeMachine.run (appends events)).projections.memory[id]? = some row → ∀ later, ∃ row',
    (storeMachine.run (appends (events ++ later))).projections.memory[id]? = some row' ∧
      row.SameOrigin row'

theorem run_appends_append (events later : List DomainEvent) :
    storeMachine.run (appends (events ++ later)) =
      storeMachine.runFrom (storeMachine.run (appends events)) (appends later) := by
  unfold appends
  rw [List.map_append, Machine.run_append]

/-- **Memory lifecycle.** -/
theorem memory_lifecycle (events : List DomainEvent) : MemoryLaw events := by
  refine ⟨fun e id => ?_, fun id row hrow hfinal later => ?_,
    fun id row other hrow hother later => ?_, fun id row hrow later => ?_⟩
  · rw [run_appends_append]
    exact memoryRowStep_append _ e id
  · rw [run_appends_append]
    refine memoryRow_invariant (Q := fun row? => row? = some row) ?_ hrow later
    rintro e _ _ (_ | _ | ⟨hmove⟩) h
    · exact h
    · cases h
    · cases h
      exact absurd hfinal hmove.not_final
  · rw [run_appends_append]
    refine memoryRow_invariant
      (Q := fun row? => ∃ row', row? = some row' ∧ row'.supersededBy = some other) ?_
      ⟨row, hrow, hother⟩ later
    rintro e _ _ (_ | _ | ⟨hmove⟩) ⟨row', h, hset⟩
    · exact ⟨row', h, hset⟩
    · cases h
    · cases h
      exact ⟨_, rfl, hmove.supersededBy hset⟩
  · rw [run_appends_append]
    refine memoryRow_invariant (Q := fun row? => ∃ row', row? = some row' ∧ row.SameOrigin row') ?_
      ⟨row, hrow, rfl⟩ later
    rintro e _ _ (_ | _ | ⟨hmove⟩) ⟨row', h, hsame⟩
    · exact ⟨row', h, hsame⟩
    · cases h
    · cases h
      exact ⟨_, rfl, hsame.trans hmove.sameOrigin⟩

end Altior.Storage
