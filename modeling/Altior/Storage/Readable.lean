import Altior.Storage.Readers

/-!
# What is accepted can be read

Every row the journal puts into the permission and memory tables goes through the
mappers unharmed exactly when the payloads that create rows also pass the checks
only the mappers make.
-/

namespace Altior.Storage

open Domain Lib

/-! ## When a mapper succeeds -/

variable {α : Type} {p : Projections}

theorem exists_ok_bind {ε β : Type} {x : Except ε α} {f : α → Except ε β} :
    (∃ b, (x >>= f) = .ok b) ↔ ∃ a, x = .ok a ∧ ∃ b, f a = .ok b := by
  cases x <;> simp [bind, Except.bind]

theorem exists_ok_pure {ε : Type} {a : α} : (∃ b, (pure a : Except ε α) = .ok b) ↔ True :=
  iff_true_intro ⟨a, rfl⟩

theorem exists_readId {pre raw detail : String} :
    (∃ id, readId pre raw detail = .ok id) ↔ ∃ id, Id.parse pre raw = .ok id := by
  unfold readId
  cases Id.parse pre raw <;> simp

theorem exists_readEntity {r : Except EntityError α} {detail : String} :
    (∃ a, readEntity r detail = .ok a) ↔ ∃ a, r = .ok a := by
  unfold readEntity
  cases r <;> simp

theorem exists_readMillis {raw : Int} {field : String} :
    (∃ t, readMillis raw field = .ok t) ↔ 0 ≤ raw := by
  unfold readMillis
  split <;> simp_all

theorem exists_readU8 {raw : Int} {field : String} :
    (∃ n, readU8 raw field = .ok n) ↔ 0 ≤ raw ∧ raw ≤ 255 := by
  unfold readU8
  split <;> simp_all

theorem exists_readOption {β : Type} {raw : Option α} {read : α → Except ReadError β} :
    (∃ b, readOption raw read = .ok b) ↔ ∀ a, raw = some a → ∃ b, read a = .ok b := by
  cases raw with
  | none => simp [readOption]
  | some a =>
    cases h : read a <;> simp [readOption, h, Functor.map, Except.map]

/-- The checks the mapper makes on a memory row. -/
structure MemoryRow.Decodes (id : String) (row : MemoryRow) : Prop where
  confidence : 0 ≤ row.confidence ∧ row.confidence ≤ 255
  memoryId : ∃ memoryId, Id.parse "mem_" id = .ok memoryId
  content : ∃ content, MemoryContent.tryFrom row.content = .ok content
  scope : ∃ scope, MemoryScope.tryFromParts row.scopeKind row.scopeTarget = .ok scope
  kind : ∃ kind, MemoryKind.tryFromStr row.kind = .ok kind
  state : ∃ state, MemoryState.tryFromStr row.state = .ok state
  sensitivity : ∃ sensitivity, MemorySensitivity.tryFromStr row.sensitivity = .ok sensitivity
  source : ∃ source, MemorySource.tryFromStr row.source = .ok source
  threadId : ∀ s, row.provenanceThreadId = some s → ∃ thread, Id.parse "thr_" s = .ok thread
  turnId : ∀ s, row.provenanceTurnId = some s → ∃ turn, Id.parse "trn_" s = .ok turn
  excerpt : ∀ s, row.excerpt = some s → ∃ excerpt, MemoryExcerpt.tryFrom s = .ok excerpt
  createdAt : 0 ≤ row.createdAt
  updatedAt : 0 ≤ row.updatedAt
  expiresAt : ∀ t, row.expiresAt = some t → 0 ≤ t
  supersededBy : ∀ s, row.supersededBy = some s → ∃ other, Id.parse "mem_" s = .ok other

theorem exists_rowToMemoryRecord {id : String} {row : MemoryRow} :
    (∃ record, rowToMemoryRecord id row = .ok record) ↔ row.Decodes id := by
  unfold rowToMemoryRecord
  simp only [exists_ok_bind, exists_ok_pure, and_true, exists_and_right, exists_readId,
    exists_readEntity, exists_readMillis, exists_readU8, exists_readOption]
  constructor
  · rintro ⟨h1, h2, h3, h4, h5, h6, h7, h8, h9, h10, h11, h12, h13, h14, h15⟩
    exact ⟨h1, h2, h3, h4, h5, h6, h7, h8, h9, h10, h11, h12, h13, h14, h15⟩
  · intro h
    exact ⟨h.confidence, h.memoryId, h.content, h.scope, h.kind, h.state, h.sensitivity, h.source,
      h.threadId, h.turnId, h.excerpt, h.createdAt, h.updatedAt, h.expiresAt, h.supersededBy⟩

/-- The checks the mapper makes on a permission row. -/
structure PermissionRow.Decodes (id : String) (row : PermissionRow) : Prop where
  eventId : ∃ eventId, Id.parse "evt_" id = .ok eventId
  turnId : ∃ turnId, Id.parse "trn_" row.turnId = .ok turnId
  threadId : ∃ threadId, Id.parse "thr_" row.threadId = .ok threadId
  kind : ∃ kind, PermissionKind.tryFromStr row.kind = .ok kind
  description : row.description.utf8ByteSize ≤ maxPermissionDescriptionBytes
  decision : ∃ decision, PermissionDecision.tryFromStr row.decision = .ok decision
  requestedAt : 0 ≤ row.requestedAt
  decidedAt : ∀ t, row.decidedAt = some t → 0 ≤ t

theorem exists_rowToPermission {id : String} {row : PermissionRow} :
    (∃ permission, rowToPermission id row = .ok permission) ↔ row.Decodes id := by
  unfold rowToPermission
  simp only [exists_ok_bind, exists_ok_pure, and_true, exists_and_right, exists_readId,
    exists_readEntity, exists_readMillis, exists_readOption, PermissionDescription.tryFrom_ok_iff]
  constructor
  · rintro ⟨h1, h2, h3, h4, h5, h6, h7, h8⟩
    exact ⟨h1, h2, h3, h4, h5, h6, h7, h8⟩
  · intro h
    exact ⟨h.eventId, h.turnId, h.threadId, h.kind, h.description, h.decision, h.requestedAt,
      h.decidedAt⟩

/-! ## When a query succeeds -/

theorem exists_collectRows {β : Type} {rows : List (String × α)}
    {map : String → α → Except ReadError β} :
    (∃ out, collectRows rows map = .ok out) ↔ ∀ row ∈ rows, ∃ b, map row.1 row.2 = .ok b := by
  unfold collectRows
  induction rows with
  | nil => simp [exists_ok_pure]
  | cons row rows ih =>
    rw [List.mapM_cons, exists_ok_bind, List.forall_mem_cons, ← ih]
    simp only [exists_ok_bind, exists_ok_pure, and_true, exists_and_right]

/-- Every row of the two decoded tables goes through its mapper. -/
structure RowsDecode (p : Projections) : Prop where
  memory : ∀ (id : String) (row : MemoryRow), p.memory[id]? = some row → row.Decodes id
  permission : ∀ (id : String) (row : PermissionRow), p.permission[id]? = some row → row.Decodes id

/-- No read of a memory or permission fails, by whatever query. -/
structure Readable (p : Projections) : Prop where
  getMemory : ∀ memoryId, ∃ r, getMemory p memoryId = .ok r
  listMemories : ∀ scopeFilter stateFilter limit cursor,
    ∃ r, listMemories p scopeFilter stateFilter limit cursor = .ok r
  searchMemories : ∀ ftsMatch instrMatch scopeFilter now,
    ∃ r, searchMemories p ftsMatch instrMatch scopeFilter now = .ok r
  permissionByEventId : ∀ eventId, ∃ r, permissionByEventId p eventId = .ok r
  permissionsForTurn : ∀ turnId after limit, ∃ r, permissionsForTurn p turnId after limit = .ok r
  permissionsForThread : ∀ threadId after limit,
    ∃ r, permissionsForThread p threadId after limit = .ok r

/-- A page is a part of its table, whatever selects and orders it. -/
theorem getElem?_of_mem_page {t : Table String α} {select : String × α → Bool}
    {order : String × α → String × α → Bool} {limit : Nat} {row : String × α}
    (h : row ∈ ((t.toList.filter select).mergeSort order).take limit) : t[row.1]? = some row.2 := by
  have hmem := (List.mergeSort_perm _ _).mem_iff.1 (List.mem_of_mem_take h)
  exact Std.ExtTreeMap.mem_toList_iff_getElem?_eq_some.1 (List.mem_filter.1 hmem).1

theorem RowsDecode.permissionPage (h : RowsDecode p) (column : PermissionRow → Bool)
    (after : Option (UInt64 × EventId)) (limit : Nat) :
    ∃ r, permissionPage p column after limit = .ok r := by
  refine exists_collectRows.2 fun row hrow => ?_
  exact exists_rowToPermission.2 (h.permission _ _ (getElem?_of_mem_page hrow))

theorem RowsDecode.searchMemories (h : RowsDecode p)
    (ftsMatch instrMatch : Option (String → Bool)) (scopeFilter : Option MemoryScope)
    (now : UInt64) : ∃ r, searchMemories p ftsMatch instrMatch scopeFilter now = .ok r := by
  unfold Storage.searchMemories
  simp only [exists_ok_bind, exists_ok_pure, and_true, exists_and_right, exists_collectRows,
    exists_rowToMemoryRecord]
  refine ⟨fun row hrow => ?_, fun row hrow => ?_⟩
  · cases ftsMatch with
    | none => cases hrow
    | some m => exact h.memory _ _ (mem_ftsHits hrow).1
  · cases instrMatch with
    | none => cases hrow
    | some m =>
      have hmem : row ∈ p.memory.toList := (List.mem_filter.1 hrow).1
      exact h.memory _ _ (Std.ExtTreeMap.mem_toList_iff_getElem?_eq_some.1 hmem)

theorem RowsDecode.readable (h : RowsDecode p) : Readable p where
  getMemory _ :=
    exists_readOption.2 fun row hrow => exists_rowToMemoryRecord.2 (h.memory _ row hrow)
  listMemories _ _ _ _ :=
    exists_collectRows.2 fun _ hrow =>
      exists_rowToMemoryRecord.2 (h.memory _ _ (getElem?_of_mem_page hrow))
  searchMemories := h.searchMemories
  permissionByEventId _ :=
    exists_readOption.2 fun row hrow => exists_rowToPermission.2 (h.permission _ row hrow)
  permissionsForTurn _ := h.permissionPage _
  permissionsForThread _ := h.permissionPage _

/-- The keys of the two tables are identifiers. -/
structure KeysParse (p : Projections) : Prop where
  memory : ∀ k ∈ p.memory, ∃ id : MemoryId, id.asStr = k
  permission : ∀ k ∈ p.permission, ∃ id : EventId, id.asStr = k

theorem rowsDecode_empty : RowsDecode .empty where
  memory id row h := by simp [Projections.empty] at h
  permission id row h := by simp [Projections.empty] at h

theorem keysParse_empty : KeysParse .empty where
  memory k hk := by simp [Projections.empty] at hk
  permission k hk := by simp [Projections.empty] at hk

/-- Under keys that are identifiers the reads by key see every row. -/
theorem Readable.rowsDecode (h : Readable p) (hkeys : KeysParse p) :
    RowsDecode p where
  memory k row hrow := by
    obtain ⟨id, rfl⟩ := hkeys.memory k (Table.mem_iff.2 ⟨row, hrow⟩)
    exact exists_rowToMemoryRecord.1 (exists_readOption.1 (h.getMemory id) row hrow)
  permission k row hrow := by
    obtain ⟨id, rfl⟩ := hkeys.permission k (Table.mem_iff.2 ⟨row, hrow⟩)
    exact exists_rowToPermission.1 (exists_readOption.1 (h.permissionByEventId id) row hrow)

section

variable [SerdeJson]

open SerdeJson

/-! ## What the payload has to hold beyond the checks of the journal -/

/-- The event creates a memory row. -/
def createsMemory (p : Projections) (e : DomainEvent) : Prop :=
  e.kind = .memoryProposed ∨ e.kind = .memoryConfirmed ∧ memoryIdOf e ∉ p.memory

/-- The event creates a permission row. -/
def createsPermission (p : Projections) (e : DomainEvent) : Prop :=
  e.kind = .permissionRequested ∧ e.eventId.asStr ∉ p.permission

/-- The columns of a new memory that only the mapper checks: the provenance has
to name identifiers and the expiry must not be negative. -/
structure MemoryDecodable (v : Json) : Prop where
  threadId : ∀ s, v.getStr "provenance_thread_id" = some s → ∃ thread, Id.parse "thr_" s = .ok thread
  turnId : ∀ s, v.getStr "provenance_turn_id" = some s → ∃ turn, Id.parse "trn_" s = .ok turn
  expiresAt : ∀ t, v.getI64 "expires_at" = some t → 0 ≤ t

/-- The payload passes the checks that only the mappers make. -/
structure PayloadDecodable (p : Projections) (e : DomainEvent) : Prop where
  memory : createsMemory p e → ∀ v, fromSlice e.payload.asBytes = some v → MemoryDecodable v
  permission : createsPermission p e →
    ((extractJsonString e.payload.asBytes "description").getD "").utf8ByteSize
      ≤ maxPermissionDescriptionBytes

/-! ## Memory rows -/

variable {at_ : Int} {e : DomainEvent} {p' : Projections}

omit [SerdeJson] in
/-- A checked draft decodes up to the columns the journal does not check. -/
theorem draftRow_decodes {v : Json} {state source : String} {explicit : Bool} {id : String}
    (h : CheckedDraft v) (hid : ∃ memoryId, Id.parse "mem_" id = .ok memoryId) (hat : 0 ≤ at_)
    (hstate : ∃ s, MemoryState.tryFromStr state = .ok s)
    (hsource : ∃ s, MemorySource.tryFromStr source = .ok s) :
    (draftRow v state source explicit at_).Decodes id ↔ MemoryDecodable v := by
  obtain ⟨content, hcontent, hblank, hsize⟩ := h.content
  constructor
  · intro hdecodes
    exact ⟨hdecodes.threadId, hdecodes.turnId, hdecodes.expiresAt⟩
  · intro hextra
    refine ⟨?_, hid, ?_, h.scope, h.kind, hstate, ?_, ?_, hextra.threadId, hextra.turnId, ?_, hat,
      hat, hextra.expiresAt, fun s hs => by cases hs⟩
    · simp only [draftRow]
      cases hconf : v.getU64 "confidence" with
      | none => decide
      | some n =>
        obtain ⟨hlow, hhigh⟩ := toInt64_of_le_hundred (h.confidence n hconf)
        exact ⟨hlow, Int.le_trans hhigh (by decide)⟩
    · simp only [draftRow, hcontent, Option.getD_some]
      exact MemoryContent.exists_of_bounded hblank hsize
    · simp only [draftRow]
      cases hsens : v.getStr "sensitivity" with
      | none => exact ⟨.normal, rfl⟩
      | some s => exact h.sensitivity s hsens
    · simp only [draftRow]
      cases hsrc : v.getStr "source" with
      | none => exact hsource
      | some s => exact h.source s hsrc
    · intro s hs
      exact MemoryExcerpt.exists_of_bounded (h.excerpt s hs)

/-- A move keeps a row decodable. -/
theorem MemoryMove.decodes {row row' : MemoryRow} {id : String} (h : MemoryMove e at_ row row')
    (hat : 0 ≤ at_) (hrow : row.Decodes id) : row'.Decodes id := by
  cases h with
  | confirm => exact { hrow with updatedAt := hat, state := ⟨.confirmed, rfl⟩ }
  | reject => exact { hrow with updatedAt := hat, state := ⟨.rejected, rfl⟩ }
  | forget => exact { hrow with updatedAt := hat, state := ⟨.forgotten, rfl⟩ }
  | expire => exact { hrow with updatedAt := hat, state := ⟨.expired, rfl⟩ }
  | supersede hkind h hnone hid =>
    refine { hrow with updatedAt := hat, supersededBy := ?_ }
    intro s hs
    cases hs
    exact hid

/-- The memory rows decode after an accepted event iff the payload does, should
it create a row. -/
theorem memoryRows_step {seq : Int} (hvalid : validateDomainEventInTx p e = .ok ())
    (hfold : foldDomainEventInTx p e seq at_ = .ok p') (hat : 0 ≤ at_)
    (h : ∀ (id : String) (row : MemoryRow), p.memory[id]? = some row → row.Decodes id) :
    (∀ (id : String) (row : MemoryRow), p'.memory[id]? = some row → row.Decodes id) ↔
      (createsMemory p e → ∀ v, fromSlice e.payload.asBytes = some v → MemoryDecodable v) := by
  cases memory_step hvalid hfold with
  | same hkind hsame =>
    rw [hsame.memory]
    refine iff_of_true h ?_
    rintro (hk | ⟨hk, -⟩) <;> rw [hk] at hkind <;> cases hkind
  | @create v row hv hdraft hcreate hnew hmemory hfts =>
    have hid : ∃ id, Id.parse "mem_" (memoryIdOf e) = .ok id := by
      obtain ⟨-, -, -, hid, -⟩ := validate_memory hvalid (by cases hcreate <;> simp_all [isMemoryKind])
      exact hid
    have hrow : row.Decodes (memoryIdOf e) ↔ MemoryDecodable v := by
      cases hcreate with
      | proposed => exact draftRow_decodes hdraft hid hat ⟨.candidate, rfl⟩ ⟨.inferred, rfl⟩
      | confirmed => exact draftRow_decodes hdraft hid hat ⟨.confirmed, rfl⟩ ⟨.explicit, rfl⟩
    have hcreates : createsMemory p e := by
      cases hcreate with
      | proposed hk => exact .inl hk
      | confirmed hk => exact .inr ⟨hk, Table.not_mem_iff.2 hnew⟩
    rw [hmemory, Table.forall_insert_iff h, hrow]
    constructor
    · rintro hextra - v' hv'
      rw [hv, Option.some.injEq] at hv'
      exact hv' ▸ hextra
    · intro hextra
      exact hextra hcreates v hv
  | @move row row' hrow hmove hmemory hfts =>
    rw [hmemory]
    refine iff_of_true ((Table.forall_insert_iff h).2 (hmove.decodes hat (h _ _ hrow))) ?_
    have hmem : memoryIdOf e ∈ p.memory := Table.mem_iff.2 ⟨row, hrow⟩
    rintro (hk | ⟨-, hnot⟩)
    · cases hmove <;> simp_all
    · exact absurd hmem hnot

/-! ## Permission rows -/

/-- What an accepted event does to the permission table. -/
inductive PermissionStep (e : DomainEvent) (at_ : Int) (p p' : Projections) : Prop
  | same (hnot : ¬ createsPermission p e) (h : p'.permission = p.permission)
  | request (hcreates : createsPermission p e) (turn : TurnId) (thread : ThreadId) (kind : String)
      (hkind : kind ∈ ["execute", "read", "write", "network"])
      (h : p'.permission = p.permission.insert e.eventId.asStr
        { turnId := turn.asStr, threadId := thread.asStr, kind := kind
          description := (extractJsonString e.payload.asBytes "description").getD ""
          decision := "pending", requestedAt := at_, decidedAt := none })
  | decide (hnot : ¬ createsPermission p e) {id : String} {row : PermissionRow}
      (hrow : p.permission[id]? = some row) (decision : String)
      (hdecision : decision ∈ ["approved", "denied"])
      (h : p'.permission =
        p.permission.insert id { row with decision := decision, decidedAt := some at_ })

/-- Every accepted event is a permission step. -/
theorem permissionTable_step {seq : Int} (hvalid : validateDomainEventInTx p e = .ok ())
    (hfold : foldDomainEventInTx p e seq at_ = .ok p') : PermissionStep e at_ p p' := by
  by_cases hreq : e.kind = .permissionRequested
  · obtain ⟨v, t, hv, ht, hchecks, -⟩ :=
      validateKind_of_validate hvalid (by rw [hreq]; rfl) (by rw [hreq]; rfl)
    simp only [validateKind, hreq] at hchecks
    obtain ⟨turn, hturn, hchecks⟩ := bind_eq_ok.1 hchecks
    obtain ⟨⟨⟩, -, hchecks⟩ := bind_eq_ok.1 hchecks
    obtain ⟨⟨⟩, -, hchecks⟩ := bind_eq_ok.1 hchecks
    obtain ⟨-, -, hchecks⟩ := bind_eq_ok.1 hchecks
    obtain ⟨kind, hkind, hchecks⟩ := bind_eq_ok.1 hchecks
    have hturn := requireSome_eq_ok.1 hturn
    have hperm := (foldDomainEventInTx_turnScope hfold ht).2
    simp only [foldTurnScope, hreq, hturn, foldPermissionRequested] at hperm
    split at hperm
    · rename_i hmem
      exact .same (fun hc => hc.2 hmem) hperm
    · rename_i hmem
      have hget : (extractJsonString e.payload.asBytes "permission_kind").getD "execute" = kind := by
        rw [extractJsonString_of_fromSlice hv, req_eq_ok hkind, Option.getD_some]
      rw [hget] at hperm
      exact .request ⟨hreq, hmem⟩ turn t kind (require_eq_ok.1 hchecks) hperm
  · have hnot : ¬ createsPermission p e := fun hc => hreq hc.1
    by_cases hdec : e.kind = .permissionDecided
    · obtain ⟨turn, thread, id, row, hturn, hthread, hid, hdecision, hrow, -⟩ :=
        validate_permissionDecided hvalid hdec
      have hperm := (foldDomainEventInTx_turnScope hfold hthread).2
      have hpayload : extractJsonString e.payload.asBytes "permission_event_id" = some id := hid
      simp only [foldTurnScope, hdec, foldPermissionDecided, hpayload,
        Projections.updatePermission] at hperm
      rw [Table.update_eq_insert hrow] at hperm
      exact .decide hnot hrow (decisionOf e) hdecision hperm
    · refine .same hnot (Std.ExtTreeMap.ext_getElem? fun id => ?_)
      refine permission_of_skip hvalid hfold ?_
      unfold permissionAct
      cases hk : e.kind <;> first | contradiction | rfl

/-- The permission rows decode after an accepted event iff the description it
requests with does. -/
theorem permissionRows_step {seq : Int} (hvalid : validateDomainEventInTx p e = .ok ())
    (hfold : foldDomainEventInTx p e seq at_ = .ok p') (hat : 0 ≤ at_)
    (h : ∀ (id : String) (row : PermissionRow), p.permission[id]? = some row → row.Decodes id) :
    (∀ (id : String) (row : PermissionRow), p'.permission[id]? = some row → row.Decodes id) ↔
      (createsPermission p e →
        ((extractJsonString e.payload.asBytes "description").getD "").utf8ByteSize
          ≤ maxPermissionDescriptionBytes) := by
  cases permissionTable_step hvalid hfold with
  | same hnot hsame =>
    rw [hsame]
    exact iff_of_true h fun hc => absurd hc hnot
  | request hcreates turn thread kind hkind hinsert =>
    rw [hinsert, Table.forall_insert_iff h]
    constructor
    · intro hrow _
      exact hrow.description
    · intro hsize
      refine ⟨⟨_, Id.parse_asStr _⟩, ⟨_, Id.parse_asStr _⟩, ⟨_, Id.parse_asStr _⟩, ?_,
        hsize hcreates, ⟨.pending, rfl⟩, hat, fun t ht => by cases ht⟩
      simp only [List.mem_cons, List.not_mem_nil, or_false] at hkind
      rcases hkind with rfl | rfl | rfl | rfl <;> exact ⟨_, rfl⟩
  | decide hnot hrow decision hdecision hinsert =>
    rw [hinsert]
    refine iff_of_true ((Table.forall_insert_iff h).2 ?_) fun hc => absurd hc hnot
    refine { h _ _ hrow with decision := ?_, decidedAt := ?_ }
    · simp only [List.mem_cons, List.not_mem_nil, or_false] at hdecision
      rcases hdecision with rfl | rfl <;> exact ⟨_, rfl⟩
    · intro t ht
      cases ht
      exact hat

/-! ## Runs of appends -/

theorem keysParse_step {seq : Int} (hvalid : validateDomainEventInTx p e = .ok ())
    (hfold : foldDomainEventInTx p e seq at_ = .ok p') (h : KeysParse p) : KeysParse p' where
  memory k hk := by
    cases memory_step hvalid hfold with
    | same hkind hsame => exact h.memory k (hsame.memory ▸ hk)
    | create hv hdraft hcreate hnew hmemory hfts =>
      obtain ⟨-, -, -, ⟨id, hid⟩, -⟩ :=
        validate_memory hvalid (by cases hcreate <;> simp_all [isMemoryKind])
      rw [hmemory, Table.mem_insert_iff] at hk
      rcases hk with rfl | hk
      · exact ⟨id, Id.asStr_of_parse hid⟩
      · exact h.memory k hk
    | move hrow hmove hmemory hfts =>
      rw [hmemory, Table.mem_insert_iff] at hk
      rcases hk with rfl | hk
      · exact h.memory _ (Table.mem_iff.2 ⟨_, hrow⟩)
      · exact h.memory k hk
  permission k hk := by
    cases permissionTable_step hvalid hfold with
    | same hnot hsame => exact h.permission k (hsame ▸ hk)
    | request hcreates turn thread kind hkind hinsert =>
      rw [hinsert, Table.mem_insert_iff] at hk
      rcases hk with rfl | hk
      · exact ⟨e.eventId, rfl⟩
      · exact h.permission k hk
    | decide hnot hrow decision hdecision hinsert =>
      rw [hinsert, Table.mem_insert_iff] at hk
      rcases hk with rfl | hk
      · exact h.permission _ (Table.mem_iff.2 ⟨_, hrow⟩)
      · exact h.permission k hk

/-- The store under appends, one input an event. -/
def appendMachine : Machine DomainStore DomainEvent := ⟨.empty, fun s e => storeStep s (.append e)⟩

/-- The event, should the journal accept it, can be read back. -/
def Decodable (s : DomainStore) (e : DomainEvent) : Prop :=
  Accepts s e → PayloadDecodable s.projections e

theorem keysParse_run (events : List DomainEvent) :
    KeysParse (appendMachine.run events).projections := by
  refine appendMachine.invariant (I := fun s => KeysParse s.projections) ?_ keysParse_empty events
  intro s e h
  rcases storeStep_append_cases s e with ⟨-, hsame⟩ | ⟨-, seq, hvalid, hfold, -⟩
  · change KeysParse (storeStep s (.append e)).projections
    rw [hsame]
    exact h
  · exact keysParse_step hvalid hfold h

/-- One append keeps the rows decodable exactly when its payload is. -/
theorem rowsDecode_step (s : DomainStore) (e : DomainEvent) (h : RowsDecode s.projections) :
    RowsDecode (storeStep s (.append e)).projections ↔ Decodable s e := by
  rcases storeStep_append_cases s e with ⟨hnot, hsame⟩ | ⟨haccept, seq, hvalid, hfold, -⟩
  · rw [hsame]
    exact iff_of_true h fun haccept => absurd haccept hnot
  · have hat : (0 : Int) ≤ e.occurredAt.toNat := Int.natCast_nonneg _
    have hmemory := memoryRows_step hvalid hfold hat h.memory
    have hpermission := permissionRows_step hvalid hfold hat h.permission
    constructor
    · intro h' _
      exact ⟨hmemory.1 h'.memory, hpermission.1 h'.permission⟩
    · intro hpayload
      exact ⟨hmemory.2 (hpayload haccept).memory, hpermission.2 (hpayload haccept).permission⟩

/-- **Accepted events can be read back** in every state of a run exactly when
each accepted payload passes the checks that only the mappers make. -/
theorem reads_succeed_iff (events : List DomainEvent) :
    (∀ prior, prior <+: events → Readable (appendMachine.run prior).projections) ↔
      appendMachine.Meets Decodable .empty events := by
  have hrows : ∀ prior, Readable (appendMachine.run prior).projections ↔
      RowsDecode (appendMachine.run prior).projections := fun prior =>
    ⟨fun h => h.rowsDecode (keysParse_run prior), RowsDecode.readable⟩
  simp only [hrows]
  exact appendMachine.prefixes_iff_meets (I := fun s => RowsDecode s.projections)
    rowsDecode_step rowsDecode_empty

end

/-! ## Samples -/

section Sample

attribute [local instance] flatJson

def sampleMemoryId : MemoryId := ⟨"mem_fixture000000001", by decide⟩

/-- A candidate whose provenance names a thread by its title. -/
def sampleMisfiled : DomainEvent :=
  sampleEvent ⟨"evt_fixture000000005", by decide⟩ none none .memoryProposed
    [("memory_id", .string "mem_fixture000000001"), ("content", .string "tabs"),
      ("provenance_thread_id", .string "chat")] (by decide)

/-- The journal accepts a provenance that is no identifier, and from then on the
memory cannot be read. -/
theorem misfiled_memory_unreadable :
    ¬ ∀ events : List DomainEvent, Readable (appendMachine.run events).projections := by
  intro h
  obtain ⟨r, hread⟩ := (h [sampleMisfiled]).getMemory sampleMemoryId
  have herr : getMemory (appendMachine.run [sampleMisfiled]).projections sampleMemoryId =
      .error (.invalidEntityData
        (.idError "invalid provenance thread_id: " .missingSeparator)) := by
    decide
  rw [herr] at hread
  cases hread

end Sample

end Altior.Storage
