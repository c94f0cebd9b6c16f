import Altior.Storage.Listings

/-!
# Paging through the listings

A client that follows the cursors of a listing finds every matching row once, in the
documented order, in every state of the store.  The permission and memory listings read
their rows back and fail on one that does not decode; the memory listing also begins
behind the largest time, and a memory of that time is never listed.
-/

namespace Altior.Storage

open Domain Lib
open Keyset (inOrder mem_inOrder)

/-! ## The rows of a table -/

section Rows

variable {α : Type} {pre : String} {time : α → Int} {t : Table String α}

theorem nodup_keys (t : Table String α) (select : String × α → Bool) :
    ((t.toList.filter select).map Prod.fst).Nodup := by
  refine (List.Nodup.sublist (List.filter_sublist.map _) ?_)
  rw [Std.ExtTreeMap.map_fst_toList_eq_keys]
  exact Std.ExtTreeMap.distinct_keys.imp fun hne heq => hne (Table.compare_eq_iff.2 heq)

theorem Admitted.nonempty (h : Admitted pre time t) {select : String × α → Bool} {r : String × α}
    (hr : r ∈ t.toList.filter select) : "" < r.1 := by
  obtain ⟨id, hid⟩ := h.key r.1 r.2 (mem_rows.1 hr).1
  rw [← hid]
  exact empty_lt_asStr id

/-- A row that is handed out as it is. -/
def asItIs (a : α) : Except ReadError α := .ok a

theorem mapM_asItIs (rows : List α) : rows.mapM asItIs = .ok rows :=
  Keyset.mapM_eq_ok_iff.2 (List.forall₂_same.2 fun _ _ => rfl)

/-- The cursor of a row that is handed out as it is: its time and its key, if they are a time
and a key. -/
def rowCursor (pre : String) (time : α → Int) (r : String × α) : Option (UInt64 × Id pre) :=
  (Id.parse pre r.1).toOption.bind fun id =>
    if time r.2 < 0 then none else some (.ofNat (time r.2).toNat, id)

theorem toNat_ofNat_of_inColumn {t : Int} (h : InColumn t) :
    ((UInt64.ofNat t.toNat).toNat : Int) = t := by
  have hmax : (i64Max : Int) < 18446744073709551616 := by decide
  have hlt := lt_of_le_of_lt h.2 hmax
  have hpos := h.1
  rw [UInt64.toNat_ofNat_of_lt' (show t.toNat < 18446744073709551616 by omega)]
  omega

/-- The rows of a table that are handed out as they are. -/
theorem Admitted.pageable (h : Admitted pre time t) (select : String × α → Bool) :
    Pageable time (t.toList.filter select) asItIs (rowCursor pre time) cut where
  keys := nodup_keys t select
  nonempty _ hr := h.nonempty hr
  times r hr := h.time r.1 r.2 (mem_rows.1 hr).1
  cursor r hr b hb := by
    cases hb
    have hrow := (mem_rows.1 hr).1
    have htime := h.time r.1 r.2 hrow
    obtain ⟨id, hid⟩ := h.key r.1 r.2 hrow
    refine ⟨(.ofNat (time r.2).toNat, id), ?_, toNat_ofNat_of_inColumn htime, hid⟩
    unfold rowCursor
    rw [← hid, Id.parse_asStr]
    exact if_neg (not_lt.2 htime.1)

end Rows

/-! ## Permissions -/

/-- Reads a permission row. -/
def readPermission (r : String × PermissionRow) : Except ReadError Permission :=
  rowToPermission r.1 r.2

/-- The cursor of a permission. -/
def permissionCursor (permission : Permission) : Option (UInt64 × EventId) :=
  some (permission.requestedAt, permission.eventId)

theorem permissionPage_eq (p : Projections) (column : PermissionRow → Bool)
    (after : Option (UInt64 × EventId)) (limit : Nat) :
    permissionPage p column after limit =
      (oldestPage PermissionRow.requestedAt (p.permission.toList.filter fun r => column r.2)
        (after.map cut) limit).mapM readPermission := by
  have hfilter : (fun r : String × PermissionRow => oldestBehind PermissionRow.requestedAt
      (after.map cut) r && column r.2) = fun r => column r.2 &&
        oldestBehind PermissionRow.requestedAt (after.map cut) r :=
    funext fun r => Bool.and_comm _ _
  unfold permissionPage collectRows oldestPage
  rw [List.filter_filter, hfilter]
  cases after <;> rfl

/-- What is read of a permission row has its time and its key. -/
theorem readPermission_eq_ok {r : String × PermissionRow} {permission : Permission}
    (h : readPermission r = .ok permission) (htime : InColumn r.2.requestedAt) :
    (permission.requestedAt.toNat : Int) = r.2.requestedAt ∧ permission.eventId.asStr = r.1 := by
  obtain ⟨eventId, hid, h⟩ := bind_eq_ok.1 h
  obtain ⟨_, -, h⟩ := bind_eq_ok.1 h
  obtain ⟨_, -, h⟩ := bind_eq_ok.1 h
  obtain ⟨_, -, h⟩ := bind_eq_ok.1 h
  obtain ⟨_, -, h⟩ := bind_eq_ok.1 h
  obtain ⟨_, -, h⟩ := bind_eq_ok.1 h
  obtain ⟨requestedAt, hrequested, h⟩ := bind_eq_ok.1 h
  obtain ⟨_, -, h⟩ := bind_eq_ok.1 h
  cases h
  refine ⟨readMillis_toNat hrequested (lt_of_le_of_lt htime.2 (by decide)), ?_⟩
  exact Id.asStr_of_parse (readId_eq_ok hid)

variable {p : Projections}

theorem pageable_permissions (h : ColumnsAdmitted p) (column : PermissionRow → Bool) :
    Pageable PermissionRow.requestedAt (p.permission.toList.filter fun r => column r.2)
      readPermission permissionCursor cut where
  keys := nodup_keys p.permission _
  nonempty _ hr := h.permission.nonempty hr
  times r hr := h.permission.time r.1 r.2 (mem_rows.1 hr).1
  cursor r hr permission hread := by
    have htime := h.permission.time r.1 r.2 (mem_rows.1 hr).1
    exact ⟨_, rfl, readPermission_eq_ok hread htime⟩

/-! ## Memories -/

/-- Reads a memory row. -/
def readMemory (r : String × MemoryRow) : Except ReadError MemoryRecord :=
  rowToMemoryRecord r.1 r.2

/-- The cursor of a memory. -/
def memoryCursor (record : MemoryRecord) : Option (UInt64 × MemoryId) :=
  some (record.updatedAt, record.memoryId)

/-- Newest first, and the largest key first within one time. -/
def memoryKey (r : String × MemoryRow) : Intᵒᵈ ×ₗ Stringᵒᵈ :=
  toLex (OrderDual.toDual r.2.updatedAt, OrderDual.toDual r.1)

/-- The row meets the filters of the listing. -/
def memorySelected (scopeFilter : Option MemoryScope) (stateFilter : Option MemoryState)
    (r : String × MemoryRow) : Bool :=
  (scopeFilter.map scopeColumns).all (fun s =>
      s.1 == r.2.scopeKind && s.2.all fun t => r.2.scopeTarget == some t)
    && stateFilter.all (fun state => state.asStr == r.2.state)

/-- `updated_at < ?4 OR (updated_at = ?4 AND memory_id < ?5)`. -/
def memoryBehind (cursor : Option (UInt64 × MemoryId)) (r : String × MemoryRow) : Bool :=
  let beforeUpdatedAt : Int := cursor.elim i64Max fun c => min (c.1.toNat : Int) i64Max
  let beforeMemoryId := cursor.elim "" fun c => c.2.asStr
  r.2.updatedAt < beforeUpdatedAt || (r.2.updatedAt == beforeUpdatedAt && r.1 < beforeMemoryId)

theorem memoryKey_lt_iff {a b : String × MemoryRow} : memoryKey a < memoryKey b ↔
    b.2.updatedAt < a.2.updatedAt ∨ b.2.updatedAt = a.2.updatedAt ∧ b.1 < a.1 := by
  unfold memoryKey
  rw [Prod.Lex.toLex_lt_toLex, OrderDual.toDual_lt_toDual, OrderDual.toDual_lt_toDual,
    OrderDual.toDual_inj, @eq_comm _ a.2.updatedAt]

theorem memoryKey_le_iff {a b : String × MemoryRow} : memoryKey a ≤ memoryKey b ↔
    b.2.updatedAt < a.2.updatedAt ∨ b.2.updatedAt = a.2.updatedAt ∧ b.1 ≤ a.1 := by
  unfold memoryKey
  rw [Prod.Lex.toLex_le_toLex, OrderDual.toDual_lt_toDual, OrderDual.toDual_le_toDual,
    OrderDual.toDual_inj, @eq_comm _ a.2.updatedAt]

/-- The rows that meet the filters. -/
def memoryRows (p : Projections) (scopeFilter : Option MemoryScope)
    (stateFilter : Option MemoryState) : List (String × MemoryRow) :=
  p.memory.toList.filter (memorySelected scopeFilter stateFilter)

theorem listMemories_eq (p : Projections) (scopeFilter : Option MemoryScope)
    (stateFilter : Option MemoryState) (limit : Nat) (cursor : Option (UInt64 × MemoryId)) :
    listMemories p scopeFilter stateFilter limit cursor =
      ((inOrder memoryKey ((memoryRows p scopeFilter stateFilter).filter
        (memoryBehind cursor))).take limit).mapM readMemory := by
  have hfilter : (fun r => memoryBehind cursor r && memorySelected scopeFilter stateFilter r) =
      fun r => memorySelected scopeFilter stateFilter r && memoryBehind cursor r :=
    funext fun r => Bool.and_comm _ _
  have horder : (fun a b => decide (memoryKey a ≤ memoryKey b)) =
      fun a b : String × MemoryRow => decide (b.2.updatedAt < a.2.updatedAt)
        || (b.2.updatedAt == a.2.updatedAt && decide (b.1 ≤ a.1)) := by
    funext a b
    rw [Bool.eq_iff_iff]
    simp [memoryKey_le_iff]
  unfold listMemories collectRows memoryRows inOrder
  rw [List.filter_filter, hfilter, horder]
  rfl

/-- What is read of a memory row has its time and its key. -/
theorem readMemory_eq_ok {r : String × MemoryRow} {record : MemoryRecord}
    (h : readMemory r = .ok record) (htime : InColumn r.2.updatedAt) :
    (record.updatedAt.toNat : Int) = r.2.updatedAt ∧ record.memoryId.asStr = r.1 := by
  have hfrom := readFrom_of_rowToMemoryRecord h
  exact ⟨readMillis_toNat hfrom.updatedAt (lt_of_le_of_lt htime.2 (by decide)),
    Id.asStr_of_parse hfrom.memoryId⟩

/-- Without a cursor the listing begins behind the largest time. -/
theorem memoryBehind_none (r : String × MemoryRow) :
    memoryBehind none r = decide (r.2.updatedAt < i64Max) := by
  have hempty : ¬ r.1 < "" := by
    rw [String.lt_iff_toList_lt]
    exact List.not_lt_nil _
  change (decide (r.2.updatedAt < (i64Max : Int)) || (r.2.updatedAt == (i64Max : Int) &&
    decide (r.1 < ""))) = _
  rw [decide_eq_false hempty, Bool.and_false, Bool.or_false]

/-- **The memory listing is exact** when its rows can be read and none has the largest
time. -/
theorem memories_exact_iff (h : ColumnsAdmitted p) (scopeFilter : Option MemoryScope)
    (stateFilter : Option MemoryState) {limit : Nat} (hlimit : 0 < limit) :
    Keyset.Exact (fun c => listMemories p scopeFilter stateFilter limit c) memoryCursor readMemory
        (inOrder memoryKey (memoryRows p scopeFilter stateFilter)) ↔
      (∀ r ∈ memoryRows p scopeFilter stateFilter, ∃ record, readMemory r = .ok record) ∧
        ∀ r ∈ memoryRows p scopeFilter stateFilter, r.2.updatedAt < i64Max := by
  have htimes : ∀ r ∈ memoryRows p scopeFilter stateFilter, InColumn r.2.updatedAt :=
    fun r hr => h.memory.time r.1 r.2 (mem_rows.1 hr).1
  have hquery : Keyset.Query memoryKey (memoryRows p scopeFilter stateFilter) limit readMemory
      (fun c => listMemories p scopeFilter stateFilter limit c) memoryCursor
      (memoryBehind none) (fun c => memoryBehind (some c)) := by
    refine ⟨?_, listMemories_eq _ _ _ _ none, fun c => listMemories_eq _ _ _ _ (some c),
      fun r hr record hread => ⟨_, rfl, fun other _ => ?_⟩, fun r _ other _ hstart hlt => ?_⟩
    · refine List.Nodup.of_map (fun k : Intᵒᵈ ×ₗ Stringᵒᵈ => OrderDual.ofDual (ofLex k).2) ?_
      rw [List.map_map]
      exact nodup_keys p.memory _
    · obtain ⟨htime, hkey⟩ := readMemory_eq_ok hread (htimes r hr)
      have hmin : min (record.updatedAt.toNat : Int) i64Max = r.2.updatedAt := by
        rw [htime]
        exact min_eq_left (htimes r hr).2
      rw [Bool.eq_iff_iff]
      simp [memoryBehind, memoryKey_lt_iff, hmin, hkey]
    · rw [memoryBehind_none, decide_eq_true_eq] at hstart ⊢
      rcases memoryKey_lt_iff.1 hlt with hlt | ⟨heq, -⟩
      · exact hlt.trans hstart
      · rw [heq]
        exact hstart
  rw [hquery.exact_iff hlimit]
  simp only [memoryBehind_none, decide_eq_true_eq]

/-! ## All listings -/

/-- A listing with its filters; a search is given by the titles its query matches. -/
inductive Listing
  | threads (stateFilter : Option ThreadState)
  | search (titleMatches : String → Bool)
  | turns (threadId : ThreadId)
  | permissionsOfTurn (turnId : TurnId)
  | permissionsOfThread (threadId : ThreadId)
  | checkpoints (threadId : Option ThreadId)
  | checkpointsByState (state : CheckpointState) (threadId : Option ThreadId)
  | memories (scopeFilter : Option MemoryScope) (stateFilter : Option MemoryState)

section Listings

variable [SerdeJson]

/-- The cursor of a checkpoint. -/
def checkpointCursor (r : String × RuntimeCheckpoint) : Option (UInt64 × RuntimeCheckpointId) :=
  some (r.2.createdAt, r.2.id)

/-- Following the cursors ends, and the pages hold every matching row, each once and in the
documented order. -/
def Listing.Exact (s : Store) (limit : Nat) : Listing → Prop
  | threads stateFilter =>
    Keyset.Exact (fun c => asItIs (threadList s.domain.projections stateFilter c limit))
      (rowCursor "thr_" ThreadRow.updatedAt) asItIs
      (inOrder (newestKey ThreadRow.updatedAt) (s.domain.projections.thread.toList.filter fun r =>
        stateFilter.all fun state => state.asStr == r.2.state))
  | search titleMatches =>
    Keyset.Exact (fun c => asItIs (searchThreads s.domain.projections titleMatches c limit))
      (rowCursor "thr_" ThreadRow.updatedAt) asItIs
      (inOrder (newestKey ThreadRow.updatedAt) (s.domain.projections.thread.toList.filter fun r =>
        titleMatches r.2.title))
  | turns threadId =>
    Keyset.Exact (fun c => asItIs (turnPage s.domain.projections threadId c limit))
      (rowCursor "trn_" TurnRow.startedAt) asItIs
      (inOrder (oldestKey TurnRow.startedAt) (s.domain.projections.turn.toList.filter fun r =>
        r.2.threadId == threadId.asStr))
  | permissionsOfTurn turnId =>
    Keyset.Exact (fun c => permissionsForTurn s.domain.projections turnId c limit)
      permissionCursor readPermission
      (inOrder (oldestKey PermissionRow.requestedAt)
        (s.domain.projections.permission.toList.filter fun r => r.2.turnId == turnId.asStr))
  | permissionsOfThread threadId =>
    Keyset.Exact (fun c => permissionsForThread s.domain.projections threadId c limit)
      permissionCursor readPermission
      (inOrder (oldestKey PermissionRow.requestedAt)
        (s.domain.projections.permission.toList.filter fun r => r.2.threadId == threadId.asStr))
  | checkpoints threadId =>
    Keyset.Exact (fun c => asItIs (runtimeCheckpointPage s threadId c limit)) checkpointCursor asItIs
      (inOrder (newestKey checkpointTime) (s.checkpointRows.filter fun r =>
        threadId.all (· == r.2.threadId)))
  | checkpointsByState state threadId =>
    Keyset.Exact (fun c => asItIs (Storage.checkpointsByState s state threadId c limit))
      checkpointCursor asItIs
      (inOrder (newestKey checkpointTime) (s.checkpointRows.filter fun r =>
        r.2.state == state && threadId.all (· == r.2.threadId)))
  | memories scopeFilter stateFilter =>
    Keyset.Exact (fun c => listMemories s.domain.projections scopeFilter stateFilter limit c)
      memoryCursor readMemory
      (inOrder memoryKey (memoryRows s.domain.projections scopeFilter stateFilter))

/-- The rows that are read back decode, and no listed memory has the largest time. -/
def Listing.Sound (s : Store) : Listing → Prop
  | permissionsOfTurn turnId => ∀ (id : String) row,
      s.domain.projections.permission[id]? = some row → row.turnId = turnId.asStr → row.Decodes id
  | permissionsOfThread threadId => ∀ (id : String) row,
      s.domain.projections.permission[id]? = some row → row.threadId = threadId.asStr →
        row.Decodes id
  | memories scopeFilter stateFilter => ∀ (id : String) row,
      s.domain.projections.memory[id]? = some row →
        memorySelected scopeFilter stateFilter (id, row) = true →
        row.Decodes id ∧ row.updatedAt < i64Max
  | _ => True

theorem pageable_checkpoints {s : Store} (h : ContentAdmitted s) (keep : RuntimeCheckpoint → Bool) :
    Pageable checkpointTime (s.checkpointRows.filter fun r => keep r.2) asItIs checkpointCursor
      cut := by
  have hrow : ∀ r ∈ s.checkpointRows.filter fun r => keep r.2,
      r.1 = r.2.id.asStr ∧ r.2.createdAt.toNat ≤ i64Max := by
    intro r hr
    obtain ⟨x, hx, rfl⟩ := List.mem_map.1 (List.mem_filter.1 hr).1
    obtain ⟨hid, htime⟩ :=
      h.checkpoint x.1 x.2 (Std.ExtTreeMap.mem_toList_iff_getElem?_eq_some.1 hx)
    exact ⟨congrArg Id.asStr hid.symm, htime⟩
  refine ⟨?_, fun r hr => ?_, fun r hr => ?_, fun r hr b hb => ?_⟩
  · refine List.Nodup.sublist (List.filter_sublist.map _) ?_
    unfold Store.checkpointRows
    rw [List.map_map]
    have hkeys : (s.checkpoint.toList.map Prod.fst).Nodup := by
      rw [Std.ExtTreeMap.map_fst_toList_eq_keys]
      exact Std.ExtTreeMap.distinct_keys.imp fun hne heq => hne (Table.compare_eq_iff.2 heq)
    have hmap := hkeys.map fun a b hab => Id.asStr_inj.1 hab
    rwa [List.map_map] at hmap
  · rw [(hrow r hr).1]
    exact empty_lt_asStr _
  · exact ⟨Int.natCast_nonneg _, Int.ofNat_le.2 (hrow r hr).2⟩
  · cases hb
    exact ⟨_, rfl, rfl, (hrow r hr).1.symm⟩

omit [SerdeJson] in
/-- Rows that are handed out as they are can be read. -/
theorem forall_asItIs {α : Type} (rows : List α) : ∀ r ∈ rows, ∃ b, asItIs r = .ok b :=
  fun r _ => ⟨r, rfl⟩

omit [SerdeJson] in
theorem forall_readPermission {column : PermissionRow → Bool} :
    (∀ r ∈ p.permission.toList.filter fun r => column r.2, ∃ b, readPermission r = .ok b) ↔
      ∀ (id : String) row, p.permission[id]? = some row → column row = true → row.Decodes id := by
  constructor
  · intro h id row hrow hcolumn
    exact exists_rowToPermission.1 (h (id, row) (mem_rows.2 ⟨hrow, hcolumn⟩))
  · intro h r hr
    exact exists_rowToPermission.2 (h r.1 r.2 (mem_rows.1 hr).1 (mem_rows.1 hr).2)

omit [SerdeJson] in
theorem permissions_exact_iff (h : ColumnsAdmitted p) (column : PermissionRow → Bool)
    {limit : Nat} (hlimit : 0 < limit) :
    Keyset.Exact (fun c => permissionPage p column c limit) permissionCursor readPermission
        (inOrder (oldestKey PermissionRow.requestedAt)
          (p.permission.toList.filter fun r => column r.2)) ↔
      ∀ (id : String) row, p.permission[id]? = some row → column row = true → row.Decodes id := by
  rw [(pageable_permissions h column).oldest_exact_iff hlimit fun c => permissionPage_eq p column c limit]
  exact forall_readPermission

omit [SerdeJson] in
/-- The searched index has the titles of the threads. -/
theorem search_rows (h : p.Indexed) (titleMatches : String → Bool) :
    (p.thread.toList.filter fun r => p.threadSearch[r.1]?.any titleMatches) =
      p.thread.toList.filter fun r => titleMatches r.2.title := by
  refine List.filter_congr fun r hr => ?_
  rw [h.getElem?_threadSearch, Std.ExtTreeMap.mem_toList_iff_getElem?_eq_some.1 hr]
  rfl

/-- **Cursor pagination is exact** in every state of a run and for every page size, exactly
when the listed rows that are read back decode and no listed memory has the largest time. -/
theorem listing_exact_iff (inputs : List ContentInput) {limit : Nat} (hlimit : 0 < limit)
    (listing : Listing) :
    listing.Exact (contentMachine.run inputs) limit ↔
      listing.Sound (contentMachine.run inputs) := by
  have hadmitted := contentAdmitted_run inputs
  generalize contentMachine.run inputs = s at hadmitted
  have hcolumns := hadmitted.domain.columns
  cases listing with
  | threads stateFilter =>
    refine iff_of_true ?_ trivial
    exact ((hcolumns.thread.pageable _).newest_exact_iff hlimit fun c =>
      (mapM_asItIs _).symm).2 (forall_asItIs _)
  | search titleMatches =>
    refine iff_of_true ?_ trivial
    simp only [Listing.Exact]
    rw [← search_rows hadmitted.domain.indexed]
    exact ((hcolumns.thread.pageable _).newest_exact_iff hlimit fun c =>
      (mapM_asItIs _).symm).2 (forall_asItIs _)
  | turns threadId =>
    refine iff_of_true ?_ trivial
    exact ((hcolumns.turn.pageable _).oldest_exact_iff hlimit fun c =>
      (mapM_asItIs _).symm).2 (forall_asItIs _)
  | permissionsOfTurn turnId =>
    refine (permissions_exact_iff hcolumns _ hlimit).trans ?_
    simp only [Listing.Sound, beq_iff_eq]
  | permissionsOfThread threadId =>
    refine (permissions_exact_iff hcolumns _ hlimit).trans ?_
    simp only [Listing.Sound, beq_iff_eq]
  | checkpoints threadId =>
    refine iff_of_true ?_ trivial
    have hpageable := pageable_checkpoints hadmitted fun row => threadId.all (· == row.threadId)
    exact (hpageable.newest_exact_iff hlimit fun c =>
      (mapM_asItIs _).symm).2 (forall_asItIs _)
  | checkpointsByState state threadId =>
    refine iff_of_true ?_ trivial
    have hpageable := pageable_checkpoints hadmitted fun row =>
      row.state == state && threadId.all (· == row.threadId)
    exact (hpageable.newest_exact_iff hlimit fun c =>
      (mapM_asItIs _).symm).2 (forall_asItIs _)
  | memories scopeFilter stateFilter =>
    refine (memories_exact_iff hcolumns scopeFilter stateFilter hlimit).trans ?_
    constructor
    · rintro ⟨hread, htime⟩ id row hrow hselected
      have hmem : (id, row) ∈ memoryRows s.domain.projections scopeFilter stateFilter :=
        mem_rows.2 ⟨hrow, hselected⟩
      exact ⟨exists_rowToMemoryRecord.1 (hread _ hmem), htime _ hmem⟩
    · intro h
      have hrow : ∀ r ∈ memoryRows s.domain.projections scopeFilter stateFilter,
          r.2.Decodes r.1 ∧ r.2.updatedAt < i64Max :=
        fun r hr => h r.1 r.2 (mem_rows.1 hr).1 (mem_rows.1 hr).2
      exact ⟨fun r hr => exists_rowToMemoryRecord.2 (hrow r hr).1, fun r hr => (hrow r hr).2⟩

end Listings

/-! ## A sample run -/

section Sample

attribute [local instance] flatJson

/-- A candidate at the largest time a column holds. -/
def sampleLatest : DomainEvent :=
  { sampleRemembered with
    eventId := ⟨"evt_fixture000000013", by decide⟩, kind := .memoryProposed,
    occurredAt := 9223372036854775807 }

/-- The journal accepts the largest time, and the memory listing leaves the memory out. -/
theorem latest_memory_unlisted :
    ¬ ∀ (inputs : List ContentInput) (limit : Nat), 0 < limit → ∀ listing : Listing,
      listing.Exact (contentMachine.run inputs) limit := by
  intro h
  have hcolumns := (contentAdmitted_run [.append sampleLatest]).domain.columns
  have hexact : Listing.Exact (contentMachine.run [.append sampleLatest]) 50 (.memories none none) :=
    h [.append sampleLatest] 50 (by decide) (.memories none none)
  have htimes := ((memories_exact_iff hcolumns none none (by decide)).1 hexact).2
  have hrow : ((contentMachine.run [.append sampleLatest]).domain.projections.memory[
      "mem_fixture000000001"]?).map MemoryRow.updatedAt = some (i64Max : Int) := by
    decide
  obtain ⟨row, hrow, htime⟩ := Option.map_eq_some_iff.1 hrow
  have hlt := htimes ("mem_fixture000000001", row) (mem_rows.2 ⟨hrow, rfl⟩)
  rw [htime] at hlt
  exact lt_irrefl _ hlt

/-- The turns of the sample thread, a page at a time. -/
theorem listing_exact_iff_sample :
    (Listing.turns sampleThreadId).Exact
        (contentMachine.run (sampleTurn.map ContentInput.append)) 1 ↔
      (Listing.turns sampleThreadId).Sound
        (contentMachine.run (sampleTurn.map ContentInput.append)) :=
  listing_exact_iff (sampleTurn.map ContentInput.append) (by decide) (.turns sampleThreadId)

end Sample

end Altior.Storage
