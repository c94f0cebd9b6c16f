import Mathlib.Algebra.Group.Int.Defs
import Altior.Lib.Encoding
import Altior.Storage.Journal

/-!
# What the projection digest tells apart

The bytes `domain_projection_digest` hashes determine the rows of the four tables: texts
stand behind their length, nullable columns and rows behind a tag.
-/

namespace Altior.Storage

open Lib

/-! ## Columns -/

/-- A column as the digest reads it. -/
inductive Column
  | text (s : String)
  | optText (s : Option String)
  | int (v : Int)
  | optInt (v : Option Int)

namespace Column

def bytes : Column → List UInt8
  | text s => writeStr s
  | optText s => writeOptStr s
  | int v => writeI64 v
  | optInt v => writeOptI64 v

/-- The length of a text, within what a `usize` holds. -/
abbrev FitsText (s : String) : Prop := s.utf8ByteSize < 256 ^ 8

/-- The integers of a column. -/
abbrev FitsInt (v : Int) : Prop := -(2 ^ 63) ≤ v ∧ v < 2 ^ 63

/-- What the types of the columns admit. -/
def Fits : Column → Prop
  | text s => FitsText s
  | optText s => ∀ x ∈ s, FitsText x
  | int v => FitsInt v
  | optInt v => ∀ x ∈ v, FitsInt x

theorem delimited_writeStr : Delimited FitsText writeStr := by
  have hbytes {s : String} (hs : FitsText s) :
      writeStr s = toBe 8 s.utf8ByteSize ++ asBytes s := by
    have hmod : s.utf8ByteSize % 18446744073709551616 = s.utf8ByteSize := Nat.mod_eq_of_lt hs
    rw [writeStr, writeU64, toBeBytes_eq_toBe, hmod]
    rfl
  intro s t rest rest' hs ht h
  rw [hbytes hs, hbytes ht] at h
  exact delimited_text 8 hs ht h

theorem delimited_writeI64 : Delimited FitsInt writeI64 := by
  intro v w rest rest' hv hw h
  rw [writeI64, writeI64, toBeBytes_eq_toBe, toBeBytes_eq_toBe] at h
  obtain ⟨hnat, hrest⟩ := delimited_toBe 8 (by omega) (by omega) h
  exact ⟨by omega, hrest⟩

theorem writeOptStr_eq (s : Option String) :
    writeOptStr s = s.elim [0] fun x => 1 :: writeStr x := by cases s <;> rfl

theorem writeOptI64_eq (v : Option Int) :
    writeOptI64 v = v.elim [0] fun x => 1 :: writeI64 x := by cases v <;> rfl

/-- Two columns of one type are read back. -/
theorem bytes_append {c d : Column} {s t : List UInt8} (htype : c.ctorIdx = d.ctorIdx)
    (hc : c.Fits) (hd : d.Fits) (h : c.bytes ++ s = d.bytes ++ t) : c = d ∧ s = t := by
  have hmarks : (0 : UInt8) ≠ 1 := by decide
  cases c with
  | text x =>
    cases d with
    | text y =>
      obtain ⟨rfl, hrest⟩ := delimited_writeStr hc hd h
      exact ⟨rfl, hrest⟩
    | _ => cases htype
  | optText x =>
    cases d with
    | optText y =>
      simp only [bytes, writeOptStr_eq] at h
      obtain ⟨rfl, hrest⟩ := delimited_writeStr.option hmarks hc hd h
      exact ⟨rfl, hrest⟩
    | _ => cases htype
  | int x =>
    cases d with
    | int y =>
      obtain ⟨rfl, hrest⟩ := delimited_writeI64 hc hd h
      exact ⟨rfl, hrest⟩
    | _ => cases htype
  | optInt x =>
    cases d with
    | optInt y =>
      simp only [bytes, writeOptI64_eq] at h
      obtain ⟨rfl, hrest⟩ := delimited_writeI64.option hmarks hc hd h
      exact ⟨rfl, hrest⟩
    | _ => cases htype

end Column

/-! ## Rows -/

/-- Rows of one table, each its tag and its columns, are read back. -/
theorem delimited_row {α : Type} {tag : UInt8} {f : α → List UInt8} {columns : α → List Column}
    (hf : ∀ a, f a = tag :: (columns a).flatMap Column.bytes)
    (htypes : ∀ a b, (columns a).map Column.ctorIdx = (columns b).map Column.ctorIdx)
    (hcolumns : Function.Injective columns) :
    Delimited (fun a => ∀ c ∈ columns a, c.Fits) f := by
  have hread : ∀ (l l' : List Column) {s t : List UInt8},
      l.map Column.ctorIdx = l'.map Column.ctorIdx → (∀ c ∈ l, c.Fits) → (∀ c ∈ l', c.Fits) →
      l.flatMap Column.bytes ++ s = l'.flatMap Column.bytes ++ t → l = l' ∧ s = t := by
    intro l
    induction l with
    | nil =>
      intro l' s t hmap _ _ h
      rw [List.map_nil, eq_comm, List.map_eq_nil_iff] at hmap
      subst hmap
      exact ⟨rfl, h⟩
    | cons c l ih =>
      intro l' s t hmap hl hl' h
      cases l' with
      | nil => cases hmap
      | cons d l' =>
        rw [List.map_cons, List.map_cons, List.cons.injEq] at hmap
        rw [List.flatMap_cons, List.flatMap_cons, List.append_assoc, List.append_assoc] at h
        rw [List.forall_mem_cons] at hl hl'
        obtain ⟨rfl, hrest⟩ := Column.bytes_append hmap.1 hl.1 hl'.1 h
        obtain ⟨rfl, hst⟩ := ih l' hmap.2 hl.2 hl'.2 hrest
        exact ⟨rfl, hst⟩
  intro a b s t ha hb h
  rw [hf, hf] at h
  obtain ⟨heq, hrest⟩ := hread _ _ (htypes a b) ha hb (List.cons.inj h).2
  exact ⟨hcolumns heq, hrest⟩

def threadColumns : String × ThreadRow → List Column
  | (id, r) => [.text id, .text r.agentProfileId, .text r.title, .text r.state,
      .optText r.projectId, .int r.eventCount, .optInt r.firstEventSeq, .optInt r.lastEventSeq,
      .optText r.lastEventId, .optText r.lastEventKind, .int r.createdAt, .int r.updatedAt]

def turnColumns : String × TurnRow → List Column
  | (id, r) => [.text id, .text r.threadId, .optText r.operationId, .text r.state,
      .text r.delivery, .int r.eventCount, .int r.startedAt, .optInt r.endedAt]

def permissionColumns : String × PermissionRow → List Column
  | (id, r) => [.text id, .text r.turnId, .text r.threadId, .text r.kind, .text r.description,
      .text r.decision, .int r.requestedAt, .optInt r.decidedAt]

def memoryColumns : String × MemoryRow → List Column
  | (id, r) => [.text id, .text r.content, .text r.scopeKind, .optText r.scopeTarget,
      .text r.kind, .text r.state, .int r.confidence, .text r.sensitivity, .text r.source,
      .int r.explicit, .optText r.provenanceThreadId, .optText r.provenanceTurnId,
      .optText r.excerpt, .int r.createdAt, .int r.updatedAt, .optInt r.expiresAt,
      .optText r.supersededBy]

theorem threadBytes_eq (x : String × ThreadRow) :
    threadBytes x.1 x.2 = 0x54 :: (threadColumns x).flatMap Column.bytes := by
  simp [threadBytes, threadColumns, Column.bytes, writeTag]

theorem turnBytes_eq (x : String × TurnRow) :
    turnBytes x.1 x.2 = 0x55 :: (turnColumns x).flatMap Column.bytes := by
  simp [turnBytes, turnColumns, Column.bytes, writeTag]

theorem permissionBytes_eq (x : String × PermissionRow) :
    permissionBytes x.1 x.2 = 0x50 :: (permissionColumns x).flatMap Column.bytes := by
  simp [permissionBytes, permissionColumns, Column.bytes, writeTag]

theorem memoryBytes_eq (x : String × MemoryRow) :
    memoryBytes x.1 x.2 = 0x4D :: (memoryColumns x).flatMap Column.bytes := by
  simp [memoryBytes, memoryColumns, Column.bytes, writeTag]

theorem delimited_threadBytes : Delimited (fun x => ∀ c ∈ threadColumns x, c.Fits)
    fun x : String × ThreadRow => threadBytes x.1 x.2 := by
  refine delimited_row threadBytes_eq (fun _ _ => rfl) ?_
  rintro ⟨id, row⟩ ⟨id', row'⟩ h
  cases row
  cases row'
  simpa [threadColumns] using h

theorem delimited_turnBytes : Delimited (fun x => ∀ c ∈ turnColumns x, c.Fits)
    fun x : String × TurnRow => turnBytes x.1 x.2 := by
  refine delimited_row turnBytes_eq (fun _ _ => rfl) ?_
  rintro ⟨id, row⟩ ⟨id', row'⟩ h
  cases row
  cases row'
  simpa [turnColumns] using h

theorem delimited_permissionBytes : Delimited (fun x => ∀ c ∈ permissionColumns x, c.Fits)
    fun x : String × PermissionRow => permissionBytes x.1 x.2 := by
  refine delimited_row permissionBytes_eq (fun _ _ => rfl) ?_
  rintro ⟨id, row⟩ ⟨id', row'⟩ h
  cases row
  cases row'
  simpa [permissionColumns] using h

theorem delimited_memoryBytes : Delimited (fun x => ∀ c ∈ memoryColumns x, c.Fits)
    fun x : String × MemoryRow => memoryBytes x.1 x.2 := by
  refine delimited_row memoryBytes_eq (fun _ _ => rfl) ?_
  rintro ⟨id, row⟩ ⟨id', row'⟩ h
  cases row
  cases row'
  simpa [memoryColumns] using h

/-! ## Tables -/

namespace Projections

/-- The columns hold what their types admit. -/
structure Fits (p : Projections) : Prop where
  thread : ∀ x ∈ p.thread.toList, ∀ c ∈ threadColumns x, c.Fits
  turn : ∀ x ∈ p.turn.toList, ∀ c ∈ turnColumns x, c.Fits
  permission : ∀ x ∈ p.permission.toList, ∀ c ∈ permissionColumns x, c.Fits
  memory : ∀ x ∈ p.memory.toList, ∀ c ∈ memoryColumns x, c.Fits

/-- The four tables are the same. -/
structure SameRows (p q : Projections) : Prop where
  thread : p.thread = q.thread
  turn : p.turn = q.turn
  permission : p.permission = q.permission
  memory : p.memory = q.memory

variable {p q : Projections}

/-- The tables are read back from their bytes. -/
theorem sameRows_of_projectionBytes (hp : p.Fits) (hq : q.Fits)
    (h : projectionBytes p = projectionBytes q) : p.SameRows q := by
  simp only [projectionBytes, tableBytes, List.append_assoc] at h
  have hthread (x : String × ThreadRow) : (threadBytes x.1 x.2).head? = some 0x54 := rfl
  have hturn (x : String × TurnRow) : (turnBytes x.1 x.2).head? = some 0x55 := rfl
  have hpermission (x : String × PermissionRow) :
      (permissionBytes x.1 x.2).head? = some 0x50 := rfl
  have hmemory (x : String × MemoryRow) : (memoryBytes x.1 x.2).head? = some 0x4D := rfl
  -- What follows a table begins with the tag of a later one, or not at all.
  have hafter₃ {mark : UInt8} (hne : 0x4D ≠ mark) (l : List (String × MemoryRow)) :=
    Delimited.head?_flatMap_append (s := []) hmemory hne l nofun
  have hafter₂ {mark : UInt8} (hne : 0x50 ≠ mark) (hne' : 0x4D ≠ mark)
      (l : List (String × PermissionRow)) (l' : List (String × MemoryRow)) :=
    Delimited.head?_flatMap_append hpermission hne l (hafter₃ hne' l')
  have hafter₁ (l : List (String × TurnRow)) (l' : List (String × PermissionRow))
      (l'' : List (String × MemoryRow)) :=
    Delimited.head?_flatMap_append hturn (show (0x55 : UInt8) ≠ 0x54 by decide) l
      (hafter₂ (by decide) (by decide) l' l'')
  rw [← List.append_nil (p.memory.toList.flatMap _), ← List.append_nil (q.memory.toList.flatMap _)]
    at h
  obtain ⟨hthreads, h⟩ := delimited_threadBytes.flatMap hthread hp.thread hq.thread
    (hafter₁ _ _ _) (hafter₁ _ _ _) h
  obtain ⟨hturns, h⟩ := delimited_turnBytes.flatMap hturn hp.turn hq.turn
    (hafter₂ (by decide) (by decide) _ _) (hafter₂ (by decide) (by decide) _ _) h
  obtain ⟨hpermissions, h⟩ := delimited_permissionBytes.flatMap hpermission hp.permission
    hq.permission (hafter₃ (by decide) _) (hafter₃ (by decide) _) h
  obtain ⟨hmemories, -⟩ := delimited_memoryBytes.flatMap hmemory hp.memory hq.memory
    (s := []) (t := []) nofun nofun h
  exact ⟨Std.ExtTreeMap.toList_inj.1 hthreads, Std.ExtTreeMap.toList_inj.1 hturns,
    Std.ExtTreeMap.toList_inj.1 hpermissions, Std.ExtTreeMap.toList_inj.1 hmemories⟩

end Projections

/-- Contents that are hashed from the same bytes are the same, so that a store whose rows
are not those its digest was taken of is rebuilt when it is opened. -/
theorem projectionBytes_tell_apart [Domain.SerdeJson] {p q : Projections} (hp : p.Fits) (hq : q.Fits) :
    (projectionBytes p = projectionBytes q → p.SameRows q) ∧
    ∀ (s : DomainStore) (m : ProjectionMarker), s.projections = q → s.marker = some m →
      m.projectionVersion = domainProjectionVersion →
      m.journalMaxSeq = domainJournalMaxSeq s.journal →
      m.projectionDigest = domainProjectionDigest p →
      (domainProjectionDigest p = domainProjectionDigest q →
        projectionBytes p = projectionBytes q) →
      ¬ p.SameRows q → needsRebuild s = .ok true := by
  refine ⟨Projections.sameRows_of_projectionBytes hp hq, ?_⟩
  rintro s m rfl hmarker hversion hseq hdigest hfree hdrift
  have hne : domainProjectionDigest s.projections ≠ m.projectionDigest := by
    intro heq
    exact hdrift (Projections.sameRows_of_projectionBytes hp hq
      (hfree (hdigest.symm.trans heq.symm)))
  simp only [needsRebuild, hmarker, hversion, hseq, bne_iff_ne.2 hne]
  simp

/-- Tables of one thread. -/
def titled (title : String) : Projections :=
  Projections.empty.insertThread "thr_1"
    ⟨"agt_1", title, "active", none, 1, some 1, some 1, none, none, 5, 5⟩

theorem fits_titled {title : String} (h : Column.FitsText title) : (titled title).Fits where
  thread := by
    rintro ⟨id, row⟩ hrow
    rw [Std.ExtTreeMap.mem_toList_iff_getElem?_eq_some, titled, Projections.insertThread,
      Table.getElem?_insert_eq] at hrow
    split at hrow
    · rename_i hid
      cases hrow
      subst hid
      simp only [threadColumns, List.forall_mem_cons, Column.Fits]
      exact ⟨by decide, by decide, h, by decide, nofun, by decide, by decide, by decide, nofun, nofun,
        by decide, by decide, nofun⟩
    · simp [Projections.empty] at hrow
  turn x hx := absurd hx (List.not_mem_nil)
  permission x hx := absurd hx (List.not_mem_nil)
  memory x hx := absurd hx (List.not_mem_nil)

section

local instance framingJson : Domain.SerdeJson := Domain.flatObjects

/-- A title that was changed in the file. -/
theorem projectionBytes_tell_apart_title :
    needsRebuild ⟨[], titled "b", some ⟨0, domainProjectionVersion, 0,
      domainProjectionDigest (titled "a")⟩⟩ = .ok true := by
  have hfits : (titled "a").Fits := fits_titled (by decide)
  have hfits' : (titled "b").Fits := fits_titled (by decide)
  refine (projectionBytes_tell_apart hfits hfits').2
    _ _ rfl rfl rfl rfl rfl (fun h => absurd h (by decide +kernel)) fun h => ?_
  exact absurd h.thread (by decide +kernel)

end

end Altior.Storage
