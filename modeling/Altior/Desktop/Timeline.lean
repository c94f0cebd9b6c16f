import Mathlib.Data.List.Nodup
import Altior.Domain.Id
import Altior.Lib.Table

/-!
# Timelines

The rows of a conversation as the desktop shows them
(`apps/desktop/src/features/timeline/timelineStore.ts`).  A row is found under the
identifier it was added with; when two rows have the same identifier, the one that was
added last is found.
-/

namespace Altior.Desktop

open Lib

inductive RowKind
  | userMessage
  | assistantMessage
  | tool
  | permission
  | error
  | unknown
deriving DecidableEq, Repr

/-- Whether a decision is on its way. -/
inductive Submission
  | submitting
  | failed
deriving DecidableEq, Repr

/-- A permission the agent asked for. -/
structure PermissionRequest where
  requestedAction : String
  scope : String
  decision : Option String
  submission : Option Submission
deriving DecidableEq, Repr

/-- A row.  The status of a tool is left out: no row ever has one. -/
structure TimelineRow where
  id : String
  kind : RowKind
  text : String
  permission : Option PermissionRequest
  streaming : Bool
deriving DecidableEq, Repr

/-- A timeline.  Slots are known by the order in which they were made; `byId` has the
slot of an identifier. -/
structure TimelineStore where
  slots : List (Nat × TimelineRow)
  byId : Table String Nat
  made : Nat
deriving DecidableEq

namespace TimelineStore

def empty : TimelineStore := ⟨[], ∅, 0⟩

/-- The rows, the oldest first. -/
def rows (t : TimelineStore) : List TimelineRow := t.slots.map Prod.snd

def getRow (t : TimelineStore) (id : String) : Option TimelineRow :=
  t.byId[id]?.bind fun slot => (t.slots.find? fun p => p.1 = slot).map Prod.snd

def appendRow (t : TimelineStore) (row : TimelineRow) : TimelineStore where
  slots := t.slots ++ [(t.made, row)]
  byId := t.byId.insert row.id t.made
  made := t.made + 1

/-- Slots for new rows, made one after the other. -/
def newSlots (made : Nat) (rows : List TimelineRow) : List (Nat × TimelineRow) :=
  (List.range' made rows.length).zip rows

def prependRows (t : TimelineStore) (rows : List TimelineRow) : TimelineStore where
  slots := newSlots t.made rows ++ t.slots
  byId := (newSlots t.made rows).foldl (fun byId p => byId.insert p.2.id p.1) t.byId
  made := t.made + rows.length

/-- Changes the row that is found under an identifier, if there is one. -/
def modify (t : TimelineStore) (id : String) (f : TimelineRow → TimelineRow) : TimelineStore :=
  match t.byId[id]? with
  | none => t
  | some slot => { t with slots := t.slots.map fun p => if p.1 = slot then (p.1, f p.2) else p }

/-- Appends a delta; where there is no row it throws, and nothing is changed. -/
def appendDelta (t : TimelineStore) (id text : String) : TimelineStore :=
  t.modify id fun row => { row with text := row.text ++ text }

def finishStreaming (t : TimelineStore) (id : String) : TimelineStore :=
  t.modify id fun row => { row with streaming := false }

/-- Settles a permission; where none was asked for it throws, and nothing is changed. -/
def setPermissionDecision (t : TimelineStore) (id decision : String) : TimelineStore :=
  t.modify id fun row => { row with
    permission := row.permission.map fun p =>
      { p with decision := some decision, submission := none } }

def setPermissionSubmission (t : TimelineStore) (id : String) (submission : Option Submission) :
    TimelineStore :=
  t.modify id fun row => { row with
    permission := row.permission.map fun p => { p with submission := submission } }

/-! ## What the operations do to the rows -/

section Rows

variable {t : TimelineStore}

@[simp] theorem rows_appendRow (row : TimelineRow) : (t.appendRow row).rows = t.rows ++ [row] := by
  rw [rows, appendRow, List.map_append]
  rfl

theorem map_snd_newSlots (made : Nat) (rows : List TimelineRow) :
    (newSlots made rows).map Prod.snd = rows := by
  rw [newSlots, List.map_snd_zip (Nat.le_of_eq List.length_range'.symm)]

@[simp] theorem rows_prependRows (rows : List TimelineRow) :
    (t.prependRows rows).rows = rows ++ t.rows := by
  rw [TimelineStore.rows, prependRows, List.map_append, map_snd_newSlots]
  rfl

end Rows

/-! ## What is found -/

/-- The names of the rows. -/
def ids (t : TimelineStore) : List String := t.rows.map TimelineRow.id

/-- The slot of a name has a row of that name, and every name has a slot. -/
structure Indexed (t : TimelineStore) : Prop where
  slot : ∀ (id : String) (n : Nat), t.byId[id]? = some n → ∃ row, (n, row) ∈ t.slots ∧ row.id = id
  known : ∀ row ∈ t.rows, row.id ∈ t.byId
  once : (t.slots.map Prod.fst).Nodup
  fresh : ∀ p ∈ t.slots, p.1 < t.made

variable {id : String} {row : TimelineRow}

section Indexed

variable {t : TimelineStore}

theorem indexed_empty : empty.Indexed where
  slot _ n h := absurd (Table.mem_iff.2 ⟨n, h⟩) Std.ExtTreeMap.not_mem_empty
  known _ h := absurd h List.not_mem_nil
  once := List.nodup_nil
  fresh _ h := absurd h List.not_mem_nil

theorem Indexed.appendRow (h : t.Indexed) (row : TimelineRow) : (t.appendRow row).Indexed where
  slot id n hn := by
    simp only [TimelineStore.appendRow, Table.getElem?_insert_eq] at hn
    split at hn
    · rename_i heq
      cases hn
      exact ⟨row, List.mem_append_right _ (List.mem_singleton.2 rfl), heq⟩
    · obtain ⟨row', hmem, hid⟩ := h.slot id n hn
      exact ⟨row', List.mem_append_left _ hmem, hid⟩
  known r hr := by
    rw [rows_appendRow, List.mem_append, List.mem_singleton] at hr
    refine Table.mem_insert_iff.2 (hr.elim (fun hr => .inr (h.known r hr)) fun heq => .inl ?_)
    rw [heq]
  once := by
    rw [TimelineStore.appendRow, List.map_append, List.nodup_append']
    refine ⟨h.once, List.nodup_singleton _, fun n hn hmade => ?_⟩
    obtain ⟨p, hp, rfl⟩ := List.mem_map.1 hn
    exact absurd (h.fresh p hp) (by simp_all)
  fresh p hp := by
    rcases List.mem_append.1 hp with hp | hp
    · exact Nat.lt_succ_of_lt (h.fresh p hp)
    · rw [List.mem_singleton.1 hp]
      exact Nat.lt_succ_self _

/-- The row under a name is the one in its slot. -/
theorem Indexed.getRow_eq_some_iff (h : t.Indexed) :
    t.getRow id = some row ↔ ∃ n, t.byId[id]? = some n ∧ (n, row) ∈ t.slots := by
  have hfind (n : Nat) : (t.slots.find? fun p => p.1 = n).map Prod.snd = some row ↔
      (n, row) ∈ t.slots := by
    rw [Option.map_eq_some_iff]
    constructor
    · rintro ⟨⟨n', row'⟩, hp, rfl⟩
      obtain rfl : n' = n := by simpa using List.find?_some hp
      exact List.mem_of_find?_eq_some hp
    · intro hmem
      cases hp : t.slots.find? fun p => p.1 = n with
      | none =>
        have := List.find?_eq_none.1 hp _ hmem
        simp at this
      | some p =>
        have hfst : p.1 = n := by simpa using List.find?_some hp
        have hsame := List.inj_on_of_nodup_map h.once (List.mem_of_find?_eq_some hp) hmem hfst
        exact ⟨p, rfl, by rw [hsame]⟩
  rw [getRow, Option.bind_eq_some_iff]
  exact exists_congr fun n => and_congr_right fun _ => hfind n

theorem Indexed.isSome_getRow (h : t.Indexed) : (t.getRow id).isSome ↔ id ∈ t.ids := by
  rw [Option.isSome_iff_exists, ids, List.mem_map]
  constructor
  · rintro ⟨row, hrow⟩
    obtain ⟨n, hn, -⟩ := h.getRow_eq_some_iff.1 hrow
    obtain ⟨row', hmem, hid⟩ := h.slot id n hn
    exact ⟨row', List.mem_map_of_mem hmem, hid⟩
  · rintro ⟨row, hrow, rfl⟩
    obtain ⟨n, hn⟩ := Table.mem_iff.1 (h.known row hrow)
    obtain ⟨row', hmem, -⟩ := h.slot _ n hn
    exact ⟨row', h.getRow_eq_some_iff.2 ⟨n, hn, hmem⟩⟩

end Indexed

/-! ## Rows that may be there -/

/-- Adds a row unless there is one of its name. -/
def appendMissing (t : TimelineStore) (row : TimelineRow) : TimelineStore :=
  if (t.getRow row.id).isNone then t.appendRow row else t

section Missing

variable {t : TimelineStore}

theorem Indexed.appendMissing_of_mem (h : t.Indexed) (hmem : row.id ∈ t.ids) :
    t.appendMissing row = t := by
  rw [appendMissing, if_neg]
  rw [Option.isNone_iff_eq_none, ← Option.not_isSome_iff_eq_none, not_not]
  exact h.isSome_getRow.2 hmem

theorem Indexed.appendMissing_of_not_mem (h : t.Indexed) (hmem : row.id ∉ t.ids) :
    t.appendMissing row = t.appendRow row := by
  rw [appendMissing, if_pos]
  rw [Option.isNone_iff_eq_none, ← Option.not_isSome_iff_eq_none]
  exact mt h.isSome_getRow.1 hmem

theorem Indexed.appendMissing (h : t.Indexed) (row : TimelineRow) : (t.appendMissing row).Indexed := by
  unfold TimelineStore.appendMissing
  split
  · exact h.appendRow row
  · exact h

/-- Names are added, and none is lost. -/
theorem Indexed.mem_ids_foldl_appendMissing (h : t.Indexed) {rows : List TimelineRow} :
    id ∈ (rows.foldl TimelineStore.appendMissing t).ids ↔
      id ∈ t.ids ∨ id ∈ rows.map TimelineRow.id := by
  induction rows generalizing t with
  | nil => simp
  | cons row rest ih =>
    rw [List.foldl_cons, ih (h.appendMissing row), List.map_cons, List.mem_cons, ← or_assoc]
    refine or_congr_left ?_
    by_cases hmem : row.id ∈ t.ids
    · rw [h.appendMissing_of_mem hmem]
      exact ⟨.inl, fun hor => hor.elim (fun hold => hold) fun heq => heq ▸ hmem⟩
    · rw [h.appendMissing_of_not_mem hmem, ids, rows_appendRow, List.map_append, List.mem_append]
      simp [ids]

/-- Rows with names of their own are all added. -/
theorem Indexed.rows_foldl_appendMissing (h : t.Indexed) {rows : List TimelineRow}
    (hnew : (rows.map TimelineRow.id).Nodup) (hapart : ∀ row ∈ rows, row.id ∉ t.ids) :
    (rows.foldl TimelineStore.appendMissing t).rows = t.rows ++ rows := by
  induction rows generalizing t with
  | nil => exact (List.append_nil _).symm
  | cons row rest ih =>
    rw [List.map_cons, List.nodup_cons] at hnew
    rw [List.foldl_cons, h.appendMissing_of_not_mem (hapart row List.mem_cons_self),
      ih (h.appendRow row) hnew.2, rows_appendRow, List.append_assoc, List.singleton_append]
    intro r hr
    rw [ids, rows_appendRow, List.map_append, List.mem_append, not_or]
    refine ⟨hapart r (List.mem_cons_of_mem _ hr), fun heq => hnew.1 ?_⟩
    rw [← List.mem_singleton.1 heq]
    exact List.mem_map_of_mem hr

end Missing

/-! ## Names -/

/-- The names that are not there yet, each once. -/
def newNames (names : List String) : List String → List String
  | [] => []
  | name :: rest =>
    if name ∈ names then newNames names rest else name :: newNames (names ++ [name]) rest

section Names

variable {t : TimelineStore}

@[simp] theorem ids_appendRow (row : TimelineRow) : (t.appendRow row).ids = t.ids ++ [row.id] := by
  rw [ids, rows_appendRow, List.map_append]
  rfl

@[simp] theorem ids_prependRows (rows : List TimelineRow) :
    (t.prependRows rows).ids = rows.map TimelineRow.id ++ t.ids := by
  rw [ids, rows_prependRows, List.map_append]
  rfl

/-- What is missing is added. -/
theorem Indexed.ids_foldl_appendMissing (h : t.Indexed) (rows : List TimelineRow) :
    (rows.foldl TimelineStore.appendMissing t).ids =
      t.ids ++ newNames t.ids (rows.map TimelineRow.id) := by
  induction rows generalizing t with
  | nil => exact (List.append_nil _).symm
  | cons row rest ih =>
    rw [List.foldl_cons, ih (h.appendMissing row), List.map_cons, newNames]
    by_cases hmem : row.id ∈ t.ids
    · rw [if_pos hmem, h.appendMissing_of_mem hmem]
    · rw [if_neg hmem, h.appendMissing_of_not_mem hmem, ids_appendRow, List.append_assoc]
      rfl

end Names

/-! ## What no operation takes away -/

/-- What is found of a name is right still, and no name is lost. -/
structure Kept (t t' : TimelineStore) : Prop where
  indexed : t.Indexed → t'.Indexed
  ids : t.ids ⊆ t'.ids

section Kept

variable {t t' t'' : TimelineStore}

theorem Kept.refl (t : TimelineStore) : t.Kept t := ⟨id, List.Subset.refl _⟩

theorem Kept.trans (h : t.Kept t') (h' : t'.Kept t'') : t.Kept t'' :=
  ⟨fun ht => h'.indexed (h.indexed ht), List.Subset.trans h.ids h'.ids⟩

theorem kept_appendRow (row : TimelineRow) : t.Kept (t.appendRow row) where
  indexed h := h.appendRow row
  ids := by
    rw [ids_appendRow]
    exact List.subset_append_left _ _

theorem kept_appendMissing (row : TimelineRow) : t.Kept (t.appendMissing row) := by
  unfold appendMissing
  split
  · exact kept_appendRow row
  · exact .refl t

theorem kept_foldl_appendMissing (rows : List TimelineRow) :
    t.Kept (rows.foldl TimelineStore.appendMissing t) := by
  induction rows generalizing t with
  | nil => exact .refl t
  | cons row rest ih => exact (kept_appendMissing row).trans ih

/-- The rows after a change of the one that is found under a name. -/
theorem rows_modify (id : String) (f : TimelineRow → TimelineRow) : (t.modify id f).rows =
    t.slots.map fun p => if t.byId[id]? = some p.1 then f p.2 else p.2 := by
  unfold modify
  split
  · rename_i hnone
    simp only [hnone, reduceCtorEq, if_false]
    rfl
  · rename_i slot hslot
    rw [hslot, rows, List.map_map]
    refine List.map_congr_left fun p _ => ?_
    by_cases hp : p.1 = slot
    · simp [hp]
    · simp [hp, Ne.symm hp]

/-- A row of another name stays as it is. -/
theorem Indexed.getElem?_rows_modify (h : t.Indexed) (f : TimelineRow → TimelineRow) {i : Nat}
    (hrow : t.rows[i]? = some row) (hne : row.id ≠ id) : (t.modify id f).rows[i]? = some row := by
  rw [rows, List.getElem?_map, Option.map_eq_some_iff] at hrow
  obtain ⟨p, hp, rfl⟩ := hrow
  rw [rows_modify, List.getElem?_map, hp, Option.map_some, if_neg]
  intro hslot
  obtain ⟨row', hmem, hid⟩ := h.slot id p.1 hslot
  have hsame := List.inj_on_of_nodup_map h.once hmem (List.mem_of_getElem? hp) rfl
  exact hne (by rw [← hsame, hid])

/-- The row that is found under a name is changed. -/
theorem Indexed.exists_rows_modify (h : t.Indexed) (f : TimelineRow → TimelineRow)
    (hid : id ∈ t.ids) : ∃ (i : Nat) (row : TimelineRow), t.rows[i]? = some row ∧ row.id = id ∧
      (t.modify id f).rows[i]? = some (f row) := by
  obtain ⟨row, hrow⟩ := Option.isSome_iff_exists.1 (h.isSome_getRow.2 hid)
  obtain ⟨n, hn, hmem⟩ := h.getRow_eq_some_iff.1 hrow
  obtain ⟨row', hmem', hid'⟩ := h.slot id n hn
  cases List.inj_on_of_nodup_map h.once hmem hmem' rfl
  obtain ⟨i, hi⟩ := List.getElem?_of_mem hmem
  refine ⟨i, row, ?_, hid', ?_⟩
  · rw [rows, List.getElem?_map, hi, Option.map_some]
  · rw [rows_modify, List.getElem?_map, hi, Option.map_some, if_pos hn]

variable {f : TimelineRow → TimelineRow}

theorem ids_modify (hf : ∀ row, (f row).id = row.id) : (t.modify id f).ids = t.ids := by
  rw [ids, ids, rows_modify, rows, List.map_map, List.map_map]
  refine List.map_congr_left fun p _ => ?_
  by_cases hp : t.byId[id]? = some p.1 <;> simp [hp, hf]

theorem Indexed.modify (h : t.Indexed) (hf : ∀ row, (f row).id = row.id) :
    (t.modify id f).Indexed := by
  have hids : (t.modify id f).ids = t.ids := ids_modify hf
  unfold TimelineStore.modify at hids ⊢
  split
  · exact h
  · rename_i slot hslot
    simp only [hslot] at hids
    refine ⟨fun id' n hn => ?_, fun row hrow => ?_, ?_, fun p hp => ?_⟩
    · obtain ⟨row, hmem, hid⟩ := h.slot id' n hn
      refine ⟨if n = slot then f row else row, ?_, ?_⟩
      · refine List.mem_map.2 ⟨(n, row), hmem, ?_⟩
        by_cases hn : n = slot <;> simp [hn]
      · split
        · rw [hf, hid]
        · exact hid
    · have hmem : row.id ∈ t.ids := hids ▸ List.mem_map_of_mem hrow
      obtain ⟨row', hrow', hid⟩ := List.mem_map.1 hmem
      exact hid ▸ h.known row' hrow'
    · rw [List.map_map]
      refine (List.map_congr_left fun p _ => ?_) ▸ h.once
      by_cases hp : p.1 = slot <;> simp [hp]
    · obtain ⟨q, hq, rfl⟩ := List.mem_map.1 hp
      have hlt := h.fresh q hq
      by_cases hq : q.1 = slot <;> simpa [hq] using hlt

theorem kept_modify (hf : ∀ row, (f row).id = row.id) : t.Kept (t.modify id f) :=
  ⟨fun h => h.modify hf, (ids_modify hf).symm ▸ List.Subset.refl _⟩

theorem kept_appendDelta (id text : String) : t.Kept (t.appendDelta id text) :=
  kept_modify fun _ => rfl

theorem kept_finishStreaming (id : String) : t.Kept (t.finishStreaming id) :=
  kept_modify fun _ => rfl

theorem kept_setPermissionDecision (id decision : String) :
    t.Kept (t.setPermissionDecision id decision) :=
  kept_modify fun _ => rfl

theorem kept_setPermissionSubmission (id : String) (submission : Option Submission) :
    t.Kept (t.setPermissionSubmission id submission) :=
  kept_modify fun _ => rfl

/-- The slots that rows are known by after more of them were made. -/
theorem of_index_foldl {slots : List (Nat × TimelineRow)} {byId : Table String Nat} {n : Nat}
    (h : (slots.foldl (fun byId p => byId.insert p.2.id p.1) byId)[id]? = some n) :
    (∃ row, (n, row) ∈ slots ∧ row.id = id) ∨ byId[id]? = some n := by
  induction slots generalizing byId with
  | nil => exact .inr h
  | cons p rest ih =>
    rcases ih h with ⟨row, hmem, hid⟩ | hn
    · exact .inl ⟨row, List.mem_cons_of_mem _ hmem, hid⟩
    · rw [Table.getElem?_insert_eq] at hn
      split at hn
      · rename_i heq
        cases hn
        exact .inl ⟨p.2, List.mem_cons_self, heq⟩
      · exact .inr hn

theorem mem_index_foldl {slots : List (Nat × TimelineRow)} {byId : Table String Nat} :
    id ∈ slots.foldl (fun byId p => byId.insert p.2.id p.1) byId ↔
      (∃ p ∈ slots, p.2.id = id) ∨ id ∈ byId := by
  induction slots generalizing byId with
  | nil => simp
  | cons p rest ih =>
    rw [List.foldl_cons, ih, Table.mem_insert_iff, List.exists_mem_cons_iff]
    constructor
    · rintro (hrest | heq | hold)
      · exact .inl (.inr hrest)
      · exact .inl (.inl heq.symm)
      · exact .inr hold
    · rintro ((heq | hrest) | hold)
      · exact .inr (.inl heq.symm)
      · exact .inl hrest
      · exact .inr (.inr hold)

theorem map_fst_newSlots (made : Nat) (rows : List TimelineRow) :
    (newSlots made rows).map Prod.fst = List.range' made rows.length := by
  rw [newSlots, List.map_fst_zip (Nat.le_of_eq List.length_range')]

theorem Indexed.prependRows (h : t.Indexed) (rows : List TimelineRow) :
    (t.prependRows rows).Indexed where
  slot id n hn := by
    rcases of_index_foldl hn with ⟨row, hmem, hid⟩ | hold
    · exact ⟨row, List.mem_append_left _ hmem, hid⟩
    · obtain ⟨row, hmem, hid⟩ := h.slot id n hold
      exact ⟨row, List.mem_append_right _ hmem, hid⟩
  known row hrow := by
    rw [rows_prependRows, List.mem_append] at hrow
    refine mem_index_foldl.2 (hrow.imp (fun hnew => ?_) (h.known row))
    rw [← map_snd_newSlots t.made rows] at hnew
    obtain ⟨p, hp, rfl⟩ := List.mem_map.1 hnew
    exact ⟨p, hp, rfl⟩
  once := by
    rw [TimelineStore.prependRows, List.map_append, map_fst_newSlots, List.nodup_append']
    refine ⟨List.nodup_range', h.once, fun n hn hold => ?_⟩
    obtain ⟨p, hp, rfl⟩ := List.mem_map.1 hold
    exact absurd (h.fresh p hp) (Nat.not_lt.2 (List.mem_range'_1.1 hn).1)
  fresh p hp := by
    rcases List.mem_append.1 hp with hnew | hold
    · have hmem : p.1 ∈ (newSlots t.made rows).map Prod.fst := List.mem_map_of_mem hnew
      rw [map_fst_newSlots] at hmem
      exact (List.mem_range'_1.1 hmem).2
    · exact Nat.lt_add_right _ (h.fresh p hold)

theorem kept_prependRows (rows : List TimelineRow) : t.Kept (t.prependRows rows) where
  indexed h := h.prependRows rows
  ids := by
    rw [ids_prependRows]
    exact List.subset_append_right _ _

end Kept

end TimelineStore

end Altior.Desktop
