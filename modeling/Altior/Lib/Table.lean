import Mathlib.Data.List.Basic

/-!
# Keyed tables

A table with a primary key: an ordered map in which two tables with the same
rows are equal.  The lemmas read the standard library's map lemmas at a lawful
order, with equality of keys in place of `compare`.
-/

namespace Altior.Lib

universe u v

/-- A table of rows `α` under a primary key `κ`. -/
abbrev Table (κ : Type u) (α : Type v) [Ord κ] : Type (max u v) := Std.ExtTreeMap κ α

namespace Table

variable {κ : Type u} {α : Type v} [Ord κ]

theorem compare_eq_iff [Std.LawfulEqOrd κ] {a b : κ} : compare a b = .eq ↔ a = b :=
  Std.LawfulEqCmp.compare_eq_iff_eq

variable [Std.TransOrd κ]

variable {k : κ} {t : Table κ α}

theorem mem_iff : k ∈ t ↔ ∃ v, t[k]? = some v := by
  rw [Std.ExtTreeMap.mem_iff_isSome_getElem?, Option.isSome_iff_exists]

theorem not_mem_iff : k ∉ t ↔ t[k]? = none := by
  rw [Std.ExtTreeMap.mem_iff_isSome_getElem?, Option.not_isSome_iff_eq_none]

variable [Std.LawfulEqOrd κ]

/-- Two tables with the same keys whose rows agree are equal. -/
theorem eq_of_rows {t' : Table κ α} (hmem : ∀ k, k ∈ t' ↔ k ∈ t)
    (hrows : ∀ (k : κ) v v', t[k]? = some v → t'[k]? = some v' → v' = v) : t' = t := by
  refine Std.ExtTreeMap.ext_getElem? fun k => ?_
  have hk := hmem k
  rw [mem_iff, mem_iff] at hk
  cases hv : t[k]? with
  | none => cases hv' : t'[k]? <;> simp_all
  | some v =>
    cases hv' : t'[k]? with
    | none => simp_all
    | some v' => rw [hrows k v v' hv hv']

variable [DecidableEq κ]

theorem getElem?_insert_eq (t : Table κ α) (k a : κ) (v : α) :
    (t.insert k v)[a]? = if k = a then some v else t[a]? := by
  simp only [Std.ExtTreeMap.getElem?_insert, compare_eq_iff]

@[simp] theorem getElem?_insert_same (t : Table κ α) (k : κ) (v : α) :
    (t.insert k v)[k]? = some v := by
  rw [getElem?_insert_eq, if_pos rfl]

theorem getElem?_insert_of_ne (t : Table κ α) {a : κ} (v : α) (h : k ≠ a) :
    (t.insert k v)[a]? = t[a]? := by
  rw [getElem?_insert_eq, if_neg h]

theorem getElem?_erase_eq (t : Table κ α) (k a : κ) :
    (t.erase k)[a]? = if k = a then none else t[a]? := by
  simp only [Std.ExtTreeMap.getElem?_erase, compare_eq_iff]

/-- `UPDATE t SET … WHERE key = k`: changes the row of `k`, if there is one. -/
def update (t : Table κ α) (k : κ) (f : α → α) : Table κ α := t.modify k f

theorem getElem?_update (t : Table κ α) (k a : κ) (f : α → α) :
    (t.update k f)[a]? = if k = a then t[a]?.map f else t[a]? := by
  unfold update
  rw [Std.ExtTreeMap.getElem?_modify]
  by_cases h : k = a
  · subst h
    simp
  · simp only [compare_eq_iff, h, if_false]

@[simp] theorem getElem?_update_same (t : Table κ α) (k : κ) (f : α → α) :
    (t.update k f)[k]? = t[k]?.map f := by
  rw [getElem?_update, if_pos rfl]

theorem getElem?_update_of_ne (t : Table κ α) {a : κ} (f : α → α) (h : k ≠ a) :
    (t.update k f)[a]? = t[a]? := by
  rw [getElem?_update, if_neg h]

theorem mem_update {a : κ} {f : α → α} : a ∈ t.update k f ↔ a ∈ t := by
  rw [mem_iff, mem_iff, getElem?_update]
  split
  · cases t[a]? <;> simp
  · rfl

theorem update_of_getElem?_none (t : Table κ α) (f : α → α) (h : t[k]? = none) :
    t.update k f = t := by
  refine Std.ExtTreeMap.ext_getElem? fun a => ?_
  rw [getElem?_update]
  split
  · rename_i hk
    subst hk
    rw [h, Option.map_none]
  · rfl

theorem update_eq_insert {row : α} (h : t[k]? = some row) (f : α → α) :
    t.update k f = t.insert k (f row) := by
  refine Std.ExtTreeMap.ext_getElem? fun a => ?_
  rw [getElem?_update, getElem?_insert_eq]
  split
  · rename_i hk
    rw [← hk, h, Option.map_some]
  · rfl

omit [DecidableEq κ] in
theorem mem_insert_iff {a : κ} {v : α} : a ∈ t.insert k v ↔ a = k ∨ a ∈ t := by
  rw [Std.ExtTreeMap.mem_insert, compare_eq_iff]
  exact or_congr_left eq_comm

/-- Inserting one row into a table of good rows leaves a table of good rows iff
the row is good. -/
theorem forall_insert_iff {row : α} {good : κ → α → Prop}
    (h : ∀ (a : κ) r, t[a]? = some r → good a r) :
    (∀ (a : κ) r, (t.insert k row)[a]? = some r → good a r) ↔ good k row := by
  constructor
  · intro hall
    exact hall k row (getElem?_insert_same t k row)
  · intro hrow a r hr
    rw [getElem?_insert_eq] at hr
    split at hr
    · rename_i heq
      cases hr
      exact heq ▸ hrow
    · exact h a r hr

/-- Folding upserts over rows with pairwise distinct keys changes each key at
most once. -/
theorem getElem?_foldl_upsert {β : Type v} (g : Option α → β → α) (rows : List (κ × β))
    (hrows : rows.Pairwise fun a b => a.1 ≠ b.1) (t : Table κ α) (a : κ) :
    (rows.foldl (fun t row => t.insert row.1 (g t[row.1]? row.2)) t)[a]? =
      (rows.find? fun row => row.1 = a).elim t[a]? fun row => some (g t[a]? row.2) := by
  induction rows generalizing t with
  | nil => rfl
  | cons row rows ih =>
    obtain ⟨hhead, htail⟩ := List.pairwise_cons.1 hrows
    rw [List.foldl_cons, ih htail, List.find?_cons]
    by_cases ha : row.1 = a
    · have hnone : rows.find? (fun row => row.1 = a) = none := by
        rw [List.find?_eq_none]
        intro other hother heq
        exact hhead other hother (ha.trans (of_decide_eq_true heq).symm)
      subst ha
      simp [hnone]
    · simp only [ha, decide_false, getElem?_insert_of_ne t _ ha]

/-- The same over all rows of a table. -/
theorem getElem?_foldl_toList {β : Type v} (g : Option α → β → α) (rows : Table κ β)
    (t : Table κ α) (a : κ) :
    (rows.toList.foldl (fun t row => t.insert row.1 (g t[row.1]? row.2)) t)[a]? =
      rows[a]?.elim t[a]? fun v => some (g t[a]? v) := by
  have hdistinct : rows.toList.Pairwise fun a b => a.1 ≠ b.1 :=
    (Std.ExtTreeMap.distinct_keys_toList (t := rows)).imp fun h heq => h (compare_eq_iff.2 heq)
  rw [getElem?_foldl_upsert g _ hdistinct]
  cases hfind : rows.toList.find? (fun row => decide (row.1 = a)) with
  | none =>
    have hnone : rows[a]? = none := by
      cases hrow : rows[a]? with
      | none => rfl
      | some v =>
        have hmem := Std.ExtTreeMap.mem_toList_iff_getElem?_eq_some.2 hrow
        exact absurd (List.find?_eq_none.1 hfind _ hmem) (by simp)
    rw [hnone, Option.elim_none, Option.elim_none]
  | some row =>
    have hkey : row.1 = a := by simpa using List.find?_some hfind
    have hrow : rows[a]? = some row.2 := by
      subst hkey
      exact Std.ExtTreeMap.mem_toList_iff_getElem?_eq_some.1 (List.mem_of_find?_eq_some hfind)
    rw [hrow, Option.elim_some, Option.elim_some]

/-! ## Deleting rows -/

omit [Std.LawfulEqOrd κ] [DecidableEq κ] in
/-- The rows of one kind or of another are the rows of the first and, without these,
the rows of the second. -/
theorem size_filter_or (t : Table κ α) (p q : α → Bool) :
    (t.filter fun _ row => p row || q row).size =
      (t.filter fun _ row => p row).size +
        ((t.filter fun _ row => !p row).filter fun _ row => q row).size := by
  simp only [← Std.ExtTreeMap.length_toList, Std.ExtTreeMap.toList_filter]
  induction t.toList with
  | nil => rfl
  | cons row rows ih =>
    rw [List.filter_filter] at ih ⊢
    cases hp : p row.2 <;> cases hq : q row.2 <;>
      simp only [List.filter_cons, hp, hq, Bool.or_self, Bool.or_true, Bool.or_false, if_true,
        if_false, Bool.false_eq_true, Bool.and_true, Bool.and_false, Bool.not_true,
        Bool.not_false, Bool.and_self, List.length_cons, ih] <;>
      omega

omit [DecidableEq κ] in
theorem filter_filter (t : Table κ α) (p q : α → Bool) :
    (t.filter fun _ row => p row).filter (fun _ row => q row) =
      t.filter fun _ row => p row && q row := by
  refine Std.ExtTreeMap.ext_getElem? fun k => ?_
  simp only [Std.ExtTreeMap.getElem?_filter', Option.filter_filter]

omit [Std.LawfulEqOrd κ] [DecidableEq κ] in
/-- What a filter leaves is the whole table iff it takes no row. -/
theorem filter_eq_self {p : α → Bool} :
    (t.filter fun _ row => !p row) = t ↔ ∀ (k : κ) row, t[k]? = some row → p row = false := by
  rw [Std.ExtTreeMap.filter_eq_self_iff]
  constructor
  · intro h k row hrow
    have hk : k ∈ t := mem_iff.2 ⟨row, hrow⟩
    have hp := h k hk
    rw [Std.ExtTreeMap.getElem?_eq_some_getElem hk, Option.some.injEq] at hrow
    simpa only [hrow, Bool.not_eq_true', Bool.not_eq_eq_eq_not, Bool.not_true] using hp
  · intro h k hk
    simp only [h k t[k] (Std.ExtTreeMap.getElem?_eq_some_getElem hk), Bool.not_false]

end Table

end Altior.Lib
