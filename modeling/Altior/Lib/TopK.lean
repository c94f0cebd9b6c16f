import Mathlib.Data.List.Sort
import Mathlib.Data.List.TakeDrop

/-!
# The greatest of a stream

Keeping the `k` greatest items of a stream in a heap of bounded size whose least
item is the one to go: a new item is kept while there is room, and later only if
it is greater than the least, which it then replaces.  What is kept in the end,
sorted, is the first `k` of all items sorted.

The comparison need not be lawful on the whole type, only on the items.
-/

namespace Altior.Lib

universe u

variable {α : Type u} (cmp : α → α → Ordering)

/-- `cmp` compares the members of `l` as a total order does, ties apart. -/
structure TotalOn (l : List α) : Prop where
  swap : ∀ a ∈ l, ∀ b ∈ l, cmp b a = (cmp a b).swap
  trans : ∀ a ∈ l, ∀ b ∈ l, ∀ c ∈ l, (cmp a b).isLE → (cmp b c).isLE → (cmp a c).isLE

/-- `a` stands at or before `b` when the greatest comes first. -/
def atLeast (a b : α) : Bool := (cmp b a).isLE

/-! ## Comparisons that are lawful on some items -/

variable {a : α} {l : List α}

section Total

variable {cmp}

theorem TotalOn.mono {l' : List α} (h : TotalOn cmp l) (hl : ∀ a ∈ l', a ∈ l) :
    TotalOn cmp l' where
  swap a ha b hb := h.swap a (hl a ha) b (hl b hb)
  trans a ha b hb c hc := h.trans a (hl a ha) b (hl b hb) c (hl c hc)

/-- A lawful comparison of keys. -/
theorem TotalOn.of_key {κ : Type u} (compare : κ → κ → Ordering) [Std.TransCmp compare]
    (key : α → κ) (l : List α) : TotalOn (fun a b => compare (key a) (key b)) l where
  swap _ _ _ _ := Std.OrientedCmp.eq_swap
  trans _ _ _ _ _ _ := Std.TransCmp.isLE_trans

/-- The comparison from above. -/
theorem TotalOn.flip (h : TotalOn cmp l) : TotalOn (fun a b => cmp b a) l where
  swap a ha b hb := h.swap b hb a ha
  trans a ha b hb c hc hab hbc := h.trans c hc b hb a ha hbc hab

/-- Below and at most is below. -/
theorem TotalOn.lt_of_lt_of_isLE (h : TotalOn cmp l) {b c : α} (ha : a ∈ l) (hb : b ∈ l)
    (hc : c ∈ l) (hab : cmp a b = .lt) (hbc : (cmp b c).isLE) : cmp a c = .lt := by
  by_contra hne
  have hca : (cmp c a).isLE := by
    rw [h.swap a ha c hc]
    cases hac : cmp a c with
    | lt => exact absurd hac hne
    | eq => rfl
    | gt => rfl
  have hba := h.trans b hb c hc a ha hbc hca
  rw [h.swap a ha b hb, hab] at hba
  cases hba

/-- At most and below is below. -/
theorem TotalOn.lt_of_isLE_of_lt (h : TotalOn cmp l) {b c : α} (ha : a ∈ l) (hb : b ∈ l)
    (hc : c ∈ l) (hab : (cmp a b).isLE) (hbc : cmp b c = .lt) : cmp a c = .lt := by
  by_contra hne
  have hca : (cmp c a).isLE := by
    rw [h.swap a ha c hc]
    cases hac : cmp a c with
    | lt => exact absurd hac hne
    | eq => rfl
    | gt => rfl
  have hcb := h.trans c hc a ha b hb hca hab
  rw [h.swap b hb c hc, hbc] at hcb
  cases hcb

/-- Comparing by one key and then by another. -/
theorem TotalOn.lex {cmp' : α → α → Ordering} (h : TotalOn cmp l) (h' : TotalOn cmp' l) :
    TotalOn (fun a b => (cmp a b).then (cmp' a b)) l where
  swap a ha b hb := by
    rw [Ordering.swap_then, h.swap a ha b hb, h'.swap a ha b hb]
  trans a ha b hb c hc hab hbc := by
    rw [Ordering.isLE_then_iff_or] at hab hbc ⊢
    rcases hab with hlt | ⟨heq, hle⟩
    · refine .inl (h.lt_of_lt_of_isLE ha hb hc hlt (Ordering.isLE_iff_eq_lt_or_eq_eq.mpr ?_))
      exact hbc.imp id And.left
    · have hab' : (cmp a b).isLE := Ordering.isLE_iff_eq_lt_or_eq_eq.mpr (.inr heq)
      rcases hbc with hlt' | ⟨heq', hle'⟩
      · exact .inl (h.lt_of_isLE_of_lt ha hb hc hab' hlt')
      · have hac := h.trans a ha b hb c hc hab' (Ordering.isLE_iff_eq_lt_or_eq_eq.mpr (.inr heq'))
        exact (Ordering.isLE_iff_eq_lt_or_eq_eq.mp hac).imp id fun heq => ⟨heq, h'.trans a ha b hb c hc hle hle'⟩

end Total

/-! ## The heap

A heap is given by its items; the least of them is at its top, and what order the
others are in is not said. -/

/-- The least item. -/
def peekLeast : List α → Option α
  | [] => none
  | a :: l =>
    match peekLeast l with
    | none => some a
    | some m => if (cmp a m).isLE then some a else some m

/-- The items without the least. -/
def popLeast : List α → List α
  | [] => []
  | a :: l =>
    match peekLeast cmp l with
    | none => []
    | some m => if (cmp a m).isLE then l else a :: popLeast l

/-- Takes one more item in. -/
def offer (k : Nat) (heap : List α) (a : α) : List α :=
  if heap.length < k then a :: heap
  else if (peekLeast cmp heap).any fun least => (cmp a least).isGT then a :: popLeast cmp heap
  else heap

/-- The items kept of a stream. -/
def keep (k : Nat) (items : List α) : List α := items.foldl (offer cmp k) []

/-! ## The least item -/

variable {cmp}

theorem TotalOn.atLeast_total (h : TotalOn cmp l) {b : α} (ha : a ∈ l) (hb : b ∈ l) :
    atLeast cmp a b = true ∨ atLeast cmp b a = true := by
  rw [atLeast, atLeast, h.swap a ha b hb]
  cases cmp a b <;> decide

theorem TotalOn.atLeast_trans (h : TotalOn cmp l) {b c : α} (ha : a ∈ l) (hb : b ∈ l) (hc : c ∈ l)
    (hab : atLeast cmp a b = true) (hbc : atLeast cmp b c = true) : atLeast cmp a c = true :=
  h.trans c hc b hb a ha hbc hab

theorem TotalOn.refl (h : TotalOn cmp l) (ha : a ∈ l) : atLeast cmp a a = true := by
  rcases h.atLeast_total ha ha with hle | hle <;> exact hle

theorem TotalOn.not_isLE (h : TotalOn cmp l) {b : α} (ha : a ∈ l) (hb : b ∈ l)
    (hle : ¬ (cmp a b).isLE) : atLeast cmp a b = true :=
  (h.atLeast_total ha hb).resolve_right hle

theorem peekLeast_eq_none (h : peekLeast cmp l = none) : l = [] := by
  cases l with
  | nil => rfl
  | cons a l =>
    simp only [peekLeast] at h
    split at h
    · cases h
    · split at h <;> cases h

theorem peekLeast_mem {m : α} (h : peekLeast cmp l = some m) : m ∈ l := by
  induction l generalizing m with
  | nil => cases h
  | cons a l ih =>
    simp only [peekLeast] at h
    split at h
    · cases h
      exact List.mem_cons_self
    · rename_i m' hm'
      split at h
      · cases h
        exact List.mem_cons_self
      · cases h
        exact List.mem_cons_of_mem a (ih hm')

/-- Taking the least item out takes out nothing else. -/
theorem cons_popLeast_perm {m : α} (h : peekLeast cmp l = some m) :
    (m :: popLeast cmp l).Perm l := by
  induction l generalizing m with
  | nil => cases h
  | cons a l ih =>
    simp only [peekLeast] at h
    split at h
    · rename_i hnone
      cases h
      rw [popLeast, hnone, peekLeast_eq_none hnone]
    · rename_i m' hm'
      rw [popLeast, hm']
      split at h
      · rename_i hle
        cases h
        simp only [if_pos hle]
        exact .refl _
      · rename_i hle
        cases h
        simp only [if_neg hle]
        exact (List.Perm.swap a m _).trans ((ih hm').cons a)

/-- The least item is at most every other. -/
theorem atLeast_peekLeast {m : α} (ht : TotalOn cmp l) (h : peekLeast cmp l = some m) :
    ∀ x ∈ l, atLeast cmp x m = true := by
  induction l generalizing m with
  | nil => cases h
  | cons a l ih =>
    have ha : a ∈ a :: l := List.mem_cons_self
    have hl : ∀ x ∈ l, x ∈ a :: l := fun x hx => List.mem_cons_of_mem a hx
    simp only [peekLeast] at h
    split at h
    · rename_i hnone
      cases h
      intro x hx
      rw [peekLeast_eq_none hnone, List.mem_singleton] at hx
      rw [hx]
      exact ht.refl ha
    · rename_i m' hm'
      have hm : m' ∈ a :: l := hl m' (peekLeast_mem hm')
      have hleast := ih (ht.mono hl) hm'
      split at h
      · rename_i hle
        cases h
        intro x hx
        rcases List.mem_cons.mp hx with rfl | hx
        · exact ht.refl ha
        · exact ht.atLeast_trans (hl x hx) hm ha (hleast x hx) hle
      · rename_i hle
        cases h
        intro x hx
        rcases List.mem_cons.mp hx with rfl | hx
        · exact ht.not_isLE ha hm hle
        · exact hleast x hx

/-! ## What is kept -/

/-- `kept` are `k` of the items `seen`, or all of them, and none of the others is
greater than one of them. -/
structure Kept (cmp : α → α → Ordering) (k : Nat) (seen kept : List α) : Prop where
  length : kept.length = min k seen.length
  above : ∃ others, (kept ++ others).Perm seen ∧
    ∀ x ∈ kept, ∀ y ∈ others, atLeast cmp x y = true

theorem Kept.nil (k : Nat) : Kept cmp k [] [] :=
  ⟨by simp, [], by simp, by simp⟩

/-- One more item. -/
theorem Kept.offer {k : Nat} {seen kept : List α} (h : Kept cmp k seen kept)
    (ht : TotalOn cmp (seen ++ [a])) : Kept cmp k (seen ++ [a]) (offer cmp k kept a) := by
  obtain ⟨hlen, others, hperm, habove⟩ := h
  have ha : a ∈ seen ++ [a] := List.mem_append_right _ List.mem_cons_self
  have hkept : ∀ x ∈ kept, x ∈ seen ++ [a] := fun x hx =>
    List.mem_append_left _ (hperm.subset (List.mem_append_left _ hx))
  have hothers : ∀ y ∈ others, y ∈ seen ++ [a] := fun y hy =>
    List.mem_append_left _ (hperm.subset (List.mem_append_right _ hy))
  have hseen : kept.length + others.length = seen.length := by
    rw [← List.length_append]
    exact hperm.length_eq
  have hsnoc : (a :: (kept ++ others)).Perm (seen ++ [a]) :=
    (hperm.cons a).trans (List.perm_append_singleton a seen).symm
  unfold Lib.offer
  by_cases hroom : kept.length < k
  · -- While there is room nothing has been left out.
    have hnil : others = [] := List.length_eq_zero_iff.mp (by omega)
    subst hnil
    rw [if_pos hroom]
    refine ⟨by simp only [List.length_cons, List.length_append, List.length_nil]; omega, [], ?_, ?_⟩
    · simpa only [List.append_nil] using hsnoc
    · intro x _ y hy
      cases hy
  · rw [if_neg hroom]
    have hk : kept.length = k := by omega
    cases hpeek : peekLeast cmp kept with
    | none =>
      have hnil : kept = [] := peekLeast_eq_none hpeek
      subst hnil
      rw [Option.any_none, if_neg Bool.false_ne_true]
      refine ⟨by simp only [List.length_append, List.length_cons, List.length_nil] at *; omega,
        a :: others, hsnoc, ?_⟩
      intro x hx
      cases hx
    | some m =>
      have hm : m ∈ kept := peekLeast_mem hpeek
      have hleast := atLeast_peekLeast (ht.mono hkept) hpeek
      have hpop := cons_popLeast_perm hpeek
      rw [Option.any_some]
      by_cases hgt : (cmp a m).isGT
      · rw [if_pos hgt]
        have ham : atLeast cmp a m = true := by
          rw [atLeast, ht.swap a ha m (hkept m hm)]
          cases hcmp : cmp a m <;> rw [hcmp] at hgt <;> first | rfl | cases hgt
        have hrest : ∀ x ∈ popLeast cmp kept, x ∈ kept := fun x hx =>
          hpop.subset (List.mem_cons_of_mem m hx)
        have hplen : (popLeast cmp kept).length + 1 = kept.length := hpop.length_eq
        refine ⟨by simp only [List.length_cons, List.length_append, List.length_nil]; omega,
          m :: others, ?_, ?_⟩
        · -- The least item moves over to those left out.
          have hmove : (popLeast cmp kept ++ m :: others).Perm (kept ++ others) :=
            List.perm_middle.trans (hpop.append_right others)
          exact (hmove.cons a).trans hsnoc
        · intro x hx y hy
          have hxm : atLeast cmp x m = true ∧ x ∈ seen ++ [a] := by
            rcases List.mem_cons.mp hx with rfl | hx
            · exact ⟨ham, ha⟩
            · exact ⟨hleast x (hrest x hx), hkept x (hrest x hx)⟩
          rcases List.mem_cons.mp hy with rfl | hy
          · exact hxm.1
          · exact ht.atLeast_trans hxm.2 (hkept m hm) (hothers y hy) hxm.1 (habove m hm y hy)
      · rw [if_neg hgt]
        have hma : atLeast cmp m a = true := by
          rw [atLeast]
          cases hcmp : cmp a m <;> rw [hcmp] at hgt <;> first | rfl | exact absurd rfl hgt
        refine ⟨by simp only [List.length_append, List.length_cons, List.length_nil]; omega,
          a :: others, ?_, ?_⟩
        · exact List.perm_middle.trans hsnoc
        · intro x hx y hy
          rcases List.mem_cons.mp hy with rfl | hy
          · exact ht.atLeast_trans (hkept x hx) (hkept m hm) ha (hleast x hx) hma
          · exact habove x hx y hy

theorem kept_foldl {k : Nat} (items : List α) {seen kept : List α} (h : Kept cmp k seen kept)
    (ht : TotalOn cmp (seen ++ items)) :
    Kept cmp k (seen ++ items) (items.foldl (offer cmp k) kept) := by
  induction items generalizing seen kept with
  | nil => simpa only [List.append_nil, List.foldl_nil] using h
  | cons a items ih =>
    have hassoc : seen ++ a :: items = seen ++ [a] ++ items := by
      rw [List.append_assoc, List.singleton_append]
    rw [hassoc] at ht ⊢
    exact ih (h.offer (ht.mono fun x hx => List.mem_append_left _ hx)) ht

/-- What is kept of a stream is at least what is not. -/
theorem kept_keep {items : List α} (k : Nat) (ht : TotalOn cmp items) :
    Kept cmp k items (keep cmp k items) :=
  kept_foldl items (Kept.nil k) ht

/-! ## Sorting -/

/-- The items with the greatest first. -/
def sortDown (cmp : α → α → Ordering) (items : List α) : List α :=
  items.mergeSort (atLeast cmp)

theorem sortDown_perm (items : List α) : (sortDown cmp items).Perm items :=
  List.mergeSort_perm items _

theorem sortDown_pairwise {items : List α} (ht : TotalOn cmp items) :
    (sortDown cmp items).Pairwise fun a b => atLeast cmp a b = true := by
  -- Sorted among the members of the list, on which the comparison is lawful.
  have hval : sortDown cmp items
      = (items.attach.mergeSort fun a b => atLeast cmp a.1 b.1).map Subtype.val := by
    rw [List.map_mergeSort (s := atLeast cmp) fun a _ b _ => rfl, List.attach_map_subtype_val]
    rfl
  rw [hval, List.pairwise_map]
  exact @List.pairwise_mergeSort {x // x ∈ items} (fun a b => atLeast cmp a.1 b.1)
    (fun a b c => ht.atLeast_trans a.2 b.2 c.2)
    (fun a b => by
      rw [Bool.or_eq_true]
      exact ht.atLeast_total a.2 b.2) _

/-- Sorted items are in one order only, unless two of them tie. -/
theorem eq_of_pairwise_atLeast {l' : List α} (ht : TotalOn cmp l)
    (hties : ∀ a ∈ l, ∀ b ∈ l, cmp a b = .eq → a = b) (hperm : l'.Perm l)
    (hl : l.Pairwise fun a b => atLeast cmp a b = true)
    (hl' : l'.Pairwise fun a b => atLeast cmp a b = true) : l' = l := by
  refine hperm.eq_of_pairwise (fun a b ha hb hab hba => ?_) hl' hl
  refine hties a (hperm.subset ha) b hb ?_
  rw [atLeast] at hab hba
  rw [ht.swap a (hperm.subset ha) b hb] at hab
  cases hcmp : cmp a b with
  | lt =>
    rw [hcmp] at hab
    cases hab
  | eq => rfl
  | gt =>
    rw [hcmp] at hba
    cases hba

/-- The order in which the items come does not show in them sorted. -/
theorem sortDown_eq_of_perm {l' : List α} (ht : TotalOn cmp l)
    (hties : ∀ a ∈ l, ∀ b ∈ l, cmp a b = .eq → a = b) (hperm : l'.Perm l) :
    sortDown cmp l' = sortDown cmp l := by
  have hmem {a : α} (ha : a ∈ sortDown cmp l) : a ∈ l := (sortDown_perm l).subset ha
  have hsorted : (sortDown cmp l').Perm (sortDown cmp l) :=
    ((sortDown_perm l').trans hperm).trans (sortDown_perm l).symm
  exact eq_of_pairwise_atLeast (ht.mono fun _ => hmem)
    (fun a ha b hb => hties a (hmem ha) b (hmem hb)) hsorted (sortDown_pairwise ht)
    (sortDown_pairwise (ht.mono fun _ ha => hperm.subset ha))

/-- The kept items sorted, in whatever order the heap gives them out, are the
first `k` of all items sorted. -/
theorem sortDown_keep {items full kept : List α} (k : Nat) (ht : TotalOn cmp items)
    (hties : ∀ a ∈ items, ∀ b ∈ items, cmp a b = .eq → a = b)
    (hperm : full.Perm items) (hfull : full.Pairwise fun a b => atLeast cmp a b = true)
    (hkept : kept.Perm (keep cmp k items)) : sortDown cmp kept = full.take k := by
  obtain ⟨hlen, others, hall, habove⟩ := kept_keep k ht
  have hmem : ∀ x ∈ keep cmp k items, x ∈ items := fun x hx =>
    hall.subset (List.mem_append_left _ hx)
  have hothers : ∀ x ∈ others, x ∈ items := fun x hx => hall.subset (List.mem_append_right _ hx)
  have hkeptmem : ∀ x ∈ kept, x ∈ keep cmp k items := fun x hx => hkept.subset hx
  have hdown := sortDown_pairwise (ht.mono fun x hx => hmem x (hkeptmem x hx))
  -- The kept ones sorted before the others sorted are all of them sorted.
  have hsorted : (sortDown cmp kept ++ sortDown cmp others).Pairwise
      fun a b => atLeast cmp a b = true := by
    rw [List.pairwise_append]
    refine ⟨hdown, sortDown_pairwise (ht.mono hothers), fun x hx y hy => ?_⟩
    exact habove x (hkeptmem x ((sortDown_perm kept).subset hx)) y
      ((sortDown_perm others).subset hy)
  have hsplit : (sortDown cmp kept ++ sortDown cmp others).Perm full :=
    (((sortDown_perm kept).trans hkept).append (sortDown_perm others)).trans
      (hall.trans hperm.symm)
  have heq : sortDown cmp kept ++ sortDown cmp others = full := by
    refine eq_of_pairwise_atLeast (ht.mono fun x hx => hperm.subset hx) ?_ hsplit hfull hsorted
    exact fun a ha b hb => hties a (hperm.subset ha) b (hperm.subset hb)
  have hcount : (sortDown cmp kept).length = min k items.length := by
    rw [(sortDown_perm kept).length_eq, hkept.length_eq, hlen]
  have hrest : (sortDown cmp others).length + min k items.length = items.length := by
    rw [← hcount, Nat.add_comm, ← List.length_append, hsplit.length_eq, hperm.length_eq]
  rw [← heq]
  by_cases hk : k ≤ items.length
  · exact (List.take_left' (by omega)).symm
  · have hnil : sortDown cmp others = [] := List.length_eq_zero_iff.mp (by omega)
    rw [hnil, List.append_nil, List.take_of_length_le (by omega)]

end Altior.Lib
