import Mathlib.Data.List.Basic

/-!
# Lists in the order of a position

Lists whose items stand at strictly increasing positions: an item is known by its
position, a page is followed by the items after its last one, and dropping from the
front is filtering.
-/

namespace Altior.Lib

variable {α : Type} {position : α → Nat} {items : List α} {count : Nat} {last : α}

/-- Positions identify the items of an increasing list. -/
theorem eq_of_position (hinc : items.Pairwise fun a b => position a < position b) {a b : α}
    (ha : a ∈ items) (hb : b ∈ items) (h : position a = position b) : a = b := by
  induction items with
  | nil => cases ha
  | cons item items ih =>
    obtain ⟨hhead, htail⟩ := List.pairwise_cons.1 hinc
    obtain rfl | ha' := List.mem_cons.1 ha
    · obtain rfl | hb' := List.mem_cons.1 hb
      · rfl
      · have := hhead b hb'
        omega
    · obtain rfl | hb' := List.mem_cons.1 hb
      · have := hhead a ha'
        omega
      · exact ih htail ha' hb'

/-- What follows the end of a page of an increasing list is the rest of it. -/
theorem filter_after_page (hinc : items.Pairwise fun a b => position a < position b)
    (hlast : (items.take count).getLast? = some last) :
    (items.filter fun item => position last < position item) = items.drop count := by
  have hsplit : items = items.take count ++ items.drop count := (List.take_append_drop _ _).symm
  have hpairs := hinc
  rw [hsplit, List.pairwise_append] at hpairs
  obtain ⟨htake, -, hcross⟩ := hpairs
  obtain ⟨front, hfront⟩ := List.getLast?_eq_some_iff.1 hlast
  conv_lhs => rw [hsplit]
  rw [List.filter_append, List.filter_eq_nil_iff.2, List.nil_append, List.filter_eq_self.2]
  · intro item hitem
    have hmem : last ∈ items.take count := by simp [hfront]
    exact decide_eq_true (hcross last hmem item hitem)
  · intro item hitem
    rw [hfront] at hitem htake
    rw [List.pairwise_append] at htake
    obtain hitem | hitem := List.mem_append.1 hitem
    · have := htake.2.2 item hitem last (List.mem_singleton.2 rfl)
      simp only [decide_eq_true_eq]
      omega
    · rw [List.mem_singleton.1 hitem]
      simp

/-- An item not after the end of a page is on the page. -/
theorem mem_page (hinc : items.Pairwise fun a b => position a < position b)
    (hlast : (items.take count).getLast? = some last) {item : α} (hitem : item ∈ items)
    (hle : position item ≤ position last) : item ∈ items.take count := by
  have hsplit : item ∈ items.take count ++ items.drop count := by rwa [List.take_append_drop]
  obtain htake | hdrop := List.mem_append.1 hsplit
  · exact htake
  · rw [← filter_after_page hinc hlast] at hdrop
    have := of_decide_eq_true (List.mem_filter.1 hdrop).2
    omega

/-- Dropping while a condition holds that no later item regains is filtering. -/
theorem dropWhile_eq_filter {p : α → Bool}
    (h : items.Pairwise fun a b => p b = true → p a = true) :
    items.dropWhile p = items.filter fun item => !p item := by
  induction items with
  | nil => rfl
  | cons item items ih =>
    obtain ⟨hhead, htail⟩ := List.pairwise_cons.1 h
    rw [List.dropWhile_cons, List.filter_cons]
    by_cases hitem : p item = true
    · rw [if_pos hitem, ih htail]
      simp [hitem]
    · have hkept : (items.filter fun item => !p item) = items := by
        rw [List.filter_eq_self]
        intro later hlater
        simp only [Bool.not_eq_true', Bool.eq_false_iff]
        exact fun hp => hitem (hhead later hlater hp)
      rw [if_neg hitem, hkept]
      simp [hitem]

/-- Dropping what is not after a position of an increasing list. -/
theorem dropWhile_le_eq_filter (hinc : items.Pairwise fun a b => position a < position b)
    (boundary : Nat) :
    (items.dropWhile fun item => position item ≤ boundary) =
      items.filter fun item => boundary < position item := by
  rw [dropWhile_eq_filter]
  · refine List.filter_congr fun item _ => ?_
    rw [← decide_not]
    exact decide_eq_decide.2 Nat.not_le
  · refine hinc.imp fun hlt hle => ?_
    simp only [decide_eq_true_eq] at hle ⊢
    omega

end Altior.Lib
