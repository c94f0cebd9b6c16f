import Mathlib.Algebra.Group.Action.Defs
import Mathlib.Algebra.Order.BigOperators.Group.List
import Mathlib.Algebra.Order.Ring.Nat

/-!
# Prefixes within a budget

The longest prefix of a list that fits.  When whatever fits has only prefixes that
fit, one pass finds it: items are taken until one does not fit.

What fits is bounded here by a budget, against which the items of a nonempty list are
charged together with a header.
-/

namespace Altior.Lib

universe u

variable {α : Type u}

/-- `taken` is the longest prefix of `items` that fits. -/
structure LongestPrefix (fits : List α → Prop) (items taken : List α) : Prop where
  isPrefix : taken <+: items
  fitting : fits taken
  longest : ∀ p, p <+: items → fits p → p.length ≤ taken.length

namespace LongestPrefix

variable {fits : List α → Prop} {items taken : List α} {a : α}

theorem unique {taken' : List α} (h : LongestPrefix fits items taken)
    (h' : LongestPrefix fits items taken') : taken = taken' := by
  have hle := h'.longest taken h.isPrefix h.fitting
  have hge := h.longest taken' h'.isPrefix h'.fitting
  exact (List.prefix_of_prefix_length_le h.isPrefix h'.isPrefix hle).eq_of_length
    (le_antisymm hle hge)

/-- Everything fits. -/
theorem all (h : fits items) : LongestPrefix fits items items where
  isPrefix := List.prefix_refl items
  fitting := h
  longest _ hp _ := hp.length_le

/-- All items were taken, and the next one does not fit. -/
theorem stop (h : LongestPrefix fits items items) (hno : ¬ fits (items ++ [a])) :
    LongestPrefix fits (items ++ [a]) items where
  isPrefix := List.prefix_append items [a]
  fitting := h.fitting
  longest p hp hfits := by
    rcases List.prefix_concat_iff.1 hp with rfl | hp
    · exact absurd hfits hno
    · exact hp.length_le

/-- The next item does not fit, and so no later one is taken. -/
theorem stop_append (h : fits items) (hno : ¬ fits (items ++ [a]))
    (hclosed : ∀ p q, p <+: q → fits q → fits p) (rest : List α) :
    LongestPrefix fits (items ++ a :: rest) items where
  isPrefix := List.prefix_append items _
  fitting := h
  longest p hp hfits := by
    by_contra hlonger
    have hnext : items ++ [a] <+: items ++ a :: rest :=
      ⟨rest, (List.append_cons items a rest).symm⟩
    refine hno (hclosed _ p (List.prefix_of_prefix_length_le hnext hp ?_) hfits)
    rw [List.length_append, List.length_singleton]
    omega

/-- No item fits alone. -/
theorem none (h : fits []) (hno : ∀ a, ¬ fits [a]) (hclosed : ∀ p q, p <+: q → fits q → fits p)
    (items : List α) : LongestPrefix fits items [] := by
  cases items with
  | nil => exact all h
  | cons a rest => exact stop_append h (hno a) hclosed rest

/-- An item was left out, so the next one is. -/
theorem skip (h : LongestPrefix fits items taken) (hleft : taken ≠ items)
    (hclosed : ∀ p q, p <+: q → fits q → fits p) : LongestPrefix fits (items ++ [a]) taken where
  isPrefix := h.isPrefix.trans (List.prefix_append items [a])
  fitting := h.fitting
  longest p hp hfits := by
    rcases List.prefix_concat_iff.1 hp with rfl | hp
    · have hall := h.longest items (List.prefix_refl items)
        (hclosed items _ (List.prefix_append items [a]) hfits)
      exact absurd (h.isPrefix.eq_of_length (le_antisymm h.isPrefix.length_le hall)) hleft
    · exact h.longest p hp hfits

/-- What is taken changes only where the fitting does. -/
theorem of_le {fits' : List α → Prop} (h : LongestPrefix fits items taken) (hfits : fits' taken)
    (hle : ∀ p, fits' p → fits p) : LongestPrefix fits' items taken where
  isPrefix := h.isPrefix
  fitting := hfits
  longest p hp hp' := h.longest p hp (hle p hp')

end LongestPrefix

/-! ## Charges -/

variable (header : Nat) (cost : α → Nat)

/-- What the items cost together with their header; no items cost nothing. -/
def charge (items : List α) : Nat :=
  if items.isEmpty then 0 else header + (items.map cost).sum

theorem charge_singleton (a : α) : charge header cost [a] = header + cost a := by
  simp [charge]

/-- One more item costs what it costs. -/
theorem charge_concat {items : List α} (h : items ≠ []) (a : α) :
    charge header cost (items ++ [a]) = charge header cost items + cost a := by
  simp [charge, h, Nat.add_assoc]

theorem charge_of_ne_nil {items : List α} (h : items ≠ []) :
    charge header cost items = header + (items.map cost).sum := by
  simp [charge, h]

variable {header cost}

theorem charge_mono {p q : List α} (h : p <+: q) : charge header cost p ≤ charge header cost q := by
  obtain ⟨rest, rfl⟩ := h
  by_cases hp : p = []
  · subst hp
    exact Nat.zero_le _
  · rw [charge_of_ne_nil header cost hp,
      charge_of_ne_nil header cost (List.append_ne_nil_of_left_ne_nil hp rest), List.map_append,
      List.sum_append]
    omega

/-- Items of a bounded price. -/
theorem charge_le {bound : Nat} {items : List α} (h : ∀ a ∈ items, cost a ≤ bound) :
    charge header cost items ≤ header + items.length * bound := by
  have hsum := List.sum_le_card_nsmul (items.map cost) bound fun c hc => by
    obtain ⟨a, ha, rfl⟩ := List.mem_map.1 hc
    exact h a ha
  rw [List.length_map, smul_eq_mul] at hsum
  unfold charge
  split <;> omega

/-- Where the charge of what was taken does not reach the cap, capping the charges made
no difference. -/
theorem LongestPrefix.uncapped {cap limit : Nat} {items taken : List α}
    (h : LongestPrefix (fun p => min (charge header cost p) cap ≤ limit) items taken)
    (hcap : charge header cost taken ≤ cap) :
    LongestPrefix (fun p => charge header cost p ≤ limit) items taken := by
  refine h.of_le ?_ fun p hp => (Nat.min_le_left ..).trans hp
  have hfits := h.fitting
  rwa [Nat.min_eq_left hcap] at hfits

end Altior.Lib
