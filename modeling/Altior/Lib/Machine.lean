import Mathlib.Data.List.Basic

/-!
# Machines and their runs

A deterministic machine with an initial state and a total step, its runs over
finite lists of inputs, and the two induction rules every safety result of the
development goes through: an invariant that every step keeps, and an invariant
that only the steps meeting a side condition keep.
-/

namespace Altior.Lib

universe u v

/-- A machine: an initial state and what one input does to a state. -/
structure Machine (σ : Type u) (ι : Type v) where
  /-- The state every run starts in. -/
  init : σ
  /-- One step. -/
  step : σ → ι → σ

namespace Machine

variable {σ : Type u} {ι : Type v} (m : Machine σ ι)

/-- The state after feeding a list of inputs to the machine in state `s`. -/
def runFrom (s : σ) (is : List ι) : σ := is.foldl m.step s

/-- The state a run from the initial state ends in. -/
def run (is : List ι) : σ := m.runFrom m.init is

@[simp] theorem runFrom_nil (s : σ) : m.runFrom s [] = s := rfl

@[simp] theorem runFrom_cons (s : σ) (i : ι) (is : List ι) :
    m.runFrom s (i :: is) = m.runFrom (m.step s i) is := rfl

@[simp] theorem runFrom_append (s : σ) (is js : List ι) :
    m.runFrom s (is ++ js) = m.runFrom (m.runFrom s is) js :=
  List.foldl_append

@[simp] theorem run_append (is js : List ι) :
    m.run (is ++ js) = m.runFrom (m.run is) js :=
  m.runFrom_append m.init is js

/-- Every step of the run meets `ok` in the state it is taken from. -/
def Meets (ok : σ → ι → Prop) : σ → List ι → Prop
  | _, [] => True
  | s, i :: is => ok s i ∧ Meets ok (m.step s i) is

@[simp] theorem meets_nil (ok : σ → ι → Prop) (s : σ) : m.Meets ok s [] := trivial

variable {is : List ι} {ok : σ → ι → Prop} {s : σ} {I : σ → Prop}

@[simp] theorem meets_cons {i : ι} :
    m.Meets ok s (i :: is) ↔ ok s i ∧ m.Meets ok (m.step s i) is := Iff.rfl

instance decidableMeets {ok : σ → ι → Prop} [∀ s i, Decidable (ok s i)] :
    ∀ s is, Decidable (m.Meets ok s is)
  | _, [] => isTrue trivial
  | s, i :: is => @instDecidableAnd _ _ _ (decidableMeets (m.step s i) is)

/-- A condition that does not look at the state is met along a run iff it is
met by every input. -/
theorem meets_const {ok : ι → Prop} : m.Meets (fun _ i ↦ ok i) s is ↔ ∀ i ∈ is, ok i := by
  induction is generalizing s with
  | nil => simp
  | cons i is ih => simp [ih]

theorem meets_and {p : ι → Prop} (hp : ∀ i ∈ is, p i) (h : m.Meets ok s is) :
    m.Meets (fun s i ↦ p i ∧ ok s i) s is := by
  induction is generalizing s with
  | nil => trivial
  | cons i is ih =>
    exact ⟨⟨hp i (List.mem_cons_self ..), h.1⟩,
      ih (fun j hj => hp j (List.mem_cons_of_mem i hj)) h.2⟩

theorem meets_append {js : List ι} :
    m.Meets ok s (is ++ js) ↔ m.Meets ok s is ∧ m.Meets ok (m.runFrom s is) js := by
  induction is generalizing s with
  | nil => simp
  | cons i is ih => simp [ih, and_assoc]

/-- **Guarded invariant rule.** An invariant kept by the steps that meet `ok`
holds after every run whose steps all meet `ok`. -/
theorem invariant_of_meets (hstep : ∀ s i, I s → ok s i → I (m.step s i)) (h0 : I s)
    (hok : m.Meets ok s is) : I (m.runFrom s is) := by
  induction is generalizing s with
  | nil => exact h0
  | cons i is ih => exact ih (hstep s i h0 hok.1) hok.2

/-- **Exact guard rule**, for runs whose steps all meet `given`, with a side condition
that the steps that meet the guard keep: the guard needs to be exact only where the side
condition holds. -/
theorem prefixes_iff_meets_given {given : σ → ι → Prop} {J : σ → Prop}
    (hstep : ∀ s i, given s i → J s → I s → (I (m.step s i) ↔ ok s i))
    (hside : ∀ s i, given s i → J s → I s → ok s i → J (m.step s i)) (hj : J s) (h0 : I s)
    (hgiven : m.Meets given s is) : (∀ js, js <+: is → I (m.runFrom s js)) ↔ m.Meets ok s is := by
  induction is generalizing s with
  | nil => exact ⟨fun _ => trivial, fun _ js hjs => List.prefix_nil.1 hjs ▸ h0⟩
  | cons i is ih =>
    have hi := hstep s i hgiven.1 hj h0
    constructor
    · intro h
      have hgood : I (m.step s i) := h [i] (List.prefix_append [i] is)
      have hok := hi.1 hgood
      refine ⟨hok, (ih (hside s i hgiven.1 hj h0 hok) hgood hgiven.2).1 fun js hjs => ?_⟩
      exact h (i :: js) (List.cons_prefix_cons.2 ⟨rfl, hjs⟩)
    · rintro ⟨hok, hrest⟩ js hjs
      cases js with
      | nil => exact h0
      | cons j js =>
        obtain ⟨rfl, htail⟩ := List.cons_prefix_cons.1 hjs
        exact (ih (hside s j hgiven.1 hj h0 hok) (hi.2 hok) hgiven.2).2 hrest js htail

theorem meets_true : m.Meets (fun _ _ => True) s is :=
  m.meets_const.2 fun _ _ => trivial

/-- **Exact guard rule** for all runs. -/
theorem prefixes_iff_meets_of {J : σ → Prop}
    (hstep : ∀ s i, J s → I s → (I (m.step s i) ↔ ok s i))
    (hside : ∀ s i, J s → I s → ok s i → J (m.step s i)) (hj : J s) (h0 : I s) :
    (∀ js, js <+: is → I (m.runFrom s js)) ↔ m.Meets ok s is :=
  m.prefixes_iff_meets_given (fun s i _ => hstep s i) (fun s i _ => hside s i) hj h0 m.meets_true

/-- **Exact guard rule.** When a step from a good state leads to a good state iff
it meets `ok`, all states along a run are good iff every step of it meets `ok`. -/
theorem prefixes_iff_meets (hstep : ∀ s i, I s → (I (m.step s i) ↔ ok s i)) (h0 : I s) :
    (∀ js, js <+: is → I (m.runFrom s js)) ↔ m.Meets ok s is :=
  m.prefixes_iff_meets_of (J := fun _ => True) (fun s i _ => hstep s i) (fun _ _ _ _ _ => trivial)
    trivial h0

/-- What an invariant and the condition of a step promise of that step holds of
every step of a run that meets the condition. -/
theorem meets_of_invariant {good : σ → ι → Prop} (hstep : ∀ s i, I s → ok s i → I (m.step s i))
    (hgood : ∀ s i, I s → ok s i → good s i) (h0 : I s) (hok : m.Meets ok s is) :
    m.Meets good s is := by
  induction is generalizing s with
  | nil => trivial
  | cons i is ih => exact ⟨hgood s i h0 hok.1, ih (hstep s i h0 hok.1) hok.2⟩

/-- Two conditions that agree wherever an invariant holds are met by the same runs among
those whose steps all meet `given`, if the steps that meet the second keep the invariant. -/
theorem meets_iff_given {given good : σ → ι → Prop}
    (hstep : ∀ s i, given s i → I s → ok s i → I (m.step s i))
    (hgood : ∀ s i, given s i → I s → (good s i ↔ ok s i)) (h0 : I s)
    (hgiven : m.Meets given s is) : m.Meets good s is ↔ m.Meets ok s is := by
  induction is generalizing s with
  | nil => exact Iff.rfl
  | cons i is ih =>
    rw [meets_cons, meets_cons, hgood s i hgiven.1 h0]
    exact and_congr_right fun hok => ih (hstep s i hgiven.1 h0 hok) hgiven.2

/-- Two conditions that agree wherever an invariant holds are met by the same runs,
if the steps that meet the second keep the invariant. -/
theorem meets_iff {good : σ → ι → Prop} (hstep : ∀ s i, I s → ok s i → I (m.step s i))
    (hgood : ∀ s i, I s → (good s i ↔ ok s i)) (h0 : I s) : m.Meets good s is ↔ m.Meets ok s is :=
  m.meets_iff_given (fun s i _ => hstep s i) (fun s i _ => hgood s i) h0 m.meets_true

/-- **Invariant rule.** An invariant every step keeps holds after every run. -/
theorem invariant (hstep : ∀ s i, I s → I (m.step s i)) (h0 : I s) (is : List ι) :
    I (m.runFrom s is) := by
  induction is generalizing s with
  | nil => exact h0
  | cons i is ih => exact ih (hstep s i h0)

/-- A relation that every step stands in and that is closed under composition
holds between the two ends of every run. -/
theorem runFrom_rel {R : σ → σ → Prop} (hrefl : ∀ s, R s s)
    (htrans : ∀ a b c, R a b → R b c → R a c) (hstep : ∀ s i, R s (m.step s i))
    (s : σ) (is : List ι) : R s (m.runFrom s is) := by
  induction is generalizing s with
  | nil => exact hrefl s
  | cons i is ih => exact htrans _ _ _ (hstep s i) (ih _)

/-- The machine that remembers its inputs. -/
def history : Machine (List ι) ι := ⟨[], fun seen i => seen ++ [i]⟩

theorem history_runFrom (seen is : List ι) : history.runFrom seen is = seen ++ is := by
  induction is generalizing seen with
  | nil => exact (List.append_nil seen).symm
  | cons i is ih => exact (ih (seen ++ [i])).trans (List.append_assoc seen [i] is)

/-- A condition on every input and what came before it, as the inputs come in. -/
theorem meets_history_concat {ok : List ι → ι → Prop} {i : ι} :
    history.Meets ok [] (is ++ [i]) ↔ history.Meets ok [] is ∧ ok is i := by
  rw [meets_append, history_runFrom, List.nil_append]
  exact and_congr_right fun _ => and_iff_left trivial

end Machine

end Altior.Lib
