import Altior.Lib.Machine

/-!
# Simulation

A machine and what it stands for, run on the same inputs.
-/

universe u v w

namespace Altior.Lib.Machine

variable {σ : Type u} {τ : Type w} {ι : Type v}

/-- **Simulation rule.** A relation that steps on one input keep relates the states two
runs end in. -/
theorem runFrom_simulates {m : Machine σ ι} {n : Machine τ ι} {R : σ → τ → Prop} {ok : ι → Prop}
    (hstep : ∀ s t i, ok i → R s t → R (m.step s i) (n.step t i)) {s : σ} {t : τ} {is : List ι}
    (hok : ∀ i ∈ is, ok i) (h : R s t) : R (m.runFrom s is) (n.runFrom t is) := by
  induction is generalizing s t with
  | nil => exact h
  | cons i is ih =>
    rw [List.forall_mem_cons] at hok
    exact ih hok.2 (hstep s t i hok.1 h)

end Altior.Lib.Machine
