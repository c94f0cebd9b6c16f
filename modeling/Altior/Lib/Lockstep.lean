import Altior.Lib.Proc

/-!
# Two runs in lockstep

What a computation does from one state, it does from every related one: a
relational triple for computations without a crash ahead, with one rule for each
way a computation is built.  A computation that reads only what two states share
gives the same value in both.
-/

namespace Altior.Lib.Proc

variable {σ ε α β : Type}

/-- From a pair of states in `R`, when the computation is done from the first it is
done from the second with the same value, and the states it ends in are in `R'`. -/
def Follows (R R' : σ → σ → Prop) (m : Proc σ ε α) : Prop :=
  ∀ s t, R s t → match m s none with
    | ⟨.done a, s', n⟩ => n = none ∧ ∃ t', m t none = ⟨.done a, t', none⟩ ∧ R' s' t'
    | _ => True

namespace Follows

variable {R R' R'' : σ → σ → Prop} {m : Proc σ ε α} {f : α → Proc σ ε β}

/-- The rule of sequence. -/
theorem bind (hm : Follows R R' m) (hf : ∀ a, Follows R' R'' (f a)) : Follows R R'' (m >>= f) := by
  intro s t hst
  have hrun := hm s t hst
  rw [bind_run]
  revert hrun
  rcases m s none with ⟨a | e | _, s', n⟩
  · rintro ⟨rfl, t', ht, hst'⟩
    rw [bind_run_done t none ht]
    exact hf a s' t' hst'
  · exact fun _ => trivial
  · exact fun _ => trivial

theorem pure (a : α) : Follows R R (Pure.pure a : Proc σ ε α) :=
  fun _ t hst => ⟨rfl, t, rfl, hst⟩

theorem fail (e : ε) : Follows R R' (Proc.fail e : Proc σ ε α) := fun _ _ _ => trivial

theorem ofExcept (r : Except ε α) : Follows R R (Proc.ofExcept r : Proc σ ε α) := by
  intro s t hst
  cases r with
  | ok a => exact ⟨rfl, t, rfl, hst⟩
  | error e => trivial

/-- What a computation reads of the state has to be the same in both. -/
theorem get {g : σ → Proc σ ε β} (hg : ∀ s t, R s t → g t = g s)
    (h : ∀ s, Follows R R' (g s)) : Follows R R' (Proc.get >>= g) := by
  intro s t hst
  have hrun := h s s t hst
  rw [bind_run_done s none (get_run s none), bind_run_done t none (get_run t none), hg s t hst]
  exact hrun

theorem act {g : σ → Except ε α × σ} (h : ∀ s t a, R s t → (g s).1 = .ok a →
    (g t).1 = .ok a ∧ R' (g s).2 (g t).2) : Follows R R' (Proc.act g) := by
  intro s t hst
  rw [act_run_none, act_run_none]
  cases hr : (g s).1 with
  | error e => trivial
  | ok a =>
    obtain ⟨hok, hst'⟩ := h s t a hst hr
    rw [hok]
    exact ⟨rfl, (g t).2, rfl, hst'⟩

/-- Both runs end in the same value. -/
theorem done (h : Follows R R' m) {s t : σ} {a : α} (hst : R s t)
    (hs : (m s none).ending = .done a) :
    (m t none).ending = .done a ∧ R' (m s none).state (m t none).state := by
  have hrun := h s t hst
  revert hs hrun
  rcases m s none with ⟨b | e | _, s', n⟩
  · rintro ⟨⟩ ⟨-, t', ht, hst'⟩
    rw [ht]
    exact ⟨rfl, hst'⟩
  · rintro ⟨⟩
  · rintro ⟨⟩

end Follows

end Altior.Lib.Proc
