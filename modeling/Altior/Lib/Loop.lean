import Mathlib.Data.List.Basic

/-!
# Loops that may fail

A loop over a list whose body may stop it with an error and keeps the state it
has reached, together with the rules that carry a property through it.
-/

namespace Altior.Lib

universe u v w

variable {σ : Type u} {ε : Type v} {α : Type w}

/-- Runs an action for each element and adds up what the actions count; the first
error ends the loop. -/
def sumEach (f : σ → α → Except ε Nat × σ) : List α → σ → Except ε Nat × σ
  | [], s => (.ok 0, s)
  | a :: as, s =>
    match f s a with
    | (.error e, s) => (.error e, s)
    | (.ok count, s) =>
      match sumEach f as s with
      | (.error e, s) => (.error e, s)
      | (.ok rest, s) => (.ok (count + rest), s)

variable {I : σ → Prop} {f : σ → α → Except ε Nat × σ}

/-- A property that the action of every element keeps is kept by the loop.  In a
loop that is known to succeed, so are its actions. -/
theorem sumEach_invariant_mem {C : Prop} (as : List α)
    (hstep : ∀ s, ∀ a ∈ as, I s → (C → (f s a).1.isOk) → I (f s a).2) {s : σ} (h : I s)
    (hclean : C → (sumEach f as s).1.isOk) : I (sumEach f as s).2 := by
  induction as generalizing s with
  | nil => exact h
  | cons a as ih =>
    have hnext := hstep s a (List.mem_cons_self ..) h
    simp only [sumEach] at hclean ⊢
    rcases hf : f s a with ⟨e | count, s'⟩ <;> simp only [hf] at hnext hclean ⊢
    · exact hnext hclean
    · have hrest := ih (fun s a' ha' => hstep s a' (List.mem_cons_of_mem a ha'))
        (hnext fun _ => rfl)
      rcases hs : sumEach f as s' with ⟨e | rest, s''⟩ <;> simp only [hs] at hrest hclean ⊢
      · exact hrest hclean
      · exact hrest fun _ => rfl

/-- A property every action keeps is kept by the loop. -/
theorem sumEach_invariant (hstep : ∀ s a, I s → I (f s a).2) (as : List α) {s : σ} (h : I s) :
    I (sumEach f as s).2 :=
  sumEach_invariant_mem (C := False) as (fun s a _ h _ => hstep s a h) h False.elim

/-- A loop fails only as its actions fail. -/
theorem sumEach_error_mem {P : ε → Prop} (as : List α) (hstep : ∀ s, ∀ a ∈ as, I s → I (f s a).2)
    (herror : ∀ s, ∀ a ∈ as, I s → ∀ e, (f s a).1 = .error e → P e) {s : σ} (h : I s) {e : ε}
    (hfail : (sumEach f as s).1 = .error e) : P e := by
  induction as generalizing s with
  | nil => cases hfail
  | cons a as ih =>
    have hnext := hstep s a (List.mem_cons_self ..) h
    have hfirst := herror s a (List.mem_cons_self ..) h
    simp only [sumEach] at hfail
    rcases hf : f s a with ⟨e' | count, s'⟩ <;> simp only [hf] at hnext hfirst hfail
    · cases hfail
      exact hfirst e rfl
    · rcases hs : sumEach f as s' with ⟨e' | rest, s''⟩ <;> simp only [hs] at hfail
      · cases hfail
        exact ih (fun s a' ha' => hstep s a' (List.mem_cons_of_mem a ha'))
          (fun s a' ha' => herror s a' (List.mem_cons_of_mem a ha')) hnext (by rw [hs])
      · cases hfail

/-- What the action of every element brings about when it succeeds, and the actions
after it keep, a loop that succeeds brings about for all of them. -/
theorem sumEach_ok {Q : α → σ → Prop} (as : List α)
    (hstep : ∀ s s' count, ∀ a ∈ as, I s → f s a = (.ok count, s') →
      I s' ∧ Q a s' ∧ ∀ b, Q b s → Q b s') {s s' : σ} {total : Nat} (h : I s)
    (hok : sumEach f as s = (.ok total, s')) : I s' ∧ (∀ a ∈ as, Q a s') ∧ ∀ b, Q b s → Q b s' := by
  induction as generalizing s total with
  | nil =>
    cases hok
    exact ⟨h, fun a ha => absurd ha List.not_mem_nil, fun _ hb => hb⟩
  | cons a as ih =>
    simp only [sumEach] at hok
    rcases hf : f s a with ⟨e | count, s₁⟩ <;> simp only [hf] at hok
    · cases hok
    rcases hs : sumEach f as s₁ with ⟨e | rest, s₂⟩ <;> simp only [hs] at hok
    · cases hok
    cases hok
    obtain ⟨hI, hQ, hkeep⟩ := hstep s s₁ count a (List.mem_cons_self ..) h hf
    obtain ⟨hI', hall, hkeep'⟩ :=
      ih (fun s s' count b hb => hstep s s' count b (List.mem_cons_of_mem a hb)) hI hs
    refine ⟨hI', fun b hb => ?_, fun b hb => hkeep' b (hkeep b hb)⟩
    obtain rfl | hb := List.mem_cons.1 hb
    · exact hkeep' b hQ
    · exact hall b hb

/-- After an action that succeeds, the loop goes on with the rest. -/
theorem sumEach_cons_ok {a : α} (as : List α) {s s' : σ} {count : Nat}
    (h : f s a = (.ok count, s')) :
    (sumEach f (a :: as) s).2 = (sumEach f as s').2 ∧
      ∀ total, (sumEach f (a :: as) s).1 = .ok total →
        ∃ rest, (sumEach f as s').1 = .ok rest := by
  simp only [sumEach, h]
  rcases hloop : sumEach f as s' with ⟨_ | rest, s''⟩
  · exact ⟨rfl, fun _ h => nomatch h⟩
  · exact ⟨rfl, fun _ _ => ⟨rest, rfl⟩⟩

/-- The first action that fails ends the loop, in the state it leaves. -/
theorem sumEach_stops {done : List α} {a : α} {s s' s'' : σ} {count : Nat} {e : ε}
    (hdone : sumEach f done s = (.ok count, s')) (h : f s' a = (.error e, s'')) (rest : List α) :
    sumEach f (done ++ a :: rest) s = (.error e, s'') := by
  induction done generalizing s count with
  | nil =>
    cases hdone
    simp only [List.nil_append, sumEach, h]
  | cons b done ih =>
    simp only [sumEach] at hdone
    rcases hb : f s b with ⟨e' | n, s₁⟩ <;> simp only [hb] at hdone
    · cases hdone
    rcases hloop : sumEach f done s₁ with ⟨e' | n', s₂⟩ <;> simp only [hloop] at hdone
    · cases hdone
    cases hdone
    simp only [List.cons_append, sumEach, hb, ih hloop]

end Altior.Lib
