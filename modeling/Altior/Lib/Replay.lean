import Mathlib.Data.List.Basic

/-!
# Replaying a log

A log of rows is replayed from a start state by a fallible `apply`.  The state a
writer keeps beside the log is *folded* when replaying the log gives that state;
appending a row keeps it folded when the writer's new state is what `apply`
gives on the row.
-/

namespace Altior.Lib

universe u v

variable {σ : Type u} {ρ ε : Type v}

/-- Replays the rows of a log in order, stopping at the first failure. -/
def replay (apply : σ → ρ → Except ε σ) (init : σ) (log : List ρ) : Except ε σ :=
  log.foldlM apply init

variable {apply : σ → ρ → Except ε σ} {init : σ}

variable {log : List ρ}

theorem replay_append {rows : List ρ} {s : σ} (h : replay apply init log = .ok s) :
    replay apply init (log ++ rows) = replay apply s rows := by
  unfold replay at *
  rw [List.foldlM_append, h]
  rfl

/-- **Append rule.** A log that folds to `s`, extended by a row that `apply`
takes from `s` to `s'`, folds to `s'`. -/
theorem replay_append_row {row : ρ} {s s' : σ} (h : replay apply init log = .ok s)
    (hrow : apply s row = .ok s') : replay apply init (log ++ [row]) = .ok s' := by
  rw [replay_append h]
  unfold replay
  rw [List.foldlM_cons, hrow]
  rfl

/-- What every accepted row of a log keeps holds after the replay of the log. -/
theorem replay_invariant_of_mem {I : σ → Prop} {init s : σ}
    (hstep : ∀ row ∈ log, ∀ s s', apply s row = .ok s' → I s → I s') (h0 : I init)
    (h : replay apply init log = .ok s) : I s := by
  induction log generalizing init with
  | nil =>
    cases h
    exact h0
  | cons row log ih =>
    unfold replay at h
    rw [List.foldlM_cons] at h
    cases hrow : apply init row with
    | error e =>
      rw [hrow] at h
      cases h
    | ok s' =>
      rw [hrow] at h
      exact ih (fun row hmem => hstep row (List.mem_cons_of_mem _ hmem))
        (hstep row List.mem_cons_self init s' hrow h0) h

/-- **Replay invariant rule.** What every accepted row keeps holds after the
replay of a whole log. -/
theorem replay_invariant {I : σ → Prop} (hstep : ∀ s row s', apply s row = .ok s' → I s → I s')
    {init s : σ} (h0 : I init) (h : replay apply init log = .ok s) : I s :=
  replay_invariant_of_mem (fun row _ s s' => hstep s row s') h0 h

/-- **Replay establishment rule.** What one row of a log establishes and every row
keeps holds after the replay of the log. -/
theorem replay_establishes {P : σ → Prop} {row : ρ} (hset : ∀ s s', apply s row = .ok s' → P s')
    (hkeep : ∀ s other s', apply s other = .ok s' → P s → P s') {init s : σ} (hmem : row ∈ log)
    (h : replay apply init log = .ok s) : P s := by
  induction log generalizing init with
  | nil => cases hmem
  | cons first log ih =>
    unfold replay at h
    rw [List.foldlM_cons] at h
    cases hfirst : apply init first with
    | error e =>
      rw [hfirst] at h
      cases h
    | ok s' =>
      rw [hfirst] at h
      rcases List.mem_cons.1 hmem with rfl | hmem
      · exact replay_invariant hkeep (hset init s' hfirst) h
      · exact ih hmem h

end Altior.Lib
