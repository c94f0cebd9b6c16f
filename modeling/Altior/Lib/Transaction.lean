import Mathlib.Data.List.Basic

/-!
# Transactions

The statements of a transaction change a working copy, and the database may refuse any
of them; what was written by then stays in the copy.  Only a commit that is not
refused makes the copy the state.

Which statements are refused is part of the input of a run.
-/

namespace Altior.Lib

/-- A computation in an open transaction: from the working copy and the refusals that
are to come (`true` refuses the next statement) to a result, the copy and the refusals
left. -/
def Tx (σ ε α : Type) : Type := σ → List Bool → Except ε α × σ × List Bool

/-- How a transaction that did not fail is closed. -/
inductive Close (α : Type)
  | commit (a : α)
  | drop (a : α)

namespace Tx

variable {σ ε α β : Type}

def andThen (m : Tx σ ε α) (f : α → Tx σ ε β) : Tx σ ε β := fun s r =>
  match m s r with
  | (.ok a, s', r') => f a s' r'
  | (.error e, s', r') => (.error e, s', r')

instance : Monad (Tx σ ε) where
  pure a := fun s r => (.ok a, s, r)
  bind := andThen

/-- A statement, reported as `refused` when the database does not take it. -/
def statement (refused : ε) (f : σ → α × σ) : Tx σ ε α := fun s r =>
  match r with
  | true :: r => (.error refused, s, r)
  | r => (.ok (f s).1, (f s).2, r.tail)

/-- A statement that only reads. -/
def query (refused : ε) (f : σ → α) : Tx σ ε α := statement refused fun s => (f s, s)

/-- A result of the program itself. -/
def ofExcept (result : Except ε α) : Tx σ ε α := fun s r => (result, s, r)

@[simp] theorem pure_run (a : α) (s : σ) (r : List Bool) :
    (pure a : Tx σ ε α) s r = (.ok a, s, r) := rfl

@[simp] theorem ofExcept_run (result : Except ε α) (s : σ) (r : List Bool) :
    (ofExcept result : Tx σ ε α) s r = (result, s, r) := rfl

@[simp] theorem statement_run (refused : ε) (f : σ → α × σ) (s : σ) :
    statement refused f s [] = (.ok (f s).1, (f s).2, []) := rfl

@[simp] theorem query_run (refused : ε) (f : σ → α) (s : σ) :
    query refused f s [] = (.ok (f s), s, []) := rfl

theorem bind_run (m : Tx σ ε α) (f : α → Tx σ ε β) (s : σ) (r : List Bool) :
    (m >>= f) s r = match m s r with
      | (.ok a, s', r') => f a s' r'
      | (.error e, s', r') => (.error e, s', r') := rfl

theorem bind_run_ok {m : Tx σ ε α} {f : α → Tx σ ε β} {s s' : σ} {r r' : List Bool} {a : α}
    (h : m s r = (.ok a, s', r')) : (m >>= f) s r = f a s' r' := by
  rw [bind_run, h]

theorem bind_run_error {m : Tx σ ε α} {f : α → Tx σ ε β} {s s' : σ} {r r' : List Bool} {e : ε}
    (h : m s r = (.error e, s', r')) : (m >>= f) s r = (.error e, s', r') := by
  rw [bind_run, h]

/-! ## Refusals -/

/-- A refused statement stops the computation with one of the errors `P`; without a
refusal it runs as if none were to come. -/
structure Refusable (P : ε → Prop) (m : Tx σ ε α) : Prop where
  calm : ∀ s, (m s []).2.2 = []
  cases : ∀ s r, (∃ e, P e ∧ (m s r).1 = .error e ∧ true ∈ r) ∨
    (m s r).1 = (m s []).1 ∧ (m s r).2.1 = (m s []).2.1 ∧ (m s r).2.2 ⊆ r

namespace Refusable

variable {P : ε → Prop} {m : Tx σ ε α} {f : α → Tx σ ε β}

theorem pure (a : α) : Refusable P (Pure.pure a : Tx σ ε α) :=
  ⟨fun _ => rfl, fun _ r => .inr ⟨rfl, rfl, List.Subset.refl r⟩⟩

theorem ofExcept (result : Except ε α) : Refusable P (Tx.ofExcept result : Tx σ ε α) :=
  ⟨fun _ => rfl, fun _ r => .inr ⟨rfl, rfl, List.Subset.refl r⟩⟩

theorem statement {refused : ε} (h : P refused) (g : σ → α × σ) :
    Refusable P (Tx.statement refused g) := by
  refine ⟨fun _ => rfl, fun s r => ?_⟩
  match r with
  | true :: r => exact .inl ⟨refused, h, rfl, List.mem_cons_self⟩
  | false :: r => exact .inr ⟨rfl, rfl, List.subset_cons_self false r⟩
  | [] => exact .inr ⟨rfl, rfl, List.Subset.refl []⟩

theorem query {refused : ε} (h : P refused) (g : σ → α) : Refusable P (Tx.query refused g) :=
  statement h _

theorem bind (hm : Refusable P m) (hf : ∀ a, Refusable P (f a)) : Refusable P (m >>= f) := by
  constructor
  · intro s
    have hcalm := hm.calm s
    rw [bind_run]
    revert hcalm
    rcases m s [] with ⟨a | e, s', r'⟩
    · rintro rfl
      rfl
    · rintro rfl
      exact (hf _).calm s'
  · intro s r
    have hcalm := hm.calm s
    have hcases := hm.cases s r
    rw [bind_run, bind_run]
    revert hcalm hcases
    rcases m s [] with ⟨result, s', r'⟩
    rcases m s r with ⟨result', s'', r''⟩
    rintro rfl (⟨e, he, herror, hmem⟩ | ⟨hresult, hs, hr⟩)
    · dsimp only at herror
      subst herror
      exact .inl ⟨e, he, rfl, hmem⟩
    · dsimp only at hresult hs hr
      subst hresult hs
      cases result' with
      | error e => exact .inr ⟨rfl, rfl, hr⟩
      | ok a =>
        rcases (hf a).cases s'' r'' with ⟨e, he, herror, hmem⟩ | ⟨hresult, hs, hr'⟩
        · exact .inl ⟨e, he, herror, hr hmem⟩
        · exact .inr ⟨hresult, hs, List.Subset.trans hr' hr⟩

theorem ite {c : Prop} [Decidable c] {m' : Tx σ ε α} (hm : Refusable P m) (hm' : Refusable P m') :
    Refusable P (if c then m else m') := by
  split
  · exact hm
  · exact hm'

end Refusable

end Tx

/-! ## Closing a transaction -/

section Transact

variable {σ ε α : Type}

/-- The end of a transaction and whether it was committed. -/
def Close.run (refused : ε) : Close α → Tx σ ε (α × Bool)
  | .commit a => do
      Tx.statement refused fun s => ((), s)
      pure (a, true)
  | .drop a => pure (a, false)

/-- `BEGIN`, the body and its end. -/
def bracket (refused : ε) (body : Tx σ ε (Close α)) : Tx σ ε (α × Bool) := do
  Tx.statement refused fun s => ((), s)
  let c ← body
  c.run refused

/-- The state after a transaction on a copy of `s`. -/
def settle (s : σ) : Except ε (α × Bool) × σ × List Bool → Except ε α × σ
  | (.ok (a, true), copy, _) => (.ok a, copy)
  | (.ok (a, false), _, _) => (.ok a, s)
  | (.error e, _, _) => (.error e, s)

/-- Runs the body on a working copy.  Dropped, or failed at any statement, the
transaction leaves the state as it was. -/
def transact (refused : ε) (body : Tx σ ε (Close α)) (s : σ) (r : List Bool) : Except ε α × σ :=
  settle s (bracket refused body s r)

variable {refused : ε} {body : Tx σ ε (Close α)} {s : σ}

/-- A body that asks for a commit. -/
theorem transact_commit {copy : σ} {a : α} (h : body s [] = (.ok (.commit a), copy, [])) :
    transact refused body s [] = (.ok a, copy) := by
  unfold transact bracket
  rw [Tx.bind_run_ok (Tx.statement_run refused _ s), Tx.bind_run_ok h]
  rfl

/-- A body that is done without one. -/
theorem transact_drop {copy : σ} {a : α} (h : body s [] = (.ok (.drop a), copy, [])) :
    transact refused body s [] = (.ok a, s) := by
  unfold transact bracket
  rw [Tx.bind_run_ok (Tx.statement_run refused _ s), Tx.bind_run_ok h]
  rfl

/-- A body that fails. -/
theorem transact_failed {copy : σ} {e : ε} (h : body s [] = (.error e, copy, [])) :
    transact refused body s [] = (.error e, s) := by
  unfold transact bracket
  rw [Tx.bind_run_ok (Tx.statement_run refused _ s), Tx.bind_run_error h]
  rfl

theorem settle_error {s : σ} {run : Except ε (α × Bool) × σ × List Bool} {e : ε} :
    (settle s run).1 = .error e ↔ run.1 = .error e := by
  rcases run with ⟨e' | ⟨a, committed⟩, copy, r⟩
  · simp [settle]
  · cases committed <;> simp [settle]

/-- **A transaction that fails changes nothing**, whichever statement it failed at. -/
theorem transact_error {r : List Bool} {e : ε} (h : (transact refused body s r).1 = .error e) :
    transact refused body s r = (.error e, s) := by
  have hrun := settle_error.1 h
  unfold transact
  revert hrun
  rcases bracket refused body s r with ⟨result, copy, r'⟩
  rintro rfl
  rfl

/-- **All or nothing.** Whatever is refused, a transaction fails with nothing changed or
does what it does when nothing is refused. -/
theorem transact_cases {P : ε → Prop} (hrefused : P refused) (h : Tx.Refusable P body)
    (s : σ) (r : List Bool) :
    (∃ e, P e ∧ transact refused body s r = (.error e, s)) ∨
      transact refused body s r = transact refused body s [] := by
  have hclose (c : Close α) : Tx.Refusable P (c.run refused : Tx σ ε (α × Bool)) := by
    cases c with
    | commit a => exact .bind (.statement hrefused _) fun _ => .pure _
    | drop a => exact .pure _
  have hbracket : Tx.Refusable P (bracket refused body) :=
    .bind (.statement hrefused _) fun _ => .bind h hclose
  rcases hbracket.cases s r with ⟨e, he, herror, -⟩ | ⟨hresult, hcopy, -⟩
  · exact .inl ⟨e, he, transact_error (settle_error.2 herror)⟩
  · refine .inr ?_
    unfold transact
    revert hresult hcopy
    rcases bracket refused body s r with ⟨result, copy, r'⟩
    rcases bracket refused body s [] with ⟨result', copy', r''⟩
    rintro rfl rfl
    rcases result with e | ⟨a, committed⟩
    · rfl
    · cases committed <;> rfl

end Transact

end Altior.Lib
