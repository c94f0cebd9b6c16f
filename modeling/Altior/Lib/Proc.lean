import Mathlib.Data.List.Basic

/-!
# Computations a crash may cut short

A `Proc` runs atomic actions on a state and may stop in three ways: it is done
with a value, it failed with an error, or the process crashed before one of its
atomic actions.  How many actions come before the crash is part of the input of
a run, so a statement about every run is a statement about every crash point.
The state is kept however the computation ends.

`Spec` is the Hoare triple of the monad, with one postcondition for each of the
three endings.
-/

namespace Altior.Lib

/-- How a computation ends. -/
inductive Ending (ε α : Type)
  | done (a : α)
  | failed (e : ε)
  | crashed
deriving DecidableEq, Repr

namespace Ending

variable {ε α : Type}

/-- A result is an ending without a crash. -/
def ofExcept : Except ε α → Ending ε α
  | .ok a => .done a
  | .error e => .failed e

@[simp] theorem ofExcept_ok (a : α) : ofExcept (.ok a : Except ε α) = .done a := rfl

/-- Whether the computation came to a value. -/
def isDone : Ending ε α → Bool
  | .done _ => true
  | _ => false

theorem isDone_iff {e : Ending ε α} : e.isDone = true ↔ ∃ a, e = .done a := by
  cases e <;> simp [isDone]

end Ending

/-- Where a computation left off: the ending, the state and the number of atomic
actions still ahead of the crash, if one comes. -/
structure Outcome (σ ε α : Type) where
  ending : Ending ε α
  state : σ
  left : Option Nat

/-- A computation on a state `σ` with errors `ε`; its second argument is the
number of atomic actions before the crash, `none` when no crash comes. -/
def Proc (σ ε α : Type) : Type := σ → Option Nat → Outcome σ ε α

namespace Proc

variable {σ τ ε ε' α β : Type}

/-- Runs the first computation and, if it is done, the second. -/
def andThen (m : Proc σ ε α) (f : α → Proc σ ε β) : Proc σ ε β := fun s n =>
  match m s n with
  | ⟨.done a, s', n'⟩ => f a s' n'
  | ⟨.failed e, s', n'⟩ => ⟨.failed e, s', n'⟩
  | ⟨.crashed, s', n'⟩ => ⟨.crashed, s', n'⟩

instance : Monad (Proc σ ε) where
  pure a := fun s n => ⟨.done a, s, n⟩
  bind := andThen

/-- Reads the state. -/
def get : Proc σ ε σ := fun s n => ⟨.done s, s, n⟩

/-- Changes the state in memory; no crash comes between this and what follows. -/
def modify (f : σ → σ) : Proc σ ε Unit := fun s n => ⟨.done (), f s, n⟩

/-- Stops with an error. -/
def fail (e : ε) : Proc σ ε α := fun s n => ⟨.failed e, s, n⟩

/-- The `?` of a result. -/
def ofExcept (r : Except ε α) : Proc σ ε α := fun s n => ⟨.ofExcept r, s, n⟩

/-- An atomic action: the crash comes before it or not at all. -/
def act (f : σ → Except ε α × σ) : Proc σ ε α := fun s n =>
  match n with
  | some 0 => ⟨.crashed, s, some 0⟩
  | n => ⟨.ofExcept (f s).1, (f s).2, n.map Nat.pred⟩

/-- Hands the error to the caller instead of stopping. -/
def attempt (m : Proc σ ε α) : Proc σ ε' (Except ε α) := fun s n =>
  match m s n with
  | ⟨.done a, s', n'⟩ => ⟨.done (.ok a), s', n'⟩
  | ⟨.failed e, s', n'⟩ => ⟨.done (.error e), s', n'⟩
  | ⟨.crashed, s', n'⟩ => ⟨.crashed, s', n'⟩

/-- `let _ =`: goes on whether or not the computation failed. -/
def ignore (m : Proc σ ε α) : Proc σ ε Unit := fun s n =>
  match m s n with
  | ⟨.done _, s', n'⟩ => ⟨.done (), s', n'⟩
  | ⟨.failed _, s', n'⟩ => ⟨.done (), s', n'⟩
  | ⟨.crashed, s', n'⟩ => ⟨.crashed, s', n'⟩

/-- `map_err`. -/
def mapError (f : ε → ε') (m : Proc σ ε α) : Proc σ ε' α := fun s n =>
  match m s n with
  | ⟨.done a, s', n'⟩ => ⟨.done a, s', n'⟩
  | ⟨.failed e, s', n'⟩ => ⟨.failed (f e), s', n'⟩
  | ⟨.crashed, s', n'⟩ => ⟨.crashed, s', n'⟩

/-- Runs a computation on a part of the state. -/
def zoom (view : τ → σ) (put : τ → σ → τ) (m : Proc σ ε α) : Proc τ ε α := fun t n =>
  match m (view t) n with
  | ⟨e, s', n'⟩ => ⟨e, put t s', n'⟩

/-! ## What a run computes -/

section Run

variable (s : σ) (n : Option Nat)

@[simp] theorem pure_run (a : α) : (pure a : Proc σ ε α) s n = ⟨.done a, s, n⟩ := rfl

theorem bind_run (m : Proc σ ε α) (f : α → Proc σ ε β) :
    (m >>= f) s n = match m s n with
      | ⟨.done a, s', n'⟩ => f a s' n'
      | ⟨.failed e, s', n'⟩ => ⟨.failed e, s', n'⟩
      | ⟨.crashed, s', n'⟩ => ⟨.crashed, s', n'⟩ := rfl

@[simp] theorem get_run : (get : Proc σ ε σ) s n = ⟨.done s, s, n⟩ := rfl

@[simp] theorem modify_run (f : σ → σ) : (modify f : Proc σ ε Unit) s n = ⟨.done (), f s, n⟩ := rfl

@[simp] theorem ofExcept_run (r : Except ε α) :
    (ofExcept r : Proc σ ε α) s n = ⟨.ofExcept r, s, n⟩ := rfl

@[simp] theorem act_run_none (f : σ → Except ε α × σ) :
    act f s none = ⟨.ofExcept (f s).1, (f s).2, none⟩ := rfl

variable {m : Proc σ ε α} {n' : Option Nat}

theorem bind_run_done {f : α → Proc σ ε β} {a : α} {s' : σ} (h : m s n = ⟨.done a, s', n'⟩) :
    (m >>= f) s n = f a s' n' := by
  rw [bind_run, h]

theorem bind_run_failed {f : α → Proc σ ε β} {e : ε} {s' : σ} (h : m s n = ⟨.failed e, s', n'⟩) :
    (m >>= f) s n = ⟨.failed e, s', n'⟩ := by
  rw [bind_run, h]

theorem attempt_run_done {ε' : Type} {a : α} {s' : σ} (h : m s n = ⟨.done a, s', n'⟩) :
    (attempt m : Proc σ ε' (Except ε α)) s n = ⟨.done (.ok a), s', n'⟩ := by
  unfold attempt
  rw [h]

theorem attempt_run_failed {ε' : Type} {e : ε} {s' : σ} (h : m s n = ⟨.failed e, s', n'⟩) :
    (attempt m : Proc σ ε' (Except ε α)) s n = ⟨.done (.error e), s', n'⟩ := by
  unfold attempt
  rw [h]

end Run

/-! ## Triples -/

/-- From a state in `P` the computation ends in `Q`, fails in `E` or crashes in
`R`, wherever the crash comes; it crashes only when a crash is ahead. -/
def Spec (P : σ → Prop) (m : Proc σ ε α) (Q : α → σ → Prop) (E : ε → σ → Prop) (R : σ → Prop) :
    Prop :=
  ∀ s n, P s → match m s n with
    | ⟨.done a, s', n'⟩ => Q a s' ∧ (n = none → n' = none)
    | ⟨.failed e, s', n'⟩ => E e s' ∧ (n = none → n' = none)
    | ⟨.crashed, s', _⟩ => R s' ∧ n ≠ none

/-- An invariant that holds again however the computation ends. -/
def Keeps (I : σ → Prop) (m : Proc σ ε α) : Prop := Spec I m (fun _ => I) (fun _ => I) I

variable {g : σ → Except ε α × σ} {put : τ → σ → τ} {view : τ → σ}

namespace Spec

variable {P P' : σ → Prop} {m : Proc σ ε α} {f : α → Proc σ ε β} {M : α → σ → Prop}
  {Q Q' : α → σ → Prop} {Z : β → σ → Prop} {E E' : ε → σ → Prop} {R R' : σ → Prop}

/-- The rule of consequence. -/
theorem mono (h : Spec P m Q E R) (hP : ∀ s, P' s → P s) (hQ : ∀ a s, Q a s → Q' a s)
    (hE : ∀ e s, E e s → E' e s) (hR : ∀ s, R s → R' s) : Spec P' m Q' E' R' := by
  intro s n hs
  have hrun := h s n (hP s hs)
  revert hrun
  rcases m s n with ⟨a | e | _, s', n'⟩
  · exact And.imp_left (hQ a s')
  · exact And.imp_left (hE e s')
  · exact And.imp_left (hR s')

/-- The rule of sequence. -/
theorem bind (hm : Spec P m M E R) (hf : ∀ a, Spec (M a) (f a) Z E R) :
    Spec P (m >>= f) Z E R := by
  intro s n hs
  have hrun := hm s n hs
  rw [bind_run]
  revert hrun
  rcases m s n with ⟨a | e | _, s', n'⟩
  · rintro ⟨ha, hn⟩
    have hrest := hf a s' n' ha
    revert hrest
    -- the crash the second part may run into was ahead of the first one
    dsimp only
    rcases f a s' n' with ⟨b | e | _, s'', n''⟩
    · exact And.imp_right fun h heq => h (hn heq)
    · exact And.imp_right fun h heq => h (hn heq)
    · exact And.imp_right fun h heq => h (hn heq)
  · exact id
  · exact id

theorem pure {a : α} (h : ∀ s, P s → Q a s) : Spec P (Pure.pure a : Proc σ ε α) Q E R :=
  fun s _ hs => ⟨h s hs, id⟩

theorem get {Q : σ → σ → Prop} (h : ∀ s, P s → Q s s) : Spec P (Proc.get : Proc σ ε σ) Q E R :=
  fun s _ hs => ⟨h s hs, id⟩

theorem modify {g : σ → σ} {Q : Unit → σ → Prop} (h : ∀ s, P s → Q () (g s)) :
    Spec P (Proc.modify g : Proc σ ε Unit) Q E R :=
  fun s _ hs => ⟨h s hs, id⟩

theorem fail {e : ε} (h : ∀ s, P s → E e s) : Spec P (Proc.fail e : Proc σ ε α) Q E R :=
  fun s _ hs => ⟨h s hs, id⟩

theorem ofExcept {r : Except ε α} (hok : ∀ a s, r = .ok a → P s → Q a s)
    (herror : ∀ e s, r = .error e → P s → E e s) : Spec P (Proc.ofExcept r) Q E R := by
  intro s n hs
  cases r with
  | ok a => exact ⟨hok a s rfl hs, id⟩
  | error e => exact ⟨herror e s rfl hs, id⟩

/-- The two ways on from a result. -/
theorem ofExcept_bind {r : Except ε α} (hok : ∀ a, r = .ok a → Spec P (f a) Z E R)
    (herror : ∀ e, r = .error e → ∀ s, P s → E e s) : Spec P (Proc.ofExcept r >>= f) Z E R := by
  cases r with
  | ok a => exact hok a rfl
  | error e => exact fun s _ hs => ⟨herror e rfl s hs, id⟩

/-- An atomic action: its effect, or the crash that comes before it. -/
theorem act (hok : ∀ s a, P s → (g s).1 = .ok a → Q a (g s).2)
    (herror : ∀ s e, P s → (g s).1 = .error e → E e (g s).2) (hcrash : ∀ s, P s → R s) :
    Spec P (Proc.act g) Q E R := by
  have hrun : ∀ s, P s → ∀ n : Option Nat,
      match (⟨.ofExcept (g s).1, (g s).2, n.map Nat.pred⟩ : Outcome σ ε α) with
      | ⟨.done a, s', n'⟩ => Q a s' ∧ (n = none → n' = none)
      | ⟨.failed e, s', n'⟩ => E e s' ∧ (n = none → n' = none)
      | ⟨.crashed, s', _⟩ => R s' ∧ n ≠ none := by
    intro s hs n
    cases hr : (g s).1 with
    | ok a => exact ⟨hok s a hs hr, fun hn => by rw [hn]; rfl⟩
    | error e => exact ⟨herror s e hs hr, fun hn => by rw [hn]; rfl⟩
  intro s n hs
  match n with
  | none => exact hrun s hs none
  | some 0 => exact ⟨hcrash s hs, by simp⟩
  | some (k + 1) => exact hrun s hs (some (k + 1))

theorem attempt {Q : Except ε α → σ → Prop} {E' : ε' → σ → Prop}
    (h : Spec P m (fun a => Q (.ok a)) (fun e => Q (.error e)) R) :
    Spec P (Proc.attempt m : Proc σ ε' (Except ε α)) Q E' R := by
  intro s n hs
  have hrun := h s n hs
  unfold Proc.attempt
  revert hrun
  rcases m s n with ⟨a | e | _, s', n'⟩ <;> exact id

theorem ignore {Q : Unit → σ → Prop} {E' : ε → σ → Prop}
    (h : Spec P m (fun _ => Q ()) (fun _ => Q ()) R) : Spec P (Proc.ignore m) Q E' R := by
  intro s n hs
  have hrun := h s n hs
  unfold Proc.ignore
  revert hrun
  rcases m s n with ⟨a | e | _, s', n'⟩ <;> exact id

theorem mapError {g : ε → ε'} {E' : ε' → σ → Prop} (h : Spec P m Q (fun e => E' (g e)) R) :
    Spec P (Proc.mapError g m) Q E' R := by
  intro s n hs
  have hrun := h s n hs
  unfold Proc.mapError
  revert hrun
  rcases m s n with ⟨a | e | _, s', n'⟩ <;> exact id

/-- A computation on a part of the state, from the part as it is at the start. -/
theorem zoom {P : τ → Prop} {Q : α → τ → Prop} {E : ε → τ → Prop} {R : τ → Prop}
    (h : ∀ t, P t → Spec (· = view t) m (fun a s => Q a (put t s)) (fun e s => E e (put t s))
      fun s => R (put t s)) : Spec P (Proc.zoom view put m) Q E R := by
  intro t n ht
  have hrun := h t ht (view t) n rfl
  unfold Proc.zoom
  revert hrun
  rcases m (view t) n with ⟨a | e | _, s', n'⟩ <;> exact id

/-- The state a computation ends in, however it ends. -/
theorem state {I : σ → Prop} (h : Spec P m (fun _ => I) (fun _ => I) I) {s : σ} {n : Option Nat}
    (hs : P s) : I (m s n).state := by
  have hrun := h s n hs
  revert hrun
  rcases m s n with ⟨a | e | _, s', n'⟩ <;> exact And.left

/-- The state a computation ends in when no crash is ahead. -/
theorem state_none {I : σ → Prop} (h : Spec P m (fun _ => I) (fun _ => I) R) {s : σ} (hs : P s) :
    I (m s none).state := by
  have hrun := h s none hs
  revert hrun
  rcases m s none with ⟨a | e | _, s', n'⟩
  · exact And.left
  · exact And.left
  · exact fun h => absurd rfl h.2

/-- A computation that cannot fail is done when no crash is ahead. -/
theorem done (h : Spec P m Q (fun _ _ => False) R) {s : σ} (hs : P s) :
    ∃ a s', m s none = ⟨.done a, s', none⟩ ∧ Q a s' := by
  have hrun := h s none hs
  revert hrun
  rcases m s none with ⟨a | e | _, s', n'⟩
  · rintro ⟨ha, hn⟩
    rw [hn rfl]
    exact ⟨a, s', rfl, ha⟩
  · exact fun h => h.1.elim
  · exact fun h => absurd rfl h.2

theorem ite {c : Prop} [Decidable c] {m' : Proc σ ε α} (ht : c → Spec P m Q E R)
    (hf : ¬ c → Spec P m' Q E R) : Spec P (if c then m else m') Q E R := by
  split
  · exact ht ‹_›
  · exact hf ‹_›

end Spec

namespace Keeps

variable {I : σ → Prop} {m : Proc σ ε α} {f : α → Proc σ ε β}

theorem bind (hm : Keeps I m) (hf : ∀ a, Keeps I (f a)) : Keeps I (m >>= f) := Spec.bind hm hf

theorem pure (a : α) : Keeps I (Pure.pure a : Proc σ ε α) := Spec.pure fun _ h => h

theorem get : Keeps I (Proc.get : Proc σ ε σ) := Spec.get fun _ h => h

theorem fail (e : ε) : Keeps I (Proc.fail e : Proc σ ε α) := Spec.fail fun _ h => h

theorem ofExcept (r : Except ε α) : Keeps I (Proc.ofExcept r : Proc σ ε α) :=
  Spec.ofExcept (fun _ _ _ h => h) fun _ _ _ h => h

theorem modify {g : σ → σ} (h : ∀ s, I s → I (g s)) : Keeps I (Proc.modify g : Proc σ ε Unit) :=
  Spec.modify h

/-- An atomic action keeps an invariant its effect keeps. -/
theorem act (h : ∀ s, I s → I (g s).2) : Keeps I (Proc.act g) :=
  Spec.act (fun s _ hs _ => h s hs) (fun s _ hs _ => h s hs) fun _ hs => hs

theorem attempt (h : Keeps I m) : Keeps I (Proc.attempt m : Proc σ ε' (Except ε α)) :=
  Spec.attempt h

theorem ignore (h : Keeps I m) : Keeps I (Proc.ignore m) := Spec.ignore h

theorem mapError {g : ε → ε'} (h : Keeps I m) : Keeps I (Proc.mapError g m) := Spec.mapError h

/-- A computation on a part of the state keeps what it keeps of the part. -/
theorem zoom {I : τ → Prop} {J : τ → σ → Prop} {m : Proc σ ε α} (hview : ∀ t, I t → J t (view t))
    (hput : ∀ t s, I t → J t s → I (put t s)) (h : ∀ t, I t → Keeps (J t) m) :
    Keeps I (Proc.zoom view put m) := by
  intro t n ht
  have hrun := h t ht (view t) n (hview t ht)
  unfold Proc.zoom
  revert hrun
  rcases m (view t) n with ⟨a | e | _, s', n'⟩ <;> exact And.imp_left (hput t s' ht)

/-- An invariant that implies another one on the way out. -/
theorem toSpec {J : σ → Prop} (h : Keeps I m) (hJ : ∀ s, I s → J s) :
    Spec I m (fun _ => I) (fun _ => J) J :=
  h.mono (fun _ hs => hs) (fun _ _ hs => hs) (fun _ s hs => hJ s hs) hJ

end Keeps

/-! ## Computations that run to their end -/

/-- Without a crash ahead the computation is done or fails. -/
def Ends (m : Proc σ ε α) : Prop := Keeps (fun _ => True) m

namespace Ends

variable {m : Proc σ ε α}

theorem cases (h : Ends m) (s : σ) :
    (∃ a s', m s none = ⟨.done a, s', none⟩) ∨ ∃ e s', m s none = ⟨.failed e, s', none⟩ := by
  have hrun := h s none trivial
  revert hrun
  rcases m s none with ⟨a | e | _, s', n'⟩
  · rintro ⟨-, hn⟩
    exact .inl ⟨a, s', by rw [hn rfl]⟩
  · rintro ⟨-, hn⟩
    exact .inr ⟨e, s', by rw [hn rfl]⟩
  · exact fun hrun => absurd rfl hrun.2

theorem bind {f : α → Proc σ ε β} (hm : Ends m) (hf : ∀ a, Ends (f a)) : Ends (m >>= f) :=
  Keeps.bind hm hf

theorem pure (a : α) : Ends (Pure.pure a : Proc σ ε α) := Keeps.pure a

theorem get : Ends (Proc.get : Proc σ ε σ) := Keeps.get

theorem fail (e : ε) : Ends (Proc.fail e : Proc σ ε α) := Keeps.fail e

theorem ofExcept (r : Except ε α) : Ends (Proc.ofExcept r : Proc σ ε α) := Keeps.ofExcept r

theorem modify (g : σ → σ) : Ends (Proc.modify g : Proc σ ε Unit) := Keeps.modify fun _ h => h

theorem act (g : σ → Except ε α × σ) : Ends (Proc.act g) := Keeps.act fun _ h => h

theorem attempt (h : Ends m) : Ends (Proc.attempt m : Proc σ ε' (Except ε α)) := Keeps.attempt h

theorem ignore (h : Ends m) : Ends (Proc.ignore m) := Keeps.ignore h

theorem mapError {g : ε → ε'} (h : Ends m) : Ends (Proc.mapError g m) := Keeps.mapError h

theorem zoom (h : Ends m) : Ends (Proc.zoom view put m) :=
  Keeps.zoom (J := fun _ _ => True) (fun _ _ => trivial) (fun _ _ _ _ => trivial) fun _ _ => h

end Ends

/-! ## What a computation leaves alone -/

/-- A computation leaves a part of the state as it is, however it ends. -/
def Fixes (f : σ → τ) (m : Proc σ ε α) : Prop := ∀ s n, f (m s n).state = f s

namespace Fixes

variable {ρ ρ' : Type} {f : σ → τ} {m : Proc σ ε α}

theorem bind {g : α → Proc σ ε β} (hm : Fixes f m) (hg : ∀ a, Fixes f (g a)) :
    Fixes f (m >>= g) := by
  intro s n
  have hrun := hm s n
  rw [bind_run]
  revert hrun
  rcases m s n with ⟨a | e | _, s', n'⟩
  · exact fun hrun => (hg a s' n').trans hrun
  · exact id
  · exact id

/-- What comes last leaves it as the first part left it. -/
theorem bind_state {g : α → Proc σ ε β} (hg : ∀ a, Fixes f (g a)) (s : σ) (n : Option Nat) :
    f ((m >>= g) s n).state = f (m s n).state := by
  rw [bind_run]
  rcases m s n with ⟨a | e | _, s', n'⟩
  · exact hg a s' n'
  · rfl
  · rfl

theorem pure (a : α) : Fixes f (Pure.pure a : Proc σ ε α) := fun _ _ => rfl

theorem get : Fixes f (Proc.get : Proc σ ε σ) := fun _ _ => rfl

theorem fail (e : ε) : Fixes f (Proc.fail e : Proc σ ε α) := fun _ _ => rfl

theorem ofExcept (r : Except ε α) : Fixes f (Proc.ofExcept r : Proc σ ε α) := fun _ _ => rfl

theorem modify {g : σ → σ} (h : ∀ s, f (g s) = f s) : Fixes f (Proc.modify g : Proc σ ε Unit) :=
  fun s _ => h s

theorem act (h : ∀ s, f (g s).2 = f s) : Fixes f (Proc.act g) := by
  intro s n
  match n with
  | none => exact h s
  | some 0 => rfl
  | some (k + 1) => exact h s

theorem attempt (h : Fixes f m) : Fixes f (Proc.attempt m : Proc σ ε' (Except ε α)) := by
  intro s n
  have hrun := h s n
  unfold Proc.attempt
  revert hrun
  rcases m s n with ⟨a | e | _, s', n'⟩ <;> exact id

theorem ignore (h : Fixes f m) : Fixes f (Proc.ignore m) := by
  intro s n
  have hrun := h s n
  unfold Proc.ignore
  revert hrun
  rcases m s n with ⟨a | e | _, s', n'⟩ <;> exact id

theorem mapError {g : ε → ε'} (h : Fixes f m) : Fixes f (Proc.mapError g m) := by
  intro s n
  have hrun := h s n
  unfold Proc.mapError
  revert hrun
  rcases m s n with ⟨a | e | _, s', n'⟩ <;> exact id

/-- A computation on a part of the state leaves alone what its part has no share
in. -/
theorem zoom {f : τ → ρ} (h : ∀ t s, f (put t s) = f t) : Fixes f (Proc.zoom view put m) :=
  fun t _ => h t _

/-- A computation on a part of the state leaves alone what it leaves alone of the
part. -/
theorem zoom_part {f : τ → ρ} {g : σ → ρ'} (hput : ∀ t s, g s = g (view t) → f (put t s) = f t)
    (h : Fixes g m) : Fixes f (Proc.zoom view put m) :=
  fun t n => hput t _ (h (view t) n)

/-- A condition on what a computation leaves alone is kept. -/
theorem keeps {I : σ → Prop} (hf : Fixes f m) (hends : Ends m)
    (hI : ∀ s s', f s' = f s → I s → I s') : Keeps I m := by
  intro s n hs
  have hrun := hends s n trivial
  have hstate := hI s _ (hf s n) hs
  revert hrun hstate
  rcases m s n with ⟨a | e | _, s', n'⟩
  · exact fun hrun hstate => ⟨hstate, hrun.2⟩
  · exact fun hrun hstate => ⟨hstate, hrun.2⟩
  · exact fun hrun hstate => ⟨hstate, hrun.2⟩

end Fixes

end Proc

end Altior.Lib
