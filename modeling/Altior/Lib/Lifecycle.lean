import Mathlib.Data.List.Induction

/-!
# One-shot lifecycles

An entity that is opened once by an owner, used only by that owner while it is
open, and closed once with an outcome.  `Phase` is where it stands, `Act` what an
event means to it, and a trace of acts is legal when every act finds the phase
it needs.  A system gets its "at most once" and "only while open" facts by
showing that its table is the phase of its history.
-/

namespace Altior.Lib

universe u v

namespace Lifecycle

/-- Where an entity with owner `α` and outcome `β` stands. -/
inductive Phase (α : Type u) (β : Type v)
  | absent
  | opened (owner : α)
  | closed (owner : α) (outcome : β)

/-- What an event means to one entity. -/
inductive Act (α : Type u) (β : Type v)
  | start (owner : α)
  | use (owner : α)
  | close (owner : α) (outcome : β)
  | skip

variable {α : Type u} {β : Type v} [DecidableEq α]

/-- The phase after an act; `none` when the act is not allowed. -/
def step : Phase α β → Act α β → Option (Phase α β)
  | p, .skip => some p
  | .absent, .start owner => some (.opened owner)
  | .opened owner, .use owner' => if owner' = owner then some (.opened owner) else none
  | .opened owner, .close owner' outcome =>
    if owner' = owner then some (.closed owner outcome) else none
  | _, _ => none

variable {a : Act α β} {p : Phase α β} {acts : List (Act α β)}

/-- Nothing becomes absent. -/
theorem step_eq_absent (h : step p a = some .absent) : p = .absent := by
  cases p <;> cases a <;> simp only [step, Option.some.injEq, reduceCtorEq] at h
  all_goals first
    | rfl
    | (split at h <;> cases h)

/-- The phase after a trace; `none` when some act was not allowed. -/
def phase (acts : List (Act α β)) : Option (Phase α β) := acts.foldlM step .absent

/-- The act opens the entity. -/
def Act.opens : Act α β → Bool
  | .start _ => true
  | _ => false

/-- The act closes the entity. -/
def Act.closes : Act α β → Bool
  | .close _ _ => true
  | _ => false

/-- The owner an act names. -/
def Act.owner? : Act α β → Option α
  | .start owner => some owner
  | .use owner => some owner
  | .close owner _ => some owner
  | .skip => none

/-- The owner a phase names. -/
def Phase.owner? : Phase α β → Option α
  | .absent => none
  | .opened owner => some owner
  | .closed owner _ => some owner

theorem phase_append_act {p' : Phase α β} (h : phase acts = some p) (ha : step p a = some p') :
    phase (acts ++ [a]) = some p' := by
  unfold phase at *
  rw [List.foldlM_append, h]
  simp [ha]

theorem phase_append_act_inv {p' : Phase α β} (h : phase (acts ++ [a]) = some p') :
    ∃ p, phase acts = some p ∧ step p a = some p' := by
  unfold phase at *
  rw [List.foldlM_append] at h
  cases hp : acts.foldlM step .absent with
  | none => simp [hp] at h
  | some p => exact ⟨p, rfl, by simpa [hp] using h⟩

/-- The phase is a final one. -/
def Phase.isClosed : Phase α β → Bool
  | .closed _ _ => true
  | _ => false

theorem step_cases {q : Phase α β} (h : step q a = some p) :
    (a = .skip ∧ p = q) ∨
    (∃ owner, q = .absent ∧ a = .start owner ∧ p = .opened owner) ∨
    (∃ owner, q = .opened owner ∧ a = .use owner ∧ p = .opened owner) ∨
    (∃ owner outcome, q = .opened owner ∧ a = .close owner outcome ∧ p = .closed owner outcome) := by
  unfold step at h
  split at h
  · cases h
    exact .inl ⟨rfl, rfl⟩
  · cases h
    exact .inr (.inl ⟨_, rfl, rfl, rfl⟩)
  · split at h
    · rename_i heq
      cases h
      subst heq
      exact .inr (.inr (.inl ⟨_, rfl, rfl, rfl⟩))
    · cases h
  · split at h
    · rename_i heq
      cases h
      subst heq
      exact .inr (.inr (.inr ⟨_, _, rfl, rfl, rfl⟩))
    · cases h
  · cases h

/-- What a trace that ended in a phase did: how often it opened and closed the
entity, and whose acts it holds. -/
structure Ended (acts : List (Act α β)) (p : Phase α β) : Prop where
  opens : acts.countP Act.opens = if p.owner?.isSome then 1 else 0
  closes : acts.countP Act.closes = if p.isClosed then 1 else 0
  owners : ∀ a ∈ acts, ∀ owner, a.owner? = some owner → p.owner? = some owner
  outcome : ∀ owner outcome, p = .closed owner outcome → .close owner outcome ∈ acts

theorem Ended.step {q : Phase α β} (h : Ended acts q) (ha : step q a = some p) :
    Ended (acts ++ [a]) p := by
  obtain ⟨hopens, hcloses, howners, houtcome⟩ := h
  have hmem : ∀ {b}, b ∈ acts ++ [a] → b ∈ acts ∨ b = a := by simp
  rcases step_cases ha with ⟨rfl, rfl⟩ | ⟨owner, rfl, rfl, rfl⟩ | ⟨owner, rfl, rfl, rfl⟩ |
    ⟨owner, outcome, rfl, rfl, rfl⟩
  · refine ⟨by simp [hopens, Act.opens], by simp [hcloses, Act.closes], fun b hb x hx => ?_,
      fun x r hp => List.mem_append_left _ (houtcome x r hp)⟩
    rcases hmem hb with hb | rfl
    · exact howners b hb x hx
    · cases hx
  · refine ⟨by simp [hopens, Act.opens, Phase.owner?], by simp [hcloses, Act.closes, Phase.isClosed],
      fun b hb x hx => ?_, by simp⟩
    rcases hmem hb with hb | rfl
    · exact absurd (howners b hb x hx) (by simp [Phase.owner?])
    · exact hx
  · refine ⟨by simp [hopens, Act.opens, Phase.owner?], by simp [hcloses, Act.closes, Phase.isClosed],
      fun b hb x hx => ?_, by simp⟩
    rcases hmem hb with hb | rfl
    · exact howners b hb x hx
    · exact hx
  · refine ⟨by simp [hopens, Act.opens, Phase.owner?], by simp [hcloses, Act.closes, Phase.isClosed],
      fun b hb x hx => ?_, fun x r hp => by cases hp; simp⟩
    rcases hmem hb with hb | rfl
    · exact howners b hb x hx
    · exact hx

/-- A legal trace is described by the phase it ends in. -/
theorem ended_of_phase (h : phase acts = some p) : Ended acts p := by
  induction acts using List.reverseRecOn generalizing p with
  | nil =>
    cases h
    exact ⟨rfl, rfl, by simp, by simp⟩
  | append_singleton acts a ih =>
    obtain ⟨q, hq, hstep⟩ := phase_append_act_inv h
    exact (ih hq).step hstep

/-- A legal trace opens its entity at most once. -/
theorem opens_le_one (h : phase acts = some p) : acts.countP Act.opens ≤ 1 := by
  rw [(ended_of_phase h).opens]
  split <;> omega

/-- A legal trace closes its entity at most once. -/
theorem closes_le_one (h : phase acts = some p) : acts.countP Act.closes ≤ 1 := by
  rw [(ended_of_phase h).closes]
  split <;> omega

/-- All acts of a legal trace name one owner. -/
theorem owner_unique (h : phase acts = some p) {b : Act α β} (ha : a ∈ acts) (hb : b ∈ acts)
    {x y : α} (hx : a.owner? = some x) (hy : b.owner? = some y) : x = y := by
  have h1 := (ended_of_phase h).owners a ha x hx
  have h2 := (ended_of_phase h).owners b hb y hy
  exact Option.some.inj (h1.symm.trans h2)

end Lifecycle

end Altior.Lib
