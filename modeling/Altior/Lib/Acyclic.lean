import Mathlib.Logic.Relation

/-!
# Acyclic relations

A relation is acyclic when no element is reachable from itself.  The one fact
about growth: adding an edge keeps a relation acyclic exactly when the source was
not reachable from the target before.
-/

namespace Altior.Lib

universe u

open Relation

variable {α : Type u} {R R' : α → α → Prop} {a b : α}

/-- No element is reachable from itself in one step or more. -/
def Acyclic (R : α → α → Prop) : Prop := ∀ x, ¬ TransGen R x x

/-- The relation with one more edge. -/
def AddEdge (R : α → α → Prop) (a b : α) (x y : α) : Prop := R x y ∨ (x = a ∧ y = b)

/-- A path that may use the new edge either avoids it or passes through it. -/
theorem transGen_addEdge {x y : α} (h : TransGen (AddEdge R a b) x y) :
    TransGen R x y ∨ (ReflTransGen R x a ∧ ReflTransGen R b y) := by
  induction h with
  | single h =>
    rcases h with h | ⟨rfl, rfl⟩
    · exact .inl (.single h)
    · exact .inr ⟨.refl, .refl⟩
  | tail _ h ih =>
    rcases h with h | ⟨rfl, rfl⟩
    · rcases ih with ih | ⟨hsource, htarget⟩
      · exact .inl (ih.tail h)
      · exact .inr ⟨hsource, htarget.tail h⟩
    · rcases ih with ih | ⟨hsource, -⟩
      · exact .inr ⟨ih.to_reflTransGen, .refl⟩
      · exact .inr ⟨hsource, .refl⟩

/-- **Edge rule.** -/
theorem Acyclic.addEdge_iff (h : Acyclic R) :
    Acyclic (AddEdge R a b) ↔ ¬ ReflTransGen R b a := by
  constructor
  · intro hacyclic hpath
    have hback : ReflTransGen (AddEdge R a b) b a :=
      ReflTransGen.mono (fun _ _ => .inl) _ _ hpath
    exact hacyclic a (.head' (.inr ⟨rfl, rfl⟩) hback)
  · intro hpath x hcycle
    rcases transGen_addEdge hcycle with hold | ⟨hsource, htarget⟩
    · exact h x hold
    · exact hpath (htarget.trans hsource)

end Altior.Lib
