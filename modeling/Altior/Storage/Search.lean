import Altior.Lib.TopK
import Altior.Storage.Readers

/-!
# Ranking the hits of a search

`search_memories` scores the rows of its two queries, keeps the best few in a bounded
heap and sorts these (`altior-storage/src/memory.rs`).  Scores are floating-point
numbers there; of them the model has the comparison only, which may leave two scores
unordered.
-/

namespace Altior.Storage

open Domain Lib

/-- The comparison of scores, `f64::partial_cmp`. -/
class PartialCmp (S : Type) where
  partialCmp : S → S → Option Ordering

open PartialCmp

/-- What hits are ordered by. -/
structure CandidateOrderKey (S : Type) where
  totalScore : S
  updatedAt : UInt64
  memoryId : MemoryId

variable {S B : Type} [PartialCmp S]

/-- `Ord for CandidateOrderKey`. -/
def CandidateOrderKey.cmp (a b : CandidateOrderKey S) : Ordering :=
  ((partialCmp a.totalScore b.totalScore).getD .eq).then
    ((compare a.updatedAt b.updatedAt).then (compare a.memoryId b.memoryId))

/-- A hit with its rank in the text index and its key. -/
structure ScoredCandidate (S B : Type) where
  orderKey : CandidateOrderKey S
  record : MemoryRecord
  rawBm25 : B

/-- `Ord for ScoredCandidate`. -/
def ScoredCandidate.cmp (a b : ScoredCandidate S B) : Ordering := a.orderKey.cmp b.orderKey

/-! ## Selecting -/

/-- The selection: the rows go through the heap, and what `into_iter` gives of it,
in an order of its own, is sorted. -/
def topCandidates (intoIter : List (ScoredCandidate S B) → List (ScoredCandidate S B)) (limit : Nat)
    (rows : List (ScoredCandidate S B)) : List (ScoredCandidate S B) :=
  sortDown ScoredCandidate.cmp (intoIter (keep ScoredCandidate.cmp limit rows))

/-- `a` comes before `b` in the order of the answer: a higher score, or the same and
a later change, or the same and a greater id. -/
def Outranks (a b : ScoredCandidate S B) : Prop :=
  partialCmp b.orderKey.totalScore a.orderKey.totalScore = some .lt ∨
  partialCmp b.orderKey.totalScore a.orderKey.totalScore = some .eq ∧
    (b.orderKey.updatedAt < a.orderKey.updatedAt ∨
      b.orderKey.updatedAt = a.orderKey.updatedAt ∧
        b.orderKey.memoryId.asStr < a.orderKey.memoryId.asStr)

instance (a b : ScoredCandidate S B) : Decidable (Outranks a b) :=
  inferInstanceAs (Decidable (_ ∨ _ ∧ (_ ∨ _ ∧ _)))

/-- Any two of the scores compare, and as in an order; none is a NaN. -/
structure TotalScores (rows : List (ScoredCandidate S B)) : Prop where
  total : ∀ a ∈ rows, ∀ b ∈ rows,
    (partialCmp a.orderKey.totalScore b.orderKey.totalScore).isSome
  swap : ∀ a ∈ rows, ∀ b ∈ rows, partialCmp b.orderKey.totalScore a.orderKey.totalScore
    = (partialCmp a.orderKey.totalScore b.orderKey.totalScore).map Ordering.swap
  trans : ∀ a ∈ rows, ∀ b ∈ rows, ∀ c ∈ rows,
    partialCmp a.orderKey.totalScore b.orderKey.totalScore ≠ some .gt →
    partialCmp b.orderKey.totalScore c.orderKey.totalScore ≠ some .gt →
    partialCmp a.orderKey.totalScore c.orderKey.totalScore ≠ some .gt

/-! ## The order of the answer -/

theorem compare_eq_lt_iff {a b : String} : compare a b = .lt ↔ a < b := by
  change compareOfLessAndEq a b = .lt ↔ a < b
  exact compareOfLessAndEq_eq_lt

theorem compare_millis_eq_lt_iff {a b : UInt64} : compare a b = .lt ↔ a < b := by
  change compareOfLessAndEq a b = .lt ↔ a < b
  exact compareOfLessAndEq_eq_lt

variable {rows : List (ScoredCandidate S B)}

/-- Totally ordered scores compare as an order does, also where the comparison of
keys reads "unordered" as "equal". -/
theorem TotalScores.scores (h : TotalScores rows) :
    TotalOn (fun a b : ScoredCandidate S B =>
      (partialCmp a.orderKey.totalScore b.orderKey.totalScore).getD .eq) rows where
  swap a ha b hb := by
    obtain ⟨o, ho⟩ := Option.isSome_iff_exists.mp (h.total a ha b hb)
    rw [h.swap a ha b hb, ho, Option.map_some, Option.getD_some, Option.getD_some]
  trans a ha b hb c hc hab hbc := by
    have hgt := h.trans a ha b hb c hc
    obtain ⟨o, ho⟩ := Option.isSome_iff_exists.mp (h.total a ha b hb)
    obtain ⟨p, hp⟩ := Option.isSome_iff_exists.mp (h.total b hb c hc)
    obtain ⟨q, hq⟩ := Option.isSome_iff_exists.mp (h.total a ha c hc)
    simp only [ho, hp, hq, Option.getD_some, Ordering.isLE_iff_ne_gt, ne_eq,
      Option.some.injEq] at hab hbc hgt ⊢
    exact hgt hab hbc

/-- So do the candidates. -/
theorem TotalScores.totalOn (h : TotalScores rows) : TotalOn ScoredCandidate.cmp rows :=
  h.scores.lex
    ((TotalOn.of_key compare (fun c => c.orderKey.updatedAt) rows).lex
      (TotalOn.of_key compare (fun c => c.orderKey.memoryId) rows))

variable {a b : ScoredCandidate S B}

theorem Outranks.atLeast (h : Outranks a b) : atLeast ScoredCandidate.cmp a b = true := by
  unfold Lib.atLeast ScoredCandidate.cmp CandidateOrderKey.cmp
  rw [Ordering.isLE_then_iff_or, Ordering.isLE_then_iff_or]
  rcases h with hlt | ⟨heq, hlater | ⟨hsame, hid⟩⟩
  · exact .inl (by rw [hlt, Option.getD_some])
  · exact .inr ⟨by rw [heq, Option.getD_some], .inl (compare_millis_eq_lt_iff.mpr hlater)⟩
  · refine .inr ⟨by rw [heq, Option.getD_some], .inr ⟨?_, ?_⟩⟩
    · rw [hsame]
      exact Std.ReflCmp.compare_self
    · rw [Id.compare_def, compare_eq_lt_iff.mpr hid]
      rfl

/-- Of two candidates with different ids one outranks the other. -/
theorem TotalScores.outranks (h : TotalScores rows) (ha : a ∈ rows) (hb : b ∈ rows)
    (hid : a.orderKey.memoryId ≠ b.orderKey.memoryId)
    (hle : atLeast ScoredCandidate.cmp a b = true) : Outranks a b := by
  obtain ⟨o, ho⟩ := Option.isSome_iff_exists.mp (h.total b hb a ha)
  unfold Lib.atLeast ScoredCandidate.cmp CandidateOrderKey.cmp at hle
  rw [Ordering.isLE_then_iff_or, Ordering.isLE_then_iff_or, ho, Option.getD_some] at hle
  rcases hle with rfl | ⟨rfl, hlater | ⟨hsame, hle⟩⟩
  · exact .inl ho
  · exact .inr ⟨ho, .inl (compare_millis_eq_lt_iff.mp hlater)⟩
  · refine .inr ⟨ho, .inr ⟨Std.LawfulEqCmp.eq_of_compare hsame, ?_⟩⟩
    rcases Ordering.isLE_iff_eq_lt_or_eq_eq.mp hle with hlt | heq
    · rw [Id.compare_def] at hlt
      exact compare_eq_lt_iff.mp hlt
    · exact absurd (Std.LawfulEqCmp.eq_of_compare heq).symm hid

/-- Candidates that compare as equal have one id. -/
theorem memoryId_eq_of_cmp (h : a.cmp b = .eq) : a.orderKey.memoryId = b.orderKey.memoryId := by
  unfold ScoredCandidate.cmp CandidateOrderKey.cmp at h
  rw [Ordering.then_eq_eq, Ordering.then_eq_eq] at h
  exact Std.LawfulEqCmp.eq_of_compare h.2.2

/-- Totally ordered scores and distinct ids put the candidates in one order. -/
theorem TotalScores.exists_ranking (h : TotalScores rows)
    (hids : (rows.map fun c => c.orderKey.memoryId).Nodup) :
    ∃ full : List (ScoredCandidate S B), full.Perm rows ∧ full.Pairwise Outranks := by
  have hperm := @sortDown_perm _ ScoredCandidate.cmp rows
  refine ⟨sortDown ScoredCandidate.cmp rows, hperm, ?_⟩
  have hne : (sortDown ScoredCandidate.cmp rows).Pairwise
      fun a b => a.orderKey.memoryId ≠ b.orderKey.memoryId := by
    rw [← List.pairwise_map (f := fun c : ScoredCandidate S B => c.orderKey.memoryId)
      (R := fun x y => x ≠ y)]
    exact (hperm.map _).nodup_iff.mpr hids
  refine ((sortDown_pairwise h.totalOn).and hne).imp_of_mem ?_
  rintro a b ha hb ⟨hle, hid⟩
  exact h.outranks (hperm.subset ha) (hperm.subset hb) hid hle

/-- The heap selects what sorting everything and cutting would: whatever the order
the rows arrive in and the heap is emptied in, the answer is the first `limit` of the
candidates in the order of the answer. -/
theorem topCandidates_eq_take
    {intoIter : List (ScoredCandidate S B) → List (ScoredCandidate S B)}
    (hiter : ∀ heap, (intoIter heap).Perm heap) (limit : Nat) (htotal : TotalScores rows)
    (hids : (rows.map fun c => c.orderKey.memoryId).Nodup) :
    (∃ full : List (ScoredCandidate S B), full.Perm rows ∧ full.Pairwise Outranks) ∧
    ∀ full arrived : List (ScoredCandidate S B), full.Perm rows → full.Pairwise Outranks →
      arrived.Perm rows → topCandidates intoIter limit arrived = full.take limit := by
  refine ⟨htotal.exists_ranking hids, fun full arrived hperm hfull harrived => ?_⟩
  refine sortDown_keep limit (htotal.totalOn.mono fun x hx => harrived.subset hx) ?_
    (hperm.trans harrived.symm) (hfull.imp Outranks.atLeast) (hiter _)
  intro a ha b hb heq
  exact List.inj_on_of_nodup_map hids (harrived.subset ha) (harrived.subset hb)
    (memoryId_eq_of_cmp heq)

/-- Whole numbers as scores. -/
instance natScores : PartialCmp Nat := ⟨fun a b => some (compare a b)⟩

/-- A confirmed note changed at a time. -/
def sampleHit (id : MemoryId) (score : Nat) (updatedAt : UInt64) : ScoredCandidate Nat Unit where
  orderKey := ⟨score, updatedAt, id⟩
  record :=
    { memoryId := id, content := ⟨['t', 'e', 'a'], by decide, by decide, by decide⟩, scope := .global
      kind := .fact, state := .confirmed, confidence := 80, sensitivity := .normal
      source := .explicit, provenance := ⟨none, none, none⟩, createdAt := 1
      updatedAt := updatedAt, expiresAt := none, supersededBy := none }
  rawBm25 := ()

def sampleHits : List (ScoredCandidate Nat Unit) :=
  [sampleHit ⟨"mem_fixture000000011", by decide⟩ 3 9,
    sampleHit ⟨"mem_fixture000000012", by decide⟩ 3 5]

/-- Of two notes with one score the later comes first. -/
theorem topCandidates_two :
    topCandidates id 1 sampleHits.reverse = sampleHits.take 1 :=
  (topCandidates_eq_take (fun _ => .refl _) 1
    ⟨by decide, by decide, by decide⟩ (by decide)).2 sampleHits sampleHits.reverse (.refl _)
    (by decide) (List.reverse_perm _)

end Altior.Storage
