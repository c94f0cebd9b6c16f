import Altior.Lib.Simulation
import Mathlib.Order.Lattice.Nat

/-!
# Which events were seen

The frontend knows an event it has taken by its identifier, of which it keeps the last
few thousand, and by its sequence within the launch of Core, of which it keeps those in
a window below the highest (`apps/desktop/src/stores/streamDeduplicator.ts`).
-/

namespace Altior.Desktop

open Lib (Machine)

/-- The last identifiers that were added.  The set and the queue of the source hold the
same ones. -/
structure BoundedIdSet where
  capacity : Nat
  fifo : List String
deriving DecidableEq, Repr

namespace BoundedIdSet

def new (capacity : Nat) : BoundedIdSet := ⟨capacity, []⟩

def has (s : BoundedIdSet) (id : String) : Prop := id ∈ s.fifo

instance (s : BoundedIdSet) (id : String) : Decidable (s.has id) :=
  inferInstanceAs (Decidable (id ∈ s.fifo))

def add (s : BoundedIdSet) (id : String) : BoundedIdSet :=
  if s.has id then s
  else { s with fifo := (if s.capacity ≤ s.fifo.length then s.fifo.drop 1 else s.fifo) ++ [id] }

/-- Nothing is in the set but what was added. -/
theorem has_of_has_add {s : BoundedIdSet} {id a : String} (h : (s.add id).has a) :
    s.has a ∨ a = id := by
  unfold add at h
  split at h
  · exact .inl h
  · rcases List.mem_append.1 h with h | h
    · left
      split at h
      · exact List.mem_of_mem_drop h
      · exact h
    · exact .inr (List.mem_singleton.1 h)

end BoundedIdSet

/-- A text that is there and not empty. -/
def isSet (text : Option String) : Bool := text.any (· ≠ "")

/-- The sequences that were seen of one launch. -/
structure EpochSequenceTracker where
  currentEpoch : Option String
  highWater : Nat
  windowSize : Nat
  windowSeqs : Finset Nat
deriving DecidableEq

namespace EpochSequenceTracker

def new (windowSize : Nat) : EpochSequenceTracker := ⟨none, 0, windowSize, ∅⟩

/-- The sequences up to here are out of the window. -/
def cutoff (t : EpochSequenceTracker) : Nat := t.highWater - t.windowSize

def transitionEpoch (t : EpochSequenceTracker) (newEpoch : String) : EpochSequenceTracker :=
  { t with currentEpoch := some newEpoch, highWater := 0, windowSeqs := ∅ }

def clear (t : EpochSequenceTracker) : EpochSequenceTracker :=
  { t with highWater := 0, windowSeqs := ∅ }

def isDuplicate (t : EpochSequenceTracker) (seq : Nat) (eventEpoch : Option String) : Bool :=
  if isSet eventEpoch && isSet t.currentEpoch && eventEpoch ≠ t.currentEpoch then false
  else if t.windowSize < t.highWater ∧ seq ≤ t.cutoff then true
  else seq ∈ t.windowSeqs

/-- Takes a sequence of the launch, and moves the window when it is the highest. -/
def recordCurrent (t : EpochSequenceTracker) (seq : Nat) : EpochSequenceTracker :=
  if 0 < t.cutoff ∧ seq ≤ t.cutoff then t
  else
    let windowSeqs := insert seq t.windowSeqs
    if t.highWater < seq then
      let newCutoff := seq - t.windowSize
      if 0 < newCutoff then
        if seq - t.highWater < t.windowSize then
          -- only what has just left the window goes
          let start := max 1 (t.cutoff + 1)
          { t with
            highWater := seq
            windowSeqs := windowSeqs.filter fun s => ¬ (start ≤ s ∧ s ≤ newCutoff) }
        else { t with highWater := seq, windowSeqs := {seq} }
      else { t with highWater := seq, windowSeqs := windowSeqs }
    else { t with windowSeqs := windowSeqs }

def record (t : EpochSequenceTracker) (seq : Nat) (eventEpoch : Option String) :
    EpochSequenceTracker :=
  match eventEpoch with
  | some epoch =>
    if isSet eventEpoch && (!isSet t.currentEpoch || eventEpoch ≠ t.currentEpoch) then
      (t.transitionEpoch epoch).recordCurrent seq
    else t.recordCurrent seq
  | none => t.recordCurrent seq

/-! ## What is recorded -/

section Record

variable {t : EpochSequenceTracker} {seq : Nat}

/-- What recording a sequence does. -/
theorem recordCurrent_cases (t : EpochSequenceTracker) (seq : Nat) :
    (t.recordCurrent seq = t ∧ 0 < t.cutoff ∧ seq ≤ t.cutoff) ∨
      ∃ window, t.recordCurrent seq =
          { t with highWater := max t.highWater seq, windowSeqs := window } ∧
        (∀ s ∈ window, s = seq ∨ s ∈ t.windowSeqs) ∧
        (0 < t.windowSize → seq ∈ window) := by
  have hinsert : ∀ s ∈ insert seq t.windowSeqs, s = seq ∨ s ∈ t.windowSeqs :=
    fun s hs => Finset.mem_insert.1 hs
  have hcut : t.cutoff ≤ t.highWater := Nat.sub_le _ _
  unfold recordCurrent
  dsimp only
  split
  · rename_i hold
    exact .inl ⟨rfl, hold⟩
  · right
    split
    · rename_i hlt
      have hmax : max t.highWater seq = seq := Nat.max_eq_right (Nat.le_of_lt hlt)
      rw [hmax]
      split
      · split
        · refine ⟨_, rfl, fun s hs => hinsert s (Finset.mem_filter.1 hs).1, fun hsize => ?_⟩
          rw [Finset.mem_filter]
          refine ⟨Finset.mem_insert_self _ _, ?_⟩
          omega
        · exact ⟨_, rfl, fun s hs => .inl (Finset.mem_singleton.1 hs),
            fun _ => Finset.mem_singleton_self _⟩
      · exact ⟨_, rfl, hinsert, fun _ => Finset.mem_insert_self _ _⟩
    · rename_i hle
      have hmax : max t.highWater seq = t.highWater := Nat.max_eq_left (Nat.le_of_not_lt hle)
      rw [hmax]
      exact ⟨_, rfl, hinsert, fun _ => Finset.mem_insert_self _ _⟩

@[simp] theorem windowSize_recordCurrent : (t.recordCurrent seq).windowSize = t.windowSize := by
  rcases t.recordCurrent_cases seq with ⟨heq, -⟩ | ⟨_, heq, -⟩ <;> rw [heq]

/-- The highest sequence. -/
theorem highWater_recordCurrent : (t.recordCurrent seq).highWater = max t.highWater seq := by
  rcases t.recordCurrent_cases seq with ⟨heq, -, hle⟩ | ⟨_, heq, -⟩
  · rw [heq, Nat.max_eq_left (hle.trans (Nat.sub_le _ _))]
  · rw [heq]

/-- Nothing is in the window but what was recorded. -/
theorem mem_of_mem_recordCurrent {s : Nat} (h : s ∈ (t.recordCurrent seq).windowSeqs) :
    s = seq ∨ s ∈ t.windowSeqs := by
  rcases t.recordCurrent_cases seq with ⟨heq, -⟩ | ⟨_, heq, hwindow, -⟩
  · exact .inr (heq ▸ h)
  · rw [heq] at h
    exact hwindow s h

/-- A sequence that is not taken for a duplicate is in the window then. -/
theorem mem_recordCurrent (epoch : Option String) (hsize : 0 < t.windowSize)
    (hepoch : isSet epoch = false) (hnew : t.isDuplicate seq epoch = false) :
    seq ∈ (t.recordCurrent seq).windowSeqs := by
  rcases t.recordCurrent_cases seq with ⟨-, hpos, hle⟩ | ⟨_, heq, -, hself⟩
  · rw [isDuplicate, hepoch, Bool.false_and, Bool.false_and, if_neg Bool.false_ne_true,
      if_pos ⟨Nat.lt_of_sub_pos hpos, hle⟩] at hnew
    cases hnew
  · rw [heq]
    exact hself hsize

/-- Within one launch, no sequence above all others is taken for a duplicate. -/
theorem not_isDuplicate_of_lt {epoch : Option String}
    (hwindow : ∀ s ∈ t.windowSeqs, s ≤ t.highWater) (hlt : t.highWater < seq) :
    t.isDuplicate seq epoch = false := by
  have hcut : t.cutoff ≤ t.highWater := Nat.sub_le _ _
  unfold isDuplicate
  split
  · rfl
  · rw [if_neg (by omega)]
    simp only [decide_eq_false_iff_not]
    exact fun hmem => absurd (hwindow seq hmem) (by omega)

end Record

/-! ## The tracker stands for a set -/

/-- A call of the tracker. -/
inductive Tracking
  | record (seq : Nat) (eventEpoch : Option String)
  | transitionEpoch (newEpoch : String)
  | clear

/-- Sequences are counted from one. -/
def Tracking.Positive : Tracking → Prop
  | .record seq _ => 0 < seq
  | _ => True

/-- The tracker under any sequence of calls. -/
def tracking (windowSize : Nat) : Machine EpochSequenceTracker Tracking where
  init := new windowSize
  step t
    | .record seq eventEpoch => t.record seq eventEpoch
    | .transitionEpoch newEpoch => t.transitionEpoch newEpoch
    | .clear => t.clear

/-- What was recorded since the last change of epoch or clear. -/
structure Recorded where
  epoch : Option String
  seqs : Finset Nat

/-- The plain set the tracker stands for. -/
def recording : Machine Recorded Tracking where
  init := ⟨none, ∅⟩
  step r
    | .record seq eventEpoch =>
      if isSet eventEpoch && eventEpoch ≠ r.epoch then ⟨eventEpoch, {seq}⟩
      else { r with seqs := insert seq r.seqs }
    | .transitionEpoch newEpoch => ⟨some newEpoch, ∅⟩
    | .clear => { r with seqs := ∅ }

/-- The window holds what was recorded above the cutoff. -/
structure StandsFor (W : Nat) (t : EpochSequenceTracker) (r : Recorded) : Prop where
  windowSize : t.windowSize = W
  epoch : t.currentEpoch = r.epoch
  pos : ∀ s ∈ r.seqs, 0 < s
  highWater : t.highWater = r.seqs.sup id
  window : ∀ s, s ∈ t.windowSeqs ↔ s ∈ r.seqs ∧ t.highWater < s + W

section StandsFor

variable {W : Nat} {t : EpochSequenceTracker} {r : Recorded} {seq : Nat}

theorem StandsFor.le_highWater (h : StandsFor W t r) {s : Nat} (hs : s ∈ r.seqs) :
    s ≤ t.highWater := h.highWater ▸ Finset.le_sup (f := id) hs

/-- Recording within the epoch: what leaves the window is what the cutoff passes. -/
theorem StandsFor.recordCurrent (h : StandsFor W t r) (hW : 0 < W) (hseq : 0 < seq) :
    StandsFor W (t.recordCurrent seq) { r with seqs := insert seq r.seqs } where
  windowSize := windowSize_recordCurrent.trans h.windowSize
  epoch := by
    rcases t.recordCurrent_cases seq with ⟨heq, -⟩ | ⟨_, heq, -⟩ <;> rw [heq] <;> exact h.epoch
  pos := Finset.forall_mem_insert _ _ _ |>.2 ⟨hseq, h.pos⟩
  highWater := by
    rw [highWater_recordCurrent, h.highWater, Finset.sup_insert]
    exact max_comm _ _
  window s := by
    have hmem := h.window s
    have hle (hs : s ∈ r.seqs) : s ≤ t.highWater := h.le_highWater hs
    have hpos (hs : s ∈ r.seqs) : 0 < s := h.pos s hs
    have hsize := h.windowSize
    rw [highWater_recordCurrent, Finset.mem_insert]
    unfold EpochSequenceTracker.recordCurrent cutoff
    dsimp only
    split
    · -- what is out of the window is recorded nowhere
      rw [Nat.max_eq_left (by omega), hmem]
      refine ⟨fun hs => ⟨.inr hs.1, hs.2⟩, ?_⟩
      rintro ⟨rfl | hs, hlt⟩
      · omega
      · exact ⟨hs, hlt⟩
    · split
      · rw [Nat.max_eq_right (by omega)]
        split
        · split
          -- only what the cutoff has passed is taken out, or everything is
          · grind
          · grind
        · grind
      · grind

theorem StandsFor.emptied (h : StandsFor W t r) (epoch : Option String) :
    StandsFor W { t with currentEpoch := epoch, highWater := 0, windowSeqs := ∅ } ⟨epoch, ∅⟩ where
  windowSize := h.windowSize
  epoch := rfl
  pos s hs := absurd hs (Finset.notMem_empty s)
  highWater := rfl
  window s := by simp

/-- One call. -/
theorem StandsFor.step (h : StandsFor W t r) (hW : 0 < W) {call : Tracking}
    (hcall : call.Positive) :
    StandsFor W ((tracking W).step t call) (recording.step r call) := by
  cases call with
  | record s eventEpoch =>
    simp only [tracking, recording, EpochSequenceTracker.record]
    cases eventEpoch with
    | none => exact h.recordCurrent hW hcall
    | some epoch =>
      have hnew : (isSet (some epoch) && (!isSet t.currentEpoch || some epoch ≠ t.currentEpoch)) =
          (isSet (some epoch) && some epoch ≠ r.epoch) := by
        rw [h.epoch]
        cases hset : isSet (some epoch) with
        | false => rfl
        | true =>
          by_cases heq : some epoch = r.epoch
          · rw [← heq, hset]
            rfl
          · simp [heq]
      dsimp only
      rw [hnew]
      by_cases hc : (isSet (some epoch) && some epoch ≠ r.epoch) = true
      · rw [if_pos hc, if_pos hc]
        exact (h.emptied (some epoch)).recordCurrent hW hcall
      · rw [if_neg hc, if_neg hc]
        exact h.recordCurrent hW hcall
  | transitionEpoch newEpoch => exact h.emptied (some newEpoch)
  | clear =>
    have hcleared : recording.step r .clear = ⟨t.currentEpoch, ∅⟩ := by
      rw [h.epoch]
      rfl
    rw [hcleared]
    exact h.emptied t.currentEpoch

end StandsFor

/-- After any calls the tracker answers for what was recorded since the last change of
epoch or clear, or has passed out of the window, and keeps no more than the window. -/
theorem isDuplicate_iff_recorded {W : Nat} (hW : 0 < W) {calls : List Tracking}
    (hcalls : ∀ call ∈ calls, call.Positive) :
    let t := (tracking W).run calls
    let r := recording.run calls
    t.currentEpoch = r.epoch ∧ t.highWater = r.seqs.sup id ∧
    (∀ seq eventEpoch, 0 < seq → (isSet eventEpoch = true → eventEpoch = t.currentEpoch) →
      (t.isDuplicate seq eventEpoch = true ↔ seq ∈ r.seqs ∨ seq + W ≤ t.highWater)) ∧
    (∀ seq ∈ t.windowSeqs, t.highWater < seq + W ∧ seq ≤ t.highWater) ∧
    t.windowSeqs.card ≤ W := by
  intro t r
  have h : StandsFor W t r := Machine.runFrom_simulates
    (fun _ _ _ hcall h => h.step hW hcall) hcalls
    ⟨rfl, rfl, nofun, rfl, fun s => by simp [tracking, new, recording]⟩
  have hwindow : ∀ seq ∈ t.windowSeqs, t.highWater < seq + W ∧ seq ≤ t.highWater := by
    intro seq hseq
    obtain ⟨hmem, hlt⟩ := (h.window seq).1 hseq
    exact ⟨hlt, h.le_highWater hmem⟩
  refine ⟨h.epoch, h.highWater, ?_, hwindow, ?_⟩
  · intro seq eventEpoch hpos hepoch
    have hsame : ¬ (isSet eventEpoch && isSet t.currentEpoch && eventEpoch ≠ t.currentEpoch) = true := by
      simp only [Bool.and_eq_true, decide_eq_true_eq, not_and, not_not]
      exact fun hset => hepoch hset.1
    have hsize := h.windowSize
    have hmem := h.window seq
    rw [isDuplicate, if_neg hsame, cutoff]
    split
    · simp only [true_iff]
      omega
    · rw [decide_eq_true_iff, hmem]
      refine ⟨fun hseq => .inl hseq.1, ?_⟩
      rintro (hseq | hle)
      · refine ⟨hseq, ?_⟩
        have := h.le_highWater hseq
        omega
      · omega
  · have hsub : t.windowSeqs ⊆ Finset.Ioc (t.highWater - W) t.highWater := by
      intro seq hseq
      have := hwindow seq hseq
      rw [Finset.mem_Ioc]
      have := h.pos seq ((h.window seq).1 hseq).1
      omega
    refine (Finset.card_le_card hsub).trans ?_
    rw [Nat.card_Ioc]
    omega

/-- Three sequences of one epoch that are not in order, and a jump. -/
theorem isDuplicate_iff_recorded_jump :
    ((tracking 4).run [.record 3 (some "core"), .record 1 none, .record 9 none]).isDuplicate 3
      none = true :=
  ((isDuplicate_iff_recorded (W := 4) (by decide) (by simp [Tracking.Positive])).2.2.1 3 none
    (by decide) nofun).2 (by decide)

end EpochSequenceTracker

end Altior.Desktop
