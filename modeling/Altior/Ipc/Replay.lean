import Altior.Application.Publish

/-!
# The window of the event log

The replay log of one Core launch (`altior-ipc/src/session.rs`): what it retains is
the end of what it was given, and the plan of a catch-up says exactly which part of
what a subscriber missed is still there.
-/

namespace Altior.Ipc

open Application Lib Domain

/-- `EventLog::new`: a log has room for one envelope at least. -/
def EventLog.tryNew (capacity : Nat) : Except IpcError EventLog :=
  if capacity = 0 then .error (.sessionOrder "create an event log with zero capacity")
  else .ok (.new capacity)

/-- A log with what it was given so far. -/
structure History where
  log : EventLog
  appended : List EventEnvelope

namespace History

/-- An append; one that fails changes nothing. -/
def append (h : History) (e : EventEnvelope) : History :=
  match h.log.append e with
  | .error _ => h
  | .ok (sealed, log) => ⟨log, h.appended ++ [sealed]⟩

/-- A log from its beginning on. -/
def machine (log : EventLog) : Machine History EventEnvelope := ⟨⟨log, []⟩, append⟩

/-- What a subscriber that has seen `since` last has missed. -/
def missed (h : History) (since : UInt64) : List EventEnvelope :=
  h.appended.filter fun e => since < e.sequence

/-- The log retains the last envelopes under their numbers, and the plan of a
catch-up is right about every position. -/
structure Exact (h : History) (capacity : Nat) : Prop where
  numbered : h.appended.map (fun e => e.sequence.toNat) = List.range' 1 h.appended.length
  retained : h.log.events <:+ h.appended
  within : h.log.events.length ≤ capacity
  consecutive : h.log.events.map (fun e => e.sequence.toNat) =
    List.range' (h.appended.length + 1 - h.log.events.length) h.log.events.length
  fromNow : h.log.replayAfter none = .upToDate
  replay : ∀ since events, h.log.replayAfter (some since) = .replay events ↔
    events = h.missed since ∧ h.missed since ≠ [] ∧ ∀ e ∈ h.missed since, e ∈ h.log.events
  gap : ∀ since first, h.log.replayAfter (some since) = .gap first ↔
    first = since + 1 ∧ ∃ e ∈ h.missed since, e ∉ h.log.events
  upToDate : ∀ since, h.log.replayAfter (some since) = .upToDate ↔ h.missed since = []

/-- The log is the window of a capacity over its history. -/
structure Windowed (h : History) (capacity : Nat) : Prop where
  chronicled : Chronicled h.log h.appended
  bound : h.log.capacity = capacity
  events : h.log.events = h.appended.drop (h.appended.length - capacity)

variable {h : History} {capacity : Nat} {since : UInt64} {e : EventEnvelope}

theorem windowed_new (capacity : Nat) : Windowed ⟨.new capacity, []⟩ capacity :=
  ⟨chronicled_new capacity, rfl, List.drop_nil.symm⟩

theorem Windowed.append (hw : h.Windowed capacity) (hpos : 0 < capacity) (e : EventEnvelope) :
    (h.append e).Windowed capacity := by
  unfold History.append
  split
  · exact hw
  · rename_i sealed log happend
    refine ⟨hw.chronicled.append happend, ?_, ?_⟩
    · unfold EventLog.append at happend
      split at happend
      · cases happend
      · cases happend
        exact hw.bound
    · obtain ⟨-, -, -, hevents⟩ := EventLog.append_cases happend
      rw [hevents, hw.bound, hw.events, List.length_drop, List.length_append,
        List.length_singleton]
      rcases Nat.lt_or_ge h.appended.length capacity with hlt | hge
      · -- there is room, and nothing was dropped so far
        rw [if_neg (by omega), Nat.sub_eq_zero_of_le (Nat.le_of_lt hlt),
          Nat.sub_eq_zero_of_le hlt]
        rfl
      · rw [if_pos (by omega), List.drop_drop, List.drop_append_of_le_length (by omega)]
        congr 2
        omega

theorem Windowed.run (hpos : 0 < capacity) (events : List EventEnvelope) :
    ((machine (.new capacity)).run events).Windowed capacity :=
  (machine (.new capacity)).invariant (I := fun h => h.Windowed capacity)
    (fun _ e hw => Windowed.append hw hpos e) (windowed_new capacity) events

namespace Windowed

theorem numbered (hw : h.Windowed capacity) :
    h.appended.map (fun e => e.sequence.toNat) = List.range' 1 h.appended.length := by
  refine List.ext_getElem (by simp) fun i hi hi' => ?_
  rw [List.length_map] at hi
  rw [List.getElem_map, List.getElem_range', hw.chronicled.sequence i _
    (List.getElem?_eq_getElem hi)]
  omega

/-- The numbers of the retained envelopes are the last ones. -/
theorem mem_events (hw : h.Windowed capacity) (he : e ∈ h.appended) :
    e ∈ h.log.events ↔ h.appended.length - capacity < e.sequence.toNat := by
  obtain ⟨i, hi, rfl⟩ := List.getElem_of_mem he
  rw [hw.chronicled.sequence i _ (List.getElem?_eq_getElem hi), hw.events]
  constructor
  · intro hmem
    obtain ⟨j, hj, heq⟩ := List.getElem_of_mem hmem
    rw [List.getElem_drop] at heq
    have hseq := hw.chronicled.sequence (h.appended.length - capacity + j) h.appended[i]
      (List.getElem?_eq_some_iff.2 ⟨_, heq⟩)
    rw [hw.chronicled.sequence i _ (List.getElem?_eq_getElem hi)] at hseq
    omega
  · intro hle
    have hj : i - (h.appended.length - capacity) < (h.appended.drop
        (h.appended.length - capacity)).length := by
      rw [List.length_drop]
      omega
    refine List.mem_of_getElem (i := i - (h.appended.length - capacity)) (h := hj) ?_
    rw [List.getElem_drop]
    congr 1
    omega

/-- Something was missed iff the position is before the last number. -/
theorem missed_ne_nil (hw : h.Windowed capacity) :
    h.missed since ≠ [] ↔ since.toNat < h.appended.length := by
  constructor
  · intro hne
    obtain ⟨e, he⟩ := List.exists_mem_of_ne_nil _ hne
    obtain ⟨hmem, hlt⟩ := List.mem_filter.1 he
    have hle := hw.chronicled.sequence_le hmem
    have hlt' := UInt64.lt_iff_toNat_lt.1 (of_decide_eq_true hlt)
    omega
  · intro hlt
    refine List.ne_nil_of_mem (List.mem_filter.2 ⟨List.getElem_mem hlt, decide_eq_true ?_⟩)
    rw [UInt64.lt_iff_toNat_lt, hw.chronicled.sequence _ _ (List.getElem?_eq_getElem hlt)]
    omega

/-- Nothing of what was missed was evicted iff the position is not before the
window. -/
theorem forall_missed_mem (hw : h.Windowed capacity) (hlt : since.toNat < h.appended.length) :
    (∀ e ∈ h.missed since, e ∈ h.log.events) ↔ h.appended.length - capacity ≤ since.toNat := by
  constructor
  · intro hall
    have hseq := hw.chronicled.sequence _ _ (List.getElem?_eq_getElem hlt)
    have hmissed : h.appended[since.toNat] ∈ h.missed since := by
      refine List.mem_filter.2 ⟨List.getElem_mem hlt, decide_eq_true ?_⟩
      rw [UInt64.lt_iff_toNat_lt, hseq]
      omega
    have hmem := (hw.mem_events (List.getElem_mem hlt)).1 (hall _ hmissed)
    omega
  · intro hle e he
    obtain ⟨hmem, hafter⟩ := List.mem_filter.1 he
    have hafter' := UInt64.lt_iff_toNat_lt.1 (of_decide_eq_true hafter)
    exact (hw.mem_events hmem).2 (by omega)

/-- The retained window, if anything was appended. -/
theorem retained_eq (hw : h.Windowed capacity) (hpos : 0 < capacity) (hne : h.appended ≠ []) :
    ∃ first last : UInt64, h.log.retained = some (first, last) ∧
      first.toNat = h.appended.length - capacity + 1 ∧ last.toNat = h.appended.length := by
  have hlength := List.length_pos_iff.2 hne
  have hfirst : h.appended.length - capacity < h.appended.length := by omega
  have hlast : h.appended.length - 1 < h.appended.length := by omega
  refine ⟨h.appended[h.appended.length - capacity].sequence,
    h.appended[h.appended.length - 1].sequence, ?_, ?_, ?_⟩
  · have hhead : h.log.events.head? = some h.appended[h.appended.length - capacity] := by
      rw [hw.events, List.head?_drop, List.getElem?_eq_getElem hfirst]
    have htail : h.log.events.getLast? = some h.appended[h.appended.length - 1] := by
      rw [hw.events, List.getLast?_drop, if_neg (by omega), List.getLast?_eq_getElem?,
        List.getElem?_eq_getElem hlast]
    unfold EventLog.retained
    rw [hhead, htail]
  · exact hw.chronicled.sequence _ _ (List.getElem?_eq_getElem hfirst)
  · rw [hw.chronicled.sequence _ _ (List.getElem?_eq_getElem hlast)]
    omega

/-- How the plan of a catch-up follows from the position and the window. -/
theorem replayAfter_eq (hw : h.Windowed capacity) (hpos : 0 < capacity) (since : UInt64) :
    h.log.replayAfter (some since) =
      if h.appended.length ≤ since.toNat then .upToDate
      else if since.toNat < h.appended.length - capacity then .gap (since + 1)
      else .replay (h.log.events.filter fun e => since < e.sequence) := by
  by_cases hne : h.appended = []
  · have hretained : h.log.retained = none := by
      unfold EventLog.retained
      rw [hw.events, hne, List.drop_nil]
      rfl
    unfold EventLog.replayAfter
    rw [hretained, if_pos (by simp [hne])]
  · obtain ⟨first, last, hretained, hfirst, hlast⟩ := hw.retained_eq hpos hne
    unfold EventLog.replayAfter
    rw [hretained]
    simp only [UInt64.le_iff_toNat_le, hlast]
    split
    · rfl
    · rename_i hlt
      have hnext : (since + 1).toNat = since.toNat + 1 := by
        have hsize : since.toNat + 1 < UInt64.size := by
          have := last.toNat_lt_size
          omega
        rw [UInt64.toNat_add]
        exact Nat.mod_eq_of_lt hsize
      simp only [UInt64.lt_iff_toNat_lt, hnext, hfirst, Nat.add_lt_add_iff_right]

/-- What is retained of what was missed, when nothing of it was evicted. -/
theorem filter_events (hw : h.Windowed capacity)
    (hle : h.appended.length - capacity ≤ since.toNat) :
    (h.log.events.filter fun e => since < e.sequence) = h.missed since := by
  have hfront : (h.appended.take (h.appended.length - capacity)).filter
      (fun e => since < e.sequence) = [] := by
    refine List.filter_eq_nil_iff.2 fun e he => ?_
    obtain ⟨i, hi, rfl⟩ := List.getElem_of_mem he
    rw [List.length_take] at hi
    rw [List.getElem_take, decide_eq_true_eq, UInt64.lt_iff_toNat_lt,
      hw.chronicled.sequence i _ (List.getElem?_eq_getElem (by omega))]
    omega
  rw [missed, ← List.take_append_drop (h.appended.length - capacity) h.appended,
    List.filter_append, hfront, List.nil_append, hw.events]

theorem exact (hw : h.Windowed capacity) (hpos : 0 < capacity) : h.Exact capacity := by
  have hlength : h.log.events.length = min capacity h.appended.length := by
    rw [hw.events, List.length_drop]
    omega
  refine ⟨hw.numbered, hw.chronicled.retained, by omega, ?_, rfl, fun since events => ?_,
    fun since first => ?_, fun since => ?_⟩
  · refine List.ext_getElem (by simp) fun i hi hi' => ?_
    rw [List.length_map, hlength] at hi
    have hindex : h.appended.length - capacity + i < h.appended.length := by omega
    have hget : h.log.events[i]? = some h.appended[h.appended.length - capacity + i] := by
      rw [hw.events, List.getElem?_drop, List.getElem?_eq_getElem hindex]
    obtain ⟨_, heq⟩ := List.getElem?_eq_some_iff.1 hget
    rw [List.getElem_map, List.getElem_range', heq,
      hw.chronicled.sequence _ _ (List.getElem?_eq_getElem hindex), hlength]
    omega
  · rw [hw.replayAfter_eq hpos since, hw.missed_ne_nil]
    split
    · rename_i hge
      exact ⟨nofun, fun ⟨_, hlt, _⟩ => absurd hlt (Nat.not_lt.2 hge)⟩
    · rename_i hlt
      rw [hw.forall_missed_mem (Nat.not_le.1 hlt)]
      split
      · rename_i hevicted
        exact ⟨nofun, fun ⟨_, _, hle⟩ => absurd hle (Nat.not_le.2 hevicted)⟩
      · rename_i hle
        rw [hw.filter_events (Nat.not_lt.1 hle), ReplayPlan.replay.injEq]
        exact ⟨fun heq => ⟨heq.symm, Nat.not_le.1 hlt, Nat.not_lt.1 hle⟩, fun heq => heq.1.symm⟩
  · have hevicted : (∃ e ∈ h.missed since, e ∉ h.log.events) ↔
        since.toNat < h.appended.length ∧ since.toNat < h.appended.length - capacity := by
      by_cases hlt : since.toNat < h.appended.length
      · have hforall := not_congr (hw.forall_missed_mem hlt)
        push Not at hforall
        rw [hforall]
        exact (and_iff_right hlt).symm
      · have hnil : h.missed since = [] :=
          Decidable.not_not.1 (mt hw.missed_ne_nil.1 hlt)
        simp [hnil, hlt]
    rw [hw.replayAfter_eq hpos since, hevicted]
    split
    · exact ⟨nofun, fun ⟨_, hlt, _⟩ => by omega⟩
    · split
      · rw [ReplayPlan.gap.injEq]
        exact ⟨fun heq => ⟨heq.symm, by omega, by omega⟩, fun heq => heq.1.symm⟩
      · exact ⟨nofun, fun ⟨_, _, hlt⟩ => by omega⟩
  · rw [hw.replayAfter_eq hpos since, ← not_iff_not, ← ne_eq (h.missed since), hw.missed_ne_nil]
    split
    · simpa using ‹h.appended.length ≤ since.toNat›
    · split
      · simpa using by omega
      · simpa using by omega

end Windowed

/-- **Replay plans are exact.** Whatever a log of some capacity is given, it retains
the last envelopes under consecutive numbers, and the plan of every catch-up replays
what was missed, reports the gap or says that nothing was missed, each exactly when
that is so. -/
theorem replay_exact (capacity : Nat) (log : EventLog) (hnew : EventLog.tryNew capacity = .ok log)
    (events : List EventEnvelope) : ((machine log).run events).Exact capacity := by
  unfold EventLog.tryNew at hnew
  split at hnew
  · cases hnew
  · rename_i hpos
    cases hnew
    exact (Windowed.run (Nat.pos_of_ne_zero hpos) events).exact (Nat.pos_of_ne_zero hpos)

/-- The start of a turn, as it is given to the log. -/
def turnStarted (n : UInt64) : EventEnvelope :=
  ⟨eventIdOf 0 n, none, none, none, 1, 0, .known .turnStarted⟩

theorem replay_exact_sample :
    ((machine (.new 2)).run [turnStarted 1, turnStarted 2, turnStarted 3]).Exact 2 :=
  replay_exact 2 _ rfl _

end History

end Altior.Ipc
