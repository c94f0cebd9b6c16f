import Altior.Application.Client
import Altior.Runtime.Ledger

/-!
# The registry of operations over its whole life

An operation is admitted, with its command or bare, and retired when it is done
(`altior-core/src/operations.rs`).  The registry forgets the operations retired
first, and what it forgot may be admitted again.  When only admitted operations are
retired, the finished queue is the end of the list of all that was retired, and the
rest of the bookkeeping follows from that.
-/

namespace Altior.Runtime

open Application (CommandEnvelope)
open Domain Lib

namespace OperationRegistry

/-- `OperationRegistry::new`. -/
def tryNew (capacity : Nat) : Except AdmissionError OperationRegistry :=
  if capacity = 0 then .error .full else .ok (new capacity)

/-- `OperationRegistry::admit`: admits the operation of a command. -/
def admitCommand (r : OperationRegistry) (command : CommandEnvelope) :
    Except AdmissionError Admission × OperationRegistry :=
  r.admitOperation command.operationId

end OperationRegistry

/-- A call on the registry. -/
inductive RegistryCall
  | admitCommand (command : CommandEnvelope)
  | admitOperation (operationId : OperationId)
  | retire (operation : OperationId)

/-- A registry with the operations that were executed and those that were retired,
oldest first and as often as they were. -/
structure Register where
  registry : OperationRegistry
  executed : List OperationId
  retired : List OperationId

namespace Register

/-- The operation was answered. -/
def answered (s : Register) (operationId : OperationId)
    (answer : Except AdmissionError Admission × OperationRegistry) : Register where
  registry := answer.2
  executed := match answer.1 with
    | .ok .execute => s.executed ++ [operationId]
    | .ok .duplicate | .error _ => s.executed
  retired := s.retired

/-- One call. -/
def call (s : Register) : RegistryCall → Register
  | .admitCommand command => s.answered command.operationId (OperationRegistry.admitCommand s.registry command)
  | .admitOperation operationId =>
    s.answered operationId (s.registry.admitOperation operationId)
  | .retire operation =>
    { s with registry := s.registry.retire operation, retired := s.retired ++ [operation] }

/-- A registry over its whole life. -/
def machine (registry : OperationRegistry) : Machine Register RegistryCall :=
  ⟨⟨registry, [], []⟩, call⟩

/-- Only what is admitted is retired. -/
def Retires (s : Register) : RegistryCall → Prop
  | .retire operation => operation ∈ s.registry.admitted
  | .admitCommand _ | .admitOperation _ => True

instance (s : Register) : (c : RegistryCall) → Decidable (s.Retires c)
  | .retire operation => inferInstanceAs (Decidable (operation ∈ s.registry.admitted))
  | .admitCommand _ | .admitOperation _ => isTrue trivial

/-- The operation is neither admitted nor among the last that were retired, and there
is room for it. -/
def Open (s : Register) (capacity : Nat) (operation : OperationId) : Prop :=
  operation ∉ s.registry.admitted ∧ operation ∉ s.retired.rtake capacity ∧
    s.registry.admitted.size < capacity

/-- The books of a registry are in order. -/
structure Booked (s : Register) (capacity : Nat) : Prop where
  admitCommand : ∀ command, (OperationRegistry.admitCommand s.registry command).1 = .ok .execute ↔
    s.Open capacity command.operationId
  admitOperation : ∀ operation, (s.registry.admitOperation operation).1 = .ok .execute ↔
    s.Open capacity operation
  admitted : ∀ operation, s.executed.count operation =
    s.retired.count operation + if operation ∈ s.registry.admitted then 1 else 0
  room : s.registry.admitted.size ≤ capacity
  remembered : s.registry.finished.length ≤ capacity
  once : s.registry.finished.Nodup
  apart : ∀ operation ∈ s.registry.finished, operation ∉ s.registry.admitted

/-! ## The invariant -/

/-- The last `n` of a list that grows by one. -/
theorem rtake_concat {α : Type} (xs : List α) (a : α) {n : Nat} (hpos : 0 < n) :
    (xs ++ [a]).rtake n =
      (if (xs.rtake n).length = n then (xs.rtake n).drop 1 else xs.rtake n) ++ [a] := by
  simp only [List.rtake, List.length_drop, List.length_append, List.length_singleton]
  split
  · rw [List.drop_drop, List.drop_append_of_le_length (by omega)]
    congr 2
    omega
  · rw [show xs.length - n = 0 by omega, show xs.length + 1 - n = 0 by omega, List.drop_zero,
      List.drop_zero]

variable {s : Register} {capacity : Nat} {operation : OperationId}

/-- What every call keeps: the finished queue is the end of all that was retired. -/
structure Kept (s : Register) (capacity : Nat) : Prop where
  bound : s.registry.capacity = capacity
  finished : s.registry.finished = s.retired.rtake capacity
  admitted : ∀ operation, s.executed.count operation =
    s.retired.count operation + if operation ∈ s.registry.admitted then 1 else 0
  room : s.registry.admitted.size ≤ capacity
  once : s.registry.finished.Nodup
  apart : ∀ operation ∈ s.registry.finished, operation ∉ s.registry.admitted

theorem Kept.answered (h : s.Kept capacity) (operation : OperationId) :
    (s.answered operation (s.registry.admitOperation operation)).Kept capacity := by
  rcases OperationRegistry.admitOperation_cases s.registry operation with
    ⟨hcase, -⟩ | ⟨hcase, -⟩ | ⟨hcase, hnew⟩
  · rw [hcase]
    exact h
  · rw [hcase]
    exact h
  · obtain ⟨hnone, hold⟩ := not_or.1 (mt OperationRegistry.knows_iff.2 (Bool.eq_false_iff.1 hnew))
    have hroom : s.registry.admitted.size ≠ capacity := by
      have hexecute : (s.registry.admitOperation operation).1 = .ok .execute := by rw [hcase]
      rw [← h.bound]
      exact (OperationRegistry.execute_iff.1 hexecute).2.2
    rw [hcase]
    refine ⟨h.bound, h.finished, fun a => ?_, ?_, h.once, fun a ha => ?_⟩
    · have hadmitted := h.admitted a
      simp only [Register.answered, List.count_append, Table.mem_insert_iff]
      rcases eq_or_ne a operation with rfl | hne
      · simp [hadmitted, hnone]
      · simp [hadmitted, hne, Ne.symm hne]
    · have := h.room
      rw [← Std.ExtTreeMap.contains_iff_mem] at hnone
      simp only [Register.answered, Std.ExtTreeMap.size_insert, if_neg hnone]
      omega
    · simp only [Register.answered, Table.mem_insert_iff, not_or]
      exact ⟨fun heq => hold (heq ▸ ha), h.apart a ha⟩

theorem Kept.retire (h : s.Kept capacity) (hpos : 0 < capacity)
    (hadmitted : operation ∈ s.registry.admitted) :
    (s.call (.retire operation)).Kept capacity := by
  have hold : operation ∉ s.registry.finished := fun hmem => h.apart operation hmem hadmitted
  have hfinished : (s.registry.retire operation).finished =
      (s.retired ++ [operation]).rtake capacity := by
    rw [rtake_concat _ _ hpos, ← h.finished, OperationRegistry.retire, h.bound]
  have hmem {a : OperationId} (ha : a ∈ (s.registry.retire operation).finished) :
      a = operation ∨ a ∈ s.registry.finished := OperationRegistry.mem_finished_retire ha
  refine ⟨h.bound, hfinished, fun a => ?_, ?_, ?_, fun a ha hstill => ?_⟩
  · have hcount := h.admitted a
    simp only [call, List.count_append, OperationRegistry.mem_admitted_retire]
    rcases eq_or_ne a operation with rfl | hne
    · simp [hcount, hadmitted]
    · simp [hcount, hne, Ne.symm hne]
  · exact Std.ExtTreeMap.size_erase_le.trans h.room
  · refine List.nodup_append.2 ⟨?_, List.nodup_singleton _, fun a ha b hb heq => ?_⟩
    · split
      · exact h.once.sublist (List.drop_sublist 1 _)
      · exact h.once
    · refine hold ?_
      rw [← List.mem_singleton.1 hb, ← heq]
      split at ha
      · exact List.mem_of_mem_drop ha
      · exact ha
  · obtain ⟨hne, hstill⟩ := OperationRegistry.mem_admitted_retire.1 hstill
    rcases hmem ha with rfl | ha
    · exact hne rfl
    · exact h.apart a ha hstill

/-- **One call.** -/
theorem Kept.call (h : s.Kept capacity) (hpos : 0 < capacity) (c : RegistryCall)
    (hok : s.Retires c) : (s.call c).Kept capacity := by
  cases c with
  | admitCommand command => exact h.answered command.operationId
  | admitOperation operation => exact h.answered operation
  | retire operation => exact h.retire hpos hok

theorem Kept.booked (h : s.Kept capacity) : s.Booked capacity := by
  have hopen (operation : OperationId) : (s.registry.admitOperation operation).1 = .ok .execute ↔
      s.Open capacity operation := by
    have hroom := h.room
    rw [OperationRegistry.execute_iff, Open, h.finished, h.bound, Nat.lt_iff_le_and_ne]
    exact and_congr_right fun _ => and_congr_right fun _ => (and_iff_right hroom).symm
  refine ⟨fun command => hopen command.operationId, hopen, h.admitted, h.room, ?_, h.once, h.apart⟩
  rw [h.finished, List.rtake, List.length_drop]
  omega

/-- **Registry bookkeeping.** Over every life of a registry in which only admitted
operations are retired, an operation is executed iff it is neither admitted nor among
the last retired and there is room, and the registry holds what was executed and not
retired since. -/
theorem registry_booked {capacity : Nat} {registry : OperationRegistry}
    (hnew : OperationRegistry.tryNew capacity = .ok registry) (calls : List RegistryCall)
    (hretires : (machine registry).Meets Retires (machine registry).init calls) :
    ((machine registry).run calls).Booked capacity := by
  unfold OperationRegistry.tryNew at hnew
  split at hnew
  · cases hnew
  · rename_i hne
    cases hnew
    refine ((machine (.new capacity)).invariant_of_meets (I := fun s => s.Kept capacity)
      (fun _ c hs hc => hs.call (Nat.pos_of_ne_zero hne) c hc) ?_ hretires).booked
    refine ⟨rfl, (List.rtake_nil _).symm, fun operation => ?_, Nat.zero_le _, .nil,
      fun _ h => absurd h List.not_mem_nil⟩
    simp [machine, OperationRegistry.new]

/-- Of a capacity of one: the first operation is forgotten when the second is retired,
and executed again. -/
theorem registry_booked_sample :
    ((machine (.new 1)).run [.admitOperation ⟨"op_0000000000000001", by decide⟩,
      .retire ⟨"op_0000000000000001", by decide⟩,
      .admitCommand ⟨⟨"op_0000000000000002", by decide⟩, .ping⟩,
      .retire ⟨"op_0000000000000002", by decide⟩,
      .admitOperation ⟨"op_0000000000000001", by decide⟩]).Booked 1 :=
  registry_booked rfl _ (by decide)

end Register

end Altior.Runtime
