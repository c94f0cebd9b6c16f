import Altior.Storage.Projection
import Altior.Sync.Vault
import Mathlib.Data.Nat.Find

/-!
# Retiring tombstones

`compact_tombstones` of `altior-storage/src/sync_state.rs` with its result.  It runs
one statement for each origin of the floor map, in the order of the map, and opens no
transaction around them, as the other writes of several statements do: what the
statements before a failing one deleted stays deleted.

`SyncPort.compactTombstones` of the vault is what it does to the table.
-/

namespace Altior.Sync

open Lib Crypto Storage

/-! ## The model -/

/-- The table `memory_tombstone`, with the time of the forgetting beside the mark. -/
abbrev Tombstones := Table String (TombstoneMark × Nat)

namespace Tombstones

/-- The rows whose mark is of one kind. -/
def select (t : Tombstones) (kind : TombstoneMark → Bool) : Tombstones :=
  t.filter fun _ row => kind row.1

/-- `DELETE`: the rows whose mark is not. -/
def delete (t : Tombstones) (kind : TombstoneMark → Bool) : Tombstones :=
  t.filter fun _ row => !kind row.1

end Tombstones

/-- `origin = ?1 AND origin_seq < ?2` -/
def belowFloor (origin : String) (floor : Nat) (mark : TombstoneMark) : Bool :=
  mark.origin = origin ∧ mark.originSeq < floor

namespace Store

/-- Deletes the tombstones of one origin below its floor and counts them.  A floor
that does not fit the column is refused before the statement. -/
def compactOrigin (p : SyncPort) : String × Nat → Except StorageError Nat × SyncPort
  | (origin, floor) =>
    if i64Max < floor then
      (.error (.invalidDomainEvent
        "ack floor: out of range integral type conversion attempted"), p)
    else match p.call with
      | (true, p) => (.error (.sqlite "compact tombstones"), p)
      | (false, p) =>
        (.ok (Tombstones.select p.tombstones (belowFloor origin floor)).size,
          { p with tombstones := Tombstones.delete p.tombstones (belowFloor origin floor) })

/-- Deletes the tombstones below the floors and counts them. -/
def compactTombstones (p : SyncPort) (ackFloors : Table String Nat) :
    Except StorageError Nat × SyncPort :=
  sumEach compactOrigin ackFloors.toList p

end Store

/-! ## What compaction is for -/

/-- The origin of the tombstone has a floor strictly above its sequence number. -/
def Retired (ackFloors : Table String Nat) (mark : TombstoneMark) : Bool :=
  ackFloors[mark.origin]?.any (mark.originSeq < ·)

/-- Exactly the retired tombstones are deleted, and their number is reported; or the
call fails and none is. -/
def CompactsExactly (ackFloors : Table String Nat) (p : SyncPort) :
    Except StorageError Nat × SyncPort → Prop
  | (.ok reclaimed, p') =>
    p'.tombstones = Tombstones.delete p.tombstones (Retired ackFloors) ∧
      reclaimed = (Tombstones.select p.tombstones (Retired ackFloors)).size
  | (.error _, p') => p'.tombstones = p.tombstones

/-- The statement for the floor at a position of the map cannot be run. -/
def Refused (faults : List Bool) (i : Nat) (floor : Nat) : Prop :=
  i64Max < floor ∨ faults[i]? = some true

/-- Before the first statement that cannot be run, no statement has a row to delete. -/
def NothingHalfDone (ackFloors : Table String Nat) (p : SyncPort) : Prop :=
  ∀ i (hi : i < ackFloors.toList.length), Refused p.faults i ackFloors.toList[i].2 →
    (∀ j (hj : j < i), ¬ Refused p.faults j ackFloors.toList[j].2) →
      ∀ j (hj : j < i) (id : String) row, p.tombstones[id]? = some row →
        belowFloor ackFloors.toList[j].1 ackFloors.toList[j].2 row.1 = false

/-! ## Rows and floors -/

namespace Tombstones

variable {t : Tombstones} {kind kind' : TombstoneMark → Bool}

theorem select_false : t.select (fun _ => false) = ∅ := by
  unfold select
  rw [Std.ExtTreeMap.filter_eq_empty_iff]
  exact fun _ _ => rfl

theorem delete_eq_self :
    t.delete kind = t ↔ ∀ (id : String) row, t[id]? = some row → kind row.1 = false :=
  Table.filter_eq_self (p := fun row : TombstoneMark × Nat => kind row.1)

theorem delete_false : t.delete (fun _ => false) = t :=
  delete_eq_self.2 fun _ _ _ => rfl

/-- Two deletions, one after the other, are one. -/
theorem delete_delete :
    (t.delete kind).delete kind' = t.delete fun mark => kind mark || kind' mark := by
  simp only [delete, Table.filter_filter t (fun row => !kind row.1) fun row => !kind' row.1,
    Bool.not_or]

/-- Two deletions, one after the other, find together as many rows as one. -/
theorem size_select_delete :
    (t.select kind).size + ((t.delete kind).select kind').size =
      (t.select fun mark => kind mark || kind' mark).size :=
  (Table.size_filter_or t (fun row => kind row.1) fun row => kind' row.1).symm

end Tombstones

/-- The mark is below one of the floors. -/
def belowFloors (floors : List (String × Nat)) (mark : TombstoneMark) : Bool :=
  floors.any fun floor => belowFloor floor.1 floor.2 mark

theorem belowFloors_toList (ackFloors : Table String Nat) :
    belowFloors ackFloors.toList = Retired ackFloors := by
  funext mark
  rw [Bool.eq_iff_iff]
  simp only [belowFloors, List.any_eq_true, belowFloor, decide_eq_true_eq, Retired,
    Option.any_eq_true]
  constructor
  · rintro ⟨⟨origin, floor⟩, hmem, horigin, hseq⟩
    cases horigin
    exact ⟨floor, Std.ExtTreeMap.mem_toList_iff_getElem?_eq_some.1 hmem, hseq⟩
  · rintro ⟨floor, hfloor, hseq⟩
    exact ⟨(mark.origin, floor), Std.ExtTreeMap.mem_toList_iff_getElem?_eq_some.2 hfloor, rfl,
      hseq⟩

/-! ## The loop -/

namespace Store

variable {p : SyncPort}

theorem call_of_not_fault (h : p.faults[0]? ≠ some true) :
    p.call = (false, { p with faults := p.faults.tail }) := by
  obtain ⟨applied, cursors, tombstones, faults⟩ := p
  match faults with
  | [] => rfl
  | false :: faults => rfl
  | true :: faults => exact absurd rfl h

theorem call_of_fault (h : p.faults[0]? = some true) :
    p.call = (true, { p with faults := p.faults.tail }) := by
  obtain ⟨applied, cursors, tombstones, faults⟩ := p
  match faults with
  | true :: faults => rfl

/-- A statement that can be run deletes the rows below its floor. -/
theorem compactOrigin_ok {origin : String} {floor : Nat} (h : ¬ Refused p.faults 0 floor) :
    compactOrigin p (origin, floor) =
      (.ok (Tombstones.select p.tombstones (belowFloor origin floor)).size,
        { p with
          tombstones := Tombstones.delete p.tombstones (belowFloor origin floor)
          faults := p.faults.tail }) := by
  obtain ⟨hfits, hfault⟩ := not_or.1 h
  simp only [compactOrigin, if_neg hfits, call_of_not_fault hfault]

/-- A statement that cannot be run deletes none. -/
theorem compactOrigin_error {origin : String} {floor : Nat} (h : Refused p.faults 0 floor) :
    ∃ e p', compactOrigin p (origin, floor) = (.error e, p') ∧ p'.tombstones = p.tombstones := by
  by_cases hfits : i64Max < floor
  · exact ⟨_, _, if_pos hfits, rfl⟩
  · have hcall := call_of_fault (h.resolve_left hfits)
    exact ⟨.sqlite "compact tombstones", { p with faults := p.faults.tail },
      by simp only [compactOrigin, if_neg hfits, hcall], rfl⟩

/-- Statements that can all be run delete the rows below their floors. -/
theorem sumEach_compactOrigin (floors : List (String × Nat))
    (h : ∀ i (hi : i < floors.length), ¬ Refused p.faults i floors[i].2) :
    sumEach compactOrigin floors p =
      (.ok (Tombstones.select p.tombstones (belowFloors floors)).size,
        { p with
          tombstones := Tombstones.delete p.tombstones (belowFloors floors)
          faults := p.faults.drop floors.length }) := by
  induction floors generalizing p with
  | nil =>
    have hnone : belowFloors [] = fun _ => false := rfl
    rw [hnone, Tombstones.select_false, Tombstones.delete_false]
    rfl
  | cons floor floors ih =>
    obtain ⟨origin, floor⟩ := floor
    have hrest := ih (p := { p with
      tombstones := Tombstones.delete p.tombstones (belowFloor origin floor)
      faults := p.faults.tail }) fun i hi => by
        have hnext := h (i + 1) (Nat.succ_lt_succ hi)
        simpa only [Refused, List.getElem?_tail, List.getElem_cons_succ] using hnext
    have hfirst : ¬ Refused p.faults 0 floor := h 0 (Nat.zero_lt_succ _)
    simp only [sumEach, compactOrigin_ok hfirst, hrest,
      Tombstones.size_select_delete, Tombstones.delete_delete, List.drop_tail]
    rfl

/-- A statement that cannot be run ends the call; the rows of the statements before it
are gone. -/
theorem compactTombstones_stopped {ackFloors : Table String Nat} {i : Nat}
    (hi : i < ackFloors.toList.length) (hstop : Refused p.faults i ackFloors.toList[i].2)
    (hfirst : ∀ j (hj : j < i), ¬ Refused p.faults j ackFloors.toList[j].2) :
    ∃ e p', compactTombstones p ackFloors = (.error e, p') ∧
      p'.tombstones = Tombstones.delete p.tombstones (belowFloors (ackFloors.toList.take i)) := by
  have hdone := sumEach_compactOrigin (p := p) (ackFloors.toList.take i) fun j hj => by
    rw [List.length_take] at hj
    rw [List.getElem_take]
    exact hfirst j (hj.trans_le (Nat.min_le_left ..))
  rw [List.length_take, Nat.min_eq_left hi.le] at hdone
  have hnow : Refused (p.faults.drop i) 0 ackFloors.toList[i].2 := by
    simpa only [Refused, List.getElem?_drop, Nat.add_zero]
  obtain ⟨e, p', herror, hp'⟩ := @compactOrigin_error { p with
    tombstones := Tombstones.delete p.tombstones (belowFloors (ackFloors.toList.take i))
    faults := p.faults.drop i } ackFloors.toList[i].1 _ hnow
  refine ⟨e, p', ?_, hp'⟩
  have hstops := sumEach_stops hdone herror (ackFloors.toList.drop (i + 1))
  rwa [List.getElem_cons_drop, List.take_append_drop] at hstops

end Store

/-! ## The vault -/

/-! ## All or nothing -/

/-- Retiring tombstones is exact and leaves the table alone on an error, iff before the
first statement that cannot be run no statement has a row to delete. -/
theorem compactTombstones_exact_iff (ackFloors : Table String Nat) (p : SyncPort) :
    CompactsExactly ackFloors p (Store.compactTombstones p ackFloors) ↔
      NothingHalfDone ackFloors p := by
  by_cases hstop : ∃ i, ∃ hi : i < ackFloors.toList.length,
      Refused p.faults i ackFloors.toList[i].2
  · classical
    obtain ⟨hi, hrefused⟩ := Nat.find_spec hstop
    have hfirst : ∀ j (hj : j < Nat.find hstop), ¬ Refused p.faults j ackFloors.toList[j].2 :=
      fun j hj hj' => Nat.find_min hstop hj ⟨hj.trans hi, hj'⟩
    obtain ⟨e, p', hrun, hp'⟩ := Store.compactTombstones_stopped hi hrefused hfirst
    rw [hrun]
    simp only [CompactsExactly, hp', Tombstones.delete_eq_self]
    constructor
    · intro hnone i' hi' hrefused' hfirst' j hj id row hrow
      -- There is one first statement that cannot be run.
      obtain rfl : i' = Nat.find hstop :=
        le_antisymm (not_lt.1 fun hlt => hfirst' _ hlt hrefused)
          (not_lt.1 fun hlt => hfirst _ hlt hrefused')
      have hbelow := List.any_eq_false.1 (hnone id row hrow) (ackFloors.toList.get ⟨j, hj.trans hi⟩)
        (List.mem_take_iff_getElem.2 ⟨j, by omega, rfl⟩)
      exact Bool.eq_false_iff.2 hbelow
    · intro hclean id row hrow
      refine List.any_eq_false.2 fun floor hfloor => ?_
      obtain ⟨j, hj, rfl⟩ := List.mem_take_iff_getElem.1 hfloor
      exact Bool.eq_false_iff.1 (hclean _ hi hrefused hfirst j (by omega) id row hrow)
  · have hall : ∀ i (hi : i < ackFloors.toList.length),
        ¬ Refused p.faults i ackFloors.toList[i].2 := fun i hi h => hstop ⟨i, hi, h⟩
    refine iff_of_true ?_ fun i hi h => absurd h (hall i hi)
    rw [Store.compactTombstones, Store.sumEach_compactOrigin _ hall]
    simp only [CompactsExactly, belowFloors_toList, and_self]

/-- Floors of which the second does not fit its column. -/
def sampleFloors : Table String Nat :=
  (∅ : Table String Nat).insert "device-a" 5 |>.insert "device-b" u64Max

/-- A table with one tombstone, below the first floor. -/
def sampleTombstones : SyncPort :=
  { SyncPort.empty with
    tombstones := (∅ : Tombstones).insert "mem-1" (⟨Vector.replicate 32 0, "device-a", 3⟩, 100) }

/-- By the time the call fails for the second device, the tombstone of the first one is
gone. -/
theorem half_compacted :
    ¬ CompactsExactly sampleFloors sampleTombstones
      (Store.compactTombstones sampleTombstones sampleFloors) := by
  intro h
  have hkept : Tombstones.delete sampleTombstones.tombstones (belowFloor "device-a" 5) =
      sampleTombstones.tombstones := h
  rw [Tombstones.delete_eq_self] at hkept
  exact absurd (hkept "mem-1" _ (Table.getElem?_insert_same ..)) (by decide)

end Altior.Sync
