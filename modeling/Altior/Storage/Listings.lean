import Altior.Lib.Keyset
import Altior.Storage.Columns
import Altior.Storage.Supersession
import Mathlib.Data.String.Basic

/-!
# Listings

The paged listings of the store (`thread_list`, `search_threads`, `turns_for_thread` and
the checkpoint listings of `altior-storage/src/lib.rs`; the permission and memory listings
are in the readers).  Each page begins behind a cursor made of the time and the key of
the row before it; without a cursor it begins at a sentinel.
-/

namespace Altior.Storage

open Domain Lib
open Keyset (inOrder mem_inOrder)

/-- The state of a thread. -/
inductive ThreadState
  | open_
  | pinned
  | archived
deriving DecidableEq, Repr

def ThreadState.asStr : ThreadState → String
  | open_ => "open"
  | pinned => "pinned"
  | archived => "archived"

theorem mem_rows {α : Type} {t : Table String α} {select : String × α → Bool} {r : String × α} :
    r ∈ t.toList.filter select ↔ t[r.1]? = some r.2 ∧ select r = true := by
  rw [List.mem_filter, ← Std.ExtTreeMap.mem_toList_iff_getElem?_eq_some]

/-! ## Pages -/

section Page

variable {α : Type} (time : α → Int)

/-- `updated_at < ?2 OR (updated_at = ?2 AND thread_id > ?3)`.  The sentinel is the largest
time with the empty key. -/
def newestBehind (before : Option (UInt64 × String)) (r : String × α) : Bool :=
  let beforeTime : Int := before.elim i64Max fun c => min (c.1.toNat : Int) i64Max
  let beforeKey := before.elim "" Prod.snd
  time r.2 < beforeTime || (time r.2 == beforeTime && beforeKey < r.1)

/-- A page of rows, newest first and by key within one time. -/
def newestPage (rows : List (String × α)) (before : Option (UInt64 × String)) (limit : Nat) :
    List (String × α) :=
  ((rows.filter (newestBehind time before)).mergeSort fun a b =>
    time b.2 < time a.2 || (time b.2 == time a.2 && a.1 ≤ b.1)).take limit

/-- `started_at > ?2 OR (started_at = ?2 AND turn_id > ?3)`.  The sentinel lies before every
time. -/
def oldestBehind (after : Option (UInt64 × String)) (r : String × α) : Bool :=
  let afterTime : Int := after.elim (-1) fun c => if c.1.toNat ≤ i64Max then c.1.toNat else -1
  let afterKey := after.elim "" Prod.snd
  afterTime < time r.2 || (time r.2 == afterTime && afterKey < r.1)

/-- A page of rows, oldest first and by key within one time. -/
def oldestPage (rows : List (String × α)) (after : Option (UInt64 × String)) (limit : Nat) :
    List (String × α) :=
  ((rows.filter (oldestBehind time after)).mergeSort fun a b =>
    time a.2 < time b.2 || (time a.2 == time b.2 && a.1 ≤ b.1)).take limit

end Page

/-- The columns of a cursor. -/
def cut {pre : String} (c : UInt64 × Id pre) : UInt64 × String := (c.1, c.2.asStr)

def threadList (p : Projections) (stateFilter : Option ThreadState)
    (before : Option (UInt64 × ThreadId)) (limit : Nat) : List (String × ThreadRow) :=
  newestPage ThreadRow.updatedAt
    (p.thread.toList.filter fun r => stateFilter.all fun state => state.asStr == r.2.state)
    (before.map cut) limit

/-- The rows whose indexed title the full-text query matches. -/
def searchThreads (p : Projections) (titleMatches : String → Bool)
    (before : Option (UInt64 × ThreadId)) (limit : Nat) : List (String × ThreadRow) :=
  newestPage ThreadRow.updatedAt
    (p.thread.toList.filter fun r => p.threadSearch[r.1]?.any titleMatches)
    (before.map cut) limit

/-- `turns_for_thread` with its cursor. -/
def turnPage (p : Projections) (threadId : ThreadId) (after : Option (UInt64 × TurnId))
    (limit : Nat) : List (String × TurnRow) :=
  oldestPage TurnRow.startedAt (p.turn.toList.filter fun r => r.2.threadId == threadId.asStr)
    (after.map cut) limit

variable [SerdeJson]

/-- The rows of `runtime_checkpoint` with their keys. -/
def Store.checkpointRows (s : Store) : List (String × RuntimeCheckpoint) :=
  s.checkpoint.toList.map fun r => (r.1.asStr, r.2)

def checkpointTime (row : RuntimeCheckpoint) : Int := row.createdAt.toNat

/-- A page of the checkpoints that meet a condition. -/
def checkpointPage (s : Store) (keep : RuntimeCheckpoint → Bool)
    (before : Option (UInt64 × RuntimeCheckpointId)) (limit : Nat) :
    List (String × RuntimeCheckpoint) :=
  newestPage checkpointTime (s.checkpointRows.filter fun r => keep r.2) (before.map cut) limit

/-- `runtime_checkpoints` with its cursor. -/
def runtimeCheckpointPage (s : Store) (threadId : Option ThreadId)
    (before : Option (UInt64 × RuntimeCheckpointId)) (limit : Nat) :
    List (String × RuntimeCheckpoint) :=
  checkpointPage s (fun row => threadId.all (· == row.threadId)) before limit

def checkpointsByState (s : Store) (state : CheckpointState) (threadId : Option ThreadId)
    (before : Option (UInt64 × RuntimeCheckpointId)) (limit : Nat) :
    List (String × RuntimeCheckpoint) :=
  checkpointPage s (fun row => row.state == state && threadId.all (· == row.threadId)) before limit

/-! ## The documented orders -/

section Order

omit [SerdeJson]

variable {α β γ : Type} (time : α → Int)

/-- Newest first, then by key. -/
def newestKey (r : String × α) : Intᵒᵈ ×ₗ String := toLex (OrderDual.toDual (time r.2), r.1)

/-- Oldest first, then by key. -/
def oldestKey (r : String × α) : Int ×ₗ String := toLex (time r.2, r.1)

variable {a b r : String × α}

theorem newestKey_le_iff : newestKey time a ≤ newestKey time b ↔
    time b.2 < time a.2 ∨ time b.2 = time a.2 ∧ a.1 ≤ b.1 := by
  unfold newestKey
  rw [Prod.Lex.toLex_le_toLex, OrderDual.toDual_lt_toDual, OrderDual.toDual_inj, eq_comm]

theorem newestKey_lt_iff : newestKey time a < newestKey time b ↔
    time b.2 < time a.2 ∨ time b.2 = time a.2 ∧ a.1 < b.1 := by
  unfold newestKey
  rw [Prod.Lex.toLex_lt_toLex, OrderDual.toDual_lt_toDual, OrderDual.toDual_inj, eq_comm]

theorem oldestKey_le_iff : oldestKey time a ≤ oldestKey time b ↔
    time a.2 < time b.2 ∨ time a.2 = time b.2 ∧ a.1 ≤ b.1 := Prod.Lex.toLex_le_toLex

theorem oldestKey_lt_iff : oldestKey time a < oldestKey time b ↔
    time a.2 < time b.2 ∨ time a.2 = time b.2 ∧ a.1 < b.1 := Prod.Lex.toLex_lt_toLex

theorem newestPage_eq (rows : List (String × α)) (before : Option (UInt64 × String)) (limit : Nat) :
    newestPage time rows before limit =
      (inOrder (newestKey time) (rows.filter (newestBehind time before))).take limit := by
  unfold newestPage inOrder
  congr 2
  funext a b
  rw [Bool.eq_iff_iff]
  simp [newestKey_le_iff]

theorem oldestPage_eq (rows : List (String × α)) (after : Option (UInt64 × String)) (limit : Nat) :
    oldestPage time rows after limit =
      (inOrder (oldestKey time) (rows.filter (oldestBehind time after))).take limit := by
  unfold oldestPage inOrder
  congr 2
  funext a b
  rw [Bool.eq_iff_iff]
  simp [oldestKey_le_iff]

theorem empty_lt_asStr {pre : String} (id : Id pre) : "" < id.asStr := by
  rw [String.lt_iff_toList_lt]
  cases hchars : id.asStr.toList with
  | nil =>
    -- an empty text does not parse
    have hvalid := id.valid
    rw [String.toList_eq_nil_iff.1 hchars] at hvalid
    cases hvalid
  | cons c cs => exact List.nil_lt_cons c cs

/-- Behind a cursor made of a row lies what comes after the row. -/
theorem newestBehind_cursor {c : UInt64 × String} (hr : InColumn (time r.2))
    (htime : (c.1.toNat : Int) = time r.2) (hkey : c.2 = r.1) (other : String × α) :
    newestBehind time (some c) other = decide (newestKey time r < newestKey time other) := by
  have hmin : min (c.1.toNat : Int) i64Max = time r.2 := by
    rw [htime]
    exact min_eq_left hr.2
  rw [Bool.eq_iff_iff]
  simp [newestBehind, newestKey_lt_iff, hmin, hkey]

theorem oldestBehind_cursor {c : UInt64 × String} (hr : InColumn (time r.2))
    (htime : (c.1.toNat : Int) = time r.2) (hkey : c.2 = r.1) (other : String × α) :
    oldestBehind time (some c) other = decide (oldestKey time r < oldestKey time other) := by
  have hfits : c.1.toNat ≤ i64Max := by
    have hle := hr.2
    rw [← htime] at hle
    exact Int.ofNat_le.1 hle
  rw [Bool.eq_iff_iff]
  simp only [oldestBehind, Option.elim_some, hfits, if_true, htime, hkey, Bool.or_eq_true,
    Bool.and_eq_true, decide_eq_true_eq, beq_iff_eq, oldestKey_lt_iff, @eq_comm _ (time r.2)]

/-- The sentinel of a newest-first listing lets every admitted row through. -/
theorem newestBehind_none (hr : InColumn (time r.2)) (hkey : "" < r.1) :
    newestBehind time none r = true := by
  change (decide (time r.2 < (i64Max : Int)) || (time r.2 == (i64Max : Int) && decide ("" < r.1))) =
    true
  simp only [Bool.or_eq_true, Bool.and_eq_true, decide_eq_true_eq, beq_iff_eq]
  rcases lt_or_eq_of_le hr.2 with hlt | heq
  · exact .inl hlt
  · exact .inr ⟨heq, hkey⟩

theorem oldestBehind_none (hr : InColumn (time r.2)) : oldestBehind time none r = true := by
  change (decide ((-1 : Int) < time r.2) || (time r.2 == (-1 : Int) && decide ("" < r.1))) = true
  simp only [Bool.or_eq_true, decide_eq_true_eq]
  exact .inl (Int.lt_of_lt_of_le (by decide) hr.1)

/-- What a listing needs of its rows: keys of their own that are not empty, times that fit,
and a cursor in every row that is read. -/
structure Pageable (rows : List (String × α)) (read : String × α → Except ReadError β)
    (cursorOf : β → Option γ) (columns : γ → UInt64 × String) : Prop where
  keys : (rows.map Prod.fst).Nodup
  nonempty : ∀ r ∈ rows, "" < r.1
  times : ∀ r ∈ rows, InColumn (time r.2)
  cursor : ∀ r ∈ rows, ∀ b, read r = .ok b → ∃ c, cursorOf b = some c ∧
    ((columns c).1.toNat : Int) = time r.2 ∧ (columns c).2 = r.1

variable {time} {rows : List (String × α)} {read : String × α → Except ReadError β}
  {cursorOf : β → Option γ} {columns : γ → UInt64 × String} {limit : Nat}

variable {page : Option γ → Except ReadError (List β)}

/-- A listing is exact when its rows can be read, if a page starts behind the cursor of a
row and the first page in front of all. -/
theorem Pageable.exact_iff {κ : Type} [LinearOrder κ] {key : String × α → κ}
    {behind : Option (UInt64 × String) → String × α → Bool}
    (h : Pageable time rows read cursorOf columns) (hlimit : 0 < limit)
    (hkeys : (rows.map key).Nodup) (hpage : ∀ c, page c =
      ((inOrder key (rows.filter (behind (c.map columns)))).take limit).mapM read)
    (hcursor : ∀ r ∈ rows, ∀ c : UInt64 × String, (c.1.toNat : Int) = time r.2 → c.2 = r.1 →
      ∀ other, behind (some c) other = decide (key r < key other))
    (hnone : ∀ r ∈ rows, behind none r = true) :
    Keyset.Exact page cursorOf read (inOrder key rows) ↔ ∀ r ∈ rows, ∃ b, read r = .ok b := by
  have hquery : Keyset.Query key rows limit read page cursorOf (behind none)
      (fun c => behind (some (columns c))) := by
    refine ⟨hkeys, hpage none, fun c => hpage (some c), fun r hr b hb => ?_,
      fun _ _ other hother _ _ => hnone other hother⟩
    obtain ⟨c, hc, htime, hkey⟩ := h.cursor r hr b hb
    exact ⟨c, hc, fun other _ => hcursor r hr _ htime hkey other⟩
  rw [hquery.exact_iff hlimit]
  exact and_iff_left hnone

/-- **A newest-first listing is exact** when its rows can be read. -/
theorem Pageable.newest_exact_iff (h : Pageable time rows read cursorOf columns)
    (hlimit : 0 < limit)
    (hpage : ∀ c, page c = (newestPage time rows (c.map columns) limit).mapM read) :
    Keyset.Exact page cursorOf read (inOrder (newestKey time) rows) ↔
      ∀ r ∈ rows, ∃ b, read r = .ok b := by
  refine h.exact_iff hlimit (.of_map (fun k : Intᵒᵈ ×ₗ String => (ofLex k).2) ?_)
    (fun c => by rw [hpage, newestPage_eq])
    (fun r hr c htime hkey => newestBehind_cursor time (h.times r hr) htime hkey)
    fun r hr => newestBehind_none time (h.times r hr) (h.nonempty r hr)
  rw [List.map_map]
  exact h.keys

/-- **An oldest-first listing is exact** when its rows can be read. -/
theorem Pageable.oldest_exact_iff (h : Pageable time rows read cursorOf columns)
    (hlimit : 0 < limit)
    (hpage : ∀ c, page c = (oldestPage time rows (c.map columns) limit).mapM read) :
    Keyset.Exact page cursorOf read (inOrder (oldestKey time) rows) ↔
      ∀ r ∈ rows, ∃ b, read r = .ok b := by
  refine h.exact_iff hlimit (.of_map (fun k : Int ×ₗ String => (ofLex k).2) ?_)
    (fun c => by rw [hpage, oldestPage_eq])
    (fun r hr c htime hkey => oldestBehind_cursor time (h.times r hr) htime hkey)
    fun r hr => oldestBehind_none time (h.times r hr)
  rw [List.map_map]
  exact h.keys

end Order

end Altior.Storage
