import Altior.Lib.Machine
import Altior.Lib.Table
import Mathlib.Data.List.Dedup
import Mathlib.Data.List.Induction
import Mathlib.Logic.Relation

/-!
# The cache of timelines

The frontend keeps the timelines of the threads that were looked at last
(`apps/desktop/src/stores/streamDeduplicator.ts`).  A map has the timelines and a list the
order of their use; a timeline that is pinned is not evicted.
-/

namespace Altior.Desktop

open Lib (Machine Table)
open Relation (ReflTransGen)

/-- A cache of stores `S`. -/
structure BoundedTimelineCache (S : Type) where
  capacity : Nat
  cache : Table String S
  lruOrder : List String

namespace BoundedTimelineCache

variable {S : Type}

def new (capacity : Nat) : BoundedTimelineCache S := ⟨capacity, ∅, []⟩

def touch (c : BoundedTimelineCache S) (threadId : String) : BoundedTimelineCache S :=
  { c with lruOrder := c.lruOrder.erase threadId ++ [threadId] }

/-- One store goes. -/
def evict (c : BoundedTimelineCache S) (candidate : String) : BoundedTimelineCache S :=
  { c with lruOrder := c.lruOrder.erase candidate, cache := c.cache.erase candidate }

/-- The first of the list that is not pinned. -/
def candidate? (c : BoundedTimelineCache S) (isPinned : String → Bool) : Option String :=
  c.lruOrder.find? fun id => !isPinned id

/-- Evicts until there is room or everything is pinned. -/
def evictIfNecessary (c : BoundedTimelineCache S) (isPinned : String → Bool) :
    BoundedTimelineCache S :=
  if c.capacity ≤ c.cache.size then
    match _h : c.candidate? isPinned with
    | some candidate => (c.evict candidate).evictIfNecessary isPinned
    | none => c
  else c
termination_by c.lruOrder.length
decreasing_by
  have hmem : candidate ∈ c.lruOrder := List.mem_of_find?_eq_some _h
  have hpos := List.length_pos_of_mem hmem
  rw [evict, List.length_erase_of_mem hmem]
  omega

def get (c : BoundedTimelineCache S) (threadId : String) : Option S × BoundedTimelineCache S :=
  match c.cache[threadId]? with
  | some store => (some store, c.touch threadId)
  | none => (none, c)

def getOrCreate (c : BoundedTimelineCache S) (threadId : String) (created : S)
    (isPinned : String → Bool) : S × BoundedTimelineCache S :=
  match c.cache[threadId]? with
  | some store => (store, c.touch threadId)
  | none =>
    let c := c.evictIfNecessary isPinned
    (created, { c with cache := c.cache.insert threadId created }.touch threadId)

def set (c : BoundedTimelineCache S) (threadId : String) (store : S) (isPinned : String → Bool) :
    BoundedTimelineCache S :=
  let c := if threadId ∈ c.cache then c else c.evictIfNecessary isPinned
  { c with cache := c.cache.insert threadId store }.touch threadId

def clear (c : BoundedTimelineCache S) : BoundedTimelineCache S :=
  { c with cache := ∅, lruOrder := [] }

/-- A call of the cache. -/
inductive Call (S : Type)
  | get (threadId : String)
  | getOrCreate (threadId : String) (created : S) (isPinned : String → Bool)
  | set (threadId : String) (store : S) (isPinned : String → Bool)
  | clear

/-- The thread a call names. -/
def Call.threadId : Call S → Option String
  | .get threadId => some threadId
  | .getOrCreate threadId _ _ => some threadId
  | .set threadId _ _ => some threadId
  | .clear => none

/-- The cache under any sequence of calls. -/
def caching (S : Type) (capacity : Nat) : Machine (BoundedTimelineCache S) (Call S) where
  init := new capacity
  step c
    | .get threadId => (c.get threadId).2
    | .getOrCreate threadId created isPinned => (c.getOrCreate threadId created isPinned).2
    | .set threadId store isPinned => c.set threadId store isPinned
    | .clear => c.clear

/-! ## The order of use -/

theorem mem_evict {c : BoundedTimelineCache S} {gone id : String} :
    id ∈ (c.evict gone).cache ↔ id ∈ c.cache ∧ id ≠ gone := by
  rw [Table.mem_iff, Table.mem_iff, evict]
  simp only [Table.getElem?_erase_eq]
  by_cases h : gone = id <;> simp [h, eq_comm]

/-- A last use moves to the end. -/
theorem dedup_concat {α : Type} [DecidableEq α] (l : List α) (a : α) :
    (l ++ [a]).dedup = l.dedup.filter (· != a) ++ [a] := by
  induction l with
  | nil => rfl
  | cons b l ih =>
    rw [List.cons_append, List.dedup_cons, List.dedup_cons, ih]
    by_cases ha : b = a
    · subst ha
      by_cases hl : b ∈ l <;> simp [hl]
    · by_cases hl : b ∈ l <;> simp [hl, ha]

/-- The list has the cached threads, each once, in the order in which the threads were
named last. -/
structure Ordered (named : List String) (c : BoundedTimelineCache S) : Prop where
  cached : ∀ id ∈ c.cache, id ∈ named
  order : c.lruOrder = named.dedup.filter (· ∈ c.cache)

namespace Ordered

variable {named : List String} {c : BoundedTimelineCache S} {id : String}

theorem nodup (h : Ordered named c) : c.lruOrder.Nodup :=
  h.order ▸ (List.nodup_dedup named).filter _

theorem mem_iff (h : Ordered named c) : id ∈ c.lruOrder ↔ id ∈ c.cache := by
  rw [h.order, List.mem_filter, List.mem_dedup, decide_eq_true_iff]
  exact ⟨fun hid => hid.2, fun hid => ⟨h.cached id hid, hid⟩⟩

/-- A thread that is cached is used, or one that was not cached is added. -/
theorem touch (h : Ordered named c) (cache : Table String S)
    (hcache : ∀ a, a ∈ cache ↔ a ∈ c.cache ∨ a = id) :
    Ordered (named ++ [id]) ({ c with cache := cache }.touch id) where
  cached a ha := by
    rcases (hcache a).1 ha with hold | rfl
    · exact List.mem_append_left _ (h.cached a hold)
    · exact List.mem_append_right _ (List.mem_singleton_self a)
  order := by
    have hold : c.lruOrder.erase id = (named.dedup.filter (· != id)).filter (· ∈ cache) := by
      rw [h.nodup.erase_eq_filter, h.order, List.filter_filter, List.filter_filter]
      refine List.filter_congr fun a _ => ?_
      by_cases ha : a = id <;> simp [hcache, ha, Bool.and_comm]
    have hnew : [id].filter (· ∈ cache) = [id] := by simp [hcache]
    have hlist : (named ++ [id]).dedup.filter (· ∈ cache) = c.lruOrder.erase id ++ [id] := by
      rw [dedup_concat, List.filter_append, hold, hnew]
    exact hlist.symm

/-- A thread that is not cached is asked for. -/
theorem miss (h : Ordered named c) (hid : id ∉ c.cache) : Ordered (named ++ [id]) c where
  cached a ha := List.mem_append_left _ (h.cached a ha)
  order := by
    have hnew : [id].filter (· ∈ c.cache) = [] := by simp [hid]
    rw [dedup_concat, List.filter_append, hnew, List.append_nil, List.filter_filter, h.order]
    refine List.filter_congr fun a _ => ?_
    by_cases ha : a = id <;> simp [ha, hid]

theorem evict (h : Ordered named c) (id : String) : Ordered named (c.evict id) where
  cached a ha := h.cached a (mem_evict.1 ha).1
  order := by
    have hlist : named.dedup.filter (· ∈ (c.evict id).cache) = c.lruOrder.erase id := by
      rw [h.nodup.erase_eq_filter, h.order, List.filter_filter]
      refine List.filter_congr fun a _ => ?_
      by_cases ha : a = id <;> simp [mem_evict, ha]
    exact hlist.symm

end Ordered

/-! ## Eviction -/

/-- The store that goes is cached and not pinned, and all that were used less recently
are pinned. -/
def Evicts (isPinned : String → Bool) (c c' : BoundedTimelineCache S) : Prop :=
  ∃ id, c' = c.evict id ∧ id ∈ c.cache ∧ isPinned id = false ∧
    ∃ front back, c.lruOrder = front ++ id :: back ∧ ∀ other ∈ front, isPinned other = true

/-- Stores are evicted one after the other, until there is room or all are pinned. -/
theorem evictIfNecessary_spec {named : List String} {c : BoundedTimelineCache S}
    (h : Ordered named c) (isPinned : String → Bool) :
    ReflTransGen (Evicts isPinned) c (c.evictIfNecessary isPinned) ∧
    ((c.evictIfNecessary isPinned).cache.size < c.capacity ∨
      ∀ id ∈ (c.evictIfNecessary isPinned).cache, isPinned id = true) := by
  fun_induction evictIfNecessary c isPinned with
  | case1 c hfull candidate hcandidate ih =>
    obtain ⟨hpin, front, back, hlist, hfront⟩ := List.find?_eq_some_iff_append.1 hcandidate
    have hmem : candidate ∈ c.cache := h.mem_iff.1 (List.mem_of_find?_eq_some hcandidate)
    obtain ⟨hsteps, hend⟩ := ih (h.evict candidate)
    refine ⟨.head ⟨candidate, rfl, hmem, ?_, front, back, hlist, ?_⟩ hsteps, hend⟩
    · simpa using hpin
    · simpa using hfront
  | case2 c hfull hnone =>
    refine ⟨.refl, .inr fun id hid => ?_⟩
    have hall := List.find?_eq_none.1 hnone id (h.mem_iff.2 hid)
    simpa using hall
  | case3 c hroom => exact ⟨.refl, .inl (Nat.lt_of_not_le hroom)⟩

section Eviction

variable {isPinned : String → Bool} {c c' : BoundedTimelineCache S} {named : List String}

theorem ordered_of_evicts (hc : ReflTransGen (Evicts isPinned) c c') (h : Ordered named c) :
    Ordered named c' ∧ c'.capacity = c.capacity := by
  induction hc with
  | refl => exact ⟨h, rfl⟩
  | tail _ hevict ih =>
    obtain ⟨id, rfl, -⟩ := hevict
    exact ⟨ih.1.evict id, ih.2⟩

/-- What is pinned stays, and nothing comes. -/
theorem mem_of_evicts (hc : ReflTransGen (Evicts isPinned) c c') :
    (∀ id ∈ c'.cache, id ∈ c.cache) ∧ ∀ id ∈ c.cache, isPinned id = true → id ∈ c'.cache := by
  induction hc with
  | refl => exact ⟨fun _ hid => hid, fun _ hid _ => hid⟩
  | tail _ hevict ih =>
    obtain ⟨gone, rfl, -, hgone, -⟩ := hevict
    refine ⟨fun id hid => ih.1 id (mem_evict.1 hid).1, fun id hid hpin => ?_⟩
    refine mem_evict.2 ⟨ih.2 id hid hpin, ?_⟩
    rintro rfl
    rw [hpin] at hgone
    cases hgone

/-- What putting a store under a thread does to a cache. -/
structure Puts (isPinned : String → Bool) (threadId : String)
    (c between after : BoundedTimelineCache S) : Prop where
  /-- First stores are evicted, when the thread is not cached. -/
  evicts : ReflTransGen (Evicts isPinned) c between
  hit : threadId ∈ c.cache → between = c
  /-- Then the store is there, and the others are as they were. -/
  mem : threadId ∈ after.cache
  others : ∀ id, id ≠ threadId → after.cache[id]? = between.cache[id]?
  pinned : ∀ id ∈ c.cache, isPinned id = true → id ∈ after.cache
  room : threadId ∉ c.cache → after.cache.size ≤ c.capacity ∨
    ∀ id ∈ after.cache, id ≠ threadId → isPinned id = true

variable {threadId : String} {store : S}

/-- A store is put where there was none. -/
theorem puts_insert (h : Ordered named c) (hmiss : threadId ∉ c.cache) :
    Puts isPinned threadId c (c.evictIfNecessary isPinned)
      ({ c.evictIfNecessary isPinned with
        cache := (c.evictIfNecessary isPinned).cache.insert threadId store }.touch threadId) := by
  obtain ⟨hevicts, hend⟩ := evictIfNecessary_spec h isPinned
  obtain ⟨hsub, hpinned⟩ := mem_of_evicts hevicts
  refine ⟨hevicts, fun hhit => absurd hhit hmiss, Table.mem_insert_iff.2 (.inl rfl),
    fun id hid => Table.getElem?_insert_of_ne _ _ (Ne.symm hid),
    fun id hid hpin => Table.mem_insert_iff.2 (.inr (hpinned id hid hpin)), fun _ => ?_⟩
  rcases hend with hroom | hall
  · exact .inl (Nat.le_trans Std.ExtTreeMap.size_insert_le hroom)
  · refine .inr fun id hid hne => hall id ?_
    exact (Table.mem_insert_iff.1 hid).resolve_left hne

theorem puts_getOrCreate (h : Ordered named c) :
    ∃ between, Puts isPinned threadId c between (c.getOrCreate threadId store isPinned).2 := by
  unfold getOrCreate
  cases hcached : c.cache[threadId]? with
  | some old =>
    have hmem : threadId ∈ c.cache := Table.mem_iff.2 ⟨old, hcached⟩
    exact ⟨c, .refl, fun _ => rfl, hmem, fun _ _ => rfl, fun _ hid _ => hid,
      fun hmiss => absurd hmem hmiss⟩
  | none => exact ⟨_, puts_insert h (Table.not_mem_iff.2 hcached)⟩

theorem puts_set (h : Ordered named c) :
    ∃ between, Puts isPinned threadId c between (c.set threadId store isPinned) := by
  by_cases hmem : threadId ∈ c.cache
  · simp only [set, if_pos hmem]
    exact ⟨c, .refl, fun _ => rfl, Table.mem_insert_iff.2 (.inl rfl),
      fun id hid => Table.getElem?_insert_of_ne _ _ (Ne.symm hid),
      fun id hid _ => Table.mem_insert_iff.2 (.inr hid), fun hmiss => absurd hmem hmiss⟩
  · simp only [set, if_neg hmem]
    exact ⟨_, puts_insert h hmem⟩

/-- One call keeps the order. -/
theorem Ordered.step (h : Ordered named c) (call : Call S) :
    Ordered (named ++ call.threadId.toList) ((caching S c.capacity).step c call) ∧
      ((caching S c.capacity).step c call).capacity = c.capacity := by
  have hinsert {c : BoundedTimelineCache S} {id : String} {store : S} (a : String) :
      a ∈ c.cache.insert id store ↔ a ∈ c.cache ∨ a = id := Table.mem_insert_iff.trans or_comm
  have hsame {id : String} (hmem : id ∈ c.cache) : Ordered (named ++ [id]) (c.touch id) :=
    h.touch c.cache fun a => ⟨.inl, fun ha => ha.elim (·) fun ha => ha ▸ hmem⟩
  cases call with
  | get threadId =>
    simp only [caching, BoundedTimelineCache.get, Call.threadId, Option.toList_some]
    cases hcached : c.cache[threadId]? with
    | some old => exact ⟨hsame (Table.mem_iff.2 ⟨old, hcached⟩), rfl⟩
    | none => exact ⟨h.miss (Table.not_mem_iff.2 hcached), rfl⟩
  | getOrCreate threadId created isPinned =>
    simp only [caching, getOrCreate, Call.threadId, Option.toList_some]
    cases hcached : c.cache[threadId]? with
    | some old => exact ⟨hsame (Table.mem_iff.2 ⟨old, hcached⟩), rfl⟩
    | none =>
      obtain ⟨horder, hcapacity⟩ := ordered_of_evicts (evictIfNecessary_spec h isPinned).1 h
      exact ⟨horder.touch _ hinsert, hcapacity⟩
  | set threadId store isPinned =>
    simp only [caching, set, Call.threadId, Option.toList_some]
    split
    · exact ⟨h.touch _ hinsert, rfl⟩
    · obtain ⟨horder, hcapacity⟩ := ordered_of_evicts (evictIfNecessary_spec h isPinned).1 h
      exact ⟨horder.touch _ hinsert, hcapacity⟩
  | clear =>
    have hempty : named.dedup.filter (· ∈ c.clear.cache) = [] := by
      simp [BoundedTimelineCache.clear]
    simp only [Call.threadId, Option.toList_none, List.append_nil]
    exact ⟨⟨fun id hid => absurd hid Std.ExtTreeMap.not_mem_empty, hempty.symm⟩, rfl⟩

end Eviction

/-- After any calls the list has the cached threads in the order of their last use; a call
that puts a store evicts only what is not pinned, what was used least recently first, and
leaves no more than the capacity unless all others are pinned. -/
theorem timelineCache_run (capacity : Nat) (calls : List (Call S)) :
    let c := (caching S capacity).run calls
    c.lruOrder.Nodup ∧ (∀ id, id ∈ c.lruOrder ↔ id ∈ c.cache) ∧
    c.lruOrder = (calls.filterMap Call.threadId).dedup.filter (· ∈ c.cache) ∧
    c.capacity = capacity ∧
    (∀ threadId, (c.get threadId).2.cache = c.cache) ∧
    ∀ (threadId : String) (store : S) (isPinned : String → Bool),
      (∃ between, Puts isPinned threadId c between (c.getOrCreate threadId store isPinned).2) ∧
      ∃ between, Puts isPinned threadId c between (c.set threadId store isPinned) := by
  intro c
  have h : Ordered (calls.filterMap Call.threadId) c ∧ c.capacity = capacity := by
    simp only [c]
    induction calls using List.reverseRecOn with
    | nil => exact ⟨⟨fun _ hid => absurd hid Std.ExtTreeMap.not_mem_empty, rfl⟩, rfl⟩
    | append_singleton calls call ih =>
      obtain ⟨horder, hcapacity⟩ := ih
      have hstep := horder.step call
      rw [hcapacity] at hstep
      rw [List.filterMap_append, Machine.run_append]
      cases call <;> exact hstep
  refine ⟨h.1.nodup, fun _ => h.1.mem_iff, h.1.order, h.2, fun threadId => ?_,
    fun threadId store isPinned => ⟨puts_getOrCreate h.1, puts_set h.1⟩⟩
  unfold get
  cases c.cache[threadId]? <;> rfl

end BoundedTimelineCache

end Altior.Desktop
