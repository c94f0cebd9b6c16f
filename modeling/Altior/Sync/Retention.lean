import Mathlib.Algebra.Order.BigOperators.Group.List
import Mathlib.Algebra.Order.Ring.Nat
import Altior.Sync.Queue

/-!
# What the relay retains

The relay under any sequence of its operations, with a record of the sequence
numbers it assigned and of the cursors its receivers named.  A bucket holds the
numbers assigned in it above its boundary, and nothing else.
-/

namespace Altior.Sync

open Lib

variable {π : Type}

/-- What is asked of a relay, and the ticks of its clock. -/
inductive RelayInput (π : Type)
  | push (label id : String) (payload : π)
  | fetch (label : String) (after limit : Nat)
  | compact (label : String)
  | sweepExpired
  | tick
deriving DecidableEq

/-- A relay and what it answered. -/
structure RelayLog (π : Type) where
  relay : Relay π
  /-- The sequence numbers of the accepted pushes, with their buckets. -/
  assigned : List (String × Nat)
  /-- The cursors receivers asserted and were returned, with their buckets. -/
  claimed : List (String × Nat)

namespace RelayLog

/-- The sequence numbers assigned in a bucket. -/
def assignedTo (s : RelayLog π) (label : String) : List Nat :=
  s.assigned.filterMap fun record => if record.1 = label then some record.2 else none

/-- The record of pushes after one was answered. -/
def recordAssigned (assigned : List (String × Nat)) (label : String) :
    Except RelayError PushOutcome → List (String × Nat)
  | .ok (.pushed seq) => assigned ++ [(label, seq)]
  | _ => assigned

/-- The record of cursors after a fetch was answered.  A cursor that is not answered
with entries is not one the relay acts on. -/
def recordClaimed (claimed : List (String × Nat)) (label : String) (after : Nat) :
    FetchPage π → List (String × Nat)
  | .entries _ nextCursor _ => claimed ++ [(label, after), (label, nextCursor)]
  | _ => claimed

end RelayLog

/-- One operation of the relay. -/
def relayStep [DecidableEq π] (len : π → Nat) (s : RelayLog π) : RelayInput π → RelayLog π
  | .push label id payload =>
    let (answer, relay) := s.relay.push len label id payload
    { s with relay := relay, assigned := RelayLog.recordAssigned s.assigned label answer }
  | .fetch label after limit =>
    let (page, relay) := s.relay.fetch label after limit
    { s with relay := relay, claimed := RelayLog.recordClaimed s.claimed label after page }
  | .compact label => { s with relay := s.relay.compact len label }
  | .sweepExpired => { s with relay := s.relay.sweepExpired len }
  | .tick => { s with relay := s.relay.advance }

/-- A relay from its start. -/
def relayMachine [DecidableEq π] (len : π → Nat) (policy : RelayPolicy) :
    Machine (RelayLog π) (RelayInput π) where
  init := ⟨Relay.new policy, [], []⟩
  step := relayStep len

/-! ## Numbers assigned -/

/-- The highest of some sequence numbers, or 0. -/
def highest (seqs : List Nat) : Nat := seqs.foldr max 0

theorem le_highest {seqs : List Nat} {seq : Nat} (h : seq ∈ seqs) : seq ≤ highest seqs := by
  induction seqs with
  | nil => cases h
  | cons first rest ih =>
    obtain rfl | h := List.mem_cons.1 h
    · exact Nat.le_max_left _ _
    · exact Nat.le_trans (ih h) (Nat.le_max_right _ _)

theorem highest_le {seqs : List Nat} {bound : Nat} (h : ∀ seq ∈ seqs, seq ≤ bound) :
    highest seqs ≤ bound := by
  induction seqs with
  | nil => exact Nat.zero_le _
  | cons first rest ih =>
    exact Nat.max_le.2 ⟨h first List.mem_cons_self,
      ih fun seq hseq => h seq (List.mem_cons_of_mem _ hseq)⟩

/-! ## Buckets -/

namespace Bucket

theorem retainedBytes_eq (len : π → Nat) (b : Bucket π) :
    b.retainedBytes len = (b.entries.map fun entry => len entry.payload).sum := by
  have hfold (entries : List (QueueEntry π)) (start : Nat) :
      entries.foldl (fun sum entry => sum + len entry.payload) start =
        start + (entries.map fun entry => len entry.payload).sum := by
    induction entries generalizing start with
    | nil => rfl
    | cons entry entries ih =>
      rw [List.foldl_cons, ih, List.map_cons, List.sum_cons, Nat.add_assoc]
  exact (hfold b.entries 0).trans (Nat.zero_add _)

/-- A bucket and the numbers assigned in it: it retains those above its boundary, in
order, and has counted the others. -/
structure Retains (len : π → Nat) (policy : RelayPolicy) (nextSeq tick : Nat)
    (assigned : List Nat) (b : Bucket π) : Prop where
  ascending : assigned.Pairwise (· < ·)
  range : ∀ seq ∈ assigned, 0 < seq ∧ seq < nextSeq
  retained : b.entries.map QueueEntry.seq = assigned.filter fun seq => b.compactedUpTo < seq
  boundary : b.compactedUpTo ≤ highest assigned
  cursor : b.cursor ≤ highest assigned
  ids : b.entries.Pairwise fun x y => x.id ≠ y.id
  depth : b.entries.length ≤ policy.maxBucketDepth
  bytes : b.retainedBytes len ≤ policy.maxBucketBytes
  aged : b.entries.Pairwise fun x y => x.pushedTick ≤ y.pushedTick
  ticked : ∀ entry ∈ b.entries, entry.pushedTick ≤ tick
  counted : b.compactedPayloads + b.entries.length = assigned.length

variable {len : π → Nat} {policy : RelayPolicy} {nextSeq tick : Nat} {assigned : List Nat}
  {b : Bucket π}

theorem retains_empty : (empty : Bucket π).Retains len policy nextSeq tick [] where
  ascending := .nil
  range _ h := absurd h List.not_mem_nil
  retained := rfl
  boundary := Nat.le_refl _
  cursor := Nat.le_refl _
  ids := .nil
  depth := Nat.zero_le _
  bytes := Nat.zero_le _
  aged := .nil
  ticked _ h := absurd h List.not_mem_nil
  counted := rfl

namespace Retains

theorem increasing (h : b.Retains len policy nextSeq tick assigned) :
    b.entries.Pairwise fun x y => x.seq < y.seq := by
  have hseqs : (b.entries.map QueueEntry.seq).Pairwise (· < ·) := by
    rw [h.retained]
    exact h.ascending.filter _
  exact List.pairwise_map.1 hseqs

theorem mem_iff (h : b.Retains len policy nextSeq tick assigned) {seq : Nat} :
    seq ∈ b.entries.map QueueEntry.seq ↔ seq ∈ assigned ∧ b.compactedUpTo < seq := by
  rw [h.retained, List.mem_filter, decide_eq_true_eq]

theorem of_mem (h : b.Retains len policy nextSeq tick assigned) {entry : QueueEntry π}
    (hentry : entry ∈ b.entries) : entry.seq ∈ assigned ∧ b.compactedUpTo < entry.seq :=
  h.mem_iff.1 (List.mem_map_of_mem hentry)

/-- The frontier is the highest number assigned. -/
theorem frontier_eq (h : b.Retains len policy nextSeq tick assigned) :
    b.frontier = highest assigned := by
  unfold frontier
  split
  · rename_i last hlast
    have hmem := h.of_mem (List.mem_of_getLast? hlast)
    refine Nat.le_antisymm (le_highest hmem.1) (highest_le fun seq hseq => ?_)
    by_cases hkept : b.compactedUpTo < seq
    · obtain ⟨entry, hentry, rfl⟩ := List.mem_map.1 (h.mem_iff.2 ⟨hseq, hkept⟩)
      obtain ⟨front, hfront⟩ := List.getLast?_eq_some_iff.1 hlast
      have hinc := h.increasing
      rw [hfront] at hentry hinc
      obtain hentry | hentry := List.mem_append.1 hentry
      · exact Nat.le_of_lt
          ((List.pairwise_append.1 hinc).2.2 entry hentry last (List.mem_singleton.2 rfl))
      · exact Nat.le_of_eq (congrArg QueueEntry.seq (List.mem_singleton.1 hentry))
    · have := hmem.2
      omega
  · rename_i hnone
    refine Nat.le_antisymm h.boundary (highest_le fun seq hseq => ?_)
    by_contra hkept
    obtain ⟨entry, hentry, -⟩ := List.mem_map.1 (h.mem_iff.2 ⟨hseq, Nat.lt_of_not_le hkept⟩)
    rw [List.getLast?_eq_none_iff.1 hnone] at hentry
    cases hentry

theorem mono (h : b.Retains len policy nextSeq tick assigned) {nextSeq' tick' : Nat}
    (hseq : nextSeq ≤ nextSeq') (htick : tick ≤ tick') :
    b.Retains len policy nextSeq' tick' assigned :=
  { h with
    range := fun seq hmem => ⟨(h.range seq hmem).1, Nat.lt_of_lt_of_le (h.range seq hmem).2 hseq⟩
    ticked := fun entry hentry => Nat.le_trans (h.ticked entry hentry) htick }

theorem highest_lt (h : b.Retains len policy nextSeq tick assigned) (hpos : 0 < nextSeq) :
    highest assigned < nextSeq := by
  have hle : highest assigned ≤ nextSeq - 1 := highest_le fun seq hseq => by
    have := (h.range seq hseq).2
    omega
  omega

/-- One more entry. -/
theorem append (h : b.Retains len policy nextSeq tick assigned) (hpos : 0 < nextSeq) {id : String}
    {payload : π} (hadmits : Relay.Admits policy len b id payload) :
    ({ b with entries := b.entries ++ [⟨nextSeq, id, payload, tick, false⟩] } : Bucket π).Retains
      len policy (nextSeq + 1) tick (assigned ++ [nextSeq]) := by
  have hhigh := h.highest_lt hpos
  have hgrown : highest assigned ≤ highest (assigned ++ [nextSeq]) :=
    highest_le fun seq hseq => le_highest (List.mem_append_left _ hseq)
  constructor
  · rw [List.pairwise_append]
    refine ⟨h.ascending, List.pairwise_singleton _ _, fun x hx y hy => ?_⟩
    rw [List.mem_singleton.1 hy]
    exact (h.range x hx).2
  · intro seq hseq
    obtain hseq | hseq := List.mem_append.1 hseq
    · exact ⟨(h.range seq hseq).1, Nat.lt_succ_of_lt (h.range seq hseq).2⟩
    · rw [List.mem_singleton.1 hseq]
      exact ⟨hpos, Nat.lt_succ_self _⟩
  · have hnew : b.compactedUpTo < nextSeq := Nat.lt_of_le_of_lt h.boundary hhigh
    rw [List.map_append, List.filter_append, h.retained]
    simp [hnew]
  · exact Nat.le_trans h.boundary hgrown
  · exact Nat.le_trans h.cursor hgrown
  · rw [List.pairwise_append]
    refine ⟨h.ids, List.pairwise_singleton _ _, fun x hx y hy => ?_⟩
    rw [List.mem_singleton.1 hy]
    exact hadmits.fresh x hx
  · rw [List.length_append, List.length_singleton]
    exact hadmits.depth
  · have hbytes := hadmits.bytes
    rw [retainedBytes_eq] at hbytes ⊢
    rw [List.map_append, List.sum_append]
    exact hbytes
  · rw [List.pairwise_append]
    refine ⟨h.aged, List.pairwise_singleton _ _, fun x hx y hy => ?_⟩
    rw [List.mem_singleton.1 hy]
    exact h.ticked x hx
  · intro entry hentry
    obtain hentry | hentry := List.mem_append.1 hentry
    · exact h.ticked entry hentry
    · exact Nat.le_of_eq (congrArg QueueEntry.pushedTick (List.mem_singleton.1 hentry))
  · rw [List.length_append, List.length_append, ← h.counted, Nat.add_assoc]
    rfl

/-- Entries are marked as fetched and the cursor moves, at most to the frontier. -/
theorem fetched (h : b.Retains len policy nextSeq tick assigned) {mark : QueueEntry π → QueueEntry π}
    (hmark : ∀ entry, mark entry = { entry with fetched := (mark entry).fetched }) {cursor : Nat}
    (hcursor : cursor ≤ highest assigned) :
    ({ b with entries := b.entries.map mark, cursor := cursor } : Bucket π).Retains len policy
      nextSeq tick assigned := by
  have hseq (entry : QueueEntry π) : (mark entry).seq = entry.seq := by rw [hmark]
  have hid (entry : QueueEntry π) : (mark entry).id = entry.id := by rw [hmark]
  have hpayload (entry : QueueEntry π) : (mark entry).payload = entry.payload := by rw [hmark]
  have htick (entry : QueueEntry π) : (mark entry).pushedTick = entry.pushedTick := by rw [hmark]
  refine ⟨h.ascending, h.range, ?_, h.boundary, hcursor, ?_, ?_, ?_, ?_, ?_, ?_⟩
  · rw [List.map_map, ← h.retained]
    exact List.map_congr_left fun entry _ => hseq entry
  · rw [List.pairwise_map]
    simpa only [hid] using h.ids
  · rw [List.length_map]
    exact h.depth
  · have hbytes := h.bytes
    rw [retainedBytes_eq] at hbytes ⊢
    simpa only [List.map_map, Function.comp_def, hpayload] using hbytes
  · rw [List.pairwise_map]
    simpa only [htick] using h.aged
  · intro entry hentry
    obtain ⟨old, hold, rfl⟩ := List.mem_map.1 hentry
    rw [htick]
    exact h.ticked old hold
  · rw [List.length_map]
    exact h.counted

/-- What is left above a boundary. -/
theorem compactTo_entries (h : b.Retains len policy nextSeq tick assigned) (boundary : Nat) :
    (Relay.compactTo len b boundary).entries =
      b.entries.filter fun entry => boundary < entry.seq :=
  dropWhile_le_eq_filter h.increasing boundary

/-- Folding up to a boundary not above the frontier. -/
theorem compactTo (h : b.Retains len policy nextSeq tick assigned) {boundary : Nat}
    (hboundary : boundary ≤ highest assigned) :
    (Relay.compactTo len b boundary).Retains len policy nextSeq tick assigned := by
  have hsub : List.Sublist (Relay.compactTo len b boundary).entries b.entries :=
    List.dropWhile_sublist _
  refine ⟨h.ascending, h.range, ?_, Nat.max_le.2 ⟨h.boundary, hboundary⟩, h.cursor,
    h.ids.sublist hsub, Nat.le_trans hsub.length_le h.depth, Nat.le_trans ?_ h.bytes,
    h.aged.sublist hsub, fun entry hentry => h.ticked entry (hsub.subset hentry), ?_⟩
  · have hmap : (b.entries.filter fun entry => boundary < entry.seq).map QueueEntry.seq =
        (b.entries.map QueueEntry.seq).filter fun seq => boundary < seq := by
      rw [List.filter_map]
      rfl
    rw [h.compactTo_entries, hmap, h.retained, List.filter_filter]
    refine List.filter_congr fun seq _ => ?_
    rw [← Bool.decide_and]
    exact decide_eq_decide.2 (and_comm.trans Nat.max_lt.symm)
  · rw [retainedBytes_eq, retainedBytes_eq]
    exact (hsub.map _).sum_le_sum fun _ _ => Nat.zero_le _
  · have hsplit := congrArg List.length
      (List.takeWhile_append_dropWhile (p := fun entry => entry.seq ≤ boundary) (l := b.entries))
    rw [List.length_append] at hsplit
    rw [← h.counted, ← hsplit, ← Nat.add_assoc]
    rfl

end Retains

end Bucket

/-! ## One operation -/

namespace Relay

theorem push_frame [DecidableEq π] (len : π → Nat) (r : Relay π) (label id : String)
    (payload : π) :
    (r.push len label id payload).2.policy = r.policy ∧
      (r.push len label id payload).2.tick = r.tick := by
  unfold push
  split
  · exact ⟨rfl, rfl⟩
  split
  · exact ⟨rfl, rfl⟩
  dsimp only
  split
  · split <;> exact ⟨rfl, rfl⟩
  split
  · exact ⟨rfl, rfl⟩
  split <;> exact ⟨rfl, rfl⟩

theorem bucket_compact (len : π → Nat) (r : Relay π) (label x : String) :
    (r.compact len label).bucket x =
      if label = x then compactTo len (r.bucket x) (r.bucket x).cursor else r.bucket x := by
  simp only [bucket, compact, Table.getElem?_update]
  split
  · cases r.buckets[x]? <;> rfl
  · rfl

/-- Whether a sweep removes an entry. -/
def expired (r : Relay π) (entry : QueueEntry π) : Bool :=
  r.policy.maxAgeTicks < r.tick - entry.pushedTick

/-- How far a sweep goes in a bucket. -/
def sweepBoundary (r : Relay π) (slot : Bucket π) : Nat :=
  ((slot.entries.takeWhile r.expired).map QueueEntry.seq).max?.getD slot.compactedUpTo

theorem bucket_sweepExpired (len : π → Nat) (r : Relay π) (x : String) :
    (r.sweepExpired len).bucket x = compactTo len (r.bucket x) (r.sweepBoundary (r.bucket x)) := by
  simp only [bucket, sweepExpired, Std.ExtTreeMap.getElem?_map]
  cases r.buckets[x]? <;> rfl

end Relay

namespace Bucket.Retains

variable {len : π → Nat} {policy : RelayPolicy} {nextSeq tick : Nat} {assigned : List Nat}
  {b : Bucket π}

/-- A page ends at a number of the bucket. -/
theorem pageEnd_le (h : b.Retains len policy nextSeq tick assigned) {after : Nat} (limit : Nat)
    (hafter : after ≤ b.frontier) : Relay.pageEnd b after limit ≤ highest assigned := by
  rw [h.frontier_eq] at hafter
  unfold Relay.pageEnd
  cases hlast : ((Relay.entriesAfter b after).take limit).getLast? with
  | none => exact hafter
  | some last =>
    have hmem := List.mem_of_mem_take (List.mem_of_getLast? hlast)
    exact le_highest (h.of_mem (List.mem_of_mem_filter hmem)).1

/-- A sweep goes to a number of the bucket, or not beyond its boundary. -/
theorem sweepBoundary_le (h : b.Retains len policy nextSeq tick assigned) (r : Relay π) :
    r.sweepBoundary b ≤ highest assigned := by
  unfold Relay.sweepBoundary
  cases hmax : ((b.entries.takeWhile r.expired).map QueueEntry.seq).max? with
  | none => exact h.boundary
  | some seq =>
    obtain ⟨entry, hentry, rfl⟩ := List.mem_map.1 (List.max?_mem hmax)
    exact le_highest (h.of_mem (List.takeWhile_subset _ hentry)).1

/-- A sweep removes the entries that are too old, and those only. -/
theorem swept (h : b.Retains len policy nextSeq tick assigned) (r : Relay π) :
    (Relay.compactTo len b (r.sweepBoundary b)).entries =
      b.entries.filter fun entry => !r.expired entry := by
  have hdrop : b.entries.dropWhile r.expired = b.entries.filter fun entry => !r.expired entry := by
    refine dropWhile_eq_filter (h.aged.imp fun hle hold => ?_)
    simp only [Relay.expired, decide_eq_true_eq] at hold ⊢
    omega
  rw [h.compactTo_entries, ← hdrop]
  have hsplit : b.entries = b.entries.takeWhile r.expired ++ b.entries.dropWhile r.expired :=
    List.takeWhile_append_dropWhile.symm
  have hinc := h.increasing
  rw [hsplit, List.pairwise_append] at hinc
  obtain ⟨-, -, hcross⟩ := hinc
  -- The boundary is the last of the old entries, if there is one.
  have hold (entry : QueueEntry π) (hentry : entry ∈ b.entries.takeWhile r.expired) :
      entry.seq ≤ r.sweepBoundary b := by
    have hseq := List.mem_map_of_mem (f := QueueEntry.seq) hentry
    unfold Relay.sweepBoundary
    cases hmax : ((b.entries.takeWhile r.expired).map QueueEntry.seq).max? with
    | none =>
      rw [List.max?_eq_none_iff.1 hmax] at hseq
      cases hseq
    | some seq => exact (List.max?_eq_some_iff.1 hmax).2 _ hseq
  have hyoung (entry : QueueEntry π) (hentry : entry ∈ b.entries.dropWhile r.expired) :
      r.sweepBoundary b < entry.seq := by
    unfold Relay.sweepBoundary
    cases hmax : ((b.entries.takeWhile r.expired).map QueueEntry.seq).max? with
    | none => exact (h.of_mem (List.dropWhile_subset _ hentry)).2
    | some seq =>
      obtain ⟨old, hold, rfl⟩ := List.mem_map.1 (List.max?_mem hmax)
      exact hcross old hold entry hentry
  conv_lhs => rw [hsplit]
  rw [List.filter_append, List.filter_eq_nil_iff.2, List.nil_append, List.filter_eq_self.2]
  · exact fun entry hentry => decide_eq_true (hyoung entry hentry)
  · intro entry hentry
    have := hold entry hentry
    simp only [decide_eq_true_eq]
    omega

end Bucket.Retains

/-! ## Whole runs -/

namespace RelayLog

/-- A cursor that a receiver named, or the start. -/
def Claimed (claimed : List (String × Nat)) (label : String) (cursor : Nat) : Prop :=
  cursor = 0 ∨ (label, cursor) ∈ claimed

theorem Claimed.mono {claimed claimed' : List (String × Nat)} {label : String} {cursor : Nat}
    (h : Claimed claimed label cursor) (hsub : claimed ⊆ claimed') :
    Claimed claimed' label cursor :=
  h.imp_right (hsub ·)

theorem Claimed.max {claimed : List (String × Nat)} {label : String} {m n : Nat}
    (hm : Claimed claimed label m) (hn : Claimed claimed label n) :
    Claimed claimed label (max m n) := by
  obtain hmax | hmax := max_choice m n
  · rwa [hmax]
  · rwa [hmax]

/-- Every bucket retains what was assigned in it above its boundary, and its cursor
is one that a receiver named. -/
structure Kept (len : π → Nat) (policy : RelayPolicy) (s : RelayLog π) : Prop where
  inForce : s.relay.policy = policy
  nextSeq : 0 < s.relay.nextSeq
  buckets : ∀ label, (s.relay.bucket label).Retains len policy s.relay.nextSeq s.relay.tick
    (s.assignedTo label)
  claimed : ∀ label, Claimed s.claimed label (s.relay.bucket label).cursor

variable {len : π → Nat} {policy : RelayPolicy} {s : RelayLog π}

theorem kept_new : Kept len policy (⟨Relay.new policy, [], []⟩ : RelayLog π) where
  inForce := rfl
  nextSeq := Nat.one_pos
  buckets label := by
    have hbucket : (Relay.new policy : Relay π).bucket label = .empty := by
      simp [Relay.bucket, Relay.new]
    rw [hbucket]
    exact Bucket.retains_empty
  claimed label := .inl (by simp [Relay.bucket, Relay.new, Bucket.empty])

theorem recordAssigned_of_not {assigned : List (String × Nat)} {label : String}
    {answer : Except RelayError PushOutcome} (h : ∀ seq, answer ≠ .ok (.pushed seq)) :
    recordAssigned assigned label answer = assigned := by
  unfold recordAssigned
  split
  · exact absurd rfl (h _)
  · rfl

theorem assignedTo_append (s : RelayLog π) (label : String) (seq : Nat) (relay : Relay π)
    (x : String) :
    ({ s with relay := relay, assigned := s.assigned ++ [(label, seq)] } : RelayLog π).assignedTo x =
      s.assignedTo x ++ if label = x then [seq] else [] := by
  unfold assignedTo
  rw [List.filterMap_append]
  congr 1
  by_cases hx : label = x <;> simp [hx]

theorem Kept.push [DecidableEq π] (h : s.Kept len policy) (label id : String) (payload : π) :
    (relayStep len s (.push label id payload)).Kept len policy := by
  obtain ⟨hpolicy, htick⟩ := s.relay.push_frame len label id payload
  obtain ⟨hnot, hseq, hsame⟩ | ⟨hpushed, hseq, hgrown, hadmits⟩ :=
    s.relay.push_bucket len label id payload
  · have hstep : relayStep len s (.push label id payload) =
        { s with relay := (s.relay.push len label id payload).2 } := by
      simp only [relayStep, recordAssigned_of_not hnot]
    rw [hstep]
    refine ⟨hpolicy.trans h.inForce, hseq ▸ h.nextSeq, fun x => ?_, fun x => ?_⟩
    · dsimp only
      rw [hsame, hseq, htick]
      exact h.buckets x
    · dsimp only
      rw [hsame]
      exact h.claimed x
  · have hstep : relayStep len s (.push label id payload) =
        { s with relay := (s.relay.push len label id payload).2,
                 assigned := s.assigned ++ [(label, s.relay.nextSeq)] } := by
      simp only [relayStep, hpushed, recordAssigned]
    rw [hstep]
    refine ⟨hpolicy.trans h.inForce, hseq ▸ Nat.succ_pos _, fun x => ?_, fun x => ?_⟩
    · rw [assignedTo_append]
      dsimp only
      rw [hgrown, hseq, htick]
      split
      · rename_i hx
        subst hx
        rw [h.inForce] at hadmits
        exact (h.buckets label).append h.nextSeq hadmits
      · rw [List.append_nil]
        exact (h.buckets x).mono (Nat.le_succ _) (Nat.le_refl _)
    · dsimp only
      rw [hgrown]
      split
      · rename_i hx
        subst hx
        exact h.claimed label
      · exact h.claimed x

theorem Kept.fetch [DecidableEq π] (h : s.Kept len policy) (label : String) (after limit : Nat) :
    (relayStep len s (.fetch label after limit)).Kept len policy := by
  have hclaims : s.claimed ⊆
      recordClaimed s.claimed label after (s.relay.fetch label after limit).1 := by
    unfold recordClaimed
    split
    · exact List.subset_append_left _ _
    · exact List.Subset.refl _
  obtain heq | ⟨mark, hmark, hfrontier, ⟨items, more, hpage⟩, heq⟩ :=
    s.relay.fetch_cases label after limit
  · refine ⟨?_, ?_, fun x => ?_, fun x => ?_⟩ <;> simp only [relayStep, heq]
    · exact h.inForce
    · exact h.nextSeq
    · exact h.buckets x
    · exact (h.claimed x).mono hclaims
  · have hend := (h.buckets label).pageEnd_le limit hfrontier
    rw [(h.buckets label).frontier_eq] at hfrontier
    refine ⟨?_, ?_, fun x => ?_, fun x => ?_⟩ <;> simp only [relayStep, heq]
    · exact h.inForce
    · exact h.nextSeq
    · rw [Relay.bucket_insert]
      split
      · rename_i hx
        subst hx
        exact (h.buckets label).fetched hmark
          (Nat.max_le.2 ⟨Nat.max_le.2 ⟨(h.buckets label).cursor, hfrontier⟩, hend⟩)
      · exact h.buckets x
    · rw [Relay.bucket_insert]
      split
      · rename_i hx
        subst hx
        -- The cursor is the largest of three, each of them claimed.
        refine (((h.claimed label).mono hclaims).max ?_).max ?_ <;> rw [hpage]
        · exact .inr (List.mem_append_right _ (List.mem_cons_self ..))
        · exact .inr (List.mem_append_right _ (List.mem_cons_of_mem _ (List.mem_cons_self ..)))
      · exact (h.claimed x).mono hclaims

theorem Kept.compact [DecidableEq π] (h : s.Kept len policy) (label : String) :
    (relayStep len s (.compact label)).Kept len policy := by
  refine ⟨h.inForce, h.nextSeq, fun x => ?_, fun x => ?_⟩ <;>
    simp only [relayStep, Relay.bucket_compact] <;> split
  · exact (h.buckets x).compactTo (h.buckets x).cursor
  · exact h.buckets x
  · exact h.claimed x
  · exact h.claimed x

theorem Kept.sweepExpired [DecidableEq π] (h : s.Kept len policy) :
    (relayStep len s .sweepExpired).Kept len policy := by
  refine ⟨h.inForce, h.nextSeq, fun x => ?_, fun x => ?_⟩ <;>
    simp only [relayStep, Relay.bucket_sweepExpired]
  · exact (h.buckets x).compactTo ((h.buckets x).sweepBoundary_le s.relay)
  · exact h.claimed x

theorem kept_step [DecidableEq π] (h : s.Kept len policy) (i : RelayInput π) :
    (relayStep len s i).Kept len policy := by
  cases i with
  | push label id payload => exact h.push label id payload
  | fetch label after limit => exact h.fetch label after limit
  | compact label => exact h.compact label
  | sweepExpired => exact h.sweepExpired
  | tick =>
    exact ⟨h.inForce, h.nextSeq, fun x => (h.buckets x).mono (Nat.le_refl _) (Nat.le_succ _),
      h.claimed⟩

theorem kept_run [DecidableEq π] (len : π → Nat) (policy : RelayPolicy)
    (inputs : List (RelayInput π)) : ((relayMachine len policy).run inputs).Kept len policy :=
  (relayMachine len policy).invariant (I := Kept len policy) (fun _ i h => kept_step h i) kept_new
    inputs

end RelayLog

/-! ## The bucket invariant -/

/-- What the paging of a bucket relies on, the quotas in force and the bookkeeping. -/
structure Bucket.Sound (len : π → Nat) (policy : RelayPolicy) (nextSeq : Nat)
    (assigned : List Nat) (b : Bucket π) : Prop where
  increasing : b.entries.Pairwise fun x y => x.seq < y.seq
  above : ∀ entry ∈ b.entries, b.compactedUpTo < entry.seq
  below : ∀ entry ∈ b.entries, entry.seq < nextSeq
  ids : b.entries.Pairwise fun x y => x.id ≠ y.id
  depth : b.entries.length ≤ policy.maxBucketDepth
  bytes : b.retainedBytes len ≤ policy.maxBucketBytes
  cursor : b.cursor ≤ highest assigned
  counted : b.compactedPayloads + b.entries.length = assigned.length

theorem Bucket.Retains.sound {len : π → Nat} {policy : RelayPolicy} {nextSeq tick : Nat}
    {assigned : List Nat} {b : Bucket π} (h : b.Retains len policy nextSeq tick assigned) :
    b.Sound len policy nextSeq assigned where
  increasing := h.increasing
  above _ hentry := (h.of_mem hentry).2
  below entry hentry := (h.range entry.seq (h.of_mem hentry).1).2
  ids := h.ids
  depth := h.depth
  bytes := h.bytes
  cursor := h.cursor
  counted := h.counted

/-- A push that is not accepted changes no bucket. -/
def Relay.PushesWhole [DecidableEq π] (len : π → Nat) (r : Relay π) (label id : String)
    (payload : π) : Prop :=
  match (r.push len label id payload).1 with
  | .ok (.pushed _) => True
  | .ok (.duplicate _) | .error _ => ∀ x, (r.push len label id payload).2.bucket x = r.bucket x

/-- **Bucket invariant.**  After any operations of the relay every bucket is sound, and
the next push is accepted or changes nothing. -/
theorem relay_sound [DecidableEq π] (len : π → Nat) (policy : RelayPolicy)
    (inputs : List (RelayInput π)) :
    let s := (relayMachine len policy).run inputs
    (∀ label, (s.relay.bucket label).Sound len policy s.relay.nextSeq (s.assignedTo label)) ∧
      ∀ label id payload, s.relay.PushesWhole len label id payload := by
  intro s
  have hkept : s.Kept len policy := RelayLog.kept_run len policy inputs
  refine ⟨fun label => (hkept.buckets label).sound, fun label id payload => ?_⟩
  unfold Relay.PushesWhole
  obtain ⟨-, -, hsame⟩ | ⟨hpushed, -⟩ := s.relay.push_bucket len label id payload
  · split
    · trivial
    · exact hsame
    · exact hsame
  · rw [hpushed]
    trivial

/-! ## Compaction -/

namespace Bucket.Retains

variable {len : π → Nat} {policy : RelayPolicy} {nextSeq tick : Nat} {assigned : List Nat}
  {b : Bucket π}

/-- Pages from the boundary on are as before. -/
theorem page_compactTo (h : b.Retains len policy nextSeq tick assigned) {boundary : Nat}
    (hboundary : boundary ≤ highest assigned) (after limit : Nat) :
    Relay.page (Relay.compactTo len b boundary) after limit =
      if after < (Relay.compactTo len b boundary).compactedUpTo then
        .compacted (Relay.compactTo len b boundary).compactedUpTo
      else Relay.page b after limit := by
  conv_lhs => unfold Relay.page
  split
  · rfl
  · rename_i hafter
    obtain ⟨hold, hnew⟩ : b.compactedUpTo ≤ after ∧ boundary ≤ after := by
      have hle : max b.compactedUpTo boundary ≤ after := Nat.le_of_not_lt hafter
      exact ⟨Nat.le_trans (Nat.le_max_left _ _) hle, Nat.le_trans (Nat.le_max_right _ _) hle⟩
    have hentries : Relay.entriesAfter (Relay.compactTo len b boundary) after =
        Relay.entriesAfter b after := by
      unfold Relay.entriesAfter
      rw [h.compactTo_entries, List.filter_filter]
      refine List.filter_congr fun entry _ => ?_
      rw [← Bool.decide_and]
      refine decide_eq_decide.2 (and_iff_left_of_imp fun hlt => ?_)
      exact Nat.lt_of_le_of_lt hnew hlt
    rw [(h.compactTo hboundary).frontier_eq, ← h.frontier_eq]
    unfold Relay.page Relay.pageEnd
    rw [if_neg (Nat.not_lt_of_le hold), hentries]

/-- A number that is no longer retained is at or below the boundary. -/
theorem page_of_reclaimed (h : b.Retains len policy nextSeq tick assigned) {seq : Nat}
    (hassigned : seq ∈ assigned) (hgone : seq ∉ b.entries.map QueueEntry.seq) {after : Nat}
    (hafter : after < seq) (limit : Nat) :
    Relay.page b after limit = .compacted b.compactedUpTo := by
  have hle : seq ≤ b.compactedUpTo := by
    by_contra hlt
    exact hgone (h.mem_iff.2 ⟨hassigned, Nat.lt_of_not_le hlt⟩)
  exact if_pos (Nat.lt_of_lt_of_le hafter hle)

end Bucket.Retains

/-- The second relay answers as the first from its boundaries on, and below them says
that it compacted. -/
def Relay.SamePages (r r' : Relay π) : Prop :=
  ∀ label after limit, (r'.fetch label after limit).1 =
    if after < (r'.bucket label).compactedUpTo then .compacted (r'.bucket label).compactedUpTo
    else (r.fetch label after limit).1

namespace RelayLog

/-- A receiver that missed an entry that is gone is told so. -/
def TellsLoss (s : RelayLog π) : Prop :=
  ∀ label, ∀ seq ∈ s.assignedTo label, seq ∉ (s.relay.bucket label).entries.map QueueEntry.seq →
    ∀ after < seq, ∀ limit,
      (s.relay.fetch label after limit).1 = .compacted (s.relay.bucket label).compactedUpTo

/-- Compacting a bucket removes what some receiver of it named a cursor for. -/
def CompactsClaimed (len : π → Nat) (s : RelayLog π) (label : String) : Prop :=
  ∀ x, ∀ entry ∈ (s.relay.bucket x).entries,
    entry ∉ ((s.relay.compact len label).bucket x).entries →
      x = label ∧ ∃ cursor, (x, cursor) ∈ s.claimed ∧ entry.seq ≤ cursor

end RelayLog

/-- **Transparent compaction.**  After any operations of the relay, compacting and
sweeping change no answer from the boundary on and are reported below it, a loss is
never silent, compaction takes what a receiver named and a sweep what is too old. -/
theorem compaction_transparent [DecidableEq π] (len : π → Nat) (policy : RelayPolicy)
    (inputs : List (RelayInput π)) :
    let s := (relayMachine len policy).run inputs
    (∀ label, s.relay.SamePages (s.relay.compact len label)) ∧
      s.relay.SamePages (s.relay.sweepExpired len) ∧
      s.TellsLoss ∧
      (∀ label, s.CompactsClaimed len label) ∧
      ∀ label, ((s.relay.sweepExpired len).bucket label).entries =
        (s.relay.bucket label).entries.filter fun entry =>
          !decide (policy.maxAgeTicks < s.relay.tick - entry.pushedTick) := by
  intro s
  have hkept : s.Kept len policy := RelayLog.kept_run len policy inputs
  refine ⟨fun label x after limit => ?_, fun x after limit => ?_,
    fun label seq hseq hgone after hafter limit => ?_, fun label x entry hentry hgone => ?_,
    fun label => ?_⟩
  · rw [Relay.fetch_page, Relay.fetch_page, Relay.bucket_compact]
    split
    · exact (hkept.buckets x).page_compactTo (hkept.buckets x).cursor after limit
    · unfold Relay.page
      split <;> rfl
  · rw [Relay.fetch_page, Relay.fetch_page, Relay.bucket_sweepExpired]
    exact (hkept.buckets x).page_compactTo ((hkept.buckets x).sweepBoundary_le s.relay) after limit
  · rw [Relay.fetch_page]
    exact (hkept.buckets label).page_of_reclaimed hseq hgone hafter limit
  · rw [Relay.bucket_compact] at hgone
    split at hgone
    · rename_i hx
      rw [(hkept.buckets x).compactTo_entries, List.mem_filter, decide_eq_true_eq] at hgone
      have hle : entry.seq ≤ (s.relay.bucket x).cursor :=
        Nat.le_of_not_lt fun hlt => hgone ⟨hentry, hlt⟩
      have hpos := ((hkept.buckets x).range _ ((hkept.buckets x).of_mem hentry).1).1
      obtain hzero | hclaimed := hkept.claimed x
      · omega
      · exact ⟨hx.symm, _, hclaimed, hle⟩
    · exact absurd hentry hgone
  · rw [Relay.bucket_sweepExpired, (hkept.buckets label).swept, ← hkept.inForce]
    rfl

end Altior.Sync
