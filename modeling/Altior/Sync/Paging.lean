import Altior.Sync.Retention

/-!
# Paging through a bucket

A receiver follows the cursors of the pages it fetches while there is more, and
others push between its pages.  It ends, and it is given every entry after the
cursor it started from, in order and once.
-/

namespace Altior.Sync

open Lib

variable {π : Type}

/-- What a push carries. -/
structure Push (π : Type) where
  label : String
  id : String
  payload : π

namespace Relay

/-- Some pushes, one after the other. -/
def pushAll [DecidableEq π] (len : π → Nat) (r : Relay π) (pushes : List (Push π)) : Relay π :=
  pushes.foldl (fun r p => (r.push len p.label p.id p.payload).2) r

/-- Fetches from a cursor on and follows `nextCursor` while there is more; after the
page of number `n` comes what `between n` pushes.  The items, the cursor and the relay
the walk ends with. -/
def walk [DecidableEq π] (len : π → Nat) (label : String) (limit : Nat)
    (between : Nat → List (Push π)) :
    Nat → Nat → Relay π → Nat → Option (List (FetchedItem π) × Nat × Relay π)
  | 0, _, _, _ => none
  | fuel + 1, n, r, after =>
    match r.fetch label after limit with
    | (.entries items nextCursor true, r') =>
      (walk len label limit between fuel (n + 1) (r'.pushAll len (between n)) nextCursor).map
        fun (rest, cursor, relay) => (items ++ rest, cursor, relay)
    | (.entries items nextCursor false, r') =>
      some (items, nextCursor, r'.pushAll len (between n))
    | (.compacted _, r') => some ([], after, r')
    | (.invalidCursor _ _, r') => some ([], after, r')

end Relay

/-! ## The items of a bucket -/

namespace Bucket

/-- What a receiver can be given of a bucket. -/
def items (b : Bucket π) : List (FetchedItem π) :=
  b.entries.map fun entry => ⟨entry.seq, entry.id, entry.payload⟩

/-- What a receiver can be given after a cursor. -/
def itemsAfter (b : Bucket π) (after : Nat) : List (FetchedItem π) :=
  b.items.filter fun item => after < item.seq

theorem itemsAfter_eq (b : Bucket π) (after : Nat) :
    b.itemsAfter after =
      (Relay.entriesAfter b after).map fun entry => ⟨entry.seq, entry.id, entry.payload⟩ := by
  rw [itemsAfter, items, List.filter_map]
  rfl

variable {len : π → Nat} {policy : RelayPolicy} {nextSeq tick : Nat} {assigned : List Nat}
  {b : Bucket π}

theorem Retains.items_increasing (h : b.Retains len policy nextSeq tick assigned) :
    b.items.Pairwise fun x y => x.seq < y.seq := by
  rw [items, List.pairwise_map]
  exact h.increasing

/-- The page of a bucket, in terms of its items. -/
theorem page_entries {after limit nextCursor : Nat} {items : List (FetchedItem π)} {hasMore : Bool}
    (h : Relay.page b after limit = .entries items nextCursor hasMore) :
    after ≤ b.frontier ∧ nextCursor = Relay.pageEnd b after limit ∧
      items = (b.itemsAfter after).take limit ∧
      hasMore = decide (limit < (b.itemsAfter after).length) := by
  unfold Relay.page at h
  split at h
  · cases h
  split at h
  · cases h
  rename_i hfrontier
  cases h
  rw [itemsAfter_eq, List.length_map, ← List.map_take]
  exact ⟨Nat.le_of_not_lt hfrontier, rfl, rfl, rfl⟩

/-- A page and what comes after it. -/
theorem Retains.page_split (h : b.Retains len policy nextSeq tick assigned) {after limit : Nat}
    (hlimit : 0 < limit) :
    b.itemsAfter (Relay.pageEnd b after limit) = (b.itemsAfter after).drop limit := by
  have hinc : (Relay.entriesAfter b after).Pairwise fun x y => x.seq < y.seq :=
    h.increasing.filter _
  rw [itemsAfter_eq, itemsAfter_eq, ← List.map_drop]
  congr 1
  unfold Relay.pageEnd
  cases hlast : ((Relay.entriesAfter b after).take limit).getLast? with
  | none =>
    have hnil : Relay.entriesAfter b after = [] :=
      (List.take_eq_nil_iff.1 (List.getLast?_eq_none_iff.1 hlast)).resolve_left (by omega)
    simp [hnil]
  | some last =>
    have hmem := List.mem_of_mem_take (List.mem_of_getLast? hlast)
    have hlt := of_decide_eq_true (List.mem_filter.1 hmem).2
    rw [← filter_after_page hinc hlast]
    unfold Relay.entriesAfter
    rw [List.filter_filter]
    refine List.filter_congr fun entry _ => ?_
    rw [← Bool.decide_and]
    refine decide_eq_decide.2 (iff_self_and.2 fun hentry => ?_)
    exact Nat.lt_trans hlt hentry

/-- Beyond the frontier there is nothing. -/
theorem Retains.itemsAfter_frontier (h : b.Retains len policy nextSeq tick assigned) {after : Nat}
    (hafter : b.frontier ≤ after) : b.itemsAfter after = [] := by
  rw [itemsAfter, List.filter_eq_nil_iff]
  intro item hitem
  obtain ⟨entry, hentry, rfl⟩ := List.mem_map.1 hitem
  have hle := le_highest (h.of_mem hentry).1
  rw [h.frontier_eq] at hafter
  simp only [decide_eq_true_eq]
  omega

end Bucket

namespace Relay

variable {len : π → Nat} {policy : RelayPolicy} {label : String} {r r' r'' : Relay π}

/-- A relay that some operations lead to. -/
def Reached (len : π → Nat) (policy : RelayPolicy) (r : Relay π) : Prop :=
  ∃ s : RelayLog π, s.relay = r ∧ s.Kept len policy

theorem Reached.push [DecidableEq π] (h : r.Reached len policy) (label id : String)
    (payload : π) : (r.push len label id payload).2.Reached len policy := by
  obtain ⟨s, rfl, hkept⟩ := h
  exact ⟨_, rfl, hkept.push label id payload⟩

theorem Reached.fetch [DecidableEq π] (h : r.Reached len policy) (label : String)
    (after limit : Nat) : (r.fetch label after limit).2.Reached len policy := by
  obtain ⟨s, rfl, hkept⟩ := h
  exact ⟨_, rfl, hkept.fetch label after limit⟩

theorem Reached.retains (h : r.Reached len policy) (label : String) :
    0 < r.nextSeq ∧
      ∃ assigned, (r.bucket label).Retains len policy r.nextSeq r.tick assigned := by
  obtain ⟨s, rfl, hkept⟩ := h
  exact ⟨hkept.nextSeq, _, hkept.buckets label⟩

theorem Reached.items_le (h : r.Reached len policy) (label : String) :
    (r.bucket label).items.length ≤ policy.maxBucketDepth := by
  obtain ⟨-, assigned, hretains⟩ := h.retains label
  rw [Bucket.items, List.length_map]
  exact hretains.depth

/-- A bucket that was only pushed to and read. -/
structure Grows (label : String) (r r' : Relay π) : Prop where
  nextSeq : r.nextSeq ≤ r'.nextSeq
  boundary : (r'.bucket label).compactedUpTo = (r.bucket label).compactedUpTo
  items : ∃ new, (r'.bucket label).items = (r.bucket label).items ++ new ∧
    ∀ item ∈ new, r.nextSeq ≤ item.seq

theorem Grows.refl (label : String) (r : Relay π) : Grows label r r :=
  ⟨Nat.le_refl _, rfl, [], (List.append_nil _).symm, by simp⟩

theorem Grows.trans (h : Grows label r r') (h' : Grows label r' r'') : Grows label r r'' := by
  obtain ⟨new, hnew, hlater⟩ := h.items
  obtain ⟨new', hnew', hlater'⟩ := h'.items
  refine ⟨Nat.le_trans h.nextSeq h'.nextSeq, h'.boundary.trans h.boundary, new ++ new', ?_,
    fun item hitem => ?_⟩
  · rw [hnew', hnew, List.append_assoc]
  · obtain hitem | hitem := List.mem_append.1 hitem
    · exact hlater item hitem
    · exact Nat.le_trans h.nextSeq (hlater' item hitem)

theorem grows_fetch (r : Relay π) (label x : String) (after limit : Nat) :
    Grows label r (r.fetch x after limit).2 := by
  obtain heq | ⟨mark, hmark, -, -, heq⟩ := r.fetch_cases x after limit
  · rw [heq]
    exact .refl label r
  · rw [heq]
    refine ⟨Nat.le_refl _, ?_, [], ?_, by simp⟩
    · rw [bucket_insert]
      split
      · rename_i hx
        rw [hx, afterPage]
      · rfl
    rw [List.append_nil, bucket_insert]
    split
    · rename_i hx
      subst hx
      rw [Bucket.items, afterPage, List.map_map]
      refine List.map_congr_left fun entry _ => ?_
      rw [Function.comp_apply, hmark]
    · rfl

theorem grows_push [DecidableEq π] (len : π → Nat) (r : Relay π) (label x id : String)
    (payload : π) : Grows label r (r.push len x id payload).2 := by
  obtain ⟨-, hseq, hsame⟩ | ⟨-, hseq, hgrown, -⟩ := r.push_bucket len x id payload
  · refine ⟨Nat.le_of_eq hseq.symm, by rw [hsame], [], ?_, by simp⟩
    rw [hsame, List.append_nil]
  · refine ⟨hseq ▸ Nat.le_succ _, ?_, if x = label then [⟨r.nextSeq, id, payload⟩] else [], ?_, ?_⟩
    · rw [hgrown]
      split
      · rename_i hx
        rw [hx]
      · rfl
    · rw [hgrown]
      split
      · rename_i hx
        subst hx
        rw [Bucket.items, List.map_append]
        rfl
      · rw [List.append_nil]
    · intro item hitem
      split at hitem
      · rw [List.mem_singleton.1 hitem]
      · cases hitem

theorem pushAll_grows [DecidableEq π] (label : String) (pushes : List (Push π))
    (h : r.Reached len policy) :
    Grows label r (r.pushAll len pushes) ∧ (r.pushAll len pushes).Reached len policy := by
  induction pushes generalizing r with
  | nil => exact ⟨.refl label r, h⟩
  | cons p pushes ih =>
    obtain ⟨hgrows, hreached⟩ := ih (h.push p.label p.id p.payload)
    exact ⟨(grows_push len r label p.label p.id p.payload).trans hgrows, hreached⟩

/-- What a bucket gained comes after every cursor a receiver can have. -/
theorem Grows.itemsAfter (h : Grows label r r') :
    ∃ new, (r'.bucket label).items = (r.bucket label).items ++ new ∧
      ∀ cursor < r.nextSeq, (r'.bucket label).itemsAfter cursor =
        (r.bucket label).itemsAfter cursor ++ new := by
  obtain ⟨new, hnew, hlater⟩ := h.items
  refine ⟨new, hnew, fun cursor hcursor => ?_⟩
  rw [Bucket.itemsAfter, hnew, List.filter_append, Bucket.itemsAfter]
  congr 1
  rw [List.filter_eq_self]
  intro item hitem
  exact decide_eq_true (Nat.lt_of_lt_of_le hcursor (hlater item hitem))

/-- A walk from a cursor was given what was there, and what it was not given of what is
there now comes after the cursor it ends with. -/
structure Walked (len : π → Nat) (policy : RelayPolicy) (label : String) (after : Nat)
    (r : Relay π) (given : List (FetchedItem π)) (cursor : Nat) (r' : Relay π) : Prop where
  reached : r'.Reached len policy
  grows : Grows label r r'
  held : (r.bucket label).itemsAfter after <+: given
  left : given ++ (r'.bucket label).itemsAfter cursor = (r'.bucket label).itemsAfter after

variable {after limit : Nat}

/-- The last page. -/
theorem walked_last (h : r.Reached len policy) (hlimit : 0 < limit)
    (hafter : after ≤ (r.bucket label).frontier)
    (hlast : ((r.bucket label).itemsAfter after).length ≤ limit) (hgrows : Grows label r r')
    (hreached : r'.Reached len policy) :
    Walked len policy label after r (((r.bucket label).itemsAfter after).take limit)
      (pageEnd (r.bucket label) after limit) r' := by
  obtain ⟨hpos, assigned, hretains⟩ := h.retains label
  have hfrontier := hretains.frontier_eq ▸ hretains.highest_lt hpos
  have hend := Nat.lt_of_le_of_lt (hretains.pageEnd_le limit hafter)
    (hretains.highest_lt hpos)
  obtain ⟨new, -, hnew⟩ := hgrows.itemsAfter
  rw [List.take_of_length_le hlast]
  refine ⟨hreached, hgrows, List.prefix_rfl, ?_⟩
  rw [hnew _ hend, hnew _ (Nat.lt_of_le_of_lt hafter hfrontier), hretains.page_split hlimit,
    List.drop_of_length_le hlast, List.nil_append]

/-- A page and the walk that goes on from its end. -/
theorem Walked.cons (h : r.Reached len policy) (hlimit : 0 < limit)
    (hafter : after ≤ (r.bucket label).frontier) (hgrows : Grows label r r') {given : List (FetchedItem π)}
    {cursor : Nat} (hrest : Walked len policy label (pageEnd (r.bucket label) after limit) r' given
      cursor r'') :
    Walked len policy label after r (((r.bucket label).itemsAfter after).take limit ++ given) cursor
      r'' := by
  obtain ⟨hpos, assigned, hretains⟩ := h.retains label
  have hfrontier := hretains.frontier_eq ▸ hretains.highest_lt hpos
  have hend := Nat.lt_of_le_of_lt (hretains.pageEnd_le limit hafter)
    (hretains.highest_lt hpos)
  have hsplit : (r.bucket label).itemsAfter (pageEnd (r.bucket label) after limit) =
      ((r.bucket label).itemsAfter after).drop limit := hretains.page_split hlimit
  refine ⟨hrest.reached, hgrows.trans hrest.grows, ?_, ?_⟩
  · obtain ⟨new, -, hnew⟩ := hgrows.itemsAfter
    have hheld := hrest.held
    rw [hnew _ hend, hsplit] at hheld
    calc (r.bucket label).itemsAfter after
        = ((r.bucket label).itemsAfter after).take limit ++
            ((r.bucket label).itemsAfter after).drop limit := (List.take_append_drop _ _).symm
      _ <+: _ := (List.prefix_append_right_inj _).2 ((List.prefix_append _ _).trans hheld)
  · obtain ⟨new, -, hnew⟩ := (hgrows.trans hrest.grows).itemsAfter
    rw [List.append_assoc, hrest.left, hnew _ hend, hsplit, ← List.append_assoc,
      List.take_append_drop, hnew _ (Nat.lt_of_le_of_lt hafter hfrontier)]

theorem le_pageEnd (b : Bucket π) (after limit : Nat) : after ≤ pageEnd b after limit := by
  unfold pageEnd
  cases hlast : ((entriesAfter b after).take limit).getLast? with
  | none => exact Nat.le_refl _
  | some last =>
    have hmem := List.mem_of_mem_take (List.mem_of_getLast? hlast)
    exact Nat.le_of_lt (of_decide_eq_true (List.mem_filter.1 hmem).2)

/-- One page: the walk ends with it, or there is more after it and the walk goes on. -/
theorem walk_page [DecidableEq π] (hlimit : 0 < limit) (between : Nat → List (Push π)) (n : Nat)
    (h : r.Reached len policy) (hafter : (r.bucket label).compactedUpTo ≤ after) :
    (∃ given cursor r', Walked len policy label after r given cursor r' ∧
      ∀ fuel, walk len label limit between (fuel + 1) n r after = some (given, cursor, r')) ∨
    (limit < ((r.bucket label).itemsAfter after).length ∧ after ≤ (r.bucket label).frontier ∧
      ∃ r', r'.Reached len policy ∧ Grows label r r' ∧
        ∀ fuel, walk len label limit between (fuel + 1) n r after =
          (walk len label limit between fuel (n + 1) r' (pageEnd (r.bucket label) after limit)).map
            fun (rest, cursor, relay) =>
              (((r.bucket label).itemsAfter after).take limit ++ rest, cursor, relay)) := by
  have hpage := r.fetch_page label after limit
  have hgrows := r.grows_fetch label label after limit
  have hreached := h.fetch label after limit
  rcases hfetch : r.fetch label after limit with ⟨page, r₁⟩
  rw [hfetch] at hpage hgrows hreached
  cases page with
  | compacted boundary =>
    unfold Relay.page at hpage
    rw [if_neg (Nat.not_lt_of_le hafter)] at hpage
    split at hpage <;> cases hpage
  | invalidCursor requested frontier =>
    have hbeyond : (r.bucket label).frontier ≤ after := by
      dsimp only at hpage
      unfold Relay.page at hpage
      rw [if_neg (Nat.not_lt_of_le hafter)] at hpage
      split at hpage
      · rename_i hlt
        exact Nat.le_of_lt hlt
      · cases hpage
    obtain ⟨-, assigned, hretains⟩ := h.retains label
    refine .inl ⟨[], after, r₁, ⟨hreached, hgrows, ?_, List.nil_append _⟩,
      fun fuel => by rw [walk, hfetch]⟩
    exact List.prefix_nil.2 (hretains.itemsAfter_frontier hbeyond)
  | entries items nextCursor hasMore =>
    obtain ⟨hfrontier, rfl, rfl, rfl⟩ := Bucket.page_entries hpage.symm
    obtain ⟨hpushed, hreached'⟩ := pushAll_grows label (between n) hreached
    by_cases hmore : limit < ((r.bucket label).itemsAfter after).length
    · rw [decide_eq_true hmore] at hfetch
      refine .inr ⟨hmore, hfrontier, _, hreached', hgrows.trans hpushed, fun fuel => ?_⟩
      rw [walk, hfetch]
    · rw [decide_eq_false hmore] at hfetch
      refine .inl ⟨_, _, _, walked_last h hlimit hfrontier (Nat.le_of_not_lt hmore)
        (hgrows.trans hpushed) hreached', fun fuel => ?_⟩
      rw [walk, hfetch]

/-- A walk ends after as many more pages as the bucket can have entries after the
cursor: nothing is removed from it, and every page that is not the last has one. -/
theorem walk_walked [DecidableEq π] (hlimit : 0 < limit) (between : Nat → List (Push π))
    (pages n : Nat) (h : r.Reached len policy) (hafter : (r.bucket label).compactedUpTo ≤ after)
    (hpages : policy.maxBucketDepth + ((r.bucket label).itemsAfter after).length ≤
      pages + (r.bucket label).items.length) :
    ∃ given cursor r', Walked len policy label after r given cursor r' ∧
      ∀ fuel > pages, walk len label limit between fuel n r after = some (given, cursor, r') := by
  have hdepth := h.items_le label
  induction pages generalizing n r after with
  | zero =>
    obtain ⟨given, cursor, r', hwalked, hwalk⟩ | ⟨hmore, -⟩ := walk_page hlimit between n h hafter
    · refine ⟨given, cursor, r', hwalked, fun fuel hfuel => ?_⟩
      obtain ⟨fuel, rfl⟩ := Nat.exists_eq_add_of_lt hfuel
      exact hwalk _
    · omega
  | succ pages ih =>
    obtain ⟨given, cursor, r', hwalked, hwalk⟩ | ⟨hmore, hfrontier, r₁, hreached, hgrows, hwalk⟩ :=
      walk_page hlimit between n h hafter
    · refine ⟨given, cursor, r', hwalked, fun fuel hfuel => ?_⟩
      obtain ⟨fuel, rfl⟩ := Nat.exists_eq_add_of_lt hfuel
      exact hwalk _
    · obtain ⟨hpos, assigned, hretains⟩ := h.retains label
      have hend := Nat.lt_of_le_of_lt (hretains.pageEnd_le limit hfrontier)
        (hretains.highest_lt hpos)
      obtain ⟨new, hitems, hnew⟩ := hgrows.itemsAfter
      have hleft : (r₁.bucket label).itemsAfter (pageEnd (r.bucket label) after limit) =
          ((r.bucket label).itemsAfter after).drop limit ++ new := by
        rw [hnew _ hend, hretains.page_split hlimit]
      obtain ⟨given, cursor, r', hwalked, hrest⟩ := ih (n + 1) hreached
        (hgrows.boundary ▸ Nat.le_trans hafter (le_pageEnd _ _ _))
        (by
          rw [hleft, hitems, List.length_append, List.length_append, List.length_drop]
          omega)
        (hreached.items_le label)
      refine ⟨_, cursor, r', hwalked.cons h hlimit hfrontier hgrows, fun fuel hfuel => ?_⟩
      obtain ⟨fuel, rfl⟩ : ∃ rest, fuel = rest + 1 := ⟨fuel - 1, by omega⟩
      rw [hwalk, hrest fuel (by omega)]
      rfl

end Relay

/-- **Complete paging.**  After any operations of the relay, following the cursors from
one at or above the boundary ends; it gives what was retained after the cursor, in the
order of the pushes, then some of what was pushed meanwhile, none of it twice, and the
rest is left after the cursor the walk ends with. -/
theorem walk_complete [DecidableEq π] (len : π → Nat) (policy : RelayPolicy)
    (inputs : List (RelayInput π)) (label : String) {limit : Nat} (hlimit : 0 < limit)
    (between : Nat → List (Push π)) {after : Nat}
    (hafter : (((relayMachine len policy).run inputs).relay.bucket label).compactedUpTo ≤ after) :
    let r := ((relayMachine len policy).run inputs).relay
    ∃ given cursor r',
      (∀ fuel > policy.maxBucketDepth,
        Relay.walk len label limit between fuel 0 r after = some (given, cursor, r')) ∧
      (r.bucket label).itemsAfter after <+: given ∧
      (given.Pairwise fun x y => x.seq < y.seq) ∧
      given ++ (r'.bucket label).itemsAfter cursor = (r'.bucket label).itemsAfter after := by
  intro r
  have hreached : r.Reached len policy := ⟨_, rfl, RelayLog.kept_run len policy inputs⟩
  obtain ⟨given, cursor, r', hwalked, hwalk⟩ := Relay.walk_walked hlimit between
    policy.maxBucketDepth 0 hreached hafter
    (Nat.add_le_add_left (List.length_filter_le _ _) _)
  obtain ⟨-, assigned, hretains⟩ := hwalked.reached.retains label
  have hinc : ((r'.bucket label).itemsAfter after).Pairwise fun x y => x.seq < y.seq :=
    hretains.items_increasing.filter _
  rw [← hwalked.left, List.pairwise_append] at hinc
  exact ⟨given, cursor, r', hwalk, hwalked.held, hinc.1, hwalked.left⟩

/-- Two buckets share the numbers, and a third push comes between the pages. -/
def sharedNumbers : List (RelayInput Nat) :=
  [.push "a" "first" 5, .push "b" "other" 5, .push "a" "second" 6]

/-- What is pushed after the first page. -/
def thirdPush (n : Nat) : List (Push Nat) := if n = 0 then [⟨"a", "third", 7⟩] else []

theorem walk_complete_shared :
    let r := ((relayMachine id RelayPolicy.permissive).run sharedNumbers).relay
    ∃ given cursor r',
      (∀ fuel > RelayPolicy.permissive.maxBucketDepth,
        Relay.walk id "a" 1 thirdPush fuel 0 r 0 = some (given, cursor, r')) ∧
      given = [⟨1, "first", 5⟩, ⟨3, "second", 6⟩, ⟨4, "third", 7⟩] ∧ cursor = 4 := by
  intro r
  have hafter : (r.bucket "a").compactedUpTo ≤ 0 := by decide
  obtain ⟨given, cursor, r', hwalk, -⟩ := walk_complete id RelayPolicy.permissive sharedNumbers "a"
    Nat.one_pos thirdPush hafter
  have heval : (Relay.walk id "a" 1 thirdPush 513 0 r 0).map (fun w => (w.1, w.2.1)) =
      some ([⟨1, "first", 5⟩, ⟨3, "second", 6⟩, ⟨4, "third", 7⟩], 4) := by decide
  rw [hwalk 513 (by decide)] at heval
  cases heval
  exact ⟨_, _, r', hwalk, rfl, rfl⟩

end Altior.Sync
