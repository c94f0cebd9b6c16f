import Altior.Sync.Reading

/-!
# Delivery

Which pushed events a receiver has.  A poll moves the fetch position over a whole
page, in memory and in the port, before it reads the page; so an event below the
position is applied in every run whose polls can read what they fetch.
-/

namespace Altior.Sync

open Lib Crypto

/-! ## Moving the position -/

/-- A node whose position in a peer's bucket has moved. -/
structure SyncNode.Moved (n : SyncNode) (peer : String) (channels : PeerChannels) (cursor : Nat)
    (n' : SyncNode) : Prop where
  label : n'.label = n.label
  applied : n'.applied = n.applied
  loaded : n'.loadedCursors = n.loadedCursors
  blobs : n'.blobs = n.blobs
  peers : n'.peers = n.peers.insert peer { channels with fetchCursor := cursor }
  port : n'.port = n.port.map fun port => { port with
    cursors := port.cursors.insert peer (max (port.cursors[peer]?.getD 0) cursor) }

namespace SyncNode

/-- Moving the position at a node whose port works. -/
theorem moveCursor_moved {n : SyncNode} (hfaults : NoFaults n) (peer : String)
    (channels : PeerChannels) (cursor : Nat) :
    ∃ n', n.moveCursor peer channels cursor = (.ok (), n') ∧ NoFaults n' ∧
      n.Moved peer channels cursor n' := by
  cases hport : n.port with
  | none =>
    refine ⟨{ n with peers := n.peers.insert peer { channels with fetchCursor := cursor } },
      ?_, hfaults, rfl, rfl, rfl, rfl, rfl, ?_⟩
    · simp only [moveCursor, hport]
    · simp only [hport, Option.map_none]
  | some port =>
    have hcall : port.call = (false, port) := by
      rw [SyncPort.call, hfaults port hport]
    refine ⟨{ n with
        peers := n.peers.insert peer { channels with fetchCursor := cursor }
        port := some { port with
          cursors := port.cursors.insert peer (max (port.cursors[peer]?.getD 0) cursor) } },
      ?_, ?_, rfl, rfl, rfl, rfl, rfl, ?_⟩
    · simp only [moveCursor, hport, SyncPort.recordFetchCursor, hcall]
    · rintro _ ⟨⟩
      exact hfaults port hport
    · simp only [hport, Option.map_some]

variable {n n' n'' : SyncNode} {peer : String} {channels : PeerChannels} {cursor : Nat}

/-- Moving the position changes nothing that reading depends on. -/
theorem Moved.reading_eq (h : n.Moved peer channels cursor n')
    (hpeer : n.peers[peer]? = some channels) : n'.reading = n.reading := by
  have hchannel : n'.reading.channel = n.reading.channel := by
    funext p
    simp only [reading, h.peers, Table.getElem?_insert_eq]
    split
    · rename_i hp
      rw [← hp, hpeer]
      rfl
    · rfl
  have hjournal : n'.reading.journal = n.reading.journal := by
    simp only [reading, h.port, Option.map_map, Function.comp_def]
  have happlied : n'.reading.applied = n.reading.applied := h.applied
  have hblobs : n'.reading.blobs = n.reading.blobs := h.blobs
  calc n'.reading = ⟨n'.reading.channel, n'.reading.applied, n'.reading.journal,
        n'.reading.blobs⟩ := rfl
    _ = n.reading := by rw [hchannel, hjournal, happlied, hblobs]

theorem Moved.cursorOf_eq (h : n.Moved peer channels cursor n') (p : String) :
    n'.cursorOf p = if peer = p then some cursor else n.cursorOf p := by
  rw [cursorOf, cursorOf, h.peers, Table.getElem?_insert_eq]
  split <;> rfl

theorem Moved.holds (h : n.Moved peer channels cursor n')
    (hpeer : n.peers[peer]? = some channels) {e : JournalEvent} (he : n.Holds e) : n'.Holds e := by
  rw [← holds_reading, h.reading_eq hpeer]
  exact holds_reading.2 he

end SyncNode

/-- Once the events up to the new position are held, the node is caught up
again. -/
theorem Caught.moved {pushed : List Pushed} {nextSeq : Nat} {n n' n'' : SyncNode} {peer : String}
    {channels : PeerChannels} {cursor : Nat} (h : Caught pushed nextSeq n)
    (hpeer : n.peers[peer]? = some channels) (hmoved : n.Moved peer channels cursor n')
    (hext : n'.Extends n'') (hcaught : CaughtUp pushed nextSeq n'' peer cursor) :
    Caught pushed nextSeq n'' := by
  have hkeep {p : String} {c : Nat} (hp : CaughtUp pushed nextSeq n p c) :
      CaughtUp pushed nextSeq n'' p c := by
    refine ⟨hp.1, fun record hrecord hbucket hseq => hext.holds (hmoved.holds hpeer ?_)⟩
    rw [hext.label, hmoved.label] at hbucket
    exact hp.2 record hrecord hbucket hseq
  have hport (port'' : SyncPort) (hp : n''.port = some port'') :
      ∃ port, n.port = some port ∧
        ((port.applied.map JournalEvent.eventId).Nodup →
          (port''.applied.map JournalEvent.eventId).Nodup) ∧
        port''.cursors = port.cursors.insert peer (max (port.cursors[peer]?.getD 0) cursor) := by
    obtain ⟨port', hp', hgrows⟩ := hext.port port'' hp
    rw [hmoved.port] at hp'
    obtain ⟨port, hp, rfl⟩ := Option.map_eq_some_iff.1 hp'
    exact ⟨port, hp, hgrows.distinct, hgrows.cursors⟩
  constructor
  · intro port'' hp''
    obtain ⟨port, hp, hdistinct, -⟩ := hport port'' hp''
    exact hdistinct (h.distinct port hp)
  · intro port'' hp'' p c hc
    obtain ⟨port, hp, -, hcursors⟩ := hport port'' hp''
    rw [hcursors, Table.getElem?_insert_eq] at hc
    split at hc
    · rename_i hpeer'
      subst hpeer'
      cases hc
      cases hold : port.cursors[peer]? with
      | none => simpa using hcaught
      | some old =>
        rw [Option.getD_some]
        obtain hle | hle := Nat.le_total old cursor
        · rwa [Nat.max_eq_right hle]
        · rw [Nat.max_eq_left hle]
          exact hkeep (h.persisted port hp peer old hold)
    · exact hkeep (h.persisted port hp p c hc)
  · intro p c hc
    rw [hext.loaded, hmoved.loaded] at hc
    exact hkeep (h.loaded p c hc)
  · intro p c hc
    rw [hext.live, hmoved.cursorOf_eq] at hc
    split at hc
    · rename_i hpeer'
      cases hc
      exact hpeer' ▸ hcaught
    · exact hkeep (h.live p c hc)

/-! ## Polling -/

section

variable [Primitives] [SyncCodec]

/-- A fetched item as mail of a peer. -/
def mailOf (peer : String) (item : FetchedItem Envelope) : Mail := ⟨peer, item.seq, item.payload⟩

variable [AuthenticAead] {pushed : List Pushed}

variable {more : List Mail} {peer : String} {relay : Relay Envelope} {l : Link}

/-- The items of a page: they are all known afterwards, and if none failed the
rest of the mail stays readable. -/
theorem pollItems_reads {n : SyncNode} {items : List (FetchedItem Envelope)}
    (hfaults : NoFaults n)
    (hread : readable pushed n.label n.reading (items.map (mailOf peer) ++ more) = true)
    (hcarried : ∀ item ∈ items, ∀ record ∈ pushed, record.bucket = bucketFor n.label peer →
      record.seq = item.seq → Carries item.payload (.event record.event.toWire)) :
    n.Extends (sumEach (SyncNode.pollItem peer) items n).2 ∧
      NoFaults (sumEach (SyncNode.pollItem peer) items n).2 ∧
      (∀ item ∈ items, Known pushed (sumEach (SyncNode.pollItem peer) items n).2 (mailOf peer item)) ∧
      ∀ count, (sumEach (SyncNode.pollItem peer) items n).1 = .ok count →
        readable pushed n.label (sumEach (SyncNode.pollItem peer) items n).2.reading more = true := by
  have hext (items : List (FetchedItem Envelope)) (n : SyncNode) :
      n.Extends (sumEach (SyncNode.pollItem peer) items n).2 :=
    sumEach_invariant (I := fun n' : SyncNode => n.Extends n')
      (fun s item h => h.trans (SyncNode.pollItem_extends peer s item)) items (.refl n)
  induction items generalizing n with
  | nil => exact ⟨.refl n, hfaults, fun item hitem => absurd hitem List.not_mem_nil, fun _ _ => hread⟩
  | cons item items ih =>
    obtain hknown | ⟨count, hok, hfaults', hknown, hrest⟩ :=
      SyncNode.pollItem_reads item.id hfaults hread (hcarried item List.mem_cons_self)
    · have hall : ∀ mail ∈ (item :: items).map (mailOf peer) ++ more,
          Known pushed (sumEach (SyncNode.pollItem peer) (item :: items) n).2 mail :=
        fun mail hmail => (hknown mail hmail).extends (hext _ n)
      refine ⟨hext _ n, ?_, fun x hx => ?_, fun _ _ => ?_⟩
      · exact sumEach_invariant (I := NoFaults)
          (fun s item h => SyncNode.pollItem_noFaults peer h item) _ hfaults
      · exact hall _ (List.mem_append_left _ (List.mem_map_of_mem hx))
      · rw [← (hext (item :: items) n).label]
        exact readable_of_known fun mail hmail => hall mail (List.mem_append_right _ hmail)
    · have hlabel := (SyncNode.pollItem_extends peer n item).label
      rcases hitem : SyncNode.pollItem peer n item with ⟨_ | k, n'⟩ <;> rw [hitem] at hok
      · cases hok
      · rw [hitem] at hfaults' hknown hrest hlabel
        obtain ⟨heq, hoks⟩ := sumEach_cons_ok items hitem
        obtain ⟨hext', hnofaults, hall, hmore⟩ := ih (n := n') hfaults' (hlabel ▸ hrest)
          fun x hx record hrecord hbucket hseq =>
            hcarried x (List.mem_cons_of_mem _ hx) record hrecord (hlabel ▸ hbucket) hseq
        refine ⟨hext _ n, heq ▸ hnofaults, fun x hx => ?_, fun total htotal => ?_⟩
        · rw [heq]
          obtain rfl | hx := List.mem_cons.1 hx
          · exact hknown.extends hext'
          · exact hall x hx
        · obtain ⟨rest, hrest'⟩ := hoks total htotal
          rw [heq, ← hlabel]
          exact hmore rest hrest'

omit [AuthenticAead] in
/-- The events up to the end of a page are those before the page and those on
it. -/
theorem caughtUp_page {n n' : SyncNode} {after count : Nat} (hqueued : Queued relay pushed)
    (hafter : CaughtUp pushed relay.nextSeq n peer after) (hlabel : n'.label = n.label)
    (hholds : ∀ e, n.Holds e → n'.Holds e)
    (hpage : ∀ item ∈ (relay.queueAfter (bucketFor n.label peer) after).take count,
      Known pushed n' ⟨peer, item.1, item.2⟩) :
    CaughtUp pushed relay.nextSeq n' peer
      ((((relay.queueAfter (bucketFor n.label peer) after).take count).getLast?.map Prod.fst).getD
        after) := by
  have hinc : (relay.queueAfter (bucketFor n.label peer) after).Pairwise fun a b => a.1 < b.1 :=
    (hqueued.increasing _).filter _
  have hold (record : Pushed) (hrecord : record ∈ pushed)
      (hbucket : record.bucket = bucketFor n'.label peer) (hle : record.seq ≤ after) :
      n'.Holds record.event :=
    hholds _ (hafter.2 record hrecord (hlabel ▸ hbucket) hle)
  -- A record after the old position is queued there.
  have hnew (record : Pushed) (hrecord : record ∈ pushed)
      (hbucket : record.bucket = bucketFor n'.label peer) (hlt : after < record.seq) :
      ∃ envelope, (record.seq, envelope) ∈ relay.queueAfter (bucketFor n.label peer) after := by
    obtain ⟨envelope, hmem, -⟩ := hqueued.backed record hrecord
    rw [hbucket, hlabel] at hmem
    exact ⟨envelope, List.mem_filter.2 ⟨hmem, decide_eq_true hlt⟩⟩
  cases hlast : ((relay.queueAfter (bucketFor n.label peer) after).take count).getLast? with
  | none =>
    refine ⟨hafter.1, fun record hrecord hbucket hle => ?_⟩
    exact hold record hrecord hbucket hle
  | some last =>
    have hmem : last ∈ (relay.queueAfter (bucketFor n.label peer) after).take count :=
      List.mem_of_getLast? hlast
    have hmem' := (List.mem_filter.1 (List.mem_of_mem_take hmem)).1
    refine ⟨(hqueued.bounded _ _ hmem').2, fun record hrecord hbucket hle => ?_⟩
    obtain hlt | hbefore := Nat.lt_or_ge after record.seq
    · obtain ⟨envelope, henvelope⟩ := hnew record hrecord hbucket hlt
      exact hpage _ (mem_page hinc hlast henvelope hle) record hrecord hbucket rfl
    · exact hold record hrecord hbucket hbefore

/-- The relay agrees with the record of pushes, and the node is caught up. -/
structure Link.Sound (l : Link) : Prop where
  queued : Queued l.relay l.pushed
  caught : Caught l.pushed l.relay.nextSeq l.node

/-- What polling a peer does to a link. -/
structure Link.Polled (l : Link) (peer : String) (l' : Link) : Prop where
  pushed : l'.pushed = l.pushed
  relay : l.relay.Same l'.relay
  label : l'.node.label = l.node.label
  others : ∀ p, p ≠ peer → l'.node.cursorOf p = l.node.cursorOf p
  sound : l'.Sound

namespace Link

omit [AuthenticAead] in
theorem Sound.same (h : l.Sound) (hsame : l.relay.Same relay) :
    ({ l with relay := relay } : Link).Sound := by
  refine ⟨h.queued.same hsame, ?_⟩
  show Caught l.pushed relay.nextSeq l.node
  rw [hsame.nextSeq]
  exact h.caught

omit [SyncCodec] [AuthenticAead] in
/-- The mail of a peer at a known position. -/
theorem pending_eq {cursor : Nat} (hcursor : l.node.cursorOf peer = some cursor) :
    l.pending peer = (l.relay.queueAfter (bucketFor l.node.label peer) cursor).map
      fun item => ⟨peer, item.1, item.2⟩ := by
  simp only [pending, hcursor]

omit [AuthenticAead] in
/-- The link after the position moved over a page that is known. -/
theorem polled_of_moved {channels : PeerChannels} {count cursor : Nat} {n' n'' : SyncNode}
    (h : l.Sound) (hsame : l.relay.Same relay) (hpeer : l.node.peers[peer]? = some channels)
    (hmoved : l.node.Moved peer channels cursor n')
    (hcursor : cursor = (((l.relay.queueAfter (bucketFor l.node.label peer)
      channels.fetchCursor).take count).getLast?.map Prod.fst).getD channels.fetchCursor)
    (hext : n'.Extends n'') (hpage : ∀ item ∈ (l.relay.queueAfter (bucketFor l.node.label peer)
      channels.fetchCursor).take count, Known l.pushed n'' ⟨peer, item.1, item.2⟩) :
    l.Polled peer ⟨n'', relay, l.pushed⟩ := by
  have hlabel : n''.label = l.node.label := hext.label.trans hmoved.label
  have hafter := h.caught.live peer channels.fetchCursor (by simp [SyncNode.cursorOf, hpeer])
  have hcaught : Caught l.pushed l.relay.nextSeq n'' := by
    refine h.caught.moved hpeer hmoved hext ?_
    rw [hcursor]
    exact caughtUp_page h.queued hafter hlabel (fun e he => hext.holds (hmoved.holds hpeer he)) hpage
  refine ⟨rfl, hsame, hlabel, fun p hp => ?_, h.queued.same hsame, ?_⟩
  · show n''.cursorOf p = l.node.cursorOf p
    rw [hext.live, hmoved.cursorOf_eq, if_neg (Ne.symm hp)]
  · show Caught l.pushed relay.nextSeq n''
    rw [hsame.nextSeq]
    exact hcaught

omit [SyncCodec] [AuthenticAead] in
/-- What is left of the mail after a page. -/
theorem pending_after_page (l' : Link) {cursor count : Nat} {last : Nat × Envelope}
    (hinc : (l.relay.queueAfter (bucketFor l.node.label peer) cursor).Pairwise fun a b => a.1 < b.1)
    (hlast : ((l.relay.queueAfter (bucketFor l.node.label peer) cursor).take count).getLast? =
      some last) (hcursor : l'.node.cursorOf peer = some last.1)
    (hlabel : l'.node.label = l.node.label) (hsame : l.relay.Same l'.relay) :
    l'.pending peer = ((l.relay.queueAfter (bucketFor l.node.label peer) cursor).drop count).map
      fun item => ⟨peer, item.1, item.2⟩ := by
  rw [pending_eq hcursor, ← filter_after_page hinc hlast, hlabel]
  congr 1
  have hmem : last ∈ l.relay.queueAfter (bucketFor l.node.label peer) cursor :=
    List.mem_of_mem_take (List.mem_of_getLast? hlast)
  have hlt : cursor < last.1 := of_decide_eq_true (List.mem_filter.1 hmem).2
  rw [Relay.queueAfter, Relay.queueAfter, hsame.queue, List.filter_filter]
  refine List.filter_congr fun item _ => ?_
  by_cases hitem : last.1 < item.1
  · simp [hitem, Nat.lt_trans hlt hitem]
  · simp [hitem]

/-- One page of readable mail: everything on it is held afterwards; unless
something failed, what is left stays readable and is less. -/
theorem pollPage_reads (h : l.Sound) (hfaults : NoFaults l.node)
    (hread : Sync.readable l.pushed l.node.label l.node.reading (l.pending peer ++ more) = true) :
    l.Polled peer (l.pollPage peer).2 ∧
      match (l.pollPage peer).1 with
      | .error _ => True
      | .ok none => NoFaults (l.pollPage peer).2.node ∧
          Sync.readable l.pushed l.node.label (l.pollPage peer).2.node.reading more = true
      | .ok (some _) => NoFaults (l.pollPage peer).2.node ∧
          Sync.readable l.pushed l.node.label (l.pollPage peer).2.node.reading
            ((l.pollPage peer).2.pending peer ++ more) = true ∧
          ((l.pollPage peer).2.pending peer).length < (l.pending peer).length := by
  unfold pollPage
  cases hpeer : l.node.peers[peer]? with
  | none => exact ⟨⟨rfl, .refl _, rfl, fun _ _ => rfl, h⟩, trivial⟩
  | some channels =>
    have hsame := l.relay.fetch_same (bucketFor l.node.label peer) channels.fetchCursor 256
    have hcursor : l.node.cursorOf peer = some channels.fetchCursor := by
      simp [SyncNode.cursorOf, hpeer]
    rw [pending_eq hcursor] at hread ⊢
    rcases hfetch : l.relay.fetch (bucketFor l.node.label peer) channels.fetchCursor 256
      with ⟨page, relay⟩
    rw [hfetch] at hsame
    simp only [hfetch]
    cases page with
    | compacted compactedUpTo =>
      exact ⟨⟨rfl, hsame, rfl, fun _ _ => rfl, h.same hsame⟩, trivial⟩
    | invalidCursor requested frontier =>
      exact ⟨⟨rfl, hsame, rfl, fun _ _ => rfl, h.same hsame⟩, trivial⟩
    | entries items nextCursor hasMore =>
      obtain ⟨hitems, hnext, hhas⟩ := Relay.fetch_entries hfetch
      obtain ⟨n', hmove, hfaults', hmoved⟩ :=
        SyncNode.moveCursor_moved hfaults peer channels nextCursor
      have hinc : (l.relay.queueAfter (bucketFor l.node.label peer)
          channels.fetchCursor).Pairwise fun a b => a.1 < b.1 :=
        (h.queued.increasing _).filter _
      have hreading := hmoved.reading_eq hpeer
      have hmails : items.map (mailOf peer) = ((l.relay.queueAfter (bucketFor l.node.label peer)
          channels.fetchCursor).take 256).map fun item => ⟨peer, item.1, item.2⟩ := by
        rw [← hitems, List.map_map]
        rfl
      have hpolled (n'' : SyncNode) (hext : n'.Extends n'')
          (hknown : ∀ item ∈ items, Known l.pushed n'' (mailOf peer item)) :
          l.Polled peer ⟨n'', relay, l.pushed⟩ := by
        refine polled_of_moved h hsame hpeer hmoved hnext hext fun item hitem => ?_
        rw [← hitems] at hitem
        obtain ⟨x, hx, rfl⟩ := List.mem_map.1 hitem
        exact hknown x hx
      simp only [hmove]
      split
      · rename_i hdone
        obtain ⟨hempty, hnomore⟩ := hdone
        have hnil : items = [] := List.isEmpty_iff.1 hempty
        have hqueue : l.relay.queueAfter (bucketFor l.node.label peer) channels.fetchCursor = [] := by
          rw [hnil, List.map_nil, eq_comm, List.take_eq_nil_iff] at hitems
          exact hitems.resolve_left (by decide)
        refine ⟨hpolled n' (.refl n') (by simp [hnil]), hfaults', ?_⟩
        rw [hqueue] at hread
        show Sync.readable l.pushed l.node.label n'.reading more = true
        rw [hreading]
        exact hread
      · rename_i hnotdone
        have hread' : Sync.readable l.pushed n'.label n'.reading (items.map (mailOf peer) ++
            (((l.relay.queueAfter (bucketFor l.node.label peer) channels.fetchCursor).drop
              256).map (fun item => ⟨peer, item.1, item.2⟩) ++ more)) = true := by
          rw [hmails, ← List.append_assoc, ← List.map_append, List.take_append_drop, hreading,
            hmoved.label]
          exact hread
        have hcarried : ∀ item ∈ items, ∀ record ∈ l.pushed,
            record.bucket = bucketFor n'.label peer → record.seq = item.seq →
            Carries item.payload (.event record.event.toWire) := by
          intro item hitem record hrecord hbucket hseq
          obtain ⟨envelope, hmem, hcarries⟩ := h.queued.backed record hrecord
          have hpos : (item.seq, item.payload) ∈ l.relay.queue (bucketFor l.node.label peer) := by
            have hmem := List.mem_map_of_mem (f := fun item => (item.seq, item.payload)) hitem
            rw [hitems] at hmem
            exact (List.mem_filter.1 (List.mem_of_mem_take hmem)).1
          rw [hbucket, hmoved.label] at hmem
          have heq : envelope = item.payload :=
            congrArg Prod.snd (eq_of_position (h.queued.increasing _) hmem hpos hseq)
          exact heq ▸ hcarries
        obtain ⟨hext, hnofaults, hknown, hmore⟩ := pollItems_reads hfaults' hread' hcarried
        rcases hloop : sumEach (SyncNode.pollItem peer) items n' with ⟨_ | count, n''⟩ <;>
          rw [hloop] at hext hnofaults hknown hmore
        · exact ⟨hpolled n'' hext hknown, trivial⟩
        · have hne : (l.relay.queueAfter (bucketFor l.node.label peer)
              channels.fetchCursor).take 256 ≠ [] := by
            intro hnil
            rw [hnil, List.map_eq_nil_iff] at hitems
            have hqueue := (List.take_eq_nil_iff.1 hnil).resolve_left (by decide)
            refine hnotdone ⟨List.isEmpty_iff.2 hitems, ?_⟩
            simp [hhas, hqueue]
          obtain ⟨last, hlast⟩ := Option.ne_none_iff_exists'.1
            (fun hnone => hne (List.getLast?_eq_none_iff.1 hnone))
          have hcursor'' : n''.cursorOf peer = some last.1 := by
            rw [hext.live, hmoved.cursorOf_eq, if_pos rfl, hnext, hlast]
            rfl
          have hpending := pending_after_page ⟨n'', relay, l.pushed⟩ hinc hlast hcursor''
            (hext.label.trans hmoved.label) hsame
          refine ⟨hpolled n'' hext hknown, hnofaults, ?_, ?_⟩
          · have hrest := hmore count rfl
            rw [hmoved.label] at hrest
            rw [hpending]
            exact hrest
          · rw [hpending, List.length_map, List.length_map, List.length_drop]
            have hlen : 0 < (l.relay.queueAfter (bucketFor l.node.label peer)
                channels.fetchCursor).length :=
              List.length_pos_of_mem (List.mem_of_mem_take (List.mem_of_getLast? hlast))
            omega

omit [AuthenticAead] in
theorem Polled.trans {l' l'' : Link} (h : l.Polled peer l') (h' : l'.Polled peer l'') :
    l.Polled peer l'' where
  pushed := h'.pushed.trans h.pushed
  relay := h.relay.trans h'.relay
  label := h'.label.trans h.label
  others p hp := (h'.others p hp).trans (h.others p hp)
  sound := h'.sound

/-- All pages of readable mail, when there is fuel for each piece of it. -/
theorem pollPages_reads (fuel : Nat) (h : l.Sound) (hfaults : NoFaults l.node)
    (hfuel : (l.pending peer).length < fuel)
    (hread : Sync.readable l.pushed l.node.label l.node.reading (l.pending peer ++ more) = true) :
    l.Polled peer (pollPages peer fuel l).2 ∧
      ∀ count, (pollPages peer fuel l).1 = .ok count → NoFaults (pollPages peer fuel l).2.node ∧
        Sync.readable l.pushed l.node.label (pollPages peer fuel l).2.node.reading more = true := by
  induction fuel generalizing l with
  | zero => omega
  | succ fuel ih =>
    obtain ⟨hpolled, hresult⟩ := pollPage_reads h hfaults hread
    unfold pollPages
    rcases hpage : l.pollPage peer with ⟨_ | _ | count, l'⟩ <;>
      rw [hpage] at hpolled hresult
    · exact ⟨hpolled, fun _ h => nomatch h⟩
    · exact ⟨hpolled, fun _ _ => hresult⟩
    · obtain ⟨hfaults', hread', hless⟩ := hresult
      rw [← hpolled.pushed, ← hpolled.label] at hread' ⊢
      have hless' : (l'.pending peer).length < (l.pending peer).length := hless
      obtain ⟨hpolled', hresult'⟩ := ih (l := l') hpolled.sound hfaults' (by omega) hread'
      simp only
      rcases hpages : pollPages peer fuel l' with ⟨_ | rest, l''⟩ <;>
        rw [hpages] at hpolled' hresult'
      · exact ⟨hpolled.trans hpolled', fun _ h => nomatch h⟩
      · exact ⟨hpolled.trans hpolled', fun _ _ => hresult' rest rfl⟩

theorem pollPeer_reads (h : l.Sound) (hfaults : NoFaults l.node)
    (hread : Sync.readable l.pushed l.node.label l.node.reading (l.pending peer ++ more) = true) :
    l.Polled peer (l.pollPeer peer).2 ∧
      ∀ count, (l.pollPeer peer).1 = .ok count → NoFaults (l.pollPeer peer).2.node ∧
        Sync.readable l.pushed l.node.label (l.pollPeer peer).2.node.reading more = true := by
  refine pollPages_reads _ h hfaults (Nat.lt_succ_of_le ?_) hread
  unfold pending
  split
  · exact Nat.zero_le _
  · rw [List.length_map]
    refine (List.length_filter_le _ _).trans ?_
    rw [Relay.queue, List.length_map]

omit [SyncCodec] [AuthenticAead] in
theorem pending_congr {l' : Link} (hlabel : l'.node.label = l.node.label)
    (hcursor : l'.node.cursorOf peer = l.node.cursorOf peer) (hsame : l.relay.Same l'.relay) :
    l'.pending peer = l.pending peer := by
  simp only [pending, hlabel, hcursor, Relay.queueAfter, hsame.queue]

/-- Polling peers whose mail is readable leaves the link sound. -/
theorem pollPeers_sound (peers : List String) (hnodup : peers.Nodup) (h : l.Sound)
    (hfaults : NoFaults l.node)
    (hread : Sync.readable l.pushed l.node.label l.node.reading (peers.flatMap l.pending) = true) :
    (sumEach pollPeer peers l).2.Sound ∧ (sumEach pollPeer peers l).2.pushed = l.pushed ∧
      l.relay.Same (sumEach pollPeer peers l).2.relay ∧
      (sumEach pollPeer peers l).2.node.label = l.node.label := by
  induction peers generalizing l with
  | nil => exact ⟨h, rfl, .refl _, rfl⟩
  | cons peer peers ih =>
    obtain ⟨hpeer, hpeers⟩ := List.nodup_cons.1 hnodup
    rw [List.flatMap_cons] at hread
    obtain ⟨hpolled, hresult⟩ := pollPeer_reads h hfaults hread
    rcases hpoll : l.pollPeer peer with ⟨e | count, l'⟩ <;> rw [hpoll] at hpolled hresult
    · simp only [sumEach, hpoll]
      exact ⟨hpolled.sound, hpolled.pushed, hpolled.relay, hpolled.label⟩
    · obtain ⟨hfaults', hread'⟩ := hresult count rfl
      have hpending : peers.flatMap l.pending = peers.flatMap l'.pending := by
        refine List.flatMap_congr fun p hp => ?_
        refine (pending_congr hpolled.label (hpolled.others p ?_) hpolled.relay).symm
        rintro rfl
        exact hpeer hp
      rw [hpending, ← hpolled.pushed, ← hpolled.label] at hread'
      obtain ⟨hsound, hpushed, hsame, hlabel⟩ := ih hpeers hpolled.sound hfaults' hread'
      rw [(sumEach_cons_ok peers hpoll).1]
      exact ⟨hsound, hpushed.trans hpolled.pushed, hpolled.relay.trans hsame,
        hlabel.trans hpolled.label⟩

/-- A poll that can read its mail leaves the link sound. -/
theorem poll_sound (h : l.Sound) (hread : l.readable = true) :
    l.poll.2.Sound ∧ l.poll.2.pushed = l.pushed ∧ l.relay.Same l.poll.2.relay ∧
      l.poll.2.node.label = l.node.label := by
  simp only [readable, Bool.decide_and, Bool.and_eq_true, decide_eq_true_eq] at hread
  exact pollPeers_sound _ Std.ExtTreeMap.nodup_keys h (fun port hp => hread.1 port hp) hread.2

/-! ## Flushing -/

/-- What a node does at the relay: it stays sound and pushes beyond the relay's
sequence only. -/
structure Advances (l l' : Link) : Prop where
  label : l'.node.label = l.node.label
  sound : l'.Sound
  nextSeq : l.relay.nextSeq ≤ l'.relay.nextSeq
  pushed : ∀ record ∈ l'.pushed, record ∈ l.pushed ∨ l.relay.nextSeq ≤ record.seq

omit [AuthenticAead] in
theorem Advances.refl (h : l.Sound) : l.Advances l :=
  ⟨rfl, h, Nat.le_refl _, fun _ hrecord => .inl hrecord⟩

omit [AuthenticAead] in
theorem Advances.trans {l' l'' : Link} (h : l.Advances l') (h' : l'.Advances l'') :
    l.Advances l'' where
  label := h'.label.trans h.label
  sound := h'.sound
  nextSeq := Nat.le_trans h.nextSeq h'.nextSeq
  pushed record hrecord := by
    obtain hold | hnew := h'.pushed record hrecord
    · exact h.pushed record hold
    · exact .inr (Nat.le_trans h.nextSeq hnew)

omit [AuthenticAead] in
/-- A step of the node alone. -/
theorem advances_of_extends (h : l.Sound) (n' : SyncNode) (hext : l.node.Extends n') :
    l.Advances { l with node := n' } :=
  ⟨hext.label, ⟨h.queued, h.caught.extends hext⟩, Nat.le_refl _, fun _ hrecord => .inl hrecord⟩

theorem sealAndPush_advances (h : l.Sound) (peer key pushId : String) {payload : SyncPayload}
    {event : Option JournalEvent}
    (hevent : ∀ e : JournalEvent, payload = .event e.toWire ↔ event = some e) :
    l.Advances (l.sealAndPush peer key pushId payload event).2 := by
  unfold sealAndPush
  split
  · exact .refl h
  · rename_i channels hpeer
    split
    rename_i result outbound hseal
    have hext : l.node.Extends { l.node with
        peers := l.node.peers.insert peer { channels with outbound := outbound } } :=
      SyncNode.extends_setChannels hpeer rfl
    simp only
    split
    · exact advances_of_extends h _ hext
    · rename_i envelope
      have hcarries := carries_of_seal hseal
      split
      · rename_i e relay hpush
        have hcases := l.relay.push_cases Envelope.len (bucketFor peer l.node.label) pushId envelope
        rw [hpush] at hcases
        obtain ⟨_, -, hsame⟩ | ⟨_, hdup, -⟩ | ⟨hnew, -⟩ := hcases
        · refine ⟨rfl, (advances_of_extends h _ hext).sound.same hsame, ?_, fun _ h => .inl h⟩
          exact Nat.le_of_eq hsame.nextSeq.symm
        · cases hdup
        · cases hnew
      · rename_i outcome relay hpush
        obtain ⟨hqueued, hnext, hrecords⟩ := h.queued.push hcarries hevent hpush
        refine ⟨rfl, ⟨hqueued, ?_⟩, hnext, hrecords⟩
        refine (h.caught.extends (hext.trans ?_)).push hnext hrecords
        exact SyncNode.extends_of_same rfl rfl rfl rfl rfl

theorem flushEvent_advances (h : l.Sound) (peer : String) (event : JournalEvent) :
    l.Advances (flushEvent peer l event).2 := by
  unfold flushEvent
  split
  · exact .refl h
  · refine sealAndPush_advances h _ _ _ fun e => ?_
    rw [SyncPayload.event.injEq, Option.some.injEq]
    exact ⟨fun heq => JournalEvent.toWire_injective heq, fun heq => heq ▸ rfl⟩

omit [AuthenticAead] in
/-- A loop of advances advances. -/
theorem sumEach_advances {α : Type} {f : Link → α → Except SyncError Nat × Link}
    (hf : ∀ (l : Link) a, l.Sound → l.Advances (f l a).2) (as : List α) (h : l.Sound) :
    l.Advances (sumEach f as l).2 :=
  sumEach_invariant (I := fun l' => l.Advances l')
    (fun l' a hl' => hl'.trans (hf l' a hl'.sound)) as (.refl h)

theorem flushPeer_advances (h : l.Sound) (seed : Bytes32) (peer : String) :
    l.Advances (flushPeer seed l peer).2 := by
  unfold flushPeer
  split
  · unfold openTurn
    cases hpeer : l.node.peers[peer]? with
    | none => exact .refl h
    | some channels =>
      simp only
      cases channels.outbound.openTurn seed with
      | error e => exact .refl h
      | ok outbound =>
        have hturn := advances_of_extends h { l.node with
          peers := l.node.peers.insert peer { channels with outbound := outbound } }
          (SyncNode.extends_setChannels hpeer rfl)
        exact hturn.trans (sumEach_advances
          (fun l event hl => flushEvent_advances hl peer event) _ hturn.sound)
  · exact .refl h

theorem fanOutBlobChunks_advances (h : l.Sound) (peers : List String) :
    l.Advances (l.fanOutBlobChunks peers).2 := by
  refine sumEach_advances (fun l chunk hl => ?_) _ h
  obtain ⟨blobId, chunkId, peer⟩ := chunk
  simp only [fanOutChunk]
  split
  · exact .refl hl
  · split
    · exact .refl hl
    · split
      · exact .refl hl
      · exact sealAndPush_advances hl _ _ _ fun e => by simp

/-- A poll that can read its mail advances. -/
theorem poll_advances (h : l.Sound) (hread : l.readable = true) : l.Advances l.poll.2 := by
  obtain ⟨hsound, hpushed, hsame, hlabel⟩ := poll_sound h hread
  exact ⟨hlabel, hsound, Nat.le_of_eq hsame.nextSeq.symm, fun _ hrecord => .inl (hpushed ▸ hrecord)⟩

/-- A flush whose poll can read its mail. -/
theorem flush_advances (h : l.Sound) (hread : l.readable = true) (seed : Bytes32) :
    l.Advances (l.flush seed).2 := by
  have hpoll := poll_advances h hread
  unfold flush
  rcases hp : l.poll with ⟨_ | _, polled⟩ <;> rw [hp] at hpoll
  · exact hpoll
  · have hack := hpoll.trans (advances_of_extends hpoll.sound polled.node.acknowledge.2
      (polled.node.createAdmit_extends _))
    rcases ha : polled.node.acknowledge with ⟨_ | _, node⟩ <;> rw [ha] at hack
    · simp only [ha]
      exact hack
    · have hpeers := hack.trans (sumEach_advances
        (fun l peer hl => flushPeer_advances hl seed peer) node.peers.keys hack.sound)
      simp only [ha]
      rcases hl : sumEach (flushPeer seed) node.peers.keys { polled with node := node }
        with ⟨_ | _, flushed⟩ <;> rw [hl] at hpeers
      · exact hpeers
      · have hchunks := hpeers.trans (fanOutBlobChunks_advances hpeers.sound node.peers.keys)
        simp only
        rcases hc : flushed.fanOutBlobChunks node.peers.keys with ⟨_ | _, l'⟩ <;> rw [hc] at hchunks
        · exact hchunks
        · exact hchunks

end Link

/-! ## The system -/

/-- The relay agrees with the record of pushes, and every node is caught up. -/
structure System.Sound (s : System) : Prop where
  queued : Queued s.relay s.pushed
  label : ∀ label, (s.nodes label).label = label
  caught : ∀ label, Caught s.pushed s.relay.nextSeq (s.nodes label)

/-- The condition on a step: a poll can read the mail it fetches. -/
def Reads (s : System) : SystemInput → Prop
  | .poll label => (s.link label).readable = true
  | .flush label _ => (s.link label).readable = true
  | _ => True

instance (s : System) (i : SystemInput) : Decidable (Reads s i) :=
  match i with
  | .poll label => inferInstanceAs (Decidable ((s.link label).readable = true))
  | .flush label _ => inferInstanceAs (Decidable ((s.link label).readable = true))
  | .node _ _ => inferInstanceAs (Decidable True)
  | .restart _ => inferInstanceAs (Decidable True)
  | .pair _ _ _ _ _ _ => inferInstanceAs (Decidable True)

omit [AuthenticAead] in
theorem System.Sound.setNode {s : System} (h : s.Sound) {label : String} {n : SyncNode}
    (hlabel : n.label = label) (hcaught : Caught s.pushed s.relay.nextSeq n) :
    (s.setNode label n).Sound := by
  refine ⟨h.queued, fun x => ?_, fun x => ?_⟩ <;> simp only [System.setNode] <;> split
  · rename_i hx
    rw [hlabel, hx]
  · exact h.label x
  · exact hcaught
  · exact h.caught x

omit [AuthenticAead] in
/-- A node's step at the relay keeps everyone caught up. -/
theorem System.Sound.setLink {s : System} (h : s.Sound) {label : String}
    (hl : (s.link label).Advances l) : (s.setLink label l).Sound := by
  refine ⟨hl.sound.queued, fun x => ?_, fun x => ?_⟩ <;> simp only [System.setLink] <;> split
  · rename_i hx
    rw [hl.label, hx]
    exact h.label label
  · exact h.label x
  · exact hl.sound.caught
  · exact (h.caught x).push hl.nextSeq hl.pushed

omit [AuthenticAead] in
theorem System.Sound.pair {s : System} (h : s.Sound) {a b : String} {epoch : Epoch}
    {epochSeq : UInt32} {aToB bToA : Option CounterBlock} {nodeA nodeB : SyncNode}
    (hpair : SyncNode.pair (s.nodes a) (s.nodes b) epoch epochSeq aToB bToA = .ok (nodeA, nodeB)) :
    ((s.setNode a nodeA).setNode b nodeB).Sound := by
  have hseq (record : Pushed) (hrecord : record ∈ s.pushed) : 0 < record.seq := by
    obtain ⟨envelope, hmem, -⟩ := h.queued.backed record hrecord
    exact (h.queued.bounded _ _ hmem).1
  simp only [SyncNode.pair] at hpair
  split at hpair
  · cases hpair
  · cases hpair
    refine System.Sound.setNode (h.setNode ?_ ?_) ?_ ?_
    · exact h.label a
    · exact (h.caught a).pair h.queued.nextSeq_pos hseq rfl
    · exact h.label b
    · exact (h.caught b).pair h.queued.nextSeq_pos hseq rfl

/-- A step that meets the condition keeps the system sound. -/
theorem systemStep_sound {s : System} (h : s.Sound) (i : SystemInput) (hread : Reads s i) :
    (systemStep s i).Sound := by
  have hlink (label : String) : (s.link label).Sound := ⟨h.queued, h.caught label⟩
  cases i with
  | node label input =>
    have hext := nodeStep_extends (s.nodes label) input
    exact h.setNode (hext.label.trans (h.label label)) ((h.caught label).extends hext)
  | poll label => exact h.setLink (Link.poll_advances (hlink label) hread)
  | flush label seed => exact h.setLink (Link.flush_advances (hlink label) hread seed)
  | restart label =>
    simp only [systemStep]
    split
    · exact h
    · rename_i port hport
      have hcaught := (h.caught label).restart hport
      rw [h.label] at hcaught
      exact h.setNode (replay_frame port.applied _).1 hcaught
  | pair a b epoch epochSeq aToB bToA =>
    simp only [systemStep]
    split
    · exact h
    · split
      · exact h
      · rename_i hpair
        exact h.pair hpair

omit [AuthenticAead] in
theorem systemMachine_sound (policy : RelayPolicy) (keys : String → DeviceKeys)
    (isDurable : String → Bool) : (systemMachine policy keys isDurable).init.Sound := by
  refine ⟨queued_new policy, fun _ => rfl, fun label => ?_⟩
  have hport (port : SyncPort)
      (h : (SyncNode.new (keys label) label (if isDurable label then some .empty else none)).port =
        some port) : port = .empty := by
    simp only [SyncNode.new] at h
    split at h
    · exact (Option.some.inj h).symm
    · cases h
  constructor
  · intro port hp
    rw [hport port hp]
    exact List.nodup_nil
  · intro port hp peer cursor hcursor
    rw [hport port hp] at hcursor
    simp [SyncPort.empty] at hcursor
  · intro peer cursor hcursor
    simp [systemMachine, SyncNode.new] at hcursor
  · intro peer cursor hcursor
    simp [systemMachine, SyncNode.new, SyncNode.cursorOf] at hcursor

/-- **Delivery without loss.**  In every run in which polls can read the mail they
fetch, an event pushed to a receiver's bucket at or below the receiver's persisted
position is applied there. -/
theorem delivered_of_reads (policy : RelayPolicy) (keys : String → DeviceKeys)
    (isDurable : String → Bool) (inputs : List SystemInput)
    (hreads : (systemMachine policy keys isDurable).Meets Reads
      (systemMachine policy keys isDurable).init inputs)
    (receiver sender : String) (port : SyncPort) (cursor : Nat) (record : Pushed)
    (hport : (((systemMachine policy keys isDurable).run inputs).nodes receiver).port = some port)
    (hcursor : port.cursors[sender]? = some cursor)
    (hrecord : record ∈ ((systemMachine policy keys isDurable).run inputs).pushed)
    (hbucket : record.bucket = bucketFor receiver sender) (hle : record.seq ≤ cursor) :
    (((systemMachine policy keys isDurable).run inputs).nodes receiver).applied[record.event.eventId]? =
      some record.event := by
  have hsound : ((systemMachine policy keys isDurable).run inputs).Sound :=
    Machine.invariant_of_meets (I := System.Sound) _
      (fun s i h hread => systemStep_sound h i hread)
      (systemMachine_sound policy keys isDurable) hreads
  have hcaught := (hsound.caught receiver).persisted port hport sender cursor hcursor
  rw [← hsound.label receiver] at hbucket
  exact (hcaught.2 record hrecord hbucket hle).1

end

section

attribute [local instance] idealPrimitives idealSyncCodec idealAuthentic

/-- Mail fetched before the restart and the new pairing. -/
def exchange : List SystemInput :=
  [pairing 1 1, .node "a" (.proposeMemory "m" "tea"), .flush "a" (Vector.replicate 32 9), .poll "b",
    .restart "b", pairing 2 1001]

theorem delivered_of_reads_exchange :
    (systemMachine .permissive pairKeys fun _ => true).Meets Reads
        (systemMachine .permissive pairKeys fun _ => true).init exchange ∧
      ((systemMachine .permissive pairKeys fun _ => true).run exchange).pushed.length = 2 ∧
      ∀ record ∈ ((systemMachine .permissive pairKeys fun _ => true).run exchange).pushed,
        (((systemMachine .permissive pairKeys fun _ => true).run exchange).nodes
          "b").applied[record.event.eventId]? = some record.event := by
  have hreads : (systemMachine .permissive pairKeys fun _ => true).Meets Reads
      (systemMachine .permissive pairKeys fun _ => true).init exchange :=
    ⟨trivial, trivial, by decide +kernel, by decide +kernel, trivial, trivial, trivial⟩
  have hpushed : ∀ record ∈ ((systemMachine .permissive pairKeys fun _ => true).run exchange).pushed,
      record.bucket = bucketFor "b" "a" ∧ record.seq ≤ 2 := by
    decide +kernel
  refine ⟨hreads, by decide +kernel, fun record hrecord => ?_⟩
  exact delivered_of_reads _ _ _ _ hreads "b" "a"
    ((((systemMachine .permissive pairKeys fun _ => true).run exchange).nodes "b").port.getD .empty)
    2 record (by decide +kernel) (by decide +kernel) hrecord (hpushed record hrecord).1
    (hpushed record hrecord).2

/-- Mail that is still unread when the devices pair anew is skipped as mail of an
older epoch, and the persisted position moves past it. -/
theorem unread_mail_lost_by_pairing :
    let s := (systemMachine .permissive pairKeys fun _ => true).run
      [pairing 1 1, .node "a" (.proposeMemory "m" "tea"), .flush "a" (Vector.replicate 32 9),
        pairing 2 1001, .poll "b"]
    (s.pushed.map fun record => (record.bucket, record.seq, record.event.eventId)) =
        [(bucketFor "b" "a", 1, "a:1"), (bucketFor "b" "a", 2, "a:2")] ∧
      (s.nodes "b").port.bind (fun port => port.cursors["a"]?) = some 2 ∧
      (s.nodes "b").applied.keys = [] := by
  decide +kernel

end

end Altior.Sync
