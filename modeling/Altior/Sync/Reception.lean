import Altior.Sync.Parcels
import Altior.Sync.Turns

/-!
# Reading everything

A poll that succeeds has read all that was queued for the node, in order.  What each
envelope does to the node adds up along the queue.
-/

namespace Altior.Sync

open Lib Crypto

/-- What is queued after a page. -/
theorem Relay.queueAfter_page {π : Type} {r r' : Relay π} {label : String} {after count next : Nat}
    (hinc : (r.queue label).Pairwise fun a b => a.1 < b.1) (hsame : r.Same r')
    (hnext : next = (((r.queueAfter label after).take count).getLast?.map Prod.fst).getD after)
    (hcount : 0 < count) : r'.queueAfter label next = (r.queueAfter label after).drop count := by
  have hinc' : (r.queueAfter label after).Pairwise fun a b => a.1 < b.1 := hinc.filter _
  have hqueue (position : Nat) : r'.queueAfter label position = r.queueAfter label position := by
    rw [queueAfter, queueAfter, hsame.queue]
  rw [hqueue]
  cases hlast : ((r.queueAfter label after).take count).getLast? with
  | none =>
    rw [hlast] at hnext
    have hnil : r.queueAfter label after = [] :=
      (List.take_eq_nil_iff.1 (List.getLast?_eq_none_iff.1 hlast)).resolve_left (by omega)
    have heq : next = after := hnext
    rw [heq, hnil, List.drop_nil]
  | some last =>
    rw [hlast] at hnext
    have heq : next = last.1 := hnext
    rw [heq, ← filter_after_page hinc' hlast]
    have hmem := (List.mem_filter.1 (List.mem_of_mem_take (List.mem_of_getLast? hlast))).2
    have hlt := of_decide_eq_true hmem
    rw [queueAfter, queueAfter, List.filter_filter]
    refine List.filter_congr fun item _ => ?_
    rw [← Bool.decide_and]
    exact decide_eq_decide.2 (iff_self_and.2 fun hitem => Nat.lt_trans hlt hitem)

section

variable [Primitives] [SyncCodec]

/-! ## The rule -/

/-- What is known of a node that has some envelopes of a peer before it: moving the
position leaves it, and reading the first envelope makes it hold of the others. -/
structure Reception (peer : String) (I : List Envelope → SyncNode → Prop) : Prop where
  move : ∀ {envelopes n channels} cursor, n.peers[peer]? = some channels → I envelopes n →
    I envelopes (n.moveCursor peer channels cursor).2
  item : ∀ {envelopes n n' count} {item : FetchedItem Envelope}, I (item.payload :: envelopes) n →
    SyncNode.pollItem peer n item = (.ok count, n') → I envelopes n'

namespace Link

/-- What a poll of a peer leaves of a link, apart from what it reads. -/
structure Received (l : Link) (channels : PeerChannels) (l' : Link) (peer : String)
    (channels' : PeerChannels) : Prop where
  talks : l'.Talks peer channels'
  identity : channels'.identity = channels.identity
  outbound : channels'.outbound = channels.outbound
  label : l'.node.label = l.node.label
  relay : l.relay.Same l'.relay
  position : channels'.fetchCursor = channels.fetchCursor ∨
    ∃ item ∈ l.relay.queue (bucketFor l.node.label peer), channels'.fetchCursor = item.1

variable {peer : String} {I : List Envelope → SyncNode → Prop} {l l' l'' : Link}
  {channels channels' channels'' : PeerChannels} {count : Nat}

omit [SyncCodec] in
theorem Received.trans (h : l.Received channels l' peer channels')
    (h' : l'.Received channels' l'' peer channels'') : l.Received channels l'' peer channels'' where
  talks := h'.talks
  identity := h'.identity.trans h.identity
  outbound := h'.outbound.trans h.outbound
  label := h'.label.trans h.label
  relay := h.relay.trans h'.relay
  position := by
    obtain heq | ⟨item, hitem, heq⟩ := h'.position
    · rw [heq]
      exact h.position
    · rw [h.label, h.relay.queue] at hitem
      exact .inr ⟨item, hitem, heq⟩

/-- The envelopes a node has before it. -/
def before (l : Link) (peer : String) (channels : PeerChannels) : List Envelope :=
  (l.relay.queueAfter (bucketFor l.node.label peer) channels.fetchCursor).map Prod.snd

/-- The items of a page that are all read. -/
theorem pollItems_reads (h : Reception peer I) {items : List (FetchedItem Envelope)}
    {rest : List Envelope} {n n' : SyncNode} {channels : PeerChannels}
    (hpeer : n.peers[peer]? = some channels) (hI : I (items.map FetchedItem.payload ++ rest) n)
    (hok : sumEach (SyncNode.pollItem peer) items n = (.ok count, n')) :
    I rest n' ∧ n'.label = n.label ∧
      ∃ inbound, ∀ p : String, n'.peers[p]? =
        if peer = p then some { channels with inbound := inbound } else n.peers[p]? := by
  induction items generalizing n channels count with
  | nil =>
    cases hok
    refine ⟨hI, rfl, channels.inbound, fun p => ?_⟩
    split
    · rename_i hp
      exact hp ▸ hpeer
    · rfl
  | cons item items ih =>
    obtain ⟨hlabel, hpeers⟩ := SyncNode.pollItem_channels hpeer item
    rcases hitem : SyncNode.pollItem peer n item with ⟨_ | k, n₁⟩
    · simp only [sumEach, hitem] at hok
      cases hok
    rw [hitem] at hlabel hpeers
    have hpeer₁ := (congrArg (fun peers => peers[peer]?) hpeers).trans
      (Table.getElem?_insert_same ..)
    obtain ⟨heq, htotal⟩ := sumEach_cons_ok items hitem
    rw [hok] at heq htotal
    obtain ⟨total, htotal⟩ := htotal _ rfl
    have hloop : sumEach (SyncNode.pollItem peer) items n₁ = (.ok total, n') :=
      Prod.ext htotal heq.symm
    obtain ⟨hrest, hlabel', inbound, hall⟩ := ih hpeer₁ (h.item hI hitem) hloop
    refine ⟨hrest, hlabel'.trans hlabel, inbound, fun p => ?_⟩
    rw [hall p]
    split
    · rfl
    · rename_i hp
      rw [hpeers, Table.getElem?_insert_of_ne _ _ hp]

/-- A page that is read, or the end of the bucket. -/
theorem pollPage_reads_all (h : Reception peer I)
    (hinc : (l.relay.queue (bucketFor l.node.label peer)).Pairwise fun a b => a.1 < b.1)
    (htalks : l.Talks peer channels) (hI : I (l.before peer channels) l.node)
    {outcome : Option Nat} (hok : l.pollPage peer = (.ok outcome, l')) :
    ∃ channels', l.Received channels l' peer channels' ∧ I (l'.before peer channels') l'.node ∧
      match outcome with
      | none => l'.before peer channels' = []
      | some _ => (l'.before peer channels').length < (l.before peer channels).length := by
  unfold pollPage at hok
  rw [htalks.lookup] at hok
  dsimp only at hok
  have hsame := l.relay.fetch_same (bucketFor l.node.label peer) channels.fetchCursor 256
  rcases hfetch : l.relay.fetch (bucketFor l.node.label peer) channels.fetchCursor 256
    with ⟨page, relay⟩
  rw [hfetch] at hok hsame
  dsimp only at hsame
  cases page with
  | compacted compactedUpTo => cases hok
  | invalidCursor requested frontier => cases hok
  | entries items nextCursor hasMore =>
    obtain ⟨hitems, hnext, hmore⟩ := Relay.fetch_entries hfetch
    have hafter := Relay.queueAfter_page hinc hsame hnext (by decide)
    have hposition : nextCursor = channels.fetchCursor ∨
        ∃ item ∈ l.relay.queue (bucketFor l.node.label peer), nextCursor = item.1 := by
      cases hlast : ((l.relay.queueAfter (bucketFor l.node.label peer)
          channels.fetchCursor).take 256).getLast? with
      | none => exact .inl (by rw [hnext, hlast]; rfl)
      | some last =>
        have hmem := List.mem_of_mem_take (List.mem_of_getLast? hlast)
        exact .inr ⟨last, (List.mem_filter.1 hmem).1, by rw [hnext, hlast]; rfl⟩
    obtain ⟨hlabel, hpeers⟩ := l.node.moveCursor_peers peer channels nextCursor
    have hkept := h.move nextCursor htalks.lookup hI
    rcases hmove : l.node.moveCursor peer channels nextCursor with ⟨_ | _, n⟩ <;>
      rw [hmove] at hlabel hpeers hkept <;> simp only [hmove] at hok
    · cases hok
    dsimp only at hlabel hpeers hkept
    have hmoved (p : String) : n.peers[p]? =
        if peer = p then some { channels with fetchCursor := nextCursor } else none := by
      rw [hpeers, Table.getElem?_insert_eq]
      split
      · rfl
      · rename_i hp
        rw [htalks p, if_neg hp]
    -- What is left is what follows the page.
    have hbefore (n' : SyncNode) (hn' : n'.label = n.label) (inbound : SessionV2) :
        ({ l with node := n', relay := relay } : Link).before peer
            { channels with fetchCursor := nextCursor, inbound := inbound } =
          (l.before peer channels).drop 256 := by
      simp only [before, hn', hlabel, hafter, ← List.map_drop]
    have hreceived (n' : SyncNode) (hn' : n'.label = n.label) (inbound : SessionV2)
        (hall : ∀ p : String, n'.peers[p]? = if peer = p then
          some { channels with fetchCursor := nextCursor, inbound := inbound } else n.peers[p]?) :
        l.Received channels { l with node := n', relay := relay } peer
          { channels with fetchCursor := nextCursor, inbound := inbound } := by
      refine ⟨fun p => ?_, rfl, rfl, hn'.trans hlabel, hsame, hposition⟩
      rw [hall p]
      split
      · rfl
      · rename_i hp
        rw [hmoved p, if_neg hp]
    split at hok
    · rename_i hdone
      cases hok
      have hnil : l.before peer channels = [] := by
        rw [List.isEmpty_iff.1 hdone.1, List.map_nil, eq_comm, List.take_eq_nil_iff] at hitems
        rw [before, hitems.resolve_left (by decide), List.map_nil]
      have hleft := hbefore n rfl channels.inbound
      rw [hnil, List.drop_nil] at hleft
      refine ⟨{ channels with fetchCursor := nextCursor },
        hreceived n rfl channels.inbound fun p => ?_, ?_, hleft⟩
      · rw [hmoved p]
        split <;> rfl
      · rw [hnil] at hkept
        exact hleft ▸ hkept
    · rename_i hgoes
      rcases hloop : sumEach (SyncNode.pollItem peer) items n with ⟨_ | total, n'⟩ <;>
        rw [hloop] at hok
      · cases hok
      cases hok
      have hpage : l.before peer channels =
          items.map FetchedItem.payload ++ (l.before peer channels).drop 256 := by
        have hsnd := congrArg (List.map Prod.snd) hitems
        rw [List.map_map, List.map_take] at hsnd
        have htake : items.map FetchedItem.payload = (l.before peer channels).take 256 := hsnd
        rw [htake, List.take_append_drop]
      rw [hpage] at hkept
      have hpeer : n.peers[peer]? = some { channels with fetchCursor := nextCursor } := by
        rw [hmoved peer, if_pos rfl]
      obtain ⟨hrest, hlabel', inbound, hall⟩ := pollItems_reads h hpeer hkept hloop
      refine ⟨{ channels with fetchCursor := nextCursor, inbound := inbound },
        hreceived n' hlabel' inbound hall, ?_, ?_⟩
      · rw [hbefore n' hlabel' inbound]
        exact hrest
      · dsimp only
        rw [hbefore n' hlabel' inbound, List.length_drop]
        have hne : l.before peer channels ≠ [] := by
          intro hnil
          have hqueue := List.map_eq_nil_iff.1 hnil
          rw [hqueue, List.take_nil, List.map_eq_nil_iff] at hitems
          exact hgoes ⟨List.isEmpty_iff.2 hitems, by simp [hmore, hqueue]⟩
        have hpos := List.length_pos_iff.2 hne
        omega

theorem pollPages_reads_all (h : Reception peer I) (fuel : Nat)
    (hinc : (l.relay.queue (bucketFor l.node.label peer)).Pairwise fun a b => a.1 < b.1)
    (htalks : l.Talks peer channels) (hI : I (l.before peer channels) l.node)
    (hfuel : (l.before peer channels).length < fuel)
    (hok : pollPages peer fuel l = (.ok count, l')) :
    ∃ channels', l.Received channels l' peer channels' ∧ I [] l'.node ∧
      l'.before peer channels' = [] := by
  induction fuel generalizing l channels count with
  | zero => omega
  | succ fuel ih =>
    unfold pollPages at hok
    rcases hpage : l.pollPage peer with ⟨_ | outcome, l₁⟩ <;> simp only [hpage] at hok
    · cases hok
    obtain ⟨channels₁, hreceived, hI₁, hleft⟩ := pollPage_reads_all h hinc htalks hI hpage
    cases outcome with
    | none =>
      cases hok
      exact ⟨channels₁, hreceived, hleft ▸ hI₁, hleft⟩
    | some taken =>
      dsimp only at hok hleft
      rcases hpages : pollPages peer fuel l₁ with ⟨_ | rest, l₂⟩ <;> simp only [hpages] at hok
      · cases hok
      cases hok
      rw [← hreceived.label, ← hreceived.relay.queue] at hinc
      obtain ⟨channels₂, hreceived', hdone⟩ :=
        ih hinc hreceived.talks hI₁ (by omega) hpages
      exact ⟨channels₂, hreceived.trans hreceived', hdone⟩

/-- **A poll that succeeds reads everything** that is queued for a node with one peer. -/
theorem poll_reads_all (h : Reception peer I)
    (hinc : (l.relay.queue (bucketFor l.node.label peer)).Pairwise fun a b => a.1 < b.1)
    (htalks : l.Talks peer channels) (hI : I (l.before peer channels) l.node)
    (hok : l.poll = (.ok count, l')) :
    ∃ channels', l.Received channels l' peer channels' ∧ I [] l'.node ∧
      l'.before peer channels' = [] := by
  unfold poll at hok
  rw [htalks.keys] at hok
  unfold sumEach at hok
  rcases hpeer : l.pollPeer peer with ⟨_ | taken, l₁⟩ <;> simp only [hpeer, sumEach] at hok
  · cases hok
  · cases hok
    refine pollPages_reads_all h _ hinc htalks hI (Nat.lt_succ_of_le ?_) hpeer
    rw [before, List.length_map]
    refine (List.length_filter_le _ _).trans ?_
    rw [Relay.queue, List.length_map]

end Link

end

end Altior.Sync
