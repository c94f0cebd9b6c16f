import Altior.Crypto.Ratchet
import Altior.Sync.Delivery
import Altior.Sync.Moves

/-!
# Turns between two paired nodes

The sender opens a turn with every flush, whether or not anything of it reaches
the relay; the receiver follows at most one turn at a time.  In a run in which no
flush opens a turn before the receiver has seen, or can still read, one envelope
of the turn before, everything in the receiver's bucket opens.
-/

namespace Altior.Sync

open Lib Crypto

/-! ## Buckets -/

section

variable {π : Type}

namespace Bucket

/-- The positions and payloads after a position. -/
def queueAfter (b : Bucket π) (after : Nat) : List (Nat × π) :=
  (b.entries.map fun entry => (entry.seq, entry.payload)).filter fun item => after < item.1

/-- The payloads after a position. -/
def unread (b : Bucket π) (after : Nat) : List π := (b.queueAfter after).map Prod.snd

/-- A bucket whose positions go up, read up to a position at least as far as the
relay knows. -/
structure Placed (b : Bucket π) (nextSeq cursor : Nat) : Prop where
  increasing : (b.entries.map fun entry => (entry.seq, entry.payload)).Pairwise
    fun x y => x.1 < y.1
  bounded : ∀ entry ∈ b.entries, entry.seq < nextSeq
  fetched : b.cursor ≤ cursor
  position : cursor < nextSeq

variable {b : Bucket π} {nextSeq cursor : Nat}

theorem unread_congr {b' : Bucket π}
    (h : b'.entries.map (fun entry => (entry.seq, entry.payload)) =
      b.entries.map fun entry => (entry.seq, entry.payload)) (after : Nat) :
    b'.unread after = b.unread after := by
  simp only [unread, queueAfter, h]

theorem placed_empty {nextSeq : Nat} (h : 0 < nextSeq) : (empty : Bucket π).Placed nextSeq 0 :=
  ⟨.nil, fun _ hmem => absurd hmem List.not_mem_nil, Nat.le_refl _, h⟩

theorem Placed.mono (h : b.Placed nextSeq cursor) {nextSeq' : Nat} (hle : nextSeq ≤ nextSeq') :
    b.Placed nextSeq' cursor :=
  ⟨h.increasing, fun entry hentry => Nat.lt_of_lt_of_le (h.bounded entry hentry) hle, h.fetched,
    Nat.lt_of_lt_of_le h.position hle⟩

/-- One more entry. -/
theorem Placed.append (h : b.Placed nextSeq cursor) {entry : QueueEntry π}
    (hseq : entry.seq = nextSeq) :
    ({ b with entries := b.entries ++ [entry] } : Bucket π).Placed (nextSeq + 1) cursor ∧
      ({ b with entries := b.entries ++ [entry] } : Bucket π).unread cursor =
        b.unread cursor ++ [entry.payload] := by
  refine ⟨⟨?_, fun x hx => ?_, h.fetched, Nat.lt_succ_of_lt h.position⟩, ?_⟩
  · rw [List.map_append, List.pairwise_append]
    refine ⟨h.increasing, List.pairwise_singleton _ _, fun x hx y hy => ?_⟩
    obtain ⟨e, he, rfl⟩ := List.mem_map.1 hx
    rw [List.map_singleton, List.mem_singleton] at hy
    rw [hy, hseq]
    exact h.bounded e he
  · obtain hx | hx := List.mem_append.1 hx
    · exact Nat.lt_succ_of_lt (h.bounded x hx)
    · rw [List.mem_singleton.1 hx, hseq]
      exact Nat.lt_succ_self _
  · have hnew : cursor < entry.seq := hseq ▸ h.position
    simp [unread, queueAfter, List.filter_append, hnew]

/-- Folding what was fetched takes away nothing unread. -/
theorem Placed.compactTo (h : b.Placed nextSeq cursor) (len : π → Nat) :
    (Relay.compactTo len b b.cursor).Placed nextSeq cursor ∧
      (Relay.compactTo len b b.cursor).unread cursor = b.unread cursor := by
  have hsub : List.Sublist (Relay.compactTo len b b.cursor).entries b.entries :=
    List.dropWhile_sublist _
  refine ⟨⟨h.increasing.sublist (hsub.map _), fun entry hentry => h.bounded entry (hsub.subset hentry),
    h.fetched, h.position⟩, ?_⟩
  have hdrop (entries : List (QueueEntry π)) :
      ((entries.dropWhile fun entry => entry.seq ≤ b.cursor).filter fun entry =>
        cursor < entry.seq) = entries.filter fun entry => cursor < entry.seq := by
    induction entries with
    | nil => rfl
    | cons entry entries ih =>
      rw [List.dropWhile_cons]
      split
      · rename_i hle
        have hold : ¬ cursor < entry.seq := by
          have := h.fetched
          have := of_decide_eq_true hle
          omega
        rw [ih, List.filter_cons_of_neg (by simpa using hold)]
      · rfl
  simp only [unread, queueAfter, Relay.compactTo, List.filter_map, Function.comp_def]
  rw [hdrop]

/-- What is left after a page. -/
theorem Placed.page (h : b.Placed nextSeq cursor) (count : Nat) {next : Nat}
    (hnext : next = (((b.queueAfter cursor).take count).getLast?.map Prod.fst).getD cursor)
    (hcount : 0 < count) :
    cursor ≤ next ∧ next < nextSeq ∧ b.unread next = (b.unread cursor).drop count := by
  have hinc : (b.queueAfter cursor).Pairwise fun x y => x.1 < y.1 := h.increasing.filter _
  cases hlast : ((b.queueAfter cursor).take count).getLast? with
  | none =>
    rw [hlast] at hnext
    have hnil : b.queueAfter cursor = [] :=
      (List.take_eq_nil_iff.1 (List.getLast?_eq_none_iff.1 hlast)).resolve_left (by omega)
    have heq : next = cursor := hnext
    subst heq
    exact ⟨Nat.le_refl _, h.position, by simp [unread, hnil]⟩
  | some last =>
    rw [hlast] at hnext
    have heq : next = last.1 := hnext
    subst heq
    have hmem : last ∈ b.queueAfter cursor := List.mem_of_mem_take (List.mem_of_getLast? hlast)
    obtain ⟨hmap, hlt⟩ := List.mem_filter.1 hmem
    have hlt := of_decide_eq_true hlt
    obtain ⟨entry, hentry, rfl⟩ := List.mem_map.1 hmap
    refine ⟨Nat.le_of_lt hlt, h.bounded entry hentry, ?_⟩
    rw [unread, unread, ← List.map_drop, ← filter_after_page hinc hlast]
    simp only [queueAfter, List.filter_filter]
    congr 1
    refine List.filter_congr fun item _ => ?_
    by_cases hitem : entry.seq < item.1
    · simp [hitem, Nat.lt_trans hlt hitem]
    · simp [hitem]

end Bucket

namespace Relay

theorem queueAfter_bucket (r : Relay π) (label : String) (after : Nat) :
    r.queueAfter label after = (r.bucket label).queueAfter after := rfl

end Relay

end

/-! ## The mail of one direction -/

section

variable [Primitives]

/-- The mail of one direction: the receiver's position and session, and the
sender's session.  The unread mail brings the receiver in step with the sender; or
there is none, and the receiver has missed a turn. -/
structure Mailed (b : Bucket Envelope) (nextSeq cursor : Nat) (r s : SessionV2) : Prop
    extends b.Placed nextSeq cursor where
  turns : ∃ r', SessionV2.OpensTo r (b.unread cursor) r' ∧
    (SessionV2.InStep r' s ∨ b.unread cursor = [] ∧ r.turnNo ≠ s.turnNo)

/-- The receiver is at the sender's turn, or has mail of it. -/
def seen (b : Bucket Envelope) (cursor : Nat) (r s : SessionV2) : Bool :=
  r.turnNo = s.turnNo ∨ ∃ envelope ∈ b.unread cursor,
    (envelope.header.any fun (_, turnNo, _) => turnNo = s.turnNo) = true

/-- The mail of a direction whose sender may open a turn. -/
structure Current (b : Bucket Envelope) (nextSeq cursor : Nat) (r s : SessionV2) : Prop
    extends b.Placed nextSeq cursor where
  turns : ∃ r', SessionV2.OpensTo r (b.unread cursor) r' ∧ SessionV2.InStep r' s

namespace Mailed

variable {b b' : Bucket Envelope} {nextSeq cursor : Nat} {r s s' : SessionV2}

theorem of_current (h : Current b nextSeq cursor r s) : Mailed b nextSeq cursor r s := by
  obtain ⟨r', hopens, hstep⟩ := h.turns
  exact ⟨h.toPlaced, r', hopens, .inl hstep⟩

theorem mono (h : Mailed b nextSeq cursor r s) {nextSeq' : Nat} (hle : nextSeq ≤ nextSeq') :
    Mailed b nextSeq' cursor r s :=
  ⟨h.toPlaced.mono hle, h.turns⟩

/-- A sender that was seen is one the mail leads up to. -/
theorem synced (h : Mailed b nextSeq cursor r s) (hseen : seen b cursor r s = true) :
    ∃ r', SessionV2.OpensTo r (b.unread cursor) r' ∧ SessionV2.Synced r' s := by
  obtain ⟨r', hopens, hstep⟩ := h.turns
  simp only [seen, decide_eq_true_eq] at hseen
  have hheader : r.turnNo = s.turnNo ∨ ∃ envelope ∈ b.unread cursor, ∃ epoch counter,
      envelope.header = some (epoch, s.turnNo, counter) := by
    obtain hturn | ⟨envelope, hmem, hany⟩ := hseen
    · exact .inl hturn
    · rcases hheader : envelope.header with _ | ⟨epoch, turnNo, counter⟩ <;> rw [hheader] at hany
      · cases hany
      · have hturn : turnNo = s.turnNo := of_decide_eq_true hany
        exact .inr ⟨envelope, hmem, epoch, counter, hturn ▸ hheader⟩
  obtain hstep | ⟨hnil, hturn⟩ := hstep
  · exact ⟨r', hopens, hopens.synced hstep hheader⟩
  · obtain hsame | ⟨envelope, hmem, -⟩ := hheader
    · exact absurd hsame hturn
    · rw [hnil] at hmem
      cases hmem

/-- Folding what was fetched. -/
theorem compactTo (h : Mailed b nextSeq cursor r s) (len : Envelope → Nat) :
    Mailed (Relay.compactTo len b b.cursor) nextSeq cursor r s := by
  obtain ⟨hplaced, hunread⟩ := h.toPlaced.compactTo len
  refine ⟨hplaced, ?_⟩
  rw [hunread]
  exact h.turns

/-- A page was fetched and read up to some envelope.  If that was not its last one,
nothing may be left after the page. -/
theorem page (h : Mailed b nextSeq cursor r s) {next : Nat} {r₁ : SessionV2}
    {front back : List Envelope}
    (hqueue : b'.entries.map (fun entry => (entry.seq, entry.payload)) =
      b.entries.map fun entry => (entry.seq, entry.payload))
    (hcursor : b'.cursor ≤ max (max b.cursor cursor) next)
    (hnext : next = (((b.queueAfter cursor).take 256).getLast?.map Prod.fst).getD cursor)
    (hpage : (b.unread cursor).take 256 = front ++ back) (hfront : SessionV2.OpensTo r front r₁)
    (hrest : back = [] ∨ (b.unread cursor).length ≤ 256) : Mailed b' nextSeq next r₁ s := by
  obtain ⟨hle, hlt, hunread⟩ := h.toPlaced.page 256 hnext (by decide)
  have hunread' : b'.unread next = (b.unread cursor).drop 256 :=
    (Bucket.unread_congr hqueue next).trans hunread
  have hbounded (entry : QueueEntry Envelope) (hentry : entry ∈ b'.entries) :
      entry.seq < nextSeq := by
    have hmem : (entry.seq, entry.payload) ∈
        b'.entries.map fun entry => (entry.seq, entry.payload) := List.mem_map_of_mem hentry
    rw [hqueue] at hmem
    obtain ⟨old, hold, heq⟩ := List.mem_map.1 hmem
    have hseq : old.seq = entry.seq := congrArg Prod.fst heq
    exact hseq ▸ h.bounded old hold
  have hfetched : b'.cursor ≤ next := by
    have := h.fetched
    omega
  refine ⟨⟨hqueue ▸ h.increasing, hbounded, hfetched, hlt⟩, ?_⟩
  rw [hunread']
  obtain ⟨r', hopens, hturns⟩ := h.turns
  have hwhole : b.unread cursor = front ++ (back ++ (b.unread cursor).drop 256) := by
    rw [← List.append_assoc, ← hpage, List.take_append_drop]
  rw [hwhole] at hopens
  obtain ⟨r₂, hfront', hback⟩ := hopens.split
  cases hfront.unique hfront'
  obtain hstep | ⟨hnil, hturn⟩ := hturns
  · obtain rfl | hshort := hrest
    · exact ⟨r', hback, .inl hstep⟩
    · -- The rest of the page is skipped, and there is nothing after it.
      rw [List.drop_eq_nil_iff.2 hshort] at hback ⊢
      refine ⟨r₁, .nil r₁, ?_⟩
      by_cases hturn : r₁.turnNo = s.turnNo
      · exact .inl (.inl (hback.synced_before hstep hturn))
      · exact .inr ⟨rfl, hturn⟩
  · rw [hnil] at hwhole
    obtain ⟨rfl, hrest⟩ := List.append_eq_nil_iff.1 hwhole.symm
    cases hfront
    rw [hnil, List.drop_nil]
    exact ⟨r, .nil r, .inr ⟨rfl, hturn⟩⟩

end Mailed

namespace Current

variable {b : Bucket Envelope} {nextSeq cursor : Nat} {r s s' : SessionV2}

/-- A counter is spent on nothing. -/
theorem sealPlain (h : Current b nextSeq cursor r s) (plain : Primitives.Plain) :
    Current b nextSeq cursor r (s.sealPlain plain).2 := by
  obtain ⟨r', hopens, hstep⟩ := h.turns
  exact ⟨h.toPlaced, r', hopens, hstep.sealPlain plain⟩

/-- One more envelope of the sender. -/
theorem push [AuthenticAead] [AgreeingKeys] (h : Current b nextSeq cursor r s)
    {plain : Primitives.Plain} {envelope : Envelope}
    (hseal : s.sealPlain plain = (.ok envelope, s')) {entry : QueueEntry Envelope}
    (hseq : entry.seq = nextSeq) (hpayload : entry.payload = envelope) :
    Current { b with entries := b.entries ++ [entry] } (nextSeq + 1) cursor r s' := by
  obtain ⟨hplaced, hunread⟩ := h.toPlaced.append hseq
  obtain ⟨r', hopens, hstep⟩ := h.turns
  obtain ⟨r'', hopen, hsynced⟩ := hstep.opens hseal
  refine ⟨hplaced, r'', ?_, .inl hsynced⟩
  rw [hunread, hpayload]
  exact hopens.append (.cons hopen (.nil r''))

end Current

/-- The sender opens a turn. -/
theorem Mailed.openTurn {b : Bucket Envelope} {nextSeq cursor : Nat} {r s s' : SessionV2}
    (h : Mailed b nextSeq cursor r s) (hseen : seen b cursor r s = true) {seed : Bytes32}
    (hopen : s.openTurn seed = .ok s') : Current b nextSeq cursor r s' := by
  obtain ⟨r', hopens, hsynced⟩ := h.synced hseen
  exact ⟨h.toPlaced, r', hopens, .inr (hsynced.openTurn hopen)⟩

end

/-! ## Reading it -/

section

variable [Primitives] [SyncCodec]

/-- What opens of the mail passes the checks that follow: it decodes, a chunk is
accepted, an event is genuine and, unless its id is known, fits the store. -/
def passes (peer : String) : Reading → List Envelope → Bool
  | _, [] => true
  | r, envelope :: envelopes =>
    match r.channel peer with
    | none => true
    | some (identity, inbound) =>
      match inbound.openEnvelope envelope with
      | (.error _, _) => true
      | (.ok plain, inbound) =>
        match SyncCodec.fromSlice plain with
        | none => false
        | some (.chunk chunk) =>
          match SyncNode.ingestChunk r.blobs peer chunk with
          | .error _ => false
          | .ok blobs =>
            passes peer { r.setSession peer identity inbound with blobs := blobs }
              envelopes
        | some (.event wire) =>
          match toSignature wire.signature with
          | none => false
          | some signature =>
            genuine identity wire signature &&
              (wire.eventId ∈ r.applied || r.journal.isNone ||
                (wire.toJournal signature).fits) &&
              passes peer
                ((r.setSession peer identity inbound).add (wire.toJournal signature))
                envelopes

namespace SyncNode

/-- An envelope that opens and passes the checks. -/
theorem pollItem_passes {n : SyncNode} {peer : String} {channels : PeerChannels}
    {item : FetchedItem Envelope} {envelopes : List Envelope} {plain : Primitives.Plain}
    {inbound : SessionV2} (hfaults : NoFaults n) (hpeer : n.peers[peer]? = some channels)
    (hopen : channels.inbound.openEnvelope item.payload = (.ok plain, inbound))
    (hpasses : passes peer n.reading (item.payload :: envelopes) = true) :
    ∃ count, (pollItem peer n item).1 = .ok count ∧ NoFaults (pollItem peer n item).2 ∧
      passes peer (pollItem peer n item).2.reading envelopes = true := by
  have hchannel : n.reading.channel peer = some (channels.identity, channels.inbound) := by
    simp [reading, hpeer]
  have hfaults' : NoFaults (n.setInbound peer channels inbound) := hfaults
  have hreading := n.reading_setInbound peer channels inbound
  simp only [passes, hchannel, hopen] at hpasses
  simp only [pollItem, hpeer, hopen]
  cases hdecode : SyncCodec.fromSlice plain with
  | none => simp [hdecode] at hpasses
  | some payload =>
    cases payload with
    | chunk chunk =>
      simp only [hdecode] at hpasses ⊢
      have hblobs : (n.setInbound peer channels inbound).blobs = n.reading.blobs := rfl
      rw [hblobs]
      cases hingest : ingestChunk n.reading.blobs peer chunk with
      | error e => simp [hingest] at hpasses
      | ok blobs =>
        simp only [hingest, ← hreading] at hpasses ⊢
        exact ⟨0, rfl, hfaults', hpasses⟩
    | event wire =>
      simp only [hdecode] at hpasses ⊢
      cases hsignature : toSignature wire.signature with
      | none => simp [hsignature] at hpasses
      | some signature =>
        simp only [hsignature, Bool.and_eq_true, ← hreading] at hpasses
        obtain ⟨⟨hgenuine, hfits⟩, hrest⟩ := hpasses
        obtain ⟨count, hok, hfaults'', hadd⟩ :=
          receiveWire_passes hfaults' hsignature hgenuine hfits
        exact ⟨count, hok, hfaults'', hadd ▸ hrest⟩

/-- Whatever becomes of an envelope, it moves the session with its peer and leaves the
other channels. -/
theorem pollItem_channels {n : SyncNode} {peer : String} {channels : PeerChannels}
    (hpeer : n.peers[peer]? = some channels) (item : FetchedItem Envelope) :
    (pollItem peer n item).2.label = n.label ∧
      (pollItem peer n item).2.peers = n.peers.insert peer
        { channels with inbound := (channels.inbound.openEnvelope item.payload).2 } := by
  refine ⟨(pollItem_extends peer n item).label, ?_⟩
  obtain ⟨n', hset, ⟨blobs, h⟩ | ⟨e, h⟩⟩ := pollItem_cases hpeer item <;> rw [h]
  · rw [hset]
    rfl
  · rw [(n'.admitEvent_learns e).peers, hset]
    rfl

/-- An envelope that opens. -/
theorem pollItem_peers {n : SyncNode} {peer : String} {channels : PeerChannels}
    {item : FetchedItem Envelope} {plain : Primitives.Plain} {inbound : SessionV2}
    (hpeer : n.peers[peer]? = some channels)
    (hopen : channels.inbound.openEnvelope item.payload = (.ok plain, inbound)) :
    (pollItem peer n item).2.peers =
      n.peers.insert peer { channels with inbound := inbound } := by
  rw [(pollItem_channels hpeer item).2, hopen]

/-- The items of a page whose envelopes open: the session moves along them, to the
end of the page unless one fails after it was opened. -/
theorem pollItems_open {peer : String} {items : List (FetchedItem Envelope)} {n : SyncNode}
    {channels : PeerChannels} {r' : SessionV2} (hpeer : n.peers[peer]? = some channels)
    (hopens : SessionV2.OpensTo channels.inbound (items.map FetchedItem.payload) r') :
    ∃ front back r₁, items.map FetchedItem.payload = front ++ back ∧
      SessionV2.OpensTo channels.inbound front r₁ ∧
      (∀ p : String, (sumEach (pollItem peer) items n).2.peers[p]? =
        if peer = p then some { channels with inbound := r₁ } else n.peers[p]?) ∧
      ((sumEach (pollItem peer) items n).1.isOk = true → back = []) := by
  induction items generalizing n channels with
  | nil =>
    refine ⟨[], [], channels.inbound, rfl, .nil _, fun p => ?_, fun _ => rfl⟩
    simp only [sumEach]
    split
    · rename_i hp
      exact hp ▸ hpeer
    · rfl
  | cons item items ih =>
    obtain _ | ⟨hopen, hrest⟩ := hopens
    rename_i r₀ plain
    have hpeers := pollItem_peers hpeer hopen
    rcases hitem : pollItem peer n item with ⟨_ | count, n'⟩ <;> rw [hitem] at hpeers
    · refine ⟨[item.payload], items.map FetchedItem.payload, r₀, rfl, .cons hopen (.nil _),
        fun p => ?_, fun hok => ?_⟩
      · simp only [sumEach, hitem]
        rw [hpeers, Table.getElem?_insert_eq]
      · simp only [sumEach, hitem] at hok
        cases hok
    · have hpeer' : n'.peers[peer]? = some { channels with inbound := r₀ } := by
        rw [hpeers, Table.getElem?_insert_same]
      obtain ⟨front, back, r₁, hsplit, hfront, hall, hback⟩ := ih hpeer' hrest
      refine ⟨item.payload :: front, back, r₁, ?_, .cons hopen hfront, fun p => ?_, fun hok => ?_⟩
      · rw [List.map_cons, hsplit, List.cons_append]
      · rw [(sumEach_cons_ok items hitem).1, hall p]
        split
        · rfl
        · rename_i hp
          rw [hpeers, Table.getElem?_insert_of_ne _ _ hp]
      · refine hback ?_
        simp only [sumEach, hitem] at hok
        rcases hloop : sumEach (pollItem peer) items n' with ⟨_ | _, _⟩ <;>
          simp only [hloop] at hok ⊢
        · cases hok
        · rfl

/-- The items of a page that open and pass the checks. -/
theorem pollItems_passes {peer : String} {items : List (FetchedItem Envelope)}
    {more : List Envelope} {n : SyncNode} {channels : PeerChannels} {r' : SessionV2}
    (hfaults : NoFaults n) (hpeer : n.peers[peer]? = some channels)
    (hopens : SessionV2.OpensTo channels.inbound (items.map FetchedItem.payload) r')
    (hpasses : passes peer n.reading (items.map FetchedItem.payload ++ more) = true) :
    (sumEach (pollItem peer) items n).1.isOk = true ∧
      NoFaults (sumEach (pollItem peer) items n).2 ∧
      passes peer (sumEach (pollItem peer) items n).2.reading more = true := by
  induction items generalizing n channels with
  | nil => exact ⟨rfl, hfaults, hpasses⟩
  | cons item items ih =>
    obtain _ | ⟨hopen, hrest⟩ := hopens
    have hpeers := pollItem_peers hpeer hopen
    obtain ⟨count, hok, hfaults', hpasses'⟩ := pollItem_passes hfaults hpeer hopen hpasses
    rcases hitem : pollItem peer n item with ⟨_ | count, n'⟩ <;> rw [hitem] at hok
    · cases hok
    rw [hitem] at hpeers hfaults' hpasses'
    have hpeer' := (congrArg (fun peers => peers[peer]?) hpeers).trans
      (Table.getElem?_insert_same ..)
    obtain ⟨hoks, hfaults'', hpasses''⟩ := ih hfaults' hpeer' hrest hpasses'
    simp only [sumEach, hitem]
    rcases hloop : sumEach (pollItem peer) items n' with ⟨_ | _, _⟩ <;>
      rw [hloop] at hoks hfaults'' hpasses''
    · cases hoks
    · exact ⟨rfl, hfaults'', hpasses''⟩

omit [Primitives] [SyncCodec] in
/-- Moving the position, whatever the port says. -/
theorem moveCursor_peers (n : SyncNode) (peer : String) (channels : PeerChannels) (cursor : Nat) :
    (n.moveCursor peer channels cursor).2.label = n.label ∧
      (n.moveCursor peer channels cursor).2.peers =
        n.peers.insert peer { channels with fetchCursor := cursor } := by
  unfold moveCursor
  dsimp only
  split
  · exact ⟨rfl, rfl⟩
  · split <;> exact ⟨rfl, rfl⟩

end SyncNode

namespace Link

/-- The node has one peer, with these channels. -/
def Talks (l : Link) (peer : String) (channels : PeerChannels) : Prop :=
  ∀ p : String, l.node.peers[p]? = if peer = p then some channels else none

/-- The bucket the node reads what a peer pushed from. -/
def inbox (l : Link) (peer : String) : Bucket Envelope :=
  l.relay.bucket (bucketFor l.node.label peer)

/-- The bucket the node pushes to for a peer. -/
def outbox (l : Link) (peer : String) : Bucket Envelope :=
  l.relay.bucket (bucketFor peer l.node.label)

/-- Whatever a poll does after opening an envelope cannot make it skip mail: the
unread mail is one page, or no call to the port fails and the mail passes. -/
def clear (l : Link) (peer : String) : Bool :=
  match l.node.peers[peer]? with
  | none => true
  | some channels =>
    ((l.inbox peer).unread channels.fetchCursor).length ≤ 256 ∨
      (∀ port ∈ l.node.port, port.faults = []) ∧
        passes peer l.node.reading ((l.inbox peer).unread channels.fetchCursor) = true

variable {l l' : Link} {peer : String} {channels channels' : PeerChannels} {s r : SessionV2}

omit [SyncCodec] in
theorem Talks.lookup (h : l.Talks peer channels) : l.node.peers[peer]? = some channels := by
  rw [h peer, if_pos rfl]

theorem clear_iff (h : l.Talks peer channels) :
    l.clear peer = true ↔ ((l.inbox peer).unread channels.fetchCursor).length ≤ 256 ∨
      NoFaults l.node ∧
        passes peer l.node.reading ((l.inbox peer).unread channels.fetchCursor) = true := by
  simp [clear, h.lookup, NoFaults]

/-- What a poll leaves to the other direction. -/
structure Listened (l : Link) (channels : PeerChannels) (l' : Link) (peer : String)
    (channels' : PeerChannels) : Prop where
  talks : l'.Talks peer channels'
  label : l'.node.label = l.node.label
  nextSeq : l'.relay.nextSeq = l.relay.nextSeq
  outbound : channels'.outbound = channels.outbound
  outbox : l'.outbox peer = l.outbox peer

/-- One page: the mail stays readable. -/
theorem pollPage_listened (hbuckets : bucketFor peer l.node.label ≠ bucketFor l.node.label peer)
    (htalks : l.Talks peer channels)
    (hmailed : Mailed (l.inbox peer) l.relay.nextSeq channels.fetchCursor channels.inbound s)
    (hclear : l.clear peer = true) :
    ∃ channels', l.Listened channels (l.pollPage peer).2 peer channels' ∧
      Mailed ((l.pollPage peer).2.inbox peer) l.relay.nextSeq channels'.fetchCursor
        channels'.inbound s ∧
      ((l.pollPage peer).1.isOk = true → (l.pollPage peer).2.clear peer = true) := by
  have hstay : l.Listened channels l peer channels := ⟨htalks, rfl, rfl, rfl, rfl⟩
  obtain ⟨hseq, hothers, hfetched⟩ :=
    l.relay.fetch_bucket (bucketFor l.node.label peer) channels.fetchCursor 256
  have hsame := l.relay.fetch_same (bucketFor l.node.label peer) channels.fetchCursor 256
  unfold pollPage
  rw [htalks.lookup]
  dsimp only
  rcases hfetch : l.relay.fetch (bucketFor l.node.label peer) channels.fetchCursor 256
    with ⟨page, relay⟩
  rw [hfetch] at hseq hothers hfetched hsame
  have hout : relay.bucket (bucketFor peer l.node.label) = l.outbox peer :=
    hothers _ hbuckets
  cases page with
  | compacted compactedUpTo =>
    obtain rfl | ⟨_, _, _, heq, -⟩ := hfetched
    · exact ⟨channels, hstay, hmailed, fun h => nomatch h⟩
    · cases heq
  | invalidCursor requested frontier =>
    obtain rfl | ⟨_, _, _, heq, -⟩ := hfetched
    · exact ⟨channels, hstay, hmailed, fun h => nomatch h⟩
    · cases heq
  | entries items nextCursor hasMore =>
    obtain ⟨hitems, hnext, -⟩ := Relay.fetch_entries hfetch
    rw [Relay.queueAfter_bucket] at hitems hnext
    have hpayloads : items.map FetchedItem.payload =
        ((l.inbox peer).unread channels.fetchCursor).take 256 := by
      have hsnd := congrArg (List.map Prod.snd) hitems
      rw [List.map_map, List.map_take] at hsnd
      exact hsnd
    have hcursor : (relay.bucket (bucketFor l.node.label peer)).cursor ≤
        max (max (l.inbox peer).cursor channels.fetchCursor) nextCursor := by
      obtain rfl | ⟨_, _, _, heq, hcursor⟩ := hfetched
      · exact Nat.le_trans (Nat.le_max_left _ _) (Nat.le_max_left _ _)
      · cases heq
        exact Nat.le_of_eq hcursor
    -- The page is read up to some envelope, and the mail stays readable.
    have hread (n : SyncNode) (hlabel : n.label = l.node.label) (front back : List Envelope)
        (r₁ : SessionV2)
        (hpage : ((l.inbox peer).unread channels.fetchCursor).take 256 = front ++ back)
        (hfront : SessionV2.OpensTo channels.inbound front r₁)
        (hrest : back = [] ∨ ((l.inbox peer).unread channels.fetchCursor).length ≤ 256)
        (hpeers : ∀ p : String, n.peers[p]? = if peer = p then
          some { channels with fetchCursor := nextCursor, inbound := r₁ } else none) :
        ∃ channels', l.Listened channels { l with node := n, relay := relay } peer channels' ∧
          Mailed (({ l with node := n, relay := relay } : Link).inbox peer) l.relay.nextSeq
            channels'.fetchCursor channels'.inbound s := by
      refine ⟨{ channels with fetchCursor := nextCursor, inbound := r₁ },
        ⟨hpeers, hlabel, hseq, rfl, ?_⟩, ?_⟩
      · simp only [outbox, hlabel]
        exact hout
      · simp only [inbox, hlabel]
        exact hmailed.page (hsame.queue _) hcursor hnext hpage hfront hrest
    have hleft : (relay.bucket (bucketFor l.node.label peer)).unread nextCursor =
        ((l.inbox peer).unread channels.fetchCursor).drop 256 :=
      (Bucket.unread_congr (hsame.queue _) nextCursor).trans
        (hmailed.toPlaced.page 256 hnext (by decide)).2.2
    have hclear' (n : SyncNode) (hlabel : n.label = l.node.label) (r₁ : SessionV2)
        (hpeer : n.peers[peer]? =
          some { channels with fetchCursor := nextCursor, inbound := r₁ })
        (h : ((l.inbox peer).unread channels.fetchCursor).length ≤ 256 ∨ NoFaults n ∧
          passes peer n.reading (((l.inbox peer).unread channels.fetchCursor).drop 256) = true) :
        ({ l with node := n, relay := relay } : Link).clear peer = true := by
      simp only [clear, hpeer, inbox, hlabel, hleft, decide_eq_true_eq]
      obtain hshort | hpasses := h
      · left
        rw [List.length_drop]
        exact Nat.le_trans (Nat.sub_le _ _) hshort
      · exact .inr hpasses
    obtain ⟨hlabel, hpeers⟩ := l.node.moveCursor_peers peer channels nextCursor
    have hmoved (p : String) : (l.node.moveCursor peer channels nextCursor).2.peers[p]? =
        if peer = p then some { channels with fetchCursor := nextCursor } else none := by
      rw [hpeers, Table.getElem?_insert_eq]
      split
      · rfl
      · rename_i hp
        rw [htalks p, if_neg hp]
    rw [clear_iff htalks] at hclear
    have hmove : NoFaults l.node → (l.node.moveCursor peer channels nextCursor).1 = .ok () ∧
        NoFaults (l.node.moveCursor peer channels nextCursor).2 ∧
        (l.node.moveCursor peer channels nextCursor).2.reading = l.node.reading := by
      intro hfaults
      obtain ⟨n', heq, hfaults', hmoved'⟩ :=
        SyncNode.moveCursor_moved hfaults peer channels nextCursor
      rw [heq]
      exact ⟨rfl, hfaults', hmoved'.reading_eq htalks.lookup⟩
    rcases hcall : l.node.moveCursor peer channels nextCursor with ⟨_ | _, n⟩ <;>
      rw [hcall] at hlabel hmoved hmove <;> simp only [hcall]
    · -- The position has moved over a page that is not read.
      obtain ⟨channels', hlistened, hmailed'⟩ := hread n hlabel [] _ channels.inbound rfl (.nil _)
        (.inr (hclear.resolve_right fun h => nomatch (hmove h.1).1)) hmoved
      exact ⟨channels', hlistened, hmailed', fun h => nomatch h⟩
    obtain ⟨r', hopens, -⟩ := hmailed.turns
    rw [← List.take_append_drop 256 ((l.inbox peer).unread channels.fetchCursor)] at hopens
    obtain ⟨r₂, htake, -⟩ := hopens.split
    rw [← hpayloads] at htake
    have hpeer : n.peers[peer]? = some { channels with fetchCursor := nextCursor } := by
      rw [hmoved peer, if_pos rfl]
    split
    · rename_i hdone
      have hnil : items = [] := List.isEmpty_iff.1 hdone.1
      rw [hnil, List.map_nil] at hpayloads
      have hempty := (List.take_eq_nil_iff.1 hpayloads.symm).resolve_left (by decide)
      obtain ⟨channels', hlistened, hmailed'⟩ := hread n hlabel [] [] channels.inbound
        hpayloads.symm (.nil _) (.inl rfl) hmoved
      refine ⟨channels', hlistened, hmailed', fun _ => hclear' n hlabel channels.inbound hpeer ?_⟩
      exact .inl (by rw [hempty]; exact Nat.zero_le _)
    · obtain ⟨front, back, r₁, hsplit, hfront, hall, hback⟩ :=
        SyncNode.pollItems_open hpeer htake
      have hext : n.Extends (sumEach (SyncNode.pollItem peer) items n).2 :=
        sumEach_invariant (I := fun n' : SyncNode => n.Extends n')
          (fun n' item h => h.trans (SyncNode.pollItem_extends peer n' item)) items (.refl n)
      have hpasses : NoFaults l.node ∧ passes peer l.node.reading
          ((l.inbox peer).unread channels.fetchCursor) = true →
          (sumEach (SyncNode.pollItem peer) items n).1.isOk = true ∧
            NoFaults (sumEach (SyncNode.pollItem peer) items n).2 ∧
            passes peer (sumEach (SyncNode.pollItem peer) items n).2.reading
              (((l.inbox peer).unread channels.fetchCursor).drop 256) = true := by
        rintro ⟨hfaults, hpasses⟩
        obtain ⟨-, hfaults', hreading⟩ := hmove hfaults
        refine SyncNode.pollItems_passes hfaults' hpeer htake ?_
        rw [hpayloads, List.take_append_drop, hreading]
        exact hpasses
      have hpeers' (p : String) : (sumEach (SyncNode.pollItem peer) items n).2.peers[p]? =
          if peer = p then some { channels with fetchCursor := nextCursor, inbound := r₁ }
          else none := by
        rw [hall p]
        split
        · rfl
        · rename_i hp
          rw [hmoved p, if_neg hp]
      rcases hloop : sumEach (SyncNode.pollItem peer) items n with ⟨_ | count, n'⟩ <;>
        rw [hloop] at hback hext hpasses hpeers' <;> dsimp only
      · obtain ⟨channels', hlistened, hmailed'⟩ := hread n' (hext.label.trans hlabel) front back r₁
          (hpayloads ▸ hsplit) hfront (.inr (hclear.resolve_right fun h => nomatch (hpasses h).1))
          hpeers'
        exact ⟨channels', hlistened, hmailed', fun h => nomatch h⟩
      · obtain ⟨channels', hlistened, hmailed'⟩ := hread n' (hext.label.trans hlabel) front back r₁
          (hpayloads ▸ hsplit) hfront (.inl (hback rfl)) hpeers'
        refine ⟨channels', hlistened, hmailed', fun _ =>
          hclear' n' (hext.label.trans hlabel) r₁ ?_ (hclear.imp_right fun h => (hpasses h).2)⟩
        rw [hpeers' peer, if_pos rfl]

omit [SyncCodec] in
theorem Listened.trans {l'' : Link} {channels'' : PeerChannels}
    (h : l.Listened channels l' peer channels') (h' : l'.Listened channels' l'' peer channels'') :
    l.Listened channels l'' peer channels'' where
  talks := h'.talks
  label := h'.label.trans h.label
  nextSeq := h'.nextSeq.trans h.nextSeq
  outbound := h'.outbound.trans h.outbound
  outbox := h'.outbox.trans h.outbox

theorem pollPages_listened (fuel : Nat)
    (hbuckets : bucketFor peer l.node.label ≠ bucketFor l.node.label peer)
    (htalks : l.Talks peer channels)
    (hmailed : Mailed (l.inbox peer) l.relay.nextSeq channels.fetchCursor channels.inbound s)
    (hclear : l.clear peer = true) :
    ∃ channels', l.Listened channels (pollPages peer fuel l).2 peer channels' ∧
      Mailed ((pollPages peer fuel l).2.inbox peer) l.relay.nextSeq channels'.fetchCursor
        channels'.inbound s := by
  induction fuel generalizing l channels with
  | zero => exact ⟨channels, ⟨htalks, rfl, rfl, rfl, rfl⟩, hmailed⟩
  | succ fuel ih =>
    obtain ⟨channels₁, hlistened, hmailed₁, hclear₁⟩ :=
      pollPage_listened hbuckets htalks hmailed hclear
    unfold pollPages
    rcases hpage : l.pollPage peer with ⟨_ | _ | count, l₁⟩ <;>
      rw [hpage] at hlistened hmailed₁ hclear₁
    · exact ⟨channels₁, hlistened, hmailed₁⟩
    · exact ⟨channels₁, hlistened, hmailed₁⟩
    · rw [← hlistened.label] at hbuckets
      rw [← hlistened.nextSeq] at hmailed₁ ⊢
      obtain ⟨channels₂, hlistened', hmailed₂⟩ :=
        ih hbuckets hlistened.talks hmailed₁ (hclear₁ rfl)
      dsimp only
      rcases hpages : pollPages peer fuel l₁ with ⟨_ | rest, l₂⟩ <;>
        rw [hpages] at hlistened' hmailed₂ <;>
        exact ⟨channels₂, hlistened.trans hlistened', hmailed₂⟩

omit [SyncCodec] in
/-- The one peer of a node. -/
theorem Talks.keys (h : l.Talks peer channels) : l.node.peers.keys = [peer] := by
  have hall (p : String) (hp : p ∈ l.node.peers.keys) : p = peer := by
    obtain ⟨c, hc⟩ := Table.mem_iff.1 (Std.ExtTreeMap.mem_keys.1 hp)
    rw [h p] at hc
    split at hc
    · rename_i heq
      exact heq.symm
    · cases hc
  have hmem : peer ∈ l.node.peers.keys :=
    Std.ExtTreeMap.mem_keys.2 (Table.mem_iff.2 ⟨channels, h.lookup⟩)
  have hnodup : l.node.peers.keys.Nodup := Std.ExtTreeMap.nodup_keys
  rcases hkeys : l.node.peers.keys with _ | ⟨p, _ | ⟨q, rest⟩⟩ <;> rw [hkeys] at hall hmem hnodup
  · cases hmem
  · rw [hall p (List.mem_singleton.2 rfl)]
  · have hp := hall p (List.mem_cons_self ..)
    have hq := hall q (List.mem_cons_of_mem _ (List.mem_cons_self ..))
    rw [hp, hq] at hnodup
    exact absurd (List.mem_cons_self ..) (List.nodup_cons.1 hnodup).1

/-- A poll. -/
theorem poll_listened (hbuckets : bucketFor peer l.node.label ≠ bucketFor l.node.label peer)
    (htalks : l.Talks peer channels)
    (hmailed : Mailed (l.inbox peer) l.relay.nextSeq channels.fetchCursor channels.inbound s)
    (hclear : l.clear peer = true) :
    ∃ channels', l.Listened channels l.poll.2 peer channels' ∧
      Mailed (l.poll.2.inbox peer) l.relay.nextSeq channels'.fetchCursor channels'.inbound s := by
  have hpeer := pollPages_listened ((l.inbox peer).entries.length + 1) hbuckets htalks hmailed hclear
  have hpoll : l.poll.2 = (l.pollPeer peer).2 := by
    rw [poll, htalks.keys, sumEach]
    rcases l.pollPeer peer with ⟨_ | _, _⟩ <;> rfl
  rw [hpoll]
  exact hpeer

/-! ## Sending it -/

/-- What a flush keeps after its poll: the mail it reads, and the mail it sends. -/
structure Spoken (l : Link) (peer : String) (cursor : Nat) (r s : SessionV2)
    (channels : PeerChannels) : Prop where
  talks : l.Talks peer channels
  mailed : Mailed (l.inbox peer) l.relay.nextSeq channels.fetchCursor channels.inbound s
  current : Current (l.outbox peer) l.relay.nextSeq cursor r channels.outbound

omit [SyncCodec] in
theorem Talks.setOutbound (h : l.Talks peer channels) (outbound : SessionV2) (p : String) :
    (l.node.peers.insert peer { channels with outbound := outbound })[p]? =
      if peer = p then some { channels with outbound := outbound } else none := by
  rw [Table.getElem?_insert_eq]
  split
  · rfl
  · rename_i hp
    rw [h p, if_neg hp]

variable {cursor : Nat} [AuthenticAead] [AgreeingKeys]

/-- Sealing and pushing: what reaches the bucket opens, and what does not costs a
counter. -/
theorem sealAndPush_spoken (hbuckets : bucketFor peer l.node.label ≠ bucketFor l.node.label peer)
    (h : l.Spoken peer cursor r s channels) (key pushId : String) (payload : SyncPayload)
    (record : Option JournalEvent) :
    (l.sealAndPush peer key pushId payload record).2.node.label = l.node.label ∧
      ∃ channels', (l.sealAndPush peer key pushId payload record).2.Spoken peer cursor r s
        channels' := by
  have hspent := h.current.sealPlain (SyncCodec.toVec payload)
  unfold sealAndPush
  rw [h.talks.lookup]
  dsimp only
  rcases hseal : channels.outbound.sealPlain (SyncCodec.toVec payload) with ⟨_ | envelope, outbound⟩
  · rw [hseal] at hspent
    exact ⟨rfl, _, h.talks.setOutbound outbound, h.mailed, hspent⟩
  dsimp only
  obtain ⟨-, hseq, hsame⟩ | ⟨hok, hseq, hgrown, -⟩ :=
    l.relay.push_bucket Envelope.len (bucketFor peer l.node.label) pushId envelope
  · -- The relay is as before.
    rw [hseal] at hspent
    have hkept (n : SyncNode) (pushed : List Pushed) (hlabel : n.label = l.node.label)
        (hpeers : n.peers = l.node.peers.insert peer { channels with outbound := outbound }) :
        (⟨n, (l.relay.push Envelope.len (bucketFor peer l.node.label) pushId envelope).2, pushed⟩ :
          Link).Spoken peer cursor r s { channels with outbound := outbound } := by
      refine ⟨fun p => ?_, ?_, ?_⟩
      · dsimp only
        rw [hpeers]
        exact h.talks.setOutbound outbound p
      · simp only [inbox, hlabel, hsame, hseq]
        exact h.mailed
      · simp only [outbox, hlabel, hsame, hseq]
        exact hspent
    rcases hpush : l.relay.push Envelope.len (bucketFor peer l.node.label) pushId envelope
      with ⟨_ | outcome, relay⟩ <;> rw [hpush] at hkept
    · exact ⟨rfl, _, hkept _ _ rfl rfl⟩
    · exact ⟨rfl, _, hkept _ _ rfl rfl⟩
  · rcases hpush : l.relay.push Envelope.len (bucketFor peer l.node.label) pushId envelope
      with ⟨_ | outcome, relay⟩ <;> rw [hpush] at hok hseq hgrown
    · cases hok
    dsimp only at hseq hgrown
    refine ⟨rfl, { channels with outbound := outbound }, h.talks.setOutbound outbound, ?_, ?_⟩
    · simp only [inbox, hgrown, if_neg hbuckets, hseq]
      exact h.mailed.mono (Nat.le_succ _)
    · simp only [outbox, hgrown, if_true, hseq]
      exact h.current.push hseal rfl rfl

/-- The links a flush goes through. -/
def Speaks (label peer : String) (cursor : Nat) (r s : SessionV2) (l : Link) : Prop :=
  l.node.label = label ∧ ∃ channels, l.Spoken peer cursor r s channels

variable {label : String}

theorem flushEvent_speaks (hbuckets : bucketFor peer label ≠ bucketFor label peer)
    (h : Speaks label peer cursor r s l) (event : JournalEvent) :
    Speaks label peer cursor r s (flushEvent peer l event).2 := by
  obtain ⟨rfl, channels, hspoken⟩ := h
  unfold flushEvent
  split
  · exact ⟨rfl, channels, hspoken⟩
  · exact sealAndPush_spoken hbuckets hspoken _ _ _ _

theorem flushPeer_speaks (hbuckets : bucketFor peer label ≠ bucketFor label peer) (seed : Bytes32)
    (hlabel : l.node.label = label) (h : l.Spoken peer cursor r s channels)
    (hseen : seen (l.outbox peer) cursor r channels.outbound = true) :
    Speaks label peer cursor r s (flushPeer seed l peer).2 := by
  have hstay : Speaks label peer cursor r s l := ⟨hlabel, channels, h⟩
  unfold flushPeer
  split
  · unfold openTurn
    rw [h.talks.lookup]
    dsimp only
    cases hturn : channels.outbound.openTurn seed with
    | error e => exact hstay
    | ok outbound =>
      have hopened : Speaks label peer cursor r s { l with node := { l.node with
          peers := l.node.peers.insert peer { channels with outbound := outbound } } } :=
        ⟨hlabel, _, h.talks.setOutbound outbound, h.mailed,
          (Mailed.of_current h.current).openTurn hseen hturn⟩
      exact sumEach_invariant (I := Speaks label peer cursor r s)
        (fun l' event h' => flushEvent_speaks hbuckets h' event) _ hopened
  · exact hstay

theorem fanOutBlobChunks_speaks (hbuckets : bucketFor peer label ≠ bucketFor label peer)
    (h : Speaks label peer cursor r s l) :
    Speaks label peer cursor r s (l.fanOutBlobChunks [peer]).2 := by
  refine sumEach_invariant_mem (C := False) _ (fun l' chunk hchunk h' _ => ?_) h False.elim
  obtain ⟨⟨blobId, stored⟩, -, hchunk⟩ := List.mem_flatMap.1 hchunk
  obtain ⟨chunkId, -, hchunk⟩ := List.mem_flatMap.1 hchunk
  obtain ⟨_, hpeer, rfl⟩ := List.mem_map.1 hchunk
  obtain rfl := List.mem_singleton.1 hpeer
  simp only [fanOutChunk]
  split
  · exact h'
  split
  · exact h'
  split
  · exact h'
  · obtain ⟨rfl, channels, hspoken⟩ := h'
    exact sealAndPush_spoken hbuckets hspoken _ _ _ _

omit [AuthenticAead] [AgreeingKeys] in
theorem acknowledge_frame (n : SyncNode) :
    n.acknowledge.2.label = n.label ∧ n.acknowledge.2.peers = n.peers := by
  have hlearns := (n.create (.ack n.appliedFrontier)).2.admitEvent_learns
    (n.create (.ack n.appliedFrontier)).1
  rw [SyncNode.acknowledge, (n.createAdmit_eq _).1]
  exact ⟨hlearns.label, hlearns.peers⟩

/-- A flush whose peer has seen the turn. -/
theorem flush_mailed (hbuckets : bucketFor peer l.node.label ≠ bucketFor l.node.label peer)
    (htalks : l.Talks peer channels)
    (hmailed : Mailed (l.inbox peer) l.relay.nextSeq channels.fetchCursor channels.inbound s)
    (hout : Mailed (l.outbox peer) l.relay.nextSeq cursor r channels.outbound)
    (hclear : l.clear peer = true) (hseen : seen (l.outbox peer) cursor r channels.outbound = true)
    (seed : Bytes32) : Speaks l.node.label peer cursor r s (l.flush seed).2 := by
  obtain ⟨channels₁, hlistened, hmailed₁⟩ := poll_listened hbuckets htalks hmailed hclear
  obtain ⟨r', hopens, hsynced⟩ := hout.synced hseen
  obtain ⟨hacklabel, hackpeers⟩ := acknowledge_frame l.poll.2.node
  unfold flush
  rcases hpoll : l.poll with ⟨result, polled⟩
  rw [hpoll] at hlistened hmailed₁ hacklabel hackpeers
  dsimp only at hlistened hmailed₁ hacklabel hackpeers
  -- Before the turn is opened, everything sent so far is in step.
  have hspoken (node : SyncNode) (hlabel : node.label = polled.node.label)
      (hpeers : node.peers = polled.node.peers) :
      ({ polled with node := node } : Link).Spoken peer cursor r s channels₁ ∧
        seen (({ polled with node := node } : Link).outbox peer) cursor r channels₁.outbound =
          true := by
    have houtbox : ({ polled with node := node } : Link).outbox peer = l.outbox peer := by
      simp only [outbox, hlabel]
      exact hlistened.outbox
    rw [houtbox, hlistened.outbound]
    refine ⟨⟨fun p => ?_, ?_, ?_⟩, hseen⟩
    · dsimp only
      rw [hpeers]
      exact hlistened.talks p
    · simp only [inbox, hlabel, hlistened.nextSeq]
      exact hmailed₁
    · rw [houtbox, hlistened.outbound]
      dsimp only
      rw [hlistened.nextSeq]
      exact ⟨hout.toPlaced, r', hopens, .inl hsynced⟩
  cases result with
  | error e => exact ⟨hlistened.label, channels₁, (hspoken polled.node rfl rfl).1⟩
  | ok count =>
    dsimp only
    rcases hack : polled.node.acknowledge with ⟨_ | _, node⟩ <;> rw [hack] at hacklabel hackpeers
    · exact ⟨hacklabel.trans hlistened.label, channels₁, (hspoken node hacklabel hackpeers).1⟩
    obtain ⟨hacked, hacked'⟩ := hspoken node hacklabel hackpeers
    have hkeys : node.peers.keys = [peer] := hacked.talks.keys
    have hturn := flushPeer_speaks hbuckets seed (hacklabel.trans hlistened.label) hacked hacked'
    have hpeers : (sumEach (flushPeer seed) [peer] { polled with node := node }).2 =
        (flushPeer seed { polled with node := node } peer).2 := by
      rw [sumEach]
      rcases flushPeer seed { polled with node := node } peer with ⟨_ | _, _⟩ <;> rfl
    rw [← hpeers] at hturn
    dsimp only
    rw [hkeys]
    rcases hflush : sumEach (flushPeer seed) [peer] { polled with node := node }
      with ⟨_ | _, flushed⟩ <;> rw [hflush] at hturn
    · exact hturn
    · have hchunks := fanOutBlobChunks_speaks hbuckets hturn
      dsimp only at hchunks ⊢
      rcases hfan : flushed.fanOutBlobChunks [peer] with ⟨_ | _, l'⟩ <;> rw [hfan] at hchunks <;>
        exact hchunks

end Link

/-! ## Runs of two paired nodes -/

/-- What the two nodes do from their pairing on. -/
def Between (a b : String) : VaultInput → Prop
  | .system (.node _ _) => True
  | .system (.poll label) => label = a ∨ label = b
  | .system (.flush label _) => label = a ∨ label = b
  | .system (.restart _) => False
  | .system (.pair _ _ _ _ _ _) => False
  | .send _ _ _ => False
  | .compactRelay _ => True
  | .compactTombstones _ => True

/-- The other one of the two. -/
def other (a b label : String) : String := if label = a then b else a

namespace System

/-- The receiver is at the sender's turn, or has mail of it. -/
def seen (s : System) (sender receiver : String) : Bool :=
  match (s.nodes sender).peers[receiver]?, (s.nodes receiver).peers[sender]? with
  | some sending, some receiving =>
    Sync.seen (s.relay.bucket (bucketFor receiver sender)) receiving.fetchCursor
      receiving.inbound sending.outbound
  | _, _ => true

/-- Everything the sender has in the receiver's bucket opens, in its order. -/
def opens (s : System) (receiver sender : String) : Bool :=
  match (s.nodes receiver).peers[sender]? with
  | none => true
  | some channels =>
    channels.inbound.opensAll
      ((s.relay.bucket (bucketFor receiver sender)).unread channels.fetchCursor)

end System

/-- The condition on a step: a poll skips no mail, and a flush comes after the
receiver has seen the turn before or while it can still read mail of it. -/
def Continues (a b : String) (s : System) : VaultInput → Prop
  | .system (.poll label) => (s.link label).clear (other a b label) = true
  | .system (.flush label _) =>
    (s.link label).clear (other a b label) = true ∧ s.seen label (other a b label) = true
  | _ => True

instance (a b : String) (s : System) (i : VaultInput) : Decidable (Continues a b s i) :=
  match i with
  | .system (.poll label) =>
    inferInstanceAs (Decidable ((s.link label).clear (other a b label) = true))
  | .system (.flush label _) =>
    inferInstanceAs (Decidable ((s.link label).clear (other a b label) = true ∧
      s.seen label (other a b label) = true))
  | .system (.node _ _) => inferInstanceAs (Decidable True)
  | .system (.restart _) => inferInstanceAs (Decidable True)
  | .system (.pair _ _ _ _ _ _) => inferInstanceAs (Decidable True)
  | .send _ _ _ => inferInstanceAs (Decidable True)
  | .compactRelay _ => inferInstanceAs (Decidable True)
  | .compactTombstones _ => inferInstanceAs (Decidable True)

/-- Two nodes that have each other as their only peer, with the mail of both
directions. -/
structure System.Conversing (s : System) (a b : String) (channelsA channelsB : PeerChannels) :
    Prop where
  labelA : (s.nodes a).label = a
  labelB : (s.nodes b).label = b
  talksA : (s.link a).Talks b channelsA
  talksB : (s.link b).Talks a channelsB
  mailedA : Mailed (s.relay.bucket (bucketFor a b)) s.relay.nextSeq channelsA.fetchCursor
    channelsA.inbound channelsB.outbound
  mailedB : Mailed (s.relay.bucket (bucketFor b a)) s.relay.nextSeq channelsB.fetchCursor
    channelsB.inbound channelsA.outbound

namespace System.Conversing

variable {s : System} {a b : String} {channelsA channelsB : PeerChannels}

omit [SyncCodec] in
theorem symm (h : s.Conversing a b channelsA channelsB) : s.Conversing b a channelsB channelsA :=
  ⟨h.labelB, h.labelA, h.talksB, h.talksA, h.mailedB, h.mailedA⟩

omit [SyncCodec] in
/-- A step of some node that leaves its label and its channels. -/
theorem setNode (h : s.Conversing a b channelsA channelsB) {label : String} {n : SyncNode}
    (hlabel : n.label = (s.nodes label).label) (hpeers : n.peers = (s.nodes label).peers) :
    (s.setNode label n).Conversing a b channelsA channelsB := by
  have hnode (x : String) : ((s.setNode label n).nodes x).label = (s.nodes x).label ∧
      ((s.setNode label n).nodes x).peers = (s.nodes x).peers := by
    simp only [System.setNode]
    split
    · rename_i hx
      rw [hx]
      exact ⟨hlabel, hpeers⟩
    · exact ⟨rfl, rfl⟩
  refine ⟨(hnode a).1.trans h.labelA, (hnode b).1.trans h.labelB, fun p => ?_, fun p => ?_,
    h.mailedA, h.mailedB⟩
  · exact (congrArg (fun peers => peers[p]?) (hnode a).2).trans (h.talksA p)
  · exact (congrArg (fun peers => peers[p]?) (hnode b).2).trans (h.talksB p)

omit [SyncCodec] in
/-- The first node was at the relay. -/
theorem setLink (h : s.Conversing a b channelsA channelsB) (hne : a ≠ b) {l : Link}
    {channels : PeerChannels} (hlabel : l.node.label = a) (htalks : l.Talks b channels)
    (hin : Mailed (l.relay.bucket (bucketFor a b)) l.relay.nextSeq channels.fetchCursor
      channels.inbound channelsB.outbound)
    (hout : Mailed (l.relay.bucket (bucketFor b a)) l.relay.nextSeq channelsB.fetchCursor
      channelsB.inbound channels.outbound) :
    (s.setLink a l).Conversing a b channels channelsB := by
  have ha : (s.setLink a l).nodes a = l.node := if_pos rfl
  have hb : (s.setLink a l).nodes b = s.nodes b := if_neg (Ne.symm hne)
  refine ⟨?_, ?_, fun p => ?_, fun p => ?_, hin, hout⟩
  · rw [ha, hlabel]
  · rw [hb, h.labelB]
  · simp only [System.link, ha]
    exact htalks p
  · simp only [System.link, hb]
    exact h.talksB p

theorem poll (h : s.Conversing a b channelsA channelsB)
    (hbuckets : bucketFor a b ≠ bucketFor b a) (hclear : (s.link a).clear b = true) :
    ∃ channels, (s.setLink a (s.link a).poll.2).Conversing a b channels channelsB := by
  have hlabel : (s.link a).node.label = a := h.labelA
  have hne : a ≠ b := fun heq => hbuckets (heq ▸ rfl)
  obtain ⟨channels, hlistened, hmailed⟩ := Link.poll_listened (l := s.link a)
    (by rw [hlabel]; exact Ne.symm hbuckets) h.talksA
    (by simp only [Link.inbox, hlabel]; exact h.mailedA) hclear
  refine ⟨channels, h.setLink hne (hlistened.label.trans hlabel) hlistened.talks ?_ ?_⟩
  · rw [hlistened.nextSeq]
    simpa only [Link.inbox, hlistened.label, hlabel] using hmailed
  · have houtbox := hlistened.outbox
    simp only [Link.outbox, hlistened.label, hlabel] at houtbox
    rw [houtbox, hlistened.nextSeq, hlistened.outbound]
    exact h.mailedB

theorem flush [AuthenticAead] [AgreeingKeys] (h : s.Conversing a b channelsA channelsB)
    (hbuckets : bucketFor a b ≠ bucketFor b a) (hclear : (s.link a).clear b = true)
    (hseen : s.seen a b = true) (seed : Bytes32) :
    ∃ channels, (s.setLink a ((s.link a).flush seed).2).Conversing a b channels channelsB := by
  have hlabel : (s.link a).node.label = a := h.labelA
  have hne : a ≠ b := fun heq => hbuckets (heq ▸ rfl)
  have hA : (s.nodes a).peers[b]? = some channelsA := h.talksA.lookup
  have hB : (s.nodes b).peers[a]? = some channelsB := h.talksB.lookup
  simp only [System.seen, hA, hB] at hseen
  obtain ⟨hlabel', channels, hspoken⟩ := Link.flush_mailed (l := s.link a)
    (by rw [hlabel]; exact Ne.symm hbuckets) h.talksA
    (by simp only [Link.inbox, hlabel]; exact h.mailedA)
    (by simp only [Link.outbox, hlabel]; exact h.mailedB) hclear
    (by simp only [Link.outbox, hlabel]; exact hseen) seed
  have hflushed := hlabel'.trans hlabel
  refine ⟨channels, h.setLink hne hflushed hspoken.talks ?_ ?_⟩
  · simpa only [Link.inbox, hflushed] using hspoken.mailed
  · simpa only [Link.outbox, hflushed] using Mailed.of_current hspoken.current

omit [SyncCodec] in
/-- The relay folds a bucket. -/
theorem compactRelay (h : s.Conversing a b channelsA channelsB) (bucket : String) :
    ({ s with relay := s.relay.compact Envelope.len bucket } : System).Conversing a b channelsA
      channelsB := by
  have hfolded (x : String) : (s.relay.compact Envelope.len bucket).bucket x =
      s.relay.bucket x ∨ (s.relay.compact Envelope.len bucket).bucket x =
        Relay.compactTo Envelope.len (s.relay.bucket x) (s.relay.bucket x).cursor := by
    simp only [Relay.bucket, Relay.compact, Table.getElem?_update]
    split
    · cases s.relay.buckets[x]? with
      | none => exact .inl rfl
      | some slot => exact .inr rfl
    · exact .inl rfl
  refine ⟨h.labelA, h.labelB, h.talksA, h.talksB, ?_, ?_⟩
  · obtain hsame | hfold := hfolded (bucketFor a b)
    · exact hsame ▸ h.mailedA
    · exact hfold ▸ h.mailedA.compactTo _
  · obtain hsame | hfold := hfolded (bucketFor b a)
    · exact hsame ▸ h.mailedB
    · exact hfold ▸ h.mailedB.compactTo _

omit [SyncCodec] in
/-- Everything unread opens. -/
theorem opens (h : s.Conversing a b channelsA channelsB) : s.opens a b = true := by
  have hA : (s.nodes a).peers[b]? = some channelsA := h.talksA.lookup
  obtain ⟨r', hopens, -⟩ := h.mailedA.turns
  simp only [System.opens, hA]
  exact hopens.opensAll

end System.Conversing

/-- A local step leaves the channels alone. -/
theorem nodeStep_peers (n : SyncNode) (i : NodeInput) (hlocal : ∀ e, i ≠ .receive e) :
    (nodeStep n i).peers = n.peers := by
  obtain ⟨count, heq⟩ | ⟨faults, heq⟩ | ⟨blobs, body, -, -, heq, -⟩ := nodeStep_local n i hlocal
  · rw [heq]
  · rw [heq]
  · rw [heq, (SyncNode.createAdmit_eq _ body).1, (SyncNode.admitEvent_learns _ _).peers]
    rfl

/-- A step of the two nodes that meets the condition. -/
theorem vaultStep_conversing [AuthenticAead] [AgreeingKeys] {s : System} {a b : String}
    (hbuckets : bucketFor a b ≠ bucketFor b a)
    (h : ∃ channelsA channelsB, s.Conversing a b channelsA channelsB) (i : VaultInput)
    (hbetween : Between a b i) (hok : Continues a b s i) :
    ∃ channelsA channelsB, (vaultStep s i).Conversing a b channelsA channelsB := by
  obtain ⟨channelsA, channelsB, h⟩ := h
  have hne : a ≠ b := fun heq => hbuckets (heq ▸ rfl)
  have ha : other a b a = b := if_pos rfl
  have hb : other a b b = a := if_neg (Ne.symm hne)
  cases i with
  | send bucket id envelope => exact hbetween.elim
  | compactRelay bucket => exact ⟨channelsA, channelsB, h.compactRelay bucket⟩
  | compactTombstones label => exact ⟨channelsA, channelsB, h.setNode rfl rfl⟩
  | system input =>
    obtain hsame | ⟨hstep, hlocal⟩ := vaultStep_system s input
    · rw [hsame]
      exact ⟨channelsA, channelsB, h⟩
    rw [hstep]
    cases input with
    | node label input =>
      refine ⟨channelsA, channelsB, h.setNode (nodeStep_extends _ _).label ?_⟩
      exact nodeStep_peers _ _ fun e he => hlocal label e (he ▸ rfl)
    | poll label =>
      simp only [Continues] at hok
      obtain rfl | rfl := hbetween
      · rw [ha] at hok
        obtain ⟨channels, hpolled⟩ := h.poll hbuckets hok
        exact ⟨channels, channelsB, hpolled⟩
      · rw [hb] at hok
        obtain ⟨channels, hpolled⟩ := h.symm.poll (Ne.symm hbuckets) hok
        exact ⟨channelsA, channels, hpolled.symm⟩
    | flush label seed =>
      simp only [Continues] at hok
      obtain rfl | rfl := hbetween
      · rw [ha] at hok
        obtain ⟨channels, hflushed⟩ := h.flush hbuckets hok.1 hok.2 seed
        exact ⟨channels, channelsB, hflushed⟩
      · rw [hb] at hok
        obtain ⟨channels, hflushed⟩ := h.symm.flush (Ne.symm hbuckets) hok.1 hok.2 seed
        exact ⟨channelsA, channels, hflushed.symm⟩
    | restart label => exact hbetween.elim
    | pair a' b' epoch epochSeq aToB bToA => exact hbetween.elim

omit [SyncCodec] in
/-- What a pairing makes: four sessions, and a peer at each node. -/
theorem pair_sessions {a b a' b' : SyncNode} {epoch : Epoch} {epochSeq : UInt32}
    {aToB bToA : Option CounterBlock}
    (h : SyncNode.pair a b epoch epochSeq aToB bToA = .ok (a', b')) :
    ∃ channelsA channelsB : PeerChannels,
      a' = { a with peers := a.peers.insert b.label channelsA } ∧
      b' = { b with peers := b.peers.insert a.label channelsB } ∧
      channelsA.fetchCursor = a.loadedCursors[b.label]?.getD 0 ∧
      channelsB.fetchCursor = b.loadedCursors[a.label]?.getD 0 ∧
      SessionV2.outbound a.keys b.keys.publicIdentity epoch epochSeq aToB = .ok channelsA.outbound ∧
      SessionV2.inbound b.keys a.keys.publicIdentity epoch epochSeq = .ok channelsB.inbound ∧
      SessionV2.outbound b.keys a.keys.publicIdentity epoch epochSeq bToA = .ok channelsB.outbound ∧
      SessionV2.inbound a.keys b.keys.publicIdentity epoch epochSeq = .ok channelsA.inbound := by
  simp only [SyncNode.pair] at h
  split at h
  · cases h
  rename_i outboundA inboundA outboundB inboundB hsessions
  cases h
  cases houtA : SessionV2.outbound a.keys b.keys.publicIdentity epoch epochSeq aToB with
  | error e =>
    rw [houtA] at hsessions
    cases hsessions
  | ok x =>
    rw [houtA] at hsessions
    cases hinB : SessionV2.inbound b.keys a.keys.publicIdentity epoch epochSeq with
    | error e =>
      rw [hinB] at hsessions
      cases hsessions
    | ok y =>
      rw [hinB] at hsessions
      cases houtB : SessionV2.outbound b.keys a.keys.publicIdentity epoch epochSeq bToA with
      | error e =>
        rw [houtB] at hsessions
        cases hsessions
      | ok z =>
        rw [houtB] at hsessions
        cases hinA : SessionV2.inbound a.keys b.keys.publicIdentity epoch epochSeq with
        | error e =>
          rw [hinA] at hsessions
          cases hsessions
        | ok w =>
          rw [hinA] at hsessions
          cases hsessions
          exact ⟨_, _, rfl, rfl, rfl, rfl, rfl, rfl, rfl, rfl⟩

omit [SyncCodec] in
/-- Each session of a pairing is in step with the one at the other end. -/
theorem pair_synced [AgreeingKeys] {a b a' b' : SyncNode} {epoch : Epoch} {epochSeq : UInt32}
    {aToB bToA : Option CounterBlock}
    (h : SyncNode.pair a b epoch epochSeq aToB bToA = .ok (a', b')) :
    ∃ channelsA channelsB : PeerChannels,
      a' = { a with peers := a.peers.insert b.label channelsA } ∧
      b' = { b with peers := b.peers.insert a.label channelsB } ∧
      channelsA.fetchCursor = a.loadedCursors[b.label]?.getD 0 ∧
      channelsB.fetchCursor = b.loadedCursors[a.label]?.getD 0 ∧
      SessionV2.Synced channelsA.inbound channelsB.outbound ∧
      SessionV2.Synced channelsB.inbound channelsA.outbound := by
  obtain ⟨_, _, ha, hb, hcursorA, hcursorB, houtA, hinB, houtB, hinA⟩ := pair_sessions h
  exact ⟨_, _, ha, hb, hcursorA, hcursorB, SessionV2.synced_of_pairing houtB hinA,
    SessionV2.synced_of_pairing houtA hinB⟩

/-- Nodes that have done nothing but local work. -/
structure System.Unpaired (s : System) : Prop where
  label : ∀ x, (s.nodes x).label = x
  peers : ∀ x, (s.nodes x).peers = ∅
  loaded : ∀ x, (s.nodes x).loadedCursors = ∅
  bucket : ∀ x, s.relay.bucket x = .empty
  nextSeq : 0 < s.relay.nextSeq

theorem System.Unpaired.node {s : System} (h : s.Unpaired) (label : String) (input : NodeInput) :
    (vaultStep s (.system (.node label input))).Unpaired := by
  obtain hsame | ⟨hstep, hlocal⟩ := vaultStep_system s (.node label input)
  · rw [hsame]
    exact h
  have hext := nodeStep_extends (s.nodes label) input
  have hpeers := nodeStep_peers (s.nodes label) input fun e he => hlocal label e (he ▸ rfl)
  rw [hstep]
  refine ⟨fun x => ?_, fun x => ?_, fun x => ?_, h.bucket, h.nextSeq⟩ <;>
    simp only [systemStep, System.setNode] <;> split
  · rename_i hx
    rw [hext.label, h.label, hx]
  · exact h.label x
  · rw [hpeers, h.peers]
  · exact h.peers x
  · rw [hext.loaded, h.loaded]
  · exact h.loaded x

theorem unpaired_before (policy : RelayPolicy) (keys : String → DeviceKeys)
    (isDurable : String → Bool) (before : List (String × NodeInput)) :
    ((vaultMachine policy keys isDurable).run
      (before.map fun (label, input) => .system (.node label input))).Unpaired := by
  have hlocal : (vaultMachine policy keys isDurable).Meets
      (fun _ i => ∃ label input, i = .system (.node label input))
      (vaultMachine policy keys isDurable).init
      (before.map fun (label, input) => .system (.node label input)) := by
    rw [Machine.meets_const]
    intro i hi
    obtain ⟨⟨label, input⟩, -, rfl⟩ := List.mem_map.1 hi
    exact ⟨label, input, rfl⟩
  refine Machine.invariant_of_meets (I := System.Unpaired) _ ?_ ?_ hlocal
  · rintro s _ h ⟨label, input, rfl⟩
    exact h.node label input
  · exact ⟨fun _ => rfl, fun _ => rfl, fun _ => rfl,
      fun x => by simp [vaultMachine, systemMachine, Relay.bucket, Relay.new], Nat.one_pos⟩

/-- The two nodes once they are paired. -/
theorem System.Unpaired.pair [AgreeingKeys] {s : System} (h : s.Unpaired) {a b : String}
    (hne : a ≠ b) {epoch : Epoch} {epochSeq : UInt32} {aToB bToA : Option CounterBlock}
    {nodeA nodeB : SyncNode}
    (hpair : SyncNode.pair (s.nodes a) (s.nodes b) epoch epochSeq aToB bToA = .ok (nodeA, nodeB)) :
    ∃ channelsA channelsB, (vaultStep s (.system (.pair a b epoch epochSeq aToB bToA))).Conversing
      a b channelsA channelsB := by
  obtain ⟨channelsA, channelsB, hA, hB, hcursorA, hcursorB, hsyncedA, hsyncedB⟩ := pair_synced hpair
  have hstep : vaultStep s (.system (.pair a b epoch epochSeq aToB bToA)) =
      (s.setNode a nodeA).setNode b nodeB := by
    simp only [vaultStep, systemStep, hne, if_false, hpair]
  have hnodeA : ((s.setNode a nodeA).setNode b nodeB).nodes a = nodeA := by
    simp only [System.setNode, hne, if_false, if_true]
  have hnodeB : ((s.setNode a nodeA).setNode b nodeB).nodes b = nodeB := by
    simp only [System.setNode, if_true]
  have hpeersA : nodeA.peers = (∅ : Table String PeerChannels).insert b channelsA := by
    rw [hA, h.peers, h.label b]
  have hpeersB : nodeB.peers = (∅ : Table String PeerChannels).insert a channelsB := by
    rw [hB, h.peers, h.label a]
  rw [h.loaded] at hcursorA hcursorB
  have hmailed (x : String) (cursor : Nat) (hcursor : cursor = 0) {r s' : SessionV2}
      (hsynced : SessionV2.Synced r s') :
      Mailed (((s.setNode a nodeA).setNode b nodeB).relay.bucket x) s.relay.nextSeq cursor r s' := by
    have hempty : ((s.setNode a nodeA).setNode b nodeB).relay.bucket x = .empty := h.bucket x
    rw [hempty, hcursor]
    exact ⟨Bucket.placed_empty h.nextSeq, r, .nil r, .inl (.inl hsynced)⟩
  rw [hstep]
  refine ⟨channelsA, channelsB, ?_, ?_, fun p => ?_, fun p => ?_,
    hmailed _ _ (hcursorA.trans (by simp)) hsyncedA, hmailed _ _ (hcursorB.trans (by simp)) hsyncedB⟩
  · rw [hnodeA, hA]
    exact h.label a
  · rw [hnodeB, hB]
    exact h.label b
  · simp only [System.link, hnodeA, hpeersA, Table.getElem?_insert_eq]
    split
    · rfl
    · simp
  · simp only [System.link, hnodeB, hpeersB, Table.getElem?_insert_eq]
    split
    · rfl
    · simp

/-- **Turn continuity.**  From a pairing on, in every run in which each flush comes
after the receiver has seen the turn before, or while it can still read mail of it,
everything that reached a bucket opens at its receiver. -/
theorem unread_opens [AuthenticAead] [AgreeingKeys] (policy : RelayPolicy)
    (keys : String → DeviceKeys) (isDurable : String → Bool) {a b : String}
    (hbuckets : bucketFor a b ≠ bucketFor b a) (before : List (String × NodeInput))
    (epoch : Epoch) (epochSeq : UInt32) (aToB bToA : Option CounterBlock) {s₀ : System}
    (hbefore : s₀ = (vaultMachine policy keys isDurable).run
      (before.map fun (label, input) => .system (.node label input)))
    (hpair : (SyncNode.pair (s₀.nodes a) (s₀.nodes b) epoch epochSeq aToB bToA).isOk = true)
    (inputs : List VaultInput) (hbetween : ∀ i ∈ inputs, Between a b i)
    (hmeets : (vaultMachine policy keys isDurable).Meets (Continues a b)
      (vaultStep s₀ (.system (.pair a b epoch epochSeq aToB bToA))) inputs) :
    let s := (vaultMachine policy keys isDurable).runFrom s₀
      (.system (.pair a b epoch epochSeq aToB bToA) :: inputs)
    s.opens a b = true ∧ s.opens b a = true := by
  intro s
  have hne : a ≠ b := fun heq => hbuckets (heq ▸ rfl)
  have hunpaired : s₀.Unpaired := by
    rw [hbefore]
    exact unpaired_before policy keys isDurable before
  cases hnodes : SyncNode.pair (s₀.nodes a) (s₀.nodes b) epoch epochSeq aToB bToA with
  | error e =>
    rw [hnodes] at hpair
    cases hpair
  | ok nodes =>
  have hconversing := Machine.invariant_of_meets (vaultMachine policy keys isDurable)
    (I := fun s => ∃ channelsA channelsB, s.Conversing a b channelsA channelsB)
    (fun s i h hok => vaultStep_conversing hbuckets h i hok.1 hok.2)
    (hunpaired.pair hne hnodes) (Machine.meets_and _ hbetween hmeets)
  obtain ⟨channelsA, channelsB, h⟩ := hconversing
  exact ⟨h.opens, h.symm.opens⟩

end

section

attribute [local instance] idealPrimitives idealSyncCodec idealAuthentic

theorem idealAgreeing : AgreeingKeys := ideal_agreeing IdealPlain

attribute [local instance] idealAgreeing

/-- A relay that keeps one envelope a bucket. -/
def smallRelay : RelayPolicy := { RelayPolicy.permissive with maxBucketDepth := 1 }

def appendNote : String × NodeInput := ("a", .appendDocument "d" "note")

/-- Each flush pushes one event and fails at the next; the mail is read in between. -/
def narrowRelay : List VaultInput :=
  [.system (.flush "a" (Vector.replicate 32 9)), .system (.poll "b"),
    .compactRelay (bucketFor "b" "a"), .system (.flush "a" (Vector.replicate 32 8))]

theorem unread_opens_narrow :
    let s := (vaultMachine smallRelay pairKeys fun _ => true).run
      (.system (.node "a" (.appendDocument "d" "note")) :: .system (pairing 1 1) :: narrowRelay)
    (s.pushed.map fun record => (record.seq, record.event.eventId)) = [(1, "a:1"), (2, "a:2")] ∧
      (s.relay.bucket (bucketFor "b" "a")).entries.length = 1 ∧
      s.opens "a" "b" = true ∧ s.opens "b" "a" = true := by
  intro s
  refine ⟨by decide +kernel, by decide +kernel, ?_⟩
  exact unread_opens smallRelay pairKeys (fun _ => true) (by decide) [appendNote]
    (Vector.replicate 16 7) 1 (some ⟨1, 1001⟩) (some ⟨1, 1001⟩) rfl (by decide +kernel)
    narrowRelay (by simp [narrowRelay, Between]) (by decide +kernel)

/-- A flush of which nothing reached the relay, and a later one that did: the
receiver is two turns behind. -/
theorem turn_skipped_by_full_bucket :
    let s := (vaultMachine smallRelay pairKeys fun _ => true).run
      [.system (.node "a" (.appendDocument "d" "note")), .system (pairing 1 1),
        .system (.flush "a" (Vector.replicate 32 9)), .system (.poll "b"),
        .system (.flush "a" (Vector.replicate 32 8)), .compactRelay (bucketFor "b" "a"),
        .system (.flush "a" (Vector.replicate 32 6))]
    s.opens "b" "a" = false ∧
      ((s.link "b").poll.1 matches .error (.session (.turnMismatch 1 3))) = true := by
  decide +kernel

end

end Altior.Sync
