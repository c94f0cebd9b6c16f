import Altior.Sync.Receiver
import Altior.Sync.Vault
import Mathlib.Logic.Relation

/-!
# What a poll and a flush do

A poll and a flush as sequences of small moves of a node at the relay.  Whatever
each of these moves keeps is kept by every poll and every flush.
-/

namespace Altior.Sync

open Lib Crypto

/-! ## Admitting an event -/

/-- The port has recorded at most one more event. -/
structure SyncPort.Records (p : SyncPort) (e : JournalEvent) (p' : SyncPort) : Prop where
  cursors : p'.cursors = p.cursors
  applied : p'.applied = p.applied ∨ p'.applied = p.applied ++ [e]

/-- The node has applied and recorded at most one more event, and everything else
it keeps is as it was. -/
structure SyncNode.Learns (n : SyncNode) (e : JournalEvent) (n' : SyncNode) : Prop where
  frame : n' = { n with
    applied := n'.applied, memories := n'.memories, tombstones := n'.tombstones
    documents := n'.documents, peerAcks := n'.peerAcks, blobs := n'.blobs, port := n'.port
    suppressedResurrections := n'.suppressedResurrections }
  applied : n'.applied = n.applied ∨ n'.applied = n.applied.insert e.eventId e
  port : (n.port = none ∧ n'.port = none) ∨
    ∃ p p', n.port = some p ∧ n'.port = some p' ∧ p.Records e p'

namespace SyncPort

theorem call_keeps {p q : SyncPort} {fault : Bool} (h : p.call = (fault, q)) :
    q.cursors = p.cursors ∧ q.applied = p.applied ∧ q.tombstones = p.tombstones := by
  unfold call at h
  split at h <;> cases h <;> exact ⟨rfl, rfl, rfl⟩

theorem recordTombstone_keeps (p : SyncPort) (memoryId : String) (mark : TombstoneMark)
    (at_ : Nat) :
    (p.recordTombstone memoryId mark at_).2.cursors = p.cursors ∧
      (p.recordTombstone memoryId mark at_).2.applied = p.applied := by
  unfold recordTombstone
  split
  · exact ⟨rfl, rfl⟩
  split <;> rename_i hcall <;> obtain ⟨hcursors, happlied, -⟩ := call_keeps hcall <;>
    exact ⟨hcursors, happlied⟩

theorem recordFetchCursor_keeps (p : SyncPort) (peer : String) (cursor : Nat) :
    (p.recordFetchCursor peer cursor).2.applied = p.applied ∧
      (p.recordFetchCursor peer cursor).2.tombstones = p.tombstones := by
  unfold recordFetchCursor
  split <;> rename_i hcall <;> obtain ⟨-, happlied, htombstones⟩ := call_keeps hcall <;>
    exact ⟨happlied, htombstones⟩

theorem recordApplied_records (p : SyncPort) (e : JournalEvent) :
    p.Records e (p.recordApplied e).2 := by
  unfold recordApplied
  split
  · exact ⟨rfl, .inl rfl⟩
  split <;> rename_i hcall <;> obtain ⟨hcursors, happlied, -⟩ := call_keeps hcall
  · exact ⟨hcursors, .inl happlied⟩
  · split
    · exact ⟨hcursors, .inl happlied⟩
    · exact ⟨hcursors, .inr (by rw [happlied])⟩

end SyncPort

namespace SyncNode

/-- Applying an event to a node whose port does not change its journal. -/
theorem apply_learns (n : SyncNode) (e : JournalEvent) :
    (n.apply e).2 = { n with
      applied := (n.apply e).2.applied, memories := (n.apply e).2.memories
      tombstones := (n.apply e).2.tombstones, documents := (n.apply e).2.documents
      peerAcks := (n.apply e).2.peerAcks, blobs := (n.apply e).2.blobs
      port := (n.apply e).2.port
      suppressedResurrections := (n.apply e).2.suppressedResurrections } ∧
    ((n.apply e).2.applied = n.applied ∨
      (n.apply e).2.applied = n.applied.insert e.eventId e) ∧
    ((n.port = none ∧ (n.apply e).2.port = none) ∨
      ∃ p p', n.port = some p ∧ (n.apply e).2.port = some p' ∧ p'.cursors = p.cursors ∧
        p'.applied = p.applied) := by
  have hport : (n.port = none ∧ n.port = none) ∨ ∃ p p', n.port = some p ∧ n.port = some p' ∧
      p'.cursors = p.cursors ∧ p'.applied = p.applied := by
    cases hp : n.port with
    | none => exact .inl ⟨rfl, rfl⟩
    | some p => exact .inr ⟨p, p, rfl, rfl, rfl, rfl⟩
  unfold apply
  cases e.body with
  | memoryForgotten memoryId at_ digest =>
    simp only [applyForget]
    split
    · exact ⟨rfl, .inr rfl, hport⟩
    · rename_i p hp
      have hkeeps := p.recordTombstone_keeps memoryId ⟨digest, e.origin, e.originSeq⟩ at_
      split <;> rename_i p' heq <;> rw [heq] at hkeeps
      · exact ⟨rfl, .inl rfl, .inr ⟨p, p', hp, rfl, hkeeps⟩⟩
      · exact ⟨rfl, .inr rfl, .inr ⟨p, p', hp, rfl, hkeeps⟩⟩
  | memoryProposed memoryId content =>
    dsimp only
    split <;> exact ⟨rfl, .inr rfl, hport⟩
  | documentAppend docId entry => exact ⟨rfl, .inr rfl, hport⟩
  | ack frontiers => exact ⟨rfl, .inr rfl, hport⟩
  | blobAdded blobId totalSize entries => exact ⟨rfl, .inr rfl, hport⟩

theorem admitEvent_learns (n : SyncNode) (e : JournalEvent) : n.Learns e (n.admitEvent e).2 := by
  unfold admitEvent
  split
  · refine ⟨rfl, .inl rfl, ?_⟩
    cases hp : n.port with
    | none => exact .inl ⟨rfl, rfl⟩
    | some p => exact .inr ⟨p, p, rfl, rfl, rfl, .inl rfl⟩
  · split
    · rename_i hp
      obtain ⟨hframe, happlied, hport⟩ := n.apply_learns e
      refine ⟨hframe, happlied, ?_⟩
      obtain hnone | ⟨p, p', hsome, -⟩ := hport
      · exact .inl hnone
      · rw [hp] at hsome
        cases hsome
    · rename_i p hp
      have hrecords := p.recordApplied_records e
      split <;> rename_i q heq <;> rw [heq] at hrecords
      · exact ⟨rfl, .inl rfl, .inr ⟨p, q, hp, rfl, hrecords⟩⟩
      · obtain ⟨hframe, happlied, hport⟩ := ({ n with port := some q } : SyncNode).apply_learns e
        refine ⟨hframe, happlied, .inr ?_⟩
        obtain ⟨hnone, -⟩ | ⟨q', p', hsome, hp', hcursors, happlied'⟩ := hport
        · cases hnone
        · cases hsome
          exact ⟨p, p', hp, hp', hcursors.trans hrecords.cursors, happlied' ▸ hrecords.applied⟩

end SyncNode

namespace SyncNode.Learns

variable {n n' : SyncNode} {e x : JournalEvent}

theorem label (h : n.Learns e n') : n'.label = n.label := by rw [h.frame]

theorem keys (h : n.Learns e n') : n'.keys = n.keys := by rw [h.frame]

theorem peers (h : n.Learns e n') : n'.peers = n.peers := by rw [h.frame]

theorem outbox (h : n.Learns e n') : n'.outbox = n.outbox := by rw [h.frame]

theorem sentTo (h : n.Learns e n') : n'.sentTo = n.sentTo := by rw [h.frame]

theorem nextSeq (h : n.Learns e n') : n'.nextSeq = n.nextSeq := by rw [h.frame]

theorem applied_cases (h : n.Learns e n') {id : String} (hx : n'.applied[id]? = some x) :
    n.applied[id]? = some x ∨ (id = e.eventId ∧ x = e) := by
  obtain happlied | happlied := h.applied <;> rw [happlied] at hx
  · exact .inl hx
  · rw [Table.getElem?_insert_eq] at hx
    split at hx
    · rename_i hid
      exact .inr ⟨hid.symm, (Option.some.inj hx).symm⟩
    · exact .inl hx

theorem journal_cases (h : n.Learns e n') {p' : SyncPort} (hp' : n'.port = some p')
    (hx : x ∈ p'.applied) : (∃ p, n.port = some p ∧ x ∈ p.applied) ∨ x = e := by
  obtain ⟨-, hnone⟩ | ⟨p, q, hp, hq, hrecords⟩ := h.port
  · rw [hnone] at hp'
    cases hp'
  · rw [hq] at hp'
    cases hp'
    obtain happlied | happlied := hrecords.applied <;> rw [happlied] at hx
    · exact .inl ⟨p, hp, hx⟩
    · obtain hold | hnew := List.mem_append.1 hx
      · exact .inl ⟨p, hp, hold⟩
      · exact .inr (List.mem_singleton.1 hnew)

end SyncNode.Learns

/-! ## Local steps -/

section

variable [Primitives] [SyncCodec]

/-- Whether the call of an input returns `Ok`. -/
def NodeInput.succeeds (n : SyncNode) : NodeInput → Bool
  | .appendDocument docId entry => (n.appendDocument docId entry).1.isOk
  | .proposeMemory memoryId content => (n.proposeMemory memoryId content).1.isOk
  | .forgetMemory memoryId forgottenAtMillis digest =>
    (n.forgetMemory memoryId forgottenAtMillis digest).1.isOk
  | .putBlob blobId blob => (n.putBlob blobId blob).1.isOk
  | .acknowledge => n.acknowledge.1.isOk
  | .receive event => (n.admitEvent event).1.isOk
  | .portFaults _ => true

/-- Whether an input creates an event. -/
def NodeInput.creates (n : SyncNode) : NodeInput → Bool
  | .proposeMemory memoryId _ => memoryId ∉ n.tombstones
  | .receive _ => false
  | .portFaults _ => false
  | _ => true

/-- Creating is admitting the created event. -/
theorem SyncNode.createAdmit_eq (n : SyncNode) (body : EventBody) :
    (n.createAdmit body).2 = ((n.create body).2.admitEvent (n.create body).1).2 ∧
      (n.createAdmit body).1.isOk = ((n.create body).2.admitEvent (n.create body).1).1.isOk := by
  unfold SyncNode.createAdmit
  rcases hcreate : n.create body with ⟨e, m⟩
  dsimp only
  rcases hresult : m.admitEvent e with ⟨_ | _, m'⟩ <;> exact ⟨rfl, rfl⟩

/-- What a local input does: it counts a refused proposal, sets the faults to come,
or creates an event, perhaps with a blob put in place first. -/
theorem nodeStep_local (n : SyncNode) (i : NodeInput) (hlocal : ∀ e, i ≠ .receive e) :
    (∃ count, nodeStep n i = { n with suppressedResurrections := count }) ∨
    (∃ faults, nodeStep n i =
      { n with port := n.port.map fun port => { port with faults := faults } }) ∨
    ∃ blobs body, (blobs = n.blobs ∨ ∃ blobId blob, i = .putBlob blobId blob ∧
        blobs = n.blobs.insert blobId blob) ∧
      (body = .ack n.appliedFrontier ∧ i = .acknowledge ∨ ∀ frontiers, body ≠ .ack frontiers) ∧
      nodeStep n i = (({ n with blobs := blobs } : SyncNode).createAdmit body).2 ∧
      i.creates n = true ∧
      i.succeeds n = (({ n with blobs := blobs } : SyncNode).createAdmit body).1.isOk := by
  cases i with
  | appendDocument docId entry =>
    exact .inr (.inr ⟨n.blobs, _, .inl rfl, .inr fun _ => EventBody.noConfusion, rfl, rfl, rfl⟩)
  | proposeMemory memoryId content =>
    by_cases hmem : memoryId ∈ n.tombstones
    · refine .inl ⟨n.suppressedResurrections + 1, ?_⟩
      simp only [nodeStep, SyncNode.proposeMemory, hmem, if_true]
    · refine .inr (.inr ⟨n.blobs, .memoryProposed memoryId content, .inl rfl,
        .inr fun _ => EventBody.noConfusion, ?_⟩)
      simp only [nodeStep, NodeInput.creates, NodeInput.succeeds, SyncNode.proposeMemory, hmem,
        if_false, not_false_eq_true, decide_true, true_and]
      rcases hcreate : n.createAdmit (.memoryProposed memoryId content) with ⟨_ | _, m⟩ <;>
        exact ⟨rfl, rfl⟩
  | forgetMemory memoryId forgottenAtMillis digest =>
    exact .inr (.inr ⟨n.blobs, _, .inl rfl, .inr fun _ => EventBody.noConfusion, rfl, rfl, rfl⟩)
  | putBlob blobId blob =>
    refine .inr (.inr ⟨n.blobs.insert blobId blob, .blobAdded blobId blob.totalSize blob.entries,
      .inr ⟨blobId, blob, rfl, rfl⟩, .inr fun _ => EventBody.noConfusion, ?_⟩)
    simp only [nodeStep, NodeInput.creates, NodeInput.succeeds, SyncNode.putBlob, true_and]
    rcases hcreate : ({ n with blobs := n.blobs.insert blobId blob } : SyncNode).createAdmit
      (.blobAdded blobId blob.totalSize blob.entries) with ⟨_ | _, m⟩ <;> exact ⟨rfl, rfl⟩
  | acknowledge =>
    exact .inr (.inr ⟨n.blobs, _, .inl rfl, .inl ⟨rfl, rfl⟩, rfl, rfl, rfl⟩)
  | receive e => exact absurd rfl (hlocal e)
  | portFaults faults => exact .inr (.inl ⟨faults, rfl⟩)

end

/-! ## Restarting and compacting -/

/-- A restarted node starts with its keys, and with nothing to send to anyone. -/
theorem durable_frame (keys : DeviceKeys) (label : String) (port : SyncPort) :
    (SyncNode.durable keys label port).label = label ∧
      (SyncNode.durable keys label port).keys = keys ∧
      (SyncNode.durable keys label port).peers = ∅ ∧
      (SyncNode.durable keys label port).outbox = [] ∧
      (SyncNode.durable keys label port).sentTo = ∅ := by
  have hreplay (es : List JournalEvent) (n : SyncNode) :
      let n' := es.foldl (fun n e => (n.apply e).2) n
      n'.label = n.label ∧ n'.keys = n.keys ∧ n'.peers = n.peers ∧ n'.outbox = n.outbox ∧
        n'.sentTo = n.sentTo := by
    induction es generalizing n with
    | nil => exact ⟨rfl, rfl, rfl, rfl, rfl⟩
    | cons e es ih =>
      have hstep := ih (n.apply e).2
      rw [(n.apply_learns e).1] at hstep
      rw [List.foldl_cons, (n.apply_learns e).1]
      exact hstep
  exact hreplay port.applied (.new keys label none)

/-- A restarted node has applied what its port has recorded. -/
theorem mem_journal_of_durable {keys : DeviceKeys} {label : String} {port : SyncPort} {id : String}
    {x : JournalEvent} (hx : (SyncNode.durable keys label port).applied[id]? = some x) :
    x ∈ port.applied ∧ id = x.eventId := by
  have hreplay (es : List JournalEvent) (n : SyncNode)
      (h : (es.foldl (fun n e => (n.apply e).2) n).applied[id]? = some x) :
      (x ∈ es ∧ id = x.eventId) ∨ n.applied[id]? = some x := by
    induction es generalizing n with
    | nil => exact .inr h
    | cons e es ih =>
      obtain ⟨hmem, hid⟩ | hrest := ih _ h
      · exact .inl ⟨List.mem_cons_of_mem e hmem, hid⟩
      · obtain ⟨-, happlied | happlied, -⟩ := n.apply_learns e <;> rw [happlied] at hrest
        · exact .inr hrest
        · rw [Table.getElem?_insert_eq] at hrest
          split at hrest
          · rename_i heq
            cases hrest
            exact .inl ⟨List.mem_cons_self .., heq.symm⟩
          · exact .inr hrest
  obtain hmem | hnone := hreplay port.applied (.new keys label none) hx
  · exact hmem
  · simp [SyncNode.new] at hnone

/-- Compaction deletes tombstones and nothing else. -/
theorem SyncPort.compactTombstones_keeps (p : SyncPort) (floors : List (String × Nat)) :
    (p.compactTombstones floors).applied = p.applied ∧
      (p.compactTombstones floors).cursors = p.cursors := by
  induction floors generalizing p with
  | nil => exact ⟨rfl, rfl⟩
  | cons floor floors ih =>
    unfold SyncPort.compactTombstones
    split
    · exact ⟨rfl, rfl⟩
    · split <;> rename_i hcall <;> obtain ⟨hcursors, happlied, -⟩ := SyncPort.call_keeps hcall
      · exact ⟨happlied, hcursors⟩
      · obtain ⟨happlied', hcursors'⟩ := ih _
        exact ⟨happlied'.trans happlied, hcursors'.trans hcursors⟩

/-- Folding a bucket only takes items away. -/
theorem Relay.mem_queue_of_compact {π : Type} {len : π → Nat} {r : Relay π} {bucket label : String}
    {item : Nat × π} (h : item ∈ (r.compact len bucket).queue label) : item ∈ r.queue label := by
  simp only [Relay.queue, Relay.bucket, Relay.compact, Table.getElem?_update] at h ⊢
  split at h
  · cases hslot : r.buckets[label]? with
    | none => simpa [hslot] using h
    | some slot =>
      rw [hslot] at h
      obtain ⟨entry, hentry, rfl⟩ := List.mem_map.1 h
      exact List.mem_map.2 ⟨entry, (List.dropWhile_sublist _).subset hentry, rfl⟩
  · exact h

section

variable [Primitives] [SyncCodec]

/-- A step of the vault is one of the system, or none. -/
theorem vaultStep_system (s : System) (input : SystemInput) :
    vaultStep s (.system input) = s ∨
      vaultStep s (.system input) = systemStep s input ∧
        ∀ label e, input ≠ .node label (.receive e) := by
  unfold vaultStep
  split
  · exact .inl rfl
  · rename_i hlocal heq
    cases heq
    exact .inr ⟨rfl, fun label e he => hlocal label e (he ▸ rfl)⟩
  all_goals rename_i heq; cases heq

end

/-- What a pairing gives each of the two nodes. -/
theorem pair_ok [Primitives] {a b a' b' : SyncNode} {epoch : Epoch} {epochSeq : UInt32}
    {aToB bToA : Option CounterBlock}
    (h : SyncNode.pair a b epoch epochSeq aToB bToA = .ok (a', b')) :
    ∃ channelsA channelsB : PeerChannels, channelsA.identity = b.keys.publicIdentity ∧
      channelsB.identity = a.keys.publicIdentity ∧
      a' = { a with peers := a.peers.insert b.label channelsA } ∧
      b' = { b with peers := b.peers.insert a.label channelsB } := by
  simp only [SyncNode.pair] at h
  split at h
  · cases h
  · cases h
    exact ⟨_, _, rfl, rfl, rfl, rfl⟩

/-! ## The moves -/

section

variable [Primitives] [SyncCodec]

/-- An event that an envelope in a peer's bucket opens to and that passes the
checks on its origin and its signature. -/
structure Link.Genuine (l : Link) (peer : String) (e : JournalEvent) : Prop where
  queued : ∃ item ∈ l.relay.queue (bucketFor l.node.label peer), ∃ session plain session',
    SessionV2.openEnvelope session item.2 = (.ok plain, session') ∧
      SyncCodec.fromSlice plain = some (.event e.toWire)
  signed : ∃ channels, l.node.peers[peer]? = some channels ∧ channels.identity.id = e.origin ∧
    Primitives.verify channels.identity.ed25519Public
      (SyncCodec.canonicalBytes e.eventId e.origin e.originSeq e.body) e.signature = true

/-- The small moves of a poll; of one that succeeds, where `C` says so. -/
inductive Link.Reads (C : Prop) : Link → Link → Prop
  | relay {l : Link} {relay : Relay Envelope} (hsame : l.relay.Same relay) :
      Reads C l { l with relay := relay }
  | channels {l : Link} {peer : String} {channels channels' : PeerChannels}
      (hpeer : l.node.peers[peer]? = some channels)
      (hidentity : channels'.identity = channels.identity)
      (houtbound : channels'.outbound = channels.outbound) :
      Reads C l { l with node := { l.node with peers := l.node.peers.insert peer channels' } }
  | cursor {l : Link} {port : SyncPort} (peer : String) (cursor : Nat)
      (hport : l.node.port = some port) :
      Reads C l { l with node := { l.node with
        port := some (port.recordFetchCursor peer cursor).2 } }
  | blobs {l : Link} {peer : String} {chunk : BlobChunkWire} {blobs : Table String StoredBlob}
      (hingest : SyncNode.ingestChunk l.node.blobs peer chunk = .ok blobs) :
      Reads C l { l with node := { l.node with blobs := blobs } }
  | admitEvent {l : Link} {peer : String} {e : JournalEvent} (hgenuine : l.Genuine peer e)
      (hfresh : e.eventId ∉ l.node.applied) (hok : C → (l.node.admitEvent e).1.isOk) :
      Reads C l { l with node := (l.node.admitEvent e).2 }

/-- The pushes of a flush: an event of the outbox, or a held chunk. -/
inductive Link.Fans (l : Link) (peer : String) :
    String → String → SyncPayload → Option JournalEvent → Prop
  | event {e : JournalEvent} (hmem : e ∈ l.node.outbox) (hunsent : l.sent e.eventId peer = false) :
      Fans l peer e.eventId (l.node.label ++ ":" ++ e.eventId) (.event e.toWire) (some e)
  | chunk {blobId chunkId : String} {stored : StoredBlob} {entry : BlobEntry}
      (hblob : l.node.blobs[blobId]? = some stored)
      (hentry : stored.entries.find? (fun entry => entry.blobId == chunkId) = some entry)
      (hheld : chunkId ∈ stored.chunks) :
      Fans l peer ("blob:" ++ chunkId) (l.node.label ++ ":blob:" ++ chunkId)
        (.chunk ⟨blobId, entry.contentHash, chunkId, stored.chunks[chunkId]?.getD []⟩) none

/-- The small moves of a flush, after its poll and its acknowledgement. -/
inductive Link.Writes : Link → Link → Prop
  | relay {l : Link} {relay : Relay Envelope} (hsame : l.relay.Same relay) :
      Writes l { l with relay := relay }
  | outbound {l : Link} {peer : String} {channels : PeerChannels}
      (hpeer : l.node.peers[peer]? = some channels) (outbound : SessionV2) :
      Writes l { l with node := { l.node with
        peers := l.node.peers.insert peer { channels with outbound := outbound } } }
  | push {l l' : Link} {peer key pushId : String} {payload : SyncPayload}
      {record : Option JournalEvent} (hfans : l.Fans peer key pushId payload record)
      (hpush : l.sealAndPush peer key pushId payload record = (.ok 1, l')) : Writes l l'

namespace Link

variable {C : Prop}

variable {l l' : Link} {peer : String}

theorem Reads.label (h : l.Reads C l') : l'.node.label = l.node.label := by
  cases h with
  | admitEvent => exact (SyncNode.admitEvent_learns _ _).label
  | _ => rfl

theorem Reads.queue (h : l.Reads C l') (label : String) :
    l'.relay.queue label = l.relay.queue label := by
  cases h with
  | relay hsame => exact hsame.queue label
  | _ => rfl

theorem Reads.pushed (h : l.Reads C l') : l'.pushed = l.pushed := by
  cases h <;> rfl

open Relation (ReflTransGen)

/-- Two links with the same label, the same queues and the same record. -/
structure SameMail (l l' : Link) : Prop where
  label : l'.node.label = l.node.label
  queue : ∀ label, l'.relay.queue label = l.relay.queue label
  pushed : l'.pushed = l.pushed

theorem sameMail_of_reads (h : ReflTransGen (Reads C) l l') : l.SameMail l' := by
  induction h with
  | refl => exact ⟨rfl, fun _ => rfl, rfl⟩
  | tail _ hstep ih =>
    exact ⟨hstep.label.trans ih.label, fun x => (hstep.queue x).trans (ih.queue x),
      hstep.pushed.trans ih.pushed⟩

/-- An opened event that passes its checks is admitted. -/
theorem receiveWire_reads {identity : DeviceIdentity} {wire : WireEvent}
    (hpeer : ∃ channels, l.node.peers[peer]? = some channels ∧ channels.identity = identity)
    (hqueued : ∃ item ∈ l.relay.queue (bucketFor l.node.label peer), ∃ session plain session',
      SessionV2.openEnvelope session item.2 = (.ok plain, session') ∧
        SyncCodec.fromSlice plain = some (.event wire))
    (hclean : C → (l.node.receiveWire identity wire).1.isOk) :
    ReflTransGen (Reads C) l { l with node := (l.node.receiveWire identity wire).2 } := by
  obtain ⟨channels, hpeer, rfl⟩ := hpeer
  unfold SyncNode.receiveWire at hclean ⊢
  split
  · exact .refl
  rename_i horigin
  rw [if_neg horigin] at hclean
  split
  · exact .refl
  rename_i signature hsignature
  rw [hsignature] at hclean
  dsimp only at hclean
  split
  · rename_i hverify
    rw [if_pos hverify] at hclean
    split
    · exact .refl
    · rename_i hfresh
      rw [if_neg hfresh] at hclean
      have hwire : (wire.toJournal signature).toWire = wire := by
        have hlist : signature.toList = wire.signature := by
          unfold toSignature at hsignature
          split at hsignature
          · cases hsignature
            simp
          · cases hsignature
        simp only [WireEvent.toJournal, JournalEvent.toWire, hlist]
      have hgenuine : l.Genuine peer (wire.toJournal signature) :=
        ⟨by rw [hwire]; exact hqueued, channels, hpeer, not_not.1 horigin, hverify⟩
      have hread := Reads.admitEvent (C := C) hgenuine hfresh
      rcases hresult : l.node.admitEvent (wire.toJournal signature) with ⟨_ | _, node⟩ <;>
        simp only [hresult] at hread hclean ⊢
      · exact .single (hread hclean)
      · exact .single (hread fun _ => rfl)
  · exact .refl

/-- One item of a page. -/
theorem pollItem_reads (peer : String) (item : FetchedItem Envelope)
    (hitem : (item.seq, item.payload) ∈ l.relay.queue (bucketFor l.node.label peer))
    (hclean : C → (SyncNode.pollItem peer l.node item).1.isOk) :
    ReflTransGen (Reads C) l { l with node := (SyncNode.pollItem peer l.node item).2 } := by
  unfold SyncNode.pollItem at hclean ⊢
  cases hpeer : l.node.peers[peer]? with
  | none => exact .refl
  | some channels =>
    rw [hpeer] at hclean
    dsimp only at hclean ⊢
    rcases hopen : channels.inbound.openEnvelope item.payload with ⟨opened, inbound⟩
    rw [hopen] at hclean
    dsimp only at hclean ⊢
    let moved : Link := { l with node := l.node.setInbound peer channels inbound }
    have hmoved : ReflTransGen (Reads C) l moved := .single (.channels hpeer rfl rfl)
    have hpeer' : moved.node.peers[peer]? = some { channels with inbound := inbound } :=
      Table.getElem?_insert_same ..
    split
    · split <;> exact hmoved
    · exact hmoved
    · rename_i plain
      dsimp only at hclean
      split
      · exact hmoved
      · split
        · rename_i hingest
          exact hmoved.tail (.blobs hingest)
        · exact hmoved
      · rename_i wire hwire
        rw [hwire] at hclean
        exact hmoved.trans
          (receiveWire_reads ⟨_, hpeer', rfl⟩ ⟨_, hitem, _, _, _, hopen, hwire⟩ hclean)

theorem moveCursor_reads {channels : PeerChannels} (hpeer : l.node.peers[peer]? = some channels)
    (cursor : Nat) :
    ReflTransGen (Reads C) l
      { l with node := (l.node.moveCursor peer channels cursor).2 } := by
  let moved : Link := { l with node := { l.node with
    peers := l.node.peers.insert peer { channels with fetchCursor := cursor } } }
  have hmoved : ReflTransGen (Reads C) l moved := .single (.channels hpeer rfl rfl)
  unfold SyncNode.moveCursor
  dsimp only
  split
  · exact hmoved
  · rename_i port hport
    have hport' : moved.node.port = some port := hport
    have hrecorded := hmoved.tail (.cursor peer cursor hport')
    split <;> rename_i heq <;> rw [heq] at hrecorded <;> exact hrecorded

/-- One page of a peer's bucket. -/
theorem pollPage_moves (l : Link) (peer : String) (hclean : C → (l.pollPage peer).1.isOk) :
    ReflTransGen (Reads C) l (l.pollPage peer).2 := by
  unfold pollPage at hclean ⊢
  cases hpeer : l.node.peers[peer]? with
  | none => exact .refl
  | some channels =>
    rw [hpeer] at hclean
    dsimp only at hclean ⊢
    have hsame := l.relay.fetch_same (bucketFor l.node.label peer) channels.fetchCursor 256
    rcases hfetch : l.relay.fetch (bucketFor l.node.label peer) channels.fetchCursor 256
      with ⟨page, relay⟩
    rw [hfetch] at hsame hclean
    have hfetched : ReflTransGen (Reads C) l { l with relay := relay } :=
      .single (.relay hsame)
    cases page with
    | compacted upTo => exact hfetched
    | invalidCursor requested frontier => exact hfetched
    | entries items nextCursor hasMore =>
      obtain ⟨hitems, -⟩ := Relay.fetch_entries hfetch
      have hpeer' : ({ l with relay := relay } : Link).node.peers[peer]? = some channels := hpeer
      have hmoved := hfetched.trans (moveCursor_reads hpeer' nextCursor)
      dsimp only at hclean hmoved ⊢
      rcases hmove : l.node.moveCursor peer channels nextCursor with ⟨_ | _, node⟩ <;>
        rw [hmove] at hmoved hclean
      · exact hmoved
      · dsimp only at hclean ⊢
        split
        · exact hmoved
        · rename_i hmore
          rw [if_neg hmore] at hclean
          -- Whatever the page holds is in the bucket.
          have hread : (C → (sumEach (SyncNode.pollItem peer) items node).1.isOk) →
              ReflTransGen (Reads C) l { l with
                node := (sumEach (SyncNode.pollItem peer) items node).2, relay := relay } := by
            refine sumEach_invariant_mem
              (I := fun n => ReflTransGen (Reads C) l { l with node := n, relay := relay })
              items (fun n item hitem hn hok => hn.trans (pollItem_reads peer item ?_ hok))
              hmoved
            have hmail := sameMail_of_reads hn
            rw [hmail.label, hmail.queue]
            have hmem : (item.seq, item.payload) ∈
                items.map fun item => (item.seq, item.payload) := List.mem_map_of_mem hitem
            rw [hitems] at hmem
            exact List.mem_of_mem_filter (List.mem_of_mem_take hmem)
          rcases hsum : sumEach (SyncNode.pollItem peer) items node with ⟨_ | _, node'⟩ <;>
            simp only [hsum] at hread hclean ⊢
          · exact hread hclean
          · exact hread fun _ => rfl

theorem pollPages_moves (peer : String) (fuel : Nat) (l : Link)
    (hclean : C → (pollPages peer fuel l).1.isOk) :
    ReflTransGen (Reads C) l (pollPages peer fuel l).2 := by
  induction fuel generalizing l with
  | zero => exact .refl
  | succ fuel ih =>
    have hpage := l.pollPage_moves (C := C) peer
    unfold pollPages at hclean ⊢
    rcases hp : l.pollPage peer with ⟨_ | (_ | count), l'⟩ <;> rw [hp] at hpage <;>
      simp only [hp] at hclean ⊢
    · exact hpage hclean
    · exact hpage fun _ => rfl
    · have hrest := ih l'
      rcases hr : pollPages peer fuel l' with ⟨_ | _, l''⟩ <;> rw [hr] at hrest <;>
        simp only [hr] at hclean ⊢
      · exact (hpage fun _ => rfl).trans (hrest hclean)
      · exact (hpage fun _ => rfl).trans (hrest fun _ => rfl)

/-- A poll is a sequence of reading moves. -/
theorem poll_moves (l : Link) (hclean : C → l.poll.1.isOk) :
    ReflTransGen (Reads C) l l.poll.2 :=
  sumEach_invariant_mem (I := fun l' => ReflTransGen (Reads C) l l') _
    (fun l' peer _ hl' hok => hl'.trans (pollPages_moves peer _ l' hok)) .refl hclean

/-- Pushing leaves the outbox and the blobs alone. -/
theorem sealAndPush_frame (l : Link) (peer key pushId : String) (payload : SyncPayload)
    (record : Option JournalEvent) :
    (l.sealAndPush peer key pushId payload record).2.node.outbox = l.node.outbox ∧
      (l.sealAndPush peer key pushId payload record).2.node.blobs = l.node.blobs := by
  unfold sealAndPush
  split
  · exact ⟨rfl, rfl⟩
  · dsimp only
    split
    · exact ⟨rfl, rfl⟩
    · split <;> exact ⟨rfl, rfl⟩

theorem sealAndPush_moves {key pushId : String} {payload : SyncPayload}
    {record : Option JournalEvent} (hfans : l.Fans peer key pushId payload record) :
    ReflTransGen Writes l (l.sealAndPush peer key pushId payload record).2 := by
  rcases hpush : l.sealAndPush peer key pushId payload record with ⟨result, l'⟩
  unfold sealAndPush at hpush
  split at hpush
  · cases hpush
    exact .refl
  rename_i channels hpeer
  have hsealed (outbound : SessionV2) : ReflTransGen Writes l { l with
      node := { l.node with
        peers := l.node.peers.insert peer { channels with outbound := outbound } } } :=
    .single (.outbound hpeer outbound)
  rcases hseal : channels.outbound.sealPlain (SyncCodec.toVec payload) with ⟨sealed, outbound⟩
  rw [hseal] at hpush
  dsimp only at hpush
  cases sealed with
  | error e =>
    cases hpush
    exact hsealed outbound
  | ok envelope =>
    dsimp only at hpush
    have hcases := l.relay.push_cases Envelope.len (bucketFor peer l.node.label) pushId envelope
    rcases hrelay : l.relay.push Envelope.len (bucketFor peer l.node.label) pushId envelope
      with ⟨pushed, relay⟩
    rw [hrelay] at hcases hpush
    cases pushed with
    | error e =>
      cases hpush
      obtain ⟨_, -, hsame⟩ | ⟨_, hdup, -⟩ | ⟨hnew, -⟩ := hcases
      · exact (hsealed outbound).tail (.relay hsame)
      · cases hdup
      · cases hnew
    | ok outcome =>
      refine .single (.push hfans ?_)
      unfold sealAndPush
      rw [hpeer]
      dsimp only
      rw [hseal]
      dsimp only
      rw [hrelay]
      cases hpush
      rfl

/-- What a push that succeeded did. -/
theorem sealAndPush_ok {key pushId : String} {payload : SyncPayload}
    {record : Option JournalEvent} {count : Nat}
    (h : l.sealAndPush peer key pushId payload record = (.ok count, l')) :
    ∃ channels envelope outbound outcome relay, l.node.peers[peer]? = some channels ∧
      channels.outbound.sealPlain (SyncCodec.toVec payload) = (.ok envelope, outbound) ∧
      l.relay.push Envelope.len (bucketFor peer l.node.label) pushId envelope =
        (.ok outcome, relay) ∧
      l' = { node := { l.node with
               peers := l.node.peers.insert peer { channels with outbound := outbound }
               sentTo := l.node.sentTo.insert key ((l.node.sentTo[key]?.getD ∅).insert peer) }
             relay := relay
             pushed := recordPush l.pushed (bucketFor peer l.node.label) outcome record } := by
  unfold sealAndPush at h
  split at h
  · cases h
  rename_i channels hpeer
  rcases hseal : channels.outbound.sealPlain (SyncCodec.toVec payload) with ⟨_ | envelope, outbound⟩
  · rw [hseal] at h
    cases h
  · rw [hseal] at h
    dsimp only at h
    rcases hrelay : l.relay.push Envelope.len (bucketFor peer l.node.label) pushId envelope
      with ⟨_ | outcome, relay⟩
    · rw [hrelay] at h
      cases h
    · rw [hrelay] at h
      cases h
      exact ⟨channels, envelope, outbound, outcome, relay, hpeer, hseal, hrelay, rfl⟩

/-- One event of the outbox. -/
theorem flushEvent_moves (peer : String) {e : JournalEvent} (hmem : e ∈ l.node.outbox) :
    ReflTransGen Writes l (flushEvent peer l e).2 ∧
      (flushEvent peer l e).2.node.outbox = l.node.outbox := by
  unfold flushEvent
  split
  · exact ⟨.refl, rfl⟩
  · rename_i hunsent
    exact ⟨sealAndPush_moves (.event hmem (Bool.eq_false_iff.2 hunsent)),
      (sealAndPush_frame l _ _ _ _ _).1⟩

theorem flushPeer_moves (seed : Bytes32) (l : Link) (peer : String) :
    ReflTransGen Writes l (flushPeer seed l peer).2 := by
  unfold flushPeer
  split
  · unfold openTurn
    cases hpeer : l.node.peers[peer]? with
    | none => exact .refl
    | some channels =>
      dsimp only
      cases channels.outbound.openTurn seed with
      | error e => exact .refl
      | ok outbound =>
        dsimp only
        let turned : Link := { l with node := { l.node with
          peers := l.node.peers.insert peer { channels with outbound := outbound } } }
        have hturned : ReflTransGen Writes l turned := .single (.outbound hpeer outbound)
        have hall := sumEach_invariant_mem (f := flushEvent peer) (C := False)
          (I := fun l' => ReflTransGen Writes l l' ∧ l'.node.outbox = l.node.outbox)
          turned.node.outbox (fun l' e he hl' _ => by
            obtain ⟨hmoves, houtbox⟩ := flushEvent_moves peer (hl'.2 ▸ he)
            exact ⟨hl'.1.trans hmoves, houtbox.trans hl'.2⟩) ⟨hturned, rfl⟩ False.elim
        exact hall.1
  · exact .refl

theorem fanOutBlobChunks_moves (l : Link) (peers : List String) :
    ReflTransGen Writes l (l.fanOutBlobChunks peers).2 := by
  have hall := sumEach_invariant_mem (f := fanOutChunk) (C := False)
    (I := fun l' => ReflTransGen Writes l l' ∧ l'.node.blobs = l.node.blobs)
    (l.node.blobs.toList.flatMap fun row =>
      row.2.chunks.keys.flatMap fun chunkId => peers.map fun peer => (row.1, chunkId, peer))
    (fun l' chunk hchunk hl' _ => by
      obtain ⟨⟨blobId, stored⟩, hstored, hchunk⟩ := List.mem_flatMap.1 hchunk
      obtain ⟨chunkId, hchunkId, hchunk⟩ := List.mem_flatMap.1 hchunk
      obtain ⟨peer, -, rfl⟩ := List.mem_map.1 hchunk
      have hblob : l'.node.blobs[blobId]? = some stored := by
        rw [hl'.2]
        exact Std.ExtTreeMap.mem_toList_iff_getElem?_eq_some.1 hstored
      have hheld : chunkId ∈ stored.chunks := Std.ExtTreeMap.mem_keys.1 hchunkId
      simp only [fanOutChunk]
      split
      · exact hl'
      · rw [hblob]
        dsimp only
        split
        · exact hl'
        · rename_i entry hentry
          exact ⟨hl'.1.trans (sealAndPush_moves (.chunk hblob hentry hheld)),
            (sealAndPush_frame l' _ _ _ _ _).2.trans hl'.2⟩) ⟨.refl, rfl⟩ False.elim
  exact hall.1

/-- A flush is a poll, an acknowledgement and a sequence of writing moves; or a
poll that fails. -/
theorem flush_moves (l : Link) (seed : Bytes32) (hclean : C → (l.flush seed).1.isOk) :
    ∃ polled, polled = l.poll.2 ∧ ReflTransGen (Reads C) l polled ∧
      ((l.flush seed).2 = polled ∨
        (C → polled.node.acknowledge.1.isOk) ∧
          ReflTransGen Writes { polled with node := polled.node.acknowledge.2 }
            (l.flush seed).2) := by
  have hpoll := l.poll_moves (C := C)
  unfold flush at hclean ⊢
  rcases hp : l.poll with ⟨_ | _, polled⟩ <;> rw [hp] at hpoll <;> simp only [hp] at hclean ⊢
  · exact ⟨polled, rfl, hpoll hclean, .inl rfl⟩
  refine ⟨polled, rfl, hpoll fun _ => rfl, .inr ?_⟩
  rcases ha : polled.node.acknowledge with ⟨_ | _, node⟩ <;> simp only [ha] at hclean ⊢
  · exact ⟨hclean, .refl⟩
  refine ⟨fun _ => rfl, ?_⟩
  have hpeers := sumEach_invariant (f := flushPeer seed)
    (I := fun l' => ReflTransGen Writes { polled with node := node } l')
    (fun l' peer hl' => hl'.trans (flushPeer_moves seed l' peer)) node.peers.keys .refl
  rcases hl : sumEach (flushPeer seed) node.peers.keys { polled with node := node }
    with ⟨_ | _, flushed⟩ <;> rw [hl] at hpeers
  · exact hpeers
  have hchunks := hpeers.trans (flushed.fanOutBlobChunks_moves node.peers.keys)
  dsimp only
  split <;> rename_i heq <;> rw [heq] at hchunks <;> exact hchunks

omit [SyncCodec] in
theorem invariant_of_moves {R : Link → Link → Prop} {I : Link → Prop}
    (hmove : ∀ l l', I l → R l l' → I l') (h : I l) (hmoves : ReflTransGen R l l') : I l' := by
  induction hmoves with
  | refl => exact h
  | tail _ hlast ih => exact hmove _ _ ih hlast

/-- **Poll rule.**  What every reading move keeps, a poll keeps. -/
theorem poll_invariant {I : Link → Prop} (hreads : ∀ l l', I l → l.Reads C l' → I l') (h : I l)
    (hclean : C → l.poll.1.isOk) : I l.poll.2 :=
  invariant_of_moves hreads h (l.poll_moves hclean)

/-- **Flush rule.**  What every reading move, the acknowledgement and every writing
move keeps, a flush keeps. -/
theorem flush_invariant {I : Link → Prop} (hreads : ∀ l l', I l → l.Reads C l' → I l')
    (hack : ∀ l, I l → (C → l.node.acknowledge.1.isOk) →
      I { l with node := l.node.acknowledge.2 }) (hwrites : ∀ l l', I l → l.Writes l' → I l')
    (h : I l) (seed : Bytes32) (hclean : C → (l.flush seed).1.isOk) : I (l.flush seed).2 := by
  obtain ⟨polled, -, hpoll, hrest⟩ := l.flush_moves seed hclean
  have hpolled : I polled := invariant_of_moves hreads h hpoll
  obtain hfail | ⟨hok, hrest⟩ := hrest
  · rw [hfail]
    exact hpolled
  · exact invariant_of_moves hwrites (hack polled hpolled hok) hrest

theorem flush_label (l : Link) (seed : Bytes32) : (l.flush seed).2.node.label = l.node.label := by
  have hack (n : SyncNode) : n.acknowledge.2.label = n.label := (n.createAdmit_extends _).label
  refine flush_invariant (C := False) (I := fun l' => l'.node.label = l.node.label)
    (fun _ _ h hmove => hmove.label.trans h) (fun l' h _ => (hack l'.node).trans h)
    (fun _ _ h hmove => ?_) rfl seed False.elim
  cases hmove with
  | relay hsame => exact h
  | outbound hpeer outbound => exact h
  | push hfans hpush =>
    obtain ⟨_, _, _, _, _, -, -, -, rfl⟩ := sealAndPush_ok hpush
    exact h

end Link

/-! ## A step of the vault, at one node -/

/-- What a step of the vault makes of the node with a label. -/
inductive System.Moves (s : System) (label : String) : VaultInput → SyncNode → Prop
  | stay {i : VaultInput} : Moves s label i (s.nodes label)
  | step {input : NodeInput} (hlocal : ∀ e, input ≠ .receive e) :
      Moves s label (.system (.node label input)) (nodeStep (s.nodes label) input)
  | poll : Moves s label (.system (.poll label)) (s.link label).poll.2.node
  | flush (seed : Bytes32) :
      Moves s label (.system (.flush label seed)) ((s.link label).flush seed).2.node
  | restart {port : SyncPort} (hport : (s.nodes label).port = some port) :
      Moves s label (.system (.restart label)) (.durable (s.nodes label).keys label port)
  | pair {i : VaultInput} {other : String} {channels : PeerChannels}
      (hidentity : channels.identity = (s.nodes other).keys.publicIdentity) :
      Moves s label i { s.nodes label with
        peers := (s.nodes label).peers.insert (s.nodes other).label channels }
  | compact :
      Moves s label (.compactTombstones label) { s.nodes label with
        port := (s.nodes label).port.map fun port =>
          port.compactTombstones (s.nodes label).gcFrontiers.toList }

theorem vaultStep_moves (s : System) (i : VaultInput) (label : String) :
    s.Moves label i ((vaultStep s i).nodes label) := by
  cases i with
  | send bucket id envelope => exact .stay
  | compactRelay bucket => exact .stay
  | compactTombstones x =>
    simp only [vaultStep, System.setNode]
    split
    · rename_i hx
      rw [← hx]
      exact .compact
    · exact .stay
  | system input =>
    obtain hsame | ⟨hstep, hlocal⟩ := vaultStep_system s input
    · rw [hsame]
      exact .stay
    rw [hstep]
    cases input with
    | node x input =>
      simp only [systemStep, System.setNode]
      split
      · rename_i hx
        subst hx
        exact .step fun e he => hlocal label e (he ▸ rfl)
      · exact .stay
    | poll x =>
      simp only [systemStep, System.setLink]
      split
      · rename_i hx
        subst hx
        exact .poll
      · exact .stay
    | flush x seed =>
      simp only [systemStep, System.setLink]
      split
      · rename_i hx
        subst hx
        exact .flush seed
      · exact .stay
    | restart x =>
      simp only [systemStep]
      split
      · exact .stay
      · rename_i port hport
        simp only [System.setNode]
        split
        · rename_i hx
          subst hx
          exact .restart hport
        · exact .stay
    | pair a b epoch epochSeq aToB bToA =>
      simp only [systemStep]
      split
      · exact .stay
      split
      · exact .stay
      · rename_i nodeA nodeB hpair
        obtain ⟨channelsA, channelsB, hA, hB, rfl, rfl⟩ := pair_ok hpair
        simp only [System.setNode]
        split
        · rename_i hb
          subst hb
          exact .pair hB
        · split
          · rename_i ha
            subst ha
            exact .pair hA
          · exact .stay

end

end Altior.Sync
