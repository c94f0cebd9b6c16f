import Altior.Lib.Loop
import Altior.Sync.Node

/-!
# Pairing, polling and flushing

The exchange half of the sync engine: restarting a node from its port, pairing
two nodes, polling the peers' buckets at the relay and fanning the outbox out to
them, and the system of any number of nodes over one relay.
-/

namespace Altior.Sync

open Lib Crypto

/-- The bucket a receiver reads what a sender pushed from. -/
def bucketFor (receiver sender : String) : String := "vault/" ++ receiver ++ "-from-" ++ sender

/-- The signature of a wire event, if it has the right length. -/
def toSignature (bytes : List UInt8) : Option Signature :=
  if h : bytes.length = 64 then some ⟨bytes.toArray, by simpa using h⟩ else none

@[simp] theorem toSignature_toList (signature : Signature) :
    toSignature signature.toList = some signature := by
  simp [toSignature, ← Vector.toList_toArray]

/-- Lowercase hex. -/
def hexEncode (bytes : List UInt8) : String :=
  let digit (n : Nat) : Char := Char.ofNat (if n < 10 then 0x30 + n else 0x57 + n)
  String.ofList (bytes.flatMap fun b => [digit (b.toNat / 16), digit (b.toNat % 16)])

def JournalEvent.toWire (event : JournalEvent) : WireEvent where
  eventId := event.eventId
  origin := event.origin
  originSeq := event.originSeq
  signature := event.signature.toList
  body := event.body

def WireEvent.toJournal (wire : WireEvent) (signature : Signature) : JournalEvent where
  eventId := wire.eventId
  origin := wire.origin
  originSeq := wire.originSeq
  signature := signature
  body := wire.body

namespace SyncNode

/-! ## Restart -/

/-- A durable node: the applied journal of the port is replayed through `apply`,
then the sequence, the tombstones and the cursors are taken over.  The node is
volatile while it replays. -/
def durable (keys : DeviceKeys) (label : String) (port : SyncPort) : SyncNode :=
  let n := port.applied.foldl (fun (n : SyncNode) event => (n.apply event).2) (new keys label none)
  let own := n.applied.toList.filterMap fun (_, event) =>
    if event.origin = label then some event.originSeq else none
  { n with
    nextSeq := own.foldl Nat.max 0 + 1
    tombstones := port.tombstones.map fun _ (mark, _) => mark
    loadedCursors := port.cursors
    port := some port }

variable [Primitives]

/-! ## Pairing -/

/-- Pairs two nodes under one epoch; the fetch positions start from what each
node loaded.  The sessions are made in the order of the source, so the first
failure is the one reported. -/
def pair (a b : SyncNode) (epoch : Epoch) (epochSeq : UInt32)
    (aToB bToA : Option CounterBlock) : Except SyncError (SyncNode × SyncNode) :=
  let identityA := a.keys.publicIdentity
  let identityB := b.keys.publicIdentity
  let sessions : Except CryptoError (SessionV2 × SessionV2 × SessionV2 × SessionV2) := do
    let outboundA ← SessionV2.outbound a.keys identityB epoch epochSeq aToB
    let inboundB ← SessionV2.inbound b.keys identityA epoch epochSeq
    let outboundB ← SessionV2.outbound b.keys identityA epoch epochSeq bToA
    let inboundA ← SessionV2.inbound a.keys identityB epoch epochSeq
    pure (outboundA, inboundA, outboundB, inboundB)
  match sessions with
  | .error e => .error (.session e)
  | .ok (outboundA, inboundA, outboundB, inboundB) =>
    let channelsA : PeerChannels :=
      ⟨identityB, outboundA, inboundA, a.loadedCursors[b.label]?.getD 0⟩
    let channelsB : PeerChannels :=
      ⟨identityA, outboundB, inboundB, b.loadedCursors[a.label]?.getD 0⟩
    .ok ({ a with peers := a.peers.insert b.label channelsA },
      { b with peers := b.peers.insert a.label channelsB })

/-! ## Polling -/

/-- Verifies an inbound blob chunk and stores it with the blobs; a chunk of a blob
without a known manifest is dropped. -/
def ingestChunk (blobs : Table String StoredBlob) (peer : String) (chunk : BlobChunkWire) :
    Except SyncError (Table String StoredBlob) :=
  if hexEncode (Primitives.sha256 chunk.ciphertext).toList ≠ chunk.chunkId then
    .error (.invariant ("chunk digest mismatch from " ++ peer))
  else match blobs[chunk.blobId]? with
    | none => .ok blobs
    | some stored =>
      if stored.entries.any fun entry => entry.blobId == chunk.chunkId then
        let stored := { stored with
          chunks := stored.chunks.insert chunk.chunkId chunk.ciphertext }
        .ok (blobs.insert chunk.blobId stored)
      else .error (.invariant ("unsolicited chunk from " ++ peer))

variable [SyncCodec]

/-- The checks on an opened event, its deduplication and its admission. -/
def receiveWire (n : SyncNode) (identity : DeviceIdentity) (wire : WireEvent) :
    Except SyncError Nat × SyncNode :=
  if identity.id ≠ wire.origin then (.error (.unknownOrigin wire.origin), n)
  else match toSignature wire.signature with
    | none => (.error (.session .signatureInvalid), n)
    | some signature =>
      if Primitives.verify identity.ed25519Public
          (SyncCodec.canonicalBytes wire.eventId wire.origin wire.originSeq wire.body)
          signature then
        if wire.eventId ∈ n.applied then (.ok 0, n)
        else match n.admitEvent (wire.toJournal signature) with
          | (.ok (), n) => (.ok 1, n)
          | (.error e, n) => (.error e, n)
      else (.error (.session .signatureInvalid), n)

/-- The node with the inbound session of a peer advanced. -/
def setInbound (n : SyncNode) (peer : String) (channels : PeerChannels) (inbound : SessionV2) :
    SyncNode :=
  { n with peers := n.peers.insert peer { channels with inbound := inbound } }

/-- One fetched envelope: opened, decoded and applied.  Mail of an epoch older
than the pairing is skipped. -/
def pollItem (peer : String) (n : SyncNode) (item : FetchedItem Envelope) :
    Except SyncError Nat × SyncNode :=
  match n.peers[peer]? with
  | none => (.error (.invariant "peer just read"), n)
  | some channels =>
    match channels.inbound.openEnvelope item.payload with
    | (opened, inbound) =>
      let n := n.setInbound peer channels inbound
      match opened with
      | .error (.epochMismatch expectedSeq foundSeq) =>
        if foundSeq < expectedSeq then (.ok 0, n)
        else (.error (.session (.epochMismatch expectedSeq foundSeq)), n)
      | .error e => (.error (.session e), n)
      | .ok plain =>
        match SyncCodec.fromSlice plain with
        | none => (.error .serialization, n)
        | some (.chunk chunk) =>
          match ingestChunk n.blobs peer chunk with
          | .ok blobs => (.ok 0, { n with blobs := blobs })
          | .error e => (.error e, n)
        | some (.event wire) => n.receiveWire channels.identity wire

/-- Moves the fetch position of a peer, in memory and in the port. -/
def moveCursor (n : SyncNode) (peer : String) (channels : PeerChannels) (cursor : Nat) :
    Except SyncError Unit × SyncNode :=
  let n := { n with peers := n.peers.insert peer { channels with fetchCursor := cursor } }
  match n.port with
  | none => (.ok (), n)
  | some port =>
    match port.recordFetchCursor peer cursor with
    | (none, port) => (.error .state, { n with port := some port })
    | (some (), port) => (.ok (), { n with port := some port })

end SyncNode

/-! ## A node at the relay -/

section

variable [Primitives]

/-- An event that was queued in a bucket at a position. -/
structure Pushed where
  bucket : String
  seq : Nat
  event : JournalEvent
deriving DecidableEq

/-- A node at the relay, with the record of the events queued so far. -/
structure Link where
  node : SyncNode
  relay : Relay Envelope
  pushed : List Pushed

end

def PushOutcome.seq : PushOutcome → Nat
  | .pushed seq => seq
  | .duplicate seq => seq

/-- The record with the event of one more push. -/
def recordPush (pushed : List Pushed) (label : String) (outcome : PushOutcome)
    (event : Option JournalEvent) : List Pushed :=
  pushed ++ event.toList.map fun event => ⟨label, outcome.seq, event⟩

theorem mem_recordPush {pushed : List Pushed} {label : String} {outcome : PushOutcome}
    {event : Option JournalEvent} {record : Pushed} :
    record ∈ recordPush pushed label outcome event ↔
      record ∈ pushed ∨ ∃ e, event = some e ∧ record = ⟨label, outcome.seq, e⟩ := by
  cases event <;> simp [recordPush]

namespace Link

variable [Primitives] [SyncCodec]

/-- One page of a peer's bucket.  The position moves before the items are read;
`none` when the bucket is drained. -/
def pollPage (l : Link) (peer : String) : Except SyncError (Option Nat) × Link :=
  match l.node.peers[peer]? with
  | none => (.error (.invariant "peer just read"), l)
  | some channels =>
    match l.relay.fetch (bucketFor l.node.label peer) channels.fetchCursor 256 with
    | (.compacted _, relay) =>
      (.error (.invariant ("unexpected relay page from " ++ peer)), { l with relay := relay })
    | (.invalidCursor _ _, relay) =>
      (.error (.invariant ("unexpected relay page from " ++ peer)), { l with relay := relay })
    | (.entries items nextCursor hasMore, relay) =>
      match l.node.moveCursor peer channels nextCursor with
      | (.error e, node) => (.error e, { l with node := node, relay := relay })
      | (.ok (), node) =>
        if items.isEmpty ∧ ¬ hasMore then (.ok none, { l with node := node, relay := relay })
        else match sumEach (SyncNode.pollItem peer) items node with
          | (.error e, node) => (.error e, { l with node := node, relay := relay })
          | (.ok count, node) => (.ok (some count), { l with node := node, relay := relay })

/-- Pages through a peer's bucket until it is drained. -/
def pollPages (peer : String) : Nat → Link → Except SyncError Nat × Link
  | 0, l => (.ok 0, l)
  | fuel + 1, l =>
    match l.pollPage peer with
    | (.error e, l) => (.error e, l)
    | (.ok none, l) => (.ok 0, l)
    | (.ok (some count), l) =>
      match pollPages peer fuel l with
      | (.error e, l) => (.error e, l)
      | (.ok rest, l) => (.ok (count + rest), l)

/-- All pages of a peer: every page but the last takes at least one entry. -/
def pollPeer (l : Link) (peer : String) : Except SyncError Nat × Link :=
  pollPages peer ((l.relay.bucket (bucketFor l.node.label peer)).entries.length + 1) l

/-- Pulls every pending envelope from all peer buckets. -/
def poll (l : Link) : Except SyncError Nat × Link := sumEach pollPeer l.node.peers.keys l

/-! ## Flushing -/

/-- Whether something was already pushed to a peer. -/
def sent (l : Link) (key peer : String) : Bool := peer ∈ (l.node.sentTo[key]?.getD ∅)

/-- Seals a payload for a peer and pushes it; `record` is the event it carries,
if any. -/
def sealAndPush (l : Link) (peer key pushId : String) (payload : SyncPayload)
    (record : Option JournalEvent) : Except SyncError Nat × Link :=
  match l.node.peers[peer]? with
  | none => (.error (.invariant "peer listed"), l)
  | some channels =>
    match channels.outbound.sealPlain (SyncCodec.toVec payload) with
    | (result, outbound) =>
      let node := { l.node with
        peers := l.node.peers.insert peer { channels with outbound := outbound } }
      match result with
      | .error e => (.error (.session e), { l with node := node })
      | .ok envelope =>
        match l.relay.push Envelope.len (bucketFor peer l.node.label) pushId envelope with
        | (.error e, relay) => (.error (.relay e), { l with node := node, relay := relay })
        | (.ok outcome, relay) =>
          (.ok 1,
            { node := { node with
                sentTo := node.sentTo.insert key ((node.sentTo[key]?.getD ∅).insert peer) }
              relay := relay
              pushed := recordPush l.pushed (bucketFor peer l.node.label) outcome record })

/-- Fans one outbox event out to a peer. -/
def flushEvent (peer : String) (l : Link) (event : JournalEvent) : Except SyncError Nat × Link :=
  if l.sent event.eventId peer then (.ok 0, l)
  else l.sealAndPush peer event.eventId (l.node.label ++ ":" ++ event.eventId)
    (.event event.toWire) (some event)

/-- Opens the next turn towards a peer. -/
def openTurn (l : Link) (peer : String) (seed : Bytes32) : Except SyncError Unit × Link :=
  match l.node.peers[peer]? with
  | none => (.error (.invariant "peer listed"), l)
  | some channels =>
    match channels.outbound.openTurn seed with
    | .error e => (.error (.session e), l)
    | .ok outbound =>
      (.ok (), { l with node := { l.node with
        peers := l.node.peers.insert peer { channels with outbound := outbound } } })

/-- Fans the outbox out to a peer under one fresh turn; a peer with nothing
pending keeps its turn. -/
def flushPeer (seed : Bytes32) (l : Link) (peer : String) : Except SyncError Nat × Link :=
  if l.node.outbox.any fun event => !l.sent event.eventId peer then
    match l.openTurn peer seed with
    | (.error e, l) => (.error e, l)
    | (.ok (), l) => sumEach (flushEvent peer) l.node.outbox l
  else (.ok 0, l)

/-- Pushes one held chunk to one peer. -/
def fanOutChunk (l : Link) : String × String × String → Except SyncError Nat × Link
  | (blobId, chunkId, peer) =>
    if l.sent ("blob:" ++ chunkId) peer then (.ok 0, l)
    else match l.node.blobs[blobId]? with
      | none => (.error (.invariant "blob listed"), l)
      | some stored =>
        match stored.entries.find? fun entry => entry.blobId == chunkId with
        | none => (.error (.invariant "held chunk is in its manifest"), l)
        | some entry =>
          l.sealAndPush peer ("blob:" ++ chunkId) (l.node.label ++ ":blob:" ++ chunkId)
            (.chunk ⟨blobId, entry.contentHash, chunkId, stored.chunks[chunkId]?.getD []⟩)
            none

/-- Every locally held chunk of every known blob, once per peer. -/
def fanOutBlobChunks (l : Link) (peers : List String) : Except SyncError Nat × Link :=
  sumEach fanOutChunk
    (l.node.blobs.toList.flatMap fun (blobId, stored) =>
      stored.chunks.keys.flatMap fun chunkId => peers.map fun peer => (blobId, chunkId, peer)) l

/-- Polls, journals the acknowledgement of everything applied, and fans the
outbox and the held chunks out to every peer. -/
def flush (l : Link) (seed : Bytes32) : Except SyncError Nat × Link :=
  match l.poll with
  | (.error e, l) => (.error e, l)
  | (.ok _, l) =>
    match l.node.acknowledge with
    | (.error e, node) => (.error e, { l with node := node })
    | (.ok _, node) =>
      let peers := node.peers.keys
      match sumEach (flushPeer seed) peers { l with node := node } with
      | (.error e, l) => (.error e, l)
      | (.ok pushed, l) =>
        match l.fanOutBlobChunks peers with
        | (.error e, l) => (.error e, l)
        | (.ok chunks, l) => (.ok (pushed + chunks), l)

end Link

/-! ## The system -/

section

variable [Primitives]

/-- Nodes under their labels, over one relay. -/
structure System where
  nodes : String → SyncNode
  relay : Relay Envelope
  pushed : List Pushed

/-- What happens in the system. -/
inductive SystemInput
  | node (label : String) (input : NodeInput)
  | poll (label : String)
  | flush (label : String) (seed : Bytes32)
  | restart (label : String)
  | pair (a b : String) (epoch : Epoch) (epochSeq : UInt32) (aToB bToA : Option CounterBlock)

namespace System

/-- A node at the relay. -/
def link (s : System) (label : String) : Link := ⟨s.nodes label, s.relay, s.pushed⟩

/-- The system with a node replaced. -/
def setNode (s : System) (label : String) (n : SyncNode) : System :=
  { s with nodes := fun l => if l = label then n else s.nodes l }

/-- The system after one node was at the relay. -/
def setLink (s : System) (label : String) (l : Link) : System :=
  { nodes := fun x => if x = label then l.node else s.nodes x, relay := l.relay, pushed := l.pushed }

end System

variable [SyncCodec]

/-- One step.  A volatile node has nothing to restart from, and a node is not
paired with itself; a start whose loads fail makes no node and is no step. -/
def systemStep (s : System) : SystemInput → System
  | .node label input => s.setNode label (nodeStep (s.nodes label) input)
  | .poll label => s.setLink label (s.link label).poll.2
  | .flush label seed => s.setLink label ((s.link label).flush seed).2
  | .restart label =>
    match (s.nodes label).port with
    | none => s
    | some port => s.setNode label (.durable (s.nodes label).keys label port)
  | .pair a b epoch epochSeq aToB bToA =>
    if a = b then s
    else match SyncNode.pair (s.nodes a) (s.nodes b) epoch epochSeq aToB bToA with
      | .error _ => s
      | .ok (nodeA, nodeB) => (s.setNode a nodeA).setNode b nodeB

/-- Nodes with the given keys, each in memory or over an empty port, and a fresh
relay. -/
def systemMachine (policy : RelayPolicy) (keys : String → DeviceKeys) (isDurable : String → Bool) :
    Machine System SystemInput where
  init :=
    { nodes := fun label => .new (keys label) label (if isDurable label then some .empty else none)
      relay := .new policy
      pushed := [] }
  step := systemStep

end

/-! ## A sample pair -/

section

/-- Primitives to run the system with. -/
abbrev idealPrimitives : Primitives := ideal IdealPlain

attribute [local instance] idealPrimitives

@[inherit_doc idealPrimitives]
abbrev idealSyncCodec : SyncCodec := idealCodec

theorem idealAuthentic : AuthenticAead := ideal_authentic IdealPlain

/-- Two durable devices with different keys. -/
def pairKeys (label : String) : DeviceKeys :=
  if label = "a" then ⟨label, Vector.replicate 32 1, Vector.replicate 32 1⟩
  else ⟨label, Vector.replicate 32 2, Vector.replicate 32 2⟩

/-- One pairing of the devices. -/
def pairing (epochSeq : UInt32) (start : Nat) : SystemInput :=
  .pair "a" "b" (Vector.replicate 16 7) epochSeq (some ⟨start, start + 1000⟩)
    (some ⟨start, start + 1000⟩)

end

end Altior.Sync
