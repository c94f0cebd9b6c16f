import Altior.Crypto.Session
import Altior.Lib.Machine
import Altior.Sync.Relay

/-!
# The sync engine: events and their application

One paired device's replicated state (`altior-core/src/sync/mod.rs`): creating
and signing local events, admitting events into the applied journal, and what an
admitted event does to documents, memories, tombstones and acknowledgements.
The persistence port is the one of `sync/persist.rs` over the storage tables;
every call to it may fail.
-/

namespace Altior.Sync

open Lib Crypto

/-! ## Events -/

/-- One chunk entry of a blob manifest. -/
structure BlobEntry where
  contentHash : String
  blobId : String
  ciphertextLen : Nat
deriving DecidableEq, Repr

/-- The replicated event vocabulary. -/
inductive EventBody
  | documentAppend (docId entry : String)
  | memoryProposed (memoryId content : String)
  | memoryForgotten (memoryId : String) (forgottenAtMillis : Nat) (digest : Bytes32)
  | ack (frontiers : Table String Nat)
  | blobAdded (blobId : String) (totalSize : Nat) (entries : List BlobEntry)
deriving DecidableEq

/-- One replicated journal event. -/
structure JournalEvent where
  /-- Unique, origin-qualified: `"{origin}:{seq}"`. -/
  eventId : String
  origin : String
  originSeq : Nat
  signature : Signature
  body : EventBody
deriving DecidableEq

/-- The numbers of the event fit the columns of the store. -/
def JournalEvent.fits (event : JournalEvent) : Bool :=
  event.originSeq ≤ i64Max &&
    match event.body with
    | .memoryForgotten _ forgottenAtMillis _ => decide (forgottenAtMillis ≤ i64Max)
    | _ => true

/-- The mark recorded when a forget is applied. -/
structure TombstoneMark where
  digest : Bytes32
  origin : String
  originSeq : Nat
deriving DecidableEq

/-- A known blob: its manifest and the chunks held locally. -/
structure StoredBlob where
  totalSize : Nat
  entries : List BlobEntry
  chunks : Table String (List UInt8)
deriving DecidableEq

/-- The wire form of an event; its signature may have any length. -/
structure WireEvent where
  eventId : String
  origin : String
  originSeq : Nat
  signature : List UInt8
  body : EventBody
deriving DecidableEq

/-- A transported blob chunk. -/
structure BlobChunkWire where
  blobId : String
  contentHash : String
  chunkId : String
  ciphertext : List UInt8
deriving DecidableEq

/-- The payload of one sync envelope. -/
inductive SyncPayload
  | event (wire : WireEvent)
  | chunk (chunk : BlobChunkWire)
deriving DecidableEq

/-- The serializer of the engine: the bytes a signature covers, and the payloads
of envelopes. -/
class SyncCodec [Primitives] where
  canonicalBytes : String → String → Nat → EventBody → Primitives.Plain
  toVec : SyncPayload → Primitives.Plain
  fromSlice : Primitives.Plain → Option SyncPayload
  /-- What was serialized is read back. -/
  fromSlice_toVec : ∀ payload, fromSlice (toVec payload) = some payload

/-- A plaintext of the ideal instance: a payload, or what a signature covers. -/
inductive IdealPlain
  | payload (payload : SyncPayload)
  | signable (eventId origin : String) (originSeq : Nat) (body : EventBody)
deriving DecidableEq

/-- The codec of the ideal instance. -/
abbrev idealCodec : @SyncCodec (ideal IdealPlain) :=
  letI := ideal IdealPlain
  { canonicalBytes := .signable
    toVec := .payload
    fromSlice := fun
      | .payload payload => some payload
      | .signable .. => none
    fromSlice_toVec := fun _ => rfl }

/-! ## The persistence port -/

/-- What goes wrong in the engine. -/
inductive SyncError
  | unknownOrigin (origin : String)
  | session (source : CryptoError)
  | relay (source : RelayError)
  | serialization
  | invariant (what : String)
  | state
deriving DecidableEq, Repr

/-- What survives a restart, and the outcomes of the calls to come: `true` for a
call that fails. -/
structure SyncPort where
  applied : List JournalEvent
  cursors : Table String Nat
  tombstones : Table String (TombstoneMark × Nat)
  faults : List Bool
deriving DecidableEq

namespace SyncPort

def empty : SyncPort := ⟨[], ∅, ∅, []⟩

/-- Whether the next call fails, and the port after it was made. -/
def call (p : SyncPort) : Bool × SyncPort :=
  match p.faults with
  | [] => (false, p)
  | fault :: faults => (fault, { p with faults := faults })

/-- Records an applied event; an id that exists is left as it is.  A sequence
number that does not fit its column is refused before the call. -/
def recordApplied (p : SyncPort) (event : JournalEvent) : Except SyncError Bool × SyncPort :=
  if i64Max < event.originSeq then (.error .state, p)
  else match p.call with
    | (true, p) => (.error .state, p)
    | (false, p) =>
      if p.applied.any fun e => e.eventId == event.eventId then (.ok false, p)
      else (.ok true, { p with applied := p.applied ++ [event] })

/-- Records the fetch position of a peer's bucket; it never goes back. -/
def recordFetchCursor (p : SyncPort) (peer : String) (cursor : Nat) : Option Unit × SyncPort :=
  match p.call with
  | (true, p) => (none, p)
  | (false, p) =>
    (some (), { p with cursors := p.cursors.insert peer (max (p.cursors[peer]?.getD 0) cursor) })

/-- Records a tombstone.  A time that does not fit its column is refused before
the call. -/
def recordTombstone (p : SyncPort) (memoryId : String) (mark : TombstoneMark)
    (forgottenAtMillis : Nat) : Except SyncError Unit × SyncPort :=
  if i64Max < forgottenAtMillis then
    (.error (.invariant "forgotten_at: out of range integral type conversion attempted"), p)
  else match p.call with
    | (true, p) => (.error .state, p)
    | (false, p) =>
      (.ok (), { p with tombstones := p.tombstones.insert memoryId (mark, forgottenAtMillis) })

end SyncPort

/-! ## The node -/

/-- One peer's channels: the two sessions and the position in the peer's
bucket. -/
structure PeerChannels where
  identity : DeviceIdentity
  outbound : SessionV2
  inbound : SessionV2
  fetchCursor : Nat
deriving DecidableEq

/-- One paired device's sync engine state. -/
structure SyncNode where
  label : String
  keys : DeviceKeys
  peers : Table String PeerChannels
  /-- The applied journal by event id, also the deduplication set. -/
  applied : Table String JournalEvent
  memories : Table String String
  tombstones : Table String TombstoneMark
  documents : Table String (Std.ExtTreeSet String)
  /-- Events created here, in order. -/
  outbox : List JournalEvent
  peerAcks : Table String (Table String Nat)
  /-- The peers an event or a chunk was already pushed to. -/
  sentTo : Table String (Std.ExtTreeSet String)
  /-- `none` for a volatile node. -/
  port : Option SyncPort
  loadedCursors : Table String Nat
  blobs : Table String StoredBlob
  nextSeq : Nat
  suppressedResurrections : Nat
deriving DecidableEq

namespace SyncNode

/-- A node with no peers, in memory or over a port. -/
def new (keys : DeviceKeys) (label : String) (port : Option SyncPort) : SyncNode where
  label := label
  keys := keys
  peers := ∅
  applied := ∅
  memories := ∅
  tombstones := ∅
  documents := ∅
  outbox := []
  peerAcks := ∅
  sentTo := ∅
  port := port
  loadedCursors := ∅
  blobs := ∅
  nextSeq := 1
  suppressedResurrections := 0

/-- Takes the acknowledged frontiers of a peer into its ledger, keeping maxima. -/
def raiseAcks (ledger frontiers : Table String Nat) : Table String Nat :=
  frontiers.toList.foldl
    (fun ledger (origin, seq) => ledger.insert origin (max (ledger[origin]?.getD 0) seq)) ledger

/-- The tombstone half of `apply`: the port first, then the maps. -/
def applyForget (n : SyncNode) (event : JournalEvent) (memoryId : String) (forgottenAtMillis : Nat)
    (digest : Bytes32) : Except SyncError Unit × SyncNode :=
  let mark : TombstoneMark := ⟨digest, event.origin, event.originSeq⟩
  let record (n : SyncNode) : Except SyncError Unit × SyncNode :=
    (.ok (), { n with
      tombstones := n.tombstones.insert memoryId mark
      memories := n.memories.erase memoryId
      applied := n.applied.insert event.eventId event })
  match n.port with
  | none => record n
  | some port =>
    match port.recordTombstone memoryId mark forgottenAtMillis with
    | (.error e, port) => (.error e, { n with port := some port })
    | (.ok (), port) => record { n with port := some port }

/-- Applies an event to the visible state. -/
def apply (n : SyncNode) (event : JournalEvent) : Except SyncError Unit × SyncNode :=
  let applied := n.applied.insert event.eventId event
  match event.body with
  | .documentAppend docId entry =>
    (.ok (), { n with
      documents := n.documents.insert docId ((n.documents[docId]?.getD ∅).insert entry)
      applied := applied })
  | .memoryProposed memoryId content =>
    if memoryId ∈ n.tombstones then
      -- A forgotten memory stays forgotten.
      (.ok (), { n with
        suppressedResurrections := n.suppressedResurrections + 1
        applied := applied })
    else
      (.ok (), { n with memories := n.memories.insert memoryId content, applied := applied })
  | .memoryForgotten memoryId forgottenAtMillis digest =>
    n.applyForget event memoryId forgottenAtMillis digest
  | .blobAdded blobId totalSize entries =>
    let stored := n.blobs[blobId]?.getD ⟨0, [], ∅⟩
    (.ok (), { n with
      blobs := n.blobs.insert blobId { stored with totalSize := totalSize, entries := entries }
      applied := applied })
  | .ack frontiers =>
    (.ok (), { n with
      peerAcks := n.peerAcks.insert event.origin
        (raiseAcks (n.peerAcks[event.origin]?.getD ∅) frontiers)
      applied := applied })

/-- Records an event durably and applies it. -/
def admitEvent (n : SyncNode) (event : JournalEvent) : Except SyncError Unit × SyncNode :=
  if event.eventId ∈ n.applied then (.ok (), n)
  else match n.port with
    | none => n.apply event
    | some port =>
      match port.recordApplied event with
      | (.error e, port) => (.error e, { n with port := some port })
      -- The event is not applied yet, so whether the port knew it does not matter.
      | (.ok _, port) => { n with port := some port }.apply event

variable [Primitives]

variable [SyncCodec]

/-- Creates, signs and outboxes a local event. -/
def create (n : SyncNode) (body : EventBody) : JournalEvent × SyncNode :=
  let eventId := n.label ++ ":" ++ toString n.nextSeq
  let event : JournalEvent :=
    { eventId := eventId, origin := n.label, originSeq := n.nextSeq
      signature := Primitives.sign n.keys.signing
        (SyncCodec.canonicalBytes eventId n.label n.nextSeq body)
      body := body }
  (event, { n with nextSeq := n.nextSeq + 1, outbox := n.outbox ++ [event] })

/-- Creates an event and admits it. -/
def createAdmit (n : SyncNode) (body : EventBody) : Except SyncError String × SyncNode :=
  match n.create body with
  | (event, n) =>
    match n.admitEvent event with
    | (.ok (), n) => (.ok event.eventId, n)
    | (.error e, n) => (.error e, n)

/-- Appends an entry to a document. -/
def appendDocument (n : SyncNode) (docId entry : String) : Except SyncError String × SyncNode :=
  n.createAdmit (.documentAppend docId entry)

/-- Proposes a memory; a tombstoned one is refused at creation. -/
def proposeMemory (n : SyncNode) (memoryId content : String) :
    Except SyncError (Option String) × SyncNode :=
  if memoryId ∈ n.tombstones then
    (.ok none, { n with suppressedResurrections := n.suppressedResurrections + 1 })
  else match n.createAdmit (.memoryProposed memoryId content) with
    | (.ok id, n) => (.ok (some id), n)
    | (.error e, n) => (.error e, n)

/-- Forgets a memory permanently. -/
def forgetMemory (n : SyncNode) (memoryId : String) (forgottenAtMillis : Nat) (digest : Bytes32) :
    Except SyncError String × SyncNode :=
  n.createAdmit (.memoryForgotten memoryId forgottenAtMillis digest)

/-- Stores a chunked, encrypted blob and announces its manifest; the blob and its
id come from the blob plane. -/
def putBlob (n : SyncNode) (blobId : String) (blob : StoredBlob) :
    Except SyncError String × SyncNode :=
  let n := { n with blobs := n.blobs.insert blobId blob }
  match n.createAdmit (.blobAdded blobId blob.totalSize blob.entries) with
  | (.ok _, n) => (.ok blobId, n)
  | (.error e, n) => (.error e, n)

/-- Per event origin, the highest sequence number in the applied journal. -/
def appliedFrontier (n : SyncNode) : Table String Nat :=
  n.applied.toList.foldl
    (fun frontier (_, event) =>
      frontier.insert event.origin (max (frontier[event.origin]?.getD 0) event.originSeq)) ∅

/-- Journals this node's acknowledgement of everything it has applied. -/
def acknowledge (n : SyncNode) : Except SyncError String × SyncNode :=
  n.createAdmit (.ack n.appliedFrontier)

/-! ## Runs of one process life -/

end SyncNode

/-- What happens to a node in one process life: local creations, remote events
that reach `admitEvent`, and the outcomes of the port calls that follow. -/
inductive NodeInput
  | appendDocument (docId entry : String)
  | proposeMemory (memoryId content : String)
  | forgetMemory (memoryId : String) (forgottenAtMillis : Nat) (digest : Bytes32)
  | putBlob (blobId : String) (blob : StoredBlob)
  | acknowledge
  | receive (event : JournalEvent)
  | portFaults (faults : List Bool)

section

variable [Primitives] [SyncCodec]

/-- One input. -/
def nodeStep (n : SyncNode) : NodeInput → SyncNode
  | .appendDocument docId entry => (n.appendDocument docId entry).2
  | .proposeMemory memoryId content => (n.proposeMemory memoryId content).2
  | .forgetMemory memoryId forgottenAtMillis digest =>
    (n.forgetMemory memoryId forgottenAtMillis digest).2
  | .putBlob blobId blob => (n.putBlob blobId blob).2
  | .acknowledge => n.acknowledge.2
  | .receive event => (n.admitEvent event).2
  | .portFaults faults => { n with port := n.port.map fun p => { p with faults := faults } }

/-- A node started empty, volatile or over a port. -/
def nodeMachine (keys : DeviceKeys) (label : String) (port : Option SyncPort) :
    Machine SyncNode NodeInput :=
  ⟨.new keys label port, nodeStep⟩

end

end Altior.Sync
