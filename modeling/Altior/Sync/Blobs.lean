import Altior.Crypto.Blob
import Altior.Sync.Moves

/-!
# The blobs of a node

`put_blob` and `get_blob` of `altior-core/src/sync/mod.rs`, and the node over all its
lives: local calls, the events and chunks its polls read, whatever they carry, and
restarts.  A poll and a flush are runs of this node.
-/

namespace Altior.Sync

open Lib Crypto

/-! ## Hex -/

/-- The value of a hex digit of either case. -/
def hexDigit (c : Char) : Option Nat :=
  if '0' ≤ c ∧ c ≤ '9' then some (c.toNat - '0'.toNat)
  else if 'a' ≤ c ∧ c ≤ 'f' then some (c.toNat - 'a'.toNat + 10)
  else if 'A' ≤ c ∧ c ≤ 'F' then some (c.toNat - 'A'.toNat + 10)
  else none

/-- `u8::from_str_radix` on two characters, which lets a plus sign pass. -/
def hexPair (a b : Char) : Option UInt8 :=
  match hexDigit a, hexDigit b with
  | some x, some y => some (UInt8.ofNat (16 * x + y))
  | none, some y => if a = '+' then some (UInt8.ofNat y) else none
  | _, none => none

def hexPairs : List Char → Option (List UInt8)
  | [] => some []
  | [_] => none
  | a :: b :: rest =>
    match hexPair a b, hexPairs rest with
    | some byte, some bytes => some (byte :: bytes)
    | _, _ => none

/-- Decodes 64 hex characters into an id. -/
def hexDecode (hex : String) : Option Bytes32 :=
  if hex.utf8ByteSize ≠ 64 then none
  else match hexPairs hex.toList with
    | none => none
    | some bytes => if h : bytes.length = 32 then some ⟨bytes.toArray, by simpa using h⟩ else none

theorem hexPair_digits (byte : UInt8) :
    hexPair
        (Char.ofNat (if byte.toNat / 16 < 10 then 0x30 + byte.toNat / 16 else 0x57 + byte.toNat / 16))
        (Char.ofNat (if byte.toNat % 16 < 10 then 0x30 + byte.toNat % 16 else 0x57 + byte.toNat % 16)) =
      some byte := by
  have hall : ∀ n : Fin 256,
      hexPair (Char.ofNat (if n.val / 16 < 10 then 0x30 + n.val / 16 else 0x57 + n.val / 16))
        (Char.ofNat (if n.val % 16 < 10 then 0x30 + n.val % 16 else 0x57 + n.val % 16)) =
        some (UInt8.ofNat n.val) := by decide +kernel
  have hbyte := hall ⟨byte.toNat, byte.toNat_lt⟩
  rw [UInt8.ofNat_toNat] at hbyte
  exact hbyte

theorem hexPairs_hexEncode (bytes : List UInt8) :
    hexPairs (hexEncode bytes).toList = some bytes := by
  rw [hexEncode, String.toList_ofList]
  induction bytes with
  | nil => rfl
  | cons byte bytes ih =>
    simp only [List.flatMap_cons, List.cons_append, List.nil_append, hexPairs]
    rw [hexPair_digits, ih]

/-- Hex is ASCII, two characters a byte. -/
theorem utf8ByteSize_hexEncode (bytes : List UInt8) :
    (hexEncode bytes).utf8ByteSize = 2 * bytes.length := by
  have hdigit (n : Nat) (hn : n < 16) :
      (Char.ofNat (if n < 10 then 0x30 + n else 0x57 + n)).utf8Size = 1 :=
    (by decide : ∀ n : Fin 16,
      (Char.ofNat (if n.val < 10 then 0x30 + n.val else 0x57 + n.val)).utf8Size = 1) ⟨n, hn⟩
  have hpush (c : Char) (cs : List Char) :
      (String.ofList (c :: cs)).utf8ByteSize = c.utf8Size + (String.ofList cs).utf8ByteSize := by
    rw [show c :: cs = [c] ++ cs from rfl, String.ofList_append, String.utf8ByteSize_append,
      ← String.singleton_eq_ofList, String.utf8ByteSize_singleton]
  unfold hexEncode
  dsimp only
  induction bytes with
  | nil => rfl
  | cons byte bytes ih =>
    have hbyte := byte.toNat_lt
    simp only [List.flatMap_cons, List.cons_append, List.nil_append]
    rw [hpush, hpush, ih, hdigit _ (by omega), hdigit _ (by omega), List.length_cons]
    omega

/-- An id is read back. -/
@[simp] theorem hexDecode_hexEncode (id : Bytes32) : hexDecode (hexEncode id.toList) = some id := by
  have hsize : (hexEncode id.toList).utf8ByteSize = 64 := by
    rw [utf8ByteSize_hexEncode, Vector.length_toList]
  unfold hexDecode
  rw [hsize, hexPairs_hexEncode]
  simp [← Vector.toList_toArray]

/-! ## Manifests on the wire -/

/-- The entry as an event carries it. -/
def toBlobEntry (entry : ChunkManifestEntry) : BlobEntry :=
  ⟨hexEncode entry.contentHash.toList, hexEncode entry.blobId.toList, entry.ciphertextLen⟩

/-- The entry an event carries, if its ids are hex. -/
def BlobEntry.decode (entry : BlobEntry) : Option ChunkManifestEntry :=
  match hexDecode entry.contentHash, hexDecode entry.blobId with
  | some contentHash, some blobId =>
    some ⟨contentHash, blobId, if entry.ciphertextLen ≤ u64Max then entry.ciphertextLen else 0⟩
  | _, _ => none

/-- The manifest of an announced blob; `none` when an id in it is not hex. -/
def manifestOf (totalSize : Nat) (entries : List BlobEntry) : Option BlobManifest :=
  if (entries.filterMap BlobEntry.decode).length ≠ entries.length then none
  else some ⟨totalSize, entries.filterMap BlobEntry.decode⟩

/-- The chunks at hand under their decoded ids; of two that decode alike the later one
counts. -/
def StoredBlob.chunkMap (stored : StoredBlob) (id : Bytes32) : Option (List UInt8) :=
  (stored.chunks.toList.filter fun row => hexDecode row.1 = some id).getLast?.map Prod.snd

section

variable [Primitives] [BlobPrimitives]

/-- The id and the stored form of a blob of one's own. -/
def chunkBlob (vaultKey : Bytes32) (bytes : List UInt8) : String × StoredBlob :=
  let (chunks, manifest) := splitAndEncrypt vaultKey bytes
  (hexEncode (blobIdOf manifest).toList,
    { totalSize := manifest.totalSize
      entries := manifest.entries.map toBlobEntry
      chunks := chunks.foldl
        (fun stored chunk => stored.insert (hexEncode chunk.blobId.toList) chunk.ciphertext) ∅ })

namespace SyncNode

/-- Chunks, encrypts and stores a blob and announces its manifest. -/
def putBlobBytes [SyncCodec] (n : SyncNode) (vaultKey : Bytes32) (bytes : List UInt8) :
    Except SyncError String × SyncNode :=
  n.putBlob (chunkBlob vaultKey bytes).1 (chunkBlob vaultKey bytes).2

/-- Puts a stored blob together again. -/
def getBlob (n : SyncNode) (vaultKey : Bytes32) (blobId : String) :
    Except SyncError (List UInt8) :=
  match n.blobs[blobId]? with
  | none => .error (.invariant ("unknown blob " ++ blobId))
  | some stored =>
    match manifestOf stored.totalSize stored.entries with
    | none => .error (.invariant "blob manifest hex decode")
    | some manifest =>
      match decryptAndReassemble vaultKey manifest stored.chunkMap with
      | .error e => .error (.session e)
      | .ok bytes => .ok bytes

end SyncNode

end

/-! ## A node over its lives -/

/-- Whether an input is a local call other than `put_blob`, or sets the faults to
come. -/
def NodeInput.isCall : NodeInput → Bool
  | .putBlob .. => false
  | .receive _ => false
  | _ => true

/-- What happens to a node. -/
inductive EngineInput
  | call (input : { input : NodeInput // input.isCall = true })
  | putBlob (vaultKey : Bytes32) (bytes : List UInt8)
  /-- An event of a peer that passed the checks of a poll. -/
  | event (event : JournalEvent)
  /-- A chunk that a peer's envelope opened to. -/
  | chunk (peer : String) (chunk : BlobChunkWire)
  /-- Sessions and positions move. -/
  | channels (peers : Table String PeerChannels)
  | cursor (peer : String) (cursor : Nat)
  | sent (sentTo : Table String (Std.ExtTreeSet String))
  | restart

section

variable [Primitives] [SyncCodec] [BlobPrimitives]

/-- One input.  A chunk that is refused ends its poll and changes nothing. -/
def engineStep (n : SyncNode) : EngineInput → SyncNode
  | .call input => nodeStep n input.1
  | .putBlob vaultKey bytes => (n.putBlobBytes vaultKey bytes).2
  | .event event => (n.admitEvent event).2
  | .chunk peer chunk =>
    match SyncNode.ingestChunk n.blobs peer chunk with
    | .ok blobs => { n with blobs := blobs }
    | .error _ => n
  | .channels peers => { n with peers := peers }
  | .cursor peer cursor => { n with port := n.port.map fun p => (p.recordFetchCursor peer cursor).2 }
  | .sent sentTo => { n with sentTo := sentTo }
  | .restart =>
    match n.port with
    | none => n
    | some port => .durable n.keys n.label port

/-- A new node, in memory or over an empty port. -/
def engineMachine (keys : DeviceKeys) (label : String) (isDurable : Bool) :
    Machine SyncNode EngineInput :=
  ⟨.new keys label (if isDurable then some .empty else none), engineStep⟩

open Relation (ReflTransGen)

variable (keys : DeviceKeys) (label : String) (isDurable : Bool)

/-- A move of a node that runs of it can follow. -/
theorem run_of_moves {R : Link → Link → Prop}
    (hmove : ∀ l l', R l l' → ∃ inputs, l'.node =
      (engineMachine keys label isDurable).runFrom l.node inputs)
    {l l' : Link} (h : ReflTransGen R l l') :
    ∃ inputs, l'.node = (engineMachine keys label isDurable).runFrom l.node inputs := by
  induction h with
  | refl => exact ⟨[], rfl⟩
  | tail _ hlast ih =>
    obtain ⟨inputs, hinputs⟩ := ih
    obtain ⟨more, hmore⟩ := hmove _ _ hlast
    exact ⟨inputs ++ more, by rw [hmore, hinputs, Machine.runFrom_append]⟩

theorem reads_run {C : Prop} {l l' : Link} (h : l.Reads C l') :
    ∃ inputs, l'.node = (engineMachine keys label isDurable).runFrom l.node inputs := by
  cases h with
  | relay hsame => exact ⟨[], rfl⟩
  | @channels peer channels channels' hpeer hidentity houtbound =>
    exact ⟨[.channels (l.node.peers.insert peer channels')], rfl⟩
  | @cursor port peer cursor hport =>
    refine ⟨[.cursor peer cursor], ?_⟩
    simp only [Machine.runFrom_cons, Machine.runFrom_nil, engineMachine, engineStep, hport,
      Option.map_some]
  | @blobs peer chunk blobs hingest =>
    refine ⟨[.chunk peer chunk], ?_⟩
    simp only [Machine.runFrom_cons, Machine.runFrom_nil, engineMachine, engineStep, hingest]
  | @admitEvent peer e hgenuine hfresh hok => exact ⟨[.event e], rfl⟩

theorem writes_run {l l' : Link} (h : l.Writes l') :
    ∃ inputs, l'.node = (engineMachine keys label isDurable).runFrom l.node inputs := by
  cases h with
  | relay hsame => exact ⟨[], rfl⟩
  | @outbound peer channels hpeer outbound =>
    exact ⟨[.channels (l.node.peers.insert peer { channels with outbound := outbound })], rfl⟩
  | @push _ peer key pushId payload record hfans hpush =>
    obtain ⟨channels, envelope, outbound, outcome, relay, -, -, -, rfl⟩ := Link.sealAndPush_ok hpush
    exact ⟨[.channels (l.node.peers.insert peer { channels with outbound := outbound }),
      .sent (l.node.sentTo.insert key ((l.node.sentTo[key]?.getD ∅).insert peer))], rfl⟩

/-- A poll is a run of the node: what its peers sent arrives in some order. -/
theorem poll_run (l : Link) :
    ∃ inputs, l.poll.2.node = (engineMachine keys label isDurable).runFrom l.node inputs :=
  run_of_moves keys label isDurable (fun _ _ h => reads_run keys label isDurable h)
    (l.poll_moves (C := False) False.elim)

/-- So is a flush. -/
theorem flush_run (l : Link) (seed : Bytes32) :
    ∃ inputs, (l.flush seed).2.node =
      (engineMachine keys label isDurable).runFrom l.node inputs := by
  obtain ⟨polled, -, hpoll, hrest⟩ := l.flush_moves (C := False) seed False.elim
  obtain ⟨inputs, hinputs⟩ :=
    run_of_moves keys label isDurable (fun _ _ h => reads_run keys label isDurable h) hpoll
  obtain hfail | ⟨-, hwrites⟩ := hrest
  · exact ⟨inputs, by rw [hfail, hinputs]⟩
  · obtain ⟨more, hmore⟩ :=
      run_of_moves keys label isDurable (fun _ _ h => writes_run keys label isDurable h) hwrites
    refine ⟨inputs ++ .call ⟨.acknowledge, rfl⟩ :: more, ?_⟩
    rw [hmore, Machine.runFrom_append, Machine.runFrom_cons, ← hinputs]
    rfl

end

end Altior.Sync
