import Altior.Sync.Announcements

/-!
# Manifests that fit what is held

Fanning out expects every held chunk in its manifest, and reassembly reserves the
announced size.  Both rest on what peers announce.
-/

namespace Altior.Sync

open Lib Crypto

/-- The size an announcement makes reassembly reserve is one its entries can give. -/
def Reservable (totalSize : Nat) (entries : List BlobEntry) : Prop :=
  ∀ manifest ∈ manifestOf totalSize entries, manifest.reserved ≤ manifest.yields

instance (totalSize : Nat) (entries : List BlobEntry) : Decidable (Reservable totalSize entries) :=
  inferInstanceAs (Decidable (∀ manifest ∈ manifestOf totalSize entries, _))

/-- The entries name every one of some chunks. -/
def Lists (entries : List BlobEntry) (chunks : Table String (List UInt8)) : Prop :=
  ∀ chunkId ∈ chunks.keys, ∃ entry ∈ entries, entry.blobId = chunkId

instance (entries : List BlobEntry) (chunks : Table String (List UInt8)) :
    Decidable (Lists entries chunks) :=
  inferInstanceAs (Decidable (∀ chunkId ∈ chunks.keys, _))

/-- The chunks a node holds of a blob. -/
def SyncNode.heldChunks (n : SyncNode) (blobId : String) : Table String (List UInt8) :=
  (n.blobs[blobId]?.getD ⟨0, [], ∅⟩).chunks

section

variable [Primitives] [SyncCodec]

/-- A node whose blobs make nothing panic: every held chunk is in its manifest, no
blob reserves more than it can give, and no fan-out to the peers breaks an invariant. -/
structure SyncNode.Unharmed (n : SyncNode) : Prop where
  held : ∀ (blobId : String) stored, n.blobs[blobId]? = some stored →
    Lists stored.entries stored.chunks
  reserved : ∀ (blobId : String) stored, n.blobs[blobId]? = some stored →
    Reservable stored.totalSize stored.entries
  fans : ∀ relay pushed what,
    (Link.fanOutBlobChunks ⟨n, relay, pushed⟩ n.peers.keys).1 ≠ .error (.invariant what)

/-- An event that replaces a manifest names what is held of the blob, and a size that
its entries can give. -/
def Keeps (n : SyncNode) : EngineInput → Prop
  | .event e => n.admits e = true → e.body.Announces fun blobId totalSize entries =>
    Lists entries (n.heldChunks blobId) ∧ Reservable totalSize entries
  | _ => True

/-! ## Fanning out -/

namespace Link

theorem mem_peers_of_sealAndPush {l : Link} {peer key pushId p : String} {payload : SyncPayload}
    {record : Option JournalEvent} (hp : p ∈ l.node.peers) :
    p ∈ (l.sealAndPush peer key pushId payload record).2.node.peers := by
  unfold sealAndPush
  split
  · exact hp
  · dsimp only
    split
    · exact Std.ExtTreeMap.mem_insert.2 (.inr hp)
    · split <;> exact Std.ExtTreeMap.mem_insert.2 (.inr hp)

theorem sealAndPush_error {l : Link} {peer key pushId : String} {payload : SyncPayload}
    {record : Option JournalEvent} (hpeer : peer ∈ l.node.peers) {what : String} :
    (l.sealAndPush peer key pushId payload record).1 ≠ .error (.invariant what) := by
  obtain ⟨channels, hchannels⟩ := Table.mem_iff.1 hpeer
  unfold sealAndPush
  rw [hchannels]
  dsimp only
  split
  · simp
  · split <;> simp

/-- Where every held chunk is in its manifest, a fan-out finds what it expects. -/
theorem fanOutBlobChunks_ne_invariant {l : Link} {peers : List String}
    (hpeers : ∀ peer ∈ peers, peer ∈ l.node.peers)
    (hheld : ∀ (blobId : String) stored, l.node.blobs[blobId]? = some stored →
      Lists stored.entries stored.chunks) (what : String) :
    (l.fanOutBlobChunks peers).1 ≠ .error (.invariant what) := by
  intro hfail
  have hblob {row : String × String × String} (hrow : row ∈ l.node.blobs.toList.flatMap fun row =>
      row.2.chunks.keys.flatMap fun chunkId => peers.map fun peer => (row.1, chunkId, peer)) :
      ∃ stored, l.node.blobs[row.1]? = some stored ∧ row.2.1 ∈ stored.chunks.keys ∧
        row.2.2 ∈ peers := by
    obtain ⟨⟨blobId, stored⟩, hstored, hrow⟩ := List.mem_flatMap.1 hrow
    obtain ⟨chunkId, hchunkId, hrow⟩ := List.mem_flatMap.1 hrow
    obtain ⟨peer, hpeer, rfl⟩ := List.mem_map.1 hrow
    exact ⟨stored, Std.ExtTreeMap.mem_toList_iff_getElem?_eq_some.1 hstored, hchunkId, hpeer⟩
  refine sumEach_error_mem (I := fun l' : Link => l'.node.blobs = l.node.blobs ∧
    ∀ peer ∈ peers, peer ∈ l'.node.peers) (P := fun e => e ≠ .invariant what) _ ?_ ?_
    ⟨rfl, hpeers⟩ hfail rfl
  · rintro l' ⟨blobId, chunkId, peer⟩ - ⟨hblobs, hin⟩
    simp only [fanOutChunk]
    split
    · exact ⟨hblobs, hin⟩
    split
    · exact ⟨hblobs, hin⟩
    split
    · exact ⟨hblobs, hin⟩
    · exact ⟨(sealAndPush_frame l' _ _ _ _ _).2.trans hblobs,
        fun p hp => mem_peers_of_sealAndPush (hin p hp)⟩
  · rintro l' ⟨blobId, chunkId, peer⟩ hrow ⟨hblobs, hin⟩ e he
    obtain ⟨stored, hstored, hchunkId, hpeer⟩ := hblob hrow
    obtain ⟨entry, hentry, hid⟩ := hheld blobId stored hstored chunkId hchunkId
    simp only [fanOutChunk] at he
    split at he
    · cases he
    rw [hblobs, hstored] at he
    dsimp only at he
    split at he
    · rename_i hnone
      exact absurd (beq_iff_eq.2 hid) (List.find?_eq_none.1 hnone entry hentry)
    · rintro rfl
      exact sealAndPush_error (hin peer hpeer) he

end Link

variable {n : SyncNode}

theorem unharmed_of_held (hheld : ∀ (blobId : String) stored, n.blobs[blobId]? = some stored →
      Lists stored.entries stored.chunks)
    (hreserved : ∀ (blobId : String) stored, n.blobs[blobId]? = some stored →
      Reservable stored.totalSize stored.entries) : n.Unharmed :=
  ⟨hheld, hreserved, fun relay pushed what =>
    Link.fanOutBlobChunks_ne_invariant (l := ⟨n, relay, pushed⟩)
      (fun _ hpeer => Std.ExtTreeMap.mem_keys.1 hpeer) hheld what⟩

/-! ## One's own blobs -/

section

variable [BlobPrimitives]

omit [SyncCodec] in
/-- The chunks of a blob are those of its manifest. -/
theorem chunkBlob_lists (vaultKey : Bytes32) (bytes : List UInt8) :
    Lists (chunkBlob vaultKey bytes).2.entries (chunkBlob vaultKey bytes).2.chunks := by
  have hfold (chunks : List ChunkCiphertext) (stored : Table String (List UInt8)) (id : String)
      (hid : id ∈ chunks.foldl
        (fun stored chunk => stored.insert (hexEncode chunk.blobId.toList) chunk.ciphertext) stored) :
      id ∈ stored ∨ ∃ chunk ∈ chunks, hexEncode chunk.blobId.toList = id := by
    induction chunks generalizing stored with
    | nil => exact .inl hid
    | cons chunk chunks ih =>
      obtain hid | ⟨other, hother, rfl⟩ := ih _ hid
      · obtain rfl | hid := Table.mem_insert_iff.1 hid
        · exact .inr ⟨chunk, List.mem_cons_self, rfl⟩
        · exact .inl hid
      · exact .inr ⟨other, List.mem_cons_of_mem chunk hother, rfl⟩
  intro chunkId hchunkId
  obtain hnone | ⟨chunk, hchunk, rfl⟩ := hfold _ _ _ (Std.ExtTreeMap.mem_keys.1 hchunkId)
  · simp at hnone
  · exact ⟨toBlobEntry chunk.entry,
      List.mem_map_of_mem (List.mem_map_of_mem (f := ChunkCiphertext.entry) hchunk), rfl⟩

omit [SyncCodec] in
/-- The manifest of a blob is read back as it was made. -/
theorem manifestOf_chunkBlob [LawfulBlobAead] (vaultKey : Bytes32) (bytes : List UInt8) :
    manifestOf (chunkBlob vaultKey bytes).2.totalSize (chunkBlob vaultKey bytes).2.entries =
      some (splitAndEncrypt vaultKey bytes).2 := by
  have hback (entries : List ChunkManifestEntry)
      (hshort : ∀ entry ∈ entries, entry.ciphertextLen ≤ u64Max) :
      (entries.map toBlobEntry).filterMap BlobEntry.decode = entries := by
    induction entries with
    | nil => rfl
    | cons entry entries ih =>
      rw [List.map_cons, List.filterMap_cons, decode_toBlobEntry,
        ih fun other hother => hshort other (List.mem_cons_of_mem entry hother)]
      dsimp only
      rw [if_pos (hshort entry List.mem_cons_self)]
  unfold manifestOf
  rw [chunkBlob_entries, hback _ fun entry hentry => splitAndEncrypt_entry_le hentry,
    List.length_map, if_neg (not_not.2 rfl)]
  rfl

omit [SyncCodec] in
theorem chunkBlob_reservable [LawfulBlobAead] (vaultKey : Bytes32) (bytes : List UInt8) :
    Reservable (chunkBlob vaultKey bytes).2.totalSize (chunkBlob vaultKey bytes).2.entries := by
  intro manifest hmanifest
  rw [manifestOf_chunkBlob] at hmanifest
  cases hmanifest
  rw [splitAndEncrypt_yields]
  exact Nat.min_le_left _ _

/-! ## One input -/

omit [Primitives] [SyncCodec] [BlobPrimitives] in
/-- An announcement that is admitted sets the manifest of its blob and keeps the
chunks. -/
theorem addBlob_cases {blobs : Table String StoredBlob} {e : JournalEvent} {blobId : String}
    {stored : StoredBlob} (h : (Reading.addBlob blobs e)[blobId]? = some stored) :
    blobs[blobId]? = some stored ∨
      ∃ totalSize entries, e.body = .blobAdded blobId totalSize entries ∧
        stored = { blobs[blobId]?.getD ⟨0, [], ∅⟩ with
          totalSize := totalSize, entries := entries } := by
  unfold Reading.addBlob at h
  split at h
  · rename_i hbody
    rw [Table.getElem?_insert_eq] at h
    split at h
    · rename_i hid
      subst hid
      cases h
      exact .inr ⟨_, _, hbody, rfl⟩
    · exact .inl h
  · exact .inl h

/-- What is held stays listed, through every input that keeps it so. -/
theorem held_step (h : n.Unharmed) {i : EngineInput} (hi : Keeps n i) {blobId : String}
    {stored : StoredBlob} (hstored : (engineStep n i).blobs[blobId]? = some stored) :
    Lists stored.entries stored.chunks := by
  cases i with
  | call input =>
    rw [engineStep, (nodeStep_call n input.2).1] at hstored
    exact h.held blobId stored hstored
  | putBlob vaultKey bytes =>
    rw [putBlob_blobs, Table.getElem?_insert_eq] at hstored
    split at hstored
    · cases hstored
      exact chunkBlob_lists vaultKey bytes
    · exact h.held blobId stored hstored
  | event event =>
    rw [engineStep, SyncNode.admitEvent_blobs] at hstored
    split at hstored
    · rename_i hadmits
      obtain hold | ⟨totalSize, entries, hbody, rfl⟩ := addBlob_cases hstored
      · exact h.held blobId stored hold
      · have hkeeps := hi hadmits
        rw [hbody] at hkeeps
        exact hkeeps.1
    · exact h.held blobId stored hstored
  | chunk peer chunk =>
    unfold engineStep at hstored
    dsimp only at hstored
    split at hstored
    · rename_i blobs hingest
      obtain ⟨old, hold, -, hentries, hchunks⟩ := ingestChunk_manifest hingest hstored
      have hlisted := h.held blobId old hold
      rw [hentries]
      obtain hsame | ⟨hany, hchunks⟩ := hchunks
      · rw [hsame]
        exact hlisted
      · intro chunkId hchunkId
        rw [hchunks, Std.ExtTreeMap.mem_keys] at hchunkId
        obtain rfl | hchunkId := Table.mem_insert_iff.1 hchunkId
        · obtain ⟨entry, hentry, hid⟩ := List.any_eq_true.1 hany
          exact ⟨entry, hentry, beq_iff_eq.1 hid⟩
        · exact hlisted chunkId (Std.ExtTreeMap.mem_keys.2 hchunkId)
    · exact h.held blobId stored hstored
  | channels peers => exact h.held blobId stored hstored
  | cursor peer cursor => exact h.held blobId stored hstored
  | sent sentTo => exact h.held blobId stored hstored
  | restart =>
    unfold engineStep at hstored
    dsimp only at hstored
    split at hstored
    · exact h.held blobId stored hstored
    · -- A restarted node holds no chunks.
      rename_i p hp
      rw [SyncNode.durable_blobs] at hstored
      have hnone (es : List JournalEvent) (blobs : Table String StoredBlob)
          (hblobs : ∀ (id : String) x, blobs[id]? = some x → x.chunks = ∅) (id : String)
          (x : StoredBlob) (hx : (es.foldl Reading.addBlob blobs)[id]? = some x) :
          x.chunks = ∅ := by
        induction es generalizing blobs with
        | nil => exact hblobs id x hx
        | cons e es ih =>
          refine ih _ (fun id' x' hx' => ?_) hx
          obtain hold | ⟨_, _, -, rfl⟩ := addBlob_cases hx'
          · exact hblobs id' x' hold
          · cases hget : blobs[id']? with
            | none => rfl
            | some old => exact hblobs id' old hget
      intro chunkId hchunkId
      rw [hnone _ ∅ (by simp) blobId stored hstored] at hchunkId
      simp at hchunkId

omit [Primitives] [SyncCodec] [BlobPrimitives] in
theorem announcing_of_keeps {i : EngineInput} (h : Keeps n i) :
    Announcing (fun _ => Reservable) n i := by
  cases i with
  | event e =>
    intro hadmits
    have hboth := h hadmits
    cases hbody : e.body with
    | blobAdded blobId totalSize entries =>
      rw [hbody] at hboth
      exact hboth.2
    | _ => trivial
  | _ => trivial

/-- An input keeps a node from harm iff it meets the condition. -/
theorem unharmed_step_iff [LawfulBlobAead] (hannounced : Announced (fun _ => Reservable) n)
    (h : n.Unharmed) (i : EngineInput) : (engineStep n i).Unharmed ↔ Keeps n i := by
  constructor
  · intro hnext
    cases i with
    | event e =>
      intro hadmits
      cases hbody : e.body with
      | blobAdded blobId totalSize entries =>
        have hstored : (engineStep n (.event e)).blobs[blobId]? =
            some { n.blobs[blobId]?.getD ⟨0, [], ∅⟩ with
              totalSize := totalSize, entries := entries } := by
          rw [engineStep, SyncNode.admitEvent_blobs, if_pos hadmits, Reading.addBlob, hbody]
          exact Table.getElem?_insert_same ..
        exact ⟨hnext.held blobId _ hstored, hnext.reserved blobId _ hstored⟩
      | _ => trivial
    | _ => trivial
  · intro hkeeps
    have hnext :=
      announced_step hannounced chunkBlob_reservable i (announcing_of_keeps hkeeps)
    exact unharmed_of_held (fun _ _ hstored => held_step h hkeeps hstored) hnext.blobs

/-- **No peer input panics the engine**, in every state of a run, iff each announcement
that a node admits names all chunks it holds of the blob and a size its entries can
give. -/
theorem unharmed_iff [LawfulBlobAead] (keys : DeviceKeys) (label : String) (isDurable : Bool)
    (inputs : List EngineInput) :
    (∀ js, js <+: inputs → ((engineMachine keys label isDurable).run js).Unharmed) ↔
      (engineMachine keys label isDurable).Meets Keeps (engineMachine keys label isDurable).init
        inputs := by
  refine Machine.prefixes_iff_meets_of (engineMachine keys label isDurable)
    (I := SyncNode.Unharmed) (J := Announced fun _ => Reservable)
    (fun n i hannounced h => unharmed_step_iff hannounced h i) (fun n i hannounced h hi => ?_)
    (announced_new keys label isDurable) ?_
  · exact announced_step hannounced chunkBlob_reservable i (announcing_of_keeps hi)
  · refine unharmed_of_held (fun blobId stored hstored => ?_) (fun blobId stored hstored => ?_) <;>
      simp [engineMachine, SyncNode.new] at hstored

end

instance (n : SyncNode) (i : EngineInput) : Decidable (Keeps n i) :=
  match i with
  | .event e => inferInstanceAs (Decidable (n.admits e = true → e.body.Announces _))
  | .call _ => isTrue trivial
  | .putBlob .. => isTrue trivial
  | .chunk .. => isTrue trivial
  | .channels _ => isTrue trivial
  | .cursor .. => isTrue trivial
  | .sent _ => isTrue trivial
  | .restart => isTrue trivial

end

section

attribute [local instance] idealPrimitives idealSyncCodec checksumBlob

/-- What two new nodes know of each other once they are paired. -/
def pairedPeers : Table String PeerChannels :=
  match SyncNode.pair (.new (pairKeys "a") "a" none) (.new (pairKeys "b") "b" none)
      (Vector.replicate 16 7) 1 (some ⟨1, 1001⟩) (some ⟨1, 1001⟩) with
  | .ok (a, _) => a.peers
  | .error _ => ∅

theorem unharmed_iff_arrival :
    ((engineMachine (pairKeys "a") "a" true).run
      (arrival (chunkBlob sampleVaultKey [4, 9]).1 (chunkBlob sampleVaultKey [4, 9]).2)).Unharmed :=
  letI := checksum_lawful
  (unharmed_iff (pairKeys "a") "a" true _).2 (by decide +kernel) _ List.prefix_rfl

/-- A peer announces a held blob again, larger than anything and without chunks. -/
def emptied : List EngineInput :=
  [.channels pairedPeers, .putBlob sampleVaultKey [4, 9],
    announcement 1 (chunkBlob sampleVaultKey [4, 9]).1 ⟨9223372036854775808, [], ∅⟩]

/-- The next fan-out does not find a held chunk in its manifest, and the next read of the
blob reserves more than an allocation may have. -/
theorem not_unharmed :
    ¬ ∀ inputs, ((engineMachine (pairKeys "a") "a" true).run inputs).Unharmed := by
  intro hunharmed
  refine (hunharmed emptied).fans (.new .permissive) [] "held chunk is in its manifest" ?_
  decide +kernel

end

end Altior.Sync
