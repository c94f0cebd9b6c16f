import Altior.Sync.Blobs
import Altior.Sync.Reading

/-!
# What announcements do to the blobs

The manifest of a blob is the one that was announced last, by any peer.  What holds
of every announcement holds of every manifest, also after a restart.
-/

namespace Altior.Sync

open Lib Crypto

/-- A predicate of an announced blob: its id, its size and its entries. -/
def EventBody.Announces (ok : String → Nat → List BlobEntry → Prop) : EventBody → Prop
  | .blobAdded blobId totalSize entries => ok blobId totalSize entries
  | _ => True

instance {ok : String → Nat → List BlobEntry → Prop}
    [∀ blobId totalSize entries, Decidable (ok blobId totalSize entries)] (body : EventBody) :
    Decidable (body.Announces ok) :=
  match body with
  | .blobAdded blobId totalSize entries => inferInstanceAs (Decidable (ok blobId totalSize entries))
  | .documentAppend .. => isTrue trivial
  | .memoryProposed .. => isTrue trivial
  | .memoryForgotten .. => isTrue trivial
  | .ack .. => isTrue trivial

variable {blobs : Table String StoredBlob} {e : JournalEvent}

/-- An event that announces nothing leaves the blobs. -/
theorem addBlob_of_announces (h : ∀ ok, e.body.Announces ok) : Reading.addBlob blobs e = blobs := by
  unfold Reading.addBlob
  split
  · rename_i hadded
    have hnone := h fun _ _ _ => False
    rw [hadded] at hnone
    exact hnone.elim
  · rfl

/-- One's own announcement finds the manifest in place. -/
theorem addBlob_insert {blobId : String} {blob : StoredBlob}
    (h : e.body = .blobAdded blobId blob.totalSize blob.entries) :
    Reading.addBlob (blobs.insert blobId blob) e = blobs.insert blobId blob := by
  unfold Reading.addBlob
  rw [h]
  refine Std.ExtTreeMap.ext_getElem? fun x => ?_
  rw [Table.getElem?_insert_eq, Table.getElem?_insert_same]
  split
  · rename_i hx
    rw [← hx, Table.getElem?_insert_same]
    rfl
  · rfl

namespace SyncNode

/-- Whether an event will be applied: it is new and the port takes it. -/
def admits (n : SyncNode) (e : JournalEvent) : Bool :=
  e.eventId ∉ n.applied ∧ ∀ p ∈ n.port, (p.recordApplied e).1.isOk = true

theorem apply_blobs (n : SyncNode) (e : JournalEvent) :
    (n.apply e).2.blobs = Reading.addBlob n.blobs e := by
  unfold apply Reading.addBlob
  cases e.body with
  | memoryForgotten memoryId at_ digest =>
    dsimp only [applyForget]
    split
    · rfl
    · split <;> rfl
  | memoryProposed memoryId content =>
    dsimp only
    split <;> rfl
  | documentAppend docId entry => rfl
  | ack frontiers => rfl
  | blobAdded blobId totalSize entries => rfl

/-- An event that is not admitted changes no blob, and none is recorded. -/
theorem admitEvent_blobs (n : SyncNode) (e : JournalEvent) :
    (n.admitEvent e).2.blobs = if n.admits e then Reading.addBlob n.blobs e else n.blobs := by
  unfold admitEvent admits
  by_cases hknown : e.eventId ∈ n.applied
  · simp [hknown]
  · rw [if_neg hknown]
    cases hport : n.port with
    | none =>
      rw [if_pos (by simp [hknown])]
      exact n.apply_blobs e
    | some p =>
      dsimp only
      rcases hrecord : p.recordApplied e with ⟨_ | _, q⟩
      · rw [if_neg (by simp [hrecord, Except.isOk, Except.toBool])]
      · rw [if_pos (by simp [hknown, hrecord, Except.isOk, Except.toBool])]
        exact apply_blobs _ e

end SyncNode

theorem SyncPort.recordApplied_error {p : SyncPort} (h : (p.recordApplied e).1.isOk = false) :
    (p.recordApplied e).2.applied = p.applied := by
  unfold recordApplied at h ⊢
  split
  · rfl
  · rename_i hseq
    rw [if_neg hseq] at h
    split
    · rename_i hcall
      exact (call_keeps hcall).2.1
    · rename_i hcall
      rw [hcall] at h
      dsimp only at h
      split at h <;> cases h

namespace SyncNode

theorem admitEvent_journal {n : SyncNode} {x : JournalEvent} {p' : SyncPort}
    (hp' : (n.admitEvent e).2.port = some p') (hx : x ∈ p'.applied) :
    (∃ p, n.port = some p ∧ x ∈ p.applied) ∨ (x = e ∧ n.admits e = true) := by
  obtain hold | hnew := (n.admitEvent_learns e).journal_cases hp' hx
  · exact .inl hold
  by_cases hadmits : n.admits e = true
  · exact .inr ⟨hnew, hadmits⟩
  · refine .inl ?_
    unfold admitEvent at hp'
    split at hp'
    · exact ⟨p', hp', hx⟩
    · rename_i hfresh
      split at hp'
      · rename_i hport
        simp [admits, hfresh, hport] at hadmits
      · rename_i p hport
        have herror : (p.recordApplied e).1.isOk = false := by
          simpa [admits, hfresh, hport] using hadmits
        have happlied := SyncPort.recordApplied_error herror
        rcases hrecord : p.recordApplied e with ⟨_ | _, q⟩ <;> rw [hrecord] at herror happlied hp'
        · cases hp'
          exact ⟨p, hport, happlied ▸ hx⟩
        · cases herror

theorem durable_blobs (keys : DeviceKeys) (label : String) (port : SyncPort) :
    (durable keys label port).blobs = port.applied.foldl Reading.addBlob ∅ := by
  have hreplay (es : List JournalEvent) (n : SyncNode) :
      (es.foldl (fun n e => (n.apply e).2) n).blobs = es.foldl Reading.addBlob n.blobs := by
    induction es generalizing n with
    | nil => rfl
    | cons e es ih => rw [List.foldl_cons, ih, apply_blobs, List.foldl_cons]
  exact hreplay port.applied (.new keys label none)

end SyncNode

/-! ## One input -/

section

variable [Primitives] [SyncCodec]

theorem SyncNode.createAdmit_blobs (n : SyncNode) (body : EventBody)
    (hbody : ∀ e : JournalEvent, e.body = body → Reading.addBlob n.blobs e = n.blobs) :
    (n.createAdmit body).2.blobs = n.blobs := by
  rw [(n.createAdmit_eq body).1, SyncNode.admitEvent_blobs]
  split
  · exact hbody _ rfl
  · rfl

theorem SyncNode.createAdmit_journal (n : SyncNode) (body : EventBody) {x : JournalEvent}
    {p' : SyncPort} (hp' : (n.createAdmit body).2.port = some p') (hx : x ∈ p'.applied) :
    (∃ p, n.port = some p ∧ x ∈ p.applied) ∨ x.body = body := by
  rw [(n.createAdmit_eq body).1] at hp'
  obtain hold | ⟨rfl, -⟩ := SyncNode.admitEvent_journal hp' hx
  · exact .inl hold
  · exact .inr rfl

/-- A local call other than `put_blob` creates no announcement. -/
theorem nodeStep_call (n : SyncNode) {i : NodeInput} (hcall : i.isCall = true) :
    (nodeStep n i).blobs = n.blobs ∧
      ∀ p', (nodeStep n i).port = some p' → ∀ x ∈ p'.applied,
        (∃ p, n.port = some p ∧ x ∈ p.applied) ∨ ∀ ok, x.body.Announces ok := by
  have hcreate (body : EventBody) (hbody : ∀ ok, body.Announces ok) :
      (n.createAdmit body).2.blobs = n.blobs ∧
        ∀ p', (n.createAdmit body).2.port = some p' → ∀ x ∈ p'.applied,
          (∃ p, n.port = some p ∧ x ∈ p.applied) ∨ ∀ ok, x.body.Announces ok := by
    refine ⟨n.createAdmit_blobs _ fun e he => ?_, fun p' hp' x hx => ?_⟩
    · exact addBlob_of_announces (he ▸ hbody)
    · obtain hold | hnew := SyncNode.createAdmit_journal _ _ hp' hx
      · exact .inl hold
      · exact .inr (hnew ▸ hbody)
  cases i with
  | putBlob blobId blob => cases hcall
  | receive e => cases hcall
  | appendDocument docId entry => exact hcreate _ fun _ => trivial
  | forgetMemory memoryId at_ digest => exact hcreate _ fun _ => trivial
  | acknowledge => exact hcreate _ fun _ => trivial
  | proposeMemory memoryId content =>
    have hproposed := hcreate (.memoryProposed memoryId content) fun _ => trivial
    simp only [nodeStep, SyncNode.proposeMemory]
    split
    · exact ⟨rfl, fun p' hp' x hx => .inl ⟨p', hp', hx⟩⟩
    · rcases hresult : n.createAdmit (.memoryProposed memoryId content) with ⟨_ | _, n'⟩ <;>
        rw [hresult] at hproposed <;> exact hproposed
  | portFaults faults =>
    refine ⟨rfl, fun p' hp' x hx => .inl ?_⟩
    obtain ⟨p, hp, rfl⟩ := Option.map_eq_some_iff.1 hp'
    exact ⟨p, hp, hx⟩

variable [BlobPrimitives]

/-- Putting a blob stores it, whether its announcement is recorded or not. -/
theorem putBlob_blobs (n : SyncNode) (vaultKey : Bytes32) (bytes : List UInt8) :
    (engineStep n (.putBlob vaultKey bytes)).blobs =
      n.blobs.insert (chunkBlob vaultKey bytes).1 (chunkBlob vaultKey bytes).2 := by
  rcases hblob : chunkBlob vaultKey bytes with ⟨blobId, blob⟩
  have hput := ({ n with blobs := n.blobs.insert blobId blob } : SyncNode).createAdmit_blobs
    (.blobAdded blobId blob.totalSize blob.entries) fun e he => addBlob_insert he
  simp only [engineStep, SyncNode.putBlobBytes, SyncNode.putBlob, hblob]
  rcases hresult : ({ n with blobs := n.blobs.insert blobId blob } : SyncNode).createAdmit
    (.blobAdded blobId blob.totalSize blob.entries) with ⟨_ | _, n'⟩ <;>
    rw [hresult] at hput <;> exact hput

theorem putBlob_journal {n : SyncNode} {vaultKey : Bytes32} {bytes : List UInt8}
    {x : JournalEvent} {p' : SyncPort}
    (hp' : (engineStep n (.putBlob vaultKey bytes)).port = some p') (hx : x ∈ p'.applied) :
    (∃ p, n.port = some p ∧ x ∈ p.applied) ∨
      x.body = .blobAdded (chunkBlob vaultKey bytes).1 (chunkBlob vaultKey bytes).2.totalSize
        (chunkBlob vaultKey bytes).2.entries := by
  rcases hblob : chunkBlob vaultKey bytes with ⟨blobId, blob⟩
  simp only [engineStep, SyncNode.putBlobBytes, SyncNode.putBlob, hblob] at hp'
  let stored : SyncNode := { n with blobs := n.blobs.insert blobId blob }
  have hcreate := @SyncNode.createAdmit_journal _ _ stored
    (.blobAdded blobId blob.totalSize blob.entries) x p'
  rcases hresult : ({ n with blobs := n.blobs.insert blobId blob } : SyncNode).createAdmit
    (.blobAdded blobId blob.totalSize blob.entries) with ⟨_ | _, n'⟩ <;>
    rw [hresult] at hcreate hp' <;> exact hcreate hp' hx

end

/-! ## What holds of every announcement -/

/-- A predicate holds of every blob, and of every announcement a restart replays. -/
structure Announced (ok : String → Nat → List BlobEntry → Prop) (n : SyncNode) : Prop where
  blobs : ∀ (blobId : String) stored, n.blobs[blobId]? = some stored →
    ok blobId stored.totalSize stored.entries
  journal : ∀ p, n.port = some p → ∀ e ∈ p.applied, e.body.Announces ok

section

variable {ok : String → Nat → List BlobEntry → Prop}

theorem addBlob_announced (h : ∀ (blobId : String) stored, blobs[blobId]? = some stored →
      ok blobId stored.totalSize stored.entries) (he : e.body.Announces ok) (blobId : String)
    {stored : StoredBlob} (hstored : (Reading.addBlob blobs e)[blobId]? = some stored) :
    ok blobId stored.totalSize stored.entries := by
  unfold Reading.addBlob at hstored
  split at hstored
  · rename_i hbody
    rw [hbody] at he
    rw [Table.getElem?_insert_eq] at hstored
    split at hstored
    · rename_i hid
      cases hstored
      exact hid ▸ he
    · exact h blobId stored hstored
  · exact h blobId stored hstored

theorem replay_announced {es : List JournalEvent} (hes : ∀ e ∈ es, e.body.Announces ok)
    (blobs : Table String StoredBlob)
    (h : ∀ (blobId : String) stored, blobs[blobId]? = some stored →
      ok blobId stored.totalSize stored.entries) (blobId : String) {stored : StoredBlob}
    (hstored : (es.foldl Reading.addBlob blobs)[blobId]? = some stored) :
    ok blobId stored.totalSize stored.entries := by
  induction es generalizing blobs with
  | nil => exact h blobId stored hstored
  | cons e es ih =>
    exact ih (fun x hx => hes x (List.mem_cons_of_mem e hx)) _
      (fun id stored' => addBlob_announced h (hes e List.mem_cons_self) id) hstored

/-- A chunk changes no manifest. -/
theorem ingestChunk_manifest [Primitives] {blobs' : Table String StoredBlob} {peer : String}
    {chunk : BlobChunkWire} (h : SyncNode.ingestChunk blobs peer chunk = .ok blobs')
    {blobId : String} {stored : StoredBlob} (hstored : blobs'[blobId]? = some stored) :
    ∃ old, blobs[blobId]? = some old ∧ stored.totalSize = old.totalSize ∧
      stored.entries = old.entries ∧ (stored.chunks = old.chunks ∨
        (old.entries.any fun entry => entry.blobId == chunk.chunkId) = true ∧
          stored.chunks = old.chunks.insert chunk.chunkId chunk.ciphertext) := by
  unfold SyncNode.ingestChunk at h
  split at h
  · cases h
  split at h
  · cases h
    exact ⟨stored, hstored, rfl, rfl, .inl rfl⟩
  rename_i old hold
  dsimp only at h
  split at h
  · rename_i hany
    cases h
    rw [Table.getElem?_insert_eq] at hstored
    split at hstored
    · rename_i hid
      cases hstored
      exact ⟨old, hid ▸ hold, rfl, rfl, .inr ⟨hany, rfl⟩⟩
    · exact ⟨stored, hstored, rfl, rfl, .inl rfl⟩
  · cases h

section

variable [Primitives] [SyncCodec] [BlobPrimitives]

/-- The events a node admits announce what the predicate holds of. -/
def Announcing (ok : String → Nat → List BlobEntry → Prop) (n : SyncNode) : EngineInput → Prop
  | .event e => n.admits e = true → e.body.Announces ok
  | _ => True

instance [∀ blobId totalSize entries, Decidable (ok blobId totalSize entries)] (n : SyncNode)
    (i : EngineInput) : Decidable (Announcing ok n i) :=
  match i with
  | .event e => inferInstanceAs (Decidable (n.admits e = true → e.body.Announces ok))
  | .call _ => isTrue trivial
  | .putBlob .. => isTrue trivial
  | .chunk .. => isTrue trivial
  | .channels _ => isTrue trivial
  | .cursor .. => isTrue trivial
  | .sent _ => isTrue trivial
  | .restart => isTrue trivial

/-- **Announcement rule.**  What holds of one's own blobs and of every announcement
admitted holds of all manifests. -/
theorem announced_step {n : SyncNode} (h : Announced ok n)
    (hown : ∀ vaultKey bytes, ok (chunkBlob vaultKey bytes).1 (chunkBlob vaultKey bytes).2.totalSize
      (chunkBlob vaultKey bytes).2.entries) (i : EngineInput) (hi : Announcing ok n i) :
    Announced ok (engineStep n i) := by
  cases i with
  | call input =>
    obtain ⟨hblobs, hjournal⟩ := nodeStep_call n input.2
    refine ⟨fun blobId stored hstored => ?_, fun p' hp' e he => ?_⟩
    · rw [engineStep, hblobs] at hstored
      exact h.blobs blobId stored hstored
    · obtain ⟨p, hp, hold⟩ | hnone := hjournal p' hp' e he
      · exact h.journal p hp e hold
      · exact hnone ok
  | putBlob vaultKey bytes =>
    refine ⟨fun blobId stored hstored => ?_, fun p' hp' e he => ?_⟩
    · rw [putBlob_blobs, Table.getElem?_insert_eq] at hstored
      split at hstored
      · rename_i hid
        cases hstored
        exact hid ▸ hown vaultKey bytes
      · exact h.blobs blobId stored hstored
    · obtain ⟨p, hp, hold⟩ | hnew := putBlob_journal hp' he
      · exact h.journal p hp e hold
      · rw [hnew]
        exact hown vaultKey bytes
  | event event =>
    refine ⟨fun blobId stored hstored => ?_, fun p' hp' e he => ?_⟩
    · rw [engineStep, SyncNode.admitEvent_blobs] at hstored
      split at hstored
      · rename_i hadmits
        exact addBlob_announced h.blobs (hi hadmits) blobId hstored
      · exact h.blobs blobId stored hstored
    · obtain ⟨p, hp, hold⟩ | ⟨rfl, hadmits⟩ := SyncNode.admitEvent_journal hp' he
      · exact h.journal p hp e hold
      · exact hi hadmits
  | chunk peer chunk =>
    unfold engineStep
    dsimp only
    split
    · rename_i blobs hingest
      refine ⟨fun blobId stored hstored => ?_, h.journal⟩
      obtain ⟨old, hold, hsize, hentries, -⟩ := ingestChunk_manifest hingest hstored
      rw [hsize, hentries]
      exact h.blobs blobId old hold
    · exact h
  | channels peers => exact ⟨h.blobs, h.journal⟩
  | cursor peer cursor =>
    refine ⟨h.blobs, fun p' hp' e he => ?_⟩
    obtain ⟨p, hp, rfl⟩ := Option.map_eq_some_iff.1 hp'
    rw [(p.recordFetchCursor_keeps peer cursor).1] at he
    exact h.journal p hp e he
  | sent sentTo => exact ⟨h.blobs, h.journal⟩
  | restart =>
    unfold engineStep
    dsimp only
    split
    · exact h
    · rename_i p hp
      refine ⟨fun blobId stored hstored => ?_, fun p' hp' e he => ?_⟩
      · rw [SyncNode.durable_blobs] at hstored
        exact replay_announced (h.journal p hp) ∅ (by simp) blobId hstored
      · cases hp'
        exact h.journal p hp e he

theorem announced_new (keys : DeviceKeys) (label : String) (isDurable : Bool) :
    Announced ok (engineMachine keys label isDurable).init := by
  refine ⟨fun blobId stored hstored => ?_, fun p hp e he => ?_⟩
  · simp [engineMachine, SyncNode.new] at hstored
  · cases isDurable with
    | false => cases hp
    | true =>
      cases hp
      cases he

end

end

/-! ## Blob ids and content -/

section

variable [Primitives]

/-- An announced id is the one of the announced manifest, if that can be read. -/
def OwnId (blobId : String) (totalSize : Nat) (entries : List BlobEntry) : Prop :=
  ∀ manifest ∈ manifestOf totalSize entries, blobId = hexEncode (blobIdOf manifest).toList

instance (blobId : String) (totalSize : Nat) (entries : List BlobEntry) :
    Decidable (OwnId blobId totalSize entries) :=
  inferInstanceAs (Decidable (∀ manifest ∈ manifestOf totalSize entries, _))

omit [Primitives] in
/-- The entry of a chunk comes back from the wire, its length perhaps capped. -/
theorem decode_toBlobEntry (entry : ChunkManifestEntry) :
    (toBlobEntry entry).decode = some { entry with
      ciphertextLen := if entry.ciphertextLen ≤ u64Max then entry.ciphertextLen else 0 } := by
  unfold BlobEntry.decode toBlobEntry
  dsimp only
  rw [hexDecode_hexEncode, hexDecode_hexEncode]

variable [BlobPrimitives]

theorem chunkBlob_entries (vaultKey : Bytes32) (bytes : List UInt8) :
    (chunkBlob vaultKey bytes).2.entries =
      (splitAndEncrypt vaultKey bytes).2.entries.map toBlobEntry := rfl

/-- A blob of one's own is announced under its id. -/
theorem chunkBlob_ownId (vaultKey : Bytes32) (bytes : List UInt8) :
    OwnId (chunkBlob vaultKey bytes).1 (chunkBlob vaultKey bytes).2.totalSize
      (chunkBlob vaultKey bytes).2.entries := by
  intro manifest hmanifest
  unfold manifestOf at hmanifest
  split at hmanifest
  · cases hmanifest
  cases hmanifest
  have hids (entries : List ChunkManifestEntry) :
      ((entries.map toBlobEntry).filterMap BlobEntry.decode).map ChunkManifestEntry.blobId =
        entries.map ChunkManifestEntry.blobId := by
    induction entries with
    | nil => rfl
    | cons entry entries ih =>
      rw [List.map_cons, List.filterMap_cons, decode_toBlobEntry]
      dsimp only
      rw [List.map_cons, List.map_cons, ih]
  have hsame := congrArg (List.flatMap Vector.toList)
    (hids (splitAndEncrypt vaultKey bytes).2.entries)
  rw [List.flatMap_map, List.flatMap_map] at hsame
  show hexEncode (blobIdOf (splitAndEncrypt vaultKey bytes).2).toList = _
  unfold blobIdOf
  rw [chunkBlob_entries]
  exact congrArg (fun bytes => hexEncode (Primitives.sha256 bytes).toList) hsame.symm

/-- What a node gives for an id was put together from a manifest of that id. -/
def SyncNode.Named (n : SyncNode) : Prop :=
  ∀ vaultKey blobId bytes, n.getBlob vaultKey blobId = .ok bytes →
    ∃ stored manifest, n.blobs[blobId]? = some stored ∧
      manifestOf stored.totalSize stored.entries = some manifest ∧
      decryptAndReassemble vaultKey manifest stored.chunkMap = .ok bytes ∧
      blobId = hexEncode (blobIdOf manifest).toList

/-- **Blob ids bind content**, as long as every announcement a node admits names the
id of the manifest in it: nothing else compares the two. -/
theorem getBlob_named [SyncCodec] (keys : DeviceKeys) (label : String) (isDurable : Bool)
    {inputs : List EngineInput}
    (hmeets : (engineMachine keys label isDurable).Meets (Announcing OwnId)
      (engineMachine keys label isDurable).init inputs) :
    ((engineMachine keys label isDurable).run inputs).Named := by
  have hannounced : Announced OwnId ((engineMachine keys label isDurable).run inputs) :=
    Machine.invariant_of_meets (engineMachine keys label isDurable) (I := Announced OwnId)
      (fun _ i h hi => announced_step h chunkBlob_ownId i hi) (announced_new keys label isDurable)
      hmeets
  intro vaultKey blobId bytes hget
  unfold SyncNode.getBlob at hget
  split at hget
  · cases hget
  rename_i stored hstored
  split at hget
  · cases hget
  rename_i manifest hmanifest
  split at hget
  · cases hget
  rename_i plain hplain
  cases hget
  exact ⟨stored, manifest, hstored, hmanifest, hplain,
    hannounced.blobs blobId stored hstored manifest hmanifest⟩

end

/-! ## Samples -/

section

attribute [local instance] idealPrimitives idealSyncCodec checksumBlob

/-- The vault key of the samples. -/
def sampleVaultKey : Bytes32 := Vector.replicate 32 42

/-- Device `b` announces a blob under an id. -/
def announcement (seq : Nat) (blobId : String) (blob : StoredBlob) : EngineInput :=
  .event
    { eventId := "b:" ++ toString seq, origin := "b", originSeq := seq
      signature := Vector.replicate 64 0
      body := .blobAdded blobId blob.totalSize blob.entries }

/-- Device `b` sends the chunks of a blob under an id. -/
def transport (blobId : String) (blob : StoredBlob) : List EngineInput :=
  blob.chunks.toList.map fun (chunkId, ciphertext) =>
    .chunk "b" ⟨blobId, "", chunkId, ciphertext⟩

/-- A blob of device `b` arrives under an id. -/
def arrival (blobId : String) (blob : StoredBlob) : List EngineInput :=
  announcement 1 blobId blob :: transport blobId blob

theorem getBlob_named_arrival :
    let blob := chunkBlob sampleVaultKey [4, 9]
    let n := (engineMachine (pairKeys "a") "a" true).run (arrival blob.1 blob.2)
    n.getBlob sampleVaultKey blob.1 = .ok [4, 9] ∧ n.Named := by
  intro blob n
  exact ⟨by decide +kernel, getBlob_named (pairKeys "a") "a" true (by decide +kernel)⟩

/-- Under the id of one blob another one arrives. -/
theorem not_named :
    ¬ ∀ inputs, ((engineMachine (pairKeys "a") "a" true).run inputs).Named := by
  intro hnamed
  have hforged := hnamed
    (arrival (chunkBlob sampleVaultKey [1]).1 (chunkBlob sampleVaultKey [2]).2) sampleVaultKey
    (chunkBlob sampleVaultKey [1]).1 [2] (by decide +kernel)
  obtain ⟨stored, manifest, hstored, hmanifest, -, hid⟩ := hforged
  have hblob : (((engineMachine (pairKeys "a") "a" true).run
      (arrival (chunkBlob sampleVaultKey [1]).1 (chunkBlob sampleVaultKey [2]).2)).blobs[
        (chunkBlob sampleVaultKey [1]).1]?.bind fun stored =>
          manifestOf stored.totalSize stored.entries) =
      some (splitAndEncrypt sampleVaultKey [2]).2 := by decide +kernel
  rw [hstored, Option.bind_some, hmanifest] at hblob
  cases hblob
  exact absurd hid (by decide +kernel)

end

end Altior.Sync
