import Altior.Sync.Outbox
import Altior.Sync.Reception

/-!
# Posting

The sender of some puts, towards its one peer: its outbox announces them, its blobs hold
their chunks, and the bucket of the peer carries what was posted.  A flush that succeeds
leaves nothing to post.
-/

namespace Altior.Sync

open Lib Crypto
open List (Forall₂)

/-! ## One event, one chunk -/

variable {e : JournalEvent} {n n' : SyncNode}

namespace SyncNode

/-- An event that is applied is among the applied ones, and its blob among the blobs. -/
theorem admitEvent_ok (hfresh : e.eventId ∉ n.applied) (hok : n.admitEvent e = (.ok (), n')) :
    n'.blobs = Reading.addBlob n.blobs e ∧ n'.applied = n.applied.insert e.eventId e := by
  have happly (m : SyncNode) (h : (m.apply e).1 = .ok ()) :
      (m.apply e).2.applied = m.applied.insert e.eventId e := by
    unfold apply at h ⊢
    cases hbody : e.body with
    | memoryForgotten memoryId at_ digest =>
      simp only [hbody, applyForget] at h ⊢
      split
      · rfl
      · split
        · rename_i hport _ _ _ hrecord
          simp only [hport, hrecord] at h
          cases h
        · rfl
    | memoryProposed memoryId content =>
      simp only
      split <;> rfl
    | documentAppend docId entry => rfl
    | ack frontiers => rfl
    | blobAdded blobId totalSize entries => rfl
  unfold admitEvent at hok
  rw [if_neg hfresh] at hok
  cases hport : n.port with
  | none =>
    rw [hport] at hok
    have hblobs := n.apply_blobs e
    have happlied := happly n (congrArg Prod.fst hok)
    dsimp only at hok
    rw [hok] at hblobs happlied
    exact ⟨hblobs, happlied⟩
  | some port =>
    rw [hport] at hok
    dsimp only at hok
    rcases hrecord : port.recordApplied e with ⟨_ | _, port'⟩ <;> rw [hrecord] at hok
    · cases hok
    · have hblobs := ({ n with port := some port' } : SyncNode).apply_blobs e
      have happlied := happly { n with port := some port' } (congrArg Prod.fst hok)
      dsimp only at hok
      rw [hok] at hblobs happlied
      exact ⟨hblobs, happlied⟩

/-- The node after it created and admitted an event. -/
structure Created (n : SyncNode) (e : JournalEvent) (n' : SyncNode) : Prop where
  eventId : e.eventId = qualifiedId n.label n.nextSeq
  label : n'.label = n.label
  peers : n'.peers = n.peers
  outbox : n'.outbox = n.outbox ++ [e]
  sentTo : n'.sentTo = n.sentTo
  nextSeq : n'.nextSeq = n.nextSeq + 1
  loadedCursors : n'.loadedCursors = n.loadedCursors
  applied : ∀ id : String, id ∈ n'.applied ↔ id = e.eventId ∨ id ∈ n.applied
  blobs : n'.blobs = n.blobs ∨ n'.blobs = Reading.addBlob n.blobs e

end SyncNode

section

variable [Primitives]

/-- A chunk that is accepted is filed. -/
theorem ingestChunk_file {blobs blobs' : Table String StoredBlob} {peer : String}
    {c : BlobChunkWire} (h : SyncNode.ingestChunk blobs peer c = .ok blobs') :
    blobs' = Parcel.file blobs (.chunk c) := by
  unfold SyncNode.ingestChunk at h
  split at h
  · cases h
  split at h
  · rename_i hnone
    cases h
    exact (Table.update_of_getElem?_none _ _ hnone).symm
  · rename_i stored hstored
    split at h
    · cases h
      exact (Table.update_eq_insert hstored fun stored : StoredBlob =>
        { stored with chunks := stored.chunks.insert c.chunkId c.ciphertext }).symm
    · cases h

variable [SyncCodec]

theorem SyncNode.createAdmit_created {body : EventBody} {id : String}
    (hok : n.createAdmit body = (.ok id, n')) : ∃ e, e.body = body ∧ n.Created e n' := by
  obtain ⟨hnode, hresult⟩ := n.createAdmit_eq body
  rw [hok] at hnode hresult
  let m := (n.create body).2
  let e := (n.create body).1
  have hlearns := m.admitEvent_learns e
  have hadmitted : m.admitEvent e = (.ok (), n') := by
    rcases hcall : m.admitEvent e with ⟨_ | _, m'⟩
    · rw [hcall] at hresult
      cases hresult
    · rw [hcall] at hnode
      have hsame : n' = m' := hnode
      rw [hsame]
  have hloaded := (m.admitEvent_extends e).loaded
  rw [hadmitted] at hlearns hloaded
  refine ⟨e, rfl, rfl, hlearns.label, hlearns.peers, hlearns.outbox, hlearns.sentTo, hlearns.nextSeq,
    hloaded, fun x => ?_, ?_⟩
  · by_cases hmem : e.eventId ∈ m.applied
    · have hsame : n' = m := (congrArg Prod.snd (hadmitted.symm.trans (if_pos hmem)))
      rw [hsame]
      exact ⟨.inr, fun hx => hx.elim (fun heq => heq ▸ hmem) fun hold => hold⟩
    · rw [(admitEvent_ok hmem hadmitted).2]
      exact Table.mem_insert_iff
  · by_cases hmem : e.eventId ∈ m.applied
    · have hsame : n' = m := (congrArg Prod.snd (hadmitted.symm.trans (if_pos hmem)))
      exact .inl (by rw [hsame]; rfl)
    · exact .inr (admitEvent_ok hmem hadmitted).1

variable {count : Nat} {p : Parcel} {s : SessionV2} {seed : Bytes32}

/-- What an envelope that carries a parcel does where it is read: an older epoch is
skipped, an event that is known is dropped, and otherwise the parcel is filed. -/
theorem SyncNode.pollItem_parcel [AuthenticAead] {peer : String} {item : FetchedItem Envelope}
    {channels : PeerChannels} (hpeer : n.peers[peer]? = some channels)
    (hcarries : Carries item.payload p.payload) (hok : pollItem peer n item = (.ok count, n')) :
    let moved := n.setInbound peer channels (channels.inbound.openEnvelope item.payload).2
    (n' = moved ∧ ∃ expectedSeq foundSeq, foundSeq < expectedSeq ∧
        (channels.inbound.openEnvelope item.payload).1 = .error (.epochMismatch expectedSeq foundSeq)) ∨
      match p with
      | .chunk c => n' = { moved with blobs := Parcel.file n.blobs (.chunk c) }
      | .event e => (e.eventId ∈ n.applied ∧ n' = moved) ∨
          (e.eventId ∉ n.applied ∧ moved.admitEvent e = (.ok (), n')) := by
  simp only [pollItem, hpeer] at hok
  rcases hopen : channels.inbound.openEnvelope item.payload with ⟨opened, inbound⟩
  rw [hopen] at hok
  dsimp only at hok ⊢
  split at hok
  · rename_i expectedSeq foundSeq
    split at hok
    · rename_i hlt
      cases hok
      exact .inl ⟨rfl, expectedSeq, foundSeq, hlt, rfl⟩
    · cases hok
  · cases hok
  · rename_i plain
    right
    rw [hcarries.opens hopen] at hok
    cases p with
    | chunk c =>
      simp only [Parcel.payload] at hok
      split at hok
      · rename_i hingest
        cases hok
        dsimp only
        rw [ingestChunk_file hingest]
        rfl
      · cases hok
    | event e =>
      simp only [Parcel.payload, receiveWire] at hok
      split at hok
      · cases hok
      rw [JournalEvent.toWire, toSignature_toList] at hok
      dsimp only at hok
      split at hok
      · split at hok
        · rename_i hmem
          cases hok
          exact .inl ⟨hmem, rfl⟩
        · rename_i hfresh
          refine .inr ⟨hfresh, ?_⟩
          split at hok
          · rename_i hadmitted
            cases hok
            exact hadmitted
          · cases hok
      · cases hok

/-! ## Envelopes of an epoch -/

/-- An envelope of an epoch that carries a parcel. -/
def Seals (epochSeq : UInt32) (envelope : Envelope) (p : Parcel) : Prop :=
  Carries envelope p.payload ∧ ∃ version epoch turnNo counter ephPub nonce cipher,
    envelope = .full version epochSeq epoch turnNo counter ephPub nonce cipher

theorem seals_of_seal {s' : SessionV2} {envelope : Envelope}
    (h : s.sealPlain (SyncCodec.toVec p.payload) = (.ok envelope, s')) :
    Seals s.epochSeq envelope p ∧ s'.epochSeq = s.epochSeq := by
  obtain ⟨cipher, block, rfl, -, henvelope⟩ := SessionV2.sealPlain_ok h
  exact ⟨⟨carries_of_seal h, _, _, _, _, _, _, _, henvelope⟩, rfl⟩

omit [SyncCodec] in
theorem openTurn_epochSeq {s' : SessionV2} (h : s.openTurn seed = .ok s') :
    s'.epochSeq = s.epochSeq := by
  unfold SessionV2.openTurn at h
  split at h
  · cases h
  split at h
  · cases h
  cases hshared : SessionV2.sharedSecretFrom seed s.chainKey with
  | error e =>
    rw [hshared] at h
    cases h
  | ok shared =>
    rw [hshared] at h
    cases h
    rfl

omit [SyncCodec] in
theorem outbound_epochSeq {keys : DeviceKeys} {peer : DeviceIdentity} {epoch : Epoch}
    {epochSeq : UInt32} {lease : Option CounterBlock}
    (h : SessionV2.outbound keys peer epoch epochSeq lease = .ok s) : s.epochSeq = epochSeq := by
  unfold SessionV2.outbound at h
  split at h
  · cases h
  split at h
  · cases h
  split at h
  · cases h
  cases hshared : SessionV2.sharedSecretFrom keys.staticSecret peer.x25519Public with
  | error e =>
    rw [hshared] at h
    cases h
  | ok shared =>
    rw [hshared] at h
    cases h
    rfl

omit [SyncCodec] in
theorem inbound_epochSeq {keys : DeviceKeys} {peer : DeviceIdentity} {epoch : Epoch}
    {epochSeq : UInt32} (h : SessionV2.inbound keys peer epoch epochSeq = .ok s) :
    s.epochSeq = epochSeq := by
  unfold SessionV2.inbound at h
  split at h
  · cases h
  cases hshared : SessionV2.sharedSecretFrom keys.staticSecret peer.x25519Public with
  | error e =>
    rw [hshared] at h
    cases h
  | ok shared =>
    rw [hshared] at h
    cases h
    rfl

omit [SyncCodec] in
theorem openEnvelope_epochSeq (s : SessionV2) (envelope : Envelope) :
    (s.openEnvelope envelope).2.epochSeq = s.epochSeq := by
  cases envelope with
  | truncated size => rfl
  | full version epochSeq epoch turnNo counter ephPub nonce cipher =>
    simp only [SessionV2.openEnvelope]
    split
    · rfl
    split
    · rfl
    split
    · rfl
    split
    · rfl
    split
    · rfl
    split <;> dsimp only <;> split <;> rfl

omit [SyncCodec] in
/-- A mismatch is between the epochs of the session and of the envelope. -/
theorem openEnvelope_mismatch {version : UInt8} {epochSeq : UInt32} {epoch : Epoch}
    {turnNo counter : Nat} {ephPub : Bytes32} {nonce : Nat} {cipher : Primitives.Cipher}
    {expectedSeq foundSeq : UInt32}
    (h : (s.openEnvelope (.full version epochSeq epoch turnNo counter ephPub nonce cipher)).1 =
      .error (.epochMismatch expectedSeq foundSeq)) :
    expectedSeq = s.epochSeq ∧ foundSeq = epochSeq := by
  simp only [SessionV2.openEnvelope] at h
  split at h
  · cases h
  split at h
  · cases h
    exact ⟨rfl, rfl⟩
  split at h
  · cases h
  split at h
  · rename_i error hchain
    have herror : error = .epochMismatch expectedSeq foundSeq := Except.error.inj h
    subst herror
    -- Only the shared secret can fail here.
    split at hchain
    · unfold SessionV2.sharedSecretFrom at hchain
      dsimp only at hchain
      split at hchain <;> cases hchain
    · cases hchain
  split at h
  · cases h
  split at h <;> cases h

omit [Primitives] [SyncCodec] in
theorem Parcel.payload_inj {q : Parcel} (h : p.payload = q.payload) : p = q := by
  cases p with
  | event e =>
    cases q with
    | event e' => rw [JournalEvent.toWire_injective (SyncPayload.event.inj h)]
    | chunk c => cases h
  | chunk c =>
    cases q with
    | event e => cases h
    | chunk c' => rw [SyncPayload.chunk.inj h]

/-! ## What a sender holds -/

variable [BlobPrimitives]

omit [SyncCodec] in
/-- What `put_blob` stores are its chunks. -/
theorem Put.mem_chunks {p : Put} {chunkId : String} {ciphertext : List UInt8}
    (h : p.blob.chunks[chunkId]? = some ciphertext) :
    ∃ chunk ∈ p.chunks, hexEncode chunk.blobId.toList = chunkId ∧ chunk.ciphertext = ciphertext := by
  have hfold (chunks : List ChunkCiphertext) (stored : Table String (List UInt8))
      (hrow : (chunks.foldl (fun stored chunk =>
        stored.insert (hexEncode chunk.blobId.toList) chunk.ciphertext) stored)[chunkId]? =
          some ciphertext) :
      stored[chunkId]? = some ciphertext ∨ ∃ chunk ∈ chunks,
        hexEncode chunk.blobId.toList = chunkId ∧ chunk.ciphertext = ciphertext := by
    induction chunks generalizing stored with
    | nil => exact .inl hrow
    | cons chunk chunks ih =>
      obtain hold | ⟨other, hother, hboth⟩ := ih _ hrow
      · rw [Table.getElem?_insert_eq] at hold
        split at hold
        · rename_i hid
          exact .inr ⟨chunk, List.mem_cons_self, hid, Option.some.inj hold⟩
        · exact .inl hold
      · exact .inr ⟨other, List.mem_cons_of_mem chunk hother, hboth⟩
  rw [p.blob_eq] at h
  obtain hnone | hchunk := hfold p.chunks ∅ h
  · simp at hnone
  · exact hchunk

omit [SyncCodec] in
theorem Put.mem_blob {p : Put} {chunk : ChunkCiphertext} (h : chunk ∈ p.chunks) :
    hexEncode chunk.blobId.toList ∈ p.blob.chunks := by
  have hfold (chunks : List ChunkCiphertext) (stored : Table String (List UInt8))
      (hmem : chunk ∈ chunks ∨ hexEncode chunk.blobId.toList ∈ stored) :
      hexEncode chunk.blobId.toList ∈ chunks.foldl (fun stored chunk =>
        stored.insert (hexEncode chunk.blobId.toList) chunk.ciphertext) stored := by
    induction chunks generalizing stored with
    | nil => exact hmem.resolve_left List.not_mem_nil
    | cons other chunks ih =>
      refine ih _ ?_
      obtain hmem | hold := hmem
      · obtain rfl | hmem := List.mem_cons.1 hmem
        · exact .inr (Table.mem_insert_iff.2 (.inl rfl))
        · exact .inl hmem
      · exact .inr (Table.mem_insert_iff.2 (.inr hold))
  rw [p.blob_eq]
  exact hfold p.chunks ∅ (.inl h)

/-- Blobs that hold the chunks of some puts: no others, and of the puts of each id all
of the last one. -/
structure Stores (puts : List Put) (blobs : Table String StoredBlob) : Prop where
  rows : ∀ (blobId : String) stored, blobs[blobId]? = some stored →
    ∀ (chunkId : String) ciphertext, stored.chunks[chunkId]? = some ciphertext →
      ∃ p ∈ puts, p.blobId = blobId ∧ ∃ chunk ∈ p.chunks,
        hexEncode chunk.blobId.toList = chunkId ∧ chunk.ciphertext = ciphertext
  held : ∀ p ∈ puts, ∃ q ∈ puts, q.blobId = p.blobId ∧ ∀ chunk ∈ q.chunks,
    Held blobs p.blobId (hexEncode chunk.blobId.toList)

namespace Stores

variable {puts : List Put} {blobs : Table String StoredBlob}

omit [SyncCodec] in
/-- One more put. -/
theorem put (h : Stores puts blobs) (p : Put) :
    Stores (puts ++ [p]) (blobs.insert p.blobId p.blob) where
  rows blobId stored hstored chunkId ciphertext hrow := by
    rw [Table.getElem?_insert_eq] at hstored
    split at hstored
    · rename_i hid
      cases hstored
      exact ⟨p, by simp, hid, p.mem_chunks hrow⟩
    · obtain ⟨q, hq, hrest⟩ := h.rows blobId stored hstored chunkId ciphertext hrow
      exact ⟨q, List.mem_append_left _ hq, hrest⟩
  held q hq := by
    by_cases hid : p.blobId = q.blobId
    · exact ⟨p, by simp, hid, fun chunk hchunk =>
        ⟨p.blob, by rw [← hid, Table.getElem?_insert_same], p.mem_blob hchunk⟩⟩
    · have hold : q ∈ puts := by
        obtain hold | hnew := List.mem_append.1 hq
        · exact hold
        · exact absurd (congrArg Put.blobId (List.mem_singleton.1 hnew)).symm hid
      obtain ⟨r, hr, hrid, hheld⟩ := h.held q hold
      refine ⟨r, List.mem_append_left _ hr, hrid, fun chunk hchunk => ?_⟩
      obtain ⟨stored, hstored, hmem⟩ := hheld chunk hchunk
      exact ⟨stored, by rw [Table.getElem?_insert_of_ne _ _ hid, hstored], hmem⟩

omit [SyncCodec] in
/-- Chunks of one's own that come back change nothing. -/
theorem file (h : Stores puts blobs) {c : BlobChunkWire}
    (hc : ∃ p ∈ puts, p.blobId = c.blobId ∧ ∃ chunk ∈ p.chunks,
      hexEncode chunk.blobId.toList = c.chunkId ∧ chunk.ciphertext = c.ciphertext) :
    Stores puts (Parcel.file blobs (.chunk c)) where
  rows blobId stored hstored chunkId ciphertext hrow := by
    rw [Parcel.file, Table.getElem?_update] at hstored
    split at hstored
    · rename_i hid
      obtain ⟨old, hold, rfl⟩ := Option.map_eq_some_iff.1 hstored
      dsimp only at hrow
      rw [Table.getElem?_insert_eq] at hrow
      split at hrow
      · rename_i hchunkId
        rw [← hid, ← hchunkId, ← Option.some.inj hrow]
        exact hc
      · exact h.rows blobId old hold chunkId ciphertext hrow
    · exact h.rows blobId stored hstored chunkId ciphertext hrow
  held p hp := by
    obtain ⟨q, hq, hid, hheld⟩ := h.held p hp
    exact ⟨q, hq, hid, fun chunk hchunk => (hheld chunk hchunk).file _⟩

end Stores

/-- What a sender of some puts has to offer: their chunks, and an event that announces
each of them; the events of its outbox are numbered and applied. -/
structure Offers (puts : List Put) (n : SyncNode) : Prop where
  stores : Stores puts n.blobs
  announced : ∀ p ∈ puts, ∃ e ∈ n.outbox, e.body = p.announcement
  announces : ∀ e ∈ n.outbox, e.body.Announces fun blobId totalSize entries =>
    ∃ p ∈ puts, EventBody.blobAdded blobId totalSize entries = p.announcement
  numbered : ∀ e ∈ n.outbox, ∃ seq < n.nextSeq, e.eventId = qualifiedId n.label seq
  distinct : (n.outbox.map JournalEvent.eventId).Nodup
  applied : ∀ e ∈ n.outbox, e.eventId ∈ n.applied
  bounded : n.nextSeq ≤ u64Max

omit [Primitives] [SyncCodec] [BlobPrimitives] in
theorem EventBody.Announces.mono {ok ok' : String → Nat → List BlobEntry → Prop} {body : EventBody}
    (h : body.Announces ok) (himp : ∀ blobId totalSize entries, ok blobId totalSize entries →
      ok' blobId totalSize entries) : body.Announces ok' := by
  cases body with
  | blobAdded blobId totalSize entries => exact himp _ _ _ h
  | _ => trivial

omit [SyncCodec] in
/-- One more event, with the puts that it announces. -/
theorem Offers.created {puts puts' : List Put} {blobs : Table String StoredBlob}
    (h : Offers puts n) (hsub : puts ⊆ puts')
    (hnew : ∀ p ∈ puts', p ∈ puts ∨ e.body = p.announcement)
    (hbody : e.body.Announces fun blobId totalSize entries =>
      ∃ p ∈ puts', EventBody.blobAdded blobId totalSize entries = p.announcement)
    (hcreated : ({ n with blobs := blobs } : SyncNode).Created e n')
    (hstores : Stores puts' n'.blobs) (hbound : n.nextSeq < u64Max) : Offers puts' n' := by
  have houtbox : n'.outbox = n.outbox ++ [e] := hcreated.outbox
  have hlabel : n'.label = n.label := hcreated.label
  have hnext : n'.nextSeq = n.nextSeq + 1 := hcreated.nextSeq
  have hid : e.eventId = qualifiedId n.label n.nextSeq := hcreated.eventId
  refine ⟨hstores, fun p hp => ?_, fun x hx => ?_, fun x hx => ?_, ?_, fun x hx => ?_, ?_⟩
  · rw [houtbox]
    obtain hold | hbody := hnew p hp
    · obtain ⟨x, hx, hannounces⟩ := h.announced p hold
      exact ⟨x, List.mem_append_left _ hx, hannounces⟩
    · exact ⟨e, by simp, hbody⟩
  · rw [houtbox] at hx
    obtain hx | hx := List.mem_append.1 hx
    · refine (h.announces x hx).mono ?_
      rintro blobId totalSize entries ⟨p, hp, heq⟩
      exact ⟨p, hsub hp, heq⟩
    · rw [List.mem_singleton.1 hx]
      exact hbody
  · rw [houtbox] at hx
    rw [hlabel, hnext]
    obtain hx | hx := List.mem_append.1 hx
    · obtain ⟨seq, hlt, heq⟩ := h.numbered x hx
      exact ⟨seq, Nat.lt_succ_of_lt hlt, heq⟩
    · rw [List.mem_singleton.1 hx]
      exact ⟨n.nextSeq, Nat.lt_succ_self _, hid⟩
  · rw [houtbox, List.map_append, List.nodup_append]
    refine ⟨h.distinct, List.nodup_singleton _, fun id hold id' hlast heq => ?_⟩
    obtain ⟨x, hx, rfl⟩ := List.mem_map.1 hold
    obtain ⟨seq, hlt, hxid⟩ := h.numbered x hx
    rw [List.map_singleton, List.mem_singleton] at hlast
    rw [hlast, hid, hxid] at heq
    obtain ⟨-, rfl⟩ := qualifiedId_inj heq
    exact absurd hlt (lt_irrefl _)
  · rw [houtbox] at hx
    obtain hx | hx := List.mem_append.1 hx
    · exact (hcreated.applied _).2 (.inr (h.applied x hx))
    · exact (hcreated.applied _).2 (.inl (congrArg _ (List.mem_singleton.1 hx)))
  · rw [hnext]
    exact hbound

omit [SyncCodec] in
/-- An own event's id is no chunk's mark. -/
theorem Offers.eventId_ne {puts : List Put} (h : Offers puts n) (he : e ∈ n.outbox)
    (digest : Bytes32) : e.eventId ≠ "blob:" ++ hexEncode digest.toList := by
  obtain ⟨seq, hlt, hid⟩ := h.numbered e he
  rw [hid]
  exact (chunkKey_ne n.label ((Nat.le_of_lt hlt).trans h.bounded) digest).symm

omit [SyncCodec] in
theorem posted_nil (puts : List Put) : Posted puts [] where
  once := List.nodup_nil
  announced _ he := absurd he List.not_mem_nil
  held _ hc := absurd hc List.not_mem_nil
  inOrder front _ _ hlog := by cases front <;> cases hlog

omit [SyncCodec] in
/-- One more parcel, if it was not posted: an event that announces a put or nothing, or a
chunk of a put that was announced. -/
theorem Posted.concat {puts : List Put} {log : List Parcel} (h : Posted puts log)
    (hfresh : ∀ q ∈ log, q.key ≠ p.key)
    (hevent : ∀ e, p = .event e → e.body.Announces fun blobId totalSize entries =>
      ∃ p ∈ puts, EventBody.blobAdded blobId totalSize entries = p.announcement)
    (hchunk : ∀ c, p = .chunk c →
      (∃ p ∈ puts, p.blobId = c.blobId ∧ ∃ chunk ∈ p.chunks,
        hexEncode chunk.blobId.toList = c.chunkId ∧ chunk.ciphertext = c.ciphertext) ∧
      ∃ e totalSize entries, .event e ∈ log ∧ e.body = .blobAdded c.blobId totalSize entries) :
    Posted puts (log ++ [p]) where
  once := by
    rw [List.map_append, List.nodup_append]
    refine ⟨h.once, List.nodup_singleton _, fun key hold key' hlast heq => ?_⟩
    obtain ⟨q, hq, rfl⟩ := List.mem_map.1 hold
    rw [List.map_singleton, List.mem_singleton] at hlast
    exact hfresh q hq (heq.trans hlast)
  announced e he := by
    obtain he | he := List.mem_append.1 he
    · exact h.announced e he
    · exact hevent e (List.mem_singleton.1 he).symm
  held c hc := by
    obtain hc | hc := List.mem_append.1 hc
    · exact h.held c hc
    · exact (hchunk c (List.mem_singleton.1 hc).symm).1
  inOrder front c back hlog := by
    obtain rfl | ⟨back, q, rfl⟩ := List.eq_nil_or_concat back
    · obtain ⟨rfl, hp⟩ := List.append_inj' hlog rfl
      exact (hchunk c (List.singleton_inj.1 hp)).2
    · rw [List.concat_eq_append, ← List.cons_append, ← List.append_assoc] at hlog
      exact h.inOrder front c back (List.append_inj' hlog rfl).1

omit [SyncCodec] in
theorem Posted.mono {puts puts' : List Put} {log : List Parcel} (h : Posted puts log)
    (hsub : puts ⊆ puts') : Posted puts' log where
  once := h.once
  announced e he := by
    refine (h.announced e he).mono ?_
    rintro blobId totalSize entries ⟨p, hp, heq⟩
    exact ⟨p, hsub hp, heq⟩
  held c hc := by
    obtain ⟨p, hp, hchunk⟩ := h.held c hc
    exact ⟨p, hsub hp, hchunk⟩
  inOrder := h.inOrder

/-! ## Mail of one's own -/

omit [SyncCodec] in
/-- Channels and the port do not matter to what is offered. -/
theorem Offers.frame {puts : List Put} (h : Offers puts n)
    (hframe : n' = { n with peers := n'.peers, port := n'.port }) : Offers puts n' := by
  rw [hframe]
  exact ⟨h.stores, h.announced, h.announces, h.numbered, h.distinct, h.applied, h.bounded⟩

omit [Primitives] [SyncCodec] [BlobPrimitives] in
theorem SyncNode.moveCursor_frame (n : SyncNode) (peer : String) (channels : PeerChannels)
    (cursor : Nat) : (n.moveCursor peer channels cursor).2 =
      { n with
        peers := (n.moveCursor peer channels cursor).2.peers
        port := (n.moveCursor peer channels cursor).2.port } := by
  unfold moveCursor
  dsimp only
  split
  · rfl
  · split <;> rfl

/-- A sender that reads mail which carries nothing but what it has posted itself. -/
structure Rereads (puts : List Put) (log : List Parcel) (start : SyncNode)
    (envelopes : List Envelope) (n : SyncNode) : Prop where
  offers : Offers puts n
  outbox : n.outbox = start.outbox
  sentTo : n.sentTo = start.sentTo
  nextSeq : n.nextSeq = start.nextSeq
  carried : ∀ envelope ∈ envelopes, ∃ p ∈ log, Carries envelope p.payload

/-- It goes on offering the same. -/
theorem rereads_reception [AuthenticAead] {puts : List Put} {log : List Parcel} {start : SyncNode}
    (hposted : Posted puts log) (houtbox : ∀ e, .event e ∈ log → e ∈ start.outbox) (peer : String) :
    Reception peer (Rereads puts log start) where
  move {envelopes n channels} cursor _ h := by
    have hframe := n.moveCursor_frame peer channels cursor
    refine ⟨h.offers.frame hframe, ?_, ?_, ?_, h.carried⟩ <;> rw [hframe]
    · exact h.outbox
    · exact h.sentTo
    · exact h.nextSeq
  item {envelopes n n' count item} h hok := by
    cases hpeer : n.peers[peer]? with
    | none =>
      simp only [SyncNode.pollItem, hpeer] at hok
      cases hok
    | some channels =>
      obtain ⟨p, hp, hcarries⟩ := h.carried _ List.mem_cons_self
      have hrest (envelope : Envelope) (henvelope : envelope ∈ envelopes) :=
        h.carried envelope (List.mem_cons_of_mem _ henvelope)
      have hmoved : Rereads puts log start envelopes
          (n.setInbound peer channels (channels.inbound.openEnvelope item.payload).2) :=
        ⟨h.offers.frame rfl, h.outbox, h.sentTo, h.nextSeq, hrest⟩
      obtain ⟨rfl, -⟩ | hparcel := SyncNode.pollItem_parcel hpeer hcarries hok
      · exact hmoved
      cases p with
      | chunk c =>
        subst hparcel
        have hoffers := hmoved.offers
        exact ⟨⟨hoffers.stores.file (hposted.held c hp), hoffers.announced, hoffers.announces,
          hoffers.numbered, hoffers.distinct, hoffers.applied, hoffers.bounded⟩, h.outbox,
          h.sentTo, h.nextSeq, hrest⟩
      | event e =>
        obtain ⟨-, rfl⟩ | ⟨hfresh, -⟩ := hparcel
        · exact hmoved
        · have hmem : e ∈ n.outbox := h.outbox ▸ houtbox e hp
          exact absurd (h.offers.applied e hmem) hfresh

/-! ## The bucket of the receiver -/

/-- A sender at the relay that has posted some parcels to its one peer: `read` of them
are up to the peer's position, `rest` are after it. -/
structure Posting (epochSeq : UInt32) (peer : String) (puts : List Put) (read : List Parcel)
    (cursor : Nat) (rest : List Parcel) (l : Link) : Prop where
  offers : Offers puts l.node
  posted : Posted puts (read ++ rest)
  outbox : ∀ e, .event e ∈ read ++ rest → e ∈ l.node.outbox
  sent : ∀ key, l.sent key peer = true ↔ ∃ p ∈ read ++ rest, p.key = key
  talks : ∃ channels, l.Talks peer channels ∧ channels.outbound.epochSeq = epochSeq
  increasing : ∀ label, (l.relay.queue label).Pairwise fun a b => a.1 < b.1
  bounded : ∀ label, ∀ item ∈ l.relay.queue label, item.1 < l.relay.nextSeq
  carried : ∀ label, ∀ item ∈ l.relay.queue label, ∃ p ∈ read ++ rest, Carries item.2 p.payload
  position : cursor < l.relay.nextSeq
  unread : Forall₂ (Seals epochSeq)
    ((l.relay.queueAfter (bucketFor peer l.node.label) cursor).map Prod.snd) rest

namespace Posting

variable {epochSeq : UInt32} {peer : String} {puts : List Put} {read rest : List Parcel}
  {cursor : Nat} {l l' : Link}

/-- What was posted under an own event's id is that event. -/
theorem event_of_sent (h : Posting epochSeq peer puts read cursor rest l) (he : e ∈ l.node.outbox)
    (hsent : l.sent e.eventId peer = true) : .event e ∈ read ++ rest := by
  obtain ⟨p, hp, hkey⟩ := (h.sent e.eventId).1 hsent
  cases p with
  | event x =>
    have hsame := List.inj_on_of_nodup_map h.offers.distinct (h.outbox x hp) he hkey
    exact hsame ▸ hp
  | chunk c =>
    obtain ⟨-, -, -, chunk, -, hhex, -⟩ := h.posted.held c hp
    refine absurd hkey.symm ?_
    rw [Parcel.key, ← hhex]
    exact h.offers.eventId_ne he chunk.blobId

/-- What was posted as a chunk is a chunk. -/
theorem chunk_of_sent (h : Posting epochSeq peer puts read cursor rest l) (digest : Bytes32)
    (hsent : l.sent ("blob:" ++ hexEncode digest.toList) peer = true) :
    ∃ c, .chunk c ∈ read ++ rest ∧ c.chunkId = hexEncode digest.toList := by
  obtain ⟨p, hp, hkey⟩ := (h.sent _).1 hsent
  cases p with
  | event x => exact absurd hkey (h.offers.eventId_ne (h.outbox x hp) digest)
  | chunk c => exact ⟨c, hp, (String.append_right_inj "blob:").1 hkey⟩

/-- Whether something was sent is a matter of the marks. -/
theorem fresh_of_unsent (h : Posting epochSeq peer puts read cursor rest l)
    (hunsent : ¬ l.sent p.key peer = true) : ∀ q ∈ read ++ rest, q.key ≠ p.key := by
  intro q hq hkey
  exact hunsent ((h.sent p.key).2 ⟨q, hq, hkey⟩)

variable [AuthenticAead]

/-- One push of something that was not posted before. -/
theorem push (h : Posting epochSeq peer puts read cursor rest l) {pushId : String}
    {record : Option JournalEvent} (hposted : Posted puts (read ++ rest ++ [p]))
    (houtbox : ∀ e, p = .event e → e ∈ l.node.outbox)
    (hok : l.sealAndPush peer p.key pushId p.payload record = (.ok count, l')) :
    Posting epochSeq peer puts read cursor (rest ++ [p]) l' := by
  obtain ⟨channels, htalks, hepoch⟩ := h.talks
  obtain ⟨channels', envelope, outbound, outcome, relay, hpeer, hseal, hpush, rfl⟩ :=
    Link.sealAndPush_ok hok
  cases htalks.lookup.symm.trans hpeer
  obtain ⟨hseals, hepoch'⟩ := seals_of_seal hseal
  rw [hepoch] at hseals hepoch'
  rw [List.append_assoc] at hposted
  have hlast : p ∈ read ++ (rest ++ [p]) := by simp
  have hsub (q : Parcel) (hq : q ∈ read ++ rest) : q ∈ read ++ (rest ++ [p]) := by
    rw [← List.append_assoc]
    exact List.mem_append_left _ hq
  have hcases := l.relay.push_cases Envelope.len (bucketFor peer l.node.label) pushId envelope
  rw [hpush] at hcases
  obtain ⟨_, herror, -⟩ | ⟨seq, -, hmem, -⟩ | ⟨-, hnext, hqueue⟩ := hcases
  · cases herror
  · -- The envelope is queued already, so its parcel was posted.
    obtain ⟨q, hq, hcarries⟩ := h.carried _ _ hmem
    have hsame := Parcel.payload_inj (hseals.1.unique hcarries)
    rw [← List.append_assoc] at hposted
    have hnodup := hposted.once
    rw [List.map_append, List.nodup_append] at hnodup
    exact absurd rfl (hnodup.2.2 p.key (List.mem_map_of_mem (hsame ▸ hq)) p.key (by simp))
  dsimp only at hnext hqueue
  have hmem (label : String) (item : Nat × Envelope) (hitem : item ∈ relay.queue label) :
      item ∈ l.relay.queue label ∨ item = (l.relay.nextSeq, envelope) := by
    rw [hqueue] at hitem
    split at hitem
    · rename_i hlabel
      rw [← hlabel]
      exact (List.mem_append.1 hitem).imp_right List.mem_singleton.1
    · exact .inl hitem
  refine ⟨⟨h.offers.stores, h.offers.announced, h.offers.announces, h.offers.numbered,
    h.offers.distinct, h.offers.applied, h.offers.bounded⟩, hposted, fun e he => ?_, fun key => ?_,
    ⟨{ channels with outbound := outbound }, fun x => ?_, hepoch'⟩, fun label => ?_,
    fun label item hitem => ?_, fun label item hitem => ?_, ?_, ?_⟩
  · rw [← List.append_assoc] at he
    obtain he | he := List.mem_append.1 he
    · exact h.outbox e he
    · exact houtbox e (List.mem_singleton.1 he).symm
  · have hold := h.sent key
    simp only [Link.sent, decide_eq_true_eq] at hold ⊢
    rw [Table.getElem?_insert_eq]
    split
    · rename_i hkey
      subst hkey
      simp only [Option.getD_some, Std.ExtTreeSet.mem_insert, Std.LawfulEqCmp.compare_eq_iff_eq,
        true_or, true_iff]
      exact ⟨p, hlast, rfl⟩
    · rename_i hkey
      rw [hold]
      constructor
      · rintro ⟨q, hq, hqkey⟩
        exact ⟨q, hsub q hq, hqkey⟩
      · rintro ⟨q, hq, hqkey⟩
        rw [← List.append_assoc] at hq
        obtain hq | hq := List.mem_append.1 hq
        · exact ⟨q, hq, hqkey⟩
        · rw [List.mem_singleton.1 hq] at hqkey
          exact absurd hqkey hkey
  · rw [Table.getElem?_insert_eq]
    split
    · rfl
    · rename_i hx
      exact (htalks x).trans (if_neg hx)
  · rw [hqueue]
    split
    · refine List.pairwise_append.2 ⟨h.increasing _, List.pairwise_singleton _ _, fun a ha b hb => ?_⟩
      rw [List.mem_singleton.1 hb]
      exact h.bounded _ a ha
    · exact h.increasing label
  · rw [hnext]
    obtain hitem | rfl := hmem label item hitem
    · exact Nat.lt_succ_of_lt (h.bounded label item hitem)
    · exact Nat.lt_succ_self _
  · obtain hitem | rfl := hmem label item hitem
    · obtain ⟨q, hq, hcarries⟩ := h.carried label item hitem
      exact ⟨q, hsub q hq, hcarries⟩
    · exact ⟨p, hlast, hseals.1⟩
  · rw [hnext]
    exact Nat.lt_succ_of_lt h.position
  · have hafter : relay.queueAfter (bucketFor peer l.node.label) cursor =
        l.relay.queueAfter (bucketFor peer l.node.label) cursor ++ [(l.relay.nextSeq, envelope)] := by
      rw [Relay.queueAfter, hqueue, if_pos rfl, List.filter_append, ← Relay.queueAfter]
      congr 1
      refine List.filter_eq_self.2 fun item hitem => ?_
      rw [List.mem_singleton.1 hitem]
      exact decide_eq_true h.position
    dsimp only
    rw [hafter, List.map_append]
    exact List.rel_append h.unread (.cons hseals .nil)

omit [AuthenticAead] in
/-- A turn is opened. -/
theorem openTurn (h : Posting epochSeq peer puts read cursor rest l)
    (hok : l.openTurn peer seed = (.ok (), l')) :
    Posting epochSeq peer puts read cursor rest l' ∧ l'.node.outbox = l.node.outbox ∧
      l'.node.blobs = l.node.blobs := by
  obtain ⟨channels, htalks, hepoch⟩ := h.talks
  unfold Link.openTurn at hok
  rw [htalks.lookup] at hok
  dsimp only at hok
  rcases hturn : channels.outbound.openTurn seed with _ | outbound <;> rw [hturn] at hok <;> cases hok
  refine ⟨⟨⟨h.offers.stores, h.offers.announced, h.offers.announces, h.offers.numbered,
    h.offers.distinct, h.offers.applied, h.offers.bounded⟩, h.posted, h.outbox, h.sent,
    ⟨{ channels with outbound := outbound }, fun x => ?_, (openTurn_epochSeq hturn).trans hepoch⟩,
    h.increasing, h.bounded, h.carried, h.position, h.unread⟩, rfl, rfl⟩
  rw [Table.getElem?_insert_eq]
  split
  · rfl
  · rename_i hx
    exact (htalks x).trans (if_neg hx)

omit [AuthenticAead] in
/-- What was sent stays sent. -/
theorem sent_mono {rest' : List Parcel} (h : Posting epochSeq peer puts read cursor rest l)
    (h' : Posting epochSeq peer puts read cursor (rest ++ rest') l') {key : String}
    (hsent : l.sent key peer = true) : l'.sent key peer = true := by
  obtain ⟨p, hp, hkey⟩ := (h.sent key).1 hsent
  refine (h'.sent key).2 ⟨p, ?_, hkey⟩
  rw [← List.append_assoc]
  exact List.mem_append_left _ hp

/-- An event of the outbox, unless it was sent. -/
theorem flushEvent (h : Posting epochSeq peer puts read cursor rest l) (he : e ∈ l.node.outbox)
    (hok : Link.flushEvent peer l e = (.ok count, l')) :
    (∃ more, Posting epochSeq peer puts read cursor (rest ++ more) l') ∧
      l'.node.outbox = l.node.outbox ∧ l'.node.blobs = l.node.blobs ∧
      l'.sent e.eventId peer = true := by
  unfold Link.flushEvent at hok
  split at hok
  · rename_i hsent
    cases hok
    exact ⟨⟨[], by rw [List.append_nil]; exact h⟩, rfl, rfl, hsent⟩
  · rename_i hunsent
    have hposted := h.posted.concat (h.fresh_of_unsent (p := .event e) hunsent)
      (fun x hx => Parcel.event.inj hx ▸ h.offers.announces e he) (fun c hc => Parcel.noConfusion hc)
    have hpost := h.push (p := .event e) hposted (fun x hx => Parcel.event.inj hx ▸ he) hok
    have hframe := Link.sealAndPush_frame l peer e.eventId (l.node.label ++ ":" ++ e.eventId)
      (.event e.toWire) (some e)
    rw [hok] at hframe
    exact ⟨⟨[.event e], hpost⟩, hframe.1, hframe.2,
      (hpost.sent e.eventId).2 ⟨.event e, by simp, rfl⟩⟩

/-- The outbox under a fresh turn. -/
theorem flushPeer (h : Posting epochSeq peer puts read cursor rest l)
    (hok : Link.flushPeer seed l peer = (.ok count, l')) :
    (∃ more, Posting epochSeq peer puts read cursor (rest ++ more) l') ∧
      l'.node.outbox = l.node.outbox ∧ l'.node.blobs = l.node.blobs ∧
      ∀ e ∈ l.node.outbox, l'.sent e.eventId peer = true := by
  unfold Link.flushPeer at hok
  split at hok
  · rcases hturn : l.openTurn peer seed with ⟨_ | _, l₁⟩ <;> simp only [hturn] at hok
    · cases hok
    obtain ⟨h₁, houtbox, hblobs⟩ := h.openTurn hturn
    have hloop := sumEach_ok (Q := fun e s => s.sent e.eventId peer = true)
      (I := fun s : Link => (∃ more, Posting epochSeq peer puts read cursor (rest ++ more) s) ∧
        s.node.outbox = l.node.outbox ∧ s.node.blobs = l.node.blobs) l₁.node.outbox
      (fun s s' count e he hs hstep => by
        obtain ⟨⟨more, hs⟩, hsout, hsblobs⟩ := hs
        obtain ⟨⟨more', hs'⟩, hout', hblobs', hsent⟩ :=
          hs.flushEvent (by rw [hsout, ← houtbox]; exact he) hstep
        refine ⟨⟨⟨more ++ more', by rw [← List.append_assoc]; exact hs'⟩, hout'.trans hsout,
          hblobs'.trans hsblobs⟩, hsent, fun x hx => hs.sent_mono hs' hx⟩)
      ⟨⟨[], by rw [List.append_nil]; exact h₁⟩, houtbox, hblobs⟩ hok
    exact ⟨hloop.1.1, hloop.1.2.1, hloop.1.2.2, fun e he => hloop.2.1 e (houtbox ▸ he)⟩
  · rename_i hnone
    cases hok
    refine ⟨⟨[], by rw [List.append_nil]; exact h⟩, rfl, rfl, fun e he => ?_⟩
    by_contra hunsent
    exact hnone (List.any_eq_true.2 ⟨e, he, by simpa using hunsent⟩)

/-- A held chunk, unless it was sent; the events that announce the blobs were sent
before. -/
theorem fanOutChunk (h : Posting epochSeq peer puts read cursor rest l)
    (hall : ∀ e ∈ l.node.outbox, l.sent e.eventId peer = true) {blobId chunkId : String}
    (hheld : Held l.node.blobs blobId chunkId)
    (hok : l.fanOutChunk (blobId, chunkId, peer) = (.ok count, l')) :
    (∃ more, Posting epochSeq peer puts read cursor (rest ++ more) l') ∧
      l'.node.outbox = l.node.outbox ∧ l'.node.blobs = l.node.blobs ∧
      l'.sent ("blob:" ++ chunkId) peer = true := by
  unfold Link.fanOutChunk at hok
  dsimp only at hok
  split at hok
  · rename_i hsent
    cases hok
    exact ⟨⟨[], by rw [List.append_nil]; exact h⟩, rfl, rfl, hsent⟩
  rename_i hunsent
  obtain ⟨stored, hstored, hmem⟩ := hheld
  obtain ⟨ciphertext, hrow⟩ := Table.mem_iff.1 hmem
  rw [hstored] at hok
  dsimp only at hok
  rcases hentry : stored.entries.find? fun entry => entry.blobId == chunkId with _ | entry <;>
    rw [hentry] at hok
  · cases hok
  dsimp only at hok
  rw [hrow, Option.getD_some] at hok
  let c : BlobChunkWire := ⟨blobId, entry.contentHash, chunkId, ciphertext⟩
  obtain ⟨p, hp, hid, hchunk⟩ := h.offers.stores.rows blobId stored hstored chunkId ciphertext hrow
  -- Its blob was announced by an event that is posted.
  have hannounced : ∃ e totalSize entries, .event e ∈ read ++ rest ∧
      e.body = .blobAdded blobId totalSize entries := by
    obtain ⟨e, he, hbody⟩ := h.offers.announced p hp
    exact ⟨e, _, _, h.event_of_sent he (hall e he), by rw [hbody, Put.announcement, hid]⟩
  have hposted := h.posted.concat (h.fresh_of_unsent (p := .chunk c) hunsent)
    (fun x hx => Parcel.noConfusion hx)
    (fun d hd => Parcel.chunk.inj hd ▸ ⟨⟨p, hp, hid, hchunk⟩, hannounced⟩)
  have hpost := h.push (p := .chunk c) hposted (fun x hx => Parcel.noConfusion hx) hok
  have hframe := Link.sealAndPush_frame l peer ("blob:" ++ chunkId)
    (l.node.label ++ ":blob:" ++ chunkId) (.chunk c) none
  rw [hok] at hframe
  exact ⟨⟨[.chunk c], hpost⟩, hframe.1, hframe.2,
    (hpost.sent ("blob:" ++ chunkId)).2 ⟨.chunk c, by simp, rfl⟩⟩

/-- All held chunks. -/
theorem fanOutBlobChunks (h : Posting epochSeq peer puts read cursor rest l)
    (hall : ∀ e ∈ l.node.outbox, l.sent e.eventId peer = true)
    (hok : l.fanOutBlobChunks [peer] = (.ok count, l')) :
    (∃ more, Posting epochSeq peer puts read cursor (rest ++ more) l') ∧
      l'.node.outbox = l.node.outbox ∧ l'.node.blobs = l.node.blobs ∧
      (∀ e ∈ l.node.outbox, l'.sent e.eventId peer = true) ∧
      ∀ blobId chunkId, Held l.node.blobs blobId chunkId →
        l'.sent ("blob:" ++ chunkId) peer = true := by
  unfold Link.fanOutBlobChunks at hok
  have hloop := sumEach_ok
    (Q := fun (chunk : String × String × String) s => s.sent ("blob:" ++ chunk.2.1) peer = true)
    (I := fun s : Link => (∃ more, Posting epochSeq peer puts read cursor (rest ++ more) s) ∧
      s.node.outbox = l.node.outbox ∧ s.node.blobs = l.node.blobs ∧
      ∀ e ∈ l.node.outbox, s.sent e.eventId peer = true) _
    (fun s s' count chunk hchunk hs hstep => by
      obtain ⟨⟨blobId, stored⟩, hstored, hchunk⟩ := List.mem_flatMap.1 hchunk
      obtain ⟨chunkId, hchunkId, hchunk⟩ := List.mem_flatMap.1 hchunk
      cases List.mem_singleton.1 hchunk
      have hheld : Held l.node.blobs blobId chunkId :=
        ⟨stored, Std.ExtTreeMap.mem_toList_iff_getElem?_eq_some.1 hstored,
          Std.ExtTreeMap.mem_keys.1 hchunkId⟩
      obtain ⟨⟨more, hs⟩, hsout, hsblobs, hsall⟩ := hs
      obtain ⟨⟨more', hs'⟩, hout', hblobs', hsent⟩ :=
        hs.fanOutChunk (hsout ▸ hsall) (hsblobs ▸ hheld) hstep
      exact ⟨⟨⟨more ++ more', by rw [← List.append_assoc]; exact hs'⟩, hout'.trans hsout,
        hblobs'.trans hsblobs, fun e he => hs.sent_mono hs' (hsall e he)⟩, hsent,
        fun x hx => hs.sent_mono hs' hx⟩)
    ⟨⟨[], by rw [List.append_nil]; exact h⟩, rfl, rfl, hall⟩ hok
  refine ⟨hloop.1.1, hloop.1.2.1, hloop.1.2.2.1, hloop.1.2.2.2, fun blobId chunkId hheld => ?_⟩
  obtain ⟨stored, hstored, hmem⟩ := hheld
  refine hloop.2.1 (blobId, chunkId, peer) (List.mem_flatMap.2 ⟨(blobId, stored), ?_, ?_⟩)
  · exact Std.ExtTreeMap.mem_toList_iff_getElem?_eq_some.2 hstored
  · exact List.mem_flatMap.2 ⟨chunkId, Std.ExtTreeMap.mem_keys.2 hmem, List.mem_singleton.2 rfl⟩

/-- A poll reads what the sender has posted itself, if anything. -/
theorem poll (h : Posting epochSeq peer puts read cursor rest l) (hok : l.poll = (.ok count, l')) :
    Posting epochSeq peer puts read cursor rest l' ∧ l'.node.nextSeq = l.node.nextSeq := by
  obtain ⟨channels, htalks, hepoch⟩ := h.talks
  have hbefore : Rereads puts (read ++ rest) l.node (l.before peer channels) l.node := by
    refine ⟨h.offers, rfl, rfl, rfl, fun envelope henvelope => ?_⟩
    obtain ⟨item, hitem, rfl⟩ := List.mem_map.1 henvelope
    exact h.carried _ item (List.mem_of_mem_filter hitem)
  obtain ⟨channels', hreceived, hreads, -⟩ := Link.poll_reads_all
    (rereads_reception h.posted h.outbox peer) (h.increasing _) htalks hbefore hok
  have hsame := hreceived.relay
  refine ⟨⟨hreads.offers, h.posted, fun e he => hreads.outbox ▸ h.outbox e he, fun key => ?_,
    ⟨channels', hreceived.talks, hreceived.outbound ▸ hepoch⟩, fun label => ?_,
    fun label item hitem => ?_, fun label item hitem => ?_, ?_, ?_⟩, hreads.nextSeq⟩
  · rw [← h.sent key, Link.sent, Link.sent, hreads.sentTo]
  · rw [hsame.queue]
    exact h.increasing label
  · rw [hsame.queue] at hitem
    rw [hsame.nextSeq]
    exact h.bounded label item hitem
  · rw [hsame.queue] at hitem
    exact h.carried label item hitem
  · rw [hsame.nextSeq]
    exact h.position
  · rw [Relay.queueAfter, hsame.queue, hreceived.label]
    exact h.unread

omit [AuthenticAead] in
/-- The peer has read everything. -/
theorem advance (h : Posting epochSeq peer puts read cursor rest l) {relay : Relay Envelope}
    {pushed : List Pushed} {cursor' : Nat} {label : String} (hsame : l.relay.Same relay)
    (hposition : cursor' = cursor ∨ ∃ item ∈ l.relay.queue label, cursor' = item.1)
    (hnone : relay.queueAfter (bucketFor peer l.node.label) cursor' = []) :
    Posting epochSeq peer puts (read ++ rest) cursor' []
      { l with relay := relay, pushed := pushed } := by
  refine ⟨h.offers, ?_, ?_, ?_, h.talks, fun label => ?_, fun label item hitem => ?_,
    fun label item hitem => ?_, ?_, ?_⟩
  · rw [List.append_nil]
    exact h.posted
  · rw [List.append_nil]
    exact h.outbox
  · rw [List.append_nil]
    exact h.sent
  · rw [hsame.queue]
    exact h.increasing label
  · rw [hsame.queue] at hitem
    rw [hsame.nextSeq]
    exact h.bounded label item hitem
  · rw [hsame.queue] at hitem
    rw [List.append_nil]
    exact h.carried label item hitem
  · rw [hsame.nextSeq]
    obtain rfl | ⟨item, hitem, rfl⟩ := hposition
    · exact h.position
    · exact h.bounded label item hitem
  · rw [hnone]
    exact .nil

omit [AuthenticAead] in
/-- One more event at the sender. -/
theorem created {puts' : List Put} {blobs : Table String StoredBlob}
    (h : Posting epochSeq peer puts read cursor rest l) (hsub : puts ⊆ puts')
    (hcreated : ({ l.node with blobs := blobs } : SyncNode).Created e n)
    (hoffers : Offers puts' n) :
    Posting epochSeq peer puts' read cursor rest { l with node := n } := by
  obtain ⟨channels, htalks, hepoch⟩ := h.talks
  have hlabel : n.label = l.node.label := hcreated.label
  refine ⟨hoffers, h.posted.mono hsub, fun x hx => ?_, fun key => ?_, ⟨channels, fun p => ?_, hepoch⟩,
    h.increasing, h.bounded, h.carried, h.position, ?_⟩
  · rw [hcreated.outbox]
    exact List.mem_append_left _ (h.outbox x hx)
  · rw [← h.sent key, Link.sent, Link.sent, hcreated.sentTo]
  · rw [hcreated.peers]
    exact htalks p
  · dsimp only
    rw [hlabel]
    exact h.unread

/-- **A flush leaves nothing to post.** -/
theorem flush (h : Posting epochSeq peer puts read cursor rest l)
    (hbound : l.node.nextSeq < u64Max) (hok : l.flush seed = (.ok count, l')) :
    ∃ rest', Posting epochSeq peer puts read cursor rest' l' ∧ Exhausts puts (read ++ rest') := by
  unfold Link.flush at hok
  rcases hpoll : l.poll with ⟨_ | taken, l₁⟩ <;> simp only [hpoll] at hok
  · cases hok
  obtain ⟨h₁, hnext⟩ := h.poll hpoll
  rcases hack : l₁.node.acknowledge with ⟨_ | id, n⟩ <;> simp only [hack] at hok
  · cases hok
  obtain ⟨e, hbody, hcreated⟩ := SyncNode.createAdmit_created hack
  have hack' (ok : String → Nat → List BlobEntry → Prop) : e.body.Announces ok := by
    rw [hbody]
    trivial
  have hblobs : n.blobs = l₁.node.blobs := by
    obtain hsame | hadded := hcreated.blobs
    · exact hsame
    · rw [hadded, Reading.addBlob, hbody]
  have h₂ := h₁.created (List.Subset.refl _) hcreated (h₁.offers.created (List.Subset.refl _)
    (fun p hp => .inl hp) (hack' _) hcreated (by rw [hblobs]; exact h₁.offers.stores)
    (by rw [hnext]; exact hbound))
  obtain ⟨channels, htalks, -⟩ := h₂.talks
  have hkeys : n.peers.keys = [peer] := htalks.keys
  rw [hkeys] at hok
  simp only [sumEach] at hok
  rcases hpeer : Link.flushPeer seed { l₁ with node := n } peer with ⟨_ | pushed, l₃⟩ <;>
    simp only [hpeer] at hok
  · cases hok
  obtain ⟨⟨more, h₃⟩, houtbox, -, hall⟩ := h₂.flushPeer hpeer
  rcases hfan : l₃.fanOutBlobChunks [peer] with ⟨_ | chunks, l₄⟩ <;> simp only [hfan] at hok
  · cases hok
  cases hok
  obtain ⟨⟨more', h₄⟩, houtbox', hblobs', hall', hheld⟩ :=
    h₃.fanOutBlobChunks (fun e he => hall e (houtbox ▸ he)) hfan
  refine ⟨rest ++ more ++ more', h₄, fun p hp => ?_, fun p hp => ?_⟩
  · obtain ⟨e, he, hannounces⟩ := h₄.offers.announced p hp
    exact ⟨e, h₄.event_of_sent he (hall' e (houtbox' ▸ he)), hannounces⟩
  · obtain ⟨q, hq, hid, hchunks⟩ := h₄.offers.stores.held p hp
    refine ⟨q, hq, hid, fun chunk hchunk => ?_⟩
    exact h₄.chunk_of_sent chunk.blobId (hheld _ _ (hblobs' ▸ hchunks chunk hchunk))

end Posting

end

end Altior.Sync
