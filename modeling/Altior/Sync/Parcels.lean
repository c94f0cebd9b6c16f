import Mathlib.Data.List.Induction
import Mathlib.Data.List.Nodup
import Altior.Crypto.Reassembly
import Altior.Sync.Manifests

/-!
# Parcels

What a flush posts to a receiver, in the order of its bucket, and the blobs that reading
it leaves the receiver with.  A chunk is posted once, under one blob; whether every blob
can be put together is a question about the chunks that the blobs share.
-/

namespace Altior.Sync

open Lib Crypto
open List (Forall₂)

/-! ## Parcels and what is filed of them -/

/-- What a flush pushes: an event of the outbox, or a held chunk. -/
inductive Parcel
  | event (e : JournalEvent)
  | chunk (c : BlobChunkWire)

namespace Parcel

/-- What a parcel is recorded under once it was pushed to a peer. -/
def key : Parcel → String
  | .event e => e.eventId
  | .chunk c => "blob:" ++ c.chunkId

def payload : Parcel → SyncPayload
  | .event e => .event e.toWire
  | .chunk c => .chunk c

/-- The blobs once a parcel was read. -/
def file (blobs : Table String StoredBlob) : Parcel → Table String StoredBlob
  | .event e => Reading.addBlob blobs e
  | .chunk c => blobs.update c.blobId fun stored =>
    { stored with chunks := stored.chunks.insert c.chunkId c.ciphertext }

end Parcel

/-- The blobs of a receiver that has read some parcels. -/
def filed (log : List Parcel) : Table String StoredBlob := log.foldl Parcel.file ∅

theorem filed_append (log more : List Parcel) :
    filed (log ++ more) = more.foldl Parcel.file (filed log) := List.foldl_append

theorem filed_concat (log : List Parcel) (p : Parcel) :
    filed (log ++ [p]) = Parcel.file (filed log) p := filed_append log [p]

/-- Every manifest that is filed was announced. -/
theorem mem_of_filed_manifest {log : List Parcel} {blobId : String} {stored : StoredBlob}
    (h : (filed log)[blobId]? = some stored) :
    ∃ e, .event e ∈ log ∧ e.body = .blobAdded blobId stored.totalSize stored.entries := by
  induction log using List.reverseRecOn generalizing stored with
  | nil => simp [filed] at h
  | append_singleton log p ih =>
    rw [filed_concat] at h
    have hold {old : StoredBlob} (hget : (filed log)[blobId]? = some old)
        (hsize : stored.totalSize = old.totalSize) (hentries : stored.entries = old.entries) :
        ∃ e, .event e ∈ log ++ [p] ∧
          e.body = .blobAdded blobId stored.totalSize stored.entries := by
      obtain ⟨e, hmem, hbody⟩ := ih hget
      exact ⟨e, List.mem_append_left _ hmem, by rw [hbody, hsize, hentries]⟩
    cases p with
    | event e =>
      obtain hget | ⟨totalSize, entries, hbody, rfl⟩ := addBlob_cases h
      · exact hold hget rfl rfl
      · exact ⟨e, by simp, hbody⟩
    | chunk c =>
      rw [Parcel.file, Table.getElem?_update] at h
      split at h
      · obtain ⟨old, hget, rfl⟩ := Option.map_eq_some_iff.1 h
        exact hold hget rfl rfl
      · exact hold h rfl rfl

/-- Every chunk that is filed was posted under its blob. -/
theorem mem_of_filed_chunk {log : List Parcel} {blobId chunkId : String} {stored : StoredBlob}
    {ciphertext : List UInt8} (h : (filed log)[blobId]? = some stored)
    (hchunk : stored.chunks[chunkId]? = some ciphertext) :
    ∃ c, .chunk c ∈ log ∧ c.blobId = blobId ∧ c.chunkId = chunkId ∧ c.ciphertext = ciphertext := by
  induction log using List.reverseRecOn generalizing stored with
  | nil => simp [filed] at h
  | append_singleton log p ih =>
    rw [filed_concat] at h
    have hold {old : StoredBlob} (hget : (filed log)[blobId]? = some old)
        (hrow : old.chunks[chunkId]? = some ciphertext) :
        ∃ c, .chunk c ∈ log ++ [p] ∧ c.blobId = blobId ∧ c.chunkId = chunkId ∧
          c.ciphertext = ciphertext := by
      obtain ⟨c, hmem, hc⟩ := ih hget hrow
      exact ⟨c, List.mem_append_left _ hmem, hc⟩
    cases p with
    | event e =>
      obtain hget | ⟨totalSize, entries, -, rfl⟩ := addBlob_cases h
      · exact hold hget hchunk
      · cases hget : (filed log)[blobId]? with
        | none => simp [hget] at hchunk
        | some old =>
          rw [hget] at hchunk
          exact hold hget hchunk
    | chunk c =>
      rw [Parcel.file, Table.getElem?_update] at h
      split at h
      · rename_i hblob
        obtain ⟨old, hget, rfl⟩ := Option.map_eq_some_iff.1 h
        dsimp only at hchunk
        rw [Table.getElem?_insert_eq] at hchunk
        split at hchunk
        · rename_i hid
          exact ⟨c, by simp, hblob, hid, Option.some.inj hchunk⟩
        · exact hold hget hchunk
      · exact hold h hchunk

theorem mem_file {blobs : Table String StoredBlob} {blobId : String} (h : blobId ∈ blobs)
    (p : Parcel) : blobId ∈ Parcel.file blobs p := by
  cases p with
  | event e =>
    show blobId ∈ Reading.addBlob blobs e
    unfold Reading.addBlob
    split
    · exact Table.mem_insert_iff.2 (.inr h)
    · exact h
  | chunk c => exact Table.mem_update.2 h

theorem mem_filed_of_event {log : List Parcel} {e : JournalEvent} {blobId : String}
    {totalSize : Nat} {entries : List BlobEntry} (hmem : .event e ∈ log)
    (hbody : e.body = .blobAdded blobId totalSize entries) : blobId ∈ filed log := by
  induction log using List.reverseRecOn with
  | nil => cases hmem
  | append_singleton log p ih =>
    rw [filed_concat]
    obtain hmem | hmem := List.mem_append.1 hmem
    · exact mem_file (ih hmem) p
    · cases List.mem_singleton.1 hmem
      show blobId ∈ Reading.addBlob (filed log) e
      unfold Reading.addBlob
      rw [hbody]
      exact Table.mem_insert_iff.2 (.inl rfl)

/-- A chunk is held of a blob. -/
def Held (blobs : Table String StoredBlob) (blobId chunkId : String) : Prop :=
  ∃ stored, blobs[blobId]? = some stored ∧ chunkId ∈ stored.chunks

/-- Reading on takes no chunk away. -/
theorem Held.file {blobs : Table String StoredBlob} {blobId chunkId : String}
    (h : Held blobs blobId chunkId) (p : Parcel) : Held (Parcel.file blobs p) blobId chunkId := by
  obtain ⟨stored, hstored, hheld⟩ := h
  cases p with
  | event e =>
    show Held (Reading.addBlob blobs e) blobId chunkId
    unfold Reading.addBlob
    split
    · rename_i other totalSize entries _
      by_cases hother : other = blobId
      · subst hother
        refine ⟨_, Table.getElem?_insert_same .., ?_⟩
        rw [hstored]
        exact hheld
      · exact ⟨stored, (Table.getElem?_insert_of_ne _ _ hother).trans hstored, hheld⟩
    · exact ⟨stored, hstored, hheld⟩
  | chunk c =>
    unfold Parcel.file
    by_cases hother : c.blobId = blobId
    · refine ⟨{ stored with chunks := stored.chunks.insert c.chunkId c.ciphertext }, ?_,
        Table.mem_insert_iff.2 (.inr hheld)⟩
      rw [Table.getElem?_update, if_pos hother, hstored]
      rfl
    · refine ⟨stored, ?_, hheld⟩
      rw [Table.getElem?_update, if_neg hother, hstored]

/-- A chunk whose blob was announced before it is held. -/
theorem held_filed {front : List Parcel} {c : BlobChunkWire} (h : c.blobId ∈ filed front)
    (back : List Parcel) : Held (filed (front ++ .chunk c :: back)) c.blobId c.chunkId := by
  obtain ⟨stored, hstored⟩ := Table.mem_iff.1 h
  have hfirst : Held (Parcel.file (filed front) (.chunk c)) c.blobId c.chunkId :=
    ⟨{ stored with chunks := stored.chunks.insert c.chunkId c.ciphertext },
      by rw [Parcel.file, Table.getElem?_update_same, hstored]; rfl,
      Table.mem_insert_iff.2 (.inl rfl)⟩
  rw [filed_append, List.foldl_cons]
  induction back using List.reverseRecOn with
  | nil => exact hfirst
  | append_singleton back p ih =>
    rw [List.foldl_append]
    exact ih.file p

/-! ## Puts -/

/-- One call of `put_blob`. -/
structure Put where
  vaultKey : Bytes32
  bytes : List UInt8
deriving DecidableEq

theorem hexEncode_inj {id id' : Bytes32} (h : hexEncode id.toList = hexEncode id'.toList) :
    id = id' := by
  have hdecode := congrArg hexDecode h
  rw [hexDecode_hexEncode, hexDecode_hexEncode] at hdecode
  exact Option.some.inj hdecode

/-- Where the ids of all chunks are hex, the chunk of an id is the one filed under its
hex. -/
theorem chunkMap_eq {stored : StoredBlob}
    (hhex : ∀ chunkId ∈ stored.chunks, ∃ id : Bytes32, hexEncode id.toList = chunkId)
    (id : Bytes32) : stored.chunkMap id = stored.chunks[hexEncode id.toList]? := by
  have hrow {row : String × List UInt8} (hmem : row ∈ stored.chunks.toList) :
      stored.chunks[row.1]? = some row.2 ∧
        (hexDecode row.1 = some id ↔ row.1 = hexEncode id.toList) := by
    have hget := Std.ExtTreeMap.mem_toList_iff_getElem?_eq_some.1 hmem
    obtain ⟨id', hid'⟩ := hhex row.1 (Table.mem_iff.2 ⟨_, hget⟩)
    refine ⟨hget, fun hdecode => ?_, fun heq => by rw [heq, hexDecode_hexEncode]⟩
    rw [← hid', hexDecode_hexEncode] at hdecode
    rw [← hid', Option.some.inj hdecode]
  unfold StoredBlob.chunkMap
  cases hlast : (stored.chunks.toList.filter fun row => hexDecode row.1 = some id).getLast? with
  | some row =>
    obtain ⟨hmem, hdecode⟩ := List.mem_filter.1 (List.mem_of_getLast? hlast)
    obtain ⟨hget, hiff⟩ := hrow hmem
    rw [← hiff.1 (of_decide_eq_true hdecode), hget]
    rfl
  | none =>
    cases hget : stored.chunks[hexEncode id.toList]? with
    | none => rfl
    | some ciphertext =>
      have hmem := Std.ExtTreeMap.mem_toList_iff_getElem?_eq_some.2 hget
      have hnil := List.getLast?_eq_none_iff.1 hlast
      have hfilter := List.filter_eq_nil_iff.1 hnil _ hmem
      exact absurd (decide_eq_true ((hrow hmem).2.2 rfl)) hfilter

section

variable [Primitives] [BlobPrimitives]

namespace Put

/-- The id `put_blob` returns. -/
def blobId (p : Put) : String := (chunkBlob p.vaultKey p.bytes).1

/-- What `put_blob` stores under it. -/
def blob (p : Put) : StoredBlob := (chunkBlob p.vaultKey p.bytes).2

def chunks (p : Put) : List ChunkCiphertext := (splitAndEncrypt p.vaultKey p.bytes).1

/-- The body of the event `put_blob` creates. -/
def announcement (p : Put) : EventBody := .blobAdded p.blobId p.blob.totalSize p.blob.entries

theorem blob_eq (p : Put) :
    p.blob = ⟨p.bytes.length, p.chunks.map fun chunk => toBlobEntry chunk.entry,
      p.chunks.foldl
        (fun stored chunk => stored.insert (hexEncode chunk.blobId.toList) chunk.ciphertext) ∅⟩ := by
  have hentries : p.blob.entries = (p.chunks.map ChunkCiphertext.entry).map toBlobEntry := rfl
  rw [List.map_map] at hentries
  show StoredBlob.mk p.blob.totalSize p.blob.entries p.blob.chunks = _
  rw [hentries]
  rfl

theorem blobId_eq (p : Put) : p.blobId =
    hexEncode (blobIdOf ⟨p.bytes.length, p.chunks.map ChunkCiphertext.entry⟩).toList := rfl

/-- The id of a chunk is the digest of its ciphertext. -/
theorem chunk_blobId {p : Put} {chunk : ChunkCiphertext} (h : chunk ∈ p.chunks) :
    chunk.blobId = Primitives.sha256 chunk.ciphertext := by
  obtain ⟨i, hi, rfl⟩ := List.mem_mapIdx.1 h
  rfl

end Put

/-- Puts whose ids keep them apart: one id is one blob, and a chunk id belongs to the
puts of one blob and is one ciphertext. -/
structure Separate (puts : List Put) : Prop where
  blob : ∀ p ∈ puts, ∀ q ∈ puts, p.blobId = q.blobId → p.blob = q.blob
  chunk : ∀ p ∈ puts, ∀ q ∈ puts, ∀ c ∈ p.chunks, ∀ d ∈ q.chunks, c.blobId = d.blobId →
    p.blobId = q.blobId ∧ c.ciphertext = d.ciphertext

instance (puts : List Put) : Decidable (Separate puts) :=
  decidable_of_iff
    ((∀ p ∈ puts, ∀ q ∈ puts, p.blobId = q.blobId → p.blob = q.blob) ∧
      ∀ p ∈ puts, ∀ q ∈ puts, ∀ c ∈ p.chunks, ∀ d ∈ q.chunks, c.blobId = d.blobId →
        p.blobId = q.blobId ∧ c.ciphertext = d.ciphertext)
    ⟨fun h => ⟨h.1, h.2⟩, fun h => ⟨h.blob, h.chunk⟩⟩

/-! ## What a sender posts -/

/-- The parcels of a sender that put some blobs: none twice, announcements of the puts
and chunks of theirs, and no chunk before its blob is announced. -/
structure Posted (puts : List Put) (log : List Parcel) : Prop where
  once : (log.map Parcel.key).Nodup
  announced : ∀ e, .event e ∈ log → e.body.Announces fun blobId totalSize entries =>
    ∃ p ∈ puts, EventBody.blobAdded blobId totalSize entries = p.announcement
  held : ∀ c, .chunk c ∈ log → ∃ p ∈ puts, p.blobId = c.blobId ∧ ∃ chunk ∈ p.chunks,
    hexEncode chunk.blobId.toList = c.chunkId ∧ chunk.ciphertext = c.ciphertext
  inOrder : ∀ front c back, log = front ++ .chunk c :: back →
    ∃ e totalSize entries, .event e ∈ front ∧ e.body = .blobAdded c.blobId totalSize entries

/-- Nothing is left to post: every put was announced, and of the puts of each id one has
all its chunks there. -/
structure Exhausts (puts : List Put) (log : List Parcel) : Prop where
  announced : ∀ p ∈ puts, ∃ e, .event e ∈ log ∧ e.body = p.announcement
  held : ∀ p ∈ puts, ∃ q ∈ puts, q.blobId = p.blobId ∧ ∀ chunk ∈ q.chunks,
    ∃ c, .chunk c ∈ log ∧ c.chunkId = hexEncode chunk.blobId.toList

variable {puts : List Put} {log : List Parcel} {n : SyncNode}

namespace Posted

/-- Two chunks that are posted under one chunk id are one parcel. -/
theorem chunk_unique (h : Posted puts log) {c d : BlobChunkWire} (hc : .chunk c ∈ log)
    (hd : .chunk d ∈ log) (hid : c.chunkId = d.chunkId) : c = d := by
  have hkey : (Parcel.chunk c).key = (Parcel.chunk d).key := by rw [Parcel.key, Parcel.key, hid]
  exact Parcel.chunk.inj (List.inj_on_of_nodup_map h.once hc hd hkey)

/-- What is filed under the id of a put. -/
theorem filed_put (h : Posted puts log) (hall : Exhausts puts log) {p : Put} (hp : p ∈ puts) :
    ∃ stored, (filed log)[p.blobId]? = some stored ∧ ∃ r ∈ puts, r.blobId = p.blobId ∧
      stored.totalSize = r.blob.totalSize ∧ stored.entries = r.blob.entries := by
  obtain ⟨e, he, hbody⟩ := hall.announced p hp
  obtain ⟨stored, hstored⟩ := Table.mem_iff.1 (mem_filed_of_event he hbody)
  obtain ⟨e', he', hbody'⟩ := mem_of_filed_manifest hstored
  have hannounced := h.announced e' he'
  rw [hbody'] at hannounced
  obtain ⟨r, hr, heq⟩ := hannounced
  injection heq with hid hsize hentries
  exact ⟨stored, hstored, r, hr, hid.symm, hsize, hentries⟩

/-- The chunk filed under an id is posted under its hex. -/
theorem mem_of_chunkMap (h : Posted puts log) {blobId : String} {stored : StoredBlob}
    (hstored : (filed log)[blobId]? = some stored) {id : Bytes32} {ciphertext : List UInt8}
    (hchunk : stored.chunkMap id = some ciphertext) :
    ∃ c, .chunk c ∈ log ∧ c.blobId = blobId ∧ c.chunkId = hexEncode id.toList ∧
      c.ciphertext = ciphertext := by
  rw [chunkMap_eq] at hchunk
  · exact mem_of_filed_chunk hstored hchunk
  · intro chunkId hmem
    obtain ⟨ciphertext', hget⟩ := Table.mem_iff.1 hmem
    obtain ⟨c, hc, -, hid, -⟩ := mem_of_filed_chunk hstored hget
    obtain ⟨p, -, -, chunk, -, hhex, -⟩ := h.held c hc
    exact ⟨chunk.blobId, hhex.trans hid⟩

/-- A chunk posted after its blob was announced is there for reassembly. -/
theorem chunkMap_of_mem (h : Posted puts log) {stored : StoredBlob} {c : BlobChunkWire}
    (hc : .chunk c ∈ log) (hstored : (filed log)[c.blobId]? = some stored) {id : Bytes32}
    (hid : c.chunkId = hexEncode id.toList) : stored.chunkMap id = some c.ciphertext := by
  obtain ⟨front, back, rfl⟩ := List.append_of_mem hc
  obtain ⟨e, totalSize, entries, he, hbody⟩ := h.inOrder front c back rfl
  obtain ⟨stored', hstored', hheld⟩ := held_filed (mem_filed_of_event he hbody) back
  cases hstored.symm.trans hstored'
  obtain ⟨ciphertext, hget⟩ := Table.mem_iff.1 hheld
  have hhex : ∀ chunkId ∈ stored.chunks, ∃ id : Bytes32, hexEncode id.toList = chunkId := by
    intro chunkId hmem
    obtain ⟨ciphertext', hget⟩ := Table.mem_iff.1 hmem
    obtain ⟨d, hd, -, hid, -⟩ := mem_of_filed_chunk hstored hget
    obtain ⟨p, -, -, chunk, -, hhex, -⟩ := h.held d hd
    exact ⟨chunk.blobId, hhex.trans hid⟩
  obtain ⟨d, hd, -, hdid, hciphertext⟩ := mem_of_filed_chunk hstored hget
  rw [chunkMap_eq hhex, ← hid, hget, ← hciphertext, h.chunk_unique hd hc hdid]

end Posted

variable [LawfulBlobAead] [ExactBlobAead]

/-- What the receiver gets of a blob under the manifest of some put. -/
theorem getBlob_iff {stored : StoredBlob} {p r : Put} (hstored : n.blobs[p.blobId]? = some stored)
    (hsize : stored.totalSize = r.blob.totalSize) (hentries : stored.entries = r.blob.entries) :
    n.getBlob p.vaultKey p.blobId = .ok p.bytes ↔ p.bytes.length = r.bytes.length ∧
      Forall₂ (fun (chunk' chunk : ChunkCiphertext) => chunk'.contentHash = chunk.contentHash ∧
        stored.chunkMap chunk'.blobId = some chunk.ciphertext) r.chunks p.chunks := by
  refine Iff.trans ?_ decryptAndReassemble_iff
  unfold SyncNode.getBlob
  rw [hstored]
  dsimp only
  rw [hsize, hentries, Put.blob, manifestOf_chunkBlob]
  dsimp only
  rcases decryptAndReassemble p.vaultKey (splitAndEncrypt r.vaultKey r.bytes).2 stored.chunkMap
    with e | bytes <;> simp

/-- A put whose blob the receiver gets is the put whose manifest is filed: chunk by
chunk, and in what was stored. -/
theorem same_of_getBlob {stored : StoredBlob} {p r : Put}
    (hstored : n.blobs[p.blobId]? = some stored) (hr : r.blobId = p.blobId)
    (hsize : stored.totalSize = r.blob.totalSize) (hentries : stored.entries = r.blob.entries)
    (hp : n.getBlob p.vaultKey p.blobId = .ok p.bytes)
    (hown : n.getBlob r.vaultKey r.blobId = .ok r.bytes) :
    p.blob = r.blob ∧ ∀ c ∈ p.chunks, stored.chunkMap c.blobId = some c.ciphertext := by
  rw [getBlob_iff hstored hsize hentries] at hp
  rw [getBlob_iff (hr ▸ hstored) hsize hentries] at hown
  have hchunks : r.chunks = p.chunks := by
    rw [← List.forall₂_eq_eq_eq, List.forall₂_iff_get]
    obtain ⟨hlength, hget⟩ := List.forall₂_iff_get.1 hp.2
    refine ⟨hlength, fun i hi hi' => ?_⟩
    obtain ⟨hhash, hchunk⟩ := hget i hi hi'
    obtain ⟨-, hchunk'⟩ := (List.forall₂_iff_get.1 hown.2).2 i hi hi
    have hciphertext := Option.some.inj (hchunk'.symm.trans hchunk)
    have hid := Put.chunk_blobId (List.get_mem r.chunks ⟨i, hi⟩)
    have hid' := Put.chunk_blobId (List.get_mem p.chunks ⟨i, hi'⟩)
    rw [hciphertext, ← hid'] at hid
    revert hhash hciphertext hid
    rcases r.chunks.get ⟨i, hi⟩ with ⟨_, _, _⟩
    rcases p.chunks.get ⟨i, hi'⟩ with ⟨_, _, _⟩
    rintro rfl rfl rfl
    rfl
  refine ⟨by rw [p.blob_eq, r.blob_eq, hchunks, hp.1], fun c hc => ?_⟩
  have hall := hp.2
  rw [hchunks, List.forall₂_same] at hall
  exact (hall c hc).2

/-- **The blobs that arrive.**  A receiver that has read all that a sender of some puts
has to post gets every put blob back iff the puts are separate. -/
theorem Posted.getBlob_iff_separate (h : Posted puts log) (hall : Exhausts puts log)
    (hblobs : n.blobs = filed log) :
    (∀ p ∈ puts, n.getBlob p.vaultKey p.blobId = .ok p.bytes) ↔ Separate puts := by
  constructor
  · intro hget
    have hsame {p : Put} (hp : p ∈ puts) : ∃ stored, (filed log)[p.blobId]? = some stored ∧
        ∃ r : Put, (∀ q ∈ puts, q.blobId = p.blobId → q.blob = r.blob) ∧
          ∀ c ∈ p.chunks, stored.chunkMap c.blobId = some c.ciphertext := by
      obtain ⟨stored, hstored, r, hr, hid, hsize, hentries⟩ := h.filed_put hall hp
      have hstored' : n.blobs[p.blobId]? = some stored := hblobs ▸ hstored
      refine ⟨stored, hstored, r, fun q hq hqid => ?_, ?_⟩
      · exact (same_of_getBlob (hqid ▸ hstored') (hid.trans hqid.symm) hsize hentries
          (hget q hq) (hget r hr)).1
      · exact (same_of_getBlob hstored' hid hsize hentries (hget p hp) (hget r hr)).2
    refine ⟨fun p hp q hq hid => ?_, fun p hp q hq c hc d hd hid => ?_⟩
    · obtain ⟨-, -, r, hblob, -⟩ := hsame hp
      rw [hblob p hp rfl, hblob q hq hid.symm]
    · -- The chunk is filed under both blobs, and was posted once.
      obtain ⟨stored, hstored, -, -, hc'⟩ := hsame hp
      obtain ⟨stored', hstored', -, -, hd'⟩ := hsame hq
      obtain ⟨x, hx, hxblob, hxid, hxcipher⟩ := h.mem_of_chunkMap hstored (hc' c hc)
      obtain ⟨y, hy, hyblob, hyid, hycipher⟩ := h.mem_of_chunkMap hstored' (hd' d hd)
      have hxy := h.chunk_unique hx hy (by rw [hxid, hyid, hid])
      subst hxy
      exact ⟨hxblob.symm.trans hyblob, hxcipher.symm.trans hycipher⟩
  · intro hseparate p hp
    obtain ⟨stored, hstored, r, hr, hrid, hsize, hentries⟩ := h.filed_put hall hp
    have hblob := hseparate.blob r hr p hp hrid
    rw [hblob] at hsize hentries
    rw [getBlob_iff (hblobs ▸ hstored) hsize hentries, List.forall₂_same]
    refine ⟨rfl, fun c hc => ⟨rfl, ?_⟩⟩
    obtain ⟨q, hq, hqid, hposted⟩ := hall.held p hp
    -- The put that was posted has a chunk of the same id.
    have hshared : ∃ d ∈ q.chunks, d.blobId = c.blobId := by
      have hmem : toBlobEntry c.entry ∈ p.blob.entries := by
        rw [p.blob_eq]
        exact List.mem_map_of_mem hc
      rw [← hseparate.blob q hq p hp hqid, q.blob_eq] at hmem
      obtain ⟨d, hd, heq⟩ := List.mem_map.1 hmem
      exact ⟨d, hd, hexEncode_inj (congrArg BlobEntry.blobId heq)⟩
    obtain ⟨d, hd, hdid⟩ := hshared
    obtain ⟨x, hx, hxid⟩ := hposted d hd
    rw [hdid] at hxid
    obtain ⟨q', hq', hblobId, chunk, hchunk, hhex, hciphertext⟩ := h.held x hx
    obtain ⟨hsameId, hsameCipher⟩ := hseparate.chunk p hp q' hq' c hc chunk hchunk
      (hexEncode_inj (hxid.symm.trans hhex.symm))
    rw [hsameId, hblobId] at hstored
    rw [h.chunkMap_of_mem hx hstored hxid, hsameCipher, hciphertext]

end

end Altior.Sync
