import Mathlib.Algebra.GroupWithZero.Nat
import Altior.Crypto.Session
import Altior.Lib.Fnv

/-!
# The blob plane

The convergent chunk encryption of `altior-crypto/src/blob.rs`: a blob is split into
chunks of 64 KiB, each sealed under a key derived from its own content, and put
together again from a manifest and the chunks at hand.
-/

namespace Altior.Crypto

open Lib (toBeBytes)

/-- The primitives the blob plane takes from its dependencies, besides SHA-256. -/
class BlobPrimitives where
  /-- HKDF-SHA256 with a salt, expanded to a key under an info. -/
  expandKey : Option Bytes32 → Bytes32 → List UInt8 → Bytes32
  /-- The same, expanded to a nonce. -/
  expandNonce : Option Bytes32 → Bytes32 → List UInt8 → Vector UInt8 12
  /-- ChaCha20-Poly1305 under a key, a nonce and associated data; the tag is part of
  the result. -/
  sealBytes : Bytes32 → Vector UInt8 12 → List UInt8 → List UInt8 → List UInt8
  openBytes : Bytes32 → Vector UInt8 12 → List UInt8 → List UInt8 → Option (List UInt8)

/-- Bytes of the authentication tag. -/
def tagLen : Nat := 16

/-- What the blob plane relies on its AEAD for: what was sealed opens, and a
ciphertext is its plaintext with a tag. -/
class LawfulBlobAead [BlobPrimitives] : Prop where
  open_seal : ∀ (key : Bytes32) (nonce : Vector UInt8 12) (data plain : List UInt8),
    BlobPrimitives.openBytes key nonce data (BlobPrimitives.sealBytes key nonce data plain) =
      some plain
  seal_length : ∀ (key : Bytes32) (nonce : Vector UInt8 12) (data plain : List UInt8),
    (BlobPrimitives.sealBytes key nonce data plain).length = plain.length + tagLen
  open_length : ∀ {key : Bytes32} {nonce : Vector UInt8 12} {data cipher plain : List UInt8},
    BlobPrimitives.openBytes key nonce data cipher = some plain →
      cipher.length = plain.length + tagLen

/-- Largest plaintext chunk before splitting. -/
def blobChunkPlaintextMax : Nat := 64 * 1024

/-- The blob format version. -/
def blobFormatVersion : UInt8 := 1

/-- `altior/blob/chunk-key`. -/
def kdfDomain : List UInt8 := "altior/blob/chunk-key".toUTF8.toList

/-- `altior/blob/nonce`. -/
def nonceDomain : List UInt8 := "altior/blob/nonce".toUTF8.toList

/-- A chunk as it is stored. -/
structure ChunkCiphertext where
  /-- SHA-256 of the ciphertext. -/
  blobId : Bytes32
  /-- SHA-256 of the plaintext. -/
  contentHash : Bytes32
  ciphertext : List UInt8
deriving DecidableEq

/-- The pointer to a chunk. -/
structure ChunkManifestEntry where
  contentHash : Bytes32
  blobId : Bytes32
  ciphertextLen : Nat
deriving DecidableEq

/-- The chunks of a blob in order, and its size. -/
structure BlobManifest where
  totalSize : Nat
  entries : List ChunkManifestEntry
deriving DecidableEq

section

variable [Primitives] [BlobPrimitives]

omit [BlobPrimitives] in
/-- The identity of a whole blob. -/
def blobIdOf (manifest : BlobManifest) : Bytes32 :=
  Primitives.sha256 (manifest.entries.flatMap fun entry => entry.blobId.toList)

/-- The convergent key of a chunk. -/
def chunkKey (vaultKey contentHash : Bytes32) : Bytes32 :=
  BlobPrimitives.expandKey (some contentHash) vaultKey (kdfDomain ++ [blobFormatVersion])

/-- The nonce of one chunk of one content. -/
def chunkNonce (key : Bytes32) (chunkIndex : Nat) : Vector UInt8 12 :=
  BlobPrimitives.expandNonce none key (nonceDomain ++ blobFormatVersion :: toBeBytes chunkIndex)

def associatedData (contentHash : Bytes32) (chunkIndex totalChunks totalSize : Nat) : List UInt8 :=
  blobFormatVersion :: contentHash.toList ++ toBeBytes chunkIndex ++ toBeBytes totalChunks ++
    toBeBytes totalSize

/-- Consecutive slices, the last of them perhaps shorter. -/
def slices (plaintext : List UInt8) : List (List UInt8) :=
  if plaintext.isEmpty then [[]]
  else (List.range ((plaintext.length + (blobChunkPlaintextMax - 1)) / blobChunkPlaintextMax)).map
    fun i => (plaintext.drop (i * blobChunkPlaintextMax)).take blobChunkPlaintextMax

/-- One chunk, sealed at its place in the blob. -/
def sealChunk (vaultKey : Bytes32) (totalChunks totalSize chunkIndex : Nat)
    (chunk : List UInt8) : ChunkCiphertext :=
  let contentHash := Primitives.sha256 chunk
  let key := chunkKey vaultKey contentHash
  let ciphertext := BlobPrimitives.sealBytes key (chunkNonce key chunkIndex)
    (associatedData contentHash chunkIndex totalChunks totalSize) chunk
  ⟨Primitives.sha256 ciphertext, contentHash, ciphertext⟩

/-- The manifest entry of a chunk. -/
def ChunkCiphertext.entry (chunk : ChunkCiphertext) : ChunkManifestEntry :=
  ⟨chunk.contentHash, chunk.blobId, chunk.ciphertext.length⟩

/-- Splits and encrypts a blob.  An empty one is one empty chunk. -/
def splitAndEncrypt (vaultKey : Bytes32) (plaintext : List UInt8) :
    List ChunkCiphertext × BlobManifest :=
  let slices := slices plaintext
  let chunks := slices.mapIdx (sealChunk vaultKey slices.length plaintext.length)
  (chunks, ⟨plaintext.length, chunks.map ChunkCiphertext.entry⟩)

/-- The bytes `decrypt_and_reassemble` reserves before it opens the first chunk. -/
def BlobManifest.reserved (manifest : BlobManifest) : Nat := min manifest.totalSize u64Max

/-- Opens the chunks of the entries from an index on and appends them to the
plaintext. -/
def reassembleFrom (vaultKey : Bytes32) (manifest : BlobManifest)
    (chunks : Bytes32 → Option (List UInt8)) :
    Nat → List ChunkManifestEntry → List UInt8 → Except CryptoError (List UInt8)
  | _, [], plaintext => .ok plaintext
  | index, entry :: entries, plaintext =>
    match chunks entry.blobId with
    | none => .error (.blobChunkMissing index entry.blobId)
    | some ciphertext =>
      if ciphertext.length ≠ entry.ciphertextLen then .error (.blobChunkMismatch index)
      else
        let key := chunkKey vaultKey entry.contentHash
        match BlobPrimitives.openBytes key (chunkNonce key index)
            (associatedData entry.contentHash index manifest.entries.length manifest.totalSize)
            ciphertext with
        | none => .error .envelopeOpen
        | some chunk =>
          if Primitives.sha256 chunk ≠ entry.contentHash then
            .error (.blobChunkMismatch index)
          else reassembleFrom vaultKey manifest chunks (index + 1) entries (plaintext ++ chunk)

/-- Decrypts a blob and puts it together from the chunks under their ids. -/
def decryptAndReassemble (vaultKey : Bytes32) (manifest : BlobManifest)
    (chunks : Bytes32 → Option (List UInt8)) : Except CryptoError (List UInt8) :=
  match reassembleFrom vaultKey manifest chunks 0 manifest.entries [] with
  | .error e => .error e
  | .ok plaintext =>
    if plaintext.length ≠ manifest.totalSize then
      .error (.blobChunkMismatch manifest.entries.length)
    else .ok plaintext

end

/-! ## What a manifest yields -/

/-- The most plaintext that chunks of the announced lengths can hold. -/
def BlobManifest.yields (manifest : BlobManifest) : Nat :=
  (manifest.entries.map fun entry => entry.ciphertextLen - tagLen).sum

theorem flatten_slices_range (l : List UInt8) (n count : Nat) :
    ((List.range count).map fun i => (l.drop (i * n)).take n).flatten = l.take (count * n) := by
  induction count with
  | zero => simp
  | succ count ih =>
    rw [List.range_succ, List.map_append, List.flatten_append, ih, Nat.succ_mul, List.take_add]
    simp

/-- The slices of a plaintext, one after the other, are the plaintext. -/
theorem slices_flatten (plaintext : List UInt8) : (slices plaintext).flatten = plaintext := by
  unfold slices
  split
  · rename_i hempty
    rw [List.isEmpty_iff.1 hempty]
    rfl
  · rw [flatten_slices_range, List.take_of_length_le]
    have hdiv := Nat.lt_mul_div_succ (plaintext.length + (blobChunkPlaintextMax - 1))
      (by decide : 0 < blobChunkPlaintextMax)
    simp only [blobChunkPlaintextMax] at hdiv ⊢
    omega

theorem slice_length_le {plaintext chunk : List UInt8} (h : chunk ∈ slices plaintext) :
    chunk.length ≤ blobChunkPlaintextMax := by
  unfold slices at h
  split at h
  · rw [List.mem_singleton.1 h]
    exact Nat.zero_le _
  · obtain ⟨i, -, rfl⟩ := List.mem_map.1 h
    exact List.length_take_le _ _

section

variable [Primitives] [BlobPrimitives] [LawfulBlobAead]

theorem sealChunk_length (vaultKey : Bytes32) (totalChunks totalSize chunkIndex : Nat)
    (chunk : List UInt8) :
    (sealChunk vaultKey totalChunks totalSize chunkIndex chunk).ciphertext.length =
      chunk.length + tagLen :=
  LawfulBlobAead.seal_length ..

/-- A manifest of one's own yields exactly the blob. -/
theorem splitAndEncrypt_yields (vaultKey : Bytes32) (plaintext : List UInt8) :
    (splitAndEncrypt vaultKey plaintext).2.yields = plaintext.length := by
  have hlengths (f : Nat → List UInt8 → ChunkCiphertext) (parts : List (List UInt8))
      (hf : ∀ index chunk, (f index chunk).ciphertext.length = chunk.length + tagLen) :
      ((parts.mapIdx f).map fun chunk => chunk.ciphertext.length - tagLen).sum =
        parts.flatten.length := by
    induction parts generalizing f with
    | nil => rfl
    | cons chunk parts ih =>
      rw [List.mapIdx_cons, List.map_cons, List.sum_cons, ih _ fun index part => hf _ part, hf,
        Nat.add_sub_cancel, List.flatten_cons, List.length_append]
  unfold splitAndEncrypt BlobManifest.yields
  dsimp only
  rw [List.map_map]
  exact (hlengths _ _ fun index chunk => sealChunk_length ..).trans
    (congrArg List.length (slices_flatten plaintext))

/-- The chunks of one's own are short. -/
theorem splitAndEncrypt_entry_le {vaultKey : Bytes32} {plaintext : List UInt8}
    {entry : ChunkManifestEntry} (h : entry ∈ (splitAndEncrypt vaultKey plaintext).2.entries) :
    entry.ciphertextLen ≤ u64Max := by
  obtain ⟨chunk, hchunk, rfl⟩ := List.mem_map.1 h
  obtain ⟨i, hi, rfl⟩ := List.mem_mapIdx.1 hchunk
  have hlength := slice_length_le (List.getElem_mem hi)
  simp only [ChunkCiphertext.entry, sealChunk_length, blobChunkPlaintextMax, tagLen, u64Max] at hlength ⊢
  omega

end

/-! ## An instance -/

/-- A tag over everything it authenticates: sixteen times the sum of the bytes. -/
def sumTag (key : Bytes32) (nonce : Vector UInt8 12) (data plain : List UInt8) : List UInt8 :=
  List.replicate tagLen ((key.toList ++ nonce.toList ++ data ++ plain).foldl (· + ·) 0)

/-- Takes the tag off if it is the right one. -/
def checkTag (key : Bytes32) (nonce : Vector UInt8 12) (data cipher : List UInt8) :
    Option (List UInt8) :=
  let plain := cipher.take (cipher.length - tagLen)
  if tagLen ≤ cipher.length ∧ cipher.drop (cipher.length - tagLen) = sumTag key nonce data plain
  then some plain else none

theorem length_sumTag (key : Bytes32) (nonce : Vector UInt8 12) (data plain : List UInt8) :
    (plain ++ sumTag key nonce data plain).length = plain.length + tagLen := by
  rw [List.length_append, sumTag, List.length_replicate]

theorem checkTag_sumTag (key : Bytes32) (nonce : Vector UInt8 12) (data plain : List UInt8) :
    checkTag key nonce data (plain ++ sumTag key nonce data plain) = some plain := by
  have hcut : (plain ++ sumTag key nonce data plain).length - tagLen = plain.length := by
    rw [length_sumTag, Nat.add_sub_cancel]
  unfold checkTag
  dsimp only
  rw [hcut, List.take_left, List.drop_left, if_pos]
  exact ⟨length_sumTag key nonce data plain ▸ Nat.le_add_left _ _, rfl⟩

theorem length_of_checkTag {key : Bytes32} {nonce : Vector UInt8 12} {data cipher plain : List UInt8}
    (h : checkTag key nonce data cipher = some plain) : cipher.length = plain.length + tagLen := by
  unfold checkTag at h
  dsimp only at h
  split at h
  · rename_i hcut
    cases h
    rw [List.length_take]
    have := hcut.1
    omega
  · cases h

/-- Primitives that append a checksum. -/
abbrev checksumBlob : BlobPrimitives where
  expandKey salt ikm _ := Vector.zipWith (· + ·) (salt.getD zero32) ikm
  expandNonce _ _ info := Vector.replicate 12 (info.foldl (· + ·) 0)
  sealBytes key nonce data plain := plain ++ sumTag key nonce data plain
  openBytes := checkTag

theorem checksum_lawful : @LawfulBlobAead checksumBlob :=
  letI := checksumBlob
  ⟨checkTag_sumTag, length_sumTag, length_of_checkTag⟩

end Altior.Crypto
