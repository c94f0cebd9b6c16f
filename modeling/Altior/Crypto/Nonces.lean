import Mathlib.Data.Set.Insert
import Altior.Crypto.Reassembly
import Altior.Lib.Encoding

/-!
# Keys and nonces of blobs

Which keys and nonces `split_and_encrypt` uses, and when one of these pairs is used for
two different sealings.
-/

namespace Altior.Crypto

open Lib (toBeBytes toBeBytes_eq_toBe delimited_toBe)

theorem toBeBytes_inj {n m : Nat} (hn : n ≤ u64Max) (hm : m ≤ u64Max)
    (h : toBeBytes n = toBeBytes m) : n = m := by
  have hfits {a : Nat} (ha : a ≤ u64Max) : a < 256 ^ 8 := Nat.lt_of_le_of_lt ha (by decide)
  rw [toBeBytes_eq_toBe, toBeBytes_eq_toBe] at h
  exact (delimited_toBe 8).inj (hfits hn) (hfits hm) h

section

variable [Primitives] [BlobPrimitives]

/-- What one call of the AEAD is given. -/
structure Sealing where
  key : Bytes32
  nonce : Vector UInt8 12
  data : List UInt8
  plain : List UInt8

/-- The sealings of a blob, chunk by chunk. -/
def sealings (vaultKey : Bytes32) (plaintext : List UInt8) : List Sealing :=
  (slices plaintext).mapIdx fun index chunk =>
    let contentHash := Primitives.sha256 chunk
    let key := chunkKey vaultKey contentHash
    ⟨key, chunkNonce key index,
      associatedData contentHash index (slices plaintext).length plaintext.length, chunk⟩

/-- **No nonce is used twice**: a key and a nonce seal one plaintext under one set of
associated data. -/
def NeverReuses (vaultKey : Bytes32) (plaintexts : Set (List UInt8)) : Prop :=
  ∀ p ∈ plaintexts, ∀ q ∈ plaintexts, ∀ s ∈ sealings vaultKey p, ∀ t ∈ sealings vaultKey q,
    s.key = t.key → s.nonce = t.nonce → s.data = t.data ∧ s.plain = t.plain

/-- SHA-256 and HKDF do not collide on what the blobs hold. -/
structure CollisionFree (vaultKey : Bytes32) (plaintexts : Set (List UInt8)) : Prop where
  hash : ∀ p ∈ plaintexts, ∀ q ∈ plaintexts, ∀ chunk ∈ slices p, ∀ chunk' ∈ slices q,
    Primitives.sha256 chunk = Primitives.sha256 chunk' → chunk = chunk'
  key : ∀ contentHash contentHash', chunkKey vaultKey contentHash = chunkKey vaultKey contentHash' →
    contentHash = contentHash'
  nonce : ∀ key index index', index ≤ u64Max → index' ≤ u64Max →
    chunkNonce key index = chunkNonce key index' → index = index'

end

/-- Blobs of different lengths have no chunk in common at the same place. -/
def SharesNoChunk (plaintexts : Set (List UInt8)) : Prop :=
  ∀ p ∈ plaintexts, ∀ q ∈ plaintexts, p.length ≠ q.length →
    ∀ (index : Nat) (chunk : List UInt8), (slices p)[index]? = some chunk →
      (slices q)[index]? ≠ some chunk

/-- A plaintext that fits one chunk. -/
theorem slices_short {part : List UInt8} (hpart : 0 < part.length)
    (hle : part.length ≤ blobChunkPlaintextMax) : slices part = [part] := by
  have hcount : (part.length + (blobChunkPlaintextMax - 1)) / blobChunkPlaintextMax = 1 := by
    unfold blobChunkPlaintextMax at hle ⊢
    omega
  have hnonempty : ¬ part.isEmpty := by
    rw [List.isEmpty_iff_length_eq_zero]
    omega
  unfold slices
  rw [if_neg hnonempty, hcount]
  show [(part.drop (0 * blobChunkPlaintextMax)).take blobChunkPlaintextMax] = [part]
  rw [Nat.zero_mul, List.drop_zero, List.take_of_length_le hle]

theorem length_slices_le (plaintext : List UInt8) :
    (slices plaintext).length ≤ plaintext.length + 1 := by
  unfold slices
  split
  · exact Nat.le_add_left _ _
  · rw [List.length_map, List.length_range]
    unfold blobChunkPlaintextMax
    omega

section

variable [Primitives] [BlobPrimitives]

/-- A sealing is one chunk at its place. -/
theorem mem_sealings {vaultKey : Bytes32} {plaintext : List UInt8} {s : Sealing}
    (h : s ∈ sealings vaultKey plaintext) : ∃ (index : Nat) (chunk : List UInt8),
      (slices plaintext)[index]? = some chunk ∧ chunk ∈ slices plaintext ∧
        index < (slices plaintext).length ∧
        s = ⟨chunkKey vaultKey (Primitives.sha256 chunk),
          chunkNonce (chunkKey vaultKey (Primitives.sha256 chunk)) index,
          associatedData (Primitives.sha256 chunk) index (slices plaintext).length plaintext.length,
          chunk⟩ := by
  obtain ⟨index, hindex, rfl⟩ := List.mem_mapIdx.1 h
  exact ⟨index, _, List.getElem?_eq_getElem hindex, List.getElem_mem hindex, hindex, rfl⟩

theorem sealing_mem {vaultKey : Bytes32} {plaintext chunk : List UInt8} {index : Nat}
    (h : (slices plaintext)[index]? = some chunk) :
    ⟨chunkKey vaultKey (Primitives.sha256 chunk),
      chunkNonce (chunkKey vaultKey (Primitives.sha256 chunk)) index,
      associatedData (Primitives.sha256 chunk) index (slices plaintext).length plaintext.length,
      chunk⟩ ∈ sealings vaultKey plaintext := by
  obtain ⟨hindex, rfl⟩ := List.getElem?_eq_some_iff.1 h
  exact List.mem_mapIdx.2 ⟨index, hindex, rfl⟩

omit [Primitives] [BlobPrimitives] in
/-- The size is in the associated data. -/
theorem associatedData_size {contentHash : Bytes32} {index total total' size size' : Nat}
    (h : associatedData contentHash index total size = associatedData contentHash index total' size') :
    toBeBytes size = toBeBytes size' :=
  (List.append_inj' h rfl).2

/-- Two blobs with a chunk in common at one place and no nonce used twice have one length. -/
theorem NeverReuses.length_eq {vaultKey : Bytes32} {plaintexts : Set (List UInt8)}
    (h : NeverReuses vaultKey plaintexts) (hsize : ∀ p ∈ plaintexts, p.length < u64Max)
    {p q chunk : List UInt8} (hp : p ∈ plaintexts) (hq : q ∈ plaintexts) {index : Nat}
    (hchunk : (slices p)[index]? = some chunk) (hchunk' : (slices q)[index]? = some chunk) :
    p.length = q.length := by
  have hdata := (h p hp q hq _ (sealing_mem hchunk) _ (sealing_mem hchunk') rfl rfl).1
  exact toBeBytes_inj (Nat.le_of_lt (hsize p hp)) (Nat.le_of_lt (hsize q hq))
    (associatedData_size hdata)

/-- **Nonces of blobs.**  Where SHA-256 and HKDF do not collide, a key and a nonce are used
for two sealings iff two blobs of different lengths have a chunk in common at one place. -/
theorem neverReuses_iff (vaultKey : Bytes32) (plaintexts : Set (List UInt8))
    (hfree : CollisionFree vaultKey plaintexts) (hsize : ∀ p ∈ plaintexts, p.length < u64Max) :
    NeverReuses vaultKey plaintexts ↔ SharesNoChunk plaintexts := by
  constructor
  · exact fun hnever p hp q hq hne index chunk hchunk hchunk' =>
      hne (hnever.length_eq hsize hp hq hchunk hchunk')
  · intro hshares p hp q hq s hs t ht hkey hnonce
    obtain ⟨index, chunk, hchunk, hmem, hlt, rfl⟩ := mem_sealings hs
    obtain ⟨index', chunk', hchunk', hmem', hlt', rfl⟩ := mem_sealings ht
    have hle := (Nat.le_of_lt_succ (Nat.lt_of_lt_of_le hlt (length_slices_le p))).trans_lt (hsize p hp)
    have hle' := (Nat.le_of_lt_succ (Nat.lt_of_lt_of_le hlt' (length_slices_le q))).trans_lt
      (hsize q hq)
    -- The key tells the chunk, and then the nonce tells the place.
    obtain rfl := hfree.hash p hp q hq chunk hmem chunk' hmem' (hfree.key _ _ hkey)
    obtain rfl := hfree.nonce _ _ _ (Nat.le_of_lt hle) (Nat.le_of_lt hle') hnonce
    have hlength : p.length = q.length := by
      by_contra hne
      exact hshares p hp q hq hne index chunk hchunk hchunk'
    refine ⟨?_, rfl⟩
    dsimp only
    rw [hlength, (slices_lengths hlength).length_eq]

end

/-! ## A prefix and its extension -/

/-- Blob primitives whose nonces are the end of what they are derived from. -/
abbrev indexedBlob : BlobPrimitives where
  expandKey salt ikm _ := Vector.zipWith (· + ·) (salt.getD zero32) ikm
  expandNonce _ _ info := Vector.ofFn fun i => (info.drop (info.length - 12))[i.val]?.getD 0
  sealBytes key nonce data plain := plain ++ sumTag key nonce data plain
  openBytes := checkTag

section Sample

local instance : Primitives := ideal Unit

local instance : BlobPrimitives := indexedBlob

theorem length_nonceDomain : nonceDomain.length = 17 := by decide +kernel

theorem chunkNonce_inj (key : Bytes32) (index index' : Nat) (hle : index ≤ u64Max)
    (hle' : index' ≤ u64Max) (h : chunkNonce key index = chunkNonce key index') : index = index' := by
  have hlength (n : Nat) : (nonceDomain ++ blobFormatVersion :: toBeBytes n).length = 26 := by
    rw [List.length_append, length_nonceDomain]
    rfl
  have hend (n : Nat) : (nonceDomain ++ blobFormatVersion :: toBeBytes n).drop
      ((nonceDomain ++ blobFormatVersion :: toBeBytes n).length - 12) =
      nonceDomain.drop 14 ++ blobFormatVersion :: toBeBytes n := by
    rw [hlength, List.drop_append_of_le_length (by rw [length_nonceDomain]; decide)]
  have hshort (n : Nat) : (nonceDomain.drop 14 ++ blobFormatVersion :: toBeBytes n).length = 12 := by
    rw [List.length_append, List.length_drop, length_nonceDomain]
    rfl
  change (Vector.ofFn fun i : Fin 12 => _) = Vector.ofFn fun i : Fin 12 => _ at h
  have hbytes (i : Nat) (hi : i < 12) := congrArg (fun v : Vector UInt8 12 => v[i]) h
  simp only [Vector.getElem_ofFn, hend] at hbytes
  have hlist : nonceDomain.drop 14 ++ blobFormatVersion :: toBeBytes index =
      nonceDomain.drop 14 ++ blobFormatVersion :: toBeBytes index' := by
    refine List.ext_getElem ((hshort _).trans (hshort _).symm) fun i hi hi' => ?_
    have := hbytes i (hshort index ▸ hi)
    rwa [List.getElem?_eq_getElem hi, List.getElem?_eq_getElem hi'] at this
  exact toBeBytes_inj hle hle' ((List.cons_inj_right _).1 ((List.append_cancel_left_eq ..).mp hlist))

theorem chunkKey_inj (vaultKey contentHash contentHash' : Bytes32)
    (h : chunkKey vaultKey contentHash = chunkKey vaultKey contentHash') :
    contentHash = contentHash' := by
  apply Vector.ext
  intro i hi
  have hbyte := congrArg (fun v : Bytes32 => v[i]) h
  change (Vector.zipWith (· + ·) contentHash vaultKey)[i] =
    (Vector.zipWith (· + ·) contentHash' vaultKey)[i] at hbyte
  rw [Vector.getElem_zipWith, Vector.getElem_zipWith] at hbyte
  exact (UInt8.add_left_inj _).1 hbyte

/-- As many ones as fill a chunk. -/
def fullChunk : List UInt8 := List.replicate blobChunkPlaintextMax 1

/-- A blob of one chunk, and the same blob with one byte more. -/
def extended : Set (List UInt8) := {fullChunk, fullChunk ++ [1]}

theorem slices_fullChunk : slices fullChunk = [fullChunk] :=
  slices_short (by rw [fullChunk, List.length_replicate]; decide) (Nat.le_of_eq List.length_replicate)

theorem slices_extended : slices (fullChunk ++ [1]) = [fullChunk, [1]] :=
  slices_append List.length_replicate Nat.one_pos (by decide)

/-- The second byte tells the two chunks apart. -/
theorem sha256_fullChunk_ne : Primitives.sha256 fullChunk ≠ Primitives.sha256 [1] := by
  intro h
  have hbyte := congrArg (fun v : Bytes32 => v[1]) h
  change (Vector.ofFn fun i : Fin 32 => fullChunk[i.val]?.getD 0)[1] =
    (Vector.ofFn fun i : Fin 32 => ([1] : List UInt8)[i.val]?.getD 0)[1] at hbyte
  rw [Vector.getElem_ofFn, Vector.getElem_ofFn, fullChunk, List.getElem?_replicate,
    if_pos (by decide)] at hbyte
  cases hbyte

theorem collisionFree_extended (vaultKey : Bytes32) : CollisionFree vaultKey extended where
  hash p hp q hq chunk hchunk chunk' hchunk' h := by
    have hone {p : List UInt8} (hp : p ∈ extended) {chunk : List UInt8} (hchunk : chunk ∈ slices p) :
        chunk = fullChunk ∨ chunk = [1] := by
      rcases hp with rfl | rfl
      · rw [slices_fullChunk] at hchunk
        exact .inl (List.mem_singleton.1 hchunk)
      · rw [slices_extended] at hchunk
        simpa using hchunk
    rcases hone hp hchunk with rfl | rfl <;> rcases hone hq hchunk' with rfl | rfl
    · rfl
    · exact absurd h sha256_fullChunk_ne
    · exact absurd h.symm sha256_fullChunk_ne
    · rfl
  key := chunkKey_inj vaultKey
  nonce := chunkNonce_inj

theorem length_extended : ∀ p ∈ extended, p.length < u64Max := by
  rintro p (rfl | rfl)
  · rw [fullChunk, List.length_replicate]
    decide
  · rw [List.length_append, fullChunk, List.length_replicate]
    decide

theorem neverReuses_extended : NeverReuses zero32 extended ↔ SharesNoChunk extended :=
  neverReuses_iff zero32 extended (collisionFree_extended zero32) length_extended

end Sample

/-- A full chunk is sealed under one key and nonce in both blobs, for two sizes. -/
theorem nonce_reused_for_longer_blob :
    ¬ ∀ (primitives : Primitives) (blob : BlobPrimitives) (vaultKey : Bytes32)
        (plaintexts : Set (List UInt8)), @CollisionFree primitives blob vaultKey plaintexts →
        (∀ p ∈ plaintexts, p.length < u64Max) →
        @NeverReuses primitives blob vaultKey plaintexts := by
  intro h
  have hnever := h (ideal Unit) indexedBlob zero32 extended (collisionFree_extended zero32)
    length_extended
  have hfirst : (slices fullChunk)[0]? = some fullChunk := by rw [slices_fullChunk]; rfl
  have hfirst' : (slices (fullChunk ++ [1]))[0]? = some fullChunk := by rw [slices_extended]; rfl
  have hlength := @NeverReuses.length_eq (ideal Unit) indexedBlob _ _ hnever length_extended _ _ _
    (.inl rfl) (.inr rfl) 0 hfirst hfirst'
  rw [List.length_append, List.length_singleton] at hlength
  omega

end Altior.Crypto
