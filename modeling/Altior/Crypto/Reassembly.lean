import Mathlib.Data.List.Forall2
import Altior.Crypto.Blob

/-!
# When a blob is put together

A manifest and the chunks at hand give exactly the blob that was split iff each of
its chunks is there, sealed as the split sealed it.
-/

namespace Altior.Crypto

open List (Forall₂)

/-- What reassembly relies on the AEAD for besides: a ciphertext that opens is the one
its plaintext seals to. -/
class ExactBlobAead [BlobPrimitives] : Prop where
  seal_of_open : ∀ {key : Bytes32} {nonce : Vector UInt8 12} {data cipher plain : List UInt8},
    BlobPrimitives.openBytes key nonce data cipher = some plain →
      BlobPrimitives.sealBytes key nonce data plain = cipher

/-- A tag that is accepted is the one that is appended. -/
theorem sumTag_of_checkTag {key : Bytes32} {nonce : Vector UInt8 12} {data cipher plain : List UInt8}
    (h : checkTag key nonce data cipher = some plain) : plain ++ sumTag key nonce data plain = cipher := by
  unfold checkTag at h
  dsimp only at h
  split at h
  · rename_i hcut
    cases h
    rw [← hcut.2, List.take_append_drop]
  · cases h

theorem checksum_exact : @ExactBlobAead checksumBlob :=
  letI := checksumBlob
  ⟨sumTag_of_checkTag⟩

/-- The lengths of the slices are those of any plaintext of the same length. -/
theorem slices_lengths {plaintext plaintext' : List UInt8}
    (hlength : plaintext.length = plaintext'.length) :
    Forall₂ (fun part part' => part.length = part'.length) (slices plaintext) (slices plaintext') := by
  unfold slices
  have hempty : plaintext.isEmpty = plaintext'.isEmpty := by
    rw [Bool.eq_iff_iff, List.isEmpty_iff_length_eq_zero, List.isEmpty_iff_length_eq_zero, hlength]
  rw [hempty, hlength]
  split
  · exact .cons rfl .nil
  · rw [List.forall₂_map_left_iff, List.forall₂_map_right_iff, List.forall₂_same]
    intro i _
    rw [List.length_take, List.length_take, List.length_drop, List.length_drop, hlength]

/-- A full chunk and what is left. -/
theorem slices_append {part rest : List UInt8} (hpart : part.length = blobChunkPlaintextMax)
    (hrest : 0 < rest.length) (hshort : rest.length ≤ blobChunkPlaintextMax) :
    slices (part ++ rest) = [part, rest] := by
  have hlength : (part ++ rest).length = blobChunkPlaintextMax + rest.length := by
    rw [List.length_append, hpart]
  have hcount : (blobChunkPlaintextMax + rest.length + (blobChunkPlaintextMax - 1)) /
      blobChunkPlaintextMax = 2 := by
    unfold blobChunkPlaintextMax at hshort ⊢
    omega
  have hnonempty : ¬ (part ++ rest).isEmpty := by
    rw [List.isEmpty_iff_length_eq_zero]
    omega
  unfold slices
  rw [if_neg hnonempty, hlength, hcount]
  show [((part ++ rest).drop (0 * blobChunkPlaintextMax)).take blobChunkPlaintextMax,
    ((part ++ rest).drop (1 * blobChunkPlaintextMax)).take blobChunkPlaintextMax] = [part, rest]
  rw [Nat.zero_mul, Nat.one_mul, List.drop_zero, List.take_left' hpart, List.drop_left' hpart,
    List.take_of_length_le hshort]

section

variable [Primitives] [BlobPrimitives] {vaultKey : Bytes32} {manifest : BlobManifest}
  {chunks : Bytes32 → Option (List UInt8)}

/-- What is put together starts with what was there. -/
theorem reassembleFrom_prefix {index : Nat} {entries : List ChunkManifestEntry}
    {start plaintext : List UInt8}
    (h : reassembleFrom vaultKey manifest chunks index entries start = .ok plaintext) :
    start <+: plaintext := by
  induction entries generalizing index start with
  | nil =>
    cases h
    exact List.prefix_rfl
  | cons entry entries ih =>
    unfold reassembleFrom at h
    split at h
    · cases h
    split at h
    · cases h
    dsimp only at h
    split at h
    · cases h
    split at h
    · cases h
    exact (List.prefix_append _ _).trans (ih h)

variable [LawfulBlobAead] [ExactBlobAead]

/-- One entry: its chunk is at hand, sealed from the plaintext it opens to. -/
theorem reassembleFrom_cons_iff {index : Nat} {entry : ChunkManifestEntry}
    {entries : List ChunkManifestEntry} {start part rest : List UInt8}
    (hfits : entry.ciphertextLen = part.length + tagLen) :
    reassembleFrom vaultKey manifest chunks index (entry :: entries) start =
        .ok (start ++ (part ++ rest)) ↔
      (entry.contentHash =
          (sealChunk vaultKey manifest.entries.length manifest.totalSize index part).contentHash ∧
        chunks entry.blobId =
          some (sealChunk vaultKey manifest.entries.length manifest.totalSize index part).ciphertext) ∧
      reassembleFrom vaultKey manifest chunks (index + 1) entries (start ++ part) =
        .ok (start ++ part ++ rest) := by
  conv_lhs => unfold reassembleFrom
  constructor
  · intro h
    split at h
    · cases h
    rename_i ciphertext hchunk
    split at h
    · cases h
    rename_i hlength
    dsimp only at h
    split at h
    · cases h
    rename_i chunk hopen
    split at h
    · cases h
    rename_i hhash
    rw [not_not] at hlength hhash
    -- The chunk is as long as the part, and the blob goes on with it.
    have hpart : chunk = part := by
      obtain ⟨tail, htail⟩ := reassembleFrom_prefix h
      rw [List.append_assoc, List.append_cancel_left_eq] at htail
      refine (List.append_inj htail ?_).1
      have := LawfulBlobAead.open_length hopen
      omega
    subst hpart
    rw [← List.append_assoc] at h
    refine ⟨⟨hhash.symm, ?_⟩, h⟩
    rw [hchunk, ← ExactBlobAead.seal_of_open hopen, ← hhash]
    rfl
  · rintro ⟨⟨hhash, hchunk⟩, hrest⟩
    rw [hchunk]
    dsimp only
    rw [if_neg (by rw [sealChunk_length, hfits]; exact not_not.2 rfl), hhash]
    simp only [sealChunk, LawfulBlobAead.open_seal, ne_eq, not_true_eq_false, if_false]
    rw [hrest, List.append_assoc]

/-- Entries of the lengths of some parts give these parts iff each of them is at hand,
sealed at its place. -/
theorem reassembleFrom_iff {index : Nat} {entries : List ChunkManifestEntry}
    {parts : List (List UInt8)} {start : List UInt8}
    (hfits : Forall₂ (fun (entry : ChunkManifestEntry) part =>
      entry.ciphertextLen = part.length + tagLen) entries parts) :
    reassembleFrom vaultKey manifest chunks index entries start = .ok (start ++ parts.flatten) ↔
      Forall₂ (fun (entry : ChunkManifestEntry) (chunk : ChunkCiphertext) =>
          entry.contentHash = chunk.contentHash ∧ chunks entry.blobId = some chunk.ciphertext)
        entries (parts.mapIdx fun i =>
          sealChunk vaultKey manifest.entries.length manifest.totalSize (index + i)) := by
  induction hfits generalizing index start with
  | nil => simp [reassembleFrom]
  | cons hentry _ ih =>
    rw [List.flatten_cons, reassembleFrom_cons_iff hentry, ih, List.mapIdx_cons,
      List.forall₂_cons]
    simp only [Nat.add_zero, Nat.add_assoc, Nat.add_comm 1]

/-- **Reassembly.**  The manifest of a blob gives some bytes iff they are as many as the
blob has, and each chunk they split into has the content hash of its entry and is at
hand under the id of its entry. -/
theorem decryptAndReassemble_iff {vaultKey' : Bytes32} {bytes bytes' : List UInt8} :
    decryptAndReassemble vaultKey (splitAndEncrypt vaultKey' bytes').2 chunks = .ok bytes ↔
      bytes.length = bytes'.length ∧
        Forall₂ (fun (chunk' chunk : ChunkCiphertext) =>
            chunk'.contentHash = chunk.contentHash ∧ chunks chunk'.blobId = some chunk.ciphertext)
          (splitAndEncrypt vaultKey' bytes').1 (splitAndEncrypt vaultKey bytes).1 := by
  have hsize : (splitAndEncrypt vaultKey' bytes').2.totalSize = bytes'.length := rfl
  have hentries : (splitAndEncrypt vaultKey' bytes').2.entries =
      (splitAndEncrypt vaultKey' bytes').1.map ChunkCiphertext.entry := rfl
  -- With the lengths equal, the entries have the lengths of the parts.
  have hparts (hlength : bytes.length = bytes'.length) :
      reassembleFrom vaultKey (splitAndEncrypt vaultKey' bytes').2 chunks 0
          (splitAndEncrypt vaultKey' bytes').2.entries [] = .ok bytes ↔
        Forall₂ (fun (chunk' chunk : ChunkCiphertext) =>
            chunk'.contentHash = chunk.contentHash ∧ chunks chunk'.blobId = some chunk.ciphertext)
          (splitAndEncrypt vaultKey' bytes').1 (splitAndEncrypt vaultKey bytes).1 := by
    have hslices := slices_lengths hlength.symm
    have hcount : (splitAndEncrypt vaultKey' bytes').2.entries.length = (slices bytes).length := by
      rw [hentries, List.length_map, ← hslices.length_eq]
      exact List.length_mapIdx
    have hfits : Forall₂ (fun (entry : ChunkManifestEntry) part =>
        entry.ciphertextLen = part.length + tagLen)
        (splitAndEncrypt vaultKey' bytes').2.entries (slices bytes) := by
      rw [hentries, List.forall₂_map_left_iff, List.forall₂_iff_get]
      refine ⟨List.length_mapIdx.trans hslices.length_eq, fun i hi hi' => ?_⟩
      have hi₀ : i < (slices bytes').length := List.length_mapIdx (l := slices bytes') ▸ hi
      have hpart := (List.forall₂_iff_get.1 hslices).2 i hi₀ hi'
      simp only [splitAndEncrypt, ChunkCiphertext.entry, List.get_eq_getElem, List.getElem_mapIdx,
        sealChunk_length] at hpart ⊢
      rw [hpart]
    have hwhole := @reassembleFrom_iff _ _ vaultKey (splitAndEncrypt vaultKey' bytes').2 chunks _ _ 0
      _ _ [] hfits
    rw [List.nil_append, slices_flatten, hcount, hsize, ← hlength] at hwhole
    rw [hwhole, hentries, List.forall₂_map_left_iff]
    simp only [Nat.zero_add]
    rfl
  unfold decryptAndReassemble
  constructor
  · intro h
    split at h
    · cases h
    rename_i whole hwhole
    split at h
    · cases h
    rename_i hlength
    cases h
    exact ⟨not_not.1 hlength, (hparts (not_not.1 hlength)).1 hwhole⟩
  · rintro ⟨hlength, hall⟩
    rw [(hparts hlength).2 hall]
    dsimp only
    rw [hsize, if_neg (not_not.2 hlength)]

end

end Altior.Crypto
