import Mathlib.Data.List.Induction
import Altior.Crypto.Nonces

/-!
# Blobs that were tampered with

What `decrypt_and_reassemble` makes of the manifest and the chunks of a blob after one
of the two was changed.
-/

namespace Altior.Crypto

open Lib (toBeBytes)
open List (Forall₂)

/-- Chunks under their ids, as they are collected into a map. -/
def chunkMap (chunks : List ChunkCiphertext) : Bytes32 → Option (List UInt8) :=
  chunks.foldl
    (fun map chunk id => if id = chunk.blobId then some chunk.ciphertext else map id) fun _ => none

/-- A map holds a ciphertext under each id that is there. -/
theorem chunkMap_eq_some {chunks : List ChunkCiphertext} {id : Bytes32} (h : ∃ chunk ∈ chunks, chunk.blobId = id) :
    ∃ chunk ∈ chunks, chunk.blobId = id ∧ chunkMap chunks id = some chunk.ciphertext := by
  unfold chunkMap
  induction chunks using List.reverseRecOn with
  | nil =>
    obtain ⟨chunk, hmem, -⟩ := h
    exact absurd hmem List.not_mem_nil
  | append_singleton chunks last ih =>
    rw [List.foldl_append]
    by_cases hlast : id = last.blobId
    · exact ⟨last, List.mem_append_right _ (List.mem_singleton_self _), hlast.symm, if_pos hlast⟩
    · obtain ⟨chunk, hmem, hid⟩ := h
      have hmem' : chunk ∈ chunks := by
        rcases List.mem_append.1 hmem with hmem | hmem
        · exact hmem
        · rw [List.mem_singleton.1 hmem] at hid
          exact absurd hid.symm hlast
      obtain ⟨chunk', hmem', hid', hmap⟩ := ih ⟨chunk, hmem', hid⟩
      exact ⟨chunk', List.mem_append_left _ hmem', hid', (if_neg hlast).trans hmap⟩

variable {plaintext : List UInt8}

section

variable [Primitives] [BlobPrimitives]

/-- What a blob relies on its primitives for: no other bytes have the hash of one of its
chunks, two of its ciphertexts with one id are equal, and each of them opens under no
associated data but its own. -/
structure SoundBlob (vaultKey : Bytes32) (plaintext : List UInt8) : Prop where
  hash : ∀ chunk ∈ slices plaintext, ∀ other,
    Primitives.sha256 other = Primitives.sha256 chunk → other = chunk
  blobIds : ∀ chunk ∈ (splitAndEncrypt vaultKey plaintext).1,
    ∀ chunk' ∈ (splitAndEncrypt vaultKey plaintext).1,
      chunk.blobId = chunk'.blobId → chunk.ciphertext = chunk'.ciphertext
  authentic : ∀ s ∈ sealings vaultKey plaintext, ∀ index total, index ≤ u64Max → total ≤ u64Max →
    BlobPrimitives.openBytes s.key (chunkNonce s.key index)
        (associatedData (Primitives.sha256 s.plain) index total plaintext.length)
        (BlobPrimitives.sealBytes s.key s.nonce s.data s.plain) ≠ none →
      associatedData (Primitives.sha256 s.plain) index total plaintext.length = s.data

variable {vaultKey : Bytes32}

/-- The map has every chunk of the blob. -/
theorem SoundBlob.chunkMap_eq (h : SoundBlob vaultKey plaintext) {chunk : ChunkCiphertext}
    (hchunk : chunk ∈ (splitAndEncrypt vaultKey plaintext).1) :
    chunkMap (splitAndEncrypt vaultKey plaintext).1 chunk.blobId = some chunk.ciphertext := by
  obtain ⟨chunk', hchunk', hid, hmap⟩ := chunkMap_eq_some ⟨chunk, hchunk, rfl⟩
  exact hmap.trans (congrArg some (h.blobIds _ hchunk' _ hchunk hid))

/-- Each entry that is opened has its chunk at hand, and it opens at the place of the entry. -/
theorem opens_of_reassembleFrom {manifest : BlobManifest} {chunks : Bytes32 → Option (List UInt8)}
    {start : Nat} {entries : List ChunkManifestEntry} {before : List UInt8}
    (h : reassembleFrom vaultKey manifest chunks start entries before = .ok plaintext)
    {index : Nat} {entry : ChunkManifestEntry} (hentry : entries[index]? = some entry) :
    ∃ ciphertext, chunks entry.blobId = some ciphertext ∧
      BlobPrimitives.openBytes (chunkKey vaultKey entry.contentHash)
        (chunkNonce (chunkKey vaultKey entry.contentHash) (start + index))
        (associatedData entry.contentHash (start + index) manifest.entries.length manifest.totalSize)
        ciphertext ≠ none := by
  induction entries generalizing start before index with
  | nil => cases hentry
  | cons first entries ih =>
    unfold reassembleFrom at h
    split at h
    · cases h
    rename_i ciphertext hchunk
    split at h
    · cases h
    dsimp only at h
    split at h
    · cases h
    rename_i chunk hopen
    split at h
    · cases h
    cases index with
    | zero =>
      cases hentry
      exact ⟨ciphertext, hchunk, by rw [Nat.add_zero, hopen]; exact Option.some_ne_none _⟩
    | succ index =>
      have hrest := ih h hentry
      rwa [Nat.add_right_comm] at hrest

/-- The chunks of a blob at their places. -/
theorem getElem?_splitAndEncrypt (vaultKey : Bytes32) (plaintext : List UInt8) (index : Nat) :
    (splitAndEncrypt vaultKey plaintext).1[index]? = (slices plaintext)[index]?.map
      (sealChunk vaultKey (slices plaintext).length plaintext.length index) :=
  List.getElem?_mapIdx

/-- The entries of a blob at their places. -/
theorem getElem?_entries (vaultKey : Bytes32) (plaintext : List UInt8) (index : Nat) :
    (splitAndEncrypt vaultKey plaintext).2.entries[index]? =
      (splitAndEncrypt vaultKey plaintext).1[index]?.map ChunkCiphertext.entry :=
  List.getElem?_map

theorem length_entries (vaultKey : Bytes32) (plaintext : List UInt8) :
    (splitAndEncrypt vaultKey plaintext).2.entries.length = (slices plaintext).length :=
  (List.length_map _).trans List.length_mapIdx

/-- An entry that opens at a place among some entries is the entry of that place, and there
are as many as there should be. -/
theorem SoundBlob.entry_eq (h : SoundBlob vaultKey plaintext) (hsize : plaintext.length < u64Max)
    {index total : Nat} (hindex : index ≤ u64Max) (htotal : total ≤ u64Max)
    {entry : ChunkManifestEntry} (hentry : entry ∈ (splitAndEncrypt vaultKey plaintext).2.entries)
    {ciphertext : List UInt8}
    (hchunk : chunkMap (splitAndEncrypt vaultKey plaintext).1 entry.blobId = some ciphertext)
    (hopen : BlobPrimitives.openBytes (chunkKey vaultKey entry.contentHash)
      (chunkNonce (chunkKey vaultKey entry.contentHash) index)
      (associatedData entry.contentHash index total plaintext.length) ciphertext ≠ none) :
    (splitAndEncrypt vaultKey plaintext).2.entries[index]? = some entry ∧
      total = (splitAndEncrypt vaultKey plaintext).2.entries.length := by
  obtain ⟨chunk, hmem, rfl⟩ := List.mem_map.1 hentry
  have hmap := h.chunkMap_eq hmem
  obtain ⟨place, hplace, rfl⟩ := List.mem_mapIdx.1 hmem
  obtain rfl := Option.some.inj (hmap.symm.trans hchunk)
  have hslice := List.getElem?_eq_getElem hplace
  have hdata := h.authentic _ (sealing_mem hslice) index total hindex htotal hopen
  have hcount : (slices plaintext).length ≤ u64Max :=
    (length_slices_le plaintext).trans hsize
  obtain ⟨hrest, -⟩ := List.append_inj' hdata rfl
  obtain ⟨hfront, hlast⟩ := List.append_inj' hrest rfl
  obtain ⟨-, hmid⟩ := List.append_inj' hfront rfl
  obtain rfl := toBeBytes_inj hindex (Nat.le_of_lt (Nat.lt_of_lt_of_le hplace hcount)) hmid
  obtain rfl := toBeBytes_inj htotal hcount hlast
  rw [getElem?_entries, getElem?_splitAndEncrypt, hslice, length_entries]
  exact ⟨rfl, rfl⟩

/-- The content hashes of a blob are the hashes of its slices. -/
theorem map_contentHash (vaultKey : Bytes32) (plaintext : List UInt8) :
    (splitAndEncrypt vaultKey plaintext).1.map ChunkCiphertext.contentHash =
      (slices plaintext).map Primitives.sha256 := by
  refine List.ext_getElem? fun index => ?_
  rw [List.getElem?_map, getElem?_splitAndEncrypt, List.getElem?_map, Option.map_map]
  rfl

/-- Slices with the hashes of the blob are its slices. -/
theorem SoundBlob.slices_eq (h : SoundBlob vaultKey plaintext) {parts : List (List UInt8)}
    (hhash : (slices plaintext).map Primitives.sha256 = parts.map Primitives.sha256) :
    parts = slices plaintext := by
  have hpart := h.hash
  generalize slices plaintext = slices at hpart hhash
  induction parts generalizing slices with
  | nil => exact (List.map_eq_nil_iff.1 hhash).symm
  | cons part parts ih =>
    obtain ⟨slice, rest, rfl, hfirst, hrest⟩ := List.map_eq_cons_iff.1 hhash
    rw [hpart slice List.mem_cons_self part hfirst.symm,
      ih rest (fun chunk hchunk => hpart chunk (List.mem_cons_of_mem _ hchunk)) hrest]

variable [LawfulBlobAead] [ExactBlobAead]

/-- What the original manifest is opened from are the original chunks. -/
theorem SoundBlob.chunks_of_ok {bytes : List UInt8} {map : Bytes32 → Option (List UInt8)}
    (h : SoundBlob vaultKey plaintext)
    (hok : decryptAndReassemble vaultKey (splitAndEncrypt vaultKey plaintext).2 map = .ok bytes) :
    ∀ chunk ∈ (splitAndEncrypt vaultKey plaintext).1, map chunk.blobId = some chunk.ciphertext := by
  obtain ⟨-, hall⟩ := decryptAndReassemble_iff.1 hok
  have hhash : (slices plaintext).map Primitives.sha256 = (slices bytes).map Primitives.sha256 := by
    rw [← map_contentHash vaultKey, ← map_contentHash vaultKey, ← List.forall₂_eq_eq_eq,
      List.forall₂_map_left_iff, List.forall₂_map_right_iff]
    exact hall.imp fun _ _ hpair => hpair.1
  obtain rfl : bytes = plaintext := by
    rw [← slices_flatten bytes, h.slices_eq hhash, slices_flatten]
  rw [List.forall₂_same] at hall
  exact fun chunk hchunk => (hall chunk hchunk).2

/-- **Blobs.**  The manifest and the chunks of a blob give its plaintext.  With a chunk
missing or replaced there is an error, and so there is with other entries taken from those
of the manifest, unless the one entry of the empty blob is dropped. -/
theorem blob_untampered (vaultKey : Bytes32) (plaintext : List UInt8)
    (hsound : SoundBlob vaultKey plaintext) (hsize : plaintext.length < u64Max) :
    decryptAndReassemble vaultKey (splitAndEncrypt vaultKey plaintext).2
        (chunkMap (splitAndEncrypt vaultKey plaintext).1) = .ok plaintext ∧
      (∀ map : Bytes32 → Option (List UInt8),
        (∃ entry ∈ (splitAndEncrypt vaultKey plaintext).2.entries,
          map entry.blobId ≠ chunkMap (splitAndEncrypt vaultKey plaintext).1 entry.blobId) →
        ∃ e, decryptAndReassemble vaultKey (splitAndEncrypt vaultKey plaintext).2 map = .error e) ∧
      (∀ (entries : List ChunkManifestEntry) (map : Bytes32 → Option (List UInt8)),
        entries.length ≤ u64Max →
        (∀ entry ∈ entries, entry ∈ (splitAndEncrypt vaultKey plaintext).2.entries) →
        (∀ id ciphertext, map id = some ciphertext →
          chunkMap (splitAndEncrypt vaultKey plaintext).1 id = some ciphertext) →
        entries ≠ (splitAndEncrypt vaultKey plaintext).2.entries →
        (∃ e, decryptAndReassemble vaultKey ⟨plaintext.length, entries⟩ map = .error e) ∨
          (plaintext = [] ∧ entries = [])) := by
  refine ⟨?_, fun map hdiffers => ?_, fun entries map htotal hdrawn hmap hne => ?_⟩
  · refine decryptAndReassemble_iff.2 ⟨rfl, ?_⟩
    rw [List.forall₂_same]
    exact fun chunk hchunk => ⟨rfl, hsound.chunkMap_eq hchunk⟩
  · cases hok : decryptAndReassemble vaultKey (splitAndEncrypt vaultKey plaintext).2 map with
    | error e => exact ⟨e, rfl⟩
    | ok bytes =>
      obtain ⟨entry, hentry, hdiffers⟩ := hdiffers
      obtain ⟨chunk, hchunk, rfl⟩ := List.mem_map.1 hentry
      exact absurd ((hsound.chunks_of_ok hok chunk hchunk).trans
        (hsound.chunkMap_eq hchunk).symm) hdiffers
  · cases hok : decryptAndReassemble vaultKey ⟨plaintext.length, entries⟩ map with
    | error e => exact .inl ⟨e, rfl⟩
    | ok bytes =>
      right
      unfold decryptAndReassemble at hok
      split at hok
      · cases hok
      rename_i whole hwhole
      split at hok
      · cases hok
      rename_i hlength
      -- Each entry is the one of its place, and there are as many as there should be.
      have hplace {index : Nat} {entry : ChunkManifestEntry} (hentry : entries[index]? = some entry) :
          (splitAndEncrypt vaultKey plaintext).2.entries[index]? = some entry ∧
            entries.length = (splitAndEncrypt vaultKey plaintext).2.entries.length := by
        obtain ⟨hindex, rfl⟩ := List.getElem?_eq_some_iff.1 hentry
        obtain ⟨ciphertext, hchunk, hopen⟩ := opens_of_reassembleFrom hwhole hentry
        rw [Nat.zero_add] at hopen
        exact hsound.entry_eq hsize (Nat.le_of_lt (Nat.lt_of_lt_of_le hindex htotal)) htotal
          (hdrawn _ (List.getElem_mem hindex)) (hmap _ _ hchunk) hopen
      cases entries with
      | nil =>
        cases hwhole
        exact ⟨List.eq_nil_of_length_eq_zero (not_not.1 hlength).symm, rfl⟩
      | cons first entries =>
        have hcount := (@hplace 0 first rfl).2
        refine absurd (List.ext_getElem? fun i => ?_) hne
        by_cases hi : i < (first :: entries).length
        · rw [List.getElem?_eq_getElem hi, (hplace (List.getElem?_eq_getElem hi)).1]
        · rw [List.getElem?_eq_none (Nat.not_lt.1 hi),
            List.getElem?_eq_none (hcount ▸ Nat.not_lt.1 hi)]

end

/-! ## An instance -/

/-- The part of associated data that says the place. -/
def placeTag (data : List UInt8) : List UInt8 := (data.drop 33 ++ List.replicate tagLen 0).take tagLen

theorem length_placeTag (data : List UInt8) : (placeTag data).length = tagLen :=
  List.length_take_of_le (by
    rw [List.length_append, List.length_replicate]
    exact Nat.le_add_left _ _)

theorem placeTag_associatedData (contentHash : Bytes32) (index total size : Nat) :
    placeTag (associatedData contentHash index total size) = toBeBytes index ++ toBeBytes total := by
  have hlength : (blobFormatVersion :: contentHash.toList).length = 33 := by
    rw [List.length_cons, Vector.length_toList]
  unfold placeTag associatedData
  rw [List.append_assoc, List.append_assoc, List.drop_left' hlength, List.append_assoc,
    List.append_assoc, ← List.append_assoc (toBeBytes index)]
  exact List.take_left' rfl

/-- Takes the tag of a place off. -/
def openPlaced (data cipher : List UInt8) : Option (List UInt8) :=
  if cipher.take (cipher.length - tagLen) ++ placeTag data = cipher then
    some (cipher.take (cipher.length - tagLen))
  else none

theorem openPlaced_eq_some {data cipher plain : List UInt8} :
    openPlaced data cipher = some plain ↔ plain ++ placeTag data = cipher := by
  have hcut {plain : List UInt8} (h : plain ++ placeTag data = cipher) :
      cipher.take (cipher.length - tagLen) = plain := by
    rw [← h, List.length_append, length_placeTag, Nat.add_sub_cancel, List.take_left]
  unfold openPlaced
  constructor
  · intro h
    split at h
    · rename_i hcipher
      cases h
      exact hcipher
    · cases h
  · intro h
    rw [if_pos (by rw [hcut h, h]), hcut h]

/-- Primitives that append the place. -/
abbrev placedBlob : BlobPrimitives where
  expandKey salt ikm _ := Vector.zipWith (· + ·) (salt.getD zero32) ikm
  expandNonce _ _ info := Vector.ofFn fun i => (info.drop (info.length - 12))[i.val]?.getD 0
  sealBytes _ _ data plain := plain ++ placeTag data
  openBytes _ _ data cipher := openPlaced data cipher

/-- A hash without collisions on short texts. -/
def shortHash (bytes : List UInt8) : Bytes32 :=
  Vector.ofFn fun i => if 30 < bytes.length then 255
    else ((UInt8.ofNat bytes.length) :: bytes)[i.val]?.getD 0

theorem shortHash_inj {bytes other : List UInt8} (hshort : bytes.length ≤ 30)
    (h : shortHash other = shortHash bytes) : other = bytes := by
  have hbyte (i : Nat) (hi : i < 32) := congrArg (fun v : Bytes32 => v[i]) h
  simp only [shortHash, Vector.getElem_ofFn, if_neg (Nat.not_lt.2 hshort)] at hbyte
  by_cases hlong : 30 < other.length
  · have hfirst := hbyte 0 (by decide)
    rw [if_pos hlong] at hfirst
    have hvalue := congrArg UInt8.toNat hfirst
    simp only [List.getElem?_cons_zero, Option.getD_some, UInt8.toNat_ofNat'] at hvalue
    have : (255 : UInt8).toNat = 255 := rfl
    omega
  simp only [if_neg hlong] at hbyte
  have hlength : other.length = bytes.length := by
    have hvalue := congrArg UInt8.toNat (hbyte 0 (by decide))
    simp only [List.getElem?_cons_zero, Option.getD_some, UInt8.toNat_ofNat'] at hvalue
    omega
  refine List.ext_getElem hlength fun i hi hi' => ?_
  have hi32 := hbyte (i + 1) (by omega)
  rwa [List.getElem?_cons_succ, List.getElem?_cons_succ, List.getElem?_eq_getElem hi,
    List.getElem?_eq_getElem hi'] at hi32

/-- Primitives with this hash. -/
abbrev shortPrimitives : Primitives := { ideal Unit with sha256 := shortHash }

section Sample

attribute [local instance] shortPrimitives placedBlob

theorem placed_lawful : LawfulBlobAead where
  open_seal _ _ _ _ := openPlaced_eq_some.2 rfl
  seal_length _ _ data plain := by
    change (plain ++ placeTag data).length = _
    rw [List.length_append, length_placeTag]
  open_length {_ _ data _ plain} h := by
    rw [← openPlaced_eq_some.1 h, List.length_append, length_placeTag]

theorem placed_exact : ExactBlobAead where
  seal_of_open h := openPlaced_eq_some.1 h

/-- A short blob is sound. -/
theorem soundBlob_short (vaultKey : Bytes32) (h : plaintext.length ≤ 30) :
    SoundBlob vaultKey plaintext := by
  have hslices : slices plaintext = [plaintext] := by
    cases plaintext with
    | nil => rfl
    | cons b rest => exact slices_short (Nat.succ_pos _) (h.trans (by decide))
  refine ⟨fun chunk hchunk other hother => ?_, fun chunk hchunk chunk' hchunk' _ => ?_,
    fun s hs index total hindex htotal hopen => ?_⟩
  · rw [hslices] at hchunk
    rw [List.mem_singleton.1 hchunk] at hother ⊢
    exact shortHash_inj h hother
  · unfold splitAndEncrypt at hchunk hchunk'
    rw [hslices] at hchunk hchunk'
    rw [List.mem_singleton.1 hchunk, List.mem_singleton.1 hchunk']
  · obtain ⟨place, chunk, -, -, -, rfl⟩ := mem_sealings hs
    obtain ⟨plain, hplain⟩ := Option.ne_none_iff_exists'.1 hopen
    have htag := (List.append_inj' (openPlaced_eq_some.1 hplain)
      ((length_placeTag _).trans (length_placeTag _).symm)).2
    rw [placeTag_associatedData, placeTag_associatedData] at htag
    obtain ⟨hplace, hcount⟩ := List.append_inj htag rfl
    unfold associatedData
    rw [hplace, hcount]

attribute [local instance] placed_lawful placed_exact

/-- A blob of one byte: as it is, with its chunk missing, and with its entry twice. -/
theorem blob_untampered_short :
    decryptAndReassemble zero32 (splitAndEncrypt zero32 [7]).2
        (chunkMap (splitAndEncrypt zero32 [7]).1) = .ok [7] ∧
      (∃ e, decryptAndReassemble zero32 (splitAndEncrypt zero32 [7]).2 (fun _ => none) = .error e) ∧
      ∃ e, decryptAndReassemble zero32
        ⟨1, (splitAndEncrypt zero32 [7]).2.entries ++ (splitAndEncrypt zero32 [7]).2.entries⟩
        (chunkMap (splitAndEncrypt zero32 [7]).1) = .error e := by
  obtain ⟨hwhole, hmissing, hdrawn⟩ :=
    blob_untampered zero32 [7] (soundBlob_short zero32 (by decide)) (by decide)
  obtain ⟨chunk, hchunks⟩ : ∃ chunk, (splitAndEncrypt zero32 [7]).1 = [chunk] := ⟨_, rfl⟩
  have hentries : (splitAndEncrypt zero32 [7]).2.entries = [chunk.entry] :=
    congrArg (List.map ChunkCiphertext.entry) hchunks
  refine ⟨hwhole, hmissing _ ⟨chunk.entry, ?_, ?_⟩, ?_⟩
  · rw [hentries]
    exact List.mem_singleton_self _
  · have hmap := (soundBlob_short zero32 (by decide)).chunkMap_eq
      (hchunks ▸ List.mem_singleton_self chunk)
    exact fun hnone => Option.some_ne_none _ (hmap.symm.trans hnone.symm)
  · refine (hdrawn _ _ ?_ ?_ (fun _ _ h => h) ?_).resolve_right fun h => nomatch h.1
    · rw [hentries]
      exact show 2 ≤ u64Max by decide
    · exact fun entry hentry => (List.mem_append.1 hentry).elim id id
    · rw [hentries]
      simp

end Sample

/-- Without its entry the empty blob is still put together. -/
theorem empty_blob_without_entry :
    ¬ ∀ (primitives : Primitives) (blob : BlobPrimitives), @LawfulBlobAead blob → @ExactBlobAead blob →
        ∀ (vaultKey : Bytes32) (plaintext : List UInt8), @SoundBlob primitives blob vaultKey plaintext →
        plaintext.length < u64Max → ∀ entries : List ChunkManifestEntry,
        (∀ entry ∈ entries, entry ∈ (@splitAndEncrypt primitives blob vaultKey plaintext).2.entries) →
        entries ≠ (@splitAndEncrypt primitives blob vaultKey plaintext).2.entries →
        ∃ e, @decryptAndReassemble primitives blob vaultKey ⟨plaintext.length, entries⟩
          (chunkMap (@splitAndEncrypt primitives blob vaultKey plaintext).1) = .error e := by
  intro h
  obtain ⟨e, he⟩ := h shortPrimitives placedBlob placed_lawful placed_exact zero32 []
    (soundBlob_short zero32 (by decide)) (by decide) [] (fun _ h => nomatch h) (fun h => nomatch h)
  cases he

end Altior.Crypto
