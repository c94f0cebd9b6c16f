import Mathlib.Algebra.Group.Nat.Defs
import Altior.Lib.Incremental
import Altior.Lib.Utf8

/-!
# Frames

The length-prefixed frames of the local stream (`altior-ipc/src/frame.rs`) and how
their decoding depends on the chunks in which a stream arrives.
-/

namespace Altior.Ipc

open Lib

/-- Hard cap on the payload of one frame. -/
def maxFrameBytes : Nat := 256 * 1024

/-- What framing fails with. -/
inductive FrameError
  | frameTooLarge (sizeBytes limitBytes : Nat)
deriving DecidableEq, Repr

/-- `u32::to_be_bytes`. -/
def u32ToBeBytes (n : Nat) : List UInt8 :=
  [.ofNat (n / 2 ^ 24), .ofNat (n / 2 ^ 16), .ofNat (n / 2 ^ 8), .ofNat n]

/-- `u32::from_be_bytes`. -/
def u32OfBeBytes (a b c d : UInt8) : Nat :=
  ((a.toNat * 256 + b.toNat) * 256 + c.toNat) * 256 + d.toNat

/-- Encodes one payload as a frame.  A length within the cap fits its prefix. -/
def encodeFrame (payload : String) : Except FrameError (List UInt8) :=
  let bytes := asBytes payload
  if maxFrameBytes < bytes.length then .error (.frameTooLarge bytes.length maxFrameBytes)
  else if 2 ^ 32 ≤ bytes.length then .error (.frameTooLarge bytes.length maxFrameBytes)
  else .ok (u32ToBeBytes bytes.length ++ bytes)

/-- A decoder and the bytes it waits with. -/
structure FrameDecoder where
  buffer : List UInt8
deriving DecidableEq

namespace FrameDecoder

def new : FrameDecoder := ⟨[]⟩

/-- Appends incoming bytes without decoding yet. -/
def feedBytes (decoder : FrameDecoder) (chunk : List UInt8) : FrameDecoder :=
  ⟨decoder.buffer ++ chunk⟩

/-- The next complete frame. -/
def decodeNext (decoder : FrameDecoder) :
    Except FrameError (Option (List UInt8)) × FrameDecoder :=
  match decoder.buffer with
  | a :: b :: c :: d :: rest =>
    let length := u32OfBeBytes a b c d
    if maxFrameBytes < length then (.error (.frameTooLarge length maxFrameBytes), decoder)
    else if rest.length < length then (.ok none, decoder)
    else (.ok (some (rest.take length)), ⟨rest.drop length⟩)
  | _ => (.ok none, decoder)

end FrameDecoder

/-- One round of the loop of `feed`. -/
def frameNext (buffer : List UInt8) : Reading UInt8 (List UInt8) FrameError :=
  match FrameDecoder.decodeNext ⟨buffer⟩ with
  | (.ok none, _) => .more
  | (.ok (some frame), decoder) => .item frame decoder.buffer
  | (.error e, decoder) => .fail e decoder.buffer

variable {rest buffer : List UInt8}

theorem decodeNext_of_fail {decoder : FrameDecoder} {e : FrameError}
    (h : frameNext decoder.buffer = .fail e rest) : decoder.decodeNext.1 = .error e := by
  unfold frameNext at h
  split at h
  · cases h
  · cases h
  · rename_i hnext
    cases h
    exact congrArg Prod.fst hnext

/-! ## Lengths -/

theorem u32OfBeBytes_toBeBytes {n : Nat} (h : n < 2 ^ 32) : ∃ a b c d,
    u32ToBeBytes n = [a, b, c, d] ∧ u32OfBeBytes a b c d = n := by
  refine ⟨_, _, _, _, rfl, ?_⟩
  unfold u32OfBeBytes
  simp only [UInt8.toNat_ofNat']
  omega

theorem u32ToBeBytes_ofBeBytes (a b c d : UInt8) :
    u32ToBeBytes (u32OfBeBytes a b c d) = [a, b, c, d] := by
  have ha := a.toNat_lt
  have hb := b.toNat_lt
  have hc := c.toNat_lt
  have hd := d.toNat_lt
  unfold u32ToBeBytes u32OfBeBytes
  congr 1
  · apply UInt8.toNat.inj
    rw [UInt8.toNat_ofNat']
    omega
  congr 1
  · apply UInt8.toNat.inj
    rw [UInt8.toNat_ofNat']
    omega
  congr 1
  · apply UInt8.toNat.inj
    rw [UInt8.toNat_ofNat']
    omega
  congr 1
  apply UInt8.toNat.inj
  rw [UInt8.toNat_ofNat']
  omega

theorem u32OfBeBytes_lt (a b c d : UInt8) : u32OfBeBytes a b c d < 2 ^ 32 := by
  have ha := a.toNat_lt
  have hb := b.toNat_lt
  have hc := c.toNat_lt
  have hd := d.toNat_lt
  unfold u32OfBeBytes
  omega

@[simp] theorem length_u32ToBeBytes (n : Nat) : (u32ToBeBytes n).length = 4 := rfl

/-- Four bytes are the prefix of a length. -/
theorem exists_header (h : 4 ≤ buffer.length) :
    ∃ n < 2 ^ 32, ∃ rest, buffer = u32ToBeBytes n ++ rest := by
  rcases buffer with _ | ⟨a, _ | ⟨b, _ | ⟨c, _ | ⟨d, rest⟩⟩⟩⟩
  case cons.cons.cons.cons =>
    exact ⟨_, u32OfBeBytes_lt a b c d, rest, by rw [u32ToBeBytes_ofBeBytes]; rfl⟩
  all_goals exact absurd h (by simp)

theorem frameNext_short (h : buffer.length < 4) : frameNext buffer = .more := by
  rcases buffer with _ | ⟨a, _ | ⟨b, _ | ⟨c, _ | ⟨d, rest⟩⟩⟩⟩
  case cons.cons.cons.cons => exact absurd h (by simp only [List.length_cons]; omega)
  all_goals rfl

theorem frameNext_eq {n : Nat} (h : n < 2 ^ 32) (rest : List UInt8) :
    frameNext (u32ToBeBytes n ++ rest) =
      if maxFrameBytes < n then .fail (.frameTooLarge n maxFrameBytes) (u32ToBeBytes n ++ rest)
      else if rest.length < n then .more
      else .item (rest.take n) (rest.drop n) := by
  obtain ⟨a, b, c, d, hbytes, hn⟩ := u32OfBeBytes_toBeBytes h
  rw [hbytes]
  unfold frameNext FrameDecoder.decodeNext
  dsimp only [List.cons_append, List.nil_append]
  rw [hn]
  by_cases hover : maxFrameBytes < n
  · rw [if_pos hover, if_pos hover]
  rw [if_neg hover, if_neg hover]
  by_cases hrest : rest.length < n
  · rw [if_pos hrest, if_pos hrest]
  · rw [if_neg hrest, if_neg hrest]

/-- A length over the cap is refused before its frame has come. -/
theorem frameNext_over {n : Nat} (h : n < 2 ^ 32) (hover : maxFrameBytes < n) (rest : List UInt8) :
    frameNext (u32ToBeBytes n ++ rest) =
      .fail (.frameTooLarge n maxFrameBytes) (u32ToBeBytes n ++ rest) := by
  rw [frameNext_eq h, if_pos hover]

theorem frameNext_more {n : Nat} (h : n < 2 ^ 32) (hfits : n ≤ maxFrameBytes)
    (hrest : rest.length < n) : frameNext (u32ToBeBytes n ++ rest) = .more := by
  rw [frameNext_eq h, if_neg (Nat.not_lt.2 hfits), if_pos hrest]

theorem frameNext_item {n : Nat} (h : n < 2 ^ 32) (hfits : n ≤ maxFrameBytes)
    (hrest : n ≤ rest.length) :
    frameNext (u32ToBeBytes n ++ rest) = .item (rest.take n) (rest.drop n) := by
  rw [frameNext_eq h, if_neg (Nat.not_lt.2 hfits), if_neg (Nat.not_lt.2 hrest)]

/-! ## The decoder -/

/-- A payload behind its length. -/
def framed (payload : List UInt8) : List UInt8 := u32ToBeBytes payload.length ++ payload

/-- A frame within the cap is taken off whatever follows. -/
theorem frameNext_framed {payload : List UInt8} (h : payload.length ≤ maxFrameBytes)
    (rest : List UInt8) : frameNext (framed payload ++ rest) = .item payload rest := by
  have hsmall : payload.length < 2 ^ 32 := by
    unfold maxFrameBytes at h
    omega
  rw [framed, List.append_assoc, frameNext_item hsmall h (by rw [List.length_append]; omega),
    List.take_left, List.drop_left]

/-- What is taken off is a frame within the cap. -/
theorem frameNext_eq_item {payload : List UInt8} (h : frameNext buffer = .item payload rest) :
    payload.length ≤ maxFrameBytes ∧ buffer = framed payload ++ rest := by
  by_cases hshort : buffer.length < 4
  · rw [frameNext_short hshort] at h
    cases h
  obtain ⟨n, hn, tail, rfl⟩ := exists_header (Nat.not_lt.1 hshort)
  by_cases hover : maxFrameBytes < n
  · rw [frameNext_over hn hover] at h
    cases h
  by_cases htail : tail.length < n
  · rw [frameNext_more hn (Nat.not_lt.1 hover) htail] at h
    cases h
  rw [frameNext_item hn (Nat.not_lt.1 hover) (Nat.not_lt.1 htail)] at h
  cases h
  have hlength : (tail.take n).length = n := List.length_take_of_le (Nat.not_lt.1 htail)
  refine ⟨le_of_eq_of_le hlength (Nat.not_lt.1 hover), ?_⟩
  rw [framed, hlength, List.append_assoc, List.take_append_drop]

/-- What is refused begins with a length over the cap, and stays in the buffer. -/
theorem frameNext_eq_fail {e : FrameError} (h : frameNext buffer = .fail e rest) :
    rest = buffer ∧ ∃ n < 2 ^ 32, maxFrameBytes < n ∧ e = .frameTooLarge n maxFrameBytes ∧
      ∃ tail, buffer = u32ToBeBytes n ++ tail := by
  by_cases hshort : buffer.length < 4
  · rw [frameNext_short hshort] at h
    cases h
  obtain ⟨n, hn, tail, rfl⟩ := exists_header (Nat.not_lt.1 hshort)
  by_cases hover : maxFrameBytes < n
  · rw [frameNext_over hn hover] at h
    cases h
    exact ⟨rfl, n, hn, hover, rfl, tail, rfl⟩
  by_cases htail : tail.length < n
  · rw [frameNext_more hn (Nat.not_lt.1 hover) htail] at h
    cases h
  · rw [frameNext_item hn (Nat.not_lt.1 hover) (Nat.not_lt.1 htail)] at h
    cases h

/-- The decoder of frames. -/
def frames : Incremental UInt8 (List UInt8) FrameError FrameError where
  next := frameNext
  kind e := e
  next_nil := rfl
  item_split h := by
    obtain ⟨hfits, rfl⟩ := frameNext_eq_item h
    have hwhole := frameNext_framed hfits []
    rw [List.append_nil] at hwhole
    exact ⟨_, rfl, hwhole⟩
  item_append c h := by
    obtain ⟨hfits, rfl⟩ := frameNext_eq_item h
    rw [List.append_assoc, frameNext_framed hfits]
  fail_append c h := by
    obtain ⟨rfl, n, hn, hover, rfl, tail, rfl⟩ := frameNext_eq_fail h
    rw [List.append_assoc]
    exact ⟨_, _, frameNext_over hn hover _, rfl⟩

namespace FrameDecoder

/-- Feeds a chunk and returns every frame that is complete then. -/
def feed (decoder : FrameDecoder) (chunk : List UInt8) :
    Except FrameError (List (List UInt8)) × FrameDecoder :=
  ((frames.feed decoder.buffer chunk).1, ⟨(frames.feed decoder.buffer chunk).2⟩)

/-- What `feed` returns for some chunks, one after the other. -/
def feeds (decoder : FrameDecoder) : List (List UInt8) → List (Except FrameError (List (List UInt8)))
  | [] => []
  | chunk :: chunks => (decoder.feed chunk).1 :: feeds (decoder.feed chunk).2 chunks

/-- The decoder after some chunks. -/
def fed (decoder : FrameDecoder) (chunks : List (List UInt8)) : FrameDecoder :=
  chunks.foldl (fun decoder chunk => (decoder.feed chunk).2) decoder

theorem feeds_eq (decoder : FrameDecoder) (chunks : List (List UInt8)) :
    decoder.feeds chunks = frames.calls decoder.buffer chunks := by
  induction chunks generalizing decoder with
  | nil => rfl
  | cons chunk chunks ih =>
    rw [feeds, ih]
    rfl

theorem fed_eq (decoder : FrameDecoder) (chunks : List (List UInt8)) :
    decoder.fed chunks = ⟨frames.after decoder.buffer chunks⟩ := by
  induction chunks generalizing decoder with
  | nil => rfl
  | cons chunk chunks ih => exact ih _

end FrameDecoder

end Altior.Ipc
