import Altior.Ipc.Frame

/-!
# Frames and chunks

What `FrameDecoder::feed` hands over depends on the chunks in one case only: an
oversized length is in one chunk with frames that come before it.
-/

namespace Altior.Ipc

open Lib
open List (Forall₂)

theorem encodeFrame_eq_ok {payload : String} {frame : List UInt8}
    (h : encodeFrame payload = .ok frame) :
    (asBytes payload).length ≤ maxFrameBytes ∧ frame = framed (asBytes payload) := by
  unfold encodeFrame at h
  dsimp only at h
  split at h
  · cases h
  rename_i hfits
  split at h
  · cases h
  cases h
  exact ⟨Nat.not_lt.1 hfits, rfl⟩

/-- One frame within the cap is one item. -/
theorem reads_iff {piece payload : List UInt8} :
    frames.Reads piece payload ↔ payload.length ≤ maxFrameBytes ∧ piece = framed payload := by
  constructor
  · intro h
    obtain ⟨hfits, hpiece⟩ := frameNext_eq_item h
    exact ⟨hfits, hpiece.trans (List.append_nil _)⟩
  · rintro ⟨hfits, rfl⟩
    have hwhole := frameNext_framed hfits []
    rwa [List.append_nil] at hwhole

/-- An oversized length makes the decoder fail with its last byte. -/
theorem faults_iff {fault : List UInt8} :
    frames.Faults fault ↔ ∃ n, maxFrameBytes < n ∧ n < 2 ^ 32 ∧ fault = u32ToBeBytes n := by
  constructor
  · intro h
    obtain ⟨e, rest, hfail⟩ := h.fails
    obtain ⟨-, n, hn, hover, -, tail, rfl⟩ := frameNext_eq_fail hfail
    refine ⟨n, hover, hn, ?_⟩
    cases tail with
    | nil => exact List.append_nil _
    | cons b tail =>
      have hmore := h.shortest 4 (by rw [List.length_append, length_u32ToBeBytes]; simp)
      have htake : (u32ToBeBytes n ++ b :: tail).take 4 = u32ToBeBytes n ++ [] := by
        rw [List.append_nil]
        exact List.take_left' (length_u32ToBeBytes n)
      rw [htake] at hmore
      have hover' := frameNext_over hn hover []
      rw [show frameNext _ = _ from hmore] at hover'
      cases hover'
  · rintro ⟨n, hover, hn, rfl⟩
    have hfail := frameNext_over hn hover []
    rw [List.append_nil] at hfail
    refine ⟨⟨_, _, hfail⟩, fun m hm => frameNext_short ?_⟩
    rw [List.length_take]
    exact Nat.lt_of_le_of_lt (Nat.min_le_left _ _) hm

/-- A stream of whole frames, and then a length over the cap. -/
structure Overrun (stream : List UInt8) (payloads : List (List UInt8)) (length : Nat) : Prop where
  stream_eq : ∃ tail, stream = (payloads.map framed).flatten ++ u32ToBeBytes length ++ tail
  fits : ∀ payload ∈ payloads, payload.length ≤ maxFrameBytes
  exceeds : maxFrameBytes < length
  small : length < 2 ^ 32

/-- How many frames end before the chunk with the last byte of the oversized length. -/
def framesBefore (payloads : List (List UInt8)) (chunks : List (List UInt8)) : Nat :=
  endWithin (fedBefore ((payloads.map framed).flatten.length + 4) chunks) (payloads.map framed)

/-- If an oversized length comes, as many frames end before its chunk in one cutting as in
the other. -/
def SameFramesBefore (xs ys : List (List UInt8)) : Prop :=
  ∀ payloads length, Overrun xs.flatten payloads length →
    framesBefore payloads xs = framesBefore payloads ys

/-- **Chunks do not matter**: two cuttings of a stream deliver the same frames before the
same error, a stream of encoded payloads delivers these, and after an error every call
fails. -/
structure ChunkingUnseen (xs ys : List (List UInt8)) : Prop where
  frames : delivered (FrameDecoder.new.feeds xs) = delivered (FrameDecoder.new.feeds ys)
  error : firstError (FrameDecoder.new.feeds xs) = firstError (FrameDecoder.new.feeds ys)
  payloads : ∀ texts encoded, Forall₂ (fun text frame => encodeFrame text = .ok frame) texts encoded →
    xs.flatten = encoded.flatten → delivered (FrameDecoder.new.feeds xs) = texts.map asBytes ∧
      firstError (FrameDecoder.new.feeds xs) = none
  poisoned : ∀ n more, firstError (FrameDecoder.new.feeds (xs.take n)) ≠ none →
    (∀ result ∈ (FrameDecoder.new.fed (xs.take n)).feeds more, ∃ e, result = .error e) ∧
      ∃ e, (FrameDecoder.new.fed (xs.take n ++ more)).decodeNext.1 = .error e

/-! ## After an error -/

/-- The buffer begins with an oversized length. -/
def Poisoned (buffer : List UInt8) : Prop := ∃ e, frameNext buffer = .fail e buffer

theorem Poisoned.append {buffer : List UInt8} (h : Poisoned buffer) (chunk : List UInt8) :
    Poisoned (buffer ++ chunk) := by
  obtain ⟨e, hfail⟩ := h
  obtain ⟨-, n, hn, hover, -, tail, rfl⟩ := frameNext_eq_fail hfail
  rw [List.append_assoc]
  exact ⟨_, frameNext_over hn hover _⟩

/-- A poisoned buffer makes every call fail and stays poisoned. -/
theorem Poisoned.feed {buffer : List UInt8} (h : Poisoned buffer) (chunk : List UInt8) :
    (∃ e, (frames.feed buffer chunk).1 = .error e) ∧ Poisoned (frames.feed buffer chunk).2 := by
  obtain ⟨e, hfail⟩ := h.append chunk
  have hdrain := Incremental.drain_fail (d := frames) hfail
  have hfeed := Incremental.feed_of_some (d := frames) (b := buffer) (c := chunk)
    (congrArg (·.2.1) hdrain)
  rw [hfeed, hdrain]
  exact ⟨⟨e, rfl⟩, e, hfail⟩

/-- An error leaves the oversized length in the buffer. -/
theorem poisoned_of_error {buffer chunk : List UInt8} {e : FrameError}
    (h : (frames.feed buffer chunk).1 = .error e) : Poisoned (frames.feed buffer chunk).2 := by
  cases herror : (frames.drain (buffer ++ chunk)).2.1 with
  | none =>
    rw [Incremental.feed_of_none herror] at h
    cases h
  | some e' =>
    obtain ⟨-, buffer', -, hfail⟩ := Incremental.next_drain_of_fail herror
    rw [Incremental.feed_of_some herror]
    obtain ⟨hrest, -⟩ := frameNext_eq_fail hfail
    exact ⟨e', by rw [hrest]; exact hrest ▸ hfail⟩

theorem poisoned_fed {chunks : List (List UInt8)}
    (h : firstError (FrameDecoder.new.feeds chunks) ≠ none) (more : List (List UInt8)) :
    Poisoned (FrameDecoder.new.fed (chunks ++ more)).buffer := by
  rw [FrameDecoder.feeds_eq] at h
  rw [FrameDecoder.fed_eq]
  refine Incremental.after_of_error (fun _ _ _ => poisoned_of_error) (fun b c hb => (hb.feed c).2) ?_
  rw [Incremental.calls_append]
  intro hnone
  cases hfirst : firstError (frames.calls FrameDecoder.new.buffer chunks) with
  | none => exact h hfirst
  | some e =>
    rw [firstError_append_of_some hfirst] at hnone
    cases hnone

/-! ## Where chunks matter -/

/-- A stream of encoded payloads is handed over whole. -/
theorem delivered_encoded {texts : List String} {encoded chunks : List (List UInt8)}
    (h : Forall₂ (fun text frame => encodeFrame text = .ok frame) texts encoded)
    (hchunks : chunks.flatten = encoded.flatten) :
    delivered (FrameDecoder.new.feeds chunks) = texts.map asBytes ∧
      firstError (FrameDecoder.new.feeds chunks) = none := by
  have hreads : Forall₂ frames.Reads encoded (texts.map asBytes) := by
    rw [List.forall₂_map_right_iff]
    exact h.flip.imp fun _ _ henc => reads_iff.2 (encodeFrame_eq_ok henc)
  have hstream : chunks.flatten = encoded.flatten ++ [] := hchunks.trans (List.append_nil _).symm
  obtain ⟨hdelivered, herror, -⟩ := Incremental.delivered_of_more hstream hreads frames.next_nil
  rw [FrameDecoder.feeds_eq]
  exact ⟨hdelivered, herror⟩

/-- **Frame decoding and chunks.**  Two cuttings of a stream cannot be told apart iff as
many frames end before the chunk of an oversized length in one as in the other. -/
theorem chunkingUnseen_iff (xs ys : List (List UInt8)) (h : xs.flatten = ys.flatten) :
    ChunkingUnseen xs ys ↔ SameFramesBefore xs ys := by
  have hdelivered {payloads : List (List UInt8)} {length : Nat}
      (hover : Overrun xs.flatten payloads length) :
      delivered (FrameDecoder.new.feeds xs) = delivered (FrameDecoder.new.feeds ys) ↔
        framesBefore payloads xs = framesBefore payloads ys := by
    obtain ⟨tail, hstream⟩ := hover.stream_eq
    have hreads : Forall₂ frames.Reads (payloads.map framed) payloads := by
      rw [List.forall₂_map_left_iff, List.forall₂_same]
      exact fun payload hp => reads_iff.2 ⟨hover.fits payload hp, rfl⟩
    have hfault : frames.Faults (u32ToBeBytes length) :=
      faults_iff.2 ⟨length, hover.exceeds, hover.small, rfl⟩
    rw [FrameDecoder.feeds_eq, FrameDecoder.feeds_eq]
    exact Incremental.delivered_eq_iff hstream h.symm hreads hfault
  constructor
  · exact fun hunseen payloads length hover => (hdelivered hover).1 hunseen.frames
  intro hsame
  have hkinds : firstError (FrameDecoder.new.feeds xs) = firstError (FrameDecoder.new.feeds ys) := by
    have hx := Incremental.kind_firstError (d := frames) xs frames.next_nil
    have hy := Incremental.kind_firstError (d := frames) ys frames.next_nil
    rw [h, ← hy] at hx
    rw [FrameDecoder.feeds_eq, FrameDecoder.feeds_eq]
    exact Option.map_injective (fun _ _ heq => heq) hx
  refine ⟨?_, hkinds, fun _ _ henc hstream => delivered_encoded henc hstream,
    fun n more herror => ?_⟩
  · obtain ⟨pieces, payloads, rest, hstream, hreads, hrest⟩ :=
      Incremental.exists_pieces (d := frames) xs.flatten
    rcases hrest with hmore | ⟨fault, tail, rfl, hfault⟩
    · rw [FrameDecoder.feeds_eq, FrameDecoder.feeds_eq]
      exact (Incremental.delivered_of_more hstream hreads hmore).1.trans
        (Incremental.delivered_of_more (h ▸ hstream) hreads hmore).1.symm
    · obtain ⟨n, hover, hn, rfl⟩ := faults_iff.1 hfault
      obtain rfl : pieces = payloads.map framed := by
        rw [← List.forall₂_eq_eq_eq, List.forall₂_map_right_iff]
        exact hreads.imp fun _ _ hread => (reads_iff.1 hread).2
      have hall : Overrun xs.flatten payloads n :=
        ⟨⟨tail, by rw [hstream, List.append_assoc]⟩, fun payload hp => ?_, hover, hn⟩
      · exact (hdelivered hall).2 (hsame payloads n hall)
      · rw [List.forall₂_map_left_iff, List.forall₂_same] at hreads
        exact (reads_iff.1 (hreads payload hp)).1
  · have hstuck := poisoned_fed herror []
    rw [List.append_nil] at hstuck
    constructor
    · rw [FrameDecoder.feeds_eq]
      exact Incremental.calls_error_of_stuck (fun b c hb => hb.feed c) hstuck more
    · obtain ⟨e, hfail⟩ := poisoned_fed herror more
      exact ⟨e, decodeNext_of_fail hfail⟩

/-- The empty frame and an oversized length, apart. -/
def apart : List (List UInt8) := [[0, 0, 0, 0], [0, 4, 0, 1]]

/-- The same in one chunk. -/
def together : List (List UInt8) := [[0, 0, 0, 0, 0, 4, 0, 1]]

theorem chunkingUnseen_apart : ChunkingUnseen apart together ↔ SameFramesBefore apart together :=
  chunkingUnseen_iff apart together rfl

/-- In one chunk with the oversized length, the frame before it is lost. -/
theorem frame_before_oversized_lost :
    ¬ ∀ xs ys : List (List UInt8), xs.flatten = ys.flatten → ChunkingUnseen xs ys := by
  intro h
  have hapart : delivered (FrameDecoder.new.feeds apart) = [[]] := by decide +kernel
  have htogether : delivered (FrameDecoder.new.feeds together) = [] := by decide +kernel
  have hframes := (h apart together rfl).frames
  rw [hapart, htogether] at hframes
  cases hframes

end Altior.Ipc
