import Altior.Ipc.Chunking
import Altior.Lib.Machine

/-!
# Frames over a stream that takes parts

`LocalStream::send_frame` of `altior-ipc/src/transport.rs` over a socket that is not
blocking: a frame is written in parts, and a send can fail between two of them.
-/

namespace Altior.Ipc

open Lib
open List (Forall₂)

/-- The kinds of I/O errors a write distinguishes. -/
inductive IoErrorKind
  | wouldBlock
  | interrupted
  | writeZero
  | brokenPipe
  | other
deriving DecidableEq, Repr

/-- What one `write` of the operating system does. -/
inductive Write
  | accepted (n : Nat)
  | failed (kind : IoErrorKind)
deriving DecidableEq, Repr

/-- What a send fails with. -/
inductive SendError
  | frame (e : FrameError)
  | sessionOrder (attempted : String)
  | io (kind : IoErrorKind)
deriving DecidableEq, Repr

/-- `Write::write_all`: what it returns, and the bytes the stream took.  An interrupted
write is tried again; a stream that says nothing more would block. -/
def writeAll : List Write → List UInt8 → Except IoErrorKind Unit × List UInt8
  | _, [] => (.ok (), [])
  | [], _ :: _ => (.error .wouldBlock, [])
  | .accepted 0 :: _, _ :: _ => (.error .writeZero, [])
  | .accepted (n + 1) :: writes, b :: buf =>
    let r := writeAll writes (buf.drop n)
    (r.1, b :: buf.take n ++ r.2)
  | .failed .interrupted :: writes, b :: buf => writeAll writes (b :: buf)
  | .failed kind :: _, _ :: _ => (.error kind, [])

/-- A connected stream: what has reached the other side, and whether it was closed. -/
structure LocalStream where
  written : List UInt8
  closed : Bool
deriving DecidableEq

namespace LocalStream

/-- Sends the bytes of an encoded frame.  Flushing a local stream does nothing. -/
def sendRawFrame (stream : LocalStream) (writes : List Write) (frame : List UInt8) :
    Except SendError Unit × LocalStream :=
  if stream.closed then (.error (.sessionOrder "send raw frame over closed stream"), stream)
  else
    let r := writeAll writes frame
    (r.1.mapError .io, { stream with written := stream.written ++ r.2 })

/-- Sends a payload as a frame. -/
def sendFrame (stream : LocalStream) (writes : List Write) (payload : String) :
    Except SendError Unit × LocalStream :=
  match encodeFrame payload with
  | .error e => (.error (.frame e), stream)
  | .ok frame => stream.sendRawFrame writes frame

/-- The stream is closed, or found closed by a read. -/
def close (stream : LocalStream) : LocalStream := { stream with closed := true }

end LocalStream

/-! ## Runs -/

/-- A stream, the payloads whose sends returned `Ok`, and whether a send has failed with a
part of its frame written. -/
structure Sending where
  stream : LocalStream
  sent : List String
  torn : Bool
deriving DecidableEq

/-- What happens to a stream. -/
inductive SendInput
  | send (payload : String) (writes : List Write)
  | close

namespace Sending

/-- A send, with what the operating system makes of its writes. -/
def send (s : Sending) (payload : String) (writes : List Write) : Sending :=
  match s.stream.sendFrame writes payload with
  | (.ok (), stream) => { s with stream, sent := s.sent ++ [payload] }
  | (.error _, stream) =>
    { s with stream, torn := s.torn || decide (s.stream.written.length < stream.written.length) }

def step (s : Sending) : SendInput → Sending
  | .send payload writes => s.send payload writes
  | .close => { s with stream := s.stream.close }

/-- A stream from its beginning. -/
def machine : Machine Sending SendInput := ⟨⟨⟨[], false⟩, [], false⟩, step⟩

end Sending

/-- **The other side reads what was sent**: however the bytes that reached it are cut, they
decode to the payloads whose sends returned `Ok`, without an error. -/
def PeerReadsSent (s : Sending) : Prop :=
  ∀ chunks : List (List UInt8), chunks.flatten = s.stream.written →
    delivered (FrameDecoder.new.feeds chunks) = s.sent.map asBytes ∧
      firstError (FrameDecoder.new.feeds chunks) = none

/-- The operating system takes no byte. -/
def takesNothing : List Write → Bool
  | .accepted (_ + 1) :: _ => false
  | .failed .interrupted :: writes => takesNothing writes
  | _ => true

/-- Behind a part of a frame nothing is written: the stream is closed, the payload over the
cap, or no byte of the frame taken. -/
def NothingBehindPart (s : Sending) : SendInput → Prop
  | .send payload writes => s.torn = true → s.stream.closed = true ∨
      maxFrameBytes < (asBytes payload).length ∨ takesNothing writes = true
  | .close => True

/-! ## One send -/

/-- All bytes are taken, or only some and the write fails. -/
theorem writeAll_cases (writes : List Write) (buf : List UInt8) :
    writeAll writes buf = (.ok (), buf) ∨
      ∃ kind, ∃ n < buf.length, writeAll writes buf = (.error kind, buf.take n) := by
  fun_induction writeAll writes buf with
  | case1 => exact .inl rfl
  | case2 b buf => exact .inr ⟨.wouldBlock, 0, Nat.succ_pos _, rfl⟩
  | case3 writes b buf => exact .inr ⟨.writeZero, 0, Nat.succ_pos _, rfl⟩
  | case4 n writes b buf r ih =>
    rcases ih with hall | ⟨kind, k, hk, hpart⟩
    · left
      simp only [r, hall, List.cons_append, List.take_append_drop]
    · refine .inr ⟨kind, n + k + 1, ?_, ?_⟩
      · rw [List.length_drop] at hk
        rw [List.length_cons]
        omega
      · simp only [r, hpart, List.take_succ_cons, List.cons_append, List.take_add]
  | case5 writes b buf ih => exact ih
  | case6 kind writes b buf => exact .inr ⟨kind, 0, Nat.succ_pos _, rfl⟩

theorem writeAll_of_takesNothing {writes : List Write} (h : takesNothing writes = true)
    {buf : List UInt8} (hbuf : buf ≠ []) : ∃ kind, writeAll writes buf = (.error kind, []) := by
  fun_induction writeAll writes buf with
  | case1 => exact absurd rfl hbuf
  | case2 => exact ⟨_, rfl⟩
  | case3 => exact ⟨_, rfl⟩
  | case4 => cases h
  | case5 writes b buf ih => exact ih h hbuf
  | case6 => exact ⟨_, rfl⟩

theorem encodeFrame_of_le {payload : String} (h : (asBytes payload).length ≤ maxFrameBytes) :
    encodeFrame payload = .ok (framed (asBytes payload)) := by
  have hsmall : ¬ 2 ^ 32 ≤ (asBytes payload).length := by
    unfold maxFrameBytes at h
    omega
  unfold encodeFrame
  dsimp only
  rw [if_neg (Nat.not_lt.2 h), if_neg hsmall]
  rfl

theorem framed_ne_nil (payload : List UInt8) : framed payload ≠ [] :=
  List.cons_ne_nil _ _

namespace Sending

/-- **One send**: nothing happens, the whole frame is written and counted, or a part of it
is written and the send fails. -/
theorem send_cases (s : Sending) (payload : String) (writes : List Write) :
    s.send payload writes = s ∨
      (s.stream.closed = false ∧ (asBytes payload).length ≤ maxFrameBytes ∧
        ((writeAll writes (framed (asBytes payload))).2 = framed (asBytes payload) ∧
          s.send payload writes =
            ⟨⟨s.stream.written ++ framed (asBytes payload), false⟩, s.sent ++ [payload], s.torn⟩ ∨
        ∃ n, 0 < n ∧ n < (framed (asBytes payload)).length ∧
          (writeAll writes (framed (asBytes payload))).2 = (framed (asBytes payload)).take n ∧
          s.send payload writes =
            ⟨⟨s.stream.written ++ (framed (asBytes payload)).take n, false⟩, s.sent, true⟩)) := by
  obtain ⟨⟨written, closed⟩, sent, torn⟩ := s
  have hsame : (torn || decide (written.length < written.length)) = torn := by
    rw [decide_eq_false (Nat.lt_irrefl _), Bool.or_false]
  unfold send LocalStream.sendFrame
  by_cases hfits : (asBytes payload).length ≤ maxFrameBytes
  swap
  · have hover : encodeFrame payload =
        .error (.frameTooLarge (asBytes payload).length maxFrameBytes) :=
      if_pos (Nat.not_le.1 hfits)
    left
    simp only [hover, hsame]
  simp only [encodeFrame_of_le hfits]
  cases closed with
  | true =>
    left
    simp only [LocalStream.sendRawFrame, if_true, hsame]
  | false =>
    rcases writeAll_cases writes (framed (asBytes payload)) with hall | ⟨kind, n, hn, hpart⟩
    · refine .inr ⟨rfl, hfits, .inl ⟨congrArg Prod.snd hall, ?_⟩⟩
      simp [LocalStream.sendRawFrame, hall, Except.mapError]
    · cases n with
      | zero =>
        left
        simp [LocalStream.sendRawFrame, hpart, Except.mapError]
      | succ n =>
        refine .inr ⟨rfl, hfits, .inr ⟨n + 1, Nat.succ_pos n, hn, congrArg Prod.snd hpart, ?_⟩⟩
        have hlonger : written.length <
            (written ++ (framed (asBytes payload)).take (n + 1)).length := by
          rw [List.length_append, List.length_take]
          omega
        simp only [LocalStream.sendRawFrame, Bool.false_eq_true, if_false, hpart, Except.mapError,
          decide_eq_true hlonger, Bool.or_true]

end Sending

/-! ## What the other side reads -/

/-- The stream holds the frames of the payloads sent, and perhaps a part of one more. -/
structure InStep (s : Sending) : Prop where
  fits : ∀ payload ∈ s.sent, (asBytes payload).length ≤ maxFrameBytes
  written : ∃ part,
    s.stream.written = (s.sent.map fun payload => framed (asBytes payload)).flatten ++ part ∧
    frameNext part = .more ∧ (s.torn = false → part = [])

theorem InStep.peerReadsSent {s : Sending} (h : InStep s) : PeerReadsSent s := by
  intro chunks hchunks
  obtain ⟨part, hwritten, hpart, -⟩ := h.written
  have hreads : Forall₂ frames.Reads (s.sent.map fun payload => framed (asBytes payload))
      (s.sent.map asBytes) := by
    rw [List.forall₂_map_left_iff, List.forall₂_map_right_iff, List.forall₂_same]
    exact fun payload hp => reads_iff.2 ⟨h.fits payload hp, rfl⟩
  obtain ⟨hdelivered, herror, -⟩ :=
    Incremental.delivered_of_more (hchunks.trans hwritten) hreads hpart
  rw [FrameDecoder.feeds_eq]
  exact ⟨hdelivered, herror⟩

/-- Where bytes are taken there is no part in front of them. -/
theorem NothingBehindPart.torn_eq_false {s : Sending} {payload : String} {writes : List Write}
    (h : NothingBehindPart s (.send payload writes)) (hopen : s.stream.closed = false)
    (hfits : (asBytes payload).length ≤ maxFrameBytes)
    (htaken : (writeAll writes (framed (asBytes payload))).2 ≠ []) : s.torn = false := by
  cases htorn : s.torn with
  | false => rfl
  | true =>
    rcases h htorn with hclosed | hover | hnothing
    · rw [hopen] at hclosed
      cases hclosed
    · exact absurd hfits (Nat.not_le.2 hover)
    · obtain ⟨kind, hnone⟩ := writeAll_of_takesNothing hnothing (framed_ne_nil (asBytes payload))
      exact absurd (congrArg Prod.snd hnone) htaken

/-- A send keeps the stream in step unless it writes behind a part. -/
theorem InStep.step {s : Sending} (h : InStep s) {i : SendInput} (hi : NothingBehindPart s i) :
    InStep (s.step i) := by
  cases i with
  | close => exact ⟨h.fits, h.written⟩
  | send payload writes =>
    obtain ⟨part, hwritten, hmore, hwhole⟩ := h.written
    rcases s.send_cases payload writes with
      hsame | ⟨hopen, hfits, ⟨htaken, hsend⟩ | ⟨n, hpos, hn, htaken, hsend⟩⟩
    · rw [Sending.step, hsame]
      exact h
    · have hpart := hi.torn_eq_false hopen hfits (ne_of_eq_of_ne htaken (framed_ne_nil _))
      rw [hwhole hpart, List.append_nil] at hwritten
      rw [Sending.step, hsend]
      refine ⟨fun p hp => ?_, [], ?_, rfl, fun _ => rfl⟩
      · rcases List.mem_append.1 hp with hp | hp
        · exact h.fits p hp
        · rw [List.mem_singleton.1 hp]
          exact hfits
      · simp only [List.map_append, List.map_cons, List.map_nil, List.flatten_append,
          List.flatten_cons, List.flatten_nil, List.append_nil, hwritten]
    · have hsome : (framed (asBytes payload)).take n ≠ [] := by
        rw [← List.length_pos_iff, List.length_take]
        omega
      have hpart := hi.torn_eq_false hopen hfits (ne_of_eq_of_ne htaken hsome)
      rw [hwhole hpart, List.append_nil] at hwritten
      rw [Sending.step, hsend]
      refine ⟨h.fits, (framed (asBytes payload)).take n, ?_, ?_, fun htorn => nomatch htorn⟩
      · rw [hwritten]
      · exact (reads_iff.2 ⟨hfits, rfl⟩ : frames.Reads _ _).next_take hn

/-- **Framing over partial writes.**  In every run in which nothing is written behind a part
of a frame, the other side has read, at every moment, the payloads that were sent. -/
theorem peer_reads_sent (inputs : List SendInput)
    (h : Sending.machine.Meets NothingBehindPart Sending.machine.init inputs) :
    ∀ before, before <+: inputs → PeerReadsSent (Sending.machine.run before) := by
  rintro before ⟨rest, rfl⟩
  rw [Machine.meets_append] at h
  have hinit : InStep Sending.machine.init :=
    ⟨fun _ hp => absurd hp List.not_mem_nil, [], rfl, rfl, fun _ => rfl⟩
  exact (Machine.invariant_of_meets _ (fun s i hs hi => hs.step hi) hinit h.1).peerReadsSent

/-- A frame of which six bytes of eight are taken, and the empty frame. -/
def tornRun : List SendInput :=
  [.send "abcd" [.accepted 6, .failed .wouldBlock], .send "" [.accepted 4]]

/-- The same with the second send refused. -/
def refusedRun : List SendInput :=
  [.send "abcd" [.accepted 6, .failed .wouldBlock], .send "" [.failed .wouldBlock]]

instance (s : Sending) : (i : SendInput) → Decidable (NothingBehindPart s i)
  | .send payload writes => inferInstanceAs (Decidable (s.torn = true → s.stream.closed = true ∨
      maxFrameBytes < (asBytes payload).length ∨ takesNothing writes = true))
  | .close => isTrue trivial

theorem peer_reads_sent_refused : PeerReadsSent (Sending.machine.run refusedRun) :=
  peer_reads_sent refusedRun (by decide) _ (List.prefix_refl _)

/-- The other side takes the bytes of the second frame for the end of the first. -/
theorem torn_frame_misread :
    ¬ ∀ inputs : List SendInput, PeerReadsSent (Sending.machine.run inputs) := by
  intro h
  have hwritten : (Sending.machine.run tornRun).stream.written =
      [0, 0, 0, 4, 97, 98, 0, 0, 0, 0] := by decide
  have hsent : (Sending.machine.run tornRun).sent.map asBytes = [[]] := by decide
  have hread : delivered (FrameDecoder.new.feeds [[0, 0, 0, 4, 97, 98, 0, 0, 0, 0]]) =
      [[97, 98, 0, 0]] := by decide +kernel
  have hall := (h tornRun [[0, 0, 0, 4, 97, 98, 0, 0, 0, 0]] hwritten.symm).1
  rw [hread, hsent] at hall
  cases hall

end Altior.Ipc
