import Altior.Acp.Wire
import Altior.Lib.Incremental
import Altior.Lib.Utf8

/-!
# Lines

The newline-delimited lines of the agent's stream (`altior-acp/src/wire.rs`) and how
their decoding depends on the chunks in which a stream arrives.
-/

namespace Altior.Acp

open Lib

/-- Hard cap on one line of the stream, with its newline. -/
def maxLineBytes : Nat := 1024 * 1024

/-- The byte that ends a line. -/
def newlineByte : UInt8 := 10

/-- Appends the newline to a line that fits. -/
def encodeLine (line : String) : Except AcpError (List UInt8) :=
  let bytes := asBytes line
  if maxLineBytes < bytes.length + 1 then
    .error (.lineTooLarge (bytes.length + 1) maxLineBytes)
  else .ok (bytes ++ [newlineByte])

/-- A decoder and the bytes it waits with. -/
structure LineDecoder where
  buffer : List UInt8
deriving DecidableEq

def LineDecoder.new : LineDecoder := ⟨[]⟩

/-- One round of the loop of `feed`.  A line over the cap stays in the buffer; a line that
is no text has been taken off when it is refused. -/
def lineNext (buffer : List UInt8) : Reading UInt8 String AcpError :=
  match buffer.findIdx? (· == newlineByte) with
  | none =>
    if maxLineBytes < buffer.length then
      .fail (.lineTooLarge buffer.length maxLineBytes) buffer
    else .more
  | some newline =>
    if maxLineBytes < newline + 1 then
      .fail (.lineTooLarge (newline + 1) maxLineBytes) buffer
    else
      match fromUtf8 (buffer.take newline) with
      | none => .fail .lineNotUtf8 (buffer.drop (newline + 1))
      | some line => .item line (buffer.drop (newline + 1))

/-- The variant of an error, whatever its sizes. -/
def AcpError.variant : AcpError → AcpError
  | .lineTooLarge _ _ => .lineTooLarge 0 0
  | e => e

/-! ## One line -/

variable {buffer line : List UInt8}

theorem findIdx?_open (h : newlineByte ∉ buffer) : buffer.findIdx? (· == newlineByte) = none :=
  List.findIdx?_eq_none_iff.2 fun _ hb => beq_false_of_ne fun heq => h (heq ▸ hb)

theorem findIdx?_newline (h : newlineByte ∉ line) (rest : List UInt8) :
    (line ++ newlineByte :: rest).findIdx? (· == newlineByte) = some line.length := by
  rw [List.findIdx?_append, findIdx?_open h, List.findIdx?_cons]
  simp

theorem lineNext_open (h : newlineByte ∉ buffer) (hfits : buffer.length ≤ maxLineBytes) :
    lineNext buffer = .more := by
  unfold lineNext
  rw [findIdx?_open h]
  exact if_neg (Nat.not_lt.2 hfits)

theorem lineNext_open_long (h : newlineByte ∉ buffer) (hlong : maxLineBytes < buffer.length) :
    lineNext buffer = .fail (.lineTooLarge buffer.length maxLineBytes) buffer := by
  unfold lineNext
  rw [findIdx?_open h]
  exact if_pos hlong

theorem lineNext_long (h : newlineByte ∉ line) (hlong : maxLineBytes < line.length + 1)
    (rest : List UInt8) :
    lineNext (line ++ newlineByte :: rest) =
      .fail (.lineTooLarge (line.length + 1) maxLineBytes) (line ++ newlineByte :: rest) := by
  unfold lineNext
  rw [findIdx?_newline h]
  exact if_pos hlong

theorem lineNext_line (h : newlineByte ∉ line) (hfits : line.length + 1 ≤ maxLineBytes)
    (rest : List UInt8) :
    lineNext (line ++ newlineByte :: rest) =
      match fromUtf8 line with
      | none => .fail .lineNotUtf8 rest
      | some text => .item text rest := by
  have hdrop : (line ++ newlineByte :: rest).drop (line.length + 1) = rest := by
    rw [← List.drop_drop, List.drop_left]
    rfl
  unfold lineNext
  rw [findIdx?_newline h]
  dsimp only
  rw [if_neg (Nat.not_lt.2 hfits), List.take_left, hdrop]

/-- A buffer is a line and what follows, or the beginning of a line. -/
theorem line_or_open (buffer : List UInt8) :
    newlineByte ∉ buffer ∨ ∃ line rest, buffer = line ++ newlineByte :: rest ∧ newlineByte ∉ line := by
  by_cases h : newlineByte ∈ buffer
  · exact .inr (List.eq_append_cons_of_mem h)
  · exact .inl h

/-- The buffer begins with a line over the cap: as many bytes as fit without a newline
among them, and one more. -/
def LongStart (buffer : List UInt8) : Prop :=
  ∃ run b tail, buffer = run ++ b :: tail ∧ run.length = maxLineBytes ∧ newlineByte ∉ run

theorem LongStart.append (h : LongStart buffer) (more : List UInt8) :
    LongStart (buffer ++ more) := by
  obtain ⟨run, b, tail, rfl, hlength, hrun⟩ := h
  exact ⟨run, b, tail ++ more, by rw [List.append_assoc, List.cons_append], hlength, hrun⟩

/-- So many bytes without a newline begin a line over the cap. -/
theorem longStart_of_run {run rest : List UInt8} (hrun : newlineByte ∉ run)
    (hlong : maxLineBytes ≤ run.length) (hmore : maxLineBytes < (run ++ rest).length) :
    LongStart (run ++ rest) := by
  have hsplit := (List.take_append_drop maxLineBytes (run ++ rest)).symm
  have htake : (run ++ rest).take maxLineBytes = run.take maxLineBytes :=
    List.take_append_of_le_length hlong
  cases hdrop : (run ++ rest).drop maxLineBytes with
  | nil =>
    have hlength := List.length_drop (i := maxLineBytes) (l := run ++ rest)
    rw [hdrop, List.length_nil] at hlength
    omega
  | cons b tail =>
    rw [htake, hdrop] at hsplit
    exact ⟨_, b, tail, hsplit, List.length_take_of_le hlong, fun h => hrun (List.mem_of_mem_take h)⟩

/-- A line over the cap is refused. -/
theorem LongStart.lineNext (h : LongStart buffer) :
    ∃ n, lineNext buffer = .fail (.lineTooLarge n maxLineBytes) buffer := by
  obtain ⟨run, b, tail, rfl, hlength, hrun⟩ := h
  rcases line_or_open (run ++ b :: tail) with hopen | ⟨line, rest, heq, hline⟩
  · refine ⟨_, lineNext_open_long hopen ?_⟩
    rw [List.length_append, List.length_cons]
    omega
  · rw [heq]
    refine ⟨_, lineNext_long hline ?_ rest⟩
    -- The newline is not among the first bytes.
    by_contra hshort
    have hmem : newlineByte ∈ (line ++ newlineByte :: rest).take maxLineBytes := by
      rw [List.take_append, List.mem_append]
      have hpos : maxLineBytes - line.length = maxLineBytes - line.length - 1 + 1 := by omega
      rw [hpos, List.take_succ_cons]
      exact .inr List.mem_cons_self
    rw [← heq, List.take_left' hlength] at hmem
    exact hrun hmem

/-- A line that was taken off. -/
theorem lineNext_eq_item {rest : List UInt8} {text : String}
    (h : lineNext buffer = .item text rest) :
    newlineByte ∉ asBytes text ∧ (asBytes text).length + 1 ≤ maxLineBytes ∧
      buffer = asBytes text ++ newlineByte :: rest := by
  rcases line_or_open buffer with hopen | ⟨line, rest', rfl, hline⟩
  · by_cases hlong : maxLineBytes < buffer.length
    · rw [lineNext_open_long hopen hlong] at h
      cases h
    · rw [lineNext_open hopen (Nat.not_lt.1 hlong)] at h
      cases h
  by_cases hlong : maxLineBytes < line.length + 1
  · rw [lineNext_long hline hlong] at h
    cases h
  rw [lineNext_line hline (Nat.not_lt.1 hlong)] at h
  cases htext : fromUtf8 line with
  | none =>
    rw [htext] at h
    cases h
  | some text' =>
    rw [htext] at h
    cases h
    obtain rfl := fromUtf8_eq_some.1 htext
    exact ⟨hline, Nat.not_lt.1 hlong, rfl⟩

/-- The whole of a line that is a text. -/
theorem lineNext_text {text : String} (h : newlineByte ∉ asBytes text)
    (hfits : (asBytes text).length + 1 ≤ maxLineBytes) (rest : List UInt8) :
    lineNext (asBytes text ++ newlineByte :: rest) = .item text rest := by
  rw [lineNext_line h hfits, fromUtf8_asBytes]

/-- The whole of a line that is no text. -/
theorem lineNext_notUtf8 (h : newlineByte ∉ line) (hfits : line.length + 1 ≤ maxLineBytes)
    (htext : fromUtf8 line = none) (rest : List UInt8) :
    lineNext (line ++ newlineByte :: rest) = .fail .lineNotUtf8 rest := by
  rw [lineNext_line h hfits, htext]

/-- What is refused: a line over the cap, or a line that is no text. -/
theorem lineNext_eq_fail {rest : List UInt8} {e : AcpError} (h : lineNext buffer = .fail e rest) :
    (rest = buffer ∧ (∃ n, e = .lineTooLarge n maxLineBytes) ∧ LongStart buffer) ∨
      (e = .lineNotUtf8 ∧ ∃ line, buffer = line ++ newlineByte :: rest ∧ newlineByte ∉ line ∧
        line.length + 1 ≤ maxLineBytes ∧ fromUtf8 line = none) := by
  rcases line_or_open buffer with hopen | ⟨line, rest', rfl, hline⟩
  · by_cases hlong : maxLineBytes < buffer.length
    · rw [lineNext_open_long hopen hlong] at h
      cases h
      have hstart : LongStart (buffer ++ []) :=
        longStart_of_run hopen (Nat.le_of_lt hlong) (by rwa [List.append_nil])
      rw [List.append_nil] at hstart
      exact .inl ⟨rfl, ⟨_, rfl⟩, hstart⟩
    · rw [lineNext_open hopen (Nat.not_lt.1 hlong)] at h
      cases h
  by_cases hlong : maxLineBytes < line.length + 1
  · rw [lineNext_long hline hlong] at h
    cases h
    refine .inl ⟨rfl, ⟨_, rfl⟩, longStart_of_run hline (Nat.le_of_lt_succ hlong) ?_⟩
    rw [List.length_append, List.length_cons]
    omega
  rw [lineNext_line hline (Nat.not_lt.1 hlong)] at h
  cases htext : fromUtf8 line with
  | none =>
    rw [htext] at h
    cases h
    exact .inr ⟨rfl, line, rfl, hline, Nat.not_lt.1 hlong, htext⟩
  | some text =>
    rw [htext] at h
    cases h

/-! ## The decoder -/

/-- The decoder of lines. -/
def lines : Incremental UInt8 String AcpError AcpError where
  next := lineNext
  kind := AcpError.variant
  next_nil := rfl
  item_split h := by
    obtain ⟨hopen, hfits, rfl⟩ := lineNext_eq_item h
    exact ⟨_, List.append_cons .., lineNext_text hopen hfits []⟩
  item_append c h := by
    obtain ⟨hopen, hfits, rfl⟩ := lineNext_eq_item h
    rw [List.append_assoc, List.cons_append, lineNext_text hopen hfits]
  fail_append c h := by
    rcases lineNext_eq_fail h with ⟨rfl, ⟨n, rfl⟩, hstart⟩ | ⟨rfl, line, rfl, hline, hfits, htext⟩
    · obtain ⟨n', hfail⟩ := (hstart.append c).lineNext
      exact ⟨_, _, hfail, rfl⟩
    · rw [List.append_assoc, List.cons_append]
      exact ⟨_, _, lineNext_notUtf8 hline hfits htext _, rfl⟩

namespace LineDecoder

/-- Feeds a chunk and returns every line that is complete then. -/
def feed (decoder : LineDecoder) (chunk : List UInt8) :
    Except AcpError (List String) × LineDecoder :=
  ((lines.feed decoder.buffer chunk).1, ⟨(lines.feed decoder.buffer chunk).2⟩)

/-- What `feed` returns for some chunks, one after the other. -/
def feeds (decoder : LineDecoder) : List (List UInt8) → List (Except AcpError (List String))
  | [] => []
  | chunk :: chunks => (decoder.feed chunk).1 :: feeds (decoder.feed chunk).2 chunks

/-- The decoder after some chunks. -/
def fed (decoder : LineDecoder) (chunks : List (List UInt8)) : LineDecoder :=
  chunks.foldl (fun decoder chunk => (decoder.feed chunk).2) decoder

theorem feeds_eq (decoder : LineDecoder) (chunks : List (List UInt8)) :
    decoder.feeds chunks = lines.calls decoder.buffer chunks := by
  induction chunks generalizing decoder with
  | nil => rfl
  | cons chunk chunks ih =>
    rw [feeds, ih]
    rfl

theorem fed_eq (decoder : LineDecoder) (chunks : List (List UInt8)) :
    decoder.fed chunks = ⟨lines.after decoder.buffer chunks⟩ := by
  induction chunks generalizing decoder with
  | nil => rfl
  | cons chunk chunks ih => exact ih _

end LineDecoder

end Altior.Acp
