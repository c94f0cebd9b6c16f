import Altior.Acp.Lines

/-!
# Lines and chunks

What `LineDecoder::feed` hands over depends on the chunks when a bad line is in one
chunk with lines that come before it, and a line that is no text is skipped by the
calls that follow.
-/

namespace Altior.Acp

open Lib
open List (Forall₂)

/-- A text with its newline is one item. -/
theorem lines_reads_iff {piece : List UInt8} {text : String} :
    lines.Reads piece text ↔ newlineByte ∉ asBytes text ∧
      (asBytes text).length + 1 ≤ maxLineBytes ∧ piece = asBytes text ++ [newlineByte] := by
  constructor
  · exact fun h => lineNext_eq_item h
  · rintro ⟨hopen, hfits, rfl⟩
    exact lineNext_text hopen hfits []

/-- A line that is refused: one that is no text, with its newline, or as many bytes as fit
without a newline among them, and one more. -/
inductive BadLine : List UInt8 → Prop
  | notUtf8 {line : List UInt8} : newlineByte ∉ line → line.length + 1 ≤ maxLineBytes →
      fromUtf8 line = none → BadLine (line ++ [newlineByte])
  | tooLong {run : List UInt8} (b : UInt8) : newlineByte ∉ run → run.length = maxLineBytes →
      BadLine (run ++ [b])

/-- A bad line makes the decoder fail with its last byte. -/
theorem lines_faults_iff {fault : List UInt8} : lines.Faults fault ↔ BadLine fault := by
  constructor
  · intro h
    obtain ⟨e, rest, hfail⟩ := h.fails
    -- What is needed to fail is all of the fault.
    have hall {piece tail : List UInt8} (hpiece : fault = piece ++ tail)
        (hfails : ∃ e rest, lineNext piece = .fail e rest) : tail = [] := by
      obtain ⟨e', rest', hfail'⟩ := hfails
      by_contra hne
      have hlt : piece.length < fault.length := by
        rw [hpiece, List.length_append]
        exact Nat.lt_add_of_pos_right (List.length_pos_of_ne_nil hne)
      have hmore := h.shortest _ hlt
      rw [hpiece, List.take_left, show lines.next piece = _ from hfail'] at hmore
      cases hmore
    rcases lineNext_eq_fail hfail with
      ⟨-, -, run, b, tail, heq, hlength, hrun⟩ | ⟨-, line, heq, hline, hfits, htext⟩
    · rw [List.append_cons] at heq
      obtain ⟨n, hlong⟩ := LongStart.lineNext ⟨run, b, [], rfl, hlength, hrun⟩
      rw [heq, hall heq ⟨_, _, hlong⟩, List.append_nil]
      exact .tooLong b hrun hlength
    · rw [List.append_cons] at heq
      rw [heq, hall heq ⟨_, _, lineNext_notUtf8 hline hfits htext []⟩, List.append_nil]
      exact .notUtf8 hline hfits htext
  · rintro (⟨hline, hfits, htext⟩ | ⟨b, hrun, hlength⟩)
    · refine ⟨⟨_, _, lineNext_notUtf8 hline hfits htext []⟩, fun n hn => ?_⟩
      rw [List.length_append, List.length_singleton] at hn
      rw [List.take_append_of_le_length (Nat.le_of_lt_succ hn)]
      refine lineNext_open (fun h => hline (List.mem_of_mem_take h)) ?_
      rw [List.length_take]
      omega
    · obtain ⟨n, hlong⟩ := LongStart.lineNext ⟨_, b, [], rfl, hlength, hrun⟩
      refine ⟨⟨_, _, hlong⟩, fun m hm => ?_⟩
      rw [List.length_append, List.length_singleton] at hm
      rw [List.take_append_of_le_length (Nat.le_of_lt_succ hm)]
      refine lineNext_open (fun h => hrun (List.mem_of_mem_take h)) ?_
      rw [List.length_take]
      omega

/-! ## A line over the cap -/

/-- Somewhere in the bytes there is a line over the cap. -/
def Overlong (bytes : List UInt8) : Prop := ∃ before rest, bytes = before ++ rest ∧ LongStart rest

theorem Overlong.append_left {bytes : List UInt8} (h : Overlong bytes) (before : List UInt8) :
    Overlong (before ++ bytes) := by
  obtain ⟨before', rest, rfl, hrest⟩ := h
  exact ⟨before ++ before', rest, (List.append_assoc ..).symm, hrest⟩

theorem Overlong.append_right {bytes : List UInt8} (h : Overlong bytes) (more : List UInt8) :
    Overlong (bytes ++ more) := by
  obtain ⟨before, rest, rfl, hrest⟩ := h
  exact ⟨before, rest ++ more, List.append_assoc .., hrest.append more⟩

/-- A line that fits is none over the cap. -/
theorem Overlong.of_line {line rest : List UInt8} (hfits : line.length + 1 ≤ maxLineBytes)
    (h : Overlong (line ++ newlineByte :: rest)) : Overlong rest := by
  obtain ⟨before, _, heq, run, b, tail, rfl, hlength, hrun⟩ := h
  rw [← List.append_assoc] at heq
  by_cases hlt : line.length < before.length
  · -- The run begins behind the newline.
    have hline : line ++ [newlineByte] <+: line ++ newlineByte :: rest :=
      ⟨rest, by rw [List.append_assoc]; rfl⟩
    have hbefore : before <+: line ++ newlineByte :: rest :=
      ⟨run ++ b :: tail, by rw [heq, List.append_assoc]⟩
    obtain ⟨more, hmore⟩ : line ++ [newlineByte] <+: before :=
      List.prefix_of_prefix_length_le hline hbefore (by rw [List.length_append]; exact hlt)
    rw [← hmore, List.append_assoc, List.append_assoc, List.append_assoc,
      List.append_cancel_left_eq] at heq
    obtain rfl : rest = more ++ (run ++ b :: tail) := (List.cons_inj_right _).1 heq
    exact ⟨more, _, rfl, run, b, tail, rfl, hlength, hrun⟩
  · -- The run would hold the newline.
    have hmem : newlineByte ∈ ((before ++ run) ++ b :: tail)[line.length]? := by
      rw [← heq, List.getElem?_append_right (Nat.le_refl _), Nat.sub_self]
      rfl
    rw [List.getElem?_append_left (by rw [List.length_append]; omega),
      List.getElem?_append_right (Nat.not_lt.1 hlt)] at hmem
    exact absurd (List.mem_of_getElem? hmem) hrun

variable {buffer : List UInt8} {chunks : List (List UInt8)}

/-- Where a line over the cap comes, more is needed of no buffer before it. -/
theorem Overlong.next_ne_more (h : Overlong buffer) : lineNext buffer ≠ .more := by
  intro hmore
  rcases line_or_open buffer with hopen | ⟨line, rest, rfl, hline⟩
  · obtain ⟨before, _, rfl, run, b, tail, rfl, hlength, hrun⟩ := h
    rw [lineNext_open_long hopen] at hmore
    · cases hmore
    · rw [List.length_append, List.length_append, List.length_cons]
      omega
  · by_cases hlong : maxLineBytes < line.length + 1
    · rw [lineNext_long hline hlong] at hmore
      cases hmore
    · rw [lineNext_line hline (Nat.not_lt.1 hlong)] at hmore
      cases htext : fromUtf8 line with
      | none =>
        rw [htext] at hmore
        cases hmore
      | some text =>
        rw [htext] at hmore
        cases hmore

/-- A line over the cap makes the decoder fail and is there afterwards. -/
theorem Overlong.drain (more : List UInt8) (h : Overlong (buffer ++ more)) :
    Overlong ((lines.drain buffer).2.2 ++ more) := by
  induction hn : buffer.length using Nat.strong_induction_on generalizing buffer with
  | _ n ih =>
    subst hn
    cases hnext : lines.next buffer with
    | more =>
      rw [Incremental.drain_more hnext]
      exact h
    | item text rest =>
      rw [Incremental.drain_item hnext]
      refine ih _ (lines.shrinks hnext) ?_ rfl
      obtain ⟨-, hfits, rfl⟩ := lineNext_eq_item hnext
      rw [List.append_assoc, List.cons_append] at h
      exact h.of_line hfits
    | fail e rest =>
      rw [Incremental.drain_fail hnext]
      rcases lineNext_eq_fail hnext with ⟨rfl, -, -⟩ | ⟨-, line, rfl, -, hfits, -⟩
      · exact h
      · rw [List.append_assoc, List.cons_append] at h
        exact h.of_line hfits

theorem Overlong.drain_fails (h : Overlong buffer) : ∃ e, (lines.drain buffer).2.1 = some e := by
  cases hnone : (lines.drain buffer).2.1 with
  | some e => exact ⟨e, rfl⟩
  | none =>
    have hrest := Overlong.drain [] (by rwa [List.append_nil])
    rw [List.append_nil] at hrest
    exact absurd (Incremental.next_drain hnone) hrest.next_ne_more

/-- With a line over the cap in its buffer, every call fails. -/
theorem Overlong.feed (h : Overlong buffer) (chunk : List UInt8) :
    (∃ e, (lines.feed buffer chunk).1 = .error e) ∧ Overlong (lines.feed buffer chunk).2 := by
  obtain ⟨e, herror⟩ := (h.append_right chunk).drain_fails
  have hmore : Overlong (buffer ++ chunk ++ []) := by
    rw [List.append_nil]
    exact h.append_right chunk
  have hrest := Overlong.drain [] hmore
  rw [List.append_nil] at hrest
  rw [Incremental.snd_feed, Incremental.feed_of_some herror]
  exact ⟨⟨e, rfl⟩, hrest⟩

/-- A line over the cap that was fed is in the buffer. -/
theorem Overlong.after (h : Overlong (buffer ++ chunks.flatten)) :
    Overlong (lines.after buffer chunks) := by
  induction chunks generalizing buffer with
  | nil => rwa [List.flatten_nil, List.append_nil] at h
  | cons chunk chunks ih =>
    rw [List.flatten_cons, ← List.append_assoc] at h
    rw [Incremental.after_cons]
    refine ih ?_
    rw [Incremental.snd_feed]
    exact Overlong.drain _ h

/-- An error takes bytes off the front only. -/
theorem lineNext_suffix {rest : List UInt8} {e : AcpError} (h : lineNext buffer = .fail e rest) :
    rest <:+ buffer := by
  rcases lineNext_eq_fail h with ⟨rfl, -, -⟩ | ⟨-, line, rfl, -⟩
  · exact List.suffix_rfl
  · exact ⟨line ++ [newlineByte], (List.append_cons ..).symm⟩

/-- A line over the cap in the buffer was fed. -/
theorem Overlong.of_after (h : Overlong (lines.after [] chunks)) : Overlong chunks.flatten := by
  obtain ⟨before, hfed⟩ := Incremental.after_suffix (d := lines) lineNext_suffix [] chunks
  rw [List.nil_append] at hfed
  exact hfed ▸ h.append_left before

/-- Without a line over the cap in the buffer, enough calls skip every bad line. -/
theorem exists_ok (h : ¬ Overlong buffer) :
    ∃ chunks texts, Except.ok texts ∈ lines.calls buffer chunks := by
  induction hn : buffer.length using Nat.strong_induction_on generalizing buffer with
  | _ n ih =>
    subst hn
    cases herror : (lines.drain buffer).2.1 with
    | none =>
      refine ⟨[[]], (lines.drain buffer).1, ?_⟩
      rw [Incremental.calls_cons, Incremental.feed_of_none (by rwa [List.append_nil]),
        List.append_nil]
      exact List.mem_cons_self
    | some e =>
      obtain ⟨pieces, buffer', hsplit, hfail⟩ := Incremental.next_drain_of_fail herror
      rcases lineNext_eq_fail hfail with ⟨-, -, hstart⟩ | ⟨-, line, hline, -, -, -⟩
      · exact absurd ⟨pieces, buffer', hsplit, hstart⟩ h
      -- The bad line has been taken off, so the next call goes on behind it.
      have hrest : buffer = (pieces ++ line ++ [newlineByte]) ++ (lines.drain buffer).2.2 := by
        conv_lhs => rw [hsplit, hline]
        simp only [List.append_assoc, List.cons_append, List.nil_append]
      have hshort : (lines.drain buffer).2.2.length < buffer.length := by
        conv_rhs => rw [hrest]
        simp only [List.length_append, List.length_singleton]
        omega
      have hnot : ¬ Overlong (lines.drain buffer).2.2 := fun hlong =>
        h (hrest ▸ hlong.append_left _)
      obtain ⟨chunks, texts, hok⟩ := ih _ hshort hnot rfl
      refine ⟨[] :: chunks, texts, ?_⟩
      rw [Incremental.calls_cons, Incremental.snd_feed, List.append_nil]
      exact List.mem_cons_of_mem _ hok

/-! ## Where chunks matter -/

/-- A stream of lines, and then a bad one. -/
structure Broken (stream : List UInt8) (texts : List String) (fault : List UInt8) : Prop where
  stream_eq : ∃ tail, stream =
    (texts.map fun text => asBytes text ++ [newlineByte]).flatten ++ fault ++ tail
  lines : ∀ text ∈ texts, newlineByte ∉ asBytes text ∧ (asBytes text).length + 1 ≤ maxLineBytes
  fault : BadLine fault

/-- Where the bad line ends. -/
def faultEnd (texts : List String) (fault : List UInt8) : Nat :=
  (texts.map fun text => asBytes text ++ [newlineByte]).flatten.length + fault.length

/-- How many lines end before the chunk with the last byte of the bad line. -/
def linesBefore (texts : List String) (fault : List UInt8) (chunks : List (List UInt8)) : Nat :=
  endWithin (fedBefore (faultEnd texts fault) chunks)
    (texts.map fun text => asBytes text ++ [newlineByte])

/-- If a bad line comes, as many lines end before the chunk it ends in, in one cutting as in
the other. -/
def SameLinesBefore (xs ys : List (List UInt8)) : Prop :=
  ∀ texts fault, Broken xs.flatten texts fault →
    linesBefore texts fault xs = linesBefore texts fault ys

/-- By the chunk a bad line ends in, a line over the cap has come. -/
def BrokenOverlong (chunks : List (List UInt8)) : Prop :=
  ∀ texts fault n, Broken chunks.flatten texts fault →
    faultEnd texts fault ≤ (chunks.take n).flatten.length → Overlong (chunks.take n).flatten

/-- After an error every call fails, whatever is fed. -/
def Poisons (chunks : List (List UInt8)) : Prop :=
  ∀ n more, firstError (LineDecoder.new.feeds (chunks.take n)) ≠ none →
    ∀ result ∈ (LineDecoder.new.fed (chunks.take n)).feeds more, ∃ e, result = .error e

/-- **Chunks do not matter**: two cuttings of a stream deliver the same lines before the
same kind of error, and with both the error is for good. -/
structure LinesUnseen (xs ys : List (List UInt8)) : Prop where
  lines : delivered (LineDecoder.new.feeds xs) = delivered (LineDecoder.new.feeds ys)
  error : (firstError (LineDecoder.new.feeds xs)).map AcpError.variant =
    (firstError (LineDecoder.new.feeds ys)).map AcpError.variant
  poisoned : Poisons xs ∧ Poisons ys

theorem Broken.reads {stream : List UInt8} {texts : List String} {fault : List UInt8}
    (h : Broken stream texts fault) :
    Forall₂ Altior.Acp.lines.Reads (texts.map fun text => asBytes text ++ [newlineByte]) texts := by
  rw [List.forall₂_map_left_iff, List.forall₂_same]
  exact fun text ht => lines_reads_iff.2 ⟨(h.lines text ht).1, (h.lines text ht).2, rfl⟩

/-- Every stream that leads to an error is broken. -/
theorem exists_broken (h : firstError (lines.calls [] chunks) ≠ none) :
    ∃ texts fault, Broken chunks.flatten texts fault := by
  obtain ⟨pieces, texts, rest, hstream, hreads, hrest⟩ :=
    Incremental.exists_pieces (d := lines) chunks.flatten
  rcases hrest with hmore | ⟨fault, tail, rfl, hfault⟩
  · exact absurd (Incremental.delivered_of_more hstream hreads hmore).2.1 h
  obtain rfl : pieces = texts.map fun text => asBytes text ++ [newlineByte] := by
    rw [← List.forall₂_eq_eq_eq, List.forall₂_map_right_iff]
    exact hreads.imp fun _ _ hread => (lines_reads_iff.1 hread).2.2
  refine ⟨texts, fault, ⟨tail, by rw [hstream, List.append_assoc]⟩, fun text ht => ?_,
    lines_faults_iff.1 hfault⟩
  rw [List.forall₂_map_left_iff, List.forall₂_same] at hreads
  exact ⟨(lines_reads_iff.1 (hreads text ht)).1, (lines_reads_iff.1 (hreads text ht)).2.1⟩

/-- An error is for good iff a line over the cap has come with the bad line. -/
theorem poisons_iff (chunks : List (List UInt8)) : Poisons chunks ↔ BrokenOverlong chunks := by
  have htake (n : Nat) : chunks.flatten = (chunks.take n).flatten ++ (chunks.drop n).flatten := by
    rw [← List.flatten_append, List.take_append_drop]
  constructor
  · intro hpoisons texts fault n hbroken hend
    by_contra hshort
    obtain ⟨tail, hstream⟩ := hbroken.stream_eq
    have hfault := lines_faults_iff.2 hbroken.fault
    -- The chunks so far hold the bad line.
    obtain ⟨tail', htail'⟩ :
        (texts.map fun text => asBytes text ++ [newlineByte]).flatten ++ fault <+:
          (chunks.take n).flatten :=
      List.prefix_of_prefix_length_le (hstream ▸ List.prefix_append _ tail)
        (htake n ▸ List.prefix_append _ _) (by rwa [List.length_append])
    obtain ⟨-, e, herror⟩ := Incremental.delivered_of_fault htail'.symm hbroken.reads hfault
    obtain ⟨more, texts', hok⟩ := exists_ok fun hlong => hshort (Overlong.of_after hlong)
    have hall := hpoisons n more (by rw [LineDecoder.feeds_eq]; exact herror ▸ Option.some_ne_none e)
    rw [LineDecoder.fed_eq, LineDecoder.feeds_eq] at hall
    obtain ⟨e', he'⟩ := hall _ hok
    cases he'
  · intro hlong n more herror
    rw [LineDecoder.feeds_eq] at herror
    obtain ⟨texts, fault, hbroken⟩ := exists_broken herror
    obtain ⟨tail, hstream⟩ := hbroken.stream_eq
    have hend : faultEnd texts fault ≤ (chunks.take n).flatten.length := by
      rw [hstream, List.length_append, List.length_append]
      exact Nat.le_add_right _ _
    have hwhole : Broken chunks.flatten texts fault :=
      ⟨⟨tail ++ (chunks.drop n).flatten, by rw [htake n, hstream, List.append_assoc _ tail]⟩,
        hbroken.lines, hbroken.fault⟩
    have hafter : Overlong (lines.after [] (chunks.take n)) :=
      Overlong.after (hlong texts fault n hwhole hend)
    rw [LineDecoder.fed_eq, LineDecoder.feeds_eq]
    exact Incremental.calls_error_of_stuck (fun b c hb => hb.feed c) hafter more

/-- **Line decoding and chunks.**  Two cuttings of a stream cannot be told apart and end for
good iff as many lines end before the chunk of a bad line in one as in the other, and by
that chunk a line over the cap has come in both. -/
theorem linesUnseen_iff (xs ys : List (List UInt8)) (h : xs.flatten = ys.flatten) :
    LinesUnseen xs ys ↔ SameLinesBefore xs ys ∧ BrokenOverlong xs ∧ BrokenOverlong ys := by
  have hdelivered {texts : List String} {fault : List UInt8}
      (hbroken : Broken xs.flatten texts fault) :
      delivered (LineDecoder.new.feeds xs) = delivered (LineDecoder.new.feeds ys) ↔
        linesBefore texts fault xs = linesBefore texts fault ys := by
    obtain ⟨tail, hstream⟩ := hbroken.stream_eq
    rw [LineDecoder.feeds_eq, LineDecoder.feeds_eq]
    exact Incremental.delivered_eq_iff hstream h.symm hbroken.reads
      (lines_faults_iff.2 hbroken.fault)
  constructor
  · exact fun hunseen => ⟨fun texts fault hbroken => (hdelivered hbroken).1 hunseen.lines,
      (poisons_iff xs).1 hunseen.poisoned.1, (poisons_iff ys).1 hunseen.poisoned.2⟩
  rintro ⟨hsame, hx, hy⟩
  refine ⟨?_, ?_, (poisons_iff xs).2 hx, (poisons_iff ys).2 hy⟩
  · obtain ⟨pieces, texts, rest, hstream, hreads, hrest⟩ :=
      Incremental.exists_pieces (d := lines) xs.flatten
    rcases hrest with hmore | ⟨fault, tail, rfl, hfault⟩
    · rw [LineDecoder.feeds_eq, LineDecoder.feeds_eq]
      exact (Incremental.delivered_of_more hstream hreads hmore).1.trans
        (Incremental.delivered_of_more (h ▸ hstream) hreads hmore).1.symm
    · rw [← List.append_assoc] at hstream
      obtain ⟨-, e, herror⟩ := Incremental.delivered_of_fault hstream hreads hfault
      obtain ⟨texts, fault, hbroken⟩ := exists_broken (herror ▸ Option.some_ne_none e)
      exact (hdelivered hbroken).2 (hsame texts fault hbroken)
  · have hkind := Incremental.kind_firstError (d := lines) xs lines.next_nil
    rw [h, ← Incremental.kind_firstError (d := lines) ys lines.next_nil] at hkind
    rw [LineDecoder.feeds_eq, LineDecoder.feeds_eq]
    exact hkind

/-- A line that is no text, and a chunk of its own for the next line. -/
def badThenGood : List (List UInt8) := [[255, 10], [97, 10]]

theorem linesUnseen_badThenGood : LinesUnseen badThenGood badThenGood ↔
    SameLinesBefore badThenGood badThenGood ∧ BrokenOverlong badThenGood ∧
      BrokenOverlong badThenGood :=
  linesUnseen_iff badThenGood badThenGood rfl

/-- The call after a line that is no text returns the next line. -/
theorem bad_line_skipped :
    ¬ ∀ xs ys : List (List UInt8), xs.flatten = ys.flatten → LinesUnseen xs ys := by
  intro h
  have hbad : firstError (LineDecoder.new.feeds (badThenGood.take 1)) ≠ none := by decide +kernel
  have hgood : (LineDecoder.new.fed (badThenGood.take 1)).feeds [[97, 10]] = [.ok ["a"]] := by
    decide +kernel
  have hall := (h badThenGood badThenGood rfl).poisoned.1 1 [[97, 10]] hbad
  rw [hgood] at hall
  obtain ⟨e, he⟩ := hall _ (List.mem_singleton_self _)
  cases he

end Altior.Acp
