import Mathlib.Data.List.Forall2
import Mathlib.Data.Nat.Find

/-!
# Incremental decoders

A decoder takes items off the front of a buffer and is fed a stream in chunks.  What
it says of a buffer it says of every longer one as well, so what a stream decodes to
does not depend on the chunks; what the calls hand over does, since a call that fails
hands over nothing.
-/

namespace Altior.Lib

universe u v w x

/-- What a decoder makes of its buffer. -/
inductive Reading (β : Type u) (α : Type v) (ε : Type w)
  /-- More is needed. -/
  | more
  /-- An item, and what is left. -/
  | item (a : α) (rest : List β)
  /-- An error, and what is left. -/
  | fail (e : ε) (rest : List β)

/-- A decoder that goes by what is at the front of its buffer.  Of an error, only its
kind has to stand when more arrives. -/
structure Incremental (β : Type u) (α : Type v) (ε : Type w) (κ : Type x) where
  next : List β → Reading β α ε
  kind : ε → κ
  next_nil : next [] = .more
  item_split : ∀ {b a rest}, next b = .item a rest →
    ∃ piece, b = piece ++ rest ∧ next piece = .item a []
  item_append : ∀ {b a rest} (c), next b = .item a rest → next (b ++ c) = .item a (rest ++ c)
  fail_append : ∀ {b e rest} (c), next b = .fail e rest →
    ∃ e' rest', next (b ++ c) = .fail e' rest' ∧ kind e' = kind e

/-! ## What the calls say -/

section Calls

variable {α : Type v} {ε : Type w}

/-- What is handed over before the first error. -/
def delivered : List (Except ε (List α)) → List α
  | .ok items :: rest => items ++ delivered rest
  | _ => []

def firstError : List (Except ε (List α)) → Option ε
  | .ok _ :: rest => firstError rest
  | .error e :: _ => some e
  | [] => none

@[simp] theorem delivered_ok (items : List α) (rest : List (Except ε (List α))) :
    delivered (.ok items :: rest) = items ++ delivered rest := rfl

@[simp] theorem delivered_error (e : ε) (rest : List (Except ε (List α))) :
    delivered (.error e :: rest) = [] := rfl

@[simp] theorem firstError_ok (items : List α) (rest : List (Except ε (List α))) :
    firstError (.ok items :: rest) = firstError rest := rfl

/-- Calls without an error come before the others. -/
theorem delivered_append {rs : List (Except ε (List α))} (h : firstError rs = none)
    (rs' : List (Except ε (List α))) :
    delivered (rs ++ rs') = delivered rs ++ delivered rs' ∧
      firstError (rs ++ rs') = firstError rs' := by
  induction rs with
  | nil => exact ⟨rfl, rfl⟩
  | cons r rs ih =>
    cases r with
    | error e => cases h
    | ok items =>
      obtain ⟨hdelivered, herror⟩ := ih h
      rw [List.cons_append, delivered_ok, delivered_ok, hdelivered, List.append_assoc]
      exact ⟨rfl, herror⟩

theorem firstError_append_of_some {rs : List (Except ε (List α))} {e : ε} (h : firstError rs = some e)
    (rs' : List (Except ε (List α))) : firstError (rs ++ rs') = some e := by
  induction rs with
  | nil => cases h
  | cons r rs ih =>
    cases r with
    | error e => exact h
    | ok items => exact ih h

end Calls

/-! ## Positions in a stream -/

section Positions

variable {β : Type u}

/-- How much is fed before the chunk with element number `p` of the stream. -/
def fedBefore (p : Nat) : List (List β) → Nat
  | [] => 0
  | c :: cs => if c.length < p then c.length + fedBefore (p - c.length) cs else 0

/-- How many of some pieces end within the first `n` elements of a stream. -/
def endWithin (n : Nat) : List (List β) → Nat
  | [] => 0
  | p :: ps => if p.length ≤ n then endWithin (n - p.length) ps + 1 else 0

theorem endWithin_le (n : Nat) (pieces : List (List β)) : endWithin n pieces ≤ pieces.length := by
  induction pieces generalizing n with
  | nil => exact le_rfl
  | cons p ps ih =>
    unfold endWithin
    split
    · exact Nat.succ_le_succ (ih _)
    · exact Nat.zero_le _

/-- The chunk with element number `p`, and the chunks before and after it. -/
theorem exists_chunk {p : Nat} {cs : List (List β)} (hp : 0 < p) (h : p ≤ cs.flatten.length) :
    ∃ before c after, cs = before ++ c :: after ∧ before.flatten.length < p ∧
      p ≤ before.flatten.length + c.length ∧ fedBefore p cs = before.flatten.length := by
  induction cs generalizing p with
  | nil => exact absurd h (Nat.not_le.2 hp)
  | cons c cs ih =>
    rw [List.flatten_cons, List.length_append] at h
    by_cases hc : c.length < p
    · obtain ⟨before, c', after, hcs, hlt, hle, hfed⟩ :=
        ih (Nat.sub_pos_of_lt hc) (Nat.sub_le_iff_le_add'.2 h)
      refine ⟨c :: before, c', after, by rw [hcs, List.cons_append], ?_, ?_, ?_⟩
      · rw [List.flatten_cons, List.length_append]
        omega
      · rw [List.flatten_cons, List.length_append]
        omega
      · rw [fedBefore, if_pos hc, hfed, List.flatten_cons, List.length_append]
    · refine ⟨[], c, cs, rfl, hp, ?_, ?_⟩
      · rw [List.flatten_nil, List.length_nil, Nat.zero_add]
        exact Nat.not_lt.1 hc
      · rw [fedBefore, if_neg hc, List.flatten_nil, List.length_nil]

end Positions

namespace Incremental

variable {β : Type u} {α : Type v} {ε : Type w} {κ : Type x} (d : Incremental β α ε κ)

variable {b rest : List β}

theorem shrinks {a : α} (h : d.next b = .item a rest) : rest.length < b.length := by
  obtain ⟨piece, rfl, hpiece⟩ := d.item_split h
  have hne : piece ≠ [] := by
    rintro rfl
    rw [d.next_nil] at hpiece
    cases hpiece
  rw [List.length_append]
  exact Nat.lt_add_of_pos_left (List.length_pos_of_ne_nil hne)

/-- Takes items off until more is needed or the decoder fails: the items, the error, and
the buffer then. -/
def drain (b : List β) : List α × Option ε × List β :=
  match _ : d.next b with
  | .more => ([], none, b)
  | .item a rest => (a :: (drain rest).1, (drain rest).2)
  | .fail e rest => ([], some e, rest)
termination_by b.length
decreasing_by all_goals exact d.shrinks ‹_›

/-- Feeds one chunk: the items that are complete then, or the error, and the buffer.  The
items in front of an error are dropped with it. -/
def feed (b c : List β) : Except ε (List α) × List β :=
  match d.drain (b ++ c) with
  | (items, none, rest) => (.ok items, rest)
  | (_, some e, rest) => (.error e, rest)

/-- What the calls for some chunks return. -/
def calls (b : List β) : List (List β) → List (Except ε (List α))
  | [] => []
  | c :: cs => (d.feed b c).1 :: calls (d.feed b c).2 cs

/-- The buffer after some chunks. -/
def after (b : List β) : List (List β) → List β
  | [] => b
  | c :: cs => after (d.feed b c).2 cs

variable {d}

theorem drain_more (h : d.next b = .more) : d.drain b = ([], none, b) := by
  rw [drain]
  split <;> simp_all

theorem drain_item {a : α} (h : d.next b = .item a rest) :
    d.drain b = (a :: (d.drain rest).1, (d.drain rest).2) := by
  rw [drain]
  split <;> simp_all

theorem drain_fail {e : ε} (h : d.next b = .fail e rest) : d.drain b = ([], some e, rest) := by
  rw [drain]
  split <;> simp_all

/-- What was read before more was needed is read first when more has come. -/
theorem drain_append (h : (d.drain b).2.1 = none) (c : List β) :
    d.drain (b ++ c) =
      ((d.drain b).1 ++ (d.drain ((d.drain b).2.2 ++ c)).1, (d.drain ((d.drain b).2.2 ++ c)).2) := by
  induction hn : b.length using Nat.strong_induction_on generalizing b with
  | _ n ih =>
    subst hn
    cases hnext : d.next b with
    | more =>
      rw [drain_more hnext]
      rfl
    | item a rest =>
      rw [drain_item hnext] at h ⊢
      rw [drain_item (d.item_append c hnext), ih _ (d.shrinks hnext) h rfl]
      rfl
    | fail e rest =>
      rw [drain_fail hnext] at h
      cases h

/-- An error stands when more has come, and so does what was read before it. -/
theorem drain_append_of_fail {e : ε} (h : (d.drain b).2.1 = some e) (c : List β) :
    ∃ e', (d.drain (b ++ c)).1 = (d.drain b).1 ∧ (d.drain (b ++ c)).2.1 = some e' ∧
      d.kind e' = d.kind e := by
  induction hn : b.length using Nat.strong_induction_on generalizing b with
  | _ n ih =>
    subst hn
    cases hnext : d.next b with
    | more =>
      rw [drain_more hnext] at h
      cases h
    | item a rest =>
      rw [drain_item hnext] at h ⊢
      obtain ⟨e', hitems, he', hkind⟩ := ih _ (d.shrinks hnext) h rfl
      rw [drain_item (d.item_append c hnext)]
      exact ⟨e', congrArg (a :: ·) hitems, he', hkind⟩
    | fail e₀ rest =>
      rw [drain_fail hnext] at h ⊢
      cases h
      obtain ⟨e', rest', hnext', hkind⟩ := d.fail_append c hnext
      rw [drain_fail hnext']
      exact ⟨e', rfl, rfl, hkind⟩

/-- The buffer is left where more is needed. -/
theorem next_drain (h : (d.drain b).2.1 = none) : d.next (d.drain b).2.2 = .more := by
  induction hn : b.length using Nat.strong_induction_on generalizing b with
  | _ n ih =>
    subst hn
    cases hnext : d.next b with
    | more =>
      rw [drain_more hnext]
      exact hnext
    | item a rest =>
      rw [drain_item hnext] at h ⊢
      exact ih _ (d.shrinks hnext) h rfl
    | fail e rest =>
      rw [drain_fail hnext] at h
      cases h

/-- An error leaves what the decoder leaves of some end of the buffer. -/
theorem next_drain_of_fail {e : ε} (h : (d.drain b).2.1 = some e) :
    ∃ pieces b', b = pieces ++ b' ∧ d.next b' = .fail e (d.drain b).2.2 := by
  induction hn : b.length using Nat.strong_induction_on generalizing b with
  | _ n ih =>
    subst hn
    cases hnext : d.next b with
    | more =>
      rw [drain_more hnext] at h
      cases h
    | item a rest =>
      rw [drain_item hnext] at h ⊢
      obtain ⟨piece, rfl, -⟩ := d.item_split hnext
      obtain ⟨pieces, b', hb', hfail⟩ := ih _ (d.shrinks hnext) h rfl
      exact ⟨piece ++ pieces, b', by rw [hb', List.append_assoc], hfail⟩
    | fail e' rest =>
      rw [drain_fail hnext] at h ⊢
      cases h
      exact ⟨[], b, rfl, hnext⟩

/-! ## Runs of calls -/

theorem feed_of_none {c : List β} (h : (d.drain (b ++ c)).2.1 = none) :
    d.feed b c = (.ok (d.drain (b ++ c)).1, (d.drain (b ++ c)).2.2) := by
  unfold feed
  split <;> simp_all

theorem feed_of_some {c : List β} {e : ε} (h : (d.drain (b ++ c)).2.1 = some e) :
    d.feed b c = (.error e, (d.drain (b ++ c)).2.2) := by
  unfold feed
  split <;> simp_all

theorem snd_feed (b c : List β) : (d.feed b c).2 = (d.drain (b ++ c)).2.2 := by
  cases herror : (d.drain (b ++ c)).2.1 with
  | none => rw [feed_of_none herror]
  | some e => rw [feed_of_some herror]

@[simp] theorem calls_cons (b c : List β) (cs : List (List β)) :
    d.calls b (c :: cs) = (d.feed b c).1 :: d.calls (d.feed b c).2 cs := rfl

@[simp] theorem after_cons (b c : List β) (cs : List (List β)) :
    d.after b (c :: cs) = d.after (d.feed b c).2 cs := rfl

theorem calls_append (b : List β) (cs cs' : List (List β)) :
    d.calls b (cs ++ cs') = d.calls b cs ++ d.calls (d.after b cs) cs' := by
  induction cs generalizing b with
  | nil => rfl
  | cons c cs ih => rw [List.cons_append, calls_cons, calls_cons, ih, List.cons_append, after_cons]

variable {cs pieces : List (List β)} {fault : List β} {items : List α}

/-- Chunks that lead to no error hand over what the stream decodes to. -/
theorem calls_of_none (hb : d.next b = .more) (h : (d.drain (b ++ cs.flatten)).2.1 = none) :
    delivered (d.calls b cs) = (d.drain (b ++ cs.flatten)).1 ∧ firstError (d.calls b cs) = none ∧
      d.after b cs = (d.drain (b ++ cs.flatten)).2.2 := by
  induction cs generalizing b with
  | nil =>
    rw [List.flatten_nil, List.append_nil, drain_more hb]
    exact ⟨rfl, rfl, rfl⟩
  | cons c cs ih =>
    rw [List.flatten_cons, ← List.append_assoc] at h ⊢
    have hc : (d.drain (b ++ c)).2.1 = none := by
      cases hc : (d.drain (b ++ c)).2.1 with
      | none => rfl
      | some e =>
        obtain ⟨e', -, he', -⟩ := drain_append_of_fail hc cs.flatten
        rw [h] at he'
        cases he'
    rw [drain_append hc] at h ⊢
    obtain ⟨hdelivered, herror, hafter⟩ := ih (next_drain hc) h
    rw [calls_cons, after_cons, feed_of_none hc]
    exact ⟨congrArg _ hdelivered, herror, hafter⟩

/-- The chunk that leads to an error hands over nothing of its own. -/
theorem calls_of_fail {c : List β} {before : List (List β)} {e : ε} (hb : d.next b = .more)
    (hbefore : (d.drain (b ++ before.flatten)).2.1 = none)
    (h : (d.drain (b ++ before.flatten ++ c)).2.1 = some e) :
    delivered (d.calls b (before ++ c :: cs)) = (d.drain (b ++ before.flatten)).1 ∧
      firstError (d.calls b (before ++ c :: cs)) = some e := by
  obtain ⟨hdelivered, herror, hafter⟩ := calls_of_none hb hbefore
  rw [drain_append hbefore, ← hafter] at h
  have hlast : d.calls (d.after b before) (c :: cs) =
      .error e :: d.calls (d.feed (d.after b before) c).2 cs := by
    rw [calls_cons, feed_of_some h]
  obtain ⟨happend, hfirst⟩ :=
    delivered_append herror (.error e :: d.calls (d.feed (d.after b before) c).2 cs)
  rw [calls_append, hlast, happend, hfirst, hdelivered, delivered_error, List.append_nil]
  exact ⟨rfl, rfl⟩

/-- **The kind of the first error does not depend on the chunks.** -/
theorem kind_firstError (cs : List (List β)) (hb : d.next b = .more) :
    (firstError (d.calls b cs)).map d.kind = (d.drain (b ++ cs.flatten)).2.1.map d.kind := by
  induction cs generalizing b with
  | nil =>
    rw [List.flatten_nil, List.append_nil, drain_more hb]
    rfl
  | cons c cs ih =>
    rw [List.flatten_cons, ← List.append_assoc, calls_cons]
    cases hc : (d.drain (b ++ c)).2.1 with
    | none =>
      rw [feed_of_none hc, drain_append hc]
      exact ih (next_drain hc)
    | some e =>
      obtain ⟨e', -, he', hkind⟩ := drain_append_of_fail hc cs.flatten
      rw [feed_of_some hc, he']
      exact congrArg some hkind.symm

/-- Where every buffer of a set leads to an error and back into the set, no call succeeds. -/
theorem calls_error_of_stuck {S : List β → Prop}
    (hS : ∀ b c, S b → (∃ e, (d.feed b c).1 = .error e) ∧ S (d.feed b c).2) (hb : S b)
    (cs : List (List β)) : ∀ r ∈ d.calls b cs, ∃ e, r = .error e := by
  induction cs generalizing b with
  | nil => exact fun r hr => absurd hr List.not_mem_nil
  | cons c cs ih =>
    rintro r (_ | ⟨_, hr⟩)
    · exact (hS b c hb).1
    · exact ih (hS b c hb).2 r hr

/-- Of a decoder that takes bytes off the front only, the buffer is an end of what was fed. -/
theorem after_suffix (hfail : ∀ {b e rest}, d.next b = .fail e rest → rest <:+ b) (b : List β)
    (cs : List (List β)) : d.after b cs <:+ b ++ cs.flatten := by
  have hdrain (b : List β) : (d.drain b).2.2 <:+ b := by
    induction hn : b.length using Nat.strong_induction_on generalizing b with
    | _ n ih =>
      subst hn
      cases hnext : d.next b with
      | more => exact ⟨[], congrArg (fun out => out.2.2) (drain_more hnext)⟩
      | item a rest =>
        rw [drain_item hnext]
        obtain ⟨piece, hb, -⟩ := d.item_split hnext
        exact (ih _ (d.shrinks hnext) rest rfl).trans ⟨piece, hb.symm⟩
      | fail e rest =>
        rw [drain_fail hnext]
        exact hfail hnext
  induction cs generalizing b with
  | nil => exact ⟨[], (List.append_nil b).symm⟩
  | cons c cs ih =>
    obtain ⟨before, hbefore⟩ := hdrain (b ++ c)
    refine (ih (d.feed b c).2).trans ⟨before, ?_⟩
    rw [snd_feed, ← List.append_assoc, hbefore, List.flatten_cons, List.append_assoc]

/-- What an error leaves, and every call after it keeps, is there after a run with an error. -/
theorem after_of_error {S : List β → Prop}
    (herror : ∀ b c e, (d.feed b c).1 = .error e → S (d.feed b c).2)
    (hS : ∀ b c, S b → S (d.feed b c).2) (h : firstError (d.calls b cs) ≠ none) :
    S (d.after b cs) := by
  have hkeeps (cs : List (List β)) : ∀ b, S b → S (d.after b cs) := by
    induction cs with
    | nil => exact fun b hb => hb
    | cons c cs ih => exact fun b hb => ih _ (hS b c hb)
  induction cs generalizing b with
  | nil => exact absurd rfl h
  | cons c cs ih =>
    rw [calls_cons] at h
    rw [after_cons]
    cases hfeed : (d.feed b c).1 with
    | ok items =>
      rw [hfeed, firstError_ok] at h
      exact ih h
    | error e => exact hkeeps cs _ (herror b c e hfeed)

/-! ## Pieces of a stream -/

/-- The piece is one item. -/
def Reads (d : Incremental β α ε κ) (piece : List β) (a : α) : Prop := d.next piece = .item a []

/-- The last element makes the decoder fail; before it, more is needed. -/
structure Faults (d : Incremental β α ε κ) (fault : List β) : Prop where
  fails : ∃ e rest, d.next fault = .fail e rest
  shortest : ∀ n < fault.length, d.next (fault.take n) = .more

theorem Faults.pos (h : d.Faults fault) : 0 < fault.length := by
  obtain ⟨e, rest, hfail⟩ := h.fails
  rw [List.length_pos_iff]
  rintro rfl
  rw [d.next_nil] at hfail
  cases hfail

/-- A piece that is not there as a whole needs more. -/
theorem Reads.next_take {piece : List β} {a : α} (h : d.Reads piece a) {n : Nat}
    (hn : n < piece.length) : d.next (piece.take n) = .more := by
  have hrest : piece.drop n ≠ [] := by
    rw [← List.length_pos_iff, List.length_drop]
    exact Nat.sub_pos_of_lt hn
  have hwhole : d.next (piece.take n ++ piece.drop n) = .item a [] := by
    rw [List.take_append_drop]
    exact h
  cases hnext : d.next (piece.take n) with
  | more => rfl
  | item a' rest =>
    rw [d.item_append _ hnext] at hwhole
    injection hwhole with _ hnil
    exact absurd (List.append_eq_nil_iff.1 hnil).2 hrest
  | fail e rest =>
    obtain ⟨e', rest', hfail, -⟩ := d.fail_append (piece.drop n) hnext
    rw [hfail] at hwhole
    cases hwhole

/-- Pieces are read one after the other. -/
theorem drain_pieces (h : List.Forall₂ d.Reads pieces items) (c : List β) :
    d.drain (pieces.flatten ++ c) = (items ++ (d.drain c).1, (d.drain c).2) := by
  induction h with
  | nil => rfl
  | cons hpiece _ ih =>
    rw [List.flatten_cons, List.append_assoc, drain_item (d.item_append (_ ++ c) hpiece),
      List.nil_append, ih]
    rfl

/-- The first elements of a stream give the pieces that end within them. -/
theorem drain_take (tail : List β) (h : List.Forall₂ d.Reads pieces items)
    (hfault : d.Faults fault) {n : Nat} (hn : n < pieces.flatten.length + fault.length) :
    (d.drain ((pieces.flatten ++ fault ++ tail).take n)).1 = items.take (endWithin n pieces) ∧
      (d.drain ((pieces.flatten ++ fault ++ tail).take n)).2.1 = none := by
  induction h generalizing n with
  | nil =>
    rw [List.flatten_nil, List.length_nil, Nat.zero_add] at hn
    rw [List.flatten_nil, List.nil_append, List.take_append_of_le_length (Nat.le_of_lt hn),
      drain_more (hfault.shortest n hn)]
    exact ⟨rfl, rfl⟩
  | @cons piece a pieces items hpiece _ ih =>
    rw [List.flatten_cons, List.append_assoc, List.append_assoc, ← List.append_assoc pieces.flatten]
    by_cases hle : piece.length ≤ n
    · have hsplit : n = piece.length + (n - piece.length) := (Nat.add_sub_cancel' hle).symm
      have hrest : n - piece.length < pieces.flatten.length + fault.length := by
        rw [List.flatten_cons, List.length_append] at hn
        omega
      obtain ⟨hitems, herror⟩ := ih hrest
      have htake : (piece ++ (pieces.flatten ++ fault ++ tail)).take n =
          piece ++ (pieces.flatten ++ fault ++ tail).take (n - piece.length) := by
        conv_lhs => rw [hsplit]
        exact List.take_length_add_append _
      rw [endWithin, if_pos hle, List.take_succ_cons, ← hitems, htake,
        drain_item (d.item_append _ hpiece), List.nil_append]
      exact ⟨rfl, herror⟩
    · rw [endWithin, if_neg hle, List.take_append_of_le_length (Nat.le_of_not_le hle),
        drain_more (hpiece.next_take (Nat.not_le.1 hle))]
      exact ⟨rfl, rfl⟩

/-- With its fault a stream leads to an error. -/
theorem drain_fault (h : List.Forall₂ d.Reads pieces items) (hfault : d.Faults fault)
    (tail : List β) : ∃ e, (d.drain (pieces.flatten ++ fault ++ tail)).2.1 = some e := by
  obtain ⟨e, rest, hfail⟩ := hfault.fails
  obtain ⟨e', rest', hfail', -⟩ := d.fail_append tail hfail
  rw [List.append_assoc, drain_pieces h, drain_fail hfail']
  exact ⟨e', rfl⟩

/-- **What a faulty stream hands over**: the pieces that end before the chunk in which the
fault becomes visible. -/
theorem delivered_of_fault {tail : List β} (hcs : cs.flatten = pieces.flatten ++ fault ++ tail)
    (h : List.Forall₂ d.Reads pieces items) (hfault : d.Faults fault) :
    delivered (d.calls [] cs) =
        items.take (endWithin (fedBefore (pieces.flatten.length + fault.length) cs) pieces) ∧
      ∃ e, firstError (d.calls [] cs) = some e := by
  have hlength : pieces.flatten.length + fault.length ≤ cs.flatten.length := by
    rw [hcs, List.length_append, List.length_append]
    exact Nat.le_add_right _ _
  obtain ⟨before, c, rest, rfl, hlt, hle, hfed⟩ :=
    exists_chunk (Nat.add_pos_right _ hfault.pos) hlength
  rw [List.flatten_append, List.flatten_cons, ← List.append_assoc] at hcs
  have htake : before.flatten = (pieces.flatten ++ fault ++ tail).take before.flatten.length := by
    rw [← hcs, List.append_assoc, List.take_left]
  obtain ⟨hitems, hnone⟩ := drain_take tail h hfault hlt
  rw [← htake] at hitems hnone
  -- The chunk reaches the end of the fault.
  obtain ⟨more, hmore⟩ : pieces.flatten ++ fault <+: before.flatten ++ c :=
    List.prefix_of_prefix_length_le (hcs ▸ List.prefix_append _ tail) (List.prefix_append _ _)
      (by rwa [List.length_append, List.length_append])
  obtain ⟨e, herror⟩ := drain_fault h hfault more
  obtain ⟨hdelivered, hfirst⟩ :
      delivered (d.calls [] (before ++ c :: rest)) = (d.drain ([] ++ before.flatten)).1 ∧
        firstError (d.calls [] (before ++ c :: rest)) = some e :=
    calls_of_fail d.next_nil (by rwa [List.nil_append]) (by rwa [List.nil_append, ← hmore])
  rw [hfed, hdelivered, List.nil_append, hitems]
  exact ⟨rfl, e, hfirst⟩

/-- Two cuttings of a faulty stream hand over the same iff as many pieces end before the
chunk in which the fault becomes visible. -/
theorem delivered_eq_iff {cs' : List (List β)} {tail : List β}
    (hcs : cs.flatten = pieces.flatten ++ fault ++ tail) (hcs' : cs'.flatten = cs.flatten)
    (h : List.Forall₂ d.Reads pieces items) (hfault : d.Faults fault) :
    delivered (d.calls [] cs) = delivered (d.calls [] cs') ↔
      endWithin (fedBefore (pieces.flatten.length + fault.length) cs) pieces =
        endWithin (fedBefore (pieces.flatten.length + fault.length) cs') pieces := by
  rw [(delivered_of_fault hcs h hfault).1, (delivered_of_fault (hcs'.trans hcs) h hfault).1]
  constructor
  · intro heq
    have hle := endWithin_le (fedBefore (pieces.flatten.length + fault.length) cs) pieces
    have hle' := endWithin_le (fedBefore (pieces.flatten.length + fault.length) cs') pieces
    rw [h.length_eq] at hle hle'
    have hlength := congrArg List.length heq
    rwa [List.length_take, List.length_take, min_eq_left hle, min_eq_left hle'] at hlength
  · exact congrArg fun n => items.take n

/-- A stream without a fault is handed over as a whole. -/
theorem delivered_of_more (hcs : cs.flatten = pieces.flatten ++ rest)
    (h : List.Forall₂ d.Reads pieces items) (hrest : d.next rest = .more) :
    delivered (d.calls [] cs) = items ∧ firstError (d.calls [] cs) = none ∧ d.after [] cs = rest := by
  have hdrain : d.drain ([] ++ cs.flatten) = (items, none, rest) := by
    rw [List.nil_append, hcs, drain_pieces h, drain_more hrest, List.append_nil]
  have hnone : (d.drain ([] ++ cs.flatten)).2.1 = none := by rw [hdrain]
  obtain ⟨hdelivered, herror, hafter⟩ := calls_of_none d.next_nil hnone
  rw [hdrain] at hdelivered hafter
  exact ⟨hdelivered, herror, hafter⟩

/-- **Every stream** is some pieces and then either the beginning of one more or a fault. -/
theorem exists_pieces (b : List β) : ∃ pieces items rest, b = pieces.flatten ++ rest ∧
    List.Forall₂ d.Reads pieces items ∧
      (d.next rest = .more ∨ ∃ fault tail, rest = fault ++ tail ∧ d.Faults fault) := by
  induction hn : b.length using Nat.strong_induction_on generalizing b with
  | _ n ih =>
    subst hn
    cases hnext : d.next b with
    | more => exact ⟨[], [], b, rfl, .nil, .inl hnext⟩
    | item a rest =>
      obtain ⟨piece, rfl, hpiece⟩ := d.item_split hnext
      obtain ⟨pieces, items, rest', rfl, hpieces, hrest⟩ := ih _ (d.shrinks hnext) rest rfl
      exact ⟨piece :: pieces, a :: items, rest', by rw [List.flatten_cons, List.append_assoc],
        .cons hpiece hpieces, hrest⟩
    | fail e rest =>
      have hfails : ∃ n, ∃ e rest, d.next (b.take n) = .fail e rest :=
        ⟨b.length, e, rest, by rwa [List.take_length]⟩
      classical
      refine ⟨[], [], b, rfl, .nil, .inr ⟨b.take (Nat.find hfails), b.drop (Nat.find hfails),
        (List.take_append_drop _ _).symm, Nat.find_spec hfails, fun m hm => ?_⟩⟩
      have hm' : m < Nat.find hfails := Nat.lt_of_lt_of_le hm (List.length_take_le _ _)
      rw [List.take_take, min_eq_left (Nat.le_of_lt hm')]
      cases hshort : d.next (b.take m) with
      | more => rfl
      | item a rest' =>
        have hwhole := d.item_append (b.drop m) hshort
        rw [List.take_append_drop, hnext] at hwhole
        cases hwhole
      | fail e' rest' => exact absurd ⟨e', rest', hshort⟩ (Nat.find_min hfails hm')

end Incremental

end Altior.Lib
