import Mathlib.Data.List.DropRight

/-!
# Text

The operations of `str` the domain checks use, over lists of characters.  A
list of characters stands for the same UTF-8 text as the Rust string, so a
length in bytes is `utf8Len` and an offset is a split of the list.
-/

namespace Altior.Domain

/-- Length in bytes of the UTF-8 encoding. -/
def utf8Len : List Char → Nat
  | [] => 0
  | c :: cs => c.utf8Size + utf8Len cs

/-- `char::is_whitespace`: the Unicode `White_Space` property. -/
def isWhitespace (c : Char) : Bool :=
  let n := c.toNat
  (0x9 ≤ n && n ≤ 0xD) || n == 0x20 || n == 0x85 || n == 0xA0 || n == 0x1680
    || (0x2000 ≤ n && n ≤ 0x200A) || n == 0x2028 || n == 0x2029 || n == 0x202F
    || n == 0x205F || n == 0x3000

/-- `str::trim_matches`: drops the characters of a class from both ends. -/
def trimMatches (p : Char → Bool) (cs : List Char) : List Char :=
  ((cs.dropWhile p).reverse.dropWhile p).reverse

/-- `str::trim`. -/
def trim (cs : List Char) : List Char := trimMatches isWhitespace cs

/-- `str::trim_start`. -/
def trimStart (cs : List Char) : List Char := cs.dropWhile isWhitespace

/-- `str::split` on a class of characters; the separators are dropped and a
text without one is its own single part. -/
def split (p : Char → Bool) : List Char → List (List Char)
  | [] => [[]]
  | c :: cs =>
    if p c then [] :: split p cs
    else match split p cs with
      | [] => [[c]]
      | w :: ws => (c :: w) :: ws

/-- The text before the first occurrence of `pat` and the text after it. -/
def findSub (pat : List Char) : List Char → Option (List Char × List Char)
  | [] => if pat.isEmpty then some ([], []) else none
  | c :: cs =>
    if pat.isPrefixOf (c :: cs) then some ([], (c :: cs).drop pat.length)
    else (findSub pat cs).map fun (before, after) => (c :: before, after)

/-- Whether `p` holds at some position of the text, given the character before
the position and the text from it on. -/
def scan (p : Option Char → List Char → Bool) : Option Char → List Char → Bool
  | _, [] => false
  | prev, c :: cs => p prev (c :: cs) || scan p (some c) cs

example : split (· == '.') "a..b".toList = [['a'], [], ['b']] := by decide
example : findSub "b".toList "abcb".toList = some (['a'], ['c', 'b']) := by decide

/-! ## Trimming -/

theorem dropWhile_trimMatches (p : Char → Bool) (cs : List Char) :
    (trimMatches p cs).dropWhile p = trimMatches p cs := by
  rw [List.dropWhile_eq_self_iff]
  intro hpos
  -- the first character is that of the text without its front
  have hpre : trimMatches p cs <+: cs.dropWhile p := List.rdropWhile_prefix p _
  have hlen := Nat.lt_of_lt_of_le hpos hpre.length_le
  rw [hpre.getElem hpos]
  exact List.dropWhile_get_zero_not p cs hlen

/-- Trimming twice is trimming once. -/
theorem trimMatches_trimMatches (p : Char → Bool) (cs : List Char) :
    trimMatches p (trimMatches p cs) = trimMatches p cs := by
  have hfront := dropWhile_trimMatches p cs
  unfold trimMatches at hfront ⊢
  rw [hfront, List.reverse_reverse, List.dropWhile_idempotent]

theorem trim_trim (cs : List Char) : trim (trim cs) = trim cs :=
  trimMatches_trimMatches isWhitespace cs

theorem trim_trim_toList (s : String) : trim (trim s.toList) = trim s.toList := trim_trim _

variable {cs pat : List Char}

/-- A trimmed text does not start with whitespace. -/
theorem isWhitespace_head (h : trim cs = cs) {c : Char} (hc : cs.head? = some c) :
    isWhitespace c = false := by
  have hfront := dropWhile_trimMatches isWhitespace cs
  rw [← trim, h] at hfront
  have hfirst := List.head?_dropWhile_not isWhitespace cs
  rwa [hfront, hc] at hfirst

/-- Nor does it end with any. -/
theorem isWhitespace_getLast (h : trim cs = cs) {c : Char} (hc : cs.getLast? = some c) :
    isWhitespace c = false := by
  have hlast := List.head?_dropWhile_not isWhitespace (cs.dropWhile isWhitespace).reverse
  have hend : ((cs.dropWhile isWhitespace).reverse.dropWhile isWhitespace).head? = some c := by
    rw [← List.getLast?_reverse]
    exact (congrArg List.getLast? h).trans hc
  rwa [hend] at hlast

/-- Only whitespace trims to nothing. -/
theorem trim_eq_nil_iff : trim cs = [] ↔ ∀ c ∈ cs, isWhitespace c = true := by
  constructor
  · intro h
    have hfront : cs.dropWhile isWhitespace = [] := by
      have hlast := List.reverse_eq_nil_iff.1 h
      rw [List.dropWhile_eq_nil_iff] at hlast
      rw [← List.dropWhile_idempotent, List.dropWhile_eq_nil_iff]
      exact fun c hc => hlast c (List.mem_reverse.2 hc)
    exact List.dropWhile_eq_nil_iff.1 hfront
  · intro h
    rw [trim, trimMatches, List.dropWhile_eq_nil_iff.2 h]
    rfl

/-! ## Splitting and searching -/

theorem split_ne_nil (p : Char → Bool) (cs : List Char) : split p cs ≠ [] := by
  induction cs with
  | nil => nofun
  | cons c cs ih =>
    rw [split]
    split
    · nofun
    · split <;> nofun

/-- A text is split at each separator on its own. -/
theorem split_append_cons {p : Char → Bool} {x : Char} (hx : p x = true) (a b : List Char) :
    split p (a ++ x :: b) = split p a ++ split p b := by
  induction a with
  | nil => simp [split, hx]
  | cons c cs ih =>
    rw [List.cons_append, split, split, ih]
    rcases hcs : split p cs with _ | ⟨w, ws⟩
    · exact absurd hcs (split_ne_nil p cs)
    · split <;> rfl

/-- A pattern without `x` does not reach over it. -/
theorem isPrefixOf_append_cons {x : Char} (hx : x ∉ pat) (a b : List Char) :
    pat.isPrefixOf (a ++ x :: b) = pat.isPrefixOf a := by
  rw [Bool.eq_iff_iff, List.isPrefixOf_iff_prefix, List.isPrefixOf_iff_prefix]
  refine ⟨fun h => ?_, fun h => h.trans (List.prefix_append a _)⟩
  rcases List.prefix_or_prefix_of_prefix h (List.prefix_append a _) with h | ⟨r, rfl⟩
  · exact h
  · rcases r with _ | ⟨y, r⟩
    · simp
    · obtain ⟨rfl, -⟩ := List.cons_prefix_cons.1 ((List.prefix_append_right_inj a).1 h)
      exact absurd (by simp) hx

/-- What is found is in the text. -/
theorem eq_of_findSub {before after : List Char} (h : findSub pat cs = some (before, after)) :
    cs = before ++ pat ++ after := by
  induction cs generalizing before with
  | nil =>
    rw [findSub] at h
    split at h
    · next hpat => simp_all
    · cases h
  | cons c cs ih =>
    rw [findSub] at h
    split at h
    · next hpre =>
        obtain ⟨rfl, rfl⟩ := Prod.mk.inj (Option.some.inj h)
        obtain ⟨rest, hrest⟩ := List.isPrefixOf_iff_prefix.1 hpre
        simp [← hrest]
    · obtain ⟨⟨before', after'⟩, hfound, heq⟩ := Option.map_eq_some_iff.1 h
      obtain ⟨rfl, rfl⟩ := Prod.mk.inj heq
      simp [ih hfound]

/-- The first occurrence is found. -/
theorem findSub_first {before after : List Char} (h : findSub pat cs = some (before, after))
    {u v : List Char} (huv : cs = u ++ pat ++ v) : before.length ≤ u.length := by
  induction cs generalizing before u with
  | nil =>
    have := eq_of_findSub h
    simp_all
  | cons c cs ih =>
    rw [findSub] at h
    split at h
    · next hpre => simp_all
    · next hpre =>
        obtain ⟨⟨before', after'⟩, hfound, heq⟩ := Option.map_eq_some_iff.1 h
        obtain ⟨rfl, rfl⟩ := Prod.mk.inj heq
        rcases u with _ | ⟨y, u⟩
        · exact absurd (List.isPrefixOf_iff_prefix.2 ⟨v, huv.symm⟩) hpre
        · exact Nat.succ_le_succ (ih hfound (List.cons.inj huv).2)

theorem findSub_eq_none_iff : findSub pat cs = none ↔ ¬ pat <:+: cs := by
  induction cs with
  | nil => simp [findSub]
  | cons c cs ih =>
    rw [findSub, List.infix_cons_iff, not_or, ← List.isPrefixOf_iff_prefix]
    split
    · next hpre => simp [hpre]
    · next hpre => simp [hpre, ih]

/-- What is found does not depend on what follows. -/
theorem findSub_append {a before after : List Char} (h : findSub pat a = some (before, after))
    (b : List Char) : findSub pat (a ++ b) = some (before, after ++ b) := by
  induction a generalizing before with
  | nil =>
    obtain ⟨rfl, rfl, rfl⟩ : before = [] ∧ pat = [] ∧ after = [] := by
      simpa [and_assoc] using eq_of_findSub h
    cases b <;> simp [findSub]
  | cons c cs ih =>
    rw [findSub] at h
    split at h
    · next hpre =>
        obtain ⟨rfl, rfl⟩ := Prod.mk.inj (Option.some.inj h)
        have hpat := List.isPrefixOf_iff_prefix.1 hpre
        rw [List.cons_append, findSub, ← List.cons_append,
          if_pos (List.isPrefixOf_iff_prefix.2 (hpat.trans (List.prefix_append _ b))),
          List.drop_append_of_le_length hpat.length_le]
    · next hpre =>
        obtain ⟨⟨before', after'⟩, hfound, heq⟩ := Option.map_eq_some_iff.1 h
        obtain ⟨rfl, rfl⟩ := Prod.mk.inj heq
        -- the pattern is no longer than the text, so what follows does not complete it
        have hlen : pat.length ≤ (c :: cs).length := by
          rw [eq_of_findSub hfound]
          simp only [List.length_cons, List.length_append]
          omega
        have hpre' : ¬ pat.isPrefixOf (c :: cs ++ b) = true := by
          intro hp
          exact hpre (List.isPrefixOf_iff_prefix.2 (List.prefix_of_prefix_length_le
            (List.isPrefixOf_iff_prefix.1 hp) (List.prefix_append _ b) hlen))
        rw [List.cons_append, findSub, ← List.cons_append, if_neg hpre', ih hfound]
        rfl

/-- What is not found before `x` is searched for after it. -/
theorem findSub_append_cons {x : Char} (hpat : pat ≠ []) (hx : x ∉ pat) {a : List Char}
    (h : findSub pat a = none) (b : List Char) :
    findSub pat (a ++ x :: b) =
      (findSub pat b).map fun (before, after) => (a ++ x :: before, after) := by
  induction a with
  | nil =>
    have hpre : pat.isPrefixOf (x :: b) = false := by
      rw [← List.nil_append (x :: b), isPrefixOf_append_cons hx]
      cases pat <;> simp_all
    rw [List.nil_append, findSub, hpre]
    rfl
  | cons c cs ih =>
    rw [findSub_eq_none_iff, List.infix_cons_iff, not_or] at h
    have hpre : pat.isPrefixOf (c :: (cs ++ x :: b)) = false := by
      rw [← List.cons_append, isPrefixOf_append_cons hx, Bool.eq_false_iff]
      exact fun hp => h.1 (List.isPrefixOf_iff_prefix.1 hp)
    rw [List.cons_append, findSub, hpre, ih (findSub_eq_none_iff.2 h.2), Option.map_map]
    rfl

/-! ## Sizes -/

theorem utf8Len_append (cs ds : List Char) : utf8Len (cs ++ ds) = utf8Len cs + utf8Len ds := by
  induction cs with
  | nil => simp [utf8Len]
  | cons c cs ih => simp [utf8Len, ih, Nat.add_assoc]

theorem utf8Len_le_of_sublist {ds : List Char} (h : cs.Sublist ds) : utf8Len cs ≤ utf8Len ds := by
  induction h with
  | slnil => exact Nat.le_refl _
  | cons c _ ih => exact Nat.le_add_left_of_le ih
  | cons_cons c _ ih => exact Nat.add_le_add_left ih _

theorem utf8ByteSize_ofList (cs : List Char) : (String.ofList cs).utf8ByteSize = utf8Len cs := by
  induction cs with
  | nil => rfl
  | cons c cs ih =>
    rw [show c :: cs = [c] ++ cs from rfl, utf8Len_append, ← ih, String.ofList_append,
      String.utf8ByteSize_append, ← String.singleton_eq_ofList, String.utf8ByteSize_singleton]
    rfl

theorem utf8Len_toList (s : String) : utf8Len s.toList = s.utf8ByteSize := by
  rw [← utf8ByteSize_ofList, String.ofList_toList]

theorem utf8ByteSize_ofList_le (cs : List Char) :
    (String.ofList cs).utf8ByteSize ≤ 4 * cs.length := by
  rw [utf8ByteSize_ofList]
  induction cs with
  | nil => exact Nat.le_refl _
  | cons c cs ih =>
    have hchar := c.utf8Size_le_four
    rw [utf8Len, List.length_cons]
    omega

/-- A character takes at most four bytes. -/
theorem utf8ByteSize_le (s : String) : s.utf8ByteSize ≤ 4 * s.length := by
  have h := utf8ByteSize_ofList_le s.toList
  rwa [String.ofList_toList, String.length_toList] at h

end Altior.Domain
