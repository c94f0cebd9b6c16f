import Altior.Runtime.Diagnostics
import Mathlib

/-!
# What redaction hides

The scan of `redact_secrets` goes in rounds.  A round finds a pattern at the start of the
text, shows that much and hides the characters behind it, or it copies one character.  A
secret behind a marker is hidden unless an earlier match hides a part of the marker and
stops within it: then the marker is not found any more.
-/

namespace Altior.Runtime

open Domain

/-! ## One round -/

/-- What is done about a pattern at the start of a text.  No pattern stops hiding within a
word, and none hides more than a line. -/
structure Redaction where
  shown : List Char
  length : Nat
  hides : Char → Bool
  word : ∀ c, isAsciiAlphanumeric c = true → hides c = true
  line : hides '\n' = false

/-- What is left of a text that starts with the pattern. -/
def Redaction.rest (r : Redaction) (cs : List Char) : List Char :=
  (cs.drop r.length).dropWhile r.hides

variable {c : Char} {cs : List Char} {r : Redaction}

theorem not_mem_of_isAsciiAlphanumeric (h : isAsciiAlphanumeric c = true) {l : List Char}
    (hl : (l.all fun c => !isAsciiAlphanumeric c) = true) : c ∉ l := by
  intro hc
  have := List.all_eq_true.1 hl c hc
  simp [h] at this

theorem isWhitespace_of_isAsciiAlphanumeric (h : isAsciiAlphanumeric c = true) :
    isWhitespace c = false := by
  have hrange : 0x30 ≤ c.toNat ∧ c.toNat ≤ 0x7A := by
    simp only [isAsciiAlphanumeric, Char.isAlphanum, Char.isAlpha, Char.isUpper, Char.isLower,
      Char.isDigit, Bool.or_eq_true, Bool.and_eq_true, decide_eq_true_eq, UInt32.le_iff_toNat_le,
      ge_iff_le, show 'A'.val.toNat = 0x41 from rfl, show 'Z'.val.toNat = 0x5A from rfl,
      show 'a'.val.toNat = 0x61 from rfl, show 'z'.val.toNat = 0x7A from rfl,
      show '0'.val.toNat = 0x30 from rfl, show '9'.val.toNat = 0x39 from rfl] at h
    unfold Char.toNat
    omega
  rw [Bool.eq_false_iff]
  intro hspace
  simp only [isWhitespace, Bool.or_eq_true, Bool.and_eq_true, decide_eq_true_eq, beq_iff_eq] at hspace
  omega

theorem isSecretDelimiter_of_isAsciiAlphanumeric (h : isAsciiAlphanumeric c = true) :
    isSecretDelimiter c = false := by
  have hmem := not_mem_of_isAsciiAlphanumeric h (l := "&;,\"'\x7d]".toList) (by decide)
  rw [isSecretDelimiter, isWhitespace_of_isAsciiAlphanumeric h, Bool.false_or, Bool.eq_false_iff]
  exact fun hc => hmem (List.contains_iff_mem.1 hc)

def bearerRedaction : Redaction where
  shown := "Bearer [REDACTED]".toList
  length := 7
  hides := isTokenChar
  word c h := by simp [isTokenChar, h]
  line := by decide

def authorizationRedaction : Redaction where
  shown := "Authorization: [REDACTED]".toList
  length := 14
  hides c := c != '\n' && c != '\r'
  word c h := by
    have hmem := not_mem_of_isAsciiAlphanumeric h (l := ['\n', '\r']) (by decide)
    simpa using hmem
  line := by decide

def skRedaction : Redaction where
  shown := "sk-[REDACTED]".toList
  length := 3
  hides c := isAsciiAlphanumeric c || c == '-' || c == '_'
  word c h := by simp [h]
  line := by decide

def kvRedaction (pat : String) : Redaction where
  shown := pat.toList ++ "[REDACTED]".toList
  length := pat.length
  hides c := !isSecretDelimiter c
  word c h := by simp [isSecretDelimiter_of_isAsciiAlphanumeric h]
  line := by decide

/-- What is done about the pattern a text starts with. -/
def redactionAt (cs : List Char) : Option Redaction :=
  if startsWithIgnoreAsciiCase cs "bearer " then some bearerRedaction
  else if startsWithIgnoreAsciiCase cs "authorization:" then some authorizationRedaction
  else if (startsWithIgnoreAsciiCase cs "sk-" || startsWithIgnoreAsciiCase cs "sk_")
      && 3 < cs.length then some skRedaction
  else (kvPatterns.find? fun pat => startsWithIgnoreAsciiCase cs pat).map kvRedaction

/-- A round of the scan. -/
theorem redactStep_eq (c : Char) (cs : List Char) :
    redactStep c cs = match redactionAt (c :: cs) with
      | some r => (r.shown, r.rest (c :: cs))
      | none => ([c], cs) := by
  unfold redactStep redactionAt
  dsimp only
  split
  · rfl
  · split
    · rfl
    · split
      · rfl
      · cases kvPatterns.find? fun pat => startsWithIgnoreAsciiCase (c :: cs) pat <;> rfl

/-- The patterns of a redaction. -/
def redactionPatterns : List String := "bearer " :: "authorization:" :: "sk-" :: "sk_" :: kvPatterns

theorem exists_pattern (h : redactionAt cs = some r) :
    ∃ pat ∈ redactionPatterns, startsWithIgnoreAsciiCase cs pat = true ∧ r.length = pat.length := by
  unfold redactionAt at h
  split at h
  · next hpat => exact ⟨"bearer ", by decide, hpat, by cases h; rfl⟩
  · split at h
    · next hpat => exact ⟨"authorization:", by decide, hpat, by cases h; rfl⟩
    · split at h
      · next hpat =>
          obtain rfl := Option.some.inj h
          rcases Bool.or_eq_true _ _ ▸ (Bool.and_eq_true_iff.1 hpat).1 with hpat | hpat
          · exact ⟨"sk-", by decide, hpat, rfl⟩
          · exact ⟨"sk_", by decide, hpat, rfl⟩
      · obtain ⟨pat, hfind, rfl⟩ := Option.map_eq_some_iff.1 h
        have hmem := List.mem_of_find?_eq_some hfind
        exact ⟨pat, by simp [redactionPatterns, hmem], List.find?_some hfind, rfl⟩

/-- Only patterns tell where a redaction stands. -/
theorem redactionAt_congr {ds : List Char} (hpat : ∀ pat ∈ redactionPatterns,
      startsWithIgnoreAsciiCase cs pat = startsWithIgnoreAsciiCase ds pat)
    (hlen : startsWithIgnoreAsciiCase cs "sk-" = true ∨ startsWithIgnoreAsciiCase cs "sk_" = true →
      (3 < cs.length ↔ 3 < ds.length)) : redactionAt cs = redactionAt ds := by
  have hkv : (kvPatterns.find? fun pat => startsWithIgnoreAsciiCase cs pat) =
      kvPatterns.find? fun pat => startsWithIgnoreAsciiCase ds pat :=
    List.find?_congr fun pat hmem => hpat pat (by simp [redactionPatterns, hmem])
  have hsk : ((startsWithIgnoreAsciiCase cs "sk-" || startsWithIgnoreAsciiCase cs "sk_")
      && decide (3 < cs.length)) = ((startsWithIgnoreAsciiCase ds "sk-"
      || startsWithIgnoreAsciiCase ds "sk_") && decide (3 < ds.length)) := by
    rw [← hpat "sk-" (by decide), ← hpat "sk_" (by decide)]
    by_cases h : startsWithIgnoreAsciiCase cs "sk-" = true ∨ startsWithIgnoreAsciiCase cs "sk_" = true
    · rw [decide_eq_decide.2 (hlen h)]
    · rw [not_or, Bool.not_eq_true, Bool.not_eq_true] at h
      rw [h.1, h.2]
      rfl
  unfold redactionAt
  rw [hpat "bearer " (by decide), hpat "authorization:" (by decide), hsk, hkv]

theorem redactionAt_eq_none
    (h : ∀ pat ∈ redactionPatterns, startsWithIgnoreAsciiCase cs pat = false) :
    redactionAt cs = none := by
  cases hr : redactionAt cs with
  | none => rfl
  | some r =>
    obtain ⟨pat, hmem, hpat, -⟩ := exists_pattern hr
    rw [h pat hmem] at hpat
    cases hpat

theorem isAsciiAlphanumeric_toLower (h : isAsciiAlphanumeric c = true) :
    isAsciiAlphanumeric c.toLower = true := by
  by_cases hupper : c.isUpper = true
  · simp [isAsciiAlphanumeric, Char.isAlphanum, Char.isAlpha, hupper]
  · rw [Char.toLower_eq_of_not_isUpper hupper]
    exact h

theorem redactionAt_map_toLower (cs : List Char) :
    redactionAt (cs.map Char.toLower) = redactionAt cs := by
  have hlower : (cs.map Char.toLower).map Char.toLower = cs.map Char.toLower := by
    rw [List.map_map]
    exact List.map_congr_left fun c _ => c.toLower_toLower_eq_toLower
  refine redactionAt_congr (fun pat _ => ?_) fun _ => by rw [List.length_map]
  rw [startsWithIgnoreAsciiCase, startsWithIgnoreAsciiCase, hlower]

variable {pat : String} {s q m : List Char}

theorem startsWithIgnoreAsciiCase_iff (h : pat ∈ redactionPatterns) :
    startsWithIgnoreAsciiCase cs pat = true ↔ pat.toList <+: cs.map Char.toLower := by
  have hall : (redactionPatterns.all fun pat => pat.toList.map Char.toLower == pat.toList) = true := by
    decide
  have hlower := eq_of_beq (List.all_eq_true.1 hall pat h)
  rw [startsWithIgnoreAsciiCase, hlower, List.isPrefixOf_iff_prefix]

theorem length_of_startsWith (h : pat ∈ redactionPatterns)
    (hpat : startsWithIgnoreAsciiCase cs pat = true) : 2 < pat.length ∧ pat.length ≤ cs.length := by
  have hall : (redactionPatterns.all fun pat => decide (2 < pat.length)) = true := by decide
  have hle := ((startsWithIgnoreAsciiCase_iff h).1 hpat).length_le
  rw [String.length_toList, List.length_map] at hle
  exact ⟨of_decide_eq_true (List.all_eq_true.1 hall pat h), hle⟩

theorem Redaction.rest_suffix (r : Redaction) (cs : List Char) : r.rest cs <:+ cs :=
  (List.dropWhile_suffix r.hides).trans (List.drop_suffix r.length cs)

/-- A round goes on behind the pattern. -/
theorem Redaction.rest_length_add_two_lt (h : redactionAt cs = some r) :
    (r.rest cs).length + 2 < cs.length := by
  obtain ⟨pat, hmem, hpat, hr⟩ := exists_pattern h
  obtain ⟨hpos, hle⟩ := length_of_startsWith hmem hpat
  have hrest := (List.dropWhile_suffix (l := cs.drop r.length) r.hides).length_le
  rw [List.length_drop] at hrest
  rw [Redaction.rest]
  omega

/-! ## Rounds -/

theorem redactStep_length_le (c : Char) (cs : List Char) :
    (redactStep c cs).2.length ≤ cs.length := by
  rw [redactStep_eq]
  split
  · next r h =>
      have hlen := Redaction.rest_length_add_two_lt h
      rw [List.length_cons] at hlen
      show (r.rest (c :: cs)).length ≤ cs.length
      omega
  · exact Nat.le_refl _

/-- The scan has enough rounds. -/
theorem redactLoop_eq {rounds : Nat} (h : cs.length ≤ rounds) :
    redactLoop rounds cs = redactSecrets cs := by
  induction rounds using Nat.strongRecOn generalizing cs with
  | ind rounds ih =>
    rcases cs with _ | ⟨c, cs⟩
    · cases rounds <;> rfl
    · obtain ⟨n, rfl⟩ := Nat.exists_eq_add_one_of_ne_zero
        (Nat.ne_of_gt (Nat.lt_of_lt_of_le (Nat.succ_pos _) h))
      have hle := redactStep_length_le c cs
      have hn : cs.length ≤ n := Nat.le_of_succ_le_succ h
      show (redactStep c cs).1 ++ redactLoop n (redactStep c cs).2 =
        (redactStep c cs).1 ++ redactLoop cs.length (redactStep c cs).2
      rw [ih n (Nat.lt_succ_self n) (hle.trans hn)]
      rcases Nat.lt_or_eq_of_le hn with hlt | rfl
      · rw [ih cs.length (Nat.lt_succ_of_lt hlt) hle]
      · rw [ih cs.length (Nat.lt_succ_self _) hle]

theorem redactSecrets_cons (c : Char) (cs : List Char) :
    redactSecrets (c :: cs) = (redactStep c cs).1 ++ redactSecrets (redactStep c cs).2 := by
  rw [← redactLoop_eq (redactStep_length_le c cs)]
  rfl

theorem redactSecrets_copy (h : redactionAt (c :: cs) = none) :
    redactSecrets (c :: cs) = c :: redactSecrets cs := by
  rw [redactSecrets_cons, redactStep_eq, h]
  rfl

theorem redactSecrets_hide (h : redactionAt cs = some r) :
    redactSecrets cs = r.shown ++ redactSecrets (r.rest cs) := by
  rcases cs with _ | ⟨c, cs⟩
  · cases h
  · rw [redactSecrets_cons, redactStep_eq, h]

/-- A property of texts holds if each round of the scan gives it to the text it reads. -/
@[elab_as_elim]
theorem rounds_induction {P : List Char → Prop} (nil : P [])
    (copy : ∀ c cs, redactionAt (c :: cs) = none → P cs → P (c :: cs))
    (hide : ∀ cs r, redactionAt cs = some r → P (r.rest cs) → P cs) (cs : List Char) : P cs := by
  induction hn : cs.length using Nat.strongRecOn generalizing cs with
  | ind n ih =>
    cases hr : redactionAt cs with
    | some r =>
      have hlen := Redaction.rest_length_add_two_lt hr
      exact hide cs r hr (ih _ (by omega) _ rfl)
    | none =>
      rcases cs with _ | ⟨c, cs⟩
      · exact nil
      · exact copy c cs hr (ih cs.length (by simp [← hn]) cs rfl)

/-- The scan of the first text comes to start a round at the second. -/
inductive Reaches : List Char → List Char → Prop
  | refl (cs : List Char) : Reaches cs cs
  | round {c : Char} {cs rest : List Char} : Reaches (redactStep c cs).2 rest → Reaches (c :: cs) rest

namespace Reaches

variable {c : Char} {cs rest : List Char} {r : Redaction}

theorem copy (h : redactionAt (c :: cs) = none) (hcs : Reaches cs rest) : Reaches (c :: cs) rest := by
  apply round
  rwa [redactStep_eq, h]

theorem hide (h : redactionAt cs = some r) (hrest : Reaches (r.rest cs) rest) : Reaches cs rest := by
  rcases cs with _ | ⟨c, cs⟩
  · cases h
  · apply round
    rwa [redactStep_eq, h]

theorem of_copy (h : redactionAt (c :: cs) = none) (hcs : Reaches (c :: cs) rest) :
    rest = c :: cs ∨ Reaches cs rest := by
  cases hcs with
  | refl => exact .inl rfl
  | round hround =>
    rw [redactStep_eq, h] at hround
    exact .inr hround

theorem of_hide (h : redactionAt cs = some r) (hcs : Reaches cs rest) :
    rest = cs ∨ Reaches (r.rest cs) rest := by
  cases hcs with
  | refl => exact .inl rfl
  | round hround =>
    rw [redactStep_eq, h] at hround
    exact .inr hround

theorem suffix (h : Reaches cs rest) : rest <:+ cs := by
  induction h with
  | refl => exact List.suffix_refl _
  | @round c cs rest hround ih =>
    refine ih.trans ?_
    rw [redactStep_eq]
    split
    · next r hr => exact r.rest_suffix (c :: cs)
    · exact List.suffix_cons c cs

end Reaches

/-! ## A secret behind the text -/

/-- A pattern that ends in one of these has no other character of the kind. -/
def isPatternEnd (c : Char) : Bool := c == ' ' || c == ':' || c == '='

/-- The text ends as a marker does. -/
def Ended (cs : List Char) : Prop := ∀ c, cs.getLast? = some c → isPatternEnd c.toLower = true

variable {rest : List Char}

theorem Ended.suffix (h : Ended cs) (hrest : rest <:+ cs) : Ended rest := by
  obtain ⟨front, rfl⟩ := hrest
  intro c hc
  exact h c (by rw [List.getLast?_append, hc]; rfl)

/-- What follows does not complete a pattern. -/
theorem startsWith_append (hmem : pat ∈ redactionPatterns) (hcs : Ended cs) (hne : cs ≠ [])
    (ds : List Char) :
    startsWithIgnoreAsciiCase (cs ++ ds) pat = startsWithIgnoreAsciiCase cs pat := by
  rw [Bool.eq_iff_iff, startsWithIgnoreAsciiCase_iff hmem, startsWithIgnoreAsciiCase_iff hmem,
    List.map_append]
  refine ⟨fun h => ?_, fun h => h.trans (List.prefix_append _ _)⟩
  rcases List.prefix_or_prefix_of_prefix h (List.prefix_append _ _) with h | ⟨r, hr⟩
  · exact h
  · rcases List.eq_nil_or_concat' r with rfl | ⟨r, x, rfl⟩
    · rw [← hr, List.append_nil]
    · -- the end of `cs` would stand within the pattern
      have hall : (redactionPatterns.all fun pat =>
          pat.toList.dropLast.all fun c => !isPatternEnd c) = true := by decide
      obtain ⟨front, c, rfl⟩ := (List.eq_nil_or_concat' cs).resolve_left hne
      have hc := hcs c (by simp)
      have hin : c.toLower ∈ pat.toList.dropLast := by
        rw [← hr, ← List.append_assoc, List.dropLast_concat]
        simp
      have hnot := List.all_eq_true.1 (List.all_eq_true.1 hall pat hmem) _ hin
      rw [hc] at hnot
      cases hnot

theorem redactionAt_append (hcs : Ended cs) (hne : cs ≠ []) (ds : List Char) :
    redactionAt (cs ++ ds) = redactionAt cs := by
  refine redactionAt_congr (fun pat hmem => startsWith_append hmem hcs hne ds) fun hsk => ?_
  rw [startsWith_append (by decide) hcs hne, startsWith_append (by decide) hcs hne] at hsk
  -- `sk-` does not end as a marker does, so the text goes on behind it
  have hlong : 3 < cs.length := by
    obtain ⟨pat, hmem, hpat, hthree, hlast⟩ : ∃ pat ∈ redactionPatterns,
        startsWithIgnoreAsciiCase cs pat = true ∧ pat.length = 3 ∧
          (pat.toList.getLast?.all fun c => !isPatternEnd c) = true := by
      rcases hsk with h | h
      · exact ⟨"sk-", by decide, h, rfl, by decide⟩
      · exact ⟨"sk_", by decide, h, rfl, by decide⟩
    have hle := (length_of_startsWith hmem hpat).2
    refine Nat.lt_of_le_of_ne (hthree ▸ hle) fun heq => ?_
    have hall : pat.toList = cs.map Char.toLower :=
      ((startsWithIgnoreAsciiCase_iff hmem).1 hpat).eq_of_length
        (by rw [String.length_toList, List.length_map, hthree, heq])
    obtain ⟨front, c, rfl⟩ := (List.eq_nil_or_concat' cs).resolve_left hne
    have hc := hcs c (by simp)
    rw [hall] at hlast
    simp [hc] at hlast
  rw [List.length_append]
  omega

theorem Redaction.rest_append (h : redactionAt cs = some r) (ds : List Char) :
    r.rest (cs ++ ds) = if r.rest cs = [] then ds.dropWhile r.hides else r.rest cs ++ ds := by
  obtain ⟨pat, hmem, hpat, hr⟩ := exists_pattern h
  have hle : r.length ≤ cs.length := hr ▸ (length_of_startsWith hmem hpat).2
  rw [Redaction.rest, Redaction.rest, List.drop_append_of_le_length hle, List.dropWhile_append]
  simp only [List.isEmpty_iff]

/-- A secret: letters and digits. -/
def IsSecret (s : List Char) : Prop := s ≠ [] ∧ ∀ c ∈ s, isAsciiAlphanumeric c = true

theorem IsSecret.of_all (hne : s ≠ []) (h : s.all isAsciiAlphanumeric = true) : IsSecret s :=
  ⟨hne, List.all_eq_true.1 h⟩

/-- The text starts on a line of its own, or there is none. -/
def OnNextLine (q : List Char) : Prop := ∀ c, q.head? = some c → c = '\n'

theorem Redaction.dropWhile_secret (r : Redaction) (hs : IsSecret s) (hq : OnNextLine q) :
    (s ++ q).dropWhile r.hides = q := by
  rw [List.dropWhile_append_of_pos fun c hc => r.word c (hs.2 c hc)]
  rcases q with _ | ⟨c, q⟩
  · rfl
  · obtain rfl := hq c rfl
    rw [List.dropWhile_cons_of_neg (by simp [r.line])]

/-- A pattern has a character that is not in a secret, and none that ends a line. -/
theorem not_prefix_of_secret (hmem : pat ∈ redactionPatterns)
    (hs : ∀ c ∈ s, isAsciiAlphanumeric c = true) (hq : OnNextLine q) :
    ¬ pat.toList <+: s.map Char.toLower ++ q.map Char.toLower := by
  have hall : (redactionPatterns.all fun pat => !pat.toList.all isAsciiAlphanumeric
      && !pat.toList.contains '\n') = true := by decide
  have hpat := List.all_eq_true.1 hall pat hmem
  simp only [Bool.and_eq_true, Bool.not_eq_true', ← Bool.not_eq_true, List.all_eq_true,
    List.contains_iff_mem] at hpat
  obtain ⟨hword, hline⟩ := hpat
  have hletters : ¬ pat.toList <+: s.map Char.toLower := by
    refine fun h => hword fun c hc => ?_
    obtain ⟨d, hd, rfl⟩ := List.mem_map.1 (h.subset hc)
    exact isAsciiAlphanumeric_toLower (hs d hd)
  intro h
  rcases List.prefix_or_prefix_of_prefix h (List.prefix_append _ _) with h | ⟨r, hr⟩
  · exact hletters h
  · rcases r with _ | ⟨x, r⟩
    · exact hletters (by rw [← hr, List.append_nil])
    · rw [← hr, List.prefix_append_right_inj] at h
      rcases q with _ | ⟨y, q⟩
      · cases List.prefix_nil.1 h
      · obtain rfl := hq y rfl
        obtain ⟨rfl, -⟩ := List.cons_prefix_cons.1 h
        exact hline (hr ▸ by simp)

/-- A secret has no pattern. -/
theorem redactSecrets_secret (hs : ∀ c ∈ s, isAsciiAlphanumeric c = true) (hq : OnNextLine q) :
    redactSecrets (s ++ q) = s ++ redactSecrets q := by
  induction s with
  | nil => rfl
  | cons c s ih =>
    have hnone : redactionAt (c :: (s ++ q)) = none := by
      refine redactionAt_eq_none fun pat hmem => ?_
      rw [Bool.eq_false_iff, Ne, startsWithIgnoreAsciiCase_iff hmem, ← List.cons_append,
        List.map_append]
      intro hpat
      exact not_prefix_of_secret hmem hs hq hpat
    rw [List.cons_append, redactSecrets_copy hnone, ih fun d hd => hs d (List.mem_cons_of_mem c hd),
      List.cons_append]

/-- The scan shows what comes behind the text: it copies the last character. -/
def Exposes (cs : List Char) : Prop := ∃ c, Reaches cs [c]

theorem not_exposes_nil : ¬ Exposes [] := by
  rintro ⟨c, hc⟩
  cases hc

theorem exposes_copy (h : redactionAt (c :: cs) = none) :
    Exposes (c :: cs) ↔ cs = [] ∨ Exposes cs := by
  constructor
  · rintro ⟨x, hx⟩
    rcases hx.of_copy h with heq | hx
    · exact .inl (List.cons.inj heq).2.symm
    · exact .inr ⟨x, hx⟩
  · rintro (rfl | ⟨x, hx⟩)
    · exact ⟨c, .refl _⟩
    · exact ⟨x, hx.copy h⟩

theorem exposes_hide (h : redactionAt cs = some r) : Exposes cs ↔ Exposes (r.rest cs) := by
  constructor
  · rintro ⟨x, hx⟩
    rcases hx.of_hide h with rfl | hx
    · have := Redaction.rest_length_add_two_lt h
      simp at this
    · exact ⟨x, hx⟩
  · rintro ⟨x, hx⟩
    exact ⟨x, hx.hide h⟩

/-- Whether the secret is shown does not depend on what it is. -/
theorem redactSecrets_append (hs : IsSecret s) (hq : OnNextLine q) (hcs : Ended cs)
    (hne : cs ≠ []) :
    (Exposes cs → redactSecrets (cs ++ (s ++ q)) = redactSecrets cs ++ (s ++ redactSecrets q)) ∧
      (¬ Exposes cs → redactSecrets (cs ++ (s ++ q)) = redactSecrets cs ++ redactSecrets q) := by
  induction cs using rounds_induction with
  | nil => exact absurd rfl hne
  | copy c cs hnone ih =>
    have hround : redactionAt (c :: (cs ++ (s ++ q))) = none := by
      rw [← List.cons_append, redactionAt_append hcs hne, hnone]
    rw [exposes_copy hnone, List.cons_append, redactSecrets_copy hround, redactSecrets_copy hnone]
    rcases cs with _ | ⟨d, ds⟩
    · refine ⟨fun _ => ?_, fun h => absurd (.inl rfl) h⟩
      rw [List.nil_append, redactSecrets_secret hs.2 hq]
      rfl
    · obtain ⟨hshown, hhidden⟩ := ih (hcs.suffix (List.suffix_cons c _)) nofun
      simp only [reduceCtorEq, false_or, List.cons_append] at hshown hhidden ⊢
      exact ⟨fun h => by rw [hshown h], fun h => by rw [hhidden h]⟩
  | hide cs r hr ih =>
    have hround : redactionAt (cs ++ (s ++ q)) = some r := by rw [redactionAt_append hcs hne, hr]
    rw [exposes_hide hr, redactSecrets_hide hround, redactSecrets_hide hr, r.rest_append hr]
    split
    · next hrest =>
        rw [hrest, r.dropWhile_secret hs hq]
        exact ⟨fun h => absurd h not_exposes_nil, fun _ => by simp [redactSecrets, redactLoop]⟩
    · next hrest =>
        obtain ⟨hshown, hhidden⟩ := ih (hcs.suffix (r.rest_suffix cs)) hrest
        refine ⟨fun h => ?_, fun h => ?_⟩
        · rw [hshown h, List.append_assoc]
        · rw [hhidden h, List.append_assoc]

/-! ## Markers -/

/-- What stands before a secret. -/
def secretMarkers : List String := "bearer " :: "authorization:" :: kvPatterns

/-- A marker in any ASCII case. -/
def IsMarker (m : List Char) : Prop := ∃ marker ∈ secretMarkers, m.map Char.toLower = marker.toList

theorem IsMarker.ne_nil (h : IsMarker m) : m ≠ [] := by
  rintro rfl
  obtain ⟨marker, hmem, hm⟩ := h
  revert hm hmem marker
  decide

theorem IsMarker.ended (h : IsMarker m) (p : List Char) : Ended (p ++ m) := by
  obtain ⟨front, c, rfl⟩ := (List.eq_nil_or_concat' m).resolve_left h.ne_nil
  obtain ⟨marker, hmem, hm⟩ := h
  have hall : (secretMarkers.all fun marker => marker.toList.getLast?.all isPatternEnd) = true := by
    decide
  have hlast := List.all_eq_true.1 hall marker hmem
  intro d hd
  rw [← List.append_assoc, List.getLast?_concat] at hd
  obtain rfl := Option.some.inj hd
  simpa [← hm] using hlast

/-- A marker is a pattern. -/
theorem IsMarker.redactionAt_ne_none (h : IsMarker m) : redactionAt m ≠ none := by
  obtain ⟨marker, hmem, hm⟩ := h
  have hall : (secretMarkers.all fun marker => (redactionAt marker.toList).isSome) = true := by decide
  have hsome := List.all_eq_true.1 hall marker hmem
  rw [← hm, redactionAt_map_toLower] at hsome
  exact Option.isSome_iff_ne_none.1 hsome

/-- There is no pattern within a marker. -/
theorem IsMarker.redactionAt_suffix {v : List Char} (h : IsMarker m) (hv : v <:+ m)
    (hlen : v.length < m.length) : redactionAt v = none := by
  obtain ⟨marker, hmem, hm⟩ := h
  have hall : (secretMarkers.all fun marker =>
      marker.toList.tails.tail.all fun v => (redactionAt v).isNone) = true := by decide
  have hnone := List.all_eq_true.1 hall marker hmem
  rcases m with _ | ⟨c, m⟩
  · exact absurd hlen (Nat.not_lt_zero _)
  · have hv' : v <:+ m := by
      rcases List.suffix_cons_iff.1 hv with rfl | hv
      · exact absurd hlen (Nat.lt_irrefl _)
      · exact hv
    rw [← hm, List.map_cons, List.tails, List.tail_cons, List.all_eq_true] at hnone
    have hlower := hnone _ ((List.mem_tails _ _).2 (hv'.map Char.toLower))
    rw [redactionAt_map_toLower] at hlower
    exact Option.isNone_iff_eq_none.1 hlower

/-- An earlier match hides a part of the marker and stops within it. -/
def StopsInside (p m : List Char) : Prop :=
  ∃ cs r, Reaches (p ++ m) cs ∧ redactionAt cs = some r ∧
    r.rest cs ≠ [] ∧ (r.rest cs).length < m.length

theorem exposes_of_no_pattern {v : List Char} (hne : v ≠ [])
    (h : ∀ w, w <:+ v → redactionAt w = none) : Exposes v := by
  induction v with
  | nil => exact absurd rfl hne
  | cons c v ih =>
    rw [exposes_copy (h _ (List.suffix_refl _))]
    by_cases hv : v = []
    · exact .inl hv
    · exact .inr (ih hv fun w hw => h w (hw.trans (List.suffix_cons c v)))

theorem Reaches.exposes (h : Reaches cs rest) (hrest : Exposes rest) : Exposes cs := by
  induction h with
  | refl => exact hrest
  | round _ ih =>
    obtain ⟨x, hx⟩ := ih hrest
    exact ⟨x, .round hx⟩

/-- A secret behind a marker is shown exactly if an earlier match stops within the marker. -/
theorem exposes_iff {p : List Char} (hm : IsMarker m) : Exposes (p ++ m) ↔ StopsInside p m := by
  constructor
  · intro h
    have hm' : m <:+ p ++ m := List.suffix_append p m
    unfold StopsInside
    generalize p ++ m = cs at h hm'
    induction cs using rounds_induction with
    | nil => exact absurd h not_exposes_nil
    | copy c cs hnone ih =>
      rcases List.suffix_cons_iff.1 hm' with rfl | hcs
      · exact absurd hnone hm.redactionAt_ne_none
      · rcases (exposes_copy hnone).1 h with rfl | h
        · exact absurd (List.suffix_nil.1 hcs) hm.ne_nil
        · obtain ⟨ds, r, hds, hstop⟩ := ih h hcs
          exact ⟨ds, r, hds.copy hnone, hstop⟩
    | hide cs r hr ih =>
      have hrest := (exposes_hide hr).1 h
      by_cases hlen : (r.rest cs).length < m.length
      · refine ⟨cs, r, .refl cs, hr, ?_, hlen⟩
        rintro heq
        exact not_exposes_nil (heq ▸ hrest)
      · -- the marker is still to come
        have hbehind := List.suffix_of_suffix_length_le hm' (r.rest_suffix cs) (Nat.le_of_not_lt hlen)
        obtain ⟨ds, r', hds, hstop⟩ := ih hrest hbehind
        exact ⟨ds, r', hds.hide hr, hstop⟩
  · rintro ⟨cs, r, hcs, hr, hne, hlen⟩
    refine hcs.exposes ((exposes_hide hr).2 (exposes_of_no_pattern hne fun w hw => ?_))
    have hsuffix : r.rest cs <:+ p ++ m := (r.rest_suffix cs).trans hcs.suffix
    have hin : r.rest cs <:+ m :=
      List.suffix_of_suffix_length_le hsuffix (List.suffix_append p m) hlen.le
    exact hm.redactionAt_suffix (hw.trans hin) (Nat.lt_of_le_of_lt hw.length_le hlen)

/-! ## Summaries -/

theorem cutAt_append {n : Nat} (h : n ≤ utf8Len cs) (ds : List Char) :
    cutAt n (cs ++ ds) = cutAt n cs := by
  induction cs generalizing n with
  | nil =>
    obtain rfl := Nat.le_zero.1 h
    cases ds with
    | nil => rfl
    | cons d ds => exact if_neg (Nat.not_le.2 d.utf8Size_pos)
  | cons c cs ih =>
    rw [List.cons_append, cutAt, cutAt]
    split
    · rw [ih (by rw [utf8Len] at h; omega)]
    · rfl

theorem cutAt_append_of_le {n : Nat} (h : utf8Len cs ≤ n) (ds : List Char) :
    cutAt n (cs ++ ds) = cs ++ cutAt (n - utf8Len cs) ds := by
  induction cs generalizing n with
  | nil => rfl
  | cons c cs ih =>
    rw [utf8Len] at h
    rw [List.cons_append, cutAt, if_pos (by omega), ih (by omega), utf8Len, Nat.sub_add_eq]
    rfl

/-- Less than a character is lost at the cut. -/
theorem lt_utf8Len_cutAt {n : Nat} (h : n ≤ utf8Len cs) : n < utf8Len (cutAt n cs) + 4 := by
  induction cs generalizing n with
  | nil =>
    obtain rfl := Nat.le_zero.1 h
    exact Nat.succ_pos 3
  | cons c cs ih =>
    rw [utf8Len] at h
    rw [cutAt]
    split
    · have := ih (n := n - c.utf8Size) (by omega)
      rw [utf8Len]
      omega
    · have := c.utf8Size_le_four
      omega

namespace BoundedDiagnosticsSummary

/-- `BoundedDiagnosticsSummary::len`. -/
def len (summary : BoundedDiagnosticsSummary) : Nat := summary.asStr.utf8ByteSize

/-- What is written behind a cut. -/
def truncationMark : List Char := "... [truncated]".toList

variable {raw : String}

theorem fromRaw_of_lt (h : maxDiagnosticsBytes < utf8Len (redactSecrets raw.toList)) :
    fromRaw raw =
      ⟨String.ofList (cutAt maxDiagnosticsBytes (redactSecrets raw.toList) ++ truncationMark)⟩ :=
  if_pos h

theorem fromRaw_of_le (h : utf8Len (redactSecrets raw.toList) ≤ maxDiagnosticsBytes) :
    fromRaw raw = ⟨String.ofList (redactSecrets raw.toList)⟩ :=
  if_neg (Nat.not_lt.2 h)

/-- A summary is within the bound exactly if it is not cut. -/
theorem len_fromRaw_le_iff (raw : String) :
    (fromRaw raw).len ≤ maxDiagnosticsBytes ↔
      utf8Len (redactSecrets raw.toList) ≤ maxDiagnosticsBytes := by
  by_cases h : utf8Len (redactSecrets raw.toList) ≤ maxDiagnosticsBytes
  · rw [fromRaw_of_le h, len, utf8ByteSize_ofList]
  · have hcut := lt_utf8Len_cutAt (Nat.le_of_not_le h)
    have hmark : utf8Len truncationMark = 15 := by decide
    rw [fromRaw_of_lt (Nat.lt_of_not_le h), len, utf8ByteSize_ofList, utf8Len_append, hmark]
    omega

/-- What fits into the bound is shown. -/
theorem prefix_fromRaw {shown : List Char} (h : redactSecrets raw.toList = shown ++ rest)
    (hle : utf8Len shown ≤ maxDiagnosticsBytes) : shown <+: (fromRaw raw).asStr.toList := by
  by_cases hfits : utf8Len (redactSecrets raw.toList) ≤ maxDiagnosticsBytes
  · rw [fromRaw_of_le hfits, h, String.toList_ofList]
    exact List.prefix_append shown rest
  · rw [fromRaw_of_lt (Nat.lt_of_not_le hfits), h, cutAt_append_of_le hle, List.append_assoc,
      String.toList_ofList]
    exact List.prefix_append shown _

/-- Two summaries that agree show the same up to the bound. -/
theorem eq_of_fromRaw_eq {raw' : String} {shown rest' : List Char} {d : Char}
    (hraw : redactSecrets raw.toList = shown ++ c :: rest)
    (hraw' : redactSecrets raw'.toList = shown ++ d :: rest')
    (hc : utf8Len (shown ++ [c]) ≤ maxDiagnosticsBytes)
    (hd : utf8Len (shown ++ [d]) ≤ maxDiagnosticsBytes) (h : fromRaw raw = fromRaw raw') :
    c = d := by
  rw [List.append_cons] at hraw hraw'
  have hpre := prefix_fromRaw hraw hc
  have hpre' := prefix_fromRaw hraw' hd
  rw [← h] at hpre'
  have hlen : (shown ++ [c]).length ≤ (shown ++ [d]).length := by simp
  have heq := (List.prefix_of_prefix_length_le hpre hpre' hlen).eq_of_length (by simp)
  simpa using heq

/-- What comes behind the bound is not shown. -/
theorem fromRaw_eq_of_full {raw' : String} {shown rest' : List Char}
    (hraw : redactSecrets raw.toList = shown ++ rest) (hne : rest ≠ [])
    (hraw' : redactSecrets raw'.toList = shown ++ rest') (hne' : rest' ≠ [])
    (hfull : maxDiagnosticsBytes ≤ utf8Len shown) : fromRaw raw = fromRaw raw' := by
  have hlong : ∀ l : List Char, l ≠ [] → maxDiagnosticsBytes < utf8Len (shown ++ l) := by
    intro l hl
    obtain ⟨c, cs, rfl⟩ := List.exists_cons_of_ne_nil hl
    have := c.utf8Size_pos
    rw [utf8Len_append, utf8Len]
    omega
  rw [fromRaw_of_lt (hraw ▸ hlong rest hne), fromRaw_of_lt (hraw' ▸ hlong rest' hne'), hraw, hraw',
    cutAt_append hfull, cutAt_append hfull]

theorem fromRaw_congr {raw' : String} (h : redactSecrets raw.toList = redactSecrets raw'.toList) :
    fromRaw raw = fromRaw raw' := by
  unfold fromRaw
  rw [h]

end BoundedDiagnosticsSummary

open BoundedDiagnosticsSummary

/-- Secrets behind the marker make no difference, and summaries are bounded: exactly if no
earlier match stops within the marker, or the bound is reached before it, and if no summary
is cut. -/
theorem redaction_iff {p m q : String} (hm : IsMarker m.toList) (hq : OnNextLine q.toList)
    (raw : String) :
    ((∀ s t : String, IsSecret s.toList → IsSecret t.toList →
        fromRaw (p ++ m ++ s ++ q) = fromRaw (p ++ m ++ t ++ q)) ↔
      ¬ StopsInside p.toList m.toList ∨
        maxDiagnosticsBytes ≤ utf8Len (redactSecrets (p ++ m).toList)) ∧
    ((fromRaw raw).len ≤ maxDiagnosticsBytes ↔
      utf8Len (redactSecrets raw.toList) ≤ maxDiagnosticsBytes) := by
  refine ⟨?_, len_fromRaw_le_iff raw⟩
  have hended : Ended (p ++ m).toList := by
    rw [String.toList_append]
    exact hm.ended p.toList
  have hne : (p ++ m).toList ≠ [] := by
    rw [String.toList_append]
    exact List.append_ne_nil_of_right_ne_nil _ hm.ne_nil
  have hexposes : Exposes (p ++ m).toList ↔ StopsInside p.toList m.toList := by
    rw [String.toList_append]
    exact exposes_iff hm
  have htext : ∀ s : String, (p ++ m ++ s ++ q).toList = (p ++ m).toList ++ (s.toList ++ q.toList) := by
    intro s
    simp [String.toList_append]
  -- what is redacted, by whether the marker is found
  have hrun := fun (s : String) (hs : IsSecret s.toList) =>
    htext s ▸ redactSecrets_append hs hq hended hne
  rw [← hexposes]
  constructor
  · intro h
    by_contra hno
    rw [not_or, not_not, Nat.not_le] at hno
    obtain ⟨hshown, hlt⟩ := hno
    have ha : IsSecret "a".toList := .of_all (by decide) (by decide)
    have hb : IsSecret "b".toList := .of_all (by decide) (by decide)
    have hfits : ∀ c : Char, c.utf8Size = 1 →
        utf8Len (redactSecrets (p ++ m).toList ++ [c]) ≤ maxDiagnosticsBytes := by
      intro c hc
      rw [utf8Len_append, utf8Len, hc]
      exact hlt
    exact absurd (eq_of_fromRaw_eq ((hrun "a" ha).1 hshown) ((hrun "b" hb).1 hshown)
      (hfits 'a' rfl) (hfits 'b' rfl) (h "a" "b" ha hb)) (by decide)
  · rintro (hhidden | hfull) s t hs ht
    · exact fromRaw_congr (((hrun s hs).2 hhidden).trans ((hrun t ht).2 hhidden).symm)
    · by_cases hshown : Exposes (p ++ m).toList
      · exact fromRaw_eq_of_full ((hrun s hs).1 hshown) (List.append_ne_nil_of_left_ne_nil hs.1 _)
          ((hrun t ht).1 hshown) (List.append_ne_nil_of_left_ne_nil ht.1 _) hfull
      · exact fromRaw_congr (((hrun s hs).2 hshown).trans ((hrun t ht).2 hshown).symm)

theorem not_stopsInside_token : ¬ StopsInside "".toList "Token=".toList := by
  have htoken : redactionAt "Token=".toList = some (kvRedaction "token=") := rfl
  have hrest : (kvRedaction "token=").rest "Token=".toList = [] := by decide
  rintro ⟨cs, r, hcs, hr, hne, -⟩
  rcases Reaches.of_hide htoken hcs with rfl | hcs
  · rw [htoken] at hr
    obtain rfl := Option.some.inj hr
    exact hne hrest
  · rw [hrest] at hcs
    cases hcs
    cases hr

theorem redaction_iff_token :
    fromRaw ("" ++ "Token=" ++ "a" ++ "\n") = fromRaw ("" ++ "Token=" ++ "b" ++ "\n") :=
  (redaction_iff ⟨"token=", by decide, by decide⟩ (by rintro c ⟨⟩; rfl) "").1.2
    (.inl not_stopsInside_token) "a" "b" (.of_all (by decide) (by decide))
    (.of_all (by decide) (by decide))

set_option maxRecDepth 20000 in
theorem fromRaw_bearer_bearer : fromRaw ("Bearer " ++ "bearer " ++ "a" ++ "") ≠
    fromRaw ("Bearer " ++ "bearer " ++ "b" ++ "") := by
  decide

/-- Behind a first `bearer ` the second one is taken for a token, and the secret is left. -/
theorem bearer_bearer_shows : ¬ ((∀ p m q : String, IsMarker m.toList → OnNextLine q.toList →
      ∀ s t : String, IsSecret s.toList → IsSecret t.toList →
        fromRaw (p ++ m ++ s ++ q) = fromRaw (p ++ m ++ t ++ q)) ∧
    ∀ raw, (fromRaw raw).len ≤ maxDiagnosticsBytes) := by
  rintro ⟨h, -⟩
  have hequal := h "Bearer " "bearer " "" ⟨"bearer ", by decide, by decide⟩ nofun "a" "b"
    (.of_all (by decide) (by decide)) (.of_all (by decide) (by decide))
  exact fromRaw_bearer_bearer hequal

end Altior.Runtime
