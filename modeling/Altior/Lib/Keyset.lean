import Mathlib.Data.List.Forall2
import Mathlib.Data.List.Sort
import Mathlib.Data.Prod.Lex

/-!
# Keyset pagination

A listing hands out its rows a page at a time, in the order of a key; a client passes on
the key of the last row it got.  Such a walk finds every row once when a page holds what
lies behind its cursor, and the first page what lies behind nothing.  Reading a row may
fail, and then the whole page does.
-/

namespace Altior.Lib

namespace Keyset

variable {α β γ ε κ : Type}

/-! ## Walks -/

/-- A client's walk: it asks for a page and then for the one behind the last row it got,
until a page is empty. -/
inductive Walk (page : Option γ → Except ε (List β)) (cursorOf : β → Option γ) :
    Option γ → List (List β) → Prop
  | stop {c : Option γ} (h : page c = .ok []) : Walk page cursorOf c []
  | more {c : Option γ} {rows : List β} {last : β} {c' : γ} {pages : List (List β)}
      (h : page c = .ok rows) (hlast : rows.getLast? = some last) (hcursor : cursorOf last = some c')
      (hrest : Walk page cursorOf (some c') pages) : Walk page cursorOf c (rows :: pages)

/-- The walk ends, and its pages hold the given rows, each once and in their order. -/
def Exact (page : Option γ → Except ε (List β)) (cursorOf : β → Option γ)
    (read : α → Except ε β) (rows : List α) : Prop :=
  ∃ pages, Walk page cursorOf none pages ∧ rows.mapM read = .ok pages.flatten

/-! ## Reading rows -/

variable {out : List β} {after before : List α}

section Read

variable {read : α → Except ε β}

/-- Reading a list reads each of its rows. -/
theorem mapM_eq_ok_iff {rows : List α} :
    rows.mapM read = .ok out ↔ List.Forall₂ (fun a b => read a = .ok b) rows out := by
  induction rows generalizing out with
  | nil =>
    rw [List.forall₂_nil_left_iff]
    exact ⟨fun h => (Except.ok.inj h).symm, fun h => by rw [h]; rfl⟩
  | cons row rows ih =>
    rw [List.mapM_cons, List.forall₂_cons_left_iff]
    cases hrow : read row with
    | error e => exact ⟨fun h => (nomatch h), fun ⟨b, _, hb, _⟩ => (nomatch hb)⟩
    | ok b =>
      constructor
      · intro h
        cases hrows : rows.mapM read with
        | error e =>
          rw [hrows] at h
          cases h
        | ok rest =>
          rw [hrows] at h
          cases h
          exact ⟨b, rest, rfl, ih.1 hrows, rfl⟩
      · rintro ⟨b', rest, hb, hrest, rfl⟩
        cases hb
        rw [ih.2 hrest]
        rfl

theorem exists_mapM_iff {rows : List α} :
    (∃ out, rows.mapM read = .ok out) ↔ ∀ row ∈ rows, ∃ b, read row = .ok b := by
  induction rows with
  | nil => exact ⟨fun _ _ h => absurd h List.not_mem_nil, fun _ => ⟨[], rfl⟩⟩
  | cons row rows ih =>
    rw [List.forall_mem_cons, ← ih]
    constructor
    · rintro ⟨out, hout⟩
      obtain ⟨b, rest, hb, hrest, -⟩ := List.forall₂_cons_left_iff.1 (mapM_eq_ok_iff.1 hout)
      exact ⟨⟨b, hb⟩, rest, mapM_eq_ok_iff.2 hrest⟩
    · rintro ⟨⟨b, hb⟩, rest, hrest⟩
      exact ⟨b :: rest, mapM_eq_ok_iff.2 (.cons hb (mapM_eq_ok_iff.1 hrest))⟩

/-- What holds of every row holds of everything that is read, when a row has it exactly if what
is read of it does. -/
theorem forall_read_iff {rows : List α} {P : α → Prop} {Q : β → Prop}
    (h : rows.mapM read = .ok out) (hiff : ∀ row ∈ rows, ∀ b, read row = .ok b → (P row ↔ Q b)) :
    (∀ b ∈ out, Q b) ↔ ∀ row ∈ rows, P row := by
  rw [mapM_eq_ok_iff] at h
  induction h with
  | nil => exact ⟨fun _ _ hrow => absurd hrow List.not_mem_nil, fun _ _ hb => absurd hb List.not_mem_nil⟩
  | @cons row b rows out hread _ ih =>
    have hhead := hiff row List.mem_cons_self b hread
    have htail := ih fun row' hrow' => hiff row' (List.mem_cons_of_mem _ hrow')
    rw [List.forall_mem_cons, List.forall_mem_cons, hhead, htail]

/-- What is read of a list ends with what is read of its last row. -/
theorem getLast?_of_read {front : List α} {row : α} (h : (front ++ [row]).mapM read = .ok out) :
    ∃ last, out.getLast? = some last ∧ read row = .ok last := by
  rw [mapM_eq_ok_iff] at h
  induction front generalizing out with
  | nil =>
    obtain ⟨last, rest, hlast, hrest, rfl⟩ := List.forall₂_cons_left_iff.1 h
    rw [List.forall₂_nil_left_iff] at hrest
    exact ⟨last, by rw [hrest]; rfl, hlast⟩
  | cons head front ih =>
    obtain ⟨b, rest, -, hrest, rfl⟩ := List.forall₂_cons_left_iff.1 h
    obtain ⟨last, hlast, hread⟩ := ih hrest
    refine ⟨last, ?_, hread⟩
    rw [List.getLast?_cons, hlast, Option.getD_some]

end Read

/-! ## Pages of a list -/

/-- A page holds the next rows behind its cursor. -/
structure Paged (rows : List α) (limit : Nat) (read : α → Except ε β)
    (page : Option γ → Except ε (List β)) (cursorOf : β → Option γ) : Prop where
  first : page none = (rows.take limit).mapM read
  next : ∀ before row after b, rows = before ++ row :: after → read row = .ok b →
    ∃ c, cursorOf b = some c ∧ page (some c) = (after.take limit).mapM read

namespace Paged

variable {rows : List α} {limit : Nat} {read : α → Except ε β}
  {page : Option γ → Except ε (List β)} {cursorOf : β → Option γ}

/-- A page that is not empty ends with a row, and the next one begins behind it. -/
theorem exists_last (h : Paged rows limit read page cursorOf) (hlimit : 0 < limit)
    (hrows : rows = before ++ after) (hne : after ≠ []) {chunk : List β}
    (hchunk : (after.take limit).mapM read = .ok chunk) :
    ∃ last c, chunk.getLast? = some last ∧ cursorOf last = some c ∧
      page (some c) = ((after.drop limit).take limit).mapM read := by
  have htake : after.take limit ≠ [] := by
    rw [ne_eq, List.take_eq_nil_iff]
    rintro (hzero | hnil)
    · exact absurd hlimit (by omega)
    · exact hne hnil
  obtain hnil | ⟨front, row, hfront⟩ := List.eq_nil_or_concat (after.take limit)
  · exact absurd hnil htake
  rw [List.concat_eq_append] at hfront
  rw [hfront] at hchunk
  obtain ⟨last, hlast, hread⟩ := getLast?_of_read hchunk
  have hsplit : rows = (before ++ front) ++ row :: after.drop limit := by
    rw [hrows, List.append_assoc, List.append_cons, ← hfront, List.take_append_drop]
  obtain ⟨c, hcursor, hpage⟩ := h.next _ row _ last hsplit hread
  exact ⟨last, c, hlast, hcursor, hpage⟩

/-- The walk from a place on reads what comes behind it. -/
theorem walk_from (h : Paged rows limit read page cursorOf) (hlimit : 0 < limit) {c : Option γ}
    (hrows : rows = before ++ after) (hpage : page c = (after.take limit).mapM read)
    (hread : after.mapM read = .ok out) :
    ∃ pages, Walk page cursorOf c pages ∧ pages.flatten = out := by
  induction hlength : after.length using Nat.strong_induction_on generalizing before after c out with
  | _ n ih =>
    have hout := mapM_eq_ok_iff.1 hread
    have hchunk := mapM_eq_ok_iff.2 (List.forall₂_take limit hout)
    by_cases hne : after = []
    · subst hne
      rw [List.forall₂_nil_left_iff] at hout
      subst hout
      rw [List.take_nil] at hpage
      exact ⟨[], .stop hpage, rfl⟩
    · obtain ⟨last, c', hlast, hcursor, hnext⟩ := h.exists_last hlimit hrows hne hchunk
      have hshorter : (after.drop limit).length < n := by
        have hpos := List.length_pos_iff.2 hne
        rw [List.length_drop]
        omega
      have hsplit : rows = (before ++ after.take limit) ++ after.drop limit := by
        rw [hrows, List.append_assoc, List.take_append_drop]
      obtain ⟨pages, hwalk, hflatten⟩ := ih _ hshorter hsplit hnext
        (mapM_eq_ok_iff.2 (List.forall₂_drop limit hout)) rfl
      refine ⟨_, .more (hpage.trans hchunk) hlast hcursor hwalk, ?_⟩
      rw [List.flatten_cons, hflatten, List.take_append_drop]

/-- Whatever a walk from a place on finds is what comes behind the place. -/
theorem read_of_walk (h : Paged rows limit read page cursorOf) (hlimit : 0 < limit) {c : Option γ}
    {pages : List (List β)} (hrows : rows = before ++ after)
    (hpage : page c = (after.take limit).mapM read) (hwalk : Walk page cursorOf c pages) :
    after.mapM read = .ok pages.flatten := by
  induction hwalk generalizing before after with
  | stop hstop =>
    have hnil := mapM_eq_ok_iff.1 (hpage.symm.trans hstop)
    rw [List.forall₂_nil_right_iff, List.take_eq_nil_iff] at hnil
    rcases hnil with hzero | rfl
    · exact absurd hlimit (by omega)
    · rfl
  | @more c rows' last c' pages hmore hlast hcursor _ ih =>
    have hchunk := hpage.symm.trans hmore
    have hne : after ≠ [] := by
      rintro rfl
      rw [List.take_nil] at hchunk
      cases hchunk
      cases hlast
    obtain ⟨last', c'', hlast', hcursor', hnext⟩ := h.exists_last hlimit hrows hne hchunk
    cases hlast.symm.trans hlast'
    cases hcursor.symm.trans hcursor'
    have hsplit : rows = (before ++ after.take limit) ++ after.drop limit := by
      rw [hrows, List.append_assoc, List.take_append_drop]
    have hrest := ih hsplit hnext
    rw [List.flatten_cons, mapM_eq_ok_iff]
    have happend : List.Forall₂ (fun a b => read a = .ok b) (after.take limit ++ after.drop limit)
        (rows' ++ pages.flatten) :=
      List.rel_append (mapM_eq_ok_iff.1 hchunk) (mapM_eq_ok_iff.1 hrest)
    rwa [List.take_append_drop] at happend

/-- A walk from the start finds the rows as they can be read. -/
theorem exact_iff_exists (h : Paged rows limit read page cursorOf) (hlimit : 0 < limit) :
    Exact page cursorOf read rows ↔ ∃ out, rows.mapM read = .ok out := by
  constructor
  · rintro ⟨pages, -, hread⟩
    exact ⟨pages.flatten, hread⟩
  · rintro ⟨out, hread⟩
    obtain ⟨pages, hwalk, hflatten⟩ := h.walk_from hlimit (List.nil_append rows).symm h.first hread
    exact ⟨pages, hwalk, by rw [hread, hflatten]⟩

end Paged

/-- The first rows are all rows of a kind exactly if they are of the kind and no other row
is. -/
theorem perm_take_filter_iff {rows : List α} {limit : Nat} {want : α → Bool} :
    (rows.take limit).Perm (rows.filter want) ↔
      (∀ row ∈ rows.take limit, want row = true) ∧ ∀ row ∈ rows.drop limit, want row = false := by
  have hsplit : rows.filter want = (rows.take limit).filter want ++ (rows.drop limit).filter want := by
    rw [← List.filter_append, List.take_append_drop]
  constructor
  · intro h
    have hfront : ∀ row ∈ rows.take limit, want row = true :=
      fun row hrow => (List.mem_filter.1 (h.mem_iff.1 hrow)).2
    refine ⟨hfront, fun row hrow => Bool.eq_false_iff.2 fun hwant => ?_⟩
    -- what is of the kind behind the first rows would make the filtered rows more
    have hlength := h.length_eq
    rw [hsplit, List.length_append, List.filter_eq_self.2 hfront] at hlength
    have hpos := List.length_pos_of_mem (List.mem_filter.2 ⟨hrow, hwant⟩)
    omega
  · rintro ⟨hfront, hback⟩
    have hnone : (rows.drop limit).filter want = [] := by
      rw [List.filter_eq_nil_iff]
      intro row hrow hwant
      rw [hback row hrow] at hwant
      cases hwant
    rw [hsplit, List.filter_eq_self.2 hfront, hnone, List.append_nil]

/-! ## Pages in the order of a key -/

section Order

variable [LinearOrder κ] (key : α → κ)

/-- The rows in the order of their keys. -/
def inOrder (rows : List α) : List α := rows.mergeSort fun a b => key a ≤ key b

theorem perm_inOrder (rows : List α) : (inOrder key rows).Perm rows := List.mergeSort_perm _ _

theorem mem_inOrder {rows : List α} {row : α} : row ∈ inOrder key rows ↔ row ∈ rows :=
  (perm_inOrder key rows).mem_iff

theorem pairwise_inOrder (rows : List α) :
    (inOrder key rows).Pairwise fun a b => key a ≤ key b := by
  refine (List.pairwise_mergeSort (fun a b c hab hbc => ?_) (fun a b => ?_) rows).imp
    fun h => of_decide_eq_true h
  · exact decide_eq_true ((of_decide_eq_true hab).trans (of_decide_eq_true hbc))
  · rcases le_total (key a) (key b) with h | h
    · rw [decide_eq_true h, Bool.true_or]
    · rw [decide_eq_true h, Bool.or_true]

variable {key} {rows : List α}

/-- The first row in order has the least key. -/
theorem le_of_head?_inOrder {row : α} (h : (inOrder key rows).head? = some row) :
    row ∈ rows ∧ ∀ other ∈ rows, key row ≤ key other := by
  obtain ⟨after, hafter⟩ := List.head?_eq_some_iff.1 h
  have hsorted := pairwise_inOrder key rows
  rw [hafter, List.pairwise_cons] at hsorted
  refine ⟨(mem_inOrder key).1 (hafter ▸ List.mem_cons_self), fun other hother => ?_⟩
  have hother := (mem_inOrder key).2 hother
  rw [hafter] at hother
  rcases List.mem_cons.1 hother with rfl | hother
  · exact le_rfl
  · exact hsorted.1 other hother

theorem head?_inOrder_eq_none_iff : (inOrder key rows).head? = none ↔ rows = [] := by
  rw [List.head?_eq_none_iff]
  constructor
  · intro h
    exact List.perm_nil.1 (h ▸ (perm_inOrder key rows).symm)
  · rintro rfl
    exact List.perm_nil.1 (perm_inOrder key [])

/-- Under distinct keys the order is strict. -/
theorem strict_inOrder (hkeys : (rows.map key).Nodup) :
    (inOrder key rows).Pairwise fun a b => key a < key b := by
  have hnodup : ((inOrder key rows).map key).Nodup :=
    ((perm_inOrder key rows).map key).nodup_iff.2 hkeys
  refine (pairwise_inOrder key rows).imp₂ (fun a b hle hne => lt_of_le_of_ne hle hne) ?_
  exact List.pairwise_map.1 hnodup

/-- A list that is in order already is what ordering its rows gives. -/
theorem inOrder_eq_of_strict {sorted : List α} (hperm : sorted.Perm rows)
    (hsorted : sorted.Pairwise fun a b => key a < key b) : inOrder key rows = sorted := by
  have hkeys : (sorted.map key).Nodup := List.pairwise_map.2 (hsorted.imp fun hlt => hlt.ne)
  refine List.Perm.eq_of_pairwise (fun a b ha hb hab hba => ?_) (pairwise_inOrder key rows)
    (hsorted.imp fun hlt => hlt.le) ((perm_inOrder key rows).trans hperm.symm)
  have ha := hperm.mem_iff.2 ((mem_inOrder key).1 ha)
  exact List.inj_on_of_nodup_map hkeys ha hb (le_antisymm hab hba)

/-- Selecting rows and ordering them can be done in either order. -/
theorem inOrder_filter (hkeys : (rows.map key).Nodup) (select : α → Bool) :
    inOrder key (rows.filter select) = (inOrder key rows).filter select := by
  refine List.Perm.eq_of_pairwise (fun a b ha hb hab hba => ?_) (pairwise_inOrder key _)
    ((pairwise_inOrder key rows).filter _)
    ((perm_inOrder key _).trans ((perm_inOrder key rows).filter select).symm)
  have ha := (List.mem_filter.1 ((mem_inOrder key).1 ha)).1
  have hb := (mem_inOrder key).1 (List.mem_filter.1 hb).1
  exact List.inj_on_of_nodup_map hkeys ha hb (le_antisymm hab hba)

/-- What lies behind a row is what comes after it. -/
theorem filter_behind {row : α}
    (hsorted : (before ++ row :: after).Pairwise fun a b => key a < key b) :
    (before ++ row :: after).filter (fun other => key row < key other) = after := by
  rw [List.pairwise_append, List.pairwise_cons] at hsorted
  obtain ⟨-, ⟨hafter, -⟩, hbefore⟩ := hsorted
  have hnone : before.filter (fun other => decide (key row < key other)) = [] := by
    rw [List.filter_eq_nil_iff]
    intro other hother
    have hlt := hbefore other hother row List.mem_cons_self
    simp [hlt.le]
  have hall : after.filter (fun other => decide (key row < key other)) = after := by
    rw [List.filter_eq_self]
    intro other hother
    exact decide_eq_true (hafter other hother)
  rw [List.filter_append, hnone, List.nil_append, List.filter_cons_of_neg (by simp), hall]

variable {limit : Nat} {read : α → Except ε β} {page : Option γ → Except ε (List β)}
  {cursorOf : β → Option γ} {start : α → Bool} {behind : γ → α → Bool}

/-- A page query selects what lies behind its cursor, orders it, cuts it off and reads it.
Without a cursor it begins at a start that lets through whatever lies behind a row it lets
through. -/
structure Query (key : α → κ) (rows : List α) (limit : Nat) (read : α → Except ε β)
    (page : Option γ → Except ε (List β)) (cursorOf : β → Option γ) (start : α → Bool)
    (behind : γ → α → Bool) : Prop where
  keys : (rows.map key).Nodup
  first : page none = ((inOrder key (rows.filter start)).take limit).mapM read
  next : ∀ c, page (some c) = ((inOrder key (rows.filter (behind c))).take limit).mapM read
  cursor : ∀ row ∈ rows, ∀ b, read row = .ok b → ∃ c, cursorOf b = some c ∧
    ∀ other ∈ rows, behind c other = decide (key row < key other)
  upward : ∀ row ∈ rows, ∀ other ∈ rows, start row = true → key row < key other →
    start other = true

theorem Query.paged (h : Query key rows limit read page cursorOf start behind) :
    Paged (inOrder key (rows.filter start)) limit read page cursorOf where
  first := h.first
  next := by
    intro before row after b hsplit hread
    have hmem : row ∈ rows.filter start :=
      (mem_inOrder key).1 (hsplit ▸ List.mem_append_right _ List.mem_cons_self)
    obtain ⟨hrow, hstart⟩ := List.mem_filter.1 hmem
    obtain ⟨c, hcursor, hbehind⟩ := h.cursor row hrow b hread
    refine ⟨c, hcursor, ?_⟩
    have hkeys : ((rows.filter start).map key).Nodup :=
      h.keys.sublist (List.filter_sublist.map key)
    have hsame : rows.filter (behind c) =
        (rows.filter start).filter fun other => decide (key row < key other) := by
      rw [List.filter_filter]
      refine List.filter_congr fun other hother => ?_
      rw [hbehind other hother]
      cases hlt : decide (key row < key other) with
      | false => rfl
      | true => rw [h.upward row hrow other hother hstart (of_decide_eq_true hlt), Bool.true_and]
    rw [h.next c, hsame, inOrder_filter hkeys, hsplit, filter_behind (hsplit ▸ strict_inOrder hkeys)]

/-- **A walk finds every row once, in order**, exactly when every row can be read and lies
behind the start. -/
theorem Query.exact_iff (h : Query key rows limit read page cursorOf start behind)
    (hlimit : 0 < limit) :
    Exact page cursorOf read (inOrder key rows) ↔
      (∀ row ∈ rows, ∃ b, read row = .ok b) ∧ ∀ row ∈ rows, start row = true := by
  have hread : (∃ out, (inOrder key rows).mapM read = .ok out) ↔
      ∀ row ∈ rows, ∃ b, read row = .ok b := by
    rw [exists_mapM_iff]
    exact forall_congr' fun row => by rw [mem_inOrder]
  constructor
  · rintro ⟨pages, hwalk, hall⟩
    refine ⟨hread.1 ⟨_, hall⟩, ?_⟩
    -- both lists are read as the same pages, so none of the rows is missing
    have hfound := h.paged.read_of_walk hlimit (List.nil_append _).symm h.paged.first hwalk
    have hlength := (mapM_eq_ok_iff.1 hfound).length_eq.trans (mapM_eq_ok_iff.1 hall).length_eq.symm
    exact List.length_filter_eq_length_iff.1 ((perm_inOrder key _).length_eq.symm.trans
      (hlength.trans (perm_inOrder key rows).length_eq))
  · rintro ⟨hrows, hstart⟩
    have hsame : rows.filter start = rows := List.filter_eq_self.2 hstart
    have hpaged := h.paged
    rw [hsame] at hpaged
    exact (hpaged.exact_iff_exists hlimit).2 (hread.2 hrows)

end Order

end Keyset

end Altior.Lib
