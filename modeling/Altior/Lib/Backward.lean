import Mathlib.Data.List.Basic

/-!
# Paging backward

Rows are listed from the newest on, a page at a time, and each reply says where the next
page begins and whether there is more.  What is listed may grow at its new end between
two requests.  A reply may fail, and a walk ends when there is no more to follow.
-/

namespace Altior.Lib

namespace Backward

variable {α β γ ε : Type}

/-- A page with the place behind it. -/
structure Reply (β γ : Type) where
  items : List β
  cursor : Option γ
  more : Bool

/-- A client's walk from a request on: it follows the cursor of a reply as long as there is
one and the reply says that there is more.  `serve k` answers its request number `k`. -/
inductive Walk (serve : Nat → Option γ → Except ε (Reply β γ)) :
    Nat → Option γ → List (List β) → Prop
  | last {k : Nat} {c : Option γ} {reply : Reply β γ} (h : serve k c = .ok reply)
      (hend : reply.more = true → reply.cursor = none) : Walk serve k c [reply.items]
  | more {k : Nat} {c : Option γ} {reply : Reply β γ} {c' : γ} {pages : List (List β)}
      (h : serve k c = .ok reply) (hmore : reply.more = true) (hcursor : reply.cursor = some c')
      (hrest : Walk serve (k + 1) (some c') pages) : Walk serve k c (reply.items :: pages)

/-- The walk ends, and its pages, each put before the ones found earlier, are the rows in
their order.  `rows` has the newest first. -/
def Exact (serve : Nat → Option γ → Except ε (Reply β γ)) (read : α → β) (rows : List α) : Prop :=
  ∃ pages, Walk serve 0 none pages ∧ pages.reverse.flatten = rows.reverse.map read

/-- The page number `k`, the newest row first. -/
def page (rows : List α) (limit k : Nat) : List α := (rows.drop (k * limit)).take limit

/-- The place behind the pages before the one with number `k`. -/
def place (cursorOf : α → γ) (rows : List α) (limit k : Nat) : Option γ :=
  ((rows.take (k * limit)).getLast?).map cursorOf

/-- The request number `k` is made: the page before had rows, and there are more or the
reply says so for another reason. -/
def Asked (rows : List α) (limit : Nat) (other : Nat → Bool) (k : Nat) : Prop :=
  ∀ j, k = j + 1 → j * limit < rows.length ∧ (k * limit < rows.length ∨ other j = true)

/-- What a server of pages does with the requests that are made. `good k` says that request
number `k` can be answered, and `other k` that its reply claims more for another reason than
older rows. -/
structure Serves (serve : Nat → Option γ → Except ε (Reply β γ)) (rows : List α) (limit : Nat)
    (read : α → β) (cursorOf : α → γ) (good : Nat → Prop) (other : Nat → Bool) : Prop where
  answers : ∀ k, Asked rows limit other k →
    ((∃ reply, serve k (place cursorOf rows limit k) = .ok reply) ↔ good k)
  items : ∀ k reply, Asked rows limit other k →
    serve k (place cursorOf rows limit k) = .ok reply →
    reply.items = (page rows limit k).reverse.map read
  cursor : ∀ k reply, Asked rows limit other k →
    serve k (place cursorOf rows limit k) = .ok reply →
    reply.cursor = (page rows limit k).getLast?.map cursorOf
  more : ∀ k reply, Asked rows limit other k → serve k (place cursorOf rows limit k) = .ok reply →
    k * limit < rows.length →
    (reply.more = true ↔ (k + 1) * limit < rows.length ∨ other k = true)

variable {k : Nat}

section

variable {rows : List α} {limit : Nat} {other : Nat → Bool} {cursorOf : α → γ}

theorem asked_zero : Asked rows limit other 0 := fun _ h => absurd h.symm (Nat.succ_ne_zero _)

theorem asked_succ_iff : Asked rows limit other (k + 1) ↔
    k * limit < rows.length ∧ ((k + 1) * limit < rows.length ∨ other k = true) := by
  constructor
  · exact fun h => h k rfl
  · intro h j hj
    cases hj
    exact h

/-- The requests are made one after the other. -/
theorem Asked.pred (h : Asked rows limit other (k + 1)) : Asked rows limit other k := by
  cases k with
  | zero => exact asked_zero
  | succ k =>
    have hlt := (asked_succ_iff.1 h).1
    have hle : k * limit ≤ (k + 1) * limit := Nat.mul_le_mul_right _ (Nat.le_succ k)
    exact asked_succ_iff.2 ⟨Nat.lt_of_le_of_lt hle hlt, .inl hlt⟩

theorem Asked.mono {m : Nat} (h : Asked rows limit other m) (hle : k ≤ m) :
    Asked rows limit other k := by
  induction hle with
  | refl => exact h
  | step _ ih => exact ih h.pred

theorem page_eq_nil_iff (hlimit : 0 < limit) :
    page rows limit k = [] ↔ rows.length ≤ k * limit := by
  unfold page
  rw [List.take_eq_nil_iff, List.drop_eq_nil_iff]
  constructor
  · rintro (hzero | hle)
    · omega
    · exact hle
  · exact .inr

/-- A page and what is older. -/
theorem page_append (k : Nat) :
    page rows limit k ++ rows.drop ((k + 1) * limit) = rows.drop (k * limit) := by
  unfold page
  rw [Nat.succ_mul, ← List.drop_drop, List.take_append_drop]

theorem place_zero : place cursorOf rows limit 0 = none := by
  unfold place
  rw [Nat.zero_mul, List.take_zero]
  rfl

/-- The place behind a page with rows is behind its oldest one. -/
theorem place_succ (hne : page rows limit k ≠ []) :
    place cursorOf rows limit (k + 1) = (page rows limit k).getLast?.map cursorOf := by
  have hsplit : rows.take ((k + 1) * limit) = rows.take (k * limit) ++ page rows limit k := by
    unfold page
    rw [Nat.succ_mul, List.take_add]
  unfold place
  rw [hsplit, List.getLast?_append_of_ne_nil _ hne]

end

/-! ## Walks of a server -/

namespace Serves

variable {serve : Nat → Option γ → Except ε (Reply β γ)} {rows : List α} {limit : Nat}
  {read : α → β} {cursorOf : α → γ} {good : Nat → Prop} {other : Nat → Bool}

/-- A reply is followed exactly when the next request is made. -/
theorem followed_iff (h : Serves serve rows limit read cursorOf good other) (hlimit : 0 < limit)
    {reply : Reply β γ} (hk : Asked rows limit other k)
    (hreply : serve k (place cursorOf rows limit k) = .ok reply) :
    (reply.more = true ∧ reply.cursor ≠ none) ↔ Asked rows limit other (k + 1) := by
  rw [asked_succ_iff, h.cursor k reply hk hreply]
  by_cases hlt : k * limit < rows.length
  · have hne : (page rows limit k).getLast?.map cursorOf ≠ none := by
      rw [ne_eq, Option.map_eq_none_iff, List.getLast?_eq_none_iff, page_eq_nil_iff hlimit]
      omega
    rw [h.more k reply hk hreply hlt]
    exact ⟨fun h => ⟨hlt, h.1⟩, fun h => ⟨h.2, hne⟩⟩
  · have hnil : page rows limit k = [] := (page_eq_nil_iff hlimit).2 (by omega)
    rw [hnil]
    exact ⟨fun h => absurd rfl h.2, fun h => absurd h.1 hlt⟩

/-- The next place after a reply that is followed. -/
theorem cursor_eq (h : Serves serve rows limit read cursorOf good other) (hlimit : 0 < limit)
    {reply : Reply β γ} (hreply : serve k (place cursorOf rows limit k) = .ok reply)
    (hasked : Asked rows limit other (k + 1)) :
    reply.cursor = place cursorOf rows limit (k + 1) := by
  have hlt := (asked_succ_iff.1 hasked).1
  rw [h.cursor k reply hasked.pred hreply, place_succ fun hnil => ?_]
  rw [page_eq_nil_iff hlimit] at hnil
  omega

/-- A request that is not made finds nothing that is missing. -/
theorem drop_eq_nil (hasked : ¬ Asked rows limit other (k + 1)) :
    rows.drop ((k + 1) * limit) = [] := by
  rw [List.drop_eq_nil_iff]
  by_contra hlt
  have hle : k * limit ≤ (k + 1) * limit := Nat.mul_le_mul_right _ (Nat.le_succ k)
  exact hasked (asked_succ_iff.2 ⟨by omega, .inl (by omega)⟩)

/-- The pages of a walk hold what is not newer than its first place. -/
theorem flatten_of_walk (h : Serves serve rows limit read cursorOf good other)
    (hlimit : 0 < limit) {c : Option γ} {pages : List (List β)} (hwalk : Walk serve k c pages)
    (hk : Asked rows limit other k) (hplace : c = place cursorOf rows limit k) :
    pages.reverse.flatten = (rows.drop (k * limit)).reverse.map read := by
  induction hwalk with
  | @last k c reply hreply hend =>
    subst hplace
    have hasked : ¬ Asked rows limit other (k + 1) := fun hasked => by
      obtain ⟨hmore, hcursor⟩ := (h.followed_iff hlimit hk hreply).2 hasked
      exact hcursor (hend hmore)
    have hpage : page rows limit k ++ rows.drop ((k + 1) * limit) = rows.drop (k * limit) :=
      page_append k
    rw [drop_eq_nil hasked, List.append_nil] at hpage
    rw [h.items k reply hk hreply, hpage, List.reverse_singleton, List.flatten_singleton]
  | @more k c reply c' pages hreply hmore hcursor _ ih =>
    subst hplace
    have hasked := (h.followed_iff hlimit hk hreply).1 ⟨hmore, by rw [hcursor]; exact nofun⟩
    have hrest := ih hasked (hcursor.symm.trans (h.cursor_eq hlimit hreply hasked))
    rw [List.reverse_cons, List.flatten_append, hrest, List.flatten_singleton,
      h.items k reply hk hreply, ← List.map_append, ← List.reverse_append, page_append]

/-- There is a walk from a place on exactly when every request on the way is answered. -/
theorem exists_walk_iff (h : Serves serve rows limit read cursorOf good other)
    (hlimit : 0 < limit) (hk : Asked rows limit other k) :
    (∃ pages, Walk serve k (place cursorOf rows limit k) pages) ↔
      ∀ m, k ≤ m → Asked rows limit other m → good m := by
  constructor
  · rintro ⟨pages, hwalk⟩
    generalize hplace : place cursorOf rows limit k = c at hwalk
    induction hwalk with
    | @last k c reply hreply hend =>
      subst hplace
      intro m hm hasked
      rcases Nat.eq_or_lt_of_le hm with rfl | hlt
      · exact (h.answers k hk).1 ⟨reply, hreply⟩
      · obtain ⟨hmore, hcursor⟩ := (h.followed_iff hlimit hk hreply).2 (hasked.mono hlt)
        exact absurd (hend hmore) hcursor
    | @more k c reply c' pages hreply hmore hcursor _ ih =>
      subst hplace
      intro m hm hasked
      rcases Nat.eq_or_lt_of_le hm with rfl | hlt
      · exact (h.answers k hk).1 ⟨reply, hreply⟩
      · have hnext := (h.followed_iff hlimit hk hreply).1 ⟨hmore, by rw [hcursor]; exact nofun⟩
        exact ih hnext ((h.cursor_eq hlimit hreply hnext).symm.trans hcursor) m hlt hasked
  · intro hgood
    -- every page with rows brings the end of the rows nearer
    induction hleft : rows.length - k * limit using Nat.strongRecOn generalizing k with
    | ind left ih =>
      obtain ⟨reply, hreply⟩ := (h.answers k hk).2 (hgood k (Nat.le_refl k) hk)
      by_cases hasked : Asked rows limit other (k + 1)
      · have hlt := (asked_succ_iff.1 hasked).1
        have hshorter : rows.length - (k + 1) * limit < left := by
          rw [Nat.succ_mul]
          omega
        obtain ⟨pages, hwalk⟩ := ih _ hshorter hasked
          (fun m hm => hgood m (Nat.le_of_succ_le hm)) rfl
        obtain ⟨hmore, hcursor⟩ := (h.followed_iff hlimit hk hreply).2 hasked
        obtain ⟨c', hc'⟩ := Option.ne_none_iff_exists'.1 hcursor
        rw [← h.cursor_eq hlimit hreply hasked, hc'] at hwalk
        exact ⟨_, .more hreply hmore hc' hwalk⟩
      · refine ⟨_, .last hreply fun hmore => ?_⟩
        by_contra hcursor
        exact hasked ((h.followed_iff hlimit hk hreply).1 ⟨hmore, hcursor⟩)

/-- **A backward walk finds every row once, in order**, exactly when every request it makes
is answered. -/
theorem exact_iff (h : Serves serve rows limit read cursorOf good other) (hlimit : 0 < limit) :
    Exact serve read rows ↔ ∀ k, Asked rows limit other k → good k := by
  have hwalks := h.exists_walk_iff hlimit (k := 0) asked_zero
  rw [place_zero] at hwalks
  constructor
  · rintro ⟨pages, hwalk, -⟩ k hk
    exact hwalks.1 ⟨pages, hwalk⟩ k (Nat.zero_le k) hk
  · intro hgood
    obtain ⟨pages, hwalk⟩ := hwalks.2 fun k _ hk => hgood k hk
    have hflatten := h.flatten_of_walk hlimit hwalk asked_zero place_zero.symm
    rw [Nat.zero_mul, List.drop_zero] at hflatten
    exact ⟨pages, hwalk, hflatten⟩

end Serves

end Backward

end Altior.Lib
