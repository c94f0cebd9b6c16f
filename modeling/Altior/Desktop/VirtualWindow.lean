import Mathlib.Algebra.BigOperators.Group.List.Basic
import Mathlib.Algebra.Ring.Int.Defs
import Mathlib.Data.List.Induction
import Mathlib.Order.Lattice

/-!
# The rows a viewport renders

The timeline renders the rows around the viewport and pads the rest
(`apps/desktop/src/features/timeline/virtualWindow.ts`).  The index of row offsets is a
list of prefix sums that is kept up to date, and a row is found in it by binary search.
Pixels are integers; row numbers are far below where `>>` would wrap.
-/

namespace Altior.Desktop

/-- `offsets[i]` is the top of row `i`, `offsets[count]` the total. -/
structure HeightIndex where
  offsets : List Int
  count : Nat
  total : Int
deriving DecidableEq

structure VirtualWindow where
  startIndex : Nat
  endIndex : Int
  padTop : Int
  padBottom : Int
deriving DecidableEq

def buildHeightIndex (count : Nat) (heightOf : Nat → Int) : Except String HeightIndex := do
  let offsets ← (List.range count).foldlM (fun offsets index =>
    if 0 < heightOf index then .ok (offsets ++ [offsets.getD index 0 + heightOf index])
    else .error ("row " ++ toString index ++ " has a non-positive height: " ++
      toString (heightOf index))) [0]
  pure ⟨offsets, count, offsets.getD count 0⟩

namespace HeightIndex

def appendRowHeight (index : HeightIndex) (height : Int) : Except String HeightIndex :=
  if 0 < height then
    let offsets := index.offsets ++ [index.total + height]
    .ok ⟨offsets, index.count + 1, offsets.getLast?.getD (index.total + height)⟩
  else .error ("row has a non-positive height: " ++ toString height)

def adjustRowHeight (index : HeightIndex) (rowIndex delta : Int) : HeightIndex :=
  if delta = 0 ∨ rowIndex < 0 ∨ index.count ≤ rowIndex then index
  else
    let offsets := index.offsets.mapIdx fun i offset =>
      if rowIndex < i ∧ i ≤ index.count then offset + delta else offset
    ⟨offsets, index.count, offsets[index.count]?.getD (index.total + delta)⟩

/-- The binary search for the last offset that is not above `clamped`. -/
def search (index : HeightIndex) (clamped : Int) (low high : Nat) : Nat :=
  if low < high then
    let mid := (low + high + 1) / 2
    if index.offsets.getD mid 0 ≤ clamped then search index clamped mid high
    else search index clamped low (mid - 1)
  else low
termination_by high - low

def rowAtOffset (index : HeightIndex) (offset : Int) : Nat :=
  if index.count = 0 then 0
  else
    let clamped := max 0 (min offset index.total)
    min (index.search clamped 0 index.count) (index.count - 1)

def clampedTop (index : HeightIndex) (scrollTop : Int) : Int := max 0 (min scrollTop index.total)

def windowFor (index : HeightIndex) (scrollTop viewportHeight : Int) (overscan : Nat) :
    Except String VirtualWindow :=
  if index.count = 0 then .ok ⟨0, -1, 0, 0⟩
  else if 0 < viewportHeight then
    let clampedTop := index.clampedTop scrollTop
    let firstVisible := index.rowAtOffset clampedTop
    let lastVisible := index.rowAtOffset (clampedTop + viewportHeight - 1)
    let startIndex := firstVisible - overscan
    let endIndex := min (index.count - 1) (lastVisible + overscan)
    .ok ⟨startIndex, endIndex, index.offsets.getD startIndex 0,
      index.total - index.offsets[endIndex + 1]?.getD index.total⟩
  else .error ("viewport height must be positive: " ++ toString viewportHeight)

/-! ## The index of a list of heights -/

/-- The top of a row. -/
def top (heights : List Int) (row : Nat) : Int := (heights.take row).sum

/-- The index of rows of these heights. -/
def ofHeights (heights : List Int) : HeightIndex where
  offsets := (List.range (heights.length + 1)).map (top heights)
  count := heights.length
  total := heights.sum

section

variable {heights : List Int} {row : Nat}

theorem getElem?_offsets (h : row ≤ heights.length) :
    (ofHeights heights).offsets[row]? = some (top heights row) := by
  simp [ofHeights, Nat.lt_succ_of_le h]

theorem getD_offsets (h : row ≤ heights.length) :
    (ofHeights heights).offsets.getD row 0 = top heights row := by
  rw [List.getD_eq_getElem?_getD, getElem?_offsets h, Option.getD_some]

theorem top_length : top heights heights.length = heights.sum := by
  rw [top, List.take_length]

theorem top_succ (h : row < heights.length) :
    top heights (row + 1) = top heights row + heights.getD row 0 := by
  rw [top, List.take_add_one, List.sum_append, List.getD_eq_getElem?_getD,
    List.getElem?_eq_getElem h, Option.toList_some, List.sum_singleton, Option.getD_some, top]

theorem top_append (h : row ≤ heights.length) (back : List Int) :
    top (heights ++ back) row = top heights row := by
  rw [top, List.take_append_of_le_length h, top]

theorem ofHeights_concat (heights : List Int) (height : Int) :
    ofHeights (heights ++ [height]) =
      ⟨(ofHeights heights).offsets ++ [heights.sum + height], heights.length + 1,
        heights.sum + height⟩ := by
  have hfront : (List.range (heights.length + 1)).map (top (heights ++ [height])) =
      (List.range (heights.length + 1)).map (top heights) := by
    refine List.map_congr_left fun row hrow => top_append ?_ [height]
    exact Nat.le_of_lt_succ (List.mem_range.1 hrow)
  have hlength : (heights ++ [height]).length = heights.length + 1 := by simp
  have hsum : (heights ++ [height]).sum = heights.sum + height := by simp
  have hlast : top (heights ++ [height]) (heights.length + 1) = heights.sum + height := by
    rw [← hlength, top_length, hsum]
  simp only [ofHeights, hlength, hsum]
  rw [List.range_succ, List.map_append, hfront, List.map_singleton, hlast]

/-- The index of positive heights is built. -/
theorem buildHeightIndex_eq (hpos : ∀ h ∈ heights, 0 < h) :
    buildHeightIndex heights.length (fun i => heights.getD i 0) = .ok (ofHeights heights) := by
  have hloop (n : Nat) (hn : n ≤ heights.length) :
      (List.range n).foldlM (fun offsets index =>
        if 0 < heights.getD index 0 then .ok (offsets ++ [offsets.getD index 0 + heights.getD index 0])
        else .error ("row " ++ toString index ++ " has a non-positive height: " ++
          toString (heights.getD index 0))) [0] =
      (.ok ((List.range (n + 1)).map (top heights)) : Except String (List Int)) := by
    induction n with
    | zero => rfl
    | succ n ih =>
      have hheight : 0 < heights.getD n 0 := by
        rw [List.getD_eq_getElem?_getD, List.getElem?_eq_getElem hn, Option.getD_some]
        exact hpos _ (List.getElem_mem hn)
      have hlast : ((List.range (n + 1)).map (top heights)).getD n 0 = top heights n := by simp
      rw [List.range_succ, List.foldlM_append, ih (Nat.le_of_lt hn)]
      simp only [bind, Except.bind, pure, Except.pure, List.foldlM_cons, List.foldlM_nil,
        if_pos hheight, hlast]
      rw [← top_succ hn, List.range_succ (n := n + 1), List.map_append, List.map_singleton]
  unfold buildHeightIndex
  rw [hloop _ (Nat.le_refl _)]
  have hlast := getD_offsets (Nat.le_refl heights.length)
  rw [top_length] at hlast
  change Except.ok _ = _
  rw [Except.ok.injEq, ofHeights, HeightIndex.mk.injEq]
  exact ⟨rfl, rfl, hlast⟩

theorem appendRowHeight_eq {height : Int} (hpos : 0 < height) :
    (ofHeights heights).appendRowHeight height = .ok (ofHeights (heights ++ [height])) := by
  rw [ofHeights_concat, appendRowHeight, if_pos hpos]
  simp [ofHeights]

/-- A height that changes moves the rows below. -/
theorem top_modify {changed : Nat} (delta : Int) (hchanged : changed < heights.length) :
    top (heights.modify changed (· + delta)) row =
      if changed < row then top heights row + delta else top heights row := by
  induction heights generalizing changed row with
  | nil => cases hchanged
  | cons height heights ih =>
    cases row with
    | zero => rfl
    | succ row =>
      cases changed with
      | zero =>
        simp [top]
        omega
      | succ changed =>
        have hrow := @ih row _ (Nat.lt_of_succ_lt_succ hchanged)
        simp only [top, List.modify_succ_cons, List.take_succ_cons, List.sum_cons] at hrow ⊢
        rw [hrow]
        split <;> split <;> omega

theorem adjustRowHeight_eq (rowIndex delta : Int) :
    (ofHeights heights).adjustRowHeight rowIndex delta =
      ofHeights (if rowIndex < 0 then heights else heights.modify rowIndex.toNat (· + delta)) := by
  unfold adjustRowHeight
  by_cases hneg : rowIndex < 0
  · rw [if_pos (.inr (.inl hneg)), if_pos hneg]
  obtain ⟨changed, rfl⟩ := Int.eq_ofNat_of_zero_le (Int.not_lt.1 hneg)
  rw [if_neg hneg, Int.toNat_natCast]
  split
  · rename_i hsame
    have hself : heights.modify changed (· + delta) = heights := by
      refine List.ext_getElem? fun i => ?_
      rw [List.getElem?_modify]
      split
      · rename_i hi
        subst hi
        rcases hsame with rfl | hsame | hout
        · simp
        · exact absurd hsame hneg
        · rw [List.getElem?_eq_none (Int.ofNat_le.1 hout)]
          rfl
      · exact Option.map_id'
    rw [hself]
  · rename_i hmoves
    rw [not_or, not_or, Int.not_le] at hmoves
    have hchanged : changed < heights.length := Int.ofNat_lt.1 hmoves.2.2
    have hoffsets : (ofHeights heights).offsets.mapIdx (fun i offset =>
        if (changed : Int) < i ∧ i ≤ heights.length then offset + delta else offset) =
        (ofHeights (heights.modify changed (· + delta))).offsets := by
      refine List.ext_getElem? fun i => ?_
      rw [List.getElem?_mapIdx]
      by_cases hi : i ≤ heights.length
      · rw [getElem?_offsets hi, getElem?_offsets (by rwa [List.length_modify]),
          top_modify delta hchanged]
        simp [hi]
      · have hout : (List.range (heights.length + 1))[i]? = none := by
          rw [List.getElem?_eq_none_iff, List.length_range]
          omega
        simp [ofHeights, hout]
    have hlast : (ofHeights (heights.modify changed (· + delta))).offsets[heights.length]? =
        some (heights.modify changed (· + delta)).sum := by
      rw [getElem?_offsets (List.length_modify ..).ge, ← top_length, List.length_modify]
    have hcount : (ofHeights heights).count = heights.length := rfl
    simp only [hcount, hoffsets, hlast, Option.getD_some]
    rw [ofHeights, List.length_modify]

/-! ## Runs -/

/-- A change of the heights. -/
inductive Resize
  | append (height : Int)
  | adjust (rowIndex delta : Int)

def resize (index : HeightIndex) : Resize → Except String HeightIndex
  | .append height => index.appendRowHeight height
  | .adjust rowIndex delta => .ok (index.adjustRowHeight rowIndex delta)

/-- What a change does to the heights themselves. -/
def resized (heights : List Int) : Resize → List Int
  | .append height => heights ++ [height]
  | .adjust rowIndex delta =>
    if rowIndex < 0 then heights else heights.modify rowIndex.toNat (· + delta)

theorem resize_eq {change : Resize} (hpos : ∀ h ∈ resized heights change, 0 < h) :
    (ofHeights heights).resize change = .ok (ofHeights (resized heights change)) := by
  cases change with
  | append height => exact appendRowHeight_eq (hpos height (by simp [resized]))
  | adjust rowIndex delta => exact congrArg Except.ok (adjustRowHeight_eq rowIndex delta)

/-- The heights stay positive while they change. -/
def StayPositive : List Int → List Resize → Prop
  | heights, [] => ∀ h ∈ heights, 0 < h
  | heights, change :: changes =>
    (∀ h ∈ heights, 0 < h) ∧ StayPositive (resized heights change) changes

theorem StayPositive.start {changes : List Resize} (h : StayPositive heights changes) :
    ∀ h ∈ heights, 0 < h := by
  cases changes with
  | nil => exact h
  | cons _ _ => exact h.1

theorem foldlM_resize {changes : List Resize} (h : StayPositive heights changes) :
    changes.foldlM resize (ofHeights heights) = .ok (ofHeights (changes.foldl resized heights)) ∧
      ∀ x ∈ changes.foldl resized heights, 0 < x := by
  induction changes generalizing heights with
  | nil => exact ⟨rfl, h⟩
  | cons change changes ih =>
    rw [List.foldlM_cons, resize_eq h.2.start]
    exact ih h.2

/-! ## The row at an offset -/

theorem top_mono (hpos : ∀ h ∈ heights, 0 < h) {i j : Nat} (hij : i ≤ j) (hj : j ≤ heights.length) :
    top heights i ≤ top heights j := by
  induction j with
  | zero => rw [Nat.le_zero.1 hij]
  | succ j ih =>
    rcases Nat.lt_or_eq_of_le hij with hlt | rfl
    · have hheight : 0 < heights.getD j 0 := by
        rw [List.getD_eq_getElem?_getD, List.getElem?_eq_getElem hj, Option.getD_some]
        exact hpos _ (List.getElem_mem hj)
      have := ih (Nat.le_of_lt_succ hlt) (Nat.le_of_lt hj)
      rw [top_succ hj]
      omega
    · exact le_refl _

/-- The search ends at the last top that is not above the offset. -/
theorem search_spec (hpos : ∀ h ∈ heights, 0 < h) {clamped : Int} {low high : Nat}
    (hlh : low ≤ high) (hhigh : high ≤ heights.length) (hlow : top heights low ≤ clamped)
    (habove : ∀ i, high < i → i ≤ heights.length → clamped < top heights i) :
    (ofHeights heights).search clamped low high ≤ heights.length ∧
      top heights ((ofHeights heights).search clamped low high) ≤ clamped ∧
      ∀ i, (ofHeights heights).search clamped low high < i → i ≤ heights.length →
        clamped < top heights i := by
  fun_induction search (ofHeights heights) clamped low high with
  | case1 low high hlt mid hle ih =>
    rw [getD_offsets (by omega)] at hle
    exact ih (by omega) hhigh hle habove
  | case2 low high hlt mid hgt ih =>
    rw [getD_offsets (by omega)] at hgt
    refine ih (by omega) (by omega) hlow fun i hi hlength => ?_
    have := top_mono hpos (show mid ≤ i by omega) hlength
    omega
  | case3 low high hge =>
    obtain rfl : low = high := by omega
    exact ⟨hhigh, hlow, habove⟩

theorem sum_nonneg (hpos : ∀ h ∈ heights, 0 < h) : 0 ≤ heights.sum := by
  rw [← top_length]
  exact top_mono hpos (Nat.zero_le _) (le_refl _)

/-- The row at an offset begins at or above it and, but for the last row, ends below it. -/
theorem rowAtOffset_spec (hpos : ∀ h ∈ heights, 0 < h) (hne : heights ≠ []) (offset : Int) :
    (ofHeights heights).rowAtOffset offset < heights.length ∧
    top heights ((ofHeights heights).rowAtOffset offset) ≤ max 0 offset ∧
    (offset < top heights ((ofHeights heights).rowAtOffset offset + 1) ∨
      (ofHeights heights).rowAtOffset offset + 1 = heights.length) := by
  have hlength : 0 < heights.length := List.length_pos_iff.2 hne
  have hsum := sum_nonneg hpos
  have hcount : (ofHeights heights).count = heights.length := rfl
  have htotal : (ofHeights heights).total = heights.sum := rfl
  unfold rowAtOffset
  rw [if_neg (by omega), hcount, htotal]
  dsimp only
  generalize hclamped : max 0 (min offset heights.sum) = clamped
  have htop : top heights 0 ≤ clamped := by
    rw [show top heights 0 = 0 from rfl]
    omega
  obtain ⟨hle, hbelow, habove⟩ :=
    search_spec hpos (Nat.zero_le heights.length) (le_refl _) htop (fun i hi hi' => by omega)
  generalize (ofHeights heights).search clamped 0 heights.length = found at hle hbelow habove
  refine ⟨by omega, ?_, ?_⟩
  · have := top_mono hpos (show min found (heights.length - 1) ≤ found by omega) hle
    omega
  · by_cases hlast : min found (heights.length - 1) + 1 = heights.length
    · exact .inr hlast
    · left
      have hfound : min found (heights.length - 1) = found := by omega
      have hend := habove (found + 1) (by omega) (by omega)
      have hsumle := top_mono hpos (show found + 1 ≤ heights.length by omega) (le_refl _)
      rw [top_length] at hsumle
      rw [hfound]
      omega

/-! ## The window -/

/-- A range of rows with its padding, in front of a viewport. -/
structure Covers (heights : List Int) (viewTop viewBottom : Int) (w : VirtualWindow) : Prop where
  nonempty : w.startIndex ≤ w.endIndex
  inside : w.endIndex < heights.length
  /-- Every row that intersects the viewport is rendered. -/
  rows : ∀ row, row < heights.length → top heights row < viewBottom →
    viewTop < top heights (row + 1) → w.startIndex ≤ row ∧ row ≤ w.endIndex
  total : w.padTop + ((heights.take (w.endIndex + 1).toNat).drop w.startIndex).sum + w.padBottom =
    heights.sum

/-- The heights of some rows. -/
theorem sum_drop_take {first last : Nat} (h : first ≤ last) :
    ((heights.take last).drop first).sum = top heights last - top heights first := by
  have hsplit := congrArg List.sum (List.take_append_drop first (heights.take last))
  rw [List.sum_append, List.take_take, Nat.min_eq_left h] at hsplit
  rw [top, top]
  omega

theorem windowFor_covers (hpos : ∀ h ∈ heights, 0 < h) (hne : heights ≠ []) (scrollTop : Int)
    {viewportHeight : Int} (hview : 0 < viewportHeight) (overscan : Nat) :
    ∃ w, (ofHeights heights).windowFor scrollTop viewportHeight overscan = .ok w ∧
      Covers heights ((ofHeights heights).clampedTop scrollTop)
        ((ofHeights heights).clampedTop scrollTop + viewportHeight) w := by
  have hlength : 0 < heights.length := List.length_pos_iff.2 hne
  have hcount : (ofHeights heights).count = heights.length := rfl
  have htotal : (ofHeights heights).total = heights.sum := rfl
  unfold windowFor
  rw [if_neg (by omega), if_pos hview, hcount, htotal]
  dsimp only
  have hclamped : 0 ≤ (ofHeights heights).clampedTop scrollTop := le_max_left _ _
  generalize (ofHeights heights).clampedTop scrollTop = viewTop at hclamped ⊢
  obtain ⟨hfirst, hfirstTop, -⟩ := rowAtOffset_spec hpos hne viewTop
  obtain ⟨hlast, -, hlastEnd⟩ := rowAtOffset_spec hpos hne (viewTop + viewportHeight - 1)
  generalize (ofHeights heights).rowAtOffset viewTop = first at hfirst hfirstTop ⊢
  generalize (ofHeights heights).rowAtOffset (viewTop + viewportHeight - 1) = last at hlast hlastEnd ⊢
  -- no row before the first ends below the top, and none after the last begins above the bottom
  have hfrom (row : Nat) (hrow : viewTop < top heights (row + 1)) : first ≤ row := by
    by_contra hlt
    have := top_mono hpos (show row + 1 ≤ first by omega) (by omega)
    omega
  have hto (row : Nat) (hrow : row < heights.length)
      (hbottom : top heights row < viewTop + viewportHeight) : row ≤ last := by
    by_contra hlt
    rcases hlastEnd with hend | hend
    · have := top_mono hpos (show last + 1 ≤ row by omega) (Nat.le_of_lt hrow)
      omega
    · omega
  have hfl : first ≤ last := hto first hfirst (by omega)
  have hend : min (heights.length - 1) (last + overscan) + 1 ≤ heights.length := by omega
  refine ⟨_, rfl, ?_, ?_, ?_, ?_⟩
  · dsimp only
    omega
  · dsimp only
    omega
  · intro row hrow hbottom htop
    have := hfrom row htop
    have := hto row hrow hbottom
    dsimp only
    omega
  · dsimp only
    rw [getD_offsets (by omega), getElem?_offsets hend, Option.getD_some,
      show ((min (heights.length - 1) (last + overscan) : Nat) + 1 : Int).toNat =
        min (heights.length - 1) (last + overscan) + 1 by omega, sum_drop_take (by omega)]
    omega

end

/-- After any changes that keep the heights positive the index is that of the heights; the
row at an offset contains it, and a window renders every row in the viewport and pads the
rest. -/
theorem heightIndex_run {heights : List Int} {changes : List Resize}
    (h : StayPositive heights changes) :
    let final := changes.foldl resized heights
    ∃ start index, buildHeightIndex heights.length (fun i => heights.getD i 0) = .ok start ∧
      changes.foldlM resize start = .ok index ∧
      buildHeightIndex final.length (fun i => final.getD i 0) = .ok index ∧
      (0 < index.count →
        (∀ offset, 0 ≤ offset → offset < index.total →
          index.rowAtOffset offset < final.length ∧
          top final (index.rowAtOffset offset) ≤ offset ∧
          offset < top final (index.rowAtOffset offset + 1)) ∧
        ∀ scrollTop viewportHeight overscan, 0 < viewportHeight →
          ∃ w, index.windowFor scrollTop viewportHeight overscan = .ok w ∧
            Covers final (index.clampedTop scrollTop)
              (index.clampedTop scrollTop + viewportHeight) w) := by
  intro final
  obtain ⟨hrun, hpos⟩ := foldlM_resize h
  refine ⟨_, _, buildHeightIndex_eq h.start, hrun, buildHeightIndex_eq hpos, fun hcount => ?_⟩
  have hne : final ≠ [] := List.length_pos_iff.1 hcount
  refine ⟨fun offset hfrom hto => ?_, fun scrollTop viewportHeight overscan hview =>
    windowFor_covers hpos hne scrollTop hview overscan⟩
  obtain ⟨hrow, htop, hend⟩ := rowAtOffset_spec hpos hne offset
  rw [max_eq_right hfrom] at htop
  refine ⟨hrow, htop, ?_⟩
  rcases hend with hend | hlast
  · exact hend
  · rw [hlast, top_length]
    exact hto

/-- Of two rows the second grows, after a third was added. -/
theorem heightIndex_run_grown : ∃ start index,
    buildHeightIndex 2 (fun i => [10, 20].getD i 0) = .ok start ∧
    [Resize.append 5, .adjust 1 5].foldlM resize start = .ok index ∧
    buildHeightIndex 3 (fun i => [10, 25, 5].getD i 0) = .ok index := by
  obtain ⟨start, index, hstart, hrun, hbuild, -⟩ :=
    @heightIndex_run [10, 20] [.append 5, .adjust 1 5] (by simp [StayPositive, resized])
  exact ⟨start, index, hstart, hrun, hbuild⟩

end HeightIndex

end Altior.Desktop
