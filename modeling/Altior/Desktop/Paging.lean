import Altior.Desktop.History

/-!
# A history in pages

The journal of a thread is loaded page by page, the newest first, and each page is
reduced by itself (`apps/desktop/src/stores/applicationStore.ts`).  What is shown is
what the whole journal reduces to as long as no page needs what is on another.
-/

namespace Altior.Desktop

open Lib

/-- A turn without its content. -/
structure TurnSummary where
  id : String
  state : String
deriving DecidableEq, Repr

/-- A page of the history.  No entries and no list of entries are the same. -/
structure ThreadHistoryResponse where
  entries : List HistoryEntry
  turns : List TurnSummary
  nextSeqCursor : Option Nat
  hasMore : Bool

namespace TimelineStore

/-- The row of a turn of which nothing else is known. -/
def turnRow (turn : TurnSummary) : TimelineRow :=
  ⟨turn.id, .assistantMessage, "Turn " ++ turn.id, none, turn.state = "active"⟩

/-- Takes a page into the timeline. -/
def loadHistory (t : TimelineStore) (beforeSeq : Option Nat) (hist : ThreadHistoryResponse) :
    TimelineStore :=
  if hist.entries.isEmpty then (hist.turns.map turnRow).foldl appendMissing t
  else if beforeSeq.isSome then t.prependRows (reduceHistoryEntries hist.entries)
  else (reduceHistoryEntries hist.entries).foldl appendMissing t

end TimelineStore

/-- Where the history of a thread goes on. -/
structure HistoryCursorInfo where
  nextSeqCursor : Option Nat
  hasMore : Bool
deriving DecidableEq, Repr

/-- A thread as it is shown. -/
structure ThreadView where
  timeline : TimelineStore
  cursor : Option HistoryCursorInfo

namespace ThreadView

def new : ThreadView := ⟨.empty, none⟩

/-- `getHistory` with what Core answers, if it does. -/
def getHistory (v : ThreadView) (beforeSeq : Option Nat) : Option ThreadHistoryResponse → ThreadView
  | none => v
  | some hist => ⟨v.timeline.loadHistory beforeSeq hist, some ⟨hist.nextSeqCursor, hist.hasMore⟩⟩

/-- `loadOlderHistory` with what Core answers to the request, if one is made. -/
def loadOlderHistory (v : ThreadView) (answer : Nat → Option ThreadHistoryResponse) : ThreadView :=
  match v.cursor with
  | some ⟨some seq, true⟩ => v.getHistory (some seq) (answer seq)
  | _ => v

end ThreadView

/-- A page has entries. -/
abbrev Page := { entries : List HistoryEntry // entries ≠ [] }

/-- A page as Core answers it.  `place` has its place in the journal, and `more` says
whether there are older entries. -/
def pageResponse (turns : List TurnSummary) (place : List HistoryEntry → Nat) (more : Bool)
    (entries : List HistoryEntry) : ThreadHistoryResponse :=
  ⟨entries, turns, if more then some (place entries) else none, more⟩

/-- A thread after all its pages were loaded, the last one first. -/
def loadAll (turns : List TurnSummary) (place : List HistoryEntry → Nat) (more : Bool) :
    List Page → ThreadView
  | [] => ThreadView.new.getHistory none (some (pageResponse turns place more []))
  | [page] => ThreadView.new.getHistory none (some (pageResponse turns place more page.1))
  | page :: next :: later =>
    (loadAll turns place true (next :: later)).loadOlderHistory fun _ =>
      some (pageResponse turns place more page.1)

/-- The entries on all pages. -/
def allEntries (pages : List Page) : List HistoryEntry := pages.flatMap Subtype.val

theorem allEntries_cons (page : Page) (later : List Page) :
    allEntries (page :: later) = page.1 ++ allEntries later := List.flatMap_cons

/-! ## When pages are shown as the whole -/

/-- The name of the row that an entry has a part in, but for decisions. -/
def HistoryEntry.rowId : HistoryEntry → Option String
  | .userMessage eventId .. => some eventId
  | .assistantDelta _ turnId _ => some turnId
  | .permission eventId .. => some eventId
  | .permissionDecision .. => none
  | .turnState eventId _ state _ => if state = "failed" then some ("fail-" ++ eventId) else none
  | .unknown eventId .. => some eventId

/-- The names of the rows of entries, each turn of which there are deltas once. -/
def rowIds (seen : List String) : List HistoryEntry → List String
  | [] => []
  | e :: rest => (if e.starts seen then e.rowId.toList else []) ++ rowIds (e.see seen) rest

/-- The turns of which there are deltas. -/
def deltaTurns (entries : List HistoryEntry) : List String := entries.filterMap HistoryEntry.deltaTurn

/-- No page has deltas of a turn that has deltas on a later one, and no later page says
something else about a request than what is said at the end of its page. -/
def Seamless : List Page → Prop
  | [] => True
  | page :: later =>
    (∀ turnId ∈ deltaTurns page.1, turnId ∉ deltaTurns (allEntries later)) ∧
      (∀ before id turnId kind description decision rest,
        page.1 = before ++ .permission id turnId kind description decision :: rest →
        decided id (knownDecision decision) (rest ++ allEntries later) =
          decided id (knownDecision decision) rest) ∧
      Seamless later

/-! ## Names of rows -/

variable {turnId : String}

section Names

theorem HistoryEntry.id_row {e : HistoryEntry} {rest : List HistoryEntry} :
    (e.row rest).map TimelineRow.id = e.rowId := by
  cases e with
  | turnState eventId turnId state reason =>
    simp only [row, rowId]
    split <;> rfl
  | _ => rfl

theorem ids_rowsOf (seen : List String) (entries : List HistoryEntry) :
    (rowsOf seen entries).map TimelineRow.id = rowIds seen entries := by
  induction entries generalizing seen with
  | nil => rfl
  | cons e rest ih =>
    rw [rowsOf, rowIds, List.map_append, ih, ← @HistoryEntry.id_row e rest]
    congr 1
    split
    · cases e.row rest <;> rfl
    · rfl

variable {entries : List HistoryEntry} {seen : List String}

/-- Every turn with deltas has a row. -/
theorem mem_rowIds_of_mem_deltaTurns (hturn : turnId ∈ deltaTurns entries) (hnew : turnId ∉ seen) :
    turnId ∈ rowIds seen entries := by
  induction entries generalizing seen with
  | nil => cases hturn
  | cons e rest ih =>
    rw [rowIds, List.mem_append]
    by_cases he : e.deltaTurn = some turnId
    · left
      cases e with
      | assistantDelta eventId t text =>
        cases he
        rw [if_pos]
        · exact List.mem_singleton.2 rfl
        · simp [HistoryEntry.starts, HistoryEntry.deltaTurn, hnew]
      | _ => cases he
    · right
      refine ih ?_ ?_
      · rw [deltaTurns, List.mem_filterMap] at hturn ⊢
        obtain ⟨e', he', hsome⟩ := hturn
        rcases List.mem_cons.1 he' with rfl | hmem
        · exact absurd hsome he
        · exact ⟨e', hmem, hsome⟩
      · rw [HistoryEntry.see]
        split
        · rw [List.mem_append, Option.mem_toList, not_or]
          exact ⟨he, hnew⟩
        · exact hnew

/-- Only which turns were seen matters, and only of those that have deltas. -/
theorem rowsOf_congr {seen' : List String}
    (hsame : ∀ turnId ∈ deltaTurns entries, turnId ∈ seen ↔ turnId ∈ seen') :
    rowsOf seen entries = rowsOf seen' entries := by
  induction entries generalizing seen seen' with
  | nil => rfl
  | cons e rest ih =>
    cases hdelta : e.deltaTurn with
    | none =>
      have hskip (seen : List String) : e.starts seen = true ∧ e.see seen = seen := by
        simp [HistoryEntry.starts, HistoryEntry.see, hdelta]
      rw [rowsOf, rowsOf, (hskip seen).1, (hskip seen').1, (hskip seen).2, (hskip seen').2, ih]
      intro t ht
      refine hsame t ?_
      rwa [deltaTurns, List.filterMap_cons_none hdelta]
    | some turnId =>
      have hturns : deltaTurns (e :: rest) = turnId :: deltaTurns rest :=
        List.filterMap_cons_some hdelta
      rw [hturns] at hsame
      have hself := hsame turnId List.mem_cons_self
      have hstarts : e.starts seen = e.starts seen' := by
        simp [HistoryEntry.starts, hdelta, hself]
      rw [rowsOf, rowsOf, hstarts, ih]
      intro t ht
      have hold := hsame t (List.mem_cons_of_mem _ ht)
      rw [HistoryEntry.see, HistoryEntry.see, hstarts]
      split
      · rw [List.mem_append, List.mem_append, hold]
      · exact hold

/-- The turns that have a row after entries. -/
def seeAll (seen : List String) (entries : List HistoryEntry) : List String :=
  entries.foldl HistoryEntry.see seen

theorem mem_seeAll :
    turnId ∈ seeAll seen entries ↔ turnId ∈ seen ∨ turnId ∈ deltaTurns entries := by
  induction entries generalizing seen with
  | nil => simp [seeAll, deltaTurns]
  | cons e rest ih =>
    have hsee : turnId ∈ e.see seen ↔ turnId ∈ seen ∨ e.deltaTurn = some turnId := by
      unfold HistoryEntry.see HistoryEntry.starts
      cases hdelta : e.deltaTurn with
      | none => simp
      | some t =>
        by_cases hmem : t ∈ seen
        · simp only [Option.all_some, hmem, not_true_eq_false, decide_false, Bool.false_eq_true,
            if_false, Option.some.injEq]
          exact ⟨.inl, fun hor => hor.elim id fun heq => heq ▸ hmem⟩
        · simp [hmem, or_comm, eq_comm]
    rw [seeAll, List.foldl_cons]
    refine Iff.trans ih ?_
    rw [hsee, or_assoc]
    refine or_congr_right ?_
    simp [deltaTurns, List.mem_filterMap]

/-! ## Rows and what comes later -/

/-- The rows of entries, each with what comes after all of them. -/
def rowsBefore (later : List HistoryEntry) (seen : List String) : List HistoryEntry → List TimelineRow
  | [] => []
  | e :: rest =>
    (if e.starts seen then (e.row (rest ++ later)).toList else []) ++
      rowsBefore later (e.see seen) rest

theorem rowsOf_append (seen : List String) (entries later : List HistoryEntry) :
    rowsOf seen (entries ++ later) =
      rowsBefore later seen entries ++ rowsOf (seeAll seen entries) later := by
  induction entries generalizing seen with
  | nil => rfl
  | cons e rest ih =>
    rw [List.cons_append, rowsOf, ih, rowsBefore, List.append_assoc]
    rfl

/-- Whether an entry has a row does not depend on what comes later. -/
theorem HistoryEntry.length_row (e : HistoryEntry) (rest rest' : List HistoryEntry) :
    (e.row rest).toList.length = (e.row rest').toList.length := by
  cases e with
  | turnState => 
    simp only [row]
  | _ => rfl

theorem length_rowsBefore (later : List HistoryEntry) (seen : List String)
    (entries : List HistoryEntry) :
    (rowsBefore later seen entries).length = (rowsOf seen entries).length := by
  induction entries generalizing seen with
  | nil => rfl
  | cons e rest ih =>
    rw [rowsBefore, rowsOf, List.length_append, List.length_append, ih]
    congr 1
    split
    · exact e.length_row _ _
    · rfl

theorem deltaText_append (turnId : String) (entries later : List HistoryEntry) :
    deltaText turnId (entries ++ later) = deltaText turnId entries ++ deltaText turnId later := by
  induction entries with
  | nil => rw [List.nil_append, deltaText, String.empty_append]
  | cons e rest ih =>
    cases e with
    | assistantDelta eventId t text =>
      rw [List.cons_append, deltaText, deltaText, ih]
      split
      · rw [String.append_assoc]
      · rfl
    | _ => exact ih

theorem deltaText_of_not_mem (h : turnId ∉ deltaTurns entries) : deltaText turnId entries = "" := by
  induction entries with
  | nil => rfl
  | cons e rest ih =>
    have hrest : turnId ∉ deltaTurns rest := by
      intro hmem
      refine h ?_
      rw [deltaTurns, List.mem_filterMap] at hmem ⊢
      obtain ⟨e', he', hsome⟩ := hmem
      exact ⟨e', List.mem_cons_of_mem _ he', hsome⟩
    cases e with
    | assistantDelta eventId t text =>
      rw [deltaText, if_neg]
      · exact ih hrest
      · rintro rfl
        exact h (List.mem_filterMap.2 ⟨_, List.mem_cons_self, rfl⟩)
    | _ => exact ih hrest

/-- What comes later changes the row of a request only, by what it decides. -/
theorem HistoryEntry.row_append_iff {e : HistoryEntry} {rest later : List HistoryEntry}
    (hnew : ∀ turnId ∈ e.deltaTurn, turnId ∉ deltaTurns later) :
    e.row (rest ++ later) = e.row rest ↔ ∀ id turnId kind description decision,
      e = .permission id turnId kind description decision →
        decided id (knownDecision decision) (rest ++ later) =
          decided id (knownDecision decision) rest := by
  cases e with
  | permission eventId turnId kind description decision =>
    simp only [row, permissionRow, Option.some.injEq, TimelineRow.mk.injEq, true_and, and_true,
      PermissionRequest.mk.injEq]
    constructor
    · rintro h _ _ _ _ _ ⟨⟩
      exact h
    · exact fun h => h _ _ _ _ _ rfl
  | assistantDelta eventId turnId text =>
    refine iff_of_true ?_ (by rintro _ _ _ _ _ ⟨⟩)
    rw [row, row, deltaText_append, deltaText_of_not_mem (hnew turnId rfl), String.append_empty]
  | userMessage | permissionDecision | turnState | unknown =>
    exact iff_of_true rfl (by rintro _ _ _ _ _ ⟨⟩)

/-- Entries have the rows they have alone iff nothing else is decided later. -/
theorem rowsBefore_eq_iff {later : List HistoryEntry}
    (hnew : ∀ turnId ∈ deltaTurns entries, turnId ∉ deltaTurns later) :
    rowsBefore later seen entries = rowsOf seen entries ↔
      ∀ before id turnId kind description decision rest,
        entries = before ++ .permission id turnId kind description decision :: rest →
          decided id (knownDecision decision) (rest ++ later) =
            decided id (knownDecision decision) rest := by
  induction entries generalizing seen with
  | nil =>
    refine iff_of_true rfl fun before _ _ _ _ _ _ h => ?_
    cases before <;> cases h
  | cons e rest ih =>
    have hhead : ∀ turnId ∈ e.deltaTurn, turnId ∉ deltaTurns later := fun turnId hturn =>
      hnew turnId (List.mem_filterMap.2 ⟨e, List.mem_cons_self, hturn⟩)
    have htail : ∀ turnId ∈ deltaTurns rest, turnId ∉ deltaTurns later := by
      intro turnId hturn
      obtain ⟨e', he', hsome⟩ := List.mem_filterMap.1 hturn
      exact hnew turnId (List.mem_filterMap.2 ⟨e', List.mem_cons_of_mem _ he', hsome⟩)
    have hrow : (if e.starts seen then (e.row (rest ++ later)).toList else []) =
        (if e.starts seen then (e.row rest).toList else []) ↔
        ∀ id turnId kind description decision,
          e = .permission id turnId kind description decision →
            decided id (knownDecision decision) (rest ++ later) =
              decided id (knownDecision decision) rest := by
      rw [← HistoryEntry.row_append_iff hhead]
      by_cases hstarts : e.starts seen
      · rw [if_pos hstarts, if_pos hstarts]
        exact ⟨fun heq => by simpa using congrArg List.head? heq, congrArg Option.toList⟩
      · rw [if_neg hstarts, if_neg hstarts]
        refine iff_of_true rfl ((HistoryEntry.row_append_iff hhead).2 ?_)
        rintro _ _ _ _ _ rfl
        exact absurd rfl hstarts
    have hlength : (if e.starts seen then (e.row (rest ++ later)).toList else []).length =
        (if e.starts seen then (e.row rest).toList else []).length := by
      split
      · exact e.length_row _ _
      · rfl
    have hsplit : rowsBefore later seen (e :: rest) = rowsOf seen (e :: rest) ↔
        _ ∧ rowsBefore later (e.see seen) rest = rowsOf (e.see seen) rest :=
      ⟨fun heq => List.append_inj heq hlength, fun h => congrArg₂ (· ++ ·) h.1 h.2⟩
    rw [hsplit, hrow, ih htail]
    constructor
    · rintro ⟨hfirst, hrest⟩ before id turnId kind description decision after heq
      cases before with
      | nil =>
        cases heq
        exact hfirst _ _ _ _ _ rfl
      | cons e' before =>
        cases heq
        exact hrest _ _ _ _ _ _ _ rfl
    · intro h
      refine ⟨fun id turnId kind description decision heq => ?_, ?_⟩
      · exact h [] _ _ _ _ _ _ (by rw [heq, List.nil_append])
      · rintro before id turnId kind description decision after rfl
        exact h (e :: before) _ _ _ _ _ _ rfl

end Names

/-! ## What is shown -/

section Shown

variable {turns : List TurnSummary} {place : List HistoryEntry → Nat} {more : Bool}

/-- After a page, the cursor says whether there are older ones. -/
theorem cursor_loadAll (page : Page) (later : List Page) :
    (loadAll turns place more (page :: later)).cursor =
      some ⟨if more then some (place page.1) else none, more⟩ := by
  induction later generalizing page more with
  | nil => rfl
  | cons next later ih =>
    rw [loadAll, ThreadView.loadOlderHistory, ih]
    rfl

/-- The rows of a page come before those of the later ones. -/
theorem rows_loadAll_cons (page next : Page) (later : List Page) :
    (loadAll turns place more (page :: next :: later)).timeline.rows =
      rowsOf [] page.1 ++ (loadAll turns place true (next :: later)).timeline.rows := by
  have hpage : (pageResponse turns place more page.1).entries.isEmpty = false :=
    List.isEmpty_eq_false_iff.2 page.2
  rw [loadAll, ThreadView.loadOlderHistory, cursor_loadAll]
  simp only [if_true, ThreadView.getHistory, TimelineStore.loadHistory, hpage, Option.isSome_some]
  rw [if_neg Bool.false_ne_true, TimelineStore.rows_prependRows, reduceHistoryEntries_eq]
  rfl

theorem timeline_loadAll_last (page : Page) :
    (loadAll turns place more [page]).timeline =
      (rowsOf [] page.1).foldl TimelineStore.appendMissing .empty := by
  have hpage : (pageResponse turns place more page.1).entries.isEmpty = false :=
    List.isEmpty_eq_false_iff.2 page.2
  simp only [loadAll, ThreadView.getHistory, TimelineStore.loadHistory, hpage]
  rw [if_neg Bool.false_ne_true, reduceHistoryEntries_eq]
  rfl

/-- Every turn with deltas is shown. -/
theorem mem_ids_loadAll {page : Page} {later : List Page}
    (hturn : turnId ∈ deltaTurns (allEntries (page :: later))) :
    turnId ∈ (loadAll turns place more (page :: later)).timeline.ids := by
  induction later generalizing page more with
  | nil =>
    rw [timeline_loadAll_last, TimelineStore.indexed_empty.mem_ids_foldl_appendMissing, ids_rowsOf]
    refine .inr (mem_rowIds_of_mem_deltaTurns ?_ List.not_mem_nil)
    simpa [allEntries] using hturn
  | cons next later ih =>
    rw [TimelineStore.ids, rows_loadAll_cons, List.map_append, List.mem_append, ids_rowsOf]
    rw [allEntries_cons, deltaTurns, List.filterMap_append, List.mem_append] at hturn
    refine hturn.imp (fun hpage => ?_) ih
    exact mem_rowIds_of_mem_deltaTurns hpage List.not_mem_nil

/-- What is shown as the whole was cut without a seam. -/
theorem seamless_of_rows {page : Page} {later : List Page}
    (hrows : (loadAll turns place more (page :: later)).timeline.rows =
      rowsOf [] (allEntries (page :: later)))
    (hids : (loadAll turns place more (page :: later)).timeline.ids.Nodup) :
    Seamless (page :: later) := by
  induction later generalizing page more with
  | nil =>
    refine ⟨fun _ _ => List.not_mem_nil, fun _ _ _ _ _ _ rest _ => ?_, trivial⟩
    rw [allEntries, List.flatMap_nil, List.append_nil]
  | cons next later ih =>
    rw [rows_loadAll_cons, allEntries_cons, rowsOf_append] at hrows
    obtain ⟨hpage, hlater⟩ := List.append_inj hrows (length_rowsBefore _ _ _).symm
    rw [TimelineStore.ids, rows_loadAll_cons, List.map_append, List.nodup_append', ids_rowsOf] at hids
    obtain ⟨-, hnodup, hapart⟩ := hids
    have hnew : ∀ turnId ∈ deltaTurns page.1, turnId ∉ deltaTurns (allEntries (next :: later)) :=
      fun turnId hturn hagain => hapart
        (mem_rowIds_of_mem_deltaTurns hturn List.not_mem_nil) (mem_ids_loadAll hagain)
    refine ⟨hnew, (rowsBefore_eq_iff hnew).1 hpage.symm, ih ?_ hnodup⟩
    rw [hlater]
    refine rowsOf_congr fun turnId hturn => ?_
    refine iff_of_false (fun hseen => ?_) List.not_mem_nil
    exact hnew turnId ((mem_seeAll.1 hseen).resolve_left List.not_mem_nil) hturn

/-- What was cut without a seam is shown as the whole. -/
theorem rows_of_seamless {page : Page} {later : List Page} (h : Seamless (page :: later))
    (hids : (rowIds [] (allEntries (page :: later))).Nodup) :
    (loadAll turns place more (page :: later)).timeline.rows =
      rowsOf [] (allEntries (page :: later)) := by
  induction later generalizing page more with
  | nil =>
    rw [allEntries_cons, allEntries, List.flatMap_nil, List.append_nil] at hids ⊢
    rw [timeline_loadAll_last, TimelineStore.indexed_empty.rows_foldl_appendMissing]
    · rfl
    · rwa [ids_rowsOf]
    · exact fun _ _ => List.not_mem_nil
  | cons next later ih =>
    obtain ⟨hnew, hdecided, hlater⟩ := h
    have hseen : rowsOf (seeAll [] page.1) (allEntries (next :: later)) =
        rowsOf [] (allEntries (next :: later)) := by
      refine rowsOf_congr fun turnId hturn => iff_of_false (fun hseen => ?_) List.not_mem_nil
      exact hnew turnId ((mem_seeAll.1 hseen).resolve_left List.not_mem_nil) hturn
    have hwhole : rowsOf [] (allEntries (page :: next :: later)) =
        rowsOf [] page.1 ++ rowsOf [] (allEntries (next :: later)) := by
      rw [allEntries_cons, rowsOf_append, (rowsBefore_eq_iff hnew).2 hdecided]
      exact congrArg _ hseen
    rw [rows_loadAll_cons, hwhole, ih hlater]
    rw [← ids_rowsOf, hwhole, List.map_append, List.nodup_append'] at hids
    rw [← ids_rowsOf]
    exact hids.2.1

end Shown

/-- **History in pages.** Loading all pages of a journal shows the rows of the whole,
each under a name of its own, if and only if the rows of the whole have names of their
own, the pages are cut without a seam, and no turns are told of a journal without
entries. -/
theorem rows_loadAll_iff (turns : List TurnSummary) (place : List HistoryEntry → Nat)
    (pages : List Page) :
    ((loadAll turns place false pages).timeline.rows = reduceHistoryEntries (allEntries pages) ∧
        (loadAll turns place false pages).timeline.ids.Nodup) ↔
      (rowIds [] (allEntries pages)).Nodup ∧ Seamless pages ∧ (pages = [] → turns = []) := by
  rw [reduceHistoryEntries_eq]
  cases pages with
  | nil =>
    have hrows : (loadAll turns place false []).timeline =
        (turns.map TimelineStore.turnRow).foldl TimelineStore.appendMissing .empty := rfl
    constructor
    · rintro ⟨hnone, -⟩
      refine ⟨List.nodup_nil, trivial, fun _ => List.eq_nil_iff_forall_not_mem.2 fun turn hturn => ?_⟩
      have hid : (TimelineStore.turnRow turn).id ∈ (loadAll turns place false []).timeline.ids := by
        rw [hrows, TimelineStore.indexed_empty.mem_ids_foldl_appendMissing]
        exact .inr (List.mem_map_of_mem (List.mem_map_of_mem hturn))
      rw [TimelineStore.ids, hnone] at hid
      exact absurd hid List.not_mem_nil
    · rintro ⟨-, -, hturns⟩
      rw [hturns rfl]
      exact ⟨rfl, List.nodup_nil⟩
  | cons page later =>
    simp only [reduceCtorEq, false_imp_iff, and_true]
    constructor
    · rintro ⟨hrows, hids⟩
      refine ⟨?_, seamless_of_rows hrows hids⟩
      rw [← ids_rowsOf, ← hrows]
      exact hids
    · rintro ⟨hids, hseamless⟩
      have hrows : (loadAll turns place false (page :: later)).timeline.rows =
          rowsOf [] (allEntries (page :: later)) := rows_of_seamless hseamless hids
      refine ⟨hrows, ?_⟩
      rw [TimelineStore.ids, hrows, ids_rowsOf]
      exact hids

/-- Of a turn that goes over two pages there are two rows. -/
theorem not_rows_loadAll : ¬ ∀ (turns : List TurnSummary) (place : List HistoryEntry → Nat)
    (pages : List Page),
    (loadAll turns place false pages).timeline.rows = reduceHistoryEntries (allEntries pages) ∧
      (loadAll turns place false pages).timeline.ids.Nodup := by
  intro h
  have hids := (h [] (fun _ => 1) [
    ⟨[.userMessage "evt_1" "trn_1" "Hello", .assistantDelta "evt_2" "trn_1" "Hi"], nofun⟩,
    ⟨[.assistantDelta "evt_3" "trn_1" " there"], nofun⟩]).2
  revert hids
  decide

end Altior.Desktop
