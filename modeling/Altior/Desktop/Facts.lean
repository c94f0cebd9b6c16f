import Altior.Desktop.Turns

/-!
# What a timeline shows

The facts of a thread, and which of them the rows of its timeline show.  A row that is
made of a prompt or an event has another name than the row that the journal makes of the
same fact (`apps/desktop/src/stores/applicationStore.ts`,
`apps/desktop/src/features/timeline/historyReducer.ts`), and rows are told apart by their
names only.
-/

namespace Altior.Desktop

open Lib

/-- A fact of a thread: the prompt and the reply of a turn, a piece of the reply, a
permission that was asked for, and the failure of a turn. -/
inductive Fact
  | prompt (turnId : String)
  | reply (turnId : String)
  | delta (eventId : String)
  | permission (eventId : String)
  | failure (turnId : String)
deriving DecidableEq, Repr

/-- A row by its name, with the facts it shows. -/
abbrev ShownRow := String × List Fact

/-- The facts that rows show. -/
def factsOf (rows : List ShownRow) : List Fact := rows.flatMap Prod.snd

/-! ## The rows of entries -/

/-- The pieces of the reply of a turn. -/
def pieces (turnId : String) : List HistoryEntry → List Fact
  | [] => []
  | .assistantDelta eventId t _ :: rest =>
    if t = turnId then .delta eventId :: pieces turnId rest else pieces turnId rest
  | _ :: rest => pieces turnId rest

/-- The facts that the row of an entry shows, with what comes after it. -/
def HistoryEntry.facts : HistoryEntry → List HistoryEntry → List Fact
  | .userMessage _ turnId _, _ => [.prompt turnId]
  | .assistantDelta eventId turnId _, rest => .reply turnId :: .delta eventId :: pieces turnId rest
  | .permission eventId .., _ => [.permission eventId]
  | .turnState _ turnId _ _, _ => [.failure turnId]
  | .permissionDecision .., _ | .unknown .., _ => []

/-- The rows of entries, when the turns in `seen` have theirs. -/
def shownRows (seen : List String) : List HistoryEntry → List ShownRow
  | [] => []
  | e :: rest =>
    (if e.starts seen then (e.rowId.map fun id => (id, e.facts rest)).toList else []) ++
      shownRows (e.see seen) rest

/-- They are the rows of the reducer. -/
theorem names_shownRows (seen : List String) (entries : List HistoryEntry) :
    (shownRows seen entries).map Prod.fst = rowIds seen entries := by
  induction entries generalizing seen with
  | nil => rfl
  | cons e rest ih =>
    rw [shownRows, rowIds, List.map_append, ih]
    congr 1
    split
    · cases e.rowId <;> rfl
    · rfl

/-- The rows whose names are not there yet. -/
def newRows (names : List String) : List ShownRow → List ShownRow
  | [] => []
  | r :: rest => if r.1 ∈ names then newRows names rest else r :: newRows (names ++ [r.1]) rest

theorem names_newRows (names : List String) (rows : List ShownRow) :
    (newRows names rows).map Prod.fst = TimelineStore.newNames names (rows.map Prod.fst) := by
  induction rows generalizing names with
  | nil => rfl
  | cons r rest ih =>
    rw [newRows, List.map_cons, TimelineStore.newNames]
    split
    · exact ih names
    · rw [List.map_cons, ih]

/-! ## Changes -/

/-- What an input does to the rows of a thread. -/
inductive Change
  | keep
  | append (rows : List ShownRow)
  | complete (rows : List ShownRow)
  | prepend (rows : List ShownRow)
  | extend (row : String) (fact : Fact)

/-- A row of a name shows one more fact. -/
def extendRow (row : String) (fact : Fact) : List ShownRow → List ShownRow
  | [] => []
  | r :: rest => if r.1 = row then (r.1, r.2 ++ [fact]) :: rest else r :: extendRow row fact rest

namespace Change

/-- The rows after a change. -/
def apply (rows : List ShownRow) : Change → List ShownRow
  | keep => rows
  | append more => rows ++ more
  | complete more => rows ++ newRows (rows.map Prod.fst) more
  | prepend more => more ++ rows
  | extend row fact => extendRow row fact rows

/-- The names after a change. -/
def rename (names : List String) : Change → List String
  | keep | extend _ _ => names
  | append more => names ++ more.map Prod.fst
  | complete more => names ++ TimelineStore.newNames names (more.map Prod.fst)
  | prepend more => more.map Prod.fst ++ names

/-- The facts that a change shows in addition. -/
def added (names : List String) : Change → List Fact
  | keep => []
  | append more | prepend more => factsOf more
  | complete more => factsOf (newRows names more)
  | extend _ fact => [fact]

theorem names_extendRow (row : String) (fact : Fact) (rows : List ShownRow) :
    (extendRow row fact rows).map Prod.fst = rows.map Prod.fst := by
  induction rows with
  | nil => rfl
  | cons r rest ih =>
    rw [extendRow]
    split
    · rfl
    · rw [List.map_cons, ih, List.map_cons]

theorem names_apply (rows : List ShownRow) (c : Change) :
    (c.apply rows).map Prod.fst = c.rename (rows.map Prod.fst) := by
  cases c with
  | keep => rfl
  | append more => exact List.map_append
  | complete more => rw [apply, List.map_append, names_newRows, rename]
  | prepend more => exact List.map_append
  | extend row fact => exact names_extendRow row fact rows

theorem count_extendRow {row : String} {rows : List ShownRow} (h : row ∈ rows.map Prod.fst)
    (fact f : Fact) : (factsOf (extendRow row fact rows)).count f =
      (factsOf rows).count f + [fact].count f := by
  induction rows with
  | nil => exact absurd h List.not_mem_nil
  | cons r rest ih =>
    rw [extendRow]
    by_cases hr : r.1 = row
    · rw [if_pos hr]
      simp only [factsOf, List.flatMap_cons, List.count_append]
      omega
    · rw [if_neg hr]
      have hrest := ih ((List.mem_cons.1 h).resolve_left fun heq => hr heq.symm)
      simp only [factsOf, List.flatMap_cons, List.count_append] at hrest ⊢
      omega

/-- What is shown after a change is what was shown, and what the change adds. -/
theorem count_apply {rows : List ShownRow} {c : Change}
    (h : ∀ row fact, c = .extend row fact → row ∈ rows.map Prod.fst) (f : Fact) :
    (factsOf (c.apply rows)).count f =
      (factsOf rows).count f + (c.added (rows.map Prod.fst)).count f := by
  cases c with
  | keep => rfl
  | append more | complete more => simp only [apply, added, factsOf, List.flatMap_append,
      List.count_append]
  | prepend more =>
    simp only [apply, added, factsOf, List.flatMap_append, List.count_append]
    exact Nat.add_comm _ _
  | extend row fact => exact count_extendRow (h row fact rfl) fact f

end Change

theorem factsOf_newRows_subset (names : List String) (rows : List ShownRow) :
    factsOf (newRows names rows) ⊆ factsOf rows := by
  induction rows generalizing names with
  | nil => exact List.Subset.refl _
  | cons r rest ih =>
    rw [newRows]
    split
    · exact List.Subset.trans (ih names) (List.subset_append_right _ _)
    · exact List.append_subset.2 ⟨List.subset_append_left _ _,
        List.Subset.trans (ih _) (List.subset_append_right _ _)⟩

/-- A change that adds only what is told, and extends only a row that is there. -/
structure Sound (names : List String) (c : Change × List Fact) : Prop where
  told : c.1.added names ⊆ c.2
  there : ∀ row fact, c.1 = .extend row fact → row ∈ names

namespace Sound

variable {names : List String} {rows : List ShownRow} {told : List Fact}

theorem keep : Sound names (.keep, told) := ⟨List.nil_subset _, fun _ _ h => by cases h⟩

theorem append (h : factsOf rows ⊆ told) : Sound names (.append rows, told) :=
  ⟨h, fun _ _ heq => by cases heq⟩

theorem prepend (h : factsOf rows ⊆ told) : Sound names (.prepend rows, told) :=
  ⟨h, fun _ _ heq => by cases heq⟩

theorem complete (h : factsOf rows ⊆ told) : Sound names (.complete rows, told) :=
  ⟨List.Subset.trans (factsOf_newRows_subset names rows) h, fun _ _ heq => by cases heq⟩

theorem extend {row : String} {fact : Fact} (hrow : row ∈ names) (hfact : fact ∈ told) :
    Sound names (.extend row fact, told) where
  told _ hf := List.mem_singleton.1 hf ▸ hfact
  there _ _ heq := by
    cases heq
    exact hrow

theorem ite {p : Prop} [Decidable p] {c : Change × List Fact} (h : p → Sound names c) :
    Sound names (if p then c else (.keep, [])) := by
  split
  · rename_i hp
    exact h hp
  · exact keep

end Sound

/-! ## What an input does to the rows of a thread -/

/-- The rows of a page of the history, and its facts. -/
def pageChange (older : Bool) (hist : ThreadHistoryResponse) : Change × List Fact :=
  if hist.entries.isEmpty then (.complete (hist.turns.map fun turn => (turn.id, [])), [])
  else
    (if older then .prepend (shownRows [] hist.entries) else .complete (shownRows [] hist.entries),
      factsOf (shownRows [] hist.entries))

/-- What comes of an older page, when the history goes on at `cursor`. -/
def olderChange (cursor : Option HistoryCursorInfo) (hist : ThreadHistoryResponse) :
    Change × List Fact :=
  match cursor with
  | some ⟨some _, true⟩ => pageChange true hist
  | _ => (.keep, [])

/-- The permissions of a snapshot. -/
def snapshotChange (snapshot : ThreadSnapshot) : Change × List Fact :=
  let rows := snapshot.pendingPermissions.map fun p => (p.eventId, [Fact.permission p.eventId])
  (.complete rows, factsOf rows)

namespace ApplicationStore

/-- An event that the store takes.  What is for a turn is shown if an entry is found. -/
def eventChange (s : ApplicationStore) (event : StoreEvent) : Change × List Fact :=
  let turn := s.turnForEvent (s.targetThreadId event) event.turnId
  match event.body with
  | .messageDelta text =>
    if text = "" then (.keep, [])
    else
      (turn.elim .keep fun t => .extend t.replyRowId (.delta event.eventId),
        .delta event.eventId :: (event.turnId.map Fact.reply).toList)
  | .permissionRequested _ _ =>
    (.append [(event.eventId, [.permission event.eventId])], [.permission event.eventId])
  | .turnFailed _ =>
    (turn.elim .keep fun _ =>
      .append [("fail-" ++ toString event.sequence, (event.turnId.map Fact.failure).toList)],
      (event.turnId.map Fact.failure).toList)
  | .turnCancelled _ =>
    (turn.elim .keep fun _ => .append [("cancel-" ++ toString event.sequence, [])], [])
  | _ => (.keep, [])

/-- What an input does to the rows of thread `threadId`, and the facts it tells.  `minted`
has the turn of every prompt, in the order in which they are sent. -/
def change (threadId : String) (minted : Nat → String) (s : ApplicationStore) :
    Storing → Change × List Fact
  | .sendPrompt text other =>
    let n := s.rowCounter + 1
    if (s.sendPrompt text other).rowCounter = n ∧ other.getD s.selectedThreadId = threadId then
      (.append [(userRowId n, [.prompt (minted n)]), (replyRowId n, [.reply (minted n)])],
        [.prompt (minted n), .reply (minted n)])
    else (.keep, [])
  | .answer replyRow (.failed _ _) now =>
    match s.prompts.find? fun p => p.1 = replyRow with
    | some (_, other) =>
      if other = threadId then (.append [("fail-" ++ toString now, [])], []) else (.keep, [])
    | none => (.keep, [])
  | .history other (some hist) => if other = threadId then pageChange false hist else (.keep, [])
  | .older other (some hist) =>
    if other = threadId then olderChange (s.view threadId).cursor hist else (.keep, [])
  | .snapshot other snapshot => if other = threadId then snapshotChange snapshot else (.keep, [])
  | .event event =>
    if s.targetThreadId event = threadId ∧ ¬ s.IsDuplicate event then s.eventChange event
    else (.keep, [])
  | .recover answer =>
    match s.recovery, answer with
    | .history other, .history (some hist) =>
      if other = threadId then pageChange false hist else (.keep, [])
    | .snapshot other, .snapshot (some snapshot) =>
      if other = threadId then snapshotChange snapshot else (.keep, [])
    | _, _ => (.keep, [])
  | _ => (.keep, [])

section Names

variable {s s' : ApplicationStore} {threadId : String}

/-- An update of a timeline that names no row anew. -/
theorem ids_updateTimeline {other : String} (f : TimelineStore → TimelineStore)
    (hf : ∀ t : TimelineStore, (f t).ids = t.ids) :
    ((s.updateTimeline other f).timeline threadId).ids = (s.timeline threadId).ids := by
  rw [timeline_updateTimeline]
  split
  · exact hf _
  · rfl

/-- What a page of the history does to the names. -/
theorem ids_getHistory {v : ThreadView} (h : v.timeline.Indexed) (beforeSeq : Option Nat)
    (hist : ThreadHistoryResponse) : (v.getHistory beforeSeq (some hist)).timeline.ids =
      (pageChange beforeSeq.isSome hist).1.rename v.timeline.ids := by
  change (v.timeline.loadHistory beforeSeq hist).ids = _
  unfold TimelineStore.loadHistory pageChange
  by_cases hempty : hist.entries.isEmpty = true
  · rw [if_pos hempty, if_pos hempty, h.ids_foldl_appendMissing, Change.rename, List.map_map,
      List.map_map]
    rfl
  · rw [if_neg hempty, if_neg hempty]
    by_cases holder : beforeSeq.isSome = true
    · rw [if_pos holder, if_pos holder, TimelineStore.ids_prependRows, reduceHistoryEntries_eq,
        ids_rowsOf, Change.rename, names_shownRows]
    · rw [if_neg holder, if_neg holder, h.ids_foldl_appendMissing, reduceHistoryEntries_eq,
        ids_rowsOf, Change.rename, names_shownRows]

theorem ids_loadOlderHistory {v : ThreadView} (h : v.timeline.Indexed)
    (hist : ThreadHistoryResponse) : (v.loadOlderHistory fun _ => some hist).timeline.ids =
      (olderChange v.cursor hist).1.rename v.timeline.ids := by
  obtain ⟨timeline, cursor⟩ := v
  rcases cursor with _ | ⟨_ | seq, _ | _⟩
  case some.some.true => exact ids_getHistory h (some seq) hist
  all_goals rfl

theorem Rooted.ids_history (h : s.Rooted) (other : String) (hist : ThreadHistoryResponse) :
    ((s.updateView other (·.getHistory none (some hist))).timeline threadId).ids =
      (if other = threadId then pageChange false hist else (.keep, [])).1.rename
        (s.timeline threadId).ids := by
  rw [timeline_updateView]
  split
  · exact ids_getHistory (h.indexed threadId) none hist
  · rfl

theorem Rooted.ids_older (h : s.Rooted) (other : String) (hist : ThreadHistoryResponse) :
    ((s.updateView other (·.loadOlderHistory fun _ => some hist)).timeline threadId).ids =
      (if other = threadId then olderChange (s.view threadId).cursor hist else (.keep, [])).1.rename
        (s.timeline threadId).ids := by
  rw [timeline_updateView]
  split
  · exact ids_loadOlderHistory (h.indexed threadId) hist
  · rfl

theorem Rooted.ids_snapshot (h : s.Rooted) (other : String) (snapshot : ThreadSnapshot) :
    ((s.applyThreadSnapshot other snapshot).timeline threadId).ids =
      (if other = threadId then snapshotChange snapshot else (.keep, [])).1.rename
        (s.timeline threadId).ids := by
  let asked (p : PendingPermission) : TimelineRow :=
    permissionRow p.eventId p.kind p.description (knownDecision p.decision)
  have htimeline : (s.applyThreadSnapshot other snapshot).timeline threadId =
      if other = threadId then
        (snapshot.pendingPermissions.map asked).foldl TimelineStore.appendMissing (s.timeline threadId)
      else s.timeline threadId := timeline_updateTimeline (s := s) other threadId fun t =>
    (snapshot.pendingPermissions.map asked).foldl TimelineStore.appendMissing t
  rw [htimeline]
  split
  · rw [(h.indexed threadId).ids_foldl_appendMissing, List.map_map, snapshotChange, Change.rename,
      List.map_map]
    rfl
  · rfl

theorem ids_congr (h : s'.views = s.views) :
    (s'.timeline threadId).ids = (s.timeline threadId).ids := by
  rw [timeline_congr h]

theorem views_triggerSnapshotRecovery : s.triggerSnapshotRecovery.views = s.views := by
  unfold triggerSnapshotRecovery
  split <;> rfl

theorem views_greet {event : StoreEvent} : (s.greet event).views = s.views := by
  unfold greet
  split
  · split
    · exact views_triggerSnapshotRecovery
    · rfl
  · rfl

theorem views_finishRecovery : s.finishRecovery.views = s.views := by
  unfold finishRecovery
  split <;> rfl

theorem views_applyListPage (threadIds : Option (List String)) :
    (s.applyListPage threadIds).views = s.views := by
  cases threadIds <;> rfl

theorem timeline_updateTimeline_self (f : TimelineStore → TimelineStore) :
    (s.updateTimeline threadId f).timeline threadId = f (s.timeline threadId) := by
  rw [timeline_updateTimeline, if_pos rfl]

theorem timeline_updateTimeline_of_ne {other : String} (h : other ≠ threadId)
    (f : TimelineStore → TimelineStore) :
    (s.updateTimeline other f).timeline threadId = s.timeline threadId := by
  rw [timeline_updateTimeline, if_neg h]

theorem timeline_endTurn (other : String) (turn : ActiveTurnState) (notice : Option TimelineRow) :
    (s.endTurn other turn notice).timeline threadId =
      if other = threadId then
        notice.elim ((s.timeline threadId).finishStreaming turn.replyRowId)
          ((s.timeline threadId).finishStreaming turn.replyRowId).appendRow
      else s.timeline threadId :=
  timeline_updateTimeline (s := s) other threadId fun t =>
    notice.elim (t.finishStreaming turn.replyRowId) (t.finishStreaming turn.replyRowId).appendRow

/-- What the end of a turn does to the names. -/
theorem ids_endTurn (turn : ActiveTurnState) (notice : Option TimelineRow) :
    ((s.endTurn threadId turn notice).timeline threadId).ids =
      (s.timeline threadId).ids ++ (notice.map TimelineRow.id).toList := by
  have hfinish (t : TimelineStore) : (t.finishStreaming turn.replyRowId).ids = t.ids :=
    TimelineStore.ids_modify fun _ => rfl
  rw [timeline_endTurn, if_pos rfl]
  cases notice with
  | none => exact (hfinish _).trans (List.append_nil _).symm
  | some row =>
    change (TimelineStore.appendRow _ row).ids = _
    rw [TimelineStore.ids_appendRow, hfinish]
    rfl

variable {event : StoreEvent}

/-- An event reaches the timeline of its thread only. -/
theorem timeline_route_of_ne (h : s.targetThreadId event ≠ threadId) :
    (s.route event).timeline threadId = s.timeline threadId := by
  unfold route
  dsimp only
  cases event.body with
  | messageDelta text =>
    dsimp only
    split
    · split
      · rfl
      · exact timeline_updateTimeline_of_ne h _
    · rfl
  | permissionRequested kind description => exact timeline_updateTimeline_of_ne h _
  | permissionDecided decision =>
    dsimp only
    split
    · exact timeline_updateTimeline_of_ne h _
    · rfl
  | turnCompleted | turnFailed | turnCancelled =>
    dsimp only
    cases s.turnForEvent (s.targetThreadId event) event.turnId with
    | none => rfl
    | some turn => exact (timeline_endTurn _ turn _).trans (if_neg h)
  | streamGap | coreGreeting | coreRestarted => exact timeline_congr views_triggerSnapshotRecovery _
  | turnStarted | commandError | streamReplayed | streamReady | other => rfl

/-- What an event does to the names of its thread. -/
theorem ids_route : ((s.route event).timeline (s.targetThreadId event)).ids =
    (s.eventChange event).1.rename (s.timeline (s.targetThreadId event)).ids := by
  unfold route eventChange
  dsimp only
  cases event.body with
  | messageDelta text =>
    dsimp only
    cases s.turnForEvent (s.targetThreadId event) event.turnId with
    | none =>
      dsimp only
      split <;> rfl
    | some turn =>
      dsimp only
      split
      · rfl
      · exact ids_updateTimeline _ fun t => TimelineStore.ids_modify fun _ => rfl
  | permissionRequested kind description =>
    dsimp only
    rw [timeline_updateTimeline_self]
    exact TimelineStore.ids_appendRow _
  | permissionDecided decision =>
    dsimp only
    split
    · exact ids_updateTimeline _ fun t => TimelineStore.ids_modify fun _ => rfl
    · rfl
  | turnCompleted =>
    cases s.turnForEvent (s.targetThreadId event) event.turnId with
    | none => rfl
    | some turn => exact (ids_endTurn turn none).trans (List.append_nil _)
  | turnFailed | turnCancelled =>
    cases s.turnForEvent (s.targetThreadId event) event.turnId with
    | none => rfl
    | some turn => exact ids_endTurn turn (some _)
  | streamGap | coreGreeting | coreRestarted => exact ids_congr views_triggerSnapshotRecovery
  | turnStarted | commandError | streamReplayed | streamReady | other => rfl

/-- An event that speaks of a launch of Core shows nothing. -/
theorem eventChange_of_epoch (h : event.body.incomingEpoch.isSome) :
    s.eventChange event = (.keep, []) := by
  unfold eventChange
  cases hbody : event.body with
  | coreGreeting | coreRestarted => rfl
  | _ => simp [hbody, StoreBody.incomingEpoch] at h

/-- Nor does it change a timeline. -/
theorem views_handleIncomingEvent_of_epoch (h : event.body.incomingEpoch.isSome) :
    (s.handleIncomingEvent event).views = s.views := by
  unfold handleIncomingEvent
  dsimp only
  split
  · exact views_greet
  · have hroute : (((s.greet event).recordEvent event).route event).views = (s.greet event).views := by
      unfold route
      cases hbody : event.body with
      | coreGreeting | coreRestarted => exact views_triggerSnapshotRecovery
      | _ => simp [hbody, StoreBody.incomingEpoch] at h
    exact hroute.trans views_greet

/-- What an event does to the names of a thread, if it is taken. -/
theorem ids_handleIncomingEvent : ((s.handleIncomingEvent event).timeline threadId).ids =
    (if s.targetThreadId event = threadId ∧ ¬ s.IsDuplicate event then s.eventChange event
      else (.keep, [])).1.rename (s.timeline threadId).ids := by
  by_cases hepoch : event.body.incomingEpoch.isSome
  · rw [ids_congr (views_handleIncomingEvent_of_epoch hepoch), eventChange_of_epoch hepoch, ite_self]
    rfl
  · unfold handleIncomingEvent
    rw [greet_of_none (Option.not_isSome_iff_eq_none.1 hepoch)]
    by_cases hduplicate : s.IsDuplicate event
    · simp only [if_pos hduplicate]
      rw [if_neg fun h => h.2 hduplicate]
      rfl
    · simp only [if_neg hduplicate]
      by_cases hthread : s.targetThreadId event = threadId
      · rw [if_pos ⟨hthread, hduplicate⟩, ← hthread]
        exact ids_route (s := s.recordEvent event)
      · rw [if_neg fun h => hthread h.1, timeline_route_of_ne (s := s.recordEvent event) hthread]
        rfl

/-- No answer, no page. -/
theorem ids_updateView (other : String) (f : ThreadView → ThreadView) (hf : ∀ v, f v = v) :
    ((s.updateView other f).timeline threadId).ids = (s.timeline threadId).ids := by
  rw [timeline_updateView, hf]
  split <;> rfl

/-- What a prompt that was not delivered does to the names. -/
theorem ids_answer_failed (minted : Nat → String) (replyRow : String) (indeterminate : Bool)
    (reason : String) (now : Nat) :
    ((s.answerPrompt replyRow (.failed indeterminate reason) now).timeline threadId).ids =
      (s.change threadId minted (.answer replyRow (.failed indeterminate reason) now)).1.rename
        (s.timeline threadId).ids := by
  unfold answerPrompt change
  dsimp only
  cases s.prompts.find? fun p => p.1 = replyRow with
  | none => rfl
  | some prompt =>
    obtain ⟨row, other⟩ := prompt
    have htimeline := timeline_updateTimeline (s := s) other threadId fun t =>
      (t.finishStreaming replyRow).appendRow
        (errorRow ("fail-" ++ toString now) (undelivered indeterminate reason))
    refine (congrArg TimelineStore.ids htimeline).trans ?_
    dsimp only
    split
    · rw [TimelineStore.ids_appendRow]
      exact congrArg (· ++ _) (TimelineStore.ids_modify fun _ => rfl)
    · rfl

theorem Rooted.ids_recover (h : s.Rooted) (minted : Nat → String) (answer : RecoveryAnswer) :
    ((s.recover answer).timeline threadId).ids =
      (s.change threadId minted (.recover answer)).1.rename (s.timeline threadId).ids := by
  unfold recover change
  cases hrecovery : s.recovery with
  | idle => rfl
  | list =>
    cases answer with
    | refused => exact ids_congr views_finishRecovery
    | threads threadIds =>
      dsimp only
      split
      · exact ids_congr (views_finishRecovery.trans (views_applyListPage threadIds))
      · exact ids_congr (views_applyListPage threadIds)
    | history answer => rfl
    | snapshot answer => rfl
  | history other =>
    cases answer with
    | history answer =>
      cases answer with
      | none => exact ids_updateView other (·.getHistory none none) fun _ => rfl
      | some hist => exact h.ids_history other hist
    | refused => rfl
    | threads threadIds => rfl
    | snapshot answer => rfl
  | snapshot other =>
    cases answer with
    | snapshot answer =>
      cases answer with
      | none => exact ids_congr views_finishRecovery
      | some snapshot =>
        exact (ids_congr views_finishRecovery).trans (h.ids_snapshot other snapshot)
    | refused => exact ids_congr views_finishRecovery
    | threads threadIds => rfl
    | history answer => rfl

/-- What an input does to the names of a thread. -/
theorem Rooted.ids_step (h : s.Rooted) (minted : Nat → String) (i : Storing) :
    ((s.step i).timeline threadId).ids =
      (s.change threadId minted i).1.rename (s.timeline threadId).ids := by
  cases i with
  | list threadIds => exact ids_congr (views_applyListPage threadIds)
  | create other => exact ids_congr rfl
  | select other => exact ids_congr rfl
  | sendPrompt text other =>
    have hids : ((s.sendPrompt text other).timeline threadId).ids =
        (s.change threadId minted (.sendPrompt text other)).1.rename (s.timeline threadId).ids := by
      unfold change
      dsimp only
      rcases sendPrompt_cases s text other with ⟨error, heq⟩ | hsent
      · have hcounter : (s.sendPrompt text other).rowCounter = s.rowCounter := by rw [heq]
        rw [if_neg fun h => absurd (hcounter.symm.trans h.1) (Nat.ne_of_lt (Nat.lt_succ_self _)),
          heq]
        rfl
      · rw [hsent.timeline]
        by_cases hthread : other.getD s.selectedThreadId = threadId
        · rw [if_pos hthread, if_pos ⟨hsent.rowCounter, hthread⟩, TimelineStore.ids_appendRow,
            TimelineStore.ids_appendRow, List.append_assoc]
          rfl
        · rw [if_neg hthread, if_neg fun h => hthread h.2]
          rfl
    exact hids
  | answer replyRow answer now =>
    cases answer with
    | admitted turnId =>
      obtain ⟨prompts, f, heq, -⟩ := answerPrompt_admitted s replyRow turnId now
      have hviews : (s.answerPrompt replyRow (.admitted turnId) now).views = s.views := by rw [heq]
      exact ids_congr hviews
    | failed indeterminate reason => exact ids_answer_failed minted _ _ _ now
  | cancel other =>
    have hviews : (s.cancelActiveTurn other).views = s.views := by
      unfold cancelActiveTurn
      dsimp only
      split
      · rfl
      · split <;> rfl
    exact ids_congr hviews
  | cancelFailed replyRow reason => exact ids_congr rfl
  | decide rowId =>
    have hids : ((s.decidePermission rowId).timeline threadId).ids = (s.timeline threadId).ids := by
      unfold decidePermission
      split
      · rfl
      · split
        · rfl
        · exact ids_updateTimeline _ fun t => TimelineStore.ids_modify fun _ => rfl
    exact hids
  | decided other rowId decision =>
    cases decision with
    | ok decision => exact ids_updateTimeline _ fun t => TimelineStore.ids_modify fun _ => rfl
    | error reason =>
      exact ids_updateTimeline (s := s) (·.setPermissionSubmission rowId (some .failed)) fun t =>
        TimelineStore.ids_modify fun _ => rfl
  | history other answer =>
    cases answer with
    | none => exact ids_updateView other (·.getHistory none none) fun _ => rfl
    | some hist => exact h.ids_history other hist
  | older other answer =>
    cases answer with
    | none =>
      refine ids_updateView other (·.loadOlderHistory fun _ => none) fun v => ?_
      unfold ThreadView.loadOlderHistory
      split <;> rfl
    | some hist => exact h.ids_older other hist
  | snapshot other snapshot => exact h.ids_snapshot other snapshot
  | event event => exact ids_handleIncomingEvent
  | recover answer => exact h.ids_recover minted answer

end Names

section Sound

variable {s : ApplicationStore} {names : List String}

theorem sound_pageChange (older : Bool) (hist : ThreadHistoryResponse) :
    Sound names (pageChange older hist) := by
  unfold pageChange
  split
  · refine .complete fun f hf => ?_
    obtain ⟨row, hrow, hf⟩ := List.mem_flatMap.1 hf
    obtain ⟨turn, -, rfl⟩ := List.mem_map.1 hrow
    exact hf
  · split
    · exact .prepend (List.Subset.refl _)
    · exact .complete (List.Subset.refl _)

theorem sound_olderChange (cursor : Option HistoryCursorInfo) (hist : ThreadHistoryResponse) :
    Sound names (olderChange cursor hist) := by
  unfold olderChange
  split
  · exact sound_pageChange true hist
  · exact .keep

theorem sound_snapshotChange (snapshot : ThreadSnapshot) : Sound names (snapshotChange snapshot) :=
  .complete (List.Subset.refl _)

theorem Rooted.sound_eventChange (h : s.Rooted) (event : StoreEvent) :
    Sound (s.timeline (s.targetThreadId event)).ids (s.eventChange event) := by
  unfold eventChange
  dsimp only
  cases event.body with
  | messageDelta text =>
    dsimp only
    split
    · exact .keep
    · cases hturn : s.turnForEvent (s.targetThreadId event) event.turnId with
      | none => exact .keep
      | some turn =>
        have hfits := List.find?_some hturn
        have hthread : turn.threadId = s.targetThreadId event := by
          simp only [Bool.and_eq_true, decide_eq_true_eq] at hfits
          exact hfits.1
        rw [← hthread]
        exact .extend (h.shown turn (List.mem_of_find?_eq_some hturn)) List.mem_cons_self
  | permissionRequested kind description => exact .append (List.Subset.refl _)
  | turnFailed reason =>
    cases s.turnForEvent (s.targetThreadId event) event.turnId with
    | none => exact .keep
    | some turn => exact .append (by simp [factsOf])
  | turnCancelled reason =>
    cases s.turnForEvent (s.targetThreadId event) event.turnId with
    | none => exact .keep
    | some turn => exact .append (List.nil_subset _)
  | _ => exact .keep

/-- What an input adds to the rows of a thread, it tells. -/
theorem Rooted.sound_change (h : s.Rooted) (threadId : String) (minted : Nat → String)
    (i : Storing) : Sound (s.timeline threadId).ids (s.change threadId minted i) := by
  unfold change
  split
  · exact .ite fun _ => .append (List.Subset.refl _)
  · split
    · exact .ite fun _ => .append (List.nil_subset _)
    · exact .keep
  · exact .ite fun _ => sound_pageChange false _
  · exact .ite fun _ => sound_olderChange _ _
  · exact .ite fun _ => sound_snapshotChange _
  · exact .ite fun hevent => hevent.1 ▸ h.sound_eventChange _
  · split
    · exact .ite fun _ => sound_pageChange false _
    · exact .ite fun _ => sound_snapshotChange _
    · exact .keep
  · exact .keep

end Sound

end ApplicationStore

/-- A store.  Of one thread, `rows` are the rows with what they show, and `known` the
facts that were told so far; both are history. -/
structure Showing where
  store : ApplicationStore
  rows : List ShownRow
  known : List Fact

namespace Showing

/-- A store over its whole life, with an eye on one thread. -/
def machine (threadId : String) (minted : Nat → String) : Machine Showing Storing where
  init := ⟨.new, [], []⟩
  step s i :=
    let change := s.store.change threadId minted i
    ⟨s.store.step i, change.1.apply s.rows, s.known ++ change.2⟩

/-- Every fact that was told is shown once. -/
def Once (s : Showing) : Prop := ∀ f ∈ s.known, (factsOf s.rows).count f = 1

/-- What an input adds is told by it and was not known, and whatever else it tells was
known. -/
structure Agrees (known told added : List Fact) : Prop where
  once : added.Nodup
  new : ∀ f ∈ added, f ∉ known
  rest : ∀ f ∈ told, f ∈ known ∨ f ∈ added

/-- The rows that an input adds, or the piece it adds to a row, agree with what is known. -/
def Adds (threadId : String) (minted : Nat → String) (s : Showing) (i : Storing) : Prop :=
  Agrees s.known (s.store.change threadId minted i).2
    ((s.store.change threadId minted i).1.added (s.store.timeline threadId).ids)

/-- The rows are those of the timeline, and show nothing that was not told. -/
structure Linked (threadId : String) (s : Showing) : Prop where
  rooted : s.store.Rooted
  names : s.rows.map Prod.fst = (s.store.timeline threadId).ids
  told : factsOf s.rows ⊆ s.known

variable {threadId : String} {minted : Nat → String} {s : Showing}

theorem linked_init : (machine threadId minted).init.Linked threadId where
  rooted := ApplicationStore.rooted_init
  names := rfl
  told := List.nil_subset _

/-- What is shown after an input. -/
theorem Linked.count_step (h : s.Linked threadId) (i : Storing) (f : Fact) :
    (factsOf ((machine threadId minted).step s i).rows).count f =
      (factsOf s.rows).count f + ((s.store.change threadId minted i).1.added
        (s.store.timeline threadId).ids).count f := by
  rw [← h.names]
  refine Change.count_apply (fun row fact heq => ?_) f
  rw [h.names]
  exact (h.rooted.sound_change threadId minted i).there row fact heq

theorem Linked.step (h : s.Linked threadId) (i : Storing) :
    ((machine threadId minted).step s i).Linked threadId where
  rooted := h.rooted.step i
  names := by
    change ((s.store.change threadId minted i).1.apply s.rows).map Prod.fst = _
    rw [Change.names_apply, h.names]
    exact (h.rooted.ids_step minted i).symm
  told f hf := by
    have hcount := List.count_pos_iff.2 hf
    rw [h.count_step] at hcount
    refine List.mem_append.2 ?_
    rcases Nat.eq_zero_or_pos ((factsOf s.rows).count f) with hzero | hpos
    · rw [hzero, Nat.zero_add] at hcount
      exact .inr ((h.rooted.sound_change threadId minted i).told (List.count_pos_iff.1 hcount))
    · exact .inl (h.told (List.count_pos_iff.1 hpos))

/-- An input keeps every fact shown once if and only if what it adds agrees with what is
known. -/
theorem Linked.once_step_iff (h : s.Linked threadId) (honce : s.Once) (i : Storing) :
    ((machine threadId minted).step s i).Once ↔ Adds threadId minted s i := by
  have hsound := (h.rooted.sound_change threadId minted i).told
  have hcount (f : Fact) : (factsOf ((machine threadId minted).step s i).rows).count f = _ :=
    h.count_step i f
  have hzero (f : Fact) (hf : f ∉ s.known) : (factsOf s.rows).count f = 0 :=
    List.count_eq_zero.2 fun hmem => hf (h.told hmem)
  unfold Adds
  generalize (s.store.change threadId minted i).1.added (s.store.timeline threadId).ids = added
    at hsound hcount
  constructor
  · intro hafter
    have hone (f : Fact) (hf : f ∈ s.known ∨ f ∈ (s.store.change threadId minted i).2) :
        (factsOf s.rows).count f + added.count f = 1 :=
      (hcount f).symm.trans (hafter f (List.mem_append.2 hf))
    refine ⟨List.nodup_iff_count_le_one.2 fun f => ?_, fun f hadded hknown => ?_, fun f hf => ?_⟩
    · by_cases hadded : f ∈ added
      · have := hone f (.inr (hsound hadded))
        omega
      · rw [List.count_eq_zero.2 hadded]
        exact Nat.zero_le 1
    · have htwice := hone f (.inl hknown)
      have hpos := List.count_pos_iff.2 hadded
      rw [honce f hknown] at htwice
      omega
    · by_cases hknown : f ∈ s.known
      · exact .inl hknown
      · have hnew := hone f (.inr hf)
        rw [hzero f hknown, Nat.zero_add] at hnew
        exact .inr (List.count_pos_iff.1 (hnew ▸ Nat.one_pos))
  · rintro ⟨hnodup, hnew, hrest⟩ f hf
    rw [hcount]
    by_cases hknown : f ∈ s.known
    · rw [honce f hknown, List.count_eq_zero.2 fun hadded => hnew f hadded hknown]
    · have hadded := ((hrest f ((List.mem_append.1 hf).resolve_left hknown)).resolve_left hknown)
      rw [hzero f hknown, List.count_eq_one_of_mem hnodup hadded]

/-- A prompt and its reply, and then the journal of both. -/
def sampleReload : List Storing :=
  [.create "thr_1", .sendPrompt "Hello" none,
    .answer (ApplicationStore.replyRowId 1) (.admitted (some "trn_1")) 0,
    .event (ApplicationStore.sampleEvent 2 "trn_1" (.messageDelta "Hi")),
    .history "thr_1" (some ⟨[.userMessage "evt_1" "trn_1" "Hello",
      .assistantDelta "evt_2" "trn_1" "Hi"], [], none, false⟩)]

end Showing

end Altior.Desktop
