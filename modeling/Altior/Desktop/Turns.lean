import Altior.Desktop.Store

/-!
# Turns and their events

An event that names a turn is for the entry of that turn among the turns that run
(`apps/desktop/src/stores/applicationStore.ts`).  An entry gets its identifier with the
answer to its prompt, and until then it takes the events of every turn of its thread.
-/

namespace Altior.Desktop

open Lib

/-! ## Timelines that only grow -/

namespace ThreadView

/-- A page of the history takes nothing from the timeline. -/
theorem kept_getHistory (v : ThreadView) (beforeSeq : Option Nat)
    (answer : Option ThreadHistoryResponse) :
    v.timeline.Kept (v.getHistory beforeSeq answer).timeline := by
  cases answer with
  | none => exact .refl _
  | some hist =>
    change v.timeline.Kept (v.timeline.loadHistory beforeSeq hist)
    unfold TimelineStore.loadHistory
    split
    · exact TimelineStore.kept_foldl_appendMissing _
    · split
      · exact TimelineStore.kept_prependRows _
      · exact TimelineStore.kept_foldl_appendMissing _

theorem kept_loadOlderHistory (v : ThreadView) (answer : Nat → Option ThreadHistoryResponse) :
    v.timeline.Kept (v.loadOlderHistory answer).timeline := by
  unfold loadOlderHistory
  split
  · exact v.kept_getHistory _ _
  · exact .refl _

end ThreadView

/-- What an entry says of the prompt and the turn it is for. -/
def ActiveTurnState.tag (t : ActiveTurnState) : String × String × Option String :=
  (t.threadId, t.replyRowId, t.turnId)

variable {f : TimelineStore → TimelineStore} {text threadId : String}

namespace ApplicationStore

variable {s s' s'' : ApplicationStore} {event : StoreEvent}

theorem timeline_updateView (threadId other : String) (f : ThreadView → ThreadView) :
    (s.updateView threadId f).timeline other =
      if threadId = other then (f (s.view other)).timeline else s.timeline other := by
  unfold timeline view updateView
  rw [Table.getElem?_insert_eq]
  split
  · rename_i heq
    rw [heq]
    rfl
  · rfl

theorem timeline_updateTimeline (threadId other : String) (f : TimelineStore → TimelineStore) :
    (s.updateTimeline threadId f).timeline other =
      if threadId = other then f (s.timeline other) else s.timeline other :=
  timeline_updateView threadId other _

theorem timeline_congr (h : s'.views = s.views) (threadId : String) :
    s'.timeline threadId = s.timeline threadId := by
  unfold timeline view
  rw [h]

/-- No timeline loses anything. -/
def Held (s s' : ApplicationStore) : Prop :=
  ∀ threadId, (s.timeline threadId).Kept (s'.timeline threadId)

theorem Held.of_views (h : s'.views = s.views) : s.Held s' := fun threadId =>
  timeline_congr h threadId ▸ .refl _

theorem Held.trans (h : s.Held s') (h' : s'.Held s'') : s.Held s'' :=
  fun threadId => (h threadId).trans (h' threadId)

theorem held_updateView (threadId : String) {f : ThreadView → ThreadView}
    (hf : ∀ v : ThreadView, v.timeline.Kept (f v).timeline) : s.Held (s.updateView threadId f) := by
  intro other
  rw [timeline_updateView]
  split
  · exact hf _
  · exact .refl _

theorem held_updateTimeline (threadId : String) (hf : ∀ t, TimelineStore.Kept t (f t)) :
    s.Held (s.updateTimeline threadId f) :=
  held_updateView threadId fun v => hf v.timeline

/-! ## Turns that run -/

/-- The entries are some of those of before, in the same order, as far as they say which
prompt and which turn they are for. -/
def Fewer (s s' : ApplicationStore) : Prop :=
  (s'.activeTurns.map ActiveTurnState.tag).Sublist (s.activeTurns.map ActiveTurnState.tag)

theorem Fewer.exists (h : s.Fewer s') {t' : ActiveTurnState} (ht' : t' ∈ s'.activeTurns) :
    ∃ t ∈ s.activeTurns,
      t'.threadId = t.threadId ∧ t'.replyRowId = t.replyRowId ∧ t'.turnId = t.turnId := by
  obtain ⟨t, ht, htag⟩ := List.mem_map.1 (h.subset (List.mem_map_of_mem ht'))
  simp only [ActiveTurnState.tag, Prod.mk.injEq] at htag
  exact ⟨t, ht, htag.1.symm, htag.2.1.symm, htag.2.2.symm⟩

theorem Fewer.of_activeTurns (h : s'.activeTurns = s.activeTurns) : s.Fewer s' := by
  rw [Fewer, h]

/-- Some entries stay. -/
theorem fewer_filter (p : ActiveTurnState → Bool) (h : s'.activeTurns = s.activeTurns.filter p) :
    s.Fewer s' := by
  rw [Fewer, h]
  exact List.filter_sublist.map _

/-- An entry is changed, but for what it says of its prompt and its turn. -/
theorem fewer_map {f : ActiveTurnState → ActiveTurnState} (hf : ∀ t, (f t).tag = t.tag)
    (h : s'.activeTurns = s.activeTurns.map f) : s.Fewer s' := by
  rw [Fewer, h, List.map_map]
  exact (List.map_congr_left fun t _ => hf t) ▸ List.Sublist.refl _

/-- Timelines lose nothing, and no prompt is sent. -/
structure Quiet (s s' : ApplicationStore) : Prop where
  held : s.Held s'
  fewer : s.Fewer s'
  rowCounter : s'.rowCounter = s.rowCounter
  prompts : s'.prompts.Sublist s.prompts

theorem Quiet.of_frame (hviews : s'.views = s.views) (hturns : s'.activeTurns = s.activeTurns)
    (hcounter : s'.rowCounter = s.rowCounter) (hprompts : s'.prompts = s.prompts) : s.Quiet s' :=
  ⟨.of_views hviews, .of_activeTurns hturns, hcounter, hprompts ▸ List.Sublist.refl _⟩

theorem Quiet.refl (s : ApplicationStore) : s.Quiet s := .of_frame rfl rfl rfl rfl

theorem Quiet.trans (h : s.Quiet s') (h' : s'.Quiet s'') : s.Quiet s'' :=
  ⟨h.held.trans h'.held, List.Sublist.trans h'.fewer h.fewer, h'.rowCounter.trans h.rowCounter,
    h'.prompts.trans h.prompts⟩

theorem quiet_updateView (threadId : String) {f : ThreadView → ThreadView}
    (hf : ∀ v : ThreadView, v.timeline.Kept (f v).timeline) : s.Quiet (s.updateView threadId f) :=
  ⟨held_updateView threadId hf, .of_activeTurns rfl, rfl, List.Sublist.refl _⟩

theorem quiet_updateTimeline (threadId : String) (hf : ∀ t, TimelineStore.Kept t (f t)) :
    s.Quiet (s.updateTimeline threadId f) :=
  quiet_updateView threadId fun v => hf v.timeline

/-! ## Events -/

theorem quiet_triggerSnapshotRecovery : s.Quiet s.triggerSnapshotRecovery := by
  unfold triggerSnapshotRecovery
  split <;> exact .of_frame rfl rfl rfl rfl

theorem quiet_greet : s.Quiet (s.greet event) := by
  unfold greet
  split
  · split
    · rename_i epoch _ _
      have hanew : s.Quiet { s with
          sequenceTracker := s.sequenceTracker.transitionEpoch epoch
          coreInstanceId := some epoch
          lastSequence := 0 } := .of_frame rfl rfl rfl rfl
      exact hanew.trans quiet_triggerSnapshotRecovery
    · exact .refl s
  · exact .refl s

/-- Where a turn ends, its entry goes. -/
theorem quiet_endTurn (threadId : String) (turn : ActiveTurnState) (notice : Option TimelineRow) :
    s.Quiet (s.endTurn threadId turn notice) := by
  have hnotice (t : TimelineStore) : t.Kept (notice.elim (t.finishStreaming turn.replyRowId)
      (t.finishStreaming turn.replyRowId).appendRow) := by
    cases notice with
    | none => exact TimelineStore.kept_finishStreaming _
    | some row =>
      exact (TimelineStore.kept_finishStreaming _).trans (TimelineStore.kept_appendRow row)
  have hupdate := held_updateTimeline (s := s) threadId hnotice
  exact ⟨fun other => hupdate other, fewer_filter _ rfl, rfl, List.Sublist.refl _⟩

theorem quiet_route : s.Quiet (s.route event) := by
  unfold route
  dsimp only
  cases event.body with
  | turnStarted =>
    refine ⟨.of_views rfl, fewer_map (fun t => ?_) rfl, rfl, List.Sublist.refl _⟩
    split <;> rfl
  | messageDelta text =>
    dsimp only
    split
    · split
      · exact .refl s
      · exact quiet_updateTimeline _ fun t => TimelineStore.kept_appendDelta _ _
    · exact .refl s
  | permissionRequested kind description =>
    exact quiet_updateTimeline _ fun t => TimelineStore.kept_appendRow _
  | permissionDecided decision =>
    dsimp only
    split
    · exact quiet_updateTimeline _ fun t => TimelineStore.kept_setPermissionDecision _ _
    · exact .refl s
  | turnCompleted | turnFailed | turnCancelled =>
    dsimp only
    cases s.turnForEvent (s.targetThreadId event) event.turnId with
    | none => exact .refl s
    | some turn => exact quiet_endTurn _ turn _
  | streamGap | coreGreeting | coreRestarted => exact quiet_triggerSnapshotRecovery
  | commandError | streamReplayed | streamReady | other => exact .of_frame rfl rfl rfl rfl

theorem quiet_handleIncomingEvent : s.Quiet (s.handleIncomingEvent event) := by
  unfold handleIncomingEvent
  dsimp only
  split
  · exact quiet_greet
  · have hrecorded : (s.greet event).Quiet ((s.greet event).recordEvent event) :=
      .of_frame rfl rfl rfl rfl
    exact (quiet_greet.trans hrecorded).trans quiet_route

/-! ## All else that may happen -/

theorem quiet_applyListPage (threadIds : Option (List String)) :
    s.Quiet (s.applyListPage threadIds) := by
  cases threadIds <;> exact .of_frame rfl rfl rfl rfl

theorem quiet_applyThreadSnapshot (threadId : String) (snapshot : ThreadSnapshot) :
    s.Quiet (s.applyThreadSnapshot threadId snapshot) :=
  (quiet_updateTimeline threadId fun _ => TimelineStore.kept_foldl_appendMissing _).trans
    (.of_frame rfl rfl rfl rfl)

theorem quiet_finishRecovery : s.Quiet s.finishRecovery := by
  unfold finishRecovery
  split <;> exact .of_frame rfl rfl rfl rfl

theorem quiet_recover (answer : RecoveryAnswer) : s.Quiet (s.recover answer) := by
  unfold recover
  split
  · exact quiet_finishRecovery
  · dsimp only
    split
    · exact (quiet_applyListPage _).trans quiet_finishRecovery
    · exact (quiet_applyListPage _).trans (.of_frame rfl rfl rfl rfl)
  · exact .of_frame rfl rfl rfl rfl
  · exact (quiet_updateView _ fun v => v.kept_getHistory none _).trans (.of_frame rfl rfl rfl rfl)
  · exact quiet_finishRecovery
  · exact quiet_finishRecovery
  · exact (quiet_applyThreadSnapshot _ _).trans quiet_finishRecovery
  · exact .refl s

theorem quiet_cancelActiveTurn (threadId : Option String) :
    s.Quiet (s.cancelActiveTurn threadId) := by
  unfold cancelActiveTurn
  dsimp only
  split
  · exact .refl s
  · split
    · exact .refl s
    · refine ⟨.of_views rfl, fewer_map (fun t => ?_) rfl, rfl, List.Sublist.refl _⟩
      split <;> rfl

theorem quiet_cancelFailed (replyRow reason : String) : s.Quiet (s.cancelFailed replyRow reason) := by
  refine ⟨.of_views rfl, fewer_map (fun t => ?_) rfl, rfl, List.Sublist.refl _⟩
  split <;> rfl

theorem quiet_decidePermission (rowId : String) : s.Quiet (s.decidePermission rowId) := by
  unfold decidePermission
  split
  · exact .refl s
  · split
    · exact .refl s
    · exact quiet_updateTimeline _ fun t => TimelineStore.kept_setPermissionSubmission _ _

theorem quiet_permissionAnswered (threadId rowId : String) (decision : Except String String) :
    s.Quiet (s.permissionAnswered threadId rowId decision) := by
  cases decision with
  | ok decision =>
    exact quiet_updateTimeline _ fun t => TimelineStore.kept_setPermissionDecision _ _
  | error reason =>
    exact (quiet_updateTimeline threadId fun t =>
      TimelineStore.kept_setPermissionSubmission rowId (some .failed)).trans
        (.of_frame rfl rfl rfl rfl)

/-- An answer that is a failure. -/
theorem quiet_answer_failed (replyRow : String) (indeterminate : Bool) (reason : String) (now : Nat) :
    s.Quiet (s.answerPrompt replyRow (.failed indeterminate reason) now) := by
  unfold answerPrompt
  split
  · exact .refl s
  · rename_i threadId _
    dsimp only
    have hfail (t : TimelineStore) : t.Kept ((t.finishStreaming replyRow).appendRow
        (errorRow ("fail-" ++ toString now) (undelivered indeterminate reason))) :=
      (TimelineStore.kept_finishStreaming _).trans (TimelineStore.kept_appendRow _)
    have hupdate := held_updateTimeline (s := s) threadId hfail
    exact ⟨fun other => hupdate other, fewer_filter _ rfl, rfl, List.filter_sublist⟩

/-! ## Prompts and their answers -/

/-- A prompt was sent: it has two rows, and an entry without a turn. -/
structure Sent (s s' : ApplicationStore) (threadId text : String) : Prop where
  free : ∀ t ∈ s.activeTurns, t.threadId ≠ threadId
  timeline : ∀ other, s'.timeline other =
    if threadId = other then
      ((s.timeline other).appendRow (userRow (userRowId (s.rowCounter + 1)) text)).appendRow
        { assistantRow (replyRowId (s.rowCounter + 1)) "" with streaming := true }
    else s.timeline other
  activeTurns : s'.activeTurns = s.activeTurns ++ [⟨none, threadId, userRowId (s.rowCounter + 1),
    replyRowId (s.rowCounter + 1), true, none, none⟩]
  prompts : s'.prompts = s.prompts ++ [(replyRowId (s.rowCounter + 1), threadId)]
  rowCounter : s'.rowCounter = s.rowCounter + 1
  recovery : s'.recovery = s.recovery

theorem sendPrompt_cases (s : ApplicationStore) (text : String) (threadId : Option String) :
    (∃ error, s.sendPrompt text threadId = { s with error := error }) ∨
      s.Sent (s.sendPrompt text threadId) (threadId.getD s.selectedThreadId) text := by
  unfold ApplicationStore.sendPrompt
  by_cases hempty : text = ""
  · rw [if_pos hempty]
    exact .inl ⟨s.error, rfl⟩
  · rw [if_neg hempty]
    dsimp only
    by_cases hopen : s.NotOpen (threadId.getD s.selectedThreadId)
    · rw [if_pos hopen]
      exact .inl ⟨_, rfl⟩
    · rw [if_neg hopen]
      by_cases hbusy : s.activeTurns.any (·.threadId = threadId.getD s.selectedThreadId) = true
      · rw [if_pos hbusy]
        exact .inl ⟨s.error, rfl⟩
      · rw [if_neg hbusy]
        refine .inr ⟨fun t ht heq => hbusy ?_, fun other => ?_, rfl, rfl, rfl, rfl⟩
        · exact List.any_eq_true.2 ⟨t, ht, decide_eq_true heq⟩
        · exact timeline_updateTimeline (s := s) (threadId.getD s.selectedThreadId) other fun t =>
            (t.appendRow (userRow (userRowId (s.rowCounter + 1)) text)).appendRow
              { assistantRow (replyRowId (s.rowCounter + 1)) "" with streaming := true }

theorem Sent.held (h : s.Sent s' threadId text) : s.Held s' := by
  intro other
  rw [h.timeline]
  split
  · exact (TimelineStore.kept_appendRow _).trans (TimelineStore.kept_appendRow _)
  · exact .refl _

/-- The reply row is shown. -/
theorem Sent.mem_ids (h : s.Sent s' threadId text) :
    replyRowId (s.rowCounter + 1) ∈ (s'.timeline threadId).ids := by
  rw [h.timeline, if_pos rfl, TimelineStore.ids, TimelineStore.rows_appendRow, List.map_append]
  exact List.mem_append_right _ (List.mem_singleton.2 rfl)

/-- The answer to an admitted prompt only gives its entry the turn. -/
theorem answerPrompt_admitted (s : ApplicationStore) (replyRow : String) (turnId : Option String)
    (now : Nat) : ∃ prompts f, s.answerPrompt replyRow (.admitted turnId) now =
        { s with prompts := prompts, activeTurns := s.activeTurns.map f } ∧
      ∀ t, f t = t ∨ (t.replyRowId = replyRow ∧ f t = { t with turnId := turnId }) := by
  unfold answerPrompt
  split
  · refine ⟨s.prompts, id, ?_, fun t => .inl rfl⟩
    rw [List.map_id]
  · rename_i threadId _
    refine ⟨_, _, rfl, fun t => ?_⟩
    by_cases hmine : t.replyRowId = replyRow ∧ t.threadId = threadId
    · exact .inr ⟨hmine.1, if_pos hmine⟩
    · exact .inl (if_neg hmine)

/-! ## Rows that are found -/

/-- The reply rows of the entries are shown, and rows are found by their names. -/
structure Rooted (s : ApplicationStore) : Prop where
  shown : ∀ t ∈ s.activeTurns, t.replyRowId ∈ (s.timeline t.threadId).ids
  indexed : ∀ threadId, (s.timeline threadId).Indexed

theorem Rooted.quiet (h : s.Rooted) (hquiet : s.Quiet s') : s'.Rooted where
  shown t' ht' := by
    obtain ⟨t, ht, hthread, hrow, -⟩ := hquiet.fewer.exists ht'
    rw [hthread, hrow]
    exact (hquiet.held t.threadId).ids (h.shown t ht)
  indexed threadId := (hquiet.held threadId).indexed (h.indexed threadId)

theorem Rooted.sent (h : s.Rooted) (hsent : s.Sent s' threadId text) :
    s'.Rooted where
  shown t ht := by
    rw [hsent.activeTurns] at ht
    rcases List.mem_append.1 ht with hold | hnew
    · exact (hsent.held t.threadId).ids (h.shown t hold)
    · rw [List.mem_singleton.1 hnew]
      exact hsent.mem_ids
  indexed threadId := (hsent.held threadId).indexed (h.indexed threadId)

theorem Rooted.admitted (h : s.Rooted) (replyRow : String) (turnId : Option String) (now : Nat) :
    (s.answerPrompt replyRow (.admitted turnId) now).Rooted := by
  obtain ⟨prompts, f, heq, hf⟩ := answerPrompt_admitted s replyRow turnId now
  rw [heq]
  refine ⟨fun t' ht' => ?_, h.indexed⟩
  obtain ⟨t, ht, rfl⟩ := List.mem_map.1 ht'
  rcases hf t with hsame | ⟨-, hmine⟩
  · rw [hsame]
    exact h.shown t ht
  · rw [hmine]
    exact h.shown t ht

/-- Every input but a prompt that is sent and one that is admitted is quiet. -/
theorem quiet_step (i : Storing) : s.Quiet (s.step i) ∨
    (∃ text threadId, i = .sendPrompt text threadId ∧
      s.Sent (s.step i) (threadId.getD s.selectedThreadId) text) ∨
    ∃ replyRow turnId now, i = .answer replyRow (.admitted turnId) now := by
  cases i with
  | list threadIds => exact .inl (quiet_applyListPage threadIds)
  | create threadId => exact .inl (.of_frame rfl rfl rfl rfl)
  | select threadId => exact .inl (.of_frame rfl rfl rfl rfl)
  | sendPrompt text threadId =>
    rcases sendPrompt_cases s text threadId with ⟨error, heq⟩ | hsent
    · have hquiet : s.Quiet (s.sendPrompt text threadId) := by
        rw [heq]
        exact .of_frame rfl rfl rfl rfl
      exact .inl hquiet
    · exact .inr (.inl ⟨text, threadId, rfl, hsent⟩)
  | answer replyRow answer now =>
    cases answer with
    | admitted turnId => exact .inr (.inr ⟨replyRow, turnId, now, rfl⟩)
    | failed indeterminate reason => exact .inl (quiet_answer_failed _ _ _ _)
  | cancel threadId => exact .inl (quiet_cancelActiveTurn threadId)
  | cancelFailed replyRow reason => exact .inl (quiet_cancelFailed replyRow reason)
  | decide rowId => exact .inl (quiet_decidePermission rowId)
  | decided threadId rowId decision => exact .inl (quiet_permissionAnswered threadId rowId decision)
  | history threadId answer => exact .inl (quiet_updateView _ fun v => v.kept_getHistory none _)
  | older threadId answer => exact .inl (quiet_updateView _ fun v => v.kept_loadOlderHistory _)
  | snapshot threadId snapshot => exact .inl (quiet_applyThreadSnapshot threadId snapshot)
  | event event => exact .inl quiet_handleIncomingEvent
  | recover answer => exact .inl (quiet_recover answer)

theorem Rooted.step (h : s.Rooted) (i : Storing) : (s.step i).Rooted := by
  rcases s.quiet_step i with hquiet | ⟨text, threadId, -, hsent⟩ | ⟨replyRow, turnId, now, rfl⟩
  · exact h.quiet hquiet
  · exact h.sent hsent
  · exact h.admitted replyRow turnId now

theorem rooted_init : machine.init.Rooted :=
  ⟨fun _ ht => absurd ht List.not_mem_nil, fun _ => TimelineStore.indexed_empty⟩

/-! ## The turn of a prompt -/

end ApplicationStore

/-- Whether an event is one of those by which a turn goes on or ends. -/
def StoreBody.IsTurnEvent : StoreBody → Prop
  | messageDelta _ | turnCompleted | turnFailed _ | turnCancelled _ => True
  | turnStarted | permissionRequested _ _ | permissionDecided _ | streamGap | streamReplayed
  | streamReady | coreGreeting _ | coreRestarted _ | commandError _ _ | other _ => False

/-- A prompt that was admitted is answered with the turn Core minted for it.  Prompts are
known by their reply rows. -/
def Storing.Tells (minted : String → Option String) : Storing → Prop
  | .answer replyRow (.admitted turnId) _ => turnId = minted replyRow
  | _ => True

namespace ApplicationStore

variable (minted : String → Option String)

/-- Nothing changes of the entries and of the rows there are, but for the entry and the
reply row of the prompt of a turn. -/
structure Confined (s s' : ApplicationStore) (turnId : String) : Prop where
  entries : (s'.activeTurns.filter fun t => minted t.replyRowId ≠ some turnId) =
    s.activeTurns.filter fun t => minted t.replyRowId ≠ some turnId
  rows : ∀ (threadId : String) (i : Nat) (row : TimelineRow),
    (s.timeline threadId).rows[i]? = some row → minted row.id ≠ some turnId →
      (s'.timeline threadId).rows[i]? = some row

/-- An event of a turn changes nothing of another turn. -/
def Confines (s : ApplicationStore) : Storing → Prop
  | .event event => ∀ turnId, event.turnId = some turnId → event.body.IsTurnEvent →
      Confined minted s (s.step (.event event)) turnId
  | _ => True

/-- An event of a turn that the store takes finds no entry that waits for its identifier,
or the one of that turn, or it has no text to add. -/
def FindsOwn (s : ApplicationStore) : Storing → Prop
  | .event event => ∀ turnId, event.turnId = some turnId → event.body.IsTurnEvent →
      ¬ s.IsDuplicate event → event.body ≠ .messageDelta "" →
        ∀ t, s.turnForEvent (s.targetThreadId event) (some turnId) = some t → t.turnId = none →
          minted t.replyRowId = some turnId
  | _ => True

/-- An entry has the identifier Core minted, if it has one, and its reply row is shown. -/
structure Tied (s : ApplicationStore) : Prop extends s.Rooted where
  named : ∀ t ∈ s.activeTurns, ∀ turnId, t.turnId = some turnId →
    minted t.replyRowId = some turnId

variable {minted} {s s' : ApplicationStore} {event : StoreEvent} {turnId : String}

theorem Tied.quiet (h : s.Tied minted) (hquiet : s.Quiet s') : s'.Tied minted := by
  refine ⟨h.toRooted.quiet hquiet, fun t' ht' turnId hturn => ?_⟩
  obtain ⟨t, ht, -, hrow, hsame⟩ := hquiet.fewer.exists ht'
  rw [hrow]
  exact h.named t ht turnId (hsame ▸ hturn)

/-- A prompt makes an entry that has no identifier yet. -/
theorem Tied.sent (h : s.Tied minted) (hsent : s.Sent s' threadId text) : s'.Tied minted := by
  refine ⟨h.toRooted.sent hsent, fun t ht turnId hturn => ?_⟩
  rw [hsent.activeTurns] at ht
  rcases List.mem_append.1 ht with hold | hnew
  · exact h.named t hold turnId hturn
  · rw [List.mem_singleton.1 hnew] at hturn
    cases hturn

/-- An answer tells the identifier. -/
theorem Tied.admitted (h : s.Tied minted) (replyRow : String) (now : Nat) :
    (s.answerPrompt replyRow (.admitted (minted replyRow)) now).Tied minted := by
  refine ⟨h.toRooted.admitted replyRow (minted replyRow) now, fun t' ht' turnId hturn => ?_⟩
  obtain ⟨prompts, f, heq, hf⟩ := answerPrompt_admitted s replyRow (minted replyRow) now
  rw [heq] at ht'
  obtain ⟨t, ht, rfl⟩ := List.mem_map.1 ht'
  rcases hf t with hsame | ⟨hrow, hmine⟩
  · rw [hsame] at hturn ⊢
    exact h.named t ht turnId hturn
  · rw [hmine] at hturn ⊢
    rw [hrow]
    exact hturn

theorem Tied.step (h : s.Tied minted) {i : Storing} (hi : i.Tells minted) :
    (s.step i).Tied minted := by
  rcases s.quiet_step i with hquiet | ⟨text, threadId, -, hsent⟩ | ⟨replyRow, turnId, now, rfl⟩
  · exact h.quiet hquiet
  · exact h.sent hsent
  · cases hi
    exact h.admitted replyRow now

/-! ## An event and the turn it finds -/

theorem Confined.refl (s : ApplicationStore) (turnId : String) : s.Confined minted s turnId :=
  ⟨rfl, fun _ _ _ hrow _ => hrow⟩

variable {turn : ActiveTurnState}

theorem turnForEvent_some (h : s.turnForEvent threadId (some turnId) = some turn) :
    turn ∈ s.activeTurns ∧ turn.threadId = threadId ∧
      (turn.turnId = none ∨ turn.turnId = some turnId) := by
  have hmem := List.mem_of_find?_eq_some h
  have hfits := List.find?_some h
  simp only [Option.isNone_some, Bool.or_false, Bool.and_eq_true, Bool.or_eq_true, decide_eq_true_eq,
    Option.isNone_iff_eq_none] at hfits
  exact ⟨hmem, hfits.1, hfits.2⟩

/-- A row of the turn is changed. -/
theorem Tied.confined_update (h : s.Tied minted) {replyRow : String}
    (hmine : minted replyRow = some turnId)
    (hf : ∀ (t : TimelineStore), t.Indexed → ∀ (i : Nat) (row : TimelineRow),
      t.rows[i]? = some row → row.id ≠ replyRow → (f t).rows[i]? = some row) (other : String)
    (i : Nat) (row : TimelineRow) (hrow : (s.timeline other).rows[i]? = some row)
    (hforeign : minted row.id ≠ some turnId) :
    ((s.updateTimeline threadId f).timeline other).rows[i]? = some row := by
  rw [timeline_updateTimeline]
  split
  · exact hf _ (h.indexed other) i row hrow fun heq => hforeign (heq ▸ hmine)
  · exact hrow

/-- The end of a turn changes nothing of another if and only if it is the turn of the
entry that is found. -/
theorem Tied.confined_endTurn (h : s.Tied minted) (hturn : turn ∈ s.activeTurns)
    (threadId : String) (notice : Option TimelineRow) :
    s.Confined minted (s.endTurn threadId turn notice) turnId ↔
      minted turn.replyRowId = some turnId := by
  constructor
  · intro hconfined
    by_contra hforeign
    -- the entry was among those of other turns, and is gone
    have hmem : turn ∈ s.activeTurns.filter fun t => minted t.replyRowId ≠ some turnId :=
      List.mem_filter.2 ⟨hturn, decide_eq_true hforeign⟩
    rw [← hconfined.entries] at hmem
    have hgone := (List.mem_filter.1 (List.mem_filter.1 hmem).1).2
    simp at hgone
  · intro hmine
    refine ⟨?_, fun other i row hrow hforeign => ?_⟩
    · change (s.activeTurns.filter _).filter _ = _
      rw [List.filter_filter]
      refine List.filter_congr fun t _ => ?_
      by_cases hrow : t.replyRowId = turn.replyRowId
      · simp [hrow, hmine]
      · simp [hrow]
    · refine h.confined_update (f := fun t => notice.elim
        (t.finishStreaming turn.replyRowId) (t.finishStreaming turn.replyRowId).appendRow) hmine
        (fun t ht i row hrow hne => ?_) other i row hrow hforeign
      have hfinish := ht.getElem?_rows_modify (fun row => { row with streaming := false }) hrow hne
      cases notice with
      | none => exact hfinish
      | some notice =>
        change ((t.finishStreaming turn.replyRowId).appendRow notice).rows[i]? = _
        rw [TimelineStore.rows_appendRow, List.getElem?_append_left]
        · exact hfinish
        · exact (List.getElem?_eq_some_iff.1 hfinish).1

/-- A delta changes nothing of another turn if and only if it is for the entry that is
found. -/
theorem Tied.confined_delta (h : s.Tied minted) (hturn : turn ∈ s.activeTurns) (htext : text ≠ "") :
    s.Confined minted (s.updateTimeline turn.threadId (·.appendDelta turn.replyRowId text)) turnId ↔
      minted turn.replyRowId = some turnId := by
  constructor
  · intro hconfined
    by_contra hforeign
    obtain ⟨i, row, hrow, hid, hchanged⟩ := (h.indexed turn.threadId).exists_rows_modify
      (fun row => { row with text := row.text ++ text }) (h.shown turn hturn)
    have hsame := hconfined.rows turn.threadId i row hrow (hid ▸ hforeign)
    rw [timeline_updateTimeline, if_pos rfl] at hsame
    have htexts := congrArg TimelineRow.text (Option.some.inj (hchanged.symm.trans hsame))
    have hlengths := congrArg String.length htexts
    rw [String.length_append] at hlengths
    exact htext (String.length_eq_zero_iff.1 (by omega))
  · intro hmine
    exact ⟨rfl, h.confined_update hmine fun t ht i row hrow hne =>
      ht.getElem?_rows_modify (fun row => { row with text := row.text ++ text }) hrow hne⟩

/-- An event of a turn, as it reaches the timelines and the entries. -/
theorem Tied.confined_route (h : s.Tied minted) (hturn : event.turnId = some turnId)
    (hbody : event.body.IsTurnEvent) : s.Confined minted (s.route event) turnId ↔
      (event.body ≠ .messageDelta "" → ∀ t,
        s.turnForEvent (s.targetThreadId event) (some turnId) = some t → t.turnId = none →
          minted t.replyRowId = some turnId) := by
  cases hfind : s.turnForEvent (s.targetThreadId event) (some turnId) with
  | none =>
    have hsame : s.route event = s := by
      unfold route
      dsimp only
      rw [hturn, hfind]
      cases hkind : event.body <;> rw [hkind] at hbody <;> first | rfl | exact absurd hbody id
    rw [hsame]
    exact ⟨fun _ _ t ht => absurd ht (Option.some_ne_none t).symm, fun _ => .refl s turnId⟩
  | some turn =>
    obtain ⟨hmem, hthread, hid⟩ := turnForEvent_some hfind
    have hown : (∀ t, some turn = some t → t.turnId = none →
        minted t.replyRowId = some turnId) ↔ minted turn.replyRowId = some turnId := by
      constructor
      · exact fun hall => hid.elim (hall turn rfl) (h.named turn hmem turnId)
      · rintro hmine t ⟨⟩ -
        exact hmine
    rw [hown]
    have hends (notice : Option TimelineRow) :
        s.Confined minted (s.endTurn (s.targetThreadId event) turn notice) turnId ↔
          minted turn.replyRowId = some turnId := h.confined_endTurn hmem _ notice
    unfold route
    dsimp only
    rw [hturn, hfind]
    cases hkind : event.body with
    | messageDelta text =>
      by_cases htext : text = ""
      · rw [htext]
        exact ⟨fun _ hne => absurd rfl hne, fun _ => .refl s turnId⟩
      · have hne : StoreBody.messageDelta text ≠ .messageDelta "" := fun heq =>
          htext (StoreBody.messageDelta.inj heq)
        rw [forall_prop_of_true hne]
        dsimp only
        rw [if_neg htext, ← hthread]
        exact h.confined_delta hmem htext
    | turnCompleted => exact (hends none).trans ⟨fun h _ => h, fun h => h fun heq => by cases heq⟩
    | turnFailed reason =>
      exact (hends _).trans ⟨fun h _ => h, fun h => h fun heq => by cases heq⟩
    | turnCancelled reason =>
      exact (hends _).trans ⟨fun h _ => h, fun h => h fun heq => by cases heq⟩
    | _ =>
      rw [hkind] at hbody
      exact absurd hbody id

theorem Tied.confines_iff (h : s.Tied minted) (i : Storing) :
    Confines minted s i ↔ FindsOwn minted s i := by
  cases i with
  | event event =>
    refine forall_congr' fun turnId => forall_congr' fun hturn => forall_congr' fun hbody => ?_
    have hgreet : s.greet event = s := greet_of_none <| by
      cases hkind : event.body <;> rw [hkind] at hbody <;> first | rfl | exact absurd hbody id
    change Confined minted s (s.handleIncomingEvent event) turnId ↔ _
    unfold handleIncomingEvent
    rw [hgreet]
    by_cases hduplicate : s.IsDuplicate event
    · simp only [if_pos hduplicate]
      exact ⟨fun _ hnew => absurd hduplicate hnew, fun _ => .refl s turnId⟩
    · simp only [if_neg hduplicate]
      have hrecorded : (s.recordEvent event).Tied minted := h.quiet (.of_frame rfl rfl rfl rfl)
      have hroute := hrecorded.confined_route hturn hbody
      exact ⟨fun h _ => hroute.1 ⟨h.entries, h.rows⟩, fun h =>
        ⟨(hroute.2 (h hduplicate)).entries, (hroute.2 (h hduplicate)).rows⟩⟩
  | _ => exact Iff.rfl

variable (minted)

/-- Every event of a turn changes nothing of another turn if and only if none finds the
entry of another that waits for its identifier. -/
theorem confines_iff_findsOwn (inputs : List Storing) (htold : ∀ i ∈ inputs, i.Tells minted) :
    machine.Meets (Confines minted) machine.init inputs ↔
      machine.Meets (FindsOwn minted) machine.init inputs := by
  have hinit : machine.init.Tied minted :=
    ⟨rooted_init, fun t ht => absurd ht List.not_mem_nil⟩
  have htells : machine.Meets (fun _ i => i.Tells minted) machine.init inputs :=
    machine.meets_const.2 htold
  refine machine.meets_iff_given ?_ (fun s i _ h => h.confines_iff i) hinit htells
  exact fun s i hi h _ => h.step hi

/-! ### An event that comes late -/

/-- The turns of two prompts. -/
def sampleMinted (replyRow : String) : Option String :=
  if replyRow = replyRowId 1 then some "trn_1" else some "trn_2"

def sampleEvent (sequence : Nat) (turnId : String) (body : StoreBody) : StoreEvent :=
  ⟨"evt_" ++ toString sequence, some "thr_1", some turnId, sequence, none, body⟩

/-- A prompt whose turn ends after it was answered. -/
def sampleTurn : List Storing :=
  [.create "thr_1", .sendPrompt "Hello" none, .answer (replyRowId 1) (.admitted (some "trn_1")) 0,
    .event (sampleEvent 1 "trn_1" .turnCompleted)]

theorem confines_iff_findsOwn_sample :
    machine.Meets (Confines sampleMinted) machine.init sampleTurn := by
  refine (confines_iff_findsOwn sampleMinted sampleTurn fun i hi => ?_).2
    ⟨trivial, trivial, trivial, ?_, trivial⟩
  · simp only [sampleTurn, List.mem_cons, List.not_mem_nil, or_false] at hi
    rcases hi with rfl | rfl | rfl | rfl <;> first | exact trivial | exact rfl
  · intro turnId hturn _ _ _ t hfind hnone
    cases hturn
    have hall : ∀ t ∈ (machine.run (sampleTurn.take 3)).activeTurns, t.turnId ≠ none := by
      decide
    exact absurd hnone (hall t (turnForEvent_some hfind).1)

/-- A late event of the first turn ends the second, which waits for its identifier. -/
theorem not_confines : ¬ ∀ (minted : String → Option String) (inputs : List Storing),
    (∀ i ∈ inputs, i.Tells minted) → machine.Meets (Confines minted) machine.init inputs := by
  intro h
  have hmeets := h sampleMinted (sampleTurn ++ [.sendPrompt "Again" none,
    .event (sampleEvent 2 "trn_1" (.turnCancelled none))]) fun i hi => by
      simp only [sampleTurn, List.cons_append, List.nil_append, List.mem_cons, List.not_mem_nil,
        or_false] at hi
      rcases hi with rfl | rfl | rfl | rfl | rfl | rfl <;> first | exact trivial | exact rfl
  have hconfined := (machine.meets_append.1 hmeets).2.2.1 "trn_1" rfl trivial
  have hlengths := congrArg List.length hconfined.entries
  revert hlengths
  decide

end ApplicationStore

end Altior.Desktop
