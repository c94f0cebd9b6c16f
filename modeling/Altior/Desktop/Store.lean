import Altior.Desktop.Deduplicator
import Altior.Desktop.Paging

/-!
# The store of the frontend

What the frontend keeps of the event stream, of its conversations and of the turns that
run, and how prompts, answers, events and the recovery from a snapshot change it
(`apps/desktop/src/stores/applicationStore.ts`).  A call that waits for Core is two
steps.
-/

namespace Altior.Desktop

open Lib

inductive StreamStatus
  | idle
  | live
  | replaying
  | ready
deriving DecidableEq, Repr

inductive CancelState
  | requested
  | failed
deriving DecidableEq, Repr

/-- A turn that runs, as far as the frontend knows.  Its identifier comes with the
answer to the prompt. -/
structure ActiveTurnState where
  turnId : Option String
  threadId : String
  userRowId : String
  replyRowId : String
  isStreaming : Bool
  cancelState : Option CancelState
  notice : Option String
deriving DecidableEq, Repr

/-- The body of an event as the frontend reads it. -/
inductive StoreBody
  | turnStarted
  | messageDelta (text : String)
  | permissionRequested (permissionKind description : String)
  | permissionDecided (decision : String)
  | turnCompleted
  | turnFailed (reason : String)
  | turnCancelled (reason : Option String)
  | streamGap
  | streamReplayed
  | streamReady
  | coreGreeting (instanceId : Option String)
  | coreRestarted (instanceId : Option String)
  | commandError (code message : String)
  | other (kind : String)
deriving DecidableEq, Repr

def StoreBody.kind : StoreBody → String
  | turnStarted => "turn.started"
  | messageDelta _ => "message.delta"
  | permissionRequested _ _ => "permission.requested"
  | permissionDecided _ => "permission.decided"
  | turnCompleted => "turn.completed"
  | turnFailed _ => "turn.failed"
  | turnCancelled _ => "turn.cancelled"
  | streamGap => "stream.gap"
  | streamReplayed => "stream.replayed"
  | streamReady => "stream.ready"
  | coreGreeting _ => "core.greeting"
  | coreRestarted _ => "core.restarted"
  | commandError _ _ => "command.error"
  | other kind => kind

/-- The launch of Core that an event speaks of. -/
def StoreBody.incomingEpoch : StoreBody → Option String
  | coreGreeting instanceId | coreRestarted instanceId => instanceId
  | _ => none

/-- An event as the frontend reads it. -/
structure StoreEvent where
  eventId : String
  threadId : Option String
  turnId : Option String
  sequence : Nat
  diagnostic : Option String
  body : StoreBody
deriving DecidableEq, Repr

structure StreamLogLine where
  sequence : Nat
  label : String
  diagnostic : Option String
  eventId : String
deriving DecidableEq, Repr

def maxStreamLog : Nat := 50

/-- How far the recovery from a snapshot is: what it waits for. -/
inductive Recovery
  | idle
  | list
  | history (threadId : String)
  | snapshot (threadId : String)
deriving DecidableEq, Repr

structure PendingPermission where
  eventId : String
  description : String
  kind : String
  decision : String
deriving DecidableEq, Repr

/-- A snapshot of a thread, without its profile and titles. -/
structure ThreadSnapshot where
  threadId : String
  turns : List TurnSummary
  pendingPermissions : List PendingPermission
deriving DecidableEq, Repr

/-- The store.  Of the views of threads only the identifiers are kept, and `prompts` has
the reply row and the thread of every prompt that is not answered. -/
structure ApplicationStore where
  seenEventIds : BoundedIdSet
  sequenceTracker : EpochSequenceTracker
  coreInstanceId : Option String
  lastSequence : Nat
  streamState : StreamStatus
  streamLog : List StreamLogLine
  error : Option String
  threadViews : List String
  selectedThreadId : String
  selectedThread : Option String
  views : Table String ThreadView
  activeTurns : List ActiveTurnState
  rowCounter : Nat
  prompts : List (String × String)
  recovery : Recovery
  recoveryQueued : Bool

/-- What a prompt is answered with. -/
inductive PromptAnswer
  | admitted (turnId : Option String)
  | failed (indeterminate : Bool) (reason : String)
deriving DecidableEq, Repr

/-- What a request of the recovery is answered with, if it is not refused.  An answer
without data is `none`. -/
inductive RecoveryAnswer
  | refused
  | threads (threadIds : Option (List String))
  | history (answer : Option ThreadHistoryResponse)
  | snapshot (snapshot : Option ThreadSnapshot)

namespace ApplicationStore

def new : ApplicationStore :=
  { seenEventIds := .new 4096, sequenceTracker := .new 2048, coreInstanceId := none
    lastSequence := 0, streamState := .idle, streamLog := [], error := none, threadViews := []
    selectedThreadId := "", selectedThread := none, views := ∅, activeTurns := []
    rowCounter := 0, prompts := [], recovery := .idle, recoveryQueued := false }

/-! ## Timelines -/

/-- A thread as it is shown; nothing is, before it is asked for. -/
def view (s : ApplicationStore) (threadId : String) : ThreadView := s.views[threadId]?.getD .new

def timeline (s : ApplicationStore) (threadId : String) : TimelineStore := (s.view threadId).timeline

def updateView (s : ApplicationStore) (threadId : String) (f : ThreadView → ThreadView) :
    ApplicationStore :=
  { s with views := s.views.insert threadId (f (s.view threadId)) }

def updateTimeline (s : ApplicationStore) (threadId : String) (f : TimelineStore → TimelineStore) :
    ApplicationStore :=
  s.updateView threadId fun v => { v with timeline := f v.timeline }

/-! ## Events -/

/-- `triggerSnapshotRecovery`, until it waits for the list of threads. -/
def triggerSnapshotRecovery (s : ApplicationStore) : ApplicationStore :=
  if s.recovery = .idle then { s with recovery := .list } else { s with recoveryQueued := true }

/-- An event of another launch of Core starts the sequences anew. -/
def greet (s : ApplicationStore) (event : StoreEvent) : ApplicationStore :=
  match event.body.incomingEpoch with
  | some epoch =>
    if epoch ≠ "" ∧ s.sequenceTracker.currentEpoch ≠ some epoch then
      { s with
        sequenceTracker := s.sequenceTracker.transitionEpoch epoch
        coreInstanceId := some epoch
        lastSequence := 0 }.triggerSnapshotRecovery
    else s
  | none => s

/-- Whether an event is taken for one that was seen. -/
def IsDuplicate (s : ApplicationStore) (event : StoreEvent) : Prop :=
  s.seenEventIds.has event.eventId ∨
    s.sequenceTracker.isDuplicate event.sequence event.body.incomingEpoch = true

instance (s : ApplicationStore) (event : StoreEvent) : Decidable (s.IsDuplicate event) :=
  inferInstanceAs (Decidable (_ ∨ _))

/-- An event is noted in the stream. -/
def recordEvent (s : ApplicationStore) (event : StoreEvent) : ApplicationStore :=
  let log := s.streamLog ++ [⟨event.sequence, event.body.kind, event.diagnostic, event.eventId⟩]
  { s with
    seenEventIds := s.seenEventIds.add event.eventId
    sequenceTracker := s.sequenceTracker.record event.sequence event.body.incomingEpoch
    lastSequence := max s.lastSequence event.sequence
    streamLog := log.drop (log.length - maxStreamLog)
    streamState :=
      match event.body with
      | .streamReplayed => .replaying
      | .streamReady => .ready
      | _ => if s.streamState = .replaying ∨ s.streamState = .ready then .live else s.streamState }

/-- The thread an event is about. -/
def targetThreadId (s : ApplicationStore) (event : StoreEvent) : String :=
  event.threadId.getD s.selectedThreadId

/-- The turn an event is taken to be about.  An identifier that is missing on either
side fits. -/
def turnForEvent (s : ApplicationStore) (threadId : String) (turnId : Option String) :
    Option ActiveTurnState :=
  s.activeTurns.find? fun t =>
    t.threadId = threadId && (t.turnId.isNone || turnId.isNone || t.turnId = turnId)

/-- The turn runs no more. -/
def clearTurn (s : ApplicationStore) (turn : ActiveTurnState) : ApplicationStore :=
  { s with activeTurns := s.activeTurns.filter fun t => t.replyRowId ≠ turn.replyRowId }

def errorRow (id text : String) : TimelineRow := ⟨id, .error, text, none, false⟩

/-- A turn ends, with a row that says why unless it completed. -/
def endTurn (s : ApplicationStore) (threadId : String) (turn : ActiveTurnState)
    (notice : Option TimelineRow) : ApplicationStore :=
  (s.updateTimeline threadId fun t =>
    notice.elim (t.finishStreaming turn.replyRowId) (t.finishStreaming turn.replyRowId).appendRow)
      |>.clearTurn turn

/-- An event reaches the timeline of its thread and its turn. -/
def route (s : ApplicationStore) (event : StoreEvent) : ApplicationStore :=
  let threadId := s.targetThreadId event
  let turn := s.turnForEvent threadId event.turnId
  match event.body with
  | .turnStarted =>
    { s with activeTurns := s.activeTurns.map fun t =>
        if some t = turn then { t with isStreaming := true } else t }
  | .messageDelta text =>
    match turn with
    | some t =>
      if text = "" then s else s.updateTimeline threadId (·.appendDelta t.replyRowId text)
    | none => s
  | .permissionRequested kind description =>
    s.updateTimeline threadId (·.appendRow (permissionRow event.eventId kind description none))
  | .permissionDecided decision =>
    if ((s.timeline threadId).getRow event.eventId).any (·.permission.isSome) then
      s.updateTimeline threadId (·.setPermissionDecision event.eventId decision)
    else s
  | .turnCompleted => turn.elim s fun t => s.endTurn threadId t none
  | .turnFailed reason => turn.elim s fun t => s.endTurn threadId t (some
      (errorRow ("fail-" ++ toString event.sequence) (if reason = "" then "Turn failed" else reason)))
  | .turnCancelled reason => turn.elim s fun t => s.endTurn threadId t (some
      (errorRow ("cancel-" ++ toString event.sequence)
        ((reason.or event.diagnostic).getD "turn cancelled by user")))
  | .streamGap | .coreGreeting _ | .coreRestarted _ => s.triggerSnapshotRecovery
  | .commandError code message => { s with error := some ("[" ++ code ++ "] " ++ message) }
  | .streamReplayed | .streamReady | .other _ => s

def handleIncomingEvent (s : ApplicationStore) (event : StoreEvent) : ApplicationStore :=
  let s := s.greet event
  if s.IsDuplicate event then s else (s.recordEvent event).route event

section Events

variable {s : ApplicationStore} {event : StoreEvent}

/-- What is known of the stream. -/
def stream (s : ApplicationStore) : BoundedIdSet × EpochSequenceTracker × Nat :=
  (s.seenEventIds, s.sequenceTracker, s.lastSequence)

@[simp] theorem stream_triggerSnapshotRecovery : s.triggerSnapshotRecovery.stream = s.stream := by
  unfold triggerSnapshotRecovery
  split <;> rfl

/-- Only taking an event changes what is known of the stream. -/
theorem stream_route : (s.route event).stream = s.stream := by
  unfold route
  dsimp only
  cases event.body with
  | messageDelta text =>
    dsimp only
    split
    · split <;> rfl
    · rfl
  | permissionDecided decision =>
    dsimp only
    split <;> rfl
  | turnCompleted | turnFailed | turnCancelled =>
    dsimp only
    cases s.turnForEvent (s.targetThreadId event) event.turnId <;> rfl
  | streamGap | coreGreeting | coreRestarted => exact stream_triggerSnapshotRecovery
  | _ => rfl

/-- An event that speaks of no launch. -/
theorem greet_of_none (h : event.body.incomingEpoch = none) : s.greet event = s := by
  rw [greet, h]

/-- What taking such an event does to what is known of the stream. -/
theorem stream_handleIncomingEvent (h : event.body.incomingEpoch = none) :
    (s.handleIncomingEvent event).stream =
      if s.IsDuplicate event then s.stream
      else (s.seenEventIds.add event.eventId, s.sequenceTracker.recordCurrent event.sequence,
        max s.lastSequence event.sequence) := by
  rw [handleIncomingEvent, greet_of_none h]
  split
  · rfl
  · rw [stream_route]
    simp only [stream, recordEvent, EpochSequenceTracker.record, h]

end Events

/-! ## Recovery -/

/-- The list of threads was answered. -/
def applyListPage (s : ApplicationStore) (threadIds : Option (List String)) : ApplicationStore :=
  match threadIds with
  | none => s
  | some ids =>
    let views := s.threadViews ++ ids
    let selected := if s.selectedThreadId = "" then ids.head?.getD "" else s.selectedThreadId
    { s with
      threadViews := views
      selectedThreadId := selected
      selectedThread :=
        if selected = "" then none else if selected ∈ views then some selected else s.selectedThread }

/-- A snapshot shows the permissions that are pending. -/
def applyThreadSnapshot (s : ApplicationStore) (threadId : String) (snapshot : ThreadSnapshot) :
    ApplicationStore :=
  { s.updateTimeline threadId fun t => (snapshot.pendingPermissions.map fun p =>
      permissionRow p.eventId p.kind p.description (knownDecision p.decision)).foldl
        TimelineStore.appendMissing t with
    threadViews := s.threadViews ++ [snapshot.threadId]
    selectedThread :=
      if s.selectedThreadId = snapshot.threadId then some snapshot.threadId else s.selectedThread }

/-- The recovery is over, unless another was asked for. -/
def finishRecovery (s : ApplicationStore) : ApplicationStore :=
  if s.recoveryQueued then { s with recovery := .list, recoveryQueued := false }
  else { s with recovery := .idle }

/-- The recovery goes on with an answer. -/
def recover (s : ApplicationStore) (answer : RecoveryAnswer) : ApplicationStore :=
  match s.recovery, answer with
  | .list, .refused => s.finishRecovery
  | .list, .threads threadIds =>
    let s := s.applyListPage threadIds
    if s.selectedThreadId = "" then s.finishRecovery
    else { s with recovery := .history s.selectedThreadId }
  | .history threadId, .refused => { s with recovery := .snapshot threadId }
  | .history threadId, .history answer =>
    { s.updateView threadId (·.getHistory none answer) with recovery := .snapshot threadId }
  | .snapshot _, .refused => s.finishRecovery
  | .snapshot _, .snapshot none => s.finishRecovery
  | .snapshot threadId, .snapshot (some snapshot) =>
    (s.applyThreadSnapshot threadId snapshot).finishRecovery
  | _, _ => s

/-! ## Prompts -/

/-- The thread is not open. -/
def NotOpen (s : ApplicationStore) (threadId : String) : Prop :=
  threadId = "" ∨
    if threadId = s.selectedThreadId then s.selectedThread = none else threadId ∉ s.threadViews

instance (s : ApplicationStore) (threadId : String) : Decidable (s.NotOpen threadId) :=
  inferInstanceAs (Decidable (_ ∨ _))

def userRowId (n : Nat) : String := "send-" ++ toString n

def replyRowId (n : Nat) : String := userRowId n ++ "-reply"

theorem toString_inj {m n : Nat} (h : toString m = toString n) : m = n := by
  have hdigits := congrArg String.toList h
  simp only [Nat.toString_eq_ofList_toDigits, String.toList_ofList] at hdigits
  rw [← Nat.ofDigitChars_toDigits (b := 10) (n := m) (by decide) (by decide), hdigits,
    Nat.ofDigitChars_toDigits (by decide) (by decide)]

theorem userRowId_inj {m n : Nat} (h : userRowId m = userRowId n) : m = n := by
  have hchars := congrArg String.toList h
  simp only [userRowId, String.toList_append] at hchars
  exact toString_inj (String.toList_injective (List.append_cancel_left hchars))

theorem replyRowId_inj {m n : Nat} (h : replyRowId m = replyRowId n) : m = n := by
  have hchars := congrArg String.toList h
  simp only [replyRowId, String.toList_append] at hchars
  exact userRowId_inj (String.toList_injective (List.append_cancel_right hchars))

/-- `sendPrompt` with a text without white space around it, until it waits for Core. -/
def sendPrompt (s : ApplicationStore) (text : String) (threadId : Option String) :
    ApplicationStore :=
  if text = "" then s
  else
    let threadId := threadId.getD s.selectedThreadId
    if s.NotOpen threadId then
      { s with error := some "Open a conversation before sending a prompt" }
    else if s.activeTurns.any (·.threadId = threadId) then s
    else
      let n := s.rowCounter + 1
      { s.updateTimeline threadId fun t => (t.appendRow (userRow (userRowId n) text)).appendRow
          { assistantRow (replyRowId n) "" with streaming := true } with
        rowCounter := n
        activeTurns := s.activeTurns ++ [⟨none, threadId, userRowId n, replyRowId n, true, none, none⟩]
        prompts := s.prompts ++ [(replyRowId n, threadId)] }

def undelivered (indeterminate : Bool) (reason : String) : String :=
  if indeterminate then
    "Delivery indeterminate: the connection dropped during dispatch — the prompt may still be " ++
      "running. Check history before resending. (" ++ reason ++ ")"
  else "Prompt not delivered: " ++ reason

/-- A prompt is answered. -/
def answerPrompt (s : ApplicationStore) (replyRow : String) (answer : PromptAnswer) (now : Nat) :
    ApplicationStore :=
  match s.prompts.find? fun p => p.1 = replyRow with
  | none => s
  | some (_, threadId) =>
    let s := { s with prompts := s.prompts.filter fun p => p.1 ≠ replyRow }
    match answer with
    | .admitted turnId =>
      { s with activeTurns := s.activeTurns.map fun t =>
          if t.replyRowId = replyRow ∧ t.threadId = threadId then { t with turnId := turnId }
          else t }
    | .failed indeterminate reason =>
      { s.updateTimeline threadId fun t => (t.finishStreaming replyRow).appendRow
          (errorRow ("fail-" ++ toString now) (undelivered indeterminate reason)) with
        activeTurns := s.activeTurns.filter fun t => t.replyRowId ≠ replyRow }

/-- `cancelActiveTurn`, until it waits for Core. -/
def cancelActiveTurn (s : ApplicationStore) (threadId : Option String) : ApplicationStore :=
  let threadId := threadId.getD s.selectedThreadId
  match s.activeTurns.find? fun t => t.threadId = threadId with
  | none => s
  | some active =>
    if active.cancelState = some .requested then s
    else { s with activeTurns := s.activeTurns.map fun t =>
      if t.replyRowId = active.replyRowId then { t with cancelState := some .requested } else t }

/-- A cancellation was refused. -/
def cancelFailed (s : ApplicationStore) (replyRow reason : String) : ApplicationStore :=
  { s with
    activeTurns := s.activeTurns.map fun t =>
      if t.replyRowId = replyRow then
        { t with cancelState := some .failed, notice := some ("cancel_failed:" ++ reason) }
      else t
    error := some ("Cancel request failed: " ++ reason) }

/-! ## Permissions and selection -/

/-- `decidePermission`, until it waits for Core. -/
def decidePermission (s : ApplicationStore) (rowId : String) : ApplicationStore :=
  match ((s.timeline s.selectedThreadId).getRow rowId).bind TimelineRow.permission with
  | none => s
  | some request =>
    if request.submission = some .submitting ∨ request.decision.isSome then s
    else s.updateTimeline s.selectedThreadId (·.setPermissionSubmission rowId (some .submitting))

/-- A decision was taken by Core, or refused. -/
def permissionAnswered (s : ApplicationStore) (threadId rowId : String) (decision : Except String String) :
    ApplicationStore :=
  match decision with
  | .ok decision => s.updateTimeline threadId (·.setPermissionDecision rowId decision)
  | .error reason =>
    { s.updateTimeline threadId (·.setPermissionSubmission rowId (some .failed)) with
      error := some ("Permission response failed: " ++ reason) }

/-- `selectThread`, until it waits for Core. -/
def selectThread (s : ApplicationStore) (threadId : String) : ApplicationStore :=
  { s with
    selectedThreadId := threadId
    selectedThread := if threadId ∈ s.threadViews then some threadId else none }

/-- A thread was created, and is selected. -/
def createThread (s : ApplicationStore) (threadId : String) : ApplicationStore :=
  { s with
    threadViews := s.threadViews ++ [threadId]
    selectedThreadId := threadId
    selectedThread := some threadId }

end ApplicationStore

/-! ## Steps -/

/-- What may happen to a store. -/
inductive Storing
  | list (threadIds : Option (List String))
  | create (threadId : String)
  | select (threadId : String)
  | sendPrompt (text : String) (threadId : Option String)
  | answer (replyRow : String) (answer : PromptAnswer) (now : Nat)
  | cancel (threadId : Option String)
  | cancelFailed (replyRow reason : String)
  | decide (rowId : String)
  | decided (threadId rowId : String) (decision : Except String String)
  | history (threadId : String) (answer : Option ThreadHistoryResponse)
  | older (threadId : String) (answer : Option ThreadHistoryResponse)
  | snapshot (threadId : String) (snapshot : ThreadSnapshot)
  | event (event : StoreEvent)
  | recover (answer : RecoveryAnswer)

namespace ApplicationStore

/-- One step. -/
def step (s : ApplicationStore) : Storing → ApplicationStore
  | .list threadIds => s.applyListPage threadIds
  | .create threadId => s.createThread threadId
  | .select threadId => s.selectThread threadId
  | .sendPrompt text threadId => s.sendPrompt text threadId
  | .answer replyRow answer now => s.answerPrompt replyRow answer now
  | .cancel threadId => s.cancelActiveTurn threadId
  | .cancelFailed replyRow reason => s.cancelFailed replyRow reason
  | .decide rowId => s.decidePermission rowId
  | .decided threadId rowId decision => s.permissionAnswered threadId rowId decision
  | .history threadId answer => s.updateView threadId (·.getHistory none answer)
  | .older threadId answer => s.updateView threadId (·.loadOlderHistory fun _ => answer)
  | .snapshot threadId snapshot => s.applyThreadSnapshot threadId snapshot
  | .event event => s.handleIncomingEvent event
  | .recover answer => s.recover answer

/-- A store over its whole life. -/
def machine : Machine ApplicationStore Storing := ⟨new, step⟩

end ApplicationStore

end Altior.Desktop
