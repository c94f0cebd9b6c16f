import Altior.Application.Boundary
import Altior.Application.Queues

/-!
# Replies

Which commands are answered, and how often.  A command whose reply can be made is
answered with one frame and the connection stays open; a subscriber that misses
nothing is answered with none.
-/

namespace Altior.Application

open Domain Lib Storage Altior.Runtime
open Serving (onApp onShared onSession send)

section Replies

variable [SerdeJsonWriter] {H : Type}

/-! ## Connections that work -/

/-- The connection is open, and none of the next sends fails. -/
def Connection.Takes (c : Connection) : Prop := c.closed = false ∧ ∀ fault ∈ c.faults, fault = false

omit [SerdeJsonWriter] in
theorem Connection.Takes.accepts {c : Connection} (h : c.Takes) : c.accepts = true := by
  obtain ⟨hopen, hfaults⟩ := h
  unfold Connection.accepts
  rw [hopen]
  cases hlist : c.faults with
  | nil => rfl
  | cons fault rest => simp [hfaults fault (by simp [hlist])]

variable {s : DaemonClientSession} {w : Shared H} {operationId : OperationId} {x : Serving H}
  {cmd : CommandEnvelope} {now : UInt64}

omit [SerdeJsonWriter] in
theorem Connection.Takes.sending (h : s.connection.Takes) (frame : Frame) :
    (s.sending frame).connection.Takes :=
  ⟨h.1, fun fault hfault => h.2 fault (List.mem_of_mem_tail hfault)⟩

/-! ## One reply -/

/-- The command is done after one frame that answers it. -/
def Replied (operationId : OperationId) (x : Serving H)
    (o : Outcome (Serving H) CoreAppError Unit) : Prop :=
  ∃ r x', o = ⟨.done (), x', none⟩ ∧ r.isReplyTo operationId = true ∧
    x'.session = x.session.sending r

theorem replied_replyResult (h : s.connection.Takes) (operationId : OperationId)
    (data : Option Json) (now : UInt64) (hfits : fitsResult data = true) :
    Replied operationId ⟨w, s⟩ (replyResult operationId data now ⟨w, s⟩ none) := by
  obtain ⟨r, w', hrun, hr⟩ := replyResult_done (x := ⟨w, s⟩) operationId data now hfits h.accepts
  exact ⟨.reply r, _, hrun, by simp [Frame.isReplyTo, hr], rfl⟩

theorem replied_replyError (h : s.connection.Takes) (operationId : OperationId)
    (code message : String) (now : UInt64) :
    Replied operationId ⟨w, s⟩ (replyError operationId code message now ⟨w, s⟩ none) := by
  unfold replyError Serving.onApp Serving.onShared Shared.onApp makeCommandErrorEvent nextEventId
  simp only [Proc.bind_run, Proc.zoom, Proc.get_run, Proc.modify_run, Proc.pure_run]
  rw [send_done h.accepts]
  exact ⟨_, _, rfl, by simp [Frame.isReplyTo], rfl⟩

theorem replied_replySnapshot (h : s.connection.Takes) (operationId : OperationId) {data : Json}
    (now : UInt64) (hfits : fits data = true) :
    Replied operationId ⟨w, s⟩ (replySnapshot operationId data now ⟨w, s⟩ none) := by
  unfold replySnapshot boundedPayload
  rw [if_pos hfits, Proc.bind_run]
  simp only [Proc.ofExcept_run, Ending.ofExcept_ok]
  rw [send_done h.accepts]
  exact ⟨_, _, rfl, by simp [Frame.isReplyTo], rfl⟩

/-- What comes before a reply does not change how it goes, if it leaves the session
alone. -/
theorem Replied.after {α : Type} {m : Proc (Serving H) CoreAppError α}
    {f : α → Proc (Serving H) CoreAppError Unit} {x' : Serving H} {a : α}
    (hm : m x none = ⟨.done a, x', none⟩) (hsession : x'.session = x.session)
    (hf : Replied operationId x' (f a x' none)) :
    Replied operationId x ((m >>= f : Proc (Serving H) CoreAppError Unit) x none) := by
  obtain ⟨r, y, hrun, hr, hy⟩ := hf
  exact ⟨r, y, (Proc.bind_run_done x none hm).trans hrun, hr, hsession ▸ hy⟩

theorem replied_handleRuntimeStatus (h : x.session.connection.Takes) (operationId : OperationId)
    (now : UInt64) : Replied operationId x (handleRuntimeStatus operationId now x none) := by
  unfold handleRuntimeStatus Serving.onApp Serving.onShared Shared.onApp nextEventId
  simp only [Proc.bind_run, Proc.zoom, Proc.get_run, Proc.modify_run, Proc.pure_run]
  rw [send_done h.accepts]
  exact ⟨_, _, rfl, by simp [Frame.isReplyTo], rfl⟩

section Answer

variable [ErrorText] [ProtocolText]

/-- A handler answers with what it has, or with its failure. -/
theorem replied_answer {α : Type} (h : x.session.connection.Takes) (operationId : OperationId)
    (code : String) {closure : Proc (Serving H) CoreAppError α}
    {reply : α → Proc (Serving H) CoreAppError Unit} (now : UInt64) (hends : Proc.Ends closure)
    (hfixes : Proc.Fixes Serving.session closure)
    (hreply : ∀ a x', closure x none = ⟨.done a, x', none⟩ → x'.session = x.session →
      Replied operationId x' (reply a x' none)) :
    Replied operationId x (answer operationId code closure reply now x none) := by
  have hsession := hfixes x none
  unfold answer
  rcases hends.cases x with ⟨a, x', hrun⟩ | ⟨err, x', hrun⟩
  · rw [hrun] at hsession
    exact .after (Proc.attempt_run_done _ _ hrun) hsession (hreply a x' hrun hsession)
  · rw [hrun] at hsession
    exact .after (Proc.attempt_run_failed _ _ hrun) hsession
      (replied_replyError (hsession ▸ h) operationId code _ now)

end Answer

/-- A computation of the application that is done leaves the session alone. -/
theorem onApp_done {α : Type} {m : Proc (CoreApplication H) CoreAppError α} {a : α}
    {app : CoreApplication H} (h : m x.shared.app none = ⟨.done a, app, none⟩) :
    onApp m x none = ⟨.done a, ⟨{ x.shared with app := app }, x.session⟩, none⟩ := by
  unfold Serving.onApp Serving.onShared Shared.onApp Proc.zoom
  simp only [h]

/-! ## Control commands -/

section Control

variable [HarnessRuntimePort H] [DefaultHasher] [ErrorText]

/-- The reply to a control command can be made: its result is within the bound of a
payload, and the application neither fails to cancel a turn nor to submit a
decision. -/
def AnswersControl (now : UInt64) (cmd : CommandEnvelope) (x : Serving H) : Prop :=
  match cmd.command with
  | .cancel payload => ∀ cancelled, fits (cancelData cancelled (cancelTarget payload)) = true
  | .cancelTurn (.ok c) => ∃ outcome app,
      cancelTurn cmd.operationId c.threadId now x.shared.app none = ⟨.done outcome, app, none⟩ ∧
        fits (cancelTurnData outcome c.threadId) = true
  | .respondPermission (.ok p) => ∀ decision threadId, decisionOfText p.decision = some decision →
      findThreadForPermission x.shared.app p.eventId = some threadId → ∃ app,
        decidePermission cmd.operationId threadId p.eventId decision now x.shared.app none =
          ⟨.done (), app, none⟩
  | _ => True

theorem done_cancelFirst (operationId : OperationId) (now : UInt64) (threads : List ThreadId)
    (app : CoreApplication H) : ∃ cancelled app',
      cancelFirst operationId now threads app none = ⟨.done cancelled, app', none⟩ := by
  induction threads generalizing app with
  | nil => exact ⟨false, app, rfl⟩
  | cons threadId rest ih =>
    have hattempt := (ends_cancelTurn operationId threadId now).cases app
    unfold cancelFirst
    rw [Proc.bind_run]
    unfold Proc.attempt
    rcases hattempt with ⟨outcome, app', hrun⟩ | ⟨err, app', hrun⟩
    · simp only [hrun]
      cases outcome with
      | cancelledActive => exact ⟨true, app', rfl⟩
      | alreadyCancelling => exact ih app'
      | noActiveTurn => exact ih app'
    · simp only [hrun]
      exact ih app'

/-- A control command whose reply can be made is answered once. -/
theorem replied_executeControlCommand (h : x.session.connection.Takes)
    (hcontrol : isControlCommand cmd.command = true) (hok : AnswersControl now cmd x) :
    Replied cmd.operationId x (executeControlCommand cmd now x none) := by
  obtain ⟨operationId, command⟩ := cmd
  obtain ⟨w, s⟩ := x
  unfold executeControlCommand
  cases command with
  | ping => exact replied_replyResult h _ _ now rfl
  | cancel payload =>
    obtain ⟨cancelled, app', hcancel⟩ := done_cancelFirst operationId now
      (threadIds w.app) w.app
    exact .after (Proc.get_run _ none) rfl
      (.after (onApp_done hcancel) rfl (replied_replyResult h _ (some _) now (hok cancelled)))
  | cancelTurn payload =>
    cases payload with
    | error => exact replied_replyError h _ _ _ now
    | ok c =>
      obtain ⟨outcome, app', hcancel, hfits⟩ := hok
      exact .after (onApp_done hcancel) rfl (replied_replyResult h _ (some _) now hfits)
  | respondPermission payload =>
    cases payload with
    | error => exact replied_replyError h _ _ _ now
    | ok p =>
      dsimp only
      cases hdecision : decisionOfText p.decision with
      | none => exact replied_replyError h _ _ _ now
      | some decision =>
        refine .after (Proc.get_run _ none) rfl ?_
        cases hthread : findThreadForPermission w.app p.eventId with
        | none => exact replied_replyError h _ _ _ now
        | some threadId =>
          obtain ⟨app', hdecide⟩ := hok decision threadId hdecision hthread
          exact .after (onApp_done hdecide) rfl (replied_replyResult h _ _ now rfl)
  | subscribe | createThread | openThread | startTurn | runtimeStatus | snapshotQuery
  | resultQuery => cases hcontrol

end Control

/-! ## Other commands -/

/-- The command is done, the connection still works, and among the frames it was
sent one answers the command, or none if the command is to be passed over. -/
def Served (silent : Bool) (operationId : OperationId) (x : Serving H)
    (o : Outcome (Serving H) CoreAppError Unit) : Prop :=
  ∃ frames x', o = ⟨.done (), x', none⟩ ∧ x'.session.connection.Takes ∧
    x'.session.connection.sent = x.session.connection.sent ++ frames ∧
    x'.session.pendingNormalCommands = x.session.pendingNormalCommands ∧
    frames.countP (Frame.isReplyTo operationId) = if silent then 0 else 1

theorem Replied.served {o : Outcome (Serving H) CoreAppError Unit} (h : Replied operationId x o)
    (hx : x.session.connection.Takes) : Served false operationId x o := by
  obtain ⟨r, x', hrun, hr, hsession⟩ := h
  refine ⟨[r], x', hrun, ?_, ?_, ?_, ?_⟩
  · rw [hsession]
    exact hx.sending r
  · rw [hsession]
    rfl
  · rw [hsession]
    rfl
  · rw [List.countP_cons_of_pos hr]
    rfl

/-- Whether a command is passed over: a subscriber that misses nothing. -/
def isSilent (cmd : CommandEnvelope) (log : EventLog) : Bool :=
  match cmd.command with
  | .subscribe payload =>
    match subscribeSince payload with
    | .ok since =>
      match log.replayAfter since with
      | .upToDate => true
      | _ => false
    | .error _ => false
  | _ => false

omit [SerdeJsonWriter] in
theorem isSilent_of_control {log : EventLog} (h : isControlCommand cmd.command = true) :
    isSilent cmd log = false := by
  unfold isSilent
  split
  · rename_i heq
    rw [heq] at h
    cases h
  · rfl

/-- The subscription is in order: the handshake is done, it is the first one over
this connection, its payload is well formed, the log has numbers left, and no
catch-up that is retained was asked for under the same operation. -/
structure Subscribable (operationId : OperationId) (payload : Option Json) (x : Serving H) :
    Prop where
  selected : x.session.selectedVersion.isNone = false
  first : x.session.subscribed = false
  since : ∃ since, subscribeSince payload = .ok since
  numbers : x.shared.app.log.nextSequence.toNat + 1 ≠ UInt64.size
  fresh : ∀ e ∈ x.shared.app.log.events, (Frame.event e).isReplyTo operationId = false

/-- Replayed envelopes go out in order. -/
theorem sendEvents_done (w : Shared H) (h : s.connection.Takes) (events : List EventEnvelope) :
    ∃ c : Connection,
      sendEvents events ⟨w, s⟩ none = ⟨.done (), ⟨w, { s with connection := c }⟩, none⟩ ∧
        c.Takes ∧ c.sent = s.connection.sent ++ events.map .event := by
  induction events generalizing s with
  | nil => exact ⟨s.connection, rfl, h, (List.append_nil _).symm⟩
  | cons e rest ih =>
    obtain ⟨c, hrun, htakes, hsent⟩ := ih (h.sending (.event e))
    refine ⟨c, ?_, htakes, ?_⟩
    · unfold sendEvents
      exact (Proc.bind_run_done _ none (send_done h.accepts _)).trans hrun
    · rw [hsent]
      simp [DaemonClientSession.sending]

/-- The boundary of a catch-up gets the next number of the log. -/
theorem publishBoundary_done (h : w.app.log.nextSequence.toNat + 1 ≠ UInt64.size)
    (boundary : EventEnvelope) : ∃ w',
      publishBoundary boundary ⟨w, s⟩ none =
        ⟨.done { boundary with sequence := w.app.log.nextSequence }, ⟨w', s⟩, none⟩ := by
  unfold publishBoundary Serving.onShared Shared.onApp sequenceEnvelope Shared.record
  simp only [Proc.bind_run, Proc.zoom, Proc.get_run]
  unfold EventLog.append
  rw [if_neg h]
  exact ⟨_, rfl⟩

omit [SerdeJsonWriter] in
/-- The boundary of a catch-up answers the subscription. -/
theorem isReplyTo_boundary (operationId : OperationId) (eventId : EventId) (now : UInt64)
    {body : KnownEvent} (hbody : (boundaryEnvelope operationId eventId now body).isBoundary = true)
    (sequence : UInt64) : (Frame.event { boundaryEnvelope operationId eventId now body with
      sequence := sequence }).isReplyTo operationId = true := by
  change ((boundaryEnvelope operationId eventId now body).isBoundary && _) = true
  rw [hbody]
  simp [boundaryEnvelope]

/-- The catch-up of a subscription in order. -/
theorem acceptSubscribe_done {payload : Option Json} {since : Option UInt64}
    (hok : Subscribable operationId payload ⟨w, s⟩) (hsince : subscribeSince payload = .ok since)
    (eventId : EventId) (now : UInt64) :
    ∃ delivery w', acceptSubscribe operationId payload eventId now ⟨w, s⟩ none =
        ⟨.done delivery, ⟨w', { s with subscribed := true, subscribedAt := w.appended.length }⟩,
          none⟩ ∧
      match w.app.log.replayAfter since with
      | .replay events => ∃ boundary, delivery = .replay events boundary ∧
          (Frame.event boundary).isReplyTo operationId = true
      | .gap _ => ∃ boundary, delivery = .gap boundary ∧
          (Frame.event boundary).isReplyTo operationId = true
      | .upToDate => delivery = .upToDate := by
  have hselected : s.selectedVersion.isNone = false := hok.selected
  have hfirst : s.subscribed = false := hok.first
  unfold acceptSubscribe Serving.onSession
  simp only [Proc.bind_run, Proc.get_run, hselected, hfirst, Bool.false_eq_true, if_false, hsince,
    Except.mapError, Proc.ofExcept_run, Ending.ofExcept_ok, Proc.zoom, Proc.modify_run]
  cases hplan : w.app.log.replayAfter since with
  | replay events =>
    obtain ⟨w', hrun⟩ := publishBoundary_done (w := w)
      (s := { s with subscribed := true, subscribedAt := w.appended.length }) hok.numbers
      (boundaryEnvelope operationId eventId now (.streamReplayed
        ((events.head?.map EventEnvelope.sequence).getD 1)
        ((events.getLast?.map EventEnvelope.sequence).getD 1)))
    simp only [Proc.bind_run, hrun]
    exact ⟨_, w', rfl, _, rfl, isReplyTo_boundary operationId eventId now rfl _⟩
  | gap firstMissing =>
    obtain ⟨w', hrun⟩ := publishBoundary_done (w := w)
      (s := { s with subscribed := true, subscribedAt := w.appended.length }) hok.numbers
      (boundaryEnvelope operationId eventId now (.streamGap firstMissing))
    simp only [Proc.bind_run, hrun]
    exact ⟨_, w', rfl, _, rfl, isReplyTo_boundary operationId eventId now rfl _⟩
  | upToDate => exact ⟨_, w, rfl, rfl⟩

omit [SerdeJsonWriter] in
/-- What is replayed is retained. -/
theorem mem_events_of_replay {log : EventLog} {since : Option UInt64} {events : List EventEnvelope}
    (h : log.replayAfter since = .replay events) {e : EventEnvelope} (he : e ∈ events) :
    e ∈ log.events := by
  unfold EventLog.replayAfter at h
  split at h
  · split at h
    · cases h
    · split at h
      · cases h
      · cases h
        exact List.mem_of_mem_filter he
  · cases h

/-- A subscription in order is answered by the boundary of its catch-up, if there is
anything to catch up with. -/
theorem served_handleSubscribe (h : x.session.connection.Takes) {payload : Option Json}
    (hok : Subscribable operationId payload x) :
    Served (isSilent ⟨operationId, .subscribe payload⟩ x.shared.app.log) operationId x
      (handleSubscribe operationId payload now x none) := by
  obtain ⟨w, s⟩ := x
  obtain ⟨since, hsince⟩ := hok.since
  have hnext : onApp (nextEventId now) (⟨w, s⟩ : Serving H) none =
      ⟨.done (eventIdOf now w.app.counter),
        ⟨{ w with app := { w.app with counter := w.app.counter + 1 } }, s⟩, none⟩ := rfl
  obtain ⟨delivery, w', haccept, hplan⟩ := acceptSubscribe_done
    (w := { w with app := { w.app with counter := w.app.counter + 1 } }) (s := s)
    ⟨hok.selected, hok.first, hok.since, hok.numbers, hok.fresh⟩ hsince
    (eventIdOf now w.app.counter) now
  -- of the session that has subscribed only these three facts matter
  obtain ⟨s₁, hs₁, htakes₁, hsent₁, hpending₁⟩ : ∃ s₁ : DaemonClientSession,
      { s with subscribed := true, subscribedAt := w.appended.length } = s₁ ∧
        s₁.connection.Takes ∧ s₁.connection.sent = s.connection.sent ∧
        s₁.pendingNormalCommands = s.pendingNormalCommands := ⟨_, rfl, h, rfl, rfl⟩
  rw [hs₁] at haccept
  unfold handleSubscribe
  rw [Proc.bind_run_done _ none hnext, Proc.bind_run_done _ none haccept]
  simp only [isSilent, hsince]
  change match w.app.log.replayAfter since with
    | .replay events => _
    | .gap _ => _
    | .upToDate => _ at hplan
  cases hlog : w.app.log.replayAfter since with
  | replay events =>
    rw [hlog] at hplan
    obtain ⟨boundary, rfl, hreply⟩ := hplan
    obtain ⟨c, hevents, htakes, hsent⟩ := sendEvents_done w' htakes₁ events
    have hold : (events.map Frame.event).countP (Frame.isReplyTo operationId) = 0 := by
      rw [List.countP_eq_zero]
      intro frame hframe
      obtain ⟨e, he, rfl⟩ := List.mem_map.1 hframe
      rw [hok.fresh e (mem_events_of_replay hlog he)]
      exact Bool.false_ne_true
    have hboundary : send (.event boundary) ⟨w', { s₁ with connection := c }⟩ none =
        ⟨.done (), ⟨w', ({ s₁ with connection := c } : DaemonClientSession).sending
          (.event boundary)⟩, none⟩ :=
      send_done (w := w') (s := { s₁ with connection := c }) htakes.accepts (.event boundary)
    refine ⟨events.map .event ++ [.event boundary], ⟨w', { ({ s₁ with connection := c } :
      DaemonClientSession).sending (.event boundary) with state := .subscribed }⟩, ?_,
      htakes.sending (s := { s₁ with connection := c }) (.event boundary), ?_, hpending₁, ?_⟩
    · simp only [Proc.bind_run, hevents, hboundary]
      rfl
    · change c.sent ++ [.event boundary] = _
      rw [hsent, hsent₁, List.append_assoc]
    · rw [List.countP_append, hold, List.countP_cons_of_pos hreply]
      rfl
  | gap firstMissing =>
    rw [hlog] at hplan
    obtain ⟨boundary, rfl, hreply⟩ := hplan
    refine ⟨[.event boundary],
      ⟨w', { s₁.sending (.event boundary) with state := .subscribed }⟩, ?_,
      htakes₁.sending (.event boundary), ?_, hpending₁, ?_⟩
    · simp only [Proc.bind_run, send_done htakes₁.accepts (.event boundary)]
      rfl
    · change s₁.connection.sent ++ [.event boundary] = _
      rw [hsent₁]
    · rw [List.countP_cons_of_pos hreply]
      rfl
  | upToDate =>
    rw [hlog] at hplan
    subst hplan
    exact ⟨[], ⟨w', { s₁ with state := .subscribed }⟩, rfl, htakes₁,
      hsent₁.trans (List.append_nil _).symm, hpending₁, rfl⟩

section Normal

theorem ends_createThread (threadId : ThreadId) (agentProfileId : AgentProfileId)
    (title : Option String) (projectId : Option ProjectId) (now : UInt64) :
    Proc.Ends (createThread (H := H) threadId agentProfileId title projectId now) := by
  refine .bind (.ofExcept _) fun payload => .bind (ends_nextEventId now) fun eventId =>
    .bind (ends_appendDomainEvent _) fun _ => .bind .get fun s => ?_
  split
  · exact .pure _
  · exact .fail _

variable [ErrorText]

theorem ends_openThread [HarnessRuntimePort H] (threadId : ThreadId)
    (binding : Store → Except CoreAppError AcpHarnessBinding) :
    Proc.Ends (openThread (H := H) threadId binding) := by
  have hstable : AppStable (fun _ _ => True) fun _ : CoreApplication H => True :=
    ⟨fun _ _ _ _ => trivial, fun _ _ _ _ => trivial, fun _ _ _ _ _ _ _ => trivial,
      fun _ _ _ _ _ => ⟨fun _ => True, ⟨⟨fun _ _ _ h => h, fun _ _ _ h => h⟩, fun _ _ _ h => h⟩,
        trivial, fun _ h => h⟩⟩
  exact keeps_openThread hstable quiet_anything _ _

variable [ProtocolText] [CoreServices H]

theorem replied_handleSnapshotQuery (h : x.session.connection.Takes) (code : String)
    (query : SnapshotQuery) (operationId : OperationId) (payload : Option Json) (now : UInt64)
    (hok : ∀ dto,
      (CoreServices.snapshotQuery query payload now x.shared.queryState).1 = .ok dto →
        fits dto = true) :
    Replied operationId x (handleSnapshotQuery code query operationId payload now x none) := by
  refine replied_answer h operationId code now (ends_onShared (.act _)) (fixes_session_onShared _)
    fun dto x' hrun hsession => replied_replySnapshot (hsession ▸ h) operationId now (hok dto ?_)
  unfold onQuery Serving.onShared Proc.zoom at hrun
  simp only [Proc.act_run_none] at hrun
  cases hres : (CoreServices.snapshotQuery query payload now x.shared.queryState).1 with
  | ok a =>
    rw [hres] at hrun
    cases hrun
    rfl
  | error err =>
    rw [hres] at hrun
    cases hrun

theorem replied_handleResultQuery (h : x.session.connection.Takes) (code : String)
    (query : ResultQuery) (operationId : OperationId) (payload : Option Json) (now : UInt64)
    (hok : ∀ data,
      (CoreServices.resultQuery query payload now x.shared.queryState).1 = .ok data →
        fitsResult data = true) :
    Replied operationId x (handleResultQuery code query operationId payload now x none) := by
  refine replied_answer h operationId code now (ends_onShared (.act _)) (fixes_session_onShared _)
    fun data x' hrun hsession => replied_replyResult (hsession ▸ h) operationId data now (hok data ?_)
  unfold onQuery Serving.onShared Proc.zoom at hrun
  simp only [Proc.act_run_none] at hrun
  cases hres : (CoreServices.resultQuery query payload now x.shared.queryState).1 with
  | ok a =>
    rw [hres] at hrun
    cases hrun
    rfl
  | error err =>
    rw [hres] at hrun
    cases hrun

variable [HarnessRuntimePort H] [DefaultHasher]

/-- The reply to a command can be made: its result is within the bound of a payload,
and a subscription is in order. -/
def AnswersNormal (now : UInt64) (cmd : CommandEnvelope) (x : Serving H) : Prop :=
  match cmd.command with
  | .subscribe payload => Subscribable cmd.operationId payload x
  | .createThread payload => ∀ dto x', createdThread payload now x none = ⟨.done dto, x', none⟩ →
      fits dto = true
  | .openThread payload => ∀ dto x', openedThread payload x none = ⟨.done dto, x', none⟩ →
      fits dto = true
  | .startTurn payload => ∀ started x',
      startTurn cmd.operationId payload now x none = ⟨.done started, x', none⟩ →
        fits (startTurnData started.1 started.2.1) = true
  | .snapshotQuery query payload => ∀ dto,
      (CoreServices.snapshotQuery query payload now x.shared.queryState).1 = .ok dto →
        fits dto = true
  | .resultQuery query payload => ∀ data,
      (CoreServices.resultQuery query payload now x.shared.queryState).1 = .ok data →
        fitsResult data = true
  | _ => True

omit [ProtocolText] in
theorem ends_startTurn (operationId : OperationId) (payload : Except ProtocolError StartTurnCommand)
    (now : UInt64) : Proc.Ends (startTurn (H := H) operationId payload now) := by
  have hrecord (turnId : TurnId) (started : TurnAdmission × Option EventEnvelope) :
      Proc.Ends (recordStart (H := H) turnId started) := by
    unfold recordStart
    split
    · exact .bind (ends_onShared (.modify _)) fun _ => .pure _
    · exact .pure _
  have hprompt (payload : StartTurnCommand) (turnId : TurnId) :=
    ends_onApp (ends_startPromptEnvelope (H := H) operationId payload.threadId turnId
      payload.prompt.asStr now (CoreServices.assembleContext H operationId payload.threadId turnId
        payload.prompt.asStr now))
  refine .bind (.ofExcept _) fun payload => ?_
  dsimp only
  split
  · exact .bind (.pure _) fun _ => .bind (hprompt payload _) fun _ => hrecord _ _
  · exact .bind (ends_allocate _) fun _ => .bind (hprompt payload _) fun _ => hrecord _ _

/-- A command whose reply can be made is answered once; a subscriber that misses
nothing is passed over. -/
theorem served_executeNormalCommand (h : x.session.connection.Takes)
    (hnormal : isControlCommand cmd.command = false) (hok : AnswersNormal now cmd x) :
    Served (isSilent cmd x.shared.app.log) cmd.operationId x
      (executeNormalCommand cmd now x none) := by
  obtain ⟨operationId, command⟩ := cmd
  have hsnapshot {query : SnapshotQuery} {payload : Option Json}
      (hok : AnswersNormal now ⟨operationId, .snapshotQuery query payload⟩ x) (code : String) :=
    (replied_handleSnapshotQuery h code query operationId payload now hok).served h
  have hresult {query : ResultQuery} {payload : Option Json}
      (hok : AnswersNormal now ⟨operationId, .resultQuery query payload⟩ x) (code : String) :=
    (replied_handleResultQuery h code query operationId payload now hok).served h
  cases command with
  | subscribe payload => exact served_handleSubscribe h hok
  | createThread payload =>
    refine (replied_answer h operationId "CREATE_THREAD_FAILED" now ?_ ?_
      fun dto x' hrun hsession => replied_replyResult (hsession ▸ h) operationId (some dto) now
        (hok dto x' hrun)).served h
    · exact .bind (.ofExcept _) fun _ => .bind (ends_allocate _) fun _ =>
        .bind (ends_onApp (ends_createThread _ _ _ _ _)) fun _ => .ofExcept _
    · exact .bind (.ofExcept _) fun _ => .bind (fixes_session_onShared _) fun _ =>
        .bind (fixes_session_onApp _) fun _ => .ofExcept _
  | openThread payload =>
    refine (replied_answer h operationId "OPEN_THREAD_FAILED" now ?_ ?_
      fun dto x' hrun hsession => replied_replySnapshot (hsession ▸ h) operationId now
        (hok dto x' hrun)).served h
    · exact .bind (.ofExcept _) fun _ => .bind (ends_onApp (ends_openThread _ _)) fun _ =>
        .bind .get fun _ => .ofExcept _
    · exact .bind (.ofExcept _) fun _ => .bind (fixes_session_onApp _) fun _ =>
        .bind .get fun _ => .ofExcept _
  | startTurn payload =>
    refine (replied_answer h operationId "START_TURN_FAILED" now ?_ ?_
      fun started x' hrun hsession => ?_).served h
    · exact ends_startTurn operationId payload now
    · exact fixes_session_startTurn operationId payload now
    · obtain ⟨r, y, hreply, hr, hy⟩ := replied_replyResult (w := x'.shared) (hsession ▸ h)
        operationId (some (startTurnData started.1 started.2.1)) now (hok started x' hrun)
      rw [Proc.bind_run_done _ none hreply]
      cases started.2.2 with
      | none => exact ⟨r, y, rfl, hr, hy⟩
      | some envelope => exact ⟨r, _, rfl, hr, hy⟩
  | runtimeStatus => exact (replied_handleRuntimeStatus h operationId now).served h
  | snapshotQuery query payload => cases query <;> exact hsnapshot hok _
  | resultQuery query payload => cases query <;> exact hresult hok _
  | ping | cancel | cancelTurn | respondPermission => cases hnormal

end Normal

/-! ## All commands of a session -/

/-- `Answers exec put commands x frames x'`: executing the commands one after the
other leads from `x` to `x'` and sends `frames`, among those of each command one
that answers it, or none if the command is passed over. -/
inductive Answers (exec : CommandEnvelope → Proc (Serving H) CoreAppError Unit)
    (put : List CommandEnvelope → DaemonClientSession → DaemonClientSession) :
    List CommandEnvelope → Serving H → List Frame → Serving H → Prop
  | /-- No command is left. -/
    nil {x : Serving H} : Answers exec put [] x [] x
  | /-- The next command is answered. -/
    cons {cmd : CommandEnvelope} {rest : List CommandEnvelope} {x x' x'' : Serving H}
      {frames frames' : List Frame} :
      exec cmd { x with session := put rest x.session } none = ⟨.done (), x', none⟩ →
      x'.session.connection.sent = x.session.connection.sent ++ frames →
      frames.countP (Frame.isReplyTo cmd.operationId) =
        (if isSilent cmd x.shared.app.log then 0 else 1) →
      Answers exec put rest
        { x' with shared := { x'.shared with dispatched := x'.shared.dispatched + 1 } } frames' x'' →
      Answers exec put (cmd :: rest) x (frames ++ frames') x''

/-- Commands that can all be answered are all answered, and the connection stays
open. -/
theorem drain_answers (exec : CommandEnvelope → Proc (Serving H) CoreAppError Unit)
    (put : List CommandEnvelope → DaemonClientSession → DaemonClientSession)
    {ok : CommandEnvelope → Serving H → Prop} {commands : List CommandEnvelope}
    (hput : ∀ rest s, (put rest s).connection = s.connection)
    (hexec : ∀ cmd ∈ commands, ∀ x, x.session.connection.Takes → ok cmd x →
      Served (isSilent cmd x.shared.app.log) cmd.operationId x (exec cmd x none))
    (h : x.session.connection.Takes) (hok : DrainMeets exec put ok commands x) :
    ∃ frames x', drain exec put commands x = (x', false) ∧ Answers exec put commands x frames x' ∧
      x'.session.connection.Takes ∧
      x'.session.connection.sent = x.session.connection.sent ++ frames := by
  induction commands generalizing x with
  | nil => exact ⟨[], x, rfl, .nil, h, (List.append_nil _).symm⟩
  | cons cmd rest ih =>
    have hx : ({ x with session := put rest x.session } : Serving H).session.connection.Takes :=
      (hput rest x.session).symm ▸ h
    obtain ⟨frames, x', hrun, htakes, hsent, -, hcount⟩ :=
      hexec cmd (List.mem_cons_self ..) _ hx hok.1
    have hrest := hok.2
    rw [hrun] at hrest
    have hsent' : x'.session.connection.sent = x.session.connection.sent ++ frames := by
      rw [hsent]
      exact congrArg (fun c : Connection => c.sent ++ frames) (hput rest x.session)
    obtain ⟨frames', x'', hdrain, hanswers, htakes', hsent''⟩ :=
      ih (fun c hc => hexec c (List.mem_cons_of_mem cmd hc)) (x := { x' with
        shared := { x'.shared with dispatched := x'.shared.dispatched + 1 } }) htakes hrest
    refine ⟨frames ++ frames', x'', ?_, .cons hrun hsent' hcount hanswers, htakes', ?_⟩
    · unfold drain
      rw [hrun]
      exact hdrain
    · rw [hsent'', ← List.append_assoc, ← hsent']

/-! ## Steps -/

omit [SerdeJsonWriter] in
/-- What a visit makes of the session at an index, after those before it. -/
theorem visit_getElem? {W : Type} {f : W → DaemonClientSession → W × DaemonClientSession × Bool}
    (k : Nat) (w : W) (sessions : List DaemonClientSession) (i : Nat) :
    (visit f k w sessions).2.1[i]? =
      sessions[i]?.map fun s => (f (visit f k w (sessions.take i)).1 s).2.1 := by
  induction sessions generalizing k w i with
  | nil => rfl
  | cons s rest ih =>
    cases i with
    | zero => rfl
    | succ i =>
      change (visit f (k + 1) (f w s).1 rest).2.1[i]? = _
      rw [ih (k + 1) (f w s).1 i]
      rfl

section Step

variable [HarnessRuntimePort H] [DefaultHasher] [ErrorText]

/-- What is shared when the control commands of the session at an index are
executed. -/
def CoreDaemon.beforeControl (d : CoreDaemon H) (now : UInt64) (i : Nat) : Shared H :=
  (visit (serveControl now) 0 d.shared ((d.read now).1.take i)).1

variable [ProtocolText] [CoreServices H]

/-- What is shared when the other commands of the session at an index are
executed. -/
def CoreDaemon.beforeNormal (d : CoreDaemon H) (now : UInt64) (i : Nat) : Shared H :=
  (visit (serveNormal now) 0 (d.control now).1 ((d.control now).2.1.take i)).1

/-- The session at an index, whose frames have been read, can be answered: its
connection works and the reply to each of its commands can be made. -/
structure CoreDaemon.Answerable (d : CoreDaemon H) (now : UInt64) (i : Nat)
    (s : DaemonClientSession) : Prop where
  takes : s.connection.Takes
  control : DrainMeets (fun cmd => executeControlCommand cmd now) putControl
    (fun cmd x => AnswersControl now cmd x) s.pendingControlCommands ⟨d.beforeControl now i, s⟩
  normal : DrainMeets (fun cmd => executeNormalCommand cmd now) putNormal
    (fun cmd x => AnswersNormal now cmd x) s.pendingNormalCommands
    ⟨d.beforeNormal now i, (serveControl now (d.beforeControl now i) s).2.1⟩

/-- The commands of a session that can be answered. -/
theorem CoreDaemon.Answerable.answers {d : CoreDaemon H} {i : Nat} (h : d.Answerable now i s)
    (hsorted : s.Sorted) (hs : (d.read now).1[i]? = some s) : ∃ frames frames' x x',
      Answers (fun cmd => executeControlCommand cmd now) putControl s.pendingControlCommands
        ⟨d.beforeControl now i, s⟩ frames x ∧
      Answers (fun cmd => executeNormalCommand cmd now) putNormal s.pendingNormalCommands
        ⟨d.beforeNormal now i, x.session⟩ frames' x' ∧
      (d.normal now).2.1[i]? = some x'.session ∧ x'.session.connection.closed = false ∧
      x'.session.connection.sent = s.connection.sent ++ frames ++ frames' := by
  have hopen : ¬ s.connection.closed = true := by simp [h.takes.1]
  have hexec (cmd : CommandEnvelope) (hcmd : cmd ∈ s.pendingControlCommands) (x : Serving H)
      (hx : x.session.connection.Takes) (hok : AnswersControl now cmd x) :
      Served (isSilent cmd x.shared.app.log) cmd.operationId x
        (executeControlCommand cmd now x none) := by
    have hcontrol := hsorted.control cmd hcmd
    rw [isSilent_of_control hcontrol]
    exact (replied_executeControlCommand hx hcontrol hok).served hx
  obtain ⟨frames, x, hdrain, hanswers, htakes, hsent⟩ := drain_answers
    (fun cmd => executeControlCommand cmd now) putControl (fun _ _ => rfl) hexec
    (x := ⟨d.beforeControl now i, s⟩) h.takes h.control
  have hserved : (serveControl now (d.beforeControl now i) s).2.1 = x.session := by
    unfold serveControl
    rw [if_neg hopen]
    exact congrArg (fun r => r.1.session) hdrain
  have hnormal := h.normal
  rw [hserved] at hnormal
  have hopen' : ¬ x.session.connection.closed = true := by simp [htakes.1]
  have hpending : x.session.pendingNormalCommands = s.pendingNormalCommands := by
    have hkept := drain_keeps (fun cmd => executeControlCommand (H := H) cmd now) putControl
      s.pendingControlCommands (G := fun t => t.pendingNormalCommands = s.pendingNormalCommands)
      (x := ⟨d.beforeControl now i, s⟩) (fun _ _ _ ht => ht)
      (fun cmd x hx => (congrArg Prod.snd (fixes_queues_executeControlCommand cmd now x none)).trans
        hx) (fun _ ht => ht) rfl
    rwa [hdrain] at hkept
  obtain ⟨frames', x', hdrain', hanswers', htakes', hsent'⟩ := drain_answers
    (fun cmd => executeNormalCommand cmd now) putNormal (fun _ _ => rfl)
    (fun cmd hcmd _ hx hok => served_executeNormalCommand hx (hsorted.normal cmd hcmd) hok)
    (x := ⟨d.beforeNormal now i, x.session⟩) htakes hnormal
  refine ⟨frames, frames', x, x', hanswers, hanswers', ?_, htakes'.1, ?_⟩
  · have hcontrol : (d.control now).2.1[i]? = some x.session := by
      unfold CoreDaemon.control
      rw [visit_getElem?, hs]
      exact congrArg some hserved
    unfold CoreDaemon.normal
    rw [visit_getElem?, hcontrol]
    change some (serveNormal now (d.beforeNormal now i) x.session).2.1 = _
    unfold serveNormal
    rw [if_neg hopen', hpending]
    exact congrArg (fun r => some r.1.session) hdrain'
  · rw [hsent', hsent]

variable [QueuedHarness H]

/-- **Replies.** In every run of a daemon and every step after it: each command read
from a session that can be answered is answered with one frame, but for subscribers
that miss nothing, and the connection stays open.  What the step broadcasts
afterwards answers no command. -/
theorem commands_answered (harness : H) (store : Store) (config : CoreDaemonConfig)
    (noise : UInt64) (inputs : List (DaemonInput H)) (now : UInt64) (i : Nat)
    (s : DaemonClientSession)
    (hs : (((daemonMachine (.new harness store config noise)).run inputs).read now).1[i]? = some s)
    (h : ((daemonMachine (.new harness store config noise)).run inputs).Answerable now i s) :
    let d := (daemonMachine (.new harness store config noise)).run inputs
    ∃ frames frames' x x',
      Answers (fun cmd => executeControlCommand cmd now) putControl s.pendingControlCommands
        ⟨d.beforeControl now i, s⟩ frames x ∧
      Answers (fun cmd => executeNormalCommand cmd now) putNormal s.pendingNormalCommands
        ⟨d.beforeNormal now i, x.session⟩ frames' x' ∧
      (d.normal now).2.1[i]? = some x'.session ∧ x'.session.connection.closed = false ∧
      x'.session.connection.sent = s.connection.sent ++ frames ++ frames' ∧
      ∀ es w left, d.pump now = ⟨.done es, w, left⟩ → ∀ e ∈ w.broadcastEvents ++ es,
        ∀ operationId, (Frame.event e).isReplyTo operationId = false := by
  have hsorted := (sorted_run harness store config noise inputs).read now s
    (List.mem_of_getElem? hs)
  obtain ⟨frames, frames', x, x', hcontrol, hnormal, hsession, hopen, hsent⟩ := h.answers hsorted hs
  exact ⟨frames, frames', x, x', hcontrol, hnormal, hsession, hopen, hsent,
    fun _ _ _ hpump _ he => CoreDaemon.plain_pump _ now hpump he⟩

/-- Every command is answered once: after the commands of the step, the frames that
answer an operation have grown by the commands under that operation, and the
connection is open. -/
def CoreDaemon.AnswersAll (d : CoreDaemon H) (now : UInt64) : Prop :=
  ∀ (i : Nat) (s : DaemonClientSession), (d.read now).1[i]? = some s → s.connection.Takes →
    ∃ t, (d.normal now).2.1[i]? = some t ∧ t.connection.closed = false ∧ ∀ operationId,
      t.connection.sent.countP (Frame.isReplyTo operationId) =
        s.connection.sent.countP (Frame.isReplyTo operationId) +
          (s.pendingControlCommands ++ s.pendingNormalCommands).countP
            fun cmd => cmd.operationId == operationId

/-- The first session has a command under the operation and got no frame for it. -/
def CoreDaemon.passesOver (d : CoreDaemon H) (now : UInt64) (operationId : OperationId) : Bool :=
  match (d.read now).1.head?, (d.normal now).2.1.head? with
  | some s, some t =>
    !s.connection.closed && s.connection.faults.isEmpty &&
      s.pendingNormalCommands.any (fun cmd => cmd.operationId == operationId) &&
      t.connection.sent.countP (Frame.isReplyTo operationId) == 0
  | _, _ => false

omit [QueuedHarness H] in
theorem CoreDaemon.not_answersAll_of_passesOver {d : CoreDaemon H} (operationId : OperationId)
    (h : d.passesOver now operationId = true) : ¬ d.AnswersAll now := by
  intro hall
  unfold CoreDaemon.passesOver at h
  split at h
  · rename_i s t hs ht
    simp only [Bool.and_eq_true, Bool.not_eq_true', List.isEmpty_iff, beq_iff_eq] at h
    obtain ⟨⟨⟨hopen, hfaults⟩, hcmd⟩, hcount⟩ := h
    rw [List.head?_eq_getElem?] at hs ht
    obtain ⟨t', ht', -, hanswers⟩ := hall 0 s hs
      ⟨hopen, fun fault hfault => by rw [hfaults] at hfault; cases hfault⟩
    rw [ht] at ht'
    cases ht'
    have hpos : 0 < s.pendingNormalCommands.countP fun cmd => cmd.operationId == operationId :=
      List.countP_pos_iff.2 (List.any_eq_true.1 hcmd)
    have hsum := hanswers operationId
    rw [hcount, List.countP_append] at hsum
    omega
  · cases h

end Step

end Replies

section Sample

local instance repliesWriter : SerdeJsonWriter := flatWriter
local instance repliesText : ErrorText := plainText
local instance repliesProtocolText : ProtocolText := plainProtocolText
local instance repliesHasher : DefaultHasher := linearHasher
local instance repliesServices : CoreServices Line := plainServices

/-- A client that asks for a sign of life and for the status. -/
def sampleAsking : List (DaemonInput Line) :=
  [.connect [sampleHello, sampleCommand .ping, sampleCommand .runtimeStatus] []]

theorem commands_answered_sample :
    let d := (daemonMachine (CoreDaemon.new (H := Line) ⟨[]⟩ .empty sampleConfig 0)).run sampleAsking
    ∃ s, (d.read 1).1[0]? = some s ∧ d.Answerable 1 0 s ∧
      s.pendingControlCommands.length = 1 ∧ s.pendingNormalCommands.length = 1 ∧
      ∃ frames frames' x x',
        Answers (fun cmd => executeControlCommand cmd 1) putControl s.pendingControlCommands
          ⟨d.beforeControl 1 0, s⟩ frames x ∧
        Answers (fun cmd => executeNormalCommand cmd 1) putNormal s.pendingNormalCommands
          ⟨d.beforeNormal 1 0, x.session⟩ frames' x' ∧
        (d.normal 1).2.1[0]? = some x'.session ∧ x'.session.connection.closed = false ∧
        x'.session.connection.sent = s.connection.sent ++ frames ++ frames' := by
  have hok : ((daemonMachine (CoreDaemon.new (H := Line) ⟨[]⟩ .empty sampleConfig 0)).run
      sampleAsking).Answerable 1 0
        ⟨⟨[], [], false, [.coreHello, .coreGreeting 1 none]⟩, some 1, false, .authenticated,
          [⟨sampleOperation, .ping⟩], [⟨sampleOperation, .runtimeStatus⟩], 1, 1, 0⟩ := by
    refine ⟨⟨rfl, fun fault hfault => by cases hfault⟩, ⟨trivial, ?_⟩, ⟨trivial, ?_⟩⟩
    · dsimp only
      split <;> trivial
    · dsimp only
      split <;> trivial
  have hrun := commands_answered _ _ _ _ sampleAsking 1 0 _ rfl hok
  obtain ⟨frames, frames', x, x', hcontrol, hnormal, hsession, hopen, hsent, -⟩ := hrun
  exact ⟨_, rfl, hok, rfl, rfl, frames, frames', x, x', hcontrol, hnormal, hsession, hopen, hsent⟩

/-- A subscriber that misses nothing gets no frame. -/
theorem subscribe_passed_over :
    ¬ ∀ (inputs : List (DaemonInput Line)) (now : UInt64),
      ((daemonMachine (CoreDaemon.new (H := Line) ⟨[]⟩ .empty sampleConfig 0)).run
        inputs).AnswersAll now := by
  intro h
  refine CoreDaemon.not_answersAll_of_passesOver sampleOperation ?_
    (h [.connect [sampleHello, sampleCommand (.subscribe (some (.flat [("since", .null)])))] []] 1)
  decide

end Sample

end Altior.Application
