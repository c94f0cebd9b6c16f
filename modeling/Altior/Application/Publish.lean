import Altior.Application.Step
import Altior.Application.Watch

/-!
# What goes through the log

The history of the replay log, and which computations of the daemon give the log an
envelope: the start of a turn, a poll and the boundary of a catch-up.  All others
leave it alone, with everything else a delivery depends on.
-/

namespace Altior.Application

open Domain Lib Storage Altior.Runtime
open Serving (onApp onShared onSession send)

variable [SerdeJsonWriter] {H : Type}

/-! ## The log and its history -/

/-- The history is what the log was given: numbered from one, and ending in what
the log retains. -/
structure Chronicled (log : EventLog) (appended : List EventEnvelope) : Prop where
  next : log.nextSequence.toNat = appended.length + 1
  sequence : ∀ (i : Nat) e, appended[i]? = some e → e.sequence.toNat = i + 1
  retained : log.events <:+ appended

omit [SerdeJsonWriter] in
theorem chronicled_new (capacity : Nat) : Chronicled (.new capacity) [] where
  next := rfl
  sequence _ _ h := by simp at h
  retained := List.suffix_refl []

variable {log : EventLog} {appended : List EventEnvelope}

omit [SerdeJsonWriter] in
theorem EventLog.append_cases {log' : EventLog} {e e' : EventEnvelope}
    (h : log.append e = .ok (e', log')) :
    log.nextSequence.toNat + 1 < UInt64.size ∧ e' = { e with sequence := log.nextSequence } ∧
      log'.nextSequence = log.nextSequence + 1 ∧
        log'.events =
          (if log.events.length = log.capacity then log.events.drop 1 else log.events) ++ [e'] := by
  unfold EventLog.append at h
  split at h
  · cases h
  · rename_i hsize
    cases h
    have hlt := log.nextSequence.toNat_lt_size
    exact ⟨by omega, rfl, rfl, rfl⟩

omit [SerdeJsonWriter] in
/-- An append is recorded by adding its envelope to the history. -/
theorem Chronicled.append {log' : EventLog} {e e' : EventEnvelope} (h : Chronicled log appended)
    (happend : log.append e = .ok (e', log')) : Chronicled log' (appended ++ [e']) := by
  obtain ⟨hsize, rfl, hnext, hevents⟩ := EventLog.append_cases happend
  refine ⟨?_, fun i x hx => ?_, ?_⟩
  · have hsum : (log.nextSequence + 1).toNat = log.nextSequence.toNat + 1 := by
      rw [UInt64.toNat_add]
      exact Nat.mod_eq_of_lt hsize
    rw [hnext, hsum, h.next, List.length_append]
    rfl
  · rcases Nat.lt_or_ge i appended.length with hlt | hge
    · rw [List.getElem?_append_left hlt] at hx
      exact h.sequence i x hx
    · rw [List.getElem?_append_right hge, List.getElem?_singleton] at hx
      split at hx
      · cases hx
        change log.nextSequence.toNat = i + 1
        rw [h.next]
        omega
      · cases hx
  · rw [hevents]
    have hsuffix : (if log.events.length = log.capacity then log.events.drop 1 else log.events) <:+
        appended := by
      split
      · exact (List.drop_suffix 1 _).trans h.retained
      · exact h.retained
    obtain ⟨earlier, rfl⟩ := hsuffix
    exact ⟨earlier, by rw [List.append_assoc]⟩

omit [SerdeJsonWriter] in
/-- No envelope of the history is numbered beyond its length. -/
theorem Chronicled.sequence_le (h : Chronicled log appended) {e : EventEnvelope}
    (he : e ∈ appended) : e.sequence.toNat ≤ appended.length := by
  obtain ⟨i, hi, rfl⟩ := List.getElem_of_mem he
  have hseq := h.sequence i _ (List.getElem?_eq_getElem hi)
  omega

omit [SerdeJsonWriter] in
/-- The history is numbered upwards. -/
theorem Chronicled.pairwise (h : Chronicled log appended) :
    appended.Pairwise fun e e' => e.sequence < e'.sequence := by
  rw [List.pairwise_iff_getElem]
  intro i j hi hj hij
  have hseq := h.sequence i _ (List.getElem?_eq_getElem hi)
  have hseq' := h.sequence j _ (List.getElem?_eq_getElem hj)
  rw [UInt64.lt_iff_toNat_lt]
  omega

/-! ## What the handlers leave alone -/

/-- The envelope in a frame. -/
def Frame.event? : Frame → Option EventEnvelope
  | .event e => some e
  | _ => none

/-- The envelopes a session was sent, in order. -/
def DaemonClientSession.received (s : DaemonClientSession) : List EventEnvelope :=
  s.connection.sent.filterMap Frame.event?

/-- What a delivery depends on, of what is shared. -/
def Shared.face (w : Shared H) : EventLog × List EventEnvelope × List EventEnvelope :=
  (w.app.log, w.appended, w.broadcastEvents)

/-- What a delivery depends on, of a session. -/
def DaemonClientSession.face (s : DaemonClientSession) :
    List EventEnvelope × DaemonSessionState × Nat × Bool × Bool :=
  (s.received, s.state, s.subscribedAt, s.subscribed, s.connection.closed)

/-- What a delivery depends on. -/
def Serving.face (x : Serving H) :
    (EventLog × List EventEnvelope × List EventEnvelope) ×
      (List EventEnvelope × DaemonSessionState × Nat × Bool × Bool) :=
  (x.shared.face, x.session.face)

/-! ### The application -/

section Log

theorem fixes_onRuntime {α : Type} (m : Proc (AgentRuntimeSupervisor H) RuntimeError α) :
    Proc.Fixes CoreApplication.log (onRuntime m) :=
  .zoom fun _ _ => rfl

theorem fixes_onThread {α : Type} (threadId : ThreadId)
    (m : Proc (Supervised H) RuntimeError α) :
    Proc.Fixes CoreApplication.log (onThread threadId m) :=
  (fixes_onRuntime _).mapError

theorem fixes_nextEventId (now : UInt64) :
    Proc.Fixes CoreApplication.log (nextEventId (H := H) now) :=
  .bind .get fun _ => .bind (.modify fun _ => rfl) fun _ => .pure _

theorem fixes_appendDomainEvent (e : DomainEvent) :
    Proc.Fixes CoreApplication.log (appendDomainEvent (H := H) e) := by
  refine .act fun s => ?_
  split <;> rfl

theorem fixes_createThread (threadId : ThreadId) (agentProfileId : AgentProfileId)
    (title : Option String) (projectId : Option ProjectId) (now : UInt64) :
    Proc.Fixes CoreApplication.log
      (createThread (H := H) threadId agentProfileId title projectId now) := by
  refine .bind (.ofExcept _) fun _ => .bind (fixes_nextEventId now) fun _ =>
    .bind (fixes_appendDomainEvent _) fun _ => .bind .get fun s => ?_
  split
  · exact .pure _
  · exact .fail _

variable [HarnessRuntimePort H] [ErrorText]

theorem fixes_openSession (threadId : ThreadId) (binding : AcpHarnessBinding) :
    Proc.Fixes CoreApplication.log (openSession (H := H) threadId binding) := by
  refine .bind (.attempt (.bind .get fun s => ?_)) fun r => ?_
  · split
    · exact .fail _
    · split
      · exact .fail _
      · exact fixes_onRuntime _
  · split
    · exact .pure _
    · exact .bind (.attempt (fixes_onRuntime _)) fun _ => .pure _

theorem fixes_openThread (threadId : ThreadId)
    (binding : Store → Except CoreAppError AcpHarnessBinding) :
    Proc.Fixes CoreApplication.log (openThread (H := H) threadId binding) := by
  refine .bind .get fun s => ?_
  split
  · exact .fail _
  refine .bind (.ofExcept _) fun binding => ?_
  split
  · exact fixes_openSession threadId binding
  · exact fixes_openSession threadId binding
  · exact .pure _

variable [DefaultHasher]

theorem fixes_cancelTurn (operationId : OperationId) (threadId : ThreadId) (now : UInt64) :
    Proc.Fixes CoreApplication.log (cancelTurn (H := H) operationId threadId now) := by
  refine .bind .get fun s => .bind (fixes_onThread _ _) fun outcome => ?_
  split
  · split
    · exact .fail _
    · exact .bind (fixes_nextEventId now) fun _ => .bind (.ofExcept _) fun _ =>
        .bind (fixes_appendDomainEvent _) fun _ => .pure _
  · exact .pure _

theorem fixes_cancelFirst (operationId : OperationId) (now : UInt64) (threads : List ThreadId) :
    Proc.Fixes CoreApplication.log (cancelFirst (H := H) operationId now threads) := by
  induction threads with
  | nil => exact .pure _
  | cons threadId rest ih =>
    refine .bind (.attempt (fixes_cancelTurn _ _ _)) fun r => ?_
    split
    · exact .pure _
    · exact ih

theorem fixes_decidePermission (operationId : OperationId) (threadId : ThreadId)
    (permissionId : EventId) (decision : PermissionDecision) (now : UInt64) :
    Proc.Fixes CoreApplication.log
      (decidePermission (H := H) operationId threadId permissionId decision now) := by
  refine .bind (.ofExcept _) fun text => .bind .get fun s => ?_
  split
  · exact .fail _
  · exact .bind (fixes_onThread _ _) fun _ => .bind (.ofExcept _) fun _ =>
      .bind (fixes_nextEventId now) fun _ => .bind (fixes_appendDomainEvent _) fun _ => .pure _

end Log

/-! ### Replies and queries -/

theorem fixes_onShared {α : Type} {m : Proc (Shared H) CoreAppError α}
    (h : Proc.Fixes Shared.face m) : Proc.Fixes Serving.face (onShared m) :=
  .zoom_part (fun _ _ hface => congrArg (·, _) hface) h

theorem fixes_onApp {α : Type} {m : Proc (CoreApplication H) CoreAppError α}
    (h : Proc.Fixes CoreApplication.log m) : Proc.Fixes Serving.face (onApp m) :=
  fixes_onShared (.zoom_part (fun _ _ hlog => congrArg (·, _) hlog) h)

omit [SerdeJsonWriter] in
/-- A frame without an envelope changes nothing of a delivery. -/
theorem face_sendFrame {s : DaemonClientSession} {frame : Frame} (h : frame.event? = none) :
    ({ s with connection := (s.connection.sendFrame frame).2 } : DaemonClientSession).face
      = s.face := by
  unfold Connection.sendFrame
  split
  · rfl
  · split
    · rfl
    · simp [DaemonClientSession.face, DaemonClientSession.received, h]

theorem fixes_send {frame : Frame} (h : frame.event? = none) :
    Proc.Fixes (Serving.face (H := H)) (send frame) :=
  .zoom_part (fun _ _ hface => congrArg (_, ·) hface) (.act fun _ => face_sendFrame h)

theorem fixes_replyResult (operationId : OperationId) (data : Option Json) (now : UInt64) :
    Proc.Fixes (Serving.face (H := H)) (replyResult operationId data now) :=
  .bind (fixes_onApp (.bind (.ofExcept _) fun _ => .bind (fixes_nextEventId now) fun _ => .pure _))
    fun _ => fixes_send rfl

theorem fixes_replyError (operationId : OperationId) (code message : String) (now : UInt64) :
    Proc.Fixes (Serving.face (H := H)) (replyError operationId code message now) :=
  .bind (fixes_onApp (.bind (fixes_nextEventId now) fun _ => .pure _)) fun _ => fixes_send rfl

theorem fixes_replySnapshot (operationId : OperationId) (data : Json) (now : UInt64) :
    Proc.Fixes (Serving.face (H := H)) (replySnapshot operationId data now) :=
  .bind (.ofExcept _) fun _ => fixes_send rfl

theorem fixes_allocate {α : Type} (mint : EntityIdAllocator → α) :
    Proc.Fixes (Serving.face (H := H)) (allocate mint) :=
  fixes_onShared (.bind .get fun _ => .bind (.modify fun _ => rfl) fun _ => .pure _)

theorem fixes_onQuery {α : Type} (f : QueryState H → Except CoreAppError α × QueryState H) :
    Proc.Fixes Serving.face (onQuery f) :=
  fixes_onShared (.act fun _ => rfl)

section Handlers

variable [ErrorText] [ProtocolText]

theorem fixes_answer {α : Type} {operationId : OperationId} {code : String} {now : UInt64}
    {closure : Proc (Serving H) CoreAppError α} {reply : α → Proc (Serving H) CoreAppError Unit}
    (hclosure : Proc.Fixes Serving.face closure) (hreply : ∀ a, Proc.Fixes Serving.face (reply a)) :
    Proc.Fixes Serving.face (answer operationId code closure reply now) := by
  refine .bind hclosure.attempt fun r => ?_
  split
  · exact hreply _
  · exact fixes_replyError _ _ _ _

omit [ErrorText] [ProtocolText] in
theorem fixes_handleRuntimeStatus (operationId : OperationId) (now : UInt64) :
    Proc.Fixes (Serving.face (H := H)) (handleRuntimeStatus operationId now) :=
  .bind .get fun _ => .bind (fixes_onApp (fixes_nextEventId now)) fun _ => fixes_send rfl

section Queries

variable [CoreServices H]

theorem fixes_handleCreateThread (operationId : OperationId)
    (payload : Except ProtocolError CreateThreadCommand) (now : UInt64) :
    Proc.Fixes (Serving.face (H := H)) (handleCreateThread operationId payload now) :=
  fixes_answer (.bind (.ofExcept _) fun _ => .bind (fixes_allocate _) fun _ =>
    .bind (fixes_onApp (fixes_createThread _ _ _ _ _)) fun _ => .ofExcept _)
    fun _ => fixes_replyResult _ _ _

theorem fixes_handleSnapshotQuery (code : String) (query : SnapshotQuery)
    (operationId : OperationId) (payload : Option Json) (now : UInt64) :
    Proc.Fixes (Serving.face (H := H)) (handleSnapshotQuery code query operationId payload now) :=
  fixes_answer (fixes_onQuery _) fun _ => fixes_replySnapshot _ _ _

theorem fixes_handleResultQuery (code : String) (query : ResultQuery) (operationId : OperationId)
    (payload : Option Json) (now : UInt64) :
    Proc.Fixes (Serving.face (H := H)) (handleResultQuery code query operationId payload now) :=
  fixes_answer (fixes_onQuery _) fun _ => fixes_replyResult _ _ _

variable [HarnessRuntimePort H]

theorem fixes_handleOpenThread (operationId : OperationId)
    (payload : Except ProtocolError OpenThreadCommand) (now : UInt64) :
    Proc.Fixes (Serving.face (H := H)) (handleOpenThread operationId payload now) :=
  fixes_answer (.bind (.ofExcept _) fun _ => .bind (fixes_onApp (fixes_openThread _ _)) fun _ =>
    .bind .get fun _ => .ofExcept _) fun _ => fixes_replySnapshot _ _ _

end Queries

variable [HarnessRuntimePort H] [DefaultHasher]

omit [ProtocolText] in
theorem fixes_executeControlCommand (cmd : CommandEnvelope) (now : UInt64) :
    Proc.Fixes (Serving.face (H := H)) (executeControlCommand cmd now) := by
  unfold executeControlCommand
  split
  · exact fixes_replyResult _ _ _
  · exact .bind .get fun _ => .bind (fixes_onApp (fixes_cancelFirst _ _ _)) fun _ =>
      fixes_replyResult _ _ _
  · exact .bind (fixes_onApp (fixes_cancelTurn _ _ _)) fun _ => fixes_replyResult _ _ _
  · exact fixes_replyError _ _ _ _
  · split
    · exact fixes_replyError _ _ _ _
    · refine .bind .get fun _ => ?_
      split
      · exact .bind (fixes_onApp (fixes_decidePermission _ _ _ _ _)) fun _ =>
          fixes_replyResult _ _ _
      · exact fixes_replyError _ _ _ _
  · exact fixes_replyError _ _ _ _
  · exact .pure _

/-- A command that is no subscription and starts no turn. -/
theorem fixes_executeNormalCommand [CoreServices H] {cmd : CommandEnvelope}
    (hsubscribe : ∀ payload, cmd.command ≠ .subscribe payload)
    (hstart : ∀ payload, cmd.command ≠ .startTurn payload) (now : UInt64) :
    Proc.Fixes (Serving.face (H := H)) (executeNormalCommand cmd now) := by
  obtain ⟨operationId, command⟩ := cmd
  cases command with
  | subscribe payload => exact absurd rfl (hsubscribe payload)
  | startTurn payload => exact absurd rfl (hstart payload)
  | createThread payload => exact fixes_handleCreateThread _ _ _
  | openThread payload => exact fixes_handleOpenThread _ _ _
  | runtimeStatus => exact fixes_handleRuntimeStatus _ _
  | snapshotQuery query payload => cases query <;> exact fixes_handleSnapshotQuery _ _ _ _ _
  | resultQuery query payload => cases query <;> exact fixes_handleResultQuery _ _ _ _ _
  | ping | cancel | cancelTurn | respondPermission => exact .pure _

end Handlers

/-! ## Publishing -/

/-- The log after it was given an envelope, or nothing. -/
def Grown (log : EventLog) : Option EventEnvelope → EventLog → Prop
  | some e, log' => ∃ e₀, log.append e₀ = .ok (e, log')
  | none, log' => log' = log

/-- What a computation that ended this way returned. -/
def returned {α : Type} (out : α → Option EventEnvelope) :
    Ending CoreAppError α → Option EventEnvelope
  | .done a => out a
  | _ => none

/-- The log is given the envelope that is returned, and nothing else. -/
def Publishes {α : Type} (out : α → Option EventEnvelope)
    (m : Proc (CoreApplication H) CoreAppError α) : Prop :=
  ∀ s n, Grown s.log (returned out (m s n).ending) (m s n).state.log

namespace Publishes

variable {α β : Type} {out : α → Option EventEnvelope}

theorem pure {a : α} (h : out a = none) :
    Publishes out (Pure.pure a : Proc (CoreApplication H) CoreAppError α) := by
  intro s n
  change Grown s.log (out a) s.log
  rw [h]
  rfl

theorem fail (e : CoreAppError) :
    Publishes out (Proc.fail e : Proc (CoreApplication H) CoreAppError α) :=
  fun _ _ => rfl

theorem bind {m : Proc (CoreApplication H) CoreAppError β}
    {f : β → Proc (CoreApplication H) CoreAppError α} (hm : Proc.Fixes CoreApplication.log m)
    (hf : ∀ b, Publishes out (f b)) : Publishes out (m >>= f) := by
  intro s n
  have hrun := hm s n
  rw [Proc.bind_run]
  revert hrun
  rcases m s n with ⟨b | e | _, s', n'⟩
  · intro hrun
    have hrest := hf b s' n'
    rw [show s'.log = s.log from hrun] at hrest
    exact hrest
  · exact id
  · exact id

/-- What is returned may be wrapped. -/
theorem map {o : β → Option EventEnvelope} {m : Proc (CoreApplication H) CoreAppError α}
    (h : Publishes out m) (g : α → β) (hg : ∀ a, o (g a) = out a) :
    Publishes o (m >>= fun a => Pure.pure (g a)) := by
  intro s n
  have hrun := h s n
  rw [Proc.bind_run]
  revert hrun
  rcases m s n with ⟨a | e | _, s', n'⟩
  · intro hrun
    change Grown s.log (o (g a)) s'.log
    rw [hg]
    exact hrun
  · exact id
  · exact id

end Publishes

theorem publishes_sequenceEnvelope (envelope : EventEnvelope) :
    Publishes some (sequenceEnvelope (H := H) envelope) := by
  intro s n
  unfold sequenceEnvelope
  rw [Proc.bind_run, Proc.get_run]
  dsimp only
  cases h : s.log.append envelope with
  | error err => rfl
  | ok r => exact ⟨envelope, h⟩

theorem fixes_publishedId (event : RuntimeEvent) (now : UInt64) :
    Proc.Fixes CoreApplication.log (publishedId (H := H) event now) := by
  unfold publishedId
  split
  · exact .pure _
  · exact fixes_nextEventId now

theorem fixes_journalRuntimeEvent (ctx : EventContext) (event : RuntimeEvent) :
    Proc.Fixes CoreApplication.log (journalRuntimeEvent (H := H) ctx event) := by
  refine .bind .get fun s => ?_
  split
  · refine .bind (.ofExcept _) fun r => ?_
    split
    · exact .pure _
    · exact .bind (fixes_appendDomainEvent _) fun _ => .pure _
  · exact .pure _

theorem publishes_publishRuntimeEvent (event : RuntimeEvent) (operationId : Option OperationId)
    (turnId : Option TurnId) (now : UInt64) (withStore : Bool) :
    Publishes some (publishRuntimeEvent (H := H) event operationId turnId now withStore) := by
  refine .bind (fixes_publishedId event now) fun eventId => ?_
  have hrest : ∀ u : Unit, Publishes some (H := H) (do
      let body ← Proc.ofExcept (mapRuntimeToEventBody event)
      sequenceEnvelope
        { eventId := eventId, operationId := operationId, threadId := some (extractThreadId event)
          turnId := turnId.or (extractTurnId event), sequence := 1, occurredAt := now
          body := body }) :=
    fun _ => .bind (.ofExcept _) fun _ => publishes_sequenceEnvelope _
  dsimp only
  split
  · exact .bind (fixes_journalRuntimeEvent _ _) hrest
  · exact hrest ()

section Turns

variable [HarnessRuntimePort H]

theorem publishes_pollThreadEvents (threadId : ThreadId) (now : UInt64) :
    Publishes id (pollThreadEvents (H := H) threadId now) := by
  refine .bind (fixes_onThread _ _) fun r => ?_
  split
  · exact .pure rfl
  · exact .map (o := id) (publishes_publishRuntimeEvent _ _ _ _ _) some fun _ => rfl

variable [ErrorText]

omit [HarnessRuntimePort H] in
theorem fixes_persistTurnFailed (threadId : ThreadId) (turnId : TurnId) (operationId : OperationId)
    (promptErr : RuntimeError) (now : UInt64) :
    Proc.Fixes CoreApplication.log
      (persistTurnFailed (H := H) threadId turnId operationId promptErr now) :=
  .bind (.ofExcept _) fun _ => .bind (fixes_nextEventId now) fun _ =>
    .bind (fixes_appendDomainEvent _) fun _ => .pure _

variable [DefaultHasher]

theorem publishes_deliverPrompt (operationId : OperationId) (threadId : ThreadId)
    (turnId : TurnId) (wirePrompt : String) (now : UInt64) :
    Publishes Prod.snd (deliverPrompt (H := H) operationId threadId turnId wirePrompt now) := by
  refine .bind (fixes_onRuntime _).attempt fun r => ?_
  split
  · exact .map (publishes_publishRuntimeEvent _ _ _ _ _) _ fun _ => rfl
  · exact .pure rfl
  · refine .bind (fixes_persistTurnFailed _ _ _ _ _).attempt fun r => ?_
    split
    · exact .fail _
    · exact .fail _

theorem publishes_startPromptEnvelope (operationId : OperationId) (threadId : ThreadId)
    (turnId : TurnId) (content : String) (now : UInt64)
    (assemble : Store → Except CoreAppError AssembledContext) :
    Publishes Prod.snd
      (startPromptEnvelope (H := H) operationId threadId turnId content now assemble) := by
  refine .bind .get fun s => ?_
  split
  · exact .fail _
  refine .bind (.ofExcept _) fun _ => .bind (.ofExcept _) fun admission => ?_
  split
  · exact .pure rfl
  refine .bind (.ofExcept _) fun assembled => .bind ?_ fun _ => .bind (.attempt (.act ?_)) fun r => ?_
  · exact .bind (.ofExcept _) fun _ => .bind (fixes_nextEventId now) fun _ =>
      .bind (fixes_appendDomainEvent _) fun _ => .pure _
  · intro s
    split <;> rfl
  · split
    · exact .bind (fixes_persistTurnFailed _ _ _ _ _).ignore fun _ => .fail _
    · exact publishes_deliverPrompt _ _ _ _ _

end Turns

/-! ## Sending -/

omit [SerdeJsonWriter] in
theorem sendFrame_of_accepts {c : Connection} (h : c.accepts = true) (frame : Frame) :
    c.sendFrame frame = (.ok (), { c with faults := c.faults.tail, sent := c.sent ++ [frame] }) := by
  simp only [Connection.accepts, Bool.and_eq_true, Bool.not_eq_true'] at h
  unfold Connection.sendFrame
  rw [h.1, h.2]
  rfl

omit [SerdeJsonWriter] in
theorem sendFrame_of_not_accepts {c : Connection} (h : c.accepts = false) (frame : Frame) :
    ∃ err c', c.sendFrame frame = (.error err, c') ∧ c'.sent = c.sent ∧ c'.closed = c.closed := by
  unfold Connection.sendFrame
  split
  · exact ⟨_, _, rfl, rfl, rfl⟩
  · split
    · exact ⟨_, _, rfl, rfl, rfl⟩
    · rename_i hopen hfault
      rw [Bool.not_eq_true] at hopen hfault
      rw [Connection.accepts, hopen, hfault] at h
      cases h

omit [SerdeJsonWriter] in
/-- A send adds its frame or nothing. -/
theorem sent_sendFrame (c : Connection) (frame : Frame) :
    (c.sendFrame frame).2.sent = c.sent ∨ (c.sendFrame frame).2.sent = c.sent ++ [frame] := by
  cases h : c.accepts with
  | true =>
    rw [sendFrame_of_accepts h]
    exact .inr rfl
  | false =>
    obtain ⟨err, c', hsend, hsent, -⟩ := sendFrame_of_not_accepts h frame
    rw [hsend]
    exact .inl hsent

/-- The session after a frame went out. -/
def DaemonClientSession.sending (s : DaemonClientSession) (frame : Frame) : DaemonClientSession :=
  { s with connection :=
      { s.connection with faults := s.connection.faults.tail, sent := s.connection.sent ++ [frame] } }

theorem send_done {w : Shared H} {s : DaemonClientSession} (h : s.connection.accepts = true)
    (frame : Frame) : send frame ⟨w, s⟩ none = ⟨.done (), ⟨w, s.sending frame⟩, none⟩ := by
  unfold Serving.send Serving.onSession sendJson Proc.zoom
  simp only [Proc.act_run_none, sendFrame_of_accepts h]
  rfl

/-- Whether a result is within the bound of its payload. -/
def fitsResult (data : Option Json) : Bool := data.all fits

theorem mapM_boundedPayload {data : Option Json} (h : fitsResult data = true) :
    data.mapM boundedPayload = .ok data := by
  cases data with
  | none => rfl
  | some d =>
    have hfits : fits d = true := h
    simp only [Option.mapM_some, boundedPayload, hfits, if_true]
    rfl

/-- A result that fits is sent over a connection that takes it. -/
theorem replyResult_done {x : Serving H} (operationId : OperationId) (data : Option Json)
    (now : UInt64) (hfits : fitsResult data = true)
    (haccepts : x.session.connection.accepts = true) :
    ∃ r w, replyResult operationId data now x none =
      ⟨.done (), ⟨w, x.session.sending (.reply r)⟩, none⟩ ∧ r.operationId = operationId := by
  unfold replyResult Serving.onApp Serving.onShared Shared.onApp makeCommandResultEvent nextEventId
  simp only [Proc.bind_run, Proc.zoom, Proc.ofExcept_run, mapM_boundedPayload hfits,
    Ending.ofExcept_ok, Proc.get_run, Proc.modify_run, Proc.pure_run]
  rw [send_done haccepts]
  exact ⟨_, _, rfl, rfl⟩

/-! ## Running to the end -/

theorem ends_onShared {α : Type} {m : Proc (Shared H) CoreAppError α} (h : Proc.Ends m) :
    Proc.Ends (onShared m) :=
  .zoom h

theorem ends_onApp {α : Type} {m : Proc (CoreApplication H) CoreAppError α} (h : Proc.Ends m) :
    Proc.Ends (onApp m) :=
  ends_onShared (.zoom h)

theorem ends_nextEventId (now : UInt64) : Proc.Ends (nextEventId (H := H) now) :=
  .bind .get fun _ => .bind (.modify _) fun _ => .pure _

theorem ends_appendDomainEvent (e : DomainEvent) : Proc.Ends (appendDomainEvent (H := H) e) :=
  .act _

theorem ends_allocate {α : Type} (mint : EntityIdAllocator → α) :
    Proc.Ends (allocate (H := H) mint) :=
  ends_onShared (.bind .get fun _ => .bind (.modify _) fun _ => .pure _)

theorem ends_onThread {α : Type} {m : Proc (Supervised H) RuntimeError α} (h : Proc.Ends m)
    (threadId : ThreadId) : Proc.Ends (onRuntime (AgentRuntimeSupervisor.onThread threadId m)) := by
  refine .zoom (.bind .get fun s => ?_)
  split
  · exact .fail _
  · exact .zoom h

theorem ends_callHarness {α : Type} (f : H → Except HarnessError α × H) :
    Proc.Ends (callHarness f) := .act _

theorem ends_callCheckpoint (f : Store → Except CheckpointError Store) :
    Proc.Ends (callCheckpoint (H := H) f) := .act _

/-- What is published has the body its event maps to. -/
theorem body_publishRuntimeEvent (event : RuntimeEvent) (operationId : Option OperationId)
    (turnId : Option TurnId) (now : UInt64) (withStore : Bool) :
    Proc.Spec (fun _ => True)
      (publishRuntimeEvent (H := H) event operationId turnId now withStore)
      (fun e _ => mapRuntimeToEventBody event = .ok e.body) (fun _ _ => True) fun _ => True := by
  have hid : Proc.Ends (publishedId (H := H) event now) := by
    unfold publishedId
    split
    · exact .pure _
    · exact ends_nextEventId now
  have hsequence (envelope : EventEnvelope) : Proc.Spec (fun _ => True)
      (sequenceEnvelope (H := H) envelope) (fun e _ => e.body = envelope.body)
      (fun _ _ => True) fun _ => True := by
    refine .bind (M := fun _ _ => True) (.get fun _ _ => trivial) fun s => ?_
    split
    · exact .fail fun _ _ => trivial
    · rename_i happend
      obtain ⟨-, rfl, -, -⟩ := EventLog.append_cases happend
      exact .bind (M := fun _ _ => True) (.modify fun _ _ => trivial) fun _ => .pure fun _ _ => rfl
  have hrest (eventId : EventId) : Proc.Spec (fun _ => True) (do
      let body ← Proc.ofExcept (mapRuntimeToEventBody event)
      sequenceEnvelope (H := H)
        { eventId := eventId, operationId := operationId, threadId := some (extractThreadId event)
          turnId := turnId.or (extractTurnId event), sequence := 1, occurredAt := now
          body := body }) (fun e _ => mapRuntimeToEventBody event = .ok e.body) (fun _ _ => True)
      fun _ => True := by
    refine .bind (M := fun body _ => mapRuntimeToEventBody event = .ok body)
      (.ofExcept (fun _ _ h _ => h) fun _ _ _ _ => trivial) fun body s n hbody => ?_
    refine (hsequence _).mono (fun _ h => h) (fun e _ he => ?_) (fun _ _ h => h) (fun _ h => h)
      s n trivial
    rw [he]
    exact hbody
  refine .bind hid fun eventId => ?_
  dsimp only
  split
  · refine .bind (M := fun _ _ => True) (.bind (M := fun _ _ => True) (.get fun _ _ => trivial)
      fun s => ?_) fun _ => hrest eventId
    split
    · refine .bind (M := fun _ _ => True) (.ofExcept (fun _ _ _ _ => trivial)
        fun _ _ _ _ => trivial) fun r => ?_
      split
      · exact .pure fun _ _ => trivial
      · exact .bind (M := fun _ _ => True) (ends_appendDomainEvent _) fun _ =>
          .pure fun _ _ => trivial
    · exact .pure fun _ _ => trivial
  · exact hrest eventId

theorem ends_publishRuntimeEvent (event : RuntimeEvent) (operationId : Option OperationId)
    (turnId : Option TurnId) (now : UInt64) (withStore : Bool) :
    Proc.Ends (publishRuntimeEvent (H := H) event operationId turnId now withStore) :=
  (body_publishRuntimeEvent event operationId turnId now withStore).mono (fun _ h => h)
    (fun _ _ _ => trivial) (fun _ _ h => h) fun _ h => h

section Ends

variable [HarnessRuntimePort H]

theorem ends_pollThreadEvents (threadId : ThreadId) (now : UInt64) :
    Proc.Ends (pollThreadEvents (H := H) threadId now) := by
  have hpoll : Proc.Ends (pollStream (H := H) 0) :=
    keeps_pollStream quiet_anything
      ⟨⟨fun _ _ _ h => h, fun _ _ _ h => h⟩, fun _ _ _ h => h⟩ 0
  refine .bind (.mapError (ends_onThread hpoll threadId)) fun r => ?_
  split
  · exact .pure _
  · exact .bind (ends_publishRuntimeEvent _ _ _ _ _) fun _ => .pure _

variable [ErrorText] [DefaultHasher]

theorem ends_cancelTurn (operationId : OperationId) (threadId : ThreadId) (now : UInt64) :
    Proc.Ends (cancelTurn (H := H) operationId threadId now) := by
  have hsteer : Proc.Ends (steerCancel (H := H) 0) :=
    keeps_steerCancel quiet_anything
      ⟨⟨fun _ _ _ h => h, fun _ _ _ h => h⟩, fun _ _ _ h => h⟩ 0
  refine .bind .get fun s => .bind (.mapError (ends_onThread hsteer threadId)) fun outcome => ?_
  split
  · split
    · exact .fail _
    · exact .bind (ends_nextEventId now) fun _ => .bind (.ofExcept _) fun _ =>
        .bind (ends_appendDomainEvent _) fun _ => .pure _
  · exact .pure _

theorem ends_prompt (operationId : OperationId) (turnId : TurnId) (content : String)
    (now : UInt64) : Proc.Ends (prompt (H := H) operationId turnId content now) := by
  refine .bind .get fun x => .bind (.ofExcept _) fun sessionId => ?_
  split
  · exact .pure _
  · exact .fail _
  · refine .bind (.modify _) fun _ => .bind (ends_callCheckpoint _) fun _ =>
      .bind (.attempt (ends_callHarness _)) fun r => ?_
    split
    · exact .bind (.ignore (ends_callCheckpoint _)) fun _ =>
        .bind (.ignore (ends_callCheckpoint _)) fun _ => .bind (.modify _) fun _ => .fail _
    · exact .bind (ends_callCheckpoint _) fun _ => .bind (.modify _) fun _ => .pure _

omit [HarnessRuntimePort H] [DefaultHasher] in
theorem ends_persistTurnFailed (threadId : ThreadId) (turnId : TurnId) (operationId : OperationId)
    (promptErr : RuntimeError) (now : UInt64) :
    Proc.Ends (persistTurnFailed (H := H) threadId turnId operationId promptErr now) :=
  .bind (.ofExcept _) fun _ => .bind (ends_nextEventId now) fun _ =>
    .bind (ends_appendDomainEvent _) fun _ => .pure _

theorem ends_startPromptEnvelope (operationId : OperationId) (threadId : ThreadId)
    (turnId : TurnId) (content : String) (now : UInt64)
    (assemble : Store → Except CoreAppError AssembledContext) :
    Proc.Ends
      (startPromptEnvelope (H := H) operationId threadId turnId content now assemble) := by
  refine .bind .get fun s => ?_
  split
  · exact .fail _
  refine .bind (.ofExcept _) fun _ => .bind (.ofExcept _) fun admission => ?_
  split
  · exact .pure _
  refine .bind (.ofExcept _) fun assembled => .bind ?_ fun _ => .bind (.attempt (.act _)) fun r => ?_
  · exact .bind (.ofExcept _) fun _ => .bind (ends_nextEventId now) fun _ =>
      .bind (ends_appendDomainEvent _) fun _ => .pure _
  split
  · exact .bind (.ignore (ends_persistTurnFailed _ _ _ _ _)) fun _ => .fail _
  refine .bind (.attempt (ends_onThread (ends_prompt _ _ _ _) _)) fun r => ?_
  split
  · exact .bind (ends_publishRuntimeEvent _ _ _ _ _) fun _ => .pure _
  · exact .pure _
  · refine .bind (.attempt (ends_persistTurnFailed _ _ _ _ _)) fun r => ?_
    split
    · exact .fail _
    · exact .fail _

end Ends

/-! ## The pump takes all there is -/

/-- The harness of an application. -/
def CoreApplication.harness (app : CoreApplication H) : H := app.supervisor.harness

theorem fixes_harness_publishRuntimeEvent (event : RuntimeEvent) (operationId : Option OperationId)
    (turnId : Option TurnId) (now : UInt64) (withStore : Bool) :
    Proc.Fixes CoreApplication.harness
      (publishRuntimeEvent (H := H) event operationId turnId now withStore) := by
  have hnext : Proc.Fixes CoreApplication.harness (nextEventId (H := H) now) :=
    .bind .get fun _ => .bind (.modify fun _ => rfl) fun _ => .pure _
  have hid : Proc.Fixes CoreApplication.harness (publishedId (H := H) event now) := by
    unfold publishedId
    split
    · exact .pure _
    · exact hnext
  have hsequence (envelope : EventEnvelope) :
      Proc.Fixes CoreApplication.harness (sequenceEnvelope (H := H) envelope) := by
    refine .bind .get fun s => ?_
    split
    · exact .fail _
    · exact .bind (.modify fun _ => rfl) fun _ => .pure _
  have happend (e : DomainEvent) :
      Proc.Fixes CoreApplication.harness (appendDomainEvent (H := H) e) := by
    refine .act fun s => ?_
    split <;> rfl
  refine .bind hid fun eventId => ?_
  dsimp only
  split
  · refine .bind (.bind .get fun s => ?_) fun _ => .bind (.ofExcept _) fun _ => hsequence _
    split
    · refine .bind (.ofExcept _) fun r => ?_
      split
      · exact .pure _
      · exact .bind (happend _) fun _ => .pure _
    · exact .pure _
  · exact .bind (.ofExcept _) fun _ => hsequence _

section Backlog

variable [HarnessRuntimePort H] [QueuedHarness H]

open QueuedHarness (backlog)

/-- An event that is handed over was in the backlog. -/
theorem spec_backlog_pollStream (h : H) (now : UInt64) :
    Proc.Spec (fun x : Supervised H => x.harness = h) (pollStream now)
      (fun r x => r.isSome → backlog x.harness < backlog h) (fun _ _ => True) fun _ => True := by
  refine .bind (M := fun _ x => x.harness = h) (.get fun _ hx => hx) fun x => ?_
  split
  · exact .pure fun _ _ hr => by cases hr
  · rename_i sessionId _
    refine .bind (M := fun r x => r.isSome → backlog x.harness < backlog h)
      (.mapError (.act (fun x r hx hr hsome => ?_) (fun _ _ _ _ => trivial) fun _ _ => trivial))
      fun r => ?_
    · obtain ⟨event, rfl⟩ := Option.isSome_iff_exists.1 hsome
      subst hx
      exact QueuedHarness.backlog_pollEvent x.harness sessionId event hr
    · split
      · exact .pure fun _ _ hr => by cases hr
      · have hstable : Stable Eq fun x : Supervised H =>
            (some ‹HarnessEvent›).isSome → backlog x.harness < backlog h :=
          ⟨⟨fun _ _ _ hx => hx, fun _ _ hq hx hr => hq ▸ hx hr⟩, fun _ _ _ hx => hx⟩
        exact (keeps_applyEvent hstable _ now).mono (fun _ hx => hx) (fun _ _ hx _ => hx rfl)
          (fun _ _ _ => trivial) fun _ _ => trivial

/-- An envelope costs the harness an event. -/
theorem spec_backlog_pollThreadEvents (app : CoreApplication H) (threadId : ThreadId)
    (now : UInt64) :
    Proc.Spec (· = app) (pollThreadEvents threadId now)
      (fun r app' => r.isSome → backlog app'.harness < backlog app.harness) (fun _ _ => True)
      fun _ => True := by
  refine .bind (M := fun r app' => r.isSome → backlog app'.harness < backlog app.harness)
    (.mapError (spec_onThread (fun _ _ _ => trivial) fun app' v happ _ => ?_)) fun r => ?_
  · subst happ
    refine (spec_backlog_pollStream app'.harness 0).mono ?_ (fun _ _ hx => hx)
      (fun _ _ hx => hx) fun _ hx => hx
    rintro x rfl
    rfl
  · split
    · exact .pure fun _ _ hr => by cases hr
    · rename_i event
      have hkeeps := (fixes_harness_publishRuntimeEvent (H := H) event none none now true).keeps
        (ends_publishRuntimeEvent event none none now true)
        (I := fun app' => backlog app'.harness < backlog app.harness) fun _ _ heq h => heq ▸ h
      refine .bind (M := fun _ app' => backlog app'.harness < backlog app.harness)
        (hkeeps.mono (fun _ h => h rfl) (fun _ _ h => h) (fun _ _ _ => trivial) fun _ _ => trivial)
        fun _ => .pure fun _ h _ => h

end Backlog

end Altior.Application
