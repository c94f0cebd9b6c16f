import Altior.Desktop.Bridge
import Altior.Ipc.Reconnect

/-!
# The bridge and the event stream of Core

A bridge and the daemon it attaches to.  The daemon sends what its log is given to the
sessions that are subscribed (`altior-core/src/application/daemon.rs`).  A bridge that
attaches says hello and takes the greeting, and there it stops: the command that would
subscribe where its session left off is never built.
-/

namespace Altior.Desktop

open Application Domain Ipc Lib

/-- The daemon's side of the connection of the bridge. -/
structure CoreSide where
  session : ServerSession
  state : DaemonSessionState

/-- What an attempt to attach finds: no Core, or a Core, with the token the bridge says
hello with and whether the reader gets a handle of the connection. -/
inductive Attempt
  | failed (error : BridgeError)
  | reached (launchToken : String) (cloned : Bool)

/-- The attempt finds Core, with the token of its launch. -/
def Attempt.Reaches (credentials : LaunchCredentials) : Attempt → Prop
  | .failed _ => False
  | .reached launchToken _ => launchToken = credentials.launchToken

instance (credentials : LaunchCredentials) : (a : Attempt) → Decidable (a.Reaches credentials)
  | .failed _ => isFalse id
  | .reached launchToken _ => inferInstanceAs (Decidable (launchToken = credentials.launchToken))

/-- What may happen.  The daemon serves the waiting command number `command`: one that
subscribes gets a boundary, any other some replies.  It gives its log an event, which
it sends to the subscribed sessions or to none. -/
inductive Subscribing
  | handshake (attempt : Attempt)
  | reconnect (cursor : Option ReconnectCursor) (attempt : Attempt)
  | close
  | disconnect
  | command (envelope : CommandEnvelope)
  | send (outcome : SendOutcome)
  | register
  | serve (command : Nat) (boundaryEventId : EventId) (now : UInt64) (replies : List ReplyEnvelope)
  | append (event : NewEvent) (broadcast : Bool)
  | read

/-- The bridge is made to attach, and reaches Core. -/
def Subscribing.Reaches (credentials : LaunchCredentials) : Subscribing → Prop
  | .handshake attempt | .reconnect _ attempt => attempt.Reaches credentials
  | .close | .disconnect | .command _ | .send _ | .register | .serve _ _ _ _ | .append _ _
  | .read => False

instance (credentials : LaunchCredentials) : (i : Subscribing) → Decidable (i.Reaches credentials)
  | .handshake attempt | .reconnect _ attempt =>
    inferInstanceAs (Decidable (attempt.Reaches credentials))
  | .close | .disconnect | .command _ | .send _ | .register | .serve _ _ _ _ | .append _ _
  | .read => isFalse id

/-- A bridge and a daemon.  `coming` and `sent` are what is on its way between them: the
commands the daemon has not served and the frames the reader has not read.  `joined` is
history: how much the log had been given when the bridge attached first. -/
structure Subscription where
  bridge : Bridge
  history : History
  core : Option CoreSide
  coming : List CommandEnvelope
  sent : List Frame
  joined : Option Nat

namespace Subscription

/-! ## Attaching -/

/-- The answer of the daemon to the hello of a new connection. -/
def greet (credentials : LaunchCredentials) (s : Subscription) :
    Attempt → AttachOutcome × Option ServerSession
  | .failed error => (.failed error, none)
  | .reached launchToken cloned =>
    match (ServerSession.withLog credentials supportedProtocolVersions).acceptHello s.history.log
        (BridgeSession.createHello launchToken) with
    | (.error _, _) => (.failed .handshakeFailed, none)
    | (.ok (version, greeting), session) => (.greeted greeting version cloned, some session)

/-- The connection is gone, with what was on its way. -/
def cut (s : Subscription) : Subscription := { s with core := none, coming := [], sent := [] }

/-- The bridge is attached over a new connection. -/
def join (s : Subscription) (session : Option ServerSession) : Subscription :=
  { s.cut with
    core := session.map fun session => ⟨session, .authenticated⟩
    joined := s.joined.or (some s.history.appended.length) }

/-- The bridge takes a message that makes it attach, with what the attempt comes to. -/
def attach (credentials : LaunchCredentials) (s : Subscription)
    (message : AttachOutcome → Bridging) (attempt : Attempt) : Subscription :=
  let greeted := s.greet credentials attempt
  let bridge := s.bridge.step (message greeted.1)
  if s.bridge.opened < bridge.opened then { s.join greeted.2 with bridge := bridge }
  else { s with bridge := bridge }

/-! ## The daemon -/

/-- The log was given envelopes. -/
def given (s : Subscription) (log : EventLog) (events : List EventEnvelope) : Subscription :=
  { s with history := ⟨log, s.history.appended ++ events⟩ }

/-- The daemon sends frames over the connection of the bridge. -/
def post (s : Subscription) (frames : List Frame) : Subscription :=
  { s with sent := s.sent ++ frames }

/-- `handle_subscribe`: the catch-up, and from then on what is broadcast. -/
def handleSubscribe (s : Subscription) (core : CoreSide) (operationId : OperationId)
    (payload : Option Json) (boundaryEventId : EventId) (now : UInt64) : Subscription :=
  match core.session.acceptSubscribe s.history.log operationId payload boundaryEventId now with
  -- a command that fails costs the connection
  | (.error _, _) => { s with core := none, coming := [] }
  | (.ok (delivery, log), session) =>
    { (s.given log (boundaryOf delivery)).post ((deliveryOf delivery).map .event) with
      core := some ⟨session, .subscribed⟩ }

/-- The daemon serves a command. -/
def serve (s : Subscription) (core : CoreSide) (envelope : CommandEnvelope)
    (boundaryEventId : EventId) (now : UInt64) (replies : List ReplyEnvelope) : Subscription :=
  match envelope.command with
  | .subscribe payload =>
    s.handleSubscribe core envelope.operationId payload boundaryEventId now
  | _ => s.post (replies.map .reply)

/-- The log is given an event, which goes to a session that is subscribed. -/
def append (s : Subscription) (event : NewEvent) (broadcast : Bool) : Subscription :=
  match s.history.log.append event.envelope with
  | .error _ => s
  | .ok (sealed, log) =>
    match s.core with
    | some ⟨_, .subscribed⟩ =>
      (s.given log [sealed]).post (if broadcast then [.event sealed] else [])
    | _ => s.given log [sealed]

/-! ## Steps -/

/-- The frame of a command goes to the daemon. -/
def send (s : Subscription) (outcome : SendOutcome) : Subscription :=
  let coming :=
    match s.bridge.worker, s.bridge.channel, outcome, s.core with
    | .recorded _ envelope, some _, .sent, some _ => s.coming ++ [envelope]
    | _, _, _, _ => s.coming
  { s with bridge := s.bridge.step (.send outcome), coming := coming }

/-- The reader takes the next frame. -/
def read (s : Subscription) : Subscription :=
  match s.bridge.reader, s.sent with
  | some _, frame :: rest => { s with bridge := s.bridge.step (.read frame), sent := rest }
  | _, _ => s

/-- What of the worker's messages ends the connection, it takes between two commands. -/
def whenIdle (s : Subscription) (f : Subscription → Subscription) : Subscription :=
  match s.bridge.worker with
  | .idle => f s
  | .recorded _ _ | .sent _ _ => s

/-- One step. -/
def step (credentials : LaunchCredentials) (s : Subscription) : Subscribing → Subscription
  | .handshake attempt => s.attach credentials .handshake attempt
  | .reconnect cursor attempt =>
    s.whenIdle fun s => s.cut.attach credentials (.reconnect cursor) attempt
  | .close => s.whenIdle fun s => { s.cut with bridge := s.bridge.step .close }
  | .disconnect => { s.cut with bridge := s.bridge.step .disconnect }
  | .command envelope => { s with bridge := s.bridge.step (.command envelope) }
  | .send outcome => s.send outcome
  | .register => { s with bridge := s.bridge.step .register }
  | .serve command boundaryEventId now replies =>
    match s.core, s.coming[command]? with
    | some core, some envelope =>
      { s with coming := s.coming.eraseIdx command }.serve core envelope boundaryEventId now
        replies
    | _, _ => s
  | .append event broadcast => s.append event broadcast
  | .read => s.read

/-- A Desktop that has just started, and one launch of Core. -/
def machine (credentials : LaunchCredentials) (log : EventLog) :
    Machine Subscription Subscribing where
  init := ⟨.new, ⟨log, []⟩, none, [], [], none⟩
  step := step credentials

/-- A command that subscribes where the session of the bridge left off. -/
def Resumes (s : Subscription) (envelope : CommandEnvelope) : Prop :=
  envelope = BridgeSession.createSubscribeCommand s.bridge.session.subscribeSince
    envelope.operationId

/-- The event stream is resumed: over its connection the bridge is subscribed, or the
command that subscribes it is on its way, and once nothing is on its way, what the log
was given since the bridge attached first was delivered, or a gap that covers it. -/
structure Resumed (s : Subscription) : Prop where
  subscribed : ∀ core, s.core = some core →
    core.state = .subscribed ∨ ∃ envelope ∈ s.coming, s.Resumes envelope
  delivered : s.core.isSome → s.coming = [] → s.sent = [] →
    ∀ n, s.joined = some n → ∀ e ∈ s.history.appended.drop n,
      e ∈ s.bridge.delivered ∨ ∃ boundary ∈ s.bridge.delivered, Attachment.Covers boundary e

/-! ## Before the bridge attaches -/

/-- The bridge was never attached. -/
structure Apart (capacity : Nat) (s : Subscription) : Prop where
  worker : s.bridge.worker = .idle
  status : s.bridge.status ≠ .connected
  core : s.core = none
  sent : s.sent = []
  joined : s.joined = none
  windowed : s.history.Windowed capacity

variable {credentials : LaunchCredentials} {capacity : Nat} {s : Subscription}

/-- Apart from each other, there is nothing to resume. -/
theorem Apart.resumed (h : s.Apart capacity) : s.Resumed where
  subscribed core hcore := by
    rw [h.core] at hcore
    cases hcore
  delivered hopen := by
    rw [h.core] at hopen
    cases hopen

theorem apart_init (credentials : LaunchCredentials) (capacity : Nat) :
    (machine credentials (.new capacity)).init.Apart capacity :=
  ⟨rfl, TransportStatus.noConfusion, rfl, rfl, rfl, History.windowed_new capacity⟩

variable {attempt : Attempt} {b : Bridge}

/-- An attempt that does not reach Core with its token comes to nothing. -/
theorem greet_failed (h : ¬ attempt.Reaches credentials) :
    ∃ error, s.greet credentials attempt = (.failed error, none) := by
  cases attempt with
  | failed error => exact ⟨error, rfl⟩
  | reached launchToken cloned =>
    refine ⟨.handshakeFailed, ?_⟩
    have hother : (BridgeSession.createHello launchToken).launchToken ≠
        (ServerSession.withLog credentials supportedProtocolVersions).credentials.launchToken := h
    have hfirst : ¬ (ServerSession.withLog credentials
        supportedProtocolVersions).selectedVersion.isSome := Bool.false_ne_true
    simp only [greet, ServerSession.acceptHello, if_neg hfirst, if_pos hother]

/-- Core greets a bridge that has its token. -/
theorem greet_reached (h : attempt.Reaches credentials) :
    ∃ cloned, s.greet credentials attempt =
      (.greeted ⟨1, credentials.instanceId, s.history.log.retained⟩ 1 cloned,
        some ⟨credentials, supportedProtocolVersions, some 1, false⟩) := by
  cases attempt with
  | failed error => exact absurd h id
  | reached launchToken cloned =>
    refine ⟨cloned, ?_⟩
    have hsame : ¬ (BridgeSession.createHello launchToken).launchToken ≠
        (ServerSession.withLog credentials supportedProtocolVersions).credentials.launchToken :=
      not_not.2 h
    have hfirst : ¬ (ServerSession.withLog credentials
        supportedProtocolVersions).selectedVersion.isSome := Bool.false_ne_true
    simp only [greet, ServerSession.acceptHello, if_neg hfirst, if_neg hsame]
    rfl

/-- The window that a log retains is one of a greeting. -/
theorem validate_greeting {h : History} (hw : h.Windowed capacity) (hpos : 0 < capacity)
    (instanceId : CoreInstanceId) :
    (CoreGreeting.mk 1 instanceId h.log.retained).validate = .ok () := by
  have hversion : ¬ (!supportedProtocolVersions.contains 1) = true := by decide
  unfold CoreGreeting.validate
  rw [if_neg hversion]
  by_cases hne : h.appended = []
  · have hnone : h.log.retained = none := by
      unfold EventLog.retained
      rw [hw.events, hne, List.drop_nil]
      rfl
    rw [hnone]
  · obtain ⟨first, last, hretained, hfirst, hlast⟩ := hw.retained_eq hpos hne
    have hlength := List.length_pos_iff.2 hne
    have hle : ¬ last < first := by
      rw [UInt64.lt_iff_toNat_lt]
      omega
    rw [hretained]
    exact if_neg hle

/-- A greeting of Core is taken. -/
theorem acceptGreeting_isOk {h : History} (hw : h.Windowed capacity) (hpos : 0 < capacity)
    (session : BridgeSession) (instanceId : CoreInstanceId) :
    ∃ outcome session', session.acceptGreeting ⟨1, instanceId, h.log.retained⟩ 1 =
      .ok (outcome, session') := by
  have hvalid := validate_greeting hw hpos instanceId
  by_cases hknown : session.inner.instanceId = some instanceId
  · refine ⟨.resumed, { session with inner := session.inner }, ?_⟩
    simp only [BridgeSession.acceptGreeting, ClientSession.acceptGreeting, hvalid, if_pos hknown,
      ne_eq, not_true_eq_false, if_false]
  · refine ⟨.restarted, ⟨⟨some instanceId, none, ∅⟩, session.ledger.clear⟩, ?_⟩
    simp only [BridgeSession.acceptGreeting, ClientSession.acceptGreeting, hvalid, if_neg hknown,
      ne_eq, not_true_eq_false, if_false]

/-- An attempt that fails leaves a bridge apart. -/
theorem Apart.attach_failed (h : s.Apart capacity) {message : AttachOutcome → Bridging}
    (hmessage : ∀ error, (s.bridge.step (message (.failed error))).worker = .idle ∧
      (s.bridge.step (message (.failed error))).status ≠ .connected ∧
      (s.bridge.step (message (.failed error))).opened = s.bridge.opened)
    (hattempt : ¬ attempt.Reaches credentials) :
    (s.attach credentials message attempt).Apart capacity := by
  obtain ⟨error, hgreet⟩ := greet_failed (s := s) hattempt
  obtain ⟨hworker, hstatus, hopened⟩ := hmessage error
  have hsame : ¬ s.bridge.opened < (s.bridge.step (message (.failed error))).opened := by
    rw [hopened]
    exact Nat.lt_irrefl _
  unfold attach
  simp only [hgreet, if_neg hsame]
  exact { h with worker := hworker, status := hstatus }

/-- A bridge that reaches Core is attached, and not subscribed. -/
theorem core_attach (message : AttachOutcome → Bridging) (hattempt : attempt.Reaches credentials)
    (hmessage : ∀ cloned, s.bridge.opened < (s.bridge.step (message
      (.greeted ⟨1, credentials.instanceId, s.history.log.retained⟩ 1 cloned))).opened) :
    (s.attach credentials message attempt).core =
        some ⟨⟨credentials, supportedProtocolVersions, some 1, false⟩, .authenticated⟩ ∧
      (s.attach credentials message attempt).coming = [] := by
  obtain ⟨cloned, hgreet⟩ := greet_reached (s := s) hattempt
  unfold attach
  simp only [hgreet, if_pos (hmessage cloned)]
  exact ⟨rfl, rfl⟩

/-- So attached, the bridge does not resume the stream. -/
theorem not_resumed {core : CoreSide} (hcore : s.core = some core)
    (hstate : core.state = .authenticated) (hcoming : s.coming = []) : ¬ s.Resumed := by
  intro hresumed
  rcases hresumed.subscribed core hcore with hsub | ⟨envelope, hmem, -⟩
  · rw [hstate] at hsub
    cases hsub
  · rw [hcoming] at hmem
    exact List.not_mem_nil hmem

/-! ### The messages of a bridge that is apart -/

theorem handshake_failed (hworker : b.worker = .idle) (hstatus : b.status ≠ .connected)
    (error : BridgeError) :
    b.step (.handshake (.failed error)) = { b with status := .unavailable } := by
  have hfirst : ¬ (b.status = .connected ∧ b.handshake.isSome) := fun h => hstatus h.1
  simp only [Bridge.step, Bridge.whenIdle, hworker, Bridge.handshakeWith, if_neg hfirst, Bridge.attach]

theorem reconnect_failed (hworker : b.worker = .idle) (cursor : Option ReconnectCursor)
    (error : BridgeError) : b.step (.reconnect cursor (.failed error)) =
      { b.detach cursor with status := .disconnected } := by
  simp only [Bridge.step, Bridge.whenIdle, hworker, Bridge.reconnectWith, Bridge.attach]

theorem opened_handshake (hworker : b.worker = .idle) (hstatus : b.status ≠ .connected)
    {greeting : CoreGreeting} {version : Nat} (cloned : Bool) {outcome : GreetingOutcome}
    {session : BridgeSession}
    (haccept : b.session.acceptGreeting greeting version = .ok (outcome, session)) :
    (b.step (.handshake (.greeted greeting version cloned))).opened = b.opened + 1 := by
  have hfirst : ¬ (b.status = .connected ∧ b.handshake.isSome) := fun h => hstatus h.1
  simp only [Bridge.step, Bridge.whenIdle, hworker, Bridge.handshakeWith, if_neg hfirst,
    Bridge.attach, haccept]

theorem opened_reconnect (hworker : b.worker = .idle) (cursor : Option ReconnectCursor)
    {greeting : CoreGreeting} {version : Nat} (cloned : Bool) {outcome : GreetingOutcome}
    {session : BridgeSession}
    (haccept : b.session.acceptGreeting greeting version = .ok (outcome, session)) :
    (b.step (.reconnect cursor (.greeted greeting version cloned))).opened = b.opened + 1 := by
  have haccept' : (b.detach cursor).session.acceptGreeting greeting version = .ok (outcome, session) :=
    haccept
  simp only [Bridge.step, Bridge.whenIdle, hworker, Bridge.reconnectWith, Bridge.attach, haccept']
  rfl

/-- There is nothing to read. -/
theorem read_nil (h : s.sent = []) : s.read = s := by
  unfold read
  split
  · rename_i frame rest _ hsent
    cases h.symm.trans hsent
  · rfl

/-- A command finds a bridge that is not connected. -/
theorem command_refused (hworker : b.worker = .idle) (hstatus : b.status ≠ .connected)
    (envelope : CommandEnvelope) :
    (b.step (.command envelope)).worker = .idle ∧
      (b.step (.command envelope)).status ≠ .connected := by
  simp only [Bridge.step, Bridge.whenIdle, hworker, Bridge.takeCommand]
  by_cases hclosed : b.status = .closed
  · rw [if_pos hclosed]
    exact ⟨hworker, hstatus⟩
  · rw [if_neg hclosed, if_pos hstatus]
    exact ⟨hworker, hstatus⟩

/-! ## Runs -/

theorem Apart.cut (h : s.Apart capacity) : s.cut.Apart capacity :=
  { h with core := rfl, sent := rfl }

/-- Nothing but reaching Core attaches a bridge. -/
theorem Apart.step (h : s.Apart capacity) (hpos : 0 < capacity) {i : Subscribing}
    (hi : ¬ i.Reaches credentials) : (step credentials s i).Apart capacity := by
  cases i with
  | handshake attempt =>
    refine h.attach_failed (fun error => ?_) hi
    rw [handshake_failed h.worker h.status]
    exact ⟨h.worker, TransportStatus.noConfusion, rfl⟩
  | reconnect cursor attempt =>
    simp only [Subscription.step, whenIdle, h.worker]
    refine h.cut.attach_failed (fun error => ?_) hi
    rw [reconnect_failed h.cut.worker]
    exact ⟨h.worker, TransportStatus.noConfusion, rfl⟩
  | close =>
    simp only [Subscription.step, whenIdle, Bridge.step, Bridge.whenIdle, h.worker]
    exact { h.cut with worker := h.worker, status := TransportStatus.noConfusion }
  | disconnect =>
    simp only [Subscription.step, Bridge.step, Bridge.disconnect]
    split
    · exact { h.cut with worker := h.worker, status := h.status }
    · refine { h.cut with worker := h.worker, status := ?_ }
      change (if s.bridge.stopReader then s.bridge.status else .disconnected) ≠ _
      split
      · exact h.status
      · exact TransportStatus.noConfusion
  | command envelope =>
    obtain ⟨hworker, hstatus⟩ := command_refused h.worker h.status envelope
    exact { h with worker := hworker, status := hstatus }
  | send outcome =>
    simp only [Subscription.step, send, Bridge.step, h.worker]
    exact { h with }
  | register =>
    simp only [Subscription.step, Bridge.step, h.worker]
    exact { h with }
  | serve command boundaryEventId now replies =>
    simp only [Subscription.step, h.core]
    exact h
  | append event broadcast =>
    simp only [Subscription.step, append, h.core]
    have hwindowed := h.windowed.append hpos event.envelope
    unfold History.append at hwindowed
    split
    · exact h
    · rename_i sealed log happend
      rw [happend] at hwindowed
      exact { h with windowed := hwindowed }
  | read =>
    change s.read.Apart capacity
    rw [read_nil h.sent]
    exact h

/-- Reaching Core attaches a bridge, which is not subscribed then. -/
theorem Apart.not_resumed_step (h : s.Apart capacity) (hpos : 0 < capacity) {i : Subscribing}
    (hi : i.Reaches credentials) : ¬ (Subscription.step credentials s i).Resumed := by
  obtain ⟨outcome, session, haccept⟩ :=
    acceptGreeting_isOk h.windowed hpos s.bridge.session credentials.instanceId
  cases i with
  | handshake attempt =>
    obtain ⟨hcore, hcoming⟩ := core_attach (s := s) .handshake hi fun cloned => by
      rw [opened_handshake h.worker h.status cloned haccept]
      exact Nat.lt_succ_self _
    exact not_resumed hcore rfl hcoming
  | reconnect cursor attempt =>
    obtain ⟨hcore, hcoming⟩ := core_attach (s := s.cut) (.reconnect cursor) hi
      fun cloned => by
        have hopened := opened_reconnect h.worker cursor cloned haccept
        exact Nat.lt_of_lt_of_eq (Nat.lt_succ_self _) hopened.symm
    simp only [Subscription.step, whenIdle, h.worker]
    exact not_resumed hcore rfl hcoming
  | close | disconnect | command | send | register | serve | append | read => exact absurd hi id

/-- A Desktop resumes the event stream all along a run if and only if no attempt of
the run to attach reaches Core. -/
theorem resumed_iff (credentials : LaunchCredentials) (capacity : Nat) (log : EventLog)
    (hnew : EventLog.tryNew capacity = .ok log) (inputs : List Subscribing) :
    (∀ done, done <+: inputs → ((machine credentials log).run done).Resumed) ↔
      ∀ i ∈ inputs, ¬ i.Reaches credentials := by
  unfold EventLog.tryNew at hnew
  split at hnew
  · cases hnew
  · rename_i hne
    cases hnew
    have hpos := Nat.pos_of_ne_zero hne
    have hinit := apart_init credentials capacity
    have hmeets : (∀ done, done <+: inputs →
          ((machine credentials (.new capacity)).run done).Resumed) ↔
        (machine credentials (.new capacity)).Meets (fun _ i => ¬ i.Reaches credentials)
          (machine credentials (.new capacity)).init inputs := by
      refine Machine.prefixes_iff_meets_of _ (J := Apart capacity) (fun s i hapart _ => ?_)
        (fun s i hapart _ hi => hapart.step hpos hi) hinit hinit.resumed
      exact ⟨fun hresumed hi => hapart.not_resumed_step hpos hi hresumed,
        fun hi => (hapart.step hpos hi).resumed⟩
    exact hmeets.trans (Machine.meets_const _)

/-! ### A Desktop that attaches, and one that does not -/

def sampleCredentials : LaunchCredentials := ⟨"token", ⟨"cor_00000000000000d3", by decide⟩⟩

/-- Without a Core there is nothing to resume. -/
theorem resumed_iff_sample : ((machine sampleCredentials (.new 8)).run
    [Subscribing.handshake (.failed .connectionClosed)]).Resumed :=
  (resumed_iff sampleCredentials 8 (.new 8) rfl _).2 (by decide) _ (List.prefix_refl _)

/-- A Desktop attaches, and an event of Core does not reach it. -/
theorem not_resumed_run : ¬ ∀ (credentials : LaunchCredentials) (capacity : Nat) (log : EventLog),
    EventLog.tryNew capacity = .ok log → ∀ inputs : List Subscribing,
      ((machine credentials log).run inputs).Resumed := by
  intro h
  have hresumed := h sampleCredentials 8 (.new 8) rfl
    [.handshake (.reached "token" true), .append ⟨eventIdOf 0 1, 0, .known .turnStarted, none, none,
      none⟩ true]
  generalize hs : (machine sampleCredentials (.new 8)).run
    [.handshake (.reached "token" true), .append ⟨eventIdOf 0 1, 0, .known .turnStarted, none, none,
      none⟩ true] = s at hresumed
  have hopen : s.core.isSome ∧ s.coming.length = 0 ∧ s.sent.length = 0 ∧ s.joined = some 0 ∧
      s.history.appended.length = 1 ∧ s.bridge.delivered.length = 0 := by
    rw [← hs]
    decide
  obtain ⟨hcore, hcoming, hsent, hjoined, happended, hdelivered⟩ := hopen
  obtain ⟨e, he⟩ := List.exists_mem_of_length_pos (Nat.lt_of_lt_of_eq Nat.one_pos happended.symm)
  have hnone := List.eq_nil_of_length_eq_zero hdelivered
  rcases hresumed.delivered hcore (List.eq_nil_of_length_eq_zero hcoming)
    (List.eq_nil_of_length_eq_zero hsent) 0 hjoined e he with hmem | ⟨boundary, hmem, -⟩
  all_goals
    rw [hnone] at hmem
    exact List.not_mem_nil hmem

end Subscription

end Altior.Desktop
