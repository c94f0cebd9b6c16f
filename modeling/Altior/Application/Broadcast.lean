import Altior.Application.Publish

/-!
# Live delivery

Every envelope the log is given after a session subscribed reaches that session
once and in the order of the log, as long as its connection is open, provided that
no step drops an envelope on its way from the log to the broadcast.
-/

namespace Altior.Application

open Domain Lib Storage Altior.Runtime
open Serving (onApp onShared onSession send)

section Delivery

variable [SerdeJsonWriter] {H : Type}

/-! ## The invariant -/

/-- The envelopes a session that subscribed at this point is owed: those the log
was given later, without the boundaries of catch-ups. -/
def live (subscribedAt : Nat) (e : EventEnvelope) : Bool :=
  subscribedAt < e.sequence.toNat && !e.isBoundary

/-- What is shared is sound: the history is that of the log, and what is queued for
the broadcast went through it. -/
structure Shared.Sound (w : Shared H) : Prop where
  recorded : Chronicled w.app.log w.appended
  queued : ∀ e ∈ w.broadcastEvents, e ∈ w.appended

/-- A session is abreast of the log: what it was sent and what is queued for it is
what it is owed.  A connection that was closed has got a first part of that. -/
structure Abreast (w : Shared H) (s : DaemonClientSession) : Prop where
  known : ∀ e ∈ s.received, e ∈ w.appended
  flag : s.state = .subscribed → s.subscribed = true
  order : s.state = .subscribed →
    s.received.filter (live s.subscribedAt) <+: w.appended.filter (live s.subscribedAt)
  due : s.state = .subscribed → s.connection.closed = false →
    s.received.filter (live s.subscribedAt) ++ w.broadcastEvents.filter (live s.subscribedAt)
      = w.appended.filter (live s.subscribedAt)

/-- The log and the broadcast grew by the same envelopes, but for boundaries. -/
def Extends (w w' : Shared H) : Prop :=
  ∃ es bs, w'.appended = w.appended ++ es ∧ w'.broadcastEvents = w.broadcastEvents ++ bs ∧
    es.filter (fun e => !e.isBoundary) = bs.filter fun e => !e.isBoundary

variable {w' : Shared H} {es : List EventEnvelope} {s : DaemonClientSession} {e : EventEnvelope}
  {now : UInt64} {d : CoreDaemon H}

namespace Extends

theorem refl (w : Shared H) : Extends w w := ⟨[], [], by simp, by simp, rfl⟩

theorem trans {w w'' : Shared H} (h : Extends w w') (h' : Extends w' w'') : Extends w w'' := by
  obtain ⟨es, bs, happended, hqueued, hsame⟩ := h
  obtain ⟨es', bs', happended', hqueued', hsame'⟩ := h'
  refine ⟨es ++ es', bs ++ bs', ?_, ?_, ?_⟩
  · rw [happended', happended, List.append_assoc]
  · rw [hqueued', hqueued, List.append_assoc]
  · rw [List.filter_append, List.filter_append, hsame, hsame']

end Extends

omit [SerdeJsonWriter] in
/-- Lists with the same envelopes but for boundaries hold the same live ones. -/
theorem filter_live_eq {bs : List EventEnvelope} (n : Nat)
    (h : es.filter (fun e => !e.isBoundary) = bs.filter fun e => !e.isBoundary) :
    es.filter (live n) = bs.filter (live n) := by
  have hsplit (l : List EventEnvelope) : l.filter (live n) =
      (l.filter fun e => !e.isBoundary).filter fun e => decide (n < e.sequence.toNat) := by
    rw [List.filter_filter]
    rfl
  rw [hsplit es, hsplit bs, h]

/-- A session stays abreast when the log and the broadcast grow together. -/
theorem Abreast.extend {w : Shared H} (h : Abreast w s) (hw : Extends w w') : Abreast w' s := by
  obtain ⟨es, bs, happended, hqueued, hsame⟩ := hw
  refine ⟨fun e he => ?_, h.flag, fun hs => ?_, fun hs hopen => ?_⟩
  · rw [happended]
    exact List.mem_append_left es (h.known e he)
  · rw [happended, List.filter_append]
    exact (h.order hs).trans (List.prefix_append _ _)
  · rw [happended, hqueued, List.filter_append, List.filter_append, ← List.append_assoc,
      h.due hs hopen, filter_live_eq _ hsame]

/-- A session that is sent no envelope, and neither subscribes nor reopens. -/
structure Calm (s s' : DaemonClientSession) : Prop where
  received : s'.received = s.received
  subscribedAt : s'.subscribedAt = s.subscribedAt
  subscribed : s'.subscribed = s.subscribed
  state : s'.state = .subscribed → s.state = .subscribed
  closed : s'.connection.closed = false → s.connection.closed = false

omit [SerdeJsonWriter] in
theorem Calm.of_face {s' : DaemonClientSession} (h : s'.face = s.face) : Calm s s' := by
  simp only [DaemonClientSession.face, Prod.mk.injEq] at h
  obtain ⟨hreceived, hstate, hat, hflag, hclosed⟩ := h
  exact ⟨hreceived, hat, hflag, fun h => hstate ▸ h, fun h => hclosed ▸ h⟩

omit [SerdeJsonWriter] in
theorem calm_close (s : DaemonClientSession) : Calm s s.close :=
  ⟨rfl, rfl, rfl, id, fun h => by cases h⟩

theorem Abreast.calm {w : Shared H} {s' : DaemonClientSession} (h : Abreast w s) (hs : Calm s s') :
    Abreast w s' := by
  refine ⟨?_, fun hstate => ?_, fun hstate => ?_, fun hstate hopen => ?_⟩
  · rw [hs.received]
    exact h.known
  · rw [hs.subscribed]
    exact h.flag (hs.state hstate)
  · rw [hs.received, hs.subscribedAt]
    exact h.order (hs.state hstate)
  · rw [hs.received, hs.subscribedAt]
    exact h.due (hs.state hstate) (hs.closed hopen)

/-- The invariant of a handler, over what was shared when it began. -/
structure Serving.Steady (w : Shared H) (x : Serving H) : Prop where
  sound : Shared.Sound x.shared
  grown : Extends w x.shared
  abreast : Abreast x.shared x.session

theorem Serving.Steady.of_face {w : Shared H} {x x' : Serving H} (h : Serving.Steady w x) (hface : x'.face = x.face) :
    Serving.Steady w x' := by
  simp only [Serving.face, Shared.face, Prod.mk.injEq] at hface
  obtain ⟨⟨hlog, happended, hqueued⟩, hsession⟩ := hface
  refine ⟨⟨?_, ?_⟩, ?_, ?_⟩
  · rw [hlog, happended]
    exact h.sound.recorded
  · rw [happended, hqueued]
    exact h.sound.queued
  · unfold Extends
    rw [happended, hqueued]
    exact h.grown
  · have habreast : Abreast x'.shared x.session :=
      h.abreast.extend ⟨[], [], by simp [happended], by simp [hqueued], rfl⟩
    exact habreast.calm (.of_face hsession)

/-! ## Subscribing -/

/-- A session that is about to be subscribed: nothing the log was given so far is
live for it. -/
structure Joining (w : Shared H) (x : Serving H) : Prop where
  sound : Shared.Sound x.shared
  grown : Extends w x.shared
  known : ∀ e ∈ x.session.received, e ∈ x.shared.appended
  flag : x.session.subscribed = true
  state : x.session.state ≠ .subscribed
  stale : ∀ e ∈ x.shared.appended, live x.session.subscribedAt e = false

namespace Joining

variable {w : Shared H} {x : Serving H}

theorem steady (h : Joining w x) : Serving.Steady w x :=
  ⟨h.sound, h.grown, h.known, fun hs => absurd hs h.state, fun hs => absurd hs h.state,
    fun hs => absurd hs h.state⟩

/-- Nothing is owed to a session that has just subscribed. -/
theorem subscribe (h : Joining w x) :
    Serving.Steady w { x with session := { x.session with state := .subscribed } } := by
  have hnone (l : List EventEnvelope) (hl : ∀ e ∈ l, e ∈ x.shared.appended) :
      l.filter (live x.session.subscribedAt) = [] := by
    rw [List.filter_eq_nil_iff]
    intro e he
    rw [h.stale e (hl e he)]
    exact Bool.false_ne_true
  have hreceived := hnone x.session.received h.known
  have happended := hnone x.shared.appended fun _ he => he
  have hqueued := hnone x.shared.broadcastEvents h.sound.queued
  refine ⟨h.sound, h.grown, h.known, fun _ => h.flag, fun _ => ?_, fun _ _ => ?_⟩
  · change List.filter (live x.session.subscribedAt) x.session.received <+: _
    rw [hreceived]
    exact List.nil_prefix
  · change List.filter (live x.session.subscribedAt) x.session.received ++
      List.filter (live x.session.subscribedAt) x.shared.broadcastEvents =
        List.filter (live x.session.subscribedAt) x.shared.appended
    rw [hreceived, hqueued, happended]
    rfl

/-- The boundary of the catch-up goes through the log. -/
theorem boundary {log : EventLog} {b b' : EventEnvelope} (h : Joining w x)
    (happend : x.shared.app.log.append b = .ok (b', log)) (hb : b.isBoundary = true) :
    Joining w { x with shared := { x.shared with
      app := { x.shared.app with log := log }, appended := x.shared.appended ++ [b'] } } := by
  have hb' : b'.isBoundary = true := by
    obtain ⟨-, rfl, -, -⟩ := EventLog.append_cases happend
    exact hb
  refine ⟨⟨h.sound.recorded.append happend, fun e he => ?_⟩, ?_, fun e he => ?_, h.flag, h.state,
    fun e he => ?_⟩
  · exact List.mem_append_left _ (h.sound.queued e he)
  · exact h.grown.trans ⟨[b'], [], rfl, by simp, by simp [hb']⟩
  · exact List.mem_append_left _ (h.known e he)
  · rcases List.mem_append.1 he with he | he
    · exact h.stale e he
    · rw [List.mem_singleton.1 he]
      simp [live, hb']

/-- An envelope of the history is replayed. -/
theorem replay {c : Connection} (h : Joining w x) (he : e ∈ x.shared.appended)
    (hsent : c.sent = x.session.connection.sent ∨
      c.sent = x.session.connection.sent ++ [.event e]) :
    Joining w { x with session := { x.session with connection := c } } := by
  refine ⟨h.sound, h.grown, fun e' he' => ?_, h.flag, h.state, h.stale⟩
  change e' ∈ c.sent.filterMap Frame.event? at he'
  rcases hsent with hsent | hsent
  · rw [hsent] at he'
    exact h.known e' he'
  · rw [hsent, List.filterMap_append] at he'
    rcases List.mem_append.1 he' with he' | he'
    · exact h.known e' he'
    · rw [List.mem_singleton.1 he']
      exact he

end Joining

theorem joining_send {w : Shared H} {P : Serving H → Prop}
    (hP : ∀ x c, P x → P { x with session := { x.session with connection := c } })
    (he : ∀ x, P x → e ∈ x.shared.appended) :
    Proc.Spec (fun x : Serving H => Joining w x ∧ P x) (send (.event e))
      (fun _ x => Joining w x ∧ P x) (fun _ => Serving.Steady w) (Serving.Steady w) := by
  unfold Serving.send Serving.onSession sendJson
  refine .zoom fun x hx => .act ?_ ?_ ?_
  · rintro s a rfl -
    exact ⟨hx.1.replay (he x hx.2) (sent_sendFrame _ _), hP x _ hx.2⟩
  · rintro s err rfl -
    exact (hx.1.replay (he x hx.2) (sent_sendFrame _ _)).steady
  · rintro s rfl
    exact hx.1.steady

/-- All of these went through the log. -/
def Past (events : List EventEnvelope) (x : Serving H) : Prop :=
  ∀ e ∈ events, e ∈ x.shared.appended

theorem joining_sendEvents {w : Shared H} (all : List EventEnvelope) :
    ∀ events : List EventEnvelope, (∀ e ∈ events, e ∈ all) →
      Proc.Spec (fun x : Serving H => Joining w x ∧ Past all x) (sendEvents events)
        (fun _ x => Joining w x ∧ Past all x) (fun _ => Serving.Steady w) (Serving.Steady w)
  | [], _ => .pure fun _ h => h
  | e :: rest, hall => by
      refine .bind (joining_send (fun _ _ h => h) fun x h => h e (hall e (List.mem_cons_self ..)))
        fun _ => joining_sendEvents all rest fun e' he' => hall e' (List.mem_cons_of_mem e he')

omit [SerdeJsonWriter] in
theorem mem_of_replayAfter {log : EventLog} {since : Option UInt64} {events : List EventEnvelope}
    (h : log.replayAfter since = .replay events) : ∀ e ∈ events, e ∈ log.events := by
  unfold EventLog.replayAfter at h
  split at h
  · split at h
    · cases h
    · split at h
      · cases h
      · cases h
        intro e he
        exact (List.mem_filter.1 he).1
  · cases h

/-- A boundary is published and stays in the history. -/
theorem joining_publishBoundary {w : Shared H} {b : EventEnvelope} (events : List EventEnvelope)
    (hb : b.isBoundary = true) :
    Proc.Spec (fun x : Serving H => Joining w x ∧ Past events x) (publishBoundary b)
      (fun b' x => Joining w x ∧ Past (events ++ [b']) x) (fun _ => Serving.Steady w) (Serving.Steady w) := by
  intro x n hx
  unfold publishBoundary Serving.onShared Shared.onApp Shared.record sequenceEnvelope
  simp only [Proc.zoom, Proc.bind_run, Proc.get_run]
  cases happend : x.shared.app.log.append b with
  | error err => exact ⟨hx.1.steady, id⟩
  | ok r =>
    refine ⟨⟨hx.1.boundary happend hb, fun e he => ?_⟩, id⟩
    rcases List.mem_append.1 he with he | he
    · exact List.mem_append_left _ (hx.2 e he)
    · exact List.mem_append_right _ he

/-- What a subscription is caught up with went through the log. -/
def Delivers : CatchUpDelivery → List EventEnvelope
  | .replay events boundary => events ++ [boundary]
  | .gap boundary => [boundary]
  | .upToDate => []

theorem joining_acceptSubscribe {w : Shared H} (operationId : OperationId) (payload : Option Json)
    (boundaryEventId : EventId) (now : UInt64) :
    Proc.Spec (Serving.Steady (H := H) w) (acceptSubscribe operationId payload boundaryEventId now)
      (fun delivery x => Joining w x ∧ Past (Delivers delivery) x) (fun _ => Serving.Steady w)
      (Serving.Steady w) := by
  refine .bind (M := fun x y => y = x ∧ Serving.Steady w y) (.get fun y hy => ⟨rfl, hy⟩) fun x => ?_
  split
  · exact .fail fun _ h => h.2
  split
  · exact .fail fun _ h => h.2
  rename_i hflag
  refine .bind (M := fun _ y => y = x ∧ Serving.Steady w y)
    (.ofExcept (fun _ _ _ h => h) fun _ _ _ h => h.2) fun since => ?_
  refine .bind (M := fun _ y => Joining w y ∧ Past x.shared.app.log.events y) ?_ fun _ => ?_
  · unfold Serving.onSession
    refine .zoom fun y hy => .modify fun s hs => ?_
    obtain ⟨rfl, hsteady⟩ := hy
    subst hs
    have hstate : y.session.state ≠ .subscribed := fun h => hflag (hsteady.abreast.flag h)
    refine ⟨⟨hsteady.sound, hsteady.grown, hsteady.abreast.known, rfl, hstate, fun e he => ?_⟩,
      fun e he => hsteady.sound.recorded.retained.subset he⟩
    have hle := hsteady.sound.recorded.sequence_le he
    simp [live, Nat.not_lt.2 hle]
  · split
    · rename_i events hplan
      refine .bind ((joining_publishBoundary events rfl).mono
        (fun y hy => ⟨hy.1, fun e he => hy.2 e (mem_of_replayAfter hplan e he)⟩)
        (fun _ _ h => h) (fun _ _ h => h) fun _ h => h) fun b => .pure fun _ h => h
    · refine .bind ((joining_publishBoundary [] rfl).mono
        (fun y hy => ⟨hy.1, fun e he => by cases he⟩) (fun _ _ h => h) (fun _ _ h => h)
        fun _ h => h) fun b => .pure fun _ h => h
    · exact .pure fun y hy => ⟨hy.1, fun e he => by cases he⟩

/-- A subscription leaves its session abreast of the log. -/
theorem steady_handleSubscribe {w : Shared H} (operationId : OperationId) (payload : Option Json)
    (now : UInt64) : Proc.Keeps (Serving.Steady (H := H) w) (handleSubscribe operationId payload now) := by
  have hid : Proc.Keeps (Serving.Steady (H := H) w) (onApp (nextEventId now)) :=
    (fixes_onApp (fixes_nextEventId now)).keeps
      (ends_onApp (ends_nextEventId now))
      fun _ _ hface hx => hx.of_face hface
  refine Proc.Spec.bind hid fun boundaryEventId =>
    Proc.Spec.bind (joining_acceptSubscribe operationId payload boundaryEventId now)
      fun delivery => ?_
  have hjoin : ∀ u : Unit, Proc.Spec (Joining (H := H) w)
      (onSession (Proc.modify fun s => { s with state := .subscribed })) (fun _ => Serving.Steady w)
      (fun _ => Serving.Steady w) (Serving.Steady w) := by
    unfold Serving.onSession
    intro _
    refine .zoom fun x hx => .modify fun s hs => ?_
    subst hs
    exact hx.subscribe
  cases delivery with
  | replay events boundary =>
    exact Proc.Spec.bind (joining_sendEvents (events ++ [boundary]) events
      fun e he => List.mem_append_left _ he) fun _ => Proc.Spec.bind (M := fun _ => Joining w)
        ((joining_send (P := Past (events ++ [boundary])) (fun _ _ h => h)
          fun x h => h boundary (by simp)).mono (fun _ h => h) (fun _ _ h => h.1)
            (fun _ _ h => h) fun _ h => h) hjoin
  | gap boundary =>
    exact Proc.Spec.bind (M := fun _ => Joining w)
      ((joining_send (P := Past [boundary]) (fun _ _ h => h)
        fun x h => h boundary (by simp)).mono (fun _ h => h) (fun _ _ h => h.1)
          (fun _ _ h => h) fun _ h => h) hjoin
  | upToDate =>
    exact (hjoin ()).mono (fun _ h => h.1) (fun _ _ h => h) (fun _ _ h => h) fun _ h => h

/-! ## Starting a turn -/

section Start

/-- A start that got as far as an envelope: the log was given it. -/
structure Started (x : Serving H) (e : EventEnvelope) (x' : Serving H) : Prop where
  log : ∃ e₀, x.shared.app.log.append e₀ = .ok (e, x'.shared.app.log)
  appended : x'.shared.appended = x.shared.appended ++ [e]
  queued : x'.shared.broadcastEvents = x.shared.broadcastEvents
  session : x'.session = x.session

/-- A start without an envelope. -/
structure Idle (x x' : Serving H) : Prop where
  face : x'.shared.face = x.shared.face
  session : x'.session = x.session

variable {x : Serving H}

theorem Idle.serving {x' : Serving H} (h : Idle x x') : x'.face = x.face := by
  unfold Serving.face
  rw [h.face, h.session]

/-- What came of a start. -/
def StartOutcome (x : Serving H)
    (r : Outcome (Serving H) CoreAppError (TurnId × TurnAdmission × Option EventEnvelope)) : Prop :=
  (∃ turnId admission e, r.ending = .done (turnId, admission, some e) ∧ Started x e r.state) ∨
    (∃ turnId admission, r.ending = .done (turnId, admission, none) ∧ Idle x r.state) ∨
      ∃ err, r.ending = .failed err ∧ Idle x r.state

/-- The prompt of a turn whose identifier is known. -/
theorem startOutcome_prompt (x : Serving H) (turnId : TurnId)
    {m : Proc (CoreApplication H) CoreAppError (TurnAdmission × Option EventEnvelope)}
    (hends : Proc.Ends m) (hpublishes : Publishes Prod.snd m) :
    let run := (onApp m >>= recordStart turnId) x none
    StartOutcome x run ∧ run.left = none := by
  have hlog := hpublishes x.shared.app none
  dsimp only
  unfold Serving.onApp Serving.onShared Shared.onApp
  rw [Proc.bind_run]
  rcases hends.cases x.shared.app with ⟨a, app, hrun⟩ | ⟨err, app, hrun⟩
  · obtain ⟨admission, envelope⟩ := a
    simp only [Proc.zoom, hrun]
    rw [hrun] at hlog
    cases envelope with
    | none => exact ⟨.inr (.inl ⟨turnId, admission, rfl, congrArg (·, _) hlog, rfl⟩), rfl⟩
    | some e => exact ⟨.inl ⟨turnId, admission, e, rfl, hlog, rfl, rfl, rfl⟩, rfl⟩
  · simp only [Proc.zoom, hrun]
    rw [hrun] at hlog
    exact ⟨.inr (.inr ⟨err, rfl, congrArg (·, _) hlog, rfl⟩), trivial⟩

variable [HarnessRuntimePort H] [DefaultHasher] [ErrorText] [CoreServices H]

theorem startOutcome_startTurn (operationId : OperationId)
    (payload : Except ProtocolError StartTurnCommand) (now : UInt64) (x : Serving H) :
    StartOutcome x (startTurn operationId payload now x none) ∧
      (startTurn operationId payload now x none).left = none := by
  unfold startTurn
  cases payload with
  | error err => exact ⟨.inr (.inr ⟨_, rfl, rfl, rfl⟩), rfl⟩
  | ok payload =>
    simp only [Except.mapError, Proc.bind_run, Proc.ofExcept_run, Ending.ofExcept_ok]
    cases payload.turnId with
    | some turnId =>
      exact startOutcome_prompt x turnId (ends_startPromptEnvelope _ _ _ _ _ _)
        (publishes_startPromptEnvelope _ _ _ _ _ _)
    | none =>
      -- the allocator is no part of what a start is judged by
      have hprompt := startOutcome_prompt
        ⟨{ x.shared with entityIds := x.shared.entityIds.next }, x.session⟩
        (x.shared.entityIds.newTurnId now)
        (ends_startPromptEnvelope operationId payload.threadId
          (x.shared.entityIds.newTurnId now) payload.prompt.asStr now
          (CoreServices.assembleContext H operationId payload.threadId
            (x.shared.entityIds.newTurnId now) payload.prompt.asStr now))
        (publishes_startPromptEnvelope _ _ _ _ _ _)
      exact ⟨hprompt.1.imp (fun ⟨t, a, e, hend, h⟩ => ⟨t, a, e, hend, ⟨h.1, h.2, h.3, h.4⟩⟩)
        (.imp (fun ⟨t, a, hend, h⟩ => ⟨t, a, hend, ⟨h.1, h.2⟩⟩)
          fun ⟨err, hend, h⟩ => ⟨err, hend, ⟨h.1, h.2⟩⟩), hprompt.2⟩

variable [ProtocolText]

/-- A start of a turn whose envelope went through the log but whose result cannot be
made or sent: the envelope is never queued for the broadcast. -/
def losesTurn (now : UInt64) (cmd : CommandEnvelope) (x : Serving H) : Bool :=
  match cmd.command with
  | .startTurn payload =>
    match (startTurn cmd.operationId payload now x none).ending with
    | .done (turnId, admission, some _) =>
      !(fits (startTurnData turnId admission) && x.session.connection.accepts)
    | _ => false
  | _ => false

omit [HarnessRuntimePort H] [DefaultHasher] [ErrorText] [CoreServices H] [ProtocolText] in
/-- The log and the broadcast grew by one envelope. -/
theorem Serving.Steady.grow {w : Shared H} {y : Serving H} {e₀ : EventEnvelope}
    (h : Serving.Steady w x) (hlog : x.shared.app.log.append e₀ = .ok (e, y.shared.app.log))
    (happended : y.shared.appended = x.shared.appended ++ [e])
    (hqueued : y.shared.broadcastEvents = x.shared.broadcastEvents ++ [e])
    (hsession : y.session.face = x.session.face) : Serving.Steady w y := by
  have hgrown : Extends x.shared y.shared := ⟨[e], [e], happended, hqueued, rfl⟩
  refine ⟨⟨?_, fun e' he' => ?_⟩, h.grown.trans hgrown,
    (h.abreast.extend hgrown).calm (.of_face hsession)⟩
  · rw [happended]
    exact h.sound.recorded.append hlog
  · rw [hqueued] at he'
    rw [happended]
    rcases List.mem_append.1 he' with he' | he'
    · exact List.mem_append_left _ (h.sound.queued e' he')
    · exact List.mem_append_right _ he'

/-- A start that loses no envelope. -/
theorem steady_handleStartTurn {w : Shared H} {cmd : CommandEnvelope}
    {payload : Except ProtocolError StartTurnCommand} (h : Serving.Steady w x)
    (hcmd : cmd.command = .startTurn payload) (hkeeps : losesTurn now cmd x = false) :
    Serving.Steady w (handleStartTurn cmd.operationId payload now x none).state := by
  obtain ⟨houtcome, hleft⟩ := startOutcome_startTurn cmd.operationId payload now x
  unfold handleStartTurn answer
  rw [Proc.bind_run]
  simp only [losesTurn, hcmd] at hkeeps
  unfold Proc.attempt
  revert houtcome hleft hkeeps
  rcases startTurn cmd.operationId payload now x none with ⟨ending, x', left⟩
  rintro (⟨turnId, admission, e, rfl, hstarted⟩ | ⟨turnId, admission, rfl, hidle⟩ | ⟨err, rfl, hidle⟩)
    rfl hkeeps
  · dsimp only at hkeeps hstarted ⊢
    simp only [Bool.not_eq_false', Bool.and_eq_true] at hkeeps
    have haccepts : x'.session.connection.accepts = true := hstarted.session ▸ hkeeps.2
    obtain ⟨r, w', hreply, -⟩ := replyResult_done cmd.operationId
      (some (startTurnData turnId admission)) now hkeeps.1 haccepts
    have hface := fixes_replyResult cmd.operationId (some (startTurnData turnId admission)) now
      x' none
    rw [hreply] at hface
    rw [Proc.bind_run, hreply]
    simp only [Serving.face, Shared.face, Prod.mk.injEq] at hface
    obtain ⟨⟨hlog, happended, hqueued⟩, hsession⟩ := hface
    obtain ⟨e₀, happend⟩ := hstarted.log
    refine h.grow (happend.trans (by rw [← hlog]; rfl)) ?_ ?_ ?_
    · exact happended.trans hstarted.appended
    · change w'.broadcastEvents ++ [e] = x.shared.broadcastEvents ++ [e]
      rw [hqueued, hstarted.queued]
    · exact hsession.trans (by rw [hstarted.session])
  · have hfixed : Proc.Fixes Serving.face (do
        replyResult cmd.operationId (some (startTurnData turnId admission)) now
        queueBroadcast (H := H) none) := .bind (fixes_replyResult _ _ _) fun _ => .pure _
    exact h.of_face ((hfixed x' none).trans hidle.serving)
  · exact h.of_face ((fixes_replyError _ _ _ _ x' none).trans hidle.serving)

/-- A command that loses no envelope keeps the invariant, however it ends. -/
theorem steady_executeNormalCommand {w : Shared H} {cmd : CommandEnvelope}
    (h : Serving.Steady w x) (hkeeps : losesTurn now cmd x = false) :
    Serving.Steady w (executeNormalCommand cmd now x none).state := by
  cases hcmd : cmd.command with
  | subscribe payload =>
    unfold executeNormalCommand
    rw [hcmd]
    exact (steady_handleSubscribe _ _ _).state h
  | startTurn payload =>
    unfold executeNormalCommand
    rw [hcmd]
    exact steady_handleStartTurn h hcmd hkeeps
  | _ => exact h.of_face (fixes_executeNormalCommand (by simp [hcmd]) (by simp [hcmd]) now x none)

end Start

/-! ## The phases of the commands -/

section Phases

variable {w : Shared H}

/-- The commands of a session keep the invariant where each of them does. -/
theorem steady_drain (exec : CommandEnvelope → Proc (Serving H) CoreAppError Unit)
    (put : List CommandEnvelope → DaemonClientSession → DaemonClientSession)
    {ok : CommandEnvelope → Serving H → Prop}
    (hput : ∀ commands s, (put commands s).face = s.face)
    (hexec : ∀ cmd x, Serving.Steady w x → ok cmd x → Serving.Steady w (exec cmd x none).state)
    {commands : List CommandEnvelope} {x : Serving H} (h : Serving.Steady w x)
    (hok : DrainMeets exec put ok commands x) : Serving.Steady w (drain exec put commands x).1 := by
  induction commands generalizing x with
  | nil => exact h
  | cons cmd rest ih =>
    have hx : Serving.Steady w { x with session := put rest x.session } :=
      h.of_face (congrArg (_, ·) (hput rest x.session))
    have hrun := hexec cmd _ hx hok.1
    have hrest := hok.2
    unfold drain
    revert hrun hrest
    rcases exec cmd { x with session := put rest x.session } none with ⟨_ | err | _, x', n'⟩
    · exact fun hrun hrest => ih (hrun.of_face rfl) hrest
    · exact fun hrun _ => ⟨hrun.sound, hrun.grown, hrun.abreast.calm (calm_close _)⟩
    · exact fun hrun _ => ⟨hrun.sound, hrun.grown, hrun.abreast.calm (calm_close _)⟩

/-- The phases keep what is shared sound and every session abreast. -/
theorem visit_abreast {f : Shared H → DaemonClientSession → Shared H × DaemonClientSession × Bool}
    {ok : Shared H → DaemonClientSession → Prop} (hstep : ∀ w s, w.Sound → Abreast w s → ok w s →
      (f w s).1.Sound ∧ Extends w (f w s).1 ∧ Abreast (f w s).1 (f w s).2.1)
    {sessions : List DaemonClientSession} (hw : w.Sound) (hall : ∀ s ∈ sessions, Abreast w s)
    (hok : VisitMeets f ok w sessions) :
    (visit f 0 w sessions).1.Sound ∧ Extends w (visit f 0 w sessions).1 ∧
      ∀ s ∈ (visit f 0 w sessions).2.1, Abreast (visit f 0 w sessions).1 s :=
  visit_keeps .refl (fun _ _ _ => .trans) (fun _ _ _ hR hG => hG.extend hR) hstep hw hall hok

variable [HarnessRuntimePort H] [DefaultHasher] [ErrorText]

theorem abreast_serveControl (hw : w.Sound) (hs : Abreast w s) :
    (serveControl now w s).1.Sound ∧ Extends w (serveControl now w s).1 ∧
      Abreast (serveControl now w s).1 (serveControl now w s).2.1 := by
  have hx : Serving.Steady w ⟨w, s⟩ := ⟨hw, .refl w, hs⟩
  have hdrain := steady_drain (fun cmd => executeControlCommand cmd now) putControl (fun _ _ => rfl)
    (fun cmd x hx _ => hx.of_face (fixes_executeControlCommand cmd now x none)) hx
    (drainMeets_true _ _ s.pendingControlCommands _)
  unfold serveControl
  split
  · exact ⟨hw, .refl w, hs⟩
  · exact ⟨hdrain.sound, hdrain.grown, hdrain.abreast⟩

variable [ProtocolText] [CoreServices H]

/-- No start of a turn among the commands of the session loses its envelope. -/
def KeepsTurns (now : UInt64) (w : Shared H) (s : DaemonClientSession) : Prop :=
  s.connection.closed = false →
    DrainMeets (fun cmd => executeNormalCommand cmd now) putNormal
      (fun cmd x => losesTurn now cmd x = false) s.pendingNormalCommands ⟨w, s⟩

instance (now : UInt64) (w : Shared H) (s : DaemonClientSession) :
    Decidable (KeepsTurns now w s) :=
  inferInstanceAs (Decidable (_ → _))

theorem abreast_serveNormal (hw : w.Sound) (hs : Abreast w s) (hkeeps : KeepsTurns now w s) :
    (serveNormal now w s).1.Sound ∧ Extends w (serveNormal now w s).1 ∧
      Abreast (serveNormal now w s).1 (serveNormal now w s).2.1 := by
  unfold serveNormal
  split
  · exact ⟨hw, .refl w, hs⟩
  · rename_i hopen
    have hx : Serving.Steady w ⟨w, s⟩ := ⟨hw, .refl w, hs⟩
    rw [Bool.not_eq_true] at hopen
    have hdrain := steady_drain (fun cmd => executeNormalCommand cmd now) putNormal (fun _ _ => rfl)
      (fun cmd x hx hok => steady_executeNormalCommand hx hok) hx (hkeeps hopen)
    exact ⟨hdrain.sound, hdrain.grown, hdrain.abreast⟩

end Phases

/-! ## Pumping -/

/-- The log was given these envelopes, and nothing was queued. -/
structure Pumped (w : Shared H) (es : List EventEnvelope) (w' : Shared H) : Prop where
  recorded : Chronicled w'.app.log w'.appended
  appended : w'.appended = w.appended ++ es
  queued : w'.broadcastEvents = w.broadcastEvents

theorem Pumped.trans {w w'' : Shared H} {es' : List EventEnvelope} (h : Pumped w es w')
    (h' : Pumped w' es' w'') : Pumped w (es ++ es') w'' where
  recorded := h'.recorded
  appended := by rw [h'.appended, h.appended, List.append_assoc]
  queued := h'.queued.trans h.queued

/-- A pump that is done returns what the log was given; one that fails gave the log
something too. -/
def Collected (w : Shared H) (r : Outcome (Shared H) CoreAppError (List EventEnvelope)) : Prop :=
  (∃ es w', r = ⟨.done es, w', none⟩ ∧ Pumped w es w') ∨
    ∃ err es w', r = ⟨.failed err, w', none⟩ ∧ Pumped w es w'

section Pump

variable [HarnessRuntimePort H]

theorem collected_pumpThread (threadId : ThreadId) (now : UInt64) (budget : Nat) {w : Shared H}
    (hw : Chronicled w.app.log w.appended) :
    Collected w (pumpThread threadId now budget w none) := by
  induction budget generalizing w with
  | zero => exact .inl ⟨[], w, rfl, hw, (List.append_nil _).symm, rfl⟩
  | succ budget ih =>
    have hlog := publishes_pollThreadEvents threadId now w.app none
    unfold pumpThread
    rw [Proc.bind_run]
    unfold Shared.onApp Proc.zoom
    rcases (ends_pollThreadEvents threadId now).cases w.app with ⟨r, app, hrun⟩ | ⟨err, app, hrun⟩
    · rw [hrun] at hlog
      simp only [hrun]
      cases r with
      | none =>
        refine .inl ⟨[], _, rfl, ?_, (List.append_nil _).symm, rfl⟩
        rw [show app.log = w.app.log from hlog]
        exact hw
      | some e =>
        obtain ⟨e₀, happend⟩ := hlog
        have hone : Pumped w [e] { w with app := app, appended := w.appended ++ [e] } :=
          ⟨hw.append happend, rfl, rfl⟩
        unfold Shared.record
        simp only [Proc.bind_run, Proc.modify_run]
        rcases ih hone.recorded with ⟨es, w', hrest, hes⟩ | ⟨err, es, w', hrest, hes⟩
        · rw [hrest]
          exact .inl ⟨e :: es, w', rfl, hone.trans hes⟩
        · rw [hrest]
          exact .inr ⟨err, e :: es, w', rfl, hone.trans hes⟩
    · rw [hrun] at hlog
      simp only [hrun]
      refine .inr ⟨err, [], _, rfl, ?_, (List.append_nil _).symm, rfl⟩
      rw [show app.log = w.app.log from hlog]
      exact hw

variable [QueuedHarness H]

theorem collected_pumpThreads (now : UInt64) (threads : List ThreadId) {w : Shared H}
    (hw : Chronicled w.app.log w.appended) : Collected w (pumpThreads now threads w none) := by
  induction threads generalizing w with
  | nil => exact .inl ⟨[], w, rfl, hw, (List.append_nil _).symm, rfl⟩
  | cons threadId rest ih =>
    unfold pumpThreads
    simp only [Proc.bind_run, Proc.get_run]
    rcases collected_pumpThread threadId now
        (QueuedHarness.backlog w.app.supervisor.harness + 1) hw with
      ⟨es, w', hrun, hes⟩ | ⟨err, es, w', hrun, hes⟩
    · rw [hrun]
      rcases ih hes.recorded with ⟨es', w'', hrest, hes'⟩ | ⟨err, es', w'', hrest, hes'⟩
      · simp only [hrest]
        exact .inl ⟨es ++ es', w'', rfl, hes.trans hes'⟩
      · simp only [hrest]
        exact .inr ⟨err, es ++ es', w'', rfl, hes.trans hes'⟩
    · rw [hrun]
      exact .inr ⟨err, es, w', rfl, hes⟩

theorem collected_pumpAllThreads (now : UInt64) {w : Shared H}
    (hw : Chronicled w.app.log w.appended) : Collected w (pumpAllThreads now w none) :=
  collected_pumpThreads now (threadIds w.app) hw

end Pump

/-! ## The broadcast -/

/-- What is shared, with these envelopes queued for the broadcast. -/
def Shared.queue (w : Shared H) (events : List EventEnvelope) : Shared H :=
  { w with broadcastEvents := events }

/-- A delivery takes the first envelope off what a session is still owed. -/
theorem abreast_deliver {w : Shared H} {rest : List EventEnvelope} (he : e ∈ w.appended)
    (h : Abreast (w.queue (e :: rest)) s) : Abreast (w.queue rest) (deliver e s).1 := by
  unfold deliver
  split
  · rename_i hto
    simp only [Bool.and_eq_true, Bool.not_eq_true', beq_iff_eq] at hto
    obtain ⟨hopen, hstate⟩ := hto
    have hdue : s.received.filter (live s.subscribedAt) ++
        (e :: rest).filter (live s.subscribedAt) = w.appended.filter (live s.subscribedAt) :=
      h.due hstate hopen
    cases haccepts : s.connection.accepts with
    | true =>
      rw [sendFrame_of_accepts haccepts]
      have hreceived : (s.sending (.event e)).received = s.received ++ [e] := by
        simp [DaemonClientSession.received, DaemonClientSession.sending, Frame.event?]
      have hsent : (s.received ++ [e]).filter (live s.subscribedAt) ++
          rest.filter (live s.subscribedAt) = w.appended.filter (live s.subscribedAt) := by
        rw [← hdue, ← List.filter_append, ← List.filter_append, List.append_assoc]
        rfl
      change Abreast (w.queue rest) (s.sending (.event e))
      refine ⟨fun e' he' => ?_, h.flag, fun _ => ?_, fun _ _ => ?_⟩
      · rw [hreceived] at he'
        rcases List.mem_append.1 he' with he' | he'
        · exact h.known e' he'
        · rw [List.mem_singleton.1 he']
          exact he
      · rw [hreceived]
        exact ⟨_, hsent⟩
      · rw [hreceived]
        exact hsent
    | false =>
      obtain ⟨err, c', hsend, hsent, -⟩ := sendFrame_of_not_accepts haccepts (.event e)
      rw [hsend]
      have hreceived : ({ s with connection := c' } : DaemonClientSession).close.received
          = s.received := by
        change c'.sent.filterMap Frame.event? = _
        rw [hsent]
        rfl
      refine ⟨fun e' he' => h.known e' (hreceived ▸ he'), h.flag, fun hs => ?_,
        fun _ hclosed => by cases hclosed⟩
      rw [hreceived]
      exact h.order hs
  · rename_i hto
    refine ⟨h.known, h.flag, h.order, fun hs hopen => absurd ?_ hto⟩
    rw [hopen, hs]
    rfl

theorem abreast_broadcast {w : Shared H} {events : List EventEnvelope}
    {sessions : List DaemonClientSession} (hevents : ∀ e ∈ events, e ∈ w.appended)
    (hall : ∀ s ∈ sessions, Abreast (w.queue events) s) :
    ∀ s ∈ (broadcast events sessions).1, Abreast (w.queue []) s := by
  induction events generalizing sessions with
  | nil => exact hall
  | cons e rest ih =>
    refine ih (fun e' he' => hevents e' (List.mem_cons_of_mem e he')) fun s hs => ?_
    rw [visit_alone] at hs
    obtain ⟨t, ht, rfl⟩ := List.mem_map.1 hs
    exact abreast_deliver (hevents e (List.mem_cons_self ..)) (hall t ht)

/-! ## Reading and accepting -/

section Reading

omit [SerdeJsonWriter]

variable {s₀ : DaemonClientSession}

theorem keeps_calm_sendJson {frame : Frame} (h : frame.event? = none) :
    Proc.Keeps (Calm s₀) (sendJson frame) := by
  refine .act fun s hs => ?_
  have hface := Calm.of_face (face_sendFrame (s := s) h)
  exact ⟨hface.received.trans hs.received, hface.subscribedAt.trans hs.subscribedAt,
    hface.subscribed.trans hs.subscribed, fun h => hs.state (hface.state h),
    fun h => hs.closed (hface.closed h)⟩

theorem keeps_calm_processIncomingFrame (config : CoreDaemonConfig) (log : EventLog)
    (frame : ClientFrame) : Proc.Keeps (Calm s₀) (processIncomingFrame config log frame) := by
  refine .bind .get fun s => ?_
  split
  · split
    · exact .fail _
    · refine .bind (.bind .get fun s => ?_) fun version =>
        .bind (keeps_calm_sendJson rfl) fun _ => .bind (keeps_calm_sendJson rfl) fun _ =>
          .modify fun s hs => ⟨hs.received, hs.subscribedAt, hs.subscribed,
            (fun h => by cases h), hs.closed⟩
      split
      · exact .fail _
      · split
        · exact .fail _
        · split
          · exact .fail _
          · exact .bind (.modify fun s hs => ⟨hs.received, hs.subscribedAt, hs.subscribed, hs.state,
              hs.closed⟩) fun _ => .pure _
  · split
    · exact .fail _
    · refine .modify fun s hs => ?_
      split
      · exact ⟨hs.received, hs.subscribedAt, hs.subscribed, hs.state, hs.closed⟩
      · exact ⟨hs.received, hs.subscribedAt, hs.subscribed, hs.state, hs.closed⟩

theorem Calm.close (h : Calm s₀ s) : Calm s₀ s.close :=
  ⟨h.received, h.subscribedAt, h.subscribed, h.state, fun h => by cases h⟩

theorem calm_readFrames (config : CoreDaemonConfig) (log : EventLog) (now : UInt64) (budget : Nat)
    (h : Calm s₀ s) : Calm s₀ (readFrames config log now budget s).1 := by
  induction budget generalizing s with
  | zero => exact h
  | succ budget ih =>
    unfold readFrames Connection.recvFrame
    rcases hin : s.connection.incoming.head? with _ | ⟨frame⟩ | _
    · exact h
    · have hframe : Calm s₀ { s with
          connection := { s.connection with incoming := s.connection.incoming.tail },
          lastActivityAt := now } :=
        ⟨h.received, h.subscribedAt, h.subscribed, h.state, h.closed⟩
      have hrun := (keeps_calm_processIncomingFrame config log frame).state (n := none) hframe
      dsimp only
      revert hrun
      rcases processIncomingFrame config log frame _ none with ⟨_ | err | _, s', n'⟩
      · exact fun hrun => ih hrun
      · exact fun hrun => hrun.close
      · exact fun hrun => hrun.close
    · exact Calm.close ⟨h.received, h.subscribedAt, h.subscribed, h.state, h.closed⟩

theorem calm_readSession (config : CoreDaemonConfig) (log : EventLog) (now : UInt64)
    (s : DaemonClientSession) : Calm s (readSession config log now s).1 := by
  have hself : Calm s s := ⟨rfl, rfl, rfl, id, id⟩
  have hread := calm_readFrames config log now maxFramesPerStepPerSession hself
  unfold readSession
  split
  · exact hself
  · dsimp only
    split
    · exact hread
    · split
      · exact hread.close
      · exact hread

/-- Whom accepting adds was waiting at the listener. -/
theorem acceptConnections_cases (capacity : Nat) (now : UInt64)
    (listener : List (Option Connection)) (sessions : List DaemonClientSession) (accepted : Nat) :
    (∀ s ∈ (acceptConnections capacity now listener sessions accepted).sessions,
      s ∈ sessions ∨ ∃ c, some c ∈ listener ∧ s = .new c now) ∧
      ∀ c ∈ (acceptConnections capacity now listener sessions accepted).listener, c ∈ listener := by
  induction listener generalizing sessions accepted with
  | nil => exact ⟨fun s hs => .inl hs, fun c hc => hc⟩
  | cons next rest ih =>
    unfold acceptConnections
    split
    · split
      · exact ⟨fun s hs => .inl hs, fun c hc => List.mem_cons_of_mem _ hc⟩
      · rename_i connection
        obtain ⟨hsessions, hlistener⟩ := ih (sessions ++ [.new connection now]) (accepted + 1)
        refine ⟨fun s hs => ?_, fun c hc => List.mem_cons_of_mem _ (hlistener c hc)⟩
        rcases hsessions s hs with hs | ⟨c, hc, rfl⟩
        · rcases List.mem_append.1 hs with hs | hs
          · exact .inl hs
          · exact .inr ⟨connection, List.mem_cons_self .., List.mem_singleton.1 hs⟩
        · exact .inr ⟨c, List.mem_cons_of_mem _ hc, rfl⟩
    · exact ⟨fun s hs => .inl hs, fun c hc => hc⟩

end Reading

/-! ## Steps -/

/-- The invariant of the daemon between two steps: every session is abreast of the
log, and nothing was sent to those who wait at the listener. -/
structure CoreDaemon.Serves (d : CoreDaemon H) : Prop where
  sound : d.shared.Sound
  abreast : ∀ s ∈ d.sessions, Abreast d.shared s
  fresh : ∀ c, some c ∈ d.listener → c.sent = []

theorem Abreast.congr {w : Shared H} (h : Abreast w s) (happended : w'.appended = w.appended)
    (hqueued : w'.broadcastEvents = w.broadcastEvents) : Abreast w' s :=
  h.extend ⟨[], [], by simp [happended], by simp [hqueued], rfl⟩

/-- A session nothing was sent to. -/
theorem abreast_new {w : Shared H} {c : Connection} (h : c.sent = []) :
    Abreast w (.new c now) where
  known e he := by
    change e ∈ c.sent.filterMap Frame.event? at he
    rw [h] at he
    cases he
  flag hs := by cases hs
  order hs := by cases hs
  due hs := by cases hs

theorem CoreDaemon.Serves.accept (h : d.Serves) (now : UInt64) :
    (∀ s ∈ (d.accept now).sessions, Abreast d.shared s) ∧
      ∀ c, some c ∈ (d.accept now).listener → c.sent = [] := by
  obtain ⟨hsessions, hlistener⟩ := acceptConnections_cases d.config.maxClientSessions now
    d.listener d.sessions 0
  refine ⟨fun s hs => ?_, fun c hc => h.fresh c (hlistener _ hc)⟩
  rcases hsessions s hs with hs | ⟨c, hc, rfl⟩
  · exact h.abreast s hs
  · exact abreast_new (h.fresh c hc)

theorem CoreDaemon.Serves.read (h : d.Serves) (now : UInt64) :
    ∀ s ∈ (d.read now).1, Abreast d.shared s := by
  intro s hs
  unfold CoreDaemon.read at hs
  rw [visit_alone] at hs
  obtain ⟨t, ht, rfl⟩ := List.mem_map.1 hs
  exact ((h.accept now).1 t ht).calm (calm_readSession _ _ _ _)

section Step

variable [HarnessRuntimePort H] [DefaultHasher] [ErrorText] [ProtocolText] [CoreServices H]
  [QueuedHarness H]

/-- The pump of the step fails only before anything is on its way to the broadcast. -/
def CoreDaemon.pumpKeeps (d : CoreDaemon H) (now : UInt64) : Bool :=
  match d.pump now with
  | ⟨.done _, _, _⟩ => true
  | ⟨_, w, _⟩ =>
    (d.normal now).1.broadcastEvents.isEmpty && w.appended.length == (d.normal now).1.appended.length

/-- The step drops no envelope: no start of a turn loses its envelope, and the pump
does not fail over envelopes. -/
def CoreDaemon.CleanStep (d : CoreDaemon H) (now : UInt64) : Prop :=
  (d.accept now).failed = true ∨
    VisitMeets (serveNormal now) (KeepsTurns now) (d.control now).1 (d.control now).2.1 ∧
      d.pumpKeeps now = true

instance (d : CoreDaemon H) (now : UInt64) : Decidable (d.CleanStep now) :=
  inferInstanceAs (Decidable (_ ∨ _ ∧ _))

omit [QueuedHarness H] in
/-- The commands of a step that drops no envelope. -/
theorem CoreDaemon.Serves.normal (h : d.Serves)
    (hkeeps : VisitMeets (serveNormal now) (KeepsTurns now) (d.control now).1 (d.control now).2.1) :
    (d.normal now).1.Sound ∧ ∀ s ∈ (d.normal now).2.1, Abreast (d.normal now).1 s := by
  obtain ⟨hsound, -, hall⟩ := visit_abreast (fun w s hw hs _ => abreast_serveControl hw hs) h.sound
    (h.read now) (visitMeets_true (f := serveControl now) d.shared (d.read now).1)
  obtain ⟨hsound', -, hall'⟩ := visit_abreast
    (fun w s hw hs hok => abreast_serveNormal hw hs hok) hsound hall hkeeps
  exact ⟨hsound', hall'⟩

omit [QueuedHarness H] in
/-- The end of a step whose pump went well. -/
theorem CoreDaemon.Serves.finish (h : d.Serves) {w : Shared H} (hsound : (d.normal now).1.Sound)
    (hall : ∀ s ∈ (d.normal now).2.1, Abreast (d.normal now).1 s)
    (hpumped : Pumped (d.normal now).1 es w) : (d.finish now w es).2.Serves := by
  have hqueued : ∀ e ∈ w.broadcastEvents ++ es, e ∈ w.appended := by
    intro e he
    rw [hpumped.appended]
    rcases List.mem_append.1 he with he | he
    · exact List.mem_append_left _ (hsound.queued e (hpumped.queued ▸ he))
    · exact List.mem_append_right _ he
  have hsent := abreast_broadcast hqueued fun s hs => (hall s hs).extend
    ⟨es, es, hpumped.appended, by rw [← hpumped.queued]; rfl, rfl⟩
  have hrest : (({ d.put w (evict (broadcast (w.broadcastEvents ++ es) (d.normal now).2.1).1
      ((d.read now).2 ++ (d.control now).2.2 ++ (d.normal now).2.2 ++
        (broadcast (w.broadcastEvents ++ es) (d.normal now).2.1).2)) with
      listener := (d.accept now).listener } : CoreDaemon H)).Serves :=
    ⟨⟨hpumped.recorded, fun e he => by cases he⟩,
      fun s hs => (hsent s (mem_of_mem_evict hs)).congr rfl rfl, (h.accept now).2⟩
  have hlast := hrest.accept now
  unfold CoreDaemon.finish
  dsimp only
  split
  · exact ⟨⟨hpumped.recorded, fun e he => by cases he⟩, fun s hs => (hlast.1 s hs).congr rfl rfl,
      hlast.2⟩
  · exact ⟨⟨hpumped.recorded, fun e he => by cases he⟩, fun s hs => (hlast.1 s hs).congr rfl rfl,
      hlast.2⟩

/-- **Step lemma.** A step that drops no envelope keeps every session abreast. -/
theorem CoreDaemon.Serves.step (h : d.Serves) (hclean : d.CleanStep now) :
    (d.step now).2.Serves := by
  unfold CoreDaemon.step
  split
  · exact ⟨h.sound, (h.accept now).1, (h.accept now).2⟩
  · rename_i haccept
    obtain ⟨hkeeps, hpump⟩ := hclean.resolve_left haccept
    obtain ⟨hsound, hall⟩ := h.normal hkeeps
    unfold CoreDaemon.pumpKeeps at hpump
    rcases collected_pumpAllThreads now hsound.recorded with
      ⟨es, w, hrun, hpumped⟩ | ⟨err, es, w, hrun, hpumped⟩
    · rw [show d.pump now = _ from hrun]
      exact h.finish hsound hall hpumped
    · rw [show d.pump now = _ from hrun] at hpump ⊢
      simp only [Bool.and_eq_true, List.isEmpty_iff, beq_iff_eq] at hpump
      have hes : es = [] := by
        have hlength := congrArg List.length hpumped.appended
        rw [List.length_append, hpump.2] at hlength
        exact List.eq_nil_of_length_eq_zero (by omega)
      have happended : w.appended = (d.normal now).1.appended := by
        rw [hpumped.appended, hes, List.append_nil]
      exact ⟨⟨hpumped.recorded, fun e he => by cases he⟩,
        fun s hs => (hall s hs).congr happended hpump.1.symm, (h.accept now).2⟩

/-! ## Runs -/

/-- A step drops no envelope; whatever else happens is no matter. -/
def Clean (d : CoreDaemon H) : DaemonInput H → Prop
  | .step now => d.CleanStep now
  | _ => True

instance (d : CoreDaemon H) (i : DaemonInput H) : Decidable (Clean d i) :=
  match i with
  | .step now => inferInstanceAs (Decidable (d.CleanStep now))
  | .connect _ _ | .acceptFails | .client _ _ | .agents _ => .isTrue trivial

omit [SerdeJsonWriter] [HarnessRuntimePort H] [DefaultHasher] [ErrorText] [ProtocolText]
  [CoreServices H] [QueuedHarness H] in
/-- What a client does sends it nothing. -/
theorem calm_clientAction (action : ClientAction) (s : DaemonClientSession) :
    Calm s { s with connection := action.apply s.connection } := by
  cases action with
  | send => exact ⟨rfl, rfl, rfl, id, id⟩
  | disconnect => exact calm_close s
  | hamper => exact ⟨rfl, rfl, rfl, id, id⟩

theorem CoreDaemon.Serves.on (h : d.Serves) {i : DaemonInput H} (hclean : Clean d i) :
    (d.on i).Serves := by
  cases i with
  | connect incoming faults =>
    refine ⟨h.sound, h.abreast, fun c hc => ?_⟩
    rcases List.mem_append.1 hc with hc | hc
    · exact h.fresh c hc
    · cases List.mem_singleton.1 hc
      rfl
  | acceptFails =>
    refine ⟨h.sound, h.abreast, fun c hc => ?_⟩
    rcases List.mem_append.1 hc with hc | hc
    · exact h.fresh c hc
    · cases List.mem_singleton.1 hc
  | client index action =>
    refine ⟨h.sound, fun s hs => ?_, h.fresh⟩
    obtain ⟨j, hj⟩ := List.mem_iff_getElem?.1 hs
    change (d.sessions.modify index _)[j]? = some s at hj
    rw [List.getElem?_modify] at hj
    obtain ⟨t, ht, rfl⟩ := Option.map_eq_some_iff.1 hj
    have habreast := h.abreast t (List.mem_of_getElem? ht)
    split
    · exact habreast.calm (calm_clientAction action t)
    · exact habreast
  | agents f =>
    exact ⟨⟨h.sound.recorded, fun e he => by cases he⟩,
      fun s hs => (h.abreast s hs).congr rfl rfl, h.fresh⟩
  | step now => exact h.step hclean

omit [HarnessRuntimePort H] [DefaultHasher] [ErrorText] [ProtocolText] [CoreServices H]
  [QueuedHarness H] in
theorem serves_new (harness : H) (store : Store) (config : CoreDaemonConfig) (noise : UInt64) :
    (CoreDaemon.new harness store config noise).Serves where
  sound := ⟨chronicled_new _, fun e he => by cases he⟩
  abreast s hs := by cases hs
  fresh c hc := by cases hc

/-- Live delivery: what a subscribed session was sent is, in order and without
repetition, the first part of what the log was given since, and all of it while
the connection is open. -/
def CoreDaemon.Delivers (d : CoreDaemon H) : Prop :=
  ∀ s ∈ d.sessions, s.state = .subscribed →
    (s.received.filter (live s.subscribedAt)).Pairwise (fun e e' => e.sequence < e'.sequence) ∧
    s.received.filter (live s.subscribedAt) <+: d.appended.filter (live s.subscribedAt) ∧
    (s.connection.closed = false →
      s.received.filter (live s.subscribedAt) = d.appended.filter (live s.subscribedAt))

instance (d : CoreDaemon H) : Decidable d.Delivers :=
  inferInstanceAs (Decidable (∀ s ∈ d.sessions, _ → _ ∧ _ ∧ (_ → _)))

omit [HarnessRuntimePort H] [DefaultHasher] [ErrorText] [ProtocolText] [CoreServices H]
  [QueuedHarness H] in
theorem CoreDaemon.Serves.delivers (h : d.Serves) : d.Delivers := by
  intro s hs hstate
  have habreast := h.abreast s hs
  have horder := habreast.order hstate
  refine ⟨?_, horder, fun hopen => ?_⟩
  · have hpairwise := h.sound.recorded.pairwise
    exact (hpairwise.sublist List.filter_sublist).sublist horder.sublist
  · have hdue := habreast.due hstate hopen
    rwa [show d.shared.broadcastEvents = [] from rfl, List.filter_nil, List.append_nil] at hdue

/-- **Live delivery.** In every run of a daemon whose steps drop no envelope, every
session is sent what the log is given after it subscribed, once and in order, for as
long as its connection is open. -/
theorem live_delivery (harness : H) (store : Store) (config : CoreDaemonConfig) (noise : UInt64)
    (inputs : List (DaemonInput H))
    (hclean : (daemonMachine (.new harness store config noise)).Meets Clean
      (.new harness store config noise) inputs) :
    let d := (daemonMachine (.new harness store config noise)).run inputs
    Chronicled d.app.log d.appended ∧ d.Delivers := by
  have hserves : ((daemonMachine (.new harness store config noise)).run inputs).Serves :=
    (daemonMachine (.new harness store config noise)).invariant_of_meets (I := CoreDaemon.Serves)
      (fun _ _ h hclean => h.on hclean) (serves_new harness store config noise) hclean
  exact ⟨hserves.sound.recorded, hserves.delivers⟩

end Step

end Delivery

section Sample

local instance broadcastWriter : SerdeJsonWriter := flatWriter
local instance broadcastText : ErrorText := plainText
local instance broadcastProtocolText : ProtocolText := plainProtocolText
local instance broadcastHasher : DefaultHasher := linearHasher
local instance broadcastServices : CoreServices Line := plainServices

/-- The daemon of the sample runs. -/
def sampleDaemon : CoreDaemon Line := .new ⟨[]⟩ .empty sampleConfig 0

/-- One client subscribes, another one starts a turn. -/
def sampleBroadcast (faults : List Bool) : List (DaemonInput Line) :=
  [sampleSubscriber, .step 1, sampleStarter faults, .step 2]

theorem live_delivery_sample :
    (daemonMachine sampleDaemon).Meets Clean sampleDaemon (sampleBroadcast []) ∧
      ((daemonMachine sampleDaemon).run (sampleBroadcast [])).appended.length = 1 ∧
      ((daemonMachine sampleDaemon).run (sampleBroadcast [])).Delivers := by
  have hclean : (daemonMachine sampleDaemon).Meets Clean sampleDaemon (sampleBroadcast []) := by
    decide +kernel
  have hdelivers := live_delivery _ _ _ _ _ hclean
  refine ⟨hclean, ?_, hdelivers.2⟩
  decide +kernel

/-- The result of the start cannot be sent, and the start is never broadcast. -/
theorem start_not_broadcast :
    ¬ ∀ inputs : List (DaemonInput Line), ((daemonMachine sampleDaemon).run inputs).Delivers := by
  intro h
  have hrun := h (sampleBroadcast [false, false, true])
  revert hrun
  decide +kernel

end Sample

end Altior.Application
