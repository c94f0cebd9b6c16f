import Altior.Ipc.Session

/-!
# A client that comes and goes

One event log with the sessions that share it, and one client that connects,
subscribes where it left off, receives a part of what it is sent, and goes away
again (`altior-ipc/src/session.rs`).
-/

namespace Altior.Ipc

open Application Domain Lib

/-- The envelopes of a catch-up, in the order they are delivered. -/
def deliveryOf : CatchUpDelivery → List EventEnvelope
  | .replay events boundary => events ++ [boundary]
  | .gap boundary => [boundary]
  | .upToDate => []

/-- The envelope the log was given for a catch-up. -/
def boundaryOf : CatchUpDelivery → List EventEnvelope
  | .replay _ boundary | .gap boundary => [boundary]
  | .upToDate => []

/-- Core's sessions over one log, and a client.  `sent` is what the client was sent
over its connection and has not received yet, and `catchUp` says how many of these
are of its catch-up.  `joined` and `applied` are history: how much the log had been
given when the client subscribed first, and what the client took. -/
structure Attachment where
  history : History
  sessions : List ServerSession
  client : ClientSession
  connection : Option Nat
  live : Bool
  sent : List EventEnvelope
  catchUp : Nat
  joined : Option Nat
  applied : List EventEnvelope

/-- What may happen next.  The sessions of other clients are known by the order in
which they were opened. -/
inductive Attaching
  | open_
  | hello (session : Nat) (hello : DesktopHello)
  | publish (session : Nat) (event : NewEvent)
  | subscribe (session : Nat) (operationId : OperationId) (payload : Option Json)
      (boundaryEventId : EventId) (occurredAt : UInt64)
  | connect (hello : DesktopHello)
  | resume (operationId : OperationId) (boundaryEventId : EventId) (occurredAt : UInt64)
  | receive
  | disconnect

namespace Attachment

/-- The log was given something; whoever is live is sent it. -/
def given (s : Attachment) (log : EventLog) (events : List EventEnvelope) : Attachment :=
  { s with
    history := ⟨log, s.history.appended ++ events⟩
    sent := if s.live then s.sent ++ events else s.sent }

/-- Replaces one of the sessions. -/
def setSession (s : Attachment) (k : Nat) (session : ServerSession) : Attachment :=
  { s with sessions := s.sessions.set k session }

/-- The client is without a connection. -/
def detached (s : Attachment) : Attachment :=
  { s with connection := none, live := false, sent := [], catchUp := 0 }

/-- The client opens a connection, and leaves the one it had. -/
def connect (s : Attachment) (credentials : LaunchCredentials) (supported : ProtocolVersionRange)
    (hello : DesktopHello) : Attachment :=
  match (ServerSession.withLog credentials supported).acceptHello s.history.log hello with
  | (.error _, session) => { s.detached with sessions := s.sessions ++ [session] }
  | (.ok (version, greeting), session) =>
    let s := { s.detached with sessions := s.sessions ++ [session] }
    match s.client.acceptGreeting greeting version with
    | .error _ => s
    | .ok (_, client) =>
      { s with client := client, connection := some (s.sessions.length - 1) }

/-- The client subscribes over its connection. -/
def resume (s : Attachment) (k : Nat) (session : ServerSession) (operationId : OperationId)
    (boundaryEventId : EventId) (occurredAt : UInt64) : Attachment :=
  match session.acceptSubscribe s.history.log operationId
      (some (subscribePayload s.client.subscribeSince)) boundaryEventId occurredAt with
  | (.error _, session) => s.setSession k session
  | (.ok (delivery, log), session) =>
    { s.setSession k session with
      history := ⟨log, s.history.appended ++ boundaryOf delivery⟩
      live := true
      sent := deliveryOf delivery
      catchUp := (deliveryOf delivery).length
      joined := s.joined.or (some s.history.appended.length) }

/-- The client takes the next of what it was sent. -/
def receive (s : Attachment) : Attachment :=
  match s.sent with
  | [] => s
  | event :: rest =>
    let s := { s with sent := rest, catchUp := s.catchUp - 1 }
    match s.client.acceptEvent event with
    | .error _ => s
    | .ok (.duplicate, client) => { s with client := client }
    | .ok (.applied _, client) =>
      { s with client := client, applied := s.applied ++ [event] }

/-- One step. -/
def step (credentials : LaunchCredentials) (supported : ProtocolVersionRange) (s : Attachment) :
    Attaching → Attachment
  | .open_ => { s with sessions := s.sessions ++ [.withLog credentials supported] }
  | .hello k hello =>
    match s.sessions[k]? with
    | none => s
    | some session => s.setSession k (session.acceptHello s.history.log hello).2
  | .publish k event =>
    match s.sessions[k]? with
    | none => s
    | some session =>
      match session.publish s.history.log event with
      | .error _ => s
      | .ok (sealed, log) => s.given log [sealed]
  | .subscribe k operationId payload boundaryEventId occurredAt =>
    match s.sessions[k]? with
    | none => s
    | some session =>
      -- the client's own connection is subscribed by the client
      if s.connection = some k then s
      else match session.acceptSubscribe s.history.log operationId payload boundaryEventId
          occurredAt with
        | (.error _, session) => s.setSession k session
        | (.ok (delivery, log), session) =>
          (s.setSession k session).given log (boundaryOf delivery)
  | .connect hello => s.connect credentials supported hello
  | .resume operationId boundaryEventId occurredAt =>
    match s.connection with
    | none => s
    | some k =>
      match s.sessions[k]? with
      | none => s
      | some session => s.resume k session operationId boundaryEventId occurredAt
  | .receive => s.receive
  | .disconnect => s.detached

/-- One Core launch with a client that has not connected yet. -/
def machine (credentials : LaunchCredentials) (supported : ProtocolVersionRange) (log : EventLog) :
    Machine Attachment Attaching where
  init :=
    { history := ⟨log, []⟩, sessions := [], client := .new, connection := none, live := false
      sent := [], catchUp := 0, joined := none, applied := [] }
  step := step credentials supported

/-- The boundary of a gap says of an envelope before it that it was missed. -/
def Covers (boundary e : EventEnvelope) : Prop :=
  ∃ from_, boundary.body = .known (.streamGap from_) ∧ from_ ≤ e.sequence ∧
    e.sequence < boundary.sequence

/-- Once the catch-up was delivered, whatever the log was given since the client
subscribed first was taken once, unless it is still on its way or the boundary of a
gap was taken that covers it. -/
def CaughtUp (s : Attachment) : Prop :=
  ∀ n, s.joined = some n → s.live = true → s.catchUp = 0 →
    ∀ e ∈ s.history.appended.drop n, e ∈ s.sent ∨ s.applied.count e = 1 ∨
      ∃ boundary ∈ s.applied, Covers boundary e

/-- The identifier is not one of an envelope that the log was given. -/
def FreshId (s : Attachment) (eventId : EventId) : Prop :=
  ∀ e ∈ s.history.appended, e.eventId ≠ eventId

/-- Identifiers are new, and a client that has not taken anything yet subscribes
again only if the log was given nothing since it subscribed first. -/
def Orderly (s : Attachment) : Attaching → Prop
  | .publish _ event => s.FreshId event.eventId
  | .subscribe _ _ _ boundaryEventId _ => s.FreshId boundaryEventId
  | .resume _ boundaryEventId _ => s.FreshId boundaryEventId ∧
      (s.client.lastSequence = none → ∀ n ∈ s.joined, s.history.appended.length = n)
  | .open_ | .hello _ _ | .connect _ | .receive | .disconnect => True

instance (s : Attachment) (eventId : EventId) : Decidable (s.FreshId eventId) :=
  inferInstanceAs (Decidable (∀ e ∈ s.history.appended, e.eventId ≠ eventId))

instance (s : Attachment) : (i : Attaching) → Decidable (s.Orderly i)
  | .publish _ event => inferInstanceAs (Decidable (s.FreshId event.eventId))
  | .subscribe _ _ _ boundaryEventId _ => inferInstanceAs (Decidable (s.FreshId boundaryEventId))
  | .resume _ boundaryEventId _ => inferInstanceAs (Decidable (s.FreshId boundaryEventId ∧
      (s.client.lastSequence = none → ∀ n ∈ s.joined, s.history.appended.length = n)))
  | .open_ | .hello _ _ | .connect _ | .receive | .disconnect => isTrue trivial

end Attachment

/-! ## What the log is given -/

/-- The log was given nothing, or one envelope under a new identifier. -/
def History.Grows (h : History) (log : EventLog) (events : List EventEnvelope) : Prop :=
  (events = [] ∧ log = h.log) ∨
    ∃ e sealed, h.log.append e = .ok (sealed, log) ∧ events = [sealed] ∧
      ∀ x ∈ h.appended, x.eventId ≠ e.eventId

variable {boundaryEventId : EventId} {delivery : CatchUpDelivery} {operationId : OperationId}
  {payload : Option Json}

namespace ServerSession

variable {session session' : ServerSession} {log log' : EventLog} {e : EventEnvelope}

theorem append_of_publish {event : NewEvent} (h : session.publish log event = .ok (e, log')) :
    log.append event.envelope = .ok (e, log') := by
  unfold publish at h
  split at h
  · cases h
  · cases happend : log.append event.envelope with
    | error err =>
      rw [happend] at h
      cases h
    | ok pair =>
      rw [happend] at h
      cases h
      rfl

/-- What an accepted subscription delivers, and what its boundary says. -/
theorem acceptSubscribe_cases {occurredAt : UInt64}
    (h : session.acceptSubscribe log operationId payload boundaryEventId occurredAt =
      (.ok (delivery, log'), session')) :
    ∃ since, subscribeSince payload = .ok since ∧
      ((log.replayAfter since = .upToDate ∧ delivery = .upToDate ∧ log' = log) ∨
      (∃ events body b, log.replayAfter since = .replay events ∧ delivery = .replay events b ∧
        log.append (boundary operationId boundaryEventId occurredAt body).envelope =
          .ok (b, log')) ∨
      (∃ first b, log.replayAfter since = .gap first ∧ delivery = .gap b ∧
        log.append (boundary operationId boundaryEventId occurredAt
          (.streamGap first)).envelope = .ok (b, log'))) := by
  unfold acceptSubscribe at h
  split at h
  · cases h
  · split at h
    · cases h
    · split at h
      · cases h
      · rename_i since hsince
        refine ⟨since, hsince, ?_⟩
        simp only at h
        split at h
        · rename_i events hplan
          obtain ⟨hres, -⟩ := Prod.mk.inj h
          obtain ⟨⟨b, log''⟩, hpublish, heq⟩ := Storage.map_eq_ok.1 hres
          cases heq
          exact .inr (.inl ⟨events, _, b, hplan, rfl, append_of_publish hpublish⟩)
        · rename_i first hplan
          obtain ⟨hres, -⟩ := Prod.mk.inj h
          obtain ⟨⟨b, log''⟩, hpublish, heq⟩ := Storage.map_eq_ok.1 hres
          cases heq
          exact .inr (.inr ⟨first, b, hplan, rfl, append_of_publish hpublish⟩)
        · rename_i hplan
          cases h
          exact .inl ⟨hplan, rfl, rfl⟩

/-- The log is given at most the boundary. -/
theorem grows_acceptSubscribe {h : History} {occurredAt : UInt64}
    (haccept : session.acceptSubscribe h.log operationId payload boundaryEventId occurredAt =
      (.ok (delivery, log'), session')) (hfresh : ∀ x ∈ h.appended, x.eventId ≠ boundaryEventId) :
    h.Grows log' (boundaryOf delivery) := by
  obtain ⟨-, -, ⟨-, rfl, rfl⟩ | ⟨_, _, b, -, rfl, happend⟩ | ⟨_, b, -, rfl, happend⟩⟩ :=
    acceptSubscribe_cases haccept
  · exact .inl ⟨rfl, rfl⟩
  · exact .inr ⟨_, b, happend, rfl, hfresh⟩
  · exact .inr ⟨_, b, happend, rfl, hfresh⟩

end ServerSession

namespace History

variable {h : History} {log : EventLog} {events : List EventEnvelope} {capacity : Nat}

/-- What a log is given comes after all it was given before. -/
theorem Grows.windowed (hg : h.Grows log events) (hw : h.Windowed capacity) (hpos : 0 < capacity) :
    Windowed ⟨log, h.appended ++ events⟩ capacity ∧
      ∀ e ∈ events, h.appended.length < e.sequence.toNat := by
  obtain ⟨rfl, rfl⟩ | ⟨e, sealed, happend, rfl, -⟩ := hg
  · exact ⟨by rwa [List.append_nil], by simp⟩
  · have hw' := hw.append hpos e
    simp only [History.append, happend] at hw'
    refine ⟨hw', fun x hx => ?_⟩
    rw [List.mem_singleton.1 hx,
      hw'.chronicled.sequence h.appended.length sealed (by simp)]
    exact Nat.lt_succ_self _

theorem Grows.distinct (hg : h.Grows log events)
    (hdistinct : (h.appended.map EventEnvelope.eventId).Nodup) :
    ((h.appended ++ events).map EventEnvelope.eventId).Nodup := by
  obtain ⟨rfl, -⟩ | ⟨e, sealed, happend, rfl, hfresh⟩ := hg
  · rwa [List.append_nil]
  · obtain ⟨-, rfl, -, -⟩ := EventLog.append_cases happend
    rw [List.map_append, List.nodup_append]
    refine ⟨hdistinct, List.nodup_singleton _, fun x hx y hy heq => ?_⟩
    obtain ⟨e', he', rfl⟩ := List.mem_map.1 hx
    exact hfresh e' he' (heq.trans (List.mem_singleton.1 hy))

theorem mem_of_mem_drop {e : EventEnvelope} {n : Nat}
    (he : e ∈ (h.appended ++ events).drop n) : e ∈ h.appended.drop n ∨ e ∈ events := by
  rw [List.drop_append] at he
  exact (List.mem_append.1 he).imp_right List.mem_of_mem_drop

end History

/-! ## What a catch-up delivers -/

/-- What a subscription delivers, given that the log numbers upwards. -/
structure CatchesUp (h : History) (since : Option UInt64) (delivery : CatchUpDelivery) : Prop where
  fromNow : since = none → delivery = .upToDate
  ordered : (deliveryOf delivery).Pairwise fun a b => a.sequence.toNat < b.sequence.toNat
  sent : ∀ last, since = some last → ∀ e ∈ deliveryOf delivery,
    e ∈ h.appended ++ boundaryOf delivery ∧ last.toNat < e.sequence.toNat
  ahead : ∀ last, since = some last → ∀ e ∈ h.appended ++ boundaryOf delivery,
    last.toNat < e.sequence.toNat → e ∈ deliveryOf delivery ∨
      (0 < (deliveryOf delivery).length ∧
        ∃ b, (deliveryOf delivery).head? = some b ∧ Attachment.Covers b e)

theorem catchesUp {h : History} {capacity : Nat} (hw : h.Windowed capacity) (hpos : 0 < capacity)
    {session session' : ServerSession} {occurredAt : UInt64} {log : EventLog}
    {since : Option UInt64} (hsince : subscribeSince payload = .ok since)
    (hseen : ∀ last, since = some last → last.toNat ≤ h.appended.length)
    (hafter : ∀ e ∈ boundaryOf delivery, h.appended.length < e.sequence.toNat)
    (haccept : session.acceptSubscribe h.log operationId payload boundaryEventId occurredAt =
      (.ok (delivery, log), session')) : CatchesUp h since delivery := by
  obtain ⟨since', hsince', hcases⟩ := ServerSession.acceptSubscribe_cases haccept
  cases hsince.symm.trans hsince'
  have hexact := hw.exact hpos
  have hbound {e : EventEnvelope} (he : e ∈ h.appended) := hw.chronicled.sequence_le he
  have hmissed (last : UInt64) (e : EventEnvelope) :
      e ∈ h.missed last ↔ e ∈ h.appended ∧ last.toNat < e.sequence.toNat := by
    rw [History.missed, List.mem_filter, decide_eq_true_eq, UInt64.lt_iff_toNat_lt]
  have hnone {plan : ReplayPlan} (h₁ : h.log.replayAfter since = plan) (h₂ : plan ≠ .upToDate) :
      since ≠ none := by
    rintro rfl
    exact h₂ (h₁.symm.trans hexact.fromNow)
  obtain ⟨hplan, rfl, -⟩ | ⟨events, body, b, hplan, rfl, -⟩ | ⟨first, b, hplan, rfl, happend⟩ :=
    hcases
  · refine ⟨fun _ => rfl, .nil, fun _ _ _ he => absurd he List.not_mem_nil,
      fun last hlast e he hlt => ?_⟩
    subst hlast
    rw [hexact.upToDate] at hplan
    have hmem := (hmissed last e).2 ⟨by simpa [boundaryOf] using he, hlt⟩
    rw [hplan] at hmem
    cases hmem
  · obtain ⟨last, rfl⟩ := Option.ne_none_iff_exists'.1 (hnone hplan ReplayPlan.noConfusion)
    obtain ⟨rfl, -, -⟩ := (hexact.replay last events).1 hplan
    have hlength := hafter b (List.mem_singleton.2 rfl)
    refine ⟨fun h => absurd h (Option.some_ne_none last),
      List.pairwise_append.2 ⟨?_, List.pairwise_singleton _ _, fun x hx y hy => ?_⟩,
      fun last' hlast e he => ?_, fun last' hlast e he hlt => ?_⟩
    · exact (hw.chronicled.pairwise.filter _).imp fun hlt => UInt64.lt_iff_toNat_lt.1 hlt
    · rw [List.mem_singleton.1 hy]
      exact (hbound ((hmissed last x).1 hx).1).trans_lt hlength
    · cases hlast
      obtain he | he := List.mem_append.1 he
      · obtain ⟨hmem, hlt⟩ := (hmissed last e).1 he
        exact ⟨List.mem_append_left _ hmem, hlt⟩
      · rw [List.mem_singleton.1 he]
        exact ⟨List.mem_append_right _ (List.mem_singleton.2 rfl),
          (hseen last rfl).trans_lt hlength⟩
    · cases hlast
      obtain he | he := List.mem_append.1 he
      · exact .inl (List.mem_append_left _ ((hmissed last e).2 ⟨he, hlt⟩))
      · exact .inl (List.mem_append_right _ he)
  · obtain ⟨last, rfl⟩ := Option.ne_none_iff_exists'.1 (hnone hplan ReplayPlan.noConfusion)
    obtain ⟨rfl, missing, hmissing, -⟩ := (hexact.gap last first).1 hplan
    obtain ⟨-, rfl, -, -⟩ := EventLog.append_cases happend
    have hlength := hafter _ (List.mem_singleton.2 rfl)
    refine ⟨fun h => absurd h (Option.some_ne_none last), List.pairwise_singleton _ _,
      fun last' hlast e he => ?_, fun last' hlast e he hlt => ?_⟩
    · cases hlast
      rw [List.mem_singleton.1 he]
      exact ⟨List.mem_append_right _ (List.mem_singleton.2 rfl), (hseen last rfl).trans_lt hlength⟩
    · cases hlast
      obtain he | he := List.mem_append.1 he
      · refine .inr ⟨Nat.one_pos, _, rfl, last + 1, rfl, ?_, ?_⟩
        · have hsize := missing.sequence.toNat_lt_size
          have hbelow := ((hmissed last missing).1 hmissing).2
          rw [UInt64.le_iff_toNat_le, UInt64.toNat_add]
          exact (Nat.mod_le _ _).trans hlt
        · exact UInt64.lt_iff_toNat_lt.2 ((hbound he).trans_lt hlength)
      · exact .inl he

/-! ## What the client knows -/

namespace Attachment

/-- The number of the last envelope the client took. -/
def cursor (s : Attachment) : Nat := (s.client.lastSequence.map UInt64.toNat).getD 0

/-- What holds of a client that only sees identifiers once and never loses the
beginning of its stream. -/
structure Kept (s : Attachment) (capacity : Nat) (credentials : LaunchCredentials) : Prop where
  windowed : s.history.Windowed capacity
  distinct : (s.history.appended.map EventEnvelope.eventId).Nodup
  taken : ∀ e ∈ s.applied, e ∈ s.history.appended ∧ e.sequence.toNat ≤ s.cursor
  once : s.applied.Nodup
  seen : ∀ eventId, eventId ∈ s.client.seenEventIds ↔ ∃ e ∈ s.applied, e.eventId = eventId
  reached : s.cursor ≤ s.history.appended.length
  last : s.client.lastSequence ≠ some 0
  greeted : ∀ i, s.client.instanceId = some i → i = credentials.instanceId
  ungreeted : s.client.instanceId = none → s.applied = [] ∧ s.joined = none
  connected : s.connection.isSome → s.client.instanceId.isSome
  live : s.live = true → s.connection.isSome
  idle : s.live = false → s.sent = []
  /-- What is before the cursor was taken, or is covered by a gap. -/
  behind : ∀ n, s.joined = some n → ∀ e ∈ s.history.appended.drop n,
    e.sequence.toNat ≤ s.cursor → e ∈ s.applied ∨ ∃ b ∈ s.applied, Covers b e
  ordered : s.sent.Pairwise fun a b => a.sequence.toNat < b.sequence.toNat
  sent : ∀ e ∈ s.sent, e ∈ s.history.appended ∧ s.cursor < e.sequence.toNat
  /-- What is after the cursor is on its way, or the next thing that is says that it
  was missed. -/
  ahead : s.live = true → ∀ n, s.joined = some n → ∀ e ∈ s.history.appended.drop n,
    s.cursor < e.sequence.toNat → e ∈ s.sent ∨
      (0 < s.catchUp ∧ ∃ b, s.sent.head? = some b ∧ Covers b e)

variable {s : Attachment} {capacity : Nat} {credentials : LaunchCredentials}

theorem Kept.caughtUp (h : s.Kept capacity credentials) : s.CaughtUp := by
  intro n hn hlive hdone e he
  rcases Nat.lt_or_ge s.cursor e.sequence.toNat with hlt | hle
  · obtain hsent | ⟨hpos, -⟩ := h.ahead hlive n hn e he hlt
    · exact .inl hsent
    · omega
  · obtain htaken | hcovered := h.behind n hn e he hle
    · exact .inr (.inl (List.count_eq_one_of_mem h.once htaken))
    · exact .inr (.inr hcovered)

theorem Kept.setSession (h : s.Kept capacity credentials) (k : Nat) (session : ServerSession) :
    (s.setSession k session).Kept capacity credentials :=
  ⟨h.windowed, h.distinct, h.taken, h.once, h.seen, h.reached, h.last, h.greeted, h.ungreeted, h.connected,
    h.live, h.idle, h.behind, h.ordered, h.sent, h.ahead⟩

theorem Kept.opened (h : s.Kept capacity credentials) (session : ServerSession) :
    Kept { s with sessions := s.sessions ++ [session] } capacity credentials :=
  ⟨h.windowed, h.distinct, h.taken, h.once, h.seen, h.reached, h.last, h.greeted, h.ungreeted, h.connected,
    h.live, h.idle, h.behind, h.ordered, h.sent, h.ahead⟩

theorem Kept.detached (h : s.Kept capacity credentials) : s.detached.Kept capacity credentials :=
  ⟨h.windowed, h.distinct, h.taken, h.once, h.seen, h.reached, h.last, h.greeted, h.ungreeted, nofun, nofun,
    fun _ => rfl, h.behind, .nil, nofun, nofun⟩

/-- The log may be given more at any time. -/
theorem Kept.given (h : s.Kept capacity credentials) (hpos : 0 < capacity) {log : EventLog}
    {events : List EventEnvelope} (hg : s.history.Grows log events) :
    (s.given log events).Kept capacity credentials := by
  obtain ⟨hwindowed, hafter⟩ := hg.windowed h.windowed hpos
  have hpairs : events.Pairwise fun a b => a.sequence.toNat < b.sequence.toNat := by
    obtain ⟨rfl, -⟩ | ⟨_, _, -, rfl, -⟩ := hg
    · exact .nil
    · exact List.pairwise_singleton _ _
  have hreached := h.reached
  refine ⟨hwindowed, hg.distinct h.distinct,
    fun e he => ⟨List.mem_append_left _ (h.taken e he).1, (h.taken e he).2⟩, h.once, h.seen,
    ?_, h.last, h.greeted, h.ungreeted, h.connected, h.live, fun hlive => ?_,
    fun n hn e he hle => ?_, ?_, fun e he => ?_, fun hlive n hn e he hlt => ?_⟩
  · exact hreached.trans (by simp [Attachment.given])
  · simp [Attachment.given, show s.live = false from hlive, h.idle hlive]
  · obtain he | he := History.mem_of_mem_drop he
    · exact h.behind n hn e he hle
    · have := hafter e he
      have : e.sequence.toNat ≤ s.cursor := hle
      omega
  · simp only [Attachment.given]
    split
    · refine List.pairwise_append.2 ⟨h.ordered, hpairs, fun a ha b hb => ?_⟩
      exact (h.windowed.chronicled.sequence_le (h.sent a ha).1).trans_lt (hafter b hb)
    · exact h.ordered
  · have hmem : e ∈ s.sent ∨ e ∈ events := by
      simp only [Attachment.given] at he
      split at he
      · exact List.mem_append.1 he
      · exact .inl he
    obtain he | he := hmem
    · exact ⟨List.mem_append_left _ (h.sent e he).1, (h.sent e he).2⟩
    · exact ⟨List.mem_append_right _ he, hreached.trans_lt (hafter e he)⟩
  · have hsent : (s.given log events).sent = s.sent ++ events := if_pos hlive
    rw [hsent]
    obtain he | he := History.mem_of_mem_drop he
    · obtain hsent | ⟨hpos, b, hhead, hcovers⟩ := h.ahead hlive n hn e he hlt
      · exact .inl (List.mem_append_left _ hsent)
      · refine .inr ⟨hpos, b, ?_, hcovers⟩
        rw [List.head?_append, hhead]
        rfl
    · exact .inl (List.mem_append_right _ he)

theorem Kept.connect (h : s.Kept capacity credentials) (supported : ProtocolVersionRange)
    (hello : DesktopHello) : (s.connect credentials supported hello).Kept capacity credentials := by
  unfold Attachment.connect
  split
  · exact h.detached.opened _
  · rename_i version greeting session haccept
    have hinstance : greeting.instanceId = credentials.instanceId := by
      unfold ServerSession.acceptHello ServerSession.withLog at haccept
      split at haccept
      · cases haccept
      · split at haccept
        · cases haccept
        · split at haccept
          · cases haccept
          · cases haccept
            rfl
    have hk := h.detached.opened session
    simp only
    split
    · exact hk
    · rename_i outcome client hgreeting
      obtain ⟨hknown, rfl⟩ | ⟨hother, rfl⟩ := ClientSession.acceptGreeting_cases hgreeting
      · refine ⟨hk.windowed, hk.distinct, hk.taken, hk.once, hk.seen, hk.reached, hk.last,
          hk.greeted, hk.ungreeted, fun _ => ?_, nofun, hk.idle, hk.behind, hk.ordered, hk.sent,
          nofun⟩
        rw [hknown]
        rfl
      · have hnone : s.client.instanceId = none := by
          cases hclient : s.client.instanceId with
          | none => rfl
          | some i =>
            rw [h.greeted i hclient, ← hinstance] at hclient
            exact absurd hclient hother
        obtain ⟨hnothing, hnever⟩ := h.ungreeted hnone
        have happlied : s.applied = [] := hnothing
        refine ⟨hk.windowed, hk.distinct, fun e he => ?_, hk.once, fun eventId => ?_,
          Nat.zero_le _, nofun, fun i hi => ?_, nofun, fun _ => rfl, nofun, hk.idle,
          fun n hn => ?_, hk.ordered, nofun, nofun⟩
        · exact absurd (happlied ▸ he : e ∈ []) List.not_mem_nil
        · simp [Attachment.detached, happlied]
        · cases hi
          exact hinstance
        · exact absurd (hnever.symm.trans hn) nofun

/-- A subscription where the client left off loses nothing. -/
theorem Kept.resume (h : s.Kept capacity credentials) (hpos : 0 < capacity) {k : Nat}
    (hk : s.connection = some k) (session : ServerSession) (operationId : OperationId)
    (boundaryEventId : EventId) (occurredAt : UInt64) (hfresh : s.FreshId boundaryEventId)
    (hstart : s.client.lastSequence = none →
      ∀ n, s.joined = some n → s.history.appended.length = n) :
    (s.resume k session operationId boundaryEventId occurredAt).Kept capacity credentials := by
  unfold Attachment.resume
  split
  · exact h.setSession _ _
  · rename_i delivery log session' haccept
    have hg := ServerSession.grows_acceptSubscribe haccept hfresh
    obtain ⟨hwindowed, hafter⟩ := hg.windowed h.windowed hpos
    have hreached := h.reached
    have hjoined {n : Nat} (hn : s.joined.or (some s.history.appended.length) = some n) :
        s.joined = some n ∨ n = s.history.appended.length := by
      cases hj : s.joined with
      | none =>
        rw [hj] at hn
        exact .inr (Option.some.inj hn).symm
      | some m =>
        rw [hj] at hn
        exact .inl hn
    have hsince := subscribeSince_subscribePayload h.last
    have hcursor (last : UInt64) (hlast : s.client.lastSequence = some last) :
        last.toNat = s.cursor := by
      rw [cursor, hlast]
      rfl
    have hcatch := catchesUp h.windowed hpos hsince
      (fun last hlast => (hcursor last hlast).trans_le hreached) hafter haccept
    refine ⟨hwindowed, hg.distinct h.distinct,
      fun e he => ⟨List.mem_append_left _ (h.taken e he).1, (h.taken e he).2⟩, h.once, h.seen,
      hreached.trans (by simp), h.last, h.greeted, fun hnone => ?_, h.connected,
      fun _ => (congrArg Option.isSome hk :), nofun, fun n hn e he hle => ?_, hcatch.ordered,
      fun e he => ?_, fun _ n hn e he hlt => ?_⟩
    · have hsome := h.connected (by rw [hk]; rfl)
      rw [show s.client.instanceId = none from hnone] at hsome
      cases hsome
    · have hle' : e.sequence.toNat ≤ s.cursor := hle
      obtain he | he := History.mem_of_mem_drop he
      · obtain hn | rfl := hjoined hn
        · exact h.behind n hn e he hle
        · rw [List.drop_length] at he
          cases he
      · have := hafter e he
        omega
    · cases hlast : s.client.lastSequence with
      | none =>
        rw [hcatch.fromNow hlast] at he
        cases he
      | some last =>
        obtain ⟨hmem, hlt⟩ := hcatch.sent last hlast e he
        exact ⟨hmem, (hcursor last hlast) ▸ hlt⟩
    · cases hlast : s.client.lastSequence with
      | none =>
        -- the log was given nothing since the client subscribed first
        rw [hcatch.fromNow hlast, boundaryOf, List.append_nil] at he
        have hn' : s.history.appended.length = n := by
          obtain hn | rfl := hjoined hn
          · exact hstart hlast n hn
          · rfl
        rw [← hn', List.drop_length] at he
        cases he
      | some last =>
        exact hcatch.ahead last hlast e (List.mem_of_mem_drop he) ((hcursor last hlast).symm ▸ hlt)

/-- What the client is sent next is new to it. -/
theorem Kept.receive (h : s.Kept capacity credentials) : s.receive.Kept capacity credentials := by
  unfold Attachment.receive
  split
  · exact h
  · rename_i event rest hsent
    have hlive : s.live = true := by
      cases hlive : s.live with
      | false => exact absurd (hsent.symm.trans (h.idle hlive)) (List.cons_ne_nil _ _)
      | true => rfl
    obtain ⟨i, hi⟩ := Option.isSome_iff_exists.1 (h.connected (h.live hlive))
    obtain ⟨hmem, hlt⟩ := h.sent event (by rw [hsent]; exact List.mem_cons_self ..)
    have hunseen : event.eventId ∉ s.client.seenEventIds := by
      rw [h.seen]
      rintro ⟨e, he, heq⟩
      obtain ⟨hmem', hle⟩ := h.taken e he
      rw [List.inj_on_of_nodup_map h.distinct hmem' hmem heq] at hle
      omega
    have haccept : s.client.acceptEvent event = .ok (.applied event.sequence,
        { s.client with
          seenEventIds := s.client.seenEventIds.insert event.eventId
          lastSequence := some event.sequence }) := by
      unfold ClientSession.acceptEvent
      rw [if_neg (by simp [hi]), if_neg hunseen]
      cases hlast : s.client.lastSequence with
      | none => rfl
      | some last =>
        rw [cursor, hlast] at hlt
        simp only [if_pos (UInt64.lt_iff_toNat_lt.2 hlt)]
    have hpairs := h.ordered
    rw [hsent] at hpairs
    obtain ⟨hhead, htail⟩ := List.pairwise_cons.1 hpairs
    simp only [haccept]
    refine ⟨h.windowed, h.distinct, fun e he => ?_, ?_, fun eventId => ?_,
      h.windowed.chronicled.sequence_le hmem, fun hzero => ?_, h.greeted, fun hnone => ?_,
      h.connected, h.live, fun hdead => ?_, fun n hn e he hle => ?_, htail, fun e he => ?_,
      fun _ n hn e he hafter => ?_⟩
    · obtain he | he := List.mem_append.1 he
      · exact ⟨(h.taken e he).1, (h.taken e he).2.trans (Nat.le_of_lt hlt)⟩
      · rw [List.mem_singleton.1 he]
        exact ⟨hmem, Nat.le_refl _⟩
    · refine List.nodup_append.2 ⟨h.once, List.nodup_singleton _, fun x hx y hy heq => ?_⟩
      rw [heq, List.mem_singleton.1 hy] at hx
      have := (h.taken event hx).2
      omega
    · rw [Std.ExtTreeSet.mem_insert, Table.compare_eq_iff, h.seen]
      constructor
      · rintro (rfl | ⟨e, he, rfl⟩)
        · exact ⟨event, List.mem_append_right _ (List.mem_singleton.2 rfl), rfl⟩
        · exact ⟨e, List.mem_append_left _ he, rfl⟩
      · rintro ⟨e, he, rfl⟩
        obtain he | he := List.mem_append.1 he
        · exact .inr ⟨e, he, rfl⟩
        · exact .inl (congrArg EventEnvelope.eventId (List.mem_singleton.1 he).symm)
    · rw [Option.some.inj hzero] at hlt
      exact absurd hlt (Nat.not_lt_zero _)
    · exact absurd (hi.symm.trans hnone) nofun
    · exact absurd (hlive.symm.trans hdead) nofun
    · rcases Nat.lt_or_ge s.cursor e.sequence.toNat with hnew | hold
      · -- the envelope is this one, or one that this one covers
        obtain hin | ⟨-, b, hb, hcovers⟩ := h.ahead hlive n hn e he hnew
        · rw [hsent] at hin
          obtain rfl | hin := List.mem_cons.1 hin
          · exact .inl (List.mem_append_right _ (List.mem_singleton.2 rfl))
          · have := hhead e hin
            have : e.sequence.toNat ≤ event.sequence.toNat := hle
            omega
        · rw [hsent] at hb
          cases hb
          exact .inr ⟨event, List.mem_append_right _ (List.mem_singleton.2 rfl), hcovers⟩
      · obtain htaken | ⟨b, hb, hcovers⟩ := h.behind n hn e he hold
        · exact .inl (List.mem_append_left _ htaken)
        · exact .inr ⟨b, List.mem_append_left _ hb, hcovers⟩
    · have he' : e ∈ s.sent := by
        rw [hsent]
        exact List.mem_cons_of_mem _ he
      exact ⟨(h.sent e he').1, hhead e he⟩
    · have hafter' : event.sequence.toNat < e.sequence.toNat := hafter
      obtain hin | ⟨-, b, hb, from_, -, -, hbefore⟩ := h.ahead hlive n hn e he (by omega)
      · rw [hsent] at hin
        obtain rfl | hin := List.mem_cons.1 hin
        · omega
        · exact .inl hin
      · rw [hsent] at hb
        cases hb
        have := UInt64.lt_iff_toNat_lt.1 hbefore
        omega

theorem Kept.step (h : s.Kept capacity credentials) (hpos : 0 < capacity)
    (supported : ProtocolVersionRange) (i : Attaching) (hok : s.Orderly i) :
    (s.step credentials supported i).Kept capacity credentials := by
  cases i with
  | open_ => exact h.opened _
  | hello k hello =>
    simp only [Attachment.step]
    split
    · exact h
    · exact h.setSession _ _
  | publish k event =>
    simp only [Attachment.step]
    split
    · exact h
    · split
      · exact h
      · rename_i sealed log hpublish
        exact h.given hpos (.inr ⟨_, sealed, ServerSession.append_of_publish hpublish, rfl, hok⟩)
  | subscribe k operationId payload boundaryEventId occurredAt =>
    simp only [Attachment.step]
    split
    · exact h
    · split
      · exact h
      · split
        · exact h.setSession _ _
        · rename_i delivery log session haccept
          exact (h.setSession k session).given hpos
            (ServerSession.grows_acceptSubscribe haccept hok)
  | connect hello => exact h.connect supported hello
  | resume operationId boundaryEventId occurredAt =>
    simp only [Attachment.step]
    split
    · exact h
    · rename_i k hk
      split
      · exact h
      · exact h.resume hpos hk _ _ _ _ hok.1 hok.2
  | receive => exact h.receive
  | disconnect => exact h.detached

theorem kept_init (supported : ProtocolVersionRange) (capacity : Nat) :
    (machine credentials supported (.new capacity)).init.Kept capacity credentials where
  windowed := History.windowed_new capacity
  distinct := .nil
  taken := nofun
  once := .nil
  seen eventId := by simp [machine, ClientSession.new]
  reached := Nat.le_refl _
  last := nofun
  greeted := nofun
  ungreeted _ := ⟨rfl, rfl⟩
  connected := nofun
  live := nofun
  idle _ := rfl
  behind := nofun
  ordered := .nil
  sent := nofun
  ahead := nofun

def sampleCredentials : LaunchCredentials := ⟨"token", ⟨"cor_reconnect0000001", by decide⟩⟩

/-- One launch with room for two envelopes. -/
def sampleMachine : Machine Attachment Attaching :=
  machine sampleCredentials supportedProtocolVersions (.new 2)

def greet : Attaching := .connect ⟨1, 1, "token"⟩

def resubscribe (n : UInt64) : Attaching := .resume ⟨"op_reconnect00000001", by decide⟩ (eventIdOf 1 n) 0

def started (n : UInt64) : Attaching :=
  .publish 0 ⟨eventIdOf 0 n, 0, .known .turnStarted, none, none, none⟩

end Attachment

end Altior.Ipc
