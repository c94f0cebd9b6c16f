import Altior.Desktop.Bridge
import Altior.Desktop.Store

/-!
# Replies and the event stream

Replies to commands travel in envelopes of the event stream, all under the first
sequence.  The reader of the bridge and the store of the frontend take them for events
of the log: the bridge goes back to the first sequence, and the store takes the event
that has it for a duplicate.
-/

namespace Altior.Desktop

open Application Domain Ipc Lib

/-- The body of an event of the log, as the frontend reads it. -/
def storeBodyOf : EventBody → StoreBody
  | .known .turnStarted => .turnStarted
  | .known (.messageDelta text) => .messageDelta text.asStr
  | .known (.permissionRequested kind description) => .permissionRequested kind description.asStr
  | .known (.toolCall _ _) => .other "tool.call"
  | .known .turnCompleted => .turnCompleted
  | .known (.turnFailed reason _) => .turnFailed reason.asStr
  | .known (.turnCancelled reason) => .turnCancelled (reason.map BoundedText.asStr)
  | .known (.streamReplayed _ _) => .streamReplayed
  | .known (.streamGap _) => .streamGap
  | .unknown kind _ =>
    -- an unknown body has nothing but its kind and a diagnostic
    if kind = "core.greeting" then .coreGreeting none
    else if kind = "core.restarted" then .coreRestarted none
    else if kind = "stream.ready" then .streamReady
    else .other kind

/-- An event of the log, as the frontend reads it. -/
def storeEventOf (e : EventEnvelope) : StoreEvent where
  eventId := e.eventId.asStr
  threadId := e.threadId.map Id.asStr
  turnId := e.turnId.map Id.asStr
  sequence := e.sequence.toNat
  diagnostic := match e.body with
    | .unknown _ diagnostic => some diagnostic.asStr
    | .known _ => none
  body := storeBodyOf e.body

/-- A reply, as the frontend reads it. -/
def storeEventOfReply (r : ReplyEnvelope) : StoreEvent where
  eventId := r.eventId.asStr
  threadId := none
  turnId := none
  sequence := 1
  diagnostic := none
  body := match r.body with
    | .commandError code message => .commandError code message.asStr
    | .commandResult _ _ | .runtimeStatus _ _ => .other (replyKind r.body)

/-- What comes over the connection. -/
inductive Arriving
  | log (event : EventEnvelope)
  | reply (r : ReplyEnvelope)

namespace Arriving

def frame : Arriving → Frame
  | log event => .event event
  | reply r => .reply r

def storeEvent : Arriving → StoreEvent
  | log event => storeEventOf event
  | reply r => storeEventOfReply r

def eventId : Arriving → EventId
  | log event => event.eventId
  | reply r => r.eventId

def sequence : Arriving → UInt64
  | log event => event.sequence
  | reply _ => 1

end Arriving

/-- The desktop on one connection.  `logged` and `applied` are history: the events of
the log that were delivered, and those of them the store took. -/
structure Streaming where
  bridge : Bridge
  store : ApplicationStore
  logged : List EventEnvelope
  applied : List EventEnvelope

namespace Streaming

/-- One arrival: the reader takes the frame and hands the event on. -/
def step (s : Streaming) (a : Arriving) : Streaming :=
  match s.bridge.reader with
  | none => s
  | some _ =>
    let s' := { s with
      bridge := s.bridge.read a.frame
      store := s.store.handleIncomingEvent a.storeEvent }
    match a with
    | .reply _ => s'
    | .log event => { s' with
        logged := s.logged ++ [event]
        applied := if (s.store.greet a.storeEvent).IsDuplicate a.storeEvent then s.applied
          else s.applied ++ [event] }

/-- A bridge that has just attached. -/
def attached (greeting : CoreGreeting) (version : Nat) : Bridge :=
  Bridge.new.step (.handshake (.greeted greeting version true))

/-- The desktop over one connection. -/
def machine (greeting : CoreGreeting) (version : Nat) : Machine Streaming Arriving :=
  ⟨⟨attached greeting version, .new, [], []⟩, step⟩

/-- The sequence of the last event of the log. -/
def last (s : Streaming) : Nat := (s.logged.getLast?.map (·.sequence.toNat)).getD 0

/-- The events of the log come in increasing order. -/
def Later (s : Streaming) : Arriving → Prop
  | .log event => s.last < event.sequence.toNat
  | .reply _ => True

/-- The store took every event of the log once, and the last sequences are those of
the log. -/
structure Undisturbed (s : Streaming) : Prop where
  applied : s.applied = s.logged
  store : s.store.lastSequence = s.last
  bridge : s.bridge.lastSequence.toNat = s.last
  session : (s.bridge.session.subscribeSince.map UInt64.toNat).getD 0 = s.last
  highWater : s.store.sequenceTracker.highWater = s.last
  window : ∀ q ∈ s.store.sequenceTracker.windowSeqs, ∃ e ∈ s.logged, e.sequence.toNat = q

/-- An arrival does no harm: an event of the log is new, and a reply comes right after
the first event of the log, or is known already to both. -/
def Harmless (s : Streaming) : Arriving → Prop
  | .log event => event.eventId ∉ s.bridge.session.inner.seenEventIds
  | .reply r => s.last = 1 ∨
      (r.eventId ∈ s.bridge.session.inner.seenEventIds ∧
        (s.store.IsDuplicate (storeEventOfReply r) ∨ ∃ e ∈ s.logged, e.sequence.toNat = 1))

instance (s : Streaming) : (a : Arriving) → Decidable (s.Later a)
  | .log event => inferInstanceAs (Decidable (s.last < event.sequence.toNat))
  | .reply _ => isTrue trivial

instance (s : Streaming) : (a : Arriving) → Decidable (s.Harmless a)
  | .log event =>
    inferInstanceAs (Decidable (event.eventId ∉ s.bridge.session.inner.seenEventIds))
  | .reply _ => inferInstanceAs (Decidable (_ ∨ _))

/-! ## One arrival -/

section Steps

variable {s : Streaming} {a : Arriving}

theorem incomingEpoch_storeEvent : a.storeEvent.body.incomingEpoch = none := by
  cases a with
  | log event =>
    obtain ⟨eventId, operationId, threadId, turnId, sequence, occurredAt, body⟩ := event
    cases body with
    | known event => cases event <;> rfl
    | unknown kind diagnostic =>
      simp only [Arriving.storeEvent, storeEventOf, storeBodyOf]
      split
      · rfl
      · split
        · rfl
        · split <;> rfl
  | reply r =>
    obtain ⟨eventId, operationId, occurredAt, body⟩ := r
    cases body <;> rfl

theorem sequence_storeEvent : a.storeEvent.sequence = a.sequence.toNat := by
  cases a <;> rfl

theorem eventId_storeEvent : a.storeEvent.eventId = a.eventId.asStr := by
  cases a <;> rfl

/-- What the reader does with an arrival, unless the bridge has seen it. -/
theorem read_cases {b : Bridge} {c : Nat} (hreader : b.reader = some c)
    (hstop : b.stopReader = false) (hgreeted : b.session.inner.instanceId.isSome) :
    (b.read a.frame).reader = some c ∧ (b.read a.frame).stopReader = false ∧
      (b.read a.frame).session.inner.instanceId = b.session.inner.instanceId ∧
      if a.eventId ∈ b.session.inner.seenEventIds then
        (b.read a.frame).session.inner = b.session.inner ∧
          (b.read a.frame).lastSequence = b.lastSequence
      else
        (b.read a.frame).session.inner.seenEventIds =
            b.session.inner.seenEventIds.insert a.eventId ∧
          ((b.read a.frame).session.subscribeSince.map UInt64.toNat).getD 0 =
            max ((b.session.subscribeSince.map UInt64.toNat).getD 0) a.sequence.toNat ∧
          (b.read a.frame).lastSequence = a.sequence := by
  obtain ⟨event, hevent, hid, hsequence⟩ : ∃ event, eventOf a.frame = some event ∧
      event.eventId = a.eventId ∧ event.sequence = a.sequence := by
    cases a <;> exact ⟨_, rfl, rfl, rfl⟩
  obtain ⟨m, hsession, hlast, hstop', hread⟩ := Bridge.read_eq hreader a.frame
  have hdispatch := Bridge.dispatch_event (s := m) hevent (hsession ▸ hgreeted)
  rw [hid, hsequence, hsession] at hdispatch
  rw [hread]
  generalize m.dispatch a.frame = d at hdispatch
  by_cases hseen : a.eventId ∈ b.session.inner.seenEventIds
  · rw [if_pos hseen] at hdispatch ⊢
    subst hdispatch
    exact ⟨by rw [hstop', hstop]; rfl, hstop'.trans hstop, rfl, rfl, hlast⟩
  · rw [if_neg hseen] at hdispatch ⊢
    subst hdispatch
    refine ⟨by rw [hstop', hstop]; rfl, hstop'.trans hstop, rfl, rfl, ?_, rfl⟩
    simp only [BridgeSession.subscribeSince, ClientSession.subscribeSince]
    cases b.session.inner.lastSequence with
    | none => exact (Nat.zero_max _).symm
    | some last =>
      simp only [Option.elim_some, Option.map_some, Option.getD_some]
      split
      · rename_i hlt
        exact (Nat.max_eq_right (Nat.le_of_lt hlt)).symm
      · rename_i hle
        exact (Nat.max_eq_left (Nat.le_of_not_lt hle)).symm

/-- The bridge is attached, and nothing is known to the store that the bridge has not
seen. -/
structure Linked (s : Streaming) : Prop where
  reader : s.bridge.reader.isSome
  stop : s.bridge.stopReader = false
  greeted : s.bridge.session.inner.instanceId.isSome
  seen : ∀ id, s.store.seenEventIds.has id →
    ∃ k ∈ s.bridge.session.inner.seenEventIds, k.asStr = id
  size : s.store.sequenceTracker.windowSize = 2048
  below : ∀ e ∈ s.logged, e.sequence.toNat ≤ s.last

theorem step_eq (h : s.Linked) : (s.step a).bridge = s.bridge.read a.frame ∧
    (s.step a).store = s.store.handleIncomingEvent a.storeEvent := by
  obtain ⟨c, hc⟩ := Option.isSome_iff_exists.1 h.reader
  unfold step
  rw [hc]
  cases a <;> exact ⟨rfl, rfl⟩

theorem step_log (h : s.Linked) (event : EventEnvelope) :
    (s.step (.log event)).logged = s.logged ++ [event] ∧
      (s.step (.log event)).applied =
        if s.store.IsDuplicate (storeEventOf event) then s.applied else s.applied ++ [event] := by
  obtain ⟨c, hc⟩ := Option.isSome_iff_exists.1 h.reader
  unfold step
  rw [hc]
  dsimp only
  rw [ApplicationStore.greet_of_none incomingEpoch_storeEvent]
  exact ⟨rfl, rfl⟩

theorem step_reply (h : s.Linked) (r : ReplyEnvelope) :
    (s.step (.reply r)).logged = s.logged ∧ (s.step (.reply r)).applied = s.applied := by
  obtain ⟨c, hc⟩ := Option.isSome_iff_exists.1 h.reader
  unfold step
  rw [hc]
  exact ⟨rfl, rfl⟩

/-- The stream of the store after an arrival. -/
theorem store_step (h : s.Linked) : (s.step a).store.stream =
    if s.store.IsDuplicate a.storeEvent then s.store.stream
    else (s.store.seenEventIds.add a.eventId.asStr,
      s.store.sequenceTracker.recordCurrent a.sequence.toNat,
      max s.store.lastSequence a.sequence.toNat) := by
  rw [(step_eq h).2, ApplicationStore.stream_handleIncomingEvent incomingEpoch_storeEvent,
    eventId_storeEvent, sequence_storeEvent]

/-- The bridge after an arrival. -/
theorem bridge_step (h : s.Linked) : ∃ c, (s.step a).bridge.reader = some c ∧
    (s.step a).bridge.stopReader = false ∧
    (s.step a).bridge.session.inner.instanceId = s.bridge.session.inner.instanceId ∧
    if a.eventId ∈ s.bridge.session.inner.seenEventIds then
      (s.step a).bridge.session.inner = s.bridge.session.inner ∧
        (s.step a).bridge.lastSequence = s.bridge.lastSequence
    else
      (s.step a).bridge.session.inner.seenEventIds =
          s.bridge.session.inner.seenEventIds.insert a.eventId ∧
        ((s.step a).bridge.session.subscribeSince.map UInt64.toNat).getD 0 =
          max ((s.bridge.session.subscribeSince.map UInt64.toNat).getD 0) a.sequence.toNat ∧
        (s.step a).bridge.lastSequence = a.sequence := by
  obtain ⟨c, hc⟩ := Option.isSome_iff_exists.1 h.reader
  rw [(step_eq h).1]
  exact ⟨c, read_cases hc h.stop h.greeted⟩

theorem last_of_logged {s' : Streaming} (h : s'.logged = s.logged) : s'.last = s.last := by
  rw [last, last, h]

theorem last_of_concat {s' : Streaming} {event : EventEnvelope}
    (h : s'.logged = s.logged ++ [event]) : s'.last = event.sequence.toNat := by
  rw [last, h, List.getLast?_concat]
  rfl

/-- The last event of the log is an event of the log. -/
theorem exists_of_last {n : Nat} (hpos : 0 < n) (h : s.last = n) :
    ∃ e ∈ s.logged, e.sequence.toNat = n := by
  unfold last at h
  cases hlast : s.logged.getLast? with
  | none =>
    rw [hlast] at h
    exact absurd h (Nat.ne_of_lt hpos)
  | some e =>
    rw [hlast] at h
    exact ⟨e, List.mem_of_getLast? hlast, h⟩

/-- **An arrival** keeps the bridge attached. -/
theorem Linked.step (h : s.Linked) (hlater : s.Later a) : (s.step a).Linked := by
  obtain ⟨c, hreader, hstop, hinstance, hbridge⟩ := bridge_step (a := a) h
  have hstream := store_step (a := a) h
  have hmono : ∀ k ∈ s.bridge.session.inner.seenEventIds,
      k ∈ (s.step a).bridge.session.inner.seenEventIds := by
    intro k hk
    split at hbridge
    · rw [hbridge.1]
      exact hk
    · rw [hbridge.1]
      exact Std.ExtTreeSet.mem_insert.2 (.inr hk)
  have hself : a.eventId ∈ (s.step a).bridge.session.inner.seenEventIds := by
    split at hbridge
    · rw [hbridge.1]
      assumption
    · rw [hbridge.1]
      exact Std.ExtTreeSet.mem_insert_self
  simp only [ApplicationStore.stream] at hstream
  refine ⟨hreader ▸ rfl, hstop, hinstance ▸ h.greeted, fun id hid => ?_, ?_, fun e he => ?_⟩
  · split at hstream
    · rw [(Prod.mk.inj hstream).1] at hid
      obtain ⟨k, hk, hkid⟩ := h.seen id hid
      exact ⟨k, hmono k hk, hkid⟩
    · rw [(Prod.mk.inj hstream).1] at hid
      rcases BoundedIdSet.has_of_has_add hid with hold | rfl
      · obtain ⟨k, hk, hkid⟩ := h.seen id hold
        exact ⟨k, hmono k hk, hkid⟩
      · exact ⟨a.eventId, hself, rfl⟩
  · split at hstream
    · rw [(Prod.mk.inj (Prod.mk.inj hstream).2).1]
      exact h.size
    · rw [(Prod.mk.inj (Prod.mk.inj hstream).2).1, EpochSequenceTracker.windowSize_recordCurrent]
      exact h.size
  · cases a with
    | log event =>
      obtain ⟨hlogged, -⟩ := step_log h event
      rw [last_of_concat hlogged]
      rw [hlogged, List.mem_append, List.mem_singleton] at he
      rcases he with he | rfl
      · exact (h.below e he).trans (Nat.le_of_lt hlater)
      · exact Nat.le_refl _
    | reply r =>
      obtain ⟨hlogged, -⟩ := step_reply h r
      rw [last_of_logged hlogged]
      exact h.below e (hlogged ▸ he)

theorem Undisturbed.window_le (h : s.Linked) (hgood : s.Undisturbed) :
    ∀ q ∈ s.store.sequenceTracker.windowSeqs, q ≤ s.store.sequenceTracker.highWater := by
  intro q hq
  obtain ⟨e, he, rfl⟩ := hgood.window q hq
  rw [hgood.highWater]
  exact h.below e he

/-- **An event of the log** is taken iff it is new. -/
theorem undisturbed_log (h : s.Linked) (hgood : s.Undisturbed) (event : EventEnvelope)
    (hlater : s.last < event.sequence.toNat) :
    (s.step (.log event)).Undisturbed ↔ s.Harmless (.log event) := by
  obtain ⟨hlogged, happlied⟩ := step_log h event
  obtain ⟨c, -, -, -, hbridge⟩ := bridge_step (a := .log event) h
  have hlast := last_of_concat hlogged
  by_cases hseen : (Arriving.log event).eventId ∈ s.bridge.session.inner.seenEventIds
  · refine iff_of_false (fun hgood' => ?_) (absurd hseen)
    rw [if_pos hseen] at hbridge
    have hbad := hgood'.bridge
    rw [hbridge.2, hgood.bridge, hlast] at hbad
    exact absurd hbad (Nat.ne_of_lt hlater)
  · refine iff_of_true ?_ hseen
    rw [if_neg hseen] at hbridge
    have hnew : ¬ s.store.IsDuplicate (Arriving.log event).storeEvent := by
      rintro (hid | hsequence)
      · obtain ⟨k, hk, hkid⟩ := h.seen _ hid
        obtain rfl : k = event.eventId := Domain.Id.asStr_inj.1 hkid
        exact hseen hk
      · rw [EpochSequenceTracker.not_isDuplicate_of_lt (Undisturbed.window_le h hgood)] at hsequence
        · cases hsequence
        · rw [hgood.highWater]
          exact hlater
    have hstream := store_step (a := .log event) h
    rw [if_neg hnew] at hstream
    simp only [ApplicationStore.stream, Prod.mk.injEq] at hstream
    obtain ⟨-, htracker, hlastSequence⟩ := hstream
    refine ⟨?_, ?_, ?_, ?_, ?_, fun q hq => ?_⟩
    · rw [happlied, if_neg (show ¬ s.store.IsDuplicate (storeEventOf event) from hnew), hlogged,
        hgood.applied]
    · rw [hlastSequence, hgood.store, hlast]
      exact Nat.max_eq_right (Nat.le_of_lt hlater)
    · rw [hbridge.2.2, hlast]
      rfl
    · rw [hbridge.2.1, hgood.session, hlast]
      exact Nat.max_eq_right (Nat.le_of_lt hlater)
    · rw [htracker, EpochSequenceTracker.highWater_recordCurrent, hgood.highWater, hlast]
      exact Nat.max_eq_right (Nat.le_of_lt hlater)
    · rw [htracker] at hq
      rw [hlogged]
      rcases EpochSequenceTracker.mem_of_mem_recordCurrent hq with rfl | hold
      · exact ⟨event, List.mem_append_right _ (List.mem_singleton.2 rfl), rfl⟩
      · obtain ⟨e, he, heq⟩ := hgood.window q hold
        exact ⟨e, List.mem_append_left _ he, heq⟩

/-- What the store makes of a reply does no harm iff it drops it, or the first event of
the log is there. -/
theorem stream_reply (h : s.Linked) (hgood : s.Undisturbed) (r : ReplyEnvelope) :
    ((s.step (.reply r)).store.lastSequence = s.last ∧
        (s.step (.reply r)).store.sequenceTracker.highWater = s.last ∧
        ∀ q ∈ (s.step (.reply r)).store.sequenceTracker.windowSeqs,
          ∃ e ∈ s.logged, e.sequence.toNat = q) ↔
      (s.store.IsDuplicate (storeEventOfReply r) ∨ ∃ e ∈ s.logged, e.sequence.toNat = 1) := by
  have hstream := store_step (a := .reply r) h
  simp only [ApplicationStore.stream] at hstream
  by_cases hdup : s.store.IsDuplicate (Arriving.reply r).storeEvent
  · rw [if_pos hdup] at hstream
    simp only [Prod.mk.injEq] at hstream
    rw [hstream.2.1, hstream.2.2]
    exact iff_of_true ⟨hgood.store, hgood.highWater, hgood.window⟩ (.inl hdup)
  · rw [if_neg hdup] at hstream
    simp only [Prod.mk.injEq] at hstream
    rw [hstream.2.1, hstream.2.2]
    refine Iff.trans ?_ (or_iff_right hdup).symm
    constructor
    · rintro ⟨-, -, hwindow⟩
      refine hwindow 1 (EpochSequenceTracker.mem_recordCurrent none ?_ rfl ?_)
      · rw [h.size]
        decide
      · have hnot := not_or.1 hdup
        rw [incomingEpoch_storeEvent (a := .reply r)] at hnot
        exact Bool.eq_false_iff.2 hnot.2
    · intro hfirst
      obtain ⟨e, he, hone⟩ := hfirst
      have hle : 1 ≤ s.last := hone ▸ h.below e he
      refine ⟨?_, ?_, fun q hq => ?_⟩
      · rw [hgood.store]
        exact Nat.max_eq_left hle
      · rw [EpochSequenceTracker.highWater_recordCurrent, hgood.highWater]
        exact Nat.max_eq_left hle
      · rcases EpochSequenceTracker.mem_of_mem_recordCurrent hq with rfl | hold
        · exact ⟨e, he, hone⟩
        · exact hgood.window q hold

/-- **A reply** does no harm iff it comes right after the first event, or is known. -/
theorem undisturbed_reply (h : s.Linked) (hgood : s.Undisturbed) (r : ReplyEnvelope) :
    (s.step (.reply r)).Undisturbed ↔ s.Harmless (.reply r) := by
  obtain ⟨hlogged, happlied⟩ := step_reply h r
  obtain ⟨c, -, -, -, hbridge⟩ := bridge_step (a := .reply r) h
  have hlast := last_of_logged hlogged
  have hiff : (s.step (.reply r)).Undisturbed ↔
      ((s.step (.reply r)).bridge.lastSequence.toNat = s.last ∧
        ((s.step (.reply r)).bridge.session.subscribeSince.map UInt64.toNat).getD 0 = s.last) ∧
      (s.store.IsDuplicate (storeEventOfReply r) ∨ ∃ e ∈ s.logged, e.sequence.toNat = 1) := by
    rw [← stream_reply h hgood]
    constructor
    · intro hgood'
      rw [← hlast, ← hlogged]
      exact ⟨⟨hgood'.bridge, hgood'.session⟩, hgood'.store, hgood'.highWater, hgood'.window⟩
    · rintro ⟨⟨hbridge', hsession⟩, hstore, hhigh, hwindow⟩
      rw [← hlast] at hbridge' hsession hstore hhigh
      rw [← hlogged] at hwindow
      exact ⟨by rw [happlied, hlogged, hgood.applied], hstore, hbridge', hsession, hhigh, hwindow⟩
  rw [hiff]
  by_cases hseen : (Arriving.reply r).eventId ∈ s.bridge.session.inner.seenEventIds
  · rw [if_pos hseen] at hbridge
    have hsession : ((s.step (.reply r)).bridge.session.subscribeSince.map UInt64.toNat).getD 0 =
        s.last := by
      rw [BridgeSession.subscribeSince, hbridge.1]
      exact hgood.session
    rw [and_iff_right ⟨(congrArg UInt64.toNat hbridge.2).trans hgood.bridge, hsession⟩]
    constructor
    · exact fun hok => .inr ⟨hseen, hok⟩
    · rintro (hone | ⟨-, hok⟩)
      · exact .inr (exists_of_last Nat.one_pos hone)
      · exact hok
  · rw [if_neg hseen] at hbridge
    constructor
    · rintro ⟨⟨hone, -⟩, -⟩
      rw [hbridge.2.2] at hone
      exact .inl hone.symm
    · rintro (hone | ⟨hbad, -⟩)
      · refine ⟨⟨?_, ?_⟩, .inr (exists_of_last Nat.one_pos hone)⟩
        · rw [hbridge.2.2, hone]
          rfl
        · rw [hbridge.2.1, hgood.session, hone]
          rfl
      · exact absurd hbad hseen

end Steps

/-! ## Whole connections -/

/-- A bridge that has attached knows Core, and nothing of the stream. -/
theorem attached_cases {greeting : CoreGreeting} {version : Nat}
    (h : (attached greeting version).status = .connected) :
    (attached greeting version).reader = some 0 ∧ (attached greeting version).stopReader = false ∧
      (attached greeting version).lastSequence = 0 ∧
      (attached greeting version).session.inner = ⟨some greeting.instanceId, none, ∅⟩ := by
  have heq : attached greeting version =
      { Bridge.new with status := .connecting }.attach .unavailable (.greeted greeting version true) := by
    have hstep : attached greeting version =
        Bridge.new.handshakeWith (.greeted greeting version true) := rfl
    rw [hstep, Bridge.handshakeWith, if_neg (by decide)]
  rw [heq] at h ⊢
  unfold Bridge.attach at h ⊢
  dsimp only at h ⊢
  cases haccept : BridgeSession.new.acceptGreeting greeting version with
  | error e =>
    rw [show Bridge.new.session = BridgeSession.new from rfl, haccept] at h
    cases h
  | ok pair =>
    obtain ⟨outcome, session⟩ := pair
    rw [show Bridge.new.session = BridgeSession.new from rfl, haccept]
    refine ⟨rfl, rfl, rfl, ?_⟩
    unfold BridgeSession.acceptGreeting at haccept
    cases hinner : BridgeSession.new.inner.acceptGreeting greeting version with
    | error e =>
      rw [hinner] at haccept
      cases haccept
    | ok pair =>
      obtain ⟨outcome', inner⟩ := pair
      rw [hinner] at haccept
      rcases ClientSession.acceptGreeting_cases hinner with ⟨hknown, -⟩ | ⟨-, rfl⟩
      · cases hknown
      · cases outcome' <;> cases haccept <;> rfl

theorem linked_attached {greeting : CoreGreeting} {version : Nat}
    (h : (attached greeting version).status = .connected) :
    (machine greeting version).init.Linked ∧ (machine greeting version).init.Undisturbed := by
  obtain ⟨hreader, hstop, hlast, hinner⟩ := attached_cases h
  constructor
  · refine ⟨Option.isSome_of_eq_some hreader, hstop, ?_, fun _ hid => ?_, rfl, fun _ he => ?_⟩
    · rw [show (machine greeting version).init.bridge = attached greeting version from rfl, hinner]
      rfl
    · exact absurd hid List.not_mem_nil
    · exact absurd he List.not_mem_nil
  · refine ⟨rfl, rfl, congrArg UInt64.toNat hlast, ?_, rfl, fun _ hq => absurd hq (Finset.notMem_empty _)⟩
    rw [show (machine greeting version).init.bridge = attached greeting version from rfl,
      BridgeSession.subscribeSince, hinner]
    rfl

/-- **Replies.** On one connection, over which the events of the log come in increasing
order, the store takes every event of the log once, and the last sequences of the store
and of the bridge are those of the log, if and only if every arrival is harmless. -/
theorem undisturbed_iff {greeting : CoreGreeting} {version : Nat}
    (h : (attached greeting version).status = .connected) {arrivals : List Arriving}
    (hlater : (machine greeting version).Meets Later (machine greeting version).init arrivals) :
    (∀ done, done <+: arrivals → ((machine greeting version).run done).Undisturbed) ↔
      (machine greeting version).Meets Harmless (machine greeting version).init arrivals := by
  obtain ⟨hlinked, hgood⟩ := linked_attached h
  refine (machine greeting version).prefixes_iff_meets_given (J := Linked) ?_ ?_ hlinked hgood hlater
  · intro s a hlater hlinked hgood
    cases a with
    | log event => exact undisturbed_log hlinked hgood event hlater
    | reply r => exact undisturbed_reply hlinked hgood r
  · exact fun s a hlater hlinked _ _ => hlinked.step hlater

/-! ### A reply after the first event, and one before it -/

def sampleGreeting : CoreGreeting := ⟨1, ⟨"cor_00000000000000d2", by decide⟩, none⟩

def sampleLogged : Arriving := .log ⟨eventIdOf 0 1, none, none, none, 1, 0, .known .turnStarted⟩

def sampleReply : Arriving := .reply ⟨eventIdOf 0 2, Bridge.sampleOperation, 0, .commandResult true none⟩

/-- A reply after the first event of the log does no harm. -/
theorem undisturbed_iff_sample :
    ((machine sampleGreeting 1).run [sampleLogged, sampleReply]).Undisturbed :=
  (undisturbed_iff (by decide) (by decide)).2 (by decide) _ (List.prefix_refl _)

/-- A reply that is first takes the place of the first event of the log. -/
theorem not_undisturbed : ¬ ∀ (greeting : CoreGreeting) (version : Nat) (arrivals : List Arriving),
    (attached greeting version).status = .connected →
    (machine greeting version).Meets Later (machine greeting version).init arrivals →
    ((machine greeting version).run arrivals).Undisturbed := by
  intro h
  have hgood := (h sampleGreeting 1 [sampleReply, sampleLogged] (by decide)
    (by decide)).applied
  have hlost : ((machine sampleGreeting 1).run [sampleReply, sampleLogged]).applied.length ≠
      ((machine sampleGreeting 1).run [sampleReply, sampleLogged]).logged.length := by
    decide
  exact hlost (congrArg List.length hgood)

end Streaming

end Altior.Desktop
