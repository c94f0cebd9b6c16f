import Altior.Application.Stable

/-!
# Permission requests that are heard

A supervisor takes a permission request while it is prompting; at any other time the
request is dropped, and the poll that took it looks like one that found nothing.  So an
agent may be left waiting, and the pump may leave a thread with events still queued.
-/

namespace Altior.Application

open Domain Lib Storage Altior.Runtime

section Permissions

variable [SerdeJsonWriter] {H : Type}

/-! ## A harness that records the answers -/

/-- A harness with the decisions its agents were given, first to last. -/
structure Answering (H : Type) where
  inner : H
  answers : List (EventId × PermissionDecision)

/-- A change of the recorded harness. -/
def Answering.map (f : H → H) (h : Answering H) : Answering H := { h with inner := f h.inner }

instance [HarnessRuntimePort H] : HarnessRuntimePort (Answering H) where
  createSession h binding threadId :=
    let (r, inner) := HarnessRuntimePort.createSession h.inner binding threadId
    (r, { h with inner := inner })
  resumeSession h binding sessionId threadId :=
    let (r, inner) := HarnessRuntimePort.resumeSession h.inner binding sessionId threadId
    (r, { h with inner := inner })
  sendPrompt h sessionId request :=
    let (r, inner) := HarnessRuntimePort.sendPrompt h.inner sessionId request
    (r, { h with inner := inner })
  cancelTurn h sessionId :=
    let (r, inner) := HarnessRuntimePort.cancelTurn h.inner sessionId
    (r, { h with inner := inner })
  decidePermission h sessionId eventId decision :=
    let (r, inner) := HarnessRuntimePort.decidePermission h.inner sessionId eventId decision
    (r, { inner := inner, answers := h.answers ++ [(eventId, decision)] })
  pollEvent h sessionId :=
    let (r, inner) := HarnessRuntimePort.pollEvent h.inner sessionId
    (r, { h with inner := inner })
  closeSession h sessionId :=
    let (r, inner) := HarnessRuntimePort.closeSession h.inner sessionId
    (r, { h with inner := inner })

/-- The same input for the recorded harness. -/
def Input.answering : Input H → Input (Answering H)
  | .call c crash => .call c crash
  | .agents f => .agents (Answering.map f)
  | .restart f => .restart (Answering.map f)

/-- The system over a harness that records the answers, from any process on. -/
def answeringMachine [HarnessRuntimePort H] [DefaultHasher] [ErrorText] (p : Process (Answering H)) :
    Machine (Process (Answering H)) (Input H) :=
  ⟨p, fun p i => systemStep p i.answering⟩

/-! ## What is queued -/

section Queue

variable [HarnessRuntimePort H]

/-- The session of a thread. -/
def CoreApplication.sessionOf (app : CoreApplication H) (threadId : ThreadId) :
    Option HarnessSessionId :=
  app.supervisor.threads[threadId]?.bind ThreadRuntimeSupervisor.sessionId

omit [SerdeJsonWriter] in
/-- The event a harness has for a session. -/
def portEvent (h : H) (sessionId : HarnessSessionId) : Option HarnessEvent :=
  (HarnessRuntimePort.pollEvent h sessionId).1.toOption.join

/-- The event the next poll of a thread takes. -/
def nextEvent (app : CoreApplication H) (threadId : ThreadId) : Option HarnessEvent :=
  (app.sessionOf threadId).bind (portEvent app.supervisor.harness)

/-- The event that is queued behind it. -/
def eventBehind (app : CoreApplication H) (threadId : ThreadId) : Option HarnessEvent :=
  (app.sessionOf threadId).bind fun sessionId =>
    portEvent (HarnessRuntimePort.pollEvent app.supervisor.harness sessionId).2 sessionId

end Queue

/-! ## What a poll owes -/

section Poll

variable [HarnessRuntimePort H]

/-- What is owed when a thread is portEvent: a permission request for a running turn comes out
as an event or is answered at once, and an event that is taken without one coming out ends
the draining of the thread only when it was the last. -/
structure Heeds (app : CoreApplication (Answering H)) (threadId : ThreadId) (now : UInt64) :
    Prop where
  heard : ∀ permissionId kind description,
    nextEvent app threadId = some (.permissionRequest permissionId kind description) →
    app.supervisor.activeTurnId threadId ≠ none →
    (∃ shown turnId, (onThread threadId (pollStream 0) app none).ending =
      .done (some (.permissionRequested shown turnId permissionId kind description))) ∨
    (pollThreadEvents threadId now app none).state.supervisor.harness.answers ≠
      app.supervisor.harness.answers
  drains : ∀ event, nextEvent app threadId = some event →
    (∀ shown, (onThread threadId (pollStream 0) app none).ending ≠ .done (some shown)) →
    nextEvent (pollThreadEvents threadId now app none).state threadId = none

/-- A permission request finds the thread prompting, or no turn running and nothing queued
behind it. -/
def Hears (app : CoreApplication (Answering H)) (threadId : ThreadId) : Prop :=
  ∀ permissionId kind description,
    nextEvent app threadId = some (.permissionRequest permissionId kind description) →
    (∃ turnId operationId delivery,
      app.supervisor.stateOf threadId = .prompting turnId operationId delivery) ∨
    app.supervisor.activeTurnId threadId = none ∧ eventBehind app threadId = none

end Poll

/-! ## One event -/

variable {delivery : DeliveryState} {event : HarnessEvent} {operationId : OperationId}

section Event

variable (x : Supervised H)

/-- A request of a prompting supervisor comes out. -/
theorem applyEvent_request {turnId : TurnId}
    (hstate : x.supervisor.state = .prompting turnId operationId delivery)
    (permissionId : EventId) (kind : PermissionKind) (description : PermissionDescription)
    (now : UInt64) :
    ∃ x', applyEvent (.permissionRequest permissionId kind description) now x none =
      ⟨.done (some (.permissionRequested x.supervisor.threadId turnId permissionId kind description)),
        x', none⟩ := by
  unfold applyEvent
  rw [Proc.bind_run_done _ _ (Proc.get_run x none)]
  simp only [hstate]
  exact ⟨_, rfl⟩

/-- At any other time it changes nothing. -/
theorem applyEvent_dropped
    (hstate : ∀ turnId operationId delivery, x.supervisor.state ≠ .prompting turnId operationId delivery)
    (permissionId : EventId) (kind : PermissionKind) (description : PermissionDescription)
    (now : UInt64) :
    applyEvent (.permissionRequest permissionId kind description) now x none =
      ⟨.done none, x, none⟩ := by
  unfold applyEvent
  rw [Proc.bind_run_done _ _ (Proc.get_run x none)]
  cases h : x.supervisor.state with
  | prompting turnId operationId delivery => exact absurd h (hstate turnId operationId delivery)
  | _ => rfl

/-- Every other event comes out as one. -/
theorem applyEvent_shown (hother : ∀ permissionId kind description,
      event ≠ .permissionRequest permissionId kind description) (now : UInt64) :
    ∃ shown x', applyEvent event now x none = ⟨.done (some shown), x', none⟩ := by
  unfold applyEvent
  rw [Proc.bind_run_done _ _ (Proc.get_run x none)]
  cases event with
  | started | rawUnknown => exact ⟨_, _, rfl⟩
  | permissionRequest permissionId kind description => exact absurd rfl (hother _ _ _)
  | messageDelta | toolCall =>
    dsimp only
    cases x.supervisor.state.activeTurnId with
    | none => exact ⟨_, _, rfl⟩
    | some turnId => exact ⟨_, _, rfl⟩
  | completed | cancelled | failed =>
    dsimp only
    cases x.supervisor.state.activeWork with
    | none => exact ⟨_, _, rfl⟩
    | some work => exact ⟨_, _, rfl⟩
  | processExited exitCode =>
    dsimp only
    cases x.supervisor.state with
    | _ => exact ⟨_, _, rfl⟩

end Event

/-! ## One poll -/

section Poll

variable {app : CoreApplication H} {threadId : ThreadId} {v : ThreadRuntimeSupervisor}

theorem onThread_done {α : Type} {m : Proc (Supervised H) RuntimeError α} {a : α} {x : Supervised H}
    (hv : app.supervisor.threads[threadId]? = some v)
    (hm : m (AgentRuntimeSupervisor.view v app.supervisor) none = ⟨.done a, x, none⟩) :
    onThread threadId m app none =
      ⟨.done a, { app with supervisor := .put threadId app.supervisor x }, none⟩ := by
  unfold onThread onRuntime AgentRuntimeSupervisor.onThread Proc.mapError Proc.zoom
  rw [Proc.bind_run_done _ _ (Proc.get_run app.supervisor none), hv]
  dsimp only
  rw [hm]

variable [HarnessRuntimePort H]

theorem portEvent_eq_some {h : H} {sessionId : HarnessSessionId}
    (hpolled : portEvent h sessionId = some event) :
    (HarnessRuntimePort.pollEvent h sessionId).1 = .ok (some event) := by
  unfold portEvent at hpolled
  cases hr : (HarnessRuntimePort.pollEvent h sessionId).1 with
  | error err =>
    rw [hr] at hpolled
    cases hpolled
  | ok event? =>
    rw [hr] at hpolled
    exact congrArg Except.ok hpolled

/-- A thread that has an event has a supervisor with a session. -/
theorem nextEvent_eq_some (h : nextEvent app threadId = some event) :
    ∃ v sessionId, app.supervisor.threads[threadId]? = some v ∧ v.sessionId = some sessionId ∧
      (HarnessRuntimePort.pollEvent app.supervisor.harness sessionId).1 = .ok (some event) := by
  obtain ⟨sessionId, hsession, hpolled⟩ := Option.bind_eq_some_iff.1 h
  obtain ⟨v, hv, hsession⟩ := Option.bind_eq_some_iff.1 hsession
  exact ⟨v, sessionId, hv, hsession, portEvent_eq_some hpolled⟩

theorem pollStream_take {sessionId : HarnessSessionId} (hsession : v.sessionId = some sessionId)
    (hpoll : (HarnessRuntimePort.pollEvent app.supervisor.harness sessionId).1 = .ok (some event))
    (now : UInt64) :
    pollStream now (AgentRuntimeSupervisor.view v app.supervisor) none =
      applyEvent event now ⟨v, (HarnessRuntimePort.pollEvent app.supervisor.harness sessionId).2,
        app.supervisor.store⟩ none := by
  have htake : (callHarness fun h => HarnessRuntimePort.pollEvent h sessionId).mapError
      RuntimeError.harness (AgentRuntimeSupervisor.view v app.supervisor) none =
        ⟨.done (some event), ⟨v, (HarnessRuntimePort.pollEvent app.supervisor.harness sessionId).2,
          app.supervisor.store⟩, none⟩ := by
    unfold callHarness Proc.mapError AgentRuntimeSupervisor.view
    rw [Proc.act_run_none, hpoll]
    rfl
  unfold pollStream
  rw [Proc.bind_run_done _ _ (Proc.get_run _ none)]
  simp only [AgentRuntimeSupervisor.view, hsession]
  exact Proc.bind_run_done _ _ htake

omit [HarnessRuntimePort H] in
theorem stateOf_of_getElem? (hv : app.supervisor.threads[threadId]? = some v) :
    app.supervisor.stateOf threadId = v.state := by
  unfold AgentRuntimeSupervisor.stateOf
  rw [hv]
  rfl

omit [HarnessRuntimePort H] in
theorem activeTurnId_of_prompting {turnId : TurnId}
    (hstate : app.supervisor.stateOf threadId = .prompting turnId operationId delivery) :
    app.supervisor.activeTurnId threadId = some turnId := by
  unfold AgentRuntimeSupervisor.stateOf at hstate
  unfold AgentRuntimeSupervisor.activeTurnId
  cases hv : app.supervisor.threads[threadId]? with
  | none =>
    rw [hv] at hstate
    cases hstate
  | some v =>
    rw [hv] at hstate
    rw [Option.bind_some, show v.state = .prompting turnId operationId delivery from hstate]
    rfl

/-- A request that is dropped: nothing comes out and the harness alone has changed. -/
theorem poll_dropped {permissionId : EventId} {kind : PermissionKind}
    {description : PermissionDescription} (now : UInt64)
    (hnext : nextEvent app threadId = some (.permissionRequest permissionId kind description))
    (hstate : ∀ turnId operationId delivery,
      app.supervisor.stateOf threadId ≠ .prompting turnId operationId delivery) :
    ∃ app' : CoreApplication H, onThread threadId (pollStream 0) app none = ⟨.done none, app', none⟩ ∧
      pollThreadEvents threadId now app none = ⟨.done none, app', none⟩ ∧
      nextEvent app' threadId = eventBehind app threadId ∧
      ∃ sessionId, app'.supervisor.harness =
        (HarnessRuntimePort.pollEvent app.supervisor.harness sessionId).2 := by
  obtain ⟨v, sessionId, hv, hsession, hpoll⟩ := nextEvent_eq_some hnext
  rw [stateOf_of_getElem? hv] at hstate
  have hdrop := pollStream_take hsession hpoll 0
  rw [applyEvent_dropped _ hstate] at hdrop
  have hdone := onThread_done hv hdrop
  refine ⟨_, hdone, Proc.bind_run_done _ _ hdone, ?_, sessionId, rfl⟩
  unfold nextEvent eventBehind CoreApplication.sessionOf AgentRuntimeSupervisor.put
  rw [Table.getElem?_insert_eq, if_pos rfl, hv]
  simp only [Option.bind_some, hsession]

/-- A request of a prompting supervisor. -/
theorem poll_request {permissionId : EventId} {kind : PermissionKind}
    {description : PermissionDescription} {turnId : TurnId}
    (hnext : nextEvent app threadId = some (.permissionRequest permissionId kind description))
    (hstate : app.supervisor.stateOf threadId = .prompting turnId operationId delivery) :
    ∃ shown, (onThread threadId (pollStream 0) app none).ending =
      .done (some (.permissionRequested shown turnId permissionId kind description)) := by
  obtain ⟨v, sessionId, hv, hsession, hpoll⟩ := nextEvent_eq_some hnext
  rw [stateOf_of_getElem? hv] at hstate
  obtain ⟨x', hrun⟩ := applyEvent_request ⟨v, (HarnessRuntimePort.pollEvent app.supervisor.harness
    sessionId).2, app.supervisor.store⟩ hstate permissionId kind description 0
  rw [onThread_done hv ((pollStream_take hsession hpoll 0).trans hrun)]
  exact ⟨_, rfl⟩

/-- Any other event. -/
theorem poll_shown (hnext : nextEvent app threadId = some event)
    (hother : ∀ permissionId kind description,
      event ≠ .permissionRequest permissionId kind description) :
    ∃ shown, (onThread threadId (pollStream 0) app none).ending = .done (some shown) := by
  obtain ⟨v, sessionId, hv, hsession, hpoll⟩ := nextEvent_eq_some hnext
  obtain ⟨shown, x', hrun⟩ := applyEvent_shown ⟨v, (HarnessRuntimePort.pollEvent
    app.supervisor.harness sessionId).2, app.supervisor.store⟩ hother 0
  rw [onThread_done hv ((pollStream_take hsession hpoll 0).trans hrun)]
  exact ⟨_, rfl⟩

end Poll

/-! ## What is heeded -/

section Heeded

variable [HarnessRuntimePort H] {app : CoreApplication (Answering H)} {threadId : ThreadId}
  {now : UInt64}

/-- A dropped request leaves its turn waiting, or the thread with what is queued behind. -/
theorem Heeds.hears (h : Heeds app threadId now) : Hears app threadId := by
  intro permissionId kind description hnext
  by_cases hprompting : ∃ turnId operationId delivery,
      app.supervisor.stateOf threadId = .prompting turnId operationId delivery
  · exact .inl hprompting
  · have hstate : ∀ turnId operationId delivery,
        app.supervisor.stateOf threadId ≠ .prompting turnId operationId delivery :=
      fun turnId operationId delivery heq => hprompting ⟨turnId, operationId, delivery, heq⟩
    obtain ⟨app', hstream, hpoll, hbehind, sessionId, hharness⟩ :=
      poll_dropped now hnext hstate
    refine .inr ⟨?_, ?_⟩
    · by_contra hactive
      rcases h.heard permissionId kind description hnext hactive with
        ⟨shown, turnId, hshown⟩ | hanswered
      · rw [hstream] at hshown
        cases hshown
      · rw [hpoll, hharness] at hanswered
        exact hanswered rfl
    · rw [← hbehind]
      have hdrained := h.drains _ hnext fun shown hshown => by
        rw [hstream] at hshown
        cases hshown
      rwa [hpoll] at hdrained

theorem Hears.heeds (h : Hears app threadId) (now : UInt64) : Heeds app threadId now := by
  constructor
  · intro permissionId kind description hnext hactive
    rcases h permissionId kind description hnext with ⟨turnId, operationId, delivery, hstate⟩ | ⟨hnone, -⟩
    · obtain ⟨shown, hshown⟩ := poll_request hnext hstate
      exact .inl ⟨shown, turnId, hshown⟩
    · exact absurd hnone hactive
  · intro event hnext hsilent
    by_cases hrequest : ∃ permissionId kind description,
        event = .permissionRequest permissionId kind description
    · obtain ⟨permissionId, kind, description, rfl⟩ := hrequest
      rcases h permissionId kind description hnext with
        ⟨turnId, operationId, delivery, hstate⟩ | ⟨hnone, hbehind⟩
      · obtain ⟨shown, hshown⟩ := poll_request hnext hstate
        exact absurd hshown (hsilent _)
      · have hstate : ∀ turnId operationId delivery,
            app.supervisor.stateOf threadId ≠ .prompting turnId operationId delivery := by
          intro turnId operationId delivery heq
          rw [activeTurnId_of_prompting heq] at hnone
          cases hnone
        obtain ⟨app', -, hpoll, hsame, -⟩ := poll_dropped now hnext hstate
        rw [hpoll]
        exact hsame.trans hbehind
    · obtain ⟨shown, hshown⟩ := poll_shown hnext fun permissionId kind description heq =>
        hrequest ⟨permissionId, kind, description, heq⟩
      exact absurd hshown (hsilent shown)

/-- A poll does what it owes. -/
def Heeding (p : Process (Answering H)) (i : Input H) : Prop :=
  ∀ app threadId now, p = .up app → i = .call (.poll threadId now) none → Heeds app threadId now

/-- A poll finds its thread at a prompt, or without a turn and with nothing queued behind, if
the event it takes is a permission request. -/
def Hearing (p : Process (Answering H)) (i : Input H) : Prop :=
  ∀ app threadId now, p = .up app → i = .call (.poll threadId now) none → Hears app threadId

variable [DefaultHasher] [ErrorText]

/-- **Permission requests are heard** along a run, and no thread is left with events that are
queued, exactly when every request that is taken finds its thread at a prompt, or without a
turn and with nothing queued behind it. -/
theorem permissions_heeded_iff (p : Process (Answering H)) (inputs : List (Input H)) :
    (answeringMachine p).Meets Heeding p inputs ↔ (answeringMachine p).Meets Hearing p inputs :=
  (answeringMachine p).meets_iff (I := fun _ => True) (fun _ _ _ _ => trivial)
    (fun _ _ _ => ⟨fun h app threadId now hup hpoll => (h app threadId now hup hpoll).hears,
      fun h app threadId now hup hpoll => (h app threadId now hup hpoll).heeds now⟩) trivial

end Heeded

end Permissions

/-! ## A second request -/

section Sample

local instance heardWriter : SerdeJsonWriter := flatWriter
local instance heardText : ErrorText := plainText
local instance heardHasher : DefaultHasher := linearHasher

def sampleRequest (permissionId : EventId) : HarnessEvent :=
  .permissionRequest permissionId .execute ⟨"run", by decide⟩

def firstRequest : EventId := ⟨"evt_fixture0000000p1", by decide⟩

def secondRequest : EventId := ⟨"evt_fixture0000000p2", by decide⟩

/-- Two requests of a running turn, and the poll that takes the first. -/
def sampleRequests : List (Input Queued) :=
  sampleOpen ++ [samplePrompt sampleOperation sampleTurnId 2,
    .agents (Queued.push sampleSession (sampleRequest firstRequest)),
    .agents (Queued.push sampleSession (sampleRequest secondRequest)),
    .call (.poll sampleThread 3) none]

/-- The thread awaits the first decision and is asked for another. -/
def Process.asksAgain : Process (Answering Queued) → Bool
  | .up app => nextEvent app sampleThread == some (sampleRequest secondRequest)
      && app.supervisor.stateOf sampleThread ==
        .awaitingPermission sampleTurnId sampleOperation firstRequest
      && (app.supervisor.activeTurnId sampleThread).isSome
  | .down _ _ => false

/-- The second request of a turn is taken and nobody hears of it. -/
theorem second_request_unheard :
    ¬ ∀ (p : Process (Answering Queued)) (inputs : List (Input Queued)),
      (answeringMachine p).Meets Heeding p inputs := by
  intro h
  have hrun := h (.down ⟨⟨∅⟩, []⟩ .empty) (sampleRequests ++ [.call (.poll sampleThread 4) none])
  obtain ⟨-, hlast, -⟩ := (Machine.meets_append _).1 hrun
  have hasks : Process.asksAgain ((answeringMachine (.down ⟨⟨∅⟩, []⟩ .empty)).runFrom
      (.down ⟨⟨∅⟩, []⟩ .empty) sampleRequests) = true := by
    decide +kernel
  generalize (answeringMachine (H := Queued) (.down ⟨⟨∅⟩, []⟩ .empty)).runFrom _ _ = q at hlast hasks
  cases q with
  | down harness store => cases hasks
  | up app =>
    obtain ⟨hpending, hactive⟩ := Bool.and_eq_true_iff.1 hasks
    obtain ⟨hnext, hstate⟩ := Bool.and_eq_true_iff.1 hpending
    rcases (hlast app sampleThread 4 rfl rfl).hears _ _ _ (beq_iff_eq.1 hnext) with
      ⟨turnId, operationId, delivery, hprompting⟩ | ⟨hnone, -⟩
    · rw [beq_iff_eq.1 hstate] at hprompting
      cases hprompting
    · rw [hnone] at hactive
      cases hactive

end Sample

end Altior.Application
