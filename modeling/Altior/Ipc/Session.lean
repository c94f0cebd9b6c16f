import Altior.Ipc.Replay

/-!
# The two ends of a connection

Core's session for one connection and the client's own state across connections
(`altior-ipc/src/session.rs`).  Capabilities and product versions are left out, as
nothing here depends on them.
-/

namespace Altior.Ipc

open Application Domain

abbrev CoreInstanceId := Id "cor_"

/-- Inclusive range of protocol versions. -/
structure ProtocolVersionRange where
  min : Nat
  max : Nat
deriving DecidableEq, Repr

def ProtocolVersionRange.contains (range : ProtocolVersionRange) (version : Nat) : Bool :=
  range.min ≤ version && version ≤ range.max

/-- The protocol versions an endpoint can speak. -/
def supportedProtocolVersions : ProtocolVersionRange := ⟨1, 1⟩

/-- What identifies one Core launch. -/
structure LaunchCredentials where
  launchToken : String
  instanceId : CoreInstanceId
deriving DecidableEq

/-- Core's first message after the handshake. -/
structure CoreGreeting where
  protocolVersion : Nat
  instanceId : CoreInstanceId
  retained : Option (UInt64 × UInt64)

inductive GreetingError
  | unsupportedProtocolVersion (requested : Nat) (supported : ProtocolVersionRange)
  | invalidRetainedWindow ( from_ through : UInt64)
deriving DecidableEq, Repr

def CoreGreeting.validate (greeting : CoreGreeting) : Except GreetingError Unit :=
  if !supportedProtocolVersions.contains greeting.protocolVersion then
    .error (.unsupportedProtocolVersion greeting.protocolVersion supportedProtocolVersions)
  else match greeting.retained with
    | none => .ok ()
    | some (first, last) =>
      if last < first then .error (.invalidRetainedWindow first last) else .ok ()

/-- An event that waits for its sequence. -/
structure NewEvent where
  eventId : EventId
  occurredAt : UInt64
  body : EventBody
  operationId : Option OperationId
  threadId : Option ThreadId
  turnId : Option TurnId

/-- The envelope of the event, before the log numbers it. -/
def NewEvent.envelope (event : NewEvent) : EventEnvelope :=
  ⟨event.eventId, event.operationId, event.threadId, event.turnId, 1, event.occurredAt, event.body⟩

/-! ## Core's side -/

/-- The session of one connection; the log it works on is shared with the others. -/
structure ServerSession where
  credentials : LaunchCredentials
  supported : ProtocolVersionRange
  selectedVersion : Option Nat
  subscribed : Bool
deriving DecidableEq

namespace ServerSession

/-- `ServerSession::with_log`. -/
def withLog (credentials : LaunchCredentials) (supported : ProtocolVersionRange) : ServerSession :=
  ⟨credentials, supported, none, false⟩

/-- Authenticates the hello, picks the version and greets. -/
def acceptHello (s : ServerSession) (log : EventLog) (hello : DesktopHello) :
    Except IpcError (Nat × CoreGreeting) × ServerSession :=
  if s.selectedVersion.isSome then
    (.error (.sessionOrder "accept a second hello on one connection"), s)
  else if hello.launchToken ≠ s.credentials.launchToken then (.error .authenticationRejected, s)
  else if min hello.maxVersion s.supported.max < max hello.minVersion s.supported.min then
    (.error (.protocol .noCommonProtocolVersion), s)
  else
    let version := min hello.maxVersion s.supported.max
    (.ok (version, ⟨version, s.credentials.instanceId, log.retained⟩),
      { s with selectedVersion := some version })

/-- Sequences an event through the log. -/
def publish (s : ServerSession) (log : EventLog) (event : NewEvent) :
    Except IpcError (EventEnvelope × EventLog) :=
  if s.selectedVersion.isNone then
    .error (.sessionOrder "publish before the handshake completed")
  else (log.append event.envelope).mapError .protocol

/-- The boundary of a catch-up. -/
def boundary (operationId : OperationId) (eventId : EventId) (occurredAt : UInt64)
    (body : KnownEvent) : NewEvent :=
  ⟨eventId, occurredAt, .known body, some operationId, none, none⟩

/-- Handles a `subscribe` and says what to deliver. -/
def acceptSubscribe (s : ServerSession) (log : EventLog) (operationId : OperationId)
    (payload : Option Json) (boundaryEventId : EventId) (occurredAt : UInt64) :
    Except IpcError (CatchUpDelivery × EventLog) × ServerSession :=
  if s.selectedVersion.isNone then
    (.error (.sessionOrder "subscribe before the handshake completed"), s)
  else if s.subscribed then
    (.error (.sessionOrder "subscribe twice on one connection"), s)
  else match subscribeSince payload with
    | .error e => (.error (.protocol e), s)
    | .ok since =>
      let s := { s with subscribed := true }
      match log.replayAfter since with
      | .replay events =>
        let first := (events.head?.map EventEnvelope.sequence).getD 1
        let last := (events.getLast?.map EventEnvelope.sequence).getD 1
        ((s.publish log (boundary operationId boundaryEventId occurredAt
          (.streamReplayed first last))).map fun (b, log) => (.replay events b, log), s)
      | .gap firstMissing =>
        ((s.publish log (boundary operationId boundaryEventId occurredAt
          (.streamGap firstMissing))).map fun (b, log) => (.gap b, log), s)
      | .upToDate => (.ok (.upToDate, log), s)

end ServerSession

/-! ## The client's side -/

inductive GreetingOutcome
  | resumed
  | restarted
deriving DecidableEq, Repr

inductive EventDelivery
  | applied (sequence : UInt64)
  | duplicate
deriving DecidableEq, Repr

/-- What the client keeps across its connections. -/
structure ClientSession where
  instanceId : Option CoreInstanceId
  lastSequence : Option UInt64
  seenEventIds : Std.ExtTreeSet EventId
deriving DecidableEq

namespace ClientSession

def new : ClientSession := ⟨none, none, ∅⟩

/-- Takes a greeting; one of another launch discards what was known of the stream. -/
def acceptGreeting (c : ClientSession) (greeting : CoreGreeting) (selectedVersion : Nat) :
    Except GreetingError (GreetingOutcome × ClientSession) :=
  match greeting.validate with
  | .error e => .error e
  | .ok () =>
    if greeting.protocolVersion ≠ selectedVersion then
      .error (.unsupportedProtocolVersion greeting.protocolVersion supportedProtocolVersions)
    else if c.instanceId = some greeting.instanceId then .ok (.resumed, c)
    else .ok (.restarted, ⟨some greeting.instanceId, none, ∅⟩)

/-- A greeting of the launch that is known changes nothing. -/
theorem acceptGreeting_cases {c c' : ClientSession} {greeting : CoreGreeting} {version : Nat}
    {outcome : GreetingOutcome} (h : c.acceptGreeting greeting version = .ok (outcome, c')) :
    (c.instanceId = some greeting.instanceId ∧ c' = c) ∨
      (c.instanceId ≠ some greeting.instanceId ∧ c' = ⟨some greeting.instanceId, none, ∅⟩) := by
  unfold acceptGreeting at h
  split at h
  · cases h
  · split at h
    · cases h
    · split at h
      · rename_i hknown
        cases h
        exact .inl ⟨hknown, rfl⟩
      · rename_i hother
        cases h
        exact .inr ⟨hother, rfl⟩

/-- Where the next subscription goes on. -/
def subscribeSince (c : ClientSession) : Option UInt64 := c.lastSequence

/-- Takes a delivered event, unless one with its identifier was taken before. -/
def acceptEvent (c : ClientSession) (event : EventEnvelope) :
    Except IpcError (EventDelivery × ClientSession) :=
  if c.instanceId.isNone then
    .error (.sessionOrder "accept an event before the greeting arrived")
  else if event.eventId ∈ c.seenEventIds then .ok (.duplicate, c)
  else .ok (.applied event.sequence,
    { c with
      seenEventIds := c.seenEventIds.insert event.eventId
      lastSequence := match c.lastSequence with
        | none => some event.sequence
        | some last => some (if last < event.sequence then event.sequence else last) })

end ClientSession

/-- The payload of `CommandEnvelope::subscribe`. -/
def subscribePayload (since : Option UInt64) : Json :=
  .object [("since", match since with
    | none => .scalar .null
    | some sequence => .scalar (.number (.posInt sequence)))]

theorem subscribeSince_subscribePayload {since : Option UInt64} (h : since ≠ some 0) :
    subscribeSince (some (subscribePayload since)) = .ok since := by
  cases since with
  | none => rfl
  | some sequence =>
    have hne : sequence ≠ 0 := fun heq => h (congrArg some heq)
    simp [Application.subscribeSince, subscribePayload, Json.get, Json.asU64, hne]

end Altior.Ipc
