import Altior.Runtime.Supervisor

/-!
# The event pump

How a runtime event becomes a journal record and an envelope of the replay log
(`altior-core/src/application/event_pump.rs`, `altior-ipc/src/session.rs`).
-/

namespace Altior.Application

open Domain Lib Storage Altior.Runtime

/-! ## Errors and envelopes -/

/-- Failures of protocol values. -/
inductive ProtocolError
  | textTooLarge (sizeBytes limitBytes : Nat)
  | payloadTooLarge (sizeBytes limitBytes : Nat)
  | sequenceOverflow (at_ : UInt64)
  | noCommonProtocolVersion
  | malformedEnvelope (msg : String)
deriving DecidableEq, Repr

/-- Failures of the local transport and its sessions. -/
inductive IpcError
  | frameRefused
  | authenticationRejected
  | sessionOrder (attempted : String)
  | protocol (source : ProtocolError)
deriving DecidableEq, Repr

/-- Failures of the application.  `unpersisted` is the `Other` text of a failed
prompt whose failure could not be journaled either. -/
inductive CoreAppError
  | threadNotFound (threadId : ThreadId)
  | admission (err : AdmissionError)
  | storage (err : StorageError)
  | entity (err : EntityError)
  | ipc (err : IpcError)
  | protocol (err : ProtocolError)
  | harness (err : HarnessError)
  | checkpoint (err : CheckpointError)
  | activeTurnInProgress (threadId : ThreadId) (turnId : TurnId)
  | automaticResendForbidden (threadId : ThreadId) (turnId : TurnId) (delivery : DeliveryState)
  | permissionNotFound (threadId : ThreadId) (permissionId : EventId)
  | unsupportedCapability (capability : String)
  | sessionNotReady (state : NotReady)
  | sessionAlreadyActive (threadId : ThreadId)
  | id (err : IdParseError)
  | invalidInput (msg : String)
  | unpersisted (promptErr : RuntimeError) (persistError : CoreAppError)
  | other (msg : String)
deriving DecidableEq

/-- `From<RuntimeError>`. -/
def CoreAppError.ofRuntime : RuntimeError → CoreAppError
  | .operationAdmitFailed err => .admission err
  | .sessionNotReady state => .sessionNotReady state
  | .invalidSessionId msg => .invalidInput msg
  | .activeOperationInProgress threadId turnId => .activeTurnInProgress threadId turnId
  | .automaticResendForbidden threadId turnId delivery =>
    .automaticResendForbidden threadId turnId delivery
  | .unsupportedCapability capability => .unsupportedCapability capability
  | .permissionNotFound threadId permissionId => .permissionNotFound threadId permissionId
  | .harness err => .harness err
  | .checkpoint err => .checkpoint err
  | .unknownThread threadId => .threadNotFound threadId
  | .sessionAlreadyActive threadId => .sessionAlreadyActive threadId

/-- Text bounded to a number of bytes. -/
structure BoundedText (maxBytes : Nat) where
  asStr : String
  bounded : asStr.utf8ByteSize ≤ maxBytes
deriving DecidableEq

/-- `BoundedText::try_from`. -/
def BoundedText.tryFrom (maxBytes : Nat) (value : String) :
    Except ProtocolError (BoundedText maxBytes) :=
  if h : value.utf8ByteSize ≤ maxBytes then .ok ⟨value, h⟩
  else .error (.textTooLarge value.utf8ByteSize maxBytes)

/-- Capacity of a diagnostic text in bytes. -/
def diagnosticTextBytes : Nat := 4096

/-- Capacity of a message text in bytes. -/
def messageTextBytes : Nat := 64 * 1024

abbrev DiagnosticText := BoundedText diagnosticTextBytes
abbrev MessageText := BoundedText messageTextBytes

/-- The known events of the replay log: what runtime events map to, and the
boundaries of a catch-up. -/
inductive KnownEvent
  | turnStarted
  | messageDelta (text : MessageText)
  | permissionRequested (permissionKind : String) (description : DiagnosticText)
  | toolCall (toolCallId : String) (status : Option String)
  | turnCompleted
  | turnFailed (reason : DiagnosticText) (deliveryState : String)
  | turnCancelled (reason : Option DiagnosticText)
  | streamReplayed ( from_ through : UInt64)
  | streamGap ( from_ : UInt64)
deriving DecidableEq

/-- The body of an envelope. -/
inductive EventBody
  | known (event : KnownEvent)
  | unknown (providerKind : String) (diagnostic : DiagnosticText)
deriving DecidableEq

/-- A sequenced event on its way to the clients; the protocol version is the same
in all of them. -/
structure EventEnvelope where
  eventId : EventId
  operationId : Option OperationId
  threadId : Option ThreadId
  turnId : Option TurnId
  sequence : UInt64
  occurredAt : UInt64
  body : EventBody
deriving DecidableEq

/-- Envelopes a log retains. -/
def defaultRetainedCapacity : Nat := 1024

/-- The bounded replay log. -/
structure EventLog where
  events : List EventEnvelope
  capacity : Nat
  nextSequence : UInt64
deriving DecidableEq

namespace EventLog

/-- An empty log; sequences start at one. -/
def new (capacity : Nat) : EventLog := ⟨[], capacity, 1⟩

/-- Assigns the next sequence; the oldest envelope goes at capacity. -/
def append (log : EventLog) (event : EventEnvelope) :
    Except ProtocolError (EventEnvelope × EventLog) :=
  if log.nextSequence.toNat + 1 = UInt64.size then .error (.sequenceOverflow log.nextSequence)
  else
    let event := { event with sequence := log.nextSequence }
    .ok (event,
      { log with
        events := (if log.events.length = log.capacity then log.events.drop 1 else log.events)
          ++ [event]
        nextSequence := log.nextSequence + 1 })

end EventLog

/-! ## The application state the pump works on -/

variable [SerdeJsonWriter]

/-- The application: the coordinator with its ports, the counter of the event id
generator and the replay log. -/
structure CoreApplication (H : Type) where
  supervisor : AgentRuntimeSupervisor H
  counter : UInt64
  log : EventLog

variable {H : Type}

namespace CoreApplication

/-- The store behind the checkpoint port. -/
def store (s : CoreApplication H) : Store := s.supervisor.store

/-- Replaces the store. -/
def setStore (s : CoreApplication H) (store : Store) : CoreApplication H :=
  { s with supervisor := { s.supervisor with store := store } }

end CoreApplication

/-- The next identifier of the generator: the time and a counter that starts at
zero with the process. -/
def nextEventId (now : UInt64) : Proc (CoreApplication H) CoreAppError EventId := do
  let s ← Proc.get
  Proc.modify fun s => { s with counter := s.counter + 1 }
  pure (eventIdOf now s.counter)

/-- `append_domain_event` on the store of the application. -/
def appendDomainEvent (e : DomainEvent) : Proc (CoreApplication H) CoreAppError AppendOutcome :=
  .act fun s =>
    match s.store.appendDomainEvent e with
    | .ok (outcome, store) => (.ok outcome, s.setStore store)
    | .error err => (.error (.storage err), s)

/-! ## Mapping to the journal -/

def extractThreadId : RuntimeEvent → ThreadId
  | .turnStarted threadId _ | .messageDelta threadId _ _ | .permissionRequested threadId _ _ _ _
  | .turnCompleted threadId _ _ | .turnFailed threadId _ _ _ | .turnCancelled threadId _
  | .toolCall threadId _ _ _ | .processExited threadId _ | .unknown threadId _ _ => threadId

def extractTurnId : RuntimeEvent → Option TurnId
  | .turnStarted _ turnId | .messageDelta _ turnId _ | .permissionRequested _ turnId _ _ _
  | .turnCompleted _ turnId _ | .turnFailed _ turnId _ _ | .turnCancelled _ turnId
  | .toolCall _ turnId _ _ => some turnId
  | .processExited _ _ | .unknown _ _ _ => none

/-- The scope of a journal record. -/
structure EventContext where
  eventId : EventId
  threadId : Option ThreadId
  turnId : Option TurnId
  operationId : Option OperationId
  occurredAt : UInt64

/-- Serializes the members of a payload and makes the journal record. -/
def EventContext.intoDomainEvent (ctx : EventContext) (kind : DomainEventKind)
    (fields : List (String × Scalar)) : Except CoreAppError DomainEvent :=
  match EventPayload.tryFrom (SerdeJsonWriter.toVec (.flat fields)) with
  | .ok payload => .ok
      ⟨ctx.eventId, ctx.threadId, ctx.turnId, ctx.operationId, kind, payload, ctx.occurredAt⟩
  | .error e => .error (.entity e)

/-- A text or `null`. -/
def optString : Option String → Scalar
  | some s => .string s
  | none => .null

/-- An exit code or `null`. -/
def optExitCode : Option Int32 → Scalar
  | none => .null
  | some code =>
    if code.toInt < 0 then .number (.negInt code.toInt64)
    else .number (.posInt code.toInt.toNat.toUInt64)

def mapMessageDelta (ctx : EventContext) (tid : ThreadId) (trnid : TurnId) (text : String) :
    Except CoreAppError DomainEvent :=
  ctx.intoDomainEvent .messageDelta
    [("thread_id", .string tid.asStr), ("turn_id", .string trnid.asStr), ("text", .string text)]

def mapPermissionRequested (ctx : EventContext) (tid : ThreadId) (trnid : TurnId)
    (permissionId : EventId) (kind : PermissionKind) (description : PermissionDescription) :
    Except CoreAppError DomainEvent :=
  ctx.intoDomainEvent .permissionRequested
    [("thread_id", .string tid.asStr), ("turn_id", .string trnid.asStr),
      ("permission_id", .string permissionId.asStr), ("permission_kind", .string kind.asStr),
      ("description", .string description.asStr)]

def mapToolCall (ctx : EventContext) (tid : ThreadId) (trnid : TurnId) (toolCallId : String)
    (status : Option String) : Except CoreAppError DomainEvent :=
  ctx.intoDomainEvent (.other "tool.call")
    [("thread_id", .string tid.asStr), ("turn_id", .string trnid.asStr),
      ("tool_call_id", .string toolCallId), ("status", optString status)]

def mapTurnCompleted (ctx : EventContext) (tid : ThreadId) (trnid : TurnId)
    (compPayload : Option EventPayload) : Except CoreAppError DomainEvent :=
  ctx.intoDomainEvent .turnCompleted
    [("thread_id", .string tid.asStr), ("turn_id", .string trnid.asStr),
      ("content", .string ((compPayload.map fun p => SerdeJsonWriter.text p.asBytes).getD ""))]

def mapTurnCancelled (ctx : EventContext) (tid : ThreadId) (trnid : TurnId) :
    Except CoreAppError DomainEvent :=
  ctx.intoDomainEvent .turnCancelled
    [("thread_id", .string tid.asStr), ("turn_id", .string trnid.asStr)]

def mapTurnFailed (ctx : EventContext) (tid : ThreadId) (trnid : TurnId) (reason : String)
    (delivery : DeliveryState) : Except CoreAppError DomainEvent :=
  ctx.intoDomainEvent .turnFailed
    [("thread_id", .string tid.asStr), ("turn_id", .string trnid.asStr),
      ("reason", .string reason), ("delivery", .string delivery.asStr)]

def mapProcessExited (ctx : EventContext) (tid : ThreadId) (exitCode : Option Int32) :
    Except CoreAppError DomainEvent :=
  ctx.intoDomainEvent (.other "process.exited")
    [("thread_id", .string tid.asStr), ("exit_code", optExitCode exitCode)]

/-- The kind name an unknown event is journaled under. -/
def unknownKindName (name : String) : String :=
  if name.isEmpty then "unknown.event"
  else "unknown." ++ String.ofList (name.toList.map fun c =>
    if c == ':' || c == '/' || c == ' ' then '.' else c)

def mapUnknownEvent (ctx : EventContext) (tid : ThreadId) (name : String)
    (summary : BoundedDiagnosticsSummary) : Except CoreAppError DomainEvent :=
  ctx.intoDomainEvent (.other (unknownKindName name))
    [("thread_id", .string tid.asStr), ("name", .string name), ("summary", .string summary.asStr)]

/-- The journal record of a runtime event.  The start of a turn is journaled by
whoever starts it. -/
def mapRuntimeToDomainEvent (ctx : EventContext) (event : RuntimeEvent) :
    Except CoreAppError (Option DomainEvent) :=
  match event with
  | .turnStarted _ _ => .ok none
  | .messageDelta tid trnid text => some <$> mapMessageDelta ctx tid trnid text
  | .permissionRequested tid trnid permissionId kind description =>
    some <$> mapPermissionRequested ctx tid trnid permissionId kind description
  | .toolCall tid trnid toolCallId status => some <$> mapToolCall ctx tid trnid toolCallId status
  | .turnCompleted tid trnid compPayload => some <$> mapTurnCompleted ctx tid trnid compPayload
  | .turnCancelled tid trnid => some <$> mapTurnCancelled ctx tid trnid
  | .turnFailed tid trnid reason delivery => some <$> mapTurnFailed ctx tid trnid reason delivery
  | .processExited tid exitCode => some <$> mapProcessExited ctx tid exitCode
  | .unknown tid name summary => some <$> mapUnknownEvent ctx tid name summary

/-! ## Mapping to the envelope -/

/-- A bounded text, or the failure to fit it. -/
def boundedText (maxBytes : Nat) (value : String) : Except CoreAppError (BoundedText maxBytes) :=
  (BoundedText.tryFrom maxBytes value).mapError .protocol

def mapRuntimeToEventBody : RuntimeEvent → Except CoreAppError EventBody
  | .turnStarted _ _ => .ok (.known .turnStarted)
  | .messageDelta _ _ text => do
      pure (.known (.messageDelta (← boundedText messageTextBytes text)))
  | .turnCompleted _ _ _ => .ok (.known .turnCompleted)
  | .toolCall _ _ toolCallId status => .ok (.known (.toolCall toolCallId status))
  | .permissionRequested _ _ _ kind description => do
      pure (.known (.permissionRequested kind.asStr
        (← boundedText diagnosticTextBytes description.asStr)))
  | .turnCancelled _ _ => .ok (.known (.turnCancelled none))
  | .turnFailed _ _ reason delivery => do
      pure (.known (.turnFailed (← boundedText diagnosticTextBytes reason)
        (debugDelivery delivery).toLower))
  | .processExited _ exitCode => do
      pure (.unknown "process.exited" (← boundedText diagnosticTextBytes
        ("\x7b\"exit_code\":" ++ debugExitCode exitCode ++ "\x7d")))
  | .unknown _ name summary => do
      pure (.unknown name (← boundedText diagnosticTextBytes summary.asStr))

/-! ## Publishing -/

/-- The kinds that end a turn. -/
def endsTurn : RuntimeEvent → Bool
  | .turnCompleted _ _ _ | .turnCancelled _ _ | .turnFailed _ _ _ _ => true
  | _ => false

/-- The turn is among the listed turns of the thread, and active. -/
def listedActive (store : Store) (threadId : ThreadId) (turnId : TurnId) : Bool :=
  (store.turnsForThread threadId turnListLimitMax).any fun (id, row) =>
    id == turnId.asStr && row.state == "active"

/-- The end of a turn is journaled only while the turn is listed as active. -/
def shouldAppend (store : Store) (event : RuntimeEvent) (turnId : Option TurnId) : Bool :=
  match turnId with
  | some turnId => !endsTurn event || listedActive store (extractThreadId event) turnId
  | none => true

/-- Appends the journal record of a runtime event, if it has one. -/
def journalRuntimeEvent (ctx : EventContext) (event : RuntimeEvent) :
    Proc (CoreApplication H) CoreAppError Unit := do
  if shouldAppend (← Proc.get).store event ctx.turnId then
    match ← Proc.ofExcept (mapRuntimeToDomainEvent ctx event) with
    | none => pure ()
    | some domainEvent => do
        let _ ← appendDomainEvent domainEvent
        pure ()

/-- Sequences an envelope through the log. -/
def sequenceEnvelope (envelope : EventEnvelope) :
    Proc (CoreApplication H) CoreAppError EventEnvelope := do
  match (← Proc.get).log.append envelope with
  | .error err => Proc.fail (.ipc (.protocol err))
  | .ok (sequenced, log) => do
      Proc.modify fun s => { s with log := log }
      pure sequenced

/-- The identifier a runtime event is published under. -/
def publishedId (event : RuntimeEvent) (now : UInt64) : Proc (CoreApplication H) CoreAppError EventId :=
  match event with
  | .permissionRequested _ _ permissionId _ _ => pure permissionId
  | _ => nextEventId now

/-- Journals a runtime event, if the store is attached, and sequences its
envelope. -/
def publishRuntimeEvent (event : RuntimeEvent) (operationId : Option OperationId)
    (turnId : Option TurnId) (now : UInt64) (withStore : Bool) :
    Proc (CoreApplication H) CoreAppError EventEnvelope := do
  let eventId ← publishedId event now
  let threadId := extractThreadId event
  let actualTurnId := turnId.or (extractTurnId event)
  if withStore then
    journalRuntimeEvent ⟨eventId, some threadId, actualTurnId, operationId, now⟩ event
  let body ← Proc.ofExcept (mapRuntimeToEventBody event)
  sequenceEnvelope
    { eventId := eventId, operationId := operationId, threadId := some threadId
      turnId := actualTurnId, sequence := 1, occurredAt := now, body := body }

end Altior.Application
