import Altior.Runtime.Diagnostics
import Altior.Storage.Checkpoint

/-!
# Runtime state

Sessions, harness events, supervisor states and errors of the runtime
(`altior-core/src/runtime/state.rs`), the harness port
(`altior-core/src/runtime/ports.rs`) and the registry of operations
(`altior-core/src/operations.rs`).
-/

namespace Altior.Runtime

open Domain Lib

/-! ## Operations -/

/-- How an incoming operation is treated. -/
inductive Admission
  | execute
  | duplicate
deriving DecidableEq, Repr

/-- The registry is full. -/
inductive AdmissionError
  | full
deriving DecidableEq, Repr

/-- The admitted operations and a bounded memory of finished ones, oldest
first.  The command kind kept with an admitted operation is never read. -/
structure OperationRegistry where
  admitted : Table OperationId Unit
  finished : List OperationId
  capacity : Nat
deriving DecidableEq

namespace OperationRegistry

/-- An empty registry. -/
def new (capacity : Nat) : OperationRegistry := ⟨∅, [], capacity⟩

/-- Whether an operation was admitted or has finished. -/
def knows (r : OperationRegistry) (operation : OperationId) : Bool :=
  r.admitted.contains operation || r.finished.contains operation

def admitOperation (r : OperationRegistry) (operationId : OperationId) :
    Except AdmissionError Admission × OperationRegistry :=
  if r.knows operationId then (.ok .duplicate, r)
  else if r.admitted.size = r.capacity then (.error .full, r)
  else (.ok .execute, { r with admitted := r.admitted.insert operationId () })

/-- Marks an operation finished; the oldest finished one is forgotten at
capacity. -/
def retire (r : OperationRegistry) (operation : OperationId) : OperationRegistry where
  admitted := r.admitted.erase operation
  finished :=
    (if r.finished.length = r.capacity then r.finished.drop 1 else r.finished) ++ [operation]
  capacity := r.capacity

end OperationRegistry

/-! ## Sessions -/

/-- Maximum length of a harness session identifier in bytes. -/
def maxSessionIdLen : Nat := 256

/-- `char::is_ascii_control`. -/
def isAsciiControl (c : Char) : Bool := c.toNat < 0x20 || c.toNat == 0x7f

/-- A harness session identifier: trimmed, non-empty, bounded and without
control characters. -/
structure HarnessSessionId where
  asStr : String
  valid : trim asStr.toList = asStr.toList ∧ asStr.toList ≠ []
    ∧ asStr.utf8ByteSize ≤ maxSessionIdLen ∧ asStr.toList.all (!isAsciiControl ·)

namespace HarnessSessionId

@[ext] theorem ext {a b : HarnessSessionId} (h : a.asStr = b.asStr) : a = b := by
  cases a
  cases b
  cases h
  rfl

theorem asStr_inj {a b : HarnessSessionId} : a.asStr = b.asStr ↔ a = b :=
  ⟨ext, congrArg asStr⟩

/-- `HarnessSessionId::new`; `none` when the trimmed text is refused. -/
def new (id : String) : Option HarnessSessionId :=
  let trimmed := String.ofList (trim id.toList)
  if h : trim trimmed.toList = trimmed.toList ∧ trimmed.toList ≠ []
      ∧ trimmed.utf8ByteSize ≤ maxSessionIdLen ∧ trimmed.toList.all (!isAsciiControl ·) then
    some ⟨trimmed, h⟩
  else none

instance : DecidableEq HarnessSessionId := fun _ _ => decidable_of_iff _ asStr_inj

instance : Ord HarnessSessionId := ⟨fun a b => compare a.asStr b.asStr⟩

instance : Std.OrientedOrd HarnessSessionId where
  eq_swap {a b} := @Std.OrientedCmp.eq_swap String compare _ a.asStr b.asStr

instance : Std.TransOrd HarnessSessionId where
  isLE_trans {a b c} := @Std.TransCmp.isLE_trans String compare _ a.asStr b.asStr c.asStr

instance : Std.LawfulEqOrd HarnessSessionId where
  compare_self {a} := @Std.ReflCmp.compare_self String compare _ a.asStr
  eq_of_compare {a b} h := ext (@Std.LawfulEqCmp.eq_of_compare String compare _ a.asStr b.asStr h)

end HarnessSessionId

/-- Whether an endpoint declares a capability as implemented. -/
inductive CapabilitySupport
  | supported
  | unsupported
deriving DecidableEq, Repr

/-- The declared capabilities by canonical id. -/
abbrev CapabilitySet := Table String CapabilitySupport

/-- What the harness returns for an established session. -/
structure HarnessSessionInfo where
  sessionId : HarnessSessionId
  capabilities : CapabilitySet

/-- The part of a harness binding the runtime reads. -/
structure AcpHarnessBinding where
  id : HarnessBindingId
deriving DecidableEq

/-- A prompt on its way to the harness. -/
structure HarnessPromptRequest where
  turnId : TurnId
  operationId : OperationId
  prompt : String
deriving DecidableEq

/-! ## Supervisor -/

/-- The states of a thread supervisor.  A crash keeps the reason it was recorded
with. -/
inductive SupervisorState
  | idle
  | starting
  | ready
  | prompting (turnId : TurnId) (operationId : OperationId) (delivery : DeliveryState)
  | awaitingPermission (turnId : TurnId) (operationId : OperationId)
      (pendingPermissionId : EventId)
  | cancelling (turnId : Option TurnId) (operationId : Option OperationId)
  | closed
  | crashed (reason : String) (delivery : DeliveryState)
deriving DecidableEq

/-- How a prompt was treated. -/
inductive TurnAdmission
  | admitted
  | duplicate
deriving DecidableEq, Repr

/-- What a cancellation found. -/
inductive CancelOutcome
  | cancelledActive
  | alreadyCancelling
  | noActiveTurn
deriving DecidableEq, Repr

/-- What a turn was last known to have come to. -/
structure TurnExecutionRecord where
  turnId : TurnId
  operationId : OperationId
  delivery : DeliveryState
  state : TurnState
deriving DecidableEq

/-- Recorded before a call to the harness. -/
inductive CheckpointIntent
  | prompt (threadId : ThreadId) (turnId : TurnId) (operationId : OperationId) (timestamp : UInt64)
  | permissionDecision (threadId : ThreadId) (turnId : TurnId) (permissionId : EventId)
      (decision : PermissionDecision) (timestamp : UInt64)
  | cancel (threadId : ThreadId) (turnId : Option TurnId) (operationId : Option OperationId)
      (timestamp : UInt64)
  | close (threadId : ThreadId) (timestamp : UInt64)

/-- Recorded after a call to the harness, or when its outcome arrives. -/
inductive CheckpointSettled
  | promptDelivered (threadId : ThreadId) (turnId : TurnId) (delivery : DeliveryState)
      (timestamp : UInt64)
  | permissionSettled (threadId : ThreadId) (turnId : TurnId) (permissionId : EventId)
      (decision : PermissionDecision) (timestamp : UInt64)
  | turnTerminal (threadId : ThreadId) (turnId : TurnId) (state : TurnState)
      (delivery : DeliveryState) (timestamp : UInt64)
  | sessionClosed (threadId : ThreadId) (timestamp : UInt64)

/-! ## Errors -/

/-- Failures of the harness. -/
inductive HarnessError
  | spawnFailed (msg : String)
  | processDied (exitCode : Option Int32) (diagnostics : Option BoundedDiagnosticsSummary)
  | transport (msg : String)
  | sessionNotFound (id : HarnessSessionId)
  | protocol (msg : String)
  | other (msg : String)
deriving DecidableEq

/-- Failures of the checkpoint adapter. -/
inductive CheckpointError
  | persistence (msg : String)
  | conflict (msg : String)
  | other (msg : String)
deriving DecidableEq, Repr

/-- What a session that is not ready is reported with: the state it is in, or a
text. -/
inductive NotReady
  | state (s : SupervisorState)
  | text (s : String)
deriving DecidableEq

/-- Failures of the runtime. -/
inductive RuntimeError
  | operationAdmitFailed (err : AdmissionError)
  | sessionNotReady (state : NotReady)
  | invalidSessionId (msg : String)
  | activeOperationInProgress (threadId : ThreadId) (turnId : TurnId)
  | automaticResendForbidden (threadId : ThreadId) (turnId : TurnId) (delivery : DeliveryState)
  | unsupportedCapability (capability : String)
  | permissionNotFound (threadId : ThreadId) (permissionId : EventId)
  | harness (err : HarnessError)
  | checkpoint (err : CheckpointError)
  | unknownThread (threadId : ThreadId)
  | sessionAlreadyActive (threadId : ThreadId)
deriving DecidableEq

/-- The texts the standard library and the storage crate format values to.
Nothing is relied on but that they are functions. -/
class ErrorText where
  /-- `Debug` of a string. -/
  debugStr : String → String
  /-- `Debug` of a supervisor state. -/
  debugState : SupervisorState → String
  /-- `Display` of a storage error. -/
  storage : Storage.StorageError → String

/-- Texts that leave everything out. -/
abbrev plainText : ErrorText where
  debugStr s := s
  debugState _ := ""
  storage _ := ""

/-- `Debug` of an exit code. -/
def debugExitCode : Option Int32 → String
  | none => "None"
  | some code => "Some(" ++ toString code.toInt ++ ")"

/-- `Debug` of a delivery state. -/
def debugDelivery : DeliveryState → String
  | .absent => "Absent"
  | .confirmed => "Confirmed"
  | .rejected => "Rejected"
  | .indeterminate => "Indeterminate"

section Display

variable [ErrorText]

def HarnessError.display : HarnessError → String
  | spawnFailed msg => "harness spawn failed: " ++ msg
  | processDied exitCode diagnostics =>
    "harness process died (exit code: " ++ debugExitCode exitCode ++ ", diag: "
      ++ (match diagnostics with
        | none => "None"
        | some d => "Some(BoundedDiagnosticsSummary(" ++ ErrorText.debugStr d.asStr ++ "))")
      ++ ")"
  | transport msg => "harness transport error: " ++ msg
  | sessionNotFound id => "harness session not found: " ++ id.asStr
  | protocol msg => "harness protocol error: " ++ msg
  | other msg => "harness error: " ++ msg

def CheckpointError.display : CheckpointError → String
  | persistence msg => "checkpoint persistence error: " ++ msg
  | conflict msg => "checkpoint conflict: " ++ msg
  | other msg => "checkpoint error: " ++ msg

def RuntimeError.display : RuntimeError → String
  | operationAdmitFailed .full => "operation admission failed: Full"
  | sessionNotReady (.state s) => "session is not ready: " ++ ErrorText.debugState s
  | sessionNotReady (.text s) => "session is not ready: " ++ s
  | invalidSessionId msg => "invalid session id: " ++ msg
  | activeOperationInProgress threadId turnId =>
    "active turn " ++ turnId.asStr ++ " already in progress for thread " ++ threadId.asStr
  | automaticResendForbidden threadId turnId delivery =>
    "automatic resend of turn " ++ turnId.asStr ++ " on thread " ++ threadId.asStr
      ++ " is forbidden with delivery state " ++ debugDelivery delivery
  | unsupportedCapability cap => "unsupported capability: " ++ cap
  | permissionNotFound threadId permissionId =>
    "permission " ++ permissionId.asStr ++ " not found on thread " ++ threadId.asStr
  | harness err => "harness runtime error: " ++ err.display
  | checkpoint err => "checkpoint error: " ++ err.display
  | unknownThread id => "unknown thread: " ++ id.asStr
  | sessionAlreadyActive id => "session already active for thread: " ++ id.asStr

end Display

/-! ## Events -/

variable [SerdeJson]

/-- What a harness reports. -/
inductive HarnessEvent
  | started (turnId : TurnId)
  | messageDelta (text : String)
  | permissionRequest (eventId : EventId) (kind : PermissionKind)
      (description : PermissionDescription)
  | completed (payload : Option EventPayload)
  | failed (error : String) (delivery : DeliveryState)
  | cancelled
  | processExited (exitCode : Option Int32)
  | toolCall (toolCallId : String) (status : Option String)
  | rawUnknown (name data : String)
deriving DecidableEq

/-- What a supervisor makes of a harness event. -/
inductive RuntimeEvent
  | turnStarted (threadId : ThreadId) (turnId : TurnId)
  | messageDelta (threadId : ThreadId) (turnId : TurnId) (text : String)
  | permissionRequested (threadId : ThreadId) (turnId : TurnId) (permissionId : EventId)
      (kind : PermissionKind) (description : PermissionDescription)
  | turnCompleted (threadId : ThreadId) (turnId : TurnId) (payload : Option EventPayload)
  | turnFailed (threadId : ThreadId) (turnId : TurnId) (reason : String) (delivery : DeliveryState)
  | turnCancelled (threadId : ThreadId) (turnId : TurnId)
  | processExited (threadId : ThreadId) (exitCode : Option Int32)
  | toolCall (threadId : ThreadId) (turnId : TurnId) (toolCallId : String) (status : Option String)
  | unknown (threadId : ThreadId) (name : String) (summary : BoundedDiagnosticsSummary)
deriving DecidableEq

/-! ## The harness port -/

/-- `HarnessRuntimePort`: every call returns its result and the harness after
it. -/
class HarnessRuntimePort (H : Type) where
  createSession : H → AcpHarnessBinding → ThreadId → Except HarnessError HarnessSessionInfo × H
  resumeSession : H → AcpHarnessBinding → HarnessSessionId → ThreadId →
    Except HarnessError HarnessSessionInfo × H
  sendPrompt : H → HarnessSessionId → HarnessPromptRequest → Except HarnessError Unit × H
  cancelTurn : H → HarnessSessionId → Except HarnessError Unit × H
  decidePermission : H → HarnessSessionId → EventId → PermissionDecision →
    Except HarnessError Unit × H
  pollEvent : H → HarnessSessionId → Except HarnessError (Option HarnessEvent) × H
  closeSession : H → HarnessSessionId → Except HarnessError Unit × H

end Altior.Runtime
