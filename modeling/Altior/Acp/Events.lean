import Altior.Acp.Wire
import Altior.Domain.Record
import Altior.Runtime.Adapter

/-!
# What a session worker reports

The mapping from the agent's events to harness events and from the outcome of a
prompt to the events that end it
(`altior-core/src/runtime/adapters/acp.rs`, `run_session_worker`).
-/

namespace Altior.Acp

open Domain Altior.Runtime

/-! ## Permission identifiers -/

section Ids

variable [DefaultHasher]

/-- The identifier a correlation text is hashed to. -/
def eventIdFromCorrelation (nameSpace correlation : String) : EventId :=
  let writes := [.str nameSpace, .str correlation]
  eventIdOf (DefaultHasher.finish writes) (DefaultHasher.finish (writes ++ [.u64 hashTail]))

/-- The identifier of a permission request, from the request's id alone. -/
def permissionEventIdForRpc (rpcId : RpcId) : EventId :=
  eventIdFromCorrelation "acp.permission" (match rpcId with
    | .number n => "n:" ++ toString n.toNat
    | .text s => "t:" ++ s)

end Ids

/-- What a request without a usable text is described as. -/
def fallbackPermissionDesc : PermissionDescription := ⟨"permission required", by decide⟩

/-- The description of a permission request. -/
def describePermission (toolCallId : Option String) : PermissionDescription :=
  match PermissionDescription.tryFrom (toolCallId.getD "permission requested") with
  | .ok description => description
  | .error _ => fallbackPermissionDesc

/-- The result the agent is told for a decision. -/
def permissionOutcome : PermissionDecision → Option Json
  | .approved => some (.object [("optionId", str "allow")])
  | .denied | .pending => none

/-! ## Events -/

variable [SerdeJson]

/-- The events after which the worker waits until they were taken. -/
def requiresAck : HarnessEvent → Bool
  | .started _ | .messageDelta _ | .toolCall _ _ | .rawUnknown _ _ => true
  | _ => false

/-- The harness event an agent event is reported as; some are not reported. -/
def harnessEvent [AcpSerde] (turnId : TurnId) : AgentEvent → Option HarnessEvent
  | .turnStarted => some (.started turnId)
  | .delta text => some (.messageDelta text)
  | .turnCompleted _ | .turnFailed _ | .permissionRequested _ _ | .sessionCreated _
  | .sessionResumed _ => none
  | .toolObserved toolCallId status => some (.toolCall toolCallId status)
  | .preserved providerKind raw => some (.rawUnknown providerKind (AcpSerde.toStr raw))

/-- An event of the agent that is reported is waited for. -/
theorem requiresAck_harnessEvent [AcpSerde] {turnId : TurnId} {event : AgentEvent}
    {reported : HarnessEvent} (h : harnessEvent turnId event = some reported) :
    requiresAck reported = true := by
  cases event <;> cases h <;> rfl

/-- The events that end a turn.  A failed prompt is always reported as
indeterminate. -/
def terminalEvents : Except AcpError StopReason → List HarnessEvent
  | .ok .cancelled | .error .cancelled => [.cancelled]
  | .ok _ => [.completed none]
  | .error e => [.failed e.display .indeterminate, .processExited none]

/-- An end of the turn is not waited for. -/
theorem requiresAck_terminalEvents {r : Except AcpError StopReason} {event : HarnessEvent}
    (h : event ∈ terminalEvents r) : requiresAck event = false := by
  unfold terminalEvents at h
  split at h <;> simp only [List.mem_cons, List.not_mem_nil, or_false] at h
  · rw [h]
    rfl
  · rw [h]
    rfl
  · rw [h]
    rfl
  · rcases h with rfl | rfl <;> rfl

/-- What a failure is reported as. -/
theorem delivery_of_failed {r : Except AcpError StopReason} {error : String}
    {delivery : DeliveryState} (h : .failed error delivery ∈ terminalEvents r) :
    delivery = .indeterminate := by
  unfold terminalEvents at h
  split at h <;> simp_all

theorem failed_mem_terminalEvents {e : AcpError} (h : e ≠ .cancelled) :
    .failed e.display .indeterminate ∈ terminalEvents (.error e) := by
  unfold terminalEvents
  split <;> simp_all

end Altior.Acp
