import Altior.Acp.Wire
import Altior.Domain.Turn

/-!
# The two machines of a prompt

The phases of an agent process (`altior-acp/src/lifecycle.rs`) and the delivery
of one prompt attempt (`altior-acp/src/delivery.rs`).  Both are driven by reports
of what happened and refuse a report that is out of order.
-/

namespace Altior.Acp

open Domain

/-! ## The agent process -/

/-- One phase of the agent process. -/
inductive AgentPhase
  | ready
  | prompting (pendingPermissions : List RpcId)
  | cancelling (pendingPermissions : List RpcId)
  | killing
  | dead
deriving DecidableEq, Repr

/-- One instruction for the host. -/
inductive HostAction
  | continue_
  | sendCancelNotification
  | answerPermissionCancelled (id : RpcId)
  | turnSettled
  | killAndReap
deriving DecidableEq, Repr

namespace AgentPhase

/-- A turn is running. -/
def Running : AgentPhase → Prop
  | prompting _ | cancelling _ => True
  | _ => False

instance : DecidablePred Running
  | prompting _ | cancelling _ => isTrue trivial
  | ready | killing | dead => isFalse id

def onPromptWritten : AgentPhase → AgentPhase
  | ready => prompting []
  | phase => phase

/-- A request that comes while a turn is running is noted; one that races a cancel
is answered at once. -/
def onPermissionRequested (id : RpcId) : AgentPhase → Except AcpError (List HostAction × AgentPhase)
  | prompting pending => .ok ([.continue_], prompting (pending ++ [id]))
  | cancelling pending => .ok ([.answerPermissionCancelled id], cancelling pending)
  | _ => .error (.outOfOrder "receive a permission request with no turn running")

/-- A cancel answers every request that was noted. -/
def onCancelRequested : AgentPhase → Except AcpError (List HostAction × AgentPhase)
  | prompting pending =>
    .ok (.sendCancelNotification :: pending.map .answerPermissionCancelled, cancelling [])
  | _ => .error (.outOfOrder "cancel a turn with no turn running")

def onPromptSettled : AgentPhase → Except AcpError (List HostAction × AgentPhase)
  | prompting _ | cancelling _ => .ok ([.turnSettled], ready)
  | _ => .error (.outOfOrder "settle a prompt with no turn outstanding")

def onProcessLost : AgentPhase → List HostAction × AgentPhase
  | _ => ([.killAndReap], dead)

/-- A running turn is settled, another one is not. -/
theorem onPromptSettled_cases (phase : AgentPhase) :
    phase.Running ∧ phase.onPromptSettled = .ok ([.turnSettled], ready) ∨
      ¬ phase.Running ∧ phase.onPromptSettled =
        .error (.outOfOrder "settle a prompt with no turn outstanding") := by
  cases phase with
  | prompting _ | cancelling _ => exact .inl ⟨trivial, rfl⟩
  | ready | killing | dead => exact .inr ⟨not_false, rfl⟩

end AgentPhase

/-! ## Delivery -/

/-- Why an outstanding delivery became indeterminate. -/
inductive DeliveryCause
  | processExited
  | idleTimeout
deriving DecidableEq, Repr

/-- The delivery state of one prompt attempt. -/
structure PromptDelivery where
  state : DeliveryState
  outstanding : Bool
  cause : Option DeliveryCause
deriving DecidableEq

namespace PromptDelivery

def notSent : PromptDelivery := ⟨.absent, false, none⟩

/-- Only a delivery that is known not to have happened may be repeated. -/
def mayResend (d : PromptDelivery) : Bool :=
  d.state = .absent || d.state = .rejected

def markWritten (d : PromptDelivery) : Except AcpError PromptDelivery :=
  if d.outstanding then .error (.outOfOrder "mark a prompt written twice for one attempt")
  else .ok { d with outstanding := true, state := .indeterminate }

def settle (verdict : DeliveryState) (d : PromptDelivery) : Except AcpError PromptDelivery :=
  if d.outstanding then .ok { d with outstanding := false, state := verdict }
  else .error (.outOfOrder "settle a prompt delivery with nothing outstanding")

def onPromptResponse : PromptDelivery → Except AcpError PromptDelivery := settle .confirmed

def onErrorResponse : PromptDelivery → Except AcpError PromptDelivery := settle .rejected

def onConnectionLost (cause : DeliveryCause) (d : PromptDelivery) :
    Except AcpError PromptDelivery :=
  if d.outstanding then { d with cause := some cause }.settle .indeterminate
  else .error (.outOfOrder "settle a prompt delivery with nothing outstanding")

/-- Bytes may have been sent and nothing was heard. -/
def unanswered : PromptDelivery := ⟨.indeterminate, true, none⟩

@[simp] theorem markWritten_notSent : notSent.markWritten = .ok unanswered := rfl

@[simp] theorem onPromptResponse_unanswered :
    unanswered.onPromptResponse = .ok ⟨.confirmed, false, none⟩ := rfl

@[simp] theorem onErrorResponse_unanswered :
    unanswered.onErrorResponse = .ok ⟨.rejected, false, none⟩ := rfl

@[simp] theorem onConnectionLost_unanswered (cause : DeliveryCause) :
    unanswered.onConnectionLost cause = .ok ⟨.indeterminate, false, some cause⟩ := rfl

end PromptDelivery

end Altior.Acp
