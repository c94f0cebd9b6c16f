import Altior.Ipc.Session

/-!
# The session of the bridge

What the desktop bridge keeps across its connections to Core: the client's state of
the event stream and the ledger of issued commands
(`apps/desktop/src-tauri/src/session.rs`, `altior-ipc/src/session.rs`).
-/

namespace Altior.Desktop

open Application Domain Ipc Lib

/-- Failures at the boundary to the frontend.  `handshakeFailed` leaves its text out. -/
inductive BridgeError
  | transportUnavailable (reason : String)
  | authenticationFailed (reason : String)
  | handshakeFailed
  | commandFailed (code message : String)
  | connectionClosed
  | serialization (reason : String)
  | internal (reason : String)
deriving DecidableEq, Repr

/-- `BridgeError::from` of a failure of the transport layer. -/
def BridgeError.ofIpc : IpcError → BridgeError
  | .sessionOrder attempted => .internal ("session order violation: " ++ attempted)
  | .authenticationRejected => .authenticationFailed "launch token rejected by Core"
  | .protocol _ => .handshakeFailed
  | .frameRefused => .internal "frame refused"

/-! ## The ledger -/

inductive RecordOutcome
  | recorded
  | alreadyIssued
deriving DecidableEq, Repr

/-- The issued commands.  The kind kept with an operation is never read. -/
structure CommandLedger where
  recorded : Table OperationId Unit
  capacity : Nat
deriving DecidableEq

namespace CommandLedger

/-- An empty ledger. -/
def new (capacity : Nat) : CommandLedger := ⟨∅, capacity⟩

/-- Records a command unless its operation was issued already. -/
def record (l : CommandLedger) (command : CommandEnvelope) :
    Except IpcError RecordOutcome × CommandLedger :=
  if command.operationId ∈ l.recorded then (.ok .alreadyIssued, l)
  else if l.recorded.size = l.capacity then
    (.error (.sessionOrder "record a command into a full ledger"), l)
  else (.ok .recorded, { l with recorded := l.recorded.insert command.operationId () })

/-- Drops all recorded operations. -/
def clear (l : CommandLedger) : CommandLedger := { l with recorded := ∅ }

/-- What recording a command does. -/
theorem record_cases (l : CommandLedger) (command : CommandEnvelope) :
    (command.operationId ∈ l.recorded ∧ l.record command = (.ok .alreadyIssued, l)) ∨
      (command.operationId ∉ l.recorded ∧ l.recorded.size = l.capacity ∧
        l.record command = (.error (.sessionOrder "record a command into a full ledger"), l)) ∨
      (command.operationId ∉ l.recorded ∧ l.recorded.size ≠ l.capacity ∧
        l.record command =
          (.ok .recorded, { l with recorded := l.recorded.insert command.operationId () })) := by
  unfold record
  split
  · exact .inl ⟨‹_›, rfl⟩
  · split
    · exact .inr (.inl ⟨‹_›, ‹_›, rfl⟩)
    · exact .inr (.inr ⟨‹_›, ‹_›, rfl⟩)

end CommandLedger

/-! ## The session -/

structure BridgeSession where
  inner : ClientSession
  ledger : CommandLedger
deriving DecidableEq

namespace BridgeSession

/-- `BridgeSession::default`. -/
def new : BridgeSession := ⟨.new, .new defaultRetainedCapacity⟩

/-- The hello of the bridge: it speaks the one version there is. -/
def createHello (launchToken : String) : DesktopHello :=
  ⟨supportedProtocolVersions.min, supportedProtocolVersions.max, launchToken⟩

/-- Takes a greeting.  The ledger goes with the launch it belonged to. -/
def acceptGreeting (s : BridgeSession) (greeting : CoreGreeting) (selectedVersion : Nat) :
    Except BridgeError (GreetingOutcome × BridgeSession) :=
  match s.inner.acceptGreeting greeting selectedVersion with
  | .error _ => .error .handshakeFailed
  | .ok (.resumed, inner) => .ok (.resumed, { s with inner := inner })
  | .ok (.restarted, inner) => .ok (.restarted, ⟨inner, s.ledger.clear⟩)

/-- Takes a delivered event; what cannot be taken yet changes nothing. -/
def acceptEvent (s : BridgeSession) (event : EventEnvelope) :
    Except IpcError (EventDelivery × BridgeSession) :=
  (s.inner.acceptEvent event).map fun (delivery, inner) => (delivery, { s with inner := inner })

def subscribeSince (s : BridgeSession) : Option UInt64 := s.inner.subscribeSince

/-- Records a command in the ledger. -/
def recordCommand (s : BridgeSession) (command : CommandEnvelope) :
    Except BridgeError RecordOutcome × BridgeSession :=
  ((s.ledger.record command).1.mapError .ofIpc, { s with ledger := (s.ledger.record command).2 })

/-- The command that subscribes from `since`. -/
def createSubscribeCommand (since : Option UInt64) (operationId : OperationId) : CommandEnvelope :=
  ⟨operationId, .subscribe (some (subscribePayload since))⟩

/-- What recording a command does to the session. -/
theorem recordCommand_cases (s : BridgeSession) (command : CommandEnvelope) :
    (command.operationId ∈ s.ledger.recorded ∧
        s.recordCommand command = (.ok .alreadyIssued, s)) ∨
      (command.operationId ∉ s.ledger.recorded ∧ s.ledger.recorded.size = s.ledger.capacity ∧
        s.recordCommand command = (.error (.internal
          "session order violation: record a command into a full ledger"), s)) ∨
      (command.operationId ∉ s.ledger.recorded ∧ s.ledger.recorded.size ≠ s.ledger.capacity ∧
        s.recordCommand command = (.ok .recorded, { s with ledger :=
          { s.ledger with recorded := s.ledger.recorded.insert command.operationId () } })) := by
  unfold recordCommand
  rcases s.ledger.record_cases command with ⟨hmem, hcase⟩ | ⟨hmem, hfull, hcase⟩ |
    ⟨hmem, hroom, hcase⟩
  · exact .inl ⟨hmem, by rw [hcase]; rfl⟩
  · exact .inr (.inl ⟨hmem, hfull, by rw [hcase]; rfl⟩)
  · exact .inr (.inr ⟨hmem, hroom, by rw [hcase]; rfl⟩)

/-- A greeting keeps the ledger or empties it. -/
theorem ledger_acceptGreeting {s s' : BridgeSession} {greeting : CoreGreeting} {version : Nat}
    {outcome : GreetingOutcome} (h : s.acceptGreeting greeting version = .ok (outcome, s')) :
    s'.ledger = s.ledger ∨ s'.ledger = s.ledger.clear := by
  unfold acceptGreeting at h
  split at h
  · cases h
  · cases h
    exact .inl rfl
  · cases h
    exact .inr rfl

end BridgeSession

end Altior.Desktop
