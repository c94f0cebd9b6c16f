import Altior.Acp.Lifecycle
import Altior.Lib.Proc
import Altior.Lib.Table

/-!
# The prompt loop

One prompt of an agent session, from the line that carries it to the answer
(`altior-acp/src/runtime.rs`, with the builders of `altior-acp/src/requests.rs`).
The transport and the caller's handlers are ports; what went through them is
kept in a log next to the runtime.
-/

namespace Altior.Acp

open Domain Lib

/-! ## Requests -/

/-- The kind of an outstanding request. -/
inductive PendingKind
  | initialize_
  | newSession
  | loadSession
  | prompt
  | steer
  | other (name : String)
deriving DecidableEq, Repr

def idKey : RpcId → String
  | .number n => "num:" ++ toString n.toNat
  | .text t => "txt:" ++ t

def buildPrompt (id : RpcId) (sessionId : String) (prompt : List ContentBlock) : RpcMessage :=
  .request id "session/prompt"
    (.object [("sessionId", str sessionId), ("prompt", .array (prompt.map ContentBlock.toJson))])

def buildCancel (sessionId : String) : RpcMessage :=
  .notification "session/cancel" (.object [("sessionId", str sessionId)])

def buildPermissionResponse (id : RpcId) (outcome : Json) : RpcMessage := .response id outcome

def buildPermissionCancelled (id : RpcId) : RpcMessage :=
  .response id (.object [("outcome", str "cancelled")])

def buildRefusal (id : RpcId) (method : String) : RpcMessage :=
  .errorResponse id ⟨-32601, "altior grants no " ++ method⟩

/-! ## The ports -/

/-- How a write ended.  A failed one may have put a part of the line into the
pipe. -/
inductive WriteOutcome
  | written
  | failed (error : AcpError) (partly : Bool)
deriving DecidableEq

namespace WriteOutcome

/-- What the caller of the write sees. -/
def toExcept : WriteOutcome → Except AcpError Unit
  | written => .ok ()
  | failed error _ => .error error

/-- Some byte of the line went into the pipe. -/
def consumed : WriteOutcome → Bool
  | written => true
  | failed _ partly => partly

end WriteOutcome

/-- `ProcessTransport`, as far as a prompt uses it. -/
class ProcessTransport (σ : Type) where
  writeLine : σ → String → WriteOutcome × σ
  /-- `none` when the time is up, `some none` at the end of the stream. -/
  readLineTimeout : σ → Except AcpError (Option (Option String)) × σ
  terminate : σ → Except AcpError Unit × σ

/-- What the caller of a prompt passes: the cancellation signal as it is when it
is loaded, and the two handlers. -/
class PromptHandlers (σ : Type) extends ProcessTransport σ where
  cancelSignal : σ → Bool × σ
  onEvent : σ → NormalizedEvent → Except AcpError Unit × σ
  onPermission : σ → RpcId → Option String → Except AcpError (Option Json) × σ

/-- What went through the ports. -/
inductive Observed
  | sent (m : RpcMessage) (outcome : WriteOutcome)
  | received (m : RpcMessage)
  /-- The stream failed or ended, or a line did not decode. -/
  | lost
  | signalled (raised : Bool)
  | handled (reply : Except AcpError Unit)
  | decided (id : RpcId) (reply : Except AcpError (Option Json))

/-- The runtime of one session.  The negotiated capabilities are not read by a
prompt. -/
structure AcpRuntime where
  /-- The last id that was allocated. -/
  nextId : UInt64
  pending : Table String (RpcId × PendingKind)
  phase : AgentPhase
  delivery : PromptDelivery
  sessionId : Option String

/-- A prompt under way. -/
structure Turn (σ : Type) where
  runtime : AcpRuntime
  peer : σ
  cancelSent : Bool
  log : List Observed

variable {σ : Type}

namespace Turn

/-- The call has not begun. -/
def start (runtime : AcpRuntime) (peer : σ) : Turn σ := ⟨runtime, peer, false, []⟩

/-- Notes what went through a port. -/
def observe (t : Turn σ) (peer : σ) (xs : List Observed) : Turn σ :=
  { t with peer := peer, log := t.log ++ xs }

def setPhase (t : Turn σ) (phase : AgentPhase) : Turn σ :=
  { t with runtime := { t.runtime with phase := phase } }

def setDelivery (t : Turn σ) (delivery : PromptDelivery) : Turn σ :=
  { t with runtime := { t.runtime with delivery := delivery } }

end Turn

/-- A report to the lifecycle. -/
def reportPhase (f : AgentPhase → Except AcpError (List HostAction × AgentPhase)) :
    Proc (Turn σ) AcpError (List HostAction) := do
  let (actions, phase) ← Proc.ofExcept (f (← Proc.get).runtime.phase)
  Proc.modify fun t => t.setPhase phase
  pure actions

/-- A report to the delivery. -/
def reportDelivery (f : PromptDelivery → Except AcpError PromptDelivery) :
    Proc (Turn σ) AcpError Unit := do
  let delivery ← Proc.ofExcept (f (← Proc.get).runtime.delivery)
  Proc.modify fun t => t.setDelivery delivery

/-- The stream is gone: both machines are told, whatever they say. -/
def connectionLost : Proc (Turn σ) AcpError Unit := do
  Proc.ignore (reportDelivery (PromptDelivery.onConnectionLost .processExited))
  Proc.modify fun t => t.setPhase t.runtime.phase.onProcessLost.2

section Loop

variable [AcpSerde]

/-- What a read shows. -/
def observedRead : Except AcpError (Option (Option String)) → List Observed
  | .ok none => []
  | .ok (some (some line)) =>
    match RpcMessage.decode line with
    | .ok m => [.received m]
    | .error _ => [.lost]
  | .ok (some none) | .error _ => [.lost]

section Transport

variable [ProcessTransport σ]

/-- Writes a message as one line. -/
def write (m : RpcMessage) : Proc (Turn σ) AcpError Unit :=
  .act fun t =>
    let (outcome, peer) := ProcessTransport.writeLine t.peer m.encode
    (outcome.toExcept, t.observe peer [.sent m outcome])

def readLine : Proc (Turn σ) AcpError (Option (Option String)) :=
  .act fun t =>
    let (r, peer) := ProcessTransport.readLineTimeout t.peer
    (r, t.observe peer (observedRead r))

def terminate : Proc (Turn σ) AcpError Unit :=
  .act fun t =>
    let (r, peer) := ProcessTransport.terminate t.peer
    (r, { t with peer := peer })

def executeHostAction (sessionId : String) : HostAction → Proc (Turn σ) AcpError Unit
  | .continue_ | .turnSettled => pure ()
  | .sendCancelNotification => write (buildCancel sessionId)
  | .answerPermissionCancelled id => write (buildPermissionCancelled id)
  | .killAndReap => terminate

/-- Executes the actions in order; the first failure ends it. -/
def executeHostActions (sessionId : String) : List HostAction → Proc (Turn σ) AcpError Unit
  | [] => pure ()
  | action :: rest => do
      executeHostAction sessionId action
      executeHostActions sessionId rest

def triggerCancel (sessionId : String) : Proc (Turn σ) AcpError Unit := do
  let actions ← reportPhase AgentPhase.onCancelRequested
  executeHostActions sessionId actions

/-- Passes a cancel on, once. -/
def passCancel (sessionId : String) : Proc (Turn σ) AcpError Unit := do
  triggerCancel sessionId
  Proc.modify fun t => { t with cancelSent := true }

/-- The text of an end of the stream. -/
def eofText : String := "stream reached EOF while awaiting prompt completion"

/-- Reads the next message; `none` when none came in time. -/
def receive : Proc (Turn σ) AcpError (Option RpcMessage) := do
  match ← readLine.attempt with
  | .error e => do
      connectionLost
      Proc.fail e
  | .ok none => pure none
  | .ok (some none) => do
      connectionLost
      Proc.fail (.unexpectedEof eofText)
  | .ok (some (some line)) =>
    match RpcMessage.decode line with
    | .error e => do
        connectionLost
        Proc.fail e
    | .ok m => pure (some m)

/-- The prompt was answered. -/
def settlePrompt (id : RpcId) (verdict : PromptDelivery → Except AcpError PromptDelivery) :
    Proc (Turn σ) AcpError Unit := do
  Proc.modify fun t =>
    { t with runtime := { t.runtime with pending := t.runtime.pending.erase (idKey id) } }
  reportDelivery verdict
  let _ ← reportPhase AgentPhase.onPromptSettled
  pure ()

/-- Answers the request a cancel has overtaken; whether there was one. -/
def answerCancelled : List HostAction → Proc (Turn σ) AcpError Bool
  | [] => pure false
  | .answerPermissionCancelled id :: rest => do
      write (buildPermissionCancelled id)
      let _ ← answerCancelled rest
      pure true
  | _ :: rest => answerCancelled rest

/-- The tool call a request names. -/
def toolCallIdOf (params : Json) : Option String :=
  (params.get "toolCall").bind fun call => call.getStr "toolCallId"

/-- What is left to do after a message. -/
inductive Dispatched
  | settled (stopReason : StopReason)
  /-- The request has to be decided by the caller. -/
  | undecided (id : RpcId) (toolCallId : Option String)
  | goOn

/-- A request for a permission. -/
def dispatchPermission (id : RpcId) (params : Json) : Proc (Turn σ) AcpError Dispatched := do
  let actions ← reportPhase (AgentPhase.onPermissionRequested id)
  let answered ← answerCancelled actions
  pure (if answered then .goOn else .undecided id (toolCallIdOf params))

/-- The branches of the loop on a message. -/
def dispatch (promptId : RpcId) : RpcMessage → Proc (Turn σ) AcpError Dispatched
  | .response id result =>
    if id = promptId then do
      settlePrompt id PromptDelivery.onPromptResponse
      let stopReason ← Proc.ofExcept (serdeError (AcpSerde.promptResult result))
      pure (.settled stopReason)
    else pure .goOn
  | .errorResponse id error =>
    if id = promptId then do
      settlePrompt id PromptDelivery.onErrorResponse
      Proc.fail (.rpcError error.code error.message)
    else pure .goOn
  | .request id method params =>
    if method = requestPermission then dispatchPermission id params
    else do
      write (buildRefusal id method)
      pure .goOn
  | .notification _ _ => pure .goOn

/-- The answer to a request the caller decided. -/
def replyPermission (id : RpcId) : Option Json → Proc (Turn σ) AcpError Unit
  | some outcome => write (buildPermissionResponse id outcome)
  | none => write (buildPermissionCancelled id)

/-- Writes the prompt; both machines are told before the line is written. -/
def beginPrompt (prompt : List ContentBlock) : Proc (Turn σ) AcpError (String × RpcId) := do
  let t ← Proc.get
  match t.runtime.sessionId with
  | none => Proc.fail (.outOfOrder "prompt without an active session")
  | some sessionId => do
      let id := RpcId.number (t.runtime.nextId + 1)
      Proc.modify fun t =>
        { t with
          runtime := { t.runtime with
            nextId := t.runtime.nextId + 1
            pending := t.runtime.pending.insert (idKey id) (id, .prompt)
            delivery := .notSent } }
      reportDelivery PromptDelivery.markWritten
      Proc.modify fun t => t.setPhase t.runtime.phase.onPromptWritten
      write (buildPrompt id sessionId prompt)
      pure (sessionId, id)

end Transport

/-! ## The loop -/

variable [PromptHandlers σ]

/-- Loads the cancellation signal. -/
def loadSignal : Proc (Turn σ) AcpError Bool :=
  .act fun t =>
    let (raised, peer) := PromptHandlers.cancelSignal t.peer
    (.ok raised, t.observe peer [.signalled raised])

/-- Looks at the signal unless a cancel was passed on. -/
def checkSignal (sessionId : String) : Proc (Turn σ) AcpError Unit := do
  if (← Proc.get).cancelSent then pure ()
  else if ← loadSignal then passCancel sessionId
  else pure ()

/-- Calls the event handler; its reply is a value. -/
def callEvent (event : NormalizedEvent) : Proc (Turn σ) AcpError (Except AcpError Unit) :=
  .act fun t =>
    let (reply, peer) := PromptHandlers.onEvent t.peer event
    (.ok reply, t.observe peer [.handled reply])

/-- Of the errors of the handler only a cancellation is looked at. -/
def minded (sessionId : String) : Except AcpError Unit → Proc (Turn σ) AcpError Unit
  | .error .cancelled => do
      if (← Proc.get).cancelSent then pure () else passCancel sessionId
  | _ => pure ()

/-- Hands the events over in order. -/
def deliverEvents (sessionId : String) : List NormalizedEvent → Proc (Turn σ) AcpError Unit
  | [] => pure ()
  | event :: rest => do
      minded sessionId (← callEvent event)
      deliverEvents sessionId rest

def callPermission (id : RpcId) (toolCallId : Option String) :
    Proc (Turn σ) AcpError (Option Json) :=
  .act fun t =>
    let (reply, peer) := PromptHandlers.onPermission t.peer id toolCallId
    (reply, t.observe peer [.decided id reply])

/-- What a dispatched message leaves to do, done. -/
def conclude : Dispatched → Proc (Turn σ) AcpError (Option StopReason)
  | .settled stopReason => pure (some stopReason)
  | .undecided id toolCallId => do
      replyPermission id (← callPermission id toolCallId)
      pure none
  | .goOn => pure none

/-- Handles one message. -/
def handleMessage (sessionId : String) (promptId : RpcId) (m : RpcMessage) :
    Proc (Turn σ) AcpError (Option StopReason) := do
  let events ← Proc.ofExcept (normalizeMessage m)
  deliverEvents sessionId events
  conclude (← dispatch promptId m)

/-- One round of the loop. -/
def promptRound (sessionId : String) (promptId : RpcId) :
    Proc (Turn σ) AcpError (Option StopReason) := do
  checkSignal sessionId
  match ← receive with
  | none => pure none
  | some m => handleMessage sessionId promptId m

/-- The loop, for at most `fuel` rounds; `none` when it is still going on. -/
def promptLoop (sessionId : String) (promptId : RpcId) :
    Nat → Proc (Turn σ) AcpError (Option StopReason)
  | 0 => pure none
  | fuel + 1 => do
      match ← promptRound sessionId promptId with
      | some stopReason => pure (some stopReason)
      | none => promptLoop sessionId promptId fuel

/-- Sends a prompt and handles what the agent says until the prompt is
answered. -/
def promptWithHandlers (prompt : List ContentBlock) (fuel : Nat) :
    Proc (Turn σ) AcpError (Option StopReason) := do
  let (sessionId, promptId) ← beginPrompt prompt
  promptLoop sessionId promptId fuel

end Loop

/-! ## Rules

One rule for each port and each report; a crash of the host is none of the
endings of a prompt. -/

/-- From a state in `P` the computation ends in `Q` or fails in `E`. -/
abbrev Ensures {α : Type} (P : Turn σ → Prop) (m : Proc (Turn σ) AcpError α)
    (Q : α → Turn σ → Prop) (E : AcpError → Turn σ → Prop) : Prop :=
  Proc.Spec P m Q E fun _ => True

section Rules

variable {P : Turn σ → Prop} {E : AcpError → Turn σ → Prop}

theorem ensures_reportPhase {f : AgentPhase → Except AcpError (List HostAction × AgentPhase)}
    {Q : List HostAction → Turn σ → Prop}
    (hok : ∀ t actions phase, f t.runtime.phase = .ok (actions, phase) → P t →
      Q actions (t.setPhase phase))
    (herror : ∀ t e, f t.runtime.phase = .error e → P t → E e t) :
    Ensures P (reportPhase f) Q E := by
  refine .bind (M := fun s t => s = t ∧ P t) (.get fun t h => ⟨rfl, h⟩) fun s => ?_
  refine .bind (M := fun r t => f t.runtime.phase = .ok r ∧ P t) (.ofExcept ?_ ?_) fun r => ?_
  · rintro r t hr ⟨rfl, ht⟩
    exact ⟨hr, ht⟩
  · rintro e t he ⟨rfl, ht⟩
    exact herror s e he ht
  · exact .bind (M := fun _ => Q r.1) (.modify fun t ht => hok t r.1 r.2 ht.1 ht.2) fun _ =>
      .pure fun _ h => h

variable {Q : Unit → Turn σ → Prop}

theorem ensures_reportDelivery {f : PromptDelivery → Except AcpError PromptDelivery}
    (hok : ∀ t d, f t.runtime.delivery = .ok d → P t → Q () (t.setDelivery d))
    (herror : ∀ t e, f t.runtime.delivery = .error e → P t → E e t) :
    Ensures P (reportDelivery f) Q E := by
  refine .bind (M := fun s t => s = t ∧ P t) (.get fun t h => ⟨rfl, h⟩) fun s => ?_
  refine .bind (M := fun d t => f t.runtime.delivery = .ok d ∧ P t) (.ofExcept ?_ ?_) fun d => ?_
  · rintro d t hd ⟨rfl, ht⟩
    exact ⟨hd, ht⟩
  · rintro e t he ⟨rfl, ht⟩
    exact herror s e he ht
  · exact .modify fun t ht => hok t d ht.1 ht.2

theorem ensures_loadSignal [PromptHandlers σ] {Q : Bool → Turn σ → Prop}
    (h : ∀ t peer raised, P t → Q raised (t.observe peer [.signalled raised])) :
    Ensures P loadSignal Q E := by
  refine .act (fun t raised ht hr => ?_) (fun t e _ hr => nomatch hr) fun _ _ => trivial
  cases hr
  exact h t _ _ ht

theorem ensures_callEvent [PromptHandlers σ] {event : NormalizedEvent}
    {Q : Except AcpError Unit → Turn σ → Prop}
    (h : ∀ t peer reply, P t → Q reply (t.observe peer [.handled reply])) :
    Ensures P (callEvent event) Q E := by
  refine .act (fun t reply ht hr => ?_) (fun t e _ hr => nomatch hr) fun _ _ => trivial
  cases hr
  exact h t _ _ ht

theorem ensures_callPermission [PromptHandlers σ] {id : RpcId} {toolCallId : Option String}
    {Q : Option Json → Turn σ → Prop}
    (hok : ∀ t peer outcome, P t → Q outcome (t.observe peer [.decided id (.ok outcome)]))
    (herror : ∀ t peer e, P t → E e (t.observe peer [.decided id (.error e)])) :
    Ensures P (callPermission id toolCallId) Q E := by
  refine .act (fun t outcome ht hr => ?_) (fun t e ht hr => ?_) fun _ _ => trivial
  · have hrun := hok t (PromptHandlers.onPermission t.peer id toolCallId).2 outcome ht
    dsimp only at hr ⊢
    rw [hr]
    exact hrun
  · have hrun := herror t (PromptHandlers.onPermission t.peer id toolCallId).2 e ht
    dsimp only at hr ⊢
    rw [hr]
    exact hrun

/-- The state a lost connection leaves. -/
def Turn.lose (t : Turn σ) : Turn σ :=
  ((t.runtime.delivery.onConnectionLost .processExited).toOption.elim t t.setDelivery).setPhase
    .dead

theorem ensures_connectionLost (h : ∀ t, P t → Q () t.lose) : Ensures P connectionLost Q E := by
  refine .bind (M := fun _ t => Q () (t.setPhase .dead)) (.ignore (ensures_reportDelivery ?_ ?_))
    fun _ => .modify fun t ht => ht
  · intro t d hd ht
    have hlose := h t ht
    unfold Turn.lose at hlose
    rw [hd] at hlose
    exact hlose
  · intro t e he ht
    have hlose := h t ht
    unfold Turn.lose at hlose
    rw [he] at hlose
    exact hlose

variable [AcpSerde] [ProcessTransport σ]

theorem ensures_write {m : RpcMessage}
    (hok : ∀ t peer, P t → Q () (t.observe peer [.sent m .written]))
    (herror : ∀ t peer e partly, P t → E e (t.observe peer [.sent m (.failed e partly)])) :
    Ensures P (write m) Q E := by
  refine .act (fun t a ht hr => ?_) (fun t e ht hr => ?_) fun _ _ => trivial
  all_goals
    revert hr
    dsimp only
    rcases ProcessTransport.writeLine t.peer m.encode with ⟨_ | ⟨e', partly⟩, peer⟩
  · exact fun _ => hok t peer ht
  · exact nofun
  · exact nofun
  · rintro ⟨⟩
    exact herror t peer e partly ht

/-- A read hands over a message, finds that it is not time yet, or loses the
connection. -/
theorem ensures_receive {Q : Option RpcMessage → Turn σ → Prop}
    (htime : ∀ t peer, P t → Q none (t.observe peer []))
    (hmessage : ∀ t peer m, P t → Q (some m) (t.observe peer [.received m]))
    (hlost : ∀ t peer e, P t → E e (t.observe peer [.lost]).lose) :
    Ensures P receive Q E := by
  refine .bind (M := fun r t => match r with
    | .ok none => Q none t
    | .ok (some (some line)) => match RpcMessage.decode line with
        | .ok m => Q (some m) t
        | .error e => E e t.lose
    | .ok (some none) => E (.unexpectedEof eofText) t.lose
    | .error e => E e t.lose) (.attempt (.act ?_ ?_ fun _ _ => trivial)) fun r => ?_
  · intro t r ht hr
    dsimp only at hr ⊢
    rw [hr]
    rcases r with _ | _ | line
    · exact htime t _ ht
    · exact hlost t _ _ ht
    · dsimp only [observedRead]
      cases RpcMessage.decode line with
      | ok m => exact hmessage t _ m ht
      | error e => exact hlost t _ e ht
  · intro t e ht hr
    dsimp only at hr ⊢
    rw [hr]
    exact hlost t _ e ht
  · have hfail {P' : Turn σ → Prop} {e : AcpError} (h : ∀ t, P' t → E e t.lose) :
        Ensures P' (do connectionLost; Proc.fail e) Q E :=
      .bind (M := fun _ => E e) (ensures_connectionLost h) fun _ => .fail fun _ h => h
    rcases r with e | _ | _ | line
    · exact hfail fun _ h => h
    · exact .pure fun _ h => h
    · exact hfail fun _ h => h
    · dsimp only
      cases RpcMessage.decode line with
      | error e => exact hfail fun _ h => h
      | ok m => exact .pure fun _ h => h

end Rules

end Altior.Acp
