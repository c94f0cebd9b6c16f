import Altior.Application.Core

/-!
# The application over its store

Runs of the application: calls in any order, agents that act on their own, a
crash before any port call of any call, and restarts over the same store.
-/

namespace Altior.Application

open Domain Lib Storage Altior.Runtime

variable [SerdeJsonWriter] {H : Type}

/-- The calls of the application. -/
inductive Call
  | createThread (threadId : ThreadId) (agentProfileId : AgentProfileId) (title : Option String)
      (projectId : Option ProjectId) (now : UInt64)
  | openThread (threadId : ThreadId) (binding : Store → Except CoreAppError AcpHarnessBinding)
  | startPrompt (operationId : OperationId) (threadId : ThreadId) (turnId : TurnId)
      (content : String) (now : UInt64) (assemble : Store → Except CoreAppError AssembledContext)
  | cancelTurn (operationId : OperationId) (threadId : ThreadId) (now : UInt64)
  | decidePermission (operationId : OperationId) (threadId : ThreadId) (permissionId : EventId)
      (decision : PermissionDecision) (now : UInt64)
  | poll (threadId : ThreadId) (now : UInt64)
  | closeSession (threadId : ThreadId)

/-- One input of a run.  A call comes with the number of port calls before the
process crashes, if it does. -/
inductive Input (H : Type)
  | call (c : Call) (crash : Option Nat)
  /-- The agents act: the harness changes on its own. -/
  | agents (f : H → H)
  /-- A new process is started over the same store. -/
  | restart (f : H → H)

/-- A process that is up, or what is left of one that is not. -/
inductive Process (H : Type)
  | up (app : CoreApplication H)
  | down (harness : H) (store : Store)

namespace Process

/-- The harness, which outlives the process. -/
def harness : Process H → H
  | up app => app.supervisor.harness
  | down harness _ => harness

/-- The store, which outlives the process. -/
def store : Process H → Store
  | up app => app.store
  | down _ store => store

end Process

/-- The application of a process that just started. -/
def CoreApplication.new (harness : H) (store : Store) : CoreApplication H :=
  ⟨⟨harness, store, ∅⟩, 0, .new defaultRetainedCapacity⟩

/-- Starts a process; a store that does not open leaves it down. -/
def start (harness : H) (store : Store) : Process H :=
  match store.openInner with
  | (.ok (), store) => .up (.new harness store)
  | (.error _, store) => .down harness store

variable [HarnessRuntimePort H] [DefaultHasher] [ErrorText]

/-- What a call does; its result goes to the caller. -/
def perform : Call → Proc (CoreApplication H) CoreAppError Unit
  | .createThread threadId agentProfileId title projectId now => do
      let _ ← createThread threadId agentProfileId title projectId now
      pure ()
  | .openThread threadId binding => openThread threadId binding
  | .startPrompt operationId threadId turnId content now assemble => do
      let _ ← startPromptEnvelope operationId threadId turnId content now assemble
      pure ()
  | .cancelTurn operationId threadId now => do
      let _ ← cancelTurn operationId threadId now
      pure ()
  | .decidePermission operationId threadId permissionId decision now =>
    decidePermission operationId threadId permissionId decision now
  | .poll threadId now => do
      let _ ← pollThreadEvents threadId now
      pure ()
  | .closeSession threadId => onThread threadId (closeSession 0)

/-- The process after a call. -/
def afterCall (o : Outcome (CoreApplication H) CoreAppError Unit) : Process H :=
  match o.ending with
  | .crashed => .down o.state.supervisor.harness o.state.store
  | _ => .up o.state

/-- One step of a run. -/
def systemStep (p : Process H) : Input H → Process H
  | .call c crash =>
    match p with
    | .up app => afterCall (perform c app crash)
    | .down harness store => .down harness store
  | .agents f =>
    match p with
    | .up app => .up { app with supervisor := { app.supervisor with
        harness := f app.supervisor.harness } }
    | .down harness store => .down (f harness) store
  | .restart f => start (f p.harness) p.store

/-- The system over a store, before its first start. -/
def systemMachine (harness : H) (store : Store) : Machine (Process H) (Input H) :=
  ⟨.down harness store, systemStep⟩

/-! ## A harness of queues -/

/-- A harness that reports, for each session, the events that are queued for it.
The session of a thread has the name of the thread. -/
structure Queued where
  queue : Table HarnessSessionId (List HarnessEvent)

/-- Queues an event for a session. -/
def Queued.push (sessionId : HarnessSessionId) (event : HarnessEvent) (h : Queued) : Queued :=
  ⟨h.queue.insert sessionId (h.queue[sessionId]?.getD [] ++ [event])⟩

/-- The session of a thread. -/
def Queued.session (threadId : ThreadId) : Except HarnessError HarnessSessionInfo :=
  match HarnessSessionId.new threadId.asStr with
  | some sessionId => .ok ⟨sessionId, ∅⟩
  | none => .error (.other "no session")

instance : HarnessRuntimePort Queued where
  createSession h _ threadId := (Queued.session threadId, h)
  resumeSession h _ _ threadId := (Queued.session threadId, h)
  sendPrompt h _ _ := (.ok (), h)
  cancelTurn h _ := (.ok (), h)
  decidePermission h _ _ _ := (.ok (), h)
  pollEvent h sessionId :=
    match h.queue[sessionId]? with
    | some (event :: events) => (.ok (some event), ⟨h.queue.insert sessionId events⟩)
    | _ => (.ok none, h)
  closeSession h _ := (.ok (), h)

/-! ## Sample identifiers -/

/-- The thread of the sample runs. -/
def sampleThread : ThreadId := ⟨"thr_0000000000000001", by decide⟩

/-- The turn of the sample runs. -/
def sampleTurnId : TurnId := ⟨"trn_0000000000000001", by decide⟩

/-- The operation of the sample runs. -/
def sampleOperation : OperationId := ⟨"op_0000000000000001", by decide⟩

/-- The session of the sample thread. -/
def sampleSession : HarnessSessionId := ⟨"thr_0000000000000001", by decide⟩

/-- Starts a process, creates the sample thread and opens it. -/
def sampleOpen : List (Input Queued) :=
  [.restart id, .call (.createThread sampleThread ⟨"agp_0000000000000001", by decide⟩ none none 1) none,
    .call (.openThread sampleThread fun _ => .ok ⟨⟨"hsb_0000000000000001", by decide⟩⟩) none]

/-- Starts a turn of the sample thread. -/
def samplePrompt (operationId : OperationId) (turnId : TurnId) (now : UInt64) : Input Queued :=
  .call (.startPrompt operationId sampleThread turnId "hello" now fun _ =>
    .ok ⟨⟨turnId, sampleThread, now, [], "\x7b\x7d"⟩, "hello"⟩) none

end Altior.Application
