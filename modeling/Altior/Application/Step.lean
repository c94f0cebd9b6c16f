import Altior.Application.Daemon
import Altior.Application.System

/-!
# One step of the daemon

The phases of `CoreDaemon::step` in their order, and the runs of the daemon: steps
with clients and agents that act in between.
-/

namespace Altior.Application

open Domain Lib Storage Altior.Runtime

variable [SerdeJsonWriter] {H : Type}

/-! ## Going through the sessions -/

/-- Visits the sessions in order.  Each visit may change what is shared and the
session; the indices of the sessions that are to be evicted are returned. -/
def visit {W : Type} (f : W → DaemonClientSession → W × DaemonClientSession × Bool) :
    Nat → W → List DaemonClientSession → W × List DaemonClientSession × List Nat
  | _, w, [] => (w, [], [])
  | i, w, s :: rest =>
    let here := f w s
    let others := visit f (i + 1) here.1 rest
    (others.1, here.2.1 :: others.2.1, if here.2.2 then i :: others.2.2 else others.2.2)

/-- `Vec::swap_remove`. -/
def swapRemove (sessions : List DaemonClientSession) (i : Nat) : List DaemonClientSession :=
  match sessions.getLast? with
  | some last => if i < sessions.length then (sessions.set i last).dropLast else sessions
  | none => sessions

/-- Removes the sessions at the given indices, the highest one first. -/
def evict (sessions : List DaemonClientSession) (disconnected : List Nat) :
    List DaemonClientSession :=
  ((List.range sessions.length).filter disconnected.contains).foldr
    (fun i sessions => swapRemove sessions i) sessions

/-- Executes the commands of a session one after the other; the first that fails
closes the connection. -/
def drain (exec : CommandEnvelope → Proc (Serving H) CoreAppError Unit)
    (put : List CommandEnvelope → DaemonClientSession → DaemonClientSession) :
    List CommandEnvelope → Serving H → Serving H × Bool
  | [], x => (x, false)
  | cmd :: rest, x =>
    match exec cmd { x with session := put rest x.session } none with
    | ⟨.done (), x, _⟩ =>
      drain exec put rest
        { x with shared := { x.shared with dispatched := x.shared.dispatched + 1 } }
    | ⟨_, x, _⟩ => ({ x with session := x.session.close }, true)

/-- Every command is executed in a state that meets `ok`, up to the first that
fails. -/
def DrainMeets (exec : CommandEnvelope → Proc (Serving H) CoreAppError Unit)
    (put : List CommandEnvelope → DaemonClientSession → DaemonClientSession)
    (ok : CommandEnvelope → Serving H → Prop) : List CommandEnvelope → Serving H → Prop
  | [], _ => True
  | cmd :: rest, x =>
    ok cmd { x with session := put rest x.session } ∧
      match exec cmd { x with session := put rest x.session } none with
      | ⟨.done (), x, _⟩ =>
        DrainMeets exec put ok rest
          { x with shared := { x.shared with dispatched := x.shared.dispatched + 1 } }
      | _ => True

/-- Every session is visited in a state that meets `ok`. -/
def VisitMeets {W : Type} (f : W → DaemonClientSession → W × DaemonClientSession × Bool)
    (ok : W → DaemonClientSession → Prop) : W → List DaemonClientSession → Prop
  | _, [] => True
  | w, s :: rest => ok w s ∧ VisitMeets f ok (f w s).1 rest

instance decidableDrainMeets {exec : CommandEnvelope → Proc (Serving H) CoreAppError Unit}
    {put : List CommandEnvelope → DaemonClientSession → DaemonClientSession}
    {ok : CommandEnvelope → Serving H → Prop} [∀ cmd x, Decidable (ok cmd x)] :
    ∀ commands x, Decidable (DrainMeets exec put ok commands x)
  | [], _ => isTrue trivial
  | cmd :: rest, x =>
    @instDecidableAnd _ _ _
      (match exec cmd { x with session := put rest x.session } none with
      | ⟨.done (), x, _⟩ =>
        decidableDrainMeets rest
          { x with shared := { x.shared with dispatched := x.shared.dispatched + 1 } }
      | ⟨.failed _, _, _⟩ => isTrue trivial
      | ⟨.crashed, _, _⟩ => isTrue trivial)

instance decidableVisitMeets {W : Type}
    {f : W → DaemonClientSession → W × DaemonClientSession × Bool}
    {ok : W → DaemonClientSession → Prop} [∀ w s, Decidable (ok w s)] :
    ∀ w sessions, Decidable (VisitMeets f ok w sessions)
  | _, [] => isTrue trivial
  | w, s :: rest => @instDecidableAnd _ _ _ (decidableVisitMeets (f w s).1 rest)

theorem drainMeets_true (exec : CommandEnvelope → Proc (Serving H) CoreAppError Unit)
    (put : List CommandEnvelope → DaemonClientSession → DaemonClientSession)
    (commands : List CommandEnvelope) (x : Serving H) :
    DrainMeets exec put (fun _ _ => True) commands x := by
  induction commands generalizing x with
  | nil => trivial
  | cons cmd rest ih =>
    refine ⟨trivial, ?_⟩
    split
    · exact ih _
    · trivial

/-! ### Rules for the visits -/

section Visits

variable {W : Type} {f : W → DaemonClientSession → W × DaemonClientSession × Bool}
  {ok : W → DaemonClientSession → Prop}

omit [SerdeJsonWriter]

variable {sessions : List DaemonClientSession}

/-- **Visit rule.** A condition `S` on what is shared, a relation `R` it changes
along, and a condition `G` on a session that survives `R`: visits that keep them
keep them for all sessions. -/
theorem visit_keeps {S : W → Prop} {R : W → W → Prop} {G : W → DaemonClientSession → Prop}
    (hrefl : ∀ w, R w w) (htrans : ∀ a b c, R a b → R b c → R a c)
    (hG : ∀ w w' s, R w w' → G w s → G w' s)
    (hstep : ∀ w s, S w → G w s → ok w s → S (f w s).1 ∧ R w (f w s).1 ∧ G (f w s).1 (f w s).2.1)
    {i : Nat} {w : W} (hS : S w) (hall : ∀ s ∈ sessions, G w s) (hok : VisitMeets f ok w sessions) :
    S (visit f i w sessions).1 ∧ R w (visit f i w sessions).1 ∧
      ∀ s ∈ (visit f i w sessions).2.1, G (visit f i w sessions).1 s := by
  induction sessions generalizing i w with
  | nil => exact ⟨hS, hrefl w, fun s hs => by cases hs⟩
  | cons s rest ih =>
    obtain ⟨hS', hR', hG'⟩ := hstep w s hS (hall s (List.mem_cons_self ..)) hok.1
    obtain ⟨hS'', hR'', hrest⟩ := ih (i := i + 1) hS'
      (fun t ht => hG w _ t hR' (hall t (List.mem_cons_of_mem s ht))) hok.2
    refine ⟨hS'', htrans _ _ _ hR' hR'', fun t ht => ?_⟩
    rcases List.mem_cons.1 ht with rfl | ht
    · exact hG _ _ _ hR'' hG'
    · exact hrest t ht

theorem visitMeets_true (w : W) (sessions : List DaemonClientSession) :
    VisitMeets f (fun _ _ => True) w sessions := by
  induction sessions generalizing w with
  | nil => trivial
  | cons s rest ih => exact ⟨trivial, ih _⟩

/-- Visits that share nothing treat each session alone. -/
theorem visit_alone (g : DaemonClientSession → DaemonClientSession × Bool) (i : Nat)
    (sessions : List DaemonClientSession) :
    (visit (fun (_ : Unit) s => ((), g s)) i () sessions).2.1 = sessions.map fun s => (g s).1 := by
  induction sessions generalizing i with
  | nil => rfl
  | cons s rest ih => exact congrArg (_ :: ·) (ih (i + 1))

theorem mem_of_mem_swapRemove {i : Nat} {s : DaemonClientSession} (h : s ∈ swapRemove sessions i) :
    s ∈ sessions := by
  unfold swapRemove at h
  split at h
  · rename_i last hlast
    split at h
    · rcases List.mem_or_eq_of_mem_set (List.dropLast_subset _ h) with hmem | rfl
      · exact hmem
      · exact List.mem_of_getLast? hlast
    · exact h
  · exact h

/-- What is left after the evictions was there before. -/
theorem mem_of_mem_evict {disconnected : List Nat} {s : DaemonClientSession}
    (h : s ∈ evict sessions disconnected) : s ∈ sessions := by
  unfold evict at h
  generalize (List.range sessions.length).filter disconnected.contains = is at h
  induction is generalizing s with
  | nil => exact h
  | cons i is ih => exact ih (mem_of_mem_swapRemove h)

end Visits

/-- The queue of control commands. -/
def putControl (commands : List CommandEnvelope) (s : DaemonClientSession) : DaemonClientSession :=
  { s with pendingControlCommands := commands }

/-- The queue of the other commands. -/
def putNormal (commands : List CommandEnvelope) (s : DaemonClientSession) : DaemonClientSession :=
  { s with pendingNormalCommands := commands }

section Commands

variable [HarnessRuntimePort H] [DefaultHasher] [ErrorText]

/-- The control commands of a session. -/
def serveControl (now : UInt64) (w : Shared H) (s : DaemonClientSession) :
    Shared H × DaemonClientSession × Bool :=
  if s.connection.closed then (w, s, false)
  else
    let served := drain (fun cmd => executeControlCommand cmd now) putControl
      s.pendingControlCommands ⟨w, s⟩
    (served.1.shared, served.1.session, served.2)

variable [ProtocolText] [CoreServices H]

/-- The other commands of a session. -/
def serveNormal (now : UInt64) (w : Shared H) (s : DaemonClientSession) :
    Shared H × DaemonClientSession × Bool :=
  if s.connection.closed then (w, s, false)
  else
    let served := drain (fun cmd => executeNormalCommand cmd now) putNormal
      s.pendingNormalCommands ⟨w, s⟩
    (served.1.shared, served.1.session, served.2)

end Commands

/-! ## Pumping and broadcasting -/

section Pump

variable [HarnessRuntimePort H]

/-- Polls a thread until it has nothing more, at most `budget` times. -/
def pumpThread (threadId : ThreadId) (now : UInt64) :
    Nat → Proc (Shared H) CoreAppError (List EventEnvelope)
  | 0 => pure []
  | budget + 1 => do
      match ← Shared.onApp (pollThreadEvents threadId now) with
      | none => pure []
      | some envelope => do
          Shared.record envelope
          let rest ← pumpThread threadId now budget
          pure (envelope :: rest)

variable [QueuedHarness H]

/-- Polls one thread after the other.  The first failure ends the pumping, and what
was collected so far is dropped. -/
def pumpThreads (now : UInt64) : List ThreadId → Proc (Shared H) CoreAppError (List EventEnvelope)
  | [] => pure []
  | threadId :: rest => do
      let w ← Proc.get
      let envelopes ← pumpThread threadId now (QueuedHarness.backlog w.app.supervisor.harness + 1)
      let others ← pumpThreads now rest
      pure (envelopes ++ others)

def pumpAllThreads (now : UInt64) : Proc (Shared H) CoreAppError (List EventEnvelope) := do
  let w ← Proc.get
  pumpThreads now (threadIds w.app)

end Pump

/-- Sends an envelope to a session that is subscribed. -/
def deliver (event : EventEnvelope) (s : DaemonClientSession) : DaemonClientSession × Bool :=
  if !s.connection.closed && s.state == .subscribed then
    match s.connection.sendFrame (.event event) with
    | (.ok (), connection) => ({ s with connection := connection }, false)
    | (.error _, connection) => (({ s with connection := connection }).close, true)
  else (s, false)

/-- Sends the envelopes in order, each of them to all sessions. -/
def broadcast : List EventEnvelope → List DaemonClientSession →
    List DaemonClientSession × List Nat
  | [], sessions => (sessions, [])
  | event :: rest, sessions =>
    let sent := visit (fun _ s => ((), deliver event s)) 0 () sessions
    let others := broadcast rest sent.2.1
    (others.1, sent.2.2 ++ others.2)

/-! ## The step -/

/-- What a step reports. -/
structure DaemonStepReport where
  acceptedConnections : Nat
  closedConnections : Nat
  controlCommandsDispatched : Nat
  normalCommandsDispatched : Nat
  eventsPublished : Nat
deriving DecidableEq, Repr

/-- The daemon.  The listener is what it will hand over: connections and failures
to accept one.  `appended` is the history variable of the envelopes the log was
given. -/
structure CoreDaemon (H : Type) where
  app : CoreApplication H
  entityIds : EntityIdAllocator
  listener : List (Option Connection)
  sessions : List DaemonClientSession
  config : CoreDaemonConfig
  appended : List EventEnvelope

/-- What came of accepting connections. -/
structure Accepted where
  listener : List (Option Connection)
  sessions : List DaemonClientSession
  accepted : Nat
  failed : Bool

/-- Accepts connections up to the capacity. -/
def acceptConnections (capacity : Nat) (now : UInt64) :
    List (Option Connection) → List DaemonClientSession → Nat → Accepted
  | [], sessions, accepted => ⟨[], sessions, accepted, false⟩
  | next :: rest, sessions, accepted =>
    if sessions.length < capacity then
      match next with
      | none => ⟨rest, sessions, accepted, true⟩
      | some connection =>
        acceptConnections capacity now rest (sessions ++ [.new connection now]) (accepted + 1)
    else ⟨next :: rest, sessions, accepted, false⟩

namespace CoreDaemon

/-- Accepting, at the start and at the end of a step. -/
def accept (d : CoreDaemon H) (now : UInt64) : Accepted :=
  acceptConnections d.config.maxClientSessions now d.listener d.sessions 0

/-- What the sessions share when the commands are executed. -/
def shared (d : CoreDaemon H) : Shared H := ⟨d.app, d.entityIds, [], 0, d.appended⟩

/-- The sessions after their frames were read. -/
def read (d : CoreDaemon H) (now : UInt64) : List DaemonClientSession × List Nat :=
  (visit (fun _ s => ((), readSession d.config d.app.log now s)) 0 () (d.accept now).sessions).2

variable [HarnessRuntimePort H] [DefaultHasher] [ErrorText]

/-- The phase of the control commands. -/
def control (d : CoreDaemon H) (now : UInt64) : Shared H × List DaemonClientSession × List Nat :=
  visit (serveControl now) 0 d.shared (d.read now).1

variable [ProtocolText] [CoreServices H]

/-- The phase of the other commands. -/
def normal (d : CoreDaemon H) (now : UInt64) : Shared H × List DaemonClientSession × List Nat :=
  visit (serveNormal now) 0 (d.control now).1 (d.control now).2.1

variable [QueuedHarness H]

/-- What the pump of the step comes to. -/
def pump (d : CoreDaemon H) (now : UInt64) : Outcome (Shared H) CoreAppError (List EventEnvelope) :=
  pumpAllThreads now (d.normal now).1 none

/-- The daemon with what is shared and the sessions written back. -/
def put (d : CoreDaemon H) (w : Shared H) (sessions : List DaemonClientSession) : CoreDaemon H :=
  { d with app := w.app, entityIds := w.entityIds, sessions := sessions, appended := w.appended }

/-- The end of a step whose pump went well: the broadcast, the evictions, and
another round of accepting. -/
def finish (d : CoreDaemon H) (now : UInt64) (w : Shared H) (envelopes : List EventEnvelope) :
    Except CoreAppError DaemonStepReport × CoreDaemon H :=
  let events := w.broadcastEvents ++ envelopes
  let sent := broadcast events (d.normal now).2.1
  let disconnected := (d.read now).2 ++ (d.control now).2.2 ++ (d.normal now).2.2 ++ sent.2
  let rest := evict sent.1 disconnected
  let accepted := ({ d.put w rest with listener := (d.accept now).listener }).accept now
  let d' := { d.put w accepted.sessions with listener := accepted.listener }
  if accepted.failed then (.error (.ipc (.sessionOrder "accept")), d')
  else
    (.ok
      { acceptedConnections := (d.accept now).accepted + accepted.accepted
        closedConnections := sent.1.length - rest.length
        controlCommandsDispatched := (d.control now).1.dispatched
        normalCommandsDispatched := w.dispatched - (d.control now).1.dispatched
        eventsPublished := events.length }, d')

/-- One step.  A failed pump ends it before the broadcast. -/
def step (d : CoreDaemon H) (now : UInt64) : Except CoreAppError DaemonStepReport × CoreDaemon H :=
  if (d.accept now).failed then
    (.error (.ipc (.sessionOrder "accept")),
      { d with listener := (d.accept now).listener, sessions := (d.accept now).sessions })
  else
    match d.pump now with
    | ⟨.done envelopes, w, _⟩ => d.finish now w envelopes
    | ⟨.failed err, w, _⟩ =>
      (.error err, { d.put w (d.normal now).2.1 with listener := (d.accept now).listener })
    | ⟨.crashed, w, _⟩ =>
      (.error (.other "crashed"),
        { d.put w (d.normal now).2.1 with listener := (d.accept now).listener })

end CoreDaemon

/-! ## Runs -/

/-- What a client does to its connection. -/
inductive ClientAction
  | send (received : Received)
  | disconnect
  /-- The next sends will fail where the list says so. -/
  | hamper (faults : List Bool)

def ClientAction.apply (action : ClientAction) (c : Connection) : Connection :=
  match action with
  | send received => { c with incoming := c.incoming ++ [received] }
  | disconnect => c.close
  | hamper faults => { c with faults := faults }

/-- One input of a run of the daemon. -/
inductive DaemonInput (H : Type)
  | connect (incoming : List Received) (faults : List Bool)
  | acceptFails
  | client (index : Nat) (action : ClientAction)
  | agents (f : H → H)
  | step (now : UInt64)

/-- The daemon as it is launched over a store. -/
def CoreDaemon.new (harness : H) (store : Store) (config : CoreDaemonConfig) (noise : UInt64) :
    CoreDaemon H :=
  ⟨.new harness store, ⟨0, noise⟩, [], [], config, []⟩

variable [HarnessRuntimePort H] [DefaultHasher] [ErrorText] [ProtocolText] [CoreServices H]
  [QueuedHarness H]

/-- What an input does. -/
def CoreDaemon.on (d : CoreDaemon H) : DaemonInput H → CoreDaemon H
  | .connect incoming faults =>
    { d with listener := d.listener ++ [some (.new incoming faults)] }
  | .acceptFails => { d with listener := d.listener ++ [none] }
  | .client index action =>
    { d with sessions := d.sessions.modify index fun s =>
        { s with connection := action.apply s.connection } }
  | .agents f =>
    { d with app := { d.app with
        supervisor := { d.app.supervisor with harness := f d.app.supervisor.harness } } }
  | .step now => (d.step now).2

/-- The daemon over its runs. -/
def daemonMachine (d : CoreDaemon H) : Machine (CoreDaemon H) (DaemonInput H) := ⟨d, CoreDaemon.on⟩

/-! ## A harness of one line -/

/-- A harness with the events of all sessions in one line.  The session of a thread
has the name of the thread. -/
structure Line where
  events : List (HarnessSessionId × HarnessEvent)

/-- Whether an event is one of the session. -/
def Line.isOf (sessionId : HarnessSessionId) (event : HarnessSessionId × HarnessEvent) : Bool :=
  event.1 == sessionId

instance : HarnessRuntimePort Line where
  createSession h _ threadId := (Queued.session threadId, h)
  resumeSession h _ _ threadId := (Queued.session threadId, h)
  sendPrompt h _ _ := (.ok (), h)
  cancelTurn h _ := (.ok (), h)
  decidePermission h _ _ _ := (.ok (), h)
  pollEvent h sessionId :=
    (.ok ((h.events.find? (Line.isOf sessionId)).map Prod.snd),
      ⟨h.events.eraseP (Line.isOf sessionId)⟩)
  closeSession h _ := (.ok (), h)

instance : QueuedHarness Line where
  backlog h := h.events.length
  backlog_pollEvent h sessionId event hpoll := by
    cases hfind : h.events.find? (Line.isOf sessionId) with
    | none =>
      change Except.ok (Option.map _ (h.events.find? _)) = _ at hpoll
      rw [hfind] at hpoll
      cases hpoll
    | some found =>
      have hmem := List.mem_of_find?_eq_some hfind
      have hlength := List.length_eraseP_of_mem hmem (List.find?_some hfind)
      have hpos := List.length_pos_of_mem hmem
      change (h.events.eraseP _).length < h.events.length
      omega

/-- The binding of all threads of the sample runs. -/
def plainBinding : HarnessBindingId := ⟨"hsb_0000000000000002", by decide⟩

/-- Services that know every thread's binding and show nothing. -/
abbrev plainServices : CoreServices Line where
  threadRowToDto _ := .ok (.flat [])
  threadSnapshotDto _ _ := .ok (.flat [])
  lookupBinding _ _ := .ok ⟨plainBinding⟩
  assembleContext _ threadId turnId prompt now _ :=
    .ok ⟨⟨turnId, threadId, now, [], "\x7b\x7d"⟩, prompt⟩
  snapshotQuery _ _ _ q := (.ok (.flat []), q)
  resultQuery _ _ _ q := (.ok none, q)

/-- The configuration of the sample runs. -/
def sampleConfig : CoreDaemonConfig := ⟨"token", 1, 1, 1000, none, 8⟩

/-- The hello of the sample clients. -/
def sampleHello : Received := .frame ⟨some ⟨1, 1, "token"⟩, none⟩

/-- A command of a sample client. -/
def sampleCommand (command : Command) : Received :=
  .frame ⟨none, some ⟨sampleOperation, command⟩⟩

/-- The agent of all threads of the sample runs. -/
def sampleAgent : AgentProfileId := ⟨"agp_0000000000000002", by decide⟩

/-- The thread the first `create_thread` of a sample run makes at time one. -/
def sampleCreated : ThreadId := EntityIdAllocator.newThreadId ⟨0, 0⟩ 1

/-- A client that makes a thread, opens it and subscribes. -/
def sampleSubscriber : DaemonInput Line :=
  .connect [sampleHello,
    sampleCommand (.createThread (.ok ⟨sampleAgent, none, none⟩)),
    sampleCommand (.openThread (.ok ⟨sampleCreated⟩)),
    sampleCommand (.subscribe (some (.flat [("since", .null)])))] []

/-- The command that starts a turn of the sample thread. -/
def sampleStart : Command := .startTurn (.ok ⟨sampleCreated, some sampleTurnId, ⟨"hi", by decide⟩⟩)

/-- A client that starts a turn; the third frame it is sent is its result. -/
def sampleStarter (faults : List Bool) : DaemonInput Line :=
  .connect [sampleHello, sampleCommand sampleStart] faults

end Altior.Application
