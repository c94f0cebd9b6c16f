import Altior.Acp.Script
import Altior.Acp.Session
import Altior.Runtime.Binding
import Altior.Runtime.Reach

/-!
# The harness adapter

The sessions of the adapter (`altior-core/src/runtime/adapters/acp.rs`) under the
coordinator (`altior-core/src/runtime/coordinator.rs`).  A session has the name its
agent gives it; an agent is started for each thread that opens one.
-/

namespace Altior.Acp

open Domain Lib Altior.Runtime Storage

/-- What an agent that was started and introduced itself answers: the name of the
session and what it can do, with the connection to it. -/
structure Handshake (σ : Type) where
  rawSessionId : String
  capabilities : CapabilitySet
  mayResume : Bool
  runtime : AcpRuntime
  peer : σ

/-- The agent programs: what comes of starting one, the how manieth it is, for a
binding and the session it is to load, if any. -/
class AgentPrograms (σ : Type) where
  launch : Nat → AcpHarnessBinding → Option HarnessSessionId → Except HarnessError (Handshake σ)

/-- Why `HarnessSessionId::new` refuses a text. -/
def invalidSessionId (id : String) : String :=
  let trimmed := String.ofList (trim id.toList)
  "invalid session id: " ++
    if trimmed.isEmpty then "session id is empty"
    else if maxSessionIdLen < trimmed.utf8ByteSize then
      "session id exceeds " ++ toString maxSessionIdLen ++ " bytes"
    else "session id contains control characters"

section Adapter

variable [SerdeJsonWriter]

/-- A session with the thread its agent was started for. -/
structure SessionWorkerHandle (σ : Type) where
  threadId : ThreadId
  session : Session σ

/-- The adapter: its sessions by name, and how many agents it has started. -/
structure AcpHarnessAdapter (σ : Type) where
  sessions : Table HarnessSessionId (SessionWorkerHandle σ)
  launched : Nat

variable {σ : Type}

/-- Puts a command into the channel of the worker, which has to be there. -/
def Session.sendPrompt (s : Session σ) (request : HarnessPromptRequest) :
    Except HarnessError Unit × Session σ :=
  match s.worker with
  | .stopped => (.error (.transport "sending on a closed channel"), s.ackIfAwaiting)
  | _ => (.ok (), s.ackIfAwaiting.push (.prompt request))

namespace AcpHarnessAdapter

/-- Registers the session under the name its agent gave. -/
def register (a : AcpHarnessAdapter σ) (threadId : ThreadId) (hs : Handshake σ) :
    Except HarnessError HarnessSessionInfo × AcpHarnessAdapter σ :=
  match HarnessSessionId.new hs.rawSessionId with
  | none => (.error (.protocol (invalidSessionId hs.rawSessionId)), a)
  | some sessionId =>
    (.ok ⟨sessionId, hs.capabilities⟩, { a with
      sessions := a.sessions.insert sessionId ⟨threadId, .opened hs.runtime hs.peer⟩ })

/-- A call on a session. -/
def onSession {α : Type} (a : AcpHarnessAdapter σ) (sessionId : HarnessSessionId)
    (f : Session σ → Except HarnessError α × Session σ) :
    Except HarnessError α × AcpHarnessAdapter σ :=
  match a.sessions[sessionId]? with
  | none => (.error (.sessionNotFound sessionId), a)
  | some w => ((f w.session).1, { a with
      sessions := a.sessions.insert sessionId { w with session := (f w.session).2 } })

variable [AgentPrograms σ]

def createSession (a : AcpHarnessAdapter σ) (binding : AcpHarnessBinding) (threadId : ThreadId) :
    Except HarnessError HarnessSessionInfo × AcpHarnessAdapter σ :=
  let started := { a with launched := a.launched + 1 }
  match AgentPrograms.launch a.launched binding none with
  | .error e => (.error e, started)
  | .ok hs => started.register threadId hs

def resumeSession (a : AcpHarnessAdapter σ) (binding : AcpHarnessBinding)
    (sessionId : HarnessSessionId) (threadId : ThreadId) :
    Except HarnessError HarnessSessionInfo × AcpHarnessAdapter σ :=
  let started := { a with launched := a.launched + 1 }
  match AgentPrograms.launch a.launched binding (some sessionId) with
  | .error e => (.error e, started)
  | .ok hs =>
    if hs.mayResume then started.register threadId hs
    else (.error (.protocol "agent does not support session resume"), started)

instance : HarnessRuntimePort (AcpHarnessAdapter σ) where
  createSession := createSession
  resumeSession := resumeSession
  sendPrompt a sessionId request := a.onSession sessionId fun s => s.sendPrompt request
  cancelTurn a sessionId := a.onSession sessionId fun s => (.ok (), s.cancelTurn)
  decidePermission a sessionId eventId decision :=
    a.onSession sessionId fun s => s.decidePermission eventId decision
  pollEvent a sessionId := a.onSession sessionId fun s => (.ok s.pollEvent.1, s.pollEvent.2)
  closeSession a sessionId := (.ok (), { a with sessions := a.sessions.erase sessionId })

/-! ## What a call touches -/

variable {a a' : AcpHarnessAdapter σ} {sessionId : HarnessSessionId}

/-- The other sessions are as they were, and this one is still of the same thread. -/
structure Within (sessionId : HarnessSessionId) (a a' : AcpHarnessAdapter σ) : Prop where
  others : ∀ other, other ≠ sessionId → a'.sessions[other]? = a.sessions[other]?
  owner : a'.sessions[sessionId]?.map SessionWorkerHandle.threadId =
    a.sessions[sessionId]?.map SessionWorkerHandle.threadId

omit [AgentPrograms σ] in
theorem within_onSession {α : Type} (a : AcpHarnessAdapter σ) (sessionId : HarnessSessionId)
    (f : Session σ → Except HarnessError α × Session σ) :
    Within sessionId a (a.onSession sessionId f).2 := by
  unfold onSession
  split
  · exact ⟨fun _ _ => rfl, rfl⟩
  · rename_i w hw
    constructor
    · exact fun other hother => Table.getElem?_insert_of_ne _ _ hother.symm
    · change (a.sessions.insert sessionId _)[sessionId]?.map _ = _
      rw [Table.getElem?_insert_same, hw]
      rfl

theorem within_portCall (h : PortCall a sessionId a') : Within sessionId a a' := by
  cases h with
  | sendPrompt request => exact within_onSession a sessionId _
  | cancelTurn => exact within_onSession a sessionId _
  | decidePermission eventId decision => exact within_onSession a sessionId _
  | pollEvent => exact within_onSession a sessionId _

/-- The name a session is registered under, if the operation opens one. -/
def openedId (a : AcpHarnessAdapter σ) : SupervisedOp → Option HarnessSessionId
  | .createSession binding _ =>
    match (AgentPrograms.launch a.launched binding none : Except _ (Handshake σ)) with
    | .error _ => none
    | .ok hs => HarnessSessionId.new hs.rawSessionId
  | .resumeSession binding sessionId _ =>
    match (AgentPrograms.launch a.launched binding (some sessionId) :
      Except _ (Handshake σ)) with
    | .error _ => none
    | .ok hs => if hs.mayResume then HarnessSessionId.new hs.rawSessionId else none
  | _ => none

/-- Opening registers the session under its name, or nothing. -/
structure Registers (a : AcpHarnessAdapter σ) (threadId : ThreadId)
    (name : Option HarnessSessionId)
    (opened : Except HarnessError HarnessSessionInfo × AcpHarnessAdapter σ) : Prop where
  others : ∀ other, name ≠ some other → opened.2.sessions[other]? = a.sessions[other]?
  owner : ∀ sessionId, name = some sessionId →
    ∃ w, opened.2.sessions[sessionId]? = some w ∧ w.threadId = threadId
  answer : ∀ info, opened.1 = .ok info → name = some info.sessionId

omit [AgentPrograms σ] in
theorem registers_register (a : AcpHarnessAdapter σ) (launched : Nat) (threadId : ThreadId)
    (hs : Handshake σ) : Registers a threadId (HarnessSessionId.new hs.rawSessionId)
      (register { a with launched := launched } threadId hs) := by
  unfold register
  split
  · rename_i hnone
    rw [hnone]
    exact ⟨fun _ _ => rfl, nofun, nofun⟩
  · rename_i sessionId hsome
    rw [hsome]
    constructor
    · intro other hother
      exact Table.getElem?_insert_of_ne _ _ fun heq => hother (congrArg some heq)
    · rintro _ ⟨⟩
      exact ⟨_, Table.getElem?_insert_same _ _ _, rfl⟩
    · rintro info ⟨⟩
      rfl

omit [AgentPrograms σ] in
theorem registers_none {a : AcpHarnessAdapter σ} {launched : Nat} {threadId : ThreadId}
    {e : HarnessError} : Registers a threadId none (.error e, { a with launched := launched }) :=
  ⟨fun _ _ => rfl, nofun, nofun⟩

theorem registers_createSession (a : AcpHarnessAdapter σ) (binding : AcpHarnessBinding)
    (threadId : ThreadId) (now : UInt64) :
    Registers a threadId (a.openedId (.createSession binding now))
      (a.createSession binding threadId) := by
  simp only [createSession, openedId]
  split
  · exact registers_none
  · exact registers_register a _ threadId _

theorem registers_resumeSession (a : AcpHarnessAdapter σ) (binding : AcpHarnessBinding)
    (sessionId : HarnessSessionId) (threadId : ThreadId) (now : UInt64) :
    Registers a threadId (a.openedId (.resumeSession binding sessionId now))
      (a.resumeSession binding sessionId threadId) := by
  simp only [resumeSession, openedId]
  split
  · exact registers_none
  · split
    · exact registers_register a _ threadId _
    · exact registers_none

/-- The workers of the other threads are as they were. -/
def Spares (threadId : ThreadId) (a a' : AcpHarnessAdapter σ) : Prop :=
  ∀ (sessionId : HarnessSessionId) w, a.sessions[sessionId]? = some w →
    w.threadId ≠ threadId → a'.sessions[sessionId]? = some w

/-- The bound session has a worker of this thread. -/
def Own (a : AcpHarnessAdapter σ) (threadId : ThreadId) (bound : Option HarnessSessionId) : Prop :=
  ∀ sessionId, bound = some sessionId →
    ∃ w, a.sessions[sessionId]? = some w ∧ w.threadId = threadId

variable {threadId : ThreadId} {bound bound' : Option HarnessSessionId}

omit [AgentPrograms σ] in
/-- A session whose worker is of this thread is none of the other threads'. -/
theorem Own.ne (hown : a.Own threadId (some sessionId)) {other : HarnessSessionId}
    {w : SessionWorkerHandle σ} (hw : a.sessions[other]? = some w) (hne : w.threadId ≠ threadId) :
    other ≠ sessionId := by
  rintro rfl
  obtain ⟨w', hw', hthread⟩ := hown other rfl
  cases hw.symm.trans hw'
  exact hne hthread

omit [AgentPrograms σ] in
theorem Within.own (hown : a.Own threadId (some sessionId)) (h : Within sessionId a a') :
    a'.Own threadId (some sessionId) := by
  rintro _ ⟨⟩
  obtain ⟨w, hw, hthread⟩ := hown sessionId rfl
  have howner := h.owner
  rw [hw] at howner
  obtain ⟨w', hw', hthread'⟩ := Option.map_eq_some_iff.1 howner
  exact ⟨w', hw', hthread'.trans hthread⟩

theorem spares_calls (hown : a.Own threadId bound) (h : Calls bound a bound' a') :
    Spares threadId a a' ∧ a'.Own threadId bound' := by
  obtain ⟨rfl, rfl | ⟨sessionId, rfl, hcall⟩⟩ := h
  · exact ⟨fun _ _ hw _ => hw, hown⟩
  · have hwithin := within_portCall hcall
    refine ⟨fun other w hw hne => ?_, hwithin.own hown⟩
    rw [hwithin.others other (hown.ne hw hne), hw]

theorem spares_closes (hown : a.Own threadId bound) (h : Closes bound a bound' a') :
    Spares threadId a a' ∧ a'.Own threadId bound' := by
  obtain ⟨rfl, rfl⟩ := h
  refine ⟨fun other w hw hne => ?_, nofun⟩
  cases bound with
  | none => exact hw
  | some sessionId =>
    change (a.sessions.erase sessionId)[other]? = _
    rw [Table.getElem?_erase_eq, if_neg (hown.ne hw hne).symm, hw]

/-- The name is free, or taken by a worker of the thread itself. -/
def Free (a : AcpHarnessAdapter σ) (threadId : ThreadId) (name : Option HarnessSessionId) : Prop :=
  ∀ sessionId, name = some sessionId → ∀ w, a.sessions[sessionId]? = some w →
    w.threadId = threadId

omit [AgentPrograms σ] in
/-- A session that is opened under a name leaves the workers of the other threads
alone iff the name is free. -/
theorem spares_opens_iff {name : Option HarnessSessionId}
    {opened : Except HarnessError HarnessSessionInfo × AcpHarnessAdapter σ}
    (hown : a.Own threadId bound) (hregisters : Registers a threadId name opened)
    (h : Opens bound a opened bound' a') :
    (Spares threadId a a' ↔ (bound = none → a.Free threadId name)) ∧ a'.Own threadId bound' := by
  rcases h with ⟨hbound, rfl, rfl⟩ | ⟨rfl, rfl, hbound'⟩
  · refine ⟨iff_of_true (fun _ _ hw _ => hw) fun hnone => ?_, hown⟩
    rw [hnone] at hbound
    cases hbound
  · refine ⟨⟨?_, ?_⟩, ?_⟩
    · rintro hspares - sessionId rfl w hw
      by_contra hne
      obtain ⟨w', hw', hthread⟩ := hregisters.owner sessionId rfl
      cases (hspares sessionId w hw hne).symm.trans hw'
      exact hne hthread
    · intro hfree other w hw hne
      rw [hregisters.others other, hw]
      exact fun hname => hne (hfree rfl other hname w hw)
    · intro sessionId hsession
      rcases hbound' with rfl | ⟨info, hinfo, rfl⟩
      · cases hsession
      · cases hsession
        exact hregisters.owner _ (hregisters.answer info hinfo)

end AcpHarnessAdapter

/-! ## All threads -/

section Threads

variable [AgentPrograms σ] [ErrorText] [AcpSerde] [DefaultHasher] [ProcessTransport σ]

/-- What happens to the coordinator over the adapter: an operation on a thread, a step
of the worker of a session, what the agent of a session does on its own, and an
event that is journaled. -/
inductive HostInput (σ : Type)
  | supervise (threadId : ThreadId) (op : SupervisedOp)
  | worker (sessionId : HarnessSessionId)
  | agent (sessionId : HarnessSessionId) (f : σ → σ)
  | recordEvent (e : DomainEvent)

/-- Changes a session in place. -/
def AcpHarnessAdapter.modifySession (a : AcpHarnessAdapter σ) (sessionId : HarnessSessionId)
    (f : Session σ → Session σ) : AcpHarnessAdapter σ :=
  { a with sessions := a.sessions.update sessionId fun w => { w with session := f w.session } }

/-- One step. -/
def hostStep (s : AgentRuntimeSupervisor (AcpHarnessAdapter σ)) :
    HostInput σ → AgentRuntimeSupervisor (AcpHarnessAdapter σ)
  | .supervise threadId op =>
    match s.entry threadId op with
    | none => s
    | some v => AgentRuntimeSupervisor.put threadId s ((AgentRuntimeSupervisor.view v s).apply op)
  | .worker sessionId =>
    { s with harness := s.harness.modifySession sessionId Session.workerStep }
  | .agent sessionId f =>
    { s with harness := s.harness.modifySession sessionId fun session =>
        { session with turn := { session.turn with peer := f session.turn.peer } } }
  | .recordEvent e =>
    match s.store.appendDomainEvent e with
    | .ok (_, store) => { s with store := store }
    | .error _ => s

/-- The coordinator over an adapter that has started no agent yet. -/
def hostMachine (store : Store) :
    Machine (AgentRuntimeSupervisor (AcpHarnessAdapter σ)) (HostInput σ) :=
  ⟨⟨⟨∅, 0⟩, store, ∅⟩, hostStep⟩

/-- No session is crossed by the step: what the supervisor of the thread asks for is
asked of an agent that was started for the thread, and the workers of the agents
that were started for other threads are as they were. -/
def Uncrossed (s : AgentRuntimeSupervisor (AcpHarnessAdapter σ)) : HostInput σ → Prop
  | .supervise threadId op =>
    (∀ v, s.threads[threadId]? = some v → s.harness.Own threadId v.sessionId) ∧
    ∀ (sessionId : HarnessSessionId) w, s.harness.sessions[sessionId]? = some w →
      w.threadId ≠ threadId →
      (hostStep s (.supervise threadId op)).harness.sessions[sessionId]? = some w
  | _ => True

/-- The step opens no session under a name that a session of another thread has. -/
def FreshName (s : AgentRuntimeSupervisor (AcpHarnessAdapter σ)) : HostInput σ → Prop
  | .supervise threadId op => ∀ v, s.entry threadId op = some v → v.sessionId = none →
      s.harness.Free threadId (s.harness.openedId op)
  | _ => True

/-- Every thread is bound to a session of its own. -/
structure Routed (s : AgentRuntimeSupervisor (AcpHarnessAdapter σ)) : Prop where
  named : ∀ (threadId : ThreadId) v, s.threads[threadId]? = some v → v.threadId = threadId
  own : ∀ (threadId : ThreadId) v, s.threads[threadId]? = some v →
    s.harness.Own threadId v.sessionId

variable {s : AgentRuntimeSupervisor (AcpHarnessAdapter σ)} {threadId : ThreadId}
  {op : SupervisedOp} {v : ThreadRuntimeSupervisor}

omit [AgentPrograms σ] [ErrorText] [AcpSerde] [DefaultHasher] [ProcessTransport σ] in
/-- The supervisor an operation is for is the one of the thread, or a new one. -/
theorem entry_cases (h : s.entry threadId op = some v) :
    s.threads[threadId]? = some v ∨ v = .new threadId := by
  unfold AgentRuntimeSupervisor.entry at h
  split at h
  · rename_i hv
    cases h
    exact .inl hv
  · split at h
    · cases h
      exact .inr rfl
    · cases h

omit [AgentPrograms σ] [ErrorText] [AcpSerde] [DefaultHasher] [ProcessTransport σ] in
theorem Routed.entry (h : Routed s) (hv : s.entry threadId op = some v) :
    v.threadId = threadId ∧ s.harness.Own threadId v.sessionId := by
  rcases entry_cases hv with hv | rfl
  · exact ⟨h.named threadId v hv, h.own threadId v hv⟩
  · exact ⟨rfl, nofun⟩

omit [AcpSerde] [ProcessTransport σ] in
/-- **One operation.** It leaves the workers of the other threads alone iff it opens no
session under the name of one of them. -/
theorem spares_apply_iff (h : Routed s) (hv : s.entry threadId op = some v) :
    let x := (AgentRuntimeSupervisor.view v s).apply op
    (AcpHarnessAdapter.Spares threadId s.harness x.harness ↔
        (v.sessionId = none → s.harness.Free threadId (s.harness.openedId op))) ∧
      x.harness.Own threadId x.supervisor.sessionId := by
  obtain ⟨rfl, hown⟩ := h.entry hv
  have heffect := effect_apply (AgentRuntimeSupervisor.view v s) op
  have hnone : s.harness.Free v.threadId none := nofun
  have hboth {P Q : Prop} {R : Prop} (h : P ∧ R) (hQ : Q) : (P ↔ Q) ∧ R :=
    ⟨iff_of_true h.1 hQ, h.2⟩
  cases op with
  | createSession binding now =>
    exact AcpHarnessAdapter.spares_opens_iff hown
      (AcpHarnessAdapter.registers_createSession s.harness binding v.threadId now) heffect
  | resumeSession binding sessionId now =>
    exact AcpHarnessAdapter.spares_opens_iff hown
      (AcpHarnessAdapter.registers_resumeSession s.harness binding sessionId v.threadId now)
      heffect
  | closeSession now => exact hboth (AcpHarnessAdapter.spares_closes hown heffect) fun _ => hnone
  | prompt | pollStream | decidePermission | steerCancel =>
    exact hboth (AcpHarnessAdapter.spares_calls hown heffect) fun _ => hnone

omit [AcpSerde] [ProcessTransport σ] in
/-- What the other threads are bound to is left alone by a step that spares them. -/
theorem Routed.put (h : Routed s) (hv : s.entry threadId op = some v)
    (hspares : AcpHarnessAdapter.Spares threadId s.harness
      ((AgentRuntimeSupervisor.view v s).apply op).harness) :
    Routed (AgentRuntimeSupervisor.put threadId s ((AgentRuntimeSupervisor.view v s).apply op)) := by
  have hrow (other : ThreadId) : (AgentRuntimeSupervisor.put threadId s
      ((AgentRuntimeSupervisor.view v s).apply op)).threads[other]? =
        if threadId = other then some ((AgentRuntimeSupervisor.view v s).apply op).supervisor
        else s.threads[other]? :=
    Table.getElem?_insert_eq _ _ _ _
  constructor
  · intro other w hw
    rw [hrow] at hw
    split at hw
    · rename_i heq
      cases hw
      rw [threadId_apply]
      exact (h.entry hv).1.trans heq
    · exact h.named other w hw
  · intro other w hw
    rw [hrow] at hw
    split at hw
    · rename_i heq
      cases hw
      exact heq ▸ (spares_apply_iff h hv).2
    · rename_i hne
      intro sessionId hsession
      obtain ⟨w', hw', hthread⟩ := h.own other w hw sessionId hsession
      exact ⟨w', hspares sessionId w' hw' fun heq => hne (heq.symm.trans hthread), hthread⟩

omit [AgentPrograms σ] [ErrorText] [AcpSerde] [DefaultHasher] [ProcessTransport σ] in
theorem Routed.modifySession (h : Routed s) (sessionId : HarnessSessionId)
    (f : Session σ → Session σ) :
    Routed { s with harness := s.harness.modifySession sessionId f } := by
  refine ⟨h.named, fun threadId v hv other hother => ?_⟩
  obtain ⟨w, hw, hthread⟩ := h.own threadId v hv other hother
  change ∃ w, (s.harness.sessions.update sessionId _)[other]? = some w ∧ _
  rw [Table.getElem?_update, hw]
  split
  · exact ⟨_, rfl, hthread⟩
  · exact ⟨w, rfl, hthread⟩

theorem uncrossed_iff (h : Routed s) (i : HostInput σ) : Uncrossed s i ↔ FreshName s i := by
  cases i with
  | supervise threadId op =>
    refine (and_iff_right fun v => h.own threadId v).trans ?_
    cases hv : s.entry threadId op with
    | none =>
      refine iff_of_true (fun sessionId w hw _ => ?_) fun v hv' => ?_
      · rw [hostStep, hv]
        exact hw
      · cases hv.symm.trans hv'
    | some v =>
      rw [hostStep, hv]
      refine (spares_apply_iff h hv).1.trans ⟨fun hfree v' hv' => ?_, fun hfresh => hfresh v hv⟩
      cases hv.symm.trans hv'
      exact hfree
  | worker => exact iff_of_true trivial trivial
  | agent => exact iff_of_true trivial trivial
  | recordEvent => exact iff_of_true trivial trivial

theorem Routed.step (h : Routed s) {i : HostInput σ} (hfresh : FreshName s i) :
    Routed (hostStep s i) := by
  cases i with
  | supervise threadId op =>
    cases hv : s.entry threadId op with
    | none =>
      rw [hostStep, hv]
      exact h
    | some v =>
      rw [hostStep, hv]
      exact h.put hv ((spares_apply_iff h hv).1.2 (hfresh v hv))
  | worker sessionId => exact h.modifySession sessionId _
  | agent sessionId f => exact h.modifySession sessionId _
  | recordEvent e =>
    cases he : s.store.appendDomainEvent e with
    | error err =>
      rw [hostStep, he]
      exact h
    | ok r =>
      rw [hostStep, he]
      exact ⟨h.named, h.own⟩

/-- **Sessions.** No session is crossed along a run iff no session is opened under a name
that a session of another thread has. -/
theorem sessions_uncrossed_iff (store : Store) (inputs : List (HostInput σ)) :
    (hostMachine store).Meets Uncrossed (hostMachine store).init inputs ↔
      (hostMachine store).Meets FreshName (hostMachine store).init inputs := by
  have hnone (threadId : ThreadId) :
      (∅ : Table ThreadId ThreadRuntimeSupervisor)[threadId]? = none := Std.ExtTreeMap.getElem?_empty
  refine (hostMachine store).meets_iff (I := Routed) (fun s i h hfresh => h.step hfresh)
    (fun s i h => uncrossed_iff h i) ⟨fun threadId v hv => ?_, fun threadId v hv => ?_⟩
  · cases (hnone threadId).symm.trans hv
  · cases (hnone threadId).symm.trans hv

end Threads

end Adapter

section Sample

attribute [local instance] flatWriter plainText linearHasher plainSerde

/-- Agents that name every session the same. -/
local instance sameNames : AgentPrograms Scripted where
  launch _ _ _ := .ok ⟨"session", ∅, true, sampleRuntime, ⟨[], [], [], [], []⟩⟩

def firstThread : ThreadId := ⟨"thr_adapter000000001", by decide⟩

def secondThread : ThreadId := ⟨"thr_adapter000000002", by decide⟩

/-- Opens a session for a thread. -/
def openFor (threadId : ThreadId) : HostInput Scripted :=
  .supervise threadId (.createSession ⟨⟨"hsb_adapter000000001", by decide⟩⟩ 0)

/-- Two threads whose agents name their sessions the same: the session of the first is
replaced. -/
theorem not_uncrossed_same_names :
    ¬ ∀ inputs : List (HostInput Scripted),
      (hostMachine .empty).Meets Uncrossed (hostMachine .empty).init inputs := by
  intro h
  obtain ⟨-, ⟨-, hspares⟩, -⟩ := h [openFor firstThread, openFor secondThread]
  have hbefore : (hostStep (hostMachine .empty).init (openFor firstThread)).harness.sessions[
      openedInfo.sessionId]?.map SessionWorkerHandle.threadId = some firstThread := by
    decide
  have hafter : (hostStep (hostStep (hostMachine .empty).init (openFor firstThread))
      (openFor secondThread)).harness.sessions[openedInfo.sessionId]?.map
        SessionWorkerHandle.threadId = some secondThread := by
    decide
  obtain ⟨w, hw, hthread⟩ := Option.map_eq_some_iff.1 hbefore
  have hsame := hspares openedInfo.sessionId w hw (by rw [hthread]; decide)
  have hfirst := (congrArg (Option.map SessionWorkerHandle.threadId) hsame).symm.trans hafter
  exact absurd (hthread.symm.trans (Option.some.inj hfirst)) (by decide)

end Sample

end Altior.Acp
