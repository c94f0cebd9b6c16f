import Altior.Application.Broadcast

/-!
# Threads in one step

What one thread's failing event means for the others.  The pump stops at the first
poll that fails, and the step with it, so a step serves all threads and subscribers
exactly when no poll fails.
-/

namespace Altior.Application

open Domain Lib Storage Altior.Runtime

section Isolation

variable [SerdeJsonWriter] {H : Type} [HarnessRuntimePort H]

/-! ## Polling thread after thread -/

/-- `Pumps now threads w es w'`: polling each thread until it has nothing more leads
from `w` to `w'` and gives the log the envelopes `es`. -/
inductive Pumps (now : UInt64) :
    List ThreadId → Shared H → List EventEnvelope → Shared H → Prop
  | /-- No thread is left. -/
    nil {w : Shared H} : Pumps now [] w [] w
  | /-- The thread has nothing more. -/
    dry {threadId : ThreadId} {rest : List ThreadId} {w w' : Shared H} {es : List EventEnvelope}
      {app : CoreApplication H} :
      pollThreadEvents threadId now w.app none = ⟨.done none, app, none⟩ →
      Pumps now rest { w with app := app } es w' → Pumps now (threadId :: rest) w es w'
  | /-- The thread has an event, which is published. -/
    more {threadId : ThreadId} {rest : List ThreadId} {w w' : Shared H} {e : EventEnvelope}
      {es : List EventEnvelope} {app : CoreApplication H} :
      pollThreadEvents threadId now w.app none = ⟨.done (some e), app, none⟩ →
      Pumps now (threadId :: rest) { w with app := app, appended := w.appended ++ [e] } es w' →
      Pumps now (threadId :: rest) w (e :: es) w'

/-- `PollFails now threads w err`: polling thread after thread comes to a poll that
fails. -/
inductive PollFails (now : UInt64) : List ThreadId → Shared H → CoreAppError → Prop
  | /-- The next poll fails. -/
    here {threadId : ThreadId} {rest : List ThreadId} {w : Shared H} {err : CoreAppError}
      {app : CoreApplication H} :
      pollThreadEvents threadId now w.app none = ⟨.failed err, app, none⟩ →
      PollFails now (threadId :: rest) w err
  | /-- A later thread's poll fails. -/
    dry {threadId : ThreadId} {rest : List ThreadId} {w : Shared H} {err : CoreAppError}
      {app : CoreApplication H} :
      pollThreadEvents threadId now w.app none = ⟨.done none, app, none⟩ →
      PollFails now rest { w with app := app } err → PollFails now (threadId :: rest) w err
  | /-- A later poll fails. -/
    more {threadId : ThreadId} {rest : List ThreadId} {w : Shared H} {err : CoreAppError}
      {e : EventEnvelope} {app : CoreApplication H} :
      pollThreadEvents threadId now w.app none = ⟨.done (some e), app, none⟩ →
      PollFails now (threadId :: rest) { w with app := app, appended := w.appended ++ [e] } err →
      PollFails now (threadId :: rest) w err

variable {now : UInt64}

/-- Threads that are all polled to the end have no poll that fails. -/
theorem Pumps.not_pollFails {threads : List ThreadId} {w w' : Shared H} {es : List EventEnvelope}
    (h : Pumps now threads w es w') (err : CoreAppError) : ¬ PollFails now threads w err := by
  induction h with
  | nil =>
    intro hfails
    cases hfails
  | dry hpoll _ ih =>
    intro hfails
    cases hfails with
    | here hpoll' => rw [hpoll] at hpoll'; cases hpoll'
    | dry hpoll' hrest =>
      rw [hpoll] at hpoll'
      cases hpoll'
      exact ih hrest
    | more hpoll' => rw [hpoll] at hpoll'; cases hpoll'
  | more hpoll _ ih =>
    intro hfails
    cases hfails with
    | here hpoll' => rw [hpoll] at hpoll'; cases hpoll'
    | dry hpoll' => rw [hpoll] at hpoll'; cases hpoll'
    | more hpoll' hrest =>
      rw [hpoll] at hpoll'
      cases hpoll'
      exact ih hrest

variable [QueuedHarness H]

open QueuedHarness (backlog)

/-- The pump of one thread, before the others. -/
theorem pumpThread_cases (threadId : ThreadId) (rest : List ThreadId) (now : UInt64)
    {budget : Nat} {w : Shared H} (hbudget : backlog w.app.harness < budget) :
    (∃ es w', pumpThread threadId now budget w none = ⟨.done es, w', none⟩ ∧
      (∀ es' w'', Pumps now rest w' es' w'' → Pumps now (threadId :: rest) w (es ++ es') w'') ∧
      ∀ err, PollFails now rest w' err → PollFails now (threadId :: rest) w err) ∨
    ∃ err w', pumpThread threadId now budget w none = ⟨.failed err, w', none⟩ ∧
      PollFails now (threadId :: rest) w err := by
  induction budget generalizing w with
  | zero => cases hbudget
  | succ budget ih =>
    have hless := spec_backlog_pollThreadEvents w.app threadId now w.app none rfl
    unfold pumpThread
    rw [Proc.bind_run]
    unfold Shared.onApp Proc.zoom
    rcases (ends_pollThreadEvents threadId now).cases w.app with
      ⟨_ | e, app, hrun⟩ | ⟨err, app, hrun⟩
    · simp only [hrun]
      exact .inl ⟨[], _, rfl, fun _ _ h => .dry hrun h, fun _ h => .dry hrun h⟩
    · rw [hrun] at hless
      have hbacklog : backlog app.harness < backlog w.app.harness := hless.1 rfl
      have hbudget' : backlog app.harness < budget := by omega
      simp only [hrun, Shared.record, Proc.bind_run, Proc.modify_run]
      rcases ih (w := { w with app := app, appended := w.appended ++ [e] }) hbudget' with
        ⟨es, w', hpump, hdone, hfails⟩ | ⟨err, w', hpump, hfails⟩
      · rw [hpump]
        exact .inl ⟨e :: es, w', rfl, fun es' w'' h => .more hrun (hdone es' w'' h),
          fun err h => .more hrun (hfails err h)⟩
      · rw [hpump]
        exact .inr ⟨err, w', rfl, .more hrun hfails⟩
    · simp only [hrun]
      exact .inr ⟨err, _, rfl, .here hrun⟩

/-- The pump polls all threads to the end, or stops at a poll that fails. -/
theorem pumpThreads_cases (now : UInt64) (threads : List ThreadId) (w : Shared H) :
    (∃ es w', pumpThreads now threads w none = ⟨.done es, w', none⟩ ∧ Pumps now threads w es w') ∨
      ∃ err w', pumpThreads now threads w none = ⟨.failed err, w', none⟩ ∧
        PollFails now threads w err := by
  induction threads generalizing w with
  | nil => exact .inl ⟨[], w, rfl, .nil⟩
  | cons threadId rest ih =>
    unfold pumpThreads
    simp only [Proc.bind_run, Proc.get_run]
    rcases pumpThread_cases threadId rest now (w := w) (Nat.lt_succ_self _) with
      ⟨es, w', hpump, hdone, hfails⟩ | ⟨err, w', hpump, hfails⟩
    · rw [show pumpThread threadId now (backlog w.app.supervisor.harness + 1) w none = _ from hpump]
      rcases ih w' with ⟨es', w'', hrest, hpumps⟩ | ⟨err, w'', hrest, hfail⟩
      · simp only [hrest]
        exact .inl ⟨es ++ es', w'', rfl, hdone es' w'' hpumps⟩
      · simp only [hrest]
        exact .inr ⟨err, w'', rfl, hfails err hfail⟩
    · rw [show pumpThread threadId now (backlog w.app.supervisor.harness + 1) w none = _ from hpump]
      exact .inr ⟨err, w', rfl, hfails⟩

/-! ## What the subscribers get -/

variable {s : DaemonClientSession}

omit [SerdeJsonWriter] [HarnessRuntimePort H] [QueuedHarness H] in
/-- A subscriber whose connection is still open was sent the envelope. -/
theorem received_deliver {e : EventEnvelope} (hstate : (deliver e s).1.state = .subscribed)
    (hopen : (deliver e s).1.connection.closed = false) :
    s.state = .subscribed ∧ s.connection.closed = false ∧
      (deliver e s).1.received = s.received ++ [e] := by
  unfold deliver at hstate hopen ⊢
  split at hstate
  · rename_i hto
    rw [if_pos hto] at hopen ⊢
    simp only [Bool.and_eq_true, Bool.not_eq_true', beq_iff_eq] at hto
    refine ⟨hto.2, hto.1, ?_⟩
    cases haccepts : s.connection.accepts with
    | true =>
      rw [sendFrame_of_accepts haccepts]
      simp [DaemonClientSession.received, Frame.event?]
    | false =>
      obtain ⟨err, c', hsend, -, -⟩ := sendFrame_of_not_accepts haccepts (.event e)
      rw [hsend] at hopen
      cases hopen
  · rename_i hto
    rw [if_neg hto] at hopen
    exact absurd (by rw [hopen, hstate]; rfl) hto

omit [SerdeJsonWriter] [HarnessRuntimePort H] [QueuedHarness H] in
/-- A subscriber whose connection is still open was sent all envelopes, in order. -/
theorem received_broadcast {events : List EventEnvelope} {sessions : List DaemonClientSession}
    (hs : s ∈ (broadcast events sessions).1) (hstate : s.state = .subscribed)
    (hopen : s.connection.closed = false) :
    ∃ t ∈ sessions, t.state = .subscribed ∧ t.connection.closed = false ∧
      s.received = t.received ++ events := by
  induction events generalizing sessions with
  | nil => exact ⟨s, hs, hstate, hopen, (List.append_nil _).symm⟩
  | cons e rest ih =>
    obtain ⟨t, ht, htstate, htopen, hreceived⟩ := ih hs
    rw [visit_alone] at ht
    obtain ⟨u, hu, rfl⟩ := List.mem_map.1 ht
    obtain ⟨hustate, huopen, hsent⟩ := received_deliver htstate htopen
    exact ⟨u, hu, hustate, huopen, by rw [hreceived, hsent, List.append_assoc]; rfl⟩

/-! ## Steps -/

/-- The failures the listener still has to hand over. -/
def failuresAhead (listener : List (Option Connection)) : Nat := listener.countP Option.isNone

omit [SerdeJsonWriter] [HarnessRuntimePort H] [QueuedHarness H] in
/-- Accepting fails by taking a failure from the listener, and takes none else. -/
theorem failuresAhead_accept (capacity : Nat) (now : UInt64) (listener : List (Option Connection))
    (sessions : List DaemonClientSession) (accepted : Nat) :
    failuresAhead listener =
      failuresAhead (acceptConnections capacity now listener sessions accepted).listener +
        (acceptConnections capacity now listener sessions accepted).failed.toNat := by
  induction listener generalizing sessions accepted with
  | nil => rfl
  | cons next rest ih =>
    unfold acceptConnections
    split
    · cases next with
      | none => exact List.countP_cons_of_pos rfl
      | some c => exact (List.countP_cons_of_neg (by simp)).trans (ih _ _)
    · rfl

omit [SerdeJsonWriter] [HarnessRuntimePort H] [QueuedHarness H] in
/-- Who is accepted has not subscribed. -/
theorem mem_of_mem_accept {capacity : Nat} {listener : List (Option Connection)}
    {sessions : List DaemonClientSession} {accepted : Nat}
    (hs : s ∈ (acceptConnections capacity now listener sessions accepted).sessions)
    (hstate : s.state = .subscribed) : s ∈ sessions := by
  rcases (acceptConnections_cases capacity now listener sessions accepted).1 s hs with
    hs | ⟨c, -, rfl⟩
  · exact hs
  · cases hstate

omit [HarnessRuntimePort H] [QueuedHarness H] in
theorem CoreDaemon.failuresAhead_accept (d : CoreDaemon H) (now : UInt64) :
    failuresAhead d.listener =
      failuresAhead (d.accept now).listener + (d.accept now).failed.toNat :=
  Application.failuresAhead_accept d.config.maxClientSessions now d.listener d.sessions 0

variable [DefaultHasher] [ErrorText] [ProtocolText] [CoreServices H]

/-- Isolation of the threads in a step: the step fails over the listener only, all
threads that have a supervisor are polled to the end, and every subscriber whose
connection is open is sent all that is to be broadcast. -/
structure CoreDaemon.Isolates (d : CoreDaemon H) (now : UInt64) : Prop where
  returns : ∀ err, (d.step now).1 = .error err →
    failuresAhead (d.step now).2.listener < failuresAhead d.listener
  pumps : (d.accept now).failed = false → ∃ es w,
    Pumps now (threadIds (d.normal now).1.app) (d.normal now).1 es w ∧
      (d.step now).2.app = w.app ∧ (d.step now).2.appended = w.appended ∧
      ∀ s ∈ (d.step now).2.sessions, s.state = .subscribed → s.connection.closed = false →
        ∃ t ∈ (d.normal now).2.1, s.received = t.received ++ (w.broadcastEvents ++ es)

/-- No poll of the threads fails, from the state the commands of the step leave. -/
def CoreDaemon.PollsSucceed (d : CoreDaemon H) (now : UInt64) : Prop :=
  ∀ err, ¬ PollFails now (threadIds (d.normal now).1.app) (d.normal now).1 err

/-- The end of a step whose pump went well. -/
theorem isolates_finish {d : CoreDaemon H} {es : List EventEnvelope} {w : Shared H}
    (haccept : (d.accept now).failed = false) (hpump : d.pump now = ⟨.done es, w, none⟩)
    (hpumps : Pumps now (threadIds (d.normal now).1.app) (d.normal now).1 es w) :
    d.Isolates now := by
  have hstep : d.step now = d.finish now w es := by
    unfold CoreDaemon.step
    rw [haccept, hpump]
    rfl
  have hfirst := d.failuresAhead_accept now
  rw [haccept] at hfirst
  refine ⟨fun err herr => ?_, fun _ => ⟨es, w, hpumps, ?_, ?_, fun s hs hstate hopen => ?_⟩⟩
  · rw [hstep] at herr ⊢
    unfold CoreDaemon.finish at herr ⊢
    dsimp only at herr ⊢
    split at herr
    · rename_i hlast
      rw [if_pos hlast]
      have hsecond := ({ d.put w (evict (broadcast (w.broadcastEvents ++ es) (d.normal now).2.1).1
        ((d.read now).2 ++ (d.control now).2.2 ++ (d.normal now).2.2 ++
          (broadcast (w.broadcastEvents ++ es) (d.normal now).2.1).2)) with
        listener := (d.accept now).listener } : CoreDaemon H).failuresAhead_accept now
      rw [hlast] at hsecond
      change failuresAhead (d.accept now).listener = _ at hsecond
      rw [hfirst, Bool.toNat_false, Nat.add_zero, hsecond]
      exact Nat.lt_succ_self _
    · cases herr
  · rw [hstep]
    unfold CoreDaemon.finish
    dsimp only
    split <;> rfl
  · rw [hstep]
    unfold CoreDaemon.finish
    dsimp only
    split <;> rfl
  · have hmem : s ∈ (broadcast (w.broadcastEvents ++ es) (d.normal now).2.1).1 := by
      rw [hstep] at hs
      unfold CoreDaemon.finish at hs
      dsimp only at hs
      split at hs
      · exact mem_of_mem_evict (mem_of_mem_accept hs hstate)
      · exact mem_of_mem_evict (mem_of_mem_accept hs hstate)
    obtain ⟨t, ht, -, -, hreceived⟩ := received_broadcast hmem hstate hopen
    exact ⟨t, ht, hreceived⟩

/-- **Isolation.** A step that gets to its threads keeps them apart exactly when no
poll fails. -/
theorem isolates_iff (d : CoreDaemon H) (now : UInt64) :
    d.Isolates now ↔ (d.accept now).failed = true ∨ d.PollsSucceed now := by
  have hfirst := d.failuresAhead_accept now
  cases haccept : (d.accept now).failed with
  | true =>
    rw [haccept] at hfirst
    refine ⟨fun _ => .inl rfl, fun _ => ⟨fun err _ => ?_, fun h => ?_⟩⟩
    · unfold CoreDaemon.step
      rw [haccept]
      change failuresAhead (d.accept now).listener < _
      rw [hfirst]
      exact Nat.lt_succ_self _
    · rw [haccept] at h
      cases h
  | false =>
    rw [haccept] at hfirst
    rcases pumpThreads_cases now (threadIds (d.normal now).1.app) (d.normal now).1 with
      ⟨es, w, hpump, hpumps⟩ | ⟨err, w, hpump, hfails⟩
    · exact ⟨fun _ => .inr fun err => hpumps.not_pollFails err,
        fun _ => isolates_finish haccept hpump hpumps⟩
    · constructor
      · intro h
        have hstep : d.step now = (.error err, { d.put w (d.normal now).2.1 with
            listener := (d.accept now).listener }) := by
          unfold CoreDaemon.step
          rw [haccept, show d.pump now = _ from hpump]
          rfl
        have hless := h.returns err (by rw [hstep])
        rw [hstep] at hless
        change failuresAhead (d.accept now).listener < _ at hless
        rw [hfirst] at hless
        exact absurd hless (Nat.lt_irrefl _)
      · rintro (h | h)
        · cases h
        · exact absurd hfails (h err)

/-- The step fails, and not over the listener. -/
def CoreDaemon.stops (d : CoreDaemon H) (now : UInt64) : Bool :=
  match (d.step now).1 with
  | .error _ => failuresAhead (d.step now).2.listener == failuresAhead d.listener
  | .ok _ => false

theorem CoreDaemon.not_isolates_of_stops {d : CoreDaemon H} (h : d.stops now = true) :
    ¬ d.Isolates now := by
  intro hisolates
  unfold CoreDaemon.stops at h
  split at h
  · rename_i err herr
    have hless := hisolates.returns err herr
    rw [beq_iff_eq] at h
    omega
  · cases h

end Isolation

section Sample

local instance isolationWriter : SerdeJsonWriter := flatWriter
local instance isolationText : ErrorText := plainText
local instance isolationProtocolText : ProtocolText := plainProtocolText
local instance isolationHasher : DefaultHasher := linearHasher
local instance isolationServices : CoreServices Line := plainServices

/-- A turn is started on one of two open threads; then the agent of that thread
reports a delta and a tool call, and the agent of the other thread a delta. -/
def sampleToolCall : List (DaemonInput Line) :=
  let other := EntityIdAllocator.newThreadId ⟨1, 0⟩ 1
  let create := sampleCommand (.createThread (.ok ⟨sampleAgent, none, none⟩))
  let events := [sampleCreated, sampleCreated, other].zip
    [HarnessEvent.messageDelta "hi", .toolCall "call" none, .messageDelta "hi"]
  [.connect [sampleHello, create, create, sampleCommand (.openThread (.ok ⟨sampleCreated⟩)),
      sampleCommand (.openThread (.ok ⟨other⟩)),
      sampleCommand (.subscribe (some (.flat [("since", .null)]))), sampleCommand sampleStart] [],
    .step 1,
    .agents fun _ => ⟨events.filterMap fun e =>
      (HarnessSessionId.new e.1.asStr).map fun sessionId => (sessionId, e.2)⟩]

/-- The tool call ends the step: the delta before it is in the log but with no
subscriber, and the other thread is not polled. -/
theorem toolCall_ends_step :
    let m := daemonMachine (CoreDaemon.new (H := Line) ⟨[]⟩ .empty sampleConfig 0)
    let d := m.run sampleToolCall
    ¬ d.Isolates 2 ∧ (d.step 2).2.appended.length = d.appended.length + 1 ∧
      (d.step 2).2.sessions.map (fun s => (s.state, s.connection.closed, s.received.length)) =
        [(.subscribed, false, d.appended.length)] ∧
      (d.step 2).2.app.harness.events.length = 1 := by
  refine ⟨CoreDaemon.not_isolates_of_stops ?_, ?_, ?_, ?_⟩
  all_goals decide +kernel

end Sample

end Altior.Application
