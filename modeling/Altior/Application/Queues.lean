import Altior.Application.Isolation

/-!
# The queues of the sessions

Control commands and other commands are kept in their queues: a frame goes to the
queue of its command, and no handler touches the queues.
-/

namespace Altior.Application

open Domain Lib Storage Altior.Runtime
open Serving (onApp onShared onSession send)

section Queues

variable [SerdeJsonWriter] {H : Type}

/-- Control commands and other commands are in their queues. -/
structure DaemonClientSession.Sorted (s : DaemonClientSession) : Prop where
  control : ∀ cmd ∈ s.pendingControlCommands, isControlCommand cmd.command = true
  normal : ∀ cmd ∈ s.pendingNormalCommands, isControlCommand cmd.command = false

/-- The queues of a session. -/
def DaemonClientSession.queues (s : DaemonClientSession) :
    List CommandEnvelope × List CommandEnvelope :=
  (s.pendingControlCommands, s.pendingNormalCommands)

/-- The queues of the session that is served. -/
def Serving.queues (x : Serving H) : List CommandEnvelope × List CommandEnvelope :=
  x.session.queues

variable {s : DaemonClientSession}

omit [SerdeJsonWriter] in
theorem DaemonClientSession.Sorted.of_queues {s' : DaemonClientSession} (h : s.Sorted)
    (hqueues : s'.queues = s.queues) : s'.Sorted := by
  simp only [DaemonClientSession.queues, Prod.mk.injEq] at hqueues
  obtain ⟨hcontrol, hnormal⟩ := hqueues
  exact ⟨hcontrol ▸ h.control, hnormal ▸ h.normal⟩

/-! ### Handlers leave them alone -/

theorem fixes_session_onShared {α : Type} (m : Proc (Shared H) CoreAppError α) :
    Proc.Fixes Serving.session (onShared m) :=
  .zoom fun _ _ => rfl

theorem fixes_session_onApp {α : Type} (m : Proc (CoreApplication H) CoreAppError α) :
    Proc.Fixes Serving.session (onApp m) :=
  fixes_session_onShared _

theorem fixes_queues_onShared {α : Type} (m : Proc (Shared H) CoreAppError α) :
    Proc.Fixes Serving.queues (onShared m) :=
  .zoom fun _ _ => rfl

theorem fixes_queues_onApp {α : Type} (m : Proc (CoreApplication H) CoreAppError α) :
    Proc.Fixes Serving.queues (onApp m) :=
  fixes_queues_onShared _

theorem fixes_queues_onSession {f : DaemonClientSession → DaemonClientSession}
    (h : ∀ s, (f s).queues = s.queues) :
    Proc.Fixes (Serving.queues (H := H)) (onSession (Proc.modify f)) :=
  .zoom_part (fun _ _ heq => heq) (.modify h)

theorem fixes_queues_send (frame : Frame) : Proc.Fixes (Serving.queues (H := H)) (send frame) :=
  .zoom_part (fun _ _ heq => heq) (.act fun _ => (rfl : _ = DaemonClientSession.queues _))

theorem fixes_queues_replyResult (operationId : OperationId) (data : Option Json) (now : UInt64) :
    Proc.Fixes (Serving.queues (H := H)) (replyResult operationId data now) :=
  .bind (fixes_queues_onApp _) fun _ => fixes_queues_send _

theorem fixes_queues_replyError (operationId : OperationId) (code message : String)
    (now : UInt64) : Proc.Fixes (Serving.queues (H := H)) (replyError operationId code message now) :=
  .bind (fixes_queues_onApp _) fun _ => fixes_queues_send _

theorem fixes_queues_replySnapshot (operationId : OperationId) (data : Json) (now : UInt64) :
    Proc.Fixes (Serving.queues (H := H)) (replySnapshot operationId data now) :=
  .bind (.ofExcept _) fun _ => fixes_queues_send _

theorem fixes_queues_handleSubscribe (operationId : OperationId) (payload : Option Json)
    (now : UInt64) :
    Proc.Fixes (Serving.queues (H := H)) (handleSubscribe operationId payload now) := by
  have hevents (events : List EventEnvelope) :
      Proc.Fixes (Serving.queues (H := H)) (sendEvents events) := by
    induction events with
    | nil => exact .pure _
    | cons e rest ih => exact .bind (fixes_queues_send _) fun _ => ih
  have hsubscribed : Proc.Fixes (Serving.queues (H := H))
      (onSession (Proc.modify fun s => { s with state := .subscribed })) :=
    fixes_queues_onSession fun _ => rfl
  have haccept (eventId : EventId) :
      Proc.Fixes (Serving.queues (H := H)) (acceptSubscribe operationId payload eventId now) := by
    refine .bind .get fun x => ?_
    split
    · exact .fail _
    · split
      · exact .fail _
      · refine .bind (.ofExcept _) fun since =>
          .bind (fixes_queues_onSession fun _ => rfl) fun _ => ?_
        split
        · exact .bind (fixes_queues_onShared _) fun _ => .pure _
        · exact .bind (fixes_queues_onShared _) fun _ => .pure _
        · exact .pure _
  refine .bind (fixes_queues_onApp _) fun eventId => .bind (haccept eventId) fun delivery => ?_
  split
  · exact .bind (hevents _) fun _ => .bind (fixes_queues_send _) fun _ => hsubscribed
  · exact .bind (fixes_queues_send _) fun _ => hsubscribed
  · exact hsubscribed

section Commands

variable [HarnessRuntimePort H] [DefaultHasher] [ErrorText]

theorem fixes_queues_executeControlCommand (cmd : CommandEnvelope) (now : UInt64) :
    Proc.Fixes (Serving.queues (H := H)) (executeControlCommand cmd now) := by
  unfold executeControlCommand
  split
  · exact fixes_queues_replyResult _ _ _
  · exact .bind .get fun _ => .bind (fixes_queues_onApp _) fun _ => fixes_queues_replyResult _ _ _
  · exact .bind (fixes_queues_onApp _) fun _ => fixes_queues_replyResult _ _ _
  · exact fixes_queues_replyError _ _ _ _
  · split
    · exact fixes_queues_replyError _ _ _ _
    · refine .bind .get fun _ => ?_
      split
      · exact .bind (fixes_queues_onApp _) fun _ => fixes_queues_replyResult _ _ _
      · exact fixes_queues_replyError _ _ _ _
  · exact fixes_queues_replyError _ _ _ _
  · exact .pure _

variable [ProtocolText] [CoreServices H]

omit [ProtocolText] in
theorem fixes_session_startTurn (operationId : OperationId)
    (payload : Except ProtocolError StartTurnCommand) (now : UInt64) :
    Proc.Fixes Serving.session (startTurn (H := H) operationId payload now) := by
  have hrecord (turnId : TurnId) (started : TurnAdmission × Option EventEnvelope) :
      Proc.Fixes Serving.session (recordStart (H := H) turnId started) := by
    unfold recordStart
    split
    · exact .bind (fixes_session_onShared _) fun _ => .pure _
    · exact .pure _
  refine .bind (.ofExcept _) fun payload => ?_
  dsimp only
  split
  · exact .bind (.pure _) fun _ => .bind (fixes_session_onApp _) fun _ => hrecord _ _
  · exact .bind (fixes_session_onShared _) fun _ => .bind (fixes_session_onApp _) fun _ =>
      hrecord _ _

theorem fixes_queues_executeNormalCommand (cmd : CommandEnvelope) (now : UInt64) :
    Proc.Fixes (Serving.queues (H := H)) (executeNormalCommand cmd now) := by
  have hanswer {α : Type} {operationId : OperationId} {code : String}
      {closure : Proc (Serving H) CoreAppError α} {reply : α → Proc (Serving H) CoreAppError Unit}
      (hclosure : Proc.Fixes Serving.session closure)
      (hreply : ∀ a, Proc.Fixes Serving.queues (reply a)) :
      Proc.Fixes Serving.queues (answer operationId code closure reply now) := by
    have hqueues : Proc.Fixes Serving.queues closure :=
      fun x n => congrArg DaemonClientSession.queues (hclosure x n)
    refine .bind hqueues.attempt fun r => ?_
    split
    · exact hreply _
    · exact fixes_queues_replyError _ _ _ _
  obtain ⟨operationId, command⟩ := cmd
  cases command with
  | subscribe payload => exact fixes_queues_handleSubscribe _ _ _
  | createThread payload =>
    exact hanswer (.bind (.ofExcept _) fun _ => .bind (fixes_session_onShared _) fun _ =>
      .bind (fixes_session_onApp _) fun _ => .ofExcept _) fun _ => fixes_queues_replyResult _ _ _
  | openThread payload =>
    exact hanswer (.bind (.ofExcept _) fun _ => .bind (fixes_session_onApp _) fun _ =>
      .bind .get fun _ => .ofExcept _) fun _ => fixes_queues_replySnapshot _ _ _
  | startTurn payload =>
    refine hanswer (fixes_session_startTurn _ _ _) fun started =>
      .bind (fixes_queues_replyResult _ _ _) fun _ => ?_
    cases started.2.2 with
    | none => exact .pure _
    | some envelope => exact fixes_queues_onShared _
  | runtimeStatus =>
    exact .bind .get fun _ => .bind (fixes_queues_onApp _) fun _ => fixes_queues_send _
  | snapshotQuery query payload =>
    cases query <;>
      exact hanswer (fixes_session_onShared _) fun _ => fixes_queues_replySnapshot _ _ _
  | resultQuery query payload =>
    cases query <;>
      exact hanswer (fixes_session_onShared _) fun _ => fixes_queues_replyResult _ _ _
  | ping | cancel | cancelTurn | respondPermission => exact .pure _

/-! ### Serving a session -/

omit [HarnessRuntimePort H] [DefaultHasher] [ErrorText] [ProtocolText] [CoreServices H] in
/-- **Drain rule.** A condition on the session that survives a shorter queue, the
commands and the closing of the connection survives the commands of a session. -/
theorem drain_keeps (exec : CommandEnvelope → Proc (Serving H) CoreAppError Unit)
    (put : List CommandEnvelope → DaemonClientSession → DaemonClientSession)
    (commands : List CommandEnvelope) {G : DaemonClientSession → Prop}
    (hput : ∀ rest s, (∀ cmd ∈ rest, cmd ∈ commands) → G s → G (put rest s))
    (hexec : ∀ cmd x, G x.session → G (exec cmd x none).state.session)
    (hclose : ∀ s, G s → G s.close) {x : Serving H} (h : G x.session) :
    G (drain exec put commands x).1.session := by
  induction commands generalizing x with
  | nil => exact h
  | cons cmd rest ih =>
    have hrun := hexec cmd { x with session := put rest x.session }
      (hput rest x.session (fun c hc => List.mem_cons_of_mem cmd hc) h)
    unfold drain
    revert hrun
    rcases exec cmd { x with session := put rest x.session } none with ⟨_ | err | _, x', n'⟩
    · exact fun hrun => ih (fun rest' s hrest' =>
        hput rest' s fun c hc => List.mem_cons_of_mem cmd (hrest' c hc)) hrun
    · exact fun hrun => hclose _ hrun
    · exact fun hrun => hclose _ hrun

omit [ProtocolText] [CoreServices H] in
theorem sorted_serveControl {now : UInt64} {w : Shared H} (h : s.Sorted) :
    (serveControl now w s).2.1.Sorted := by
  unfold serveControl
  split
  · exact h
  · exact drain_keeps _ _ _ (fun rest s' hrest hs' => ⟨fun c hc => h.control c (hrest c hc), hs'.normal⟩)
      (fun cmd x hx => hx.of_queues (fixes_queues_executeControlCommand cmd now x none))
      (fun s' hs' => hs'.of_queues rfl) h

theorem sorted_serveNormal {now : UInt64} {w : Shared H} (h : s.Sorted) :
    (serveNormal now w s).2.1.Sorted := by
  unfold serveNormal
  split
  · exact h
  · exact drain_keeps _ _ _ (fun rest s' hrest hs' => ⟨hs'.control, fun c hc => h.normal c (hrest c hc)⟩)
      (fun cmd x hx => hx.of_queues (fixes_queues_executeNormalCommand cmd now x none))
      (fun s' hs' => hs'.of_queues rfl) h

end Commands

/-! ### Reading -/

section Reading

omit [SerdeJsonWriter]

theorem sorted_processIncomingFrame (config : CoreDaemonConfig) (log : EventLog)
    (frame : ClientFrame) :
    Proc.Keeps DaemonClientSession.Sorted (processIncomingFrame config log frame) := by
  have hsend (frame : Frame) : Proc.Keeps DaemonClientSession.Sorted (sendJson frame) :=
    .act fun s hs => hs.of_queues rfl
  refine .bind .get fun s => ?_
  split
  · split
    · exact .fail _
    · refine .bind (.bind .get fun s => ?_) fun version =>
        .bind (hsend _) fun _ => .bind (hsend _) fun _ => .modify fun s hs => hs.of_queues rfl
      split
      · exact .fail _
      · split
        · exact .fail _
        · split
          · exact .fail _
          · exact .bind (.modify fun s hs => hs.of_queues rfl) fun _ => .pure _
  · split
    · exact .fail _
    · rename_i cmd _
      refine .modify fun s hs => ?_
      split
      · rename_i hcontrol
        refine ⟨fun c hc => ?_, hs.normal⟩
        rcases List.mem_append.1 hc with hc | hc
        · exact hs.control c hc
        · rw [List.mem_singleton.1 hc]
          exact hcontrol
      · rename_i hnormal
        refine ⟨hs.control, fun c hc => ?_⟩
        rcases List.mem_append.1 hc with hc | hc
        · exact hs.normal c hc
        · rw [List.mem_singleton.1 hc]
          exact Bool.eq_false_iff.2 hnormal

theorem sorted_readFrames (config : CoreDaemonConfig) (log : EventLog) (now : UInt64)
    (budget : Nat) (h : s.Sorted) : (readFrames config log now budget s).1.Sorted := by
  induction budget generalizing s with
  | zero => exact h
  | succ budget ih =>
    unfold readFrames Connection.recvFrame
    rcases s.connection.incoming.head? with _ | ⟨frame⟩ | _
    · exact h
    · have hframe : ({ s with
          connection := { s.connection with incoming := s.connection.incoming.tail },
          lastActivityAt := now } : DaemonClientSession).Sorted := h.of_queues rfl
      have hrun := (sorted_processIncomingFrame config log frame).state (n := none) hframe
      dsimp only
      revert hrun
      rcases processIncomingFrame config log frame _ none with ⟨_ | err | _, s', n'⟩
      · exact fun hrun => ih hrun
      · exact fun hrun => hrun.of_queues rfl
      · exact fun hrun => hrun.of_queues rfl
    · exact h.of_queues rfl

theorem sorted_readSession (config : CoreDaemonConfig) (log : EventLog) (now : UInt64)
    (h : s.Sorted) : (readSession config log now s).1.Sorted := by
  have hread := sorted_readFrames config log now maxFramesPerStepPerSession h
  unfold readSession
  split
  · exact h
  · dsimp only
    split
    · exact hread
    · split
      · exact hread.of_queues rfl
      · exact hread

theorem sorted_deliver (e : EventEnvelope) (h : s.Sorted) : (deliver e s).1.Sorted := by
  unfold deliver
  split
  · split
    · exact h.of_queues rfl
    · exact h.of_queues rfl
  · exact h

theorem sorted_broadcast (events : List EventEnvelope) {sessions : List DaemonClientSession}
    (h : ∀ s ∈ sessions, s.Sorted) : ∀ s ∈ (broadcast events sessions).1, s.Sorted := by
  induction events generalizing sessions with
  | nil => exact h
  | cons e rest ih =>
    refine ih fun s hs => ?_
    rw [visit_alone] at hs
    obtain ⟨t, ht, rfl⟩ := List.mem_map.1 hs
    exact sorted_deliver e (h t ht)

end Reading

/-! ### Steps and runs -/

section Runs

/-- The queues of all sessions are sorted. -/
def CoreDaemon.Sorted (d : CoreDaemon H) : Prop := ∀ s ∈ d.sessions, s.Sorted

omit [SerdeJsonWriter] in
theorem sorted_visit {W : Type} {f : W → DaemonClientSession → W × DaemonClientSession × Bool}
    (hf : ∀ w s, s.Sorted → (f w s).2.1.Sorted) {i : Nat} {w : W}
    {sessions : List DaemonClientSession} (h : ∀ s ∈ sessions, s.Sorted) :
    ∀ s ∈ (visit f i w sessions).2.1, s.Sorted :=
  (visit_keeps (S := fun _ => True) (R := fun _ _ => True) (G := fun _ s => s.Sorted)
    (fun _ => trivial) (fun _ _ _ _ _ => trivial) (fun _ _ _ _ h => h)
    (fun w s _ hs _ => ⟨trivial, trivial, hf w s hs⟩) trivial h (visitMeets_true w sessions)).2.2

variable {d : CoreDaemon H}

theorem CoreDaemon.Sorted.accept (h : d.Sorted) (now : UInt64) :
    ∀ s ∈ (d.accept now).sessions, s.Sorted := by
  intro s hs
  rcases (acceptConnections_cases d.config.maxClientSessions now d.listener d.sessions 0).1 s hs with
    hs | ⟨c, -, rfl⟩
  · exact h s hs
  · exact ⟨(fun cmd hcmd => by cases hcmd), (fun cmd hcmd => by cases hcmd)⟩

theorem CoreDaemon.Sorted.read (h : d.Sorted) (now : UInt64) : ∀ s ∈ (d.read now).1, s.Sorted :=
  sorted_visit (fun _ _ hs => sorted_readSession _ _ _ hs) (h.accept now)

variable [HarnessRuntimePort H] [DefaultHasher] [ErrorText] [ProtocolText] [CoreServices H]

theorem CoreDaemon.Sorted.normal (h : d.Sorted) (now : UInt64) :
    ∀ s ∈ (d.normal now).2.1, s.Sorted :=
  sorted_visit (fun _ _ hs => sorted_serveNormal hs)
    (sorted_visit (fun _ _ hs => sorted_serveControl hs) (h.read now))

variable [QueuedHarness H]

theorem CoreDaemon.Sorted.step (h : d.Sorted) (now : UInt64) : (d.step now).2.Sorted := by
  have hfinish (w : Shared H) (es : List EventEnvelope) : (d.finish now w es).2.Sorted := by
    have hsent := sorted_broadcast (w.broadcastEvents ++ es) (h.normal now)
    have hrest : ({ d.put w (evict (broadcast (w.broadcastEvents ++ es) (d.normal now).2.1).1
        ((d.read now).2 ++ (d.control now).2.2 ++ (d.normal now).2.2 ++
          (broadcast (w.broadcastEvents ++ es) (d.normal now).2.1).2)) with
        listener := (d.accept now).listener } : CoreDaemon H).Sorted :=
      fun s hs => hsent s (mem_of_mem_evict hs)
    unfold CoreDaemon.finish
    dsimp only
    split
    · exact hrest.accept now
    · exact hrest.accept now
  unfold CoreDaemon.step
  split
  · exact h.accept now
  · split
    · exact hfinish _ _
    · exact h.normal now
    · exact h.normal now

theorem CoreDaemon.Sorted.on (h : d.Sorted) (i : DaemonInput H) : (d.on i).Sorted := by
  cases i with
  | connect => exact h
  | acceptFails => exact h
  | client index action =>
    intro s hs
    obtain ⟨j, hj⟩ := List.mem_iff_getElem?.1 hs
    change (d.sessions.modify index _)[j]? = some s at hj
    rw [List.getElem?_modify] at hj
    obtain ⟨t, ht, rfl⟩ := Option.map_eq_some_iff.1 hj
    have hsorted := h t (List.mem_of_getElem? ht)
    split
    · exact hsorted.of_queues rfl
    · exact hsorted
  | agents => exact h
  | step now => exact h.step now

/-- The queues are sorted in every run. -/
theorem sorted_run (harness : H) (store : Store) (config : CoreDaemonConfig) (noise : UInt64)
    (inputs : List (DaemonInput H)) :
    ((daemonMachine (.new harness store config noise)).run inputs).Sorted :=
  (daemonMachine (.new harness store config noise)).invariant (I := CoreDaemon.Sorted)
    (fun _ i h => h.on i) (fun s hs => by cases hs) inputs

end Runs

end Queues

end Altior.Application
