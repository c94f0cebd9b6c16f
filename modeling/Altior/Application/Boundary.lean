import Altior.Application.Isolation

/-!
# What is broadcast

The envelopes that are broadcast come from runtime events.  None of them is the
boundary of a catch-up, so none of them answers a command.
-/

namespace Altior.Application

open Domain Lib Storage Altior.Runtime
open Serving (onApp onShared onSession send)

variable [SerdeJsonWriter] {H : Type}

theorem plain_mapRuntimeToEventBody {event : RuntimeEvent} {body : EventBody}
    (h : mapRuntimeToEventBody event = .ok body) {e : EventEnvelope} (he : e.body = body) :
    e.isBoundary = false := by
  have hplain {maxBytes : Nat} {text : String} {f : BoundedText maxBytes → EventBody}
      (hf : ∀ t, { e with body := f t }.isBoundary = false)
      (h : (do pure (f (← boundedText maxBytes text)) : Except CoreAppError EventBody) = .ok body) :
      e.isBoundary = false := by
    obtain ⟨t, -, heq⟩ := bind_eq_ok.1 h
    cases heq
    have hbody := hf t
    rw [← he] at hbody
    exact hbody
  cases event with
  | turnStarted | turnCompleted | toolCall | turnCancelled =>
    cases h
    simp [EventEnvelope.isBoundary, he]
  | messageDelta | permissionRequested | turnFailed | processExited | unknown =>
    exact hplain (fun _ => rfl) h

/-- An envelope of a runtime event is no boundary. -/
theorem plain_publishRuntimeEvent (event : RuntimeEvent) (operationId : Option OperationId)
    (turnId : Option TurnId) (now : UInt64) (withStore : Bool) :
    Proc.Spec (fun _ => True)
      (publishRuntimeEvent (H := H) event operationId turnId now withStore)
      (fun e _ => e.isBoundary = false) (fun _ _ => True) fun _ => True :=
  (body_publishRuntimeEvent event operationId turnId now withStore).mono (fun _ h => h)
    (fun _ _ hbody => plain_mapRuntimeToEventBody hbody rfl) (fun _ _ h => h) fun _ h => h

section Pump

variable [HarnessRuntimePort H]

theorem plain_pollThreadEvents (threadId : ThreadId) (now : UInt64) :
    Proc.Spec (fun _ => True) (pollThreadEvents (H := H) threadId now)
      (fun r _ => ∀ e, r = some e → e.isBoundary = false) (fun _ _ => True) fun _ => True := by
  have hpoll : Proc.Ends (pollStream (H := H) 0) :=
    keeps_pollStream quiet_anything
      ⟨⟨fun _ _ _ h => h, fun _ _ _ h => h⟩, fun _ _ _ h => h⟩ 0
  refine .bind (M := fun _ _ => True) (Proc.Ends.mapError (ends_onThread hpoll threadId))
    fun r => ?_
  split
  · exact .pure fun _ _ e he => by cases he
  · refine .bind (plain_publishRuntimeEvent _ none none now true) fun e => .pure fun _ h e' he' => ?_
    cases he'
    exact h

/-- What a pump collects holds no boundary. -/
theorem Pumps.plain {now : UInt64} {threads : List ThreadId} {w w' : Shared H}
    {es : List EventEnvelope} (h : Pumps now threads w es w') :
    w'.broadcastEvents = w.broadcastEvents ∧ ∀ e ∈ es, e.isBoundary = false := by
  induction h with
  | nil => exact ⟨rfl, fun e he => by cases he⟩
  | dry _ _ ih => exact ih
  | @more threadId rest w w' e es app hpoll _ ih =>
    refine ⟨ih.1, fun e' he' => ?_⟩
    rcases List.mem_cons.1 he' with rfl | he'
    · have hspec := plain_pollThreadEvents threadId now w.app none trivial
      rw [hpoll] at hspec
      exact hspec.1 _ rfl
    · exact ih.2 e' he'

end Pump

/-- What is queued for the broadcast holds no boundary. -/
def Shared.Plain (w : Shared H) : Prop := ∀ e ∈ w.broadcastEvents, e.isBoundary = false

theorem Shared.Plain.of_face {w w' : Shared H} (h : w.Plain) (hface : w'.face = w.face) :
    w'.Plain := by
  simp only [Shared.face, Prod.mk.injEq] at hface
  unfold Shared.Plain
  rw [hface.2.2]
  exact h

/-- What is queued for the broadcast, beside a session. -/
def Serving.queued (x : Serving H) : List EventEnvelope := x.shared.broadcastEvents

/-- A subscription queues nothing. -/
theorem fixes_queued_handleSubscribe (operationId : OperationId) (payload : Option Json)
    (now : UInt64) :
    Proc.Fixes (Serving.queued (H := H)) (handleSubscribe operationId payload now) := by
  have hshared {α : Type} {m : Proc (Shared H) CoreAppError α}
      (hm : Proc.Fixes Shared.broadcastEvents m) : Proc.Fixes Serving.queued (onShared m) :=
    .zoom_part (fun _ _ heq => heq) hm
  have hsession {α : Type} (m : Proc DaemonClientSession CoreAppError α) :
      Proc.Fixes (Serving.queued (H := H)) (onSession m) := .zoom fun _ _ => rfl
  have hboundary (boundary : EventEnvelope) :
      Proc.Fixes (Serving.queued (H := H)) (publishBoundary boundary) :=
    hshared (.bind (.zoom fun _ _ => rfl) fun _ => .bind (.modify fun _ => rfl) fun _ => .pure _)
  have hevents (events : List EventEnvelope) :
      Proc.Fixes (Serving.queued (H := H)) (sendEvents events) := by
    induction events with
    | nil => exact .pure _
    | cons e rest ih => exact .bind (hsession _) fun _ => ih
  have haccept (eventId : EventId) :
      Proc.Fixes (Serving.queued (H := H)) (acceptSubscribe operationId payload eventId now) := by
    refine .bind .get fun x => ?_
    split
    · exact .fail _
    · split
      · exact .fail _
      · refine .bind (.ofExcept _) fun since => .bind (hsession _) fun _ => ?_
        split
        · exact .bind (hboundary _) fun _ => .pure _
        · exact .bind (hboundary _) fun _ => .pure _
        · exact .pure _
  refine .bind (hshared (.zoom fun _ _ => rfl)) fun eventId => .bind (haccept eventId) fun _ => ?_
  split
  · exact .bind (hevents _) fun _ => .bind (hsession _) fun _ => hsession _
  · exact .bind (hsession _) fun _ => hsession _
  · exact hsession _

section Commands

variable [HarnessRuntimePort H] [DefaultHasher] [ErrorText]

/-- The envelope of a start is no boundary. -/
theorem plain_startPromptEnvelope (operationId : OperationId) (threadId : ThreadId)
    (turnId : TurnId) (content : String) (now : UInt64)
    (assemble : Store → Except CoreAppError AssembledContext) :
    Proc.Spec (fun _ => True)
      (startPromptEnvelope (H := H) operationId threadId turnId content now assemble)
      (fun r _ => ∀ e, r.2 = some e → e.isBoundary = false) (fun _ _ => True) fun _ => True := by
  have hnone {r : TurnAdmission × Option EventEnvelope} (hr : r.2 = none) :
      Proc.Spec (fun _ : CoreApplication H => True) (pure r : Proc _ CoreAppError _)
        (fun r _ => ∀ e, r.2 = some e → e.isBoundary = false) (fun _ _ => True) fun _ => True :=
    .pure fun _ _ e he => by rw [hr] at he; cases he
  refine .bind (M := fun _ _ => True) (.get fun _ _ => trivial) fun s => ?_
  split
  · exact .fail fun _ _ => trivial
  refine .bind (M := fun _ _ => True) (Proc.Ends.ofExcept _) fun _ =>
    .bind (M := fun _ _ => True) (Proc.Ends.ofExcept _) fun admission => ?_
  split
  · exact hnone rfl
  refine .bind (M := fun _ _ => True) (Proc.Ends.ofExcept _) fun assembled =>
    .bind (M := fun _ _ => True) ?_ fun _ =>
      .bind (M := fun _ _ => True) (Proc.Ends.attempt (.act _)) fun r => ?_
  · exact Proc.Ends.bind (.ofExcept _) fun _ => .bind (ends_nextEventId now) fun _ =>
      .bind (ends_appendDomainEvent _) fun _ => .pure _
  split
  · exact .bind (M := fun _ _ => True) (Proc.Ends.ignore (ends_persistTurnFailed _ _ _ _ _))
      fun _ => .fail fun _ _ => trivial
  refine .bind (M := fun _ _ => True)
    (Proc.Ends.attempt (ends_onThread (ends_prompt _ _ _ _) _)) fun r => ?_
  split
  · refine .bind (plain_publishRuntimeEvent _ _ _ _ _) fun e => .pure fun _ h e' he' => ?_
    cases he'
    exact h
  · exact hnone rfl
  · refine .bind (M := fun _ _ => True)
      (Proc.Ends.attempt (ends_persistTurnFailed _ _ _ _ _)) fun r => ?_
    split
    · exact .fail fun _ _ => trivial
    · exact .fail fun _ _ => trivial

variable [CoreServices H]

theorem plain_startTurn (operationId : OperationId) (payload : Except ProtocolError StartTurnCommand)
    (now : UInt64) : Proc.Spec (fun _ => True) (startTurn (H := H) operationId payload now)
      (fun r _ => ∀ e, r.2.2 = some e → e.isBoundary = false) (fun _ _ => True) fun _ => True := by
  have honApp {α : Type} {m : Proc (CoreApplication H) CoreAppError α} {Q : α → Prop}
      (hm : Proc.Spec (fun _ => True) m (fun a _ => Q a) (fun _ _ => True) fun _ => True) :
      Proc.Spec (fun _ => True) (onApp m) (fun a _ => Q a) (fun _ _ => True) fun _ => True := by
    unfold Serving.onApp Serving.onShared Shared.onApp
    exact .zoom fun _ _ => .zoom fun _ _ => hm.mono (fun _ _ => trivial) (fun _ _ h => h)
      (fun _ _ h => h) fun _ h => h
  have hprompt (payload : StartTurnCommand) (turnId : TurnId) :
      Proc.Spec (fun _ => True) (do
        let started ← onApp (startPromptEnvelope (H := H) operationId payload.threadId turnId
          payload.prompt.asStr now (CoreServices.assembleContext H operationId payload.threadId
            turnId payload.prompt.asStr now))
        recordStart turnId started)
        (fun r _ => ∀ e, r.2.2 = some e → e.isBoundary = false) (fun _ _ => True)
        fun _ => True := by
    refine .bind (honApp (plain_startPromptEnvelope _ _ _ _ _ _)) fun started => ?_
    unfold recordStart
    split
    · rename_i envelope hsome
      unfold Serving.onShared
      refine .bind (M := fun _ _ => envelope.isBoundary = false) (.zoom fun _ h =>
        .modify fun _ _ => h envelope hsome) fun _ => .pure fun _ h e he => ?_
      cases he
      exact h
    · exact .pure fun _ _ e he => by cases he
  refine .bind (M := fun _ _ => True) (Proc.Ends.ofExcept _) fun payload => ?_
  dsimp only
  split
  · exact hprompt payload _
  · exact .bind (M := fun _ _ => True) (ends_allocate fun ids => ids.newTurnId now)
      fun turnId => hprompt payload turnId

variable [ProtocolText]

/-- A start queues its envelope or nothing. -/
theorem plain_handleStartTurn {x : Serving H} (h : x.shared.Plain) (operationId : OperationId)
    (payload : Except ProtocolError StartTurnCommand) (now : UInt64) :
    (handleStartTurn operationId payload now x none).state.shared.Plain := by
  obtain ⟨houtcome, hleft⟩ := startOutcome_startTurn operationId payload now x
  have hplain := plain_startTurn operationId payload now x none trivial
  unfold handleStartTurn answer
  rw [Proc.bind_run]
  unfold Proc.attempt
  revert houtcome hleft hplain
  rcases startTurn operationId payload now x none with ⟨ending, x', left⟩
  rintro (⟨turnId, admission, e, rfl, hstarted⟩ | ⟨turnId, admission, rfl, hidle⟩ | ⟨err, rfl, hidle⟩)
    hleft hplain
  · obtain rfl : left = none := hleft
    have hx' : x'.shared.Plain := fun e he => h e (hstarted.queued ▸ he)
    have hface := fixes_replyResult operationId (some (startTurnData turnId admission)) now x' none
    dsimp only
    rw [Proc.bind_run]
    revert hface
    rcases replyResult operationId (some (startTurnData turnId admission)) now x' none with
      ⟨_ | _ | _, x'', left⟩
    · intro hface e' he'
      rcases List.mem_append.1 he' with he' | he'
      · exact hx'.of_face (congrArg Prod.fst hface) e' he'
      · rw [List.mem_singleton.1 he']
        exact hplain.1 e rfl
    · exact fun hface => hx'.of_face (congrArg Prod.fst hface)
    · exact fun hface => hx'.of_face (congrArg Prod.fst hface)
  · have hfixed : Proc.Fixes Serving.face (do
        replyResult operationId (some (startTurnData turnId admission)) now
        queueBroadcast (H := H) none) := .bind (fixes_replyResult _ _ _) fun _ => .pure _
    exact h.of_face (congrArg Prod.fst ((hfixed x' left).trans hidle.serving))
  · exact h.of_face (congrArg Prod.fst ((fixes_replyError _ _ _ _ x' left).trans hidle.serving))

theorem plain_executeNormalCommand {x : Serving H} (h : x.shared.Plain) (cmd : CommandEnvelope)
    (now : UInt64) : (executeNormalCommand cmd now x none).state.shared.Plain := by
  obtain ⟨operationId, command⟩ := cmd
  cases command with
  | subscribe payload =>
    change ∀ e ∈ (handleSubscribe operationId payload now x none).state.queued, _
    rw [fixes_queued_handleSubscribe operationId payload now x none]
    exact h
  | startTurn payload => exact plain_handleStartTurn h operationId payload now
  | _ =>
    exact h.of_face (congrArg Prod.fst
      (fixes_executeNormalCommand (by simp) (by simp) now x none))

/-- The commands of a step queue no boundary. -/
theorem CoreDaemon.plain_normal (d : CoreDaemon H) (now : UInt64) : (d.normal now).1.Plain := by
  have hvisit {f : Shared H → DaemonClientSession → Shared H × DaemonClientSession × Bool}
      (hf : ∀ w s, w.Plain → (f w s).1.Plain) {w : Shared H} (hw : w.Plain)
      (sessions : List DaemonClientSession) : (visit f 0 w sessions).1.Plain :=
    (visit_keeps (S := Shared.Plain) (R := fun _ _ => True) (G := fun _ _ => True)
      (fun _ => trivial) (fun _ _ _ _ _ => trivial) (fun _ _ _ _ h => h)
      (fun w s hw _ _ => ⟨hf w s hw, trivial, trivial⟩) hw (fun _ _ => trivial)
      (visitMeets_true w sessions)).1
  have hdrain {exec : CommandEnvelope → Proc (Serving H) CoreAppError Unit}
      {put : List CommandEnvelope → DaemonClientSession → DaemonClientSession}
      (hexec : ∀ cmd x, x.shared.Plain → (exec cmd x none).state.shared.Plain)
      (commands : List CommandEnvelope) {x : Serving H} (hx : x.shared.Plain) :
      (drain exec put commands x).1.shared.Plain := by
    induction commands generalizing x with
    | nil => exact hx
    | cons cmd rest ih =>
      have hrun := hexec cmd { x with session := put rest x.session } hx
      unfold drain
      revert hrun
      rcases exec cmd { x with session := put rest x.session } none with ⟨_ | err | _, x', n'⟩
      · exact fun hrun => ih hrun
      · exact fun hrun => hrun
      · exact fun hrun => hrun
  refine hvisit (fun w s hw => ?_) (hvisit (fun w s hw => ?_) (fun e he => by cases he) _) _
  · unfold serveNormal
    split
    · exact hw
    · exact hdrain (fun cmd x hx => plain_executeNormalCommand hx cmd now) _ hw
  · unfold serveControl
    split
    · exact hw
    · exact hdrain (fun cmd x hx => hx.of_face
        (congrArg Prod.fst (fixes_executeControlCommand cmd now x none))) _ hw

variable [QueuedHarness H]

/-- What a step broadcasts holds no boundary, so it answers no command. -/
theorem CoreDaemon.plain_pump (d : CoreDaemon H) (now : UInt64) {es : List EventEnvelope}
    {w : Shared H} {left : Option Nat} (h : d.pump now = ⟨.done es, w, left⟩)
    {e : EventEnvelope} (he : e ∈ w.broadcastEvents ++ es) (operationId : OperationId) :
    (Frame.event e).isReplyTo operationId = false := by
  have hplain : e.isBoundary = false := by
    rcases pumpThreads_cases now (threadIds (d.normal now).1.app) (d.normal now).1 with
      ⟨es', w', hpump, hpumps⟩ | ⟨err, w', hpump, -⟩
    · rw [show d.pump now = _ from hpump] at h
      cases h
      rcases List.mem_append.1 he with he | he
      · rw [hpumps.plain.1] at he
        exact d.plain_normal now e he
      · exact hpumps.plain.2 e he
    · rw [show d.pump now = _ from hpump] at h
      cases h
  simp [Frame.isReplyTo, hplain]

end Commands

end Altior.Application
