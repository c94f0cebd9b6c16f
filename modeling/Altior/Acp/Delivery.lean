import Altior.Acp.Permissions
import Altior.Acp.Events

/-!
# The classification of a delivery

When a prompt returns, its delivery should say what is known of it, with nothing
left open.  That is so when the stream was lost and when the agent finished the
prompt, and only then: every other way out of the loop leaves the delivery open,
and the worker reports every failure as indeterminate.
-/

namespace Altior.Acp

open Domain Lib Altior.Runtime

/-! ## The claim on a run -/

/-- No byte of the prompt went into the pipe. -/
def NoByteSent (log : List Observed) : Prop :=
  ∀ id params outcome, .sent (.request id "session/prompt" params) outcome ∈ log →
    outcome.consumed = false

/-- The agent answered the prompt with a result. -/
def Finished (promptId : RpcId) (log : List Observed) : Prop :=
  ∃ result, .received (.response promptId result) ∈ log

/-- The agent answered the prompt with an error. -/
def Refused (promptId : RpcId) (log : List Observed) : Prop :=
  ∃ error, .received (.errorResponse promptId error) ∈ log

variable {σ : Type}

/-- **The delivery is classified.** The state says what the log shows, nothing is
left open, and a failure is reported with this state. -/
structure Classified [SerdeJson] (promptId : RpcId) (r : Except AcpError StopReason) (t : Turn σ) :
    Prop where
  absent : t.runtime.delivery.state = .absent ↔ NoByteSent t.log
  confirmed : t.runtime.delivery.state = .confirmed ↔ Finished promptId t.log
  rejected : t.runtime.delivery.state = .rejected ↔ Refused promptId t.log
  settled : t.runtime.delivery.outstanding = false
  idle : ¬ t.runtime.phase.Running
  told : ∀ error delivery, .failed error delivery ∈ terminalEvents r →
    delivery = t.runtime.delivery.state

section EndsWell

variable [AcpSerde]

/-- The run ends with the loss of the stream, or with a result the adapter can
read, to a process that was not gone before; every line the host wrote went
through, and no handler cancels a turn that is being cancelled already. -/
def EndsWell (initial : AgentPhase) (promptId : RpcId) (log : List Observed) : Prop :=
  lastRead log = some .lost ∨
    (∃ result stopReason, lastRead log = some (.received (.response promptId result)) ∧
      AcpSerde.promptResult result = .ok stopReason) ∧
    initial ≠ .killing ∧ initial ≠ .dead ∧
    (∀ m outcome, .sent m outcome ∈ log → outcome = .written) ∧
    ∀ pending, initial = .cancelling pending → .handled (.error .cancelled) ∉ log

/-- How a prompt returned, if it did. -/
def returned : Ending AcpError (Option StopReason) → Option (Except AcpError StopReason)
  | .done (some stopReason) => some (.ok stopReason)
  | .failed e => some (.error e)
  | _ => none

end EndsWell

/-! ## While the prompt is unanswered -/

/-- The agent answers the prompt. -/
def Observed.concludes (promptId : RpcId) : Observed → Bool
  | received (.response id _) => decide (id = promptId)
  | received (.errorResponse id _) => decide (id = promptId)
  | _ => false

/-- The prompt was written and not answered up to `last`. -/
structure Live (passing : Bool) (initial : AgentPhase) (promptId : RpcId) (last : Option RpcMessage)
    (t : Turn σ) : Prop where
  delivery : t.runtime.delivery = .unanswered
  tracks : Tracks initial (passing || t.cancelSent) t.runtime.phase
  sent : ∃ id params, .sent (.request id "session/prompt" params) .written ∈ t.log
  writes : ∀ m outcome, .sent m outcome ∈ t.log → outcome = .written
  read : lastRead t.log = last.map .received
  before : ∀ x ∈ t.log, x.concludes promptId = true → last.map .received = some x

/-- No handler cancelled a turn that is being cancelled already. -/
def Uncancelled (initial : AgentPhase) (t : Turn σ) : Prop :=
  ∀ pending, initial = .cancelling pending → .handled (.error .cancelled) ∉ t.log

/-- The message does not answer the prompt. -/
def Open (promptId : RpcId) (last : Option RpcMessage) : Prop :=
  ∀ m, last = some m → (Observed.received m).concludes promptId = false

variable {passing : Bool} {initial : AgentPhase} {promptId : RpcId} {last : Option RpcMessage}

variable {t : Turn σ}

/-- An observation that is no read. -/
theorem Live.observe (h : Live passing initial promptId last t) (peer : σ) {x : Observed}
    (hread : x.isRead = false) (hwritten : ∀ m outcome, x = .sent m outcome → outcome = .written) :
    Live passing initial promptId last (t.observe peer [x]) where
  delivery := h.delivery
  tracks := h.tracks
  sent := by
    obtain ⟨id, params, hsent⟩ := h.sent
    exact ⟨id, params, List.mem_append_left _ hsent⟩
  writes m outcome hmem := by
    rcases List.mem_append.1 hmem with hmem | hmem
    · exact h.writes m outcome hmem
    · exact hwritten m outcome (List.mem_singleton.1 hmem).symm
  read := by
    change lastRead (t.log ++ [x]) = _
    rw [lastRead_concat, hread]
    exact h.read
  before y hmem hy := by
    rcases List.mem_append.1 hmem with hmem | hmem
    · exact h.before y hmem hy
    · rw [List.mem_singleton.1 hmem] at hy
      cases x with
      | received m => cases hread
      | _ => cases hy

/-- The next message. -/
theorem Live.receive (h : Live passing initial promptId last t) (hopen : Open promptId last)
    (peer : σ) (m : RpcMessage) :
    Live passing initial promptId (some m) (t.observe peer [.received m]) where
  delivery := h.delivery
  tracks := h.tracks
  sent := by
    obtain ⟨id, params, hsent⟩ := h.sent
    exact ⟨id, params, List.mem_append_left _ hsent⟩
  writes m outcome hmem := by
    rcases List.mem_append.1 hmem with hmem | hmem
    · exact h.writes m outcome hmem
    · cases List.mem_singleton.1 hmem
  read := lastRead_concat t.log (.received m)
  before y hmem hy := by
    rcases List.mem_append.1 hmem with hmem | hmem
    · -- an earlier answer would have been the last message
      obtain ⟨m', rfl, hm'⟩ := Option.map_eq_some_iff.1 (h.before y hmem hy)
      rw [← hm', hopen m' rfl] at hy
      cases hy
    · rw [List.mem_singleton.1 hmem]
      rfl

theorem Uncancelled.observe (h : Uncancelled initial t) (peer : σ) {x : Observed}
    (hx : x ≠ .handled (.error .cancelled)) : Uncancelled initial (t.observe peer [x]) := by
  intro pending hinitial hmem
  rcases List.mem_append.1 hmem with hmem | hmem
  · exact h pending hinitial hmem
  · exact hx (List.mem_singleton.1 hmem).symm

section Specs

variable [AcpSerde]

/-- The delivery is left open, and the run does not end well. -/
def Unsettled (initial : AgentPhase) (promptId : RpcId) (t : Turn σ) : Prop :=
  t.runtime.delivery.outstanding = true ∧ ¬ EndsWell initial promptId t.log

/-- A run that did not end well. -/
theorem not_endsWell {log : List Observed} (last : Option RpcMessage)
    (hread : lastRead log = last.map .received)
    (h : ∀ result, last = some (.response promptId result) →
      (∃ m outcome, .sent m outcome ∈ log ∧ outcome ≠ .written) ∨ initial = .killing ∨
      initial = .dead ∨ (∃ pending, initial = .cancelling pending ∧
        .handled (.error .cancelled) ∈ log) ∨ ∃ e, AcpSerde.promptResult result = .error e) :
    ¬ EndsWell initial promptId log := by
  rintro (hlost | ⟨⟨result, stopReason, hresult, hstop⟩, hkilling, hdead, hwrites, hhandled⟩)
  · rw [hread] at hlost
    cases last <;> cases hlost
  · rw [hread] at hresult
    have hlast : last = some (.response promptId result) := by
      cases last with
      | none => cases hresult
      | some m =>
        cases hresult
        rfl
    rcases h result hlast with ⟨m, outcome, hmem, hne⟩ | rfl | rfl | ⟨pending, hinitial, hmem⟩ |
      ⟨e, he⟩
    · exact hne (hwrites m outcome hmem)
    · exact hkilling rfl
    · exact hdead rfl
    · exact hhandled pending hinitial hmem
    · cases he.symm.trans hstop

/-- Leaving the loop before the prompt is answered. -/
theorem Live.unsettled (h : Live passing initial promptId last t)
    (hopen : ∀ result, last = some (.response promptId result) → initial = .killing ∨
      initial = .dead ∨ ∃ pending, initial = .cancelling pending ∧
        .handled (.error .cancelled) ∈ t.log) : Unsettled initial promptId t := by
  refine ⟨by rw [h.delivery]; rfl, not_endsWell _ h.read fun result hlast => .inr ?_⟩
  rcases hopen result hlast with h | h | h
  · exact .inl h
  · exact .inr (.inl h)
  · exact .inr (.inr (.inl h))

theorem Live.unsettled_of_open (h : Live passing initial promptId last t)
    (hopen : Open promptId last) : Unsettled initial promptId t :=
  h.unsettled fun result hlast => by
    have hnot := hopen _ hlast
    simp [Observed.concludes] at hnot

/-- A failed write leaves the delivery open. -/
theorem Live.failed (h : Live passing initial promptId last t) (peer : σ) (m : RpcMessage)
    (e : AcpError) (partly : Bool) :
    Unsettled initial promptId (t.observe peer [.sent m (.failed e partly)]) := by
  have hmem : Observed.sent m (.failed e partly) ∈ t.log ++ [.sent m (.failed e partly)] :=
    List.mem_append_right _ (List.mem_singleton_self _)
  refine ⟨?_, not_endsWell last ?_ fun _ _ => .inl ⟨m, _, hmem, nofun⟩⟩
  · change t.runtime.delivery.outstanding = true
    rw [h.delivery]
    rfl
  · change lastRead (t.log ++ [_]) = _
    rw [lastRead_concat]
    exact h.read

/-- The prompt is unanswered, and no handler cancelled too late. -/
def Waiting (initial : AgentPhase) (promptId : RpcId) (last : Option RpcMessage) (t : Turn σ) :
    Prop :=
  Live false initial promptId last t ∧ Uncancelled initial t

section Transport

variable [ProcessTransport σ]

theorem ensures_write_live (m : RpcMessage) :
    Ensures (Live passing initial promptId last) (write m : Proc (Turn σ) _ _)
      (fun _ => Live passing initial promptId last) fun _ => Unsettled initial promptId :=
  ensures_write (fun t peer h => h.observe peer rfl fun _ _ heq => by cases heq; rfl)
    fun t peer e partly h => h.failed peer m e partly

theorem ensures_write_waiting (m : RpcMessage) :
    Ensures (Waiting initial promptId last) (write m : Proc (Turn σ) _ _)
      (fun _ => Waiting initial promptId last) fun _ => Unsettled initial promptId :=
  ensures_write (fun t peer h => ⟨h.1.observe peer rfl fun _ _ heq => by cases heq; rfl,
    h.2.observe peer nofun⟩) fun t peer e partly h => h.1.failed peer m e partly

/-- A cancel was seen, and none was passed on before. -/
structure Cancelling (initial : AgentPhase) (promptId : RpcId) (last : Option RpcMessage)
    (t : Turn σ) : Prop where
  live : Live false initial promptId last t
  unsent : t.cancelSent = false
  seen : ∀ pending, initial = .cancelling pending →
    Open promptId last ∨ .handled (.error .cancelled) ∈ t.log

/-- Passing a cancel on; a turn that is being cancelled already refuses it. -/
theorem ensures_passCancel_live (sessionId : String) :
    Ensures (Cancelling initial promptId last) (passCancel sessionId : Proc (Turn σ) _ _)
      (fun _ => Waiting initial promptId last) fun _ => Unsettled initial promptId := by
  have hexec (pending : List RpcId) : Ensures (Live true initial promptId last)
      (executeHostActions sessionId (pending.map .answerPermissionCancelled) : Proc (Turn σ) _ _)
      (fun _ => Live true initial promptId last) fun _ => Unsettled initial promptId := by
    induction pending with
    | nil => exact .pure fun _ h => h
    | cons id rest ih => exact .bind (ensures_write_live _) fun _ => ih
  -- a cancel that is accepted shows that no cancel came before the prompt
  have hbefore {t t' : Turn σ} (h : Live true initial promptId last t) : Uncancelled initial t' := by
    rintro pending rfl
    exact nomatch h.tracks.1
  refine .bind (M := fun _ => Live true initial promptId last) ?_ fun _ => .modify fun t h =>
    ⟨⟨h.delivery, h.tracks, h.sent, h.writes, h.read, h.before⟩, hbefore h⟩
  refine .bind (M := fun actions t => Live true initial promptId last t ∧
      ∃ pending : List RpcId, actions = .sendCancelNotification ::
        pending.map .answerPermissionCancelled)
    (ensures_reportPhase ?_ ?_) fun actions => ?_
  · intro t actions phase hreport ht
    have htracks := ht.live.tracks
    cases hphase : t.runtime.phase with
    | prompting pending =>
      rw [hphase] at hreport htracks
      cases hreport
      exact ⟨⟨ht.live.delivery, htracks.cancel, ht.live.sent, ht.live.writes, ht.live.read,
        ht.live.before⟩, pending, rfl⟩
    | ready | cancelling _ | killing | dead =>
      rw [hphase] at hreport
      cases hreport
  · intro t e hreport ht
    have htracks := ht.live.tracks
    rw [ht.unsent] at htracks
    cases initial with
    | ready | prompting _ =>
      obtain ⟨pending, hphase⟩ := htracks
      rw [hphase] at hreport
      cases hreport
    | cancelling pending =>
      rcases ht.seen pending rfl with hopen | hmem
      · exact ht.live.unsettled_of_open hopen
      · exact ht.live.unsettled fun _ _ => .inr (.inr ⟨pending, rfl, hmem⟩)
    | killing => exact ht.live.unsettled fun _ _ => .inl rfl
    | dead => exact ht.live.unsettled fun _ _ => .inr (.inl rfl)
  · intro t n ht
    obtain ⟨hlive, pending, rfl⟩ := ht
    exact Proc.Spec.bind (ensures_write_live (buildCancel sessionId)) (fun _ => hexec pending) t n
      hlive

/-- The run ended and is classified exactly if it ended well. -/
def Exact [SerdeJson] (initial : AgentPhase) (promptId : RpcId) (r : Except AcpError StopReason)
    (t : Turn σ) : Prop :=
  Classified promptId r t ↔ EndsWell initial promptId t.log

variable [SerdeJson]

omit [ProcessTransport σ] in
theorem Unsettled.exact (h : Unsettled initial promptId t) (r : Except AcpError StopReason) :
    Exact initial promptId r t :=
  iff_of_false (fun hclass => nomatch hclass.settled.symm.trans h.1) h.2

omit [ProcessTransport σ] in
/-- A computation that leaves the delivery open where it fails. -/
theorem exact_of_unsettled {α : Type} {P : Turn σ → Prop} {m : Proc (Turn σ) AcpError α}
    {Q : α → Turn σ → Prop} (h : Ensures P m Q fun _ => Unsettled initial promptId) :
    Ensures P m Q fun e => Exact initial promptId (.error e) :=
  h.mono (fun _ h => h) (fun _ _ h => h) (fun e _ h => h.exact (.error e)) fun _ h => h

omit [ProcessTransport σ] in
/-- The loss of the stream is classified. -/
theorem Live.lost (h : Live false initial promptId last t) (hopen : Open promptId last) (peer : σ)
    (e : AcpError) : Exact initial promptId (.error e) (t.observe peer [.lost]).lose := by
  have hlose : (t.observe peer [.lost]).lose =
      (((t.observe peer [.lost]).setDelivery ⟨.indeterminate, false, some .processExited⟩).setPhase
        .dead) := by
    unfold Turn.lose
    rw [show (t.observe peer [.lost]).runtime.delivery = .unanswered from h.delivery,
      PromptDelivery.onConnectionLost_unanswered]
    rfl
  have hmute : ∀ x ∈ t.log ++ [.lost], x.concludes promptId = false := by
    intro x hx
    rcases List.mem_append.1 hx with hx | hx
    · by_contra hconcludes
      rw [Bool.not_eq_false] at hconcludes
      obtain ⟨m, hlast, rfl⟩ := Option.map_eq_some_iff.1 (h.before x hx hconcludes)
      rw [hopen m hlast] at hconcludes
      cases hconcludes
    · rw [List.mem_singleton.1 hx]
      rfl
  rw [hlose]
  refine iff_of_true ⟨iff_of_false nofun ?_, iff_of_false nofun ?_, iff_of_false nofun ?_, rfl, id,
    fun error delivery hmem => delivery_of_failed hmem⟩ (.inl (lastRead_concat t.log .lost))
  · intro hnone
    obtain ⟨id, params, hsent⟩ := h.sent
    cases hnone id params .written (List.mem_append_left _ hsent)
  · rintro ⟨result, hmem⟩
    have := hmute _ hmem
    simp [Observed.concludes] at this
  · rintro ⟨error, hmem⟩
    have := hmute _ hmem
    simp [Observed.concludes] at this

/-- Reading the next message. -/
theorem ensures_receive_waiting :
    Ensures (fun t => ∃ last, Open promptId last ∧ Waiting initial promptId last t)
      (receive : Proc (Turn σ) _ _)
      (fun m t => match m with
        | none => ∃ last, Open promptId last ∧ Waiting initial promptId last t
        | some m => Waiting initial promptId (some m) t)
      fun e => Exact initial promptId (.error e) := by
  refine ensures_receive ?_ ?_ ?_
  · rintro t peer ⟨last, hopen, hlive, hun⟩
    refine ⟨last, hopen, ?_⟩
    unfold Turn.observe
    rw [List.append_nil]
    exact ⟨⟨hlive.delivery, hlive.tracks, hlive.sent, hlive.writes, hlive.read, hlive.before⟩, hun⟩
  · rintro t peer m ⟨last, hopen, hlive, hun⟩
    exact ⟨hlive.receive hopen peer m, hun.observe peer nofun⟩
  · rintro t peer e ⟨last, hopen, hlive, -⟩
    exact hlive.lost hopen peer e

omit [ProcessTransport σ] in
/-- A failure that is reported as indeterminate although the agent answered. -/
theorem exact_of_told {e : AcpError} (he : e ≠ .cancelled)
    (hstate : t.runtime.delivery.state ≠ .indeterminate)
    (hends : ¬ EndsWell initial promptId t.log) : Exact initial promptId (.error e) t :=
  iff_of_false (fun hclass => hstate (hclass.told _ _ (failed_mem_terminalEvents he)).symm) hends

/-- The prompt was answered, with the verdict on its delivery. -/
structure Verdict (initial : AgentPhase) (promptId : RpcId) (m : RpcMessage) (verdict : DeliveryState)
    (t : Turn σ) : Prop where
  delivery : t.runtime.delivery = ⟨verdict, false, none⟩
  idle : ¬ t.runtime.phase.Running
  alive : initial ≠ .killing ∧ initial ≠ .dead
  sent : ∃ id params, .sent (.request id "session/prompt" params) .written ∈ t.log
  writes : ∀ m outcome, .sent m outcome ∈ t.log → outcome = .written
  read : lastRead t.log = some (.received m)
  before : ∀ x ∈ t.log, x.concludes promptId = true → x = .received m
  uncancelled : Uncancelled initial t

omit [ProcessTransport σ] in
/-- Settling the prompt; a process that was gone before refuses it. -/
theorem ensures_settlePrompt_verdict {m : RpcMessage} (id : RpcId) {verdict : DeliveryState}
    {report : PromptDelivery → Except AcpError PromptDelivery}
    (hreport : report .unanswered = .ok ⟨verdict, false, none⟩) (hverdict : verdict ≠ .indeterminate) :
    Ensures (Waiting initial promptId (some m)) (settlePrompt id report : Proc (Turn σ) _ _)
      (fun _ => Verdict initial promptId m verdict) fun e => Exact initial promptId (.error e) := by
  refine .bind (M := fun _ => Waiting initial promptId (some m)) (.modify fun t h =>
    ⟨⟨h.1.delivery, h.1.tracks, h.1.sent, h.1.writes, h.1.read, h.1.before⟩, h.2⟩) fun _ => ?_
  refine .bind (M := fun _ t => t.runtime.delivery = ⟨verdict, false, none⟩ ∧
      Waiting initial promptId (some m) (t.setDelivery .unanswered))
    (ensures_reportDelivery ?_ ?_) fun _ => ?_
  · intro t d hd ht
    rw [ht.1.delivery, hreport] at hd
    cases hd
    exact ⟨rfl, ⟨rfl, ht.1.tracks, ht.1.sent, ht.1.writes, ht.1.read, ht.1.before⟩, ht.2⟩
  · intro t e he ht
    rw [ht.1.delivery, hreport] at he
    cases he
  · refine .bind (M := fun _ => Verdict initial promptId m verdict) (ensures_reportPhase ?_ ?_)
      fun _ => .pure fun _ h => h
    · rintro t actions phase hphase ⟨hdelivery, hlive, hun⟩
      rcases t.runtime.phase.onPromptSettled_cases with ⟨hrunning, hok⟩ | ⟨-, herror⟩
      · cases hok.symm.trans hphase
        refine ⟨hdelivery, not_false, hlive.tracks.alive hrunning, hlive.sent, hlive.writes,
          hlive.read, fun x hx hc => ?_, hun⟩
        exact (Option.some.inj (hlive.before x hx hc)).symm
      · cases herror.symm.trans hphase
    · rintro t e hphase ⟨hdelivery, hlive, -⟩
      rcases t.runtime.phase.onPromptSettled_cases with ⟨-, hok⟩ | ⟨hnot, herror⟩
      · cases hok.symm.trans hphase
      · cases herror.symm.trans hphase
        have hread : lastRead t.log = (some m).map .received := hlive.read
        refine exact_of_told nofun (hdelivery ▸ hverdict) (not_endsWell _ hread fun _ _ => .inr ?_)
        by_contra hgone
        rw [not_or, not_or] at hgone
        exact hnot (hlive.tracks.running hgone.1 hgone.2.1)

omit [ProcessTransport σ] in
/-- A result that can be read is the good end. -/
theorem Verdict.exact_ok {result : Json} {stopReason : StopReason}
    (h : Verdict initial promptId (.response promptId result) .confirmed t)
    (hstop : AcpSerde.promptResult result = .ok stopReason) :
    Exact initial promptId (.ok stopReason) t := by
  have hstate : t.runtime.delivery.state = .confirmed := by rw [h.delivery]
  refine iff_of_true ⟨iff_of_false (by rw [hstate]; nofun) ?_, iff_of_true hstate ⟨result, ?_⟩,
    iff_of_false (by rw [hstate]; nofun) ?_, by rw [h.delivery], h.idle, ?_⟩
    (.inr ⟨⟨result, stopReason, h.read, hstop⟩, h.alive.1, h.alive.2, h.writes, h.uncancelled⟩)
  · intro hnone
    obtain ⟨id, params, hsent⟩ := h.sent
    cases hnone id params .written hsent
  · exact List.mem_reverse.1 (List.mem_of_find?_eq_some h.read)
  · rintro ⟨error, hmem⟩
    cases h.before _ hmem (by simp [Observed.concludes])
  · intro error delivery hmem
    cases stopReason <;> simp [terminalEvents] at hmem

/-- What holds after a message was dispatched. -/
def DispatchedExact (initial : AgentPhase) (promptId : RpcId) (t : Turn σ) : Dispatched → Prop
  | .settled stopReason => Exact initial promptId (.ok stopReason) t
  | .undecided _ _ | .goOn => ∃ last, Open promptId last ∧ Waiting initial promptId last t

/-- A request for a permission. -/
theorem ensures_dispatchPermission_waiting (id : RpcId) (params : Json)
    (hopen : Open promptId last) :
    Ensures (Waiting initial promptId last) (dispatchPermission id params : Proc (Turn σ) _ _)
      (fun r t => DispatchedExact initial promptId t r)
      fun e => Exact initial promptId (.error e) := by
  refine exact_of_unsettled (.bind (M := fun _ => Waiting initial promptId last)
    (ensures_reportPhase ?_ fun t e _ ht => ht.1.unsettled_of_open hopen) fun actions => ?_)
  · intro t actions phase hreport ht
    have htracks := ht.1.tracks
    refine ⟨⟨ht.1.delivery, ?_, ht.1.sent, ht.1.writes, ht.1.read, ht.1.before⟩, ht.2⟩
    cases hphase : t.runtime.phase with
    | prompting pending =>
      rw [hphase] at hreport htracks
      cases hreport
      exact htracks.note
    | cancelling pending =>
      rw [hphase] at hreport htracks
      cases hreport
      exact htracks
    | ready | killing | dead =>
      rw [hphase] at hreport
      cases hreport
  · have hanswer (actions : List HostAction) : Ensures (Waiting initial promptId last)
        (answerCancelled actions : Proc (Turn σ) _ _) (fun _ => Waiting initial promptId last)
        fun _ => Unsettled initial promptId := by
      induction actions with
      | nil => exact .pure fun _ h => h
      | cons action rest ih =>
        cases action with
        | answerPermissionCancelled id =>
          exact .bind (ensures_write_waiting _) fun _ => .bind ih fun _ => .pure fun _ h => h
        | _ => exact ih
    refine .bind (hanswer actions) fun answered => .pure fun t ht => ?_
    cases answered <;> exact ⟨last, hopen, ht⟩

/-- Dispatching the message at hand. -/
theorem ensures_dispatch_exact (m : RpcMessage) :
    Ensures (Waiting initial promptId (some m)) (dispatch promptId m : Proc (Turn σ) _ _)
      (fun r t => DispatchedExact initial promptId t r)
      fun e => Exact initial promptId (.error e) := by
  have hgoOn (hm : (Observed.received m).concludes promptId = false) :
      Open promptId (some m) := by
    intro m' h
    cases h
    exact hm
  cases m with
  | response id result =>
    refine .ite (fun hid => ?_) fun hid => .pure fun t ht =>
      ⟨_, hgoOn (decide_eq_false hid), ht⟩
    subst hid
    refine .bind (ensures_settlePrompt_verdict id PromptDelivery.onPromptResponse_unanswered nofun)
      fun _ => ?_
    refine .bind (M := fun stopReason => Exact initial id (.ok stopReason)) (.ofExcept ?_ ?_)
      fun _ => .pure fun _ h => h
    · intro stopReason t hstop ht
      cases hresult : AcpSerde.promptResult result with
      | ok stopReason' =>
        rw [hresult] at hstop
        cases hstop
        exact ht.exact_ok hresult
      | error text =>
        rw [hresult] at hstop
        cases hstop
    · intro e t he ht
      cases hresult : AcpSerde.promptResult result with
      | ok stopReason =>
        rw [hresult] at he
        cases he
      | error text =>
        rw [hresult] at he
        cases he
        refine exact_of_told nofun (by rw [ht.delivery]; nofun)
          (not_endsWell (some (.response id result)) ht.read fun result' hlast => ?_)
        cases hlast
        exact .inr (.inr (.inr (.inr ⟨text, hresult⟩)))
  | errorResponse id error =>
    refine .ite (fun hid => ?_) fun hid => .pure fun t ht =>
      ⟨_, hgoOn (decide_eq_false hid), ht⟩
    subst hid
    refine .bind (ensures_settlePrompt_verdict id PromptDelivery.onErrorResponse_unanswered nofun)
      fun _ => .fail fun t ht => ?_
    exact exact_of_told nofun (by rw [ht.delivery]; nofun)
      (not_endsWell (some (.errorResponse id error)) ht.read fun _ hlast => nomatch hlast)
  | request id method params =>
    refine .ite (fun _ => ensures_dispatchPermission_waiting id params (hgoOn rfl)) fun _ => ?_
    exact exact_of_unsettled (.bind (ensures_write_waiting _) fun _ => .pure fun t ht =>
      ⟨_, hgoOn rfl, ht⟩)
  | notification method params => exact .pure fun t ht => ⟨_, hgoOn rfl, ht⟩

end Transport

section Handlers

variable [PromptHandlers σ]

/-- Handing events to the caller. -/
theorem ensures_deliverEvents_waiting (sessionId : String) (events : List NormalizedEvent) :
    Ensures (Waiting initial promptId last) (deliverEvents sessionId events : Proc (Turn σ) _ _)
      (fun _ => Waiting initial promptId last) fun _ => Unsettled initial promptId := by
  induction events with
  | nil => exact .pure fun _ h => h
  | cons event rest ih =>
    refine .bind (M := fun reply t => Live false initial promptId last t ∧
        (reply ≠ .error .cancelled → Uncancelled initial t) ∧
        (reply = .error .cancelled → .handled (.error .cancelled) ∈ t.log))
      (ensures_callEvent fun t peer reply ht => ?_) fun reply => .bind ?_ fun _ => ih
    · refine ⟨ht.1.observe peer rfl nofun, fun hreply => ht.2.observe peer ?_, ?_⟩
      · rintro ⟨⟩
        exact hreply rfl
      · rintro rfl
        exact List.mem_append_right _ (List.mem_singleton_self _)
    · unfold minded
      split
      · refine .bind (M := fun s t => s = t ∧ Live false initial promptId last t ∧
            .handled (.error .cancelled) ∈ t.log)
          (.get fun t ht => ⟨rfl, ht.1, ht.2.2 rfl⟩) fun s => .ite (fun hsent => ?_) fun hunsent => ?_
        · -- a cancel was passed on, so none came before the prompt
          refine .pure ?_
          rintro t ⟨rfl, hlive, -⟩
          refine ⟨hlive, ?_⟩
          rintro pending rfl
          exact nomatch hsent.symm.trans hlive.tracks.1
        · refine (ensures_passCancel_live sessionId).mono ?_ (fun _ _ h => h) (fun _ _ h => h)
            fun _ h => h
          rintro t ⟨rfl, hlive, hmem⟩
          exact ⟨hlive, Bool.not_eq_true _ ▸ hunsent, fun _ _ => .inr hmem⟩
      · exact .pure fun t ht => ⟨ht.1, ht.2.1 ‹_›⟩

/-- Looking at the signal. -/
theorem ensures_checkSignal_waiting (sessionId : String) (hopen : Open promptId last) :
    Ensures (Waiting initial promptId last) (checkSignal sessionId : Proc (Turn σ) _ _)
      (fun _ => Waiting initial promptId last) fun _ => Unsettled initial promptId := by
  refine .bind (M := fun s t => s = t ∧ Waiting initial promptId last t) (.get fun t ht => ⟨rfl, ht⟩)
    fun s => .ite (fun _ => .pure fun _ h => h.2) fun hunsent => ?_
  refine .bind (M := fun _ t => t.cancelSent = false ∧ Waiting initial promptId last t)
    (ensures_loadSignal ?_) fun raised => .ite (fun _ => ?_) fun _ => .pure fun _ h => h.2
  · rintro t peer raised ⟨rfl, ht⟩
    exact ⟨Bool.not_eq_true _ ▸ hunsent, ht.1.observe peer rfl nofun, ht.2.observe peer nofun⟩
  · exact (ensures_passCancel_live sessionId).mono (fun t ht => ⟨ht.2.1, ht.1, fun _ _ => .inl hopen⟩)
      (fun _ _ h => h) (fun _ _ h => h) fun _ h => h

variable [SerdeJson]

/-- Doing what a dispatched message leaves to do. -/
theorem ensures_conclude_exact (r : Dispatched) :
    Ensures (fun t => DispatchedExact initial promptId t r) (conclude r : Proc (Turn σ) _ _)
      (fun r t => match r with
        | some stopReason => Exact initial promptId (.ok stopReason) t
        | none => ∃ last, Open promptId last ∧ Waiting initial promptId last t)
      fun e => Exact initial promptId (.error e) := by
  cases r with
  | settled stopReason => exact .pure fun _ h => h
  | goOn => exact .pure fun _ h => h
  | undecided id toolCallId =>
    intro t n ht
    obtain ⟨last, hopen, hwaiting⟩ := ht
    have hreply (outcome : Option Json) : Ensures (Waiting initial promptId last)
        (replyPermission id outcome : Proc (Turn σ) _ _) (fun _ => Waiting initial promptId last)
        fun _ => Unsettled initial promptId := by
      cases outcome <;> exact ensures_write_waiting _
    refine exact_of_unsettled (.bind (M := fun _ => Waiting initial promptId last)
      (ensures_callPermission ?_ ?_) fun outcome => .bind (hreply outcome) fun _ =>
        .pure fun t ht => ⟨last, hopen, ht⟩) t n hwaiting
    · exact fun t peer outcome ht => ⟨ht.1.observe peer rfl nofun, ht.2.observe peer nofun⟩
    · exact fun t peer e ht =>
        (ht.1.observe (x := .decided id (.error e)) peer rfl nofun).unsettled_of_open hopen

/-- One round of the loop. -/
theorem ensures_promptRound_exact (sessionId : String) :
    Ensures (fun t => ∃ last, Open promptId last ∧ Waiting initial promptId last t)
      (promptRound sessionId promptId : Proc (Turn σ) _ _)
      (fun r t => match r with
        | some stopReason => Exact initial promptId (.ok stopReason) t
        | none => ∃ last, Open promptId last ∧ Waiting initial promptId last t)
      fun e => Exact initial promptId (.error e) := by
  refine .bind (M := fun _ t => ∃ last, Open promptId last ∧ Waiting initial promptId last t)
    ?_ fun _ => .bind ensures_receive_waiting fun m => ?_
  · rintro t n ⟨last, hopen, ht⟩
    exact exact_of_unsettled ((ensures_checkSignal_waiting sessionId hopen).mono (fun _ h => h)
      (fun _ t ht => ⟨last, hopen, ht⟩) (fun _ _ h => h) fun _ h => h) t n ht
  · cases m with
    | none => exact .pure fun _ h => h
    | some m =>
      refine .bind (M := fun _ => Waiting initial promptId (some m)) (.ofExcept
        (fun _ _ _ h => h) fun e t he ht => ?_) fun events => ?_
      · -- only requests and notifications have a shape to fail in
        refine (ht.1.unsettled_of_open ?_).exact _
        rintro m' ⟨⟩
        cases m with
        | response id result => cases he
        | errorResponse id error => cases he
        | request id method params => rfl
        | notification method params => rfl
      · exact .bind (exact_of_unsettled (ensures_deliverEvents_waiting sessionId events))
          fun _ => .bind (ensures_dispatch_exact m) ensures_conclude_exact

/-- Any number of rounds. -/
theorem ensures_promptLoop_exact (sessionId : String) (fuel : Nat) :
    Ensures (fun t => ∃ last, Open promptId last ∧ Waiting initial promptId last t)
      (promptLoop sessionId promptId fuel : Proc (Turn σ) _ _)
      (fun r t => ∀ stopReason, r = some stopReason → Exact initial promptId (.ok stopReason) t)
      fun e => Exact initial promptId (.error e) := by
  induction fuel with
  | zero => exact .pure fun _ _ => nofun
  | succ fuel ih =>
    refine .bind (ensures_promptRound_exact sessionId) fun r => ?_
    cases r with
    | none => exact ih
    | some stopReason =>
      refine .pure fun t ht stopReason' h => ?_
      cases h
      exact ht

/-- Writing the prompt.  Without a session the delivery of an earlier prompt is
left in place. -/
theorem ensures_beginPrompt_exact (runtime : AcpRuntime) (peer : σ) (prompt : List ContentBlock) :
    Ensures (· = Turn.start runtime peer) (beginPrompt prompt : Proc (Turn σ) _ _)
      (fun ids t => ids.2 = .number (runtime.nextId + 1) ∧
        ∃ last, Open ids.2 last ∧ Waiting runtime.phase ids.2 last t)
      fun e => Exact runtime.phase (.number (runtime.nextId + 1)) (.error e) := by
  refine .bind (M := fun s t => s = t ∧ t = Turn.start runtime peer) (.get fun t ht => ⟨rfl, ht⟩)
    fun s => ?_
  split
  · refine .fail ?_
    rintro t ⟨-, rfl⟩
    refine iff_of_false (fun hclass => ?_) (not_endsWell none rfl nofun)
    have habsent := hclass.absent.2 (fun _ _ _ hmem => nomatch hmem)
    cases (hclass.told _ _ (failed_mem_terminalEvents nofun)).trans habsent
  · rename_i sessionId hsession
    refine .bind (M := fun _ t => s.runtime.nextId = runtime.nextId ∧
        t.runtime.phase = runtime.phase ∧ t.runtime.delivery = .notSent ∧ t.cancelSent = false ∧
        t.log = []) (.modify ?_) fun _ => ?_
    · rintro t ⟨rfl, rfl⟩
      exact ⟨rfl, rfl, rfl, rfl, rfl⟩
    refine .bind (M := fun _ t => s.runtime.nextId = runtime.nextId ∧
        t.runtime.phase = runtime.phase ∧ t.runtime.delivery = .unanswered ∧ t.cancelSent = false ∧
        t.log = []) (ensures_reportDelivery ?_ ?_) fun _ => ?_
    · rintro t d hd ⟨hid, hphase, hdelivery, hcancel, hlog⟩
      rw [hdelivery] at hd
      cases hd
      exact ⟨hid, hphase, rfl, hcancel, hlog⟩
    · rintro t e he ⟨-, -, hdelivery, -⟩
      rw [hdelivery] at he
      cases he
    refine .bind (M := fun _ t => s.runtime.nextId = runtime.nextId ∧
        Tracks runtime.phase t.cancelSent t.runtime.phase ∧ t.runtime.delivery = .unanswered ∧
        t.log = []) (.modify ?_) fun _ => ?_
    · rintro t ⟨hid, hphase, hdelivery, hcancel, hlog⟩
      refine ⟨hid, ?_, hdelivery, hlog⟩
      change Tracks _ t.cancelSent t.runtime.phase.onPromptWritten
      rw [hphase, hcancel]
      exact tracks_onPromptWritten _
    refine .bind (M := fun _ t => s.runtime.nextId = runtime.nextId ∧
        Waiting runtime.phase (.number (runtime.nextId + 1)) none t) (ensures_write ?_ ?_)
      fun _ => .pure fun t ht => ⟨congrArg (fun n => RpcId.number (n + 1)) ht.1, none, nofun, ?_⟩
    · rintro t peer ⟨hid, htracks, hdelivery, hlog⟩
      have hlog' {m : RpcMessage} {outcome : WriteOutcome} :
          (t.observe peer [.sent m outcome]).log = [.sent m outcome] := by
        change t.log ++ _ = _
        rw [hlog]
        rfl
      refine ⟨hid, ⟨hdelivery, htracks, ⟨.number (s.runtime.nextId + 1), .object
        [("sessionId", str sessionId), ("prompt", .array (prompt.map ContentBlock.toJson))], ?_⟩,
        ?_, ?_, ?_⟩, ?_⟩
      · rw [hlog']
        exact List.mem_singleton_self _
      · intro m outcome hmem
        rw [hlog'] at hmem
        cases List.mem_singleton.1 hmem
        rfl
      · rw [hlog']
        rfl
      · intro x hx hc
        rw [hlog'] at hx
        rw [List.mem_singleton.1 hx] at hc
        cases hc
      · intro pending _ hmem
        rw [hlog'] at hmem
        cases List.mem_singleton.1 hmem
    · rintro t peer e partly ⟨hid, htracks, hdelivery, hlog⟩
      refine Unsettled.exact ⟨?_, not_endsWell none ?_ nofun⟩ _
      · change t.runtime.delivery.outstanding = true
        rw [hdelivery]
        rfl
      · change lastRead (t.log ++ _) = _
        rw [hlog]
        rfl
    · have hid : RpcId.number (s.runtime.nextId + 1) = .number (runtime.nextId + 1) :=
        congrArg (fun n => RpcId.number (n + 1)) ht.1
      rw [hid]
      exact ht.2

/-- **When a delivery is classified.** Whenever a prompt returns, with any agent,
any transport and any handlers, its delivery is classified if and only if the
run ended well. -/
theorem delivery_classified_iff (runtime : AcpRuntime) (peer : σ) (prompt : List ContentBlock)
    (fuel : Nat) (r : Except AcpError StopReason)
    (hr : returned (promptWithHandlers prompt fuel (Turn.start runtime peer) none).ending = some r) :
    Classified (.number (runtime.nextId + 1)) r
        (promptWithHandlers prompt fuel (Turn.start runtime peer) none).state ↔
      EndsWell runtime.phase (.number (runtime.nextId + 1))
        (promptWithHandlers prompt fuel (Turn.start runtime peer) none).state.log := by
  have hspec : Ensures (· = Turn.start runtime peer)
      (promptWithHandlers prompt fuel : Proc (Turn σ) _ _)
      (fun r t => ∀ stopReason, r = some stopReason →
        Exact runtime.phase (.number (runtime.nextId + 1)) (.ok stopReason) t)
      fun e => Exact runtime.phase (.number (runtime.nextId + 1)) (.error e) := by
    refine .bind (ensures_beginPrompt_exact runtime peer prompt) fun ids => ?_
    rintro t n ⟨hid, ht⟩
    rw [← hid]
    exact ensures_promptLoop_exact ids.1 fuel t n ht
  have hrun := hspec (Turn.start runtime peer) none rfl
  revert hr hrun
  rcases promptWithHandlers prompt fuel (Turn.start runtime peer) none with ⟨r' | e | _, t, n⟩
  · intro hr hrun
    cases r' with
    | none => cases hr
    | some stopReason =>
      cases hr
      exact hrun.1 stopReason rfl
  · intro hr hrun
    cases hr
    exact hrun.1
  · exact fun hr => nomatch hr

end Handlers

end Specs

section Sample

attribute [local instance] plainSerde
attribute [local instance] flatObjects

/-- An agent that finishes the prompt. -/
def finishingAgent : Scripted := ⟨[], [.ok (some (some resultLine))], [], [], []⟩

set_option maxRecDepth 20000 in
/-- A finished prompt is classified. -/
theorem delivery_classified_finished :
    returned (promptWithHandlers [.text "hi"] 8
      (Turn.start sampleRuntime finishingAgent) none).ending = some (.ok .endTurn) ∧
    (Classified (.number 3) (.ok .endTurn) (promptWithHandlers [.text "hi"] 8
        (Turn.start sampleRuntime finishingAgent) none).state ↔
      EndsWell sampleRuntime.phase (.number 3) (promptWithHandlers [.text "hi"] 8
        (Turn.start sampleRuntime finishingAgent) none).state.log) :=
  have hreturned : returned (promptWithHandlers [.text "hi"] 8
      (Turn.start sampleRuntime finishingAgent) none).ending = some (.ok .endTurn) := by
    decide
  ⟨hreturned, delivery_classified_iff _ _ _ _ _ hreturned⟩

set_option maxRecDepth 20000 in
/-- A prompt that the agent refuses with an error is reported as indeterminate. -/
theorem refused_prompt_misreported :
    returned (promptWithHandlers [.text "hi"] 8 (Turn.start sampleRuntime
      { finishingAgent with reads := [.ok (some (some errorLine))] }) none).ending =
        some (.error (.rpcError 7 "busy")) ∧
    ¬ Classified (.number 3) (.error (.rpcError 7 "busy")) (promptWithHandlers [.text "hi"] 8
      (Turn.start sampleRuntime
        { finishingAgent with reads := [.ok (some (some errorLine))] }) none).state := by
  refine ⟨by decide, fun hclass => ?_⟩
  have htold := hclass.told _ _ (failed_mem_terminalEvents nofun)
  revert htold
  decide

end Sample

end Altior.Acp
