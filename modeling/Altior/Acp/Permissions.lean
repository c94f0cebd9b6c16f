import Altior.Acp.Script
import Altior.Lib.Machine

/-!
# Answers to permission requests

A request of the agent for a permission is answered where it is decided, or at
once when a cancel has overtaken it.  The lifecycle notes every request it sees
before a cancel and answers all of them when the cancel comes, also those that
were decided by then.  In a run in which no cancel comes after a decision, and
nothing keeps a request from being answered, every request is answered once.
-/

namespace Altior.Acp

open Domain Lib

namespace Observed

/-- The agent asks for a permission. -/
def asks (id : RpcId) : Observed → Bool
  | received (.request id' method _) => decide (id' = id) && decide (method = requestPermission)
  | _ => false

/-- A response went out. -/
def answers (id : RpcId) : Observed → Bool
  | sent (.response id' _) .written => decide (id' = id)
  | _ => false

/-- Something came from the agent, or the end of it. -/
def isRead : Observed → Bool
  | received _ | lost => true
  | _ => false

/-- The agent asks for some permission. -/
def isAsk : Observed → Bool
  | received (.request _ method _) => decide (method = requestPermission)
  | _ => false

/-- A request was handed to the caller. -/
def isDecided : Observed → Bool
  | decided _ _ => true
  | _ => false

/-- A cancel is seen. -/
def isCancel : Observed → Bool
  | signalled raised => raised
  | handled (.error .cancelled) => true
  | _ => false

end Observed

/-- The last that came from the agent. -/
def lastRead (log : List Observed) : Option Observed := log.reverse.find? Observed.isRead

/-- The last that came from the agent is a request for a permission. -/
def lastAsks (log : List Observed) : Bool := (lastRead log).any Observed.isAsk

theorem lastRead_concat (log : List Observed) (x : Observed) :
    lastRead (log ++ [x]) = if x.isRead then some x else lastRead log := by
  unfold lastRead
  rw [List.reverse_append, List.reverse_singleton, List.singleton_append, List.find?_cons]
  cases x.isRead <;> rfl

/-- **Every request is answered once.** At no point were there more responses to
an id than requests with it, and in the end there are as many. -/
structure AnsweredOnce (log : List Observed) : Prop where
  never_twice : ∀ p, p <+: log → ∀ id,
    p.countP (Observed.answers id) ≤ p.countP (Observed.asks id)
  answered : ∀ id, log.countP (Observed.answers id) = log.countP (Observed.asks id)

/-- The lifecycle still has noted requests of an earlier prompt. -/
def AgentPhase.isStale : AgentPhase → Bool
  | prompting (_ :: _) => true
  | _ => false

variable {log : List Observed} {x : Observed} {cancelSent : Bool}

section Undisturbed

variable [AcpSerde]

/-- What came so far lets the next observation pass.  A request has to be well
formed and to reach a process that is not gone; its decision and its answer have
to go through; and a cancel must not come after a decision, nor on top of
requests noted before the prompt, nor in the middle of a request to a turn that
is being cancelled already. -/
def Undisturbing (initial : AgentPhase) (seen : List Observed) : Observed → Prop
  | .received (.request _ method params) => method = requestPermission →
      (AcpSerde.requestPermissionParams params).isOk ∧ initial ≠ .killing ∧ initial ≠ .dead
  | .decided _ reply => reply.isOk
  | .sent _ outcome => lastAsks seen = true → outcome = .written
  | x => x.isCancel = true → seen.any Observed.isDecided = false ∧ initial.isStale = false
      ∧ (lastAsks seen = true → initial = .ready ∨ initial = .prompting [])

instance (initial : AgentPhase) (seen : List Observed) :
    DecidablePred (Undisturbing initial seen) := fun x => by
  unfold Undisturbing
  split <;> infer_instance

/-- The whole run is undisturbed. -/
def Undisturbed (initial : AgentPhase) (log : List Observed) : Prop :=
  Machine.history.Meets (Undisturbing initial) [] log

instance (initial : AgentPhase) (log : List Observed) : Decidable (Undisturbed initial log) :=
  inferInstanceAs (Decidable (Machine.history.Meets (Undisturbing initial) [] log))

theorem undisturbed_concat {initial : AgentPhase} :
    Undisturbed initial (log ++ [x]) ↔ Undisturbed initial log ∧ Undisturbing initial log x :=
  Machine.meets_history_concat

end Undisturbed

/-! ## The phase of a prompt -/

/-- The phase a prompt has brought the process to, by the phase it started in. -/
def Tracks : AgentPhase → Bool → AgentPhase → Prop
  | .ready, false, phase | .prompting _, false, phase => ∃ pending, phase = .prompting pending
  | .ready, true, phase | .prompting _, true, phase => ∃ pending, phase = .cancelling pending
  | .cancelling _, cancelSent, phase => cancelSent = false ∧ ∃ pending, phase = .cancelling pending
  | .killing, cancelSent, phase => cancelSent = false ∧ phase = .killing
  | .dead, cancelSent, phase => cancelSent = false ∧ phase = .dead

theorem tracks_onPromptWritten (initial : AgentPhase) :
    Tracks initial false initial.onPromptWritten := by
  cases initial <;> simp [Tracks, AgentPhase.onPromptWritten]

/-- A cancel that is passed on. -/
theorem Tracks.cancel {initial : AgentPhase} {pending pending' : List RpcId}
    (h : Tracks initial cancelSent (.prompting pending)) :
    Tracks initial true (.cancelling pending') := by
  cases initial <;> cases cancelSent <;> simp_all [Tracks]

/-- A request that is noted. -/
theorem Tracks.note {initial : AgentPhase} {pending pending' : List RpcId}
    (h : Tracks initial cancelSent (.prompting pending)) :
    Tracks initial cancelSent (.prompting pending') := by
  cases initial <;> cases cancelSent <;> simp_all [Tracks]

/-- A process that was not gone is running the turn. -/
theorem Tracks.running {initial phase : AgentPhase} (h : Tracks initial cancelSent phase)
    (hkilling : initial ≠ .killing) (hdead : initial ≠ .dead) : phase.Running := by
  cases initial <;> cases cancelSent <;> simp_all [Tracks] <;>
    (obtain ⟨pending, rfl⟩ := h; trivial)

/-- A turn is running only in a process that was not gone. -/
theorem Tracks.alive {initial phase : AgentPhase} (h : Tracks initial cancelSent phase)
    (hrunning : phase.Running) : initial ≠ .killing ∧ initial ≠ .dead := by
  constructor
  · rintro rfl
    rw [h.2] at hrunning
    exact hrunning
  · rintro rfl
    rw [h.2] at hrunning
    exact hrunning

/-! ## The invariant -/

variable {σ : Type}

/-- What holds while at most one request, the last that came, is unanswered. -/
structure Balanced (initial : AgentPhase) (owed : Option RpcId) (log : List Observed) : Prop where
  owes : ∀ id, log.countP (Observed.asks id) =
    log.countP (Observed.answers id) + if owed = some id then 1 else 0
  never_twice : ∀ p, p <+: log → ∀ id,
    p.countP (Observed.answers id) ≤ p.countP (Observed.asks id)
  asked : ∀ id, owed = some id → lastAsks log = true ∧ initial ≠ .killing ∧ initial ≠ .dead

/-- Noted requests were decided, unless they are of an earlier prompt. -/
def Noted (initial phase : AgentPhase) (log : List Observed) : Prop :=
  ∀ pending, phase = .prompting pending →
    pending = [] ∨ initial.isStale = true ∨ log.any Observed.isDecided = true

theorem Balanced.answeredOnce {initial : AgentPhase} (h : Balanced initial none log) :
    AnsweredOnce log where
  never_twice := h.never_twice
  answered id := (h.owes id).symm

theorem balanced_nil (initial : AgentPhase) : Balanced initial none [] where
  owes _ := rfl
  never_twice p hp _ := by
    rw [List.prefix_nil.1 hp]
    exact Nat.le_refl _
  asked _ h := nomatch h

/-- The balance after one more observation. -/
theorem Balanced.concat {initial : AgentPhase} {owed owed' : Option RpcId}
    (h : Balanced initial owed log)
    (howes : ∀ id, (x.asks id).toNat + (if owed = some id then 1 else 0) =
      (x.answers id).toNat + if owed' = some id then 1 else 0)
    (hasked : ∀ id, owed' = some id → lastAsks (log ++ [x]) = true ∧ initial ≠ .killing
      ∧ initial ≠ .dead) : Balanced initial owed' (log ++ [x]) := by
  have hcount (f : Observed → Bool) : (log ++ [x]).countP f = log.countP f + (f x).toNat := by
    rw [List.countP_append, List.countP_singleton]
    cases f x <;> rfl
  have howes' (id : RpcId) : (log ++ [x]).countP (Observed.asks id) =
      (log ++ [x]).countP (Observed.answers id) + if owed' = some id then 1 else 0 := by
    have hlog := h.owes id
    have hx := howes id
    rw [hcount, hcount]
    omega
  refine ⟨howes', fun p hp id => ?_, hasked⟩
  rcases List.prefix_concat_iff.1 hp with rfl | hp
  · rw [howes' id]
    exact Nat.le_add_right _ _
  · exact h.never_twice p hp id

/-- An observation that is neither a request nor a response. -/
theorem Balanced.neutral {initial : AgentPhase} {owed : Option RpcId}
    (h : Balanced initial owed log) (hasks : ∀ id, x.asks id = false)
    (hanswers : ∀ id, x.answers id = false) (hread : x.isRead = false) :
    Balanced initial owed (log ++ [x]) := by
  refine h.concat (fun id => by rw [hasks, hanswers]) fun id hid => ?_
  unfold lastAsks
  rw [lastRead_concat, hread]
  exact h.asked id hid

/-- A failed write ends the prompt where no request is unanswered. -/
theorem Balanced.answeredOnce_of_failed [AcpSerde] {initial : AgentPhase} {owed : Option RpcId}
    (h : Balanced initial owed log) {m : RpcMessage} {e : AcpError} {partly : Bool}
    (hok : Undisturbing initial log (.sent m (.failed e partly))) :
    AnsweredOnce (log ++ [.sent m (.failed e partly)]) := by
  have howed : owed = none := by
    cases hcase : owed with
    | none => rfl
    | some id => exact nomatch hok (h.asked id hcase).1
  subst howed
  have hanswers (id : RpcId) : (Observed.sent m (.failed e partly)).answers id = false := by
    cases m <;> rfl
  exact (h.neutral (fun _ => rfl) hanswers rfl).answeredOnce

theorem Noted.concat {initial phase : AgentPhase} (h : Noted initial phase log) (x : Observed) :
    Noted initial phase (log ++ [x]) := by
  intro pending hpending
  rw [List.any_append]
  rcases h pending hpending with h | h | h
  · exact .inl h
  · exact .inr (.inl h)
  · exact .inr (.inr (by rw [h]; rfl))

/-- The state of an undisturbed run; `passing` while a cancel is being passed on. -/
structure Kept (passing : Bool) (initial : AgentPhase) (owed : Option RpcId) (t : Turn σ) :
    Prop where
  tracks : Tracks initial (passing || t.cancelSent) t.runtime.phase
  noted : Noted initial t.runtime.phase t.log
  balanced : Balanced initial owed t.log

/-- The request a message leaves unanswered. -/
def RpcMessage.owed : RpcMessage → Option RpcId
  | .request id method _ => if method = requestPermission then some id else none
  | _ => none

section Specs

variable [AcpSerde]

/-- The run so far is balanced if it is undisturbed. -/
def Keeping (passing : Bool) (initial : AgentPhase) (owed : Option RpcId) (t : Turn σ) : Prop :=
  Undisturbed initial t.log → Kept passing initial owed t

/-- What is left to show of a run that ended. -/
def Answered (initial : AgentPhase) (t : Turn σ) : Prop :=
  Undisturbed initial t.log → AnsweredOnce t.log

variable {passing : Bool} {initial : AgentPhase} {owed : Option RpcId}

variable {t : Turn σ}

theorem Keeping.answered (h : Keeping passing initial none t) : Answered initial t :=
  fun hok => (h hok).balanced.answeredOnce

/-- An observation that is neither a request nor a response. -/
theorem Keeping.neutral (h : Keeping passing initial owed t) (peer : σ)
    (hasks : ∀ id, x.asks id = false) (hanswers : ∀ id, x.answers id = false)
    (hread : x.isRead = false) : Keeping passing initial owed (t.observe peer [x]) := by
  intro hok
  have ht := h (undisturbed_concat.1 hok).1
  exact ⟨ht.tracks, ht.noted.concat x, ht.balanced.neutral hasks hanswers hread⟩

/-- A failed write ends the prompt. -/
theorem Keeping.failed (h : Keeping passing initial owed t) (peer : σ) (m : RpcMessage)
    (e : AcpError) (partly : Bool) :
    Answered initial (t.observe peer [.sent m (.failed e partly)]) := by
  intro hok
  obtain ⟨hlog, hx⟩ := undisturbed_concat.1 hok
  exact (h hlog).balanced.answeredOnce_of_failed hx

/-- A cancel was seen, and none was passed on before. -/
structure CancelSeen (initial : AgentPhase) (owed : Option RpcId) (t : Turn σ) : Prop where
  keeping : Keeping false initial owed t
  pending : Undisturbed initial t.log → ∀ pending, t.runtime.phase = .prompting pending →
    pending = []
  owed : Undisturbed initial t.log → owed ≠ none → initial = .ready ∨ initial = .prompting []
  unsent : t.cancelSent = false

theorem cancelSeen (h : Keeping false initial owed t) (hunsent : t.cancelSent = false) (peer : σ)
    (hx : (∃ raised, x = .signalled raised) ∨ ∃ reply, x = .handled reply)
    (hcancel : x.isCancel = true) : CancelSeen initial owed (t.observe peer [x]) := by
  have hok : Undisturbed initial (t.observe peer [x]).log → Undisturbed initial t.log ∧
      t.log.any Observed.isDecided = false ∧ initial.isStale = false ∧
        (lastAsks t.log = true → initial = .ready ∨ initial = .prompting []) := by
    intro hok
    obtain ⟨hlog, hstep⟩ := undisturbed_concat.1 hok
    refine ⟨hlog, ?_⟩
    rcases hx with ⟨raised, rfl⟩ | ⟨reply, rfl⟩ <;> exact hstep hcancel
  refine ⟨?_, fun h' pending hpending => ?_, fun h' howed => ?_, hunsent⟩
  · rcases hx with ⟨raised, rfl⟩ | ⟨reply, rfl⟩ <;>
      exact h.neutral peer (fun _ => rfl) (fun _ => rfl) rfl
  · obtain ⟨hlog, hdecided, hstale, -⟩ := hok h'
    rcases (h hlog).noted pending hpending with h | h | h
    · exact h
    · exact nomatch hstale.symm.trans h
    · exact nomatch hdecided.symm.trans h
  · obtain ⟨hlog, -, -, hasks⟩ := hok h'
    obtain ⟨id, hid⟩ := Option.ne_none_iff_exists'.1 howed
    exact hasks ((h hlog).balanced.asked id hid).1

/-- A message that was read. -/
theorem Keeping.received (h : Keeping false initial none t) (peer : σ) (m : RpcMessage) :
    Keeping false initial m.owed (t.observe peer [.received m]) := by
  intro hok
  obtain ⟨hlog, hx⟩ := undisturbed_concat.1 hok
  have hkept := h hlog
  refine ⟨hkept.tracks, hkept.noted.concat _, hkept.balanced.concat ?_ ?_⟩
  · intro id
    cases m with
    | request id' method params =>
      by_cases hmethod : method = requestPermission <;> by_cases hid : id' = id <;>
        simp [RpcMessage.owed, Observed.asks, Observed.answers, hmethod, hid]
    | _ => simp [RpcMessage.owed, Observed.asks, Observed.answers]
  · intro id hid
    cases m with
    | request id' method params =>
      have hmethod : method = requestPermission := by
        by_contra hmethod
        simp [RpcMessage.owed, hmethod] at hid
      unfold lastAsks
      rw [lastRead_concat]
      exact ⟨decide_eq_true hmethod, (hx hmethod).2⟩
    | _ => cases hid

/-- A lost connection ends the prompt. -/
theorem Keeping.lost (h : Keeping false initial none t) (peer : σ) :
    Answered initial (t.observe peer [.lost]).lose := by
  intro hok
  have hlog : (t.observe peer [.lost]).lose.log = t.log ++ [.lost] := by
    unfold Turn.lose
    cases (t.observe peer [.lost]).runtime.delivery.onConnectionLost .processExited <;> rfl
  rw [hlog] at hok ⊢
  have hbalanced : Balanced initial none (t.log ++ [.lost]) :=
    (h (undisturbed_concat.1 hok).1).balanced.concat (fun _ => rfl) nofun
  exact hbalanced.answeredOnce

/-- A request for a permission has the shape it should have. -/
def WellShaped (m : RpcMessage) : Prop :=
  ∀ id params, m = .request id requestPermission params →
    (AcpSerde.requestPermissionParams params).isOk

/-- A message of no known shape is no request that waits for an answer. -/
theorem owed_of_malformed {m : RpcMessage} {e : AcpError} (hm : normalizeMessage m = .error e)
    (hshape : WellShaped m) : m.owed = none := by
  cases m with
  | request id method params =>
    by_cases hmethod : method = requestPermission
    · subst hmethod
      have hok := hshape id params rfl
      simp only [normalizeMessage, normalizeRequest, if_true] at hm
      cases hparse : AcpSerde.requestPermissionParams params with
      | ok call =>
        rw [hparse] at hm
        cases hm
      | error text =>
        rw [hparse] at hok
        cases hok
    · simp [RpcMessage.owed, hmethod]
  | _ => rfl

section Transport

variable [ProcessTransport σ]

/-- A line that is no response. -/
theorem ensures_write_other {m : RpcMessage} (hm : ∀ id result, m ≠ .response id result) :
    Ensures (Keeping passing initial owed) (write m : Proc (Turn σ) _ _)
      (fun _ => Keeping passing initial owed) fun _ => Answered initial := by
  refine ensures_write (fun t peer ht => ht.neutral peer (fun _ => rfl) (fun id => ?_) rfl)
    fun t peer e partly ht => ht.failed peer m e partly
  cases m with
  | response id' result => exact (hm id' result rfl).elim
  | _ => rfl

/-- The answer to the request that is unanswered. -/
theorem ensures_write_answer (id : RpcId) (result : Json) :
    Ensures (Keeping passing initial (some id)) (write (.response id result) : Proc (Turn σ) _ _)
      (fun _ => Keeping passing initial none) fun _ => Answered initial := by
  refine ensures_write (fun t peer ht hok => ?_) fun t peer e partly ht => ht.failed peer _ e partly
  have hkept := ht (undisturbed_concat.1 hok).1
  refine ⟨hkept.tracks, hkept.noted.concat _, hkept.balanced.concat (fun id' => ?_) nofun⟩
  simp only [Observed.asks, Observed.answers, Option.some.injEq, reduceCtorEq, if_false,
    Bool.toNat_false]
  by_cases h : id = id' <;> simp [h]

/-- A run that was disturbed stays so. -/
theorem ensures_write_disturbed (m : RpcMessage) :
    Ensures (fun t => ¬ Undisturbed initial t.log) (write m : Proc (Turn σ) _ _)
      (fun _ t => ¬ Undisturbed initial t.log) fun _ => Answered initial :=
  ensures_write (fun _ _ ht hok => ht (undisturbed_concat.1 hok).1)
    fun _ _ _ _ ht hok => (ht (undisturbed_concat.1 hok).1).elim

/-- Answers to noted requests; in an undisturbed run there is none. -/
theorem ensures_answerNoted (sessionId : String) (pending : List RpcId) :
    Ensures (fun t => Keeping passing initial owed t ∧ (Undisturbed initial t.log → pending = []))
      (executeHostActions sessionId (pending.map .answerPermissionCancelled) :
        Proc (Turn σ) _ _)
      (fun _ => Keeping passing initial owed) fun _ => Answered initial := by
  cases pending with
  | nil => exact .pure fun t ht => ht.1
  | cons id rest =>
    have hdisturbed (pending : List RpcId) : Ensures (fun t => ¬ Undisturbed initial t.log)
        (executeHostActions sessionId (pending.map .answerPermissionCancelled) :
          Proc (Turn σ) _ _)
        (fun _ t => ¬ Undisturbed initial t.log) fun _ => Answered initial := by
      induction pending with
      | nil => exact .pure fun _ ht => ht
      | cons id rest ih => exact .bind (ensures_write_disturbed _) fun _ => ih
    refine (hdisturbed (id :: rest)).mono (fun t ht hok => ?_) (fun _ t ht hok => (ht hok).elim)
      (fun _ _ ht => ht) fun _ h => h
    exact nomatch ht.2 hok

/-- Passing a cancel on. -/
theorem ensures_passCancel (sessionId : String) :
    Ensures (CancelSeen initial owed) (passCancel sessionId : Proc (Turn σ) _ _)
      (fun _ => Keeping false initial owed) fun _ => Answered initial := by
  refine .bind (M := fun _ => Keeping true initial owed) ?_ fun _ =>
    .modify fun _ h hok => ⟨(h hok).tracks, (h hok).noted, (h hok).balanced⟩
  refine .bind (M := fun actions t => Keeping true initial owed t ∧ ∃ pending,
      actions = .sendCancelNotification :: pending.map .answerPermissionCancelled ∧
      (Undisturbed initial t.log → pending = [])) (ensures_reportPhase ?_ ?_) fun actions => ?_
  · intro t actions phase hreport ht
    cases hphase : t.runtime.phase with
    | prompting pending =>
      rw [hphase] at hreport
      cases hreport
      refine ⟨fun hok => ⟨?_, nofun, (ht.keeping hok).balanced⟩, pending, rfl,
        fun hok => ht.pending hok pending hphase⟩
      have htracks := (ht.keeping hok).tracks
      rw [hphase] at htracks
      exact htracks.cancel
    | ready | cancelling _ | killing | dead =>
      rw [hphase] at hreport
      cases hreport
  · -- the report is refused: no turn is running that a cancel could reach
    intro t e hreport ht hok
    have hkept := ht.keeping hok
    have howed : owed = none := by
      by_contra howed
      have htracks := hkept.tracks
      rw [ht.unsent] at htracks
      rcases ht.owed hok howed with rfl | rfl <;> obtain ⟨pending, hphase⟩ := htracks <;>
        rw [hphase] at hreport <;> cases hreport
    subst howed
    exact hkept.balanced.answeredOnce
  · intro t n ht
    obtain ⟨hkeeping, pending, rfl, hpending⟩ := ht
    have hwrite : Ensures (fun t => Keeping true initial owed t ∧
          (Undisturbed initial t.log → pending = [])) (write (buildCancel sessionId) :
            Proc (Turn σ) _ _)
        (fun _ t => Keeping true initial owed t ∧ (Undisturbed initial t.log → pending = []))
        fun _ => Answered initial := by
      refine ensures_write (fun t peer ht => ⟨ht.1.neutral peer (fun _ => rfl) (fun _ => rfl) rfl,
        fun hok => ht.2 (undisturbed_concat.1 hok).1⟩) fun t peer e partly ht =>
          ht.1.failed peer _ e partly
    exact Proc.Spec.bind hwrite (fun _ => ensures_answerNoted sessionId pending) t n
      ⟨hkeeping, hpending⟩

/-- A message is at hand. -/
def InHand (initial : AgentPhase) (m : RpcMessage) (t : Turn σ) : Prop :=
  Keeping false initial m.owed t ∧ (Undisturbed initial t.log → WellShaped m)

/-- Reading the next message. -/
theorem ensures_receive_inHand :
    Ensures (Keeping false initial none) (receive : Proc (Turn σ) _ _)
      (fun m t => match m with
        | none => Keeping false initial none t
        | some m => InHand initial m t) fun _ => Answered initial := by
  refine ensures_receive (fun t peer ht => ?_) (fun t peer m ht => ⟨ht.received peer m, ?_⟩)
    fun t peer _ ht => ht.lost peer
  · unfold Keeping Turn.observe at *
    rw [List.append_nil]
    exact fun hok => ⟨(ht hok).tracks, (ht hok).noted, (ht hok).balanced⟩
  · rintro hok id params rfl
    exact ((undisturbed_concat.1 hok).2 rfl).1

/-- A request was noted and is about to be decided. -/
def Deciding (initial : AgentPhase) (id : RpcId) (t : Turn σ) : Prop :=
  Undisturbed initial t.log →
    Tracks initial t.cancelSent t.runtime.phase ∧ Balanced initial (some id) t.log

/-- What holds after a message was dispatched. -/
def AfterDispatch (initial : AgentPhase) (t : Turn σ) : Dispatched → Prop
  | .settled _ => Answered initial t
  | .undecided id _ => Deciding initial id t
  | .goOn => Keeping false initial none t

/-- A request for a permission is noted, or answered when a cancel has overtaken
it. -/
theorem ensures_dispatchPermission (id : RpcId) (params : Json) :
    Ensures (Keeping false initial (some id)) (dispatchPermission id params : Proc (Turn σ) _ _)
      (fun r t => AfterDispatch initial t r) fun _ => Answered initial := by
  refine .bind (M := fun actions t => actions = [.continue_] ∧ Deciding initial id t ∨
      actions = [.answerPermissionCancelled id] ∧ Keeping false initial (some id) t)
    (ensures_reportPhase ?_ ?_) fun actions => ?_
  · intro t actions phase hreport ht
    cases hphase : t.runtime.phase with
    | prompting pending =>
      rw [hphase] at hreport
      cases hreport
      refine .inl ⟨rfl, fun hok => ⟨?_, (ht hok).balanced⟩⟩
      have htracks := (ht hok).tracks
      rw [hphase] at htracks
      exact htracks.note
    | cancelling pending =>
      rw [hphase] at hreport
      cases hreport
      refine .inr ⟨rfl, fun hok => ⟨?_, nofun, (ht hok).balanced⟩⟩
      have htracks := (ht hok).tracks
      rwa [hphase] at htracks
    | ready | killing | dead =>
      rw [hphase] at hreport
      cases hreport
  · -- the process was not gone, so the turn is running
    intro t e hreport ht hok
    obtain ⟨-, hkilling, hdead⟩ := (ht hok).balanced.asked id rfl
    have hrunning := (ht hok).tracks.running hkilling hdead
    cases hphase : t.runtime.phase with
    | prompting _ | cancelling _ =>
      rw [hphase] at hreport
      cases hreport
    | ready | killing | dead =>
      rw [hphase] at hrunning
      exact hrunning.elim
  · intro t n ht
    rcases ht with ⟨rfl, ht⟩ | ⟨rfl, ht⟩
    · have hnote : Ensures (Deciding initial id)
          (pure (.undecided id (toolCallIdOf params)) : Proc (Turn σ) AcpError Dispatched)
          (fun r t => AfterDispatch initial t r) fun _ => Answered initial :=
        .pure fun _ h => h
      exact hnote t n ht
    · have hanswer : Ensures (Keeping false initial (some id))
          (do write (buildPermissionCancelled id); pure .goOn : Proc (Turn σ) AcpError Dispatched)
          (fun r t => AfterDispatch initial t r) fun _ => Answered initial :=
        .bind (ensures_write_answer id _) fun _ => .pure fun _ h => h
      have hsame : (answerCancelled [.answerPermissionCancelled id] >>= fun answered =>
          pure (if answered then .goOn else .undecided id (toolCallIdOf params)) :
            Proc (Turn σ) AcpError Dispatched) =
          (do write (buildPermissionCancelled id); pure .goOn) := by
        funext t n
        simp only [answerCancelled, Proc.bind_run]
        rcases write (buildPermissionCancelled id) t n with ⟨_ | _ | _, t', n'⟩ <;> rfl
      rw [hsame]
      exact hanswer t n ht

omit [ProcessTransport σ] in
/-- Settling leaves the log alone. -/
theorem ensures_settlePrompt (id : RpcId)
    (verdict : PromptDelivery → Except AcpError PromptDelivery) :
    Ensures (Answered initial) (settlePrompt id verdict : Proc (Turn σ) _ _)
      (fun _ => Answered initial) fun _ => Answered initial :=
  .bind (M := fun _ => Answered initial) (.modify fun _ h => h) fun _ =>
    .bind (M := fun _ => Answered initial)
      (ensures_reportDelivery (fun _ _ _ h => h) fun _ _ _ h => h) fun _ =>
        .bind (M := fun _ => Answered initial)
          (ensures_reportPhase (fun _ _ _ _ h => h) fun _ _ _ h => h) fun _ => .pure fun _ h => h

/-- Dispatching the message at hand. -/
theorem ensures_dispatch (promptId : RpcId) (m : RpcMessage) :
    Ensures (Keeping false initial m.owed) (dispatch promptId m : Proc (Turn σ) _ _)
      (fun r t => AfterDispatch initial t r) fun _ => Answered initial := by
  have hsettle (id : RpcId) (verdict : PromptDelivery → Except AcpError PromptDelivery) :
      Ensures (Keeping false initial none) (settlePrompt id verdict : Proc (Turn σ) _ _)
        (fun _ => Answered initial) fun _ => Answered initial :=
    (ensures_settlePrompt id verdict).mono (fun _ h => h.answered) (fun _ _ h => h)
      (fun _ _ h => h) fun _ h => h
  cases m with
  | response id result =>
    refine .ite (fun _ => .bind (hsettle id _) fun _ => ?_) fun _ => .pure fun _ h => h
    exact .bind (M := fun _ => Answered initial) (.ofExcept (fun _ _ _ h => h) fun _ _ _ h => h)
      fun _ => .pure fun _ h => h
  | errorResponse id error =>
    exact .ite (fun _ => .bind (hsettle id _) fun _ => .fail fun _ h => h) fun _ =>
      .pure fun _ h => h
  | request id method params =>
    refine .ite (fun hmethod => ?_) fun hmethod => ?_
    · rw [RpcMessage.owed, if_pos hmethod]
      exact ensures_dispatchPermission id params
    · rw [RpcMessage.owed, if_neg hmethod]
      exact .bind (ensures_write_other nofun) fun _ => .pure fun _ h => h
  | notification method params => exact .pure fun _ h => h

end Transport

section Handlers

variable [PromptHandlers σ]

/-- Minding the reply of the event handler. -/
theorem ensures_minded (sessionId : String) (reply : Except AcpError Unit) :
    Ensures (fun t => Keeping false initial owed t ∧
        (reply = .error .cancelled → t.cancelSent = false → CancelSeen initial owed t))
      (minded sessionId reply : Proc (Turn σ) _ _)
      (fun _ => Keeping false initial owed) fun _ => Answered initial := by
  unfold minded
  split
  · refine .bind (M := fun s t => s = t ∧ Keeping false initial owed t ∧
        (t.cancelSent = false → CancelSeen initial owed t))
      (.get fun t ht => ⟨rfl, ht.1, ht.2 rfl⟩) fun s => ?_
    refine .ite (fun _ => .pure fun _ h => h.2.1) fun hunsent => ?_
    refine (ensures_passCancel sessionId).mono ?_ (fun _ _ h => h) (fun _ _ h => h) fun _ h => h
    rintro t ⟨rfl, -, ht⟩
    exact ht (Bool.not_eq_true _ ▸ hunsent)
  · exact .pure fun _ h => h.1

/-- Handing events to the caller. -/
theorem ensures_deliverEvents (sessionId : String) (events : List NormalizedEvent) :
    Ensures (Keeping false initial owed) (deliverEvents sessionId events : Proc (Turn σ) _ _)
      (fun _ => Keeping false initial owed) fun _ => Answered initial := by
  induction events with
  | nil => exact .pure fun _ h => h
  | cons event rest ih =>
    refine .bind (ensures_callEvent fun t peer reply ht =>
        ⟨ht.neutral peer (fun _ => rfl) (fun _ => rfl) rfl, ?_⟩) fun reply =>
      .bind (ensures_minded sessionId reply) fun _ => ih
    rintro rfl hunsent
    exact cancelSeen ht hunsent peer (.inr ⟨_, rfl⟩) rfl

/-- Looking at the signal. -/
theorem ensures_checkSignal (sessionId : String) :
    Ensures (Keeping false initial none) (checkSignal sessionId : Proc (Turn σ) _ _)
      (fun _ => Keeping false initial none) fun _ => Answered initial := by
  refine .bind (M := fun s t => s = t ∧ Keeping false initial none t) (.get fun t ht => ⟨rfl, ht⟩)
    fun s => ?_
  refine .ite (fun _ => .pure fun _ h => h.2) fun hunsent => ?_
  refine .bind (M := fun raised t => Keeping false initial none t ∧
      (raised = true → CancelSeen initial none t)) (ensures_loadSignal ?_) fun raised => ?_
  · rintro t peer raised ⟨rfl, ht⟩
    refine ⟨ht.neutral peer (fun _ => rfl) (fun _ => rfl) rfl, ?_⟩
    rintro rfl
    exact cancelSeen ht (Bool.not_eq_true _ ▸ hunsent) peer (.inl ⟨_, rfl⟩) rfl
  · refine .ite (fun hraised => ?_) fun _ => .pure fun _ h => h.1
    exact (ensures_passCancel sessionId).mono (fun _ h => h.2 hraised) (fun _ _ h => h)
      (fun _ _ h => h) fun _ h => h

/-- The round goes on from a balanced log, or the run has ended. -/
def AfterRound (initial : AgentPhase) (t : Turn σ) : Option StopReason → Prop
  | some _ => Answered initial t
  | none => Keeping false initial none t

/-- Deciding the request that was noted. -/
theorem ensures_decide (id : RpcId) (toolCallId : Option String) :
    Ensures (Deciding initial id) (callPermission id toolCallId : Proc (Turn σ) _ _)
      (fun _ => Keeping false initial (some id)) fun _ => Answered initial := by
  refine ensures_callPermission (fun t peer outcome ht hok => ?_) fun t peer e ht hok => ?_
  · obtain ⟨htracks, hbalanced⟩ := ht (undisturbed_concat.1 hok).1
    refine ⟨htracks, fun _ _ => .inr (.inr ?_), hbalanced.neutral (fun _ => rfl) (fun _ => rfl) rfl⟩
    exact List.any_eq_true.2 ⟨_, List.mem_append_right _ (List.mem_singleton_self _), rfl⟩
  · cases (undisturbed_concat.1 hok).2

theorem ensures_conclude (r : Dispatched) :
    Ensures (fun t => AfterDispatch initial t r) (conclude r : Proc (Turn σ) _ _)
      (fun r t => AfterRound initial t r) fun _ => Answered initial := by
  cases r with
  | settled stopReason => exact .pure fun _ h => h
  | goOn => exact .pure fun _ h => h
  | undecided id toolCallId =>
    refine .bind (ensures_decide id toolCallId) fun outcome => ?_
    refine .bind (M := fun _ => Keeping false initial none) ?_ fun _ => .pure fun _ h => h
    cases outcome <;> exact ensures_write_answer id _

/-- One round of the loop. -/
theorem ensures_promptRound (sessionId : String) (promptId : RpcId) :
    Ensures (Keeping false initial none) (promptRound sessionId promptId : Proc (Turn σ) _ _)
      (fun r t => AfterRound initial t r) fun _ => Answered initial := by
  refine .bind (ensures_checkSignal sessionId) fun _ => .bind ensures_receive_inHand fun m => ?_
  cases m with
  | none => exact .pure fun _ h => h
  | some m =>
    refine .bind (M := fun _ => Keeping false initial m.owed) (.ofExcept (fun _ _ _ h => h.1) ?_)
      fun events => ?_
    · intro e t hm ht hok
      have howed := owed_of_malformed hm (ht.2 hok)
      have hkept := ht.1 hok
      rw [howed] at hkept
      exact hkept.balanced.answeredOnce
    · exact .bind (ensures_deliverEvents sessionId events) fun _ =>
        .bind (ensures_dispatch promptId m) ensures_conclude

/-- Any number of rounds. -/
theorem ensures_promptLoop (sessionId : String) (promptId : RpcId) (fuel : Nat) :
    Ensures (Keeping false initial none) (promptLoop sessionId promptId fuel : Proc (Turn σ) _ _)
      (fun _ => Answered initial) fun _ => Answered initial := by
  induction fuel with
  | zero => exact .pure fun _ h => h.answered
  | succ fuel ih =>
    refine .bind (ensures_promptRound sessionId promptId) fun r => ?_
    cases r with
    | none => exact ih
    | some stopReason => exact .pure fun _ h => h

/-- Writing the prompt. -/
theorem ensures_beginPrompt (runtime : AcpRuntime) (peer : σ) (prompt : List ContentBlock) :
    Ensures (· = Turn.start runtime peer) (beginPrompt prompt : Proc (Turn σ) _ _)
      (fun _ => Keeping false runtime.phase none) fun _ => Answered runtime.phase := by
  have hstart {t : Turn σ} (hlog : t.log = []) : Answered runtime.phase t := by
    intro _
    rw [hlog]
    exact (balanced_nil runtime.phase).answeredOnce
  refine .bind (M := fun s t => s = t ∧ t = Turn.start runtime peer) (.get fun t ht => ⟨rfl, ht⟩)
    fun s => ?_
  split
  · refine .fail ?_
    rintro t ⟨-, rfl⟩
    exact hstart rfl
  · -- nothing is written before the prompt, and the log is empty up to there
    refine .bind (M := fun _ t => t.runtime.phase = runtime.phase ∧ t.cancelSent = false ∧ t.log = [])
      (.modify ?_) fun _ => ?_
    · rintro t ⟨-, rfl⟩
      exact ⟨rfl, rfl, rfl⟩
    refine .bind (M := fun _ t => t.runtime.phase = runtime.phase ∧ t.cancelSent = false ∧ t.log = [])
      (ensures_reportDelivery (fun _ _ _ h => h) fun _ _ _ h => hstart h.2.2) fun _ => ?_
    refine .bind (M := fun _ => Keeping false runtime.phase none) (.modify ?_) fun _ =>
      .bind (ensures_write_other nofun) fun _ => .pure fun _ h => h
    rintro t ⟨hphase, hcancel, hlog⟩ -
    refine ⟨?_, ?_, ?_⟩
    · change Tracks _ t.cancelSent t.runtime.phase.onPromptWritten
      rw [hphase, hcancel]
      exact tracks_onPromptWritten _
    · change Noted _ t.runtime.phase.onPromptWritten _
      rw [hphase]
      intro pending hpending
      cases hinitial : runtime.phase with
      | prompting noted => cases noted <;> simp_all [AgentPhase.onPromptWritten, AgentPhase.isStale]
      | _ => simp_all [AgentPhase.onPromptWritten]
    · change Balanced _ _ t.log
      rw [hlog]
      exact balanced_nil _

/-- **Permissions are answered once.** In every run of a prompt, with any agent
and any handlers, as long as it is undisturbed: every request of the agent for a
permission has been answered when the prompt ends, and none was ever answered
twice. -/
theorem permissions_answered_once (runtime : AcpRuntime) (peer : σ) (prompt : List ContentBlock)
    (fuel : Nat)
    (hok : Undisturbed runtime.phase
      (promptWithHandlers prompt fuel (Turn.start runtime peer) none).state.log) :
    AnsweredOnce (promptWithHandlers prompt fuel (Turn.start runtime peer) none).state.log := by
  have hspec : Ensures (· = Turn.start runtime peer)
      (promptWithHandlers prompt fuel : Proc (Turn σ) _ _)
      (fun _ => Answered runtime.phase) fun _ => Answered runtime.phase :=
    .bind (ensures_beginPrompt runtime peer prompt) fun ids =>
      ensures_promptLoop ids.1 ids.2 fuel
  have hrun := hspec (Turn.start runtime peer) none rfl
  revert hok hrun
  rcases promptWithHandlers prompt fuel (Turn.start runtime peer) none with ⟨_ | _ | _, t, n⟩
  · exact fun hok hrun => hrun.1 hok
  · exact fun hok hrun => hrun.1 hok
  · exact fun _ hrun => (hrun.2 rfl).elim

end Handlers

end Specs

section Sample

attribute [local instance] plainSerde

/-- An agent that asks for a permission and finishes. -/
def askingAgent : Scripted where
  writes := []
  reads := [.ok (some (some permissionLine)), .ok none, .ok (some (some resultLine))]
  signals := []
  replies := []
  decisions := [.ok (some (.object [("optionId", str "allow")]))]

set_option maxRecDepth 20000 in
/-- Without a cancel the request is answered once. -/
theorem permissions_answered_once_asking :
    Undisturbed sampleRuntime.phase (promptWithHandlers [.text "hi"] 8
      (Turn.start sampleRuntime askingAgent) none).state.log ∧
    AnsweredOnce (promptWithHandlers [.text "hi"] 8
      (Turn.start sampleRuntime askingAgent) none).state.log :=
  ⟨by decide, permissions_answered_once _ _ _ _ (by decide)⟩

set_option maxRecDepth 20000 in
/-- A cancel that comes when the request was approved answers it again. -/
theorem approved_permission_answered_again :
    ¬ AnsweredOnce (promptWithHandlers [.text "hi"] 8
      (Turn.start sampleRuntime { askingAgent with signals := [false, true] }) none).state.log := by
  intro h
  have hcount := h.answered (.number 7)
  revert hcount
  decide

end Sample

end Altior.Acp
