import Altior.Application.EventPump
import Altior.Runtime.Ledger

/-!
# The command dispatcher

Commands with an operation identifier, passed to the handlers of the application
behind a ledger of operations (`altior-core/src/application/dispatch.rs`).  The
handlers are arbitrary: what the dispatcher promises has to hold whatever they
answer.
-/

namespace Altior.Application

open Domain Lib Altior.Runtime Storage

/-- The capacity of the application's ledger. -/
def defaultOperationCapacity : Nat := 256

/-- The commands.  `Q` stands for the payloads that are passed on unread. -/
inductive CoreCommand (Q : Type)
  | ping
  | configureAgent (request : Q)
  | testAgentBinding (binding : AcpHarnessBinding)
  | createThread (threadId : ThreadId) (agentProfileId : AgentProfileId) (title : Option String)
      (projectId : Option ProjectId)
  | listThreads (request : Q)
  | searchThreads (request : Q)
  | openThread (threadId : ThreadId) (binding : Option AcpHarnessBinding)
  | startPrompt (threadId : ThreadId) (turnId : TurnId) (content : String)
  | cancel (threadId : ThreadId)
  | permissionDecision (threadId : ThreadId) (permissionId : EventId)
      (decision : PermissionDecision)
  | status
  | diagnostics (threadId : Option ThreadId)

/-- A command with its operation and the time it was issued. -/
structure CoreCommandEnvelope (Q : Type) where
  operationId : OperationId
  issuedAt : UInt64
  command : CoreCommand Q

/-- The responses.  `A` stands for the rows and reports that are handed through. -/
inductive CoreCommandResponse (A : Type)
  | pong
  | agentConfigured
  | agentBindingTested (outcome : A)
  | threadCreated (row : A)
  | threadList (rows : A)
  | searchResults (rows : A)
  | threadOpened (result : A)
  | promptStarted (admission : TurnAdmission)
  | cancelled (outcome : CancelOutcome)
  | permissionDecided
  | status (report : A)
  | diagnostics (report : A)
  | duplicateAcknowledged (operationId : OperationId)

/-- A handler of the application: it answers or fails, and changes the
application either way. -/
abbrev Handler (S α : Type) : Type := S → Except CoreAppError α × S

/-- The handlers a command is passed to. -/
class CoreHandlers (S Q A : Type) where
  configureAgent : Q → Handler S Unit
  testAgentBinding : AcpHarnessBinding → Handler S A
  createThread : ThreadId → AgentProfileId → Option String → Option ProjectId → UInt64 →
    Handler S A
  listThreads : Q → Handler S A
  searchThreads : Q → Handler S A
  openThread : ThreadId → Option AcpHarnessBinding → Handler S A
  startPrompt : OperationId → ThreadId → TurnId → String → UInt64 → Handler S TurnAdmission
  cancelTurn : OperationId → ThreadId → UInt64 → Handler S CancelOutcome
  decidePermission : OperationId → ThreadId → EventId → PermissionDecision → UInt64 →
    Handler S Unit
  /-- The report holds the number of admitted operations. -/
  getStatus : Nat → Handler S A
  getDiagnostics : Option ThreadId → Handler S A

section Dispatch

variable {S Q A : Type} [CoreHandlers S Q A]

/-- The application with its ledger. -/
structure Dispatcher (S : Type) where
  app : S
  operations : OperationRegistry

/-- The arms of the dispatch. -/
def execute (registered : Nat) (envelope : CoreCommandEnvelope Q) (app : S) :
    Except CoreAppError (CoreCommandResponse A) × S :=
  match envelope.command with
  | .ping => (.ok .pong, app)
  | .configureAgent request =>
    (CoreHandlers.configureAgent A request app).map (·.map fun _ => .agentConfigured) id
  | .testAgentBinding binding =>
    (CoreHandlers.testAgentBinding Q binding app).map (·.map .agentBindingTested) id
  | .createThread threadId agentProfileId title projectId =>
    (CoreHandlers.createThread Q threadId agentProfileId title projectId envelope.issuedAt
      app).map (·.map .threadCreated) id
  | .listThreads request => (CoreHandlers.listThreads request app).map (·.map .threadList) id
  | .searchThreads request => (CoreHandlers.searchThreads request app).map (·.map .searchResults) id
  | .openThread threadId binding =>
    (CoreHandlers.openThread Q threadId binding app).map (·.map .threadOpened) id
  | .startPrompt threadId turnId content =>
    (CoreHandlers.startPrompt Q A envelope.operationId threadId turnId content envelope.issuedAt
      app).map (·.map .promptStarted) id
  | .cancel threadId =>
    (CoreHandlers.cancelTurn Q A envelope.operationId threadId envelope.issuedAt app).map
      (·.map .cancelled) id
  | .permissionDecision threadId permissionId decision =>
    (CoreHandlers.decidePermission Q A envelope.operationId threadId permissionId decision
      envelope.issuedAt app).map (·.map fun _ => .permissionDecided) id
  | .status => (CoreHandlers.getStatus Q registered app).map (·.map .status) id
  | .diagnostics threadId => (CoreHandlers.getDiagnostics Q threadId app).map (·.map .diagnostics) id

/-- Dispatches a command.  Only a command that succeeded is marked finished in
the ledger. -/
def dispatch (d : Dispatcher S) (envelope : CoreCommandEnvelope Q) :
    Except CoreAppError (CoreCommandResponse A) × Dispatcher S :=
  match d.operations.admitOperation envelope.operationId with
  | (.ok .duplicate, operations) =>
    (.ok (.duplicateAcknowledged envelope.operationId), { d with operations := operations })
  | (.error err, operations) => (.error (.admission err), { d with operations := operations })
  | (.ok .execute, operations) =>
    match execute operations.admitted.size envelope d.app with
    | (.ok response, app) => (.ok response, ⟨app, operations.retire envelope.operationId⟩)
    | (.error err, app) => (.error err, ⟨app, operations⟩)

/-! ## Runs -/

/-- The dispatcher with the operations whose last execution failed, or that were
refused, and the operations refused for want of capacity. -/
structure Bookkeeping (S : Type) where
  dispatcher : Dispatcher S
  failed : List OperationId
  refused : List OperationId

variable (A) in
/-- One dispatch. -/
def Bookkeeping.dispatch (s : Bookkeeping S) (envelope : CoreCommandEnvelope Q) : Bookkeeping S where
  dispatcher := (Application.dispatch (A := A) s.dispatcher envelope).2
  failed :=
    match (Application.dispatch (A := A) s.dispatcher envelope).1 with
    | .error _ => envelope.operationId :: s.failed
    | .ok (.duplicateAcknowledged _) => s.failed
    | .ok _ => s.failed.filter (· ≠ envelope.operationId)
  refused :=
    match (s.dispatcher.operations.admitOperation envelope.operationId).1 with
    | .error .full => envelope.operationId :: s.refused
    | _ => s.refused

variable (Q A) in
/-- The dispatcher of an application over its whole life. -/
def dispatchMachine (app : S) : Machine (Bookkeeping S) (CoreCommandEnvelope Q) :=
  ⟨⟨⟨app, .new defaultOperationCapacity⟩, [], []⟩, Bookkeeping.dispatch A⟩

/-- Failed commands leave the ledger as if they had not been there: they take no
capacity, their operations are executed when dispatched again, and no command was
refused for want of capacity. -/
structure Bookkeeping.Unpoisoned (s : Bookkeeping S) : Prop where
  released : ∀ op ∈ s.failed, op ∉ s.dispatcher.operations.admitted
  executed : ∀ op ∈ s.failed, (s.dispatcher.operations.admitOperation op).1 = .ok .execute
  admitted : s.refused = []

variable (A) in
/-- A command the ledger admits succeeds. -/
def Succeeds (s : Bookkeeping S) (envelope : CoreCommandEnvelope Q) : Prop :=
  (s.dispatcher.operations.admitOperation envelope.operationId).1 = .ok .execute →
    (execute (A := A)
      (s.dispatcher.operations.admitOperation envelope.operationId).2.admitted.size envelope
      s.dispatcher.app).1.isOk = true

/-- What holds of the ledger whatever the handlers answer. -/
structure Bookkeeping.Booked (s : Bookkeeping S) : Prop where
  failed : ∀ op ∈ s.dispatcher.operations.admitted, op ∈ s.failed
  capacity : s.dispatcher.operations.capacity = defaultOperationCapacity

/-- An executed command is never answered as a duplicate. -/
theorem execute_ne_duplicate (registered : Nat) (envelope : CoreCommandEnvelope Q) (app : S)
    (op : OperationId) :
    (execute (A := A) registered envelope app).1 ≠ .ok (.duplicateAcknowledged op) := by
  have hmap {α : Type} (r : Except CoreAppError α) (f : α → CoreCommandResponse A)
      (hf : ∀ a, f a ≠ .duplicateAcknowledged op) : r.map f ≠ .ok (.duplicateAcknowledged op) := by
    cases r with
    | error err => exact nofun
    | ok a => exact fun h => hf a (Except.ok.inj h)
  unfold execute
  split
  · exact nofun
  all_goals exact hmap _ _ fun _ => nofun

/-- **Inversion.** What one dispatch does. -/
theorem served_cases (s : Bookkeeping S) (envelope : CoreCommandEnvelope Q) :
    (s.dispatch A envelope = s ∧
        s.dispatcher.operations.knows envelope.operationId = true) ∨
      (s.dispatch A envelope = ⟨s.dispatcher, envelope.operationId :: s.failed,
          envelope.operationId :: s.refused⟩ ∧
        s.dispatcher.operations.admitted.size = s.dispatcher.operations.capacity) ∨
      (s.dispatcher.operations.admitOperation envelope.operationId = (.ok .execute,
          { s.dispatcher.operations with
            admitted := s.dispatcher.operations.admitted.insert envelope.operationId () }) ∧
        ((Succeeds A s envelope ∧ ∃ app, s.dispatch A envelope =
            ⟨⟨app, { s.dispatcher.operations with
                admitted := s.dispatcher.operations.admitted.insert envelope.operationId ()
                }.retire envelope.operationId⟩,
              s.failed.filter (· ≠ envelope.operationId), s.refused⟩) ∨
          (¬ Succeeds A s envelope ∧ ∃ app, s.dispatch A envelope =
            ⟨⟨app, { s.dispatcher.operations with
                admitted := s.dispatcher.operations.admitted.insert envelope.operationId () }⟩,
              envelope.operationId :: s.failed, s.refused⟩))) := by
  rcases OperationRegistry.admitOperation_cases s.dispatcher.operations envelope.operationId with
    ⟨hcase, hknows⟩ | ⟨hcase, hsize⟩ | ⟨hcase, -⟩
  · left
    simp only [Bookkeeping.dispatch, Application.dispatch, hcase]
    exact ⟨trivial, hknows⟩
  · refine .inr (.inl ⟨?_, hsize⟩)
    simp only [Bookkeeping.dispatch, Application.dispatch, hcase]
  · refine .inr (.inr ⟨hcase, ?_⟩)
    simp only [Bookkeeping.dispatch, Application.dispatch, Succeeds, hcase]
    have hne := execute_ne_duplicate (A := A)
      (s.dispatcher.operations.admitted.insert envelope.operationId ()).size envelope
      s.dispatcher.app
    rcases hrun : execute (A := A)
      (s.dispatcher.operations.admitted.insert envelope.operationId ()).size envelope
      s.dispatcher.app with ⟨err | response, app⟩
    · exact .inr ⟨by simp [Except.isOk, Except.toBool], app, rfl⟩
    · refine .inl ⟨by simp [Except.isOk, Except.toBool], app, ?_⟩
      cases response with
      | duplicateAcknowledged op => exact absurd (by rw [hrun]) (hne op)
      | _ => rfl

theorem booked_dispatch {s : Bookkeeping S} (h : s.Booked) (envelope : CoreCommandEnvelope Q) :
    (s.dispatch A envelope).Booked := by
  rcases served_cases (A := A) s envelope with
    ⟨heq, -⟩ | ⟨heq, -⟩ | ⟨-, ⟨-, app, heq⟩ | ⟨-, app, heq⟩⟩ <;> rw [heq]
  · exact h
  · exact ⟨fun op hop => List.mem_cons_of_mem _ (h.failed op hop), h.capacity⟩
  · refine ⟨fun op hop => ?_, h.capacity⟩
    obtain ⟨hne, hop⟩ := OperationRegistry.mem_admitted_retire.1 hop
    rcases Table.mem_insert_iff.1 hop with heq | hop
    · exact absurd heq hne
    · exact List.mem_filter.2 ⟨h.failed op hop, decide_eq_true hne⟩
  · refine ⟨fun op hop => ?_, h.capacity⟩
    rcases Table.mem_insert_iff.1 hop with rfl | hop
    · exact List.mem_cons_self
    · exact List.mem_cons_of_mem _ (h.failed op hop)

/-- An unpoisoned ledger is empty between two commands. -/
theorem Bookkeeping.Unpoisoned.empty {s : Bookkeeping S} (h : s.Unpoisoned) (hbooked : s.Booked) :
    s.dispatcher.operations.admitted = ∅ := by
  refine Std.ExtTreeMap.eq_empty_iff_forall_not_mem.2 fun op hop => ?_
  exact h.released op (hbooked.failed op hop) hop

theorem unpoisoned_dispatch {s : Bookkeeping S} (h : s.Unpoisoned) (hbooked : s.Booked)
    (envelope : CoreCommandEnvelope Q) :
    (s.dispatch A envelope).Unpoisoned ↔ Succeeds A s envelope := by
  have hempty := h.empty hbooked
  rcases served_cases (A := A) s envelope with
    ⟨heq, hknows⟩ | ⟨-, hsize⟩ | ⟨hcase, ⟨hok, app, heq⟩ | ⟨hfail, app, heq⟩⟩
  · -- a duplicate is not executed
    refine iff_of_true (by rw [heq]; exact h) fun hexecute => ?_
    obtain ⟨hnew, hold, -⟩ := OperationRegistry.execute_iff.1 hexecute
    exact absurd (OperationRegistry.knows_iff.1 hknows) (not_or.2 ⟨hnew, hold⟩)
  · rw [hempty, hbooked.capacity] at hsize
    cases hsize
  · refine iff_of_true ?_ hok
    rw [heq]
    have hnone : ∀ op, op ∉ ({ s.dispatcher.operations with
        admitted := s.dispatcher.operations.admitted.insert envelope.operationId ()
        }.retire envelope.operationId).admitted := by
      intro op hop
      obtain ⟨hne, hop⟩ := OperationRegistry.mem_admitted_retire.1 hop
      rcases Table.mem_insert_iff.1 hop with heq | hop
      · exact hne heq
      · exact absurd (hempty ▸ hop) Std.ExtTreeMap.not_mem_empty
    refine ⟨fun op _ => hnone op, fun op hop => ?_, h.admitted⟩
    obtain ⟨hop, hne⟩ := List.mem_filter.1 hop
    have hne : op ≠ envelope.operationId := of_decide_eq_true hne
    refine OperationRegistry.execute_iff.2 ⟨hnone op, fun hfinished => ?_, ?_⟩
    · rcases OperationRegistry.mem_finished_retire hfinished with heq | hfinished
      · exact hne heq
      · exact (OperationRegistry.execute_iff.1 (h.executed op hop)).2.1 hfinished
    · rw [Std.ExtTreeMap.eq_empty_iff_forall_not_mem.2 hnone]
      change 0 ≠ s.dispatcher.operations.capacity
      rw [hbooked.capacity]
      decide
  · refine iff_of_false (fun hclean => ?_) hfail
    rw [heq] at hclean
    exact hclean.released envelope.operationId List.mem_cons_self (Table.mem_insert_iff.2 (.inl rfl))

variable (Q A) in
/-- **The ledger.** Over every sequence of dispatches, failed commands leave no
trace in the ledger as long as no admitted command fails. -/
theorem ledger_unpoisoned_iff (app : S) (envelopes : List (CoreCommandEnvelope Q)) :
    (∀ done, done <+: envelopes → ((dispatchMachine Q A app).run done).Unpoisoned) ↔
      (dispatchMachine Q A app).Meets (Succeeds A) (dispatchMachine Q A app).init envelopes := by
  have hbooked : ∀ done, ((dispatchMachine Q A app).run done).Booked :=
    (dispatchMachine Q A app).invariant (I := Bookkeeping.Booked)
      (fun s envelope h => booked_dispatch h envelope)
      ⟨fun _ h => absurd h Std.ExtTreeMap.not_mem_empty, rfl⟩
  have hstep : ∀ (s : Bookkeeping S) (envelope : CoreCommandEnvelope Q), s.Unpoisoned ∧ s.Booked →
      ((s.dispatch A envelope).Unpoisoned ∧ (s.dispatch A envelope).Booked ↔
        Succeeds A s envelope) := by
    rintro s envelope ⟨h, hs⟩
    rw [and_iff_left (booked_dispatch hs envelope)]
    exact unpoisoned_dispatch h hs envelope
  have hinit : (dispatchMachine Q A app).init.Unpoisoned ∧ (dispatchMachine Q A app).init.Booked :=
    ⟨⟨fun _ h => absurd h List.not_mem_nil, fun _ h => absurd h List.not_mem_nil, rfl⟩, hbooked []⟩
  rw [← (dispatchMachine Q A app).prefixes_iff_meets hstep hinit]
  exact forall₂_congr fun done _ => (and_iff_left (hbooked done)).symm

end Dispatch

section Sample

/-- Handlers that know no thread. -/
abbrev threadlessHandlers : CoreHandlers Unit Unit Unit where
  configureAgent _ app := (.ok (), app)
  testAgentBinding _ app := (.ok (), app)
  createThread threadId _ _ _ _ app := (.error (.threadNotFound threadId), app)
  listThreads _ app := (.ok (), app)
  searchThreads _ app := (.ok (), app)
  openThread threadId _ app := (.error (.threadNotFound threadId), app)
  startPrompt _ threadId _ _ _ app := (.error (.threadNotFound threadId), app)
  cancelTurn _ threadId _ app := (.error (.threadNotFound threadId), app)
  decidePermission _ threadId _ _ _ app := (.error (.threadNotFound threadId), app)
  getStatus _ app := (.ok (), app)
  getDiagnostics _ app := (.ok (), app)

attribute [local instance] threadlessHandlers

/-- The thread of the command that fails is not there; the operation keeps its
place in the ledger. -/
theorem not_unpoisoned_after_failure :
    ¬ ∀ envelopes : List (CoreCommandEnvelope Unit),
      ((dispatchMachine Unit Unit ()).run envelopes).Unpoisoned := by
  intro h
  have hreleased := (h [⟨⟨"op_0000000000000001", by decide⟩, 1,
    .cancel ⟨"thr_0000000000000001", by decide⟩⟩]).released
  exact hreleased ⟨"op_0000000000000001", by decide⟩ (by decide) (by decide)

end Sample

end Altior.Application
