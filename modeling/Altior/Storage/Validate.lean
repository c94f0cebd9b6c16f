import Altior.Storage.Fold

/-!
# Validation of domain events

`validate_domain_event_in_tx` of `altior-storage/src/lib.rs`: which events the
journal accepts on top of the current projections.  Append and rebuild run the
same check.
-/

namespace Altior.Storage

open Domain Lib

/-- A check that refuses the event with a detail. -/
def require (c : Prop) [Decidable c] (detail : Detail) : Except StorageError Unit :=
  if c then .ok () else .error (.invalidDomainEvent detail)

@[simp] theorem require_eq_ok {c : Prop} [Decidable c] {detail : Detail} :
    require c detail = .ok () ↔ c := by
  unfold require
  split <;> simp_all

/-- A value that has to be there. -/
def requireSome {α : Type} (v : Option α) (detail : Detail) : Except StorageError α :=
  match v with
  | some a => .ok a
  | none => .error (.invalidDomainEvent detail)

@[simp] theorem requireSome_eq_ok {α : Type} {v : Option α} {detail : Detail} {a : α} :
    requireSome v detail = .ok a ↔ v = some a := by
  cases v <;> simp [requireSome]

/-- A parse that has to succeed. -/
def requireOk {ε α : Type} (r : Except ε α) (detail : ε → Detail) : Except StorageError Unit :=
  match r with
  | .ok _ => .ok ()
  | .error e => .error (.invalidDomainEvent (detail e))

@[simp] theorem requireOk_eq_ok {ε α : Type} {r : Except ε α} {detail : ε → Detail} :
    requireOk r detail = .ok () ↔ ∃ a, r = .ok a := by
  cases r <;> simp [requireOk]

/-- A check of a value that may be missing. -/
def whenSome {α : Type} (v : Option α) (check : α → Except StorageError Unit) :
    Except StorageError Unit :=
  match v with
  | some a => check a
  | none => .ok ()

@[simp] theorem whenSome_eq_ok {α : Type} {v : Option α} {check : α → Except StorageError Unit} :
    whenSome v check = .ok () ↔ ∀ a, v = some a → check a = .ok () := by
  cases v <;> simp [whenSome]

theorem bind_eq_ok {ε α β : Type} {x : Except ε α} {f : α → Except ε β} {b : β} :
    (x >>= f) = .ok b ↔ ∃ a, x = .ok a ∧ f a = .ok b := by
  cases x <;> simp [bind, Except.bind]

theorem map_eq_ok {ε α β : Type} {x : Except ε α} {f : α → β} {b : β} :
    (f <$> x) = .ok b ↔ ∃ a, x = .ok a ∧ f a = b := by
  cases x <;> simp [Functor.map, Except.map]

/-- A non-empty string member of the payload. -/
def req (v : Json) (k : String) : Except StorageError String :=
  requireSome ((v.getStr k).filter fun s => !s.isEmpty) ("missing/wrong " ++ k : String)

/-! ## Memory events -/

/-- The kinds handled by the memory validator. -/
def isMemoryKind : DomainEventKind → Bool
  | .memoryProposed | .memoryConfirmed | .memoryRejected | .memorySuperseded | .memoryForgotten
  | .memoryExpired => true
  | _ => false

def validateMemoryDraftPayload (v : Json) : Except StorageError Unit := do
  let content ← requireSome (v.getStr "content") "missing/wrong content"
  require (trim content.toList ≠ []) "empty memory content"
  require (content.utf8ByteSize ≤ memoryContentMaxBytes) "memory content exceeds capacity"
  require (isSecretShaped content = false) "secret-shaped memory content refused"
  requireOk (MemoryScope.tryFromParts ((v.getStr "scope_kind").getD "global")
    (v.getStr "scope_target")) (.entityError "invalid memory scope: ")
  requireOk (MemoryKind.tryFromStr ((v.getStr "kind").getD "fact"))
    (.entityError "invalid memory kind: ")
  whenSome (v.getU64 "confidence") fun conf => require (conf ≤ 100)
    ("memory confidence " ++ toString conf.toNat ++ " exceeds 100" : String)
  whenSome (v.getStr "sensitivity") fun sens =>
    requireOk (MemorySensitivity.tryFromStr sens) (.entityError "invalid memory sensitivity: ")
  whenSome (v.getStr "source") fun src =>
    requireOk (MemorySource.tryFromStr src) (.entityError "invalid memory source: ")
  whenSome (v.getStr "excerpt") fun excerpt => do
    require (excerpt.utf8ByteSize ≤ memoryExcerptMaxBytes) "memory excerpt exceeds capacity"
    require (isSecretShaped excerpt = false) "secret-shaped memory excerpt refused"

/-- The memory has to be there in the given state. -/
def requireMemoryState (p : Projections) (memId state : String) (detail : Detail) :
    Except StorageError Unit := do
  let row ← requireSome p.memory[memId]? "memory not found"
  require (row.state = state) detail

def validateMemoryKindTransitionInTx (p : Projections) (kind : DomainEventKind) (memId : String)
    (v : Json) : Except StorageError Unit :=
  match kind with
  | .memoryProposed => do
      validateMemoryDraftPayload v
      require (memId ∉ p.memory) "memory already exists"
  | .memoryConfirmed =>
    match p.memory[memId]? with
    | some row => require (row.state = "candidate") "cannot confirm non-candidate memory"
    | none => validateMemoryDraftPayload v
  | .memoryRejected => requireMemoryState p memId "candidate" "cannot reject non-candidate memory"
  | .memorySuperseded => do
      let superseding ← req v "superseded_by"
      requireOk (Id.parse "mem_" superseding) (.idError "invalid superseded_by memory_id: ")
      let row ← requireSome p.memory[memId]? "memory not found"
      require (row.state = "confirmed" ∧ row.supersededBy = none)
        "cannot supersede non-confirmed or already-superseded memory"
  | .memoryForgotten => requireMemoryState p memId "confirmed" "cannot forget non-confirmed memory"
  | .memoryExpired => requireMemoryState p memId "confirmed" "cannot expire non-confirmed memory"
  | _ => .ok ()

variable [SerdeJson]

open SerdeJson

def validateMemoryDomainEventInTx (p : Projections) (e : DomainEvent) (v : Json) :
    Except StorageError Unit := do
  whenSome e.threadId fun thr => require (thr.asStr ∈ p.thread) "thread missing"
  let memId ← req v "memory_id"
  requireOk (Id.parse "mem_" memId) (.idError "invalid memory_id: ")
  validateMemoryKindTransitionInTx p e.kind memId v

/-! ## Thread, turn and permission events -/

/-- `turn` has exactly one row with this id in this thread. -/
def requireTurnOfThread (p : Projections) (turn : TurnId) (t : ThreadId) :
    Except StorageError Unit :=
  require ((p.turn[turn.asStr]?).any fun row => row.threadId == t.asStr) "turn missing/cross-thread"

/-- The turn is active. -/
def requireActiveTurn (p : Projections) (turn : TurnId) (detail : Detail) :
    Except StorageError Unit :=
  require ((p.turn[turn.asStr]?).any fun row => row.state == "active") detail

def validateThreadCreated (e : DomainEvent) (v : Json) : Except StorageError Unit := do
  let agp ← req v "agent_profile_id"
  requireOk (Id.parse "agp_" agp) (.idError "invalid agent_profile_id: ")
  whenSome ((v.getStr "project_id").filter fun s => !s.isEmpty) fun prj =>
    requireOk (Id.parse "prj_" prj) (.idError "invalid project_id: ")
  whenSome (v.get "title") fun titleVal => do
    let title ← requireSome titleVal.asStr "title must be a string"
    require (title.utf8ByteSize ≤ maxThreadTitleBytes) "title exceeds capacity"
  require (e.turnId = none) "create has turn scope"

/-- The checks of one kind, before the common check that the thread exists. -/
def validateKind (p : Projections) (e : DomainEvent) (t : ThreadId) (v : Json) :
    Except StorageError Unit :=
  match e.kind with
  | .threadCreated => validateThreadCreated e v
  | .threadTitleChanged => do
      let title ← requireSome (v.getStr "title") "missing/wrong title"
      require (title.utf8ByteSize ≤ maxThreadTitleBytes) "title exceeds capacity"
  | .threadStateChanged => do
      let state ← req v "state"
      require (state ∈ ["open", "pinned", "archived"]) "invalid state"
  | .turnStarted => do
      let turn ← requireSome e.turnId "start missing turn"
      require (turn.asStr ∉ p.turn) "turn already exists"
  | .messageDelta => do
      let turn ← requireSome e.turnId "turn scope required"
      requireTurnOfThread p turn t
      requireActiveTurn p turn "turn is terminal; requires active turn"
  | .permissionRequested => do
      let turn ← requireSome e.turnId "turn scope required"
      requireTurnOfThread p turn t
      requireActiveTurn p turn "turn is terminal; requires active turn"
      let _ ← req v "description"
      let kind ← req v "permission_kind"
      require (kind ∈ ["execute", "read", "write", "network"]) "invalid permission kind"
  | .turnCompleted | .turnCancelled | .turnFailed => do
      let turn ← requireSome e.turnId "turn scope required"
      requireTurnOfThread p turn t
      requireActiveTurn p turn "terminal requires active turn"
  | .permissionDecided => do
      let turn ← requireSome e.turnId "turn scope required"
      requireTurnOfThread p turn t
      requireActiveTurn p turn "turn is terminal; permission cannot be decided"
      let id ← req v "permission_event_id"
      let decision ← req v "decision"
      require (decision ∈ ["approved", "denied"]) "invalid decision"
      require ((p.permission[id]?).any fun row =>
          row.turnId == turn.asStr && row.threadId == t.asStr && row.decision == "pending")
        "decision requires pending permission"
  | _ => .ok ()

/-- A custom kind has no turn scope. -/
def isOther : DomainEventKind → Bool
  | .other _ => true
  | _ => false

/-- Whether the journal accepts the event on top of the projections. -/
def validateDomainEventInTx (p : Projections) (e : DomainEvent) : Except StorageError Unit := do
  requireOk (DomainEventKind.tryFromStr e.kind.asStr) (.entityError "")
  let v ← requireSome ((fromSlice e.payload.asBytes).filter Json.isObject)
    "payload is not JSON object"
  if isMemoryKind e.kind then validateMemoryDomainEventInTx p e v
  else if isOther e.kind && e.turnId.isSome then
    .error (.invalidDomainEvent "custom event cannot have turn scope")
  else if isOther e.kind && e.threadId.isNone then .ok ()
  else do
    let t ← requireSome e.threadId "thread scope required"
    validateKind p e t v
    require (e.kind = .threadCreated ∨ t.asStr ∈ p.thread) "thread missing"

end Altior.Storage
