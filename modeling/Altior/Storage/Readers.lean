import Altior.Domain.Record
import Altior.Storage.MemoryIndex

/-!
# Reading rows back

The mappers from table rows to typed records and the queries built on them
(`row_to_memory_record` of `altior-storage/src/memory.rs`, `row_to_permission` of
`altior-storage/src/lib.rs`).  Thread and turn rows are handed out as they are.
The journal checks a payload when it is appended and the mappers check the row
when it is read; the main result says for which payloads the two agree.
-/

namespace Altior.Storage

open Domain Lib

/-- The failures of a read.  A formatted cause is kept as a value. -/
inductive ReadError
  | invalidEntityData (detail : Detail)
  | sqlite (operation : String)
deriving DecidableEq, Repr

/-! ## Columns -/

/-- A column that has to parse as an identifier. -/
def readId (pre raw detail : String) : Except ReadError (Id pre) :=
  match Id.parse pre raw with
  | .ok id => .ok id
  | .error e => .error (.invalidEntityData (.idError detail e))

/-- A column that has to pass the check of its domain type. -/
def readEntity {α : Type} (r : Except EntityError α) (detail : String) : Except ReadError α :=
  match r with
  | .ok a => .ok a
  | .error e => .error (.invalidEntityData (.entityError detail e))

/-- A time column; a negative one is refused. -/
def readMillis (raw : Int) (field : String) : Except ReadError UInt64 :=
  if raw < 0 then
    .error (.invalidEntityData ("negative " ++ field ++ " " ++ toString raw : String))
  else .ok (.ofNat raw.toNat)

/-- `Option::transpose` around the read of a nullable column. -/
def readOption {α β : Type} (raw : Option α) (read : α → Except ReadError β) :
    Except ReadError (Option β) :=
  match raw with
  | none => .ok none
  | some a => some <$> read a

/-- An integer column read as a `u8`. -/
def readU8 (raw : Int) (field : String) : Except ReadError UInt8 :=
  if 0 ≤ raw ∧ raw ≤ 255 then .ok (.ofNat raw.toNat) else .error (.sqlite field)

/-! ## Rows -/

/-- Maps one `memory` row to a record. -/
def rowToMemoryRecord (id : String) (row : MemoryRow) : Except ReadError MemoryRecord := do
  let confidence ← readU8 row.confidence "confidence"
  let memoryId ← readId "mem_" id ("invalid memory_id " ++ id ++ ": ")
  let content ← readEntity (MemoryContent.tryFrom row.content) "invalid memory content: "
  let scope ← readEntity (MemoryScope.tryFromParts row.scopeKind row.scopeTarget)
    "invalid memory scope: "
  let kind ← readEntity (MemoryKind.tryFromStr row.kind)
    ("invalid memory kind " ++ row.kind ++ ": ")
  let state ← readEntity (MemoryState.tryFromStr row.state)
    ("invalid memory state " ++ row.state ++ ": ")
  let sensitivity ← readEntity (MemorySensitivity.tryFromStr row.sensitivity)
    ("invalid memory sensitivity " ++ row.sensitivity ++ ": ")
  let source ← readEntity (MemorySource.tryFromStr row.source)
    ("invalid memory source " ++ row.source ++ ": ")
  let threadId ← readOption row.provenanceThreadId fun s =>
    readId "thr_" s "invalid provenance thread_id: "
  let turnId ← readOption row.provenanceTurnId fun s =>
    readId "trn_" s "invalid provenance turn_id: "
  let excerpt ← readOption row.excerpt fun s =>
    readEntity (MemoryExcerpt.tryFrom s) "invalid provenance excerpt: "
  let createdAt ← readMillis row.createdAt "created_at"
  let updatedAt ← readMillis row.updatedAt "updated_at"
  let expiresAt ← readOption row.expiresAt fun raw => readMillis raw "expires_at"
  let supersededBy ← readOption row.supersededBy fun s =>
    readId "mem_" s "invalid superseded_by memory_id: "
  pure { memoryId, content, scope, kind, state, confidence, sensitivity, source
         provenance := ⟨threadId, turnId, excerpt⟩
         createdAt, updatedAt, expiresAt, supersededBy }

/-- Maps one `permission` row. -/
def rowToPermission (id : String) (row : PermissionRow) : Except ReadError Permission := do
  let eventId ← readId "evt_" id ("invalid event_id " ++ id ++ ": ")
  let turnId ← readId "trn_" row.turnId ("invalid turn_id " ++ row.turnId ++ ": ")
  let threadId ← readId "thr_" row.threadId ("invalid thread_id " ++ row.threadId ++ ": ")
  let kind ← readEntity (PermissionKind.tryFromStr row.kind)
    ("invalid permission kind " ++ row.kind ++ ": ")
  let description ← readEntity (PermissionDescription.tryFrom row.description)
    ("invalid description " ++ row.description ++ ": ")
  let decision ← readEntity (PermissionDecision.tryFromStr row.decision)
    ("invalid decision " ++ row.decision ++ ": ")
  let requestedAt ← readMillis row.requestedAt "requested_at"
  let decidedAt ← readOption row.decidedAt fun raw => readMillis raw "decided_at"
  pure { eventId, turnId, threadId, kind, description, decision, requestedAt, decidedAt }

/-! ## Queries -/

/-- Maps the rows of a query, up to the first failure. -/
def collectRows {α β : Type} (rows : List (String × α)) (map : String → α → Except ReadError β) :
    Except ReadError (List β) :=
  rows.mapM fun row => map row.1 row.2

/-- Reads the row of a primary key, if there is one. -/
def readRow {α β : Type} (t : Table String α) (id : String)
    (map : String → α → Except ReadError β) : Except ReadError (Option β) :=
  readOption t[id]? (map id)

def getMemory (p : Projections) (memoryId : MemoryId) : Except ReadError (Option MemoryRecord) :=
  readRow p.memory memoryId.asStr rowToMemoryRecord

/-- The columns a scope filter is compared with. -/
def scopeColumns : MemoryScope → String × Option String
  | .global => ("global", none)
  | .person target => ("person", some (String.ofList target.chars))
  | .project target => ("project", some (String.ofList target.chars))
  | .thread target => ("thread", some (String.ofList target.chars))

/-- Newest first, from the cursor on. -/
def listMemories (p : Projections) (scopeFilter : Option MemoryScope)
    (stateFilter : Option MemoryState) (limit : Nat) (cursor : Option (UInt64 × MemoryId)) :
    Except ReadError (List MemoryRecord) :=
  let scope := scopeFilter.map scopeColumns
  let beforeUpdatedAt : Int := cursor.elim i64Max fun c => min (c.1.toNat : Int) i64Max
  let beforeMemoryId := cursor.elim "" fun c => c.2.asStr
  let selected := p.memory.toList.filter fun (id, row) =>
    scope.all (fun s => s.1 == row.scopeKind && s.2.all fun t => row.scopeTarget == some t)
      && stateFilter.all (fun state => state.asStr == row.state)
      && (row.updatedAt < beforeUpdatedAt || (row.updatedAt == beforeUpdatedAt && id < beforeMemoryId))
  let ordered := selected.mergeSort fun (id, row) (id', row') =>
    row'.updatedAt < row.updatedAt || (row'.updatedAt == row.updatedAt && id' ≤ id)
  collectRows (ordered.take limit) rowToMemoryRecord

/-- The rows of the substring query of `search_memories`. -/
def instrHits (p : Projections) (instrMatch : String → Bool) (scopeFilter : Option MemoryScope)
    (now : UInt64) : List (String × MemoryRow) :=
  p.memory.toList.filter fun (_, row) => searchable scopeFilter now row && instrMatch row.content

/-- The candidates of a search: the full-text query for the long tokens and the
substring query for the short ones, each left out when the query has no such
token.  Ranking and truncation come after the rows are read. -/
def searchMemories (p : Projections) (ftsMatch instrMatch : Option (String → Bool))
    (scopeFilter : Option MemoryScope) (now : UInt64) : Except ReadError (List MemoryRecord) := do
  let long ← collectRows (ftsMatch.elim [] fun m => ftsHits p m scopeFilter now) rowToMemoryRecord
  let short ← collectRows (instrMatch.elim [] fun m => instrHits p m scopeFilter now)
    rowToMemoryRecord
  pure (long ++ short)

def permissionByEventId (p : Projections) (eventId : EventId) :
    Except ReadError (Option Permission) :=
  readRow p.permission eventId.asStr rowToPermission

/-- A page of permissions in the order of their requests. -/
def permissionPage (p : Projections) (column : PermissionRow → Bool)
    (after : Option (UInt64 × EventId)) (limit : Nat) : Except ReadError (List Permission) :=
  let afterRequestedAt : Int :=
    after.elim (-1) fun c => if c.1.toNat ≤ i64Max then c.1.toNat else -1
  let afterId := after.elim "" fun c => c.2.asStr
  let selected := p.permission.toList.filter fun (id, row) =>
    column row && (afterRequestedAt < row.requestedAt
      || (row.requestedAt == afterRequestedAt && afterId < id))
  let ordered := selected.mergeSort fun (id, row) (id', row') =>
    row.requestedAt < row'.requestedAt || (row.requestedAt == row'.requestedAt && id ≤ id')
  collectRows (ordered.take limit) rowToPermission

def permissionsForTurn (p : Projections) (turnId : TurnId) (after : Option (UInt64 × EventId))
    (limit : Nat) : Except ReadError (List Permission) :=
  permissionPage p (fun row => row.turnId == turnId.asStr) after limit

def permissionsForThread (p : Projections) (threadId : ThreadId)
    (after : Option (UInt64 × EventId)) (limit : Nat) : Except ReadError (List Permission) :=
  permissionPage p (fun row => row.threadId == threadId.asStr) after limit

end Altior.Storage
