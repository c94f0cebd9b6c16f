import Altior.Domain.Memory
import Altior.Lib.Table

/-!
# Projection tables

The tables derived from the domain journal, column for column as the schema
declares them, and the statements the folds run on them with the triggers that
keep the two search indexes (`altior-storage/src/migrations.rs`).  A text column
is a `String`, an integer column an `Int`; a nullable column is an `Option`.
-/

namespace Altior.Storage

open Domain Lib

/-- What a storage error says: a text, or a text followed by the value or the
cause it was formatted with. -/
inductive Detail
  | text (s : String)
  | value (s : String) (v : Option String)
  | idError (s : String) (cause : IdParseError)
  | entityError (s : String) (cause : EntityError)
deriving DecidableEq, Repr

instance : Coe String Detail := ⟨.text⟩

/-- The storage failures of the modelled operations. -/
inductive StorageError
  | payloadTooLarge (sizeBytes limitBytes : Nat)
  | invalidDomainEvent (detail : Detail)
  | eventIdCollision (eventId : String) (existingSeq : Int)
  | rebuildInvariant (detail : Detail)
  | sqlite (operation : String)
  | turnNotFound (turnId : String)
  | turnThreadMismatch (turnId expectedThreadId actualThreadId : String)
  | checkpointCollision (id detail : String)
  | checkpointNotFound (id : String)
  | checkpointSettlementConflict (id current attempted : String)
  | invalidCheckpointTransition (id detail : String)
  | invalidEntityData (detail : String)
  | secretShapedContent
  | contextSnapshotConflict (turnId : String)
  | memoryNotFound (memoryId : String)
  | identityDocumentNotFound (identityDocumentId : String)
  | identityDocumentConflict (identityDocumentId : String)
  | identityDocumentCountExceeded (count max : Nat)
deriving DecidableEq, Repr

/-! ## Rows -/

/-- A row of `thread`, keyed by `thread_id`. -/
structure ThreadRow where
  agentProfileId : String
  title : String
  state : String
  projectId : Option String
  eventCount : Int
  firstEventSeq : Option Int
  lastEventSeq : Option Int
  lastEventId : Option String
  lastEventKind : Option String
  createdAt : Int
  updatedAt : Int
deriving DecidableEq, Repr

/-- A row of `turn`, keyed by `turn_id`. -/
structure TurnRow where
  threadId : String
  operationId : Option String
  state : String
  delivery : String
  eventCount : Int
  startedAt : Int
  endedAt : Option Int
deriving DecidableEq, Repr

/-- A row of `permission`, keyed by the id of the requesting event. -/
structure PermissionRow where
  turnId : String
  threadId : String
  kind : String
  description : String
  decision : String
  requestedAt : Int
  decidedAt : Option Int
deriving DecidableEq, Repr

/-- A row of `memory`, keyed by `memory_id`. -/
structure MemoryRow where
  content : String
  scopeKind : String
  scopeTarget : Option String
  kind : String
  state : String
  confidence : Int
  sensitivity : String
  source : String
  explicit : Int
  provenanceThreadId : Option String
  provenanceTurnId : Option String
  excerpt : Option String
  createdAt : Int
  updatedAt : Int
  expiresAt : Option Int
  supersededBy : Option String
deriving DecidableEq, Repr

/-- The row belongs to the search index: confirmed and not superseded. -/
def MemoryRow.retrievable (row : MemoryRow) : Bool :=
  row.state == "confirmed" && row.supersededBy.isNone

/-- The projections of the domain journal with the two search indexes. -/
structure Projections where
  thread : Table String ThreadRow
  turn : Table String TurnRow
  permission : Table String PermissionRow
  memory : Table String MemoryRow
  /-- `thread_search`: the indexed title of each thread. -/
  threadSearch : Table String String
  /-- `memory_fts`: the indexed content of each retrievable memory, in row order. -/
  memoryFts : List (String × String)
deriving DecidableEq

namespace Projections

/-- The freshly migrated tables. -/
def empty : Projections := ⟨∅, ∅, ∅, ∅, ∅, []⟩

/-! ## Statements -/

/-- `INSERT INTO thread`, with the `thread_search_insert` trigger. -/
def insertThread (p : Projections) (threadId : String) (row : ThreadRow) : Projections :=
  { p with
    thread := p.thread.insert threadId row
    threadSearch := p.threadSearch.insert threadId row.title }

/-- `UPDATE thread` of columns other than the title. -/
def updateThread (p : Projections) (threadId : String) (f : ThreadRow → ThreadRow) : Projections :=
  { p with thread := p.thread.update threadId f }

/-- `UPDATE thread SET title = …`, with the `thread_search_update` trigger. -/
def updateThreadTitle (p : Projections) (threadId : String) (title : String)
    (f : ThreadRow → ThreadRow) : Projections :=
  { p with
    thread := p.thread.update threadId fun row => { f row with title := title }
    threadSearch :=
      if threadId ∈ p.thread then p.threadSearch.insert threadId title else p.threadSearch }

/-- `INSERT INTO turn`. -/
def insertTurn (p : Projections) (turnId : String) (row : TurnRow) : Projections :=
  { p with turn := p.turn.insert turnId row }

/-- `UPDATE turn`. -/
def updateTurn (p : Projections) (turnId : String) (f : TurnRow → TurnRow) : Projections :=
  { p with turn := p.turn.update turnId f }

/-- `INSERT INTO permission`. -/
def insertPermission (p : Projections) (eventId : String) (row : PermissionRow) : Projections :=
  { p with permission := p.permission.insert eventId row }

/-- `UPDATE permission`. -/
def updatePermission (p : Projections) (eventId : String) (f : PermissionRow → PermissionRow) :
    Projections :=
  { p with permission := p.permission.update eventId f }

/-- The index entries a memory row contributes. -/
def ftsEntry (memoryId : String) (row : MemoryRow) : List (String × String) :=
  if row.retrievable then [(memoryId, row.content)] else []

/-- `INSERT INTO memory`, with the `memory_fts_insert` trigger. -/
def insertMemory (p : Projections) (memoryId : String) (row : MemoryRow) : Projections :=
  { p with
    memory := p.memory.insert memoryId row
    memoryFts := p.memoryFts ++ ftsEntry memoryId row }

/-- `UPDATE memory`, with the `memory_fts_update` trigger. -/
def updateMemory (p : Projections) (memoryId : String) (f : MemoryRow → MemoryRow) : Projections :=
  match p.memory[memoryId]? with
  | none => p
  | some row =>
    { p with
      memory := p.memory.insert memoryId (f row)
      memoryFts := p.memoryFts.filter (fun e => e.1 != memoryId) ++ ftsEntry memoryId (f row) }

/-! ## Maintenance of the indexes -/

/-- The titles the `thread_search` index is a copy of. -/
def titles (p : Projections) : Table String String := p.thread.map fun _ row => row.title

/-- The `rebuild` command of both indexes: the external-content index is read
again from `thread`, the standalone one from its own rows. -/
def rebuildFts (p : Projections) : Projections := { p with threadSearch := p.titles }

/-- `check_fts_consistency`: the external-content index agrees with `thread`; the
standalone index has no content table to disagree with. -/
def checkFtsConsistency (p : Projections) : Bool := p.threadSearch = p.titles

/-- `DELETE FROM` each projection table, with the delete triggers of the
indexes. -/
def wipe (p : Projections) : Projections where
  thread := ∅
  turn := ∅
  permission := ∅
  memory := ∅
  threadSearch := p.threadSearch.filter fun threadId _ => !(p.thread.contains threadId)
  memoryFts := p.memoryFts.filter fun e => !(p.memory.contains e.1)

end Projections

end Altior.Storage
