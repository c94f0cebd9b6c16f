import Altior.Storage.Digest
import Altior.Storage.Validate
import Altior.Lib.Machine
import Altior.Lib.Replay

/-!
# The domain journal

The append-only journal with its projections and recovery marker: appending an
event, rebuilding the projections from the journal, and the check that heals
them on open (`altior-storage/src/lib.rs`).  Each operation is one SQLite
transaction, so a failed one leaves the store as it was.
-/

namespace Altior.Storage

open Domain Lib

/-- Cap on the payload of a journal row in bytes. -/
def journalPayloadMax : Nat := 1024 * 1024

/-- Version of the fold that produced the projections. -/
def domainProjectionVersion : Int := 1

/-- The recovery marker: the row of `domain_projection_state`. -/
structure ProjectionMarker where
  journalMaxSeq : Int
  projectionVersion : Int
  rebuiltAt : Int
  projectionDigest : String
deriving DecidableEq, Repr

variable [SerdeJson]

open SerdeJson

/-- A row of `domain_journal`. -/
structure DomainJournalRow where
  seq : Int
  eventId : String
  threadId : Option String
  turnId : Option String
  operationId : Option String
  kind : String
  payload : Bytes
  occurredAt : Int
deriving DecidableEq

/-- The journal in sequence order, the projections and the marker. -/
structure DomainStore where
  journal : List DomainJournalRow
  projections : Projections
  marker : Option ProjectionMarker
deriving DecidableEq

namespace DomainStore

/-- A freshly migrated store. -/
def empty : DomainStore := ⟨[], .empty, none⟩

end DomainStore

/-- `SELECT COALESCE(MAX(seq), 0)`. -/
def domainJournalMaxSeq (journal : List DomainJournalRow) : Int :=
  (journal.map DomainJournalRow.seq).max?.getD 0

/-! ## Append -/

/-- The durable form of an event under a sequence number. -/
def durableRow (seq : Int) (e : DomainEvent) : DomainJournalRow where
  seq := seq
  eventId := e.eventId.asStr
  threadId := e.threadId.map Id.asStr
  turnId := e.turnId.map Id.asStr
  operationId := e.operationId.map Id.asStr
  kind := e.kind.asStr
  payload := e.payload.asBytes
  occurredAt := e.occurredAt.toNat

/-- What an accepted append did. -/
inductive AppendOutcome
  | appended (seq : Int)
  | duplicate (seq : Int)
deriving DecidableEq, Repr

/-- The marker after an append.  A message delta leaves the digest as it is. -/
def markerAfterAppend (s : DomainStore) (e : DomainEvent) (p : Projections) (seq : Int) :
    ProjectionMarker where
  journalMaxSeq := seq
  projectionVersion := domainProjectionVersion
  rebuiltAt := e.occurredAt.toNat
  projectionDigest :=
    if e.kind = .messageDelta then (s.marker.map ProjectionMarker.projectionDigest).getD ""
    else domainProjectionDigest p

/-- The row already stored under the event's id. -/
def existingDomainEvent (s : DomainStore) (e : DomainEvent) : Option DomainJournalRow :=
  s.journal.find? fun row => row.eventId == e.eventId.asStr

/-- Appends a domain event, idempotently by event id. -/
def appendDomainEvent (s : DomainStore) (e : DomainEvent) :
    Except StorageError (AppendOutcome × DomainStore) :=
  if journalPayloadMax < len e.payload.asBytes then
    .error (.payloadTooLarge (len e.payload.asBytes) journalPayloadMax)
  else if i64Max < e.occurredAt.toNat then
    .error (.rebuildInvariant
      ("occurred_at " ++ toString e.occurredAt.toNat ++ " exceeds the i64 column" : String))
  else match existingDomainEvent s e with
    | some existing =>
      if existing = durableRow existing.seq e then .ok (.duplicate existing.seq, s)
      else .error (.eventIdCollision e.eventId.asStr existing.seq)
    | none => do
        validateDomainEventInTx s.projections e
        let seq := domainJournalMaxSeq s.journal + 1
        let p ← foldDomainEventInTx s.projections e seq e.occurredAt.toNat
        pure (.appended seq,
          { journal := s.journal ++ [durableRow seq e]
            projections := p
            marker := some (markerAfterAppend s e p seq) })

/-! ## Rebuild -/

/-- Parses an optional identifier column. -/
def parseColumn (pre : String) (column : Option String) (detail : String) :
    Except StorageError (Option (Id pre)) :=
  match column with
  | none => .ok none
  | some s =>
    match Id.parse pre s with
    | .ok id => .ok (some id)
    | .error _ => .error (.rebuildInvariant (.value detail column))

/-- The event a journal row parses back to. -/
def eventOfRow (row : DomainJournalRow) : Except StorageError DomainEvent := do
  let eventId ← match Id.parse "evt_" row.eventId with
    | .ok id => Except.ok id
    | .error _ => .error (.rebuildInvariant
        ("invalid event_id in domain journal: " ++ row.eventId : String))
  let threadId ← parseColumn "thr_" row.threadId "invalid thread_id in domain journal: "
  let turnId ← parseColumn "trn_" row.turnId "invalid turn_id in domain journal: "
  let operationId ← parseColumn "op_" row.operationId "invalid operation_id in domain journal: "
  let kind ← match DomainEventKind.tryFromStr row.kind with
    | .ok kind => Except.ok kind
    | .error e => .error (.rebuildInvariant (.entityError "invalid kind in domain journal: " e))
  let payload ← match EventPayload.tryFrom row.payload with
    | .ok payload => Except.ok payload
    | .error e => .error (.rebuildInvariant (.entityError "invalid payload in domain journal: " e))
  if row.occurredAt < 0 then
    .error (.rebuildInvariant
      ("negative occurred_at in domain journal: " ++ toString row.occurredAt : String))
  else
    pure ⟨eventId, threadId, turnId, operationId, kind, payload, .ofNat row.occurredAt.toNat⟩

/-- One round of the replay loop: parse, validate, fold. -/
def replayRow (p : Projections) (row : DomainJournalRow) : Except StorageError Projections := do
  let e ← eventOfRow row
  validateDomainEventInTx p e
  foldDomainEventInTx p e row.seq row.occurredAt

/-- The marker a rebuild writes. -/
def markerAfterRebuild (journal : List DomainJournalRow) (p : Projections) : ProjectionMarker where
  journalMaxSeq := domainJournalMaxSeq journal
  projectionVersion := domainProjectionVersion
  rebuiltAt := (journal.map DomainJournalRow.occurredAt).max?.getD 0
  projectionDigest := domainProjectionDigest p

/-- Wipes the projections and replays the journal; returns the number of rows. -/
def rebuildDomainProjections (s : DomainStore) : Except StorageError (Int × DomainStore) := do
  let p ← replay replayRow s.projections.rebuildFts.wipe s.journal
  let p := p.rebuildFts
  pure (s.journal.length,
    { s with projections := p, marker := some (markerAfterRebuild s.journal p) })

/-! ## Healing on open -/

/-- Whether the projections have to be rebuilt; a marker ahead of the journal is
an error. -/
def needsRebuild (s : DomainStore) : Except StorageError Bool :=
  match s.marker with
  | none => .ok true
  | some m =>
    let journalMax := domainJournalMaxSeq s.journal
    if m.projectionVersion ≠ domainProjectionVersion then .ok true
    else if m.journalMaxSeq < journalMax then .ok true
    else if journalMax < m.journalMaxSeq then
      .error (.rebuildInvariant
        ("domain projection marker " ++ toString m.journalMaxSeq
          ++ " is ahead of domain journal max " ++ toString journalMax
          ++ "; journal history cannot shrink" : String))
    else if m.projectionDigest.isEmpty then .ok true
    else .ok (domainProjectionDigest s.projections != m.projectionDigest
      || !s.projections.checkFtsConsistency)

/-- The verification of the marker, the digest and the index after a rebuild. -/
def verifyRebuilt (journalMax : Int) (s : DomainStore) : Except StorageError Unit :=
  let fail (detail : String) : Except StorageError Unit := .error (.rebuildInvariant detail)
  match s.marker with
  | none => .error (.sqlite "ensure_domain_current_verify")
  | some m =>
    let live := domainProjectionDigest s.projections
    if m.journalMaxSeq ≠ journalMax then
      fail ("domain projection marker seq mismatch after rebuild: stored="
        ++ toString m.journalMaxSeq ++ ", journal_max=" ++ toString journalMax)
    else if m.projectionVersion ≠ domainProjectionVersion then
      fail ("domain projection marker version mismatch after rebuild: stored="
        ++ toString m.projectionVersion ++ ", expected=" ++ toString domainProjectionVersion)
    else if m.projectionDigest ≠ live ∨ m.projectionDigest.isEmpty then
      fail ("domain projection digest mismatch after rebuild: stored=" ++ m.projectionDigest
        ++ ", live=" ++ live)
    else if !s.projections.checkFtsConsistency then
      fail "FTS5 external-content index remains inconsistent after rebuild"
    else .ok ()

/-- Heals the domain projections on open.  A rebuild commits before it is
verified, so the second component is the store that is left behind. -/
def ensureDomainProjectionsCurrent (s : DomainStore) : Except StorageError Unit × DomainStore :=
  match needsRebuild s with
  | .error e => (.error e, s)
  | .ok false => (.ok (), s)
  | .ok true =>
    match rebuildDomainProjections s with
    | .error e => (.error e, s)
    | .ok (_, s') => (verifyRebuilt (domainJournalMaxSeq s.journal) s', s')

/-! ## Runs -/

/-- What happens to a store between two crashes: an append, accepted or not, or
a reopen. -/
inductive StoreInput
  | append (e : DomainEvent)
  | reopen

/-- One input.  A rejected append leaves the store as it was. -/
def storeStep (s : DomainStore) : StoreInput → DomainStore
  | .append e =>
    match appendDomainEvent s e with
    | .ok (_, s') => s'
    | .error _ => s
  | .reopen => (ensureDomainProjectionsCurrent s).2

/-- The store under any sequence of appends and reopens. -/
def storeMachine : Machine DomainStore StoreInput := ⟨.empty, storeStep⟩

/-- A run of appends alone. -/
def appends (events : List DomainEvent) : List StoreInput := events.map .append

end Altior.Storage
