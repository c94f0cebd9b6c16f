import Mathlib.Data.List.Nodup
import Altior.Lib.Transaction
import Altior.Storage.Recovery

/-!
# The append, statement by statement

`append_domain_event` is one SQLite transaction of several statements, each of which the
database may refuse.  Here the statements are written out, down to those of the fold; the
transaction as a whole does what `appendDomainEvent` says or fails with nothing changed.
-/

namespace Altior.Storage

open Domain Lib

section Statements

variable [SerdeJson]

open SerdeJson

/-- A computation in an open transaction on the store. -/
abbrev StoreTx (α : Type) : Type := Tx DomainStore StorageError α

/-- A statement on the projections. -/
def execute (operation : String) (f : Projections → Projections) : StoreTx Unit :=
  Tx.statement (.sqlite operation) fun s => ((), { s with projections := f s.projections })

/-! ## The statements of the fold -/

/-- `update_thread_activity`: an update that has to reach a row. -/
def updateThreadActivityTx (thread : String) (seq : Int) (eventId kind : String) (at_ : Int) :
    StoreTx Unit := do
  let n ← Tx.statement (.sqlite "thread activity") fun s =>
    (if thread ∈ s.projections.thread then 1 else 0,
      { s with projections :=
          s.projections.updateThread thread fun row => row.touch seq eventId kind at_ })
  Tx.ofExcept (if n ≠ 1 then .error (.invalidDomainEvent "thread missing during fold") else .ok ())

def foldMemoryProposedTx (event : DomainEvent) (occurredAt : Int) : StoreTx Unit :=
  match fromSlice event.payload.asBytes with
  | none => Tx.ofExcept (.error (.invalidDomainEvent "payload is not JSON"))
  | some v =>
    let memId := (v.getStr "memory_id").getD ""
    let row := draftRow v "candidate" "inferred" false occurredAt
    execute "fold_memory_proposed" fun p =>
      if memId ∈ p.memory then p.updateMemory memId fun old => old.overwrite row
      else p.insertMemory memId row

def foldMemoryConfirmedTx (event : DomainEvent) (occurredAt : Int) : StoreTx Unit :=
  match fromSlice event.payload.asBytes with
  | none => Tx.ofExcept (.error (.invalidDomainEvent "payload is not JSON"))
  | some v => do
      let memId := (v.getStr "memory_id").getD ""
      let stored ← Tx.query (.sqlite "check memory exists") fun s => decide (memId ∈ s.projections.memory)
      if stored then
        execute "fold_memory_confirmed_update" fun p =>
          p.updateMemory memId fun row => { row with state := "confirmed", updatedAt := occurredAt }
      else
        execute "fold_memory_confirmed_insert" fun p =>
          p.insertMemory memId (draftRow v "confirmed" "explicit" true occurredAt)

/-- The statements of a memory event on the memory table; `none` for the other kinds. -/
def foldMemoryTx (event : DomainEvent) (occurredAt : Int) : Option (StoreTx Unit) :=
  match event.kind with
  | .memoryProposed => some (foldMemoryProposedTx event occurredAt)
  | .memoryConfirmed => some (foldMemoryConfirmedTx event occurredAt)
  | .memoryRejected => some (execute "fold_memory_rejected" fun p =>
    setMemoryState p event "rejected" occurredAt)
  | .memorySuperseded =>
    let memId := (extractJsonString event.payload.asBytes "memory_id").getD ""
    let supersededBy := (extractJsonString event.payload.asBytes "superseded_by").getD ""
    some (execute "fold_memory_superseded" fun p => p.updateMemory memId fun row =>
      { row with supersededBy := some supersededBy, updatedAt := occurredAt })
  | .memoryForgotten => some (execute "fold_memory_forgotten" fun p =>
    setMemoryState p event "forgotten" occurredAt)
  | .memoryExpired => some (execute "fold_memory_expired" fun p =>
    setMemoryState p event "expired" occurredAt)
  | _ => none

/-- The statement a turn or permission event makes before the thread activity, if it
makes one. -/
def turnOperation (event : DomainEvent) : Option String :=
  match event.kind, event.turnId with
  | .turnStarted, some _ => some "fold_turn_started"
  | .turnCompleted, some _ => some "fold_turn_completed"
  | .turnCancelled, some _ => some "fold_turn_cancelled"
  | .turnFailed, some _ => some "fold_turn_failed"
  | .messageDelta, some _ => some "fold_turn_activity"
  | .permissionRequested, some _ => some "fold_permission_requested"
  | .permissionDecided, _ =>
    (extractJsonString event.payload.asBytes "permission_event_id").map fun _ =>
      "fold_permission_decided"
  | _, _ => none

def foldTurnScopeTx (event : DomainEvent) (threadId : String) (occurredAt : Int) : StoreTx Unit :=
  match turnOperation event with
  | some operation => execute operation fun p => foldTurnScope p event threadId occurredAt
  | none => pure ()

/-- The statements of `fold_domain_event_in_tx`. -/
def foldDomainEventTx (event : DomainEvent) (seq occurredAt : Int) : StoreTx Unit :=
  let activity (threadId : ThreadId) : StoreTx Unit :=
    updateThreadActivityTx threadId.asStr seq event.eventId.asStr event.kind.asStr occurredAt
  match foldMemoryTx event occurredAt with
  | some memory => do
      memory
      match event.threadId with
      | some threadId => activity threadId
      | none => pure ()
  | none =>
    match event.threadId with
    | none => pure ()
    | some threadId =>
      match event.kind with
      | .threadCreated => execute "fold_thread_created" fun p =>
        foldThreadCreated p event threadId.asStr seq occurredAt
      | .threadTitleChanged => execute "fold_title_changed" fun p =>
        p.updateThreadTitle threadId.asStr
          ((extractJsonString event.payload.asBytes "title").getD "")
          fun row => row.touch seq event.eventId.asStr event.kind.asStr occurredAt
      | .threadStateChanged => execute "fold_state_changed" fun p =>
        p.updateThread threadId.asStr fun row =>
          { row.touch seq event.eventId.asStr event.kind.asStr occurredAt with
            state := (extractJsonString event.payload.asBytes "state").getD "open" }
      | _ => do
          foldTurnScopeTx event threadId.asStr occurredAt
          activity threadId

/-! ## The transaction -/

/-- The marker row with the digest of the copy; a message delta leaves the digest. -/
def writeMarkerTx (event : DomainEvent) (seq : Int) : StoreTx Unit :=
  let upsert (operation : String) (digest : Option ProjectionMarker → String) : StoreTx Unit :=
    Tx.statement (.sqlite operation) fun s => ((), { s with
      marker := some ⟨seq, domainProjectionVersion, event.occurredAt.toNat, digest s.marker⟩ })
  if event.kind = .messageDelta then
    upsert "append_domain_event stream delta" fun marker =>
      (marker.map ProjectionMarker.projectionDigest).getD ""
  else do
    let digest ← Tx.query (.sqlite "domain_projection_digest") fun s =>
      domainProjectionDigest s.projections
    upsert "append_domain_event" fun _ => digest

/-- What `append_domain_event` does between opening the transaction and its end. -/
def appendBody (event : DomainEvent) : StoreTx (Close AppendOutcome) := do
  match ← Tx.query (.sqlite "domain lookup") fun s => existingDomainEvent s event with
  | some existing =>
    Tx.ofExcept (if existing = durableRow existing.seq event then
      .ok (.drop (.duplicate existing.seq))
    else .error (.eventIdCollision event.eventId.asStr existing.seq))
  | none => do
      let accepted ← Tx.query (.sqlite "validate_domain_event") fun s =>
        validateDomainEventInTx s.projections event
      Tx.ofExcept accepted
      let seq ← Tx.statement (.sqlite "append_domain_event") fun s =>
        let seq := domainJournalMaxSeq s.journal + 1
        (seq, { s with journal := s.journal ++ [durableRow seq event] })
      foldDomainEventTx event seq event.occurredAt.toNat
      writeMarkerTx event seq
      pure (.commit (.appended seq))

/-- `append_domain_event`, with the statements the database refuses. -/
def appendDomainEventTx (s : DomainStore) (event : DomainEvent) (refusals : List Bool) :
    Except StorageError AppendOutcome × DomainStore :=
  if journalPayloadMax < len event.payload.asBytes then
    (.error (.payloadTooLarge (len event.payload.asBytes) journalPayloadMax), s)
  else if i64Max < event.occurredAt.toNat then
    (.error (.rebuildInvariant ("occurred_at " ++ toString event.occurredAt.toNat
      ++ " exceeds the i64 column" : String)), s)
  else transact (.sqlite "append_domain_event") (appendBody event) s refusals

/-! ## What may be refused -/

/-- A failure the database reports. -/
def Refused (err : StorageError) : Prop := ∃ operation, err = .sqlite operation

omit [SerdeJson] in
theorem refused_sqlite (operation : String) : Refused (.sqlite operation) := ⟨operation, rfl⟩

theorem refusable_execute (operation : String) (f : Projections → Projections) :
    Tx.Refusable Refused (execute operation f) := .statement (refused_sqlite _) _

theorem refusable_activity (thread : String) (seq : Int) (eventId kind : String) (at_ : Int) :
    Tx.Refusable Refused (updateThreadActivityTx thread seq eventId kind at_) :=
  .bind (.statement (refused_sqlite _) _) fun _ => .ofExcept _

variable {event : DomainEvent}

theorem refusable_foldMemoryTx {occurredAt : Int} {m : StoreTx Unit}
    (h : foldMemoryTx event occurredAt = some m) : Tx.Refusable Refused m := by
  unfold foldMemoryTx at h
  split at h <;> cases h
  · unfold foldMemoryProposedTx
    split
    · exact .ofExcept _
    · exact refusable_execute _ _
  · unfold foldMemoryConfirmedTx
    split
    · exact .ofExcept _
    · exact .bind (.query (refused_sqlite _) _) fun _ =>
        .ite (refusable_execute _ _) (refusable_execute _ _)
  all_goals exact refusable_execute _ _

theorem refusable_foldTurnScopeTx (event : DomainEvent) (threadId : String) (occurredAt : Int) :
    Tx.Refusable Refused (foldTurnScopeTx event threadId occurredAt) := by
  unfold foldTurnScopeTx
  split
  · exact refusable_execute _ _
  · exact .pure ()

theorem refusable_foldDomainEventTx (event : DomainEvent) (seq occurredAt : Int) :
    Tx.Refusable Refused (foldDomainEventTx event seq occurredAt) := by
  unfold foldDomainEventTx
  split
  · rename_i m hm
    refine .bind (refusable_foldMemoryTx hm) fun _ => ?_
    split
    · exact refusable_activity ..
    · exact .pure ()
  · split
    · exact .pure ()
    · split
      · exact refusable_execute _ _
      · exact refusable_execute _ _
      · exact refusable_execute _ _
      · exact .bind (refusable_foldTurnScopeTx ..) fun _ => refusable_activity ..

theorem refusable_writeMarkerTx (event : DomainEvent) (seq : Int) :
    Tx.Refusable Refused (writeMarkerTx event seq) := by
  unfold writeMarkerTx
  exact .ite (.statement (refused_sqlite _) _)
    (.bind (.query (refused_sqlite _) _) fun _ => .statement (refused_sqlite _) _)

theorem refusable_appendBody (event : DomainEvent) :
    Tx.Refusable Refused (appendBody event) := by
  refine .bind (.query (refused_sqlite _) _) fun existing => ?_
  split
  · exact .ofExcept _
  · exact .bind (.query (refused_sqlite _) _) fun _ => .bind (.ofExcept _) fun _ =>
      .bind (.statement (refused_sqlite _) _) fun _ =>
        .bind (refusable_foldDomainEventTx ..) fun _ =>
          .bind (refusable_writeMarkerTx ..) fun _ => .pure _

/-! ## What the statements do -/

/-- The statements do to the projections what the function says, and fail as it does. -/
structure Folds (m : StoreTx Unit) (f : Projections → Except StorageError Projections) : Prop where
  ok : ∀ s p, f s.projections = .ok p → m s [] = (.ok (), { s with projections := p }, [])
  error : ∀ s err, f s.projections = .error err → ∃ copy, m s [] = (.error err, copy, [])

namespace Folds

variable {m m' : StoreTx Unit} {f g : Projections → Except StorageError Projections}

theorem execute (operation : String) (g : Projections → Projections) :
    Folds (execute operation g) fun p => .ok (g p) :=
  ⟨fun s p h => by cases h; rfl, fun s err h => by cases h⟩

theorem pure : Folds (Pure.pure ()) .ok := ⟨fun s p h => by cases h; rfl, fun s err h => by cases h⟩

theorem fail (err : StorageError) : Folds (Tx.ofExcept (.error err)) fun _ => .error err :=
  ⟨fun s p h => (by cases h), fun s err h => by cases h; exact ⟨s, rfl⟩⟩

theorem congr (h : Folds m f) (hfg : ∀ p, g p = f p) : Folds m g := by
  obtain rfl := funext hfg
  exact h

theorem bind (hm : Folds m f) (hm' : Folds m' g) :
    Folds (m >>= fun _ => m') fun p => f p >>= g := by
  constructor
  · intro s p h
    obtain ⟨q, hf, hg⟩ := bind_eq_ok.1 h
    rw [Tx.bind_run_ok (hm.ok s q hf), hm'.ok { s with projections := q } p hg]
  · intro s err h
    cases hf : f s.projections with
    | error err' =>
      rw [hf] at h
      cases h
      obtain ⟨copy, hrun⟩ := hm.error s err hf
      exact ⟨copy, Tx.bind_run_error hrun⟩
    | ok q =>
      rw [hf] at h
      obtain ⟨copy, hrun⟩ := hm'.error { s with projections := q } err h
      exact ⟨copy, by rw [Tx.bind_run_ok (hm.ok s q hf), hrun]⟩

end Folds

theorem folds_activity (thread : String) (seq : Int) (eventId kind : String) (at_ : Int) :
    Folds (updateThreadActivityTx thread seq eventId kind at_)
      fun p => updateThreadActivity p thread seq eventId kind at_ := by
  constructor
  · intro s p h
    unfold updateThreadActivity at h
    split at h
    · rename_i hmem
      cases h
      unfold updateThreadActivityTx
      rw [Tx.bind_run_ok (Tx.statement_run _ _ s), if_pos hmem]
      rfl
    · cases h
  · intro s err h
    unfold updateThreadActivity at h
    split at h
    · cases h
    · rename_i hmem
      cases h
      unfold updateThreadActivityTx
      rw [Tx.bind_run_ok (Tx.statement_run _ _ s), if_neg hmem]
      exact ⟨_, rfl⟩

theorem folds_foldMemoryProposedTx (event : DomainEvent) (occurredAt : Int) :
    Folds (foldMemoryProposedTx event occurredAt)
      fun p => foldMemoryProposedInTx p event occurredAt := by
  unfold foldMemoryProposedTx foldMemoryProposedInTx
  cases fromSlice event.payload.asBytes with
  | none => exact .fail _
  | some v =>
    simp only [← apply_ite]
    exact .execute _ _

theorem folds_foldMemoryConfirmedTx (event : DomainEvent) (occurredAt : Int) :
    Folds (foldMemoryConfirmedTx event occurredAt)
      fun p => foldMemoryConfirmedInTx p event occurredAt := by
  unfold foldMemoryConfirmedTx foldMemoryConfirmedInTx
  cases fromSlice event.payload.asBytes with
  | none => exact .fail _
  | some v =>
    constructor
    · intro s p h
      dsimp only at h ⊢
      rw [Tx.bind_run_ok (Tx.query_run _ _ s)]
      split at h
      · rename_i hmem
        cases h
        rw [if_pos (decide_eq_true hmem)]
        rfl
      · rename_i hmem
        cases h
        rw [if_neg (by simpa using hmem)]
        rfl
    · intro s err h
      dsimp only at h
      split at h <;> cases h

/-- The statements of a memory event, beside `foldMemory`. -/
theorem folds_foldMemoryTx (event : DomainEvent) (occurredAt : Int) :
    (foldMemoryTx event occurredAt = none ∧ ∀ p, foldMemory p event occurredAt = none) ∨
      ∃ m f, foldMemoryTx event occurredAt = some m ∧
        (∀ p, foldMemory p event occurredAt = some (f p)) ∧ Folds m f := by
  unfold foldMemoryTx foldMemory
  cases event.kind
  case memoryProposed => exact .inr ⟨_, _, rfl, fun _ => rfl, folds_foldMemoryProposedTx ..⟩
  case memoryConfirmed => exact .inr ⟨_, _, rfl, fun _ => rfl, folds_foldMemoryConfirmedTx ..⟩
  case memoryRejected | memorySuperseded | memoryForgotten | memoryExpired =>
    exact .inr ⟨_, _, rfl, fun _ => rfl, .execute _ _⟩
  all_goals exact .inl ⟨rfl, fun _ => rfl⟩

/-- An event that makes no statement of its own folds to nothing. -/
theorem foldTurnScope_of_none (h : turnOperation event = none) (p : Projections)
    (threadId : String) (occurredAt : Int) : foldTurnScope p event threadId occurredAt = p := by
  unfold foldTurnScope
  split
  case h_7 hkind =>
    simp only [turnOperation, hkind, Option.map_eq_none_iff] at h
    unfold foldPermissionDecided
    rw [h]
  case h_8 => rfl
  all_goals
    rename_i hkind hturn
    simp [turnOperation, hkind, hturn] at h

theorem folds_foldTurnScopeTx (event : DomainEvent) (threadId : String) (occurredAt : Int) :
    Folds (foldTurnScopeTx event threadId occurredAt)
      fun p => .ok (foldTurnScope p event threadId occurredAt) := by
  unfold foldTurnScopeTx
  cases hop : turnOperation event with
  | some operation => exact .execute _ _
  | none =>
    simp only [foldTurnScope_of_none hop]
    exact .pure

/-- The statements of the fold are the fold. -/
theorem folds_foldDomainEventTx (event : DomainEvent) (seq occurredAt : Int) :
    Folds (foldDomainEventTx event seq occurredAt)
      fun p => foldDomainEventInTx p event seq occurredAt := by
  unfold foldDomainEventTx foldDomainEventInTx
  rcases folds_foldMemoryTx event occurredAt with ⟨hm, hf⟩ | ⟨m, f, hm, hf, hfolds⟩
  · simp only [hm, hf]
    cases event.threadId with
    | none => exact .pure
    | some threadId =>
      dsimp only
      cases event.kind
      case threadCreated => exact .execute _ _
      case threadTitleChanged => exact .execute _ _
      case threadStateChanged => exact .execute _ _
      all_goals exact Folds.bind (folds_foldTurnScopeTx ..) (folds_activity ..)
  · simp only [hm, hf]
    cases event.threadId with
    | none =>
      refine (hfolds.bind .pure).congr fun p => ?_
      cases f p <;> rfl
    | some threadId =>
      refine (hfolds.bind (folds_activity ..)).congr fun p => ?_
      cases f p <;> rfl

theorem writeMarkerTx_run (event : DomainEvent) (seq : Int) (s : DomainStore) :
    writeMarkerTx event seq s [] = (.ok (),
      { s with marker := some (markerAfterAppend s event s.projections seq) }, []) := by
  unfold writeMarkerTx markerAfterAppend
  by_cases hkind : event.kind = .messageDelta
  · rw [if_pos hkind, if_pos hkind]
    rfl
  · rw [if_neg hkind, if_neg hkind]
    rfl

/-- The transaction on an event that is stored already. -/
theorem appendBody_existing {s : DomainStore} {existing : DomainJournalRow}
    (h : existingDomainEvent s event = some existing) :
    appendBody event s [] = (if existing = durableRow existing.seq event then
        .ok (.drop (.duplicate existing.seq))
      else .error (.eventIdCollision event.eventId.asStr existing.seq), s, []) := by
  unfold appendBody
  rw [Tx.bind_run_ok (Tx.query_run _ _ s), h]
  rfl

theorem appendBody_refuses {s : DomainStore} {err : StorageError}
    (hnew : existingDomainEvent s event = none)
    (h : validateDomainEventInTx s.projections event = .error err) :
    appendBody event s [] = (.error err, s, []) := by
  unfold appendBody
  rw [Tx.bind_run_ok (Tx.query_run _ _ s), hnew]
  dsimp only
  rw [Tx.bind_run_ok (Tx.query_run _ _ s), h]
  rfl

/-- The transaction on an event that is accepted: the row is inserted before the fold. -/
theorem appendBody_accepts {s : DomainStore} (hnew : existingDomainEvent s event = none)
    (h : validateDomainEventInTx s.projections event = .ok ()) :
    appendBody event s [] = (foldDomainEventTx event (domainJournalMaxSeq s.journal + 1)
        event.occurredAt.toNat >>= fun _ =>
      writeMarkerTx event (domainJournalMaxSeq s.journal + 1) >>= fun _ =>
      pure (.commit (.appended (domainJournalMaxSeq s.journal + 1))))
      { s with journal := s.journal ++ [durableRow (domainJournalMaxSeq s.journal + 1) event] }
      [] := by
  unfold appendBody
  rw [Tx.bind_run_ok (Tx.query_run _ _ s), hnew]
  dsimp only
  rw [Tx.bind_run_ok (Tx.query_run _ _ s), h, Tx.bind_run_ok (Tx.ofExcept_run _ s []),
    Tx.bind_run_ok (Tx.statement_run _ _ s)]

/-- **The transaction is the append**: when no statement is refused it does what
`appendDomainEvent` says. -/
theorem appendDomainEventTx_calm (s : DomainStore) (event : DomainEvent) :
    appendDomainEventTx s event [] = match appendDomainEvent s event with
      | .ok (o, s') => (.ok o, s')
      | .error err => (.error err, s) := by
  unfold appendDomainEventTx appendDomainEvent
  split
  · rfl
  · split
    · rfl
    · cases hexisting : existingDomainEvent s event with
      | some existing =>
        have hbody := appendBody_existing hexisting
        by_cases hsame : existing = durableRow existing.seq event
        · rw [if_pos hsame] at hbody
          rw [transact_drop hbody]
          dsimp only
          rw [if_pos hsame]
        · rw [if_neg hsame] at hbody
          rw [transact_failed hbody]
          dsimp only
          rw [if_neg hsame]
      | none =>
        cases hvalid : validateDomainEventInTx s.projections event with
        | error err =>
          rw [transact_failed (appendBody_refuses hexisting hvalid)]
          rfl
        | ok u =>
          cases u
          have hbody := appendBody_accepts hexisting hvalid
          have hfolds := folds_foldDomainEventTx event (domainJournalMaxSeq s.journal + 1)
            event.occurredAt.toNat
          cases hfold : foldDomainEventInTx s.projections event
              (domainJournalMaxSeq s.journal + 1) event.occurredAt.toNat with
          | error err =>
            -- the inserted row is in the copy and goes with it
            obtain ⟨copy, hrun⟩ := hfolds.error { s with journal := s.journal ++
              [durableRow (domainJournalMaxSeq s.journal + 1) event] } err hfold
            rw [Tx.bind_run_error hrun] at hbody
            rw [transact_failed hbody]
            simp only [bind, Except.bind, hfold]
          | ok p =>
            rw [Tx.bind_run_ok (hfolds.ok { s with journal := s.journal ++
              [durableRow (domainJournalMaxSeq s.journal + 1) event] } p hfold),
              Tx.bind_run_ok (writeMarkerTx_run ..)] at hbody
            rw [transact_commit hbody]
            simp only [bind, Except.bind, hfold]
            rfl

/-- A payload is never larger than a journal row may be. -/
theorem not_tooLarge (event : DomainEvent) : ¬ journalPayloadMax < len event.payload.asBytes :=
  Nat.not_lt.2 event.payload.len_le

/-! ## Stores as the schema allows them -/

/-- A store whose journal keeps its columns: the event identifiers are `UNIQUE` and the
times are 64-bit integers. -/
structure JournalStore extends DomainStore where
  unique : (journal.map DomainJournalRow.eventId).Nodup
  fits : ∀ row ∈ journal, row.occurredAt ≤ i64Max

theorem appendDomainEventTx_cases (s : DomainStore) (event : DomainEvent) (refusals : List Bool) :
    (∃ operation, appendDomainEventTx s event refusals = (.error (.sqlite operation), s)) ∨
      appendDomainEventTx s event refusals = appendDomainEventTx s event [] := by
  unfold appendDomainEventTx
  split
  · exact .inr rfl
  · split
    · exact .inr rfl
    · rcases transact_cases (refused_sqlite _) (refusable_appendBody event) s refusals with
        ⟨err, ⟨operation, rfl⟩, herr⟩ | h
      · exact .inl ⟨operation, herr⟩
      · exact .inr h

namespace JournalStore

/-- The row under an identifier is the one the lookup finds. -/
theorem lookup (s : JournalStore) {row : DomainJournalRow} (hmem : row ∈ s.journal)
    (hid : row.eventId = event.eventId.asStr) :
    existingDomainEvent s.toDomainStore event = some row := by
  unfold existingDomainEvent
  cases hfind : s.journal.find? fun row => row.eventId == event.eventId.asStr with
  | none => exact absurd (beq_iff_eq.2 hid) (List.find?_eq_none.1 hfind row hmem)
  | some other =>
    have hother := List.mem_of_find?_eq_some hfind
    have hid' : other.eventId = event.eventId.asStr :=
      beq_iff_eq.1 (@List.find?_some DomainJournalRow (·.eventId == event.eventId.asStr) _ _ hfind)
    exact congrArg some (List.inj_on_of_nodup_map s.unique hother hmem (hid'.trans hid.symm))

/-- The store after an accepted append. -/
def extend (s : JournalStore) (event : DomainEvent) (p : Projections) (seq : Int)
    (marker : Option ProjectionMarker) (hnow : event.occurredAt.toNat ≤ i64Max)
    (hnew : existingDomainEvent s.toDomainStore event = none) : JournalStore where
  journal := s.journal ++ [durableRow seq event]
  projections := p
  marker := marker
  unique := by
    rw [List.map_append, List.map_singleton]
    refine List.nodup_append.2 ⟨s.unique, List.nodup_singleton _, ?_⟩
    intro id hid other hother heq
    obtain ⟨r, hr, rfl⟩ := List.mem_map.1 hid
    rw [List.mem_singleton.1 hother] at heq
    exact List.find?_eq_none.1 hnew r hr (beq_iff_eq.2 heq)
  fits row hrow := by
    rcases List.mem_append.1 hrow with hold | hlast
    · exact s.fits row hold
    · rw [List.mem_singleton.1 hlast]
      exact Int.ofNat_le.2 hnow

/-- What an append leaves is such a store again, whatever is refused. -/
theorem exists_append (s : JournalStore) (event : DomainEvent) (refusals : List Bool) :
    ∃ s' : JournalStore, s'.toDomainStore =
      (appendDomainEventTx s.toDomainStore event refusals).2 := by
  rcases appendDomainEventTx_cases s.toDomainStore event refusals with ⟨operation, h⟩ | h
  · exact ⟨s, by rw [h]⟩
  · rw [h, appendDomainEventTx_calm]
    cases happend : appendDomainEvent s.toDomainStore event with
    | error err => exact ⟨s, rfl⟩
    | ok result =>
      obtain ⟨o, s'⟩ := result
      rcases appendDomainEvent_cases happend with
        ⟨row, -, -, -, rfl⟩ | ⟨p, hnow, hnew, -, -, -, rfl⟩
      · exact ⟨s, rfl⟩
      · exact ⟨s.extend event p _ _ hnow hnew, rfl⟩

/-- So is what healing the projections leaves. -/
theorem exists_reopen (s : JournalStore) : ∃ s' : JournalStore,
    s'.toDomainStore = (ensureDomainProjectionsCurrent s.toDomainStore).2 := by
  unfold ensureDomainProjectionsCurrent
  split
  · exact ⟨s, rfl⟩
  · exact ⟨s, rfl⟩
  · split
    · exact ⟨s, rfl⟩
    · rename_i n s' hrebuild
      obtain ⟨p, -, h⟩ := bind_eq_ok.1 hrebuild
      cases h
      exact ⟨⟨⟨s.journal, p.rebuildFts, some (markerAfterRebuild s.journal p.rebuildFts)⟩,
        s.unique, s.fits⟩, rfl⟩

/-- A store some of whose appends are refused. -/
def refusedMachine : Machine DomainStore (StoreInput × List Bool) :=
  ⟨.empty, fun s i => match i with
    | (.append event, refusals) => (appendDomainEventTx s event refusals).2
    | (.reopen, _) => (ensureDomainProjectionsCurrent s).2⟩

/-- Every run of appends, refused or not, and reopens goes through such stores. -/
theorem exists_run (inputs : List (StoreInput × List Bool)) :
    ∃ s : JournalStore, s.toDomainStore = refusedMachine.run inputs := by
  refine refusedMachine.invariant (I := fun d => ∃ s : JournalStore, s.toDomainStore = d)
    (fun d i hd => ?_) ⟨⟨.empty, List.nodup_nil, fun _ h => absurd h List.not_mem_nil⟩, rfl⟩ inputs
  obtain ⟨s, rfl⟩ := hd
  match i with
  | (.append event, refusals) => exact s.exists_append event refusals
  | (.reopen, _) => exact s.exists_reopen

end JournalStore

/-- Appending an event: the duplicate and the collision, what refusals lead to, and
what a failure leaves. -/
structure AppendLaw (s : JournalStore) (event : DomainEvent) : Prop where
  duplicate : ∀ row ∈ s.journal, row = durableRow row.seq event →
    appendDomainEventTx s.toDomainStore event [] = (.ok (.duplicate row.seq), s.toDomainStore)
  collision : ∀ row ∈ s.journal, row.eventId = event.eventId.asStr →
    row ≠ durableRow row.seq event → event.occurredAt.toNat ≤ i64Max →
    appendDomainEventTx s.toDomainStore event [] =
      (.error (.eventIdCollision event.eventId.asStr row.seq), s.toDomainStore)
  late : i64Max < event.occurredAt.toNat → ∀ refusals,
    ∃ detail, appendDomainEventTx s.toDomainStore event refusals =
      (.error (.rebuildInvariant detail), s.toDomainStore)
  refused : ∀ refusals,
    (∃ operation, appendDomainEventTx s.toDomainStore event refusals =
      (.error (.sqlite operation), s.toDomainStore)) ∨
    appendDomainEventTx s.toDomainStore event refusals = appendDomainEventTx s.toDomainStore event []
  failed : ∀ refusals err, (appendDomainEventTx s.toDomainStore event refusals).1 = .error err →
    (appendDomainEventTx s.toDomainStore event refusals).2 = s.toDomainStore

/-- **Appends are idempotent and all or nothing.** -/
theorem append_idempotent_atomic (s : JournalStore) (event : DomainEvent) : AppendLaw s event where
  duplicate row hmem hrow := by
    have hnow : event.occurredAt.toNat ≤ i64Max := by
      have hfits := s.fits row hmem
      rw [hrow] at hfits
      exact Int.ofNat_le.1 hfits
    rw [appendDomainEventTx_calm]
    unfold appendDomainEvent
    rw [if_neg (not_tooLarge event), if_neg (Nat.not_lt.2 hnow),
      s.lookup hmem (congrArg DomainJournalRow.eventId hrow)]
    dsimp only
    rw [if_pos hrow]
  collision row hmem hid hrow hnow := by
    rw [appendDomainEventTx_calm]
    unfold appendDomainEvent
    rw [if_neg (not_tooLarge event), if_neg (Nat.not_lt.2 hnow), s.lookup hmem hid]
    dsimp only
    rw [if_neg hrow]
  late hlate refusals := by
    unfold appendDomainEventTx
    rw [if_neg (not_tooLarge event), if_pos hlate]
    exact ⟨_, rfl⟩
  refused := appendDomainEventTx_cases s.toDomainStore event
  failed refusals err h := by
    unfold appendDomainEventTx at h ⊢
    split
    · rfl
    · split
      · rfl
      · rename_i hlen hlate
        rw [if_neg hlen, if_neg hlate] at h
        rw [transact_error h]

end Statements

/-! ## A late event under a known identifier -/

section Sample

attribute [local instance] flatJson

/-- The custom event at the time 2^63. -/
def sampleLate : DomainEvent := { sampleMasquerade with occurredAt := 9223372036854775808 }

/-- A journal with the event at the time 5. -/
def sampleJournal : JournalStore where
  toDomainStore := storeMachine.run (appends [sampleMasquerade])
  unique := by decide
  fits := by decide

/-- An event with a time that no column holds is refused for its time, not for its
identifier. -/
theorem late_not_collision :
    ¬ ∀ (s : JournalStore) (event : DomainEvent), ∀ row ∈ s.journal,
      row.eventId = event.eventId.asStr → row ≠ durableRow row.seq event →
      (appendDomainEventTx s.toDomainStore event []).1 =
        .error (.eventIdCollision event.eventId.asStr row.seq) := by
  intro h
  have hcollision := h sampleJournal sampleLate (durableRow 1 sampleMasquerade) (by decide)
    (by decide) (by decide)
  exact absurd hcollision (by decide)

end Sample

end Altior.Storage
