import Altior.Runtime.Adapter
import Altior.Storage.Growth

/-!
# The life of a checkpoint

Recording, settling and recovering are separate writes of one table, each with
its own look at the current state of the row.  Together they take a row from
intent to one terminal state and never any further.
-/

namespace Altior.Runtime

open Domain Lib Storage

/-- Two rows record the same intent. -/
structure SameIntent (cp cp' : RuntimeCheckpoint) : Prop where
  id : cp'.id = cp.id
  threadId : cp'.threadId = cp.threadId
  turnId : cp'.turnId = cp.turnId
  operationId : cp'.operationId = cp.operationId
  boundaryKind : cp'.boundaryKind = cp.boundaryKind
  createdAt : cp'.createdAt = cp.createdAt

/-- What may become of a row: it stays as it is, or an intent is settled. -/
def Becomes (cp cp' : RuntimeCheckpoint) : Prop :=
  cp' = cp ∨ (cp.state = .intent ∧ cp'.state.isTerminal = true ∧ SameIntent cp cp')

/-- What may become of the row of an identifier: none may appear, and the one
that is there is kept or settled. -/
def Advances (row row' : Option RuntimeCheckpoint) : Prop :=
  ∀ cp, row = some cp → ∃ cp', row' = some cp' ∧ Becomes cp cp'

theorem Advances.refl (row : Option RuntimeCheckpoint) : Advances row row :=
  fun cp h => ⟨cp, h, .inl rfl⟩

theorem Advances.trans {row row' row'' : Option RuntimeCheckpoint} (h : Advances row row')
    (h' : Advances row' row'') : Advances row row'' := by
  intro cp hcp
  obtain ⟨cp', hcp', rfl | ⟨hintent, hterminal, hsame⟩⟩ := h cp hcp
  · exact h' _ hcp'
  · obtain ⟨cp'', hcp'', rfl | ⟨hintent', -, -⟩⟩ := h' cp' hcp'
    · exact ⟨_, hcp'', .inr ⟨hintent, hterminal, hsame⟩⟩
    · -- a settled row is no intent any more
      rw [hintent'] at hterminal
      cases hterminal

/-- The table moves on: no row is lost, and every new one is an intent. -/
structure Moves [SerdeJson] (s s' : Store) : Prop where
  advances : ∀ id : RuntimeCheckpointId, Advances s.checkpoint[id]? s'.checkpoint[id]?
  fresh : ∀ (id : RuntimeCheckpointId) cp, s.checkpoint[id]? = none →
    s'.checkpoint[id]? = some cp → cp.state = .intent

variable {id : RuntimeCheckpointId} {state : CheckpointState}

section Store

variable [SerdeJson] {s s' : Store}

/-- **Inversion.** A settlement that is accepted settles an intent or finds the row
settled so. -/
theorem settleRuntimeCheckpoint_cases {remoteRequestId diagnosticSummary : Option String}
    {settledAt : UInt64}
    (h : s.settleRuntimeCheckpoint id state remoteRequestId diagnosticSummary settledAt = .ok s') :
    state.isTerminal = true ∧ ∃ row, s.checkpoint[id]? = some row ∧
      ((row.state = .intent ∧ s' = { s with checkpoint := s.checkpoint.update id fun row =>
          { row with
            state := state
            remoteRequestId := remoteRequestId
            diagnosticSummary := diagnosticSummary
            settledAt := some settledAt } }) ∨
        (row.state = state ∧ s' = s)) := by
  unfold Store.settleRuntimeCheckpoint at h
  split at h
  · cases h
  · rename_i hterminal
    refine ⟨by simpa using hterminal, ?_⟩
    split at h
    · cases h
    · rename_i row hrow
      refine ⟨row, hrow, ?_⟩
      split at h
      · rename_i hintent
        split at h
        · cases h
        · cases h
          exact .inl ⟨hintent, rfl⟩
      · split at h
        · rename_i hsame
          cases h
          exact .inr ⟨hsame, rfl⟩
        · cases h

/-- No row is lost and none appears. -/
structure Settles (s s' : Store) : Prop where
  advances : ∀ id : RuntimeCheckpointId, Advances s.checkpoint[id]? s'.checkpoint[id]?
  absent : ∀ id : RuntimeCheckpointId, s.checkpoint[id]? = none → s'.checkpoint[id]? = none

theorem Settles.moves (h : Settles s s') : Moves s s' where
  advances := h.advances
  fresh id cp hnone hsome := by
    rw [h.absent id hnone] at hsome
    cases hsome

theorem settles_of_eq (h : s'.checkpoint = s.checkpoint) : Settles s s' := by
  constructor
  · intro id
    rw [h]
    exact .refl _
  · intro id hnone
    rw [h, hnone]

theorem Settles.trans {s'' : Store} (h : Settles s s') (h' : Settles s' s'') : Settles s s'' where
  advances id := (h.advances id).trans (h'.advances id)
  absent id hnone := h'.absent id (h.absent id hnone)

theorem settles_settleRuntimeCheckpoint {remoteRequestId diagnosticSummary : Option String}
    {settledAt : UInt64}
    (h : s.settleRuntimeCheckpoint id state remoteRequestId diagnosticSummary settledAt = .ok s') :
    Settles s s' := by
  obtain ⟨hterminal, row, hrow, ⟨hintent, rfl⟩ | ⟨-, rfl⟩⟩ := settleRuntimeCheckpoint_cases h
  · constructor
    · intro id' cp hcp
      rw [Table.getElem?_update]
      split
      · rename_i heq
        subst heq
        rw [hrow] at hcp
        cases hcp
        rw [hrow]
        exact ⟨_, rfl, .inr ⟨hintent, hterminal, ⟨rfl, rfl, rfl, rfl, rfl, rfl⟩⟩⟩
      · exact ⟨cp, hcp, .inl rfl⟩
    · intro id' hnone
      rw [Table.getElem?_update, hnone]
      split <;> rfl
  · exact settles_of_eq rfl

theorem settles_settleEach (checkpoints : List RuntimeCheckpoint) (state : CheckpointState)
    (settledAt : UInt64) (s : Store) : Settles s (settleEach s checkpoints state settledAt) := by
  induction checkpoints generalizing s with
  | nil => exact settles_of_eq rfl
  | cons cp checkpoints ih =>
    unfold settleEach
    rw [List.foldl_cons]
    cases h : s.settleRuntimeCheckpoint cp.id state none none settledAt with
    | ok s' => exact (settles_settleRuntimeCheckpoint h).trans (ih s')
    | error err => exact ih s

theorem settles_settleCheckpoint {settled : CheckpointSettled}
    (h : settleCheckpoint s settled = .ok s') : Settles s s' := by
  unfold settleCheckpoint at h
  split at h
  · split at h
    · cases h
      exact settles_settleEach _ _ _ s
    · cases h
      exact settles_of_eq rfl
  · cases h
    exact settles_settleEach _ _ _ s
  · dsimp only at h
    split at h
    · cases h
      exact settles_settleEach _ _ _ s
    · cases h
      exact settles_settleEach _ _ _ s
    · cases h
  · cases h
    exact settles_settleEach _ _ _ s

theorem moves_recordRuntimeIntent {checkpoint : RuntimeCheckpoint}
    (h : s.recordRuntimeIntent checkpoint = .ok s') : Moves s s' := by
  have hintent : checkpoint.state = .intent := by
    unfold Store.recordRuntimeIntent at h
    split at h
    · cases h
    · exact not_not.1 ‹_›
  obtain ⟨-, ⟨existing, -, -, rfl⟩ | ⟨hnone, rfl⟩⟩ := Store.recordRuntimeIntent_cases h
  · exact (settles_of_eq rfl).moves
  · constructor
    · intro id cp hcp
      have hne : checkpoint.id ≠ id := by
        rintro rfl
        rw [hnone] at hcp
        cases hcp
      exact ⟨cp, (Table.getElem?_insert_of_ne _ _ hne).trans hcp, .inl rfl⟩
    · intro id cp hid hcp
      rw [Table.getElem?_insert_eq] at hcp
      split at hcp
      · cases hcp
        exact hintent
      · rw [hid] at hcp
        cases hcp

/-- What the recovery makes of a row. -/
theorem getElem?_recover (s : Store) (id : RuntimeCheckpointId) :
    s.recoverUnsettledCheckpoints.checkpoint[id]? =
      s.checkpoint[id]?.map Store.recoverCheckpoint := by
  simp [Store.recoverUnsettledCheckpoints]

omit [SerdeJson] in
theorem becomes_recover (cp : RuntimeCheckpoint) : Becomes cp (Store.recoverCheckpoint cp) := by
  unfold Store.recoverCheckpoint
  split
  · exact .inr ⟨‹_›, rfl, ⟨rfl, rfl, rfl, rfl, rfl, rfl⟩⟩
  · exact .inl rfl

theorem settles_recover (s : Store) : Settles s s.recoverUnsettledCheckpoints where
  advances id cp hcp := by
    rw [getElem?_recover, hcp]
    exact ⟨_, rfl, becomes_recover cp⟩
  absent id hnone := by rw [getElem?_recover, hnone, Option.map_none]

omit [SerdeJson] in
theorem recoverCheckpoint_idem (cp : RuntimeCheckpoint) :
    Store.recoverCheckpoint (Store.recoverCheckpoint cp) = Store.recoverCheckpoint cp := by
  unfold Store.recoverCheckpoint
  by_cases h : cp.state = .intent
  · rw [if_pos h]
    exact if_neg nofun
  · rw [if_neg h, if_neg h]

/-- Recovering twice is recovering once. -/
theorem recover_idem (s : Store) :
    s.recoverUnsettledCheckpoints.recoverUnsettledCheckpoints = s.recoverUnsettledCheckpoints := by
  have htable : s.recoverUnsettledCheckpoints.recoverUnsettledCheckpoints.checkpoint =
      s.recoverUnsettledCheckpoints.checkpoint := by
    refine Std.ExtTreeMap.ext_getElem? fun id => ?_
    rw [getElem?_recover, getElem?_recover, Option.map_map]
    exact congrArg (Option.map · _) (funext recoverCheckpoint_idem)
  exact congrArg (fun table => { s with checkpoint := table }) htable

theorem settles_openInner (s : Store) : Settles s s.openInner.2 := by
  unfold Store.openInner
  split
  · rename_i domain _
    have hdomain : Settles s { s with domain := domain } := settles_of_eq rfl
    exact hdomain.trans (settles_recover _)
  · exact settles_of_eq rfl

end Store

/-! ## Every sequence of operations -/

/-- What is done to the checkpoints of a store: the three writes of the table, the
same through the adapter, an event of the journal, and a restart. -/
inductive CheckpointOp [SerdeJson]
  | record (checkpoint : RuntimeCheckpoint)
  | settle (id : RuntimeCheckpointId) (state : CheckpointState)
      (remoteRequestId diagnosticSummary : Option String) (settledAt : UInt64)
  | recover
  | intent (intent : CheckpointIntent)
  | settlement (settled : CheckpointSettled)
  | append (e : DomainEvent)
  | reopen

section Runs

variable [SerdeJson] [DefaultHasher] [ErrorText]

/-- A store after a write that may have failed. -/
def written {ε : Type} (s : Store) : Except ε Store → Store
  | .ok s' => s'
  | .error _ => s

/-- One operation; one that fails changes nothing. -/
def checkpointStep (s : Store) : CheckpointOp → Store
  | .record checkpoint => written s (s.recordRuntimeIntent checkpoint)
  | .settle id state remoteRequestId diagnosticSummary settledAt =>
    written s (s.settleRuntimeCheckpoint id state remoteRequestId diagnosticSummary settledAt)
  | .recover => s.recoverUnsettledCheckpoints
  | .intent intent => written s (checkpointIntent s intent)
  | .settlement settled => written s (settleCheckpoint s settled)
  | .append e => written s ((s.appendDomainEvent e).map Prod.snd)
  | .reopen => s.openInner.2

/-- The store over a sequence of operations. -/
def checkpointMachine (s : Store) : Machine Store CheckpointOp := ⟨s, checkpointStep⟩

omit [DefaultHasher] [ErrorText] in
theorem moves_written {ε : Type} {s : Store} {r : Except ε Store}
    (h : ∀ s', r = .ok s' → Moves s s') : Moves s (written s r) := by
  cases r with
  | ok s' => exact h s' rfl
  | error err => exact (settles_of_eq rfl).moves

/-- **One operation.** -/
theorem moves_step (s : Store) (op : CheckpointOp) : Moves s (checkpointStep s op) := by
  cases op with
  | record checkpoint => exact moves_written fun _ => moves_recordRuntimeIntent
  | settle => exact moves_written fun _ h => (settles_settleRuntimeCheckpoint h).moves
  | recover => exact (settles_recover s).moves
  | intent intent =>
    refine moves_written fun s' h => ?_
    unfold checkpointIntent at h
    split at h <;> cases h
    exact moves_recordRuntimeIntent ‹_›
  | settlement settled => exact moves_written fun _ h => (settles_settleCheckpoint h).moves
  | append e =>
    refine moves_written fun s' h => ?_
    cases happend : s.appendDomainEvent e with
    | error err =>
      rw [happend] at h
      cases h
    | ok r =>
      obtain ⟨outcome, s''⟩ := r
      rw [happend] at h
      cases h
      obtain ⟨domain, -, rfl⟩ := Store.appendDomainEvent_cases happend
      have hsettles : Settles s { s with domain := domain } := settles_of_eq rfl
      exact hsettles.moves
  | reopen => exact (settles_openInner s).moves

/-- The laws of the checkpoints after a sequence of operations. -/
structure CheckpointLaws (s : Store) (ops : List CheckpointOp) : Prop where
  /-- A row that was there at any time is there, the same or settled from intent. -/
  once : ∀ before after, ops = before ++ after → ∀ id : RuntimeCheckpointId,
    Advances ((checkpointMachine s).run before).checkpoint[id]?
      ((checkpointMachine s).run ops).checkpoint[id]?
  /-- A row appears as an intent. -/
  intended : ∀ before op after, ops = before ++ op :: after → ∀ (id : RuntimeCheckpointId) cp,
    ((checkpointMachine s).run before).checkpoint[id]? = none →
    ((checkpointMachine s).run (before ++ [op])).checkpoint[id]? = some cp → cp.state = .intent
  /-- Settling again to the same state succeeds and changes nothing. -/
  again : ∀ (id : RuntimeCheckpointId) cp remoteRequestId diagnosticSummary settledAt,
    ((checkpointMachine s).run ops).checkpoint[id]? = some cp → cp.state.isTerminal = true →
    ((checkpointMachine s).run ops).settleRuntimeCheckpoint id cp.state remoteRequestId
      diagnosticSummary settledAt = .ok ((checkpointMachine s).run ops)
  /-- Settling again to another state fails and changes nothing. -/
  conflict : ∀ (id : RuntimeCheckpointId) cp state remoteRequestId diagnosticSummary settledAt,
    ((checkpointMachine s).run ops).checkpoint[id]? = some cp → cp.state.isTerminal = true →
    state ≠ cp.state →
    (∃ err, ((checkpointMachine s).run ops).settleRuntimeCheckpoint id state remoteRequestId
      diagnosticSummary settledAt = .error err) ∧
    (checkpointMachine s).run
      (ops ++ [.settle id state remoteRequestId diagnosticSummary settledAt]) =
        (checkpointMachine s).run ops
  /-- The recovery settles the intents and leaves the other rows alone. -/
  recovered : ∀ (id : RuntimeCheckpointId) cp,
    ((checkpointMachine s).run ops).checkpoint[id]? = some cp →
    ∃ cp', ((checkpointMachine s).run (ops ++ [.recover])).checkpoint[id]? = some cp' ∧
      (cp.state = .intent → cp'.state = .indeterminate) ∧ (cp.state ≠ .intent → cp' = cp)
  /-- Recovering twice is recovering once. -/
  twice : (checkpointMachine s).run (ops ++ [.recover, .recover]) =
    (checkpointMachine s).run (ops ++ [.recover])

omit [DefaultHasher] [ErrorText] in
theorem settle_again {s : Store} {cp : RuntimeCheckpoint} (h : s.checkpoint[id]? = some cp)
    (hterminal : cp.state.isTerminal = true) (remoteRequestId diagnosticSummary : Option String)
    (settledAt : UInt64) :
    s.settleRuntimeCheckpoint id cp.state remoteRequestId diagnosticSummary settledAt = .ok s := by
  have hne : cp.state ≠ .intent := by
    intro heq
    rw [heq] at hterminal
    cases hterminal
  simp [Store.settleRuntimeCheckpoint, hterminal, h, hne]

omit [DefaultHasher] [ErrorText] in
theorem settle_conflict {s : Store} {cp : RuntimeCheckpoint} (h : s.checkpoint[id]? = some cp)
    (hterminal : cp.state.isTerminal = true) (hstate : state ≠ cp.state)
    (remoteRequestId diagnosticSummary : Option String) (settledAt : UInt64) :
    ∃ err, s.settleRuntimeCheckpoint id state remoteRequestId diagnosticSummary settledAt =
      .error err := by
  cases hsettle : s.settleRuntimeCheckpoint id state remoteRequestId diagnosticSummary settledAt with
  | error err => exact ⟨err, rfl⟩
  | ok s' =>
    obtain ⟨-, row, hrow, ⟨hintent, -⟩ | ⟨hsame, -⟩⟩ := settleRuntimeCheckpoint_cases hsettle
    · rw [h] at hrow
      cases hrow
      rw [hintent] at hterminal
      cases hterminal
    · rw [h] at hrow
      cases hrow
      exact absurd hsame.symm hstate

end Runs

end Altior.Runtime
