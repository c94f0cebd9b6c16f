import Altior.Storage.Checkpoint
import Altior.Storage.Lifecycle

/-!
# What the store never forgets

Turns, journal rows and checkpoints stay once they are there: no operation of
the store deletes one, and opening the store brings back every turn whose start
is in the journal.
-/

namespace Altior.Storage

open Domain Lib Lib.Lifecycle

/-! ## Turns under one event -/

theorem turnPhase_ne_absent {t : Table String TurnRow} {k : String} :
    turnPhase t[k]? ≠ .absent ↔ k ∈ t := by
  rw [Table.mem_iff]
  cases t[k]? with
  | none => simp [turnPhase]
  | some row =>
    simp only [turnPhase, Option.some.injEq, exists_eq', iff_true]
    split <;> simp

theorem parseColumn_eq_ok {pre : String} {column : Option String} {detail : String}
    {id : Option (Id pre)} (h : parseColumn pre column detail = .ok id) :
    id.map Id.asStr = column := by
  unfold parseColumn at h
  split at h
  · cases h
    rfl
  · split at h
    · rename_i hparse
      cases h
      exact congrArg some (Id.asStr_of_parse hparse)
    · cases h

variable [SerdeJson]

open SerdeJson

variable {p p' : Projections} {row : DomainJournalRow}

/-- An accepted event keeps the turns. -/
theorem mem_turn_step {e : DomainEvent} {seq occurredAt : Int}
    (hvalid : validateDomainEventInTx p e = .ok ())
    (hfold : foldDomainEventInTx p e seq occurredAt = .ok p') {k : String} (h : k ∈ p.turn) :
    k ∈ p'.turn := by
  have hstep := turn_step hvalid hfold k
  rw [← turnPhase_ne_absent] at h ⊢
  intro habsent
  rw [habsent] at hstep
  exact h (step_eq_absent hstep)

/-- An accepted start leaves its turn in the table. -/
theorem mem_turn_of_started {e : DomainEvent} {seq occurredAt : Int}
    (hvalid : validateDomainEventInTx p e = .ok ())
    (hfold : foldDomainEventInTx p e seq occurredAt = .ok p') (hkind : e.kind = .turnStarted)
    {turn : TurnId} (hturn : e.turnId = some turn) : turn.asStr ∈ p'.turn := by
  have hstep := turn_step hvalid hfold turn.asStr
  have hact : turnAct turn.asStr e = .start (e.threadId.map Id.asStr) := by
    simp [turnAct, hturn, hkind]
  rw [hact] at hstep
  rw [← turnPhase_ne_absent]
  intro habsent
  rw [habsent] at hstep
  have := step_eq_absent hstep
  rw [this] at hstep
  cases hstep

/-! ## Turns under a rebuild -/

/-- The row is the start of the turn. -/
def StartsTurn (turnId : String) (row : DomainJournalRow) : Prop :=
  row.kind = "turn.started" ∧ row.turnId = some turnId

instance (turnId : String) (row : DomainJournalRow) : Decidable (StartsTurn turnId row) :=
  inferInstanceAs (Decidable (_ ∧ _))

/-- What a row parses to keeps its kind, its turn and its payload. -/
theorem eventOfRow_eq_ok {e : DomainEvent} (h : eventOfRow row = .ok e) :
    DomainEventKind.tryFromStr row.kind = .ok e.kind ∧ e.turnId.map Id.asStr = row.turnId ∧
      e.payload.asBytes = row.payload := by
  unfold eventOfRow at h
  cases hid : Id.parse "evt_" row.eventId with
  | error _ => rw [hid] at h; cases h
  | ok eventId =>
    rw [hid] at h
    obtain ⟨_, -, h⟩ := bind_eq_ok.1 h
    obtain ⟨threadId, -, h⟩ := bind_eq_ok.1 h
    obtain ⟨turnId, hturn, h⟩ := bind_eq_ok.1 h
    obtain ⟨operationId, -, h⟩ := bind_eq_ok.1 h
    cases hkind : DomainEventKind.tryFromStr row.kind with
    | error _ => rw [hkind] at h; cases h
    | ok kind =>
      rw [hkind] at h
      cases hpayload : EventPayload.tryFrom row.payload with
      | error _ => rw [hpayload] at h; cases h
      | ok payload =>
        rw [hpayload] at h
        change (if _ then _ else _) = _ at h
        split at h
        · cases h
        · cases h
          exact ⟨rfl, parseColumn_eq_ok hturn, EventPayload.asBytes_of_tryFrom hpayload⟩

/-- A replayed row keeps the turns. -/
theorem mem_turn_replayRow (h : replayRow p row = .ok p') {k : String} (hk : k ∈ p.turn) :
    k ∈ p'.turn := by
  obtain ⟨e, -, hvalid, hfold⟩ := replayRow_eq_ok h
  exact mem_turn_step hvalid hfold hk

/-- The turn a replayed row starts is there after it. -/
theorem mem_turn_of_startsTurn (h : replayRow p row = .ok p') {k : String}
    (hstarts : StartsTurn k row) : k ∈ p'.turn := by
  obtain ⟨e, he, hvalid, hfold⟩ := replayRow_eq_ok h
  obtain ⟨hkind, hturn, -⟩ := eventOfRow_eq_ok he
  obtain ⟨hname, hid⟩ := hstarts
  rw [hname] at hkind
  rw [hid] at hturn
  obtain ⟨turn, hsome, rfl⟩ := Option.map_eq_some_iff.1 hturn
  have hstarted : e.kind = .turnStarted := by
    have hparse : DomainEventKind.tryFromStr "turn.started" = .ok .turnStarted := by decide
    rw [hparse, Except.ok.injEq] at hkind
    exact hkind.symm
  exact mem_turn_of_started hvalid hfold hstarted hsome

/-- Replaying a journal brings back every turn it starts. -/
theorem mem_turn_replay {rows : List DomainJournalRow} (h : replay replayRow p rows = .ok p')
    {k : String} (hk : ∃ row ∈ rows, StartsTurn k row) : k ∈ p'.turn := by
  obtain ⟨row, hmem, hstarts⟩ := hk
  exact replay_establishes (fun _ _ hrow => mem_turn_of_startsTurn hrow hstarts)
    (fun _ _ _ hrow hthere => mem_turn_replayRow hrow hthere) hmem h

/-- Healing the projections keeps the journal and every turn it starts. -/
theorem ensureDomainProjectionsCurrent_keeps (s : DomainStore) :
    (ensureDomainProjectionsCurrent s).2.journal = s.journal ∧
      ∀ k ∈ s.projections.turn, (∃ row ∈ s.journal, StartsTurn k row) →
        k ∈ (ensureDomainProjectionsCurrent s).2.projections.turn := by
  unfold ensureDomainProjectionsCurrent
  split
  · exact ⟨rfl, fun _ hk _ => hk⟩
  · exact ⟨rfl, fun _ hk _ => hk⟩
  · split
    · exact ⟨rfl, fun _ hk _ => hk⟩
    · rename_i hrebuild
      obtain ⟨p, hreplay, h⟩ := bind_eq_ok.1 hrebuild
      cases h
      exact ⟨rfl, fun _ _ hstarts => mem_turn_replay hreplay hstarts⟩

/-! ## Growth -/

namespace Store

/-- Nothing of what the first store holds is missing in the second; a checkpoint
may have been settled in between. -/
structure Grows (s s' : Store) : Prop where
  turn : ∀ k ∈ s.domain.projections.turn, k ∈ s'.domain.projections.turn
  journal : ∀ row ∈ s.domain.journal, row ∈ s'.domain.journal
  checkpoint : ∀ (id : RuntimeCheckpointId) cp, s.checkpoint[id]? = some cp →
    ∃ cp', s'.checkpoint[id]? = some cp' ∧ cp'.turnId = cp.turnId

variable {s s' : Store}

theorem Grows.trans {s'' : Store} (h : Grows s s') (h' : Grows s' s'') : Grows s s'' where
  turn k hk := h'.turn k (h.turn k hk)
  journal row hrow := h'.journal row (h.journal row hrow)
  checkpoint id cp hcp := by
    obtain ⟨cp', hcp', heq⟩ := h.checkpoint id cp hcp
    obtain ⟨cp'', hcp'', heq'⟩ := h'.checkpoint id cp' hcp'
    exact ⟨cp'', hcp'', heq'.trans heq⟩

/-- Only the local tables differ, and no checkpoint is missing in the second
store. -/
structure Local (s s' : Store) : Prop where
  domain : s'.domain = s.domain
  checkpoint : ∀ (id : RuntimeCheckpointId) cp, s.checkpoint[id]? = some cp →
    ∃ cp', s'.checkpoint[id]? = some cp' ∧ cp'.turnId = cp.turnId

theorem Local.refl (s : Store) : Local s s := ⟨rfl, fun _ cp h => ⟨cp, h, rfl⟩⟩

theorem Local.grows (h : Local s s') : Grows s s' :=
  ⟨fun _ hk => h.domain ▸ hk, fun _ hrow => h.domain ▸ hrow, h.checkpoint⟩

theorem Local.trans {s'' : Store} (h : Local s s') (h' : Local s' s'') : Local s s'' :=
  ⟨h'.domain.trans h.domain, (h.grows.trans h'.grows).checkpoint⟩

/-- What an append does to the store: nothing, or one accepted event. -/
theorem appendDomainEvent_cases {s s' : Store} {e : DomainEvent} {o : AppendOutcome}
    (h : s.appendDomainEvent e = .ok (o, s')) :
    ∃ domain, Storage.appendDomainEvent s.domain e = .ok (o, domain) ∧
      s' = { s with domain := domain } := by
  unfold appendDomainEvent at h
  split at h
  · cases h
    exact ⟨_, by assumption, rfl⟩
  · cases h

/-- A recorded intent is there with its turn, whose thread the turn belongs to. -/
theorem recordRuntimeIntent_cases {s s' : Store} {checkpoint : RuntimeCheckpoint}
    (h : s.recordRuntimeIntent checkpoint = .ok s') :
    (∀ turn, checkpoint.turnId = some turn → turn.asStr ∈ s.domain.projections.turn) ∧
      ((∃ existing, s.checkpoint[checkpoint.id]? = some existing ∧
          existing.turnId = checkpoint.turnId ∧ s' = s) ∨
        (s.checkpoint[checkpoint.id]? = none ∧
          s' = { s with checkpoint := s.checkpoint.insert checkpoint.id checkpoint })) := by
  unfold recordRuntimeIntent at h
  split at h
  · cases h
  obtain ⟨⟨⟩, hturn, h⟩ := bind_eq_ok.1 h
  refine ⟨?_, ?_⟩
  · intro turn hid
    simp only [checkIntentTurn, hid] at hturn
    rw [Table.mem_iff]
    cases hrow : s.domain.projections.turn[turn.asStr]? with
    | none => simp [hrow] at hturn
    | some row => exact ⟨row, rfl⟩
  · split at h
    · rename_i existing hexisting
      split at h
      · rename_i hmatch
        cases h
        exact .inl ⟨existing, hexisting, hmatch.2.1, rfl⟩
      · cases h
    · rename_i hnone
      split at h
      · cases h
      · split at h
        · cases h
        · cases h
          exact .inr ⟨hnone, rfl⟩

theorem local_recordRuntimeIntent {checkpoint : RuntimeCheckpoint}
    (h : s.recordRuntimeIntent checkpoint = .ok s') : Local s s' := by
  obtain ⟨-, ⟨existing, -, -, rfl⟩ | ⟨hnone, rfl⟩⟩ := recordRuntimeIntent_cases h
  · exact .refl _
  · refine ⟨rfl, fun id cp hcp => ⟨cp, ?_, rfl⟩⟩
    have hne : checkpoint.id ≠ id := by
      rintro rfl
      rw [hnone] at hcp
      cases hcp
    exact (Table.getElem?_insert_of_ne _ _ hne).trans hcp

theorem local_settleRuntimeCheckpoint {id : RuntimeCheckpointId} {state : CheckpointState}
    {remoteRequestId diagnosticSummary : Option String} {settledAt : UInt64}
    (h : s.settleRuntimeCheckpoint id state remoteRequestId diagnosticSummary settledAt = .ok s') :
    Local s s' := by
  unfold settleRuntimeCheckpoint at h
  split at h
  · cases h
  · split at h
    · cases h
    · split at h
      · split at h
        · cases h
        · cases h
          refine ⟨rfl, fun id' cp hcp => ?_⟩
          rw [Table.getElem?_update]
          split
          · rw [hcp]
            exact ⟨_, rfl, rfl⟩
          · exact ⟨cp, hcp, rfl⟩
      · split at h
        · cases h
          exact .refl _
        · cases h

theorem local_recordContextSnapshot {snapshot : ContextSnapshot}
    (h : s.recordContextSnapshot snapshot = .ok s') : Local s s' := by
  unfold recordContextSnapshot at h
  split at h
  · cases h
  · split at h
    · cases h
    · split at h
      · cases h
      · split at h
        · split at h
          · cases h
            exact .refl _
          · cases h
        · cases h
          exact ⟨rfl, fun _ cp hcp => ⟨cp, hcp, rfl⟩⟩

theorem local_replaceSessionBinding {threadId : ThreadId} {binding : SessionBinding}
    (h : s.replaceSessionBinding threadId binding = .ok s') : Local s s' := by
  unfold replaceSessionBinding at h
  split at h
  · cases h
  · cases h
    exact ⟨rfl, fun _ cp hcp => ⟨cp, hcp, rfl⟩⟩

end Store

end Altior.Storage
