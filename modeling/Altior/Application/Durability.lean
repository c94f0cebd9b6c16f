import Altior.Application.Watch

/-!
# What is recorded stays recorded

No call of the application, no crash inside one and no restart takes anything off the
journal.  The turns it starts and the checkpoints stay as well.
-/

namespace Altior.Application

open Domain Lib Storage Altior.Runtime

variable [SerdeJsonWriter] {H : Type}

/-- The second store holds what is recorded in the first. -/
structure Remembers (s s' : Store) : Prop where
  journal : s.domain.journal <+: s'.domain.journal
  turn : ∀ k ∈ s.domain.projections.turn, (∃ row ∈ s.domain.journal, StartsTurn k row) →
    k ∈ s'.domain.projections.turn
  checkpoint : ∀ (id : RuntimeCheckpointId) cp, s.checkpoint[id]? = some cp →
    ∃ cp', s'.checkpoint[id]? = some cp' ∧ cp'.turnId = cp.turnId

namespace Remembers

variable {s s' s'' : Store}

theorem of_local (h : s.Local s') : Remembers s s' :=
  ⟨h.domain ▸ List.prefix_refl _, fun _ hk _ => h.domain ▸ hk, h.checkpoint⟩

theorem trans (h : Remembers s s') (h' : Remembers s' s'') : Remembers s s'' where
  journal := h.journal.trans h'.journal
  turn := fun k hk ⟨row, hrow, hstarts⟩ =>
    h'.turn k (h.turn k hk ⟨row, hrow, hstarts⟩) ⟨row, h.journal.subset hrow, hstarts⟩
  checkpoint id cp hcp := by
    obtain ⟨cp', hcp', heq⟩ := h.checkpoint id cp hcp
    obtain ⟨cp'', hcp'', heq'⟩ := h'.checkpoint id cp' hcp'
    exact ⟨cp'', hcp'', heq'.trans heq⟩

theorem of_append {e : DomainEvent} {o : AppendOutcome}
    (h : s.appendDomainEvent e = .ok (o, s')) : Remembers s s' := by
  obtain ⟨domain, happend, rfl⟩ := Store.appendDomainEvent_cases h
  rcases appendDomainEvent_cases happend with
    ⟨row, -, -, -, rfl⟩ | ⟨p, -, -, hvalid, hfold, -, rfl⟩
  · exact of_local (.refl s)
  · exact ⟨List.prefix_append _ _, fun _ hk _ => mem_turn_step hvalid hfold hk,
      fun _ cp hcp => ⟨cp, hcp, rfl⟩⟩

/-- Opening the store heals the projections and recovers the unsettled checkpoints. -/
theorem of_openInner (s : Store) : Remembers s s.openInner.2 := by
  obtain ⟨hjournal, hturn⟩ := ensureDomainProjectionsCurrent_keeps s.domain
  have hheal : Remembers s { s with domain := (ensureDomainProjectionsCurrent s.domain).2 } :=
    ⟨hjournal.symm ▸ List.prefix_refl _, hturn, fun _ cp hcp => ⟨cp, hcp, rfl⟩⟩
  unfold Store.openInner
  split <;> rename_i h <;> rw [h] at hheal
  · refine hheal.trans ⟨List.prefix_refl _, fun _ hk _ => hk, fun id cp hcp => ?_⟩
    refine ⟨Store.recoverCheckpoint cp, by simp [Store.recoverUnsettledCheckpoints, hcp], ?_⟩
    unfold Store.recoverCheckpoint
    split <;> rfl
  · exact hheal

end Remembers

variable (s₀ : Store)

/-- The application holds what is recorded in the store. -/
def Remembered (app : CoreApplication H) : Prop := Remembers s₀ app.store

theorem stable_remembered : Stable Anything fun x : Supervised H => Remembers s₀ x.store where
  store _ _ h hx := hx.trans (.of_local h)
  harness _ _ _ hx := hx
  supervisor _ _ _ hx := hx

theorem appStable_remembered : AppStable Anything (Remembered (H := H) s₀) where
  scratch _ _ _ h := h
  context _ _ h hk := hk.trans (.of_local h)
  append _ _ _ _ _ h hk := hk.trans (.of_append h)
  thread _ _ _ hk _ := ⟨_, stable_remembered s₀, hk, fun _ hx => hx⟩

/-- Any event, also one that ends a turn. -/
theorem remembered_append (e : DomainEvent) :
    Proc.Keeps (Remembered (H := H) s₀) (appendDomainEvent e) :=
  spec_appendDomainEvent (fun _ _ _ h hs => hs.trans (.of_append h)) (fun _ _ _ hs => hs)
    fun _ hs => hs

theorem remembered_record {payload : Except CoreAppError EventPayload}
    {event : EventPayload → EventId → DomainEvent} (now : UInt64) :
    Proc.Keeps (Remembered (H := H) s₀) (do
      let payload ← Proc.ofExcept payload
      let eventId ← nextEventId now
      let _ ← appendDomainEvent (event payload eventId)
      pure ()) :=
  .bind (.ofExcept _) fun _ => .bind (keeps_nextEventId (appStable_remembered s₀) now) fun _ =>
    .bind (remembered_append s₀ _) fun _ => .pure _

section Calls

variable [HarnessRuntimePort H]

theorem remembered_pollThreadEvents (threadId : ThreadId) (now : UInt64) :
    Proc.Keeps (Remembered (H := H) s₀) (pollThreadEvents threadId now) := by
  have hK := appStable_remembered (H := H) s₀
  refine .bind (keeps_onThread hK (fun _ hJ => keeps_pollStream quiet_anything hJ 0) threadId)
    fun event => ?_
  split
  · exact .pure _
  refine .bind (.bind (keeps_publishedId hK _ now) fun _ => .bind (.bind .get fun _ => ?_) fun _ =>
    .bind (.ofExcept _) fun _ => keeps_sequenceEnvelope hK _) fun _ => .pure _
  split
  · refine .bind (.ofExcept _) fun record => ?_
    split
    · exact .pure _
    · exact .bind (remembered_append s₀ _) fun _ => .pure _
  · exact .pure _

variable [DefaultHasher] [ErrorText]

theorem remembered_cancelTurn (operationId : OperationId) (threadId : ThreadId) (now : UInt64) :
    Proc.Keeps (Remembered (H := H) s₀) (cancelTurn operationId threadId now) := by
  have hK := appStable_remembered (H := H) s₀
  refine .bind .get fun s => .bind
    (keeps_onThread hK (fun _ hJ => keeps_steerCancel quiet_anything hJ 0) threadId) fun r => ?_
  split
  · split
    · exact .fail _
    · exact .bind (keeps_nextEventId hK now) fun _ => .bind (.ofExcept _) fun _ =>
        .bind (remembered_append s₀ _) fun _ => .pure _
  · exact .pure _

theorem remembered_prompt (operationId : OperationId) (turnId : TurnId) (content : String) :
    Proc.Keeps (fun x : Supervised H => Remembers s₀ x.store)
      (prompt operationId turnId content 0) := by
  have hJ := (stable_remembered (H := H) s₀).toPortStable
  refine .bind .get fun x => .bind (.ofExcept _) fun _ => ?_
  split
  · exact .pure _
  · exact .fail _
  · refine .bind (.modify fun _ h => h) fun _ => .bind (keeps_intent hJ _) fun _ =>
      .bind (.attempt (keeps_callHarness hJ fun _ => trivial)) fun r => ?_
    -- whether the harness took the prompt or not, the delivery is settled in the store
    split
    · exact .bind (.ignore (keeps_settle hJ _)) fun _ => .bind (.ignore (keeps_settle hJ _))
        fun _ => .bind (.modify fun _ h => h) fun _ => .fail _
    · exact .bind (keeps_settle hJ _) fun _ => .bind (.modify fun _ h => h) fun _ => .pure _

theorem remembered_startPromptEnvelope (operationId : OperationId) (threadId : ThreadId)
    (turnId : TurnId) (content : String) (now : UInt64)
    (assemble : Store → Except CoreAppError AssembledContext) :
    Proc.Keeps (Remembered (H := H) s₀)
      (startPromptEnvelope operationId threadId turnId content now assemble) := by
  have hK := appStable_remembered (H := H) s₀
  refine .bind .get fun s => ?_
  split
  · exact .fail _
  refine .bind (.ofExcept _) fun _ => .bind (.ofExcept _) fun admission => ?_
  split
  · exact .pure _
  refine .bind (.ofExcept _) fun _ => .bind (remembered_record s₀ now) fun _ =>
    .bind (.attempt (spec_recordContextSnapshot hK.context)) fun r => ?_
  split
  · exact .bind (.ignore (remembered_record s₀ now)) fun _ => .fail _
  refine .bind (.attempt (spec_onThread (fun _ h _ => h) fun app v h _ =>
    (remembered_prompt s₀ operationId turnId _).mono (fun x hx => hx ▸ h) (fun _ _ h => h)
      (fun _ _ h => h) fun _ h => h)) fun r => ?_
  split
  · exact .bind (keeps_publish_unstored hK _ _ _ _) fun _ => .pure _
  · exact .pure _
  · refine .bind (.attempt (remembered_record s₀ now)) fun r => ?_
    split <;> exact .fail _

theorem remembered_perform (c : Call) : Proc.Keeps (Remembered (H := H) s₀) (perform c) := by
  have hK := appStable_remembered (H := H) s₀
  cases c with
  | createThread => exact .bind (keeps_createThread hK _ _ _ _ _) fun _ => .pure _
  | openThread => exact keeps_openThread hK quiet_anything _ _
  | startPrompt => exact .bind (remembered_startPromptEnvelope s₀ _ _ _ _ _ _) fun _ => .pure _
  | cancelTurn => exact .bind (remembered_cancelTurn s₀ _ _ _) fun _ => .pure _
  | decidePermission => exact keeps_decidePermission hK quiet_anything _ _ _ _ _
  | poll => exact .bind (remembered_pollThreadEvents s₀ _ _) fun _ => .pure _
  | closeSession => exact keeps_onThread hK (fun _ hJ => keeps_closeSession quiet_anything hJ 0) _

/-- Every step leaves what is recorded. -/
theorem remembers_systemStep (p : Process H) (i : Input H) :
    Remembers p.store (systemStep p i).store := by
  have hrefl (s : Store) : Remembers s s := .of_local (.refl s)
  cases i with
  | call c crash =>
    cases p with
    | up app =>
      have hkeeps := (remembered_perform app.store c).state (n := crash) (hrefl _)
      change Remembers app.store (afterCall (perform c app crash)).store
      unfold afterCall
      split <;> exact hkeeps
    | down harness store => exact hrefl store
  | agents f => cases p <;> exact hrefl _
  | restart f =>
    have hopen := Remembers.of_openInner p.store
    change Remembers p.store (start _ p.store).store
    unfold start
    split <;> rename_i hstore <;> rw [hstore] at hopen <;> exact hopen

/-- **Nothing is lost.** Whatever calls, crashes and restarts follow, the journal is
continued, and the turns it starts and the checkpoints stay. -/
theorem system_remembers (harness : H) (store : Store) (inputs more : List (Input H)) :
    Remembers ((systemMachine harness store).run inputs).store
      ((systemMachine harness store).run (inputs ++ more)).store := by
  rw [Machine.run_append]
  exact (systemMachine harness store).runFrom_rel (R := fun p q => Remembers p.store q.store)
    (fun _ => .of_local (.refl _)) (fun _ _ _ => .trans) remembers_systemStep _ more

end Calls

end Altior.Application
