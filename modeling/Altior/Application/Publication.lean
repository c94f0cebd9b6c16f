import Altior.Application.Admission
import Altior.Application.Publish
import Altior.Domain.Record
import Altior.Storage.TurnListing

/-!
# What publishing leaves behind

`publish_runtime_event` takes three steps that may each fail: the record is
appended to the journal, the event is converted to the body of an envelope, and
the envelope is appended to the log.  This module follows all three at once: what
they leave when one of them fails, and which ends of turns get into the journal.
-/

namespace Altior.Application

open Domain Lib Storage Altior.Runtime

section Publishing

variable [SerdeJsonWriter] {H : Type}

/-! ## One publication -/

/-- The scope of the record of a published event. -/
def publicationContext (app : CoreApplication H) (event : RuntimeEvent)
    (operationId : Option OperationId) (turnId : Option TurnId) (now : UInt64) : EventContext :=
  ⟨nextPublishedId app event now, some (extractThreadId event), turnId.or (extractTurnId event),
    operationId, now⟩

/-- The store after the first step, or why it was refused. -/
def journaled (store : Store) (ctx : EventContext) (event : RuntimeEvent) :
    Except CoreAppError Store :=
  if shouldAppend store event ctx.turnId then
    match mapRuntimeToDomainEvent ctx event with
    | .error err => .error err
    | .ok none => .ok store
    | .ok (some e) =>
      match store.appendDomainEvent e with
      | .ok (_, store') => .ok store'
      | .error err => .error (.storage err)
  else .ok store

/-- The application once the identifier of the event is taken. -/
def minted (app : CoreApplication H) (event : RuntimeEvent) : CoreApplication H :=
  match event with
  | .permissionRequested _ _ _ _ _ => app
  | _ => { app with counter := app.counter + 1 }

theorem publishedId_run (app : CoreApplication H) (event : RuntimeEvent) (now : UInt64) :
    publishedId event now app none =
      ⟨.done (nextPublishedId app event now), minted app event, none⟩ := by
  cases event <;> rfl

theorem store_minted (app : CoreApplication H) (event : RuntimeEvent) :
    (minted app event).store = app.store := by
  cases event <;> rfl

theorem log_minted (app : CoreApplication H) (event : RuntimeEvent) :
    (minted app event).log = app.log := by
  cases event <;> rfl

theorem journalRuntimeEvent_run (app : CoreApplication H) (ctx : EventContext)
    (event : RuntimeEvent) :
    journalRuntimeEvent ctx event app none =
      match journaled app.store ctx event with
      | .error err => ⟨.failed err, app, none⟩
      | .ok store => ⟨.done (), app.setStore store, none⟩ := by
  unfold journalRuntimeEvent journaled
  rw [Proc.bind_run, Proc.get_run]
  dsimp only
  split
  · rw [Proc.bind_run, Proc.ofExcept_run]
    cases mapRuntimeToDomainEvent ctx event with
    | error err => rfl
    | ok record =>
      cases record with
      | none => rfl
      | some e =>
        dsimp only [Ending.ofExcept_ok]
        unfold appendDomainEvent
        rw [Proc.bind_run, Proc.act_run_none]
        cases app.store.appendDomainEvent e with
        | error err => rfl
        | ok r => rfl
  · rfl

/-- A publication with the store attached, in one piece. -/
theorem publishRuntimeEvent_run (app : CoreApplication H) (event : RuntimeEvent)
    (operationId : Option OperationId) (turnId : Option TurnId) (now : UInt64) :
    publishRuntimeEvent event operationId turnId now true app none =
      match journaled app.store (publicationContext app event operationId turnId now) event with
      | .error err => ⟨.failed err, minted app event, none⟩
      | .ok store =>
        match mapRuntimeToEventBody event with
        | .error err => ⟨.failed err, (minted app event).setStore store, none⟩
        | .ok body =>
          match app.log.append
              { eventId := nextPublishedId app event now, operationId := operationId
                threadId := some (extractThreadId event)
                turnId := turnId.or (extractTurnId event), sequence := 1, occurredAt := now
                body := body } with
          | .error err =>
            ⟨.failed (.ipc (.protocol err)), (minted app event).setStore store, none⟩
          | .ok (e, log) =>
            ⟨.done e, { (minted app event).setStore store with log := log }, none⟩ := by
  unfold publishRuntimeEvent
  rw [Proc.bind_run_done (h := publishedId_run app event now)]
  dsimp only
  rw [if_pos rfl, Proc.bind_run, journalRuntimeEvent_run, store_minted]
  unfold publicationContext
  cases journaled app.store _ event with
  | error err => rfl
  | ok store =>
    dsimp only
    rw [Proc.bind_run, Proc.ofExcept_run]
    cases mapRuntimeToEventBody event with
    | error err => rfl
    | ok body =>
      dsimp only [Ending.ofExcept_ok]
      unfold sequenceEnvelope
      rw [Proc.bind_run, Proc.get_run]
      dsimp only [CoreApplication.setStore]
      rw [log_minted]
      cases app.log.append _ with
      | error err => rfl
      | ok r => rfl

/-! ## The first step -/

/-- The journal takes the event as a new record: its time fits the column, its id
is not in the journal and it passes the checks. -/
def Takes (d : DomainStore) (e : DomainEvent) : Prop :=
  e.occurredAt.toNat ≤ i64Max ∧ existingDomainEvent d e = none ∧
    validateDomainEventInTx d.projections e = .ok ()

/-- The first step adds a record. -/
def NewRecord (store : Store) (ctx : EventContext) (event : RuntimeEvent) : Prop :=
  shouldAppend store event ctx.turnId = true ∧
    ∃ e, mapRuntimeToDomainEvent ctx event = .ok (some e) ∧ Takes store.domain e

/-- A record is in the scope it was made for. -/
theorem of_mapped {ctx : EventContext} {event : RuntimeEvent} {e : DomainEvent}
    (h : mapRuntimeToDomainEvent ctx event = .ok (some e)) :
    e.eventId = ctx.eventId ∧ e.threadId = ctx.threadId ∧ e.turnId = ctx.turnId ∧
      e.occurredAt = ctx.occurredAt ∧ isMemoryKind e.kind = false ∧ e.kind ≠ .threadCreated := by
  obtain ⟨kind, fields, hrecord, hinto⟩ := of_mapRuntimeToDomainEvent h
  obtain ⟨payload, -, rfl⟩ := of_intoDomainEvent hinto
  refine ⟨rfl, rfl, rfl, rfl, ?_, ?_⟩
  · cases event <;> cases hrecord <;> rfl
  · cases event <;> cases hrecord <;> nofun

variable {store : Store}

/-- A record the journal takes is appended. -/
theorem append_of_takes {e : DomainEvent} {threadId : ThreadId} (h : Takes store.domain e)
    (hkind : isMemoryKind e.kind = false) (hcreated : e.kind ≠ .threadCreated)
    (hthread : e.threadId = some threadId) :
    ∃ seq store', store.appendDomainEvent e = .ok (.appended seq, store') ∧
      store'.domain.journal = store.domain.journal ++ [durableRow seq e] ∧
      foldDomainEventInTx store.domain.projections e seq e.occurredAt.toNat
        = .ok store'.domain.projections := by
  obtain ⟨hnow, hnew, hvalid⟩ := h
  have hmem := mem_thread_of_validate hvalid hkind hcreated hthread
  obtain ⟨p, hfold⟩ : ∃ p, foldDomainEventInTx store.domain.projections e
      (domainJournalMaxSeq store.domain.journal + 1) e.occurredAt.toNat = .ok p :=
    exists_fold hkind hthread hmem
  let marker := markerAfterAppend store.domain e p (domainJournalMaxSeq store.domain.journal + 1)
  refine ⟨domainJournalMaxSeq store.domain.journal + 1,
    { store with domain := ⟨_, p, some marker⟩ }, ?_, rfl, hfold⟩
  unfold Store.appendDomainEvent
  rw [append_of_fold hnow hnew hvalid hfold]

/-- The first step with a record the journal takes. -/
theorem journaled_of_newRecord {ctx : EventContext} {event : RuntimeEvent} {threadId : ThreadId}
    (hthread : ctx.threadId = some threadId) (h : NewRecord store ctx event) : ∃ e seq store',
      mapRuntimeToDomainEvent ctx event = .ok (some e) ∧
      journaled store ctx event = .ok store' ∧
      store'.domain.journal = store.domain.journal ++ [durableRow seq e] ∧
      validateDomainEventInTx store.domain.projections e = .ok () ∧
      foldDomainEventInTx store.domain.projections e seq e.occurredAt.toNat
        = .ok store'.domain.projections := by
  obtain ⟨happend, e, hmap, htakes⟩ := h
  obtain ⟨-, hscope, -, -, hkind, hcreated⟩ := of_mapped hmap
  obtain ⟨seq, store', hrun, hjournal, hfold⟩ :=
    append_of_takes htakes hkind hcreated (hscope.trans hthread)
  refine ⟨e, seq, store', hmap, ?_, hjournal, htakes.2.2, hfold⟩
  unfold journaled
  simp only [if_pos happend, hmap, hrun]

/-- The first step otherwise: refused, or the store is as it was and the record is
there already, if the event has one and is to be journaled. -/
theorem journaled_of_not_newRecord {store' : Store} {ctx : EventContext} {event : RuntimeEvent}
    (h : ¬ NewRecord store ctx event) (hrun : journaled store ctx event = .ok store') :
    store' = store ∧
      (shouldAppend store event ctx.turnId = true → recordOf event ≠ none →
        ∃ e seq, mapRuntimeToDomainEvent ctx event = .ok (some e) ∧
          durableRow seq e ∈ store.domain.journal) := by
  unfold journaled at hrun
  split at hrun
  · rename_i happend
    cases hmap : mapRuntimeToDomainEvent ctx event with
    | error err =>
      rw [hmap] at hrun
      cases hrun
    | ok record =>
      rw [hmap] at hrun
      cases record with
      | none =>
        cases hrun
        refine ⟨rfl, fun _ hrecord => ?_⟩
        rw [mapRuntimeToDomainEvent_eq] at hmap
        split at hmap
        · rename_i hnone
          exact absurd hnone hrecord
        · obtain ⟨e, -, heq⟩ := map_eq_ok.1 hmap
          cases heq
      | some e =>
        dsimp only at hrun
        split at hrun
        · rename_i outcome s' happended
          cases hrun
          obtain ⟨domain, hdomain, rfl⟩ := Store.appendDomainEvent_cases happended
          rcases Storage.appendDomainEvent_cases hdomain with
            ⟨row, hrow, heq, -, rfl⟩ | ⟨p, hnow, hnew, hvalid, -, -, -⟩
          · exact ⟨rfl, fun _ _ => ⟨e, row.seq, rfl, heq ▸ hrow⟩⟩
          · exact absurd ⟨happend, e, hmap, hnow, hnew, hvalid⟩ h
        · cases hrun
  · rename_i hskip
    cases hrun
    exact ⟨rfl, fun happend => absurd happend hskip⟩

/-! ## All or nothing -/

/-- The turn is active in the projection. -/
def ActiveTurn (p : Projections) (turnId : TurnId) : Prop :=
  ∃ row, p.turn[turnId.asStr]? = some row ∧ row.state = "active"

/-- The journal has no part in the event: it is the start of a turn, which is
journaled by whoever starts it, or the end of a turn that is not active. -/
def NotMeant (store : Store) (event : RuntimeEvent) (turnId : Option TurnId) : Prop :=
  (∃ threadId startedId, event = .turnStarted threadId startedId) ∨
    endsTurn event = true ∧ ∀ id, turnId = some id → ¬ ActiveTurn store.domain.projections id

/-- The journal holds the record of the event in the scope. -/
def Holds (d : DomainStore) (ctx : EventContext) (event : RuntimeEvent) : Prop :=
  ∃ e seq, mapRuntimeToDomainEvent ctx event = .ok (some e) ∧ durableRow seq e ∈ d.journal

/-- A failed publication leaves the journal, its projections and the log alone.  One
that succeeds returns the last entry of the log, and the journal holds the record
under its id or has no part in the event. -/
structure AllOrNothing (app : CoreApplication H) (event : RuntimeEvent)
    (operationId : Option OperationId) (turnId : Option TurnId) (now : UInt64) : Prop where
  failed : ∀ err app',
    publishRuntimeEvent event operationId turnId now true app none = ⟨.failed err, app', none⟩ →
    app'.store.domain.journal = app.store.domain.journal ∧
      app'.store.domain.projections = app.store.domain.projections ∧ app'.log = app.log
  done : ∀ e app',
    publishRuntimeEvent event operationId turnId now true app none = ⟨.done e, app', none⟩ →
    app'.log.events.getLast? = some e ∧
      (Holds app'.store.domain ⟨e.eventId, e.threadId, e.turnId, e.operationId, e.occurredAt⟩ event ∨
        NotMeant app.store event e.turnId)

/-- The event has no envelope: a text of it is too long for one, or the log is out of
sequence numbers. -/
def Unsendable (app : CoreApplication H) (event : RuntimeEvent) : Prop :=
  ¬ BodyFits event ∨ app.log.nextSequence.toNat + 1 = UInt64.size

/-- The end of an active turn that is not listed: not among the first turns of the
thread. -/
def UnlistedEnd (store : Store) (event : RuntimeEvent) (turnId : Option TurnId) : Prop :=
  endsTurn event = true ∧ ∃ id, turnId = some id ∧ ActiveTurn store.domain.projections id ∧
    listedActive store (extractThreadId event) id = false

theorem bodyFits_of_body {event : RuntimeEvent} {body : EventBody}
    (h : mapRuntimeToEventBody event = .ok body) : BodyFits event := by
  have hbound {maxBytes : Nat} {text : String} {t : BoundedText maxBytes}
      (h : boundedText maxBytes text = .ok t) : text.utf8ByteSize ≤ maxBytes := by
    unfold boundedText BoundedText.tryFrom at h
    split at h
    · assumption
    · cases h
  cases event with
  | messageDelta | turnFailed | unknown =>
    obtain ⟨t, ht, -⟩ := bind_eq_ok.1 h
    exact hbound ht
  | turnStarted | turnCompleted | toolCall | turnCancelled | permissionRequested | processExited =>
    trivial

omit [SerdeJsonWriter] in
theorem EventLog.append_error {log : EventLog} {envelope : EventEnvelope}
    (h : log.nextSequence.toNat + 1 = UInt64.size) :
    log.append envelope = .error (.sequenceOverflow log.nextSequence) := if_pos h

omit [SerdeJsonWriter] in
theorem EventLog.exists_append {log : EventLog} (envelope : EventEnvelope)
    (h : log.nextSequence.toNat + 1 ≠ UInt64.size) : ∃ r, log.append envelope = .ok r :=
  ⟨_, if_neg h⟩

omit [SerdeJsonWriter] in
/-- What is appended comes last. -/
theorem EventLog.getLast?_append {log log' : EventLog} {envelope e : EventEnvelope}
    (h : log.append envelope = .ok (e, log')) : log'.events.getLast? = some e := by
  unfold EventLog.append at h
  split at h
  · cases h
  · cases h
    exact List.getLast?_concat

/-- An event that cannot be sent is published nowhere but in the journal. -/
theorem publish_unsendable {app : CoreApplication H} {event : RuntimeEvent}
    {operationId : Option OperationId} {turnId : Option TurnId} {now : UInt64}
    (h : Unsendable app event)
    (hrun : journaled app.store (publicationContext app event operationId turnId now) event
      = .ok store) :
    ∃ err, publishRuntimeEvent event operationId turnId now true app none =
      ⟨.failed err, (minted app event).setStore store, none⟩ := by
  rw [publishRuntimeEvent_run, hrun]
  dsimp only
  cases hbody : mapRuntimeToEventBody event with
  | error err => exact ⟨err, rfl⟩
  | ok body =>
    have hfull := h.resolve_left fun hfits => hfits (bodyFits_of_body hbody)
    dsimp only
    rw [EventLog.append_error hfull]
    exact ⟨_, rfl⟩

/-- An event that can be sent is the next of the log. -/
theorem publish_sendable {app : CoreApplication H} {event : RuntimeEvent}
    {operationId : Option OperationId} {turnId : Option TurnId} {now : UInt64}
    (h : ¬ Unsendable app event)
    (hrun : journaled app.store (publicationContext app event operationId turnId now) event
      = .ok store) :
    ∃ e log, publishRuntimeEvent event operationId turnId now true app none =
        ⟨.done e, { (minted app event).setStore store with log := log }, none⟩ ∧
      log.events.getLast? = some e ∧
      (⟨e.eventId, e.threadId, e.turnId, e.operationId, e.occurredAt⟩ : EventContext)
        = publicationContext app event operationId turnId now := by
  unfold Unsendable at h
  rw [not_or, not_not] at h
  obtain ⟨body, hbody⟩ := exists_body h.1
  rw [publishRuntimeEvent_run, hrun, hbody]
  dsimp only
  cases happend : app.log.append _ with
  | error err =>
    obtain ⟨r, hr⟩ := EventLog.exists_append _ h.2
    rw [happend] at hr
    cases hr
  | ok r =>
    obtain ⟨e, log⟩ := r
    obtain ⟨-, rfl, -, -⟩ := EventLog.append_cases happend
    exact ⟨_, log, rfl, EventLog.getLast?_append happend, rfl⟩

/-- After the first step the journal holds the record, or has no part in the event;
an active turn that is not listed is the exception. -/
theorem holds_or_notMeant {app : CoreApplication H} {event : RuntimeEvent}
    {operationId : Option OperationId} {turnId : Option TurnId} {now : UInt64}
    (hrun : journaled app.store (publicationContext app event operationId turnId now) event
      = .ok store) (hunlisted : UnlistedEnd app.store event (turnId.or (extractTurnId event)) →
      Holds app.store.domain (publicationContext app event operationId turnId now) event)
    {id : Option TurnId} (hid : id = turnId.or (extractTurnId event)) :
    Holds store.domain (publicationContext app event operationId turnId now) event ∨
      NotMeant app.store event id := by
  subst hid
  by_cases hnew : NewRecord app.store (publicationContext app event operationId turnId now) event
  · obtain ⟨e, seq, store', hmap, hrun', hjournal, -, -⟩ := journaled_of_newRecord rfl hnew
    rw [hrun] at hrun'
    cases hrun'
    refine .inl ⟨e, seq, hmap, ?_⟩
    rw [hjournal]
    exact List.mem_append_right _ (List.mem_singleton_self _)
  · obtain ⟨rfl, hthere⟩ := journaled_of_not_newRecord hnew hrun
    by_cases happend : shouldAppend app.store event (turnId.or (extractTurnId event)) = true
    · by_cases hrecord : recordOf event = none
      · -- only the start of a turn has no record
        refine .inr (.inl ?_)
        cases event with
        | turnStarted threadId startedId => exact ⟨threadId, startedId, rfl⟩
        | messageDelta | permissionRequested | toolCall | turnCompleted | turnFailed
        | turnCancelled | processExited | unknown => cases hrecord
      · exact .inl (hthere happend hrecord)
    · -- only the end of a turn that is not listed as active is left out
      unfold shouldAppend at happend
      split at happend
      · rename_i hturn
        rw [Bool.or_eq_true, not_or, Bool.not_eq_true', Bool.not_eq_false] at happend
        by_cases hactive : ActiveTurn app.store.domain.projections ‹TurnId›
        · exact .inl (hunlisted ⟨happend.1, _, hturn, hactive, Bool.eq_false_iff.mpr happend.2⟩)
        · refine .inr (.inr ⟨happend.1, fun id hid => ?_⟩)
          rw [hturn, Option.some.injEq] at hid
          exact hid ▸ hactive
      · exact absurd rfl happend

/-- The record of an event that cannot be sent stays behind. -/
theorem not_allOrNothing_of_unsendable {app : CoreApplication H} {event : RuntimeEvent}
    {operationId : Option OperationId} {turnId : Option TurnId} {now : UInt64}
    (hsend : Unsendable app event)
    (hnew : NewRecord app.store (publicationContext app event operationId turnId now) event) :
    ¬ AllOrNothing app event operationId turnId now := by
  intro hall
  obtain ⟨e, seq, store', -, hrun, hjournal, -, -⟩ := journaled_of_newRecord rfl hnew
  obtain ⟨err, hpublish⟩ := publish_unsendable hsend hrun
  have hsame := (hall.failed err _ hpublish).1
  rw [show ((minted app event).setStore store').store = store' from rfl, hjournal] at hsame
  simp at hsame

/-- Publishing is all or nothing unless the record of an event that cannot be sent is
new to the journal, or the event ends an active turn that is not listed and is sent
without a record. -/
theorem allOrNothing_iff (app : CoreApplication H) (event : RuntimeEvent)
    (operationId : Option OperationId) (turnId : Option TurnId) (now : UInt64) :
    AllOrNothing app event operationId turnId now ↔
      ¬ (Unsendable app event ∧
          NewRecord app.store (publicationContext app event operationId turnId now) event) ∧
      ¬ (¬ Unsendable app event ∧
          UnlistedEnd app.store event (turnId.or (extractTurnId event)) ∧
          ¬ Holds app.store.domain (publicationContext app event operationId turnId now) event) := by
  constructor
  · intro hall
    refine ⟨fun ⟨hsend, hnew⟩ => not_allOrNothing_of_unsendable hsend hnew hall,
      fun ⟨hsend, hunlisted, hheld⟩ => ?_⟩
    · obtain ⟨hends, id, hturn, hactive, hlisted⟩ := hunlisted
      have hskip : shouldAppend app.store event (turnId.or (extractTurnId event)) = false := by
        unfold shouldAppend
        rw [hturn]
        simp only [hends, hlisted, Bool.not_true, Bool.or_false]
      have hrun : journaled app.store (publicationContext app event operationId turnId now) event
          = .ok app.store := if_neg (Bool.eq_false_iff.mp hskip)
      obtain ⟨e, log, hpublish, -, hctx⟩ := publish_sendable hsend hrun
      rcases (hall.done e _ hpublish).2 with hholds | hmeant | ⟨-, hmeant⟩
      · rw [hctx] at hholds
        exact hheld hholds
      · obtain ⟨threadId, startedId, rfl⟩ := hmeant
        cases hends
      · have hid : e.turnId = some id := (congrArg EventContext.turnId hctx).trans hturn
        exact hmeant id hid hactive
  · rintro ⟨hnew, hunlisted⟩
    cases hrun : journaled app.store (publicationContext app event operationId turnId now) event with
    | error refusal =>
      have hrefused := publishRuntimeEvent_run app event operationId turnId now
      rw [hrun] at hrefused
      dsimp only at hrefused
      refine ⟨fun err app' hpublish => ?_, fun e app' hpublish => ?_⟩
      · rw [hrefused] at hpublish
        cases hpublish
        rw [store_minted, log_minted]
        exact ⟨rfl, rfl, rfl⟩
      · rw [hrefused] at hpublish
        cases hpublish
    | ok store =>
      by_cases hsend : Unsendable app event
      · obtain ⟨refusal, hfailed⟩ := publish_unsendable hsend hrun
        obtain ⟨rfl, -⟩ := journaled_of_not_newRecord (fun h => hnew ⟨hsend, h⟩) hrun
        refine ⟨fun err app' hpublish => ?_, fun e app' hpublish => ?_⟩
        · rw [hfailed] at hpublish
          cases hpublish
          exact ⟨rfl, rfl, log_minted app event⟩
        · rw [hfailed] at hpublish
          cases hpublish
      · obtain ⟨sent, log, hsent, hlast, hctx⟩ := publish_sendable hsend hrun
        refine ⟨fun err app' hpublish => ?_, fun e app' hpublish => ?_⟩
        · rw [hsent] at hpublish
          cases hpublish
        · rw [hsent] at hpublish
          cases hpublish
          refine ⟨hlast, ?_⟩
          rw [hctx]
          exact holds_or_notMeant hrun
            (fun hunheld => by_contra fun hheld => hunlisted ⟨hsend, hunheld, hheld⟩)
            (congrArg EventContext.turnId hctx)

/-! ## Ends of turns -/

/-- The store after a publication is the one the first step leaves. -/
theorem store_publishRuntimeEvent (app : CoreApplication H) (event : RuntimeEvent)
    (operationId : Option OperationId) (turnId : Option TurnId) (now : UInt64) :
    (publishRuntimeEvent event operationId turnId now true app none).state.store =
      match journaled app.store (publicationContext app event operationId turnId now) event with
      | .error _ => app.store
      | .ok store => store := by
  rw [publishRuntimeEvent_run]
  cases journaled app.store (publicationContext app event operationId turnId now) event with
  | error err => exact store_minted app event
  | ok store =>
    dsimp only
    cases mapRuntimeToEventBody event with
    | error err => rfl
    | ok body =>
      dsimp only
      cases app.log.append _ <;> rfl

/-- The publication appends the end of the turn to the journal, and the turn is over. -/
def EndJournaled (app : CoreApplication H) (event : RuntimeEvent)
    (operationId : Option OperationId) (turnId : Option TurnId) (now : UInt64) (id : TurnId) :
    Prop :=
  ∃ e seq, mapRuntimeToDomainEvent (publicationContext app event operationId turnId now) event
      = .ok (some e) ∧
    (publishRuntimeEvent event operationId turnId now true app none).state.store.domain.journal
      = app.store.domain.journal ++ [durableRow seq e] ∧
    ¬ OpenTurn (publishRuntimeEvent event operationId turnId now true app none).state.store.domain.projections
      (extractThreadId event) id

/-- The record of the event is a payload. -/
def RecordFits (event : RuntimeEvent) : Prop :=
  ∀ kind fields, recordOf event = some (kind, fields) →
    ∃ payload, EventPayload.tryFrom (SerdeJsonWriter.toVec (.flat fields)) = .ok payload

/-- A record within the capacity of a payload is one. -/
theorem recordFits_of_fits [LawfulWriter] {event : RuntimeEvent} {kind : DomainEventKind}
    {fields : List (String × Scalar)} (hrecord : recordOf event = some (kind, fields))
    (hfits : Fits fields) : RecordFits event := by
  intro kind' fields' hrecord'
  rw [hrecord, Option.some.injEq, Prod.mk.injEq] at hrecord'
  obtain ⟨rfl, rfl⟩ := hrecord'
  obtain ⟨payload, hpayload, -⟩ := exists_payload (nodup_recordOf hrecord) hfits
  exact ⟨payload, hpayload⟩

theorem listedActive_iff {threadId : ThreadId} {turnId : TurnId}
    (hopen : OpenTurn store.domain.projections threadId turnId) :
    listedActive store threadId turnId = true ↔ Listed store threadId turnId := by
  obtain ⟨row, hrow, -, hactive⟩ := openTurn_iff.1 hopen
  unfold listedActive Listed
  rw [List.any_eq_true]
  constructor
  · rintro ⟨⟨id, row'⟩, hmem, h⟩
    simp only [Bool.and_eq_true, beq_iff_eq] at h
    exact ⟨row', h.1 ▸ hmem⟩
  · rintro ⟨row', hmem⟩
    refine ⟨_, hmem, ?_⟩
    have hin := (List.mem_insertionSort _).1 (List.mem_of_mem_take hmem)
    have hsame := Std.ExtTreeMap.mem_toList_iff_getElem?_eq_some.1 (List.mem_filter.1 hin).1
    rw [hrow, Option.some.injEq] at hsame
    simp only [← hsame, hactive, beq_self_eq_true, Bool.and_self]

/-- The records of the ends of turns. -/
theorem recordOf_end {event : RuntimeEvent} (hends : endsTurn event = true) :
    ∃ kind fields, recordOf event = some (kind, fields) ∧ onlyOpenTurn kind = true ∧
      terminalState kind ≠ none := by
  cases event <;> cases hends <;> exact ⟨_, _, rfl, rfl, nofun⟩

section Ends

variable {app : CoreApplication H} {event : RuntimeEvent} {operationId : Option OperationId}
  {turnId : Option TurnId} {now : UInt64} {id : TurnId}

theorem shouldAppend_end (hends : endsTurn event = true)
    (hturn : turnId.or (extractTurnId event) = some id) :
    shouldAppend app.store event (turnId.or (extractTurnId event)) =
      listedActive app.store (extractThreadId event) id := by
  unfold shouldAppend
  rw [hturn]
  simp only [hends, Bool.not_true, Bool.false_or]

/-- The end of an active turn that is listed has a record the journal takes. -/
theorem newRecord_of_end (hends : endsTurn event = true)
    (hturn : turnId.or (extractTurnId event) = some id)
    (hopen : OpenTurn app.store.domain.projections (extractThreadId event) id)
    (hlisted : Listed app.store (extractThreadId event) id)
    (hmem : (extractThreadId event).asStr ∈ app.store.domain.projections.thread)
    (hfits : RecordFits event) (hnow : now.toNat ≤ i64Max)
    (hfresh : ∀ row ∈ app.store.domain.journal,
      row.eventId ≠ (nextPublishedId app event now).asStr) :
    NewRecord app.store (publicationContext app event operationId turnId now) event := by
  obtain ⟨kind, fields, hrecord, honly, -⟩ := recordOf_end hends
  obtain ⟨payload, hpayload⟩ := hfits kind fields hrecord
  refine ⟨(shouldAppend_end hends hturn).trans ((listedActive_iff hopen).2 hlisted),
    ⟨nextPublishedId app event now, some (extractThreadId event), turnId.or (extractTurnId event),
      operationId, kind, payload, now⟩, ?_, hnow, ?_, validate_openTurn honly rfl hturn hmem hopen⟩
  · rw [mapRuntimeToDomainEvent_eq, hrecord]
    dsimp only
    unfold EventContext.intoDomainEvent
    rw [hpayload]
    rfl
  · unfold existingDomainEvent
    rw [List.find?_eq_none]
    intro row hrow
    simpa using hfresh row hrow

/-- A journal that grows has taken a new record. -/
theorem newRecord_of_endJournaled (h : EndJournaled app event operationId turnId now id) :
    NewRecord app.store (publicationContext app event operationId turnId now) event := by
  obtain ⟨e, seq, hmap, hjournal, -⟩ := h
  rw [store_publishRuntimeEvent] at hjournal
  have hne {rows : List DomainJournalRow} {row : DomainJournalRow} (h : rows = rows ++ [row]) :
      False := by simp at h
  by_contra hnot
  cases hrun : journaled app.store (publicationContext app event operationId turnId now) event with
  | error err =>
    rw [hrun] at hjournal
    exact hne hjournal
  | ok store =>
    obtain ⟨rfl, -⟩ := journaled_of_not_newRecord hnot hrun
    rw [hrun] at hjournal
    exact hne hjournal

theorem listed_of_newRecord (hends : endsTurn event = true)
    (hturn : turnId.or (extractTurnId event) = some id)
    (hopen : OpenTurn app.store.domain.projections (extractThreadId event) id)
    (h : NewRecord app.store (publicationContext app event operationId turnId now) event) :
    Listed app.store (extractThreadId event) id :=
  (listedActive_iff hopen).1 ((shouldAppend_end hends hturn).symm.trans h.1)

/-- The end of an active turn is journaled exactly if the turn is listed, its thread is
there, the record is a payload, the time fits the column and the id is new. -/
theorem endJournaled_iff (hends : endsTurn event = true)
    (hturn : turnId.or (extractTurnId event) = some id)
    (hopen : OpenTurn app.store.domain.projections (extractThreadId event) id) :
    EndJournaled app event operationId turnId now id ↔
      Listed app.store (extractThreadId event) id ∧
      (extractThreadId event).asStr ∈ app.store.domain.projections.thread ∧
      RecordFits event ∧ now.toNat ≤ i64Max ∧
      ∀ row ∈ app.store.domain.journal, row.eventId ≠ (nextPublishedId app event now).asStr := by
  constructor
  · intro h
    have hnew := newRecord_of_endJournaled h
    have hlisted := listed_of_newRecord hends hturn hopen hnew
    obtain ⟨-, e, hmap, hnow, hfresh, hvalid⟩ := hnew
    obtain ⟨heid, hthread, -, hat, hmemory, hcreated⟩ := of_mapped hmap
    refine ⟨hlisted, mem_thread_of_validate hvalid hmemory hcreated hthread, ?_, ?_,
      fun row hrow => ?_⟩
    · intro kind fields hrecord
      obtain ⟨kind', fields', hrecord', hinto⟩ := of_mapRuntimeToDomainEvent hmap
      rw [hrecord, Option.some.injEq, Prod.mk.injEq] at hrecord'
      obtain ⟨rfl, rfl⟩ := hrecord'
      obtain ⟨payload, hpayload, -⟩ := of_intoDomainEvent hinto
      exact ⟨payload, hpayload⟩
    · rw [hat] at hnow
      exact hnow
    · have hrow' := List.find?_eq_none.1 hfresh row hrow
      rw [heid, beq_iff_eq] at hrow'
      exact hrow'
  · rintro ⟨hlisted, hmem, hfits, hnow, hfresh⟩
    have hnew : NewRecord app.store (publicationContext app event operationId turnId now) event :=
      newRecord_of_end hends hturn hopen hlisted hmem hfits hnow hfresh
    obtain ⟨e, seq, store', hmap, hrun, hjournal, hvalid, hfold⟩ := journaled_of_newRecord rfl hnew
    refine ⟨e, seq, hmap, ?_, ?_⟩
    · rw [store_publishRuntimeEvent, hrun]
      exact hjournal
    · rw [store_publishRuntimeEvent, hrun]
      refine not_openTurn_of_closes hvalid hfold ?_ _
      obtain ⟨kind, fields, hrecord, -, hterminal⟩ := recordOf_end hends
      obtain ⟨kind', fields', hrecord', hinto⟩ := of_mapRuntimeToDomainEvent hmap
      rw [hrecord, Option.some.injEq, Prod.mk.injEq] at hrecord'
      obtain ⟨rfl, rfl⟩ := hrecord'
      obtain ⟨payload, -, rfl⟩ := of_intoDomainEvent hinto
      unfold closesTurn
      rw [decide_eq_true_eq]
      refine ⟨Option.ne_none_iff_isSome.1 hterminal, ?_⟩
      change (turnId.or (extractTurnId event)).map Id.asStr = _
      rw [hturn]
      rfl

end Ends

end Publishing

section Sample

local instance publicationWriter : SerdeJsonWriter := flatWriter
local instance publicationLawful : LawfulWriter := flatWriter_lawful

/-- A thread without turns. -/
def threadWithoutTurns : DomainStore :=
  storeMachine.run (appends [sampleEvent (eventIdOf 1 0) sampleThreadId none .threadCreated
    _ agentFields_fit])

/-- A new process over the thread with its first `n` turns. -/
def crowdedApp (n : Nat) : CoreApplication Unit where
  supervisor := ⟨(), { Store.empty with
    domain := storeMachine.runFrom threadWithoutTurns (appends (crowd ⟨[], rfl⟩ sampleThreadId n)) }, ∅⟩
  counter := 0
  log := .new defaultRetainedCapacity

/-- A text of `n` bytes. -/
def longText (n : Nat) : String := String.ofList (List.replicate n 'x')

theorem utf8ByteSize_longText (n : Nat) : (longText n).utf8ByteSize = n := by
  rw [← utf8Len_toList, longText, String.toList_ofList]
  induction n with
  | zero => rfl
  | succ n ih =>
    rw [List.replicate_succ, utf8Len, ih]
    exact Nat.add_comm _ _

/-- The first turn failed for a long reason. -/
def longFailure : RuntimeEvent :=
  .turnFailed sampleThreadId (turnIdOf 0) (longText 4097) .rejected

theorem crowded_crowdedApp {n : Nat} (hn : n ≤ i64Max) :
    Crowded sampleThreadId n (crowdedApp n).store.domain := by
  refine crowded_run _ ⟨by decide, fun i hi => absurd hi (Nat.not_lt_zero _), ?_, ?_⟩ hn
  · intro i _
    rw [show threadWithoutTurns.projections.turn = ∅ by decide]
    exact Std.ExtTreeMap.not_mem_empty
  · intro i _ row hrow heq
    have hid : threadWithoutTurns.journal.map DomainJournalRow.eventId = [(eventIdOf 1 0).asStr] := by
      decide
    have hmem := List.mem_map_of_mem (f := DomainJournalRow.eventId) hrow
    rw [hid, List.mem_singleton, heq] at hmem
    have hnumbers := hexId_inj hmem rfl
    cases hnumbers

/-- The first turn of the thread is on its first page. -/
theorem listed_first : Listed (crowdedApp 1).store sampleThreadId (turnIdOf 0) :=
  (listedActive_iff (openTurn_iff.2 ⟨_, (crowded_crowdedApp (by decide)).started 0 (by decide),
    rfl, rfl⟩)).1 (by decide)

/-- The record of a failure has room for a reason of some length. -/
theorem fits_failure {reason : String} (h : reason.utf8ByteSize ≤ 5000) :
    Fits [("thread_id", .string sampleThreadId.asStr), ("turn_id", .string (turnIdOf 0).asStr),
      ("reason", .string reason), ("delivery", .string "rejected")] := by
  have hturn : (turnIdOf 0).asStr.utf8ByteSize ≤ 20 := by decide
  change 1 + ((((0 + 8 + 4 + (8 + 2)) + 6 + 4 + (reason.utf8ByteSize + 2))
    + 7 + 4 + ((turnIdOf 0).asStr.utf8ByteSize + 2)) + 9 + 4 + (20 + 2)) ≤ maxEventPayloadBytes
  unfold maxEventPayloadBytes
  omega

/-- A failure with a long reason is journaled, and then not published. -/
theorem longFailure_not_allOrNothing :
    ¬ ∀ (app : CoreApplication Unit) (event : RuntimeEvent) (operationId : Option OperationId)
        (turnId : Option TurnId) (now : UInt64), AllOrNothing app event operationId turnId now := by
  intro h
  have hcrowded := crowded_crowdedApp (n := 1) (by decide)
  have hsend : Unsendable (crowdedApp 1) longFailure := by
    refine .inl fun hfits => ?_
    change (longText 4097).utf8ByteSize ≤ diagnosticTextBytes at hfits
    rw [utf8ByteSize_longText] at hfits
    revert hfits
    decide
  have hfits : RecordFits longFailure :=
    recordFits_of_fits rfl (fits_failure (by rw [utf8ByteSize_longText]; decide))
  have hnew : NewRecord (crowdedApp 1).store
      (publicationContext (crowdedApp 1) longFailure none none 5) longFailure :=
    newRecord_of_end rfl rfl (openTurn_iff.2 ⟨_, hcrowded.started 0 (by decide), rfl, rfl⟩)
      listed_first hcrowded.thread hfits (by decide) (by decide)
  exact not_allOrNothing_of_unsendable hsend hnew (h _ _ _ _ _)

/-- The end of the first turn. -/
theorem completed_endJournaled :
    OpenTurn (crowdedApp 1).store.domain.projections sampleThreadId (turnIdOf 0) ∧
      EndJournaled (crowdedApp 1) (.turnCompleted sampleThreadId (turnIdOf 0) none) none none 5
        (turnIdOf 0) := by
  have hcrowded := crowded_crowdedApp (n := 1) (by decide)
  have hopen := openTurn_iff.2 ⟨_, hcrowded.started 0 (by decide), rfl, rfl⟩
  exact ⟨hopen, (endJournaled_iff rfl rfl hopen).2 ⟨listed_first, hcrowded.thread,
    recordFits_of_fits rfl (by unfold Fits; decide), by decide, by decide⟩⟩

/-- A turn with a page of turns before it is not ended in the journal. -/
theorem not_endJournaled_of_crowded {n : Nat} (hn : n ≤ i64Max) {i : UInt64}
    (hpage : turnListLimitMax ≤ i.toNat) (hi : i.toNat < n) (now : UInt64) :
    OpenTurn (crowdedApp n).store.domain.projections sampleThreadId (turnIdOf i) ∧
      ¬ EndJournaled (crowdedApp n) (.turnCompleted sampleThreadId (turnIdOf i) none) none none now
        (turnIdOf i) := by
  obtain ⟨hopen, hunlisted⟩ := (crowded_crowdedApp hn).unlisted hpage hi
  exact ⟨hopen, fun hends =>
    hunlisted (listed_of_newRecord rfl rfl hopen (newRecord_of_endJournaled hends))⟩

/-- The turn after five hundred others is never ended in the journal. -/
theorem crowded_not_endJournaled :
    ¬ ∀ (app : CoreApplication Unit) (event : RuntimeEvent) (operationId : Option OperationId)
        (turnId : Option TurnId) (now : UInt64) (id : TurnId), endsTurn event = true →
        turnId.or (extractTurnId event) = some id →
        OpenTurn app.store.domain.projections (extractThreadId event) id →
        EndJournaled app event operationId turnId now id := by
  intro h
  have hn : 501 ≤ i64Max := by decide
  obtain ⟨hopen, hnot⟩ := not_endJournaled_of_crowded hn (i := 500) (by decide) (by decide) 600
  exact hnot (h (crowdedApp 501) _ none none 600 (turnIdOf 500) rfl rfl hopen)

end Sample

end Altior.Application
