import Altior.Application.Watch

/-!
# Which runtime events the journal takes

An event the supervisor reports is published with the store attached: it is
recorded in the journal, and its envelope is sequenced.  Whether that goes well
is decided by the validator of the journal, which knows nothing of the
supervisor's states.  This module says when it does.
-/

namespace Altior.Application

open Domain Lib Storage Altior.Runtime

/-! ## Members of a payload -/

variable {fields : List (String × Scalar)}

section Writer

variable [SerdeJsonWriter] [LawfulWriter]

/-- The payload is within its capacity. -/
def Fits (fields : List (String × Scalar)) : Prop :=
  SerdeJson.len (SerdeJsonWriter.toVec (.flat fields)) ≤ maxEventPayloadBytes

/-- What is written within the capacity is a payload, and its text members read
back. -/
theorem exists_payload (hnodup : (fields.map Prod.fst).Nodup) (hfits : Fits fields) :
    ∃ payload, EventPayload.tryFrom (SerdeJsonWriter.toVec (.flat fields)) = .ok payload ∧
      ∀ v, SerdeJson.fromSlice payload.asBytes = some v →
        ∀ k s, (k, Scalar.string s) ∈ fields → v.getStr k = some s := by
  obtain ⟨payload, hpayload⟩ := EventPayload.exists_of_len hnodup hfits
  refine ⟨payload, hpayload, fun v hv k s hmem => ?_⟩
  obtain ⟨v', hv', hget⟩ := EventPayload.getStr_of_tryFrom hnodup hpayload
  rw [hv, Option.some.injEq] at hv'
  rw [hv']
  exact hget k s hmem

end Writer

/-! ## Conditions -/

section Journal

variable [SerdeJsonWriter]

/-- The texts of the envelope are within their capacity. -/
def BodyFits : RuntimeEvent → Prop
  | .messageDelta _ _ text => text.utf8ByteSize ≤ messageTextBytes
  | .turnFailed _ _ reason _ => reason.utf8ByteSize ≤ diagnosticTextBytes
  | .unknown _ _ summary => summary.asStr.utf8ByteSize ≤ diagnosticTextBytes
  | _ => True

instance : DecidablePred BodyFits := fun event => by
  cases event <;> unfold BodyFits <;> infer_instance

/-- What the journal asks of an event of this supervisor beyond its size: a turn
that is not over, a request that says something, a name it can store; it has no
place for the tool calls of a turn, and the end of a turn is seen only among the
listed turns. -/
def Recordable (s : Store) (v : ThreadRuntimeSupervisor) : RuntimeEvent → Prop
  | .messageDelta threadId turnId _ =>
    running v.state = some turnId ∨ OpenTurn s.domain.projections threadId turnId
  | .permissionRequested _ _ _ _ description => description.asStr ≠ ""
  | .toolCall _ _ _ _ => False
  | .turnCompleted threadId turnId _ | .turnCancelled threadId turnId
  | .turnFailed threadId turnId _ _ =>
    OpenTurn s.domain.projections threadId turnId → listedActive s threadId turnId = true
  | .unknown _ name _ => DomainEventKind.canonicalName (unknownKindName name) = true
  | .turnStarted _ _ | .processExited _ _ => True

instance (s : Store) (v : ThreadRuntimeSupervisor) : DecidablePred (Recordable s v) :=
  fun event => by cases event <;> unfold Recordable <;> infer_instance

variable {H : Type}

/-- The identifier the event is published under next. -/
def nextPublishedId (app : CoreApplication H) (event : RuntimeEvent) (now : UInt64) : EventId :=
  match event with
  | .permissionRequested _ _ permissionId _ _ => permissionId
  | _ => eventIdOf now app.counter

/-- The event can be published now. -/
structure Publishable (app : CoreApplication H) (v : ThreadRuntimeSupervisor) (event : RuntimeEvent)
    (now : UInt64) : Prop where
  sequence : app.log.nextSequence.toNat + 1 ≠ UInt64.size
  body : BodyFits event
  record : Recordable app.store v event
  size : ∀ kind fields, recordOf event = some (kind, fields) →
    shouldAppend app.store event (extractTurnId event) = true → Fits fields
  fresh : recordOf event ≠ none → shouldAppend app.store event (extractTurnId event) = true →
    (∀ row ∈ app.store.domain.journal, row.eventId ≠ (nextPublishedId app event now).asStr) ∧
      now.toNat ≤ i64Max

instance (app : CoreApplication H) (v : ThreadRuntimeSupervisor) (event : RuntimeEvent)
    (now : UInt64) : Decidable (Publishable app v event now) :=
  have : Decidable (∀ kind fields, recordOf event = some (kind, fields) →
      shouldAppend app.store event (extractTurnId event) = true → Fits fields) :=
    match h : recordOf event with
    | none => isTrue (by simp)
    | some (kind, fields) => decidable_of_iff
        (shouldAppend app.store event (extractTurnId event) = true →
          SerdeJson.len (SerdeJsonWriter.toVec (.flat fields)) ≤ maxEventPayloadBytes) (by
        constructor
        · rintro hfits k f ⟨⟩
          exact hfits
        · exact fun hfits => hfits kind fields rfl)
  decidable_of_iff (app.log.nextSequence.toNat + 1 ≠ UInt64.size ∧ BodyFits event ∧
      Recordable app.store v event ∧
      (∀ kind fields, recordOf event = some (kind, fields) →
        shouldAppend app.store event (extractTurnId event) = true → Fits fields) ∧
      (recordOf event ≠ none → shouldAppend app.store event (extractTurnId event) = true →
        (∀ row ∈ app.store.domain.journal,
          row.eventId ≠ (nextPublishedId app event now).asStr) ∧ now.toNat ≤ i64Max))
    ⟨fun ⟨a, b, c, d, e⟩ => ⟨a, b, c, d, e⟩, fun ⟨a, b, c, d, e⟩ => ⟨a, b, c, d, e⟩⟩

/-- What the journal holds of a published event: its record, or for the end of a
turn that the turn is over. -/
def Recorded (ctx : EventContext) (event : RuntimeEvent) (d : DomainStore) : Prop :=
  match recordOf event with
  | none => True
  | some _ =>
    if endsTurn event then ∀ turnId, extractTurnId event = some turnId →
      ¬ OpenTurn d.projections (extractThreadId event) turnId
    else ∃ e seq, mapRuntimeToDomainEvent ctx event = .ok (some e) ∧ durableRow seq e ∈ d.journal

/-! ## The envelope -/

omit [SerdeJsonWriter] in
/-- The text of a 32-bit number. -/
theorem utf8ByteSize_int32 (code : Int32) : (toString code.toInt).utf8ByteSize ≤ 50 := by
  have hnat (n : Nat) (h : n < 10 ^ 10) : n.repr.utf8ByteSize ≤ 40 := by
    have hlen : n.repr.length ≤ 10 := (Nat.length_repr_le_iff (by decide)).2 h
    have hsize := utf8ByteSize_le n.repr
    omega
  have hmax := code.toInt_lt
  have hmin := code.le_toInt
  cases hc : code.toInt with
  | ofNat n =>
    have hsize := hnat n (by simp only [hc, Int.ofNat_eq_natCast] at hmax; omega)
    exact hsize.trans (by decide)
  | negSucc n =>
    have hsize := hnat (n + 1) (by simp only [hc] at hmin; omega)
    change ("-" ++ (n + 1).repr).utf8ByteSize ≤ 50
    rw [String.utf8ByteSize_append, show "-".utf8ByteSize = 1 from rfl]
    omega

omit [SerdeJsonWriter] in
/-- The text of an exit always fits. -/
theorem utf8ByteSize_exitText (exitCode : Option Int32) :
    ("\x7b\"exit_code\":" ++ debugExitCode exitCode ++ "\x7d").utf8ByteSize
      ≤ diagnosticTextBytes := by
  simp only [String.utf8ByteSize_append]
  cases exitCode with
  | none => decide
  | some code =>
    have hsize := utf8ByteSize_int32 code
    simp only [debugExitCode, String.utf8ByteSize_append]
    rw [show "\x7b\"exit_code\":".utf8ByteSize = 13 from rfl,
      show "Some(".utf8ByteSize = 5 from rfl, show ")".utf8ByteSize = 1 from rfl,
      show "\x7d".utf8ByteSize = 1 from rfl]
    unfold diagnosticTextBytes
    omega

variable {event : RuntimeEvent} {threadId : ThreadId} {v : ThreadRuntimeSupervisor}
  {kind : DomainEventKind}

/-- An event whose texts fit has an envelope. -/
theorem exists_body (h : BodyFits event) : ∃ body, mapRuntimeToEventBody event = .ok body := by
  have hbound {maxBytes : Nat} {text : String} (h : text.utf8ByteSize ≤ maxBytes) :
      boundedText maxBytes text = .ok ⟨text, h⟩ := by
    unfold boundedText BoundedText.tryFrom
    rw [dif_pos h]
    rfl
  cases event with
  | turnStarted | turnCompleted | toolCall | turnCancelled => exact ⟨_, rfl⟩
  | messageDelta | turnFailed | unknown =>
    exact ⟨_, by simp only [mapRuntimeToEventBody, hbound h]; rfl⟩
  | permissionRequested _ _ _ _ description =>
    have hfits : description.asStr.utf8ByteSize ≤ diagnosticTextBytes := description.bounded
    exact ⟨_, by simp only [mapRuntimeToEventBody, hbound hfits]; rfl⟩
  | processExited _ exitCode =>
    exact ⟨_, by simp only [mapRuntimeToEventBody, hbound (utf8ByteSize_exitText exitCode)]; rfl⟩

/-! ## The record -/

theorem shouldAppend_congr {s s' : Store} (h : s'.domain = s.domain) (event : RuntimeEvent)
    (turnId : Option TurnId) : shouldAppend s' event turnId = shouldAppend s event turnId := by
  unfold shouldAppend listedActive Store.turnsForThread
  rw [h]

/-- A turn that is listed as active is open. -/
theorem openTurn_of_listedActive {s : Store} {turnId : TurnId}
    (h : listedActive s threadId turnId = true) :
    OpenTurn s.domain.projections threadId turnId := by
  unfold listedActive Store.turnsForThread at h
  rw [List.any_eq_true] at h
  obtain ⟨⟨id, row⟩, hmem, hrow⟩ := h
  simp only [Bool.and_eq_true, beq_iff_eq] at hrow
  have hin := (List.mem_insertionSort _).1 (List.mem_of_mem_take hmem)
  obtain ⟨htable, hthread⟩ := List.mem_filter.1 hin
  simp only [Bool.and_eq_true, beq_iff_eq] at hthread
  refine openTurn_iff.2 ⟨row, ?_, hthread.1, hrow.2⟩
  rw [← hrow.1]
  exact Std.ExtTreeMap.mem_toList_iff_getElem?_eq_some.1 htable

/-- The supervisor reports the event. -/
def ReportedBy (v : ThreadRuntimeSupervisor) (event : RuntimeEvent) : Prop :=
  ∃ ev, reported v ev = some event

/-- A request is reported only by a supervisor at work. -/
theorem running_of_request {turnId : TurnId} {permissionId : EventId} {kind : PermissionKind}
    {description : PermissionDescription}
    (h : ReportedBy v (.permissionRequested threadId turnId permissionId kind description)) :
    running v.state = some turnId := by
  obtain ⟨ev, h⟩ := h
  cases ev with
  | permissionRequest =>
    simp only [reported] at h
    split at h
    · rename_i hstate
      cases h
      rw [hstate]
      rfl
    · cases h
  | started | processExited | rawUnknown => cases h
  | messageDelta | completed | cancelled | failed | toolCall =>
    simp only [reported] at h
    split at h <;> cases h

/-- The members of a record have different names. -/
theorem nodup_recordOf (h : recordOf event = some (kind, fields)) :
    (fields.map Prod.fst).Nodup := by
  cases event <;> cases h <;> simp

/-- A record that is appended concerns a turn that is open. -/
theorem openTurn_of_ends {s : Store} {turnId : TurnId} (hends : endsTurn event = true)
    (hturn : extractTurnId event = some turnId)
    (happend : shouldAppend s event (extractTurnId event) = true) :
    OpenTurn s.domain.projections (extractThreadId event) turnId := by
  rw [hturn] at happend
  simp only [shouldAppend, hends, Bool.not_true, Bool.false_or] at happend
  exact openTurn_of_listedActive happend

/-- An event that is left out is the end of a turn that is over. -/
theorem recorded_of_skip {s : Store} {ctx : EventContext} (hrecord : Recordable s v event)
    (hskip : shouldAppend s event (extractTurnId event) = false) : Recorded ctx event s.domain := by
  have hnotOpen (threadId : ThreadId) (turnId : TurnId)
      (hlisted : OpenTurn s.domain.projections threadId turnId →
        listedActive s threadId turnId = true)
      (hnot : listedActive s threadId turnId = false) :
      ¬ OpenTurn s.domain.projections threadId turnId := fun hopen => by
    rw [hlisted hopen] at hnot
    cases hnot
  cases event with
  | turnCompleted threadId turnId =>
    intro turn hturn
    cases hturn
    exact hnotOpen threadId turnId hrecord (by
      simpa [shouldAppend, extractTurnId, extractThreadId, endsTurn] using hskip)
  | turnCancelled threadId turnId =>
    intro turn hturn
    cases hturn
    exact hnotOpen threadId turnId hrecord (by
      simpa [shouldAppend, extractTurnId, extractThreadId, endsTurn] using hskip)
  | turnFailed threadId turnId =>
    intro turn hturn
    cases hturn
    exact hnotOpen threadId turnId hrecord (by
      simpa [shouldAppend, extractTurnId, extractThreadId, endsTurn] using hskip)
  | _ => simp [shouldAppend, extractTurnId, endsTurn] at hskip

variable [LawfulWriter]

variable {app : CoreApplication H} {now : UInt64}

/-- The record of an event that can be published passes the validator. -/
theorem exists_valid_record (eventId : EventId)
    (hv : Supervises app.store.domain.projections threadId v) (hby : ReportedBy v event)
    (hpub : Publishable app v event now) (hrecord : recordOf event = some (kind, fields))
    (happend : shouldAppend app.store event (extractTurnId event) = true) :
    ∃ e, EventContext.intoDomainEvent
        ⟨eventId, some threadId, extractTurnId event, none, now⟩ kind fields = .ok e ∧
      validateDomainEventInTx app.store.domain.projections e = .ok () := by
  obtain ⟨payload, hpayload, hread⟩ :=
    exists_payload (nodup_recordOf hrecord) (hpub.size kind fields hrecord happend)
  have hthread : extractThreadId event = threadId := by
    obtain ⟨ev, hev⟩ := hby
    exact (thread_reported hev).trans hv.own
  refine ⟨⟨eventId, some threadId, extractTurnId event, none, kind, payload, now⟩, ?_, ?_⟩
  · simp only [EventContext.intoDomainEvent, hpayload]
  have hpasses := hpub.record
  cases event with
  | turnStarted => cases hrecord
  | toolCall => exact hpasses.elim
  | messageDelta tid turnId text =>
    cases hrecord
    cases hthread
    refine validate_openTurn rfl rfl rfl hv.thread ?_
    exact hpasses.elim (fun hrun => hv.turn turnId hrun) id
  | permissionRequested tid turnId permissionId kind description =>
    cases hrecord
    cases hthread
    refine validate_permissionRequested rfl rfl rfl hv.thread
      (hv.turn turnId (running_of_request hby)) (fun v hv => ⟨hread v hv _ description.asStr ?_,
        hread v hv _ kind.asStr ?_⟩) hpasses ?_
    · simp
    · simp
    · cases kind <;> decide
  | turnCompleted tid turnId =>
    cases hrecord
    cases hthread
    exact validate_openTurn rfl rfl rfl hv.thread (openTurn_of_ends rfl rfl happend)
  | turnCancelled tid turnId =>
    cases hrecord
    cases hthread
    exact validate_openTurn rfl rfl rfl hv.thread (openTurn_of_ends rfl rfl happend)
  | turnFailed tid turnId =>
    cases hrecord
    cases hthread
    exact validate_openTurn rfl rfl rfl hv.thread (openTurn_of_ends rfl rfl happend)
  | processExited tid exitCode =>
    cases hrecord
    exact validate_other rfl (by decide) rfl rfl hv.thread
  | unknown tid name summary =>
    cases hrecord
    exact validate_other rfl hpasses rfl rfl hv.thread

/-! ## Publishing -/

/-- The scope a polled event is published in. -/
def pollContext (app : CoreApplication H) (event : RuntimeEvent) (now : UInt64) : EventContext :=
  ⟨nextPublishedId app event now, some (extractThreadId event), extractTurnId event, none, now⟩

/-- The application is as it was before the poll, as far as publishing goes. -/
def SameJournal (app s : CoreApplication H) : Prop :=
  s.store.domain = app.store.domain ∧ s.log = app.log

omit [LawfulWriter] in
/-- The identifier an event is published under. -/
theorem spec_publishedId (app : CoreApplication H) (event : RuntimeEvent) (now : UInt64) :
    Proc.Spec (· = app) (publishedId event now)
      (fun eventId s => eventId = nextPublishedId app event now ∧ SameJournal app s)
      (fun _ _ => False) fun _ => True := by
  have hnext : Proc.Spec (· = app) (nextEventId now)
      (fun eventId s => eventId = eventIdOf now app.counter ∧ SameJournal app s)
      (fun _ _ => False) fun _ => True := by
    refine .bind (M := fun x s => x = app ∧ s = app) (.get fun _ h => ⟨h, h⟩) fun x => ?_
    refine .bind (M := fun _ s => x = app ∧ SameJournal app s) (.modify fun s h => ⟨h.1, ?_⟩)
      fun _ => .pure fun s h => ⟨by rw [h.1], h.2⟩
    obtain ⟨-, rfl⟩ := h
    exact ⟨rfl, rfl⟩
  cases event with
  | permissionRequested => exact .pure fun s h => ⟨rfl, h ▸ ⟨rfl, rfl⟩⟩
  | _ => exact hnext

omit [LawfulWriter] in
/-- The record of an event that is appended. -/
theorem spec_record {e : DomainEvent} (hv : Supervises app.store.domain.projections threadId v)
    (hthread : extractThreadId event = threadId) (hpub : Publishable app v event now)
    (hrecord : recordOf event = some (kind, fields))
    (happend : shouldAppend app.store event (extractTurnId event) = true)
    (hmap : mapRuntimeToDomainEvent (pollContext app event now) event = .ok (some e))
    (hinto : (pollContext app event now).intoDomainEvent kind fields = .ok e)
    (hvalid : validateDomainEventInTx app.store.domain.projections e = .ok ()) :
    Proc.Spec (SameJournal app) (appendDomainEvent e)
      (fun _ s => Recorded (pollContext app event now) event s.store.domain ∧ s.log = app.log)
      (fun _ _ => False) fun _ => True := by
  obtain ⟨hnew, hnow⟩ := hpub.fresh (by rw [hrecord]; simp) happend
  obtain ⟨payload, -, rfl⟩ := of_intoDomainEvent hinto
  have hexisting : existingDomainEvent app.store.domain
      ⟨(pollContext app event now).eventId, (pollContext app event now).threadId,
        (pollContext app event now).turnId, (pollContext app event now).operationId, kind, payload,
        (pollContext app event now).occurredAt⟩ = none := by
    refine List.find?_eq_none.2 fun row hrow => ?_
    rw [beq_iff_eq]
    exact hnew row hrow
  have hmemory : isMemoryKind kind = false := by cases event <;> cases hrecord <;> rfl
  obtain ⟨d, hstep, hrow⟩ := append_of_validate hnow hexisting hmemory
    (congrArg some hthread) hv.thread hvalid
  refine spec_appendDomainEvent (fun s o store h hs => ?_) (fun s err h hs => ?_) fun _ _ => trivial
  · obtain ⟨d', hd', rfl⟩ := Store.appendDomainEvent_cases h
    rw [hs.1, hstep, Except.ok.injEq, Prod.mk.injEq] at hd'
    obtain ⟨-, rfl⟩ := hd'
    refine ⟨?_, hs.2⟩
    simp only [Recorded, hrecord]
    split
    · rename_i hends
      intro turnId hturn
      rcases Storage.appendDomainEvent_cases hstep with
        ⟨row, -, -, hdup, -⟩ | ⟨p, -, -, -, hfold, -, rfl⟩
      · cases hdup
      · refine not_openTurn_of_closes hvalid hfold ?_ _
        have hkind : (terminalState kind).isSome = true := by
          cases event <;> cases hrecord <;> first
            | rfl
            | cases hends
        simp [closesTurn, hkind, pollContext, hturn]
    · exact ⟨_, _, hmap, hrow⟩
  · unfold Store.appendDomainEvent at h
    rw [hs.1, hstep] at h
    cases h

/-- An event that can be published is recorded. -/
theorem spec_journalRuntimeEvent (hv : Supervises app.store.domain.projections threadId v)
    (hby : ReportedBy v event) (hpub : Publishable app v event now) :
    Proc.Spec (SameJournal app) (journalRuntimeEvent (pollContext app event now) event)
      (fun _ s => Recorded (pollContext app event now) event s.store.domain ∧ s.log = app.log)
      (fun _ _ => False) fun _ => True := by
  have hthread : extractThreadId event = threadId := by
    obtain ⟨ev, hev⟩ := hby
    exact (thread_reported hev).trans hv.own
  refine .bind (M := fun x s => shouldAppend x.store event (extractTurnId event) =
    shouldAppend app.store event (extractTurnId event) ∧ SameJournal app s)
    (.get fun s h => ⟨shouldAppend_congr h.1 _ _, h⟩) fun x => ?_
  split
  · rename_i hshould
    change shouldAppend x.store event (extractTurnId event) = true at hshould
    refine .bind (M := fun r s => SameJournal app s ∧
      shouldAppend app.store event (extractTurnId event) = true ∧
        mapRuntimeToDomainEvent (pollContext app event now) event = .ok r)
      (.ofExcept (fun _ _ hr h => ⟨h.2, h.1 ▸ hshould, hr⟩) fun err s herr h => ?_) fun r => ?_
    · -- the record can be made
      rw [mapRuntimeToDomainEvent_eq] at herr
      split at herr
      · cases herr
      · rename_i kind fields hrecord
        obtain ⟨e, hinto, -⟩ := exists_valid_record (nextPublishedId app event now) hv hby hpub
          hrecord (h.1 ▸ hshould)
        rw [← hthread] at hinto
        rw [show (pollContext app event now).intoDomainEvent kind fields = .ok e from hinto] at herr
        cases herr
    · split
      · refine .pure fun s h => ⟨?_, h.1.2⟩
        have hnone := h.2.2
        rw [mapRuntimeToDomainEvent_eq] at hnone
        unfold Recorded
        split at hnone
        · rename_i hrecord
          simp only [hrecord]
        · rename_i kind fields hrecord
          obtain ⟨e, -, heq⟩ := map_eq_ok.1 hnone
          cases heq
      · rename_i e
        intro s n hs
        obtain ⟨hsame, happend, hmap⟩ := hs
        obtain ⟨kind, fields, hrecord, hinto⟩ := of_mapRuntimeToDomainEvent hmap
        obtain ⟨e', hinto', hvalid⟩ := exists_valid_record (nextPublishedId app event now) hv hby
          hpub hrecord happend
        rw [← hthread] at hinto'
        have heq : e' = e := by
          rw [show (pollContext app event now).intoDomainEvent kind fields = _ from hinto',
            Except.ok.injEq] at hinto
          exact hinto
        subst heq
        exact Proc.Spec.bind (spec_record hv hthread hpub hrecord happend hmap hinto hvalid)
          (fun _ => .pure fun _ h => h) s n hsame
  · rename_i hshould
    refine .pure fun s h => ⟨?_, h.2.2⟩
    -- only the end of a turn that is not listed as active is left out
    have hskip : shouldAppend app.store event (extractTurnId event) = false := by
      rw [← h.1]
      exact Bool.eq_false_iff.2 hshould
    rw [h.2.1]
    exact recorded_of_skip hpub.record hskip

/-! ## Polls -/

section Poll

variable [HarnessRuntimePort H]

/-- The next event of the thread, if there is one, can be published. -/
def Admissible (app : CoreApplication H) (threadId : ThreadId) (now : UInt64) : Prop :=
  ∀ v event, Reported app threadId v event → Publishable app v event now

/-- The supervisor of the thread with what it reports next. -/
def nextReport (app : CoreApplication H) (threadId : ThreadId) :
    Option (ThreadRuntimeSupervisor × RuntimeEvent) := do
  let v ← app.supervisor.threads[threadId]?
  let sessionId ← v.sessionId
  match (HarnessRuntimePort.pollEvent app.supervisor.harness sessionId).1 with
  | .ok (some ev) => (reported v ev).map (v, ·)
  | _ => none

omit [LawfulWriter] in
theorem reported_iff :
    Reported app threadId v event ↔ nextReport app threadId = some (v, event) := by
  unfold Reported nextReport
  constructor
  · rintro ⟨hv, sessionId, ev, hsession, hev, hreported⟩
    simp [hv, hsession, hev, hreported]
  · intro h
    obtain ⟨v', hv, h⟩ := Option.bind_eq_some_iff.1 h
    obtain ⟨sessionId, hsession, h⟩ := Option.bind_eq_some_iff.1 h
    split at h
    · rename_i ev hev
      obtain ⟨event', hreported, heq⟩ := Option.map_eq_some_iff.1 h
      cases heq
      exact ⟨hv, sessionId, ev, hsession, hev, hreported⟩
    · cases h

instance (app : CoreApplication H) (threadId : ThreadId) (now : UInt64) :
    Decidable (Admissible app threadId now) :=
  match h : nextReport app threadId with
  | none => isTrue fun v event hreported => by
      rw [reported_iff, h] at hreported
      cases hreported
  | some (v, event) => decidable_of_iff (Publishable app v event now) (by
      constructor
      · intro hpub v' event' hreported
        rw [reported_iff, h] at hreported
        cases hreported
        exact hpub
      · exact fun hall => hall v event (reported_iff.2 h))

/-- What a poll hands to the event pump, and the application it leaves. -/
def polled (app : CoreApplication H) (threadId : ThreadId) :
    Option (RuntimeEvent × CoreApplication H) :=
  match onThread threadId (pollStream 0) app none with
  | ⟨.done (some event), app', _⟩ => some (event, app')
  | _ => none

/-- The event a poll hands over is published, and the journal holds it. -/
def Accepts (app : CoreApplication H) (threadId : ThreadId) (now : UInt64) : Prop :=
  ∀ event app', polled app threadId = some (event, app') →
    ∃ envelope app'', publishRuntimeEvent event none none now true app' none
        = ⟨.done envelope, app'', none⟩ ∧
      Recorded (pollContext app event now) event app''.store.domain

theorem accepts_of_admissible (hw : Watched app) (hok : Admissible app threadId now) :
    Accepts app threadId now := by
  intro event app' hpolled
  have hpoll : AfterPoll app threadId (some event) app' := by
    have hspec : Proc.Spec (· = app) (onThread threadId (pollStream 0)) (AfterPoll app threadId)
        (fun _ => Watched) fun _ => True := .mapError (spec_poll app threadId hw 0)
    have hrun := hspec app none rfl
    unfold polled at hpolled
    revert hrun
    split at hpolled
    · rename_i heq
      rw [heq]
      cases hpolled
      exact And.left
    · cases hpolled
  obtain ⟨v, hreported⟩ := hpoll.reported event rfl
  have hby : ReportedBy v event := by
    obtain ⟨-, -, ev, -, -, hev⟩ := hreported
    exact ⟨ev, hev⟩
  have hpub := hok v event hreported
  have hv := hw threadId v hreported.1
  obtain ⟨body, hbody⟩ := exists_body hpub.body
  refine Proc.Spec.done (P := fun s => s = app') (R := fun _ => True) ?_ rfl
  have hid : nextPublishedId app' event now = nextPublishedId app event now := by
    unfold nextPublishedId
    rw [hpoll.counter]
  refine .bind (M := fun eventId s => eventId = nextPublishedId app event now ∧ SameJournal app s)
    ((spec_publishedId app' event now).mono (fun _ h => h) (fun _ s h => ⟨h.1.trans hid, ?_⟩)
      (fun _ _ h => h) fun _ h => h) fun eventId => ?_
  · exact ⟨h.2.1.trans hpoll.domain, h.2.2.trans hpoll.log⟩
  · intro s n hs
    obtain ⟨rfl, hsame⟩ := hs
    refine Proc.Spec.bind (spec_journalRuntimeEvent hv hby hpub) (fun _ => ?_) s n hsame
    refine .bind (M := fun _ s => Recorded (pollContext app event now) event s.store.domain
      ∧ s.log = app.log) (.ofExcept (fun _ _ _ h => h) fun err _ herr _ => ?_) fun body => ?_
    · rw [hbody] at herr
      cases herr
    · refine .bind (M := fun x s => x.log = app.log ∧
        Recorded (pollContext app event now) event s.store.domain) (.get fun _ h => ⟨h.2, h.1⟩)
          fun x => ?_
      split
      · rename_i err herr
        refine .fail fun s hs => ?_
        rw [hs.1] at herr
        unfold EventLog.append at herr
        rw [if_neg hpub.sequence] at herr
        cases herr
      · exact .bind (M := fun _ s => Recorded (pollContext app event now) event s.store.domain)
          (.modify fun _ h => h.2) fun _ => .pure fun _ h => h

/-! ## Runs -/

variable [DefaultHasher] [ErrorText]

/-- The step is no poll, or one whose event can be published. -/
def AdmissiblePoll (p : Process H) (i : Input H) : Prop :=
  match p, i with
  | .up app, .call (.poll threadId now) _ => Admissible app threadId now
  | _, _ => True

instance (p : Process H) (i : Input H) : Decidable (AdmissiblePoll p i) :=
  match p, i with
  | .up app, .call (.poll threadId now) _ =>
    inferInstanceAs (Decidable (Admissible app threadId now))
  | .down _ _, _ | .up _, .agents _ | .up _, .restart _ | .up _, .call (.createThread ..) _
  | .up _, .call (.openThread ..) _ | .up _, .call (.startPrompt ..) _
  | .up _, .call (.cancelTurn ..) _ | .up _, .call (.decidePermission ..) _
  | .up _, .call (.closeSession ..) _ => .isTrue trivial

/-- The step polls an event that can be published, or starts a turn that is not
journaled yet. -/
def AdmissibleStep (p : Process H) (i : Input H) : Prop := NoRetry p i ∧ AdmissiblePoll p i

instance (p : Process H) (i : Input H) : Decidable (AdmissibleStep p i) :=
  inferInstanceAs (Decidable (NoRetry p i ∧ AdmissiblePoll p i))

/-- The step is no poll, or one whose event is accepted. -/
def AcceptedStep (p : Process H) (i : Input H) : Prop :=
  match p, i with
  | .up app, .call (.poll threadId now) _ => Accepts app threadId now
  | _, _ => True

/-- The poll hands over an event that is refused. -/
def refusesPoll (p : Process H) (threadId : ThreadId) (now : UInt64) : Bool :=
  match p with
  | .up app =>
    match polled app threadId with
    | some (event, app') =>
      match (publishRuntimeEvent event none none now true app' none).ending with
      | .failed _ => true
      | _ => false
    | none => false
  | .down _ _ => false

omit [LawfulWriter] [DefaultHasher] [ErrorText] in
theorem not_accepted_of_refusesPoll {p : Process H} (h : refusesPoll p threadId now = true)
    (crash : Option Nat) : ¬ AcceptedStep p (.call (.poll threadId now) crash) := by
  cases p with
  | down => cases h
  | up app =>
    intro haccepts
    simp only [refusesPoll] at h
    split at h
    · rename_i event app' hpolled
      obtain ⟨envelope, app'', hrun, -⟩ := haccepts event app' hpolled
      rw [hrun] at h
      cases h
    · cases h

end Poll

end Journal

section Sample

local instance admissionWriter : SerdeJsonWriter := flatWriter
local instance admissionLawful : LawfulWriter := flatWriter_lawful
local instance admissionText : ErrorText := plainText
local instance admissionHasher : DefaultHasher := linearHasher

/-- A turn is started, and the agent reports an event. -/
def sampleReport (event : HarnessEvent) : List (Input Queued) :=
  sampleOpen ++ [samplePrompt sampleOperation sampleTurnId 2,
    .agents (Queued.push sampleSession event)]

/-- A delta of a running turn, polled. -/
def sampleDelta : List (Input Queued) :=
  sampleReport (.messageDelta "hi") ++ [.call (.poll sampleThread 3) none]

end Sample

end Altior.Application
