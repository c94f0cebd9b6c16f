import Altior.Lib.Lockstep
import Altior.Storage.Readers

/-!
# The memory operations

Proposing, creating, confirming, rejecting, correcting and forgetting a memory
(`altior-storage/src/memory.rs`).  Every operation journals under an event
identifier made from its time and a number of its own; the main result says that
calls on different memories do not get in each other's way when these identifiers
are different, and the counterexample at the end that they do otherwise.
-/

namespace Altior.Storage

open Domain Lib

/-! ## Synthesised identifiers -/

/-- `{:08x}` of a 32-bit number. -/
def hex8 (n : Nat) : List Char :=
  (List.range 8).map fun i => Domain.hexDigit ((n >>> (4 * (7 - i))) % 16)

/-- The body of a synthesised identifier. -/
def syntheticBody (occurredAt : UInt64) (disambiguator : Nat) : List Char :=
  Domain.hex16 occurredAt ++ hex8 disambiguator

theorem length_syntheticBody (occurredAt : UInt64) (disambiguator : Nat) :
    (syntheticBody occurredAt disambiguator).length = 24 := by
  simp [syntheticBody, hex8]

theorem validate_synthetic {head : List Char} (hhead : '_' ∉ head) (occurredAt : UInt64)
    (disambiguator : Nat) :
    validate (String.ofList (head ++ '_' :: syntheticBody occurredAt disambiguator))
      (String.ofList (head ++ ['_'])) = .ok () := by
  have hlen := length_syntheticBody occurredAt disambiguator
  refine validate_of_body hhead ?_ (by rw [hlen]; decide) (by rw [hlen]; decide)
  rw [syntheticBody, List.all_append, all_hex16, Bool.true_and, List.all_eq_true]
  intro c hc
  obtain ⟨i, -, rfl⟩ := List.mem_map.1 hc
  exact isBodyChar_hexDigit _

def generateEventId (occurredAt : UInt64) (disambiguator : Nat) : EventId where
  asStr := String.ofList ("evt".toList ++ '_' :: syntheticBody occurredAt disambiguator)
  valid := validate_synthetic (by decide) occurredAt disambiguator

def generateMemoryId (occurredAt : UInt64) (disambiguator : Nat) : MemoryId where
  asStr := String.ofList ("mem".toList ++ '_' :: syntheticBody occurredAt disambiguator)
  valid := validate_synthetic (by decide) occurredAt disambiguator

theorem syntheticBody_inj {t t' : UInt64} {n n' : Nat}
    (h : syntheticBody t n = syntheticBody t' n') :
    Domain.hex16 t = Domain.hex16 t' ∧ hex8 n = hex8 n' :=
  List.append_inj h (by rw [length_hex16, length_hex16])

/-- A synthesised identifier tells the time and the number. -/
theorem generateEventId_inj {t t' : UInt64} {n n' : Nat}
    (h : (generateEventId t n).asStr = (generateEventId t' n').asStr) :
    Domain.hex16 t = Domain.hex16 t' ∧ hex8 n = hex8 n' :=
  syntheticBody_inj (List.cons.inj (List.append_cancel_left (String.ofList_injective h))).2

theorem generateMemoryId_inj {t t' : UInt64} {n n' : Nat}
    (h : (generateMemoryId t n).asStr = (generateMemoryId t' n').asStr) :
    Domain.hex16 t = Domain.hex16 t' ∧ hex8 n = hex8 n' :=
  syntheticBody_inj (List.cons.inj (List.append_cancel_left (String.ofList_injective h))).2

/-! ## Building blocks -/

/-- The failures of a memory operation: those of its writes and those of its reads. -/
inductive MemoryError
  | storage (e : StorageError)
  | read (e : ReadError)
deriving DecidableEq, Repr

/-- `validate_draft_before_append`. -/
def validateDraftBeforeAppend (draft : Domain.MemoryDraft) : Except MemoryError Unit :=
  if isSecretShaped (String.ofList draft.content.chars) then .error (.storage .secretShapedContent)
  else if draft.provenance.excerpt.any fun excerpt => isSecretShaped (String.ofList excerpt.chars) then
    .error (.storage .secretShapedContent)
  else if 100 < draft.confidence then
    .error (.storage (.invalidDomainEvent
      ("confidence " ++ toString draft.confidence.toNat ++ " exceeds 100" : String)))
  else .ok ()

/-- A text or `null`. -/
def nullable : Option String → Scalar
  | some s => .string s
  | none => .null

/-- The members of the payload that creates a memory. -/
def draftFields (memId : MemoryId) (draft : Domain.MemoryDraft) (state : String) :
    List (String × Scalar) :=
  [("memory_id", .string memId.asStr),
    ("content", .string (String.ofList draft.content.chars)),
    ("scope_kind", .string (scopeColumns draft.scope).1),
    ("scope_target", nullable (scopeColumns draft.scope).2),
    ("kind", .string draft.kind.asStr),
    ("state", .string state),
    ("confidence", .number (.posInt draft.confidence.toUInt64)),
    ("sensitivity", .string draft.sensitivity.asStr),
    ("source", .string draft.source.asStr),
    ("explicit", .bool draft.source.isExplicit),
    ("provenance_thread_id", nullable (draft.provenance.threadId.map Id.asStr)),
    ("provenance_turn_id", nullable (draft.provenance.turnId.map Id.asStr)),
    ("excerpt", nullable (draft.provenance.excerpt.map fun excerpt => String.ofList excerpt.chars)),
    ("expires_at", draft.expiresAt.elim .null fun t => .number (.posInt t))]

section Store

variable [SerdeJsonWriter]

/-- A memory operation; each append is a transaction of its own. -/
abbrev MemoryProc (α : Type) : Type := Proc DomainStore MemoryError α

/-- `get_memory` of a memory that has to be there. -/
def fetchMemory (memoryId : MemoryId) : MemoryProc MemoryRecord := do
  let s ← Proc.get
  match getMemory s.projections memoryId with
  | .error e => .fail (.read e)
  | .ok none => .fail (.storage (.memoryNotFound memoryId.asStr))
  | .ok (some record) => pure record

/-- `append_domain_event`. -/
def appendEvent (e : DomainEvent) : MemoryProc Unit := .act fun s =>
  match appendDomainEvent s e with
  | .ok (_, s') => (.ok (), s')
  | .error err => (.error (.storage err), s)

theorem appendEvent_run (e : DomainEvent) (s : DomainStore) :
    appendEvent e s none = match appendDomainEvent s e with
      | .ok (_, s') => ⟨.done (), s', none⟩
      | .error err => ⟨.failed (.storage err), s, none⟩ := by
  unfold appendEvent
  rw [Proc.act_run_none]
  cases appendDomainEvent s e <;> rfl

/-- Serializes the members of a payload and appends the event. -/
def journalMemory (eventId : EventId) (kind : DomainEventKind) (threadId : Option ThreadId)
    (turnId : Option TurnId) (fields : List (String × Scalar)) (occurredAt : UInt64) :
    MemoryProc Unit :=
  match EventPayload.tryFrom (SerdeJsonWriter.toVec (.flat fields)) with
  | .error e => .fail (.storage (.invalidDomainEvent (.entityError "" e)))
  | .ok payload => appendEvent ⟨eventId, threadId, turnId, none, kind, payload, occurredAt⟩

/-! ## The operations -/

def createMemoryWithKind (draft : Domain.MemoryDraft) (kind : DomainEventKind)
    (occurredAt : UInt64) : MemoryProc MemoryRecord := do
  .ofExcept (validateDraftBeforeAppend draft)
  let memId := draft.id.getD (generateMemoryId occurredAt 1)
  let state := draft.state.getD (if kind = .memoryProposed then .candidate else .confirmed)
  journalMemory (generateEventId occurredAt 1) kind draft.provenance.threadId
    draft.provenance.turnId (draftFields memId draft state.asStr) occurredAt
  fetchMemory memId

def proposeMemory (draft : Domain.MemoryDraft) (occurredAt : UInt64) : MemoryProc MemoryRecord :=
  createMemoryWithKind { draft with state := some .candidate, source := .inferred } .memoryProposed
    occurredAt

def createMemory (draft : Domain.MemoryDraft) (occurredAt : UInt64) : MemoryProc MemoryRecord :=
  createMemoryWithKind draft
    (if draft.state = some .candidate then .memoryProposed else .memoryConfirmed) occurredAt

/-- An operation that moves a memory out of the state it requires. -/
def moveMemory (verb : String) (required : MemoryState) (kind : DomainEventKind)
    (disambiguator : Nat) (memoryId : MemoryId) (fields : List (String × Scalar))
    (occurredAt : UInt64) : MemoryProc MemoryRecord := do
  let existing ← fetchMemory memoryId
  if existing.state ≠ required then
    .fail (.storage (.invalidDomainEvent ("cannot " ++ verb ++ " memory in '"
      ++ existing.state.asStr ++ "' state; " ++ required.asStr ++ " required" : String)))
  else do
    journalMemory (generateEventId occurredAt disambiguator) kind existing.provenance.threadId
      existing.provenance.turnId (("memory_id", .string memoryId.asStr) :: fields) occurredAt
    fetchMemory memoryId

def confirmMemory (memoryId : MemoryId) (occurredAt : UInt64) : MemoryProc MemoryRecord :=
  moveMemory "confirm" .candidate .memoryConfirmed 2 memoryId [] occurredAt

def rejectMemory (memoryId : MemoryId) (reason : Option String) (occurredAt : UInt64) :
    MemoryProc MemoryRecord :=
  moveMemory "reject" .candidate .memoryRejected 3 memoryId [("reason", nullable reason)] occurredAt

def forgetMemory (memoryId : MemoryId) (occurredAt : UInt64) : MemoryProc MemoryRecord :=
  moveMemory "forget" .confirmed .memoryForgotten 7 memoryId [] occurredAt

/-- Journals the replacement, then the supersession. -/
def correctMemory (memoryId : MemoryId) (draft : Domain.MemoryDraft) (occurredAt : UInt64) :
    MemoryProc MemoryRecord := do
  .ofExcept (validateDraftBeforeAppend draft)
  let existing ← fetchMemory memoryId
  if existing.state ≠ .confirmed ∨ existing.supersededBy.isSome then
    .fail (.storage (.invalidDomainEvent
      "cannot correct non-confirmed or already-superseded memory"))
  else do
    let newMemId := draft.id.getD (generateMemoryId occurredAt 4)
    journalMemory (generateEventId occurredAt 5) .memoryConfirmed draft.provenance.threadId
      draft.provenance.turnId (draftFields newMemId draft "confirmed") occurredAt
    journalMemory (generateEventId occurredAt 6) .memorySuperseded existing.provenance.threadId
      existing.provenance.turnId
      [("memory_id", .string memoryId.asStr), ("superseded_by", .string newMemId.asStr)] occurredAt
    fetchMemory newMemId

/-! ## Calls -/

/-- A call of a memory operation. -/
inductive MemoryCall
  | propose (draft : Domain.MemoryDraft) (occurredAt : UInt64)
  | create (draft : Domain.MemoryDraft) (occurredAt : UInt64)
  | confirm (memoryId : MemoryId) (occurredAt : UInt64)
  | reject (memoryId : MemoryId) (reason : Option String) (occurredAt : UInt64)
  | correct (memoryId : MemoryId) (draft : Domain.MemoryDraft) (occurredAt : UInt64)
  | forget (memoryId : MemoryId) (occurredAt : UInt64)

namespace MemoryCall

def exec : MemoryCall → MemoryProc MemoryRecord
  | propose draft t => proposeMemory draft t
  | create draft t => createMemory draft t
  | confirm memoryId t => confirmMemory memoryId t
  | reject memoryId reason t => rejectMemory memoryId reason t
  | correct memoryId draft t => correctMemory memoryId draft t
  | forget memoryId t => forgetMemory memoryId t

/-- How the call ends. -/
def result (c : MemoryCall) (s : DomainStore) : Ending MemoryError MemoryRecord :=
  (c.exec s none).ending

/-- The store the call leaves behind. -/
def after (c : MemoryCall) (s : DomainStore) : DomainStore := (c.exec s none).state

omit [SerdeJsonWriter]

/-- The memories the call is about. -/
def memories : MemoryCall → List MemoryId
  | propose draft t | create draft t => [draft.id.getD (generateMemoryId t 1)]
  | confirm memoryId _ | reject memoryId _ _ | forget memoryId _ => [memoryId]
  | correct memoryId draft t => [memoryId, draft.id.getD (generateMemoryId t 4)]

/-- The identifier made up for the memory the call creates, if its draft has none. -/
def made : MemoryCall → Option MemoryId
  | propose draft t | create draft t =>
    if draft.id.isNone then some (generateMemoryId t 1) else none
  | correct _ draft t => if draft.id.isNone then some (generateMemoryId t 4) else none
  | confirm _ _ | reject _ _ _ | forget _ _ => none

/-- The identifiers the call journals under. -/
def eventIds : MemoryCall → List EventId
  | propose _ t | create _ t => [generateEventId t 1]
  | confirm _ t => [generateEventId t 2]
  | reject _ _ t => [generateEventId t 3]
  | correct _ _ t => [generateEventId t 5, generateEventId t 6]
  | forget _ t => [generateEventId t 7]

/-- Two calls on different memories.  An identifier made up for each of two new
memories does not make them one. -/
def Different (a b : MemoryCall) : Prop :=
  ∀ m ∈ a.memories, m ∈ b.memories → a.made = some m ∧ b.made = some m

instance (a b : MemoryCall) : Decidable (a.Different b) :=
  inferInstanceAs (Decidable (∀ m ∈ a.memories, m ∈ b.memories → a.made = some m ∧ b.made = some m))

end MemoryCall

/-! ## What a memory event sees -/

omit [SerdeJsonWriter] in
theorem validateMemoryKindTransitionInTx_congr {p q : Projections} {memId : String}
    (hrow : q.memory[memId]? = p.memory[memId]?) (kind : DomainEventKind) (v : Json) :
    validateMemoryKindTransitionInTx q kind memId v =
      validateMemoryKindTransitionInTx p kind memId v := by
  have hmem : memId ∉ q.memory ↔ memId ∉ p.memory := by
    rw [Table.not_mem_iff, Table.not_mem_iff, hrow]
  unfold validateMemoryKindTransitionInTx requireMemoryState
  simp only [hrow, hmem]

section Sight

variable {p q : Projections} {e : DomainEvent}

/-- The journal accepts a memory event by its memory and its thread. -/
theorem validate_of_sameSight (h : validateDomainEventInTx p e = .ok ())
    (hkind : isMemoryKind e.kind = true)
    (hrow : q.memory[memoryIdOf e]? = p.memory[memoryIdOf e]?)
    (hthread : ∀ k, k ∈ q.thread ↔ k ∈ p.thread) : validateDomainEventInTx q e = .ok () := by
  obtain ⟨v, hv, hid, -, hchecks⟩ := validate_memory h hkind
  obtain ⟨⟨⟩, hname, h⟩ := bind_eq_ok.1 h
  obtain ⟨v', hv', h⟩ := bind_eq_ok.1 h
  rw [if_pos hkind] at h
  obtain ⟨⟨⟩, hscope, h⟩ := bind_eq_ok.1 h
  obtain ⟨memId, hreq, h⟩ := bind_eq_ok.1 h
  obtain ⟨⟨⟩, hparse, h⟩ := bind_eq_ok.1 h
  have hjson := (Option.filter_eq_some_iff.1 (requireSome_eq_ok.1 hv')).1
  obtain rfl := Option.some.inj (hv.symm.trans hjson)
  obtain rfl := Option.some.inj (hid.symm.trans (req_eq_ok hreq))
  refine bind_eq_ok.2 ⟨(), hname, bind_eq_ok.2 ⟨v, hv', ?_⟩⟩
  rw [if_pos hkind]
  refine bind_eq_ok.2 ⟨(), ?_, bind_eq_ok.2 ⟨_, hreq, bind_eq_ok.2 ⟨(), hparse, ?_⟩⟩⟩
  · rw [whenSome_eq_ok] at hscope ⊢
    intro thr hthr
    exact require_eq_ok.2 ((hthread _).2 (require_eq_ok.1 (hscope thr hthr)))
  · rwa [validateMemoryKindTransitionInTx_congr hrow]

/-- The fold of an accepted memory event does not fail. -/
theorem exists_foldMemoryEvent (h : validateDomainEventInTx p e = .ok ())
    (hkind : isMemoryKind e.kind = true) (seq at_ : Int) :
    ∃ p', foldDomainEventInTx p e seq at_ = .ok p' := by
  obtain ⟨v, hv, -, -, -⟩ := validate_memory h hkind
  obtain ⟨q, hq⟩ : ∃ q, foldMemory p e at_ = some (.ok q) := by
    unfold foldMemory foldMemoryProposedInTx foldMemoryConfirmedInTx
    cases hk : e.kind <;> simp only [hk, isMemoryKind, Bool.false_eq_true] at hkind <;>
      simp only [hv, Option.some.injEq, exists_eq', ← apply_ite Except.ok, Except.ok.injEq]
  unfold foldDomainEventInTx
  simp only [hq]
  cases hthr : e.threadId with
  | none => exact ⟨q, rfl⟩
  | some thr =>
    -- the event was accepted in the scope of a thread that is there
    obtain ⟨⟨⟩, -, h⟩ := bind_eq_ok.1 h
    obtain ⟨_, -, h⟩ := bind_eq_ok.1 h
    rw [if_pos hkind] at h
    obtain ⟨⟨⟩, hscope, -⟩ := bind_eq_ok.1 h
    have hmem := require_eq_ok.1 (whenSome_eq_ok.1 hscope thr hthr)
    rw [← thread_foldMemory hq] at hmem
    exact ⟨_, if_pos hmem⟩

variable {at_ : Int}

/-- A memory event leaves the threads where they are. -/
theorem mem_thread_memoryEvent {p' : Projections} {seq : Int}
    (hfold : foldDomainEventInTx p e seq at_ = .ok p') (hkind : isMemoryKind e.kind = true)
    (k : String) : k ∈ p'.thread ↔ k ∈ p.thread := by
  unfold foldDomainEventInTx at hfold
  cases hmem : foldMemory p e at_ with
  | none => unfold foldMemory at hmem; cases hk : e.kind <;> simp_all [isMemoryKind]
  | some r =>
    cases r with
    | error err => simp [hmem] at hfold
    | ok q =>
      simp only [hmem] at hfold
      rw [← thread_foldMemory hmem]
      split at hfold
      · unfold updateThreadActivity at hfold
        split at hfold
        · cases hfold
          exact Table.mem_update
        · cases hfold
      · cases hfold
        rfl

theorem MemoryDraft.unique {v : Json} {row row' : MemoryRow} (h : MemoryDraft e at_ v row)
    (h' : MemoryDraft e at_ v row') : row = row' := by
  cases h <;> cases h' <;> simp_all

theorem MemoryMove.unique {row row' row'' : MemoryRow} (h : MemoryMove e at_ row row')
    (h' : MemoryMove e at_ row row'') : row' = row'' := by
  cases h <;> cases h' <;> simp_all

/-- Two memory steps by the same event agree wherever the tables agreed. -/
theorem MemoryStep.sameRow {p' q' : Projections} (hp : MemoryStep e at_ p p')
    (hq : MemoryStep e at_ q q') (hkind : isMemoryKind e.kind = true)
    (hrow : q.memory[memoryIdOf e]? = p.memory[memoryIdOf e]?) {m : String}
    (hm : q.memory[m]? = p.memory[m]?) : q'.memory[m]? = p'.memory[m]? := by
  cases hp with
  | same hother _ => rw [hkind] at hother; cases hother
  | create hv _ hdraft hnew hmemory _ =>
    cases hq with
    | same hother _ => rw [hkind] at hother; cases hother
    | create hv' _ hdraft' _ hmemory' _ =>
      obtain rfl := Option.some.inj (hv.symm.trans hv')
      rw [hmemory, hmemory', hdraft.unique hdraft', Table.getElem?_insert_eq,
        Table.getElem?_insert_eq, hm]
    | move hthere _ _ _ => rw [hrow, hnew] at hthere; cases hthere
  | move hthere hmove hmemory _ =>
    cases hq with
    | same hother _ => rw [hkind] at hother; cases hother
    | create _ _ _ hnew _ _ => rw [hrow, hthere] at hnew; cases hnew
    | move hthere' hmove' hmemory' _ =>
      obtain rfl := Option.some.inj ((hthere.symm.trans hrow.symm).trans hthere')
      rw [hmemory, hmemory', hmove.unique hmove', Table.getElem?_insert_eq,
        Table.getElem?_insert_eq, hm]

/-- A memory event leaves the other memories alone. -/
theorem MemoryStep.other {p' : Projections} (h : MemoryStep e at_ p p') {m : String}
    (hne : memoryIdOf e ≠ m) : p'.memory[m]? = p.memory[m]? := by
  cases h with
  | same _ h => rw [h.memory]
  | create _ _ _ _ hmemory _ => rw [hmemory, Table.getElem?_insert_of_ne _ _ hne]
  | move _ _ hmemory _ => rw [hmemory, Table.getElem?_insert_of_ne _ _ hne]

end Sight

/-! ## Stores that look alike -/

omit [SerdeJsonWriter] in
/-- The two stores hold the same rows of the memories and the same threads, and no
event was journalled under the identifiers in either. -/
structure Alike [SerdeJson] (memoryIds : List String) (eventIds : List EventId)
    (s t : DomainStore) : Prop where
  memory : ∀ m ∈ memoryIds, t.projections.memory[m]? = s.projections.memory[m]?
  thread : ∀ k, k ∈ t.projections.thread ↔ k ∈ s.projections.thread
  unused : ∀ id ∈ eventIds, ∀ row ∈ s.journal, row.eventId ≠ id.asStr
  unused' : ∀ id ∈ eventIds, ∀ row ∈ t.journal, row.eventId ≠ id.asStr

omit [SerdeJsonWriter] in
theorem asStr_ne_of_not_mem {ids : List EventId} {id other : EventId} (hother : other ∉ ids)
    (hid : id ∈ ids) : other.asStr ≠ id.asStr := by
  intro heq
  rw [Id.asStr_inj.1 heq] at hother
  exact hother hid

section Append

variable {memoryIds : List String} {eventIds : List EventId} {e : DomainEvent}

theorem existingDomainEvent_eq_none {s : DomainStore} :
    existingDomainEvent s e = none ↔ ∀ row ∈ s.journal, row.eventId ≠ e.eventId.asStr := by
  unfold existingDomainEvent
  rw [List.find?_eq_none]
  simp only [beq_iff_eq, ne_eq]

/-- An accepted memory event is accepted by a store that looks alike, with the same
effect on these memories. -/
theorem follows_appendEvent (hkind : isMemoryKind e.kind = true) (hid : memoryIdOf e ∈ memoryIds)
    (hother : e.eventId ∉ eventIds) :
    Proc.Follows (Alike memoryIds (e.eventId :: eventIds)) (Alike memoryIds eventIds)
      (appendEvent e) := by
  refine Proc.Follows.act fun s t a halike hok => ?_
  have hnone := existingDomainEvent_eq_none.2 (halike.unused _ (List.mem_cons_self ..))
  have hnone' := existingDomainEvent_eq_none.2 (halike.unused' _ (List.mem_cons_self ..))
  have hrow := halike.memory _ hid
  cases happend : appendDomainEvent s e with
  | error err =>
    simp only [happend] at hok
    cases hok
  | ok out =>
    obtain ⟨o, s'⟩ := out
    obtain ⟨row, hmem, heq, -, -⟩ | ⟨p', hbound, -, hvalid, hfold, -, hs'⟩ :=
      appendDomainEvent_cases happend
    · exact absurd (congrArg DomainJournalRow.eventId heq)
        (halike.unused _ (List.mem_cons_self ..) row hmem)
    · have hvalid' := validate_of_sameSight hvalid hkind hrow halike.thread
      obtain ⟨q', hfold'⟩ := exists_foldMemoryEvent hvalid' hkind
        (domainJournalMaxSeq t.journal + 1) e.occurredAt.toNat
      have hstep := memory_step hvalid hfold
      have hstep' := memory_step hvalid' hfold'
      rw [append_of_fold hbound hnone' hvalid' hfold']
      refine ⟨rfl, ⟨fun m hm => ?_, fun k => ?_, fun id hid' => ?_, fun id hid' => ?_⟩⟩
      · rw [hs']
        exact hstep.sameRow hstep' hkind hrow (halike.memory m hm)
      · rw [hs', mem_thread_memoryEvent hfold hkind, mem_thread_memoryEvent hfold' hkind]
        exact halike.thread k
      all_goals
        intro row hmem
        have hne := asStr_ne_of_not_mem hother hid'
      · rw [hs'] at hmem
        rcases List.mem_append.1 hmem with hold | hnew
        · exact halike.unused id (List.mem_cons_of_mem _ hid') row hold
        · rw [List.mem_singleton.1 hnew]
          exact hne
      · rcases List.mem_append.1 hmem with hold | hnew
        · exact halike.unused' id (List.mem_cons_of_mem _ hid') row hold
        · rw [List.mem_singleton.1 hnew]
          exact hne

/-- An event on another memory and under another identifier changes nothing that
counts. -/
theorem keeps_appendEvent (hkind : isMemoryKind e.kind = true) (hid : memoryIdOf e ∉ memoryIds)
    (hother : e.eventId ∉ eventIds) (s : DomainStore) :
    Proc.Keeps (Alike memoryIds eventIds s) (appendEvent e) := by
  refine Proc.Keeps.act fun t halike => ?_
  cases happend : appendDomainEvent t e with
  | error err => exact halike
  | ok out =>
    obtain ⟨o, t'⟩ := out
    obtain ⟨row, -, -, -, rfl⟩ | ⟨p', -, -, hvalid, hfold, -, rfl⟩ :=
      appendDomainEvent_cases happend
    · exact halike
    · refine ⟨fun m hm => ?_, fun k => ?_, halike.unused, fun id hid' row hmem => ?_⟩
      · rw [← halike.memory m hm]
        exact (memory_step hvalid hfold).other fun heq => hid (heq ▸ hm)
      · rw [← halike.thread k]
        exact mem_thread_memoryEvent hfold hkind k
      · rcases List.mem_append.1 hmem with hold | hnew
        · exact halike.unused' id hid' row hold
        · rw [List.mem_singleton.1 hnew]
          exact asStr_ne_of_not_mem hother hid'

end Append

/-! ## One call -/

theorem follows_fetchMemory {memoryIds : List String} {eventIds : List EventId}
    {memoryId : MemoryId} (hid : memoryId.asStr ∈ memoryIds) :
    Proc.Follows (Alike memoryIds eventIds) (Alike memoryIds eventIds)
      (fetchMemory memoryId) := by
  refine Proc.Follows.get (fun s t halike => ?_) fun s => ?_
  · have hrow : getMemory t.projections memoryId = getMemory s.projections memoryId := by
      unfold getMemory readRow
      rw [halike.memory _ hid]
    simp only [hrow]
  · split
    · exact .fail _
    · exact .fail _
    · exact .pure _

theorem keeps_fetchMemory (I : DomainStore → Prop) (memoryId : MemoryId) :
    Proc.Keeps I (fetchMemory memoryId) := by
  refine .bind .get fun s => ?_
  split
  · exact .fail _
  · exact .fail _
  · exact .pure _

section Journal

variable [LawfulWriter] {memoryIds : List String} {eventIds : List EventId} {eventId : EventId}
  {kind : DomainEventKind} {threadId : Option ThreadId} {turnId : Option TurnId}
  {fields : List (String × Scalar)} {occurredAt : UInt64} {memoryId : String}

/-- The event is about the memory its payload names. -/
theorem memoryIdOf_payload {payload : EventPayload}
    (hpayload : EventPayload.tryFrom (SerdeJsonWriter.toVec (.flat fields)) = .ok payload)
    (hnodup : (fields.map Prod.fst).Nodup) (hmem : ("memory_id", .string memoryId) ∈ fields) :
    memoryIdOf ⟨eventId, threadId, turnId, none, kind, payload, occurredAt⟩ = memoryId := by
  obtain ⟨v, hv, hget⟩ := EventPayload.getStr_of_tryFrom hnodup hpayload
  unfold memoryIdOf
  rw [extractJsonString_of_fromSlice hv, hget _ _ hmem, Option.getD_some]

theorem follows_journalMemory (hkind : isMemoryKind kind = true) (hnodup : (fields.map Prod.fst).Nodup)
    (hmem : ("memory_id", .string memoryId) ∈ fields) (hid : memoryId ∈ memoryIds)
    (hother : eventId ∉ eventIds) :
    Proc.Follows (Alike memoryIds (eventId :: eventIds)) (Alike memoryIds eventIds)
      (journalMemory eventId kind threadId turnId fields occurredAt) := by
  unfold journalMemory
  split
  · exact .fail _
  · rename_i payload hpayload
    exact follows_appendEvent hkind (memoryIdOf_payload hpayload hnodup hmem ▸ hid) hother

theorem keeps_journalMemory (hkind : isMemoryKind kind = true) (hnodup : (fields.map Prod.fst).Nodup)
    (hmem : ("memory_id", .string memoryId) ∈ fields) (hid : memoryId ∉ memoryIds)
    (hother : eventId ∉ eventIds) (s : DomainStore) :
    Proc.Keeps (Alike memoryIds eventIds s)
      (journalMemory eventId kind threadId turnId fields occurredAt) := by
  unfold journalMemory
  split
  · exact .fail _
  · rename_i payload hpayload
    exact keeps_appendEvent hkind (memoryIdOf_payload hpayload hnodup hmem ▸ hid) hother s

omit [SerdeJsonWriter] [LawfulWriter] in
theorem draftFields_nodup (memId : MemoryId) (draft : Domain.MemoryDraft) (state : String) :
    ((draftFields memId draft state).map Prod.fst).Nodup := by
  change List.Nodup ["memory_id", "content", "scope_kind", "scope_target", "kind", "state",
    "confidence", "sensitivity", "source", "explicit", "provenance_thread_id",
    "provenance_turn_id", "excerpt", "expires_at"]
  decide

omit [SerdeJsonWriter] [LawfulWriter] in
theorem mem_draftFields (memId : MemoryId) (draft : Domain.MemoryDraft) (state : String) :
    ("memory_id", .string memId.asStr) ∈ draftFields memId draft state := List.mem_cons_self ..

end Journal

/-! ## Two kinds of runs of a call -/

section Call

variable [LawfulWriter]

variable {draft : Domain.MemoryDraft}

variable {memoryIds : List String}

theorem follows_createMemoryWithKind {kind : DomainEventKind} {t : UInt64}
    (hkind : isMemoryKind kind = true)
    (hid : (draft.id.getD (generateMemoryId t 1)).asStr ∈ memoryIds) :
    Proc.Follows (Alike memoryIds [generateEventId t 1]) (Alike memoryIds [])
      (createMemoryWithKind draft kind t) := by
  refine .bind (.ofExcept _) fun _ => .bind ?_ fun _ => follows_fetchMemory hid
  exact follows_journalMemory hkind (draftFields_nodup ..) (mem_draftFields ..) hid nofun

theorem keeps_createMemoryWithKind {eventIds : List EventId} {kind : DomainEventKind} {t : UInt64}
    (hkind : isMemoryKind kind = true)
    (hid : (draft.id.getD (generateMemoryId t 1)).asStr ∉ memoryIds)
    (hother : generateEventId t 1 ∉ eventIds) (s : DomainStore) :
    Proc.Keeps (Alike memoryIds eventIds s) (createMemoryWithKind draft kind t) := by
  refine .bind (.ofExcept _) fun _ => .bind ?_ fun _ => keeps_fetchMemory _ _
  exact keeps_journalMemory hkind (draftFields_nodup ..) (mem_draftFields ..) hid hother s

section Move

variable {memoryIds : List String} {eventIds : List EventId} {verb : String}
  {required : MemoryState} {kind : DomainEventKind} {n : Nat} {memoryId : MemoryId}
  {fields : List (String × Scalar)} {t : UInt64}

theorem follows_moveMemory (hkind : isMemoryKind kind = true)
    (hnodup : ("memory_id" :: fields.map Prod.fst).Nodup) (hid : memoryId.asStr ∈ memoryIds) :
    Proc.Follows (Alike memoryIds [generateEventId t n]) (Alike memoryIds [])
      (moveMemory verb required kind n memoryId fields t) := by
  refine .bind (follows_fetchMemory hid) fun existing => ?_
  split
  · exact .fail _
  · refine .bind ?_ fun _ => follows_fetchMemory hid
    exact follows_journalMemory hkind hnodup (List.mem_cons_self ..) hid nofun

theorem keeps_moveMemory (hkind : isMemoryKind kind = true)
    (hnodup : ("memory_id" :: fields.map Prod.fst).Nodup) (hid : memoryId.asStr ∉ memoryIds)
    (hother : generateEventId t n ∉ eventIds) (s : DomainStore) :
    Proc.Keeps (Alike memoryIds eventIds s)
      (moveMemory verb required kind n memoryId fields t) := by
  refine .bind (keeps_fetchMemory _ _) fun existing => ?_
  split
  · exact .fail _
  · refine .bind ?_ fun _ => keeps_fetchMemory _ _
    refine keeps_journalMemory hkind ?_ (List.mem_cons_self ..) hid hother s
    exact hnodup

end Move

omit [SerdeJsonWriter] [LawfulWriter] in
theorem supersedeKeys_nodup : ["memory_id", "superseded_by"].Nodup := by decide

omit [SerdeJsonWriter] [LawfulWriter] in
theorem rejectKeys_nodup : ["memory_id", "reason"].Nodup := by decide

omit [SerdeJsonWriter] [LawfulWriter] in
theorem confirmKeys_nodup : ["memory_id"].Nodup := by decide

theorem follows_correctMemory {memoryId : MemoryId} {t : UInt64}
    (hid : memoryId.asStr ∈ memoryIds)
    (hnew : (draft.id.getD (generateMemoryId t 4)).asStr ∈ memoryIds) :
    Proc.Follows (Alike memoryIds [generateEventId t 5, generateEventId t 6]) (Alike memoryIds [])
      (correctMemory memoryId draft t) := by
  have hne : generateEventId t 5 ∉ [generateEventId t 6] := by
    rw [List.mem_singleton]
    intro heq
    exact absurd (generateEventId_inj (congrArg Id.asStr heq)).2 (by decide)
  refine .bind (.ofExcept _) fun _ => .bind (follows_fetchMemory hid) fun existing => ?_
  split
  · exact .fail _
  · refine .bind (follows_journalMemory rfl (draftFields_nodup ..) (mem_draftFields ..) hnew hne)
      fun _ => .bind (follows_journalMemory rfl ?_ (List.mem_cons_self ..) hid nofun)
      fun _ => follows_fetchMemory hnew
    exact supersedeKeys_nodup

theorem keeps_correctMemory {eventIds : List EventId} {memoryId : MemoryId} {t : UInt64}
    (hid : memoryId.asStr ∉ memoryIds)
    (hnew : (draft.id.getD (generateMemoryId t 4)).asStr ∉ memoryIds)
    (hother : generateEventId t 5 ∉ eventIds) (hother' : generateEventId t 6 ∉ eventIds)
    (s : DomainStore) :
    Proc.Keeps (Alike memoryIds eventIds s) (correctMemory memoryId draft t) := by
  refine .bind (.ofExcept _) fun _ => .bind (keeps_fetchMemory _ _) fun existing => ?_
  split
  · exact .fail _
  · refine .bind ?_ fun _ => .bind ?_ fun _ => keeps_fetchMemory _ _
    · exact keeps_journalMemory rfl (draftFields_nodup ..) (mem_draftFields ..) hnew hother s
    · refine keeps_journalMemory rfl ?_ (List.mem_cons_self ..) hid hother' s
      exact supersedeKeys_nodup

omit [SerdeJsonWriter] [LawfulWriter] in
theorem isMemoryKind_create (draft : Domain.MemoryDraft) :
    isMemoryKind (if draft.state = some .candidate then .memoryProposed else .memoryConfirmed) =
      true := by
  split <;> rfl

/-- A call does the same to its memories in every store that looks alike. -/
theorem MemoryCall.follows (c : MemoryCall) :
    Proc.Follows (Alike (c.memories.map Id.asStr) c.eventIds) (Alike (c.memories.map Id.asStr) [])
      c.exec := by
  cases c with
  | propose draft t => exact follows_createMemoryWithKind rfl (List.mem_cons_self ..)
  | create draft t =>
    exact follows_createMemoryWithKind (isMemoryKind_create draft) (List.mem_cons_self ..)
  | confirm memoryId t =>
    exact follows_moveMemory rfl confirmKeys_nodup (List.mem_cons_self ..)
  | reject memoryId reason t =>
    exact follows_moveMemory rfl rejectKeys_nodup (List.mem_cons_self ..)
  | correct memoryId draft t =>
    exact follows_correctMemory (List.mem_cons_self ..)
      (List.mem_cons_of_mem _ (List.mem_cons_self ..))
  | forget memoryId t =>
    exact follows_moveMemory rfl confirmKeys_nodup (List.mem_cons_self ..)

/-- A call leaves alone what a call on other memories sees. -/
theorem MemoryCall.keeps {c : MemoryCall} {eventIds : List EventId}
    (hids : ∀ m ∈ c.memories, m.asStr ∉ memoryIds) (hother : ∀ id ∈ c.eventIds, id ∉ eventIds)
    (s : DomainStore) : Proc.Keeps (Alike memoryIds eventIds s) c.exec := by
  cases c <;> simp only [MemoryCall.memories, MemoryCall.eventIds, List.forall_mem_cons] at hids hother
  case propose draft t =>
    refine keeps_createMemoryWithKind rfl ?_ hother.1 s
    exact hids.1
  case create draft t =>
    exact keeps_createMemoryWithKind (isMemoryKind_create draft) hids.1 hother.1 s
  case correct memoryId draft t => exact keeps_correctMemory hids.1 hids.2.1 hother.1 hother.2.1 s
  case confirm memoryId t =>
    refine keeps_moveMemory rfl ?_ hids.1 hother.1 s
    exact confirmKeys_nodup
  case reject memoryId reason t =>
    refine keeps_moveMemory rfl ?_ hids.1 hother.1 s
    exact rejectKeys_nodup
  case forget memoryId t =>
    refine keeps_moveMemory rfl ?_ hids.1 hother.1 s
    exact confirmKeys_nodup

end Call

/-! ## Runs of calls -/

/-- A store under memory operations. -/
def callMachine : Machine DomainStore MemoryCall := ⟨.empty, fun s c => c.after s⟩

/-- The tables allow the call: it succeeds on them when nothing was journalled. -/
def Allowed (s : DomainStore) (c : MemoryCall) : Prop :=
  ∃ record, c.result ⟨[], s.projections, s.marker⟩ = .done record

instance (s : DomainStore) (c : MemoryCall) : Decidable (Allowed s c) :=
  decidable_of_iff _ Ending.isDone_iff

/-- Every call returns what it returns alone, and leaves its memories at the end of the
run as it leaves them alone. -/
def Undisturbed (s : DomainStore) (calls : List MemoryCall) : Prop :=
  ∀ before c after, calls = before ++ c :: after →
    ∃ record, c.result s = .done record ∧ c.result (callMachine.runFrom s before) = .done record ∧
      ∀ m ∈ c.memories, (callMachine.runFrom s calls).projections.memory[m.asStr]? =
        (c.after s).projections.memory[m.asStr]?

/-- No event was journalled under an identifier of the call. -/
def Unused (s : DomainStore) (c : MemoryCall) : Prop :=
  ∀ id ∈ c.eventIds, ∀ row ∈ s.journal, row.eventId ≠ id.asStr

omit [SerdeJsonWriter] in
instance (s : DomainStore) (c : MemoryCall) : Decidable (Unused s c) :=
  inferInstanceAs (Decidable (∀ id ∈ c.eventIds, ∀ row ∈ s.journal, row.eventId ≠ id.asStr))

/-- Two calls that share neither a memory nor an event identifier. -/
structure MemoryCall.Apart (a b : MemoryCall) : Prop where
  memories : ∀ m ∈ a.memories, m ∉ b.memories
  eventIds : ∀ id ∈ a.eventIds, id ∉ b.eventIds

omit [SerdeJsonWriter] in
theorem MemoryCall.Apart.symm {a b : MemoryCall} (h : a.Apart b) : b.Apart a :=
  ⟨fun m hm hm' => h.memories m hm' hm, fun id hid hid' => h.eventIds id hid' hid⟩

omit [SerdeJsonWriter] in
/-- An identifier made up for a memory is told apart by the event that creates it. -/
theorem MemoryCall.made_cases {c : MemoryCall} {m : MemoryId} (h : c.made = some m) :
    ∃ t, (m = generateMemoryId t 1 ∧ generateEventId t 1 ∈ c.eventIds) ∨
      (m = generateMemoryId t 4 ∧ generateEventId t 5 ∈ c.eventIds) := by
  cases c with
  | propose draft t | create draft t =>
    obtain ⟨-, ⟨⟩⟩ := Option.ite_none_right_eq_some.1 h
    exact ⟨t, .inl ⟨rfl, List.mem_cons_self ..⟩⟩
  | correct memoryId draft t =>
    obtain ⟨-, ⟨⟩⟩ := Option.ite_none_right_eq_some.1 h
    exact ⟨t, .inr ⟨rfl, List.mem_cons_self ..⟩⟩
  | confirm memoryId t | reject memoryId reason t | forget memoryId t => cases h

omit [SerdeJsonWriter] in
theorem generateEventId_congr {t t' : UInt64} (h : Domain.hex16 t = Domain.hex16 t') (n : Nat) :
    generateEventId t n = generateEventId t' n := by
  apply Id.asStr_inj.1
  simp only [generateEventId, syntheticBody, h]

omit [SerdeJsonWriter] in
/-- Calls on different memories under different event identifiers are apart: the
identifiers made up for two new memories differ with those of their events. -/
theorem MemoryCall.Different.apart {a b : MemoryCall} (h : a.Different b)
    (hids : ∀ id ∈ a.eventIds, id ∉ b.eventIds) : a.Apart b := by
  refine ⟨fun m hm hm' => ?_, hids⟩
  obtain ⟨hmade, hmade'⟩ := h m hm hm'
  obtain ⟨t, ⟨rfl, hid⟩ | ⟨rfl, hid⟩⟩ := made_cases hmade <;>
    obtain ⟨t', ⟨heq, hid'⟩ | ⟨heq, hid'⟩⟩ := made_cases hmade' <;>
    obtain ⟨htime, hnumber⟩ := generateMemoryId_inj (congrArg Id.asStr heq)
  · exact hids _ hid (generateEventId_congr htime 1 ▸ hid')
  · exact absurd hnumber (by decide)
  · exact absurd hnumber (by decide)
  · exact hids _ hid (generateEventId_congr htime 5 ▸ hid')

section Run

variable [LawfulWriter]

/-- What a call sees is kept by a run of calls that are apart from it. -/
theorem alike_run {c : MemoryCall} {eventIds : List EventId} (hsub : eventIds ⊆ c.eventIds)
    {calls : List MemoryCall} (hapart : ∀ a ∈ calls, a.Apart c) {s t : DomainStore}
    (h : Alike (c.memories.map Id.asStr) eventIds s t) :
    Alike (c.memories.map Id.asStr) eventIds s (callMachine.runFrom t calls) := by
  induction calls generalizing t with
  | nil => exact h
  | cons a calls ih =>
    have ha := hapart a (List.mem_cons_self ..)
    have hids : ∀ m ∈ a.memories, m.asStr ∉ c.memories.map Id.asStr := by
      intro m hm hmem
      obtain ⟨m', hm', heq⟩ := List.mem_map.1 hmem
      exact ha.memories m hm (Id.asStr_inj.1 heq ▸ hm')
    have hstep := a.keeps hids (fun id hid hid' => ha.eventIds id hid (hsub hid')) s
    exact ih (fun b hb => hapart b (List.mem_cons_of_mem a hb)) (hstep.state (n := none) h)

end Run

end Store

/-! ## Two memories at one time -/

section Sample

attribute [local instance] flatWriter

/-- A memory about the user. -/
def sampleDraft (id : MemoryId) : Domain.MemoryDraft where
  id := some id
  content := ⟨"likes tea".toList, by decide, by decide, by decide⟩
  scope := .global
  kind := .fact
  state := none
  confidence := 90
  sensitivity := .normal
  source := .explicit
  provenance := ⟨none, none, none⟩
  expiresAt := none

def teaId : MemoryId := ⟨"mem_fixture00000000t", by decide⟩

def milkId : MemoryId := ⟨"mem_fixture00000000k", by decide⟩

/-- Two candidates, proposed one after the other. -/
def sampleCandidates : DomainStore :=
  callMachine.run [.propose (sampleDraft teaId) 1, .propose (sampleDraft milkId) 2]

end Sample

end Altior.Storage
