import Altior.Application.Publication
import Altior.Storage.History

/-!
# History

A page of the history of a thread (`handle_get_history` and `journal_row_to_entry` of
`altior-core/src/application/daemon.rs`): the first turns, and the newest rows of the
journal before a cursor, each as an entry.  Every row has an entry, so a client that
follows the cursors finds the whole journal as long as each page fits into its envelope.
-/

namespace Altior.Application

open Domain Lib Altior.Runtime Storage

/-! ## Entries -/

/-- A record of the timeline. -/
inductive HistoryEntryDto
  | userMessage (eventId : EventId) (turnId : TurnId) (seq : UInt64) (text : String)
      (occurredAt : UInt64)
  | assistantDelta (eventId : EventId) (turnId : TurnId) (seq : UInt64) (text : String)
      (occurredAt : UInt64)
  | permission (eventId : EventId) (turnId : TurnId) (seq : UInt64)
      (permissionKind description decision : String) (occurredAt : UInt64)
  | permissionDecision (eventId permissionEventId : EventId) (turnId : TurnId) (seq : UInt64)
      (decision : String) (occurredAt : UInt64)
  | turnState (eventId : EventId) (turnId : TurnId) (seq : UInt64) (state : String)
      (reason delivery : Option String) (occurredAt : UInt64)
  | unknown (eventId : EventId) (seq : UInt64) (kind diagnostic : String)
deriving DecidableEq

namespace HistoryEntryDto

def seq : HistoryEntryDto → UInt64
  | userMessage _ _ seq _ _ | assistantDelta _ _ seq _ _ | permission _ _ seq _ _ _ _
  | permissionDecision _ _ _ seq _ _ | turnState _ _ seq _ _ _ _ | unknown _ seq _ _ => seq

/-- A number of a payload. -/
def uint (n : UInt64) : Scalar := .number (.posInt n)

/-- A text of a payload that may be missing. -/
def optional (s : Option String) : Scalar := s.elim .null .string

def toJson : HistoryEntryDto → Json
  | userMessage eventId turnId seq text occurredAt =>
    .flat [("entry_kind", .string "user_message"), ("event_id", .string eventId.asStr),
      ("turn_id", .string turnId.asStr), ("seq", uint seq), ("text", .string text),
      ("occurred_at", uint occurredAt)]
  | assistantDelta eventId turnId seq text occurredAt =>
    .flat [("entry_kind", .string "assistant_delta"), ("event_id", .string eventId.asStr),
      ("turn_id", .string turnId.asStr), ("seq", uint seq), ("text", .string text),
      ("occurred_at", uint occurredAt)]
  | permission eventId turnId seq permissionKind description decision occurredAt =>
    .flat [("entry_kind", .string "permission"), ("event_id", .string eventId.asStr),
      ("turn_id", .string turnId.asStr), ("seq", uint seq),
      ("permission_kind", .string permissionKind), ("description", .string description),
      ("decision", .string decision), ("occurred_at", uint occurredAt)]
  | permissionDecision eventId permissionEventId turnId seq decision occurredAt =>
    .flat [("entry_kind", .string "permission_decision"), ("event_id", .string eventId.asStr),
      ("permission_event_id", .string permissionEventId.asStr),
      ("turn_id", .string turnId.asStr), ("seq", uint seq), ("decision", .string decision),
      ("occurred_at", uint occurredAt)]
  | turnState eventId turnId seq state reason delivery occurredAt =>
    .flat [("entry_kind", .string "turn_state"), ("event_id", .string eventId.asStr),
      ("turn_id", .string turnId.asStr), ("seq", uint seq), ("state", .string state),
      ("reason", optional reason), ("delivery", optional delivery),
      ("occurred_at", uint occurredAt)]
  | unknown eventId seq kind diagnostic =>
    .flat [("entry_kind", .string "unknown"), ("event_id", .string eventId.asStr),
      ("seq", uint seq), ("kind", .string kind), ("diagnostic", .string diagnostic)]

end HistoryEntryDto

open HistoryEntryDto (uint optional)

/-- The bound of a text that is read back, in bytes. -/
def entryTextBytes : Nat := 64 * 1024

/-- The bound of the payload in the diagnostic of an unknown entry, in bytes. -/
def unknownEntryDiagnosticBytes : Nat := 512

/-- The longest part from the start that fits in a number of bytes. -/
def cutText (bytes : Nat) (text : String) : String := String.ofList (cutAt bytes text.toList)

def entryText (value : Option String) : String := cutText entryTextBytes (value.getD "")

/-- The event of a row whose identifier does not parse. -/
def fallbackEventId : EventId := ⟨"evt_fallback00000001", by decide⟩

section Writer

variable [SerdeJsonWriter]

section Row

variable (row : DomainJournalRow)

def rowSeq : UInt64 := (columnSeq row.seq).getD 0

def rowOccurredAt : UInt64 := (columnSeq row.occurredAt).getD 0

def rowEventId : EventId := (Id.parse "evt_" row.eventId).toOption.getD fallbackEventId

def rowTurnId : Option TurnId := row.turnId.bind fun turnId => (Id.parse "trn_" turnId).toOption

def rowPayload : Json := (SerdeJson.fromSlice row.payload).getD (.scalar .null)

/-- The entry of a turn that ended. -/
def turnStateEntry (state : String) : Option HistoryEntryDto :=
  (rowTurnId row).map fun turnId =>
    .turnState (rowEventId row) turnId (rowSeq row) state
      ((((rowPayload row).getStr "reason").map fun reason => entryText (some reason)).filter
        fun reason => !reason.isEmpty)
      ((rowPayload row).getStr "delivery") (rowOccurredAt row)

/-- The entry of a row whose kind and payload are known. -/
def projectedEntry : Option HistoryEntryDto :=
  if row.kind = "turn.started" then
    (rowTurnId row).map fun turnId => .userMessage (rowEventId row) turnId (rowSeq row)
      (entryText ((rowPayload row).getStr "content")) (rowOccurredAt row)
  else if row.kind = "message.delta" then
    (rowTurnId row).map fun turnId => .assistantDelta (rowEventId row) turnId (rowSeq row)
      (entryText ((rowPayload row).getStr "text")) (rowOccurredAt row)
  else if row.kind = "permission.requested" then
    (rowTurnId row).map fun turnId => .permission (rowEventId row) turnId (rowSeq row)
      (((rowPayload row).getStr "permission_kind").getD "unknown")
      (entryText ((rowPayload row).getStr "description")) "pending" (rowOccurredAt row)
  else if row.kind = "permission.decided" then
    (rowTurnId row).bind fun turnId =>
      (((rowPayload row).getStr "permission_event_id").bind fun s =>
        (Id.parse "evt_" s).toOption).map fun permissionEventId =>
          .permissionDecision (rowEventId row) permissionEventId turnId (rowSeq row)
            (((rowPayload row).getStr "decision").getD "pending") (rowOccurredAt row)
  else if row.kind = "turn.completed" then turnStateEntry row "completed"
  else if row.kind = "turn.cancelled" then turnStateEntry row "cancelled"
  else if row.kind = "turn.failed" then turnStateEntry row "failed"
  else none

/-- The entry of a row; what cannot be projected is kept as a bounded diagnostic. -/
def journalRowToEntry : HistoryEntryDto :=
  (projectedEntry row).getD (.unknown (rowEventId row) (rowSeq row) row.kind
    ("unprojectable journal row: kind=" ++ row.kind ++ ", payload=" ++
      cutText unknownEntryDiagnosticBytes (SerdeJsonWriter.text row.payload)))

end Row

/-! ## Turns -/

structure TurnDto where
  id : TurnId
  threadId : ThreadId
  state : String
  deliveryState : String
  operationId : Option OperationId
  startedAt : UInt64
  endedAt : Option UInt64
deriving DecidableEq

def TurnDto.toJson (turn : TurnDto) : Json :=
  .flat [("id", .string turn.id.asStr), ("thread_id", .string turn.threadId.asStr),
    ("state", .string turn.state), ("delivery_state", .string turn.deliveryState),
    ("operation_id", optional (turn.operationId.map Id.asStr)), ("started_at", uint turn.startedAt),
    ("ended_at", turn.endedAt.elim .null uint)]

/-- Parses an identifier. -/
def parseId (pre s : String) : Except CoreAppError (Id pre) := (Id.parse pre s).mapError .id

/-- A time that is not negative converts. -/
def turnRowToDto (r : String × TurnRow) : Except CoreAppError TurnDto := do
  let id ← parseId "trn_" r.1
  let threadId ← parseId "thr_" r.2.threadId
  let operationId ← r.2.operationId.mapM (parseId "op_")
  if r.2.startedAt < 0 ∨ r.2.endedAt.any (· < 0) then
    .error (.invalidInput "Negative timestamp in turn row")
  else
    pure
      { id := id, threadId := threadId, state := r.2.state, deliveryState := r.2.delivery
        operationId := operationId, startedAt := .ofNat r.2.startedAt.toNat
        endedAt := r.2.endedAt.map fun endedAt => .ofNat endedAt.toNat }

/-! ## Pages -/

/-- Payload of `get_history`. -/
structure GetHistoryCommand where
  threadId : ThreadId
  cursor : Option (UInt64 × TurnId)
  limit : Option UInt32
  beforeSeq : Option UInt64

structure ThreadHistoryResponse where
  threadId : ThreadId
  turns : List TurnDto
  nextCursor : Option (UInt64 × TurnId)
  hasMore : Bool
  entries : List HistoryEntryDto
  nextSeqCursor : Option UInt64
  highWaterSeq : Option UInt64

/-- What is missing at the end of a page is left out of its payload. -/
def ThreadHistoryResponse.toJson (dto : ThreadHistoryResponse) : Json :=
  .object ([("thread_id", .scalar (.string dto.threadId.asStr)),
      ("turns", .array (dto.turns.map TurnDto.toJson)),
      ("next_cursor", dto.nextCursor.elim (.scalar .null) fun c =>
        .flat [("started_at", uint c.1), ("turn_id", .string c.2.asStr)]),
      ("has_more", .scalar (.bool dto.hasMore))]
    ++ (if dto.entries.isEmpty then []
      else [("entries", .array (dto.entries.map HistoryEntryDto.toJson))])
    ++ dto.nextSeqCursor.toList.map (fun seq => ("next_seq_cursor", .flat [("seq", uint seq)]))
    ++ dto.highWaterSeq.toList.map fun seq => ("high_water_seq", .scalar (uint seq)))

/-- The page size of a command without one. -/
def defaultHistoryLimit : UInt32 := 50

/-- `TurnListLimit::try_new`. -/
def turnListLimit (value : UInt32) : Except CoreAppError Nat :=
  if value = 0 ∨ turnListLimitMax < value.toNat then
    .error (.other ("turn list limit " ++ toString value ++ " is outside 1..=" ++
      toString turnListLimitMax))
  else .ok value.toNat

/-- A page of the turns of a thread. -/
def turnDtos (s : Store) (threadId : ThreadId) (after : Option (UInt64 × TurnId)) (limit : Nat) :
    Except CoreAppError (List TurnDto) :=
  (turnPage s.domain.projections threadId after limit).mapM turnRowToDto

/-- A page of history made of its turns and its rows, the oldest first. -/
def historyPage (s : Store) (threadId : ThreadId) (limit : Nat) (turns : List TurnDto)
    (rows : List DomainJournalRow) (highWater : Option UInt64) : ThreadHistoryResponse :=
  let entries := rows.map journalRowToEntry
  let nextSeqCursor := entries.head?.map HistoryEntryDto.seq
  { threadId := threadId
    turns := turns
    nextCursor := turns.getLast?.map fun turn => (turn.startedAt, turn.id)
    hasMore := turns.length == limit ||
      nextSeqCursor.any fun seq => journalHasOlder s.domain threadId.asStr seq
    entries := entries
    nextSeqCursor := nextSeqCursor
    highWaterSeq := highWater }

/-- The closure of `handle_get_history`. -/
def getHistory (s : Store) (payload : GetHistoryCommand) :
    Except CoreAppError ThreadHistoryResponse := do
  let limit ← turnListLimit (payload.limit.getD defaultHistoryLimit)
  let turns ← turnDtos s payload.threadId payload.cursor limit
  let (rows, highWater) := journalEventsForThread s.domain payload.threadId.asStr payload.beforeSeq limit
  pure (historyPage s payload.threadId limit turns rows highWater)

/-- A page that fits into its envelope. -/
def historyReply (s : Store) (payload : GetHistoryCommand) :
    Except CoreAppError ThreadHistoryResponse := do
  let dto ← getHistory s payload
  let _ ← boundedPayload dto.toJson
  pure dto

/-! ## Replies -/

/-- The entry of a row is numbered as the row. -/
theorem seq_journalRowToEntry (row : DomainJournalRow) : (journalRowToEntry row).seq = rowSeq row := by
  have hended : ∀ state entry, turnStateEntry row state = some entry → entry.seq = rowSeq row := by
    intro state entry h
    obtain ⟨turnId, -, rfl⟩ := Option.map_eq_some_iff.1 h
    rfl
  unfold journalRowToEntry
  cases hentry : projectedEntry row with
  | none => rfl
  | some entry =>
    rw [Option.getD_some]
    unfold projectedEntry at hentry
    split at hentry
    · obtain ⟨turnId, -, rfl⟩ := Option.map_eq_some_iff.1 hentry
      rfl
    split at hentry
    · obtain ⟨turnId, -, rfl⟩ := Option.map_eq_some_iff.1 hentry
      rfl
    split at hentry
    · obtain ⟨turnId, -, rfl⟩ := Option.map_eq_some_iff.1 hentry
      rfl
    split at hentry
    · obtain ⟨turnId, -, hentry⟩ := Option.bind_eq_some_iff.1 hentry
      obtain ⟨permissionEventId, -, rfl⟩ := Option.map_eq_some_iff.1 hentry
      rfl
    split at hentry
    · exact hended _ _ hentry
    split at hentry
    · exact hended _ _ hentry
    split at hentry
    · exact hended _ _ hentry
    · cases hentry

/-- A number of the journal goes through a cursor unchanged. -/
theorem boundSeq_rowSeq {row : DomainJournalRow} (hpos : 0 < row.seq) (hmax : row.seq ≤ i64Max) :
    boundSeq (some (rowSeq row)) = row.seq := by
  have hlt : row.seq.toNat < UInt64.size := by
    have hmax' : (i64Max : Int) < UInt64.size := by decide
    omega
  have hnat : (UInt64.ofNat row.seq.toNat).toNat = row.seq.toNat := UInt64.toNat_ofNat_of_lt' hlt
  have hfits : row.seq.toNat ≤ i64Max := by omega
  unfold boundSeq rowSeq columnSeq
  rw [if_pos hpos.le, Option.getD_some, Option.bind_some, hnat, if_pos hfits, Option.getD_some]
  omega

omit [SerdeJsonWriter] in
theorem parseId_asStr {pre : String} (id : Id pre) : parseId pre id.asStr = .ok id := by
  unfold parseId
  rw [Id.parse_asStr]
  rfl

variable {s : Store} {size : Option UInt32}

/-- A turn of a thread can be handed out. -/
theorem exists_turnDto (h : ContentAdmitted s) {threadId : ThreadId} {r : String × TurnRow}
    (hr : r ∈ s.domain.projections.turn.toList.filter fun r => r.2.threadId == threadId.asStr) :
    ∃ turn, turnRowToDto r = .ok turn := by
  have hcolumns := h.domain.columns
  obtain ⟨hrow, hthread⟩ := mem_rows.1 hr
  obtain ⟨id, hid⟩ := hcolumns.turn.key r.1 r.2 hrow
  have hstarted := (hcolumns.turn.time r.1 r.2 hrow).1
  have hparses := hcolumns.turnRows r.1 r.2 hrow
  have hoperation : ∃ operationId, r.2.operationId.mapM (parseId "op_") = .ok operationId := by
    cases hop : r.2.operationId with
    | none => exact ⟨none, rfl⟩
    | some op =>
      obtain ⟨operationId, rfl⟩ := hparses.operation op hop
      exact ⟨some operationId, by rw [Option.mapM_some, parseId_asStr]; rfl⟩
  obtain ⟨operationId, hoperation⟩ := hoperation
  have htimes : ¬ (r.2.startedAt < 0 ∨ r.2.endedAt.any (· < 0) = true) := by
    rintro (hlt | hany)
    · omega
    · cases hended : r.2.endedAt with
      | none => simp [hended] at hany
      | some t =>
        have hle := (hparses.ended t hended).1
        rw [hended, Option.any_some, decide_eq_true_eq] at hany
        omega
  unfold turnRowToDto
  rw [← hid, parseId_asStr, beq_iff_eq.1 hthread, parseId_asStr, hoperation]
  exact ⟨_, if_neg htimes⟩

/-- The turns of a store can be handed out. -/
theorem exists_turnDtos (h : ContentAdmitted s) (threadId : ThreadId)
    (after : Option (UInt64 × TurnId)) (limit : Nat) :
    ∃ turns, turnDtos s threadId after limit = .ok turns := by
  refine Keyset.exists_mapM_iff.2 fun r hr => ?_
  exact exists_turnDto h (List.mem_filter.1 (List.mem_mergeSort.1 (List.mem_of_mem_take hr))).1

theorem length_turnDtos {threadId : ThreadId} {after : Option (UInt64 × TurnId)} {limit : Nat}
    {turns : List TurnDto} (h : turnDtos s threadId after limit = .ok turns) :
    turns.length = (turnPage s.domain.projections threadId after limit).length :=
  (Keyset.mapM_eq_ok_iff.1 h).length_eq.symm

/-! ## Walks -/

/-- What a client reads of a page to go on. -/
def ThreadHistoryResponse.reply (dto : ThreadHistoryResponse) :
    Backward.Reply HistoryEntryDto UInt64 :=
  ⟨dto.entries, dto.nextSeqCursor, dto.hasMore⟩

/-- What request number `k` of a walk is answered with, over the stores the requests find. -/
def serveHistory (stores : Nat → Store) (threadId : ThreadId) (limit : Option UInt32) (k : Nat)
    (beforeSeq : Option UInt64) : Except CoreAppError (Backward.Reply HistoryEntryDto UInt64) :=
  (historyReply (stores k) ⟨threadId, none, limit, beforeSeq⟩).map ThreadHistoryResponse.reply

/-- The stores the requests of a walk find: whatever happens happens between two of them. -/
def storeAt (s : Store) (happens : Nat → List ContentInput) : Nat → Store
  | 0 => s
  | k + 1 => contentMachine.runFrom (storeAt s happens k) (happens k)

@[simp] theorem storeAt_zero (s : Store) (happens : Nat → List ContentInput) :
    storeAt s happens 0 = s := rfl

/-- The rows of a thread, the newest first. -/
def threadRows (s : Store) (threadId : ThreadId) : List DomainJournalRow :=
  (s.domain.journal.filter fun row => row.threadId == some threadId.asStr).reverse

/-- **A backward walk reconstructs the journal of a thread**: it ends, and its pages, each put
before the ones found earlier, are the entries of all rows the thread had at its start. -/
def Reconstructs (stores : Nat → Store) (threadId : ThreadId) (limit : Option UInt32) : Prop :=
  Backward.Exact (serveHistory stores threadId limit) journalRowToEntry
    (threadRows (stores 0) threadId)

/-- The first turns of the thread fill their page. -/
def turnsFull (s : Store) (threadId : ThreadId) (limit : Nat) : Bool :=
  (turnPage s.domain.projections threadId none limit).length == limit

/-- The page with these rows, the newest first, fits into its envelope. -/
def PageFits (s : Store) (threadId : ThreadId) (limit : Nat) (rows : List DomainJournalRow) : Prop :=
  ∀ turns, turnDtos s threadId none limit = .ok turns →
    fits (historyPage s threadId limit turns rows.reverse
      (journalHighWater s.domain threadId.asStr)).toJson = true

/-- The pages a walk asks for fit, and the number of every row is below the bound a walk
begins at. -/
structure PagesFit (stores : Nat → Store) (threadId : ThreadId) (limit : Nat) : Prop where
  numbers : ∀ row ∈ threadRows (stores 0) threadId, row.seq < i64Max
  pages : ∀ k, Backward.Asked (threadRows (stores 0) threadId) limit
      (fun j => turnsFull (stores j) threadId limit) k →
    PageFits (stores k) threadId limit (Backward.page (threadRows (stores 0) threadId) limit k)

/-- What the stores of a walk have in common. -/
structure Visited (stores : Nat → Store) : Prop where
  numbered : ∀ k, Numbered (stores k).domain.journal
  admitted : ∀ k, ContentAdmitted (stores k)
  grown : ∀ k, JournalExtends (stores 0).domain.journal (stores k).domain.journal

theorem visited_storeAt (inputs : List ContentInput) (happens : Nat → List ContentInput) :
    Visited (storeAt (contentMachine.run inputs) happens) := by
  have hrun : ∀ k, ∃ inputs', storeAt (contentMachine.run inputs) happens k =
      contentMachine.run inputs' := by
    intro k
    induction k with
    | zero => exact ⟨inputs, rfl⟩
    | succ k ih =>
      obtain ⟨inputs', h⟩ := ih
      refine ⟨inputs' ++ happens k, ?_⟩
      rw [Machine.run_append, ← h]
      rfl
  refine ⟨fun k => ?_, fun k => ?_, fun k => ?_⟩
  · obtain ⟨inputs', h⟩ := hrun k
    rw [h]
    exact numbered_run inputs'
  · obtain ⟨inputs', h⟩ := hrun k
    rw [h]
    exact contentAdmitted_run inputs'
  · induction k with
    | zero => exact .refl _
    | succ k ih => exact ih.trans (extends_runFrom _ _)

omit [SerdeJsonWriter] in
/-- A valid page size. -/
theorem turnListLimit_eq_ok {value : UInt32} {n : Nat} (h : turnListLimit value = .ok n) :
    0 < n ∧ value.toNat = n := by
  unfold turnListLimit at h
  split at h
  · cases h
  · rename_i hvalid
    cases h
    refine ⟨Nat.pos_of_ne_zero fun hzero => hvalid (.inl ?_), rfl⟩
    exact UInt32.toNat_inj.1 hzero

/-- How a request is answered: with the page, if it fits. -/
theorem historyReply_eq {payload : GetHistoryCommand} {limit : Nat} {turns : List TurnDto}
    (hlimit : turnListLimit (payload.limit.getD defaultHistoryLimit) = .ok limit)
    (hturns : turnDtos s payload.threadId payload.cursor limit = .ok turns)
    {rows : List DomainJournalRow} {dto : ThreadHistoryResponse}
    (hrows : (journalEventsForThread s.domain payload.threadId.asStr payload.beforeSeq limit).1 = rows)
    (hdto : historyPage s payload.threadId limit turns rows
      (journalHighWater s.domain payload.threadId.asStr) = dto) :
    historyReply s payload = (boundedPayload dto.toJson).map fun _ => dto := by
  have hget : getHistory s payload = .ok dto := by
    unfold getHistory
    rw [hlimit]
    change (turnDtos s payload.threadId payload.cursor limit >>= _) = _
    rw [hturns, ← hdto, ← hrows]
    rfl
  unfold historyReply
  rw [hget]
  change (boundedPayload dto.toJson >>= fun _ => Except.ok dto) = _
  cases boundedPayload dto.toJson <;> rfl

theorem rowsBefore_eq_filter (s : Store) (threadId : ThreadId) (bound : Int) :
    rowsBefore s.domain.journal threadId.asStr bound =
      (threadRows s threadId).filter fun row => row.seq < bound := by
  unfold rowsBefore threadRows
  rw [List.filter_reverse, List.filter_filter]
  congr 1
  exact List.filter_congr fun row _ => Bool.and_comm _ _

/-- The rows a walk can come to. -/
theorem rowsBefore_all {threadId : ThreadId} (h : ∀ row ∈ threadRows s threadId, row.seq < i64Max) :
    rowsBefore s.domain.journal threadId.asStr i64Max = threadRows s threadId := by
  rw [rowsBefore_eq_filter]
  exact List.filter_eq_self.2 fun row hrow => decide_eq_true (h row hrow)

section Walk

variable {stores : Nat → Store} {threadId : ThreadId} {limit : Nat} {rows : List DomainJournalRow}

/-- Behind the place of a page with rows lie the rows that are still missing, in every store
of the walk. -/
theorem Visited.rowsBefore_place (h : Visited stores) (hlimit : 0 < limit)
    (hrows : rowsBefore (stores 0).domain.journal threadId.asStr i64Max = rows) {j : Nat}
    (hj : j * limit < rows.length) (k : Nat) :
    rowsBefore (stores k).domain.journal threadId.asStr
      (boundSeq (Backward.place rowSeq rows limit (j + 1))) = rows.drop ((j + 1) * limit) := by
  have htake : rows.take ((j + 1) * limit) ≠ [] := by
    rw [ne_eq, List.take_eq_nil_iff, not_or, Nat.succ_mul]
    exact ⟨by omega, fun hnil => by simp [hnil] at hj⟩
  obtain ⟨front, row, hfront⟩ := (List.eq_nil_or_concat _).resolve_left htake
  rw [List.concat_eq_append] at hfront
  have hsplit : rowsBefore (stores 0).domain.journal threadId.asStr i64Max =
      front ++ row :: rows.drop ((j + 1) * limit) := by
    rw [List.append_cons, ← hfront, List.take_append_drop, hrows]
  have hmem : row ∈ rowsBefore (stores 0).domain.journal threadId.asStr i64Max := by
    rw [hsplit]
    exact List.mem_append_right _ List.mem_cons_self
  obtain ⟨hjournal, -, hmax⟩ := mem_rowsBefore.1 hmem
  have hplace : Backward.place rowSeq rows limit (j + 1) = some (rowSeq row) := by
    unfold Backward.place
    rw [hfront, List.getLast?_concat, Option.map_some]
  rw [hplace, boundSeq_rowSeq ((h.numbered 0).positive hjournal) hmax.le,
    (h.numbered k).rowsBefore_extends (h.grown k) hjournal]
  exact (h.numbered 0).rowsBefore_row hsplit

/-- A request that is made finds the rows that are still missing. -/
theorem Visited.rowsBefore_asked (h : Visited stores) (hlimit : 0 < limit)
    (hrows : rowsBefore (stores 0).domain.journal threadId.asStr i64Max = rows)
    {other : Nat → Bool} {k : Nat} (hk : Backward.Asked rows limit other k) :
    rowsBefore (stores k).domain.journal threadId.asStr
      (boundSeq (Backward.place rowSeq rows limit k)) = rows.drop (k * limit) := by
  cases k with
  | zero =>
    rw [Backward.place_zero, Nat.zero_mul, List.drop_zero]
    exact hrows
  | succ j => exact h.rowsBefore_place hlimit hrows (Backward.asked_succ_iff.1 hk).1 (j + 1)

/-- What a request that is made is answered with. -/
theorem Visited.serveHistory_eq (h : Visited stores)
    (hsize : turnListLimit (size.getD defaultHistoryLimit) = .ok limit)
    (hrows : rowsBefore (stores 0).domain.journal threadId.asStr i64Max = rows)
    {other : Nat → Bool} {k : Nat} (hk : Backward.Asked rows limit other k) :
    ∃ turns dto, turnDtos (stores k) threadId none limit = .ok turns ∧
      historyPage (stores k) threadId limit turns (Backward.page rows limit k).reverse
        (journalHighWater (stores k).domain threadId.asStr) = dto ∧
      serveHistory stores threadId size k (Backward.place rowSeq rows limit k) =
        (boundedPayload dto.toJson).map fun _ => dto.reply := by
  obtain ⟨turns, hturns⟩ := exists_turnDtos (h.admitted k) threadId none limit
  refine ⟨turns, _, hturns, rfl, ?_⟩
  have hpage : (journalEventsForThread (stores k).domain threadId.asStr
      (Backward.place rowSeq rows limit k) limit).1 = (Backward.page rows limit k).reverse := by
    rw [(h.numbered k).journalEventsForThread_fst,
      h.rowsBefore_asked (turnListLimit_eq_ok hsize).1 hrows hk]
    rfl
  have hreply : historyReply (stores k)
      ⟨threadId, none, size, Backward.place rowSeq rows limit k⟩ = _ :=
    historyReply_eq hsize hturns hpage rfl
  unfold serveHistory
  rw [hreply]
  generalize boundedPayload _ = data
  cases data <;> rfl

/-- The cursor of a page is the number of its oldest row. -/
theorem nextSeqCursor_historyPage (s : Store) (turns : List TurnDto) (page : List DomainJournalRow)
    (highWater : Option UInt64) :
    (historyPage s threadId limit turns page.reverse highWater).nextSeqCursor =
      page.getLast?.map rowSeq := by
  change ((page.reverse.map journalRowToEntry).head?.map HistoryEntryDto.seq) = _
  rw [List.head?_map, List.head?_reverse, Option.map_map]
  congr 1
  funext row
  exact seq_journalRowToEntry row

/-- A page says that there is more when there are older rows or its turns are full. -/
theorem hasMore_historyPage (s : Store) (turns : List TurnDto) {page : List DomainJournalRow}
    (highWater : Option UInt64) {seq : UInt64} (hseq : page.getLast?.map rowSeq = some seq) :
    (historyPage s threadId limit turns page.reverse highWater).hasMore = true ↔
      rowsBefore s.domain.journal threadId.asStr (boundSeq (some seq)) ≠ [] ∨ turns.length = limit := by
  have hcursor : (historyPage s threadId limit turns page.reverse highWater).nextSeqCursor =
      some seq := (nextSeqCursor_historyPage s turns page highWater).trans hseq
  change ((turns.length == limit) || (historyPage s threadId limit turns page.reverse
    highWater).nextSeqCursor.any fun seq => journalHasOlder s.domain threadId.asStr seq) = true ↔ _
  rw [hcursor, Option.any_some, Bool.or_eq_true, beq_iff_eq, journalHasOlder_eq, or_comm]

/-- The daemon serves the pages of the rows. -/
theorem Visited.serves (h : Visited stores)
    (hsize : turnListLimit (size.getD defaultHistoryLimit) = .ok limit)
    (hrows : rowsBefore (stores 0).domain.journal threadId.asStr i64Max = rows) :
    Backward.Serves (serveHistory stores threadId size) rows limit journalRowToEntry rowSeq
      (fun k => PageFits (stores k) threadId limit (Backward.page rows limit k))
      (fun j => turnsFull (stores j) threadId limit) where
  answers k hk := by
    obtain ⟨turns, dto, hturns, rfl, hserve⟩ := h.serveHistory_eq hsize hrows hk
    rw [hserve]
    unfold boundedPayload PageFits
    constructor
    · rintro ⟨reply, hreply⟩ turns' hturns'
      cases hturns.symm.trans hturns'
      split at hreply
      · assumption
      · cases hreply
    · intro hfits
      rw [if_pos (hfits turns hturns)]
      exact ⟨_, rfl⟩
  items k reply hk hreply := by
    obtain ⟨turns, dto, hturns, rfl, hserve⟩ := h.serveHistory_eq hsize hrows hk
    rw [hserve] at hreply
    obtain ⟨_, -, rfl⟩ := map_eq_ok.1 hreply
    rfl
  cursor k reply hk hreply := by
    obtain ⟨turns, dto, hturns, rfl, hserve⟩ := h.serveHistory_eq hsize hrows hk
    rw [hserve] at hreply
    obtain ⟨_, -, rfl⟩ := map_eq_ok.1 hreply
    have hcursor : (historyPage (stores k) threadId limit turns (Backward.page rows limit k).reverse
        (journalHighWater (stores k).domain threadId.asStr)).nextSeqCursor = _ :=
      nextSeqCursor_historyPage _ _ _ _
    exact hcursor
  more k reply hk hreply hlt := by
    obtain ⟨turns, dto, hturns, rfl, hserve⟩ := h.serveHistory_eq hsize hrows hk
    rw [hserve] at hreply
    obtain ⟨_, -, rfl⟩ := map_eq_ok.1 hreply
    have hlimit := (turnListLimit_eq_ok hsize).1
    have hne : Backward.page rows limit k ≠ [] := by
      rw [ne_eq, Backward.page_eq_nil_iff hlimit]
      omega
    have hmissing := h.rowsBefore_place hlimit hrows hlt k
    rw [Backward.place_succ hne] at hmissing
    obtain ⟨last, hlast⟩ := Option.ne_none_iff_exists'.1 fun hnone =>
      hne (List.getLast?_eq_none_iff.1 hnone)
    rw [hlast, Option.map_some] at hmissing
    have hmore : (historyPage (stores k) threadId limit turns (Backward.page rows limit k).reverse
        (journalHighWater (stores k).domain threadId.asStr)).hasMore = true ↔ _ :=
      hasMore_historyPage (stores k) turns _ (by rw [hlast, Option.map_some])
    rw [hmissing, ne_eq, List.drop_eq_nil_iff, Nat.not_le, length_turnDtos hturns] at hmore
    unfold turnsFull
    rw [beq_iff_eq]
    exact hmore

/-- Of a page size that is not valid nothing comes. -/
theorem not_serveHistory {err : CoreAppError}
    (hsize : turnListLimit (size.getD defaultHistoryLimit) = .error err) (k : Nat)
    (beforeSeq : Option UInt64) : serveHistory stores threadId size k beforeSeq = .error err := by
  unfold serveHistory historyReply getHistory
  rw [hsize]
  rfl

end Walk

/-- With a valid page size a walk reconstructs the journal exactly when its pages fit. -/
theorem Visited.reconstructs_iff {stores : Nat → Store} (h : Visited stores) {threadId : ThreadId}
    {limit : Nat} (hsize : turnListLimit (size.getD defaultHistoryLimit) = .ok limit) :
    Reconstructs stores threadId size ↔ PagesFit stores threadId limit := by
  have hlimit := (turnListLimit_eq_ok hsize).1
  constructor
  · rintro ⟨pages, hwalk, hflatten⟩
    have hfound := (h.serves hsize rfl).flatten_of_walk hlimit hwalk Backward.asked_zero
      Backward.place_zero.symm
    rw [Nat.zero_mul, List.drop_zero] at hfound
    -- as many rows are found as there are, so none lies behind the bound
    have hlength := congrArg List.length (hfound.symm.trans hflatten)
    rw [List.length_map, List.length_map, List.length_reverse, List.length_reverse,
      rowsBefore_eq_filter, List.length_filter_eq_length_iff] at hlength
    have hnumbers : ∀ row ∈ threadRows (stores 0) threadId, row.seq < i64Max :=
      fun row hrow => of_decide_eq_true (hlength row hrow)
    have hserves := h.serves hsize (rowsBefore_all hnumbers)
    exact ⟨hnumbers, (hserves.exact_iff hlimit).1 ⟨pages, hwalk, hflatten⟩⟩
  · intro hfit
    exact ((h.serves hsize (rowsBefore_all hfit.numbers)).exact_iff hlimit).2 hfit.pages

/-- **Backward paging reconstructs the journal** of a thread, whatever happens between the
pages, exactly when the page size is valid, every page that is asked for fits into its
envelope and the rows are numbered below the bound a walk begins at. -/
theorem history_reconstructs_iff (inputs : List ContentInput) (happens : Nat → List ContentInput)
    (threadId : ThreadId) (size : Option UInt32) :
    Reconstructs (storeAt (contentMachine.run inputs) happens) threadId size ↔
      ∃ limit, turnListLimit (size.getD defaultHistoryLimit) = .ok limit ∧
        PagesFit (storeAt (contentMachine.run inputs) happens) threadId limit := by
  have hvisited := visited_storeAt inputs happens
  cases hsize : turnListLimit (size.getD defaultHistoryLimit) with
  | error err =>
    constructor
    · rintro ⟨pages, hwalk, -⟩
      cases hwalk with
      | last h => rw [not_serveHistory hsize] at h; cases h
      | more h => rw [not_serveHistory hsize] at h; cases h
    · rintro ⟨limit, hlimit, -⟩
      cases hlimit
  | ok limit =>
    rw [hvisited.reconstructs_iff hsize]
    constructor
    · exact fun hfit => ⟨limit, rfl, hfit⟩
    · rintro ⟨limit', hlimit', hfit⟩
      cases hlimit'
      exact hfit

/-! ## The handler -/

section Handler

variable {H : Type} [HarnessRuntimePort H] [DefaultHasher] [ErrorText] [ProtocolText]
  [CoreServices H]

end Handler

end Writer

/-! ## A page too large -/

/-- The scalar members of an object. -/
def scalarMembers : Json → List (String × Scalar)
  | .object fields => fields.filterMap fun (k, v) => match v with
      | .scalar s => some (k, s)
      | _ => none
  | _ => []

/-- The scalars of an object and of the objects in it. -/
def allScalars : Json → List (String × Scalar)
  | .object fields => fields.flatMap fun (k, v) => match v with
      | .scalar s => [(k, s)]
      | .array items => items.flatMap scalarMembers
      | .object _ => scalarMembers v
  | _ => []

/-- The serializer of flat objects; of other objects it writes the scalars in them, which is
no more than there is. -/
abbrev scalarsWriter : SerdeJsonWriter where
  toSerdeJson := flatObjects
  toVec := allScalars
  text fields := String.join (fields.map Prod.fst)

section Sample

local instance historyWriter : SerdeJsonWriter := scalarsWriter

/-- A text of the bytes is shorter than the bytes. -/
theorem lt_len_of_mem {fields : List (String × Scalar)} {k text : String}
    (h : (k, .string text) ∈ fields) : text.utf8ByteSize < flatObjects.len fields := by
  induction fields with
  | nil => cases h
  | cons field fields ih =>
    obtain ⟨k', v⟩ := field
    rcases List.mem_cons.1 h with heq | hmem
    · cases heq
      change _ < 1 + (_ + k.utf8ByteSize + 4 + (text.utf8ByteSize + 2))
      omega
    · have hlt : text.utf8ByteSize < 1 + _ := ih hmem
      change _ < 1 + (_ + k'.utf8ByteSize + 4 + _)
      omega

/-- A page with a text that fills the envelope does not fit into it. -/
theorem not_fits_page {dto : ThreadHistoryResponse} {entry : HistoryEntryDto} {text : String}
    (hentry : entry ∈ dto.entries) (hmem : ("text", .string text) ∈ scalarMembers entry.toJson)
    (htext : payloadBytes ≤ text.utf8ByteSize) : fits dto.toJson = false := by
  have hne : dto.entries.isEmpty = false := by
    rw [List.isEmpty_eq_false_iff]
    exact List.ne_nil_of_mem hentry
  have hin : ("text", Scalar.string text) ∈ allScalars dto.toJson := by
    refine List.mem_flatMap.2 ⟨("entries", Json.array (dto.entries.map HistoryEntryDto.toJson)), ?_, ?_⟩
    · refine List.mem_append_left _ (List.mem_append_left _ (List.mem_append_right _ ?_))
      rw [hne]
      exact List.mem_singleton.2 rfl
    · exact List.mem_flatMap.2 ⟨_, List.mem_map_of_mem hentry, hmem⟩
  exact decide_eq_false (Nat.not_le.2 (htext.trans_lt (lt_len_of_mem hin)))

theorem cutAt_of_le {chars : List Char} {n : Nat} (h : utf8Len chars ≤ n) : cutAt n chars = chars := by
  induction chars generalizing n with
  | nil => rw [cutAt]
  | cons c chars ih =>
    change c.utf8Size + utf8Len chars ≤ n at h
    rw [cutAt, if_pos (by omega), ih (by omega)]

/-- A text that is bounded when it is written is read back as it is. -/
theorem entryText_of_le {text : String} (h : text.utf8ByteSize ≤ entryTextBytes) :
    entryText (some text) = text := by
  rw [← utf8Len_toList] at h
  unfold entryText cutText
  rw [Option.getD_some, cutAt_of_le h, String.ofList_toList]

/-- The payload of a start with a prompt. -/
def promptPayload (text : String) (h : text.utf8ByteSize ≤ 1000000) : EventPayload where
  asBytes := [("content", .string text)]
  valid := by
    have hlen : ¬ maxEventPayloadBytes < flatObjects.len [("content", Scalar.string text)] := by
      change ¬ 1048576 < 1 + (0 + 7 + 4 + (text.utf8ByteSize + 2))
      omega
    unfold checkPayload
    rw [if_neg hlen]
    rfl

/-- A thread. -/
def historyThread : DomainEvent :=
  sampleEvent ⟨"evt_fixture000000014", by decide⟩ sampleThreadId none .threadCreated
    _ agentFields_fit

/-- The start of a turn. -/
def historyTurn (payload : EventPayload) : DomainEvent where
  eventId := ⟨"evt_fixture000000015", by decide⟩
  threadId := sampleThreadId
  turnId := sampleTurnId
  operationId := none
  kind := .turnStarted
  payload := payload
  occurredAt := 6

/-- The longest prompt there can be. -/
def longPayload : EventPayload :=
  promptPayload (longText 65536) (by rw [utf8ByteSize_longText]; decide)

/-- The start of a turn with it. -/
abbrev longPrompt : DomainEvent := historyTurn longPayload

/-- The sample journal ends with the turn. -/
theorem journal_historyTurn (payload : EventPayload) : ∃ first seq,
    (contentMachine.run [.append historyThread, .append (historyTurn payload)]).domain.journal =
      [first, durableRow seq (historyTurn payload)] := by
  have hfirst : (contentStep .empty (.append historyThread)).domain.journal =
      [durableRow 1 historyThread] := by decide
  have hnew : existingDomainEvent (contentStep .empty (.append historyThread)).domain
      (historyTurn payload) = none := by
    unfold existingDomainEvent
    rw [hfirst]
    rfl
  obtain ⟨seq, d, happend, hjournal, -, -⟩ := append_turnStarted (e := historyTurn payload)
    rfl rfl rfl (show (6 : UInt64).toNat ≤ i64Max by decide) hnew (by decide) (by decide)
  have hstep := contentStep_append happend
  refine ⟨durableRow 1 historyThread, seq, ?_⟩
  change (contentStep (contentStep .empty (.append historyThread))
    (.append (historyTurn payload))).domain.journal = _
  rw [hstep, hjournal, hfirst]
  rfl

/-- The prompt is read back as it is. -/
theorem journalRowToEntry_longPrompt (seq : Int) :
    journalRowToEntry (durableRow seq longPrompt) =
      .userMessage (rowEventId (durableRow seq longPrompt)) sampleTurnId
        (rowSeq (durableRow seq longPrompt)) (longText 65536)
        (rowOccurredAt (durableRow seq longPrompt)) := by
  have htext : (rowPayload (durableRow seq longPrompt)).getStr "content" = some (longText 65536) :=
    rfl
  have hturn : rowTurnId (durableRow seq longPrompt) = some sampleTurnId := by
    change (Id.parse "trn_" sampleTurnId.asStr).toOption = _
    rw [Id.parse_asStr]
    rfl
  have hsize : (longText 65536).utf8ByteSize ≤ entryTextBytes := by
    rw [utf8ByteSize_longText]
    decide
  have hkind : (durableRow seq longPrompt).kind = "turn.started" := rfl
  unfold journalRowToEntry projectedEntry
  rw [if_pos hkind, hturn, htext, entryText_of_le hsize]
  rfl

/-- The first page of the sample walk does not fit into its envelope. -/
theorem not_pagesFit_longPrompt :
    ¬ PagesFit (storeAt (contentMachine.run [.append historyThread, .append longPrompt]) fun _ => [])
      sampleThreadId 50 := by
  intro hfit
  obtain ⟨first, seq, hjournal⟩ := journal_historyTurn longPayload
  have hentry := journalRowToEntry_longPrompt seq
  have hadmitted := contentAdmitted_run [.append historyThread, .append longPrompt]
  have hpage := hfit.pages 0 Backward.asked_zero
  simp only [storeAt_zero] at hpage
  generalize contentMachine.run [.append historyThread, .append longPrompt] = s at *
  obtain ⟨turns, hturns⟩ := exists_turnDtos hadmitted sampleThreadId none 50
  have hrow : durableRow seq longPrompt ∈ threadRows s sampleThreadId := by
    unfold threadRows
    rw [hjournal, List.mem_reverse, List.mem_filter]
    exact ⟨List.mem_cons_of_mem _ List.mem_cons_self, beq_self_eq_true _⟩
  have hlength : (threadRows s sampleThreadId).length ≤ 50 := by
    unfold threadRows
    rw [List.length_reverse]
    refine (List.length_filter_le _ _).trans ?_
    rw [hjournal, List.length_cons, List.length_singleton]
    omega
  have hall : Backward.page (threadRows s sampleThreadId) 50 0 = threadRows s sampleThreadId := by
    unfold Backward.page
    rw [Nat.zero_mul, List.drop_zero, List.take_of_length_le hlength]
  rw [hall] at hpage
  have hin := List.mem_map_of_mem (f := journalRowToEntry) (List.mem_reverse.2 hrow)
  rw [hentry] at hin
  have htext : payloadBytes ≤ (longText 65536).utf8ByteSize := by
    rw [utf8ByteSize_longText]
    decide
  have hfits := hpage turns hturns
  rw [not_fits_page hin (by simp [HistoryEntryDto.toJson, Json.flat, scalarMembers]) htext] at hfits
  cases hfits

/-- A prompt of the largest size ends the walk with its first page. -/
theorem long_prompt_not_reconstructed :
    ¬ ∀ (inputs : List ContentInput) (happens : Nat → List ContentInput) (threadId : ThreadId)
        (size : Option UInt32) (limit : Nat),
        turnListLimit (size.getD defaultHistoryLimit) = .ok limit →
        Reconstructs (storeAt (contentMachine.run inputs) happens) threadId size := by
  intro h
  have hvisited := visited_storeAt [.append historyThread, .append longPrompt] fun _ => []
  have hsize : turnListLimit ((none : Option UInt32).getD defaultHistoryLimit) = .ok 50 := rfl
  exact not_pagesFit_longPrompt ((hvisited.reconstructs_iff hsize).1
    (h [.append historyThread, .append longPrompt] (fun _ => []) sampleThreadId none 50 hsize))

end Sample

end Altior.Application
