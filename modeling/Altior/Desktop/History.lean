import Altior.Desktop.Timeline

/-!
# From the journal to the timeline

Rows from the entries of a thread's journal
(`apps/desktop/src/features/timeline/historyReducer.ts`).  The deltas of a turn make one
row, and a decision settles the request it names.  The reducer goes from the first entry
to the last with the rows so far; what it makes is said here entry by entry, from what
comes after each.
-/

namespace Altior.Desktop

open Lib

/-- An entry of the journal of a thread, without its place and time. -/
inductive HistoryEntry
  | userMessage (eventId turnId text : String)
  | assistantDelta (eventId turnId text : String)
  | permission (eventId turnId permissionKind description decision : String)
  | permissionDecision (eventId permissionEventId turnId decision : String)
  | turnState (eventId turnId state : String) (reason : Option String)
  | unknown (eventId kind diagnostic : String)
deriving DecidableEq, Repr

/-- A decision the timeline knows. -/
def knownDecision (decision : String) : Option String :=
  if decision = "approved" ∨ decision = "denied" then some decision else none

/-! ## Rows of entries -/

def userRow (id text : String) : TimelineRow := ⟨id, .userMessage, text, none, false⟩

def assistantRow (turnId text : String) : TimelineRow := ⟨turnId, .assistantMessage, text, none, false⟩

def permissionRow (id kind description : String) (decision : Option String) : TimelineRow :=
  ⟨id, .permission, description, some ⟨description, kind, decision, none⟩, false⟩

def failureRow (id : String) (reason : Option String) : TimelineRow :=
  ⟨"fail-" ++ id, .error, reason.getD "Turn failed", none, false⟩

def unknownRow (id kind diagnostic : String) : TimelineRow :=
  ⟨id, .unknown, kind ++ ": " ++ diagnostic, none, false⟩

/-! ## The reducer -/

/-- The rows so far, and where those are that may still change. -/
structure Reduction where
  rows : List TimelineRow
  assistantRowsByTurn : Table String (Nat × TimelineRow)
  permissionRowsById : Table String (Nat × TimelineRow)

namespace Reduction

def start : Reduction := ⟨[], ∅, ∅⟩

def push (s : Reduction) (row : TimelineRow) : Reduction := { s with rows := s.rows ++ [row] }

def assistantDelta (s : Reduction) (turnId text : String) : Reduction :=
  match s.assistantRowsByTurn[turnId]? with
  | some (index, existing) =>
    let updated := { existing with text := existing.text ++ text }
    { s with
      rows := s.rows.set index updated
      assistantRowsByTurn := s.assistantRowsByTurn.insert turnId (index, updated) }
  | none =>
    let row := assistantRow turnId text
    { s.push row with
      assistantRowsByTurn := s.assistantRowsByTurn.insert turnId (s.rows.length, row) }

def permission (s : Reduction) (eventId kind description decision : String) : Reduction :=
  let row := permissionRow eventId kind description (knownDecision decision)
  { s.push row with
    permissionRowsById := s.permissionRowsById.insert eventId (s.rows.length, row) }

def permissionDecision (s : Reduction) (target decision : String) : Reduction :=
  match s.permissionRowsById[target]? with
  | some (index, existing) =>
    match existing.permission with
    | some request =>
      let updated := { existing with
        permission := some { request with
          decision := knownDecision decision
          submission := none } }
      { s with
        rows := s.rows.set index updated
        permissionRowsById := s.permissionRowsById.insert target (index, updated) }
    | none => s
  | none => s

def turnState (s : Reduction) (eventId turnId state : String) (reason : Option String) : Reduction :=
  let s := match s.assistantRowsByTurn[turnId]? with
    | some (index, existing) =>
      if existing.streaming then
        let updated := { existing with streaming := false }
        { s with
          rows := s.rows.set index updated
          assistantRowsByTurn := s.assistantRowsByTurn.insert turnId (index, updated) }
      else s
    | none => s
  if state = "failed" then s.push (failureRow eventId reason) else s

/-- One entry. -/
def step (s : Reduction) : HistoryEntry → Reduction
  | .userMessage eventId _ text => s.push (userRow eventId text)
  | .assistantDelta _ turnId text => s.assistantDelta turnId text
  | .permission eventId _ kind description decision => s.permission eventId kind description decision
  | .permissionDecision _ target _ decision => s.permissionDecision target decision
  | .turnState eventId turnId state reason => s.turnState eventId turnId state reason
  | .unknown eventId kind diagnostic => s.push (unknownRow eventId kind diagnostic)

end Reduction

/-- `reduceHistoryEntries`. -/
def reduceHistoryEntries (entries : List HistoryEntry) : List TimelineRow :=
  (entries.foldl Reduction.step .start).rows

/-! ## What the reducer makes -/

/-- The turn an entry is a delta of. -/
def HistoryEntry.deltaTurn : HistoryEntry → Option String
  | .assistantDelta _ turnId _ => some turnId
  | _ => none

/-- The request an entry is. -/
def HistoryEntry.requestId : HistoryEntry → Option String
  | .permission eventId .. => some eventId
  | _ => none

/-- The text of a turn. -/
def deltaText (turnId : String) : List HistoryEntry → String
  | [] => ""
  | .assistantDelta _ t text :: rest =>
    if t = turnId then text ++ deltaText turnId rest else deltaText turnId rest
  | _ :: rest => deltaText turnId rest

/-- What is decided about a request in the end.  Decisions that come after another
request of the same name are about that one. -/
def decided (id : String) (decision : Option String) : List HistoryEntry → Option String
  | [] => decision
  | .permission eventId .. :: rest => if eventId = id then decision else decided id decision rest
  | .permissionDecision _ target _ d :: rest =>
    if target = id then decided id (knownDecision d) rest else decided id decision rest
  | _ :: rest => decided id decision rest

/-- The row that an entry starts, with what comes after it. -/
def HistoryEntry.row : HistoryEntry → List HistoryEntry → Option TimelineRow
  | .userMessage eventId _ text, _ => some (userRow eventId text)
  | .assistantDelta _ turnId text, rest => some (assistantRow turnId (text ++ deltaText turnId rest))
  | .permission eventId _ kind description decision, rest =>
    some (permissionRow eventId kind description (decided eventId (knownDecision decision) rest))
  | .permissionDecision .., _ => none
  | .turnState eventId _ state reason, _ =>
    if state = "failed" then some (failureRow eventId reason) else none
  | .unknown eventId kind diagnostic, _ => some (unknownRow eventId kind diagnostic)

/-- Whether an entry may start a row, when the turns in `seen` have theirs. -/
def HistoryEntry.starts (seen : List String) (e : HistoryEntry) : Bool :=
  e.deltaTurn.all (· ∉ seen)

/-- The turns that have a row after an entry. -/
def HistoryEntry.see (seen : List String) (e : HistoryEntry) : List String :=
  if e.starts seen then e.deltaTurn.toList ++ seen else seen

/-- The rows of entries, when the turns in `seen` have theirs. -/
def rowsOf (seen : List String) : List HistoryEntry → List TimelineRow
  | [] => []
  | e :: rest =>
    (if e.starts seen then (e.row rest).toList else []) ++ rowsOf (e.see seen) rest

/-! ## The reducer makes these rows -/

/-- A row as it is known while the reducer runs: it may still grow, be settled, or
neither. -/
inductive Item
  | assistant (turnId text : String)
  | request (id kind description : String) (decision : Option String)
  | closed (row : TimelineRow)

namespace Item

def row : Item → TimelineRow
  | assistant turnId text => assistantRow turnId text
  | request id kind description decision => permissionRow id kind description decision
  | closed row => row

/-- What an entry does to a row that is there. -/
def absorb : HistoryEntry → Item → Item
  | .assistantDelta _ t text, assistant turnId before =>
    if t = turnId then assistant turnId (before ++ text) else assistant turnId before
  | .permission eventId .., request id kind description decision =>
    if eventId = id then closed (permissionRow id kind description decision)
    else request id kind description decision
  | .permissionDecision _ target _ d, request id kind description decision =>
    if target = id then request id kind description (knownDecision d)
    else request id kind description decision
  | _, item => item

/-- What entries leave of a row. -/
def settled (entries : List HistoryEntry) : Item → TimelineRow
  | assistant turnId text => assistantRow turnId (text ++ deltaText turnId entries)
  | request id kind description decision =>
    permissionRow id kind description (decided id decision entries)
  | closed row => row

theorem settled_nil (item : Item) : settled [] item = item.row := by
  cases item with
  | assistant turnId text => rw [settled, deltaText, String.append_empty, row]
  | request id kind description decision => rfl
  | closed row => rfl

/-- One entry after the other. -/
theorem settled_cons (e : HistoryEntry) (rest : List HistoryEntry) (item : Item) :
    settled (e :: rest) item = settled rest (item.absorb e) := by
  cases item with
  | assistant turnId text =>
    cases e with
    | assistantDelta eventId t delta =>
      simp only [settled, deltaText, absorb]
      split
      · rw [← String.append_assoc]
      · rfl
    | _ => rfl
  | request id kind description decision =>
    cases e with
    | permission eventId =>
      simp only [settled, decided, absorb]
      split <;> rfl
    | permissionDecision eventId target =>
      simp only [settled, decided, absorb]
      split <;> rfl
    | _ => rfl
  | closed row => cases e <;> rfl

/-- The row an entry starts. -/
def started : HistoryEntry → Option Item
  | .userMessage eventId _ text => some (closed (userRow eventId text))
  | .assistantDelta _ turnId text => some (assistant turnId text)
  | .permission eventId _ kind description decision =>
    some (request eventId kind description (knownDecision decision))
  | .permissionDecision .. => none
  | .turnState eventId _ state reason =>
    if state = "failed" then some (closed (failureRow eventId reason)) else none
  | .unknown eventId kind diagnostic => some (closed (unknownRow eventId kind diagnostic))

theorem row_eq_started (e : HistoryEntry) (rest : List HistoryEntry) :
    e.row rest = (started e).map (settled rest) := by
  cases e with
  | turnState eventId turnId state reason =>
    simp only [HistoryEntry.row, started]
    split <;> rfl
  | _ => rfl

end Item

variable {e : HistoryEntry}

theorem Item.absorb_eq_assistant {item : Item} {turnId text : String} :
    item.absorb e = .assistant turnId text ↔
      ∃ before, item = .assistant turnId before ∧ text = before ++ deltaText turnId [e] := by
  cases item with
  | assistant t before =>
    cases e with
    | assistantDelta eventId t' delta =>
      simp only [absorb, deltaText, String.append_empty]
      split
      · rename_i heq
        subst heq
        simp only [assistant.injEq]
        constructor
        · rintro ⟨rfl, rfl⟩
          exact ⟨before, ⟨rfl, rfl⟩, by rw [if_pos rfl]⟩
        · rintro ⟨_, ⟨rfl, rfl⟩, rfl⟩
          exact ⟨rfl, by rw [if_pos rfl]⟩
      · rename_i hne
        simp only [assistant.injEq]
        constructor
        · rintro ⟨rfl, rfl⟩
          exact ⟨before, ⟨rfl, rfl⟩, by rw [if_neg hne, String.append_empty]⟩
        · rintro ⟨_, ⟨rfl, rfl⟩, rfl⟩
          exact ⟨rfl, by rw [if_neg hne, String.append_empty]⟩
    | _ => simp [absorb, deltaText, eq_comm]
  | request id kind description decision =>
    constructor
    · intro h
      cases e with
      | permission | permissionDecision =>
        simp only [absorb] at h
        split at h <;> cases h
      | _ => cases h
    · rintro ⟨_, h, -⟩
      cases h
  | closed row =>
    constructor
    · intro h
      cases e <;> cases h
    · rintro ⟨_, h, -⟩
      cases h

/-- The requests an entry leaves open. -/
theorem Item.absorb_eq_request {item : Item} {id kind description : String}
    {decision : Option String} : item.absorb e = .request id kind description decision ↔
      ∃ before, item = .request id kind description before ∧ decision = decided id before [e] ∧
        e.requestId ≠ some id := by
  cases item with
  | assistant t before =>
    constructor
    · intro h
      cases e with
      | assistantDelta =>
        simp only [absorb] at h
        split at h <;> cases h
      | _ => cases h
    · rintro ⟨_, h, -⟩
      cases h
  | request id' kind' description' before =>
    cases e with
    | permission eventId =>
      simp only [absorb, decided, HistoryEntry.requestId, ne_eq, Option.some.injEq]
      split
      · rename_i heq
        refine iff_of_false nofun ?_
        rintro ⟨_, h, -, hne⟩
        cases h
        exact hne heq
      · rename_i hne
        simp only [request.injEq]
        constructor
        · rintro ⟨rfl, rfl, rfl, rfl⟩
          exact ⟨before, ⟨rfl, rfl, rfl, rfl⟩, by rw [if_neg hne], hne⟩
        · rintro ⟨_, ⟨rfl, rfl, rfl, rfl⟩, rfl, -⟩
          exact ⟨rfl, rfl, rfl, by rw [if_neg hne]⟩
    | permissionDecision eventId target =>
      simp only [absorb, decided, HistoryEntry.requestId, ne_eq, reduceCtorEq, not_false_eq_true,
        and_true]
      split <;> rename_i htarget <;> simp only [request.injEq]
      all_goals
        constructor
        · rintro ⟨rfl, rfl, rfl, rfl⟩
          exact ⟨before, ⟨rfl, rfl, rfl, rfl⟩, by simp only [htarget, if_true, if_false]⟩
        · rintro ⟨_, ⟨rfl, rfl, rfl, rfl⟩, rfl⟩
          exact ⟨rfl, rfl, rfl, by simp only [htarget, if_true, if_false]⟩
    | _ => simp [absorb, decided, HistoryEntry.requestId, eq_comm]
  | closed row =>
    constructor
    · intro h
      cases e <;> cases h
    · rintro ⟨_, h, -⟩
      cases h

/-- The rows so far are those of the items, and the reducer knows where the open ones
are. -/
structure Holds (s : Reduction) (seen : List String) (items : List Item) : Prop where
  rows : s.rows = items.map Item.row
  seen : ∀ turnId, turnId ∈ seen ↔ turnId ∈ s.assistantRowsByTurn
  assistant : ∀ (turnId : String) (i : Nat) (row : TimelineRow),
    s.assistantRowsByTurn[turnId]? = some (i, row) ↔
      ∃ text, items[i]? = some (.assistant turnId text) ∧ row = assistantRow turnId text
  request : ∀ (id : String) (i : Nat) (row : TimelineRow),
    s.permissionRowsById[id]? = some (i, row) ↔ ∃ kind description decision,
      items[i]? = some (.request id kind description decision) ∧
        row = permissionRow id kind description decision

section Steps

variable {s : Reduction} {seen : List String} {items : List Item}

variable {i : Nat} {row : TimelineRow}

theorem getElem?_concat_iff {α : Type} {l : List α} {a b : α} :
    (l ++ [a])[i]? = some b ↔ l[i]? = some b ∨ i = l.length ∧ a = b := by
  rcases Nat.lt_trichotomy i l.length with hlt | rfl | hgt
  · rw [List.getElem?_append_left hlt]
    exact ⟨.inl, fun h => h.resolve_right fun h => absurd h.1 (Nat.ne_of_lt hlt)⟩
  · rw [List.getElem?_concat_length, List.getElem?_eq_none (Nat.le_refl _)]
    simp
  · rw [List.getElem?_eq_none (by rw [List.length_append]; exact hgt),
      List.getElem?_eq_none (Nat.le_of_lt hgt)]
    simp [Nat.ne_of_gt hgt]

theorem Holds.push (h : Holds s seen items) (row : TimelineRow) :
    Holds (s.push row) seen (items ++ [.closed row]) := by
  refine ⟨?_, h.seen, fun turnId i r => ?_, fun id i r => ?_⟩
  · rw [Reduction.push, List.map_append, h.rows]
    rfl
  · rw [show (s.push row).assistantRowsByTurn = s.assistantRowsByTurn from rfl, h.assistant]
    simp only [getElem?_concat_iff, reduceCtorEq, and_false, or_false]
  · rw [show (s.push row).permissionRowsById = s.permissionRowsById from rfl, h.request]
    simp only [getElem?_concat_iff, reduceCtorEq, and_false, or_false]

/-- The row at a place changes as its item does, and no other. -/
theorem set_row {f : Item → Item} {item : Item} (hi : items[i]? = some item)
    (hother : ∀ (j : Nat) (other : Item), items[j]? = some other → j ≠ i → f other = other) :
    (items.map Item.row).set i (f item).row = (items.map f).map Item.row := by
  refine List.ext_getElem? fun j => ?_
  have hlt := (List.getElem?_eq_some_iff.1 hi).1
  rw [List.getElem?_set, List.length_map, List.getElem?_map, List.getElem?_map, List.getElem?_map]
  split
  · rename_i heq
    subst heq
    rw [hi]
    rfl
  · rename_i hne
    cases hj : items[j]? with
    | none => rfl
    | some other => simp only [Option.map_some, hother j other hj (Ne.symm hne)]

/-- The rows of turns after an entry. -/
theorem Holds.assistant_absorb (h : Holds s seen items) {turnId : String} :
    (∃ text, (items.map (Item.absorb e))[i]? = some (.assistant turnId text) ∧
        row = assistantRow turnId text) ↔
      ∃ row', s.assistantRowsByTurn[turnId]? = some (i, row') ∧
        row = { row' with text := row'.text ++ deltaText turnId [e] } := by
  simp only [List.getElem?_map, Option.map_eq_some_iff, Item.absorb_eq_assistant, h.assistant]
  constructor
  · rintro ⟨_, ⟨_, hi, before, rfl, rfl⟩, rfl⟩
    exact ⟨_, ⟨before, hi, rfl⟩, rfl⟩
  · rintro ⟨_, ⟨before, hi, rfl⟩, rfl⟩
    exact ⟨_, ⟨_, hi, before, rfl, rfl⟩, rfl⟩

/-- The rows of requests after an entry. -/
theorem Holds.request_absorb (h : Holds s seen items) {id : String} :
    (∃ kind description decision,
        (items.map (Item.absorb e))[i]? = some (.request id kind description decision) ∧
          row = permissionRow id kind description decision) ↔
      (∃ row', s.permissionRowsById[id]? = some (i, row') ∧
        row = { row' with permission := row'.permission.map fun request =>
          { request with decision := decided id request.decision [e] } }) ∧ e.requestId ≠ some id := by
  simp only [List.getElem?_map, Option.map_eq_some_iff, Item.absorb_eq_request, h.request]
  constructor
  · rintro ⟨kind, description, _, ⟨_, hi, before, rfl, rfl, hne⟩, rfl⟩
    exact ⟨⟨_, ⟨kind, description, before, hi, rfl⟩, rfl⟩, hne⟩
  · rintro ⟨⟨_, ⟨kind, description, before, hi, rfl⟩, rfl⟩, hne⟩
    exact ⟨kind, description, _, ⟨_, hi, before, rfl, rfl, hne⟩, rfl⟩

/-- An entry that is no delta of a turn leaves its row alone. -/
theorem Holds.assistant_kept (h : Holds s seen items) {turnId : String}
    (hnot : deltaText turnId [e] = "") :
    s.assistantRowsByTurn[turnId]? = some (i, row) ↔
      ∃ text, (items.map (Item.absorb e))[i]? = some (.assistant turnId text) ∧
        row = assistantRow turnId text := by
  rw [h.assistant_absorb, hnot]
  simp only [String.append_empty]
  exact ⟨fun hrow => ⟨row, hrow, rfl⟩, fun ⟨_, hrow, heq⟩ => heq ▸ hrow⟩

/-- An entry that neither decides about a request nor makes it anew leaves it alone. -/
theorem Holds.request_kept (h : Holds s seen items) {id : String}
    (hnot : ∀ decision, decided id decision [e] = decision) (hnew : e.requestId ≠ some id) :
    s.permissionRowsById[id]? = some (i, row) ↔
      ∃ kind description decision,
        (items.map (Item.absorb e))[i]? = some (.request id kind description decision) ∧
          row = permissionRow id kind description decision := by
  rw [h.request_absorb, and_iff_left hnew]
  simp only [hnot]
  have hsame {row' : TimelineRow} (hmap : s.permissionRowsById[id]? = some (i, row')) :
      { row' with permission := row'.permission.map fun request => request } = row' := by
    obtain ⟨kind, description, decision, -, rfl⟩ := (h.request ..).1 hmap
    rfl
  constructor
  · intro hmap
    exact ⟨row, hmap, (hsame hmap).symm⟩
  · rintro ⟨row', hmap, rfl⟩
    rw [hsame hmap]
    exact hmap

/-- **A delta.** -/
theorem Holds.assistantDelta (h : Holds s seen items) (eventId turnId text : String) :
    Holds (s.assistantDelta turnId text)
      ((HistoryEntry.assistantDelta eventId turnId text).see seen)
      (items.map (Item.absorb (.assistantDelta eventId turnId text)) ++
        if (HistoryEntry.assistantDelta eventId turnId text).starts seen then
          [.assistant turnId text] else []) := by
  have hself : deltaText turnId [.assistantDelta eventId turnId text] = text := by
    rw [deltaText, if_pos rfl, deltaText, String.append_empty]
  have hnot {t : String} (hne : turnId ≠ t) :
      deltaText t [.assistantDelta eventId turnId text] = "" := by
    rw [deltaText, if_neg hne, deltaText]
  by_cases hseen : turnId ∈ seen
  · obtain ⟨⟨i, existing⟩, hmap⟩ := Table.mem_iff.1 ((h.seen turnId).1 hseen)
    obtain ⟨before, hi, rfl⟩ := (h.assistant turnId i existing).1 hmap
    have hstarts : (HistoryEntry.assistantDelta eventId turnId text).starts seen = false := by
      simp [HistoryEntry.starts, HistoryEntry.deltaTurn, hseen]
    rw [HistoryEntry.see, hstarts, Reduction.assistantDelta, hmap]
    simp only [Bool.false_eq_true, if_false, List.append_nil]
    refine ⟨?_, fun t => ?_, fun t j row => ?_, fun _ _ _ =>
      h.request_kept (e := .assistantDelta eventId turnId text) (fun _ => rfl)
        (Option.some_ne_none _).symm⟩
    · have hrow : (Item.absorb (.assistantDelta eventId turnId text) (.assistant turnId before)).row =
          { assistantRow turnId before with text := before ++ text } := by
        rw [Item.absorb, if_pos rfl]
        rfl
      rw [h.rows]
      refine (congrArg ((items.map Item.row).set i) hrow.symm).trans (set_row hi ?_)
      intro j other hj hne
      cases other with
      | assistant t x =>
        rw [Item.absorb, if_neg]
        rintro rfl
        cases hmap.symm.trans ((h.assistant turnId j _).2 ⟨x, hj, rfl⟩)
        exact hne rfl
      | request | closed => rfl
    · rw [h.seen, Table.mem_insert_iff]
      exact ⟨.inr, fun hor => hor.elim (fun heq => heq ▸ (h.seen turnId).1 hseen) id⟩
    · rw [Table.getElem?_insert_eq]
      split
      · rename_i heq
        subst heq
        rw [h.assistant_absorb, hmap, hself]
        simp only [Option.some.injEq, Prod.mk.injEq]
        constructor
        · rintro ⟨rfl, rfl⟩
          exact ⟨_, ⟨rfl, rfl⟩, rfl⟩
        · rintro ⟨_, ⟨rfl, rfl⟩, rfl⟩
          exact ⟨rfl, rfl⟩
      · exact h.assistant_kept (hnot ‹_›)
  · have hnone : s.assistantRowsByTurn[turnId]? = none :=
      Table.not_mem_iff.1 (mt (h.seen turnId).2 hseen)
    have hstarts : (HistoryEntry.assistantDelta eventId turnId text).starts seen = true := by
      simp [HistoryEntry.starts, HistoryEntry.deltaTurn, hseen]
    have hkept : items.map (Item.absorb (.assistantDelta eventId turnId text)) = items := by
      refine (List.map_congr_left fun item hitem => ?_).trans (List.map_id items)
      cases item with
      | assistant t x =>
        obtain ⟨j, hj⟩ := List.mem_iff_getElem?.1 hitem
        rw [Item.absorb, if_neg]
        · rfl
        · rintro rfl
          cases hnone.symm.trans ((h.assistant turnId j _).2 ⟨x, hj, rfl⟩)
      | request | closed => rfl
    rw [HistoryEntry.see, hstarts, if_pos rfl, if_pos rfl, Reduction.assistantDelta, hnone, hkept]
    refine ⟨?_, fun t => ?_, fun t j row => ?_, fun id j row => ?_⟩
    · rw [List.map_append, ← h.rows]
      rfl
    · rw [Table.mem_insert_iff, ← h.seen]
      exact List.mem_cons.trans (or_congr_left Iff.rfl)
    · rw [Table.getElem?_insert_eq]
      simp only [getElem?_concat_iff, Item.assistant.injEq]
      split
      · rename_i heq
        subst heq
        rw [h.rows, List.length_map]
        constructor
        · rintro ⟨rfl, rfl⟩
          exact ⟨text, .inr ⟨rfl, rfl, rfl⟩, rfl⟩
        · rintro ⟨x, hold | ⟨rfl, -, rfl⟩, rfl⟩
          · cases hnone.symm.trans ((h.assistant turnId j _).2 ⟨x, hold, rfl⟩)
          · rfl
      · rename_i hne
        simp only [hne, false_and, and_false, or_false]
        exact h.assistant t j row
    · simp only [getElem?_concat_iff, reduceCtorEq, and_false, or_false]
      exact h.request id j row

/-- **A request.** An earlier one of the same name can no longer be settled. -/
theorem Holds.permission (h : Holds s seen items)
    (eventId turnId kind description decision : String) :
    Holds (s.permission eventId kind description decision) seen
      (items.map (Item.absorb (.permission eventId turnId kind description decision)) ++
        [.request eventId kind description (knownDecision decision)]) := by
  have hrow (item : Item) :
      (item.absorb (.permission eventId turnId kind description decision)).row = item.row := by
    cases item with
    | request id =>
      rw [Item.absorb]
      split <;> rfl
    | assistant | closed => rfl
  refine ⟨?_, h.seen, fun t j row => ?_, fun id j row => ?_⟩
  · rw [List.map_append, List.map_map, show Item.row ∘ _ = Item.row from funext hrow, ← h.rows]
    rfl
  · simp only [getElem?_concat_iff, reduceCtorEq, and_false, or_false]
    exact h.assistant_kept rfl
  · simp only [Reduction.permission, Table.getElem?_insert_eq, getElem?_concat_iff, Item.request.injEq,
      List.length_map]
    split
    · rename_i heq
      subst heq
      rw [h.rows, List.length_map]
      constructor
      · rintro ⟨rfl, rfl⟩
        exact ⟨kind, description, _, .inr ⟨rfl, rfl, rfl, rfl, rfl⟩, rfl⟩
      · rintro ⟨_, _, _, hold | ⟨rfl, -, rfl, rfl, rfl⟩, rfl⟩
        · exact absurd rfl (h.request_absorb.1 ⟨_, _, _, hold, rfl⟩).2
        · rfl
    · rename_i hne
      simp only [hne, false_and, and_false, or_false]
      exact h.request_kept (e := .permission eventId turnId kind description decision)
        (fun _ => ite_self _) fun heq => hne (Option.some.inj heq)

/-- **A decision.** -/
theorem Holds.permissionDecision (h : Holds s seen items) (eventId target turnId decision : String) :
    Holds (s.permissionDecision target decision) seen
      (items.map (Item.absorb (.permissionDecision eventId target turnId decision))) := by
  unfold Reduction.permissionDecision
  cases hmap : s.permissionRowsById[target]? with
  | none =>
    have hkept : items.map (Item.absorb (.permissionDecision eventId target turnId decision)) =
        items := by
      refine (List.map_congr_left fun item hitem => ?_).trans (List.map_id items)
      cases item with
      | request id k d dec =>
        obtain ⟨j, hj⟩ := List.mem_iff_getElem?.1 hitem
        rw [Item.absorb, if_neg]
        · rfl
        · rintro rfl
          cases hmap.symm.trans ((h.request target j _).2 ⟨k, d, dec, hj, rfl⟩)
      | assistant | closed => rfl
    rw [hkept]
    exact h
  | some pair =>
    obtain ⟨i, existing⟩ := pair
    obtain ⟨kind, description, before, hi, rfl⟩ := (h.request target i existing).1 hmap
    dsimp only [permissionRow]
    refine ⟨?_, h.seen, fun _ _ _ => h.assistant_kept rfl, fun id j row => ?_⟩
    · have hrow : (Item.absorb (.permissionDecision eventId target turnId decision)
          (.request target kind description before)).row =
            permissionRow target kind description (knownDecision decision) := by
        rw [Item.absorb, if_pos rfl]
        rfl
      rw [h.rows]
      refine (congrArg ((items.map Item.row).set i) hrow.symm).trans (set_row hi ?_)
      intro j other hj hne
      cases other with
      | request id k d dec =>
        rw [Item.absorb, if_neg]
        rintro rfl
        cases hmap.symm.trans ((h.request target j _).2 ⟨k, d, dec, hj, rfl⟩)
        exact hne rfl
      | assistant | closed => rfl
    · rw [Table.getElem?_insert_eq]
      split
      · rename_i heq
        subst heq
        rw [h.request_absorb, hmap]
        simp only [decided, if_true, HistoryEntry.requestId, ne_eq, reduceCtorEq, not_false_eq_true,
          and_true, Option.some.injEq, Prod.mk.injEq]
        constructor
        · rintro ⟨rfl, rfl⟩
          exact ⟨_, ⟨rfl, rfl⟩, rfl⟩
        · rintro ⟨_, ⟨rfl, rfl⟩, rfl⟩
          exact ⟨rfl, rfl⟩
      · rename_i hne
        exact h.request_kept (e := .permissionDecision eventId target turnId decision)
          (fun _ => by rw [decided, if_neg hne, decided]) (Option.some_ne_none _).symm

theorem map_absorb_of_closed (h : ∀ item, Item.absorb e item = item) :
    items.map (Item.absorb e) = items := by
  rw [show Item.absorb e = id from funext h, List.map_id]

/-- **One entry.** -/
theorem Holds.step (h : Holds s seen items) (e : HistoryEntry) :
    Holds (s.step e) (e.see seen) (items.map (Item.absorb e) ++
      if e.starts seen then (Item.started e).toList else []) := by
  cases e with
  | userMessage eventId turnId text =>
    rw [map_absorb_of_closed (fun item => by cases item <;> rfl)]
    exact h.push _
  | assistantDelta eventId turnId text => exact h.assistantDelta eventId turnId text
  | permission eventId turnId kind description decision =>
    exact h.permission eventId turnId kind description decision
  | permissionDecision eventId target turnId decision =>
    rw [show (if (HistoryEntry.permissionDecision eventId target turnId decision).starts seen then
      (Item.started (.permissionDecision eventId target turnId decision)).toList else []) = [] from rfl,
      List.append_nil]
    exact h.permissionDecision eventId target turnId decision
  | turnState eventId turnId state reason =>
    rw [map_absorb_of_closed (fun item => by cases item <;> rfl)]
    -- no row of a turn is ever streaming
    have hidle : (match s.assistantRowsByTurn[turnId]? with
        | some (index, existing) =>
          if existing.streaming then
            let updated := { existing with streaming := false }
            { s with
              rows := s.rows.set index updated
              assistantRowsByTurn := s.assistantRowsByTurn.insert turnId (index, updated) }
          else s
        | none => s) = s := by
      split
      · rename_i index existing hmap
        obtain ⟨text, -, rfl⟩ := (h.assistant ..).1 hmap
        exact if_neg Bool.false_ne_true
      · rfl
    simp only [Reduction.step, Reduction.turnState, hidle, Item.started]
    split
    · exact h.push _
    · rw [Option.toList_none, ite_self, List.append_nil]
      exact h
  | unknown eventId kind diagnostic =>
    rw [map_absorb_of_closed (fun item => by cases item <;> rfl)]
    exact h.push _

/-- The rows in the end. -/
theorem Holds.rows_foldl (h : Holds s seen items) (entries : List HistoryEntry) :
    (entries.foldl Reduction.step s).rows = items.map (Item.settled entries) ++ rowsOf seen entries := by
  induction entries generalizing s seen items with
  | nil =>
    rw [List.foldl_nil, h.rows, rowsOf, List.append_nil]
    exact List.map_congr_left fun item _ => (item.settled_nil).symm
  | cons e rest ih =>
    rw [List.foldl_cons, ih (h.step e), rowsOf, List.map_append, List.map_map, ← List.append_assoc]
    congr 2
    · exact List.map_congr_left fun item _ => (Item.settled_cons e rest item).symm
    · rw [Item.row_eq_started]
      split
      · cases Item.started e <;> rfl
      · rfl

theorem holds_start : Holds .start [] [] where
  rows := rfl
  seen turnId := iff_of_false List.not_mem_nil Std.ExtTreeMap.not_mem_empty
  assistant turnId i row := by simp [Reduction.start]
  request id i row := by simp [Reduction.start]

end Steps

/-- **The reducer.** -/
theorem reduceHistoryEntries_eq (entries : List HistoryEntry) :
    reduceHistoryEntries entries = rowsOf [] entries := by
  rw [reduceHistoryEntries, holds_start.rows_foldl]
  rfl

end Altior.Desktop
