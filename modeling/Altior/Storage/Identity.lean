import Altior.Domain.Identity
import Altior.Storage.Readable
import Mathlib.Data.Prod.Lex
import Mathlib.Data.String.Basic

/-!
# The identity documents of a device

The table of identity documents with its writes and its listing
(`altior-storage/src/identity.rs`).  A write checks the document it is given, the
listing checks every row again; the main result says which writes keep the table
listable.
-/

namespace Altior.Storage

open Domain Lib

/-- A row of `identity_document`, keyed by its identifier. -/
structure IdentityRow where
  kind : String
  content : String
  createdAt : Int
  updatedAt : Int
deriving DecidableEq

/-- The table. -/
abbrev IdentityTable := Table String IdentityRow

/-! ## Reading -/

/-- Maps one row. -/
def rowToIdentityDocument (id : String) (row : IdentityRow) :
    Except ReadError IdentityDocument := do
  let documentId ← readId "idd_" id ("invalid identity_document_id " ++ id ++ ": ")
  let kind ← readEntity (IdentityDocumentKind.tryFromStr row.kind)
    ("invalid identity kind " ++ row.kind ++ ": ")
  let content ← readEntity (IdentityContent.tryFrom row.content) "invalid identity content: "
  let createdAt ← readMillis row.createdAt "created_at"
  let updatedAt ← readMillis row.updatedAt "updated_at"
  let doc : IdentityDocument := ⟨documentId, kind, content, createdAt, updatedAt⟩
  readEntity doc.validate "identity document invariant violated: "
  pure doc

/-- The `CASE` of the listing's `ORDER BY`. -/
def kindPriority (kind : String) : Nat :=
  if kind = "name" then 0
  else if kind = "about" then 1
  else if kind = "instruction" then 2
  else if kind = "preference" then 3
  else 4

/-- What the listing orders by. -/
def IdentityRow.sortKey (id : String) (row : IdentityRow) : ℕ ×ₗ ℤ ×ₗ String :=
  toLex (kindPriority row.kind, toLex (row.createdAt, id))

/-- The `ORDER BY` of the listing. -/
def beforeRow (a b : String × IdentityRow) : Bool := decide (a.2.sortKey a.1 ≤ b.2.sortKey b.1)

/-- The first documents in render order. -/
def listIdentityDocuments (t : IdentityTable) (limit : Nat) :
    Except ReadError (List IdentityDocument) :=
  collectRows ((t.toList.mergeSort beforeRow).take limit) rowToIdentityDocument

/-! ## Writing -/

/-- The row of a document. -/
def identityRow (doc : IdentityDocument) : IdentityRow where
  kind := doc.kind.asStr
  content := doc.content.asStr
  createdAt := doc.createdAt.toNat
  updatedAt := doc.updatedAt.toNat

/-- The times of a document are in order. -/
def checkDocument (doc : IdentityDocument) : Except StorageError Unit :=
  match doc.validate with
  | .ok () => .ok ()
  | .error _ => .error (.invalidEntityData
      "invalid identity document: updated_at earlier than created_at")

/-- A time fits its signed column. -/
def checkColumn (at_ : UInt64) (field : String) : Except StorageError Unit :=
  if i64Max < at_.toNat then
    .error (.invalidEntityData (field ++ " " ++ toString at_.toNat ++ " exceeds i64"))
  else .ok ()

/-- Inserts a document; the same kind and content again change nothing. -/
def putIdentityDocument (t : IdentityTable) (doc : IdentityDocument) :
    Except StorageError IdentityTable :=
  if isSecretShaped doc.content.asStr then .error .secretShapedContent
  else do
    checkDocument doc
    checkColumn doc.createdAt "created_at"
    checkColumn doc.updatedAt "updated_at"
    match t[doc.id.asStr]? with
    | some existing =>
      if existing.kind = doc.kind.asStr ∧ existing.content = doc.content.asStr then .ok t
      else .error (.identityDocumentConflict doc.id.asStr)
    | none =>
      if identityDocumentCountMax ≤ t.size then
        .error (.identityDocumentCountExceeded t.size identityDocumentCountMax)
      else .ok (t.insert doc.id.asStr (identityRow doc))

/-- The `SET` clause of an update: the time of creation stays. -/
def revise (doc : IdentityDocument) (row : IdentityRow) : IdentityRow :=
  { row with
    kind := doc.kind.asStr
    content := doc.content.asStr
    updatedAt := doc.updatedAt.toNat }

/-- Replaces kind, content and time of the last update. -/
def updateIdentityDocument (t : IdentityTable) (doc : IdentityDocument) :
    Except StorageError IdentityTable := do
  checkDocument doc
  if isSecretShaped doc.content.asStr then .error .secretShapedContent
  else do
    checkColumn doc.updatedAt "updated_at"
    if doc.id.asStr ∈ t then
      .ok (t.update doc.id.asStr (revise doc))
    else .error (.identityDocumentNotFound doc.id.asStr)

def deleteIdentityDocument (t : IdentityTable) (id : IdentityDocumentId) :
    Except StorageError IdentityTable :=
  if id.asStr ∈ t then .ok (t.erase id.asStr)
  else .error (.identityDocumentNotFound id.asStr)

/-- A write of the table. -/
inductive IdentityOp
  | put (doc : IdentityDocument)
  | update (doc : IdentityDocument)
  | delete (id : IdentityDocumentId)

def identityWrite (t : IdentityTable) : IdentityOp → Except StorageError IdentityTable
  | .put doc => putIdentityDocument t doc
  | .update doc => updateIdentityDocument t doc
  | .delete id => deleteIdentityDocument t id

/-- One write; a rejected one changes nothing. -/
def identityStep (t : IdentityTable) (op : IdentityOp) : IdentityTable :=
  match identityWrite t op with
  | .ok t' => t'
  | .error _ => t

/-- The table from a fresh store on. -/
def identityMachine : Machine IdentityTable IdentityOp := ⟨∅, identityStep⟩

/-! ## Rows of documents -/

theorem readId_asStr {pre : String} (id : Id pre) (detail : String) :
    readId pre id.asStr detail = .ok id := by
  rw [readId, Id.parse_asStr]

theorem readMillis_ofNat (t : UInt64) (field : String) : readMillis t.toNat field = .ok t := by
  rw [readMillis, if_neg (Int.not_lt.2 (Int.natCast_nonneg t.toNat)), Int.toNat_natCast,
    UInt64.ofNat_toNat]

/-- The row of a document reads back as the document, if its times are in order. -/
theorem rowToIdentityDocument_identityRow (doc : IdentityDocument) :
    rowToIdentityDocument doc.id.asStr (identityRow doc) =
      (readEntity doc.validate "identity document invariant violated: ").map fun _ => doc := by
  unfold rowToIdentityDocument identityRow
  rw [readId_asStr, IdentityDocumentKind.tryFromStr_asStr, IdentityContent.tryFrom_asStr,
    readMillis_ofNat, readMillis_ofNat]
  cases h : doc.validate <;> simp only [readEntity, bind, Except.bind, h] <;> rfl

variable {doc : IdentityDocument} {t t' : IdentityTable}

theorem validate_ok_iff : doc.validate = .ok () ↔ doc.createdAt ≤ doc.updatedAt := by
  unfold IdentityDocument.validate
  split
  · rename_i hlt
    exact iff_of_false nofun (UInt64.not_le.2 hlt)
  · rename_i hlt
    exact iff_of_true rfl (UInt64.not_lt.1 hlt)

theorem exists_rowToIdentityDocument :
    (∃ d, rowToIdentityDocument doc.id.asStr (identityRow doc) = .ok d) ↔
      doc.createdAt ≤ doc.updatedAt := by
  rw [rowToIdentityDocument_identityRow, ← validate_ok_iff]
  cases h : doc.validate with
  | ok => exact iff_of_true ⟨doc, rfl⟩ rfl
  | error e => exact iff_of_false (fun ⟨_, hd⟩ => nomatch hd) nofun

/-- The database orders the kinds as they are rendered. -/
theorem kindPriority_asStr (kind : IdentityDocumentKind) :
    kindPriority kind.asStr = kind.renderPriority := by
  cases kind <;> rfl

/-! ## Listing what was written -/

/-- What the listing is ordered by, on documents. -/
def documentKey (doc : IdentityDocument) : ℕ ×ₗ ℤ ×ₗ String :=
  toLex (doc.kind.renderPriority, toLex ((doc.createdAt.toNat : ℤ), doc.id.asStr))

/-- A stored document. -/
def documentRow (doc : IdentityDocument) : String × IdentityRow := (doc.id.asStr, identityRow doc)

theorem sortKey_documentRow (doc : IdentityDocument) :
    (documentRow doc).2.sortKey (documentRow doc).1 = documentKey doc := by
  simp only [IdentityRow.sortKey, documentKey, documentRow, identityRow, kindPriority_asStr]

/-- The default listing succeeds and returns every stored document exactly once, in
render order. -/
structure Lists (t : IdentityTable) (docs : List IdentityDocument) : Prop where
  listed : listIdentityDocuments t identityDocumentListLimitMax = .ok docs
  stored : (docs.map documentRow).Perm t.toList
  ordered : docs.Pairwise fun a b => documentKey a < documentKey b

/-- The table can be listed. -/
def Listable (t : IdentityTable) : Prop := ∃ docs, Lists t docs

/-- Every row is that of a document, and there are no more than may be. -/
structure Typed (t : IdentityTable) : Prop where
  rows : ∀ (id : String) row, t[id]? = some row → ∃ doc, documentRow doc = (id, row)
  size : t.size ≤ identityDocumentCountMax

/-- No row was updated before it was created. -/
def Ordered (t : IdentityTable) : Prop :=
  ∀ (id : String) row, t[id]? = some row → row.createdAt ≤ row.updatedAt

theorem Typed.row (h : Typed t) {row : String × IdentityRow} (hrow : row ∈ t.toList) :
    ∃ doc, documentRow doc = row :=
  h.rows row.1 row.2 (Std.ExtTreeMap.mem_toList_iff_getElem?_eq_some.1 hrow)

/-- Rows of documents whose times are in order read back as these documents. -/
theorem collectRows_documents {rows : List (String × IdentityRow)}
    (hrows : ∀ row ∈ rows, ∃ doc, documentRow doc = row)
    (htimes : ∀ row ∈ rows, row.2.createdAt ≤ row.2.updatedAt) :
    ∃ docs, collectRows rows rowToIdentityDocument = .ok docs ∧ docs.map documentRow = rows := by
  induction rows with
  | nil => exact ⟨[], rfl, rfl⟩
  | cons row rows ih =>
    rw [List.forall_mem_cons] at hrows htimes
    obtain ⟨⟨doc, rfl⟩, hrows⟩ := hrows
    obtain ⟨docs, hdocs, hmap⟩ := ih hrows htimes.2
    have htime : doc.createdAt ≤ doc.updatedAt :=
      UInt64.le_iff_toNat_le.2 (Int.ofNat_le.1 htimes.1)
    have hdoc : rowToIdentityDocument (documentRow doc).1 (documentRow doc).2 = .ok doc := by
      rw [documentRow, rowToIdentityDocument_identityRow, validate_ok_iff.2 htime]
      rfl
    refine ⟨doc :: docs, ?_, by rw [List.map_cons, hmap]⟩
    unfold collectRows at hdocs ⊢
    rw [List.mapM_cons, hdoc, hdocs]
    rfl

theorem pairwise_beforeRow (rows : List (String × IdentityRow)) :
    (rows.mergeSort beforeRow).Pairwise fun a b => a.2.sortKey a.1 ≤ b.2.sortKey b.1 := by
  have htrans : ∀ a b c, beforeRow a b = true → beforeRow b c = true → beforeRow a c = true :=
    fun a b c hab hbc => decide_eq_true ((of_decide_eq_true hab).trans (of_decide_eq_true hbc))
  have htotal : ∀ a b, (beforeRow a b || beforeRow b a) = true := by
    intro a b
    rw [beforeRow, beforeRow, Bool.or_eq_true, decide_eq_true_iff, decide_eq_true_iff]
    exact le_total _ _
  exact (List.pairwise_mergeSort htrans htotal rows).imp of_decide_eq_true

/-- A typed table can be listed iff no row was updated before it was created. -/
theorem Typed.listable_iff_ordered (h : Typed t) : Listable t ↔ Ordered t := by
  -- the default limit cuts nothing off
  have hlist : listIdentityDocuments t identityDocumentListLimitMax =
      collectRows (t.toList.mergeSort beforeRow) rowToIdentityDocument := by
    have hlen : (t.toList.mergeSort beforeRow).length ≤ identityDocumentListLimitMax := by
      rw [List.length_mergeSort, Std.ExtTreeMap.length_toList]
      exact h.size
    exact congrArg (collectRows · rowToIdentityDocument) (List.take_of_length_le hlen)
  have hperm := List.mergeSort_perm t.toList beforeRow
  constructor
  · rintro ⟨docs, hlisted, -, -⟩ id row hrow
    rw [hlist] at hlisted
    obtain ⟨doc, hdoc⟩ := h.rows id row hrow
    have hmem := hperm.mem_iff.2 (Std.ExtTreeMap.mem_toList_iff_getElem?_eq_some.2 hrow)
    have hread := exists_collectRows.1 ⟨docs, hlisted⟩ (id, row) hmem
    rw [← hdoc] at hread
    obtain ⟨rfl, rfl⟩ := Prod.mk.inj hdoc
    exact Int.ofNat_le.2 (UInt64.le_iff_toNat_le.1 (exists_rowToIdentityDocument.1 hread))
  · intro htimes
    obtain ⟨docs, hdocs, hmap⟩ := collectRows_documents
      (fun row hrow => h.row (hperm.mem_iff.1 hrow))
      (fun row hrow => htimes row.1 row.2
        (Std.ExtTreeMap.mem_toList_iff_getElem?_eq_some.1 (hperm.mem_iff.1 hrow)))
    have hstored : (docs.map documentRow).Perm t.toList := by
      rw [hmap]
      exact hperm
    refine ⟨docs, hlist.trans hdocs, hstored, ?_⟩
    -- the keys are pairwise distinct, since the identifiers are
    have hids : docs.Pairwise fun a b => a.id.asStr ≠ b.id.asStr := by
      have hrows : t.toList.Pairwise fun a b => a.1 ≠ b.1 :=
        (Std.ExtTreeMap.distinct_keys_toList (t := t)).imp fun h heq =>
          h (Table.compare_eq_iff.2 heq)
      have hdocs : (docs.map documentRow).Pairwise fun a b => a.1 ≠ b.1 :=
        (hstored.pairwise_iff fun {_ _} hne => hne.symm).2 hrows
      rw [List.pairwise_map] at hdocs
      exact hdocs
    have hkeys : docs.Pairwise fun a b => documentKey a ≤ documentKey b := by
      have hrows := pairwise_beforeRow t.toList
      rw [← hmap, List.pairwise_map] at hrows
      simpa only [sortKey_documentRow] using hrows
    refine hkeys.imp₂ (fun a b hle hne => lt_of_le_of_ne hle fun heq => hne ?_) hids
    exact congrArg (fun key => (ofLex (ofLex key).2).2) heq

/-! ## Steps -/

theorem Typed.empty : Typed ∅ where
  rows id row hrow := by
    rw [Std.ExtTreeMap.getElem?_empty] at hrow
    cases hrow
  size := Nat.zero_le _

theorem checkDocument_ok_iff : checkDocument doc = .ok () ↔ doc.createdAt ≤ doc.updatedAt := by
  rw [← validate_ok_iff]
  unfold checkDocument
  cases doc.validate with
  | ok => exact iff_of_true rfl rfl
  | error e => exact iff_of_false nofun nofun

theorem checkColumn_ok_iff {at_ : UInt64} {field : String} :
    checkColumn at_ field = .ok () ↔ at_.toNat ≤ i64Max := by
  unfold checkColumn
  split
  · rename_i hlt
    exact iff_of_false nofun (Nat.not_le.2 hlt)
  · rename_i hlt
    exact iff_of_true rfl (Nat.not_lt.1 hlt)

/-- What the checks of an update ask of the document alone. -/
structure Storable (doc : IdentityDocument) : Prop where
  times : doc.createdAt ≤ doc.updatedAt
  content : isSecretShaped doc.content.asStr = false
  updatedAt : doc.updatedAt.toNat ≤ i64Max

/-- An accepted insertion changes nothing or adds the row of the document. -/
theorem putIdentityDocument_cases (h : putIdentityDocument t doc = .ok t') :
    t' = t ∨ (doc.createdAt ≤ doc.updatedAt ∧ t.size < identityDocumentCountMax ∧
      t' = t.insert doc.id.asStr (identityRow doc)) := by
  unfold putIdentityDocument at h
  split at h
  · cases h
  · obtain ⟨⟨⟩, htimes, h⟩ := bind_eq_ok.1 h
    obtain ⟨⟨⟩, -, h⟩ := bind_eq_ok.1 h
    obtain ⟨⟨⟩, -, h⟩ := bind_eq_ok.1 h
    cases hrow : t[doc.id.asStr]? with
    | some existing =>
      simp only [hrow] at h
      split at h
      · cases h
        exact .inl rfl
      · cases h
    | none =>
      simp only [hrow] at h
      split at h
      · cases h
      · rename_i hsize
        cases h
        exact .inr ⟨checkDocument_ok_iff.1 htimes, Nat.not_le.1 hsize, rfl⟩

/-- An update is accepted iff the document passes the checks and is there; the time
of creation that was stored stays. -/
theorem updateIdentityDocument_eq_ok :
    updateIdentityDocument t doc = .ok t' ↔
      Storable doc ∧ doc.id.asStr ∈ t ∧
        t' = t.update doc.id.asStr (revise doc) := by
  unfold updateIdentityDocument
  rw [bind_eq_ok]
  constructor
  · rintro ⟨⟨⟩, htimes, h⟩
    split at h
    · cases h
    · rename_i hsecret
      obtain ⟨⟨⟩, hcolumn, h⟩ := bind_eq_ok.1 h
      split at h
      · rename_i hmem
        cases h
        exact ⟨⟨checkDocument_ok_iff.1 htimes, Bool.eq_false_of_not_eq_true hsecret,
          checkColumn_ok_iff.1 hcolumn⟩, hmem, rfl⟩
      · cases h
  · rintro ⟨hdoc, hmem, rfl⟩
    refine ⟨(), checkDocument_ok_iff.2 hdoc.times, ?_⟩
    rw [if_neg (Bool.not_eq_true _ ▸ hdoc.content), checkColumn_ok_iff.2 hdoc.updatedAt]
    exact if_pos hmem

theorem deleteIdentityDocument_eq_ok {id : IdentityDocumentId}
    (h : deleteIdentityDocument t id = .ok t') : t' = t.erase id.asStr := by
  unfold deleteIdentityDocument at h
  split at h
  · cases h
    rfl
  · cases h

theorem identityStep_of_ok {op : IdentityOp} (h : identityWrite t op = .ok t') :
    identityStep t op = t' := by
  rw [identityStep, h]

/-- A step keeps the table or is an accepted write. -/
theorem identityStep_cases (t : IdentityTable) (op : IdentityOp) :
    identityStep t op = t ∨ identityWrite t op = .ok (identityStep t op) := by
  cases h : identityWrite t op with
  | error e =>
    left
    rw [identityStep, h]
  | ok t' =>
    right
    rw [identityStep_of_ok h]

theorem Typed.put (h : Typed t) (hsize : t.size < identityDocumentCountMax) :
    Typed (t.insert doc.id.asStr (identityRow doc)) where
  rows id row hrow := by
    rw [Table.getElem?_insert_eq] at hrow
    split at hrow
    · rename_i hid
      cases hrow
      exact ⟨doc, Prod.ext hid rfl⟩
    · exact h.rows id row hrow
  size := Nat.le_trans Std.ExtTreeMap.size_insert_le hsize

theorem Typed.update (h : Typed t) (doc : IdentityDocument) :
    Typed (t.update doc.id.asStr (revise doc)) where
  rows id row hrow := by
    rw [Table.getElem?_update] at hrow
    split at hrow
    · rename_i hid
      obtain ⟨old, hold, rfl⟩ := Option.map_eq_some_iff.1 hrow
      obtain ⟨before, hbefore⟩ := h.rows id old hold
      -- the row of the document that keeps the stored time of creation
      refine ⟨{ doc with createdAt := before.createdAt }, ?_⟩
      obtain ⟨-, rfl⟩ := Prod.mk.inj hbefore
      exact Prod.ext hid rfl
    · exact h.rows id row hrow
  size := by
    unfold Table.update
    rw [Std.ExtTreeMap.size_modify]
    exact h.size

theorem Typed.delete (h : Typed t) (id : String) : Typed (t.erase id) where
  rows other row hrow := by
    rw [Table.getElem?_erase_eq] at hrow
    split at hrow
    · cases hrow
    · exact h.rows other row hrow
  size := Nat.le_trans Std.ExtTreeMap.size_erase_le h.size

/-- Every write keeps the rows those of documents. -/
theorem Typed.step (h : Typed t) (op : IdentityOp) : Typed (identityStep t op) := by
  obtain hkeep | hwrite := identityStep_cases t op
  · rwa [hkeep]
  · cases op with
    | put doc =>
      obtain hkeep | ⟨-, hsize, hadd⟩ := putIdentityDocument_cases hwrite
      · rwa [hkeep]
      · rw [hadd]
        exact h.put hsize
    | update doc =>
      obtain ⟨-, -, hrow⟩ := updateIdentityDocument_eq_ok.1 hwrite
      rw [hrow]
      exact h.update doc
    | delete id =>
      rw [deleteIdentityDocument_eq_ok hwrite]
      exact h.delete id.asStr

/-! ## The writes that keep the table listable -/

/-- An update that passes its checks is not older than the stored time of creation. -/
def KeepsTimes (t : IdentityTable) : IdentityOp → Prop
  | .update doc =>
    Storable doc → ∀ row, t[doc.id.asStr]? = some row → row.createdAt ≤ doc.updatedAt.toNat
  | .put _ => True
  | .delete _ => True

theorem ordered_step (h : Ordered t) (op : IdentityOp) :
    Ordered (identityStep t op) ↔ KeepsTimes t op := by
  cases op with
  | put doc =>
    refine iff_of_true ?_ trivial
    obtain hkeep | hwrite := identityStep_cases t (.put doc)
    · rwa [hkeep]
    · obtain hkeep | ⟨htimes, -, hadd⟩ := putIdentityDocument_cases hwrite
      · rwa [hkeep]
      · rw [hadd]
        exact (Table.forall_insert_iff h).2 (Int.ofNat_le.2 (UInt64.le_iff_toNat_le.1 htimes))
  | delete id =>
    refine iff_of_true ?_ trivial
    obtain hkeep | hwrite := identityStep_cases t (.delete id)
    · rwa [hkeep]
    · intro other row hrow
      rw [deleteIdentityDocument_eq_ok hwrite, Table.getElem?_erase_eq] at hrow
      split at hrow
      · cases hrow
      · exact h other row hrow
  | update doc =>
    constructor
    · intro hafter hdoc row hrow
      have hmem : doc.id.asStr ∈ t := Table.mem_iff.2 ⟨row, hrow⟩
      have hwrite : identityWrite t (.update doc) = _ :=
        updateIdentityDocument_eq_ok.2 ⟨hdoc, hmem, rfl⟩
      rw [identityStep_of_ok hwrite] at hafter
      refine hafter doc.id.asStr (revise doc row) ?_
      rw [Table.getElem?_update_same, hrow, Option.map_some]
    · intro hguard
      obtain hkeep | hwrite := identityStep_cases t (.update doc)
      · rwa [hkeep]
      · obtain ⟨hdoc, -, hupdate⟩ := updateIdentityDocument_eq_ok.1 hwrite
        intro id row hrow
        rw [hupdate, Table.getElem?_update] at hrow
        split at hrow
        · rename_i hid
          obtain ⟨old, hold, rfl⟩ := Option.map_eq_some_iff.1 hrow
          exact hguard hdoc old (hid ▸ hold)
        · exact h id row hrow

theorem typed_run (ops : List IdentityOp) : Typed (identityMachine.run ops) :=
  identityMachine.invariant (fun _ op h => h.step op) .empty ops

/-- A document of a device. -/
def sampleDocument (createdAt updatedAt : UInt64) : IdentityDocument where
  id := ⟨"idd_fixture000000001", by decide⟩
  kind := .name
  content := ⟨"ada".toList, by decide, by decide, by decide⟩
  createdAt
  updatedAt

end Altior.Storage
