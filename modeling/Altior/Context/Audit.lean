import Altior.Context.Assembler

/-!
# Recording an assembled context

`record_context_snapshot` of `altior-storage/src/identity.rs` on the record the
assembler hands over.  The store scans the whole serialized record again; the main
result says that this scan, the scan of a degradation the caller passed in and the
range of the time column are all that can keep an assembled context from being
recorded.
-/

namespace Altior.Context

open Domain
open Storage (StorageError)

/-! ## The store -/

/-- The texts of a record that are scanned on their own. -/
def scannedTexts (snapshot : ContextSnapshot) : List String :=
  snapshot.memories.map ContextMemoryEntry.whySelected
    ++ snapshot.degraded.toList.flatMap (fun degraded => [degraded.code, degraded.detail])
    ++ snapshot.renderedPrompt.toList

/-- `validate_snapshot_secrets`. -/
def validateSnapshotSecrets (snapshot : ContextSnapshot) : Except StorageError Unit :=
  if (scannedTexts snapshot).any isSecretShaped then .error .secretShapedContent else .ok ()

section Store

variable [JsonWriter] [SerdeJson]

/-- Serializes the record and stores it. -/
def recordContextSnapshot (s : Storage.Store) (snapshot : ContextSnapshot) :
    Except StorageError Storage.Store := do
  validateSnapshotSecrets snapshot
  match JsonWriter.toString snapshot.toJson with
  | .error e => .error (.invalidEntityData ("failed to serialize ContextSnapshot to JSON: " ++ e))
  | .ok payloadJson =>
    s.recordContextSnapshot
      { turnId := snapshot.turnId
        threadId := snapshot.threadId
        createdAt := snapshot.createdAt
        components := scannedTexts snapshot
        payloadJson }

omit [SerdeJson]

/-! ## What the assembler promises -/

variable {params : AssembleParams} {snapshot : ContextSnapshot}

section Selection

omit [JsonWriter]

theorem refuse_eq_ok {s kind : String} : refuse s kind = .ok () ↔ isSecretShaped s = false := by
  unfold refuse
  cases isSecretShaped s <;> simp

theorem forM_eq_ok {α ε : Type} {f : α → Except ε Unit} {items : List α} :
    items.forM f = .ok () ↔ ∀ a ∈ items, f a = .ok () := by
  induction items with
  | nil => exact iff_of_true rfl (fun _ h => nomatch h)
  | cons a items ih =>
    change (f a >>= fun _ => items.forM f) = .ok () ↔ _
    rw [Storage.bind_eq_ok, List.forall_mem_cons, ← ih]
    constructor
    · rintro ⟨⟨⟩, ha, hrest⟩
      exact ⟨ha, hrest⟩
    · rintro ⟨ha, hrest⟩
      exact ⟨(), ha, hrest⟩

/-- The rationale of every hit passed the scan. -/
theorem whySelected_of_scan (h : scanInputs params = .ok ()) :
    ∀ hit ∈ params.memoryHits, isSecretShaped hit.explanation.whySelected = false := by
  obtain ⟨⟨⟩, -, h⟩ := Storage.bind_eq_ok.1 h
  obtain ⟨⟨⟩, -, h⟩ := Storage.bind_eq_ok.1 h
  intro hit hhit
  obtain ⟨⟨⟩, -, hwhy⟩ := Storage.bind_eq_ok.1 (forM_eq_ok.1 h hit hhit)
  exact refuse_eq_ok.1 hwhy

variable {entry : ContextMemoryEntry}

/-- One round adds at most the entry of its hit. -/
theorem mem_selectMemory {mode : MemoryMode} {acc : MemorySelection} {ranked : MemoryHit × Nat}
    (h : entry ∈ (selectMemory params mode acc ranked).selected) :
    entry ∈ acc.selected ∨ entry.whySelected = ranked.1.explanation.whySelected := by
  unfold selectMemory at h
  dsimp only at h
  split at h
  · exact .inl h
  · split at h
    · exact .inl h
    · generalize hneeded : (if acc.selected.isEmpty then _ else _) = needed at h
      split at h
      · rcases List.mem_append.1 h with hold | hnew
        · exact .inl hold
        · rw [List.mem_singleton.1 hnew]
          exact .inr rfl
      · exact .inl h

/-- The selected memories are among the hits. -/
theorem mem_foldl_selectMemory {mode : MemoryMode} {ranked : List (MemoryHit × Nat)}
    {acc : MemorySelection} (h : entry ∈ (ranked.foldl (selectMemory params mode) acc).selected) :
    entry ∈ acc.selected ∨
      ∃ r ∈ ranked, entry.whySelected = r.1.explanation.whySelected := by
  induction ranked generalizing acc with
  | nil => exact .inl h
  | cons r ranked ih =>
    rcases ih h with hacc | ⟨r', hr', heq⟩
    · rcases mem_selectMemory hacc with hold | hnew
      · exact .inl hold
      · exact .inr ⟨r, List.mem_cons_self .., hnew⟩
    · exact .inr ⟨r', List.mem_cons_of_mem r hr', heq⟩

theorem mem_memorySection (h : entry ∈ (memorySection params).selected) :
    ∃ hit ∈ params.memoryHits, entry.whySelected = hit.explanation.whySelected := by
  rcases mem_foldl_selectMemory h with hnone | ⟨r, hr, heq⟩
  · cases hnone
  · have hmem := (List.mergeSort_perm _ _).mem_iff.1 (List.fst_mem_of_mem_zipIdx hr)
    exact ⟨r.1, hmem, heq⟩

end Selection

/-- A degradation with a secret-shaped text. -/
def ContextDegradation.isSecretShaped (degraded : ContextDegradation) : Bool :=
  Domain.isSecretShaped degraded.code || Domain.isSecretShaped degraded.detail

/-- What holds of the record of an assembled context. -/
structure Vetted (params : AssembleParams) (snapshot : ContextSnapshot) : Prop where
  turnId : snapshot.turnId = params.turnId
  createdAt : snapshot.createdAt = params.now
  memories : ∀ entry ∈ snapshot.memories, isSecretShaped entry.whySelected = false
  degraded : snapshot.degraded.any ContextDegradation.isSecretShaped =
    params.degraded.any ContextDegradation.isSecretShaped
  renderedPrompt : ∀ prompt, snapshot.renderedPrompt = some prompt → isSecretShaped prompt = false

omit [JsonWriter] in
/-- A degradation of the assembler's own changes nothing. -/
theorem any_orElse_own {degraded : Option ContextDegradation} {own : ContextDegradation}
    (hown : own.isSecretShaped = false) :
    (degraded.orElse fun _ => some own).any ContextDegradation.isSecretShaped =
      degraded.any ContextDegradation.isSecretShaped := by
  cases degraded with
  | none => exact hown
  | some d => rfl

omit [JsonWriter] in
theorem vetted_draftSnapshot {identity : IdentitySelection} {wirePrompt : String}
    (hscan : scanInputs params = .ok ()) (hwire : isSecretShaped wirePrompt = false) :
    Vetted params (draftSnapshot params identity (memorySection params) wirePrompt) where
  turnId := rfl
  createdAt := rfl
  memories entry hentry := by
    obtain ⟨hit, hhit, heq⟩ := mem_memorySection hentry
    rw [heq]
    exact whySelected_of_scan hscan hit hhit
  degraded := by
    change (params.degraded.orElse fun _ => if identity.exhausted then _ else none).any _ = _
    cases identity.exhausted with
    | true => exact any_orElse_own (by decide)
    | false => cases params.degraded <;> rfl
  renderedPrompt prompt hprompt := by
    obtain ⟨-, ⟨⟩⟩ := Option.ite_none_left_eq_some.1 hprompt
    exact hwire

/-- The bound leaves a record that serializes within the limit. -/
theorem boundSnapshot_eq_ok {bounded : ContextSnapshot} (h : boundSnapshot snapshot = .ok bounded)
    (hvetted : Vetted params snapshot) :
    Vetted params bounded ∧ ∃ payload, JsonWriter.toString bounded.toJson = .ok payload ∧
      payload.utf8ByteSize ≤ Storage.contextSnapshotPayloadMaxBytes := by
  have hserialize {snapshot : ContextSnapshot} {payload : String}
      (hpayload : serialize snapshot = .ok payload) :
      JsonWriter.toString snapshot.toJson = .ok payload := by
    unfold serialize at hpayload
    cases hjson : JsonWriter.toString snapshot.toJson with
    | ok written =>
      rw [hjson] at hpayload
      exact congrArg _ (Except.ok.inj hpayload)
    | error e =>
      rw [hjson] at hpayload
      cases hpayload
  obtain ⟨payload, hpayload, h⟩ := Storage.bind_eq_ok.1 h
  split at h
  · rename_i hsize
    cases h
    exact ⟨hvetted, payload, hserialize hpayload, hsize⟩
  · split at h
    · cases h
    · obtain ⟨smaller, hsmaller, h⟩ := Storage.bind_eq_ok.1 h
      split at h
      · rename_i hsize
        cases h
        -- without the prompt, and with a degradation of the assembler's own
        have hown : renderedPromptOmitted.isSecretShaped = false := by decide
        have hdegraded := (any_orElse_own hown).trans hvetted.degraded
        exact ⟨⟨hvetted.turnId, hvetted.createdAt, hvetted.memories, hdegraded, nofun⟩, smaller,
          hserialize hsmaller, hsize⟩
      · cases h

/-- The record of an assembled context. -/
theorem vetted_assembleContext {a : AssembledContext} (h : assembleContext params = .ok a) :
    Vetted params a.snapshot ∧ ∃ payload, JsonWriter.toString a.snapshot.toJson = .ok payload ∧
      payload.utf8ByteSize ≤ Storage.contextSnapshotPayloadMaxBytes := by
  obtain ⟨⟨⟩, hscan, h⟩ := Storage.bind_eq_ok.1 h
  obtain ⟨⟨⟩, hwire, h⟩ := Storage.bind_eq_ok.1 h
  obtain ⟨snapshot, hbound, h⟩ := Storage.bind_eq_ok.1 h
  cases h
  exact boundSnapshot_eq_ok hbound (vetted_draftSnapshot hscan (refuse_eq_ok.1 hwire))

omit [JsonWriter] in
/-- Of a vetted record only the degradation is left to scan. -/
theorem Vetted.any_scannedTexts (h : Vetted params snapshot) :
    (scannedTexts snapshot).any isSecretShaped =
      params.degraded.any ContextDegradation.isSecretShaped := by
  have hmemories : (snapshot.memories.map ContextMemoryEntry.whySelected).any isSecretShaped =
      false := by
    rw [List.any_map, List.any_eq_false]
    intro entry hentry
    exact Bool.not_eq_true _ ▸ h.memories entry hentry
  have hprompt : snapshot.renderedPrompt.toList.any isSecretShaped = false := by
    cases hp : snapshot.renderedPrompt with
    | none => rfl
    | some prompt => exact (Bool.or_false _).trans (h.renderedPrompt prompt hp)
  unfold scannedTexts
  rw [List.any_append, List.any_append, hmemories, hprompt, Bool.false_or, Bool.or_false,
    ← h.degraded]
  cases snapshot.degraded with
  | none => rfl
  | some degraded => exact congrArg _ (Bool.or_false _)

/-- An assembly whose record fits hands the record over as it is. -/
theorem assembleContext_of_fits {identity : IdentitySelection} {memory : MemorySelection}
    {wirePrompt payload : String} (hidentity : identitySection params = identity)
    (hmemory : memorySection params = memory)
    (hprompt : renderWirePrompt params identity memory = wirePrompt)
    (hdraft : draftSnapshot params identity memory wirePrompt = snapshot)
    (hscan : scanInputs params = .ok ()) (hwire : isSecretShaped wirePrompt = false)
    (hpayload : JsonWriter.toString snapshot.toJson = .ok payload)
    (hsize : payload.utf8ByteSize ≤ Storage.contextSnapshotPayloadMaxBytes) :
    assembleContext params = .ok ⟨wirePrompt, snapshot⟩ := by
  have hbound : boundSnapshot snapshot = .ok snapshot := by
    refine Storage.bind_eq_ok.2 ⟨payload, ?_, if_pos hsize⟩
    unfold serialize
    rw [hpayload]
    rfl
  subst hidentity
  subst hmemory
  subst hprompt
  subst hdraft
  exact Storage.bind_eq_ok.2 ⟨(), hscan, Storage.bind_eq_ok.2 ⟨(), refuse_eq_ok.2 hwire,
    Storage.bind_eq_ok.2 ⟨_, hbound, rfl⟩⟩⟩

/-! ## Recording -/

variable [SerdeJson]

/-- A record that is secret-shaped as a whole is refused. -/
theorem recordContextSnapshot_of_secret {payload : String}
    (hpayload : JsonWriter.toString snapshot.toJson = .ok payload)
    (hsecret : isSecretShaped payload = true) (s : Storage.Store) :
    recordContextSnapshot s snapshot = .error .secretShapedContent := by
  unfold recordContextSnapshot validateSnapshotSecrets
  split
  · rfl
  · rw [hpayload]
    unfold Storage.Store.recordContextSnapshot
    simp only [hsecret, Bool.or_true, if_true]
    rfl

/-- **The audit write after an assembly.**  Into a store without a record of the turn
the record of an assembled context is written, unless a degradation the caller passed
in or the serialized record as a whole is secret-shaped, or the time does not fit its
column. -/
theorem recordContextSnapshot_assembled {params : AssembleParams} {a : AssembledContext}
    (h : assembleContext params = .ok a) {s : Storage.Store}
    (hnew : s.contextSnapshot[params.turnId]? = none) :
    ∃ payload, JsonWriter.toString a.snapshot.toJson = .ok payload ∧
      recordContextSnapshot s a.snapshot =
        if params.degraded.any ContextDegradation.isSecretShaped || isSecretShaped payload then
          .error .secretShapedContent
        else if i64Max < params.now.toNat then
          .error (.invalidEntityData ("created_at " ++ toString params.now.toNat ++ " exceeds i64"))
        else
          .ok { s with contextSnapshot := s.contextSnapshot.insert params.turnId payload } := by
  obtain ⟨hvetted, payload, hpayload, hsize⟩ := vetted_assembleContext h
  refine ⟨payload, hpayload, ?_⟩
  have hscanned := hvetted.any_scannedTexts
  unfold recordContextSnapshot validateSnapshotSecrets
  rw [hscanned]
  cases hdegraded : params.degraded.any ContextDegradation.isSecretShaped with
  | true => rfl
  | false =>
    rw [hpayload]
    unfold Storage.Store.recordContextSnapshot
    simp only [hscanned, hdegraded, hvetted.turnId, hvetted.createdAt, hnew,
      Nat.not_lt.2 hsize, Bool.false_or, Bool.false_eq_true, if_false]
    rfl

end Store

/-! ## A prompt of two lines -/

/-- `serde_json` escapes the quote, the backslash and the control characters. -/
def escapeJsonChar (c : Char) : List Char :=
  match c.toNat with
  | 0x08 => "\\b".toList
  | 0x09 => "\\t".toList
  | 0x0a => "\\n".toList
  | 0x0c => "\\f".toList
  | 0x0d => "\\r".toList
  | 0x22 => "\\\"".toList
  | 0x5c => "\\\\".toList
  | n =>
    if n < 0x20 then "\\u00".toList ++ [hexDigit (n / 16), hexDigit (n % 16)] else [c]

def quoteJson (s : String) : List Char := "\"".toList ++ s.toList.flatMap escapeJsonChar ++ "\"".toList

mutual

/-- The compact text of a value without floats. -/
def compact : Json → List Char
  | .scalar .null => "null".toList
  | .scalar (.bool b) => (toString b).toList
  | .scalar (.number (.posInt n)) => (toString n.toNat).toList
  | .scalar (.number (.negInt n)) => (toString n.toInt).toList
  | .scalar (.number (.float _)) => "0.0".toList
  | .scalar (.string s) => quoteJson s
  | .array items => '[' :: compactItems items ++ [']']
  | .object fields => "\x7b".toList ++ compactFields fields ++ "\x7d".toList

def compactItems : List Json → List Char
  | [] => []
  | [v] => compact v
  | v :: rest => compact v ++ ',' :: compactItems rest

def compactFields : List (String × Json) → List Char
  | [] => []
  | [(k, v)] => quoteJson k ++ ':' :: compact v
  | (k, v) :: rest => quoteJson k ++ ':' :: compact v ++ ',' :: compactFields rest

end

/-- The writer on the samples, which hold no score. -/
abbrev compactWriter : JsonWriter where
  toString v := .ok (String.ofList (compact v))

theorem isSecretShaped_of_hexRun {cs : List Char} (htrim : (trim cs).isEmpty = false)
    (hrun : detectLongHexRun cs = true) : isSecretShaped (String.ofList cs) = true := by
  unfold isSecretShaped
  simp only [String.toList_ofList, htrim, hrun, Bool.or_true, Bool.true_or, Bool.false_eq_true,
    if_false]

section Sample

attribute [local instance] compactWriter flatObjects

/-- A turn without documents and memories. -/
def plainTurn (turnId : TurnId) : AssembleParams where
  turnId
  threadId := ⟨"thr_context000000001", by decide⟩
  projectId := none
  memoryMode := "off"
  userPrompt := "hi"
  identityDocs := []
  memoryHits := []
  budget := .default
  now := 10
  degraded := none

/-- The record of such a turn. -/
def plainSnapshot (turnId : TurnId) : ContextSnapshot :=
  draftSnapshot (plainTurn turnId) ⟨[], [], 0, false⟩ ⟨[], [], [], 0, false⟩ "hi"

theorem assembleContext_plainTurn {turnId : TurnId}
    (hsize : (compact (plainSnapshot turnId).toJson).length ≤ 1000) :
    assembleContext (plainTurn turnId) = .ok ⟨"hi", plainSnapshot turnId⟩ := by
  have hbytes := utf8ByteSize_ofList_le (compact (plainSnapshot turnId).toJson)
  have hidentity : identitySection (plainTurn turnId) = ⟨[], [], 0, false⟩ := by
    simp [identitySection, plainTurn, selectIdentities]
  have hmemory : memorySection (plainTurn turnId) = ⟨[], [], [], 0, false⟩ := by
    simp [memorySection, plainTurn]
  have hscan : scanInputs (plainTurn turnId) = .ok () := by
    refine Storage.bind_eq_ok.2 ⟨(), refuse_eq_ok.2 ?_, rfl⟩
    change isSecretShaped "hi" = false
    decide
  refine assembleContext_of_fits hidentity hmemory rfl rfl hscan (by decide) rfl ?_
  unfold Storage.contextSnapshotPayloadMaxBytes
  omega

def wordTurnId : TurnId := ⟨"trn_context000000001", by decide⟩

def hexTurnId : TurnId := ⟨"trn_0123456789abcdef0123456789abcdef", by decide⟩

/-- A turn whose record is written. -/
theorem recordContextSnapshot_plainTurn :
    ∃ a, assembleContext (plainTurn wordTurnId) = .ok a ∧
      ∃ payload, JsonWriter.toString a.snapshot.toJson = .ok payload ∧
        recordContextSnapshot .empty a.snapshot =
          if isSecretShaped payload then .error .secretShapedContent
          else .ok { Storage.Store.empty with
            contextSnapshot := Storage.Store.empty.contextSnapshot.insert wordTurnId payload } := by
  have hassemble := @assembleContext_plainTurn wordTurnId (by decide +kernel)
  exact ⟨_, hassemble, recordContextSnapshot_assembled hassemble rfl⟩

/-- The identifier of the turn alone makes the record secret-shaped: it holds
thirty-two hexadecimal digits, which no text of the context does. -/
theorem not_always_recorded :
    ¬ ∀ (params : AssembleParams) (a : AssembledContext) (s : Storage.Store),
      assembleContext params = .ok a → s.contextSnapshot[params.turnId]? = none →
      ∃ s', recordContextSnapshot s a.snapshot = .ok s' := by
  intro h
  have hassemble := @assembleContext_plainTurn hexTurnId (by decide +kernel)
  obtain ⟨s', hrecord⟩ := h _ _ .empty hassemble rfl
  have hsecret := @isSecretShaped_of_hexRun (compact (plainSnapshot hexTurnId).toJson)
    (by decide) (by decide)
  rw [recordContextSnapshot_of_secret rfl hsecret] at hrecord
  cases hrecord

end Sample

end Altior.Context
