import Altior.Context.Selection

/-!
# The accounting of a context

The record of a context counts the tokens of the prompt, of the two sections and of the
whole.  Each part is rounded up on its own, and the line feed behind a section is counted
in the whole only; the header of the documents leaves room for it in its last token, the
header of the memories does not.

The record also says that documents were left out, unless the budget is below their
header.
-/

namespace Altior.Context

open Domain Lib

/-! ## Sections -/

/-- A section is as long as its lines with its header and a line feed. -/
theorem utf8ByteSize_renderSection {α : Type} (header : String) (line : α → String)
    (taken : List α) :
    (renderSection header (taken.map line)).utf8ByteSize =
      charge (header.utf8ByteSize + 1) (fun a => (line a).utf8ByteSize) taken := by
  have hjoin : (String.join (taken.map line)).utf8ByteSize =
      (taken.map fun a => (line a).utf8ByteSize).sum := by
    induction taken with
    | nil => simp
    | cons a taken ih =>
      rw [List.map_cons, String.join_cons, String.utf8ByteSize_append, ih, List.map_cons,
        List.sum_cons]
  have hfeed : ("\n").utf8ByteSize = 1 := by decide
  unfold renderSection charge
  rw [List.isEmpty_map]
  split
  · rfl
  · rw [String.utf8ByteSize_append, String.utf8ByteSize_append, hjoin]
    omega

section Rounding

variable {α : Type} {size tokens : α → Nat}

/-- Rounding up item by item. -/
theorem sum_le_rounded (h : ∀ a, tokens a = (size a + 3) / 4) (taken : List α) :
    (taken.map size).sum ≤ 4 * (taken.map tokens).sum := by
  induction taken with
  | nil => exact Nat.le_refl 0
  | cons a taken ih =>
    have ha := h a
    simp only [List.map_cons, List.sum_cons]
    omega

/-- Nothing is rounded iff every size is a multiple of four. -/
theorem sum_eq_rounded_iff (h : ∀ a, tokens a = (size a + 3) / 4) (taken : List α) :
    (taken.map size).sum = 4 * (taken.map tokens).sum ↔ ∀ a ∈ taken, 4 ∣ size a := by
  induction taken with
  | nil => simp
  | cons a taken ih =>
    have ha := h a
    have hrest := sum_le_rounded h taken
    rw [List.forall_mem_cons, ← ih]
    simp only [List.map_cons, List.sum_cons]
    omega

end Rounding

theorem estimateTokens_eq {s : String} (h : s.utf8ByteSize ≤ 4 * lineTokensMax) :
    estimateTokens s = (s.utf8ByteSize + 3) / 4 := by
  simp only [estimateTokens, lineTokensMax, u32Max] at h ⊢
  omega

/-! ## Tokens -/

/-- The recorded tokens bound each other and stay within the limits. -/
structure Accounted (budget : ContextTokenBudget) : Prop where
  total : budget.totalTokens ≤ budget.promptTokens + budget.identityTokens + budget.memoryTokens
  identity : budget.identityTokens ≤ budget.identityLimitTokens
  memory : budget.memoryTokens ≤ budget.memoryLimitTokens

/-- The bytes that the documents add to the prompt. -/
def identityBytes (docs : List IdentityDocument) : Nat :=
  charge (identityHeader.utf8ByteSize + 1) (fun doc => (formatIdentityLine doc).utf8ByteSize) docs

/-- The bytes that the memories add to the prompt. -/
def memoryBytes (hits : List MemoryHit) : Nat :=
  charge (memoryHeader.utf8ByteSize + 1)
    (fun hit => (formatMemoryLine hit.record).utf8ByteSize) hits

variable {docs : List IdentityDocument}

/-- The last token of the header has room for the line feed behind the section. -/
theorem identityBytes_le (h : docs ≠ []) : identityBytes docs + 2 ≤ 4 * identityCharge docs := by
  have hround := sum_le_rounded (fun doc => estimateTokens_eq (utf8ByteSize_formatIdentityLine_le doc))
    docs
  have hheader : identityHeader.utf8ByteSize = 57 := by decide
  have htokens : estimateTokens identityHeader = 15 := by decide
  unfold identityBytes identityCharge documentTokens
  rw [charge_of_ne_nil _ _ h, charge_of_ne_nil _ _ h, hheader, htokens]
  omega

theorem memoryBytes_le (hits : List MemoryHit) : memoryBytes hits ≤ 4 * memoryCharge hits + 1 := by
  have hround := sum_le_rounded
    (fun hit : MemoryHit => estimateTokens_eq (utf8ByteSize_formatMemoryLine_le hit.record)) hits
  have hheader : memoryHeader.utf8ByteSize = 72 := by decide
  have htokens : estimateTokens memoryHeader = 18 := by decide
  unfold memoryBytes memoryCharge hitTokens charge
  rw [hheader, htokens]
  split <;> omega

/-- The memories leave no room for the line feed behind their section iff every line fills
its tokens. -/
theorem memoryBytes_eq_iff {hits : List MemoryHit} (h : hits ≠ []) :
    memoryBytes hits = 4 * memoryCharge hits + 1 ↔
      ∀ hit ∈ hits, 4 ∣ (formatMemoryLine hit.record).utf8ByteSize := by
  have hround := sum_eq_rounded_iff
    (fun hit : MemoryHit => estimateTokens_eq (utf8ByteSize_formatMemoryLine_le hit.record)) hits
  have hheader : memoryHeader.utf8ByteSize = 72 := by decide
  have htokens : estimateTokens memoryHeader = 18 := by decide
  unfold memoryBytes memoryCharge hitTokens
  rw [← hround, charge_of_ne_nil _ _ h, charge_of_ne_nil _ _ h, hheader, htokens]
  omega

/-- No document fits, and the memories that fit and the prompt fill their tokens. -/
def NoRoom (params : AssembleParams) : Prop :=
  LongestPrefix (FitsCapped identityCharge params.budget.identityLimitTokens)
      (rankDocuments params.identityDocs) [] ∧
    ∃ taken, LongestPrefix (FitsCapped memoryCharge params.budget.memoryLimitTokens)
        ((rankHits params.memoryHits).filter params.allows) taken ∧ taken ≠ [] ∧
      (∀ hit ∈ taken, 4 ∣ (formatMemoryLine hit.record).utf8ByteSize) ∧
      4 ∣ params.userPrompt.utf8ByteSize ∧
      min (memoryCharge taken) u32Max + estimateTokens params.userPrompt < u32Max

section Assembled

variable [JsonWriter] {params : AssembleParams} {context : AssembledContext}

/-- The recorded tokens. -/
theorem Assembled.budget_eq (h : Assembled params context) {hits : List MemoryHit}
    {exhausted : Bool} (hidentity : identitySection params = .of docs exhausted)
    (hmemory : Chosen params (rankHits params.memoryHits) hits (memorySection params)) :
    context.snapshot.budget = {
      identityLimitTokens := params.budget.identityLimitTokens
      memoryLimitTokens := params.budget.memoryLimitTokens
      promptTokens := estimateTokens params.userPrompt
      identityTokens := min (identityCharge docs) u32Max
      memoryTokens := min (memoryCharge hits) u32Max
      totalTokens := min ((identityBytes docs + memoryBytes hits
        + params.userPrompt.utf8ByteSize + 3) / 4) u32Max } := by
  have hprompt : (renderWirePrompt params (identitySection params)
      (memorySection params)).utf8ByteSize =
        identityBytes docs + memoryBytes hits + params.userPrompt.utf8ByteSize := by
    unfold renderWirePrompt identityBytes memoryBytes
    rw [String.utf8ByteSize_append, String.utf8ByteSize_append, hidentity, hmemory.lines,
      ← utf8ByteSize_renderSection identityHeader, ← utf8ByteSize_renderSection memoryHeader]
    rfl
  have hdocs : (if (identitySection params).selected.isEmpty then 0 else (identitySection params).used)
      = min (identityCharge docs) u32Max := by
    rw [hidentity]
    cases docs <;> rfl
  have hhits : (if (memorySection params).selected.isEmpty then 0 else (memorySection params).used) =
      min (memoryCharge hits) u32Max := by
    rw [hmemory.selected, hmemory.used]
    cases hits <;> rfl
  rw [h.budget, AssembleParams.draft, draftSnapshot, hdocs, hhits, estimateTokens, estimateTokens,
    hprompt]

/-- **Accounting.**  The tokens of a context are accounted for, unless there is no room for
the line feed behind the memories. -/
theorem accounted_iff (h : assembleContext params = .ok context) :
    Accounted context.snapshot.budget ↔ ¬ NoRoom params := by
  obtain ⟨docs, hdocs, hidentity⟩ := identitySection_spec params
  obtain ⟨hits, hmemory⟩ := memorySection_spec params
  have hbudget := (assembled h).budget_eq hidentity hmemory
  have hroom : NoRoom params ↔ docs = [] ∧ hits ≠ [] ∧
      (∀ hit ∈ hits, 4 ∣ (formatMemoryLine hit.record).utf8ByteSize) ∧
        4 ∣ params.userPrompt.utf8ByteSize ∧
          min (memoryCharge hits) u32Max + estimateTokens params.userPrompt < u32Max := by
    constructor
    · rintro ⟨hnone, taken, htaken, hfull⟩
      obtain rfl := hdocs.unique hnone
      obtain rfl := hmemory.longest.unique htaken
      exact ⟨rfl, hfull⟩
    · rintro ⟨rfl, hfull⟩
      exact ⟨hdocs, hits, hmemory.longest, hfull⟩
  have htotal : Accounted context.snapshot.budget ↔
      context.snapshot.budget.totalTokens ≤ context.snapshot.budget.promptTokens +
        context.snapshot.budget.identityTokens + context.snapshot.budget.memoryTokens := by
    refine ⟨Accounted.total, fun htotal => ⟨htotal, ?_, ?_⟩⟩ <;> rw [hbudget]
    · exact hdocs.fitting
    · exact hmemory.longest.fitting
  rw [htotal, hroom, hbudget]
  dsimp only [estimateTokens]
  have hmemoryBytes := memoryBytes_le hits
  by_cases hempty : docs = []
  · subst hempty
    have hnone : identityBytes [] = 0 := rfl
    have hfree : identityCharge [] = 0 := rfl
    by_cases hhits : hits = []
    · subst hhits
      have hnone' : memoryBytes [] = 0 := rfl
      simp only [ne_eq, not_true_eq_false, false_and, and_false, not_false_eq_true, iff_true]
      omega
    · rw [← memoryBytes_eq_iff hhits]
      simp only [ne_eq, hhits, not_false_eq_true, true_and]
      omega
  · have hidentityBytes := identityBytes_le hempty
    simp only [hempty, false_and, not_false_eq_true, iff_true]
    omega

/-! ## Documents left out -/

/-- The prompt shows the documents `rendered`, and not the documents `omitted`. -/
structure Renders (params : AssembleParams) (context : AssembledContext)
    (rendered omitted : List IdentityDocument) : Prop where
  all : (rendered ++ omitted).Perm params.identityDocs
  prompt : context.wirePrompt = renderSection identityHeader (rendered.map formatIdentityLine) ++
    (renderSection memoryHeader (memorySection params).lines ++ params.userPrompt)

/-- Documents that are left out show in the record. -/
def DropsAudibly (params : AssembleParams) (context : AssembledContext) : Prop :=
  ∀ rendered omitted, Renders params context rendered omitted → omitted ≠ [] →
    context.snapshot.degraded.isSome

namespace Assembled

/-- When the record says that something is missing. -/
theorem isSome_degraded_iff (h : Assembled params context) :
    context.snapshot.degraded.isSome ↔ params.degraded.isSome ∨
      (identitySection params).exhausted ∨ ¬ Sized params.draft := by
  have hdraft : params.draft.degraded.isSome ↔
      params.degraded.isSome ∨ (identitySection params).exhausted := by
    change (params.degraded.orElse fun _ => _).isSome ↔ _
    cases params.degraded <;> cases (identitySection params).exhausted <;> simp
  rcases h.snapshot with heq | ⟨hsize, heq⟩
  · have hsized := h.sized
    rw [heq] at hsized ⊢
    rw [hdraft]
    simp [hsized]
  · rw [heq]
    refine iff_of_true ?_ (.inr (.inr hsize))
    unfold ContextSnapshot.omitPrompt
    cases params.draft.degraded <;> rfl

theorem renders (h : Assembled params context) {omitted : List IdentityDocument}
    {exhausted : Bool} (hidentity : identitySection params = .of docs exhausted)
    (hall : (docs ++ omitted).Perm params.identityDocs) : Renders params context docs omitted := by
  refine ⟨hall, h.prompt.trans ?_⟩
  unfold renderWirePrompt
  rw [hidentity, String.append_assoc]
  rfl

end Assembled

omit [JsonWriter] in
theorem identityBytes_of_ne_nil (h : docs ≠ []) :
    identityBytes docs = identityHeader.utf8ByteSize + 1 +
      (docs.map fun doc => (formatIdentityLine doc).utf8ByteSize).sum :=
  charge_of_ne_nil _ _ h

omit [JsonWriter] in
/-- A prompt that shows all documents leaves none out. -/
theorem Renders.omitted_eq_nil {rendered omitted : List IdentityDocument}
    (h : Renders params context rendered omitted) (h' : Renders params context docs []) :
    omitted = [] := by
  by_contra hne
  obtain ⟨doc, omitted, rfl⟩ := List.exists_cons_of_ne_nil hne
  have hperm : docs.Perm (rendered ++ doc :: omitted) := by
    have hall := h'.all
    rw [List.append_nil] at hall
    exact hall.trans h.all.symm
  have hbytes : identityBytes rendered = identityBytes docs := by
    have hlen := congrArg String.utf8ByteSize (h.prompt.symm.trans h'.prompt)
    simp only [String.utf8ByteSize_append, utf8ByteSize_renderSection] at hlen
    exact Nat.add_right_cancel hlen
  have hdoc : 1 ≤ (formatIdentityLine doc).utf8ByteSize := by
    rw [formatIdentityLine, String.utf8ByteSize_append]
    exact Nat.le_add_left_of_le (by decide)
  have hsum := (hperm.map fun doc => (formatIdentityLine doc).utf8ByteSize).sum_eq
  have hdocs : docs ≠ [] := by
    rintro rfl
    simpa using hperm.length_eq
  rw [List.map_append, List.sum_append, List.map_cons, List.sum_cons] at hsum
  rw [identityBytes_of_ne_nil hdocs, hsum] at hbytes
  by_cases hrendered : rendered = []
  · subst hrendered
    have hnone : identityBytes [] = 0 := rfl
    omega
  · rw [identityBytes_of_ne_nil hrendered] at hbytes
    omega

end Assembled

/-! ## Samples -/

section Sample

attribute [local instance] compactWriter

set_option maxRecDepth 20000 in
/-- The line feed behind the memory costs a token that no part has. -/
theorem green_not_accounted :
    ∃ context, assembleContext greenTurn = .ok context ∧ ¬ Accounted context.snapshot.budget :=
  ⟨_, assembleContext_greenTurn, fun h => absurd h.total (by decide)⟩

theorem accounted_iff_green : Accounted greenSnapshot.budget ↔ ¬ NoRoom greenTurn :=
  accounted_iff assembleContext_greenTurn

/-- A turn whose budget is below the header of the documents. -/
def narrowTurn : AssembleParams :=
  { tiedTurn [adaDocument] with budget := { ContextBudgetConfig.default with identityLimitTokens := 14 } }

/-- The record of the turn. -/
def narrowSnapshot : ContextSnapshot :=
  draftSnapshot narrowTurn (.of [] false) ⟨[], [], [], 0, false⟩ "help"

set_option maxRecDepth 20000 in
theorem length_narrowSnapshot : (compact narrowSnapshot.toJson).length ≤ 2000 := by
  decide

theorem identitySection_narrowTurn : identitySection narrowTurn = .of [] false := by
  rw [identitySection_eq, if_pos (by decide)]

theorem assembleContext_narrowTurn : assembleContext narrowTurn = .ok ⟨"help", narrowSnapshot⟩ := by
  have hscan : scanInputs narrowTurn = .ok () := by
    have hnone : narrowTurn.memoryHits = [] := rfl
    refine scanInputs_eq_ok.2 ⟨by decide, fun doc hdoc => ?_, fun hit hhit => ?_⟩
    · obtain rfl := List.mem_singleton.1 hdoc
      decide
    · rw [hnone] at hhit
      cases hhit
  have hbytes := utf8ByteSize_ofList_le (compact narrowSnapshot.toJson)
  have hlength := length_narrowSnapshot
  refine assembleContext_of_fits identitySection_narrowTurn (memorySection_tiedTurn [adaDocument])
    rfl rfl hscan (by decide) rfl ?_
  unfold Storage.contextSnapshotPayloadMaxBytes
  omega

end Sample

end Altior.Context
