import Altior.Context.Audit
import Altior.Context.Sanitizing
import Altior.Lib.Budget
import Altior.Lib.TopK

/-!
# What the assembler selects

Documents and memories are ranked, and of either the longest prefix is taken that fits
its budget together with the header of its section.  Memories whose scope the turn does
not allow are left out before; the record names every memory that is left out.

The loops add up in `u32` and stop at its end.  The record of a context is bounded, so
what was taken never reaches that end.
-/

namespace Altior.Context

open Domain Lib

/-! ## The rankings -/

/-- Any two scores compare. -/
def Comparable (hits : List MemoryHit) : Prop :=
  ∀ a ∈ hits, ∀ b ∈ hits,
    (F64.partialCmp a.explanation.totalScore b.explanation.totalScore).isSome

/-- Documents that tie in rank are one document. -/
def Tieless (docs : List IdentityDocument) : Prop :=
  ∀ a ∈ docs, ∀ b ∈ docs, compareDocuments a b = .eq → a = b

theorem totalOn_scores {hits : List MemoryHit} (h : Comparable hits) :
    TotalOn (fun a b : MemoryHit =>
      (F64.partialCmp a.explanation.totalScore b.explanation.totalScore).getD .eq) hits := by
  have hkey : ∀ a ∈ hits, ∀ b ∈ hits,
      (F64.partialCmp a.explanation.totalScore b.explanation.totalScore).getD .eq =
        compare a.explanation.totalScore.key b.explanation.totalScore.key := by
    intro a ha b hb
    have hsome := h a ha b hb
    unfold F64.partialCmp at hsome ⊢
    split at hsome
    · cases hsome
    · rename_i hnan
      rw [if_neg hnan, Option.getD_some]
  refine ⟨fun a ha b hb => ?_, fun a ha b hb c hc => ?_⟩
  · rw [hkey a ha b hb, hkey b hb a ha]
    exact Std.OrientedCmp.eq_swap
  · rw [hkey a ha b hb, hkey b hb c hc, hkey a ha c hc]
    exact Std.TransCmp.isLE_trans

/-- Hits with scores that compare are totally ordered. -/
theorem totalOn_compareHits {hits : List MemoryHit} (h : Comparable hits) :
    TotalOn (fun a b => compareHits b a) hits :=
  ((totalOn_scores h).lex
    (TotalOn.of_key compare (fun hit : MemoryHit => hit.record.updatedAt) hits)).lex
      (TotalOn.of_key compare (fun hit : MemoryHit => hit.record.memoryId) hits)

theorem totalOn_compareDocuments (docs : List IdentityDocument) :
    TotalOn (fun a b => compareDocuments b a) docs :=
  (((TotalOn.of_key compare (fun doc : IdentityDocument => doc.kind.renderPriority) docs).lex
    (TotalOn.of_key compare (fun doc : IdentityDocument => doc.createdAt) docs)).lex
      (TotalOn.of_key compare (fun doc : IdentityDocument => doc.id.asStr) docs)).flip

/-- Sorting by a comparison puts the lesser first. -/
theorem mergeSort_eq_sortDown {α : Type} (cmp : α → α → Ordering) (l : List α) :
    (l.mergeSort fun a b => cmp a b ≠ .gt) = sortDown (fun a b => cmp b a) l := by
  unfold sortDown
  congr 1
  funext a b
  change decide (cmp a b ≠ .gt) = (cmp a b).isLE
  cases cmp a b <;> rfl

/-- The documents in the order of rendering. -/
def rankDocuments (docs : List IdentityDocument) : List IdentityDocument :=
  sortDown (fun a b => compareDocuments b a) docs

/-- The hits in the order of relevance. -/
def rankHits (hits : List MemoryHit) : List MemoryHit := sortDown (fun a b => compareHits b a) hits

theorem rankDocuments_pairwise (docs : List IdentityDocument) :
    (rankDocuments docs).Pairwise fun a b => (compareDocuments a b).isLE :=
  sortDown_pairwise (totalOn_compareDocuments docs)

theorem rankDocuments_eq_of_perm {docs docs' : List IdentityDocument} (h : Tieless docs)
    (hperm : docs'.Perm docs) : rankDocuments docs' = rankDocuments docs :=
  sortDown_eq_of_perm (totalOn_compareDocuments docs)
    (fun a ha b hb htie => (h b hb a ha htie).symm) hperm

/-- Hits that tie are hits of one memory. -/
theorem memoryId_eq_of_compareHits {a b : MemoryHit} (h : compareHits a b = .eq) :
    a.record.memoryId = b.record.memoryId := by
  unfold compareHits at h
  exact (Std.LawfulEqCmp.eq_of_compare (Ordering.then_eq_eq.1 h).2).symm

section Hits

variable {hits : List MemoryHit} (hids : (hits.map fun hit => hit.record.memoryId).Nodup)
  (hscores : Comparable hits)

include hids hscores

theorem rankHits_eq_of_perm {hits' : List MemoryHit} (hperm : hits'.Perm hits) :
    rankHits hits' = rankHits hits :=
  sortDown_eq_of_perm (totalOn_compareHits hscores)
    (fun _ ha _ hb htie => List.inj_on_of_nodup_map hids ha hb
      (memoryId_eq_of_compareHits htie).symm) hperm

/-- No two hits of different memories tie. -/
theorem rankHits_pairwise : (rankHits hits).Pairwise fun a b => compareHits a b = .lt := by
  have hperm : (rankHits hits).Perm hits := sortDown_perm hits
  have hdistinct := List.pairwise_map.1 ((hperm.map _).nodup_iff.2 hids)
  refine (sortDown_pairwise (totalOn_compareHits hscores)).imp₂ (fun a b hle hne => ?_) hdistinct
  rcases Ordering.isLE_iff_eq_lt_or_eq_eq.1 hle with hlt | htie
  · exact hlt
  · exact absurd (memoryId_eq_of_compareHits htie) hne

end Hits

/-! ## Documents -/

def documentTokens (doc : IdentityDocument) : Nat := estimateTokens (formatIdentityLine doc)

/-- What the documents cost with the header of their section. -/
def identityCharge (docs : List IdentityDocument) : Nat :=
  charge (estimateTokens identityHeader) documentTokens docs

def documentEntry (doc : IdentityDocument) : ContextIdentityEntry where
  documentId := doc.id
  kind := doc.kind
  tokens := documentTokens doc

/-- The selection of these documents. -/
def IdentitySelection.of (taken : List IdentityDocument) (exhausted : Bool) : IdentitySelection where
  selected := taken.map documentEntry
  lines := taken.map formatIdentityLine
  used := min (identityCharge taken) u32Max
  exhausted := exhausted

/-- The charge of one more item, as the loops compute it. -/
theorem needed_eq {α β : Type} {header : Nat} {cost : α → Nat} (f : α → β) (taken : List α)
    (a : α) :
    (if (taken.map f).isEmpty then saturatingAdd header (cost a)
      else saturatingAdd (min (charge header cost taken) u32Max) (cost a)) =
        min (charge header cost (taken ++ [a])) u32Max := by
  by_cases h : taken = []
  · subst h
    simp [charge_singleton, saturatingAdd]
  · rw [charge_concat header cost h, List.isEmpty_map, if_neg (by simpa using h), saturatingAdd]
    omega

/-- Charging at most the end of `u32` against a budget. -/
def FitsCapped {α : Type} (charge : List α → Nat) (limit : Nat) (items : List α) : Prop :=
  min (charge items) u32Max ≤ limit

theorem FitsCapped.of_isPrefix {α : Type} {header : Nat} {cost : α → Nat} {limit : Nat}
    (p q : List α) (h : p <+: q) (hq : FitsCapped (charge header cost) limit q) :
    FitsCapped (charge header cost) limit p :=
  (min_le_min_right u32Max (charge_mono h)).trans hq

/-- One round of the loop. -/
theorem selectIdentities_cons (limit : Nat) (doc : IdentityDocument) (docs : List IdentityDocument)
    (seen : List IdentityDocument) :
    selectIdentities limit (doc :: docs) (.of seen false) =
      if min (identityCharge (seen ++ [doc])) u32Max ≤ limit then
        selectIdentities limit docs (.of (seen ++ [doc]) false)
      else .of seen true := by
  have hneeded := @needed_eq _ _ (estimateTokens identityHeader) documentTokens
    documentEntry seen doc
  simp only [selectIdentities, IdentitySelection.of, List.map_append, List.map_cons, List.map_nil]
  unfold identityCharge
  rw [← hneeded]
  rfl

/-- The loop takes the longest prefix that fits, and says whether it is all. -/
theorem selectIdentities_of {limit : Nat} (docs : List IdentityDocument)
    {seen : List IdentityDocument} (h : FitsCapped identityCharge limit seen) :
    ∃ taken, LongestPrefix (FitsCapped identityCharge limit) (seen ++ docs) taken ∧
      selectIdentities limit docs (.of seen false) =
        .of taken (decide (taken.length ≠ (seen ++ docs).length)) := by
  induction docs generalizing seen with
  | nil =>
    refine ⟨seen, by simpa using LongestPrefix.all h, ?_⟩
    rw [List.append_nil, decide_eq_false (not_not.2 rfl)]
    rfl
  | cons doc docs ih =>
    rw [selectIdentities_cons]
    by_cases hfits : min (identityCharge (seen ++ [doc])) u32Max ≤ limit
    · rw [if_pos hfits]
      obtain ⟨taken, hlongest, hrun⟩ := ih hfits
      rw [← List.append_cons] at hlongest hrun
      exact ⟨taken, hlongest, hrun⟩
    · rw [if_neg hfits]
      refine ⟨seen, .stop_append h hfits FitsCapped.of_isPrefix docs, ?_⟩
      rw [decide_eq_true]
      simp

theorem identitySection_eq (params : AssembleParams) :
    identitySection params =
      if params.budget.identityLimitTokens < estimateTokens identityHeader then .of [] false
      else selectIdentities params.budget.identityLimitTokens (rankDocuments params.identityDocs)
        (.of [] false) := by
  unfold identitySection
  rw [mergeSort_eq_sortDown]
  rfl

/-- The section of the documents. -/
theorem identitySection_spec (params : AssembleParams) :
    ∃ taken, LongestPrefix (FitsCapped identityCharge params.budget.identityLimitTokens)
        (rankDocuments params.identityDocs) taken ∧
      identitySection params = .of taken
        (decide (estimateTokens identityHeader ≤ params.budget.identityLimitTokens ∧
          taken.length ≠ params.identityDocs.length)) := by
  have hlen : (rankDocuments params.identityDocs).length = params.identityDocs.length :=
    (sortDown_perm _).length_eq
  have hnil : FitsCapped identityCharge params.budget.identityLimitTokens [] := Nat.zero_le _
  rw [identitySection_eq]
  split
  · -- Not even the header fits.
    rename_i hheader
    refine ⟨[], ?_, ?_⟩
    · refine .none hnil (fun doc hfits => ?_) FitsCapped.of_isPrefix _
      unfold FitsCapped identityCharge at hfits
      rw [charge_singleton] at hfits
      have hmax : estimateTokens identityHeader ≤ u32Max := Nat.min_le_right ..
      omega
    · rw [decide_eq_false fun h => absurd h.1 (Nat.not_le.2 hheader)]
  · rename_i hheader
    obtain ⟨taken, hlongest, hrun⟩ := selectIdentities_of (rankDocuments params.identityDocs) hnil
    refine ⟨taken, hlongest, hrun.trans ?_⟩
    rw [List.nil_append, hlen]
    congr 1
    rw [decide_eq_decide]
    exact (and_iff_right (Nat.not_lt.1 hheader)).symm

/-! ## Memories -/

def hitTokens (hit : MemoryHit) : Nat := estimateTokens (formatMemoryLine hit.record)

/-- What the memories cost with the header of their section. -/
def memoryCharge (hits : List MemoryHit) : Nat :=
  charge (estimateTokens memoryHeader) hitTokens hits

def hitEntry (hit : MemoryHit) : ContextMemoryEntry := memoryEntry hit (hitTokens hit)

/-- The mode of the turn; an unknown name is `off`. -/
def AssembleParams.mode (params : AssembleParams) : MemoryMode :=
  (MemoryMode.tryFromStr params.memoryMode).getD .off

/-- The turn allows the scope of the memory. -/
def AssembleParams.allows (params : AssembleParams) (hit : MemoryHit) : Bool :=
  isAllowedInContext hit.record.scope params.mode params.threadId params.projectId

/-- The hit at a position of the ranking is left out. -/
def MemorySelection.drop (acc : MemorySelection) (hit : MemoryHit) (i : Nat)
    (reason : ContextDropReason) : MemorySelection :=
  { acc with
    dropped := acc.dropped ++ [⟨hit.record.memoryId, hitTokens hit, min (i + 1) u32Max, reason⟩] }

section Rounds

variable {params : AssembleParams} {taken : List MemoryHit} {acc : MemorySelection}
  {hit : MemoryHit}

theorem selectMemory_disallowed (h : params.allows hit = false) (i : Nat) :
    selectMemory params params.mode acc (hit, i) = acc.drop hit i .scopeDisallowed := by
  unfold AssembleParams.allows at h
  simp only [selectMemory, h, Bool.not_false, if_true]
  rfl

theorem selectMemory_behind (h : params.allows hit = true) (hcutoff : acc.cutoff = true) (i : Nat) :
    selectMemory params params.mode acc (hit, i) = acc.drop hit i .budgetExhausted := by
  unfold AssembleParams.allows at h
  simp only [selectMemory, h, hcutoff, Bool.not_true, Bool.false_eq_true, if_false, if_true,
    MemorySelection.drop]
  rfl

theorem selectMemory_open (h : params.allows hit = true) (hcutoff : acc.cutoff = false)
    (hselected : acc.selected = taken.map hitEntry)
    (hused : acc.used = min (memoryCharge taken) u32Max) (i : Nat) :
    selectMemory params params.mode acc (hit, i) =
      if min (memoryCharge (taken ++ [hit])) u32Max ≤ params.budget.memoryLimitTokens then
        { acc with
          selected := acc.selected ++ [hitEntry hit]
          lines := acc.lines ++ [formatMemoryLine hit.record]
          used := min (memoryCharge (taken ++ [hit])) u32Max }
      else { acc with cutoff := true }.drop hit i .budgetExhausted := by
  have hneeded := @needed_eq _ _ (estimateTokens memoryHeader) hitTokens hitEntry
    taken hit
  have hused' : min (charge (estimateTokens memoryHeader) hitTokens taken) u32Max = acc.used :=
    hused.symm
  rw [← hselected, hused'] at hneeded
  unfold AssembleParams.allows at h
  simp only [selectMemory, h, hcutoff, Bool.not_true, Bool.false_eq_true, if_false]
  unfold memoryCharge
  rw [← hneeded]
  rfl

end Rounds

/-- After the hits `seen`, of which `taken` were taken. -/
structure Chosen (params : AssembleParams) (seen taken : List MemoryHit) (acc : MemorySelection) :
    Prop where
  longest : LongestPrefix (FitsCapped memoryCharge params.budget.memoryLimitTokens)
    (seen.filter params.allows) taken
  selected : acc.selected = taken.map hitEntry
  lines : acc.lines = taken.map fun hit => formatMemoryLine hit.record
  used : acc.used = min (memoryCharge taken) u32Max
  cutoff : acc.cutoff = true ↔ taken ≠ seen.filter params.allows
  partition : (acc.selected.map ContextMemoryEntry.memoryId ++
    acc.dropped.map ContextDroppedEntry.memoryId).Perm (seen.map fun hit => hit.record.memoryId)

namespace Chosen

variable {params : AssembleParams} {seen taken : List MemoryHit} {acc : MemorySelection}

theorem nil (params : AssembleParams) : Chosen params [] [] ⟨[], [], [], 0, false⟩ where
  longest := .all (Nat.zero_le _)
  selected := rfl
  lines := rfl
  used := rfl
  cutoff := by simp
  partition := .nil

/-- A hit that is left out is recorded. -/
theorem partition_drop (h : Chosen params seen taken acc) (hit : MemoryHit) (i : Nat)
    (reason : ContextDropReason) :
    ((acc.drop hit i reason).selected.map ContextMemoryEntry.memoryId ++
      (acc.drop hit i reason).dropped.map ContextDroppedEntry.memoryId).Perm
        ((seen ++ [hit]).map fun hit => hit.record.memoryId) := by
  rw [MemorySelection.drop, List.map_append, List.map_append, ← List.append_assoc]
  exact h.partition.append_right _

/-- A hit that is taken is recorded. -/
theorem partition_take (h : Chosen params seen taken acc) (hit : MemoryHit) :
    ((acc.selected ++ [hitEntry hit]).map ContextMemoryEntry.memoryId ++
      acc.dropped.map ContextDroppedEntry.memoryId).Perm
        ((seen ++ [hit]).map fun hit => hit.record.memoryId) := by
  rw [List.map_append, List.map_append, List.append_assoc]
  refine (List.perm_append_comm.append_left _).trans ?_
  rw [← List.append_assoc]
  exact h.partition.append_right _

/-- A hit that is not allowed changes nothing but the record. -/
theorem disallowed (h : Chosen params seen taken acc) {hit : MemoryHit}
    (hallowed : params.allows hit = false) (i : Nat) :
    Chosen params (seen ++ [hit]) taken (acc.drop hit i .scopeDisallowed) := by
  have hfilter : (seen ++ [hit]).filter params.allows = seen.filter params.allows := by
    simp [hallowed]
  exact ⟨hfilter ▸ h.longest, h.selected, h.lines, h.used, hfilter ▸ h.cutoff, h.partition_drop ..⟩

theorem filter_concat {hit : MemoryHit} (hallowed : params.allows hit = true) :
    (seen ++ [hit]).filter params.allows = seen.filter params.allows ++ [hit] := by
  simp [hallowed]

/-- After the cutoff no hit is taken. -/
theorem behind (h : Chosen params seen taken acc) {hit : MemoryHit}
    (hallowed : params.allows hit = true) (hcutoff : acc.cutoff = true) (i : Nat) :
    Chosen params (seen ++ [hit]) taken (acc.drop hit i .budgetExhausted) := by
  have hlongest := h.longest.skip (a := hit) (h.cutoff.1 hcutoff) FitsCapped.of_isPrefix
  have hshort := h.longest.isPrefix.length_le
  rw [← filter_concat hallowed] at hlongest
  refine ⟨hlongest, h.selected, h.lines, h.used, iff_of_true hcutoff fun hall => ?_,
    h.partition_drop ..⟩
  rw [hall, filter_concat hallowed, List.length_append, List.length_singleton] at hshort
  omega

/-- Before the cutoff every allowed hit was taken. -/
theorem eq_filter (h : Chosen params seen taken acc) (hcutoff : acc.cutoff = false) :
    taken = seen.filter params.allows := by
  by_contra hne
  rw [h.cutoff.2 hne] at hcutoff
  cases hcutoff

/-- One round of the loop. -/
theorem step (h : Chosen params seen taken acc) (hit : MemoryHit) (i : Nat) :
    ∃ taken', Chosen params (seen ++ [hit]) taken' (selectMemory params params.mode acc (hit, i)) := by
  cases hallowed : params.allows hit with
  | false =>
    rw [selectMemory_disallowed hallowed]
    exact ⟨taken, h.disallowed hallowed i⟩
  | true =>
    cases hcutoff : acc.cutoff with
    | true =>
      rw [selectMemory_behind hallowed hcutoff]
      exact ⟨taken, h.behind hallowed hcutoff i⟩
    | false =>
      obtain rfl := h.eq_filter hcutoff
      have hfilter : (seen ++ [hit]).filter params.allows = seen.filter params.allows ++ [hit] :=
        filter_concat hallowed
      rw [selectMemory_open hallowed hcutoff h.selected h.used, ← hfilter]
      split
      · rename_i hfits
        refine ⟨_, .all hfits, ?_, ?_, rfl, iff_of_false ?_ (not_not.2 rfl), h.partition_take hit⟩
        · rw [hfilter, h.selected, List.map_append, List.map_singleton]
        · rw [hfilter, h.lines, List.map_append, List.map_singleton]
        · rw [hcutoff]
          exact Bool.false_ne_true
      · rename_i hfits
        refine ⟨_, ?_, h.selected, h.lines, h.used, iff_of_true rfl ?_, h.partition_drop ..⟩
        · rw [hfilter] at hfits ⊢
          exact .stop h.longest hfits
        · rw [hfilter]
          simp

/-- The loop over ranked hits. -/
theorem foldl (hits : List MemoryHit) (i : Nat) (h : Chosen params seen taken acc) :
    ∃ taken', Chosen params (seen ++ hits) taken'
      ((hits.zipIdx i).foldl (selectMemory params params.mode) acc) := by
  induction hits generalizing seen taken acc i with
  | nil => exact ⟨taken, by simpa using h⟩
  | cons hit hits ih =>
    obtain ⟨taken', hstep⟩ := h.step hit i
    rw [List.append_cons, List.zipIdx_cons, List.foldl_cons]
    exact ih (i + 1) hstep

end Chosen

theorem memorySection_eq (params : AssembleParams) :
    memorySection params = (rankHits params.memoryHits).zipIdx.foldl
      (selectMemory params params.mode) ⟨[], [], [], 0, false⟩ := by
  unfold memorySection
  rw [mergeSort_eq_sortDown]
  rfl

/-- The section of the memories. -/
theorem memorySection_spec (params : AssembleParams) :
    ∃ taken, Chosen params (rankHits params.memoryHits) taken (memorySection params) := by
  rw [memorySection_eq]
  exact (Chosen.nil params).foldl (rankHits params.memoryHits) 0

/-! ## Sizes -/

theorem estimateTokens_le {s : String} {n : Nat} (h : s.utf8ByteSize ≤ 4 * n) :
    estimateTokens s ≤ n := by
  unfold estimateTokens
  omega

/-- An upper bound of the tokens of one line. -/
def lineTokensMax : Nat := 10000

theorem utf8ByteSize_formatIdentityLine_le (doc : IdentityDocument) :
    (formatIdentityLine doc).utf8ByteSize ≤ 4 * lineTokensMax := by
  have hcontent := doc.content.len_le
  have hkind : doc.kind.asStr.utf8ByteSize ≤ 11 := by cases doc.kind <;> decide
  have hopen : ("- [").utf8ByteSize = 3 := by decide
  have hclose : ("]: ").utf8ByteSize = 3 := by decide
  have hfeed : ("\n").utf8ByteSize = 1 := by decide
  simp only [formatIdentityLine, String.utf8ByteSize_append, IdentityContent.asStr,
    utf8ByteSize_ofList, identityContentMaxBytes, lineTokensMax] at hcontent ⊢
  omega

theorem utf8ByteSize_displayScope_le (scope : MemoryScope) :
    (displayScope scope).utf8ByteSize ≤ 8 + maxLabelBytes := by
  have hlabel {name : String} (hname : name.utf8ByteSize ≤ 8) (label : BoundedLabel) :
      (name ++ String.ofList label.chars).utf8ByteSize ≤ 8 + maxLabelBytes := by
    have hlen := label.len_le
    rw [String.utf8ByteSize_append, utf8ByteSize_ofList]
    omega
  cases scope with
  | global => decide
  | person label => exact hlabel (by decide) label
  | project label => exact hlabel (by decide) label
  | thread label => exact hlabel (by decide) label

theorem utf8ByteSize_formatMemoryLine_le (record : MemoryRecord) :
    (formatMemoryLine record).utf8ByteSize ≤ 4 * lineTokensMax := by
  have hcontent := utf8Len_sanitizeMemoryContent_le record.content
  have hscope := utf8ByteSize_displayScope_le record.scope
  have hkind : record.kind.asStr.utf8ByteSize ≤ 11 := by cases record.kind <;> decide
  have hsource : record.source.asStr.utf8ByteSize ≤ 8 := by cases record.source <;> decide
  have hopen : ("- [").utf8ByteSize = 3 := by decide
  have hmiddle : (" | scope=").utf8ByteSize = 9 := by decide
  have hfrom : (", source=").utf8ByteSize = 9 := by decide
  have hclose : ("]: ").utf8ByteSize = 3 := by decide
  have hfeed : ("\n").utf8ByteSize = 1 := by decide
  simp only [formatMemoryLine, String.utf8ByteSize_append, utf8ByteSize_ofList,
    memoryContentMaxBytes, maxLabelBytes, lineTokensMax] at hcontent hscope ⊢
  omega

theorem documentTokens_le (doc : IdentityDocument) : documentTokens doc ≤ lineTokensMax :=
  estimateTokens_le (utf8ByteSize_formatIdentityLine_le doc)

theorem hitTokens_le (hit : MemoryHit) : hitTokens hit ≤ lineTokensMax :=
  estimateTokens_le (utf8ByteSize_formatMemoryLine_le hit.record)

mutual

/-- The number of values in a value, itself among them. -/
def countValues : Json → Nat
  | .scalar _ => 1
  | .array items => 1 + countItems items
  | .object fields => 1 + countFields fields

def countItems : List Json → Nat
  | [] => 0
  | v :: rest => countValues v + countItems rest

def countFields : List (String × Json) → Nat
  | [] => 0
  | (_, v) :: rest => countValues v + countFields rest

end

/-- Every value takes at least one byte of a JSON text. -/
class SizedWriter [JsonWriter] : Prop where
  countValues_le : ∀ {v : Json} {s : String}, JsonWriter.toString v = .ok s →
    countValues v ≤ s.utf8ByteSize

theorem one_le_countValues (v : Json) : 1 ≤ countValues v := by
  cases v <;> simp only [countValues] <;> omega

theorem length_le_countItems (items : List Json) : items.length ≤ countItems items := by
  induction items with
  | nil => exact Nat.le_refl 0
  | cons v rest ih =>
    have hv := one_le_countValues v
    simp only [countItems, List.length_cons]
    omega

theorem countValues_le_countFields {k : String} {v : Json} {fields : List (String × Json)}
    (h : (k, v) ∈ fields) : countValues v ≤ countFields fields := by
  induction fields with
  | nil => cases h
  | cons field fields ih =>
    rcases List.mem_cons.1 h with rfl | h
    · exact Nat.le_add_right ..
    · exact (ih h).trans (Nat.le_add_left ..)

/-- A record holds no more entries than values. -/
theorem length_le_countValues {k : String} {items : List Json} {fields : List (String × Json)}
    (h : (k, .array items) ∈ fields) : items.length ≤ countValues (.object fields) := by
  have hitems := length_le_countItems items
  have harray := countValues_le_countFields h
  simp only [countValues] at harray ⊢
  omega

/-! ## The assembled context -/

section Assembled

variable [JsonWriter] {params : AssembleParams} {context : AssembledContext}

/-- The record before its size is known. -/
def AssembleParams.draft (params : AssembleParams) : ContextSnapshot :=
  draftSnapshot params (identitySection params) (memorySection params)
    (renderWirePrompt params (identitySection params) (memorySection params))

/-- The record without its prompt. -/
def ContextSnapshot.omitPrompt (snapshot : ContextSnapshot) : ContextSnapshot :=
  { snapshot with
    renderedPrompt := none
    degraded := snapshot.degraded.orElse fun _ => some renderedPromptOmitted }

/-- The record fits its limit. -/
def Sized (snapshot : ContextSnapshot) : Prop :=
  ∃ payload, serialize snapshot = .ok payload ∧
    payload.utf8ByteSize ≤ Storage.contextSnapshotPayloadMaxBytes

/-- What an assembly that succeeds hands over. -/
structure Assembled (params : AssembleParams) (context : AssembledContext) : Prop where
  scanned : scanInputs params = .ok ()
  prompt : context.wirePrompt = renderWirePrompt params (identitySection params)
    (memorySection params)
  snapshot : context.snapshot = params.draft ∨
    ¬ Sized params.draft ∧ context.snapshot = params.draft.omitPrompt
  sized : Sized context.snapshot

theorem boundSnapshot_cases {snapshot bounded : ContextSnapshot}
    (h : boundSnapshot snapshot = .ok bounded) :
    (bounded = snapshot ∨ ¬ Sized snapshot ∧ bounded = snapshot.omitPrompt) ∧ Sized bounded := by
  obtain ⟨payload, hpayload, h⟩ := Storage.bind_eq_ok.1 h
  split at h
  · rename_i hsize
    cases h
    exact ⟨.inl rfl, payload, hpayload, hsize⟩
  · rename_i hsize
    split at h
    · cases h
    · obtain ⟨smaller, hsmaller, h⟩ := Storage.bind_eq_ok.1 h
      split at h
      · rename_i hfits
        cases h
        refine ⟨.inr ⟨?_, rfl⟩, smaller, hsmaller, hfits⟩
        rintro ⟨payload', hpayload', hsize'⟩
        rw [hpayload] at hpayload'
        cases hpayload'
        exact hsize hsize'
      · cases h

theorem assembled (h : assembleContext params = .ok context) : Assembled params context := by
  obtain ⟨⟨⟩, hscan, h⟩ := Storage.bind_eq_ok.1 h
  obtain ⟨⟨⟩, -, h⟩ := Storage.bind_eq_ok.1 h
  obtain ⟨snapshot, hbound, h⟩ := Storage.bind_eq_ok.1 h
  cases h
  obtain ⟨hsnapshot, hsized⟩ := boundSnapshot_cases hbound
  exact ⟨hscan, rfl, hsnapshot, hsized⟩

omit [JsonWriter] in
/-- As many lines as a record holds do not reach the end of `u32`. -/
theorem charge_le_u32Max {α : Type} {header : Nat} {cost : α → Nat} {items : List α}
    (hheader : header ≤ lineTokensMax) (hcost : ∀ a ∈ items, cost a ≤ lineTokensMax)
    (hcount : items.length ≤ Storage.contextSnapshotPayloadMaxBytes) :
    charge header cost items ≤ u32Max := by
  have hle : charge header cost items ≤ header + items.length * lineTokensMax := charge_le hcost
  have hmul := Nat.mul_le_mul_right lineTokensMax hcount
  simp only [Storage.contextSnapshotPayloadMaxBytes, lineTokensMax, u32Max] at *
  omega

namespace Assembled

theorem memories (h : Assembled params context) :
    context.snapshot.memories = (memorySection params).selected := by
  rcases h.snapshot with heq | ⟨-, heq⟩ <;> rw [heq] <;> rfl

theorem dropped (h : Assembled params context) :
    context.snapshot.dropped = (memorySection params).dropped := by
  rcases h.snapshot with heq | ⟨-, heq⟩ <;> rw [heq] <;> rfl

theorem identity (h : Assembled params context) :
    context.snapshot.identity = (identitySection params).selected := by
  rcases h.snapshot with heq | ⟨-, heq⟩ <;> rw [heq] <;> rfl

theorem budget (h : Assembled params context) : context.snapshot.budget = params.draft.budget := by
  rcases h.snapshot with heq | ⟨-, heq⟩
  · rw [heq]
  · rw [heq]
    rfl

/-- The record of a context holds a bounded number of entries. -/
theorem length_le [SizedWriter] (h : Assembled params context) :
    context.snapshot.memories.length ≤ Storage.contextSnapshotPayloadMaxBytes ∧
      context.snapshot.identity.length ≤ Storage.contextSnapshotPayloadMaxBytes := by
  obtain ⟨payload, hpayload, hsize⟩ := h.sized
  have hjson : JsonWriter.toString context.snapshot.toJson = .ok payload := by
    unfold serialize at hpayload
    cases hjson : JsonWriter.toString context.snapshot.toJson with
    | ok written =>
      rw [hjson] at hpayload
      exact congrArg _ (Except.ok.inj hpayload)
    | error e =>
      rw [hjson] at hpayload
      cases hpayload
  have hcount := (SizedWriter.countValues_le hjson).trans hsize
  constructor <;> refine le_trans ?_ hcount
  · rw [← List.length_map ContextMemoryEntry.toJson]
    exact length_le_countValues (List.mem_append_left _ (.tail _ (.tail _ (.tail _ (.tail _
      (.tail _ (.tail _ (.tail _ (.head _)))))))))
  · rw [← List.length_map ContextIdentityEntry.toJson]
    exact length_le_countValues (List.mem_append_left _ (.tail _ (.tail _ (.tail _ (.tail _
      (.tail _ (.tail _ (.head _))))))))

/-- The memories are the longest prefix of the allowed hits that fits the budget. -/
theorem memories_longest [SizedWriter] (h : Assembled params context) :
    ∃ taken, context.snapshot.memories = taken.map hitEntry ∧
      Chosen params (rankHits params.memoryHits) taken (memorySection params) ∧
      memoryCharge taken ≤ u32Max ∧
      LongestPrefix (fun hits => memoryCharge hits ≤ params.budget.memoryLimitTokens)
        ((rankHits params.memoryHits).filter params.allows) taken := by
  obtain ⟨taken, hchosen⟩ := memorySection_spec params
  have hselected := h.memories.trans hchosen.selected
  have hcount := h.length_le.1
  rw [hselected, List.length_map] at hcount
  have hcharge : memoryCharge taken ≤ u32Max :=
    charge_le_u32Max (by decide) (fun hit _ => hitTokens_le hit) hcount
  exact ⟨taken, hselected, hchosen, hcharge, hchosen.longest.uncapped hcharge⟩

/-- The documents are the longest prefix of all documents that fits the budget. -/
theorem identity_longest [SizedWriter] (h : Assembled params context) :
    ∃ taken, context.snapshot.identity = taken.map documentEntry ∧
      identitySection params = .of taken
        (decide (estimateTokens identityHeader ≤ params.budget.identityLimitTokens ∧
          taken.length ≠ params.identityDocs.length)) ∧
      identityCharge taken ≤ u32Max ∧
      LongestPrefix (fun docs => identityCharge docs ≤ params.budget.identityLimitTokens)
        (rankDocuments params.identityDocs) taken := by
  obtain ⟨taken, hlongest, hsection⟩ := identitySection_spec params
  have hselected := h.identity.trans (congrArg IdentitySelection.selected hsection)
  have hcount := h.length_le.2
  rw [hselected, IdentitySelection.of, List.length_map] at hcount
  have hcharge : identityCharge taken ≤ u32Max :=
    charge_le_u32Max (by decide) (fun doc _ => documentTokens_le doc) hcount
  exact ⟨taken, hselected, hsection, hcharge, hlongest.uncapped hcharge⟩

/-- The prompt of the user comes last, and alone when nothing was selected. -/
theorem prompt_eq (h : Assembled params context) :
    ∃ before, context.wirePrompt = before ++ params.userPrompt ∧
      (context.snapshot.identity = [] → context.snapshot.memories = [] → before = "") := by
  obtain ⟨docs, -, hidentity⟩ := identitySection_spec params
  obtain ⟨hits, hmemory⟩ := memorySection_spec params
  refine ⟨_, h.prompt, fun hdocs hhits => ?_⟩
  rw [h.identity, hidentity] at hdocs
  rw [h.memories, hmemory.selected, List.map_eq_nil_iff] at hhits
  obtain rfl := List.map_eq_nil_iff.1 hdocs
  rw [hidentity, hmemory.lines, hhits]
  rfl

end Assembled

/-! ## The order of the inputs -/

omit [JsonWriter] in
theorem andThen_eq_ok {ε β : Type} {x : Except ε Unit} {y : Except ε β} {b : β} :
    (do x; y) = .ok b ↔ x = .ok () ∧ y = .ok b := by
  cases x <;> simp [bind, Except.bind]

omit [JsonWriter] in
/-- The inputs pass the scan one by one. -/
theorem scanInputs_eq_ok {params : AssembleParams} :
    scanInputs params = .ok () ↔ isSecretShaped params.userPrompt = false ∧
      (∀ doc ∈ params.identityDocs, isSecretShaped doc.content.asStr = false) ∧
        ∀ hit ∈ params.memoryHits,
          isSecretShaped (String.ofList hit.record.content.chars) = false ∧
            isSecretShaped hit.explanation.whySelected = false := by
  unfold scanInputs
  simp only [andThen_eq_ok, forM_eq_ok, refuse_eq_ok]

/-- The parameters with their inputs in another order. -/
def AssembleParams.reorder (params : AssembleParams) (docs : List IdentityDocument)
    (hits : List MemoryHit) : AssembleParams :=
  { params with identityDocs := docs, memoryHits := hits }

/-- The order of the inputs does not show. -/
theorem assembleContext_reorder {docs : List IdentityDocument} {hits : List MemoryHit}
    (hids : (params.memoryHits.map fun hit => hit.record.memoryId).Nodup)
    (hscores : Comparable params.memoryHits) (hties : Tieless params.identityDocs)
    (hdocs : docs.Perm params.identityDocs) (hhits : hits.Perm params.memoryHits)
    (h : assembleContext params = .ok context) :
    assembleContext (params.reorder docs hits) = .ok context := by
  have hscan : scanInputs (params.reorder docs hits) = .ok () := by
    obtain ⟨hprompt, hdocs', hhits'⟩ := scanInputs_eq_ok.1 (assembled h).scanned
    exact scanInputs_eq_ok.2 ⟨hprompt, fun doc hdoc => hdocs' doc (hdocs.subset hdoc),
      fun hit hhit => hhits' hit (hhits.subset hhit)⟩
  have hidentity : identitySection (params.reorder docs hits) = identitySection params := by
    rw [identitySection_eq, identitySection_eq, ← rankDocuments_eq_of_perm hties hdocs]
    rfl
  have hmemory : memorySection (params.reorder docs hits) = memorySection params := by
    rw [memorySection_eq, memorySection_eq, ← rankHits_eq_of_perm hids hscores hhits]
    rfl
  unfold assembleContext at h ⊢
  rw [hscan, hidentity, hmemory]
  rw [(assembled h).scanned] at h
  exact h

/-! ## The selection -/

/-- A hit in the rank of its score, then of its last update, then of its identifier. -/
def Outranks (a b : MemoryHit) : Prop := compareHits a b = .lt

/-- What is selected of the inputs and how it shows in the prompt. -/
structure Selects (params : AssembleParams) (context : AssembledContext) : Prop where
  partition : (context.snapshot.memories.map ContextMemoryEntry.memoryId ++
    context.snapshot.dropped.map ContextDroppedEntry.memoryId).Perm
      (params.memoryHits.map fun hit => hit.record.memoryId)
  allowed : ∀ entry ∈ context.snapshot.memories,
    isAllowedInContext entry.scope params.mode params.threadId params.projectId
  memories : ∃ ranked taken : List MemoryHit, ranked.Perm params.memoryHits ∧
    ranked.Pairwise Outranks ∧ context.snapshot.memories = taken.map hitEntry ∧
      LongestPrefix (fun hits => memoryCharge hits ≤ params.budget.memoryLimitTokens)
        (ranked.filter params.allows) taken
  identity : ∃ ranked taken : List IdentityDocument, ranked.Perm params.identityDocs ∧
    ranked.Pairwise (fun a b => (compareDocuments a b).isLE) ∧
      context.snapshot.identity = taken.map documentEntry ∧
        LongestPrefix (fun docs => identityCharge docs ≤ params.budget.identityLimitTokens)
          ranked taken
  order : ∀ docs hits, docs.Perm params.identityDocs → hits.Perm params.memoryHits →
    assembleContext (params.reorder docs hits) = .ok context
  prompt : ∃ before, context.wirePrompt = before ++ params.userPrompt ∧
    (context.snapshot.identity = [] → context.snapshot.memories = [] → before = "")

end Assembled

/-! ## A turn with a memory -/

section Sample

attribute [local instance] compactWriter

theorem length_le_utf8Len (cs : List Char) : cs.length ≤ utf8Len cs := by
  induction cs with
  | nil => exact Nat.le_refl 0
  | cons c cs ih =>
    have hc := Char.utf8Size_pos c
    rw [utf8Len, List.length_cons]
    omega

theorem toString_ne_nil (n : Nat) : 1 ≤ (toString n).toList.length := by
  rw [Nat.toString_eq_ofList_toDigits, String.toList_ofList]
  exact Nat.length_toDigits_pos

theorem length_toString_int (n : Int) : 1 ≤ (toString n).toList.length := by
  cases n with
  | ofNat n => exact toString_ne_nil n
  | negSucc n =>
    change 1 ≤ ("-" ++ toString (n + 1)).toList.length
    rw [String.toList_append, List.length_append]
    exact Nat.le_add_right_of_le (by decide)

mutual

theorem countValues_le_length : ∀ v : Json, countValues v ≤ (compact v).length
  | .scalar .null => by decide
  | .scalar (.bool b) => by cases b <;> decide
  | .scalar (.number (.posInt n)) => toString_ne_nil n.toNat
  | .scalar (.number (.negInt n)) => length_toString_int n.toInt
  | .scalar (.number (.float _)) => by
      change 1 ≤ ("0.0").toList.length
      decide
  | .scalar (.string s) => by
      simp only [countValues, compact, quoteJson, List.length_append]
      exact Nat.le_add_right_of_le (Nat.le_add_right_of_le (by decide))
  | .array items => by
      have hitems := countItems_le_length items
      simp only [countValues, compact, List.length_append, List.length_cons, List.length_nil]
      omega
  | .object fields => by
      have hfields := countFields_le_length fields
      have hopen : ("\x7b").toList.length = 1 := by decide
      simp only [countValues, compact, List.length_append]
      omega

theorem countItems_le_length : ∀ items : List Json, countItems items ≤ (compactItems items).length
  | [] => Nat.le_refl 0
  | [v] => countValues_le_length v
  | v :: v' :: rest => by
      have hv := countValues_le_length v
      have hrest := countItems_le_length (v' :: rest)
      simp only [countItems, compactItems, List.length_append, List.length_cons] at hrest ⊢
      omega

theorem countFields_le_length :
    ∀ fields : List (String × Json), countFields fields ≤ (compactFields fields).length
  | [] => Nat.le_refl 0
  | [(k, v)] => by
      have hv := countValues_le_length v
      simp only [countFields, compactFields, List.length_append, List.length_cons]
      omega
  | (k, v) :: field :: rest => by
      have hv := countValues_le_length v
      have hrest := countFields_le_length (field :: rest)
      simp only [countFields, compactFields, List.length_append, List.length_cons] at hrest ⊢
      omega

end

instance : SizedWriter where
  countValues_le {v s} h := by
    cases h
    rw [utf8ByteSize_ofList]
    exact (countValues_le_length v).trans (length_le_utf8Len _)

/-- A memory that fills its line to a multiple of four bytes. -/
def greenHit : MemoryHit where
  record := { returnRecord with content := ⟨"green".toList, by decide, by decide, by decide⟩ }
  explanation := ⟨0, "match"⟩

/-- A turn with this memory. -/
def greenTurn : AssembleParams where
  turnId := wordTurnId
  threadId := (plainTurn wordTurnId).threadId
  projectId := none
  memoryMode := "long_term"
  userPrompt := "help"
  identityDocs := []
  memoryHits := [greenHit]
  budget := .default
  now := 10
  degraded := none

theorem identitySection_greenTurn : identitySection greenTurn = .of [] false := by
  rw [identitySection_eq]
  simp [greenTurn, rankDocuments, sortDown, selectIdentities]

theorem memorySection_greenTurn :
    memorySection greenTurn = ⟨[hitEntry greenHit], [formatMemoryLine greenHit.record], [], 30, false⟩ := by
  rw [memorySection_eq]
  have hrank : rankHits greenTurn.memoryHits = [greenHit] := by
    simp [greenTurn, rankHits, sortDown]
  rw [hrank]
  rfl

/-- The prompt of the turn. -/
def greenPrompt : String :=
  memoryHeader ++ "- [fact | scope=global, source=inferred]: green\n" ++ "\n" ++ "help"

/-- The record of the turn. -/
def greenSnapshot : ContextSnapshot :=
  draftSnapshot greenTurn (.of [] false)
    ⟨[hitEntry greenHit], [formatMemoryLine greenHit.record], [], 30, false⟩ greenPrompt

set_option maxRecDepth 20000 in
theorem greenPrompt_not_secret : isSecretShaped greenPrompt = false := by
  decide

set_option maxRecDepth 20000 in
theorem length_greenSnapshot : (compact greenSnapshot.toJson).length ≤ 2000 := by
  decide

theorem assembleContext_greenTurn : assembleContext greenTurn = .ok ⟨greenPrompt, greenSnapshot⟩ := by
  have hscan : scanInputs greenTurn = .ok () := by
    refine scanInputs_eq_ok.2 ⟨by decide, nofun, fun hit hhit => ?_⟩
    obtain rfl := List.mem_singleton.1 hhit
    exact ⟨by decide, by decide⟩
  have hprompt : renderWirePrompt greenTurn (.of [] false)
      ⟨[hitEntry greenHit], [formatMemoryLine greenHit.record], [], 30, false⟩ = greenPrompt := by
    decide
  have hbytes := utf8ByteSize_ofList_le (compact greenSnapshot.toJson)
  have hlength := length_greenSnapshot
  refine assembleContext_of_fits identitySection_greenTurn memorySection_greenTurn hprompt rfl hscan
    greenPrompt_not_secret rfl ?_
  unfold Storage.contextSnapshotPayloadMaxBytes
  omega

/-- A document under an identifier that others have too. -/
def tiedDocument (content : IdentityContent) : IdentityDocument where
  id := ⟨"idd_context000000001", by decide⟩
  kind := .name
  content := content
  createdAt := 1
  updatedAt := 1

def adaDocument : IdentityDocument := tiedDocument ⟨"Ada".toList, by decide, by decide, by decide⟩

def boDocument : IdentityDocument := tiedDocument ⟨"Bo".toList, by decide, by decide, by decide⟩

/-- A turn with these documents. -/
def tiedTurn (docs : List IdentityDocument) : AssembleParams :=
  { greenTurn with identityDocs := docs, memoryHits := [] }

theorem memorySection_tiedTurn (docs : List IdentityDocument) :
    memorySection (tiedTurn docs) = ⟨[], [], [], 0, false⟩ := by
  rw [memorySection_eq]
  simp [tiedTurn, rankHits, sortDown]

/-- Documents that tie stay in the order in which they come. -/
theorem rankDocuments_tied {docs : List IdentityDocument}
    (h : docs.Pairwise fun a b => atLeast (fun a b => compareDocuments b a) a b = true) :
    rankDocuments docs = docs :=
  List.mergeSort_of_pairwise h

theorem identitySection_ada :
    identitySection (tiedTurn [adaDocument, boDocument]) = .of [adaDocument, boDocument] false := by
  have hrank : rankDocuments (tiedTurn [adaDocument, boDocument]).identityDocs =
      [adaDocument, boDocument] := rankDocuments_tied (by decide)
  rw [identitySection_eq, hrank]
  rfl

theorem identitySection_bo :
    identitySection (tiedTurn [boDocument, adaDocument]) = .of [boDocument, adaDocument] false := by
  have hrank : rankDocuments (tiedTurn [boDocument, adaDocument]).identityDocs =
      [boDocument, adaDocument] := rankDocuments_tied (by decide)
  rw [identitySection_eq, hrank]
  rfl

/-- The prompt with the documents in the one order. -/
def tiedPrompt : String := identityHeader ++ "- [name]: Ada\n- [name]: Bo\n" ++ "\n" ++ "help"

/-- The record of that turn. -/
def tiedSnapshot : ContextSnapshot :=
  draftSnapshot (tiedTurn [adaDocument, boDocument]) (.of [adaDocument, boDocument] false)
    ⟨[], [], [], 0, false⟩ tiedPrompt

set_option maxRecDepth 20000 in
theorem tiedPrompt_not_secret : isSecretShaped tiedPrompt = false := by
  decide

set_option maxRecDepth 20000 in
theorem length_tiedSnapshot : (compact tiedSnapshot.toJson).length ≤ 2000 := by
  decide

theorem assembleContext_tiedTurn :
    assembleContext (tiedTurn [adaDocument, boDocument]) = .ok ⟨tiedPrompt, tiedSnapshot⟩ := by
  have hscan : scanInputs (tiedTurn [adaDocument, boDocument]) = .ok () := by
    have hnone : (tiedTurn [adaDocument, boDocument]).memoryHits = [] := rfl
    refine scanInputs_eq_ok.2 ⟨by decide, fun doc hdoc => ?_, fun hit hhit => ?_⟩
    · rcases List.mem_pair.1 hdoc with rfl | rfl <;> decide
    · rw [hnone] at hhit
      cases hhit
  have hprompt : renderWirePrompt (tiedTurn [adaDocument, boDocument])
      (.of [adaDocument, boDocument] false) ⟨[], [], [], 0, false⟩ = tiedPrompt := by
    decide
  have hbytes := utf8ByteSize_ofList_le (compact tiedSnapshot.toJson)
  have hlength := length_tiedSnapshot
  refine assembleContext_of_fits identitySection_ada (memorySection_tiedTurn _) hprompt rfl hscan
    tiedPrompt_not_secret rfl ?_
  unfold Storage.contextSnapshotPayloadMaxBytes
  omega

end Sample

end Altior.Context
