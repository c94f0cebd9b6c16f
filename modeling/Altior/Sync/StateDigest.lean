import Mathlib.Algebra.Group.Nat.Defs
import Altior.Sync.Convergence
import Altior.Lib.Utf8

/-!
# What the state digest is taken of

The texts of the visible state are written one after the other, with no mark between an
id and what follows it.  What is written of documents and memories is some text and a
mark, which is also what one memory writes, or one document.
-/

namespace Altior.Sync

open Lib Crypto

/-! ## Texts that end in a mark -/

section Marked

variable {α : Type} {f : α → List UInt8}

theorem flatMap_text (hf : ∀ a, ∃ s, f a = asBytes s) (l : List α) :
    ∃ s, l.flatMap f = asBytes s := by
  induction l with
  | nil => exact ⟨"", rfl⟩
  | cons a l ih =>
    obtain ⟨s, hs⟩ := hf a
    obtain ⟨t, ht⟩ := ih
    exact ⟨s ++ t, by rw [List.flatMap_cons, hs, ht, asBytes_append]⟩

/-- One or more texts that end in the mark are a text that does. -/
theorem flatMap_marked (hf : ∀ a, ∃ s, f a = asBytes s ++ [0x1d]) (l : List α) :
    l = [] ∨ ∃ s, l.flatMap f = asBytes s ++ [0x1d] := by
  induction l with
  | nil => exact .inl rfl
  | cons a l ih =>
    obtain ⟨s, hs⟩ := hf a
    refine .inr ?_
    rcases ih with rfl | ⟨t, ht⟩
    · exact ⟨s, by rw [List.flatMap_cons, hs, List.flatMap_nil, List.append_nil]⟩
    · refine ⟨s ++ "\x1d" ++ t, ?_⟩
      have hmark : asBytes "\x1d" = [0x1d] := rfl
      rw [List.flatMap_cons, hs, ht, asBytes_append, asBytes_append, hmark]
      simp only [List.append_assoc]

theorem eq_empty_of_toList {κ : Type} [Ord κ] [Std.TransOrd κ] {t : Table κ α}
    (h : t.toList = []) : t = ∅ := by
  rw [← Std.ExtTreeMap.isEmpty_iff, ← Std.ExtTreeMap.isEmpty_toList, h]
  rfl

end Marked

namespace SyncNode

/-- What the documents and the memories write. -/
def visibleBytes (n : SyncNode) : List UInt8 :=
  (n.documents.toList.flatMap fun (docId, entries) =>
    docId.toUTF8.toList ++
      entries.toList.flatMap (fun entry => entry.toUTF8.toList ++ [0x1e]) ++ [0x1d]) ++
  n.memories.toList.flatMap fun (memoryId, content) =>
    memoryId.toUTF8.toList ++ content.toUTF8.toList ++ [0x1d]

/-- What tombstones write. -/
def tombstoneBytes (tombstones : Table String TombstoneMark) : List UInt8 :=
  tombstones.toList.flatMap fun (memoryId, mark) =>
    memoryId.toUTF8.toList ++ mark.digest.toList ++ mark.origin.toUTF8.toList ++
      toBeBytes mark.originSeq ++ [0x1d]

theorem stateBytes_eq (n : SyncNode) :
    n.stateBytes = n.visibleBytes ++ tombstoneBytes n.tombstones := rfl

/-- Documents and memories write nothing, or some text and the mark. -/
theorem visibleBytes_cases (n : SyncNode) :
    (n.documents = ∅ ∧ n.memories = ∅) ∨ ∃ s, n.visibleBytes = asBytes s ++ [0x1d] := by
  have hdocuments := flatMap_marked (l := n.documents.toList)
    (f := fun (docId, entries) => docId.toUTF8.toList ++
      entries.toList.flatMap (fun entry => entry.toUTF8.toList ++ [0x1e]) ++ [0x1d]) <| by
    rintro ⟨docId, entries⟩
    obtain ⟨s, hs⟩ := flatMap_text (l := entries.toList)
      (f := fun entry => entry.toUTF8.toList ++ [0x1e]) fun entry =>
        ⟨entry ++ "\x1e", by rw [toUTF8_toList, asBytes_append]; rfl⟩
    refine ⟨docId ++ s, ?_⟩
    simp only [hs]
    rw [toUTF8_toList, asBytes_append]
  have hmemories := flatMap_marked (l := n.memories.toList)
    (f := fun (memoryId, content) =>
      memoryId.toUTF8.toList ++ content.toUTF8.toList ++ [0x1d]) <| by
    rintro ⟨memoryId, content⟩
    exact ⟨memoryId ++ content, by simp only [toUTF8_toList, asBytes_append]⟩
  unfold visibleBytes
  rcases hdocuments with hnone | ⟨s, hs⟩ <;> rcases hmemories with hnone' | ⟨t, ht⟩
  · exact .inl ⟨eq_empty_of_toList hnone, eq_empty_of_toList hnone'⟩
  · exact .inr ⟨t, by rw [hnone, ht]; rfl⟩
  · exact .inr ⟨s, by rw [hnone', hs, List.flatMap_nil, List.append_nil]⟩
  · refine .inr ⟨s ++ "\x1d" ++ t, ?_⟩
    have hmark : asBytes "\x1d" = [0x1d] := rfl
    rw [hs, ht, asBytes_append, asBytes_append, hmark]
    simp only [List.append_assoc]

/-! ## States the digest tells from all others -/

/-- Sequence numbers are of the type `u64`. -/
def InRange (tombstones : Table String TombstoneMark) : Prop :=
  ∀ (m : String) mark, tombstones[m]? = some mark → mark.originSeq < 2 ^ 64

/-- What the tombstones write can be cut in one way: into these tombstones, and into no
text with tombstones behind it. -/
structure CutOneWay (tombstones : Table String TombstoneMark) : Prop where
  alone : ∀ tombstones', InRange tombstones' →
    tombstoneBytes tombstones' = tombstoneBytes tombstones → tombstones' = tombstones
  noText : ∀ (s : String) tombstones', InRange tombstones' →
    asBytes s ++ [0x1d] ++ tombstoneBytes tombstones' ≠ tombstoneBytes tombstones

theorem toList_single {α : Type} (id : String) (row : α) :
    ((∅ : Table String α).insert id row).toList = [(id, row)] := rfl

/-- One memory with no id. -/
def oneMemory (n : SyncNode) (content : String) : SyncNode :=
  { n with documents := ∅, memories := (∅ : Table String String).insert "" content }

/-- One document with no entries. -/
def oneDocument (n : SyncNode) (docId : String) : SyncNode :=
  { n with
    documents := (∅ : Table String (Std.ExtTreeSet String)).insert docId ∅, memories := ∅ }

theorem oneMemory_visibleBytes (n : SyncNode) (content : String) :
    (n.oneMemory content).visibleBytes = asBytes content ++ [0x1d] := by
  have hnone : (∅ : Table String (Std.ExtTreeSet String)).toList = [] := rfl
  simp only [visibleBytes, oneMemory, toList_single, hnone, List.flatMap_nil, List.nil_append,
    List.flatMap_singleton, toUTF8_toList]
  rfl

theorem oneDocument_visibleBytes (n : SyncNode) (docId : String) :
    (n.oneDocument docId).visibleBytes = asBytes docId ++ [0x1d] := by
  have hnone : (∅ : Table String String).toList = [] := rfl
  have hnoEntry : (∅ : Std.ExtTreeSet String).toList = [] := rfl
  simp only [visibleBytes, oneDocument, toList_single, hnone, hnoEntry, List.flatMap_nil,
    List.append_nil, List.flatMap_singleton, toUTF8_toList]

end SyncNode

/-! ## Two nodes that disagree under one digest -/

section

attribute [local instance] sampleIdeal sampleCodec

/-- A node that proposed one memory. -/
def onceProposed (memoryId content : String) : SyncNode :=
  (nodeMachine (sampleKeys "a" 1) "a" none).run [.proposeMemory memoryId content]

end

end Altior.Sync
