import Altior.Crypto.Nonces
import Altior.Sync.Announcements
import Altior.Sync.Outbox

/-!
# Half-done calls

What `append_document`, `propose_memory`, `forget_memory` and `put_blob` of
`altior-core/src/sync/mod.rs` leave behind when they fail.  Each queues its event
before it asks the port, so a call that fails is never undone: its event is in the
outbox and its number is taken.
-/

namespace Altior.Sync

open Lib Crypto

/-! ## Local calls -/

/-- A local call that may fail. -/
inductive LocalCall
  | appendDocument (docId entry : String)
  | proposeMemory (memoryId content : String)
  | forgetMemory (memoryId : String) (forgottenAtMillis : Nat) (digest : Bytes32)
  | putBlob (vaultKey : Bytes32) (bytes : List UInt8)

/-- The time that an applied event writes to the port. -/
def EventBody.forgottenAt : EventBody → Option Nat
  | .memoryForgotten _ forgottenAtMillis _ => some forgottenAtMillis
  | _ => none

/-- What a port holds, whatever becomes of its next calls. -/
def SyncPort.contents (p : SyncPort) :
    List JournalEvent × Table String Nat × Table String (TombstoneMark × Nat) :=
  (p.applied, p.cursors, p.tombstones)

/-- Nothing that a local call changes is different in the second node. -/
structure SyncNode.Untouched (n n' : SyncNode) : Prop where
  applied : n'.applied = n.applied
  memories : n'.memories = n.memories
  documents : n'.documents = n.documents
  tombstones : n'.tombstones = n.tombstones
  blobs : n'.blobs = n.blobs
  outbox : n'.outbox = n.outbox
  nextSeq : n'.nextSeq = n.nextSeq
  port : n'.port.map SyncPort.contents = n.port.map SyncPort.contents

/-- The second node is the first after a call that failed: the event is queued under
its number, and the replica did not take it. -/
structure SyncNode.HalfDone (n n' : SyncNode) : Prop where
  nextSeq : n'.nextSeq = n.nextSeq + 1
  outbox : ∃ e, e.eventId = qualifiedId n.label n.nextSeq ∧ n'.outbox = n.outbox ++ [e]
  replica : n'.replica = n.replica

variable {n : SyncNode}

theorem SyncNode.HalfDone.not_untouched {n' : SyncNode} (h : n.HalfDone n') : ¬ n.Untouched n' := by
  intro hsame
  have hseq := h.nextSeq
  rw [hsame.nextSeq] at hseq
  exact Nat.succ_ne_self _ hseq.symm

/-! ## When the port takes an event -/

namespace SyncPort

theorem call_fst (p : SyncPort) : p.call.1 = true ↔ p.faults[0]? = some true := by
  unfold call
  split
  · rename_i hfaults
    simp [hfaults]
  · rename_i fault faults hfaults
    simp [hfaults]

theorem call_rest (p : SyncPort) : p.call.2.faults = p.faults.tail := by
  unfold call
  split <;> rename_i hfaults <;> simp [hfaults]

theorem recordApplied_isOk (p : SyncPort) (e : JournalEvent) :
    (p.recordApplied e).1.isOk = true ↔ e.originSeq ≤ i64Max ∧ p.faults[0]? ≠ some true := by
  rw [Ne, ← call_fst]
  unfold recordApplied
  split
  · rename_i hseq
    exact ⟨fun h => (by cases h), fun h => absurd h.1 (Nat.not_le_of_lt hseq)⟩
  · rename_i hseq
    split <;> rename_i hcall <;> rw [hcall]
    · exact ⟨fun h => (by cases h), fun h => absurd rfl h.2⟩
    · refine ⟨fun _ => ⟨Nat.le_of_not_lt hseq, Bool.false_ne_true⟩, fun _ => ?_⟩
      split <;> rfl

theorem recordApplied_rest {p : SyncPort} {e : JournalEvent}
    (h : (p.recordApplied e).1.isOk = true) : (p.recordApplied e).2.faults = p.faults.tail := by
  rw [← call_rest]
  unfold recordApplied at h ⊢
  split
  · rename_i hseq
    rw [if_pos hseq] at h
    cases h
  · split <;> rename_i hcall <;> rw [hcall]
    split <;> rfl

theorem recordTombstone_isOk (p : SyncPort) (memoryId : String) (mark : TombstoneMark)
    (at_ : Nat) :
    (p.recordTombstone memoryId mark at_).1.isOk = true ↔
      at_ ≤ i64Max ∧ p.faults[0]? ≠ some true := by
  rw [Ne, ← call_fst]
  unfold recordTombstone
  split
  · rename_i hat
    exact ⟨fun h => (by cases h), fun h => absurd h.1 (Nat.not_le_of_lt hat)⟩
  · rename_i hat
    split <;> rename_i hcall <;> rw [hcall]
    · exact ⟨fun h => (by cases h), fun h => absurd rfl h.2⟩
    · exact ⟨fun _ => ⟨Nat.le_of_not_lt hat, Bool.false_ne_true⟩, fun _ => rfl⟩

end SyncPort

namespace SyncNode

/-- The port takes the next event of the node: its numbers fit their columns and none
of the calls for it fails.  A forget makes a second one.  An event whose id is known
is not recorded. -/
def Takes (n : SyncNode) (forgottenAt : Option Nat) : Prop :=
  qualifiedId n.label n.nextSeq ∈ n.applied ∨
    ∀ p ∈ n.port, n.nextSeq ≤ i64Max ∧ p.faults[0]? ≠ some true ∧
      ∀ at_ ∈ forgottenAt, at_ ≤ i64Max ∧ p.faults[1]? ≠ some true

/-- The outcome of the port decides whether a call returns `Ok`; a proposal for a
forgotten memory is turned down before. -/
def Lands (n : SyncNode) : LocalCall → Prop
  | .appendDocument .. => n.Takes none
  | .proposeMemory memoryId _ => memoryId ∈ n.tombstones ∨ n.Takes none
  | .forgetMemory _ forgottenAtMillis _ => n.Takes (some forgottenAtMillis)
  | .putBlob .. => n.Takes none

/-- Only a forget can fail to be applied. -/
theorem apply_isOk (n : SyncNode) (e : JournalEvent) :
    (n.apply e).1.isOk = true ↔
      ∀ p ∈ n.port, ∀ at_ ∈ e.body.forgottenAt, at_ ≤ i64Max ∧ p.faults[0]? ≠ some true := by
  unfold apply
  cases e.body with
  | memoryForgotten memoryId at_ digest =>
    simp only [EventBody.forgottenAt, Option.mem_def, Option.some.injEq, forall_eq']
    unfold applyForget
    cases n.port with
    | none => exact ⟨fun _ p hp => (by cases hp), fun _ => rfl⟩
    | some p =>
      have hrecord := p.recordTombstone_isOk memoryId ⟨digest, e.origin, e.originSeq⟩ at_
      simp only [Option.some.injEq, forall_eq']
      rw [← hrecord]
      split <;> rename_i hresult <;> rw [hresult]
  | memoryProposed memoryId content =>
    refine ⟨fun _ p _ at_ hat => (by cases hat), fun _ => ?_⟩
    dsimp only
    split <;> rfl
  | documentAppend docId entry => exact ⟨fun _ p _ at_ hat => (by cases hat), fun _ => rfl⟩
  | ack frontiers => exact ⟨fun _ p _ at_ hat => (by cases hat), fun _ => rfl⟩
  | blobAdded blobId totalSize entries =>
    exact ⟨fun _ p _ at_ hat => (by cases hat), fun _ => rfl⟩

theorem admitEvent_isOk (n : SyncNode) (e : JournalEvent) :
    (n.admitEvent e).1.isOk = true ↔
      e.eventId ∈ n.applied ∨ ∀ p ∈ n.port, e.originSeq ≤ i64Max ∧ p.faults[0]? ≠ some true ∧
        ∀ at_ ∈ e.body.forgottenAt, at_ ≤ i64Max ∧ p.faults[1]? ≠ some true := by
  unfold admitEvent
  by_cases hknown : e.eventId ∈ n.applied
  · rw [if_pos hknown]
    exact ⟨fun _ => .inl hknown, fun _ => rfl⟩
  rw [if_neg hknown, or_iff_right hknown]
  cases hport : n.port with
  | none =>
    refine ⟨fun _ p hp => (by cases hp), fun _ => (n.apply_isOk e).2 fun p hp => ?_⟩
    rw [hport] at hp
    cases hp
  | some p =>
    have hrecord := p.recordApplied_isOk e
    have hfaults := p.recordApplied_rest (e := e)
    simp only [Option.mem_def, Option.some.injEq, forall_eq']
    rw [← and_assoc, ← hrecord]
    rcases hresult : p.recordApplied e with ⟨error | fresh, q⟩ <;> rw [hresult] at hfaults
    · exact ⟨fun h => (by cases h), fun h => (by cases h.1)⟩
    · have htail : q.faults[0]? = p.faults[1]? := by
        rw [hfaults rfl, List.getElem?_tail]
      rw [← htail]
      refine ((({ n with port := some q } : SyncNode).apply_isOk e).trans ?_)
      simp only [Option.mem_def, Option.some.injEq, forall_eq']
      exact ⟨fun h => ⟨rfl, h⟩, And.right⟩

/-- An event that was refused did not reach the replica. -/
theorem admitEvent_error {e : JournalEvent} (h : (n.admitEvent e).1.isOk = false) :
    (n.admitEvent e).2.replica = n.replica := by
  have hrefused : ¬ (n.admitEvent e).1.isOk = true := h ▸ Bool.false_ne_true
  rw [n.admitEvent_isOk e, not_or] at hrefused
  obtain ⟨hfresh, hrefused⟩ := hrefused
  cases hport : n.port with
  | none =>
    rw [hport] at hrefused
    exact absurd (fun p hp => nomatch hp) hrefused
  | some p =>
    obtain ⟨p', -, -, hresult⟩ := admitEvent_port hfresh hport
    obtain ⟨hok, -⟩ | ⟨-, -, hsame⟩ := hresult
    · rw [h] at hok
      cases hok
    · exact hsame

end SyncNode

/-! ## Calls -/

theorem isOk_map {α β : Type} (f : α → β) (result : Except SyncError α) :
    (result.map f).isOk = result.isOk := by
  cases result <;> rfl

section

variable [Primitives] [SyncCodec]

namespace SyncNode

theorem createAdmit_isOk (n : SyncNode) (body : EventBody) :
    (n.createAdmit body).1.isOk = true ↔ n.Takes body.forgottenAt := by
  rw [(n.createAdmit_eq body).2]
  exact (n.create body).2.admitEvent_isOk (n.create body).1

/-- The event was queued before the port was asked. -/
theorem createAdmit_error (n : SyncNode) (body : EventBody)
    (h : (n.createAdmit body).1.isOk = false) : n.HalfDone (n.createAdmit body).2 := by
  obtain ⟨heq, hisOk⟩ := n.createAdmit_eq body
  rw [hisOk] at h
  rw [heq]
  have hlearns := (n.create body).2.admitEvent_learns (n.create body).1
  exact ⟨hlearns.nextSeq, ⟨(n.create body).1, rfl, hlearns.outbox⟩, admitEvent_error h⟩

theorem proposeMemory_isOk (n : SyncNode) (memoryId content : String) :
    (n.proposeMemory memoryId content).1.isOk = true ↔
      memoryId ∈ n.tombstones ∨ n.Takes none := by
  unfold proposeMemory
  split
  · rename_i hforgotten
    exact ⟨fun _ => .inl hforgotten, fun _ => rfl⟩
  · rename_i hknown
    rw [or_iff_right hknown]
    refine Iff.trans ?_ (n.createAdmit_isOk (.memoryProposed memoryId content))
    split <;> rename_i hresult <;> rw [hresult] <;> exact Iff.rfl

theorem putBlob_isOk (n : SyncNode) (blobId : String) (blob : StoredBlob) :
    (n.putBlob blobId blob).1.isOk = true ↔ n.Takes none := by
  let stored : SyncNode := { n with blobs := n.blobs.insert blobId blob }
  refine Iff.trans ?_ (stored.createAdmit_isOk (.blobAdded blobId blob.totalSize blob.entries))
  unfold putBlob
  dsimp only
  split <;> rename_i hresult <;> rw [hresult]
  rfl

theorem proposeMemory_error {memoryId content : String}
    (h : (n.proposeMemory memoryId content).1.isOk = false) :
    n.HalfDone (n.proposeMemory memoryId content).2 := by
  unfold proposeMemory at h ⊢
  split
  · rename_i hforgotten
    rw [if_pos hforgotten] at h
    cases h
  · rename_i hknown
    have hfailed := createAdmit_error n (.memoryProposed memoryId content)
    rw [if_neg hknown] at h
    split <;> rename_i hresult <;> rw [hresult] at h hfailed
    · cases h
    · exact hfailed rfl

/-- The blob is stored before its event is created. -/
theorem putBlob_error {blobId : String} {blob : StoredBlob}
    (h : (n.putBlob blobId blob).1.isOk = false) : n.HalfDone (n.putBlob blobId blob).2 := by
  let stored : SyncNode := { n with blobs := n.blobs.insert blobId blob }
  have hfailed := createAdmit_error stored (.blobAdded blobId blob.totalSize blob.entries)
  unfold putBlob at h ⊢
  dsimp only at h ⊢
  split <;> rename_i hresult <;> rw [hresult] at h hfailed
  · cases h
  · obtain ⟨hnextSeq, houtbox, hreplica⟩ := hfailed rfl
    exact ⟨hnextSeq, houtbox, hreplica⟩

variable [BlobPrimitives]

/-- A local call, with the id it returns. -/
def localCall (n : SyncNode) : LocalCall → Except SyncError (Option String) × SyncNode
  | .appendDocument docId entry => (n.appendDocument docId entry).map (Except.map some) id
  | .proposeMemory memoryId content => n.proposeMemory memoryId content
  | .forgetMemory memoryId forgottenAtMillis digest =>
    (n.forgetMemory memoryId forgottenAtMillis digest).map (Except.map some) id
  | .putBlob vaultKey bytes => (n.putBlobBytes vaultKey bytes).map (Except.map some) id

/-- The call leaves nothing behind if it fails. -/
def LeavesNoTrace (n : SyncNode) (call : LocalCall) : Prop :=
  ∀ error, (n.localCall call).1 = .error error → n.Untouched (n.localCall call).2

theorem localCall_isOk (n : SyncNode) (call : LocalCall) :
    (n.localCall call).1.isOk = true ↔ n.Lands call := by
  cases call with
  | appendDocument docId entry =>
    exact (Bool.eq_iff_iff.1 (isOk_map some _)).trans (n.createAdmit_isOk _)
  | proposeMemory memoryId content => exact n.proposeMemory_isOk memoryId content
  | forgetMemory memoryId at_ digest =>
    exact (Bool.eq_iff_iff.1 (isOk_map some _)).trans (n.createAdmit_isOk _)
  | putBlob vaultKey bytes =>
    exact (Bool.eq_iff_iff.1 (isOk_map some _)).trans (n.putBlob_isOk _ _)

/-- A call that fails is half done. -/
theorem localCall_error {call : LocalCall} (h : (n.localCall call).1.isOk = false) :
    n.HalfDone (n.localCall call).2 := by
  cases call with
  | appendDocument docId entry => exact createAdmit_error _ _ ((isOk_map some _).symm.trans h)
  | proposeMemory memoryId content => exact proposeMemory_error h
  | forgetMemory memoryId at_ digest => exact createAdmit_error _ _ ((isOk_map some _).symm.trans h)
  | putBlob vaultKey bytes => exact putBlob_error ((isOk_map some _).symm.trans h)

end SyncNode

/-- **Failed local calls.**  A call leaves no trace if and only if it does not fail,
which the state before it and the port decide: whatever fails was queued already. -/
theorem leavesNoTrace_iff [BlobPrimitives] (n : SyncNode) (call : LocalCall) :
    n.LeavesNoTrace call ↔ n.Lands call := by
  rw [← n.localCall_isOk call]
  constructor
  · intro hnoTrace
    cases hresult : (n.localCall call).1 with
    | error error =>
      have hhalf : n.HalfDone (n.localCall call).2 := SyncNode.localCall_error (by rw [hresult]; rfl)
      exact absurd (hnoTrace error hresult) hhalf.not_untouched
    | ok id => rfl
  · intro hok error herror
    rw [herror] at hok
    cases hok

end

section

attribute [local instance] idealPrimitives idealSyncCodec indexedBlob

/-- A forget with a time beyond the column of its tombstone is refused on a new node
over an empty port, and its event stays in the outbox. -/
theorem forget_beyond_column_half_done :
    ¬ (SyncNode.new (pairKeys "a") "a" (some .empty)).LeavesNoTrace
      (.forgetMemory "m" (i64Max + 1) zero32) := by
  intro hnoTrace
  have hnextSeq := (hnoTrace
    (.invariant "forgotten_at: out of range integral type conversion attempted")
    (by decide)).nextSeq
  exact absurd hnextSeq (by decide)

end

end Altior.Sync
