import Altior.Sync.Node
import Mathlib.Order.Bounds.Basic

/-!
# The replicated state

What the engine's state is for: a replica is the applied set together with what
was absorbed from it, and every step of the node absorbs at most one fresh event.
The document entries, the ids of memories and tombstones and the acknowledged
frontiers are functions of the applied set.
-/

namespace Altior.Sync

open Lib Crypto

/-- What a ledger holds after it took in acknowledged frontiers. -/
theorem getElem?_raiseAcks (ledger frontiers : Table String Nat) (origin : String) :
    (SyncNode.raiseAcks ledger frontiers)[origin]? =
      frontiers[origin]?.elim ledger[origin]? fun v => some (max (ledger[origin]?.getD 0) v) :=
  Table.getElem?_foldl_toList (fun old v => max (old.getD 0) v) frontiers ledger origin

/-- The replicated part of a node. -/
@[ext] structure Replica where
  applied : Table String JournalEvent
  memories : Table String String
  tombstones : Table String TombstoneMark
  documents : Table String (Std.ExtTreeSet String)
  peerAcks : Table String (Table String Nat)

variable {e : JournalEvent} {r : Replica}

namespace Replica

def empty : Replica := ⟨∅, ∅, ∅, ∅, ∅⟩

/-- The applied events. -/
def events (r : Replica) : Set JournalEvent := {e | ∃ id : String, r.applied[id]? = some e}

/-- What one event adds to a replica. -/
def absorb (r : Replica) (e : JournalEvent) : Replica :=
  let applied := r.applied.insert e.eventId e
  match e.body with
  | .documentAppend docId entry =>
    { r with
      documents := r.documents.insert docId ((r.documents[docId]?.getD ∅).insert entry)
      applied := applied }
  | .memoryProposed memoryId content =>
    if memoryId ∈ r.tombstones then { r with applied := applied }
    else { r with memories := r.memories.insert memoryId content, applied := applied }
  | .memoryForgotten memoryId _ digest =>
    { r with
      tombstones := r.tombstones.insert memoryId ⟨digest, e.origin, e.originSeq⟩
      memories := r.memories.erase memoryId
      applied := applied }
  | .blobAdded _ _ _ => { r with applied := applied }
  | .ack frontiers =>
    { r with
      peerAcks := r.peerAcks.insert e.origin
        (SyncNode.raiseAcks (r.peerAcks[e.origin]?.getD ∅) frontiers)
      applied := applied }

@[simp] theorem absorb_applied (r : Replica) (e : JournalEvent) :
    (r.absorb e).applied = r.applied.insert e.eventId e := by
  unfold absorb
  cases e.body <;> try rfl
  simp only
  split <;> rfl

/-- A fresh event is added to the applied events and takes nothing away. -/
theorem events_absorb (hfresh : e.eventId ∉ r.applied) :
    (r.absorb e).events = insert e r.events := by
  ext x
  simp only [events, Set.mem_ofPred_eq, Set.mem_insert_iff, absorb_applied,
    Table.getElem?_insert_eq]
  constructor
  · rintro ⟨id, hid⟩
    split at hid
    · exact .inl (Option.some.inj hid).symm
    · exact .inr ⟨id, hid⟩
  · rintro (rfl | ⟨id, hid⟩)
    · exact ⟨x.eventId, by simp⟩
    · refine ⟨id, ?_⟩
      rw [if_neg]
      · exact hid
      · rintro rfl
        exact hfresh (Table.mem_iff.2 ⟨x, hid⟩)

/-- What a peer has acknowledged for an origin. -/
def acked (r : Replica) (peer origin : String) : Option Nat :=
  r.peerAcks[peer]?.bind fun ledger => ledger[origin]?

section

variable {r : Replica} {e : JournalEvent}

theorem mem_documents_absorb {d entry : String} :
    entry ∈ (r.absorb e).documents[d]?.getD ∅ ↔
      e.body = .documentAppend d entry ∨ entry ∈ r.documents[d]?.getD ∅ := by
  unfold absorb
  cases hbody : e.body with
  | documentAppend docId x =>
    simp only [Table.getElem?_insert_eq, EventBody.documentAppend.injEq]
    by_cases hd : docId = d
    · subst hd
      simp [Std.ExtTreeSet.mem_insert]
    · simp [hd]
  | memoryProposed memoryId content =>
    simp only [reduceCtorEq, false_or]
    split <;> rfl
  | memoryForgotten memoryId at_ digest => simp
  | ack frontiers => simp
  | blobAdded blobId totalSize entries => simp

theorem documents_ids_absorb {d : String} :
    d ∈ (r.absorb e).documents ↔ (∃ entry, e.body = .documentAppend d entry) ∨ d ∈ r.documents := by
  unfold absorb
  cases hbody : e.body with
  | documentAppend docId x =>
    simp only [Std.ExtTreeMap.mem_insert, Table.compare_eq_iff, EventBody.documentAppend.injEq]
    simp
  | memoryProposed memoryId content =>
    simp only [reduceCtorEq, exists_false, false_or]
    split <;> rfl
  | memoryForgotten memoryId at_ digest => simp
  | ack frontiers => simp
  | blobAdded blobId totalSize entries => simp

theorem getElem?_tombstones_absorb (m : String) :
    (r.absorb e).tombstones[m]? =
      match e.body with
      | .memoryForgotten memoryId _ digest =>
        if memoryId = m then some ⟨digest, e.origin, e.originSeq⟩ else r.tombstones[m]?
      | _ => r.tombstones[m]? := by
  unfold absorb
  cases hbody : e.body with
  | memoryForgotten memoryId at_ digest => simp only [Table.getElem?_insert_eq]
  | memoryProposed memoryId content =>
    simp only
    split <;> rfl
  | documentAppend docId x => rfl
  | ack frontiers => rfl
  | blobAdded blobId totalSize entries => rfl

theorem getElem?_memories_absorb (m : String) :
    (r.absorb e).memories[m]? =
      match e.body with
      | .memoryProposed memoryId content =>
        if memoryId = m ∧ m ∉ r.tombstones then some content else r.memories[m]?
      | .memoryForgotten memoryId _ _ => if memoryId = m then none else r.memories[m]?
      | _ => r.memories[m]? := by
  unfold absorb
  cases hbody : e.body with
  | memoryProposed memoryId content =>
    simp only
    by_cases hm : memoryId = m
    · subst hm
      split <;> simp_all
    · split <;> simp [hm, Table.getElem?_insert_eq]
  | memoryForgotten memoryId at_ digest => simp only [Table.getElem?_erase_eq]
  | documentAppend docId x => rfl
  | ack frontiers => rfl
  | blobAdded blobId totalSize entries => rfl

theorem acked_absorb (peer origin : String) :
    (r.absorb e).acked peer origin =
      match e.body with
      | .ack frontiers =>
        if e.origin = peer then
          frontiers[origin]?.elim (r.acked peer origin)
            fun v => some (max ((r.acked peer origin).getD 0) v)
        else r.acked peer origin
      | _ => r.acked peer origin := by
  unfold absorb
  cases hbody : e.body with
  | ack frontiers =>
    simp only [acked, Table.getElem?_insert_eq]
    by_cases hpeer : e.origin = peer
    · simp only [hpeer, if_true, Option.bind_some, getElem?_raiseAcks]
      cases r.peerAcks[peer]? <;> simp
    · simp only [hpeer, if_false]
  | memoryProposed memoryId content =>
    simp only
    split <;> rfl
  | memoryForgotten memoryId at_ digest => rfl
  | documentAppend docId x => rfl
  | blobAdded blobId totalSize entries => rfl

end

end Replica

/-! ## What a set of events says -/

/-- The entries appended to a document. -/
def docEntries (E : Set JournalEvent) (d : String) : Set String :=
  {entry | ∃ e ∈ E, e.body = .documentAppend d entry}

/-- The memories that were proposed. -/
def proposed (E : Set JournalEvent) : Set String :=
  {m | ∃ e ∈ E, ∃ content, e.body = .memoryProposed m content}

/-- The memories that were forgotten. -/
def forgotten (E : Set JournalEvent) : Set String :=
  {m | ∃ e ∈ E, ∃ at_ digest, e.body = .memoryForgotten m at_ digest}

/-- The frontiers for an origin that a peer acknowledged. -/
def ackedFrontiers (E : Set JournalEvent) (peer origin : String) : Set Nat :=
  {v | ∃ e ∈ E, e.origin = peer ∧ ∃ frontiers, e.body = .ack frontiers ∧
    frontiers[origin]? = some v}

section

variable {E : Set JournalEvent} {e : JournalEvent}

theorem mem_docEntries_insert {d entry : String} :
    entry ∈ docEntries (insert e E) d ↔
      e.body = .documentAppend d entry ∨ entry ∈ docEntries E d := by
  simp [docEntries]

theorem mem_proposed_insert {m : String} :
    m ∈ proposed (insert e E) ↔
      (∃ content, e.body = .memoryProposed m content) ∨ m ∈ proposed E := by
  simp [proposed]

theorem mem_forgotten_insert {m : String} :
    m ∈ forgotten (insert e E) ↔
      (∃ at_ digest, e.body = .memoryForgotten m at_ digest) ∨ m ∈ forgotten E := by
  simp [forgotten]

theorem mem_ackedFrontiers_insert {peer origin : String} {v : Nat} :
    v ∈ ackedFrontiers (insert e E) peer origin ↔
      (e.origin = peer ∧ ∃ frontiers, e.body = .ack frontiers ∧ frontiers[origin]? = some v) ∨
        v ∈ ackedFrontiers E peer origin := by
  simp [ackedFrontiers]

end

/-- The greatest number of a set, `none` for the empty set. -/
def IsMaximum (A : Set Nat) : Option Nat → Prop
  | none => A = ∅
  | some v => IsGreatest A v

/-- The replica is what its applied set says. -/
structure Replica.ClosedForm (r : Replica) : Prop where
  documents : ∀ d entry, entry ∈ r.documents[d]?.getD ∅ ↔ entry ∈ docEntries r.events d
  documents_ids : ∀ d, d ∈ r.documents ↔ (docEntries r.events d).Nonempty
  tombstones : ∀ m, m ∈ r.tombstones ↔ m ∈ forgotten r.events
  memories : ∀ m, m ∈ r.memories ↔ m ∈ proposed r.events \ forgotten r.events
  acked : ∀ peer origin, IsMaximum (ackedFrontiers r.events peer origin) (r.acked peer origin)

namespace Replica

theorem empty_closedForm : empty.ClosedForm where
  documents d entry := by simp [empty, events, docEntries]
  documents_ids d := by simp [empty, events, docEntries, Set.Nonempty]
  tombstones m := by simp [empty, events, forgotten]
  memories m := by simp [empty, events, proposed]
  acked peer origin := by simp [empty, events, Replica.acked, ackedFrontiers, IsMaximum]

theorem mem_tombstones_absorb {m : String} :
    m ∈ (r.absorb e).tombstones ↔
      (∃ at_ digest, e.body = .memoryForgotten m at_ digest) ∨ m ∈ r.tombstones := by
  rw [Table.mem_iff, Table.mem_iff, getElem?_tombstones_absorb]
  cases hbody : e.body with
  | memoryForgotten memoryId at_ digest =>
    by_cases hm : memoryId = m <;> simp [hm]
  | _ => simp

theorem mem_memories_absorb {m : String} :
    m ∈ (r.absorb e).memories ↔
      ((∃ content, e.body = .memoryProposed m content) ∧ m ∉ r.tombstones) ∨
        (m ∈ r.memories ∧ ¬ ∃ at_ digest, e.body = .memoryForgotten m at_ digest) := by
  rw [Table.mem_iff, getElem?_memories_absorb, Table.mem_iff (t := r.memories)]
  cases hbody : e.body with
  | memoryProposed memoryId content =>
    by_cases hm : memoryId = m ∧ m ∉ r.tombstones
    · simp [hm]
    · simp [hm]
  | memoryForgotten memoryId at_ digest =>
    by_cases hm : memoryId = m <;> simp [hm]
  | _ => simp

/-- The maximum once one more number, or none, is in the set. -/
theorem isMaximum_insert {A B : Set Nat} {old new : Option Nat} (hold : IsMaximum A old)
    (hnew : ∀ v, v ∈ B ↔ new = some v ∨ v ∈ A) :
    IsMaximum B (new.elim old fun w => some (max (old.getD 0) w)) := by
  cases new with
  | none =>
    have hB : B = A := by
      ext v
      simp [hnew]
    rw [hB]
    exact hold
  | some w =>
    cases old with
    | none =>
      have hB : B = {w} := by
        ext v
        rw [hnew, show A = ∅ from hold]
        simp [eq_comm]
      rw [hB]
      simp [IsMaximum]
    | some v =>
      have hB : B = insert w A := by
        ext u
        rw [hnew, Set.mem_insert_iff, Option.some.injEq, eq_comm]
      have hmax : IsGreatest A v := hold
      rw [hB]
      show IsGreatest (insert w A) (max v w)
      rw [max_comm]
      exact hmax.insert w

/-- One fresh event keeps the closed form. -/
theorem ClosedForm.absorb (h : r.ClosedForm) (hfresh : e.eventId ∉ r.applied) :
    (r.absorb e).ClosedForm where
  documents d entry := by
    rw [events_absorb hfresh, mem_documents_absorb, mem_docEntries_insert, h.documents]
  documents_ids d := by
    rw [events_absorb hfresh, documents_ids_absorb, h.documents_ids]
    simp only [Set.Nonempty, mem_docEntries_insert, exists_or]
  tombstones m := by
    rw [events_absorb hfresh, mem_tombstones_absorb, mem_forgotten_insert, h.tombstones]
  memories m := by
    rw [events_absorb hfresh, mem_memories_absorb, h.memories, h.tombstones, Set.mem_sdiff,
      Set.mem_sdiff, mem_proposed_insert, mem_forgotten_insert]
    constructor
    · rintro (⟨hprop, hforg⟩ | ⟨⟨hprop, hforg⟩, hbody⟩)
      · refine ⟨.inl hprop, ?_⟩
        rintro (⟨at_, digest, hbody⟩ | hforg')
        · obtain ⟨content, hbody'⟩ := hprop
          rw [hbody] at hbody'
          cases hbody'
        · exact hforg hforg'
      · exact ⟨.inr hprop, fun h => h.elim hbody hforg⟩
    · rintro ⟨hprop | hprop, hnot⟩
      · exact .inl ⟨hprop, fun hforg => hnot (.inr hforg)⟩
      · exact .inr ⟨⟨hprop, fun hforg => hnot (.inr hforg)⟩, fun hbody => hnot (.inl hbody)⟩
  acked peer origin := by
    rw [events_absorb hfresh, acked_absorb]
    have hother (hno : ¬ (e.origin = peer ∧ ∃ frontiers, e.body = .ack frontiers)) :
        ackedFrontiers (insert e r.events) peer origin = ackedFrontiers r.events peer origin := by
      ext v
      rw [mem_ackedFrontiers_insert, or_iff_right]
      rintro ⟨hpeer, frontiers, hbody, -⟩
      exact hno ⟨hpeer, frontiers, hbody⟩
    cases hbody : e.body with
    | ack frontiers =>
      by_cases hpeer : e.origin = peer
      · simp only [hpeer, if_true]
        refine isMaximum_insert (h.acked peer origin) fun v => ?_
        rw [mem_ackedFrontiers_insert]
        simp [hpeer, hbody]
      · simp only [hpeer, if_false]
        rw [hother fun ⟨hpeer', _⟩ => hpeer hpeer']
        exact h.acked peer origin
    | _ =>
      rw [hother fun ⟨_, frontiers, hack⟩ => by rw [hbody] at hack; cases hack]
      exact h.acked peer origin

end Replica

/-! ## The node refines the replica -/

namespace SyncNode

/-- The replicated part of a node. -/
def replica (n : SyncNode) : Replica :=
  ⟨n.applied, n.memories, n.tombstones, n.documents, n.peerAcks⟩

theorem apply_replica (n : SyncNode) (e : JournalEvent) :
    (n.apply e).2.replica = n.replica ∨ (n.apply e).2.replica = n.replica.absorb e := by
  unfold apply Replica.absorb
  cases hbody : e.body with
  | documentAppend docId entry => exact .inr rfl
  | memoryProposed memoryId content =>
    by_cases hmem : memoryId ∈ n.tombstones
    · have hmem' : memoryId ∈ n.replica.tombstones := hmem
      simp only [hmem, hmem', if_true]
      exact .inr rfl
    · have hmem' : memoryId ∉ n.replica.tombstones := hmem
      simp only [hmem, hmem', if_false]
      exact .inr rfl
  | memoryForgotten memoryId forgottenAtMillis digest =>
    simp only [applyForget]
    split
    · exact .inr rfl
    · split
      · exact .inl rfl
      · exact .inr rfl
  | ack frontiers => exact .inr rfl
  | blobAdded blobId totalSize entries => exact .inr rfl

/-- A volatile node absorbs every event and stays volatile. -/
theorem apply_volatile {n : SyncNode} (e : JournalEvent) (hport : n.port = none) :
    (n.apply e).2.replica = n.replica.absorb e ∧ (n.apply e).2.port = none := by
  unfold apply Replica.absorb
  cases hbody : e.body with
  | memoryProposed memoryId content =>
    by_cases hmem : memoryId ∈ n.tombstones
    · have hmem' : memoryId ∈ n.replica.tombstones := hmem
      simp only [hmem, hmem', if_true]
      exact ⟨rfl, hport⟩
    · have hmem' : memoryId ∉ n.replica.tombstones := hmem
      simp only [hmem, hmem', if_false]
      exact ⟨rfl, hport⟩
  | memoryForgotten memoryId forgottenAtMillis digest =>
    simp only [applyForget, hport]
    exact ⟨rfl, trivial⟩
  | documentAppend docId entry => exact ⟨rfl, hport⟩
  | ack frontiers => exact ⟨rfl, hport⟩
  | blobAdded blobId totalSize entries => exact ⟨rfl, hport⟩

end SyncNode

/-- One replica follows another: it is the same, or it absorbed one fresh
event. -/
def Replica.Follows (r r' : Replica) : Prop :=
  r' = r ∨ ∃ e : JournalEvent, e.eventId ∉ r.applied ∧ r' = r.absorb e

theorem Replica.ClosedForm.follows {r' : Replica} (h : r.ClosedForm) (hr : r.Follows r') :
    r'.ClosedForm := by
  obtain rfl | ⟨e, hfresh, rfl⟩ := hr
  · exact h
  · exact h.absorb hfresh

namespace SyncNode

theorem admitEvent_follows (n : SyncNode) (e : JournalEvent) :
    n.replica.Follows (n.admitEvent e).2.replica := by
  unfold admitEvent
  split
  · exact .inl rfl
  · rename_i hfresh
    split
    · obtain h | h := n.apply_replica e
      · exact .inl h
      · exact .inr ⟨e, hfresh, h⟩
    · split
      · exact .inl rfl
      · rename_i port' _
        obtain h | h := apply_replica { n with port := some port' } e
        · exact .inl h
        · exact .inr ⟨e, hfresh, h⟩

variable [Primitives] [SyncCodec]

theorem createAdmit_follows (n : SyncNode) (body : EventBody) :
    n.replica.Follows (n.createAdmit body).2.replica := by
  have h : n.replica.Follows ((n.create body).2.admitEvent (n.create body).1).2.replica :=
    admitEvent_follows (n.create body).2 (n.create body).1
  unfold createAdmit
  split
  rename_i event n' hcreate
  rw [hcreate] at h
  split
  · rename_i hadmitted
    rwa [hadmitted] at h
  · rename_i hadmitted
    rwa [hadmitted] at h

end SyncNode

section

variable [Primitives] [SyncCodec]

/-- A step of the node absorbs at most one fresh event. -/
theorem nodeStep_follows (n : SyncNode) (i : NodeInput) :
    n.replica.Follows (nodeStep n i).replica := by
  cases i with
  | appendDocument docId entry => exact n.createAdmit_follows _
  | proposeMemory memoryId content =>
    have h := n.createAdmit_follows (.memoryProposed memoryId content)
    simp only [nodeStep, SyncNode.proposeMemory]
    split
    · exact .inl rfl
    · split <;> rename_i hcreate <;> rwa [hcreate] at h
  | forgetMemory memoryId forgottenAtMillis digest => exact n.createAdmit_follows _
  | putBlob blobId blob =>
    have h := SyncNode.createAdmit_follows { n with blobs := n.blobs.insert blobId blob }
      (.blobAdded blobId blob.totalSize blob.entries)
    simp only [nodeStep, SyncNode.putBlob]
    split <;> rename_i hcreate <;> rwa [hcreate] at h
  | acknowledge => exact n.createAdmit_follows _
  | receive event => exact n.admitEvent_follows event
  | portFaults faults => exact .inl rfl

/-- **The replicated state in closed form.**  After every run of local creations
and received events, whatever their order and repetitions and whichever port
calls fail, the state is what the applied events say: the entries of a document,
the tombstoned ids, the visible memory ids and the greatest acknowledged
frontiers. -/
theorem run_closedForm (keys : DeviceKeys) (label : String) (port : Option SyncPort)
    (inputs : List NodeInput) :
    ((nodeMachine keys label port).run inputs).replica.ClosedForm := by
  refine Machine.invariant (I := fun n : SyncNode => n.replica.ClosedForm) _ ?_ ?_ inputs
  · intro n i h
    exact h.follows (nodeStep_follows n i)
  · exact Replica.empty_closedForm

end

end Altior.Sync
