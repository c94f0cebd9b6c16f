import Altior.Sync.Queue
import Altior.Sync.Replica

/-!
# Receivers

What a node keeps from step to step: the events it has applied and recorded and
its fetch positions, in the port, as loaded and in its channels; and what it means
for a receiver to be caught up with them.
-/

namespace Altior.Sync

open Lib Crypto

/-! ## Nodes that only learn -/

/-- The port keeps its cursors and only adds events. -/
structure SyncPort.Grows (p p' : SyncPort) : Prop where
  cursors : p'.cursors = p.cursors
  applied : p.applied ⊆ p'.applied
  distinct : (p.applied.map JournalEvent.eventId).Nodup → (p'.applied.map JournalEvent.eventId).Nodup

namespace SyncPort

theorem Grows.refl (p : SyncPort) : p.Grows p := ⟨rfl, List.Subset.refl _, id⟩

theorem Grows.trans {p p' p'' : SyncPort} (h : p.Grows p') (h' : p'.Grows p'') : p.Grows p'' :=
  ⟨h'.cursors.trans h.cursors, List.Subset.trans h.applied h'.applied, h'.distinct ∘ h.distinct⟩

theorem call_grows (p : SyncPort) : p.Grows p.call.2 := by
  unfold call
  split
  · exact .refl p
  · exact ⟨rfl, List.Subset.refl _, id⟩

theorem recordApplied_grows (p : SyncPort) (e : JournalEvent) : p.Grows (p.recordApplied e).2 := by
  have hcall := p.call_grows
  unfold recordApplied
  split
  · exact .refl p
  split
  · rename_i heq
    rwa [heq] at hcall
  · rename_i q heq
    rw [heq] at hcall
    split
    · exact hcall
    · rename_i hnew
      refine hcall.trans ⟨rfl, List.subset_append_left _ _, fun hnodup => ?_⟩
      simp only [List.map_append, List.map_cons, List.map_nil]
      rw [List.nodup_append]
      refine ⟨hnodup, List.nodup_cons.2 ⟨List.not_mem_nil, List.nodup_nil⟩, fun id hid id' hid' heq => ?_⟩
      obtain ⟨e', he', rfl⟩ := List.mem_map.1 hid
      rw [List.mem_singleton] at hid'
      refine hnew (List.any_eq_true.2 ⟨e', he', ?_⟩)
      rw [heq, hid']
      exact beq_self_eq_true _

theorem recordTombstone_grows (p : SyncPort) (memoryId : String) (mark : TombstoneMark)
    (at_ : Nat) : p.Grows (p.recordTombstone memoryId mark at_).2 := by
  have hcall := p.call_grows
  unfold recordTombstone
  split
  · exact .refl p
  split <;> rename_i heq <;> rw [heq] at hcall
  · exact hcall
  · exact hcall.trans ⟨rfl, List.Subset.refl _, id⟩

end SyncPort

variable {peer : String}

namespace SyncNode

/-- The node has applied the event and, with a port, recorded it. -/
def Holds (n : SyncNode) (e : JournalEvent) : Prop :=
  n.applied[e.eventId]? = some e ∧ ∀ port, n.port = some port → e ∈ port.applied

/-- The fetch position in a paired peer's bucket. -/
def cursorOf (n : SyncNode) (peer : String) : Option Nat :=
  n.peers[peer]?.map PeerChannels.fetchCursor

/-- The node keeps what it applied and recorded, and all its fetch positions. -/
structure Extends (n n' : SyncNode) : Prop where
  label : n'.label = n.label
  loaded : n'.loadedCursors = n.loadedCursors
  applied : ∀ (id : String) e, n.applied[id]? = some e → n'.applied[id]? = some e
  live : ∀ peer, n'.cursorOf peer = n.cursorOf peer
  port : ∀ port', n'.port = some port' → ∃ port, n.port = some port ∧ port.Grows port'

theorem Extends.refl (n : SyncNode) : n.Extends n where
  label := rfl
  loaded := rfl
  applied _ _ h := h
  live _ := rfl
  port port h := ⟨port, h, .refl port⟩

variable {n : SyncNode}

theorem Extends.trans {n' n'' : SyncNode} (h : n.Extends n') (h' : n'.Extends n'') :
    n.Extends n'' where
  label := h'.label.trans h.label
  loaded := h'.loaded.trans h.loaded
  applied id e he := h'.applied id e (h.applied id e he)
  live peer := (h'.live peer).trans (h.live peer)
  port port'' hp'' := by
    obtain ⟨port', hp', hgrows'⟩ := h'.port port'' hp''
    obtain ⟨port, hp, hgrows⟩ := h.port port' hp'
    exact ⟨port, hp, hgrows.trans hgrows'⟩

theorem Extends.holds {n' : SyncNode} (h : n.Extends n') {e : JournalEvent} (he : n.Holds e) :
    n'.Holds e := by
  refine ⟨h.applied _ _ he.1, fun port' hp' => ?_⟩
  obtain ⟨port, hp, hgrows⟩ := h.port port' hp'
  exact hgrows.applied (he.2 port hp)

/-- A change of none of what counts here. -/
theorem extends_of_same {n' : SyncNode} (hlabel : n'.label = n.label)
    (hloaded : n'.loadedCursors = n.loadedCursors) (happlied : n'.applied = n.applied)
    (hpeers : n'.peers = n.peers) (hport : n'.port = n.port) : n.Extends n' where
  label := hlabel
  loaded := hloaded
  applied _ _ h := happlied ▸ h
  live peer := by rw [cursorOf, cursorOf, hpeers]
  port port h := ⟨port, hport ▸ h, .refl port⟩

/-- A change of the port alone. -/
theorem extends_setPort {port port' : SyncPort} (hport : n.port = some port)
    (hgrows : port.Grows port') : n.Extends { n with port := some port' } where
  label := rfl
  loaded := rfl
  applied _ _ h := h
  live _ := rfl
  port := by
    rintro _ ⟨⟩
    exact ⟨port, hport, hgrows⟩

/-- A change of the sessions with a peer. -/
theorem extends_setChannels {channels channels' : PeerChannels}
    (hpeer : n.peers[peer]? = some channels)
    (hcursor : channels'.fetchCursor = channels.fetchCursor) :
    n.Extends { n with peers := n.peers.insert peer channels' } where
  label := rfl
  loaded := rfl
  applied _ _ h := h
  live x := by
    simp only [cursorOf, Table.getElem?_insert_eq]
    split
    · rename_i hx
      rw [← hx, hpeer, Option.map_some, Option.map_some, hcursor]
    · rfl
  port port h := ⟨port, h, .refl port⟩

/-- Applying a fresh event. -/
theorem apply_extends {e : JournalEvent} (hfresh : e.eventId ∉ n.applied) :
    n.Extends (n.apply e).2 := by
  have hkeep (id : String) (x : JournalEvent) (hx : n.applied[id]? = some x) :
      (n.applied.insert e.eventId e)[id]? = some x := by
    rw [Table.getElem?_insert_of_ne]
    · exact hx
    · rintro rfl
      exact hfresh (Table.mem_iff.2 ⟨x, hx⟩)
  have hport (port : SyncPort) (h : n.port = some port) :
      ∃ port', n.port = some port' ∧ port'.Grows port := ⟨port, h, .refl port⟩
  unfold apply
  cases e.body with
  | memoryForgotten memoryId at_ digest =>
    simp only [applyForget]
    split
    · exact ⟨rfl, rfl, hkeep, fun _ => rfl, hport⟩
    · rename_i port hp
      have hgrows := port.recordTombstone_grows memoryId ⟨digest, e.origin, e.originSeq⟩ at_
      split <;> rename_i heq <;> rw [heq] at hgrows
      · exact extends_setPort hp hgrows
      · exact (extends_setPort hp hgrows).trans
          ⟨rfl, rfl, hkeep, fun _ => rfl, fun p h => ⟨p, h, .refl p⟩⟩
  | memoryProposed memoryId content =>
    simp only
    split <;> exact ⟨rfl, rfl, hkeep, fun _ => rfl, hport⟩
  | documentAppend docId entry => exact ⟨rfl, rfl, hkeep, fun _ => rfl, hport⟩
  | ack frontiers => exact ⟨rfl, rfl, hkeep, fun _ => rfl, hport⟩
  | blobAdded blobId totalSize entries => exact ⟨rfl, rfl, hkeep, fun _ => rfl, hport⟩

theorem admitEvent_extends (n : SyncNode) (e : JournalEvent) : n.Extends (n.admitEvent e).2 := by
  unfold admitEvent
  split
  · exact .refl n
  · rename_i hfresh
    split
    · exact apply_extends hfresh
    · rename_i port hp
      have hgrows := port.recordApplied_grows e
      split <;> rename_i heq <;> rw [heq] at hgrows
      · exact extends_setPort hp hgrows
      · refine (extends_setPort hp hgrows).trans (apply_extends ?_)
        exact hfresh

variable [Primitives] [SyncCodec]

theorem createAdmit_extends (n : SyncNode) (body : EventBody) :
    n.Extends (n.createAdmit body).2 := by
  have hcreate : n.Extends (n.create body).2 := extends_of_same rfl rfl rfl rfl rfl
  have h := hcreate.trans ((n.create body).2.admitEvent_extends (n.create body).1)
  unfold createAdmit
  split
  rename_i heq
  rw [heq] at h
  split <;> rename_i hadmitted <;> rwa [hadmitted] at h

end SyncNode

section

variable [Primitives] [SyncCodec]

theorem nodeStep_extends (n : SyncNode) (i : NodeInput) : n.Extends (nodeStep n i) := by
  cases i with
  | appendDocument docId entry => exact n.createAdmit_extends _
  | proposeMemory memoryId content =>
    have h := n.createAdmit_extends (.memoryProposed memoryId content)
    simp only [nodeStep, SyncNode.proposeMemory]
    split
    · exact SyncNode.extends_of_same rfl rfl rfl rfl rfl
    · split <;> rename_i heq <;> rwa [heq] at h
  | forgetMemory memoryId at_ digest => exact n.createAdmit_extends _
  | putBlob blobId blob =>
    have hblob : n.Extends { n with blobs := n.blobs.insert blobId blob } :=
      SyncNode.extends_of_same rfl rfl rfl rfl rfl
    have h := hblob.trans (SyncNode.createAdmit_extends { n with
      blobs := n.blobs.insert blobId blob } (.blobAdded blobId blob.totalSize blob.entries))
    simp only [nodeStep, SyncNode.putBlob]
    split <;> rename_i heq <;> rwa [heq] at h
  | acknowledge => exact n.createAdmit_extends _
  | receive event => exact n.admitEvent_extends event
  | portFaults faults =>
    refine ⟨rfl, rfl, fun _ _ h => h, fun _ => rfl, fun port' hp' => ?_⟩
    simp only [nodeStep] at hp'
    cases hport : n.port with
    | none =>
      rw [hport] at hp'
      cases hp'
    | some port =>
      rw [hport] at hp'
      cases hp'
      exact ⟨port, rfl, rfl, List.Subset.refl _, id⟩

end

/-! ## Receivers that are caught up -/

/-- Every event pushed to a node by a peer at or below a position is held. -/
def CaughtUp (pushed : List Pushed) (nextSeq : Nat) (n : SyncNode) (peer : String) (cursor : Nat) :
    Prop :=
  cursor < nextSeq ∧ ∀ record ∈ pushed, record.bucket = bucketFor n.label peer →
    record.seq ≤ cursor → n.Holds record.event

/-- A node is caught up with all its fetch positions: those of the port, those it
was started with and those of its channels. -/
structure Caught (pushed : List Pushed) (nextSeq : Nat) (n : SyncNode) : Prop where
  distinct : ∀ port, n.port = some port → (port.applied.map JournalEvent.eventId).Nodup
  persisted : ∀ port, n.port = some port → ∀ (peer : String) cursor,
    port.cursors[peer]? = some cursor → CaughtUp pushed nextSeq n peer cursor
  loaded : ∀ (peer : String) cursor, n.loadedCursors[peer]? = some cursor →
    CaughtUp pushed nextSeq n peer cursor
  live : ∀ peer cursor, n.cursorOf peer = some cursor → CaughtUp pushed nextSeq n peer cursor

section

variable {pushed pushed' : List Pushed} {nextSeq nextSeq' : Nat} {n n' : SyncNode}

theorem CaughtUp.extends {cursor : Nat} (h : CaughtUp pushed nextSeq n peer cursor)
    (hext : n.Extends n') : CaughtUp pushed nextSeq n' peer cursor := by
  refine ⟨h.1, fun record hrecord hbucket hseq => hext.holds ?_⟩
  rw [hext.label] at hbucket
  exact h.2 record hrecord hbucket hseq

theorem Caught.extends (h : Caught pushed nextSeq n) (hext : n.Extends n') :
    Caught pushed nextSeq n' where
  distinct port' hp' := by
    obtain ⟨port, hp, hgrows⟩ := hext.port port' hp'
    exact hgrows.distinct (h.distinct port hp)
  persisted port' hp' peer cursor hcursor := by
    obtain ⟨port, hp, hgrows⟩ := hext.port port' hp'
    rw [hgrows.cursors] at hcursor
    exact (h.persisted port hp peer cursor hcursor).extends hext
  loaded peer cursor hcursor := by
    rw [hext.loaded] at hcursor
    exact (h.loaded peer cursor hcursor).extends hext
  live peer cursor hcursor := by
    rw [hext.live] at hcursor
    exact (h.live peer cursor hcursor).extends hext

/-- Pushes beyond the relay's sequence leave everyone caught up. -/
theorem CaughtUp.push {cursor : Nat} (h : CaughtUp pushed nextSeq n peer cursor)
    (hnext : nextSeq ≤ nextSeq')
    (hpushed : ∀ record ∈ pushed', record ∈ pushed ∨ nextSeq ≤ record.seq) :
    CaughtUp pushed' nextSeq' n peer cursor := by
  refine ⟨Nat.lt_of_lt_of_le h.1 hnext, fun record hrecord hbucket hseq => ?_⟩
  obtain hold | hnew := hpushed record hrecord
  · exact h.2 record hold hbucket hseq
  · have := h.1
    omega

theorem Caught.push (h : Caught pushed nextSeq n) (hnext : nextSeq ≤ nextSeq')
    (hpushed : ∀ record ∈ pushed', record ∈ pushed ∨ nextSeq ≤ record.seq) :
    Caught pushed' nextSeq' n where
  distinct := h.distinct
  persisted port hp peer cursor hcursor := (h.persisted port hp peer cursor hcursor).push hnext hpushed
  loaded peer cursor hcursor := (h.loaded peer cursor hcursor).push hnext hpushed
  live peer cursor hcursor := (h.live peer cursor hcursor).push hnext hpushed

end

/-! ## Restart and pairing -/

/-- Replaying distinct events into a volatile node applies all of them. -/
theorem replay_applied (es : List JournalEvent) (hdistinct : (es.map JournalEvent.eventId).Nodup)
    {n : SyncNode} (hport : n.port = none) :
    (∀ e ∈ es, (es.foldl (fun n e => (n.apply e).2) n).applied[e.eventId]? = some e) ∧
      ∀ id ∉ es.map JournalEvent.eventId,
        (es.foldl (fun n e => (n.apply e).2) n).applied[id]? = n.applied[id]? := by
  induction es generalizing n with
  | nil => exact ⟨fun e he => absurd he List.not_mem_nil, fun _ _ => rfl⟩
  | cons e es ih =>
    rw [List.map_cons, List.nodup_cons] at hdistinct
    obtain ⟨hreplica, hport'⟩ := n.apply_volatile e hport
    have happlied : (n.apply e).2.applied = n.applied.insert e.eventId e :=
      (congrArg Replica.applied hreplica).trans (Replica.absorb_applied _ _)
    obtain ⟨hin, hout⟩ := ih hdistinct.2 hport'
    rw [List.foldl_cons]
    constructor
    · intro x hx
      obtain rfl | hx := List.mem_cons.1 hx
      · rw [hout _ hdistinct.1, happlied, Table.getElem?_insert_same]
      · exact hin x hx
    · intro id hid
      rw [List.map_cons, List.mem_cons, not_or] at hid
      rw [hout id hid.2, happlied, Table.getElem?_insert_of_ne _ _ (Ne.symm hid.1)]

/-- Applying an event leaves the label and the channels alone. -/
theorem SyncNode.apply_frame (n : SyncNode) (e : JournalEvent) :
    (n.apply e).2.label = n.label ∧ (n.apply e).2.peers = n.peers := by
  unfold SyncNode.apply
  cases e.body with
  | memoryForgotten memoryId at_ digest =>
    simp only [SyncNode.applyForget]
    split
    · exact ⟨rfl, rfl⟩
    · split <;> exact ⟨rfl, rfl⟩
  | memoryProposed memoryId content =>
    simp only
    split <;> exact ⟨rfl, rfl⟩
  | documentAppend docId entry => exact ⟨rfl, rfl⟩
  | ack frontiers => exact ⟨rfl, rfl⟩
  | blobAdded blobId totalSize entries => exact ⟨rfl, rfl⟩

theorem replay_frame (es : List JournalEvent) (n : SyncNode) :
    (es.foldl (fun n e => (n.apply e).2) n).label = n.label ∧
      (es.foldl (fun n e => (n.apply e).2) n).peers = n.peers := by
  induction es generalizing n with
  | nil => exact ⟨rfl, rfl⟩
  | cons e es ih =>
    obtain ⟨hlabel, hpeers⟩ := ih (n.apply e).2
    obtain ⟨hlabel', hpeers'⟩ := n.apply_frame e
    exact ⟨hlabel.trans hlabel', hpeers.trans hpeers'⟩

/-- A restarted node is caught up with what its port says. -/
theorem Caught.restart {pushed : List Pushed} {nextSeq : Nat} {n : SyncNode} {port : SyncPort}
    (h : Caught pushed nextSeq n) (hport : n.port = some port) :
    Caught pushed nextSeq (.durable n.keys n.label port) := by
  have hdistinct := h.distinct port hport
  obtain ⟨hlabel, hpeers⟩ := replay_frame port.applied (.new n.keys n.label none)
  obtain ⟨happlied, -⟩ := replay_applied port.applied hdistinct (n := .new n.keys n.label none) rfl
  -- Whatever the old node held is in the port, so the new one holds it.
  have hcaught (peer : String) (cursor : Nat) (hcursor : port.cursors[peer]? = some cursor) :
      CaughtUp pushed nextSeq (.durable n.keys n.label port) peer cursor := by
    obtain ⟨hlt, hall⟩ := h.persisted port hport peer cursor hcursor
    refine ⟨hlt, fun record hrecord hbucket hseq => ?_⟩
    have hbucket' : record.bucket = bucketFor n.label peer := hlabel ▸ hbucket
    have hheld := (hall record hrecord hbucket' hseq).2 port hport
    refine ⟨happlied _ hheld, ?_⟩
    rintro _ ⟨⟩
    exact hheld
  constructor
  · rintro _ ⟨⟩
    exact hdistinct
  · rintro _ ⟨⟩
    exact hcaught
  · exact hcaught
  · intro peer cursor hcursor
    have hempty : (SyncNode.durable n.keys n.label port).peers = ∅ := hpeers
    simp [SyncNode.cursorOf, hempty] at hcursor

/-- A node paired anew starts from the positions it was started with. -/
theorem Caught.pair {pushed : List Pushed} {nextSeq : Nat} {n : SyncNode}
    (h : Caught pushed nextSeq n) (hnext : 0 < nextSeq) (hseq : ∀ record ∈ pushed, 0 < record.seq)
    {channels : PeerChannels} (hcursor : channels.fetchCursor = n.loadedCursors[peer]?.getD 0) :
    Caught pushed nextSeq { n with peers := n.peers.insert peer channels } where
  distinct := h.distinct
  persisted port hp x cursor hx := h.persisted port hp x cursor hx
  loaded x cursor hx := h.loaded x cursor hx
  live x c hc := by
    simp only [SyncNode.cursorOf, Table.getElem?_insert_eq] at hc
    split at hc
    · rename_i hx
      cases hc
      subst hx
      rw [hcursor]
      cases hloaded : n.loadedCursors[peer]? with
      | some cursor => exact h.loaded peer cursor hloaded
      | none =>
        refine ⟨hnext, fun record hrecord _ hle => ?_⟩
        have := hseq record hrecord
        simp only [Option.getD_none] at hle
        omega
    · exact h.live x c hc

end Altior.Sync
