import Altior.Sync.Replica
import Altior.Lib.Fnv
import Mathlib.Data.List.Induction

/-!
# Convergence

Two nodes with the same applied events.  The documents always agree; the content
of a memory and the mark of a tombstone are whichever was applied last, so nodes
are bound to agree exactly when the applied events agree among themselves.
-/

namespace Altior.Sync

open Lib Crypto

namespace SyncNode

/-- The canonical encoding of the visible state: documents, memories,
tombstones. -/
def stateBytes (n : SyncNode) : List UInt8 :=
  (n.documents.toList.flatMap fun (docId, entries) =>
    docId.toUTF8.toList ++
      entries.toList.flatMap (fun entry => entry.toUTF8.toList ++ [0x1e]) ++ [0x1d]) ++
  (n.memories.toList.flatMap fun (memoryId, content) =>
    memoryId.toUTF8.toList ++ content.toUTF8.toList ++ [0x1d]) ++
  n.tombstones.toList.flatMap fun (memoryId, mark) =>
    memoryId.toUTF8.toList ++ mark.digest.toList ++ mark.origin.toUTF8.toList ++
      toBeBytes mark.originSeq ++ [0x1d]

/-- FNV-1a over the canonical state encoding. -/
def stateDigest (n : SyncNode) : UInt64 := fnv1a n.stateBytes

end SyncNode

/-- The memory contents, documents and tombstone marks of two nodes are the same,
and so are their digests. -/
structure SameState (n n' : SyncNode) : Prop where
  memories : n.memories = n'.memories
  documents : n.documents = n'.documents
  tombstones : n.tombstones = n'.tombstones
  digest : n.stateDigest = n'.stateDigest

/-- Events that agree: the proposals of a memory that is not forgotten have one
content, and the forgets of a memory have one mark. -/
structure Agreeing (E : Set JournalEvent) : Prop where
  contents : ∀ e ∈ E, ∀ e' ∈ E, ∀ m content content', m ∉ forgotten E →
    e.body = .memoryProposed m content → e'.body = .memoryProposed m content' →
    content = content'
  marks : ∀ e ∈ E, ∀ e' ∈ E, ∀ m at_ at' digest digest',
    e.body = .memoryForgotten m at_ digest → e'.body = .memoryForgotten m at' digest' →
    (⟨digest, e.origin, e.originSeq⟩ : TombstoneMark) = ⟨digest', e'.origin, e'.originSeq⟩

/-! ## Agreeing events converge -/

/-- Every content and every mark comes from an applied event, which is kept under
its own id. -/
structure Replica.Sourced (r : Replica) : Prop where
  ids : ∀ (id : String) e, r.applied[id]? = some e → e.eventId = id
  memories : ∀ (m : String) content, r.memories[m]? = some content →
    ∃ e ∈ r.events, e.body = .memoryProposed m content
  tombstones : ∀ (m : String) mark, r.tombstones[m]? = some mark →
    ∃ e ∈ r.events, ∃ at_ digest, e.body = .memoryForgotten m at_ digest ∧
      mark = ⟨digest, e.origin, e.originSeq⟩

variable {e : JournalEvent}

namespace Replica

theorem empty_sourced : empty.Sourced where
  ids id e h := by simp [empty] at h
  memories m content h := by simp [empty] at h
  tombstones m mark h := by simp [empty] at h

variable {r r' : Replica}

theorem Sourced.absorb (h : r.Sourced) (hfresh : e.eventId ∉ r.applied) : (r.absorb e).Sourced where
  ids id x hx := by
    rw [absorb_applied, Table.getElem?_insert_eq] at hx
    split at hx
    · rename_i hid
      cases hx
      exact hid
    · exact h.ids id x hx
  memories m content hm := by
    rw [events_absorb hfresh]
    have hold (hm : r.memories[m]? = some content) :
        ∃ x ∈ insert e r.events, x.body = .memoryProposed m content := by
      obtain ⟨x, hx, hbody⟩ := h.memories m content hm
      exact ⟨x, Set.mem_insert_of_mem e hx, hbody⟩
    rw [getElem?_memories_absorb] at hm
    cases hbody : e.body with
    | memoryProposed memoryId c =>
      simp only [hbody] at hm
      split at hm
      · rename_i hid
        cases hm
        exact ⟨e, Set.mem_insert e _, hid.1 ▸ hbody⟩
      · exact hold hm
    | memoryForgotten memoryId at_ digest =>
      simp only [hbody] at hm
      split at hm
      · cases hm
      · exact hold hm
    | _ =>
      simp only [hbody] at hm
      exact hold hm
  tombstones m mark hm := by
    rw [events_absorb hfresh]
    have hold (hm : r.tombstones[m]? = some mark) :
        ∃ x ∈ insert e r.events, ∃ at_ digest, x.body = .memoryForgotten m at_ digest ∧
          mark = ⟨digest, x.origin, x.originSeq⟩ := by
      obtain ⟨x, hx, hbody⟩ := h.tombstones m mark hm
      exact ⟨x, Set.mem_insert_of_mem e hx, hbody⟩
    rw [getElem?_tombstones_absorb] at hm
    cases hbody : e.body with
    | memoryForgotten memoryId at_ digest =>
      simp only [hbody] at hm
      split at hm
      · rename_i hid
        cases hm
        exact ⟨e, Set.mem_insert e _, at_, digest, hid ▸ hbody, rfl⟩
      · exact hold hm
    | _ =>
      simp only [hbody] at hm
      exact hold hm

theorem Sourced.follows (h : r.Sourced) (hr : r.Follows r') : r'.Sourced := by
  obtain rfl | ⟨e, hfresh, rfl⟩ := hr
  · exact h
  · exact h.absorb hfresh

/-- Equal applied sets give equal documents. -/
theorem ClosedForm.documents_eq (h : r.ClosedForm) (h' : r'.ClosedForm)
    (happlied : r'.applied = r.applied) : r'.documents = r.documents := by
  have hevents : r'.events = r.events := by rw [events, events, happlied]
  refine Table.eq_of_rows (fun d => ?_) fun d entries entries' hd hd' => ?_
  · rw [h.documents_ids, h'.documents_ids, hevents]
  · refine Std.ExtTreeSet.ext_mem fun {entry} => ?_
    have hentries : entry ∈ r'.documents[d]?.getD ∅ ↔ entry ∈ r.documents[d]?.getD ∅ := by
      rw [h.documents, h'.documents, hevents]
    rwa [hd, hd'] at hentries

/-- The applied set is its events. -/
theorem Sourced.applied_eq (h : r.Sourced) (h' : r'.Sourced) (hevents : r'.events = r.events) :
    r'.applied = r.applied := by
  have hiff {r : Replica} (h : r.Sourced) (id : String) (e : JournalEvent) :
      r.applied[id]? = some e ↔ e ∈ r.events ∧ e.eventId = id := by
    refine ⟨fun he => ⟨⟨id, he⟩, h.ids id e he⟩, ?_⟩
    rintro ⟨⟨id', he⟩, rfl⟩
    rwa [h.ids id' e he]
  refine Std.ExtTreeMap.ext_getElem? fun id => Option.ext fun e => ?_
  rw [hiff h, hiff h', hevents]

/-- Agreeing events leave no choice. -/
theorem eq_of_agreeing (h : r.ClosedForm) (h' : r'.ClosedForm) (hs : r.Sourced) (hs' : r'.Sourced)
    (happlied : r'.applied = r.applied) (hagree : Agreeing r.events) :
    r'.memories = r.memories ∧ r'.tombstones = r.tombstones := by
  have hevents : r'.events = r.events := by rw [events, events, happlied]
  constructor
  · refine Table.eq_of_rows (fun m => ?_) fun m content content' hm hm' => ?_
    · rw [h.memories, h'.memories, hevents]
    · obtain ⟨e, he, hbody⟩ := hs.memories m content hm
      obtain ⟨e', he', hbody'⟩ := hs'.memories m content' hm'
      have hforgotten : m ∉ forgotten r.events := ((h.memories m).1 (Table.mem_iff.2 ⟨_, hm⟩)).2
      exact hagree.contents e' (hevents ▸ he') e he m content' content hforgotten hbody' hbody
  · refine Table.eq_of_rows (fun m => ?_) fun m mark mark' hm hm' => ?_
    · rw [h.tombstones, h'.tombstones, hevents]
    · obtain ⟨e, he, at_, digest, hbody, rfl⟩ := hs.tombstones m mark hm
      obtain ⟨e', he', at', digest', hbody', rfl⟩ := hs'.tombstones m mark' hm'
      exact hagree.marks e' (hevents ▸ he') e he m at' at_ digest' digest hbody' hbody

end Replica

/-! ## Any order can happen -/

section

variable [Primitives] [SyncCodec]

theorem run_sourced (keys : DeviceKeys) (label : String) (port : Option SyncPort)
    (inputs : List NodeInput) :
    ((nodeMachine keys label port).run inputs).replica.Sourced := by
  refine Machine.invariant (I := fun n : SyncNode => n.replica.Sourced) _ ?_ ?_ inputs
  · intro n i h
    exact h.follows (nodeStep_follows n i)
  · exact Replica.empty_sourced

/-- A volatile node absorbs a fresh event and stays volatile. -/
theorem receive_fresh {n : SyncNode} (hport : n.port = none) (hfresh : e.eventId ∉ n.applied) :
    (nodeStep n (.receive e)).replica = n.replica.absorb e ∧
      (nodeStep n (.receive e)).port = none := by
  simp only [nodeStep, SyncNode.admitEvent, hfresh, if_false, hport]
  exact SyncNode.apply_volatile e hport

/-- An id that no received event has is not applied. -/
theorem fresh_of_not_mem (keys : DeviceKeys) (label : String) (es : List JournalEvent)
    (hevents : ((nodeMachine keys label none).run (es.map .receive)).replica.events = {e | e ∈ es})
    (hmem : e.eventId ∉ es.map JournalEvent.eventId) :
    e.eventId ∉ ((nodeMachine keys label none).run (es.map .receive)).replica.applied := by
  intro happlied
  obtain ⟨x, hx⟩ := Table.mem_iff.1 happlied
  have hxs : x ∈ es := by
    have hx' : x ∈ ((nodeMachine keys label none).run (es.map .receive)).replica.events := ⟨_, hx⟩
    rwa [hevents] at hx'
  have hid := (run_sourced keys label none (es.map .receive)).ids _ x hx
  exact hmem (hid ▸ List.mem_map_of_mem hxs)

/-- A volatile node that receives events with distinct ids has applied exactly
those, and absorbs the next one. -/
theorem run_receive (keys : DeviceKeys) (label : String) (es : List JournalEvent)
    (hdistinct : (es.map JournalEvent.eventId).Nodup) :
    ((nodeMachine keys label none).run (es.map .receive)).port = none ∧
      ((nodeMachine keys label none).run (es.map .receive)).replica.events = {e | e ∈ es} := by
  induction es using List.reverseRecOn with
  | nil =>
    refine ⟨rfl, ?_⟩
    ext e
    simp [Machine.run, nodeMachine, SyncNode.new, SyncNode.replica, Replica.events]
  | append_singleton es e ih =>
    rw [List.map_append, List.nodup_append] at hdistinct
    obtain ⟨hes, -, hne⟩ := hdistinct
    obtain ⟨hport, hevents⟩ := ih hes
    have hfresh := fresh_of_not_mem keys label es hevents
      fun hmem => hne _ hmem _ (List.mem_singleton.2 rfl) rfl
    obtain ⟨habsorb, hport'⟩ := receive_fresh hport hfresh
    rw [List.map_append, Machine.run_append]
    refine ⟨hport', ?_⟩
    refine (congrArg Replica.events habsorb).trans ?_
    rw [Replica.events_absorb hfresh, hevents]
    ext x
    simp [or_comm]

/-- Whatever has been applied in a run, another run applied the same and absorbed
a given event last. -/
theorem exists_run_absorbing_last {keys : DeviceKeys} {label : String} {port : Option SyncPort}
    {inputs : List NodeInput} (he : e ∈ ((nodeMachine keys label port).run inputs).replica.events) :
    ∃ inputs', ∃ r : Replica, r.ClosedForm ∧
      ((nodeMachine keys label none).run inputs').applied =
        ((nodeMachine keys label port).run inputs).applied ∧
      ((nodeMachine keys label none).run inputs').replica = r.absorb e ∧
      r.events ⊆ ((nodeMachine keys label port).run inputs).replica.events := by
  have hsourced := run_sourced keys label port inputs
  generalize (nodeMachine keys label port).run inputs = n at he hsourced ⊢
  let es := n.applied.toList.map Prod.snd
  have hes (x : JournalEvent) : x ∈ es ↔ x ∈ n.replica.events := by
    simp [es, Replica.events, SyncNode.replica, Std.ExtTreeMap.mem_toList_iff_getElem?_eq_some]
  have hids : es.map JournalEvent.eventId = n.applied.keys := by
    rw [← Std.ExtTreeMap.map_fst_toList_eq_keys, List.map_map]
    refine List.map_congr_left fun row hrow => ?_
    exact hsourced.ids row.1 row.2 (Std.ExtTreeMap.mem_toList_iff_getElem?_eq_some.1 hrow)
  have hnodup : (es.map JournalEvent.eventId).Nodup := hids ▸ Std.ExtTreeMap.nodup_keys
  have hperm : (es.erase e ++ [e]).Perm es :=
    (List.perm_append_singleton e _).trans (List.perm_cons_erase ((hes e).2 he)).symm
  have hnodup' : ((es.erase e ++ [e]).map JournalEvent.eventId).Nodup :=
    (hperm.map JournalEvent.eventId).nodup_iff.2 hnodup
  obtain ⟨hport, hevents⟩ := run_receive keys label (es.erase e)
    (by rw [List.map_append] at hnodup'; exact (List.nodup_append.1 hnodup').1)
  obtain ⟨-, hevents'⟩ := run_receive keys label _ hnodup'
  have hfresh := fresh_of_not_mem (e := e) keys label _ hevents fun hmem => by
    rw [List.map_append] at hnodup'
    exact (List.nodup_append.1 hnodup').2.2 _ hmem _ (List.mem_singleton.2 rfl) rfl
  refine ⟨(es.erase e ++ [e]).map .receive, _,
    run_closedForm keys label none ((es.erase e).map .receive), ?_, ?_, ?_⟩
  · refine hsourced.applied_eq (run_sourced keys label none _) ?_
    rw [hevents']
    ext x
    exact hperm.mem_iff.trans (hes x)
  · rw [List.map_append, Machine.run_append]
    exact (receive_fresh hport hfresh).1
  · rw [hevents]
    intro x hx
    exact (hes x).1 (List.mem_of_mem_erase hx)

/-- **When nodes converge.**  Every other node with the same applied events, in
whatever order it applied them, has the same contents, documents, marks and
digest, exactly if the applied events agree among themselves. -/
theorem converges_iff_agreeing (keys : DeviceKeys) (label : String) (port : Option SyncPort)
    (inputs : List NodeInput) :
    (∀ keys' label' port' inputs',
      ((nodeMachine keys' label' port').run inputs').applied =
        ((nodeMachine keys label port).run inputs).applied →
      SameState ((nodeMachine keys' label' port').run inputs')
        ((nodeMachine keys label port).run inputs)) ↔
    Agreeing ((nodeMachine keys label port).run inputs).replica.events := by
  constructor
  · intro hall
    constructor
    · intro e he e' he' m content content' hforgotten hbody hbody'
      have hlast {e : JournalEvent} {content : String}
          (he : e ∈ ((nodeMachine keys label port).run inputs).replica.events)
          (hbody : e.body = .memoryProposed m content) :
          ((nodeMachine keys label port).run inputs).memories[m]? = some content := by
        obtain ⟨inputs', r, hr, happlied, habsorb, hsub⟩ := exists_run_absorbing_last he
        rw [← (hall _ _ _ _ happlied).memories]
        change ((nodeMachine keys label none).run inputs').replica.memories[m]? = some content
        have hm : m ∉ r.tombstones := by
          rw [hr.tombstones]
          rintro ⟨x, hx, hbody⟩
          exact hforgotten ⟨x, hsub hx, hbody⟩
        rw [habsorb, Replica.getElem?_memories_absorb]
        simp only [hbody]
        rw [if_pos ⟨trivial, hm⟩]
      exact Option.some.inj ((hlast he hbody).symm.trans (hlast he' hbody'))
    · intro e he e' he' m at_ at' digest digest' hbody hbody'
      have hlast {e : JournalEvent} {at_ : Nat} {digest : Bytes32}
          (he : e ∈ ((nodeMachine keys label port).run inputs).replica.events)
          (hbody : e.body = .memoryForgotten m at_ digest) :
          ((nodeMachine keys label port).run inputs).tombstones[m]? =
            some ⟨digest, e.origin, e.originSeq⟩ := by
        obtain ⟨inputs', r, hr, happlied, habsorb, hsub⟩ := exists_run_absorbing_last he
        rw [← (hall _ _ _ _ happlied).tombstones]
        change ((nodeMachine keys label none).run inputs').replica.tombstones[m]? = _
        rw [habsorb, Replica.getElem?_tombstones_absorb]
        simp only [hbody, if_true]
      exact Option.some.inj ((hlast he hbody).symm.trans (hlast he' hbody'))
  · intro hagree keys' label' port' inputs' happlied
    have h := run_closedForm keys label port inputs
    have h' := run_closedForm keys' label' port' inputs'
    obtain ⟨hmemories, htombstones⟩ := Replica.eq_of_agreeing h h'
      (run_sourced keys label port inputs) (run_sourced keys' label' port' inputs') happlied hagree
    have hdocuments := Replica.ClosedForm.documents_eq h h' happlied
    generalize (nodeMachine keys label port).run inputs = n at *
    generalize (nodeMachine keys' label' port').run inputs' = n' at *
    have hm : n'.memories = n.memories := hmemories
    have ht : n'.tombstones = n.tombstones := htombstones
    have hd : n'.documents = n.documents := hdocuments
    refine ⟨hm, hd, ht, ?_⟩
    rw [SyncNode.stateDigest, SyncNode.stateDigest, SyncNode.stateBytes, SyncNode.stateBytes, hm, hd, ht]

end

section

local instance sampleIdeal : Primitives := ideal IdealPlain

local instance sampleCodec : SyncCodec := idealCodec

/-- A device's keys. -/
def sampleKeys (id : String) (byte : UInt8) : DeviceKeys :=
  ⟨id, Vector.replicate 32 byte, Vector.replicate 32 byte⟩

/-- One device's proposal for memory `m` as the other receives it. -/
def sampleProposal (origin content : String) : JournalEvent :=
  ⟨origin ++ ":1", origin, 1, Vector.replicate 64 0, .memoryProposed "m" content⟩

/-- Two devices propose contents for one memory and exchange the proposals: the
same two events are applied, and each device ends with the other's content. -/
theorem concurrent_proposals_diverge :
    let a := (nodeMachine (sampleKeys "a" 1) "a" none).run
      [.proposeMemory "m" "tea", .receive (sampleProposal "b" "coffee")]
    let b := (nodeMachine (sampleKeys "b" 2) "b" none).run
      [.proposeMemory "m" "coffee", .receive (sampleProposal "a" "tea")]
    a.applied = b.applied ∧ ¬ SameState a b ∧
      a.memories["m"]? = some "coffee" ∧ b.memories["m"]? = some "tea" := by
  intro a b
  have ha : a.memories["m"]? = some "coffee" := by decide
  have hb : b.memories["m"]? = some "tea" := by decide
  refine ⟨by decide, fun hsame => ?_, ha, hb⟩
  rw [hsame.memories, hb] at ha
  exact absurd ha (by decide)

end

end Altior.Sync
