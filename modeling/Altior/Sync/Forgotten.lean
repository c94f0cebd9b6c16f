import Altior.Sync.Restart

/-!
# Forgotten memories

A memory that a node has forgotten has a tombstone, and while the tombstone stands
the memory is not visible.  The tombstones of a restarted node are those of the
port's table, so what the table lacks comes back.
-/

namespace Altior.Sync

open Lib Crypto

/-! ## What a journal forgets -/

section

variable {es : List JournalEvent} {memoryId : String}

theorem mem_tombstones_replayed :
    memoryId ∈ (replayed es).tombstones ↔ memoryId ∈ forgotten {e | e ∈ es} := by
  induction es using List.reverseRecOn with
  | nil => simp [replayed, Replica.empty, forgotten]
  | append_singleton es e ih =>
    have hset : {x | x ∈ es ++ [e]} = insert e {x | x ∈ es} := by
      ext x
      simp [or_comm]
    rw [replayed_append, Replica.mem_tombstones_absorb, ih, hset, mem_forgotten_insert]

/-- A journal shows what it proposes and does not forget. -/
theorem mem_memories_replayed (h : memoryId ∈ (replayed es).memories) :
    memoryId ∈ proposed {e | e ∈ es} \ forgotten {e | e ∈ es} := by
  induction es using List.reverseRecOn with
  | nil => simp [replayed, Replica.empty] at h
  | append_singleton es e ih =>
    have hset : {x | x ∈ es ++ [e]} = insert e {x | x ∈ es} := by
      ext x
      simp [or_comm]
    rw [replayed_append, Replica.mem_memories_absorb] at h
    rw [hset, Set.mem_sdiff, mem_proposed_insert, mem_forgotten_insert]
    obtain ⟨⟨content, hbody⟩, hstands⟩ | ⟨hold, hkeeps⟩ := h
    · rw [mem_tombstones_replayed] at hstands
      refine ⟨.inl ⟨content, hbody⟩, ?_⟩
      rintro (⟨at_, digest, hforgets⟩ | hforgets)
      · rw [hbody] at hforgets
        cases hforgets
      · exact hstands hforgets
    · obtain ⟨hproposed, hforgotten⟩ := ih hold
      exact ⟨.inr hproposed, fun hforgets => hforgets.elim hkeeps hforgotten⟩

end

/-! ## The tombstones of a node -/

/-- What a node has forgotten has a tombstone and is not visible; and so are the
memories that are gone. -/
structure SyncNode.Forgets (gone : Set String) (n : SyncNode) : Prop where
  applied : ∀ memoryId ∈ forgotten n.replica.events, memoryId ∈ n.tombstones
  hidden : ∀ memoryId ∈ n.tombstones, memoryId ∉ n.memories
  rows : ∀ p, n.port = some p → ∀ memoryId ∈ p.tombstones, memoryId ∈ n.tombstones
  gone : ∀ memoryId ∈ gone, memoryId ∈ n.tombstones

namespace SyncNode.Forgets

variable {gone : Set String} {n n' : SyncNode}

/-- Forgetting is a matter of the replica and the rows. -/
theorem same (h : n.Forgets gone) (hreplica : n'.replica = n.replica)
    (hport : ∀ p', n'.port = some p' → ∃ p, n.port = some p ∧
      ∀ memoryId ∈ p'.tombstones, memoryId ∈ p.tombstones) : n'.Forgets gone := by
  have htombstones : n'.tombstones = n.tombstones := congrArg Replica.tombstones hreplica
  have hmemories : n'.memories = n.memories := congrArg Replica.memories hreplica
  refine ⟨?_, ?_, fun p' hp' memoryId hrow => ?_, htombstones ▸ h.gone⟩
  · rw [hreplica, htombstones]
    exact h.applied
  · rw [htombstones, hmemories]
    exact h.hidden
  · obtain ⟨p, hp, hrows⟩ := hport p' hp'
    rw [htombstones]
    exact h.rows p hp memoryId (hrows memoryId hrow)

/-- Absorbing a fresh event. -/
theorem absorb (h : n.Forgets gone) {e : JournalEvent} (hfresh : e.eventId ∉ n.applied)
    (hreplica : n'.replica = n.replica.absorb e)
    (hport : ∀ p', n'.port = some p' → ∃ p, n.port = some p ∧
      p'.tombstones = entomb p.tombstones e) : n'.Forgets gone := by
  have htombstones : n'.tombstones = (n.replica.absorb e).tombstones :=
    congrArg Replica.tombstones hreplica
  have hmemories : n'.memories = (n.replica.absorb e).memories :=
    congrArg Replica.memories hreplica
  have hkeeps (memoryId : String) (hmem : memoryId ∈ n.tombstones) : memoryId ∈ n'.tombstones := by
    rw [htombstones, Replica.mem_tombstones_absorb]
    exact .inr hmem
  refine ⟨fun memoryId hforgotten => ?_, fun memoryId hmem => ?_, fun p' hp' memoryId hrow => ?_,
    fun memoryId hgone => hkeeps memoryId (h.gone memoryId hgone)⟩
  · rw [hreplica, Replica.events_absorb hfresh, mem_forgotten_insert] at hforgotten
    obtain hforgets | hold := hforgotten
    · rw [htombstones, Replica.mem_tombstones_absorb]
      exact .inl hforgets
    · exact hkeeps memoryId (h.applied memoryId hold)
  · rw [htombstones, Replica.mem_tombstones_absorb] at hmem
    rw [hmemories, Replica.mem_memories_absorb]
    rintro (⟨⟨content, hbody⟩, hstands⟩ | ⟨hvisible, hforgets⟩)
    · obtain ⟨at_, digest, hforgets⟩ | hold := hmem
      · rw [hbody] at hforgets
        cases hforgets
      · exact hstands hold
    · exact hmem.elim hforgets fun hold => h.hidden memoryId hold hvisible
  · obtain ⟨p, hp, hrows⟩ := hport p' hp'
    rw [htombstones, Replica.mem_tombstones_absorb]
    rw [hrows] at hrow
    unfold entomb at hrow
    split at hrow
    · rename_i forgotten at_ digest hbody
      rw [Std.ExtTreeMap.mem_insert] at hrow
      obtain heq | hold := hrow
      · exact .inl ⟨at_, digest, by rw [hbody, Table.compare_eq_iff.1 heq]⟩
      · exact .inr (h.rows p hp memoryId hold)
    · exact .inr (h.rows p hp memoryId hrow)

theorem admitEvent (h : n.Forgets gone) (e : JournalEvent) : (n.admitEvent e).2.Forgets gone := by
  by_cases hfresh : e.eventId ∈ n.applied
  · have hsame : n.admitEvent e = (.ok (), n) := if_pos hfresh
    rw [hsame]
    exact h
  cases hport : n.port with
  | none =>
    have happly : n.admitEvent e = n.apply e := by
      simp only [SyncNode.admitEvent, hfresh, if_false, hport]
    obtain ⟨hreplica, hnone⟩ := SyncNode.apply_volatile e hport
    rw [happly]
    refine h.absorb hfresh hreplica fun p' hp' => ?_
    rw [hnone] at hp'
    cases hp'
  | some p =>
    obtain ⟨p', hp', -, ⟨-, hrows, hreplica⟩ | ⟨-, hrows, hreplica⟩⟩ :=
      SyncNode.admitEvent_port hfresh hport
    · refine h.absorb hfresh hreplica fun q hq => ?_
      rw [hp'] at hq
      cases hq
      exact ⟨p, hport, hrows⟩
    · refine h.same hreplica fun q hq => ?_
      rw [hp'] at hq
      cases hq
      exact ⟨p, hport, fun _ hrow => hrows ▸ hrow⟩

/-- A restarted node, over a table that has a row for all that is forgotten. -/
theorem restart (h : n.Forgets gone) (keys : DeviceKeys) (label : String) {port : SyncPort}
    (hport : n.port = some port)
    (hrows : ∀ memoryId, memoryId ∈ n.tombstones ∨ memoryId ∈ forgotten {e | e ∈ port.applied} →
      memoryId ∈ port.tombstones ∧
        memoryId ∉ proposed {e | e ∈ port.applied} \ forgotten {e | e ∈ port.applied}) :
    (durable keys label port).Forgets gone := by
  have hreplica := durable_replica keys label port
  have hmemories : (durable keys label port).memories = (replayed port.applied).memories :=
    congrArg Replica.memories hreplica
  have htombstones : (durable keys label port).tombstones =
      port.tombstones.map fun _ row => row.1 := rfl
  have hmem (memoryId : String) :
      memoryId ∈ (durable keys label port).tombstones ↔ memoryId ∈ port.tombstones := by
    rw [htombstones, Std.ExtTreeMap.mem_map]
  refine ⟨fun memoryId hforgotten => ?_, fun memoryId hrow hvisible => ?_, ?_,
    fun memoryId hgone => ?_⟩
  · obtain ⟨e, ⟨id, he⟩, hforgets⟩ := hforgotten
    obtain ⟨hjournal, -⟩ := mem_journal_of_durable he
    rw [hmem]
    exact (hrows memoryId (.inr ⟨e, hjournal, hforgets⟩)).1
  · rw [hmem] at hrow
    rw [hmemories] at hvisible
    exact (hrows memoryId (.inl (h.rows port hport memoryId hrow))).2
      (mem_memories_replayed hvisible)
  · rintro _ ⟨⟩ memoryId hrow
    exact (hmem memoryId).2 hrow
  · exact (hmem memoryId).2 (hrows memoryId (.inl (h.gone memoryId hgone))).1

section

variable [Primitives] [SyncCodec]

theorem createAdmit (h : n.Forgets gone) (body : EventBody) :
    (n.createAdmit body).2.Forgets gone := by
  rw [(n.createAdmit_eq body).1]
  have hcreated : (n.create body).2.Forgets gone := h.same rfl fun p hp => ⟨p, hp, fun _ => id⟩
  exact hcreated.admitEvent _

theorem nodeStep (h : n.Forgets gone) {i : NodeInput} (hlocal : ∀ e, i ≠ .receive e) :
    (nodeStep n i).Forgets gone := by
  obtain ⟨count, heq⟩ | ⟨faults, heq⟩ | ⟨blobs, body, -, -, heq, -⟩ := nodeStep_local n i hlocal <;>
    rw [heq]
  · exact h.same rfl fun p hp => ⟨p, hp, fun _ => id⟩
  · refine h.same rfl fun p' hp' => ?_
    obtain ⟨p, hp, rfl⟩ := Option.map_eq_some_iff.1 hp'
    exact ⟨p, hp, fun _ => id⟩
  · have hblobs : ({ n with blobs := blobs } : SyncNode).Forgets gone :=
      h.same rfl fun p hp => ⟨p, hp, fun _ => id⟩
    exact hblobs.createAdmit body

variable {C : Prop} {l l' : Link}

theorem reads (h : l.node.Forgets gone) (hmove : l.Reads C l') : l'.node.Forgets gone := by
  cases hmove with
  | relay hsame => exact h
  | channels hpeer hidentity houtbound => exact h.same rfl fun p hp => ⟨p, hp, fun _ => id⟩
  | @cursor port peer cursor hport =>
    refine h.same rfl ?_
    rintro _ ⟨⟩
    refine ⟨port, hport, fun _ hrow => ?_⟩
    rwa [(port.recordFetchCursor_keeps peer cursor).2] at hrow
  | blobs hingest => exact h.same rfl fun p hp => ⟨p, hp, fun _ => id⟩
  | admitEvent hgenuine hfresh hok => exact h.admitEvent _

theorem writes (h : l.node.Forgets gone) (hmove : l.Writes l') : l'.node.Forgets gone := by
  cases hmove with
  | relay hsame => exact h
  | outbound hpeer outbound => exact h.same rfl fun p hp => ⟨p, hp, fun _ => id⟩
  | push hfans hpush =>
    obtain ⟨channels, envelope, outbound, outcome, relay, -, -, -, rfl⟩ := Link.sealAndPush_ok hpush
    exact h.same rfl fun p hp => ⟨p, hp, fun _ => id⟩

end

end SyncNode.Forgets

/-! ## Runs -/

/-- Compaction only takes rows away. -/
theorem SyncPort.mem_tombstones_of_compact (p : SyncPort) (floors : List (String × Nat))
    {memoryId : String} (h : memoryId ∈ (p.compactTombstones floors).tombstones) :
    memoryId ∈ p.tombstones := by
  induction floors generalizing p with
  | nil => exact h
  | cons floor floors ih =>
    unfold SyncPort.compactTombstones at h
    split at h
    · exact h
    · split at h <;> rename_i hcall <;> obtain ⟨-, -, htombstones⟩ := SyncPort.call_keeps hcall <;>
        rw [← htombstones]
      · exact h
      · have hkept := ih _ h
        exact Std.ExtTreeMap.mem_of_mem_filter hkept

section

variable [Primitives] [SyncCodec]

/-- A restart of the node finds a row for every memory that the node or its journal
has forgotten, and no proposal in the journal that the journal does not take
back. -/
def KeepsRows (label : String) (s : System) : VaultInput → Prop
  | .system (.restart x) => x = label → ∀ port, (s.nodes label).port = some port → ∀ memoryId,
      memoryId ∈ (s.nodes label).tombstones ∨ memoryId ∈ forgotten {e | e ∈ port.applied} →
      memoryId ∈ port.tombstones ∧
        memoryId ∉ proposed {e | e ∈ port.applied} \ forgotten {e | e ∈ port.applied}
  | _ => True

theorem forgets_vaultStep {gone : Set String} {label : String} {s : System}
    (h : (s.nodes label).Forgets gone) (i : VaultInput) (hok : KeepsRows label s i) :
    ((vaultStep s i).nodes label).Forgets gone := by
  have hmoves := vaultStep_moves s i label
  generalize (vaultStep s i).nodes label = n' at hmoves ⊢
  cases hmoves with
  | stay => exact h
  | step hlocal => exact h.nodeStep hlocal
  | poll =>
    exact Link.poll_invariant (C := False) (I := fun l => l.node.Forgets gone)
      (fun _ _ hl hmove => hl.reads hmove) h False.elim
  | flush seed =>
    exact Link.flush_invariant (C := False) (I := fun l => l.node.Forgets gone)
      (fun _ _ hl hmove => hl.reads hmove) (fun _ hl _ => hl.createAdmit _)
      (fun _ _ hl hmove => hl.writes hmove) h seed False.elim
  | restart hport => exact h.restart _ label hport (hok rfl _ hport)
  | pair hidentity => exact h.same rfl fun p hp => ⟨p, hp, fun _ => id⟩
  | compact =>
    refine h.same rfl fun p' hp' => ?_
    obtain ⟨p, hp, rfl⟩ := Option.map_eq_some_iff.1 hp'
    exact ⟨p, hp, fun _ => p.mem_tombstones_of_compact _⟩

omit [Primitives] [SyncCodec] in
theorem forgets_new (keys : DeviceKeys) (label : String) (isDurable : Bool) :
    (SyncNode.new keys label (if isDurable then some .empty else none)).Forgets ∅ := by
  refine ⟨fun memoryId hforgotten => ?_, fun memoryId hmem => ?_, fun p hp memoryId hrow => ?_,
    fun _ hgone => hgone.elim⟩
  · obtain ⟨e, ⟨id, he⟩, -⟩ := hforgotten
    simp [SyncNode.new, SyncNode.replica] at he
  · simp [SyncNode.new] at hmem
  · simp only [SyncNode.new] at hp
    split at hp <;> cases hp
    simp [SyncPort.empty] at hrow

/-- **No resurrection.**  In every run of the vault whose restarts of a node find
the rows they need, a memory with an applied forget at some moment is not visible
in any later state. -/
theorem forgotten_stays_hidden (policy : RelayPolicy) (keys : String → DeviceKeys)
    (isDurable : String → Bool) (inputs later : List VaultInput) (label : String)
    (hok : (vaultMachine policy keys isDurable).Meets (KeepsRows label)
      (vaultMachine policy keys isDurable).init (inputs ++ later))
    (memoryId : String)
    (hforgotten : memoryId ∈
      forgotten (((vaultMachine policy keys isDurable).run inputs).nodes label).replica.events) :
    memoryId ∉ (((vaultMachine policy keys isDurable).run (inputs ++ later)).nodes label).memories := by
  obtain ⟨hbefore, hafter⟩ := (Machine.meets_append _).1 hok
  have hnow : (((vaultMachine policy keys isDurable).run inputs).nodes label).Forgets ∅ :=
    Machine.invariant_of_meets _ (I := fun s : System => (s.nodes label).Forgets ∅)
      (fun s i h hok => forgets_vaultStep h i hok) (forgets_new (keys label) label _) hbefore
  have hgone : (((vaultMachine policy keys isDurable).run inputs).nodes label).Forgets {memoryId} := by
    refine ⟨hnow.applied, hnow.hidden, hnow.rows, ?_⟩
    rintro _ rfl
    exact hnow.applied _ hforgotten
  have hlater : (((vaultMachine policy keys isDurable).run (inputs ++ later)).nodes label).Forgets
      {memoryId} := by
    rw [Machine.run_append]
    exact Machine.invariant_of_meets _ (I := fun s : System => (s.nodes label).Forgets {memoryId})
      (fun s i h hok => forgets_vaultStep h i hok) hgone hafter
  exact hlater.hidden memoryId (hlater.gone memoryId rfl)

end

section

attribute [local instance] idealPrimitives idealSyncCodec

/-- What `a` journals when it forgets a memory first thing. -/
def firstForget : JournalEvent :=
  ⟨"a:1", "a", 1, Vector.replicate 64 0, .memoryForgotten "m" 5 (Vector.replicate 32 8)⟩

theorem forgotten_stays_hidden_restarted :
    let inputs : List VaultInput :=
      [.system (.node "a" (.forgetMemory "m" 5 (Vector.replicate 32 8)))]
    let later : List VaultInput :=
      [.system (.restart "a"), .system (.node "a" (.proposeMemory "m" "tea"))]
    "m" ∉ (((vaultMachine .permissive pairKeys fun _ => true).run (inputs ++ later)).nodes
      "a").memories := by
  intro inputs later
  let s := (vaultMachine .permissive pairKeys fun _ => true).run inputs
  have hmarks : (s.nodes "a").tombstones.keys = ["m"] := by
    decide
  have happlied : (s.nodes "a").applied["a:1"]? = some firstForget := by
    decide
  have hjournal (port : SyncPort) (hport : (s.nodes "a").port = some port) :
      port.applied = [firstForget] ∧ "m" ∈ port.tombstones := by
    have hsome : ∀ port ∈ (s.nodes "a").port,
        port.applied = [firstForget] ∧ "m" ∈ port.tombstones := by
      decide
    exact hsome port hport
  have hforgotten : "m" ∈ forgotten {e | e ∈ [firstForget]} :=
    ⟨firstForget, List.mem_singleton.2 rfl, 5, Vector.replicate 32 8, rfl⟩
  have hrows : KeepsRows "a" s (.system (.restart "a")) := by
    intro _ port hport memoryId hgone
    obtain ⟨hentries, hrow⟩ := hjournal port hport
    rw [hentries] at hgone ⊢
    have hm : memoryId = "m" := by
      obtain hmark | ⟨e, he, at_, digest, hbody⟩ := hgone
      · rw [← Std.ExtTreeMap.mem_keys, hmarks] at hmark
        exact List.mem_singleton.1 hmark
      · rw [Set.mem_ofPred_eq, List.mem_singleton] at he
        rw [he] at hbody
        cases hbody
        rfl
    rw [hm]
    exact ⟨hrow, fun hvisible => hvisible.2 hforgotten⟩
  refine forgotten_stays_hidden .permissive pairKeys (fun _ => true) inputs later "a"
    ⟨trivial, hrows, trivial, trivial⟩ "m" ?_
  exact ⟨firstForget, ⟨"a:1", happlied⟩, 5, Vector.replicate 32 8, rfl⟩

/-- A forget whose time does not fit its column is journaled and gets no row.  The
restarted node has applied it and shows the memory when it is proposed again. -/
theorem memory_resurrected_by_restart :
    let inputs : List VaultInput :=
      [.system (.node "a" (.proposeMemory "m" "tea")),
        .system (.node "a" (.forgetMemory "m" 9223372036854775808 (Vector.replicate 32 8))),
        .system (.restart "a")]
    let s := (vaultMachine .permissive pairKeys fun _ => true).run inputs
    let s' := (vaultMachine .permissive pairKeys fun _ => true).run
      (inputs ++ [.system (.node "a" (.proposeMemory "m" "tea"))])
    ((s.nodes "a").applied["a:2"]?.map JournalEvent.body) =
        some (.memoryForgotten "m" 9223372036854775808 (Vector.replicate 32 8)) ∧
      (s'.nodes "a").memories["m"]? = some "tea" := by
  decide

end

end Altior.Sync
