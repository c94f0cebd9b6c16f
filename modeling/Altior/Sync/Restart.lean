import Altior.Sync.Identity
import Mathlib.Data.List.Induction
import Mathlib.Order.MinMax

/-!
# Restarting

A restarted node replays the journal of its port and then takes the tombstones
from their own table.  This module says when that gives the node back, and when a
forgotten memory stays forgotten.
-/

namespace Altior.Sync

open Lib Crypto

/-! ## Replaying a journal -/

/-- What a journal rebuilds. -/
def replayed (es : List JournalEvent) : Replica := es.foldl Replica.absorb .empty

theorem replayed_append (es : List JournalEvent) (e : JournalEvent) :
    replayed (es ++ [e]) = (replayed es).absorb e := by
  rw [replayed, List.foldl_append]
  rfl

theorem mem_replayed {es : List JournalEvent} {id : String} :
    id ∈ (replayed es).applied ↔ ∃ e ∈ es, e.eventId = id := by
  induction es using List.reverseRecOn with
  | nil => simp [replayed, Replica.empty]
  | append_singleton es e ih =>
    rw [replayed_append, Replica.absorb_applied, Std.ExtTreeMap.mem_insert, ih]
    constructor
    · rintro (heq | ⟨x, hx, rfl⟩)
      · exact ⟨e, by simp, Table.compare_eq_iff.1 heq⟩
      · exact ⟨x, by simp [hx], rfl⟩
    · rintro ⟨x, hx, rfl⟩
      obtain hold | hnew := List.mem_append.1 hx
      · exact .inr ⟨x, hold, rfl⟩
      · rw [List.mem_singleton.1 hnew]
        exact .inl (Table.compare_eq_iff.2 rfl)

/-- A volatile node that replays a journal absorbs all of it. -/
theorem replay_replica (es : List JournalEvent) {n : SyncNode} (hport : n.port = none) :
    (es.foldl (fun n e => (n.apply e).2) n).replica = es.foldl Replica.absorb n.replica := by
  induction es generalizing n with
  | nil => rfl
  | cons e es ih =>
    obtain ⟨hreplica, hnone⟩ := SyncNode.apply_volatile e hport
    rw [List.foldl_cons, List.foldl_cons, ← hreplica]
    exact ih hnone

theorem durable_replica (keys : DeviceKeys) (label : String) (port : SyncPort) :
    (SyncNode.durable keys label port).replica =
      { replayed port.applied with tombstones := port.tombstones.map fun _ row => row.1 } := by
  have hreplay := replay_replica port.applied (n := SyncNode.new keys label none) rfl
  have hempty : (SyncNode.new keys label none).replica = .empty := rfl
  rw [hempty] at hreplay
  rw [replayed, ← hreplay]
  rfl

theorem foldl_max_spec (xs : List Nat) (a : Nat) :
    a ≤ xs.foldl Nat.max a ∧ (∀ x ∈ xs, x ≤ xs.foldl Nat.max a) ∧
      (xs.foldl Nat.max a = a ∨ xs.foldl Nat.max a ∈ xs) := by
  induction xs generalizing a with
  | nil => exact ⟨le_refl a, fun _ h => (by cases h), .inl rfl⟩
  | cons x xs ih =>
    obtain ⟨hle, hall, hmem⟩ := ih (Nat.max a x)
    rw [List.foldl_cons]
    have ha : a ≤ Nat.max a x := le_max_left a x
    have hx : x ≤ Nat.max a x := le_max_right a x
    refine ⟨ha.trans hle, fun y hy => ?_, ?_⟩
    · obtain rfl | hy := List.mem_cons.1 hy
      · exact hx.trans hle
      · exact hall y hy
    · obtain heq | hmem := hmem
      · rw [heq]
        obtain hmax | hmax : Nat.max a x = a ∨ Nat.max a x = x := max_choice a x
        · exact .inl hmax
        · rw [hmax]
          exact .inr (List.mem_cons_self ..)
      · exact .inr (List.mem_cons_of_mem x hmem)

/-- The number after the greatest one of a node's own events. -/
structure IsNext (label : String) (applied : Table String JournalEvent) (next : Nat) : Prop where
  above : ∀ (id : String) e, applied[id]? = some e → e.origin = label → e.originSeq < next
  least : next = 1 ∨ ∃ (id : String) (e : JournalEvent), applied[id]? = some e ∧ e.origin = label ∧
    e.originSeq + 1 = next

theorem IsNext.unique {label : String} {applied : Table String JournalEvent} {next next' : Nat}
    (h : IsNext label applied next) (h' : IsNext label applied next') (hpos : 1 ≤ next)
    (hpos' : 1 ≤ next') : next = next' := by
  have hle {a b : Nat} (ha : IsNext label applied a) (hb : IsNext label applied b) (hb1 : 1 ≤ b) :
      a ≤ b := by
    obtain rfl | ⟨id, e, he, horigin, rfl⟩ := ha.least
    · exact hb1
    · exact hb.above id e he horigin
  exact Nat.le_antisymm (hle h h' hpos') (hle h' h hpos)

theorem durable_nextSeq (keys : DeviceKeys) (label : String) (port : SyncPort) :
    IsNext label (SyncNode.durable keys label port).applied
        (SyncNode.durable keys label port).nextSeq ∧
      1 ≤ (SyncNode.durable keys label port).nextSeq := by
  let applied := (SyncNode.durable keys label port).applied
  let own := applied.toList.filterMap fun row =>
    if row.2.origin = label then some row.2.originSeq else none
  have hnext : (SyncNode.durable keys label port).nextSeq = own.foldl Nat.max 0 + 1 := rfl
  have hown (seq : Nat) : seq ∈ own ↔ ∃ (id : String) (e : JournalEvent), applied[id]? = some e ∧
      e.origin = label ∧ e.originSeq = seq := by
    simp only [own, List.mem_filterMap, Prod.exists, Std.ExtTreeMap.mem_toList_iff_getElem?_eq_some,
      Option.ite_none_right_eq_some, Option.some.injEq]
  obtain ⟨-, hall, hmem⟩ := foldl_max_spec own 0
  rw [hnext]
  refine ⟨⟨fun id e he horigin => ?_, ?_⟩, Nat.le_add_left 1 _⟩
  · exact Nat.lt_succ_of_le (hall _ ((hown _).2 ⟨id, e, he, horigin, rfl⟩))
  · obtain hzero | hmem := hmem
    · exact .inl (by rw [hzero])
    · obtain ⟨id, e, he, horigin, hseq⟩ := (hown _).1 hmem
      exact .inr ⟨id, e, he, horigin, by rw [hseq]⟩

/-! ## Recording -/

/-- The tombstone rows once an event is applied. -/
def entomb (rows : Table String (TombstoneMark × Nat)) (e : JournalEvent) :
    Table String (TombstoneMark × Nat) :=
  match e.body with
  | .memoryForgotten memoryId forgottenAtMillis digest =>
    rows.insert memoryId (⟨digest, e.origin, e.originSeq⟩, forgottenAtMillis)
  | _ => rows

namespace SyncPort

/-- Recording a tombstone adds its row, or fails and changes no row. -/
theorem recordTombstone_cases (p : SyncPort) (memoryId : String) (mark : TombstoneMark) (at_ : Nat) :
    (∃ error q, p.recordTombstone memoryId mark at_ = (.error error, q) ∧ q.applied = p.applied ∧
      q.tombstones = p.tombstones) ∨
    ∃ q, p.recordTombstone memoryId mark at_ = (.ok (), q) ∧ q.applied = p.applied ∧
      q.tombstones = p.tombstones.insert memoryId (mark, at_) := by
  unfold recordTombstone
  split
  · exact .inl ⟨_, p, rfl, rfl, rfl⟩
  · rcases hcall : p.call with ⟨_ | _, q⟩ <;>
      obtain ⟨-, happlied, htombstones⟩ := call_keeps hcall
    · exact .inr ⟨_, rfl, happlied, by rw [htombstones]⟩
    · exact .inl ⟨_, q, rfl, happlied, htombstones⟩

/-- Recording an event fails and records nothing, finds its id, or adds it. -/
theorem recordApplied_cases (p : SyncPort) (e : JournalEvent) :
    (∃ error q, p.recordApplied e = (.error error, q) ∧ q.applied = p.applied ∧
      q.tombstones = p.tombstones) ∨
    (∃ q, p.recordApplied e = (.ok false, q) ∧ q.applied = p.applied ∧
      q.tombstones = p.tombstones ∧ (∃ x ∈ p.applied, x.eventId = e.eventId) ∧
      e.originSeq ≤ i64Max) ∨
    ∃ q, p.recordApplied e = (.ok true, q) ∧ q.applied = p.applied ++ [e] ∧
      q.tombstones = p.tombstones ∧ (∀ x ∈ p.applied, x.eventId ≠ e.eventId) ∧
      e.originSeq ≤ i64Max := by
  unfold recordApplied
  split
  · exact .inl ⟨_, p, rfl, rfl, rfl⟩
  · rename_i hseq
    rcases hcall : p.call with ⟨_ | _, q⟩ <;>
      obtain ⟨-, happlied, htombstones⟩ := call_keeps hcall
    · dsimp only
      rw [happlied]
      split
      · rename_i hany
        obtain ⟨x, hx, hid⟩ := List.any_eq_true.1 hany
        exact .inr (.inl ⟨q, rfl, happlied, htombstones, ⟨x, hx, by simpa using hid⟩, not_lt.1 hseq⟩)
      · rename_i hany
        refine .inr (.inr ⟨_, rfl, rfl, htombstones, fun x hx hid => hany ?_, not_lt.1 hseq⟩)
        exact List.any_eq_true.2 ⟨x, hx, by simpa using hid⟩
    · exact .inl ⟨_, q, rfl, happlied, htombstones⟩

end SyncPort

variable {e : JournalEvent} {p : SyncPort}

namespace SyncNode

/-- Applying an event at a node over a port: the replica takes it and its tombstone
gets a row, or neither happens. -/
theorem apply_port {n : SyncNode} (e : JournalEvent) (hport : n.port = some p) :
    ∃ p', (n.apply e).2.port = some p' ∧ p'.applied = p.applied ∧
      ((n.apply e).1.isOk = true ∧ p'.tombstones = entomb p.tombstones e ∧
          (n.apply e).2.replica = n.replica.absorb e ∨
        (n.apply e).1.isOk = false ∧ p'.tombstones = p.tombstones ∧
          (n.apply e).2.replica = n.replica) := by
  unfold apply entomb Replica.absorb
  cases e.body with
  | memoryForgotten memoryId at_ digest =>
    simp only [applyForget, hport]
    obtain ⟨error, q, hrecord, happlied, hrows⟩ | ⟨q, hrecord, happlied, hrows⟩ :=
      p.recordTombstone_cases memoryId ⟨digest, e.origin, e.originSeq⟩ at_ <;> rw [hrecord]
    · exact ⟨q, rfl, happlied, .inr ⟨rfl, hrows, rfl⟩⟩
    · exact ⟨q, rfl, happlied, .inl ⟨rfl, hrows, rfl⟩⟩
  | memoryProposed memoryId content =>
    have hmem : (memoryId ∈ n.replica.tombstones) = (memoryId ∈ n.tombstones) := rfl
    simp only [hmem]
    split <;> exact ⟨p, hport, rfl, .inl ⟨rfl, rfl, rfl⟩⟩
  | documentAppend docId entry => exact ⟨p, hport, rfl, .inl ⟨rfl, rfl, rfl⟩⟩
  | ack frontiers => exact ⟨p, hport, rfl, .inl ⟨rfl, rfl, rfl⟩⟩
  | blobAdded blobId totalSize entries => exact ⟨p, hport, rfl, .inl ⟨rfl, rfl, rfl⟩⟩

/-- Admitting an event at a node over a port: nothing is recorded; or the event is,
and its tombstone is written or is not. -/
theorem admitEvent_port {n : SyncNode} (hfresh : e.eventId ∉ n.applied) (hport : n.port = some p) :
    ∃ p', (n.admitEvent e).2.port = some p' ∧
      (p'.applied = p.applied ∧ (∃ x ∈ p.applied, x.eventId = e.eventId) ∧
          e.originSeq ≤ i64Max ∨
        p'.applied = p.applied ++ [e] ∧ (∀ x ∈ p.applied, x.eventId ≠ e.eventId) ∧
          e.originSeq ≤ i64Max ∨
        p'.applied = p.applied ∧ (n.admitEvent e).1.isOk = false ∧
          (n.admitEvent e).2.replica = n.replica) ∧
      ((n.admitEvent e).1.isOk = true ∧ p'.tombstones = entomb p.tombstones e ∧
          (n.admitEvent e).2.replica = n.replica.absorb e ∨
        (n.admitEvent e).1.isOk = false ∧ p'.tombstones = p.tombstones ∧
          (n.admitEvent e).2.replica = n.replica) := by
  simp only [admitEvent, hfresh, if_false, hport]
  obtain ⟨error, q, hrecord, happlied, hrows⟩ | ⟨q, hrecord, happlied, hrows, hknown⟩ |
      ⟨q, hrecord, happlied, hrows, hnew⟩ := p.recordApplied_cases e <;> simp only [hrecord]
  · exact ⟨q, rfl, .inr (.inr ⟨happlied, rfl, rfl⟩), .inr ⟨rfl, hrows, rfl⟩⟩
  · obtain ⟨p', hp', hjournal, hresult⟩ := apply_port (n := { n with port := some q }) e rfl
    rw [hrows] at hresult
    exact ⟨p', hp', .inl ⟨hjournal.trans happlied, hknown⟩, hresult⟩
  · obtain ⟨p', hp', hjournal, hresult⟩ := apply_port (n := { n with port := some q }) e rfl
    rw [hrows] at hresult
    exact ⟨p', hp', .inr (.inl ⟨hjournal.trans happlied, hnew⟩), hresult⟩

/-- Admitting a fresh event: the replica takes it or stays. -/
theorem admitEvent_replica (n : SyncNode) (hfresh : e.eventId ∉ n.applied) :
    (n.admitEvent e).2.replica = n.replica ∨
      (n.admitEvent e).2.replica = n.replica.absorb e := by
  cases hport : n.port with
  | none =>
    have happly : n.admitEvent e = n.apply e := by
      simp only [admitEvent, hfresh, if_false, hport]
    rw [happly]
    exact .inr (apply_volatile e hport).1
  | some p =>
    obtain ⟨p', -, -, ⟨-, -, habsorb⟩ | ⟨-, -, hsame⟩⟩ := admitEvent_port hfresh hport
    · exact .inr habsorb
    · exact .inl hsame

end SyncNode

/-! ## The node and its port -/

/-- The port holds what the node has: its journal rebuilds the replica, and its rows
are the tombstones. -/
structure SyncNode.Mirrored (n : SyncNode) (p : SyncPort) : Prop where
  replica : n.replica = replayed p.applied
  rows : ∀ memoryId : String, n.tombstones[memoryId]? = p.tombstones[memoryId]?.map Prod.fst

/-- Admitting a fresh event with success keeps the port in step. -/
theorem SyncNode.Mirrored.admitEvent {n : SyncNode} (h : n.Mirrored p) (hport : n.port = some p)
    (hfresh : e.eventId ∉ n.applied) (hok : (n.admitEvent e).1.isOk) :
    ∃ p', (n.admitEvent e).2.port = some p' ∧ (n.admitEvent e).2.Mirrored p' ∧
      (n.admitEvent e).2.applied = n.applied.insert e.eventId e := by
  have hnone : ¬ ∃ x ∈ p.applied, x.eventId = e.eventId := by
    rw [← mem_replayed, ← h.replica]
    exact hfresh
  obtain ⟨p', hp', hjournal, ⟨-, hrows, hreplica⟩ | ⟨hbad, -⟩⟩ := admitEvent_port hfresh hport
  · refine ⟨p', hp', ⟨?_, fun memoryId => ?_⟩, ?_⟩
    · obtain ⟨-, hknown, -⟩ | ⟨happlied, -⟩ | ⟨-, hbad, -⟩ := hjournal
      · exact absurd hknown hnone
      · rw [happlied, replayed_append, ← h.replica, hreplica]
      · rw [hok] at hbad
        cases hbad
    · have hmarks : (n.admitEvent e).2.tombstones[memoryId]? =
          (n.replica.absorb e).tombstones[memoryId]? := by
        rw [← hreplica]
        rfl
      have hold := h.rows memoryId
      rw [hmarks, hrows]
      unfold Replica.absorb entomb
      cases e.body with
      | memoryForgotten forgotten at_ digest =>
        simp only [Table.getElem?_insert_eq]
        split
        · rfl
        · exact hold
      | memoryProposed proposed content =>
        dsimp only
        split <;> exact hold
      | documentAppend docId entry => exact hold
      | ack frontiers => exact hold
      | blobAdded blobId totalSize entries => exact hold
    · have happlied := congrArg Replica.applied hreplica
      rwa [Replica.absorb_applied] at happlied
  · rw [hok] at hbad
    cases hbad

/-- The node mirrors its port, if it has one, and numbers its events after those it
has applied. -/
structure SyncNode.InStep (n : SyncNode) : Prop where
  mirrored : ∀ p, n.port = some p → n.Mirrored p
  next : ∀ p, n.port = some p → IsNext n.label n.applied n.nextSeq
  pos : 1 ≤ n.nextSeq

namespace SyncNode.InStep

variable {n : SyncNode}

/-- Being in step is a matter of the replica, the next number, the journal and the
rows. -/
theorem same {n' : SyncNode} (h : n.InStep) (hlabel : n'.label = n.label)
    (hreplica : n'.replica = n.replica) (hnext : n'.nextSeq = n.nextSeq)
    (hport : ∀ p', n'.port = some p' →
      ∃ p, n.port = some p ∧ p'.applied = p.applied ∧ p'.tombstones = p.tombstones) : n'.InStep := by
  have happlied : n'.applied = n.applied := congrArg Replica.applied hreplica
  have htombstones : n'.tombstones = n.tombstones := congrArg Replica.tombstones hreplica
  refine ⟨fun p' hp' => ?_, fun p' hp' => ?_, hnext ▸ h.pos⟩
  · obtain ⟨p, hp, hjournal, hrows⟩ := hport p' hp'
    have hmirrored := h.mirrored p hp
    refine ⟨?_, fun memoryId => ?_⟩
    · rw [hreplica, hjournal, hmirrored.replica]
    · rw [htombstones, hrows, hmirrored.rows]
  · obtain ⟨p, hp, -⟩ := hport p' hp'
    rw [hlabel, happlied, hnext]
    exact h.next p hp

/-- A node in step with its port is what a restart gives back. -/
theorem restored (h : n.InStep) (hport : n.port = some p) :
    (durable n.keys n.label p).replica = n.replica ∧
      (durable n.keys n.label p).nextSeq = n.nextSeq := by
  have hmirrored := h.mirrored p hport
  have hrows : (p.tombstones.map fun _ row => row.1) = n.tombstones := by
    refine Std.ExtTreeMap.ext_getElem? fun memoryId => ?_
    rw [hmirrored.rows, Std.ExtTreeMap.getElem?_map]
  have hreplica : (durable n.keys n.label p).replica = n.replica := by
    rw [durable_replica, hrows, ← hmirrored.replica]
    rfl
  refine ⟨hreplica, ?_⟩
  obtain ⟨hnext, hpos⟩ := durable_nextSeq n.keys n.label p
  have happlied : (durable n.keys n.label p).applied = n.applied :=
    congrArg Replica.applied hreplica
  rw [happlied] at hnext
  exact hnext.unique (h.next p hport) hpos h.pos

/-- A received event that does not claim one of the node's numbers to come. -/
theorem receive (h : n.InStep) (hfresh : e.eventId ∉ n.applied)
    (hown : e.origin = n.label → e.originSeq < n.nextSeq) (hok : (n.admitEvent e).1.isOk) :
    (n.admitEvent e).2.InStep := by
  have hlearns := n.admitEvent_learns e
  have hports (p' : SyncPort) (hp' : (n.admitEvent e).2.port = some p') :
      ∃ p, n.port = some p ∧ (n.admitEvent e).2.Mirrored p' ∧
        (n.admitEvent e).2.applied = n.applied.insert e.eventId e := by
    obtain ⟨-, hnone⟩ | ⟨p, _, hp, -⟩ := hlearns.port
    · rw [hnone] at hp'
      cases hp'
    · obtain ⟨q, hq, hmirrored, happlied⟩ := (h.mirrored p hp).admitEvent hp hfresh hok
      rw [hq] at hp'
      cases hp'
      exact ⟨p, hp, hmirrored, happlied⟩
  refine ⟨fun p' hp' => ?_, fun p' hp' => ?_, hlearns.nextSeq ▸ h.pos⟩
  · obtain ⟨_, -, hmirrored, -⟩ := hports p' hp'
    exact hmirrored
  · obtain ⟨p, hp, -, happlied⟩ := hports p' hp'
    rw [hlearns.label, hlearns.nextSeq, happlied]
    refine ⟨fun id x hx horigin => ?_, ?_⟩
    · rw [Table.getElem?_insert_eq] at hx
      split at hx
      · cases hx
        exact hown horigin
      · exact (h.next p hp).above id x hx horigin
    · obtain hone | ⟨id, x, hx, horigin, hseq⟩ := (h.next p hp).least
      · exact .inl hone
      · refine .inr ⟨id, x, ?_, horigin, hseq⟩
        rw [Table.getElem?_insert_of_ne]
        · exact hx
        · rintro rfl
          exact hfresh (Table.mem_iff.2 ⟨x, hx⟩)

variable [Primitives] [SyncCodec]

/-- A created event whose id is not taken. -/
theorem createAdmit (h : n.InStep) (body : EventBody)
    (hfree : qualifiedId n.label n.nextSeq ∉ n.applied) (hok : (n.createAdmit body).1.isOk) :
    (n.createAdmit body).2.InStep := by
  obtain ⟨heq, hisOk⟩ := n.createAdmit_eq body
  rw [hisOk] at hok
  rw [heq]
  have hlearns := (n.create body).2.admitEvent_learns (n.create body).1
  have hports (p' : SyncPort)
      (hp' : ((n.create body).2.admitEvent (n.create body).1).2.port = some p') :
      ∃ p, n.port = some p ∧ ((n.create body).2.admitEvent (n.create body).1).2.Mirrored p' ∧
        ((n.create body).2.admitEvent (n.create body).1).2.applied =
          n.applied.insert (n.create body).1.eventId (n.create body).1 := by
    obtain ⟨-, hnone⟩ | ⟨p, _, hp, -⟩ := hlearns.port
    · rw [hnone] at hp'
      cases hp'
    · have hcreated : (n.create body).2.Mirrored p :=
        ⟨(h.mirrored p hp).replica, (h.mirrored p hp).rows⟩
      have hfresh : (n.create body).1.eventId ∉ (n.create body).2.applied := hfree
      obtain ⟨q, hq, hmirrored, happlied⟩ := hcreated.admitEvent hp hfresh hok
      rw [hq] at hp'
      cases hp'
      exact ⟨p, hp, hmirrored, happlied⟩
  refine ⟨fun p' hp' => ?_, fun p' hp' => ?_, hlearns.nextSeq ▸ Nat.le_add_left 1 _⟩
  · obtain ⟨_, -, hmirrored, -⟩ := hports p' hp'
    exact hmirrored
  · obtain ⟨p, hp, -, happlied⟩ := hports p' hp'
    rw [hlearns.label, hlearns.nextSeq, happlied]
    refine ⟨fun id x hx horigin => ?_, .inr ⟨_, _, Table.getElem?_insert_same .., rfl, rfl⟩⟩
    rw [Table.getElem?_insert_eq] at hx
    split at hx
    · cases hx
      exact Nat.lt_succ_self n.nextSeq
    · exact Nat.lt_succ_of_lt ((h.next p hp).above id x hx horigin)

end SyncNode.InStep

/-! ## Mail -/

section

variable [Primitives] [SyncCodec]

/-- An event that an envelope in one of the peers' buckets opens to. -/
def Link.Mail (l : Link) (wire : WireEvent) : Prop :=
  ∃ peer ∈ l.node.peers, ∃ item ∈ l.relay.queue (bucketFor l.node.label peer),
    ∃ session plain session', SessionV2.openEnvelope session item.2 = (.ok plain, session') ∧
      SyncCodec.fromSlice plain = some (.event wire)

variable {C : Prop} {l l' : Link}

theorem Link.Genuine.mail {peer : String} (h : l.Genuine peer e) : l.Mail e.toWire := by
  obtain ⟨channels, hpeer, -⟩ := h.signed
  exact ⟨peer, Table.mem_iff.2 ⟨channels, hpeer⟩, h.queued⟩

theorem Link.Reads.peers (h : l.Reads C l') (peer : String) :
    peer ∈ l'.node.peers ↔ peer ∈ l.node.peers := by
  cases h with
  | @channels known channels channels' hpeer _ _ =>
    rw [Std.ExtTreeMap.mem_insert]
    refine ⟨?_, .inr⟩
    rintro (heq | hmem)
    · rw [← Table.compare_eq_iff.1 heq]
      exact Table.mem_iff.2 ⟨channels, hpeer⟩
    · exact hmem
  | admitEvent => rw [(SyncNode.admitEvent_learns _ _).peers]
  | _ => rfl

theorem Link.Reads.nextSeq (h : l.Reads C l') : l'.node.nextSeq = l.node.nextSeq := by
  cases h with
  | admitEvent => exact (SyncNode.admitEvent_learns _ _).nextSeq
  | _ => rfl

/-- Reading brings no new mail. -/
theorem Link.Reads.mail (h : l.Reads C l') (wire : WireEvent) : l'.Mail wire ↔ l.Mail wire := by
  unfold Link.Mail
  simp only [h.peers, h.queue, h.label]

/-- No mail claims a number of the node's own to come. -/
def Link.OwnNumbers (l : Link) : Prop :=
  ∀ wire, l.Mail wire → wire.origin = l.node.label → wire.originSeq < l.node.nextSeq

/-- Neither an applied event nor mail has the id of the node's next own event. -/
def Link.NextFree (l : Link) : Prop :=
  qualifiedId l.node.label l.node.nextSeq ∉ l.node.applied ∧
    ∀ wire, l.Mail wire → wire.eventId ≠ qualifiedId l.node.label l.node.nextSeq

theorem Link.OwnNumbers.reads (h : l.OwnNumbers) (hmove : l.Reads C l') : l'.OwnNumbers := by
  intro wire hwire horigin
  rw [hmove.mail] at hwire
  rw [hmove.label] at horigin
  rw [hmove.nextSeq]
  exact h wire hwire horigin

theorem Link.NextFree.reads (h : l.NextFree) (hmove : l.Reads C l') : l'.NextFree := by
  have hmail (wire : WireEvent) (hwire : l'.Mail wire) :
      wire.eventId ≠ qualifiedId l.node.label l.node.nextSeq :=
    h.2 wire ((hmove.mail wire).1 hwire)
  refine ⟨?_, ?_⟩ <;> rw [hmove.label, hmove.nextSeq]
  · cases hmove with
    | @admitEvent peer e hgenuine _ _ =>
      intro hmem
      obtain ⟨x, hx⟩ := Table.mem_iff.1 hmem
      obtain hold | ⟨hid, rfl⟩ := (l.node.admitEvent_learns e).applied_cases hx
      · exact h.1 (Table.mem_iff.2 ⟨x, hold⟩)
      · exact h.2 _ hgenuine.mail hid.symm
    | _ => exact h.1
  · exact hmail

/-- A node in step, with the mail it may read. -/
structure Link.InStep (l : Link) : Prop where
  node : l.node.InStep
  own : l.OwnNumbers

theorem Link.InStep.reads (h : l.InStep) (hmove : l.Reads True l') : l'.InStep := by
  refine ⟨?_, h.own.reads hmove⟩
  cases hmove with
  | admitEvent hgenuine hfresh hok =>
    exact h.node.receive hfresh (fun horigin => h.own _ hgenuine.mail horigin) (hok trivial)
  | @cursor port peer cursor hport =>
    refine h.node.same rfl rfl rfl ?_
    rintro _ ⟨⟩
    exact ⟨port, hport, port.recordFetchCursor_keeps peer cursor⟩
  | relay hsame => exact h.node
  | channels hpeer hidentity houtbound =>
    exact h.node.same rfl rfl rfl fun p hp => ⟨p, hp, rfl, rfl⟩
  | blobs hingest => exact h.node.same rfl rfl rfl fun p hp => ⟨p, hp, rfl, rfl⟩

theorem SyncNode.InStep.writes (h : l.node.InStep) (hmove : l.Writes l') : l'.node.InStep := by
  cases hmove with
  | relay hsame => exact h
  | outbound hpeer outbound => exact h.same rfl rfl rfl fun p hp => ⟨p, hp, rfl, rfl⟩
  | push hfans hpush =>
    obtain ⟨channels, envelope, outbound, outcome, relay, -, -, -, rfl⟩ := Link.sealAndPush_ok hpush
    exact h.same rfl rfl rfl fun p hp => ⟨p, hp, rfl, rfl⟩

theorem Link.InStep.flush (h : l.InStep) (hfree : l.NextFree) (seed : Bytes32)
    (hok : (l.flush seed).1.isOk) : (l.flush seed).2.node.InStep := by
  obtain ⟨polled, -, hreads, hfail | ⟨hack, hwrites⟩⟩ := l.flush_moves (C := True) seed fun _ => hok
  · rw [hfail]
    exact (Link.invariant_of_moves (I := Link.InStep) (fun _ _ hl hmove => hl.reads hmove) h
      hreads).node
  · have hpolled := Link.invariant_of_moves (I := Link.InStep)
      (fun _ _ hl hmove => hl.reads hmove) h hreads
    have hnext := Link.invariant_of_moves (I := Link.NextFree)
      (fun _ _ hl hmove => hl.reads hmove) hfree hreads
    exact Link.invariant_of_moves (I := fun l => l.node.InStep)
      (fun _ _ hl hmove => hl.writes hmove)
      (hpolled.node.createAdmit (.ack polled.node.appliedFrontier) hnext.1 (hack trivial)) hwrites

/-! ## Restart equivalence -/

/-- Every call of the node returns `Ok`. -/
def CallsOk (label : String) (s : System) : VaultInput → Prop
  | .system (.node x input) => x = label → input.succeeds (s.nodes label) = true
  | .system (.poll x) => x = label → (s.link label).poll.1.isOk = true
  | .system (.flush x seed) => x = label → ((s.link label).flush seed).1.isOk = true
  | _ => True

/-- Nobody claims the node's own numbers: what it creates has an id that is free,
and what it reads names it as the origin of old numbers only.  No row of its
tombstones is compacted away. -/
def NumbersOwn (label : String) (s : System) : VaultInput → Prop
  | .system (.node x input) => x = label → input.creates (s.nodes label) = true →
      qualifiedId (s.nodes label).label (s.nodes label).nextSeq ∉ (s.nodes label).applied
  | .system (.poll x) => x = label → (s.link label).OwnNumbers
  | .system (.flush x _) => x = label → (s.link label).OwnNumbers ∧ (s.link label).NextFree
  | .compactTombstones x => x = label → ∀ port, (s.nodes label).port = some port →
      (port.compactTombstones (s.nodes label).gcFrontiers.toList).tombstones = port.tombstones
  | _ => True

theorem SyncNode.InStep.nodeStep {n : SyncNode} (h : n.InStep) {i : NodeInput}
    (hlocal : ∀ e, i ≠ .receive e) (hok : i.succeeds n = true)
    (hfree : i.creates n = true → qualifiedId n.label n.nextSeq ∉ n.applied) :
    (nodeStep n i).InStep := by
  obtain ⟨count, heq⟩ | ⟨faults, heq⟩ | ⟨blobs, body, -, -, heq, hcreates, hsucceeds⟩ :=
    nodeStep_local n i hlocal <;> rw [heq]
  · exact h.same rfl rfl rfl fun p hp => ⟨p, hp, rfl, rfl⟩
  · refine h.same rfl rfl rfl fun p' hp' => ?_
    obtain ⟨p, hp, rfl⟩ := Option.map_eq_some_iff.1 hp'
    exact ⟨p, hp, rfl, rfl⟩
  · have hblobs : ({ n with blobs := blobs } : SyncNode).InStep :=
      h.same rfl rfl rfl fun p hp => ⟨p, hp, rfl, rfl⟩
    exact hblobs.createAdmit body (hfree hcreates) (hsucceeds ▸ hok)

omit [Primitives] [SyncCodec] in
/-- A restarted node is in step with its port, if the node it replaces was. -/
theorem SyncNode.InStep.restart {n : SyncNode} (h : n.InStep) {port : SyncPort}
    (hport : n.port = some port) : (durable n.keys n.label port).InStep := by
  obtain ⟨hreplica, hnext⟩ := h.restored hport
  refine h.same (durable_frame n.keys n.label port).1 hreplica hnext ?_
  rintro _ ⟨⟩
  exact ⟨port, hport, rfl, rfl⟩

theorem inStep_vaultStep {label : String} {s : System}
    (h : (s.nodes label).label = label ∧ (s.nodes label).InStep) (i : VaultInput)
    (hok : CallsOk label s i ∧ NumbersOwn label s i) :
    ((vaultStep s i).nodes label).label = label ∧ ((vaultStep s i).nodes label).InStep := by
  obtain ⟨hlabel, hstep⟩ := h
  have hmoves := vaultStep_moves s i label
  generalize (vaultStep s i).nodes label = n' at hmoves ⊢
  cases hmoves with
  | stay => exact ⟨hlabel, hstep⟩
  | @step input hlocal =>
    have hext := nodeStep_extends (s.nodes label) input
    exact ⟨hext.label.trans hlabel, hstep.nodeStep hlocal (hok.1 rfl) (hok.2 rfl)⟩
  | poll =>
    have hlink : (s.link label).InStep := ⟨hstep, hok.2 rfl⟩
    have hreads := (s.link label).poll_moves (C := True) fun _ => hok.1 rfl
    exact ⟨(Link.sameMail_of_reads hreads).label.trans hlabel,
      (Link.invariant_of_moves (fun _ _ hl hmove => hl.reads hmove) hlink hreads).node⟩
  | flush seed =>
    obtain ⟨hown, hfree⟩ := hok.2 rfl
    have hlink : (s.link label).InStep := ⟨hstep, hown⟩
    exact ⟨((s.link label).flush_label seed).trans hlabel,
      hlink.flush hfree seed (hok.1 rfl)⟩
  | restart hport =>
    have hrestart := hstep.restart hport
    rw [hlabel] at hrestart
    exact ⟨(durable_frame ..).1, hrestart⟩
  | pair hidentity =>
    exact ⟨hlabel, hstep.same rfl rfl rfl fun p hp => ⟨p, hp, rfl, rfl⟩⟩
  | compact =>
    refine ⟨hlabel, hstep.same rfl rfl rfl fun p' hp' => ?_⟩
    obtain ⟨p, hp, rfl⟩ := Option.map_eq_some_iff.1 hp'
    exact ⟨p, hp, (p.compactTombstones_keeps _).1, hok.2 rfl p hp⟩

omit [Primitives] [SyncCodec] in
theorem inStep_new (keys : DeviceKeys) (label : String) (isDurable : Bool) :
    (SyncNode.new keys label (if isDurable then some .empty else none)).InStep := by
  refine ⟨fun p hp => ?_, fun p hp => ⟨fun id e he => ?_, .inl rfl⟩, le_refl 1⟩
  · simp only [SyncNode.new] at hp
    split at hp <;> cases hp
    exact ⟨rfl, fun memoryId => by simp [SyncNode.new, SyncPort.empty]⟩
  · simp [SyncNode.new] at he

/-- **Restart equivalence.**  In every run of the vault in which each call of a
durable node returned `Ok` and nobody claimed the node's own numbers, a restart over
the node's port gives back its applied events, memories, tombstones, documents and
acknowledgements, and its next number. -/
theorem durable_restores (policy : RelayPolicy) (keys : String → DeviceKeys)
    (isDurable : String → Bool) (inputs : List VaultInput) (label : String)
    (hok : (vaultMachine policy keys isDurable).Meets
      (fun s i => CallsOk label s i ∧ NumbersOwn label s i)
      (vaultMachine policy keys isDurable).init inputs)
    (port : SyncPort)
    (hport : (((vaultMachine policy keys isDurable).run inputs).nodes label).port = some port) :
    let n := ((vaultMachine policy keys isDurable).run inputs).nodes label
    (SyncNode.durable n.keys label port).replica = n.replica ∧
      (SyncNode.durable n.keys label port).nextSeq = n.nextSeq := by
  have hrun : (((vaultMachine policy keys isDurable).run inputs).nodes label).label = label ∧
      (((vaultMachine policy keys isDurable).run inputs).nodes label).InStep :=
    Machine.invariant_of_meets _
      (I := fun s : System => (s.nodes label).label = label ∧ (s.nodes label).InStep)
      (fun s i h hok => inStep_vaultStep h i hok) ⟨rfl, inStep_new (keys label) label _⟩ hok
  obtain ⟨hlabel, hstep⟩ := hrun
  have hrestored := hstep.restored hport
  rw [hlabel] at hrestored
  exact hrestored

end

section

attribute [local instance] idealPrimitives idealSyncCodec

/-- A memory proposed, sent and forgotten. -/
def forgetting : List VaultInput :=
  [.system (pairing 1 1), .system (.node "a" (.proposeMemory "m" "tea")),
    .system (.flush "a" (Vector.replicate 32 9)),
    .system (.node "a" (.forgetMemory "m" 5 (Vector.replicate 32 8)))]

theorem durable_restores_forgetting :
    (vaultMachine .permissive pairKeys fun _ => true).Meets
        (fun s i => CallsOk "a" s i ∧ NumbersOwn "a" s i)
        (vaultMachine .permissive pairKeys fun _ => true).init forgetting ∧
      ∃ port, (((vaultMachine .permissive pairKeys fun _ => true).run forgetting).nodes "a").port =
          some port ∧ port.applied.length = 3 ∧
        (SyncNode.durable (pairKeys "a") "a" port).replica =
          (((vaultMachine .permissive pairKeys fun _ => true).run forgetting).nodes "a").replica := by
  have hkeys : (((vaultMachine .permissive pairKeys fun _ => true).run forgetting).nodes "a").keys =
      pairKeys "a" := by
    decide +kernel
  let s := (vaultMachine .permissive pairKeys fun _ => true).run (forgetting.take 2)
  have hmail (wire : WireEvent) : ¬ (s.link "a").Mail wire := by
    rintro ⟨peer, hpeer, item, hitem, -⟩
    have hempty : ∀ peer ∈ (s.link "a").node.peers.keys,
        (s.link "a").relay.queue (bucketFor (s.link "a").node.label peer) = [] := by
      decide +kernel
    rw [hempty peer (Std.ExtTreeMap.mem_keys.2 hpeer)] at hitem
    cases hitem
  have hmeets : (vaultMachine .permissive pairKeys fun _ => true).Meets
      (fun s i => CallsOk "a" s i ∧ NumbersOwn "a" s i)
      (vaultMachine .permissive pairKeys fun _ => true).init forgetting := by
    refine ⟨⟨trivial, trivial⟩, ⟨fun _ => by decide +kernel, fun _ _ => by decide +kernel⟩,
      ⟨fun _ => by decide +kernel, fun _ => ⟨fun wire hwire => absurd hwire (hmail wire),
        by decide +kernel, fun wire hwire => absurd hwire (hmail wire)⟩⟩,
      ⟨fun _ => by decide +kernel, fun _ _ => by decide +kernel⟩, trivial⟩
  have hport : ∃ port, (((vaultMachine .permissive pairKeys fun _ => true).run forgetting).nodes
      "a").port = some port ∧ port.applied.length = 3 :=
    ⟨_, Option.some_get (by decide +kernel) |>.symm, by decide +kernel⟩
  obtain ⟨port, hport, hlength⟩ := hport
  have hrestored := (durable_restores .permissive pairKeys (fun _ => true) forgetting "a" hmeets
    port hport).1
  rw [hkeys] at hrestored
  exact ⟨hmeets, port, hport, hlength, hrestored⟩

/-- A peer's event takes the id of the node's first own event.  Every call returns
`Ok`, and yet the restarted node numbers its events from another number on. -/
theorem durable_renumbers :
    let s := (vaultMachine .permissive pairKeys fun _ => true).run
      (mailFromB "a:1" ++ [.system (.node "a" (.appendDocument "d" "from a"))])
    let polled := (vaultMachine .permissive pairKeys fun _ => true).run (mailFromB "a:1")
    let asked := (vaultMachine .permissive pairKeys fun _ => true).run ((mailFromB "a:1").take 2)
    (asked.link "a").poll.1.isOk = true ∧
      ((polled.nodes "a").appendDocument "d" "from a").1.isOk = true ∧
      (s.nodes "a").nextSeq = 2 ∧
      ((s.nodes "a").port.map fun port =>
        (SyncNode.durable (pairKeys "a") "a" port).nextSeq) = some 1 := by
  decide +kernel

end

end Altior.Sync
