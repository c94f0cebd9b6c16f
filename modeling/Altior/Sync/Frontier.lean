import Altior.Sync.Outbox

/-!
# Acknowledged frontiers

A node acknowledges, per origin, the greatest number it has applied; the
compaction gate reads an acknowledgement as if everything below that number had
been applied too.  This module says when that reading is right.
-/

namespace Altior.Sync

open Lib Crypto

/-! ## What a node keeps -/

/-- The node has the event: applied, waiting to be sent, or recorded. -/
def SyncNode.Keeps (n : SyncNode) (e : JournalEvent) : Prop :=
  (∃ id : String, n.applied[id]? = some e) ∨ e ∈ n.outbox ∨ ∃ p, n.port = some p ∧ e ∈ p.applied

/-- The event was pushed to some bucket. -/
def Travelled (pushed : List Pushed) (e : JournalEvent) : Prop :=
  ∃ record ∈ pushed, record.event = e

/-- Every entry of the ledger of acknowledgements is one of the events' frontiers. -/
def Replica.Acked (E : Set JournalEvent) (r : Replica) : Prop :=
  ∀ peer origin v, r.acked peer origin = some v → v ∈ ackedFrontiers E peer origin

/-- What a node keeps is its own or was pushed to somebody, what it has applied is
recorded, and its ledger of acknowledgements is made of applied ones. -/
structure SyncNode.Truthful (pushed : List Pushed) (label : String) (n : SyncNode) : Prop where
  named : n.label = label
  pos : 1 ≤ n.nextSeq
  keyed : ∀ (id : String) e, n.applied[id]? = some e → id = e.eventId
  kept : ∀ e, n.Keeps e → e.origin = label ∨ Travelled pushed e
  recorded : ∀ p, n.port = some p → ∀ (id : String) e, n.applied[id]? = some e → e ∈ p.applied
  acked : n.replica.Acked n.replica.events

/-- The nodes have the same label, numbers, replica, outbox and journal. -/
structure SyncNode.SameKeeping (n n' : SyncNode) : Prop where
  label : n'.label = n.label
  nextSeq : n'.nextSeq = n.nextSeq
  replica : n'.replica = n.replica
  outbox : n'.outbox = n.outbox
  journal : ∀ p', n'.port = some p' → ∃ p, n.port = some p ∧ p'.applied = p.applied

theorem SyncNode.SameKeeping.applied {n n' : SyncNode} (h : n.SameKeeping n') :
    n'.applied = n.applied := congrArg Replica.applied h.replica

variable {e : JournalEvent}

theorem SyncNode.Keeps.same {n n' : SyncNode} (hsame : n.SameKeeping n') (h : n'.Keeps e) :
    n.Keeps e := by
  obtain ⟨id, hid⟩ | hout | ⟨p', hp', hmem⟩ := h
  · exact .inl ⟨id, hsame.applied ▸ hid⟩
  · exact .inr (.inl (hsame.outbox ▸ hout))
  · obtain ⟨p, hp, hjournal⟩ := hsame.journal p' hp'
    exact .inr (.inr ⟨p, hp, hjournal ▸ hmem⟩)

theorem SyncNode.Keeps.learns {n n' : SyncNode} {x : JournalEvent} (hlearns : n.Learns e n')
    (h : n'.Keeps x) : n.Keeps x ∨ x = e := by
  obtain ⟨id, hx⟩ | hx | ⟨p', hp', hx⟩ := h
  · exact (hlearns.applied_cases hx).imp (fun hold => .inl ⟨id, hold⟩) fun hnew => hnew.2
  · rw [hlearns.outbox] at hx
    exact .inl (.inr (.inl hx))
  · exact (hlearns.journal_cases hp' hx).imp_left fun hold => .inr (.inr hold)

theorem Travelled.mono {pushed pushed' : List Pushed} (h : Travelled pushed e)
    (hsub : pushed ⊆ pushed') : Travelled pushed' e := by
  obtain ⟨record, hrecord, hevent⟩ := h
  exact ⟨record, hsub hrecord, hevent⟩

theorem Replica.Acked.absorb {E : Set JournalEvent} {r : Replica} (h : r.Acked E)
    (e : JournalEvent) : (r.absorb e).Acked (insert e E) := by
  intro peer origin v hv
  rw [mem_ackedFrontiers_insert]
  rw [acked_absorb] at hv
  split at hv
  · rename_i frontiers hbody
    split at hv
    · rename_i hpeer
      cases hseq : frontiers[origin]? with
      | none =>
        rw [hseq] at hv
        exact .inr (h peer origin v hv)
      | some seq =>
        simp only [hseq, Option.elim_some, Option.some.injEq] at hv
        obtain hmax | hmax := max_choice ((r.acked peer origin).getD 0) seq
        · cases hold : r.acked peer origin with
          | none =>
            have hzero : seq = v := by
              rw [hold, Option.getD_none] at hv
              exact (Nat.zero_max seq).symm.trans hv
            exact .inl ⟨hpeer, frontiers, hbody, by rw [hseq, hzero]⟩
          | some old =>
            rw [hmax, hold, Option.getD_some] at hv
            exact .inr (h peer origin v (by rw [hold, hv]))
        · rw [hmax] at hv
          exact .inl ⟨hpeer, frontiers, hbody, by rw [hseq, hv]⟩
    · exact .inr (h peer origin v hv)
  · exact .inr (h peer origin v hv)

theorem replayed_acked (es : List JournalEvent) : (replayed es).Acked {e | e ∈ es} := by
  induction es using List.reverseRecOn with
  | nil =>
    intro peer origin v hv
    simp [replayed, Replica.empty, Replica.acked] at hv
  | append_singleton es e ih =>
    have hset : {x | x ∈ es ++ [e]} = insert e {x | x ∈ es} := by
      ext x
      simp [or_comm]
    rw [replayed_append, hset]
    exact ih.absorb e

namespace SyncNode.Truthful

variable {pushed pushed' : List Pushed} {label : String} {n n' : SyncNode}

theorem mono (h : n.Truthful pushed label) (hsub : pushed ⊆ pushed') : n.Truthful pushed' label :=
  { h with kept := fun e he => (h.kept e he).imp_right fun htravelled => htravelled.mono hsub }

/-- What else a node does is no matter here. -/
theorem same (h : n.Truthful pushed label) (hsame : n.SameKeeping n') :
    n'.Truthful pushed label := by
  refine ⟨hsame.label.trans h.named, hsame.nextSeq ▸ h.pos, ?_, fun e he => h.kept e (he.same hsame),
    fun p' hp' id e he => ?_, hsame.replica ▸ h.acked⟩
  · rw [hsame.applied]
    exact h.keyed
  · obtain ⟨p, hp, hjournal⟩ := hsame.journal p' hp'
    rw [hjournal]
    exact h.recorded p hp id e (hsame.applied ▸ he)

/-- Admitting an event that no other stands in for. -/
theorem admitEvent (h : n.Truthful pushed label) (hsource : e.origin = label ∨ Travelled pushed e)
    (hunique : ∀ x, n.Keeps x → x.eventId = e.eventId → x = e) :
    (n.admitEvent e).2.Truthful pushed label := by
  by_cases hfresh : e.eventId ∈ n.applied
  · have hsame : n.admitEvent e = (.ok (), n) := if_pos hfresh
    rw [hsame]
    exact h
  have hlearns := n.admitEvent_learns e
  refine ⟨hlearns.label.trans h.named, hlearns.nextSeq ▸ h.pos, fun id x hx => ?_,
    fun x hx => ?_, fun p' hp' id x hx => ?_, ?_⟩
  · obtain hold | ⟨rfl, rfl⟩ := hlearns.applied_cases hx
    · exact h.keyed id x hold
    · rfl
  · obtain hold | rfl := hx.learns hlearns
    · exact h.kept x hold
    · exact hsource
  · obtain ⟨-, hnone⟩ | ⟨p, _, hp, -⟩ := hlearns.port
    · rw [hnone] at hp'
      cases hp'
    obtain ⟨q, hq, hjournal, -⟩ := SyncNode.admitEvent_port hfresh hp
    rw [hq] at hp'
    cases hp'
    obtain ⟨happlied, ⟨y, hy, hid⟩, -⟩ | ⟨happlied, -⟩ | ⟨happlied, -, hreplica⟩ := hjournal
    · -- The port has an event under this id: it is this one.
      rw [happlied]
      obtain hold | ⟨-, rfl⟩ := hlearns.applied_cases hx
      · exact h.recorded p hp id x hold
      · exact hunique y (.inr (.inr ⟨p, hp, hy⟩)) hid ▸ hy
    · rw [happlied]
      obtain hold | ⟨-, rfl⟩ := hlearns.applied_cases hx
      · exact List.mem_append_left _ (h.recorded p hp id x hold)
      · exact List.mem_append_right _ (List.mem_singleton.2 rfl)
    · rw [happlied]
      have hsame : (n.admitEvent e).2.applied = n.applied := congrArg Replica.applied hreplica
      rw [hsame] at hx
      exact h.recorded p hp id x hx
  · obtain hsame | habsorb := n.admitEvent_replica hfresh
    · rw [hsame]
      exact h.acked
    · have hevents : (n.replica.absorb e).events = insert e n.replica.events :=
        Replica.events_absorb hfresh
      rw [habsorb, hevents]
      exact h.acked.absorb e

end SyncNode.Truthful

/-- An acknowledgement names numbers of applied events. -/
theorem SyncNode.appliedFrontier_sound (n : SyncNode) {origin : String} {seq : Nat}
    (h : n.appliedFrontier[origin]? = some seq) :
    ∃ (id : String) (e : JournalEvent), n.applied[id]? = some e ∧ e.origin = origin ∧
      e.originSeq = seq := by
  have hfold (rows : List (String × JournalEvent)) (frontier : Table String Nat)
      (hfrontier : ∀ (o : String) k, frontier[o]? = some k →
        ∃ (id : String) (e : JournalEvent), n.applied[id]? = some e ∧ e.origin = o ∧ e.originSeq = k)
      (hrows : ∀ row ∈ rows, n.applied[row.1]? = some row.2) :
      ∀ (o : String) k, (rows.foldl (fun frontier row => frontier.insert row.2.origin
        (max (frontier[row.2.origin]?.getD 0) row.2.originSeq)) frontier)[o]? = some k →
        ∃ (id : String) (e : JournalEvent), n.applied[id]? = some e ∧ e.origin = o ∧
          e.originSeq = k := by
    induction rows generalizing frontier with
    | nil => exact hfrontier
    | cons row rows ih =>
      refine ih _ (fun o k hk => ?_) fun row hrow => hrows row (List.mem_cons_of_mem _ hrow)
      rw [Table.getElem?_insert_eq] at hk
      split at hk
      · rename_i horigin
        have hrow := hrows row (List.mem_cons_self ..)
        cases hk
        cases hold : frontier[row.2.origin]? with
        | none => exact ⟨row.1, row.2, hrow, horigin, (Nat.zero_max _).symm⟩
        | some old =>
          obtain hmax | hmax := max_choice old row.2.originSeq
          · obtain ⟨id, e, he, heq, hseq⟩ := hfrontier _ _ hold
            exact ⟨id, e, he, heq.trans horigin, by rw [Option.getD_some, hmax, hseq]⟩
          · exact ⟨row.1, row.2, hrow, horigin, by rw [Option.getD_some, hmax]⟩
      · exact hfrontier o k hk
  refine hfold n.applied.toList ∅ (fun o k hk => ?_) (fun row hrow => ?_) origin seq h
  · simp at hk
  · exact Std.ExtTreeMap.mem_toList_iff_getElem?_eq_some.1 hrow

/-- The node has applied everything below what it has applied. -/
def SyncNode.Gapless (n : SyncNode) : Prop :=
  ∀ (id : String) e, n.applied[id]? = some e → ∀ seq, 1 ≤ seq → seq < e.originSeq →
    qualifiedId e.origin seq ∈ n.applied

theorem SyncNode.gapless_iff (n : SyncNode) :
    (∀ row ∈ n.applied.toList, ∀ seq < row.2.originSeq, 1 ≤ seq →
      qualifiedId row.2.origin seq ∈ n.applied) ↔ n.Gapless := by
  constructor
  · intro h id e he seq hone hlt
    exact h (id, e) (Std.ExtTreeMap.mem_toList_iff_getElem?_eq_some.2 he) seq hlt hone
  · intro h row hrow seq hlt hone
    exact h row.1 row.2 (Std.ExtTreeMap.mem_toList_iff_getElem?_eq_some.1 hrow) seq hone hlt

instance (n : SyncNode) : Decidable n.Gapless := decidable_of_iff _ n.gapless_iff

/-! ## The group -/

section

variable [Primitives]

/-- The event exists: it was pushed, or some node has it. -/
def System.Known (s : System) (e : JournalEvent) : Prop :=
  Travelled s.pushed e ∨ ∃ label, (s.nodes label).Keeps e

variable [SyncCodec]

/-- Whatever event an envelope opens to was pushed. -/
def Delivers (pushed : List Pushed) (envelope : Envelope) : Prop :=
  ∀ (session session' : SessionV2) (plain : Primitives.Plain) (wire : WireEvent),
    session.openEnvelope envelope = (.ok plain, session') →
    SyncCodec.fromSlice plain = some (.event wire) → ∃ e, Travelled pushed e ∧ e.toWire = wire

/-- Every number of an origin stands for one event, and who acknowledges a number has
applied everything up to it. -/
structure System.Honest (s : System) : Prop where
  nodes : ∀ label, (s.nodes label).Truthful s.pushed label
  named : ∀ e, s.Known e → e.eventId = qualifiedId e.origin e.originSeq
  numbered : ∀ e, s.Known e → 1 ≤ e.originSeq ∧ e.originSeq < (s.nodes e.origin).nextSeq
  unique : ∀ e e', s.Known e → s.Known e' → e.eventId = e'.eventId → e = e'
  queue : ∀ bucket, ∀ item ∈ s.relay.queue bucket, Delivers s.pushed item.2
  acks : ∀ e frontiers, s.Known e → e.body = .ack frontiers →
    ∀ (origin : String) seq, frontiers[origin]? = some seq →
      ∀ j, 1 ≤ j → j ≤ seq → qualifiedId origin j ∈ (s.nodes e.origin).applied

omit [SyncCodec] in
theorem System.link_setLink (s : System) (label : String) (l : Link) :
    (s.setLink label l).link label = l := by
  simp [System.link, System.setLink]

omit [SyncCodec] in
theorem System.setLink_setLink (s : System) (label : String) (l l' : Link) :
    (s.setLink label l).setLink label l' = s.setLink label l' := by
  simp only [System.setLink, System.mk.injEq, and_true]
  funext x
  split <;> rfl

omit [SyncCodec] in
theorem System.setLink_link (s : System) (label : String) : s.setLink label (s.link label) = s := by
  have hnodes : (fun x => if x = label then s.nodes label else s.nodes x) = s.nodes := by
    funext x
    split
    · rename_i hx
      rw [hx]
    · rfl
  simp only [System.setLink, System.link, hnodes]

omit [SyncCodec] in
theorem System.Known.setLink {s : System} {label : String} {l : Link}
    (h : (s.setLink label l).Known e) :
    Travelled l.pushed e ∨ l.node.Keeps e ∨ ∃ x ≠ label, (s.nodes x).Keeps e := by
  obtain htravelled | ⟨x, hkeeps⟩ := h
  · exact .inl htravelled
  · simp only [System.setLink] at hkeeps
    split at hkeeps
    · exact .inr (.inl hkeeps)
    · rename_i hx
      exact .inr (.inr ⟨x, hx, hkeeps⟩)

namespace System.Honest

variable {s : System} {label : String} {l l' : Link}

/-- A step of one node that makes no new event. -/
theorem setLink (h : s.Honest) (htruthful : l.node.Truthful l.pushed label)
    (hpushed : s.pushed ⊆ l.pushed) (hknown : ∀ e, (s.setLink label l).Known e → s.Known e)
    (hnext : ∀ e, (s.setLink label l).Known e → e.origin = label → e.originSeq < l.node.nextSeq)
    (happlied : ∀ id ∈ (s.nodes label).applied, id ∈ l.node.applied)
    (hqueue : ∀ bucket, ∀ item ∈ l.relay.queue bucket, Delivers l.pushed item.2) :
    (s.setLink label l).Honest where
  nodes x := by
    simp only [System.setLink]
    split
    · rename_i hx
      rw [hx]
      exact htruthful
    · exact (h.nodes x).mono hpushed
  named e he := h.named e (hknown e he)
  numbered e he := by
    refine ⟨(h.numbered e (hknown e he)).1, ?_⟩
    simp only [System.setLink]
    split
    · rename_i horigin
      exact hnext e he horigin
    · exact (h.numbered e (hknown e he)).2
  unique e e' he he' heq := h.unique e e' (hknown e he) (hknown e' he') heq
  queue := hqueue
  acks e frontiers he hbody origin seq hseq j hone hj := by
    have hold := h.acks e frontiers (hknown e he) hbody origin seq hseq j hone hj
    simp only [System.setLink]
    split
    · rename_i horigin
      rw [horigin] at hold
      exact happlied _ hold
    · exact hold

/-- A step that leaves alone what one node keeps. -/
theorem same (h : s.Honest) {n' : SyncNode} {relay : Relay Envelope}
    (hsame : (s.nodes label).SameKeeping n')
    (hqueue : ∀ bucket, ∀ item ∈ relay.queue bucket, item ∈ s.relay.queue bucket) :
    (s.setLink label ⟨n', relay, s.pushed⟩).Honest := by
  have hknown (e : JournalEvent) (he : (s.setLink label ⟨n', relay, s.pushed⟩).Known e) :
      s.Known e := by
    obtain htravelled | hkeeps | ⟨x, -, hkeeps⟩ := he.setLink
    · exact .inl htravelled
    · exact .inr ⟨label, SyncNode.Keeps.same hsame hkeeps⟩
    · exact .inr ⟨x, hkeeps⟩
  refine h.setLink ((h.nodes label).same hsame) (List.Subset.refl _) hknown
    (fun e he horigin => ?_) (fun id hid => ?_) fun bucket item hitem =>
      h.queue bucket item (hqueue bucket item hitem)
  · have hnumber := (h.numbered e (hknown e he)).2
    rw [horigin] at hnumber
    exact hsame.nextSeq.symm ▸ hnumber
  · exact hsame.applied.symm ▸ hid

/-- An event that was pushed reaches a node. -/
theorem receive (h : s.Honest) (htravelled : Travelled s.pushed e) :
    (s.setLink label ⟨((s.nodes label).admitEvent e).2, s.relay, s.pushed⟩).Honest := by
  have hlearns := (s.nodes label).admitEvent_learns e
  have hknown (x : JournalEvent)
      (hx : (s.setLink label ⟨((s.nodes label).admitEvent e).2, s.relay, s.pushed⟩).Known x) :
      s.Known x := by
    obtain hpushed | hkeeps | ⟨y, -, hkeeps⟩ := hx.setLink
    · exact .inl hpushed
    · obtain hold | rfl := SyncNode.Keeps.learns hlearns hkeeps
      · exact .inr ⟨label, hold⟩
      · exact .inl htravelled
    · exact .inr ⟨y, hkeeps⟩
  have htruthful := (h.nodes label).admitEvent (.inr htravelled) fun x hx heq =>
    h.unique x e (.inr ⟨label, hx⟩) (.inl htravelled) heq
  refine h.setLink htruthful (List.Subset.refl _) hknown (fun x hx horigin => ?_)
    (fun id hid => ?_) h.queue
  · have hnumber := (h.numbered x (hknown x hx)).2
    rw [horigin] at hnumber
    exact hlearns.nextSeq.symm ▸ hnumber
  · obtain happlied | happlied := hlearns.applied <;> rw [happlied]
    · exact hid
    · exact Std.ExtTreeMap.mem_insert.2 (.inr hid)

/-- A node creates an event; an acknowledgement only of what it has applied without a
gap. -/
theorem createAdmit (h : s.Honest) (label : String) (body : EventBody)
    (hack : ∀ frontiers, body = .ack frontiers →
      frontiers = (s.nodes label).appliedFrontier ∧ (s.nodes label).Gapless) :
    (s.setLink label ⟨((s.nodes label).createAdmit body).2, s.relay, s.pushed⟩).Honest := by
  rw [((s.nodes label).createAdmit_eq body).1]
  let n := s.nodes label
  let e := (n.create body).1
  have hn : n.Truthful s.pushed label := h.nodes label
  have hlearns := (n.create body).2.admitEvent_learns e
  have horigin : e.origin = label := hn.named
  have hnext : ((n.create body).2.admitEvent e).2.nextSeq = n.nextSeq + 1 := hlearns.nextSeq
  have hid : e.eventId = qualifiedId e.origin e.originSeq := rfl
  let s' := s.setLink label ⟨((n.create body).2.admitEvent e).2, s.relay, s.pushed⟩
  have hknown (x : JournalEvent) (hx : s'.Known x) : s.Known x ∨ x = e := by
    obtain hpushed | hkeeps | ⟨y, -, hkeeps⟩ := hx.setLink
    · exact .inl (.inl hpushed)
    · obtain (happlied | hout | hjournal) | hnew := SyncNode.Keeps.learns hlearns hkeeps
      · exact .inl (.inr ⟨label, .inl happlied⟩)
      · obtain hold | hnew := List.mem_append.1 hout
        · exact .inl (.inr ⟨label, .inr (.inl hold)⟩)
        · exact .inr (List.mem_singleton.1 hnew)
      · exact .inl (.inr ⟨label, .inr (.inr hjournal)⟩)
      · exact .inr hnew
    · exact .inl (.inr ⟨y, hkeeps⟩)
  -- The number is a new one, so nothing has the event's id yet.
  have hfresh (x : JournalEvent) (hx : s.Known x) : x.eventId ≠ e.eventId := by
    intro heq
    rw [h.named x hx, hid] at heq
    obtain ⟨hxorigin, hxseq⟩ := qualifiedId_inj heq
    have hnumber := (h.numbered x hx).2
    rw [hxorigin, horigin, hxseq] at hnumber
    exact lt_irrefl _ hnumber
  have hcreated : (n.create body).2.Truthful s.pushed label := by
    refine ⟨hn.named, Nat.le_add_left 1 _, hn.keyed, fun x hx => ?_, hn.recorded, hn.acked⟩
    obtain happlied | hout | hjournal := hx
    · exact hn.kept x (.inl happlied)
    · obtain hold | hnew := List.mem_append.1 hout
      · exact hn.kept x (.inr (.inl hold))
      · rw [List.mem_singleton.1 hnew]
        exact .inl horigin
    · exact hn.kept x (.inr (.inr hjournal))
  have htruthful : ((n.create body).2.admitEvent e).2.Truthful s.pushed label := by
    refine hcreated.admitEvent (.inl horigin) fun x hx heq => ?_
    obtain happlied | hout | hjournal := hx
    · exact absurd heq (hfresh x (.inr ⟨label, .inl happlied⟩))
    · obtain hold | hnew := List.mem_append.1 hout
      · exact absurd heq (hfresh x (.inr ⟨label, .inr (.inl hold)⟩))
      · exact List.mem_singleton.1 hnew
    · exact absurd heq (hfresh x (.inr ⟨label, .inr (.inr hjournal)⟩))
  have happlied (id : String) (hmem : id ∈ n.applied) :
      id ∈ ((n.create body).2.admitEvent e).2.applied := by
    obtain hsame | hinsert := hlearns.applied
    · rw [hsame]
      exact hmem
    · rw [hinsert]
      exact Std.ExtTreeMap.mem_insert.2 (.inr hmem)
  refine ⟨fun x => ?_, fun x hx => ?_, fun x hx => ?_, fun x y hx hy heq => ?_, h.queue,
    fun x frontiers hx hbody origin seq hseq j hone hj => ?_⟩
  · simp only [System.setLink]
    split
    · rename_i heq
      rw [heq]
      exact htruthful
    · exact h.nodes x
  · obtain hold | rfl := hknown x hx
    · exact h.named x hold
    · exact hid
  · obtain hold | rfl := hknown x hx
    · refine ⟨(h.numbered x hold).1, ?_⟩
      have hnumber := (h.numbered x hold).2
      simp only [System.setLink]
      split
      · rename_i heq
        rw [heq] at hnumber
        rw [hnext]
        exact Nat.lt_succ_of_lt hnumber
      · exact hnumber
    · refine ⟨hn.pos, ?_⟩
      simp only [System.setLink, horigin, if_true]
      rw [hnext]
      exact Nat.lt_succ_self n.nextSeq
  · obtain hx | rfl := hknown x hx <;> obtain hy | rfl := hknown y hy
    · exact h.unique x y hx hy heq
    · exact absurd heq (hfresh x hx)
    · exact absurd heq.symm (hfresh y hy)
    · rfl
  · obtain hold | rfl := hknown x hx
    · have hmem := h.acks x frontiers hold hbody origin seq hseq j hone hj
      simp only [System.setLink]
      split
      · rename_i heq
        rw [heq] at hmem
        exact happlied _ hmem
      · exact hmem
    · obtain ⟨rfl, hgapless⟩ := hack frontiers hbody
      obtain ⟨id, y, hy, rfl, rfl⟩ := SyncNode.appliedFrontier_sound _ hseq
      have hmem : qualifiedId y.origin j ∈ n.applied := by
        obtain hlt | rfl := lt_or_eq_of_le hj
        · exact hgapless id y hy j hone hlt
        · rw [← h.named y (.inr ⟨label, .inl ⟨id, hy⟩⟩), ← hn.keyed id y hy]
          exact Table.mem_iff.2 ⟨y, hy⟩
      simp only [System.setLink, horigin, if_true]
      exact happlied _ hmem

/-- A reading move of one node. -/
theorem reads {C : Prop} (h : s.Honest) (hmove : (s.link label).Reads C l') :
    (s.setLink label l').Honest := by
  cases hmove with
  | relay hsame =>
    exact h.same ⟨rfl, rfl, rfl, rfl, fun p hp => ⟨p, hp, rfl⟩⟩ fun bucket item hitem => by
      rwa [hsame.queue] at hitem
  | channels hpeer hidentity houtbound =>
    exact h.same ⟨rfl, rfl, rfl, rfl, fun p hp => ⟨p, hp, rfl⟩⟩ fun _ _ hitem => hitem
  | @cursor port peer cursor hport =>
    refine h.same ⟨rfl, rfl, rfl, rfl, ?_⟩ fun _ _ hitem => hitem
    rintro _ ⟨⟩
    exact ⟨port, hport, (port.recordFetchCursor_keeps peer cursor).1⟩
  | blobs hingest =>
    exact h.same ⟨rfl, rfl, rfl, rfl, fun p hp => ⟨p, hp, rfl⟩⟩ fun _ _ hitem => hitem
  | admitEvent hgenuine hfresh hok =>
    obtain ⟨item, hitem, session, plain, session', hopen, hwire⟩ := hgenuine.queued
    obtain ⟨x, hx, heq⟩ := h.queue _ item hitem session session' plain _ hopen hwire
    rw [JournalEvent.toWire_injective heq] at hx
    exact h.receive hx

variable [AuthenticAead]

/-- A writing move of one node. -/
theorem writes (h : s.Honest) (hmove : (s.link label).Writes l') : (s.setLink label l').Honest := by
  cases hmove with
  | relay hsame =>
    exact h.same ⟨rfl, rfl, rfl, rfl, fun p hp => ⟨p, hp, rfl⟩⟩ fun bucket item hitem => by
      rwa [hsame.queue] at hitem
  | outbound hpeer outbound =>
    exact h.same ⟨rfl, rfl, rfl, rfl, fun p hp => ⟨p, hp, rfl⟩⟩ fun _ _ hitem => hitem
  | @push _ peer key pushId payload record hfans hpush =>
    obtain ⟨channels, envelope, outbound, outcome, relay, -, hseal, hrelay, rfl⟩ :=
      Link.sealAndPush_ok hpush
    let pushed := recordPush s.pushed (bucketFor peer (s.nodes label).label) outcome record
    have hsub : s.pushed ⊆ pushed := fun x hx => mem_recordPush.2 (.inl hx)
    let n' : SyncNode := { s.nodes label with
      peers := (s.nodes label).peers.insert peer { channels with outbound := outbound }
      sentTo := (s.nodes label).sentTo.insert key
        (((s.nodes label).sentTo[key]?.getD ∅).insert peer) }
    have hsame : (s.nodes label).SameKeeping n' :=
      ⟨rfl, rfl, rfl, rfl, fun p hp => ⟨p, hp, rfl⟩⟩
    have hknown (x : JournalEvent) (hx : (s.setLink label ⟨n', relay, pushed⟩).Known x) :
        s.Known x := by
      obtain ⟨y, hy, rfl⟩ | hkeeps | ⟨z, -, hkeeps⟩ := hx.setLink
      · obtain hold | ⟨e, rfl, rfl⟩ := mem_recordPush.1 hy
        · exact .inl ⟨y, hold, rfl⟩
        · cases hfans with
          | event hmem hunsent => exact .inr ⟨label, .inr (.inl hmem)⟩
      · exact .inr ⟨label, SyncNode.Keeps.same hsame hkeeps⟩
      · exact .inr ⟨z, hkeeps⟩
    have hcarries := carries_of_seal hseal
    have hdelivers : Delivers pushed envelope := by
      intro session session' plain wire hopen hwire
      rw [hcarries.opens hopen] at hwire
      cases hfans with
      | @event e hmem hunsent =>
        cases hwire
        exact ⟨e, ⟨_, mem_recordPush.2 (.inr ⟨e, rfl, rfl⟩), rfl⟩, rfl⟩
      | chunk hblob hentry hheld => cases hwire
    have hold {envelope : Envelope} (hdelivers : Delivers s.pushed envelope) :
        Delivers pushed envelope := by
      intro session session' plain wire hopen hwire
      obtain ⟨x, hx, heq⟩ := hdelivers session session' plain wire hopen hwire
      exact ⟨x, hx.mono hsub, heq⟩
    refine h.setLink (((h.nodes label).same hsame).mono hsub) hsub hknown
      (fun x hx horigin => ?_) (fun id hid => hid) fun bucket item hitem => ?_
    · have hnumber := (h.numbered x (hknown x hx)).2
      rw [horigin] at hnumber
      exact hnumber
    · have hcases := s.relay.push_cases Envelope.len (bucketFor peer (s.nodes label).label) pushId
        envelope
      have hrelay' : s.relay.push Envelope.len (bucketFor peer (s.nodes label).label) pushId
        envelope = (.ok outcome, relay) := hrelay
      rw [hrelay'] at hcases
      obtain ⟨_, -, hsame⟩ | ⟨_, -, -, hsame⟩ | ⟨-, -, hqueue⟩ := hcases
      · rw [hsame.queue] at hitem
        exact hold (h.queue bucket item hitem)
      · rw [hsame.queue] at hitem
        exact hold (h.queue bucket item hitem)
      · rw [hqueue] at hitem
        split at hitem
        · obtain hitem | hitem := List.mem_append.1 hitem
          · exact hold (h.queue _ item hitem)
          · rw [List.mem_singleton.1 hitem]
            exact hdelivers
        · exact hold (h.queue bucket item hitem)

omit [AuthenticAead] in
/-- A node restarts over a journal that has every event of its own that was
pushed. -/
theorem restart (h : s.Honest) {port : SyncPort} (hport : (s.nodes label).port = some port)
    (hjournal : ∀ e, Travelled s.pushed e → e.origin = label → e ∈ port.applied) :
    (s.setLink label ⟨.durable (s.nodes label).keys label port, s.relay, s.pushed⟩).Honest := by
  let n' := SyncNode.durable (s.nodes label).keys label port
  have hn := h.nodes label
  obtain ⟨hlabel, -, -, houtbox, -⟩ := durable_frame (s.nodes label).keys label port
  obtain ⟨hnext, hpos⟩ := durable_nextSeq (s.nodes label).keys label port
  have happlied : n'.applied = (replayed port.applied).applied := by
    have hreplica := congrArg Replica.applied (durable_replica (s.nodes label).keys label port)
    exact hreplica
  have hjournalKnown (x : JournalEvent) (hx : x ∈ port.applied) : s.Known x :=
    .inr ⟨label, .inr (.inr ⟨port, hport, hx⟩)⟩
  -- One number, one event: what the journal has is what the replay ends with.
  have hreplayed (x : JournalEvent) (hx : x ∈ port.applied) : n'.applied[x.eventId]? = some x := by
    have hmem : x.eventId ∈ n'.applied := by
      rw [happlied, mem_replayed]
      exact ⟨x, hx, rfl⟩
    obtain ⟨y, hy⟩ := Table.mem_iff.1 hmem
    obtain ⟨hyjournal, hyid⟩ := mem_journal_of_durable hy
    rw [hy, h.unique y x (hjournalKnown y hyjournal) (hjournalKnown x hx) hyid.symm]
  have hkeeps (x : JournalEvent) (hx : n'.Keeps x) : x ∈ port.applied := by
    obtain ⟨id, hid⟩ | hout | ⟨p, hp, hmem⟩ := hx
    · exact (mem_journal_of_durable hid).1
    · rw [houtbox] at hout
      cases hout
    · cases hp
      exact hmem
  have hknown (x : JournalEvent) (hx : (s.setLink label ⟨n', s.relay, s.pushed⟩).Known x) :
      s.Known x := by
    obtain hpushed | hkept | ⟨y, -, hkept⟩ := hx.setLink
    · exact .inl hpushed
    · exact hjournalKnown x (hkeeps x hkept)
    · exact .inr ⟨y, hkept⟩
  have htruthful : n'.Truthful s.pushed label := by
    refine ⟨hlabel, hpos, fun id x hx => (mem_journal_of_durable hx).2, fun x hx => ?_, ?_, ?_⟩
    · exact hn.kept x (.inr (.inr ⟨port, hport, hkeeps x hx⟩))
    · rintro _ ⟨⟩ id x hx
      exact (mem_journal_of_durable hx).1
    · intro peer origin v hv
      rw [durable_replica] at hv
      obtain ⟨x, hx, hack⟩ := replayed_acked port.applied peer origin v hv
      exact ⟨x, ⟨x.eventId, hreplayed x hx⟩, hack⟩
  refine h.setLink htruthful (List.Subset.refl _) hknown (fun x hx horigin => ?_) (fun id hid => ?_)
    h.queue
  · have hmem : x ∈ port.applied := by
      obtain hpushed | hkept | ⟨y, hy, hkept⟩ := hx.setLink
      · exact hjournal x hpushed horigin
      · exact hkeeps x hkept
      · obtain hown | hpushed := (h.nodes y).kept x hkept
        · exact absurd (hown.symm.trans horigin) hy
        · exact hjournal x hpushed horigin
    exact hnext.above _ x (hreplayed x hmem) horigin
  · obtain ⟨x, hx⟩ := Table.mem_iff.1 hid
    rw [hn.keyed id x hx]
    exact Table.mem_iff.2 ⟨x, hreplayed x (hn.recorded port hport id x hx)⟩

omit [AuthenticAead] in
/-- What each move of one node keeps, its moves keep. -/
theorem moves {R : Link → Link → Prop}
    (hmove : ∀ {s : System} {l' : Link}, s.Honest → R (s.link label) l' →
      (s.setLink label l').Honest)
    (h : (s.setLink label l).Honest) (hmoves : Relation.ReflTransGen R l l') :
    (s.setLink label l').Honest := by
  refine Link.invariant_of_moves (I := fun l => (s.setLink label l).Honest)
    (fun l₁ l₂ h₁ hr => ?_) h hmoves
  rw [← System.setLink_setLink s label l₁ l₂]
  refine hmove h₁ ?_
  rw [System.link_setLink]
  exact hr

omit [AuthenticAead] in
theorem poll (h : s.Honest) (label : String) :
    (s.setLink label (s.link label).poll.2).Honest := by
  have hlink : (s.setLink label (s.link label)).Honest := (s.setLink_link label).symm ▸ h
  exact moves (R := Link.Reads False) (fun h hmove => h.reads hmove) hlink
    ((s.link label).poll_moves False.elim)

theorem flush (h : s.Honest) (label : String) (seed : Bytes32)
    (hgapless : (s.link label).poll.2.node.Gapless) :
    (s.setLink label ((s.link label).flush seed).2).Honest := by
  have hpolled := h.poll label
  obtain ⟨polled, rfl, -, hfail | ⟨-, hwrites⟩⟩ :=
    (s.link label).flush_moves (C := False) seed False.elim
  · rw [hfail]
    exact hpolled
  · refine moves (R := Link.Writes) (fun h hmove => h.writes hmove) ?_ hwrites
    have hnode : (s.setLink label (s.link label).poll.2).nodes label = (s.link label).poll.2.node :=
      if_pos rfl
    have hack := hpolled.createAdmit label (.ack (s.link label).poll.2.node.appliedFrontier) (by
      rintro _ ⟨⟩
      rw [hnode]
      exact ⟨rfl, hgapless⟩)
    rw [hnode, System.setLink_setLink] at hack
    exact hack

omit [AuthenticAead] in
theorem nodeStep (h : s.Honest) (label : String) {i : NodeInput} (hlocal : ∀ e, i ≠ .receive e)
    (hgapless : i = .acknowledge → (s.nodes label).Gapless) :
    (s.setNode label (nodeStep (s.nodes label) i)).Honest := by
  obtain ⟨count, heq⟩ | ⟨faults, heq⟩ | ⟨blobs, body, -, hbody, heq, -⟩ :=
    nodeStep_local (s.nodes label) i hlocal <;> rw [heq]
  · exact h.same ⟨rfl, rfl, rfl, rfl, fun p hp => ⟨p, hp, rfl⟩⟩ fun _ _ hitem => hitem
  · refine h.same ⟨rfl, rfl, rfl, rfl, fun p' hp' => ?_⟩ fun _ _ hitem => hitem
    obtain ⟨p, hp, rfl⟩ := Option.map_eq_some_iff.1 hp'
    exact ⟨p, hp, rfl⟩
  · let n : SyncNode := { s.nodes label with blobs := blobs }
    have hblobs : (s.setLink label ⟨n, s.relay, s.pushed⟩).Honest :=
      h.same ⟨rfl, rfl, rfl, rfl, fun p hp => ⟨p, hp, rfl⟩⟩ fun _ _ hitem => hitem
    have hnode : (s.setLink label ⟨n, s.relay, s.pushed⟩).nodes label = n := if_pos rfl
    have hcreated := hblobs.createAdmit label body (by
      rintro frontiers rfl
      rw [hnode]
      obtain ⟨hack, hinput⟩ | hother := hbody
      · cases hack
        exact ⟨rfl, hgapless hinput⟩
      · exact absurd rfl (hother frontiers))
    rw [hnode, System.setLink_setLink] at hcreated
    exact hcreated

end System.Honest

/-! ## Runs -/

variable [AuthenticAead]

/-- Only the group's own nodes push.  A node acknowledges when what it has applied
has no gap (a flush acknowledges after its poll), and restarts when its journal has
every event of its own that was pushed. -/
def Contiguous (s : System) : VaultInput → Prop
  | .system (.node label .acknowledge) => (s.nodes label).Gapless
  | .system (.flush label _) => (s.link label).poll.2.node.Gapless
  | .system (.restart label) => ∀ port, (s.nodes label).port = some port →
      ∀ e, Travelled s.pushed e → e.origin = label → e ∈ port.applied
  | .send _ _ _ => False
  | _ => True

theorem honest_vaultStep {s : System} (h : s.Honest) (i : VaultInput) (hok : Contiguous s i) :
    (vaultStep s i).Honest := by
  cases i with
  | send bucket id envelope => exact hok.elim
  | compactRelay bucket =>
    exact ⟨h.nodes, h.named, h.numbered, h.unique,
      fun label item hitem => h.queue label item (Relay.mem_queue_of_compact hitem), h.acks⟩
  | compactTombstones label =>
    have hsame : (s.nodes label).SameKeeping { s.nodes label with
        port := (s.nodes label).port.map fun port =>
          port.compactTombstones (s.nodes label).gcFrontiers.toList } := by
      refine ⟨rfl, rfl, rfl, rfl, fun p' hp' => ?_⟩
      obtain ⟨p, hp, rfl⟩ := Option.map_eq_some_iff.1 hp'
      exact ⟨p, hp, (p.compactTombstones_keeps _).1⟩
    exact h.same hsame fun _ _ hitem => hitem
  | system input =>
    obtain hsame | ⟨hstep, hlocal⟩ := vaultStep_system s input
    · rw [hsame]
      exact h
    rw [hstep]
    cases input with
    | node label input =>
      refine h.nodeStep label (fun e he => hlocal label e (he ▸ rfl)) ?_
      rintro rfl
      exact hok
    | poll label => exact h.poll label
    | flush label seed => exact h.flush label seed hok
    | restart label =>
      simp only [systemStep]
      split
      · exact h
      · rename_i port hport
        exact h.restart hport (hok port hport)
    | pair a b epoch epochSeq aToB bToA =>
      simp only [systemStep]
      split
      · exact h
      rename_i hab
      split
      · exact h
      · rename_i nodeA nodeB hpair
        obtain ⟨channelsA, channelsB, -, -, rfl, rfl⟩ := pair_ok hpair
        have hA : (s.setNode a { s.nodes a with
            peers := (s.nodes a).peers.insert (s.nodes b).label channelsA }).Honest :=
          h.same ⟨rfl, rfl, rfl, rfl, fun p hp => ⟨p, hp, rfl⟩⟩ fun _ _ hitem => hitem
        have hb : (s.setNode a { s.nodes a with
            peers := (s.nodes a).peers.insert (s.nodes b).label channelsA }).nodes b =
              s.nodes b := if_neg (Ne.symm hab)
        have hsame : ((s.setNode a { s.nodes a with
            peers := (s.nodes a).peers.insert (s.nodes b).label channelsA }).nodes b).SameKeeping
            { s.nodes b with
              peers := (s.nodes b).peers.insert (s.nodes a).label channelsB } := by
          rw [hb]
          exact ⟨rfl, rfl, rfl, rfl, fun p hp => ⟨p, hp, rfl⟩⟩
        exact hA.same hsame fun _ _ hitem => hitem

omit [AuthenticAead] in
theorem honest_init (policy : RelayPolicy) (keys : String → DeviceKeys)
    (isDurable : String → Bool) : (vaultMachine policy keys isDurable).init.Honest := by
  have hport (label : String) (p : SyncPort)
      (hp : ((vaultMachine policy keys isDurable).init.nodes label).port = some p) :
      p = .empty := by
    simp only [vaultMachine, systemMachine, SyncNode.new] at hp
    split at hp
    · exact (Option.some.inj hp).symm
    · cases hp
  have hkeeps (label : String) (e : JournalEvent) :
      ¬ ((vaultMachine policy keys isDurable).init.nodes label).Keeps e := by
    rintro (⟨id, hid⟩ | hout | ⟨p, hp, hmem⟩)
    · simp [vaultMachine, systemMachine, SyncNode.new] at hid
    · cases hout
    · rw [hport label p hp] at hmem
      cases hmem
  have hknown (e : JournalEvent) : ¬ (vaultMachine policy keys isDurable).init.Known e := by
    rintro (⟨record, hrecord, -⟩ | ⟨label, hkept⟩)
    · cases hrecord
    · exact hkeeps label e hkept
  refine ⟨fun label => ⟨rfl, le_refl 1, fun id e he => ?_, fun e he => absurd he (hkeeps label e),
    fun p hp id e he => ?_, fun peer origin v hv => ?_⟩, fun e he => absurd he (hknown e),
    fun e he => absurd he (hknown e), fun e e' he => absurd he (hknown e), fun bucket item hitem => ?_,
    fun e frontiers he => absurd he (hknown e)⟩
  · simp [vaultMachine, systemMachine, SyncNode.new] at he
  · simp [vaultMachine, systemMachine, SyncNode.new] at he
  · simp [vaultMachine, systemMachine, SyncNode.new, SyncNode.replica, Replica.acked] at hv
  · simp [vaultMachine, systemMachine, Relay.queue, Relay.bucket, Relay.new, Bucket.empty] at hitem

end

/-! ## The gate -/

/-- A reported frontier is the floor of its origin. -/
theorem SyncNode.gcFrontiers_eq (n : SyncNode) {origin : String} {floor : Nat}
    (h : n.gcFrontiers[origin]? = some floor) : floor = n.floor origin := by
  have hfold (origins : List String) (gate : Table String Nat)
      (hgate : ∀ (o : String) k, gate[o]? = some k → k = n.floor o) :
      ∀ (o : String) k, (origins.foldl (fun gate o => gate.insert o (n.floor o)) gate)[o]? = some k →
        k = n.floor o := by
    induction origins generalizing gate with
    | nil => exact hgate
    | cons origin origins ih =>
      refine ih _ fun o k hk => ?_
      rw [Table.getElem?_insert_eq] at hk
      split at hk
      · rename_i heq
        rw [← heq]
        exact (Option.some.inj hk).symm
      · exact hgate o k hk
  exact hfold _ ∅ (fun o k hk => by simp at hk) origin floor h

/-- Every peer has acknowledged at least the floor. -/
theorem SyncNode.floor_le_acknowledged (n : SyncNode) {peer : String} (hpeer : peer ∈ n.peers)
    (origin : String) : n.floor origin ≤ n.acknowledged peer origin := by
  have hfold (peers : List String) (start : Nat) :
      peers.foldl (fun floor peer => min floor (n.acknowledged peer origin)) start ≤ start ∧
        ∀ peer ∈ peers, peers.foldl (fun floor peer => min floor (n.acknowledged peer origin)) start ≤
          n.acknowledged peer origin := by
    induction peers generalizing start with
    | nil => exact ⟨le_refl start, fun _ h => (by cases h)⟩
    | cons first peers ih =>
      obtain ⟨hstart, hrest⟩ := ih (min start (n.acknowledged first origin))
      refine ⟨hstart.trans (min_le_left _ _), fun x hx => ?_⟩
      obtain rfl | hx := List.mem_cons.1 hx
      · exact hstart.trans (min_le_right _ _)
      · exact hrest x hx
  exact (hfold n.peers.keys u64Max).2 peer (Std.ExtTreeMap.mem_keys.2 hpeer)

section

variable [Primitives] [SyncCodec] [AuthenticAead]

/-- **Soundness of the compaction gate.**  In every run of a group whose nodes
acknowledge without gaps and restart over complete journals, a floor that a node
reports for an origin is one below which every peer of the node has applied every
event of the origin. -/
theorem gcFrontiers_sound (policy : RelayPolicy) (keys : String → DeviceKeys)
    (isDurable : String → Bool) (inputs : List VaultInput)
    (hok : (vaultMachine policy keys isDurable).Meets Contiguous
      (vaultMachine policy keys isDurable).init inputs)
    (label peer origin : String) (floor : Nat) :
    let s := (vaultMachine policy keys isDurable).run inputs
    (s.nodes label).gcFrontiers[origin]? = some floor → peer ∈ (s.nodes label).peers →
      ∀ e, s.Known e → e.origin = origin → e.originSeq < floor →
        (s.nodes peer).applied[e.eventId]? = some e := by
  intro s hfloor hpeer e he horigin hlt
  have h : ((vaultMachine policy keys isDurable).run inputs).Honest :=
    Machine.invariant_of_meets _ (I := System.Honest) (fun s i h hok => honest_vaultStep h i hok)
      (honest_init policy keys isDurable) hok
  have hacknowledged : e.originSeq < (s.nodes label).acknowledged peer origin := by
    rw [SyncNode.gcFrontiers_eq _ hfloor] at hlt
    exact lt_of_lt_of_le hlt (SyncNode.floor_le_acknowledged _ hpeer origin)
  obtain ⟨v, hv, hle⟩ : ∃ v, (s.nodes label).replica.acked peer origin = some v ∧
      e.originSeq ≤ v := by
    simp only [SyncNode.acknowledged] at hacknowledged
    simp only [Replica.acked, SyncNode.replica]
    cases hledger : (s.nodes label).peerAcks[peer]? with
    | none => simp [hledger] at hacknowledged
    | some ledger =>
      rw [hledger, Option.getD_some] at hacknowledged
      cases hv : ledger[origin]? with
      | none => simp [hv] at hacknowledged
      | some v =>
        rw [hv, Option.getD_some] at hacknowledged
        exact ⟨v, hv, Nat.le_of_lt hacknowledged⟩
  obtain ⟨x, ⟨id, hx⟩, rfl, frontiers, hbody, hseq⟩ := (h.nodes label).acked _ _ _ hv
  have hmem := h.acks x frontiers (.inr ⟨label, .inl ⟨id, hx⟩⟩) hbody origin v hseq e.originSeq
    (h.numbered e he).1 hle
  rw [← horigin, ← h.named e he] at hmem
  obtain ⟨y, hy⟩ := Table.mem_iff.1 hmem
  have hyid := (h.nodes x.origin).keyed _ y hy
  rw [hy, h.unique y e (.inr ⟨x.origin, .inl ⟨_, hy⟩⟩) he hyid.symm]

end

section

attribute [local instance] idealPrimitives idealSyncCodec idealAuthentic

/-- An event sent to `b`, and the acknowledgement of `b` that comes back. -/
def acknowledging : List VaultInput :=
  [.system (pairing 1 1), .system (.node "a" (.appendDocument "d" "from a")),
    .system (.flush "a" (Vector.replicate 32 9)), .system (.poll "b"),
    .system (.flush "b" (Vector.replicate 32 8)), .system (.poll "a")]

theorem gcFrontiers_sound_acknowledging :
    let s := (vaultMachine .permissive pairKeys fun _ => true).run acknowledging
    (s.nodes "a").gcFrontiers["a"]? = some 2 ∧
      ∀ e, s.Known e → e.origin = "a" → e.originSeq < 2 →
        (s.nodes "b").applied[e.eventId]? = some e := by
  intro s
  have hfloor : (s.nodes "a").gcFrontiers["a"]? = some 2 := by
    decide +kernel
  have hmeets : (vaultMachine .permissive pairKeys fun _ => true).Meets Contiguous
      (vaultMachine .permissive pairKeys fun _ => true).init acknowledging :=
    ⟨trivial, trivial, show SyncNode.Gapless _ by decide +kernel, trivial,
      show SyncNode.Gapless _ by decide +kernel, trivial, trivial⟩
  exact ⟨hfloor, gcFrontiers_sound .permissive pairKeys (fun _ => true) acknowledging hmeets "a" "b"
    "a" 2 hfloor (by decide +kernel)⟩

/-- The first event of `a` is lost from its outbox by a restart; `b` gets the later
ones and acknowledges them, and `a` reports a floor above the event that `b` does not
have. -/
theorem floor_above_missing_event :
    let s := (vaultMachine .permissive pairKeys fun _ => true).run
      [.system (.node "a" (.appendDocument "d" "first")), .system (.restart "a"),
        .system (pairing 1 1), .system (.node "a" (.appendDocument "d" "second")),
        .system (.flush "a" (Vector.replicate 32 9)), .system (.poll "b"),
        .system (.flush "b" (Vector.replicate 32 8)), .system (.poll "a")]
    (s.nodes "a").gcFrontiers["a"]? = some 3 ∧ "b" ∈ (s.nodes "a").peers ∧
      ((s.nodes "a").applied["a:1"]?.map fun e => (e.origin, e.originSeq)) = some ("a", 1) ∧
      "a:1" ∉ (s.nodes "b").applied := by
  decide +kernel

end

end Altior.Sync
