import Altior.Sync.Restart
import Mathlib.Data.List.Nodup

/-!
# The outbox

What a node creates waits in its outbox until it has been pushed to every peer.
The outbox and the marks of what was pushed live in memory only: a restart starts
with both empty.
-/

namespace Altior.Sync

open Lib Crypto

/-! ## Keys of the push marks -/

theorem not_colon_of_hex (bytes : List UInt8) : ':' ∉ (hexEncode bytes).toList := by
  have hdigit (n : Nat) (hn : n < 16) :
      ':' ≠ Char.ofNat (if n < 10 then 0x30 + n else 0x57 + n) := by
    revert n
    decide
  simp only [hexEncode, String.toList_ofList, List.mem_flatMap, not_exists, not_and]
  intro b _ hmem
  have hb : b.toNat < 256 := b.toNat_lt
  obtain hhigh | hlow := List.mem_cons.1 hmem
  · exact hdigit (b.toNat / 16) (by omega) hhigh
  · exact hdigit (b.toNat % 16) (by omega) (List.mem_singleton.1 hlow)

theorem length_hexEncode (bytes : List UInt8) :
    (hexEncode bytes).toList.length = 2 * bytes.length := by
  simp only [hexEncode, String.toList_ofList]
  induction bytes with
  | nil => rfl
  | cons b bytes ih =>
    rw [List.flatMap_cons, List.length_append, ih]
    simp only [List.length_cons, List.length_nil]
    omega

/-- The mark of a chunk is not the id of an event. -/
theorem chunkKey_ne (label : String) {seq : Nat} (hseq : seq ≤ u64Max) (digest : Bytes32) :
    "blob:" ++ hexEncode digest.toList ≠ qualifiedId label seq := by
  intro heq
  have hlist := congrArg String.toList heq
  simp only [qualifiedId, String.toList_append, List.append_assoc] at hlist
  have hcolon : "blob:".toList ++ (hexEncode digest.toList).toList =
      "blob".toList ++ ':' :: (hexEncode digest.toList).toList := rfl
  rw [hcolon] at hlist
  obtain ⟨-, hdigits⟩ := append_cons_inj (not_colon_of_hex digest.toList)
    (colon_not_mem_digits seq) hlist
  have hlength := congrArg List.length hdigits
  rw [length_hexEncode, Vector.length_toList, Nat.toString_eq_ofList_toDigits,
    String.toList_ofList] at hlength
  have hshort : (Nat.toDigits 10 seq).length ≤ 20 := by
    rw [Nat.length_toDigits_le_iff (by decide) (by decide)]
    exact lt_of_le_of_lt hseq (by decide)
  omega

/-! ## Chunks -/

/-- Every chunk held is kept under a digest. -/
def Digested (blobs : Table String StoredBlob) : Prop :=
  ∀ (blobId : String) stored, blobs[blobId]? = some stored → ∀ chunkId ∈ stored.chunks,
    ∃ digest : Bytes32, chunkId = hexEncode digest.toList

namespace Digested

variable {blobs : Table String StoredBlob}

theorem insert (h : Digested blobs) (blobId : String) {stored : StoredBlob}
    (hstored : ∀ chunkId ∈ stored.chunks, ∃ digest : Bytes32, chunkId = hexEncode digest.toList) :
    Digested (blobs.insert blobId stored) := by
  intro x found hfound
  rw [Table.getElem?_insert_eq] at hfound
  split at hfound
  · cases hfound
    exact hstored
  · exact h x found hfound

theorem apply {n : SyncNode} (h : Digested n.blobs) (e : JournalEvent) :
    Digested (n.apply e).2.blobs := by
  unfold SyncNode.apply
  cases e.body with
  | blobAdded blobId totalSize entries =>
    refine h.insert blobId fun chunkId hchunk => ?_
    cases hold : n.blobs[blobId]? with
    | none => simp [hold] at hchunk
    | some stored =>
      simp only [hold, Option.getD_some] at hchunk
      exact h blobId stored hold chunkId hchunk
  | memoryForgotten memoryId at_ digest =>
    simp only [SyncNode.applyForget]
    split
    · exact h
    · split <;> exact h
  | memoryProposed memoryId content =>
    dsimp only
    split <;> exact h
  | documentAppend docId entry => exact h
  | ack frontiers => exact h

theorem admitEvent {n : SyncNode} (h : Digested n.blobs) (e : JournalEvent) :
    Digested (n.admitEvent e).2.blobs := by
  unfold SyncNode.admitEvent
  split
  · exact h
  split
  · exact h.apply e
  split
  · exact h
  · rename_i port _
    exact apply (n := { n with port := some port }) h e

theorem ingestChunk [Primitives] (h : Digested blobs) {peer : String} {chunk : BlobChunkWire}
    {blobs' : Table String StoredBlob}
    (hingest : SyncNode.ingestChunk blobs peer chunk = .ok blobs') : Digested blobs' := by
  unfold SyncNode.ingestChunk at hingest
  split at hingest
  · cases hingest
  rename_i hdigest
  split at hingest
  · cases hingest
    exact h
  · rename_i stored hstored
    split at hingest
    · cases hingest
      refine h.insert _ fun chunkId hchunk => ?_
      rw [Std.ExtTreeMap.mem_insert] at hchunk
      obtain heq | hold := hchunk
      · refine ⟨Primitives.sha256 chunk.ciphertext, ?_⟩
        rw [← Table.compare_eq_iff.1 heq]
        exact (not_not.1 hdigest).symm
      · exact h _ stored hstored chunkId hold
    · cases hingest

/-- A restarted node holds no chunk. -/
theorem durable (keys : DeviceKeys) (label : String) (port : SyncPort) :
    Digested (SyncNode.durable keys label port).blobs := by
  have hreplay (es : List JournalEvent) {n : SyncNode} (hn : Digested n.blobs) :
      Digested (es.foldl (fun n e => (n.apply e).2) n).blobs := by
    induction es generalizing n with
    | nil => exact hn
    | cons e es ih => exact ih (hn.apply e)
  refine hreplay port.applied (n := .new keys label none) fun blobId stored hstored => ?_
  simp [SyncNode.new] at hstored

end Digested

/-! ## What is still to be sent -/

/-- The event was pushed to the bucket that a peer reads. -/
def PushedTo (pushed : List Pushed) (peer label : String) (e : JournalEvent) : Prop :=
  ∃ record ∈ pushed, record.bucket = bucketFor peer label ∧ record.event = e

section

variable [Primitives]

/-- The event waits in the outbox and is not marked as pushed to the peer. -/
structure Link.Waits (peer : String) (l : Link) (e : JournalEvent) : Prop where
  mem : e ∈ l.node.outbox
  unsent : l.sent e.eventId peer = false
  fits : ∃ seq ≤ i64Max, e.eventId = qualifiedId l.node.label seq

/-- Every own event that a node has applied was pushed to the peer or waits for
it. -/
structure Link.Outgoing (peer : String) (l : Link) : Prop where
  durable : l.node.port.isSome
  own : ∀ (id : String) e, l.node.applied[id]? = some e → e.origin = l.node.label →
    PushedTo l.pushed peer l.node.label e ∨ l.Waits peer e
  numbered : ∀ e ∈ l.node.outbox, ∃ seq < l.node.nextSeq, e.eventId = qualifiedId l.node.label seq
  nodup : (l.node.outbox.map JournalEvent.eventId).Nodup
  marks : ∀ key ∈ l.node.sentTo, (∃ seq < l.node.nextSeq, key = qualifiedId l.node.label seq) ∨
    ∃ digest : Bytes32, key = "blob:" ++ hexEncode digest.toList
  chunks : Digested l.node.blobs

omit [Primitives] in
theorem PushedTo.mono {pushed pushed' : List Pushed} {peer label : String} {e : JournalEvent}
    (h : PushedTo pushed peer label e) (hsub : pushed ⊆ pushed') : PushedTo pushed' peer label e := by
  obtain ⟨record, hrecord, hevent⟩ := h
  exact ⟨record, hsub hrecord, hevent⟩

omit [Primitives] in
/-- What admitting an event at a node over a port adds to the applied events. -/
theorem SyncNode.admitEvent_applied {n : SyncNode} (hport : n.port.isSome) (e : JournalEvent)
    {id : String} {x : JournalEvent} (hx : (n.admitEvent e).2.applied[id]? = some x) :
    n.applied[id]? = some x ∨ x = e ∧ e.originSeq ≤ i64Max := by
  by_cases hmem : e.eventId ∈ n.applied
  · have hsame : n.admitEvent e = (.ok (), n) := if_pos hmem
    rw [hsame] at hx
    exact .inl hx
  obtain ⟨p, hp⟩ := Option.isSome_iff_exists.1 hport
  obtain ⟨p', -, hjournal, -⟩ := SyncNode.admitEvent_port hmem hp
  have hcases := (n.admitEvent_learns e).applied_cases hx
  obtain ⟨-, -, hseq⟩ | ⟨-, -, hseq⟩ | ⟨-, -, hreplica⟩ := hjournal
  · exact hcases.imp_right fun hnew => ⟨hnew.2, hseq⟩
  · exact hcases.imp_right fun hnew => ⟨hnew.2, hseq⟩
  · have happlied : (n.admitEvent e).2.applied = n.applied := congrArg Replica.applied hreplica
    rw [happlied] at hx
    exact .inl hx

omit [Primitives] in
theorem SyncNode.admitEvent_isSome {n : SyncNode} (hport : n.port.isSome) (e : JournalEvent) :
    (n.admitEvent e).2.port.isSome := by
  obtain ⟨hnone, -⟩ | ⟨p, p', -, hp', -⟩ := (n.admitEvent_learns e).port
  · rw [hnone] at hport
    cases hport
  · rw [hp']
    rfl

namespace Link.Outgoing

variable {peer : String} {l l' : Link}

/-- What else a node does is no matter to its outbox. -/
theorem same (h : l.Outgoing peer) (hlabel : l'.node.label = l.node.label)
    (hport : l'.node.port.isSome) (happlied : l'.node.applied = l.node.applied)
    (houtbox : l'.node.outbox = l.node.outbox) (hsentTo : l'.node.sentTo = l.node.sentTo)
    (hnext : l'.node.nextSeq = l.node.nextSeq) (hpushed : l.pushed ⊆ l'.pushed)
    (hchunks : Digested l'.node.blobs) : l'.Outgoing peer where
  durable := hport
  own id e he horigin := by
    rw [happlied] at he
    rw [hlabel] at horigin ⊢
    obtain hdone | hwaits := h.own id e he horigin
    · exact .inl (hdone.mono hpushed)
    · refine .inr ⟨houtbox ▸ hwaits.mem, ?_, hlabel ▸ hwaits.fits⟩
      unfold Link.sent
      rw [hsentTo]
      exact hwaits.unsent
  numbered := by
    rw [houtbox, hnext, hlabel]
    exact h.numbered
  nodup := houtbox ▸ h.nodup
  marks := by
    rw [hsentTo, hnext, hlabel]
    exact h.marks
  chunks := hchunks

/-- An event of another origin. -/
theorem receive (h : l.Outgoing peer) {e : JournalEvent} (hforeign : e.origin ≠ l.node.label) :
    ({ l with node := (l.node.admitEvent e).2 } : Link).Outgoing peer := by
  have hlearns := l.node.admitEvent_learns e
  refine ⟨SyncNode.admitEvent_isSome h.durable e, fun id x hx horigin => ?_, ?_, ?_, ?_,
    h.chunks.admitEvent e⟩
  · rw [hlearns.label] at horigin ⊢
    obtain hold | ⟨rfl, -⟩ := SyncNode.admitEvent_applied h.durable e hx
    · refine (h.own id x hold horigin).imp_right fun hwaits => ⟨?_, ?_, ?_⟩
      · rw [hlearns.outbox]
        exact hwaits.mem
      · unfold Link.sent
        rw [hlearns.sentTo]
        exact hwaits.unsent
      · rw [hlearns.label]
        exact hwaits.fits
    · exact absurd horigin hforeign
  · rw [hlearns.outbox, hlearns.nextSeq, hlearns.label]
    exact h.numbered
  · rw [hlearns.outbox]
    exact h.nodup
  · rw [hlearns.sentTo, hlearns.nextSeq, hlearns.label]
    exact h.marks

variable [SyncCodec]

/-- An event of the node's own. -/
theorem createAdmit (h : l.Outgoing peer) (body : EventBody) :
    ({ l with node := (l.node.createAdmit body).2 } : Link).Outgoing peer := by
  rw [(l.node.createAdmit_eq body).1]
  let e := (l.node.create body).1
  have hlearns := (l.node.create body).2.admitEvent_learns e
  have hport : (l.node.create body).2.port.isSome := h.durable
  have hid : e.eventId = qualifiedId l.node.label l.node.nextSeq := rfl
  have houtbox : ((l.node.create body).2.admitEvent e).2.outbox = l.node.outbox ++ [e] :=
    hlearns.outbox
  have hlabel : ((l.node.create body).2.admitEvent e).2.label = l.node.label := hlearns.label
  have hnext : ((l.node.create body).2.admitEvent e).2.nextSeq = l.node.nextSeq + 1 :=
    hlearns.nextSeq
  have hsentTo : ((l.node.create body).2.admitEvent e).2.sentTo = l.node.sentTo := hlearns.sentTo
  have hsent (key : String) :
      ({ l with node := ((l.node.create body).2.admitEvent e).2 } : Link).sent key peer =
        l.sent key peer := by
    unfold Link.sent
    rw [hsentTo]
  refine ⟨SyncNode.admitEvent_isSome hport e, fun id x hx horigin => ?_, ?_, ?_, ?_,
    Digested.admitEvent (n := (l.node.create body).2) h.chunks e⟩
  · rw [hlabel] at horigin ⊢
    obtain hold | ⟨rfl, hseq⟩ := SyncNode.admitEvent_applied hport e hx
    · refine (h.own id x hold horigin).imp_right fun hwaits => ⟨?_, ?_, ?_⟩
      · rw [houtbox]
        exact List.mem_append_left _ hwaits.mem
      · rw [hsent]
        exact hwaits.unsent
      · rw [hlabel]
        exact hwaits.fits
    · refine .inr ⟨?_, ?_, ?_⟩
      · rw [houtbox]
        exact List.mem_append_right _ (List.mem_singleton.2 rfl)
      · -- Nothing with the new number was pushed yet.
        rw [hsent]
        have hnone : l.node.sentTo[e.eventId]? = none := by
          rw [← Table.not_mem_iff]
          intro hmark
          obtain ⟨seq, hlt, heq⟩ | ⟨digest, heq⟩ := h.marks _ hmark
          · rw [hid] at heq
            obtain ⟨-, rfl⟩ := qualifiedId_inj heq
            exact absurd hlt (lt_irrefl _)
          · exact chunkKey_ne l.node.label (hseq.trans (by decide)) digest (heq.symm.trans hid)
        simp [Link.sent, hnone]
      · rw [hlabel]
        exact ⟨l.node.nextSeq, hseq, rfl⟩
  · rw [houtbox, hlabel, hnext]
    intro x hx
    obtain hold | hnew := List.mem_append.1 hx
    · obtain ⟨seq, hlt, heq⟩ := h.numbered x hold
      exact ⟨seq, Nat.lt_succ_of_lt hlt, heq⟩
    · rw [List.mem_singleton.1 hnew]
      exact ⟨l.node.nextSeq, Nat.lt_succ_self _, hid⟩
  · rw [houtbox, List.map_append, List.nodup_append]
    refine ⟨h.nodup, List.nodup_singleton _, fun id hold id' hnew heq => ?_⟩
    obtain ⟨x, hx, rfl⟩ := List.mem_map.1 hold
    obtain ⟨seq, hlt, hxid⟩ := h.numbered x hx
    rw [List.map_singleton, List.mem_singleton] at hnew
    rw [hnew, hid, hxid] at heq
    obtain ⟨-, rfl⟩ := qualifiedId_inj heq
    exact absurd hlt (lt_irrefl _)
  · rw [hsentTo, hlabel, hnext]
    intro key hkey
    refine (h.marks key hkey).imp_left ?_
    rintro ⟨seq, hlt, heq⟩
    exact ⟨seq, Nat.lt_succ_of_lt hlt, heq⟩

/-- One more thing pushed to one of the peers. -/
theorem push (h : l.Outgoing peer) {other key pushId : String} {payload : SyncPayload}
    {record : Option JournalEvent} (hfans : l.Fans other key pushId payload record)
    (hpush : l.sealAndPush other key pushId payload record = (.ok 1, l')) : l'.Outgoing peer := by
  obtain ⟨channels, envelope, outbound, outcome, relay, -, -, -, rfl⟩ := Link.sealAndPush_ok hpush
  have hpushed (x : Pushed) (hx : x ∈ l.pushed) :
      x ∈ recordPush l.pushed (bucketFor other l.node.label) outcome record :=
    mem_recordPush.2 (.inl hx)
  refine ⟨h.durable, fun id e he horigin => ?_, h.numbered, h.nodup, fun x hx => ?_, h.chunks⟩
  · obtain hdone | hwaits := h.own id e he horigin
    · exact .inl (hdone.mono hpushed)
    have hkeeps (hkey : key ≠ e.eventId) : (l.node.sentTo.insert key
        ((l.node.sentTo[key]?.getD ∅).insert other))[e.eventId]? = l.node.sentTo[e.eventId]? :=
      Table.getElem?_insert_of_ne _ _ hkey
    cases hfans with
    | @event sent hmem hunsent =>
      by_cases hkey : sent.eventId = e.eventId
      · have hsame : sent = e := List.inj_on_of_nodup_map h.nodup hmem hwaits.mem hkey
        subst hsame
        by_cases hother : other = peer
        · subst hother
          exact .inl ⟨_, mem_recordPush.2 (.inr ⟨sent, rfl, rfl⟩), rfl, rfl⟩
        · refine .inr ⟨hwaits.mem, ?_, hwaits.fits⟩
          have hunsent' := hwaits.unsent
          simp only [Link.sent, decide_eq_false_iff_not] at hunsent' ⊢
          rw [Table.getElem?_insert_same, Option.getD_some, Std.ExtTreeSet.mem_insert,
            Std.LawfulEqCmp.compare_eq_iff_eq]
          exact fun hor => hor.elim hother hunsent'
      · refine .inr ⟨hwaits.mem, ?_, hwaits.fits⟩
        simp only [Link.sent, hkeeps hkey]
        exact hwaits.unsent
    | @chunk blobId chunkId stored entry hblob hentry hheld =>
      refine .inr ⟨hwaits.mem, ?_, hwaits.fits⟩
      have hkey : "blob:" ++ chunkId ≠ e.eventId := by
        obtain ⟨digest, rfl⟩ := h.chunks _ _ hblob _ hheld
        obtain ⟨seq, hseq, hid⟩ := hwaits.fits
        rw [hid]
        exact chunkKey_ne l.node.label (hseq.trans (by decide)) digest
      simp only [Link.sent, hkeeps hkey]
      exact hwaits.unsent
  · rw [Std.ExtTreeMap.mem_insert] at hx
    obtain heq | hold := hx
    · rw [← Table.compare_eq_iff.1 heq]
      cases hfans with
      | event hmem hunsent => exact .inl (h.numbered _ hmem)
      | chunk hblob hentry hheld =>
        obtain ⟨digest, hdigest⟩ := h.chunks _ _ hblob _ hheld
        exact .inr ⟨digest, by rw [hdigest]⟩
    · exact h.marks x hold

theorem writes (h : l.Outgoing peer) (hmove : l.Writes l') : l'.Outgoing peer := by
  cases hmove with
  | relay hsame => exact h.same rfl h.durable rfl rfl rfl rfl (List.Subset.refl _) h.chunks
  | outbound hpeer outbound =>
    exact h.same rfl h.durable rfl rfl rfl rfl (List.Subset.refl _) h.chunks
  | push hfans hpush => exact h.push hfans hpush

variable {C : Prop}

/-- Reading mail of other origins. -/
theorem reads (h : l.Outgoing peer) (hforeign : ∀ wire, l.Mail wire → wire.origin ≠ l.node.label)
    (hmove : l.Reads C l') : l'.Outgoing peer := by
  cases hmove with
  | relay hsame => exact h.same rfl h.durable rfl rfl rfl rfl (List.Subset.refl _) h.chunks
  | channels hpeer hidentity houtbound =>
    exact h.same rfl h.durable rfl rfl rfl rfl (List.Subset.refl _) h.chunks
  | cursor peer cursor hport => exact h.same rfl rfl rfl rfl rfl rfl (List.Subset.refl _) h.chunks
  | blobs hingest =>
    exact h.same rfl h.durable rfl rfl rfl rfl (List.Subset.refl _) (h.chunks.ingestChunk hingest)
  | admitEvent hgenuine hfresh hok => exact h.receive (hforeign _ hgenuine.mail)

end Link.Outgoing

/-! ## Runs -/

variable [SyncCodec]

/-- Nobody else names the node as an origin, chunks are kept under digests, and a
restart of the node finds all its own events pushed to the peer. -/
def Drained (label peer : String) (s : System) : VaultInput → Prop
  | .system (.node x (.putBlob _ blob)) => x = label → ∀ chunkId ∈ blob.chunks,
      ∃ digest : Bytes32, chunkId = hexEncode digest.toList
  | .system (.poll x) => x = label → ∀ wire, (s.link label).Mail wire → wire.origin ≠ label
  | .system (.flush x _) => x = label → ∀ wire, (s.link label).Mail wire → wire.origin ≠ label
  | .system (.restart x) => x = label → ∀ port, (s.nodes label).port = some port →
      ∀ e ∈ port.applied, e.origin = label → PushedTo s.pushed peer label e
  | _ => True

/-- No mail names the node as its origin. -/
def Link.Foreign (l : Link) : Prop := ∀ wire, l.Mail wire → wire.origin ≠ l.node.label

theorem Link.Foreign.reads {C : Prop} {l l' : Link} (h : l.Foreign) (hmove : l.Reads C l') :
    l'.Foreign := by
  intro wire hwire
  rw [hmove.mail] at hwire
  rw [hmove.label]
  exact h wire hwire

theorem Link.Outgoing.poll {peer : String} {l : Link} (h : l.Outgoing peer) (hforeign : l.Foreign) :
    l.poll.2.Outgoing peer :=
  (Link.poll_invariant (C := False) (I := fun l => l.Outgoing peer ∧ l.Foreign)
    (fun _ _ hl hmove => ⟨hl.1.reads hl.2 hmove, hl.2.reads hmove⟩) ⟨h, hforeign⟩ False.elim).1

theorem Link.Outgoing.flush {peer : String} {l : Link} (h : l.Outgoing peer) (hforeign : l.Foreign)
    (seed : Bytes32) : (l.flush seed).2.Outgoing peer := by
  obtain ⟨polled, hpolled, -, hfail | ⟨-, hwrites⟩⟩ := l.flush_moves (C := False) seed False.elim
  · rw [hfail, hpolled]
    exact h.poll hforeign
  · rw [hpolled] at hwrites
    exact Link.invariant_of_moves (I := fun l => l.Outgoing peer)
      (fun _ _ hl hmove => hl.writes hmove) ((h.poll hforeign).createAdmit _) hwrites

/-- The record of pushes only grows. -/
theorem vaultStep_pushed (s : System) (i : VaultInput) : s.pushed ⊆ (vaultStep s i).pushed := by
  have hreads (l : Link) : ∀ l₁ l₂ : Link, l.pushed ⊆ l₁.pushed → l₁.Reads False l₂ →
      l.pushed ⊆ l₂.pushed := by
    intro l₁ l₂ h hmove
    rw [hmove.pushed]
    exact h
  have hwrites (l : Link) : ∀ l₁ l₂ : Link, l.pushed ⊆ l₁.pushed → l₁.Writes l₂ →
      l.pushed ⊆ l₂.pushed := by
    intro l₁ l₂ h hmove
    cases hmove with
    | relay hsame => exact h
    | outbound hpeer outbound => exact h
    | push hfans hpush =>
      obtain ⟨_, _, _, _, _, -, -, -, rfl⟩ := Link.sealAndPush_ok hpush
      exact fun record hrecord => mem_recordPush.2 (.inl (h hrecord))
  cases i with
  | send bucket id envelope => exact List.Subset.refl _
  | compactRelay bucket => exact List.Subset.refl _
  | compactTombstones label => exact List.Subset.refl _
  | system input =>
    obtain hsame | ⟨hstep, -⟩ := vaultStep_system s input
    · rw [hsame]
      exact List.Subset.refl _
    rw [hstep]
    cases input with
    | node label input => exact List.Subset.refl _
    | poll label =>
      exact Link.poll_invariant (I := fun l => s.pushed ⊆ l.pushed) (hreads (s.link label))
        (List.Subset.refl _) False.elim
    | flush label seed =>
      exact Link.flush_invariant (I := fun l => s.pushed ⊆ l.pushed) (hreads (s.link label))
        (fun _ h _ => h) (hwrites (s.link label)) (List.Subset.refl _) seed False.elim
    | restart label =>
      simp only [systemStep]
      split <;> exact List.Subset.refl _
    | pair a b epoch epochSeq aToB bToA =>
      simp only [systemStep]
      split
      · exact List.Subset.refl _
      · split <;> exact List.Subset.refl _

theorem Link.Outgoing.nodeStep {peer : String} {l : Link} (h : l.Outgoing peer) {i : NodeInput}
    (hlocal : ∀ e, i ≠ .receive e)
    (hblob : ∀ blobId blob, i = .putBlob blobId blob → ∀ chunkId ∈ blob.chunks,
      ∃ digest : Bytes32, chunkId = hexEncode digest.toList) :
    ({ l with node := nodeStep l.node i } : Link).Outgoing peer := by
  obtain ⟨count, heq⟩ | ⟨faults, heq⟩ | ⟨blobs, body, hblobs, -, heq, -⟩ :=
    nodeStep_local l.node i hlocal <;> rw [heq]
  · exact h.same rfl h.durable rfl rfl rfl rfl (List.Subset.refl _) h.chunks
  · refine h.same rfl ?_ rfl rfl rfl rfl (List.Subset.refl _) h.chunks
    rw [Option.isSome_map]
    exact h.durable
  · have hdigested : Digested blobs := by
      obtain rfl | ⟨blobId, blob, hput, rfl⟩ := hblobs
      · exact h.chunks
      · exact h.chunks.insert blobId (hblob blobId blob hput)
    have hput : ({ l with node := { l.node with blobs := blobs } } : Link).Outgoing peer :=
      h.same rfl h.durable rfl rfl rfl rfl (List.Subset.refl _) hdigested
    exact hput.createAdmit body

omit [SyncCodec] in
/-- A restarted node has everything of its own pushed, if its journal was. -/
theorem outgoing_durable {peer label : String} {keys : DeviceKeys} {port : SyncPort}
    {relay : Relay Envelope} {pushed : List Pushed}
    (hdrained : ∀ e ∈ port.applied, e.origin = label → PushedTo pushed peer label e) :
    (⟨.durable keys label port, relay, pushed⟩ : Link).Outgoing peer := by
  obtain ⟨hlabel, -, -, houtbox, hsentTo⟩ := durable_frame keys label port
  refine ⟨rfl, fun id e he horigin => .inl ?_, ?_, ?_, ?_, .durable keys label port⟩
  · rw [hlabel] at horigin ⊢
    exact hdrained e (mem_journal_of_durable he).1 horigin
  · rw [houtbox]
    exact fun _ h => absurd h List.not_mem_nil
  · rw [houtbox]
    exact List.nodup_nil
  · rw [hsentTo]
    exact fun key hkey => absurd hkey (by simp)

theorem outgoing_vaultStep {label peer : String} {s : System}
    (h : (s.nodes label).label = label ∧ (s.link label).Outgoing peer) (i : VaultInput)
    (hok : Drained label peer s i) :
    ((vaultStep s i).nodes label).label = label ∧ ((vaultStep s i).link label).Outgoing peer := by
  obtain ⟨hlabel, hout⟩ := h
  have hpushed := vaultStep_pushed s i
  have hmoves := vaultStep_moves s i label
  have hgrow {n' : SyncNode} (hn' : (⟨n', s.relay, s.pushed⟩ : Link).Outgoing peer) :
      (⟨n', (vaultStep s i).relay, (vaultStep s i).pushed⟩ : Link).Outgoing peer :=
    hn'.same rfl hn'.durable rfl rfl rfl rfl hpushed hn'.chunks
  have hforeign (hmail : ∀ wire, (s.link label).Mail wire → wire.origin ≠ label) :
      (s.link label).Foreign := by
    intro wire hwire
    have hname : (s.link label).node.label = label := hlabel
    rw [hname]
    exact hmail wire hwire
  change ((vaultStep s i).nodes label).label = label ∧
    (⟨(vaultStep s i).nodes label, (vaultStep s i).relay, (vaultStep s i).pushed⟩ : Link).Outgoing peer
  generalize (vaultStep s i).nodes label = n' at hmoves ⊢
  cases hmoves with
  | stay => exact ⟨hlabel, hgrow hout⟩
  | @step input hlocal =>
    refine ⟨(nodeStep_extends (s.nodes label) input).label.trans hlabel,
      hgrow (Link.Outgoing.nodeStep hout hlocal ?_)⟩
    rintro blobId blob rfl
    exact hok rfl
  | poll =>
    have hreads := (s.link label).poll_moves (C := False) False.elim
    exact ⟨(Link.sameMail_of_reads hreads).label.trans hlabel, hout.poll (hforeign (hok rfl))⟩
  | flush seed =>
    exact ⟨((s.link label).flush_label seed).trans hlabel,
      hout.flush (hforeign (hok rfl)) seed⟩
  | restart hport =>
    exact ⟨(durable_frame ..).1, hgrow (outgoing_durable (hok rfl _ hport))⟩
  | pair hidentity =>
    exact ⟨hlabel, hout.same rfl hout.durable rfl rfl rfl rfl hpushed hout.chunks⟩
  | compact =>
    refine ⟨hlabel, hout.same rfl ?_ rfl rfl rfl rfl hpushed hout.chunks⟩
    rw [Option.isSome_map]
    exact hout.durable

/-- **Nothing is forgotten before it is sent.**  In every run of the vault whose
restarts of a durable node find the node's own events pushed to a peer, each own
event the node has applied was pushed to that peer's bucket or waits for it in the
outbox. -/
theorem own_pushed_or_waiting (policy : RelayPolicy) (keys : String → DeviceKeys)
    (isDurable : String → Bool) (inputs : List VaultInput) (label peer : String)
    (hdurable : isDurable label = true)
    (hok : (vaultMachine policy keys isDurable).Meets (Drained label peer)
      (vaultMachine policy keys isDurable).init inputs)
    (id : String) (e : JournalEvent)
    (he : (((vaultMachine policy keys isDurable).run inputs).nodes label).applied[id]? = some e)
    (horigin : e.origin = label) :
    let s := (vaultMachine policy keys isDurable).run inputs
    PushedTo s.pushed peer label e ∨
      e ∈ (s.nodes label).outbox ∧ (s.link label).sent e.eventId peer = false := by
  have hinit : ((vaultMachine policy keys isDurable).init.link label).Outgoing peer := by
    refine ⟨?_, fun id e he _ => ?_, fun e he => ?_, List.nodup_nil, fun key hkey => ?_,
      fun blobId stored hstored => ?_⟩
    · simp [vaultMachine, systemMachine, System.link, SyncNode.new, hdurable]
    · simp [vaultMachine, systemMachine, System.link, SyncNode.new] at he
    · cases he
    · simp [vaultMachine, systemMachine, System.link, SyncNode.new] at hkey
    · simp [vaultMachine, systemMachine, System.link, SyncNode.new] at hstored
  obtain ⟨hlabel, hout⟩ : (((vaultMachine policy keys isDurable).run inputs).nodes label).label =
        label ∧ (((vaultMachine policy keys isDurable).run inputs).link label).Outgoing peer :=
    Machine.invariant_of_meets _
      (I := fun s : System => (s.nodes label).label = label ∧ (s.link label).Outgoing peer)
      (fun s i h hok => outgoing_vaultStep h i hok) ⟨rfl, hinit⟩ hok
  have hname : (((vaultMachine policy keys isDurable).run inputs).link label).node.label = label :=
    hlabel
  obtain hdone | hwaits := hout.own id e he (horigin.trans hname.symm)
  · rw [hname] at hdone
    exact .inl hdone
  · exact .inr ⟨hwaits.mem, hwaits.unsent⟩

end

section

attribute [local instance] idealPrimitives idealSyncCodec

/-- A memory sent to `b` before the restart, and a document written after it. -/
def flushedRestart : List VaultInput :=
  [.system (pairing 1 1), .system (.node "a" (.proposeMemory "m" "tea")),
    .system (.flush "a" (Vector.replicate 32 9)), .system (.restart "a"),
    .system (.node "a" (.appendDocument "d" "from a"))]

theorem own_pushed_or_waiting_restarted :
    let s := (vaultMachine .permissive pairKeys fun _ => true).run flushedRestart
    (s.nodes "a").applied.keys = ["a:1", "a:2", "a:3"] ∧
      ∀ (id : String) e, (s.nodes "a").applied[id]? = some e → e.origin = "a" →
        PushedTo s.pushed "b" "a" e ∨
          e ∈ (s.nodes "a").outbox ∧ (s.link "a").sent e.eventId "b" = false := by
  intro s
  let flushing := (vaultMachine .permissive pairKeys fun _ => true).run (flushedRestart.take 2)
  let restarting := (vaultMachine .permissive pairKeys fun _ => true).run (flushedRestart.take 3)
  have hforeign (wire : WireEvent) (hmail : (flushing.link "a").Mail wire) : wire.origin ≠ "a" := by
    obtain ⟨peer, hpeer, item, hitem, -⟩ := hmail
    have hempty : ∀ peer ∈ (flushing.link "a").node.peers.keys,
        (flushing.link "a").relay.queue (bucketFor (flushing.link "a").node.label peer) = [] := by
      decide +kernel
    rw [hempty peer (Std.ExtTreeMap.mem_keys.2 hpeer)] at hitem
    cases hitem
  have hdrained (port : SyncPort) (hport : (restarting.nodes "a").port = some port) :
      ∀ e ∈ port.applied, e.origin = "a" → PushedTo restarting.pushed "b" "a" e := by
    have hall : ∀ port ∈ (restarting.nodes "a").port, ∀ e ∈ port.applied, e.origin = "a" →
        ∃ record ∈ restarting.pushed, record.bucket = bucketFor "b" "a" ∧ record.event = e := by
      decide +kernel
    exact hall port hport
  refine ⟨by decide +kernel, fun id e he horigin => ?_⟩
  exact own_pushed_or_waiting .permissive pairKeys (fun _ => true) flushedRestart "a" "b" rfl
    ⟨trivial, trivial, fun _ => hforeign, fun _ => hdrained, trivial, trivial⟩ id e he horigin

/-- An event that is created before a restart and flushed after it: the restarted
node has it, has paired, has not pushed it and does not keep it for sending. -/
theorem own_event_lost_by_restart :
    let s := (vaultMachine .permissive pairKeys fun _ => true).run
      [.system (.node "a" (.appendDocument "d" "from a")), .system (.restart "a"),
        .system (pairing 1 1), .system (.flush "a" (Vector.replicate 32 9))]
    "b" ∈ (s.nodes "a").peers ∧
      ((s.nodes "a").applied["a:1"]?.map JournalEvent.origin) = some "a" ∧
      (∀ record ∈ s.pushed, record.event.eventId ≠ "a:1") ∧
      (∀ e ∈ (s.nodes "a").outbox, e.eventId ≠ "a:1") := by
  decide +kernel

end

end Altior.Sync
