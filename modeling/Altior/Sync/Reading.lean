import Altior.Sync.Receiver

/-!
# Reading mail

What it takes to read the mail of a poll, as a predicate on the node and the
queues before it, and what processing one envelope then does.
-/

namespace Altior.Sync

open Lib Crypto

/-- The part of a node that reading mail depends on. -/
structure Reading where
  channel : String → Option (DeviceIdentity × SessionV2)
  applied : Table String JournalEvent
  journal : Option (List JournalEvent)
  blobs : Table String StoredBlob

def SyncNode.reading (n : SyncNode) : Reading where
  channel peer := n.peers[peer]?.map fun channels => (channels.identity, channels.inbound)
  applied := n.applied
  journal := n.port.map SyncPort.applied
  blobs := n.blobs

namespace Reading

/-- The event is applied and recorded. -/
def holds (r : Reading) (e : JournalEvent) : Bool :=
  r.applied[e.eventId]? = some e ∧ ∀ journal ∈ r.journal, e ∈ journal

/-- No other event was applied or recorded under the event's id, and it can be
recorded. -/
def takes (r : Reading) (e : JournalEvent) : Bool :=
  r.holds e ∨ (e.eventId ∉ r.applied ∧
    ∀ journal ∈ r.journal, e.fits = true ∧
      ∀ other ∈ journal, other.eventId = e.eventId → other = e)

def setSession (r : Reading) (peer : String) (identity : DeviceIdentity) (inbound : SessionV2) :
    Reading :=
  { r with channel := fun p => if peer = p then some (identity, inbound) else r.channel p }

/-- The blobs once an event is applied. -/
def addBlob (blobs : Table String StoredBlob) (e : JournalEvent) : Table String StoredBlob :=
  match e.body with
  | .blobAdded blobId totalSize entries =>
    blobs.insert blobId
      { blobs[blobId]?.getD ⟨0, [], ∅⟩ with totalSize := totalSize, entries := entries }
  | _ => blobs

/-- The event once admitted. -/
def add (r : Reading) (e : JournalEvent) : Reading :=
  if e.eventId ∈ r.applied then r
  else { r with
    applied := r.applied.insert e.eventId e
    journal := r.journal.map fun journal =>
      if journal.any fun x => x.eventId == e.eventId then journal else journal ++ [e]
    blobs := addBlob r.blobs e }

end Reading

/-- An envelope at a position of a peer's bucket. -/
structure Mail [Primitives] where
  peer : String
  seq : Nat
  envelope : Envelope

section

variable [Primitives]

/-- Whatever event was pushed at the position is held. -/
def known (pushed : List Pushed) (label : String) (r : Reading) (mail : Mail) : Bool :=
  ∀ record ∈ pushed, record.bucket = bucketFor label mail.peer → record.seq = mail.seq →
    r.holds record.event

variable [SyncCodec]

/-- An opened event is the peer's own and verifies. -/
def genuine (identity : DeviceIdentity) (wire : WireEvent) (signature : Signature) : Bool :=
  identity.id = wire.origin ∧ Primitives.verify identity.ed25519Public
    (SyncCodec.canonicalBytes wire.eventId wire.origin wire.originSeq wire.body) signature

/-- The mail of a poll can be read: each envelope opens in turn with the inbound
session and carries a genuine event whose id no other event has, or a chunk that
is accepted; mail of an older epoch carries what is held already.  Reading may
break off where everything left is held already. -/
def readable (pushed : List Pushed) (label : String) : Reading → List Mail → Bool
  | _, [] => true
  | r, mail :: mails =>
    (mail :: mails).all (known pushed label r) ||
    match r.channel mail.peer with
    | none => false
    | some (identity, inbound) =>
      match inbound.openEnvelope mail.envelope with
      | (.error (.epochMismatch expectedSeq foundSeq), inbound) =>
        foundSeq < expectedSeq && known pushed label r mail &&
          readable pushed label (r.setSession mail.peer identity inbound) mails
      | (.error _, _) => false
      | (.ok plain, inbound) =>
        match SyncCodec.fromSlice plain with
        | none => false
        | some (.chunk chunk) =>
          match SyncNode.ingestChunk r.blobs mail.peer chunk with
          | .error _ => false
          | .ok blobs =>
            let r := r.setSession mail.peer identity inbound
            readable pushed label { r with blobs := blobs } mails
        | some (.event wire) =>
          match toSignature wire.signature with
          | none => false
          | some signature =>
            genuine identity wire signature && r.takes (wire.toJournal signature) &&
              readable pushed label
                ((r.setSession mail.peer identity inbound).add (wire.toJournal signature))
                mails

namespace Link

/-- The mail of a peer after the fetch position. -/
def pending (l : Link) (peer : String) : List Mail :=
  match l.node.cursorOf peer with
  | none => []
  | some cursor =>
    (l.relay.queueAfter (bucketFor l.node.label peer) cursor).map
      fun item => ⟨peer, item.1, item.2⟩

/-- A poll of the node can read all mail and no call to its port will fail. -/
def readable (l : Link) : Bool :=
  (∀ port ∈ l.node.port, port.faults = []) ∧
    Sync.readable l.pushed l.node.label l.node.reading (l.node.peers.keys.flatMap l.pending)

end Link

end

/-! ## One envelope -/

/-- No call to the node's port will fail. -/
def NoFaults (n : SyncNode) : Prop := ∀ port, n.port = some port → port.faults = []

variable {e : JournalEvent} {n : SyncNode}

theorem holds_reading : n.reading.holds e = true ↔ n.Holds e := by
  cases hport : n.port <;> simp [Reading.holds, SyncNode.Holds, SyncNode.reading, hport]

section

variable [Primitives] {pushed : List Pushed}

/-- Whatever event was pushed at the position is held by the node. -/
def Known (pushed : List Pushed) (n : SyncNode) (mail : Mail) : Prop :=
  ∀ record ∈ pushed, record.bucket = bucketFor n.label mail.peer → record.seq = mail.seq →
    n.Holds record.event

theorem known_reading {mail : Mail} :
    known pushed n.label n.reading mail = true ↔ Known pushed n mail := by
  simp [known, Known, holds_reading]

theorem Known.extends {n' : SyncNode} {mail : Mail} (h : Known pushed n mail)
    (hext : n.Extends n') : Known pushed n' mail := by
  intro record hrecord hbucket hseq
  rw [hext.label] at hbucket
  exact hext.holds (h record hrecord hbucket hseq)

variable [SyncCodec]

theorem readable_of_known {mails : List Mail} (h : ∀ mail ∈ mails, Known pushed n mail) :
    readable pushed n.label n.reading mails = true := by
  cases mails with
  | nil => rfl
  | cons mail mails =>
    have hall : (mail :: mails).all (known pushed n.label n.reading) = true := by
      rw [List.all_eq_true]
      intro x hx
      exact known_reading.2 (h x hx)
    rw [readable, hall, Bool.true_or]

end

namespace SyncNode

/-- Applying an event to a node whose port works. -/
theorem apply_reading (hfaults : NoFaults n) (hfits : ∀ port, n.port = some port → e.fits = true) :
    (n.apply e).1 = .ok () ∧ NoFaults (n.apply e).2 ∧
      (n.apply e).2.reading = { n.reading with
        applied := n.applied.insert e.eventId e, blobs := Reading.addBlob n.blobs e } := by
  unfold apply Reading.addBlob
  cases hbody : e.body with
  | memoryForgotten memoryId at_ digest =>
    simp only [applyForget]
    split
    · exact ⟨rfl, hfaults, rfl⟩
    · rename_i port hport
      have hcall : port.call = (false, port) := by
        rw [SyncPort.call, hfaults port hport]
      have hat : ¬ i64Max < at_ := by
        have he := hfits port hport
        simp only [JournalEvent.fits, hbody, Bool.and_eq_true, decide_eq_true_eq] at he
        exact not_lt.2 he.2
      simp only [SyncPort.recordTombstone, hat, if_false, hcall]
      refine ⟨trivial, ?_, ?_⟩
      · rintro _ ⟨⟩
        exact hfaults port hport
      · simp [reading, hport]
  | memoryProposed memoryId content =>
    simp only
    split <;> exact ⟨rfl, hfaults, rfl⟩
  | documentAppend docId entry => exact ⟨rfl, hfaults, rfl⟩
  | ack frontiers => exact ⟨rfl, hfaults, rfl⟩
  | blobAdded blobId totalSize entries => exact ⟨rfl, hfaults, rfl⟩

/-- Admitting a fresh event at a node whose port works. -/
theorem admitEvent_reading (hfaults : NoFaults n)
    (hfits : ∀ port, n.port = some port → e.fits = true) (hfresh : e.eventId ∉ n.applied) :
    (n.admitEvent e).1 = .ok () ∧ NoFaults (n.admitEvent e).2 ∧
      (n.admitEvent e).2.reading = n.reading.add e := by
  have hfresh' : e.eventId ∉ n.reading.applied := hfresh
  simp only [admitEvent, hfresh, if_false, Reading.add, hfresh']
  split
  · rename_i hport
    obtain ⟨hok, hfaults', hreading⟩ := apply_reading hfaults hfits
    refine ⟨hok, hfaults', hreading.trans ?_⟩
    simp [reading, hport]
  · rename_i port hport
    have hcall : port.call = (false, port) := by
      rw [SyncPort.call, hfaults port hport]
    have hseq : ¬ i64Max < e.originSeq := by
      have he := hfits port hport
      simp only [JournalEvent.fits, Bool.and_eq_true, decide_eq_true_eq] at he
      exact not_lt.2 he.1
    simp only [SyncPort.recordApplied, hseq, if_false, hcall]
    by_cases hknown : (port.applied.any fun x => x.eventId == e.eventId) = true
    · have hfaults' : NoFaults { n with port := some port } := by
        rintro _ ⟨⟩
        exact hfaults port hport
      obtain ⟨hok, hfaults'', hreading⟩ := apply_reading hfaults' fun _ _ => hfits port hport
      simp only [hknown, if_true]
      refine ⟨hok, hfaults'', hreading.trans ?_⟩
      simp only [reading, hport, Option.map_some, hknown, if_true]
    · have hfaults' : NoFaults { n with
          port := some { port with applied := port.applied ++ [e] } } := by
        rintro _ ⟨⟩
        exact hfaults port hport
      obtain ⟨hok, hfaults'', hreading⟩ := apply_reading hfaults' fun _ _ => hfits port hport
      simp only [hknown]
      refine ⟨hok, hfaults'', hreading.trans ?_⟩
      simp only [reading, hport, Option.map_some, hknown]
      rfl

end SyncNode

namespace SyncPort

variable {p q : SyncPort}

theorem call_faults {fault : Bool} (hp : p.faults = []) (hcall : p.call = (fault, q)) :
    q.faults = [] := by
  rw [call, hp] at hcall
  cases hcall
  exact hp

theorem recordApplied_faults (hp : p.faults = []) (e : JournalEvent) :
    (p.recordApplied e).2.faults = [] := by
  unfold recordApplied
  split
  · exact hp
  · split <;> rename_i hcall <;> have hfaults := call_faults hp hcall
    · exact hfaults
    · split <;> exact hfaults

theorem recordTombstone_faults (hp : p.faults = []) (memoryId : String) (mark : TombstoneMark)
    (at_ : Nat) : (p.recordTombstone memoryId mark at_).2.faults = [] := by
  unfold recordTombstone
  split
  · exact hp
  · split <;> rename_i hcall <;> have hfaults := call_faults hp hcall <;> exact hfaults

end SyncPort

theorem NoFaults.apply (h : NoFaults n) (e : JournalEvent) : NoFaults (n.apply e).2 := by
  unfold SyncNode.apply
  cases e.body with
  | memoryForgotten memoryId at_ digest =>
    simp only [SyncNode.applyForget]
    split
    · exact h
    · rename_i port hport
      have hfaults := SyncPort.recordTombstone_faults (h port hport) memoryId
        ⟨digest, e.origin, e.originSeq⟩ at_
      split <;> rename_i heq <;> rw [heq] at hfaults <;> rintro _ ⟨⟩ <;> exact hfaults
  | memoryProposed memoryId content =>
    dsimp only
    split <;> exact h
  | documentAppend docId entry => exact h
  | ack frontiers => exact h
  | blobAdded blobId totalSize entries => exact h

theorem NoFaults.admitEvent (h : NoFaults n) (e : JournalEvent) : NoFaults (n.admitEvent e).2 := by
  unfold SyncNode.admitEvent
  split
  · exact h
  split
  · exact h.apply e
  · rename_i port hport
    have hfaults := SyncPort.recordApplied_faults (h port hport) e
    split <;> rename_i heq <;> rw [heq] at hfaults
    · rintro _ ⟨⟩
      exact hfaults
    · refine NoFaults.apply ?_ e
      rintro _ ⟨⟩
      exact hfaults

/-- An event that is taken is held once it is added. -/
theorem Reading.holds_add {r : Reading} (h : r.takes e = true) : (r.add e).holds e = true := by
  simp only [takes, decide_eq_true_eq] at h
  unfold add
  split
  · rename_i hmem
    obtain hholds | ⟨hfresh, -⟩ := h
    · exact hholds
    · exact absurd hmem hfresh
  · rename_i hfresh
    obtain hholds | ⟨-, hother⟩ := h
    · simp only [holds, decide_eq_true_eq] at hholds
      exact absurd (Table.mem_iff.2 ⟨e, hholds.1⟩) hfresh
    · simp only [holds, decide_eq_true_eq, Table.getElem?_insert_same, true_and]
      intro journal hjournal
      obtain ⟨old, hold, rfl⟩ := Option.mem_map.1 hjournal
      split
      · rename_i hany
        obtain ⟨x, hx, hid⟩ := List.any_eq_true.1 hany
        exact (hother old hold).2 x hx (by simpa using hid) ▸ hx
      · exact List.mem_append_right _ (List.mem_singleton.2 rfl)

/-- An event that is taken is known or fits. -/
theorem Reading.fits_of_takes {r : Reading} (h : r.takes e = true) :
    (e.eventId ∈ r.applied || r.journal.isNone || e.fits) = true := by
  simp only [takes, decide_eq_true_eq] at h
  obtain hholds | ⟨-, hothers⟩ := h
  · simp only [holds, decide_eq_true_eq] at hholds
    simp [Table.mem_iff.2 ⟨e, hholds.1⟩]
  · cases hjournal : r.journal with
    | none => simp
    | some journal => simp [(hothers journal hjournal).1]

theorem SyncNode.reading_setInbound (n : SyncNode) (peer : String) (channels : PeerChannels)
    (inbound : SessionV2) :
    (n.setInbound peer channels inbound).reading =
      n.reading.setSession peer channels.identity inbound := by
  simp only [setInbound, reading, Reading.setSession, Reading.mk.injEq, and_self, and_true]
  funext p
  rw [Table.getElem?_insert_eq]
  split <;> rfl

section

variable [Primitives] [SyncCodec]

/-- Of an event from a peer the node remembers nothing, or admits it. -/
theorem SyncNode.receiveWire_cases (n : SyncNode) (identity : DeviceIdentity) (wire : WireEvent) :
    (n.receiveWire identity wire).2 = n ∨
      ∃ e, (n.receiveWire identity wire).2 = (n.admitEvent e).2 := by
  unfold receiveWire
  split
  · exact .inl rfl
  split
  · exact .inl rfl
  rename_i signature _
  split
  · split
    · exact .inl rfl
    · refine .inr ⟨wire.toJournal signature, ?_⟩
      split <;> rename_i heq <;> rw [heq]
  · exact .inl rfl

/-- Whatever becomes of an envelope, it moves the session with its peer, and at most a
chunk is taken in or an event is admitted. -/
theorem SyncNode.pollItem_cases {peer : String} {channels : PeerChannels}
    (hpeer : n.peers[peer]? = some channels) (item : FetchedItem Envelope) :
    ∃ n' : SyncNode,
      n' = n.setInbound peer channels (channels.inbound.openEnvelope item.payload).2 ∧
      ((∃ blobs, (pollItem peer n item).2 = { n' with blobs := blobs }) ∨
        ∃ e, (pollItem peer n item).2 = (n'.admitEvent e).2) := by
  refine ⟨_, rfl, ?_⟩
  simp only [pollItem, hpeer]
  rcases channels.inbound.openEnvelope item.payload with ⟨opened, inbound⟩
  dsimp only
  split
  · split <;> exact .inl ⟨_, rfl⟩
  · exact .inl ⟨_, rfl⟩
  split
  · exact .inl ⟨_, rfl⟩
  · split <;> exact .inl ⟨_, rfl⟩
  · rename_i wire _
    obtain h | h :=
      (n.setInbound peer channels inbound).receiveWire_cases channels.identity wire
    · exact .inl ⟨_, h⟩
    · exact .inr h

theorem SyncNode.pollItem_extends (peer : String) (n : SyncNode) (item : FetchedItem Envelope) :
    n.Extends (pollItem peer n item).2 := by
  cases hpeer : n.peers[peer]? with
  | none =>
    simp only [pollItem, hpeer]
    exact .refl n
  | some channels =>
    obtain ⟨n', hset, ⟨blobs, h⟩ | ⟨e, h⟩⟩ := pollItem_cases hpeer item <;> rw [h]
    all_goals have hextends : n.Extends n' := hset ▸ extends_setChannels hpeer rfl
    · exact hextends.trans (extends_of_same rfl rfl rfl rfl rfl)
    · exact hextends.trans (admitEvent_extends n' e)

theorem SyncNode.pollItem_noFaults (peer : String) (hfaults : NoFaults n)
    (item : FetchedItem Envelope) : NoFaults (pollItem peer n item).2 := by
  cases hpeer : n.peers[peer]? with
  | none =>
    simp only [pollItem, hpeer]
    exact hfaults
  | some channels =>
    obtain ⟨n', hset, ⟨blobs, h⟩ | ⟨e, h⟩⟩ := pollItem_cases hpeer item <;> rw [h]
    all_goals have hfaults' : NoFaults n' := hset ▸ hfaults
    · exact hfaults'
    · exact hfaults'.admitEvent e

/-- Receiving a genuine event that is known or fits. -/
theorem SyncNode.receiveWire_passes (hfaults : NoFaults n) {identity : DeviceIdentity}
    {wire : WireEvent} {signature : Signature}
    (hsignature : toSignature wire.signature = some signature)
    (hgenuine : genuine identity wire signature = true)
    (hfits : (wire.eventId ∈ n.applied || n.reading.journal.isNone ||
      (wire.toJournal signature).fits) = true) :
    ∃ count, (n.receiveWire identity wire).1 = .ok count ∧
      NoFaults (n.receiveWire identity wire).2 ∧
      (n.receiveWire identity wire).2.reading = n.reading.add (wire.toJournal signature) := by
  simp only [genuine, Bool.decide_and, Bool.and_eq_true, decide_eq_true_eq] at hgenuine
  obtain ⟨horigin, hverify⟩ := hgenuine
  simp only [receiveWire, hsignature, horigin, hverify, ne_eq, not_true_eq_false, if_false, if_true]
  by_cases hmem : wire.eventId ∈ n.applied
  · simp only [hmem, if_true]
    have hsame : n.reading.add (wire.toJournal signature) = n.reading := if_pos hmem
    exact ⟨0, rfl, hfaults, hsame.symm⟩
  · have hport (port : SyncPort) (hport : n.port = some port) :
        (wire.toJournal signature).fits = true := by
      simpa [hmem, reading, hport] using hfits
    obtain ⟨hok, hfaults', hreading⟩ := admitEvent_reading hfaults hport hmem
    simp only [hmem, if_false]
    rcases hadmitted : n.admitEvent (wire.toJournal signature) with ⟨_ | _, n'⟩ <;>
      rw [hadmitted] at hok
    · cases hok
    · rw [hadmitted] at hfaults' hreading
      exact ⟨1, rfl, hfaults', hreading⟩

/-- Receiving a genuine event that no other stands in for. -/
theorem SyncNode.receiveWire_reading (hfaults : NoFaults n) {identity : DeviceIdentity}
    {wire : WireEvent} {signature : Signature}
    (hsignature : toSignature wire.signature = some signature)
    (hgenuine : genuine identity wire signature = true)
    (htakes : n.reading.takes (wire.toJournal signature) = true) :
    ∃ count, (n.receiveWire identity wire).1 = .ok count ∧
      NoFaults (n.receiveWire identity wire).2 ∧
      (n.receiveWire identity wire).2.reading = n.reading.add (wire.toJournal signature) ∧
      (n.receiveWire identity wire).2.Holds (wire.toJournal signature) := by
  have hadd := Reading.holds_add htakes
  obtain ⟨count, hok, hfaults', hreading⟩ :=
    receiveWire_passes hfaults hsignature hgenuine (Reading.fits_of_takes htakes)
  exact ⟨count, hok, hfaults', hreading, holds_reading.1 (hreading ▸ hadd)⟩

variable [AuthenticAead] {pushed : List Pushed}

/-- One envelope of readable mail: it is read and the rest stays readable, or
everything left is known. -/
theorem SyncNode.pollItem_reads {peer : String} (id : String) {seq : Nat} {envelope : Envelope}
    {mails : List Mail} (hfaults : NoFaults n)
    (hread : readable pushed n.label n.reading (⟨peer, seq, envelope⟩ :: mails) = true)
    (hcarried : ∀ record ∈ pushed, record.bucket = bucketFor n.label peer → record.seq = seq →
      Carries envelope (.event record.event.toWire)) :
    (∀ mail ∈ ⟨peer, seq, envelope⟩ :: mails, Known pushed n mail) ∨
    ∃ count, (pollItem peer n ⟨seq, id, envelope⟩).1 = .ok count ∧
      NoFaults (pollItem peer n ⟨seq, id, envelope⟩).2 ∧
      Known pushed (pollItem peer n ⟨seq, id, envelope⟩).2 ⟨peer, seq, envelope⟩ ∧
      readable pushed n.label (pollItem peer n ⟨seq, id, envelope⟩).2.reading mails = true := by
  have hext := pollItem_extends peer n ⟨seq, id, envelope⟩
  rw [readable, Bool.or_eq_true, List.all_eq_true] at hread
  obtain hknown | hread := hread
  · exact .inl fun mail hmail => known_reading.1 (hknown mail hmail)
  right
  cases hpeer : n.peers[peer]? with
  | none => simp [reading, hpeer] at hread
  | some channels =>
    have hchannel : n.reading.channel peer = some (channels.identity, channels.inbound) := by
      simp [reading, hpeer]
    simp only [hchannel] at hread
    rcases hopen : channels.inbound.openEnvelope envelope with ⟨opened, inbound⟩
    have hfaults' : NoFaults (n.setInbound peer channels inbound) := hfaults
    have hreading := n.reading_setInbound peer channels inbound
    simp only [pollItem, hpeer, hopen] at hext ⊢
    simp only [hopen] at hread
    cases opened with
    | error e =>
      cases e with
      | epochMismatch expectedSeq foundSeq =>
        simp only [Bool.and_eq_true, decide_eq_true_eq, ← hreading] at hread
        simp only [hread.1.1, if_true] at hext ⊢
        exact ⟨0, rfl, hfaults', (known_reading.1 hread.1.2).extends hext, hread.2⟩
      | _ => simp at hread
    | ok plain =>
      have hpayload (record : Pushed) (hrecord : record ∈ pushed)
          (hbucket : record.bucket = bucketFor n.label peer) (hseq : record.seq = seq) :
          SyncCodec.fromSlice plain = some (.event record.event.toWire) :=
        (hcarried record hrecord hbucket hseq).opens hopen
      cases hdecode : SyncCodec.fromSlice plain with
      | none => simp [hdecode] at hread
      | some payload =>
        rw [hdecode] at hpayload
        cases payload with
        | chunk chunk =>
          simp only [hdecode] at hread ⊢
          have hblobs : (n.setInbound peer channels inbound).blobs = n.reading.blobs := rfl
          rw [hblobs]
          cases hingest : ingestChunk n.reading.blobs peer chunk with
          | error e => simp [hingest] at hread
          | ok blobs =>
            simp only [hingest, ← hreading] at hread ⊢
            refine ⟨0, rfl, hfaults', fun record hrecord hbucket hseq => ?_, hread⟩
            cases hpayload record hrecord hbucket hseq
        | event wire =>
          simp only [hdecode] at hread hext ⊢
          cases hsignature : toSignature wire.signature with
          | none => simp [hsignature] at hread
          | some signature =>
            simp only [hsignature, Bool.and_eq_true, ← hreading] at hread
            obtain ⟨⟨hgenuine, htakes⟩, hrest⟩ := hread
            obtain ⟨count, hok, hfaults'', hadd, hholds⟩ :=
              receiveWire_reading hfaults' hsignature hgenuine htakes
            refine ⟨count, hok, hfaults'', fun record hrecord hbucket hseq => ?_,
              hadd ▸ hrest⟩
            rw [hext.label] at hbucket
            cases hpayload record hrecord hbucket hseq
            cases (toSignature_toList record.event.signature).symm.trans hsignature
            exact hholds

end

end Altior.Sync
