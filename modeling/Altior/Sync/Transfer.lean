import Altior.Sync.Posting

/-!
# Transfers

One device puts blobs, another reads them.  Of a run in which no call fails and whose
last flush is read, the blobs that arrive whole are known beforehand: all of them, iff
no chunk is shared between the puts of two blobs.
-/

namespace Altior.Sync

open Lib Crypto
open List (Forall₂)

/-! ## Calls that succeed -/

section

variable [Primitives] [SyncCodec]

/-- A call on a node that returns `Ok`.  An event with the last sequence number overflows
the counter. -/
def SyncNode.perform (n : SyncNode) (input : NodeInput) : Option SyncNode :=
  if input.succeeds n = true ∧ (input.creates n = true → n.nextSeq < u64Max) then
    some (nodeStep n input)
  else none

namespace SyncNode

variable {n n' : SyncNode} {input : NodeInput}

theorem perform_ok (h : n.perform input = some n') :
    input.succeeds n = true ∧ (input.creates n = true → n.nextSeq < u64Max) ∧
      nodeStep n input = n' := by
  unfold perform at h
  split at h
  · rename_i hok
    exact ⟨hok.1, hok.2, Option.some.inj h⟩
  · cases h

theorem perform_label (h : n.perform input = some n') : n'.label = n.label := by
  obtain ⟨-, -, rfl⟩ := perform_ok h
  exact (nodeStep_extends n input).label

/-- A call that puts no blob leaves the node but for the port and a counter, or creates
an event that announces nothing. -/
theorem perform_call (hcall : input.isCall = true) (h : n.perform input = some n') :
    n' = { n with port := n'.port, suppressedResurrections := n'.suppressedResurrections } ∨
      ∃ e, n.Created e n' ∧ n'.blobs = n.blobs ∧ n.nextSeq < u64Max ∧ ∀ ok, e.body.Announces ok := by
  obtain ⟨hsucceeds, hbound, rfl⟩ := perform_ok h
  have hcreate (body : EventBody) (hbody : ∀ ok, body.Announces ok)
      (hok : (n.createAdmit body).1.isOk = true) (hbound : n.nextSeq < u64Max) :
      ∃ e, n.Created e (n.createAdmit body).2 ∧ (n.createAdmit body).2.blobs = n.blobs ∧
        n.nextSeq < u64Max ∧ ∀ ok, e.body.Announces ok := by
    rcases hresult : n.createAdmit body with ⟨_ | id, n'⟩ <;> rw [hresult] at hok
    · cases hok
    obtain ⟨e, rfl, hcreated⟩ := createAdmit_created hresult
    refine ⟨e, hcreated, ?_, hbound, hbody⟩
    obtain hsame | hadded := hcreated.blobs
    · exact hsame
    · exact hadded.trans (addBlob_of_announces hbody)
  cases input with
  | receive e => cases hcall
  | putBlob blobId blob => cases hcall
  | portFaults faults => exact .inl rfl
  | appendDocument docId entry =>
    exact .inr (hcreate _ (fun _ => trivial) hsucceeds (hbound rfl))
  | forgetMemory memoryId at_ digest =>
    exact .inr (hcreate _ (fun _ => trivial) hsucceeds (hbound rfl))
  | acknowledge => exact .inr (hcreate _ (fun _ => trivial) hsucceeds (hbound rfl))
  | proposeMemory memoryId content =>
    simp only [NodeInput.succeeds, NodeInput.creates, nodeStep, proposeMemory] at hsucceeds hbound ⊢
    by_cases hmem : memoryId ∈ n.tombstones
    · exact .inl (by rw [if_pos hmem])
    · rw [if_neg hmem] at hsucceeds ⊢
      have hnew := hcreate (.memoryProposed memoryId content) fun _ => trivial
      rcases hresult : n.createAdmit (.memoryProposed memoryId content) with ⟨_ | id, n'⟩ <;>
        rw [hresult] at hsucceeds hnew
      · cases hsucceeds
      · exact .inr (hnew rfl (hbound (decide_eq_true hmem)))

/-- A put stores the blob and creates its announcement. -/
theorem perform_putBlob {blobId : String} {blob : StoredBlob}
    (h : n.perform (.putBlob blobId blob) = some n') :
    ∃ e, ({ n with blobs := n.blobs.insert blobId blob } : SyncNode).Created e n' ∧
      n'.blobs = n.blobs.insert blobId blob ∧ n.nextSeq < u64Max ∧
      e.body = .blobAdded blobId blob.totalSize blob.entries := by
  obtain ⟨hsucceeds, hbound, rfl⟩ := perform_ok h
  simp only [NodeInput.succeeds, nodeStep, putBlob] at hsucceeds ⊢
  rcases hresult : ({ n with blobs := n.blobs.insert blobId blob } : SyncNode).createAdmit
    (.blobAdded blobId blob.totalSize blob.entries) with ⟨_ | id, n'⟩ <;> rw [hresult] at hsucceeds
  · cases hsucceeds
  obtain ⟨e, hbody, hcreated⟩ := createAdmit_created hresult
  refine ⟨e, hcreated, ?_, hbound rfl, hbody⟩
  obtain hsame | hadded := hcreated.blobs
  · exact hsame
  · exact hadded.trans (addBlob_insert hbody)

end SyncNode

end

/-! ## The run of a transfer -/

/-- A call that puts no blob. -/
abbrev PlainCall := { input : NodeInput // input.isCall = true }

/-- A call on the sender. -/
inductive SenderCall
  | plain (call : PlainCall)
  | put (p : Put)

/-- What happens between two devices that are paired. -/
inductive TransferInput
  | sender (call : SenderCall)
  | receiver (call : PlainCall)
  /-- The sender flushes. -/
  | flush (turnSeed : Bytes32)
  /-- The receiver polls. -/
  | poll

/-- The blobs that a call puts. -/
def SenderCall.puts : SenderCall → List Put
  | .plain _ => []
  | .put p => [p]

@[inherit_doc SenderCall.puts]
def TransferInput.puts : TransferInput → List Put
  | .sender call => call.puts
  | .receiver _ => []
  | .flush _ => []
  | .poll => []

section

variable [Primitives]

/-- Two devices at one relay. -/
structure Transfer where
  sender : SyncNode
  receiver : SyncNode
  relay : Relay Envelope
  pushed : List Pushed

namespace Transfer

def sending (t : Transfer) : Link := ⟨t.sender, t.relay, t.pushed⟩

def receiving (t : Transfer) : Link := ⟨t.receiver, t.relay, t.pushed⟩

end Transfer

variable [SyncCodec] [BlobPrimitives]

/-- The call as the node takes it; `put_blob` splits and encrypts before it stores. -/
def SenderCall.input : SenderCall → NodeInput
  | .plain call => call.1
  | .put p => .putBlob p.blobId p.blob

/-- One input, if it succeeds. -/
def Transfer.step (t : Transfer) : TransferInput → Option Transfer
  | .sender call => (t.sender.perform call.input).map fun n => { t with sender := n }
  | .receiver call => (t.receiver.perform call.1).map fun n => { t with receiver := n }
  | .flush turnSeed =>
    -- A flush creates an acknowledgement.
    if t.sender.nextSeq < u64Max then
      match t.sending.flush turnSeed with
      | (.ok _, l) => some { t with sender := l.node, relay := l.relay, pushed := l.pushed }
      | (.error _, _) => none
    else none
  | .poll =>
    match t.receiving.poll with
    | (.ok _, l) => some { t with receiver := l.node, relay := l.relay, pushed := l.pushed }
    | (.error _, _) => none

/-- Two new devices, in memory or over empty ports, and what they are paired with.  Events
and buckets are named after the labels. -/
structure Devices where
  senderKeys : DeviceKeys
  senderLabel : String
  senderDurable : Bool
  receiverKeys : DeviceKeys
  receiverLabel : String
  receiverDurable : Bool
  policy : RelayPolicy
  epoch : Epoch
  epochSeq : UInt32
  senderBlock : Option CounterBlock
  receiverBlock : Option CounterBlock
  apart : senderLabel ≠ receiverLabel

/-- The calls before the devices are paired, the pairing, and what follows, if all of it
succeeds. -/
def Devices.run (d : Devices) (before : List SenderCall) (receiverBefore : List PlainCall)
    (inputs : List TransferInput) : Option Transfer := do
  let a ← before.foldlM (fun n call => n.perform call.input)
    (.new d.senderKeys d.senderLabel (if d.senderDurable then some .empty else none))
  let b ← receiverBefore.foldlM (fun n call => n.perform call.1)
    (.new d.receiverKeys d.receiverLabel (if d.receiverDurable then some .empty else none))
  match SyncNode.pair a b d.epoch d.epochSeq d.senderBlock d.receiverBlock with
  | .error _ => none
  | .ok (sender, receiver) => inputs.foldlM Transfer.step ⟨sender, receiver, .new d.policy, []⟩

/-! ## The sender -/

/-- Nothing but calls of its own happened to a node. -/
structure SyncNode.Alone (label : String) (n : SyncNode) : Prop where
  label : n.label = label
  peers : n.peers = ∅
  sentTo : n.sentTo = ∅
  loadedCursors : n.loadedCursors = ∅

variable {puts : List Put} {n n' : SyncNode} {label : String}

omit [Primitives] [SyncCodec] [BlobPrimitives] in
theorem SyncNode.Alone.created {e : JournalEvent} {blobs : Table String StoredBlob}
    (h : n.Alone label) (hcreated : ({ n with blobs := blobs } : SyncNode).Created e n') :
    n'.Alone label where
  label := hcreated.label.trans h.label
  peers := hcreated.peers.trans h.peers
  sentTo := hcreated.sentTo.trans h.sentTo
  loadedCursors := hcreated.loadedCursors.trans h.loadedCursors

/-- A call on the sender leaves it with more to offer. -/
theorem Offers.perform {call : SenderCall} (h : Offers puts n)
    (hcall : n.perform call.input = some n') :
    n' = { n with port := n'.port, suppressedResurrections := n'.suppressedResurrections } ∧
        call.puts = [] ∨
      ∃ blobs e, ({ n with blobs := blobs } : SyncNode).Created e n' ∧
        Offers (puts ++ call.puts) n' := by
  cases call with
  | plain call =>
    obtain hframe | ⟨e, hcreated, hblobs, hbound, hbody⟩ := SyncNode.perform_call call.2 hcall
    · exact .inl ⟨hframe, rfl⟩
    · refine .inr ⟨n.blobs, e, hcreated, ?_⟩
      rw [SenderCall.puts, List.append_nil]
      exact h.created (List.Subset.refl _) (fun p hp => .inl hp) (hbody _) hcreated
        (hblobs ▸ h.stores) hbound
  | put p =>
    obtain ⟨e, hcreated, hblobs, hbound, hbody⟩ := SyncNode.perform_putBlob hcall
    refine .inr ⟨_, e, hcreated, h.created (List.subset_append_left _ _) (fun q hq => ?_) ?_
      hcreated (hblobs ▸ h.stores.put p) hbound⟩
    · obtain hq | hq := List.mem_append.1 hq
      · exact .inl hq
      · exact .inr (by rw [List.mem_singleton.1 hq, hbody]; rfl)
    · rw [hbody]
      exact ⟨p, by simp [SenderCall.puts], rfl⟩

omit [Primitives] [SyncCodec] [BlobPrimitives] in
theorem SyncNode.Alone.frame (h : n.Alone label)
    (hframe : n' = { n with
      port := n'.port, suppressedResurrections := n'.suppressedResurrections }) :
    n'.Alone label := by
  rw [hframe]
  exact ⟨h.label, h.peers, h.sentTo, h.loadedCursors⟩

/-- The calls on the sender before it is paired. -/
theorem Offers.performAll {before : List SenderCall} (halone : n.Alone label) (h : Offers puts n)
    (hrun : before.foldlM (fun n call => n.perform call.input) n = some n') :
    n'.Alone label ∧ Offers (puts ++ before.flatMap SenderCall.puts) n' := by
  induction before generalizing n puts with
  | nil =>
    cases hrun
    rw [List.flatMap_nil, List.append_nil]
    exact ⟨halone, h⟩
  | cons call before ih =>
    rw [List.foldlM_cons, Option.bind_eq_bind, Option.bind_eq_some_iff] at hrun
    obtain ⟨m, hcall, hrun⟩ := hrun
    rw [List.flatMap_cons, ← List.append_assoc]
    obtain ⟨hframe, hnone⟩ | ⟨blobs, e, hcreated, hoffers⟩ := h.perform hcall
    · refine ih (halone.frame hframe) ?_ hrun
      rw [hnone, List.append_nil, hframe]
      exact ⟨h.stores, h.announced, h.announces, h.numbered, h.distinct, h.applied, h.bounded⟩
    · exact ih (halone.created hcreated) hoffers hrun

/-- A call on the sender posts nothing. -/
theorem Posting.perform {epochSeq : UInt32} {peer : String} {read rest : List Parcel} {cursor : Nat}
    {l : Link} {call : SenderCall} (h : Posting epochSeq peer puts read cursor rest l)
    (hcall : l.node.perform call.input = some n') :
    Posting epochSeq peer (puts ++ call.puts) read cursor rest { l with node := n' } := by
  obtain ⟨hframe, hnone⟩ | ⟨blobs, e, hcreated, hoffers⟩ := h.offers.perform hcall
  · rw [hnone, List.append_nil, hframe]
    exact ⟨⟨h.offers.stores, h.offers.announced, h.offers.announces, h.offers.numbered,
      h.offers.distinct, h.offers.applied, h.offers.bounded⟩, h.posted, h.outbox, h.sent, h.talks,
      h.increasing, h.bounded, h.carried, h.position, h.unread⟩
  · exact h.created (List.subset_append_left _ _) hcreated hoffers

/-! ## The receiver -/

/-- A receiver has filed what it read, and applied nothing besides but events of its
own. -/
structure HasRead (log : List Parcel) (n : SyncNode) : Prop where
  blobs : n.blobs = filed log
  applied : ∀ id : String, id ∈ n.applied →
    (∃ e, .event e ∈ log ∧ e.eventId = id) ∨ ∃ seq, id = qualifiedId n.label seq

variable {log : List Parcel}

omit [BlobPrimitives] in
/-- A call on the receiver, which puts no blob. -/
theorem HasRead.perform {call : PlainCall} (h : HasRead log n) (hcall : n.perform call.1 = some n') :
    HasRead log n' ∧ n'.label = n.label ∧ n'.peers = n.peers ∧ n'.sentTo = n.sentTo ∧
      n'.loadedCursors = n.loadedCursors := by
  obtain hframe | ⟨e, hcreated, hblobs, -, -⟩ := SyncNode.perform_call call.2 hcall
  · rw [hframe]
    exact ⟨⟨h.blobs, h.applied⟩, rfl, rfl, rfl, rfl⟩
  · refine ⟨⟨hblobs.trans h.blobs, fun id hid => ?_⟩, hcreated.label, hcreated.peers,
      hcreated.sentTo, hcreated.loadedCursors⟩
    obtain rfl | hold := (hcreated.applied id).1 hid
    · exact .inr ⟨n.nextSeq, hcreated.label ▸ hcreated.eventId⟩
    · rw [hcreated.label]
      exact h.applied id hold

omit [BlobPrimitives] in
/-- The calls on the receiver before it is paired. -/
theorem HasRead.performAll {before : List PlainCall} (halone : n.Alone label) (h : HasRead log n)
    (hrun : before.foldlM (fun n call => n.perform call.1) n = some n') :
    n'.Alone label ∧ HasRead log n' := by
  induction before generalizing n with
  | nil =>
    cases hrun
    exact ⟨halone, h⟩
  | cons call before ih =>
    rw [List.foldlM_cons, Option.bind_eq_bind, Option.bind_eq_some_iff] at hrun
    obtain ⟨m, hcall, hrun⟩ := hrun
    obtain ⟨hread, hlabel, hpeers, hsent, hloaded⟩ := h.perform hcall
    exact ih ⟨hlabel.trans halone.label, hpeers.trans halone.peers, hsent.trans halone.sentTo,
      hloaded.trans halone.loadedCursors⟩ hread hrun

/-- A receiver with mail it has not read: the envelopes of what is posted after what it
has read, sealed in the epoch of its session. -/
structure Filing (epochSeq : UInt32) (peer label : String) (log : List Parcel)
    (envelopes : List Envelope) (n : SyncNode) : Prop where
  label : n.label = label
  unread : ∃ read rest, read ++ rest = log ∧ Forall₂ (Seals epochSeq) envelopes rest ∧ HasRead read n
  epoch : ∀ channels, n.peers[peer]? = some channels → channels.inbound.epochSeq = epochSeq

/-- Every envelope that is read is filed. -/
theorem filing_reception [AuthenticAead] {epochSeq : UInt32} {peer : String}
    (hposted : Posted puts log)
    (hforeign : ∀ e, .event e ∈ log → ∀ seq, e.eventId ≠ qualifiedId label seq) :
    Reception peer (Filing epochSeq peer label log) where
  move {envelopes n channels} cursor hpeer h := by
    have hframe := n.moveCursor_frame peer channels cursor
    obtain ⟨hlabel, hpeers⟩ := n.moveCursor_peers peer channels cursor
    obtain ⟨read, rest, hlog, hseals, hread⟩ := h.unread
    refine ⟨hlabel.trans h.label, ⟨read, rest, hlog, hseals, ?_, ?_⟩, fun channels' hpeer' => ?_⟩
    · rw [hframe]
      exact hread.blobs
    · rw [hframe]
      exact hread.applied
    · rw [hpeers, Table.getElem?_insert_same] at hpeer'
      cases hpeer'
      exact h.epoch channels hpeer
  item {envelopes n n' count item} h hok := by
    cases hpeer : n.peers[peer]? with
    | none =>
      simp only [SyncNode.pollItem, hpeer] at hok
      cases hok
    | some channels =>
      obtain ⟨read, _, rfl, ⟨⟩ | ⟨⟨hcarries, hfull⟩, hseals⟩, hread⟩ := h.unread
      rename_i p rest
      have hepoch := h.epoch channels hpeer
      have hlabel := (SyncNode.pollItem_channels hpeer item).1
      have hpeers := (SyncNode.pollItem_channels hpeer item).2
      rw [hok] at hlabel hpeers
      have hnext (channels' : PeerChannels) (hpeer' : n'.peers[peer]? = some channels') :
          channels'.inbound.epochSeq = epochSeq := by
        have hget := congrArg (fun peers => peers[peer]?) hpeers
        rw [hpeer', Table.getElem?_insert_same] at hget
        rw [Option.some.inj hget]
        exact (openEnvelope_epochSeq _ _).trans hepoch
      refine ⟨hlabel.trans h.label, ⟨read ++ [p], rest, by simp, hseals, ?_⟩, hnext⟩
      obtain ⟨-, expectedSeq, foundSeq, hlt, hmismatch⟩ | hparcel :=
        SyncNode.pollItem_parcel hpeer hcarries hok
      · -- Mail of this epoch is no mail of an older one.
        obtain ⟨version, epoch, turnNo, counter, ephPub, nonce, cipher, hfull⟩ := hfull
        rw [hfull] at hmismatch
        obtain ⟨rfl, rfl⟩ := openEnvelope_mismatch hmismatch
        rw [hepoch] at hlt
        exact absurd hlt (UInt32.lt_irrefl _)
      cases p with
      | chunk c =>
        subst hparcel
        refine ⟨by rw [filed_concat, ← hread.blobs], fun id hid => ?_⟩
        refine (hread.applied id hid).imp_left ?_
        rintro ⟨e, he, hid⟩
        exact ⟨e, List.mem_append_left _ he, hid⟩
      | event e =>
        obtain ⟨hknown, -⟩ | ⟨hfresh, hadmitted⟩ := hparcel
        · -- It was posted once, and is no event of the receiver.
          obtain ⟨x, hx, hid⟩ | ⟨seq, hid⟩ := hread.applied e.eventId hknown
          · have hnodup := hposted.once
            rw [List.map_append, List.nodup_append] at hnodup
            exact absurd hid (hnodup.2.2 _ (List.mem_map_of_mem hx) _ (by simp [Parcel.key]))
          · rw [h.label] at hid
            exact absurd hid (hforeign e (by simp) seq)
        · obtain ⟨hblobs, happlied⟩ :=
            SyncNode.admitEvent_ok (n := n.setInbound peer channels _) hfresh hadmitted
          refine ⟨?_, fun id hid => ?_⟩
          · rw [filed_concat, ← hread.blobs]
            exact hblobs
          · rw [happlied] at hid
            obtain rfl | hold := Table.mem_insert_iff.1 hid
            · exact .inl ⟨e, by simp, rfl⟩
            · refine (hread.applied id hold).imp ?_ ?_
              · rintro ⟨x, hx, hid⟩
                exact ⟨x, List.mem_append_left _ hx, hid⟩
              · rintro ⟨seq, hid⟩
                exact ⟨seq, hlabel ▸ hid⟩

/-! ## Both of them -/

/-- The two devices once they are paired: `read` is what the receiver has read, `rest`
what is posted after it. -/
structure Transfer.Kept (epochSeq : UInt32) (puts : List Put) (read rest : List Parcel)
    (channels : PeerChannels) (t : Transfer) : Prop where
  posting : Posting epochSeq t.receiver.label puts read channels.fetchCursor rest t.sending
  talks : t.receiving.Talks t.sender.label channels
  epoch : channels.inbound.epochSeq = epochSeq
  hasRead : HasRead read t.receiver
  apart : t.sender.label ≠ t.receiver.label

namespace Transfer.Kept

variable [AuthenticAead] {epochSeq : UInt32} {read rest : List Parcel} {channels : PeerChannels}
  {t t' : Transfer}

/-- A flush that succeeds posts all there is. -/
theorem flush (h : t.Kept epochSeq puts read rest channels) {seed : Bytes32}
    (hstep : t.step (.flush seed) = some t') :
    ∃ rest', t'.Kept epochSeq puts read rest' channels ∧ Exhausts puts (read ++ rest') := by
  simp only [Transfer.step] at hstep
  split at hstep
  · rename_i hbound
    split at hstep
    · rename_i count l hflush
      cases hstep
      have hlabel := t.sending.flush_label seed
      rw [hflush] at hlabel
      obtain ⟨rest', hposting, hall⟩ := h.posting.flush hbound hflush
      exact ⟨rest', ⟨hposting, hlabel ▸ h.talks, h.epoch, h.hasRead, hlabel ▸ h.apart⟩, hall⟩
    · cases hstep
  · cases hstep

/-- A poll that succeeds reads all that is posted. -/
theorem poll (h : t.Kept epochSeq puts read rest channels) (hstep : t.step .poll = some t') :
    ∃ channels', t'.Kept epochSeq puts (read ++ rest) [] channels' := by
  simp only [Transfer.step] at hstep
  split at hstep
  · rename_i count l hpoll
    cases hstep
    have hforeign (e : JournalEvent) (he : .event e ∈ read ++ rest) (seq : Nat) :
        e.eventId ≠ qualifiedId t.receiver.label seq := by
      obtain ⟨seq', -, hid⟩ := h.posting.offers.numbered e (h.posting.outbox e he)
      rw [hid]
      intro heq
      exact h.apart (qualifiedId_inj heq).1
    have hbefore : Filing epochSeq t.sender.label t.receiver.label (read ++ rest)
        (t.receiving.before t.sender.label channels) t.receiver := by
      refine ⟨rfl, ⟨read, rest, rfl, h.posting.unread, h.hasRead⟩, fun channels' hpeer => ?_⟩
      cases h.talks.lookup.symm.trans hpeer
      exact h.epoch
    have hinc : (t.receiving.relay.queue (bucketFor t.receiving.node.label t.sender.label)).Pairwise
        fun a b => a.1 < b.1 := h.posting.increasing _
    obtain ⟨channels', hreceived, hfiled, hnone⟩ := Link.poll_reads_all (l := t.receiving)
      (filing_reception h.posting.posted hforeign) hinc h.talks hbefore hpoll
    have hlabel : l.node.label = t.receiver.label := hreceived.label
    obtain ⟨all, none, hlog, hnil, hread⟩ := hfiled.unread
    cases hnil
    rw [List.append_nil] at hlog
    refine ⟨channels', ?_, hreceived.talks, ?_, hlog ▸ hread, hlabel.symm ▸ h.apart⟩
    · dsimp only
      rw [hlabel]
      refine h.posting.advance hreceived.relay hreceived.position ?_
      rw [← hlabel]
      exact List.map_eq_nil_iff.1 hnone
    · exact hfiled.epoch channels' hreceived.talks.lookup
  · cases hstep

/-- One input that succeeds. -/
theorem step (h : t.Kept epochSeq puts read rest channels) (input : TransferInput)
    (hstep : t.step input = some t') :
    ∃ read rest channels, t'.Kept epochSeq (puts ++ input.puts) read rest channels := by
  cases input with
  | sender call =>
    obtain ⟨n, hcall, rfl⟩ := Option.map_eq_some_iff.1 hstep
    have hposting : Posting epochSeq t.receiver.label (puts ++ call.puts) read
        channels.fetchCursor rest { t.sending with node := n } := h.posting.perform hcall
    have hlabel : n.label = t.sender.label := SyncNode.perform_label hcall
    exact ⟨read, rest, channels, hposting, hlabel ▸ h.talks, h.epoch, h.hasRead, hlabel ▸ h.apart⟩
  | receiver call =>
    obtain ⟨n, hcall, rfl⟩ := Option.map_eq_some_iff.1 hstep
    obtain ⟨hread, hlabel, hpeers, -, -⟩ := h.hasRead.perform hcall
    refine ⟨read, rest, channels, ?_, fun p => ?_, h.epoch, hread, hlabel ▸ h.apart⟩
    · rw [TransferInput.puts, List.append_nil]
      exact hlabel ▸ h.posting
    · rw [← h.talks p]
      exact congrArg (fun peers => peers[p]?) hpeers
  | flush seed =>
    rw [TransferInput.puts, List.append_nil]
    obtain ⟨rest', hkept, -⟩ := h.flush hstep
    exact ⟨read, rest', channels, hkept⟩
  | poll =>
    rw [TransferInput.puts, List.append_nil]
    obtain ⟨channels', hkept⟩ := h.poll hstep
    exact ⟨read ++ rest, [], channels', hkept⟩

/-- Inputs that all succeed. -/
theorem run (h : t.Kept epochSeq puts read rest channels) (inputs : List TransferInput)
    (hrun : inputs.foldlM Transfer.step t = some t') :
    ∃ read rest channels,
      t'.Kept epochSeq (puts ++ inputs.flatMap TransferInput.puts) read rest channels := by
  induction inputs generalizing t puts read rest channels with
  | nil =>
    cases hrun
    rw [List.flatMap_nil, List.append_nil]
    exact ⟨read, rest, channels, h⟩
  | cons input inputs ih =>
    rw [List.foldlM_cons, Option.bind_eq_bind, Option.bind_eq_some_iff] at hrun
    obtain ⟨t₁, hstep, hrun⟩ := hrun
    rw [List.flatMap_cons, ← List.append_assoc]
    obtain ⟨read, rest, channels, h₁⟩ := h.step input hstep
    exact ih h₁ hrun

omit [AuthenticAead] in
/-- The two devices are paired, and nothing is posted. -/
theorem pair {a b : SyncNode} {labelA labelB : String} {d : Devices} {sender receiver : SyncNode}
    (ha : a.Alone labelA) (hoffers : Offers puts a) (hb : b.Alone labelB) (hread : HasRead [] b)
    (hapart : labelA ≠ labelB)
    (hpair : SyncNode.pair a b d.epoch d.epochSeq d.senderBlock d.receiverBlock =
      .ok (sender, receiver)) :
    ∃ channels, (⟨sender, receiver, .new d.policy, []⟩ : Transfer).Kept d.epochSeq puts [] []
      channels := by
  obtain ⟨channelsA, channelsB, rfl, rfl, -, hcursor, hout, hin, -, -⟩ := pair_sessions hpair
  have hqueue (label : String) : (Relay.new d.policy : Relay Envelope).queue label = [] := by
    simp [Relay.queue, Relay.bucket, Relay.new, Bucket.empty]
  have htalks {peers : Table String PeerChannels} (hnone : peers = ∅) (peer : String)
      (channels : PeerChannels) (p : String) :
      (peers.insert peer channels)[p]? = if peer = p then some channels else none := by
    rw [hnone, Table.getElem?_insert_eq]
    simp
  rw [hb.loadedCursors] at hcursor
  have hzero : channelsB.fetchCursor = 0 := hcursor.trans (by simp)
  refine ⟨channelsB, ⟨⟨hoffers.stores, hoffers.announced, hoffers.announces, hoffers.numbered,
    hoffers.distinct, hoffers.applied, hoffers.bounded⟩, posted_nil puts,
    fun e he => absurd he List.not_mem_nil, fun key => ?_,
    ⟨channelsA, htalks ha.peers _ _, outbound_epochSeq hout⟩, fun label => ?_,
    fun label item hitem => ?_, fun label item hitem => ?_, ?_, ?_⟩, htalks hb.peers _ _,
    inbound_epochSeq hin, ⟨hread.blobs, hread.applied⟩, ?_⟩
  · simp [Link.sent, Transfer.sending, ha.sentTo]
  · exact (hqueue label).symm ▸ .nil
  · cases (hqueue label ▸ hitem : item ∈ [])
  · cases (hqueue label ▸ hitem : item ∈ [])
  · rw [hzero]
    exact Nat.one_pos
  · simp [Transfer.sending, Relay.queueAfter, hqueue]
  · exact ha.label ▸ hb.label ▸ hapart

end Transfer.Kept

omit [SyncCodec] in
/-- A node that is new offers nothing. -/
theorem offers_new (keys : DeviceKeys) (label : String) (port : Option SyncPort) :
    Offers [] (.new keys label port) where
  stores := ⟨fun blobId stored hstored => by simp [SyncNode.new] at hstored, nofun⟩
  announced := nofun
  announces := nofun
  numbered := nofun
  distinct := List.nodup_nil
  applied := nofun
  bounded := by simp [SyncNode.new, u64Max]

/-- What is posted and read of a run that ends with a flush and a poll. -/
theorem Devices.run_kept [AuthenticAead] {d : Devices} {before : List SenderCall}
    {receiverBefore : List PlainCall} {inputs : List TransferInput} {turnSeed : Bytes32}
    {t : Transfer} (hrun : d.run before receiverBefore (inputs ++ [.flush turnSeed, .poll]) = some t) :
    ∃ log, Posted (before.flatMap SenderCall.puts ++ inputs.flatMap TransferInput.puts) log ∧
      Exhausts (before.flatMap SenderCall.puts ++ inputs.flatMap TransferInput.puts) log ∧
      t.receiver.blobs = filed log := by
  unfold Devices.run at hrun
  simp only [Option.bind_eq_bind, Option.bind_eq_some_iff] at hrun
  obtain ⟨a, hbefore, b, hreceiver, hrun⟩ := hrun
  obtain ⟨ha, hoffers⟩ := (offers_new d.senderKeys d.senderLabel _).performAll
    ⟨rfl, rfl, rfl, rfl⟩ hbefore
  have hnone : HasRead [] (.new d.receiverKeys d.receiverLabel
      (if d.receiverDurable then some .empty else none)) :=
    ⟨rfl, fun id hid => by simp [SyncNode.new] at hid⟩
  obtain ⟨hb, hread⟩ := hnone.performAll ⟨rfl, rfl, rfl, rfl⟩ hreceiver
  rw [List.nil_append] at hoffers
  split at hrun
  · cases hrun
  rename_i sender receiver hpair
  obtain ⟨channels, hpaired⟩ := Transfer.Kept.pair ha hoffers hb hread d.apart hpair
  rw [List.foldlM_append, Option.bind_eq_bind, Option.bind_eq_some_iff] at hrun
  obtain ⟨t₁, hinputs, hlast⟩ := hrun
  obtain ⟨read, rest, channels, h₁⟩ := hpaired.run inputs hinputs
  rw [List.foldlM_cons, Option.bind_eq_bind, Option.bind_eq_some_iff] at hlast
  obtain ⟨t₂, hflush, hlast⟩ := hlast
  rw [List.foldlM_cons, Option.bind_eq_bind, Option.bind_eq_some_iff] at hlast
  obtain ⟨t₃, hpoll, hlast⟩ := hlast
  cases hlast
  obtain ⟨rest', h₂, hall⟩ := h₁.flush hflush
  obtain ⟨channels', h₃⟩ := h₂.poll hpoll
  refine ⟨read ++ rest', ?_, hall, h₃.hasRead.blobs⟩
  have hposted := h₃.posting.posted
  rw [List.append_nil] at hposted
  exact hposted

/-- **Delivery of blobs.**  Whatever a device puts, calls and flushes, and whatever the
other reads meanwhile, if no call fails then after one more flush and poll every put
blob is got back iff the puts are separate. -/
theorem delivers_iff_separate [AuthenticAead] [LawfulBlobAead] [ExactBlobAead] (d : Devices)
    (before : List SenderCall) (receiverBefore : List PlainCall) (inputs : List TransferInput)
    (turnSeed : Bytes32) {t : Transfer}
    (hrun : d.run before receiverBefore (inputs ++ [.flush turnSeed, .poll]) = some t) :
    (∀ p ∈ before.flatMap SenderCall.puts ++ inputs.flatMap TransferInput.puts,
      t.receiver.getBlob p.vaultKey p.blobId = .ok p.bytes) ↔
    Separate (before.flatMap SenderCall.puts ++ inputs.flatMap TransferInput.puts) := by
  obtain ⟨log, hposted, hall, hblobs⟩ := Devices.run_kept hrun
  exact hposted.getBlob_iff_separate hall hblobs

end

section

attribute [local instance] idealPrimitives idealSyncCodec checksumBlob

/-- The devices of the samples. -/
def sampleDevices (isDurable : Bool) : Devices where
  senderKeys := pairKeys "a"
  senderLabel := "a"
  senderDurable := isDurable
  receiverKeys := pairKeys "b"
  receiverLabel := "b"
  receiverDurable := isDurable
  policy := .permissive
  epoch := Vector.replicate 16 7
  epochSeq := 1
  senderBlock := some ⟨1, 1001⟩
  receiverBlock := some ⟨1, 1001⟩
  apart := by decide

def samplePut (bytes : List UInt8) : Put := ⟨sampleVaultKey, bytes⟩

/-- One blob is read before the other is put. -/
theorem delivers_iff_separate_sample :
    ∃ t, (sampleDevices true).run [.put (samplePut [4, 9])] []
        ([.flush (Vector.replicate 32 5), .poll, .sender (.put (samplePut [1]))] ++
          [.flush (Vector.replicate 32 6), .poll]) = some t ∧
      ∀ p ∈ [samplePut [4, 9], samplePut [1]],
        t.receiver.getBlob p.vaultKey p.blobId = .ok p.bytes := by
  have := idealAuthentic
  have := checksum_lawful
  have := checksum_exact
  have hsome : ((sampleDevices true).run [.put (samplePut [4, 9])] []
      ([.flush (Vector.replicate 32 5), .poll, .sender (.put (samplePut [1]))] ++
        [.flush (Vector.replicate 32 6), .poll])).isSome = true := by
    decide +kernel
  obtain ⟨t, ht⟩ := Option.isSome_iff_exists.1 hsome
  exact ⟨t, ht, (delivers_iff_separate _ _ _ _ _ ht).2 (by decide +kernel)⟩

/-- A blob of two chunks, of which the last is the same whatever the first starts with. -/
def sharing (first : UInt8) : Put := samplePut (first :: List.replicate 65535 0 ++ [7])

theorem sharing_length (first : UInt8) : (sharing first).bytes.length = 65537 := by
  rw [sharing, samplePut, List.length_append, List.length_cons, List.length_replicate,
    List.length_singleton]

theorem sharing_chunks (first : UInt8) : (sharing first).chunks =
    [sealChunk sampleVaultKey 2 65537 0 (first :: List.replicate 65535 0),
      sealChunk sampleVaultKey 2 65537 1 [7]] := by
  have hfirst : (first :: List.replicate 65535 (0 : UInt8)).length = blobChunkPlaintextMax := by
    rw [List.length_cons, List.length_replicate, blobChunkPlaintextMax]
  have hslices : slices (sharing first).bytes = [first :: List.replicate 65535 0, [7]] :=
    slices_append hfirst Nat.one_pos (by decide)
  unfold Put.chunks splitAndEncrypt
  dsimp only
  rw [hslices, sharing_length]
  rfl

theorem sharing_blobId (first : UInt8) : (sharing first).blobId =
    hexEncode (blobIdOf ⟨65537,
      [(sealChunk sampleVaultKey 2 65537 0 (first :: List.replicate 65535 0)).entry,
        (sealChunk sampleVaultKey 2 65537 1 [7]).entry]⟩).toList := by
  rw [Put.blobId_eq, sharing_chunks, sharing_length]
  rfl

theorem sharing_input (first : UInt8) : (SenderCall.put (sharing first)).input =
    .putBlob (hexEncode (blobIdOf ⟨65537,
        [(sealChunk sampleVaultKey 2 65537 0 (first :: List.replicate 65535 0)).entry,
          (sealChunk sampleVaultKey 2 65537 1 [7]).entry]⟩).toList)
      ⟨65537, [toBlobEntry (sealChunk sampleVaultKey 2 65537 0 (first :: List.replicate 65535 0)).entry,
          toBlobEntry (sealChunk sampleVaultKey 2 65537 1 [7]).entry],
        [sealChunk sampleVaultKey 2 65537 0 (first :: List.replicate 65535 0),
          sealChunk sampleVaultKey 2 65537 1 [7]].foldl
          (fun stored chunk => stored.insert (hexEncode chunk.blobId.toList) chunk.ciphertext) ∅⟩ := by
  rw [SenderCall.input, Put.blob_eq, sharing_blobId, sharing_chunks, sharing_length]
  rfl

theorem not_separate_sharing : ¬ Separate [sharing 1, sharing 2] := by
  intro hseparate
  have hlast (first : UInt8) :
      sealChunk sampleVaultKey 2 65537 1 [7] ∈ (sharing first).chunks := by
    rw [sharing_chunks]
    exact List.mem_cons_of_mem _ List.mem_cons_self
  have hsame := (hseparate.chunk _ List.mem_cons_self _ (List.mem_cons_of_mem _ List.mem_cons_self)
    _ (hlast 1) _ (hlast 2) rfl).1
  rw [sharing_blobId, sharing_blobId] at hsame
  revert hsame
  decide

/-- The chunk that two blobs share reaches the receiver under one of them. -/
theorem not_delivers :
    ∃ t, (sampleDevices false).run [.put (sharing 1), .put (sharing 2)] []
        [.flush (Vector.replicate 32 6), .poll] = some t ∧
      ¬ ∀ p ∈ [sharing 1, sharing 2], t.receiver.getBlob p.vaultKey p.blobId = .ok p.bytes := by
  have := idealAuthentic
  have := checksum_lawful
  have := checksum_exact
  have hsome : ((sampleDevices false).run [.put (sharing 1), .put (sharing 2)] []
      ([] ++ [.flush (Vector.replicate 32 6), .poll])).isSome = true := by
    simp only [Devices.run, List.foldlM_cons, sharing_input]
    decide +kernel
  obtain ⟨t, ht⟩ := Option.isSome_iff_exists.1 hsome
  obtain ⟨log, hposted, hall, hblobs⟩ := Devices.run_kept ht
  refine ⟨t, ht, fun hget => not_separate_sharing ?_⟩
  exact (hposted.getBlob_iff_separate hall hblobs).1 hget

end

end Altior.Sync
