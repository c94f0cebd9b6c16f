import Altior.Sync.Moves

/-!
# Whose event it is

An event's id is meant to be its origin and its sequence number, and the event is
meant to be signed by its origin.  A poll checks the origin and the signature, not
the id; this module says what holds in a vault to which only envelopes with
well-formed ids are sent.
-/

namespace Altior.Sync

open Lib Crypto

/-! ## Qualified ids -/

/-- `"{origin}:{seq}"`. -/
def qualifiedId (origin : String) (seq : Nat) : String := origin ++ ":" ++ toString seq

theorem append_cons_inj {α : Type} {x : α} {front front' back back' : List α} (hback : x ∉ back)
    (hback' : x ∉ back') (h : front ++ x :: back = front' ++ x :: back') :
    front = front' ∧ back = back' := by
  induction front generalizing front' with
  | nil =>
    cases front' with
    | nil => exact ⟨rfl, (List.cons.inj h).2⟩
    | cons y front' =>
      refine absurd ?_ hback
      rw [(List.cons.inj h).2]
      simp
  | cons y front ih =>
    cases front' with
    | nil =>
      refine absurd ?_ hback'
      rw [← (List.cons.inj h).2]
      simp
    | cons z front' =>
      obtain ⟨rfl, htail⟩ := List.cons.inj h
      obtain ⟨rfl, rfl⟩ := ih htail
      exact ⟨rfl, rfl⟩

theorem colon_not_mem_digits (n : Nat) : ':' ∉ (toString n).toList := by
  rw [Nat.toString_eq_ofList_toDigits, String.toList_ofList]
  intro hmem
  have hdigit := Nat.isDigit_of_mem_toDigits (by decide) (by decide) hmem
  exact absurd hdigit (by decide)

theorem toString_nat_inj {m n : Nat} (h : toString m = toString n) : m = n := by
  rw [Nat.toString_eq_ofList_toDigits, Nat.toString_eq_ofList_toDigits, String.ofList_inj] at h
  rw [← Nat.ofDigitChars_ten_toDigits (n := m), h, Nat.ofDigitChars_ten_toDigits]

/-- A qualified id names its origin and its sequence number. -/
theorem qualifiedId_inj {origin origin' : String} {seq seq' : Nat}
    (h : qualifiedId origin seq = qualifiedId origin' seq') : origin = origin' ∧ seq = seq' := by
  have hlist := congrArg String.toList h
  simp only [qualifiedId, String.toList_append, List.append_assoc] at hlist
  obtain ⟨horigin, hseq⟩ := append_cons_inj (colon_not_mem_digits seq) (colon_not_mem_digits seq')
    hlist
  exact ⟨String.toList_inj.1 horigin, toString_nat_inj (String.toList_inj.1 hseq)⟩

/-! ## Attribution -/

section

variable [Primitives] [SyncCodec]

/-- The event is signed by the node itself, or by the device its origin names. -/
def Authored (keys : String → DeviceKeys) (label : String) (e : JournalEvent) : Prop :=
  (e.origin = label ∧ e.signature = Primitives.sign (keys label).signing
    (SyncCodec.canonicalBytes e.eventId e.origin e.originSeq e.body)) ∨
  ∃ device, (keys device).id = e.origin ∧
    Primitives.verify (Primitives.ed25519Public (keys device).signing)
      (SyncCodec.canonicalBytes e.eventId e.origin e.originSeq e.body) e.signature = true

/-- The event's id is its own, and so is its signature. -/
structure Attributed (keys : String → DeviceKeys) (label : String) (e : JournalEvent) : Prop where
  id : e.eventId = qualifiedId e.origin e.originSeq
  author : Authored keys label e

/-- Whatever event an envelope opens to has a well-formed id. -/
def HonestIds (envelope : Envelope) : Prop :=
  ∀ (session session' : SessionV2) (plain : Primitives.Plain) (wire : WireEvent),
    session.openEnvelope envelope = (.ok plain, session') →
    SyncCodec.fromSlice plain = some (.event wire) →
    wire.eventId = qualifiedId wire.origin wire.originSeq

/-- Everything a node keeps is attributed, under the key the event is kept by. -/
structure SyncNode.Identified (keys : String → DeviceKeys) (label : String) (n : SyncNode) :
    Prop where
  named : n.label = label
  keyed : n.keys = keys label
  applied : ∀ (id : String) e, n.applied[id]? = some e → id = e.eventId ∧ Attributed keys label e
  outbox : ∀ e ∈ n.outbox, Attributed keys label e
  journal : ∀ p, n.port = some p → ∀ e ∈ p.applied, Attributed keys label e
  peers : ∀ (peer : String) channels, n.peers[peer]? = some channels →
    ∃ device, channels.identity = (keys device).publicIdentity

/-- Every queued envelope has well-formed ids. -/
def Relay.HonestIds (r : Relay Envelope) : Prop :=
  ∀ label, ∀ item ∈ r.queue label, Altior.Sync.HonestIds item.2

variable {keys : String → DeviceKeys} {label : String} {n n' : SyncNode}

/-- A node that learns an attributed event. -/
theorem SyncNode.Identified.learns (h : n.Identified keys label) {e : JournalEvent}
    (he : Attributed keys label e) (hlearns : n.Learns e n') : n'.Identified keys label where
  named := hlearns.label.trans h.named
  keyed := hlearns.keys.trans h.keyed
  applied id x hx := by
    obtain hold | ⟨rfl, rfl⟩ := hlearns.applied_cases hx
    · exact h.applied id x hold
    · exact ⟨rfl, he⟩
  outbox x hx := h.outbox x (hlearns.outbox ▸ hx)
  journal p' hp' x hx := by
    obtain ⟨p, hp, hold⟩ | rfl := hlearns.journal_cases hp' hx
    · exact h.journal p hp x hold
    · exact he
  peers peer channels hpeer := h.peers peer channels (hlearns.peers ▸ hpeer)

/-- What a node creates is attributed to it. -/
theorem SyncNode.Identified.createAdmit (h : n.Identified keys label) (body : EventBody) :
    (n.createAdmit body).2.Identified keys label := by
  have hown : Attributed keys label (n.create body).1 := by
    refine ⟨rfl, .inl ⟨h.named, ?_⟩⟩
    rw [← h.keyed]
    rfl
  have hcreated : (n.create body).2.Identified keys label := by
    refine ⟨h.named, h.keyed, h.applied, fun e he => ?_, h.journal, h.peers⟩
    obtain hold | hnew := List.mem_append.1 he
    · exact h.outbox e hold
    · rw [List.mem_singleton.1 hnew]
      exact hown
  have hadmitted := hcreated.learns hown ((n.create body).2.admitEvent_learns _)
  unfold SyncNode.createAdmit
  rcases hcreate : n.create body with ⟨e, m⟩
  rw [hcreate] at hadmitted
  dsimp only at hadmitted ⊢
  split <;> rename_i heq <;> rw [heq] at hadmitted <;> exact hadmitted

/-- Channels with one of the devices. -/
theorem SyncNode.Identified.addChannels (h : n.Identified keys label) {peer : String}
    {channels : PeerChannels} (hidentity : ∃ device, channels.identity = (keys device).publicIdentity) :
    ({ n with peers := n.peers.insert peer channels } : SyncNode).Identified keys label := by
  refine ⟨h.named, h.keyed, h.applied, h.outbox, h.journal, fun x found hfound => ?_⟩
  rw [Table.getElem?_insert_eq] at hfound
  split at hfound
  · cases hfound
    exact hidentity
  · exact h.peers x found hfound

/-- A change of the channels that keeps who the peers are. -/
theorem SyncNode.Identified.setChannels (h : n.Identified keys label) {peer : String}
    {channels channels' : PeerChannels} (hpeer : n.peers[peer]? = some channels)
    (hidentity : channels'.identity = channels.identity) :
    ({ n with peers := n.peers.insert peer channels' } : SyncNode).Identified keys label :=
  h.addChannels (hidentity ▸ h.peers peer channels hpeer)

/-- A device's link in a vault of well-formed ids. -/
structure Link.Identified (keys : String → DeviceKeys) (label : String) (l : Link) : Prop where
  node : l.node.Identified keys label
  relay : l.relay.HonestIds

theorem Relay.HonestIds.same {r r' : Relay Envelope} (h : r.HonestIds) (hsame : r.Same r') :
    r'.HonestIds := by
  intro label item hitem
  rw [hsame.queue] at hitem
  exact h label item hitem

theorem Relay.HonestIds.push {r : Relay Envelope} (h : r.HonestIds) (bucket id : String)
    {envelope : Envelope} (henvelope : Altior.Sync.HonestIds envelope) :
    (r.push Envelope.len bucket id envelope).2.HonestIds := by
  obtain ⟨_, -, hsame⟩ | ⟨_, -, -, hsame⟩ | ⟨-, -, hqueue⟩ :=
    r.push_cases Envelope.len bucket id envelope
  · exact h.same hsame
  · exact h.same hsame
  · intro label item hitem
    rw [hqueue] at hitem
    split at hitem
    · obtain hold | hnew := List.mem_append.1 hitem
      · exact h bucket item hold
      · rw [List.mem_singleton.1 hnew]
        exact henvelope
    · exact h label item hitem

variable {C : Prop} {l l' : Link}

/-- A genuine event of a well-formed envelope is attributed. -/
theorem Link.Identified.genuine (h : l.Identified keys label) {peer : String} {e : JournalEvent}
    (hgenuine : l.Genuine peer e) : Attributed keys label e := by
  obtain ⟨item, hitem, session, plain, session', hopen, hwire⟩ := hgenuine.queued
  obtain ⟨channels, hpeer, hid, hverify⟩ := hgenuine.signed
  obtain ⟨device, hdevice⟩ := h.node.peers peer channels hpeer
  rw [hdevice] at hid hverify
  exact ⟨h.relay _ item hitem session session' plain _ hopen hwire, .inr ⟨device, hid, hverify⟩⟩

theorem Link.Identified.reads (h : l.Identified keys label) (hmove : l.Reads C l') :
    l'.Identified keys label := by
  cases hmove with
  | relay hsame => exact ⟨h.node, h.relay.same hsame⟩
  | channels hpeer hidentity _ => exact ⟨h.node.setChannels hpeer hidentity, h.relay⟩
  | cursor peer cursor hport =>
    refine ⟨⟨h.node.named, h.node.keyed, h.node.applied, h.node.outbox, ?_, h.node.peers⟩, h.relay⟩
    rintro _ ⟨⟩ e he
    refine h.node.journal _ hport e ?_
    rwa [(SyncPort.recordFetchCursor_keeps _ _ _).1] at he
  | blobs _ =>
    exact ⟨⟨h.node.named, h.node.keyed, h.node.applied, h.node.outbox, h.node.journal,
      h.node.peers⟩, h.relay⟩
  | admitEvent hgenuine _ _ =>
    exact ⟨h.node.learns (h.genuine hgenuine) (l.node.admitEvent_learns _), h.relay⟩

variable [AuthenticAead]

/-- What a node seals has the id the node gave it. -/
theorem Link.Identified.writes (h : l.Identified keys label) (hmove : l.Writes l') :
    l'.Identified keys label := by
  cases hmove with
  | relay hsame => exact ⟨h.node, h.relay.same hsame⟩
  | outbound hpeer outbound => exact ⟨h.node.setChannels hpeer rfl, h.relay⟩
  | @push _ peer key pushId payload record hfans hpush =>
    obtain ⟨channels, envelope, outbound, outcome, relay, hpeer, hseal, hrelay, rfl⟩ :=
      Link.sealAndPush_ok hpush
    have hnode : ({ l.node with peers := l.node.peers.insert peer { channels with
        outbound := outbound } } : SyncNode).Identified keys label :=
      h.node.setChannels hpeer rfl
    refine ⟨⟨hnode.named, hnode.keyed, hnode.applied, hnode.outbox, hnode.journal, hnode.peers⟩, ?_⟩
    have hcarries := carries_of_seal hseal
    have hhonest : HonestIds envelope := by
      intro session session' plain wire hopen hwire
      rw [hcarries.opens hopen] at hwire
      cases hfans with
      | event hmem _ =>
        cases hwire
        exact (h.node.outbox _ hmem).id
      | chunk _ _ _ => cases hwire
    have hpushed := h.relay.push (bucketFor peer l.node.label) pushId hhonest
    rw [hrelay] at hpushed
    exact hpushed

/-! ## Runs -/

/-- Every node of a vault of well-formed ids. -/
structure System.Identified (keys : String → DeviceKeys) (s : System) : Prop where
  nodes : ∀ label, (s.nodes label).Identified keys label
  relay : s.relay.HonestIds

/-- Only envelopes with well-formed ids are sent from outside. -/
def SendsHonestIds : VaultInput → Prop
  | .send _ _ envelope => HonestIds envelope
  | _ => True

variable {s : System}

omit [AuthenticAead] in
theorem System.Identified.setNode (h : s.Identified keys) {n : SyncNode}
    (hn : n.Identified keys label) : (s.setNode label n).Identified keys := by
  refine ⟨fun x => ?_, h.relay⟩
  simp only [System.setNode]
  split
  · rename_i hx
    rw [hx]
    exact hn
  · exact h.nodes x

omit [AuthenticAead] in
theorem System.Identified.setLink (h : s.Identified keys) {l : Link}
    (hl : l.Identified keys label) : (s.setLink label l).Identified keys := by
  refine ⟨fun x => ?_, hl.relay⟩
  simp only [System.setLink]
  split
  · rename_i hx
    rw [hx]
    exact hl.node
  · exact h.nodes x

omit [AuthenticAead] in
/-- A restarted node keeps what its journal has. -/
theorem SyncNode.Identified.restart (h : n.Identified keys label) {port : SyncPort}
    (hport : n.port = some port) :
    (SyncNode.durable n.keys label port).Identified keys label := by
  obtain ⟨hlabel, hkeys, hpeers, houtbox, -⟩ := durable_frame n.keys label port
  refine ⟨hlabel, hkeys.trans h.keyed, fun id e he => ?_, fun e he => ?_, ?_, ?_⟩
  · obtain ⟨hmem, hid⟩ := mem_journal_of_durable he
    exact ⟨hid, h.journal port hport e hmem⟩
  · rw [houtbox] at he
    cases he
  · rintro _ ⟨⟩
    exact h.journal port hport
  · intro peer channels hpeer
    simp [hpeers] at hpeer

omit [AuthenticAead] in
/-- Local inputs other than receiving create events or change no event. -/
theorem SyncNode.Identified.nodeStep (h : n.Identified keys label) (i : NodeInput)
    (hlocal : ∀ e, i ≠ .receive e) : (nodeStep n i).Identified keys label := by
  cases i with
  | appendDocument docId entry => exact h.createAdmit _
  | proposeMemory memoryId content =>
    have hcreated := h.createAdmit (.memoryProposed memoryId content)
    simp only [Altior.Sync.nodeStep, SyncNode.proposeMemory]
    split
    · exact ⟨h.named, h.keyed, h.applied, h.outbox, h.journal, h.peers⟩
    · split <;> rename_i heq <;> rwa [heq] at hcreated
  | forgetMemory memoryId at_ digest => exact h.createAdmit _
  | putBlob blobId blob =>
    have hblob : ({ n with blobs := n.blobs.insert blobId blob } : SyncNode).Identified keys label :=
      ⟨h.named, h.keyed, h.applied, h.outbox, h.journal, h.peers⟩
    have hcreated := hblob.createAdmit (.blobAdded blobId blob.totalSize blob.entries)
    simp only [Altior.Sync.nodeStep, SyncNode.putBlob]
    split <;> rename_i heq <;> rwa [heq] at hcreated
  | acknowledge => exact h.createAdmit _
  | receive e => exact absurd rfl (hlocal e)
  | portFaults faults =>
    refine ⟨h.named, h.keyed, h.applied, h.outbox, fun p hp => ?_, h.peers⟩
    obtain ⟨q, hq, rfl⟩ := Option.map_eq_some_iff.1 hp
    exact h.journal q hq

theorem System.Identified.systemStep (h : s.Identified keys) (i : SystemInput)
    (hlocal : ∀ label e, i ≠ .node label (.receive e)) : (systemStep s i).Identified keys := by
  have hlink (label : String) : (s.link label).Identified keys label := ⟨h.nodes label, h.relay⟩
  cases i with
  | node label input =>
    exact h.setNode ((h.nodes label).nodeStep input fun e he => hlocal label e (he ▸ rfl))
  | poll label =>
    exact h.setLink (Link.poll_invariant (C := False) (fun _ _ hl hmove => hl.reads hmove)
      (hlink label) False.elim)
  | flush label seed =>
    exact h.setLink (Link.flush_invariant (C := False) (fun _ _ hl hmove => hl.reads hmove)
      (fun _ hl _ => ⟨hl.node.createAdmit _, hl.relay⟩) (fun _ _ hl hmove => hl.writes hmove)
      (hlink label) seed False.elim)
  | restart label =>
    simp only [Altior.Sync.systemStep]
    split
    · exact h
    · rename_i port hport
      exact h.setNode ((h.nodes label).restart hport)
  | pair a b epoch epochSeq aToB bToA =>
    simp only [Altior.Sync.systemStep]
    split
    · exact h
    · split
      · exact h
      · rename_i nodeA nodeB hpair
        obtain ⟨channelsA, channelsB, hA, hB, rfl, rfl⟩ := pair_ok hpair
        refine System.Identified.setNode (h.setNode ?_) ?_
        · exact (h.nodes a).addChannels ⟨b, hA.trans (by rw [(h.nodes b).keyed])⟩
        · exact (h.nodes b).addChannels ⟨a, hB.trans (by rw [(h.nodes a).keyed])⟩

theorem System.Identified.vaultStep (h : s.Identified keys) (i : VaultInput)
    (hok : SendsHonestIds i) : (vaultStep s i).Identified keys := by
  cases i with
  | system input =>
    obtain hsame | ⟨hstep, hlocal⟩ := vaultStep_system s input
    · rw [hsame]
      exact h
    · rw [hstep]
      exact h.systemStep input hlocal
  | send bucket id envelope => exact ⟨h.nodes, h.relay.push bucket id hok⟩
  | compactRelay bucket =>
    exact ⟨h.nodes, fun label item hitem => h.relay label item (Relay.mem_queue_of_compact hitem)⟩
  | compactTombstones label =>
    have hn := h.nodes label
    refine h.setNode ⟨hn.named, hn.keyed, hn.applied, hn.outbox, fun p hp => ?_, hn.peers⟩
    obtain ⟨q, hq, rfl⟩ := Option.map_eq_some_iff.1 hp
    rw [(q.compactTombstones_keeps _).1]
    exact hn.journal q hq

omit [AuthenticAead] in
theorem identified_init (policy : RelayPolicy) (keys : String → DeviceKeys)
    (isDurable : String → Bool) : (vaultMachine policy keys isDurable).init.Identified keys := by
  refine ⟨fun label => ⟨rfl, rfl, fun id e he => ?_, fun e he => ?_, fun p hp e he => ?_,
    fun peer channels hpeer => ?_⟩, fun label item hitem => ?_⟩
  · simp [vaultMachine, systemMachine, SyncNode.new] at he
  · cases he
  · simp only [vaultMachine, systemMachine, SyncNode.new] at hp
    split at hp <;> cases hp
    cases he
  · simp [vaultMachine, systemMachine, SyncNode.new] at hpeer
  · simp [vaultMachine, systemMachine, Relay.queue, Relay.bucket, Relay.new, Bucket.empty] at hitem

/-- **Event identity.**  In every run of a vault to which only envelopes with
well-formed ids are sent, every applied event is kept under its own id, its id is
its origin's, and it is signed by its origin; so an id that is taken is taken by
the event of that origin and sequence number. -/
theorem applied_attributed (policy : RelayPolicy) (keys : String → DeviceKeys)
    (isDurable : String → Bool) (inputs : List VaultInput) (hok : ∀ i ∈ inputs, SendsHonestIds i)
    (label : String) :
    let n := ((vaultMachine policy keys isDurable).run inputs).nodes label
    (∀ (id : String) e, n.applied[id]? = some e → id = e.eventId ∧ Attributed keys label e) ∧
      ∀ origin seq, qualifiedId origin seq ∈ n.applied →
        ∃ e, n.applied[qualifiedId origin seq]? = some e ∧ e.origin = origin ∧ e.originSeq = seq := by
  have hmeets : (vaultMachine policy keys isDurable).Meets (fun _ i => SendsHonestIds i)
      (vaultMachine policy keys isDurable).init inputs := (Machine.meets_const _).2 hok
  have hidentified : ((vaultMachine policy keys isDurable).run inputs).Identified keys :=
    Machine.invariant_of_meets _ (fun s i h hok => h.vaultStep i hok)
      (identified_init policy keys isDurable) hmeets
  have happlied := (hidentified.nodes label).applied
  refine ⟨happlied, fun origin seq hmem => ?_⟩
  obtain ⟨e, he⟩ := Table.mem_iff.1 hmem
  obtain ⟨hid, hattributed⟩ := happlied _ e he
  obtain ⟨horigin, hseq⟩ := qualifiedId_inj (hid.trans hattributed.id)
  exact ⟨e, he, horigin.symm, hseq.symm⟩

end

section

attribute [local instance] idealPrimitives idealSyncCodec idealAuthentic

/-- An append to a document, signed by `b` under the given id. -/
def appendFromB (eventId : String) : WireEvent :=
  ⟨eventId, "b", 1, List.replicate 64 0, .documentAppend "d" "from b"⟩

/-- The session `b` sends to `a` with after the sample pairing. -/
def sessionFromB : SessionV2 where
  direction := .outbound
  sender := "b"
  receiver := "a"
  epoch := Vector.replicate 16 7
  epochSeq := 1
  counterBlock := some ⟨1, 1001⟩
  nextCounter := 1
  turnEphPub := zero32
  chainKey := Vector.replicate 32 1
  chainIkm := Vector.replicate 32 3
  turnNo := 0
  needsFreshTurn := false
  replay := .default

/-- What `b` seals for `a`, first thing after the pairing. -/
def sealedByB (wire : WireEvent) : Envelope :=
  match (sessionFromB.sealPlain (SyncCodec.toVec (.event wire))).1 with
  | .ok envelope => envelope
  | .error _ => .truncated 0

/-- The pairing, an envelope from `b`, and a poll of `a`. -/
def mailFromB (eventId : String) : List VaultInput :=
  [.system (pairing 1 1), .send (bucketFor "a" "b") "mail" (sealedByB (appendFromB eventId)),
    .system (.poll "a")]

theorem honestIds_sealedByB : HonestIds (sealedByB (appendFromB "b:1")) := by
  intro session session' plain wire hopen hwire
  have hseal : sessionFromB.sealPlain (SyncCodec.toVec (.event (appendFromB "b:1"))) =
      (.ok (sealedByB (appendFromB "b:1")), (sessionFromB.sealPlain
        (SyncCodec.toVec (.event (appendFromB "b:1")))).2) := by
    rfl
  rw [(carries_of_seal hseal).opens hopen] at hwire
  cases hwire
  decide

theorem applied_attributed_mail :
    (∀ i ∈ mailFromB "b:1", SendsHonestIds i) ∧
      ∃ e, (((vaultMachine .permissive pairKeys fun _ => true).run (mailFromB "b:1")).nodes
        "a").applied["b:1"]? = some e ∧ Attributed pairKeys "a" e := by
  have hok : ∀ i ∈ mailFromB "b:1", SendsHonestIds i := by
    simp only [mailFromB, List.forall_mem_cons]
    exact ⟨trivial, honestIds_sealedByB, trivial, fun _ h => by cases h⟩
  have hmem : "b:1" ∈ (((vaultMachine .permissive pairKeys fun _ => true).run
      (mailFromB "b:1")).nodes "a").applied := by
    decide +kernel
  obtain ⟨happlied, -⟩ := applied_attributed .permissive pairKeys (fun _ => true)
    (mailFromB "b:1") hok "a"
  obtain ⟨e, he⟩ := Table.mem_iff.1 hmem
  exact ⟨hok, e, he, (happlied _ e he).2⟩

/-- A peer takes the id of the node's own first event: the node keeps the peer's
event under it and drops its own as a duplicate. -/
theorem id_claimed_by_peer :
    let s := (vaultMachine .permissive pairKeys fun _ => true).run
      (mailFromB "a:1" ++ [.system (.node "a" (.appendDocument "d" "from a"))])
    (s.nodes "a").applied.toList.map (fun (id, e) => (id, e.origin, e.originSeq)) =
        [("a:1", "b", 1)] ∧
      (s.nodes "a").outbox.map JournalEvent.eventId = ["a:1"] ∧
      ((s.nodes "a").documents["d"]?.map fun entries => entries.toList) = some ["from b"] := by
  decide +kernel

end

end Altior.Sync
