import Altior.Crypto.Wire

/-!
# Any bytes at the receiver

What a receiving session makes of bytes that anyone may have written: when a refusal
leaves it as it was, and which of the bytes it opens are what the sender sealed.
-/

namespace Altior.Crypto

open Lib (Machine toBe)
open Primitives CipherBytes

namespace SessionV2

variable [Primitives] [CipherBytes]

/-- Authenticates and decrypts the bytes of an envelope. -/
def openBytes (s : SessionV2) (bytes : List UInt8) : Except CryptoError Plain × SessionV2 :=
  s.openEnvelope (.decode bytes)

/-! ## What is refused -/

/-- The receiver is where it was. -/
structure Unmoved (s s' : SessionV2) : Prop where
  chainIkm : s'.chainIkm = s.chainIkm
  turnNo : s'.turnNo = s.turnNo
  replay : s'.replay = s.replay

/-- The bytes are an authentic envelope of the next turn, under the counter zero. -/
def AuthenticAtZero (s : SessionV2) (bytes : List UInt8) : Prop :=
  ∃ ephPub nonce cipher shared plain,
    Envelope.decode bytes =
      .full envelopeVersion s.epochSeq s.epoch (s.turnNo + 1) 0 ephPub nonce cipher ∧
    sharedSecretFrom s.chainKey ephPub = .ok shared ∧
    decrypt (s.turnKey (chainTurn s.chainIkm shared) (s.turnNo + 1)) nonce
      (s.associatedData (s.turnNo + 1) 0) cipher = some plain

variable {counter nonce turnNo : Nat} {cipher : Cipher} {ephPub : Bytes32} {epoch : Epoch}
  {epochSeq : UInt32} {s : SessionV2} {version : UInt8}

omit [Primitives] [CipherBytes] in
/-- A fresh window accepts all counters but zero. -/
theorem accept_default_pos {w : ReplayWindow}
    (h : ReplayWindow.default.accept counter = (false, w)) : counter = 0 := by
  by_contra hne
  obtain ⟨w', haccept, -⟩ := accept_above (show ReplayWindow.default.highest < counter from
    Nat.pos_of_ne_zero hne)
  rw [haccept] at h
  cases h

omit [CipherBytes] in
/-- What a refused envelope moves: nothing, or the receiver into a turn whose counter is
zero. -/
theorem unmoved_of_refused {s' : SessionV2} {e : CryptoError}
    (h : s.openEnvelope (.full version epochSeq epoch turnNo counter ephPub nonce cipher) =
      (.error e, s')) :
    Unmoved s s' ∨ (version = envelopeVersion ∧ epochSeq = s.epochSeq ∧ epoch = s.epoch ∧
      turnNo = s.turnNo + 1 ∧ counter = 0 ∧ ∃ shared plain,
        sharedSecretFrom s.chainKey ephPub = .ok shared ∧
        decrypt (s.turnKey (chainTurn s.chainIkm shared) turnNo) nonce
          (s.associatedData turnNo counter) cipher = some plain) := by
  have hself : Unmoved s s := ⟨rfl, rfl, rfl⟩
  simp only [openEnvelope] at h
  split at h
  · cases h
    exact .inl hself
  rename_i hversion
  split at h
  · cases h
    exact .inl hself
  rename_i hepoch
  split at h
  · cases h
    exact .inl hself
  by_cases hnext : turnNo = s.turnNo + 1
  · simp only [if_pos hnext] at h
    cases hshared : sharedSecretFrom s.chainKey ephPub with
    | error e' =>
      rw [hshared] at h
      cases h
      exact .inl hself
    | ok shared =>
      rw [hshared] at h
      simp only [Except.map] at h
      split at h
      · cases h
        exact .inl hself
      rename_i plain hplain
      split at h
      · rename_i haccept
        refine .inr ⟨not_not.1 hversion, not_not.1 fun hne => hepoch (.inl hne),
          not_not.1 fun hne => hepoch (.inr hne), hnext, accept_default_pos haccept, shared, plain,
          rfl, hplain⟩
      · cases h
  · simp only [if_neg hnext] at h
    split at h
    · cases h
      exact .inl hself
    split at h
    · cases h
      exact .inl hself
    · cases h

omit [CipherBytes] in
/-- An authentic envelope of the next turn under the counter zero is refused in its turn. -/
theorem openEnvelope_next_zero {shared : Bytes32} {plain : Plain}
    (hshared : sharedSecretFrom s.chainKey ephPub = .ok shared)
    (hdecrypt : decrypt (s.turnKey (chainTurn s.chainIkm shared) (s.turnNo + 1)) nonce
      (s.associatedData (s.turnNo + 1) 0) cipher = some plain) :
    s.openEnvelope (.full envelopeVersion s.epochSeq s.epoch (s.turnNo + 1) 0 ephPub nonce cipher) =
      (.error (.replayRejected 0), { s with
        chainIkm := chainTurn s.chainIkm shared, turnNo := s.turnNo + 1, replay := .default }) := by
  have haccept : ReplayWindow.default.accept 0 = (false, .default) := rfl
  simp only [openEnvelope, ne_eq, not_true_eq_false, or_self, and_false, if_false, if_true, hshared,
    Except.map, hdecrypt, haccept]

/-- **A refusal changes nothing**, unless the bytes are an authentic envelope of the next
turn under the counter zero: the turn is committed before the window looks at it. -/
theorem refused_unmoved_iff (s : SessionV2) (bytes : List UInt8) :
    (∀ e s', s.openBytes bytes = (.error e, s') → Unmoved s s') ↔ ¬ s.AuthenticAtZero bytes := by
  constructor
  · rintro hall ⟨ephPub, nonce, cipher, shared, plain, hdecode, hshared, hdecrypt⟩
    have hopen := openEnvelope_next_zero hshared hdecrypt
    rw [← hdecode] at hopen
    have hturn := (hall _ _ hopen).turnNo
    exact absurd hturn (Nat.succ_ne_self _)
  · intro hnot e s' hopen
    unfold openBytes at hopen
    cases hdecode : Envelope.decode bytes with
    | truncated size =>
      rw [hdecode] at hopen
      cases hopen
      exact ⟨rfl, rfl, rfl⟩
    | full version epochSeq epoch turnNo counter ephPub nonce cipher =>
      rw [hdecode] at hopen
      refine (unmoved_of_refused hopen).resolve_right ?_
      rintro ⟨rfl, rfl, rfl, rfl, rfl, shared, plain, hshared, hdecrypt⟩
      exact hnot ⟨ephPub, nonce, cipher, shared, plain, hdecode, hshared, hdecrypt⟩

/-! ## What is opened -/

omit [CipherBytes] in
/-- What is opened was authenticated for this direction and epoch. -/
theorem decrypt_of_open {r r' : SessionV2} {plain : Plain}
    (h : r.openEnvelope (.full version epochSeq epoch turnNo counter ephPub nonce cipher) =
      (.ok plain, r')) :
    version = envelopeVersion ∧ epochSeq = r.epochSeq ∧ epoch = r.epoch ∧
      ∃ key, decrypt key nonce (r.associatedData turnNo counter) cipher = some plain := by
  simp only [openEnvelope] at h
  split at h
  · cases h
  rename_i hversion
  split at h
  · cases h
  rename_i hepoch
  split at h
  · cases h
  split at h
  · cases h
  split at h
  · cases h
  rename_i plain' hplain
  split at h
  · cases h
  · cases h
    exact ⟨not_not.1 hversion, not_not.1 fun hne => hepoch (.inl hne),
      not_not.1 fun hne => hepoch (.inr hne), _, hplain⟩

omit [CipherBytes] in
/-- In the turn the receiver is in nothing looks at the ephemeral key. -/
theorem openEnvelope_ephPub {r : SessionV2} {other : Bytes32} :
    r.openEnvelope (.full version epochSeq epoch r.turnNo counter ephPub nonce cipher) =
      r.openEnvelope (.full version epochSeq epoch r.turnNo counter other nonce cipher) := by
  have hnext : ¬ r.turnNo = r.turnNo + 1 := by omega
  simp only [openEnvelope, hnext, if_false]

/-- **An ideal AEAD**: what opens under the associated data of the receiver was sealed,
under the same key, nonce and data, by the sender. -/
def Unforged (r : SessionV2) (sent : List Sealed) : Prop :=
  ∀ key nonce turnNo counter cipher plain,
    decrypt key nonce (r.associatedData turnNo counter) cipher = some plain →
    ∃ x ∈ sent, x.key = key ∧ x.nonce = nonce ∧ x.data = r.associatedData turnNo counter ∧
      x.plain = plain ∧ x.envelope.payload = some cipher

section Sender

omit [CipherBytes]

/-- What opening a turn changes. -/
theorem openTurn_ok {s' : SessionV2} {seed : Bytes32} (h : s.openTurn seed = .ok s') :
    ∃ chain ephPub, s' = { s with
      chainIkm := chain, turnEphPub := ephPub, turnNo := s.turnNo + 1, needsFreshTurn := false } := by
  unfold openTurn at h
  split at h
  · cases h
  split at h
  · cases h
  cases hshared : sharedSecretFrom seed s.chainKey with
  | error e =>
    rw [hshared] at h
    cases h
  | ok shared =>
    rw [hshared] at h
    cases h
    exact ⟨_, _, rfl⟩

/-- The envelope of a sealing, with the session it was made in. -/
structure MadeIn (s : SessionV2) (x : Sealed) (turnNo : Nat) (ephPub : Bytes32) : Prop where
  data : x.data = s.associatedData turnNo x.nonce
  envelope : ∃ cipher, x.envelope =
    .full envelopeVersion s.epochSeq s.epoch turnNo x.nonce ephPub x.nonce cipher

/-- What a session has sealed since a first state of it. -/
structure Made (s₀ : SessionV2) (s : Sending) : Prop where
  sender : s.session.sender = s₀.sender
  receiver : s.session.receiver = s₀.receiver
  epoch : s.session.epoch = s₀.epoch
  epochSeq : s.session.epochSeq = s₀.epochSeq
  made : ∀ x ∈ s.sent, ∃ turnNo ephPub, MadeIn s₀ x turnNo ephPub ∧ turnNo ≤ s.session.turnNo ∧
    (turnNo = s.session.turnNo → ephPub = s.session.turnEphPub)
  /-- A turn has one ephemeral key. -/
  single : ∀ x ∈ s.sent, ∀ y ∈ s.sent, ∀ turnNo ephPub other,
    MadeIn s₀ x turnNo ephPub → MadeIn s₀ y turnNo other → ephPub = other

theorem MadeIn.eq {x : Sealed} {turnNo' : Nat} {ephPub' : Bytes32} (h : MadeIn s x turnNo ephPub)
    (h' : MadeIn s x turnNo' ephPub') : turnNo = turnNo' ∧ ephPub = ephPub' := by
  obtain ⟨_, henvelope⟩ := h.envelope
  obtain ⟨_, henvelope'⟩ := h'.envelope
  rw [henvelope] at henvelope'
  cases henvelope'
  exact ⟨rfl, rfl⟩

/-- Calls that seal nothing. -/
theorem Made.quiet {s₀ session : SessionV2} {s : Sending} {unsent : Bool} (h : Made s₀ s)
    (hsender : session.sender = s.session.sender) (hreceiver : session.receiver = s.session.receiver)
    (hepoch : session.epoch = s.session.epoch) (hepochSeq : session.epochSeq = s.session.epochSeq)
    (hturn : s.session.turnNo ≤ session.turnNo)
    (heph : session.turnNo = s.session.turnNo → session.turnEphPub = s.session.turnEphPub) :
    Made s₀ ⟨session, s.sent, unsent⟩ where
  sender := hsender.trans h.sender
  receiver := hreceiver.trans h.receiver
  epoch := hepoch.trans h.epoch
  epochSeq := hepochSeq.trans h.epochSeq
  single := h.single
  made x hx := by
    obtain ⟨turnNo, ephPub, hmade, hle, hcurrent⟩ := h.made x hx
    refine ⟨turnNo, ephPub, hmade, Nat.le_trans hle hturn, fun hnow => ?_⟩
    dsimp only at hnow
    have hsame : turnNo = s.session.turnNo := by omega
    rw [hcurrent hsame]
    exact (heph (hnow.symm.trans hsame)).symm

/-- One more sealing. -/
theorem Made.push {s₀ : SessionV2} {s : Sending} {x : Sealed} (h : Made s₀ s)
    (hx : MadeIn s₀ x s.session.turnNo s.session.turnEphPub) :
    Made s₀ { s with sent := s.sent ++ [x] } where
  sender := h.sender
  receiver := h.receiver
  epoch := h.epoch
  epochSeq := h.epochSeq
  made y hy := by
    obtain hold | hnew := List.mem_append.1 hy
    · exact h.made y hold
    · obtain rfl := List.mem_singleton.1 hnew
      exact ⟨_, _, hx, Nat.le_refl _, fun _ => rfl⟩
  single y hy z hz turnNo ephPub other hmy hmz := by
    have hcurrent {w : Sealed} (hw : w ∈ s.sent) {key : Bytes32}
        (hmw : MadeIn s₀ w s.session.turnNo key) : key = s.session.turnEphPub := by
      obtain ⟨turnNo', ephPub', hmade, -, hnow⟩ := h.made w hw
      obtain ⟨hturn, rfl⟩ := hmade.eq hmw
      exact hnow hturn
    obtain hyold | hynew := List.mem_append.1 hy
    · obtain hzold | hznew := List.mem_append.1 hz
      · exact h.single y hyold z hzold turnNo ephPub other hmy hmz
      · rw [List.mem_singleton.1 hznew] at hmz
        obtain ⟨rfl, rfl⟩ := hmz.eq hx
        exact hcurrent hyold hmy
    · rw [List.mem_singleton.1 hynew] at hmy
      obtain ⟨rfl, rfl⟩ := hmy.eq hx
      obtain hzold | hznew := List.mem_append.1 hz
      · exact (hcurrent hzold hmz).symm
      · rw [List.mem_singleton.1 hznew] at hmz
        exact (hmz.eq hx).2.symm

/-- One call of the sender. -/
theorem Made.step {s₀ : SessionV2} {s : Sending} (h : Made s₀ s) (i : SealInput) :
    Made s₀ (s.step i) := by
  cases i with
  | openTurn seed =>
    simp only [Sending.step]
    split
    · exact h
    · rename_i session hopen
      obtain ⟨chain, ephPub, rfl⟩ := openTurn_ok hopen
      exact h.quiet rfl rfl rfl rfl (Nat.le_succ _) fun hturn => absurd hturn (Nat.succ_ne_self _)
  | sealPlain plain =>
    cases hseal : s.session.sealPlain plain with
    | mk result session =>
      obtain ⟨counter, block, -, hframe⟩ := s.session.sealPlain_frame plain
      rw [hseal] at hframe
      cases hframe
      cases result with
      | error e =>
        simp only [Sending.step, hseal]
        exact h.quiet rfl rfl rfl rfl (Nat.le_refl _) fun _ => rfl
      | ok envelope =>
        obtain ⟨cipher, -, -, -, henvelope⟩ := sealPlain_ok hseal
        rw [Sending.step_seal hseal]
        have hmade : MadeIn s₀ (s.session.sealing plain envelope) s.session.turnNo
            s.session.turnEphPub := by
          refine ⟨?_, cipher, ?_⟩
          · simp only [sealing, associatedData, h.sender, h.receiver, h.epoch, h.epochSeq]
          · simp only [sealing, henvelope, h.epoch, h.epochSeq]
        exact (h.push hmade).quiet rfl rfl rfl rfl (Nat.le_refl _) fun _ => rfl
  | setCounterBlock block =>
    simp only [Sending.step, SessionV2.setCounterBlock]
    split
    · exact h
    · rename_i hblock
      split at hblock
      · cases hblock
      · cases hblock
        exact h.quiet rfl rfl rfl rfl (Nat.le_refl _) fun _ => rfl

theorem made_run (s : SessionV2) (inputs : List SealInput) :
    Made s ((sendingMachine s).run inputs) :=
  (sendingMachine s).invariant_of_meets (I := Made s) (fun _ i h _ => h.step i)
    ⟨rfl, rfl, rfl, rfl, nofun, nofun⟩ (sendingMachine s).meets_true

end Sender

/-- The bytes agree but for the ephemeral key. -/
def AgreesButKey (bytes other : List UInt8) : Prop :=
  bytes.take 37 = other.take 37 ∧ bytes.drop 69 = other.drop 69

theorem agreesButKey_encode (version : UInt8) (epochSeq : UInt32) (epoch : Epoch)
    (turnNo counter nonce : Nat) (ephPub other : Bytes32) (cipher : Cipher) :
    AgreesButKey (Envelope.full version epochSeq epoch turnNo counter ephPub nonce cipher).encode
      (Envelope.full version epochSeq epoch turnNo counter other nonce cipher).encode := by
  have hbytes (key : Bytes32) :
      (Envelope.full version epochSeq epoch turnNo counter key nonce cipher).encode =
        (version :: (toBe 4 epochSeq.toNat ++ (epoch.toList ++ (toBe 8 turnNo ++
          toBe 8 counter)))) ++ (key.toList ++ (toBe 12 nonce ++ toBytes cipher)) := by
    simp only [Envelope.encode, List.cons_append, List.append_assoc]
  have hfront : (version :: (toBe 4 epochSeq.toNat ++ (epoch.toList ++ (toBe 8 turnNo ++
      toBe 8 counter)))).length = 37 := by simp
  constructor
  · rw [hbytes, hbytes, List.take_left' hfront, List.take_left' hfront]
  · have hdrop (key : Bytes32) :
        (Envelope.full version epochSeq epoch turnNo counter key nonce cipher).encode.drop 69 =
          toBe 12 nonce ++ toBytes cipher := by
      rw [hbytes, ← List.append_assoc]
      exact List.drop_left' (by rw [List.length_append, hfront, Vector.length_toList])
    rw [hdrop, hdrop]

/-- The header of sealed bytes that are long enough. -/
theorem ephemeral_encode (hturn : turnNo ≤ u64Max)
    (hlong : ¬ (Envelope.full version epochSeq epoch turnNo counter ephPub nonce
      cipher).encode.length < minEnvelopeLen) :
    (Envelope.decode (Envelope.full version epochSeq epoch turnNo counter ephPub nonce
      cipher).encode).ephemeral = some (turnNo, ephPub) := by
  rw [Envelope.decode, if_neg hlong, Envelope.ephemeral, turnNo_encode hturn, ephPub_encode]

/-- **What opens was sealed**, but for the ephemeral key: with an ideal AEAD the bytes a
receiver opens are those of an envelope of the sender iff they carry an ephemeral key the
sender sealed with in that turn, and in all other bytes they are an envelope with the same
plaintext. -/
theorem opened_sealed_iff {s r r' : SessionV2} {inputs : List SealInput} {bytes : List UInt8}
    {plain : Plain} (hideal : Unforged r ((sendingMachine s).run inputs).sent)
    (hturn : ((sendingMachine s).run inputs).session.turnNo ≤ u64Max)
    (hopen : r.openBytes bytes = (.ok plain, r')) :
    (bytes ∈ ((sendingMachine s).run inputs).sent.map (fun x => x.envelope.encode) ↔
      (Envelope.decode bytes).ephemeral ∈
        ((sendingMachine s).run inputs).sent.map fun x => x.envelope.ephemeral) ∧
    ∃ x ∈ ((sendingMachine s).run inputs).sent, x.plain = plain ∧
      AgreesButKey bytes x.envelope.encode := by
  have hmade := made_run s inputs
  generalize (sendingMachine s).run inputs = sender at hideal hturn hmade ⊢
  have hlong : ¬ bytes.length < minEnvelopeLen := by
    intro hshort
    rw [openBytes, Envelope.decode, if_pos hshort] at hopen
    cases hopen
  have hback : (Envelope.decode bytes).encode = bytes := encode_decode (Nat.not_lt.1 hlong)
  unfold openBytes at hopen
  cases hdecode : Envelope.decode bytes with
  | truncated size =>
    rw [hdecode] at hopen
    cases hopen
  | full version epochSeq epoch turnNo counter ephPub nonce cipher =>
    rw [hdecode] at hopen hback
    obtain ⟨rfl, rfl, rfl, key, hdecrypt⟩ := decrypt_of_open hopen
    obtain ⟨x, hx, -, hnonce, hdata, hplain, hpayload⟩ := hideal _ _ _ _ _ _ hdecrypt
    -- The associated data and the nonce fix all fields but the ephemeral key.
    obtain ⟨turnNo', ephPub', hin, -, -⟩ := hmade.made x hx
    obtain ⟨cipher', henvelope⟩ := hin.envelope
    obtain rfl : cipher' = cipher := by
      rw [henvelope] at hpayload
      exact Option.some.inj hpayload
    have hfields := hin.data.symm.trans hdata
    simp only [associatedData, AssociatedData.mk.injEq, true_and] at hfields
    obtain ⟨hepochSeq, hepoch, rfl, hcounter, -, -⟩ := hfields
    rw [hepochSeq, hepoch, hcounter] at henvelope
    rw [hcounter] at hnonce
    subst hnonce
    refine ⟨⟨fun hmem => ?_, fun hmem => ?_⟩, x, hx, hplain, ?_⟩
    · obtain ⟨y, hy, hbytes⟩ := List.mem_map.1 hmem
      obtain ⟨turnNo'', ephPub'', hmadeIn, hle, -⟩ := hmade.made y hy
      obtain ⟨cipher'', henvelope'⟩ := hmadeIn.envelope
      refine List.mem_map.2 ⟨y, hy, ?_⟩
      rw [henvelope'] at hbytes ⊢
      rw [← hdecode, ← hbytes, ephemeral_encode (Nat.le_trans hle hturn) (hbytes ▸ hlong)]
      rfl
    · obtain ⟨y, hy, hephemeral⟩ := List.mem_map.1 hmem
      obtain ⟨turnNo'', ephPub'', hmadeIn, -, -⟩ := hmade.made y hy
      obtain ⟨cipher'', henvelope'⟩ := hmadeIn.envelope
      rw [henvelope'] at hephemeral
      cases hephemeral
      obtain rfl := hmade.single x hx y hy _ _ _ hin hmadeIn
      exact List.mem_map.2 ⟨x, hx, by rw [henvelope, hback]⟩
    · rw [← hback, henvelope]
      exact agreesButKey_encode ..

end SessionV2

/-! ## One envelope -/

/-- Primitives whose AEAD opens one ciphertext, the empty plaintext sealed in a turn of the
sample pairing under a counter. -/
abbrev loggedPrimitives (turnNo counter : Nat) : Primitives where
  Plain := List UInt8
  Cipher := List UInt8
  decCipher := inferInstance
  cipherLen := List.length
  x25519Public secret := secret
  diffieHellman _ _ := Vector.replicate 32 1
  ed25519Public seed := seed
  sign _ _ := Vector.replicate 64 0
  verify _ _ signature := signature = Vector.replicate 64 0
  hkdf _ ikm _ := ikm
  sha256 bytes := Vector.ofFn fun i => bytes[i]?.getD 0
  encrypt _ _ _ plain := some (plain ++ List.replicate 16 0)
  decrypt key nonce data cipher :=
    if key = Vector.replicate 32 1 ∧ nonce = counter ∧
        data = ⟨envelopeVersion, 1, Vector.replicate 16 1, turnNo, counter, "a", "b"⟩ ∧
        cipher = List.replicate 16 0 then some []
    else none

/-- Ciphertexts that are bytes. -/
abbrev loggedBytes (turnNo counter : Nat) : @CipherBytes (loggedPrimitives turnNo counter) :=
  let _ := loggedPrimitives turnNo counter
  { toBytes := id
    ofBytes := id
    toBytes_ofBytes := fun _ => rfl
    ofBytes_toBytes := fun _ => rfl
    length_toBytes := fun _ => rfl }

theorem replicate_ne_zero32 {b : UInt8} (h : b ≠ 0) : Vector.replicate 32 b ≠ zero32 := by
  intro heq
  have hfirst := congrArg (fun v : Bytes32 => v[0]) heq
  simp only [zero32, Vector.getElem_replicate] at hfirst
  exact h hfirst

/-- A session of the sample pairing, with the block of an outbound one. -/
def loggedSession (direction : Direction) (chainKey : Bytes32) (block : Option CounterBlock)
    (nextCounter : Nat) : SessionV2 where
  direction := direction
  sender := "a"
  receiver := "b"
  epoch := Vector.replicate 16 1
  epochSeq := 1
  counterBlock := block
  nextCounter := nextCounter
  turnEphPub := zero32
  chainKey := chainKey
  chainIkm := Vector.replicate 32 1
  turnNo := 0
  needsFreshTurn := false
  replay := .default

/-- The sending session. -/
def loggedOutbound : SessionV2 :=
  loggedSession .outbound sampleReceiver.staticSecret (some ⟨1, 3⟩) 1

/-- The receiving session. -/
def loggedInbound : SessionV2 := loggedSession .inbound sampleReceiver.staticSecret none 0

/-- An envelope of the pairing with the one ciphertext. -/
def loggedEnvelope (turnNo counter : Nat) (ephPub : Bytes32) :
    @Envelope (loggedPrimitives turnNo counter) :=
  @Envelope.full (loggedPrimitives turnNo counter) envelopeVersion 1 (Vector.replicate 16 1) turnNo
    counter ephPub counter (List.replicate 16 0)

section Logged

variable (turnNo counter : Nat)

theorem sharedSecretFrom_logged (secret peerPublic : Bytes32) :
    @SessionV2.sharedSecretFrom (loggedPrimitives turnNo counter) secret peerPublic =
      .ok (Vector.replicate 32 1) := by
  let _ := loggedPrimitives turnNo counter
  unfold SessionV2.sharedSecretFrom
  exact if_neg (replicate_ne_zero32 (by decide))

theorem matching_logged :
    @SessionV2.Matching (loggedPrimitives turnNo counter) loggedOutbound loggedInbound := by
  let _ := loggedPrimitives turnNo counter
  have hids : sampleSender.id ≠ sampleReceiver.id := by decide
  refine @SessionV2.Matching.paired _ sampleSender sampleReceiver (Vector.replicate 16 1) 1
    (some ⟨1, 3⟩) _ _ ?_ ?_
  · unfold SessionV2.outbound
    rw [if_neg (show ¬ sampleSender.id = sampleReceiver.publicIdentity.id from hids)]
    dsimp only
    rw [if_neg Nat.one_ne_zero, sharedSecretFrom_logged]
    rfl
  · unfold SessionV2.inbound
    rw [if_neg (show ¬ sampleReceiver.id = sampleSender.publicIdentity.id from hids.symm),
      sharedSecretFrom_logged]
    rfl

theorem decode_logged (hturn : turnNo ≤ u64Max) (hcounter : counter ≤ u64Max) (ephPub : Bytes32) :
    let _ := loggedPrimitives turnNo counter
    let _ := loggedBytes turnNo counter
    Envelope.decode (loggedEnvelope turnNo counter ephPub).encode =
      loggedEnvelope turnNo counter ephPub := by
  let _ := loggedPrimitives turnNo counter
  let _ := loggedBytes turnNo counter
  exact decode_encode hturn hcounter hcounter
    (show 16 ≤ (List.replicate 16 (0 : UInt8)).length by decide)

theorem decrypt_logged (direction : Direction) (block : Option CounterBlock) (nextCounter : Nat)
    (chainKey : Bytes32) :
    let _ := loggedPrimitives turnNo counter
    decrypt (Vector.replicate 32 1) counter
      ((loggedSession direction chainKey block nextCounter).associatedData turnNo counter)
      (List.replicate 16 (0 : UInt8)) = some ([] : List UInt8) :=
  if_pos ⟨rfl, rfl, rfl, rfl⟩

end Logged

/-- A receiver at the counter zero of the next turn is refused and moved. -/
theorem refused_and_moved :
    ¬ ∀ (primitives : Primitives) (_ : @CipherBytes primitives) (s s' : SessionV2)
      (bytes : List UInt8) (e : CryptoError), s.openBytes bytes = (.error e, s') →
      SessionV2.Unmoved s s' := by
  intro h
  let _ := loggedPrimitives 1 0
  let _ := loggedBytes 1 0
  have hopen : loggedInbound.openEnvelope (loggedEnvelope 1 0 zero32) = _ :=
    SessionV2.openEnvelope_next_zero (sharedSecretFrom_logged 1 0 _ _) (decrypt_logged 1 0 _ _ _ _)
  have hdecode := decode_logged 1 0 (by decide) (by decide) zero32
  have hbytes := (congrArg loggedInbound.openEnvelope hdecode).trans hopen
  exact absurd (h _ _ _ _ _ _ hbytes).turnNo (by decide)

section Sealed

/-- Everything that opens is the one envelope the sender has sealed. -/
theorem unforged_logged :
    let _ := loggedPrimitives 0 1
    SessionV2.Unforged loggedInbound
      ((SessionV2.sendingMachine loggedOutbound).run [.sealPlain ([] : List UInt8)]).sent := by
  intro _ key nonce turnNo counter cipher plain h
  change (if key = Vector.replicate 32 1 ∧ nonce = 1 ∧ _ = _ ∧ cipher = List.replicate 16 0 then
    some ([] : List UInt8) else none) = some plain at h
  split at h
  · rename_i hlogged
    obtain ⟨rfl, rfl, hdata, rfl⟩ := hlogged
    cases h
    exact ⟨_, List.mem_singleton_self _, rfl, rfl, hdata.symm, rfl, rfl⟩
  · cases h

/-- What a receiver makes of the envelope, whatever its ephemeral key. -/
theorem openBytes_logged (ephPub : Bytes32) :
    let _ := loggedPrimitives 0 1
    let _ := loggedBytes 0 1
    ∃ r', loggedInbound.openBytes (loggedEnvelope 0 1 ephPub).encode =
      (.ok ([] : List UInt8), r') := by
  intro _ _
  obtain ⟨w, haccept, -⟩ := SessionV2.accept_above (show loggedInbound.replay.highest < 1 by decide)
  have hsealed : loggedInbound.openEnvelope (loggedEnvelope 0 1 zero32) = _ :=
    SessionV2.openEnvelope_current (decrypt_logged 0 1 _ _ _ _) haccept
  have hopen : loggedInbound.openEnvelope (loggedEnvelope 0 1 ephPub) = _ :=
    SessionV2.openEnvelope_ephPub.trans hsealed
  have hdecode := decode_logged 0 1 (by decide) (by decide) ephPub
  exact ⟨_, (congrArg loggedInbound.openEnvelope hdecode).trans hopen⟩

/-- The envelope as it was sealed. -/
theorem opened_sealed_iff_logged :
    let _ := loggedPrimitives 0 1
    let _ := loggedBytes 0 1
    let sent := ((SessionV2.sendingMachine loggedOutbound).run [.sealPlain ([] : List UInt8)]).sent
    ((loggedEnvelope 0 1 zero32).encode ∈ sent.map (fun x => x.envelope.encode) ↔
      (Envelope.decode (loggedEnvelope 0 1 zero32).encode).ephemeral ∈
        sent.map fun x => x.envelope.ephemeral) ∧
    ∃ x ∈ sent, x.plain = ([] : List UInt8) ∧
      SessionV2.AgreesButKey (loggedEnvelope 0 1 zero32).encode x.envelope.encode := by
  intro _ _ _
  obtain ⟨r', hopen⟩ := openBytes_logged zero32
  exact SessionV2.opened_sealed_iff unforged_logged (by decide) hopen

/-- With another ephemeral key the envelope still opens. -/
theorem swapped_key_opens :
    ¬ ∀ (primitives : Primitives) (_ : @CipherBytes primitives) (s r r' : SessionV2)
      (inputs : List SessionV2.SealInput) (bytes : List UInt8) (plain : Plain),
      SessionV2.Matching s r →
      SessionV2.Unforged r ((SessionV2.sendingMachine s).run inputs).sent →
      ((SessionV2.sendingMachine s).run inputs).session.turnNo ≤ u64Max →
      r.openBytes bytes = (.ok plain, r') →
      bytes ∈ ((SessionV2.sendingMachine s).run inputs).sent.map fun x => x.envelope.encode := by
  intro h
  let _ := loggedPrimitives 0 1
  let _ := loggedBytes 0 1
  obtain ⟨r', hopen⟩ := openBytes_logged (Vector.replicate 32 9)
  have hmem := h _ _ _ _ _ _ _ _ (matching_logged 0 1) unforged_logged (by decide) hopen
  have hsame : (loggedEnvelope 0 1 (Vector.replicate 32 9)).encode = (loggedEnvelope 0 1 zero32).encode :=
    List.mem_singleton.1 hmem
  have hkey := congrArg (vectorAt 32 37) hsame
  unfold loggedEnvelope at hkey
  rw [ephPub_encode, ephPub_encode] at hkey
  exact replicate_ne_zero32 (by decide) hkey

end Sealed

end Altior.Crypto
