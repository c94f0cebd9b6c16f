import Altior.Crypto.Replay

/-!
# Two ends of a ratchet

The sending and the receiving session of one direction, and the envelopes between
them.  The sender advances its chain when it opens a turn, the receiver when the
first envelope of the turn opens; this module says what keeps the two in step.
-/

namespace Altior.Crypto

open Primitives

/-- What the crate relies on X25519 for: both ends compute the same secret. -/
class AgreeingKeys [Primitives] : Prop where
  comm : ∀ a b : Bytes32, diffieHellman a (x25519Public b) = diffieHellman b (x25519Public a)

theorem ideal_agreeing (P : Type) [DecidableEq P] : @AgreeingKeys (ideal P) := by
  let _ := ideal P
  constructor
  intro a b
  refine Vector.ext fun i hi => ?_
  simp only [diffieHellman, x25519Public, Vector.getElem_zipWith]
  exact UInt8.xor_comm _ _

/-- What the crate relies on the AEAD for at the honest ends: what was sealed opens again. -/
class CorrectAead [Primitives] : Prop where
  decrypt_of_encrypt : ∀ {k : Bytes32} {n : Nat} {a : AssociatedData} {m : Plain} {c : Cipher},
    encrypt k n a m = some c → decrypt k n a c = some m

instance [Primitives] [AuthenticAead] : CorrectAead := ⟨AuthenticAead.decrypt_of_encrypt⟩

namespace SessionV2

variable [Primitives]

/-- Opening envelopes one after the other. -/
inductive OpensTo : SessionV2 → List Envelope → SessionV2 → Prop
  | nil (r : SessionV2) : OpensTo r [] r
  | cons {r r' r'' : SessionV2} {envelope : Envelope} {envelopes : List Envelope} {plain : Plain}
      (hopen : r.openEnvelope envelope = (.ok plain, r')) (hrest : OpensTo r' envelopes r'') :
      OpensTo r (envelope :: envelopes) r''

/-- Whether the envelopes open one after the other. -/
def opensAll (r : SessionV2) : List Envelope → Bool
  | [] => true
  | envelope :: envelopes =>
    match r.openEnvelope envelope with
    | (.ok _, r) => opensAll r envelopes
    | (.error _, _) => false

variable {envelopes : List Envelope} {r' : SessionV2} {plain : Plain}

theorem OpensTo.opensAll {r : SessionV2} (h : OpensTo r envelopes r') :
    r.opensAll envelopes = true := by
  induction h with
  | nil r => rfl
  | cons hopen _ ih =>
    simp only [SessionV2.opensAll, hopen]
    exact ih

theorem OpensTo.unique {r r₁ r₂ : SessionV2} (h : OpensTo r envelopes r₁)
    (h' : OpensTo r envelopes r₂) : r₁ = r₂ := by
  induction h with
  | nil r =>
    cases h'
    rfl
  | cons hopen _ ih =>
    obtain _ | ⟨hopen', hrest'⟩ := h'
    rw [hopen] at hopen'
    cases hopen'
    exact ih hrest'

theorem OpensTo.append {r r'' : SessionV2} {front back : List Envelope} (h : OpensTo r front r')
    (h' : OpensTo r' back r'') : OpensTo r (front ++ back) r'' := by
  induction h with
  | nil r => exact h'
  | cons hopen _ ih => exact .cons hopen (ih h')

theorem OpensTo.split {r r'' : SessionV2} {front back : List Envelope}
    (h : OpensTo r (front ++ back) r'') : ∃ r', OpensTo r front r' ∧ OpensTo r' back r'' := by
  induction front generalizing r with
  | nil => exact ⟨r, .nil r, h⟩
  | cons envelope front ih =>
    obtain _ | ⟨hopen, hrest⟩ := h
    obtain ⟨r', hfront, hback⟩ := ih hrest
    exact ⟨r', .cons hopen hfront, hback⟩

/-! ## Sealing and opening -/

/-- Sealing moves the counter and its block. -/
theorem sealPlain_frame (s : SessionV2) (plain : Plain) :
    ∃ counter block, s.nextCounter ≤ counter ∧
      (s.sealPlain plain).2 = { s with nextCounter := counter, counterBlock := block } := by
  unfold sealPlain
  split
  · exact ⟨_, _, Nat.le_refl _, rfl⟩
  split
  · exact ⟨_, _, Nat.le_refl _, rfl⟩
  dsimp only
  split
  · exact ⟨_, _, Nat.le_refl _, rfl⟩
  · split <;> exact ⟨_, _, Nat.le_succ _, rfl⟩

/-- What sealing makes. -/
theorem sealPlain_ok {s s' : SessionV2} {envelope : Envelope}
    (h : s.sealPlain plain = (.ok envelope, s')) :
    ∃ cipher block, s' = { s with nextCounter := s.nextCounter + 1, counterBlock := block } ∧
      encrypt (s.turnKey s.chainIkm s.turnNo) s.nextCounter
        (s.associatedData s.turnNo s.nextCounter) plain = some cipher ∧
      envelope = .full envelopeVersion s.epochSeq s.epoch s.turnNo s.nextCounter s.turnEphPub
        s.nextCounter cipher := by
  unfold sealPlain at h
  split at h
  · cases h
  split at h
  · cases h
  dsimp only at h
  split at h
  · cases h
  split at h
  · cases h
  · rename_i cipher hencrypt
    cases h
    exact ⟨cipher, _, rfl, hencrypt, rfl⟩

/-- An envelope of the current turn. -/
theorem openEnvelope_current {r : SessionV2} {counter nonce : Nat} {ephPub : Bytes32}
    {cipher : Cipher} {w : ReplayWindow}
    (hdecrypt : decrypt (r.turnKey r.chainIkm r.turnNo) nonce (r.associatedData r.turnNo counter)
      cipher = some plain) (haccept : r.replay.accept counter = (true, w)) :
    r.openEnvelope (.full envelopeVersion r.epochSeq r.epoch r.turnNo counter ephPub nonce cipher) =
      (.ok plain, { r with replay := w }) := by
  have hnext : ¬ r.turnNo = r.turnNo + 1 := by omega
  simp only [openEnvelope, ne_eq, not_true_eq_false, or_self, false_and, if_false, hnext, hdecrypt,
    haccept]

/-- The first envelope of the next turn. -/
theorem openEnvelope_next {r : SessionV2} {counter nonce : Nat} {ephPub shared : Bytes32}
    {cipher : Cipher} {w : ReplayWindow}
    (hshared : sharedSecretFrom r.chainKey ephPub = .ok shared)
    (hdecrypt : decrypt (r.turnKey (chainTurn r.chainIkm shared) (r.turnNo + 1)) nonce
      (r.associatedData (r.turnNo + 1) counter) cipher = some plain)
    (haccept : ReplayWindow.default.accept counter = (true, w)) :
    r.openEnvelope (.full envelopeVersion r.epochSeq r.epoch (r.turnNo + 1) counter ephPub nonce
        cipher) =
      (.ok plain, { r with
        chainIkm := chainTurn r.chainIkm shared, turnNo := r.turnNo + 1, replay := w }) := by
  simp only [openEnvelope, ne_eq, not_true_eq_false, or_self, and_false, if_false, if_true, hshared,
    Except.map, hdecrypt, haccept]

/-- The receiver's session belongs to the sender's. -/
structure Aligned (r s : SessionV2) : Prop where
  sender : r.sender = s.sender
  receiver : r.receiver = s.receiver
  epoch : r.epoch = s.epoch
  epochSeq : r.epochSeq = s.epochSeq
  key : s.chainKey = x25519Public r.chainKey

/-- The receiver is at the sender's turn and behind its counter. -/
structure Synced (r s : SessionV2) : Prop extends Aligned r s where
  chain : r.chainIkm = s.chainIkm
  turn : r.turnNo = s.turnNo
  counter : r.replay.highest < s.nextCounter

/-- The sender has opened one turn of which the receiver has seen nothing yet. -/
structure Ahead (r s : SessionV2) : Prop extends Aligned r s where
  turn : s.turnNo = r.turnNo + 1
  counter : 0 < s.nextCounter
  chain : ∃ seed shared, s.turnEphPub = x25519Public seed ∧
    sharedSecretFrom seed s.chainKey = .ok shared ∧ s.chainIkm = chainTurn r.chainIkm shared

/-- What the sender seals next will open at the receiver. -/
def InStep (r s : SessionV2) : Prop := Synced r s ∨ Ahead r s

variable {r s s' : SessionV2}

theorem Aligned.spend (h : Aligned r s) (counter : Nat) (block : Option CounterBlock) :
    Aligned r { s with nextCounter := counter, counterBlock := block } :=
  ⟨h.sender, h.receiver, h.epoch, h.epochSeq, h.key⟩

/-- Counters that are spent for nothing. -/
theorem InStep.sealPlain (h : InStep r s) (plain : Plain) : InStep r (s.sealPlain plain).2 := by
  obtain ⟨counter, block, hle, heq⟩ := s.sealPlain_frame plain
  rw [heq]
  obtain hsynced | hahead := h
  · exact .inl ⟨hsynced.toAligned.spend counter block, hsynced.chain, hsynced.turn,
      Nat.lt_of_lt_of_le hsynced.counter hle⟩
  · exact .inr ⟨hahead.toAligned.spend counter block, hahead.turn,
      Nat.lt_of_lt_of_le hahead.counter hle, hahead.chain⟩

/-- Opening a turn from a turn the receiver has seen. -/
theorem Synced.openTurn (h : Synced r s) {seed : Bytes32} (hopen : s.openTurn seed = .ok s') :
    Ahead r s' := by
  unfold SessionV2.openTurn at hopen
  split at hopen
  · cases hopen
  split at hopen
  · cases hopen
  cases hshared : sharedSecretFrom seed s.chainKey with
  | error e =>
    rw [hshared] at hopen
    cases hopen
  | ok shared =>
    rw [hshared] at hopen
    cases hopen
    refine ⟨⟨h.sender, h.receiver, h.epoch, h.epochSeq, h.key⟩, ?_, ?_, ?_⟩
    · exact congrArg (· + 1) h.turn.symm
    · exact Nat.lt_of_le_of_lt (Nat.zero_le _) h.counter
    · exact ⟨seed, shared, rfl, hshared, by rw [h.chain]⟩

theorem turnKey_eq (h : Aligned r s) (chain : Bytes32) (turnNo : Nat) :
    r.turnKey chain turnNo = s.turnKey chain turnNo := by
  simp only [turnKey, h.epoch, h.epochSeq, h.sender, h.receiver]

theorem associatedData_eq (h : Aligned r s) (turnNo counter : Nat) :
    r.associatedData turnNo counter = s.associatedData turnNo counter := by
  simp only [associatedData, h.epoch, h.epochSeq, h.sender, h.receiver]

/-! ## Turns only go up -/

omit [Primitives] in
theorem highest_record (w : ReplayWindow) (counter : Nat) :
    w.highest ≤ (w.record counter).highest := by
  unfold ReplayWindow.record
  split
  · rename_i hlt
    exact Nat.le_of_lt hlt
  · split <;> exact Nat.le_refl _

/-- An envelope of the current turn changes the window alone. -/
theorem openEnvelope_same_turn {r : SessionV2} {envelope : Envelope}
    (h : r.openEnvelope envelope = (.ok plain, r')) (hturn : r'.turnNo = r.turnNo) :
    ∃ w, r' = { r with replay := w } ∧ r.replay.highest ≤ w.highest := by
  cases envelope with
  | truncated size => cases h
  | full version epochSeq epoch turnNo counter ephPub nonce cipher =>
    simp only [openEnvelope] at h
    split at h
    · cases h
    split at h
    · cases h
    split at h
    · cases h
    split at h
    · cases h
    split at h
    · cases h
    by_cases hnext : turnNo = r.turnNo + 1
    · simp only [hnext, if_true] at h
      split at h
      · cases h
      · cases h
        exact absurd hturn (by simp)
    · simp only [hnext, if_false] at h
      split at h
      · cases h
      · rename_i w haccept
        cases h
        refine ⟨w, rfl, ?_⟩
        unfold ReplayWindow.accept at haccept
        split at haccept
        · cases haccept
          exact highest_record _ _
        · cases haccept

/-- The receiver ends at the latest turn it has seen. -/
theorem OpensTo.turn_le {r : SessionV2} (h : OpensTo r envelopes r') :
    r.turnNo ≤ r'.turnNo ∧ ∀ envelope ∈ envelopes, ∀ epoch turnNo counter,
      envelope.header = some (epoch, turnNo, counter) → turnNo ≤ r'.turnNo := by
  induction h with
  | nil r => exact ⟨Nat.le_refl _, fun _ hmem => absurd hmem List.not_mem_nil⟩
  | cons hopen _ ih =>
    obtain ⟨epoch, turnNo, counter, hheader, -, hat⟩ := openEnvelope_ok hopen
    obtain ⟨hle, hall⟩ := ih
    rw [hat.turnNo] at hle
    refine ⟨by have := hat.near; omega, fun x hx => ?_⟩
    obtain rfl | hx := List.mem_cons.1 hx
    · intro epoch' turnNo' counter' hheader'
      rw [hheader] at hheader'
      cases hheader'
      exact hle
    · exact hall x hx

theorem OpensTo.same_turn {r : SessionV2} (h : OpensTo r envelopes r')
    (hturn : r'.turnNo = r.turnNo) :
    ∃ w, r' = { r with replay := w } ∧ r.replay.highest ≤ w.highest := by
  induction h with
  | nil r => exact ⟨r.replay, rfl, Nat.le_refl _⟩
  | @cons r r₁ r₂ envelope envelopes plain hopen hrest ih =>
    obtain ⟨_, turnNo, _, -, -, hat⟩ := openEnvelope_ok hopen
    have hturn₁ : r₁.turnNo = r.turnNo := by
      have hle := hrest.turn_le.1
      have hnear := hat.near
      have hat := hat.turnNo
      omega
    obtain ⟨w, rfl, hhighest⟩ := openEnvelope_same_turn hopen hturn₁
    obtain ⟨w', rfl, hhighest'⟩ := ih hturn
    exact ⟨w', rfl, Nat.le_trans hhighest hhighest'⟩

/-- A receiver that ends in step and has reached the sender's turn, or has mail of
it, ends at that turn. -/
theorem OpensTo.synced {r : SessionV2} (h : OpensTo r envelopes r') (hstep : InStep r' s)
    (hseen : r.turnNo = s.turnNo ∨ ∃ envelope ∈ envelopes, ∃ epoch counter,
      envelope.header = some (epoch, s.turnNo, counter)) : Synced r' s := by
  have hle : s.turnNo ≤ r'.turnNo := by
    obtain hsame | ⟨envelope, hmem, epoch, counter, hheader⟩ := hseen
    · exact hsame ▸ h.turn_le.1
    · exact h.turn_le.2 envelope hmem epoch s.turnNo counter hheader
  obtain hsynced | hahead := hstep
  · exact hsynced
  · have := hahead.turn
    omega

/-- A receiver on the way to be in step that is at the sender's turn is in step
already. -/
theorem OpensTo.synced_before {r : SessionV2} (h : OpensTo r envelopes r') (hstep : InStep r' s)
    (hturn : r.turnNo = s.turnNo) : Synced r s := by
  have hsynced := h.synced hstep (.inl hturn)
  obtain ⟨w, rfl, hhighest⟩ := h.same_turn (hsynced.turn.trans hturn.symm)
  exact ⟨⟨hsynced.sender, hsynced.receiver, hsynced.epoch, hsynced.epochSeq, hsynced.key⟩,
    hsynced.chain, hturn, Nat.lt_of_le_of_lt hhighest hsynced.counter⟩

/-! ## What is sealed opens -/

omit [Primitives] in
/-- A counter above the window is accepted and becomes its top. -/
theorem accept_above {w : ReplayWindow} {counter : Nat} (h : w.highest < counter) :
    ∃ w', w.accept counter = (true, w') ∧ w'.highest = counter := by
  have hacceptable : w.acceptable counter = true := by
    simp only [ReplayWindow.acceptable, decide_eq_true_eq]
    exact ⟨by omega, .inl h⟩
  refine ⟨w.record counter, ?_, ?_⟩
  · simp only [ReplayWindow.accept, hacceptable, if_true]
  · simp only [ReplayWindow.record, h, if_true]

variable [CorrectAead] [AgreeingKeys]

omit [CorrectAead] in
/-- The two sessions of a direction as a pairing makes them. -/
theorem synced_of_pairing {sender receiver : DeviceKeys} {epoch : Epoch} {epochSeq : UInt32}
    {lease : Option CounterBlock}
    (hout : outbound sender receiver.publicIdentity epoch epochSeq lease = .ok s)
    (hin : inbound receiver sender.publicIdentity epoch epochSeq = .ok r) : Synced r s := by
  unfold outbound at hout
  split at hout
  · cases hout
  split at hout
  · cases hout
  rename_i block
  split at hout
  · cases hout
  rename_i hstart
  unfold inbound at hin
  split at hin
  · cases hin
  have hshared : sharedSecretFrom receiver.staticSecret sender.publicIdentity.x25519Public =
      sharedSecretFrom sender.staticSecret receiver.publicIdentity.x25519Public := by
    dsimp only [sharedSecretFrom, DeviceKeys.publicIdentity]
    rw [AgreeingKeys.comm receiver.staticSecret sender.staticSecret]
  rw [hshared] at hin
  cases hsecret : sharedSecretFrom sender.staticSecret receiver.publicIdentity.x25519Public with
  | error e =>
    rw [hsecret] at hout
    cases hout
  | ok shared =>
    rw [hsecret] at hout hin
    cases hout
    cases hin
    exact ⟨⟨rfl, rfl, rfl, rfl, rfl⟩, rfl, rfl, Nat.pos_of_ne_zero hstart⟩

/-- What is sealed in step opens, and leaves the receiver at the sender's turn. -/
theorem InStep.opens (h : InStep r s) {envelope : Envelope}
    (hseal : s.sealPlain plain = (.ok envelope, s')) :
    ∃ r', r.openEnvelope envelope = (.ok plain, r') ∧ Synced r' s' := by
  obtain ⟨cipher, block, rfl, hencrypt, rfl⟩ := sealPlain_ok hseal
  have hdecrypt := CorrectAead.decrypt_of_encrypt hencrypt
  obtain hsynced | hahead := h
  · have haligned := hsynced.toAligned
    obtain ⟨w, haccept, hhighest⟩ := accept_above hsynced.counter
    rw [← hsynced.chain, ← turnKey_eq haligned, ← associatedData_eq haligned, ← hsynced.turn]
      at hdecrypt
    refine ⟨{ r with replay := w }, ?_, ?_⟩
    · rw [← haligned.epochSeq, ← haligned.epoch, ← hsynced.turn]
      exact openEnvelope_current hdecrypt haccept
    · refine ⟨⟨haligned.sender, haligned.receiver, haligned.epoch, haligned.epochSeq, haligned.key⟩,
        hsynced.chain, hsynced.turn, ?_⟩
      rw [hhighest]
      exact Nat.lt_succ_self _
  · have haligned := hahead.toAligned
    obtain ⟨seed, shared, hpub, hshared, hchain⟩ := hahead.chain
    -- Both ends derive the secret of the turn.
    have hsecret : sharedSecretFrom r.chainKey s.turnEphPub = .ok shared := by
      rw [hpub, sharedSecretFrom, AgreeingKeys.comm, ← haligned.key]
      exact hshared
    obtain ⟨w, haccept, hhighest⟩ := accept_above (w := .default) hahead.counter
    rw [hchain, ← turnKey_eq haligned, ← associatedData_eq haligned, hahead.turn] at hdecrypt
    refine ⟨{ r with
      chainIkm := chainTurn r.chainIkm shared, turnNo := r.turnNo + 1, replay := w }, ?_, ?_⟩
    · rw [← haligned.epochSeq, ← haligned.epoch, hahead.turn]
      exact openEnvelope_next hsecret hdecrypt haccept
    · refine ⟨⟨haligned.sender, haligned.receiver, haligned.epoch, haligned.epochSeq, haligned.key⟩,
        hchain.symm, hahead.turn.symm, ?_⟩
      rw [hhighest]
      exact Nat.lt_succ_self _

end SessionV2

end Altior.Crypto
