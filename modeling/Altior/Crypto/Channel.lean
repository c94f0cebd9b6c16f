import Altior.Crypto.Ratchet

/-!
# One direction of the channel

A sending session under any calls of `open_turn`, `seal` and `set_counter_block`
(`altior-crypto/src/session_v2.rs`), and the receiving session that opens what it makes.
-/

namespace Altior.Crypto

open Lib (Machine)
open Primitives

namespace SessionV2

variable [Primitives]

/-! ## The sender -/

/-- A call of the sending session. -/
inductive SealInput
  | openTurn (seed : Bytes32)
  | sealPlain (plain : Plain)
  | setCounterBlock (block : CounterBlock)

/-- A call of the AEAD and the envelope made with it. -/
structure Sealed where
  key : Bytes32
  nonce : Nat
  data : AssociatedData
  plain : Plain
  envelope : Envelope

/-- What the session seals a plaintext with. -/
def sealing (s : SessionV2) (plain : Plain) (envelope : Envelope) : Sealed where
  key := s.turnKey s.chainIkm s.turnNo
  nonce := s.nextCounter
  data := s.associatedData s.turnNo s.nextCounter
  plain := plain
  envelope := envelope

/-- The sending session and what it has sealed. -/
structure Sending where
  session : SessionV2
  sent : List Sealed
  /-- Nothing has been sealed yet in the turn opened last. -/
  unsent : Bool

/-- One call; a call that fails returns its error and the caller goes on. -/
def Sending.step (s : Sending) : SealInput → Sending
  | .openTurn seed =>
    match s.session.openTurn seed with
    | .error _ => s
    | .ok session => { s with session := session, unsent := true }
  | .sealPlain plain =>
    match s.session.sealPlain plain with
    | (.error _, session) => { s with session := session }
    | (.ok envelope, session) =>
      { session := session
        sent := s.sent ++ [s.session.sealing plain envelope]
        unsent := false }
  | .setCounterBlock block =>
    match s.session.setCounterBlock block with
    | .error _ => s
    | .ok session => { s with session := session }

/-- The calls of a session. -/
def sendingMachine (session : SessionV2) : Machine Sending SealInput where
  init := ⟨session, [], false⟩
  step := Sending.step

/-- No turn is opened before the one opened last has sealed a message. -/
def SealsEachTurn (s : Sending) : SealInput → Prop
  | .openTurn seed => (s.session.openTurn seed).isOk → s.unsent = false
  | .sealPlain _ => True
  | .setCounterBlock _ => True

instance (s : Sending) : (i : SealInput) → Decidable (SealsEachTurn s i)
  | .openTurn seed => inferInstanceAs (Decidable ((s.session.openTurn seed).isOk → s.unsent = false))
  | .sealPlain _ => .isTrue trivial
  | .setCounterBlock _ => .isTrue trivial

/-- A sealing that works. -/
theorem Sending.step_seal {s : Sending} {plain : Plain} {envelope : Envelope} {session : SessionV2}
    (h : s.session.sealPlain plain = (.ok envelope, session)) :
    s.step (.sealPlain plain) =
      { session := session
        sent := s.sent ++ [s.session.sealing plain envelope]
        unsent := false } := by
  simp only [Sending.step, h]

/-! ## The receiver -/

/-- What the envelopes give, opened one after the other. -/
def openAll (r : SessionV2) : List Envelope → List (Except CryptoError Plain) × SessionV2
  | [] => ([], r)
  | envelope :: envelopes =>
    let opened := r.openEnvelope envelope
    let rest := openAll opened.2 envelopes
    (opened.1 :: rest.1, rest.2)

theorem openAll_append (r : SessionV2) (front back : List Envelope) :
    r.openAll (front ++ back) = ((r.openAll front).1 ++ ((r.openAll front).2.openAll back).1,
      ((r.openAll front).2.openAll back).2) := by
  induction front generalizing r with
  | nil => rfl
  | cons envelope front ih => simp only [List.cons_append, openAll, ih]

/-- The two sessions of one direction: both new, or both resumed from one snapshot. -/
inductive Matching : SessionV2 → SessionV2 → Prop
  | paired {sender receiver : DeviceKeys} {epoch : Epoch} {epochSeq : UInt32}
      {lease : Option CounterBlock} {s r : SessionV2}
      (hout : outbound sender receiver.publicIdentity epoch epochSeq lease = .ok s)
      (hin : inbound receiver sender.publicIdentity epoch epochSeq = .ok r) : Matching s r
  | resumed {sender receiver : DeviceKeys} {epoch : Epoch} {epochSeq : UInt32}
      {snapshot : ChainSnapshot} {lease : Option CounterBlock} {s r : SessionV2}
      (hout : restoreOutbound sender receiver.publicIdentity epoch epochSeq snapshot lease = .ok s)
      (hin : restoreInbound receiver sender.publicIdentity epoch epochSeq snapshot = .ok r) :
      Matching s r

variable {r s : SessionV2}

theorem Matching.synced [AgreeingKeys] (h : Matching s r) : Synced r s := by
  cases h with
  | paired hout hin => exact synced_of_pairing hout hin
  | @resumed sender receiver epoch epochSeq snapshot lease s r hout hin =>
    unfold restoreOutbound at hout
    unfold restoreInbound at hin
    cases hs : outbound sender receiver.publicIdentity epoch epochSeq lease with
    | error e =>
      rw [hs] at hout
      cases hout
    | ok s₀ =>
      cases hr : inbound receiver sender.publicIdentity epoch epochSeq with
      | error e =>
        rw [hr] at hin
        cases hin
      | ok r₀ =>
        rw [hs] at hout
        rw [hr] at hin
        cases hout
        cases hin
        have h₀ := synced_of_pairing hs hr
        exact ⟨⟨h₀.sender, h₀.receiver, h₀.epoch, h₀.epochSeq, h₀.key⟩, rfl, rfl, h₀.counter⟩

/-! ## The two together -/

/-- Counters that are spent for nothing leave the receiver where it was. -/
theorem Synced.sealPlain (h : Synced r s) (plain : Plain) : Synced r (s.sealPlain plain).2 := by
  obtain ⟨counter, block, hle, heq⟩ := s.sealPlain_frame plain
  rw [heq]
  exact ⟨h.toAligned.spend counter block, h.chain, h.turn, Nat.lt_of_lt_of_le h.counter hle⟩

/-- What has been sent opens, and leaves the receiver in step with the sender. -/
structure Conveyed (r : SessionV2) (s : Sending) : Prop where
  opens : (r.openAll (s.sent.map Sealed.envelope)).1 = s.sent.map fun x => .ok x.plain
  inStep : InStep (r.openAll (s.sent.map Sealed.envelope)).2 s.session
  /-- The receiver lags a turn only until the turn has an envelope. -/
  synced : s.unsent = false → Synced (r.openAll (s.sent.map Sealed.envelope)).2 s.session

variable [CorrectAead] [AgreeingKeys]

/-- One call of the sender. -/
theorem Conveyed.step {s : Sending} (h : Conveyed r s) (i : SealInput) (hok : SealsEachTurn s i) :
    Conveyed r (s.step i) := by
  cases i with
  | openTurn seed =>
    simp only [Sending.step]
    cases hopen : s.session.openTurn seed with
    | error e => exact h
    | ok session =>
      have hsent : s.unsent = false := hok (by rw [hopen]; rfl)
      exact ⟨h.opens, .inr ((h.synced hsent).openTurn hopen), nofun⟩
  | sealPlain plain =>
    cases hseal : s.session.sealPlain plain with
    | mk result session =>
      have hsession : (s.session.sealPlain plain).2 = session := congrArg Prod.snd hseal
      cases result with
      | error e =>
        have hstep : s.step (.sealPlain plain) = { s with session := session } := by
          simp only [Sending.step, hseal]
        rw [hstep]
        exact ⟨h.opens, hsession ▸ h.inStep.sealPlain plain,
          fun hsent => hsession ▸ (h.synced hsent).sealPlain plain⟩
      | ok envelope =>
        obtain ⟨r', hopen, hsynced⟩ := h.inStep.opens hseal
        rw [Sending.step_seal hseal]
        have hall (x : Sealed) (hx : x.envelope = envelope) :
            r.openAll ((s.sent ++ [x]).map Sealed.envelope) =
              ((s.sent.map fun x => .ok x.plain) ++ [.ok plain], r') := by
          rw [List.map_append, openAll_append, h.opens, List.map_singleton, hx]
          simp only [openAll, hopen]
        refine ⟨?_, ?_, fun _ => ?_⟩
        · rw [hall _ rfl, List.map_append]
          rfl
        · rw [hall _ rfl]
          exact .inl hsynced
        · rw [hall _ rfl]
          exact hsynced
  | setCounterBlock block =>
    simp only [Sending.step, SessionV2.setCounterBlock]
    split
    · exact h
    · rename_i hblock
      split at hblock
      · cases hblock
      cases hblock
      refine ⟨h.opens, ?_, fun hsent => ?_⟩
      · obtain hsynced | hahead := h.inStep
        · exact .inl ⟨hsynced.toAligned.spend _ _, hsynced.chain, hsynced.turn, hsynced.counter⟩
        · exact .inr ⟨hahead.toAligned.spend _ _, hahead.turn, hahead.counter, hahead.chain⟩
      · have hsynced := h.synced hsent
        exact ⟨hsynced.toAligned.spend _ _, hsynced.chain, hsynced.turn, hsynced.counter⟩

/-- **The channel delivers in order.**  Whatever the sender opens, seals and leases, as
long as each turn seals a message before the next is opened, the receiver opens all that
was sealed, in order, to what it was sealed from. -/
theorem openAll_sent (hmatch : Matching s r) {inputs : List SealInput}
    (hturns : (sendingMachine s).Meets SealsEachTurn (sendingMachine s).init inputs) :
    (r.openAll (((sendingMachine s).run inputs).sent.map Sealed.envelope)).1 =
      ((sendingMachine s).run inputs).sent.map fun x => .ok x.plain := by
  have hinit : Conveyed r (sendingMachine s).init :=
    ⟨rfl, .inl hmatch.synced, fun _ => hmatch.synced⟩
  exact ((sendingMachine s).invariant_of_meets (I := Conveyed r)
    (fun _ i h hok => h.step i hok) hinit hturns).opens

end SessionV2

section Sample

attribute [local instance] replayPrimitives

/-- Two messages, a new block, a turn with a message and the next turn. -/
def sampleCalls : List SessionV2.SealInput :=
  [.sealPlain (), .sealPlain (), .setCounterBlock ⟨9, 10⟩, .openTurn (Vector.replicate 32 7),
    .sealPlain (), .setCounterBlock ⟨20, 30⟩, .openTurn (Vector.replicate 32 8)]

/-- The sender of the sample pairing, with a block of two counters. -/
def sampleOutbound : Except CryptoError SessionV2 :=
  SessionV2.outbound sampleSender sampleReceiver.publicIdentity (Vector.replicate 16 1) 1
    (some ⟨1, 3⟩)

@[inherit_doc sampleOutbound]
def sampleInbound : Except CryptoError SessionV2 :=
  SessionV2.inbound sampleReceiver sampleSender.publicIdentity (Vector.replicate 16 1) 1

theorem sampleCalls_meets : ∃ s r, sampleOutbound = .ok s ∧ sampleInbound = .ok r ∧
    ((SessionV2.sendingMachine s).run sampleCalls).sent.length = 3 ∧
    (SessionV2.sendingMachine s).Meets SessionV2.SealsEachTurn (SessionV2.sendingMachine s).init
      sampleCalls := by
  have h : ∃ s ∈ sampleOutbound.toOption.toList, sampleInbound.isOk = true ∧
      ((SessionV2.sendingMachine s).run sampleCalls).sent.length = 3 ∧
      (SessionV2.sendingMachine s).Meets SessionV2.SealsEachTurn (SessionV2.sendingMachine s).init
        sampleCalls := by
    decide +kernel
  obtain ⟨s, hs, hr, hlength, hturns⟩ := h
  cases hout : sampleOutbound with
  | error e =>
    rw [hout] at hs
    cases hs
  | ok s₀ =>
    cases hin : sampleInbound with
    | error e =>
      rw [hin] at hr
      cases hr
    | ok r =>
      rw [hout] at hs
      obtain rfl := List.mem_singleton.1 hs
      exact ⟨s, r, rfl, rfl, hlength, hturns⟩

/-- Three messages in two turns. -/
theorem openAll_sent_sample : ∃ s r, sampleOutbound = .ok s ∧ sampleInbound = .ok r ∧
    ((SessionV2.sendingMachine s).run sampleCalls).sent.length = 3 ∧
    (r.openAll (((SessionV2.sendingMachine s).run sampleCalls).sent.map
      SessionV2.Sealed.envelope)).1 =
        ((SessionV2.sendingMachine s).run sampleCalls).sent.map fun x => .ok x.plain := by
  have := ideal_agreeing Unit
  have := ideal_authentic Unit
  obtain ⟨s, r, hs, hr, hlength, hturns⟩ := sampleCalls_meets
  exact ⟨s, r, hs, hr, hlength, SessionV2.openAll_sent (.paired hs hr) hturns⟩

end Sample

end Altior.Crypto
