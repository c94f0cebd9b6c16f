import Mathlib.Data.List.Basic

/-!
# The v2 encrypted session

One direction of the encrypted channel between two paired devices
(`altior-crypto/src/session_v2.rs`, `device.rs` and the replay window of
`session.rs`).  The primitives the crate takes from its dependencies, X25519,
Ed25519, HKDF and the AEAD, are the class `Primitives`; everything the crate
decides itself is defined here.
-/

namespace Altior.Crypto

/-- `u64::MAX`. -/
def u64Max : Nat := 18446744073709551615

/-- `i64::MAX`, the largest integer a column holds. -/
def i64Max : Nat := 9223372036854775807

/-- A 32-byte string: a key, a secret, a digest or a seed. -/
abbrev Bytes32 := Vector UInt8 32

/-- The all-zero value the constructors reject. -/
def zero32 : Bytes32 := Vector.replicate 32 0

/-- A 64-byte signature. -/
abbrev Signature := Vector UInt8 64

/-- A 128-bit session epoch, one per pairing. -/
abbrev Epoch := Vector UInt8 16

/-- The context a derived key is bound to. -/
inductive HkdfInfo
  | chainDomain
  | turnDomain (version : UInt8) (epoch : Epoch) (epochSeq : UInt32) (turnNo : Nat)
      (sender receiver : String)
deriving DecidableEq

/-- The associated data of an envelope: every routing claim a relay could
rewrite. -/
structure AssociatedData where
  version : UInt8
  epochSeq : UInt32
  epoch : Epoch
  turnNo : Nat
  counter : Nat
  sender : String
  receiver : String
deriving DecidableEq

/-- The cryptographic primitives. -/
class Primitives where
  /-- Plaintexts. -/
  Plain : Type
  /-- Ciphertexts with their tag. -/
  Cipher : Type
  decCipher : DecidableEq Cipher
  /-- Length of a ciphertext in bytes, the tag included. -/
  cipherLen : Cipher → Nat
  /-- The X25519 public key of a secret. -/
  x25519Public : Bytes32 → Bytes32
  /-- The X25519 shared secret. -/
  diffieHellman : Bytes32 → Bytes32 → Bytes32
  /-- The Ed25519 verifying key of a signing seed. -/
  ed25519Public : Bytes32 → Bytes32
  /-- The Ed25519 signature of a message. -/
  sign : Bytes32 → Plain → Signature
  /-- `verify_strict` under a verifying key. -/
  verify : Bytes32 → Plain → Signature → Bool
  /-- HKDF-SHA256 with a salt and an info, expanded to 32 bytes. -/
  hkdf : Option Bytes32 → Bytes32 → HkdfInfo → Bytes32
  /-- SHA-256. -/
  sha256 : List UInt8 → Bytes32
  /-- AEAD encryption under a key and a nonce. -/
  encrypt : Bytes32 → Nat → AssociatedData → Plain → Option Cipher
  /-- AEAD decryption. -/
  decrypt : Bytes32 → Nat → AssociatedData → Cipher → Option Plain

open Primitives

/-- What the crate relies on the AEAD for: what was sealed opens again, and
whatever opens was sealed from the plaintext it opens to. -/
class AuthenticAead [Primitives] : Prop where
  decrypt_of_encrypt : ∀ {k : Bytes32} {n : Nat} {a : AssociatedData} {m : Plain} {c : Cipher},
    encrypt k n a m = some c → decrypt k n a c = some m
  plain_unique : ∀ {k k' : Bytes32} {n n' : Nat} {a a' : AssociatedData} {m m' : Plain}
    {c : Cipher}, encrypt k n a m = some c → decrypt k' n' a' c = some m' → m' = m

/-- The crypto failures of the modelled operations. -/
inductive CryptoError
  | envelopeTruncated (size : Nat)
  | envelopeVersion (found : UInt8)
  | epochMismatch (expectedSeq foundSeq : UInt32)
  | turnMismatch (current found : Nat)
  | turnNotOpen
  | ephemeralSeedAllZero
  | degenerateSharedSecret
  | counterBlockExhausted
  | counterBlockRewind (blockStart nextCounter : Nat)
  | counterLeaseFailed
  | deviceIdCollision (id : String)
  | envelopeSeal
  | envelopeOpen
  | replayRejected (counter : Nat)
  | signatureInvalid
  | blobChunkMissing (index : Nat) (blobId : Bytes32)
  | blobChunkMismatch (index : Nat)
deriving DecidableEq, Repr

/-! ## Devices -/

/-- The private half of a device. -/
structure DeviceKeys where
  id : String
  staticSecret : Bytes32
  signing : Bytes32
deriving DecidableEq

/-- The public half of a device. -/
structure DeviceIdentity where
  id : String
  x25519Public : Bytes32
  ed25519Public : Bytes32
deriving DecidableEq

/-- What a device shows of itself. -/
def DeviceKeys.publicIdentity [Primitives] (keys : DeviceKeys) : DeviceIdentity :=
  ⟨keys.id, x25519Public keys.staticSecret, ed25519Public keys.signing⟩

/-! ## Replay window -/

/-- A 64-wide sliding window of accepted counters. -/
structure ReplayWindow where
  highest : Nat
  seen : UInt64
deriving DecidableEq, Repr

namespace ReplayWindow

def default : ReplayWindow := ⟨0, 0⟩

def acceptable (w : ReplayWindow) (counter : Nat) : Bool :=
  counter ≠ 0 ∧ (w.highest < counter ∨
    (w.highest - counter < 64 ∧ w.seen &&& (1 <<< UInt64.ofNat (w.highest - counter)) = 0))

def record (w : ReplayWindow) (counter : Nat) : ReplayWindow :=
  if w.highest < counter then
    let delta := counter - w.highest
    { highest := counter
      seen := (if 64 ≤ delta then 0 else w.seen <<< UInt64.ofNat delta) ||| 1 }
  else if 0 < counter then
    { w with seen := w.seen ||| (1 <<< UInt64.ofNat (w.highest - counter)) }
  else w

/-- Records a counter that is new enough; the result says whether it was. -/
def accept (w : ReplayWindow) (counter : Nat) : Bool × ReplayWindow :=
  if w.acceptable counter then (true, w.record counter) else (false, w)

end ReplayWindow

/-! ## Envelopes and sessions -/

/-- The v2 wire version. -/
def envelopeVersion : UInt8 := 2

/-- A byte string on the wire: too short for an envelope, or its header fields
and ciphertext. -/
inductive Envelope [Primitives]
  | truncated (size : Nat)
  | full (version : UInt8) (epochSeq : UInt32) (epoch : Epoch) (turnNo counter : Nat)
      (ephPub : Bytes32) (nonce : Nat) (cipher : Cipher)

instance [p : Primitives] : DecidableEq Cipher := p.decCipher

deriving instance DecidableEq for Envelope

/-- Bytes of the header in front of the ciphertext. -/
def headerLen : Nat := 1 + 4 + 16 + 8 + 8 + 32 + 12

/-- Length in bytes. -/
def Envelope.len [Primitives] : Envelope → Nat
  | .truncated size => size
  | .full _ _ _ _ _ _ _ cipher => headerLen + cipherLen cipher

/-- A durable reservation `[start, stop)` of the send-counter space. -/
structure CounterBlock where
  start : Nat
  stop : Nat
deriving DecidableEq, Repr

/-- The counters a new session reserves. -/
def counterBlockSize : Nat := 10000

/-- The resumable state of one direction: the chained secret and its turn. -/
structure ChainSnapshot where
  chainIkm : Bytes32
  turnNo : Nat
deriving DecidableEq

/-- One direction of a channel. -/
inductive Direction
  | outbound
  | inbound
deriving DecidableEq, Repr

structure SessionV2 where
  direction : Direction
  sender : String
  receiver : String
  epoch : Epoch
  epochSeq : UInt32
  counterBlock : Option CounterBlock
  nextCounter : Nat
  turnEphPub : Bytes32
  /-- The peer's key for the outbound chain, the local secret for the inbound
  one. -/
  chainKey : Bytes32
  chainIkm : Bytes32
  turnNo : Nat
  needsFreshTurn : Bool
  replay : ReplayWindow
deriving DecidableEq

namespace SessionV2

variable [Primitives]

/-- The shared secret, unless it is degenerate. -/
def sharedSecretFrom (secret peerPublic : Bytes32) : Except CryptoError Bytes32 :=
  let shared := diffieHellman secret peerPublic
  if shared = zero32 then .error .degenerateSharedSecret else .ok shared

/-- Chains a turn onto the previous one. -/
def chainTurn (previousIkm turnShared : Bytes32) : Bytes32 :=
  hkdf (some previousIkm) turnShared .chainDomain

/-- The AEAD key of a turn. -/
def turnKey (s : SessionV2) (chain : Bytes32) (turnNo : Nat) : Bytes32 :=
  hkdf none chain (.turnDomain envelopeVersion s.epoch s.epochSeq turnNo s.sender s.receiver)

def associatedData (s : SessionV2) (turnNo counter : Nat) : AssociatedData where
  version := envelopeVersion
  epochSeq := s.epochSeq
  epoch := s.epoch
  turnNo := turnNo
  counter := counter
  sender := s.sender
  receiver := s.receiver

/-- The sending session, over the counter block the lease reserved (`none` when
the lease failed). -/
def outbound (keys : DeviceKeys) (peer : DeviceIdentity) (epoch : Epoch) (epochSeq : UInt32)
    (lease : Option CounterBlock) : Except CryptoError SessionV2 :=
  if keys.id = peer.id then .error (.deviceIdCollision keys.id)
  else match lease with
    | none => .error .counterLeaseFailed
    | some block =>
      if block.start = 0 then .error (.counterBlockRewind block.start 0)
      else do
        let shared ← sharedSecretFrom keys.staticSecret peer.x25519Public
        pure { direction := .outbound, sender := keys.id, receiver := peer.id, epoch := epoch
               epochSeq := epochSeq, counterBlock := some block, nextCounter := block.start
               turnEphPub := zero32, chainKey := peer.x25519Public, chainIkm := shared
               turnNo := 0, needsFreshTurn := false, replay := .default }

/-- The receiving session for what the peer sends. -/
def inbound (keys : DeviceKeys) (peer : DeviceIdentity) (epoch : Epoch) (epochSeq : UInt32) :
    Except CryptoError SessionV2 :=
  if keys.id = peer.id then .error (.deviceIdCollision keys.id)
  else do
    let shared ← sharedSecretFrom keys.staticSecret peer.x25519Public
    pure { direction := .inbound, sender := peer.id, receiver := keys.id, epoch := epoch
           epochSeq := epochSeq, counterBlock := none, nextCounter := 0, turnEphPub := zero32
           chainKey := keys.staticSecret, chainIkm := shared, turnNo := 0, needsFreshTurn := false
           replay := .default }

/-- The sending session resumed from a chain snapshot: its counters continue from
the lease, and nothing is sealed before a fresh turn is opened. -/
def restoreOutbound (keys : DeviceKeys) (peer : DeviceIdentity) (epoch : Epoch)
    (epochSeq : UInt32) (snapshot : ChainSnapshot) (lease : Option CounterBlock) :
    Except CryptoError SessionV2 := do
  let restored ← outbound keys peer epoch epochSeq lease
  pure { restored with chainIkm := snapshot.chainIkm, turnNo := snapshot.turnNo
                       needsFreshTurn := 0 < snapshot.turnNo }

/-- The receiving session resumed from a chain snapshot. -/
def restoreInbound (keys : DeviceKeys) (peer : DeviceIdentity) (epoch : Epoch)
    (epochSeq : UInt32) (snapshot : ChainSnapshot) : Except CryptoError SessionV2 := do
  let restored ← inbound keys peer epoch epochSeq
  pure { restored with chainIkm := snapshot.chainIkm, turnNo := snapshot.turnNo }

omit [Primitives] in
/-- What a session can be resumed from. -/
def chain (s : SessionV2) : ChainSnapshot := ⟨s.chainIkm, s.turnNo⟩

omit [Primitives] in
/-- Installs the next counter block. -/
def setCounterBlock (s : SessionV2) (block : CounterBlock) : Except CryptoError SessionV2 :=
  if block.stop ≤ block.start ∨ block.start = 0 ∨ block.start < s.nextCounter then
    .error (.counterBlockRewind block.start s.nextCounter)
  else .ok { s with counterBlock := some block }

/-- Opens a new ratchet turn from an ephemeral seed. -/
def openTurn (s : SessionV2) (seed : Bytes32) : Except CryptoError SessionV2 :=
  if s.direction ≠ .outbound then .error .turnNotOpen
  else if seed = zero32 then .error .ephemeralSeedAllZero
  else do
    let shared ← sharedSecretFrom seed s.chainKey
    pure { s with chainIkm := chainTurn s.chainIkm shared, turnEphPub := x25519Public seed
                  turnNo := s.turnNo + 1, needsFreshTurn := false }

/-- Seals a plaintext.  The counter is spent even when the AEAD fails. -/
def sealPlain (s : SessionV2) (plain : Plain) : Except CryptoError Envelope × SessionV2 :=
  if s.needsFreshTurn then (.error .turnNotOpen, s)
  else match s.counterBlock with
    | none => (.error .counterBlockExhausted, s)
    | some block =>
      let counter := s.nextCounter
      if block.stop ≤ counter then (.error .counterBlockExhausted, s)
      else
        let s' := { s with
          nextCounter := counter + 1
          counterBlock := if block.stop ≤ counter + 1 then none else some block }
        match encrypt (s.turnKey s.chainIkm s.turnNo) counter (s.associatedData s.turnNo counter)
            plain with
        | none => (.error .envelopeSeal, s')
        | some cipher =>
          (.ok (.full envelopeVersion s.epochSeq s.epoch s.turnNo counter s.turnEphPub counter
            cipher), s')

/-- Authenticates and decrypts an envelope: shape, epoch, turn, AEAD, replay. -/
def openEnvelope (s : SessionV2) : Envelope → Except CryptoError Plain × SessionV2
  | .truncated size => (.error (.envelopeTruncated size), s)
  | .full version epochSeq epoch turnNo counter ephPub nonce cipher =>
    if version ≠ envelopeVersion then (.error (.envelopeVersion version), s)
    else if epochSeq ≠ s.epochSeq ∨ epoch ≠ s.epoch then
      (.error (.epochMismatch s.epochSeq epochSeq), s)
    else if turnNo ≠ s.turnNo ∧ turnNo ≠ s.turnNo + 1 then
      (.error (.turnMismatch s.turnNo turnNo), s)
    else
      -- A new turn chains first; the chain commits only once the AEAD accepts.
      match if turnNo = s.turnNo + 1 then
          (sharedSecretFrom s.chainKey ephPub).map fun shared => chainTurn s.chainIkm shared
        else .ok s.chainIkm with
      | .error e => (.error e, s)
      | .ok chain =>
        match decrypt (s.turnKey chain turnNo) nonce (s.associatedData turnNo counter) cipher with
        | none => (.error .envelopeOpen, s)
        | some plain =>
          let s' := if turnNo = s.turnNo + 1 then
              { s with chainIkm := chain, turnNo := turnNo, replay := .default }
            else s
          match s'.replay.accept counter with
          | (false, _) => (.error (.replayRejected counter), s')
          | (true, replay) => (.ok plain, { s' with replay := replay })

end SessionV2

/-! ## Ideal primitives -/

/-- A ciphertext that remembers what it was sealed under. -/
structure IdealCipher (P : Type) where
  key : Bytes32
  nonce : Nat
  data : AssociatedData
  plain : P
deriving DecidableEq

/-- Primitives over a type of plaintexts whose ciphertexts open under what they
were sealed with and nothing else. -/
abbrev ideal (P : Type) [DecidableEq P] : Primitives where
  Plain := P
  Cipher := IdealCipher P
  decCipher := inferInstance
  cipherLen _ := 16
  x25519Public secret := secret
  diffieHellman secret peerPublic := Vector.zipWith (· ^^^ ·) secret peerPublic
  ed25519Public seed := seed
  sign _ _ := Vector.replicate 64 0
  verify _ _ signature := signature = Vector.replicate 64 0
  hkdf _ ikm _ := ikm
  sha256 bytes := Vector.ofFn fun i => bytes[i]?.getD 0
  encrypt key nonce data plain := some ⟨key, nonce, data, plain⟩
  decrypt key nonce data cipher :=
    if cipher.key = key ∧ cipher.nonce = nonce ∧ cipher.data = data then some cipher.plain else none

theorem ideal_authentic (P : Type) [DecidableEq P] : @AuthenticAead (ideal P) := by
  let _ := ideal P
  constructor
  · intro k n a m c henc
    cases henc
    exact if_pos ⟨rfl, rfl, rfl⟩
  · intro k k' n n' a a' m m' c henc hdec
    cases henc
    simp only [decrypt] at hdec
    split at hdec
    · exact (Option.some.inj hdec).symm
    · cases hdec

end Altior.Crypto
