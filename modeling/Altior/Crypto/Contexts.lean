import Altior.Crypto.Session
import Altior.Lib.Encoding
import Mathlib.Data.String.Basic
import Mathlib.Data.Sym.Sym2

/-!
# The contexts keys and signatures are bound to

The bytes behind the associated data and the key-derivation infos of a session
(`altior-crypto/src/session_v2.rs`), and behind the pairing transcript that both devices
sign (`pairing.rs`).  Every context stands for one thing only.
-/

namespace Altior.Crypto

open Lib

/-! ## Encodings -/

/-- What a `DeviceId` can hold, in bytes. -/
def maxDeviceIdLen : Nat := 128

def IsDeviceId (id : String) : Prop := id ≠ "" ∧ id.utf8ByteSize ≤ maxDeviceIdLen

def pushId (id : String) : List UInt8 := toBe 8 id.utf8ByteSize ++ asBytes id

/-- The domain of the turn keys. -/
def turnKeyDomain : List UInt8 := asBytes "altior/crypto/v2-turn-key"

/-- The domain of the chain. -/
def turnChainDomain : List UInt8 := asBytes "altior/crypto/v2-turn-chain"

def pairingDomain : List UInt8 := asBytes "altior/crypto/v1/pairing"

def HkdfInfo.encode : HkdfInfo → List UInt8
  | .chainDomain => turnChainDomain
  | .turnDomain version epoch epochSeq turnNo sender receiver =>
    turnKeyDomain ++ ([version] ++ (epoch.toList ++ (toBe 4 epochSeq.toNat ++
      (toBe 8 turnNo ++ (pushId sender ++ pushId receiver)))))

def AssociatedData.encode (a : AssociatedData) : List UInt8 :=
  [a.version] ++ (toBe 4 a.epochSeq.toNat ++ (a.epoch.toList ++ (toBe 8 a.turnNo ++
    (toBe 8 a.counter ++ (pushId a.sender ++ pushId a.receiver)))))

def pushIdentity (identity : DeviceIdentity) : List UInt8 :=
  pushId identity.id ++ (identity.x25519Public.toList ++ identity.ed25519Public.toList)

/-- The transcript over two identities, in the order of their ids. -/
def pairingTranscript (a b : DeviceIdentity) : Except CryptoError (List UInt8) :=
  if a.id = b.id then .error (.deviceIdCollision a.id)
  else if a.id < b.id then .ok (pairingDomain ++ (pushIdentity a ++ pushIdentity b))
  else .ok (pairingDomain ++ (pushIdentity b ++ pushIdentity a))

/-! ## What the types admit -/

/-- The parameters of a derivation: the version of this build, a `u64` and device ids. -/
def HkdfInfo.Fits : HkdfInfo → Prop
  | .chainDomain => True
  | .turnDomain version _ _ turnNo sender receiver =>
    version = envelopeVersion ∧ turnNo ≤ u64Max ∧ IsDeviceId sender ∧ IsDeviceId receiver

@[inherit_doc HkdfInfo.Fits]
structure AssociatedData.Fits (a : AssociatedData) : Prop where
  version : a.version = envelopeVersion
  turnNo : a.turnNo ≤ u64Max
  counter : a.counter ≤ u64Max
  sender : IsDeviceId a.sender
  receiver : IsDeviceId a.receiver

/-! ## Contexts are read back -/

theorem delimited_pushId : Delimited IsDeviceId pushId := by
  have hfits {id : String} (h : IsDeviceId id) : id.utf8ByteSize < 256 ^ 8 :=
    Nat.lt_of_le_of_lt h.2 (by decide)
  exact fun a b s t ha hb h => delimited_text 8 (hfits ha) (hfits hb) h

theorem delimited_u64 : Delimited (· ≤ u64Max) (toBe 8) :=
  fun _ _ _ _ hn hm h => delimited_toBe 8 (Nat.lt_of_le_of_lt hn (by decide))
    (Nat.lt_of_le_of_lt hm (by decide)) h

theorem delimited_u32 : Delimited (fun _ => True) fun n : UInt32 => toBe 4 n.toNat := by
  intro n m s t _ _ h
  obtain ⟨hnat, hrest⟩ := delimited_toBe 4 n.toNat_lt m.toNat_lt h
  exact ⟨UInt32.toNat_inj.1 hnat, hrest⟩

theorem delimited_pushIdentity :
    Delimited (fun identity => IsDeviceId identity.id) pushIdentity := by
  rintro ⟨id, x, y⟩ ⟨id', x', y'⟩ s t ha hb h
  simp only [pushIdentity, List.append_assoc] at h
  obtain ⟨rfl, hkeys⟩ := delimited_pushId ha hb h
  obtain ⟨rfl, hkey⟩ := delimited_vector 32 trivial trivial hkeys
  obtain ⟨rfl, hrest⟩ := delimited_vector 32 trivial trivial hkey
  exact ⟨rfl, hrest⟩

theorem HkdfInfo.encode_inj {i j : HkdfInfo} (hi : i.Fits) (hj : j.Fits)
    (h : i.encode = j.encode) : i = j := by
  -- The domains differ within the length of the shorter.
  have hdomains (rest : List UInt8) : turnChainDomain ≠ turnKeyDomain ++ rest := by
    intro heq
    have htake := congrArg (List.take 25) heq
    rw [List.take_left' (by decide)] at htake
    revert htake
    decide
  cases i with
  | chainDomain =>
    cases j with
    | chainDomain => rfl
    | turnDomain => exact absurd h (hdomains _)
  | turnDomain version epoch epochSeq turnNo sender receiver =>
    cases j with
    | chainDomain => exact absurd h.symm (hdomains _)
    | turnDomain version' epoch' epochSeq' turnNo' sender' receiver' =>
      obtain ⟨rfl, hturn, hsender, hreceiver⟩ := hi
      obtain ⟨rfl, hturn', hsender', hreceiver'⟩ := hj
      have hfields := List.append_cancel_left (List.append_cancel_left h)
      obtain ⟨rfl, hseq⟩ := delimited_vector 16 trivial trivial hfields
      obtain ⟨rfl, hrest⟩ := delimited_u32 trivial trivial hseq
      obtain ⟨rfl, hids⟩ := delimited_u64 hturn hturn' hrest
      obtain ⟨rfl, hid⟩ := delimited_pushId hsender hsender' hids
      obtain rfl := delimited_pushId.inj hreceiver hreceiver' hid
      rfl

theorem AssociatedData.encode_inj {a b : AssociatedData} (ha : a.Fits) (hb : b.Fits)
    (h : a.encode = b.encode) : a = b := by
  obtain ⟨version, epochSeq, epoch, turnNo, counter, sender, receiver⟩ := a
  obtain ⟨version', epochSeq', epoch', turnNo', counter', sender', receiver'⟩ := b
  obtain rfl : version = version' := ha.version.trans hb.version.symm
  have hfields := List.append_cancel_left h
  obtain ⟨rfl, hepoch⟩ := delimited_u32 trivial trivial hfields
  obtain ⟨rfl, hturn⟩ := delimited_vector 16 trivial trivial hepoch
  obtain ⟨rfl, hcounter⟩ := delimited_u64 ha.turnNo hb.turnNo hturn
  obtain ⟨rfl, hids⟩ := delimited_u64 ha.counter hb.counter hcounter
  obtain ⟨rfl, hid⟩ := delimited_pushId ha.sender hb.sender hids
  obtain rfl := delimited_pushId.inj ha.receiver hb.receiver hid
  rfl

/-- The transcript does not depend on the side it is computed on. -/
theorem pairingTranscript_comm (a b : DeviceIdentity) :
    pairingTranscript a b = pairingTranscript b a := by
  unfold pairingTranscript
  by_cases heq : a.id = b.id
  · rw [if_pos heq, if_pos heq.symm, heq]
  · rw [if_neg heq, if_neg (Ne.symm heq)]
    rcases lt_or_gt_of_ne heq with hlt | hlt
    · rw [if_pos hlt, if_neg (not_lt_of_gt hlt)]
    · rw [if_neg (not_lt_of_gt hlt), if_pos hlt]

/-- The parties of a transcript. -/
theorem pairingTranscript_inj {a b c d : DeviceIdentity} {t : List UInt8} (ha : IsDeviceId a.id)
    (hb : IsDeviceId b.id) (hc : IsDeviceId c.id) (hd : IsDeviceId d.id)
    (h : pairingTranscript a b = .ok t) (h' : pairingTranscript c d = .ok t) :
    s(a, b) = s(c, d) := by
  have hread {a b c d : DeviceIdentity} (ha : IsDeviceId a.id) (hb : IsDeviceId b.id)
      (hc : IsDeviceId c.id) (hd : IsDeviceId d.id)
      (h : pairingDomain ++ (pushIdentity a ++ pushIdentity b) =
        pairingDomain ++ (pushIdentity c ++ pushIdentity d)) : a = c ∧ b = d := by
    obtain ⟨hfirst, hsecond⟩ := delimited_pushIdentity ha hc (List.append_cancel_left h)
    exact ⟨hfirst, delimited_pushIdentity.inj hb hd hsecond⟩
  -- either side may have the smaller id
  have hparties {a b : DeviceIdentity} (ha : IsDeviceId a.id) (hb : IsDeviceId b.id)
      (h : pairingTranscript a b = .ok t) : ∃ x y, IsDeviceId x.id ∧ IsDeviceId y.id ∧
        s(a, b) = s(x, y) ∧ pairingDomain ++ (pushIdentity x ++ pushIdentity y) = t := by
    unfold pairingTranscript at h
    split at h
    · cases h
    split at h
    · exact ⟨a, b, ha, hb, rfl, Except.ok.inj h⟩
    · exact ⟨b, a, hb, ha, Sym2.eq_swap, Except.ok.inj h⟩
  obtain ⟨x, y, hx, hy, hxy, rfl⟩ := hparties ha hb h
  obtain ⟨x', y', hx', hy', hxy', heq⟩ := hparties hc hd h'
  obtain ⟨rfl, rfl⟩ := hread hx' hy' hx hy heq
  exact hxy.trans hxy'.symm

/-! ## Purposes -/

theorem HkdfInfo.take_encode (i : HkdfInfo) : i.encode.take 16 = asBytes "altior/crypto/v2" := by
  cases i with
  | chainDomain => decide
  | turnDomain =>
    rw [encode, List.take_append_of_le_length (by decide)]
    decide

theorem take_pairingTranscript {a b : DeviceIdentity} {t : List UInt8}
    (h : pairingTranscript a b = .ok t) : t.take 16 = asBytes "altior/crypto/v1" := by
  have hdomain (rest : List UInt8) :
      (pairingDomain ++ rest).take 16 = asBytes "altior/crypto/v1" := by
    rw [List.take_append_of_le_length (by decide)]
    decide
  unfold pairingTranscript at h
  split at h
  · cases h
  split at h <;> exact Except.ok.inj h ▸ hdomain _

/-- Bytes that begin with a domain are no associated data. -/
theorem AssociatedData.encode_ne {a : AssociatedData} (ha : a.Fits) {bytes domain : List UInt8}
    (hbytes : bytes.take 16 = domain) (hdomain : domain.take 1 ≠ [envelopeVersion]) :
    bytes ≠ a.encode := by
  rintro rfl
  refine hdomain ?_
  rw [← hbytes, List.take_take, ← ha.version]
  rfl

/-- The transcript of a pairing is the same on both sides and stands for its two parties;
the infos and the associated data of a session stand for their fields, and no context is
one of another purpose. -/
theorem contexts_unambiguous {a b c d : DeviceIdentity} (ha : IsDeviceId a.id)
    (hb : IsDeviceId b.id) (hc : IsDeviceId c.id) (hd : IsDeviceId d.id) {i j : HkdfInfo}
    (hi : i.Fits) (hj : j.Fits) {x y : AssociatedData} (hx : x.Fits) (hy : y.Fits) :
    pairingTranscript a b = pairingTranscript b a ∧
    (∀ t, pairingTranscript a b = .ok t → pairingTranscript c d = .ok t → s(a, b) = s(c, d)) ∧
    (i.encode = j.encode → i = j) ∧ (x.encode = y.encode → x = y) ∧ i.encode ≠ x.encode ∧
    ∀ t, pairingTranscript a b = .ok t → t ≠ i.encode ∧ t ≠ x.encode := by
  refine ⟨pairingTranscript_comm a b, fun t => pairingTranscript_inj ha hb hc hd,
    HkdfInfo.encode_inj hi hj, AssociatedData.encode_inj hx hy,
    AssociatedData.encode_ne hx i.take_encode (by decide), fun t h => ⟨?_, ?_⟩⟩
  · rintro rfl
    exact absurd (i.take_encode.symm.trans (take_pairingTranscript h)) (by decide)
  · exact AssociatedData.encode_ne hx (take_pairingTranscript h) (by decide)

/-- Two devices, the chain and a turn, and the data of two envelopes. -/
theorem contexts_unambiguous_sample :
    pairingTranscript ⟨"a", zero32, zero32⟩ ⟨"b", zero32, zero32⟩ =
      pairingTranscript ⟨"b", zero32, zero32⟩ ⟨"a", zero32, zero32⟩ ∧
    HkdfInfo.encode .chainDomain ≠
      AssociatedData.encode ⟨2, 1, Vector.replicate 16 0, 1, 1, "a", "b"⟩ := by
  have hid {id : String} (h : id = "a" ∨ id = "b") : IsDeviceId id := by
    rcases h with rfl | rfl <;> exact ⟨by decide, by decide⟩
  have ha := hid (.inl rfl)
  have hb := hid (.inr rfl)
  have h := @contexts_unambiguous ⟨"a", zero32, zero32⟩ ⟨"b", zero32, zero32⟩
    ⟨"b", zero32, zero32⟩ ⟨"a", zero32, zero32⟩ ha hb hb ha .chainDomain
    (.turnDomain 2 (Vector.replicate 16 0) 1 1 "a" "b") trivial ⟨rfl, by decide, ha, hb⟩
    ⟨2, 1, Vector.replicate 16 0, 1, 1, "a", "b"⟩ ⟨2, 1, Vector.replicate 16 0, 1, 2, "a", "b"⟩
    ⟨rfl, by decide, by decide, ha, hb⟩ ⟨rfl, by decide, by decide, ha, hb⟩
  exact ⟨h.1, h.2.2.2.2.1⟩

end Altior.Crypto
