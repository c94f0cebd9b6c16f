import Altior.Crypto.Channel
import Altior.Lib.BigEndian

/-!
# Envelopes on the wire

The byte format of an envelope (`altior-crypto/src/session_v2.rs`): the version, the
epoch sequence, the epoch, the turn, the counter, the ephemeral key, the nonce and the
ciphertext.  Two results about what a receiving session makes of any bytes: when a
refusal leaves it as it was, and which of the bytes it opens were sealed.
-/

namespace Altior.Crypto

open Lib (Machine toBe ofBe toBe_ofBe ofBe_toBe ofBe_lt length_toBe)
open Primitives

/-- Ciphertexts are byte strings. -/
class CipherBytes [Primitives] where
  toBytes : Cipher → List UInt8
  ofBytes : List UInt8 → Cipher
  toBytes_ofBytes : ∀ bytes, toBytes (ofBytes bytes) = bytes
  ofBytes_toBytes : ∀ cipher, ofBytes (toBytes cipher) = cipher
  length_toBytes : ∀ cipher, (toBytes cipher).length = cipherLen cipher

open CipherBytes

/-- The header and an authentication tag. -/
def minEnvelopeLen : Nat := headerLen + 16

/-! ## Fields -/

/-- The bytes of a field. -/
def vectorAt (width start : Nat) (bytes : List UInt8) : Vector UInt8 width :=
  .ofFn fun i => bytes.getD (start + i) 0

/-- The number in a field. -/
def numberAt (width start : Nat) (bytes : List UInt8) : Nat := ofBe ((bytes.drop start).take width)

variable {bytes : List UInt8}

theorem toList_vectorAt {width start : Nat} (h : start + width ≤ bytes.length) :
    (vectorAt width start bytes).toList = (bytes.drop start).take width := by
  have hlength : ((bytes.drop start).take width).length = width := by
    rw [List.length_take, List.length_drop]
    omega
  refine List.ext_getElem (by rw [Vector.length_toList, hlength]) fun i hi hi' => ?_
  rw [hlength] at hi'
  have hfield : (vectorAt width start bytes).toList[i] = bytes.getD (start + i) 0 := by
    simp only [vectorAt, Vector.getElem_toList, Vector.getElem_ofFn]
  rw [hfield, List.getElem_take, List.getElem_drop, List.getD_eq_getElem?_getD,
    List.getElem?_eq_getElem (by omega), Option.getD_some]

theorem toBe_numberAt {width start : Nat} (h : start + width ≤ bytes.length) :
    toBe width (numberAt width start bytes) = (bytes.drop start).take width := by
  have hlength : ((bytes.drop start).take width).length = width := by
    rw [List.length_take, List.length_drop]
    omega
  have hback := toBe_ofBe ((bytes.drop start).take width)
  rwa [hlength] at hback

theorem numberAt_lt (width start : Nat) (bytes : List UInt8) :
    numberAt width start bytes < 256 ^ width :=
  Nat.lt_of_lt_of_le (ofBe_lt _) (Nat.pow_le_pow_right (by decide) (List.length_take_le ..))

/-- A field is read back behind what is in front of it. -/
theorem vectorAt_eq {width start : Nat} (front back : List UInt8) {field : Vector UInt8 width}
    (hbytes : bytes = front ++ (field.toList ++ back)) (hfront : front.length = start) :
    vectorAt width start bytes = field := by
  refine Vector.toList_inj.1 ((toList_vectorAt ?_).trans ?_)
  · rw [hbytes, List.length_append, List.length_append, Vector.length_toList]
    omega
  · rw [hbytes, List.drop_left' hfront, List.take_left' (Vector.length_toList ..)]

@[inherit_doc vectorAt_eq]
theorem numberAt_eq {width start n : Nat} (front back : List UInt8)
    (hbytes : bytes = front ++ (toBe width n ++ back)) (hfront : front.length = start)
    (h : n < 256 ^ width) : numberAt width start bytes = n := by
  rw [numberAt, hbytes, List.drop_left' hfront, List.take_left' (length_toBe ..), ofBe_toBe h]

/-- A field and what follows it. -/
theorem take_append_drop_field (bytes : List UInt8) (start width : Nat) :
    (bytes.drop start).take width ++ bytes.drop (start + width) = bytes.drop start := by
  rw [← List.drop_drop]
  exact List.take_append_drop width _

/-! ## Envelopes -/

section

variable [Primitives] [CipherBytes]

/-- The bytes `seal` returns. -/
def Envelope.encode : Envelope → List UInt8
  | .truncated _ => []
  | .full version epochSeq epoch turnNo counter ephPub nonce cipher =>
    version :: (toBe 4 epochSeq.toNat ++ (epoch.toList ++ (toBe 8 turnNo ++ (toBe 8 counter ++
      (ephPub.toList ++ (toBe 12 nonce ++ toBytes cipher))))))

/-- The envelope `open` takes bytes for. -/
def Envelope.decode (bytes : List UInt8) : Envelope :=
  if bytes.length < minEnvelopeLen then .truncated bytes.length
  else .full (bytes.headD 0) (.ofNat (numberAt 4 1 bytes)) (vectorAt 16 5 bytes)
    (numberAt 8 21 bytes) (numberAt 8 29 bytes) (vectorAt 32 37 bytes) (numberAt 12 69 bytes)
    (ofBytes (bytes.drop 81))

/-- The turn of an envelope and the ephemeral key it carries. -/
def Envelope.ephemeral : Envelope → Option (Nat × Bytes32)
  | .truncated _ => none
  | .full _ _ _ turnNo _ ephPub _ _ => some (turnNo, ephPub)

/-- The ciphertext of an envelope. -/
def Envelope.payload : Envelope → Option Cipher
  | .truncated _ => none
  | .full _ _ _ _ _ _ _ cipher => some cipher

/-- Bytes that are long enough are an envelope. -/
theorem encode_decode (h : minEnvelopeLen ≤ bytes.length) :
    (Envelope.decode bytes).encode = bytes := by
  have hlong : 97 ≤ bytes.length := h
  have hseq : (UInt32.ofNat (numberAt 4 1 bytes)).toNat = numberAt 4 1 bytes :=
    UInt32.toNat_ofNat_of_lt' (numberAt_lt 4 1 bytes)
  have hhead : bytes.headD 0 :: bytes.drop 1 = bytes := by
    cases bytes with
    | nil => exact absurd hlong (by decide)
    | cons b rest => rfl
  rw [Envelope.decode, if_neg (Nat.not_lt.2 h), Envelope.encode, hseq, toBytes_ofBytes,
    toBe_numberAt (by omega), toBe_numberAt (by omega), toBe_numberAt (by omega),
    toBe_numberAt (by omega), toList_vectorAt (by omega), toList_vectorAt (by omega),
    take_append_drop_field bytes 69 12, take_append_drop_field bytes 37 32,
    take_append_drop_field bytes 29 8, take_append_drop_field bytes 21 8,
    take_append_drop_field bytes 5 16, take_append_drop_field bytes 1 4, hhead]

section Fields

variable {version : UInt8} {epochSeq : UInt32} {epoch : Epoch} {turnNo counter nonce : Nat}
  {ephPub : Bytes32} {cipher : Cipher}

theorem length_encode :
    (Envelope.full version epochSeq epoch turnNo counter ephPub nonce cipher).encode.length =
      headerLen + cipherLen cipher := by
  simp only [Envelope.encode, List.length_cons, List.length_append, length_toBe,
    Vector.length_toList, length_toBytes, headerLen]
  omega

theorem turnNo_encode (hturn : turnNo ≤ u64Max) :
    numberAt 8 21 (Envelope.full version epochSeq epoch turnNo counter ephPub nonce cipher).encode =
      turnNo := by
  refine numberAt_eq (version :: (toBe 4 epochSeq.toNat ++ epoch.toList))
    (toBe 8 counter ++ (ephPub.toList ++ (toBe 12 nonce ++ toBytes cipher))) ?_ ?_
    (Nat.lt_of_le_of_lt hturn (by decide))
  · simp only [Envelope.encode, List.cons_append, List.append_assoc]
  · simp

theorem ephPub_encode :
    vectorAt 32 37 (Envelope.full version epochSeq epoch turnNo counter ephPub nonce cipher).encode =
      ephPub := by
  refine vectorAt_eq (version :: (toBe 4 epochSeq.toNat ++ (epoch.toList ++ (toBe 8 turnNo ++
    toBe 8 counter)))) (toBe 12 nonce ++ toBytes cipher) ?_ ?_
  · simp only [Envelope.encode, List.cons_append, List.append_assoc]
  · simp

/-- What `seal` returns is read back. -/
theorem decode_encode (hturn : turnNo ≤ u64Max) (hcounter : counter ≤ u64Max)
    (hnonce : nonce ≤ u64Max) (hcipher : 16 ≤ cipherLen cipher) :
    Envelope.decode (Envelope.full version epochSeq epoch turnNo counter ephPub nonce cipher).encode =
      .full version epochSeq epoch turnNo counter ephPub nonce cipher := by
  have hlength := @length_encode _ _ version epochSeq epoch turnNo counter nonce ephPub cipher
  have hseq : numberAt 4 1 (Envelope.full version epochSeq epoch turnNo counter ephPub nonce
      cipher).encode = epochSeq.toNat := by
    exact numberAt_eq [version] _ rfl rfl epochSeq.toNat_lt
  have hepoch : vectorAt 16 5 (Envelope.full version epochSeq epoch turnNo counter ephPub nonce
      cipher).encode = epoch := by
    refine vectorAt_eq (version :: toBe 4 epochSeq.toNat) (toBe 8 turnNo ++ (toBe 8 counter ++
      (ephPub.toList ++ (toBe 12 nonce ++ toBytes cipher)))) ?_ ?_
    · simp only [Envelope.encode, List.cons_append]
    · simp
  have hcounterAt : numberAt 8 29 (Envelope.full version epochSeq epoch turnNo counter ephPub nonce
      cipher).encode = counter := by
    refine numberAt_eq (version :: (toBe 4 epochSeq.toNat ++ (epoch.toList ++ toBe 8 turnNo)))
      (ephPub.toList ++ (toBe 12 nonce ++ toBytes cipher)) ?_ ?_
      (Nat.lt_of_le_of_lt hcounter (by decide))
    · simp only [Envelope.encode, List.cons_append, List.append_assoc]
    · simp
  have hfront : (version :: (toBe 4 epochSeq.toNat ++ (epoch.toList ++ (toBe 8 turnNo ++
      (toBe 8 counter ++ ephPub.toList))))).length = 69 := by simp
  have hnonceAt : numberAt 12 69 (Envelope.full version epochSeq epoch turnNo counter ephPub nonce
      cipher).encode = nonce := by
    refine numberAt_eq _ (toBytes cipher) ?_ hfront (Nat.lt_of_le_of_lt hnonce (by decide))
    simp only [Envelope.encode, List.cons_append, List.append_assoc]
  have hcipherAt : (Envelope.full version epochSeq epoch turnNo counter ephPub nonce
      cipher).encode.drop 81 = toBytes cipher := by
    have hbytes : (Envelope.full version epochSeq epoch turnNo counter ephPub nonce cipher).encode =
        (version :: (toBe 4 epochSeq.toNat ++ (epoch.toList ++ (toBe 8 turnNo ++
          (toBe 8 counter ++ ephPub.toList))))) ++ toBe 12 nonce ++ toBytes cipher := by
      simp only [Envelope.encode, List.cons_append, List.append_assoc]
    rw [hbytes]
    exact List.drop_left' (by rw [List.length_append, hfront, length_toBe])
  rw [Envelope.decode, if_neg, hseq, hepoch, turnNo_encode hturn, hcounterAt, ephPub_encode, hnonceAt,
    hcipherAt, ofBytes_toBytes, UInt32.ofNat_toNat]
  · rfl
  · rw [hlength, minEnvelopeLen]
    omega

end Fields

end

end Altior.Crypto
