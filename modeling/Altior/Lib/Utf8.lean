import Mathlib.Data.List.Basic

/-!
# Texts as bytes

The UTF-8 bytes of a text, the text that bytes are, and where a line break can be in
them.
-/

namespace Altior.Lib

/-- The bytes of a text. -/
def asBytes (s : String) : List UInt8 := s.toUTF8.data.toList

/-- The text some bytes are, if they are one. -/
def fromUtf8 (bytes : List UInt8) : Option String := String.fromUTF8? ⟨bytes.toArray⟩

theorem fromUtf8_asBytes (s : String) : fromUtf8 (asBytes s) = some s := by
  have hbytes : (⟨(asBytes s).toArray⟩ : ByteArray) = s.toByteArray := rfl
  unfold fromUtf8 String.fromUTF8?
  rw [hbytes, dif_pos s.isValidUTF8]
  rfl

/-- Bytes are at most one text, and are its bytes. -/
theorem fromUtf8_eq_some {bytes : List UInt8} {s : String} :
    fromUtf8 bytes = some s ↔ bytes = asBytes s := by
  constructor
  · intro h
    unfold fromUtf8 String.fromUTF8? at h
    split at h
    · cases h
      rfl
    · cases h
  · rintro rfl
    exact fromUtf8_asBytes s

theorem asBytes_eq (s : String) : asBytes s = s.toList.flatMap String.utf8EncodeChar := by
  have hbytes : s.toByteArray = (s.toList.flatMap String.utf8EncodeChar).toByteArray := by
    rw [← String.utf8Encode_toList]
    rfl
  unfold asBytes
  rw [String.toUTF8_eq_toByteArray, hbytes, List.data_toByteArray]

@[simp] theorem asBytes_append (s t : String) : asBytes (s ++ t) = asBytes s ++ asBytes t := by
  simp only [asBytes_eq, String.toList_append, List.flatMap_append]

/-- Reading the bytes one by one from some place on. -/
theorem toList_loop (bytes : ByteArray) (i : Nat) (read : List UInt8) :
    ByteArray.toList.loop bytes i read = read.reverse ++ bytes.data.toList.drop i := by
  fun_induction ByteArray.toList.loop bytes i read with
  | case1 i read hi ih =>
    have hlength : i < bytes.data.toList.length := by simpa using hi
    have hget : bytes.get! i = bytes.data.toList[i] := getElem!_pos bytes.data i hi
    rw [ih, List.drop_eq_getElem_cons hlength, hget, List.reverse_cons, List.append_assoc]
    rfl
  | case2 i read hi =>
    have hlength : bytes.data.toList.length ≤ i := by simpa using hi
    rw [List.drop_eq_nil_of_le hlength, List.append_nil]

theorem toUTF8_toList (s : String) : s.toUTF8.toList = asBytes s :=
  toList_loop s.toUTF8 0 []

/-- A line break is a byte of no other character. -/
theorem newline_mem_utf8EncodeChar {c : Char} (h : (10 : UInt8) ∈ String.utf8EncodeChar c) :
    c = '\n' := by
  have hof {k : Nat} (hk : (10 : UInt8) = UInt8.ofNat k) : k % 256 = 10 := by
    have := congrArg UInt8.toNat hk
    rw [UInt8.toNat_ofNat'] at this
    exact this.symm
  apply Char.ext
  apply UInt32.toNat.inj
  change c.val.toNat = 10
  unfold String.utf8EncodeChar at h
  dsimp only at h
  split at h
  · have := hof (List.mem_singleton.1 h)
    omega
  split at h
  · simp only [List.mem_cons, List.not_mem_nil, or_false] at h
    rcases h with h | h <;> have := hof h <;> omega
  split at h
  · simp only [List.mem_cons, List.not_mem_nil, or_false] at h
    rcases h with h | h | h <;> have := hof h <;> omega
  · simp only [List.mem_cons, List.not_mem_nil, or_false] at h
    rcases h with h | h | h | h <;> have := hof h <;> omega

/-- A line break among the bytes is one of the text. -/
theorem newline_of_mem_asBytes {s : String} (h : (10 : UInt8) ∈ asBytes s) : '\n' ∈ s.toList := by
  rw [asBytes_eq] at h
  obtain ⟨c, hc, hbyte⟩ := List.mem_flatMap.1 h
  exact newline_mem_utf8EncodeChar hbyte ▸ hc

end Altior.Lib
