import Mathlib.Algebra.Group.Nat.Defs
import Mathlib.Data.List.Induction

/-!
# Numbers as bytes

Fixed-width big-endian numbers: what a number is written as, and what is read back.
-/

namespace Altior.Lib

/-- The number a list of bytes stands for, the highest byte first. -/
def ofBe (bytes : List UInt8) : Nat := bytes.foldl (fun n b => n * 256 + b.toNat) 0

/-- A number in as many bytes as there is room for. -/
def toBe : Nat → Nat → List UInt8
  | 0, _ => []
  | width + 1, n => toBe width (n / 256) ++ [UInt8.ofNat n]

@[simp] theorem length_toBe (width n : Nat) : (toBe width n).length = width := by
  induction width generalizing n with
  | zero => rfl
  | succ width ih => rw [toBe, List.length_append, ih, List.length_singleton]

theorem ofBe_append_singleton (bytes : List UInt8) (b : UInt8) :
    ofBe (bytes ++ [b]) = ofBe bytes * 256 + b.toNat := by
  rw [ofBe, List.foldl_append]
  rfl

/-- A number that fits is read back. -/
theorem ofBe_toBe {width n : Nat} (h : n < 256 ^ width) : ofBe (toBe width n) = n := by
  induction width generalizing n with
  | zero => exact (Nat.lt_one_iff.1 h).symm
  | succ width ih =>
    have hhigh : n / 256 < 256 ^ width := by
      rw [Nat.div_lt_iff_lt_mul (by decide), ← Nat.pow_succ]
      exact h
    rw [toBe, ofBe_append_singleton, ih hhigh, UInt8.toNat_ofNat']
    omega

/-- Bytes are written back. -/
theorem toBe_ofBe (bytes : List UInt8) : toBe bytes.length (ofBe bytes) = bytes := by
  induction bytes using List.reverseRecOn with
  | nil => rfl
  | append_singleton bytes b ih =>
    have hb := b.toNat_lt
    have hhigh : (ofBe bytes * 256 + b.toNat) / 256 = ofBe bytes := by omega
    have hlow : UInt8.ofNat (ofBe bytes * 256 + b.toNat) = b := by
      apply UInt8.toNat_inj.1
      rw [UInt8.toNat_ofNat']
      omega
    rw [List.length_append, List.length_singleton, toBe, ofBe_append_singleton, hhigh, hlow, ih]

theorem ofBe_lt (bytes : List UInt8) : ofBe bytes < 256 ^ bytes.length := by
  induction bytes using List.reverseRecOn with
  | nil => exact Nat.one_pos
  | append_singleton bytes b ih =>
    have hb := b.toNat_lt
    rw [ofBe_append_singleton, List.length_append, List.length_singleton, Nat.pow_succ]
    omega

end Altior.Lib
