import Mathlib.Data.List.Basic

/-!
# FNV-1a

The 64-bit FNV-1a hash of a byte string, and the big-endian bytes of a 64-bit
value.
-/

namespace Altior.Lib

/-- The eight bytes of a 64-bit value, most significant first. -/
def toBeBytes (n : Nat) : List UInt8 :=
  (List.range 8).map fun i => UInt8.ofNat (n >>> (8 * (7 - i)))

def fnvOffsetBasis : UInt64 := 0xcbf29ce484222325

def fnvPrime : UInt64 := 0x100000001b3

def fnv1a (bytes : List UInt8) : UInt64 :=
  bytes.foldl (fun state b => (state ^^^ b.toUInt64) * fnvPrime) fnvOffsetBasis

end Altior.Lib
