import Mathlib.Data.List.Basic

/-!
# JSON values and the serializer the code calls

`Json` is `serde_json::Value`.  The serializer itself is not part of the
repository; `SerdeJson` is the interface of it the code uses, with its bytes an
abstract type.
-/

namespace Altior.Domain

/-- `serde_json::Number`; a float is kept as its bits. -/
inductive Number
  | posInt (n : UInt64)
  | negInt (n : Int64)
  | float (bits : UInt64)
deriving DecidableEq, Repr

/-- A JSON value without parts. -/
inductive Scalar
  | null
  | bool (b : Bool)
  | number (n : Number)
  | string (s : String)
deriving DecidableEq, Repr

/-- A JSON value.  An object keeps each key once, as the parsed map does. -/
inductive Json
  | scalar (v : Scalar)
  | array (items : List Json)
  | object (fields : List (String × Json))

/-- `i64::MAX`. -/
def i64Max : Nat := 0x7fffffffffffffff

namespace Json

/-- `Value::as_object`. -/
def asObject : Json → Option (List (String × Json))
  | object fields => some fields
  | _ => none

/-- `Value::as_str`. -/
def asStr : Json → Option String
  | scalar (.string s) => some s
  | _ => none

/-- `Value::as_bool`. -/
def asBool : Json → Option Bool
  | scalar (.bool b) => some b
  | _ => none

/-- `Value::as_u64`. -/
def asU64 : Json → Option UInt64
  | scalar (.number (.posInt n)) => some n
  | _ => none

/-- `Value::as_i64`: a positive number only when it fits. -/
def asI64 : Json → Option Int
  | scalar (.number (.posInt n)) => if n.toNat ≤ i64Max then some n.toNat else none
  | scalar (.number (.negInt n)) => some n.toInt
  | _ => none

/-- `Value::get` with a key. -/
def get (k : String) : Json → Option Json
  | object fields => fields.lookup k
  | _ => none

/-- `value.get(k).and_then(Value::as_str)`. -/
def getStr (k : String) (v : Json) : Option String := (v.get k).bind asStr

/-- `value.get(k).and_then(Value::as_u64)`. -/
def getU64 (k : String) (v : Json) : Option UInt64 := (v.get k).bind asU64

/-- `value.get(k).and_then(Value::as_i64)`. -/
def getI64 (k : String) (v : Json) : Option Int := (v.get k).bind asI64

/-- `value.get(k).and_then(Value::as_bool)`. -/
def getBool (k : String) (v : Json) : Option Bool := (v.get k).bind asBool

/-- `Value::is_object`. -/
def isObject (v : Json) : Bool := v.asObject.isSome

end Json

/-- The JSON library: byte strings, their length, and what they parse to. -/
class SerdeJson where
  /-- The byte strings the journal stores and the serializer produces. -/
  Bytes : Type
  decEq : DecidableEq Bytes
  /-- Length in bytes. -/
  len : Bytes → Nat
  /-- `std::str::from_utf8` accepts the bytes. -/
  isUtf8 : Bytes → Bool
  /-- `serde_json::from_slice::<Value>`. -/
  fromSlice : Bytes → Option Json

instance [s : SerdeJson] : DecidableEq (SerdeJson.Bytes) := s.decEq

/-- The serializer restricted to flat objects: a byte string is the list of its
members, as long as its rendering without escapes. -/
abbrev flatObjects : SerdeJson where
  Bytes := List (String × Scalar)
  decEq := inferInstance
  len fields := 1 + fields.foldr (fun (k, v) size => size + k.utf8ByteSize + 4 + match v with
    | .null => 4
    | .bool b => if b then 4 else 5
    | .number _ => 1
    | .string s => s.utf8ByteSize + 2) 0
  isUtf8 _ := true
  fromSlice fields := some (.object (fields.map fun (k, v) => (k, .scalar v)))

/-- An object without nested parts. -/
def Json.flat (fields : List (String × Scalar)) : Json :=
  .object (fields.map fun (k, v) => (k, .scalar v))

/-- The JSON library with its writer. -/
class SerdeJsonWriter extends SerdeJson where
  /-- `serde_json::to_vec` of a value. -/
  toVec : Json → Bytes
  /-- The text of UTF-8 bytes. -/
  text : Bytes → String

/-- What is relied on of the writer: its output is UTF-8, and a flat object with
distinct keys reads back with the same members, in whatever order. -/
class LawfulWriter [SerdeJsonWriter] : Prop where
  isUtf8_toVec : ∀ v, SerdeJson.isUtf8 (SerdeJsonWriter.toVec v) = true
  fromSlice_toVec : ∀ fields : List (String × Scalar), (fields.map Prod.fst).Nodup →
    ∃ fields', fields'.Perm fields ∧
      SerdeJson.fromSlice (SerdeJsonWriter.toVec (.flat fields)) = some (.flat fields')

theorem lookup_of_mem {β : Type} {k : String} {b : β} {fields : List (String × β)}
    (hnodup : (fields.map Prod.fst).Nodup) (hmem : (k, b) ∈ fields) : fields.lookup k = some b := by
  induction fields with
  | nil => cases hmem
  | cons field fields ih =>
    obtain ⟨k', b'⟩ := field
    rw [List.map_cons, List.nodup_cons] at hnodup
    rw [List.lookup_cons]
    rcases List.mem_cons.1 hmem with heq | hin
    · cases heq
      simp
    · have hne : k ≠ k' := by
        rintro rfl
        exact hnodup.1 (List.mem_map.2 ⟨_, hin, rfl⟩)
      simp only [beq_eq_false_iff_ne.2 hne]
      exact ih hnodup.2 hin

/-- A member of a flat object reads back, in whatever order the members are. -/
theorem Json.get_flat {fields fields' : List (String × Scalar)} (hperm : fields'.Perm fields)
    (hnodup : (fields.map Prod.fst).Nodup) {k : String} {a : Scalar} (hmem : (k, a) ∈ fields) :
    (Json.flat fields').get k = some (.scalar a) := by
  have hnodup' : ((fields'.map fun p => (p.1, Json.scalar p.2)).map Prod.fst).Nodup := by
    rw [List.map_map]
    exact (hperm.map Prod.fst).nodup_iff.2 hnodup
  exact lookup_of_mem hnodup' (List.mem_map.2 ⟨(k, a), hperm.mem_iff.2 hmem, rfl⟩)

theorem Json.getStr_flat {fields fields' : List (String × Scalar)} (hperm : fields'.Perm fields)
    (hnodup : (fields.map Prod.fst).Nodup) {k s : String} (hmem : (k, .string s) ∈ fields) :
    (Json.flat fields').getStr k = some s := by
  unfold Json.getStr
  rw [Json.get_flat hperm hnodup hmem]
  rfl

/-- The serializer of flat objects with its writer; the text it shows is the keys
in order. -/
abbrev flatWriter : SerdeJsonWriter where
  toSerdeJson := flatObjects
  toVec
    | .object fields => fields.filterMap fun (k, v) => match v with
        | .scalar s => some (k, s)
        | _ => none
    | _ => []
  text fields := String.join (fields.map Prod.fst)

theorem flatWriter_toVec (fields : List (String × Scalar)) :
    flatWriter.toVec (.flat fields) = fields := by
  change (fields.map fun (k, v) => (k, Json.scalar v)).filterMap _ = fields
  rw [List.filterMap_map]
  exact List.filterMap_some

theorem flatWriter_lawful : @LawfulWriter flatWriter := by
  let _ := flatWriter
  refine ⟨fun _ => rfl, fun fields _ => ⟨fields, .refl _, ?_⟩⟩
  exact congrArg (fun fields => some (Json.flat fields)) (flatWriter_toVec fields)

end Altior.Domain
