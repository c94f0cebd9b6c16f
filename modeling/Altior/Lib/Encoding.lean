import Altior.Lib.BigEndian
import Altior.Lib.Fnv
import Altior.Lib.Utf8

/-!
# Encodings that end by themselves

What is written is told from whatever follows it.  Fields of a fixed width are so, and
fields behind their length; so is what is made of such fields, one after the other, and
a run of blocks that begin alike, in front of something that begins otherwise.
-/

namespace Altior.Lib

variable {α β : Type}

/-- What is written is read back in front of anything. -/
def Delimited (P : α → Prop) (f : α → List β) : Prop :=
  ∀ ⦃a b : α⦄ ⦃s t : List β⦄, P a → P b → f a ++ s = f b ++ t → a = b ∧ s = t

namespace Delimited

variable {P : α → Prop} {f : α → List β} {a b : α} {s t : List β}

theorem inj (hf : Delimited P f) (ha : P a) (hb : P b) (h : f a = f b) : a = b := by
  have happend : f a ++ [] = f b ++ [] := by rw [h]
  exact (hf ha hb happend).1

/-- A field of fixed width. -/
theorem of_length {n : Nat} (hlength : ∀ a, (f a).length = n)
    (hinj : ∀ a b, P a → P b → f a = f b → a = b) : Delimited P f := by
  intro a b s t ha hb h
  obtain ⟨hfield, hrest⟩ := List.append_inj h ((hlength a).trans (hlength b).symm)
  exact ⟨hinj a b ha hb hfield, hrest⟩

/-- A field that may be absent, behind a mark that tells. -/
theorem option (hf : Delimited P f) {absent present : β} (hmarks : absent ≠ present) :
    Delimited (fun o : Option α => ∀ a ∈ o, P a)
      fun o => o.elim [absent] fun a => present :: f a := by
  rintro (_ | a) (_ | b) s t ha hb h
  · exact ⟨rfl, (List.cons.inj h).2⟩
  · exact absurd (List.cons.inj h).1 hmarks
  · exact absurd (List.cons.inj h).1.symm hmarks
  · obtain ⟨rfl, hrest⟩ := hf (ha a rfl) (hb b rfl) (List.cons.inj h).2
    exact ⟨rfl, hrest⟩

/-- What is in front of a rest when it is not the mark. -/
theorem head?_flatMap_append {mark other : β} (hmark : ∀ a, (f a).head? = some mark)
    (hne : mark ≠ other) (l : List α) (hs : s.head? ≠ some other) :
    (l.flatMap f ++ s).head? ≠ some other := by
  cases l with
  | nil => exact hs
  | cons a l =>
    rw [List.flatMap_cons, List.append_assoc, List.head?_append, hmark a]
    exact fun h => hne (Option.some.inj h)

/-- Blocks that begin alike, in front of something that begins otherwise. -/
theorem flatMap (hf : Delimited P f) {mark : β} (hmark : ∀ a, (f a).head? = some mark)
    {l l' : List α} (hl : ∀ a ∈ l, P a) (hl' : ∀ a ∈ l', P a) (hs : s.head? ≠ some mark)
    (ht : t.head? ≠ some mark) (h : l.flatMap f ++ s = l'.flatMap f ++ t) : l = l' ∧ s = t := by
  have hhead (a : α) (rest : List β) : (f a ++ rest).head? = some mark := by
    rw [List.head?_append, hmark a]
    rfl
  induction l generalizing l' with
  | nil =>
    cases l' with
    | nil => exact ⟨rfl, h⟩
    | cons b l' =>
      rw [List.flatMap_cons, List.append_assoc] at h
      exact absurd ((congrArg List.head? h).trans (hhead b _)) hs
  | cons a l ih =>
    cases l' with
    | nil =>
      rw [List.flatMap_cons, List.append_assoc] at h
      exact absurd ((congrArg List.head? h).symm.trans (hhead a _)) ht
    | cons b l' =>
      rw [List.flatMap_cons, List.flatMap_cons, List.append_assoc, List.append_assoc] at h
      obtain ⟨rfl, hrest⟩ := hf (hl a List.mem_cons_self) (hl' b List.mem_cons_self) h
      obtain ⟨rfl, hst⟩ := ih (fun c hc => hl c (List.mem_cons_of_mem a hc))
        (fun c hc => hl' c (List.mem_cons_of_mem a hc)) hrest
      exact ⟨rfl, hst⟩

end Delimited

/-! ## Numbers -/

/-- A number that fits its width. -/
theorem delimited_toBe (width : Nat) : Delimited (· < 256 ^ width) (toBe width) := by
  refine .of_length (length_toBe width) fun n m hn hm h => ?_
  rw [← ofBe_toBe hn, h, ofBe_toBe hm]

theorem toBeBytes_eq_toBe (n : Nat) : toBeBytes n = toBe 8 n := by
  simp [toBeBytes, toBe, List.range_succ, Nat.shiftRight_eq_div_pow, Nat.div_div_eq_div_mul]

/-! ## Texts and strings of bytes -/

theorem length_asBytes (s : String) : (asBytes s).length = s.utf8ByteSize := Array.length_toList

theorem asBytes_injective : Function.Injective asBytes := fun s t h => by
  rw [← Option.some.injEq, ← fromUtf8_asBytes, h, fromUtf8_asBytes]

/-- A text behind its length. -/
theorem delimited_text (width : Nat) : Delimited (fun s : String => s.utf8ByteSize < 256 ^ width)
    fun s => toBe width s.utf8ByteSize ++ asBytes s := by
  intro a b s t ha hb h
  rw [List.append_assoc, List.append_assoc] at h
  obtain ⟨hsize, hrest⟩ := delimited_toBe width ha hb h
  obtain ⟨hbytes, hst⟩ := List.append_inj hrest
    ((length_asBytes a).trans (hsize.trans (length_asBytes b).symm))
  exact ⟨asBytes_injective hbytes, hst⟩

theorem delimited_vector (n : Nat) :
    Delimited (fun _ => True) (Vector.toList : Vector UInt8 n → List UInt8) :=
  .of_length (fun _ => Vector.length_toList) fun _ _ _ _ h => Vector.toList_inj.1 h

end Altior.Lib
