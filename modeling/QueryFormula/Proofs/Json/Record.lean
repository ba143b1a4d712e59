import QueryFormula.Json.Record
import QueryFormula.Proofs.Json.RoundTrip

/-!
# Parts of records

What is written for an integer, for a list and for a value that may be missing is read back
as that, and has a text of its own if its parts have.
-/

namespace QueryFormula.Json

/-! ### Integers -/

/-- The digits of an integer and its sign tell the integer. -/
theorem integer?_ofInt (n : Int) :
    integer? ((if n < 0 then ['-'] else []) ++ Nat.toDigits 10 n.natAbs) = some n := by
  have hany : Nat.toDigits 10 n.natAbs ≠ [] := Nat.toDigits_ne_nil
  have hdigits : ∀ c ∈ Nat.toDigits 10 n.natAbs, c.isDigit = true := fun c hc =>
    Nat.isDigit_of_mem_toDigits (by decide) (by decide) hc
  have hall : (Nat.toDigits 10 n.natAbs).all Char.isDigit = true := List.all_eq_true.mpr hdigits
  have hvalue : Nat.ofDigitChars 10 (Nat.toDigits 10 n.natAbs) 0 = n.natAbs :=
    Nat.ofDigitChars_ten_toDigits
  by_cases hnegative : n < 0
  · have hzero : n.natAbs ≠ 0 := by omega
    rw [if_pos hnegative, List.singleton_append, integer?, hvalue, if_pos ⟨hany, hall, hzero⟩,
      Option.some.injEq]
    omega
  · have hsign : ∀ tail, Nat.toDigits 10 n.natAbs ≠ '-' :: tail := by
      intro tail htail
      cases hdigits '-' (htail ▸ List.mem_cons_self)
    rw [if_neg hnegative, List.nil_append, integer?.eq_2 _ hsign, hvalue, if_pos ⟨hany, hall⟩,
      Option.some.injEq]
    omega

/-- An integer of 64 bits is read back. -/
@[simp] theorem int64?_ofInt (i : Int64) : int64? (ofInt i.toInt) = some i := by
  rw [ofInt, int64?, String.toList_ofList, integer?_ofInt, Option.bind_eq_bind, Option.bind_some,
    if_pos ⟨i.minValue_le_toInt, i.toInt_le⟩, Int64.ofInt_toInt]

/-- The text of an integer of 64 bits tells the integer. -/
theorem ofInt_toInt_inj {i j : Int64} (h : ofInt i.toInt = ofInt j.toInt) : i = j := by
  have hread := int64?_ofInt i
  rw [h, int64?_ofInt] at hread
  exact (Option.some.inj hread).symm

@[simp] theorem readable_ofInt (n : Int) : (ofInt n).Readable :=
  .number (by rw [String.toList_ofList]; exact isNumber_ofInt n)

/-! ### Lists and values that may be missing -/

section Parts

variable {α : Type} {write : α → Json} {read : Json → Option α}

theorem list?_ofList (h : ∀ x, read (write x) = some x) (xs : List α) :
    list? read (ofList write xs) = some xs := by
  rw [ofList, list?]
  induction xs with
  | nil => rfl
  | cons x xs ih => simp only [List.map_cons, List.mapM_cons, h, ih]; rfl

theorem nullable_ofOption (h : ∀ x, read (write x) = some x) (hnull : ∀ x, write x ≠ .null)
    (x : Option α) : nullable read (ofOption write x) = some x := by
  cases x with
  | none => rfl
  | some x => rw [ofOption, nullable.eq_2 _ _ (hnull x), h, Option.map_some]

theorem readable_ofList (h : ∀ x, (write x).Readable) (xs : List α) :
    (ofList write xs).Readable :=
  .array (List.forall_mem_map.mpr fun x _ => h x)

theorem readable_ofOption (h : ∀ x, (write x).Readable) (x : Option α) :
    (ofOption write x).Readable := by
  cases x with
  | none => exact .null
  | some x => exact h x

end Parts

@[simp] theorem nullable_text (x : Option String) :
    nullable text? (ofOption string x) = some x := by
  refine nullable_ofOption ?_ ?_ x
  · exact fun _ => rfl
  · exact fun _ h => by cases h

@[simp] theorem nullable_texts (x : Option (List String)) :
    nullable (list? text?) (ofOption (ofList string) x) = some x := by
  refine nullable_ofOption (fun texts => ?_) ?_ x
  · refine list?_ofList ?_ texts
    exact fun _ => rfl
  · exact fun _ h => by cases h

/-- An array can be read if its items can. -/
@[simp] theorem readable_array {items : List Json} :
    (array items).Readable ↔ ∀ x ∈ items, x.Readable :=
  ⟨fun h => by cases h; assumption, .array⟩

/-- An object can be read if the values of its members can. -/
@[simp] theorem readable_object {members : List (String × Json)} :
    (object members).Readable ↔ ∀ m ∈ members, m.2.Readable :=
  ⟨fun h => by cases h; assumption, .object⟩

end QueryFormula.Json
