import QueryFormula.Expr.Json
import QueryFormula.Proofs.Binary.Shortest
import QueryFormula.Proofs.Decimal.Finite
import QueryFormula.Proofs.Json.Record

/-!
# Doubles as numbers

The digits of a double are set around a point or in front of an exponent, and both are texts of
numbers (`isNumber_positional`, `isNumber_scientific`).  So a double can be read from its text, and so
can a decimal, which is finite as a double.
-/

namespace QueryFormula

namespace DigitString

variable {d : DigitString} (h : d.Normal)
include h

/-- The digits in front of the point, with the zeros that stand for missing ones. -/
theorem Normal.isWhole_take :
    Json.IsWhole (d.digits.take (d.exponent.toNat + 1) ++
      List.replicate (d.exponent.toNat + 1 - d.digits.length) '0') := by
  cases hdigits : d.digits with
  | nil => exact absurd hdigits h.whole.any
  | cons first others =>
      have hall := h.whole.digits
      rw [hdigits] at hall
      rw [List.take_succ_cons, List.cons_append]
      refine ⟨List.cons_ne_nil _ _, fun c hc => ?_, fun more hmore => ?_⟩
      · rcases List.mem_cons.mp hc with rfl | hc
        · exact hall _ List.mem_cons_self
        · rcases List.mem_append.mp hc with hc | hc
          · exact hall _ (List.mem_cons_of_mem _ (List.mem_of_mem_take hc))
          · rw [(List.mem_replicate.mp hc).2]
            rfl
      · cases hmore
        -- a leading zero is the only digit, and its place is in front of the point
        have hothers : others = [] := h.whole.zero others hdigits
        have hplace : d.exponent = 0 := h.zero (by rw [hdigits, hothers])
        rw [hothers, hplace]
        rfl

/-- **Digits around a point** are a number, also behind a minus. -/
theorem Normal.isNumber_positional (keepsPoint : Bool) :
    Json.IsNumber (d.positional keepsPoint) ∧ Json.IsNumber ('-' :: d.positional keepsPoint) := by
  unfold positional
  split
  · have hfraction : Json.IsFraction
        ('.' :: (List.replicate (-d.exponent - 1).toNat '0' ++ d.digits)) := by
      refine .inr ⟨_, rfl, List.append_ne_nil_of_right_ne_nil _ h.whole.any, fun c hc => ?_⟩
      rcases List.mem_append.mp hc with hc | hc
      · rw [(List.mem_replicate.mp hc).2]
        rfl
      · exact h.whole.digits c hc
    have hnumber := Json.isNumber_of_parts normal_zero.whole hfraction (.inl rfl)
    rwa [List.append_nil] at hnumber
  · have hwhole := h.isWhole_take
    dsimp only
    generalize hback : d.digits.drop (d.exponent.toNat + 1) = back
    cases back with
    | nil =>
        cases keepsPoint with
        | false =>
            have hnumber := Json.isNumber_of_parts hwhole (.inl rfl) (.inl rfl)
            rwa [List.append_nil, List.append_nil] at hnumber
        | true =>
            have hpoint : Json.IsFraction ['.', '0'] :=
              .inr ⟨['0'], rfl, List.cons_ne_nil _ _, List.forall_mem_singleton.mpr rfl⟩
            exact Json.isNumber_of_parts hwhole hpoint (.inl rfl)
    | cons c more =>
        have hfraction : Json.IsFraction ('.' :: c :: more) := by
          refine .inr ⟨_, rfl, List.cons_ne_nil _ _, fun e he => ?_⟩
          exact h.whole.digits e (List.mem_of_mem_drop (hback ▸ he))
        have hnumber := Json.isNumber_of_parts hwhole hfraction (.inl rfl)
        rwa [List.append_nil] at hnumber

/-- **Digits in front of an exponent** are a number, also behind a minus. -/
theorem Normal.isNumber_scientific :
    Json.IsNumber d.scientific ∧ Json.IsNumber ('-' :: d.scientific) := by
  have hwhole : Json.IsWhole (d.digits.take 1) := by
    cases hdigits : d.digits with
    | nil => exact absurd hdigits h.whole.any
    | cons first others =>
        refine ⟨List.cons_ne_nil _ _, fun c hc => ?_, fun _ hmore => ?_⟩
        · exact h.whole.digits c (hdigits ▸ List.mem_of_mem_take hc)
        · exact (List.cons_eq_cons.mp hmore).2.symm
  have hfraction : Json.IsFraction
      (if d.digits.drop 1 = [] then [] else '.' :: d.digits.drop 1) := by
    split
    · exact .inl rfl
    · rename_i hany
      exact .inr ⟨_, rfl, hany, fun c hc => h.whole.digits c (List.mem_of_mem_drop hc)⟩
  have hexponent : Json.IsExponent ('e' :: (if d.exponent < 0 then '-' else '+') ::
      Nat.toDigits 10 d.exponent.natAbs) := by
    refine .inr ⟨_, _, rfl, ?_, Nat.toDigits_ne_nil, (Json.isWhole_toDigits _).digits⟩
    split
    · exact .inr rfl
    · exact .inl rfl
  have hnumber := Json.isNumber_of_parts hwhole hfraction hexponent
  rwa [← List.append_assoc] at hnumber

end DigitString

/-- The text of a finite double is a number. -/
theorem FloatLayout.isNumber_write? {layout : FloatLayout} {x : Double} {text : List Char}
    (h : layout.write? x = some text) : Json.IsNumber text := by
  obtain ⟨parts, -, rfl⟩ := Option.map_eq_some_iff.mp h
  have hdigits := parts.normal_shortest layout.tie
  dsimp only
  split
  · split
    · exact (hdigits.isNumber_positional _).2
    · exact hdigits.isNumber_scientific.2
  · split
    · exact (hdigits.isNumber_positional _).1
    · exact hdigits.isNumber_scientific.1

namespace Json

theorem readable_of_finite? {x : Double} {value : Json} (h : finite? x = some value) :
    value.Readable := by
  obtain ⟨text, htext, rfl⟩ := Option.map_eq_some_iff.mp h
  exact .number (by rw [String.toList_ofList]; exact FloatLayout.isNumber_write? htext)

/-- A finite double is written as a number. -/
theorem exists_finite? {x : Double} (h : x.isFinite = true) :
    ∃ text, finite? x = some (.number text) := by
  rw [← BinaryParts.isSome_ofDouble?, Option.isSome_iff_exists] at h
  obtain ⟨parts, hparts⟩ := h
  rw [finite?, FloatLayout.write?, hparts]
  exact ⟨_, rfl⟩

/-- **A double** can be read from its text. -/
theorem readable_ofDouble (x : Double) : (ofDouble x).Readable := by
  unfold ofDouble
  cases hx : finite? x with
  | none => exact .null
  | some value => exact readable_of_finite? hx

/-- **A decimal is a number,** since it is finite as a double. -/
theorem exists_number_ofDecimal (x : Decimal) :
    ∃ text, ofDecimal x = .number text ∧ (ofDecimal x).Readable := by
  unfold ofDecimal
  split
  · exact ⟨_, rfl, readable_ofInt _⟩
  · obtain ⟨text, htext⟩ := exists_finite? x.normalize.isFinite_toDouble
    rw [htext, Option.getD_some]
    exact ⟨text, rfl, readable_of_finite? htext⟩

end Json

end QueryFormula
