import QueryFormula.Catalog.Signature
import QueryFormula.Proofs.Text.LetterCase

/-!
# Facts about the catalog

A clause that `signature?` finds is a row of the catalog, so what is true of all
rows is true of it.  The rows that the steps of the normal form single out are
few and of different kinds: `offset`, the conditionals, and the clauses with
options, most of which (`isSearch`) take any number of values.
-/

namespace QueryFormula

/-- What is found under a name is a row of that name. -/
theorem mem_catalog_of_signature? {op : String} {s : Signature} (h : signature? op = some s) :
    s ∈ catalog ∧ s.name = op :=
  ⟨List.mem_of_find?_eq_some h, by simpa using List.find?_some h⟩

/-- What is true of every row is true of what is found. -/
theorem of_signature? {P : Signature → Prop} (hall : ∀ s ∈ catalog, P s) {op : String}
    {s : Signature} (h : signature? op = some s) : P s :=
  hall s (mem_catalog_of_signature? h).1

/-- The case of letters does not count in the names of functions. -/
theorem clauseNamed?_sameLetters {name name' : String}
    (h : SameLetters name.toList name'.toList) : clauseNamed? name' = clauseNamed? name := by
  have hkey : (trim name').map Char.toLower = (trim name).map Char.toLower := by
    apply String.toList_injective
    simp only [trim, String.toList_map, String.toList_ofList]
    exact h.trimChars.symm
  rw [clauseNamed?, clauseNamed?, hkey]

/-- A declared type is one of the parameters. -/
theorem mem_parameters_of_parameter? {s : Signature} {position : Nat} {declared : ValueType}
    (h : s.parameter? position = some declared) : declared ∈ s.parameters := by
  unfold Signature.parameter? at h
  split at h
  · rename_i hposition
    cases h
    exact List.mem_of_getElem? hposition
  · split at h
    · exact List.mem_of_getLast? h
    · cases h

/-- The clause takes any number of values, and options. -/
def isSearch (op : String) : Bool :=
  (signature? op).any fun s => s.variadic && s.takesOptions

theorem isConditional_iff {op : String} : isConditional op = true ↔ op = "case" ∨ op = "if" := by
  simp [isConditional]

theorem isSearch_offset : isSearch "offset" = false :=
  rfl

theorem isSearch_of_isConditional {op : String} (h : isConditional op = true) :
    isSearch op = false := by
  rcases isConditional_iff.mp h with rfl | rfl <;> rfl

/-- Clauses with options are none of those that other steps are about. -/
theorem name_of_takesOptions {op : String} {s : Signature} (h : signature? op = some s)
    (hoptions : s.takesOptions = true) :
    op ≠ "not" ∧ op ≠ "offset" ∧ isConditional op = false := by
  have hname := (mem_catalog_of_signature? h).2
  have hrows : ∀ s ∈ catalog, s.takesOptions = true →
      s.name ≠ "not" ∧ s.name ≠ "offset" ∧ isConditional s.name = false := by
    decide
  rw [← hname]
  exact of_signature? hrows h hoptions

/-- A clause with options and any number of values declares two arguments. -/
theorem two_parameters_of_isSearch {op : String} {s : Signature} (h : signature? op = some s)
    (hsearch : isSearch op = true) : s.parameters.length = 2 := by
  have hrows : ∀ s ∈ catalog, (s.variadic && s.takesOptions) = true →
      s.parameters.length = 2 := by
    decide
  rw [isSearch, h] at hsearch
  exact of_signature? hrows h hsearch

end QueryFormula
