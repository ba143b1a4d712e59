/-!
# What a reading function leaves

A function that reads a value off the front of a list says with `Parsed` that it
leaves fewer items than it was given.  Loops over such functions end for that
reason.
-/

namespace QueryFormula

/-- A value read off a list of `bound` items, and the items left. -/
structure Parsed (ι α : Type) (bound : Nat) where
  value : α
  rest : List ι
  shorter : rest.length < bound

namespace Parsed

variable {ι α β : Type} {bound bound' : Nat}

/-- The same outcome, seen from a longer list. -/
def widen (p : Parsed ι α bound) (h : bound ≤ bound') : Parsed ι α bound' :=
  ⟨p.value, p.rest, Nat.lt_of_lt_of_le p.shorter h⟩

/-- The same items left behind another value. -/
def map (f : α → β) (p : Parsed ι α bound) : Parsed ι β bound :=
  ⟨f p.value, p.rest, p.shorter⟩

@[simp] theorem widen_value (p : Parsed ι α bound) (h : bound ≤ bound') :
    (p.widen h).value = p.value := rfl

@[simp] theorem widen_rest (p : Parsed ι α bound) (h : bound ≤ bound') :
    (p.widen h).rest = p.rest := rfl

@[simp] theorem map_value (f : α → β) (p : Parsed ι α bound) :
    (p.map f).value = f p.value := rfl

@[simp] theorem map_rest (f : α → β) (p : Parsed ι α bound) : (p.map f).rest = p.rest := rfl

/-- What stands behind the next item is shorter as well. -/
theorem rest_length_lt {p : Parsed ι α bound} {item : ι} {rest : List ι}
    (h : p.rest = item :: rest) : rest.length < bound := by
  have hp := p.shorter
  rw [h, List.length_cons] at hp
  exact Nat.lt_of_succ_lt hp

end Parsed

end QueryFormula
