/-!
# Spans

A span is a half-open range of byte offsets into the text of an expression.
Errors and tree nodes carry one, so that an editor can underline what it is
about.
-/

namespace QueryFormula

/-- The bytes from `start` up to, and without, `stop`. -/
structure Span where
  start : Nat
  stop : Nat
deriving DecidableEq, Repr

/-- The smallest span around two spans. -/
def Span.cover (a b : Span) : Span :=
  ⟨min a.start b.start, max a.stop b.stop⟩

/-- The smallest span around the spans that are known. -/
def Span.cover? : Option Span → Option Span → Option Span
  | some a, some b => some (a.cover b)
  | some a, none => some a
  | none, b => b

/-- The number of bytes a run of characters takes up. -/
def byteLength : List Char → Nat
  | [] => 0
  | c :: cs => c.utf8Size + byteLength cs

@[simp] theorem byteLength_nil : byteLength [] = 0 := rfl

@[simp] theorem byteLength_cons (c : Char) (cs : List Char) :
    byteLength (c :: cs) = c.utf8Size + byteLength cs := rfl

@[simp] theorem byteLength_append (as bs : List Char) :
    byteLength (as ++ bs) = byteLength as + byteLength bs := by
  induction as with
  | nil => simp
  | cons a as ih => simp [ih, Nat.add_assoc]

end QueryFormula
