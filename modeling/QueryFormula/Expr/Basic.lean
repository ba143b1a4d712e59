import QueryFormula.Literal
import QueryFormula.Span

/-!
# Expression trees

An `Expr` is a literal, a name, a name bound to the schema, or a clause: an
operator with its operands.  Two more shapes stand among the operands of some
clauses: an object of options, and the grouped tests and values of a
conditional.

Every node remembers the span of the source it was read from, if it was read
from one.  `Expr.sameTree` compares trees without regard to those origins.

Functions on trees come with companions for the three kinds of lists below a
node: operands, entries of an options object, and pairs.
-/

namespace QueryFormula

/-- What a name may refer to. -/
inductive NameKind where
  /-- A column of the query stage. -/
  | dimension
  /-- A saved, aggregated measure. -/
  | metric
  /-- A saved filter. -/
  | segment
deriving DecidableEq, Repr

/-- The word for a kind of reference. -/
def NameKind.name : NameKind → String
  | dimension => "dimension"
  | metric => "metric"
  | segment => "segment"

/-- What a name was found to mean in a schema. -/
inductive BoundRef where
  /-- A column of a table. -/
  | field (id : Int64) (baseType : String)
  /-- A custom column of the same stage. -/
  | expression (name : String) (baseType : String)
  | metric (id : Int64)
  | segment (id : Int64)
deriving DecidableEq

namespace BoundRef

/-- The type of the values of a column. -/
def baseType? : BoundRef → Option String
  | field _ baseType | expression _ baseType => some baseType
  | metric _ | segment _ => none

/-- The target is a column of truth values. -/
def isBoolean (target : BoundRef) : Bool :=
  target.baseType? == some "type/Boolean"

/-- The target is a saved filter. -/
def isSegment : BoundRef → Bool
  | segment _ => true
  | _ => false

end BoundRef

/-- A node of an expression tree, with the span it was read from. -/
inductive Expr where
  | literal (value : Literal) (origin : Option Span)
  /-- A name that is not bound yet. -/
  | reference (kind : NameKind) (name : String) (origin : Option Span)
  /-- A name bound to the schema. -/
  | bound (target : BoundRef) (origin : Option Span)
  /-- An operator followed by its operands. -/
  | clause (operator : String) (operands : List Expr) (origin : Option Span)
  /-- Named modifiers of a clause, in increasing order of their keys. -/
  | options (entries : List (String × Expr)) (origin : Option Span)
  /-- The tests of a conditional, each with its value. -/
  | pairs (cases : List (Expr × Expr)) (origin : Option Span)

namespace Expr

/-- The span the node was read from. -/
def origin : Expr → Option Span
  | literal _ o | reference _ _ o | bound _ o | clause _ _ o | options _ o | pairs _ o => o

/-- The node with another origin. -/
def setOrigin : Expr → Option Span → Expr
  | literal v _, o => literal v o
  | reference k n _, o => reference k n o
  | bound t _, o => bound t o
  | clause f xs _, o => clause f xs o
  | options es _, o => options es o
  | pairs ps _, o => pairs ps o

/-- A node without an origin adopts this one. -/
def adoptOrigin (e : Expr) (o : Option Span) : Expr :=
  match e.origin with
  | some _ => e
  | none => e.setOrigin o

/-- The node is a literal. -/
def isLiteral : Expr → Bool
  | literal _ _ => true
  | _ => false

/-- The node is an options object. -/
def isOptions : Expr → Bool
  | options _ _ => true
  | _ => false

/-- The node holds the grouped cases of a conditional. -/
def isPairs : Expr → Bool
  | pairs _ _ => true
  | _ => false

/-- The operator of a clause. -/
def operator? : Expr → Option String
  | clause f _ _ => some f
  | _ => none

/-- A truth value that no source spells out. -/
def ofBool (b : Bool) : Expr :=
  literal (.boolean b) none

/-- Set the value under a key, in increasing order of the keys. -/
def setEntry (key : String) (value : Expr) : List (String × Expr) → List (String × Expr)
  | [] => [(key, value)]
  | (k, v) :: rest =>
    if key < k then (key, value) :: (k, v) :: rest
    else if key = k then (key, value) :: rest
    else (k, v) :: setEntry key value rest

/-- The options object with these entries; of two with one key the later holds. -/
def ofEntries (entries : List (String × Expr)) (origin : Option Span) : Expr :=
  options (entries.foldl (fun sorted entry => setEntry entry.1 entry.2 sorted) []) origin

mutual

/-- Equality of trees: origins do not count, numbers compare by value. -/
def sameTree (e e' : Expr) : Bool :=
  match e, e' with
  | literal v _, literal w _ => v.sameValue w
  | reference k m _, reference l n _ => k == l && m == n
  | bound s _, bound t _ => s == t
  | clause f xs _, clause g ys _ => f == g && sameTrees xs ys
  | options es _, options fs _ => sameEntries es fs
  | pairs ps _, pairs qs _ => samePairs ps qs
  | _, _ => false
termination_by structural e

/-- Equality of operands. -/
def sameTrees (xs ys : List Expr) : Bool :=
  match xs, ys with
  | [], [] => true
  | x :: xs, y :: ys => sameTree x y && sameTrees xs ys
  | _, _ => false
termination_by structural xs

/-- Equality of the entries of options objects. -/
def sameEntries (es fs : List (String × Expr)) : Bool :=
  match es, fs with
  | [], [] => true
  | (k, v) :: es, (l, w) :: fs => k == l && sameTree v w && sameEntries es fs
  | _, _ => false
termination_by structural es

/-- Equality of grouped cases. -/
def samePairs (ps qs : List (Expr × Expr)) : Bool :=
  match ps, qs with
  | [], [] => true
  | (s, v) :: ps, (t, w) :: qs => sameTree s t && sameTree v w && samePairs ps qs
  | _, _ => false
termination_by structural ps

end

@[simp] theorem origin_setOrigin (e : Expr) (o : Option Span) : (e.setOrigin o).origin = o := by
  cases e <;> rfl

end Expr

end QueryFormula
