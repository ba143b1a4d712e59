import QueryFormula.Catalog.Signature

/-!
# The function reference

The catalog in words: how a function is called, the entry for one function, and
the list of all of them by what they return.
-/

namespace QueryFormula

namespace Signature

/-- Users call the clause by its name.  The logical keywords and the wrapper of
literals are not called. -/
def isCallable (s : Signature) : Bool :=
  s.isNamed && s.name ∉ ["and", "or", "not", "value"]

/-- The arguments in words; dots stand for any number of further ones. -/
def argumentWords (s : Signature) : List String :=
  s.parameters.map ValueType.name ++ if s.variadic then ["..."] else []

/-- How the function is called, such as `Sum(number)`. -/
def usage (s : Signature) : String :=
  s.displayName ++ "(" ++ ", ".intercalate s.argumentWords ++
    (if s.takesOptions then " [, options]" else "") ++ ")"

/-- The entry of the function in the reference. -/
def entry (s : Signature) : String :=
  s.usage ++ "\n\n  clause:   " ++ s.name ++ "\n  returns:  " ++ s.kind.name ++ "\n" ++
    match s.feature? with
    | some feature => "  requires: database feature '" ++ feature ++ "'\n"
    | none => ""

/-- The section that lists the function.  What takes the type of its context is
listed with the aggregations. -/
def listedUnder (s : Signature) : ValueType :=
  if s.kind = .any then .aggregation else s.kind

end Signature

/-- The sections of the list, in their order. -/
def referenceSections : List (String × ValueType) := [
  ("AGGREGATIONS", .aggregation),
  ("STRINGS", .string),
  ("NUMBERS", .number),
  ("DATES", .datetime),
  ("FILTERS", .boolean),
  ("CONDITIONALS", .expression) ]

/-- One section of the list. -/
def sectionText (title : String) (kind : ValueType) : String :=
  let listed := catalog.filter fun s => s.isCallable && s.listedUnder == kind
  "\n" ++ title ++ "\n\n" ++ String.join (listed.map fun s => "  " ++ s.usage ++ "\n")

/-- The list of all functions. -/
def functionList : String :=
  "CUSTOM EXPRESSION FUNCTIONS\n" ++
    String.join (referenceSections.map fun (title, kind) => sectionText title kind) ++
    "\nOPERATORS\n\n  + - * /  = != < <= > >=  AND OR NOT\n" ++
    "\nRun 'cexpr function <name>' for details on one function.\n"

/-- The entry for the function that a user names. -/
def functionEntry? (name : String) : Option String :=
  (functionNamed? name).map Signature.entry

end QueryFormula
