import QueryFormula.Catalog.Listing
import QueryFormula.Diagnosis.Diagnose
import QueryFormula.Expr.Json
import QueryFormula.Schema.Json

/-!
# Requests

What the command line can be asked to do with a formula: check it as an editor
would, or compile it to JSON.  The mode is looked at before the schema, and both
before the formula.
-/

namespace QueryFormula

/-- Why a text cannot be read. -/
inductive ReadFault where
  | missing
  | forbidden
  | directory
  /-- The bytes are no UTF-8. -/
  | notText
  | other (reason : String)
deriving DecidableEq, Repr

/-- The wording of a fault, with the system's number for it. -/
def ReadFault.message : ReadFault → String
  | missing => "No such file or directory (os error 2)"
  | forbidden => "Permission denied (os error 13)"
  | directory => "Is a directory (os error 21)"
  | notText => "stream did not contain valid UTF-8"
  | other reason => reason

/-- A formula to check or to compile, as given by a user. -/
structure Request where
  expression : String
  /-- The name of a mode; empty for the usual one. -/
  mode : String
  /-- The text of the schema, or why it cannot be read. -/
  schemaText : Option (Except ReadFault String)
  stage : Nat
  name : Option String
  index : Option Nat

/-- Why a request is refused. -/
inductive RequestError where
  | compile (error : CompileError)
  | unreadableSchema (fault : ReadFault)
  | invalidSchema
  /-- A mode that is none, in lower case. -/
  | unknownMode (name : String)
  | unknownFunction (name : String)
  | unreadableInput (fault : ReadFault)

/-- The wording of a refusal. -/
def RequestError.message : RequestError → String
  | compile e => e.message
  | unreadableSchema fault => "cannot read metadata: " ++ fault.message
  | invalidSchema => "invalid metadata"
  | unknownMode name => "Invalid mode: " ++ Mode.unknownMessage name
  | unknownFunction name =>
    "Unknown function: '" ++ name ++ "'\nRun 'cexpr functions' to see available functions."
  | unreadableInput fault => "IO error: " ++ fault.message

/-- The features of the database, if the schema lists them. -/
def Context.features {σ : Type} [Lookup σ] (context : Context σ) : Option (List String) :=
  context.schema.bind Lookup.features

namespace Request

/-- The mode of a request. -/
def mode? (request : Request) : Except RequestError Mode :=
  if request.mode = "" then .ok .expression
  else (Mode.ofName request.mode).mapError .unknownMode

/-- The schema of a request. -/
def schema? (request : Request) : Except RequestError (Option Schema) :=
  match request.schemaText with
  | none => .ok none
  | some (.error fault) => .error (.unreadableSchema fault)
  | some (.ok text) =>
    match Schema.ofText? text with
    | some schema => .ok (some schema)
    | none => .error .invalidSchema

/-- The context of a request. -/
def context (request : Request) : Except RequestError Context := do
  let mode ← request.mode?
  let schema ← request.schema?
  pure ⟨mode, request.stage, request.name, schema⟩

/-- The formula without the blanks around it. -/
def source (request : Request) : String :=
  trim request.expression

/-- The first problem of the formula, if it has one. -/
def check (request : Request) : Except RequestError (Option Diagnostic) := do
  let context ← request.context
  let draft : Draft := ⟨request.source, context, request.index⟩
  pure (draft.diagnose (some (Validator.ofFeatures context.features)))

/-- The clause tree of the formula. -/
def compile (request : Request) : Except RequestError Expr := do
  let context ← request.context
  (QueryFormula.compile context request.source).mapError .compile

end Request

/-- The entry of a function in the list. -/
def lookUpFunction (name : String) : Except RequestError String :=
  match functionEntry? name with
  | some text => .ok text
  | none => .error (.unknownFunction name)

end QueryFormula
