import QueryFormula.Command.Arguments
import QueryFormula.Command.Request

/-!
# Outcomes of a command

`respond` takes the words of a command line to what is printed and to the exit
code.  All that a command may read stands in `Surroundings`, so that the answer
is a function of it.

A mistake in the command line has the exit code 2, a formula with a problem and
a refused request have 1.
-/

namespace QueryFormula

/-- What a command can read, or why it cannot. -/
structure Surroundings where
  /-- The standard input. -/
  input : Except ReadFault String
  /-- The text of the file at a path. -/
  file : String → Except ReadFault String

/-- What is printed, and the exit code. -/
structure Outcome where
  code : UInt32
  /-- The text on standard output. -/
  output : String
  /-- The text on standard error. -/
  errors : String
deriving DecidableEq, Repr

namespace Outcome

/-- All went well. -/
def success (output : String) : Outcome :=
  ⟨0, output, ""⟩

/-- A line about a problem. -/
def failure (message : String) : Outcome :=
  ⟨1, "", message ++ "\n"⟩

end Outcome

/-- A problem of a formula, with its place where that is known. -/
def Diagnostic.line (d : Diagnostic) : String :=
  match d.span with
  | some span =>
    d.message ++ " (at " ++ String.ofList (Nat.toDigits 10 span.start) ++ ".." ++
      String.ofList (Nat.toDigits 10 span.stop) ++ ")"
  | none => d.message

namespace FormulaArguments

/-- The request that the arguments make.  Without an expression the standard
input is one. -/
def request (a : FormulaArguments) (surroundings : Surroundings) : Except RequestError Request := do
  let expression ←
    match a.expression with
    | some text => pure text
    | none => surroundings.input.mapError .unreadableInput
  pure
    { expression
      mode := a.mode.getD "expression"
      schemaText := a.metadata.map surroundings.file
      stage := a.stage.getD 0
      name := a.name
      index := a.index }

end FormulaArguments

namespace Invocation

/-- The command reads the standard input. -/
def readsInput : Invocation → Bool
  | check a | compile a => a.expression.isNone
  | functions | function _ => false

/-- The file that the command reads. -/
def file? : Invocation → Option String
  | check a | compile a => a.metadata
  | functions | function _ => none

/-- What the command prints on success; a formula with a problem is a success
too, whose outcome tells the problem. -/
def run? (invocation : Invocation) (surroundings : Surroundings) : Except RequestError Outcome :=
  match invocation with
  | check a => do
    let request ← a.request surroundings
    match ← request.check with
    | none => pure (.success "Expression is valid\n")
    | some problem => pure (.failure problem.line)
  | compile a => do
    let request ← a.request surroundings
    let clause ← request.compile
    pure (.success ((if a.pretty then clause.prettyJson else clause.json) ++ "\n"))
  | functions => pure (.success functionList)
  | function name => do pure (.success (← lookUpFunction name))

/-- What the command prints. -/
def run (invocation : Invocation) (surroundings : Surroundings) : Outcome :=
  match invocation.run? surroundings with
  | .ok outcome => outcome
  | .error refusal => .failure refusal.message

end Invocation

/-- The name of the program and its version. -/
def versionLine : String :=
  "cexpr 0.1.0\n"

/-- The commands and their options. -/
def helpText : String :=
  "Check and compile custom expressions into query clauses\n\n" ++
  "Usage: cexpr <COMMAND>\n\n" ++
  "Commands:\n" ++
  "  check [EXPRESSION]    Diagnose an expression\n" ++
  "  compile [EXPRESSION]  Compile an expression to its JSON clause form\n" ++
  "  functions             List available functions\n" ++
  "  function <NAME>       Show details for one function\n\n" ++
  "Options of check and compile:\n" ++
  "  -m, --mode <MODE>     expression, aggregation or boolean\n" ++
  "  --metadata <FILE>     Schema metadata JSON file\n" ++
  "  --stage <STAGE>       Query stage the expression belongs to\n" ++
  "  --name <NAME>         Name of the custom column being edited\n" ++
  "  --index <INDEX>       Index of the expression within its stage\n" ++
  "  -p, --pretty          Pretty-print the output (compile only)\n\n" ++
  "Options:\n" ++
  "  -h, --help            Print help\n" ++
  "  -V, --version         Print version\n"

/-- What is printed where no command is run. -/
def Interruption.outcome : Interruption → Outcome
  | help => .success helpText
  | version => .success versionLine
  | mistake e => ⟨2, "", "error: " ++ e.message ++ "\n"⟩

/-- What is printed for the words of a command line. -/
def respond (surroundings : Surroundings) (words : List String) : Outcome :=
  match Invocation.parse words with
  | .ok invocation => invocation.run surroundings
  | .error interruption => interruption.outcome

end QueryFormula
