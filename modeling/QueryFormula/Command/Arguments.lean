/-!
# Command-line arguments

`Invocation.parse` reads the words of a command line: a command, then options
and at most one plain argument.  An option that takes a value may have it
attached (`--mode=x`, `-mx`, `-m=x`) or in the next word, which must not look
like an option itself; one-letter switches may share a word; `--` ends the
options.  No option is given twice.  The first word that decides the outcome
does: a request for help, or a mistake.
-/

namespace QueryFormula

/-- A mistake in a command line. -/
inductive UsageError where
  | missingCommand
  | unknownCommand (word : String)
  | unexpected (word : String)
  | missingValue (option : String)
  | repeated (option : String)
  | invalidValue (option : String) (value : String)
  | missingArgument (name : String)
deriving DecidableEq, Repr

/-- The wording of a mistake. -/
def UsageError.message : UsageError → String
  | missingCommand => "a command is required"
  | unknownCommand word => "unknown command '" ++ word ++ "'"
  | unexpected word => "unexpected argument '" ++ word ++ "'"
  | missingValue option => "a value is required for '--" ++ option ++ "'"
  | repeated option => "'--" ++ option ++ "' is given more than once"
  | invalidValue option value => "invalid value '" ++ value ++ "' for '--" ++ option ++ "'"
  | missingArgument name => "the argument <" ++ name ++ "> is required"

/-- Why no command is run. -/
inductive Interruption where
  | help
  | version
  | mistake (error : UsageError)
deriving DecidableEq, Repr

/-- The options of the commands that take a formula. -/
inductive Flag where
  | mode
  | metadata
  | stage
  | name
  | index
  | pretty
  | help
deriving DecidableEq, Repr

namespace Flag

/-- All options. -/
def all : List Flag :=
  [mode, metadata, stage, name, index, pretty, help]

/-- The word for an option. -/
def long : Flag → String
  | mode => "mode"
  | metadata => "metadata"
  | stage => "stage"
  | name => "name"
  | index => "index"
  | pretty => "pretty"
  | help => "help"

/-- The letter for an option. -/
def short? : Flag → Option Char
  | mode => some 'm'
  | pretty => some 'p'
  | help => some 'h'
  | _ => none

/-- The option is followed by a value. -/
def takesValue : Flag → Bool
  | pretty | help => false
  | _ => true

end Flag

/-- What the options and the plain argument of a command say. -/
structure FormulaArguments where
  expression : Option String
  mode : Option String
  metadata : Option String
  stage : Option Nat
  name : Option String
  index : Option Nat
  pretty : Bool
deriving DecidableEq, Repr

/-- A command. -/
inductive Invocation where
  | check (arguments : FormulaArguments)
  | compile (arguments : FormulaArguments)
  | functions
  | function (name : String)
deriving DecidableEq, Repr

/-- A word that begins like an option.  A lone hyphen does not. -/
def looksLikeOption (word : String) : Bool :=
  match word.toList with
  | '-' :: _ :: _ => true
  | _ => false

/-- A count of 64 bits: digits, perhaps behind a plus sign. -/
def size? (word : String) : Option Nat :=
  let digits := match word.toList with
    | '+' :: rest => rest
    | cs => cs
  let n := Nat.ofDigitChars 10 digits 0
  if digits ≠ [] ∧ digits.all Char.isDigit ∧ n < UInt64.size then some n else none

/-- Stop at a mistake. -/
def stop {α : Type} (e : UsageError) : Except Interruption α :=
  .error (.mistake e)

namespace FormulaArguments

/-- Nothing is said. -/
def empty : FormulaArguments :=
  ⟨none, none, none, none, none, none, false⟩

/-- Set what is not set yet. -/
def fill {α : Type} (flag : Flag) (old : Option α) (value : α) : Except Interruption (Option α) :=
  if old.isSome then stop (.repeated flag.long) else .ok (some value)

/-- Read a count and set what is not set yet. -/
def fillSize (flag : Flag) (old : Option Nat) (word : String) :
    Except Interruption (Option Nat) :=
  match size? word with
  | some n => fill flag old n
  | none => stop (.invalidValue flag.long word)

/-- Take in the value of an option. -/
def setValue (a : FormulaArguments) (flag : Flag) (word : String) :
    Except Interruption FormulaArguments :=
  match flag with
  | .mode => do pure { a with mode := ← fill flag a.mode word }
  | .metadata =>
    if word = "" then stop (.invalidValue flag.long word)
    else do pure { a with metadata := ← fill flag a.metadata word }
  | .stage => do pure { a with stage := ← fillSize flag a.stage word }
  | .name => do pure { a with name := ← fill flag a.name word }
  | .index => do pure { a with index := ← fillSize flag a.index word }
  | .pretty | .help => stop (.unexpected word)

/-- Take in an option without a value. -/
def setSwitch (a : FormulaArguments) (flag : Flag) : Except Interruption FormulaArguments :=
  match flag with
  | .help => .error .help
  | .pretty => if a.pretty then stop (.repeated flag.long) else .ok { a with pretty := true }
  | _ => stop (.missingValue flag.long)

/-- Take in the plain argument. -/
def setExpression (a : FormulaArguments) (word : String) : Except Interruption FormulaArguments :=
  if a.expression.isSome then stop (.unexpected word) else .ok { a with expression := some word }

/-- Take in one-letter options that share a word.  The value of an option is the
rest of the word, or is still wanted if that is empty. -/
def setShort (flags : List Flag) (a : FormulaArguments) :
    List Char → Except Interruption (FormulaArguments × Option Flag)
  | [] => .ok (a, none)
  | c :: rest =>
    match flags.find? (·.short? == some c) with
    | none => stop (.unexpected (String.ofList ['-', c]))
    | some flag =>
      if flag.takesValue then
        match rest with
        | [] => .ok (a, some flag)
        | '=' :: value => do pure (← a.setValue flag (String.ofList value), none)
        | value => do pure (← a.setValue flag (String.ofList value), none)
      else do
        let a ← a.setSwitch flag
        setShort flags a rest

/-- Take in a long option, with its value if that is attached, or tell that it
is still wanted. -/
def setLong (flags : List Flag) (a : FormulaArguments) (word : List Char) :
    Except Interruption (FormulaArguments × Option Flag) :=
  let key := String.ofList (word.takeWhile (· ≠ '='))
  match flags.find? (·.long == key), word.dropWhile (· ≠ '=') with
  | none, _ => stop (.unexpected ("--" ++ key))
  | some flag, [] =>
    if flag.takesValue then .ok (a, some flag) else do pure (← a.setSwitch flag, none)
  | some flag, _ :: value => do
    if flag.takesValue then pure (← a.setValue flag (String.ofList value), none)
    else stop (.unexpected ("--" ++ key))

/-- Take in plain arguments only. -/
def readPlain (a : FormulaArguments) : List String → Except Interruption FormulaArguments
  | [] => .ok a
  | word :: rest => do
    let a ← a.setExpression word
    readPlain a rest

/-- Take in one word; the option whose value is still wanted, if one is. -/
def readWord (flags : List Flag) (a : FormulaArguments) (word : String) :
    Except Interruption (FormulaArguments × Option Flag) :=
  match word.toList with
  | '-' :: '-' :: long => setLong flags a long
  | '-' :: c :: short => setShort flags a (c :: short)
  | _ => do pure (← a.setExpression word, none)

/-- Take in the words of a command; `pending` is an option that waits for its
value. -/
def read (flags : List Flag) (a : FormulaArguments) (pending : Option Flag) :
    List String → Except Interruption FormulaArguments
  | [] =>
    match pending with
    | some flag => stop (.missingValue flag.long)
    | none => .ok a
  | word :: rest =>
    match pending with
    | some flag =>
      if looksLikeOption word then stop (.missingValue flag.long)
      else do
        let a ← a.setValue flag word
        read flags a none rest
    | none =>
      if word = "--" then readPlain a rest
      else do
        let (a, pending) ← readWord flags a word
        read flags a pending rest

end FormulaArguments

/-- At most `limit` plain words, and no option but the one for help. -/
def plainWords (limit : Nat) (found : List String) : List String → Except Interruption (List String)
  | [] => .ok found
  | word :: rest =>
    if word = "--" then
      match rest.drop (limit - found.length) with
      | [] => .ok (found ++ rest)
      | extra :: _ => stop (.unexpected extra)
    else if word = "--help" || word.toList.take 2 = ['-', 'h'] then .error .help
    else if looksLikeOption word || limit ≤ found.length then stop (.unexpected word)
    else plainWords limit (found ++ [word]) rest

namespace Invocation

/-- The names of the commands. -/
def commands : List String :=
  ["check", "compile", "functions", "function", "help"]

/-- Read a command line. -/
def parse : List String → Except Interruption Invocation
  | [] => stop .missingCommand
  | "check" :: words => do
    pure (.check (← FormulaArguments.empty.read (Flag.all.filter (· ≠ .pretty)) none words))
  | "compile" :: words => do pure (.compile (← FormulaArguments.empty.read Flag.all none words))
  | "functions" :: words => do
    let _ ← plainWords 0 [] words
    pure .functions
  | "function" :: words => do
    match ← plainWords 1 [] words with
    | [] => stop (.missingArgument "NAME")
    | name :: _ => pure (.function name)
  | ["help"] => .error .help
  | ["help", command] =>
    if commands.contains command then .error .help else stop (.unknownCommand command)
  | word :: _ =>
    match word.toList with
    | ['-', '-', 'h', 'e', 'l', 'p'] => .error .help
    | ['-', '-', 'v', 'e', 'r', 's', 'i', 'o', 'n'] => .error .version
    | '-' :: 'h' :: _ => .error .help
    | '-' :: 'V' :: _ => .error .version
    | _ => if looksLikeOption word then stop (.unexpected word) else stop (.unknownCommand word)

end Invocation

end QueryFormula
