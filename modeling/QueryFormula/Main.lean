import QueryFormula.Command.Outcome

/-!
# The command line

Reads what the command wants to read, prints what `respond` answers and exits
with its code.
-/

namespace QueryFormula

/-- The text of some bytes. -/
def textOf (bytes : ByteArray) : Except ReadFault String :=
  match String.fromUTF8? bytes with
  | some text => .ok text
  | none => .error .notText

/-- The fault that an error of the system is. -/
def faultOf : IO.Error → ReadFault
  | .noFileOrDirectory .. => .missing
  | .permissionDenied .. => .forbidden
  | .inappropriateType .. => .directory
  | error => .other (toString error)

/-- The text that an action reads. -/
def readWith (action : IO ByteArray) : IO (Except ReadFault String) := do
  match ← action.toBaseIO with
  | .ok bytes => pure (textOf bytes)
  | .error error => pure (.error (faultOf error))

/-- What the words of a command line may make it read. -/
def surroundingsOf (words : List String) : IO Surroundings := do
  match Invocation.parse words with
  | .error _ => pure ⟨.ok "", fun _ => .error .missing⟩
  | .ok invocation =>
    let input ←
      if invocation.readsInput then readWith (do (← IO.getStdin).readBinToEnd) else pure (.ok "")
    let file ← invocation.file?.mapM fun path => readWith (IO.FS.readBinFile path)
    pure ⟨input, fun _ => file.getD (.error .missing)⟩

end QueryFormula

open QueryFormula in
/-- Answer a command line. -/
def main (words : List String) : IO UInt32 := do
  let outcome := respond (← surroundingsOf words) words
  (← IO.getStdout).putStr outcome.output
  (← IO.getStderr).putStr outcome.errors
  pure outcome.code
