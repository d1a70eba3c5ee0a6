import ServiceLoom.Program

/-!
# The executable

The program on the files of the machine. Nothing is decided here: an operation that throws did not
work, and an ending is printed as it is.
-/

namespace ServiceLoom.Machine

def succeeds (action : IO Unit) : IO Bool := do
  try
    action
    return true
  catch _ => return false

instance : FileSystem IO where
  present path := succeeds (discard (IO.FS.realPath path))
  readText path := do
    try return some (← IO.FS.readFile path)
    catch _ => return none
  createDirs path := if path = "" then return true else succeeds (IO.FS.createDirAll path)
  writeText path content := succeeds (IO.FS.writeFile path content)
  appendText path content := do
    let handle? ← try some <$> IO.FS.Handle.mk path .append catch _ => pure none
    match handle? with
    | none => return .notOpened
    | some handle =>
      if ← succeeds (do handle.putStr content; handle.flush) then return .done
      else return .notWritten

def usageText : Usage → String
  | .helpAsked | .nothingAsked =>
    "usage: serviceloom [-v] [--format json|text|pretty] generate|inspect|completions|help ..."
  | .versionAsked => "serviceloom"
  | .missingCommand => "a command is required"
  | .unknownCommand => "unrecognized command"
  | .missingOperand => "a required argument is missing"
  | .unknownArgument => "unexpected argument"
  | .invalidValue => "invalid or missing value"
  | .repeatedOption => "an option is given twice"
  | .unexpectedValue => "a value is given to an option that takes none"

def isAnswer : Usage → Bool
  | .helpAsked | .versionAsked => true
  | _ => false

def causeText (c : Cause) : String :=
  c.message?.getD (match c with
    | .json => "not a declaration in JSON"
    | _ => "the file system refused")

/-- Print an ending; the result is the exit code. -/
def report : Ending → IO UInt32
  | .usage usage => do
    if isAnswer usage then
      IO.println (usageText usage)
      return 0
    else
      IO.eprintln s!"error: {usageText usage}"
      return 2
  | .unknownFormat error => do
    IO.eprintln s!"Error: {error.message}"
    return ExitCode.failure.code.toUInt32
  | .aborted abort => do
    let account := abort.activities.map Activity.message ++ [causeText abort.cause]
    IO.eprintln ("Error: " ++ String.intercalate ": " account)
    return ExitCode.failure.code.toUInt32
  | .done exit output => do
    IO.print output
    return exit.code.toUInt32

end ServiceLoom.Machine

def main (args : List String) : IO UInt32 := do
  let ending ← (ServiceLoom.Program.run args : IO ServiceLoom.Ending)
  ServiceLoom.Machine.report ending
