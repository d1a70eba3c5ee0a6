import ServiceLoom.Command.Format
import ServiceLoom.Command.Generate
import ServiceLoom.Command.Inspect
import ServiceLoom.CommandLine.Reader

/-!
# The program

A command line is read, then the output format, and then the command is carried out on a file
system. What a command prints ends with a line break.
-/

namespace ServiceLoom

inductive Ending where
  | usage (usage : Usage)
  | unknownFormat (error : Error)
  | aborted (abort : Abort)
  | done (exit : ExitCode) (output : String)
  deriving DecidableEq, Repr

namespace Program

variable {m : Type → Type} [Monad m] [FileSystem m]

def printed (v : Json) (format : OutputFormat) : String := format.render v ++ "\n"

/-- The exit code and the output of a command. No completion script is provided. -/
def perform (format : OutputFormat) : Command → ExceptT Abort m (ExitCode × String)
  | .generate declaration config out dryRun => do
    let summary ← Generate.fromFiles declaration config out dryRun
    return (summary.exitCode, printed summary.toJson format)
  | .inspect declaration config => do
    let services ← Inspect.fromFiles declaration config
    return (.success, printed (Inspect.toJson services) format)
  | .completions _ => return (.success, "")

def run (words : List String) : m Ending := do
  match CommandLine.read words with
  | .error usage => return .usage usage
  | .ok invocation =>
    match OutputFormat.parse invocation.format with
    | .error error => return .unknownFormat error
    | .ok format =>
      match ← (perform format invocation.command).run with
      | .error abort => return .aborted abort
      | .ok (exit, output) => return .done exit output

end Program

end ServiceLoom
