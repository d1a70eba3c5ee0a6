/-!
# Command lines

The commands, their options and operands, and what can be wrong with a command line. The options of
the top are known to every command as well.
-/

namespace ServiceLoom

inductive Shell where
  | bash
  | elvish
  | fish
  | powershell
  | zsh
  deriving DecidableEq, Repr

namespace Shell

def word : Shell → String
  | bash => "bash"
  | elvish => "elvish"
  | fish => "fish"
  | powershell => "powershell"
  | zsh => "zsh"

def ofWord? : String → Option Shell
  | "bash" => some bash
  | "elvish" => some elvish
  | "fish" => some fish
  | "powershell" => some powershell
  | "zsh" => some zsh
  | _ => none

theorem ofWord?_word (shell : Shell) : ofWord? shell.word = some shell := by cases shell <;> rfl

end Shell

inductive Command where
  | generate (declaration : String) (config : Option String) (out : String) (dryRun : Bool)
  | inspect (declaration : String) (config : Option String)
  | completions (shell : Shell)
  deriving DecidableEq, Repr

structure Invocation where
  command : Command
  verbose : Bool
  format : String
  deriving DecidableEq, Repr

inductive Usage where
  | helpAsked
  | versionAsked
  /-- Neither a command nor an option. -/
  | nothingAsked
  | missingCommand
  | unknownCommand
  | missingOperand
  | unknownArgument
  /-- A value that is missing or not allowed. -/
  | invalidValue
  | repeatedOption
  | unexpectedValue
  deriving DecidableEq, Repr

namespace CommandLine

inductive CommandName where
  | generate
  | inspect
  | completions
  deriving DecidableEq, Repr

def CommandName.ofWord? : String → Option CommandName
  | "generate" => some generate
  | "inspect" => some inspect
  | "completions" => some completions
  | _ => none

/-- Where an option stands: before the command, or behind it. -/
inductive Level where
  | top
  | command (name : CommandName)
  deriving DecidableEq, Repr

inductive Key where
  | verbose
  | format
  | config
  | out
  | dryRun
  | help
  | version
  deriving DecidableEq, Repr

namespace Key

def long : Key → String
  | verbose => "verbose"
  | format => "format"
  | config => "config"
  | out => "out"
  | dryRun => "dry-run"
  | help => "help"
  | version => "version"

def short? : Key → Option Char
  | verbose => some 'v'
  | config => some 'c'
  | out => some 'o'
  | help => some 'h'
  | version => some 'V'
  | format | dryRun => none

def takesValue : Key → Bool
  | format | config | out => true
  | verbose | dryRun | help | version => false

/-- A path has to be a text that is not empty; a format may be any text. -/
def allows (value : String) : Key → Bool
  | config | out => value != ""
  | verbose | format | dryRun | help | version => true

end Key

namespace Level

def keys : Level → List Key
  | top => [.verbose, .format, .help, .version]
  | command .generate => [.verbose, .format, .help, .config, .out, .dryRun]
  | command .inspect => [.verbose, .format, .help, .config]
  | command .completions => [.verbose, .format, .help]

def long? (level : Level) (name : String) : Option Key := level.keys.find? (·.long == name)

def short? (level : Level) (c : Char) : Option Key := level.keys.find? (·.short? == some c)

def allowsOperand (operand : String) : Level → Bool
  | top => false
  | command .generate | command .inspect => operand != ""
  | command .completions => (Shell.ofWord? operand).isSome

end Level

end CommandLine

end ServiceLoom
