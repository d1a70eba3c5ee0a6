import ServiceLoom.CommandLine.Basic

/-!
# Reading command lines

Words are read from left to right. A word after an option that takes a value is that value, unless
it starts with `-` and is more than that; after `--` every word is an operand. A value or operand
counts only when the next known option, operand or the end settles it, so a word that is not known
is reported before a fault in the value before it.
-/

namespace ServiceLoom.CommandLine

inductive Pending where
  | option (key : Key) (value : Option String)
  | operand (text : String)
  deriving DecidableEq, Repr

structure Scan where
  /-- Settled options with their values; an option that takes none has the empty one. -/
  given : List (Key × String) := []
  operand : Option String := none
  pending : Option Pending := none
  full : Bool := false
  deriving DecidableEq, Repr

namespace Scan

def value? (s : Scan) (key : Key) : Option String := s.given.lookup key

def has (s : Scan) (key : Key) : Bool := (s.value? key).isSome

def awaits (s : Scan) : Bool :=
  match s.pending with
  | some (.option _ none) => true
  | _ => false

def give (s : Scan) (key : Key) (value : String) : Except Usage Scan :=
  if s.has key then .error .repeatedOption
  else if key.allows value then .ok { s with given := s.given ++ [(key, value)] }
  else .error .invalidValue

def settle (level : Level) (s : Scan) : Except Usage Scan :=
  match s.pending with
  | none => .ok s
  | some (.option _ none) => .error .invalidValue
  | some (.option key (some value)) => give { s with pending := none } key value
  | some (.operand text) =>
    if level.allowsOperand text then .ok { s with operand := some text, pending := none }
    else .error .invalidValue

def attach (level : Level) (s : Scan) (key : Key) (value : String) : Except Usage Scan := do
  (← s.settle level).give key value

def await (level : Level) (s : Scan) (key : Key) : Except Usage Scan := do
  return { ← s.settle level with pending := some (.option key none) }

def receive (s : Scan) (value : String) : Scan :=
  match s.pending with
  | some (.option key none) => { s with pending := some (.option key (some value)) }
  | _ => s

def turnOn (level : Level) (s : Scan) (key : Key) : Except Usage Scan := do
  let s ← s.settle level
  match key with
  | .help => throw .helpAsked
  | .version => throw .versionAsked
  | _ => s.give key ""

def readLong (level : Level) (s : Scan) (word : List Char) : Except Usage Scan :=
  match level.long? (String.ofList (word.takeWhile (· != '='))) with
  | none => .error .unknownArgument
  | some key =>
    match word.dropWhile (· != '=') with
    | '=' :: value =>
      if key.takesValue then s.attach level key (String.ofList value) else .error .unexpectedValue
    | _ => if key.takesValue then s.await level key else s.turnOn level key

/-- The letters after a single `-`; those behind an option that takes a value are the value. -/
def readShort (level : Level) (s : Scan) : List Char → Except Usage Scan
  | [] => .ok s
  | c :: rest =>
    match level.short? c with
    | none => .error .unknownArgument
    | some key =>
      if key.takesValue then
        match rest with
        | [] => s.await level key
        | '=' :: value => s.attach level key (String.ofList value)
        | value => s.attach level key (String.ofList value)
      else do readShort level (← s.turnOn level key) rest

def readOperand (level : Level) (s : Scan) (text : String) (unknown : Usage) :
    Except Usage Scan := do
  if s.full || level == .top then throw unknown
  else return { ← s.settle level with pending := some (.operand text), full := true }

end Scan

def isCommandWord (word : String) : Bool :=
  word == "help" || (CommandName.ofWord? word).isSome

def misplaced (level : Level) (trailing : Bool) (word : String) : Usage :=
  match level with
  | .command _ => .unknownArgument
  | .top => if trailing && isCommandWord word then .unknownArgument else .unknownCommand

def helpOn : List String → Usage
  | [] => .helpAsked
  | [word] => if isCommandWord word then .helpAsked else .unknownCommand
  | _ :: _ :: _ => .unknownCommand

/-- Read the words of a level; at the top, up to the word that names a command, which is returned
with the words behind it. -/
def scan (level : Level) (trailing : Bool) (s : Scan) :
    List String → Except Usage (Scan × Option (CommandName × List String))
  | [] => .ok (s, none)
  | word :: words =>
    if trailing then do
      scan level true (← s.readOperand level word (misplaced level true word)) words
    else if level = .top ∧ s.awaits = false ∧ word = "help" then .error (helpOn words)
    else
      match if level = .top ∧ s.awaits = false then CommandName.ofWord? word else none with
      | some name => .ok (s, some (name, words))
      | none =>
        match word.toList with
        | ['-', '-'] => scan level true s words
        | '-' :: '-' :: text => do scan level false (← s.readLong level text) words
        | '-' :: c :: cs => do scan level false (← s.readShort level (c :: cs)) words
        | _ =>
          if s.awaits then scan level false (s.receive word) words
          else do
            scan level false (← s.readOperand level word (misplaced level false word)) words

def scanAll (level : Level) (words : List String) : Except Usage Scan := do
  (← scan level false {} words).1.settle level

def command (name : CommandName) (s : Scan) : Except Usage Command :=
  match s.operand with
  | none => .error .missingOperand
  | some operand =>
    match name with
    | .generate =>
      .ok (.generate operand (s.value? .config) ((s.value? .out).getD ".") (s.has .dryRun))
    | .inspect => .ok (.inspect operand (s.value? .config))
    | .completions =>
      match Shell.ofWord? operand with
      | some shell => .ok (.completions shell)
      | none => .error .invalidValue

/-- What a command line asks for. An option behind the command wins over the same one before it. -/
def read (words : List String) : Except Usage Invocation := do
  let (top, rest) ← scan .top false {} words
  match rest with
  | some (name, words) =>
    let inner ← scanAll (.command name) words
    let command ← command name inner
    let top ← top.settle .top
    return {
      command := command
      verbose := inner.has .verbose || top.has .verbose
      format := ((inner.value? .format).or (top.value? .format)).getD "pretty"
    }
  | none =>
    let top ← top.settle .top
    throw (if top.given.isEmpty then .nothingAsked else .missingCommand)

end ServiceLoom.CommandLine
