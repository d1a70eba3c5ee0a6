import ServiceLoom.Toml.Date
import ServiceLoom.Toml.Number
import ServiceLoom.Toml.Table

/-!
# Reading TOML

The readers return what they read and the rest of the text; none means that the text is not TOML.
Those that loop recurse on a bound for the number of steps, which callers set above the length of
the text. Arrays and inline tables nest at most 80 deep, and a dotted key has at most 80 parts.
-/

namespace ServiceLoom.Toml.Reader

def maxNesting : Nat := 80

def maxParts : Nat := 80

def isBareKeyChar (c : Char) : Bool := Text.isAsciiWord c || c == '_' || c == '-'

def simpleKey? (s : List Char) : Option (String × List Char) :=
  match s with
  | '"' :: rest => basicBody? [] (rest.length + 1) rest
  | '\'' :: rest => literalBody? rest
  | _ =>
    match s.span isBareKeyChar with
    | ([], _) => none
    | (key, rest) => some (String.ofList key, rest)

def dotted? (parts : Nat) (s : List Char) : Option (List String × List Char) :=
  match parts with
  | 0 => none
  | parts + 1 => do
    let (key, rest) ← simpleKey? (skipSpaces s)
    match skipSpaces rest with
    | '.' :: rest =>
      let (keys, rest) ← dotted? parts rest
      return (key :: keys, rest)
    | rest => return ([key], rest)

def keys? (s : List Char) : Option (List String × List Char) := dotted? maxParts s

def isPlainChar (c : Char) : Bool :=
  Text.isAsciiWord c || c == '_' || c == '+' || c == '-' || c == '.' || c == ':'

/-- The text of a value that is not quoted; a space may stand between a day and a time. -/
def plainText (s : List Char) : List Char × List Char :=
  match s.span isPlainChar with
  | (text, ' ' :: c :: rest) =>
    if day? text == some [] && c.isDigit then
      let (time, rest) := (c :: rest).span isPlainChar
      (text ++ ' ' :: time, rest)
    else (text, ' ' :: c :: rest)
  | r => r

def plainValue? (text : List Char) : Option Toml :=
  if text == "true".toList then some (.boolean true)
  else if text == "false".toList then some (.boolean false)
  else if isDate text then some .date
  else ((integer? text).map .integer).or ((float? text).map .float)

def plain? (s : List Char) : Option (Toml × List Char) :=
  let (text, rest) := plainText s
  (plainValue? text).map (·, rest)

mutual

def value? : Nat → Nat → List Char → Option (Toml × List Char)
  | 0, _, _ => none
  | steps + 1, depth, s =>
    match s with
    | '[' :: rest =>
      if depth = 0 then none
      else (items? steps (depth - 1) rest).map fun (items, rest) => (.array items, rest)
    | '\x7b' :: rest =>
      if depth = 0 then none
      else (members? steps (depth - 1) [] rest).map fun (entries, rest) =>
        (.table (finished entries), rest)
    | '"' :: _ | '\'' :: _ => (string? s).map fun (text, rest) => (.string text, rest)
    | _ => plain? s

/-- The items of an array up to its end; a comma may follow the last one. -/
def items? : Nat → Nat → List Char → Option (List Toml × List Char)
  | 0, _, _ => none
  | steps + 1, depth, s => do
    match ← skipLines? (s.length + 1) s with
    | ']' :: rest => return ([], rest)
    | s =>
      let (item, rest) ← value? steps depth s
      match ← skipLines? (rest.length + 1) rest with
      | ',' :: rest =>
        let (items, rest) ← items? steps depth rest
        return (item :: items, rest)
      | ']' :: rest => return ([item], rest)
      | _ => none

def members? : Nat → Nat → Entries → List Char → Option (Entries × List Char)
  | 0, _, _, _ => none
  | steps + 1, depth, entries, s => do
    match ← skipLines? (s.length + 1) s with
    | '\x7d' :: rest => return (entries, rest)
    | s =>
      let (keys, rest) ← keys? s
      match ← skipLines? (rest.length + 1) rest with
      | '=' :: rest =>
        let (v, rest) ← value? steps depth (← skipLines? (rest.length + 1) rest)
        let entries ← entries.assign v keys
        match ← skipLines? (rest.length + 1) rest with
        | ',' :: rest => members? steps depth entries rest
        | '\x7d' :: rest => return (entries, rest)
        | _ => none
      | _ => none

end

def header? (closing s : List Char) : Option (List String × List Char) := do
  let (keys, rest) ← keys? s
  let rest ← Text.dropLead? closing rest
  return (keys, rest)

/-- The entries of a document; `current` is the header that keys belong to. -/
def lines? : Nat → List String → Entries → List Char → Option Entries
  | 0, _, _, _ => none
  | steps + 1, current, entries, s => do
    match ← skipLines? (s.length + 1) s with
    | [] => return entries
    | '[' :: '[' :: rest =>
      let (keys, rest) ← header? [']', ']'] rest
      let entries ← entries.changeAt (Entries.addTable (keys.getLastD "")) keys.dropLast
      lines? steps keys entries (← lineRest? rest)
    | '[' :: rest =>
      let (keys, rest) ← header? [']'] rest
      let entries ← entries.changeAt (Entries.define (keys.getLastD "")) keys.dropLast
      lines? steps keys entries (← lineRest? rest)
    | s =>
      let (keys, rest) ← keys? s
      match rest with
      | '=' :: rest =>
        let rest := skipSpaces rest
        let (v, rest) ← value? (rest.length + 1) maxNesting rest
        let entries ← entries.changeAt (Entries.assign v keys) current
        lines? steps current entries (← lineRest? rest)
      | _ => none

end ServiceLoom.Toml.Reader

namespace ServiceLoom.Toml

/-- The members of the top table of a document. A byte order mark in front is ignored. -/
def parse? (source : String) : Option (List (String × Toml)) :=
  let s :=
    match source.toList with
    | '\ufeff' :: rest => rest
    | s => s
  (Reader.lines? (s.length + 1) [] [] s).map finished

end ServiceLoom.Toml
