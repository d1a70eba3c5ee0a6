import ServiceLoom.Template.Helper
import ServiceLoom.Template.Literal

/-!
# Tags in template text

A tag stands between double braces. A tilde at either end asks for the blanks on that side to be
dropped. Between the parts of a tag spaces, tabs and line ends do not matter.

The readers return what they read and the rest of the text. Those that nest recurse on a bound for
the number of steps, which callers set above the length of the text.
-/

namespace ServiceLoom.Template

inductive Mark where
  | print (value : Arg)
  | inline (call : Call)
  | opening (opening : Opening)
  | otherwise
  | otherwiseBlock (opening : Opening)
  | inclusion (inclusion : Inclusion)
  /-- The end of the block may repeat the name, if it is one. -/
  | openInclusion (name : Option String) (inclusion : Inclusion)
  | definition (call : Call)
  | openDefinition (call : Call)
  | closing (name : Option String)
  | comment
  deriving Repr, Inhabited

structure Tag where
  mark : Mark
  trimBefore : Bool := false
  trimAfter : Bool := false
  deriving Repr, Inhabited

/-- Whether the next word is reserved. One of the two words and a further name after it are two
paths. -/
def isReserved (s : List Char) : Bool :=
  let ends (rest : List Char) : Bool := !(skipGaps rest).head?.any isNameChar
  match s with
  | 'a' :: 's' :: rest => ends rest
  | 'e' :: 'l' :: 's' :: 'e' :: rest => ends rest
  | _ => false

def namedPath? (s : List Char) : Option ((Path × String) × List Char) :=
  (path? s).map fun (p, rest) => ((p, String.ofList (s.take (s.length - rest.length))), rest)

def optionName? (s : List Char) : Option (String × List Char) := do
  let (name, rest) ← name? s
  match skipGaps rest with
  | '=' :: rest => return (name, skipGaps rest)
  | _ => none

/-- The arguments of a helper; a name that is given twice has its last value. -/
structure Args where
  args : List Arg := []
  options : List (String × Arg) := []

namespace Args

def isEmpty (a : Args) : Bool := a.args.isEmpty && a.options.isEmpty

def addFirst (arg : Arg) (a : Args) : Args := { a with args := arg :: a.args }

def addFirstOption (name : String) (arg : Arg) (a : Args) : Args :=
  if (a.options.lookup name).isSome then a else { a with options := (name, arg) :: a.options }

end Args

mutual

def arg? : Nat → List Char → Option (Arg × List Char)
  | 0, _ => none
  | steps + 1, s =>
    if isReserved s then none
    else match literalText? s with
      | some (text, rest) => (literalValue? text).map fun v => (.literal v, rest)
      | none =>
        match s with
        | '(' :: rest => nested? steps (skipGaps rest)
        | _ => (path? s).map fun (p, rest) => (.path p, rest)

def nested? : Nat → List Char → Option (Arg × List Char)
  | 0, _ => none
  | steps + 1, s => do
    let (arg, rest) : Arg × List Char ←
      match call? steps s with
      | some r => some r
      | none => (namedPath? s).map fun ((_, name), rest) => (.call name [] [], rest)
    match skipGaps rest with
    | ')' :: rest => return (arg, rest)
    | _ => none

def call? : Nat → List Char → Option (Arg × List Char)
  | 0, _ => none
  | steps + 1, s => do
    let (helper, rest) ← name? s
    let (a, rest) := args steps rest
    if a.isEmpty then none else return (.call helper a.args a.options, rest)

def args : Nat → List Char → Args × List Char
  | 0, s => ({}, s)
  | steps + 1, s =>
    let option? : Option (String × Arg × List Char) := do
      let (name, rest) ← optionName? (skipGaps s)
      let (arg, rest) ← arg? steps rest
      return (name, arg, rest)
    match option? with
    | some (name, arg, rest) =>
      let (more, rest) := args steps rest
      (more.addFirstOption name arg, rest)
    | none =>
      match arg? steps (skipGaps s) with
      | some (arg, rest) =>
        let (more, rest) := args steps rest
        (more.addFirst arg, rest)
      | none => ({}, s)

end

/-- A value without arguments: what a path or a nested call gives. A name by itself is that of a
helper first. -/
def value? (s : List Char) : Option (Mark × List Char) :=
  match s with
  | '(' :: rest =>
    (nested? (4 * rest.length + 4) (skipGaps rest)).map fun (value, rest) => (.print value, rest)
  | _ =>
    (namedPath? s).map fun ((p, name), rest) =>
      (if (Helper.ofName? name).isSome then .inline { helper := name } else .print (.path p), rest)

def expression? (s : List Char) : Option (Mark × List Char) :=
  match call? (4 * s.length + 4) s with
  | some (.call helper args options, rest) => some (.inline ⟨helper, args, options⟩, rest)
  | _ => value? s

def names? (s : List Char) : Option (List String × List Char) :=
  match skipGaps s with
  | 'a' :: 's' :: rest =>
    match skipGaps rest with
    | '|' :: rest => do
      let (first, rest) ← name? (skipGaps rest)
      let (names, rest) :=
        match name? (skipGaps rest) with
        | some (second, rest) => ([first, second], rest)
        | none => ([first], rest)
      match skipGaps rest with
      | '|' :: rest => return (names, rest)
      | _ => none
    | _ => none
  | _ => none

def opening? (s : List Char) : Option (Opening × List Char) := do
  let (helper, rest) ← name? s
  let (a, rest) := args (4 * rest.length + 4) rest
  let (names, rest) := (names? rest).getD ([], rest)
  return ({ call := ⟨helper, a.args, a.options⟩, names }, rest)

/-- What an inclusion calls the template: by a name, or by a call that gives the name. A path is
taken as a name. -/
def includedName? (s : List Char) : Option (Arg × List Char) :=
  let literal (r : String × List Char) : Arg × List Char := (.literal (.string r.1), r.2)
  match templateName? s with
  | some r => some (literal r)
  | none =>
    match s with
    | '(' :: rest => nested? (4 * rest.length + 4) (skipGaps rest)
    | _ => (namedPath? s).map fun ((_, name), rest) => literal (name, rest)

def inclusion? (s : List Char) : Option (Inclusion × List Char) := do
  let (name, rest) ← includedName? s
  let (a, rest) := args (4 * rest.length + 4) rest
  return ({ name, args := a.args, options := a.options }, rest)

def tilde (s : List Char) : Bool × List Char :=
  match skipGaps s with
  | '~' :: rest => (true, skipGaps rest)
  | rest => (false, rest)

def tagEnd? (closing s : List Char) : Option (Bool × List Char) :=
  let (trimAfter, rest) := tilde s
  (Text.dropLead? closing rest).map (trimAfter, ·)

def doubleEnd : List Char := ['\x7d', '\x7d']

def finish? (trimBefore : Bool) (closing : List Char) (mark : Mark × List Char) :
    Option (Tag × List Char) :=
  (tagEnd? closing mark.2).map fun (trimAfter, rest) => (⟨mark.1, trimBefore, trimAfter⟩, rest)

def tripleTag? (s : List Char) : Option (Tag × List Char) :=
  match s with
  | '\x7b' :: rest =>
    let (trimBefore, rest) := tilde rest
    (expression? rest).bind (finish? trimBefore ('\x7d' :: doubleEnd))
  | _ => none

def braced? (s : List Char) : Option (Mark × List Char) := do
  let (mark, rest) ← expression? (skipGaps s)
  match skipGaps rest with
  | '\x7d' :: rest => return (mark, rest)
  | _ => none

def otherwise? (s : List Char) : Option (List Char) :=
  (Text.dropLead? "else".toList s).or (Text.dropLead? ['^'] s)

def otherwiseTag? (trimBefore : Bool) (s : List Char) : Option (Tag × List Char) := do
  let rest ← otherwise? s
  match finish? trimBefore doubleEnd (.otherwise, rest) with
  | some r => return r
  | none =>
    let (opening, rest) ← opening? (skipGaps rest)
    finish? trimBefore doubleEnd (.otherwiseBlock opening, rest)

def openingMark? (s : List Char) : Option (Mark × List Char) :=
  match s with
  | '>' :: rest =>
    let s := skipGaps rest
    let name := (templateName? s).map Prod.fst
    (inclusion? s).map fun (inclusion, rest) => (.openInclusion name inclusion, rest)
  | '*' :: rest =>
    (opening? (skipGaps rest)).map fun (opening, rest) => (.openDefinition opening.call, rest)
  | _ => (opening? s).map fun (opening, rest) => (.opening opening, rest)

def closingMark (s : List Char) : Mark × List Char :=
  match name? s, templateName? s with
  | some (helper, rest), some (name, rest') =>
    if rest.length < rest'.length then (.closing helper, rest) else (.closing name, rest')
  | some (name, rest), none | none, some (name, rest) => (.closing name, rest)
  | none, none => (.closing none, s)

def mark? (s : List Char) : Option (Mark × List Char) :=
  match s with
  | '\x7b' :: rest => braced? rest
  | '&' :: rest => value? (skipGaps rest)
  | '>' :: rest =>
    (inclusion? (skipGaps rest)).map fun (inclusion, rest) => (.inclusion inclusion, rest)
  | '*' :: rest =>
    (opening? (skipGaps rest)).map fun (opening, rest) => (.definition opening.call, rest)
  | '#' :: rest => openingMark? (skipGaps rest)
  | '/' :: rest => some (closingMark (skipGaps rest))
  | _ => expression? s

def after? (closing : List Char) : List Char → Option (List Char)
  | [] => none
  | c :: cs =>
    match Text.dropLead? closing (c :: cs) with
    | some rest => some rest
    | none => after? closing cs

/-- A comment that starts with two hyphens runs to two hyphens if it can. -/
def commentEnd? (s : List Char) : Option (List Char) :=
  match skipGaps s with
  | '-' :: '-' :: rest => (after? ('-' :: '-' :: doubleEnd) rest).or (after? doubleEnd s)
  | _ => after? doubleEnd s

def tag? (s : List Char) : Option (Tag × List Char) :=
  match s with
  | '!' :: rest => (commentEnd? rest).map fun rest => ({ mark := .comment }, rest)
  | _ =>
    let (trimBefore, rest) := tilde s
    ((tripleTag? s).or (otherwiseTag? trimBefore rest)).or
      ((mark? rest).bind (finish? trimBefore doubleEnd))

def rawOpening? (s : List Char) : Option (Tag × List Char) := do
  let (trimBefore, rest) := tilde s
  let (opening, rest) ← opening? rest
  finish? trimBefore (doubleEnd ++ doubleEnd) (.opening opening, rest)

def rawClosing? (s : List Char) : Option (Tag × List Char) :=
  let (trimBefore, rest) := tilde s
  match rest with
  | '/' :: rest => do
    let (name, rest) ← name? (skipGaps rest)
    finish? trimBefore (doubleEnd ++ doubleEnd) (.closing name, rest)
  | _ => none

end ServiceLoom.Template
