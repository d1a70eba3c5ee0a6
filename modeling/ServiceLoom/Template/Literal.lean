import ServiceLoom.Json.Reader
import ServiceLoom.Template.Path
import ServiceLoom.Text.Search

/-!
# Literals in tags

Values that a tag holds itself are written as in JSON, except that a string may also stand in single
quotes. What looks like a literal and is none, such as a number with a zero in front, is an error.

The functions give the text after a literal. Those that nest recurse on a bound for the number of
steps, which callers set above the length of the text.
-/

namespace ServiceLoom.Template

def isHexDigit (c : Char) : Bool :=
  c.isDigit || ('a' ≤ c && c ≤ 'f') || ('A' ≤ c && c ≤ 'F')

/-- How many characters behind a backslash belong to its escape, in a string between quotes of one
kind. -/
def escapeLength? (quote : Char) : List Char → Option Nat
  | 'u' :: rest =>
    let digits := rest.take 4
    if digits.length = 4 ∧ digits.all isHexDigit then some 5 else none
  | c :: _ => if c ∈ [quote, '\\', '/', 'b', 'f', 'n', 'r', 't'] then some 1 else none
  | [] => none

/-- The text after the closing quote; `skip` counts the characters of an escape that are still to
be passed over. -/
def quotedEnd? (quote : Char) : Nat → List Char → Option (List Char)
  | _, [] => none
  | skip + 1, _ :: rest => quotedEnd? quote skip rest
  | 0, c :: rest =>
    if c = quote then some rest
    else if c = '\\' then
      match escapeLength? quote rest with
      | some length => quotedEnd? quote length rest
      | none => none
    else quotedEnd? quote 0 rest

def stringEnd? (s : List Char) : Option (List Char) :=
  match s with
  | '"' :: rest => quotedEnd? '"' 0 rest
  | '\'' :: rest => quotedEnd? '\'' 0 rest
  | _ => none

def nameEnds? (s : List Char) : Option (List Char) :=
  if s.head?.any isNameChar then none else some s

def exponentEnd (s : List Char) : List Char :=
  let digitsEnd? (digits : List Char) : Option (List Char) :=
    if digits.head?.any Char.isDigit then some (digits.dropWhile Char.isDigit) else none
  match s with
  | 'E' :: '-' :: rest => (digitsEnd? rest).getD s
  | 'E' :: rest => (digitsEnd? rest).getD s
  | _ => s

def numberEnd? (s : List Char) : Option (List Char) :=
  let s :=
    match s with
    | '-' :: rest => rest
    | _ => s
  match s.span Char.isDigit with
  | ([], _) => none
  | (_, '.' :: rest) => nameEnds? (exponentEnd (rest.dropWhile Char.isDigit))
  | (_, rest) => nameEnds? (exponentEnd rest)

def wordEnd? (s : List Char) : Option (List Char) :=
  match name? s with
  | some (name, rest) => if name ∈ ["null", "true", "false"] then some rest else none
  | none => none

mutual

def literalEnd? : Nat → List Char → Option (List Char)
  | 0, _ => none
  | steps + 1, s =>
    match s with
    | '"' :: _ | '\'' :: _ => stringEnd? s
    | '[' :: rest =>
      match literalEnd? steps (skipGaps rest) with
      | some rest => itemsEnd? steps rest
      | none => itemsEnd? steps rest
    | '\x7b' :: rest =>
      match memberEnd? steps (skipGaps rest) with
      | some rest => membersEnd? steps rest
      | none => membersEnd? steps rest
    | _ => (numberEnd? s).or (wordEnd? s)

def itemsEnd? : Nat → List Char → Option (List Char)
  | 0, _ => none
  | steps + 1, s =>
    match skipGaps s with
    | ']' :: rest => some rest
    | ',' :: rest => (literalEnd? steps (skipGaps rest)).bind (itemsEnd? steps)
    | _ => none

def memberEnd? : Nat → List Char → Option (List Char)
  | 0, _ => none
  | steps + 1, s =>
    match (stringEnd? s).map skipGaps with
    | some (':' :: rest) => literalEnd? steps (skipGaps rest)
    | _ => none

def membersEnd? : Nat → List Char → Option (List Char)
  | 0, _ => none
  | steps + 1, s =>
    match skipGaps s with
    | '\x7d' :: rest => some rest
    | ',' :: rest => (memberEnd? steps (skipGaps rest)).bind (membersEnd? steps)
    | _ => none

end

def literalText? (s : List Char) : Option (List Char × List Char) :=
  (literalEnd? (2 * s.length + 2) s).map fun rest => (s.take (s.length - rest.length), rest)

def doubleQuoted (s : List Char) : List Char :=
  match s with
  | '\'' :: rest =>
    let body := Text.replaceAll ['\\', '\''] ['\''] rest.dropLast
    '"' :: Text.replaceAll ['"'] ['\\', '"'] body ++ ['"']
  | _ => s

def literalValue? (s : List Char) : Option Json :=
  (Json.parse? (String.ofList (doubleQuoted s))).map Json.sortKeys

end ServiceLoom.Template
