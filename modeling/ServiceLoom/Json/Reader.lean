import ServiceLoom.Json.Number
import ServiceLoom.Json.Shape

/-!
# Reading JSON

One value with blanks around it. Blanks are space, tab, line feed and carriage return, and a string
holds no raw control character. In what a shape wants, an escape by code point names a Unicode
scalar value, a number lies in the range of double precision, and arrays and objects nest at most
127 deep; what it skips is left out of its object, and as a value of its own it reads as null.

Values recurse on a bound for the number of steps; `read?` starts with one more than the text has
characters. That is enough: a bracket takes two steps and has a partner, and a comma takes one.
-/

namespace ServiceLoom.Json

def maxNesting : Nat := 127

private def isGap (c : Char) : Bool := c == ' ' || c == '\t' || c == '\n' || c == '\r'

private def skipGaps (s : List Char) : List Char := s.dropWhile isGap

private def hexValue? (c : Char) : Option Nat :=
  if '0' ≤ c && c ≤ '9' then some (c.toNat - 48)
  else if 'a' ≤ c && c ≤ 'f' then some (c.toNat - 87)
  else if 'A' ≤ c && c ≤ 'F' then some (c.toNat - 55)
  else none

private def code? : List Char → Option Nat
  | a :: b :: c :: d :: _ => do
    let a ← hexValue? a
    let b ← hexValue? b
    let c ← hexValue? c
    let d ← hexValue? d
    return 4096 * a + 256 * b + 16 * c + d
  | _ => none

private def isHighSurrogate (n : Nat) : Bool := 0xD800 ≤ n && n < 0xDC00

private def isLowSurrogate (n : Nat) : Bool := 0xDC00 ≤ n && n < 0xE000

/-- The character of an escape by code point, given what stands behind its `u`, and how many
characters of that belong to it; two escapes may be needed for one character. -/
private def scalar? (s : List Char) : Option (Char × Nat) := do
  let n ← code? s
  if isHighSurrogate n then
    match s.drop 4 with
    | '\\' :: 'u' :: rest =>
      let m ← code? rest
      if isLowSurrogate m then
        return (Char.ofNat (0x10000 + 0x400 * (n - 0xD800) + (m - 0xDC00)), 10)
      else none
    | _ => none
  else if isLowSurrogate n then none
  else return (Char.ofNat n, 4)

private def escaped? : List Char → Option (Char × Nat)
  | '"' :: _ => some ('"', 1)
  | '\\' :: _ => some ('\\', 1)
  | '/' :: _ => some ('/', 1)
  | 'b' :: _ => some ('\x08', 1)
  | 'f' :: _ => some ('\x0c', 1)
  | 'n' :: _ => some ('\n', 1)
  | 'r' :: _ => some ('\r', 1)
  | 't' :: _ => some ('\t', 1)
  | 'u' :: rest => (scalar? rest).map fun (c, length) => (c, length + 1)
  | _ => none

/-- The rest of a string after its opening quote; `acc` holds what was read, last first, and `skip`
counts the characters of an escape that are still to be passed over. -/
private def stringBody? (acc : List Char) : Nat → List Char → Option (String × List Char)
  | _, [] => none
  | skip + 1, _ :: rest => stringBody? acc skip rest
  | 0, c :: rest =>
    if c = '"' then some (String.ofList acc.reverse, rest)
    else if c = '\\' then
      match escaped? rest with
      | some (c, length) => stringBody? (c :: acc) length rest
      | none => none
    else if c.toNat < 0x20 then none
    else stringBody? (c :: acc) 0 rest

private def escapeLength? : List Char → Option Nat
  | 'u' :: rest => (code? rest).map fun _ => 5
  | c :: _ => if c ∈ ['"', '\\', '/', 'b', 'f', 'n', 'r', 't'] then some 1 else none
  | [] => none

/-- The text after a string, given what stands behind its opening quote; `skip` counts the
characters of an escape that are still to be passed over. -/
private def skipString? : Nat → List Char → Option (List Char)
  | _, [] => none
  | skip + 1, _ :: rest => skipString? skip rest
  | 0, c :: rest =>
    if c = '"' then some rest
    else if c = '\\' then
      match escapeLength? rest with
      | some length => skipString? length rest
      | none => none
    else if c.toNat < 0x20 then none
    else skipString? 0 rest

private def text? (shape : Shape) (s : List Char) : Option (String × List Char) :=
  if shape.isSkipped then (skipString? 0 s).map ("", ·) else stringBody? [] 0 s

private def inner? (shape : Shape) (depth : Nat) : Option Nat :=
  if shape.isSkipped then some depth else if depth = 0 then none else some (depth - 1)

mutual

private def value? : Nat → Nat → Shape → List Char → Option (Json × List Char)
  | 0, _, _, _ => none
  | steps + 1, depth, shape, s =>
    match skipGaps s with
    | 'n' :: 'u' :: 'l' :: 'l' :: rest => some (null, rest)
    | 't' :: 'r' :: 'u' :: 'e' :: rest => some (bool true, rest)
    | 'f' :: 'a' :: 'l' :: 's' :: 'e' :: rest => some (bool false, rest)
    | '"' :: rest => do
      let (text, rest) ← text? shape rest
      return (if shape.isSkipped then null else string text, rest)
    | '[' :: rest => do
      let depth ← inner? shape depth
      match skipGaps rest with
      | ']' :: rest => return (if shape.isSkipped then null else array [], rest)
      | rest =>
        let (items, rest) ← itemList? steps depth shape.item rest
        return (if shape.isSkipped then null else array items, rest)
    | '\x7b' :: rest => do
      let depth ← inner? shape depth
      match skipGaps rest with
      | '\x7d' :: rest => return (if shape.isSkipped then null else object [], rest)
      | rest =>
        let (members, rest) ← memberList? steps depth shape rest
        return (if shape.isSkipped then null else object members, rest)
    | rest => do
      let (number, rest) ← number? rest
      if shape.isSkipped then return (null, rest) else return (← number, rest)

private def itemList? : Nat → Nat → Shape → List Char → Option (List Json × List Char)
  | 0, _, _, _ => none
  | steps + 1, depth, shape, s => do
    let (item, rest) ← value? steps depth shape s
    match skipGaps rest with
    | ',' :: rest =>
      let (items, rest) ← itemList? steps depth shape rest
      return (item :: items, rest)
    | ']' :: rest => return ([item], rest)
    | _ => none

private def memberList? :
    Nat → Nat → Shape → List Char → Option (List (String × Json) × List Char)
  | 0, _, _, _ => none
  | steps + 1, depth, shape, s => do
    match skipGaps s with
    | '"' :: rest =>
      let (key, rest) ← text? shape rest
      match skipGaps rest with
      | ':' :: rest =>
        let inside := shape.member key
        let (value, rest) ← value? steps depth inside rest
        let kept := if inside.isSkipped then [] else [(key, value)]
        match skipGaps rest with
        | ',' :: rest =>
          let (members, rest) ← memberList? steps depth shape rest
          return (kept ++ members, rest)
        | '\x7d' :: rest => return (kept, rest)
        | _ => none
      | _ => none
    | _ => none

end

def read? (shape : Shape) (text : String) : Option Json :=
  let s := text.toList
  match value? (s.length + 1) maxNesting shape s with
  | some (v, rest) => if (skipGaps rest).isEmpty then some v else none
  | none => none

def parse? (text : String) : Option Json := (read? .whole text).map distinct

end ServiceLoom.Json
