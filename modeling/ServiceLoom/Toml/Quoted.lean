import ServiceLoom.Toml.Line

/-!
# Quoted text of TOML

Basic strings have escapes and literal ones have none; either kind may also stand over several
lines between tripled quotes. The readers return the text and what follows it. Those that loop
recurse on a bound for the number of steps, which callers set above the length of the text.
-/

namespace ServiceLoom.Toml.Reader

def hexValue? (c : Char) : Option Nat :=
  if '0' ≤ c && c ≤ '9' then some (c.toNat - 48)
  else if 'a' ≤ c && c ≤ 'f' then some (c.toNat - 87)
  else if 'A' ≤ c && c ≤ 'F' then some (c.toNat - 55)
  else none

def scalar? (count : Nat) (s : List Char) : Option (Char × List Char) := do
  let values ← (s.take count).mapM hexValue?
  let n := values.foldl (fun n v => 16 * n + v) 0
  if values.length = count ∧ n.isValidChar then return (Char.ofNat n, s.drop count) else none

def escaped? : List Char → Option (Char × List Char)
  | 'b' :: rest => some ('\x08', rest)
  | 't' :: rest => some ('\t', rest)
  | 'n' :: rest => some ('\n', rest)
  | 'f' :: rest => some ('\x0c', rest)
  | 'r' :: rest => some ('\r', rest)
  | 'e' :: rest => some ('\x1b', rest)
  | '"' :: rest => some ('"', rest)
  | '\\' :: rest => some ('\\', rest)
  | 'x' :: rest => scalar? 2 rest
  | 'u' :: rest => scalar? 4 rest
  | 'U' :: rest => scalar? 8 rest
  | _ => none

/-- The rest of a basic string on one line; `acc` holds what was read, last first. -/
def basicBody? (acc : List Char) : Nat → List Char → Option (String × List Char)
  | 0, _ => none
  | steps + 1, s =>
    match s with
    | [] => none
    | '"' :: rest => some (String.ofList acc.reverse, rest)
    | '\\' :: rest => do
      let (c, rest) ← escaped? rest
      basicBody? (c :: acc) steps rest
    | c :: rest => if isControl c then none else basicBody? (c :: acc) steps rest

def literalBody? (s : List Char) : Option (String × List Char) :=
  match s.span (fun c => c != '\'' && !isControl c) with
  | (body, '\'' :: rest) => some (String.ofList body, rest)
  | _ => none

/-- The text after a backslash that ends a line: the blanks up to the next text are dropped. -/
def foldedLine? (s : List Char) : Option (List Char) :=
  (lineEnd? (skipSpaces s)).map skipBlankLines

/-- The rest of a string of several lines, which `quote` three times ends; two more of them may
stand before the end. -/
def blockBody? (quote : Char) (acc : List Char) : Nat → List Char → Option (String × List Char)
  | 0, _ => none
  | steps + 1, s =>
    match s with
    | [] => none
    | c :: rest =>
      if c = quote then
        let run := ((s.takeWhile (· == quote)).take 5).length
        if run < 3 then
          blockBody? quote (List.replicate run quote ++ acc) steps (s.drop run)
        else
          some (String.ofList (List.replicate (run - 3) quote ++ acc).reverse, s.drop run)
      else if c = '\\' ∧ quote = '"' then
        match foldedLine? rest with
        | some rest => blockBody? quote acc steps rest
        | none => do
          let (c, rest) ← escaped? rest
          blockBody? quote (c :: acc) steps rest
      else
        match lineEnd? s with
        | some after =>
          blockBody? quote (if c = '\r' then '\n' :: c :: acc else c :: acc) steps after
        | none => if isControl c then none else blockBody? quote (c :: acc) steps rest

def blockString? (quote : Char) (s : List Char) : Option (String × List Char) :=
  let s := (lineEnd? s).getD s
  blockBody? quote [] (s.length + 1) s

def string? (s : List Char) : Option (String × List Char) :=
  match s with
  | '"' :: '"' :: '"' :: rest => blockString? '"' rest
  | '\'' :: '\'' :: '\'' :: rest => blockString? '\'' rest
  | '"' :: rest => basicBody? [] (rest.length + 1) rest
  | '\'' :: rest => literalBody? rest
  | _ => none

end ServiceLoom.Toml.Reader
