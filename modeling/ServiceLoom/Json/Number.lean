import ServiceLoom.Json.Basic

/-!
# Numbers of JSON

A number without a fraction and an exponent that 64 bits hold, with or without a sign, is a whole
number; every other one is a double, and so is zero with a minus. A double is read as its leading
digits, as many as 64 bits hold, times a power of ten, so it may be one of the neighbours of the
double that is nearest.
-/

namespace ServiceLoom.Json

private def digits (s : List Char) : List Char × List Char := s.span Char.isDigit

/-- The whole part of a number: no zero stands in front of other digits. -/
private def whole? (s : List Char) : Option (List Char × List Char) :=
  match digits s with
  | ([], _) => none
  | ('0' :: _ :: _, _) => none
  | r => some r

private def fraction? (s : List Char) : Option (List Char × List Char) :=
  match s with
  | '.' :: rest =>
    match digits rest with
    | ([], _) => none
    | r => some r
  | _ => some ([], s)

private def digitValue (d : Char) : Nat := d.toNat - 48

private def natOfDigits (ds : List Char) : Nat := ds.foldl (fun n d => 10 * n + digitValue d) 0

private def exponent? (s : List Char) : Option (Option Int × List Char) :=
  match s with
  | e :: rest =>
    if e == 'e' || e == 'E' then
      let (sign, rest) : Int × List Char :=
        match rest with
        | '+' :: rest => (1, rest)
        | '-' :: rest => (-1, rest)
        | _ => (1, rest)
      match digits rest with
      | ([], _) => none
      | (ds, rest) => some (some (sign * natOfDigits ds), rest)
    else some (none, s)
  | [] => some (none, [])

/-- The number that leading digits make behind the digits of `n`, as many as 64 bits hold, and the
digits that are left. -/
private def leading (n : Nat) : List Char → Nat × List Char
  | [] => (n, [])
  | d :: ds =>
    let next := 10 * n + digitValue d
    if next < Nat.pow 2 64 then leading next ds else (n, d :: ds)

/-- The double of digits before and behind the point, if it is finite. Digits of the whole part that
do not count raise the exponent. -/
private def double? (negative : Bool) (whole fraction : List Char) (exponent : Int) :
    Option Json :=
  let (n, rest) := leading 0 whole
  let (n, cut) := leading n fraction
  let places : Int := fraction.length - cut.length
  (Double.scale? (Double.ofNat n) (exponent + rest.length - places)).map fun units =>
    double ⟨negative, units⟩

private def whole (negative : Bool) (ds : List Char) : Option Json :=
  let n := natOfDigits ds
  if negative then
    if 0 < n ∧ n ≤ Nat.pow 2 63 then some (int (-n)) else double? true ds [] 0
  else if n < Nat.pow 2 64 then some (int n)
  else double? false ds [] 0

def number? (s : List Char) : Option (Option Json × List Char) := do
  let (negative, s) :=
    match s with
    | '-' :: rest => (true, rest)
    | _ => (false, s)
  let (ds, s) ← whole? s
  let (fraction, s) ← fraction? s
  let (exponent, s) ← exponent? s
  if fraction.isEmpty && exponent.isNone then return (whole negative ds, s)
  else return (double? negative ds fraction (exponent.getD 0), s)

def numberOfText? (text : String) : Option Json :=
  match number? text.toList with
  | some (number, []) => number
  | _ => none

end ServiceLoom.Json
