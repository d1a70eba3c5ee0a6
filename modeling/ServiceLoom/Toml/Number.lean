import ServiceLoom.Double.Basic
import ServiceLoom.Text.Ascii
import ServiceLoom.Text.Blank
import ServiceLoom.Toml.Quoted

/-!
# Numbers of TOML

Digits come in runs that single underscores join, and a decimal number has no zeros in front. A
float has a fraction, an exponent, or both in this order, or is one of the two words.
-/

namespace ServiceLoom.Toml.Reader

def digits? (base : Nat) (s : List Char) : Option (List Nat) :=
  let runs := Text.cutWhere (· == '_') s
  if runs.all (!·.isEmpty) then do
    let values ← runs.flatten.mapM hexValue?
    if values.all (· < base) then return values else none
  else none

def valueOf (base : Nat) (digits : List Nat) : Nat := digits.foldl (fun n d => base * n + d) 0

def natural? (base : Nat) (s : List Char) : Option Nat := (digits? base s).map (valueOf base)

def decimal? (s : List Char) : Option (List Nat) :=
  match s with
  | '0' :: _ :: _ => none
  | _ => digits? 10 s

def unsigned (s : List Char) : Bool × List Char :=
  match s with
  | '+' :: rest => (false, rest)
  | '-' :: rest => (true, rest)
  | _ => (false, s)

def signed (negative : Bool) (n : Nat) : Int := if negative then -n else n

def integer? (s : List Char) : Option Int :=
  match s with
  | '0' :: 'x' :: rest => (natural? 16 rest).map Int.ofNat
  | '0' :: 'o' :: rest => (natural? 8 rest).map Int.ofNat
  | '0' :: 'b' :: rest => (natural? 2 rest).map Int.ofNat
  | _ =>
    let (negative, s) := unsigned s
    (decimal? s).map fun digits => signed negative (valueOf 10 digits)

def exponent? (s : List Char) : Option Int :=
  let (negative, s) := unsigned s
  (natural? 10 s).map (signed negative)

def floatTail? (s : List Char) : Option (List Nat × Int) :=
  match s with
  | '.' :: rest =>
    match rest.span (fun c => c != 'e' && c != 'E') with
    | (fraction, []) => do return (← digits? 10 fraction, 0)
    | (fraction, _ :: exponent) => do return (← digits? 10 fraction, ← exponent? exponent)
  | c :: exponent => if c == 'e' || c == 'E' then do return ([], ← exponent? exponent) else none
  | [] => none

/-- A float, and whether it is in the range of double precision; the two words always are. -/
def float? (s : List Char) : Option Bool :=
  let s := (unsigned s).2
  if s == "inf".toList || s == "nan".toList then some true
  else do
    let (whole, tail) := s.span (fun c => c != '.' && c != 'e' && c != 'E')
    let digits ← decimal? whole
    let (fraction, exponent) ← floatTail? tail
    return Double.holds (valueOf 10 (digits ++ fraction)) (exponent - fraction.length)

end ServiceLoom.Toml.Reader
