import ServiceLoom.Double.Basic

/-!
# Doubles as decimal text

A double is written with the fewest digits that are rounded to it, and of those with the digits next
to it. There is always a fraction or an exponent; an exponent has a sign.
-/

namespace ServiceLoom.Double

/-- Whether `n` times ten to the power `e` is rounded to so many units. Halfway to a neighbour it
is if the last binary digit is even; just below a power of two the neighbour is closer. -/
def roundsTo (units n : Nat) (e : Int) : Bool :=
  let gap := step units
  let below := if units = Nat.pow 2 units.log2 ∧ 1 < gap then gap else 2 * gap
  let den := Nat.pow 10 (-e).toNat
  let value := 4 * (n * Nat.pow 10 e.toNat * one)
  let low := (4 * units - below) * den
  let high := (4 * units + 2 * gap) * den
  if units / gap % 2 = 0 then low ≤ value && value ≤ high else low < value && value < high

/-- The multiple of ten to the power `e` that is rounded to so many units, if one of the two around
them is; the nearer one goes first, and of a tie the even one. -/
def onGrid? (units : Nat) (e : Int) : Option Nat :=
  let a := units * Nat.pow 10 (-e).toNat
  let d := Nat.pow 10 e.toNat * one
  let near := roundQuotient a d
  let far := if near = a / d then near + 1 else a / d
  [near, far].find? fun n => roundsTo units n e

def above (units : Nat) : Int := ((units.log2 : Int) - 1073) * 30103 / 100000 + 1

/-- The fewest digits, and the exponent of the last one. No double needs more than 17 digits. -/
def shortest (units : Nat) : List Char × Int :=
  let grid (i : Nat) : Option (List Char × Int) :=
    let e := above units - i
    (onGrid? units e).map fun n => (Nat.toDigits 10 n, e)
  if units = 0 then (['0'], 0) else ((List.range 20).findSome? grid).getD (['0'], 0)

def isPlain (e : Int) : Bool := -5 ≤ e && e ≤ 15

def zeros (n : Nat) : List Char := List.replicate n '0'

def plain (digits : List Char) (e : Int) : List Char :=
  if e < 0 then '0' :: '.' :: zeros (-e - 1).toNat ++ digits
  else
    let whole := e.toNat + 1
    if digits.length ≤ whole then digits ++ zeros (whole - digits.length) ++ ['.', '0']
    else digits.take whole ++ '.' :: digits.drop whole

def scientific (digits : List Char) (e : Int) : List Char :=
  let fraction := digits.drop 1
  let sign := if e < 0 then '-' else '+'
  digits.take 1 ++ (if fraction.isEmpty then [] else '.' :: fraction) ++
    'e' :: sign :: Nat.toDigits 10 e.natAbs

def text (x : Double) : String :=
  let (digits, last) := shortest x.units
  let first := last + digits.length - 1
  let size := if isPlain first then plain digits first else scientific digits first
  String.ofList (if x.negative then '-' :: size else size)

end ServiceLoom.Double
