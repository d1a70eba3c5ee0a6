/-!
# Numbers of double precision

A double has 53 binary digits and is a whole number of units of two to the power -1074; the finite
ones end below two to the power 1024. So sizes and their order are those of natural numbers, and an
operation is an exact quotient that is rounded once, where a tie goes to the even neighbour.
-/

namespace ServiceLoom

/-- A finite double. Zero has a sign as well. -/
structure Double where
  negative : Bool
  units : Nat
  deriving DecidableEq, Repr, Inhabited

namespace Double

/-- The units of the number one. -/
def one : Nat := Nat.pow 2 1074

def bound : Nat := Nat.pow 2 2098

def leastNormal : Nat := Nat.pow 2 52

/-- The whole number next to a quotient; a tie goes to the even one. -/
def roundQuotient (a d : Nat) : Nat :=
  let rest := 2 * (a % d)
  if d < rest ∨ (d = rest ∧ a / d % 2 = 1) then a / d + 1 else a / d

def step (units : Nat) : Nat := Nat.pow 2 (units.log2 - 52)

def nearest (a d : Nat) : Nat :=
  let step := step (a / d)
  roundQuotient a (d * step) * step

def mul (x y : Nat) : Nat := nearest (x * y) one

def div (x y : Nat) : Nat := nearest (x * one) y

def ofNat (n : Nat) : Nat := nearest (n * one) 1

def maxPower : Nat := 308

def tenTo (e : Nat) : Nat := ofNat (Nat.pow 10 e)

/-- The units of a double over ten to a power, in steps that are doubles. -/
def scaleDown (x power : Nat) : Nat :=
  if power ≤ maxPower then div x (tenTo power)
  else if x = 0 then 0
  else scaleDown (div x (tenTo maxPower)) (power - maxPower)
termination_by power
decreasing_by simp only [maxPower] at *; omega

def scale? (x : Nat) : Int → Option Nat
  | .ofNat power =>
    if x = 0 then some 0
    else if maxPower < power then none
    else
      let y := mul x (tenTo power)
      if y < bound then some y else none
  | .negSucc power => some (scaleDown x (power + 1))

def signed (x : Double) : Int := if x.negative then -x.units else x.units

/-- The least whole number that is rounded beyond every finite double. -/
def limit : Nat := Nat.pow 2 1024 - Nat.pow 2 970

def holds (n : Nat) : Int → Bool
  | .ofNat e => n == 0 || (decide (e ≤ maxPower) && decide (n * Nat.pow 10 e < limit))
  | .negSucc e => decide (n / Nat.pow 10 (min (e + 1) (n.log2 + 1)) < limit)

theorem roundQuotient_le (a d : Nat) : 2 * (d * roundQuotient a d) ≤ 2 * a + d := by
  have parts := Nat.div_add_mod a d
  unfold roundQuotient
  dsimp only
  split
  · rw [Nat.mul_add]
    omega
  · omega

theorem le_roundQuotient (a : Nat) {d : Nat} (h : 0 < d) :
    2 * a ≤ 2 * (d * roundQuotient a d) + d := by
  have parts := Nat.div_add_mod a d
  have small := Nat.mod_lt a h
  unfold roundQuotient
  dsimp only
  split
  · rw [Nat.mul_add]
    omega
  · omega

theorem holds_negSucc (n e : Nat) :
    holds n (.negSucc e) = decide (n / Nat.pow 10 (e + 1) < limit) := by
  rw [holds, decide_eq_decide]
  by_cases h : e + 1 ≤ n.log2 + 1
  · rw [Nat.min_eq_left h]
  · have small : n < Nat.pow 10 (n.log2 + 1) :=
      Nat.lt_of_lt_of_le Nat.lt_log2_self (Nat.pow_le_pow_left (by decide) _)
    have smaller : n < Nat.pow 10 (e + 1) :=
      Nat.lt_of_lt_of_le small (Nat.pow_le_pow_right (by decide) (by omega))
    rw [Nat.min_eq_right (by omega), Nat.div_eq_of_lt small, Nat.div_eq_of_lt smaller]

end Double

end ServiceLoom
