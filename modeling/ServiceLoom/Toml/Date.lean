/-!
# Dates and times of TOML

A day, a time of day, or both with an optional offset. Days are those of the calendar, the seconds
of a time may be left out, and a minute may have a leap second.
-/

namespace ServiceLoom.Toml.Reader

def isLeapYear (year : Nat) : Bool := year % 4 == 0 && (year % 100 != 0 || year % 400 == 0)

def daysOfMonth (year month : Nat) : Nat :=
  if month = 2 then if isLeapYear year then 29 else 28
  else if month = 4 ∨ month = 6 ∨ month = 9 ∨ month = 11 then 30
  else 31

/-- The number that so many digits in front make, and the text after them. -/
def fixed? (count : Nat) (s : List Char) : Option (Nat × List Char) :=
  let digits := s.take count
  if digits.length = count ∧ digits.all Char.isDigit then
    some (digits.foldl (fun n d => 10 * n + (d.toNat - 48)) 0, s.drop count)
  else none

def after? (marks : List Char) (s : List Char) : Option (List Char) :=
  match s with
  | c :: rest => if c ∈ marks then some rest else none
  | [] => none

def day? (s : List Char) : Option (List Char) := do
  let (year, s) ← fixed? 4 s
  let (month, s) ← fixed? 2 (← after? ['-'] s)
  let (day, s) ← fixed? 2 (← after? ['-'] s)
  if 1 ≤ month ∧ month ≤ 12 ∧ 1 ≤ day ∧ day ≤ daysOfMonth year month then return s else none

def minutes? (s : List Char) : Option (List Char) := do
  let (hour, s) ← fixed? 2 s
  let (minute, s) ← fixed? 2 (← after? [':'] s)
  if hour ≤ 23 ∧ minute ≤ 59 then return s else none

def fraction? (s : List Char) : Option (List Char) :=
  match s with
  | '.' :: rest =>
    match rest.span Char.isDigit with
    | ([], _) => none
    | (_, rest) => some rest
  | _ => some s

def time? (s : List Char) : Option (List Char) := do
  let s ← minutes? s
  match s with
  | ':' :: rest =>
    let (second, rest) ← fixed? 2 rest
    if second ≤ 60 then fraction? rest else none
  | _ => return s

def offset? (s : List Char) : Option (List Char) :=
  match s with
  | c :: rest =>
    if c == 'Z' || c == 'z' then some rest
    else if c == '+' || c == '-' then minutes? rest
    else some s
  | [] => some []

/-- The text after a day, after a time, or after both; an offset follows only both. -/
def moment? (s : List Char) : Option (List Char) :=
  match day? s with
  | none => time? s
  | some [] => some []
  | some rest => do offset? (← time? (← after? ['T', 't', ' '] rest))

def isDate (s : List Char) : Bool := moment? s == some []

end ServiceLoom.Toml.Reader
