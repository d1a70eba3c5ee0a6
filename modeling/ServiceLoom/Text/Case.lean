import ServiceLoom.Text.CaseTables

/-!
# Full case mapping

The context-free Unicode case mappings: one character may become several.
-/

namespace ServiceLoom.Text

def isUpperLetter (c : Char) : Bool :=
  if c.toNat < 0x80 then c.isUpper else upperLetters.any (·.has c.toNat)

def isLowerLetter (c : Char) : Bool :=
  if c.toNat < 0x80 then c.isLower else lowerLetters.any (·.has c.toNat)

private def mapped (shifts : List Shift) (expansions : List (Nat × List Nat)) (c : Char) :
    List Char :=
  match expansions.lookup c.toNat with
  | some codes => codes.map Char.ofNat
  | none =>
    match shifts.find? (·.has c.toNat) with
    | some row => [Char.ofNat (c.toNat + row.shift).toNat]
    | none => [c]

def toUpperLetters (c : Char) : List Char :=
  if c.toNat < 0x80 then [c.toUpper] else mapped toUpperShifts toUpperExpansions c

def toLowerLetters (c : Char) : List Char :=
  if c.toNat < 0x80 then [c.toLower] else mapped toLowerShifts toLowerExpansions c

end ServiceLoom.Text
