import ServiceLoom.Brackets
import ServiceLoom.Text.Blank

/-!
# Splitting outside brackets

A separator cuts a text only where everything before it is balanced. A cut leaves the count of open
brackets at zero, and a text that closed a bracket too early is never cut again.
-/

namespace ServiceLoom.Split

open Brackets

def consHead (c : Char) : List (List Char) → List (List Char)
  | [] => [[c]]
  | segment :: segments => (c :: segment) :: segments

/-- `skip` counts the characters of a separator that are still to be passed over. -/
def segmentsFrom (sep : List Char) : Nat → Option Depth → List Char → List (List Char)
  | _, _, [] => [[]]
  | skip + 1, depth, _ :: cs => segmentsFrom sep skip depth cs
  | 0, depth, c :: cs =>
    if depth = some {} ∧ sep.isPrefixOf (c :: cs) = true then
      [] :: segmentsFrom sep (sep.length - 1) depth cs
    else consHead c (segmentsFrom sep 0 (depth.bind (·.feed? c)) cs)

def segments (sep s : List Char) : List (List Char) := segmentsFrom sep 0 (some {}) s

/-- The trimmed pieces that are not empty. An empty separator cuts nowhere. -/
def split (sep s : List Char) : List (List Char) :=
  ((if sep.isEmpty then [s] else segments sep s).map Text.trim).filter (!·.isEmpty)

def onCommas (s : String) : List String := (split [','] s.toList).map String.ofList

theorem consHead_ne_nil (c : Char) (segments : List (List Char)) : consHead c segments ≠ [] := by
  cases segments <;> simp [consHead]

theorem segmentsFrom_ne_nil (sep : List Char) (skip : Nat) (depth : Option Depth)
    (s : List Char) : segmentsFrom sep skip depth s ≠ [] := by
  induction s generalizing skip depth with
  | nil => cases skip <;> simp [segmentsFrom]
  | cons c cs ih =>
    cases skip with
    | succ skip => simpa [segmentsFrom] using ih skip depth
    | zero =>
      unfold segmentsFrom
      split
      · simp
      · exact consHead_ne_nil _ _

end ServiceLoom.Split
