/-!
# Brackets

Four kinds of brackets are counted, each on its own: kinds may interleave. A text is balanced when
no kind is ever closed more often than it was opened and every kind ends at zero. `check` reports
the first closing bracket that has nothing to close, and otherwise the first kind left open, in the
order `( [ { <`.
-/

namespace ServiceLoom

inductive Bracket where
  | round
  | square
  | curly
  | angle
  deriving DecidableEq, Repr

namespace Bracket

def opening : Bracket → Char
  | round => '('
  | square => '['
  | curly => '\x7b'
  | angle => '<'

def closing : Bracket → Char
  | round => ')'
  | square => ']'
  | curly => '\x7d'
  | angle => '>'

def all : List Bracket := [round, square, curly, angle]

end Bracket

namespace Brackets

structure Depth where
  round : Nat := 0
  square : Nat := 0
  curly : Nat := 0
  angle : Nat := 0
  deriving DecidableEq, Repr

namespace Depth

def get (d : Depth) : Bracket → Nat
  | .round => d.round
  | .square => d.square
  | .curly => d.curly
  | .angle => d.angle

def set (d : Depth) (n : Nat) : Bracket → Depth
  | .round => { d with round := n }
  | .square => { d with square := n }
  | .curly => { d with curly := n }
  | .angle => { d with angle := n }

@[simp] theorem get_set_self (d : Depth) (n : Nat) (b : Bracket) : (d.set n b).get b = n := by
  cases b <;> rfl

theorem get_set_of_ne (d : Depth) (n : Nat) {a b : Bracket} (h : a ≠ b) :
    (d.set n b).get a = d.get a := by
  cases a <;> cases b <;> first | rfl | exact absurd rfl h

theorem ext_get {d e : Depth} (h : ∀ b, d.get b = e.get b) : d = e := by
  cases d
  cases e
  have hr := h .round
  have hs := h .square
  have hc := h .curly
  have ha := h .angle
  simp only [get] at hr hs hc ha
  subst hr hs hc ha
  rfl

def close? (d : Depth) (b : Bracket) : Option Depth :=
  match d.get b with
  | 0 => none
  | n + 1 => some (d.set n b)

/-- The depth after one more character; none if it closes a bracket that is not open. -/
def feed? (d : Depth) (c : Char) : Option Depth :=
  match Bracket.all.find? (·.opening == c) with
  | some b => some (d.set (d.get b + 1) b)
  | none =>
    match Bracket.all.find? (·.closing == c) with
    | some b => d.close? b
    | none => some d

def firstOpen? (d : Depth) : Option Bracket := Bracket.all.find? (d.get · != 0)

end Depth

inductive Imbalance where
  /-- A closing bracket with nothing to close, at a byte offset. -/
  | unexpectedClose (found : Char) (offset : Nat)
  | unclosed (bracket : Bracket)
  deriving DecidableEq, Repr

def Imbalance.message : Imbalance → String
  | unexpectedClose found offset => s!"unexpected '{found}' at offset {offset}"
  | unclosed bracket => s!"unclosed '{bracket.opening}'"

def checkFrom (offset : Nat) (d : Depth) : List Char → Except Imbalance Unit
  | [] =>
    match d.firstOpen? with
    | some b => .error (.unclosed b)
    | none => .ok ()
  | c :: cs =>
    match d.feed? c with
    | some e => checkFrom (offset + c.utf8Size) e cs
    | none => .error (.unexpectedClose c offset)

def check (s : List Char) : Except Imbalance Unit := checkFrom 0 {} s

def isUnclosed (s : List Char) : Bool :=
  match check s with
  | .error (.unclosed _) => true
  | _ => false

def depth? (s : List Char) : Option Depth := s.foldlM Depth.feed? {}

theorem depth?_append (s t : List Char) :
    depth? (s ++ t) = (depth? s).bind (fun d => t.foldlM Depth.feed? d) := by
  simp [depth?, List.foldlM_append]

end Brackets

end ServiceLoom
