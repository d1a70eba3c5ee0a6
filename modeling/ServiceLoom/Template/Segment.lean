import ServiceLoom.Template.Tag

/-!
# Segments of template text

A template is cut into plain text and tags. A backslash before two braces makes them plain text; of
several backslashes there one is left out, and the braces open a tag. Four braces open a raw block:
nothing up to the next four braces is a tag, and they have to close it.
-/

namespace ServiceLoom.Template

structure Place where
  alone : Bool
  indent : String
  deriving Repr, Inhabited

inductive Segment where
  | text (s : List Char)
  | tag (t : Tag) (place : Place)
  deriving Repr, Inhabited

def isIndent (c : Char) : Bool := c == ' ' || c == '\t'

def stillEmpty (lineEmpty : Bool) (c : Char) : Bool := isLineEnd c || (lineEmpty && isIndent c)

def endsLine (rest : List Char) : Bool :=
  match rest with
  | [] => true
  | _ => (rest.dropWhile isIndent).head?.any isLineEnd

def dropIndentEnd (s : List Char) : List Char := (s.reverse.dropWhile isIndent).reverse

def indentEnd (s : List Char) : List Char := (s.reverse.takeWhile isIndent).reverse

def doubleStart : List Char := ['\x7b', '\x7b']

def quadrupleStart : List Char := doubleStart ++ doubleStart

/-- The text up to some braces, and the rest from them on; `skip` counts the characters that an
escape makes plain text, and `behind` tells whether a backslash stands just before. -/
def textUntil (braces : List Char) : Nat → Bool → List Char → List Char × List Char
  | _, _, [] => ([], [])
  | skip + 1, _, c :: rest =>
    let (text, rest) := textUntil braces skip false rest
    (c :: text, rest)
  | 0, behind, c :: rest =>
    if braces.isPrefixOf (c :: rest) then ([], c :: rest)
    else if c == '\\' && doubleStart.isPrefixOf rest then
      if behind then textUntil braces 0 false rest
      else textUntil braces (if quadrupleStart.isPrefixOf rest then 4 else 2) false rest
    else
      let (text, rest) := textUntil braces 0 (c == '\\') rest
      (c :: text, rest)

def Place.between (lineEmpty : Bool) (text rest : List Char) : Place :=
  ⟨lineEmpty && endsLine rest, String.ofList (indentEnd text)⟩

/-- A raw block after its four opening braces, given the text before it. Gaps at the start of its
text do not count. -/
def rawSegments? (lineEmpty : Bool) (before s : List Char) :
    Option (List Segment × List Char) := do
  let (opening, inner) ← rawOpening? s
  let (text, rest) := textUntil quadrupleStart 0 false (skipGaps inner)
  let closingLine := (inner.takeWhile isGap ++ text).foldl stillEmpty false
  let (closing, rest) ← rawClosing? (rest.drop 4)
  return ([.tag opening (.between lineEmpty before inner), .text text,
    .tag closing (.between closingLine text rest)], rest)

def segments? (steps : Nat) (lineEmpty : Bool) (s : List Char) : Option (List Segment) :=
  match steps with
  | 0 => none
  | steps + 1 =>
    let (text, rest) := textUntil doubleStart 0 false s
    let lineEmpty := text.foldl stillEmpty lineEmpty
    if rest.isEmpty then some [.text text]
    else if quadrupleStart.isPrefixOf rest then do
      let (raw, rest) ← rawSegments? lineEmpty text (rest.drop 4)
      let more ← segments? steps false rest
      return .text text :: raw ++ more
    else do
      let (tag, rest) ← tag? (rest.drop 2)
      let more ← segments? steps false rest
      return .text text :: .tag tag (.between lineEmpty text rest) :: more

end ServiceLoom.Template
