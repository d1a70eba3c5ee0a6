import ServiceLoom.Template.Segment
import ServiceLoom.Text.Blank

/-!
# Parsing templates

The segments of a text are nested by a stack of open blocks. A block tag, an else, an inclusion, a
definition or a comment that stands alone on its line takes the line with it: the blanks before it
and everything up to the line end after it.
-/

namespace ServiceLoom.Template

inductive OpenKind where
  | helper (opening : Opening)
  | inclusion (inclusion : Inclusion)
  | definition (call : Call)

structure OpenBlock where
  name : Option String
  kind : OpenKind
  outer : List Node
  branches : List (Opening × List Node) := []
  elseOf : Option (List Node) := none

/-- The nodes of the innermost open block, last first, and how the next text is trimmed. -/
structure Assembly where
  nodes : List Node := []
  blocks : List OpenBlock := []
  trimNext : Bool := false
  dropLine : Bool := false

namespace Assembly

def push (node : Node) (a : Assembly) : Assembly := { a with nodes := node :: a.nodes }

def mapLastText (f : List Char → List Char) (a : Assembly) : Assembly :=
  match a.nodes with
  | .text s :: rest => { a with nodes := .text (String.ofList (f s.toList)) :: rest }
  | _ => a

def dropLineStart (s : List Char) : List Char :=
  match s.dropWhile isIndent with
  | '\r' :: '\n' :: rest => rest
  | '\n' :: rest => rest
  | rest => rest

/-- Gaps that are to be trimmed vanish; they leave a line to be dropped as it is. -/
def addText (a : Assembly) (s : List Char) : Assembly :=
  if s.isEmpty then a
  else if a.trimNext then
    if s.all isGap then a
    else { a.push (.text (String.ofList (Text.trimStart s))) with dropLine := false }
  else
    let s := if a.dropLine then dropLineStart s else s
    { a.push (.text (String.ofList s)) with dropLine := false }

def standAlone (place : Place) (a : Assembly) : Assembly :=
  if place.alone then { a.mapLastText dropIndentEnd with dropLine := true }
  else { a with dropLine := false }

def trimAround (t : Tag) (a : Assembly) : Assembly :=
  let a := if t.trimBefore then a.mapLastText Text.trimEnd else a
  { a with trimNext := t.trimAfter }

def openBlock (name : Option String) (kind : OpenKind) (a : Assembly) : Assembly :=
  { a with nodes := [], blocks := { name, kind, outer := a.nodes } :: a.blocks }

def openElse (a : Assembly) : Option Assembly :=
  match a.blocks with
  | block :: rest =>
    match block.kind, block.elseOf with
    | .helper _, none =>
      some { a with nodes := [], blocks := { block with elseOf := a.nodes.reverse } :: rest }
    | _, _ => none
  | [] => none

def openBranch (opening : Opening) (a : Assembly) : Option Assembly :=
  match a.blocks with
  | block :: rest =>
    match block.kind, block.elseOf with
    | .helper old, none =>
      let branches := (old, a.nodes.reverse) :: block.branches
      let block := { block with kind := .helper opening, branches }
      some { a with nodes := [], blocks := block :: rest }
    | _, _ => none
  | [] => none

/-- The block of a chain: each branch is the else part of the one before. -/
def chain (last : Node) : List (Opening × List Node) → Node
  | [] => last
  | (opening, body) :: earlier => chain (.block opening body true [last]) earlier

def OpenBlock.node (block : OpenBlock) (last : List Node) : Node :=
  match block.kind with
  | .helper opening =>
    chain
      (match block.elseOf with
        | some body => .block opening body true last
        | none => .block opening last false [])
      block.branches
  | .inclusion inclusion => .inclusion inclusion last
  | .definition call => .definition call last

/-- Whether the end of a block may have a name. Only that of a helper has to have one. -/
def OpenBlock.endsWith (block : OpenBlock) (name : Option String) : Bool :=
  match name, block.kind with
  | none, .helper _ => false
  | none, _ => true
  | some name, _ => block.name == some name

def closeBlock (name : Option String) (a : Assembly) : Option Assembly :=
  match a.blocks with
  | [] => none
  | block :: rest =>
    if OpenBlock.endsWith block name then
      some { a with nodes := OpenBlock.node block a.nodes.reverse :: block.outer, blocks := rest }
    else none

def takesLine (t : Tag) (place : Place) : Bool := place.alone && !t.trimBefore

def addTag (a : Assembly) (t : Tag) (place : Place) : Option Assembly :=
  let trimmed := a.trimAround t
  let ownLine := takesLine t place
  match t.mark with
  | .print value => some (trimmed.push (.print value))
  | .inline call => some (trimmed.push (.inline call))
  | .opening opening =>
    let kind := .helper { opening with ownLine }
    some ((trimmed.standAlone place).openBlock opening.call.helper kind)
  | .otherwise => (trimmed.standAlone place).openElse
  | .otherwiseBlock opening => (trimmed.standAlone place).openBranch { opening with ownLine }
  | .inclusion inclusion =>
    let indent := if t.trimBefore then "" else place.indent
    some ((trimmed.standAlone place).push (.inclusion { inclusion with indent, ownLine } none))
  | .openInclusion name inclusion =>
    some ((trimmed.standAlone place).openBlock name (.inclusion { inclusion with ownLine }))
  | .definition call => some ((trimmed.standAlone place).push (.definition call none))
  | .openDefinition call =>
    some ((trimmed.standAlone place).openBlock call.helper (.definition call))
  | .closing name => (trimmed.standAlone place).closeBlock name
  | .comment => some ((a.standAlone place).push (.text ""))

def add (a : Assembly) : Segment → Option Assembly
  | .text s => some (a.addText s)
  | .tag t place => a.addTag t place

end Assembly

def parse? (source : String) : Option Template := do
  let s := source.toList
  let segments ← segments? (s.length + 1) true s
  let done ← segments.foldlM Assembly.add {}
  if done.blocks.isEmpty then return done.nodes.reverse else none

end ServiceLoom.Template
