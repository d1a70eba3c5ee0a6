import ServiceLoom.Brackets
import ServiceLoom.Text.Blank

/-!
# Documentation comments

A comment is read as words. A word that starts with `@` opens a tag, which takes in further words
while a bracket in it is open; every other word is a token of its own, whatever brackets it holds.
The marker `##` turns the token after it into prose. Prose is wrapped greedily.
-/

namespace ServiceLoom

structure Comment where
  tags : List String := []
  prose : List String := []
  deriving DecidableEq, Repr

namespace Comment

def marker : List Char := ['#', '#']

/-- The columns prose is wrapped to. -/
def width : Nat := 80

def dropOpening (line : List Char) : List Char :=
  match line with
  | '/' :: '/' :: rest => rest.dropWhile (· == '/')
  | '/' :: '*' :: rest => rest.dropWhile (· == '*')
  | '*' :: '/' :: _ => line
  | '*' :: rest => rest
  | _ => line

def dropClosing (line : List Char) : List Char :=
  match (Text.trimEnd line).reverse with
  | '/' :: '*' :: rest => rest.reverse
  | _ => line

def body (line : List Char) : List Char := dropClosing (dropOpening (Text.trim line))

def lineWords (line : String) : List (List Char) := Text.words (body line.toList)

def startsTag : List Char → Bool
  | '@' :: _ => true
  | _ => false

/-- The tokens of a word list, given the tag that is still open before it. A tag left open at the
end is kept as it is. -/
def tokensFrom : Option (List Char) → List (List Char) → List (List Char)
  | none, [] => []
  | some tag, [] => [tag]
  | none, word :: words =>
    if startsTag word && Brackets.isUnclosed word then tokensFrom (some word) words
    else word :: tokensFrom none words
  | some tag, word :: words =>
    let tag := tag ++ ' ' :: word
    if Brackets.isUnclosed tag then tokensFrom (some tag) words
    else tag :: tokensFrom none words

def tokens (words : List (List Char)) : List (List Char) := tokensFrom none words

def addTag (tag : List Char) (c : Comment) : Comment :=
  { c with tags := String.ofList tag :: c.tags }

def addProse (word : List Char) (c : Comment) : Comment :=
  { c with prose := String.ofList word :: c.prose }

/-- A marker without a token after it is dropped. -/
def ofTokens : List (List Char) → Comment
  | [] => {}
  | token :: rest =>
    if token = marker then
      match rest with
      | [] => {}
      | escaped :: rest => addProse escaped (ofTokens rest)
    else if startsTag token then addTag token (ofTokens rest)
    else addProse token (ofTokens rest)

def classify (lines : List String) : Comment := ofTokens (tokens (lines.flatMap lineWords))

/-- Lines of tokens in order; `line` is the line being filled. A line without characters takes any
token, and is not written. -/
def wrapFrom (width : Nat) (line : List Char) : List (List Char) → List (List Char)
  | [] => if line.isEmpty then [] else [line]
  | token :: rest =>
    if line.isEmpty then wrapFrom width token rest
    else if line.length + 1 + token.length ≤ width then
      wrapFrom width (line ++ ' ' :: token) rest
    else line :: wrapFrom width token rest

def wrap (width : Nat) (tokens : List String) : List String :=
  (wrapFrom width [] (tokens.map String.toList)).map String.ofList

def docs (c : Comment) : List String := wrap width c.prose

end Comment

end ServiceLoom
