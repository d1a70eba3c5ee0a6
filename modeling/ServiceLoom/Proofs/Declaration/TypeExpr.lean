import ServiceLoom.Declaration.TypeExpr
import ServiceLoom.Proofs.Service.PathTemplate

/-!
# The text of a type expression

Within a text, a type expression is followed by nothing or by the bracket that closes the key of a
map. What is written up to there tells its outermost node, so two type expressions that are written
alike have the same nodes all the way down, provided that names are identifiers.
-/

namespace ServiceLoom.TypeExpr

open PathTemplate

/-- Names are identifiers, of which `func` is none without a package, and lengths are digits. -/
def Regular : TypeExpr → Prop
  | ident name => IsIdentifier name.toList ∧ name ≠ "func"
  | selector package name => IsIdentifier package.toList ∧ IsIdentifier name.toList
  | slice elem => elem.Regular
  | ellipsis elem => elem.Regular
  | map key value => key.Regular ∧ value.Regular
  | star elem => elem.Regular
  | array len elem => (len ≠ "" ∧ ∀ c ∈ len.toList, Text.isAsciiDigit c = true) ∧ elem.Regular
  | chan elem => elem.Regular
  | func => True
  | struct => True
  | interface => True

inductive Head where
  | ident (name : List Char)
  | selector (package name : List Char)
  | slice
  | ellipsis
  | map
  | star
  | array (len : List Char)
  | chan
  | func
  | struct
  | interface

def head : TypeExpr → Head
  | ident name => .ident name.toList
  | selector package name => .selector package.toList name.toList
  | slice _ => .slice
  | ellipsis _ => .ellipsis
  | map _ _ => .map
  | star _ => .star
  | array len _ => .array len.toList
  | chan _ => .chan
  | func => .func
  | struct => .struct
  | interface => .interface

/-- What may stand behind a type expression. -/
def Closes (rest : List Char) : Prop := ∀ c ∈ rest.head?, c = ']'

/-- The node that a word begins, by what follows the word. -/
def headOfWord (word : List Char) : List Char → Head
  | '.' :: rest => .selector word (rest.takeWhile isNameChar)
  | '[' :: _ => .map
  | ' ' :: _ => .chan
  | '\x7b' :: _ => if word = "struct".toList then .struct else .interface
  | _ => if word = "func".toList then .func else .ident word

def headOf : List Char → Head
  | '[' :: ']' :: _ => .slice
  | '[' :: rest => .array (rest.takeWhile (· != ']'))
  | '.' :: _ => .ellipsis
  | '*' :: _ => .star
  | text => headOfWord (text.takeWhile isNameChar) (text.dropWhile isNameChar)

section Stop

variable {α : Type} {p : α → Bool} {body rest : List α}

theorem takeWhile_append_stop (hbody : ∀ a ∈ body, p a = true)
    (hrest : ∀ a ∈ rest.head?, p a = false) : (body ++ rest).takeWhile p = body := by
  rw [List.takeWhile_append_of_pos hbody]
  cases rest with
  | nil => exact List.append_nil body
  | cons a rest => rw [List.takeWhile_cons_of_neg (by simp [hrest a rfl]), List.append_nil]

theorem dropWhile_append_stop (hbody : ∀ a ∈ body, p a = true)
    (hrest : ∀ a ∈ rest.head?, p a = false) : (body ++ rest).dropWhile p = rest := by
  rw [List.dropWhile_append_of_pos hbody]
  cases rest with
  | nil => rfl
  | cons a rest => exact List.dropWhile_cons_of_neg (by simp [hrest a rfl])

end Stop

variable {word rest : List Char}

theorem headOf_word (hword : IsIdentifier word) (hrest : ∀ c ∈ rest.head?, isNameChar c = false) :
    headOf (word ++ rest) = headOfWord word rest := by
  have htake := takeWhile_append_stop hword.chars hrest
  have hdrop := dropWhile_append_stop hword.chars hrest
  obtain ⟨first, hfirst, hstart⟩ := hword.start
  obtain ⟨more, rfl⟩ := List.head?_eq_some_iff.mp hfirst
  rw [headOf]
  · rw [htake, hdrop]
  -- no other pattern begins with a letter or an underscore
  all_goals
    intro _ heq
    obtain ⟨rfl, -⟩ := List.cons.inj heq
    exact absurd hstart (by decide)

theorem Closes.isNameChar (h : Closes rest) : ∀ c ∈ rest.head?, isNameChar c = false := by
  intro c hc
  rw [h c hc]
  decide

theorem headOfWord_closes (word : List Char) (h : Closes rest) :
    headOfWord word rest = if word = "func".toList then .func else .ident word := by
  cases rest with
  | nil => rfl
  | cons c rest =>
    obtain rfl := h c rfl
    rfl

theorem headOf_bracket {len : List Char} (hlen : len ≠ []) (hchars : ∀ c ∈ len, c ≠ ']') :
    headOf ('[' :: (len ++ ']' :: rest)) = .array len := by
  have htake : (len ++ ']' :: rest).takeWhile (· != ']') = len :=
    takeWhile_append_stop (fun c hc => bne_iff_ne.mpr (hchars c hc)) (by simp)
  rw [headOf, htake]
  obtain ⟨first, more, rfl⟩ := List.exists_cons_of_ne_nil hlen
  intro _ heq
  obtain ⟨rfl, -⟩ := List.cons.inj heq
  exact hchars _ List.mem_cons_self rfl

theorem isIdentifier_keyword {word : List Char}
    (h : word ∈ ["map".toList, "chan".toList, "func".toList, "struct".toList, "interface".toList]) :
    IsIdentifier word := by
  have hall : ∀ word ∈ ["map".toList, "chan".toList, "func".toList, "struct".toList,
      "interface".toList], (word.head?.any isNameStart && word.all isNameChar) = true := by decide
  obtain ⟨hstart, hchars⟩ := Bool.and_eq_true_iff.mp (hall word h)
  exact ⟨(Option.any_eq_true _ _).mp hstart, List.all_eq_true.mp hchars⟩

theorem headOf_text {e : TypeExpr} (he : e.Regular) (hrest : Closes rest) :
    headOf (e.text.toList ++ rest) = e.head := by
  cases e with
  | ident name =>
    have hname : name.toList ≠ "func".toList := fun h => he.2 (String.toList_inj.mp h)
    rw [text, headOf_word he.1 hrest.isNameChar, headOfWord_closes _ hrest, if_neg hname, head]
  | selector package name =>
    have htext : (selector package name).text.toList ++ rest =
        package.toList ++ '.' :: (name.toList ++ rest) := by simp [text]
    rw [htext, headOf_word he.1 (by simp; decide), headOfWord,
      takeWhile_append_stop he.2.chars hrest.isNameChar, head]
  | slice elem => simp [text, headOf, head]
  | ellipsis elem => simp [text, headOf, head]
  | map key value =>
    have htext : (map key value).text.toList ++ rest =
        "map".toList ++ '[' :: (key.text.toList ++ ']' :: (value.text.toList ++ rest)) := by
      simp [text]
    rw [htext, headOf_word (isIdentifier_keyword (by simp)) (by simp; decide), headOfWord, head]
  | star elem => simp [text, headOf, head]
  | array len elem =>
    obtain ⟨⟨hne, hdigits⟩, -⟩ := he
    have htext : (array len elem).text.toList ++ rest =
        '[' :: (len.toList ++ ']' :: (elem.text.toList ++ rest)) := by simp [text]
    have hbracket : ∀ c ∈ len.toList, c ≠ ']' := by
      rintro c hc rfl
      exact absurd (hdigits _ hc) (by decide)
    rw [htext, headOf_bracket (mt String.toList_eq_nil_iff.mp hne) hbracket, head]
  | chan elem =>
    have htext : (chan elem).text.toList ++ rest =
        "chan".toList ++ ' ' :: (elem.text.toList ++ rest) := by simp [text]
    rw [htext, headOf_word (isIdentifier_keyword (by simp)) (by simp; decide), headOfWord, head]
  | func =>
    rw [text, headOf_word (isIdentifier_keyword (by simp)) hrest.isNameChar,
      headOfWord_closes _ hrest, if_pos rfl, head]
  | struct =>
    have htext : struct.text.toList ++ rest = "struct".toList ++ '\x7b' :: '\x7d' :: rest := by
      simp [text]
    rw [htext, headOf_word (isIdentifier_keyword (by simp)) (by simp; decide), headOfWord,
      if_pos rfl, head]
  | interface =>
    have htext : interface.text.toList ++ rest =
        "interface".toList ++ '\x7b' :: '\x7d' :: rest := by simp [text]
    rw [htext, headOf_word (isIdentifier_keyword (by simp)) (by simp; decide), headOfWord,
      if_neg (by decide), head]

theorem head_eq_of_append {e f : TypeExpr} {r s : List Char} (he : e.Regular) (hf : f.Regular)
    (hr : Closes r) (hs : Closes s) (h : e.text.toList ++ r = f.text.toList ++ s) :
    e.head = f.head := by
  rw [← headOf_text he hr, h, headOf_text hf hs]

theorem closes_nil : Closes [] := by
  intro c hc
  cases hc

theorem closes_bracket (rest : List Char) : Closes (']' :: rest) := by
  intro c hc
  exact (Option.some.inj hc).symm

/-- What follows is part of the induction, since the key of a map is followed by its value. -/
theorem text_append_inj {e f : TypeExpr} {r s : List Char} (he : e.Regular) (hf : f.Regular)
    (hr : Closes r) (hs : Closes s) (h : e.text.toList ++ r = f.text.toList ++ s) :
    e = f ∧ r = s := by
  induction e generalizing f r s with
  | ident name =>
    have hhead := head_eq_of_append he hf hr hs h
    cases f with
    | ident other =>
      obtain rfl := String.toList_inj.mp (Head.ident.inj hhead)
      exact ⟨rfl, List.append_cancel_left h⟩
    | _ => cases hhead
  | selector package name =>
    have hhead := head_eq_of_append he hf hr hs h
    cases f with
    | selector otherPackage other =>
      obtain ⟨hpackage, hname⟩ := Head.selector.inj hhead
      obtain rfl := String.toList_inj.mp hpackage
      obtain rfl := String.toList_inj.mp hname
      exact ⟨rfl, List.append_cancel_left h⟩
    | _ => cases hhead
  | slice elem ih =>
    have hhead := head_eq_of_append he hf hr hs h
    cases f with
    | slice other =>
      obtain ⟨rfl, hrest⟩ := ih (f := other) he hf hr hs (by simpa [text] using h)
      exact ⟨rfl, hrest⟩
    | _ => cases hhead
  | ellipsis elem ih =>
    have hhead := head_eq_of_append he hf hr hs h
    cases f with
    | ellipsis other =>
      obtain ⟨rfl, hrest⟩ := ih (f := other) he hf hr hs (by simpa [text] using h)
      exact ⟨rfl, hrest⟩
    | _ => cases hhead
  | map key value ihkey ihvalue =>
    have hhead := head_eq_of_append he hf hr hs h
    cases f with
    | map otherKey otherValue =>
      have hkey : key.text.toList ++ ']' :: (value.text.toList ++ r) =
          otherKey.text.toList ++ ']' :: (otherValue.text.toList ++ s) := by simpa [text] using h
      obtain ⟨rfl, hvalue⟩ := ihkey he.1 hf.1 (closes_bracket _) (closes_bracket _) hkey
      obtain ⟨rfl, hrest⟩ := ihvalue he.2 hf.2 hr hs (List.cons.inj hvalue).2
      exact ⟨rfl, hrest⟩
    | _ => cases hhead
  | star elem ih =>
    have hhead := head_eq_of_append he hf hr hs h
    cases f with
    | star other =>
      obtain ⟨rfl, hrest⟩ := ih (f := other) he hf hr hs (by simpa [text] using h)
      exact ⟨rfl, hrest⟩
    | _ => cases hhead
  | array len elem ih =>
    have hhead := head_eq_of_append he hf hr hs h
    cases f with
    | array otherLen other =>
      obtain rfl := String.toList_inj.mp (Head.array.inj hhead)
      obtain ⟨rfl, hrest⟩ := ih he.2 hf.2 hr hs (by simpa [text] using h)
      exact ⟨rfl, hrest⟩
    | _ => cases hhead
  | chan elem ih =>
    have hhead := head_eq_of_append he hf hr hs h
    cases f with
    | chan other =>
      obtain ⟨rfl, hrest⟩ := ih (f := other) he hf hr hs (by simpa [text] using h)
      exact ⟨rfl, hrest⟩
    | _ => cases hhead
  | func =>
    have hhead := head_eq_of_append he hf hr hs h
    cases f <;> cases hhead
    exact ⟨rfl, List.append_cancel_left h⟩
  | struct =>
    have hhead := head_eq_of_append he hf hr hs h
    cases f <;> cases hhead
    exact ⟨rfl, List.append_cancel_left h⟩
  | interface =>
    have hhead := head_eq_of_append he hf hr hs h
    cases f <;> cases hhead
    exact ⟨rfl, List.append_cancel_left h⟩

theorem eq_of_text_eq {e f : TypeExpr} (he : e.Regular) (hf : f.Regular) (h : e.text = f.text) :
    e = f :=
  (text_append_inj he hf closes_nil closes_nil (congrArg (·.toList ++ []) h)).1

end ServiceLoom.TypeExpr
