import ServiceLoom.Proofs.Comment.Written

/-!
# Reading a comment in one pass

The words of a comment can be read one after the other. The state keeps the pieces that are finished
and the words of the tag that is still open, so what a word becomes depends on the last piece and on
the open tag only. Where neither reaches further, a comment falls into two that are read on their
own; brackets in prose are no part of the state.
-/

namespace ServiceLoom.Comment

open Text

instance : Append Comment := ⟨fun c d => ⟨c.tags ++ d.tags, c.prose ++ d.prose⟩⟩

theorem append_def (c d : Comment) : c ++ d = ⟨c.tags ++ d.tags, c.prose ++ d.prose⟩ := rfl

theorem append_assoc (c d e : Comment) : c ++ d ++ e = c ++ (d ++ e) := by
  simp [append_def]

theorem append_empty (c : Comment) : c ++ ({} : Comment) = c := by
  simp [append_def]

theorem empty_append (c : Comment) : ({} : Comment) ++ c = c := by
  simp [append_def]

/-- A part of a comment with the words it is made of; a dropped marker is in no list. -/
inductive Piece where
  | tag (words : List (List Char))
  | prose (words : List (List Char))
  | dropped
  deriving DecidableEq, Repr

namespace Piece

def words : Piece → List (List Char)
  | tag ws => ws
  | prose ws => ws
  | dropped => [marker]

def text (p : Piece) : List Char := joinWith [' '] p.words

def tag? : Piece → Option String
  | tag ws => some (String.ofList (joinWith [' '] ws))
  | _ => none

def prose? : Piece → Option String
  | prose ws => some (String.ofList (joinWith [' '] ws))
  | _ => none

def ofToken (before : List Piece) (ws : List (List Char)) : Piece :=
  if before.getLast? = some dropped then prose ws
  else if ws = [marker] then dropped
  else if startsTag (joinWith [' '] ws) then tag ws
  else prose ws

theorem words_ofToken (before : List Piece) (ws : List (List Char)) :
    (ofToken before ws).words = ws := by
  unfold ofToken
  split_ifs with _ hmarker
  · rfl
  · exact hmarker.symm
  · rfl
  · rfl

end Piece

def ofPieces (pieces : List Piece) : Comment :=
  ⟨pieces.filterMap Piece.tag?, pieces.filterMap Piece.prose?⟩

theorem ofPieces_append (ps qs : List Piece) :
    ofPieces (ps ++ qs) = ofPieces ps ++ ofPieces qs := by
  simp [ofPieces, append_def]

structure Scan where
  pieces : List Piece := []
  /-- The words of a tag that is still open. -/
  lead : List (List Char) := []
  deriving DecidableEq, Repr

namespace Scan

def close (s : Scan) (ws : List (List Char)) : Scan :=
  ⟨s.pieces ++ [Piece.ofToken s.pieces ws], []⟩

def isOpen (ws : List (List Char)) : Bool :=
  startsTag (joinWith [' '] ws) && Brackets.isUnclosed (joinWith [' '] ws)

def read (s : Scan) (word : List Char) : Scan :=
  if isOpen (s.lead ++ [word]) then { s with lead := s.lead ++ [word] }
  else s.close (s.lead ++ [word])

def finish (s : Scan) : List Piece :=
  if s.lead = [] then s.pieces else (s.close s.lead).pieces

theorem finish_of_lead_eq_nil {s : Scan} (h : s.lead = []) : s.finish = s.pieces := if_pos h

/-- Whether the last word closes its token or not, it belongs to the last piece. -/
theorem finish_read (s : Scan) (word : List Char) :
    (s.read word).finish = s.pieces ++ [Piece.ofToken s.pieces (s.lead ++ [word])] := by
  unfold read
  split
  · exact if_neg (by simp)
  · rfl

end Scan

def scan (words : List (List Char)) : Scan := words.foldl Scan.read {}

def pieces (words : List (List Char)) : List Piece := (scan words).finish

/-! ## The two passes in one -/

def waiting (pieces : List Piece) : List (List Char) :=
  if pieces.getLast? = some .dropped then [marker] else []

theorem ofTokens_waiting (pieces : List Piece) : ofTokens (waiting pieces) = {} := by
  unfold waiting
  split <;> rfl

theorem startsTag_append {s : List Char} (h : startsTag s = true) (t : List Char) :
    startsTag (s ++ t) = true := by
  cases s with
  | nil => cases h
  | cons c s =>
    rw [startsTag_cons] at h
    rwa [List.cons_append, startsTag_cons]

theorem ne_marker_of_startsTag {s : List Char} (h : startsTag s = true) : s ≠ marker := by
  rintro rfl
  exact absurd h (by decide)

/-- Filing a token now or later comes to the same. -/
theorem ofTokens_close (before : List Piece) {ws : List (List Char)} (rest : List (List Char))
    (hmarker : joinWith [' '] ws = marker → ws = [marker]) :
    ofPieces (before ++ [Piece.ofToken before ws]) ++
        ofTokens (waiting (before ++ [Piece.ofToken before ws]) ++ rest) =
      ofPieces before ++ ofTokens (waiting before ++ joinWith [' '] ws :: rest) := by
  rw [ofPieces_append, append_assoc]
  refine congrArg (ofPieces before ++ ·) ?_
  rw [waiting, List.getLast?_concat, waiting, Piece.ofToken]
  by_cases hlast : before.getLast? = some .dropped
  · rw [if_pos hlast, if_pos hlast]
    rfl
  · rw [if_neg hlast, if_neg hlast]
    by_cases hws : ws = [marker]
    · subst hws
      exact empty_append _
    · rw [if_neg hws, List.nil_append, ofTokens_cons (mt hmarker hws)]
      split
      · rfl
      · rfl

def Scan.open? (s : Scan) : Option (List Char) :=
  if s.lead = [] then none else some (joinWith [' '] s.lead)

/-- Only a tag is ever open. -/
def Scan.Tagged (s : Scan) : Prop := s.lead ≠ [] → startsTag (joinWith [' '] s.lead) = true

theorem Scan.Tagged.concat {s : Scan} (h : s.Tagged) {word : List Char} (hlead : s.lead ≠ []) :
    startsTag (joinWith [' '] (s.lead ++ [word])) = true := by
  rw [joinWith_concat hlead]
  exact startsTag_append (h hlead) _

theorem Scan.tagged_read (s : Scan) (word : List Char) : (s.read word).Tagged := by
  intro hlead
  unfold read at hlead ⊢
  split at hlead
  · rename_i hopen
    rw [if_pos hopen]
    exact (Bool.and_eq_true_iff.mp hopen).1
  · exact absurd rfl hlead

theorem Scan.Tagged.eq_marker {s : Scan} (h : s.Tagged) {word : List Char}
    (hmarker : joinWith [' '] (s.lead ++ [word]) = marker) : s.lead ++ [word] = [marker] := by
  by_cases hlead : s.lead = []
  · rw [hlead] at hmarker ⊢
    exact congrArg ([·]) hmarker
  · exact absurd hmarker (ne_marker_of_startsTag (h.concat hlead))

theorem Scan.Tagged.tokensFrom_open {s : Scan} (h : s.Tagged) (word : List Char)
    (words : List (List Char)) :
    tokensFrom s.open? (word :: words) =
      if isOpen (s.lead ++ [word]) then
        tokensFrom (some (joinWith [' '] (s.lead ++ [word]))) words
      else joinWith [' '] (s.lead ++ [word]) :: tokensFrom none words := by
  by_cases hlead : s.lead = []
  · rw [open?, if_pos hlead, hlead]
    rfl
  · rw [open?, if_neg hlead, tokensFrom, isOpen, h.concat hlead, joinWith_concat hlead,
      Bool.true_and]

theorem ofPieces_foldl_read {s : Scan} (h : s.Tagged) (words : List (List Char)) :
    ofPieces (words.foldl Scan.read s).finish =
      ofPieces s.pieces ++ ofTokens (waiting s.pieces ++ tokensFrom s.open? words) := by
  induction words generalizing s with
  | nil =>
    rw [List.foldl_nil, Scan.finish, Scan.open?]
    by_cases hlead : s.lead = []
    · rw [if_pos hlead, if_pos hlead, tokensFrom, List.append_nil, ofTokens_waiting, append_empty]
    · rw [if_neg hlead, if_neg hlead, tokensFrom]
      have hclose := ofTokens_close s.pieces [] fun hmarker =>
        absurd hmarker (ne_marker_of_startsTag (h hlead))
      rwa [List.append_nil, ofTokens_waiting, append_empty] at hclose
  | cons word words ih =>
    rw [List.foldl_cons, ih (s.tagged_read word), h.tokensFrom_open, Scan.read]
    split
    · rw [Scan.open?, if_neg (by simp)]
    · exact ofTokens_close s.pieces _ h.eq_marker

theorem classify_eq (lines : List String) :
    classify lines = ofPieces (pieces (lines.flatMap lineWords)) := by
  have hstart : Scan.Tagged {} := fun h => absurd rfl h
  rw [pieces, scan, ofPieces_foldl_read hstart]
  exact (empty_append _).symm

/-! ## Where a comment may be cut -/

/-- No tag is open and no marker waits for its token. -/
def Scan.AtRest (s : Scan) : Prop := s.lead = [] ∧ s.pieces.getLast? ≠ some .dropped

instance (s : Scan) : Decidable s.AtRest :=
  inferInstanceAs (Decidable (s.lead = [] ∧ s.pieces.getLast? ≠ some .dropped))

def Scan.after (before : List Piece) (s : Scan) : Scan := ⟨before ++ s.pieces, s.lead⟩

section After

variable {before : List Piece}

theorem ofToken_append (h : before.getLast? ≠ some .dropped) (ps : List Piece)
    (ws : List (List Char)) : Piece.ofToken (before ++ ps) ws = Piece.ofToken ps ws := by
  have hlast : (before ++ ps).getLast? = some .dropped ↔ ps.getLast? = some .dropped := by
    cases ps with
    | nil => simp [h]
    | cons p ps => rw [List.getLast?_append_of_ne_nil before (List.cons_ne_nil p ps)]
  simp only [Piece.ofToken, hlast]

theorem close_after (h : before.getLast? ≠ some .dropped) (s : Scan) (ws : List (List Char)) :
    (s.after before).close ws = (s.close ws).after before := by
  simp [Scan.close, Scan.after, ofToken_append h]

theorem read_after (h : before.getLast? ≠ some .dropped) (s : Scan) (word : List Char) :
    (s.after before).read word = (s.read word).after before := by
  rw [Scan.read, Scan.read, apply_ite (Scan.after before), ← close_after h]
  rfl

theorem foldl_read_after (h : before.getLast? ≠ some .dropped) (words : List (List Char))
    (s : Scan) :
    words.foldl Scan.read (s.after before) = (words.foldl Scan.read s).after before := by
  induction words generalizing s with
  | nil => rfl
  | cons word words ih => rw [List.foldl_cons, List.foldl_cons, read_after h, ih]

theorem finish_after (h : before.getLast? ≠ some .dropped) (s : Scan) :
    (s.after before).finish = before ++ s.finish := by
  rw [Scan.finish, Scan.finish, close_after h, apply_ite (before ++ ·)]
  rfl

end After

theorem pieces_append {A : List (List Char)} (h : (scan A).AtRest) (B : List (List Char)) :
    pieces (A ++ B) = pieces A ++ pieces B := by
  obtain ⟨hlead, hlast⟩ := h
  have hrest : scan A = Scan.after (scan A).pieces {} := by
    rw [Scan.after, ← hlead, List.append_nil]
  rw [pieces, scan, List.foldl_append, ← scan, hrest, foldl_read_after hlast, finish_after hlast,
    pieces, pieces, Scan.finish_of_lead_eq_nil hlead]
  rfl

theorem atRest_of_plain {s : Scan} (h : s.AtRest) {words : List (List Char)}
    (hplain : ∀ w ∈ words, startsTag w = false ∧ w ≠ marker) :
    (words.foldl Scan.read s).AtRest := by
  induction words generalizing s with
  | nil => exact h
  | cons w words ih =>
    rw [List.forall_mem_cons] at hplain
    obtain ⟨⟨htag, hmarker⟩, hplain⟩ := hplain
    obtain ⟨hlead, hlast⟩ := h
    have htoken : Piece.ofToken s.pieces [w] = .prose [w] := by
      simp [Piece.ofToken, hlast, hmarker, joinWith, htag]
    have hread : s.read w = ⟨s.pieces ++ [.prose [w]], []⟩ := by
      simp [Scan.read, Scan.isOpen, Scan.close, hlead, joinWith, htag, htoken]
    rw [List.foldl_cons, hread]
    exact ih ⟨rfl, by simp⟩ hplain

theorem classify_append_of_atRest {A : List String} (h : (scan (A.flatMap lineWords)).AtRest)
    (B : List String) : classify (A ++ B) = classify A ++ classify B := by
  rw [classify_eq, List.flatMap_append, pieces_append h, ofPieces_append, classify_eq, classify_eq]

theorem scan_concat (words : List (List Char)) (word : List Char) :
    scan (words ++ [word]) = (scan words).read word := by
  rw [scan, List.foldl_append]
  rfl

theorem tagged_scan (words : List (List Char)) : (scan words).Tagged := by
  cases words using List.reverseRecOn with
  | nil => exact fun h => absurd rfl h
  | append_singleton words word =>
    rw [scan_concat]
    exact Scan.tagged_read _ word

def size (c : Comment) : Nat := c.tags.length + c.prose.length

theorem size_append (c d : Comment) : (c ++ d).size = c.size + d.size := by
  simp only [size, append_def, List.length_append]
  omega

theorem size_ofToken (before : List Piece) {ws : List (List Char)}
    (h : startsTag (joinWith [' '] ws) = true) :
    (ofPieces [Piece.ofToken before ws]).size = 1 := by
  have hmarker : ws ≠ [marker] := by
    rintro rfl
    exact absurd h (by decide)
  unfold Piece.ofToken
  rw [if_neg hmarker, if_pos h]
  split
  · rfl
  · rfl

/-- Whatever is not at rest reaches into some line after it. -/
theorem atRest_of_classify_append {A : List String}
    (h : ∀ B, classify (A ++ B) = classify A ++ classify B) :
    (scan (A.flatMap lineWords)).AtRest := by
  have htagged := tagged_scan (A.flatMap lineWords)
  have hA := classify_eq A
  rw [pieces] at hA
  generalize hs : scan (A.flatMap lineWords) = s at htagged hA
  have hnext : ∀ {line : String} {w : List Char}, lineWords line = [w] →
      classify (A ++ [line]) =
        ofPieces s.pieces ++ ofPieces [Piece.ofToken s.pieces (s.lead ++ [w])] := by
    intro line w hline
    rw [classify_eq, List.flatMap_append, List.flatMap_cons, hline, pieces]
    change ofPieces (scan (A.flatMap lineWords ++ [w])).finish = _
    rw [scan_concat, hs, Scan.finish_read, ofPieces_append]
  -- an open tag takes in a word of prose, so that nothing is added
  have hlead : s.lead = [] := by
    by_contra hlead
    have hword : classify ["x"] = ⟨[], ["x"]⟩ := by decide
    have hsize := congrArg size (h ["x"])
    rw [hnext (w := ['x']) (by decide), hA, Scan.finish, if_neg hlead, Scan.close,
      ofPieces_append, hword, size_append, size_append, size_append,
      size_ofToken _ (htagged.concat hlead), size_ofToken _ (htagged hlead)] at hsize
    simp [size] at hsize
  -- a marker that waits turns a tag into prose, so that no tag is added
  refine ⟨hlead, fun hlast => ?_⟩
  have htag : classify ["@x"] = ⟨["@x"], []⟩ := by decide
  have hnone : ofPieces [Piece.ofToken s.pieces (s.lead ++ [['@', 'x']])] = ⟨[], ["@x"]⟩ := by
    rw [Piece.ofToken, if_pos hlast, hlead]
    rfl
  have htags := congrArg Comment.tags (h ["@x"])
  rw [hnext (w := ['@', 'x']) (by decide), hA, Scan.finish_of_lead_eq_nil hlead, hnone,
    htag] at htags
  simp [append_def] at htags

/-- A comment may be cut exactly where no tag is open and no marker waits; so prose without tags and
markers never changes how the lines after it are read, whatever brackets it holds. -/
theorem classify_append_iff (A : List String) :
    ((∀ B, classify (A ++ B) = classify A ++ classify B) ↔
      (scan (A.flatMap lineWords)).AtRest) ∧
    ((∀ w ∈ A.flatMap lineWords, startsTag w = false ∧ w ≠ marker) →
      ∀ B, classify (A ++ B) = classify A ++ classify B) := by
  constructor
  · exact ⟨atRest_of_classify_append, classify_append_of_atRest⟩
  · intro hplain
    have hstart : Scan.AtRest {} := by decide
    exact classify_append_of_atRest (atRest_of_plain hstart hplain)

theorem classify_append_iff_brackets :
    (scan (["// @alias(x)) id -> (name,", "// ## @main ["].flatMap lineWords)).AtRest ∧
      (∀ B, classify (["// @alias(x)) id -> (name,", "// ## @main ["] ++ B) =
        ⟨["@alias(x))"], ["id", "->", "(name,", "@main", "["]⟩ ++ classify B) ∧
      (∀ w ∈ ["// Maps id -> [name, <a", "// b) or (c."].flatMap lineWords,
        startsTag w = false ∧ w ≠ marker) ∧
      ∀ B, classify (["// Maps id -> [name, <a", "// b) or (c."] ++ B) =
        ⟨[], ["Maps", "id", "->", "[name,", "<a", "b)", "or", "(c."]⟩ ++ classify B := by
  have hrest : (scan (["// @alias(x)) id -> (name,",
      "// ## @main ["].flatMap lineWords)).AtRest := by decide
  have htags : classify ["// @alias(x)) id -> (name,", "// ## @main ["] =
      ⟨["@alias(x))"], ["id", "->", "(name,", "@main", "["]⟩ := by decide +kernel
  have hplain : ∀ w ∈ ["// Maps id -> [name, <a", "// b) or (c."].flatMap lineWords,
      startsTag w = false ∧ w ≠ marker := by decide
  have hprose : classify ["// Maps id -> [name, <a", "// b) or (c."] =
      ⟨[], ["Maps", "id", "->", "[name,", "<a", "b)", "or", "(c."]⟩ := by decide +kernel
  rw [← htags, ← hprose]
  exact ⟨hrest, (classify_append_iff _).1.mpr hrest, hplain, (classify_append_iff _).2 hplain⟩

end ServiceLoom.Comment
