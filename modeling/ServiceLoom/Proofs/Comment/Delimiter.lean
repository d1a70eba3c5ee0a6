import ServiceLoom.Proofs.Comment.Reading

/-!
# Comment delimiters

A text without slashes and stars is read alike in every style of comment, on one line or as a block.
The one exception is a block comment on one line with nothing in it: there the stars that belong to
the opening delimiter take the star of the closing one with them, and its slash is read as prose.
-/

namespace ServiceLoom.Comment

open Text

/-- What may open a comment on its line; both long forms may repeat their last character. -/
inductive Opening where
  | nothing
  | slashes (more : Nat)
  | star
  | block (more : Nat)
  deriving DecidableEq, Repr

namespace Opening

def text : Opening → List Char
  | nothing => []
  | slashes n => '/' :: '/' :: List.replicate n '/'
  | star => ['*']
  | block n => '/' :: '*' :: List.replicate n '*'

def isBlock : Opening → Bool
  | block _ => true
  | _ => false

end Opening

structure Style where
  opening : Opening
  closed : Bool
  deriving DecidableEq, Repr

namespace Style

def closing (style : Style) : List Char := if style.closed then ['*', '/'] else []

def line (style : Style) (t : String) : String :=
  String.ofList (style.opening.text ++ t.toList ++ style.closing)

/-- The stars of the opening delimiter meet the closing delimiter. -/
def Touches (style : Style) (t : String) : Prop :=
  style.opening.isBlock = true ∧ style.closed = true ∧ t = ""

instance (style : Style) (t : String) : Decidable (style.Touches t) :=
  inferInstanceAs (Decidable (_ ∧ _ ∧ _))

end Style

/-- A text in which no delimiter can be found. -/
def Undelimited (t : List Char) : Prop := '/' ∉ t ∧ '*' ∉ t

instance (t : List Char) : Decidable (Undelimited t) :=
  inferInstanceAs (Decidable (_ ∧ _))

theorem Undelimited.of_subset {s t : List Char} (h : Undelimited t) (hst : s ⊆ t) :
    Undelimited s := ⟨fun hs => h.1 (hst hs), fun hs => h.2 (hst hs)⟩

/-! ## One line -/

variable {t u v : List Char} {style : Style}

theorem Opening.trimEnd_text (o : Opening) : trimEnd o.text = o.text := by
  rw [trimEnd_eq_self_iff]
  intro c hc
  have hmem : c ∈ o.text := List.mem_of_getLast? hc
  have hc : c = '/' ∨ c = '*' := by
    cases o <;> simp [text, List.mem_replicate] at hmem <;> grind
  rcases hc with rfl | rfl
  · decide
  · decide

/-- Trimming a line leaves its delimiters and the words of its text. -/
theorem exists_trim_eq (style : Style) (t : List Char) :
    ∃ u, trim (style.opening.text ++ t ++ style.closing) =
        style.opening.text ++ u ++ style.closing ∧
      words u = words t ∧ u ⊆ t ∧ (style.opening.isBlock = true → style.closed = true → u = t) := by
  obtain ⟨opening, closed⟩ := style
  have hstart : ∃ u, trimStart (opening.text ++ t) = opening.text ++ u ∧ words u = words t ∧
      u ⊆ t ∧ (opening.isBlock = true → u = t) := by
    cases opening with
    | nothing =>
      refine ⟨trimStart t, rfl, words_trimStart t, trimStart_subset t, ?_⟩
      intro h
      cases h
    | slashes n => exact ⟨t, trimStart_cons (by decide) _, rfl, List.Subset.refl t, fun _ => rfl⟩
    | star => exact ⟨t, trimStart_cons (by decide) _, rfl, List.Subset.refl t, fun _ => rfl⟩
    | block n => exact ⟨t, trimStart_cons (by decide) _, rfl, List.Subset.refl t, fun _ => rfl⟩
  obtain ⟨u, htrim, hwords, hsub, hblock⟩ := hstart
  cases closed with
  | true =>
    refine ⟨u, ?_, hwords, hsub, fun h _ => hblock h⟩
    change trimEnd (trimStart (opening.text ++ t ++ ['*', '/'])) = opening.text ++ u ++ ['*', '/']
    rw [trimStart_append (by decide), htrim, List.append_cons _ '*' ['/'],
      trimEnd_concat (by decide)]
  | false =>
    refine ⟨trimEnd u, ?_, (words_trimEnd u).trans hwords,
      List.Subset.trans (trimEnd_subset u) hsub, ?_⟩
    · change trimEnd (trimStart (opening.text ++ t ++ [])) = opening.text ++ trimEnd u ++ []
      rw [List.append_nil, List.append_nil, htrim, trimEnd_append opening.trimEnd_text]
    · intro _ h
      cases h

theorem dropOpening_text (o : Opening) (hv : ∀ c ∈ v.head?, c ≠ '/' ∧ c ≠ '*') :
    dropOpening (o.text ++ v) = v := by
  cases v with
  | nil =>
    cases o with
    | nothing => rfl
    | slashes n => simp [dropOpening, Opening.text]
    | star => rfl
    | block n => simp [dropOpening, Opening.text]
  | cons c v =>
    obtain ⟨hslash, hstar⟩ := hv c rfl
    cases o with
    | nothing => simp [dropOpening, Opening.text, hslash, hstar]
    | slashes n => simp [dropOpening, Opening.text, hslash]
    | star => simp [dropOpening, Opening.text, hslash]
    | block n => simp [dropOpening, Opening.text, hstar]

theorem dropOpening_text_closing (o : Opening) :
    dropOpening (o.text ++ ['*', '/']) = if o.isBlock then ['/'] else ['*', '/'] := by
  cases o with
  | nothing => rfl
  | slashes n => simp [dropOpening, Opening.text, Opening.isBlock]
  | star => rfl
  | block n => simp [dropOpening, Opening.text, Opening.isBlock]

theorem dropClosing_closing (v : List Char) : dropClosing (v ++ ['*', '/']) = v := by
  unfold dropClosing
  rw [List.append_cons, trimEnd_concat (by decide)]
  simp

theorem dropClosing_of_noSlash (hv : '/' ∉ v) : dropClosing v = v := by
  unfold dropClosing
  split
  · rename_i rest hreverse
    have hslash : '/' ∈ (trimEnd v).reverse := by simp [hreverse]
    exact absurd (trimEnd_subset v (List.mem_reverse.mp hslash)) hv
  · rfl

theorem Undelimited.head (hu : Undelimited u) : ∀ c ∈ u.head?, c ≠ '/' ∧ c ≠ '*' := by
  intro c hc
  have hmem := List.mem_of_head? hc
  constructor
  · rintro rfl
    exact hu.1 hmem
  · rintro rfl
    exact hu.2 hmem

theorem dropClosing_dropOpening_open (o : Opening) (hu : Undelimited u) :
    dropClosing (dropOpening (o.text ++ u)) = u := by
  rw [dropOpening_text o hu.head, dropClosing_of_noSlash hu.1]

theorem dropClosing_dropOpening_closed (o : Opening) (hu : Undelimited u) :
    dropClosing (dropOpening (o.text ++ (u ++ ['*', '/']))) =
      if o.isBlock = true ∧ u = [] then ['/'] else u := by
  cases u with
  | nil =>
    rw [List.nil_append, dropOpening_text_closing]
    cases o.isBlock with
    | true => decide
    | false => decide
  | cons c u =>
    have hhead : ∀ d ∈ (c :: u ++ ['*', '/']).head?, d ≠ '/' ∧ d ≠ '*' := hu.head
    rw [if_neg (by simp), dropOpening_text o hhead, dropClosing_closing]

theorem lineWords_styled (style : Style) {t : String} (ht : Undelimited t.toList) :
    lineWords (style.line t) = if style.Touches t then [['/']] else words t.toList := by
  obtain ⟨u, htrim, hwords, hsub, hblock⟩ := exists_trim_eq style t.toList
  have hu := ht.of_subset hsub
  rw [lineWords, Style.line, String.toList_ofList, body, htrim, List.append_assoc]
  obtain ⟨opening, closed⟩ := style
  cases closed with
  | false =>
    have hnot : ¬ Style.Touches ⟨opening, false⟩ t := fun h => Bool.false_ne_true h.2.1
    rw [if_neg hnot, ← hwords]
    change words (dropClosing (dropOpening (opening.text ++ (u ++ [])))) = words u
    rw [List.append_nil, dropClosing_dropOpening_open opening hu]
  | true =>
    change words (dropClosing (dropOpening (opening.text ++ (u ++ ['*', '/'])))) = _
    rw [dropClosing_dropOpening_closed opening hu]
    by_cases htouch : Style.Touches ⟨opening, true⟩ t
    · obtain ⟨hopening, -, hempty⟩ := htouch
      have huempty : u = [] := by rw [hblock hopening rfl, hempty, String.toList_empty]
      rw [if_pos ⟨hopening, huempty⟩, if_pos ⟨hopening, rfl, hempty⟩]
      decide
    · have hkeep : ¬ (opening.isBlock = true ∧ u = []) := by
        rintro ⟨hopening, hnil⟩
        have hempty : t.toList = [] := by rw [← hblock hopening rfl, hnil]
        exact htouch ⟨hopening, rfl, String.toList_eq_nil_iff.mp hempty⟩
      rw [if_neg hkeep, if_neg htouch, hwords]

theorem lineWords_plain {t : String} (ht : Undelimited t.toList) :
    lineWords t = words t.toList := by
  have hline : Style.line ⟨.nothing, false⟩ t = t := by
    simp [Style.line, Opening.text, Style.closing]
  have hwords := lineWords_styled ⟨.nothing, false⟩ ht
  rwa [hline, if_neg fun h => Bool.false_ne_true h.2.1] at hwords

/-! ## Blocks -/

def block (texts : List String) : List String := "/**" :: (texts.map (" * " ++ ·) ++ [" */"])

theorem lineWords_blank_append (s : String) : lineWords (" " ++ s) = lineWords s := by
  rw [lineWords, lineWords, body, body, String.toList_append]
  exact congrArg (fun line => words (dropClosing (dropOpening line)))
    (trim_cons_blank (by decide) s.toList)

theorem lineWords_continued {t : String} (ht : Undelimited t.toList) :
    lineWords (" * " ++ t) = lineWords t := by
  have hspaced : (" " ++ t).toList = ' ' :: t.toList := by simp
  have hblank : Undelimited (" " ++ t).toList := by
    rw [hspaced]
    exact ⟨by simpa using ht.1, by simpa using ht.2⟩
  have hline : " * " ++ t = " " ++ Style.line ⟨.star, false⟩ (" " ++ t) := by
    simp [← String.toList_inj, Style.line, Opening.text, Style.closing]
  rw [hline, lineWords_blank_append, lineWords_styled _ hblank,
    if_neg fun h => Bool.false_ne_true h.2.1, hspaced, words_cons_blank (by decide),
    lineWords_plain ht]

theorem flatMap_lineWords_block {texts : List String} (h : ∀ t ∈ texts, Undelimited t.toList) :
    (block texts).flatMap lineWords = texts.flatMap lineWords := by
  have hfirst : lineWords "/**" = [] := by decide
  have hlast : lineWords " */" = [] := by decide
  rw [block, List.flatMap_cons, List.flatMap_append, List.flatMap_singleton, hfirst, hlast,
    List.append_nil, List.nil_append, List.flatMap_map]
  exact List.flatMap_congr fun t ht => lineWords_continued (h t ht)

/-! ## What is read -/

theorem exists_piece_of_mem {ps : List Piece} {token : String}
    (h : token ∈ (ofPieces ps).tags ++ (ofPieces ps).prose) :
    ∃ p ∈ ps, String.ofList p.text = token := by
  rcases List.mem_append.mp h with h | h
  · obtain ⟨p, hp, hpiece⟩ := List.mem_filterMap.mp h
    cases p with
    | tag ws => exact ⟨.tag ws, hp, Option.some.inj hpiece⟩
    | prose ws => cases hpiece
    | dropped => cases hpiece
  · obtain ⟨p, hp, hpiece⟩ := List.mem_filterMap.mp h
    cases p with
    | tag ws => cases hpiece
    | prose ws => exact ⟨.prose ws, hp, Option.some.inj hpiece⟩
    | dropped => cases hpiece

/-- The characters of a token stand in the words, or join them. -/
theorem mem_of_classify {lines : List String} {token : String}
    (h : token ∈ (classify lines).tags ++ (classify lines).prose) {c : Char}
    (hc : c ∈ token.toList) : c = ' ' ∨ ∃ w ∈ lines.flatMap lineWords, c ∈ w := by
  have hreading := reading_pieces (lines.flatMap lineWords)
  rw [classify_eq] at h
  obtain ⟨p, hp, rfl⟩ := exists_piece_of_mem h
  rw [String.toList_ofList] at hc
  rcases mem_joinWith hc with hspace | ⟨w, hw, hc⟩
  · exact Or.inl (List.mem_singleton.mp hspace)
  · refine Or.inr ⟨w, ?_, hc⟩
    rw [← hreading.words_eq]
    exact List.mem_flatMap.mpr ⟨p, hp, hw⟩

theorem undelimited_of_classify {lines : List String}
    (h : ∀ w ∈ lines.flatMap lineWords, Undelimited w) {token : String}
    (htoken : token ∈ (classify lines).tags ++ (classify lines).prose) :
    Undelimited token.toList := by
  constructor
  · intro hslash
    rcases mem_of_classify htoken hslash with hspace | ⟨w, hw, hslash⟩
    · cases hspace
    · exact (h w hw).1 hslash
  · intro hstar
    rcases mem_of_classify htoken hstar with hspace | ⟨w, hw, hstar⟩
    · cases hspace
    · exact (h w hw).2 hstar

theorem undelimited_of_mem_lineWords {t : String} (ht : Undelimited t.toList) {w : List Char}
    (hw : w ∈ lineWords t) : Undelimited w := by
  rw [lineWords_plain ht] at hw
  exact ht.of_subset fun c hc => mem_of_mem_words hw hc

theorem classify_styled (style : Style) {t : String} (ht : Undelimited t.toList) :
    classify [style.line t] = if style.Touches t then ⟨[], ["/"]⟩ else classify [t] := by
  have hwords : [style.line t].flatMap lineWords =
      if style.Touches t then [['/']] else [t].flatMap lineWords := by
    rw [List.flatMap_singleton, List.flatMap_singleton, lineWords_styled style ht,
      lineWords_plain ht]
  rw [classify, hwords]
  split
  · decide
  · rfl

/-- A text on one line is read alike in every style, and no delimiter is read with it, exactly if
the delimiters do not touch; texts in a block are always read as they are without it. -/
theorem classify_delimited_iff {texts : List String} (h : ∀ t ∈ texts, Undelimited t.toList) :
    (∀ t ∈ texts, ∀ style : Style,
      (classify [style.line t] = classify [t] ↔ ¬ style.Touches t) ∧
      ((∀ token ∈ (classify [style.line t]).tags ++ (classify [style.line t]).prose,
        Undelimited token.toList) ↔ ¬ style.Touches t)) ∧
    classify (block texts) = classify texts ∧
    ∀ token ∈ (classify (block texts)).tags ++ (classify (block texts)).prose,
      Undelimited token.toList := by
  have hplain : ∀ lines : List String, (∀ t ∈ lines, Undelimited t.toList) →
      ∀ w ∈ lines.flatMap lineWords, Undelimited w := by
    intro lines hlines w hw
    obtain ⟨t, ht, hw⟩ := List.mem_flatMap.mp hw
    exact undelimited_of_mem_lineWords (hlines t ht) hw
  have hblock : classify (block texts) = classify texts := by
    rw [classify, flatMap_lineWords_block h, classify]
  refine ⟨?_, hblock, ?_⟩
  · intro t ht style
    have hstyled := classify_styled style (h t ht)
    by_cases htouch : style.Touches t
    · rw [if_pos htouch] at hstyled
      have hempty : classify [t] = {} := by
        rw [htouch.2.2]
        decide
      refine ⟨iff_of_false ?_ (not_not_intro htouch), iff_of_false ?_ (not_not_intro htouch)⟩
      · rw [hstyled, hempty]
        decide
      · rw [hstyled]
        decide
    · rw [if_neg htouch] at hstyled
      refine ⟨iff_of_true hstyled htouch, iff_of_true ?_ htouch⟩
      intro token htoken
      rw [hstyled] at htoken
      exact undelimited_of_classify (hplain [t] (by simpa using h t ht)) htoken
  · intro token htoken
    rw [hblock] at htoken
    exact undelimited_of_classify (hplain texts h) htoken

theorem classify_delimited_iff_tracing :
    (∀ t ∈ ["@enable(logging,", "tracing) ## @id (a", ""], Undelimited t.toList) ∧
      classify [Style.line ⟨.block 1, true⟩ "tracing) ## @id (a"] =
        ⟨[], ["tracing)", "@id", "(a"]⟩ ∧
      classify ["/**", " * @enable(logging,", " * tracing) ## @id (a", " * ", " */"] =
        ⟨["@enable(logging, tracing)"], ["@id", "(a"]⟩ := by
  have htexts : ∀ t ∈ ["@enable(logging,", "tracing) ## @id (a", ""], Undelimited t.toList := by
    decide
  have hread := classify_delimited_iff htexts
  have hline := (hread.1 "tracing) ## @id (a" (by simp) ⟨.block 1, true⟩).1.mpr (by decide)
  have hsingle : classify ["tracing) ## @id (a"] = ⟨[], ["tracing)", "@id", "(a"]⟩ := by
    decide +kernel
  have hlist : classify ["@enable(logging,", "tracing) ## @id (a", ""] =
      ⟨["@enable(logging, tracing)"], ["@id", "(a"]⟩ := by decide +kernel
  have hblock : block ["@enable(logging,", "tracing) ## @id (a", ""] =
      ["/**", " * @enable(logging,", " * tracing) ## @id (a", " * ", " */"] := by decide
  rw [← hblock, ← hlist, ← hsingle]
  exact ⟨htexts, hline, hread.2.1⟩

/-- The slash of an empty block comment is read as prose. -/
theorem classify_mistakes_emptyBlock :
    Undelimited "".toList ∧ Style.line ⟨.block 0, true⟩ "" = "/**/" ∧
      classify ["/**/"] = ⟨[], ["/"]⟩ ∧ classify [""] = {} := by
  decide

end ServiceLoom.Comment
