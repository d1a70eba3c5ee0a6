import ServiceLoom.Comment
import ServiceLoom.Proofs.Text.Words

/-!
# Written comments

A comment can be written down item by item: tags, prose, and prose that is escaped because it would
be read as something else. Reading gives the items back, wherever the lines break.
-/

namespace ServiceLoom.Comment

open Text

/-- Words that make up one tag: every first part of them leaves a bracket open, the whole does
not. -/
structure TagWords where
  words : List (List Char)
  isWord : ∀ w ∈ words, IsWord w
  starts : startsTag (joinWith [' '] words) = true
  unclosed : ∀ n < words.length, n ≠ 0 →
    Brackets.isUnclosed (joinWith [' '] (words.take n)) = true
  closed : Brackets.isUnclosed (joinWith [' '] words) = false

def TagWords.token (t : TagWords) : List Char := joinWith [' '] t.words

structure ProseWord where
  word : List Char
  isWord : IsWord word
  noTag : startsTag word = false

inductive Item where
  | tag (t : TagWords)
  | prose (w : ProseWord) (h : w.word ≠ marker)
  | escapedTag (t : TagWords)
  | escapedWord (w : ProseWord)

namespace Item

def words : Item → List (List Char)
  | tag t => t.words
  | prose w _ => [w.word]
  | escapedTag t => marker :: t.words
  | escapedWord w => [marker, w.word]

def tag? : Item → Option String
  | tag t => some (String.ofList t.token)
  | _ => none

def prose? : Item → Option String
  | tag _ => none
  | prose w _ => some (String.ofList w.word)
  | escapedTag t => some (String.ofList t.token)
  | escapedWord w => some (String.ofList w.word)

theorem isWord (i : Item) : ∀ w ∈ i.words, IsWord w := by
  have hmarker : IsWord marker := by decide
  intro w hw
  cases i with
  | tag t => exact t.isWord w hw
  | prose v _ =>
    rw [List.mem_singleton.mp hw]
    exact v.isWord
  | escapedTag t =>
    rcases List.mem_cons.mp hw with rfl | hw
    · exact hmarker
    · exact t.isWord w hw
  | escapedWord v =>
    rcases List.mem_cons.mp hw with rfl | hw
    · exact hmarker
    · rw [List.mem_singleton.mp hw]
      exact v.isWord

end Item

def line (ws : List (List Char)) : String :=
  String.ofList ('/' :: '/' :: ' ' :: joinWith [' '] ws)

/-! ## Lines -/

theorem dropClosing_eq_self {s w : List Char} {c : Char} (hc : isBlank c = true) (hw : IsWord w)
    (hend : ¬ ['*', '/'] <:+ w) : dropClosing (s ++ c :: w) = s ++ c :: w := by
  obtain ⟨u, d, rfl, hd⟩ := hw.exists_concat
  have htrim : trimEnd (s ++ c :: (u ++ [d])) = s ++ c :: (u ++ [d]) := by
    rw [← List.cons_append, ← List.append_assoc, trimEnd_concat hd]
  have hreverse : (s ++ c :: (u ++ [d])).reverse = d :: (u.reverse ++ c :: s.reverse) := by simp
  unfold dropClosing
  rw [htrim, hreverse]
  split
  · -- the star would be the last but one character of the word, or the blank before it
    rename_i rest hrest
    simp only [List.cons.injEq] at hrest
    obtain ⟨rfl, hrest⟩ := hrest
    cases hu : u.reverse with
    | nil =>
      rw [hu] at hrest
      simp only [List.nil_append, List.cons.injEq] at hrest
      rw [hrest.1] at hc
      exact absurd hc (by decide)
    | cons e v =>
      rw [hu] at hrest
      simp only [List.cons_append, List.cons.injEq] at hrest
      rw [hrest.1] at hu
      have hu' : u = v.reverse ++ ['*'] := by rw [← List.reverse_reverse u, hu, List.reverse_cons]
      exact absurd ⟨v.reverse, by simp [hu']⟩ hend
  · rfl

theorem lineWords_line {ws : List (List Char)} (h : ∀ w ∈ ws, IsWord w)
    (hend : ∀ w ∈ ws, ¬ ['*', '/'] <:+ w) : lineWords (line ws) = ws := by
  cases ws using List.reverseRecOn with
  | nil => decide
  | append_singleton ws w =>
    have hw : IsWord w := h w (by simp)
    obtain ⟨u, d, hud, hd⟩ := hw.exists_concat
    have hspaced : ' ' :: joinWith [' '] (ws ++ [w]) = spaced ws ++ ' ' :: w := by
      rw [cons_joinWith (by simp)]
      simp [spaced]
    have htrim : trim ('/' :: '/' :: ' ' :: joinWith [' '] (ws ++ [w])) =
        '/' :: '/' :: ' ' :: joinWith [' '] (ws ++ [w]) := by
      have hlast : '/' :: '/' :: (spaced ws ++ ' ' :: w) =
          ('/' :: '/' :: (spaced ws ++ ' ' :: u)) ++ [d] := by simp [hud]
      rw [trim, trimStart_cons (by decide), hspaced, hlast, trimEnd_concat hd]
    have hopening : dropOpening ('/' :: '/' :: ' ' :: joinWith [' '] (ws ++ [w])) =
        spaced ws ++ ' ' :: w := hspaced
    calc lineWords (line (ws ++ [w]))
      _ = words (body ('/' :: '/' :: ' ' :: joinWith [' '] (ws ++ [w]))) := by
        rw [lineWords, line, String.toList_ofList]
      _ = words (dropClosing (spaced ws ++ ' ' :: w)) := by rw [body, htrim, hopening]
      _ = words (spaced ws ++ ' ' :: w) := by
        rw [dropClosing_eq_self (by decide) hw (hend w (by simp))]
      _ = ws ++ [w] := by rw [← hspaced, cons_joinWith (by simp), words_spaced h]

theorem flatMap_lineWords {lines : List (List (List Char))}
    (h : ∀ w ∈ lines.flatten, IsWord w) (hend : ∀ w ∈ lines.flatten, ¬ ['*', '/'] <:+ w) :
    (lines.map line).flatMap lineWords = lines.flatten := by
  induction lines with
  | nil => rfl
  | cons ws lines ih =>
    rw [List.flatten_cons, List.forall_mem_append] at h hend
    rw [List.map_cons, List.flatMap_cons, List.flatten_cons, lineWords_line h.1 hend.1,
      ih h.2 hend.2]

/-! ## Tokens -/

theorem tokensFrom_word (w : ProseWord) (rest : List (List Char)) :
    tokensFrom none (w.word :: rest) = w.word :: tokensFrom none rest := by
  simp [tokensFrom, w.noTag]

/-- From an open tag on, its further words are taken in up to the last one. -/
theorem tokensFrom_open (t : TagWords) (rest : List (List Char)) {before after : List (List Char)}
    (hwords : t.words = before ++ after) (hbefore : before ≠ []) (hafter : after ≠ []) :
    tokensFrom (some (joinWith [' '] before)) (after ++ rest) =
      t.token :: tokensFrom none rest := by
  induction after generalizing before with
  | nil => exact absurd rfl hafter
  | cons w after ih =>
    rw [List.cons_append, tokensFrom, ← joinWith_concat hbefore]
    cases after with
    | nil =>
      have hclosed := t.closed
      rw [hwords] at hclosed
      simp [hclosed, TagWords.token, hwords]
    | cons v after =>
      have hopen : Brackets.isUnclosed (joinWith [' '] (before ++ [w])) = true := by
        have hsplit : t.words = (before ++ [w]) ++ v :: after := by simp [hwords]
        have hunclosed := t.unclosed (before ++ [w]).length (by simp [hsplit]) (by simp)
        rwa [hsplit, List.take_left] at hunclosed
      rw [if_pos hopen]
      exact ih (by simp [hwords]) (by simp) (by simp)

theorem startsTag_cons (c : Char) (s : List Char) : startsTag (c :: s) = (c == '@') := by
  unfold startsTag
  split
  · rename_i h
    rw [(List.cons.inj h).1, beq_self_eq_true]
  · rename_i h
    exact (beq_eq_false_iff_ne.mpr fun hc => h s (by rw [hc])).symm

theorem startsTag_joinWith {w : List Char} (hw : IsWord w) (ws : List (List Char)) :
    startsTag (joinWith [' '] (w :: ws)) = startsTag w := by
  obtain ⟨c, cs, rfl⟩ := List.exists_cons_of_ne_nil hw.ne_nil
  cases ws with
  | nil => rfl
  | cons v ws => simp [joinWith, startsTag_cons]

theorem tokensFrom_tag (t : TagWords) (rest : List (List Char)) :
    tokensFrom none (t.words ++ rest) = t.token :: tokensFrom none rest := by
  cases hwords : t.words with
  | nil =>
    have hstarts := t.starts
    rw [hwords] at hstarts
    cases hstarts
  | cons w after =>
    have hstarts : startsTag w = true := by
      have hstarts := t.starts
      rwa [hwords, startsTag_joinWith (t.isWord w (by simp [hwords]))] at hstarts
    cases after with
    | nil =>
      have hclosed := t.closed
      rw [hwords] at hclosed
      simp only [joinWith] at hclosed
      simp [tokensFrom, hclosed, TagWords.token, hwords, joinWith]
    | cons v after =>
      have hopen : Brackets.isUnclosed w = true := by
        have hunclosed := t.unclosed 1 (by simp [hwords]) (by simp)
        rw [hwords] at hunclosed
        exact hunclosed
      rw [List.cons_append, tokensFrom, hstarts, hopen]
      have hsplit : t.words = [w] ++ v :: after := hwords
      exact tokensFrom_open t rest hsplit (by simp) (by simp)

/-! ## Items -/

/-- The tokens of an item's words; an escaped item keeps its marker for now. -/
def Item.tokens : Item → List (List Char)
  | tag t => [t.token]
  | prose w _ => [w.word]
  | escapedTag t => [marker, t.token]
  | escapedWord w => [marker, w.word]

theorem tokensFrom_item (i : Item) (rest : List (List Char)) :
    tokensFrom none (i.words ++ rest) = i.tokens ++ tokensFrom none rest := by
  have hmarker : ∀ rest, tokensFrom none (marker :: rest) = marker :: tokensFrom none rest :=
    tokensFrom_word ⟨marker, by decide, by decide⟩
  cases i with
  | tag t => exact tokensFrom_tag t rest
  | prose w _ => exact tokensFrom_word w rest
  | escapedTag t =>
    rw [Item.words, List.cons_append, hmarker, tokensFrom_tag]
    rfl
  | escapedWord w =>
    rw [Item.words, List.cons_append, hmarker, List.singleton_append, tokensFrom_word]
    rfl

theorem ofTokens_cons {token : List Char} (h : token ≠ marker) (rest : List (List Char)) :
    ofTokens (token :: rest) =
      if startsTag token then addTag token (ofTokens rest) else addProse token (ofTokens rest) := by
  rw [ofTokens.eq_def]
  exact if_neg h

theorem ofTokens_item (i : Item) (rest : List (List Char)) :
    ofTokens (i.tokens ++ rest) =
      ⟨i.tag?.toList ++ (ofTokens rest).tags, i.prose?.toList ++ (ofTokens rest).prose⟩ := by
  cases i with
  | tag t =>
    have hstarts : startsTag t.token = true := t.starts
    have hmarker : t.token ≠ marker := by
      intro heq
      rw [heq] at hstarts
      exact absurd hstarts (by decide)
    rw [Item.tokens, List.singleton_append, ofTokens_cons hmarker, if_pos hstarts]
    rfl
  | prose w h =>
    rw [Item.tokens, List.singleton_append, ofTokens_cons h, w.noTag]
    rfl
  | escapedTag t => rfl
  | escapedWord w => rfl

theorem tokens_flatMap (items : List Item) :
    tokens (items.flatMap Item.words) = items.flatMap Item.tokens := by
  induction items with
  | nil => rfl
  | cons i items ih =>
    rw [tokens] at ih ⊢
    rw [List.flatMap_cons, tokensFrom_item, ih, List.flatMap_cons]

theorem ofTokens_flatMap (items : List Item) :
    ofTokens (items.flatMap Item.tokens) =
      ⟨items.filterMap Item.tag?, items.filterMap Item.prose?⟩ := by
  induction items with
  | nil => rfl
  | cons i items ih =>
    rw [List.flatMap_cons, ofTokens_item, ih]
    cases i <;> rfl

/-- Wherever the lines break, the items are read back. -/
theorem classify_written {items : List Item} {lines : List (List (List Char))}
    (hlines : lines.flatten = items.flatMap Item.words)
    (hend : ∀ w ∈ lines.flatten, ¬ ['*', '/'] <:+ w) :
    classify (lines.map line) = ⟨items.filterMap Item.tag?, items.filterMap Item.prose?⟩ := by
  have hwords : ∀ w ∈ lines.flatten, IsWord w := by
    intro w hw
    rw [hlines] at hw
    obtain ⟨i, _, hi⟩ := List.mem_flatMap.mp hw
    exact i.isWord w hi
  rw [classify, flatMap_lineWords hwords hend, hlines, tokens_flatMap, ofTokens_flatMap]

section Manual

def generateWords : TagWords where
  words := ["@generate(logging,".toList, "caching)".toList]
  isWord := by decide
  starts := by decide
  unclosed := by decide
  closed := by decide

def manualItems : List Item :=
  [.prose ⟨"a)".toList, by decide, by decide⟩ (by decide),
    .tag generateWords, .escapedTag generateWords,
    .escapedWord ⟨marker, by decide, by decide⟩,
    .prose ⟨"done.".toList, by decide, by decide⟩ (by decide)]

def manualLines : List (List (List Char)) :=
  [["a)".toList, "@generate(logging,".toList], [],
    ["caching)".toList, marker, "@generate(logging,".toList], ["caching)".toList, marker],
    [marker, "done.".toList]]

theorem classify_written_manual :
    manualLines.flatten = manualItems.flatMap Item.words ∧
      (∀ w ∈ manualLines.flatten, ¬ ['*', '/'] <:+ w) ∧
      classify ["// a) @generate(logging,", "// ", "// caching) ## @generate(logging,",
          "// caching) ##", "// ## done."] =
        ⟨["@generate(logging, caching)"],
          ["a)", "@generate(logging, caching)", "##", "done."]⟩ := by
  have hlines : manualLines.flatten = manualItems.flatMap Item.words := by decide
  have hend : ∀ w ∈ manualLines.flatten, ¬ ['*', '/'] <:+ w := by decide
  have htext : manualLines.map line = ["// a) @generate(logging,", "// ",
      "// caching) ## @generate(logging,", "// caching) ##", "// ## done."] := by decide
  have htags : manualItems.filterMap Item.tag? = ["@generate(logging, caching)"] := by
    decide
  have hprose : manualItems.filterMap Item.prose? =
      ["a)", "@generate(logging, caching)", "##", "done."] := by decide
  rw [← htext, ← htags, ← hprose]
  exact ⟨hlines, hend, classify_written hlines hend⟩

end Manual

end ServiceLoom.Comment
