import ServiceLoom.Proofs.Comment.Scan

/-!
# What a comment is read as

The words of a comment are cut into pieces: tags, prose, and markers that are dropped. No word is
lost, doubled or moved, and the rules for the pieces leave only one way to cut. The tags and the
prose of a comment are those of its pieces.
-/

namespace ServiceLoom.Comment

open Text Brackets

/-- Words that one token can be made of. -/
structure IsToken (ws : List (List Char)) : Prop where
  ne_nil : ws ≠ []
  starts : 1 < ws.length → startsTag (joinWith [' '] ws) = true
  unclosed : ∀ n < ws.length, n ≠ 0 → isUnclosed (joinWith [' '] (ws.take n)) = true

theorem IsToken.eq_marker {ws : List (List Char)} (h : IsToken ws)
    (hmarker : joinWith [' '] ws = marker) : ws = [marker] := by
  match ws with
  | [] => exact absurd rfl h.ne_nil
  | [w] => exact congrArg ([·]) hmarker
  | w :: v :: ws =>
    exact absurd hmarker (ne_marker_of_startsTag (h.starts (by simp)))

/-- Pieces that may stand in this order. -/
structure Arranged (pieces : List Piece) : Prop where
  isToken : ∀ p ∈ pieces, IsToken p.words
  starts : ∀ ws, .tag ws ∈ pieces → startsTag (joinWith [' '] ws) = true
  /-- What follows a dropped marker is prose. -/
  followed : ∀ before p after, pieces = before ++ .dropped :: p :: after → ∃ ws, p = .prose ws
  /-- Prose that looks like a tag or a marker follows a dropped marker. -/
  escaped : ∀ before ws after, pieces = before ++ .prose ws :: after →
    startsTag (joinWith [' '] ws) = true ∨ joinWith [' '] ws = marker →
    before.getLast? = some .dropped

/-- The words are cut into the pieces, and only the last piece may be a tag that is not closed. -/
structure Reading (words : List (List Char)) (pieces : List Piece) : Prop extends
    Arranged pieces where
  words_eq : pieces.flatMap Piece.words = words
  closed : ∀ p ∈ pieces.dropLast, startsTag p.text = true → isUnclosed p.text = false

/-! ## The pieces that are read -/

theorem arranged_nil : Arranged [] where
  isToken p hp := by cases hp
  starts ws h := by cases h
  followed before p after h := by simp at h
  escaped before ws after h := by simp at h

theorem concat_eq_append_cons_iff {α : Type} {ps before after : List α} {p q : α} :
    ps ++ [p] = before ++ q :: after ↔
      (before = ps ∧ q = p ∧ after = []) ∨
        ∃ rest, after = rest ++ [p] ∧ ps = before ++ q :: rest := by
  cases after using List.reverseRecOn with
  | nil =>
    constructor
    · intro h
      have hparts := List.append_inj' h rfl
      exact Or.inl ⟨hparts.1.symm, (List.singleton_inj.mp hparts.2).symm, rfl⟩
    · rintro (⟨rfl, rfl, -⟩ | ⟨rest, h, -⟩)
      · rfl
      · simp at h
  | append_singleton rest r =>
    rw [← List.cons_append, ← List.append_assoc]
    constructor
    · intro h
      have hparts := List.append_inj' h rfl
      exact Or.inr ⟨rest, by rw [hparts.2], hparts.1⟩
    · rintro (⟨-, -, h⟩ | ⟨rest', h, rfl⟩)
      · simp at h
      · have hparts := List.append_inj' h rfl
        rw [hparts.1, hparts.2]

theorem Arranged.concat {ps : List Piece} (h : Arranged ps) {ws : List (List Char)}
    (hws : IsToken ws) : Arranged (ps ++ [Piece.ofToken ps ws]) where
  isToken p hp := by
    rcases List.mem_append.mp hp with hp | hp
    · exact h.isToken p hp
    · rw [List.mem_singleton.mp hp, Piece.words_ofToken]
      exact hws
  starts vs hvs := by
    rcases List.mem_append.mp hvs with hvs | hvs
    · exact h.starts vs hvs
    · have htag := List.mem_singleton.mp hvs
      unfold Piece.ofToken at htag
      split_ifs at htag with _ _ hstarts
      obtain rfl := Piece.tag.inj htag
      exact hstarts
  followed before p after heq := by
    rw [List.append_cons before] at heq
    rcases concat_eq_append_cons_iff.mp heq with ⟨hbefore, rfl, -⟩ | ⟨rest, -, hps⟩
    · have hlast : ps.getLast? = some .dropped := by simp [← hbefore]
      exact ⟨ws, by rw [Piece.ofToken, if_pos hlast]⟩
    · exact h.followed before p rest (by simpa using hps)
  escaped before vs after heq hvs := by
    rcases concat_eq_append_cons_iff.mp heq with ⟨rfl, hprose, -⟩ | ⟨rest, -, hps⟩
    · -- of what looks like a tag or a marker only the first rule makes prose
      unfold Piece.ofToken at hprose
      split_ifs at hprose with hlast hmarker hstarts
      · exact hlast
      · obtain rfl := Piece.prose.inj hprose
        rcases hvs with hvs | hvs
        · exact absurd hvs hstarts
        · exact absurd (hws.eq_marker hvs) hmarker
    · exact h.escaped before vs rest hps hvs

structure Scan.Sound (words : List (List Char)) (s : Scan) : Prop where
  arranged : Arranged s.pieces
  words_eq : s.pieces.flatMap Piece.words ++ s.lead = words
  closed : ∀ p ∈ s.pieces, startsTag p.text = true → isUnclosed p.text = false
  opened : ∀ n ≤ s.lead.length, n ≠ 0 → isOpen (s.lead.take n) = true

theorem Scan.sound_start : Scan.Sound [] {} where
  arranged := arranged_nil
  words_eq := rfl
  closed p hp := by cases hp
  opened n hn hne := absurd (Nat.le_zero.mp hn) hne

variable {words : List (List Char)} {s : Scan}

theorem Scan.Sound.tagged (h : s.Sound words) : s.Tagged := by
  intro hlead
  have hopen := h.opened s.lead.length (Nat.le_refl _) (mt List.length_eq_zero_iff.mp hlead)
  rw [List.take_length] at hopen
  exact (Bool.and_eq_true_iff.mp hopen).1

theorem Scan.Sound.isToken (h : s.Sound words) (hlead : s.lead ≠ []) : IsToken s.lead where
  ne_nil := hlead
  starts _ := h.tagged hlead
  unclosed n hn hne := (Bool.and_eq_true_iff.mp (h.opened n (Nat.le_of_lt hn) hne)).2

theorem Scan.Sound.isToken_concat (h : s.Sound words) (word : List Char) :
    IsToken (s.lead ++ [word]) where
  ne_nil := by simp
  starts hlength := by
    have hlead : s.lead ≠ [] := by
      intro hnil
      simp [hnil] at hlength
    exact h.tagged.concat hlead
  unclosed n hn hne := by
    rw [List.length_append, List.length_singleton] at hn
    rw [List.take_append_of_le_length (by omega)]
    exact (Bool.and_eq_true_iff.mp (h.opened n (by omega) hne)).2

/-- One word either stays in the open tag or ends a piece. -/
theorem Scan.Sound.read (h : s.Sound words) (word : List Char) :
    (s.read word).Sound (words ++ [word]) := by
  unfold Scan.read
  split
  · rename_i hopen
    refine ⟨h.arranged, ?_, h.closed, ?_⟩
    · rw [← List.append_assoc, h.words_eq]
    · intro n hn hne
      rcases Nat.lt_or_ge s.lead.length n with hlt | hle
      · rw [List.take_of_length_le (by rw [List.length_append, List.length_singleton]; omega)]
        exact hopen
      · rw [List.take_append_of_le_length hle]
        exact h.opened n hle hne
  · rename_i hclosed
    refine ⟨h.arranged.concat (h.isToken_concat word), ?_, ?_, ?_⟩
    · simp only [Scan.close, List.flatMap_append, List.flatMap_singleton, Piece.words_ofToken,
        List.append_nil]
      rw [← List.append_assoc, h.words_eq]
    · intro p hp hstarts
      rcases List.mem_append.mp hp with hp | hp
      · exact h.closed p hp hstarts
      · rw [List.mem_singleton.mp hp, Piece.text, Piece.words_ofToken] at hstarts ⊢
        rw [Scan.isOpen, hstarts, Bool.true_and] at hclosed
        exact eq_false_of_ne_true hclosed
    · intro n hn hne
      exact absurd (Nat.le_zero.mp hn) hne

theorem sound_scan (words : List (List Char)) : (scan words).Sound words := by
  induction words using List.reverseRecOn with
  | nil => exact Scan.sound_start
  | append_singleton words word ih =>
    rw [scan_concat]
    exact ih.read word

theorem reading_pieces (words : List (List Char)) : Reading words (pieces words) := by
  have h := sound_scan words
  have hwords := h.words_eq
  unfold pieces Scan.finish
  split
  · rename_i hlead
    rw [hlead, List.append_nil] at hwords
    exact ⟨h.arranged, hwords, fun p hp => h.closed p (List.dropLast_subset _ hp)⟩
  · rename_i hlead
    refine ⟨h.arranged.concat (h.isToken hlead), ?_, ?_⟩
    · simpa [Scan.close, Piece.words_ofToken] using hwords
    · intro p hp
      rw [Scan.close, List.dropLast_concat] at hp
      exact h.closed p hp

/-! ## There is no other way to cut -/

variable {before ps qs : List Piece} {p q : Piece}

/-- Its words and what stands before it determine a piece. -/
theorem Arranged.eq_ofToken (h : Arranged (before ++ p :: ps)) :
    p = Piece.ofToken before p.words := by
  unfold Piece.ofToken
  split_ifs with hlast hmarker hstarts
  · obtain ⟨first, hfirst⟩ := List.getLast?_eq_some_iff.mp hlast
    obtain ⟨ws, rfl⟩ := h.followed first p ps (by simp [hfirst])
    rfl
  · cases p with
    | tag ws =>
      obtain rfl : ws = [marker] := hmarker
      exact absurd (h.starts [marker] (by simp)) (by decide)
    | prose ws =>
      obtain rfl : ws = [marker] := hmarker
      exact absurd (h.escaped before [marker] ps rfl (Or.inr rfl)) hlast
    | dropped => rfl
  · cases p with
    | tag ws => rfl
    | prose ws => exact absurd (h.escaped before ws ps rfl (Or.inl hstarts)) hlast
    | dropped => exact absurd rfl hmarker
  · cases p with
    | tag ws => exact absurd (h.starts ws (by simp)) hstarts
    | prose ws => rfl
    | dropped => exact absurd rfl hmarker

theorem IsToken.isOpen_take {ws : List (List Char)} (h : IsToken ws) (hword : ∀ w ∈ ws, IsWord w)
    {n : Nat} (hn : n < ws.length) (hne : n ≠ 0) : Scan.isOpen (ws.take n) = true := by
  have hunclosed := h.unclosed n hn hne
  obtain ⟨w, rest, rfl⟩ := List.exists_cons_of_ne_nil h.ne_nil
  obtain ⟨m, rfl⟩ := Nat.exists_eq_succ_of_ne_zero hne
  have hw := hword w (by simp)
  have hstarts := h.starts (by omega)
  rw [startsTag_joinWith hw] at hstarts
  rw [Scan.isOpen, hunclosed, Bool.and_true, List.take_succ_cons, startsTag_joinWith hw, hstarts]

theorem Reading.isWord (h : Reading words ps) (hword : ∀ w ∈ words, IsWord w) (hp : p ∈ ps) :
    ∀ w ∈ p.words, IsWord w := by
  intro w hw
  apply hword w
  rw [← h.words_eq]
  exact List.mem_flatMap.mpr ⟨p, hp, hw⟩

theorem Reading.flatMap_eq (hp : Reading words (before ++ ps)) (hq : Reading words (before ++ qs)) :
    ps.flatMap Piece.words = qs.flatMap Piece.words := by
  have heq := hp.words_eq.trans hq.words_eq.symm
  rwa [List.flatMap_append, List.flatMap_append, List.append_cancel_left_eq] at heq

/-- A piece that ends within another token would be an open tag with pieces after it. -/
theorem Reading.length_le (h : Reading words (before ++ p :: ps)) {ws rest : List (List Char)}
    (hws : IsToken ws) (hword : ∀ w ∈ ws, IsWord w)
    (heq : p.words ++ ps.flatMap Piece.words = ws ++ rest) : ws.length ≤ p.words.length := by
  by_contra hlong
  rw [Nat.not_le] at hlong
  have hne : p.words ≠ [] := (h.isToken p (by simp)).ne_nil
  have hlead : p.words = ws.take p.words.length := by
    have htake := congrArg (List.take p.words.length) heq
    rwa [List.take_left, List.take_append_of_le_length (Nat.le_of_lt hlong)] at htake
  have hopen : Scan.isOpen p.words = true := by
    rw [hlead]
    exact hws.isOpen_take hword hlong (mt List.length_eq_zero_iff.mp hne)
  cases ps with
  | nil =>
    have hlength := congrArg List.length heq
    rw [List.flatMap_nil, List.append_nil, List.length_append] at hlength
    omega
  | cons r ps =>
    obtain ⟨hstarts, hunclosed⟩ := Bool.and_eq_true_iff.mp hopen
    have hclosed := h.closed p (by simp) hstarts
    rw [Piece.text, hunclosed] at hclosed
    cases hclosed

theorem Reading.eq_of_append (hp : Reading words (before ++ ps)) (hword : ∀ w ∈ words, IsWord w)
    (hq : Reading words (before ++ qs)) : ps = qs := by
  induction ps generalizing before qs with
  | nil =>
    have hrest := hp.flatMap_eq hq
    cases qs with
    | nil => rfl
    | cons q qs => simp [(hq.isToken q (by simp)).ne_nil] at hrest
  | cons p ps ih =>
    have hrest := hp.flatMap_eq hq
    cases qs with
    | nil => simp [(hp.isToken p (by simp)).ne_nil] at hrest
    | cons q qs =>
      rw [List.flatMap_cons, List.flatMap_cons] at hrest
      have hqp := hp.length_le (hq.isToken q (by simp)) (hq.isWord hword (by simp)) hrest
      have hpq := hq.length_le (hp.isToken p (by simp)) (hp.isWord hword (by simp)) hrest.symm
      have hwords : p.words = q.words := List.append_inj_left hrest (Nat.le_antisymm hpq hqp)
      obtain rfl : p = q := by
        rw [hp.toArranged.eq_ofToken, hq.toArranged.eq_ofToken, hwords]
      have hp' : Reading words ((before ++ [p]) ++ ps) := by simpa using hp
      have hq' : Reading words ((before ++ [p]) ++ qs) := by simpa using hq
      rw [ih hp' hq']

/-! ## Comments -/

theorem isWord_of_mem_flatMap {lines : List String} {w : List Char}
    (h : w ∈ lines.flatMap lineWords) : IsWord w := by
  obtain ⟨line, -, hw⟩ := List.mem_flatMap.mp h
  exact isWord_of_mem_words hw

/-- Nothing is lost and nothing is invented. -/
theorem classify_reading (lines : List String) :
    (∀ line, lineWords line = Text.words (body line.toList)) ∧
    ∃ pieces : List Piece, Reading (lines.flatMap lineWords) pieces ∧
      classify lines = ⟨pieces.filterMap Piece.tag?, pieces.filterMap Piece.prose?⟩ ∧
      joinWith [' '] (pieces.map Piece.text) = joinWith [' '] (lines.flatMap lineWords) ∧
      (∀ p ∈ pieces, Text.words p.text = p.words) ∧
      ∀ others, Reading (lines.flatMap lineWords) others → others = pieces := by
  have hreading := reading_pieces (lines.flatMap lineWords)
  have hword : ∀ w ∈ lines.flatMap lineWords, IsWord w := fun w => isWord_of_mem_flatMap
  refine ⟨fun _ => rfl, pieces (lines.flatMap lineWords), hreading, classify_eq lines, ?_, ?_, ?_⟩
  · have hjoin := joinWith_flatMap fun p hp => (hreading.isToken p hp).ne_nil
    rwa [hreading.words_eq] at hjoin
  · intro p hp
    exact words_joinWith (hreading.isWord hword hp)
  · intro others hothers
    have hstart : Reading (lines.flatMap lineWords) ([] ++ others) := hothers
    exact hstart.eq_of_append hword hreading

example : classify ["/** Lists clubs (by @name ", " * @logs-ignore(key,", " * token) ## @name */"] =
    ⟨["@name", "@logs-ignore(key, token)"], ["Lists", "clubs", "(by", "@name"]⟩ := by
  decide +kernel

end ServiceLoom.Comment
