import ServiceLoom.Proofs.Tag.Group
import ServiceLoom.Proofs.Tag.LongestMatch
import ServiceLoom.Proofs.Text.Utf8

/-!
# Resolution over bytes

Resolution as it runs on a text kept as bytes: names are compared byte by byte, the longest is the
one with the most bytes, and what follows a name, the payload and what follows the payload are
slices at byte offsets. A slice at a wrong offset and a count below zero are traps. No trap is ever
reached: a name ends where a character ends, the first parenthesis keeps the depth above zero until
it is closed, and in a balanced text it is closed. So resolution over bytes is resolution over
characters.
-/

namespace ServiceLoom.Tag.Bytewise

open Text (Trap size slice)

def longer (best : Option String) (name : String) : Option String :=
  match best with
  | none => some name
  | some b => if b.utf8ByteSize ≤ name.utf8ByteSize then some name else some b

def longest? (names : List String) : Option String := names.foldl longer none

def longestMatch? (token : String) (names : List String) : Option String :=
  match token.toList with
  | '@' :: body =>
    longest? (names.filter fun name =>
      name != "" && Text.startsWithBytes (Text.bytes name.toList) (Text.bytes body))
  | _ => none

def choose (token : String) (builtin custom : List String) : Except ResolveError (Pool × String) :=
  match longestMatch? token builtin, longestMatch? token custom with
  | none, none => .error .unknown
  | some b, none => .ok (.builtin, b)
  | none, some c => .ok (.custom, c)
  | some b, some c =>
    if c.utf8ByteSize < b.utf8ByteSize then .ok (.builtin, b)
    else if b.utf8ByteSize < c.utf8ByteSize then .ok (.custom, c)
    else .error (.ambiguous b)

/-- The way through `text` to the end of its payload; `depth` parentheses are open at `offset`. -/
def scan (text : String) (depth offset : Nat) :
    List Char → Except Trap (Except PayloadError (Option String))
  | [] => .ok (.error .unfinished)
  | '(' :: cs => scan text (depth + 1) (offset + 1) cs
  | ')' :: cs =>
    match depth with
    | 0 => .error (.underflow offset)
    | 1 =>
      if offset + 1 ≠ text.utf8ByteSize then do
        return .error (.textAfterPayload (← slice text (offset + 1) text.utf8ByteSize))
      else do
        let inner ← slice text 1 offset
        return .ok (some (String.ofList (Text.trim inner.toList)))
    | depth + 2 => scan text (depth + 1) (offset + 1) cs
  | c :: cs => scan text depth (offset + c.utf8Size) cs

def payload (rest : String) : Except Trap (Except PayloadError (Option String)) :=
  match rest.toList with
  | [] => .ok (.ok none)
  | '(' :: _ =>
    match Brackets.check rest.toList with
    | .error imbalance => .ok (.error (.unbalanced imbalance))
    | .ok () => scan rest 0 0 rest.toList
  | _ => .ok (.error (.textAfterName rest))

def resolve (token : String) (builtin custom : List String) :
    Except Trap (Except ResolveError Resolved) :=
  match choose token builtin custom with
  | .error e => .ok (.error e)
  | .ok (pool, name) => do
    let rest ← slice token (1 + name.utf8ByteSize) token.utf8ByteSize
    match ← payload rest with
    | .ok text => return .ok ⟨pool, name, text⟩
    | .error cause => return .error (.malformed name cause)

theorem exists_spelling {name : String} {token : List Char} (h : Spelled name token) :
    ∃ spelling rest, token = '@' :: spelling ++ rest ∧ spelling.length = name.length ∧
      size spelling = name.utf8ByteSize := by
  obtain ⟨_, body, rfl, hstart⟩ := h
  obtain ⟨spelling, rest, rfl, hspelling⟩ := Text.startsWithFold_iff.mp hstart
  refine ⟨spelling, rest, rfl, ?_, ?_⟩
  · have hlength := congrArg List.length hspelling
    rwa [List.length_map, List.length_map, String.length_toList] at hlength
  · rw [← Text.size_map_toLower, hspelling, Text.size_map_toLower, Text.size_toList]

theorem length_le_iff {a b : String} {token : List Char} (ha : Spelled a token)
    (hb : Spelled b token) : a.length ≤ b.length ↔ a.utf8ByteSize ≤ b.utf8ByteSize := by
  obtain ⟨p, rest, hp, hplength, hpsize⟩ := exists_spelling ha
  obtain ⟨q, tail, hq, hqlength, hqsize⟩ := exists_spelling hb
  have hprefix : q <+: p ++ rest := by
    refine ⟨tail, ?_⟩
    exact (List.cons.inj (hp.symm.trans hq)).2.symm
  rw [← hplength, ← hqlength, ← hpsize, ← hqsize]
  exact Text.length_le_iff_size_le (List.prefix_append p rest) hprefix

theorem foldl_longer_eq {token : List Char} {names : List String} {best : Option String}
    (hnames : ∀ name ∈ names, Spelled name token) (hbest : ∀ b ∈ best, Spelled b token) :
    names.foldl longer best = names.foldl Tag.longer best := by
  -- along the list: the best name so far is spelled in the token too
  induction names generalizing best with
  | nil => rfl
  | cons name names ih =>
    have hname := hnames name List.mem_cons_self
    have hrest : ∀ n ∈ names, Spelled n token := fun n hn => hnames n (List.mem_cons_of_mem _ hn)
    rw [List.foldl_cons, List.foldl_cons]
    cases best with
    | none => exact ih hrest (fun b hb => by cases hb; exact hname)
    | some b =>
      have hb := hbest b rfl
      have hstep : longer (some b) name = Tag.longer (some b) name := by
        simp only [longer, Tag.longer, length_le_iff hb hname]
      rw [hstep]
      apply ih hrest
      intro n hn
      unfold Tag.longer at hn
      dsimp only at hn
      split at hn
      · cases hn
        exact hname
      · cases hn
        exact hb

theorem longestMatch?_eq_longest? (token : String) (names : List String) :
    longestMatch? token names = longest? (matching token.toList names) := by
  fun_cases longestMatch? token names with
  | case1 body htoken => simp only [Text.startsWithBytes_eq, htoken, matching, candidates]
  | case2 htoken => simp [matching, longest?]

theorem longestMatch?_eq (token : String) (names : List String) :
    longestMatch? token names = Tag.longestMatch? token.toList names := by
  rw [longestMatch?_eq_longest?, Tag.longestMatch?_eq, longest?_eq_foldl]
  exact foldl_longer_eq (fun name hname => (mem_matching_iff.mp hname).2) (by simp)

theorem spelled_of_longestMatch? {token : List Char} {names : List String} {name : String}
    (h : Tag.longestMatch? token names = some name) : Spelled name token := by
  rw [Tag.longestMatch?_eq] at h
  exact (mem_matching_iff.mp (mem_and_le_of_longest? h).1).2

theorem choose_eq (token : String) (builtin custom : List String) :
    choose token builtin custom = Tag.choose token.toList builtin custom := by
  unfold choose Tag.choose
  rw [longestMatch?_eq, longestMatch?_eq]
  cases hb : Tag.longestMatch? token.toList builtin with
  | none => cases Tag.longestMatch? token.toList custom <;> rfl
  | some b =>
    cases hc : Tag.longestMatch? token.toList custom with
    | none => rfl
    | some c =>
      have hbc := length_le_iff (spelled_of_longestMatch? hb) (spelled_of_longestMatch? hc)
      have hcb := length_le_iff (spelled_of_longestMatch? hc) (spelled_of_longestMatch? hb)
      simp only [← Nat.not_le, hbc, hcb]

/-- What a scan answers, with the text before it and what the closing parenthesis parts. -/
def outcome (lead : List Char) :
    Option (List Char × List Char) → Except PayloadError (Option String)
  | none => .error .unfinished
  | some (inner, []) => .ok (some (String.ofList (Text.trim (lead ++ inner))))
  | some (_, after) => .error (.textAfterPayload (String.ofList after))

theorem outcome_ne_unfinished (lead : List Char) {parts : Option (List Char × List Char)}
    (h : parts ≠ none) : outcome lead parts ≠ .error .unfinished := by
  intro hout
  unfold outcome at hout
  split at hout
  · exact h rfl
  · cases hout
  · cases hout

theorem outcome_map_cons (lead : List Char) (c : Char) (parts : Option (List Char × List Char)) :
    outcome lead (parts.map fun (inner, rest) => (c :: inner, rest)) =
      outcome (lead ++ [c]) parts := by
  cases parts with
  | none => rfl
  | some parts =>
    obtain ⟨inner, rest⟩ := parts
    cases rest with
    | nil => simp [outcome]
    | cons d rest => rfl

/-- The parenthesis that closes the outermost one ends the scan with a slice on each side of it. -/
theorem scan_close {text : String} {lead cs : List Char}
    (htext : text.toList = '(' :: lead ++ ')' :: cs) :
    scan text 1 (1 + size lead) (')' :: cs) = .ok (outcome lead (some ([], cs))) := by
  have hround : '('.utf8Size = 1 ∧ ')'.utf8Size = 1 := by decide
  have hsize : text.utf8ByteSize = 1 + size lead + 1 + size cs := by
    rw [← Text.size_toList, htext, Text.size_append, Text.size_cons, Text.size_cons, hround.1,
      hround.2, Nat.add_assoc (1 + size lead)]
  rw [scan, hsize]
  cases cs with
  | nil =>
    have hslice := Text.slice_eq ['('] lead [')'] htext
    rw [Text.size_cons, hround.1, Text.size_nil] at hslice
    rw [if_neg (by simp), hslice]
    simp [outcome]
  | cons c cs =>
    have hrest : text.toList = ('(' :: lead ++ [')']) ++ c :: cs ++ [] := by simp [htext]
    have hslice := Text.slice_eq _ _ _ hrest
    rw [Text.size_append, Text.size_cons, Text.size_cons, hround.1, hround.2, Text.size_nil,
      Nat.add_zero] at hslice
    have hmore : 0 < size (c :: cs) := by
      rw [Text.size_cons]
      exact Nat.add_pos_left c.utf8Size_pos _
    rw [if_pos (by omega), hslice]
    rfl

theorem scan_eq {text : String} {lead cs : List Char} {depth : Nat}
    (htext : text.toList = '(' :: lead ++ cs) (hdepth : 0 < depth) :
    scan text depth (1 + size lead) cs = .ok (outcome lead (closeParen depth cs)) := by
  have hround : '('.utf8Size = 1 ∧ ')'.utf8Size = 1 := by decide
  have hsize : ∀ (lead : List Char) (c : Char),
      1 + size lead + c.utf8Size = 1 + size (lead ++ [c]) := by
    intro lead c
    rw [Text.size_append, Text.size_cons, Text.size_nil, Nat.add_zero, Nat.add_assoc]
  -- along the search for the closing parenthesis: what is passed goes to the text before
  fun_induction closeParen depth cs generalizing lead with
  | case1 => rfl
  | case2 depth cs ih =>
    have hnext : text.toList = '(' :: (lead ++ ['(']) ++ cs := by simp [htext]
    have hoffset := hsize lead '('
    rw [hround.1] at hoffset
    rw [scan, hoffset, ih hnext (Nat.succ_pos depth), outcome_map_cons]
  | case3 depth cs hle =>
    have hone : depth = 1 := by omega
    subst hone
    exact scan_close htext
  | case4 depth cs hle ih =>
    obtain ⟨level, rfl⟩ : ∃ level, depth = level + 2 := ⟨depth - 2, by omega⟩
    have hnext : text.toList = '(' :: (lead ++ [')']) ++ cs := by simp [htext]
    have hoffset := hsize lead ')'
    rw [hround.2] at hoffset
    rw [scan, hoffset, outcome_map_cons]
    exact ih hnext (Nat.succ_pos level)
  | case5 depth c cs hopen hclose ih =>
    have hnext : text.toList = '(' :: (lead ++ [c]) ++ cs := by simp [htext]
    rw [scan, hsize, ih hnext hdepth, outcome_map_cons]
    · exact hopen
    · exact hclose

/-- Where no parenthesis closes the outermost one, too few are closed. -/
theorem count_lt_of_closeParen_eq_none {depth : Nat} {cs : List Char} (hdepth : 0 < depth)
    (h : closeParen depth cs = none) : cs.count ')' < depth + cs.count '(' := by
  fun_induction closeParen depth cs with
  | case1 => simpa using hdepth
  | case2 depth cs ih =>
    have := ih (Nat.succ_pos depth) (Option.map_eq_none_iff.mp h)
    simp
    omega
  | case3 => cases h
  | case4 depth cs hle ih =>
    have := ih (by omega) (Option.map_eq_none_iff.mp h)
    simp
    omega
  | case5 depth c cs hopen hclose ih =>
    have := ih hdepth (Option.map_eq_none_iff.mp h)
    rwa [List.count_cons_of_ne hclose, List.count_cons_of_ne hopen]

theorem closeParen_ne_none_of_check {cs : List Char} (h : Brackets.check ('(' :: cs) = .ok ()) :
    closeParen 1 cs ≠ none := by
  intro hnone
  have heven : ('(' :: cs).count ')' = ('(' :: cs).count '(' :=
    (Brackets.check_eq_ok_iff.mp h).even .round
  have := count_lt_of_closeParen_eq_none Nat.one_pos hnone
  simp at heven
  omega

theorem scan_start {text : String} {cs : List Char} (htext : text.toList = '(' :: cs) :
    scan text 0 0 text.toList = .ok (outcome [] (closeParen 1 cs)) := by
  rw [htext, scan]
  have hstart : text.toList = '(' :: [] ++ cs := htext
  exact scan_eq hstart Nat.one_pos

theorem payload_of_check {cs : List Char} (h : Brackets.check ('(' :: cs) = .ok ()) :
    Tag.payload ('(' :: cs) = outcome [] (closeParen 1 cs) := by
  simp only [Tag.payload, h]
  cases closeParen 1 cs with
  | none => rfl
  | some parts =>
    obtain ⟨inner, after⟩ := parts
    cases after <;> rfl

theorem payload_eq (rest : String) : payload rest = .ok (Tag.payload rest.toList) := by
  fun_cases payload rest with
  | case1 htext => rw [htext, Tag.payload]
  | case2 cs htext imbalance hcheck =>
    rw [htext] at hcheck ⊢
    simp only [Tag.payload, hcheck]
  | case3 cs htext hcheck =>
    rw [scan_start htext]
    rw [htext] at hcheck ⊢
    rw [payload_of_check hcheck]
  | case4 hnil hopen =>
    unfold Tag.payload
    split
    · contradiction
    · rename_i cs htext
      exact absurd htext (hopen cs)
    · rw [String.ofList_toList]

theorem spelled_of_choose {token : List Char} {builtin custom : List String} {pool : Pool}
    {name : String} (h : Tag.choose token builtin custom = .ok (pool, name)) :
    Spelled name token := by
  have hmatch := choose_eq_ok_iff.mp h
  cases pool with
  | builtin => exact spelled_of_longestMatch? hmatch.1
  | custom => exact spelled_of_longestMatch? hmatch.1

theorem slice_after_name {token name : String} (h : Spelled name token.toList) :
    slice token (1 + name.utf8ByteSize) token.utf8ByteSize =
      .ok (String.ofList (token.toList.drop (name.length + 1))) := by
  obtain ⟨spelling, rest, htoken, hlength, hsize⟩ := exists_spelling h
  have hat : '@'.utf8Size = 1 := by decide
  have hwhole : token.toList = '@' :: spelling ++ rest ++ [] := by rw [htoken, List.append_nil]
  have hslice := Text.slice_eq _ _ _ hwhole
  rw [← Text.size_append, ← htoken, Text.size_toList, Text.size_cons, hat, hsize] at hslice
  rw [hslice, htoken, List.cons_append, List.drop_succ_cons, ← hlength, List.drop_left]

theorem resolve_eq (token : String) (builtin custom : List String) :
    resolve token builtin custom = .ok (Tag.resolve token builtin custom) := by
  unfold resolve Tag.resolve
  rw [choose_eq]
  cases hchoose : Tag.choose token.toList builtin custom with
  | error e => rfl
  | ok choice =>
    obtain ⟨pool, name⟩ := choice
    have hslice := slice_after_name (spelled_of_choose hchoose)
    have hpayload := payload_eq (String.ofList (token.toList.drop (name.length + 1)))
    rw [String.toList_ofList] at hpayload
    simp only [hslice, hpayload, bind, Except.bind]
    cases Tag.payload (token.toList.drop (name.length + 1)) <;> rfl

/-- No slice and no count goes wrong, and the scan of a balanced text ends at a parenthesis. -/
theorem resolve_untrapped (token : String) (builtin custom : List String) :
    (∀ names, longestMatch? token names = Tag.longestMatch? token.toList names ∧
      ∀ name ∈ longestMatch? token names, 1 + name.utf8ByteSize ≤ token.utf8ByteSize ∧
        String.Pos.Raw.IsValid token ⟨1 + name.utf8ByteSize⟩) ∧
    (∀ text : String, text.toList.head? = some '(' → Brackets.check text.toList = .ok () →
      ∃ out, scan text 0 0 text.toList = .ok out ∧ out ≠ .error .unfinished ∧
        out = Tag.payload text.toList) ∧
    resolve token builtin custom = .ok (Tag.resolve token builtin custom) := by
  refine ⟨?_, ?_, resolve_eq token builtin custom⟩
  · intro names
    refine ⟨longestMatch?_eq token names, ?_⟩
    intro name hname
    rw [Option.mem_def, longestMatch?_eq] at hname
    obtain ⟨spelling, rest, htoken, _, hsize⟩ := exists_spelling (spelled_of_longestMatch? hname)
    have hlead : size ('@' :: spelling) = 1 + name.utf8ByteSize := by
      rw [Text.size_cons, hsize]
      rfl
    rw [← hlead, ← Text.size_toList token]
    refine ⟨?_, Text.isValid_size htoken⟩
    rw [htoken, Text.size_append]
    exact Nat.le_add_right _ _
  · intro text hopen hcheck
    obtain ⟨cs, htext⟩ := List.head?_eq_some_iff.mp hopen
    refine ⟨_, scan_start htext, ?_, ?_⟩
    · rw [htext] at hcheck
      exact outcome_ne_unfinished [] (closeParen_ne_none_of_check hcheck)
    · rw [htext] at hcheck ⊢
      exact (payload_of_check hcheck).symm

theorem resolve_untrapped_accented :
    longestMatch? "@ÉTE(ñ)" ["", "É", "Éte"] = some "Éte" ∧
      String.Pos.Raw.IsValid "@ÉTE(ñ)" ⟨1 + "Éte".utf8ByteSize⟩ ∧
      (∃ out, scan "(ñ)" 0 0 "(ñ)".toList = .ok out ∧ out ≠ .error .unfinished) ∧
      resolve "@ÉTE(ñ)" ["", "É", "Éte"] ["é"] = .ok (.ok ⟨.builtin, "Éte", some "ñ"⟩) := by
  have hmatch : longestMatch? "@ÉTE(ñ)" ["", "É", "Éte"] = some "Éte" := by decide
  obtain ⟨hnames, hscan, hresolve⟩ := resolve_untrapped "@ÉTE(ñ)" ["", "É", "Éte"] ["é"]
  obtain ⟨out, hout, hended, _⟩ := hscan "(ñ)" (by decide) (by decide)
  refine ⟨hmatch, ((hnames _).2 "Éte" hmatch).2, ⟨out, hout, hended⟩, ?_⟩
  rw [hresolve]
  decide

-- a name of one byte against a first character of two
example : resolve "@é" ["e"] [] = .ok (.error .unknown) := by decide

end ServiceLoom.Tag.Bytewise
