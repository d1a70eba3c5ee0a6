import ServiceLoom.Proofs.Build.Parts
import ServiceLoom.Proofs.Service.PathTemplate
import ServiceLoom.Recipe.Placeholders

/-!
# File patterns expanded in one pass

Three replacements in the whole text, each in what the last one left, do the same as one look at
every group of braces: a value without braces joins the text around it, and every brace that is
left still belongs to the group that it was written in. The names of built services have no braces.
The alias goes in last, so it could have any.
-/

namespace ServiceLoom

namespace FilePattern

def Braceless (s : List Char) : Prop := '\x7b' ∉ s ∧ '\x7d' ∉ s

instance : DecidablePred Braceless := fun s =>
  inferInstanceAs (Decidable ('\x7b' ∉ s ∧ '\x7d' ∉ s))

inductive Piece where
  | text (s : List Char)
  | group (name : List Char)

namespace Piece

def written : Piece → List Char
  | text s => s
  | group name => '\x7b' :: (name ++ ['\x7d'])

def WellFormed : Piece → Prop
  | text s => Braceless s
  | group name => Braceless name

instance : DecidablePred WellFormed
  | text s => inferInstanceAs (Decidable (Braceless s))
  | group name => inferInstanceAs (Decidable (Braceless name))

def put (name value : List Char) : Piece → Piece
  | text s => text s
  | group other => if other = name then text value else group other

/-- What one substitution makes of a piece. -/
def filled (s : Service) : Piece → List Char
  | text t => t
  | group name =>
    if name = "package".toList then s.package.toList
    else if name = "service".toList then s.name.toList
    else if name = "alias".toList then s.aliasName.toList
    else (group name).written

theorem put_self (name value : List Char) : (group name).put name value = text value :=
  if_pos rfl

theorem put_of_ne {name other : List Char} (h : other ≠ name) (value : List Char) :
    (group other).put name value = group other :=
  if_neg h

theorem WellFormed.put {name value : List Char} {piece : Piece} (h : piece.WellFormed)
    (hvalue : Braceless value) : (piece.put name value).WellFormed := by
  cases piece with
  | text s => exact h
  | group other =>
    by_cases hname : other = name
    · rw [hname, put_self]
      exact hvalue
    · rw [put_of_ne hname]
      exact h

end Piece

variable {name value s : List Char} {pieces : List Piece}

/-! ## One replacement -/

theorem replaceAll_literal (name value : List Char) (h : '\x7b' ∉ s) (t : List Char) :
    Text.replaceAll (Piece.group name).written value (s ++ t) =
      s ++ Text.replaceAll (Piece.group name).written value t := by
  induction s with
  | nil => rfl
  | cons c s ih =>
    rw [List.mem_cons, not_or] at h
    have hpass : ¬ (Piece.group name).written <+: c :: (s ++ t) :=
      fun hprefix => h.1 (List.cons_prefix_cons.mp hprefix).1
    rw [List.cons_append, Text.replaceAll_cons hpass, ih h.2, List.cons_append]

/-- A group starts only where it is the group that is written there. -/
theorem eq_of_isPrefix_written {other t : List Char} (hname : '\x7d' ∉ name)
    (hother : '\x7d' ∉ other)
    (h : (Piece.group name).written <+: (Piece.group other).written ++ t) : name = other := by
  obtain ⟨rest, hrest⟩ := h
  have hbody : name ++ '\x7d' :: rest = other ++ '\x7d' :: t := by
    simpa [Piece.written] using hrest
  have htake := congrArg (List.takeWhile (· != '\x7d')) hbody
  rwa [PathTemplate.takeWhile_bne_append_cons hname,
    PathTemplate.takeWhile_bne_append_cons hother] at htake

theorem replaceAll_group {other : List Char} (hname : '\x7d' ∉ name) (hother : Braceless other)
    (t : List Char) :
    Text.replaceAll (Piece.group name).written value ((Piece.group other).written ++ t) =
      ((Piece.group other).put name value).written ++
        Text.replaceAll (Piece.group name).written value t := by
  by_cases hsame : other = name
  · subst hsame
    rw [Piece.put_self]
    exact Text.replaceAll_append (List.cons_ne_nil _ _) value t
  · have hpass : ¬ (Piece.group name).written <+: '\x7b' :: (other ++ ['\x7d'] ++ t) :=
      fun hprefix => hsame (eq_of_isPrefix_written hname hother.2 hprefix).symm
    have hliteral : '\x7b' ∉ other ++ ['\x7d'] := by simp [hother.1]
    have hrest := replaceAll_literal name value hliteral t
    rw [Piece.put_of_ne hsame]
    exact (Text.replaceAll_cons hpass value).trans (congrArg ('\x7b' :: ·) hrest)

theorem replaceAll_flatMap_written (hname : '\x7d' ∉ name)
    (h : ∀ piece ∈ pieces, piece.WellFormed) :
    Text.replaceAll (Piece.group name).written value (pieces.flatMap Piece.written) =
      (pieces.map (Piece.put name value)).flatMap Piece.written := by
  induction pieces with
  | nil => exact Text.replaceAll_nil _ _
  | cons piece pieces ih =>
    rw [List.forall_mem_cons] at h
    rw [List.flatMap_cons, List.map_cons, List.flatMap_cons, ← ih h.2]
    cases piece with
    | text s => exact replaceAll_literal name value h.1.1 _
    | group other => exact replaceAll_group hname h.1 _

theorem wellFormed_map_put (name : List Char) (h : ∀ piece ∈ pieces, piece.WellFormed)
    (hvalue : Braceless value) : ∀ piece ∈ pieces.map (Piece.put name value), piece.WellFormed := by
  intro piece hpiece
  obtain ⟨before, hbefore, rfl⟩ := List.mem_map.mp hpiece
  exact (h before hbefore).put hvalue

/-! ## Three replacements -/

theorem put_put_put (s : Service) (piece : Piece) :
    (((piece.put "package".toList s.package.toList).put "service".toList s.name.toList).put
      "alias".toList s.aliasName.toList).written = piece.filled s := by
  cases piece with
  | text t => rfl
  | group name =>
    rw [Piece.put, Piece.filled]
    split
    · rfl
    · rw [Piece.put]
      split
      · rfl
      · rw [Piece.put]
        split <;> rfl

theorem expandPlaceholders_of_pieces {pattern : String} {s : Service}
    (hpackage : Braceless s.package.toList) (hservice : Braceless s.name.toList)
    (h : ∀ piece ∈ pieces, piece.WellFormed)
    (hpattern : pattern.toList = pieces.flatMap Piece.written) :
    (expandPlaceholders pattern s).toList = pieces.flatMap (Piece.filled s) := by
  have hmarks : packageMark.toList = (Piece.group "package".toList).written ∧
      serviceMark.toList = (Piece.group "service".toList).written ∧
      aliasMark.toList = (Piece.group "alias".toList).written := by decide
  obtain ⟨hpackageMark, hserviceMark, haliasMark⟩ := hmarks
  have hafterPackage := wellFormed_map_put "package".toList h hpackage
  have hafterService := wellFormed_map_put "service".toList hafterPackage hservice
  simp only [expandPlaceholders, substitute, String.toList_ofList]
  rw [hpattern, hpackageMark, replaceAll_flatMap_written (by decide) h, hserviceMark,
    replaceAll_flatMap_written (by decide) hafterPackage, haliasMark,
    replaceAll_flatMap_written (by decide) hafterService, List.map_map, List.map_map,
    List.flatMap_map]
  exact congrArg pieces.flatMap (funext (put_put_put s))

/-! ## All patterns -/

theorem exists_pieces_of_paired (h : PathTemplate.Paired s) :
    ∃ pieces : List Piece, (∀ piece ∈ pieces, piece.WellFormed) ∧
      s = pieces.flatMap Piece.written := by
  refine h.induction (P := fun s => ∃ pieces : List Piece, (∀ piece ∈ pieces, piece.WellFormed) ∧
    s = pieces.flatMap Piece.written) ⟨[], by simp, rfl⟩ ?literal ?group
  case literal =>
    rintro c s hopen hclose ⟨pieces, hpieces, rfl⟩
    refine ⟨.text [c] :: pieces, ?_, rfl⟩
    rw [List.forall_mem_cons]
    exact ⟨⟨by simpa using hopen.symm, by simpa using hclose.symm⟩, hpieces⟩
  case group =>
    rintro body s hopen hclose ⟨pieces, hpieces, rfl⟩
    refine ⟨.group body :: pieces, ?_, by simp [Piece.written]⟩
    rw [List.forall_mem_cons]
    exact ⟨⟨hopen, hclose⟩, hpieces⟩

theorem braceless_of_isServiceName {c : Convention} {name : String}
    (h : c.isServiceName name = true) : Braceless name.toList := by
  have hexported : Convention.isExported name.toList = true := by
    simp only [Convention.isServiceName, Bool.and_eq_true] at h
    exact h.1.1
  have hchars : ∀ c ∈ name.toList, (Text.isAsciiWord c || c == '_') = true := by
    unfold Convention.isExported at hexported
    split at hexported
    · cases hexported
    · rw [Bool.and_eq_true] at hexported
      exact List.all_eq_true.mp hexported.2
  exact ⟨fun hopen => absurd (hchars _ hopen) (by decide),
    fun hclose => absurd (hchars _ hclose) (by decide)⟩

end FilePattern

open FilePattern

/-- A pattern with its braces in pairs, none inside another, is put together from texts and groups,
and however it is cut into them, each group is filled on its own. -/
theorem expandPlaceholders_onePass {b : Builder} {package : String} {decl : InterfaceDecl}
    {s : Service} (h : b.buildIn package decl = .ok s) (hpackage : Braceless s.package.toList)
    {pattern : String} (hpattern : PathTemplate.Paired pattern.toList) :
    (∃ pieces : List Piece, (∀ piece ∈ pieces, piece.WellFormed) ∧
      pattern.toList = pieces.flatMap Piece.written) ∧
    ∀ pieces : List Piece, (∀ piece ∈ pieces, piece.WellFormed) →
      pattern.toList = pieces.flatMap Piece.written →
      (expandPlaceholders pattern s).toList = pieces.flatMap (Piece.filled s) := by
  have hservice := braceless_of_isServiceName (Builder.isServiceName_of_buildIn h)
  exact ⟨exists_pieces_of_paired hpattern,
    fun _ hpieces hwritten => expandPlaceholders_of_pieces hpackage hservice hpieces hwritten⟩

section Ferry

def ferryInterface : InterfaceDecl where
  name := "FerryService"
  docs := ["// @alias(ferry.v2)"]

def ferryService : Service where
  name := "FerryService"
  aliasName := "ferry.v2"
  package := "alias"
  docs := []
  methods := []
  flags := FlagSet.empty
  httpPrefix := none
  capabilities := []
  tags := {}

def ferryPieces : List Piece :=
  [.group [], .group "package".toList, .group "service".toList, .text "/".toList,
    .group "alias".toList, .group " package".toList, .text ".go".toList]

/-- The package has the name of a group, and goes in right behind another pair of braces. -/
theorem expandPlaceholders_onePass_ferry :
    ({} : Builder).buildIn "alias" ferryInterface = .ok ferryService ∧
      Braceless ferryService.package.toList ∧
      PathTemplate.Paired
        "\x7b\x7d\x7bpackage\x7d\x7bservice\x7d/\x7balias\x7d\x7b package\x7d.go".toList ∧
      (∀ piece ∈ ferryPieces, piece.WellFormed) ∧
      (expandPlaceholders
        "\x7b\x7d\x7bpackage\x7d\x7bservice\x7d/\x7balias\x7d\x7b package\x7d.go"
        ferryService).toList = "\x7b\x7daliasFerryService/ferry.v2\x7b package\x7d.go".toList := by
  have hbuilt : ({} : Builder).buildIn "alias" ferryInterface = .ok ferryService := by
    decide +kernel
  have hpackage : Braceless ferryService.package.toList := by decide
  have hpattern : PathTemplate.Paired
      "\x7b\x7d\x7bpackage\x7d\x7bservice\x7d/\x7balias\x7d\x7b package\x7d.go".toList := by
    decide
  have hpieces : ∀ piece ∈ ferryPieces, piece.WellFormed := by decide
  have hfilled := (expandPlaceholders_onePass hbuilt hpackage hpattern).2 ferryPieces hpieces
    (by decide)
  exact ⟨hbuilt, hpackage, hpattern, hpieces, hfilled.trans (by decide)⟩

end Ferry

end ServiceLoom
