import Mathlib.Data.List.Induction
import Mathlib.Data.List.Perm.Basic
import ServiceLoom.Proofs.Build.Parts

/-!
# Methods of one service

A method is built from its own declaration and from the name and the flags of its service; nothing
else of the interface is read. So it does not matter where a method stands and which others stand
beside it, and what goes wrong first is settled before anything declared later is looked at.
-/

namespace ServiceLoom.Builder

variable {b : Builder} {package service : String} {seed : FlagSet} {decl : InterfaceDecl}

def declaredTwice (service name : String) : Error :=
  .invalidDeclaration s!"service {service}" s!"method '{name}' is declared twice"

theorem buildMethods_cons_of_mem {built : List String} {m : MethodDecl} (rest : List MethodDecl)
    (h : m.name ∈ built) :
    b.buildMethods service seed built (m :: rest) = .error (declaredTwice service m.name) := by
  rw [buildMethods, if_pos h]
  rfl

theorem buildMethods_cons_of_not_mem {built : List String} {m : MethodDecl}
    (rest : List MethodDecl) (h : m.name ∉ built) :
    b.buildMethods service seed built (m :: rest) = (do
      let method ← b.buildMethod service seed m
      let methods ← b.buildMethods service seed (m.name :: built) rest
      return method :: methods) := by
  rw [buildMethods, if_neg h]

theorem buildMethods_eq_ok_iff {built : List String} {decls : List MethodDecl}
    {methods : List Method} :
    b.buildMethods service seed built decls = .ok methods ↔
      List.Forall₂ (fun m method => b.buildMethod service seed m = .ok method) decls methods ∧
        (decls.map (·.name)).Nodup ∧ ∀ m ∈ decls, m.name ∉ built := by
  constructor
  · exact parts_of_buildMethods
  · rintro ⟨hbuilt, hnodup, hnew⟩
    induction hbuilt generalizing built with
    | nil => rfl
    | @cons m method rest methods hm _ ih =>
      rw [List.map_cons, List.nodup_cons] at hnodup
      rw [List.forall_mem_cons] at hnew
      rw [buildMethods_cons_of_not_mem rest hnew.1]
      refine bind_eq_ok_iff.mpr ⟨method, hm, bind_eq_ok_iff.mpr ⟨methods, ih hnodup.2 ?_, rfl⟩⟩
      intro other hother hmem
      rcases List.mem_cons.mp hmem with hname | hmem
      · exact hnodup.1 (hname ▸ List.mem_map_of_mem hother)
      · exact hnew.2 other hother hmem

/-! ## Lists side by side -/

/-- What every element of a list has beside it goes with it to its new place. -/
theorem exists_zip_perm {α β : Type} {R : α → β → Prop} {as as' : List α} {bs : List β}
    (hperm : as.Perm as') (h : List.Forall₂ R as bs) :
    ∃ bs', List.Forall₂ R as' bs' ∧ (as.zip bs).Perm (as'.zip bs') := by
  induction hperm generalizing bs with
  | nil =>
    cases h
    exact ⟨[], .nil, .nil⟩
  | cons a _ ih =>
    cases h with
    | cons hab hrest =>
      obtain ⟨bs', hbs', hzip⟩ := ih hrest
      exact ⟨_ :: bs', .cons hab hbs', hzip.cons _⟩
  | swap a a' as =>
    cases h with
    | cons hab' hrest =>
      cases hrest with
      | cons hab hrest => exact ⟨_, .cons hab (.cons hab' hrest), .swap _ _ _⟩
  | trans _ _ ih ih' =>
    obtain ⟨bs', hbs', hzip⟩ := ih h
    obtain ⟨bs'', hbs'', hzip'⟩ := ih' hbs'
    exact ⟨bs'', hbs'', hzip.trans hzip'⟩

theorem exists_forall₂_iff {α β : Type} {R : α → β → Prop} {as : List α} :
    (∃ bs, List.Forall₂ R as bs) ↔ ∀ a ∈ as, ∃ b, R a b := by
  induction as with
  | nil => simp
  | cons a as ih =>
    rw [List.forall_mem_cons, ← ih]
    constructor
    · rintro ⟨_, hab | ⟨hab, hrest⟩⟩
      exact ⟨⟨_, hab⟩, _, hrest⟩
    · rintro ⟨⟨b, hab⟩, bs, hrest⟩
      exact ⟨b :: bs, .cons hab hrest⟩

theorem exists_of_forall₂ {α β : Type} {R : α → β → Prop} {as : List α} {bs : List β}
    (h : List.Forall₂ R as bs) {i : Nat} {a : α} (ha : as[i]? = some a) :
    ∃ b, bs[i]? = some b ∧ R a b := by
  induction h generalizing i with
  | nil => cases ha
  | cons hab _ ih =>
    cases i with
    | zero =>
      obtain rfl := Option.some.inj ha
      exact ⟨_, rfl, hab⟩
    | succ i => exact ih ha

/-! ## Methods in order -/

theorem buildMethods_perm {decls decls' : List MethodDecl} {methods : List Method}
    (hperm : decls.Perm decls') (h : b.buildMethods service seed [] decls = .ok methods) :
    ∃ methods', b.buildMethods service seed [] decls' = .ok methods' ∧
      (decls.zip methods).Perm (decls'.zip methods') := by
  obtain ⟨hbuilt, hnodup, _⟩ := buildMethods_eq_ok_iff.mp h
  obtain ⟨methods', hbuilt', hzip⟩ := exists_zip_perm hperm hbuilt
  have hnodup' : (decls'.map (·.name)).Nodup := (hperm.map _).nodup_iff.mp hnodup
  exact ⟨methods', buildMethods_eq_ok_iff.mpr ⟨hbuilt', hnodup', by simp⟩, hzip⟩

/-! ## The first fault -/

theorem buildMethods_append {built : List String} (before after : List MethodDecl) :
    b.buildMethods service seed built (before ++ after) = (do
      let methods ← b.buildMethods service seed built before
      let rest ← b.buildMethods service seed ((before.map (·.name)).reverse ++ built) after
      return methods ++ rest) := by
  induction before generalizing built with
  | nil => exact (bind_pure _).symm
  | cons m before ih =>
    by_cases hm : m.name ∈ built
    · rw [List.cons_append, buildMethods_cons_of_mem _ hm, buildMethods_cons_of_mem _ hm]
      rfl
    · rw [List.cons_append, buildMethods_cons_of_not_mem _ hm, buildMethods_cons_of_not_mem _ hm,
        ih]
      simp only [bind_assoc, pure_bind, List.map_cons, List.reverse_cons, List.append_assoc,
        List.cons_append, List.nil_append]

/-- The methods in front are distinct and each of them builds; this one repeats a name, which is
looked at first, or cannot be built. -/
structure Stumbles {α : Type} (build : MethodDecl → Except Error α) (service : String)
    (before : List MethodDecl) (m : MethodDecl) (e : Error) : Prop where
  distinct : (before.map (·.name)).Nodup
  builds : ∀ earlier ∈ before, ∃ a, build earlier = .ok a
  fault : (m.name ∈ before.map (·.name) ∧ e = declaredTwice service m.name) ∨
    (m.name ∉ before.map (·.name) ∧ build m = .error e)

theorem stumbles_map_iff {α β : Type} {build : MethodDecl → Except Error α} (f : α → β)
    {before : List MethodDecl} {m : MethodDecl} {e : Error} :
    Stumbles (fun m => (build m).map f) service before m e ↔
      Stumbles build service before m e := by
  have hok : ∀ m, (∃ c, (build m).map f = .ok c) ↔ ∃ a, build m = .ok a := by
    intro m
    cases build m with
    | error e' => simp [Except.map]
    | ok a => simp [Except.map]
  constructor
  · rintro ⟨hdistinct, hbuilds, hfault⟩
    rw [map_eq_error_iff] at hfault
    exact ⟨hdistinct, fun earlier hearlier => (hok earlier).mp (hbuilds earlier hearlier), hfault⟩
  · rintro ⟨hdistinct, hbuilds, hfault⟩
    rw [← map_eq_error_iff (f := f)] at hfault
    exact ⟨hdistinct, fun earlier hearlier => (hok earlier).mpr (hbuilds earlier hearlier), hfault⟩

theorem exists_buildMethods_eq_ok_iff {decls : List MethodDecl} :
    (∃ methods, b.buildMethods service seed [] decls = .ok methods) ↔
      (decls.map (·.name)).Nodup ∧
        ∀ m ∈ decls, ∃ method, b.buildMethod service seed m = .ok method := by
  simp only [buildMethods_eq_ok_iff, List.not_mem_nil, not_false_eq_true, implies_true, and_true,
    exists_and_right, exists_forall₂_iff]
  exact and_comm

theorem buildMethods_append_eq_error_iff {before after : List MethodDecl} {methods : List Method}
    {e : Error} (h : b.buildMethods service seed [] before = .ok methods) :
    b.buildMethods service seed [] (before ++ after) = .error e ↔
      b.buildMethods service seed (before.map (·.name)).reverse after = .error e := by
  rw [buildMethods_append, h, List.append_nil, bind_eq_error_iff]
  simp [bind_eq_error_iff, pure, Except.pure]

theorem buildMethods_of_stumbles {before : List MethodDecl} {m : MethodDecl} {e : Error}
    (h : Stumbles (b.buildMethod service seed) service before m e) (after : List MethodDecl) :
    b.buildMethods service seed [] (before ++ m :: after) = .error e := by
  obtain ⟨methods, hbefore⟩ := exists_buildMethods_eq_ok_iff.mpr ⟨h.distinct, h.builds⟩
  rw [buildMethods_append_eq_error_iff hbefore]
  rcases h.fault with ⟨hmem, rfl⟩ | ⟨hnew, hm⟩
  · exact buildMethods_cons_of_mem after (List.mem_reverse.mpr hmem)
  · rw [buildMethods_cons_of_not_mem after (by simpa using hnew), bind_eq_error_iff]
    exact Or.inl hm

theorem exists_stumbles_of_buildMethods {decls : List MethodDecl} {e : Error}
    (h : b.buildMethods service seed [] decls = .error e) :
    ∃ before m after, decls = before ++ m :: after ∧
      Stumbles (b.buildMethod service seed) service before m e := by
  -- from the end: either the methods before the last one fail already, or the last one is at fault
  induction decls using List.reverseRecOn with
  | nil => cases h
  | append_singleton before m ih =>
    cases hbefore : b.buildMethods service seed [] before with
    | error e' =>
      obtain rfl : e' = e := by
        rw [buildMethods_append, hbefore] at h
        exact Except.error.inj h
      obtain ⟨earlier, first, between, rfl, hstumbles⟩ := ih hbefore
      exact ⟨earlier, first, between ++ [m], by simp, hstumbles⟩
    | ok methods =>
      obtain ⟨hdistinct, hbuilds⟩ := exists_buildMethods_eq_ok_iff.mp ⟨methods, hbefore⟩
      refine ⟨before, m, [], rfl, hdistinct, hbuilds, ?_⟩
      rw [buildMethods_append_eq_error_iff hbefore] at h
      by_cases hm : m.name ∈ before.map (·.name)
      · rw [buildMethods_cons_of_mem [] (List.mem_reverse.mpr hm)] at h
        exact Or.inl ⟨hm, (Except.error.inj h).symm⟩
      · rw [buildMethods_cons_of_not_mem [] (by simpa using hm), bind_eq_error_iff] at h
        rcases h with h | ⟨method, _, h⟩
        · exact Or.inr ⟨hm, h⟩
        · cases h

/-! ## Services -/

def buildAlone (b : Builder) (package : String) (decl : InterfaceDecl) (m : MethodDecl) :
    Except Error Service :=
  b.buildIn package { decl with methods := [m] }

theorem buildIn_of_buildHead {head : Service} (hhead : b.buildHead package decl = .ok head)
    (methods : List MethodDecl) :
    b.buildIn package { decl with methods := methods } =
      (b.buildMethods decl.name head.flags [] methods).map ({ head with methods := · }) := by
  have h : b.buildHead package { decl with methods := methods } = .ok head := hhead
  rw [buildIn, h]
  change (b.buildMethods decl.name head.flags [] methods >>= fun built =>
    pure { head with methods := built }) = _
  cases b.buildMethods decl.name head.flags [] methods with
  | error e => rfl
  | ok built => rfl

theorem exists_buildIn_of_sublist {s : Service} (h : b.buildIn package decl = .ok s)
    {methods : List MethodDecl} (hsub : methods.Sublist decl.methods) :
    ∃ t, b.buildIn package { decl with methods := methods } = .ok t := by
  obtain ⟨head, built, hhead, hbuilt, _⟩ := parts_of_buildIn h
  obtain ⟨hdistinct, hbuilds⟩ := exists_buildMethods_eq_ok_iff.mp ⟨built, hbuilt⟩
  have hkept : ∃ kept, b.buildMethods decl.name head.flags [] methods = .ok kept :=
    exists_buildMethods_eq_ok_iff.mpr
      ⟨(hsub.map _).nodup hdistinct, fun m hm => hbuilds m (hsub.subset hm)⟩
  obtain ⟨kept, hkept⟩ := hkept
  exact ⟨_, by rw [buildIn_of_buildHead hhead, hkept]; rfl⟩

theorem buildAlone_of_buildHead {head : Service} (hhead : b.buildHead package decl = .ok head)
    (m : MethodDecl) :
    b.buildAlone package decl m =
      (b.buildMethod decl.name head.flags m).map ({ head with methods := [·] }) := by
  rw [buildAlone, buildIn_of_buildHead hhead, buildMethods_cons_of_not_mem [] List.not_mem_nil]
  cases b.buildMethod decl.name head.flags m with
  | error e => rfl
  | ok method => rfl

theorem stumbles_alone_iff {head : Service} (hhead : b.buildHead package decl = .ok head)
    {before : List MethodDecl} {m : MethodDecl} {e : Error} :
    Stumbles (b.buildAlone package decl) decl.name before m e ↔
      Stumbles (b.buildMethod decl.name head.flags) decl.name before m e := by
  rw [funext (buildAlone_of_buildHead hhead)]
  exact stumbles_map_iff _

/-- Equal declarations give equal methods, the order of methods is kept and means nothing else, and
the first method that stumbles ends the service whatever is declared after it. -/
theorem buildIn_siblings (b : Builder) :
    (∀ {package package' : String} {decl decl' : InterfaceDecl} {s s' : Service},
      decl.name = decl'.name → b.buildIn package decl = .ok s →
      b.buildIn package' decl' = .ok s' → s.flags = s'.flags →
      ∀ (i j : Nat) (m : MethodDecl), decl.methods[i]? = some m → decl'.methods[j]? = some m →
        ∃ method, s.methods[i]? = some method ∧ s'.methods[j]? = some method) ∧
    (∀ {package : String} {decl : InterfaceDecl} {s : Service} {methods : List MethodDecl},
      b.buildIn package decl = .ok s → decl.methods.Perm methods →
      ∃ built, b.buildIn package { decl with methods := methods } =
          .ok { s with methods := built } ∧
        (decl.methods.zip s.methods).Perm (methods.zip built)) ∧
    ∀ {package : String} {decl : InterfaceDecl} {head : Service} {e : Error},
      b.buildIn package { decl with methods := [] } = .ok head →
      (b.buildIn package decl = .error e → ∃ before m after, decl.methods = before ++ m :: after ∧
        Stumbles (b.buildAlone package decl) decl.name before m e) ∧
      ∀ before m after, Stumbles (b.buildAlone package decl) decl.name before m e →
        b.buildIn package { decl with methods := before ++ m :: after } = .error e := by
  refine ⟨?_, ?_, ?_⟩
  · intro package package' decl decl' s s' hname hs hs' hflags i j m hi hj
    obtain ⟨head, methods, _, hmethods, rfl⟩ := parts_of_buildIn hs
    obtain ⟨head', methods', _, hmethods', rfl⟩ := parts_of_buildIn hs'
    obtain ⟨method, hmethod, hm⟩ := exists_of_forall₂ (buildMethods_eq_ok_iff.mp hmethods).1 hi
    obtain ⟨method', hmethod', hm'⟩ := exists_of_forall₂ (buildMethods_eq_ok_iff.mp hmethods').1 hj
    have hflags : head.flags = head'.flags := hflags
    rw [← hname, ← hflags, hm] at hm'
    obtain rfl := Except.ok.inj hm'
    exact ⟨method, hmethod, hmethod'⟩
  · intro package decl s methods hs hperm
    obtain ⟨head, old, hhead, hold, rfl⟩ := parts_of_buildIn hs
    obtain ⟨built, hbuilt, hzip⟩ := buildMethods_perm hperm hold
    refine ⟨built, ?_, hzip⟩
    rw [buildIn_of_buildHead hhead, hbuilt]
    rfl
  · intro package decl head e hs
    obtain ⟨head, _, hhead, _, rfl⟩ := parts_of_buildIn hs
    replace hhead : b.buildHead package decl = .ok head := hhead
    simp only [stumbles_alone_iff hhead]
    constructor
    · intro h
      rw [buildIn_of_buildHead hhead decl.methods, map_eq_error_iff] at h
      exact exists_stumbles_of_buildMethods h
    · intro before m after h
      rw [buildIn_of_buildHead hhead, map_eq_error_iff]
      exact buildMethods_of_stumbles h after

section Shelf

def findDecl : MethodDecl where
  name := "Find"
  docs := ["// @disable(tracing) @http-path(/books/\x7bid\x7d)"]
  params := [⟨"ctx", .selector "context" "Context", []⟩, ⟨"id", .ident "int64", []⟩]
  results := [⟨"err", .ident "error", []⟩]

def dropDecl : MethodDecl where
  name := "Drop"
  params := [⟨"ctx", .selector "context" "Context", []⟩]
  results := [⟨"err", .ident "error", []⟩]

def shelfDecl : InterfaceDecl where
  name := "ShelfService"
  docs := ["// @generate(logging, tracing)"]
  methods := [findDecl, dropDecl]

def rackDecl : InterfaceDecl where
  name := "ShelfService"
  docs := ["// @generate(main) @alias(rack)", "// Racks. @generate(tracing, logging)"]
  embeds := ["Validator"]
  methods := [dropDecl, findDecl]

theorem buildIn_siblings_shelf :
    ∃ s s', ({} : Builder).buildIn "books" shelfDecl = .ok s ∧
      ({} : Builder).buildIn "racks" rackDecl = .ok s' ∧ s.flags = s'.flags ∧
      (∃ method, s.methods[0]? = some method ∧ s'.methods[1]? = some method) ∧
      (∃ built, ({} : Builder).buildIn "books" { shelfDecl with methods := [dropDecl, findDecl] } =
          .ok { s with methods := built } ∧
        ([findDecl, dropDecl].zip s.methods).Perm ([dropDecl, findDecl].zip built)) ∧
      ∀ after, ({} : Builder).buildIn "books"
          { shelfDecl with methods := findDecl :: findDecl :: after } =
        .error (declaredTwice "ShelfService" "Find") := by
  have hshelf : (({} : Builder).buildIn "books" shelfDecl).map (·.flags) =
      .ok (FlagSet.ofList ["logging", "tracing"]) := by decide +kernel
  have hrack : (({} : Builder).buildIn "racks" rackDecl).map (·.flags) =
      .ok (FlagSet.ofList ["logging", "tracing"]) := by decide +kernel
  obtain ⟨s, hs, hflags⟩ := map_eq_ok_iff.mp hshelf
  obtain ⟨s', hs', hflags'⟩ := map_eq_ok_iff.mp hrack
  obtain ⟨head, hhead⟩ := exists_buildIn_of_sublist hs (List.nil_sublist _)
  have hsingle : [findDecl].Sublist shelfDecl.methods := .cons_cons findDecl (List.nil_sublist _)
  obtain ⟨alone, halone⟩ := exists_buildIn_of_sublist hs hsingle
  obtain ⟨hequal, hperm, hstumbles⟩ := buildIn_siblings {}
  have hsame : s.flags = s'.flags := hflags.trans hflags'.symm
  have hname : shelfDecl.name = rackDecl.name := rfl
  have hfirst : shelfDecl.methods[0]? = some findDecl := rfl
  have hsecond : rackDecl.methods[1]? = some findDecl := rfl
  have hswap : shelfDecl.methods.Perm [dropDecl, findDecl] := .swap dropDecl findDecl []
  have hrepeated : Stumbles (({} : Builder).buildAlone "books" shelfDecl) "ShelfService" [findDecl]
      findDecl (declaredTwice "ShelfService" "Find") := by
    refine ⟨by simp, ?_, Or.inl ⟨by simp, rfl⟩⟩
    intro earlier hearlier
    rw [List.mem_singleton.mp hearlier]
    exact ⟨alone, halone⟩
  refine ⟨s, s', hs, hs', hsame, hequal hname hs hs' hsame 0 1 findDecl hfirst hsecond,
    hperm hs hswap, ?_⟩
  intro after
  exact (hstumbles hhead).2 [findDecl] findDecl after hrepeated

end Shelf

end ServiceLoom.Builder
