import ServiceLoom.Proofs.Build.Token
import ServiceLoom.Proofs.Tag.Params
import ServiceLoom.Proofs.Tag.Unambiguous

/-!
# Parameter tags on methods

A parameter tag does the same wherever it is written: in the comment of the parameter, or on the
method for one or several named arguments. The method's tag is read back into the names and the tags
it was written from, and each of the tags is then applied to the first argument of each name.
-/

namespace ServiceLoom.Builder

open Tag

variable {b : Builder} {entity label : String}

theorem shaped_of_applyParamToken (hs : b.parsers.Sound) {a c : Argument} {token : String}
    (h : b.applyParamToken entity a token = .ok c) : Shaped token.toList := by
  obtain ⟨tag, htag, _⟩ := bind_eq_ok_iff.mp h
  have hpools := hs.pools .param
  obtain ⟨hname, hinvokes⟩ := hpools.resolve_eq_ok_iff_invokes.mp (resolveOn_eq_ok_iff.mp htag)
  have hmem := (Pools.mem_append_iff tag.pool).mpr (Or.inl hname)
  exact hinvokes.shaped (hpools.allowed tag.name hmem)

theorem shaped_of_applyParamTokens (hs : b.parsers.Sound) {a c : Argument} {tokens : List String}
    (h : b.applyParamTokens entity a tokens = .ok c) : ∀ token ∈ tokens, Shaped token.toList := by
  induction tokens generalizing a with
  | nil => simp
  | cons token tokens ih =>
    rw [applyParamTokens, List.foldlM_cons] at h
    obtain ⟨d, htoken, hrest⟩ := bind_eq_ok_iff.mp h
    rw [List.forall_mem_cons]
    exact ⟨shaped_of_applyParamToken hs htoken, ih hrest⟩

theorem changeFirst_append_cons {α ε : Type} {p : α → Bool} {change : α → Except ε α} {missing : ε}
    {before after : List α} {a : α} (hbefore : ∀ c ∈ before, p c = false) (ha : p a = true) :
    changeFirst p change missing (before ++ a :: after) =
      (change a).map fun c => before ++ c :: after := by
  induction before with
  | nil =>
    rw [List.nil_append, changeFirst, if_pos ha]
    cases change a <;> rfl
  | cons c before ih =>
    rw [List.forall_mem_cons] at hbefore
    rw [List.cons_append, changeFirst, if_neg (by simp [hbefore.1]), ih hbefore.2]
    cases change a <;> rfl

theorem applyParams_eq {m : Method} {before after : List Argument} {a : Argument}
    {tokens : List String} (hm : m.arguments = before ++ a :: after)
    (hfirst : ∀ c ∈ before, c.name ≠ a.name) :
    b.applyParams entity label tokens m a.name =
      (b.applyParamTokens (paramEntity label a.name) a tokens).map fun c =>
        { m with arguments := before ++ c :: after } := by
  have hbefore : ∀ c ∈ before, (c.name == a.name) = false := by
    intro c hc
    simpa using hfirst c hc
  rw [applyParams, hm, changeFirst_append_cons hbefore (by simp)]
  cases b.applyParamTokens (paramEntity label a.name) a tokens <;> rfl

/-- The token is read back into what it was written from. -/
theorem applyMethodToken_paramsToken (hs : b.parsers.Sound) {text : String} {names : List String}
    {tags : List String} (htext : Lists text names) (hne : tags ≠ [])
    (htags : ∀ tag ∈ tags, Shaped tag.toList) (m : Method) :
    b.applyMethodToken entity label m (paramsToken text tags) =
      names.foldlM (b.applyParams entity label tags) m := by
  have hbuiltin : "params" ∈ MethodTag.names := by decide
  have hresolve : resolve (paramsToken text tags) MethodTag.names b.parsers.method.names =
      .ok ⟨.builtin, "params", some (paramsPayload text tags)⟩ :=
    (hs.pools .method).resolve_eq_ok_iff_invokes.mpr ⟨hbuiltin, invokes_paramsToken htext htags⟩
  have hread : readOn entity (paramsToken text tags)
      (Payload.params (some (paramsPayload text tags))) = .ok ⟨names, tags⟩ :=
    readOn_eq_ok_iff.mpr (params_paramsPayload htext hne htags)
  rw [applyMethodToken_eq_step, step_of_builtin hresolve (MethodTag.ofName?_name .params),
    applyMethodTag, hread]
  rfl

theorem foldlM_paramsToken (hs : b.parsers.Sound) {names tags : List String}
    (hvalid : ∀ name ∈ names, Payload.isName name = true) (hne : tags ≠ [])
    (htags : ∀ tag ∈ tags, Shaped tag.toList) (m : Method) :
    (names.map (paramsToken · tags)).foldlM (b.applyMethodToken entity label) m =
      names.foldlM (b.applyParams entity label tags) m := by
  induction names generalizing m with
  | nil => rfl
  | cons name names ih =>
    rw [List.forall_mem_cons] at hvalid
    rw [List.map_cons, List.foldlM_cons, List.foldlM_cons,
      applyMethodToken_paramsToken hs (lists_name hvalid.1) hne htags, List.foldlM_cons]
    simp only [List.foldlM_nil, bind_pure]
    exact bind_congr fun n => ih hvalid.2 n

/-- Tags that the argument takes one after the other it takes through the method too, and one tag
for several names is one tag for each of them. -/
theorem applyParamTokens_moves (b : Builder) (hreached : b.parsers.Reached) (entity label : String)
    (m : Method) :
    (∀ (before after : List Argument) (a c : Argument) (tokens : List String),
      m.arguments = before ++ a :: after → (∀ d ∈ before ++ after, d.name ≠ a.name) →
      Payload.isName a.name = true → tokens ≠ [] →
      b.applyParamTokens (paramEntity label a.name) a tokens = .ok c →
      b.applyMethodToken entity label m (paramsToken a.name tokens) =
        .ok { m with arguments := before ++ c :: after }) ∧
    ∀ names tokens : List String, names ≠ [] → (∀ name ∈ names, Payload.isName name = true) →
      tokens ≠ [] → (∀ token ∈ tokens, Shaped token.toList) →
      b.applyMethodToken entity label m (paramsToken (nameList names) tokens) =
        (names.map (paramsToken · tokens)).foldlM (b.applyMethodToken entity label) m := by
  have hs := hreached.sound
  constructor
  · intro before after a c tokens hm honce hname hne hc
    have hfirst : ∀ d ∈ before, d.name ≠ a.name := fun d hd =>
      honce d (List.mem_append_left after hd)
    rw [applyMethodToken_paramsToken hs (lists_name hname) hne (shaped_of_applyParamTokens hs hc),
      List.foldlM_cons, applyParams_eq hm hfirst, hc]
    rfl
  · intro names tokens hnames hvalid hne htokens
    rw [applyMethodToken_paramsToken hs (lists_nameList hnames hvalid) hne htokens,
      foldlM_paramsToken hs hvalid hne htokens]

section Find

def masking : TagParser Argument := fun _ payload => .ok (.ofList [("with", payload.getD "*")])

def maskingBuilder : Builder where
  parsers := { param := [(⟨"mask"⟩, masking)] }

def idArgument : Argument := plainArgument ⟨"id", .ident "int64", []⟩ (.builtin "int64") []

def limitArgument : Argument := plainArgument ⟨"limit", .ident "int", []⟩ (.builtin "int") []

def findMethod : Method :=
  maskingBuilder.plainMethod "BookService" FlagSet.empty "Find" [] [limitArgument, idArgument] []

def maskedId : Argument :=
  { idArgument with
    origin := .query
    originTagged := true
    tags := ⟨[("mask", ⟨[("with", "(a, b), [c]")]⟩)]⟩ }

theorem applyParamTokens_moves_find :
    maskingBuilder.parsers.Reached ∧
      maskingBuilder.applyParamTokens "param BookService.Find.id" idArgument
        ["@Http-Origin(QUERY)", "@mask((a, b), [c])"] = .ok maskedId ∧
      maskingBuilder.applyMethodToken "method BookService.Find" "BookService.Find" findMethod
          "@params(id, (@Http-Origin(QUERY), @mask((a, b), [c])))" =
        .ok { findMethod with arguments := [limitArgument, maskedId] } ∧
      maskingBuilder.applyMethodToken "method BookService.Find" "BookService.Find" findMethod
          "@params([id, ids, id], (@mask))" =
        ["@params(id, (@mask))", "@params(ids, (@mask))", "@params(id, (@mask))"].foldlM
          (maskingBuilder.applyMethodToken "method BookService.Find" "BookService.Find")
          findMethod := by
  have hreached : maskingBuilder.parsers.Reached := ⟨[.param "mask" masking], rfl⟩
  have hmasked : maskingBuilder.applyParamTokens "param BookService.Find.id" idArgument
      ["@Http-Origin(QUERY)", "@mask((a, b), [c])"] = .ok maskedId := by decide
  have hallowed : ∀ c ∈ "mask".toList, TagName.allowed c = true :=
    List.all_eq_true.mp (by decide)
  have hshaped : Shaped "@mask".toList := .bare hallowed
  obtain ⟨hown, hseveral⟩ := applyParamTokens_moves maskingBuilder hreached
    "method BookService.Find" "BookService.Find" findMethod
  have hone : paramsToken "id" ["@Http-Origin(QUERY)", "@mask((a, b), [c])"] =
      "@params(id, (@Http-Origin(QUERY), @mask((a, b), [c])))" := by decide
  have hmany : paramsToken (nameList ["id", "ids", "id"]) ["@mask"] =
      "@params([id, ids, id], (@mask))" := by decide
  have heach : ["id", "ids", "id"].map (paramsToken · ["@mask"]) =
      ["@params(id, (@mask))", "@params(ids, (@mask))", "@params(id, (@mask))"] := by
    decide
  refine ⟨hreached, hmasked, ?_, ?_⟩
  · rw [← hone]
    exact hown [limitArgument] [] idArgument maskedId _ rfl (by decide) (by decide)
      (List.cons_ne_nil _ _) hmasked
  · rw [← hmany, ← heach]
    exact hseveral ["id", "ids", "id"] ["@mask"] (List.cons_ne_nil _ _) (by decide)
      (List.cons_ne_nil _ _) (by simpa using hshaped)

end Find

end ServiceLoom.Builder
