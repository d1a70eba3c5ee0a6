import Mathlib.Control.Monad.Basic

/-!
# Results of computations that can fail

A computation refines another if whatever it returns is returned by the other as well. Nothing is
said where it fails, so a refinement may turn failures into results, but it never changes a result.
Every way of combining computations respects refinement.

A computation reports a list of faults if it ends with the first of them, and returns where the list
is empty. The faults of parts that run one after the other are listed one after the other.
-/

namespace ServiceLoom

variable {ε α β : Type}

theorem bind_eq_ok_iff {x : Except ε α} {f : α → Except ε β} {b : β} :
    x >>= f = .ok b ↔ ∃ a, x = .ok a ∧ f a = .ok b := by
  cases x with
  | error e => simp [bind, Except.bind]
  | ok a => simp [bind, Except.bind]

theorem bind_eq_error_iff {x : Except ε α} {f : α → Except ε β} {e : ε} :
    x >>= f = .error e ↔ x = .error e ∨ ∃ a, x = .ok a ∧ f a = .error e := by
  cases x with
  | error e' => simp [bind, Except.bind]
  | ok a => simp [bind, Except.bind]

theorem map_eq_ok_iff {x : Except ε α} {f : α → β} {b : β} :
    x.map f = .ok b ↔ ∃ a, x = .ok a ∧ f a = b := by
  cases x with
  | error e => simp [Except.map]
  | ok a => simp [Except.map]

theorem map_eq_error_iff {x : Except ε α} {f : α → β} {e : ε} :
    x.map f = .error e ↔ x = .error e := by
  cases x with
  | error e' => simp [Except.map]
  | ok a => simp [Except.map]

theorem exists_of_mem_mapM {f : α → Except ε β} {as : List α} {bs : List β}
    (h : as.mapM f = .ok bs) {b : β} (hb : b ∈ bs) : ∃ a ∈ as, f a = .ok b := by
  induction as generalizing bs with
  | nil =>
    obtain rfl := Except.ok.inj h
    cases hb
  | cons a as ih =>
    rw [List.mapM_cons] at h
    obtain ⟨c, hc, h⟩ := bind_eq_ok_iff.mp h
    obtain ⟨cs, hcs, h⟩ := bind_eq_ok_iff.mp h
    obtain rfl := Except.ok.inj h
    rcases List.mem_cons.mp hb with rfl | hb
    · exact ⟨a, List.mem_cons_self, hc⟩
    · obtain ⟨a', ha', hfa'⟩ := ih hcs hb
      exact ⟨a', List.mem_cons_of_mem a ha', hfa'⟩

/-- A run fails where one of its steps does, and then with its error. -/
theorem foldlM_eq_error_iff {f : β → α → Except ε β} {as : List α} {b : β} {e : ε} :
    as.foldlM f b = .error e ↔ ∃ before a after c, as = before ++ a :: after ∧
      before.foldlM f b = .ok c ∧ f c a = .error e := by
  constructor
  · intro h
    induction as generalizing b with
    | nil => cases h
    | cons a as ih =>
      rw [List.foldlM_cons] at h
      rcases bind_eq_error_iff.mp h with h | ⟨c, hc, h⟩
      · exact ⟨[], a, as, b, rfl, rfl, h⟩
      · obtain ⟨before, first, after, d, rfl, hbefore, hfirst⟩ := ih h
        refine ⟨a :: before, first, after, d, rfl, ?_, hfirst⟩
        rw [List.foldlM_cons, hc]
        exact hbefore
  · rintro ⟨before, a, after, c, rfl, hbefore, ha⟩
    rw [List.foldlM_append, hbefore]
    change (a :: after).foldlM f c = .error e
    rw [List.foldlM_cons, ha]
    rfl

/-- What holds at the start and is kept by every step, told what the steps before it took in, holds
at the end. -/
theorem foldlM_invariant {f : β → α → Except ε β} (P : List α → β → Prop)
    (hstep : ∀ before a s t, P before s → f s a = .ok t → P (before ++ [a]) t) {as : List α}
    {b c : β} (hstart : P [] b) (h : as.foldlM f b = .ok c) : P as c := by
  suffices hrest : ∀ (rest before : List α) (s : β), P before s → rest.foldlM f s = .ok c →
      P (before ++ rest) c from hrest as [] b hstart h
  intro rest
  induction rest with
  | nil =>
    intro before s hs hc
    obtain rfl := Except.ok.inj hc
    rwa [List.append_nil]
  | cons a rest ih =>
    intro before s hs hc
    rw [List.foldlM_cons] at hc
    obtain ⟨t, ht, hc⟩ := bind_eq_ok_iff.mp hc
    have := ih (before ++ [a]) t (hstep before a s t hs ht) hc
    rwa [List.append_assoc] at this

/-- Every error that the computation can end with satisfies `P`. -/
def Blames (P : ε → Prop) (x : Except ε α) : Prop := ∀ e, x = .error e → P e

namespace Blames

variable {P : ε → Prop}

theorem ok (a : α) : Blames P (.ok a : Except ε α) := by
  intro e h
  cases h

theorem error {e : ε} (h : P e) : Blames P (.error e : Except ε α) := by
  intro e' he
  cases he
  exact h

theorem bind {x : Except ε α} {f : α → Except ε β} (hx : Blames P x)
    (hf : ∀ a, x = .ok a → Blames P (f a)) : Blames P (x >>= f) := by
  intro e he
  rcases bind_eq_error_iff.mp he with he | ⟨a, ha, he⟩
  · exact hx e he
  · exact hf a ha e he

theorem foldlM {f : β → α → Except ε β} (h : ∀ b a, Blames P (f b a)) (as : List α) (b : β) :
    Blames P (as.foldlM f b) := by
  induction as generalizing b with
  | nil => exact ok b
  | cons a as ih =>
    rw [List.foldlM_cons]
    exact bind (h b a) fun c _ => ih c

end Blames

/-- The computation ends with the first of the faults, and returns if there is none. -/
def Reports (faults : List ε) : Except ε α → Prop
  | .ok _ => faults = []
  | .error e => faults.head? = some e

namespace Reports

variable {faults : List ε} {x : Except ε α}

theorem ok (a : α) : Reports [] (.ok a : Except ε α) := rfl

theorem error (e : ε) : Reports [e] (.error e : Except ε α) := rfl

theorem exists_ok_iff (h : Reports faults x) : (∃ a, x = .ok a) ↔ faults = [] := by
  cases x with
  | error e =>
    have hfirst : faults.head? = some e := h
    constructor
    · rintro ⟨a, ha⟩
      cases ha
    · rintro rfl
      cases hfirst
  | ok a => exact ⟨fun _ => h, fun _ => ⟨a, rfl⟩⟩

theorem eq_ok_iff {check : Except ε Unit} (h : Reports faults check) :
    check = .ok () ↔ faults = [] := by
  constructor
  · intro hok
    exact h.exists_ok_iff.mp ⟨(), hok⟩
  · intro hnone
    obtain ⟨_, hok⟩ := h.exists_ok_iff.mpr hnone
    exact hok

theorem eq_error_iff (h : Reports faults x) {e : ε} :
    x = .error e ↔ faults.head? = some e := by
  cases x with
  | error e' =>
    have hfirst : faults.head? = some e' := h
    rw [hfirst, Except.error.injEq, Option.some.injEq]
  | ok a =>
    obtain rfl : faults = [] := h
    simp

/-- What is wrong with the first part comes first, and the second part is told that the first one
returned. -/
theorem bind {more : List ε} {f : α → Except ε β} (hx : Reports faults x)
    (hf : ∀ a, x = .ok a → Reports more (f a)) : Reports (faults ++ more) (x >>= f) := by
  cases x with
  | error e =>
    have hfirst : faults.head? = some e := hx
    exact List.head?_append.trans (by rw [hfirst]; rfl)
  | ok a =>
    obtain rfl : faults = [] := hx
    exact hf a rfl

theorem map {f : α → β} (h : Reports faults x) : Reports faults (x.map f) := by
  cases x with
  | error e => exact h
  | ok a => exact h

end Reports

def Refines (x y : Except ε α) : Prop := ∀ a, x = .ok a → y = .ok a

namespace Refines

theorem refl (x : Except ε α) : Refines x x := fun _ h => h

theorem bind {x y : Except ε α} {f g : α → Except ε β} (h : Refines x y)
    (hf : ∀ a, Refines (f a) (g a)) : Refines (x >>= f) (y >>= g) := by
  intro b hb
  obtain ⟨a, hx, hfa⟩ := bind_eq_ok_iff.mp hb
  exact bind_eq_ok_iff.mpr ⟨a, h a hx, hf a b hfa⟩

theorem foldlM {f g : β → α → Except ε β} (h : ∀ b a, Refines (f b a) (g b a)) (as : List α)
    (b : β) : Refines (as.foldlM f b) (as.foldlM g b) := by
  induction as generalizing b with
  | nil => exact refl _
  | cons a as ih =>
    rw [List.foldlM_cons, List.foldlM_cons]
    exact bind (h b a) ih

end Refines

section State

variable {σ : Type} {s u : σ}

/-- The result of a computation on a state, and the state it leaves. -/
def runOn (x : ExceptT ε (StateM σ) α) (s : σ) : Except ε α × σ := x.run.run s

@[simp] theorem runOn_pure (a : α) (s : σ) :
    runOn (pure a : ExceptT ε (StateM σ) α) s = (.ok a, s) := rfl

@[simp] theorem runOn_throw (e : ε) (s : σ) :
    runOn (throw e : ExceptT ε (StateM σ) α) s = (.error e, s) := rfl

theorem runOn_lift (x : StateM σ α) (s : σ) :
    runOn (ExceptT.lift x : ExceptT ε (StateM σ) α) s = (.ok (x s).1, (x s).2) := rfl

@[simp] theorem runOn_liftM (x : Except ε α) (s : σ) :
    runOn (liftM x : ExceptT ε (StateM σ) α) s = (x, s) := rfl

theorem runOn_bind (x : ExceptT ε (StateM σ) α) (f : α → ExceptT ε (StateM σ) β) (s : σ) :
    runOn (x >>= f) s = match runOn x s with
      | (.ok a, t) => runOn (f a) t
      | (.error e, t) => (.error e, t) := by
  simp only [runOn, ExceptT.run_bind, StateT.run_bind]
  rcases x.run.run s with ⟨e | a, t⟩
  · rfl
  · rfl

theorem runOn_bind_eq_ok_iff {x : ExceptT ε (StateM σ) α} {f : α → ExceptT ε (StateM σ) β}
    {b : β} :
    runOn (x >>= f) s = (.ok b, u) ↔
      ∃ a t, runOn x s = (.ok a, t) ∧ runOn (f a) t = (.ok b, u) := by
  rw [runOn_bind]
  constructor
  · intro h
    rcases hx : runOn x s with ⟨e | a, t⟩
    · simp [hx] at h
    · exact ⟨a, t, rfl, by simpa [hx] using h⟩
  · rintro ⟨a, t, hx, hf⟩
    rwa [hx]

theorem runOn_mapM_cons_eq_ok_iff {f : α → ExceptT ε (StateM σ) β} {a : α} {as : List α}
    {bs : List β} :
    runOn ((a :: as).mapM f) s = (.ok bs, u) ↔ ∃ b t rest,
      runOn (f a) s = (.ok b, t) ∧ runOn (as.mapM f) t = (.ok rest, u) ∧ bs = b :: rest := by
  simp only [List.mapM_cons, runOn_bind_eq_ok_iff, runOn_pure, Prod.mk.injEq, Except.ok.injEq]
  constructor
  · rintro ⟨b, t, hb, rest, v, hrest, rfl, rfl⟩
    exact ⟨b, t, rest, hb, hrest, rfl⟩
  · rintro ⟨b, t, rest, hb, hrest, rfl⟩
    exact ⟨b, t, hb, rest, u, hrest, rfl, rfl⟩

end State

end ServiceLoom
