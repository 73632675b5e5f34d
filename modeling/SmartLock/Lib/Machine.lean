import Mathlib.Data.List.Basic
import Mathlib.Data.Option.Basic

/-!
# Deterministic labelled machines

A `Machine` maps a state and a label to the next state, or to nothing where the label is not
enabled. `run` folds a list of labels. The rules below are the ones a development about such a
machine uses: a run splits where its labels do (`run_append`), an invariant of every step is an
invariant of every run (`run_induction`), also under a condition on the steps taken (`Along`), a
relation to an abstract machine that every step keeps is kept by every run (`run_simulation`), and
the part of the state that belongs to one component runs on the labels of that component alone
(`run_project`).
-/

universe u v w x

/-- A deterministic labelled machine; a label that is not enabled has no next state. -/
structure Machine (σ : Type u) (ε : Type v) where
  step : σ → ε → Option σ

namespace Machine

variable {σ : Type u} {ε : Type v} {τ : Type w} {δ : Type x} (M : Machine σ ε)

/-- The state after the labels `es`, if each of them is enabled in its turn. -/
def run : σ → List ε → Option σ
  | s, [] => some s
  | s, e :: es => (M.step s e).bind fun s' => run s' es

@[simp] theorem run_nil (s : σ) : M.run s [] = some s := rfl

theorem run_cons (s : σ) (e : ε) (es : List ε) :
    M.run s (e :: es) = (M.step s e).bind fun s' => M.run s' es := rfl

theorem run_cons_eq_some {s t : σ} {e : ε} {es : List ε} :
    M.run s (e :: es) = some t ↔ ∃ m, M.step s e = some m ∧ M.run m es = some t := by
  rw [run_cons, Option.bind_eq_some_iff]

theorem run_append (s : σ) (es fs : List ε) :
    M.run s (es ++ fs) = (M.run s es).bind fun s' => M.run s' fs := by
  induction es generalizing s with
  | nil => rfl
  | cons e es ih =>
    rw [List.cons_append, run_cons, run_cons, Option.bind_assoc]
    exact congrArg _ (funext ih)

theorem run_append_eq_some {s t : σ} {es fs : List ε} :
    M.run s (es ++ fs) = some t ↔ ∃ m, M.run s es = some m ∧ M.run m fs = some t := by
  rw [run_append, Option.bind_eq_some_iff]

@[simp] theorem run_singleton (s : σ) (e : ε) : M.run s [e] = M.step s e := by
  rw [run_cons]
  exact Option.bind_fun_some (M.step s e)

/-! ## Invariants -/

/-- Every step of the run from `s` over `es` is taken from a state and with a label in `P`. -/
def Along (P : σ → ε → Prop) : σ → List ε → Prop
  | _, [] => True
  | s, e :: es => P s e ∧ ∀ s', M.step s e = some s' → Along P s' es

/-- Along a concrete run a decidable condition can be evaluated. -/
instance decidableAlong (P : σ → ε → Prop) [∀ s e, Decidable (P s e)] :
    (s : σ) → (es : List ε) → Decidable (M.Along P s es)
  | _, [] => isTrue trivial
  | s, e :: es =>
    match hs : M.step s e with
    | none => decidable_of_iff (P s e) (by simp [Along, hs])
    | some s' =>
      have := decidableAlong P s' es
      decidable_of_iff (P s e ∧ M.Along P s' es) (by simp [Along, hs])

variable {M}

theorem along_of_forall {P : σ → ε → Prop} {s : σ} {es : List ε}
    (h : ∀ e ∈ es, ∀ s, P s e) : M.Along P s es := by
  induction es generalizing s with
  | nil => trivial
  | cons e es ih =>
    exact ⟨h e List.mem_cons_self s, fun s' _ => ih fun e' he' => h e' (List.mem_cons_of_mem _ he')⟩

theorem along_of_append {P : σ → ε → Prop} {s m : σ} {es fs : List ε}
    (hP : M.Along P s (es ++ fs)) (h : M.run s es = some m) : M.Along P m fs := by
  induction es generalizing s with
  | nil => cases h; exact hP
  | cons e es ih =>
    obtain ⟨t, ht, hrun⟩ := M.run_cons_eq_some.mp h
    exact ih (hP.2 t ht) hrun

/-- **Invariants of runs.** What every step in `P` preserves, every run along `P` preserves. -/
theorem run_induction {P : σ → ε → Prop} {I : σ → Prop}
    (hstep : ∀ s e s', I s → P s e → M.step s e = some s' → I s')
    {s t : σ} {es : List ε} (hI : I s) (hP : M.Along P s es) (h : M.run s es = some t) : I t := by
  induction es generalizing s with
  | nil => cases h; exact hI
  | cons e es ih =>
    obtain ⟨m, hm, hrun⟩ := M.run_cons_eq_some.mp h
    exact ih (hstep s e m hI hP.1 hm) (hP.2 m hm) hrun

theorem run_induction_of_forall {P : ε → Prop} {I : σ → Prop}
    (hstep : ∀ s e s', I s → P e → M.step s e = some s' → I s')
    {s t : σ} {es : List ε} (hI : I s) (hP : ∀ e ∈ es, P e) (h : M.run s es = some t) : I t :=
  run_induction (P := fun _ e => P e) hstep hI (along_of_forall fun e he _ => hP e he) h

theorem run_invariant {I : σ → Prop} (hstep : ∀ s e s', I s → M.step s e = some s' → I s')
    {s t : σ} {es : List ε} (hI : I s) (h : M.run s es = some t) : I t :=
  run_induction_of_forall (P := fun _ => True) (fun s e s' hs _ => hstep s e s' hs) hI
    (fun _ _ => trivial) h

theorem along_of_invariant {P : σ → ε → Prop} {I : σ → Prop} {Q : σ → ε → Prop}
    (hstep : ∀ s e s', I s → P s e → M.step s e = some s' → I s') (hQ : ∀ s e, I s → Q s e)
    {s : σ} {es : List ε} (hI : I s) (hP : M.Along P s es) : M.Along Q s es := by
  induction es generalizing s with
  | nil => trivial
  | cons e es ih =>
    exact ⟨hQ s e hI, fun s' hs' => ih (hstep s e s' hI hP.1 hs') (hP.2 s' hs')⟩

theorem exists_run_of_any {P : σ → Prop} [DecidablePred P] {s : σ} {es : List ε}
    (h : (M.run s es).any (fun t => P t) = true) : ∃ t, M.run s es = some t ∧ P t := by
  obtain ⟨t, ht, hP⟩ := (Option.any_eq_true _ _).mp h
  exact ⟨t, ht, of_decide_eq_true hP⟩

/-! ## Histories -/

/-- A log that every step extends by what the step gains is extended by a run with the gains of
its steps: each entry was there at the start or was gained at some point of the run. -/
theorem mem_history {α : Type*} {log : σ → List α} {gain : σ → ε → Option α}
    (hlog : ∀ s e s', M.step s e = some s' → log s' = log s ++ (gain s e).toList)
    {s t : σ} {es : List ε} (h : M.run s es = some t) {x : α} (hx : x ∈ log t) :
    x ∈ log s ∨ ∃ pre e post m, es = pre ++ e :: post ∧ M.run s pre = some m ∧
      gain m e = some x := by
  induction es generalizing s with
  | nil => cases h; exact Or.inl hx
  | cons e es ih =>
    obtain ⟨m, hm, hrun⟩ := M.run_cons_eq_some.mp h
    rcases ih hrun with hmem | ⟨pre, e', post, m', rfl, hpre, hgain⟩
    · rw [hlog s e m hm, List.mem_append, Option.mem_toList] at hmem
      rcases hmem with hmem | hmem
      · exact Or.inl hmem
      · exact Or.inr ⟨[], e, es, s, rfl, rfl, hmem⟩
    · exact Or.inr ⟨e :: pre, e', post, m', rfl, M.run_cons_eq_some.mpr ⟨m, hm, hpre⟩, hgain⟩

/-- An invariant of the state and of the labels seen so far, through `label`. -/
theorem run_trace {I : σ → List δ → Prop} {label : ε → Option δ}
    (hstep : ∀ s e s' ds, I s ds → M.step s e = some s' → I s' (ds ++ (label e).toList))
    {s t : σ} {es : List ε} {ds : List δ} (hI : I s ds) (h : M.run s es = some t) :
    I t (ds ++ es.filterMap label) := by
  induction es generalizing s ds with
  | nil =>
    cases h
    rw [List.filterMap_nil, List.append_nil]
    exact hI
  | cons e es ih =>
    obtain ⟨m, hm, hrun⟩ := M.run_cons_eq_some.mp h
    have hrest := ih (hstep s e m ds hI hm) hrun
    cases he : label e with
    | none =>
      rw [he, Option.toList_none, List.append_nil] at hrest
      rw [List.filterMap_cons_none he]
      exact hrest
    | some d =>
      rw [he, Option.toList_some, List.append_assoc, List.singleton_append] at hrest
      rw [List.filterMap_cons_some he]
      exact hrest

/-! ## Simulation and projection -/

/-- **Forward simulation.** If every step of `M` from related states is matched by a run of `N`
to related states, then so is every run. -/
theorem run_simulation {N : Machine τ δ} {R : σ → τ → Prop}
    (hstep : ∀ s e s' a, R s a → M.step s e = some s' →
      ∃ ds a', N.run a ds = some a' ∧ R s' a')
    {s t : σ} {a : τ} {es : List ε} (hR : R s a) (h : M.run s es = some t) :
    ∃ ds b, N.run a ds = some b ∧ R t b := by
  induction es generalizing s a with
  | nil => cases h; exact ⟨[], a, rfl, hR⟩
  | cons e es ih =>
    obtain ⟨m, hm, hrun⟩ := M.run_cons_eq_some.mp h
    obtain ⟨ds, a', hds, hR'⟩ := hstep s e m a hR hm
    obtain ⟨ds', b, hds', hRb⟩ := ih hR' hrun
    exact ⟨ds ++ ds', b, N.run_append_eq_some.mpr ⟨a', hds, hds'⟩, hRb⟩

theorem run_simulation_along {N : Machine τ δ} {P : σ → ε → Prop} {R : σ → τ → Prop}
    (hstep : ∀ s e s' a, R s a → P s e → M.step s e = some s' →
      ∃ ds a', N.run a ds = some a' ∧ R s' a')
    {s t : σ} {a : τ} {es : List ε} (hR : R s a) (hP : M.Along P s es) (h : M.run s es = some t) :
    ∃ ds b, N.run a ds = some b ∧ R t b := by
  induction es generalizing s a with
  | nil => cases h; exact ⟨[], a, rfl, hR⟩
  | cons e es ih =>
    obtain ⟨m, hm, hrun⟩ := M.run_cons_eq_some.mp h
    obtain ⟨ds, a', hds, hR'⟩ := hstep s e m a hR hP.1 hm
    obtain ⟨ds', b, hds', hRb⟩ := ih hR' (hP.2 m hm) hrun
    exact ⟨ds ++ ds', b, N.run_append_eq_some.mpr ⟨a', hds, hds'⟩, hRb⟩

/-- The component `N` of `M` seen through `view`: a label of `M` is a label of the component or
leaves the component as it is. -/
def Projects (M : Machine σ ε) (N : Machine τ δ) (P : σ → ε → Prop) (view : σ → τ)
    (label : ε → Option δ) : Prop :=
  ∀ s e s', P s e → M.step s e = some s' →
    match label e with
    | some d => N.step (view s) d = some (view s')
    | none => view s' = view s

/-- **Projection.** The view of a run is the run of the component over its own labels: the steps
of everything else are skipped. -/
theorem run_project {N : Machine τ δ} {P : σ → ε → Prop} {view : σ → τ} {label : ε → Option δ}
    (hproj : Projects M N P view label) {s t : σ} {es : List ε} (hP : M.Along P s es)
    (h : M.run s es = some t) : N.run (view s) (es.filterMap label) = some (view t) := by
  induction es generalizing s with
  | nil => cases h; rfl
  | cons e es ih =>
    obtain ⟨m, hm, hrun⟩ := M.run_cons_eq_some.mp h
    have hrest := ih (hP.2 m hm) hrun
    have hview := hproj s e m hP.1 hm
    cases hl : label e with
    | none =>
      rw [hl] at hview
      rw [List.filterMap_cons_none hl, ← hview]
      exact hrest
    | some d =>
      rw [hl] at hview
      rw [List.filterMap_cons_some hl]
      exact N.run_cons_eq_some.mpr ⟨view m, hview, hrest⟩

/-- **Noninterference.** Two runs that give the component the same labels from the same view end
in the same view, whatever else they do. -/
theorem view_eq_of_labels_eq {N : Machine τ δ} {P : σ → ε → Prop} {view : σ → τ}
    {label : ε → Option δ} (hproj : Projects M N P view label) {s₁ s₂ t₁ t₂ : σ}
    {es₁ es₂ : List ε} (hs : view s₁ = view s₂) (hP₁ : M.Along P s₁ es₁) (hP₂ : M.Along P s₂ es₂)
    (hl : es₁.filterMap label = es₂.filterMap label) (h₁ : M.run s₁ es₁ = some t₁)
    (h₂ : M.run s₂ es₂ = some t₂) : view t₁ = view t₂ := by
  have e₁ := run_project hproj hP₁ h₁
  have e₂ := run_project hproj hP₂ h₂
  rw [hs, hl, e₂] at e₁
  exact (Option.some.inj e₁).symm

end Machine
