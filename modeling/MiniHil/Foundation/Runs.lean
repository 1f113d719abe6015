import Mathlib.Data.List.Basic
import Mathlib.Order.RelClasses

/-! # Finite runs of labelled step relations

Runs, invariants and conditional runs for an arbitrary step relation, states that are reached
whatever steps are taken, and the fold counterparts for deterministic steps. Nothing here depends
on a particular program: a state machine supplies its step and inherits the run-level statements.
-/
namespace MiniHil.Runs

variable {σ τ ε ι β : Type*}

/-- A finite run of a labelled step relation, its labels oldest first. -/
inductive Run (step : σ → ε → σ → Prop) : σ → List ε → σ → Prop
  | refl {s : σ} : Run step s [] s
  | step {s t u : σ} {e : ε} {es : List ε} : step s e t → Run step t es u → Run step s (e :: es) u

section Relations
variable {step : σ → ε → σ → Prop} {s t : σ} {es : List ε}

theorem Run.single {e : ε} (h : step s e t) : Run step s [e] t := .step h .refl

theorem Run.concat {e : ε} {u : σ} (hr : Run step s es t) (h : step t e u) : Run step s (es ++ [e]) u := by
  induction hr with
  | refl => exact .single h
  | step he _ ih => exact .step he (ih h)

theorem Run.trans {fs : List ε} {u : σ} (hr : Run step s es t) (hr' : Run step t fs u) : Run step s (es ++ fs) u := by
  induction hr with
  | refl => exact hr'
  | step he _ ih => exact .step he (ih hr')

theorem Run.invariant {P : σ → Prop} (hstep : ∀ s e t, P s → step s e t → P t)
    (hr : Run step s es t) (hs : P s) : P t := by
  induction hr with
  | refl => exact hs
  | step he _ ih => exact ih (hstep _ _ _ hs he)

/-- Every step of a run meets the condition. -/
def Always (step : σ → ε → σ → Prop) (P : σ → ε → σ → Prop) (s : σ) (es : List ε) : Prop :=
  ∀ pre e post t u, es = pre ++ e :: post → Run step s pre t → step t e u → P t e u

theorem Always.nil {P : σ → ε → σ → Prop} : Always step P s [] := by
  intro pre e post t u hes
  cases pre <;> cases hes

theorem Always.cons {P : σ → ε → σ → Prop} {e : ε} (h : ∀ t, step s e t → P s e t ∧ Always step P t es) :
    Always step P s (e :: es) := by
  intro pre e' post t u hes hr he
  cases hr with
  | refl =>
    obtain ⟨rfl,rfl⟩ := List.cons.inj hes
    exact (h u he).1
  | step hs hr =>
    obtain ⟨rfl,rfl⟩ := List.cons.inj hes
    exact (h _ hs).2 _ _ _ _ _ rfl hr he

theorem Always.congr {I : σ → Prop} {P Q : σ → ε → σ → Prop} (hs : I s)
    (hI : ∀ s e t, I s → step s e t → I t) (hPQ : ∀ s e t, I s → step s e t → (P s e t ↔ Q s e t)) :
    Always step P s es ↔ Always step Q s es := by
  constructor
  · intro h pre e post t u hes hr he
    exact (hPQ t e u (hr.invariant hI hs) he).mp (h pre e post t u hes hr he)
  · intro h pre e post t u hes hr he
    exact (hPQ t e u (hr.invariant hI hs) he).mpr (h pre e post t u hes hr he)

/-- An invariant that only the steps meeting a condition keep holds along every run whose steps all
meet it. -/
theorem Always.invariant {I : σ → Prop} {P : σ → ε → σ → Prop} (h : Always step P s es) (hs : I s)
    (hI : ∀ s e t, I s → P s e t → step s e t → I t) {pre post : List ε} (hes : es = pre ++ post)
    (hr : Run step s pre t) : I t := by
  induction hr generalizing es with
  | refl => exact hs
  | @step s u t e pre he hr ih =>
    have hP : P s e u := h [] e (pre ++ post) s u hes .refl he
    refine @ih (pre ++ post) ?_ (hI _ _ _ hs hP he) rfl
    intro pre' e' post' v w hes' hr' he'
    exact h (e :: pre') e' post' v w (by rw [hes, List.cons_append, List.cons_append, hes']) (.step he hr') he'

theorem Always.of_guard {I : σ → Prop} {P Q : σ → ε → σ → Prop} (h : Always step P s es) (hs : I s)
    (hI : ∀ s e t, I s → P s e t → step s e t → I t) (hQ : ∀ s e t, I s → step s e t → Q s e t) :
    Always step Q s es :=
  fun _ _ _ _ _ hes hr he => hQ _ _ _ (h.invariant hs hI hes hr) he

end Relations

section Inevitability
variable {may must : σ → ε → σ → Prop} {goal : σ → Prop}

/-- Whatever steps are taken of those that may be, the goal is reached, as long as the run does not stop short
of a step that must be taken. -/
inductive Inevitable (may must : σ → ε → σ → Prop) (goal : σ → Prop) : σ → Prop
  | now {s : σ} : goal s → Inevitable may must goal s
  | later {s t : σ} {e : ε} : must s e t → (∀ e t, may s e t → Inevitable may must goal t) → Inevitable may must goal s

theorem Inevitable.of_rank {ω : Type*} [LT ω] [WellFoundedLT ω] {I : σ → Prop} (rank : σ → ω)
    (hstep : ∀ s e t, I s → ¬goal s → may s e t → I t ∧ rank t < rank s)
    (hmust : ∀ s, I s → ¬goal s → ∃ e t, must s e t) {s : σ} (hs : I s) : Inevitable may must goal s := by
  induction hn : rank s using WellFoundedLT.induction generalizing s with
  | ind n ih =>
    by_cases hg : goal s
    · exact .now hg
    · obtain ⟨e,t,he⟩ := hmust s hs hg
      refine .later he fun e t he => ?_
      obtain ⟨ht,hlt⟩ := hstep s e t hs hg he
      exact ih (rank t) (hn ▸ hlt) ht rfl

theorem Inevitable.exists_run {s : σ} (h : Inevitable may must goal s) (hmust : ∀ s e t, must s e t → may s e t) :
    ∃ es t, Run may s es t ∧ goal t := by
  induction h with
  | now hg => exact ⟨[],_,.refl,hg⟩
  | later he _ ih =>
    obtain ⟨es,t,hr,ht⟩ := ih _ _ (hmust _ _ _ he)
    exact ⟨_,t,.step (hmust _ _ _ he) hr,ht⟩

theorem Inevitable.absurd {A : σ → Prop} {s : σ} (h : Inevitable may must goal s) (hgoal : ∀ s, A s → ¬goal s)
    (havoid : ∀ s e t, A s → must s e t → ∃ e t, may s e t ∧ A t) : ¬A s := by
  induction h with
  | now hg => exact fun hs => hgoal _ hs hg
  | later he _ ih =>
    intro hs
    obtain ⟨e,t,hmay,ht⟩ := havoid _ _ _ hs he
    exact ih e t hmay ht

end Inevitability

section Folds

theorem foldl_simulation {R : σ → τ → Prop} {f : σ → ε → σ} {g : τ → ε → τ}
    (hstep : ∀ a b e, R a b → R (f a e) (g b e)) (es : List ε) {a : σ} {b : τ} (h : R a b) :
    R (es.foldl f a) (es.foldl g b) := by
  induction es generalizing a b with
  | nil => exact h
  | cons e es ih => exact ih (hstep a b e h)

/-- A projection of the state that ignores the labels outside `select` runs on the selected
labels alone, as long as the run stays inside `P`. -/
theorem foldl_project {P : σ → Prop} {f : σ → ε → σ} {g : τ → ι → τ} {project : σ → τ}
    {select : ε → Option ι} (hP : ∀ s e, P s → P (f s e))
    (hnone : ∀ s e, P s → select e = none → project (f s e) = project s)
    (hsome : ∀ s e i, P s → select e = some i → project (f s e) = g (project s) i)
    (es : List ε) {s : σ} (hs : P s) :
    project (es.foldl f s) = (es.filterMap select).foldl g (project s) := by
  induction es generalizing s with
  | nil => rfl
  | cons e es ih =>
    rw [List.foldl_cons, ih (hP s e hs)]
    cases he : select e with
    | none => rw [List.filterMap_cons_none he, hnone s e hs he]
    | some i => rw [List.filterMap_cons_some he, List.foldl_cons, hsome s e i hs he]

variable (f : σ → ι → σ) (view : σ → β) {c : ι}

/-- A fold that never visits `c` leaves what only a visit of `c` changes alone. -/
theorem foldl_view_of_notMem (hframe : ∀ s i, i ≠ c → view (f s i) = view s)
    {is : List ι} (hc : c ∉ is) (s : σ) : view (is.foldl f s) = view s := by
  induction is generalizing s with
  | nil => rfl
  | cons i is ih =>
    rw [List.mem_cons, not_or] at hc
    rw [List.foldl_cons, ih hc.2, hframe s i (Ne.symm hc.1)]

/-- A fold over distinct indices that visits `c` acts on that view as one step taken where the
view is still the initial one. -/
theorem foldl_view_of_mem (hframe : ∀ s i, i ≠ c → view (f s i) = view s)
    {is : List ι} (hd : is.Nodup) (hc : c ∈ is) (s : σ) :
    ∃ s₀, view s₀ = view s ∧ view (is.foldl f s) = view (f s₀ c) := by
  induction is generalizing s with
  | nil => cases hc
  | cons i is ih =>
    obtain ⟨hi,hd⟩ := List.nodup_cons.mp hd
    rcases List.mem_cons.mp hc with rfl | hc
    · exact ⟨s,rfl,foldl_view_of_notMem f view hframe hi _⟩
    · have hne : i ≠ c := fun h => hi (h ▸ hc)
      obtain ⟨s₀,h₀,he⟩ := ih hd hc (f s i)
      exact ⟨s₀,h₀.trans (hframe s i hne),he⟩

end Folds

end MiniHil.Runs
