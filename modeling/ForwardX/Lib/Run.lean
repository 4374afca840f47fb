/-
Runs of a step function, and the two induction rules the rest of the development closes its
whole-run statements with.
-/
import Mathlib.Data.List.Basic

namespace ForwardX.Run

variable {σ ε : Type*}

/-! ## Runs -/

/-- The state after the events `es`, taken in order from `s`. -/
def run (step : σ → ε → σ) (s : σ) (es : List ε) : σ := es.foldl step s

@[simp] theorem run_nil (step : σ → ε → σ) (s : σ) : run step s [] = s := rfl

@[simp] theorem run_cons (step : σ → ε → σ) (s : σ) (e : ε) (es : List ε) :
    run step s (e :: es) = run step (step s e) es := rfl

theorem run_append (step : σ → ε → σ) (s : σ) (es fs : List ε) :
    run step s (es ++ fs) = run step (run step s es) fs := by
  simp only [run, List.foldl_append]

variable {step : σ → ε → σ}

theorem run_invariant {I : σ → Prop} (hstep : ∀ s e, I s → I (step s e)) (es : List ε) :
    ∀ s, I s → I (run step s es) := by
  induction es with
  | nil => intro s hs; exact hs
  | cons e es ih => intro s hs; exact ih (step s e) (hstep s e hs)

/-! ## Runs whose steps meet a guard -/

/-- Every event of the run meets `ok` in the state it is taken in. -/
def Admissible (ok : σ → ε → Prop) (step : σ → ε → σ) : σ → List ε → Prop
  | _, [] => True
  | s, e :: es => ok s e ∧ Admissible ok step (step s e) es

instance Admissible.decidable (ok : σ → ε → Prop) [∀ s e, Decidable (ok s e)]
    (step : σ → ε → σ) : ∀ s es, Decidable (Admissible ok step s es)
  | _, [] => .isTrue trivial
  | s, e :: es =>
    have := Admissible.decidable ok step (step s e) es
    inferInstanceAs (Decidable (ok s e ∧ Admissible ok step (step s e) es))

/-- **The guarded invariant rule.** A step that meets the guard preserves `I`,
so a run whose steps all meet it does. -/
theorem run_invariant_of_admissible {ok : σ → ε → Prop}
    {I : σ → Prop} (hstep : ∀ s e, ok s e → I s → I (step s e)) (es : List ε) :
    ∀ s, Admissible ok step s es → I s → I (run step s es) := by
  induction es with
  | nil => intro s _ hs; exact hs
  | cons e es ih =>
    intro s hadm hs
    exact ih (step s e) hadm.2 (hstep s e hadm.1 hs)

theorem admissible_of_forall {ok : σ → ε → Prop} (es : List ε)
    (h : ∀ s, ∀ e ∈ es, ok s e) : ∀ s, Admissible ok step s es := by
  induction es with
  | nil => intro s; trivial
  | cons e es ih =>
    intro s
    exact ⟨h s e List.mem_cons_self, ih (fun s' e' he' => h s' e' (List.mem_cons_of_mem _ he')) _⟩

theorem Admissible.and_forall {ok : σ → ε → Prop} {ok' : ε → Prop} {es : List ε}
    (hall : ∀ e ∈ es, ok' e) : ∀ {s}, Admissible ok step s es →
      Admissible (fun s e => ok s e ∧ ok' e) step s es := by
  induction es with
  | nil => intro s _; trivial
  | cons e es ih =>
    intro s hadm
    exact ⟨⟨hadm.1, hall e List.mem_cons_self⟩,
      ih (fun e' he' => hall e' (List.mem_cons_of_mem _ he')) hadm.2⟩

theorem run_invariant_of_forall {ok : ε → Prop} {I : σ → Prop}
    (hstep : ∀ s e, ok e → I s → I (step s e)) (es : List ε) (hok : ∀ e ∈ es, ok e) :
    ∀ s, I s → I (run step s es) := by
  induction es with
  | nil => intro s hs; exact hs
  | cons e es ih =>
    intro s hs
    exact ih (fun e' he' => hok e' (List.mem_cons_of_mem _ he')) _
      (hstep s e (hok e List.mem_cons_self) hs)

/-! ## What a run shows first -/

section

variable {ι α : Type*}

/-- The first value `g` shows after a step of the run. -/
def firstAfter (g : σ → Option α) (step : σ → ε → σ) : σ → List ε → Option α
  | _, [] => none
  | s, e :: es => (g (step s e)).or (firstAfter g step (step s e) es)

/-- The first value `g` shows along the run, its start included. -/
def first (g : σ → Option α) (step : σ → ε → σ) (s : σ) (es : List ε) : Option α :=
  (g s).or (firstAfter g step s es)

/-- **The invariant rule with a history.** `f` is what the observations `g` have shown first so far. -/
theorem run_invariant_of_history {g : ι → σ → Option α} {ok : σ → ε → Prop} {step : σ → ε → σ}
    {I : σ → (ι → Option α) → Prop}
    (hstep : ∀ s e f, ok s e → I s f → I (step s e) fun i => (f i).or (g i (step s e)))
    (es : List ε) : ∀ s f, Admissible ok step s es → I s f →
      I (run step s es) fun i => (f i).or (firstAfter (g i) step s es) := by
  induction es with
  | nil =>
    intro s f _ hs
    simpa only [run_nil, firstAfter, Option.or_none] using hs
  | cons e es ih =>
    intro s f hadm hs
    -- the history so far, then what the rest of the run adds to it
    have htail := ih (step s e) _ hadm.2 (hstep s e f hadm.1 hs)
    simpa only [run_cons, firstAfter, Option.or_assoc] using htail

end

end ForwardX.Run
