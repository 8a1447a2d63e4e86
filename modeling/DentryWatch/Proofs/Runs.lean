/-!
# Runs

A run takes the steps of a list one after another and collects what each of them
answers. When every step of one system matches the same step of another, so does
every run.
-/

namespace DentryWatch

universe u

variable {Action : Type u} {State Answer Spec : Type}

/-- Takes the steps one after another, with all their answers. -/
def runAll (step : Action → State → Answer × State) : List Action → State → List Answer × State
  | [], state => ([], state)
  | action :: rest, state =>
      let (answer, state) := step action state
      let (answers, state) := runAll step rest state
      (answer :: answers, state)

@[simp] theorem runAll_nil (step : Action → State → Answer × State) (state : State) :
    runAll step [] state = ([], state) := rfl

@[simp] theorem runAll_cons (step : Action → State → Answer × State) (action : Action)
    (rest : List Action) (state : State) :
    runAll step (action :: rest) state =
      ((step action state).1 :: (runAll step rest (step action state).2).1,
        (runAll step rest (step action state).2).2) := rfl

theorem runAll_append (step : Action → State → Answer × State) (first later : List Action)
    (state : State) :
    runAll step (first ++ later) state =
      ((runAll step first state).1 ++ (runAll step later (runAll step first state).2).1,
        (runAll step later (runAll step first state).2).2) := by
  induction first generalizing state with
  | nil => rfl
  | cons action rest ih => simp [ih]

/-- Runs match when their steps do. -/
theorem runAll_matches {step : Action → State → Answer × State}
    {spec : Action → Spec → Answer × Spec} {related : State → Spec → Prop}
    (hstep : ∀ action state abstract, related state abstract →
      (step action state).1 = (spec action abstract).1 ∧
        related (step action state).2 (spec action abstract).2)
    (actions : List Action) {state : State} {abstract : Spec} (h : related state abstract) :
    (runAll step actions state).1 = (runAll spec actions abstract).1 ∧
      related (runAll step actions state).2 (runAll spec actions abstract).2 := by
  induction actions generalizing state abstract with
  | nil => exact ⟨rfl, h⟩
  | cons action rest ih =>
      obtain ⟨hanswer, hnext⟩ := hstep action state abstract h
      obtain ⟨hanswers, hlast⟩ := ih hnext
      exact ⟨congr (congrArg List.cons hanswer) hanswers, hlast⟩

end DentryWatch
