import NetworkFs.Control.Ctl

/-!
# Calls that follow a specification

A specification answers each call from a state of its own. The calls follow it from related
states, if the answers are the same and the states are related afterwards.

* `answers`: what the specification answers to a sequence of calls.
* `Implements.answers`: calls that follow the specification one by one follow it in sequence.
-/

namespace NetworkFs.Control

variable {S F C A ρ : Type}

/-- The answers to a sequence of calls, and the state afterwards. -/
def answers (spec : C → F → A × F) : List C → F → List A × F
  | [], f => ([], f)
  | c :: cs, f => ((spec c f).1 :: (answers spec cs (spec c f).2).1, (answers spec cs (spec c f).2).2)

/-- Each call is covered in the state in which it is made. -/
def AllCovered (spec : C → F → A × F) (Covered : C → F → Prop) : List C → F → Prop
  | [], _ => True
  | c :: cs, f => Covered c f ∧ AllCovered spec Covered cs (spec c f).2

/-- A covered call returns what `spec` answers, and `R` holds again. -/
def Implements (run : C → Ctl S ρ A) (spec : C → F → A × F) (Covered : C → F → Prop)
    (R : S → F → Prop) : Prop :=
  ∀ c s f, R s f → Covered c f → ∃ s', run c s = (.ok (spec c f).1, s') ∧ R s' (spec c f).2

theorem Implements.answers {run : C → Ctl S ρ A} {spec : C → F → A × F} {Covered : C → F → Prop}
    {R : S → F → Prop} (h : Implements run spec Covered R) (cs : List C) {s : S} {f : F} (hr : R s f)
    (hcovered : AllCovered spec Covered cs f) :
    ∃ s', cs.mapM run s = (.ok (Control.answers spec cs f).1, s') ∧
      R s' (Control.answers spec cs f).2 := by
  induction cs generalizing s f with
  | nil => exact ⟨s, rfl, hr⟩
  | cons c cs ih =>
    obtain ⟨s₁, hrun, hr₁⟩ := h c s f hr hcovered.1
    obtain ⟨s₂, hrest, hr₂⟩ := ih hr₁ hcovered.2
    refine ⟨s₂, ?_, hr₂⟩
    rw [List.mapM_cons, Ctl.bind_ok hrun, Ctl.bind_ok hrest]
    rfl

end NetworkFs.Control
