import GladiusMasternode.Library.Run
/-!
# Unwinding

One part of a transition system is looked at: `view` is what the part holds, `seen` what it sees of
a step, results of its own calls included; of a step that is not its own it sees `none`. If the
steps it does not see leave the view as it is, and steps seen as the same lead from the same view to
the same view (`Unwinds`), then the view at the end of a run depends on nothing but the view at its
start and what was seen on the way (`view_eq_of_observed`).
-/

namespace Run

variable {σ ε ν ω : Type*} {step : σ → ε → Option σ} {view : σ → ν} {seen : σ → ε → Option ω}

/-- What is seen of a run, in order. -/
def observed (step : σ → ε → Option σ) (seen : σ → ε → Option ω) : σ → List ε → List ω
  | _, [] => []
  | s, e :: es => (seen s e).toList ++ (step s e).elim [] fun s' => observed step seen s' es

theorem observed_unseen {s s' : σ} {e : ε} (hseen : seen s e = none) (h : step s e = some s')
    (es : List ε) : observed step seen s (e :: es) = observed step seen s' es := by
  simp [observed, hseen, h]

theorem observed_seen {s s' : σ} {e : ε} {o : ω} (hseen : seen s e = some o)
    (h : step s e = some s') (es : List ε) :
    observed step seen s (e :: es) = o :: observed step seen s' es := by
  simp [observed, hseen, h]

structure Unwinds (step : σ → ε → Option σ) (view : σ → ν) (seen : σ → ε → Option ω) : Prop where
  unseen : ∀ {s e s'}, step s e = some s' → seen s e = none → view s' = view s
  alike : ∀ {s e s' t f t' o}, step s e = some s' → step t f = some t' → seen s e = some o →
    seen t f = some o → view s = view t → view s' = view t'

namespace Unwinds

/-- Nothing seen, nothing changed. -/
theorem view_of_nil (hu : Unwinds step view seen) : ∀ (es : List ε) {s t : σ},
    run step s es = some t → observed step seen s es = [] → view t = view s := by
  intro es
  induction es with
  | nil => intro s t h _; cases h; rfl
  | cons e es ih =>
    intro s t h hnil
    obtain ⟨s', he, ht⟩ := run_cons_some.1 h
    cases hseen : seen s e with
    | none =>
      rw [observed_unseen hseen he] at hnil
      exact (ih ht hnil).trans (hu.unseen he hseen)
    | some o =>
      rw [observed_seen hseen he] at hnil
      cases hnil

/-- The first step that is seen, taken with the view of the start. -/
theorem exists_of_cons (hu : Unwinds step view seen) {o : ω} {os : List ω} :
    ∀ (es : List ε) {s t : σ}, run step s es = some t → observed step seen s es = o :: os →
      ∃ u e u' rest, view u = view s ∧ seen u e = some o ∧ step u e = some u' ∧
        run step u' rest = some t ∧ observed step seen u' rest = os := by
  intro es
  induction es with
  | nil => intro s t _ hcons; cases hcons
  | cons e es ih =>
    intro s t h hcons
    obtain ⟨s', he, ht⟩ := run_cons_some.1 h
    cases hseen : seen s e with
    | none =>
      rw [observed_unseen hseen he] at hcons
      obtain ⟨u, f, u', rest, hview, hrest⟩ := ih ht hcons
      exact ⟨u, f, u', rest, hview.trans (hu.unseen he hseen), hrest⟩
    | some o' =>
      rw [observed_seen hseen he] at hcons
      obtain ⟨rfl, hos⟩ := List.cons.inj hcons
      exact ⟨s, e, s', es, rfl, hseen, he, ht, hos⟩

/-- Two runs that are seen as the same lead from the same view to the same view. -/
theorem view_eq_of_observed (hu : Unwinds step view seen) {es fs : List ε} {s s' t t' : σ}
    (hs : run step s es = some s') (ht : run step t fs = some t')
    (hobs : observed step seen s es = observed step seen t fs) (hview : view s = view t) :
    view s' = view t' := by
  -- on what is seen, since the runs need not have the same length
  induction hos : observed step seen s es generalizing s t es fs with
  | nil =>
    rw [hu.view_of_nil es hs hos, hu.view_of_nil fs ht (hobs.symm.trans hos), hview]
  | cons o os ih =>
    obtain ⟨u, e, u', rest, hu₁, hseen, he, hrun, hrest⟩ := hu.exists_of_cons es hs hos
    obtain ⟨v, f, v', rest', hv₁, hseen', hf, hrun', hrest'⟩ :=
      hu.exists_of_cons fs ht (hobs.symm.trans hos)
    have hstep := hu.alike he hf hseen hseen' (hu₁.trans (hview.trans hv₁.symm))
    exact ih hrun hrun' (hrest.trans hrest'.symm) hstep hrest

end Unwinds

end Run
