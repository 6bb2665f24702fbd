import Mathlib.Data.List.Basic
/-!
# Runs of a guarded step function

A transition system is given by `step : σ → ε → Option σ`: `none` when the event is not
admissible in the state. A run performs a list of events. The rules below are the ones a
development about such a system needs: an invariant of every step is an invariant of every
run (`run_inv`), a preorder that every step follows relates the two ends of a run
(`run_rel`), and an invariant that only the steps meeting a condition keep holds along the
runs all of whose steps meet it (`run_inv_of`).
-/

namespace Run

variable {σ ε : Type*} {step : σ → ε → Option σ}

/-- Perform the events in order; `none` as soon as one of them is not admissible. -/
def run (step : σ → ε → Option σ) (s : σ) (es : List ε) : Option σ := es.foldlM step s

@[simp] theorem run_nil (s : σ) : run step s [] = some s := rfl

@[simp] theorem run_cons (s : σ) (e : ε) (es : List ε) :
    run step s (e :: es) = (step s e).bind fun s' => run step s' es := rfl

theorem run_cons_some {s t : σ} {e : ε} {es : List ε} :
    run step s (e :: es) = some t ↔ ∃ s', step s e = some s' ∧ run step s' es = some t := by
  rw [run_cons, Option.bind_eq_some_iff]

theorem run_append {s t : σ} {es fs : List ε} :
    run step s (es ++ fs) = some t ↔ ∃ s', run step s es = some s' ∧ run step s' fs = some t := by
  induction es generalizing s with
  | nil => simp
  | cons e es ih =>
    simp only [List.cons_append, run_cons_some, ih]
    constructor
    · rintro ⟨a, ha, b, hb, ht⟩; exact ⟨b, ⟨a, ha, hb⟩, ht⟩
    · rintro ⟨b, ⟨a, ha, hb⟩, ht⟩; exact ⟨a, ha, b, hb, ht⟩

/-- Every step of the run meets `ok`, judged in the state it is taken in. -/
def Meets (step : σ → ε → Option σ) (ok : σ → ε → Prop) : σ → List ε → Prop
  | _, [] => True
  | s, e :: es => ok s e ∧ ∀ s', step s e = some s' → Meets step ok s' es

theorem meets_true (s : σ) (es : List ε) : Meets step (fun _ _ => True) s es := by
  induction es generalizing s with
  | nil => trivial
  | cons e es ih => exact ⟨trivial, fun s' _ => ih s'⟩

/-- The steps of a run, each at the end of what comes before it. -/
theorem meets_iff_split {ok : σ → ε → Prop} {es : List ε} {s t : σ} (h : run step s es = some t) :
    Meets step ok s es ↔ ∀ before e after u, es = before ++ e :: after →
      run step s before = some u → ok u e := by
  induction es generalizing s with
  | nil =>
    refine ⟨fun _ before e after u hes => ?_, fun _ => trivial⟩
    cases before <;> cases hes
  | cons f es ih =>
    obtain ⟨s', hf, ht⟩ := run_cons_some.1 h
    constructor
    · rintro ⟨hok, hrest⟩ before e after u hes hu
      cases before with
      | nil =>
        cases hes
        cases hu
        exact hok
      | cons b before =>
        obtain ⟨rfl, rfl⟩ := List.cons.inj hes
        obtain ⟨s'', hf', hu⟩ := run_cons_some.1 hu
        obtain rfl : s' = s'' := Option.some.inj (hf.symm.trans hf')
        exact (ih ht).1 (hrest s' hf) before e after u rfl hu
    · intro hall
      refine ⟨hall [] f es s rfl rfl, fun s'' hf' => ?_⟩
      obtain rfl : s' = s'' := Option.some.inj (hf.symm.trans hf')
      refine (ih ht).2 fun before e after u hes hu => ?_
      exact hall (f :: before) e after u (by rw [hes]; rfl) (run_cons_some.2 ⟨s', hf, hu⟩)

/-- An invariant kept by the steps that meet `ok` holds along a run all of whose steps do. -/
theorem run_inv_of {P : σ → Prop} {ok : σ → ε → Prop}
    (hstep : ∀ s e s', P s → ok s e → step s e = some s' → P s') :
    ∀ (es : List ε) {s t : σ}, P s → Meets step ok s es → run step s es = some t → P t := by
  intro es
  induction es with
  | nil => intro s t hs _ h; cases h; exact hs
  | cons e es ih =>
    intro s t hs hm h
    obtain ⟨s', he, ht⟩ := run_cons_some.1 h
    exact ih (hstep s e s' hs hm.1 he) (hm.2 s' he) ht

/-- An invariant of every step is an invariant of every run. -/
theorem run_inv {P : σ → Prop} (hstep : ∀ s e s', P s → step s e = some s' → P s')
    (es : List ε) {s t : σ} (hs : P s) (h : run step s es = some t) : P t :=
  run_inv_of (fun s e s' hp _ he => hstep s e s' hp he) es hs (meets_true s es) h

/-- A preorder that every step from an invariant state follows relates both ends of a run. -/
theorem run_rel {P : σ → Prop} {R : σ → σ → Prop} (hrefl : ∀ s, R s s)
    (htrans : ∀ a b c, R a b → R b c → R a c)
    (hinv : ∀ s e s', P s → step s e = some s' → P s')
    (hstep : ∀ s e s', P s → step s e = some s' → R s s') :
    ∀ (es : List ε) {s t : σ}, P s → run step s es = some t → R s t := by
  intro es
  induction es with
  | nil => intro s t _ h; cases h; exact hrefl s
  | cons e es ih =>
    intro s t hs h
    obtain ⟨s', he, ht⟩ := run_cons_some.1 h
    exact htrans _ _ _ (hstep s e s' hs he) (ih (hinv s e s' hs he) ht)

/-! ## Exact conditions

When a step from a good state leads to a good state exactly if it meets `ok`, the runs that stay
good are exactly those all of whose steps meet `ok`. -/

section
variable {P Good : σ → Prop} {ok owed : σ → ε → Prop}

/-- Good in every state passed through, each step doing what it owes. -/
theorem good_and_owed_iff (hinv : ∀ s e s', P s → step s e = some s' → P s')
    (hstep : ∀ s e s', P s → Good s → step s e = some s' → (Good s' ∧ owed s e ↔ ok s e)) :
    ∀ (es : List ε) {s t : σ}, P s → Good s → run step s es = some t →
      ((∀ fs u, fs <+: es → run step s fs = some u → Good u) ∧ Meets step owed s es ↔
        Meets step ok s es) := by
  intro es
  induction es with
  | nil =>
    intro s t _ hg _
    refine ⟨fun _ => trivial, fun _ => ⟨fun fs u hfs hu => ?_, trivial⟩⟩
    rw [List.prefix_nil.1 hfs] at hu
    cases hu
    exact hg
  | cons e es ih =>
    intro s t hp hg h
    obtain ⟨s', he, ht⟩ := run_cons_some.1 h
    have hp' := hinv s e s' hp he
    have honly : ∀ u, step s e = some u → s' = u := by
      intro u hu
      rw [he] at hu
      exact Option.some.inj hu
    constructor
    · rintro ⟨hall, howed, hrest⟩
      have hg' : Good s' := hall [e] s' (by simp) (by simp [he])
      refine ⟨(hstep s e s' hp hg he).1 ⟨hg', howed⟩, fun u hu => ?_⟩
      obtain rfl := honly u hu
      refine (ih hp' hg' ht).1 ⟨fun fs u hfs hu => hall (e :: fs) u ?_ ?_, hrest s' he⟩
      · exact List.cons_prefix_cons.2 ⟨rfl, hfs⟩
      · exact run_cons_some.2 ⟨s', he, hu⟩
    · rintro ⟨hok, hrest⟩
      obtain ⟨hg', howed⟩ := (hstep s e s' hp hg he).2 hok
      obtain ⟨hall, hmeets⟩ := (ih hp' hg' ht).2 (hrest s' he)
      refine ⟨fun fs u hfs hu => ?_, howed, fun u hu => ?_⟩
      · cases fs with
        | nil => cases hu; exact hg
        | cons f fs =>
          obtain ⟨rfl, hpre⟩ := List.cons_prefix_cons.1 hfs
          obtain ⟨s'', he', hu⟩ := run_cons_some.1 hu
          obtain rfl := honly s'' he'
          exact hall fs u hpre hu
      · obtain rfl := honly u hu
        exact hmeets

/-- Good in every state passed through. -/
theorem good_throughout_iff (hinv : ∀ s e s', P s → step s e = some s' → P s')
    (hstep : ∀ s e s', P s → Good s → step s e = some s' → (Good s' ↔ ok s e))
    (es : List ε) {s t : σ} (hp : P s) (hg : Good s) (h : run step s es = some t) :
    (∀ fs u, fs <+: es → run step s fs = some u → Good u) ↔ Meets step ok s es := by
  have hiff := @good_and_owed_iff σ ε step P Good ok (fun _ _ => True) hinv
    (fun s e s' hp hg he => (and_iff_left trivial).trans (hstep s e s' hp hg he)) es s t hp hg h
  rwa [and_iff_left (meets_true s es)] at hiff

/-- When what has gone wrong stays wrong, a good end means a good start. -/
theorem good_of_run_good (hinv : ∀ s e s', P s → step s e = some s' → P s')
    (hstays : ∀ s e s', P s → step s e = some s' → Good s' → Good s) :
    ∀ (es : List ε) {s t : σ}, P s → run step s es = some t → Good t → Good s := by
  intro es
  induction es with
  | nil => intro s t _ h ht; cases h; exact ht
  | cons e es ih =>
    intro s t hp h ht
    obtain ⟨s', he, h⟩ := run_cons_some.1 h
    exact hstays s e s' hp he (ih (hinv s e s' hp he) h ht)

/-- Good at the end, when what has gone wrong stays wrong. -/
theorem good_at_end_iff (hinv : ∀ s e s', P s → step s e = some s' → P s')
    (hstep : ∀ s e s', P s → Good s → step s e = some s' → (Good s' ↔ ok s e))
    (hstays : ∀ s e s', P s → step s e = some s' → Good s' → Good s)
    (es : List ε) {s t : σ} (hp : P s) (hg : Good s) (h : run step s es = some t) :
    Good t ↔ Meets step ok s es := by
  rw [← good_throughout_iff hinv hstep es hp hg h]
  refine ⟨fun ht fs u hfs hu => ?_, fun hall => hall es t (List.prefix_refl es) h⟩
  obtain ⟨gs, rfl⟩ := hfs
  obtain ⟨u', hu', hgs⟩ := run_append.1 h
  obtain rfl : u = u' := by rw [hu] at hu'; exact Option.some.inj hu'
  exact good_of_run_good hinv hstays gs (run_inv hinv fs hp hu) hgs ht

end

/-! ## Two levels of one system

`abs` maps the states of one system to those of a smaller one over the same events. -/

section
variable {τ : Type*} {step' : τ → ε → Option τ} {abs : σ → τ} {P : σ → Prop} {ok : τ → ε → Prop}

/-- What the small system meets along the events, the large one does, if its steps are steps of the
small one as long as they meet the condition. -/
theorem meets_of_sim (hsim : ∀ s e s', P s → ok (abs s) e → step s e = some s' →
    P s' ∧ step' (abs s) e = some (abs s')) :
    ∀ (es : List ε) {s : σ}, P s → Meets step' ok (abs s) es →
      Meets step (fun s e => ok (abs s) e) s es := by
  intro es
  induction es with
  | nil => intro s _ _; trivial
  | cons e es ih =>
    rintro s hp ⟨hok, hrest⟩
    refine ⟨hok, fun s' he => ?_⟩
    obtain ⟨hp', he'⟩ := hsim s e s' hp hok he
    exact ih hp' (hrest _ he')

/-- The other way round, if every step of the small system is one of the large one. -/
theorem meets_of_cosim (hsim : ∀ s e v, P s → step' (abs s) e = some v →
    ∃ s', step s e = some s' ∧ P s' ∧ abs s' = v) :
    ∀ (es : List ε) {s : σ}, P s → Meets step (fun s e => ok (abs s) e) s es →
      Meets step' ok (abs s) es := by
  intro es
  induction es with
  | nil => intro s _ _; trivial
  | cons e es ih =>
    rintro s hp ⟨hok, hrest⟩
    refine ⟨hok, fun v hv => ?_⟩
    obtain ⟨s', he, hp', rfl⟩ := hsim s e v hp hv
    exact ih hp' (hrest s' he)

/-- Then the large system can follow every run of the small one. -/
theorem run_of_cosim (hsim : ∀ s e v, P s → step' (abs s) e = some v →
    ∃ s', step s e = some s' ∧ P s' ∧ abs s' = v) :
    ∀ (es : List ε) {s : σ} {v : τ}, P s → run step' (abs s) es = some v →
      ∃ t, run step s es = some t := by
  intro es
  induction es with
  | nil => intro s v _ _; exact ⟨s, rfl⟩
  | cons e es ih =>
    intro s v hp h
    obtain ⟨w, hw, hv⟩ := run_cons_some.1 h
    obtain ⟨s', he, hp', rfl⟩ := hsim s e w hp hw
    obtain ⟨t, ht⟩ := ih hp' hv
    exact ⟨t, run_cons_some.2 ⟨s', he, ht⟩⟩

/-- A system that runs inside a larger one: what a step of the large one does to it, it can do by
itself, in any number of steps. -/
theorem run_inside {ε' : Type*} {step' : τ → ε' → Option τ}
    (hsim : ∀ s e s', step s e = some s' → ∃ es', run step' (abs s) es' = some (abs s')) :
    ∀ (es : List ε) {s t : σ}, run step s es = some t → ∃ es', run step' (abs s) es' = some (abs t) := by
  intro es
  induction es with
  | nil =>
    intro s t h
    cases h
    exact ⟨[], rfl⟩
  | cons e es ih =>
    intro s t h
    obtain ⟨s', he, ht⟩ := run_cons_some.1 h
    obtain ⟨fs, hfs⟩ := hsim s e s' he
    obtain ⟨gs, hgs⟩ := ih ht
    exact ⟨fs ++ gs, run_append.2 ⟨abs s', hfs, hgs⟩⟩

end

end Run
