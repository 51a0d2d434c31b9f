import Mathlib.Data.Nat.Basic
import Mathlib.Data.Option.Basic

/-!
Runs of a transition function, and what holds in every state of the runs whose steps all meet a
condition.
-/

namespace CrossHostOps.Runs

variable {σ ε : Type*} {step : σ → ε → Option σ}

/-- The state after a list of events; an event that cannot happen ends the run. -/
def run (step : σ → ε → Option σ) (s : σ) : List ε → Option σ
  | [] => some s
  | e :: es => (step s e).bind fun s' => run step s' es

/-- Every event meets the condition in the state in which it happens. -/
def Meets (step : σ → ε → Option σ) (cond : σ → ε → Prop) (s : σ) : List ε → Prop
  | [] => True
  | e :: es => cond s e ∧ ∀ s' ∈ step s e, Meets step cond s' es

instance decidableMeets {cond : σ → ε → Prop} [∀ s e, Decidable (cond s e)] :
    ∀ s es, Decidable (Meets step cond s es)
  | _, [] => inferInstanceAs (Decidable True)
  | s, e :: es =>
    have : ∀ s', Decidable (Meets step cond s' es) := fun s' => decidableMeets s' es
    inferInstanceAs (Decidable (cond s e ∧ ∀ s' ∈ step s e, Meets step cond s' es))

variable {cond : σ → ε → Prop} {I J P G : σ → Prop} {s t u : σ} {e : ε} {es : List ε}

lemma meets_cons {s' : σ} (hstep : step s e = some s') :
    Meets step cond s (e :: es) ↔ cond s e ∧ Meets step cond s' es := by
  simp [Meets, hstep]

/-- **Invariants**: what every step keeps under the condition holds after every run that meets
it. -/
theorem run_invariant (hstep : ∀ {s e s'}, I s → cond s e → step s e = some s' → I s') (hs : I s)
    (hmeets : Meets step cond s es) (hrun : run step s es = some t) : I t := by
  induction es generalizing s with
  | nil =>
    cases hrun
    exact hs
  | cons e es ih =>
    obtain ⟨s', hs', hrest⟩ := Option.bind_eq_some_iff.1 hrun
    exact ih (hstep hs hmeets.1 hs') (hmeets.2 s' hs') hrest

lemma meets_of_forall (h : ∀ s e, cond s e) (es : List ε) : Meets step cond s es := by
  induction es generalizing s with
  | nil => trivial
  | cons e es ih => exact ⟨h s e, fun s' _ => ih⟩

/-- What every step keeps holds after every run. -/
lemma run_keeps (hstep : ∀ {s e s'}, I s → step s e = some s' → I s') (hs : I s)
    (hrun : run step s es = some t) : I t :=
  run_invariant (fun h _ => hstep h) hs (meets_of_forall (fun _ _ => trivial) es) hrun

/-- As long as no step spoils the run, each keeps an invariant, and a property just when it meets
the condition: the property tells whether the run met it. -/
theorem run_iff_meets_of_unspoilt
    (hstep : ∀ {s e s'}, I s → step s e = some s' → J s' ∨ I s' ∧ (P s' ↔ P s ∧ cond s e))
    (hspoilt : ∀ {s e s'}, J s → step s e = some s' → J s') (hs : I s)
    (hrun : run step s es = some t) (ht : ¬ J t) :
    I t ∧ (P t ↔ P s ∧ Meets step cond s es) := by
  induction es generalizing s with
  | nil =>
    cases hrun
    exact ⟨hs, by simp [Meets]⟩
  | cons e es ih =>
    obtain ⟨s', hs', hrest⟩ := Option.bind_eq_some_iff.1 hrun
    rcases hstep hs hs' with hspoil | ⟨hI, hP⟩
    · exact absurd (run_keeps hspoilt hspoil hrest) ht
    · rw [meets_cons hs', ← and_assoc, ← hP]
      exact ih hI hrest

theorem run_iff_meets
    (hstep : ∀ {s e s'}, I s → step s e = some s' → I s' ∧ (P s' ↔ P s ∧ cond s e)) (hs : I s)
    (hrun : run step s es = some t) :
    I t ∧ (P t ↔ P s ∧ Meets step cond s es) :=
  run_iff_meets_of_unspoilt (J := fun _ => False) (fun h hs' => .inr (hstep h hs')) (fun h _ => h)
    hs hrun id

/-- The steps that meet the condition keep the one, and a step that does not brings about the other
for good: which of them holds in the end tells whether the run met it. -/
theorem run_dichotomy (hkeep : ∀ {s e s'}, I s → cond s e → step s e = some s' → I s')
    (hbreak : ∀ {s e s'}, I s → ¬ cond s e → step s e = some s' → J s')
    (hbroken : ∀ {s e s'}, J s → step s e = some s' → J s') (hs : I s)
    (hrun : run step s es = some t) :
    (Meets step cond s es → I t) ∧ (¬ Meets step cond s es → J t) := by
  induction es generalizing s with
  | nil =>
    cases hrun
    exact ⟨fun _ => hs, fun h => absurd trivial h⟩
  | cons e es ih =>
    obtain ⟨s', hs', hrest⟩ := Option.bind_eq_some_iff.1 hrun
    rw [meets_cons hs']
    by_cases hcond : cond s e
    · have hnext := ih (hkeep hs hcond hs') hrest
      exact ⟨fun h => hnext.1 h.2, fun h => hnext.2 fun hmeets => h ⟨hcond, hmeets⟩⟩
    · have hlost := run_keeps hbroken (hbreak hs hcond hs') hrest
      exact ⟨fun h => absurd h.1 hcond, fun _ => hlost⟩

/-- An event that can always happen, and lowers a rank until a goal is reached, leads there. -/
theorem exists_run_replicate (rank : σ → ℕ)
    (hstep : ∀ {s}, I s → ¬ G s → ∃ s', step s e = some s' ∧ I s' ∧ (G s' ∨ rank s' < rank s))
    (hs : I s) :
    ∃ k t, run step s (List.replicate k e) = some t ∧ I t ∧ G t := by
  induction hrank : rank s using Nat.strong_induction_on generalizing s with
  | _ n ih =>
    by_cases hgoal : G s
    · exact ⟨0, s, rfl, hs, hgoal⟩
    · obtain ⟨s', hs', hI, hnext⟩ := hstep hs hgoal
      rcases hnext with hgoal' | hlower
      · exact ⟨1, s', by simp [run, hs'], hI, hgoal'⟩
      · obtain ⟨k, t, hrun, ht⟩ := ih (rank s') (hrank ▸ hlower) hI rfl
        refine ⟨k + 1, t, ?_, ht⟩
        simp [run, List.replicate_succ, hs', hrun]

/-- A state can be reached from another by events that all meet the condition. -/
def Leads (step : σ → ε → Option σ) (cond : σ → ε → Prop) (s t : σ) : Prop :=
  ∃ es, Meets step cond s es ∧ run step s es = some t

lemma Leads.refl (s : σ) : Leads step cond s s := ⟨[], trivial, rfl⟩

lemma Leads.head (hcond : cond s e) (hstep : step s e = some t) (h : Leads step cond t u) :
    Leads step cond s u := by
  obtain ⟨es, hmeets, hrun⟩ := h
  refine ⟨e :: es, (meets_cons hstep).2 ⟨hcond, hmeets⟩, ?_⟩
  rw [run, hstep]
  exact hrun

/-- Events that meet the condition in every state. -/
lemma Leads.replicate (hcond : ∀ s, cond s e) {k : ℕ}
    (hrun : run step s (List.replicate k e) = some t) : Leads step cond s t := by
  refine ⟨_, ?_, hrun⟩
  clear hrun
  induction k generalizing s with
  | zero => exact trivial
  | succ k ih => exact ⟨hcond s, fun s' _ => ih⟩

/-- A goal is reached if, short of it, some event can always happen and lower a rank. -/
theorem exists_leads (rank : σ → ℕ)
    (hstep : ∀ {s}, I s → ¬ G s → ∃ e s', cond s e ∧ step s e = some s' ∧ I s' ∧ rank s' < rank s)
    (hs : I s) :
    ∃ t, Leads step cond s t ∧ I t ∧ G t := by
  induction hrank : rank s using Nat.strong_induction_on generalizing s with
  | _ n ih =>
    by_cases hgoal : G s
    · exact ⟨s, .refl s, hs, hgoal⟩
    · obtain ⟨e, s', hcond, hs', hI, hlower⟩ := hstep hs hgoal
      obtain ⟨t, hlead, ht⟩ := ih (rank s') (hrank ▸ hlower) hI rfl
      exact ⟨t, hlead.head hcond hs', ht⟩

lemma Leads.mono {cond' : σ → ε → Prop} (hcond : ∀ s e, cond s e → cond' s e)
    (h : Leads step cond s t) : Leads step cond' s t := by
  obtain ⟨es, hmeets, hrun⟩ := h
  refine ⟨es, ?_, hrun⟩
  induction es generalizing s with
  | nil => trivial
  | cons e es ih =>
    obtain ⟨s', hs', hrest⟩ := Option.bind_eq_some_iff.1 hrun
    obtain ⟨hhead, htail⟩ := (meets_cons hs').1 hmeets
    exact (meets_cons hs').2 ⟨hcond s e hhead, ih htail hrest⟩

/-- What every step keeps under the condition still holds where such events lead. -/
lemma Leads.invariant (hstep : ∀ {s e s'}, I s → cond s e → step s e = some s' → I s')
    (h : Leads step cond s t) (hs : I s) : I t := by
  obtain ⟨es, hmeets, hrun⟩ := h
  exact run_invariant hstep hs hmeets hrun

lemma Leads.trans (h : Leads step cond s t) (h' : Leads step cond t u) : Leads step cond s u := by
  obtain ⟨es, hmeets, hrun⟩ := h
  induction es generalizing s with
  | nil =>
    cases hrun
    exact h'
  | cons e es ih =>
    obtain ⟨s', hs', hrest⟩ := Option.bind_eq_some_iff.1 hrun
    obtain ⟨hcond, hmeets'⟩ := (meets_cons hs').1 hmeets
    exact .head hcond hs' (ih hmeets' hrest)

/-! ### One system within another -/

section Within

variable {τ δ : Type*} {step' : τ → δ → Option τ} {f : σ → τ} {g : ε → δ}

/-- The states and events of a system are some of those of another, which leaves them by no other
event. -/
structure Within (step : σ → ε → Option σ) (step' : τ → δ → Option τ) (f : σ → τ) (g : ε → δ) :
    Prop where
  step_map : ∀ s e, step' (f s) (g e) = (step s e).map f
  closed : ∀ {s d t}, step' (f s) d = some t → ∃ e, d = g e

variable {s : σ} {t : τ} {cond : σ → ε → Prop} {cond' : τ → δ → Prop}

lemma Within.of_run (h : Within step step' f g) {ds : List δ} (hrun : run step' (f s) ds = some t) :
    ∃ es s', ds = es.map g ∧ run step s es = some s' ∧ t = f s' := by
  induction ds generalizing s with
  | nil =>
    cases hrun
    exact ⟨[], s, rfl, rfl, rfl⟩
  | cons d ds ih =>
    obtain ⟨u, hu, hrest⟩ := Option.bind_eq_some_iff.1 hrun
    obtain ⟨e, rfl⟩ := h.closed hu
    rw [h.step_map] at hu
    obtain ⟨s₁, hs₁, rfl⟩ := Option.map_eq_some_iff.1 hu
    obtain ⟨es, s', rfl, hrun', rfl⟩ := ih hrest
    refine ⟨e :: es, s', rfl, ?_, rfl⟩
    rw [run, hs₁]
    exact hrun'

lemma Within.of_meets (h : Within step step' f g) (hcond : ∀ s e, cond' (f s) (g e) → cond s e)
    {es : List ε} (hmeets : Meets step' cond' (f s) (es.map g)) : Meets step cond s es := by
  induction es generalizing s with
  | nil => trivial
  | cons e es ih =>
    refine ⟨hcond s e hmeets.1, fun s' hs' => ih (hmeets.2 (f s') ?_)⟩
    rw [h.step_map, hs']
    rfl

lemma Within.leads (h : Within step step' f g) (hcond : ∀ s e, cond s e → cond' (f s) (g e))
    {t : σ} (hlead : Leads step cond s t) :
    Leads step' cond' (f s) (f t) := by
  obtain ⟨es, hmeets, hrun⟩ := hlead
  induction es generalizing s with
  | nil =>
    cases hrun
    exact .refl _
  | cons e es ih =>
    obtain ⟨s', hs', hrest⟩ := Option.bind_eq_some_iff.1 hrun
    obtain ⟨hhead, htail⟩ := (meets_cons hs').1 hmeets
    refine .head (hcond s e hhead) ?_ (ih htail hrest)
    rw [h.step_map, hs', Option.map_some]

lemma Within.of_leads (h : Within step step' f g) (hcond : ∀ s e, cond' (f s) (g e) → cond s e)
    (hlead : Leads step' cond' (f s) t) : ∃ s', t = f s' ∧ Leads step cond s s' := by
  obtain ⟨ds, hmeets, hrun⟩ := hlead
  obtain ⟨es, s', rfl, hrun', rfl⟩ := h.of_run hrun
  exact ⟨s', rfl, es, h.of_meets hcond hmeets, hrun'⟩

end Within

end CrossHostOps.Runs
