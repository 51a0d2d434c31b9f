import Mathlib.Logic.Basic

/-!
Pre- and postconditions for programs that keep their state when they throw.
-/

namespace CrossHostOps.Hoare

variable {ε σ α β : Type}

/-- `Result::ok`: an error is no value. -/
def ok? (x : EStateM ε σ α) : EStateM ε σ (Option α) := fun s =>
  match x s with
  | .ok a s' => .ok (some a) s'
  | .error _ s' => .ok none s'

variable {x : EStateM ε σ α} {s t s' : σ} {a : α} {e : ε} {P : σ → Prop} {Q : α → σ → Prop}
  {E : ε → σ → Prop} {f : α → EStateM ε σ β}

lemma ok?_of_ok (h : x s = .ok a t) : ok? x s = .ok (some a) t := by
  rw [ok?, h]

lemma ok?_of_error (h : x s = .error e t) : ok? x s = .ok none t := by
  rw [ok?, h]

/-- From a state in `P` a return ends in `Q`, and a throw ends in `E`. -/
def Triple (P : σ → Prop) (x : EStateM ε σ α) (Q : α → σ → Prop) (E : ε → σ → Prop) : Prop :=
  ∀ s, P s → match x s with
    | .ok a s' => Q a s'
    | .error e s' => E e s'

def after (x : EStateM ε σ α) (s : σ) : σ :=
  match x s with
  | .ok _ s' => s'
  | .error _ s' => s'

lemma after_ok (h : x s = .ok a s') : after x s = s' := by
  rw [after, h]

lemma after_error (h : x s = .error e s') : after x s = s' := by
  rw [after, h]

/-- The state stays in `I`, however the program ends. -/
def Keeps (I : σ → Prop) (x : EStateM ε σ α) : Prop := Triple I x (fun _ => I) fun _ => I

lemma Triple.after {I : σ → Prop} (h : Triple P x (fun _ => I) fun _ => I) (hs : P s) :
    I (after x s) := by
  have := h s hs
  unfold Hoare.after
  cases hx : x s <;> rw [hx] at this <;> exact this

lemma Triple.of_ok (h : Triple P x Q E) (hs : P s) (hx : x s = .ok a t) : Q a t := by
  have := h s hs
  rw [hx] at this
  exact this

lemma Triple.of_error (h : Triple P x Q E) (hs : P s) (hx : x s = .error e t) : E e t := by
  have := h s hs
  rw [hx] at this
  exact this

lemma Triple.pure (h : ∀ s, P s → Q a s) : Triple P (Pure.pure a) Q E := h

lemma Triple.throw (h : ∀ s, P s → E e s) : Triple P (MonadExcept.throw e) Q E := h

lemma Triple.bind {R : β → σ → Prop} (hx : Triple P x Q E) (hf : ∀ a, Triple (Q a) (f a) R E) :
    Triple P (x >>= f) R E := by
  intro s hs
  have h := hx s hs
  change match EStateM.bind x f s with
    | .ok a s' => R a s'
    | .error e s' => E e s'
  unfold EStateM.bind
  cases hxs : x s with
  | ok a s' => rw [hxs] at h; exact hf a s' h
  | error e s' => rw [hxs] at h; exact h

/-- The rule of consequence. -/
lemma Triple.mono {P' : σ → Prop} {Q' : α → σ → Prop} {E' : ε → σ → Prop} (h : Triple P x Q E)
    (hP : ∀ s, P' s → P s) (hQ : ∀ a s, Q a s → Q' a s) (hE : ∀ e s, E e s → E' e s) :
    Triple P' x Q' E' := by
  intro s hs
  have := h s (hP s hs)
  cases hx : x s with
  | ok a s' => rw [hx] at this; exact hQ a s' this
  | error e s' => rw [hx] at this; exact hE e s' this

@[simp] lemma get_bind (f : σ → EStateM ε σ β) (s : σ) :
    ((get : EStateM ε σ σ) >>= f) s = f s s := rfl

@[simp] lemma modify_bind (g : σ → σ) (f : PUnit → EStateM ε σ β) (s : σ) :
    ((modify g : EStateM ε σ PUnit) >>= f) s = f ⟨⟩ (g s) := rfl

lemma bind_of_ok (h : x s = .ok a t) : (x >>= f) s = f a t := by
  change EStateM.bind x f s = _
  rw [EStateM.bind, h]

lemma bind_of_error (h : x s = .error e t) : (x >>= f) s = .error e t := by
  change EStateM.bind x f s = _
  rw [EStateM.bind, h]

lemma bind_congr_left {y : EStateM ε σ α} (h : x s = y s) : (x >>= f) s = (y >>= f) s := by
  change EStateM.bind x f s = EStateM.bind y f s
  rw [EStateM.bind, EStateM.bind, h]

lemma bind_ok {b : β} : (x >>= f) s = .ok b s' ↔ ∃ a t, x s = .ok a t ∧ f a t = .ok b s' := by
  change EStateM.bind x f s = _ ↔ _
  unfold EStateM.bind
  cases hx : x s with
  | ok a t => exact ⟨fun h => ⟨a, t, rfl, h⟩, fun ⟨_, _, h, h'⟩ => by cases h; exact h'⟩
  | error e t => simp

end CrossHostOps.Hoare
