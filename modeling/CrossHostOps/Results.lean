import Mathlib.Data.List.Forall2

/-!
Computations that may fail: when a chain of them, or one of them on each element of a list,
succeeds.
-/

namespace CrossHostOps.Results

variable {ε ε' α β : Type} {x : Except ε α} {f : α → Except ε β} {a : α} {b : β} {o : Option α}
  {l : List α} {l' : List β}

lemma bind_ok {c : β} : (x >>= f) = .ok c ↔ ∃ a, x = .ok a ∧ f a = .ok c := by
  cases x with
  | error e => exact ⟨fun h => (by cases h), fun ⟨_, h, _⟩ => (by cases h)⟩
  | ok a => exact ⟨fun h => ⟨a, rfl, h⟩, fun ⟨_, h, h'⟩ => (by cases h; exact h')⟩

lemma map_ok {f : α → β} : f <$> x = .ok b ↔ ∃ a, x = .ok a ∧ f a = b := by
  cases x <;> simp

lemma mapError_ok {f : ε → ε'} : x.mapError f = .ok a ↔ x = .ok a := by
  cases x <;> simp [Except.mapError]

lemma bind_error {e : ε} :
    (x >>= f) = .error e ↔ x = .error e ∨ ∃ a, x = .ok a ∧ f a = .error e := by
  cases x <;> simp [bind, Except.bind]

lemma mapError_error {f : ε → ε'} {e : ε'} :
    x.mapError f = .error e ↔ ∃ e', x = .error e' ∧ f e' = e := by
  cases x <;> simp [Except.mapError]

lemma toOption_eq_some : x.toOption = some a ↔ x = .ok a := by
  cases x <;> simp [Except.toOption]

lemma option_mapM_ok {o' : Option β} :
    o.mapM f = .ok o' ↔ Option.Rel (fun a b => f a = .ok b) o o' := by
  cases o with
  | none => cases o' <;> simp [pure, Except.pure]
  | some a =>
    rw [Option.mapM_some, map_ok]
    cases o' <;> simp

lemma mapM_ok : l.mapM f = .ok l' ↔ List.Forall₂ (fun a b => f a = .ok b) l l' := by
  induction l generalizing l' with
  | nil => cases l' <;> simp [pure, Except.pure]
  | cons a l ih =>
    rw [List.mapM_cons, bind_ok]
    constructor
    · rintro ⟨b, hb, h⟩
      obtain ⟨bs, hbs, h⟩ := bind_ok.1 h
      cases h
      exact .cons hb (ih.1 hbs)
    · intro h
      cases h with
      | cons hb hbs => exact ⟨_, hb, bind_ok.2 ⟨_, ih.2 hbs, rfl⟩⟩

lemma exists_of_mem_mapM (h : l.mapM f = .ok l') (hb : b ∈ l') : ∃ a ∈ l, f a = .ok b := by
  rw [mapM_ok] at h
  induction h with
  | nil => cases hb
  | cons hfirst hrest ih =>
    rcases List.mem_cons.1 hb with rfl | hb
    · exact ⟨_, List.mem_cons_self, hfirst⟩
    · obtain ⟨a, ha, hab⟩ := ih hb
      exact ⟨a, List.mem_cons_of_mem _ ha, hab⟩

lemma mapM_append_singleton :
    (l ++ [a]).mapM f = .ok (l' ++ [b]) ↔ l.mapM f = .ok l' ∧ f a = .ok b := by
  rw [List.mapM_append, bind_ok]
  constructor
  · rintro ⟨bs, hbs, h⟩
    obtain ⟨last, hlast, h⟩ := bind_ok.1 h
    rw [mapM_ok] at hlast
    cases hlast with
    | cons hb hnil =>
      cases hnil
      obtain ⟨rfl, hsame⟩ := List.append_inj' (Except.ok.inj h) rfl
      cases hsame
      exact ⟨hbs, hb⟩
  · rintro ⟨hl, ha⟩
    exact ⟨l', hl, bind_ok.2 ⟨[b], mapM_ok.2 (.cons ha .nil), rfl⟩⟩

lemma isOk_iff : x.isOk ↔ ∃ a, x = .ok a := by
  cases x <;> simp [Except.toBool]

lemma mapM_self {f : α → Except ε α} : l.mapM f = .ok l ↔ ∀ a ∈ l, f a = .ok a := by
  rw [mapM_ok, List.forall₂_same]

/-- What a function leaves alone, it leaves alone in a list. -/
lemma mapM_fixed {f : α → Except ε α} (hf : ∀ {a b}, f a = .ok b → f b = .ok b) {l' : List α}
    (h : l.mapM f = .ok l') : l'.mapM f = .ok l' := by
  rw [mapM_ok] at h ⊢
  induction h with
  | nil => exact .nil
  | cons hb _ ih => exact .cons (hf hb) ih

lemma option_mapM_fixed {f : α → Except ε α} (hf : ∀ {a b}, f a = .ok b → f b = .ok b)
    {o' : Option α} (h : o.mapM f = .ok o') : o'.mapM f = .ok o' := by
  rw [option_mapM_ok] at h ⊢
  cases h with
  | none => exact .none
  | some hb => exact .some (hf hb)

lemma forM_ok {f : α → Except ε Unit} : forM l f = .ok () ↔ ∀ a ∈ l, f a = .ok () := by
  induction l with
  | nil => simp [pure, Except.pure]
  | cons a l ih =>
    rw [List.forM_cons, bind_ok, List.forall_mem_cons, ← ih]
    exact ⟨fun ⟨_, ha, hl⟩ => ⟨ha, hl⟩, fun ⟨ha, hl⟩ => ⟨(), ha, hl⟩⟩

section Options

variable {γ : Type} {x : Option α} {y : Option β}

lemma isSome_map {f : α → β} : (do let a ← x; some (f a)).isSome ↔ x.isSome := by
  cases x <;> simp

lemma isSome_map₂ {f : α → β → γ} :
    (do let a ← x; let b ← y; some (f a b)).isSome ↔ x.isSome ∧ y.isSome := by
  cases x <;> cases y <;> simp

lemma isSome_mapM {f : α → Option β} {l : List α} :
    (l.mapM f).isSome ↔ ∀ a ∈ l, (f a).isSome := by
  induction l with
  | nil => simp
  | cons a l ih =>
    rw [List.mapM_cons, List.forall_mem_cons, ← ih]
    exact isSome_map₂

end Options

end CrossHostOps.Results
