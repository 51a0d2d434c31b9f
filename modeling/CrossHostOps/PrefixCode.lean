import Mathlib.Data.List.Infix
import Mathlib.Logic.Function.Basic

/-!
Encodings that can be read back from the front of a longer text.
-/

namespace CrossHostOps.PrefixCode

variable {α β γ : Type}

/-- What follows a code word does not change which word it is. -/
def IsPrefixCode (enc : α → List β) : Prop :=
  ∀ a a' r r', enc a ++ r = enc a' ++ r' → a = a' ∧ r = r'

variable {enc : α → List β} {u : β → List γ}

lemma isPrefixCode_of_decoder (dec : List β → Option (α × List β))
    (h : ∀ a r, dec (enc a ++ r) = some (a, r)) : IsPrefixCode enc := by
  intro a a' r r' heq
  have := h a r
  rw [heq, h a' r'] at this
  cases this
  exact ⟨rfl, rfl⟩

/-- An injective encoding becomes a prefix code by a terminator it does not contain. -/
lemma isPrefixCode_terminated [DecidableEq β] (t : β) (hinj : Function.Injective enc)
    (ht : ∀ a, t ∉ enc a) :
    IsPrefixCode fun a => enc a ++ [t] := by
  have hread : ∀ a r, (enc a ++ t :: r).takeWhile (· != t) = enc a := by
    intro a r
    have : ∀ x ∈ enc a, (x != t) = true := fun x hx => by
      simpa using fun h : x = t => ht a (h ▸ hx)
    rw [List.takeWhile_append_of_pos this, List.takeWhile_cons_of_neg (by simp), List.append_nil]
  intro a a' r r' heq
  simp only [List.append_assoc, List.cons_append, List.nil_append] at heq
  have hword : enc a = enc a' := by rw [← hread a r, heq, hread a' r']
  rw [hword] at heq
  exact ⟨hinj hword, List.tail_eq_of_cons_eq (List.append_cancel_left heq)⟩

/-- Words of a prefix code up to a terminator that starts none of them. -/
lemma isPrefixCode_flatMap_terminated (h : IsPrefixCode enc) (t : β)
    (ht : ∀ a r r', enc a ++ r ≠ t :: r') :
    IsPrefixCode fun l : List α => l.flatMap enc ++ [t] := by
  intro l
  induction l with
  | nil =>
    intro l' r r' heq
    cases l' with
    | nil => exact ⟨rfl, by simpa using heq⟩
    | cons b l' => exact absurd heq.symm (by simpa using ht b _ _)
  | cons a l ih =>
    intro l' r r' heq
    cases l' with
    | nil => exact absurd heq (by simpa using ht a _ _)
    | cons b l' =>
      simp only [List.flatMap_cons, List.append_assoc] at heq
      obtain ⟨rfl, htail⟩ := h _ _ _ _ heq
      obtain ⟨rfl, rfl⟩ := ih l' r r' (by simpa using htail)
      exact ⟨rfl, rfl⟩

lemma flatMap_append_cases (hu : IsPrefixCode u) (l : List β) :
    ∀ l' r r', l.flatMap u ++ r = l'.flatMap u ++ r' →
      ∃ k, l' = l ++ k ∧ r = k.flatMap u ++ r' ∨ l = l' ++ k ∧ r' = k.flatMap u ++ r := by
  induction l with
  | nil => exact fun l' r r' h => ⟨l', .inl ⟨rfl, by simpa using h⟩⟩
  | cons b l ih =>
    intro l' r r' h
    cases l' with
    | nil => exact ⟨b :: l, .inr ⟨rfl, by simpa using h.symm⟩⟩
    | cons b' l' =>
      simp only [List.flatMap_cons, List.append_assoc] at h
      obtain ⟨rfl, htail⟩ := hu _ _ _ _ h
      obtain ⟨k, ⟨rfl, hr⟩ | ⟨rfl, hr⟩⟩ := ih l' r r' htail
      · exact ⟨k, .inl ⟨rfl, hr⟩⟩
      · exact ⟨k, .inr ⟨rfl, hr⟩⟩

/-- Encoding the letters of a prefix code by another one. -/
lemma IsPrefixCode.flatMap (h : IsPrefixCode enc) (hu : IsPrefixCode u) :
    IsPrefixCode fun a => (enc a).flatMap u := by
  intro a a' r r' heq
  obtain ⟨k, ⟨hk, hr⟩ | ⟨hk, hr⟩⟩ := flatMap_append_cases hu _ _ _ _ heq
  · obtain ⟨rfl, rfl⟩ := h a a' k [] (by simpa using hk.symm)
    exact ⟨rfl, hr⟩
  · obtain ⟨rfl, rfl⟩ := h a a' [] k (by simpa using hk)
    exact ⟨rfl, hr.symm⟩

lemma IsPrefixCode.injective (h : IsPrefixCode enc) :
    Function.Injective enc := fun a a' heq => (h a a' [] [] (by simpa using heq)).1

/-- A word of a prefix code that begins another one is that word. -/
lemma IsPrefixCode.eq_of_prefix (h : IsPrefixCode enc) {a a' : α} (hp : enc a <+: enc a') :
    a = a' := by
  obtain ⟨r, hr⟩ := hp
  exact (h a a' r [] (by simpa using hr)).1

end CrossHostOps.PrefixCode
