import CrossHostOps.Text

/-!
Decimal numbers as texts: what is printed is read back.
-/

namespace CrossHostOps.Numerals

open Text

/-- A number in `width` digits, or in as many as it needs. -/
structure Numeral (width : ℕ) (n : ℤ) (text : Str) : Prop where
  isDigit : ∀ c ∈ text, c.isDigit
  value : (Nat.ofDigitChars 10 text 0 : ℤ) = n
  length : text.length = width ∨ width < text.length ∧ 10 ^ (text.length - 1) ≤ n

variable {width n : ℕ}

lemma isDigit_of_mem_showNat {c : Char} (h : c ∈ showNat n) : c.isDigit :=
  Nat.isDigit_of_mem_toDigits (by decide) (by decide) h

lemma digit_lt_ten {c : Char} (h : c.isDigit) : c.toNat - 48 < 10 := by
  simp only [Char.isDigit, Bool.and_eq_true, decide_eq_true_eq, UInt32.le_iff_toNat_le] at h
  have hle : c.toNat ≤ 57 := h.2
  omega

lemma digitsValue_ten (s : Str) :
    digitsValue 10 s =
      if s ≠ [] ∧ s.all Char.isDigit then some (Nat.ofDigitChars 10 s 0) else none := by
  have hfold (n : ℕ) : s.foldlM (fun n c =>
      if c.isDigit ∧ c.toNat - 48 < 10 then some (10 * n + (c.toNat - 48)) else none) n =
      if s.all Char.isDigit then some (Nat.ofDigitChars 10 s n) else none := by
    induction s generalizing n with
    | nil => rfl
    | cons c s ih =>
      rw [List.foldlM_cons, List.all_cons]
      by_cases hc : c.isDigit
      · rw [if_pos ⟨hc, digit_lt_ten hc⟩, hc, Bool.true_and, Nat.ofDigitChars_cons]
        exact ih _
      · simp [hc]
  rw [digitsValue, hfold]
  by_cases hs : s = [] <;> simp [hs]

lemma parseUnsigned_showNat_append (n bound : ℕ) (rest : Str) :
    parseUnsigned 10 bound (showNat n ++ rest) =
      (digitsValue 10 (showNat n ++ rest)).filter (· < bound) := by
  -- there is no sign in front
  refine parseUnsigned.eq_2 10 bound _ fun rest' h => ?_
  obtain ⟨c, digits, hdigits⟩ : ∃ c digits, showNat n = c :: digits :=
    List.exists_cons_of_ne_nil Nat.toDigits_ne_nil
  rw [hdigits, List.cons_append] at h
  have hplus : '+' ∈ showNat n := by
    rw [hdigits, (List.cons.inj h).1]
    exact List.mem_cons_self
  exact absurd (isDigit_of_mem_showNat hplus) (by decide)

lemma parseUnsigned_showNat {bound : ℕ} (h : n < bound) :
    parseUnsigned 10 bound (showNat n) = some n := by
  have hn := parseUnsigned_showNat_append n bound []
  rw [List.append_nil, digitsValue_ten,
    if_pos ⟨Nat.toDigits_ne_nil, List.all_eq_true.2 fun _ => isDigit_of_mem_showNat⟩, showNat,
    Nat.ofDigitChars_toDigits (by decide) (by decide)] at hn
  exact hn.trans (Option.filter_some_pos (decide_eq_true h))

/-- A number with a unit behind it is not a number. -/
lemma parseUnsigned_showNat_unit {bound : ℕ} {unit : Char} (hunit : unit.isDigit = false) :
    parseUnsigned 10 bound (showNat n ++ [unit]) = none := by
  rw [parseUnsigned_showNat_append, digitsValue_ten, if_neg]
  · rfl
  · rintro ⟨-, hall⟩
    rw [List.all_eq_true.1 hall unit (by simp)] at hunit
    cases hunit

lemma isDigit_of_mem_zeroPad {c : Char} (h : c ∈ zeroPad width n) : c.isDigit := by
  obtain hc | hc := List.mem_append.1 h
  · rw [List.eq_of_mem_replicate hc]
    decide
  · exact isDigit_of_mem_showNat hc

lemma ofDigitChars_zeroPad (width n : ℕ) : Nat.ofDigitChars 10 (zeroPad width n) 0 = n := by
  rw [zeroPad, Nat.ofDigitChars_append, Nat.ofDigitChars_replicate_zero, Nat.mul_zero, showNat,
    Nat.ofDigitChars_toDigits (by decide) (by decide)]

lemma length_zeroPad (width n : ℕ) : (zeroPad width n).length = max width (showNat n).length := by
  rw [zeroPad, List.length_append, List.length_replicate]
  omega

lemma numeral_zeroPad (hwidth : 0 < width) (n : ℕ) : Numeral width n (zeroPad width n) := by
  refine ⟨fun _ => isDigit_of_mem_zeroPad, by rw [ofDigitChars_zeroPad], ?_⟩
  rw [length_zeroPad]
  obtain hle | hlt := le_or_gt (showNat n).length width
  · exact .inl (max_eq_left hle)
  · rw [max_eq_right hlt.le]
    -- one digit less would not do
    have hneeded : ¬ n < 10 ^ ((showNat n).length - 1) := by
      rw [← Nat.length_toDigits_le_iff (by decide) (by omega)]
      unfold showNat at *
      omega
    exact .inr ⟨hlt, by exact_mod_cast not_lt.1 hneeded⟩

end CrossHostOps.Numerals
