import Mathlib.Data.List.Infix

/-!
Reading bytes as UTF-8 where they may be no UTF-8: each maximal piece of a character that breaks
off is read as one U+FFFD.
-/

namespace CrossHostOps.Utf8

def replacement : Char := Char.ofNat 0xFFFD

def isContinuation (b : UInt8) : Bool := 0x80 ≤ b && b ≤ 0xBF

/-- The first two bytes of a character of two bytes. -/
def begins2 (b₀ b₁ : UInt8) : Bool := 0xC2 ≤ b₀ && b₀ ≤ 0xDF && isContinuation b₁

/-- The first two bytes of a character of three bytes: none is overlong, none a surrogate. -/
def begins3 (b₀ b₁ : UInt8) : Bool :=
  (b₀ == 0xE0 && 0xA0 ≤ b₁ && b₁ ≤ 0xBF) || (0xE1 ≤ b₀ && b₀ ≤ 0xEC && isContinuation b₁) ||
    (b₀ == 0xED && 0x80 ≤ b₁ && b₁ ≤ 0x9F) || (0xEE ≤ b₀ && b₀ ≤ 0xEF && isContinuation b₁)

/-- The first two bytes of a character of four bytes, up to U+10FFFF. -/
def begins4 (b₀ b₁ : UInt8) : Bool :=
  (b₀ == 0xF0 && 0x90 ≤ b₁ && b₁ ≤ 0xBF) || (0xF1 ≤ b₀ && b₀ ≤ 0xF3 && isContinuation b₁) ||
    (b₀ == 0xF4 && 0x80 ≤ b₁ && b₁ ≤ 0x8F)

/-- The bits of a continuation byte behind those of `n`. -/
def more (n : ℕ) (b : UInt8) : ℕ := n * 64 + b.toNat % 64

def decodeLossy : List UInt8 → List Char
  | [] => []
  | b₀ :: r₀ =>
    if b₀ < 0x80 then Char.ofNat b₀.toNat :: decodeLossy r₀
    else
      match r₀ with
      | [] => [replacement]
      | b₁ :: r₁ =>
        if begins2 b₀ b₁ then Char.ofNat (more (b₀.toNat % 32) b₁) :: decodeLossy r₁
        else if begins3 b₀ b₁ then
          match r₁ with
          | [] => [replacement]
          | b₂ :: r₂ =>
            if isContinuation b₂ then
              Char.ofNat (more (more (b₀.toNat % 16) b₁) b₂) :: decodeLossy r₂
            else replacement :: decodeLossy (b₂ :: r₂)
        else if begins4 b₀ b₁ then
          match r₁ with
          | [] => [replacement]
          | b₂ :: r₂ =>
            if isContinuation b₂ then
              match r₂ with
              | [] => [replacement]
              | b₃ :: r₃ =>
                if isContinuation b₃ then
                  Char.ofNat (more (more (more (b₀.toNat % 8) b₁) b₂) b₃) :: decodeLossy r₃
                else replacement :: decodeLossy (b₃ :: r₃)
            else replacement :: decodeLossy (b₂ :: r₂)
        else replacement :: decodeLossy (b₁ :: r₁)

example : decodeLossy [0x41, 0xE4, 0xB8, 0x8A, 0xE4, 0xB8] = ['A', '上', replacement] := by
  decide +kernel

lemma decodeLossy_cons {b : UInt8} (hb : b < 0x80) (x : List UInt8) :
    decodeLossy (b :: x) = Char.ofNat b.toNat :: decodeLossy x := by
  rw [decodeLossy.eq_def]
  simp [hb]

/-- A byte of ASCII is no part of a longer character. -/
lemma not_begins {b : UInt8} (hb : b < 0x80) (b₀ : UInt8) :
    isContinuation b = false ∧ begins2 b₀ b = false ∧ begins3 b₀ b = false ∧
      begins4 b₀ b = false := by
  have hle : ∀ c : UInt8, 0x80 ≤ c → ¬ c ≤ b := fun c hc hcb =>
    absurd (UInt8.le_trans hc hcb) (UInt8.not_le.2 hb)
  have hcont : isContinuation b = false := by
    simp [isContinuation, hle 0x80 (by decide)]
  refine ⟨hcont, ?_, ?_, ?_⟩
  · simp [begins2, hcont]
  · simp [begins3, hcont, hle 0xA0 (by decide), hle 0x80 (by decide)]
  · simp [begins4, hcont, hle 0x90 (by decide), hle 0x80 (by decide)]

/-- Nothing goes on across a byte of ASCII. -/
lemma decodeLossy_append {b : UInt8} (hb : b < 0x80) (x y : List UInt8) :
    decodeLossy (x ++ b :: y) = decodeLossy x ++ decodeLossy (b :: y) := by
  have hcont := (not_begins hb 0).1
  have h2 := fun b₀ => (not_begins hb b₀).2.1
  have h3 := fun b₀ => (not_begins hb b₀).2.2.1
  have h4 := fun b₀ => (not_begins hb b₀).2.2.2
  induction x using decodeLossy.induct with
  | case1 => rfl
  | case2 b₀ r₀ hlt ih =>
    rw [List.cons_append, decodeLossy_cons hlt, decodeLossy_cons hlt, ih, List.cons_append]
  | _ =>
    simp only [List.cons_append] at *
    rw [decodeLossy.eq_def]
    conv_rhs => rw [decodeLossy.eq_def]
    simp [*]

/-! ### Encoding -/

section Characters

variable {b₀ b₁ b₂ b₃ : UInt8} (x : List UInt8)

lemma isContinuation_iff {b : UInt8} : isContinuation b = true ↔ 128 ≤ b.toNat ∧ b.toNat ≤ 191 := by
  simp only [isContinuation, Bool.and_eq_true, decide_eq_true_eq]
  exact .rfl

lemma not_ascii (b : UInt8) (h : 128 ≤ b.toNat) : ¬ b < 0x80 := by
  rw [UInt8.lt_iff_toNat_lt, show (0x80 : UInt8).toNat = 128 from rfl]
  omega

lemma decodeLossy_two (h₀ : 194 ≤ b₀.toNat) (h₀' : b₀.toNat ≤ 223) (h₁ : isContinuation b₁ = true) :
    decodeLossy (b₀ :: b₁ :: x) = Char.ofNat (more (b₀.toNat % 32) b₁) :: decodeLossy x := by
  have hhigh := not_ascii b₀ (by omega)
  have hbegins : begins2 b₀ b₁ = true := by
    simp only [begins2, h₁, Bool.and_eq_true, decide_eq_true_eq]
    exact ⟨⟨h₀, h₀'⟩, trivial⟩
  rw [decodeLossy.eq_def]
  simp [hhigh, hbegins]

lemma decodeLossy_three (h₀ : 224 ≤ b₀.toNat) (h₀' : b₀.toNat ≤ 239) (h₁ : isContinuation b₁ = true)
    (h₂ : isContinuation b₂ = true) (hlong : b₀.toNat = 224 → 160 ≤ b₁.toNat)
    (hsurrogate : b₀.toNat = 237 → b₁.toNat ≤ 159) :
    decodeLossy (b₀ :: b₁ :: b₂ :: x) =
      Char.ofNat (more (more (b₀.toNat % 16) b₁) b₂) :: decodeLossy x := by
  have hhigh := not_ascii b₀ (by omega)
  have hnot : begins2 b₀ b₁ = false := by
    simp only [begins2, UInt8.le_iff_toNat_le]
    simp
    omega
  have hbegins : begins3 b₀ b₁ = true := by
    have h₁' := isContinuation_iff.1 h₁
    simp only [begins3, h₁, Bool.or_eq_true, Bool.and_eq_true, beq_iff_eq,
      UInt8.le_iff_toNat_le, ← UInt8.toNat_inj]
    simp
    omega
  rw [decodeLossy.eq_def]
  simp [hhigh, hnot, hbegins, h₂]

lemma decodeLossy_four (h₀ : 240 ≤ b₀.toNat) (h₀' : b₀.toNat ≤ 244) (h₁ : isContinuation b₁ = true)
    (h₂ : isContinuation b₂ = true) (h₃ : isContinuation b₃ = true)
    (hlong : b₀.toNat = 240 → 144 ≤ b₁.toNat) (hmax : b₀.toNat = 244 → b₁.toNat ≤ 143) :
    decodeLossy (b₀ :: b₁ :: b₂ :: b₃ :: x) =
      Char.ofNat (more (more (more (b₀.toNat % 8) b₁) b₂) b₃) :: decodeLossy x := by
  have hhigh := not_ascii b₀ (by omega)
  have hnot2 : begins2 b₀ b₁ = false := by
    simp only [begins2, UInt8.le_iff_toNat_le]
    simp
    omega
  have hnot3 : begins3 b₀ b₁ = false := by
    simp only [begins3, UInt8.le_iff_toNat_le]
    simp [← UInt8.toNat_inj]
    omega
  have hbegins : begins4 b₀ b₁ = true := by
    have h₁' := isContinuation_iff.1 h₁
    simp only [begins4, h₁, Bool.or_eq_true, Bool.and_eq_true, beq_iff_eq,
      UInt8.le_iff_toNat_le, ← UInt8.toNat_inj]
    simp
    omega
  rw [decodeLossy.eq_def]
  simp [hhigh, hnot2, hnot3, hbegins, h₂, h₃]

end Characters

lemma toNat_ofNat {n : ℕ} (h : n < 256) : (UInt8.ofNat n).toNat = n :=
  UInt8.toNat_ofNat_of_lt' h

lemma isContinuation_ofNat (n : ℕ) : isContinuation (UInt8.ofNat (n % 64 + 128)) = true := by
  rw [isContinuation_iff, toNat_ofNat (by omega)]
  omega

lemma more_ofNat (m n : ℕ) : more m (UInt8.ofNat (n % 64 + 128)) = m * 64 + n % 64 := by
  rw [more, toNat_ofNat (by omega)]
  omega

/-- One character is read back, whatever follows it. -/
lemma decodeLossy_encodeChar (c : Char) (x : List UInt8) :
    decodeLossy (String.utf8EncodeChar c ++ x) = c :: decodeLossy x := by
  have hvalid : c.val.toNat < 55296 ∨ 57343 < c.val.toNat ∧ c.val.toNat < 1114112 := c.valid
  have hc : Char.ofNat c.val.toNat = c := Char.ofNat_toNat c
  unfold String.utf8EncodeChar
  generalize c.val.toNat = v at hvalid hc ⊢
  dsimp only
  split
  next h1 =>
    have h₀ := toNat_ofNat (show v < 256 by omega)
    rw [List.cons_append, List.nil_append, decodeLossy_cons, h₀, hc]
    rw [UInt8.lt_iff_toNat_lt, h₀]
    exact Nat.lt_succ_of_le h1
  next h1 =>
    split
    next h2 =>
      have h₀ := toNat_ofNat (show v / 64 % 32 + 192 < 256 by omega)
      rw [List.cons_append, List.cons_append, decodeLossy_two _ (by omega) (by omega)
        (isContinuation_ofNat _), more_ofNat, ← hc]
      congr 2
      omega
    next h2 =>
      split
      next h3 =>
        have h₀ := toNat_ofNat (show v / 4096 % 16 + 224 < 256 by omega)
        have h₁ := toNat_ofNat (show v / 64 % 64 + 128 < 256 by omega)
        simp only [List.cons_append]
        rw [decodeLossy_three _ (by omega) (by omega) (isContinuation_ofNat _)
          (isContinuation_ofNat _) (by omega) (by omega), more_ofNat, more_ofNat, ← hc]
        congr 2
        omega
      next h3 =>
        have h₀ := toNat_ofNat (show v / 262144 % 8 + 240 < 256 by omega)
        have h₁ := toNat_ofNat (show v / 4096 % 64 + 128 < 256 by omega)
        simp only [List.cons_append]
        rw [decodeLossy_four _ (by omega) (by omega) (isContinuation_ofNat _)
          (isContinuation_ofNat _) (isContinuation_ofNat _) (by omega) (by omega), more_ofNat,
          more_ofNat, more_ofNat, ← hc]
        congr 2
        omega

/-- The bytes of a text. -/
def encode (s : List Char) : List UInt8 := s.flatMap String.utf8EncodeChar

/-- **What was encoded is read back.** -/
theorem decodeLossy_encode (s : List Char) : decodeLossy (encode s) = s := by
  induction s with
  | nil => rfl
  | cons c s ih =>
    rw [encode, List.flatMap_cons, decodeLossy_encodeChar]
    exact congrArg _ ih

end CrossHostOps.Utf8
