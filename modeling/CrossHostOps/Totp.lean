import CrossHostOps.Numerals

/-!
The one-time codes that a jumpserver asks for (`generate_totp`). The decoding of the secret and the
message authentication code are parameters. `none` stands for a panic; `checks` says whether the
program was built with checks of arithmetic overflow.
-/

namespace CrossHostOps.Totp

open Text Numerals

structure MfaConfig where
  totpSecretBase32 : Str
  digits : ℕ
  period : ℕ
  digest : Str

/-- `BASE32_NOPAD.decode` and HMAC-SHA1, whose codes have twenty bytes. -/
structure Crypto where
  base32 : Str → Option Bytes
  hmacSha1 : Bytes → Bytes → Bytes
  length_hmacSha1 : ∀ secret message, (hmacSha1 secret message).length = 20

def toBeBytes (n : ℕ) : Bytes := (List.range 8).map fun i => UInt8.ofNat (n / 256 ^ (7 - i))

/-- `10_u32.pow`. -/
def pow10 (checks : Bool) (digits : ℕ) : Option ℕ :=
  if 10 ^ digits < 2 ^ 32 then some (10 ^ digits)
  else if checks then none
  else some (10 ^ digits % 2 ^ 32)

/-- The four bytes at the offset that the last byte gives, without the sign. -/
def truncate (digest : Bytes) : Option ℕ := do
  let last ← digest.getLast?
  let offset := last.toNat &&& 0x0f
  let a ← digest[offset]?
  let b ← digest[offset + 1]?
  let c ← digest[offset + 2]?
  let d ← digest[offset + 3]?
  some ((a.toNat &&& 0x7f) <<< 24 ||| b.toNat <<< 16 ||| c.toNat <<< 8 ||| d.toNat)

/-- `generate_totp`, at a number of seconds since the epoch, or before it. -/
def generateTotp (crypto : Crypto) (checks : Bool) (config : MfaConfig) (now : Option ℕ) :
    Option (Except Str Str) :=
  if config.digest.map Char.toLower ≠ "sha1" then
    some (.error "only sha1 TOTP is supported")
  else match crypto.base32 config.totpSecretBase32, now with
    | none, _ => some (.error "invalid base32 TOTP secret")
    | _, none => some (.error "system clock is before unix epoch")
    | some secret, some now => do
      let counter ← if config.period = 0 then none else some (now / config.period)
      let value ← truncate (crypto.hmacSha1 secret (toBeBytes counter))
      let modulo ← pow10 checks config.digits
      if modulo = 0 then none else some (.ok (zeroPad config.digits (value % modulo)))

/-! ### The codes of RFC 6238 -/

/-- The number in the low 31 bits of the four bytes. -/
def rfcValue (digest : Bytes) : ℕ :=
  let offset := (digest.getLastD 0).toNat % 16
  ((digest.getD offset 0).toNat * 2 ^ 24 + (digest.getD (offset + 1) 0).toNat * 2 ^ 16 +
    (digest.getD (offset + 2) 0).toNat * 2 ^ 8 + (digest.getD (offset + 3) 0).toNat) % 2 ^ 31

/-- The code has just so many decimal digits, and their value is the number reduced to them. -/
structure IsCode (digits value : ℕ) (code : Str) : Prop where
  length : code.length = digits
  isDigit : ∀ c ∈ code, c.isDigit
  value : Nat.ofDigitChars 10 code 0 = value % 10 ^ digits

/-- One more byte behind the others. -/
lemma shiftLeft_or {x b k : ℕ} (hb : b < 256) :
    x <<< (k + 8) ||| b <<< k = (x * 256 + b) <<< k := by
  have hlt : b <<< k < 2 ^ (k + 8) := by
    rw [Nat.shiftLeft_eq, Nat.pow_add, Nat.mul_comm]
    exact Nat.mul_lt_mul_of_pos_left hb (Nat.two_pow_pos k)
  rw [← Nat.shiftLeft_add_eq_or_of_lt hlt, Nat.shiftLeft_eq, Nat.shiftLeft_eq, Nat.shiftLeft_eq,
    Nat.add_mul, Nat.mul_assoc, Nat.add_comm k, Nat.pow_add]

lemma truncate_eq {digest : Bytes} (h : digest.length = 20) :
    truncate digest = some (rfcValue digest) := by
  have hlast : digest.getLast? = some (digest.getLastD 0) := by
    rw [List.getLastD_eq_getLast?, List.getLast?_eq_getElem?]
    simp [h]
  have hoffset (n : ℕ) : n &&& 0x0f = n % 16 := Nat.and_two_pow_sub_one_eq_mod n 4
  have hget (i : ℕ) (hi : i < 20) : digest[i]? = some (digest.getD i 0) := by
    simp [h, hi]
  have hsign (n : ℕ) : n &&& 0x7f = n % 128 := Nat.and_two_pow_sub_one_eq_mod n 7
  have hbyte (b : UInt8) : b.toNat < 256 := b.toNat_lt
  simp only [truncate, hlast, hoffset, Option.bind_eq_bind, Option.bind_some]
  rw [hget _ (by omega), hget _ (by omega), hget _ (by omega), hget _ (by omega)]
  simp only [Option.bind_some, hsign]
  rw [shiftLeft_or (hbyte _), shiftLeft_or (hbyte _),
    ← Nat.shiftLeft_add_eq_or_of_lt (hbyte _), rfcValue]
  have hb := hbyte (digest.getD ((digest.getLastD 0).toNat % 16 + 1) 0)
  have hc := hbyte (digest.getD ((digest.getLastD 0).toNat % 16 + 2) 0)
  have hd := hbyte (digest.getD ((digest.getLastD 0).toNat % 16 + 3) 0)
  congr 1
  omega

lemma isCode_zeroPad {digits : ℕ} (hdigits : 0 < digits) (value : ℕ) :
    IsCode digits value (zeroPad digits (value % 10 ^ digits)) := by
  have hlen : (showNat (value % 10 ^ digits)).length ≤ digits :=
    (Nat.length_toDigits_le_iff (by decide) hdigits).2 (Nat.mod_lt _ (Nat.pow_pos (by decide)))
  refine ⟨?_, fun _ => isDigit_of_mem_zeroPad, ofDigitChars_zeroPad _ _⟩
  rw [length_zeroPad, max_eq_left hlen]

variable {crypto : Crypto} {config : MfaConfig} {secret : Bytes}

/-- No panic, and what comes out as a code is the code of the time step. -/
def WellFormed (crypto : Crypto) (checks : Bool) (config : MfaConfig) (secret : Bytes) (now : ℕ) :
    Prop :=
  ∃ result, generateTotp crypto checks config (some now) = some result ∧
    ∀ code, result = .ok code → IsCode config.digits
      (rfcValue (crypto.hmacSha1 secret (toBeBytes (now / config.period)))) code

lemma generateTotp_eq (hdigest : config.digest.map Char.toLower = "sha1")
    (hsecret : crypto.base32 config.totpSecretBase32 = some secret) (checks : Bool) (now : ℕ) :
    generateTotp crypto checks config (some now) =
      if config.period = 0 then none
      else (pow10 checks config.digits).bind fun modulo =>
        if modulo = 0 then none
        else some (.ok (zeroPad config.digits
          (rfcValue (crypto.hmacSha1 secret (toBeBytes (now / config.period))) % modulo))) := by
  unfold generateTotp
  rw [if_neg (not_not.2 hdigest), hsecret]
  by_cases hperiod : config.period = 0
  · simp [hperiod]
  · simp [truncate_eq (crypto.length_hmacSha1 _ _)]

/-- **The codes are well formed, in every build and at every time, exactly if the period is not zero
and there are one to nine digits.** -/
theorem totp_well_formed_iff (hdigest : config.digest.map Char.toLower = "sha1")
    (hsecret : crypto.base32 config.totpSecretBase32 = some secret) :
    (∀ checks now, WellFormed crypto checks config secret now) ↔
      config.period ≠ 0 ∧ 1 ≤ config.digits ∧ config.digits ≤ 9 := by
  have heq := generateTotp_eq hdigest hsecret
  constructor
  · intro h
    obtain ⟨result, hresult, hcode⟩ := h true 0
    rw [heq] at hresult
    have hperiod : config.period ≠ 0 := fun hzero => by simp [hzero] at hresult
    have hpow : 10 ^ config.digits < 2 ^ 32 := by
      by_contra hlarge
      rw [if_neg hperiod, pow10, if_neg hlarge] at hresult
      cases hresult
    refine ⟨hperiod, Nat.pos_of_ne_zero fun hzero => ?_, ?_⟩
    · simp [hperiod, pow10, hzero, Nat.mod_one] at hresult
      subst hresult
      have hlen := (hcode _ rfl).length
      simp [hzero, zeroPad, showNat] at hlen
    · by_contra hlarge
      have hle : 10 ^ 10 ≤ 10 ^ config.digits := Nat.pow_le_pow_right (by decide) (by omega)
      omega
  · rintro ⟨hperiod, hpos, hle⟩ checks now
    have hpow : 10 ^ config.digits < 2 ^ 32 :=
      (Nat.pow_le_pow_right (by decide) hle).trans_lt (by decide)
    have hne : 10 ^ config.digits ≠ 0 := (Nat.pow_pos (by decide)).ne'
    have hok := heq checks now
    rw [if_neg hperiod, pow10, if_pos hpow, Option.bind_some, if_neg hne] at hok
    refine ⟨_, hok, ?_⟩
    rintro code ⟨⟩
    exact isCode_zeroPad hpos _

section Runs

/-- The secret of the test vectors, and its code at the time 2000000000 and the period 30. -/
def rfcCrypto : Crypto where
  base32 text := if text = "GEZDGNBVGY3TQOJQGEZDGNBVGY3TQOJQ" then
    some (ascii "12345678901234567890") else none
  hmacSha1 _ _ := [0x25, 0xa3, 0x26, 0xd3, 0x1f, 0xc3, 0x66, 0x24, 0x4c, 0xad, 0x05, 0x49, 0x76,
    0x02, 0x0c, 0x7b, 0x56, 0xb1, 0x3d, 0x5f]
  length_hmacSha1 _ _ := rfl

/-- The settings of a gateway are taken as they are. -/
def sha1Config (digits period : ℕ) : MfaConfig :=
  ⟨"GEZDGNBVGY3TQOJQGEZDGNBVGY3TQOJQ", digits, period, "SHA1"⟩

theorem totp_well_formed_six :
    WellFormed rfcCrypto false (sha1Config 6 30) (ascii "12345678901234567890") 2000000000 :=
  (totp_well_formed_iff (by decide) (by decide)).2 (by decide) false 2000000000

/-- A period of zero panics, and so do ten digits in a build with checks. Without them the code is
of another number, and no digits give one. -/
theorem totp_panics :
    generateTotp rfcCrypto false (sha1Config 6 0) (some 2000000000) = none ∧
      generateTotp rfcCrypto true (sha1Config 10 30) (some 2000000000) = none ∧
      generateTotp rfcCrypto false (sha1Config 10 30) (some 2000000000) =
        some (.ok "0659213629") ∧
      rfcValue (rfcCrypto.hmacSha1 (ascii "12345678901234567890")
        (toBeBytes (2000000000 / 30))) = 2069279037 ∧
      generateTotp rfcCrypto false (sha1Config 0 30) (some 2000000000) = some (.ok "0") := by
  decide +kernel

end Runs

end CrossHostOps.Totp
