import Mathlib.Tactic.IntervalCases
import CrossHostOps.PrefixCode
import CrossHostOps.RunCopy

/-!
The text `serde_json::to_string` makes of a download sidecar. No such text begins another,
which is why a sidecar cut while it was written is not mistaken for a whole one.
-/

namespace CrossHostOps.SidecarJson

open Text PrefixCode RunCopy List

/-- A character inside a JSON string. -/
def escape (c : Char) : Str :=
  if c = '"' then "\\\""
  else if c = '\\' then "\\\\"
  else if 32 ≤ c.toNat then [c]
  else if c.toNat = 8 then "\\b"
  else if c.toNat = 9 then "\\t"
  else if c.toNat = 10 then "\\n"
  else if c.toNat = 12 then "\\f"
  else if c.toNat = 13 then "\\r"
  else "\\u00" ++ [Nat.digitChar (c.toNat / 16), Nat.digitChar (c.toNat % 16)]

def jsonString (s : Str) : Str := '"' :: (s.flatMap escape ++ ['"'])

/-- The fields in the order of the struct. -/
def toJson (s : DownloadSidecar) : Str :=
  "\x7b\"target\":" ++ jsonString s.target ++
  ",\"remote_path\":" ++ jsonString s.remotePath ++
  ",\"relative_path\":" ++ jsonString s.relativePath ++
  ",\"offset\":" ++ (showInt s.offset ++ [',']) ++
  "\"size\":" ++ (showInt s.size ++ [',']) ++
  "\"mtime\":" ++ (showInt s.mtime ++ ['\x7d'])

/-! ### Reading it back -/

/-- The first character of an escaped text. -/
def unescape : Str → Option (Char × Str)
  | '\\' :: 'u' :: '0' :: '0' :: h :: l :: r =>
    some (Char.ofNat (16 * (h.toNat - 48) + if l.isDigit then l.toNat - 48 else l.toNat - 87), r)
  | '\\' :: 'b' :: r => some (Char.ofNat 8, r)
  | '\\' :: 't' :: r => some ('\t', r)
  | '\\' :: 'n' :: r => some ('\n', r)
  | '\\' :: 'f' :: r => some (Char.ofNat 12, r)
  | '\\' :: 'r' :: r => some ('\r', r)
  | '\\' :: c :: r => some (c, r)
  | c :: r => some (c, r)
  | [] => none

lemma unescape_escape (c : Char) (r : Str) : unescape (escape c ++ r) = some (c, r) := by
  unfold escape
  split_ifs with h1 h2 h3
  · subst h1; rfl
  · subst h2; rfl
  · simp [unescape, h2]
  all_goals
    have hc : c = Char.ofNat c.toNat := (Char.ofNat_toNat c).symm
    generalize c.toNat = n at *
    subst hc
    interval_cases n <;> first | rfl | omega

lemma isPrefixCode_escape : IsPrefixCode escape :=
  isPrefixCode_of_decoder unescape unescape_escape

lemma escape_ne_quote (c : Char) (r r' : Str) : escape c ++ r ≠ '"' :: r' := by
  unfold escape
  split_ifs with h1 <;> simp [h1]

lemma isPrefixCode_jsonString : IsPrefixCode jsonString := by
  intro s s' r r' h
  exact isPrefixCode_flatMap_terminated isPrefixCode_escape '"' escape_ne_quote s s' r r'
    (tail_eq_of_cons_eq h)

lemma showInt_injective : Function.Injective showInt := by
  have hdigits : ∀ n m : ℕ, Nat.toDigits 10 n = Nat.toDigits 10 m → n = m := fun n m h => by
    rw [← Nat.ofDigitChars_ten_toDigits (n := n), h, Nat.ofDigitChars_ten_toDigits]
  have hminus : ∀ (n : ℕ) (s : Str), Nat.toDigits 10 n ≠ '-' :: s := fun n s h => by
    have : '-' ∈ Nat.toDigits 10 n := h ▸ mem_cons_self
    exact absurd (Nat.isDigit_of_mem_toDigits (by omega) (by omega) this) (by decide)
  intro n m h
  unfold showInt showNat at h
  split_ifs at h with hn hm hm
  · have := hdigits _ _ (tail_eq_of_cons_eq h)
    omega
  · exact absurd h.symm (hminus _ _)
  · exact absurd h (hminus _ _)
  · have := hdigits _ _ h
    omega

/-- A number is read up to the character after it. -/
lemma showInt_cancel {n m : ℤ} {t : Char} {r r' : Str} (ht : t ≠ '-') (ht' : t.isDigit = false)
    (h : showInt n ++ ([t] ++ r) = showInt m ++ ([t] ++ r')) : n = m ∧ r = r' := by
  rw [← append_assoc, ← append_assoc] at h
  refine isPrefixCode_terminated t showInt_injective (fun n hmem => ?_) n m r r' h
  rcases mem_append.1 hmem with hsign | hdigit
  · split_ifs at hsign
    · exact ht (by simpa using hsign)
    · simp at hsign
  · have := Nat.isDigit_of_mem_toDigits (by omega) (by omega) hdigit
    simp [ht'] at this

lemma isPrefixCode_toJson : IsPrefixCode toJson := by
  intro s s' r r' h
  -- field by field from the front
  unfold toJson at h
  simp only [append_assoc] at h
  replace h := append_cancel_left h
  obtain ⟨htarget, h⟩ := isPrefixCode_jsonString _ _ _ _ h
  replace h := append_cancel_left h
  obtain ⟨hremote, h⟩ := isPrefixCode_jsonString _ _ _ _ h
  replace h := append_cancel_left h
  obtain ⟨hrelative, h⟩ := isPrefixCode_jsonString _ _ _ _ h
  replace h := append_cancel_left h
  obtain ⟨hoffset, h⟩ := showInt_cancel (by decide) rfl h
  replace h := append_cancel_left h
  obtain ⟨hsize, h⟩ := showInt_cancel (by decide) rfl h
  replace h := append_cancel_left h
  obtain ⟨hmtime, hrest⟩ := showInt_cancel (by decide) rfl h
  cases s
  cases s'
  simp only [Nat.cast_inj] at htarget hremote hrelative hoffset hsize hmtime
  subst htarget hremote hrelative hoffset hsize hmtime
  exact ⟨rfl, hrest⟩

lemma isPrefixCode_utf8EncodeChar : IsPrefixCode String.utf8EncodeChar := by
  intro c c' r r' h
  have hc : ∀ (c : Char) (r : Bytes), ((String.utf8EncodeChar c ++ r).toByteArray).utf8DecodeChar? 0
      = some c := fun c r => by
    rw [toByteArray_append]
    exact ByteArray.utf8DecodeChar?_utf8EncodeChar_append
  have := hc c r
  rw [h, hc c' r'] at this
  obtain rfl := Option.some.inj this
  exact ⟨rfl, append_cancel_left h⟩

def toBytes (s : DownloadSidecar) : Bytes := (toJson s).flatMap String.utf8EncodeChar

lemma isPrefixCode_toBytes : IsPrefixCode toBytes :=
  isPrefixCode_toJson.flatMap isPrefixCode_utf8EncodeChar

open Classical in
/-- The reader that takes the texts `to_string` makes and nothing else. -/
noncomputable def strict : SidecarFormat where
  toString := toBytes
  fromStr b := if h : ∃ s, toBytes s = b then some h.choose else none
  fromStr_toString s := by
    have h : ∃ s', toBytes s' = toBytes s := ⟨s, rfl⟩
    rw [dif_pos h]
    exact congrArg some (isPrefixCode_toBytes.injective h.choose_spec)
  fromStr_cut s p hp hne := by
    refine dif_neg ?_
    rintro ⟨s', rfl⟩
    exact hne (congrArg toBytes (isPrefixCode_toBytes.eq_of_prefix hp))

end CrossHostOps.SidecarJson
