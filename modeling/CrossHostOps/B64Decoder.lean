import CrossHostOps.B64

/-!
`B64Decoder` of `daemon/session/b64.rs`: base64 text is decoded as it arrives. Line breaks are
skipped; any other byte outside the alphabet ends the payload, and the count of decoded bytes
tells whether it was whole.
-/

namespace CrossHostOps.B64

open Text List

def cr : UInt8 := 13

inductive DecodeError
  | larger (decoded expected : ℕ)
  | paddingPosition
  | paddingOrder
  | quadPadding
  | character
  | lengthMismatch (expected decoded : ℕ)

def value? (c : UInt8) : Option ℕ :=
  if 65 ≤ c ∧ c ≤ 90 then some (c.toNat - 65)
  else if 97 ≤ c ∧ c ≤ 122 then some (c.toNat - 97 + 26)
  else if 48 ≤ c ∧ c ≤ 57 then some (c.toNat - 48 + 52)
  else if c = 43 then some 62
  else if c = 47 then some 63
  else none

def value (c : UInt8) : Except DecodeError ℕ :=
  match value? c with
  | some v => .ok v
  | none => .error .character

def decodeQuad (q₀ q₁ q₂ q₃ : UInt8) : Except DecodeError Bytes := do
  let pads := [q₀, q₁, q₂, q₃].count pad
  let a ← value q₀
  let b ← value q₁
  let first := UInt8.ofNat (a <<< 2 ||| b >>> 4)
  match pads with
  | 0 =>
    let c ← value q₂
    let d ← value q₃
    return [first, UInt8.ofNat (b <<< 4 ||| c >>> 2), UInt8.ofNat (c <<< 6 ||| d)]
  | 1 =>
    if q₃ ≠ pad then throw .paddingOrder
    let c ← value q₂
    return [first, UInt8.ofNat (b <<< 4 ||| c >>> 2)]
  | 2 => return [first]
  | _ => throw .quadPadding

/-- The characters of a quad that is not full. -/
inductive Quad
  | empty
  | one (q₀ : UInt8)
  | two (q₀ q₁ : UInt8)
  | three (q₀ q₁ q₂ : UInt8)

def Quad.padded : Quad → Except DecodeError Bytes
  | .empty | .one _ => .error .paddingPosition
  | .two q₀ q₁ => decodeQuad q₀ q₁ pad pad
  | .three q₀ q₁ q₂ => decodeQuad q₀ q₁ q₂ pad

structure B64Decoder where
  expected : ℕ
  decoded : ℕ
  quad : Quad
  /-- The payload has ended. -/
  stopped : Bool

namespace B64Decoder

def new (expected : ℕ) : B64Decoder := ⟨expected, 0, .empty, false⟩

def finish (d : B64Decoder) : Except DecodeError Unit :=
  if d.decoded ≠ d.expected then .error (.lengthMismatch d.expected d.decoded) else .ok ()

/-- `n` more bytes; the quad begins anew. -/
def count (d : B64Decoder) (n : ℕ) : Except DecodeError B64Decoder :=
  let d := { d with decoded := d.decoded + n, quad := .empty }
  if d.decoded > d.expected then .error (.larger d.decoded d.expected) else .ok d

def char (d : B64Decoder) (c : UInt8) : Except DecodeError (Bytes × B64Decoder) :=
  match d.quad with
  | .empty => .ok ([], { d with quad := .one c })
  | .one q₀ => .ok ([], { d with quad := .two q₀ c })
  | .two q₀ q₁ => .ok ([], { d with quad := .three q₀ q₁ c })
  | .three q₀ q₁ q₂ => do
    let bytes ← decodeQuad q₀ q₁ q₂ c
    return (bytes, ← d.count 3)

def padding (d : B64Decoder) : Except DecodeError (Bytes × B64Decoder) := do
  let bytes ← d.quad.padded
  return (bytes, { ← d.count bytes.length with stopped := true })

def byte (d : B64Decoder) (b : UInt8) : Except DecodeError (Bytes × B64Decoder) :=
  if d.stopped ∨ b = cr ∨ b = newline then .ok ([], d)
  else if (value? b).isSome then d.char b
  else if b = pad then d.padding
  else .ok ([], { d with stopped := true })

/-- The bytes decoded from a chunk; an error loses them. -/
def feed (d : B64Decoder) : Bytes → Except DecodeError (Bytes × B64Decoder)
  | [] => .ok ([], d)
  | b :: chunk => do
    let (out, d) ← d.byte b
    let (rest, d) ← d.feed chunk
    return (out ++ rest, d)

def feedAll (d : B64Decoder) : List Bytes → Except DecodeError (Bytes × B64Decoder)
  | [] => .ok ([], d)
  | chunk :: chunks => do
    let (out, d) ← d.feed chunk
    let (rest, d) ← d.feedAll chunks
    return (out ++ rest, d)

end B64Decoder

/-! ### One quad -/

lemma value?_symbol {v : ℕ} (h : v < 64) : value? (symbol v) = some v := by
  have hall : ∀ v < 64, value? (symbol v) = some v := by decide
  exact hall v h

lemma value_symbol {v : ℕ} (h : v < 64) : value (symbol v) = .ok v := by
  rw [value, value?_symbol h]

lemma symbol_ne {v : ℕ} {b : UInt8} (h : v < 64) (hb : value? b = none) : symbol v ≠ b := by
  rintro rfl
  rw [value?_symbol h] at hb
  cases hb

lemma symbol_ne_pad {v : ℕ} (h : v < 64) : symbol v ≠ pad := symbol_ne h rfl

lemma shiftLeft_or {x y i : ℕ} (h : y < 2 ^ i) : x <<< i ||| y = x * 2 ^ i + y := by
  rw [← Nat.shiftLeft_add_eq_or_of_lt h, Nat.shiftLeft_eq]

lemma ofNat_eq {n : ℕ} {a : UInt8} (h : n % 256 = a.toNat) : UInt8.ofNat n = a := by
  apply UInt8.toNat_inj.1
  rw [← h]
  rfl

section Bits

variable (a b c : UInt8)

lemma join_first (y : ℕ) (hy : y < 16) :
    UInt8.ofNat ((a.toNat / 4) <<< 2 ||| (a.toNat % 4 * 16 + y) >>> 4) = a := by
  have ha := a.toNat_lt
  rw [shiftLeft_or (by omega)]
  refine ofNat_eq ?_
  omega

lemma join_second (x y : ℕ) (hy : y < 4) :
    UInt8.ofNat ((x * 16 + b.toNat / 16) <<< 4 ||| (b.toNat % 16 * 4 + y) >>> 2) = b := by
  have hb := b.toNat_lt
  rw [shiftLeft_or (by omega)]
  refine ofNat_eq ?_
  omega

lemma join_third (x : ℕ) :
    UInt8.ofNat ((x * 4 + c.toNat / 64) <<< 6 ||| c.toNat % 64) = c := by
  have hc := c.toNat_lt
  rw [shiftLeft_or (by omega)]
  refine ofNat_eq ?_
  omega

/-! The four values that three bytes are spelled with. -/

lemma first_lt : a.toNat / 4 < 64 := by
  have ha := a.toNat_lt
  omega

lemma second_lt : a.toNat % 4 * 16 + b.toNat / 16 < 64 := by
  have hb := b.toNat_lt
  omega

lemma third_lt : b.toNat % 16 * 4 + c.toNat / 64 < 64 := by
  have hc := c.toNat_lt
  omega

lemma fourth_lt : c.toNat % 64 < 64 := Nat.mod_lt _ (by decide)

lemma decodeQuad_three :
    decodeQuad (symbol (a.toNat / 4)) (symbol (a.toNat % 4 * 16 + b.toNat / 16))
      (symbol (b.toNat % 16 * 4 + c.toNat / 64)) (symbol (c.toNat % 64)) = .ok [a, b, c] := by
  have hb := b.toNat_lt
  have hc := c.toNat_lt
  simp [decodeQuad, symbol_ne_pad, value_symbol, first_lt, second_lt, third_lt, fourth_lt,
    join_first a (b.toNat / 16) (by omega), join_second b (a.toNat % 4) (c.toNat / 64) (by omega),
    join_third c (b.toNat % 16), bind, Except.bind, pure, Except.pure]

lemma decodeQuad_two :
    decodeQuad (symbol (a.toNat / 4)) (symbol (a.toNat % 4 * 16 + b.toNat / 16))
      (symbol (b.toNat % 16 * 4)) pad = .ok [a, b] := by
  have hb := b.toNat_lt
  have hthird : b.toNat % 16 * 4 < 64 := third_lt b 0
  have hsecond := join_second b (a.toNat % 4) 0 (by omega)
  rw [Nat.add_zero] at hsecond
  simp [decodeQuad, symbol_ne_pad, value_symbol, first_lt, second_lt, hthird,
    join_first a (b.toNat / 16) (by omega), hsecond, bind, Except.bind, pure, Except.pure]

lemma decodeQuad_one :
    decodeQuad (symbol (a.toNat / 4)) (symbol (a.toNat % 4 * 16)) pad pad = .ok [a] := by
  have hsecond : a.toNat % 4 * 16 < 64 := second_lt a 0
  have hfirst := join_first a 0 (by omega)
  rw [Nat.add_zero] at hfirst
  simp [decodeQuad, symbol_ne_pad, value_symbol, first_lt, hsecond, hfirst, bind, Except.bind, pure,
    Except.pure]

end Bits

/-! ### Chunks and line breaks -/

namespace B64Decoder

variable {d d' : B64Decoder}

lemma feed_cons {b : UInt8} {out : Bytes} (h : d.byte b = .ok (out, d')) (chunk : Bytes) :
    d.feed (b :: chunk) = (d'.feed chunk).map fun r => (out ++ r.1, r.2) := by
  rw [feed, h]
  rcases hrest : d'.feed chunk with e | ⟨rest, d₁⟩ <;> simp [hrest, bind, Except.bind, Except.map,
    pure, Except.pure]

lemma feed_cons_nil {b : UInt8} (h : d.byte b = .ok ([], d')) (chunk : Bytes) :
    d.feed (b :: chunk) = d'.feed chunk := by
  rw [feed_cons h]
  rcases d'.feed chunk with e | ⟨rest, d₁⟩ <;> rfl

lemma feed_cons_error {b : UInt8} {e : DecodeError} (h : d.byte b = .error e) (chunk : Bytes) :
    d.feed (b :: chunk) = .error e := by
  rw [feed, h]
  rfl

lemma feed_append (d : B64Decoder) (chunk chunk' : Bytes) : d.feed (chunk ++ chunk') = (do
    let (out, d) ← d.feed chunk
    let (rest, d) ← d.feed chunk'
    return (out ++ rest, d)) := by
  induction chunk generalizing d with
  | nil =>
    rcases h : d.feed chunk' with e | ⟨rest, d₁⟩ <;>
      simp [feed, h, bind, Except.bind, pure, Except.pure]
  | cons b chunk ih =>
    rcases hb : d.byte b with e | ⟨out, d₁⟩
    · rw [cons_append, feed_cons_error hb, feed_cons_error hb]
      rfl
    · rw [cons_append, feed_cons hb, feed_cons hb, ih]
      rcases h₁ : d₁.feed chunk with e | ⟨rest, d₂⟩
      · rfl
      · rcases h₂ : d₂.feed chunk' with e | ⟨rest', d₃⟩ <;>
          simp [Except.map, bind, Except.bind, pure, Except.pure, h₂]

/-- Where the chunks are cut does not matter. -/
lemma feedAll_eq_feed (d : B64Decoder) (chunks : List Bytes) :
    d.feedAll chunks = d.feed chunks.flatten := by
  induction chunks generalizing d with
  | nil => rfl
  | cons chunk chunks ih =>
    rw [feedAll, flatten_cons, feed_append]
    simp [ih]

def visible (w : Bytes) : Bytes := w.filter fun b => b ≠ cr ∧ b ≠ newline

lemma visible_append (w w' : Bytes) : visible (w ++ w') = visible w ++ visible w' :=
  filter_append ..

lemma feed_visible (d : B64Decoder) (w : Bytes) : d.feed (visible w) = d.feed w := by
  induction w generalizing d with
  | nil => rfl
  | cons b w ih =>
    by_cases hb : b = cr ∨ b = newline
    · have hskip : d.byte b = .ok ([], d) := by
        rw [byte, if_pos (.inr hb)]
      rw [feed_cons_nil hskip, ← ih]
      congr 1
      rcases hb with rfl | rfl <;> rfl
    · have hkeep : visible (b :: w) = b :: visible w := by
        rw [not_or] at hb
        simp [visible, hb]
      rw [hkeep]
      rcases hbyte : d.byte b with e | ⟨out, d₁⟩
      · rw [feed_cons_error hbyte, feed_cons_error hbyte]
      · rw [feed_cons hbyte, feed_cons hbyte, ih]

/-! ### A payload, whole or cut off -/

lemma feed_stopped (h : d.stopped = true) (chunk : Bytes) : d.feed chunk = .ok ([], d) := by
  induction chunk with
  | nil => rfl
  | cons b chunk ih =>
    rw [feed_cons_nil _ chunk, ih]
    rw [byte, if_pos (.inl h)]

def underscore : UInt8 := 95

/-- An underscore ends the payload; an unfinished quad is dropped. -/
lemma feed_underscore (expected decoded : ℕ) (quad : Quad) (after : Bytes) :
    (⟨expected, decoded, quad, false⟩ : B64Decoder).feed (underscore :: after) =
      .ok ([], ⟨expected, decoded, quad, true⟩) := by
  have hbyte : (⟨expected, decoded, quad, false⟩ : B64Decoder).byte underscore =
      .ok ([], ⟨expected, decoded, quad, true⟩) := rfl
  rw [feed_cons_nil hbyte]
  exact feed_stopped rfl after

lemma byte_symbol {v : ℕ} (hv : v < 64) (h : d.stopped = false) :
    d.byte (symbol v) = d.char (symbol v) := by
  have hcr : symbol v ≠ cr := symbol_ne hv rfl
  have hnl : symbol v ≠ newline := symbol_ne hv rfl
  rw [byte, if_neg (by simp [h, hcr, hnl]), value?_symbol hv]
  rfl

/-- The text holds `out`: that much is decoded, or it is more than was expected. -/
structure Decodes (d : B64Decoder) (text out : Bytes) : Prop where
  fits : d.decoded + out.length ≤ d.expected → ∃ d', d.feed text = .ok (out, d') ∧
    d'.expected = d.expected ∧ d'.decoded = d.decoded + out.length
  exceeds : d.expected < d.decoded + out.length → ∃ e, d.feed text = .error e

section Decodes

variable {expected decoded v v₀ v₁ v₂ : ℕ} {q₀ q₁ q₂ b : UInt8} {quad : Quad}
  {text out bytes u g : Bytes}

lemma Decodes.cons {stopped : Bool}
    (hb : (⟨expected, decoded, quad, false⟩ : B64Decoder).byte b =
      if decoded + bytes.length > expected then .error (.larger (decoded + bytes.length) expected)
      else .ok (bytes, ⟨expected, decoded + bytes.length, .empty, stopped⟩))
    (h : decoded + bytes.length ≤ expected →
      Decodes ⟨expected, decoded + bytes.length, .empty, stopped⟩ text out) :
    Decodes ⟨expected, decoded, quad, false⟩ (b :: text) (bytes ++ out) := by
  by_cases hle : decoded + bytes.length ≤ expected
  · rw [if_neg (by omega)] at hb
    constructor
    · intro hfits
      rw [length_append] at hfits
      obtain ⟨d', hrun, hexp, hdec⟩ := (h hle).fits (by dsimp only at hfits ⊢; omega)
      refine ⟨d', ?_, hexp, ?_⟩
      · rw [feed_cons hb, hrun]
        rfl
      · rw [hdec, length_append, Nat.add_assoc]
    · intro hlong
      rw [length_append] at hlong
      obtain ⟨e, hrun⟩ := (h hle).exceeds (by dsimp only at hlong ⊢; omega)
      refine ⟨e, ?_⟩
      rw [feed_cons hb, hrun]
      rfl
  · rw [if_pos (by omega)] at hb
    constructor
    · intro hfits
      rw [length_append] at hfits
      dsimp only at hfits
      omega
    · intro _
      exact ⟨_, feed_cons_error hb text⟩

/-- A payload that breaks off. -/
lemma decodes_underscore (quad : Quad) (after : Bytes) (hle : decoded ≤ expected) :
    Decodes ⟨expected, decoded, quad, false⟩ (underscore :: after) [] :=
  ⟨fun _ => ⟨_, feed_underscore expected decoded quad after, rfl, rfl⟩,
    fun hlong => absurd hle (Nat.not_le.2 hlong)⟩

lemma decodes_stopped (text : Bytes) (hle : decoded ≤ expected) :
    Decodes ⟨expected, decoded, quad, true⟩ text [] :=
  ⟨fun _ => ⟨_, feed_stopped rfl text, rfl, rfl⟩, fun hlong => absurd hle (Nat.not_le.2 hlong)⟩

lemma byte_fourth (hv : v < 64) (hquad : decodeQuad q₀ q₁ q₂ (symbol v) = .ok bytes)
    (hlen : bytes.length = 3) :
    (⟨expected, decoded, .three q₀ q₁ q₂, false⟩ : B64Decoder).byte (symbol v) =
      if decoded + bytes.length > expected then .error (.larger (decoded + bytes.length) expected)
      else .ok (bytes, ⟨expected, decoded + bytes.length, .empty, false⟩) := by
  rw [byte_symbol hv rfl, hlen]
  simp only [char, hquad, count]
  split_ifs <;> rfl

lemma byte_pad (hquad : quad.padded = .ok bytes) :
    (⟨expected, decoded, quad, false⟩ : B64Decoder).byte pad =
      if decoded + bytes.length > expected then .error (.larger (decoded + bytes.length) expected)
      else .ok (bytes, ⟨expected, decoded + bytes.length, .empty, true⟩) := by
  have hpad : (⟨expected, decoded, quad, false⟩ : B64Decoder).byte pad =
      (⟨expected, decoded, quad, false⟩ : B64Decoder).padding := rfl
  rw [hpad]
  simp only [padding, hquad, count, bind, Except.bind]
  split_ifs <;> rfl

/-- A padded quad ends the payload, whatever follows. -/
lemma decodes_padded (hquad : quad.padded = .ok bytes) (text : Bytes) :
    Decodes ⟨expected, decoded, quad, false⟩ (pad :: text) bytes := by
  have h : Decodes ⟨expected, decoded, quad, false⟩ (pad :: text) (bytes ++ []) :=
    Decodes.cons (byte_pad hquad) fun hle => decodes_stopped text hle
  rwa [append_nil] at h

/-- The text breaks off before the character `b`, or behind it. -/
lemma prefix_split {x y : Bytes} (h : u <+: x ++ b :: y) :
    u <+: x ∨ ∃ u', u = x ++ b :: u' ∧ u' <+: y := by
  rcases prefix_or_prefix_of_prefix h (prefix_append x (b :: y)) with hx | ⟨t, rfl⟩
  · exact .inl hx
  rw [prefix_append_right_inj] at h
  rcases t with _ | ⟨c, t⟩
  · exact .inl (by simp)
  · obtain ⟨rfl, ht⟩ := cons_prefix_cons.1 h
    exact .inr ⟨t, rfl, ht⟩

/-- A character of the alphabet that only goes into the quad. -/
lemma Decodes.symbol {quad' : Quad} (hv : v < 64)
    (hchar : (⟨expected, decoded, quad, false⟩ : B64Decoder).char (symbol v) =
      .ok ([], ⟨expected, decoded, quad', false⟩))
    (h : Decodes ⟨expected, decoded, quad', false⟩ text out) :
    Decodes ⟨expected, decoded, quad, false⟩ (B64.symbol v :: text) out := by
  have hfeed := feed_cons_nil ((byte_symbol hv rfl).trans hchar) text
  exact ⟨fun hfits => by rw [hfeed]; exact h.fits hfits,
    fun hlong => by rw [hfeed]; exact h.exceeds hlong⟩

lemma decodes_cut (h₀ : v₀ < 64) (h₁ : v₁ < 64) (h₂ : v₂ < 64)
    (hu : u <+: [symbol v₀, symbol v₁, symbol v₂]) (after : Bytes) (hle : decoded ≤ expected) :
    Decodes ⟨expected, decoded, .empty, false⟩ (u ++ underscore :: after) [] := by
  have hend := fun quad => decodes_underscore quad after hle
  rcases u with _ | ⟨x₀, u⟩
  · exact hend .empty
  obtain ⟨rfl, hu₁⟩ := cons_prefix_cons.1 hu
  refine .symbol h₀ rfl ?_
  rcases u with _ | ⟨x₁, u⟩
  · exact hend _
  obtain ⟨rfl, hu₂⟩ := cons_prefix_cons.1 hu₁
  refine .symbol h₁ rfl ?_
  rcases u with _ | ⟨x₂, u⟩
  · exact hend _
  obtain ⟨rfl, hu₃⟩ := cons_prefix_cons.1 hu₂
  obtain rfl := prefix_nil.1 hu₃
  exact .symbol h₂ rfl (hend _)

/-- The text `u` holds a beginning of `g`: all of it, or whole triples. -/
def Begins (expected decoded : ℕ) (after g u : Bytes) : Prop :=
  ∃ k ≤ g.length, Decodes ⟨expected, decoded, .empty, false⟩ (u ++ underscore :: after)
    (g.take k) ∧ (k = g.length ∨ 3 ∣ k) ∧ (u = encodeGroup g → k = g.length)

lemma begins_cut (h₀ : v₀ < 64) (h₁ : v₁ < 64) (h₂ : v₂ < 64)
    (hu : u <+: [symbol v₀, symbol v₁, symbol v₂]) (hg : 3 < (encodeGroup g).length)
    (after : Bytes) (hle : decoded ≤ expected) : Begins expected decoded after g u := by
  refine ⟨0, Nat.zero_le _, decodes_cut h₀ h₁ h₂ hu after hle, .inr ⟨0, rfl⟩, ?_⟩
  rintro rfl
  exact absurd hu.length_le (Nat.not_le.2 hg)

lemma decodes_beginning (hu : u <+: encodeGroup g) (after : Bytes) (hle : decoded ≤ expected) :
    Begins expected decoded after g u := by
  induction g using encodeGroup.induct generalizing u decoded with
  | case1 =>
    obtain rfl := prefix_nil.1 hu
    exact ⟨0, le_rfl, decodes_underscore .empty after hle, .inl rfl, fun _ => rfl⟩
  | case2 a =>
    rcases prefix_split (x := [_, _]) hu with hcut | ⟨u', rfl, -⟩
    · have hcut' : u <+: [symbol (a.toNat / 4), symbol (a.toNat % 4 * 16), symbol 0] :=
        hcut.trans (by simp)
      exact begins_cut (first_lt a) (second_lt a 0) (by decide) hcut' (by simp [encodeGroup]) after
        hle
    · -- one padding character is as good as two
      refine ⟨1, le_rfl, ?_, .inl rfl, fun _ => rfl⟩
      refine .symbol (first_lt a) rfl (.symbol (second_lt a 0) rfl ?_)
      exact decodes_padded (show (Quad.two _ _).padded = _ from decodeQuad_one a) _
  | case3 a b =>
    rcases prefix_split (x := [_, _, _]) hu with hcut | ⟨u', rfl, -⟩
    · exact begins_cut (first_lt a) (second_lt a b) (third_lt b 0) hcut (by simp [encodeGroup])
        after hle
    · refine ⟨2, le_rfl, ?_, .inl rfl, fun _ => rfl⟩
      refine .symbol (first_lt a) rfl (.symbol (second_lt a b) rfl (.symbol (third_lt b 0) rfl ?_))
      exact decodes_padded (show (Quad.three _ _ _).padded = _ from decodeQuad_two a b) _
  | case4 a b c rest ih =>
    rcases prefix_split (x := [_, _, _]) hu with hcut | ⟨u', rfl, hu'⟩
    · exact begins_cut (first_lt a) (second_lt a b) (third_lt b c) hcut (by simp [encodeGroup])
        after hle
    · have hquad : ∀ text out, (decoded + 3 ≤ expected →
          Decodes ⟨expected, decoded + 3, .empty, false⟩ text out) →
          Decodes ⟨expected, decoded, .empty, false⟩ (symbol (a.toNat / 4) ::
            symbol (a.toNat % 4 * 16 + b.toNat / 16) :: symbol (b.toNat % 16 * 4 + c.toNat / 64) ::
            symbol (c.toNat % 64) :: text) ([a, b, c] ++ out) := fun text out h =>
        .symbol (first_lt a) rfl (.symbol (second_lt a b) rfl (.symbol (third_lt b c) rfl
          (.cons (byte_fourth (fourth_lt c) (decodeQuad_three a b c) rfl) h)))
      by_cases hfits : decoded + 3 ≤ expected
      · obtain ⟨k, hk, hrest, hwhole, hall⟩ := ih hu' hfits
        refine ⟨k + 3, by simpa using hk, hquad _ _ fun _ => hrest, ?_, fun heq => ?_⟩
        · rw [length_cons, length_cons, length_cons]
          omega
        · rw [encodeGroup] at heq
          simp only [cons_append, nil_append, List.cons.injEq, true_and] at heq
          rw [length_cons, length_cons, length_cons, hall heq]
      · -- the first triple is already too much
        refine ⟨_, le_rfl, ?_, .inl rfl, fun _ => rfl⟩
        rw [take_length]
        exact hquad _ rest fun hle => absurd hle hfits

end Decodes

/-! ### What is on the wire -/

lemma visible_encodeGroup (g : Bytes) : visible (encodeGroup g) = encodeGroup g := by
  have hsymbol : ∀ {v : ℕ} (w : Bytes), v < 64 →
      visible (symbol v :: w) = symbol v :: visible w := by
    intro v w hv
    have hcr : symbol v ≠ cr := symbol_ne hv rfl
    have hnl : symbol v ≠ newline := symbol_ne hv rfl
    simp [visible, hcr, hnl]
  induction g using encodeGroup.induct with
  | case1 => rfl
  | case2 a =>
    rw [encodeGroup, hsymbol _ (first_lt a), hsymbol _ (by omega)]
    rfl
  | case3 a b =>
    rw [encodeGroup, hsymbol _ (first_lt a), hsymbol _ (second_lt a b), hsymbol _ (by omega)]
    rfl
  | case4 a b c rest ih =>
    rw [encodeGroup, hsymbol _ (first_lt a), hsymbol _ (second_lt a b), hsymbol _ (third_lt b c),
      hsymbol _ (fourth_lt c), ih]

lemma visible_line (g : Bytes) : visible (encodeGroup g ++ [newline]) = encodeGroup g := by
  rw [visible_append, visible_encodeGroup]
  exact append_nil _

lemma visible_emit {n : ℕ} {s : Bytes} (h : n * GROUP ≤ s.length) :
    visible (B64Encoder.emit n s) = encodeGroup (s.take (n * GROUP)) := by
  induction n generalizing s with
  | zero => simp [B64Encoder.emit, visible, encodeGroup]
  | succ n ih =>
    rw [Nat.succ_mul] at h
    have hrest : n * GROUP ≤ (s.drop GROUP).length := by
      rw [length_drop]
      omega
    have htriples : 3 ∣ (s.take GROUP).length := by
      rw [length_take, Nat.min_eq_left (by omega)]
      decide
    rw [B64Encoder.emit, visible_append, visible_line, ih hrest, ← encodeGroup_append htriples,
      ← take_add, Nat.succ_mul, Nat.add_comm]

/-- Without its line breaks, the wire is the encoding of the payload as one group. -/
lemma visible_wire (pieces : List Bytes) :
    visible (B64Encoder.wire pieces) = encodeGroup pieces.flatten := by
  have hwrote := B64Encoder.wrote_new.encodeAll pieces
  rw [nil_append, nil_append] at hwrote
  have hle := Nat.div_mul_le_self pieces.flatten.length GROUP
  have htriples : 3 ∣ (pieces.flatten.take (pieces.flatten.length / GROUP * GROUP)).length := by
    rw [length_take, Nat.min_eq_left hle]
    exact Nat.dvd_trans (by decide) (Nat.dvd_mul_left GROUP _)
  have htail : visible (B64Encoder.new.encodeAll pieces).2.finish.1 =
      encodeGroup (pieces.flatten.drop (pieces.flatten.length / GROUP * GROUP)) := by
    rw [← hwrote.pending_eq]
    unfold B64Encoder.finish
    split_ifs with hnil
    · rw [hnil]
      rfl
    · exact visible_line _
  unfold B64Encoder.wire
  rw [visible_append, htail, hwrote.wire_eq, visible_emit hle, ← encodeGroup_append htriples,
    take_append_drop]

lemma visible_filter_cr (w : Bytes) : visible (w.filter (· ≠ cr)) = visible w := by
  unfold visible
  rw [filter_filter]
  congr 1
  funext b
  by_cases hb : b = cr <;> simp [hb]

lemma visible_underscore (w after : Bytes) :
    visible (w ++ underscore :: after) = visible w ++ underscore :: visible after := by
  rw [visible_append]
  rfl

/-- **The wire round trip**: a payload that is encoded in pieces, with carriage returns inserted
anywhere and cut into any chunks, is decoded to itself. -/
theorem wire_round_trip (pieces chunks : List Bytes) (text after : Bytes)
    (htext : text.filter (· ≠ cr) = B64Encoder.wire pieces)
    (hchunks : chunks.flatten = text ++ underscore :: after) :
    ∃ d, (new pieces.flatten.length).feedAll chunks = .ok (pieces.flatten, d) ∧
      d.finish = .ok () := by
  have hvisible : visible text = encodeGroup pieces.flatten := by
    rw [← visible_filter_cr, htext, visible_wire]
  obtain ⟨k, -, hdecodes, -, hall⟩ := decodes_beginning
    (prefix_refl (encodeGroup pieces.flatten)) (visible after)
    (Nat.zero_le pieces.flatten.length)
  rw [hall rfl, take_length] at hdecodes
  obtain ⟨d, hrun, hexpected, hdecoded⟩ := hdecodes.fits (by dsimp only; omega)
  refine ⟨d, ?_, ?_⟩
  · rw [feedAll_eq_feed, hchunks, ← feed_visible, visible_underscore, hvisible]
    exact hrun
  · rw [finish]
    rw [hexpected, hdecoded]
    simp

theorem wire_round_trip_crlf :
    ∃ d, (new 58).feedAll [replicate 76 0x41, ascii "\r\nAQ", ascii "==\r\n_"] =
      .ok (replicate 57 0 ++ [1], d) ∧ d.finish = .ok () := by
  have h := wire_round_trip [replicate 57 0, [1]]
    [replicate 76 0x41, ascii "\r\nAQ", ascii "==\r\n_"]
    (replicate 76 0x41 ++ ascii "\r\nAQ==\r\n") [] (by decide +kernel) (by decide +kernel)
  simpa using h

/-- **A payload that breaks off is a beginning of the payload**: what is accepted is as long as
expected, and either whole or cut at a triple. -/
theorem truncated_wire (pieces chunks : List Bytes) (w after : Bytes)
    (hw : w <+: B64Encoder.wire pieces) (hchunks : chunks.flatten = w ++ underscore :: after)
    {expected : ℕ} {out : Bytes} {d : B64Decoder}
    (hfeed : (new expected).feedAll chunks = .ok (out, d)) (hfinish : d.finish = .ok ()) :
    out = pieces.flatten.take expected ∧ (expected = pieces.flatten.length ∨
      expected < pieces.flatten.length ∧ 3 ∣ expected) := by
  have hvisible : visible w <+: encodeGroup pieces.flatten := by
    rw [← visible_wire]
    exact hw.filter _
  obtain ⟨k, hk, hdecodes, hwhole, -⟩ := decodes_beginning hvisible (visible after)
    (Nat.zero_le expected)
  have hlen : (pieces.flatten.take k).length = k := by
    rw [length_take, Nat.min_eq_left hk]
  rw [feedAll_eq_feed, hchunks, ← feed_visible, visible_underscore] at hfeed
  by_cases hfits : 0 + (pieces.flatten.take k).length ≤ expected
  · obtain ⟨d', hrun, hexpected, hdecoded⟩ := hdecodes.fits hfits
    have heq := hfeed.symm.trans hrun
    obtain ⟨rfl, rfl⟩ := heq
    -- the count is right, so this is what was expected
    have hcount : k = expected := by
      rw [finish] at hfinish
      split_ifs at hfinish with hne
      dsimp only at hexpected hdecoded
      omega
    subst hcount
    exact ⟨rfl, by omega⟩
  · obtain ⟨e, hrun⟩ := hdecodes.exceeds (Nat.lt_of_not_le hfits)
    have heq := hfeed.symm.trans hrun
    cases heq

/-- Six bytes, and the half of their encoding. -/
def sixBytes : List Bytes := [[1, 2, 3, 4, 5, 6]]

theorem truncated_wire_half : ([1, 2, 3] : Bytes) = sixBytes.flatten.take 3 ∧
    (3 = sixBytes.flatten.length ∨ 3 < sixBytes.flatten.length ∧ 3 ∣ 3) :=
  truncated_wire sixBytes [ascii "AQID_"] (ascii "AQID") [] (by decide) (by decide)
    (rfl : (new 3).feedAll [ascii "AQID_"] = _) rfl

/-- The half is accepted by a decoder that expects three bytes. -/
theorem half_payload_accepted : ascii "AQID" <+: B64Encoder.wire sixBytes ∧
    (new 3).feedAll [ascii "AQID_"] = .ok ([1, 2, 3], ⟨3, 3, .empty, true⟩) ∧
    (⟨3, 3, .empty, true⟩ : B64Decoder).finish = .ok () ∧ 3 ≠ sixBytes.flatten.length :=
  ⟨by decide, rfl, rfl, by decide⟩

end B64Decoder

end CrossHostOps.B64
