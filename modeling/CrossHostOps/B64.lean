import CrossHostOps.Text

/-!
The base64 codec of `daemon/session/b64.rs`, which carries the payloads of a shell copy: lines
of 76 characters, each ended by a newline.
-/

namespace CrossHostOps.B64

open Text List

/-- The wire length of a fresh stream for `decoded` source bytes. -/
def wireLenFor (decoded : ℕ) : ℕ :=
  let chars := (decoded + 2) / 3 * 4
  let lines := (chars + 75) / 76
  chars + lines

/-- The source bytes of one line. -/
def GROUP : ℕ := 57

def newline : UInt8 := 10
def pad : UInt8 := 61

def symbol (v : ℕ) : UInt8 :=
  UInt8.ofNat <|
    if v < 26 then 65 + v
    else if v < 52 then 97 + (v - 26)
    else if v < 62 then 48 + (v - 52)
    else if v = 62 then 43
    else 47

/-- `encode_group`: standard base64, padded. -/
def encodeGroup : Bytes → Bytes
  | [] => []
  | [a] => [symbol (a.toNat / 4), symbol (a.toNat % 4 * 16), pad, pad]
  | [a, b] =>
    [symbol (a.toNat / 4), symbol (a.toNat % 4 * 16 + b.toNat / 16), symbol (b.toNat % 16 * 4), pad]
  | a :: b :: c :: rest =>
    symbol (a.toNat / 4) :: symbol (a.toNat % 4 * 16 + b.toNat / 16) ::
      symbol (b.toNat % 16 * 4 + c.toNat / 64) :: symbol (c.toNat % 64) :: encodeGroup rest

lemma length_encodeGroup (g : Bytes) : (encodeGroup g).length = (g.length + 2) / 3 * 4 := by
  induction g using encodeGroup.induct with
  | case1 => rfl
  | case2 | case3 => simp [encodeGroup]
  | case4 a b c rest ih =>
    simp only [encodeGroup, length_cons]
    omega

lemma encodeGroup_append {g : Bytes} (hg : 3 ∣ g.length) (h : Bytes) :
    encodeGroup (g ++ h) = encodeGroup g ++ encodeGroup h := by
  induction g using encodeGroup.induct with
  | case1 => rfl
  | case2 a => simp at hg
  | case3 a b =>
    rw [length_cons, length_singleton] at hg
    omega
  | case4 a b c rest ih =>
    have hrest : 3 ∣ rest.length := by
      simp only [length_cons] at hg
      omega
    simp [encodeGroup, ih hrest]

/-- Bytes wait in `pending` until a line is full. -/
structure B64Encoder where
  pending : Bytes
  encodedTotal : ℕ
  pending_lt : pending.length < GROUP

namespace B64Encoder

def new : B64Encoder := ⟨[], 0, by decide⟩

/-- The lines of the first `n` groups. -/
def emit : ℕ → Bytes → Bytes
  | 0, _ => []
  | n + 1, pending => encodeGroup (pending.take GROUP) ++ [newline] ++ emit n (pending.drop GROUP)

def encode (e : B64Encoder) (data : Bytes) : Bytes × B64Encoder :=
  let pending := e.pending ++ data
  let groups := pending.length / GROUP
  (emit groups pending,
    { pending := pending.drop (groups * GROUP)
      encodedTotal := e.encodedTotal + groups * 77
      pending_lt := by simp only [List.length_drop, groups, GROUP]; omega })

/-- The last line; a payload of no bytes has none. -/
def finish (e : B64Encoder) : Bytes × B64Encoder :=
  if e.pending = [] then ([], e)
  else
    let out := encodeGroup e.pending ++ [newline]
    (out, ⟨[], e.encodedTotal + out.length, by decide⟩)

def encodeAll (e : B64Encoder) : List Bytes → Bytes × B64Encoder
  | [] => ([], e)
  | data :: pieces =>
    let (out, e) := e.encode data
    let (rest, e) := e.encodeAll pieces
    (out ++ rest, e)

structure Taken (e : B64Encoder) (n : ℕ) : Prop where
  length_pending : e.pending.length = n % GROUP
  encodedTotal_eq : e.encodedTotal = n / GROUP * 77

lemma taken_new : Taken new 0 := ⟨rfl, rfl⟩

variable {e : B64Encoder} {n : ℕ} {s w : Bytes}

lemma Taken.encode (h : Taken e n) (data : Bytes) : Taken (e.encode data).2 (n + data.length) := by
  obtain ⟨hp, ht⟩ := h
  constructor
  · simp only [B64Encoder.encode, length_drop, length_append, hp, GROUP]
    omega
  · simp only [B64Encoder.encode, length_append, hp, ht, GROUP]
    omega

/-- Whatever the pieces were, `finish` brings the count to the wire length. -/
lemma Taken.finish (h : Taken e n) : e.finish.2.encodedTotal = wireLenFor n := by
  obtain ⟨hp, ht⟩ := h
  unfold B64Encoder.finish wireLenFor
  by_cases hnil : e.pending = []
  · have hmod : n % GROUP = 0 := by rw [← hp, hnil]; rfl
    simp only [hnil, if_true]
    unfold GROUP at *
    omega
  · have hpos : 0 < n % GROUP := by rw [← hp]; exact length_pos_iff.2 hnil
    simp only [hnil, if_false, length_append, length_encodeGroup]
    unfold GROUP at *
    simp only [length_cons, length_nil]
    omega

lemma Taken.encodeAll (h : Taken e n) (pieces : List Bytes) :
    Taken (e.encodeAll pieces).2 (n + pieces.flatten.length) := by
  induction pieces generalizing e n with
  | nil => exact h
  | cons data pieces ih =>
    rw [flatten_cons, length_append, ← Nat.add_assoc]
    exact ih (h.encode data)

/-! ### The lines on the wire -/

lemma emit_add (m n : ℕ) (s : Bytes) :
    emit (m + n) s = emit m s ++ emit n (s.drop (m * GROUP)) := by
  induction m generalizing s with
  | zero => simp [emit]
  | succ m ih =>
    rw [Nat.add_right_comm, emit, emit, ih, drop_drop, append_assoc, append_assoc, append_assoc]
    congr 5
    unfold GROUP
    omega

lemma group_le (h : (n + 1) * GROUP ≤ s.length) :
    GROUP ≤ s.length ∧ n * GROUP ≤ (s.drop GROUP).length := by
  rw [Nat.succ_mul] at h
  rw [length_drop]
  omega

/-- Only whole groups are emitted. -/
lemma emit_append (h : n * GROUP ≤ s.length) (t : Bytes) : emit n (s ++ t) = emit n s := by
  induction n generalizing s with
  | zero => rfl
  | succ n ih =>
    obtain ⟨hle, hrest⟩ := group_le h
    rw [emit, emit, take_append_of_le_length hle, drop_append_of_le_length hle, ih hrest]

lemma length_emit (h : n * GROUP ≤ s.length) : (emit n s).length = n * 77 := by
  induction n generalizing s with
  | zero => rw [emit, length_nil]
  | succ n ih =>
    obtain ⟨hle, hrest⟩ := group_le h
    have hline : (encodeGroup (s.take GROUP)).length = 76 := by
      rw [length_encodeGroup, length_take, Nat.min_eq_left hle]
      rfl
    rw [emit, length_append, length_append, ih hrest, length_singleton]
    omega

/-- The encoder has taken `s` and written `w`: the lines of its whole groups. -/
structure Wrote (e : B64Encoder) (s w : Bytes) : Prop where
  pending_eq : e.pending = s.drop (s.length / GROUP * GROUP)
  wire_eq : w = emit (s.length / GROUP) s

lemma wrote_new : Wrote new [] [] := ⟨rfl, rfl⟩

lemma Wrote.encode (h : Wrote e s w) (data : Bytes) :
    Wrote (e.encode data).2 (s ++ data) (w ++ (e.encode data).1) := by
  have hle : s.length / GROUP * GROUP ≤ s.length := Nat.div_mul_le_self _ _
  have hpending : e.pending ++ data = (s ++ data).drop (s.length / GROUP * GROUP) := by
    rw [drop_append_of_le_length hle, h.pending_eq]
  have hgroups : (s ++ data).length / GROUP =
      s.length / GROUP + (e.pending ++ data).length / GROUP := by
    rw [hpending, length_drop, length_append]
    unfold GROUP at *
    omega
  constructor
  · simp only [B64Encoder.encode]
    rw [hgroups, Nat.add_mul, ← drop_drop, ← hpending]
  · rw [hgroups, emit_add, ← hpending, emit_append hle, h.wire_eq]
    rfl

lemma Wrote.encodeAll (h : Wrote e s w) (pieces : List Bytes) :
    Wrote (e.encodeAll pieces).2 (s ++ pieces.flatten) (w ++ (e.encodeAll pieces).1) := by
  induction pieces generalizing e s w with
  | nil => simpa [B64Encoder.encodeAll] using h
  | cons data pieces ih =>
    have hrest := ih (h.encode data)
    rw [append_assoc, append_assoc] at hrest
    exact hrest

/-- All that is written for a payload that comes in pieces. -/
def wire (pieces : List Bytes) : Bytes :=
  let (out, e) := new.encodeAll pieces
  out ++ e.finish.1

lemma length_wire (pieces : List Bytes) :
    (wire pieces).length = (new.encodeAll pieces).2.finish.2.encodedTotal := by
  have htaken := taken_new.encodeAll pieces
  have hwrote := wrote_new.encodeAll pieces
  rw [Nat.zero_add] at htaken
  rw [nil_append, nil_append] at hwrote
  have hout : (new.encodeAll pieces).1.length = (new.encodeAll pieces).2.encodedTotal := by
    rw [hwrote.wire_eq, length_emit (Nat.div_mul_le_self _ _), htaken.encodedTotal_eq]
  unfold wire B64Encoder.finish
  rw [length_append, hout]
  split_ifs <;> simp

lemma wireLenFor_lt (h : n < 2 ^ 62) : wireLenFor n < 2 ^ 64 := by
  unfold wireLenFor
  dsimp only
  omega

lemma Taken.encodedTotal_le {m : ℕ} (h : Taken e m) (data : Bytes) {g : ℕ}
    (hg : g ≤ (e.pending ++ data).length / GROUP) (hn : m + data.length ≤ n) :
    e.encodedTotal + g * 77 ≤ wireLenFor n := by
  obtain ⟨hp, ht⟩ := h
  rw [length_append] at hg
  unfold wireLenFor
  unfold GROUP at *
  dsimp only
  omega

/-- **The byte budget of the receiver is exact**: however the payload is cut, the bytes on the
wire, the count of the encoder and the precomputed length agree, and no `u64` of the computation
overflows. -/
theorem wire_budget_exact (pieces : List Bytes) (hlen : pieces.flatten.length < 2 ^ 62) :
    (wire pieces).length = wireLenFor pieces.flatten.length ∧
    (new.encodeAll pieces).2.finish.2.encodedTotal = wireLenFor pieces.flatten.length ∧
    (pieces.flatten.length + 2) / 3 * 4 < 2 ^ 64 ∧ wireLenFor pieces.flatten.length < 2 ^ 64 ∧
    ∀ before data behind, pieces = before ++ data :: behind →
      ∀ g ≤ ((new.encodeAll before).2.pending ++ data).length / GROUP,
        (new.encodeAll before).2.encodedTotal + g * 77 < 2 ^ 64 := by
  have htotal : (new.encodeAll pieces).2.finish.2.encodedTotal =
      wireLenFor pieces.flatten.length := by
    have htaken := taken_new.encodeAll pieces
    rw [Nat.zero_add] at htaken
    exact htaken.finish
  refine ⟨(length_wire pieces).trans htotal, htotal, by omega, wireLenFor_lt hlen, ?_⟩
  rintro before data behind rfl g hg
  refine lt_of_le_of_lt ?_ (wireLenFor_lt hlen)
  refine (taken_new.encodeAll before).encodedTotal_le data hg ?_
  simp only [flatten_append, flatten_cons, length_append]
  omega

theorem wire_budget_exact_pieces :
    (wire [replicate 40 1, replicate 40 2]).length = wireLenFor 80 :=
  (wire_budget_exact [replicate 40 1, replicate 40 2] (by decide)).1

end B64Encoder

end CrossHostOps.B64
