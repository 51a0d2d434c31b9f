import CrossHostOps.Search
import CrossHostOps.Text

/-!
`SentinelScanner` of `daemon/jumpserver_engine.rs`: it forwards what a command prints, up to the
line `marker:code` that ends it.

The output arrives in chunks. Of what may still grow into the sentinel nothing is forwarded.
-/

namespace CrossHostOps.Sentinel

open Text Search List

def lf : UInt8 := 10
def cr : UInt8 := 13
def colon : UInt8 := 58

def isDigit (b : UInt8) : Bool := 48 ≤ b && b ≤ 57

/-- The decimal value, or 0 when it does not fit an `i32`. -/
def codeOf (digits : Bytes) : ℤ :=
  let value : ℕ := digits.foldl (fun n d => 10 * n + (d.toNat - 48)) 0
  if value < 2 ^ 31 then value else 0

/-- What follows a marker. -/
inductive Lookahead
  | confirmed (code : ℤ) (consumed : ℕ)
  | incomplete
  | mismatch

def lookaheadSentinel (after : Bytes) : Lookahead :=
  match after with
  | [] => .incomplete
  | b :: rest =>
    if b ≠ colon then .mismatch
    else
      let digits := rest.takeWhile isDigit
      match digits, rest.dropWhile isDigit with
      | [], [] => .incomplete
      | [], _ :: _ => .mismatch
      -- digits, and no terminator yet
      | _ :: _, [] => .incomplete
      | _ :: _, x :: behind =>
        if x = lf then .confirmed (codeOf digits) (1 + digits.length + 1)
        else if x = cr then
          match behind with
          | [] => .incomplete
          | y :: _ =>
            if y = lf then .confirmed (codeOf digits) (1 + digits.length + 2) else .mismatch
        else .mismatch

inductive SentinelFind
  | confirmed (pos : ℕ) (code : ℤ) (stop : ℕ)
  | incomplete (pos : ℕ)
  | none

/-- The same find, seen from `n` bytes further to the left. -/
def SentinelFind.shift (n : ℕ) : SentinelFind → SentinelFind
  | .confirmed pos code stop => .confirmed (n + pos) code (n + stop)
  | .incomplete pos => .incomplete (n + pos)
  | .none => .none

/-- The first marker that is not a false one; behind a false one the search goes on. -/
def findSentinel (marker buf : Bytes) : SentinelFind :=
  match _h : findSubslice marker buf with
  | none => .none
  | some pos =>
    match lookaheadSentinel (buf.drop (pos + marker.length)) with
    | .confirmed code consumed => .confirmed pos code (pos + marker.length + consumed)
    | .incomplete => .incomplete pos
    | .mismatch =>
      (findSentinel marker (buf.drop (pos + marker.length))).shift (pos + marker.length)
termination_by buf.length
decreasing_by
  obtain ⟨hne, hocc, -⟩ := findSubslice_some _h
  have hle := hocc.add_length_le hne
  have hpos := List.length_pos_iff.2 hne
  rw [List.length_drop]
  omega

structure SentinelScanner where
  marker : Bytes
  hold : Bytes
  leftover : Bytes
  done : Bool
  exitCode : ℤ

namespace SentinelScanner

def new (marker : Bytes) : SentinelScanner := ⟨marker, [], [], false, 0⟩

/-- What may be forwarded now; whether the sentinel has been found is in `done`. -/
def feed (sc : SentinelScanner) (chunk : Bytes) : Bytes × SentinelScanner :=
  if sc.done then ([], sc)
  else
    let hold := sc.hold ++ chunk
    match findSentinel sc.marker hold with
    | .confirmed pos code stop =>
      (hold.take pos,
        { sc with leftover := hold.drop stop, hold := [], exitCode := code, done := true })
    | .incomplete pos => (hold.take pos, { sc with hold := hold.drop pos })
    | .none =>
      let safe := hold.length - partialSuffixMatch hold sc.marker
      (hold.take safe, { sc with hold := hold.drop safe })

/-- All that is forwarded while the chunks are fed. -/
def feedAll (sc : SentinelScanner) : List Bytes → Bytes × SentinelScanner
  | [] => ([], sc)
  | chunk :: chunks =>
    let (forward, sc) := sc.feed chunk
    let (rest, sc) := sc.feedAll chunks
    (forward ++ rest, sc)

end SentinelScanner

/-! ### What a sentinel is -/

/-- Behind the marker: a colon, digits, and the end of the line. -/
def SentinelTail (code : ℤ) (t : Bytes) : Prop :=
  ∃ digits eol, digits ≠ [] ∧ (∀ d ∈ digits, isDigit d = true) ∧ (eol = [lf] ∨ eol = [cr, lf]) ∧
    t = colon :: (digits ++ eol) ∧ code = codeOf digits

/-- A sentinel stands at `p` and ends at `stop`. -/
def SentinelAt (marker s : Bytes) (p : ℕ) (code : ℤ) (stop : ℕ) : Prop :=
  ∃ t, SentinelTail code t ∧ marker ++ t <+: s.drop p ∧ stop = p + marker.length + t.length

def FirstSentinel (marker s : Bytes) (p : ℕ) (code : ℤ) (stop : ℕ) : Prop :=
  SentinelAt marker s p code stop ∧ ∀ q code' stop', SentinelAt marker s q code' stop' → p ≤ q

/-- What may become a sentinel. -/
def Opens (marker t : Bytes) : Prop := ∃ code tail, SentinelTail code tail ∧ t <+: marker ++ tail

/-- The end of `s` may become a sentinel. -/
def EndsOpen (marker s : Bytes) : Prop := ∃ t, t ≠ [] ∧ t <:+ s ∧ Opens marker t

section Lookahead

variable {code : ℤ} {t a b : Bytes}

lemma takeWhile_digits {digits : Bytes} (hdigits : ∀ d ∈ digits, isDigit d = true) (rest : Bytes)
    (hrest : ∀ x ∈ rest.head?, isDigit x = false) :
    (digits ++ rest).takeWhile isDigit = digits ∧ (digits ++ rest).dropWhile isDigit = rest := by
  have hnone : rest.takeWhile isDigit = [] ∧ rest.dropWhile isDigit = rest := by
    cases rest with
    | nil => exact ⟨rfl, rfl⟩
    | cons x rest =>
      have hx : isDigit x = false := hrest x rfl
      simp [hx]
  rw [takeWhile_append_of_pos hdigits, dropWhile_append_of_pos hdigits, hnone.1, hnone.2]
  exact ⟨append_nil _, rfl⟩

/-- A whole tail is recognised, whatever comes behind it. -/
lemma lookahead_of_tail (ht : SentinelTail code t) (h : t <+: a) :
    lookaheadSentinel a = .confirmed code t.length := by
  obtain ⟨behind, rfl⟩ := h
  obtain ⟨digits, eol, hne, hdigits, heol, rfl, rfl⟩ := ht
  obtain ⟨d, ds, rfl⟩ := exists_cons_of_ne_nil hne
  have hsplit := takeWhile_digits hdigits (eol ++ behind) (by
    rcases heol with rfl | rfl <;> simp [isDigit, lf, cr])
  rw [cons_append, append_assoc]
  simp only [lookaheadSentinel, hsplit.1, hsplit.2]
  rcases heol with rfl | rfl
  · simp [Nat.add_comm]
  · have hcr : cr ≠ lf := by decide
    simp [hcr, Nat.add_left_comm]

/-- Digits and the end of a line make a tail. -/
lemma tail_of_digits {rest eol behind : Bytes} (hne : rest.takeWhile isDigit ≠ [])
    (heol : eol = [lf] ∨ eol = [cr, lf]) (hdrop : rest.dropWhile isDigit = eol ++ behind) :
    SentinelTail (codeOf (rest.takeWhile isDigit)) (colon :: (rest.takeWhile isDigit ++ eol)) ∧
      colon :: (rest.takeWhile isDigit ++ eol) <+: colon :: rest := by
  refine ⟨⟨_, eol, hne, fun _ hd => mem_takeWhile_imp hd, heol, rfl, rfl⟩, behind, ?_⟩
  rw [cons_append, append_assoc, ← hdrop, takeWhile_append_dropWhile]

lemma tail_of_confirmed {n : ℕ} (h : lookaheadSentinel a = .confirmed code n) :
    ∃ t, SentinelTail code t ∧ t <+: a ∧ n = t.length := by
  revert h
  fun_cases lookaheadSentinel a <;> intro h <;> cases h
  · next b rest hcolon digits d ds behind hdigits hdrop =>
    obtain rfl : b = colon := not_not.1 hcolon
    obtain ⟨htail, hpre⟩ := tail_of_digits (hdigits.trans_ne (cons_ne_nil d ds)) (.inl rfl) hdrop
    exact ⟨_, htail, hpre, by simp [digits, Nat.add_comm]⟩
  · next b rest hcolon digits d ds hdigits behind _ hdrop =>
    obtain rfl : b = colon := not_not.1 hcolon
    obtain ⟨htail, hpre⟩ := tail_of_digits (hdigits.trans_ne (cons_ne_nil d ds)) (.inr rfl) hdrop
    exact ⟨_, htail, hpre, by simp [digits, Nat.add_comm, Nat.add_left_comm]⟩

/-- A tail that breaks off may still be completed. -/
lemma lookahead_of_cut (ht : SentinelTail code t) (h : a <+: t) (hne : a ≠ t) :
    lookaheadSentinel a = .incomplete := by
  obtain ⟨digits, eol, hnil, hdigits, heol, rfl, -⟩ := ht
  cases a with
  | nil => rfl
  | cons b a =>
    obtain ⟨rfl, hpre⟩ := cons_prefix_cons.1 h
    rcases prefix_or_prefix_of_prefix hpre (prefix_append digits eol) with h' | ⟨eol', rfl⟩
    · -- inside the digits
      have hall : ∀ d ∈ a, isDigit d = true := fun d hd => hdigits d (h'.subset hd)
      have hsplit := takeWhile_digits hall [] (by simp)
      rw [append_nil] at hsplit
      simp only [lookaheadSentinel, hsplit.1, hsplit.2]
      cases a <;> rfl
    · -- before the line feed
      have heol' : eol' = [] ∨ eol' = [cr] := by
        rcases heol with rfl | rfl
        · rcases eol' with _ | ⟨x, rest⟩
          · exact .inl rfl
          · exact absurd (by simpa using hpre) hne
        · rcases eol' with _ | ⟨x, _ | ⟨y, rest⟩⟩
          · exact .inl rfl
          · exact .inr (by simpa using hpre)
          · exact absurd (by simpa using hpre) hne
      have hsplit := takeWhile_digits hdigits eol' (by
        rcases heol' with rfl | rfl <;> simp [isDigit, cr])
      simp only [lookaheadSentinel, hsplit.1, hsplit.2]
      have hcr : cr ≠ lf := by decide
      rcases heol' with rfl | rfl
      · cases digits <;> rfl
      · cases digits with
        | nil => exact absurd rfl hnil
        | cons d ds => simp [hcr]

/-- A mismatch is final. -/
lemma not_tail_of_mismatch (h : lookaheadSentinel a = .mismatch) (ht : SentinelTail code t) :
    ¬ t <+: a ++ b := by
  intro hpre
  rcases prefix_or_prefix_of_prefix hpre (prefix_append a b) with hwhole | hcut
  · rw [lookahead_of_tail ht hwhole] at h
    cases h
  · by_cases heq : a = t
    · rw [heq, lookahead_of_tail ht prefix_rfl] at h
      cases h
    · rw [lookahead_of_cut ht hcut heq] at h
      cases h

lemma lf_mem_of_tail (ht : SentinelTail code t) : lf ∈ t := by
  obtain ⟨digits, eol, -, -, heol, rfl, -⟩ := ht
  rcases heol with rfl | rfl <;> simp

lemma lookahead_ne_mismatch (ht : SentinelTail code t) (h : a <+: t) :
    lookaheadSentinel a ≠ .mismatch := by
  obtain ⟨b, rfl⟩ := h
  exact fun hmis => not_tail_of_mismatch hmis ht (prefix_refl _)

lemma sentinelTail_of_digits {digits : Bytes} (hne : digits ≠ [])
    (hdigits : ∀ d ∈ digits, isDigit d = true) :
    SentinelTail (codeOf digits) (colon :: (digits ++ [cr, lf])) :=
  ⟨digits, [cr, lf], hne, hdigits, .inr rfl, rfl, rfl⟩

lemma sentinelTail_zero : SentinelTail (codeOf [48]) (colon :: ([48] ++ [cr, lf])) := by
  refine sentinelTail_of_digits (cons_ne_nil 48 []) fun d hd => ?_
  rw [mem_singleton.1 hd]
  rfl

/-- An incomplete tail is the beginning of a whole one. -/
lemma tail_of_incomplete (h : lookaheadSentinel a = .incomplete) :
    ∃ code t, SentinelTail code t ∧ a <+: t := by
  have hopen : ∀ {rest : Bytes}, rest.takeWhile isDigit ≠ [] → rest.dropWhile isDigit <+: [cr, lf] →
      ∃ code t, SentinelTail code t ∧ colon :: rest <+: t := by
    intro rest hne hpre
    refine ⟨_, _, sentinelTail_of_digits hne fun _ hd => mem_takeWhile_imp hd, ?_⟩
    have hrest := (prefix_append_right_inj (rest.takeWhile isDigit)).2 hpre
    rw [takeWhile_append_dropWhile] at hrest
    exact cons_prefix_cons.2 ⟨rfl, hrest⟩
  revert h
  fun_cases lookaheadSentinel a <;> intro h <;> cases h
  · exact ⟨_, _, sentinelTail_zero, nil_prefix⟩
  · next b rest hcolon digits hdrop hdigits =>
    have hrest : rest = [] := by
      rw [← takeWhile_append_dropWhile (p := isDigit) (l := rest), hdrop, append_nil]
      exact hdigits
    rw [not_not.1 hcolon, hrest]
    exact ⟨_, _, sentinelTail_zero, by simp⟩
  · next b rest hcolon digits d ds hdrop hdigits =>
    rw [not_not.1 hcolon]
    exact hopen (hdigits.trans_ne (cons_ne_nil d ds)) (hdrop ▸ nil_prefix)
  · next b rest hcolon digits d ds hdigits _ hdrop =>
    rw [not_not.1 hcolon]
    exact hopen (hdigits.trans_ne (cons_ne_nil d ds)) (hdrop ▸ by simp)

/-- Before it is complete, a tail has no line feed. -/
lemma lf_notMem_of_incomplete (h : lookaheadSentinel a = .incomplete) : lf ∉ a := by
  obtain ⟨code, t, ht, hpre⟩ := tail_of_incomplete h
  have hne : a ≠ t := by
    rintro rfl
    rw [lookahead_of_tail ht prefix_rfl] at h
    cases h
  obtain ⟨digits, eol, -, hdigits, heol, rfl, -⟩ := ht
  have hlf : lf ∉ digits := fun hmem => absurd (hdigits lf hmem) (by decide)
  have hother : lf ≠ colon ∧ lf ≠ cr := by decide
  obtain ⟨body, hbody, hend⟩ : ∃ body, colon :: (digits ++ eol) = body ++ [lf] ∧ lf ∉ body := by
    obtain rfl | rfl := heol
    · exact ⟨colon :: digits, rfl, by simp [hlf, hother]⟩
    · exact ⟨colon :: (digits ++ [cr]), by simp, by simp [hlf, hother]⟩
  rw [hbody] at hpre hne
  obtain heq | hcut := prefix_concat_iff.1 hpre
  · exact absurd heq hne
  · exact fun hmem => hend (hcut.subset hmem)

end Lookahead

/-! ### The search -/

section Search

variable {marker s b : Bytes} {p q stop : ℕ} {code : ℤ}

lemma SentinelAt.occursAt (h : SentinelAt marker s p code stop) : OccursAt marker s p := by
  obtain ⟨t, -, hpre, -⟩ := h
  exact (prefix_append marker t).trans hpre

variable {n stop' pos : ℕ} {code' : ℤ}

lemma sentinelAt_drop (h : SentinelAt marker s (n + p) code stop) :
    SentinelAt marker (s.drop n) p code (stop - n) := by
  obtain ⟨t, ht, hpre, rfl⟩ := h
  refine ⟨t, ht, ?_, by omega⟩
  rwa [drop_drop]

lemma SentinelAt.of_drop (h : SentinelAt marker (s.drop n) p code stop) :
    SentinelAt marker s (n + p) code (n + stop) := by
  obtain ⟨t, ht, hpre, rfl⟩ := h
  refine ⟨t, ht, ?_, by omega⟩
  rwa [drop_drop] at hpre

lemma SentinelAt.append (h : SentinelAt marker s p code stop) (b : Bytes) :
    SentinelAt marker (s ++ b) p code stop := by
  obtain ⟨t, ht, hpre, hstop⟩ := h
  exact ⟨t, ht, OccursAt.append hpre b, hstop⟩

lemma SentinelAt.of_append (h : SentinelAt marker (s ++ b) p code stop) (hle : stop ≤ s.length) :
    SentinelAt marker s p code stop := by
  obtain ⟨t, ht, hpre, rfl⟩ := h
  refine ⟨t, ht, OccursAt.of_append hpre ?_, rfl⟩
  rw [length_append]
  omega

lemma SentinelAt.stop_le (h : SentinelAt marker s p code stop) : stop ≤ s.length := by
  obtain ⟨t, ht, hpre, rfl⟩ := h
  have hmem := length_pos_of_mem (lf_mem_of_tail ht)
  have hlen := hpre.length_le
  rw [length_append, length_drop] at hlen
  omega

lemma SentinelAt.tail (h : SentinelAt marker s p code stop) :
    ∃ t, SentinelTail code t ∧ t <+: s.drop (p + marker.length) ∧
      stop = p + marker.length + t.length := by
  obtain ⟨t, ht, ⟨rest, hrest⟩, hstop⟩ := h
  refine ⟨t, ht, ⟨rest, ?_⟩, hstop⟩
  rw [← drop_drop, ← hrest, append_assoc, drop_left]

/-- Where a sentinel starts, its code and its end are given. -/
lemma SentinelAt.unique (h : SentinelAt marker s p code stop)
    (h' : SentinelAt marker s p code' stop') : code = code' ∧ stop = stop' := by
  obtain ⟨t, ht, hpre, rfl⟩ := h.tail
  obtain ⟨t', ht', hpre', rfl⟩ := h'.tail
  have heq := (lookahead_of_tail ht hpre).symm.trans (lookahead_of_tail ht' hpre')
  injection heq with hcode hlen
  exact ⟨hcode, by omega⟩

lemma FirstSentinel.unique {p' : ℕ} (h : FirstSentinel marker s p code stop)
    (h' : FirstSentinel marker s p' code' stop') :
    p = p' ∧ code = code' ∧ stop = stop' := by
  obtain rfl : p = p' := Nat.le_antisymm (h.2 _ _ _ h'.1) (h'.2 _ _ _ h.1)
  exact ⟨rfl, h.1.unique h'.1⟩

/-- What the search says about what has arrived, `s`, and about all that may follow. -/
def Says (marker s b : Bytes) : SentinelFind → Prop
  | .confirmed pos code stop => SentinelAt marker s pos code stop ∧
      ∀ q code' stop', SentinelAt marker (s ++ b) q code' stop' → pos ≤ q
  | .incomplete pos => (∀ q code' stop', ¬ SentinelAt marker s q code' stop') ∧
      ∀ q code' stop', SentinelAt marker (s ++ b) q code' stop' → pos ≤ q
  | .none => ∀ q code' stop', SentinelAt marker (s ++ b) q code' stop' →
      s.length < q + marker.length

/-- What is said about the rest of `s`, when every sentinel lies there. -/
lemma Says.shift {f : SentinelFind} (hn : n ≤ s.length)
    (hlater : ∀ q code' stop', SentinelAt marker (s ++ b) q code' stop' → n ≤ q)
    (h : Says marker (s.drop n) b f) : Says marker s b (f.shift n) := by
  have hdrop : s.drop n ++ b = (s ++ b).drop n := (drop_append_of_le_length hn).symm
  have hmove : ∀ r code' stop', SentinelAt marker (s ++ b) (n + r) code' stop' →
      SentinelAt marker (s.drop n ++ b) r code' (stop' - n) := by
    intro r code' stop' hr
    rw [hdrop]
    exact sentinelAt_drop hr
  cases f with
  | confirmed pos code stop =>
    refine ⟨h.1.of_drop, fun q code' stop' hq => ?_⟩
    obtain ⟨r, rfl⟩ := Nat.exists_eq_add_of_le (hlater q code' stop' hq)
    have := h.2 r _ _ (hmove r _ _ hq)
    omega
  | incomplete pos =>
    refine ⟨fun q code' stop' hq => ?_, fun q code' stop' hq => ?_⟩
    · obtain ⟨r, rfl⟩ := Nat.exists_eq_add_of_le (hlater q code' stop' (hq.append b))
      exact h.1 r _ _ (sentinelAt_drop hq)
    · obtain ⟨r, rfl⟩ := Nat.exists_eq_add_of_le (hlater q code' stop' hq)
      have := h.2 r _ _ (hmove r _ _ hq)
      omega
  | none =>
    intro q code' stop' hq
    obtain ⟨r, rfl⟩ := Nat.exists_eq_add_of_le (hlater q code' stop' hq)
    have := h r _ _ (hmove r _ _ hq)
    rw [length_drop] at this
    omega

/-- The next marker is the one that is found, or does not overlap it. -/
lemma next_marker (hsome : findSubslice marker s = some pos)
    (hno : NonOverlapping marker (s ++ b)) (hq : SentinelAt marker (s ++ b) q code stop) :
    q = pos ∨ pos + marker.length ≤ q := by
  obtain ⟨hne, hocc, hfirst⟩ := findSubslice_some hsome
  have hle := hocc.add_length_le hne
  obtain hlt | rfl | hlt := Nat.lt_trichotomy q pos
  · exact absurd (hq.occursAt.of_append (by omega)) (hfirst q hlt)
  · exact .inl rfl
  · exact .inr (hno pos q (hocc.append b) hq.occursAt hlt)

lemma findSentinel_said (hne : marker ≠ []) (hno : NonOverlapping marker (s ++ b)) :
    Says marker s b (findSentinel marker s) := by
  fun_induction findSentinel marker s with
  | case1 s hnone =>
    intro q code' stop' hq
    by_contra hle
    exact findSubslice_none hne hnone q (hq.occursAt.of_append (by omega))
  | case2 s pos hsome code consumed hlook =>
    obtain ⟨t, ht, hpre, rfl⟩ := tail_of_confirmed hlook
    refine ⟨⟨t, ht, ?_, rfl⟩, fun q code' stop' hq => ?_⟩
    · obtain ⟨rest, hrest⟩ := (findSubslice_some hsome).2.1
      rw [← drop_drop, ← hrest, drop_left] at hpre
      rw [← hrest]
      exact (prefix_append_right_inj marker).2 hpre
    · have := next_marker hsome hno hq
      omega
  | case3 s pos hsome hlook =>
    refine ⟨fun q code' stop' hq => ?_, fun q code' stop' hq => ?_⟩
    · -- a sentinel would bring a line feed
      refine lf_notMem_of_incomplete hlook ?_
      obtain ⟨t, ht, hpre, -⟩ := hq.tail
      have hmem := hpre.subset (lf_mem_of_tail ht)
      obtain rfl | hge := next_marker hsome hno (hq.append b)
      · exact hmem
      · obtain ⟨n, rfl⟩ := Nat.exists_eq_add_of_le hge
        rw [Nat.add_assoc, ← drop_drop] at hmem
        exact mem_of_mem_drop hmem
    · have := next_marker hsome hno hq
      omega
  | case4 s pos hsome hlook ih =>
    have hle := (findSubslice_some hsome).2.1.add_length_le hne
    have hdrop : s.drop (pos + marker.length) ++ b = (s ++ b).drop (pos + marker.length) :=
      (drop_append_of_le_length hle).symm
    refine (ih (hdrop ▸ hno.drop _)).shift hle fun q code' stop' hq => ?_
    obtain rfl | hge := next_marker hsome hno hq
    · obtain ⟨t, ht, hpre, -⟩ := hq.tail
      rw [← hdrop] at hpre
      exact absurd hpre (not_tail_of_mismatch hlook ht)
    · exact hge

/-- Without a marker, the end of `s` is held back that may become one. -/
lemma Says.held (hne : marker ≠ []) (h : Says marker s b .none) :
    Says marker s b (.incomplete (s.length - partialSuffixMatch s marker)) := by
  refine ⟨fun q code' stop' hq => ?_, fun q code' stop' hq => ?_⟩
  · have hlt := h q code' stop' (hq.append b)
    have hle := hq.occursAt.add_length_le hne
    omega
  · by_cases hr : q ≤ s.length
    · exact hq.occursAt.le_of_partialSuffixMatch hr (h q code' stop' hq)
    · omega

lemma opens_nil (marker : Bytes) : Opens marker [] :=
  ⟨_, _, sentinelTail_zero, nil_prefix⟩

lemma marker_of_incomplete (h : findSentinel marker s = .incomplete pos) :
    ∃ u, s.drop pos = marker ++ u ∧ lookaheadSentinel u = .incomplete := by
  revert h
  fun_induction findSentinel marker s generalizing pos <;> intro h <;> try cases h
  · next s hsome hlook =>
    obtain ⟨rest, hrest⟩ := (findSubslice_some hsome).2.1
    rw [← drop_drop, ← hrest, drop_left] at hlook
    exact ⟨rest, hrest.symm, hlook⟩
  · next s pos' hsome hlook ih =>
    cases hfind : findSentinel marker (s.drop (pos' + marker.length)) with
    | confirmed | none => simp [hfind, SentinelFind.shift] at h
    | incomplete pos'' =>
      rw [hfind] at h
      cases h
      have hrest := ih hfind
      rwa [drop_drop] at hrest

/-- Output without the first byte of the marker. -/
lemma not_endsOpen_of_notMem {m : UInt8} (hm : m ∉ s) : ¬ EndsOpen (m :: marker) s := by
  rintro ⟨t, hne, hsuf, code, tail, -, hpre⟩
  obtain ⟨x, t, rfl⟩ := exists_cons_of_ne_nil hne
  rw [cons_append, cons_prefix_cons] at hpre
  exact hm (hsuf.subset (hpre.1 ▸ mem_cons_self))

lemma opens_of_incomplete (h : findSentinel marker s = .incomplete pos) :
    Opens marker (s.drop pos) := by
  obtain ⟨u, hu, hlook⟩ := marker_of_incomplete h
  obtain ⟨code, t, ht, hpre⟩ := tail_of_incomplete hlook
  refine ⟨code, t, ht, ?_⟩
  rw [hu]
  exact (prefix_append_right_inj marker).2 hpre

lemma opens_partialSuffixMatch (marker s : Bytes) :
    Opens marker (s.drop (s.length - partialSuffixMatch s marker)) := by
  obtain ⟨code, tail, htail, -⟩ := opens_nil marker
  refine ⟨code, tail, htail, ?_⟩
  rw [(partialSuffixMatch_spec _ _).2]
  exact (List.take_prefix _ _).trans (prefix_append marker tail)

/-- A marker with a tail that may still be completed is not passed over. -/
lemma findSentinel_le {r : ℕ} (hno : NonOverlapping marker s) (hne : marker ≠ [])
    (hocc : OccursAt marker s r)
    (hlook : lookaheadSentinel (s.drop (r + marker.length)) ≠ .mismatch) :
    findSentinel marker s ≠ .none ∧ ∀ pos, findSentinel marker s = .incomplete pos → pos ≤ r := by
  have hearly : ∀ {s pos r}, findSubslice marker s = some pos → OccursAt marker s r → pos ≤ r := by
    intro s pos r hsome hocc
    by_contra hlt
    exact (findSubslice_some hsome).2.2 r (by omega) hocc
  fun_induction findSentinel marker s generalizing r with
  | case1 s hnone => exact absurd hocc (findSubslice_none hne hnone r)
  | case2 => exact ⟨by simp, by simp⟩
  | case3 s pos' hsome =>
    refine ⟨by simp, fun pos h => ?_⟩
    cases h
    exact hearly hsome hocc
  | case4 s pos' hsome hmis ih =>
    have hle := hearly hsome hocc
    have hne' : pos' ≠ r := by
      rintro rfl
      exact hlook hmis
    have hge : pos' + marker.length ≤ r :=
      hno pos' r (findSubslice_some hsome).2.1 hocc (by omega)
    obtain ⟨r, rfl⟩ := Nat.exists_eq_add_of_le hge
    obtain ⟨hsome', hpos'⟩ := ih (hno.drop _) (occursAt_drop.2 hocc)
      (by rwa [drop_drop, ← Nat.add_assoc])
    cases hfind : findSentinel marker (s.drop (pos' + marker.length)) with
    | none => exact absurd hfind hsome'
    | confirmed => exact ⟨by simp [SentinelFind.shift], by simp [SentinelFind.shift]⟩
    | incomplete pos =>
      refine ⟨by simp [SentinelFind.shift], fun pos'' h => ?_⟩
      cases h
      have := hpos' pos hfind
      omega

/-- What opens a sentinel and is no shorter than the marker begins with it. -/
lemma Opens.cases {t : Bytes} (h : Opens marker t) : t = marker.take t.length ∧
    t.length < marker.length ∨ ∃ u, t = marker ++ u ∧ lookaheadSentinel u ≠ .mismatch := by
  obtain ⟨code, tail, htail, hpre⟩ := h
  rcases Nat.lt_or_ge t.length marker.length with hlt | hge
  · left
    have hpre' := prefix_of_prefix_length_le hpre (prefix_append marker tail) hlt.le
    exact ⟨prefix_iff_eq_take.1 hpre', hlt⟩
  · right
    obtain ⟨u, rfl⟩ := prefix_of_prefix_length_le (prefix_append marker tail) hpre hge
    refine ⟨u, rfl, ?_⟩
    rw [prefix_append_right_inj] at hpre
    exact lookahead_ne_mismatch htail hpre

/-- The positions from which the buffer opens a sentinel are kept. -/
lemma length_le_of_opens {t : Bytes} (hno : NonOverlapping marker s) (hne : marker ≠ [])
    (ht : t <:+ s) (hopen : Opens marker t) :
    match findSentinel marker s with
    | .confirmed _ _ _ => True
    | .incomplete pos => t.length ≤ s.length - pos
    | .none => t.length ≤ partialSuffixMatch s marker := by
  have hlen := ht.length_le
  have hdrop := suffix_iff_eq_drop.1 ht
  rcases hopen.cases with ⟨htake, hshort⟩ | ⟨u, rfl, hlook⟩
  · split
    · trivial
    · next pos hfind =>
      obtain ⟨u, hu, -⟩ := marker_of_incomplete hfind
      have hmarker := congrArg length hu
      rw [length_drop, length_append] at hmarker
      omega
    · exact le_partialSuffixMatch hlen hshort (hdrop.symm.trans htake)
  · have hocc : OccursAt marker s (s.length - (marker ++ u).length) := ⟨u, hdrop⟩
    have hafter : s.drop (s.length - (marker ++ u).length + marker.length) = u := by
      rw [← drop_drop, ← hdrop, drop_left]
    obtain ⟨hnone, hle⟩ := findSentinel_le hno hne hocc (by rwa [hafter])
    split
    · trivial
    · next pos hfind =>
      have := hle pos hfind
      omega
    · next hfind => exact absurd hfind hnone

end Search

/-! ### The scanner -/

namespace SentinelScanner

variable {marker s forward chunk : Bytes} {sc : SentinelScanner}

/-- No sentinel has been found in `s`, and nothing of one has been forwarded. -/
structure Scanning (marker s forward : Bytes) (sc : SentinelScanner) : Prop where
  marker_eq : sc.marker = marker
  done : sc.done = false
  append_hold : forward ++ sc.hold = s
  absent : ∀ q code stop, NonOverlapping marker s → ¬ SentinelAt marker s q code stop
  le : ∀ b, NonOverlapping marker (s ++ b) → ∀ q code stop,
    SentinelAt marker (s ++ b) q code stop → forward.length ≤ q
  opens_hold : Opens marker sc.hold
  length_le : NonOverlapping marker s → ∀ t, t <:+ s → Opens marker t → t.length ≤ sc.hold.length

lemma scanning_new (hne : marker ≠ []) : Scanning marker [] [] (new marker) where
  marker_eq := rfl
  done := rfl
  append_hold := rfl
  absent q code stop _ h := by
    have hle := h.occursAt.add_length_le hne
    have hpos := length_pos_iff.2 hne
    rw [length_nil] at hle
    omega
  le _ _ _ _ _ _ := Nat.zero_le _
  opens_hold := opens_nil marker
  length_le _ _ ht _ := ht.length_le

/-- The sentinel has been found: `left` is what came behind it. -/
structure Finished (marker s forward left : Bytes) (code : ℤ) (sc : SentinelScanner) : Prop where
  done : sc.done = true
  exitCode : sc.exitCode = code
  leftover : sc.leftover = left
  first : ∃ p stop, s.take p = forward ∧ s.drop stop = left ∧ ∀ b, NonOverlapping marker (s ++ b) →
    FirstSentinel marker (s ++ b) p code stop

lemma feed_done (h : sc.done = true) (chunk : Bytes) : sc.feed chunk = ([], sc) := by
  rw [feed, if_pos h]

lemma feedAll_done (h : sc.done = true) (chunks : List Bytes) : sc.feedAll chunks = ([], sc) := by
  induction chunks with
  | nil => rfl
  | cons chunk chunks ih => simp [feedAll, feed_done h, ih]

lemma feedAll_append (sc : SentinelScanner) (chunks chunks' : List Bytes) :
    (sc.feedAll (chunks ++ chunks')).2 = ((sc.feedAll chunks).2.feedAll chunks').2 := by
  induction chunks generalizing sc with
  | nil => rfl
  | cons chunk chunks ih => exact ih (sc.feed chunk).2

namespace Scanning

variable (hne : marker ≠ []) (h : Scanning marker s forward sc)

include h

lemma hold_eq_nil (hend : ¬ EndsOpen marker s) : sc.hold = [] := by
  by_contra hne
  exact hend ⟨sc.hold, hne, ⟨forward, h.append_hold⟩, h.opens_hold⟩

lemma not_endsOpen (hno : NonOverlapping marker s) (hnil : sc.hold = []) : ¬ EndsOpen marker s := by
  rintro ⟨t, hne, ht, hopen⟩
  have hlen := h.length_le hno t ht hopen
  rw [hnil, length_nil, Nat.le_zero] at hlen
  exact hne (length_eq_zero_iff.1 hlen)

/-- Every sentinel to come lies in what is held back. -/
lemma move {b : Bytes} {q stop : ℕ} {code : ℤ} (hno : NonOverlapping marker (s ++ chunk ++ b))
    (hq : SentinelAt marker (s ++ chunk ++ b) q code stop) : ∃ r, q = forward.length + r ∧
      SentinelAt marker (sc.hold ++ chunk ++ b) r code (stop - forward.length) := by
  rw [append_assoc] at hno hq
  obtain ⟨r, rfl⟩ := Nat.exists_eq_add_of_le (h.le (chunk ++ b) hno q code stop hq)
  refine ⟨r, rfl, ?_⟩
  have hr := sentinelAt_drop hq
  rwa [← h.append_hold, append_assoc, drop_left, ← append_assoc] at hr

/-- All that opens a sentinel is held back. -/
lemma opens {t : Bytes}
    (hno : NonOverlapping marker (s ++ chunk)) (ht : t <:+ s ++ chunk) (ho : Opens marker t) :
    NonOverlapping marker (sc.hold ++ chunk) ∧ t <:+ sc.hold ++ chunk := by
  have hbuf : s ++ chunk = forward ++ (sc.hold ++ chunk) := by
    rw [← h.append_hold, append_assoc]
  have hno' : NonOverlapping marker (sc.hold ++ chunk) := by
    have := hno.drop forward.length
    rwa [hbuf, drop_left] at this
  refine ⟨hno', ?_⟩
  rcases suffix_or_suffix_of_suffix ht (suffix_append s chunk) with hin | ⟨x, rfl⟩
  · exact hin.trans (suffix_append _ _)
  · obtain ⟨code, tail, htail, hpre⟩ := ho
    have hx : x <:+ s := (suffix_append_inj_of_length_eq rfl).1 ht |>.1
    have hlen := h.length_le hno.of_append x hx
      ⟨code, tail, htail, (prefix_append x chunk).trans hpre⟩
    rw [hbuf] at ht
    exact suffix_of_suffix_length_le ht (suffix_append _ _) (by
      rw [length_append, length_append]
      omega)

/-- The scan goes on from a position before which no sentinel can start. -/
lemma goesOn {pos : ℕ} (hsaid : ∀ b, NonOverlapping marker (s ++ chunk ++ b) →
      Says marker (sc.hold ++ chunk) b (.incomplete pos))
    (hopens : Opens marker ((sc.hold ++ chunk).drop pos))
    (hlong : ∀ t, NonOverlapping marker (sc.hold ++ chunk) → t <:+ sc.hold ++ chunk →
      Opens marker t → t.length ≤ (sc.hold ++ chunk).length - pos) :
    Scanning marker (s ++ chunk) (forward ++ (sc.hold ++ chunk).take pos)
      { sc with hold := (sc.hold ++ chunk).drop pos } where
  marker_eq := h.marker_eq
  done := h.done
  append_hold := by
    rw [append_assoc, take_append_drop, ← append_assoc, h.append_hold]
  absent q code stop hno hq := by
    rw [← append_nil (s ++ chunk)] at hno hq
    obtain ⟨r, rfl, hr⟩ := h.move hno hq
    rw [append_nil] at hr
    exact (hsaid [] hno).1 r _ _ hr
  le b hno q code stop hq := by
    obtain ⟨r, rfl, hr⟩ := h.move hno hq
    have := (hsaid b hno).2 r _ _ hr
    rw [length_append, length_take]
    omega
  opens_hold := hopens
  length_le hno t ht ho := by
    obtain ⟨hno', ht'⟩ := h.opens hno ht ho
    rw [length_drop]
    exact hlong t hno' ht' ho

include hne

lemma said {b : Bytes} (hno : NonOverlapping marker (s ++ chunk ++ b)) :
    Says marker (sc.hold ++ chunk) b (findSentinel marker (sc.hold ++ chunk)) := by
  refine findSentinel_said hne ?_
  have hdrop := hno.drop forward.length
  rwa [← h.append_hold, append_assoc, append_assoc, drop_left, ← append_assoc] at hdrop

/-- One chunk: the scan goes on, or has found the sentinel. -/
lemma feed (chunk : Bytes) :
    Scanning marker (s ++ chunk) (forward ++ (sc.feed chunk).1) (sc.feed chunk).2 ∨
      ∃ left code, Finished marker (s ++ chunk) (forward ++ (sc.feed chunk).1) left code
        (sc.feed chunk).2 := by
  obtain rfl := h.marker_eq
  have hbuf : s ++ chunk = forward ++ (sc.hold ++ chunk) := by
    rw [← h.append_hold, append_assoc]
  have hsaid : ∀ b, _ → Says sc.marker (sc.hold ++ chunk) b _ := fun b => said hne h
  have hlong := fun t hno ht => length_le_of_opens (t := t) (s := sc.hold ++ chunk) hno hne ht
  fun_cases SentinelScanner.feed sc chunk with
  | case1 hdone => exact absurd (h.done.symm.trans hdone) Bool.false_ne_true
  | case2 _ hold pos code stop hfind =>
    refine .inr ⟨_, code, rfl, rfl, rfl, forward.length + pos, forward.length + stop, ?_, ?_,
      fun b hno => ?_⟩
    · rw [hbuf, take_length_add_append]
    · rw [hbuf, drop_length_add_append]
    have hb := hsaid b hno
    rw [hfind] at hb
    refine ⟨?_, fun q code' stop' hq => ?_⟩
    · rw [hbuf, append_assoc]
      refine SentinelAt.of_drop ?_
      rw [drop_left]
      exact hb.1.append b
    · obtain ⟨r, rfl, hr⟩ := h.move hno hq
      have := hb.2 r _ _ hr
      omega
  | case3 _ hold pos hfind =>
    rw [hfind] at hsaid hlong
    exact .inl (h.goesOn hsaid (opens_of_incomplete hfind) hlong)
  | case4 _ hold hfind =>
    rw [hfind] at hsaid hlong
    refine .inl (h.goesOn (fun b hno => (hsaid b hno).held hne) (opens_partialSuffixMatch _ _) ?_)
    intro t hno ht ho
    have hle := (partialSuffixMatch_spec hold sc.marker).1
    have hshort : t.length ≤ partialSuffixMatch hold sc.marker := hlong t hno ht ho
    change t.length ≤ hold.length - (hold.length - partialSuffixMatch hold sc.marker)
    omega

end Scanning

/-- The chunks of a stream: the scan goes on, or the sentinel was found in one of them. -/
lemma Scanning.feedAll (hne : marker ≠ []) : ∀ {s forward : Bytes} {sc : SentinelScanner},
    Scanning marker s forward sc → ∀ chunks : List Bytes,
    Scanning marker (s ++ chunks.flatten) (forward ++ (sc.feedAll chunks).1) (sc.feedAll chunks).2 ∨
      ∃ before chunk behind done left code, chunks = before ++ chunk :: behind ∧
        Scanning marker (s ++ before.flatten) done (sc.feedAll before).2 ∧
        Finished marker (s ++ before.flatten ++ chunk) (forward ++ (sc.feedAll chunks).1) left code
          (sc.feedAll chunks).2 := by
  intro s forward sc h chunks
  induction chunks generalizing s forward sc with
  | nil =>
    left
    simpa [SentinelScanner.feedAll] using h
  | cons chunk chunks ih =>
    simp only [SentinelScanner.feedAll]
    rcases h.feed hne chunk with hgo | ⟨left, code, hfin⟩
    · rcases ih hgo with hgo' | ⟨before, c, behind, done, left, code, rfl, hbefore, hfin⟩
      · left
        simpa using hgo'
      · right
        refine ⟨chunk :: before, c, behind, done, left, code, rfl, ?_, ?_⟩
        · simpa [SentinelScanner.feedAll] using hbefore
        · simpa using hfin
    · right
      refine ⟨[], chunk, chunks, forward, left, code, rfl, ?_, ?_⟩
      · simpa [SentinelScanner.feedAll] using h
      · simpa [feedAll_done hfin.done] using hfin

end SentinelScanner

open SentinelScanner

/-- A whole stream: no sentinel, or the first one is found and what comes before it has been
forwarded. -/
lemma feedAll_new {marker : Bytes} (hne : marker ≠ []) (chunks : List Bytes)
    (hno : NonOverlapping marker chunks.flatten) :
    let out := (SentinelScanner.new marker).feedAll chunks
    Scanning marker chunks.flatten out.1 out.2 ∨
    ∃ p code stop, FirstSentinel marker chunks.flatten p code stop ∧ out.2.done = true ∧
      out.1 = chunks.flatten.take p ∧ out.2.exitCode = code ∧
      ∃ before chunk behind, chunks = before ++ chunk :: behind ∧
        before.flatten.length < stop ∧ stop ≤ (before.flatten ++ chunk).length ∧
        out.2.leftover = (before.flatten ++ chunk).drop stop ∧
        ((SentinelScanner.new marker).feedAll before).2.done = false := by
  intro out
  rcases (scanning_new hne).feedAll hne chunks with hgo |
    ⟨before, chunk, behind, done, left, code, hchunks, hbefore, hfin⟩
  · exact .inl hgo
  right
  simp only [nil_append] at hbefore hfin
  obtain ⟨p, stop, htake, hdrop, hfirst⟩ := hfin.first
  have hflat : chunks.flatten = before.flatten ++ chunk ++ behind.flatten := by simp [hchunks]
  rw [hflat] at hno
  have hhere : SentinelAt marker (before.flatten ++ chunk) p code stop := by
    have hfirst' := hfirst [] (by simpa using hno.of_append)
    simpa using hfirst'.1
  refine ⟨p, code, stop, ?_, hfin.done, ?_, hfin.exitCode, before, chunk, behind, hchunks, ?_,
    hhere.stop_le, hfin.leftover.trans hdrop.symm, hbefore.done⟩
  · rw [hflat]
    exact hfirst behind.flatten hno
  · have hle := hhere.occursAt.add_length_le hne
    rw [hflat, take_append_of_le_length (by omega), htake]
  · -- otherwise the sentinel was there before
    by_contra hle
    rw [append_assoc] at hno
    exact hbefore.absent p code stop hno.of_append (hhere.of_append (by omega))

/-- The code with which a whole stream ends the scan. -/
lemma feedAll_done_iff {marker : Bytes} (hne : marker ≠ []) (chunks : List Bytes)
    (hno : NonOverlapping marker chunks.flatten) (code : ℤ) :
    let out := (SentinelScanner.new marker).feedAll chunks
    out.2.done = true ∧ out.2.exitCode = code ↔
      ∃ p stop, FirstSentinel marker chunks.flatten p code stop := by
  intro out
  rcases feedAll_new hne chunks hno with hgo | ⟨p, code', stop, hfirst, hdone, -, hcode, -⟩
  · refine iff_of_false (fun h => ?_) ?_
    · exact absurd (hgo.done.symm.trans h.1) Bool.false_ne_true
    · rintro ⟨p, stop, h⟩
      exact hgo.absent p code stop hno h.1
  · constructor
    · rintro ⟨-, rfl⟩
      exact ⟨p, stop, hcode ▸ hfirst⟩
    · rintro ⟨p', stop', h⟩
      obtain ⟨-, rfl, -⟩ := hfirst.unique h
      exact ⟨hdone, hcode⟩

/-- **The scanner finds the sentinel of the stream, however it is cut**: it is done just when
the stream contains a sentinel; it has then forwarded what comes before the first one, and keeps
what the same chunk brings behind it. Until then it has forwarded all but what it holds. -/
theorem scanner_meets_spec {marker : Bytes} (hne : marker ≠ []) (chunks : List Bytes)
    (hno : NonOverlapping marker chunks.flatten) :
    let out := (SentinelScanner.new marker).feedAll chunks
    (out.2.done = true ↔ ∃ p code stop, SentinelAt marker chunks.flatten p code stop) ∧
    (∀ p code stop, FirstSentinel marker chunks.flatten p code stop →
      out.1 = chunks.flatten.take p ∧ out.2.exitCode = code ∧
      ∃ before chunk behind, chunks = before ++ chunk :: behind ∧
        before.flatten.length < stop ∧ stop ≤ (before.flatten ++ chunk).length ∧
        out.2.leftover = (before.flatten ++ chunk).drop stop) ∧
    (out.2.done = false → out.1 ++ out.2.hold = chunks.flatten) := by
  intro out
  rcases feedAll_new hne chunks hno with hgo |
    ⟨p, code, stop, hfirst, hdone, htake, hcode, before, chunk, behind, hchunks, hlt, hle, hleft, -⟩
  · refine ⟨iff_of_false (by simp [out, hgo.done]) ?_, ?_, fun _ => hgo.append_hold⟩
    · rintro ⟨p, code, stop, h⟩
      exact hgo.absent p code stop hno h
    · intro p code stop h
      exact absurd h.1 (hgo.absent p code stop hno)
  · refine ⟨iff_of_true hdone ⟨p, code, stop, hfirst.1⟩, fun p' code' stop' h' => ?_,
      fun hnot => ?_⟩
    · obtain ⟨rfl, rfl, rfl⟩ := hfirst.unique h'
      exact ⟨htake, hcode, before, chunk, behind, hchunks, hlt, hle, hleft⟩
    · exact absurd (hnot.symm.trans hdone) Bool.false_ne_true

/-- A sentinel in three chunks; the echoed command has shown its marker before. -/
def cutSentinel : List Bytes :=
  [ascii "E:%s\nhiE", ascii ":1", ascii "7\n$ "]

theorem scanner_meets_spec_cut :
    let out := (SentinelScanner.new (ascii ['E'])).feedAll cutSentinel
    out.1 = ascii "E:%s\nhi" ∧ out.2.exitCode = 17 := by
  have hno : NonOverlapping (ascii ['E']) cutSentinel.flatten := by decide +kernel
  have hfirst : FirstSentinel (ascii ['E']) cutSentinel.flatten 7 17 12 := by
    refine ⟨⟨ascii ":17\n", ⟨ascii "17", [lf], ?_⟩, ?_⟩, fun q code stop hq => ?_⟩
    · decide +kernel
    · decide +kernel
    · by_contra hlt
      have hzero : q = 0 := by
        have hocc := hq.occursAt
        have hall : ∀ q < 7, OccursAt (ascii ['E']) cutSentinel.flatten q → q = 0 := by
          decide +kernel
        exact hall q (by omega) hocc
      -- that is the echoed one
      obtain ⟨t, ht, hpre, -⟩ := hq.tail
      have hlook := lookahead_of_tail ht hpre
      rw [hzero] at hlook
      cases hlook
  obtain ⟨hout, hcode, -⟩ := (scanner_meets_spec (by decide) cutSentinel hno).2.1 7 17 12 hfirst
  exact ⟨hout, hcode⟩

end CrossHostOps.Sentinel
