import CrossHostOps.Text

/-!
`strip_leading_shell_noise` of `daemon/jumpserver_engine.rs`: line ends and whole escape sequences
at the beginning of an output.
-/

namespace CrossHostOps.ShellNoise

open Text List

/-- The rest of a control sequence, up to its final byte. -/
def skipControl : Bytes → Option Bytes
  | [] => none
  | b :: rest => if 0x40 ≤ b ∧ b ≤ 0x7E then some rest else skipControl rest

/-- The rest of an operating system command, up to a bell or an escaped backslash. -/
def skipCommand : Bytes → Option Bytes
  | [] => none
  | b :: rest =>
    if b = 0x07 then some rest
    else if b = 0x1B ∧ rest.head? = some 0x5C then some rest.tail
    else skipCommand rest

/-- What follows an escape sequence, where one stands and is whole. -/
def skipLeadingAnsiEscape : Bytes → Option Bytes
  | a :: b :: rest =>
    if a ≠ 0x1B then none
    else if b = 0x5B then skipControl rest
    else if b = 0x5D then skipCommand rest
    else none
  | _ => none

def isLineEnd (b : UInt8) : Bool := b == 0x0D || b == 0x0A

variable {x r o : Bytes}

lemma length_skipControl (h : skipControl x = some r) : r.length < x.length := by
  induction x with
  | nil => cases h
  | cons b x ih =>
    rw [skipControl] at h
    split_ifs at h
    · cases h
      exact Nat.lt_succ_self _
    · exact (ih h).trans (Nat.lt_succ_self _)

lemma length_skipCommand (h : skipCommand x = some r) : r.length < x.length := by
  induction x with
  | nil => cases h
  | cons b x ih =>
    rw [skipCommand] at h
    split_ifs at h
    · cases h
      exact Nat.lt_succ_self _
    · cases h
      rw [length_tail, length_cons]
      omega
    · exact (ih h).trans (Nat.lt_succ_self _)

lemma length_skipLeadingAnsiEscape (h : skipLeadingAnsiEscape x = some r) :
    r.length < x.length := by
  match x, h with
  | a :: b :: rest, h =>
    rw [skipLeadingAnsiEscape] at h
    split_ifs at h
    · have := length_skipControl h
      simp only [length_cons]
      omega
    · have := length_skipCommand h
      simp only [length_cons]
      omega

def stripLeadingShellNoise (bytes : Bytes) : Bytes :=
  match _h : skipLeadingAnsiEscape (bytes.dropWhile isLineEnd) with
  | some rest => stripLeadingShellNoise rest
  | none => bytes.dropWhile isLineEnd
termination_by bytes.length
decreasing_by
  have hskip := length_skipLeadingAnsiEscape _h
  have hdrop := (List.dropWhile_suffix isLineEnd (l := bytes)).length_le
  omega

/-- How much of an output is noise. -/
def noiseLen (o : Bytes) : ℕ := o.length - (stripLeadingShellNoise o).length

/-! ### Noise in the first part of an output -/

/-- Skipping from the left looks no further than it skips. -/
structure FromLeft (skip : Bytes → Option Bytes) : Prop where
  append : ∀ {x r : Bytes} (y : Bytes), skip x = some r → skip (x ++ y) = some (r ++ y)
  beyond : ∀ {x y r : Bytes}, skip x = none → skip (x ++ y) = some r → r.length < y.length

lemma fromLeft_skipControl : FromLeft skipControl where
  append {x r} y h := by
    induction x with
    | nil => cases h
    | cons b x ih =>
      rw [skipControl] at h
      rw [cons_append, skipControl]
      split_ifs at h ⊢ with hb
      · cases h
        rfl
      · exact ih h
  beyond {x y r} hnone h := by
    induction x with
    | nil => exact length_skipControl h
    | cons b x ih =>
      rw [skipControl] at hnone
      rw [cons_append, skipControl] at h
      split_ifs at hnone h with hb
      exact ih hnone h

lemma fromLeft_skipCommand : FromLeft skipCommand where
  append {x r} y h := by
    induction x with
    | nil => cases h
    | cons b x ih =>
      rw [skipCommand] at h
      rw [cons_append, skipCommand]
      by_cases hbell : b = 0x07
      · rw [if_pos hbell] at h ⊢
        cases h
        rfl
      rw [if_neg hbell] at h
      cases x with
      | nil => simp [skipCommand] at h
      | cons c x =>
        rw [cons_append, head?_cons]
        rw [head?_cons] at h
        split_ifs at h ⊢ with hesc
        · cases h
          rfl
        · exact ih h
  beyond {x y r} hnone h := by
    induction x with
    | nil => exact length_skipCommand h
    | cons b x ih =>
      rw [skipCommand] at hnone
      rw [cons_append, skipCommand] at h
      by_cases hbell : b = 0x07
      · rw [if_pos hbell] at hnone
        cases hnone
      cases x with
      | nil =>
        -- the escape character is the last of the first part
        split_ifs at h with hesc
        · cases h
          cases y with
          | nil => simp at hesc
          | cons c y => simp
        · exact length_skipCommand h
      | cons c x =>
        rw [cons_append, head?_cons] at h
        rw [head?_cons] at hnone
        split_ifs at hnone h with hesc
        exact ih hnone h

lemma fromLeft_skipLeadingAnsiEscape : FromLeft skipLeadingAnsiEscape where
  append {x r} y h := by
    match x, h with
    | a :: b :: x, h =>
      rw [skipLeadingAnsiEscape] at h
      rw [cons_append, cons_append, skipLeadingAnsiEscape]
      split_ifs at h ⊢
      · exact fromLeft_skipControl.append y h
      · exact fromLeft_skipCommand.append y h
  beyond {x y r} hnone h := by
    match x, hnone, h with
    | [], _, h => exact length_skipLeadingAnsiEscape h
    | [a], _, h =>
      cases y with
      | nil => simp [skipLeadingAnsiEscape] at h
      | cons b y =>
        rw [singleton_append, skipLeadingAnsiEscape] at h
        split_ifs at h
        · exact (length_skipControl h).trans (Nat.lt_succ_self _)
        · exact (length_skipCommand h).trans (Nat.lt_succ_self _)
    | a :: b :: x, hnone, h =>
      rw [skipLeadingAnsiEscape] at hnone
      rw [cons_append, cons_append, skipLeadingAnsiEscape] at h
      split_ifs at hnone h
      · exact fromLeft_skipControl.beyond hnone h
      · exact fromLeft_skipCommand.beyond hnone h

lemma strip_of_skip {rest : Bytes} (h : skipLeadingAnsiEscape (o.dropWhile isLineEnd) = some rest) :
    stripLeadingShellNoise o = stripLeadingShellNoise rest := by
  rw [stripLeadingShellNoise]
  split <;> simp_all

lemma strip_of_none (h : skipLeadingAnsiEscape (o.dropWhile isLineEnd) = none) :
    stripLeadingShellNoise o = o.dropWhile isLineEnd := by
  rw [stripLeadingShellNoise]
  split <;> simp_all

lemma length_dropWhile_le (o : Bytes) : (o.dropWhile isLineEnd).length ≤ o.length :=
  (dropWhile_suffix isLineEnd).length_le

lemma length_strip_le (o : Bytes) : (stripLeadingShellNoise o).length ≤ o.length := by
  have hdrop := length_dropWhile_le o
  fun_induction stripLeadingShellNoise o with
  | case1 o rest hskip ih =>
    have hlt := length_skipLeadingAnsiEscape hskip
    have hrest := ih (length_dropWhile_le rest)
    omega
  | case2 o hskip => exact hdrop

/-- An output of full length has no noise. -/
lemma strip_eq_self (h : o.length ≤ (stripLeadingShellNoise o).length) :
    stripLeadingShellNoise o = o := by
  have hdrop := length_dropWhile_le o
  cases hskip : skipLeadingAnsiEscape (o.dropWhile isLineEnd) with
  | none =>
    rw [strip_of_none hskip] at h ⊢
    exact (dropWhile_suffix isLineEnd).eq_of_length_le h
  | some rest =>
    have hlt := length_skipLeadingAnsiEscape hskip
    have hrest := length_strip_le rest
    rw [strip_of_skip hskip] at h
    omega

/-- Noise that ends in the first part of an output can be taken from this part alone. -/
lemma strip_append {y : Bytes} (h : y.length ≤ (stripLeadingShellNoise (x ++ y)).length) :
    stripLeadingShellNoise (x ++ y) = stripLeadingShellNoise x ++ y := by
  have hdrop : ∀ {x}, x.dropWhile isLineEnd ≠ [] →
      (x ++ y).dropWhile isLineEnd = x.dropWhile isLineEnd ++ y := by
    intro x hne
    rw [dropWhile_append, if_neg (by simpa using hne)]
  fun_induction stripLeadingShellNoise x with
  | case1 x rest hskip ih =>
    have hboth : skipLeadingAnsiEscape ((x ++ y).dropWhile isLineEnd) = some (rest ++ y) := by
      rw [hdrop (fun hnil => by rw [hnil] at hskip; cases hskip)]
      exact fromLeft_skipLeadingAnsiEscape.append y hskip
    rw [strip_of_skip hboth] at h ⊢
    exact ih h
  | case2 x hskip =>
    by_cases hall : x.dropWhile isLineEnd = []
    · -- the first part is all line ends, so the second has no noise
      have hline : ∀ b ∈ x, isLineEnd b = true := dropWhile_eq_nil_iff.1 hall
      have hsame : (x ++ y).dropWhile isLineEnd = y.dropWhile isLineEnd :=
        dropWhile_append_of_pos hline
      have hy : stripLeadingShellNoise (x ++ y) = stripLeadingShellNoise y := by
        rw [stripLeadingShellNoise, stripLeadingShellNoise, hsame]
      rw [hy] at h ⊢
      rw [hall, strip_eq_self h, nil_append]
    · cases hboth : skipLeadingAnsiEscape ((x ++ y).dropWhile isLineEnd) with
      | none => rw [strip_of_none hboth, hdrop hall]
      | some rest =>
        -- the escape sequence would end in the second part
        have hlt := fromLeft_skipLeadingAnsiEscape.beyond hskip (hdrop hall ▸ hboth)
        have hrest := length_strip_le rest
        rw [strip_of_skip hboth] at h
        omega

/-- The first `n` bytes can be stripped alone just when the noise ends in them. -/
lemma strip_take_iff {n : ℕ} (hn : n ≤ o.length) :
    stripLeadingShellNoise (o.take n) ++ o.drop n = stripLeadingShellNoise o ↔ noiseLen o ≤ n := by
  unfold noiseLen
  constructor
  · intro h
    have hlen := congrArg length h
    rw [length_append, length_drop] at hlen
    omega
  · intro h
    have hsplit := take_append_drop n o
    rw [← strip_append, hsplit]
    rw [hsplit, length_drop]
    omega

end CrossHostOps.ShellNoise
