import Mathlib.Data.List.Infix

/-!
The words of a command line by the rules of the POSIX shell: token recognition, quoting and quote
removal. A line has words only if there is nothing else in it: an operator, a comment, a line
continuation or a character that the shell would expand leaves it without.
-/

namespace CrossHostOps.ShellWords

open List

/-! ### Quoting -/

/-- How the next character of a word is quoted. -/
inductive Mode
  | bare
  | escaped
  | single
  | double
  | doubleEscaped
  deriving DecidableEq

def isBlank (c : Char) : Bool := c ∈ [' ', '\t']

/-- What ends a word or is expanded where it is not quoted: blanks, operators, substitutions and
patterns. -/
def activeChars : List Char :=
  [' ', '\t', '\n', '|', '&', ';', '<', '>', '(', ')', '$', '\x60', '*', '?', '[']

def isActive (c : Char) : Bool := c ∈ activeChars

def quoteChars : List Char := ['\\', '\'', '"']

def isQuote (c : Char) : Bool := c ∈ quoteChars

/-- A character that stands for itself. -/
def isPlain (c : Char) : Bool := !isActive c && !isQuote c

lemma isPlain_eq_false {c : Char} : isPlain c = false ↔ c ∈ activeChars ++ quoteChars := by
  rw [isPlain, Bool.and_eq_false_iff, isActive, isQuote]
  simp

/-- What one character adds to the word. -/
def Mode.step : Mode → Char → Option (List Char × Mode)
  | .bare, c =>
    if c = '\\' then some ([], .escaped)
    else if c = '\'' then some ([], .single)
    else if c = '"' then some ([], .double)
    else if isActive c then none
    else some ([c], .bare)
  | .escaped, c => if c = '\n' then none else some ([c], .bare)
  | .single, c => if c = '\'' then some ([], .bare) else some ([c], .single)
  | .double, c =>
    if c = '"' then some ([], .bare)
    else if c = '\\' then some ([], .doubleEscaped)
    else if c ∈ ['$', '\x60'] then none
    else some ([c], .double)
  | .doubleEscaped, c =>
    if c = '\n' then none
    else some (if c ∈ ['$', '\x60', '"', '\\'] then [c] else ['\\', c], .double)

/-- What is left of a text when its quotes are removed, and how the text behind it is quoted. -/
def spell : Mode → List Char → Option (List Char × Mode)
  | m, [] => some ([], m)
  | m, c :: cs =>
    (m.step c).bind fun (out, m') => (spell m' cs).map fun (rest, m'') => (out ++ rest, m'')

variable {m : Mode} {c : Char} {ws : List Word} {line xs v : List Char}

section spell

variable {m' : Mode} {ys out : List Char}

lemma spell_cons_eq_some : spell m (c :: xs) = some (v, m') ↔
    ∃ out m₁ rest, m.step c = some (out, m₁) ∧ spell m₁ xs = some (rest, m') ∧ v = out ++ rest := by
  simp only [spell, Option.bind_eq_some_iff, Option.map_eq_some_iff, Prod.exists, Prod.mk.injEq]
  constructor
  · rintro ⟨out, m₁, hstep, rest, m₂, hrest, rfl, rfl⟩
    exact ⟨out, m₁, rest, hstep, hrest, rfl⟩
  · rintro ⟨out, m₁, rest, hstep, hrest, rfl⟩
    exact ⟨out, m₁, hstep, rest, m', hrest, rfl, rfl⟩

lemma spell_append_eq_some : spell m (xs ++ ys) = some (v, m') ↔
    ∃ v₁ m₁ v₂, spell m xs = some (v₁, m₁) ∧ spell m₁ ys = some (v₂, m') ∧ v = v₁ ++ v₂ := by
  induction xs generalizing m v with
  | nil => simp [spell]
  | cons c xs ih =>
    rw [cons_append, spell_cons_eq_some]
    constructor
    · rintro ⟨out, m₁, rest, hstep, hrest, rfl⟩
      obtain ⟨v₁, m₂, v₂, hxs, hys, rfl⟩ := ih.1 hrest
      exact ⟨out ++ v₁, m₂, v₂, spell_cons_eq_some.2 ⟨out, m₁, v₁, hstep, hxs, rfl⟩, hys,
        (append_assoc ..).symm⟩
    · rintro ⟨v₁, m₂, v₂, hxs, hys, rfl⟩
      obtain ⟨out, m₁, rest, hstep, hrest, rfl⟩ := spell_cons_eq_some.1 hxs
      exact ⟨out, m₁, rest ++ v₂, hstep, ih.2 ⟨rest, m₂, v₂, hrest, hys, rfl⟩, append_assoc ..⟩

/-- A bound on what is spelled follows from a bound for one character. -/
lemma length_spell_le {f : Mode → ℕ}
    (hf : ∀ {m c out m'}, Mode.step m c = some (out, m') → out.length + f m' ≤ 1 + f m)
    (h : spell m xs = some (v, m')) : v.length + f m' ≤ xs.length + f m := by
  induction xs generalizing m v with
  | nil =>
    cases h
    simp
  | cons c xs ih =>
    obtain ⟨out, m₁, rest, hstep, hrest, rfl⟩ := spell_cons_eq_some.1 h
    have hone := hf hstep
    have hmore := ih hrest
    simp only [length_append, length_cons]
    omega

/-- What one character can do. -/
inductive Stepped (c : Char) : Mode → List Char → Mode → Prop
  | plain (inactive : isActive c = false) (unquoted : isQuote c = false) : Stepped c .bare [c] .bare
  | escape (backslash : c = '\\') : Stepped c .bare [] .escaped
  | single (quote : c = '\'') : Stepped c .bare [] .single
  | double (quote : c = '"') : Stepped c .bare [] .double
  | escaped : Stepped c .escaped [c] .bare
  | unsingle (quote : c = '\'') : Stepped c .single [] .bare
  | insingle (inner : c ≠ '\'') : Stepped c .single [c] .single
  | undouble (quote : c = '"') : Stepped c .double [] .bare
  | doubleEscape (backslash : c = '\\') : Stepped c .double [] .doubleEscaped
  | indouble (inner : c ≠ '"') : Stepped c .double [c] .double
  | unescaped (special : c ∈ ['$', '\x60', '"', '\\']) : Stepped c .doubleEscaped [c] .double
  | kept (other : c ∉ ['$', '\x60', '"', '\\']) : Stepped c .doubleEscaped ['\\', c] .double

lemma stepped (h : m.step c = some (out, m')) : Stepped c m out m' := by
  cases m with
  | bare =>
    simp only [Mode.step] at h
    split_ifs at h with hbackslash hsingle hdouble hactive
    · cases h
      exact .escape hbackslash
    · cases h
      exact .single hsingle
    · cases h
      exact .double hdouble
    · cases h
      exact .plain (by simpa using hactive)
        (by simp [isQuote, quoteChars, hbackslash, hsingle, hdouble])
  | escaped =>
    simp only [Mode.step] at h
    split_ifs at h
    cases h
    exact .escaped
  | single =>
    simp only [Mode.step] at h
    split_ifs at h with hquote
    · cases h
      exact .unsingle hquote
    · cases h
      exact .insingle hquote
  | double =>
    simp only [Mode.step] at h
    split_ifs at h with hquote hbackslash
    · cases h
      exact .undouble hquote
    · cases h
      exact .doubleEscape hbackslash
    · cases h
      exact .indouble hquote
  | doubleEscaped =>
    simp only [Mode.step] at h
    split_ifs at h with hnewline hspecial
    · cases h
      exact .unescaped hspecial
    · cases h
      exact .kept hspecial

/-- A backslash in double quotes may be kept. -/
def Mode.slack : Mode → ℕ
  | .doubleEscaped => 1
  | _ => 0

/-- How much of the text is not in the word for sure. -/
def Mode.lag : Mode → ℕ
  | .bare => 0
  | .escaped | .single | .double => 1
  | .doubleEscaped => 2

lemma length_slack (h : spell m xs = some (v, m')) :
    v.length + m'.slack ≤ xs.length + m.slack := by
  refine length_spell_le (fun hstep => ?_) h
  cases stepped hstep <;> simp [Mode.slack]

lemma length_lag (h : spell m xs = some (v, m')) : v.length + m'.lag ≤ xs.length + m.lag := by
  refine length_spell_le (fun hstep => ?_) h
  cases stepped hstep <;> simp [Mode.lag]

lemma length_spelled (h : spell .bare xs = some (v, .bare)) : v.length ≤ xs.length :=
  length_lag h

lemma length_quoted (hquote : isQuote c = true) (h : spell .bare (c :: xs) = some (v, .bare)) :
    v.length < (c :: xs).length := by
  obtain ⟨out, m₁, rest, hstep, hrest, rfl⟩ := spell_cons_eq_some.1 h
  have hlength := length_slack hrest
  cases stepped hstep with
  | plain inactive unquoted =>
    rw [hquote] at unquoted
    cases unquoted
  | escape | single | double => exact Nat.lt_succ_of_le hlength

lemma step_plain (hc : isPlain c = true) (hm : m = .bare ∨ m = .single ∨ m = .double) :
    m.step c = some ([c], m) := by
  simp only [isPlain, isActive, activeChars, isQuote, quoteChars, Bool.and_eq_true,
    Bool.not_eq_true', decide_eq_false_iff_not, mem_cons, not_or] at hc
  rcases hm with rfl | rfl | rfl <;> simp [Mode.step, isActive, activeChars, hc]

lemma spell_plain (hxs : ∀ c ∈ xs, isPlain c = true) (hm : m = .bare ∨ m = .single ∨ m = .double) :
    spell m xs = some (xs, m) := by
  induction xs with
  | nil => rfl
  | cons c xs ih =>
    refine spell_cons_eq_some.2 ⟨[c], m, xs, step_plain (hxs c (by simp)) hm, ?_, rfl⟩
    exact ih fun c hc => hxs c (mem_cons_of_mem _ hc)

/-- Where nothing is removed, nothing is quoted. -/
lemma plain_of_length_eq (h : spell .bare xs = some (v, .bare)) (hlength : v.length = xs.length) :
    ∀ c ∈ xs, isPlain c = true := by
  induction xs generalizing v with
  | nil => exact nofun
  | cons c xs ih =>
    by_cases hquote : isQuote c = true
    · have hless := length_quoted hquote h
      omega
    · obtain ⟨out, m₁, rest, hstep, hrest, rfl⟩ := spell_cons_eq_some.1 h
      cases stepped hstep with
      | plain inactive unquoted =>
        intro c' hc'
        rcases mem_cons.1 hc' with rfl | hc'
        · simp [isPlain, inactive, unquoted]
        · exact ih hrest (by simpa using hlength) c' hc'
      | escape quote | single quote | double quote => simp [isQuote, quoteChars, quote] at hquote

/-- A space in a word, with some plain characters behind it, comes earlier in what is spelled: the
quote in front of it is removed. -/
lemma space_earlier {before plain behind : List Char}
    (h : spell .bare (before ++ (' ' :: plain ++ behind)) = some (v, .bare))
    (hplain : ∀ c ∈ plain, isPlain c = true) :
    ∃ v₁ v₂, v = v₁ ++ (' ' :: plain ++ v₂) ∧ v₁.length < before.length := by
  obtain ⟨v₁, m₁, v₂, hbefore, hspace, rfl⟩ := spell_append_eq_some.1 h
  obtain ⟨out, m₂, rest, hstep, hrest, rfl⟩ := spell_cons_eq_some.1 hspace
  have hlag := length_lag hbefore
  -- the space stands for itself, and so do the plain characters
  have hspelled : ∀ {out'}, out = out' ++ [' '] → v₁.length + out'.length < before.length →
      (m₂ = .bare ∨ m₂ = .single ∨ m₂ = .double) →
      ∃ w₁ w₂, v₁ ++ (out ++ rest) = w₁ ++ (' ' :: plain ++ w₂) ∧ w₁.length < before.length := by
    rintro out' rfl hless hm₂
    obtain ⟨v₃, m₃, v₄, hp, -, rfl⟩ := spell_append_eq_some.1 hrest
    rw [spell_plain hplain hm₂] at hp
    cases hp
    exact ⟨v₁ ++ out', v₄, by simp, by simpa using hless⟩
  generalize hm₁ : m₁ = mode at hstep hlag
  cases stepped hstep with
  | plain inactive => cases inactive
  | escaped => exact hspelled (nil_append _).symm hlag (.inl rfl)
  | insingle => exact hspelled (nil_append _).symm hlag (.inr (.inl rfl))
  | indouble => exact hspelled (nil_append _).symm hlag (.inr (.inr rfl))
  | unescaped special => simp at special
  | kept => exact hspelled (show ['\\', ' '] = ['\\'] ++ [' '] from rfl) hlag (.inr (.inr rfl))
  | escape quote | single quote | double quote | unsingle quote | undouble quote
  | doubleEscape quote => exact absurd quote (by decide)

end spell

/-! ### Words -/

/-- A word as it is written, and what it stands for. -/
structure Word where
  raw : List Char
  value : List Char

/-- The part of a word that has been read. -/
structure Reading where
  mode : Mode
  raw : List Char
  value : List Char

def Reading.step (r : Reading) (c : Char) : Option Reading :=
  (r.mode.step c).map fun (out, mode) => ⟨mode, r.raw ++ [c], r.value ++ out⟩

/-- The rest of the words, in a word or between two. -/
def lex : Option Reading → List Char → Option (List Word)
  | none, [] => some []
  | some r, [] => if r.mode = .bare then some [⟨r.raw, r.value⟩] else none
  | none, c :: cs =>
    if isBlank c then lex none cs
    else if c ∈ ['#', '~'] then none
    else (Reading.step ⟨.bare, [], []⟩ c).bind fun r => lex (some r) cs
  | some r, c :: cs =>
    if r.mode = .bare ∧ isBlank c then (lex none cs).map (⟨r.raw, r.value⟩ :: ·)
    else (r.step c).bind fun r => lex (some r) cs

def words (line : List Char) : Option (List Word) := lex none line

/-- What the words of a line stand for. -/
def fields (line : List Char) : Option (List (List Char)) := (words line).map (·.map Word.value)

def reserved : List (List Char) :=
  ["!", "\x7b", "\x7d", "case", "do", "done", "elif", "else", "esac", "fi", "for", "if", "in",
    "then", "until", "while"].map String.toList

/-- A name and an equals sign. -/
def isAssignment (raw : List Char) : Bool :=
  let isName := fun c : Char => c.isAlphanum || c == '_'
  (raw.head?.any fun c => isName c && !c.isDigit) &&
    (raw.dropWhile isName).head? == some '='

/-- Whether a word can be the name of a command. -/
def Word.isCommand (w : Word) : Bool := w.raw ∉ reserved && !isAssignment w.raw

/-- The words of a line that is one simple command, without assignments. -/
def simpleCommand (line : List Char) : Option (List (List Char)) :=
  ((words line).filter fun ws => ws.head?.all Word.isCommand).map (·.map Word.value)

/-- A word that can be read back wherever it stands. -/
structure Word.Spelled (w : Word) : Prop where
  spell : spell .bare w.raw = some (w.value, .bare)
  ne_nil : w.raw ≠ []
  head : ∀ c ∈ w.raw.head?, c ∉ ['#', '~']

section lex

variable {w : Word}

lemma step_blank (h : isBlank c = true) : Mode.step .bare c = none := by
  simp only [isBlank, mem_cons, not_mem_nil, or_false, decide_eq_true_eq] at h
  rcases h with rfl | rfl <;> rfl

/-- The part of a word that is read on. -/
lemma lex_append {r : Reading} (rest : List Char) (h : spell r.mode xs = some (v, m)) :
    lex (some r) (xs ++ rest) = lex (some ⟨m, r.raw ++ xs, r.value ++ v⟩) rest := by
  induction xs generalizing r v with
  | nil =>
    cases h
    simp
  | cons c xs ih =>
    obtain ⟨out, m₁, v', hstep, hrest, rfl⟩ := spell_cons_eq_some.1 h
    have hinside : ¬(r.mode = .bare ∧ isBlank c = true) := by
      rintro ⟨hbare, hblank⟩
      rw [hbare, step_blank hblank] at hstep
      cases hstep
    rw [cons_append, lex, if_neg hinside, Reading.step, hstep]
    refine (ih hrest).trans ?_
    simp

lemma lex_word (rest : List Char) (h : w.Spelled) :
    lex none (w.raw ++ rest) = lex (some ⟨.bare, w.raw, w.value⟩) rest := by
  have happend := lex_append (r := ⟨.bare, [], []⟩) rest h.spell
  have hspell := h.spell
  have hhead := h.head
  cases hraw : w.raw with
  | nil => exact absurd hraw h.ne_nil
  | cons c cs =>
    rw [hraw] at happend hspell hhead
    obtain ⟨out, m₁, v', hstep, -⟩ := spell_cons_eq_some.1 hspell
    have hblank : ¬isBlank c = true := fun hblank => by
      rw [step_blank hblank] at hstep
      cases hstep
    rw [cons_append, lex, if_neg hblank, if_neg (hhead c rfl)]
    rw [cons_append, lex, if_neg fun h => hblank h.2] at happend
    exact happend

lemma words_intercalate (hws : ∀ w ∈ ws, w.Spelled) :
    words ([' '].intercalate (ws.map Word.raw)) = some ws := by
  induction ws with
  | nil => rfl
  | cons w ws ih =>
    have hw := hws w (by simp)
    cases ws with
    | nil =>
      have hlast := lex_word [] hw
      simpa [words, lex] using hlast
    | cons w' ws =>
      have hmore := ih fun w hw => hws w (mem_cons_of_mem _ hw)
      rw [map_cons, map_cons, intercalate_cons_cons, words, append_assoc,
        lex_word _ hw, singleton_append]
      exact congrArg (Option.map _) hmore

/-- What is left of the word that is being read. -/
lemma lex_reading {r : Reading} (h : lex (some r) line = some ws) :
    ∃ xs rest v ws', line = xs ++ rest ∧ spell r.mode xs = some (v, .bare) ∧
      ws = ⟨r.raw ++ xs, r.value ++ v⟩ :: ws' := by
  induction line generalizing r with
  | nil =>
    rw [lex] at h
    split_ifs at h with hbare
    cases h
    exact ⟨[], [], [], [], rfl, by rw [hbare, spell], by simp⟩
  | cons c line ih =>
    rw [lex] at h
    split_ifs at h with hend
    · obtain ⟨ws', -, rfl⟩ := Option.map_eq_some_iff.1 h
      exact ⟨[], c :: line, [], ws', rfl, by rw [hend.1, spell], by simp⟩
    · obtain ⟨r', hstep, hline⟩ := Option.bind_eq_some_iff.1 h
      obtain ⟨⟨out, mode⟩, hout, rfl⟩ := Option.map_eq_some_iff.1 hstep
      obtain ⟨xs, rest, v, ws', rfl, hspell, rfl⟩ := ih hline
      exact ⟨c :: xs, rest, out ++ v, ws', rfl,
        spell_cons_eq_some.2 ⟨out, mode, v, hout, hspell, rfl⟩, by simp⟩

lemma words_first (h : words line = some (w :: ws)) :
    ∃ blanks rest, line = blanks ++ (w.raw ++ rest) ∧ (∀ c ∈ blanks, isBlank c = true) ∧
      w.Spelled := by
  induction line with
  | nil => cases h
  | cons c line ih =>
    rw [words, lex] at h
    split_ifs at h with hblank hhead
    · obtain ⟨blanks, rest, rfl, hblanks, hw⟩ := ih h
      exact ⟨c :: blanks, rest, rfl, forall_mem_cons.2 ⟨hblank, hblanks⟩, hw⟩
    · obtain ⟨r, hstep, hline⟩ := Option.bind_eq_some_iff.1 h
      obtain ⟨⟨out, mode⟩, hout, rfl⟩ := Option.map_eq_some_iff.1 hstep
      obtain ⟨xs, rest, v, ws', rfl, hspell, hws⟩ := lex_reading hline
      obtain ⟨rfl, -⟩ := List.cons.inj hws
      refine ⟨[], rest, rfl, nofun, ?_, cons_ne_nil _ _, ?_⟩
      · exact spell_cons_eq_some.2 ⟨out, mode, v, hout, hspell, rfl⟩
      · intro c' hc'
        cases hc'
        exact hhead

end lex

/-! ### A text in front of a space -/

/-- Whether a text is a word of its own wherever it stands, and can be the name of a command. -/
def isPlainName (text : List Char) : Bool :=
  text.all isPlain && text.head?.all (· ∉ ['#', '~']) && text ∉ reserved && !isAssignment text

section text

variable {text rest raw : List Char}

/-- If the first word of a line stands for the beginning of the line, then a space in the word,
with some plain characters behind it, is found in front of the word as well. -/
lemma exists_space_before (plain : List Char) {blanks tail : List Char}
    (hline : line = blanks ++ (raw ++ tail))
    (hspell : spell .bare raw = some (v, .bare)) (hv : v <+: line)
    (hplain : ∀ c ∈ plain, isPlain c = true) {p : ℕ} (hp : blanks.length ≤ p)
    (hin : p + plain.length < blanks.length + raw.length) (hspace : ' ' :: plain <+: line.drop p) :
    ∃ q < blanks.length, ' ' :: plain <+: line.drop q := by
  induction p using Nat.strong_induction_on with
  | h p ih =>
    have hdrop : line.drop p = raw.drop (p - blanks.length) ++ tail := by
      rw [hline, drop_append, drop_eq_nil_of_le hp, nil_append, drop_append_of_le_length (by omega)]
    obtain ⟨behind, hbehind⟩ : ' ' :: plain <+: raw.drop (p - blanks.length) := by
      rw [hdrop] at hspace
      refine prefix_of_prefix_length_le hspace (prefix_append _ _) ?_
      simp only [length_cons, length_drop]
      omega
    have hraw : raw = raw.take (p - blanks.length) ++ (' ' :: plain ++ behind) := by
      rw [hbehind, take_append_drop]
    rw [hraw] at hspell
    obtain ⟨v₁, v₂, rfl, hearlier⟩ := space_earlier hspell hplain
    have hfound : ' ' :: plain <+: line.drop v₁.length := by
      obtain ⟨more, rfl⟩ := hv
      exact ⟨v₂ ++ more, by simp⟩
    by_cases hq : v₁.length < blanks.length
    · exact ⟨v₁.length, hq, hfound⟩
    · have hlength := length_spelled hspell
      simp only [length_take] at hlength hearlier
      exact ih v₁.length (by omega) (by omega) (by omega) hfound

/-- A text in front of a space and a dash is the first word only if nothing in it is quoted. -/
theorem raw_eq_of_words (h : words (text ++ ' ' :: '-' :: rest) = some (⟨raw, text⟩ :: ws))
    (hne : text ≠ []) : raw = text ∧ ∀ c ∈ text, isPlain c = true := by
  obtain ⟨blanks, tail, hline, hblanks, hspell, hraw, -⟩ := words_first h
  have hlength : text.length ≤ raw.length := length_spelled hspell
  cases blanks with
  | nil =>
    have hle : raw.length ≤ text.length := by
      by_contra hless
      obtain ⟨q, hq, -⟩ := exists_space_before [] hline hspell (prefix_append _ _) nofun
        (Nat.zero_le text.length) (by simpa using hless) (by simp)
      cases hq
    have heq : raw = text := by
      have hsame : raw ++ tail = text ++ ' ' :: '-' :: rest := hline.symm
      exact (append_inj hsame (by omega)).1
    exact ⟨heq, plain_of_length_eq (heq ▸ hspell) rfl⟩
  | cons b blanks =>
    exfalso
    -- the word begins with a quote, because it stands for a text that begins with a blank
    obtain ⟨c, cs, rfl⟩ := exists_cons_of_ne_nil hraw
    have hquote : isQuote c = true := by
      obtain ⟨b', text, rfl⟩ := exists_cons_of_ne_nil hne
      obtain rfl : b' = b := (List.cons.inj hline).1
      by_contra hunquoted
      obtain ⟨out, m, v', hstep, -, hout⟩ := spell_cons_eq_some.1 hspell
      cases stepped hstep with
      | plain =>
        obtain ⟨rfl, -⟩ := List.cons.inj hout
        rw [step_blank (hblanks b' (by simp))] at hstep
        cases hstep
      | escape quote | single quote | double quote => simp [isQuote, quoteChars, quote] at hunquoted
    have hlonger : text.length < (c :: cs).length := length_quoted hquote hspell
    -- a dash comes behind the beginning of the word
    have hdash : ∀ k, (text ++ ' ' :: '-' :: rest)[k]? = some '-' → (b :: blanks).length < k := by
      intro k hk
      rw [hline] at hk
      rcases Nat.lt_trichotomy k (b :: blanks).length with hlt | rfl | hgt
      · rw [getElem?_append_left hlt] at hk
        cases hblanks '-' (mem_of_getElem? hk)
      · have hc : some c = some '-' := by simpa using hk
        cases hc
        cases hquote
      · exact hgt
    have hblanksle := hdash (text.length + 1) (by simp)
    obtain ⟨q, hq, more, hmore⟩ := exists_space_before ['-'] hline hspell (prefix_append _ _)
      (all_eq_true.1 (by decide)) (Nat.le_of_lt_succ hblanksle)
      (by simp only [length_cons, length_nil] at hlonger ⊢; omega) (by simp)
    have hfound := hdash (q + 1) (by rw [← getElem?_drop, ← hmore]; rfl)
    omega

/-- A text in front of a space and a dash names the command only if it is plain. -/
theorem isPlainName_of_simpleCommand {more : List (List Char)} (hne : text ≠ [])
    (h : simpleCommand (text ++ ' ' :: '-' :: rest) = some (text :: more)) :
    isPlainName text = true := by
  obtain ⟨ws, hfilter, hvalues⟩ := Option.map_eq_some_iff.1 h
  obtain ⟨hwords, hcommand⟩ := Option.filter_eq_some_iff.1 hfilter
  cases ws with
  | nil => cases hvalues
  | cons w ws =>
    obtain ⟨raw, value⟩ := w
    obtain rfl : value = text := (List.cons.inj hvalues).1
    obtain ⟨rfl, hplain⟩ := raw_eq_of_words hwords hne
    obtain ⟨-, -, -, -, hspelled⟩ := words_first hwords
    have hhead := hspelled.head
    simp only [head?_cons, Option.all_some, Word.isCommand, Bool.and_eq_true] at hcommand
    simp only [isPlainName, Bool.and_eq_true, all_eq_true, Option.all_eq_true, decide_eq_true_eq]
    exact ⟨⟨⟨hplain, hhead⟩, by simpa using hcommand.1⟩, hcommand.2⟩

lemma spelled_of_plain (hne : text ≠ []) (hplain : ∀ c ∈ text, isPlain c = true)
    (hhead : ∀ c ∈ text.head?, c ∉ ['#', '~']) : (⟨text, text⟩ : Word).Spelled :=
  ⟨spell_plain hplain (.inl rfl), hne, hhead⟩

/-- The first word decides whether a line of words is a simple command. -/
lemma simpleCommand_intercalate {w : Word} (hws : ∀ w' ∈ w :: ws, w'.Spelled)
    (hcommand : w.isCommand = true) :
    simpleCommand ([' '].intercalate ((w :: ws).map Word.raw)) =
      some ((w :: ws).map Word.value) := by
  rw [simpleCommand, words_intercalate hws]
  simp [hcommand]

end text

end CrossHostOps.ShellWords
