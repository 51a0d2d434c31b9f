import Mathlib.Algebra.Group.Int.Defs
import Mathlib.Algebra.GroupWithZero.Nat
import Mathlib.Data.Char
import Mathlib.Data.List.DropRight
import Mathlib.Data.List.Infix
import Mathlib.Data.List.Lex

/-!
Strings as lists of characters, with the `str` methods of the Rust standard library that
the program calls, and byte strings.
-/

namespace CrossHostOps.Text

abbrev Str := List Char
abbrev Bytes := List UInt8

/-- String literals stand for texts. -/
instance : Coe String Str := ⟨String.toList⟩

instance : LawfulBEq Str := inferInstance

def ascii (s : Str) : Bytes := s.map fun c => UInt8.ofNat c.toNat

/-- `char::is_whitespace`: the Unicode property `White_Space`. -/
def isWhitespace (c : Char) : Bool :=
  let n := c.toNat
  (9 ≤ n && n ≤ 13) || n == 0x20 || n == 0x85 || n == 0xA0 || n == 0x1680 ||
    (0x2000 ≤ n && n ≤ 0x200A) || n == 0x2028 || n == 0x2029 || n == 0x202F || n == 0x205F ||
    n == 0x3000

def trimStart (s : Str) : Str := s.dropWhile isWhitespace

def trimEnd (s : Str) : Str := s.rdropWhile isWhitespace

def trim (s : Str) : Str := trimEnd (trimStart s)

/-- `trim_end_matches` with one character. -/
def trimEndMatches (c : Char) (s : Str) : Str := s.rdropWhile (· == c)

/-- `split` on one character; the empty string has one empty piece. -/
def split (c : Char) (s : Str) : List Str := s.splitOn c

/-- `rsplit(c).next()`: what follows the last `c`. -/
def lastPiece (c : Char) (s : Str) : Str := s.rtakeWhile (· != c)

/-- `str::contains` with a string pattern. -/
def contains (pat s : Str) : Bool := decide (pat <:+: s)

/-- `str::lines`: the pieces between line feeds, each without the carriage return before its line
feed; a final line feed does not open another line. -/
def lines (s : Str) : List Str :=
  let pieces := split '\n' s
  let ended := pieces.dropLast.map fun l => if l.getLast? = some '\r' then l.dropLast else l
  match pieces.getLast? with
  | none | some [] => ended
  | some l => ended ++ [l]

def splitWhitespace (s : Str) : List Str := (s.splitOnP isWhitespace).filter (· ≠ [])

/-! ### Numbers -/

def showNat (n : ℕ) : Str := Nat.toDigits 10 n

/-- `{:0width$}`. -/
def zeroPad (width n : ℕ) : Str := List.replicate (width - (showNat n).length) '0' ++ showNat n

def showInt (n : ℤ) : Str := (if n < 0 then ['-'] else []) ++ showNat n.natAbs

/-- The value of a non-empty run of digits. -/
def digitsValue (radix : ℕ) (s : Str) : Option ℕ :=
  if s = [] then none
  else s.foldlM (fun n c =>
    if c.isDigit ∧ c.toNat - 48 < radix then some (radix * n + (c.toNat - 48)) else none) 0

/-- `from_str_radix` of an unsigned type with values below `bound`, for a radix up to 10. -/
def parseUnsigned (radix bound : ℕ) (s : Str) : Option ℕ :=
  (digitsValue radix (match s with
    | '+' :: rest => rest
    | _ => s)).filter (· < bound)

def parseU64 (s : Str) : Option ℕ := parseUnsigned 10 (2 ^ 64) s

def parseI64 (s : Str) : Option ℤ :=
  match s with
  | '-' :: rest => ((digitsValue 10 rest).filter (· ≤ 2 ^ 63)).map fun n => -(n : ℤ)
  | _ => (parseUnsigned 10 (2 ^ 63) s).map Int.ofNat

/-- `from_str` of a signed type with values below `bound`. -/
def parseSigned (bound : ℕ) (s : Str) : Option ℤ :=
  match s with
  | '-' :: rest => ((digitsValue 10 rest).filter (· ≤ bound)).map fun n => -(n : ℤ)
  | _ => (parseUnsigned 10 bound s).map Int.ofNat

def parseI32 (s : Str) : Option ℤ := parseSigned (2 ^ 31) s

lemma flatten_split (c : Char) (s : Str) : (split c s).flatten = s.filter (· != c) := by
  unfold split List.splitOn
  induction s with
  | nil => simp
  | cons x s ih =>
    rw [List.splitOnP_cons_eq_if_modifyHead]
    by_cases hx : x = c
    · simp [hx, ih]
    · obtain ⟨l, ls, hls⟩ := List.exists_cons_of_ne_nil (List.splitOnP_ne_nil (· == c) s)
      simp_all

lemma filter_intercalate (c : Char) (ls : List Str) :
    (List.intercalate [c] ls).filter (· != c) = ls.flatten.filter (· != c) := by
  induction ls with
  | nil => rfl
  | cons l ls ih =>
    rcases ls with _ | ⟨l', ls⟩
    · simp
    · simp_all

end CrossHostOps.Text
