import Mathlib.Logic.Function.Iterate
import CrossHostOps.Numerals

/-!
The times that `daemon/token_store.rs` shows, against the Gregorian calendar: from each date to the
next one, by the lengths of the months.
-/

namespace CrossHostOps.CivilDates

open Text Numerals

structure Date where
  year : ℤ
  month : ℕ
  day : ℕ
  deriving DecidableEq

/-- The end of `civil_from_days`: the years begin in March, and `doy` is a day of one. -/
def monthDay (doy : ℤ) : ℕ × ℕ :=
  let mp := (5 * doy + 2) / 153
  let d := doy - (153 * mp + 2) / 5 + 1
  let mRaw := if mp < 10 then mp + 3 else mp - 9
  (mRaw.toNat, d.toNat)

def dateOf (y doy : ℤ) : Date :=
  let (m, d) := monthDay doy
  ⟨if m ≤ 2 then y + 1 else y, m, d⟩

/-- Only the division by which the era is found may be one of a negative number. -/
def civilFromDays (days : ℤ) : Date :=
  let z := days + 719468
  let era := Int.tdiv (if z ≥ 0 then z else z - 146096) 146097
  let doe := z - era * 146097
  let yoe := (doe - doe / 1460 + doe / 36524 - doe / 146096) / 365
  let y := yoe + era * 400
  let doy := doe - (365 * yoe + yoe / 4 - yoe / 100)
  dateOf y doy

/-- `format_rfc3339_utc`, of the seconds since the epoch, or of an instant before it; the year of no
instant is negative. -/
def formatRfc3339Utc : Option ℕ → Str
  | none => "1970-01-01T00:00:00Z"
  | some secs =>
    let days := secs / 86400
    let rem := secs % 86400
    let date := civilFromDays days
    zeroPad 4 date.year.toNat ++ '-' :: zeroPad 2 date.month ++ '-' :: zeroPad 2 date.day ++
      'T' :: zeroPad 2 (rem / 3600) ++ ':' :: zeroPad 2 (rem % 3600 / 60) ++
      ':' :: zeroPad 2 (rem % 60) ++ ['Z']

/-! ### The calendar -/

def IsLeap (year : ℤ) : Prop := 4 ∣ year ∧ (¬ 100 ∣ year ∨ 400 ∣ year)
  deriving Decidable

def monthLength (year : ℤ) : ℕ → ℕ
  | 2 => if IsLeap year then 29 else 28
  | 4 | 6 | 9 | 11 => 30
  | _ => 31

namespace Date

def Valid (date : Date) : Prop :=
  1 ≤ date.month ∧ date.month ≤ 12 ∧ 1 ≤ date.day ∧ date.day ≤ monthLength date.year date.month

def next (date : Date) : Date :=
  if date.day < monthLength date.year date.month then { date with day := date.day + 1 }
  else if date.month < 12 then ⟨date.year, date.month + 1, 1⟩
  else ⟨date.year + 1, 1, 1⟩

def epoch : Date := ⟨1970, 1, 1⟩

end Date

open Date

/-! ### Years that begin in March -/

/-- The days from the first of March of the year 0 to that of the year `y`. -/
def start (y : ℕ) : ℕ := 365 * y + y / 4 - y / 100 + y / 400

/-- The length of the year `y`, which ends in February of the next one. -/
def yearLength (y : ℕ) : ℕ := 337 + monthLength (y + 1) 2

/-- A year is the `r`-th of the `q`-th four of the `c`-th hundred of its era. -/
lemma exists_parts (y : ℕ) : ∃ era c q r : ℕ, c < 4 ∧ q < 25 ∧ r < 4 ∧
    y = 400 * era + 100 * c + 4 * q + r :=
  ⟨y / 400, y % 400 / 100, y % 100 / 4, y % 4, by omega, by omega, by omega, by omega⟩

section Parts

variable {era c q r : ℕ} (hc : c < 4) (hq : q < 25) (hr : r < 4)

include hc hq hr

lemma start_parts : start (400 * era + 100 * c + 4 * q + r) =
    146097 * era + 36524 * c + 1461 * q + 365 * r := by
  have hfours : (400 * era + 100 * c + 4 * q + r) / 4 = 100 * era + 25 * c + q := by omega
  have hhundreds : (400 * era + 100 * c + 4 * q + r) / 100 = 4 * era + c := by omega
  have heras : (400 * era + 100 * c + 4 * q + r) / 400 = era := by omega
  rw [start]
  omega

lemma isLeap_parts : IsLeap ((400 * era + 100 * c + 4 * q + r : ℕ) + 1) ↔
    r = 3 ∧ (q < 24 ∨ c = 3) := by
  unfold IsLeap
  omega

lemma yoe_eq {doe doy : ℤ} (hdoe : doe = 36524 * c + 1461 * q + 365 * r + doy) (hpos : 0 ≤ doy)
    (hdoy : doy < 365 ∨ doy = 365 ∧ r = 3 ∧ (q < 24 ∨ c = 3)) :
    (doe - doe / 1460 + doe / 36524 - doe / 146096) / 365 = 100 * c + 4 * q + r := by
  have hfours : doe / 1460 = 25 * c + q + (24 * c + q + 365 * r + doy) / 1460 := by omega
  by_cases hlast : doe = 146096
  · omega
  · have heras : doe / 146096 = 0 := by omega
    have hhundreds : doe / 36524 = c := by omega
    omega

end Parts

variable {y doy days : ℕ}

lemma start_succ (y : ℕ) : start (y + 1) = start y + yearLength y := by
  have hleap : IsLeap (y + 1) ↔ 4 ∣ y + 1 ∧ (¬ 100 ∣ y + 1 ∨ 400 ∣ y + 1) := by
    unfold IsLeap
    omega
  simp only [start, Nat.succ_div, yearLength, monthLength, if_congr hleap rfl rfl]
  split_ifs <;> omega

lemma civilFromDays_eq (hdays : days + 719468 = start y + doy) (hdoy : doy < yearLength y) :
    civilFromDays days = dateOf y doy := by
  obtain ⟨era, c, q, r, hc, hq, hr, rfl⟩ := exists_parts y
  rw [start_parts hc hq hr] at hdays
  rw [yearLength, monthLength, if_congr (isLeap_parts hc hq hr) rfl rfl] at hdoy
  have hbound : doy < 365 ∨ doy = 365 ∧ r = 3 ∧ (q < 24 ∨ c = 3) := by
    split_ifs at hdoy <;> omega
  have hera : Int.tdiv (days + 719468) 146097 = era := by
    rw [Int.tdiv_eq_ediv_of_nonneg (by omega)]
    omega
  have hdoe : (days : ℤ) + 719468 - era * 146097 = 36524 * c + 1461 * q + 365 * r + doy := by
    omega
  have hfours : (100 * c + 4 * q + r : ℤ) / 4 = 25 * c + q := by omega
  have hhundreds : (100 * c + 4 * q + r : ℤ) / 100 = c := by omega
  have hz : (days : ℤ) + 719468 ≥ 0 := by omega
  simp only [civilFromDays, if_pos hz, hera, hdoe,
    yoe_eq hc hq hr rfl (Int.natCast_nonneg doy) (by omega), hfours, hhundreds]
  congr 1
  · omega
  · omega

/-- The days follow each other as in a year whose last month is long. -/
lemma monthDay_succ : ∀ doy : ℕ, doy < 365 →
    1 ≤ (monthDay doy).1 ∧ (monthDay doy).1 ≤ 12 ∧
      ((monthDay doy).1 = 2 → doy = (monthDay doy).2 + 336) ∧
      monthDay (doy + 1) =
        if (monthDay doy).2 < monthLength 4 (monthDay doy).1 then
          ((monthDay doy).1, (monthDay doy).2 + 1)
        else ((monthDay doy).1 % 12 + 1, 1) := by
  decide +kernel

lemma next_dateOf (hdoy : doy + 1 < yearLength y) : (dateOf y doy).next = dateOf y (doy + 1) := by
  have hlong : monthLength (y + 1) 2 ≤ 29 := by
    unfold monthLength
    split_ifs <;> decide
  unfold yearLength at hdoy
  obtain ⟨hpos, hle, hfebruary, hsucc⟩ := monthDay_succ doy (by omega)
  unfold dateOf
  rw [hsucc]
  generalize monthDay doy = md at hpos hle hfebruary
  obtain ⟨m, d⟩ := md
  by_cases hm : m = 2
  · subst hm
    have hday : d < monthLength (y + 1) 2 := by omega
    have hday' : d < monthLength 4 2 := hday.trans_le hlong
    simp [next, hday, hday']
  · have hmonth (year : ℤ) : monthLength year m = monthLength 4 m := by
      fun_cases monthLength year m with
      | case1 | case2 => exact absurd rfl hm
      | _ => simp [monthLength]
    simp only [next, hmonth]
    split_ifs <;> simp <;> omega

lemma next_dateOf_last (hdoy : doy + 1 = yearLength y) :
    (dateOf y doy).next = dateOf (y + 1) 0 := by
  have hfirst : monthDay 0 = (3, 1) := rfl
  by_cases hleap : IsLeap (y + 1)
  · obtain rfl : doy = 365 := by simpa [yearLength, monthLength, hleap] using hdoy
    have hlast : monthDay 365 = (2, 29) := rfl
    simp [dateOf, next, hlast, hfirst, monthLength, hleap]
  · obtain rfl : doy = 364 := by simpa [yearLength, monthLength, hleap] using hdoy
    have hlast : monthDay 364 = (2, 28) := rfl
    simp [dateOf, next, hlast, hfirst, monthLength, hleap]

lemma exists_iterate (n : ℕ) : ∃ y doy : ℕ, n + 719468 = start y + doy ∧ doy < yearLength y ∧
    next^[n] epoch = dateOf y doy := by
  induction n with
  | zero => exact ⟨1969, 306, rfl, by decide, by decide⟩
  | succ n ih =>
    obtain ⟨y, doy, hn, hdoy, hdate⟩ := ih
    rw [Function.iterate_succ_apply', hdate]
    obtain hlt | heq := Nat.lt_or_eq_of_le (Nat.succ_le_of_lt hdoy)
    · exact ⟨y, doy + 1, by omega, hlt, next_dateOf hlt⟩
    · refine ⟨y + 1, 0, ?_, ?_, next_dateOf_last heq⟩
      · rw [start_succ]
        omega
      · exact Nat.add_pos_left (by decide) _

lemma valid_next {date : Date} (h : date.Valid) : date.next.Valid := by
  have hlength (year : ℤ) (month : ℕ) : 1 ≤ monthLength year month := by
    fun_cases monthLength year month <;> decide
  obtain ⟨hmonth, hmonth', hday, hday'⟩ := h
  unfold next
  split_ifs with hlast hyear
  · exact ⟨hmonth, hmonth', by simp, hlast⟩
  · exact ⟨by simp, hyear, le_rfl, hlength _ _⟩
  · exact ⟨le_rfl, by simp, le_rfl, hlength _ _⟩

/-- No year is before the epoch's. -/
lemma year_nonneg (n : ℕ) : 0 ≤ (civilFromDays n).year := by
  obtain ⟨y, doy, hn, hdoy, -⟩ := exists_iterate n
  rw [civilFromDays_eq hn hdoy]
  simp only [dateOf]
  split_ifs <;> omega

lemma formatRfc3339Utc_eq {hour minute second : ℕ} (n : ℕ) (hhour : hour < 24)
    (hminute : minute < 60) (hsecond : second < 60) :
    formatRfc3339Utc (some (86400 * n + 3600 * hour + 60 * minute + second)) =
      zeroPad 4 (civilFromDays n).year.toNat ++ '-' :: zeroPad 2 (civilFromDays n).month ++
        '-' :: zeroPad 2 (civilFromDays n).day ++ 'T' :: zeroPad 2 hour ++
          ':' :: zeroPad 2 minute ++ ':' :: zeroPad 2 second ++ ['Z'] := by
  generalize hsecs : 86400 * n + 3600 * hour + 60 * minute + second = secs
  have hdays : n = secs / 86400 := by omega
  have hhours : hour = secs % 86400 / 3600 := by omega
  have hminutes : minute = secs % 86400 % 3600 / 60 := by omega
  have hseconds : second = secs % 86400 % 60 := by omega
  rw [hdays, hhours, hminutes, hseconds]
  rfl

/-- **The time of a token is the right one**: its date is the valid date that lies so many days
behind the first of January 1970, and the numbers in its text are those of the date and of the hour,
minute and second. -/
theorem token_times_exact (n : ℕ) (hour : Fin 24) (minute second : Fin 60) :
    (∀ date : Date, date.Valid ∧ next^[n] epoch = date ↔ date = civilFromDays n) ∧
      ∃ y m d h mi s,
        formatRfc3339Utc (some (86400 * n + 3600 * hour + 60 * minute + second)) =
          y ++ '-' :: m ++ '-' :: d ++ 'T' :: h ++ ':' :: mi ++ ':' :: s ++ ['Z'] ∧
        Numeral 4 (civilFromDays n).year y ∧ Numeral 2 (civilFromDays n).month m ∧
        Numeral 2 (civilFromDays n).day d ∧
        Numeral 2 hour h ∧ Numeral 2 minute mi ∧ Numeral 2 second s := by
  have hdate : civilFromDays n = next^[n] epoch := by
    obtain ⟨y, doy, hn, hdoy, hdate⟩ := exists_iterate n
    rw [civilFromDays_eq hn hdoy, hdate]
  have hvalid : (next^[n] epoch).Valid :=
    Function.Iterate.rec Valid (by simp [Valid, epoch, monthLength]) (fun _ => valid_next) n
  have hyear : Numeral 4 (civilFromDays n).year (zeroPad 4 (civilFromDays n).year.toNat) := by
    simpa only [Int.toNat_of_nonneg (year_nonneg n)] using
      numeral_zeroPad (by decide) (civilFromDays n).year.toNat
  have htwo : ∀ value : ℕ, Numeral 2 value (zeroPad 2 value) := numeral_zeroPad (by decide)
  refine ⟨fun date => ?_, _, _, _, _, _, _, formatRfc3339Utc_eq n hour.2 minute.2 second.2,
    hyear, htwo _, htwo _, htwo _, htwo _, htwo _⟩
  rw [hdate]
  constructor
  · rintro ⟨-, rfl⟩
    rfl
  · rintro rfl
    exact ⟨hvalid, rfl⟩

/-- A day that a rule of the centuries puts at the end of February. -/
example : formatRfc3339Utc (some 951782400) = "2000-02-29T00:00:00Z" := by decide +kernel

end CrossHostOps.CivilDates
