import Peanut.Text
import Mathlib.Algebra.Order.Field.Rat
import Mathlib.Tactic.Linarith

/-!
# Instants and their texts

An instant is written in two formats: SQLite's `YYYY-MM-DD HH:MM:SS`, which is
always in UTC, and the many texts of RFC 3339, with their separators, fractions
and offsets.  Texts are compared character by character, and what that says about
the instants is left to the reader of the comparison.
-/

namespace Peanut

/-! ### Numbers of a fixed width -/

/-- The last `width` digits of a number, the most significant first. -/
def paddedDigits : Nat → Nat → List Char
  | 0, _ => []
  | width + 1, n => Char.ofNat (48 + n / 10 ^ width) :: paddedDigits width (n % 10 ^ width)

theorem charsLt_paddedDigits {width m n : Nat} (hm : m < 10 ^ width) (hn : n < 10 ^ width)
    (as bs : List Char) :
    charsLt (paddedDigits width m ++ as) (paddedDigits width n ++ bs) = true ↔
      m < n ∨ m = n ∧ charsLt as bs = true := by
  induction width generalizing m n with
  | zero =>
    rw [Nat.pow_zero, Nat.lt_one_iff] at hm hn
    subst hm hn
    simp [paddedDigits]
  | succ width ih =>
    have hpos : 0 < 10 ^ width := Nat.pos_of_ne_zero (by simp)
    have hm' : m / 10 ^ width < 10 := Nat.div_lt_of_lt_mul (by rwa [← Nat.pow_succ])
    have hn' : n / 10 ^ width < 10 := Nat.div_lt_of_lt_mul (by rwa [← Nat.pow_succ])
    have hrest := ih (Nat.mod_lt m hpos) (Nat.mod_lt n hpos)
    have hm'' := Nat.div_add_mod m (10 ^ width)
    have hn'' := Nat.div_add_mod n (10 ^ width)
    simp only [paddedDigits, List.cons_append, charsLt, Bool.or_eq_true, Bool.and_eq_true,
      decide_eq_true_eq, beq_iff_eq, ← Char.toNat_inj, toNat_digit hm',
      toNat_digit hn', hrest]
    -- the leading digit decides, or the rest does
    generalize hb : 10 ^ width = b at *
    have hlt : m < n ↔ m / b < n / b ∨ m / b = n / b ∧ m % b < n % b := by
      constructor
      · intro h
        rcases Nat.lt_or_eq_of_le (Nat.div_le_div_right (c := b) h.le) with hq | hq
        · exact .inl hq
        · rw [hq] at hm''
          exact .inr ⟨hq, by omega⟩
      · rintro (hq | ⟨hq, hr⟩)
        · by_contra hge
          exact absurd (Nat.div_le_div_right (c := b) (Nat.le_of_not_lt hge)) (Nat.not_le_of_lt hq)
        · rw [hq] at hm''
          omega
    have heq : m = n ↔ m / b = n / b ∧ m % b = n % b := by
      constructor
      · rintro rfl
        exact ⟨rfl, rfl⟩
      · rintro ⟨hq, hr⟩
        rw [← hm'', ← hn'', hq, hr]
    rw [hlt, heq]
    constructor
    · rintro (h | ⟨h, h' | ⟨h', h''⟩⟩)
      · exact .inl (.inl (by omega))
      · exact .inl (.inr ⟨by omega, h'⟩)
      · exact .inr ⟨⟨by omega, h'⟩, h''⟩
    · rintro ((h | ⟨h, h'⟩) | ⟨⟨h, h'⟩, h''⟩)
      · exact .inl (by omega)
      · exact .inr ⟨by omega, .inl h'⟩
      · exact .inr ⟨by omega, .inr ⟨h', h''⟩⟩

/-! ### Dates and times of day -/

def isLeapYear (year : Nat) : Bool := year % 4 == 0 && (year % 100 != 0 || year % 400 == 0)

def daysInMonth (year month : Nat) : Nat :=
  match month with
  | 2 => if isLeapYear year then 29 else 28
  | 4 => 30
  | 6 => 30
  | 9 => 30
  | 11 => 30
  | _ => 31

/-- The days before the first of January. -/
def yearStart (year : Nat) : Nat :=
  365 * year + ((year + 3) / 4 - (year + 99) / 100 + (year + 399) / 400)

/-- The days of the first months of a year. -/
def monthStart (year : Nat) : Nat → Nat
  | 0 => 0
  | months + 1 => monthStart year months + daysInMonth year (months + 1)

theorem monthStart_mono (year : Nat) {m n : Nat} (h : m ≤ n) :
    monthStart year m ≤ monthStart year n := by
  induction n, h using Nat.le_induction with
  | base => exact Nat.le_refl _
  | succ n _ ih => exact ih.trans (Nat.le_add_right _ _)

theorem isLeapYear_iff (year : Nat) :
    isLeapYear year = true ↔ 4 ∣ year ∧ (¬ 100 ∣ year ∨ 400 ∣ year) := by
  simp only [isLeapYear, Nat.dvd_iff_mod_eq_zero, Bool.and_eq_true, Bool.or_eq_true, beq_iff_eq,
    bne_iff_ne]

/-- The quotient for the years that `k` divides grows after such a year. -/
theorem leapCount_succ (year k : Nat) :
    (year + (k + 1)) / (k + 1) = (year + k) / (k + 1) + if k + 1 ∣ year then 1 else 0 := by
  rw [← Nat.add_assoc, Nat.succ_div, Nat.add_assoc]
  simp only [Nat.dvd_add_self_right]

theorem yearStart_succ (year : Nat) :
    yearStart (year + 1) = yearStart year + monthStart year 12 := by
  have hmonths : monthStart year 12 = if isLeapYear year then 366 else 365 := by
    simp only [monthStart, daysInMonth]
    split
    · rfl
    · rfl
  have hfewer : (year + 99) / 100 ≤ (year + 3) / 4 := by omega
  have hcycle : 400 ∣ year → 100 ∣ year := Nat.dvd_trans (by decide)
  have hhundred : 100 ∣ year → 4 ∣ year := Nat.dvd_trans (by decide)
  rw [hmonths, yearStart, yearStart, Nat.add_assoc year 1 3, Nat.add_assoc year 1 99,
    Nat.add_assoc year 1 399, leapCount_succ year 3, leapCount_succ year 99,
    leapCount_succ year 399]
  simp only [isLeapYear_iff]
  generalize (year + 3) / 4 = fours at hfewer
  generalize (year + 99) / 100 = hundreds at hfewer
  generalize (year + 399) / 400 = cycles
  -- which of the three quotients of the rule grow
  by_cases hby4 : 4 ∣ year
  · by_cases hby100 : 100 ∣ year
    · by_cases hby400 : 400 ∣ year
      · simp only [hby4, hby100, hby400, if_true, true_and, or_true]
        omega
      · simp only [hby4, hby100, hby400, if_true, if_false, not_true, or_false, and_false]
        omega
    · have hby400 : ¬ 400 ∣ year := fun h => hby100 (hcycle h)
      simp only [hby4, hby100, hby400, if_true, if_false, not_false_iff, true_or, and_true]
      omega
  · have hby100 : ¬ 100 ∣ year := fun h => hby4 (hhundred h)
    have hby400 : ¬ 400 ∣ year := fun h => hby100 (hcycle h)
    simp only [hby4, hby100, hby400, if_false, false_and]
    omega

theorem yearStart_mono {m n : Nat} (h : m ≤ n) : yearStart m ≤ yearStart n := by
  induction n, h using Nat.le_induction with
  | base => exact Nat.le_refl _
  | succ n _ ih =>
    rw [yearStart_succ]
    exact ih.trans (Nat.le_add_right _ _)

/-- A day of the Gregorian calendar with a year of four digits. -/
structure CivilDate where
  year : Nat
  month : Nat
  day : Nat
  year_lt : year < 10000
  month_range : 1 ≤ month ∧ month ≤ 12
  day_range : 1 ≤ day ∧ day ≤ daysInMonth year month
deriving DecidableEq

namespace CivilDate

def before (a b : CivilDate) : Prop :=
  a.year < b.year ∨ a.year = b.year ∧ (a.month < b.month ∨ a.month = b.month ∧ a.day < b.day)

instance (a b : CivilDate) : Decidable (a.before b) :=
  inferInstanceAs (Decidable (a.year < b.year ∨ _))

/-- The days since the first of January of the year zero. -/
def dayNumber (d : CivilDate) : Nat :=
  yearStart d.year + monthStart d.year (d.month - 1) + (d.day - 1)

def chars (d : CivilDate) : List Char :=
  paddedDigits 4 d.year ++ '-' :: (paddedDigits 2 d.month ++ '-' :: paddedDigits 2 d.day)

theorem eq_iff (a b : CivilDate) :
    a = b ↔ a.year = b.year ∧ a.month = b.month ∧ a.day = b.day := by
  obtain ⟨y, m, d, hy, hm, hd⟩ := a
  obtain ⟨y', m', d', hy', hm', hd'⟩ := b
  simp

theorem before_trichotomy (a b : CivilDate) : a.before b ∨ a = b ∨ b.before a := by
  rw [eq_iff, before, before]
  omega

theorem before_irrefl (a : CivilDate) : ¬ a.before a := by
  unfold before
  omega

theorem before_asymm {a b : CivilDate} (h : a.before b) : ¬ b.before a := by
  unfold before at *
  omega

theorem day_le (d : CivilDate) : d.day ≤ 31 := by
  have hmonth : daysInMonth d.year d.month ≤ 31 := by
    unfold daysInMonth
    split
    · split
      · omega
      · omega
    all_goals omega
  exact d.day_range.2.trans hmonth

theorem dayNumber_lt {a b : CivilDate} (h : a.before b) : a.dayNumber < b.dayNumber := by
  obtain ⟨hone, hday⟩ := a.day_range
  obtain ⟨hfirst, hlast⟩ := a.month_range
  have hmonth : monthStart a.year (a.month - 1) + daysInMonth a.year a.month =
      monthStart a.year a.month := by
    obtain ⟨m, hm⟩ := Nat.exists_eq_add_of_le' hfirst
    rw [hm]
    rfl
  have hyear := monthStart_mono a.year hlast
  have hnext := yearStart_succ a.year
  unfold dayNumber
  rcases h with hlt | ⟨hsame, hlt | ⟨hsame', hlt⟩⟩
  · have hle := yearStart_mono (Nat.succ_le_of_lt hlt)
    rw [Nat.succ_eq_add_one] at hle
    omega
  · have hle := monthStart_mono a.year (Nat.le_sub_one_of_lt hlt)
    rw [← hsame]
    omega
  · rw [← hsame, ← hsame']
    omega

theorem charsLt_chars (a b : CivilDate) (as bs : List Char) :
    charsLt (a.chars ++ as) (b.chars ++ bs) = true ↔
      a.before b ∨ a = b ∧ charsLt as bs = true := by
  have hyear : ∀ d : CivilDate, d.year < 10 ^ 4 := fun d => d.year_lt
  have hmonth : ∀ d : CivilDate, d.month < 10 ^ 2 := by
    intro d
    exact Nat.lt_of_le_of_lt d.month_range.2 (by decide)
  have hday : ∀ d : CivilDate, d.day < 10 ^ 2 := by
    intro d
    exact Nat.lt_of_le_of_lt d.day_le (by decide)
  simp only [chars, List.append_assoc, List.cons_append]
  rw [charsLt_paddedDigits (hyear a) (hyear b), charsLt_cons_self,
    charsLt_paddedDigits (hmonth a) (hmonth b), charsLt_cons_self,
    charsLt_paddedDigits (hday a) (hday b), eq_iff, before]
  by_cases hrest : charsLt as bs = true
  · simp only [hrest, and_true]
    omega
  · simp only [hrest, Bool.false_eq_true, and_false, or_false]

end CivilDate

/-- A time of day; the second 60 is a leap second. -/
structure TimeOfDay where
  hour : Nat
  minute : Nat
  second : Nat
  hour_lt : hour < 24
  minute_lt : minute < 60
  second_le : second ≤ 60
deriving DecidableEq

namespace TimeOfDay

def before (a b : TimeOfDay) : Prop :=
  a.hour < b.hour ∨
    a.hour = b.hour ∧ (a.minute < b.minute ∨ a.minute = b.minute ∧ a.second < b.second)

instance (a b : TimeOfDay) : Decidable (a.before b) :=
  inferInstanceAs (Decidable (a.hour < b.hour ∨ _))

/-- The seconds since midnight; a leap second is the first second of the next minute. -/
def seconds (t : TimeOfDay) : Nat := 3600 * t.hour + 60 * t.minute + t.second

def chars (t : TimeOfDay) : List Char :=
  paddedDigits 2 t.hour ++ ':' :: (paddedDigits 2 t.minute ++ ':' :: paddedDigits 2 t.second)

theorem eq_iff (a b : TimeOfDay) :
    a = b ↔ a.hour = b.hour ∧ a.minute = b.minute ∧ a.second = b.second := by
  obtain ⟨h, m, s, hh, hm, hs⟩ := a
  obtain ⟨h', m', s', hh', hm', hs'⟩ := b
  simp

theorem before_trichotomy (a b : TimeOfDay) : a.before b ∨ a = b ∨ b.before a := by
  rw [eq_iff, before, before]
  omega

theorem before_irrefl (a : TimeOfDay) : ¬ a.before a := by
  unfold before
  omega

theorem before_asymm {a b : TimeOfDay} (h : a.before b) : ¬ b.before a := by
  unfold before at *
  omega

theorem charsLt_chars (a b : TimeOfDay) (as bs : List Char) :
    charsLt (a.chars ++ as) (b.chars ++ bs) = true ↔
      a.before b ∨ a = b ∧ charsLt as bs = true := by
  have hhour : ∀ t : TimeOfDay, t.hour < 10 ^ 2 := fun t => t.hour_lt.trans (by decide)
  have hminute : ∀ t : TimeOfDay, t.minute < 10 ^ 2 := fun t => t.minute_lt.trans (by decide)
  have hsecond : ∀ t : TimeOfDay, t.second < 10 ^ 2 := by
    intro t
    exact Nat.lt_of_le_of_lt t.second_le (by decide)
  simp only [chars, List.append_assoc, List.cons_append]
  rw [charsLt_paddedDigits (hhour a) (hhour b), charsLt_cons_self,
    charsLt_paddedDigits (hminute a) (hminute b), charsLt_cons_self,
    charsLt_paddedDigits (hsecond a) (hsecond b), eq_iff, before]
  by_cases hrest : charsLt as bs = true
  · simp only [hrest, and_true]
    omega
  · simp only [hrest, Bool.false_eq_true, and_false, or_false]

end TimeOfDay

/-! ### The clock -/

/-- What `CURRENT_TIMESTAMP` reads, in UTC. -/
structure UtcTime where
  date : CivilDate
  time : TimeOfDay
  no_leap : time.second < 60
deriving DecidableEq

namespace UtcTime

def instant (t : UtcTime) : ℚ := 86400 * t.date.dayNumber + t.time.seconds

def text (t : UtcTime) : String := String.ofList (t.date.chars ++ ' ' :: t.time.chars)

end UtcTime

/-! ### RFC 3339 -/

inductive DateTimeSeparator where
  | upper
  | lower
  | space
deriving DecidableEq

def DateTimeSeparator.char : DateTimeSeparator → Char
  | .upper => 'T'
  | .lower => 't'
  | .space => ' '

/-- `Z` or `z`, or hours and minutes ahead of UTC or behind it. -/
inductive TimeOffset where
  | zulu (upper : Bool)
  | numeric (ahead : Bool) (hour : Fin 24) (minute : Fin 60)
deriving DecidableEq

namespace TimeOffset

def seconds : TimeOffset → Int
  | .zulu _ => 0
  | .numeric true hour minute => 3600 * (hour : Nat) + 60 * (minute : Nat)
  | .numeric false hour minute => -(3600 * (hour : Nat) + 60 * (minute : Nat))

def chars : TimeOffset → List Char
  | .zulu upper => [if upper then 'Z' else 'z']
  | .numeric ahead hour minute =>
      (if ahead then '+' else '-') :: (paddedDigits 2 hour ++ ':' :: paddedDigits 2 minute)

theorem chars_ne_nil (o : TimeOffset) : o.chars ≠ [] := by
  cases o with
  | zulu upper => exact List.cons_ne_nil _ _
  | numeric ahead hour minute => exact List.cons_ne_nil _ _

end TimeOffset

/-- A text of RFC 3339, by its parts; without a fraction there is no point. -/
structure Rfc3339 where
  date : CivilDate
  separator : DateTimeSeparator
  time : TimeOfDay
  fraction : List (Fin 10)
  offset : TimeOffset
deriving DecidableEq

namespace Rfc3339

/-- The digits of a fraction of a second, as a number. -/
def fractionValue : List (Fin 10) → ℚ
  | [] => 0
  | digit :: digits => ((digit : Nat) + fractionValue digits) / 10

theorem fractionValue_range : ∀ digits : List (Fin 10),
    0 ≤ fractionValue digits ∧ fractionValue digits < 1
  | [] => ⟨le_refl 0, zero_lt_one⟩
  | digit :: digits => by
    obtain ⟨hnonneg, hlt⟩ := fractionValue_range digits
    have hdigit : ((digit : Nat) : ℚ) ≤ 9 := by
      exact_mod_cast Nat.le_of_lt_succ digit.isLt
    have hzero : (0 : ℚ) ≤ ((digit : Nat) : ℚ) := Nat.cast_nonneg _
    rw [fractionValue]
    constructor
    · linarith
    · linarith

/-- The instant a text denotes. -/
def instant (s : Rfc3339) : ℚ :=
  86400 * s.date.dayNumber + s.time.seconds + fractionValue s.fraction - s.offset.seconds

def fractionChars (fraction : List (Fin 10)) : List Char :=
  if fraction.isEmpty then [] else '.' :: fraction.flatMap fun digit => paddedDigits 1 digit

def text (s : Rfc3339) : String :=
  String.ofList (s.date.chars ++ s.separator.char ::
    (s.time.chars ++ (fractionChars s.fraction ++ s.offset.chars)))

/-- **The comparison of the two formats** looks at the date as it is written, and on
    the same date at the separator first. -/
theorem strLt_text (s : Rfc3339) (now : UtcTime) :
    strLt now.text s.text = true ↔ ¬ (s.date.before now.date ∨
      s.date = now.date ∧ s.separator = .space ∧ s.time.before now.time) := by
  rw [strLt, UtcTime.text, text, String.toList_ofList, String.toList_ofList,
    CivilDate.charsLt_chars]
  have hrest : fractionChars s.fraction ++ s.offset.chars ≠ [] :=
    List.append_ne_nil_of_right_ne_nil _ s.offset.chars_ne_nil
  -- a blank is less than a letter, and a text is less than a longer one
  have htime : charsLt (' ' :: now.time.chars) (s.separator.char :: (s.time.chars ++
      (fractionChars s.fraction ++ s.offset.chars))) = true ↔
        ¬ (s.separator = .space ∧ s.time.before now.time) := by
    cases hsep : s.separator with
    | upper => simp [DateTimeSeparator.char, charsLt]
    | lower => simp [DateTimeSeparator.char, charsLt]
    | space =>
      have hlonger : charsLt [] (fractionChars s.fraction ++ s.offset.chars) = true := by
        cases hchars : fractionChars s.fraction ++ s.offset.chars with
        | nil => exact absurd hchars hrest
        | cons c cs => rfl
      have hcompare := TimeOfDay.charsLt_chars now.time s.time []
        (fractionChars s.fraction ++ s.offset.chars)
      rw [List.append_nil, hlonger] at hcompare
      rw [DateTimeSeparator.char, charsLt_cons_self, hcompare]
      simp only [true_and, and_true]
      rcases TimeOfDay.before_trichotomy s.time now.time with hlt | heq | hgt
      · simp only [hlt, not_true_eq_false, iff_false, not_or]
        refine ⟨TimeOfDay.before_asymm hlt, ?_⟩
        intro heq
        rw [heq] at hlt
        exact TimeOfDay.before_irrefl _ hlt
      · rw [heq]
        simp [TimeOfDay.before_irrefl]
      · simp [hgt, TimeOfDay.before_asymm hgt]
  rw [htime]
  rcases CivilDate.before_trichotomy s.date now.date with hlt | heq | hgt
  · have hne : now.date ≠ s.date := by
      intro heq
      rw [heq] at hlt
      exact CivilDate.before_irrefl _ hlt
    simp [hlt, CivilDate.before_asymm hlt, hne]
  · simp [heq, CivilDate.before_irrefl]
  · have hne : s.date ≠ now.date := by
      intro heq
      rw [heq] at hgt
      exact CivilDate.before_irrefl _ hgt
    simp [hgt, CivilDate.before_asymm hgt, hne]

end Rfc3339

end Peanut
