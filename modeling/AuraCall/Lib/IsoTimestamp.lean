import Mathlib.Data.List.Basic
import Mathlib.Data.List.Lex
import Mathlib.Data.Rat.Defs
import Mathlib.Algebra.Order.Field.Rat
import Mathlib.Tactic.Linarith
import Mathlib.Tactic.Positivity

/-!
# The order of timestamps and of their texts

A timestamp is a date and a time of day at an offset from UTC, written `YYYY-MM-DDThh:mm:ss`, a fraction with any number of
digits, and `Z` or the offset. Of two timestamps in one form, that is with one offset and as many digits, the texts are in the
order of the instants (`units_le_iff`): the fields are written from the largest unit to the smallest, each at a fixed width.
-/

namespace IsoTimestamp

/-! ## Fields of digits -/

/-- The last `width` decimal digits of a number, as character codes. -/
def digits : Nat → Nat → List Nat
  | 0, _ => []
  | width + 1, n => digits width (n / 10) ++ [48 + n % 10]

@[simp] theorem length_digits : ∀ width n, (digits width n).length = width
  | 0, _ => rfl
  | width + 1, n => by simp [digits, length_digits width]

theorem append_lt_append_iff : ∀ {a a' b b' : List Nat}, a.length = a'.length →
    (a ++ b < a' ++ b' ↔ a < a' ∨ a = a' ∧ b < b')
  | [], [], _, _, _ => by simp
  | x :: a, y :: a', b, b', h => by
    simp only [List.cons_append, List.cons_lt_cons_iff, append_lt_append_iff (Nat.succ.inj h), List.cons.injEq]
    tauto

theorem digits_inj : ∀ {width n m : Nat}, n < 10 ^ width → m < 10 ^ width → digits width n = digits width m → n = m
  | 0, n, m, hn, hm, _ => by simp at hn hm; omega
  | width + 1, n, m, hn, hm, h => by
    obtain ⟨hinit, hlast⟩ := List.append_inj' h rfl
    have hdiv : n / 10 = m / 10 := digits_inj (by omega) (by omega) hinit
    simp only [List.cons.injEq, and_true] at hlast
    omega

theorem digits_lt_iff : ∀ {width n m : Nat}, n < 10 ^ width → m < 10 ^ width →
    (digits width n < digits width m ↔ n < m)
  | 0, n, m, hn, hm => by simp at hn hm; simp [digits, hn, hm]
  | width + 1, n, m, hn, hm => by
    rw [digits, digits, append_lt_append_iff (by simp), digits_lt_iff (by omega) (by omega), List.cons_lt_cons_iff]
    constructor
    · rintro (h | ⟨h, h' | ⟨-, h'⟩⟩)
      · omega
      · have := digits_inj (by omega) (by omega) h
        omega
      · exact absurd h' (List.not_lt_nil _)
    · intro h
      by_cases hdiv : n / 10 < m / 10
      · exact .inl hdiv
      · have heq : n / 10 = m / 10 := by omega
        exact .inr ⟨by rw [heq], .inl (by omega)⟩

/-- Numbers in fields, each after a separator and at a width, and what is written after them. -/
def render : List (List Nat × Nat) → List Nat → List Nat → List Nat
  | (separator, width) :: form, value :: values, tail => separator ++ (digits width value ++ render form values tail)
  | _, _, tail => tail

/-- The values fit their fields. -/
abbrev Fits (form : List (List Nat × Nat)) (values : List Nat) : Prop :=
  List.Forall₂ (fun field value => value < 10 ^ field.2) form values

theorem render_lt_iff {form : List (List Nat × Nat)} {values values' : List Nat} (tail : List Nat)
    (h : Fits form values) (h' : Fits form values') :
    render form values tail < render form values' tail ↔ values < values' := by
  induction h generalizing values' with
  | nil =>
    cases h'
    exact iff_of_false (List.lt_irrefl _) (List.lt_irrefl _)
  | @cons field value form values hv _ ih =>
    obtain _ | ⟨hv', hr'⟩ := h'
    rw [render, render, append_lt_append_iff rfl, append_lt_append_iff (by simp), digits_lt_iff hv hv', ih hr',
      List.cons_lt_cons_iff]
    constructor
    · rintro (hs | ⟨-, hlt | ⟨heq, hlt⟩⟩)
      · exact absurd hs (List.lt_irrefl _)
      · exact .inl hlt
      · exact .inr ⟨digits_inj hv hv' heq, hlt⟩
    · rintro (hlt | ⟨rfl, hlt⟩)
      · exact .inr ⟨rfl, .inl hlt⟩
      · exact .inr ⟨rfl, .inr ⟨rfl, hlt⟩⟩

/-! ## The calendar -/

def isLeap (year : Nat) : Bool := year % 4 == 0 && (year % 100 != 0 || year % 400 == 0)

/-- The days of the months, and the days before them, in a year that is no leap year. -/
def monthTable : List (Nat × Nat) :=
  [(31, 0), (28, 31), (31, 59), (30, 90), (31, 120), (30, 151), (31, 181), (31, 212), (30, 243), (31, 273), (30, 304),
    (31, 334)]

def daysInMonth (leap : Bool) (month : Nat) : Nat :=
  (monthTable.getD (month - 1) (0, 0)).1 + if leap && month == 2 then 1 else 0

def daysBeforeMonth (leap : Bool) (month : Nat) : Nat :=
  (monthTable.getD (month - 1) (0, 0)).2 + if leap && decide (2 < month) then 1 else 0

/-- The days between the first day of year zero and the first day of the year. -/
def daysBeforeYear (year : Nat) : Nat := 365 * year + (year + 3) / 4 + (year + 399) / 400 - (year + 99) / 100

def dayNumber (year month day : Nat) : Nat := daysBeforeYear year + daysBeforeMonth (isLeap year) month + (day - 1)

theorem daysBeforeYear_succ (year : Nat) :
    daysBeforeYear (year + 1) = daysBeforeYear year + if isLeap year then 366 else 365 := by
  -- how many years before this one a number divides
  have hfour : (year + 1 + 3) / 4 = (year + 3) / 4 + if year % 4 = 0 then 1 else 0 := by split <;> omega
  have hhundred : (year + 1 + 99) / 100 = (year + 99) / 100 + if year % 100 = 0 then 1 else 0 := by split <;> omega
  have hcycle : (year + 1 + 399) / 400 = (year + 399) / 400 + if year % 400 = 0 then 1 else 0 := by split <;> omega
  unfold daysBeforeYear isLeap
  rw [hfour, hhundred, hcycle]
  by_cases h4 : year % 4 = 0 <;> by_cases h100 : year % 100 = 0 <;> by_cases h400 : year % 400 = 0 <;>
    simp [h4, h100, h400] <;> omega

theorem daysBeforeYear_lt {year year' : Nat} (h : year < year') :
    daysBeforeYear year + (if isLeap year then 366 else 365) ≤ daysBeforeYear year' := by
  rw [← daysBeforeYear_succ]
  exact monotone_nat_of_le_succ (fun y => daysBeforeYear_succ y ▸ Nat.le_add_right _ _) h

theorem daysBeforeMonth_lt (leap : Bool) : ∀ month < 13, 1 ≤ month → ∀ month' < 13, month < month' →
    daysBeforeMonth leap month + daysInMonth leap month ≤ daysBeforeMonth leap month' := by
  cases leap <;> decide

theorem daysBeforeMonth_year (leap : Bool) : ∀ month < 13, 1 ≤ month →
    daysBeforeMonth leap month + daysInMonth leap month ≤ if leap then 366 else 365 := by
  cases leap <;> decide

/-- The date is in the calendar. -/
structure IsDate (year month day : Nat) : Prop where
  year_lt : year < 10000
  month_mem : 1 ≤ month ∧ month ≤ 12
  day_mem : 1 ≤ day ∧ day ≤ daysInMonth (isLeap year) month

/-- **A later date has a larger number.** -/
theorem dayNumber_lt {year month day year' month' day' : Nat} (h : IsDate year month day) (h' : IsDate year' month' day')
    (hlt : year < year' ∨ year = year' ∧ (month < month' ∨ month = month' ∧ day < day')) :
    dayNumber year month day < dayNumber year' month' day' := by
  obtain ⟨-, ⟨hm, hm'⟩, hd, hd'⟩ := h
  obtain ⟨-, ⟨hn, hn'⟩, he, he'⟩ := h'
  unfold dayNumber
  rcases hlt with hyear | ⟨rfl, hmonth | ⟨rfl, hday⟩⟩
  · have hbefore := daysBeforeYear_lt hyear
    have hyear := daysBeforeMonth_year (isLeap year) month (by omega) hm
    omega
  · have hmonth := daysBeforeMonth_lt (isLeap year) month (by omega) hm month' (by omega) hmonth
    omega
  · omega

end IsoTimestamp

/-! ## Timestamps -/

/-- The offset of a clock from UTC. -/
inductive IsoZone
  | utc
  | offset (negative : Bool) (hours minutes : Nat)
  deriving DecidableEq

namespace IsoZone

def units : IsoZone → List Nat
  | utc => [90]
  | offset negative hours minutes =>
    (if negative then 45 else 43) :: (IsoTimestamp.digits 2 hours ++ 58 :: IsoTimestamp.digits 2 minutes)

/-- The offset in seconds. -/
def seconds : IsoZone → Int
  | utc => 0
  | offset negative hours minutes => (if negative then -60 else 60) * (60 * hours + minutes)

end IsoZone

/-- A date and a time of day at an offset, with a fraction of a second of `precision` digits. -/
structure IsoTimestamp where
  year : Nat
  month : Nat
  day : Nat
  hour : Nat
  minute : Nat
  second : Nat
  precision : Nat
  fraction : Nat
  zone : IsoZone
  date : IsoTimestamp.IsDate year month day
  hour_lt : hour < 24
  minute_lt : minute < 60
  second_lt : second < 60
  fraction_lt : fraction < 10 ^ precision

namespace IsoTimestamp

variable (t u : IsoTimestamp)

/-- The fields of a timestamp with so many digits in the fraction: `-`, `-`, `T`, `:`, `:` and `.` separate them. -/
def form (precision : Nat) : List (List Nat × Nat) :=
  [([], 4), ([45], 2), ([45], 2), ([84], 2), ([58], 2), ([58], 2), (if precision = 0 then [] else [46], precision)]

def values : List Nat := [t.year, t.month, t.day, t.hour, t.minute, t.second, t.fraction]

/-- The text of a timestamp, as character codes. -/
def units : List Nat := render (form t.precision) t.values t.zone.units

/-- The seconds since the first day of year zero, without the fraction, on the clock of the timestamp. -/
def clockSeconds : Nat := ((dayNumber t.year t.month t.day * 24 + t.hour) * 60 + t.minute) * 60 + t.second

/-- The instant a timestamp denotes, in seconds since 1970. -/
def instant : ℚ := (t.clockSeconds - 62167219200 - t.zone.seconds : Int) + t.fraction / 10 ^ t.precision

/-- One offset, and as many digits. -/
def SameForm : Prop := t.precision = u.precision ∧ t.zone = u.zone

theorem fits : Fits (form t.precision) t.values := by
  have hdays : daysInMonth (isLeap t.year) t.month ≤ 31 := by
    obtain ⟨-, ⟨hm, hm'⟩, -⟩ := t.date
    have : ∀ leap, ∀ month < 13, 1 ≤ month → daysInMonth leap month ≤ 31 := by decide
    exact this _ _ (by omega) hm
  obtain ⟨hy, hm, hd⟩ := t.date
  have hh := t.hour_lt
  have hmi := t.minute_lt
  have hs := t.second_lt
  refine .cons ?_ (.cons ?_ (.cons ?_ (.cons ?_ (.cons ?_ (.cons ?_ (.cons t.fraction_lt .nil)))))) <;> simp only <;> omega

variable {t u}

/-- A number whose last digit is below the radix is smaller when its leading part is, or its last digit after the same one. -/
theorem radix_lt {lead lead' digit digit' radix : Nat} (hdigit : digit < radix)
    (h : lead < lead' ∨ lead = lead' ∧ digit < digit') : lead * radix + digit < lead' * radix + digit' := by
  rcases h with h | ⟨rfl, h⟩
  · calc lead * radix + digit < lead * radix + radix := Nat.add_lt_add_left hdigit _
      _ = (lead + 1) * radix := (Nat.succ_mul lead radix).symm
      _ ≤ lead' * radix := Nat.mul_le_mul_right radix h
      _ ≤ lead' * radix + digit' := Nat.le_add_right _ _
  · exact Nat.add_lt_add_left h _

theorem instant_lt_of_values_lt (h : SameForm t u) (hlt : t.values < u.values) : t.instant < u.instant := by
  obtain ⟨hprecision, hzone⟩ := h
  have hdate := dayNumber_lt t.date u.date
  -- the clock is a number in mixed radix, whose digits are the day, the hour, the minute and the second
  have hday : dayNumber t.year t.month t.day < dayNumber u.year u.month u.day ∨
      dayNumber t.year t.month t.day = dayNumber u.year u.month u.day ∧ (t.hour < u.hour ∨ t.hour = u.hour ∧
        (t.minute < u.minute ∨ t.minute = u.minute ∧ (t.second < u.second ∨ t.second = u.second ∧
          t.fraction < u.fraction))) := by
    simp only [values, List.cons_lt_cons_iff, List.not_lt_nil, and_false, or_false] at hlt
    rcases hlt with hy | ⟨hy, hm | ⟨hm, hd | ⟨hd, hrest⟩⟩⟩
    · exact .inl (hdate (.inl hy))
    · exact .inl (hdate (.inr ⟨hy, .inl hm⟩))
    · exact .inl (hdate (.inr ⟨hy, .inr ⟨hm, hd⟩⟩))
    · exact .inr ⟨by rw [hy, hm, hd], hrest⟩
  have hclock : t.clockSeconds < u.clockSeconds ∨ t.clockSeconds = u.clockSeconds ∧ t.fraction < u.fraction := by
    unfold clockSeconds
    rcases hday with hday | ⟨hday, hhour | ⟨hhour, hminute | ⟨hminute, hsecond | ⟨hsecond, hfraction⟩⟩⟩⟩
    · exact .inl (radix_lt t.second_lt (.inl (radix_lt t.minute_lt (.inl (radix_lt t.hour_lt (.inl hday))))))
    · exact .inl (radix_lt t.second_lt (.inl (radix_lt t.minute_lt (.inl (radix_lt t.hour_lt (.inr ⟨hday, hhour⟩))))))
    · exact .inl (radix_lt t.second_lt (.inl (radix_lt t.minute_lt (.inr ⟨by rw [hday, hhour], hminute⟩))))
    · exact .inl (radix_lt t.second_lt (.inr ⟨by rw [hday, hhour, hminute], hsecond⟩))
    · exact .inr ⟨by rw [hday, hhour, hminute, hsecond], hfraction⟩
  have hone : (t.fraction : ℚ) / 10 ^ t.precision < 1 := by
    rw [div_lt_one (by positivity)]
    exact_mod_cast t.fraction_lt
  have hzero : (0 : ℚ) ≤ u.fraction / 10 ^ u.precision := by positivity
  unfold instant
  rw [hzone]
  rcases hclock with hclock | ⟨hclock, hfraction⟩
  · have : (t.clockSeconds : ℚ) + 1 ≤ u.clockSeconds := by exact_mod_cast hclock
    push_cast
    linarith
  · have : (t.fraction : ℚ) / 10 ^ t.precision < u.fraction / 10 ^ u.precision := by
      rw [hprecision]
      exact div_lt_div_of_pos_right (by exact_mod_cast hfraction) (by positivity)
    rw [hclock]
    linarith

theorem instant_eq_of_values_eq (h : SameForm t u) (heq : t.values = u.values) : t.instant = u.instant := by
  simp only [values, List.cons.injEq, and_true] at heq
  obtain ⟨hy, hm, hd, hh, hmi, hs, hf⟩ := heq
  unfold instant clockSeconds
  rw [hy, hm, hd, hh, hmi, hs, hf, h.1, h.2]

/-- **In one form, the texts are in the order of the instants.** -/
theorem units_le_iff (h : SameForm t u) : t.units ≤ u.units ↔ t.instant ≤ u.instant := by
  have hunits : u.units < t.units ↔ u.values < t.values := by
    unfold units
    rw [h.1, h.2]
    exact render_lt_iff _ u.fits (h.1 ▸ t.fits)
  rw [← not_lt, ← not_lt, hunits, not_iff_not]
  refine ⟨instant_lt_of_values_lt ⟨h.1.symm, h.2.symm⟩, fun hlt => ?_⟩
  rcases lt_trichotomy u.values t.values with hv | hv | hv
  · exact hv
  · exact absurd (instant_eq_of_values_eq h hv.symm) hlt.ne'
  · exact absurd (instant_lt_of_values_lt h hv) hlt.not_gt

/-! ## ASCII -/

theorem mem_digits_lt {c : Nat} : ∀ {width n : Nat}, c ∈ digits width n → c < 128
  | width + 1, n, h => by
    rcases List.mem_append.1 h with h | h
    · exact mem_digits_lt h
    · have := List.mem_singleton.1 h
      omega

theorem mem_render_lt {c : Nat} {tail : List Nat} (htail : ∀ c ∈ tail, c < 128) :
    ∀ {form : List (List Nat × Nat)} {values : List Nat}, (∀ field ∈ form, ∀ c ∈ field.1, c < 128) →
      c ∈ render form values tail → c < 128
  | [], _, _, h => htail c (by simpa [render] using h)
  | _ :: _, [], _, h => htail c (by simpa [render] using h)
  | (separator, width) :: form, value :: values, hform, h => by
    rcases List.mem_append.1 h with h | h
    · exact hform _ List.mem_cons_self c h
    rcases List.mem_append.1 h with h | h
    · exact mem_digits_lt h
    · exact mem_render_lt htail (fun field hm => hform field (List.mem_cons_of_mem _ hm)) h

theorem mem_units_lt {c : Nat} (h : c ∈ t.units) : c < 128 := by
  refine mem_render_lt (fun c hc => ?_) (fun field hm c hc => ?_) h
  · cases hzone : t.zone with
    | utc =>
      rw [hzone] at hc
      have := List.mem_singleton.1 hc
      omega
    | offset negative hours minutes =>
      simp only [hzone, IsoZone.units, List.mem_cons, List.mem_append] at hc
      rcases hc with rfl | hc | rfl | hc
      · split <;> omega
      · exact mem_digits_lt hc
      · omega
      · exact mem_digits_lt hc
  · have : ∀ precision, ∀ field ∈ form precision, ∀ c ∈ field.1, c < 128 := by
      intro precision
      unfold form
      split <;> simp
    exact this _ field hm c hc

/-- The text of a timestamp. -/
def text (t : IsoTimestamp) : String := String.ofList (t.units.map Char.ofNat)

end IsoTimestamp
