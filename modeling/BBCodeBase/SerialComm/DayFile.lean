import BBCodeBase.Foundation.Decimal

/-!
# The file of a day

The name under which `onTimer` opens the file of the current day: year, month
and day run together, each with as many digits as it has.
-/

namespace BBCodeBase.SerialComm

/-! ## Dates -/

def isLeap (year : Nat) : Bool := year % 4 == 0 && (year % 100 != 0 || year % 400 == 0)

def daysInMonth (year : Nat) : Nat → Nat
  | 2 => if isLeap year then 29 else 28
  | 4 | 6 | 9 | 11 => 30
  | _ => 31

structure Date where
  year : Nat
  month : Nat
  day : Nat
  year_ge : 1900 ≤ year
  month_pos : 1 ≤ month
  month_le : month ≤ 12
  day_pos : 1 ≤ day
  day_le : day ≤ daysInMonth year month
  deriving DecidableEq

theorem daysInMonth_le (year month : Nat) : daysInMonth year month ≤ 31 := by
  unfold daysInMonth
  split
  · split <;> decide
  all_goals decide

theorem Date.day_le_thirtyOne (date : Date) : date.day ≤ 31 :=
  Nat.le_trans date.day_le (daysInMonth_le _ _)

theorem Date.eq_iff {first second : Date} : first = second ↔
    first.year = second.year ∧ first.month = second.month ∧ first.day = second.day := by
  cases first
  cases second
  simp

/-! ## The name of the file -/

/-- The fields of `struct tm` that the name is made of. -/
structure Tm where
  tmYear : Nat
  tmMon : Nat
  tmMday : Nat
  deriving DecidableEq, Repr

def Date.localtime (date : Date) : Tm := ⟨date.year - 1900, date.month - 1, date.day⟩

def dayDigits (tm : Tm) : List Char :=
  Decimal.digits (tm.tmYear + 1900) ++ Decimal.digits (tm.tmMon + 1) ++
    Decimal.digits tm.tmMday

/-- `sprintf(file, "host01/%d%d%d.txt", ...)` -/
def dayFile (tm : Tm) : List Char :=
  "host01/".toList ++ dayDigits tm ++ ".txt".toList

def monthNumber (date : Date) : Nat :=
  date.year * Decimal.scale date.month + date.month

def dayNumber (date : Date) : Nat :=
  monthNumber date * Decimal.scale date.day + date.day

theorem dayDigits_localtime (date : Date) :
    dayDigits date.localtime = Decimal.digits (dayNumber date) := by
  have hge := date.year_ge
  have hpos : 0 < date.year := by omega
  have hyear : date.localtime.tmYear + 1900 = date.year := Nat.sub_add_cancel hge
  have hmonth : date.localtime.tmMon + 1 = date.month :=
    Nat.sub_add_cancel date.month_pos
  rw [dayDigits, hyear, hmonth]
  exact Decimal.digits_append_append hpos date.month date.day

theorem dayFile_eq_iff (first second : Date) :
    dayFile first.localtime = dayFile second.localtime ↔
      dayNumber first = dayNumber second := by
  unfold dayFile
  rw [List.append_left_inj, List.append_right_inj, dayDigits_localtime,
    dayDigits_localtime, Decimal.digits_injective.eq_iff]

/-! ## Days with one name -/

/--
The digits of the two dates run into one another: the first digit of a month
belongs to the year, the last digit of a month to the day, or both.
-/
def Date.RunsInto (first second : Date) : Prop :=
  first.year = 10 * second.year + 1 ∧ second.month = 10 + first.month ∧
      second.day = first.day ∨
    first.day < 10 ∧ second.day = 10 * first.month + first.day ∧
      first.year =
        second.year * (if second.month < 10 then 10 else 100) + second.month ∨
    first.day < 10 ∧ 10 < first.month ∧
      second.day = 10 * (first.month - 10) + first.day ∧
      (first.year = second.year ∧ second.month = 1 ∨
        first.year = 10 * second.year + 1 ∧ second.month = 11)

instance (first second : Date) : Decidable (first.RunsInto second) := by
  unfold Date.RunsInto
  infer_instance

def Date.Confusable (first second : Date) : Prop :=
  first.RunsInto second ∨ second.RunsInto first

section

variable (first second : Date)

theorem monthNumber_eq (date : Date) :
    monthNumber date =
      date.year * (if date.month < 10 then 10 else 100) + date.month := by
  have := date.month_le
  rw [monthNumber, Decimal.scale_eq (by omega)]

theorem monthNumber_eq_iff : monthNumber first = monthNumber second ↔
    first.year = second.year ∧ first.month = second.month ∨
      first.year = 10 * second.year + 1 ∧ second.month = 10 + first.month ∨
      second.year = 10 * first.year + 1 ∧ first.month = 10 + second.month := by
  have := first.month_le
  have := second.month_le
  rw [monthNumber_eq, monthNumber_eq]
  split <;> split <;> omega

/-- What the last digit of a month makes of a date with a day below ten. -/
theorem monthNumber_eq_append_iff {digit : Nat} (hpos : 1 ≤ digit) (hdigit : digit ≤ 3) :
    monthNumber first = monthNumber second * 10 + digit ↔
      first.month = digit ∧ first.year = monthNumber second ∨
        first.month = 10 + digit ∧
          (first.year = second.year ∧ second.month = 1 ∨
            first.year = 10 * second.year + 1 ∧ second.month = 11) := by
  have := first.month_le
  have := first.month_pos
  have := second.month_le
  have := second.month_pos
  rw [monthNumber_eq, monthNumber_eq]
  split <;> split <;> omega

end

theorem dayNumber_eq (date : Date) :
    dayNumber date =
      monthNumber date * (if date.day < 10 then 10 else 100) + date.day := by
  have := date.day_le_thirtyOne
  rw [dayNumber, Decimal.scale_eq (by omega)]

theorem Date.runsInto_iff_of_width {first second : Date}
    (hwidth : first.day < 10 ↔ second.day < 10) :
    first.RunsInto second ↔ first.year = 10 * second.year + 1 ∧
      second.month = 10 + first.month ∧ second.day = first.day := by
  have := first.month_pos
  constructor
  · rintro (hmonth | hlonger | hlonger)
    · exact hmonth
    · omega
    · omega
  · exact fun h => .inl h

/-- Days of one width agree, and so do the digits before them. -/
theorem dayNumber_eq_of_width {first second : Date}
    (hwidth : first.day < 10 ↔ second.day < 10) :
    dayNumber first = dayNumber second ↔ first = second ∨ first.Confusable second := by
  have hfirst := first.day_le_thirtyOne
  have hsecond := second.day_le_thirtyOne
  have hquotient : dayNumber first = dayNumber second ↔
      first.day = second.day ∧ monthNumber first = monthNumber second := by
    rw [dayNumber_eq, dayNumber_eq]
    split <;> split <;> omega
  rw [hquotient, monthNumber_eq_iff, Date.eq_iff, Date.Confusable,
    Date.runsInto_iff_of_width hwidth, Date.runsInto_iff_of_width hwidth.symm]
  omega

/-- The last digits agree; the tens of the longer day end the shorter date's month. -/
theorem dayNumber_eq_of_short {first second : Date} (hfirst : first.day < 10)
    (hsecond : 10 ≤ second.day) :
    dayNumber first = dayNumber second ↔ first.RunsInto second := by
  have hday := second.day_le_thirtyOne
  have hmonth := first.month_le
  have hquotient : dayNumber first = dayNumber second ↔
      first.day = second.day % 10 ∧
        monthNumber first = monthNumber second * 10 + second.day / 10 := by
    rw [dayNumber_eq, dayNumber_eq, if_pos hfirst, if_neg (by omega)]
    omega
  rw [hquotient, monthNumber_eq_append_iff first second (by omega) (by omega),
    monthNumber_eq second]
  unfold Date.RunsInto
  omega

theorem Date.RunsInto.day_le {first second : Date} (h : first.RunsInto second) :
    first.day ≤ second.day := by
  have := first.month_pos
  unfold Date.RunsInto at h
  omega

theorem dayNumber_eq_iff (first second : Date) :
    dayNumber first = dayNumber second ↔ first = second ∨ first.Confusable second := by
  by_cases hfirst : first.day < 10 <;> by_cases hsecond : second.day < 10
  · exact dayNumber_eq_of_width (iff_of_true hfirst hsecond)
  · rw [dayNumber_eq_of_short hfirst (Nat.le_of_not_lt hsecond)]
    constructor
    · exact fun hinto => .inr (.inl hinto)
    · rintro (rfl | hinto | hinto)
      · exact absurd hfirst hsecond
      · exact hinto
      · exact absurd (Nat.lt_of_le_of_lt hinto.day_le hfirst) hsecond
  · rw [eq_comm, dayNumber_eq_of_short hsecond (Nat.le_of_not_lt hfirst)]
    constructor
    · exact fun hinto => .inr (.inr hinto)
    · rintro (rfl | hinto | hinto)
      · exact absurd hsecond hfirst
      · exact absurd (Nat.lt_of_le_of_lt hinto.day_le hsecond) hfirst
      · exact hinto
  · exact dayNumber_eq_of_width (iff_of_false hfirst hsecond)

theorem Date.Confusable.ne {first second : Date} (h : first.Confusable second) :
    first ≠ second := by
  rintro rfl
  rw [Date.Confusable, or_self, Date.runsInto_iff_of_width Iff.rfl] at h
  omega

theorem dayFile_injective_iff (first second : Date) :
    (dayFile first.localtime = dayFile second.localtime → first = second) ↔
      ¬ first.Confusable second := by
  rw [dayFile_eq_iff, dayNumber_eq_iff]
  constructor
  · intro hsame hconfusable
    exact hconfusable.ne (hsame (.inr hconfusable))
  · intro hnot hsame
    exact hsame.resolve_right hnot

def januaryEleventh : Date :=
  ⟨2011, 1, 11, by decide, by decide, by decide, by decide, by decide⟩

def novemberFirst : Date :=
  ⟨2011, 11, 1, by decide, by decide, by decide, by decide, by decide⟩

/-- Both days have the file `host01/2011111.txt`. -/
theorem dayFile_twoDays : ¬ ∀ first second : Date,
    dayFile first.localtime = dayFile second.localtime → first = second := by
  intro hinjective
  have hsame : dayFile januaryEleventh.localtime = dayFile novemberFirst.localtime := by
    decide
  exact absurd (hinjective _ _ hsame) (by decide)

end BBCodeBase.SerialComm
