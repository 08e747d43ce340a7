import SibylMemory.Outbox.Model
import SibylMemory.Library.Blocks
import SibylMemory.Library.FixedWidth

/-!
# Timestamps (`outbox.py:197-202`)

An instant of `datetime` in UTC, the text that `_timestamp` stores for it, and the order in which
SQLite compares such texts: byte by byte in UTF-8.
-/

namespace SibylMemory.Outbox
open FixedWidth

/-! ### The calendar -/

def isLeap (year : Nat) : Bool := decide (year % 4 = 0 ∧ (year % 100 ≠ 0 ∨ year % 400 = 0))

def daysInYear (year : Nat) : Nat := if isLeap year then 366 else 365

def daysInMonth (year month : Nat) : Nat :=
  if month = 2 then if isLeap year then 29 else 28
  else if month = 4 ∨ month = 6 ∨ month = 9 ∨ month = 11 then 30
  else 31

structure DateFields where
  year : Nat
  month : Nat
  day : Nat
  hour : Nat
  minute : Nat
  second : Nat
  microsecond : Nat
  deriving DecidableEq

/-- The checks of the constructor of `datetime`. -/
def DateFields.Valid (f : DateFields) : Prop :=
  (1 ≤ f.year ∧ f.year ≤ 9999) ∧ (1 ≤ f.month ∧ f.month ≤ 12) ∧
    (1 ≤ f.day ∧ f.day ≤ daysInMonth f.year f.month) ∧ f.hour < 24 ∧ f.minute < 60 ∧ f.second < 60 ∧
    f.microsecond < 1000000

instance (f : DateFields) : Decidable f.Valid := by unfold DateFields.Valid; infer_instance

/-- A `datetime` with the time zone UTC. -/
structure DateTime extends DateFields where
  valid : toDateFields.Valid

/-! ### Instants -/

/-- The days in front of a date, counted from 0001-01-01. -/
def DateFields.ordinal (f : DateFields) : Nat :=
  Blocks.before (fun i => daysInYear (i + 1)) (f.year - 1) +
    (Blocks.before (fun i => daysInMonth f.year (i + 1)) (f.month - 1) + (f.day - 1))

def MICROSECONDS_PER_DAY : Nat := 86400000000

def DateFields.timeOfDay (f : DateFields) : Nat :=
  ((f.hour * 60 + f.minute) * 60 + f.second) * 1000000 + f.microsecond

def DateTime.instant (d : DateTime) : Instant :=
  (d.ordinal * MICROSECONDS_PER_DAY + d.timeOfDay : Nat)

def DateTime.ofFields (f : DateFields) : Option DateTime :=
  if h : f.Valid then some ⟨f, h⟩ else none

/-- The date with so many days in front of it. -/
def dateOf (days : Nat) : Option (Nat × Nat × Nat) := do
  let (year, dayOfYear) ← Blocks.locate (fun i => daysInYear (i + 1)) 9999 0 days
  let (month, day) ← Blocks.locate (fun i => daysInMonth (year + 1) (i + 1)) 12 0 dayOfYear
  return (year + 1, month + 1, day + 1)

/-- The inverse of `instant`; `none` where `datetime` overflows. -/
def DateTime.ofInstant (i : Instant) : Option DateTime :=
  if i < 0 then none
  else do
    let time := i.toNat % MICROSECONDS_PER_DAY
    let (year, month, day) ← dateOf (i.toNat / MICROSECONDS_PER_DAY)
    DateTime.ofFields ⟨year, month, day, time / 3600000000, time / 60000000 % 60, time / 1000000 % 60,
      time % 1000000⟩

/-- `value + timedelta(…)` -/
def DateTime.add (d : DateTime) (microseconds : Int) : Option DateTime :=
  DateTime.ofInstant (d.instant + microseconds)

/-! ### Texts -/

def pad (width n : Nat) : List Char := digits 10 Nat.digitChar width n

/-- `_timestamp`: `value.isoformat(timespec="microseconds")` in UTC. -/
def timestamp (d : DateTime) : String :=
  String.ofList (pad 4 d.year ++ '-' :: (pad 2 d.month ++ '-' :: (pad 2 d.day ++ 'T' ::
    (pad 2 d.hour ++ ':' :: (pad 2 d.minute ++ ':' :: (pad 2 d.second ++ '.' ::
      (pad 6 d.microsecond ++ "+00:00".toList)))))))

def digitValue (c : Char) : Option Nat := if c.isDigit then some (c.toNat - 48) else none

/-- A field of so many digits, and what is behind it. -/
def readField (width : Nat) (cs : List Char) : Option (Nat × List Char) :=
  if width ≤ cs.length then
    (readDigits 10 digitValue 0 (cs.take width)).map fun n => (n, cs.drop width)
  else none

def expect (c : Char) : List Char → Option (List Char)
  | [] => none
  | c' :: cs => if c' = c then some cs else none

/-- `datetime.fromisoformat` on the one of its formats that `_timestamp` writes. -/
def fromisoformat (text : String) : Option DateTime := do
  let (year, cs) ← readField 4 text.toList
  let (month, cs) ← readField 2 (← expect '-' cs)
  let (day, cs) ← readField 2 (← expect '-' cs)
  let (hour, cs) ← readField 2 (← expect 'T' cs)
  let (minute, cs) ← readField 2 (← expect ':' cs)
  let (second, cs) ← readField 2 (← expect ':' cs)
  let (microsecond, cs) ← readField 6 (← expect '.' cs)
  if cs = "+00:00".toList then DateTime.ofFields ⟨year, month, day, hour, minute, second, microsecond⟩
  else none

/-! ### Comparison -/

/-- The text as SQLite stores it. -/
def utf8Bytes (s : String) : List UInt8 := s.toList.flatMap String.utf8EncodeChar

/-- `<` on two columns of type TEXT. -/
def textLt (s t : String) : Bool := decide (utf8Bytes s < utf8Bytes t)

/-- `<=` on two columns of type TEXT. -/
def textLe (s t : String) : Bool := !textLt t s

/-! ### Chronological order -/

section Order
variable {a b d : DateTime}

/-- The order of the fields from the left. -/
def DateFields.Before (f g : DateFields) : Prop :=
  f.year < g.year ∨ f.year = g.year ∧ (f.month < g.month ∨ f.month = g.month ∧ (f.day < g.day ∨
    f.day = g.day ∧ (f.hour < g.hour ∨ f.hour = g.hour ∧ (f.minute < g.minute ∨
      f.minute = g.minute ∧ (f.second < g.second ∨
        f.second = g.second ∧ f.microsecond < g.microsecond)))))

theorem months_length (year : Nat) :
    Blocks.before (fun i => daysInMonth year (i + 1)) 12 = daysInYear year := by
  simp only [Blocks.before, daysInMonth, daysInYear]
  cases isLeap year <;> rfl

theorem dayOfYear_lt (d : DateTime) :
    Blocks.before (fun i => daysInMonth d.year (i + 1)) (d.month - 1) + (d.day - 1) <
      daysInYear d.year := by
  obtain ⟨-, ⟨hm, hm'⟩, ⟨hd, hd'⟩, -⟩ := d.valid
  have hblock := Blocks.before_succ_le (fun i => daysInMonth d.year (i + 1))
    (show d.month - 1 < 12 by omega)
  rw [months_length, Nat.sub_add_cancel hm] at hblock
  omega

theorem ordinal_lt : a.ordinal < b.ordinal ↔ a.year < b.year ∨ a.year = b.year ∧
    (a.month < b.month ∨ a.month = b.month ∧ a.day < b.day) := by
  obtain ⟨⟨hay, -⟩, ⟨ham, -⟩, ⟨had, had'⟩, -⟩ := a.valid
  obtain ⟨⟨hby, -⟩, ⟨hbm, -⟩, ⟨hbd, hbd'⟩, -⟩ := b.valid
  have ha := dayOfYear_lt a
  have hb := dayOfYear_lt b
  have hyears := Blocks.place_lt (fun i => daysInYear (i + 1)) (i := a.year - 1)
    (j := b.year - 1) (by rwa [Nat.sub_add_cancel hay]) (by rwa [Nat.sub_add_cancel hby])
  rw [DateFields.ordinal, DateFields.ordinal, hyears]
  have hyear : a.year - 1 = b.year - 1 ↔ a.year = b.year := by omega
  have hyear' : a.year - 1 < b.year - 1 ↔ a.year < b.year := by omega
  rw [hyear, hyear']
  refine or_congr_right (and_congr_right fun hsame => ?_)
  have hmonths := Blocks.place_lt (fun i => daysInMonth b.year (i + 1)) (i := a.month - 1)
    (j := b.month - 1) (r := a.day - 1) (s := b.day - 1)
    (by rw [Nat.sub_add_cancel ham, ← hsame]; omega) (by rw [Nat.sub_add_cancel hbm]; omega)
  rw [hsame, hmonths]
  omega

theorem fields_join {y y' m m' d d' time : Prop} :
    (y ∨ y' ∧ (m ∨ m' ∧ d)) ∨ (y' ∧ m' ∧ d') ∧ time ↔ y ∨ y' ∧ (m ∨ m' ∧ (d ∨ d' ∧ time)) := by
  tauto

theorem timeOfDay_lt (d : DateTime) : d.timeOfDay < MICROSECONDS_PER_DAY := by
  obtain ⟨-, -, -, hh, hm, hs, hu⟩ := d.valid
  rw [DateFields.timeOfDay, MICROSECONDS_PER_DAY]
  omega

theorem instant_lt : a.instant < b.instant ↔ a.Before b.toDateFields := by
  have hta := timeOfDay_lt a
  have htb := timeOfDay_lt b
  have hdays : a.instant < b.instant ↔
      a.ordinal < b.ordinal ∨ a.ordinal = b.ordinal ∧ a.timeOfDay < b.timeOfDay := by
    rw [DateTime.instant, DateTime.instant, Int.ofNat_lt]
    rw [MICROSECONDS_PER_DAY] at *
    omega
  have hlt := ordinal_lt (a := a) (b := b)
  have hgt := ordinal_lt (a := b) (b := a)
  obtain ⟨-, -, -, hah, ham, has, hau⟩ := a.valid
  obtain ⟨-, -, -, hbh, hbm, hbs, hbu⟩ := b.valid
  have htime : a.timeOfDay < b.timeOfDay ↔ a.hour < b.hour ∨ a.hour = b.hour ∧
      (a.minute < b.minute ∨ a.minute = b.minute ∧ (a.second < b.second ∨
        a.second = b.second ∧ a.microsecond < b.microsecond)) := by
    rw [DateFields.timeOfDay, DateFields.timeOfDay]
    omega
  have hday : a.ordinal = b.ordinal ↔ a.year = b.year ∧ a.month = b.month ∧ a.day = b.day := by
    constructor
    · intro heq
      have hnlt := mt hlt.mpr (by omega)
      have hngt := mt hgt.mpr (by omega)
      omega
    · intro heq
      have hnlt : ¬ a.ordinal < b.ordinal := mt hlt.mp (by omega)
      have hngt : ¬ b.ordinal < a.ordinal := mt hgt.mp (by omega)
      omega
  rw [hdays, hlt, hday, htime, DateFields.Before]
  exact fields_join

example : DateFields.ordinal ⟨1970, 1, 1, 0, 0, 0, 0⟩ = 719162 := by decide +kernel

theorem instant_inj (h : a.instant = b.instant) : a = b := by
  have hab := mt instant_lt.mpr (Int.not_lt.mpr (Int.le_of_eq h.symm))
  have hba := mt instant_lt.mpr (Int.not_lt.mpr (Int.le_of_eq h))
  rw [DateFields.Before] at hab hba
  obtain ⟨⟨year, month, day, hour, minute, second, microsecond⟩, hva⟩ := a
  obtain ⟨⟨year', month', day', hour', minute', second', microsecond'⟩, hvb⟩ := b
  dsimp only at hab hba
  obtain rfl : year = year' := by omega
  obtain rfl : month = month' := by omega
  obtain rfl : day = day' := by omega
  obtain rfl : hour = hour' := by omega
  obtain rfl : minute = minute' := by omega
  obtain rfl : second = second' := by omega
  obtain rfl : microsecond = microsecond' := by omega
  rfl

end Order

/-! ### Arithmetic -/

theorem ofFields_eq {f : DateFields} {d : DateTime} :
    DateTime.ofFields f = some d ↔ d.toDateFields = f := by
  rw [DateTime.ofFields]
  constructor
  · intro h
    split at h
    · cases h
      rfl
    · cases h
  · rintro rfl
    rw [dif_pos d.valid]

theorem dateOf_ordinal (d : DateTime) : dateOf d.ordinal = some (d.year, d.month, d.day) := by
  obtain ⟨⟨hy, hy'⟩, ⟨hm, hm'⟩, ⟨hd, hd'⟩, -⟩ := d.valid
  have hday := dayOfYear_lt d
  have hyear := Blocks.locate_place (fun i => daysInYear (i + 1)) 9999
    (j := d.year - 1) (by rwa [Nat.sub_add_cancel hy]) (by omega)
  have hmonth := Blocks.locate_place (fun i => daysInMonth d.year (i + 1)) 12
    (j := d.month - 1) (r := d.day - 1) (by rw [Nat.sub_add_cancel hm]; omega) (by omega)
  simp only [dateOf, DateFields.ordinal, hyear, Option.bind_eq_bind, Option.bind_some,
    Nat.sub_add_cancel hy, hmonth, Nat.sub_add_cancel hm, Nat.sub_add_cancel hd]
  rfl

theorem dateOf_some {days year month day : Nat} (h : dateOf days = some (year, month, day)) :
    Blocks.before (fun i => daysInYear (i + 1)) (year - 1) +
      (Blocks.before (fun i => daysInMonth year (i + 1)) (month - 1) + (day - 1)) = days := by
  simp only [dateOf, Option.bind_eq_bind, Option.bind_eq_some_iff] at h
  obtain ⟨⟨y, dayOfYear⟩, hy, ⟨m, d⟩, hm, h⟩ := h
  cases h
  obtain ⟨-, hyear, -, -⟩ := Blocks.locate_some hy
  obtain ⟨-, hmonth, -, -⟩ := Blocks.locate_some hm
  rw [Blocks.before, Nat.zero_add] at hyear hmonth
  rw [Nat.add_sub_cancel, Nat.add_sub_cancel, Nat.add_sub_cancel, hmonth, hyear]

theorem ofInstant_eq {i : Instant} {d : DateTime} : DateTime.ofInstant i = some d ↔ d.instant = i := by
  have hinstant : ∀ d : DateTime, DateTime.ofInstant d.instant = some d := by
    intro d
    have htime := timeOfDay_lt d
    have hdays : d.instant.toNat / MICROSECONDS_PER_DAY = d.ordinal := by
      rw [DateTime.instant, Int.toNat_natCast, MICROSECONDS_PER_DAY] at *
      omega
    have hrest : d.instant.toNat % MICROSECONDS_PER_DAY = d.timeOfDay := by
      rw [DateTime.instant, Int.toNat_natCast, MICROSECONDS_PER_DAY] at *
      omega
    have hneg : ¬ d.instant < 0 := by
      rw [DateTime.instant]
      exact Int.not_lt.mpr (Int.natCast_nonneg _)
    obtain ⟨-, -, -, hh, hm, hs, hu⟩ := d.valid
    rw [DateTime.ofInstant, if_neg hneg, hdays, hrest, dateOf_ordinal]
    simp only [Option.bind_eq_bind, Option.bind_some]
    rw [ofFields_eq]
    rw [DateFields.timeOfDay]
    obtain ⟨⟨year, month, day, hour, minute, second, microsecond⟩, hv⟩ := d
    simp only [DateFields.mk.injEq, true_and]
    dsimp only at hh hm hs hu
    omega
  constructor
  · intro h
    rw [DateTime.ofInstant] at h
    split at h
    · cases h
    · rename_i hpos
      simp only [Option.bind_eq_bind, Option.bind_eq_some_iff] at h
      obtain ⟨⟨year, month, day⟩, hdate, h⟩ := h
      have hordinal := dateOf_some hdate
      have hfields := ofFields_eq.mp h
      have hdays : d.ordinal = i.toNat / MICROSECONDS_PER_DAY := by
        rw [hfields]
        exact hordinal
      have htime : d.timeOfDay = i.toNat % MICROSECONDS_PER_DAY := by
        rw [hfields, DateFields.timeOfDay, MICROSECONDS_PER_DAY]
        dsimp only
        omega
      rw [DateTime.instant, hdays, htime, Nat.div_add_mod', Int.toNat_of_nonneg (Int.not_lt.mp hpos)]
  · rintro rfl
    exact hinstant d

theorem add_eq {d e : DateTime} {microseconds : Int} :
    d.add microseconds = some e ↔ e.instant = d.instant + microseconds := ofInstant_eq

/-! ### The order of the texts -/

def digitByte (n : Nat) : UInt8 := (String.utf8EncodeChar (Nat.digitChar n)).headD 0

theorem digitByte_ascending : Ascending 10 digitByte where
  lt := by decide
  inj := by decide

def padBytes (width n : Nat) : List UInt8 := digits 10 digitByte width n

theorem utf8Bytes_timestamp (d : DateTime) : utf8Bytes (timestamp d) =
    padBytes 4 d.year ++ 45 :: (padBytes 2 d.month ++ 45 :: (padBytes 2 d.day ++ 84 ::
      (padBytes 2 d.hour ++ 58 :: (padBytes 2 d.minute ++ 58 :: (padBytes 2 d.second ++ 46 ::
        (padBytes 6 d.microsecond ++ utf8Bytes "+00:00")))))) := by
  have hpad : ∀ width n, (pad width n).flatMap String.utf8EncodeChar = padBytes width n :=
    fun width n => digits_flatMap (by decide) (by decide) width n
  have hsigns : String.utf8EncodeChar '-' = [45] ∧ String.utf8EncodeChar 'T' = [84] ∧
      String.utf8EncodeChar ':' = [58] ∧ String.utf8EncodeChar '.' = [46] := by decide
  rw [utf8Bytes, timestamp, String.toList_ofList]
  simp only [List.flatMap_append, List.flatMap_cons, hpad, hsigns, List.singleton_append]
  rfl

theorem sign_lt {c : UInt8} {l l' : List UInt8} : c :: l < c :: l' ↔ l < l' := by
  simp

theorem daysInMonth_le (year month : Nat) : daysInMonth year month ≤ 31 := by
  unfold daysInMonth
  split_ifs <;> omega

theorem date_widths (d : DateTime) : d.year < 10 ^ 4 ∧ d.month < 10 ^ 2 ∧ d.day < 10 ^ 2 := by
  obtain ⟨hy, hm, ⟨-, hd⟩, -⟩ := d.valid
  have hlast := daysInMonth_le d.year d.month
  omega

theorem time_widths (d : DateTime) : d.hour < 10 ^ 2 ∧ d.minute < 10 ^ 2 ∧ d.second < 10 ^ 2 ∧
    d.microsecond < 10 ^ 6 := by
  obtain ⟨-, -, -, hh, hm, hs, hu⟩ := d.valid
  omega

theorem textLt_before {a b : DateTime} :
    textLt (timestamp a) (timestamp b) = true ↔ a.Before b.toDateFields := by
  obtain ⟨hay, ham, had⟩ := date_widths a
  obtain ⟨hby, hbm, hbd⟩ := date_widths b
  obtain ⟨hah, hamin, has, hau⟩ := time_widths a
  obtain ⟨hbh, hbmin, hbs, hbu⟩ := time_widths b
  have hfield : ∀ {width n m : Nat}, n < 10 ^ width → m < 10 ^ width → ∀ {l l' : List UInt8},
      digits 10 digitByte width n ++ l < digits 10 digitByte width m ++ l' ↔
        n < m ∨ n = m ∧ l < l' :=
    fun hn hm => field_lt (by decide) digitByte_ascending hn hm
  have hzone : ¬ utf8Bytes "+00:00" < utf8Bytes "+00:00" := List.lt_irrefl _
  rw [textLt, decide_eq_true_eq, utf8Bytes_timestamp, utf8Bytes_timestamp]
  unfold padBytes
  rw [hfield hay hby, sign_lt, hfield ham hbm, sign_lt, hfield had hbd, sign_lt, hfield hah hbh,
    sign_lt, hfield hamin hbmin, sign_lt, hfield has hbs, sign_lt, hfield hau hbu]
  simp only [DateFields.Before, hzone, and_false, or_false]

theorem textLt_timestamp {a b : DateTime} :
    textLt (timestamp a) (timestamp b) = true ↔ a.instant < b.instant :=
  textLt_before.trans instant_lt.symm

theorem textLe_timestamp {a b : DateTime} :
    textLe (timestamp a) (timestamp b) = true ↔ a.instant ≤ b.instant := by
  rw [textLe, Bool.not_eq_true', ← Bool.not_eq_true, textLt_timestamp]
  exact Int.not_lt

theorem timestamp_inj {a b : DateTime} : timestamp a = timestamp b ↔ a.instant = b.instant := by
  constructor
  · intro h
    have hab := textLe_timestamp (a := a) (b := b)
    have hba := textLe_timestamp (a := b) (b := a)
    have hself := textLe_timestamp (a := b) (b := b)
    rw [h] at hab hba
    exact Int.le_antisymm (hab.mp (hself.mpr (Int.le_refl _))) (hba.mp (hself.mpr (Int.le_refl _)))
  · intro h
    rw [instant_inj h]

example : timestamp ⟨⟨2024, 2, 29, 7, 5, 0, 0⟩, by decide⟩ = "2024-02-29T07:05:00.000000+00:00" := by
  decide

/-! ### Reading a text back -/

theorem readField_pad {width n : Nat} (hn : n < 10 ^ width) (cs : List Char) :
    readField width (pad width n ++ cs) = some (n, cs) := by
  have hread : readDigits 10 digitValue 0 (pad width n) = some n :=
    readDigits_digits (by decide) (by decide) hn
  have hlength : (pad width n).length = width := digits_length _ _ _ _
  rw [readField, if_pos (by rw [List.length_append]; omega), List.take_left' hlength,
    List.drop_left' hlength, hread]
  rfl

theorem readField_bind {α : Type} {width n : Nat} (hn : n < 10 ^ width) {cs : List Char}
    {k : Nat × List Char → Option α} :
    (readField width (pad width n ++ cs) >>= k) = k (n, cs) := by
  rw [readField_pad hn, Option.bind_eq_bind, Option.bind_some]

theorem expect_bind {α : Type} {c : Char} {cs : List Char} {k : List Char → Option α} :
    (expect c (c :: cs) >>= k) = k cs := by
  rw [expect, if_pos rfl, Option.bind_eq_bind, Option.bind_some]

theorem fromisoformat_timestamp (d : DateTime) : fromisoformat (timestamp d) = some d := by
  obtain ⟨hy, hm, hd⟩ := date_widths d
  obtain ⟨hh, hmin, hs, hu⟩ := time_widths d
  rw [fromisoformat, timestamp, String.toList_ofList]
  refine (readField_bind hy).trans (expect_bind.trans ?_)
  refine (readField_bind hm).trans (expect_bind.trans ?_)
  refine (readField_bind hd).trans (expect_bind.trans ?_)
  refine (readField_bind hh).trans (expect_bind.trans ?_)
  refine (readField_bind hmin).trans (expect_bind.trans ?_)
  refine (readField_bind hs).trans (expect_bind.trans ?_)
  refine (readField_bind hu).trans ?_
  exact (if_pos rfl).trans (ofFields_eq.mpr rfl)

end SibylMemory.Outbox
