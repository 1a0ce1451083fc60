import SqlQuery.Calendar.Timestamp
import SqlQuery.Proofs.Lexical.Digits

/-!
# Dates and times survive their text

What is written for a date, a time of day or a timestamp is read as the same again: years with a sign and of any
length, fractions of three, six or nine digits, and second 60 included.

* `number?_padded`, `year?_yearText`, `nanos?_padded` — a part of a text, with any text after it;
* `Date.read?_text`, `Time.read?_text`, `Timestamp.read?_text` — **the whole text**.
-/

namespace SqlQuery

open SqlQuery.Number SqlQuery.Text

namespace Calendar

/-! ### Parts of a text -/

theorem trimStart_padded (width n : Nat) (rest : List Char) :
    trimStart (padded width n ++ rest) = padded width n ++ rest := by
  obtain ⟨c, cs, hpadded⟩ := List.exists_cons_of_ne_nil (padded_ne_nil width n)
  have hc : isBlank c = false := isBlank_of_isDigit (isDigit_of_mem_padded (hpadded ▸ List.mem_cons_self))
  rw [hpadded, List.cons_append, trimStart, List.dropWhile_cons, hc]
  rfl

/-- A number of full width is read to its end, whatever follows. -/
theorem number?_padded {width n : Nat} (hwidth : 0 < width) (h : n < 10 ^ width) (rest : List Char) :
    number? width (padded width n ++ rest) = some (n, rest) := by
  have hlength := length_padded hwidth h
  have htake : (padded width n ++ rest).take width = padded width n := by
    rw [List.take_append_of_le_length (Nat.le_of_eq hlength.symm), List.take_of_length_le (Nat.le_of_eq hlength)]
  rw [number?, trimStart_padded, htake, takeWhile_isDigit_padded]
  simp only [if_neg (padded_ne_nil width n), natOf_padded, List.drop_left]

theorem separator?_cons {c : Char} (h : isBlank c = false) (s : List Char) : separator? c (c :: s) = some s := by
  rw [separator?, trimStart, List.dropWhile_cons, h]
  exact if_pos rfl

/-- A year is read up to the dash, with or without a sign. -/
theorem year?_yearText (year : Int) (rest : List Char) :
    year? (Date.yearText year ++ '-' :: rest) = some (year, '-' :: rest) := by
  have hspan : spanDigits (padded 4 year.natAbs ++ '-' :: rest) = (padded 4 year.natAbs, '-' :: rest) :=
    spanDigits_padded 4 year.natAbs (by simp)
  have hsigned : year?.signedDigits? (padded 4 year.natAbs ++ '-' :: rest) = some (year.natAbs, '-' :: rest) := by
    rw [year?.signedDigits?, hspan]
    simp only [if_neg (padded_ne_nil 4 year.natAbs), natOf_padded]
  rw [Date.yearText]
  split
  · next hyear =>
    have hsmall : year.toNat < 10 ^ 4 := by omega
    obtain ⟨c, cs, hpadded⟩ := List.exists_cons_of_ne_nil (padded_ne_nil 4 year.toNat)
    have hdigit : c.isDigit = true := isDigit_of_mem_padded (hpadded ▸ List.mem_cons_self)
    rw [year?, trimStart_padded]
    have hnumber := number?_padded (by decide) hsmall ('-' :: rest)
    rw [hpadded, List.cons_append] at hnumber ⊢
    -- the first character is a digit, so the branches for signs are not taken
    split
    · next hc => simp only [List.cons.injEq] at hc; obtain ⟨rfl, -⟩ := hc; cases hdigit
    · next hc => simp only [List.cons.injEq] at hc; obtain ⟨rfl, -⟩ := hc; cases hdigit
    · rw [hnumber]
      simp only [Option.map_some, Int.toNat_of_nonneg hyear.1]
  · next hyear =>
    split
    · have htrim : trimStart ('-' :: padded 4 year.natAbs ++ '-' :: rest) =
          '-' :: (padded 4 year.natAbs ++ '-' :: rest) := rfl
      rw [year?, htrim]
      simp only [hsigned, Option.map_some]
      congr 2
      omega
    · have htrim : trimStart ('+' :: padded 4 year.natAbs ++ '-' :: rest) =
          '+' :: (padded 4 year.natAbs ++ '-' :: rest) := rfl
      rw [year?, htrim]
      simp only [hsigned, Option.map_some]
      congr 2
      omega

/-- A fraction of fewer than nine digits is filled up with zeros. -/
theorem nanos?_padded {width n : Nat} (hwidth : 0 < width) (hnine : width ≤ 9) (h : n < 10 ^ width) :
    Time.nanos? (padded width n) = some (n * 10 ^ (9 - width), []) := by
  have hspan : spanDigits (padded width n) = (padded width n, []) := by
    have hend := spanDigits_padded width n (fun c (hc : c ∈ [].head?) => nomatch hc)
    rwa [List.append_nil] at hend
  have hlength := length_padded hwidth h
  have htake : (padded width n).take 9 = padded width n := List.take_of_length_le (by omega)
  rw [Time.nanos?, hspan]
  simp only [if_neg (padded_ne_nil width n), htake, List.rightpad, hlength, natOf_append_zeros, natOf_padded]

/-! ### Dates -/

theorem daysInMonth_le (year : Int) (month : Nat) : daysInMonth year month ≤ 31 := by
  unfold daysInMonth
  split <;> first | omega | split <;> omega

namespace Date

/-- Months and days have two digits. -/
theorem lt_of_isDay (d : Date) : d.month < 10 ^ 2 ∧ d.day < 10 ^ 2 := by
  have hday := d.isDay
  simp only [Calendar.isDay, Bool.and_eq_true, decide_eq_true_eq] at hday
  obtain ⟨⟨⟨-, -⟩, hfirst⟩, hlast⟩ := hday
  have hmonth : d.month ≤ 12 := by
    by_contra hlarge
    have hnone : daysInMonth d.year d.month = 0 := by
      unfold daysInMonth
      split <;> omega
    omega
  have hlength := daysInMonth_le d.year d.month
  exact ⟨by omega, by omega⟩

theorem ofNumbers?_self (d : Date) : ofNumbers? d.year d.month d.day = some d :=
  dif_pos d.isDay

/-- A date is read to its end, whatever follows. -/
theorem readPart?_text (d : Date) (rest : List Char) : readPart? (d.text ++ rest) = some (d, rest) := by
  obtain ⟨hmonth, hday⟩ := d.lt_of_isDay
  have htext : d.text ++ rest =
      yearText d.year ++ '-' :: (padded 2 d.month ++ '-' :: (padded 2 d.day ++ rest)) := by
    simp [text]
  have hdash : isBlank '-' = false := by decide
  rw [htext, readPart?, year?_yearText]
  simp only [Option.bind_eq_bind, Option.bind_some, separator?_cons hdash, number?_padded Nat.two_pos hmonth,
    number?_padded Nat.two_pos hday, ofNumbers?_self]
  rfl

/-- **A date survives its text.** -/
theorem read?_text (d : Date) : read? d.text = some d := by
  have hpart := readPart?_text d []
  rw [List.append_nil] at hpart
  rw [read?, hpart]
  rfl

end Date

/-! ### Times -/

namespace Time

theorem ofNumbers?_self (t : Time) : ofNumbers? t.hour t.minute t.second t.nano = some t :=
  dif_pos t.inRange

/-- A fraction is left out, or written with as many digits as it needs. -/
theorem fraction_cases {nano : Nat} (h : nano < 10 ^ 9) : nano = 0 ∧ fraction nano = [] ∨
    ∃ width n, 0 < width ∧ width ≤ 9 ∧ n < 10 ^ width ∧ n * 10 ^ (9 - width) = nano ∧
      fraction nano = '.' :: padded width n := by
  unfold fraction
  split
  · next hzero => exact .inl ⟨hzero, rfl⟩
  split
  · exact .inr ⟨3, nano / 1000000, by decide, by decide, by omega, by omega, rfl⟩
  split
  · exact .inr ⟨6, nano / 1000, by decide, by decide, by omega, by omega, rfl⟩
  · exact .inr ⟨9, nano, by decide, by decide, h, by omega, rfl⟩

/-- Seconds are read to the end of the text, with the fraction. -/
theorem readSeconds?_text {second nano : Nat} (hsecond : second < 10 ^ 2) (hnano : nano < 10 ^ 9) :
    readSeconds? (':' :: (padded 2 second ++ fraction nano)) = some ((second, nano), []) := by
  have hcolon : isBlank ':' = false := by decide
  rw [readSeconds?]
  simp only [Option.bind_eq_bind, Option.bind_some, separator?_cons hcolon, number?_padded Nat.two_pos hsecond]
  obtain ⟨rfl, hfraction⟩ | ⟨width, n, hwidth, hnine, hn, rfl, hfraction⟩ := fraction_cases hnano
  · rw [hfraction]
    rfl
  · rw [hfraction]
    simp only [nanos?_padded hwidth hnine hn, Option.bind_some]
    rfl

/-- **A time of day survives its text**, read with or without the need of seconds. -/
theorem read?_text (t : Time) (strict : Bool) : read? t.text strict = some t := by
  obtain ⟨hhour, hminute, hsecond, hnano⟩ := t.inRange
  have htext : t.text =
      padded 2 t.hour ++ ':' :: (padded 2 t.minute ++ ':' :: (padded 2 t.second ++ fraction t.nano)) := by
    simp [text, clock]
  have hcolon : isBlank ':' = false := by decide
  have hhours : t.hour < 10 ^ 2 := by omega
  have hminutes : t.minute < 10 ^ 2 := by omega
  have hseconds : t.second < 10 ^ 2 := by omega
  rw [htext, read?, readMinutes?]
  simp only [Option.bind_eq_bind, Option.bind_some, separator?_cons hcolon, number?_padded Nat.two_pos hhours,
    number?_padded Nat.two_pos hminutes, Option.pure_def, readSeconds?_text hseconds hnano]
  exact ofNumbers?_self t

end Time

/-- **A timestamp survives its text.** -/
theorem Timestamp.read?_text (t : Timestamp) : read? t.text = some t := by
  have hmark : isBlank 'T' = false := by decide
  rw [read?, text, Date.readPart?_text]
  simp only [Option.bind_eq_bind, Option.bind_some, separator?_cons hmark, Time.read?_text]
  rfl

end Calendar

end SqlQuery
