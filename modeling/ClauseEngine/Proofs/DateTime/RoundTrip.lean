/-
Module: ClauseEngine.Proofs.DateTime.RoundTrip
Purpose: Which date-times come back from their written form. A timestamp cannot express a year before
  the year 0, and what is written instead is none of the forms that are read. Such years are read from
  signed dates and signed local times, so that exactly the texts with a minus in front of a year other
  than zero are read as date-times that are lost when they are written.
Main exports: DateTime.valueOf_lt, DateTime.year_of_ofReadings?, DateTime.NegativeYear,
  DateTime.year_neg_iff_of_read, DateTime.read_write_of_year_neg, DateTime.read_write_iff_of_read,
  DateTime.read_write_fails
-/
import ClauseEngine.Primitive.Time
import ClauseEngine.Proofs.DateTime.Text
import ClauseEngine.Proofs.Result
import ClauseEngine.Proofs.Value.Wire
import Mathlib.Data.List.Induction

namespace ClauseEngine

namespace DateTime

open Scan

/-! ### Parts that have been read

The lemmas of this section go backwards: from a part that was read to the characters it was read
from. What matters later is the year, and which digits a year of zero is written with. -/

/-- The first part that cannot be read decides the error. -/
theorem bind_error {α β : Type} {first : Scan α} (next : α → Scan β) {text : List Char}
    {error : TextError} (h : first text = .error error) : (first >>= next) text = .error error := by
  show (first text >>= fun p => next p.1 p.2) = _
  rw [h]
  rfl

/-- Where two parts have been read one after the other, each has been read on its own. -/
theorem exists_of_bind {α β : Type} {first : Scan α} {next : α → Scan β} {text rest : List Char}
    {b : β} (h : (first >>= next) text = .ok (b, rest)) :
    ∃ a middle, first text = .ok (a, middle) ∧ next a middle = .ok (b, rest) := by
  cases hfirst : first text with
  | error error =>
      rw [bind_error next hfirst] at h
      cases h
  | ok found =>
      rw [bind_ok hfirst] at h
      exact ⟨found.1, found.2, rfl, h⟩

theorem digit_toNat_le {c : Char} (h : c.isDigit = true) : c.toNat - '0'.toNat ≤ 9 := by
  simp only [Char.isDigit, Bool.and_eq_true, decide_eq_true_eq] at h
  have hhigh : c.toNat ≤ 57 := h.2
  have hzero : '0'.toNat = 48 := rfl
  omega

/-- Only one digit has the value zero. -/
theorem digit_eq_zero {c : Char} (h : c.isDigit = true) (hvalue : c.toNat - '0'.toNat = 0) :
    c = '0' := by
  simp only [Char.isDigit, Bool.and_eq_true, decide_eq_true_eq] at h
  have hlow : 48 ≤ c.toNat := h.1
  have hzero : '0'.toNat = 48 := rfl
  apply Char.toNat_inj.1
  omega

/-- So many digits give a number with so many digits. -/
theorem valueOf_lt {cs : List Char} (h : cs.all Char.isDigit = true) :
    valueOf cs < Nat.pow 10 cs.length := by
  induction cs using List.reverseRecOn with
  | nil => exact Nat.one_pos
  | append_singleton cs c ih =>
      rw [List.all_append, Bool.and_eq_true] at h
      have hrest := ih h.1
      have hdigit : c.toNat - '0'.toNat ≤ 9 := digit_toNat_le (by simpa using h.2)
      rw [valueOf_append_digit, List.length_append, List.length_singleton]
      show _ < Nat.pow 10 cs.length * 10
      omega

/-- Digits that give zero are zeros. -/
theorem eq_zeros_of_valueOf {cs : List Char} (h : cs.all Char.isDigit = true)
    (hvalue : valueOf cs = 0) : cs = List.replicate cs.length '0' := by
  induction cs using List.reverseRecOn with
  | nil => rfl
  | append_singleton cs c ih =>
      rw [List.all_append, Bool.and_eq_true] at h
      rw [valueOf_append_digit] at hvalue
      have hc : c = '0' := digit_eq_zero (by simpa using h.2) (by omega)
      have hcs := ih h.1 (by omega)
      rw [List.length_append, List.length_singleton, List.replicate_succ', ← hcs, hc]

/-- A number that was read stands in the text, in as many digits as were asked for. -/
theorem of_digits {count n : Nat} {part : Component} {text rest : List Char}
    (h : digits count part text = .ok (n, rest)) :
    (text.take count).length = count ∧ (text.take count).all Char.isDigit = true ∧
      n = valueOf (text.take count) := by
  unfold digits at h
  dsimp only at h
  split at h
  · rename_i hfront
    rw [Bool.and_eq_true, decide_eq_true_eq] at hfront
    cases h
    exact ⟨hfront.1, hfront.2, rfl⟩
  · cases h

/-- A part of two digits is in its range. -/
theorem admits_of_pair {part : Component} {n : Nat} {text rest : List Char}
    (h : pair part text = .ok (n, rest)) : part.admits n = true := by
  obtain ⟨m, middle, _, h⟩ := exists_of_bind h
  split at h
  · rename_i hadmits
    cases h
    exact hadmits
  · cases h

/-- Month and day are read for the year given. -/
theorem year_of_monthAndDay {year : Int} {d : Date} {text rest : List Char}
    (h : monthAndDay year text = .ok (d, rest)) : d.year = year := by
  obtain ⟨_, _, _, h⟩ := exists_of_bind h
  obtain ⟨_, _, _, h⟩ := exists_of_bind h
  obtain ⟨_, _, _, h⟩ := exists_of_bind h
  obtain ⟨_, _, _, h⟩ := exists_of_bind h
  cases h
  rfl

/-- A time of day lies in the day, up to its leap second. -/
theorem timeOfDay_le {minutes second : Nat} {text rest : List Char}
    (h : timeOfDay text = .ok ((minutes, second), rest)) : minutes + 60 ≤ 86400 ∧ second ≤ 60 := by
  obtain ⟨hour, _, hhour, h⟩ := exists_of_bind h
  obtain ⟨_, _, _, h⟩ := exists_of_bind h
  obtain ⟨minute, _, hminute, h⟩ := exists_of_bind h
  obtain ⟨_, _, _, h⟩ := exists_of_bind h
  obtain ⟨second, _, hsecond, h⟩ := exists_of_bind h
  cases h
  have hhour := admits_of_pair hhour
  have hminute := admits_of_pair hminute
  have hsecond := admits_of_pair hsecond
  simp only [Component.admits, decide_eq_true_eq] at hhour hminute hsecond
  omega

/-- Nine digits, filled up with zeros where there are fewer, give less than a second. -/
theorem valueOf_nine_lt {cs : List Char} (h : cs.all Char.isDigit = true) :
    valueOf (cs.take 9 ++ List.replicate (9 - cs.length) '0') < 1000000000 := by
  have hdigits : (cs.take 9 ++ List.replicate (9 - cs.length) '0').all Char.isDigit = true := by
    apply List.all_eq_true.2
    intro c hc
    rcases List.mem_append.1 hc with hc | hc
    · exact List.all_eq_true.1 h c (List.mem_of_mem_take hc)
    · rw [List.eq_of_mem_replicate hc]
      rfl
  have hlength : (cs.take 9 ++ List.replicate (9 - cs.length) '0').length = 9 := by
    rw [List.length_append, List.length_take, List.length_replicate]
    omega
  have hlt := valueOf_lt hdigits
  rwa [hlength] at hlt

/-- A fraction is less than a second. -/
theorem fraction_lt {nano : Nat} {text rest : List Char} (h : fraction text = .ok (nano, rest)) :
    nano < 1000000000 := by
  unfold fraction at h
  split at h
  · dsimp only at h
    split at h
    · cases h
    · cases h
      exact valueOf_nine_lt List.all_takeWhile
  · cases h
    omega

/-- Readings of a clock keep the year of their date. -/
theorem year_of_ofReadings? {d : Date} (hvalid : d.isValid = true) {secondOfDay nano : Nat}
    (hsecond : secondOfDay < 86400) (hnano : nano < 1000000000) {offset : Int} {t : DateTime}
    (h : ofReadings? d secondOfDay nano offset = some t) : t.date.year = d.year := by
  unfold ofReadings? ofClock? at h
  split at h
  · cases h
    have hday : ((d.dayNumber * Clock.secondsPerDay + secondOfDay) * Clock.nanosPerSecond + nano) /
        Clock.nanosPerDay = d.dayNumber := by
      unfold Clock.nanosPerDay Clock.secondsPerDay Clock.nanosPerSecond
      omega
    rw [date, hday]
    exact Date.year_ofDayNumber_dayNumber hvalid
  · cases h

theorem eq_some_of_require {part : Component} {found : Option DateTime} {t : DateTime}
    (h : require part found = .ok t) : found = some t := by
  cases found with
  | none => cases h
  | some found =>
      cases h
      rfl

/-! ### Years that have been read

Of the three written forms only the last two take a sign. A year is read as negative exactly if the
text has a minus and a digit other than zero after it. -/

/-- A text starts with a minus in front of a year other than zero. -/
def NegativeYear (text : List Char) : Prop :=
  text.head? = some '-' ∧ text.take 5 ≠ ['-', '0', '0', '0', '0']

instance (text : List Char) : Decidable (NegativeYear text) := by
  unfold NegativeYear
  infer_instance

/-- A signed year is negative if its text says so. -/
theorem neg_iff_of_signedYear {year : Int} {text rest : List Char}
    (h : signedYear text = .ok (year, rest)) : year < 0 ↔ NegativeYear text := by
  obtain ⟨negative, middle, hsign, h⟩ := exists_of_bind h
  obtain ⟨n, _, hdigits, h⟩ := exists_of_bind h
  cases h
  obtain ⟨hlength, hall, rfl⟩ := of_digits hdigits
  unfold sign at hsign
  split at hsign
  · cases hsign
    simp [NegativeYear]
  · cases hsign
    have hzeros : middle.take 4 = ['0', '0', '0', '0'] ↔ valueOf (middle.take 4) = 0 := by
      constructor
      · intro hzeros
        rw [hzeros]
        rfl
      · intro hvalue
        rw [eq_zeros_of_valueOf hall hvalue, hlength]
        rfl
    have htake : ('-' :: middle).take 5 = '-' :: middle.take 4 := rfl
    rw [NegativeYear, htake, if_pos rfl, Ne, List.cons_inj_right, hzeros, List.head?_cons]
    simp only [true_and]
    omega
  · rename_i hminus
    cases hsign
    have hhead : text.head? ≠ some '-' := by
      intro hhead
      obtain ⟨tail, htail⟩ := List.head?_eq_some_iff.1 hhead
      exact hminus tail htail
    simp [NegativeYear, hhead]

/-- A text that starts with a digit has no sign. -/
theorem not_negativeYear_of_digits {n : Nat} {part : Component} {text rest : List Char}
    (h : digits 4 part text = .ok (n, rest)) : ¬ NegativeYear text := by
  rintro ⟨hhead, -⟩
  obtain ⟨tail, rfl⟩ := List.head?_eq_some_iff.1 hhead
  obtain ⟨-, hall, -⟩ := of_digits h
  have hdigit := List.all_eq_true.1 hall '-' (by simp)
  cases hdigit

/-- A timestamp has an unsigned year. -/
theorem year_of_readTimestamp {text : List Char} {t : DateTime}
    (h : readTimestamp text = .ok t) : 0 ≤ t.date.year ∧ ¬ NegativeYear text := by
  obtain ⟨⟨⟨d, minutes, second, nano, offset⟩, _⟩, hscan, h⟩ := bind_eq_ok_iff.1 h
  obtain ⟨year, _, hyear, hscan⟩ := exists_of_bind hscan
  obtain ⟨d, _, hdate, hscan⟩ := exists_of_bind hscan
  obtain ⟨_, _, _, hscan⟩ := exists_of_bind hscan
  obtain ⟨⟨minutes, second⟩, _, htime, hscan⟩ := exists_of_bind hscan
  obtain ⟨nano, _, hnano, hscan⟩ := exists_of_bind hscan
  obtain ⟨offset, _, _, hscan⟩ := exists_of_bind hscan
  obtain ⟨_, _, _, hscan⟩ := exists_of_bind hscan
  cases hscan
  obtain ⟨hminutes, hsecond⟩ := timeOfDay_le htime
  have hnano := fraction_lt hnano
  dsimp only at h
  split at h
  · cases h
  · rename_i hvalid
    have hvalid : d.isValid = true := by simpa using hvalid
    have hsame : t.date.year = d.year := by
      split at h
      · -- A leap second is read as the last nanosecond before it.
        obtain ⟨found, hfound, h⟩ := bind_eq_ok_iff.1 h
        have hreadings := eq_some_of_require hfound
        split at h
        · cases h
          exact year_of_ofReadings? hvalid (by omega) (by omega) hreadings
        · cases h
      · exact year_of_ofReadings? hvalid (by omega) hnano (eq_some_of_require h)
    rw [hsame, year_of_monthAndDay hdate]
    exact ⟨Int.natCast_nonneg year, not_negativeYear_of_digits hyear⟩

/-- A bare date lies before the year 0 if its text says so. -/
theorem year_neg_iff_of_readDate {text : List Char} {t : DateTime} (h : readDate text = .ok t) :
    t.date.year < 0 ↔ NegativeYear text := by
  obtain ⟨⟨d, _⟩, hscan, h⟩ := bind_eq_ok_iff.1 h
  obtain ⟨year, _, hyear, hscan⟩ := exists_of_bind hscan
  obtain ⟨d, _, hdate, hscan⟩ := exists_of_bind hscan
  obtain ⟨_, _, _, hscan⟩ := exists_of_bind hscan
  cases hscan
  dsimp only at h
  split at h
  · cases h
  · rename_i hvalid
    have hvalid : d.isValid = true := by simpa using hvalid
    have hsame := year_of_ofReadings? hvalid (by omega) (by omega) (eq_some_of_require h)
    rw [hsame, year_of_monthAndDay hdate]
    exact neg_iff_of_signedYear hyear

/-- A local date and time lies before the year 0 if its text says so. -/
theorem year_neg_iff_of_readLocal {text : List Char} {t : DateTime} (h : readLocal text = .ok t) :
    t.date.year < 0 ↔ NegativeYear text := by
  obtain ⟨⟨⟨d, minutes, second⟩, _⟩, hscan, h⟩ := bind_eq_ok_iff.1 h
  obtain ⟨year, _, hyear, hscan⟩ := exists_of_bind hscan
  obtain ⟨d, _, hdate, hscan⟩ := exists_of_bind hscan
  obtain ⟨_, _, _, hscan⟩ := exists_of_bind hscan
  obtain ⟨⟨minutes, second⟩, _, htime, hscan⟩ := exists_of_bind hscan
  obtain ⟨_, _, _, hscan⟩ := exists_of_bind hscan
  cases hscan
  obtain ⟨hminutes, hsecond⟩ := timeOfDay_le htime
  dsimp only at h
  split at h
  · cases h
  · rename_i hvalid
    have hvalid : d.isValid = true := by simpa using hvalid
    split at h
    · cases h
    · have hsame := year_of_ofReadings? hvalid (by omega) (by omega) (eq_some_of_require h)
      rw [hsame, year_of_monthAndDay hdate]
      exact neg_iff_of_signedYear hyear

/-- What has been read lies before the year 0 exactly if its text says so. -/
theorem year_neg_iff_of_read {text : String} {t : DateTime} (h : read text = .ok t) :
    t.date.year < 0 ↔ NegativeYear text.toList := by
  unfold read at h
  dsimp only at h
  split at h
  · rename_i found hfound
    cases h
    obtain ⟨hyear, hunsigned⟩ := year_of_readTimestamp hfound
    constructor
    · intro hneg
      omega
    · intro hneg
      exact absurd hneg hunsigned
  · split at h
    · rename_i found hfound
      cases h
      exact year_neg_iff_of_readDate hfound
    · exact year_neg_iff_of_readLocal h

/-! ### Years before the year 0

Such a year is written with its sign, in a wider form with a blank after the date. All three readers
refuse it: that of timestamps at the sign, the others at what follows the date. -/

/-- The year of the wider form is read as a signed one. -/
theorem signedYear_padded {n : Nat} (h : n < Nat.pow 10 4) (rest : List Char) :
    signedYear ('-' :: (padded 4 n ++ rest)) = .ok (-(n : Int), rest) := by
  have hsign : sign ('-' :: (padded 4 n ++ rest)) = .ok (true, padded 4 n ++ rest) := rfl
  rw [signedYear, bind_ok hsign, bind_ok (digits_padded h .year rest)]
  rfl

/-- The wider form starts with a signed date, and a blank follows it. -/
theorem toList_write_of_year_neg {t : DateTime} (h : t.date.year < 0) :
    ∃ tail, t.write.toList = '-' :: (padded 4 t.date.year.natAbs ++ '-' ::
      (padded 2 t.date.month ++ '-' :: (padded 2 t.date.day ++ ' ' :: tail))) := by
  rw [write, if_neg (by omega), String.toList_ofList, writeExtended]
  simp [writeDate]

/-- The wider form is none of those that are read. No timestamp starts with a sign, and after the date
    there is neither the end of the text nor the letter that leads a time. -/
theorem read_write_of_year_neg {t : DateTime} (h : t.date.year < 0) :
    read t.write = .error .literal := by
  have hlow := t.le_year
  have hfits : t.date.year.natAbs < Nat.pow 10 4 := by
    show _ < 10000
    omega
  have hvalid : t.date.isValid = true := Date.isValid_ofDayNumber _
  obtain ⟨tail, hwrite⟩ := toList_write_of_year_neg h
  have hyear : signedYear t.write.toList = .ok (t.date.year, '-' :: (padded 2 t.date.month ++
      '-' :: (padded 2 t.date.day ++ ' ' :: tail))) := by
    rw [hwrite, signedYear_padded hfits, Int.ofNat_natAbs_of_nonpos (by omega), Int.neg_neg]
  have hdate := monthAndDay_padded hvalid (' ' :: tail)
  have htimestamp : readTimestamp t.write.toList = .error (.component .year) := by
    have hdigits : digits 4 .year t.write.toList = .error (.component .year) := by
      rw [hwrite]
      simp [digits]
    unfold readTimestamp
    dsimp only
    rw [bind_error _ hdigits]
    rfl
  have hbare : readDate t.write.toList = .error .trailing := by
    unfold readDate
    dsimp only
    rw [bind_ok hyear, bind_ok hdate]
    rfl
  have hlocal : readLocal t.write.toList = .error .literal := by
    unfold readLocal
    dsimp only
    rw [bind_ok hyear, bind_ok hdate]
    rfl
  simp only [read, htimestamp, hbare, hlocal]

/-! ### What comes back

Writing and reading meet in the wire form of values and in the operators that format and parse. Both
come down to the same question about the text. -/

/-- A date-time goes to the next call and back through its written form. -/
theorem decode_encode_eq (t : DateTime) :
    Value.decode (Value.encode (.dateTime t)) = .dateTime <$> Value.readDateTime t.write := by
  rw [Value.encode, Value.decode_tagged, Value.decodeObject.eq_2 _ _ (by simp)]
  simp only [Value.ofName?_name, Value.decodeDateTime]

/-- Formatting and parsing a date-time is writing and reading it. -/
theorem format_parse_eq (t : DateTime) :
    (Time.format (.dateTime t) >>= Time.parse) = .dateTime <$> Value.readDateTime t.write := by
  have hformat : Time.format (.dateTime t) = .ok (.str t.write) := rfl
  rw [hformat, ok_bind, Time.parse, Value.asStr, ok_bind, map_eq_pure_bind]

/-- What has been read comes back from its written form, over the wire and through the operators,
    unless its text has a minus in front of a year other than zero. Then none of the three reads what
    has been written. -/
theorem read_write_iff_of_read {text : String} {t : DateTime} (h : read text = .ok t) :
    (¬ NegativeYear text.toList → read t.write = .ok t ∧
      Value.decode (Value.encode (.dateTime t)) = .ok (.dateTime t) ∧
      (Time.format (.dateTime t) >>= Time.parse) = .ok (.dateTime t)) ∧
    (NegativeYear text.toList → read t.write = .error .literal ∧
      Value.decode (Value.encode (.dateTime t)) = .error (.badDateTime t.write .literal) ∧
      (Time.format (.dateTime t) >>= Time.parse) = .error (.badDateTime t.write .literal)) := by
  have hyear := year_neg_iff_of_read h
  rw [decode_encode_eq, format_parse_eq, Value.readDateTime]
  constructor
  · intro hunsigned
    have hread : read t.write = .ok t := read_write (Int.not_lt.1 fun hneg => hunsigned (hyear.1 hneg))
    simp only [hread]
    exact ⟨trivial, rfl, rfl⟩
  · intro hsigned
    have hread := read_write_of_year_neg (hyear.2 hsigned)
    simp only [hread]
    exact ⟨trivial, rfl, rfl⟩

/-- A leap second is read as the last nanosecond before it, which comes back as it is; a day of the year
    -44 does not come back. -/
theorem read_write_iff_of_read_leapSecond_and_ides :
    let leapSecond : DateTime := ⟨Date.dayNumber ⟨1990, 12, 31⟩ * Clock.nanosPerDay +
      57600 * Clock.nanosPerSecond - 1, -480, by decide, by decide⟩
    let ides : DateTime :=
      ⟨Date.dayNumber ⟨-44, 3, 15⟩ * Clock.nanosPerDay, 0, by decide, by decide⟩
    (read "1990-12-31T15:59:60.5-08:00" = .ok leapSecond ∧ read leapSecond.write = .ok leapSecond) ∧
    (read "-0044-03-15" = .ok ides ∧
      Value.decode (Value.encode (.dateTime ides)) = .error (.badDateTime ides.write .literal)) := by
  intro leapSecond ides
  have hleap : read "1990-12-31T15:59:60.5-08:00" = .ok leapSecond := rfl
  have hides : read "-0044-03-15" = .ok ides := rfl
  exact ⟨⟨hleap, ((read_write_iff_of_read hleap).1 (by decide)).1⟩,
    hides, ((read_write_iff_of_read hides).2 (by decide)).2.1⟩

/-- Not everything that is read comes back from its written form. -/
theorem read_write_fails : ∃ text t, read text = .ok t ∧ read t.write ≠ .ok t := by
  let ides : DateTime := ⟨Date.dayNumber ⟨-44, 3, 15⟩ * Clock.nanosPerDay, 0, by decide, by decide⟩
  have hlost : read ides.write = .error .literal := read_write_of_year_neg (by decide)
  refine ⟨"-0044-03-15", ides, rfl, ?_⟩
  rw [hlost]
  simp

end DateTime

end ClauseEngine
