import Tsql.Calendar.Printer
import Tsql.Calendar.Reader
import Tsql.Proofs.Text.Digits

/-!
# Dates and times read back

A layout is read part by part: each number of a printed text fills its slot and leaves what follows, so the
texts of dates, times and clock readings are read back as what they were printed from. A fraction that was
cut loses nothing if the places that were left out are zeros.
-/

namespace Tsql

open Text

variable {rest : List Char}

/-! ### Numbers -/

/-- What stands behind a number: neither a digit nor a point. -/
def EndsNumber (rest : List Char) : Prop := ∀ c tail, rest = c :: tail → isDigit c = false ∧ c ≠ '.'

theorem EndsNumber.nil : EndsNumber [] := nofun

theorem EndsNumber.cons {c : Char} (h : isDigit c = false ∧ c ≠ '.') : EndsNumber (c :: rest) := by
  rintro d tail hd
  cases hd
  exact h

theorem takeWhile_isDigit {ds : List Char} (hd : ∀ c ∈ ds, isDigit c = true) (h : EndsNumber rest) :
    (ds ++ rest).takeWhile isDigit = ds := by
  refine takeWhile_isDigit_append hd fun c hc => ?_
  cases rest with
  | nil => cases hc
  | cons d tail =>
    obtain rfl := Option.some.inj hc
    exact (h d tail rfl).1

theorem takeNumber?_padded {width n : Nat} (hw : 0 < width) (hn : n < tenPow width) :
    takeNumber? width (padded width n ++ rest) = some (n, rest) := by
  have hdigits : ∀ c ∈ padded width n, isDigit c = true := fun _ => isDigit_of_mem_padded
  have hall := takeWhile_isDigit hdigits EndsNumber.nil
  rw [List.append_nil] at hall
  simp only [takeNumber?, List.take_left' (length_padded hw hn), hall, ofDigits?_padded,
    Option.map_some, List.drop_left]

theorem takeNumber?_signed {width n : Nat} (h : EndsNumber rest) :
    takeNumber? (padded width n ++ rest).length (padded width n ++ rest) = some (n, rest) := by
  have hdigits : ∀ c ∈ padded width n, isDigit c = true := fun _ => isDigit_of_mem_padded
  have hall := takeWhile_isDigit hdigits h
  simp only [takeNumber?, List.take_length, hall, ofDigits?_padded, Option.map_some, List.drop_left]

theorem exists_padded (width n : Nat) : ∃ c tail, padded width n = c :: tail ∧ isDigit c = true := by
  cases hp : padded width n with
  | nil => exact absurd hp (padded_ne_nil width n)
  | cons c tail => exact ⟨c, tail, rfl, isDigit_of_mem_padded (hp ▸ List.mem_cons_self)⟩

theorem takeYear?_yearText {year : Int} (h : EndsNumber rest) :
    takeYear? (yearText year ++ rest) = some (year, rest) := by
  unfold yearText
  split
  · next hyear =>
    have hfour : year.toNat < tenPow 4 := by
      show year.toNat < 10000
      omega
    have hread : takeNumber? 4 (padded 4 year.toNat ++ rest) = some (year.toNat, rest) :=
      takeNumber?_padded (by decide) hfour
    obtain ⟨c, tail, hp, hc⟩ := exists_padded 4 year.toNat
    have hminus : c ≠ '-' := ne_of_isDigit hc (by decide)
    have hplus : c ≠ '+' := ne_of_isDigit hc (by decide)
    have hunsigned : takeYear? (c :: tail ++ rest) =
        (takeNumber? 4 (c :: tail ++ rest)).map fun p => ((p.1 : Int), p.2) := by
      unfold takeYear?
      split
      · simp_all
      · simp_all
      · rfl
    rw [hp] at hread ⊢
    have hvalue : (year.toNat : Int) = year := Int.toNat_of_nonneg hyear.1
    rw [hunsigned, hread, Option.map_some]
    exact congrArg (fun y => some (y, rest)) hvalue
  · next hyear =>
    have hread : takeNumber? (padded 4 year.natAbs ++ rest).length (padded 4 year.natAbs ++ rest) =
        some (year.natAbs, rest) := takeNumber?_signed h
    split
    · next hneg =>
      have hvalue : -(year.natAbs : Int) = year := by omega
      rw [List.cons_append, takeYear?, hread, Option.map_some]
      exact congrArg (fun y => some (y, rest)) hvalue
    · next hneg =>
      have hvalue : (year.natAbs : Int) = year := by omega
      rw [List.cons_append, takeYear?, hread, Option.map_some]
      exact congrArg (fun y => some (y, rest)) hvalue

/-! ### Slots -/

theorem isBlank_of_isDigit {c : Char} (h : isDigit c = true) : isBlank c = false := by
  have hrange : 48 ≤ c.toNat ∧ c.toNat ≤ 57 := by
    unfold isDigit digitValue? at h
    split at h
    · next hc => exact hc
    · cases h
  unfold isBlank
  simp only [Bool.or_eq_false_iff, Bool.and_eq_false_iff, decide_eq_false_iff_not, beq_eq_false_iff_ne]
  omega

namespace Slots

def put (f : Slots) : Slot → Nat → Slots
  | .year, n => { f with year := some n }
  | .month, n => { f with month := some n }
  | .day, n => { f with day := some n }
  | .hour, n => { f with hour := some n }
  | .minute, n => { f with minute := some n }
  | .second, n => { f with second := some n }

/-- The least and the greatest number of a slot with two digits. -/
def bounds : Slot → Nat × Nat
  | .month => (1, 12)
  | .day => (1, 31)
  | .hour => (0, 23)
  | .minute => (0, 59)
  | .second => (0, 60)
  | .year => (1, 0)

theorem read?_append (f : Slots) (parts parts' : List Part) (s : List Char) :
    f.read? (parts ++ parts') s = (f.read? parts s).bind fun (g, r) => g.read? parts' r := by
  induction parts generalizing f s with
  | nil => rfl
  | cons p parts ih =>
    cases p with
    | number slot =>
      simp only [List.cons_append, read?]
      cases f.take? slot s with
      | none => rfl
      | some g => exact ih g.1 g.2
    | mark c =>
      cases s with
      | nil => rfl
      | cons d r =>
        simp only [List.cons_append, read?]
        split
        · exact ih f r
        · rfl
    | blanks => exact ih f (trimStart s)
    | fraction =>
      simp only [List.cons_append, read?]
      split
      · next r =>
        cases takeFraction? r with
        | none => rfl
        | some g => exact ih _ g.2
      · exact ih f s
    | offset =>
      simp only [List.cons_append, read?]
      cases takeOffset? (trimStart s) with
      | none => rfl
      | some g => exact ih _ g.2

theorem trimStart_cons {c : Char} (h : isBlank c = false) : trimStart (c :: rest) = c :: rest := by
  rw [trimStart, List.dropWhile_cons_of_neg]
  simp [h]

theorem trimStart_padded (width n : Nat) :
    trimStart (padded width n ++ rest) = padded width n ++ rest := by
  obtain ⟨c, tail, hp, hc⟩ := exists_padded width n
  rw [hp, List.cons_append, trimStart_cons (isBlank_of_isDigit hc)]

theorem trimStart_yearText (year : Int) :
    trimStart (yearText year ++ rest) = yearText year ++ rest := by
  unfold yearText
  split
  · exact trimStart_padded _ _
  · refine trimStart_cons ?_
    split <;> decide

theorem take?_padded {f : Slots} {slot : Slot} {n : Nat} (hlow : (bounds slot).1 ≤ n)
    (hhigh : n ≤ (bounds slot).2) : f.take? slot (padded 2 n ++ rest) = some (f.put slot n, rest) := by
  have hn : n < 100 := by
    have hbound : (bounds slot).2 < 100 := by cases slot <;> decide
    omega
  have hread : takeNumber? 2 (padded 2 n ++ rest) = some (n, rest) :=
    takeNumber?_padded (by decide) hn
  have hwithin : within? (bounds slot).1 (bounds slot).2 n = some n := if_pos ⟨hlow, hhigh⟩
  unfold take?
  rw [trimStart_padded]
  cases slot with
  | year => exact absurd (Nat.le_trans hlow hhigh) (by decide)
  | _ =>
    dsimp only
    rw [hread]
    exact congrArg (Option.bind · _) hwithin

theorem take?_year (f : Slots) {year : Int} (h : EndsNumber rest) :
    f.take? .year (yearText year ++ rest) = some ({ f with year := some year }, rest) := by
  unfold take?
  rw [trimStart_yearText]
  dsimp only
  rw [takeYear?_yearText h, Option.map_some]

theorem read?_number {f g : Slots} {slot : Slot} {parts : List Part} {s : List Char}
    (h : f.take? slot s = some (g, rest)) :
    f.read? (.number slot :: parts) s = g.read? parts rest := by
  rw [read?, h]
  rfl

theorem read?_mark (f : Slots) (c : Char) (parts : List Part) (s : List Char) :
    f.read? (.mark c :: parts) (c :: s) = f.read? parts s := by
  rw [read?, if_pos rfl]

/-- The day of a text, whatever stands behind it. -/
theorem read?_date (f : Slots) (d : Date) :
    f.read? dateParts (d.chars ++ rest) =
      some ({ f with year := some d.year, month := some d.month, day := some d.day }, rest) := by
  have hhyphen : isDigit '-' = false ∧ '-' ≠ '.' := by decide
  have hday : d.day ≤ 31 := by
    have hmonth : daysInMonth d.year d.month ≤ 31 := by
      unfold daysInMonth
      split
      · split <;> omega
      · split <;> omega
    exact Nat.le_trans d.day_mem.2 hmonth
  simp only [Date.chars, dateParts, List.append_assoc, List.cons_append]
  rw [read?_number (take?_year f (EndsNumber.cons hhyphen)), read?_mark,
    read?_number (take?_padded d.month_mem.1 d.month_mem.2), read?_mark,
    read?_number (take?_padded d.day_mem.1 hday)]
  rfl

/-! ### Fractions and offsets -/

/-- Digits behind a point, padded to at most nine places. -/
theorem takeFraction?_padded {places n : Nat} (hpos : 0 < places) (hle : places ≤ 9)
    (hn : n < tenPow places) (h : EndsNumber rest) :
    takeFraction? (padded places n ++ rest) = some (n * tenPow (9 - places), rest) := by
  have hlength := length_padded hpos hn
  have hdigits : ∀ c ∈ padded places n, isDigit c = true := fun _ => isDigit_of_mem_padded
  have hall := takeWhile_isDigit hdigits h
  have hkept : (padded places n).take 9 = padded places n := List.take_of_length_le (by omega)
  simp only [takeFraction?, hall, hkept, ofDigits?_padded, Option.map_some, hlength,
    List.drop_left' hlength]

/-- A fraction that was cut where only zeros follow. -/
theorem read?_cutFraction {f : Slots} {nanos digitCount : Nat} (hf : f.nanos = 0)
    (hn : nanos < nanosPerSecond) (hz : nanos % tenPow (9 - digitCount) = 0) (h : EndsNumber rest) :
    f.read? [.fraction] (cutFraction nanos digitCount ++ rest) = some ({ f with nanos }, rest) := by
  unfold cutFraction
  split
  · next hzero =>
    subst hzero
    have hnanos : nanos = 0 := by
      have hmod : nanos % nanosPerSecond = 0 := hz
      rwa [Nat.mod_eq_of_lt hn] at hmod
    have hsame : ({ f with nanos } : Slots) = f := by
      rw [hnanos, ← hf]
    rw [List.nil_append, hsame]
    unfold read?
    split
    · next tail => exact absurd rfl (h '.' tail rfl).2
    · rfl
  · next hpos =>
    have hplaces : 9 - min digitCount 9 = 9 - digitCount := by omega
    have hmin : min nanos (nanosPerSecond - 1) = nanos := by omega
    have hsplit : tenPow (min digitCount 9) * tenPow (9 - digitCount) = nanosPerSecond := by
      rw [← hplaces]
      show 10 ^ _ * 10 ^ _ = _
      rw [← Nat.pow_add, Nat.add_sub_cancel' (Nat.min_le_right ..)]
      rfl
    have hlt : nanos / tenPow (9 - digitCount) < tenPow (min digitCount 9) :=
      Nat.div_lt_of_lt_mul (by rwa [Nat.mul_comm, hsplit])
    have hread := takeFraction?_padded (by omega) (Nat.min_le_right ..) hlt h
    have hback : nanos / tenPow (9 - digitCount) * tenPow (9 - digitCount) = nanos :=
      Nat.div_mul_cancel (Nat.dvd_of_mod_eq_zero hz)
    rw [hplaces] at hread
    dsimp only
    rw [hplaces, hmin, List.cons_append, read?, hread, hback]
    rfl

/-- The time of a text that loses nothing. -/
theorem read?_time {f : Slots} {t : Time} {digitCount : Nat} (hf : f.nanos = 0)
    (hleap : t.nanos < nanosPerSecond) (hz : t.nanos % tenPow (9 - digitCount) = 0)
    (h : EndsNumber rest) :
    f.read? timeParts (t.cutChars digitCount ++ rest) =
      some ({ f with hour := some t.hour, minute := some t.minute, second := some t.second,
                     nanos := t.nanos }, rest) := by
  have hshown : t.shownSecond = t.second := by
    rw [Time.shownSecond, Nat.div_eq_of_lt hleap, Nat.add_zero]
  have hhour := t.hour_lt
  have hminute := t.minute_lt
  have hsecond := t.second_lt
  simp only [Time.cutChars, Time.clockChars, timeParts, hshown, List.append_assoc, List.cons_append]
  rw [read?_number (take?_padded (Nat.zero_le _) (by show _ ≤ 23; omega)), read?_mark,
    read?_number (take?_padded (Nat.zero_le _) (by show _ ≤ 59; omega)), read?_mark,
    read?_number (take?_padded (Nat.zero_le _) (by show _ ≤ 60; omega))]
  exact read?_cutFraction hf hleap hz h

theorem takeTwo?_padded {n : Nat} (hn : n < 100) : takeTwo? (padded 2 n ++ rest) = some (n, rest) := by
  obtain ⟨a, b, hp⟩ : ∃ a b, padded 2 n = [a, b] := by
    have hlength : (padded 2 n).length = 2 := length_padded (by decide) hn
    match padded 2 n, hlength with
    | [a, b], _ => exact ⟨a, b, rfl⟩
  have hread := ofDigits?_padded 2 n
  rw [hp] at hread ⊢
  rw [List.cons_append, List.cons_append, List.nil_append, takeTwo?, hread, Option.map_some]

theorem takeOffset?_padded (negative : Bool) {hours minutes : Nat} (hh : hours < 100)
    (hm : minutes < 60) {seconds : Int} (hs : 3600 * (hours : Int) + 60 * minutes = seconds) :
    takeOffset? ((if negative then '-' else '+') :: padded 2 hours ++ ':' :: padded 2 minutes) =
      some (if negative then -seconds else seconds, []) := by
  have hhours : takeTwo? (padded 2 hours ++ ':' :: padded 2 minutes) =
      some (hours, ':' :: padded 2 minutes) := takeTwo?_padded hh
  have hminutes : takeTwo? (padded 2 minutes ++ []) = some (minutes, []) :=
    takeTwo?_padded (by omega)
  rw [List.append_nil] at hminutes
  have hmarks : dropOffsetMarks (':' :: padded 2 minutes) = padded 2 minutes := by
    obtain ⟨c, tail, hp, hc⟩ := exists_padded 2 minutes
    have hcolon : c ≠ ':' := ne_of_isDigit hc (by decide)
    rw [hp]
    simp [dropOffsetMarks, hcolon, isBlank_of_isDigit hc]
  unfold takeOffset?
  cases negative with
  | true =>
    simp [hhours, hmarks, hminutes, hm]
    omega
  | false =>
    simp [hhours, hmarks, hminutes, hm]
    omega

theorem read?_offset {f : Slots} {offset : Int} (hlt : offset.natAbs < secondsPerDay)
    (hz : offset % 60 = 0) :
    f.read? [.blanks, .offset] (' ' :: offsetMinutes offset) =
      some ({ f with offset := some offset }, []) := by
  have hday : offset.natAbs < 86400 := hlt
  have hrounded : (offset.natAbs + 30) / 60 = offset.natAbs / 60 := by omega
  have hsign : ∀ c, c = '-' ∨ c = '+' → ∀ s, trimStart (c :: s) = c :: s := by
    rintro c (rfl | rfl) s
    · exact trimStart_cons (by decide)
    · exact trimStart_cons (by decide)
  have htext : trimStart (offsetMinutes offset) = offsetMinutes offset := by
    refine hsign _ ?_ _
    split
    · exact .inl rfl
    · exact .inr rfl
  have hread : takeOffset? (offsetMinutes offset) = some (offset, []) := by
    have hparts : ∀ negative : Bool, takeOffset? ((if negative then '-' else '+') ::
        padded 2 (offset.natAbs / 60 / 60) ++ ':' :: padded 2 (offset.natAbs / 60 % 60)) =
          some (if negative then -(offset.natAbs : Int) else offset.natAbs, []) :=
      fun negative => takeOffset?_padded negative (by omega) (by omega) (by omega)
    unfold offsetMinutes
    dsimp only
    rw [hrounded]
    split
    · next hneg =>
      have hvalue : -(offset.natAbs : Int) = offset := by omega
      simpa only [if_true, hvalue] using hparts true
    · next hpos =>
      have hvalue : (offset.natAbs : Int) = offset := by omega
      simpa only [Bool.false_eq_true, if_false, hvalue] using hparts false
  rw [read?, read?]
  have hblank : trimStart (' ' :: offsetMinutes offset) = trimStart (offsetMinutes offset) := rfl
  rw [hblank, htext, htext, hread]
  rfl

end Slots

/-! ### Whole texts -/

theorem Date.make?_self (d : Date) : Date.make? d.year d.month d.day = some d :=
  dif_pos ⟨d.year_mem, d.month_mem, d.day_mem⟩

theorem Time.make?_self (t : Time) : Time.make? t.hour t.minute t.second t.nanos = some t :=
  dif_pos ⟨t.hour_lt, t.minute_lt, t.second_lt, t.nanos_lt, t.leap⟩

theorem OffsetDateTime.make?_self (d : OffsetDateTime) :
    OffsetDateTime.make? d.clock d.offset = some d := dif_pos ⟨d.offset_lt, d.allowed⟩

theorem Slots.readAll?_of_read? {f : Slots} {parts : List Part} {s : List Char}
    (h : Slots.read? {} parts s = some (f, [])) : Slots.readAll? parts s = some f := by
  rw [readAll?, h]

theorem Slots.time?_eq {f : Slots} {t : Time} (hh : f.hour = some t.hour)
    (hm : f.minute = some t.minute) (hs : f.second = some t.second) (hn : f.nanos = t.nanos) :
    f.time? = some t := by
  have hne : t.second ≠ 60 := Nat.ne_of_lt t.second_lt
  simp [time?, hh, hm, hs, hn, hne, Time.make?_self]

theorem readDate?_chars (d : Date) : readDate? d.chars = some d := by
  have hread : Slots.read? {} dateParts (d.chars ++ []) = _ := Slots.read?_date {} d
  rw [List.append_nil] at hread
  rw [readDate?, Slots.readAll?_of_read? hread]
  exact Date.make?_self d

section

variable {digitCount : Nat}

theorem readTime?_cutChars {t : Time} (hleap : t.nanos < nanosPerSecond)
    (hz : t.nanos % tenPow (9 - digitCount) = 0) : readTime? (t.cutChars digitCount) = some t := by
  have hread := Slots.read?_time (f := {}) rfl hleap hz EndsNumber.nil
  rw [List.append_nil] at hread
  rw [readTime?, Slots.readAll?_of_read? hread]
  exact Slots.time?_eq rfl rfl rfl rfl

theorem trimStart_cutChars (t : Time) :
    trimStart (t.cutChars digitCount ++ rest) = t.cutChars digitCount ++ rest := by
  simp only [Time.cutChars, Time.clockChars, List.append_assoc]
  exact Slots.trimStart_padded _ _

def DateTime.slots (d : DateTime) : Slots :=
  { year := some d.date.year, month := some d.date.month, day := some d.date.day
    hour := some d.time.hour, minute := some d.time.minute, second := some d.time.second
    nanos := d.time.nanos }

theorem DateTime.dateTime?_slots (d : DateTime) : d.slots.dateTime? = some d := by
  have hdate : d.slots.date? = some d.date := Date.make?_self d.date
  have htime : d.slots.time? = some d.time := Slots.time?_eq rfl rfl rfl rfl
  simp [Slots.dateTime?, hdate, htime]

theorem Slots.read?_dateTime {d : DateTime} (hleap : d.time.nanos < nanosPerSecond)
    (hz : d.time.nanos % tenPow (9 - digitCount) = 0) (h : EndsNumber rest) :
    Slots.read? {} (dateParts ++ .blanks :: timeParts)
        (d.date.chars ++ ' ' :: (d.time.cutChars digitCount ++ rest)) = some (d.slots, rest) := by
  have hblank : trimStart (' ' :: (d.time.cutChars digitCount ++ rest)) =
      d.time.cutChars digitCount ++ rest := trimStart_cutChars d.time
  rw [read?_append, read?_date, Option.bind_some]
  show Slots.read? _ timeParts (trimStart _) = _
  rw [hblank]
  exact read?_time rfl hleap hz h

theorem readDateTime?_chars {d : DateTime} (hleap : d.time.nanos < nanosPerSecond)
    (hz : d.time.nanos % tenPow (9 - digitCount) = 0) :
    readDateTime? (d.date.chars ++ ' ' :: d.time.cutChars digitCount) = some d := by
  have hread := Slots.read?_dateTime hleap hz EndsNumber.nil
  rw [List.append_nil] at hread
  rw [readDateTime?, Slots.readAll?_of_read? hread]
  exact d.dateTime?_slots

theorem readOffsetDateTime?_chars {d : OffsetDateTime} (hleap : d.clock.time.nanos < nanosPerSecond)
    (hz : d.clock.time.nanos % tenPow (9 - digitCount) = 0) (hoffset : d.offset % 60 = 0) :
    readOffsetDateTime? (d.clock.date.chars ++ ' ' ::
      (d.clock.time.cutChars digitCount ++ ' ' :: offsetMinutes d.offset)) = some d := by
  have hblank : isDigit ' ' = false ∧ ' ' ≠ '.' := by decide
  have hread : Slots.read? {} (dateParts ++ .blanks :: timeParts ++ [.blanks, .offset])
      (d.clock.date.chars ++ ' ' ::
        (d.clock.time.cutChars digitCount ++ ' ' :: offsetMinutes d.offset)) =
      some ({ d.clock.slots with offset := some d.offset }, []) := by
    rw [Slots.read?_append, Slots.read?_dateTime hleap hz (EndsNumber.cons hblank), Option.bind_some]
    exact Slots.read?_offset d.offset_lt hoffset
  have hclock : ({ d.clock.slots with offset := some d.offset } : Slots).dateTime? = some d.clock :=
    d.clock.dateTime?_slots
  rw [readOffsetDateTime?, Slots.readAll?_of_read? hread, Option.bind_some, Slots.offsetDateTime?, hclock]
  exact d.make?_self

end

end Tsql
