import Tsql.Codec.Literal
import Tsql.Proofs.Calendar.ReadBack
import Tsql.Proofs.Codec.Integers
import Tsql.Proofs.Guid
import Tsql.Proofs.Number.DecimalText
import Tsql.Proofs.Number.FloatReadBack

/-!
# Literals read back

The first characters of a literal tell what it is: `NULL`, a quoted text, bytes or a number. What is quoted
or written as a number is then read as the type of the value. So a literal is read back as the value it was
made from (`readLiteral_literalSql`) if the SQL type cuts nothing off the fraction of a second.
-/

namespace Tsql

open Text

/-! ### What a literal is -/

namespace Text

theorem trim_eq_self {s : List Char} (hfirst : ∀ c ∈ s.head?, isBlank c = false)
    (hlast : ∀ c ∈ s.getLast?, isBlank c = false) : trim s = s := by
  have hdrop : ∀ t : List Char, (∀ c ∈ t.head?, isBlank c = false) → t.dropWhile isBlank = t := by
    intro t ht
    cases t with
    | nil => rfl
    | cons c rest => simp [ht c rfl]
  have hreverse : ∀ c ∈ s.reverse.head?, isBlank c = false := by
    rw [List.head?_reverse]
    exact hlast
  rw [trim, trimStart, trimEnd, hdrop s hfirst, hdrop _ hreverse, List.reverse_reverse]

theorem trim_of_notBlank {s : List Char} (h : ∀ c ∈ s, isBlank c = false) : trim s = s :=
  trim_eq_self (fun c hc => h c (List.mem_of_mem_head? hc)) fun c hc => h c (List.mem_of_mem_getLast? hc)

theorem quoteString_toList (s : String) (unicode : Bool) : (quoteString s unicode).toList =
    (if unicode then ['N'] else []) ++ '\'' :: (doubled '\'' s.toList ++ ['\'']) := by
  rw [quoteString, String.toList_ofList, List.append_assoc, List.cons_append]

theorem trim_quoteString (s : String) (unicode : Bool) :
    trim (quoteString s unicode).toList = (quoteString s unicode).toList := by
  rw [quoteString_toList]
  refine trim_eq_self ?_ ?_
  · rintro c hc
    cases unicode with
    | true =>
      obtain rfl := Option.some.inj hc
      decide
    | false =>
      obtain rfl := Option.some.inj hc
      decide
  · intro c hc
    rw [← List.cons_append, ← List.append_assoc, List.getLast?_concat] at hc
    obtain rfl := Option.some.inj hc
    decide

end Text

theorem unquote?_quoteString (s : String) (unicode : Bool) :
    unquote? (quoteString s unicode).toList = some s.toList := by
  have hquoted : unquote? ('\'' :: (doubled '\'' s.toList ++ ['\''])) = some s.toList := by
    simp [unquote?, undoubled_doubled]
  rw [quoteString_toList]
  cases unicode with
  | true => exact hquoted
  | false => exact hquoted

theorem readTrimmed?_quoteString (vt : ValueType) (s : String) (unicode : Bool) :
    readTrimmed? vt (trim (quoteString s unicode).toList) = readQuoted? vt s.toList := by
  have hnull : equalsWord "null" (quoteString s unicode).toList = false := by
    rw [quoteString_toList]
    cases unicode <;> simp [equalsWord]
  unfold readTrimmed?
  rw [trim_quoteString, hnull, unquote?_quoteString]
  rfl

theorem readTrimmed?_numeral (vt : ValueType) {s : String} (h : IsNumeral s) :
    readTrimmed? vt (trim s.toList) = readWord? vt s.toList := by
  have hblank : ∀ c ∈ s.toList, (!isBlank c) = true := h.all (by decide)
  have hmark : ∀ c ∈ s.toList,
      decide (c.toLower ≠ 'n' ∧ c ≠ 'N' ∧ c ≠ '\'' ∧ c ≠ 'x' ∧ c ≠ 'X') = true := h.all (by decide)
  have hmarks := fun c hc => of_decide_eq_true (hmark c hc)
  rw [trim_of_notBlank fun c hc => by simpa using hblank c hc]
  generalize s.toList = chars at hmarks
  cases chars with
  | nil => rfl
  | cons c rest =>
    obtain ⟨hlower, hupper, hquote, -⟩ := hmarks c List.mem_cons_self
    have hnull : equalsWord "null" (c :: rest) = false := by simp [equalsWord, hlower]
    have hunquoted : unquote? (c :: rest) = none := by
      unfold unquote?
      split <;> simp_all
    unfold readTrimmed?
    rw [hnull, hunquoted]
    dsimp only
    rw [if_neg Bool.false_ne_true]
    split
    · next r hs =>
      have hx := hmarks 'x' (by rw [hs]; simp)
      exact absurd rfl hx.2.2.2.1
    · next r hs =>
      have hx := hmarks 'X' (by rw [hs]; simp)
      exact absurd rfl hx.2.2.2.2
    · rfl

theorem readTrimmed?_hex (bytes : List UInt8) :
    readTrimmed? .binary (trim ("0x" ++ upperHexText bytes).toList) = some (.bytes bytes) := by
  have hchars : ("0x" ++ upperHexText bytes).toList = '0' :: 'x' :: (upperHexText bytes).toList := by
    simp
  have hdigit : ∀ d < 16, isBlank (upperDigitChar d) = false := by decide
  have hblank : ∀ c ∈ '0' :: 'x' :: (upperHexText bytes).toList, isBlank c = false := by
    intro c hc
    rcases List.mem_cons.1 hc with rfl | hc
    · decide
    rcases List.mem_cons.1 hc with rfl | hc
    · decide
    obtain ⟨d, hd, rfl⟩ := exists_of_mem_upperHexText hc
    exact hdigit d hd
  have hnull : equalsWord "null" ('0' :: 'x' :: (upperHexText bytes).toList) = false := by
    simp [equalsWord]
  have hunquoted : unquote? ('0' :: 'x' :: (upperHexText bytes).toList) = none := rfl
  rw [hchars, trim_of_notBlank hblank]
  unfold readTrimmed?
  rw [hnull, hunquoted]
  show (readHex? (upperHexText bytes).toList).map Value.bytes = _
  rw [readHex?_upperHexText]
  rfl

/-! ### The value of a literal -/

theorem readTrimmed?_quoted {vt : ValueType} {s : String} {unicode : Bool} {v : Value}
    (h : readQuoted? vt s.toList = some v) :
    readTrimmed? vt (trim (Literal.sql (.string unicode s)).toList) = some v :=
  (readTrimmed?_quoteString vt s unicode).trans h

theorem readTrimmed?_integral {v : Value} {t : ValueType} {i : Int} (ht : v.type? = some t)
    (hi : v.asInt? = some i) : readTrimmed? t (trim (intText i).toList) = some v := by
  have hword : readWord? t (intText i).toList = (readInt? (intText i).toList).bind (Value.integral? t) := by
    cases v with
    | byte n | int16 n | int32 n | int64 n =>
      obtain rfl := Option.some.inj ht
      rfl
    | _ => cases hi
  rw [readTrimmed?_numeral t (isNumeral_intText i), hword, readInt?_intText, Option.bind_some,
    Value.integral?_of_asInt? ht hi]

theorem readTrimmed?_float {l : Layout} (hl : l.Moderate) {x : Floating l} {vt : ValueType}
    {make : Floating l → Value} (hword : ∀ s, readWord? vt s = (readFloat? l s).map make)
    {literal : Literal} (h : floatLiteral x = .ok literal) :
    readTrimmed? vt (trim literal.sql.toList) = some (make x) := by
  unfold floatLiteral at h
  split at h
  · next hx =>
    cases h
    show readTrimmed? vt (trim (x.text .exponential).toList) = _
    rw [readTrimmed?_numeral vt (Floating.isNumeral_text hx), hword, Floating.readFloat?_text hl hx]
    rfl
  · cases h

/-- How many digits behind the point of a second a type has by its facets. -/
def SqlType.digitsByFacet (t : SqlType) : Nat :=
  match t.dbType, t.precision? with
  | .dateTime, _ => 3
  | .time, some n | .dateTime2, some n | .dateTimeOffset, some n => n
  | _, _ => 0

theorem SqlType.digitsByFacet_eq (t : SqlType) : t.digitsByFacet = t.fractionalDigits := by
  cases t <;> rfl

/-- A time that is cut to the type's digits loses nothing. -/
def SqlType.Keeps (t : SqlType) (x : Time) : Prop :=
  x.nanos < nanosPerSecond ∧ x.nanos % 10 ^ (9 - t.digitsByFacet) = 0

theorem SqlType.Keeps.cut {t : SqlType} {x : Time} (h : t.Keeps x) :
    x.nanos % tenPow (9 - t.fractionalDigits) = 0 := by
  rw [← t.digitsByFacet_eq]
  exact h.2

/-- A date or time has a text of the type that loses nothing. -/
def SqlType.Represents (t : SqlType) : Value → Prop
  | .time x => t.Keeps x
  | .dateTime d => t.Keeps d.time
  | .dateTimeOffset d => t.Keeps d.clock.time ∧ d.offset % 60 = 0
  | _ => True

/-- The same value, a decimal zero without its sign. No comparison of numbers sees that sign. -/
def Value.withoutZeroSign : Value → Value
  | .decimal d => .decimal d.withoutZeroSign
  | v => v

theorem readTrimmed?_storedLiteral {t : SqlType} {vt : ValueType} {v : Value} {literal : Literal}
    (hown : ∀ own, v.type? = some own → own = vt) (hrep : t.Represents v)
    (h : storedLiteral t v = .ok literal) :
    readTrimmed? vt (trim literal.sql.toList) = some v.withoutZeroSign := by
  cases v with
  | null =>
    cases h
    rfl
  | bool b =>
    obtain rfl := hown _ rfl
    cases h
    cases b <;> decide
  | byte n =>
    obtain rfl := hown _ rfl
    cases h
    have hread : readTrimmed? .byte (trim (intText n.toNat).toList) = some (.byte n) :=
      readTrimmed?_integral rfl rfl
    exact hread
  | int16 n =>
    obtain rfl := hown _ rfl
    cases h
    exact readTrimmed?_integral rfl rfl
  | int32 n =>
    obtain rfl := hown _ rfl
    cases h
    exact readTrimmed?_integral rfl rfl
  | int64 n =>
    obtain rfl := hown _ rfl
    cases h
    exact readTrimmed?_integral rfl rfl
  | single x =>
    obtain rfl := hown _ rfl
    exact readTrimmed?_float Layout.single_moderate (fun _ => rfl) h
  | double x =>
    obtain rfl := hown _ rfl
    exact readTrimmed?_float Layout.double_moderate (fun _ => rfl) h
  | decimal d =>
    obtain rfl := hown _ rfl
    cases h
    show readTrimmed? .decimal (trim d.text.toList) = _
    rw [readTrimmed?_numeral .decimal d.isNumeral_text]
    exact congrArg (Option.map Value.decimal) d.read?_text
  | char c =>
    obtain rfl := hown _ rfl
    cases h
    have hchar : singleChar? (String.ofList [c]) = some c := by rw [singleChar?, String.toList_ofList]
    have hread : readQuoted? .char (String.ofList [c]).toList = some (.char c) := by
      rw [String.toList_ofList, readQuoted?, hchar, Option.map_some]
    exact readTrimmed?_quoted hread
  | string s =>
    obtain rfl := hown _ rfl
    cases h
    have hread : readQuoted? .string s.toList = some (.string s) := by
      rw [readQuoted?, String.ofList_toList]
    exact readTrimmed?_quoted hread
  | bytes b =>
    obtain rfl := hown _ rfl
    cases h
    exact readTrimmed?_hex b
  | date d =>
    obtain rfl := hown _ rfl
    cases h
    have hread : readQuoted? .date d.text.toList = some (.date d) := by
      rw [Date.text, String.toList_ofList, readQuoted?, readDate?_chars, Option.map_some]
    exact readTrimmed?_quoted hread
  | time x =>
    obtain rfl := hown _ rfl
    cases h
    have hread : readQuoted? .time (String.ofList (x.cutChars t.fractionalDigits)).toList =
        some (.time x) := by
      rw [String.toList_ofList, readQuoted?, readTime?_cutChars hrep.1 hrep.cut, Option.map_some]
    exact readTrimmed?_quoted hread
  | dateTime d =>
    obtain rfl := hown _ rfl
    cases h
    have hread : readQuoted? .dateTime (String.ofList (d.cutChars t.fractionalDigits)).toList =
        some (.dateTime d) := by
      rw [String.toList_ofList, readQuoted?, DateTime.cutChars, readDateTime?_chars hrep.1 hrep.cut,
        Option.map_some]
    exact readTrimmed?_quoted hread
  | dateTimeOffset d =>
    obtain rfl := hown _ rfl
    cases h
    have hread : readQuoted? .dateTimeOffset (String.ofList
        (d.clock.cutChars t.fractionalDigits ++ ' ' :: offsetMinutes d.offset)).toList =
          some (.dateTimeOffset d) := by
      rw [String.toList_ofList, readQuoted?, DateTime.cutChars, List.append_assoc, List.cons_append,
        readOffsetDateTime?_chars hrep.1.1 hrep.1.cut hrep.2, Option.map_some]
    exact readTrimmed?_quoted hread
  | guid g =>
    obtain rfl := hown _ rfl
    cases h
    have hread : readQuoted? .guid g.text.toList = some (.guid g) := by
      rw [readQuoted?, Guid.read?_text, Option.map_some]
    exact readTrimmed?_quoted hread

theorem readLiteral_of_readTrimmed? {t : SqlType} {vt : ValueType} {v : Value} {s : String}
    (hstores : accepts vt t.dbType = true ∨ vt = .string ∧ t = .xml)
    (h : readTrimmed? vt (trim s.toList) = some v) : readLiteral t vt s = .ok v := by
  have hcond : (accepts vt t.dbType || (vt == .string && t.dbType == .xml)) = true := by
    rcases hstores with h | ⟨rfl, rfl⟩
    · rw [h, Bool.true_or]
    · rfl
  unfold readLiteral
  rw [if_pos hcond]
  dsimp only
  rw [h]

/-- The literal of a value for a type that stores it is read back as the value; only a decimal zero loses its
sign. `null` is read as `null` of any type that the SQL type stores. -/
theorem readLiteral_literalSql {t : SqlType} {vt : ValueType} {v : Value} {s : String}
    (hown : ∀ own, v.type? = some own → own = vt)
    (hstores : accepts vt t.dbType = true ∨ vt = .string ∧ t = .xml)
    (hrep : t.Represents v) (h : literalSql t v = .ok s) :
    readLiteral t vt s = .ok v.withoutZeroSign := by
  obtain ⟨written, hwritten, rfl⟩ := Result.map_eq_ok h
  obtain ⟨_, -, hstored⟩ := Result.bind_eq_ok hwritten
  exact readLiteral_of_readTrimmed? hstores (readTrimmed?_storedLiteral hown hrep hstored)

/-- A leap day of a year with a sign, west of universal time. -/
def leapEvening : OffsetDateTime where
  clock := ⟨⟨12000, 2, 29, by decide, by decide, by decide⟩,
    ⟨23, 59, 59, 120000000, by decide, by decide, by decide, by decide, by decide⟩⟩
  offset := -5400
  offset_lt := by decide
  allowed := by decide

/-- The last moment of a day that seven digits can tell. -/
def lastTick : Time :=
  ⟨23, 59, 59, 999999900, by decide, by decide, by decide, by decide, by decide⟩

theorem readLiteral_leapEvening :
    literalSql (.dateTimeOffset 3) (.dateTimeOffset leapEvening) =
        .ok "'+12000-02-29 23:59:59.120 -01:30'" ∧
      readLiteral (.dateTimeOffset 3) .dateTimeOffset "'+12000-02-29 23:59:59.120 -01:30'" =
        .ok (.dateTimeOffset leapEvening) ∧
      literalSql .dateTime (.dateTime leapEvening.clock) = .ok "'+12000-02-29 23:59:59.120'" ∧
      readLiteral .dateTime .dateTime "'+12000-02-29 23:59:59.120'" =
        .ok (.dateTime leapEvening.clock) ∧
      literalSql (.time 7) (.time lastTick) = .ok "'23:59:59.9999999'" ∧
      readLiteral (.time 7) .time "'23:59:59.9999999'" = .ok (.time lastTick) := by
  have hoffset : literalSql (.dateTimeOffset 3) (.dateTimeOffset leapEvening) =
      .ok "'+12000-02-29 23:59:59.120 -01:30'" := by decide +kernel
  have hclock : literalSql .dateTime (.dateTime leapEvening.clock) =
      .ok "'+12000-02-29 23:59:59.120'" := by decide +kernel
  have htick : literalSql (.time 7) (.time lastTick) = .ok "'23:59:59.9999999'" := by decide +kernel
  have hoffsetKept : SqlType.Represents (.dateTimeOffset 3) (.dateTimeOffset leapEvening) :=
    ⟨⟨by decide, by decide⟩, by decide⟩
  have hclockKept : SqlType.Represents .dateTime (.dateTime leapEvening.clock) :=
    ⟨by decide, by decide⟩
  have htickKept : SqlType.Represents (.time 7) (.time lastTick) := ⟨by decide, by decide⟩
  have hown {v : Value} {vt : ValueType} (hv : v.type? = some vt) : ∀ own, v.type? = some own → own = vt :=
    fun _ h => Option.some.inj (h.symm.trans hv)
  exact ⟨hoffset, readLiteral_literalSql (hown rfl) (.inl rfl) hoffsetKept hoffset, hclock,
    readLiteral_literalSql (hown rfl) (.inl rfl) hclockKept hclock, htick,
    readLiteral_literalSql (hown rfl) (.inl rfl) htickKept htick⟩

end Tsql
