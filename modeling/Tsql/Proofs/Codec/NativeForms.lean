import Tsql.Codec.Literal
import Tsql.Proofs.Codec.WriteBack

/-!
# Values as native values and as literals

`toNative_roundTrip` says which values a SQL type takes as bound parameters, and that a native value is read
as the value that it was made from, whatever its width. A literal is made by itself:
`literalSql_iff_toNative` is that literals take the same values, up to the integers out of the range of an
integral type.
-/

namespace Tsql

variable {t : SqlType} {v : Value} {own : ValueType} {n : Native}

/-! ### Native values -/

theorem ensureStorable_eq_ok : ensureStorable t v = .ok () ↔ storable t v = true := by
  unfold ensureStorable
  split
  next hv => simp [storable, hv]
  next => split_ifs with hs <;> simp [hs]

theorem storable_of_toNative (h : toNative t v = .ok n) : storable t v = true := by
  obtain ⟨_, hs, -⟩ := Result.bind_eq_ok h
  exact ensureStorable_eq_ok.1 hs

/-- The number in a value is out of the range of an integral type. -/
def Value.exceeds (v : Value) (t : SqlType) : Bool := t.dbType.isIntegral && !v.fits t.dbType

theorem Value.exceeds_eq_true : v.exceeds t = true ↔
    t.dbType.isIntegral = true ∧ ∃ i, v.asInt? = some i ∧ t.dbType.holds i = false := by
  unfold exceeds fits
  cases v.asInt? <;> simp

/-- A value that can be stored has a native value unless its number is out of range. -/
theorem toNative_of_exceeds (hs : storable t v = true) :
    (v.exceeds t = false → ∃ n, toNative t v = .ok n) ∧
      (v.exceeds t = true → ∃ text, toNative t v = .error (.argumentOutOfRange text)) := by
  rw [toNative_of_storable hs]
  cases hi : v.asInt? with
  | none => exact ⟨fun _ => ⟨_, rfl⟩, by simp [Value.exceeds, Value.fits, hi]⟩
  | some i =>
    cases ht : t.dbType.isIntegral with
    | false => exact ⟨fun _ => ⟨_, rfl⟩, by simp [Value.exceeds, ht]⟩
    | true =>
      obtain ⟨hin, hout⟩ := Native.integral_eq ht (Value.fitsInt64_of_asInt? hi)
      simpa [Value.exceeds, Value.fits, hi, ht] using And.intro hin hout

theorem exists_toNative :
    (∃ n, toNative t v = .ok n) ↔ storable t v = true ∧ v.exceeds t = false := by
  constructor
  · rintro ⟨n, hn⟩
    have hs := storable_of_toNative hn
    refine ⟨hs, ?_⟩
    by_contra hexceeds
    obtain ⟨text, herror⟩ := (toNative_of_exceeds hs).2 (by simpa using hexceeds)
    rw [hn] at herror
    cases herror
  · rintro ⟨hs, hfits⟩
    exact (toNative_of_exceeds hs).1 hfits

/-- Only integers are stored in integral types. -/
theorem exists_asInt?_of_storable (hv : v.type? = some own) (ht : t.dbType.isIntegral = true)
    (hs : storable t v = true) : ∃ i, v.asInt? = some i := by
  cases hdb : t.dbType <;> rw [hdb] at ht <;> cases ht <;>
    cases v <;> simp [storable, hdb, Value.type?, accepts, ValueType.isIntegral, DbType.isIntegral,
      DbType.isCharacter, Value.asInt?] at hs hv ⊢

/-- Every integer is stored in every integral type. -/
theorem storable_of_asInt? {i : Int} (ht : t.dbType.isIntegral = true) (hi : v.asInt? = some i) :
    storable t v = true := by
  cases v with
  | byte | int16 | int32 | int64 => simp [storable, Value.type?, ValueType.isIntegral, ht]
  | _ => cases hi

/-- The integral type of a value reads any native integer that holds its number. -/
theorem decode?_of_asInt? {i : Int} (hv : v.type? = some own) (hi : v.asInt? = some i)
    (hn : n.asInt? = some i) : decode? own n = some v := by
  have hnumber : own.integer? = some own := by
    cases v <;> cases hi <;> cases hv <;> rfl
  rw [(decode?_integer hnumber n).2, hn]
  exact Value.integral?_of_asInt? hv hi

/-- A value is read from the native value of its own kind. -/
theorem decode?_ownNative (hv : v.type? = some own) : decode? own v.native = some v := by
  cases hi : v.asInt? with
  | some i => exact decode?_of_asInt? hv hi (v.native_asInt?.trans hi)
  | none =>
    cases v with
    | char c =>
      cases hv
      simp [decode?, Value.native, singleChar?]
    | byte | int16 | int32 | int64 => cases hi
    | null => cases hv
    | _ =>
      cases hv
      rfl

/-- What was made for any SQL type is read as the value again. -/
theorem decode_of_toNative (hv : v.type? = some own) (h : toNative t v = .ok n) :
    decode own n = .ok v := by
  apply decode_of_decode?
  rw [toNative_of_storable (storable_of_toNative h)] at h
  split at h
  next i _ hi _ =>
    exact decode?_of_asInt? hv hi (Native.asInt?_of_integral (Value.fitsInt64_of_asInt? hi) h)
  next =>
    obtain rfl := Except.ok.inj h
    exact decode?_ownNative hv

/-- A value has a native value for a SQL type exactly if it can be stored there and, where the type is
integral, is an integer in its range; the native value is read as the value again. -/
theorem toNative_roundTrip (hv : v.type? = some own) :
    ((∃ n, toNative t v = .ok n) ↔
      storable t v = true ∧
        (t.dbType.isIntegral = true → ∃ i, v.asInt? = some i ∧ t.dbType.holds i = true)) ∧
    ∀ n, toNative t v = .ok n → decode own n = .ok v := by
  refine ⟨?_, fun n => decode_of_toNative hv⟩
  rw [exists_toNative]
  refine and_congr_right fun hs => ⟨fun hfits ht => ?_, fun hholds => ?_⟩
  · obtain ⟨i, hi⟩ := exists_asInt?_of_storable hv ht hs
    exact ⟨i, hi, by simpa [Value.exceeds, Value.fits, ht, hi] using hfits⟩
  · cases ht : t.dbType.isIntegral with
    | false => simp [Value.exceeds, ht]
    | true =>
      obtain ⟨i, hi, hi'⟩ := hholds ht
      simp [Value.exceeds, Value.fits, hi, hi']

/-- A wide integer for a narrow type, and a narrow one for a user-defined type. -/
theorem toNative_roundTrip_widths :
    (Value.int64 200).type? = some .int64 ∧ (∃ n, toNative .tinyInt (.int64 200) = .ok n) ∧
      toNative .tinyInt (.int64 200) = .ok (.u8 200) ∧ decode .int64 (.u8 200) = .ok (.int64 200) ∧
      (Value.int32 40000).type? = some .int32 ∧ (¬ ∃ n, toNative .smallInt (.int32 40000) = .ok n) ∧
      (Value.int16 (-5)).type? = some .int16 ∧
      toNative (.udt "dbo.Level") (.int16 (-5)) = .ok (.i16 (-5)) ∧
      decode .int16 (.i16 (-5)) = .ok (.int16 (-5)) := by
  obtain ⟨hnarrow, hback⟩ := toNative_roundTrip (t := .tinyInt) (v := .int64 200) rfl
  have hlarge := (toNative_roundTrip (t := .smallInt) (v := .int32 40000) rfl).1
  have hdefined := (toNative_roundTrip (t := .udt "dbo.Level") (v := .int16 (-5)) rfl).2
  have hbyte : toNative .tinyInt (.int64 200) = .ok (.u8 200) := by decide +kernel
  have hlevel : toNative (.udt "dbo.Level") (.int16 (-5)) = .ok (.i16 (-5)) := by decide +kernel
  refine ⟨rfl, hnarrow.2 ⟨by decide, fun _ => ⟨200, rfl, by decide⟩⟩, hbyte, hback _ hbyte, rfl, ?_, rfl,
    hlevel, hdefined _ hlevel⟩
  rw [hlarge]
  rintro ⟨-, hholds⟩
  obtain ⟨i, hi, hin⟩ := hholds rfl
  obtain rfl : (40000 : Int) = i := Option.some.inj hi
  exact absurd hin (by decide)

/-! ### Literals -/

/-- A floating-point number that is infinite or no number. -/
def Value.isNonFinite : Value → Bool
  | single x => !x.isFinite
  | double x => !x.isFinite
  | _ => false

theorem exists_storedLiteral (t : SqlType) (v : Value) :
    (∃ l, storedLiteral t v = .ok l) ↔ v.isNonFinite = false := by
  cases v with
  | single x => by_cases hx : x.isFinite = true <;> simp [storedLiteral, floatLiteral, Value.isNonFinite, hx]
  | double x => by_cases hx : x.isFinite = true <;> simp [storedLiteral, floatLiteral, Value.isNonFinite, hx]
  | _ => simp [storedLiteral, Value.isNonFinite]

/-- A value has a literal exactly if it can be stored, unless it is a floating-point number that is
infinite or no number. -/
theorem exists_literal :
    (∃ l, literal t v = .ok l) ↔ storable t v = true ∧ v.isNonFinite = false := by
  rw [← exists_storedLiteral t v]
  constructor
  · rintro ⟨l, hl⟩
    obtain ⟨_, hs, hl⟩ := Result.bind_eq_ok hl
    exact ⟨ensureStorable_eq_ok.1 hs, l, hl⟩
  · rintro ⟨hs, l, hl⟩
    exact ⟨l, by rw [literal, ensureStorable_eq_ok.2 hs]; exact hl⟩

theorem exists_literalSql :
    (∃ s, literalSql t v = .ok s) ↔ storable t v = true ∧ v.isNonFinite = false := by
  rw [← exists_literal]
  unfold literalSql
  cases literal t v <;> simp [Except.map]

/-- A value that is no infinite number has a literal for a SQL type exactly if it has a native value,
unless the type is integral and the value an integer out of its range. Such an integer has a literal all
the same, but no native value. -/
theorem literalSql_iff_toNative (hv : v.isNonFinite = false) :
    (v.exceeds t = false →
      ((∃ s, literalSql t v = .ok s) ↔ ∃ n, toNative t v = .ok n)) ∧
    (v.exceeds t = true → (∃ s, literalSql t v = .ok s) ∧
      ∃ text, toNative t v = .error (.argumentOutOfRange text)) := by
  rw [exists_literalSql, exists_toNative]
  refine ⟨fun hfits => by simp [hv, hfits], fun hexceeds => ?_⟩
  obtain ⟨ht, i, hi, -⟩ := Value.exceeds_eq_true.1 hexceeds
  have hs := storable_of_asInt? ht hi
  exact ⟨⟨hs, hv⟩, (toNative_of_exceeds hs).2 hexceeds⟩

/-- A wide integer in the range of a narrow type, and one that is not. -/
theorem literalSql_iff_toNative_widths :
    (Value.int64 (-5)).isNonFinite = false ∧ (Value.int64 (-5)).exceeds .smallInt = false ∧
      ((∃ s, literalSql .smallInt (.int64 (-5)) = .ok s) ↔
        ∃ n, toNative .smallInt (.int64 (-5)) = .ok n) ∧
      (Value.int64 70000).isNonFinite = false ∧ (Value.int64 70000).exceeds .smallInt = true ∧
      (∃ s, literalSql .smallInt (.int64 70000) = .ok s) ∧
      ∃ text, toNative .smallInt (.int64 70000) = .error (.argumentOutOfRange text) :=
  ⟨rfl, by decide, (literalSql_iff_toNative rfl).1 (by decide), rfl, by decide,
    (literalSql_iff_toNative rfl).2 (by decide)⟩

/-- The literal of an integer may be out of the range of the type that it is made for. -/
theorem literalSql_tinyInt_exceeded :
    literalSql .tinyInt (.int32 300) = .ok "300" ∧
      DbType.tinyInt.holds 300 = false ∧
      toNative .tinyInt (.int32 300) =
        .error (.argumentOutOfRange "value 300 does not fit SQL type TINYINT") := by
  decide +kernel

end Tsql
