import Tsql.Proofs.Codec.Integers

/-!
# What was read can be written back

A type mapper is asked for columns' types and told of others, in any order. Its memory of enumerations
never shows, so that `TypeMapper.resolve_eq` leaves the configured types alone to decide. The type of a
column takes every value that was read as the column's logical type, and the native value that is
written reads as that value again (`TypeMapper.resolve_writesBack`). A number alone may be too large,
where an enumeration's column was given a type of fewer bits.
-/

namespace Tsql

/-! ### Values of a column -/

def DbType.bits : DbType → Nat
  | tinyInt => 8
  | smallInt => 16
  | int => 32
  | bigInt => 64
  | _ => 0

/-- An integral type can hold an integer. -/
def DbType.holds (t : DbType) (i : Int) : Bool :=
  match t with
  | tinyInt => fitsByte i
  | smallInt => fitsInt16 i
  | int => fitsInt32 i
  | bigInt => fitsInt64 i
  | _ => false

/-- The integral type that values of a logical type have; the members of an enumeration may be
characters. -/
def ValueType.integer? : ValueType → Option ValueType
  | .enum _ storage => if storage.valueType.isIntegral then some storage.valueType else none
  | t => if t.isIntegral then some t else none

variable {type number : ValueType} {t : SqlType} {n : Native} {v : Value} {i : Int}

/-- A logical type of numbers reads a native integer of any width, if its own values reach as far. -/
theorem decode?_integer (h : type.integer? = some number) (n : Native) :
    number.isIntegral = true ∧ decode? type n = n.asInt?.bind (Value.integral? number) := by
  cases type with
  | byte | int16 | int32 | int64 =>
    obtain rfl := Option.some.inj h
    exact ⟨rfl, rfl⟩
  | enum name storage =>
    cases storage with
    | char => cases h
    | byte | int16 | int32 | int64 =>
      obtain rfl := Option.some.inj h
      exact ⟨rfl, rfl⟩
  | _ => cases h

theorem singleChar?_eq_some {s : String} {c : Char} (h : singleChar? s = some c) :
    s = String.ofList [c] := by
  unfold singleChar? at h
  split at h
  next d hs =>
    obtain rfl := Option.some.inj h
    rw [← hs, String.ofList_toList]
  · cases h

/-- A value that is no number can be stored wherever its logical type can, and is read from its own
native form again. -/
theorem decode?_native (hi : type.integer? = none) (h : decode? type n = some v) :
    v.asInt? = none ∧ (accepts type t.dbType = true → storable t v = true) ∧
      decode? type v.native = some v := by
  cases type with
  | byte | int16 | int32 | int64 => cases hi
  | custom name => cases h
  | char =>
    cases n with
    | string s =>
      obtain ⟨c, hc, rfl⟩ := Option.map_eq_some_iff.1 h
      obtain rfl := singleChar?_eq_some hc
      exact ⟨rfl, fun ha => by simp [storable, Value.type?, ha], h⟩
    | _ => cases h
  | enum name storage =>
    cases storage with
    | char =>
      cases n with
      | string s =>
        obtain ⟨c, hc, rfl⟩ := Option.map_eq_some_iff.1 h
        obtain rfl := singleChar?_eq_some hc
        have haccepts : accepts (.enum name .char) t.dbType = accepts .char t.dbType := rfl
        exact ⟨rfl, fun ha => by simp [storable, Value.type?, ← haccepts, ha], h⟩
      | _ => cases h
    | _ => cases hi
  | xml =>
    cases n <;> cases h
    exact ⟨rfl, fun ha => by simp [storable, Value.type?, show t.dbType = .xml from eq_of_beq ha], rfl⟩
  | _ =>
    cases n <;> cases h <;> exact ⟨rfl, fun ha => by simp [storable, Value.type?, ha], rfl⟩

theorem isIntegral_of_accepts {t : DbType} (hi : type.integer? = some number)
    (h : accepts type t = true) : t.isIntegral = true := by
  cases type with
  | byte | int16 | int32 | int64 =>
    obtain rfl := eq_of_beq h
    rfl
  | enum name storage =>
    cases storage with
    | char => cases hi
    | _ => exact h
  | _ => cases hi

theorem Native.integral_eq {t : DbType} (ht : t.isIntegral = true) (hi : fitsInt64 i = true) :
    (t.holds i = true → ∃ n, Native.integral t i = .ok n) ∧
      (t.holds i = false → ∃ text, Native.integral t i = .error (.argumentOutOfRange text)) := by
  cases t <;> cases ht <;> simp [Native.integral, DbType.holds, Value.integral?, hi] <;>
    split_ifs <;> simp_all

/-- What an integral type makes of an integer has that type and is in its range. -/
theorem Value.type?_of_integral? (h : Value.integral? number i = some v) :
    v.type? = some number := by
  cases number <;> simp only [integral?, reduceCtorEq] at h <;> split_ifs at h <;>
    obtain rfl := Option.some.inj h <;> rfl

theorem decode?_dbNull (type : ValueType) : decode? type .dbNull = none := by
  cases type with
  | enum name storage => cases storage <;> rfl
  | _ => rfl

theorem decode_of_decode? (h : decode? type n = some v) : decode type n = .ok v := by
  unfold decode
  split
  · rw [decode?_dbNull] at h
    cases h
  · rw [h]

/-- What is read is `null`, or a value that the native value holds. -/
theorem decode_eq_ok (h : decode type n = .ok v) : v = .null ∨ decode? type n = some v := by
  unfold decode at h
  split at h
  · exact .inl (Except.ok.inj h).symm
  · split at h
    next hd => exact .inr (hd.trans (congrArg some (Except.ok.inj h)))
    · cases h

theorem toNative_of_storable (h : storable t v = true) :
    toNative t v = match v.asInt?, t.dbType.isIntegral with
      | some i, true => Native.integral t.dbType i
      | _, _ => .ok v.native := by
  have hs : ensureStorable t v = .ok () := by
    unfold ensureStorable
    split
    · rfl
    · rw [if_pos h]
  rw [toNative, hs]
  rfl

/-- The number in a value, if it is one, is in the range of a SQL type. -/
def Value.fits (v : Value) (t : DbType) : Bool :=
  match v.asInt? with
  | some i => t.holds i
  | none => true

/-- A number is written with the width of the SQL type and read with its own. -/
theorem toNative_of_integer (hn : type.integer? = some number) (ha : accepts type t.dbType = true)
    (hv : Value.integral? number i = some v) :
    (t.dbType.holds i = true → ∃ m, toNative t v = .ok m ∧ decode type m = .ok v) ∧
      (t.dbType.holds i = false → ∃ text, toNative t v = .error (.argumentOutOfRange text)) := by
  have hint := Value.asInt?_of_integral? hv
  have ht := isIntegral_of_accepts hn ha
  have hfits := Value.fitsInt64_of_asInt? hint
  have hstorable : storable t v = true := by
    simp [storable, Value.type?_of_integral? hv, (decode?_integer hn .dbNull).1, ht]
  obtain ⟨hin, hout⟩ := Native.integral_eq ht hfits
  rw [toNative_of_storable hstorable, hint, ht]
  refine ⟨fun h => ?_, hout⟩
  obtain ⟨m, hm⟩ := hin h
  refine ⟨m, hm, decode_of_decode? ?_⟩
  rw [(decode?_integer hn m).2, Native.asInt?_of_integral hfits hm]
  exact hv

/-- A value that was read as a logical type is written to a SQL type that takes the logical type, unless
it is a number out of range; what is written reads as the same value. -/
theorem toNative_of_decode (ha : accepts type t.dbType = true) (h : decode type n = .ok v) :
    (v.fits t.dbType = true → ∃ m, toNative t v = .ok m ∧ decode type m = .ok v) ∧
      (v.fits t.dbType = false → ∃ text, toNative t v = .error (.argumentOutOfRange text)) := by
  rcases decode_eq_ok h with rfl | hd
  · exact ⟨fun _ => ⟨.dbNull, rfl, rfl⟩, by simp [Value.fits, Value.asInt?]⟩
  cases hn : type.integer? with
  | none =>
    obtain ⟨hint, hstorable, hback⟩ := decode?_native (t := t) hn hd
    refine ⟨fun _ => ⟨v.native, ?_, decode_of_decode? hback⟩, by simp [Value.fits, hint]⟩
    rw [toNative_of_storable (hstorable ha), hint]
  | some number =>
    rw [(decode?_integer hn n).2] at hd
    obtain ⟨i, -, hv⟩ := Option.bind_eq_some_iff.1 hd
    rw [Value.fits, Value.asInt?_of_integral? hv]
    exact toNative_of_integer hn ha hv

/-! ### Types of columns -/

/-- Every logical type but a custom one has a SQL type, which takes it. -/
theorem exists_defaultType (hc : ∀ name, type ≠ .custom name) :
    ∃ t, defaultType type = .ok t ∧ accepts type t.dbType = true := by
  cases type with
  | custom name => exact absurd rfl (hc name)
  | enum name storage => cases storage <;> exact ⟨_, rfl, rfl⟩
  | _ => exact ⟨_, rfl, rfl⟩

/-- An integer that a logical type can have is in the range of the SQL type of that logical type. -/
theorem DbType.holds_of_integral? {t : DbType} (ha : accepts number t = true)
    (h : Value.integral? number i = some v) : t.holds i = true := by
  cases number <;> simp only [Value.integral?, reduceCtorEq] at h <;> split_ifs at h with hi <;>
    obtain rfl := eq_of_beq ha <;> exact hi

/-- Only the members of enumerations are stored in types of another range than their own. -/
theorem exists_enum_of_not_fits (ha : accepts type t.dbType = true) (h : decode type n = .ok v)
    (hf : v.fits t.dbType = false) : ∃ name storage i, type = .enum name storage ∧
      t.dbType.isIntegral = true ∧ v.asInt? = some i ∧ t.dbType.holds i = false ∧
      storage.sqlType.dbType.holds i = true := by
  cases hv : v.asInt? with
  | none => simp [Value.fits, hv] at hf
  | some i =>
  have hlacks : t.dbType.holds i = false := by simpa [Value.fits, hv] using hf
  rcases decode_eq_ok h with rfl | hd
  · cases hv
  cases hn : type.integer? with
  | none =>
    rw [(decode?_native (t := t) hn hd).1] at hv
    cases hv
  | some number =>
    have ht := isIntegral_of_accepts hn ha
    rw [(decode?_integer hn n).2] at hd
    obtain ⟨j, -, hj⟩ := Option.bind_eq_some_iff.1 hd
    obtain rfl : j = i := Option.some.inj ((Value.asInt?_of_integral? hj).symm.trans hv)
    cases type with
    | enum name storage =>
      have haccepts : accepts storage.valueType storage.sqlType.dbType = true := by
        cases storage <;> rfl
      have hstorage : storage.valueType = number := by
        cases storage <;> cases hn <;> rfl
      rw [← hstorage] at hj
      exact ⟨name, storage, j, rfl, ht, rfl, hlacks, DbType.holds_of_integral? haccepts hj⟩
    | byte | int16 | int32 | int64 =>
      obtain rfl := Option.some.inj hn
      rw [DbType.holds_of_integral? ha hj] at hlacks
      cases hlacks
    | _ => cases hn

theorem DbType.holds_of_bits_le {a b : DbType} (hb : b.isIntegral = true) (hle : a.bits ≤ b.bits)
    (h : a.holds i = true) : b.holds i = true := by
  cases a <;> simp only [holds, fitsByte, fitsInt16, fitsInt32, fitsInt64_iff, minInt64, maxInt64,
    decide_eq_true_eq, Bool.false_eq_true] at h <;> cases b <;> cases hb <;>
    simp only [bits] at hle <;>
    simp only [holds, fitsByte, fitsInt16, fitsInt32, fitsInt64_iff, minInt64, maxInt64,
      decide_eq_true_eq] <;> omega

/-- What a type mapper is asked or told. -/
inductive TypeMapper.Call where
  | configure (f : Field) (t : SqlType)
  | resolve (f : Field)
  | defaultFor (type : ValueType)

/-- The call is no lookup. -/
def TypeMapper.Call.configures : Call → Bool
  | configure .. => true
  | _ => false

/-- The configured types after a call, whether that failed or not. -/
def TypeMap.after (m : TypeMap) : TypeMapper.Call → TypeMap
  | .configure f t => match m.configure f t with
    | .ok m => m
    | .error _ => m
  | _ => m

namespace TypeMapper

def after (m : TypeMapper) : Call → TypeMapper
  | .configure f t => (m.configure f t).2
  | .resolve f => (m.resolve f).2
  | .defaultFor type => (m.defaultFor type).2

/-- A new mapper after some calls. -/
def afterCalls (calls : List Call) : TypeMapper := calls.foldl after {}

def Remembers (m : TypeMapper) : Prop := ∀ e ∈ m.enums, e.2 = e.1.2.sqlType

variable {m : TypeMapper} {calls : List Call} {f : Field}

theorem defaultFor_eq (h : m.Remembers) (type : ValueType) :
    (m.defaultFor type).1 = defaultType type ∧ (m.defaultFor type).2.types = m.types ∧
      (m.defaultFor type).2.Remembers := by
  cases type with
  | enum name storage =>
    unfold defaultFor
    dsimp only
    split
    next t ht =>
      have hmem : ((name, storage), t) ∈ m.enums := by
        obtain ⟨l, r, hlr, -⟩ := List.lookup_eq_some_iff.1 ht
        exact hlr ▸ by simp
      exact ⟨congrArg _ (h _ hmem), rfl, h⟩
    · exact ⟨rfl, rfl, List.forall_mem_cons.2 ⟨rfl, h⟩⟩
  | _ => exact ⟨rfl, rfl, h⟩

/-- A lookup gives what the configured types say, whatever was looked up before. -/
theorem resolve_eq (h : m.Remembers) (f : Field) :
    (m.resolve f).1 = m.types.resolve f ∧ (m.resolve f).2.types = m.types ∧
      (m.resolve f).2.Remembers := by
  obtain ⟨hd, ht, hr⟩ := defaultFor_eq h f.type
  unfold resolve TypeMap.resolve
  cases m.types.override? f.id with
  | some t => exact ⟨rfl, rfl, h⟩
  | none => exact ⟨by rw [← hd], ht, hr⟩

theorem after_eq (h : m.Remembers) (c : Call) :
    (m.after c).types = m.types.after c ∧ (m.after c).Remembers := by
  cases c with
  | configure f t =>
    simp only [after, configure, TypeMap.after]
    cases m.types.configure f t <;> exact ⟨rfl, h⟩
  | resolve f => exact (resolve_eq h f).2
  | defaultFor type => exact (defaultFor_eq h type).2

theorem foldl_after (h : m.Remembers) (calls : List Call) :
    (calls.foldl after m).types = calls.foldl TypeMap.after m.types ∧
      (calls.foldl after m).Remembers := by
  induction calls generalizing m with
  | nil => exact ⟨rfl, h⟩
  | cons c rest ih =>
    obtain ⟨ht, hr⟩ := after_eq h c
    rw [List.foldl_cons, List.foldl_cons, ← ht]
    exact ih hr

theorem foldl_configures (types : TypeMap) (calls : List Call) :
    (calls.filter Call.configures).foldl TypeMap.after types = calls.foldl TypeMap.after types := by
  induction calls generalizing types with
  | nil => rfl
  | cons c rest ih =>
    cases c with
    | configure f t => exact ih _
    | _ => exact ih types

/-- A column's type after some calls depends on those that configure types only. -/
theorem resolve_afterCalls (calls : List Call) (f : Field) :
    ((afterCalls calls).resolve f).1 = (calls.foldl TypeMap.after {}).resolve f ∧
      ((afterCalls (calls.filter Call.configures)).resolve f).1 =
        (calls.foldl TypeMap.after {}).resolve f := by
  have hnew : Remembers {} := by simp [Remembers]
  have hresolve : ∀ calls, ((afterCalls calls).resolve f).1 =
      (calls.foldl TypeMap.after {}).resolve f := by
    intro calls
    obtain ⟨ht, hr⟩ := foldl_after hnew calls
    rw [afterCalls, (resolve_eq hr f).1, ht]
  exact ⟨hresolve calls, (hresolve _).trans (by rw [foldl_configures])⟩

/-- A type is in force for a column because a call configured it, for a logical type that it takes. -/
theorem exists_configure {types : TypeMap} {id : ColumnId} {t : SqlType}
    (h : (calls.foldl TypeMap.after types).override? id = some t) :
    types.override? id = some t ∨ ∃ g, Call.configure g t ∈ calls ∧ g.id = id ∧
      accepts g.type t.dbType = true := by
  induction calls generalizing types with
  | nil => exact .inl h
  | cons c rest ih =>
    rcases ih h with hc | ⟨g, hg, hid, ha⟩
    · cases c with
      | configure g u =>
        simp only [TypeMap.after, TypeMap.configure] at hc
        split at hc
        next types' hu =>
          split_ifs at hu with ha
          obtain rfl := Except.ok.inj hu
          rw [TypeMap.override?, List.lookup_cons] at hc
          split at hc
          next hid =>
            obtain rfl := Option.some.inj hc
            exact .inr ⟨g, by simp, (eq_of_beq hid).symm, ha⟩
          · exact .inl hc
        · exact .inl hc
      | _ => exact .inl hc
    · exact .inr ⟨g, by simp [hg], hid, ha⟩

/-- The number in a value is out of the range of an integral type of fewer bits than its enumeration is
stored with, which was configured for the enumeration's column. -/
def Narrows (calls : List Call) (f : Field) (t : SqlType) (v : Value) : Prop :=
  ∃ name storage g i, f.type = .enum name storage ∧ Call.configure g t ∈ calls ∧ g.id = f.id ∧
    t.dbType.isIntegral = true ∧ t.dbType.bits < storage.sqlType.dbType.bits ∧
    v.asInt? = some i ∧ t.dbType.holds i = false

theorem exists_resolve (hcustom : ∀ name, f.type ≠ .custom name)
    (hone : ∀ g t, Call.configure g t ∈ calls → g.id = f.id → g.type = f.type) :
    ∃ t, (calls.foldl TypeMap.after {}).resolve f = .ok t ∧ accepts f.type t.dbType = true ∧
      ((∃ g, Call.configure g t ∈ calls ∧ g.id = f.id) ∨ defaultType f.type = .ok t) := by
  cases ho : (calls.foldl TypeMap.after {}).override? f.id with
  | some t =>
    rcases exists_configure ho with hnone | ⟨g, hg, hid, ha⟩
    · cases hnone
    · rw [hone g t hg hid] at ha
      exact ⟨t, by rw [TypeMap.resolve, ho], ha, .inl ⟨g, hg, hid⟩⟩
  | none =>
    obtain ⟨t, ht, ha⟩ := exists_defaultType hcustom
    exact ⟨t, by rw [TypeMap.resolve, ho, ht]; rfl, ha, .inr ht⟩

/-- A mapper was asked and told anything, and a column has one logical type throughout. Its SQL type is
the same without the lookups before, and takes the column's logical type. Each value that was read as the
logical type can be written and reads as itself again, unless it is a number out of the narrower range
that its enumeration's column was configured for. -/
theorem resolve_writesBack (hcustom : ∀ name, f.type ≠ .custom name)
    (hone : ∀ g t, Call.configure g t ∈ calls → g.id = f.id → g.type = f.type) :
    ∃ t, ((afterCalls calls).resolve f).1 = .ok t ∧
      ((afterCalls (calls.filter Call.configures)).resolve f).1 = .ok t ∧
      accepts f.type t.dbType = true ∧
      ∀ n v, decode f.type n = .ok v →
        (¬ Narrows calls f t v → ∃ m, toNative t v = .ok m ∧ decode f.type m = .ok v) ∧
        (Narrows calls f t v → ∃ text, toNative t v = .error (.argumentOutOfRange text)) := by
  obtain ⟨t, ht, ha, hfrom⟩ := exists_resolve hcustom hone
  obtain ⟨hall, hfiltered⟩ := resolve_afterCalls calls f
  refine ⟨t, hall.trans ht, hfiltered.trans ht, ha, fun n v hd => ?_⟩
  obtain ⟨hin, hout⟩ := toNative_of_decode ha hd
  have hfits : v.fits t.dbType = false ↔ Narrows calls f t v := by
    constructor
    · intro hf
      obtain ⟨name, storage, i, he, hi, hv, hlacks, hholds⟩ := exists_enum_of_not_fits ha hd hf
      rcases hfrom with ⟨g, hg, hid⟩ | hdefault
      · refine ⟨name, storage, g, i, he, hg, hid, hi, ?_, hv, hlacks⟩
        by_contra hle
        rw [DbType.holds_of_bits_le hi (Nat.le_of_not_lt hle) hholds] at hlacks
        cases hlacks
      · rw [he] at hdefault
        obtain rfl := Except.ok.inj hdefault
        rw [hholds] at hlacks
        cases hlacks
    · rintro ⟨-, -, -, i, -, -, -, -, -, hv, hlacks⟩
      rw [Value.fits, hv]
      exact hlacks
  refine ⟨fun hnot => hin ?_, fun hnarrows => hout (hfits.2 hnarrows)⟩
  rw [← Bool.not_eq_false, hfits]
  exact hnot

def status : Field := ⟨⟨1⟩, "Status", .enum "OrderStatus" .int32⟩

/-- The column is given one byte, and a truth value in vain, between lookups. -/
def statusCalls : List Call :=
  [.defaultFor status.type, .configure status .tinyInt, .resolve status, .configure status .bit]

theorem resolve_writesBack_status :
    (∀ name, status.type ≠ .custom name) ∧
      (∀ g t, Call.configure g t ∈ statusCalls → g.id = status.id → g.type = status.type) ∧
      ((afterCalls statusCalls).resolve status).1 = .ok .tinyInt ∧
      (∃ m, toNative .tinyInt (.int32 7) = .ok m ∧ decode status.type m = .ok (.int32 7)) ∧
      ∃ text, toNative .tinyInt (.int32 300) = .error (.argumentOutOfRange text) := by
  have hcustom : ∀ name, status.type ≠ .custom name := by simp [status]
  have hone : ∀ g t, Call.configure g t ∈ statusCalls → g.id = status.id → g.type = status.type := by
    intro g t hg hid
    obtain ⟨rfl, -⟩ | ⟨rfl, -⟩ : (g = status ∧ _) ∨ (g = status ∧ _) := by
      simpa [statusCalls] using hg
    · rfl
    · rfl
  have htype : ((afterCalls statusCalls).resolve status).1 = .ok .tinyInt := by decide +kernel
  obtain ⟨t, ht, -, -, hback⟩ := resolve_writesBack hcustom hone
  obtain rfl : t = .tinyInt := Except.ok.inj (ht.symm.trans htype)
  refine ⟨hcustom, hone, htype, (hback (.i64 7) (.int32 7) (by decide +kernel)).1 ?_,
    (hback (.i16 300) (.int32 300) (by decide +kernel)).2 ?_⟩
  · rintro ⟨-, -, -, i, -, -, -, -, -, hi, hlacks⟩
    obtain rfl : (7 : Int) = i := Option.some.inj hi
    exact absurd hlacks (by decide)
  · exact ⟨"OrderStatus", .int32, status, 300, rfl, by simp [statusCalls], rfl, rfl, by decide, rfl,
      by decide⟩

def label : Field := ⟨⟨2⟩, "Label", .string⟩

/-- Types are kept by identity: a copy of a column that was given another logical type passes its SQL type
on, which does not take the column's texts, and a copy under another name passes on the narrower range. -/
theorem resolve_sharedIdentity :
    (∃ t, ((afterCalls [.configure { label with type := .int32 } .int]).resolve label).1 = .ok t ∧
      accepts label.type t.dbType = false ∧ decode label.type (.string "a") = .ok (.string "a") ∧
      ∃ e, toNative t (.string "a") = .error e) ∧
    ∃ t, ((afterCalls [.configure { status with name := "Archived" } .tinyInt]).resolve status).1 = .ok t ∧
      decode status.type (.i32 300) = .ok (.int32 300) ∧
      ∃ text, toNative t (.int32 300) = .error (.argumentOutOfRange text) :=
  ⟨⟨.int, rfl, rfl, rfl, _, rfl⟩, .tinyInt, rfl, rfl, _, rfl⟩

end TypeMapper

end Tsql
