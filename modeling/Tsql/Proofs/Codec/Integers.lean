import Mathlib.Tactic.SplitIfs
import Tsql.Proofs.Result
import Tsql.Rowset

/-!
# Integers through the codec

An integer that a key column can hold stays the same number as a value, as a native value and in
JSON, whatever SQL type the column has.
-/

namespace Tsql

variable {i : Int} {v : Value} {n : Native}

theorem Value.asInt?_of_integral? {t : ValueType} (h : Value.integral? t i = some v) :
    v.asInt? = some i := by
  cases t <;> simp only [integral?, reduceCtorEq] at h <;> split_ifs at h with hf <;>
    obtain rfl := Option.some.inj h
  · obtain ⟨h0, h1⟩ := of_decide_eq_true hf
    have hlt : i.toNat < 256 := by omega
    simp only [asInt?, UInt8.toNat_ofNat_of_lt' (show i.toNat < UInt8.size from hlt)]
    congr 1
    omega
  · obtain ⟨h0, h1⟩ := of_decide_eq_true hf
    simp only [asInt?, Int16.toInt_ofInt_of_le h0 h1]
  · obtain ⟨h0, h1⟩ := of_decide_eq_true hf
    simp only [asInt?, Int32.toInt_ofInt_of_le h0 h1]
  · obtain ⟨h0, h1⟩ := fitsInt64_iff.1 hf
    simp only [asInt?, Int64.toInt_ofInt_of_le h0 (Int.lt_add_one_of_le h1)]

theorem Value.fitsInt64_of_asInt? (h : v.asInt? = some i) : fitsInt64 i = true := by
  rw [fitsInt64_iff]
  cases v with
  | byte n =>
    obtain rfl := Option.some.inj h
    have := n.toNat_lt
    simp only [minInt64, maxInt64]
    omega
  | int16 n =>
    obtain rfl := Option.some.inj h
    have h0 := n.le_toInt
    have h1 := n.toInt_lt
    simp only [minInt64, maxInt64]
    omega
  | int32 n =>
    obtain rfl := Option.some.inj h
    have h0 := n.le_toInt
    have h1 := n.toInt_lt
    simp only [minInt64, maxInt64]
    omega
  | int64 n =>
    obtain rfl := Option.some.inj h
    have h0 := n.le_toInt
    have h1 := n.toInt_lt
    simp only [minInt64, maxInt64]
    omega
  | _ => cases h

/-- The integer of an integral value makes the value again. -/
theorem Value.integral?_of_asInt? {t : ValueType} (ht : v.type? = some t) (h : v.asInt? = some i) :
    Value.integral? t i = some v := by
  cases v with
  | byte n =>
    obtain rfl := Option.some.inj ht
    obtain rfl := Option.some.inj h
    have hfits : fitsByte n.toNat = true := decide_eq_true ⟨by omega, by have := n.toNat_lt; omega⟩
    rw [integral?, if_pos hfits, Int.toNat_natCast, UInt8.ofNat_toNat]
  | int16 n =>
    obtain rfl := Option.some.inj ht
    obtain rfl := Option.some.inj h
    have hfits : fitsInt16 n.toInt = true := decide_eq_true ⟨n.le_toInt, n.toInt_lt⟩
    rw [integral?, if_pos hfits, Int16.ofInt_toInt]
  | int32 n =>
    obtain rfl := Option.some.inj ht
    obtain rfl := Option.some.inj h
    have hfits : fitsInt32 n.toInt = true := decide_eq_true ⟨n.le_toInt, n.toInt_lt⟩
    rw [integral?, if_pos hfits, Int32.ofInt_toInt]
  | int64 n =>
    obtain rfl := Option.some.inj ht
    obtain rfl := Option.some.inj h
    have hfits : fitsInt64 n.toInt = true := fitsInt64_of_asInt? (v := .int64 n) rfl
    rw [integral?, if_pos hfits, Int64.ofInt_toInt]
  | _ => cases h

theorem Native.asInt?_of_value {vt : ValueType} {f : Value → Option Native} {e : Error}
    (hf : ∀ v n, f v = some n → n.asInt? = v.asInt?)
    (h : (match (Value.integral? vt i).bind f with
      | some n => Except.ok n
      | none => .error e) = .ok n) : n.asInt? = some i := by
  split at h
  next m hm =>
    obtain rfl := Except.ok.inj h
    obtain ⟨v, hv, hn⟩ := Option.bind_eq_some_iff.1 hm
    rw [hf v m hn, Value.asInt?_of_integral? hv]
  · cases h

/-- A native integer of any width holds the number that it was made from. -/
theorem Native.asInt?_of_integral {t : DbType} (hi : fitsInt64 i = true)
    (h : Native.integral t i = .ok n) : n.asInt? = some i := by
  unfold Native.integral at h
  dsimp only at h
  split at h
  · refine asInt?_of_value (fun v m hv => ?_) h
    split at hv <;> cases hv
    rfl
  · refine asInt?_of_value (fun v m hv => ?_) h
    split at hv <;> cases hv
    rfl
  · refine asInt?_of_value (fun v m hv => ?_) h
    split at hv <;> cases hv
    rfl
  · obtain rfl := Except.ok.inj h
    obtain ⟨h0, h1⟩ := fitsInt64_iff.1 hi
    simp only [asInt?, Int64.toInt_ofInt_of_le h0 (Int.lt_add_one_of_le h1)]

theorem Native.json_of_asInt? {digitCount : Nat} (h : n.asInt? = some i) :
    n.json digitCount = .ok (.ofInt i) := by
  cases n with
  | u8 n | i16 n | i32 n | i64 n =>
    obtain rfl := Option.some.inj h
    rfl
  | _ => cases h

theorem Native.fitsInt64_of_asInt? (h : n.asInt? = some i) : fitsInt64 i = true := by
  cases n with
  | u8 n => exact Value.fitsInt64_of_asInt? (v := .byte n) h
  | i16 n => exact Value.fitsInt64_of_asInt? (v := .int16 n) h
  | i32 n => exact Value.fitsInt64_of_asInt? (v := .int32 n) h
  | i64 n => exact Value.fitsInt64_of_asInt? (v := .int64 n) h
  | _ => cases h

theorem Value.native_asInt? (v : Value) : v.native.asInt? = v.asInt? := by cases v <;> rfl

theorem jsonValue_of_asInt? {t : SqlType} {j : Json} (hv : v.asInt? = some i)
    (h : jsonValue t v = .ok j) : j = .ofInt i := by
  obtain ⟨n, hn, h⟩ := Result.bind_eq_ok h
  have hint : n.asInt? = some i := by
    obtain ⟨-, -, hn⟩ := Result.bind_eq_ok hn
    rw [hv] at hn
    split at hn
    next k _ hk _ =>
      obtain rfl := Option.some.inj hk
      exact Native.asInt?_of_integral (Value.fitsInt64_of_asInt? hv) hn
    · obtain rfl := Except.ok.inj hn
      rw [Value.native_asInt?, hv]
  rw [Native.json_of_asInt? hint] at h
  exact (Except.ok.inj h).symm

/-- What an integral type reads: nothing, or an integer that it can hold. -/
theorem decode_integral {t : ValueType} (ht : t.isIntegral = true) (h : decode t n = .ok v) :
    (n = .dbNull ∧ v = .null) ∨ ∃ i, n.asInt? = some i ∧ Value.integral? t i = some v := by
  have hd : decode? t n = n.asInt?.bind (Value.integral? t) := by
    cases t <;> simp [ValueType.isIntegral, decode?] at ht ⊢
  unfold decode at h
  split at h
  · exact .inl ⟨rfl, (Except.ok.inj h).symm⟩
  · split at h
    next w hw =>
      obtain rfl := Except.ok.inj h
      rw [hd] at hw
      exact .inr (Option.bind_eq_some_iff.1 hw)
    · cases h

theorem jsonValue_null {t : SqlType} {j : Json} (h : jsonValue t .null = .ok j) : j = .null := by
  cases h
  rfl

end Tsql
