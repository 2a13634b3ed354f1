import Mathlib.Tactic.Tauto
import Tsql.Proofs.Codec.LiteralRoundTrip
import Tsql.Proofs.Codec.WriteBack

/-!
# Texts that are literals

`Denotes` says which texts are literals of strings, characters and bytes, and of which value: a body in
single quotes in which every quote is written twice, with or without `N` in front of it, or `0x` and an even
number of hexadecimal digits. All of them are read as that value. The reader drops quotes in pairs and takes
a plus sign for the first of two digits, so it also reads the texts of `Slips`, which are no literals;
`readLiteral_wellFormed` is that it reads nothing else.
-/

namespace Tsql

open Text

/-! ### Literals -/

/-- A body in single quotes, with or without the mark of a national string. -/
def Quoted (s body : List Char) : Prop :=
  s = '\'' :: (body ++ ['\'']) ∨ s = 'N' :: '\'' :: (body ++ ['\''])

def isHexDigit (c : Char) : Bool := (hexValue? c).isSome

/-- The bytes that pairs of hexadecimal digits stand for. -/
def hexBytes : List Char → List UInt8
  | a :: b :: ds => .ofNat (16 * (hexValue? a).getD 0 + (hexValue? b).getD 0) :: hexBytes ds
  | _ => []

/-- The texts of string, character and binary literals, with the values they denote. -/
inductive Denotes : ValueType → List Char → Value → Prop where
  /-- Every quote of the body is doubled. -/
  | string {s text : List Char} (h : Quoted s (doubled '\'' text)) :
      Denotes .string s (.string (String.ofList text))
  /-- The body denotes one character. -/
  | char {s : List Char} {c : Char} (h : Quoted s (doubled '\'' [c])) : Denotes .char s (.char c)
  | binary {x : Char} {ds : List Char} (hx : x = 'x' ∨ x = 'X') (heven : ds.length % 2 = 0)
      (hds : ∀ c ∈ ds, isHexDigit c = true) : Denotes .binary ('0' :: x :: ds) (.bytes (hexBytes ds))

/-- Pairs of a hexadecimal digit or a plus sign, and a hexadecimal digit. -/
def SignedPairs : List Char → Prop
  | [] => True
  | [_] => False
  | a :: b :: ds => (a = '+' ∨ isHexDigit a = true) ∧ isHexDigit b = true ∧ SignedPairs ds

/-- Texts that are no literals but are read all the same. -/
inductive Slips : ValueType → List Char → Prop where
  /-- Some quote of the body stands alone. -/
  | string {s body : List Char} (h : Quoted s body) (halone : ∀ text, body ≠ doubled '\'' text) :
      Slips .string s
  /-- The body is one quote. -/
  | char {s : List Char} (h : Quoted s ['\'']) : Slips .char s
  /-- Some byte has a sign for its first digit. -/
  | binary {x : Char} {ds : List Char} (hx : x = 'x' ∨ x = 'X') (hds : SignedPairs ds)
      (hplus : '+' ∈ ds) : Slips .binary ('0' :: x :: ds)

variable {t : SqlType} {vt : ValueType} {v : Value} {s body text ds : List Char}

theorem Quoted.unique {body' : List Char} (h : Quoted s body) (h' : Quoted s body') : body = body' := by
  rcases h with rfl | rfl <;> rcases h' with h' | h' <;> simp at h' <;> exact h'

/-! ### Quoted bodies -/

/-- Reading pairs of quotes and doubling what was read shows whether one stood alone. -/
theorem ne_doubled {q : Char} (h : doubled q (undoubled q body) ≠ body) (text : List Char) :
    body ≠ doubled q text := by
  rintro rfl
  rw [undoubled_doubled] at h
  exact h rfl

theorem undoubled_eq_nil {q : Char} (h : undoubled q s = []) : s = [] := by
  rcases s with _ | ⟨a, _ | ⟨b, r⟩⟩
  · rfl
  · cases h
  · rw [undoubled] at h
    split at h <;> cases h

/-- A body that is read as one character denotes it, unless it is a single quote. -/
theorem eq_of_undoubled_singleton {q c : Char} (h : undoubled q body = [c]) :
    body = doubled q [c] ∨ body = [q] ∧ c = q := by
  rcases body with _ | ⟨a, _ | ⟨b, r⟩⟩
  · cases h
  · obtain rfl := (List.cons.inj h).1
    by_cases ha : a = q
    · exact .inr ⟨by rw [ha], ha⟩
    · exact .inl (by simp [doubled, ha])
  · rw [undoubled] at h
    split_ifs at h with hab
    · obtain ⟨rfl, rfl⟩ := hab
      obtain ⟨rfl, hr⟩ := List.cons.inj h
      obtain rfl := undoubled_eq_nil hr
      exact .inl (by simp [doubled])
    · cases undoubled_eq_nil (List.cons.inj h).2

theorem Quoted.unquote? (h : Quoted s body) : unquote? s = some (undoubled '\'' body) := by
  rcases h with rfl | rfl <;> simp [Tsql.unquote?]

/-- A quoted text behind its opening quote. -/
theorem exists_body {r : List Char}
    (h : (if r.getLast? = some '\'' then some (undoubled '\'' r.dropLast) else none) = some text) :
    ∃ body, r = body ++ ['\''] ∧ text = undoubled '\'' body := by
  split_ifs at h with hlast
  obtain ⟨body, rfl⟩ := List.getLast?_eq_some_iff.1 hlast
  rw [List.dropLast_concat] at h
  exact ⟨body, rfl, (Option.some.inj h).symm⟩

theorem exists_quoted_of_unquote? (h : unquote? s = some text) :
    ∃ body, Quoted s body ∧ text = undoubled '\'' body := by
  unfold Tsql.unquote? at h
  split at h
  · dsimp only at h
    split at h
    · obtain ⟨body, rfl, htext⟩ := exists_body h
      exact ⟨body, .inr rfl, htext⟩
    · cases h
  · dsimp only at h
    split at h
    · obtain ⟨body, rfl, htext⟩ := exists_body h
      exact ⟨body, .inl rfl, htext⟩
    · cases h

theorem Quoted.readTrimmed? (h : Quoted s body) :
    readTrimmed? vt s = readQuoted? vt (undoubled '\'' body) := by
  have hnull : equalsWord "null" s = false := by rcases h with rfl | rfl <;> simp [equalsWord]
  unfold Tsql.readTrimmed?
  rw [hnull, h.unquote?]
  rfl

/-- What is read as a value of a type of texts is quoted. -/
theorem exists_quoted (ht : vt = .string ∨ vt = .char) (hv : v ≠ .null) (h : readTrimmed? vt s = some v) :
    ∃ body, Quoted s body ∧ readQuoted? vt (undoubled '\'' body) = some v := by
  unfold readTrimmed? at h
  split at h
  · exact absurd (Option.some.inj h).symm hv
  split at h
  next text htext =>
    obtain ⟨body, hbody, rfl⟩ := exists_quoted_of_unquote? htext
    exact ⟨body, hbody, h⟩
  · split at h <;> rcases ht with rfl | rfl <;> cases h

/-! ### Pairs of hexadecimal digits -/

theorem readHexByte?_isSome {a b : Char} :
    (readHexByte? a b).isSome = true ↔ (a = '+' ∨ isHexDigit a = true) ∧ isHexDigit b = true := by
  unfold readHexByte? isHexDigit
  split_ifs with ha
  · simp [ha]
  · cases hexValue? a <;> cases hexValue? b <;> simp [ha]

theorem exists_readHex? : (∃ bytes, readHex? ds = some bytes) ↔ SignedPairs ds := by
  rw [← Option.isSome_iff_exists]
  fun_induction SignedPairs ds with
  | case1 => simp [readHex?]
  | case2 => simp [readHex?]
  | case3 a b ds ih =>
    rw [← ih, ← and_assoc, ← readHexByte?_isSome, readHex?]
    cases readHexByte? a b <;> cases readHex? ds <;> simp

theorem readHex?_digits (heven : ds.length % 2 = 0) (hds : ∀ c ∈ ds, isHexDigit c = true) :
    readHex? ds = some (hexBytes ds) := by
  fun_induction hexBytes ds with
  | case1 a b ds ih =>
    obtain ⟨x, hx⟩ := Option.isSome_iff_exists.1 (hds a (by simp))
    obtain ⟨y, hy⟩ := Option.isSome_iff_exists.1 (hds b (by simp))
    have hplus : a ≠ '+' := by
      rintro rfl
      cases hx
    rw [readHex?, ih (by simp at heven; omega) fun c hc => hds c (by simp [hc]), readHexByte?,
      if_neg hplus, hx, hy]
    rfl
  | case2 ds hpair =>
    rcases ds with _ | ⟨a, _ | ⟨b, r⟩⟩
    · rfl
    · simp at heven
    · exact absurd rfl (hpair a b r)

theorem signedPairs_iff (hplus : '+' ∉ ds) :
    SignedPairs ds ↔ ds.length % 2 = 0 ∧ ∀ c ∈ ds, isHexDigit c = true := by
  fun_induction SignedPairs ds with
  | case1 => simp
  | case2 => simp
  | case3 a b ds ih =>
    have ha : a ≠ '+' := fun h => hplus (by simp [h])
    rw [ih fun h => hplus (by simp [h])]
    simp only [ha, false_or, List.length_cons, List.mem_cons, forall_eq_or_imp, Nat.add_assoc,
      Nat.add_mod_right]
    tauto

theorem plus_notMem (hds : ∀ c ∈ ds, isHexDigit c = true) : '+' ∉ ds :=
  fun h => absurd (hds _ h) (by decide)

theorem readTrimmed?_binary {x : Char} (hx : x = 'x' ∨ x = 'X') :
    readTrimmed? .binary ('0' :: x :: ds) = (readHex? ds).map .bytes := by
  have hnull : equalsWord "null" ('0' :: x :: ds) = false := by simp [equalsWord]
  have hunquoted : unquote? ('0' :: x :: ds) = none := rfl
  unfold readTrimmed?
  rw [hnull, hunquoted]
  rcases hx with rfl | rfl <;> rfl

theorem exists_hexDigits (hv : v ≠ .null) (h : readTrimmed? .binary s = some v) :
    ∃ x ds bytes, (x = 'x' ∨ x = 'X') ∧ s = '0' :: x :: ds ∧ readHex? ds = some bytes := by
  unfold readTrimmed? at h
  split at h
  · exact absurd (Option.some.inj h).symm hv
  split at h
  · cases h
  split at h
  next ds _ _ =>
    obtain ⟨bytes, hbytes, -⟩ := Option.map_eq_some_iff.1 h
    exact ⟨'x', ds, bytes, .inl rfl, rfl, hbytes⟩
  next ds _ _ =>
    obtain ⟨bytes, hbytes, -⟩ := Option.map_eq_some_iff.1 h
    exact ⟨'X', ds, bytes, .inr rfl, rfl, hbytes⟩
  · cases h

/-! ### What is read -/

theorem Denotes.ne_null (h : Denotes vt s v) : v ≠ .null := by cases h <;> simp

theorem Denotes.readTrimmed? (h : Denotes vt s v) : readTrimmed? vt s = some v := by
  cases h with
  | string h => rw [h.readTrimmed?, undoubled_doubled, readQuoted?]
  | char h =>
    rw [h.readTrimmed?, undoubled_doubled, readQuoted?, singleChar?, String.toList_ofList]
    rfl
  | binary hx heven hds => rw [readTrimmed?_binary hx, readHex?_digits heven hds, Option.map_some]

theorem Slips.exists_readTrimmed? (h : Slips vt s) : ∃ v, v ≠ .null ∧ readTrimmed? vt s = some v := by
  cases h with
  | string h halone => exact ⟨_, by simp, h.readTrimmed?⟩
  | char h => exact ⟨.char '\'', by simp, h.readTrimmed?⟩
  | binary hx hds hplus =>
    obtain ⟨bytes, hbytes⟩ := exists_readHex?.2 hds
    exact ⟨.bytes bytes, by simp, by rw [readTrimmed?_binary hx, hbytes, Option.map_some]⟩

theorem Slips.not_denotes (h : Slips vt s) : ¬ Denotes vt s v := by
  intro hd
  cases hd with
  | string hd =>
    cases h with
    | string h halone => exact halone _ (h.unique hd)
  | @char _ c hd =>
    cases h with
    | char h =>
      have hbody := h.unique hd
      by_cases hc : c = '\'' <;> simp [doubled, hc] at hbody
      exact hc hbody.symm
  | binary _ _ hds =>
    cases h with
    | binary _ _ hplus => exact plus_notMem hds hplus

/-- What is read as a value is a literal of it or a text of `Slips`. -/
theorem denotes_or_slips (ht : vt = .string ∨ vt = .char ∨ vt = .binary) (hv : v ≠ .null)
    (h : readTrimmed? vt s = some v) : Denotes vt s v ∨ Slips vt s := by
  rcases ht with rfl | rfl | rfl
  · obtain ⟨body, hq, hv⟩ := exists_quoted (.inl rfl) hv h
    obtain rfl := Option.some.inj hv
    by_cases hd : ∃ text, body = doubled '\'' text
    · obtain ⟨text, rfl⟩ := hd
      rw [undoubled_doubled]
      exact .inl (.string hq)
    · exact .inr (.string hq fun text ht => hd ⟨text, ht⟩)
  · obtain ⟨body, hq, hv⟩ := exists_quoted (.inr rfl) hv h
    obtain ⟨c, hc, rfl⟩ := Option.map_eq_some_iff.1 hv
    have hone : undoubled '\'' body = [c] := String.ofList_injective (singleChar?_eq_some hc)
    rcases eq_of_undoubled_singleton hone with rfl | ⟨rfl, rfl⟩
    · exact .inl (.char hq)
    · exact .inr (.char hq)
  · obtain ⟨x, ds, bytes, hx, rfl, hbytes⟩ := exists_hexDigits hv h
    rw [readTrimmed?_binary hx, hbytes] at h
    obtain rfl := Option.some.inj h
    by_cases hplus : '+' ∈ ds
    · exact .inr (.binary hx (exists_readHex?.1 ⟨bytes, hbytes⟩) hplus)
    · obtain ⟨heven, hds⟩ := (signedPairs_iff hplus).1 (exists_readHex?.1 ⟨bytes, hbytes⟩)
      rw [readHex?_digits heven hds] at hbytes
      obtain rfl := Option.some.inj hbytes
      exact .inl (.binary hx heven hds)

theorem readLiteral_eq_ok (hstores : accepts vt t.dbType = true ∨ vt = .string ∧ t = .xml) {text : String} :
    readLiteral t vt text = .ok v ↔ readTrimmed? vt (trim text.toList) = some v := by
  refine ⟨fun h => ?_, readLiteral_of_readTrimmed? hstores⟩
  unfold readLiteral at h
  split at h
  · dsimp only at h
    split at h
    next w hw => rw [hw, Except.ok.inj h]
    · cases h
  · cases h

/-- A text is read as a value other than `null` exactly if it is a literal, unless it is one of `Slips`. A
literal is read as the value that it denotes; a text of `Slips` is no literal but read all the same. -/
theorem readLiteral_wellFormed (ht : vt = .string ∨ vt = .char ∨ vt = .binary)
    (hstores : accepts vt t.dbType = true ∨ vt = .string ∧ t = .xml) (text : String) :
    (∀ v, Denotes vt (trim text.toList) v → readLiteral t vt text = .ok v) ∧
    (¬ Slips vt (trim text.toList) →
      ((∃ v, v ≠ .null ∧ readLiteral t vt text = .ok v) ↔ ∃ v, Denotes vt (trim text.toList) v)) ∧
    (Slips vt (trim text.toList) →
      (∃ v, v ≠ .null ∧ readLiteral t vt text = .ok v) ∧ ¬ ∃ v, Denotes vt (trim text.toList) v) := by
  simp only [readLiteral_eq_ok hstores]
  refine ⟨fun v => Denotes.readTrimmed?, fun hslips => ⟨?_, ?_⟩, fun hslips => ⟨hslips.exists_readTrimmed?, ?_⟩⟩
  · rintro ⟨v, hv, hread⟩
    exact ⟨v, (denotes_or_slips ht hv hread).resolve_right hslips⟩
  · rintro ⟨v, hd⟩
    exact ⟨v, hd.ne_null, hd.readTrimmed?⟩
  · rintro ⟨v, hd⟩
    exact hslips.not_denotes hd

/-- A national string with blanks around it, bytes in digits of both cases, a text without quotes, and a
quote that stands alone where a character is read. -/
theorem readLiteral_wellFormed_forms :
    accepts .string (SqlType.varChar (.fixed 10)).dbType = true ∧
      Denotes .string (trim " N'it''s' ".toList) (.string "it's") ∧
      readLiteral (.varChar (.fixed 10)) .string " N'it''s' " = .ok (.string "it's") ∧
      accepts .binary (SqlType.varBinary .max).dbType = true ∧
      readLiteral (.varBinary .max) .binary "0XaB" = .ok (.bytes [0xAB]) ∧
      accepts .char (SqlType.nChar 1).dbType = true ∧
      (¬ ∃ v, v ≠ .null ∧ readLiteral (.nChar 1) .char "it" = .ok v) ∧
      Slips .char (trim "\'\'\'".toList) ∧ (∃ v, v ≠ .null ∧ readLiteral (.nChar 1) .char "\'\'\'" = .ok v) ∧
      ¬ ∃ v, Denotes .char (trim "\'\'\'".toList) v := by
  have hquoted : Quoted (trim " N'it''s' ".toList) (doubled '\'' "it's".toList) := .inr (by decide)
  have hstring : Denotes .string (trim " N'it''s' ".toList) (.string "it's") := .string hquoted
  have hbinary : Denotes .binary (trim "0XaB".toList) (.bytes [0xAB]) :=
    @Denotes.binary 'X' ['a', 'B'] (.inr rfl) rfl (List.all_eq_true.1 (by decide))
  have hplain : ¬ Slips .char (trim "it".toList) := by
    rintro (_ | ⟨h | h⟩ | _) <;> revert h <;> decide
  have hnone : ¬ ∃ v, Denotes .char (trim "it".toList) v := by
    rintro ⟨v, hd⟩
    cases hd with
    | char h => rcases h with h | h <;> exact absurd (List.cons.inj h).1 (by decide)
  have hslips : Slips .char (trim "\'\'\'".toList) := .char (.inl (by decide))
  have hchar := @readLiteral_wellFormed (.nChar 1) .char (.inr (.inl rfl)) (.inl rfl)
  refine ⟨rfl, hstring, (readLiteral_wellFormed (.inl rfl) (.inl rfl) _).1 _ hstring, rfl,
    (readLiteral_wellFormed (.inr (.inr rfl)) (.inl rfl) _).1 _ hbinary, rfl, ?_, hslips,
    (hchar _).2.2 hslips⟩
  rw [(hchar "it").2.1 hplain]
  exact hnone

/-- A quote that stands alone inside of a string. -/
theorem readLiteral_loneQuote :
    readLiteral (.varChar (.fixed 10)) .string "'it's'" = .ok (.string "it's") ∧
      ¬ ∃ v, Denotes .string (trim "'it's'".toList) v := by
  have hquoted : Quoted (trim "'it's'".toList) "it's".toList := .inl (by decide)
  have hslips : Slips .string (trim "'it's'".toList) := .string hquoted (ne_doubled (by decide))
  refine ⟨by decide, ?_⟩
  rintro ⟨v, hd⟩
  exact hslips.not_denotes hd

end Tsql
