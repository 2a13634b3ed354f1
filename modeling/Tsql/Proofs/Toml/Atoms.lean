import Mathlib.Tactic.IntervalCases
import Tsql.Proofs.Json.Reading
import Tsql.Toml.Reader

/-!
# Strings, keys and numbers of TOML read back

A string is written between quotes, on one line, and a whole number as its digits. The readers take them in
front of whatever may stand behind a value; a number is taken for no date, since no hyphen or colon follows
its digits.
-/

namespace Tsql

open Text

namespace Toml

variable {fuel : Nat} {r : List Char}

/-! ### Strings and keys -/

def escapeChar (c : Char) : List Char :=
  if c.toNat = 127 then ['\\', 'u', '0', '0', '7', 'f'] else Json.escapeChar c

def stringChars (s : String) : List Char := '"' :: s.toList.flatMap escapeChar ++ ['"']

theorem takeScalar?_four {a b : Nat} (ha : a < 16) (hb : b < 16) :
    takeScalar? 4 ('0' :: '0' :: digitChar a :: digitChar b :: r) = some (Char.ofNat (16 * a + b), r) := by
  have hnumber : takeScalar?.readHexNumber? ['0', '0', digitChar a, digitChar b] = some (16 * a + b) := by
    have h0 : hexValue? '0' = some 0 := rfl
    simp [takeScalar?.readHexNumber?, h0, hexValue?_digitChar ha, hexValue?_digitChar hb]
  have hvalid : Nat.isValidChar (16 * a + b) := .inl (by omega)
  show (takeScalar?.readHexNumber? ['0', '0', digitChar a, digitChar b]).bind _ = _
  rw [hnumber, Option.bind_some, if_pos ⟨rfl, hvalid⟩]
  rfl

/-- A character is escaped, and read back behind the backslash, or stands for itself. -/
theorem escapeChar_cases (c : Char) :
    (∃ d t, escapeChar c = '\\' :: d :: t ∧ ∀ r, takeEscape? (d :: t ++ r) = some (c, r)) ∨
      escapeChar c = [c] ∧ isBasic c = true := by
  by_cases hdelete : c.toNat = 127
  · obtain rfl : c = Char.ofNat 127 := by rw [← hdelete, Char.ofNat_toNat]
    exact .inl ⟨_, _, rfl, fun r => rfl⟩
  by_cases hshort : c ∈ Json.shortEscapes
  · simp only [Json.shortEscapes, List.mem_cons, List.not_mem_nil, or_false] at hshort
    rcases hshort with rfl | rfl | rfl | rfl | rfl | rfl | rfl <;> exact .inl ⟨_, _, rfl, fun r => rfl⟩
  rw [escapeChar, if_neg hdelete, Json.escapeChar_of_notMem hshort]
  by_cases hcontrol : c.toNat < 32
  · refine .inl ⟨_, _, if_pos hcontrol, fun r => (takeScalar?_four (by omega) (by omega)).trans ?_⟩
    rw [Nat.div_add_mod, Char.ofNat_toNat]
    rfl
  · have hne {d : Char} (hd : d ∈ Json.shortEscapes) : c ≠ d := fun h => hshort (h ▸ hd)
    refine .inr ⟨if_neg hcontrol, ?_⟩
    simp [isBasic, isPlain, hne (d := '"') (by decide), hne (d := '\\') (by decide)]
    omega

theorem takeBasic?_escapeChar (c : Char) :
    takeBasic? (fuel + 1) (escapeChar c ++ r) = prepend [c] (takeBasic? fuel r) := by
  rcases escapeChar_cases c with ⟨d, t, hc, hread⟩ | ⟨hc, hbasic⟩
  · rw [hc, List.cons_append, takeBasic?, if_neg (by decide), if_pos rfl, hread]
    rfl
  · have hquote : c ≠ '"' := by
      rintro rfl
      cases hbasic
    have hbackslash : c ≠ '\\' := by
      rintro rfl
      cases hbasic
    rw [hc, List.singleton_append, takeBasic?, if_neg hquote, if_neg hbackslash, if_pos hbasic]

theorem takeBasic?_escaped (s : List Char) (h : s.length < fuel) :
    takeBasic? fuel (s.flatMap escapeChar ++ '"' :: r) = some (s, r) := by
  induction s generalizing fuel with
  | nil =>
    obtain ⟨fuel, rfl⟩ : ∃ n, fuel = n + 1 := ⟨fuel - 1, by omega⟩
    rfl
  | cons c s ih =>
    rw [List.length_cons] at h
    obtain ⟨fuel, rfl⟩ : ∃ n, fuel = n + 1 := ⟨fuel - 1, by omega⟩
    rw [List.flatMap_cons, List.append_assoc, takeBasic?_escapeChar, ih (by omega)]
    rfl

theorem length_le_escaped (s : List Char) : s.length ≤ (s.flatMap escapeChar).length := by
  induction s with
  | nil => rfl
  | cons c s ih =>
    have : 0 < (escapeChar c).length := by
      rcases escapeChar_cases c with ⟨d, t, hc, -⟩ | ⟨hc, -⟩ <;> simp [hc]
    rw [List.flatMap_cons, List.length_append, List.length_cons]
    omega

theorem takeQuoted?_stringChars (s : String) : takeQuoted? (stringChars s ++ r) = some (s.toList, r) := by
  have hfuel := length_le_escaped s.toList
  have hchars : stringChars s ++ r = '"' :: (s.toList.flatMap escapeChar ++ '"' :: r) := by
    simp [stringChars]
  rw [hchars]
  exact takeBasic?_escaped _ (by rw [List.length_append]; omega)

/-- What stands for a character starts with no quote. -/
theorem exists_escapeChar (c : Char) : ∃ d t, escapeChar c = d :: t ∧ d ≠ '"' := by
  rcases escapeChar_cases c with ⟨d, t, hc, -⟩ | ⟨hc, hbasic⟩
  · exact ⟨_, _, hc, by decide⟩
  · refine ⟨_, _, hc, ?_⟩
    rintro rfl
    cases hbasic

/-- A string is none of several lines, since no quote follows its quotes. -/
theorem takeString?_stringChars (s : String) (hr : r.head? ≠ some '"') :
    takeString? (stringChars s ++ r) = some (s.toList, r) := by
  have hchars : stringChars s ++ r = '"' :: (s.toList.flatMap escapeChar ++ '"' :: r) := by
    simp [stringChars]
  have hthree (t : List Char) : s.toList.flatMap escapeChar ++ '"' :: r ≠ '"' :: '"' :: t := by
    intro h
    cases hs : s.toList with
    | nil =>
      rw [hs] at h
      cases h
      exact hr rfl
    | cons c rest =>
      obtain ⟨d, l, hd, hquote⟩ := exists_escapeChar c
      rw [hs, List.flatMap_cons, hd] at h
      exact hquote (List.cons.inj h).1
  unfold takeString?
  rw [hchars]
  split
  next t ht => exact absurd (List.cons.inj ht).2 (hthree t)
  next t ht => cases ht
  next => exact hchars ▸ takeQuoted?_stringChars s

/-- A key between quotes is one part, whatever dots it has. -/
theorem takeKey?_stringChars (k : String) :
    takeKey? (stringChars k ++ '=' :: r) = some (([], k), '=' :: r) := by
  have hpart : takeKeyPart? (skipSpace (stringChars k ++ '=' :: r)) = some (k, '=' :: r) := by
    show (takeQuoted? (stringChars k ++ '=' :: r)).map _ = _
    rw [takeQuoted?_stringChars, Option.map_some]
    show some (String.ofList k.toList, '=' :: r) = _
    rw [String.ofList_toList]
  have hparts (n : Nat) : takeKeyParts? (n + 1) (stringChars k ++ '=' :: r) = some ([k], '=' :: r) := by
    rw [takeKeyParts?, hpart]
    rfl
  rw [takeKey?, hparts]
  rfl

/-! ### Numbers -/

def ends : List Char := [',', ']', '\x7d', '\n']

def Follows (r : List Char) : Prop := ∀ c ∈ r.head?, c ∈ ends

theorem Follows.cons {c : Char} (h : c ∈ ends) : Follows (c :: r) := by
  rintro d ⟨⟩
  exact h

theorem Follows.head?_ne (h : Follows r) {c : Char} (hc : c ∉ ends) : r.head? ≠ some c :=
  fun hd => hc (h c hd)

theorem Follows.isDigit_eq (h : Follows r) : ∀ c ∈ r.head?, isDigit c = false := by
  intro c hc
  have hmem := h c hc
  simp only [ends, List.mem_cons, List.not_mem_nil, or_false] at hmem
  rcases hmem with rfl | rfl | rfl | rfl <;> rfl

theorem moreDigits?_append {ds : List Char} (hd : ∀ c ∈ ds, isDigit c = true) (hr : Follows r) :
    moreDigits? isDigit (ds ++ r) = some (ds, r) := by
  induction ds with
  | nil =>
    cases r with
    | nil => rfl
    | cons c rest =>
      have hunderscore : c ≠ '_' := fun h => hr.head?_ne (c := '_') (by decide) (by rw [h]; rfl)
      unfold moreDigits?
      rw [List.nil_append]
      dsimp only
      rw [if_neg (by simp [hr.isDigit_eq c rfl]), if_neg hunderscore]
  | cons c ds ih =>
    unfold moreDigits?
    rw [List.cons_append]
    dsimp only
    rw [if_pos (hd c (by simp)), ih fun d hmem => hd d (by simp [hmem])]
    rfl

theorem takeWhole?_digits (n : Nat) (hr : Follows r) : takeWhole? (digits n ++ r) = some (digits n, r) := by
  rcases Nat.eq_zero_or_pos n with rfl | hn
  · rw [digits_of_lt (by omega)]
    rfl
  · obtain ⟨d, ds, hd, hlt, hds⟩ := digits_head hn
    have hzero : digitChar d ≠ '0' := by interval_cases d <;> decide
    have hdigits : ∀ c ∈ digits n, isDigit c = true := fun c => isDigit_of_mem_digits
    rw [hds] at hdigits ⊢
    unfold takeWhole?
    split
    next t ht => exact absurd (List.cons.inj ht).1 hzero
    · rw [List.cons_append, takeDigits?, if_pos (hdigits _ (by simp)),
        moreDigits?_append (fun c hc => hdigits c (by simp [hc])) hr]
      rfl

theorem takeDecimal?_digits {i : Int} {n : Nat} {sign : List Char} (hi : fitsInt64 i = true)
    (hread : readInt? (sign ++ digits n) = some i) (hr : Follows r) :
    takeDecimal? sign (digits n ++ r) = some (.ofInt i, r) := by
  have hfraction : takeFraction? r = some ([], r) := by
    unfold takeFraction?
    split
    next t => exact absurd rfl (hr.head?_ne (c := '.') (by decide))
    · rfl
  have hexponent : takeExponent? r = some ([], r) := by
    unfold takeExponent?
    split
    next t => exact absurd rfl (hr.head?_ne (c := 'e') (by decide))
    next t => exact absurd rfl (hr.head?_ne (c := 'E') (by decide))
    · rfl
  rw [takeDecimal?, takeWhole?_digits n hr]
  simp [hfraction, hexponent, hread, integerJson?, hi]

theorem takeSpecial?_digits (n : Nat) : takeSpecial? (digits n ++ r) = none := by
  obtain ⟨c, ds, hds, hc⟩ := exists_digits n
  rw [hds, List.cons_append]
  unfold takeSpecial?
  split
  next t ht => exact absurd (List.cons.inj ht).1 (ne_of_isDigit hc (by decide))
  next t ht => exact absurd (List.cons.inj ht).1 (ne_of_isDigit hc (by decide))
  · rfl

/-- A zero in front of a mark is no number by itself. -/
theorem digits_append_ne {n : Nat} {m : Char} {t : List Char} (hm : m ∉ ends)
    (hr : Follows r) : digits n ++ r ≠ '0' :: m :: t := by
  intro h
  rcases Nat.eq_zero_or_pos n with rfl | hn
  · rw [digits_of_lt (by omega)] at h
    obtain rfl : r = m :: t := (List.cons.inj h).2
    exact hr.head?_ne hm rfl
  · obtain ⟨d, ds, hd, hlt, hds⟩ := digits_head hn
    rw [hds] at h
    have hzero : digitChar d ≠ '0' := by interval_cases d <;> decide
    exact hzero (List.cons.inj h).1

theorem takeNumber?_digits {n : Nat} (hn : fitsInt64 n = true) (hr : Follows r) :
    takeNumber? (digits n ++ r) = some (.ofInt n, r) := by
  have hread : readInt? ([] ++ digits n) = some (n : Int) := by
    have hn := readInt?_natText n
    rwa [natText, String.toList_ofList] at hn
  have hsign : takeSign (digits n ++ r) = ([], digits n ++ r) := by
    obtain ⟨c, ds, hds, hc⟩ := exists_digits n
    rw [hds, List.cons_append]
    unfold takeSign
    split
    next t ht => exact absurd (List.cons.inj ht).1 (ne_of_isDigit hc (by decide))
    next t ht => exact absurd (List.cons.inj ht).1 (ne_of_isDigit hc (by decide))
    · rfl
  unfold takeNumber?
  split
  next t ht => exact absurd ht (digits_append_ne (by decide) hr)
  next t ht => exact absurd ht (digits_append_ne (by decide) hr)
  next t ht => exact absurd ht (digits_append_ne (by decide) hr)
  · simp only [hsign, takeSpecial?_digits, Option.none_or]
    exact takeDecimal?_digits hn hread hr

theorem takeNumber?_negative {n : Nat} (hn : fitsInt64 (-n) = true) (hr : Follows r) :
    takeNumber? ('-' :: (digits n ++ r)) = some (.ofInt (-n), r) := by
  have hread : readInt? (['-'] ++ digits n) = some (-n : Int) := by
    rw [List.singleton_append, readInt?, ofDigits?_digits]
    rfl
  show (takeSpecial? (digits n ++ r)).or (takeDecimal? ['-'] (digits n ++ r)) = _
  rw [takeSpecial?_digits, Option.none_or]
  exact takeDecimal?_digits hn hread hr

/-! ### Numbers are no moments -/

theorem takeFixed?_eq_some {width low high n : Nat} {s t : List Char} (h : takeFixed? width low high s = some (n, t)) :
    ∃ ds, s = ds ++ t ∧ ds.length = width ∧ ∀ c ∈ ds, isDigit c = true := by
  obtain ⟨m, hm, h⟩ := Option.bind_eq_some_iff.1 h
  split at h
  case isFalse => cases h
  case isTrue hfits =>
    obtain ⟨rfl, rfl⟩ := Prod.mk.inj (Option.some.inj h)
    refine ⟨s.take width, (List.take_append_drop _ _).symm, hfits.1, fun c hc => ?_⟩
    rw [eq_padded_of_ofDigits? hm] at hc
    exact isDigit_of_mem_padded hc

/-- Behind digits of a number comes a digit or the end of the value. -/
theorem any_takeFixed?_digits {width low high n : Nat} {m : Char} (hm : m ∉ ends)
    (hdigit : isDigit m = false) (hr : Follows r) :
    ((takeFixed? width low high (digits n ++ r)).any fun (_, t) => t.head? == some m) = false := by
  cases htake : takeFixed? width low high (digits n ++ r) with
  | none => rfl
  | some taken =>
    obtain ⟨k, t⟩ := taken
    obtain ⟨ds, hs, -, hdigits⟩ := takeFixed?_eq_some htake
    show (t.head? == some m) = false
    refine beq_eq_false_iff_ne.2 fun hhead => ?_
    obtain ⟨u, rfl⟩ := List.head?_eq_some_iff.1 hhead
    rcases List.append_eq_append_iff.1 hs with ⟨l, hl, rfl⟩ | ⟨l, hl, hu⟩
    · cases l with
      | nil => exact hr.head?_ne hm rfl
      | cons c l =>
        have hc := hdigits c (by simp [hl])
        rw [hr.isDigit_eq c rfl] at hc
        cases hc
    · cases l with
      | nil => exact hr.head?_ne hm (by rw [← List.nil_append r, ← hu]; rfl)
      | cons c l =>
        obtain rfl : m = c := (List.cons.inj hu).1
        have hc : isDigit m = true := isDigit_of_mem_digits (n := n) (hl ▸ by simp)
        rw [hdigit] at hc
        cases hc

theorem startsMoment_digits (n : Nat) (hr : Follows r) : startsMoment (digits n ++ r) = false := by
  rw [startsMoment, startsDay, startsTime, any_takeFixed?_digits (by decide) (by decide) hr,
    any_takeFixed?_digits (by decide) (by decide) hr]
  rfl

theorem startsMoment_negative (s : List Char) : startsMoment ('-' :: s) = false := by
  have hnone (width low high : Nat) (hw : 0 < width) : takeFixed? width low high ('-' :: s) = none := by
    obtain ⟨k, rfl⟩ : ∃ k, width = k + 1 := ⟨width - 1, by omega⟩
    cases htake : takeFixed? (k + 1) low high ('-' :: s) with
    | none => rfl
    | some taken =>
      obtain ⟨ds, hs, hlength, hdigits⟩ := takeFixed?_eq_some htake
      cases ds with
      | nil => cases hlength
      | cons c ds =>
        obtain rfl : '-' = c := (List.cons.inj hs).1
        cases hdigits '-' (by simp)
  rw [startsMoment, startsDay, startsTime, hnone _ _ _ (by omega), hnone _ _ _ (by omega)]
  rfl

/-! ### Values without parts -/

theorem intText_of_neg {i : Int} (h : i < 0) : (intText i).toList = '-' :: digits i.natAbs := by
  simp [intText, natText, h]

theorem intText_of_not_neg {i : Int} (h : ¬ i < 0) : (intText i).toList = digits i.natAbs := by
  simp [intText, natText, h]

/-- A number starts with a digit or a hyphen. -/
theorem intText_cons {marks : List Char} (hmarks : marks.all (fun d => !isDigit d && d != '-') = true)
    (i : Int) : ∃ c t, (intText i).toList = c :: t ∧ c ∉ marks := by
  have hother {c : Char} (hmem : c ∈ marks) : isDigit c = false ∧ c ≠ '-' := by
    simpa using List.all_eq_true.1 hmarks c hmem
  by_cases hneg : i < 0
  · exact ⟨_, _, intText_of_neg hneg, fun hmem => (hother hmem).2 rfl⟩
  · obtain ⟨c, ds, hds, hc⟩ := exists_digits i.natAbs
    refine ⟨c, ds, (intText_of_not_neg hneg).trans hds, fun hmem => ?_⟩
    rw [(hother hmem).1] at hc
    cases hc

theorem startsMoment_intText (i : Int) (hr : Follows r) : startsMoment ((intText i).toList ++ r) = false := by
  by_cases hneg : i < 0
  · rw [intText_of_neg hneg]
    exact startsMoment_negative _
  · rw [intText_of_not_neg hneg]
    exact startsMoment_digits _ hr

theorem takeNumber?_intText {i : Int} (hi : fitsInt64 i = true) (hr : Follows r) :
    takeNumber? ((intText i).toList ++ r) = some (.ofInt i, r) := by
  by_cases hneg : i < 0
  · have hi' : i = -(i.natAbs : Int) := by omega
    rw [hi'] at hi
    rw [intText_of_neg hneg, List.cons_append, takeNumber?_negative hi hr, ← hi']
  · have hi' : i = (i.natAbs : Int) := by omega
    rw [hi'] at hi
    rw [intText_of_not_neg hneg, takeNumber?_digits hi hr, ← hi']

theorem takePlain?_intText {i : Int} (hi : fitsInt64 i = true) (hr : Follows r) :
    takePlain? ((intText i).toList ++ r) = some (.scalar (.ofInt i), r) := by
  obtain ⟨c, t, ht, hc⟩ := intText_cons (show ['"', '\'', 't', 'f'].all _ = true by decide) i
  have hmoment := startsMoment_intText i hr
  have hnumber := takeNumber?_intText hi hr
  simp only [List.mem_cons, List.not_mem_nil, or_false, not_or] at hc
  rw [ht, List.cons_append] at hmoment hnumber ⊢
  unfold takePlain?
  split
  next u hu => exact absurd (List.cons.inj hu).1 hc.1
  next u hu => exact absurd (List.cons.inj hu).1 hc.2.1
  next u hu => exact absurd (List.cons.inj hu).1 hc.2.2.1
  next u hu => exact absurd (List.cons.inj hu).1 hc.2.2.2
  · rw [hmoment, if_neg (by decide), hnumber]
    rfl

theorem takePlain?_stringChars (s : String) (hr : Follows r) :
    takePlain? (stringChars s ++ r) = some (.scalar (.string s), r) := by
  show (takeString? (stringChars s ++ r)).map _ = _
  rw [takeString?_stringChars s (hr.head?_ne (by decide))]
  show some (Node.scalar (.string (String.ofList s.toList)), r) = _
  rw [String.ofList_toList]

end Toml

end Tsql
