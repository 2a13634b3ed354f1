import Mathlib.Tactic.IntervalCases
import Mathlib.Tactic.SplitIfs
import Tsql.Proofs.Json.Numbers

/-!
# JSON texts read back

`Json.read?` inverts `Json.text` on values whose floating-point numbers are read back one by one:
`read?_text`. A reader looks at one character behind a number, so the lemmas are about a text with a rest
behind it.
-/

namespace Tsql

open Text

namespace Json

variable {fuel levels : Nat} {s r : List Char}

theorem takeEscape?_control {c : Char} (h : c.toNat < 32) :
    takeEscape? ('u' :: '0' :: '0' :: digitChar (c.toNat / 16) :: digitChar (c.toNat % 16) :: r) =
      some (c, r) := by
  have h0 : hexValue? '0' = some 0 := rfl
  have hsum : 256 * (16 * 0 + 0) + (16 * (c.toNat / 16) + c.toNat % 16) = c.toNat := by omega
  simp only [takeEscape?, takeUnit?, takeHex?, h0, hexValue?_digitChar (by omega : c.toNat / 16 < 16),
    hexValue?_digitChar (by omega : c.toNat % 16 < 16), bind, Option.bind, hsum]
  rw [if_neg (by omega), if_neg (by omega), Char.ofNat_toNat]

def shortEscapes : List Char := ['"', '\\', Char.ofNat 8, Char.ofNat 12, '\n', '\r', '\t']

theorem escapeChar_of_notMem {c : Char} (h : c ∉ shortEscapes) : escapeChar c = if c.toNat < 32 then
    ['\\', 'u', '0', '0', digitChar (c.toNat / 16), digitChar (c.toNat % 16)] else [c] := by
  simp only [shortEscapes, List.mem_cons, List.not_mem_nil, or_false, not_or] at h
  obtain ⟨hquote, hbackslash, hback, hfeed, hline, hreturn, htab⟩ := h
  have hcode {n : Nat} (h : c ≠ Char.ofNat n) : c.toNat ≠ n := by
    rintro rfl
    exact h (Char.ofNat_toNat c).symm
  rw [escapeChar, if_neg hquote, if_neg hbackslash, if_neg (hcode hback), if_neg (hcode hfeed), if_neg hline,
    if_neg hreturn, if_neg htab]

/-- A character is escaped, and read back behind the backslash, or stands for itself. -/
theorem escapeChar_cases (c : Char) :
    (∃ d t, escapeChar c = '\\' :: d :: t ∧ ∀ r, takeEscape? (d :: t ++ r) = some (c, r)) ∨
      escapeChar c = [c] ∧ c ≠ '"' ∧ c ≠ '\\' ∧ ¬ c.toNat < 32 := by
  by_cases hshort : c ∈ shortEscapes
  · simp only [shortEscapes, List.mem_cons, List.not_mem_nil, or_false] at hshort
    rcases hshort with rfl | rfl | rfl | rfl | rfl | rfl | rfl <;> exact .inl ⟨_, _, rfl, fun r => rfl⟩
  · rw [escapeChar_of_notMem hshort]
    by_cases hcontrol : c.toNat < 32
    · exact .inl ⟨_, _, if_pos hcontrol, fun r => takeEscape?_control hcontrol⟩
    · have hne {d : Char} (hd : d ∈ shortEscapes) : c ≠ d := fun h => hshort (h ▸ hd)
      exact .inr ⟨if_neg hcontrol, hne (by decide), hne (by decide), hcontrol⟩

theorem takeString?_escapeChar (c : Char) :
    takeString? (fuel + 1) (escapeChar c ++ r) =
      (takeString? fuel r).map fun (s, r) => (c :: s, r) := by
  rcases escapeChar_cases c with ⟨d, t, hc, hread⟩ | ⟨hc, hquote, hbackslash, hcontrol⟩
  · rw [hc, List.cons_append, takeString?, if_neg (by decide), if_pos rfl, hread]
    simp only [Option.bind_eq_bind, Option.bind_some]
    cases takeString? fuel r <;> rfl
  · rw [hc, List.singleton_append, takeString?, if_neg hquote, if_neg hbackslash, if_neg hcontrol]
    cases takeString? fuel r <;> rfl

theorem takeString?_escaped (s : List Char) (h : s.length < fuel) :
    takeString? fuel (s.flatMap escapeChar ++ '"' :: r) = some (s, r) := by
  induction s generalizing fuel with
  | nil =>
    obtain ⟨fuel, rfl⟩ : ∃ n, fuel = n + 1 := ⟨fuel - 1, by omega⟩
    rfl
  | cons c s ih =>
    rw [List.length_cons] at h
    obtain ⟨fuel, rfl⟩ : ∃ n, fuel = n + 1 := ⟨fuel - 1, by omega⟩
    rw [List.flatMap_cons, List.append_assoc, takeString?_escapeChar, ih (by omega)]
    rfl

theorem length_le_escaped (s : List Char) : s.length ≤ (s.flatMap escapeChar).length := by
  induction s with
  | nil => rfl
  | cons c s ih =>
    have : 0 < (escapeChar c).length := by
      rcases escapeChar_cases c with ⟨d, t, hc, -⟩ | ⟨hc, -⟩ <;> simp [hc]
    rw [List.flatMap_cons, List.length_append, List.length_cons]
    omega

/-- A string in quotes, behind its first quote. -/
theorem takeString?_stringText (s : String) :
    ∃ t, (stringText s).toList ++ r = '"' :: t ∧
      takeString? (t.length + 1) t = some (s.toList, r) := by
  refine ⟨s.toList.flatMap escapeChar ++ '"' :: r, by simp [stringText], ?_⟩
  have := length_le_escaped s.toList
  refine takeString?_escaped _ ?_
  rw [List.length_append]
  omega

mutual

/-- Integers are those of sixty-four bits, other numbers are read back, and arrays and objects are nested
less deep than some levels. -/
def Readable (levels : Nat) : Json → Prop
  | .null | .bool _ | .string _ => True
  | .number (.integer i) => -(2 ^ 63) ≤ i ∧ i ≤ maxWord
  | .number (.float x) => ReadsBack x
  | .array items => 1 < levels ∧ ItemsReadable (levels - 1) items
  | .object fields => 1 < levels ∧ FieldsReadable (levels - 1) fields

def ItemsReadable (levels : Nat) : List Json → Prop
  | [] => True
  | j :: rest => Readable levels j ∧ ItemsReadable levels rest

def FieldsReadable (levels : Nat) : List (String × Json) → Prop
  | [] => True
  | (_, j) :: rest => Readable levels j ∧ FieldsReadable levels rest

end

theorem FieldsReadable.put {key : String} {value : Json} (hv : value.Readable levels)
    {fields : List (String × Json)} (h : FieldsReadable levels fields) :
    FieldsReadable levels (putField key value fields) := by
  induction fields with
  | nil => exact ⟨hv, trivial⟩
  | cons f rest ih =>
    obtain ⟨k, v⟩ := f
    unfold putField
    split_ifs
    · exact ⟨hv, h.2⟩
    · exact ⟨hv, h⟩
    · exact ⟨h.1, ih h.2⟩

theorem FieldsReadable.order {fields : List (String × Json)}
    (h : ∀ f ∈ fields, f.2.Readable levels) : FieldsReadable levels (orderFields fields) := by
  have hput : ∀ entered, FieldsReadable levels entered →
      FieldsReadable levels (fields.foldl (fun acc f => putField f.1 f.2 acc) entered) := by
    induction fields with
    | nil => exact fun _ he => he
    | cons f rest ih =>
      intro entered he
      exact ih (fun g hg => h g (by simp [hg])) _ (.put (h f (by simp)) he)
  exact hput [] trivial

theorem ItemsReadable.of_forall {items : List Json} (h : ∀ j ∈ items, j.Readable levels) :
    ItemsReadable levels items := by
  induction items with
  | nil => trivial
  | cons j rest ih => exact ⟨h j (by simp), ih fun k hk => h k (by simp [hk])⟩

theorem takeValue?_digit {d : Nat} (hd : d < 10) (t : List Char) :
    takeValue? (fuel + 1) levels (digitChar d :: t) =
      (takeNumber? false (digitChar d :: t)).map fun (n, r) => (.number n, r) := by
  interval_cases d <;> rfl

theorem takeValue?_number {n : JsonNumber} (hr : Follows r) (h : takeSigned? s = some (n, [])) :
    takeValue? (fuel + 1) levels (s ++ r) = some (.number n, r) := by
  rcases takeSigned?_eq_some h with ⟨u, rfl, htake⟩ | ⟨d, hd, u, rfl, htake⟩
  · show (takeNumber? true (u ++ r)).map _ = _
    rw [takeNumber?_append hr htake]
    rfl
  · rw [List.cons_append, takeValue?_digit hd, ← List.cons_append, takeNumber?_append hr htake]
    rfl

theorem takeSigned?_of_readable {n : JsonNumber} (h : (Json.number n).Readable levels) :
    takeSigned? (numberText n).toList = some (n, []) := by
  cases n with
  | integer i => exact takeSigned?_intText h
  | float x => exact h

theorem takeValue?_array {items : List Json} {t : List Char} {c : Char} (hl : 1 < levels)
    (hc : c ≠ ']' ∧ skipSpace (c :: t) = c :: t)
    (h : takeItems? fuel (levels - 1) (c :: t) = some (items, r)) :
    takeValue? (fuel + 1) levels ('[' :: c :: t) = some (.array items, r) := by
  have hdepth : ¬ levels ≤ 1 := by omega
  refine (if_neg hdepth).trans ?_
  rw [hc.2]
  split
  next heq => exact absurd (List.cons.inj heq).1 hc.1
  · rw [h]
    rfl

theorem takeValue?_object {fields : List (String × Json)} {t : List Char} (hl : 1 < levels)
    (h : takeFields? fuel (levels - 1) ('"' :: t) = some (fields, r)) :
    takeValue? (fuel + 1) levels ('\x7b' :: '"' :: t) = some (.object fields, r) := by
  have hdepth : ¬ levels ≤ 1 := by omega
  refine (if_neg hdepth).trans ?_
  show (takeFields? fuel (levels - 1) ('"' :: t)).map _ = _
  rw [h]
  rfl

theorem takeKey?_stringText (s : String) :
    takeKey? ((stringText s).toList ++ ':' :: r) = some (s, r) := by
  obtain ⟨t, ht, h⟩ := takeString?_stringText (r := ':' :: r) s
  rw [ht]
  show (takeString? (t.length + 1) t).bind _ = _
  rw [h]
  show some (String.ofList s.toList, r) = _
  rw [String.ofList_toList]

def itemChars (items : List Json) : List Char :=
  (String.intercalate "," (itemTexts items)).toList

def fieldChars (fields : List (String × Json)) : List Char :=
  (String.intercalate "," (fieldTexts fields)).toList

@[simp]
theorem itemChars_singleton (j : Json) : itemChars [j] = (text j).toList := by
  simp [itemChars, itemTexts]

@[simp]
theorem itemChars_cons_cons (j k : Json) (rest : List Json) :
    itemChars (j :: k :: rest) = (text j).toList ++ ',' :: itemChars (k :: rest) := by
  simp [itemChars, itemTexts, String.intercalate_cons_cons]

@[simp]
theorem fieldChars_singleton (key : String) (j : Json) :
    fieldChars [(key, j)] = (stringText key).toList ++ ':' :: (text j).toList := by
  simp [fieldChars, fieldTexts]

@[simp]
theorem fieldChars_cons_cons (key : String) (j : Json) (f : String × Json)
    (rest : List (String × Json)) :
    fieldChars ((key, j) :: f :: rest) =
      (stringText key).toList ++ ':' :: (text j).toList ++ ',' :: fieldChars (f :: rest) := by
  simp [fieldChars, fieldTexts, String.intercalate_cons_cons]

/-- No value starts with a blank or with the end of an array. -/
theorem text_head {j : Json} (h : j.Readable levels) :
    ∃ c t, (text j).toList = c :: t ∧ c ≠ ']' ∧ ∀ u, skipSpace (c :: u) = c :: u := by
  have hdigit : ∀ d < 10, digitChar d ≠ ']' ∧
      ∀ u, skipSpace (digitChar d :: u) = digitChar d :: u := by
    intro d hd
    interval_cases d <;> exact ⟨by decide, fun _ => rfl⟩
  match j with
  | .null => exact ⟨'n', _, rfl, by decide, fun _ => rfl⟩
  | .bool true => exact ⟨'t', _, rfl, by decide, fun _ => rfl⟩
  | .bool false => exact ⟨'f', _, rfl, by decide, fun _ => rfl⟩
  | .number n =>
    rw [text]
    rcases takeSigned?_eq_some (takeSigned?_of_readable h) with ⟨u, hu, -⟩ | ⟨d, hd, u, hu, -⟩
    · exact ⟨'-', u, hu, by decide, fun _ => rfl⟩
    · exact ⟨digitChar d, u, hu, (hdigit d hd).1, (hdigit d hd).2⟩
  | .string s => exact ⟨'"', s.toList.flatMap escapeChar ++ ['"'], by simp [text, stringText],
      by decide, fun _ => rfl⟩
  | .array items => exact ⟨'[', itemChars items ++ [']'], by simp [text, itemChars], by decide,
      fun _ => rfl⟩
  | .object fields => exact ⟨'\x7b', fieldChars fields ++ ['\x7d'], by simp [text, fieldChars],
      by decide, fun _ => rfl⟩

theorem takeValue?_leaf {j : Json} (hj : j = .null ∨ (∃ b, j = .bool b) ∨ ∃ s, j = .string s) :
    takeValue? (fuel + 1) levels ((text j).toList ++ r) = some (j, r) := by
  rcases hj with rfl | ⟨b, rfl⟩ | ⟨s, rfl⟩
  · have htext : (text .null).toList ++ r = 'n' :: 'u' :: 'l' :: 'l' :: r := by simp [text]
    rw [htext]
    rfl
  · cases b with
    | true =>
      have htext : (text (.bool true)).toList ++ r = 't' :: 'r' :: 'u' :: 'e' :: r := by
        simp [text]
      rw [htext]
      rfl
    | false =>
      have htext : (text (.bool false)).toList ++ r = 'f' :: 'a' :: 'l' :: 's' :: 'e' :: r := by
        simp [text]
      rw [htext]
      rfl
  · obtain ⟨t, ht, hs⟩ := takeString?_stringText (r := r) s
    rw [text, ht]
    show (takeString? (t.length + 1) t).map _ = _
    rw [hs]
    show some (Json.string (String.ofList s.toList), r) = _
    rw [String.ofList_toList]

theorem arrayText (items : List Json) :
    (text (.array items)).toList = '[' :: (itemChars items ++ [']']) := by
  simp [text, itemChars]

theorem objectText (fields : List (String × Json)) :
    (text (.object fields)).toList = '\x7b' :: (fieldChars fields ++ ['\x7d']) := by
  simp [text, fieldChars]

theorem takeValue?_items {items : List Json} (hl : 1 < levels)
    (hj : ItemsReadable (levels - 1) items)
    (h : items ≠ [] →
      takeItems? fuel (levels - 1) (itemChars items ++ ']' :: r) = some (items, r)) :
    takeValue? (fuel + 1) levels ((text (.array items)).toList ++ r) = some (.array items, r) := by
  rw [arrayText, List.cons_append, List.append_assoc, List.singleton_append]
  match items with
  | [] =>
    show (if levels ≤ 1 then none else some (Json.array [], r)) = _
    rw [if_neg (by omega)]
  | j :: rest =>
    obtain ⟨c, t, ht, hc⟩ := text_head hj.1
    obtain ⟨u, hu⟩ : ∃ u, itemChars (j :: rest) = c :: u := by
      cases rest with
      | nil => exact ⟨t, by simp [ht]⟩
      | cons k rest =>
        rw [itemChars_cons_cons, ht]
        exact ⟨_, rfl⟩
    replace h := h (List.cons_ne_nil _ _)
    rw [hu, List.cons_append] at h ⊢
    exact takeValue?_array hl ⟨hc.1, hc.2 _⟩ h

theorem takeValue?_fields {fields : List (String × Json)} (hl : 1 < levels)
    (h : fields ≠ [] →
      takeFields? fuel (levels - 1) (fieldChars fields ++ '\x7d' :: r) = some (fields, r)) :
    takeValue? (fuel + 1) levels ((text (.object fields)).toList ++ r) =
      some (.object fields, r) := by
  rw [objectText, List.cons_append, List.append_assoc, List.singleton_append]
  match fields with
  | [] =>
    show (if levels ≤ 1 then none else some (Json.object [], r)) = _
    rw [if_neg (by omega)]
  | (key, j) :: rest =>
    obtain ⟨u, hu⟩ : ∃ u, fieldChars ((key, j) :: rest) = '"' :: u := by
      cases rest with
      | nil =>
        rw [fieldChars_singleton, stringText, String.toList_ofList]
        exact ⟨_, rfl⟩
      | cons f rest =>
        rw [fieldChars_cons_cons, stringText, String.toList_ofList]
        exact ⟨_, rfl⟩
    replace h := h (List.cons_ne_nil _ _)
    rw [hu, List.cons_append] at h ⊢
    exact takeValue?_object hl h

theorem takeItems?_last {j : Json} {s : List Char}
    (h : takeValue? fuel levels (s ++ ']' :: r) = some (j, ']' :: r)) :
    takeItems? (fuel + 1) levels (s ++ ']' :: r) = some ([j], r) := by
  rw [takeItems?, h]
  rfl

theorem takeItems?_more {j : Json} {rest : List Json} {s t : List Char}
    (h : takeValue? fuel levels (s ++ ',' :: (t ++ ']' :: r)) = some (j, ',' :: (t ++ ']' :: r)))
    (ht : takeItems? fuel levels (t ++ ']' :: r) = some (rest, r)) :
    takeItems? (fuel + 1) levels (s ++ ',' :: (t ++ ']' :: r)) = some (j :: rest, r) := by
  rw [takeItems?, h]
  show (takeItems? fuel levels (t ++ ']' :: r)).bind _ = _
  rw [ht]
  rfl

theorem takeFields?_last {key : String} {j : Json} {s : List Char}
    (h : takeValue? fuel levels (s ++ '\x7d' :: r) = some (j, '\x7d' :: r)) :
    takeFields? (fuel + 1) levels ((stringText key).toList ++ ':' :: (s ++ '\x7d' :: r)) =
      some ([(key, j)], r) := by
  rw [takeFields?, takeKey?_stringText, Option.bind_eq_bind, Option.bind_some]
  dsimp only
  rw [h]
  rfl

theorem takeFields?_more {key : String} {j : Json} {rest : List (String × Json)} {s t : List Char}
    (h : takeValue? fuel levels (s ++ ',' :: (t ++ '\x7d' :: r)) =
      some (j, ',' :: (t ++ '\x7d' :: r)))
    (ht : takeFields? fuel levels (t ++ '\x7d' :: r) = some (rest, r)) :
    takeFields? (fuel + 1) levels ((stringText key).toList ++ ':' :: (s ++ ',' :: (t ++ '\x7d' :: r)))
      = some ((key, j) :: rest, r) := by
  rw [takeFields?, takeKey?_stringText, Option.bind_eq_bind, Option.bind_some]
  dsimp only
  rw [h]
  show (takeFields? fuel levels (t ++ '\x7d' :: r)).bind _ = _
  rw [ht]
  rfl

/-- With so much fuel, values, items and fields are read from texts that are not too long. -/
structure Reads (fuel : Nat) : Prop where
  value : ∀ {j levels r}, Readable levels j → Follows r → 2 * (text j).toList.length ≤ fuel →
    takeValue? fuel levels ((text j).toList ++ r) = some (j, r)
  items : ∀ {items levels r}, items ≠ [] → ItemsReadable levels items →
    2 * (itemChars items).length < fuel →
    takeItems? fuel levels (itemChars items ++ ']' :: r) = some (items, r)
  fields : ∀ {fields levels r}, fields ≠ [] → FieldsReadable levels fields →
    2 * (fieldChars fields).length < fuel →
    takeFields? fuel levels (fieldChars fields ++ '\x7d' :: r) = some (fields, r)

theorem Reads.value_succ (ih : Reads fuel) {j : Json} (h : j.Readable levels) (hr : Follows r)
    (hf : 2 * (text j).toList.length ≤ fuel + 1) :
    takeValue? (fuel + 1) levels ((text j).toList ++ r) = some (j, r) := by
  cases j with
  | null => exact takeValue?_leaf (.inl rfl)
  | bool b => exact takeValue?_leaf (.inr (.inl ⟨b, rfl⟩))
  | string s => exact takeValue?_leaf (.inr (.inr ⟨s, rfl⟩))
  | number n =>
    rw [text]
    exact takeValue?_number hr (takeSigned?_of_readable h)
  | array items =>
    rw [arrayText, List.length_cons, List.length_append, List.length_singleton] at hf
    exact takeValue?_items h.1 h.2 fun hne => ih.items hne h.2 (by omega)
  | object fields =>
    rw [objectText, List.length_cons, List.length_append, List.length_singleton] at hf
    exact takeValue?_fields h.1 fun hne => ih.fields hne h.2 (by omega)

theorem Reads.items_succ (ih : Reads fuel) {items : List Json} (hne : items ≠ [])
    (h : ItemsReadable levels items) (hf : 2 * (itemChars items).length < fuel + 1) :
    takeItems? (fuel + 1) levels (itemChars items ++ ']' :: r) = some (items, r) := by
  rcases items with _ | ⟨j, _ | ⟨k, rest⟩⟩
  · exact absurd rfl hne
  · rw [itemChars_singleton] at hf ⊢
    exact takeItems?_last (ih.value h.1 (.cons (.inr (.inl rfl))) (by omega))
  · rw [itemChars_cons_cons, List.length_append, List.length_cons] at hf
    rw [itemChars_cons_cons, List.append_assoc, List.cons_append]
    exact takeItems?_more (ih.value h.1 (.cons (.inl rfl)) (by omega))
      (ih.items (List.cons_ne_nil _ _) h.2 (by omega))

theorem Reads.fields_succ (ih : Reads fuel) {fields : List (String × Json)} (hne : fields ≠ [])
    (h : FieldsReadable levels fields) (hf : 2 * (fieldChars fields).length < fuel + 1) :
    takeFields? (fuel + 1) levels (fieldChars fields ++ '\x7d' :: r) = some (fields, r) := by
  rcases fields with _ | ⟨⟨key, j⟩, _ | ⟨f, rest⟩⟩
  · exact absurd rfl hne
  · rw [fieldChars_singleton, List.length_append, List.length_cons] at hf
    rw [fieldChars_singleton, List.append_assoc, List.cons_append]
    exact takeFields?_last (ih.value h.1 (.cons (.inr (.inr rfl))) (by omega))
  · rw [fieldChars_cons_cons, List.length_append, List.length_append, List.length_cons,
      List.length_cons] at hf
    rw [fieldChars_cons_cons, List.append_assoc, List.append_assoc, List.cons_append,
      List.cons_append]
    exact takeFields?_more (ih.value h.1 (.cons (.inl rfl)) (by omega))
      (ih.fields (List.cons_ne_nil _ _) h.2 (by omega))

theorem reads (fuel : Nat) : Reads fuel := by
  induction fuel with
  | zero =>
    refine ⟨fun h _ hf => ?_, fun _ _ hf => absurd hf (Nat.not_lt_zero _),
      fun _ _ hf => absurd hf (Nat.not_lt_zero _)⟩
    obtain ⟨c, t, hc, -⟩ := text_head h
    rw [hc, List.length_cons] at hf
    omega
  | succ fuel ih => exact ⟨ih.value_succ, ih.items_succ, ih.fields_succ⟩

/-- A value whose floating-point numbers are read back is read back from its text. -/
theorem read?_text {j : Json} (h : j.Readable depthLimit) : read? j.text = some j := by
  have hr : Follows ([] : List Char) := fun _ _ h => by cases h
  have := (reads (2 * j.text.toList.length + 2)).value h hr (by omega)
  rw [List.append_nil] at this
  rw [read?, this]
  rfl

end Json

end Tsql
