import Tsql.Proofs.Number.Numerals
import Tsql.Proofs.Render.Spelling
import Tsql.Proofs.Result
import Tsql.Render.Expr

/-!
# What numbers, types and literals spell

Words that are not fixed: numbers, binary literals, types with their facets. None of them has a
character that matters to a survey but the sign in front of a number and the parentheses around a
facet. `spells_literal` puts them together for the literals of values.
-/

namespace Tsql

open Text Emission

namespace Text

/-- A character that a survey takes no notice of. -/
def isCalm (c : Char) : Bool :=
  isOrdinary c && decide (c ∉ ['(', ')', ';', '-', '*', '/'])

theorem Survey.mark_isCalm {c : Char} (h : isCalm c = true) (s : Survey) :
    s.mark c = some { s with last := .other } := by
  simp only [isCalm, Bool.and_eq_true, decide_eq_true_eq, List.mem_cons, not_or] at h
  obtain ⟨ho, h1, h2, h3, h4, h5, h6, -⟩ := h
  simp [mark, ho, h1, h2, h3, h4, h5, h6]

theorem Survey.run_isCalm {chars : List Char} (hne : chars ≠ []) (h : ∀ c ∈ chars, isCalm c = true)
    (s : Survey) : s.run (chars.map .mark) = some { s with last := .other } := by
  induction chars generalizing s with
  | nil => exact absurd rfl hne
  | cons c rest ih =>
    rw [List.map_cons, run, step, mark_isCalm (h c (by simp)), Option.bind_some]
    by_cases hr : rest = []
    · subst hr
      rfl
    · exact ih hr (fun d hd => h d (by simp [hd])) _

theorem isCalm_digitChar {d : Nat} (h : d < 10) : isCalm (digitChar d) = true := by
  revert d
  decide

theorem isCalm_of_mem_digits {n : Nat} {c : Char} (h : c ∈ digits n) : isCalm c = true := by
  obtain ⟨d, hd, rfl⟩ := exists_of_mem_digits h
  exact isCalm_digitChar hd

theorem isCalm_of_mem_padded {width n : Nat} {c : Char} (h : c ∈ padded width n) :
    isCalm c = true := by
  rcases List.mem_append.1 h with h | h
  · rw [List.eq_of_mem_replicate h]
    rfl
  · exact isCalm_of_mem_digits h

end Text

namespace Emission.Spells

/-- A word of characters that a survey takes no notice of. -/
theorem calm {chars : List Char} (hne : chars ≠ []) (h : ∀ c ∈ chars, isCalm c = true) :
    (Emission.word (String.ofList chars)).Spells .anywhere (some .tight) {} := by
  intro e he _ params s _
  obtain rfl := Option.some.inj he
  refine ⟨.other, Edge.fits_self _ _, ?_⟩
  rw [lexemes_word, marks, String.toList_ofList, Survey.run_isCalm hne h]
  simp [Survey.past, Start.introduces, Edge.tight]

theorem signed (negative : Bool) {chars : List Char} (hne : chars ≠ [])
    (h : ∀ c ∈ chars, isCalm c = true) :
    (Emission.word (String.ofList ((if negative then ['-'] else []) ++ chars))).Spells
      (.signed negative) (some .tight) {} := by
  cases negative with
  | false => exact (calm hne h).unsigned
  | true =>
    intro e he _ params s hs
    obtain rfl := Option.some.inj he
    refine ⟨.other, Edge.fits_self _ _, ?_⟩
    have hminus : s.step (.mark '-') =
        some { s with last := .minus, introduces := s.introduces || s.last == .minus } := rfl
    have hi : (Start.signed true).introduces s.last = (s.last == .minus) := by
      cases s.last <;> rfl
    rw [lexemes_word, marks, String.toList_ofList, if_pos rfl, List.cons_append, List.nil_append,
      List.map_cons, Survey.run, hminus, Option.bind_some, Survey.run_isCalm hne h]
    simp [Survey.past, hi, Edge.tight]

theorem natText (n : Nat) :
    (Emission.word (natText n)).Spells .anywhere (some .tight) {} :=
  calm (digits_ne_nil n) fun _ => isCalm_of_mem_digits

theorem intText (i : Int) :
    (Emission.word (intText i)).Spells (.signed (decide (i < 0))) (some .tight) {} := by
  have h := signed (decide (i < 0)) (digits_ne_nil i.natAbs) fun _ => isCalm_of_mem_digits
  have ht : String.ofList ((if decide (i < 0) = true then ['-'] else []) ++ digits i.natAbs) =
      Text.intText i := by
    by_cases hi : i < 0 <;> simp [Text.intText, Text.natText, hi]
  rwa [ht] at h

theorem appendWord {s : String} {start : Start} {edge : Option Edge} {t : Trace}
    (h : (Emission.word s).Spells start edge t) (s' : String) :
    (Emission.word (s ++ s')).Spells start (edge.bind fun e => e.word s') t :=
  (h.word s').joinWords

theorem appendText {s s' : String} {start : Start} {edge : Option Edge} {t : Trace}
    (h : (Emission.word s).Spells start edge t)
    (h' : (Emission.word s').Spells .anywhere (some .tight) {}) :
    (Emission.word (s ++ s')).Spells start (edge.map fun e => e.past .tight) t := by
  have hc := (h.clause h').joinWords
  rwa [Trace.append_empty] at hc

theorem facet {keyword : String} (hk : Edge.loose.word keyword = some .tight) {facet : String}
    (hf : (Emission.word facet).Spells .anywhere (some .tight) {}) :
    (Emission.word (keyword ++ "(" ++ facet ++ ")")).Spells .anywhere (some .tight) {} :=
  (((((ofWord keyword).at_edge hk).appendWord "(").appendText hf).appendWord ")").at_edge
    (by decide)

theorem sizeText (size : Size) :
    (Emission.word (SqlType.sizeText size)).Spells .anywhere (some .tight) {} := by
  cases size with
  | fixed n => exact natText n
  | max => exact (ofWord "MAX").at_edge (by decide)

theorem keyword {k : DbType} : Edge.loose.word k.keyword = some .tight := by
  cases k <;> decide

theorem sqlType {t : SqlType} (hudt : ∀ n, t ≠ .udt n) :
    (Emission.word t.sql).Spells .anywhere (some .tight) {} := by
  cases t with
  | udt n => exact absurd rfl (hudt n)
  | decimal p s =>
    exact (((((ofWord "DECIMAL(").appendText (natText p)).appendWord ", ").appendText
      (natText s)).appendWord ")").at_edge (by decide)
  | char n => exact facet keyword (natText n)
  | nChar n => exact facet keyword (natText n)
  | binary n => exact facet keyword (natText n)
  | varChar size => exact facet keyword (sizeText size)
  | nVarChar size => exact facet keyword (sizeText size)
  | varBinary size => exact facet keyword (sizeText size)
  | time p => exact facet keyword (natText p)
  | dateTime2 p => exact facet keyword (natText p)
  | dateTimeOffset p => exact facet keyword (natText p)
  | _ => exact (ofWord _).at_edge keyword

end Emission.Spells

/-! ### Literals -/

def Floating.isSigned {l : Layout} (x : Floating l) : Bool :=
  match x.shape with
  | .finite negative _ _ => negative
  | _ => false

namespace Value

def isSigned : Value → Bool
  | int16 n => n.toInt < 0
  | int32 n => n.toInt < 0
  | int64 n => n.toInt < 0
  | single x => x.isSigned
  | double x => x.isSigned
  | decimal d => d.negative
  | _ => false

/-- The text that the literal quotes. Times have as many digits as their default types store. -/
def quotedText? : Value → Option String
  | char c => some (String.ofList [c])
  | string s => some s
  | date d => some d.text
  | time x => some (String.ofList (x.cutChars SqlType.maxFraction))
  | dateTime d => some (String.ofList (d.cutChars SqlType.maxFraction))
  | dateTimeOffset d => some (String.ofList
      (d.clock.cutChars SqlType.maxFraction ++ ' ' :: offsetMinutes d.offset))
  | guid g => some g.text
  | _ => none

def trace (v : Value) : Trace := { tokens := (v.quotedText?.map Token.string).toList }

end Value

/-- A default type that stores times stores all the digits that a type can store. -/
theorem fractionalDigits_of_storable {t : ValueType} {type : SqlType} (ht : defaultType t = .ok type)
    {v : Value} (hs : storable type v = true)
    (hv : v.type? = some .time ∨ v.type? = some .dateTime ∨ v.type? = some .dateTimeOffset) :
    type.fractionalDigits = SqlType.maxFraction := by
  unfold storable at hs
  cases t with
  | enum name storage =>
    cases ht
    rcases hv with hv | hv | hv <;> rw [hv] at hs <;> cases storage <;> exact absurd hs (by decide)
  | custom name => cases ht
  | time =>
    cases ht
    rfl
  | dateTime =>
    cases ht
    rfl
  | dateTimeOffset =>
    cases ht
    rfl
  | _ =>
    cases ht
    rcases hv with hv | hv | hv <;> rw [hv] at hs <;> exact absurd hs (by decide)

namespace Emission.Spells

theorem exponentText {l : Layout} {x : Floating l} (hx : x.isFinite = true) :
    (Emission.word (x.text .exponential)).Spells (.signed x.isSigned) (some .tight) {} := by
  unfold Floating.isFinite at hx
  unfold Floating.isSigned Floating.text
  split at hx
  next negative m q hshape =>
    rw [hshape]
    dsimp only
    generalize shortest FloatStyle.exponential.tie l m q = y
    obtain ⟨mantissa, hdigit, htext⟩ := exists_mantissa y
    have hword : String.ofList ((if negative = true then ['-'] else []) ++ y.text .exponential) =
        String.ofList ((if negative = true then ['-'] else []) ++ (mantissa ++ ['E'])) ++
          Text.intText y.leading := by
      apply String.toList_injective
      rw [htext]
      simp
    have hmantissa : ∀ c ∈ mantissa ++ ['E'], isCalm c = true := by
      intro c hc
      rcases List.mem_append.1 hc with hc | hc
      · rcases hdigit c hc with ⟨d, hd, rfl⟩ | rfl
        · exact isCalm_digitChar hd
        · rfl
      · rw [List.mem_singleton.1 hc]
        rfl
    rw [hword]
    have h := ((signed negative (by simp) hmantissa).value (intText y.leading)).joinWords
    rw [Trace.append_empty] at h
    exact h.at_edge (by decide)
  next => cases hx

theorem decimalText (d : Decimal) :
    (Emission.word d.text).Spells (.signed d.negative) (some .tight) {} := by
  have hcalm : ∀ c ∈ padded (d.scale + 1) d.mantissa, isCalm c = true := fun _ => isCalm_of_mem_padded
  unfold Decimal.text
  dsimp only
  generalize hds : padded (d.scale + 1) d.mantissa = ds at hcalm ⊢
  rw [List.append_assoc]
  apply signed
  · by_cases hs : d.scale = 0
    · have hne : ds ≠ [] := by
        rw [← hds]
        simp [padded, digits_ne_nil]
      simpa [hs] using hne
    · simp [hs]
  · intro c hc
    rcases List.mem_append.1 hc with hc | hc
    · exact hcalm c (List.mem_of_mem_take hc)
    · split at hc
      · cases hc
      · rcases List.mem_cons.1 hc with rfl | hc
        · rfl
        · exact hcalm c (List.mem_of_mem_drop hc)

theorem hexText (bytes : List UInt8) :
    (Emission.word ("0x" ++ upperHexText bytes)).Spells .anywhere (some .tight) {} := by
  have hdigit : ∀ d < 16, isCalm (upperDigitChar d) = true := by decide
  have hword : "0x" ++ upperHexText bytes = String.ofList ('0' :: 'x' :: (upperHexText bytes).toList) := by
    apply String.toList_injective
    simp
  rw [hword]
  refine calm (by simp) fun c hc => ?_
  rcases List.mem_cons.1 hc with rfl | hc
  · rfl
  rcases List.mem_cons.1 hc with rfl | hc
  · rfl
  obtain ⟨d, hd, rfl⟩ := exists_of_mem_upperHexText hc
  exact hdigit d hd

theorem loosen {x : Emission} {start : Start} {t : Trace} (h : x.Spells start (some .tight) t) :
    x.Spells start (some .loose) t :=
  h.closed rfl

theorem floatLiteral {l : Layout} {x : Floating l} {literal : Literal}
    (h : Tsql.floatLiteral x = .ok literal) :
    (piece (.literal literal)).Spells (.signed x.isSigned) (some .loose) {} := by
  unfold Tsql.floatLiteral at h
  split at h
  · next hx =>
    cases h
    exact (exponentText hx).loosen
  · cases h

theorem quoted (unicode : Bool) (s : String) :
    (piece (.literal (.string unicode s))).Spells (.signed false) (some .loose)
      (.string s) := by
  cases unicode with
  | true => exact (national s).unsigned
  | false => exact string s

theorem literal {t : ValueType} {v : Value} {l : Literal} (h : typedLiteral t v = .ok l) :
    (piece (.literal l)).Spells (.signed v.isSigned) (some .loose) v.trace := by
  obtain ⟨type, ht, h⟩ := Result.bind_eq_ok h
  obtain ⟨_, hs, h⟩ := Result.bind_eq_ok h
  have hs : storable type v = true := by
    unfold ensureStorable at hs
    split at hs
    · next hv => simp [storable, hv]
    · split at hs
      · assumption
      · cases hs
  have hdigits := fractionalDigits_of_storable ht hs
  cases v with
  | null =>
    cases h
    exact ((ofWord "NULL").closed (by decide)).unsigned
  | bool b =>
    cases h
    cases b with
    | true => exact ((ofWord "1").closed (by decide)).unsigned
    | false => exact ((ofWord "0").closed (by decide)).unsigned
  | byte n =>
    cases h
    exact (natText _).loosen.unsigned
  | int16 n =>
    cases h
    exact (intText _).loosen
  | int32 n =>
    cases h
    exact (intText _).loosen
  | int64 n =>
    cases h
    exact (intText _).loosen
  | single x => exact floatLiteral h
  | double x => exact floatLiteral h
  | decimal d =>
    cases h
    exact (decimalText d).loosen
  | char c =>
    cases h
    exact quoted _ _
  | string s =>
    cases h
    exact quoted _ _
  | bytes b =>
    cases h
    exact (hexText b).loosen.unsigned
  | date d =>
    cases h
    exact string _
  | time x =>
    rw [storedLiteral, hdigits (.inl rfl)] at h
    cases h
    exact string _
  | dateTime d =>
    rw [storedLiteral, hdigits (.inr (.inl rfl))] at h
    cases h
    exact string _
  | dateTimeOffset d =>
    rw [storedLiteral, hdigits (.inr (.inr rfl))] at h
    cases h
    exact string _
  | guid g =>
    cases h
    exact string _

end Emission.Spells

end Tsql
