import Tsql.Proofs.Render.Outline
import Tsql.Proofs.Render.Words

/-!
# Words without variables

Numbers, binary literals and types with their facets are made of characters that neither begin a token nor
a variable (`IsPlain`). Behind a clear end such a word stands for itself, as the literal of any value does.
-/

namespace Tsql

open Text

namespace Text

/-- A character that begins neither a token nor a variable. -/
def isPlain (c : Char) : Bool := isOrdinary c && decide (c ≠ '@')

def IsPlain (s : String) : Prop := ∀ c ∈ s.toList, isPlain c = true

instance (s : String) : Decidable (IsPlain s) :=
  decidable_of_iff (s.toList.all isPlain = true) List.all_eq_true

variable {s s' : String}

theorem IsPlain.append (h : IsPlain s) (h' : IsPlain s') : IsPlain (s ++ s') := by
  intro c hc
  rw [String.toList_append, List.mem_append] at hc
  exact hc.elim (h c) (h' c)

theorem IsNumeral.isPlain (h : IsNumeral s) : IsPlain s :=
  h.all (by decide)

theorem isPlain_natText (n : Nat) : IsPlain (natText n) := (isNumeral_natText n).isPlain

theorem isPlain_upperHexText (bytes : List UInt8) : IsPlain (upperHexText bytes) := by
  have hdigit : ∀ d < 16, isPlain (upperDigitChar d) = true := by decide
  intro c hc
  obtain ⟨d, hd, rfl⟩ := exists_of_mem_upperHexText hc
  exact hdigit d hd

end Text

theorem SqlType.isPlain_sizeText (size : Size) : IsPlain (sizeText size) := by
  cases size with
  | fixed n => exact isPlain_natText n
  | max => decide

theorem DbType.isPlain_keyword (k : DbType) : IsPlain k.keyword := by cases k <;> decide

theorem SqlType.isPlain_facet (k : DbType) {facet : String} (h : IsPlain facet) :
    IsPlain (k.keyword ++ "(" ++ facet ++ ")") := by
  have hopen : IsPlain "(" := by decide
  have hclose : IsPlain ")" := by decide
  exact ((k.isPlain_keyword.append hopen).append h).append hclose

theorem SqlType.isPlain_sql {t : SqlType} (hudt : ∀ n, t ≠ .udt n) : IsPlain t.sql := by
  cases t with
  | udt n => exact absurd rfl (hudt n)
  | decimal p s =>
    have hhead : IsPlain "DECIMAL(" := by decide
    have hcomma : IsPlain ", " := by decide
    have hclose : IsPlain ")" := by decide
    exact (((hhead.append (isPlain_natText p)).append hcomma).append (isPlain_natText s)).append hclose
  | char n => exact isPlain_facet _ (isPlain_natText n)
  | nChar n => exact isPlain_facet _ (isPlain_natText n)
  | binary n => exact isPlain_facet _ (isPlain_natText n)
  | varChar size => exact isPlain_facet _ (isPlain_sizeText size)
  | nVarChar size => exact isPlain_facet _ (isPlain_sizeText size)
  | varBinary size => exact isPlain_facet _ (isPlain_sizeText size)
  | time p => exact isPlain_facet _ (isPlain_natText p)
  | dateTime2 p => exact isPlain_facet _ (isPlain_natText p)
  | dateTimeOffset p => exact isPlain_facet _ (isPlain_natText p)
  | _ => exact DbType.isPlain_keyword _

theorem isPlain_defaultType {t : ValueType} {type : SqlType} (h : defaultType t = .ok type) :
    IsPlain type.sql := by
  refine SqlType.isPlain_sql ?_
  rintro n rfl
  cases t with
  | enum enumName storage =>
    have h := Except.ok.inj h
    cases storage <;> cases h
  | custom typeName => cases h
  | _ => cases h

theorem isPlain_storedLiteral {type : SqlType} {v : Value} {s : String}
    (h : storedLiteral type v = .ok (.word s)) : IsPlain s := by
  have hfloat : ∀ {l : Layout} {x : Floating l}, floatLiteral x = .ok (.word s) → IsPlain s := by
    intro l x h
    unfold floatLiteral at h
    split at h
    · next hx =>
      cases h
      exact (Floating.isNumeral_text hx).isPlain
    · cases h
  cases v with
  | null =>
    cases h
    decide
  | bool b =>
    cases h
    cases b <;> decide
  | byte n =>
    cases h
    exact isPlain_natText _
  | int16 n =>
    cases h
    exact (isNumeral_intText _).isPlain
  | int32 n =>
    cases h
    exact (isNumeral_intText _).isPlain
  | int64 n =>
    cases h
    exact (isNumeral_intText _).isPlain
  | single x => exact hfloat h
  | double x => exact hfloat h
  | decimal d =>
    cases h
    exact d.isNumeral_text.isPlain
  | bytes b =>
    cases h
    have hhead : IsPlain "0x" := by decide
    exact hhead.append (isPlain_upperHexText b)
  | char c => cases h
  | string s => cases h
  | date d => cases h
  | time x => cases h
  | dateTime d => cases h
  | dateTimeOffset d => cases h
  | guid g => cases h

namespace Ending

theorem chars_isPlain {e : Ending} (he : e.isOpen = true ∨ e = letters) {s : List Char}
    (hs : ∀ c ∈ s, isPlain c = true) : ∃ e', e.chars s = some e' := by
  induction s generalizing e with
  | nil => exact ⟨e, rfl⟩
  | cons c rest ih =>
    have hc := hs c (by simp)
    simp only [isPlain, Bool.and_eq_true, decide_eq_true_eq] at hc
    have hmark : ∃ e', e.mark c = some e' ∧ (e'.isOpen = true ∨ e' = letters) := by
      unfold mark
      by_cases hn : isNameChar c = true
      · rw [if_pos hn]
        rcases he with ho | rfl
        · exact ⟨letters, by rw [if_pos ho, if_neg hc.2], .inr rfl⟩
        · exact ⟨letters, rfl, .inr rfl⟩
      · exact ⟨clear, by rw [if_neg hn, if_pos hc.1], .inl rfl⟩
    obtain ⟨e₁, hm, h₁⟩ := hmark
    obtain ⟨e', he'⟩ := ih h₁ fun d hd => hs d (by simp [hd])
    exact ⟨e', by rw [chars, hm]; exact he'⟩

theorem word_isPlain {e : Ending} (he : e.isOpen = true) {s : String} (hs : IsPlain s) :
    ∃ e', e.word s = some e' := by
  unfold word
  split
  · exact ⟨_, rfl⟩
  split
  · exact ⟨_, rfl⟩
  split
  · exact ⟨_, rfl⟩
  exact chars_isPlain (.inl (settled_isOpen he)) hs

end Ending

namespace Emission.Shows

variable {P : Error → Prop}

theorem plain (start : Ending) (hstart : start.isOpen = true) {s : String} (hs : IsPlain s) :
    (Emission.word s).Shows P start (some .loose) {} := by
  obtain ⟨e, he⟩ := Ending.word_isPlain hstart hs
  exact (ofWord s).loosen (by rw [he]; rfl)

theorem literal {t : ValueType} {v : Value} {l : Literal} (h : typedLiteral t v = .ok l) :
    (piece (.literal l)).Shows P .clear (some .loose) {} := by
  obtain ⟨type, -, h⟩ := Result.bind_eq_ok h
  obtain ⟨_, -, h⟩ := Result.bind_eq_ok h
  cases l with
  | string unicode s => exact quoted unicode s
  | word s =>
    refine ofPiece rfl (by simp) fun c hc => ?_
    have hopen : c.settled.isOpen = true := Ending.settled_isOpen (Ending.isOpen_of_within hc rfl)
    obtain ⟨e, he⟩ := Ending.chars_isPlain (.inl hopen) (isPlain_storedLiteral h)
    exact ⟨e, he, by cases e <;> rfl⟩

end Emission.Shows

end Tsql
