import Tsql.Guid
import Tsql.Proofs.Text.Digits

/-!
# Identifiers read back

The hyphenated text of an identifier is none of the other forms, and its groups put together are the digits
of its bytes.
-/

namespace Tsql.Guid

open Text

theorem readByte?_hexByte (b : UInt8) :
    readByte? (digitChar (b.toNat / 16)) (digitChar (b.toNat % 16)) = some b := by
  have hb : b.toNat < 256 := b.toNat_lt
  have hhigh : hexValue? (digitChar (b.toNat / 16)) = some (b.toNat / 16) :=
    hexValue?_digitChar (by omega)
  have hlow : hexValue? (digitChar (b.toNat % 16)) = some (b.toNat % 16) :=
    hexValue?_digitChar (by omega)
  rw [readByte?, hhigh, hlow]
  exact congrArg some (ofNat_nibbles b)

theorem readBytes?_flatMap (bytes : List UInt8) : readBytes? (bytes.flatMap hexByte) = some bytes := by
  induction bytes with
  | nil => rfl
  | cons b rest ih =>
    rw [List.flatMap_cons]
    show readBytes? (digitChar (b.toNat / 16) :: digitChar (b.toNat % 16) :: rest.flatMap hexByte) = _
    rw [readBytes?, readByte?_hexByte, ih]

theorem length_flatMap_hexByte (bytes : List UInt8) : (bytes.flatMap hexByte).length = 2 * bytes.length := by
  induction bytes with
  | nil => rfl
  | cons b rest ih =>
    rw [List.flatMap_cons, List.length_append, ih, List.length_cons]
    show 2 + _ = _
    omega

/-- Five groups of digits with hyphens between them. -/
theorem readHyphenated?_groups {a b c d e : List Char} (ha : a.length = 8) (hb : b.length = 4)
    (hc : c.length = 4) (hd : d.length = 4) (he : e.length = 12) :
    readHyphenated? (a ++ '-' :: (b ++ '-' :: (c ++ '-' :: (d ++ '-' :: e)))) =
      readSimple? (a ++ b ++ c ++ d ++ e) := by
  have hhyphen : ∀ {group rest : List Char} {n : Nat}, group.length = n →
      (group ++ '-' :: rest)[n]? = some '-' := by
    rintro group rest n rfl
    simp
  have hrest : ∀ {group rest : List Char} {n : Nat}, group.length = n →
      (group ++ '-' :: rest).drop (n + 1) = rest := by
    rintro group rest n rfl
    simp
  generalize hs : a ++ '-' :: (b ++ '-' :: (c ++ '-' :: (d ++ '-' :: e))) = s
  have h9 : s.drop 9 = b ++ '-' :: (c ++ '-' :: (d ++ '-' :: e)) := hs ▸ hrest ha
  have h14 : s.drop 14 = c ++ '-' :: (d ++ '-' :: e) := by
    rw [← List.drop_drop (i := 5) (j := 9), h9, hrest hb]
  have h19 : s.drop 19 = d ++ '-' :: e := by
    rw [← List.drop_drop (i := 5) (j := 14), h14, hrest hc]
  have h24 : s.drop 24 = e := by
    rw [← List.drop_drop (i := 5) (j := 19), h19, hrest hd]
  have hhyphens : s.length = 36 ∧ s[8]? = some '-' ∧ s[13]? = some '-' ∧ s[18]? = some '-' ∧
      s[23]? = some '-' := by
    refine ⟨?_, hs ▸ hhyphen ha, ?_, ?_, ?_⟩
    · rw [← hs]
      simp [ha, hb, hc, hd, he]
    · rw [← List.getElem?_drop (i := 9) (j := 4), h9, hhyphen hb]
    · rw [← List.getElem?_drop (i := 14) (j := 4), h14, hhyphen hc]
    · rw [← List.getElem?_drop (i := 19) (j := 4), h19, hhyphen hd]
  have h8 : s.take 8 = a := by rw [← hs, List.take_left' ha]
  rw [readHyphenated?, if_pos hhyphens, h8, h9, h14, h19, h24, List.take_left' hb, List.take_left' hc,
    List.take_left' hd]

theorem toLower_digitChar {n : Nat} (h : n < 16) : (digitChar n).toLower ≠ 'u' := by
  have : n ∈ List.range 16 := List.mem_range.2 h
  revert n
  decide

def group (g : Guid) (start count : Nat) : List Char := ((g.bytes.drop start).take count).flatMap hexByte

theorem length_group (g : Guid) {start count : Nat} (h : start + count ≤ 16) :
    (g.group start count).length = 2 * count := by
  have hbytes := g.length_eq
  rw [group, length_flatMap_hexByte, List.length_take, List.length_drop]
  omega

theorem text_toList (g : Guid) : g.text.toList =
    g.group 0 4 ++ '-' :: (g.group 4 2 ++ '-' :: (g.group 6 2 ++ '-' :: (g.group 8 2 ++
      '-' :: g.group 10 6))) := by
  simp only [text, String.toList_ofList, group, List.append_assoc, List.cons_append]

theorem groups_eq (g : Guid) : g.group 0 4 ++ g.group 4 2 ++ g.group 6 2 ++ g.group 8 2 ++ g.group 10 6 =
    g.bytes.flatMap hexByte := by
  have hslice : ∀ i n, (g.bytes.drop i).take n ++ g.bytes.drop (i + n) = g.bytes.drop i := by
    intro i n
    rw [← List.drop_drop, List.take_append_drop]
  have hlast : (g.bytes.drop 10).take 6 = g.bytes.drop 10 := by
    have hbytes := g.length_eq
    exact List.take_of_length_le (by rw [List.length_drop]; omega)
  simp only [group, ← List.flatMap_append, List.append_assoc]
  rw [hlast, hslice 8 2, hslice 6 2, hslice 4 2, hslice 0 4, List.drop_zero]

theorem readSimple?_groups (g : Guid) :
    readSimple? (g.group 0 4 ++ g.group 4 2 ++ g.group 6 2 ++ g.group 8 2 ++ g.group 10 6) = some g := by
  rw [groups_eq, readSimple?, readBytes?_flatMap, Option.bind_some, ofBytes?, dif_pos g.length_eq]

theorem read?_text (g : Guid) : read? g.text.toList = some g := by
  have hlength : g.text.toList.length = 36 := by
    rw [text_toList]
    simp [length_group]
  have hurn : (g.text.toList.take 9).map Char.toLower ≠ urnMark := by
    obtain ⟨b, rest, hb⟩ : ∃ b rest, g.bytes = b :: rest := by
      refine List.exists_cons_of_ne_nil fun hnil => ?_
      have hbytes := g.length_eq
      rw [hnil] at hbytes
      cases hbytes
    have hlt : b.toNat < 256 := b.toNat_lt
    intro h
    rw [text_toList, group, hb] at h
    exact toLower_digitChar (by omega) (List.cons.inj h).1
  rw [read?, if_neg (by omega), if_neg (by omega), if_neg hurn, text_toList,
    readHyphenated?_groups (g.length_group (by decide)) (g.length_group (by decide))
      (g.length_group (by decide)) (g.length_group (by decide)) (g.length_group (by decide)),
    readSimple?_groups]

end Tsql.Guid
