import GameRelay.Message.Frame
import Mathlib.Data.List.Basic

/-!
# Bytes that write a text

The bytes of a character, by the table of well-formed UTF-8: a lead byte says how many bytes follow
it, and after four of the lead bytes the next one has a smaller range, so that nothing is written in
more bytes than it takes, and neither a surrogate nor a number beyond the last character is written.
Bytes are taken for a text exactly when they are such sequences one after the other.
-/

set_option autoImplicit false
set_option relaxedAutoImplicit false

namespace GameRelay.Text

/-- A byte that may follow a lead byte. -/
def Continues (b : UInt8) : Prop := 0x80 ≤ b.toNat ∧ b.toNat ≤ 0xbf

inductive Spells : Char → List UInt8 → Prop
  | one (a : UInt8) (lead : a.toNat ≤ 0x7f) : Spells (Char.ofNat a.toNat) [a]
  | two (a b : UInt8) (lead : 0xc2 ≤ a.toNat ∧ a.toNat ≤ 0xdf) (second : Continues b) :
    Spells (Char.ofNat ((a.toNat - 0xc0) * 64 + (b.toNat - 0x80))) [a, b]
  | three (a b c : UInt8) (lead : 0xe0 ≤ a.toNat ∧ a.toNat ≤ 0xef) (second : Continues b)
      (third : Continues c) (notOverlong : a.toNat = 0xe0 → 0xa0 ≤ b.toNat)
      (noSurrogate : a.toNat = 0xed → b.toNat ≤ 0x9f) :
    Spells (Char.ofNat ((a.toNat - 0xe0) * 4096 + (b.toNat - 0x80) * 64 + (c.toNat - 0x80)))
      [a, b, c]
  | four (a b c d : UInt8) (lead : 0xf0 ≤ a.toNat ∧ a.toNat ≤ 0xf4) (second : Continues b)
      (third : Continues c) (fourth : Continues d) (notOverlong : a.toNat = 0xf0 → 0x90 ≤ b.toNat)
      (notBeyond : a.toNat = 0xf4 → b.toNat ≤ 0x8f) :
    Spells (Char.ofNat ((a.toNat - 0xf0) * 262144 + (b.toNat - 0x80) * 4096 +
      (c.toNat - 0x80) * 64 + (d.toNat - 0x80))) [a, b, c, d]

inductive Encodes : List Char → List UInt8 → Prop
  | nil : Encodes [] []
  | cons {c : Char} {cs : List Char} {first rest : List UInt8} (spells : Spells c first)
      (encodes : Encodes cs rest) : Encodes (c :: cs) (first ++ rest)

/-- Bytes that are well-formed UTF-8. -/
def IsUtf8 (bytes : List UInt8) : Prop := ∃ cs, Encodes cs bytes

private theorem ofNat_eq {n : Nat} {b : UInt8} (same : n = b.toNat) : UInt8.ofNat n = b := by
  rw [same, UInt8.ofNat_toNat]

private theorem number_ofNat {n : Nat} (valid : n.isValidChar) :
    (Char.ofNat n).val.toNat = n := by
  rw [Char.ofNat, dif_pos valid]
  rfl

private theorem encode_of_spells {c : Char} {bytes : List UInt8} (spells : Spells c bytes) :
    String.utf8EncodeChar c = bytes := by
  cases spells with
  | one a lead =>
    rw [String.utf8EncodeChar, number_ofNat (.inl (by omega)), if_pos lead, UInt8.ofNat_toNat]
  | two a b lead second =>
    obtain ⟨low, high⟩ := second
    rw [String.utf8EncodeChar, number_ofNat (.inl (by omega)), if_neg (by omega), if_pos (by omega),
      ofNat_eq (b := a) (by omega), ofNat_eq (b := b) (by omega)]
  | three a b c lead second third notOverlong noSurrogate =>
    obtain ⟨low, high⟩ := second
    obtain ⟨bottom, top⟩ := third
    rw [String.utf8EncodeChar, number_ofNat (by unfold Nat.isValidChar; omega), if_neg (by omega),
      if_neg (by omega), if_pos (by omega), ofNat_eq (b := a) (by omega),
      ofNat_eq (b := b) (by omega), ofNat_eq (b := c) (by omega)]
  | four a b c d lead second third fourth notOverlong notBeyond =>
    obtain ⟨low, high⟩ := second
    obtain ⟨bottom, top⟩ := third
    obtain ⟨least, most⟩ := fourth
    rw [String.utf8EncodeChar, number_ofNat (by unfold Nat.isValidChar; omega), if_neg (by omega),
      if_neg (by omega), if_neg (by omega), ofNat_eq (b := a) (by omega),
      ofNat_eq (b := b) (by omega), ofNat_eq (b := c) (by omega), ofNat_eq (b := d) (by omega)]

private theorem spells_encode (c : Char) : Spells c (String.utf8EncodeChar c) := by
  have valid : c.val.toNat < 0xd800 ∨ 0xdfff < c.val.toNat ∧ c.val.toNat < 0x110000 := c.valid
  have byte {n : Nat} (small : n < 256) : (UInt8.ofNat n).toNat = n :=
    UInt8.toNat_ofNat_of_lt' small
  have spelled {n : Nat} {bytes : List UInt8} (spells : Spells (Char.ofNat n) bytes)
      (same : n = c.val.toNat) : Spells c bytes := by
    rwa [same, show Char.ofNat c.val.toNat = c from c.ofNat_toNat] at spells
  rw [String.utf8EncodeChar]
  generalize c.val.toNat = n at valid spelled ⊢
  split_ifs with one two three
  · have first := byte (n := n) (by omega)
    exact spelled (.one _ (by omega)) first
  · have first := byte (n := n / 64 % 32 + 192) (by omega)
    have second := byte (n := n % 64 + 128) (by omega)
    exact spelled (.two _ _ (by omega) ⟨by omega, by omega⟩) (by omega)
  · have first := byte (n := n / 4096 % 16 + 224) (by omega)
    have second := byte (n := n / 64 % 64 + 128) (by omega)
    have third := byte (n := n % 64 + 128) (by omega)
    exact spelled (.three _ _ _ (by omega) ⟨by omega, by omega⟩ ⟨by omega, by omega⟩ (by omega)
      (by omega)) (by omega)
  · have first := byte (n := n / 262144 % 8 + 240) (by omega)
    have second := byte (n := n / 4096 % 64 + 128) (by omega)
    have third := byte (n := n / 64 % 64 + 128) (by omega)
    have fourth := byte (n := n % 64 + 128) (by omega)
    exact spelled (.four _ _ _ _ (by omega) ⟨by omega, by omega⟩ ⟨by omega, by omega⟩
      ⟨by omega, by omega⟩ (by omega) (by omega)) (by omega)

/-- The table agrees with the encoder of the standard library. -/
theorem spells_iff {c : Char} {bytes : List UInt8} :
    Spells c bytes ↔ String.utf8EncodeChar c = bytes :=
  ⟨encode_of_spells, fun same => same ▸ spells_encode c⟩

theorem encodes_iff {cs : List Char} {bytes : List UInt8} :
    Encodes cs bytes ↔ cs.flatMap String.utf8EncodeChar = bytes := by
  constructor
  · intro encodes
    induction encodes with
    | nil => rfl
    | cons spells _ ih => rw [List.flatMap_cons, spells_iff.mp spells, ih]
  · rintro rfl
    induction cs with
    | nil => exact .nil
    | cons c cs ih => exact .cons (spells_iff.mpr rfl) ih

private theorem loop_eq (bytes : ByteArray) (i : Nat) (before : List UInt8) :
    ByteArray.toList.loop bytes i before = before.reverse ++ bytes.data.toList.drop i := by
  fun_induction ByteArray.toList.loop bytes i before with
  | case1 i before inside ih =>
    have within : i < bytes.data.toList.length := inside
    have first : bytes.data.toList[i] = bytes.get! i :=
      (getElem!_pos bytes.data i inside).symm
    rw [ih, List.reverse_cons, List.append_assoc, List.singleton_append, ← first,
      List.drop_eq_getElem_cons inside]
  | case2 i before outside =>
    rw [List.drop_eq_nil_of_le (Nat.not_lt.mp outside), List.append_nil]

theorem toList_eq_data (bytes : ByteArray) : bytes.toList = bytes.data.toList :=
  loop_eq bytes 0 []

theorem encodes_toList_iff {s : String} {bytes : ByteArray} :
    Encodes s.toList bytes.toList ↔ s.toByteArray = bytes := by
  have own : s.toByteArray.data.toList = s.toList.flatMap String.utf8EncodeChar := by
    rw [← String.utf8Encode_toList, List.utf8Encode, List.toList_data_toByteArray]
  rw [encodes_iff, toList_eq_data, ← own, Array.toList_inj, ByteArray.ext_iff]

/-- Bytes are taken for the text that they write, and for no other. -/
theorem fromUTF8?_eq_some_iff {bytes : ByteArray} {s : String} :
    String.fromUTF8? bytes = some s ↔ Encodes s.toList bytes.toList := by
  rw [encodes_toList_iff, String.fromUTF8?]
  constructor
  · intro taken
    split at taken
    · exact congrArg String.toByteArray (Option.some.inj taken).symm
    · cases taken
  · rintro rfl
    rw [dif_pos s.isValidUTF8]
    rfl

/-- Bytes are taken for no text exactly when they are not well-formed. -/
theorem fromUTF8?_eq_none_iff {bytes : ByteArray} :
    String.fromUTF8? bytes = none ↔ ¬IsUtf8 bytes.toList := by
  rw [← not_iff_not, not_not, ← Ne, Option.ne_none_iff_exists']
  constructor
  · rintro ⟨s, taken⟩
    exact ⟨s.toList, fromUTF8?_eq_some_iff.mp taken⟩
  · rintro ⟨cs, encodes⟩
    refine ⟨String.ofList cs, fromUTF8?_eq_some_iff.mpr ?_⟩
    rwa [String.toList_ofList]

end GameRelay.Text
