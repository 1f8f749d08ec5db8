import GameRelay.Proofs.Text.Line
import GameRelay.Text.Quoted
import Mathlib.Data.List.Basic

/-!
# What quoting hides and what it keeps

Between the quotes stand characters that can be shown, whatever was quoted, so that a quoted text
never breaks a line. One character after the other is read back from what stands there: different
texts are quoted differently, and so are different rows of bytes.
-/

set_option autoImplicit false
set_option relaxedAutoImplicit false

namespace GameRelay.Text

variable {quote : Char}

theorem quoteFor_cases (cs : List Char) : quoteFor cs = '\'' ∨ quoteFor cs = '"' := by
  unfold quoteFor
  split
  · exact .inr rfl
  · exact .inl rfl

theorem isPlain_of_mark (mark : quote = '\'' ∨ quote = '"') : isPlain quote := by
  rcases mark with rfl | rfl <;> decide

theorem areShown_escape {letter : Char} {cs : List Char} (plain : isPlain letter)
    (rest : AreShown cs) : AreShown ('\\' :: letter :: cs) :=
  (rest.cons (isPrintable_of_isPlain plain)).cons (isPrintable_of_isPlain (by decide))

theorem areShown_quotedChar (mark : quote = '\'' ∨ quote = '"') (c : Char) :
    AreShown (quotedChar quote c) := by
  unfold quotedChar
  split_ifs with own newline home tab shown byte unit
  · have plain : isPlain c := by
      rcases own with rfl | rfl
      · exact isPlain_of_mark mark
      · decide
    exact areShown_escape plain areShown_nil
  · exact areShown_escape (by decide) areShown_nil
  · exact areShown_escape (by decide) areShown_nil
  · exact areShown_escape (by decide) areShown_nil
  · exact areShown_nil.cons shown
  · exact areShown_escape (by decide) (areShown_hexDigits 2 _)
  · exact areShown_escape (by decide) (areShown_hexDigits 4 _)
  · exact areShown_escape (by decide) (areShown_hexDigits 8 _)

private theorem toNat_ofByte (b : UInt8) : (Char.ofNat b.toNat).toNat = b.toNat := by
  have small := b.toNat_lt
  rw [Char.toNat, Char.ofNat, dif_pos (.inl (by omega))]
  rfl

private theorem isPrintable_ofByte {b : UInt8} (ascii : b.toNat < 0x80) :
    isPrintable (Char.ofNat b.toNat) = decide (32 ≤ b.toNat ∧ b.toNat < 127) := by
  by_cases plain : 32 ≤ b.toNat ∧ b.toNat < 127
  · rw [decide_eq_true plain]
    exact isPrintable_of_isPlain (by rwa [isPlain, toNat_ofByte, decide_eq_true_eq])
  · have controls : ∀ n : Fin 128, n.val < 32 ∨ n.val = 127 →
        isPrintable (Char.ofNat n.val) = false := by decide +kernel
    rw [decide_eq_false plain]
    exact controls ⟨b.toNat, ascii⟩ (by dsimp only; omega)

theorem quotedByte_of_ascii {b : UInt8} (ascii : b.toNat < 0x80) :
    quotedByte quote b = quotedChar quote (Char.ofNat b.toNat) := by
  have narrow : b.toNat < 0x100 := Nat.lt_trans ascii (by decide)
  simp only [quotedByte, quotedChar, isPrintable_ofByte ascii, decide_eq_true_eq, toNat_ofByte,
    narrow, if_true]

theorem quotedByte_of_high (mark : quote = '\'' ∨ quote = '"') {b : UInt8}
    (high : 0x80 ≤ b.toNat) : quotedByte quote b = '\\' :: 'x' :: hexDigits 2 b.toNat := by
  have other {c : Char} (ascii : c.toNat < 0x80) : Char.ofNat b.toNat ≠ c := by
    rintro rfl
    rw [toNat_ofByte] at ascii
    omega
  have own : Char.ofNat b.toNat ≠ quote :=
    other (Nat.lt_of_lt_of_le (of_decide_eq_true (isPlain_of_mark mark)).2 (by decide))
  simp only [quotedByte, own, other (c := '\\') (by decide), other (c := '\n') (by decide),
    other (c := '\r') (by decide), other (c := '\t') (by decide), or_self, if_false]
  rw [if_neg (by omega)]

private theorem areShown_quotedByte (mark : quote = '\'' ∨ quote = '"') (b : UInt8) :
    AreShown (quotedByte quote b) := by
  by_cases ascii : b.toNat < 0x80
  · rw [quotedByte_of_ascii ascii]
    exact areShown_quotedChar mark _
  · rw [quotedByte_of_high mark (Nat.not_lt.mp ascii)]
    exact areShown_escape (by decide) (areShown_hexDigits 2 _)

private theorem areShown_between {α : Type} {f : α → List Char} (plain : isPlain quote)
    (each : ∀ a, AreShown (f a)) (as : List α) :
    AreShown (quote :: (as.flatMap f ++ [quote])) :=
  ((areShown_flatMap each as).append
    (areShown_nil.cons (isPrintable_of_isPlain plain))).cons (isPrintable_of_isPlain plain)

theorem isLine_quote (s : String) : IsLine (Text.quote s) := by
  have mark := quoteFor_cases s.toList
  exact isLine_ofList (areShown_between (isPlain_of_mark mark) (areShown_quotedChar mark) _)

theorem isLine_quoteBytes (bytes : List UInt8) : IsLine (quoteBytes bytes) := by
  have mark := quoteFor_cases (bytes.map fun b => Char.ofNat b.toNat)
  refine isLine_ofList (AreShown.cons (isPrintable_of_isPlain (by decide)) ?_)
  exact areShown_between (isPlain_of_mark mark) (areShown_quotedByte mark) _

def hexNumber (cs : List Char) : Nat := cs.foldl (fun n c => 16 * n + (hexValue? c).getD 0) 0

/-- The character whose number the first digits of a text write, and what follows them. -/
def takeHex (width : Nat) (cs : List Char) : Char × List Char :=
  (Char.ofNat (hexNumber (cs.take width)), cs.drop width)

/-- The first character that stands between quotes, and what follows it. -/
def takeQuoted : List Char → Option (Char × List Char)
  | [] => none
  | '\\' :: 'n' :: rest => some ('\n', rest)
  | '\\' :: 'r' :: rest => some ('\r', rest)
  | '\\' :: 't' :: rest => some ('\t', rest)
  | '\\' :: 'x' :: rest => some (takeHex 2 rest)
  | '\\' :: 'u' :: rest => some (takeHex 4 rest)
  | '\\' :: 'U' :: rest => some (takeHex 8 rest)
  | '\\' :: c :: rest => some (c, rest)
  | c :: rest => some (c, rest)

private theorem hexNumber_hexDigits {width n : Nat} (small : n < 16 ^ width) :
    hexNumber (hexDigits width n) = n := by
  induction width generalizing n with
  | zero =>
    rw [Nat.pow_zero] at small
    exact (Nat.lt_one_iff.mp small).symm
  | succ width ih =>
    have fewer : n / 16 < 16 ^ width := by
      rw [Nat.pow_succ] at small
      omega
    have before := ih fewer
    unfold hexNumber at before ⊢
    rw [hexDigits, List.foldl_append, before, List.foldl_cons, List.foldl_nil,
      hexValue?_hexDigit (Nat.mod_lt n (by decide)), Option.getD_some]
    omega

theorem takeHex_hexDigits (width : Nat) {n : Nat} (small : n < 16 ^ width) (rest : List Char) :
    takeHex width (hexDigits width n ++ rest) = (Char.ofNat n, rest) := by
  have length := length_hexDigits width n
  rw [takeHex, List.take_left' length, List.drop_left' length, hexNumber_hexDigits small]

private theorem takeQuoted_cons {c : Char} (plain : c ≠ '\\') (rest : List Char) :
    takeQuoted (c :: rest) = some (c, rest) := by
  unfold takeQuoted
  split <;> simp_all

theorem takeQuoted_quotedChar (mark : quote = '\'' ∨ quote = '"') (c : Char) (rest : List Char) :
    takeQuoted (quotedChar quote c ++ rest) = some (c, rest) := by
  have hex (width : Nat) (small : c.toNat < 16 ^ width) :
      takeHex width (hexDigits width c.toNat ++ rest) = (c, rest) := by
    rw [takeHex_hexDigits width small, Char.ofNat_toNat]
  unfold quotedChar
  split_ifs with own newline home tab shown byte unit
  · rcases own with rfl | rfl
    · rcases mark with rfl | rfl <;> rfl
    · rfl
  · rw [newline]
    rfl
  · rw [home]
    rfl
  · rw [tab]
    rfl
  · exact takeQuoted_cons (fun same => own (.inr same)) rest
  · exact congrArg some (hex 2 byte)
  · exact congrArg some (hex 4 unit)
  · exact congrArg some (hex 8 c.val.toNat_lt)

private theorem takeQuoted_quotedByte (mark : quote = '\'' ∨ quote = '"') (b : UInt8)
    (rest : List Char) :
    takeQuoted (quotedByte quote b ++ rest) = some (Char.ofNat b.toNat, rest) := by
  by_cases ascii : b.toNat < 0x80
  · rw [quotedByte_of_ascii ascii]
    exact takeQuoted_quotedChar mark _ rest
  · rw [quotedByte_of_high mark (Nat.not_lt.mp ascii)]
    exact congrArg some (takeHex_hexDigits 2 b.toNat_lt rest)

private theorem map_eq_of_flatMap {α : Type} {f : α → List Char} {g : α → Char}
    (reads : ∀ a rest, takeQuoted (f a ++ rest) = some (g a, rest)) {as bs : List α}
    (same : as.flatMap f = bs.flatMap f) : as.map g = bs.map g := by
  induction as generalizing bs with
  | nil =>
    cases bs with
    | nil => rfl
    | cons b bs =>
      -- something is read back from a row that is not empty, and nothing from an empty one
      have read := reads b (bs.flatMap f)
      rw [← List.flatMap_cons, ← same] at read
      cases read
  | cons a as ih =>
    have read := reads a (as.flatMap f)
    rw [← List.flatMap_cons, same] at read
    cases bs with
    | nil => cases read
    | cons b bs =>
      rw [List.flatMap_cons, reads, Option.some.injEq, Prod.mk.injEq] at read
      rw [List.map_cons, List.map_cons, read.1, ih read.2.symm]

private theorem eq_of_between {α : Type} {f : Char → α → List Char} {g : α → Char} {q p : Char}
    (mark : q = '\'' ∨ q = '"')
    (reads : ∀ quote, (quote = '\'' ∨ quote = '"') → ∀ a rest,
      takeQuoted (f quote a ++ rest) = some (g a, rest)) {as bs : List α}
    (same : q :: (as.flatMap (f q) ++ [q]) = p :: (bs.flatMap (f p) ++ [p])) :
    as.map g = bs.map g := by
  obtain ⟨rfl, rest⟩ := List.cons.inj same
  exact map_eq_of_flatMap (reads q mark) (List.append_cancel_right rest)

theorem quote_injective : Function.Injective Text.quote := by
  intro s t same
  have between := eq_of_between (g := id) (quoteFor_cases s.toList)
    (fun quote mark => takeQuoted_quotedChar mark) (String.ofList_inj.mp same)
  rw [List.map_id, List.map_id] at between
  exact String.toList_inj.mp between

private theorem ofByte_injective : Function.Injective fun b : UInt8 => Char.ofNat b.toNat := by
  intro a b same
  have number := congrArg Char.toNat same
  rw [toNat_ofByte, toNat_ofByte] at number
  exact UInt8.toNat_inj.mp number

theorem quoteBytes_injective : Function.Injective quoteBytes := by
  intro as bs same
  have between := eq_of_between (quoteFor_cases _) (fun quote mark => takeQuoted_quotedByte mark)
    (List.cons.inj (String.ofList_inj.mp same)).2
  exact List.map_injective_iff.mpr ofByte_injective between

theorem quote_ne_quoteBytes (s : String) (bytes : List UInt8) :
    Text.quote s ≠ quoteBytes bytes := by
  intro same
  have first := (List.cons.inj (String.ofList_inj.mp same)).1
  rcases quoteFor_cases s.toList with mark | mark
  · cases mark.symm.trans first
  · cases mark.symm.trans first

end GameRelay.Text
