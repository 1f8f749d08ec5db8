import GameRelay.Text.Hex
import GameRelay.Text.Printable
import Mathlib.Data.Nat.Digits.Defs

/-!
# Texts on one line

A text all characters of which can be shown as themselves has no place where a reader could end a
line. Texts that are put together from such texts are such texts, and so are numbers in either base.
-/

set_option autoImplicit false
set_option relaxedAutoImplicit false

namespace GameRelay.Text

/-- The characters at which one reader or another ends a line. -/
def lineBreaks : List Char :=
  ['\n', '\x0b', '\x0c', '\r', '\x1c', '\x1d', '\x1e', '\x85', '\u2028', '\u2029']

def AreShown (cs : List Char) : Prop := ∀ c ∈ cs, isPrintable c

def IsLine (s : String) : Prop := AreShown s.toList

private theorem not_isPrintable_of_lineBreak {c : Char} (ends : c ∈ lineBreaks) :
    isPrintable c = false := by
  have all : lineBreaks.all fun c => !isPrintable c := by decide +kernel
  simpa using List.all_eq_true.mp all c ends

theorem IsLine.unbroken {s : String} (line : IsLine s) : ∀ c ∈ lineBreaks, c ∉ s.toList := by
  intro c ends member
  cases (not_isPrintable_of_lineBreak ends).symm.trans (line c member)

def isPlain (c : Char) : Bool := 32 ≤ c.toNat ∧ c.toNat < 127

theorem isPrintable_of_isPlain {c : Char} (plain : isPlain c) : isPrintable c := by
  obtain ⟨low, high⟩ := of_decide_eq_true plain
  have apart : hiddenRanges.all fun range => range.2 < 32 || 127 ≤ range.1 := by decide +kernel
  rw [isPrintable, Bool.not_eq_true', List.any_eq_false]
  intro range member
  have outside := List.all_eq_true.mp apart range member
  simp only [Bool.or_eq_true, decide_eq_true_eq] at outside
  simp only [Bool.and_eq_true, decide_eq_true_eq]
  omega

section
variable {cs ds : List Char} {s t fixed : String}

theorem areShown_nil : AreShown [] := nofun

theorem AreShown.cons {c : Char} (first : isPrintable c) (rest : AreShown cs) :
    AreShown (c :: cs) :=
  List.forall_mem_cons.mpr ⟨first, rest⟩

theorem AreShown.append (first : AreShown cs) (rest : AreShown ds) : AreShown (cs ++ ds) :=
  fun c member => (List.mem_append.mp member).elim (first c) (rest c)

theorem areShown_flatMap {α : Type} {f : α → List Char} (each : ∀ a, AreShown (f a))
    (as : List α) : AreShown (as.flatMap f) := by
  intro c member
  obtain ⟨a, -, within⟩ := List.mem_flatMap.mp member
  exact each a c within

theorem isLine_of_isPlain (plain : s.toList.all isPlain) : IsLine s :=
  fun c member => isPrintable_of_isPlain (List.all_eq_true.mp plain c member)

theorem isLine_ofList (shown : AreShown cs) : IsLine (String.ofList cs) := by
  rwa [IsLine, String.toList_ofList]

theorem IsLine.append (first : IsLine s) (second : IsLine t) : IsLine (s ++ t) := by
  rw [IsLine, String.toList_append]
  exact AreShown.append first second

theorem IsLine.led (line : IsLine s) (plain : fixed.toList.all isPlain) :
    IsLine (fixed ++ s) :=
  (isLine_of_isPlain plain).append line

theorem IsLine.ended (line : IsLine s) (plain : fixed.toList.all isPlain) :
    IsLine (s ++ fixed) :=
  line.append (isLine_of_isPlain plain)

theorem IsLine.joined (first : IsLine s) (second : IsLine t)
    (plain : fixed.toList.all isPlain) : IsLine (s ++ fixed ++ t) :=
  (first.ended plain).append second

end

theorem areShown_intercalate {separator : List Char} {pieces : List (List Char)}
    (between : AreShown separator) (each : ∀ piece ∈ pieces, AreShown piece) :
    AreShown (separator.intercalate pieces) := by
  induction pieces with
  | nil => exact areShown_nil
  | cons first rest ih =>
    obtain ⟨shown, each⟩ := List.forall_mem_cons.mp each
    cases rest with
    | nil => simpa using shown
    | cons second rest =>
      rw [List.intercalate_cons_cons]
      exact (shown.append between).append (ih each)

private theorem isPlain_hexDigit {n : Nat} (small : n < 16) : isPlain (hexDigit n) := by
  have all : ∀ m : Fin 16, isPlain (hexDigit m.val) := by decide
  exact all ⟨n, small⟩

theorem areShown_hexDigits (width n : Nat) : AreShown (hexDigits width n) := by
  induction width generalizing n with
  | zero => exact areShown_nil
  | succ width ih =>
    have last := isPrintable_of_isPlain (isPlain_hexDigit (Nat.mod_lt n (by decide)))
    exact (ih (n / 16)).append (areShown_nil.cons last)

theorem isLine_toString (n : Nat) : IsLine (toString n) := by
  refine isLine_ofList ?_
  intro c member
  have digit := Nat.isDigit_of_mem_toDigits (by decide) (by decide) member
  rw [Char.isDigit, Bool.and_eq_true, decide_eq_true_eq, decide_eq_true_eq] at digit
  have low : 48 ≤ c.toNat := digit.1
  have high : c.toNat ≤ 57 := digit.2
  exact isPrintable_of_isPlain (decide_eq_true ⟨by omega, by omega⟩)

end GameRelay.Text
