import GameRelay.Text.Blank
import GameRelay.Text.DecimalDigit
import GameRelay.Text.Quoted

/-!
# Integers in settings

An integer may have blanks around it, one sign, and digits of any script with single underscores
between them. At most 4300 digits are taken. A text that is no integer is named in the complaint,
quoted and cut to 200 characters.
-/

set_option autoImplicit false
set_option relaxedAutoImplicit false

namespace GameRelay.Text

inductive IntegerFault
  | notInteger (text : String)
  | tooLong (count : Nat)
  deriving DecidableEq

/-- The greatest number of digits that an integer may have. -/
def integerDigitLimit : Nat := 4300

def IntegerFault.message : IntegerFault → String
  | .notInteger text =>
    "invalid literal for int() with base 10: " ++ String.ofList ((quote text).toList.take 200)
  | .tooLong count =>
    "Exceeds the limit (" ++ toString integerDigitLimit ++
      " digits) for integer string conversion: value has " ++ toString count ++
      " digits; use sys.set_int_max_str_digits() to increase the limit"

/-- Splits a text after its leading digits, which single underscores may separate. At the start
and after an underscore a digit has to come. -/
def takeGrouped : Bool → List Char → Option (List Decimal.Digit × List Char)
  | digitDue, [] => if digitDue then none else some ([], [])
  | digitDue, c :: rest =>
    if c = '_' then if digitDue then none else takeGrouped true rest
    else match decimalDigit? c with
      | some d => (takeGrouped false rest).map fun split => (d :: split.1, split.2)
      | none => if digitDue then none else some ([], c :: rest)

def takeSign : List Char → Bool × List Char
  | '-' :: rest => (true, rest)
  | '+' :: rest => (false, rest)
  | rest => (false, rest)

/-- Reads an integer. Too many digits are reported before anything that follows them. -/
def readInteger (text : String) : Except IntegerFault Int :=
  let (negative, unsigned) := takeSign (text.toList.dropWhile isBlank)
  match takeGrouped true unsigned with
  | none => .error (.notInteger text)
  | some (ds, rest) =>
    if integerDigitLimit < ds.length then .error (.tooLong ds.length)
    else if rest.all isBlank then
      .ok (if negative then -(Decimal.value ds : Int) else Decimal.value ds)
    else .error (.notInteger text)

end GameRelay.Text
