/-!
# Levels of records

A level is a number; the common ones have names, which settings give in any case. Letters that
are no ASCII letters count as the ASCII letters of their upper case, as far as that has any.
-/

set_option autoImplicit false
set_option relaxedAutoImplicit false

namespace GameRelay.Log

abbrev Level := Int

namespace Level

def debug : Level := 10
def info : Level := 20
def warning : Level := 30
def error : Level := 40
def critical : Level := 50

def name (level : Level) : String :=
  if level = critical then "CRITICAL"
  else if level = error then "ERROR"
  else if level = warning then "WARNING"
  else if level = info then "INFO"
  else if level = debug then "DEBUG"
  else if level = 0 then "NOTSET"
  else "Level " ++ toString level

/-- The upper case of a character. Beyond ASCII it is worked out only where it is ASCII. -/
def upper (c : Char) : List Char :=
  if 'a' ≤ c ∧ c ≤ 'z' then [Char.ofNat (c.toNat - 32)]
  else match c with
    | 'ß' => ['S', 'S']
    | 'ı' => ['I']
    | 'ſ' => ['S']
    | 'ﬀ' => ['F', 'F']
    | 'ﬁ' => ['F', 'I']
    | 'ﬂ' => ['F', 'L']
    | 'ﬃ' => ['F', 'F', 'I']
    | 'ﬄ' => ['F', 'F', 'L']
    | 'ﬅ' => ['S', 'T']
    | 'ﬆ' => ['S', 'T']
    | _ => [c]

/-- The text that a name in the settings may not stand for, although it is known. -/
def basicFormat : String := "%(levelname)s:%(name)s:%(message)s"

/-- The table that another name in the settings may not stand for: the styles of format, each with
its usual format. -/
def styles : String :=
  "\x7b'%': (<class 'logging.PercentStyle'>, '" ++ basicFormat ++ "'), " ++
    "'\x7b': (<class 'logging.StrFormatStyle'>, " ++
    "'\x7blevelname\x7d:\x7bname\x7d:\x7bmessage\x7d'), " ++
    "'$': (<class 'logging.StringTemplateStyle'>, " ++
    "'$\x7blevelname\x7d:$\x7bname\x7d:$\x7bmessage\x7d')\x7d"

/-- A name that stands for something else than a level: a text that names none, or no text. -/
inductive Fault
  | notALevel (text : String)
  | notAText (shown : String)
  deriving DecidableEq

/-- The level that a setting names: the usual one when the name is unknown. -/
def ofName (setting : String) : Except Fault Level :=
  match String.ofList (setting.toList.flatMap upper) with
  | "CRITICAL" | "FATAL" => .ok critical
  | "ERROR" => .ok error
  | "WARNING" | "WARN" => .ok warning
  | "INFO" => .ok info
  | "DEBUG" => .ok debug
  | "NOTSET" => .ok 0
  | "BASIC_FORMAT" => .error (.notALevel basicFormat)
  | "_STYLES" => .error (.notAText styles)
  | _ => .ok info

def Fault.message : Fault → String
  | .notALevel text => "Unknown level: '" ++ text ++ "'"
  | .notAText shown => "Level not an integer or a valid string: " ++ shown

end Level

end GameRelay.Log
