import SolidScript.Decimal.Read
import SolidScript.Toml.Basic

/-!
# Bare TOML values

Numbers, truth values, dates and times: the values that are written without quotes or brackets. Underscores may stand
between the digits of a number. A number beyond the positive doubles is refused.
-/

namespace SolidScript.Toml.Scalar

/-- Whether a character can stand in a bare value. -/
def isBareChar (c : Char) : Bool := c.isAlphanum || c = '_' || c = '+' || c = '-' || c = '.' || c = ':'

/-- The digits of a run in which single underscores stand between digits; none if they stand elsewhere. -/
def digits? (isDigit : Char → Bool) : List Char → Option (List Char)
  | [] => none
  | [c] => if isDigit c then some [c] else none
  | c :: '_' :: rest => if isDigit c then (digits? isDigit rest).map (c :: ·) else none
  | c :: rest => if isDigit c then (digits? isDigit rest).map (c :: ·) else none

/-- Decimal digits that do not begin with a superfluous zero. -/
def whole? (text : List Char) : Option (List Char) := do
  let digits ← digits? Char.isDigit text
  match digits with
  | '0' :: _ :: _ => none
  | digits => some digits

/-- The value of a digit in bases up to sixteen. -/
def digitValue (c : Char) : Nat :=
  if c.isDigit then c.toNat - '0'.toNat else c.toLower.toNat - 'a'.toNat + 10

/-- The count that digits write in a base. -/
def valueInBase (base : Nat) (digits : List Char) : Nat := digits.foldl (fun n c => base * n + digitValue c) 0

/-- An integer that 64 bits hold. -/
def bounded? (n : Int) : Option Toml :=
  if -(Decimal.Digits.signedReach : Int) ≤ n ∧ n < Decimal.Digits.signedReach then some (.integer n) else none

/-- An integer in a base that its first characters name. -/
def based? (base : Nat) (isDigit : Char → Bool) (text : List Char) : Option Toml := do
  bounded? (valueInBase base (← digits? isDigit text))

/-- Whether a character is a digit in base sixteen. -/
def isHex (c : Char) : Bool := c.isDigit || ('a' ≤ c && c ≤ 'f') || ('A' ≤ c && c ≤ 'F')

/-- Whether a character is a digit in base eight. -/
def isOctal (c : Char) : Bool := '0' ≤ c && c ≤ '7'

/-- Whether a character is a digit in base two. -/
def isBinary (c : Char) : Bool := c = '0' || c = '1'

/-- An integer. -/
def integer? : List Char → Option Toml
  | '0' :: 'x' :: rest => based? 16 isHex rest
  | '0' :: 'o' :: rest => based? 8 isOctal rest
  | '0' :: 'b' :: rest => based? 2 isBinary rest
  | text =>
    let (negative, rest) := Decimal.splitSign text
    (whole? rest).bind fun digits =>
      let n : Int := Decimal.Digits.value digits
      bounded? (if negative then -n else n)

/-- The part of a text before the first character with a property, and the rest with it. -/
def splitBefore (p : Char → Bool) (text : List Char) : List Char × List Char := text.span fun c => !p c

/-- The exponent behind its mark; zero if there is no mark. -/
def exponent? : List Char → Option Int
  | [] => some 0
  | _ :: rest =>
    let (negative, rest) := Decimal.splitSign rest
    (digits? Char.isDigit rest).map fun digits =>
      let n : Int := Decimal.Digits.value digits
      if negative then -n else n

/-- A double with a fraction or an exponent. -/
def float? (text : List Char) : Option Toml := do
  let (negative, rest) := Decimal.splitSign text
  let (mantissa, exponent) := splitBefore (fun c => c = 'e' || c = 'E') rest
  let (whole, fraction) := splitBefore (· = '.') mantissa
  if fraction.isEmpty && exponent.isEmpty then none
  let whole ← whole? whole
  let fraction ← match fraction with
    | [] => some []
    | _ :: digits => digits? Char.isDigit digits
  let magnitude := Decimal.ofDigits whole fraction (← exponent? exponent)
  if negative then some (.float (-magnitude))
  else if magnitude.isFinite then some (.float magnitude)
  else none

/-- A double in words. -/
def word? (text : List Char) : Option Toml :=
  let (negative, rest) := Decimal.splitSign text
  if rest = ['i', 'n', 'f'] then some (.float (if negative then -1.0 / 0.0 else 1.0 / 0.0))
  else if rest = ['n', 'a', 'n'] then some (.float (0.0 / 0.0))
  else none

/-! ## Dates and times -/

/-- A number of exactly `width` digits in a range. -/
def field? (width least greatest : Nat) (text : List Char) : Option (Nat × List Char) :=
  let digits := text.take width
  let n := Decimal.Digits.value digits
  if digits.length = width && digits.all Char.isDigit && least ≤ n && n ≤ greatest then some (n, text.drop width)
  else none

/-- The text behind a character that must stand first. -/
def expect? (c : Char) : List Char → Option (List Char)
  | d :: rest => if d = c then some rest else none
  | [] => none

/-- The number of days in a month. -/
def daysIn (year month : Nat) : Nat :=
  if month = 2 then
    if year % 4 = 0 && (year % 100 != 0 || year % 400 = 0) then 29 else 28
  else if month = 4 || month = 6 || month = 9 || month = 11 then 30
  else 31

/-- The text behind a date. -/
def skipDate? (text : List Char) : Option (List Char) := do
  let (year, rest) ← field? 4 0 9999 text
  let (month, rest) ← field? 2 1 12 (← expect? '-' rest)
  let (_, rest) ← field? 2 1 (daysIn year month) (← expect? '-' rest)
  some rest

/-- The text behind a time of day. -/
def skipTime? (text : List Char) : Option (List Char) := do
  let (_, rest) ← field? 2 0 23 text
  let (_, rest) ← field? 2 0 59 (← expect? ':' rest)
  let (_, rest) ← field? 2 0 60 (← expect? ':' rest)
  match rest with
  | '.' :: rest =>
    let (digits, rest) := Decimal.Digits.split rest
    if digits.isEmpty then none else some rest
  | rest => some rest

/-- Whether a text is nothing, or a distance from the time at Greenwich. -/
def isOffset : List Char → Bool
  | [] => true
  | ['Z'] => true
  | ['z'] => true
  | c :: rest =>
    (c = '+' || c = '-') && Option.isSome do
      let (_, rest) ← field? 2 0 23 rest
      let (_, rest) ← field? 2 0 59 (← expect? ':' rest)
      if rest.isEmpty then some () else none

/-- Whether a text is a date, a time, or a date with a time. -/
def isMoment (text : List Char) : Bool :=
  match skipDate? text with
  | some [] => true
  | some (c :: rest) =>
    (c = 'T' || c = 't' || c = ' ') && (skipTime? rest).any isOffset
  | none => skipTime? text == some []

/-! ## Bare values -/

/-- The value that a bare text writes. -/
def value? (text : List Char) : Option Toml :=
  if text = "true".toList then some (.boolean true)
  else if text = "false".toList then some (.boolean false)
  else if isMoment text then some .moment
  else ((word? text).or (integer? text)).or (float? text)

/-- A bare value at the front of a text, and what follows it. A date may be followed by a blank and a time. -/
def read? (text : List Char) : Option (Toml × List Char) :=
  let (bare, rest) := text.span isBareChar
  match skipDate? bare, rest with
  | some [], ' ' :: later =>
    let (time, rest') := later.span isBareChar
    if isMoment (bare ++ ' ' :: time) then some (.moment, rest') else some (.moment, rest)
  | _, _ => (value? bare).map fun value => (value, rest)

end SolidScript.Toml.Scalar
