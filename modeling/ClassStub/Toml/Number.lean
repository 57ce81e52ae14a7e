import ClassStub.Text.Parser

/-!
# Numbers in TOML

Integers are written in base ten with an optional sign, or after `0x`, `0o` and
`0b` in base sixteen, eight and two; they fit in 64 bits.  Floating-point numbers
have a fraction, an exponent or both, or they are `inf` and `nan`.  Single
underscores may stand between digits.  A number that is too large for binary64
is malformed if it is positive, and infinite if it is negative.
-/

namespace ClassStub.Toml

/-- A floating-point number as it is written: digits times a power of ten. -/
inductive Decimal where
  | finite (negative : Bool) (digits : Nat) (exponent : Int)
  | infinite (negative : Bool)
  | undefined
  deriving DecidableEq

/-- The value of a digit in a base up to sixteen. -/
def digitValue? (base : Nat) (char : Char) : Option Nat :=
  let value :=
    if '0' ≤ char ∧ char ≤ '9' then some (char.toNat - '0'.toNat)
    else if 'a' ≤ char ∧ char ≤ 'f' then some (char.toNat - 'a'.toNat + 10)
    else if 'A' ≤ char ∧ char ≤ 'F' then some (char.toNat - 'A'.toNat + 10)
    else none
  value.filter (· < base)

/-- The number that digits stand for, the first being the highest. -/
def ofDigits (base : Nat) (digits : List Nat) : Nat :=
  digits.foldl (fun number digit => number * base + digit) 0

def digit (base : Nat) : Parser Nat :=
  Parser.found? (digitValue? base <$> Parser.satisfy fun _ => true)

/-- Further digits of a number, each after an underscore or not. -/
def moreDigits (base : Nat) : Parser (List Nat) :=
  Parser.many ((Parser.char '_' *> digit base) <|> digit base)

/-- Digits, of which the first may be zero. -/
def digits (base : Nat) : Parser (List Nat) := do
  let first ← digit base
  return first :: (← moreDigits base)

/-- The digits of a decimal integer: zero alone, or digits that start with
another. -/
def wholeDigits : Parser (List Nat) := do
  let first ← digit 10
  if first = 0 then return [0] else return first :: (← moreDigits 10)

/-- An optional sign; whether it is a minus. -/
def sign : Parser Bool :=
  (Parser.char '-' *> pure true) <|> (Parser.char '+' *> pure false) <|> pure false

/-- An integer, if it fits in 64 bits. -/
def int64? (number : Int) : Option Int64 :=
  if Int64.minValue.toInt ≤ number ∧ number ≤ Int64.maxValue.toInt then
    some (Int64.ofInt number)
  else
    none

/-- An integer behind the mark of its base. -/
def basedInteger : Parser Int64 := do
  let base ← (Parser.word ['0', 'x'] *> pure 16) <|> (Parser.word ['0', 'o'] *> pure 8) <|>
    (Parser.word ['0', 'b'] *> pure 2)
  Parser.found? (int64? <$> Int.ofNat <$> ofDigits base <$> digits base)

/-- An integer in base ten. -/
def decimalInteger : Parser Int64 := do
  let negative ← sign
  let number := Int.ofNat (ofDigits 10 (← wholeDigits))
  Parser.found? (pure (int64? (if negative then -number else number)))

def integer : Parser Int64 :=
  basedInteger <|> decimalInteger

/-- The least number that is nearer to the power of two behind the greatest
binary64 number than to that number. -/
def binary64Bound : Nat :=
  (1 <<< 1024) - (1 <<< 970)

def powerOfTen (exponent : Nat) : Nat :=
  ofDigits 10 (1 :: List.replicate exponent 0)

/-- Whether digits times a power of ten are too large for binary64.  The number
of digits decides first, so that only powers of moderate size are computed. -/
def exceedsBinary64 (digits : List Nat) (exponent : Int) : Bool :=
  let digits := digits.dropWhile (· == 0)
  let magnitude := exponent + digits.length
  let number := ofDigits 10 digits
  !digits.isEmpty && (magnitude > 309 ||
    (magnitude = 309 &&
      if 0 ≤ exponent then binary64Bound ≤ number * powerOfTen exponent.toNat
      else binary64Bound * powerOfTen (-exponent).toNat ≤ number))

/-- The digits of a fraction, behind a point. -/
def fraction : Parser (List Nat) :=
  Parser.char '.' *> digits 10

def exponent : Parser Int := do
  Parser.char 'e' <|> Parser.char 'E'
  let negative ← sign
  let number := Int.ofNat (ofDigits 10 (← digits 10))
  return if negative then -number else number

/-- A fraction, an exponent or both. -/
def fractionAndExponent : Parser (List Nat × Int) :=
  (do return ([], ← exponent)) <|>
  (do return (← fraction, (← optional exponent).getD 0))

/-- A floating-point number with digits. -/
def finiteFloat : Parser Decimal := do
  let negative ← sign
  let whole ← wholeDigits
  let (fraction, exponent) ← fractionAndExponent
  let digits := whole ++ fraction
  let exponent := exponent - fraction.length
  if exceedsBinary64 digits exponent then
    guard negative
    return .infinite true
  return .finite negative (ofDigits 10 digits) exponent

/-- A floating-point number without digits. -/
def specialFloat : Parser Decimal := do
  let negative ← sign
  (Parser.word ['i', 'n', 'f'] *> pure (.infinite negative)) <|>
    (Parser.word ['n', 'a', 'n'] *> pure .undefined)

def float : Parser Decimal :=
  finiteFloat <|> specialFloat

end ClassStub.Toml
