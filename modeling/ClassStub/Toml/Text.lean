import ClassStub.Text.Parser
import ClassStub.Toml.Number

/-!
# Strings in TOML

A string is **basic**, between double quotes, where a backslash starts an escape,
or **literal**, between single quotes, where every character stands for itself.
Either may be **long**, between three quotes: it may contain line breaks and up
to two quotes in a row, and a line break right at its start is dropped.

Writing (`Toml.quoted`) prefers the plainest form: basic without escapes, literal,
long basic without escapes, long literal, and with escapes if nothing else will
do.
-/

namespace ClassStub.Toml

/-! ## Characters -/

/-- Spaces and tabs. -/
def isBlank (char : Char) : Bool :=
  char == ' ' || char == '\t'

/-- Characters that need no escape: all but the control characters, and the
tab. -/
def isPlain (char : Char) : Bool :=
  char == '\t' || (' ' ≤ char && char != '\x7f')

/-- Characters that stand for themselves in a basic string. -/
def isBasic (char : Char) : Bool :=
  isPlain char && char != '"' && char != '\\'

/-- Characters that may stand in a literal string. -/
def isLiteral (char : Char) : Bool :=
  isPlain char && char != '\''

def newline : Parser Unit :=
  Parser.char '\n' <|> Parser.word ['\r', '\n']

/-- Spaces and tabs, or none. -/
def blanks : Parser Unit := do
  let _ ← Parser.takeWhile isBlank

/-! ## Reading -/

/-- The character with the code that hexadecimal digits give. -/
def codedChar (count : Nat) : Parser Char := do
  let code := ofDigits 16 (← Parser.times (digit 16) count)
  guard code.isValidChar
  return Char.ofNat code

/-- What a character behind a backslash stands for. -/
def escapedChar : Char → Parser Char
  | 'b' => pure '\x08'
  | 't' => pure '\t'
  | 'n' => pure '\n'
  | 'f' => pure '\x0c'
  | 'r' => pure '\r'
  | '"' => pure '"'
  | '\\' => pure '\\'
  | 'u' => codedChar 4
  | 'U' => codedChar 8
  | _ => failure

def escape : Parser Char := do
  Parser.char '\\'
  let marker ← Parser.satisfy fun _ => true
  escapedChar marker

/-- A basic string on one line. -/
def basicString : Parser (List Char) := do
  Parser.char '"'
  let text ← Parser.many (Parser.satisfy isBasic <|> escape)
  Parser.char '"'
  return text

/-- A literal string on one line. -/
def literalString : Parser (List Char) := do
  Parser.char '\''
  let text ← Parser.takeWhile isLiteral
  Parser.char '\''
  return text

/-- Quotes, all there are in a row. -/
def quotes (quote : Char) : Parser Nat :=
  List.length <$> Parser.takeWhile (· == quote)

/-- One or two quotes inside a long string. -/
def innerQuotes (quote : Char) : Parser (List Char) := do
  let count ← quotes quote
  guard (1 ≤ count ∧ count ≤ 2)
  return List.replicate count quote

/-- The end of a long string: three quotes, behind up to two that belong to the
string. -/
def closingQuotes (quote : Char) : Parser (List Char) := do
  let count ← quotes quote
  guard (3 ≤ count ∧ count ≤ 5)
  return List.replicate (count - 3) quote

/-- A backslash at the end of a line, which takes the white space up to the next
character with it. -/
def continuation : Parser Unit := do
  Parser.char '\\'
  blanks
  newline
  let _ ← Parser.many ((do let _ ← Parser.satisfy isBlank) <|> newline)

/-- A long string of pieces. -/
def longString (quote : Char) (piece : Parser (List Char)) : Parser (List Char) := do
  Parser.word [quote, quote, quote]
  let _ ← optional newline
  let pieces ← Parser.many (piece <|> (newline *> pure ['\n']) <|> innerQuotes quote)
  let last ← closingQuotes quote
  return pieces.flatten ++ last

def longBasicString : Parser (List Char) :=
  longString '"' (List.singleton <$> Parser.satisfy isBasic <|>
    (continuation *> pure []) <|> List.singleton <$> escape)

def longLiteralString : Parser (List Char) :=
  longString '\'' (List.singleton <$> Parser.satisfy isLiteral)

def string : Parser String :=
  String.ofList <$> (longBasicString <|> basicString <|> longLiteralString <|> literalString)

/-! ## Writing -/

/-- The length of the longest run of a character, if a run of the given length
comes right before the text. -/
def longestRun (char : Char) : Nat → List Char → Nat
  | before, [] => before
  | before, first :: rest =>
    if first = char then longestRun char (before + 1) rest
    else max before (longestRun char 0 rest)

/-- The hexadecimal digit of a number below sixteen. -/
def hexDigit (number : Nat) : Char :=
  Char.ofNat (if number < 10 then '0'.toNat + number else 'A'.toNat + (number - 10))

/-- The escape of a character in a basic string, or the character itself. -/
def escaped (char : Char) : List Char :=
  match char with
  | '\x08' => ['\\', 'b']
  | '\t' => ['\\', 't']
  | '\n' => ['\\', 'n']
  | '\x0c' => ['\\', 'f']
  | '\r' => ['\\', 'r']
  | '\\' => ['\\', '\\']
  | char =>
    if isPlain char then [char]
    else ['\\', 'u', '0', '0', hexDigit (char.toNat / 16), hexDigit (char.toNat % 16)]

/-- The characters of a basic string.  If it is long, line breaks and up to two
quotes in a row stand for themselves; so many of the latter were just written. -/
def basicBody (long : Bool) : Nat → List Char → List Char
  | _, [] => []
  | before, char :: rest =>
    if char = '"' then
      if long && before < 2 then '"' :: basicBody long (before + 1) rest
      else '\\' :: '"' :: basicBody long 0 rest
    else if long && char = '\n' then '\n' :: basicBody long 0 rest
    else escaped char ++ basicBody long 0 rest

/-- The forms of strings. -/
inductive Quoting where
  | basic
  | literal
  | longBasic
  | longLiteral
  deriving DecidableEq

/-- The plainest form for a text. -/
def Quoting.ofText (text : List Char) : Quoting :=
  let controls := text.any fun char => !isPlain char && char != '\n'
  let backslash := text.contains '\\'
  let lines := text.contains '\n'
  let single := longestRun '\'' 0 text
  let double := longestRun '"' 0 text
  if !controls && !backslash && double = 0 && !lines then .basic
  else if !controls && single = 0 && !lines then .literal
  else if !controls && !backslash && double ≤ 2 then .longBasic
  else if !controls && single ≤ 2 then .longLiteral
  else if lines then .longBasic
  else .basic

/-- The quotes of a long string around its characters, which start on a line of
their own if there are several lines. -/
def longQuoted (quote : Char) (lines : Bool) (body : List Char) : List Char :=
  [quote, quote, quote] ++ (if lines then ['\n'] else []) ++ body ++ [quote, quote, quote]

/-- A text as a string of the plainest form. -/
def quoted (text : List Char) : List Char :=
  match Quoting.ofText text with
  | .basic => ['"'] ++ basicBody false 0 text ++ ['"']
  | .literal => ['\''] ++ text ++ ['\'']
  | .longBasic => longQuoted '"' (text.contains '\n') (basicBody true 0 text)
  | .longLiteral => longQuoted '\'' (text.contains '\n') text

end ClassStub.Toml
