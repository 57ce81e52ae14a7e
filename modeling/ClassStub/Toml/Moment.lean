import ClassStub.Toml.Number

/-!
# Dates and times in TOML

A moment is a date, a time of day, or both with `T`, `t` or a space between; with
both it may tell the offset from universal time.  Every part has its number of
digits and its range, and the day exists in its month.
-/

namespace ClassStub.Toml

structure Date where
  year : Nat
  month : Nat
  day : Nat
  deriving DecidableEq

structure TimeOfDay where
  hour : Nat
  minute : Nat
  second : Nat
  nanosecond : Nat
  deriving DecidableEq

/-- A date, a time of day, or both with an optional offset in minutes. -/
inductive Moment where
  | date (date : Date)
  | time (time : TimeOfDay)
  | both (date : Date) (time : TimeOfDay) (offset : Option Int)
  deriving DecidableEq

/-- Whether a year has a leap day. -/
def isLeapYear (year : Nat) : Bool :=
  year % 4 = 0 && (year % 100 ≠ 0 || year % 400 = 0)

/-- The number of days of a month. -/
def daysInMonth (year month : Nat) : Nat :=
  if month = 2 then if isLeapYear year then 29 else 28
  else if month = 4 ∨ month = 6 ∨ month = 9 ∨ month = 11 then 30
  else 31

/-- A number with the given count of digits, between two limits. -/
def numberOf (count low high : Nat) : Parser Nat := do
  let number := ofDigits 10 (← Parser.times (digit 10) count)
  guard (low ≤ number ∧ number ≤ high)
  return number

def date : Parser Date := do
  let year ← numberOf 4 0 9999
  Parser.char '-'
  let month ← numberOf 2 1 12
  Parser.char '-'
  let day ← numberOf 2 1 (daysInMonth year month)
  return { year, month, day }

/-- A fraction of a second in nanoseconds; further digits are dropped. -/
def secondFraction : Parser Nat := do
  Parser.char '.'
  let first ← digit 10
  let more ← Parser.many (digit 10)
  return ofDigits 10 (((first :: more) ++ List.replicate 9 0).take 9)

/-- A time of day.  Its last minute may have a leap second. -/
def timeOfDay : Parser TimeOfDay := do
  let hour ← numberOf 2 0 23
  Parser.char ':'
  let minute ← numberOf 2 0 59
  Parser.char ':'
  let second ← numberOf 2 0 60
  let nanosecond := (← optional secondFraction).getD 0
  return { hour, minute, second, nanosecond }

/-- An offset from universal time in minutes. -/
def offset : Parser Int :=
  ((Parser.char 'Z' <|> Parser.char 'z') *> pure 0) <|> do
    let negative ← (Parser.char '-' *> pure true) <|> (Parser.char '+' *> pure false)
    let hour ← numberOf 2 0 23
    Parser.char ':'
    let minute ← numberOf 2 0 59
    let minutes := Int.ofNat (60 * hour + minute)
    return if negative then -minutes else minutes

/-- A time of day behind a date, with its offset. -/
def laterTime : Parser (TimeOfDay × Option Int) := do
  Parser.char 'T' <|> Parser.char 't' <|> Parser.char ' '
  let time ← timeOfDay
  return (time, ← optional offset)

def moment : Parser Moment :=
  (do
    let date ← date
    match ← optional laterTime with
    | some (time, offset) => return .both date time offset
    | none => return .date date) <|>
  (Moment.time <$> timeOfDay)

end ClassStub.Toml
