/-!
# Parsers of characters

A parser takes a beginning of the characters that are left and yields a value,
or it fails and takes nothing.  Where several ways to read are tried, the first
one that succeeds counts.
-/

namespace ClassStub

/-- Reads a value from the start of the characters that are left. -/
abbrev Parser := StateT (List Char) Option

namespace Parser

variable {α β : Type}

/-- The next character, if it is accepted. -/
def satisfy (accepts : Char → Bool) : Parser Char
  | [] => none
  | char :: rest => if accepts char then some (char, rest) else none

/-- The given character. -/
def char (expected : Char) : Parser Unit := do
  let _ ← satisfy (· == expected)

/-- The given characters, one after the other. -/
def word : List Char → Parser Unit
  | [] => pure ()
  | expected :: more => do
    char expected
    word more

/-- All accepted characters up to the first that is not. -/
def takeWhile (accepts : Char → Bool) : Parser (List Char) := fun input =>
  some (input.takeWhile accepts, input.dropWhile accepts)

/-- Nothing, at the end of the characters. -/
def atEnd : Parser Unit := do
  guard (← get).isEmpty

/-- As many items as there are, at most the given number. -/
def upTo (item : Parser α) : Nat → Parser (List α)
  | 0 => pure []
  | limit + 1 => (do
      let first ← item
      let more ← upTo item limit
      return first :: more) <|> pure []

/-- As many items as there are; each takes at least one character. -/
def many (item : Parser α) : Parser (List α) := do
  upTo item (← get).length

/-- The given number of items. -/
def times (item : Parser α) : Nat → Parser (List α)
  | 0 => pure []
  | count + 1 => do
    let first ← item
    let more ← times item count
    return first :: more

/-- At least one item, with a separator between each two. -/
def separated (separator : Parser β) (item : Parser α) : Parser (List α) := do
  let first ← item
  let more ← many (separator *> item)
  return first :: more

/-- The value of an item if it has one. -/
def found? (item : Parser (Option α)) : Parser α := do
  match ← item with
  | some value => return value
  | none => failure

theorem satisfy_cons {accepts : Char → Bool} {first : Char} (h : accepts first)
    (rest : List Char) : satisfy accepts (first :: rest) = some (first, rest) := by
  simp [satisfy, h]

@[simp] theorem char_cons (expected : Char) (rest : List Char) :
    char expected (expected :: rest) = some ((), rest) := by
  change ((satisfy (· == expected) (expected :: rest)).bind fun result => some ((), result.2)) = _
  rw [satisfy_cons (by simp)]
  rfl

@[simp] theorem word_append (expected rest : List Char) :
    word expected (expected ++ rest) = some ((), rest) := by
  induction expected with
  | nil => rfl
  | cons first more ih =>
    change ((char first (first :: (more ++ rest))).bind fun result => word more result.2) = _
    rw [char_cons]
    exact ih

end Parser

end ClassStub
