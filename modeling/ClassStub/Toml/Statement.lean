import ClassStub.Toml.Text
import ClassStub.Toml.Value

/-!
# TOML statements

A document is a sequence of lines, each with at most one statement: an entry, the
header of a table or the header of an element of an array of tables.  Reading a
text gives its statements (`Toml.statements`).
-/

namespace ClassStub.Toml

/-- A key, perhaps with the keys of tables in front of it. -/
structure DottedKey where
  path : List String
  key : String
  deriving DecidableEq

/-- A line of a document. -/
inductive Statement where
  | entry (name : DottedKey) (value : Value)
  | table (name : DottedKey)
  | element (name : DottedKey)

/-- How deep arrays and tables in braces may lie in each other, and how many keys
a dotted key may have. -/
def nestingLimit : Nat := 79

/-! ## Blanks and keys -/

/-- A comment, up to the end of its line. -/
def comment : Parser Unit := do
  Parser.char '#'
  let _ ← Parser.takeWhile isPlain

/-- White space, line breaks and comments between the items of an array. -/
def filler : Parser Unit := do
  let _ ← Parser.many ((do let _ ← Parser.satisfy isBlank) <|> newline <|> comment)

/-- Characters of keys without quotes. -/
def isBareKeyChar (char : Char) : Bool :=
  char.isAlphanum || char == '_' || char == '-'

/-- A key without quotes. -/
def bareKey : Parser (List Char) := do
  let first ← Parser.satisfy isBareKeyChar
  return first :: (← Parser.takeWhile isBareKeyChar)

/-- A key without dots. -/
def simpleKey : Parser String :=
  String.ofList <$> (basicString <|> literalString <|> bareKey)

/-- A dotted key, with blanks around its parts. -/
def dottedKey : Parser DottedKey := do
  let keys ← Parser.separated (Parser.char '.') (blanks *> simpleKey <* blanks)
  guard (keys.length ≤ nestingLimit)
  match keys.getLast? with
  | some key => return { path := keys.dropLast, key }
  | none => failure

/-! ## Values -/

def boolean : Parser Bool :=
  (Parser.word ['t', 'r', 'u', 'e'] *> pure true) <|>
    (Parser.word ['f', 'a', 'l', 's', 'e'] *> pure false)

/-- A value without parts. -/
def scalar : Parser Value :=
  Value.string <$> string <|> Value.moment <$> moment <|> Value.float <$> float <|>
    Value.integer <$> integer <|> Value.boolean <$> boolean

def array (item : Parser Value) : Parser Value := do
  Parser.char '['
  let items ← (Parser.separated (Parser.char ',') (filler *> item <* filler) <*
    optional (Parser.char ',')) <|> pure []
  filler
  Parser.char ']'
  return .array items

def keyValue (item : Parser Value) : Parser (DottedKey × Value) := do
  let name ← dottedKey
  Parser.char '='
  blanks
  return (name, ← item)

/-- The entries of a table in braces, put together. -/
def inlineEntries? (entries : List (DottedKey × Value)) : Option Table :=
  entries.foldlM (fun table entry =>
    Table.define entry.1.path entry.1.key entry.2 .headed table) []

def inlineTable (item : Parser Value) : Parser Value := do
  Parser.char '{'
  let entries ← Parser.separated (Parser.char ',') (keyValue item <* blanks) <|> pure []
  blanks
  Parser.char '}'
  return .table .closed (← inlineEntries? entries)

/-- A value with arrays and tables up to the given depth. -/
def value : Nat → Parser Value
  | 0 => scalar
  | depth + 1 => scalar <|> array (value depth) <|> inlineTable (value depth)

/-! ## Lines -/

def statement : Parser Statement :=
  (do
    Parser.word ['[', '[']
    let name ← dottedKey
    Parser.word [']', ']']
    return .element name) <|>
  (do
    Parser.char '['
    let name ← dottedKey
    Parser.char ']'
    return .table name) <|>
  (do
    let (name, value) ← keyValue (value nestingLimit)
    return .entry name value)

/-- A line with its end. -/
def line : Parser (Option Statement) := do
  guard !(← get).isEmpty
  blanks
  let statement ← optional statement
  blanks
  let _ ← optional comment
  newline <|> Parser.atEnd
  return statement

/-- All lines of a document, which may start with a byte order mark. -/
def lines : Parser (List (Option Statement)) := do
  let _ ← optional (Parser.char '\uFEFF')
  let lines ← Parser.many line
  Parser.atEnd
  return lines

def statements (text : List Char) : Option (List Statement) :=
  (lines.run text).map fun result => result.1.filterMap id

end ClassStub.Toml
