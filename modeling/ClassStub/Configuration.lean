import ClassStub.Configuration.Format
import ClassStub.Toml.Document

/-!
# Configurations in TOML

The file of a configuration is a TOML document with a table `api`.  What other tables
and entries it holds does not matter (`Configuration.ofTable?`).  Written files have
the two entries of the table on a line each, but a list of several packages takes a
line for each of them (`Configuration.render`).
-/

namespace ClassStub

namespace Configuration

/-! ## Reading -/

/-- The texts of an array of strings. -/
def strings? : Toml.Value → Option (List String)
  | .array items => items.mapM fun
    | .string text => some text
    | _ => none
  | _ => none

/-- The truth that a value stands for. -/
def boolean? : Toml.Value → Option Bool
  | .boolean truth => some truth
  | _ => none

/-- The configuration with the given parts; a missing one has its default. -/
def ofParts? (packages validates : Option Toml.Value) : Option Configuration := do
  let allowedPackages ← (packages.map strings?).getD (some [])
  let validateExposedTypes ← (validates.map boolean?).getD (some false)
  return { allowedPackages, validateExposedTypes }

/-- The configuration that a value stands for: a table with named parts or an
array with the parts in order.  A moment has no parts. -/
def ofValue? : Toml.Value → Option Configuration
  | .table _ entries =>
    ofParts? (entries.lookup "allowed-packages") (entries.lookup "validate-exposed-types")
  | .array items => ofParts? items[0]? items[1]?
  | .moment _ => some {}
  | _ => none

/-- The configuration of a document.  Other tables than `api` do not matter. -/
def ofTable? (table : Toml.Table) : Option Configuration :=
  match table.lookup "api" with
  | some value => ofValue? value
  | none => some {}

/-! ## Writing -/

/-- The characters of a list of strings: several get a line each. -/
def listChars : List String → List Char
  | [] => ['[', ']']
  | [text] => ['['] ++ Toml.quoted text.toList ++ [']']
  | texts =>
    ['[', '\n'] ++
      (texts.flatMap fun text => "    ".toList ++ Toml.quoted text.toList ++ [',', '\n']) ++ [']']

/-- The text of the file of a configuration. -/
def render (configuration : Configuration) : String :=
  String.ofList ("[api]\nallowed-packages = ".toList ++ listChars configuration.allowedPackages ++
    "\nvalidate-exposed-types = ".toList ++
    (if configuration.validateExposedTypes then "true" else "false").toList ++ ['\n'])

end Configuration

/-- The format of configuration files. -/
def ConfigurationFormat.toml : ConfigurationFormat where
  parse? text := (Toml.parse? text).bind Configuration.ofTable?
  render configuration := .ok configuration.render

namespace Configuration

/-- Reads a configuration in TOML. -/
def parse (text : String) : Except ConfigurationError Configuration :=
  ConfigurationFormat.toml.read text

/-- Reads a configuration from a file in TOML. -/
def load (file : Except String String) : Except ConfigurationError Configuration :=
  ConfigurationFormat.toml.load file

end Configuration

end ClassStub
