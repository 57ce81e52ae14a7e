import ClassStub.Api.ByteSource
import ClassStub.Unicode.Number

/-!
# Configurations

A configuration lists the allowed packages and tells whether exposed types are
checked.  A package name is a sequence of identifiers with dots between
(`Configuration.validate`).  How a configuration is spelled in its file is a matter of
a format, of which no more is known than what it reads and what it writes
(`ConfigurationFormat`).  Reading a configuration in some format refuses other names
than those of packages and drops repeated ones (`ConfigurationFormat.read`).  Files
themselves are left out: reading is given a text or the reason why there is none, and
writing gives a text.
-/

namespace ClassStub

/-- What the generator is told. -/
structure Configuration where
  allowedPackages : List String := []
  validateExposedTypes : Bool := false
  deriving DecidableEq

/-- Why a configuration is refused. -/
inductive ConfigurationError where
  /-- There is no text to read. -/
  | unreadable (reason : String)
  /-- A text stands for no configuration. -/
  | malformed
  /-- There is no text to write. -/
  | unwritable (reason : String)
  | emptyPackage
  | badPackage (name : String)
  deriving DecidableEq

/-- What is said of a refused configuration.  Of a malformed text the format has more
to say. -/
def ConfigurationError.message : ConfigurationError → String
  | unreadable reason => s!"Failed to read configuration file: {reason}"
  | malformed => "Failed to parse configuration"
  | unwritable reason => s!"Invalid configuration: {reason}"
  | emptyPackage => "Invalid configuration: Allowed package name cannot be empty"
  | badPackage name => s!"Invalid configuration: Invalid package name: {name}. " ++
      "Must be dot-separated Java identifiers (e.g., com.acme.api)"

/-! ## Package names -/

/-- Whether a character may start an identifier. -/
def isIdentifierStart (char : Char) : Bool :=
  Unicode.isAlphabetic char || char == '_' || char == '$'

/-- Whether a character may stand behind the first of an identifier. -/
def isIdentifierPart (char : Char) : Bool :=
  Unicode.isAlphanumeric char || char == '_' || char == '$'

/-- Whether characters form an identifier. -/
def isIdentifier : List Char → Bool
  | [] => false
  | first :: rest => isIdentifierStart first && rest.all isIdentifierPart

/-- Whether characters form identifiers with dots between. -/
def isPackageName (chars : List Char) : Bool :=
  (chars.splitOn '.').all isIdentifier

namespace Configuration

/-- The first fault of a package name. -/
def packageError? (name : String) : Option ConfigurationError :=
  if name.isEmpty then some .emptyPackage
  else if isPackageName name.toList then none
  else some (.badPackage name)

/-- Refuses a configuration with a faulty package name, for the first of them. -/
def validate (configuration : Configuration) : Except ConfigurationError Unit :=
  match configuration.allowedPackages.findSome? packageError? with
  | some cause => .error cause
  | none => .ok ()

/-- The rules that a configuration sets. -/
def rules (configuration : Configuration) : ApiRules :=
  .ofPackages configuration.allowedPackages configuration.validateExposedTypes

end Configuration

/-! ## Files -/

/-- A way to spell configurations. -/
structure ConfigurationFormat where
  /-- The configuration that a text stands for, if it stands for one. -/
  parse? : String → Option Configuration
  /-- The text of a configuration, or the reason why it has none. -/
  render : Configuration → Except String String

namespace ConfigurationFormat

/-- Parsing undoes rendering: every configuration has a text, which stands for it. -/
structure Lawful (format : ConfigurationFormat) : Prop where
  undone (configuration : Configuration) :
    ∃ text, format.render configuration = .ok text ∧ format.parse? text = some configuration

/-- Reads a configuration.  Of a package that is listed again the first place is
kept. -/
def read (format : ConfigurationFormat) (text : String) :
    Except ConfigurationError Configuration :=
  match format.parse? text with
  | none => throw .malformed
  | some configuration => do
    configuration.validate
    return { configuration with allowedPackages := configuration.allowedPackages.eraseDups }

/-- Reads a configuration from a file, of which the text is known, or the reason
why it cannot be read. -/
def load (format : ConfigurationFormat) (file : Except String String) :
    Except ConfigurationError Configuration := do
  format.read (← file.mapError .unreadable)

/-- The text that is written to the file of a configuration. -/
def save (format : ConfigurationFormat) (configuration : Configuration) :
    Except ConfigurationError String :=
  (format.render configuration).mapError .unwritable

/-- Writes a configuration to a file and reads it from there. -/
def reread (format : ConfigurationFormat) (configuration : Configuration) :
    Except ConfigurationError Configuration := do
  format.load (.ok (← format.save configuration))

end ConfigurationFormat

end ClassStub
