import ClassStub.Proofs.Order.FirstOccurrences
import ClassStub.Proofs.Toml.Rendering

/-!
# Configurations that are written and read

In a format in which parsing undoes rendering (`ConfigurationFormat.Lawful`), a
configuration that is written to a file and read again is refused for the first of its
packages that is no sequence of identifiers with dots between (`SpellsPackage`), and
else it comes back with each package once, where it was listed first.  Reading settles
a configuration, so writing it once more changes nothing, and the generator is told
the same in any case (`ConfigurationFormat.roundTrips`).
-/

namespace ClassStub

/-! ## Package names -/

/-- Characters that form an identifier. -/
def SpellsIdentifier (chars : List Char) : Prop :=
  ∃ first rest, chars = first :: rest ∧
    (Unicode.isAlphabetic first ∨ first = '_' ∨ first = '$') ∧
    ∀ char ∈ rest, Unicode.isAlphanumeric char ∨ char = '_' ∨ char = '$'

/-- A name that is made of identifiers, at least one, with dots between. -/
def SpellsPackage (name : String) : Prop :=
  ∃ segments : List String, segments ≠ [] ∧ name = ".".intercalate segments ∧
    ∀ segment ∈ segments, SpellsIdentifier segment.toList

/-- What the check accepts as an identifier is spelled like one. -/
theorem isIdentifier_iff (chars : List Char) : isIdentifier chars ↔ SpellsIdentifier chars := by
  cases chars with
  | nil => simp [isIdentifier, SpellsIdentifier]
  | cons first rest =>
    simp [isIdentifier, isIdentifierStart, isIdentifierPart, SpellsIdentifier, or_assoc]

/-- Identifiers hold no dot. -/
theorem SpellsIdentifier.dotless {chars : List Char} (hchars : SpellsIdentifier chars) :
    '.' ∉ chars := by
  have hstart : ¬(Unicode.isAlphabetic '.' ∨ '.' = '_' ∨ '.' = '$') := by decide +kernel
  have hpart : ¬(Unicode.isAlphanumeric '.' ∨ '.' = '_' ∨ '.' = '$') := by decide +kernel
  obtain ⟨first, rest, rfl, hfirst, hrest⟩ := hchars
  intro hdot
  obtain rfl | hmem := List.mem_cons.1 hdot
  · exact hstart hfirst
  · exact hpart (hrest '.' hmem)

/-- What the check accepts as a package is spelled like one. -/
theorem isPackageName_iff (name : String) : isPackageName name.toList ↔ SpellsPackage name := by
  rw [isPackageName, List.all_eq_true]
  simp only [isIdentifier_iff]
  constructor
  · intro hsegments
    refine ⟨(name.toList.splitOn '.').map String.ofList, ?_, ?_, ?_⟩
    · simp [List.splitOn_ne_nil]
    · rw [← String.toList_inj, String.toList_intercalate, List.map_map]
      have hsame : String.toList ∘ String.ofList = id := funext fun _ => String.toList_ofList
      rw [hsame, List.map_id]
      exact (List.intercalate_splitOn '.').symm
    · intro segment hsegment
      obtain ⟨chars, hchars, rfl⟩ := List.mem_map.1 hsegment
      rw [String.toList_ofList]
      exact hsegments chars hchars
  · rintro ⟨segments, hsome, rfl, hsegments⟩
    have hdots : ∀ chars ∈ segments.map String.toList, '.' ∉ chars := by
      intro chars hchars
      obtain ⟨segment, hsegment, rfl⟩ := List.mem_map.1 hchars
      exact (hsegments segment hsegment).dotless
    have hsplit : (".".intercalate segments).toList.splitOn '.' = segments.map String.toList := by
      rw [String.toList_intercalate]
      exact List.splitOn_intercalate '.' hdots (by simpa using hsome)
    rw [hsplit]
    intro chars hchars
    obtain ⟨segment, hsegment, rfl⟩ := List.mem_map.1 hchars
    exact hsegments segment hsegment

namespace Configuration

/-! ## Validation -/

/-- A package has no error exactly if it is spelled like one. -/
theorem packageError?_eq_none_iff (name : String) :
    packageError? name = none ↔ SpellsPackage name := by
  rw [packageError?, ← isPackageName_iff]
  by_cases hempty : name = ""
  · subst hempty
    exact iff_of_false (by simp) (by decide)
  · simp [hempty]

/-- The fault of the first package that is no package name. -/
inductive FirstFault : List String → ConfigurationError → Prop
  | empty {before after : List String} (hbefore : ∀ name ∈ before, SpellsPackage name) :
      FirstFault (before ++ "" :: after) .emptyPackage
  | bad {before after : List String} {name : String}
      (hbefore : ∀ name ∈ before, SpellsPackage name) (hsome : name ≠ "")
      (hname : ¬SpellsPackage name) : FirstFault (before ++ name :: after) (.badPackage name)

variable {configuration : Configuration}

/-- A configuration is valid exactly if all of its packages are. -/
theorem validate_eq_ok_iff :
    configuration.validate = .ok () ↔
      ∀ name ∈ configuration.allowedPackages, SpellsPackage name := by
  simp only [← packageError?_eq_none_iff, ← List.findSome?_eq_none_iff]
  rw [validate]
  cases configuration.allowedPackages.findSome? packageError? <;> simp

/-- A configuration is refused for the first package that is not valid. -/
theorem firstFault_of_validate {cause : ConfigurationError}
    (hvalidate : configuration.validate = .error cause) :
    FirstFault configuration.allowedPackages cause := by
  rw [validate] at hvalidate
  split at hvalidate
  case h_2 => cases hvalidate
  case h_1 found hfound =>
    obtain rfl := Except.error.inj hvalidate
    obtain ⟨before, name, after, hpackages, hname, hbefore⟩ := List.findSome?_eq_some_iff.1 hfound
    have hspelled := fun name hmem => (packageError?_eq_none_iff name).1 (hbefore name hmem)
    rw [hpackages]
    by_cases hempty : name = ""
    · subst hempty
      obtain rfl := Option.some.inj hname
      exact .empty hspelled
    · have hbad : ¬SpellsPackage name := by
        rw [← packageError?_eq_none_iff, hname]
        exact Option.some_ne_none found
      have hcause : packageError? name = some (.badPackage name) := by
        simp [packageError?, hempty, isPackageName_iff, hbad]
      obtain rfl := Option.some.inj (hname.symm.trans hcause)
      exact .bad hspelled hempty hbad

/-- A configuration with each package once, where it is listed first. -/
def settled (configuration : Configuration) : Configuration :=
  { configuration with allowedPackages := configuration.allowedPackages.eraseDups }

theorem settled_settled (configuration : Configuration) :
    configuration.settled.settled = configuration.settled := by
  have hpackages := eraseDups_append_eraseDups [] configuration.allowedPackages
  rw [List.nil_append, List.nil_append] at hpackages
  simp only [settled, hpackages]

end Configuration

namespace ConfigurationFormat

/-! ## Reading what was written -/

variable {format : ConfigurationFormat}

/-- What was written is validated and settled when it is read. -/
theorem reread_eq (hformat : format.Lawful) (configuration : Configuration) :
    format.reread configuration =
      configuration.validate.map fun _ => configuration.settled := by
  obtain ⟨text, hrender, hparse⟩ := hformat.undone configuration
  have hsave : format.save configuration = .ok text := by
    rw [save, hrender]
    rfl
  have hload : format.load (.ok text) =
      configuration.validate.map fun _ => configuration.settled := by
    change format.read text = _
    rw [read, hparse]
    rfl
  rw [reread, hsave]
  exact hload

/-- A configuration is read back if it is valid, and settled then. -/
theorem reread_eq_ok_iff (hformat : format.Lawful) {configuration read : Configuration} :
    format.reread configuration = .ok read ↔
      (∀ name ∈ configuration.allowedPackages, SpellsPackage name) ∧
        configuration.settled = read := by
  rw [reread_eq hformat, ← Configuration.validate_eq_ok_iff]
  cases configuration.validate <;> simp [Except.map]

/-- What becomes of a configuration that is written to a file and read from it: it is
accepted or refused for its packages, and if it is accepted, each package is kept
once, where it is listed first, the rest stays, another round changes nothing, and
the generator is told the same. -/
structure RoundTrips (format : ConfigurationFormat) (configuration : Configuration) : Prop where
  accepted_iff : (∃ read, format.reread configuration = .ok read) ↔
    ∀ name ∈ configuration.allowedPackages, SpellsPackage name
  refused (cause : ConfigurationError) (hrefused : format.reread configuration = .error cause) :
    Configuration.FirstFault configuration.allowedPackages cause
  packages (read : Configuration) (hread : format.reread configuration = .ok read) :
    FirstOccurrences configuration.allowedPackages read.allowedPackages
  checks_eq (read : Configuration) (hread : format.reread configuration = .ok read) :
    read.validateExposedTypes = configuration.validateExposedTypes
  stable (read : Configuration) (hread : format.reread configuration = .ok read) :
    format.reread read = .ok read
  rules_eq (read : Configuration) (hread : format.reread configuration = .ok read) :
    read.rules = configuration.rules

/-- **Configurations come back.** Written to a file and read again, a configuration
with package names only is settled for good. -/
theorem roundTrips (hformat : format.Lawful) (configuration : Configuration) :
    format.RoundTrips configuration where
  accepted_iff := by
    simp only [reread_eq_ok_iff hformat]
    exact ⟨fun ⟨_, hnames, _⟩ => hnames, fun hnames => ⟨_, hnames, rfl⟩⟩
  refused cause hrefused := by
    rw [reread_eq hformat] at hrefused
    refine Configuration.firstFault_of_validate ?_
    cases hvalidate : configuration.validate with
    | ok => simp [hvalidate, Except.map] at hrefused
    | error found => simpa [hvalidate, Except.map] using hrefused
  packages read hread := by
    obtain ⟨-, rfl⟩ := (reread_eq_ok_iff hformat).1 hread
    exact firstOccurrences_eraseDups configuration.allowedPackages
  checks_eq read hread := by
    obtain ⟨-, rfl⟩ := (reread_eq_ok_iff hformat).1 hread
    rfl
  stable read hread := by
    obtain ⟨hnames, rfl⟩ := (reread_eq_ok_iff hformat).1 hread
    refine (reread_eq_ok_iff hformat).2 ⟨fun name hname => ?_, configuration.settled_settled⟩
    exact hnames name (List.mem_eraseDups.1 hname)
  rules_eq read hread := by
    obtain ⟨-, rfl⟩ := (reread_eq_ok_iff hformat).1 hread
    have hpackages := congrArg Configuration.allowedPackages configuration.settled_settled
    exact congrArg (fun packages => ApiRules.mk (.mk packages) configuration.validateExposedTypes)
      hpackages

/-- Two packages, one of which is listed again. -/
def sampleRelisted : Configuration where
  allowedPackages := ["b.x", "é.$1", "b.x"]
  validateExposedTypes := true

/-- In TOML the sample comes back with two packages, the first one first. -/
theorem roundTrips_sampleRelisted :
    toml.Lawful ∧ toml.reread sampleRelisted =
      .ok { allowedPackages := ["b.x", "é.$1"], validateExposedTypes := true } := by
  have hreturn := roundTrips toml_lawful sampleRelisted
  have hnames : ∀ name ∈ sampleRelisted.allowedPackages, SpellsPackage name := by
    simp only [← isPackageName_iff]
    decide +kernel
  have honce : sampleRelisted.allowedPackages.eraseDups = ["b.x", "é.$1"] := by
    decide +kernel
  obtain ⟨⟨packages, checks⟩, hread⟩ := hreturn.accepted_iff.2 hnames
  have hpackages : packages = ["b.x", "é.$1"] :=
    (hreturn.packages _ hread).eq_eraseDups.trans honce
  have hchecks : checks = true := hreturn.checks_eq _ hread
  rw [hpackages, hchecks] at hread
  exact ⟨toml_lawful, hread⟩

end ConfigurationFormat

end ClassStub
