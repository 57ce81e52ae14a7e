import ClassStub.Proofs.Stub.Monotonicity

/-!
# Which classes belong to the API

A class is classified by its header: by the package of its name
(`ClassName.IsPackage`), by its visibility, and by whether its name is that of a
local or anonymous class (`ClassName.IsLocal`).  The last is a matter of some way
to split the name, of which there may be many; the name is searched once from
left to right (`isLocalName_iff`).  A class belongs to the API exactly under the
three conditions (`ApiRules.includesClass_iff_inApi`), and no name that goes on
from a local one does.
-/

namespace ClassStub

namespace ClassName

/-! ## Packages -/

/-- What stands before the last dot of a name in dotted form, nothing if there is
no dot. -/
def IsPackage (package binary : String) : Prop :=
  (∃ simple, binary.toList = package.toList ++ '.' :: simple ∧ '.' ∉ simple) ∨
    (package = "" ∧ '.' ∉ binary.toList)

/-- The package of a dotted name is what is before its last dot. -/
theorem isPackage_iff {package binary : String} :
    IsPackage package binary ↔ packageName binary = package := by
  constructor
  · rintro (⟨simple, hname, hsimple⟩ | ⟨rfl, hname⟩)
    · rw [packageName, hname, beforeLastDot_append _ _ hsimple, String.ofList_toList]
    · rw [packageName, beforeLastDot_eq_nil hname]
  · rintro rfl
    by_cases hdot : '.' ∈ binary.toList
    · -- The last dot is the first one from behind.
      obtain ⟨after, before, hsplit, hafter⟩ :=
        List.eq_append_cons_of_mem (List.mem_reverse.2 hdot)
      have hname : binary.toList = before.reverse ++ '.' :: after.reverse := by
        rw [← List.reverse_reverse binary.toList, hsplit]
        simp
      have hsimple : '.' ∉ after.reverse := fun hmem => hafter (List.mem_reverse.1 hmem)
      refine Or.inl ⟨after.reverse, ?_, hsimple⟩
      rw [packageName, String.toList_ofList, hname, beforeLastDot_append _ _ hsimple]
    · exact Or.inr ⟨by rw [packageName, beforeLastDot_eq_nil hdot], hdot⟩

/-! ## Local and anonymous classes -/

/-- A name split into that of an enclosing class, which is not empty and holds no
line break, a dollar sign, a number and perhaps a name of its own. -/
structure LocalParts (name : String) (enclosing number own : List Char) : Prop where
  name_eq : name.toList = enclosing ++ '$' :: (number ++ own)
  enclosing_nonempty : enclosing ≠ []
  enclosing_unbroken : '\n' ∉ enclosing
  number_nonempty : number ≠ []
  number_digits : ∀ char ∈ number, char.isDigit
  own_chars : ∀ char ∈ own, char.isAlphanum ∨ char = '_' ∨ char = '$'

/-- The name of a local or anonymous class. -/
def IsLocal (name : String) : Prop :=
  ∃ enclosing number own, LocalParts name enclosing number own

/-- A local name stays local whatever comes behind its own name. -/
theorem IsLocal.append {name suffix : String} (hname : IsLocal name)
    (hsuffix : ∀ char ∈ suffix.toList, char.isAlphanum ∨ char = '_' ∨ char = '$') :
    IsLocal (name ++ suffix) := by
  obtain ⟨enclosing, number, own, hparts⟩ := hname
  refine ⟨enclosing, number, own ++ suffix.toList, { hparts with name_eq := ?_, own_chars := ?_ }⟩
  · simp [hparts.name_eq]
  · intro char hchar
    exact (List.mem_append.1 hchar).elim (hparts.own_chars char) (hsuffix char)

end ClassName

theorem isAsciiDigit_eq (char : Char) : isAsciiDigit char = char.isDigit := rfl

/-- A local name has letters and digits of ASCII, underscores and dollars. -/
theorem isLocalNameChar_iff (char : Char) :
    isLocalNameChar char ↔ char.isAlphanum ∨ char = '_' ∨ char = '$' := by
  simp only [isLocalNameChar, isAsciiDigit_eq, Char.isAlphanum, Char.isAlpha, Char.isUpper,
    Char.isLower, Bool.or_eq_true, Bool.and_eq_true, decide_eq_true_eq, Char.le_def]
  tauto

/-- A local name goes on behind a number. -/
theorem isLocalSuffix_iff (chars : List Char) :
    isLocalSuffix chars ↔
      ∃ number own, chars = number ++ own ∧ number ≠ [] ∧ (∀ char ∈ number, char.isDigit) ∧
        ∀ char ∈ own, char.isAlphanum ∨ char = '_' ∨ char = '$' := by
  simp only [isLocalSuffix, Bool.and_eq_true, List.all_eq_true, isLocalNameChar_iff]
  constructor
  · rintro ⟨hdigit, hchars⟩
    cases chars with
    | nil => cases hdigit
    | cons digit own =>
      refine ⟨[digit], own, rfl, List.cons_ne_nil _ _, ?_, fun char hchar =>
        hchars char (List.mem_cons_of_mem digit hchar)⟩
      exact List.forall_mem_singleton.2 hdigit
  · rintro ⟨number, own, rfl, hnonempty, hnumber, hown⟩
    obtain ⟨digit, digits, rfl⟩ := List.exists_cons_of_ne_nil hnonempty
    refine ⟨hnumber digit List.mem_cons_self, fun char hchar => ?_⟩
    refine (List.mem_append.1 hchar).elim (fun hmem => Or.inl ?_) (hown char)
    rw [Char.isAlphanum, hnumber char hmem, Bool.or_true]

/-- The search stops at the first line break and tries every dollar sign before. -/
theorem hasLocalSuffix_iff (chars : List Char) :
    hasLocalSuffix chars ↔
      ∃ before after, chars = before ++ '$' :: after ∧ '\n' ∉ before ∧ isLocalSuffix after := by
  induction chars with
  | nil => simp [hasLocalSuffix]
  | cons char chars ih =>
    simp only [hasLocalSuffix, Bool.or_eq_true, Bool.and_eq_true, decide_eq_true_eq, ih]
    constructor
    · rintro (⟨rfl, hafter⟩ | ⟨hchar, before, after, rfl, hbefore, hafter⟩)
      · exact ⟨[], chars, rfl, List.not_mem_nil, hafter⟩
      · refine ⟨char :: before, after, rfl, ?_, hafter⟩
        exact List.not_mem_cons_of_ne_of_not_mem (Ne.symm hchar) hbefore
    · rintro ⟨before, after, hsplit, hbefore, hafter⟩
      cases before with
      | nil =>
        obtain ⟨rfl, rfl⟩ := List.cons.inj hsplit
        exact Or.inl ⟨rfl, hafter⟩
      | cons first before =>
        obtain ⟨rfl, rfl⟩ := List.cons.inj hsplit
        obtain ⟨hfirst, hmore⟩ := List.ne_and_not_mem_of_not_mem_cons hbefore
        exact Or.inr ⟨Ne.symm hfirst, before, after, rfl, hmore, hafter⟩

/-- Searching finds the names that can be split. -/
theorem isLocalName_iff (name : String) : isLocalName name ↔ ClassName.IsLocal name := by
  rw [isLocalName]
  constructor
  · intro hname
    split at hname
    case h_1 => cases hname
    case h_2 first rest hchars =>
      simp only [Bool.and_eq_true, decide_eq_true_eq, hasLocalSuffix_iff, isLocalSuffix_iff]
        at hname
      obtain ⟨hfirst, before, _, rfl, hbefore, number, own, rfl, hnonempty, hnumber, hown⟩ := hname
      exact ⟨first :: before, number, own,
        { name_eq := hchars
          enclosing_nonempty := List.cons_ne_nil first before
          enclosing_unbroken := List.not_mem_cons_of_ne_of_not_mem (Ne.symm hfirst) hbefore
          number_nonempty := hnonempty
          number_digits := hnumber
          own_chars := hown }⟩
  · rintro ⟨enclosing, number, own, hparts⟩
    obtain ⟨first, before, rfl⟩ := List.exists_cons_of_ne_nil hparts.enclosing_nonempty
    obtain ⟨hfirst, hbefore⟩ := List.ne_and_not_mem_of_not_mem_cons hparts.enclosing_unbroken
    have hsuffix : hasLocalSuffix (before ++ '$' :: (number ++ own)) :=
      (hasLocalSuffix_iff _).2 ⟨before, number ++ own, rfl, hbefore, (isLocalSuffix_iff _).2
        ⟨number, own, rfl, hparts.number_nonempty, hparts.number_digits, hparts.own_chars⟩⟩
    simp [hparts.name_eq, hsuffix, Ne.symm hfirst]

/-! ## Classification -/

/-- A class that belongs to the API under the given packages, or under an open
policy if there are none: its package is allowed, it is public, protected or
visible in its package alone while the policy is open, and it is no local
class. -/
structure ClassHeader.InApi (header : ClassHeader) (packages : List String) : Prop where
  package : packages = [] ∨ ∃ package,
    ClassName.IsPackage package (ClassName.toBinary header.name) ∧
      (package ∈ basePackages ∨ package ∈ packages)
  visible : header.flags.hasAny .accPublic ∨ header.flags.hasAny .accProtected ∨
    (¬header.flags.hasAny .accPrivate ∧ packages = [])
  notLocal : ¬ClassName.IsLocal header.name

namespace ApiRules

variable {packages : List String} {validate : Bool}

/-- A policy is open exactly if no packages are declared. -/
theorem isOpen_ofPackages :
    (ofPackages packages validate).policy.isOpen = true ↔ packages = [] := by
  rw [PackagePolicy.isOpen, List.isEmpty_iff]
  constructor
  · intro hnone
    by_contra hsome
    exact packages_ofPackages_ne_nil hsome validate hnone
  · rintro rfl
    rfl

/-- An open policy allows all classes, and another one those of its packages. -/
theorem allowsClass_ofPackages (binary : String) :
    (ofPackages packages validate).policy.allowsClass binary ↔
      packages = [] ∨ ∃ package, ClassName.IsPackage package binary ∧
        (package ∈ basePackages ∨ package ∈ packages) := by
  simp only [PackagePolicy.allowsClass, PackagePolicy.allows, Bool.or_eq_true, isOpen_ofPackages,
    List.contains_iff_mem, mem_packages_ofPackages, ClassName.isPackage_iff, exists_eq_left',
    or_assoc]

/-- An open policy also sees what is visible in the package. -/
theorem isVisible_ofPackages (flags : AccessFlags) :
    (ofPackages packages validate).policy.isVisible flags ↔
      flags.hasAny .accPublic ∨ flags.hasAny .accProtected ∨
        (¬flags.hasAny .accPrivate ∧ packages = []) := by
  rw [PackagePolicy.isVisible, Visibility.ofFlags]
  by_cases hpublic : flags.hasAny .accPublic
  · simp [hpublic]
  · by_cases hprotected : flags.hasAny .accProtected
    · simp [hpublic, hprotected]
    · by_cases hprivate : flags.hasAny .accPrivate <;>
        simp [hpublic, hprotected, hprivate, isOpen_ofPackages]

/-- A header is found to be in the API exactly if it is. -/
theorem isApi_iff_inApi (header : ClassHeader) :
    header.isApi (ofPackages packages validate).policy ↔ header.InApi packages := by
  simp only [ClassHeader.isApi, Bool.and_eq_true, Bool.not_eq_true', ← Bool.not_eq_true,
    allowsClass_ofPackages, isVisible_ofPackages, isLocalName_iff, and_assoc]
  exact ⟨fun ⟨hpackage, hvisible, hlocal⟩ => ⟨hpackage, hvisible, hlocal⟩,
    fun hclass => ⟨hclass.package, hclass.visible, hclass.notLocal⟩⟩

/-- A class is classified by its header alone. -/
theorem includesClass_of_decode {bytes : List UInt8} {header : ClassHeader}
    (hheader : ClassHeader.decode bytes = .ok header) (rules : ApiRules) :
    rules.includesClass bytes = .ok (header.isApi rules.policy) := by
  rw [includesClass, hheader]
  rfl

/-- **What belongs to the API.** The class that bytes start with is found to
belong to the API exactly if its header says so, and else it is found not to.  A
name that goes on from that of a local or anonymous class never belongs to it. -/
theorem includesClass_iff_inApi {bytes : List UInt8} {header : ClassHeader}
    (hheader : ClassHeader.decode bytes = .ok header) (packages : List String)
    (validate : Bool) :
    ((ofPackages packages validate).includesClass bytes = .ok true ↔ header.InApi packages) ∧
      ((ofPackages packages validate).includesClass bytes = .ok false ↔
        ¬header.InApi packages) ∧
      ∀ name suffix, ClassName.IsLocal name →
        (∀ char ∈ suffix.toList, char.isAlphanum ∨ char = '_' ∨ char = '$') →
          header.name = name ++ suffix →
            (ofPackages packages validate).includesClass bytes = .ok false := by
  simp only [includesClass_of_decode hheader, Except.ok.injEq, ← Bool.not_eq_true,
    isApi_iff_inApi, true_and]
  intro name suffix hname hsuffix hextended hclass
  exact hclass.notLocal (hextended ▸ hname.append hsuffix)

/-- The start of the public class `p.A$b$1c`. -/
def sampleLocal : List UInt8 :=
  [0xca, 0xfe, 0xba, 0xbe, 0x00, 0x00, 0x00, 0x34, 0x00, 0x03, 0x01, 0x00, 0x08, 0x70, 0x2f,
    0x41, 0x24, 0x62, 0x24, 0x31, 0x63, 0x07, 0x00, 0x01, 0x00, 0x21, 0x00, 0x02, 0x00, 0x00,
    0x00, 0x00]

/-- What the bytes of the sample mean. -/
def sampleLocalHeader : ClassHeader where
  version := { major := 52, minor := 0 }
  flags := 0x21
  name := "p/A$b$1c"
  superName := none
  interfaces := []

theorem decode_sampleLocal : ClassHeader.decode sampleLocal = .ok sampleLocalHeader := by
  cbv

/-- The class around that of the sample is local, as its own name is a number. -/
theorem isLocal_sampleOuter : ClassName.IsLocal "p/A$b$1" :=
  ⟨['p', '/', 'A', '$', 'b'], ['1'], [],
    { name_eq := by simp
      enclosing_nonempty := by decide
      enclosing_unbroken := by decide
      number_nonempty := by decide
      number_digits := by simp [Char.isDigit]
      own_chars := by simp }⟩

/-- The sample has no number behind its first dollar sign, but behind its second. -/
theorem includesClass_iff_inApi_sampleLocal :
    ClassHeader.decode sampleLocal = .ok sampleLocalHeader ∧
      (ofPackages ["p"] true).includesClass sampleLocal = .ok false ∧
        ¬sampleLocalHeader.InApi ["p"] := by
  obtain ⟨_, hfalse, hextended⟩ := includesClass_iff_inApi decode_sampleLocal ["p"] true
  have hname : ∀ char ∈ "c".toList, char.isAlphanum ∨ char = '_' ∨ char = '$' := by
    simp [Char.isAlphanum, Char.isAlpha]
  have hclass := hextended "p/A$b$1" "c" isLocal_sampleOuter hname rfl
  exact ⟨decode_sampleLocal, hclass, hfalse.1 hclass⟩

end ApiRules

end ClassStub
