import Mathlib
import ClassStub.Proofs.Descriptor.ReadNames
import ClassStub.Proofs.Order.FirstOccurrences
import ClassStub.Proofs.Stub.Admission
import ClassStub.Proofs.Stub.CheckFailures

/-!
# Reported types

Under a declared policy with checks, everything that offends is reported, once and
where it came up first.  The supertypes of a class are checked before all else:
extraction fails there exactly if one of them is not allowed, and the message names
all of those that are not.  Each member is checked after what comes before it, and
its message names all the classes of its signature, or else of its descriptor, that
are not allowed (`ApiRules.reports_offenders`).
-/

namespace ClassStub

namespace PackagePolicy

variable (policy : PackagePolicy)

/-! ## Classes that are not allowed -/

/-- The dotted names of those classes that are not allowed, as often as they are
given. -/
def forbidden (names : List String) : List String :=
  (names.map ClassName.toBinary).filter fun name => !policy.allowsClass name

/-- The forbidden names of two lists are those of one behind those of the other. -/
theorem forbidden_append (names others : List String) :
    policy.forbidden (names ++ others) = policy.forbidden names ++ policy.forbidden others := by
  rw [forbidden, List.map_append, List.filter_append]
  rfl

/-- A dotted name is forbidden if it is not allowed. -/
theorem mem_forbidden {names : List String} {type : String} :
    type ∈ policy.forbidden names ↔
      type ∈ names.map ClassName.toBinary ∧ policy.allowsClass type = false := by
  rw [forbidden, List.mem_filter, Bool.not_eq_true']

/-- The offenders among names are the forbidden ones. -/
theorem filterMap_offender? (names : List String) :
    names.filterMap policy.offender? = policy.forbidden names := by
  induction names with
  | nil => rfl
  | cons name names ih =>
    rw [List.filterMap_cons, ih, forbidden, forbidden, List.map_cons, List.filter_cons, offender?]
    by_cases hallowed : policy.allowsClass (ClassName.toBinary name) <;> simp [hallowed]

/-- A name that may be missing has an offender at most. -/
theorem toList_bind_offender? (name : Option String) :
    (name.bind policy.offender?).toList = policy.forbidden name.toList := by
  rw [← filterMap_offender?]
  cases name with
  | none => rfl
  | some name => cases hoffender : policy.offender? name <;> simp [hoffender]

/-- Names without dots may be told apart before or after they are put in dotted
form. -/
theorem forbidden_eraseDups {names : List String} (hnames : Dotless names) :
    policy.forbidden names.eraseDups = (policy.forbidden names).eraseDups := by
  have hmap : (names.map ClassName.toBinary).eraseDups = names.eraseDups.map ClassName.toBinary :=
    eraseDups_map fun first hfirst second hsecond =>
      ClassName.toBinary_inj (hnames first hfirst) (hnames second hsecond)
  rw [forbidden, forbidden, eraseDups_filter, hmap]

/-- What offends in a signature or descriptor are its forbidden classes, each
once. -/
theorem offenders_of_parse {text : String} {tree : Signature}
    (htree : Signature.parse text = .ok tree) :
    policy.offenders text = .ok (policy.forbidden tree.outerClasses).eraseDups := by
  rw [← policy.forbidden_eraseDups (Signature.dotless_of_parse htree), offenders,
    distinctOuterClasses, htree]
  rfl

end PackagePolicy

/-! ## Supertypes -/

namespace ClassFile

/-- The classes that the signature of a class refers to, in the order of its text
and as often as it does; none if there is no signature. -/
def SignatureRefers (file : ClassFile) (classes : List String) : Prop :=
  match file.signature with
  | none => classes = []
  | some signature => ∃ tree, Signature.parse signature = .ok tree ∧ classes = tree.outerClasses

/-- The superclass of a class, the classes of its signature and its interfaces. -/
def supertypeNames (file : ClassFile) (classes : List String) : List String :=
  file.header.superName.toList ++ classes ++ file.header.interfaces

/-- Where a supertype comes up first. -/
def firstOrigin (file : ClassFile) (classes : List String) (type : String) : SupertypeOrigin :=
  if type ∈ file.header.superName.toList.map ClassName.toBinary then
    .superclass
  else if type ∈ classes.map ClassName.toBinary then
    .signature
  else
    .interface

end ClassFile

/-- What is reported about types that offend. -/
def reported (single : String → Exposure) (several : List String → Exposure) :
    List String → Option Exposure
  | [] => none
  | [type] => some (single type)
  | types => some (several types)

/-- Several types are reported together. -/
theorem reported_several {single : String → Exposure} {several : List String → Exposure}
    {types : List String} (htypes : 2 ≤ types.length) :
    reported single several types = some (several types) := by
  rcases types with _ | ⟨first, _ | ⟨second, more⟩⟩
  · exact absurd htypes (by decide)
  · exact absurd htypes (by simp)
  · rfl

/-- Fails if something is reported. -/
def refused : Option Exposure → Except ApiError Unit
  | none => .ok ()
  | some exposure => .error (.exposed exposure)

/-- A type is found among names with an origin if it is one of them. -/
theorem find?_tagged (names : List String) (origin : SupertypeOrigin) (type : String) :
    (names.map (·, origin)).find? (fun other => other.1 == type) =
      if type ∈ names then some (type, origin) else none := by
  induction names with
  | nil => rfl
  | cons name names ih =>
    by_cases hname : name = type
    · simp [hname]
    · have hother : ¬type = name := fun hsame => hname hsame.symm
      simp [hname, hother, ih]

namespace PackagePolicy

variable {policy : PackagePolicy} {file : ClassFile} {classes : List String}

/-- The supertypes that offend, as often as they are looked at. -/
def taggedOffenders (policy : PackagePolicy) (file : ClassFile) (classes : List String) :
    List (String × SupertypeOrigin) :=
  (policy.forbidden file.header.superName.toList).map (·, .superclass) ++
    (policy.forbidden classes).eraseDups.map (·, .signature) ++
    (policy.forbidden file.header.interfaces).map (·, .interface)

/-- The offenders among supertypes are those with their first origins. -/
theorem supertypeOffenders_eq (hclasses : file.SignatureRefers classes) :
    policy.supertypeOffenders file =
      .ok ((policy.taggedOffenders file classes).eraseDupsBy
        fun first second => first.1 == second.1) := by
  unfold supertypeOffenders taggedOffenders
  rw [toList_bind_offender?, filterMap_offender?]
  cases hsignature : file.signature with
  | none =>
    rw [ClassFile.SignatureRefers, hsignature] at hclasses
    subst hclasses
    rfl
  | some signature =>
    rw [ClassFile.SignatureRefers, hsignature] at hclasses
    obtain ⟨tree, htree, rfl⟩ := hclasses
    simp only [policy.offenders_of_parse htree]
    rfl

/-- They are the first occurrences of the forbidden names. -/
theorem firstOccurrences_supertypes (policy : PackagePolicy) (file : ClassFile)
    (classes : List String) :
    FirstOccurrences (policy.forbidden (file.supertypeNames classes))
      (((policy.taggedOffenders file classes).eraseDupsBy
        fun first second => first.1 == second.1).map Prod.fst) := by
  have hnames : (policy.taggedOffenders file classes).map Prod.fst =
      policy.forbidden file.header.superName.toList ++ (policy.forbidden classes).eraseDups ++
        policy.forbidden file.header.interfaces := by
    simp [taggedOffenders, Function.comp_def]
  have herased := eraseDups_append_congr (policy.forbidden file.header.interfaces)
    (eraseDups_append_eraseDups (policy.forbidden file.header.superName.toList)
      (policy.forbidden classes))
  rw [map_eraseDupsBy, hnames, herased, ClassFile.supertypeNames, forbidden_append,
    forbidden_append]
  exact firstOccurrences_eraseDups _

/-- Each one has the origin in which it occurs first. -/
theorem firstOrigin_of_mem {one : String × SupertypeOrigin}
    (hone : one ∈ (policy.taggedOffenders file classes).eraseDupsBy
      fun first second => first.1 == second.1) :
    one.2 = file.firstOrigin classes one.1 := by
  have hfirst := find?_of_mem_eraseDupsBy hone
  have hmem : one.1 ∈ policy.forbidden (file.supertypeNames classes) :=
    ((firstOccurrences_supertypes policy file classes).mem_iff _).1 (List.mem_map_of_mem hone)
  have hforbidden := (policy.mem_forbidden.1 hmem).2
  simp only [taggedOffenders, List.find?_append, find?_tagged, List.mem_eraseDups, mem_forbidden,
    hforbidden, and_true] at hfirst
  unfold ClassFile.firstOrigin
  by_cases hsuper : one.1 ∈ file.header.superName.toList.map ClassName.toBinary
  · simp only [hsuper, ↓reduceIte, Option.some_or] at hfirst ⊢
    exact (congrArg Prod.snd (Option.some.inj hfirst)).symm
  by_cases hsignature : one.1 ∈ classes.map ClassName.toBinary
  · simp only [hsuper, hsignature, ↓reduceIte, Option.none_or, Option.some_or] at hfirst ⊢
    exact (congrArg Prod.snd (Option.some.inj hfirst)).symm
  by_cases hinterface : one.1 ∈ file.header.interfaces.map ClassName.toBinary
  · simp only [hsuper, hsignature, hinterface, ↓reduceIte, Option.none_or] at hfirst ⊢
    exact (congrArg Prod.snd (Option.some.inj hfirst)).symm
  · simp only [hsuper, hsignature, hinterface, ↓reduceIte, Option.none_or] at hfirst
    cases hfirst

/-- The supertypes that offend are found each once, in order, with their first
origins. -/
theorem supertypeOffenders_spec (policy : PackagePolicy) (hclasses : file.SignatureRefers classes) :
    ∃ found, policy.supertypeOffenders file = .ok found ∧
      FirstOccurrences (policy.forbidden (file.supertypeNames classes)) (found.map Prod.fst) ∧
      ∀ one ∈ found, one.2 = file.firstOrigin classes one.1 :=
  ⟨_, supertypeOffenders_eq hclasses, firstOccurrences_supertypes policy file classes,
    fun _ hone => firstOrigin_of_mem hone⟩

/-- The check of the supertypes of a class is decided by those that offend. -/
theorem checkSupertypes_eq_of_offenders (hclasses : file.SignatureRefers classes)
    {offenders : List String}
    (hoffenders : FirstOccurrences (policy.forbidden (file.supertypeNames classes)) offenders) :
    policy.checkSupertypes file =
      refused (reported
        (fun type => .supertype (ClassName.toBinary file.header.name) type
          (file.firstOrigin classes type))
        (.supertypes (ClassName.toBinary file.header.name)) offenders) := by
  obtain ⟨found, hfound, hfirst, horigins⟩ := supertypeOffenders_spec policy hclasses
  obtain rfl := hoffenders.unique hfirst
  rw [checkSupertypes, hfound]
  rcases found with _ | ⟨⟨type, origin⟩, _ | ⟨second, more⟩⟩
  · rfl
  · have horigin : origin = file.firstOrigin classes type := horigins _ List.mem_cons_self
    rw [horigin]
    rfl
  · rfl

/-- The check of what a member names is decided by the classes that offend. -/
theorem checkMember_eq_of_offenders (policy : PackagePolicy) {owner descriptor : String}
    (single : String → Exposure) {signature : Option String} {tree : Signature}
    (htree : Signature.parse (signature.getD descriptor) = .ok tree) {offenders : List String}
    (hoffenders : FirstOccurrences (policy.forbidden tree.outerClasses) offenders) :
    policy.checkMember owner single signature descriptor =
      refused (reported single (.memberTypes owner) offenders) := by
  rw [checkMember, policy.offenders_of_parse htree, ← hoffenders.eq_eraseDups]
  rcases offenders with _ | ⟨type, _ | ⟨second, more⟩⟩ <;> rfl

end PackagePolicy

/-! ## Members -/

/-- A member that counts as API. -/
inductive ApiMember where
  | method (method : Method)
  | field (field : Field)

namespace ApiMember

/-- The member as messages name it. -/
def declaration : ApiMember → Except DescriptorError String
  | method one => sourceMethod one.flags one.name one.descriptor
  | field one => sourceField one.flags one.name one.descriptor

/-- The generic signature of a member, or else its descriptor. -/
def typeText : ApiMember → String
  | method one => one.signature.getD one.descriptor
  | field one => one.signature.getD one.descriptor

/-- The exposure of a single class. -/
def exposure : ApiMember → (owner type : String) → Exposure
  | method _ => .methodType
  | field _ => .fieldType

/-- The check of a member. -/
def check (rules : ApiRules) : ApiMember → Except ApiError Unit
  | method one => rules.checkMethod one
  | field one => rules.checkField one

end ApiMember

/-- The members of a class that count as API: its methods, then its fields. -/
def ClassFile.apiMembers (file : ClassFile) (policy : PackagePolicy) : List ApiMember :=
  (file.apiMethods policy).map .method ++ (file.apiFields policy).map .field

namespace ApiRules

variable {rules : ApiRules} {file : ClassFile}

/-- Details are annotations and then the members, one after the other. -/
theorem checkDetails_eq (rules : ApiRules) (file : ClassFile) :
    rules.checkDetails file = (do
      rules.whenChecked (rules.policy.checkAnnotations (ClassName.toBinary file.header.name)
        file.retainedAnnotations)
      (file.apiMembers rules.policy).forM (ApiMember.check rules)) := by
  simp only [checkDetails, ClassFile.apiMembers, List.forM_eq_forM, List.forM_append,
    List.forM_map]
  rfl

/-- Extraction fails exactly as the check does. -/
theorem extract_eq_error_iff {cause : ApiError} :
    rules.extract file = .error cause ↔ rules.check file = .error cause := by
  rw [extract, bind_eq_error]
  constructor
  · rintro (hcheck | ⟨_, _, hsurface⟩)
    · exact hcheck
    · cases hsurface
  · exact Or.inl

end ApiRules

/-- A series of checks fails with the first one that does. -/
theorem forM_append_eq_error {ε α : Type} {check : α → Except ε Unit} {before : List α} {item : α}
    {cause : ε} (hbefore : ∀ earlier ∈ before, check earlier = .ok ())
    (hitem : check item = .error cause) (after : List α) :
    (before ++ item :: after).forM check = .error cause := by
  induction before with
  | nil => exact bind_eq_error.2 (.inl hitem)
  | cons earlier before ih =>
    obtain ⟨hearlier, hmore⟩ := List.forall_mem_cons.1 hbefore
    exact bind_eq_error.2 (.inr ⟨(), hearlier, ih hmore⟩)

/-! ## Messages -/

/-- What is said about one supertype, by where it comes up first. -/
def SupertypeOrigin.sentence (className type : String) : SupertypeOrigin → String
  | superclass =>
    "'" ++ className ++ "' extends '" ++ type ++ "' and " ++
      "its package is not one of the allowed packages."
  | signature =>
    "'" ++ className ++ "' references disallowed API type '" ++ type ++
      "' in superclass or interfaces."
  | interface =>
    "'" ++ className ++ "' declares interface '" ++ type ++ "' and " ++
      "its package is not one of the allowed packages."

/-- What is said about one type of a member. -/
def ApiMember.sentence (owner type : String) : ApiMember → String
  | method _ =>
    "In " ++ owner ++ ", type " ++ type ++ " is exposed in the public API but " ++
      "its package is not one of the allowed packages."
  | field _ => "Field '" ++ owner ++ "' references disallowed API type '" ++ type ++ "'"

/-- What is said about several types: a header, and one line for each. -/
def bulletList (subject : String) (types : List String) : String :=
  "The following types are referenced in " ++ subject ++
    " but their package is not one of the " ++ "allowed packages:\n" ++
    String.join (types.map fun type => "   - " ++ type ++ "\n")

/-- The message names the class, the type and where it comes from. -/
theorem message_supertype (className type : String) (origin : SupertypeOrigin) :
    (Exposure.supertype className type origin).message = origin.sentence className type := by
  cases origin <;> rfl

/-- The message names the member and the type. -/
theorem message_exposure (member : ApiMember) (owner type : String) :
    (member.exposure owner type).message = member.sentence owner type := by
  cases member <;> rfl

theorem message_supertypes (className : String) (types : List String) :
    (Exposure.supertypes className types).message =
      bulletList ("the supertypes of '" ++ className ++ "'") types :=
  rfl

theorem message_memberTypes (member : String) (types : List String) :
    (Exposure.memberTypes member types).message = bulletList member types :=
  rfl

/-! ## Reports -/

namespace ApiRules

/-- How the supertypes of a class are reported, given those that offend. -/
structure ReportsSupertypes (rules : ApiRules) (file : ClassFile)
    (classes offenders : List String) : Prop where
  /-- Extraction fails for the supertypes exactly if one offends. -/
  fails_iff : (∃ exposure, rules.extract file = .error (.exposed exposure) ∧
    exposure.OfSupertypes) ↔ offenders ≠ []
  /-- A single one is reported by where it comes up first. -/
  single : ∀ type, offenders = [type] → ∃ exposure,
    rules.extract file = .error (.exposed exposure) ∧
      exposure.message =
        (file.firstOrigin classes type).sentence (ClassName.toBinary file.header.name) type
  /-- Several ones are listed, each once. -/
  several : 2 ≤ offenders.length → offenders.Nodup ∧ ∃ exposure,
    rules.extract file = .error (.exposed exposure) ∧
      exposure.message =
        bulletList ("the supertypes of '" ++ ClassName.toBinary file.header.name ++ "'") offenders

/-- How a member is reported, given the classes that it names and that offend. -/
structure ReportsMember (rules : ApiRules) (file : ClassFile) (member : ApiMember) (owner : String)
    (offenders : List String) : Prop where
  single : ∀ type, offenders = [type] → ∃ exposure,
    rules.extract file = .error (.exposed exposure) ∧ exposure.message = member.sentence owner type
  several : 2 ≤ offenders.length → offenders.Nodup ∧ ∃ exposure,
    rules.extract file = .error (.exposed exposure) ∧ exposure.message = bulletList owner offenders

/-- Everything before a member passes: the supertypes, the annotations of the class
and other members. -/
structure PassesUpTo (rules : ApiRules) (file : ClassFile) (before : List ApiMember) : Prop where
  supertypes : rules.policy.checkSupertypes file = .ok ()
  annotations : rules.policy.checkAnnotations (ClassName.toBinary file.header.name)
    file.retainedAnnotations = .ok ()
  members : ∀ earlier ∈ before, earlier.check rules = .ok ()

/-- Whatever offends in a class is reported: its supertypes, and then the first
member that names classes that are not allowed. -/
structure ReportsOffenders (rules : ApiRules) (file : ClassFile) : Prop where
  supertypes : ∀ classes offenders, file.SignatureRefers classes →
    FirstOccurrences (rules.policy.forbidden (file.supertypeNames classes)) offenders →
      rules.ReportsSupertypes file classes offenders
  members : ∀ before member after, file.apiMembers rules.policy = before ++ member :: after →
    rules.PassesUpTo file before → ∀ owner tree offenders, member.declaration = .ok owner →
      Signature.parse member.typeText = .ok tree →
        FirstOccurrences (rules.policy.forbidden tree.outerClasses) offenders →
          rules.ReportsMember file member owner offenders

end ApiRules

/-! ## Extraction -/

section

variable {rules : ApiRules} {file : ClassFile} (hvalidate : rules.validate = true)
  (hdeclared : rules.policy.packages ≠ [])

include hvalidate hdeclared

/-- A member fails with what is reported about the types that it names. -/
theorem ApiMember.check_eq_error {member : ApiMember} {owner : String}
    (howner : member.declaration = .ok owner) {tree : Signature}
    (htree : Signature.parse member.typeText = .ok tree) {offenders : List String}
    (hoffenders : FirstOccurrences (rules.policy.forbidden tree.outerClasses) offenders)
    {exposure : Exposure}
    (hexposure : reported (member.exposure owner) (.memberTypes owner) offenders = some exposure) :
    member.check rules = .error (.exposed exposure) := by
  have hreported : refused (reported (member.exposure owner) (.memberTypes owner) offenders) =
      .error (.exposed exposure) := by
    rw [hexposure]
    rfl
  have hchecked := ApiRules.whenChecked_eq hvalidate hdeclared
  cases member with
  | method one =>
    have htypes : rules.policy.checkMember owner (.methodType owner) one.signature one.descriptor =
        .error (.exposed exposure) :=
      (rules.policy.checkMember_eq_of_offenders _ htree hoffenders).trans hreported
    refine bind_eq_error.2 (.inr ⟨owner, mapError_eq_ok.2 howner, ?_⟩)
    rw [hchecked]
    exact bind_eq_error.2 (.inl htypes)
  | field one =>
    have htypes : rules.policy.checkMember owner (.fieldType owner) one.signature one.descriptor =
        .error (.exposed exposure) :=
      (rules.policy.checkMember_eq_of_offenders _ htree hoffenders).trans hreported
    refine bind_eq_error.2 (.inr ⟨owner, mapError_eq_ok.2 howner, ?_⟩)
    rw [hchecked]
    exact bind_eq_error.2 (.inl htypes)

namespace ApiRules

/-- The supertypes are reported before anything else. -/
theorem extract_of_supertypes {cause : ApiError}
    (hcause : rules.policy.checkSupertypes file = .error cause) :
    rules.extract file = .error cause := by
  rw [extract_eq_error_iff, check_eq_details, whenChecked_eq hvalidate hdeclared]
  exact bind_eq_error.2 (.inl hcause)

/-- A member is reported when all that comes before it passes. -/
theorem extract_of_member {before after : List ApiMember} {member : ApiMember} {cause : ApiError}
    (hmembers : file.apiMembers rules.policy = before ++ member :: after)
    (hpasses : rules.PassesUpTo file before) (hcause : member.check rules = .error cause) :
    rules.extract file = .error cause := by
  rw [extract_eq_error_iff, check_eq_details, checkDetails_eq, whenChecked_eq hvalidate hdeclared,
    whenChecked_eq hvalidate hdeclared, hpasses.supertypes, hpasses.annotations, hmembers]
  exact forM_append_eq_error hpasses.members hcause after

/-- Extraction fails for the supertypes only if their check does. -/
theorem checkSupertypes_of_extract {exposure : Exposure} (hexposure : exposure.OfSupertypes)
    (hextract : rules.extract file = .error (.exposed exposure)) :
    rules.policy.checkSupertypes file ≠ .ok () := by
  intro hpass
  rw [extract_eq_error_iff, check_eq_details, whenChecked_eq hvalidate hdeclared, hpass] at hextract
  rcases rules.exposesOnly_checkDetails file _ hextract with ⟨_, hsame⟩ | ⟨_, hsame, hdetails⟩
  · cases hsame
  · cases hsame
    exact hdetails hexposure

/-- The offenders among supertypes are reported before anything else. -/
theorem reportsSupertypes {classes offenders : List String}
    (hclasses : file.SignatureRefers classes)
    (hoffenders : FirstOccurrences (rules.policy.forbidden (file.supertypeNames classes))
      offenders) :
    rules.ReportsSupertypes file classes offenders := by
  have hcheck := PackagePolicy.checkSupertypes_eq_of_offenders hclasses hoffenders
  have hextract : ∀ exposure, reported
      (fun type => .supertype (ClassName.toBinary file.header.name) type
        (file.firstOrigin classes type))
      (.supertypes (ClassName.toBinary file.header.name)) offenders = some exposure →
        rules.extract file = .error (.exposed exposure) := by
    intro exposure hexposure
    rw [hexposure] at hcheck
    exact extract_of_supertypes hvalidate hdeclared hcheck
  refine ⟨⟨?_, ?_⟩, ?_, ?_⟩
  · rintro ⟨exposure, hfails, hsupertypes⟩ rfl
    exact checkSupertypes_of_extract hvalidate hdeclared hsupertypes hfails hcheck
  · intro hsome
    rcases offenders with _ | ⟨type, _ | ⟨second, more⟩⟩
    · exact absurd rfl hsome
    · exact ⟨_, hextract _ rfl, trivial⟩
    · exact ⟨_, hextract _ rfl, trivial⟩
  · rintro type rfl
    exact ⟨_, hextract _ rfl, message_supertype _ type _⟩
  · intro hseveral
    exact ⟨hoffenders.nodup, _, hextract _ (reported_several hseveral), message_supertypes _ _⟩

/-- The offenders of the first member that does not pass are reported. -/
theorem reportsMember {before after : List ApiMember} {member : ApiMember}
    (hmembers : file.apiMembers rules.policy = before ++ member :: after)
    (hpasses : rules.PassesUpTo file before) {owner : String}
    (howner : member.declaration = .ok owner) {tree : Signature}
    (htree : Signature.parse member.typeText = .ok tree) {offenders : List String}
    (hoffenders : FirstOccurrences (rules.policy.forbidden tree.outerClasses) offenders) :
    rules.ReportsMember file member owner offenders := by
  have hextract : ∀ exposure,
      reported (member.exposure owner) (.memberTypes owner) offenders = some exposure →
        rules.extract file = .error (.exposed exposure) := by
    intro exposure hexposure
    have hcheck := ApiMember.check_eq_error hvalidate hdeclared howner htree hoffenders hexposure
    exact extract_of_member hvalidate hdeclared hmembers hpasses hcheck
  refine ⟨?_, ?_⟩
  · rintro type rfl
    exact ⟨_, hextract _ rfl, message_exposure member owner type⟩
  · intro hseveral
    exact ⟨hoffenders.nodup, _, hextract _ (reported_several hseveral), message_memberTypes _ _⟩

end ApiRules

end

namespace ApiRules

/-- **Reports are complete.** Under a declared policy with checks, all types that
offend among the supertypes of a class are reported before anything else is looked
at; then the first member that names classes that are not allowed is reported, with
all of them.  Each type is named once, in order of first appearance. -/
theorem reports_offenders (rules : ApiRules) (file : ClassFile) (hvalidate : rules.validate = true)
    (hdeclared : rules.policy.packages ≠ []) : rules.ReportsOffenders file where
  supertypes _ _ hclasses hoffenders :=
    reportsSupertypes hvalidate hdeclared hclasses hoffenders
  members _ _ _ hmembers hpasses _ _ _ howner htree hoffenders :=
    reportsMember hvalidate hdeclared hmembers hpasses howner htree hoffenders

/-- The class `p.A` with supertypes that come up in several places. -/
def sampleSupertypes : ClassFile where
  header := {
    version := { major := 52, minor := 0 }
    flags := .accPublic
    name := "p/A"
    superName := some "q/Base"
    interfaces := ["r/Api", "q/Base", "q/Other"] }
  signature := some "Lq/Base;Lr/Api<Lx/E;>;Lq/Other;"
  fields := []
  methods := []
  pool := {}

/-- The class `p.A` with a method that names two classes, one of them twice. -/
def sampleMembers : ClassFile where
  header := {
    version := { major := 52, minor := 0 }
    flags := .accPublic
    name := "p/A"
    superName := some "java/lang/Object"
    interfaces := [] }
  fields := []
  methods := [
    { flags := .accPublic
      name := "f"
      descriptor := "()V" },
    { flags := .accPublic
      name := "g"
      descriptor := "(Lr/B;Lq/C;Lr/B;)V" }]
  pool := {}

/-- Two samples are refused, with four types of supertypes and with two of a member.
-/
theorem reports_offenders_samples :
    (ofPackages ["p"] true).validate = true ∧ (ofPackages ["p"] true).policy.packages ≠ [] ∧
      (∃ exposure,
        (ofPackages ["p"] true).extract sampleSupertypes = .error (.exposed exposure) ∧
          exposure.message = bulletList "the supertypes of 'p.A'"
            ["q.Base", "r.Api", "x.E", "q.Other"]) ∧
      ∃ exposure, (ofPackages ["p"] true).extract sampleMembers = .error (.exposed exposure) ∧
        exposure.message = bulletList "public void g(r.B, q.C, r.B)" ["r.B", "q.C"] := by
  refine ⟨rfl, by decide, ?_, ?_⟩
  · have hreports := (reports_offenders (ofPackages ["p"] true) sampleSupertypes rfl (by decide))
    have htree : Signature.parse "Lq/Base;Lr/Api<Lx/E;>;Lq/Other;" = .ok {
        typeParameters := none
        body := .types [.classType "q/Base" .done,
          .classType "r/Api" (.applied (.typed .exactly (.classType "x/E" .done) .nil) .done),
          .classType "q/Other" .done] } := by cbv
    have hoffenders : FirstOccurrences ((ofPackages ["p"] true).policy.forbidden
        (sampleSupertypes.supertypeNames ["q/Base", "r/Api", "x/E", "q/Other"]))
        ["q.Base", "r.Api", "x.E", "q.Other"] := by
      have herased : ["q.Base", "r.Api", "x.E", "q.Other"] =
          ((ofPackages ["p"] true).policy.forbidden (sampleSupertypes.supertypeNames
            ["q/Base", "r/Api", "x/E", "q/Other"])).eraseDups := by cbv
      rw [herased]
      exact firstOccurrences_eraseDups _
    have hsupertypes := hreports.supertypes _ _ ⟨_, htree, rfl⟩ hoffenders
    have hsubject : "the supertypes of '" ++ ClassName.toBinary "p/A" ++ "'" =
        "the supertypes of 'p.A'" := by cbv
    rw [← hsubject]
    exact (hsupertypes.several (by decide)).2
  · have hreports := (reports_offenders (ofPackages ["p"] true) sampleMembers rfl (by decide))
    have htree : Signature.parse "(Lr/B;Lq/C;Lr/B;)V" = .ok {
        typeParameters := none
        body := .method [.classType "r/B" .done, .classType "q/C" .done, .classType "r/B" .done]
          none [] } := by cbv
    have hoffenders : FirstOccurrences
        ((ofPackages ["p"] true).policy.forbidden ["r/B", "q/C", "r/B"]) ["r.B", "q.C"] := by
      have herased : ["r.B", "q.C"] =
          ((ofPackages ["p"] true).policy.forbidden ["r/B", "q/C", "r/B"]).eraseDups := by cbv
      rw [herased]
      exact firstOccurrences_eraseDups _
    have hpasses : (ofPackages ["p"] true).PassesUpTo sampleMembers
        [.method { flags := .accPublic, name := "f", descriptor := "()V" }] :=
      ⟨by cbv, by cbv, List.forall_mem_singleton.2 (by cbv)⟩
    have hmember := hreports.members _ (.method
      { flags := .accPublic, name := "g", descriptor := "(Lr/B;Lq/C;Lr/B;)V" }) [] (by cbv) hpasses
      "public void g(r.B, q.C, r.B)" _ _ (by cbv) htree hoffenders
    exact (hmember.several (by decide)).2

end ApiRules

end ClassStub
