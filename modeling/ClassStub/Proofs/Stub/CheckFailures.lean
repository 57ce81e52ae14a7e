import ClassStub.Api.Rules
import ClassStub.Proofs.Codec.Interning

/-!
# What checks fail for

A check fails because a text is malformed, or because of a type that is exposed.
The check of the supertypes of a class finds types among its supertypes, and no
other check does (`PackagePolicy.exposesOnly_checkSupertypes`,
`ApiRules.exposesOnly_checkDetails`).  So the error of a class tells whether its
supertypes are to blame.
-/

namespace ClassStub

/-- Types that are exposed by the supertypes of a class. -/
def Exposure.OfSupertypes : Exposure → Prop
  | .supertype .. | .supertypes .. => True
  | _ => False

/-- Types that are exposed by annotations or by members. -/
def Exposure.OfDetails (exposure : Exposure) : Prop :=
  ¬exposure.OfSupertypes

/-- A computation that fails for malformed texts and for exposures of one kind. -/
def ExposesOnly {α : Type} (kind : Exposure → Prop) (result : Except ApiError α) : Prop :=
  ∀ cause, result = .error cause →
    (∃ inner, cause = .malformed inner) ∨ ∃ exposure, cause = .exposed exposure ∧ kind exposure

namespace ExposesOnly

variable {α β : Type} {kind : Exposure → Prop}

theorem ok (value : α) : ExposesOnly kind (.ok value) := by
  intro cause hresult
  cases hresult

theorem exposed {exposure : Exposure} (hkind : kind exposure) :
    ExposesOnly kind (.error (.exposed exposure) : Except ApiError α) := by
  intro cause hresult
  cases hresult
  exact .inr ⟨exposure, rfl, hkind⟩

/-- A text that cannot be read is malformed, and exposes nothing. -/
theorem orMalformed (result : Except DescriptorError α) :
    ExposesOnly kind (PackagePolicy.orMalformed result) := by
  intro cause hresult
  obtain ⟨inner, _, rfl⟩ := mapError_eq_error.1 hresult
  exact .inl ⟨_, rfl⟩

/-- Two checks expose what one of them does. -/
theorem bind {first : Except ApiError α} {next : α → Except ApiError β}
    (hfirst : ExposesOnly kind first) (hnext : ∀ value, ExposesOnly kind (next value)) :
    ExposesOnly kind (first >>= next) := by
  intro cause hresult
  rcases bind_eq_error.1 hresult with herror | ⟨value, _, herror⟩
  · exact hfirst cause herror
  · exact hnext value cause herror

/-- Checking each item exposes what checking one of them does. -/
theorem forM {items : List α} {check : α → Except ApiError Unit}
    (hcheck : ∀ item, ExposesOnly kind (check item)) : ExposesOnly kind (items.forM check) := by
  intro cause hresult
  obtain ⟨item, _, herror⟩ := forM_eq_error hresult
  exact hcheck item cause herror

theorem mono {other : Exposure → Prop} {result : Except ApiError α}
    (hresult : ExposesOnly kind result) (himplies : ∀ exposure, kind exposure → other exposure) :
    ExposesOnly other result := by
  intro cause hcause
  rcases hresult cause hcause with hmalformed | ⟨exposure, hsame, hkind⟩
  · exact .inl hmalformed
  · exact .inr ⟨exposure, hsame, himplies exposure hkind⟩

end ExposesOnly

namespace PackagePolicy

variable (policy : PackagePolicy) (owner : String)

/-- Looking for offenders exposes none of them yet. -/
theorem exposesOnly_offenders (kind : Exposure → Prop) (signature : String) :
    ExposesOnly kind (policy.offenders signature) :=
  (ExposesOnly.orMalformed _).bind fun _ => .ok _

/-! ## Supertypes -/

/-- Checking supertypes exposes types of supertypes. -/
theorem exposesOnly_checkSupertypes (file : ClassFile) :
    ExposesOnly Exposure.OfSupertypes (policy.checkSupertypes file) := by
  have hoffenders : ExposesOnly Exposure.OfSupertypes (policy.supertypeOffenders file) := by
    unfold supertypeOffenders
    cases file.signature with
    | none => exact .ok _
    | some signature => exact (policy.exposesOnly_offenders _ signature).bind fun _ => .ok _
  refine hoffenders.bind fun found => ?_
  split
  · exact .ok ()
  · exact .exposed trivial
  · exact .exposed trivial

/-! ## Annotations -/

/-- Checking a type exposes it as the caller tells. -/
theorem exposesOnly_checkType {kind : Exposure → Prop} {exposure : String → Exposure}
    (hkind : ∀ type, kind (exposure type)) (descriptor : String) :
    ExposesOnly kind (policy.checkType exposure descriptor) := by
  refine (ExposesOnly.orMalformed _).bind fun type => ?_
  split
  · exact .ok ()
  · exact .exposed (hkind type)

/-- Checking a class literal exposes details. -/
theorem exposesOnly_checkClassLiteral (descriptor : String) :
    ExposesOnly Exposure.OfDetails (policy.checkClassLiteral owner descriptor) := by
  unfold checkClassLiteral
  simp only
  split
  · exact policy.exposesOnly_checkType (fun _ => not_false) _
  · exact .ok ()

mutual

/-- Checking a value exposes details, at each depth. -/
theorem exposesOnly_checkValue (value : ElementValue) :
    ExposesOnly Exposure.OfDetails (policy.checkValue owner value) := by
  cases value with
  | constant constant =>
    cases constant with
    | classLiteral descriptor => exact policy.exposesOnly_checkClassLiteral owner descriptor
    | _ => exact .ok ()
  | enumConstant type name => exact policy.exposesOnly_checkType (fun _ => not_false) type
  | nested type elements =>
    rw [checkValue]
    exact (policy.exposesOnly_checkType (fun _ => not_false) type).bind fun _ =>
      exposesOnly_checkElements elements
  | array values => exact exposesOnly_checkValues values

theorem exposesOnly_checkElements (elements : List (String × ElementValue)) :
    ExposesOnly Exposure.OfDetails (policy.checkElements owner elements) := by
  cases elements with
  | nil => exact .ok ()
  | cons element elements =>
    obtain ⟨name, value⟩ := element
    rw [checkElements]
    exact (exposesOnly_checkValue value).bind fun _ => exposesOnly_checkElements elements

theorem exposesOnly_checkValues (values : List ElementValue) :
    ExposesOnly Exposure.OfDetails (policy.checkValues owner values) := by
  cases values with
  | nil => exact .ok ()
  | cons value values =>
    rw [checkValues]
    exact (exposesOnly_checkValue value).bind fun _ => exposesOnly_checkValues values

end

/-- Checking annotations exposes details. -/
theorem exposesOnly_checkAnnotations (retained : List Retained) :
    ExposesOnly Exposure.OfDetails (policy.checkAnnotations owner retained) :=
  .forM fun _ => policy.exposesOnly_checkValue owner _

/-! ## Members -/

/-- Checking a member exposes details. -/
theorem exposesOnly_checkMember (single : String → Exposure)
    (hsingle : ∀ type, (single type).OfDetails) (signature : Option String) (descriptor : String) :
    ExposesOnly Exposure.OfDetails (policy.checkMember owner single signature descriptor) := by
  refine (policy.exposesOnly_offenders _ _).bind fun found => ?_
  split
  · exact .ok ()
  · exact .exposed (hsingle _)
  · exact .exposed not_false

/-- Checking a method exposes details, also with its parameters. -/
theorem exposesOnly_checkMethod (method : SurfaceMethod) :
    ExposesOnly Exposure.OfDetails (policy.checkMethod owner method) := by
  have htables : ∀ tables : List (List Retained),
      ExposesOnly Exposure.OfDetails (tables.forM (policy.checkAnnotations owner)) := fun _ =>
    .forM (policy.exposesOnly_checkAnnotations owner)
  refine (policy.exposesOnly_checkMember owner (.methodType owner) (fun _ => not_false) _ _).bind
    fun _ => ?_
  refine (policy.exposesOnly_checkAnnotations owner _).bind fun _ => ?_
  refine (htables _).bind fun _ => (htables _).bind fun _ => ?_
  split
  · exact policy.exposesOnly_checkValue owner _
  · exact .ok ()

/-- Checking a field exposes details. -/
theorem exposesOnly_checkField (field : SurfaceField) :
    ExposesOnly Exposure.OfDetails (policy.checkField owner field) :=
  (policy.exposesOnly_checkMember owner (.fieldType owner) (fun _ => not_false) _ _).bind fun _ =>
    policy.exposesOnly_checkAnnotations owner _

end PackagePolicy

namespace ApiRules

variable {kind : Exposure → Prop} (rules : ApiRules)

/-- A check that is not made exposes nothing. -/
theorem exposesOnly_whenChecked {check : Except ApiError Unit} (hcheck : ExposesOnly kind check) :
    ExposesOnly kind (rules.whenChecked check) := by
  unfold whenChecked
  split
  · exact hcheck
  · exact .ok ()

theorem exposesOnly_checkMethod (method : Method) :
    ExposesOnly Exposure.OfDetails (rules.checkMethod method) :=
  (ExposesOnly.orMalformed _).bind fun owner =>
    rules.exposesOnly_whenChecked (rules.policy.exposesOnly_checkMethod owner _)

theorem exposesOnly_checkField (field : Field) :
    ExposesOnly Exposure.OfDetails (rules.checkField field) :=
  (ExposesOnly.orMalformed _).bind fun owner =>
    rules.exposesOnly_whenChecked (rules.policy.exposesOnly_checkField owner _)

/-- The checks behind that of the supertypes. -/
def checkDetails (rules : ApiRules) (file : ClassFile) : Except ApiError Unit := do
  rules.whenChecked
    (rules.policy.checkAnnotations (ClassName.toBinary file.header.name) file.retainedAnnotations)
  (file.apiMethods rules.policy).forM rules.checkMethod
  (file.apiFields rules.policy).forM rules.checkField

/-- A class is checked for its supertypes and then for its details. -/
theorem check_eq_details (file : ClassFile) :
    rules.check file = (do
      rules.whenChecked (rules.policy.checkSupertypes file)
      rules.checkDetails file) :=
  rfl

/-- **Only the check of the supertypes finds types among them.** -/
theorem exposesOnly_checkDetails (file : ClassFile) :
    ExposesOnly Exposure.OfDetails (rules.checkDetails file) := by
  refine (rules.exposesOnly_whenChecked (rules.policy.exposesOnly_checkAnnotations _ _)).bind
    fun _ => ?_
  refine (ExposesOnly.forM rules.exposesOnly_checkMethod).bind fun _ => ?_
  exact .forM rules.exposesOnly_checkField

/-- Checks fail for malformed texts and for exposures. -/
theorem exposesOnly_check (file : ClassFile) :
    ExposesOnly (fun _ => True) (rules.check file) := by
  have hsupertypes := rules.exposesOnly_whenChecked (rules.policy.exposesOnly_checkSupertypes file)
  refine (hsupertypes.mono fun _ _ => trivial).bind fun _ => ?_
  exact (rules.exposesOnly_checkDetails file).mono fun _ _ => trivial

end ApiRules

end ClassStub
