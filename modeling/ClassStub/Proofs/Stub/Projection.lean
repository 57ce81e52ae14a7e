import Mathlib
import ClassStub.Proofs.Stub.Surface

/-!
# The projection of a class to its API

What the stub of a class is meant to be, said without the way it is made
(`Projects`): the header as it is, the members that count as API in stable order
behind a helper, and all annotations in normal form.  Every stub decodes to a
class that is the projection of the class it was made from
(`ApiRules.stub_projects`).
-/

namespace ClassStub

open Annotation

/-! ## What a stub keeps -/

/-- The method of a stub for a method of the API. -/
structure ProjectsMethod (original method : Method) : Prop where
  flags_eq : method.flags =
    if original.flags.has .accAbstract then original.flags else original.flags &&& ~~~.accNative
  name_eq : method.name = original.name
  descriptor_eq : method.descriptor = original.descriptor
  signature_eq : method.signature = original.signature
  exceptions_eq : method.exceptions = original.exceptions
  deprecated_eq : method.deprecated = original.deprecated
  visible : NormalTable original.visibleAnnotations method.visibleAnnotations
  invisible : NormalTable original.invisibleAnnotations method.invisibleAnnotations
  visibleParameters : Option.Rel (List.Forall₂ NormalTable)
    original.visibleParameterAnnotations method.visibleParameterAnnotations
  invisibleParameters : Option.Rel (List.Forall₂ NormalTable)
    original.invisibleParameterAnnotations method.invisibleParameterAnnotations
  default_eq : method.annotationDefault = original.annotationDefault.map ElementValue.normalize
  code : method.code.isSome = !original.flags.has .accAbstract

/-- The field of a stub for a field of the API. -/
structure ProjectsField (original field : Field) : Prop where
  flags_eq : field.flags = original.flags
  name_eq : field.name = original.name
  descriptor_eq : field.descriptor = original.descriptor
  signature_eq : field.signature = original.signature
  constantValue_eq : field.constantValue = none
  deprecated_eq : field.deprecated = original.deprecated
  visible : NormalTable original.visibleAnnotations field.visibleAnnotations
  invisible : NormalTable original.invisibleAnnotations field.invisibleAnnotations

/-- The methods that a stub has besides those of the API: the helper, which an
interface cannot have. -/
def ProjectsHelpers (header : ClassHeader) (helpers : List Method) : Prop :=
  if header.isInterface then helpers = []
  else ∃ code, helpers = [{ Stub.helper with code := some code }]

/-- The stub of a class under a policy. -/
structure Projects (policy : PackagePolicy) (file stub : ClassFile) : Prop where
  header_eq : stub.header = file.header
  signature_eq : stub.signature = file.signature
  deprecated_eq : stub.deprecated = file.deprecated
  visible : NormalTable file.visibleAnnotations stub.visibleAnnotations
  invisible : NormalTable file.invisibleAnnotations stub.invisibleAnnotations
  methods : ∃ helpers kept methods, stub.methods = helpers ++ methods ∧
    ProjectsHelpers file.header helpers ∧
    StableSort (lexLe textLe textLe) Method.key
      (file.methods.filter (KeepsMethod policy file.header ·)) kept ∧
    List.Forall₂ ProjectsMethod kept methods
  fields : ∃ kept, StableSort (lexLe textLe textLe) Field.key
      (file.fields.filter fun field => policy.isVisible field.flags) kept ∧
    List.Forall₂ ProjectsField kept stub.fields
  innerClasses : StableSort textLe InnerClass.name
    (file.innerClasses.filter (KeepsInnerClass policy ·)) stub.innerClasses

/-! ## What a stub declares -/

/-- A declared method that is shown is a projection of the original. -/
theorem projectsMethod_of_declares {pool : Pool} {header : ClassHeader} {original method : Method}
    (hdeclared : Stub.Declares pool (Stub.method original.surface,
      Stub.instructions header (Stub.method original.surface)) method) :
    ProjectsMethod original method := by
  rcases hdeclared with ⟨code, rfl, hcode⟩
  have hsome : code.isSome = !original.flags.has .accAbstract := by
    have habstract : (Stub.method original.surface).flags.has .accAbstract =
        original.flags.has .accAbstract := Stub.has_abstract original.surface
    simp only [Stub.instructions, habstract] at hcode
    cases hflag : original.flags.has .accAbstract with
    | true =>
      rw [hflag, if_pos rfl] at hcode
      cases hcode
      rfl
    | false =>
      rw [hflag, if_neg Bool.false_ne_true] at hcode
      cases hcode
      rfl
  exact {
    flags_eq := rfl
    name_eq := rfl
    descriptor_eq := rfl
    signature_eq := rfl
    exceptions_eq := rfl
    deprecated_eq := rfl
    visible := Retained.normalTable_select_visible _ _
    invisible := Retained.normalTable_select_invisible _ _
    visibleParameters := normalTables_retainParameters true _
    invisibleParameters := normalTables_retainParameters false _
    default_eq := rfl
    code := hsome }

/-- The field of a stub is a projection of the original. -/
theorem projectsField_field (original : Field) :
    ProjectsField original (Stub.field original.surface) where
  flags_eq := rfl
  name_eq := rfl
  descriptor_eq := rfl
  signature_eq := rfl
  constantValue_eq := rfl
  deprecated_eq := rfl
  visible := Retained.normalTable_select_visible _ _
  invisible := Retained.normalTable_select_invisible _ _

/-- The methods of a stub are the helper, if any, and those of the surface. -/
theorem projectsMethods_of_declares {pool : Pool} {surface : Surface} {kept declared : List Method}
    (hkept : surface.methods = kept.map Method.surface)
    (hdeclared : List.Forall₂ (Stub.Declares pool) (Stub.declarations surface) declared) :
    ∃ helpers methods, declared = helpers ++ methods ∧ ProjectsHelpers surface.header helpers ∧
      List.Forall₂ ProjectsMethod kept methods := by
  rw [Stub.declarations, hkept, List.map_map] at hdeclared
  cases hinterface : surface.header.isInterface with
  | true =>
    rw [hinterface, if_pos rfl, List.nil_append, List.forall₂_map_left_iff] at hdeclared
    refine ⟨[], declared, rfl, ?_, ?_⟩
    · rw [ProjectsHelpers, if_pos hinterface]
    · exact hdeclared.imp fun _ _ => projectsMethod_of_declares
  | false =>
    rw [hinterface, if_neg Bool.false_ne_true, List.singleton_append,
      List.forall₂_cons_left_iff] at hdeclared
    rcases hdeclared with ⟨helper, methods, hhelper, hmethods, hsame⟩
    rcases hhelper with ⟨code, rfl, hcode⟩
    refine ⟨[_], methods, hsame, ?_, ?_⟩
    · rw [ProjectsHelpers, if_neg (by simp [hinterface])]
      cases hcode with
      | some _ => exact ⟨_, rfl⟩
    · rw [List.forall₂_map_left_iff] at hmethods
      exact hmethods.imp fun _ _ => projectsMethod_of_declares

/-- What shows the surface of a class is the projection of the class. -/
theorem projects_of_shows {policy : PackagePolicy} {file stub : ClassFile}
    (hshown : Stub.Shows stub (file.surface policy)) : Projects policy file stub := by
  obtain ⟨keptMethods, hmethods, hsurfaceMethods⟩ := file.surface_methods policy
  obtain ⟨keptFields, hfields, hsurfaceFields⟩ := file.surface_fields policy
  obtain ⟨helpers, methods, hsame, hhelpers, hprojected⟩ :=
    projectsMethods_of_declares hsurfaceMethods hshown.methods_declared
  exact {
    header_eq := hshown.header_eq
    signature_eq := hshown.signature_eq
    deprecated_eq := hshown.deprecated_eq
    visible := hshown.visible_eq ▸ Retained.normalTable_select_visible _ _
    invisible := hshown.invisible_eq ▸ Retained.normalTable_select_invisible _ _
    methods := ⟨helpers, keptMethods, methods, hsame, hhelpers, hmethods, hprojected⟩
    fields := by
      refine ⟨keptFields, hfields, ?_⟩
      rw [hshown.fields_eq, hsurfaceFields, List.map_map, List.forall₂_map_right_iff,
        List.forall₂_same]
      exact fun original _ => projectsField_field original
    innerClasses := hshown.innerClasses_eq ▸ file.surface_innerClasses policy }

/-! ## Every stub is a projection -/

namespace ApiRules

/-- **Every stub is the projection of its class.** Whatever bytes a stub was
made from decode to a class, and the stub decodes to the projection of that
class to its API. -/
theorem stub_projects (rules : ApiRules) (bytes stub : List UInt8)
    (hstub : rules.stub bytes = .ok stub) :
    ∃ file stubFile, ClassFile.decode bytes = .ok file ∧ ClassFile.decode stub = .ok stubFile ∧
      Projects rules.policy file stubFile := by
  obtain ⟨file, stubFile, hfile, _, _, hstubFile, hshown, _⟩ := shows_of_stub hstub
  exact ⟨file, stubFile, hfile, hstubFile, projects_of_shows hshown⟩

/-- The interface `p.A` with an abstract method `b`, a private method `c` and an
abstract method `a`. -/
def sampleInterface : List UInt8 :=
  [0xca, 0xfe, 0xba, 0xbe, 0x00, 0x00, 0x00, 0x34, 0x00, 0x07, 0x01, 0x00, 0x01, 0x62, 0x01,
    0x00, 0x03, 0x28, 0x29, 0x56, 0x01, 0x00, 0x01, 0x63, 0x01, 0x00, 0x01, 0x61, 0x01, 0x00,
    0x03, 0x70, 0x2f, 0x41, 0x07, 0x00, 0x05, 0x06, 0x01, 0x00, 0x06, 0x00, 0x00, 0x00, 0x00,
    0x00, 0x00, 0x00, 0x03, 0x04, 0x01, 0x00, 0x01, 0x00, 0x02, 0x00, 0x00, 0x00, 0x02, 0x00,
    0x03, 0x00, 0x02, 0x00, 0x00, 0x04, 0x01, 0x00, 0x04, 0x00, 0x02, 0x00, 0x00, 0x00, 0x00]

/-- The stub of the sample: `a` comes before `b`, and `c` is left out. -/
def sampleStub : List UInt8 :=
  [0xca, 0xfe, 0xba, 0xbe, 0x00, 0x00, 0x00, 0x34, 0x00, 0x06, 0x01, 0x00, 0x03, 0x70, 0x2f,
    0x41, 0x07, 0x00, 0x01, 0x01, 0x00, 0x01, 0x61, 0x01, 0x00, 0x03, 0x28, 0x29, 0x56, 0x01,
    0x00, 0x01, 0x62, 0x06, 0x01, 0x00, 0x02, 0x00, 0x00, 0x00, 0x00, 0x00, 0x00, 0x00, 0x02,
    0x04, 0x01, 0x00, 0x03, 0x00, 0x04, 0x00, 0x00, 0x04, 0x01, 0x00, 0x05, 0x00, 0x04, 0x00,
    0x00, 0x00, 0x00]

theorem stub_sampleInterface :
    (ofPackages ["p"] true).stub sampleInterface = .ok sampleStub := by
  cbv

theorem stub_projects_sampleInterface :
    (ofPackages ["p"] true).stub sampleInterface = .ok sampleStub ∧
      ∃ file stubFile, ClassFile.decode sampleInterface = .ok file ∧
        ClassFile.decode sampleStub = .ok stubFile ∧
          Projects (PackagePolicy.ofList ["p"]) file stubFile :=
  ⟨stub_sampleInterface, stub_projects (ofPackages ["p"] true) sampleInterface sampleStub
    stub_sampleInterface⟩

end ApiRules

end ClassStub
