import ClassStub.ClassFile.Equality
import ClassStub.Proofs.Stub.Checking
import ClassStub.Proofs.Stub.Surface

/-!
# Implementations do not matter

Two classes agree on their API if they have the same header and class-wide
attributes, and if the same members and inner classes are kept of them, in the
same order, up to code and values of constants (`ClassFile.AgreesOnApi`).  All
that decides about a stub, from the checks with their messages to the last byte
that is written, is read off what they agree on, so they have the same stub or
the same reason against one (`ApiRules.stub_implementation_independent`).
-/

namespace ClassStub

/-- All of a method but its code. -/
def Method.withoutCode (method : Method) : Method :=
  { method with code := none }

/-- All of a field but its constant value. -/
def Field.withoutValue (field : Field) : Field :=
  { field with constantValue := none }

/-- Classes that differ only in code, in values of constants, in members and
records of inner classes that are left out, and in their pools. -/
structure ClassFile.AgreesOnApi (policy : PackagePolicy) (file other : ClassFile) : Prop where
  header_eq : file.header = other.header
  signature_eq : file.signature = other.signature
  deprecated_eq : file.deprecated = other.deprecated
  visible_eq : file.visibleAnnotations = other.visibleAnnotations
  invisible_eq : file.invisibleAnnotations = other.invisibleAnnotations
  methods_eq :
    (file.methods.filter (KeepsMethod policy file.header ·)).map Method.withoutCode =
      (other.methods.filter (KeepsMethod policy other.header ·)).map Method.withoutCode
  fields_eq :
    (file.fields.filter fun field => policy.isVisible field.flags).map Field.withoutValue =
      (other.fields.filter fun field => policy.isVisible field.flags).map Field.withoutValue
  innerClasses_eq : file.innerClasses.filter (KeepsInnerClass policy ·) =
    other.innerClasses.filter (KeepsInnerClass policy ·)

instance (policy : PackagePolicy) (file other : ClassFile) :
    Decidable (file.AgreesOnApi policy other) :=
  decidable_of_iff (file.header = other.header ∧ file.signature = other.signature ∧
      file.deprecated = other.deprecated ∧ file.visibleAnnotations = other.visibleAnnotations ∧
      file.invisibleAnnotations = other.invisibleAnnotations ∧
      (file.methods.filter (KeepsMethod policy file.header ·)).map Method.withoutCode =
        (other.methods.filter (KeepsMethod policy other.header ·)).map Method.withoutCode ∧
      (file.fields.filter fun field => policy.isVisible field.flags).map Field.withoutValue =
        (other.fields.filter fun field => policy.isVisible field.flags).map Field.withoutValue ∧
      file.innerClasses.filter (KeepsInnerClass policy ·) =
        other.innerClasses.filter (KeepsInnerClass policy ·))
    ⟨fun ⟨header, signature, deprecated, visible, invisible, methods, fields, innerClasses⟩ =>
        ⟨header, signature, deprecated, visible, invisible, methods, fields, innerClasses⟩,
      fun ⟨header, signature, deprecated, visible, invisible, methods, fields, innerClasses⟩ =>
        ⟨header, signature, deprecated, visible, invisible, methods, fields, innerClasses⟩⟩

/-- Code is not part of a surface. -/
theorem Method.map_surface_withoutCode (methods : List Method) :
    (methods.map withoutCode).map surface = methods.map surface := by
  rw [List.map_map]
  rfl

/-- The value of a constant is not part of a surface. -/
theorem Field.map_surface_withoutValue (fields : List Field) :
    (fields.map withoutValue).map surface = fields.map surface := by
  rw [List.map_map]
  rfl

namespace ApiRules

/-- The checks of methods, with their messages, are checks of surfaces. -/
theorem forM_checkMethod (rules : ApiRules) (methods : List Method) :
    methods.forM rules.checkMethod =
      (methods.map Method.surface).forM rules.checkSurfaceMethod := by
  rw [List.forM_eq_forM, List.forM_eq_forM, List.forM_map]
  rfl

/-- Fields are checked by their surfaces. -/
theorem forM_checkField (rules : ApiRules) (fields : List Field) :
    fields.forM rules.checkField = (fields.map Field.surface).forM rules.checkSurfaceField := by
  rw [List.forM_eq_forM, List.forM_eq_forM, List.forM_map]
  rfl

end ApiRules

namespace ClassFile.AgreesOnApi

variable {file other : ClassFile}

/-- Classes that agree have the same methods in their surfaces. -/
theorem surfaceMethods_eq {policy : PackagePolicy} (hagree : file.AgreesOnApi policy other) :
    (file.apiMethods policy).map Method.surface = (other.apiMethods policy).map Method.surface := by
  rw [file.apiMethods_eq, other.apiMethods_eq, ← Method.map_surface_withoutCode,
    hagree.methods_eq, Method.map_surface_withoutCode]

theorem surfaceFields_eq {policy : PackagePolicy} (hagree : file.AgreesOnApi policy other) :
    (file.apiFields policy).map Field.surface = (other.apiFields policy).map Field.surface := by
  change (file.fields.filter fun field => policy.isVisible field.flags).map Field.surface =
    (other.fields.filter fun field => policy.isVisible field.flags).map Field.surface
  rw [← Field.map_surface_withoutValue, hagree.fields_eq, Field.map_surface_withoutValue]

theorem annotations_eq {policy : PackagePolicy} (hagree : file.AgreesOnApi policy other) :
    file.retainedAnnotations = other.retainedAnnotations := by
  rw [retainedAnnotations, retainedAnnotations, hagree.visible_eq, hagree.invisible_eq]

/-- Classes that agree have the same surface. -/
theorem surface_eq {policy : PackagePolicy} (hagree : file.AgreesOnApi policy other) :
    file.surface policy = other.surface policy := by
  rw [surface, surface, hagree.header_eq, hagree.signature_eq, hagree.deprecated_eq,
    hagree.annotations_eq, hagree.surfaceMethods_eq, hagree.surfaceFields_eq,
    file.filter_innerClasses_eq, other.filter_innerClasses_eq, hagree.innerClasses_eq]

/-- Classes that agree on their API pass the same checks or fail with the same
error. -/
theorem check_eq {rules : ApiRules} (hagree : file.AgreesOnApi rules.policy other) :
    rules.check file = rules.check other := by
  unfold ApiRules.check
  rw [ApiRules.checkSupertypes_congr rules.policy hagree.header_eq hagree.signature_eq,
    hagree.header_eq, hagree.annotations_eq, rules.forM_checkMethod, rules.forM_checkMethod,
    rules.forM_checkField, rules.forM_checkField, hagree.surfaceMethods_eq,
    hagree.surfaceFields_eq]

end ClassFile.AgreesOnApi

namespace ApiRules

/-- **Implementations do not matter.** From the bytes of classes that agree on
their API the same stubs are made, or none for the same reason. -/
theorem stub_implementation_independent (rules : ApiRules) (bytes others : List UInt8)
    (file other : ClassFile) (hfile : ClassFile.decode bytes = .ok file)
    (hother : ClassFile.decode others = .ok other)
    (hagree : file.AgreesOnApi rules.policy other) : rules.stub bytes = rules.stub others := by
  have hextract : rules.extract file = rules.extract other := by
    rw [extract, extract, hagree.check_eq, hagree.surface_eq]
  rw [stub, stub, hfile, hother]
  change (rules.extract file >>= _) = (rules.extract other >>= _)
  rw [hextract]

/-- The class `q.A` with a method `f`, a private method `g`, an initialiser and
the constant `k = 1`. -/
def sampleClass : List UInt8 :=
  [0xca, 0xfe, 0xba, 0xbe, 0x00, 0x00, 0x00, 0x34, 0x00, 0x0c, 0x01, 0x00, 0x04, 0x43, 0x6f,
    0x64, 0x65, 0x01, 0x00, 0x01, 0x66, 0x01, 0x00, 0x03, 0x28, 0x29, 0x56, 0x01, 0x00, 0x01,
    0x67, 0x01, 0x00, 0x08, 0x3c, 0x63, 0x6c, 0x69, 0x6e, 0x69, 0x74, 0x3e, 0x03, 0x00, 0x00,
    0x00, 0x01, 0x01, 0x00, 0x0d, 0x43, 0x6f, 0x6e, 0x73, 0x74, 0x61, 0x6e, 0x74, 0x56, 0x61,
    0x6c, 0x75, 0x65, 0x01, 0x00, 0x01, 0x6b, 0x01, 0x00, 0x01, 0x49, 0x01, 0x00, 0x03, 0x71,
    0x2f, 0x41, 0x07, 0x00, 0x0a, 0x00, 0x21, 0x00, 0x0b, 0x00, 0x00, 0x00, 0x00, 0x00, 0x01,
    0x00, 0x19, 0x00, 0x08, 0x00, 0x09, 0x00, 0x01, 0x00, 0x07, 0x00, 0x00, 0x00, 0x02, 0x00,
    0x06, 0x00, 0x03, 0x00, 0x01, 0x00, 0x02, 0x00, 0x03, 0x00, 0x01, 0x00, 0x01, 0x00, 0x00,
    0x00, 0x0d, 0x00, 0x00, 0x00, 0x01, 0x00, 0x00, 0x00, 0x01, 0xb1, 0x00, 0x00, 0x00, 0x00,
    0x00, 0x02, 0x00, 0x04, 0x00, 0x03, 0x00, 0x01, 0x00, 0x01, 0x00, 0x00, 0x00, 0x0d, 0x00,
    0x00, 0x00, 0x01, 0x00, 0x00, 0x00, 0x01, 0xb1, 0x00, 0x00, 0x00, 0x00, 0x00, 0x08, 0x00,
    0x05, 0x00, 0x03, 0x00, 0x01, 0x00, 0x01, 0x00, 0x00, 0x00, 0x0d, 0x00, 0x00, 0x00, 0x00,
    0x00, 0x00, 0x00, 0x01, 0xb1, 0x00, 0x00, 0x00, 0x00, 0x00, 0x00]

/-- The class `q.A` with another body of `f`, a private field `h`, the constant
`k = 2` and a record of the inner class `B` that is visible in its package. -/
def sampleRebuilt : List UInt8 :=
  [0xca, 0xfe, 0xba, 0xbe, 0x00, 0x00, 0x00, 0x34, 0x00, 0x0f, 0x01, 0x00, 0x04, 0x43, 0x6f,
    0x64, 0x65, 0x01, 0x00, 0x01, 0x66, 0x01, 0x00, 0x03, 0x28, 0x29, 0x56, 0x01, 0x00, 0x01,
    0x68, 0x01, 0x00, 0x01, 0x4a, 0x03, 0x00, 0x00, 0x00, 0x02, 0x01, 0x00, 0x0d, 0x43, 0x6f,
    0x6e, 0x73, 0x74, 0x61, 0x6e, 0x74, 0x56, 0x61, 0x6c, 0x75, 0x65, 0x01, 0x00, 0x01, 0x6b,
    0x01, 0x00, 0x01, 0x49, 0x01, 0x00, 0x01, 0x42, 0x07, 0x00, 0x0a, 0x01, 0x00, 0x0c, 0x49,
    0x6e, 0x6e, 0x65, 0x72, 0x43, 0x6c, 0x61, 0x73, 0x73, 0x65, 0x73, 0x01, 0x00, 0x03, 0x71,
    0x2f, 0x41, 0x07, 0x00, 0x0d, 0x00, 0x21, 0x00, 0x0e, 0x00, 0x00, 0x00, 0x00, 0x00, 0x02,
    0x00, 0x02, 0x00, 0x04, 0x00, 0x05, 0x00, 0x00, 0x00, 0x19, 0x00, 0x08, 0x00, 0x09, 0x00,
    0x01, 0x00, 0x07, 0x00, 0x00, 0x00, 0x02, 0x00, 0x06, 0x00, 0x01, 0x00, 0x01, 0x00, 0x02,
    0x00, 0x03, 0x00, 0x01, 0x00, 0x01, 0x00, 0x00, 0x00, 0x0e, 0x00, 0x00, 0x00, 0x01, 0x00,
    0x00, 0x00, 0x02, 0x00, 0xb1, 0x00, 0x00, 0x00, 0x00, 0x00, 0x01, 0x00, 0x0c, 0x00, 0x00,
    0x00, 0x0a, 0x00, 0x01, 0x00, 0x0b, 0x00, 0x00, 0x00, 0x00, 0x00, 0x00]

/-- The sample agrees with itself, rebuilt with other code. -/
theorem agreesOnApi_sampleRebuilt : ∃ file other, ClassFile.decode sampleClass = .ok file ∧
    ClassFile.decode sampleRebuilt = .ok other ∧
      file.AgreesOnApi (PackagePolicy.ofList ["q"]) other := by
  have hagree : ((ClassFile.decode sampleClass).toOption.bind fun file =>
      (ClassFile.decode sampleRebuilt).toOption.map fun other =>
        decide (file.AgreesOnApi (PackagePolicy.ofList ["q"]) other)) = some true := by
    decide +kernel
  cases hfile : ClassFile.decode sampleClass with
  | error cause =>
    rw [hfile] at hagree
    cases hagree
  | ok file =>
    cases hother : ClassFile.decode sampleRebuilt with
    | error cause =>
      rw [hfile, hother] at hagree
      cases hagree
    | ok other =>
      rw [hfile, hother] at hagree
      exact ⟨file, other, rfl, rfl, of_decide_eq_true (Option.some.inj hagree)⟩

/-- The rebuilt sample has the same stub. -/
theorem stub_implementation_independent_sampleRebuilt :
    ∃ file other, ClassFile.decode sampleClass = .ok file ∧
      ClassFile.decode sampleRebuilt = .ok other ∧
        file.AgreesOnApi (PackagePolicy.ofList ["q"]) other ∧
          (ofPackages ["q"] true).stub sampleClass =
            (ofPackages ["q"] true).stub sampleRebuilt := by
  obtain ⟨file, other, hfile, hother, hagree⟩ := agreesOnApi_sampleRebuilt
  exact ⟨file, other, hfile, hother, hagree,
    stub_implementation_independent (ofPackages ["q"] true) _ _ file other hfile hother hagree⟩

end ApiRules

end ClassStub
