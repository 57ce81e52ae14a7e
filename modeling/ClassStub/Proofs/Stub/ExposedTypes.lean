import Mathlib
import ClassStub.ClassFile.Equality
import ClassStub.Proofs.Stub.Admission
import ClassStub.Proofs.Stub.Projection

/-!
# The types that a stub names

Under a declared policy with checks, the members of a stub name permitted
classes only (`ApiRules.stub_namesPermitted`).  What a member names is said by its
generic signature if it has one; its descriptor then goes unchecked, and so do
the exceptions that a method declares (`ApiRules.forbidden_sampleHidden`).
-/

namespace ClassStub

/-- The classes that the members of a class name are permitted: those of the
generic signature of a member, or else those of its descriptor. -/
structure ClassFile.NamesPermitted (file : ClassFile) (policy : PackagePolicy) : Prop where
  methods : ∀ method ∈ file.methods,
    policy.PermitsSignature (method.signature.getD method.descriptor)
  fields : ∀ field ∈ file.fields,
    policy.PermitsSignature (field.signature.getD field.descriptor)

/-! ## The members of a projection -/

/-- The helper names no class but that of the exception, which is in the base
module. -/
theorem PackagePolicy.permitsSignature_helper (policy : PackagePolicy) :
    policy.PermitsSignature Stub.helperDescriptor := by
  have hclasses : distinctOuterClasses Stub.helperDescriptor = .ok [Stub.exceptionClass] := by
    cbv
  refine ⟨_, hclasses, ?_⟩
  have hpackage : ClassName.packageName (ClassName.toBinary Stub.exceptionClass) = "java.lang" := by
    cbv
  rw [List.forall_mem_singleton, PackagePolicy.Permits, hpackage]
  exact .inl (by decide)

namespace Projects

variable {policy : PackagePolicy} {file stub : ClassFile}

/-- A method of a projection is the helper, or it projects a method that counts
as API. -/
theorem mem_methods (hprojects : Projects policy file stub) {method : Method}
    (hmethod : method ∈ stub.methods) :
    (∃ code, method = { Stub.helper with code := some code }) ∨
      ∃ original ∈ file.methods, KeepsMethod policy file.header original ∧
        ProjectsMethod original method := by
  obtain ⟨helpers, kept, methods, hsame, hhelpers, hsorted, hprojected⟩ := hprojects.methods
  rw [hsame, List.mem_append] at hmethod
  rcases hmethod with hhelper | hmethod
  · rw [ProjectsHelpers] at hhelpers
    split at hhelpers
    · simp [hhelpers] at hhelper
    · obtain ⟨code, rfl⟩ := hhelpers
      exact .inl ⟨code, List.mem_singleton.1 hhelper⟩
  · obtain ⟨original, horiginal, hprojection⟩ := exists_of_forall₂ hprojected hmethod
    have hkept := (hsorted.perm keyOrder_member).mem_iff.1 horiginal
    rw [List.mem_filter, decide_eq_true_eq] at hkept
    exact .inr ⟨original, hkept.1, hkept.2, hprojection⟩

/-- Each field of a projection comes from a visible one of the class. -/
theorem mem_fields (hprojects : Projects policy file stub) {field : Field}
    (hfield : field ∈ stub.fields) :
    ∃ original ∈ file.fields, policy.isVisible original.flags ∧ ProjectsField original field := by
  obtain ⟨kept, hsorted, hprojected⟩ := hprojects.fields
  obtain ⟨original, horiginal, hprojection⟩ := exists_of_forall₂ hprojected hfield
  have hkept := (hsorted.perm keyOrder_member).mem_iff.1 horiginal
  rw [List.mem_filter] at hkept
  exact ⟨original, hkept.1, hkept.2, hprojection⟩

/-- The members of a projection name what the members of the class name, which
an admissible class may. -/
theorem namesPermitted (hprojects : Projects policy file stub)
    (hadmissible : file.Admissible policy) : stub.NamesPermitted policy where
  methods := by
    intro method hmethod
    rcases hprojects.mem_methods hmethod with ⟨code, rfl⟩ | ⟨original, horiginal, hkept, hsame⟩
    · exact policy.permitsSignature_helper
    · rw [hsame.signature_eq, hsame.descriptor_eq]
      exact (hadmissible.methods original horiginal hkept).types
  fields := by
    intro field hfield
    obtain ⟨original, horiginal, hvisible, hsame⟩ := hprojects.mem_fields hfield
    rw [hsame.signature_eq, hsame.descriptor_eq]
    exact (hadmissible.fields original horiginal hvisible).types

end Projects

namespace ApiRules

/-- **No forbidden class is named.** The stub that is made under a declared policy
with checks decodes to a class whose members name permitted classes only. -/
theorem stub_namesPermitted (rules : ApiRules) (bytes stub : List UInt8)
    (hvalidate : rules.validate = true) (hdeclared : rules.policy.packages ≠ [])
    (hstub : rules.stub bytes = .ok stub) :
    ∃ stubFile, ClassFile.decode stub = .ok stubFile ∧ stubFile.NamesPermitted rules.policy := by
  obtain ⟨file, stubFile, _, hcheck, _, hstubFile, hshown, _⟩ := shows_of_stub hstub
  have hadmissible := (check_eq_ok_iff_admissible hvalidate hdeclared file).1 hcheck
  exact ⟨stubFile, hstubFile, (projects_of_shows hshown).namesPermitted hadmissible⟩

/-- The interface `p.A` with a field `f` of the type `q.B` that its signature
calls `p.A`, a method `m` that takes a `q.B` but whose signature takes nothing,
and a method `n` that throws `q.E`. -/
def sampleHidden : List UInt8 :=
  [0xca, 0xfe, 0xba, 0xbe, 0x00, 0x00, 0x00, 0x34, 0x00, 0x10, 0x01, 0x00, 0x03, 0x70, 0x2f, 0x41,
    0x07, 0x00, 0x01, 0x01, 0x00, 0x10, 0x6a, 0x61, 0x76, 0x61, 0x2f, 0x6c, 0x61, 0x6e, 0x67,
    0x2f, 0x4f, 0x62, 0x6a, 0x65, 0x63, 0x74, 0x07, 0x00, 0x03, 0x01, 0x00, 0x01, 0x6d, 0x01,
    0x00, 0x08, 0x28, 0x4c, 0x71, 0x2f, 0x42, 0x3b, 0x29, 0x56, 0x01, 0x00, 0x09, 0x53, 0x69,
    0x67, 0x6e, 0x61, 0x74, 0x75, 0x72, 0x65, 0x01, 0x00, 0x03, 0x28, 0x29, 0x56, 0x01, 0x00,
    0x01, 0x6e, 0x01, 0x00, 0x0a, 0x45, 0x78, 0x63, 0x65, 0x70, 0x74, 0x69, 0x6f, 0x6e, 0x73,
    0x01, 0x00, 0x03, 0x71, 0x2f, 0x45, 0x07, 0x00, 0x0b, 0x01, 0x00, 0x01, 0x66, 0x01, 0x00,
    0x05, 0x4c, 0x71, 0x2f, 0x42, 0x3b, 0x01, 0x00, 0x05, 0x4c, 0x70, 0x2f, 0x41, 0x3b, 0x06,
    0x01, 0x00, 0x02, 0x00, 0x04, 0x00, 0x00, 0x00, 0x01, 0x00, 0x19, 0x00, 0x0d, 0x00, 0x0e,
    0x00, 0x01, 0x00, 0x07, 0x00, 0x00, 0x00, 0x02, 0x00, 0x0f, 0x00, 0x02, 0x04, 0x01, 0x00,
    0x05, 0x00, 0x06, 0x00, 0x01, 0x00, 0x07, 0x00, 0x00, 0x00, 0x02, 0x00, 0x08, 0x04, 0x01,
    0x00, 0x09, 0x00, 0x08, 0x00, 0x01, 0x00, 0x0a, 0x00, 0x00, 0x00, 0x04, 0x00, 0x01, 0x00,
    0x0c, 0x00, 0x00]

/-- What the sample decodes to. -/
def sampleHiddenFile (pool : Pool) : ClassFile where
  header := {
    version := { major := 52, minor := 0 }
    flags := .accPublic ||| .accInterface ||| .accAbstract
    name := "p/A"
    superName := some "java/lang/Object"
    interfaces := [] }
  fields := [{
    flags := .accPublic ||| .accStatic ||| .accFinal
    name := "f"
    descriptor := "Lq/B;"
    signature := some "Lp/A;" }]
  methods := [
    { flags := .accPublic ||| .accAbstract
      name := "m"
      descriptor := "(Lq/B;)V"
      signature := some "()V" },
    { flags := .accPublic ||| .accAbstract
      name := "n"
      descriptor := "()V"
      exceptions := ["q/E"] }]
  pool

theorem decode_sampleHidden :
    ∃ pool, ClassFile.decode sampleHidden = .ok (sampleHiddenFile pool) := by
  exact ClassFile.exists_decode_eq (sampleHiddenFile ⟨#[]⟩) (by decide +kernel)

/-- Where exposed types are looked for, the sample has only `java.lang.Object` and
`p.A`. -/
theorem admissible_sampleHiddenFile (pool : Pool) :
    (sampleHiddenFile pool).Admissible (ofPackages ["p"] true).policy where
  superclass := by
    have hpackage : ClassName.packageName (ClassName.toBinary "java/lang/Object") = "java.lang" := by
      cbv
    intro name hname
    cases hname
    rw [PackagePolicy.Permits, hpackage]
    exact .inl (by decide)
  interfaces := List.forall_mem_nil _
  signature := by simp [sampleHiddenFile]
  annotations := List.forall_mem_nil _
  methods := by
    have hplain : (ofPackages ["p"] true).policy.PermitsSignature "()V" :=
      ⟨[], by cbv, List.forall_mem_nil _⟩
    intro method hmethod _
    simp only [sampleHiddenFile, List.mem_cons, List.not_mem_nil, or_false] at hmethod
    rcases hmethod with rfl | rfl
    · exact {
        descriptor := ⟨⟨[.object ⟨"q/B", by decide, by decide⟩], none⟩, by cbv⟩
        types := hplain
        annotations := List.forall_mem_nil _
        parameterAnnotations := List.forall_mem_nil _
        annotationDefault := by simp }
    · exact {
        descriptor := ⟨⟨[], none⟩, by cbv⟩
        types := hplain
        annotations := List.forall_mem_nil _
        parameterAnnotations := List.forall_mem_nil _
        annotationDefault := by simp }
  fields := by
    have hpackage : ClassName.packageName (ClassName.toBinary "p/A") = "p" := by cbv
    have htype : (ofPackages ["p"] true).policy.PermitsSignature "Lp/A;" := by
      refine ⟨["p/A"], by cbv, ?_⟩
      rw [List.forall_mem_singleton, PackagePolicy.Permits, hpackage]
      exact .inr (by decide)
    intro field hfield _
    cases List.mem_singleton.1 hfield
    exact { descriptor := ⟨"q.B", by cbv⟩, types := htype, annotations := List.forall_mem_nil _ }

/-- The sample is its own stub. -/
theorem stub_eq_sampleHidden :
    (ofPackages ["p"] true).stub sampleHidden = .ok sampleHidden := by
  obtain ⟨pool, hdecode⟩ := decode_sampleHidden
  refine (stub_eq_ok_of_decode hdecode).2 ⟨?_, ?_⟩
  · exact (check_eq_ok_iff_admissible rfl (by decide) _).2 (admissible_sampleHiddenFile pool)
  · cbv

/-- A class of the other package is not permitted. -/
theorem not_permits_sampleHidden (name : String)
    (hpackage : ClassName.packageName (ClassName.toBinary name) = "q") :
    ¬(ofPackages ["p"] true).policy.Permits (ClassName.toBinary name) := by
  rw [PackagePolicy.Permits, hpackage]
  decide

/-- The stub of the sample names permitted classes where it was checked. -/
theorem stub_namesPermitted_sampleHidden :
    (ofPackages ["p"] true).validate = true ∧ (ofPackages ["p"] true).policy.packages ≠ [] ∧
      (ofPackages ["p"] true).stub sampleHidden = .ok sampleHidden ∧
        ∃ stubFile, ClassFile.decode sampleHidden = .ok stubFile ∧
          stubFile.NamesPermitted (ofPackages ["p"] true).policy :=
  ⟨rfl, by decide, stub_eq_sampleHidden,
    stub_namesPermitted _ sampleHidden sampleHidden rfl (by decide) stub_eq_sampleHidden⟩

/-- Descriptors that a signature stands in for, and exceptions, may well name
forbidden classes in a stub. -/
theorem forbidden_sampleHidden :
    (ofPackages ["p"] true).stub sampleHidden = .ok sampleHidden ∧
      ¬(ofPackages ["p"] true).policy.Permits (ClassName.toBinary "q/B") ∧
      ¬(ofPackages ["p"] true).policy.Permits (ClassName.toBinary "q/E") ∧
      ∃ stubFile, ClassFile.decode sampleHidden = .ok stubFile ∧
        (∃ method ∈ stubFile.methods, distinctOuterClasses method.descriptor = .ok ["q/B"]) ∧
        (∃ method ∈ stubFile.methods, "q/E" ∈ method.exceptions) ∧
        ∃ field ∈ stubFile.fields, distinctOuterClasses field.descriptor = .ok ["q/B"] := by
  obtain ⟨pool, hdecode⟩ := decode_sampleHidden
  refine ⟨stub_eq_sampleHidden, not_permits_sampleHidden "q/B" (by cbv),
    not_permits_sampleHidden "q/E" (by cbv), sampleHiddenFile pool, hdecode, ?_, ?_, ?_⟩
  · exact ⟨_, List.mem_cons_self, by cbv⟩
  · exact ⟨_, List.mem_cons_of_mem _ List.mem_cons_self, List.mem_cons_self⟩
  · exact ⟨_, List.mem_cons_self, by cbv⟩

end ApiRules

end ClassStub
