import Mathlib
import ClassStub.ClassFile.Equality
import ClassStub.Proofs.Stub.Checking
import ClassStub.Proofs.Stub.Projection

/-!
# Whether the members of a stub are distinct

No two members of a class should have a name and a descriptor in common.  The
fields of a stub are distinct if those of the class are.  Its methods are those
of the class behind the helper, whose name is not reserved: a method of the API
may have it too, and then the stub has two methods that nothing tells apart
(`ApiRules.stub_distinct_iff`).
-/

namespace ClassStub

/-- The name and the descriptor of the helper. -/
def Stub.helperKey : String × String :=
  (helperName, helperDescriptor)

namespace ClassFile

/-- No two methods have a name and a descriptor in common, and no two fields. -/
structure MembersDistinct (file : ClassFile) : Prop where
  methods : (file.methods.map Method.key).Nodup
  fields : (file.fields.map Field.key).Nodup

/-- A class that gets a helper has a method of the same name and descriptor that
counts as API. -/
def ClashesWithHelper (file : ClassFile) (policy : PackagePolicy) : Prop :=
  ¬file.header.isInterface ∧ ∃ method ∈ file.methods,
    KeepsMethod policy file.header method ∧ method.key = Stub.helperKey

end ClassFile

/-! ## The keys of a projection -/

/-- What is kept of distinct items is distinct in any order. -/
theorem nodup_map_of_perm_filter {α κ : Type} {key : α → κ} {items kept : List α}
    {property : α → Bool} (hperm : kept.Perm (items.filter property))
    (hdistinct : (items.map key).Nodup) : (kept.map key).Nodup :=
  (hperm.map key).nodup_iff.2 (hdistinct.sublist (List.filter_sublist.map key))

namespace Projects

variable {policy : PackagePolicy} {file stub : ClassFile}

/-- The methods of a projection have the keys of those that are kept, behind the
key of the helper. -/
theorem map_key_methods (hprojects : Projects policy file stub) :
    ∃ kept : List Method, kept.Perm (file.methods.filter (KeepsMethod policy file.header ·)) ∧
      stub.methods.map Method.key =
        (if file.header.isInterface then [] else [Stub.helperKey]) ++ kept.map Method.key := by
  obtain ⟨helpers, kept, methods, hsame, hhelpers, hsorted, hprojected⟩ := hprojects.methods
  have hkeys : kept.map Method.key = methods.map Method.key :=
    map_eq_map_of_forall₂ (fun _ _ hmethod =>
      Prod.ext hmethod.name_eq.symm hmethod.descriptor_eq.symm) hprojected
  refine ⟨kept, hsorted.perm keyOrder_member, ?_⟩
  rw [hsame, List.map_append, hkeys]
  unfold ProjectsHelpers at hhelpers
  by_cases hinterface : file.header.isInterface
  · rw [if_pos hinterface] at hhelpers ⊢
    rw [hhelpers, List.map_nil]
  · rw [if_neg hinterface] at hhelpers ⊢
    obtain ⟨code, rfl⟩ := hhelpers
    rfl

/-- The fields of a projection are distinct if those of the class are. -/
theorem nodup_fields (hprojects : Projects policy file stub)
    (hdistinct : (file.fields.map Field.key).Nodup) : (stub.fields.map Field.key).Nodup := by
  obtain ⟨kept, hsorted, hprojected⟩ := hprojects.fields
  have hkeys : kept.map Field.key = stub.fields.map Field.key :=
    map_eq_map_of_forall₂ (fun _ _ hfield =>
      Prod.ext hfield.name_eq.symm hfield.descriptor_eq.symm) hprojected
  rw [← hkeys]
  exact nodup_map_of_perm_filter (hsorted.perm keyOrder_member) hdistinct

/-- A kept method has the key of the helper exactly if the class clashes. -/
theorem helperKey_mem_iff {kept : List Method} (hinterface : ¬file.header.isInterface)
    (hkept : kept.Perm (file.methods.filter (KeepsMethod policy file.header ·))) :
    Stub.helperKey ∈ kept.map Method.key ↔ file.ClashesWithHelper policy := by
  simp only [ClassFile.ClashesWithHelper, hinterface, List.mem_map, hkept.mem_iff,
    List.mem_filter, decide_eq_true_eq, and_assoc]
  simp

/-- The methods of a projection are distinct unless one clashes with the helper. -/
theorem nodup_methods_iff (hprojects : Projects policy file stub)
    (hdistinct : (file.methods.map Method.key).Nodup) :
    (stub.methods.map Method.key).Nodup ↔ ¬file.ClashesWithHelper policy := by
  obtain ⟨kept, hkept, hkeys⟩ := hprojects.map_key_methods
  have hnodup := nodup_map_of_perm_filter hkept hdistinct
  rw [hkeys]
  by_cases hinterface : file.header.isInterface
  · rw [if_pos hinterface, List.nil_append]
    exact iff_of_true hnodup fun hclash => hclash.1 hinterface
  · rw [if_neg hinterface, List.singleton_append, List.nodup_cons,
      helperKey_mem_iff hinterface hkept, and_iff_left hnodup]

/-- A projection has one method with the key of the helper unless another one
clashes with it. -/
theorem count_helperKey_iff (hprojects : Projects policy file stub)
    (hinterface : ¬file.header.isInterface) :
    (stub.methods.map Method.key).count Stub.helperKey = 1 ↔ ¬file.ClashesWithHelper policy := by
  obtain ⟨kept, hkept, hkeys⟩ := hprojects.map_key_methods
  rw [hkeys, if_neg hinterface, List.singleton_append, List.count_cons_self,
    Nat.add_eq_right, List.count_eq_zero, helperKey_mem_iff hinterface hkept]

end Projects

namespace ApiRules

/-- **When a stub has distinct members.** The stub of a class with distinct members
has distinct fields.  Its methods are distinct, and that of a class that is no
interface has exactly one with the name and descriptor of the helper, if and only
if no method that counts as API has these already. -/
theorem stub_distinct_iff (rules : ApiRules) (bytes stub : List UInt8) (file : ClassFile)
    (hfile : ClassFile.decode bytes = .ok file) (hdistinct : file.MembersDistinct)
    (hstub : rules.stub bytes = .ok stub) :
    ∃ stubFile, ClassFile.decode stub = .ok stubFile ∧
      (stubFile.fields.map Field.key).Nodup ∧
      ((stubFile.methods.map Method.key).Nodup ↔ ¬file.ClashesWithHelper rules.policy) ∧
      (¬stubFile.header.isInterface →
        ((stubFile.methods.map Method.key).count Stub.helperKey = 1 ↔
          ¬file.ClashesWithHelper rules.policy)) := by
  obtain ⟨found, stubFile, hfound, _, _, hstubFile, hshown, _⟩ := shows_of_stub hstub
  cases hfile.symm.trans hfound
  have hprojects := projects_of_shows hshown
  refine ⟨stubFile, hstubFile, hprojects.nodup_fields hdistinct.fields,
    hprojects.nodup_methods_iff hdistinct.methods, fun hinterface => ?_⟩
  rw [hprojects.header_eq] at hinterface
  exact hprojects.count_helperKey_iff hinterface

/-- The class `p.A` with a public native method that has the name and the descriptor
of the helper. -/
def sampleClash : List UInt8 :=
  [0xca, 0xfe, 0xba, 0xbe, 0x00, 0x00, 0x00, 0x34, 0x00, 0x07, 0x01, 0x00, 0x10, 0x24, 0x75, 0x6e,
    0x73, 0x75, 0x70, 0x70, 0x6f, 0x72, 0x74, 0x65, 0x64, 0x4f, 0x70, 0x45, 0x78, 0x01, 0x00,
    0x2b, 0x28, 0x29, 0x4c, 0x6a, 0x61, 0x76, 0x61, 0x2f, 0x6c, 0x61, 0x6e, 0x67, 0x2f, 0x55,
    0x6e, 0x73, 0x75, 0x70, 0x70, 0x6f, 0x72, 0x74, 0x65, 0x64, 0x4f, 0x70, 0x65, 0x72, 0x61,
    0x74, 0x69, 0x6f, 0x6e, 0x45, 0x78, 0x63, 0x65, 0x70, 0x74, 0x69, 0x6f, 0x6e, 0x3b, 0x01,
    0x00, 0x03, 0x70, 0x2f, 0x41, 0x07, 0x00, 0x03, 0x01, 0x00, 0x10, 0x6a, 0x61, 0x76, 0x61,
    0x2f, 0x6c, 0x61, 0x6e, 0x67, 0x2f, 0x4f, 0x62, 0x6a, 0x65, 0x63, 0x74, 0x07, 0x00, 0x05,
    0x00, 0x21, 0x00, 0x04, 0x00, 0x06, 0x00, 0x00, 0x00, 0x00, 0x00, 0x01, 0x01, 0x09, 0x00,
    0x01, 0x00, 0x02, 0x00, 0x00, 0x00, 0x00]

/-- What the sample decodes to. -/
def sampleClashFile (pool : Pool) : ClassFile where
  header := {
    version := { major := 52, minor := 0 }
    flags := .accPublic ||| .accSuper
    name := "p/A"
    superName := some "java/lang/Object"
    interfaces := [] }
  fields := []
  methods := [{
    flags := .accPublic ||| .accStatic ||| .accNative
    name := "$unsupportedOpEx"
    descriptor := "()Ljava/lang/UnsupportedOperationException;" }]
  pool

theorem decode_sampleClash :
    ∃ pool, ClassFile.decode sampleClash = .ok (sampleClashFile pool) := by
  exact ClassFile.exists_decode_eq (sampleClashFile ⟨#[]⟩) (by decide +kernel)

theorem membersDistinct_sampleClashFile (pool : Pool) : (sampleClashFile pool).MembersDistinct where
  methods := List.nodup_singleton _
  fields := List.nodup_nil

/-- The sample clashes with the helper. -/
theorem clashes_sampleClashFile (pool : Pool) :
    (sampleClashFile pool).ClashesWithHelper (ofPackages [] true).policy := by
  have hinterface : ¬(AccessFlags.accPublic ||| .accSuper).has .accInterface := by decide
  exact ⟨hinterface, _, List.mem_cons_self, of_decide_eq_true rfl, rfl⟩

/-- Without declared packages nothing is checked but the descriptors. -/
theorem check_sampleClashFile (pool : Pool) :
    (ofPackages [] true).check (sampleClashFile pool) = .ok () := by
  have htype : MethodDescriptor.parse Stub.helperDescriptor =
      .ok ⟨[], some (.object ⟨Stub.exceptionClass, by decide, by decide⟩)⟩ := by
    cbv
  refine check_eq_ok_of_members.2 ⟨rfl, rfl, ?_, List.forall_mem_nil _⟩
  intro method hmethod
  cases List.mem_singleton.1 (List.mem_filter.1 hmethod).1
  simp only [checkMethod, PackagePolicy.orMalformed, bind_eq_ok, mapError_eq_ok, sourceMethod]
  exact ⟨_, ⟨_, htype, rfl⟩, rfl⟩

set_option maxRecDepth 2000 in
theorem isSome_write_sampleClashFile (pool : Pool) :
    (Stub.write ((sampleClashFile pool).surface (ofPackages [] true).policy)).toOption.isSome =
      true := by
  cbv

theorem exists_stub_sampleClash : ∃ stub, (ofPackages [] true).stub sampleClash = .ok stub := by
  obtain ⟨pool, hdecode⟩ := decode_sampleClash
  have hmade := isSome_write_sampleClashFile pool
  cases hwrite : Stub.write ((sampleClashFile pool).surface (ofPackages [] true).policy) with
  | error cause =>
    rw [hwrite] at hmade
    cases hmade
  | ok stub => exact ⟨stub, (stub_eq_ok_of_decode hdecode).2 ⟨check_sampleClashFile pool, hwrite⟩⟩

/-- The stub of the sample has two methods with the key of the helper. -/
theorem stub_distinct_iff_sampleClash :
    ∃ file stub, ClassFile.decode sampleClash = .ok file ∧ file.MembersDistinct ∧
      (ofPackages [] true).stub sampleClash = .ok stub ∧
        ∃ stubFile, ClassFile.decode stub = .ok stubFile ∧
          (stubFile.fields.map Field.key).Nodup ∧
          ((stubFile.methods.map Method.key).Nodup ↔
            ¬file.ClashesWithHelper (ofPackages [] true).policy) ∧
          (¬stubFile.header.isInterface →
            ((stubFile.methods.map Method.key).count Stub.helperKey = 1 ↔
              ¬file.ClashesWithHelper (ofPackages [] true).policy)) := by
  obtain ⟨pool, hdecode⟩ := decode_sampleClash
  obtain ⟨stub, hstub⟩ := exists_stub_sampleClash
  have hdistinct := membersDistinct_sampleClashFile pool
  exact ⟨_, stub, hdecode, hdistinct, hstub,
    stub_distinct_iff _ sampleClash stub _ hdecode hdistinct hstub⟩

/-- The stub of the sample has two methods that nothing tells apart. -/
theorem not_nodup_methods_sampleClash :
    ∃ file stub stubFile, ClassFile.decode sampleClash = .ok file ∧ file.MembersDistinct ∧
      (ofPackages [] true).stub sampleClash = .ok stub ∧ ClassFile.decode stub = .ok stubFile ∧
        ¬stubFile.header.isInterface ∧ ¬(stubFile.methods.map Method.key).Nodup ∧
          (stubFile.methods.map Method.key).count Stub.helperKey ≠ 1 := by
  obtain ⟨pool, hdecode⟩ := decode_sampleClash
  obtain ⟨stub, hstub⟩ := exists_stub_sampleClash
  obtain ⟨found, stubFile, hfound, _, _, hstubFile, hshown, _⟩ := shows_of_stub hstub
  cases hdecode.symm.trans hfound
  have hprojects := projects_of_shows hshown
  have hdistinct := membersDistinct_sampleClashFile pool
  have hclash := clashes_sampleClashFile pool
  have hinterface := hclash.1
  refine ⟨_, stub, stubFile, hdecode, hdistinct, hstub, hstubFile, ?_, ?_, ?_⟩
  · rwa [hprojects.header_eq]
  · exact fun hnodup => (hprojects.nodup_methods_iff hdistinct.methods).1 hnodup hclash
  · exact fun hcount => (hprojects.count_helperKey_iff hinterface).1 hcount hclash

end ApiRules

end ClassStub
