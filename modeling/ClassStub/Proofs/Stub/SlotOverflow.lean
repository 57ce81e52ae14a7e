import ClassStub.Proofs.Codec.AttributeEdits
import ClassStub.Proofs.Codec.TextLengths
import ClassStub.Proofs.Stub.Refusals

/-!
# Slots beyond a word

Nothing limits the parameters of a method but the length of its descriptor, which
is a 16-bit word, and code may be longer than a word counts.  Verifying a decoded
class and making its stub count slots beyond a word only where a descriptor or
code is too long; what is accepted was counted within a word, and no stub has a
limit that was cut to one (`ClassFile.slotsCounted_of_decode`).  There are classes
that overflow (`ClassFile.overflows_sampleWide`).
-/

namespace ClassStub

open Decoder MethodBody

/-! ## Stubs -/

namespace ClassFile

/-- A method that gets a body in the stub of its class: it counts as API and is
not abstract. -/
structure GetsBody (policy : PackagePolicy) (file : ClassFile) (method : Method) : Prop where
  mem : method ∈ file.methods
  kept : KeepsMethod policy file.header method
  concrete : ¬method.flags.has .accAbstract

variable {rules : ApiRules} {file : ClassFile} {bytes : List UInt8}

/-- The methods of a surface are the kept ones of the class. -/
theorem mem_surface_methods_iff {policy : PackagePolicy} {one : SurfaceMethod} :
    one ∈ (file.surface policy).methods ↔
      ∃ method ∈ file.methods, KeepsMethod policy file.header method ∧ method.surface = one := by
  simp only [surface, List.mem_mergeSort, List.mem_map, apiMethods_eq, List.mem_filter,
    decide_eq_true_eq, and_assoc]

/-- Making a stub counts beyond a word only for a method that gets a body and
overcounts. -/
theorem overcounts_of_stub (hfile : decode bytes = .ok file)
    (herror : rules.stub bytes = .error (.unwritable .overflow)) :
    ∃ method, file.GetsBody rules.policy method ∧ method.Overcounts := by
  obtain ⟨one, hone, hconcrete, hovercounts⟩ :=
    Stub.overcounts_of_write (ApiRules.write_of_unwritable hfile herror)
  obtain ⟨method, hmem, hkept, rfl⟩ := mem_surface_methods_iff.1 hone
  rw [Stub.has_abstract] at hconcrete
  rw [Method.Overcounts, Stub.isStatic_method] at hovercounts
  exact ⟨method, ⟨hmem, hkept, hconcrete⟩, hovercounts⟩

/-- The stub that was made of a class has room for the slots of every method that
gets a body. -/
theorem slots_of_stub {stub : List UInt8} (hfile : decode bytes = .ok file)
    (hstub : rules.stub bytes = .ok stub) {method : Method}
    (hbody : file.GetsBody rules.policy method) :
    ∃ type, MethodDescriptor.parse method.descriptor = .ok type ∧
      localSlots type method.isStatic ≤ maxWord := by
  obtain ⟨found, stubFile, hfound, _, _, _, hshown, _⟩ := ApiRules.shows_of_stub hstub
  obtain rfl : found = file := Except.ok.inj (hfound.symm.trans hfile)
  have hone : method.surface ∈ (found.surface rules.policy).methods :=
    mem_surface_methods_iff.2 ⟨method, hbody.mem, hbody.kept, rfl⟩
  have hdeclared : (Stub.method method.surface,
      Stub.instructions found.header (Stub.method method.surface)) ∈
        Stub.declarations (found.surface rules.policy) :=
    List.mem_append_right _ (List.mem_map_of_mem hone)
  obtain ⟨shown, _, hshows⟩ := exists_of_forall₂ hshown.methods_declared.flip hdeclared
  have hconcrete : ¬(Stub.method method.surface).flags.has .accAbstract := by
    rw [Stub.has_abstract]
    exact hbody.concrete
  rw [Stub.instructions, if_neg hconcrete] at hshows
  obtain ⟨_, body, _, hmade, _⟩ := Stub.writtenAs_of_declares hshows
  obtain ⟨type, htype, hword, _⟩ := ofInstructions_eq_ok.1 hmade
  rw [Stub.isStatic_method] at hword
  exact ⟨type, htype, hword⟩

/-- The stub of a class with short descriptors and code does not overflow. -/
theorem Short.stub_ne_overflow (hshort : file.Short) (hfile : decode bytes = .ok file) :
    rules.stub bytes ≠ .error (.unwritable .overflow) := by
  intro herror
  obtain ⟨method, hbody, hovercounts⟩ := overcounts_of_stub hfile herror
  exact Nat.not_lt.2 (hshort.methods method hbody.mem) hovercounts.safeLength_lt

/-! ## Decoded classes -/

/-- No descriptor of a decoded class takes more slots, even with one for a
receiver. -/
def maxSlots : Nat := 131065

/-- A descriptor of the greatest length takes at most so many slots. -/
theorem slots_le_maxSlots {text : String} {type : MethodDescriptor}
    (hlength : text.length ≤ maxWord) (htype : MethodDescriptor.parse text = .ok type) :
    type.argumentSlots + 1 ≤ maxSlots := by
  have hslots := MethodDescriptor.slots_of_parse htype
  rw [maxWord] at hlength
  rw [maxSlots]
  omega

/-- How the slots of a decoded class are counted.  A count that leaves a word is
an overflow, for which the class has to have something overlong. -/
structure SlotsCounted (bytes : List UInt8) (file : ClassFile) : Prop where
  methods_le : ∀ method ∈ file.methods, ∀ type,
    MethodDescriptor.parse method.descriptor = .ok type →
      localSlots type method.isStatic ≤ maxSlots
  members_le : ∀ index callee, file.pool.member index = .ok callee →
    callee.argumentSlots + 1 ≤ maxSlots
  verify_overflow : file.verify = .error .overflow →
    ∃ method ∈ file.methods, ∃ code, method.code = some code ∧ code.Overcounts file.pool method
  verify_fits : file.verify = .ok () → ∀ method ∈ file.methods, ∀ code,
    method.code = some code → code.SlotsFit file.pool method
  stub_overflow : ∀ rules : ApiRules, rules.stub bytes = .error (.unwritable .overflow) →
    ∃ method, file.GetsBody rules.policy method ∧ method.Overcounts
  stub_fits : ∀ (rules : ApiRules) stub, rules.stub bytes = .ok stub →
    ∀ method, file.GetsBody rules.policy method →
      ∃ type, MethodDescriptor.parse method.descriptor = .ok type ∧
        localSlots type method.isStatic ≤ maxWord
  short_fits : file.Short → file.verify ≠ .error .overflow ∧
    ∀ rules : ApiRules, rules.stub bytes ≠ .error (.unwritable .overflow)

/-- **Only overlong descriptors and code count beyond a word.** The slots of a
decoded class are bounded, though not by a word; those that verification or a
stub cannot count in a word belong to a method, a call or code that is too
long. -/
theorem slotsCounted_of_decode (bytes : List UInt8) (file : ClassFile)
    (hdecode : decode bytes = .ok file) : file.SlotsCounted bytes where
  methods_le method hmethod type htype := by
    have hlength := (textsFit_of_decode hdecode).descriptor method hmethod
    exact Nat.le_trans (localSlots_le type _) (slots_le_maxSlots hlength htype)
  members_le index callee hcallee := by
    have hlength := (textsFit_of_decode hdecode).pool.length_member hcallee
    unfold MemberRef.argumentSlots
    split
    case h_1 type htype => exact slots_le_maxSlots hlength htype
    case h_2 => decide
  verify_overflow := overcounts_of_verify
  verify_fits hverify method hmethod code hcode := fits_of_verify hverify hmethod hcode
  stub_overflow rules := overcounts_of_stub hdecode
  stub_fits rules stub hstub method hbody := slots_of_stub hdecode hstub hbody
  short_fits hshort :=
    ⟨hshort.verify_ne_overflow, fun rules => hshort.stub_ne_overflow hdecode⟩

end ClassFile

/-! ## A class with a wide method -/

/-- A method without result that takes so many numbers of 64 bits. -/
def MethodDescriptor.wide (count : Nat) : MethodDescriptor where
  parameters := List.replicate count (.primitive .long)
  result := none

namespace MethodDescriptor

/-- Each parameter takes two slots. -/
theorem argumentSlots_wide (count : Nat) : (wide count).argumentSlots = 2 * count := by
  induction count with
  | zero => rfl
  | succ count ih =>
    rw [wide] at ih ⊢
    rw [List.replicate_succ, argumentSlots_cons, ih]
    change 2 + 2 * count = 2 * (count + 1)
    omega

/-- A wide descriptor has one letter for each parameter. -/
theorem chars_wide (count : Nat) :
    (wide count).chars = '(' :: (List.replicate count 'J' ++ [')', 'V']) := by
  have hparameters : (List.replicate count (FieldType.primitive .long)).flatMap FieldType.chars =
      List.replicate count 'J' := by
    induction count with
    | zero => rfl
    | succ count ih =>
      rw [List.replicate_succ, List.flatMap_cons, ih]
      rfl
  rw [chars, wide, hparameters]
  rfl

/-- A wide descriptor takes three bytes more than it has parameters. -/
theorem length_wide (count : Nat) :
    (JavaText.ofString (String.ofList (wide count).chars)).bytes.length = count + 3 := by
  rw [JavaText.length_ofString_ascii, chars_wide]
  · simp
  · rw [chars_wide]
    intro char hchar
    simp only [List.mem_cons, List.mem_append, List.mem_replicate, List.not_mem_nil] at hchar
    rcases hchar with rfl | ⟨_, rfl⟩ | rfl | rfl | hnone
    · decide
    · decide
    · decide
    · decide
    · cases hnone

end MethodDescriptor

namespace ClassLayout

/-- The text of a wide descriptor. -/
def wideDescriptor (count : Nat) : String :=
  String.ofList (MethodDescriptor.wide count).chars

/-- The pool of the sample: a method `p.A.m` with a wide descriptor. -/
def widePool (count : Nat) : PoolBuilder where
  entries := #[.utf8 (.ofString (wideDescriptor count)), .utf8 (.ofString "p/A"), .classRef 2,
    .utf8 (.ofString "a"), .utf8 (.ofString "()V"), .utf8 (.ofString "m"), .nameAndType 6 1,
    .methodRef 3 7, .utf8 (.ofString "Code")]
  next := 10

/-- Code that calls the method and returns. -/
def wideCode : CodeLayout where
  maxStack := 0
  maxLocals := 0
  code := [0xb8, 0x00, 0x08, 0xb1]
  handlerCount := 0
  handlers := []
  attributes := []

/-- The methods of the sample: one that calls, and the one that is called. -/
def wideMethods : List MemberLayout :=
  [{ flags := 0x0008, name := 4, descriptor := 5, attributes := [wideCode.entry 9] },
    { flags := 0x0109, name := 6, descriptor := 1, attributes := [] }]

theorem fits_wideCode : wideCode.Fits := by
  decide

theorem fits_wideMethods : FitsCount MemberLayout.Fits wideMethods := by
  decide

/-- The class `p.A` with a static method `a` that calls a public static native
method `m`, which takes so many numbers of 64 bits. -/
def sampleWide (count : Nat) : ClassLayout where
  front :=
    Bytes.u32 classMagic ++ (Bytes.u16 0 ++ (Bytes.u16 52 ++ ((widePool count).bytes ++
      (Bytes.u16 0x0021 ++ (Bytes.u16 3 ++ (Bytes.u16 0 ++ Bytes.u16 0))))))
  fields := []
  methods := wideMethods
  attributes := []

/-- What the bytes of the sample mean. -/
def sampleWideFile (count : Nat) : ClassFile where
  header := { version := ⟨52, 0⟩, flags := 0x0021, name := "p/A", superName := none,
              interfaces := [] }
  fields := []
  methods :=
    [{ flags := 0x0008, name := "a", descriptor := "()V",
       code := some { maxStack := 0, maxLocals := 0, code := wideCode.code } },
      { flags := 0x0109, name := "m", descriptor := wideDescriptor count }]
  pool := (widePool count).pool

variable {count : Nat}

/-- The pool is valid as long as the length of the descriptor is a word. -/
theorem valid_widePool (hcount : count + 3 ≤ maxWord) : (widePool count).Valid where
  next_eq := rfl
  next_le := (by decide : 10 ≤ maxWord)
  encodable := by
    have hlong : (JavaText.ofString (wideDescriptor count)).bytes.length ≤ maxWord := by
      rw [wideDescriptor, MethodDescriptor.length_wide]
      exact hcount
    simp only [widePool, List.forall_mem_cons, Constant.Encodable, hlong, List.not_mem_nil,
      false_implies, implies_true, and_true, true_and]
    decide
  indexed := by simp [widePool]

/-- The names and descriptors of the sample are found in its pool. -/
theorem utf8_widePool (count : Nat) :
    (widePool count).pool.utf8 1 = .ok (wideDescriptor count) ∧
      (widePool count).pool.utf8 4 = .ok "a" ∧ (widePool count).pool.utf8 5 = .ok "()V" ∧
      (widePool count).pool.utf8 6 = .ok "m" ∧ (widePool count).pool.utf8 9 = .ok "Code" :=
  ⟨Pool.utf8_of_javaText rfl, Pool.utf8_of_javaText rfl, Pool.utf8_of_javaText rfl,
    Pool.utf8_of_javaText rfl, Pool.utf8_of_javaText rfl⟩

theorem className_widePool (count : Nat) : (widePool count).pool.className 3 = .ok "p/A" := by
  have hname : (widePool count).pool.utf8 2 = .ok "p/A" := Pool.utf8_of_javaText rfl
  exact hname

/-- The method that the code of the sample calls. -/
def wideMember (count : Nat) : MemberRef where
  owner := "p/A"
  name := "m"
  descriptor := wideDescriptor count

/-- The callee is found in the pool of the sample. -/
theorem member_widePool (count : Nat) :
    (widePool count).pool.member 8 = .ok (wideMember count) := by
  obtain ⟨hdescriptor, _, _, hname, _⟩ := utf8_widePool count
  have hreference : (widePool count).pool.entry 8 = .ok (.methodRef 3 7) := rfl
  have hpair : (widePool count).pool.entry 7 = .ok (.nameAndType 6 1) := rfl
  simp only [Pool.member, hreference, Pool.resolveMember, Pool.nameAndType, hpair, hname,
    hdescriptor, className_widePool, Bind.bind, Except.bind]
  rfl

/-- The header of the sample is read with its pool. -/
theorem reads_front (hcount : count + 3 ≤ maxWord) :
    ClassHeader.decodeWithPool.Reads (sampleWide count).front
      ((sampleWideFile count).header, (sampleWideFile count).pool) := by
  have hsuper : (widePool count).pool.className? 0 = .ok none := rfl
  have hinterfaces : (Attribute.decodeClassNames (widePool count).pool).Reads (Bytes.u16 0) [] :=
    (Reads.repeated_nil _).counted (Nat.zero_le maxWord)
  apply (reads_u32 classMagic).bind
  rw [if_neg (by simp)]
  apply (reads_u16 0).bind
  apply (reads_u16 52).bind
  rw [if_neg (by decide)]
  apply (PoolBuilder.reads_pool (valid_widePool hcount)).bind
  apply (reads_u16 0x0021).bind
  exact Reads.lookup (className_widePool count) (Reads.lookup hsuper (hinterfaces.map _))

/-- The tables of the sample mean its two methods. -/
theorem meaning_sampleWide (count : Nat) :
    (sampleWide count).meaning (sampleWideFile count).header (sampleWideFile count).pool =
      some (sampleWideFile count) := by
  obtain ⟨hlong, hcaller, hshort, hcallee, hcode⟩ := utf8_widePool count
  have hentry := CodeLayout.meaning_entry hcode fits_wideCode
  have hbody : wideCode.meaning (widePool count).pool = some {
      maxStack := 0, maxLocals := 0, code := wideCode.code } := rfl
  rw [hbody, Option.map_some] at hentry
  have hfirst : MemberLayout.method (widePool count).pool
      { flags := 0x0008, name := 4, descriptor := 5, attributes := [wideCode.entry 9] } =
        some {
          flags := 0x0008, name := "a", descriptor := "()V"
          code := some { maxStack := 0, maxLocals := 0, code := wideCode.code } } := by
    simp only [MemberLayout.method, hcaller, hshort, AttributeLayout.tableMeaning,
      List.mapM_cons, List.mapM_nil, hentry]
    rfl
  have hsecond : MemberLayout.method (widePool count).pool
      { flags := 0x0109, name := 6, descriptor := 1, attributes := [] } =
        some { flags := 0x0109, name := "m", descriptor := wideDescriptor count } := by
    simp only [MemberLayout.method, hcallee, hlong]
    rfl
  simp only [meaning, sampleWide, sampleWideFile, wideMethods, List.mapM_cons, List.mapM_nil,
    hfirst, hsecond]
  rfl

theorem decode_sampleWide (hcount : count + 3 ≤ maxWord) :
    ClassFile.decode (sampleWide count).bytes = .ok (sampleWideFile count) := by
  have hfits : (sampleWide count).Fits := {
    fields := ⟨Nat.zero_le _, List.forall_mem_nil _⟩
    methods := fits_wideMethods
    attributes := ⟨Nat.zero_le _, List.forall_mem_nil _⟩ }
  exact (decode_bytes_iff hfits (reads_front hcount) _).2 (meaning_sampleWide count)

/-- The code of the sample calls the wide method and returns. -/
theorem disassemble_wideCode (count : Nat) :
    disassemble (widePool count).pool wideCode.code =
      .ok [.invokeStatic (wideMember count), .returnVoid] := by
  have hcall : (Instruction.decode (widePool count).pool).Reads
      (Opcode.invokeStatic.toByte :: Bytes.u16 8) (.invokeStatic (wideMember count)) :=
    Instruction.reads_decode (Reads.lookup_map (member_widePool count) Instruction.invokeStatic)
  have hreturn : (Instruction.decode (widePool count).pool).Reads
      [Opcode.returnVoid.toByte] .returnVoid :=
    Instruction.reads_decode (Reads.pure _)
  exact disassemble_eq_ok (.cons hcall (.cons hreturn (Instruction.codedAs_nil _)))

/-- The call pops more slots than a word counts. -/
theorem verify_sampleWide (hslots : maxWord < 2 * count) :
    (sampleWideFile count).verify = .error .overflow := by
  have hparse : MethodDescriptor.parse "()V" = .ok { parameters := [], result := none } :=
    MethodDescriptor.parse_chars { parameters := [], result := none }
  have heffect : (Instruction.invokeStatic (wideMember count)).effect = .error .overflow := by
    have hcallee := MethodDescriptor.parse_chars (.wide count)
    refine bind_eq_error.2 (.inr ⟨_, mapError_eq_ok.2 hcallee, ?_⟩)
    refine refusal_bind_eq_error.2 (.inl ⟨?_, rfl⟩)
    rw [MethodDescriptor.argumentSlots_wide]
    exact hslots
  -- The first method fails: its limits pass, its code is disassembled, and then
  -- the effect of the call cannot be counted.
  refine bind_eq_error.2 (.inl ?_)
  refine bind_eq_error.2 (.inr ⟨_, mapError_eq_ok.2 hparse, ?_⟩)
  refine refusal_bind_eq_error.2 (.inr ⟨by decide, ?_⟩)
  refine refusal_bind_eq_error.2 (.inr ⟨by decide, ?_⟩)
  refine bind_eq_error.2 (.inr ⟨_, mapError_eq_ok.2 (disassemble_wideCode count), ?_⟩)
  refine bind_eq_error.2 (.inr ⟨(), rfl, bind_eq_error.2 (.inl ?_)⟩)
  exact bind_eq_error.2 (.inl (mapError_eq_error.2 ⟨.overflow, heffect, rfl⟩))

/-- Whatever the policy is, the public method would get a body. -/
theorem getsBody_sampleWide (policy : PackagePolicy) :
    (sampleWideFile count).GetsBody policy
      { flags := 0x0109, name := "m", descriptor := wideDescriptor count } := by
  have hpublic : Visibility.ofFlags 0x0109 = .publicAccess := by decide
  have hvisible : policy.isVisible 0x0109 = true := by
    rw [PackagePolicy.isVisible, hpublic]
  have hconcrete : ¬AccessFlags.has 0x0109 .accAbstract := by decide
  exact {
    mem := List.mem_cons_of_mem _ List.mem_cons_self
    kept := ⟨by simp, .inl hvisible⟩
    concrete := hconcrete }

/-- With too many parameters the sample has no stub. -/
theorem stub_sampleWide (hcount : count + 3 ≤ maxWord) (hslots : maxWord < 2 * count)
    (rules : ApiRules) (stub : List UInt8) : rules.stub (sampleWide count).bytes ≠ .ok stub := by
  intro hstub
  obtain ⟨type, htype, hlocals⟩ :=
    ClassFile.slots_of_stub (decode_sampleWide hcount) hstub (getsBody_sampleWide rules.policy)
  obtain rfl : type = .wide count :=
    Except.ok.inj (htype.symm.trans (MethodDescriptor.parse_chars (.wide count)))
  have hparameters : (MethodDescriptor.wide count).argumentSlots ≤ maxWord :=
    Nat.le_trans (Nat.le_add_right _ _) hlocals
  rw [MethodDescriptor.argumentSlots_wide] at hparameters
  exact Nat.not_lt.2 hparameters hslots

/-- One method of the sample takes more slots than a word counts. -/
theorem exists_wide_sampleWide (hslots : maxWord < 2 * count) :
    ∃ method ∈ (sampleWideFile count).methods, ∃ type,
      MethodDescriptor.parse method.descriptor = .ok type ∧ maxWord < type.argumentSlots := by
  refine ⟨_, (getsBody_sampleWide (.ofList [])).mem, .wide count, ?_, ?_⟩
  · exact MethodDescriptor.parse_chars (.wide count)
  · rw [MethodDescriptor.argumentSlots_wide]
    exact hslots

end ClassLayout

namespace ClassFile

open ClassLayout

/-- The class decodes, but neither are the slots of its call counted in a word
nor is a stub made of it. -/
theorem overflows_sampleWide :
    ∃ file, decode (sampleWide 32768).bytes = .ok file ∧
      (∃ method ∈ file.methods, ∃ type, MethodDescriptor.parse method.descriptor = .ok type ∧
        maxWord < type.argumentSlots) ∧
      file.verify = .error .overflow ∧
      ∀ (rules : ApiRules) stub, rules.stub (sampleWide 32768).bytes ≠ .ok stub := by
  have hlength : 32768 + 3 ≤ maxWord := by decide
  have hslots : maxWord < 2 * 32768 := by decide
  exact ⟨sampleWideFile 32768, decode_sampleWide hlength, exists_wide_sampleWide hslots,
    verify_sampleWide hslots, stub_sampleWide hlength hslots⟩

/-- The slots of the sample with 32768 parameters are counted as for all classes. -/
theorem slotsCounted_of_decode_sampleWide :
    decode (sampleWide 32768).bytes = .ok (sampleWideFile 32768) ∧
      (sampleWideFile 32768).SlotsCounted (sampleWide 32768).bytes := by
  have hdecode := decode_sampleWide (by decide : 32768 + 3 ≤ maxWord)
  exact ⟨hdecode, slotsCounted_of_decode _ _ hdecode⟩

end ClassFile

end ClassStub
