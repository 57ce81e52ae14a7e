import Mathlib
import ClassStub.Proofs.Code.Limits
import ClassStub.Proofs.Stub.Checking
import ClassStub.Proofs.Stub.Surface

/-!
# Stubs fail at every call

What the methods of a stub do when they are called, said about the decoded stub
(`ClassFile.FailsThroughout`): the helper of a class makes an exception, all
other methods throw it, and those that are abstract have no code.  Every stub
decodes to such a class, and the class passes verification
(`ApiRules.stub_failsThroughout`).
-/

namespace ClassStub

open MethodBody

/-! ## What it means to fail -/

/-- Code of a method that disassembles to some instructions, with a given stack
depth and with a local slot for the receiver and for each slot that the
parameters take. -/
structure CodeBytes.Runs (pool : Pool) (method : Method) (instructions : List Instruction)
    (depth : Nat) (code : CodeBytes) : Prop where
  disassemble_eq : disassemble pool code.code = .ok instructions
  maxStack_eq : code.maxStack.toNat = depth
  maxLocals_eq : ∃ type, MethodDescriptor.parse method.descriptor = .ok type ∧
    code.maxLocals.toNat = type.argumentSlots + if method.isStatic then 0 else 1

/-- A method that has such code. -/
def Method.Runs (pool : Pool) (instructions : List Instruction) (depth : Nat) (method : Method) :
    Prop :=
  ∃ code, method.code = some code ∧ code.Runs pool method instructions depth

/-- A method that is hidden in a class and returns the exception. -/
structure Method.MakesException (pool : Pool) (method : Method) : Prop where
  flags_eq : method.flags = .accPrivate ||| .accStatic ||| .accSynthetic
  name_eq : method.name = Stub.helperName
  descriptor_eq : method.descriptor = Stub.helperDescriptor
  runs : method.Runs pool
    [.newObject Stub.exceptionClass, .dup, .ldc (.string Stub.exceptionMessage),
      .invokeSpecial {
        owner := Stub.exceptionClass, name := "<init>", descriptor := "(Ljava/lang/String;)V" },
      .areturn] 3

/-- A class whose methods fail.  Those of an interface make the exception
themselves. -/
structure ClassFile.FailsThroughout (file : ClassFile) : Prop where
  code_of_abstract : ∀ method ∈ file.methods, method.flags.has .accAbstract → method.code = none
  class_methods : ¬file.header.isInterface → ∃ helper methods, file.methods = helper :: methods ∧
    helper.MakesException file.pool ∧
    ∀ method ∈ methods, ¬method.flags.has .accAbstract → method.Runs file.pool
      [.invokeStatic {
          owner := file.header.name, name := Stub.helperName,
          descriptor := Stub.helperDescriptor },
        .athrow] 1
  interface_methods : file.header.isInterface →
    ∀ method ∈ file.methods, ¬method.flags.has .accAbstract → method.Runs file.pool
      [.newObject Stub.exceptionClass, .dup, .ldc (.string Stub.exceptionMessage),
        .invokeSpecial {
          owner := Stub.exceptionClass, name := "<init>", descriptor := "(Ljava/lang/String;)V" },
        .athrow] 3

namespace Stub

/-- A method of a stub that is not abstract is not native either. -/
theorem lacksCode_method {one : SurfaceMethod} (habstract : ¬(method one).flags.has .accAbstract) :
    (method one).lacksCode = false := by
  have hmask : ~~~AccessFlags.accNative &&& .accNative = 0 := by decide
  have hnative : ¬(method one).flags.has .accNative := by
    rw [has_abstract] at habstract
    have hflags : (method one).flags = one.flags &&& ~~~.accNative := if_neg habstract
    rw [hflags, AccessFlags.has, UInt16.and_assoc, hmask, UInt16.and_zero]
    decide
  exact Bool.eq_false_iff.2 fun hlacks =>
    (Method.lacksCode_iff.1 hlacks).elim habstract hnative

/-! ## What is shown of a declared method -/

variable {pool : Pool} {declared shown : Method} {instructions : List Instruction} {depth : Nat}

/-- A method is shown with the flags that it is declared with. -/
theorem flags_of_declares {declaration : Declaration} (hshown : Declares pool declaration shown) :
    shown.flags = declaration.1.flags := by
  obtain ⟨code, rfl, _⟩ := hshown
  rfl

/-- A method that is declared without code has none. -/
theorem eq_of_declares_none (hshown : Declares pool (declared, none) shown) :
    shown = { declared with code := none } := by
  obtain ⟨code, rfl, hcode⟩ := hshown
  cases hcode
  rfl

/-- A method that is declared with instructions has their code. -/
theorem writtenAs_of_declares (hshown : Declares pool (declared, some instructions) shown) :
    ∃ code body, shown = { declared with code := some code } ∧
      ofInstructions instructions declared.descriptor declared.isStatic = .ok body ∧
      body.WrittenAs pool code := by
  obtain ⟨code, rfl, hcode⟩ := hshown
  cases hcode with
  | some hbody =>
    obtain ⟨body, hmade, hwritten⟩ := hbody
    exact ⟨_, body, rfl, hmade, hwritten⟩

/-- That code runs just these instructions, with the stack that they need. -/
theorem runs_of_declares (hdepth : peakDepth instructions = .ok depth)
    (hshown : Declares pool (declared, some instructions) shown) :
    shown.Runs pool instructions depth := by
  obtain ⟨code, body, rfl, hbody, hwritten⟩ := writtenAs_of_declares hshown
  obtain ⟨type, htype, hword, peak, hpeak, rfl⟩ := ofInstructions_eq_ok.1 hbody
  cases Except.ok.inj (hpeak.symm.trans hdepth)
  refine ⟨code, rfl, hwritten.disassemble_eq, ?_, type, htype, ?_⟩
  · rw [hwritten.maxStack_eq]
    exact toNat_ofNat_count (peakDepth_le_maxWord hdepth)
  · rw [hwritten.maxLocals_eq]
    exact toNat_ofNat_count hword

/-- Only the helper is declared besides the methods of the surface. -/
theorem mem_declarations {surface : Surface} {declaration : Declaration}
    (hdeclaration : declaration ∈ declarations surface) :
    declaration = (helper, some helperCode) ∨
      ∃ one, declaration = (method one, Stub.instructions surface.header (method one)) := by
  rw [declarations, List.mem_append, List.mem_map] at hdeclaration
  rcases hdeclaration with hhelper | ⟨one, _, rfl⟩
  · cases hinterface : surface.header.isInterface with
    | true => simp [hinterface] at hhelper
    | false =>
      simp only [hinterface, Bool.false_eq_true, ↓reduceIte, List.mem_singleton] at hhelper
      exact .inl hhelper
  · exact .inr ⟨one, rfl⟩

/-! ## Verification -/

/-- A declaration that verification accepts: either no code where none is
allowed, or straight-line code that uses no local slots. -/
def Verifies (declared : Declaration) : Prop :=
  match declared.2 with
  | none => declared.1.lacksCode = true
  | some instructions => declared.1.lacksCode = false ∧ endsLast instructions ∧
    ∀ slot, .aload slot ∉ instructions

/-- A declaration that verification accepts is accepted where it is shown. -/
theorem verifyMethod_of_declares {file : ClassFile} {declaration : Declaration}
    (hverifies : Verifies declaration) (hshown : Declares file.pool declaration shown) :
    file.verifyMethod shown = .ok () := by
  obtain ⟨declared, code⟩ := declaration
  cases code with
  | none =>
    have hlacks : ({ declared with code := none } : Method).lacksCode = true := hverifies
    rw [eq_of_declares_none hshown, ClassFile.verifyMethod]
    simp only [hlacks]
  | some instructions =>
    obtain ⟨hdeclared, hends, hlocals⟩ := hverifies
    obtain ⟨code, body, rfl, hbody, hwritten⟩ := writtenAs_of_declares hshown
    have hlacks : ({ declared with code := some code } : Method).lacksCode = false := hdeclared
    rw [ClassFile.verifyMethod]
    simp only [hlacks]
    exact verifyCode_of_writtenAs _ { declared with code := some code } hbody hends
      (fun slot hslot => absurd hslot (hlocals slot)) hwritten

/-! ## Failing bodies -/

/-- Making an exception takes three slots of the stack. -/
theorem peakDepth_helperCode : peakDepth helperCode = .ok 3 := by
  cbv

/-- Throwing what the helper returns takes one slot, and three where it is made. -/
theorem peakDepth_failingCode (header : ClassHeader) :
    peakDepth (failingCode header) = .ok (if header.isInterface then 3 else 1) := by
  rw [failingCode]
  cases header.isInterface with
  | true => cbv
  | false => cbv

theorem verifies_helper : Verifies (helper, some helperCode) :=
  ⟨by decide, by decide, by simp [helperCode, makeException]⟩

/-- Verification accepts the methods of a stub. -/
theorem verifies_method (header : ClassHeader) (one : SurfaceMethod) :
    Verifies (method one, Stub.instructions header (method one)) := by
  rw [Stub.instructions]
  by_cases habstract : (method one).flags.has .accAbstract
  · rw [if_pos habstract]
    exact Method.lacksCode_iff.2 (.inl habstract)
  · rw [if_neg habstract]
    refine ⟨lacksCode_method habstract, ?_, ?_⟩
    · rw [failingCode]
      cases header.isInterface <;> rfl
    · rw [failingCode]
      cases header.isInterface <;> simp [makeException]

/-- Verification accepts all that a stub declares. -/
theorem verifies_declarations (surface : Surface) :
    ∀ declaration ∈ declarations surface, Verifies declaration := by
  intro declaration hdeclaration
  rcases mem_declarations hdeclaration with rfl | ⟨one, rfl⟩
  · exact verifies_helper
  · exact verifies_method surface.header one

/-- An abstract method is shown without code. -/
theorem code_of_declares_method {header : ClassHeader} {one : SurfaceMethod}
    (hshown : Declares pool (method one, Stub.instructions header (method one)) shown)
    (habstract : shown.flags.has .accAbstract) : shown.code = none := by
  rw [flags_of_declares hshown] at habstract
  rw [Stub.instructions, if_pos habstract] at hshown
  exact congrArg Method.code (eq_of_declares_none hshown)

/-- Every other method is shown with code that fails. -/
theorem runs_of_declares_method {header : ClassHeader} {one : SurfaceMethod}
    (hshown : Declares pool (method one, Stub.instructions header (method one)) shown)
    (habstract : ¬shown.flags.has .accAbstract) :
    shown.Runs pool (failingCode header) (if header.isInterface then 3 else 1) := by
  rw [flags_of_declares hshown] at habstract
  rw [Stub.instructions, if_neg habstract] at hshown
  exact runs_of_declares (peakDepth_failingCode header) hshown

/-- The helper is shown with code that makes the exception. -/
theorem makesException_of_declares (hshown : Declares pool (helper, some helperCode) shown) :
    shown.MakesException pool := by
  have hruns := runs_of_declares peakDepth_helperCode hshown
  obtain ⟨code, rfl, _⟩ := hshown
  exact { flags_eq := rfl, name_eq := rfl, descriptor_eq := rfl, runs := hruns }

/-! ## Whole stubs -/

/-- What holds of whatever shows a declaration holds of everything that is shown. -/
theorem forall_shown {property : Method → Prop} {declarations : List Declaration}
    {methods : List Method} (hshown : List.Forall₂ (Declares pool) declarations methods)
    (hproperty : ∀ declaration ∈ declarations, ∀ shown, Declares pool declaration shown →
      property shown) :
    ∀ method ∈ methods, property method := by
  induction hshown with
  | nil => exact nofun
  | cons hfirst _ ih =>
    rw [List.forall_mem_cons] at hproperty ⊢
    exact ⟨hproperty.1 _ hfirst, ih hproperty.2⟩

variable {file : ClassFile} {surface : Surface}

/-- A class that shows a surface passes verification. -/
theorem verify_of_shows (hshown : Shows file surface) : file.verify = .ok () :=
  forM_eq_ok.2 <| forall_shown hshown.methods_declared fun _ hdeclaration _ =>
    verifyMethod_of_declares (verifies_declarations surface _ hdeclaration)

/-- The methods of the surface of a stub run the failing code. -/
theorem runs_of_declares_methods {methods : List Method}
    (hshown : List.Forall₂ (Declares pool) (surface.methods.map fun one =>
      (method one, Stub.instructions surface.header (method one))) methods) :
    ∀ shown ∈ methods, ¬shown.flags.has .accAbstract →
      shown.Runs pool (failingCode surface.header)
        (if surface.header.isInterface then 3 else 1) := by
  refine forall_shown hshown fun declaration hdeclaration shown => ?_
  obtain ⟨one, _, rfl⟩ := List.mem_map.1 hdeclaration
  exact runs_of_declares_method

/-- In a class that shows a surface, abstract methods have no code. -/
theorem code_of_shows (hshown : Shows file surface) :
    ∀ shown ∈ file.methods, shown.flags.has .accAbstract → shown.code = none := by
  refine forall_shown hshown.methods_declared fun declaration hdeclaration shown hdeclares => ?_
  rcases mem_declarations hdeclaration with rfl | ⟨one, rfl⟩
  · rw [(makesException_of_declares hdeclares).flags_eq]
    exact nofun
  · exact code_of_declares_method hdeclares

/-- A class that shows a surface fails throughout. -/
theorem failsThroughout_of_shows (hshown : Shows file surface) : file.FailsThroughout := by
  have hmethods := hshown.methods_declared
  rw [declarations] at hmethods
  exact {
    code_of_abstract := code_of_shows hshown
    class_methods := by
      rw [hshown.header_eq]
      intro hinterface
      rw [if_neg hinterface, List.singleton_append, List.forall₂_cons_left_iff] at hmethods
      obtain ⟨shownHelper, methods, hhelper, hmore, hsame⟩ := hmethods
      have hruns := runs_of_declares_methods hmore
      rw [failingCode, if_neg hinterface, if_neg hinterface] at hruns
      exact ⟨shownHelper, methods, hsame, makesException_of_declares hhelper, hruns⟩
    interface_methods := by
      rw [hshown.header_eq]
      intro hinterface
      rw [if_pos hinterface, List.nil_append] at hmethods
      have hruns := runs_of_declares_methods hmethods
      rw [failingCode, if_pos hinterface, if_pos hinterface] at hruns
      exact hruns }

end Stub

/-! ## Every stub fails -/

namespace ApiRules

/-- **Every stub fails at every call.** A stub decodes to a class that passes
verification, and whose methods do nothing but throw the exception. -/
theorem stub_failsThroughout (rules : ApiRules) (bytes stub : List UInt8)
    (hstub : rules.stub bytes = .ok stub) :
    ∃ stubFile, ClassFile.decode stub = .ok stubFile ∧ stubFile.verify = .ok () ∧
      stubFile.FailsThroughout := by
  obtain ⟨file, stubFile, _, _, _, hstubFile, hshown, _⟩ := shows_of_stub hstub
  exact ⟨stubFile, hstubFile, Stub.verify_of_shows hshown, Stub.failsThroughout_of_shows hshown⟩

/-- The class `q.A` with a native method `m` that takes a `long`. -/
def sampleNative : List UInt8 :=
  [0xca, 0xfe, 0xba, 0xbe, 0x00, 0x00, 0x00, 0x34, 0x00, 0x05, 0x01, 0x00, 0x01, 0x6d, 0x01,
    0x00, 0x04, 0x28, 0x4a, 0x29, 0x56, 0x01, 0x00, 0x03, 0x71, 0x2f, 0x41, 0x07, 0x00, 0x03,
    0x00, 0x21, 0x00, 0x04, 0x00, 0x00, 0x00, 0x00, 0x00, 0x00, 0x00, 0x01, 0x01, 0x01, 0x00,
    0x01, 0x00, 0x02, 0x00, 0x00, 0x00, 0x00]

set_option maxRecDepth 2000 in
theorem isSome_stub_sampleNative :
    ((ofPackages ["q"] true).stub sampleNative).toOption.isSome = true := by
  cbv

/-- The stub of the sample fails throughout. -/
theorem stub_failsThroughout_sampleNative :
    ∃ stub, (ofPackages ["q"] true).stub sampleNative = .ok stub ∧
      ∃ stubFile, ClassFile.decode stub = .ok stubFile ∧ stubFile.verify = .ok () ∧
        stubFile.FailsThroughout := by
  have hmade := isSome_stub_sampleNative
  cases hstub : (ofPackages ["q"] true).stub sampleNative with
  | error cause =>
    rw [hstub] at hmade
    cases hmade
  | ok stub => exact ⟨stub, rfl, stub_failsThroughout _ sampleNative stub hstub⟩

end ApiRules

end ClassStub
