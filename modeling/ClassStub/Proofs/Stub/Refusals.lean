import ClassStub.Proofs.Code.SlotCounts
import ClassStub.Proofs.Codec.Refusals
import ClassStub.Proofs.Stub.Bodies
import ClassStub.Proofs.Stub.CheckFailures

/-!
# What stubs are refused for

Checks refuse classes, and only writing fails for what is written
(`ApiRules.write_of_unwritable`).  Writing fails because something is too large
for the format, or in computing the limits of a body.  A stub needs no deep
stacks, so it counts beyond a word only for the parameters of a method that gets a
body (`Stub.overcounts_of_write`).
-/

namespace ClassStub

open MethodBody

/-! ## Checks -/

/-- A computation that never fails because a class cannot be written. -/
def WritesNothing {α : Type} (result : Except ApiError α) : Prop :=
  ∀ cause, result ≠ .error (.unwritable cause)

/-- A check that fails for what is exposed does not write. -/
theorem ExposesOnly.writesNothing {α : Type} {kind : Exposure → Prop} {result : Except ApiError α}
    (hresult : ExposesOnly kind result) : WritesNothing result := by
  intro cause herror
  rcases hresult _ herror with ⟨_, hsame⟩ | ⟨_, hsame, _⟩
  · cases hsame
  · cases hsame

namespace ApiRules

variable {rules : ApiRules} {file : ClassFile} {bytes : List UInt8}

theorem writesNothing_check (rules : ApiRules) (file : ClassFile) :
    WritesNothing (rules.check file) :=
  (rules.exposesOnly_check file).writesNothing

/-- Only writing the surface of a class fails because a class cannot be written. -/
theorem write_of_unwritable {cause : EncodeError} (hfile : ClassFile.decode bytes = .ok file)
    (herror : rules.stub bytes = .error (.unwritable cause)) :
    Stub.write (file.surface rules.policy) = .error cause := by
  rw [stub, hfile] at herror
  rcases bind_eq_error.1 herror with hmalformed | ⟨_, hsame, herror⟩
  · cases hmalformed
  cases hsame
  rcases bind_eq_error.1 herror with hextract | ⟨surface, hextract, herror⟩
  · rcases bind_eq_error.1 hextract with hcheck | ⟨_, _, hsurface⟩
    · exact absurd hcheck (writesNothing_check rules file cause)
    · cases hsurface
  · obtain ⟨_, _, hsurface⟩ := bind_eq_ok.1 hextract
    cases hsurface
    obtain ⟨inner, hwrite, hcause⟩ := mapError_eq_error.1 herror
    cases hcause
    exact hwrite

end ApiRules

/-! ## Writing -/

/-- A body whose stack depths are known counts beyond a word only for the
parameters of its method. -/
theorem MethodBody.overcounts_of_ofInstructions {instructions : List Instruction}
    {method : Method} {peak : Nat} (hpeak : peakDepth instructions = .ok peak)
    (hoverflow : ofInstructions instructions method.descriptor method.isStatic =
      .error .overflow) : method.Overcounts := by
  simp only [ofInstructions, bind_eq_error, mapError_eq_error, mapError_eq_ok,
    refusal_bind_eq_error] at hoverflow
  rcases hoverflow with ⟨_, _, hcause⟩ | ⟨type, htype, ⟨hslots, _⟩ | ⟨_, hrest⟩⟩
  · cases hcause
  · exact ⟨type, htype, hslots⟩
  rcases hrest with hdepth | ⟨_, _, hbody⟩
  · rw [hpeak] at hdepth
    cases hdepth
  · cases hbody

/-- Failures among which an overflow has the given reason. -/
def OverflowsFor (reason : Prop) (cause : EncodeError) : Prop :=
  cause = .overflow → reason

theorem EncodeError.IsSize.overflowsFor {reason : Prop} {cause : EncodeError}
    (hsize : cause.IsSize) : OverflowsFor reason cause := by
  intro hoverflow
  subst hoverflow
  cases hsize

/-- What fails for sizes only does not overflow. -/
theorem FailsOnly.overflowsFor {σ α : Type} {reason : Prop} {computation : EStateM EncodeError σ α}
    (hfails : FailsOnly EncodeError.IsSize computation) :
    FailsOnly (OverflowsFor reason) computation :=
  hfails.mono fun _ hsize => hsize.overflowsFor

/-- An overflow for a reason is one for whatever follows from it. -/
theorem FailsOnly.weaken {σ α : Type} {reason other : Prop} {computation : EStateM EncodeError σ α}
    (hfails : FailsOnly (OverflowsFor reason) computation) (himplies : reason → other) :
    FailsOnly (OverflowsFor other) computation :=
  hfails.mono fun _ hcause hoverflow => himplies (hcause hoverflow)

namespace Stub

/-- The limits of a body overflow only if its method overcounts. -/
theorem failsOnly_body {instructions : List Instruction} {method : Method} {peak : Nat}
    (hpeak : peakDepth instructions = .ok peak) :
    FailsOnly (OverflowsFor method.Overcounts) (body instructions method) := by
  intro draft cause after hrun hoverflow
  subst hoverflow
  unfold body at hrun
  cases hbody : ofInstructions instructions method.descriptor method.isStatic with
  | ok body =>
    rw [hbody] at hrun
    cases hrun
  | error other =>
    rw [hbody] at hrun
    cases hrun
    exact overcounts_of_ofInstructions hpeak hbody

/-- The helper takes no slots. -/
theorem not_overcounts_helper : ¬helper.Overcounts := by
  intro hovercounts
  have hshort : helper.descriptor.length ≤ MethodDescriptor.safeLength := by decide
  exact Nat.not_lt.2 hshort hovercounts.safeLength_lt

/-- Writing the helper does not overflow. -/
theorem failsOnly_writeHelper (reason : Prop) : FailsOnly (OverflowsFor reason) writeHelper := by
  have hbody : FailsOnly (OverflowsFor reason) (body helperCode helper) :=
    (failsOnly_body peakDepth_helperCode).weaken fun hovercounts =>
      absurd hovercounts not_overcounts_helper
  exact hbody.bind fun body => (ClassDraft.failsOnly_writeMethod helper (some body)).overflowsFor

/-- Writing a method overflows only if it has code and overcounts. -/
theorem failsOnly_writeMethod (header : ClassHeader) (method : Method) :
    FailsOnly (OverflowsFor (¬method.flags.has .accAbstract ∧ method.Overcounts))
      (writeMethod header method) := by
  unfold writeMethod
  by_cases habstract : method.flags.has .accAbstract
  · rw [if_pos habstract]
    exact (ClassDraft.failsOnly_writeMethod method none).overflowsFor
  · rw [if_neg habstract]
    have hbody : FailsOnly (OverflowsFor method.Overcounts) (body (failingCode header) method) :=
      failsOnly_body (peakDepth_failingCode header)
    exact (hbody.weaken fun hovercounts => ⟨habstract, hovercounts⟩).bind fun body =>
      (ClassDraft.failsOnly_writeMethod method (some body)).overflowsFor

/-- Some method of a surface is written with a body and overcounts. -/
def Overcounts (surface : Surface) : Prop :=
  ∃ one ∈ surface.methods, ¬(method one).flags.has .accAbstract ∧ (method one).Overcounts

/-- Writing a surface overflows only for one of its methods. -/
theorem failsOnly_writeSurface (surface : Surface) :
    FailsOnly (OverflowsFor (Overcounts surface)) (writeSurface surface) := by
  rw [writeSurface_eq]
  have hmethods : ∀ one ∈ surface.methods, FailsOnly (OverflowsFor (Overcounts surface))
      (writeMethod surface.header (method one)) := fun one hone =>
    (failsOnly_writeMethod surface.header (method one)).weaken fun hmethod => ⟨one, hone, hmethod⟩
  -- First the helper and the mark of the class, then its annotations and members.
  refine FailsOnly.bind ?_ fun _ => FailsOnly.bind ?_ fun _ => ?_
  · split
    · exact FailsOnly.pure ()
    · exact failsOnly_writeHelper _
  · split
    · exact FailsOnly.modify _
    · exact FailsOnly.pure ()
  refine (FailsOnly.modify _).bind fun _ => (FailsOnly.modify _).bind fun _ => ?_
  refine (FailsOnly.forM hmethods).bind fun _ => ?_
  refine (FailsOnly.forM fun one _ => ?_).bind fun _ => ?_
  · exact (ClassDraft.failsOnly_writeField (field one)).overflowsFor
  · exact FailsOnly.forM fun record _ => FailsOnly.modify _

/-- Writing a stub counts beyond a word only for a method that gets a body and
overcounts. -/
theorem overcounts_of_write {surface : Surface} (hoverflow : write surface = .error .overflow) :
    Overcounts surface := by
  unfold write at hoverflow
  rcases bind_eq_error.1 hoverflow with hstart | ⟨draft, _, hoverflow⟩
  · cases ClassDraft.isSize_of_start hstart
  cases hrun : (writeSurface surface).run draft with
  | error cause stopped =>
    rw [hrun] at hoverflow
    cases hoverflow
    exact failsOnly_writeSurface surface draft _ stopped hrun rfl
  | ok _ grown =>
    rw [hrun] at hoverflow
    cases ClassDraft.isSize_of_complete hoverflow

end Stub

end ClassStub
