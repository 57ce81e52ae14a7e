import Mathlib
import ClassStub.Proofs.Code.SoundCode
import ClassStub.Proofs.Codec.Member

/-!
# Limits of bodies

The limits that are computed for instructions are exact
(`MethodBody.ofInstructions_eq_ok`), and they are limits that verification
accepts: what the computation has seen of the operand stack is what the
verification sees (`verifyFrom_of_peakFrom`).  So straight-line code that was
written from such a body verifies (`verifyCode_of_writtenAs`).
-/

namespace ClassStub

open MethodBody Instruction

/-- Whether the last one of some instructions, and no other, ends the method. -/
def endsLast : List Instruction → Bool
  | [] => false
  | instruction :: more =>
    if more.isEmpty then instruction.endsCode else !instruction.endsCode && endsLast more

/-! ## Stack depths -/

namespace MethodBody

variable {instruction : Instruction} {instructions : List Instruction}
  {index depth peak top : Nat}

/-- What the greatest depth says about the first instruction. -/
theorem peakFrom_cons_eq_ok :
    peakFrom index depth peak (instruction :: instructions) = .ok top ↔
      ∃ effect, instruction.effect = .ok effect ∧ effect.popped ≤ depth ∧
        depth - effect.popped + effect.pushed ≤ maxWord ∧
        peakFrom (index + 1) (depth - effect.popped + effect.pushed)
          (max peak (depth - effect.popped + effect.pushed)) instructions = .ok top := by
  rw [peakFrom]
  cases heffect : instruction.effect with
  | error cause => cases cause <;> simp
  | ok effect =>
    by_cases hpopped : depth < effect.popped
    · simp [hpopped, Nat.not_le.2 hpopped]
    · by_cases hdepth : maxWord < depth - effect.popped + effect.pushed
      · simp [hpopped, hdepth, Nat.not_le.2 hdepth]
      · simp [hpopped, hdepth, Nat.not_lt.1 hpopped, Nat.not_lt.1 hdepth]

/-- The greatest depth is not below one that was there before. -/
theorem le_of_peakFrom (hpeak : peakFrom index depth peak instructions = .ok top) :
    peak ≤ top := by
  induction instructions generalizing index depth peak with
  | nil => exact Nat.le_of_eq (Except.ok.inj hpeak)
  | cons instruction instructions ih =>
    obtain ⟨effect, _, _, _, hmore⟩ := peakFrom_cons_eq_ok.1 hpeak
    exact Nat.le_trans (Nat.le_max_left _ _) (ih hmore)

/-- A computed depth is a word. -/
theorem peakFrom_le_maxWord (hword : peak ≤ maxWord)
    (hpeak : peakFrom index depth peak instructions = .ok top) : top ≤ maxWord := by
  induction instructions generalizing index depth peak with
  | nil =>
    cases hpeak
    exact hword
  | cons instruction instructions ih =>
    obtain ⟨effect, _, _, hdepth, hmore⟩ := peakFrom_cons_eq_ok.1 hpeak
    exact ih (Nat.max_le.2 ⟨hword, hdepth⟩) hmore

theorem peakDepth_le_maxWord (hpeak : peakDepth instructions = .ok top) : top ≤ maxWord :=
  peakFrom_le_maxWord (Nat.zero_le _) hpeak

/-- A body has the limits that its instructions and its method need. -/
theorem ofInstructions_eq_ok {descriptor : String} {isStatic : Bool} {body : MethodBody} :
    ofInstructions instructions descriptor isStatic = .ok body ↔
      ∃ type, MethodDescriptor.parse descriptor = .ok type ∧
        localSlots type isStatic ≤ maxWord ∧ ∃ peak, peakDepth instructions = .ok peak ∧
          body = {
            maxStack := UInt16.ofNat peak
            maxLocals := UInt16.ofNat (localSlots type isStatic)
            instructions } := by
  simp only [ofInstructions, bind_eq_ok, mapError_eq_ok, refusal_bind_eq_ok, Nat.not_lt]
  refine exists_congr fun type => and_congr_right fun _ => and_congr_right fun _ => ?_
  exact exists_congr fun peak => and_congr_right fun _ =>
    ⟨fun hbody => (Except.ok.inj hbody).symm, fun hbody => congrArg Except.ok hbody.symm⟩

end MethodBody

/-! ## Verification -/

section Verification

variable {code : CodeBytes} {instruction : Instruction} {instructions : List Instruction}
  {depth peak top : Nat}

/-- Verification sees the stack depths whose greatest one was computed. -/
theorem verifyFrom_of_peakFrom (label : String) {index : Nat} (hends : endsLast instructions)
    (hlocals : ∀ slot, .aload slot ∈ instructions → slot.toNat < code.maxLocals.toNat)
    (hpeak : peakFrom index depth peak instructions = .ok top)
    (htop : top ≤ code.maxStack.toNat) :
    verifyFrom label code index depth instructions = .ok () := by
  induction instructions generalizing index depth peak with
  | nil => cases hends
  | cons instruction more ih =>
    obtain ⟨effect, heffect, hpopped, _, hmore⟩ := peakFrom_cons_eq_ok.1 hpeak
    have hdepth : depth - effect.popped + effect.pushed ≤ code.maxStack.toNat :=
      Nat.le_trans (Nat.le_trans (Nat.le_max_right _ _) (le_of_peakFrom hmore)) htop
    have hlocal : ∀ slot, instruction = .aload slot → slot.toNat < code.maxLocals.toNat :=
      fun slot hslot => hlocals slot (hslot ▸ List.mem_cons_self)
    have hstack : verifyStack label code index depth instruction =
        .ok (depth - effect.popped + effect.pushed) :=
      verifyStack_eq_ok_iff.2 ⟨effect, heffect, hpopped, rfl, hdepth⟩
    refine verifyFrom_cons_eq_ok_iff.2 ⟨hlocal, _, hstack, ?_⟩
    rw [endsLast] at hends
    cases hmoreEmpty : more.isEmpty with
    | true =>
      rw [hmoreEmpty, if_pos rfl] at hends
      exact .inl ⟨endsCode_iff.1 hends, List.isEmpty_iff.1 hmoreEmpty⟩
    | false =>
      rw [hmoreEmpty, if_neg Bool.false_ne_true, Bool.and_eq_true, Bool.not_eq_true'] at hends
      have hpasses : instruction ∉ terminators := fun hterminator =>
        absurd (endsCode_iff.2 hterminator) (Bool.eq_false_iff.1 hends.1)
      exact .inr ⟨hpasses,
        ih hends.2 (fun slot hslot => hlocals slot (List.mem_cons_of_mem _ hslot)) hmore⟩

/-- Code that was written from a body with computed limits passes all that is
checked before its instructions. -/
theorem verifyCode_eq_verifyFrom {pool : Pool} (label : String) {method : Method}
    {body : MethodBody}
    (hbody : ofInstructions instructions method.descriptor method.isStatic = .ok body)
    (hwritten : body.WrittenAs pool code) :
    ∃ peak, peakDepth instructions = .ok peak ∧ code.maxStack.toNat = peak ∧
      verifyCode pool label method code = verifyFrom label code 0 0 instructions := by
  obtain ⟨type, htype, hword, peak, hpeak, rfl⟩ := ofInstructions_eq_ok.1 hbody
  have hmaxLocals : code.maxLocals.toNat = localSlots type method.isStatic := by
    rw [hwritten.maxLocals_eq]
    exact toNat_ofNat_count hword
  have hmaxStack : code.maxStack.toNat = peak := by
    rw [hwritten.maxStack_eq]
    exact toNat_ofNat_count (peakDepth_le_maxWord hpeak)
  refine ⟨peak, hpeak, hmaxStack, ?_⟩
  simp only [verifyCode, htype, hmaxLocals, hwritten.disassemble_eq, Except.mapError, Bind.bind,
    Except.bind, Nat.not_lt.2 hword, Nat.lt_irrefl, ↓reduceIte]

/-- Straight-line code that was written from a body with computed limits
verifies. -/
theorem verifyCode_of_writtenAs {pool : Pool} (label : String) (method : Method)
    {body : MethodBody}
    (hbody : ofInstructions instructions method.descriptor method.isStatic = .ok body)
    (hends : endsLast instructions)
    (hlocals : ∀ slot, .aload slot ∈ instructions → slot.toNat < body.maxLocals.toNat)
    (hwritten : body.WrittenAs pool code) : verifyCode pool label method code = .ok () := by
  obtain ⟨peak, hpeak, hmaxStack, hverify⟩ := verifyCode_eq_verifyFrom label hbody hwritten
  rw [hverify]
  refine verifyFrom_of_peakFrom label hends ?_ hpeak (Nat.le_of_eq hmaxStack.symm)
  rw [hwritten.maxLocals_eq]
  exact hlocals

end Verification

end ClassStub
