import ClassStub.Proofs.Code.Limits
import ClassStub.Proofs.Codec.WrittenMethods

/-!
# Computed limits

Computing the limits of instructions and verifying code walk over the operand
stack independently.  What both find is said here by the integer depths behind the
instructions (`Instruction.growth`): limits are computed exactly if nothing is
popped that is not there, otherwise the first fault is reported
(`MethodBody.ofInstructions_exact`).  As long as all counts are words, the limits
are the least ones with which written code can verify, and with them it is never
refused for its limits or for its stack.
-/

namespace ClassStub

open MethodBody Instruction

/-! ## Runs and faults -/

/-- Instructions run from a depth if what they call is typed and nothing is popped
that is not there. -/
structure RunsFrom (depth : Int) (instructions : List Instruction) : Prop where
  typed : ∀ instruction ∈ instructions, instruction.CallsTyped
  popped : ∀ before instruction after, instructions = before ++ instruction :: after →
    instruction.pops ≤ depth + growth before

/-- The depths of an operand stack that is empty at first: that one, and those behind
the instructions. -/
def Instruction.depths (instructions : List Instruction) : Set Int :=
  {depth | ∃ before, before <+: instructions ∧ growth before = depth}

/-- What an instruction with an index reports at a depth: that its callee is
malformed, or that it pops too much. -/
def Instruction.FaultsAt (instruction : Instruction) (index : Nat) (depth : Int)
    (cause : EncodeError) : Prop :=
  (∃ method fault, instruction.callee? = some method ∧
      MethodDescriptor.parse method.descriptor = .error fault ∧ cause = .descriptor fault) ∨
    instruction.CallsTyped ∧ depth < instruction.pops ∧ cause = .stackUnderflow index

/-- What the first faulty one of some instructions reports.  The others before it
run. -/
def FaultsFrom (index : Nat) (depth : Int) (instructions : List Instruction)
    (cause : EncodeError) : Prop :=
  ∃ before instruction after, instructions = before ++ instruction :: after ∧
    RunsFrom depth before ∧
      instruction.FaultsAt (index + before.length) (depth + growth before) cause

/-- All slots that are counted while instructions run are words: those that an
instruction pops, and those on the stack.  Nothing is counted behind a fault. -/
structure CountsFrom (depth : Int) (instructions : List Instruction) : Prop where
  popped : ∀ before instruction after, instructions = before ++ instruction :: after →
    RunsFrom depth before → instruction.pops ≤ maxWord
  depths : ∀ before, before <+: instructions → RunsFrom depth before →
    depth + growth before ≤ maxWord

section

variable {instruction : Instruction} {more : List Instruction} {depth : Int}

theorem runsFrom_nil : RunsFrom depth [] where
  typed := by simp
  popped := by simp

/-- Instructions run if the first one does, and the others from the depth that it
leaves. -/
theorem runsFrom_cons :
    RunsFrom depth (instruction :: more) ↔
      instruction.CallsTyped ∧ instruction.pops ≤ depth ∧
        RunsFrom (depth - instruction.pops + instruction.pushes) more := by
  constructor
  · intro hruns
    have hpopped := hruns.popped
    rw [forall_split_cons] at hpopped
    refine ⟨hruns.typed _ List.mem_cons_self, ?_, ?_⟩
    · simpa only [growth_nil, add_zero] using hpopped.1
    · exact {
        typed := fun one hone => hruns.typed one (List.mem_cons_of_mem _ hone)
        popped := by simpa only [add_growth_cons] using hpopped.2 }
  · intro hruns
    obtain ⟨htyped, hpops, hmore⟩ := hruns
    exact {
      typed := List.forall_mem_cons.2 ⟨htyped, hmore.typed⟩
      popped := forall_split_cons.2
        ⟨by simpa only [growth_nil, add_zero],
          by simpa only [add_growth_cons] using hmore.popped⟩ }

theorem countsFrom_nil (hdepth : depth ≤ maxWord) : CountsFrom depth [] where
  popped := by simp
  depths := by
    intro before hbefore _
    rw [List.prefix_nil.1 hbefore, growth_nil, add_zero]
    exact hdepth

/-- The first depth is among those that are words. -/
theorem CountsFrom.depth_le {instructions : List Instruction}
    (hcounts : CountsFrom depth instructions) : depth ≤ maxWord := by
  simpa only [growth_nil, add_zero] using hcounts.depths [] List.nil_prefix runsFrom_nil

/-- Behind an instruction that is no fault, counting goes on. -/
theorem countsFrom_cons :
    CountsFrom depth (instruction :: more) ↔
      depth ≤ maxWord ∧ instruction.pops ≤ maxWord ∧
        (instruction.CallsTyped → instruction.pops ≤ depth →
          CountsFrom (depth - instruction.pops + instruction.pushes) more) := by
  constructor
  · intro hcounts
    have hpopped := hcounts.popped
    rw [forall_split_cons] at hpopped
    refine ⟨hcounts.depth_le, hpopped.1 runsFrom_nil, fun htyped hpops => ?_⟩
    exact {
      popped := fun before one after hsplit hruns =>
        hpopped.2 before one after hsplit (runsFrom_cons.2 ⟨htyped, hpops, hruns⟩)
      depths := by
        intro before hbefore hruns
        rw [← add_growth_cons]
        exact hcounts.depths _ (List.cons_prefix_cons.2 ⟨rfl, hbefore⟩)
          (runsFrom_cons.2 ⟨htyped, hpops, hruns⟩) }
  · intro hcounts
    obtain ⟨hdepth, hpops, hmore⟩ := hcounts
    exact {
      popped := by
        refine forall_split_cons.2 ⟨fun _ => hpops, fun before one after hsplit hruns => ?_⟩
        obtain ⟨htyped, hthere, hruns⟩ := runsFrom_cons.1 hruns
        exact (hmore htyped hthere).popped before one after hsplit hruns
      depths := by
        intro before hbefore hruns
        rcases List.prefix_cons_iff.1 hbefore with rfl | ⟨rest, rfl, hrest⟩
        · rw [growth_nil, add_zero]
          exact hdepth
        · obtain ⟨htyped, hthere, hruns⟩ := runsFrom_cons.1 hruns
          rw [add_growth_cons]
          exact (hmore htyped hthere).depths rest hrest hruns }

/-- An instruction that does not run at a depth reports something there. -/
theorem exists_faultsAt (index : Nat)
    (hfault : ¬(instruction.CallsTyped ∧ instruction.pops ≤ depth)) :
    ∃ cause, instruction.FaultsAt index depth cause := by
  by_cases htyped : instruction.CallsTyped
  · have hpops : depth < instruction.pops := by
      by_contra hthere
      exact hfault ⟨htyped, not_lt.1 hthere⟩
    exact ⟨_, .inr ⟨htyped, hpops, rfl⟩⟩
  · simp only [CallsTyped, not_forall] at htyped
    obtain ⟨method, hcallee, hparse⟩ := htyped
    cases hresult : MethodDescriptor.parse method.descriptor with
    | ok type => exact absurd ⟨type, hresult⟩ hparse
    | error fault => exact ⟨_, .inl ⟨method, fault, hcallee, hresult, rfl⟩⟩

/-- Instructions either run or have a first fault. -/
theorem runsFrom_or_faultsFrom (index : Nat) (depth : Int) (instructions : List Instruction) :
    RunsFrom depth instructions ∨ ∃ cause, FaultsFrom index depth instructions cause := by
  induction instructions generalizing index depth with
  | nil => exact .inl runsFrom_nil
  | cons instruction more ih =>
    by_cases hthere : instruction.CallsTyped ∧ instruction.pops ≤ depth
    · rcases ih (index + 1) (depth - instruction.pops + instruction.pushes) with hruns | hfaults
      · exact .inl (runsFrom_cons.2 ⟨hthere.1, hthere.2, hruns⟩)
      · obtain ⟨cause, before, one, after, rfl, hruns, hfault⟩ := hfaults
        refine .inr ⟨cause, instruction :: before, one, after, rfl,
          runsFrom_cons.2 ⟨hthere.1, hthere.2, hruns⟩, ?_⟩
        rw [add_growth_cons, List.length_cons, Nat.add_comm before.length 1, ← Nat.add_assoc]
        exact hfault
    · obtain ⟨cause, hfault⟩ := exists_faultsAt index hthere
      refine .inr ⟨cause, [], instruction, more, rfl, runsFrom_nil, ?_⟩
      rw [growth_nil, add_zero]
      exact hfault

end

/-! ## Computing the greatest depth -/

section

variable {instruction : Instruction} {instructions more : List Instruction}
  {index depth peak : Nat} {cause : EncodeError}

/-- The effect of a typed instruction is what it pops and pushes. -/
theorem Instruction.effect_of_typed (htyped : instruction.CallsTyped)
    (hpops : instruction.pops ≤ maxWord) :
    instruction.effect = .ok { popped := instruction.pops, pushed := instruction.pushes } :=
  effect_eq_ok_iff.2 ⟨htyped, hpops, rfl⟩

/-- A call of what has no type has no effect, and its fault is reported. -/
theorem Instruction.effect_of_malformed {method : MemberRef} {fault : DescriptorError}
    (hcallee : instruction.callee? = some method)
    (hfault : MethodDescriptor.parse method.descriptor = .error fault) :
    instruction.effect = .error (.descriptor fault) := by
  have hcall : ∀ receiver, callEffect method receiver = .error (.descriptor fault) := by
    intro receiver
    rw [callEffect, hfault]
    rfl
  cases instruction <;> cases hcallee <;> exact hcall _

/-- A faulty instruction stops the computation with what it reports. -/
theorem peakFrom_of_faultsAt (hfault : instruction.FaultsAt index depth cause)
    (hpops : instruction.pops ≤ maxWord) :
    peakFrom index depth peak (instruction :: more) = .error cause := by
  rcases hfault with ⟨method, fault, hcallee, hparse, rfl⟩ | ⟨htyped, hless, rfl⟩
  · rw [peakFrom, effect_of_malformed hcallee hparse]
  · simp only [peakFrom, effect_of_typed htyped hpops]
    rw [if_pos (Int.ofNat_lt.1 hless)]

/-- An instruction that runs hands over the depth behind it. -/
theorem CountsFrom.exists_next (hcounts : CountsFrom depth (instruction :: more))
    (htyped : instruction.CallsTyped) (hthere : (instruction.pops : Int) ≤ depth) :
    ∃ next : Nat, (depth : Int) - instruction.pops + instruction.pushes = next ∧
      CountsFrom next more ∧ ∀ index peak,
        peakFrom index depth peak (instruction :: more) =
          peakFrom (index + 1) next (max peak next) more := by
  obtain ⟨_, hpops, hmore⟩ := countsFrom_cons.1 hcounts
  have hcounted := hmore htyped hthere
  obtain ⟨next, hnext⟩ := Int.eq_ofNat_of_zero_le
    (show (0 : Int) ≤ depth - instruction.pops + instruction.pushes by omega)
  rw [hnext] at hcounted
  have hword : (next : Int) ≤ maxWord := hcounted.depth_le
  refine ⟨next, hnext, hcounted, fun index peak => ?_⟩
  obtain rfl : next = depth - instruction.pops + instruction.pushes := by omega
  simp only [peakFrom, effect_of_typed htyped hpops]
  rw [if_neg (by omega), if_neg (by omega)]

/-- The first fault is reported.  The induction is on the instructions before it. -/
theorem peakFrom_of_faultsFrom (hcounts : CountsFrom depth instructions)
    (hfaults : FaultsFrom index depth instructions cause) :
    peakFrom index depth peak instructions = .error cause := by
  obtain ⟨before, instruction, after, rfl, hruns, hfault⟩ := hfaults
  induction before generalizing index depth peak with
  | nil =>
    rw [growth_nil, add_zero] at hfault
    exact peakFrom_of_faultsAt hfault (countsFrom_cons.1 hcounts).2.1
  | cons first before ih =>
    rw [List.cons_append] at hcounts ⊢
    obtain ⟨htyped, hthere, hruns⟩ := runsFrom_cons.1 hruns
    obtain ⟨next, hnext, hcounted, hstep⟩ := hcounts.exists_next htyped hthere
    rw [add_growth_cons, List.length_cons, Nat.add_comm before.length 1, ← Nat.add_assoc, hnext]
      at hfault
    rw [hnext] at hruns
    rw [hstep]
    exact ih hcounted hruns hfault

/-- Instructions that run have a greatest depth: it is that behind some of them, or
the greatest one before, and no depth is greater. -/
theorem exists_peakFrom (hcounts : CountsFrom depth instructions)
    (hruns : RunsFrom depth instructions) (hpeak : depth ≤ peak) :
    ∃ top, peakFrom index depth peak instructions = .ok top ∧ peak ≤ top ∧
      (∀ before, before <+: instructions → depth + growth before ≤ top) ∧
        (top = peak ∨ ∃ before, before <+: instructions ∧ depth + growth before = top) := by
  induction instructions generalizing index depth peak with
  | nil =>
    refine ⟨peak, rfl, Nat.le_refl _, ?_, .inl rfl⟩
    intro before hbefore
    rw [List.prefix_nil.1 hbefore, growth_nil, add_zero]
    exact Int.ofNat_le.2 hpeak
  | cons instruction more ih =>
    obtain ⟨htyped, hthere, hmore⟩ := runsFrom_cons.1 hruns
    obtain ⟨next, hnext, hcounted, hstep⟩ := hcounts.exists_next htyped hthere
    rw [hnext] at hmore
    -- The others start with the depth that the first one leaves among those to compare.
    obtain ⟨top, htop, hle, hall, hsome⟩ :=
      @ih (index + 1) next (max peak next) hcounted hmore (Nat.le_max_right _ _)
    have hpeakTop : peak ≤ top := (Nat.le_max_left _ _).trans hle
    refine ⟨top, (hstep index peak).trans htop, hpeakTop, ?_, ?_⟩
    · intro before hbefore
      rcases List.prefix_cons_iff.1 hbefore with rfl | ⟨rest, rfl, hrest⟩
      · rw [growth_nil, add_zero]
        exact Int.ofNat_le.2 (hpeak.trans hpeakTop)
      · rw [add_growth_cons, hnext]
        exact hall rest hrest
    · have hbehind : ∀ before, before <+: more → (next : Int) + growth before = top →
          ∃ before, before <+: instruction :: more ∧ depth + growth before = top := by
        intro before hbefore hdepth
        refine ⟨instruction :: before, List.cons_prefix_cons.2 ⟨rfl, hbefore⟩, ?_⟩
        rw [add_growth_cons, hnext]
        exact hdepth
      rcases hsome with hmax | ⟨before, hbefore, hdepth⟩
      · rcases Nat.le_total next peak with hless | hmore
        · exact .inl (hmax.trans (Nat.max_eq_left hless))
        · refine .inr (hbehind [] List.nil_prefix ?_)
          rw [growth_nil, add_zero, hmax, Nat.max_eq_right hmore]
      · exact .inr (hbehind before hbefore hdepth)

end

/-! ## Verifying with computed limits -/

/-- A fault that lies in the declared limits, or in the stack that they bound. -/
def VerifyError.BreaksLimit : VerifyError → Prop
  | tooFewLocals .. | stackUnderflow .. | stackOverflow .. => True
  | _ => False

section

variable {code : CodeBytes} {label : String} {index depth peak top : Nat} {cause : VerifyError}
  {instruction : Instruction} {instructions : List Instruction}

/-- A slot that a method has not got breaks none of its limits. -/
theorem not_breaksLimit_of_verifyLocal
    (herror : verifyLocal label code instruction = .error cause) : ¬cause.BreaksLimit := by
  cases instruction with
  | aload slot =>
    rw [verifyLocal] at herror
    split at herror
    · cases herror
    · cases herror
      exact id
  | _ => cases herror

/-- Verification meets the depths whose greatest one was computed, so it stops for
other reasons only. -/
theorem not_breaksLimit_of_verifyFrom (hpeak : peakFrom index depth peak instructions = .ok top)
    (htop : top ≤ code.maxStack.toNat)
    (herror : verifyFrom label code index depth instructions = .error cause) :
    ¬cause.BreaksLimit := by
  induction instructions generalizing index depth peak with
  | nil =>
    cases herror
    exact id
  | cons instruction more ih =>
    obtain ⟨effect, heffect, hpopped, _, hmore⟩ := peakFrom_cons_eq_ok.1 hpeak
    have hdepth : depth - effect.popped + effect.pushed ≤ code.maxStack.toNat :=
      ((Nat.le_max_right _ _).trans (le_of_peakFrom hmore)).trans htop
    have hstack : verifyStack label code index depth instruction =
        .ok (depth - effect.popped + effect.pushed) :=
      verifyStack_eq_ok_iff.2 ⟨effect, heffect, hpopped, rfl, hdepth⟩
    rw [verifyFrom, bind_eq_error, hstack] at herror
    rcases herror with hlocal | ⟨_, _, herror⟩
    · exact not_breaksLimit_of_verifyLocal hlocal
    obtain hfails | ⟨_, hnext, herror⟩ := bind_eq_error.1 herror
    · cases hfails
    cases hnext
    by_cases hends : instruction.endsCode
    · simp only [hends, ↓reduceIte] at herror
      cases more with
      | nil => cases herror
      | cons _ _ =>
        cases herror
        exact id
    · simp only [hends] at herror
      exact ih hmore herror

end

/-! ## Limits of written methods -/

/-- Verification does not find the limits of a method broken.  What the whole class
is refused for, if it is that, lies in another method. -/
structure ClassFile.KeepsLimits (file : ClassFile) (method : Method) : Prop where
  alone : ∀ cause, file.verifyMethod method = .error cause → ¬cause.BreaksLimit
  among : ∀ cause, file.verify = .error cause → cause.BreaksLimit →
    ∃ other ∈ file.methods, other ≠ method ∧ file.verifyMethod other = .error cause

/-- A class keeps the limits of a method if that is so for the method alone. -/
theorem ClassFile.keepsLimits_of_alone {file : ClassFile} {method : Method}
    (halone : ∀ cause, file.verifyMethod method = .error cause → ¬cause.BreaksLimit) :
    file.KeepsLimits method where
  alone := halone
  among := by
    intro cause herror hbreaks
    obtain ⟨other, hother, hcause⟩ := forM_eq_error herror
    refine ⟨other, hother, ?_, hcause⟩
    rintro rfl
    exact halone cause hcause hbreaks

namespace MethodBody

section

variable {instructions : List Instruction} {descriptor : String} {isStatic : Bool}
  {body declared : MethodBody} {file : ClassFile} {method : Method} {code : CodeBytes}

/-- A method whose code has the computed limits does not break them. -/
theorem not_breaksLimit_of_verifyMethod
    (hbody : ofInstructions instructions method.descriptor method.isStatic = .ok body)
    (hcode : method.code = some code) (hwritten : body.WrittenAs file.pool code)
    {cause : VerifyError} (herror : file.verifyMethod method = .error cause) :
    ¬cause.BreaksLimit := by
  unfold ClassFile.verifyMethod at herror
  rw [hcode] at herror
  cases hlacks : method.lacksCode with
  | true =>
    rw [hlacks] at herror
    cases herror
    exact id
  | false =>
    rw [hlacks] at herror
    obtain ⟨peak, hpeak, hmax, hverify⟩ :=
      verifyCode_eq_verifyFrom (file.methodLabel method) hbody hwritten
    have hrun := hverify.symm.trans herror
    exact not_breaksLimit_of_verifyFrom hpeak hmax.symm.le hrun

/-- A class is refused if the code of a method has a smaller limit. -/
theorem exists_verify_eq_error {top : Nat} {type : MethodDescriptor}
    (htype : MethodDescriptor.parse method.descriptor = .ok type)
    (htop : IsGreatest (depths instructions) top)
    (hmethod : method ∈ file.methods) (hcode : method.code = some code)
    (hwritten : declared.WrittenAs file.pool code) (hsame : declared.instructions = instructions)
    (hless : declared.maxStack.toNat < top ∨
      declared.maxLocals.toNat < localSlots type method.isStatic) :
    ∃ cause, file.verify = .error cause := by
  cases hverify : file.verify with
  | error cause => exact ⟨cause, rfl⟩
  | ok _ =>
    exfalso
    have hsound := file.verify_eq_ok_iff_sound.1 hverify method hmethod
    rcases hsound with ⟨_, hnone⟩ | ⟨_, found, hfound, hsound⟩
    · rw [hnone] at hcode
      cases hcode
    obtain rfl : found = code := Option.some.inj (hfound.symm.trans hcode)
    rcases hless with hstack | hlocals
    · obtain ⟨read, hread, _, hstays⟩ := hsound.instructions
      rw [hwritten.disassemble_eq, hsame] at hread
      cases hread
      rw [← hwritten.maxStack_eq] at hstack
      -- The greatest depth is behind some instruction, where sound code keeps its limit.
      obtain ⟨before, ⟨after, hsplit⟩, hdepth⟩ := htop.1
      rcases List.eq_nil_or_concat before with rfl | ⟨shorter, last, rfl⟩
      · rw [growth_nil] at hdepth
        omega
      · have hpushed := hstays.pushed shorter last after (by simpa using hsplit.symm)
        rw [List.concat_eq_append] at hdepth
        rw [hdepth] at hpushed
        omega
    · obtain ⟨other, hother, hparameters⟩ := hsound.parameters
      obtain rfl : other = type := Except.ok.inj (hother.symm.trans htype)
      rw [← hwritten.maxLocals_eq] at hlocals
      exact absurd hparameters (not_le.2 hlocals)

end

/-- The slots that are counted for the limits are words. -/
structure CountsFit (instructions : List Instruction) (descriptor : String) (isStatic : Bool) :
    Prop where
  locals : ∀ type, MethodDescriptor.parse descriptor = .ok type →
    localSlots type isStatic ≤ maxWord
  stack : CountsFrom 0 instructions

/-- The limits that are computed, in terms of all depths of the stack and of the
methods that are written with the instructions. -/
structure ComputedExactly (instructions : List Instruction) (descriptor : String)
    (isStatic : Bool) : Prop where
  succeeds : (∃ body, ofInstructions instructions descriptor isStatic = .ok body) ↔
    (∃ type, MethodDescriptor.parse descriptor = .ok type) ∧ RunsFrom 0 instructions
  fails : ∀ cause, ofInstructions instructions descriptor isStatic = .error cause ↔
    (∃ fault, MethodDescriptor.parse descriptor = .error fault ∧ cause = .descriptor fault) ∨
      (∃ type, MethodDescriptor.parse descriptor = .ok type) ∧ FaultsFrom 0 0 instructions cause
  limits : ∀ body, ofInstructions instructions descriptor isStatic = .ok body →
    body.instructions = instructions ∧
      IsGreatest (depths instructions) body.maxStack.toNat ∧
      ∃ type, MethodDescriptor.parse descriptor = .ok type ∧
        body.maxLocals.toNat = localSlots type isStatic
  verifies : ∀ body, ofInstructions instructions descriptor isStatic = .ok body →
    ∀ script : ClassScript, script.Fits → ∀ bytes, script.write = .ok bytes →
      ∀ file, ClassFile.decode bytes = .ok file → ∀ method declared,
        (method, some declared) ∈ script.methods → method.descriptor = descriptor →
          method.isStatic = isStatic → declared.instructions = instructions →
            method ∈ file.methods ∧ (declared = body → file.KeepsLimits method) ∧
            (declared.maxStack < body.maxStack ∨ declared.maxLocals < body.maxLocals →
              ∃ cause, file.verify = .error cause)

/-- Limits are refused for the descriptor, for the local slots or for the stack. -/
theorem ofInstructions_eq_error {instructions : List Instruction} {descriptor : String}
    {isStatic : Bool} {cause : EncodeError} :
    ofInstructions instructions descriptor isStatic = .error cause ↔
      (∃ fault, MethodDescriptor.parse descriptor = .error fault ∧ cause = .descriptor fault) ∨
        ∃ type, MethodDescriptor.parse descriptor = .ok type ∧
          (maxWord < localSlots type isStatic ∧ cause = .overflow ∨
            localSlots type isStatic ≤ maxWord ∧ peakDepth instructions = .error cause) := by
  simp only [ofInstructions, bind_eq_error, mapError_eq_error, mapError_eq_ok,
    refusal_bind_eq_error, not_lt]
  constructor
  · intro herror
    rcases herror with ⟨fault, hfault, rfl⟩ | ⟨type, htype, ⟨hlocals, rfl⟩ | ⟨hlocals, hpeak⟩⟩
    · exact .inl ⟨fault, hfault, rfl⟩
    · exact .inr ⟨type, htype, .inl ⟨hlocals, rfl⟩⟩
    · rcases hpeak with hpeak | ⟨_, _, hnever⟩
      · exact .inr ⟨type, htype, .inr ⟨hlocals, hpeak⟩⟩
      · cases hnever
  · intro herror
    rcases herror with ⟨fault, hfault, rfl⟩ | ⟨type, htype, ⟨hlocals, rfl⟩ | ⟨hlocals, hpeak⟩⟩
    · exact .inl ⟨fault, hfault, rfl⟩
    · exact .inr ⟨type, htype, .inl ⟨hlocals, rfl⟩⟩
    · exact .inr ⟨type, htype, .inr ⟨hlocals, .inl hpeak⟩⟩

/-- Instructions have a greatest depth exactly if they run, and otherwise the first
fault is reported. -/
theorem peakDepth_outcome {instructions : List Instruction} (hcounts : CountsFrom 0 instructions) :
    (∀ top, peakDepth instructions = .ok top → RunsFrom 0 instructions ∧
      IsGreatest (depths instructions) top) ∧
    (RunsFrom 0 instructions → ∃ top, peakDepth instructions = .ok top) ∧
      ∀ cause, peakDepth instructions = .error cause ↔ FaultsFrom 0 0 instructions cause := by
  have hruns : RunsFrom 0 instructions → ∃ top, peakDepth instructions = .ok top ∧
      IsGreatest (depths instructions) top := by
    intro hruns
    obtain ⟨top, htop, _, hall, hsome⟩ := @exists_peakFrom _ 0 0 0 hcounts hruns (Nat.le_refl 0)
    simp only [Nat.cast_zero, zero_add] at hall hsome
    refine ⟨top, htop, ?_, ?_⟩
    · rcases hsome with rfl | hsome
      · exact ⟨[], List.nil_prefix, growth_nil⟩
      · exact hsome
    · intro depth hdepth
      obtain ⟨before, hbefore, rfl⟩ := hdepth
      exact hall before hbefore
  have hfaults : ∀ cause, FaultsFrom 0 0 instructions cause →
      peakDepth instructions = .error cause :=
    fun _ hfault => peakFrom_of_faultsFrom hcounts hfault
  rcases runsFrom_or_faultsFrom 0 0 instructions with hrun | ⟨first, hfirst⟩
  · obtain ⟨top, htop, hgreatest⟩ := hruns hrun
    refine ⟨fun other hother => ?_, fun _ => ⟨top, htop⟩, fun cause => ?_⟩
    · cases htop.symm.trans hother
      exact ⟨hrun, hgreatest⟩
    · refine ⟨fun herror => ?_, hfaults cause⟩
      cases htop.symm.trans herror
  · have herror := hfaults first hfirst
    refine ⟨fun other hother => ?_, fun hrun => ?_, fun cause => ?_⟩
    · cases herror.symm.trans hother
    · obtain ⟨top, htop, _⟩ := hruns hrun
      exact ⟨top, htop⟩
    · refine ⟨fun hcause => ?_, hfaults cause⟩
      cases herror.symm.trans hcause
      exact hfirst

section

variable {instructions : List Instruction} {descriptor : String} {isStatic : Bool}
  {body : MethodBody}

/-- A computed body has the greatest depth and the slots that its method needs. -/
theorem limits_of_ofInstructions (hcounts : CountsFrom 0 instructions)
    (hbody : ofInstructions instructions descriptor isStatic = .ok body) :
    body.instructions = instructions ∧
      IsGreatest (depths instructions) body.maxStack.toNat ∧
      ∃ type, MethodDescriptor.parse descriptor = .ok type ∧
        body.maxLocals.toNat = localSlots type isStatic := by
  obtain ⟨type, htype, hword, peak, htop, rfl⟩ := ofInstructions_eq_ok.1 hbody
  refine ⟨rfl, ?_, type, htype, toNat_ofNat_count hword⟩
  rw [toNat_ofNat_count (peakDepth_le_maxWord htop)]
  exact ((peakDepth_outcome hcounts).1 peak htop).2

/-- What verification says about a written method, by its limits. -/
theorem verifies_written (hcounts : CountsFrom 0 instructions) {file : ClassFile}
    {method : Method} {declared : MethodBody}
    (hbody : ofInstructions instructions method.descriptor method.isStatic = .ok body)
    (hsame : declared.instructions = instructions) (hmethod : method ∈ file.methods)
    (hshows : MethodShows file.pool (method, some declared) method) :
    (declared = body → file.KeepsLimits method) ∧
      (declared.maxStack < body.maxStack ∨ declared.maxLocals < body.maxLocals →
        ∃ cause, file.verify = .error cause) := by
  obtain ⟨_, hwritten⟩ := hshows
  cases hcode : method.code with
  | none =>
    rw [hcode] at hwritten
    cases hwritten
  | some code =>
    rw [hcode] at hwritten
    cases hwritten with
    | some hwritten =>
      constructor
      · intro hdeclared
        subst hdeclared
        exact ClassFile.keepsLimits_of_alone fun _ herror =>
          not_breaksLimit_of_verifyMethod hbody hcode hwritten herror
      · intro hless
        obtain ⟨_, hgreatest, type, htype, hlocals⟩ := limits_of_ofInstructions hcounts hbody
        refine exists_verify_eq_error htype hgreatest hmethod hcode hwritten hsame ?_
        rw [← hlocals]
        exact hless.imp UInt16.lt_iff_toNat_lt.1 UInt16.lt_iff_toNat_lt.1

/-- **Computed limits are exact.** -/
theorem ofInstructions_exact (hfit : CountsFit instructions descriptor isStatic) :
    ComputedExactly instructions descriptor isStatic := by
  obtain ⟨hpeak, hruns, herror⟩ := peakDepth_outcome hfit.stack
  exact {
    succeeds := by
      constructor
      · intro hsucceeds
        obtain ⟨body, hbody⟩ := hsucceeds
        obtain ⟨type, htype, _, peak, htop, _⟩ := ofInstructions_eq_ok.1 hbody
        exact ⟨⟨type, htype⟩, (hpeak peak htop).1⟩
      · intro hgood
        obtain ⟨⟨type, htype⟩, hrun⟩ := hgood
        obtain ⟨top, htop⟩ := hruns hrun
        have hword := hfit.locals type htype
        exact ⟨_, ofInstructions_eq_ok.2 ⟨type, htype, hword, top, htop, rfl⟩⟩
    fails := by
      intro cause
      rw [ofInstructions_eq_error, ← herror]
      apply or_congr_right
      constructor
      · intro hbehind
        obtain ⟨type, htype, ⟨hlocals, _⟩ | ⟨_, hcause⟩⟩ := hbehind
        · exact absurd (hfit.locals type htype) (not_le.2 hlocals)
        · exact ⟨⟨type, htype⟩, hcause⟩
      · intro hbehind
        obtain ⟨⟨type, htype⟩, hcause⟩ := hbehind
        exact ⟨type, htype, .inr ⟨hfit.locals type htype, hcause⟩⟩
    limits := fun body hbody => limits_of_ofInstructions hfit.stack hbody
    verifies := by
      intro body hbody script hscript bytes hwrite file hdecode method declared hmethod hdescriptor
        hstatic hsame
      subst hdescriptor hstatic
      have hshown := ClassScript.methods_of_decode hscript hwrite hdecode
      obtain ⟨shown, hmember, hshows⟩ := exists_of_forall₂ hshown.flip hmethod
      obtain rfl : shown = method := hshows.1
      exact ⟨hmember, verifies_written hfit.stack hbody hsame hmember hshows⟩ }

/-- A constructor that passes a literal to another one. -/
def sampleCall : List Instruction :=
  [.aload 0, .ldc (.int 7),
    .invokeSpecial { owner := "p/A", name := "<init>", descriptor := "(I)V" }, .returnVoid]

/-- A class with the constructor as its one method. -/
def sampleCallScript : ClassScript where
  header := {
    version := { major := 55, minor := 0 }
    flags := .accPublic
    name := "p/A"
    superName := none
    interfaces := [] }
  steps := [
    .writeMethod { flags := .accPublic, name := "<init>", descriptor := "(J)V" }
      (some { maxStack := 2, maxLocals := 3, instructions := sampleCall })]

/-- The bytes of that class. -/
def sampleCallBytes : List UInt8 :=
  [0xca, 0xfe, 0xba, 0xbe, 0x00, 0x00, 0x00, 0x37, 0x00, 0x0a, 0x01, 0x00, 0x03, 0x70, 0x2f,
    0x41, 0x07, 0x00, 0x01, 0x01, 0x00, 0x06, 0x3c, 0x69, 0x6e, 0x69, 0x74, 0x3e, 0x01, 0x00,
    0x04, 0x28, 0x4a, 0x29, 0x56, 0x03, 0x00, 0x00, 0x00, 0x07, 0x01, 0x00, 0x04, 0x28, 0x49,
    0x29, 0x56, 0x0c, 0x00, 0x03, 0x00, 0x06, 0x0a, 0x00, 0x02, 0x00, 0x07, 0x01, 0x00, 0x04,
    0x43, 0x6f, 0x64, 0x65, 0x00, 0x01, 0x00, 0x02, 0x00, 0x00, 0x00, 0x00, 0x00, 0x00, 0x00,
    0x01, 0x00, 0x01, 0x00, 0x03, 0x00, 0x04, 0x00, 0x01, 0x00, 0x09, 0x00, 0x00, 0x00, 0x13,
    0x00, 0x02, 0x00, 0x03, 0x00, 0x00, 0x00, 0x07, 0x2a, 0x12, 0x05, 0xb7, 0x00, 0x08, 0xb1,
    0x00, 0x00, 0x00, 0x00, 0x00, 0x00]

/-- The limits of the constructor are two slots on the stack and three local ones,
with which it verifies. -/
theorem ofInstructions_exact_sampleCall :
    CountsFit sampleCall "(J)V" false ∧
      ofInstructions sampleCall "(J)V" false =
        .ok { maxStack := 2, maxLocals := 3, instructions := sampleCall } ∧
      sampleCallScript.Fits ∧ sampleCallScript.write = .ok sampleCallBytes ∧
      (ClassFile.decode sampleCallBytes).toOption.map ClassFile.verify = some (.ok ()) ∧
      ComputedExactly sampleCall "(J)V" false := by
  have hlocals : (MethodDescriptor.parse "(J)V").map (localSlots · false) = .ok 3 := by cbv
  have hpops : (invokeSpecial { owner := "p/A", name := "<init>", descriptor := "(I)V" }).pops =
      2 := by
    cbv
  have hpushes : (invokeSpecial
      { owner := "p/A", name := "<init>", descriptor := "(I)V" }).pushes = 0 := by
    cbv
  have hfit : CountsFit sampleCall "(J)V" false := {
    locals := by
      intro type htype
      rw [htype] at hlocals
      have hthree : localSlots type false = 3 := Except.ok.inj hlocals
      rw [hthree]
      decide
    stack := by
      refine countsFrom_cons.2 ⟨by decide, by decide, fun _ _ => ?_⟩
      refine countsFrom_cons.2 ⟨by decide, by decide, fun _ _ => ?_⟩
      refine countsFrom_cons.2 ⟨by decide, by rw [hpops]; decide, fun _ _ => ?_⟩
      rw [hpops, hpushes]
      exact countsFrom_cons.2 ⟨by decide, by decide, fun _ _ => countsFrom_nil (by decide)⟩ }
  have hscript : sampleCallScript.Fits := {
    version := ⟨by decide, by decide⟩
    steps := by
      simp only [sampleCallScript, List.forall_mem_singleton, ClassStep.Fits]
      exact ⟨by decide, by decide, by simp, by simp, by simp⟩
    visible := by decide
    invisible := by decide }
  exact ⟨hfit, by cbv, hscript, by cbv, by cbv, ofInstructions_exact hfit⟩

end

end MethodBody

end ClassStub
