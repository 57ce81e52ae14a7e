import Mathlib
import ClassStub.ClassFile.Verification
import ClassStub.Proofs.Codec.Interning

/-!
# Sound code

Verification accepts exactly the sound classes
(`ClassFile.verify_eq_ok_iff_sound`).  What makes code sound is said here
without running it: `Instruction.pops` and `Instruction.pushes` are plain
numbers, the depth of the operand stack is an integer that may take any value,
and each condition is about every place of the code by itself.  The verifier
stops at the first fault that it meets and counts in 16-bit words; it refuses no
more and no less for that (`verifyFrom_eq_ok_iff`).
-/

namespace ClassStub

/-! ## Methods that lack code -/

namespace AccessFlags

variable {flags flag : AccessFlags}

/-- A flag of one bit is set if it is not masked out. -/
theorem hasAny_iff_has (bit : Nat) (hflag : flag.toNat = 2 ^ bit) :
    flags.hasAny flag ↔ flags.has flag := by
  have hmasked : (flags &&& flag).toNat = (flags.toNat.testBit bit).toNat * flag.toNat := by
    rw [UInt16.toNat_and, hflag]
    exact Nat.and_two_pow _ bit
  have hpos : 0 < flag.toNat := hflag ▸ Nat.two_pow_pos bit
  rw [hasAny, has, bne_iff_ne, beq_iff_eq, ← UInt16.toNat_inj.ne, ← UInt16.toNat_inj, hmasked]
  cases flags.toNat.testBit bit with
  | false => simp [hpos.ne]
  | true => simp [hpos.ne']

/-- One of two flags is set if the first or the second is. -/
theorem hasAny_or (other : AccessFlags) :
    flags.hasAny (flag ||| other) ↔ flags.hasAny flag ∨ flags.hasAny other := by
  have hmasks : flags &&& (flag ||| other) = flags &&& flag ||| flags &&& other :=
    UInt16.toBitVec_inj.1 BitVec.and_or_distrib_left
  simp only [hasAny, bne_iff_ne, hmasks, ne_eq, UInt16.or_eq_zero_iff, not_and_or]

end AccessFlags

/-- Abstract and native methods lack code, and no others do. -/
theorem Method.lacksCode_iff {method : Method} :
    method.lacksCode ↔ method.flags.has .accAbstract ∨ method.flags.has .accNative := by
  rw [lacksCode, AccessFlags.hasAny_or, AccessFlags.hasAny_iff_has 10 rfl,
    AccessFlags.hasAny_iff_has 8 rfl]

/-! ## What instructions need -/

namespace MemberRef

/-- The slots that the arguments of a call take, without the receiver.  A
descriptor that is malformed counts for none. -/
def argumentSlots (method : MemberRef) : Nat :=
  match MethodDescriptor.parse method.descriptor with
  | .ok type => type.argumentSlots
  | .error _ => 0

/-- The slots that the result of a call takes. -/
def resultSlots (method : MemberRef) : Nat :=
  match MethodDescriptor.parse method.descriptor with
  | .ok type => type.resultSlots
  | .error _ => 0

end MemberRef

namespace Instruction

/-- The instructions after which control is given up. -/
def terminators : List Instruction :=
  [ireturn, areturn, returnVoid, athrow]

/-- The method that an instruction calls. -/
def callee? : Instruction → Option MemberRef
  | invokeSpecial method | invokeStatic method => some method
  | _ => none

/-- How many slots an instruction takes off the operand stack. -/
def pops : Instruction → Nat
  | nop | aconstNull | iconst1 | ldc _ | aload _ | newObject _ | returnVoid => 0
  | dup | ireturn | areturn | athrow => 1
  | invokeStatic method => method.argumentSlots
  | invokeSpecial method => method.argumentSlots + 1

/-- How many slots an instruction puts on the operand stack. -/
def pushes : Instruction → Nat
  | nop | ireturn | areturn | athrow | returnVoid => 0
  | aconstNull | iconst1 | ldc _ | aload _ | newObject _ => 1
  | dup => 2
  | invokeStatic method | invokeSpecial method => method.resultSlots

/-- By how many slots the operand stack grows over some instructions. -/
def growth (instructions : List Instruction) : Int :=
  (instructions.map fun instruction => (instruction.pushes : Int) - instruction.pops).sum

/-- The descriptor of what an instruction calls is well formed. -/
def CallsTyped (instruction : Instruction) : Prop :=
  ∀ method, instruction.callee? = some method →
    ∃ type, MethodDescriptor.parse method.descriptor = .ok type

/-- Loading a local slot goes on with the next instruction. -/
theorem endsCode_aloadOpcode (slot : UInt8) : (aloadOpcode slot).endsCode = false := by
  unfold aloadOpcode
  split <;> rfl

/-- The instructions that end code are those after which control is given up. -/
theorem endsCode_iff {instruction : Instruction} :
    instruction.endsCode ↔ instruction ∈ terminators := by
  cases instruction with
  | aload slot => simp [endsCode, opcode, endsCode_aloadOpcode, terminators]
  | _ => simp [endsCode, opcode, Opcode.endsCode, terminators]

/-- A call has an effect if the callee has a type and its slots are a word. -/
theorem callEffect_eq_ok_iff {method : MemberRef} {receiver : Nat} {effect : StackEffect} :
    callEffect method receiver = .ok effect ↔
      (∃ type, MethodDescriptor.parse method.descriptor = .ok type) ∧
        method.argumentSlots + receiver ≤ maxWord ∧
        effect = { popped := method.argumentSlots + receiver, pushed := method.resultSlots } := by
  simp only [callEffect, bind_eq_ok, mapError_eq_ok, refusal_bind_eq_ok, Nat.not_lt,
    MemberRef.argumentSlots, MemberRef.resultSlots]
  cases MethodDescriptor.parse method.descriptor with
  | error cause => simp
  | ok type => simp [Pure.pure, Except.pure, eq_comm]

/-- An instruction has an effect if what it calls is well typed and takes no
more than a word of slots. -/
theorem effect_eq_ok_iff {instruction : Instruction} {effect : StackEffect} :
    instruction.effect = .ok effect ↔
      instruction.CallsTyped ∧ instruction.pops ≤ maxWord ∧
        effect = { popped := instruction.pops, pushed := instruction.pushes } := by
  have hone : 1 ≤ maxWord := by decide
  cases instruction with
  | invokeSpecial method | invokeStatic method =>
    simp only [Instruction.effect, callEffect_eq_ok_iff, CallsTyped, callee?, pops, pushes,
      Option.some.injEq, forall_eq', Nat.add_zero]
  | _ =>
    simp only [Instruction.effect, Except.ok.injEq, CallsTyped, callee?, pops, pushes, reduceCtorEq,
      false_implies, implies_true, Nat.zero_le, hone, true_and, eq_comm]

end Instruction

/-! ## Sound code -/

open Instruction

/-- The last one of some instructions, and no other, gives up control. -/
def EndsOnce (instructions : List Instruction) : Prop :=
  ∃ before last, instructions = before ++ [last] ∧ last ∈ terminators ∧
    ∀ instruction ∈ before, instruction ∉ terminators

/-- Instructions stay within limits if the stack has a depth before them: they use
no other local slots, call only what has a type, never pop what is below the
bottom of the stack, and never leave it deeper than allowed. -/
structure StaysWithin (maxStack maxLocals : Nat) (depth : Int)
    (instructions : List Instruction) : Prop where
  locals : ∀ slot, .aload slot ∈ instructions → slot.toNat < maxLocals
  typed : ∀ instruction ∈ instructions, instruction.CallsTyped
  popped : ∀ before instruction after, instructions = before ++ instruction :: after →
    0 ≤ depth + growth before - instruction.pops
  pushed : ∀ before instruction after, instructions = before ++ instruction :: after →
    depth + growth (before ++ [instruction]) ≤ maxStack

/-- The code of a method is sound if its limits cover the parameters and what its
instructions do from an empty stack on, and if only the last of these gives up
control. -/
structure CodeBytes.Sound (code : CodeBytes) (pool : Pool) (method : Method) : Prop where
  parameters : ∃ type, MethodDescriptor.parse method.descriptor = .ok type ∧
    type.argumentSlots + (if method.isStatic then 0 else 1) ≤ code.maxLocals.toNat
  instructions : ∃ instructions, disassemble pool code.code = .ok instructions ∧
    EndsOnce instructions ∧ StaysWithin code.maxStack.toNat code.maxLocals.toNat 0 instructions

/-- A method is sound if it either is abstract or native and has no code, or is
neither and has sound code. -/
def Method.Sound (pool : Pool) (method : Method) : Prop :=
  (method.flags.has .accAbstract ∨ method.flags.has .accNative) ∧ method.code = none ∨
    ¬(method.flags.has .accAbstract ∨ method.flags.has .accNative) ∧
      ∃ code, method.code = some code ∧ code.Sound pool method

/-! ### One instruction at a time -/

section

variable {instruction : Instruction} {more : List Instruction}

/-- There is no last instruction where there is none at all. -/
theorem not_endsOnce_nil : ¬EndsOnce [] := by
  rintro ⟨before, last, hnil, _⟩
  exact List.append_ne_nil_of_right_ne_nil before (List.cons_ne_nil last []) hnil.symm

/-- The first instruction is either the only one that gives up control, or none that
does. -/
theorem endsOnce_cons :
    EndsOnce (instruction :: more) ↔
      instruction ∈ terminators ∧ more = [] ∨ instruction ∉ terminators ∧ EndsOnce more := by
  constructor
  · rintro ⟨before, last, hsplit, hlast, hbefore⟩
    cases before with
    | nil =>
      obtain ⟨rfl, rfl⟩ := List.cons.inj hsplit
      exact .inl ⟨hlast, rfl⟩
    | cons first before =>
      obtain ⟨rfl, rfl⟩ := List.cons.inj hsplit
      exact .inr ⟨hbefore _ List.mem_cons_self,
        before, last, rfl, hlast, fun one hone => hbefore one (List.mem_cons_of_mem _ hone)⟩
  · rintro (⟨hends, rfl⟩ | ⟨hpasses, before, last, rfl, hlast, hbefore⟩)
    · exact ⟨[], instruction, rfl, hends, by simp⟩
    · exact ⟨instruction :: before, last, rfl, hlast, List.forall_mem_cons.2 ⟨hpasses, hbefore⟩⟩

/-- The places of a list are its head and the places of its tail. -/
theorem forall_split_cons {α : Type} {first : α} {rest : List α} {holds : List α → α → Prop} :
    (∀ before item after, first :: rest = before ++ item :: after → holds before item) ↔
      holds [] first ∧
        ∀ before item after, rest = before ++ item :: after → holds (first :: before) item := by
  constructor
  · intro hall
    exact ⟨hall [] first rest rfl, fun before item after hsplit =>
      hall (first :: before) item after (congrArg (first :: ·) hsplit)⟩
  · rintro ⟨hfirst, hrest⟩ before item after hsplit
    cases before with
    | nil =>
      obtain ⟨rfl, _⟩ := List.cons.inj hsplit
      exact hfirst
    | cons head before =>
      obtain ⟨rfl, htail⟩ := List.cons.inj hsplit
      exact hrest before item after htail

theorem growth_nil : growth [] = 0 := rfl

/-- The stack grows over the first instruction and then over the others. -/
theorem growth_cons (instructions : List Instruction) :
    growth (instruction :: instructions) =
      instruction.pushes - instruction.pops + growth instructions :=
  List.sum_cons

/-- The depth behind an instruction and others is that behind the others, from the
depth that the instruction leaves. -/
theorem add_growth_cons (depth : Int) (before : List Instruction) :
    depth + growth (instruction :: before) =
      depth - instruction.pops + instruction.pushes + growth before := by
  rw [growth_cons]
  ring

theorem staysWithin_nil (maxStack maxLocals : Nat) (depth : Int) :
    StaysWithin maxStack maxLocals depth [] where
  locals := by simp
  typed := by simp
  popped := by simp
  pushed := by simp

/-- Instructions stay within limits if the first one does, and the others do from
the depth that it leaves. -/
theorem staysWithin_cons {maxStack maxLocals : Nat} {depth : Int} :
    StaysWithin maxStack maxLocals depth (instruction :: more) ↔
      (∀ slot, instruction = .aload slot → slot.toNat < maxLocals) ∧ instruction.CallsTyped ∧
        0 ≤ depth - instruction.pops ∧ depth - instruction.pops + instruction.pushes ≤ maxStack ∧
          StaysWithin maxStack maxLocals (depth - instruction.pops + instruction.pushes) more := by
  constructor
  · rintro ⟨hlocals, htyped, hpopped, hpushed⟩
    rw [forall_split_cons] at hpopped hpushed
    refine ⟨fun slot hslot => hlocals slot (hslot ▸ List.mem_cons_self),
      htyped _ List.mem_cons_self, ?_, ?_, ?_⟩
    · simpa only [growth_nil, add_zero] using hpopped.1
    · simpa only [List.nil_append, add_growth_cons, growth_nil, add_zero] using hpushed.1
    · exact {
        locals := fun slot hslot => hlocals slot (List.mem_cons_of_mem _ hslot)
        typed := fun one hone => htyped one (List.mem_cons_of_mem _ hone)
        popped := by simpa only [add_growth_cons] using hpopped.2
        pushed := by simpa only [List.cons_append, add_growth_cons] using hpushed.2 }
  · rintro ⟨hlocal, hcalls, hpop, hpush, hlocals, htyped, hpopped, hpushed⟩
    exact {
      locals := by
        simp only [List.mem_cons]
        rintro slot (hslot | hslot)
        · exact hlocal slot hslot.symm
        · exact hlocals slot hslot
      typed := List.forall_mem_cons.2 ⟨hcalls, htyped⟩
      popped := forall_split_cons.2
        ⟨by simpa only [growth_nil, add_zero], by simpa only [add_growth_cons]⟩
      pushed := forall_split_cons.2
        ⟨by simpa only [List.nil_append, add_growth_cons, growth_nil, add_zero],
          by simpa only [List.cons_append, add_growth_cons]⟩ }

end

/-! ## Verification is exact -/

section Verification

variable {label : String} {code : CodeBytes} {index depth : Nat} {instruction : Instruction}
  {instructions : List Instruction}

/-- Only loading a local slot needs one. -/
theorem verifyLocal_eq_ok_iff :
    verifyLocal label code instruction = .ok () ↔
      ∀ slot, instruction = .aload slot → slot.toNat < code.maxLocals.toNat := by
  cases instruction with
  | aload slot => simp [verifyLocal]
  | _ => simp [verifyLocal]

/-- A step is accepted if its slots are on the stack and the limit is kept. -/
theorem verifyStack_eq_ok_iff {next : Nat} :
    verifyStack label code index depth instruction = .ok next ↔
      ∃ effect, instruction.effect = .ok effect ∧ effect.popped ≤ depth ∧
        next = depth - effect.popped + effect.pushed ∧ next ≤ code.maxStack.toNat := by
  have hword : code.maxStack.toNat ≤ maxWord := Nat.le_of_lt_succ code.maxStack.toNat_lt
  simp only [verifyStack, bind_eq_ok, mapError_eq_ok, refusal_bind_eq_ok, Nat.not_lt]
  refine exists_congr fun effect => and_congr_right fun _ => and_congr_right fun _ => ?_
  constructor
  · rintro ⟨_, hstack, hnext⟩
    cases hnext
    exact ⟨rfl, hstack⟩
  · rintro ⟨rfl, hstack⟩
    exact ⟨hstack.trans hword, hstack, rfl⟩

/-- The verifier's depth is the integer that counting without bounds gives. -/
theorem verifyStack_eq_ok_iff_pops (hdepth : depth ≤ maxWord) {next : Nat} :
    verifyStack label code index depth instruction = .ok next ↔
      instruction.CallsTyped ∧ 0 ≤ (depth : Int) - instruction.pops ∧
        (next : Int) = depth - instruction.pops + instruction.pushes ∧
          next ≤ code.maxStack.toNat := by
  simp only [verifyStack_eq_ok_iff, effect_eq_ok_iff]
  constructor
  · rintro ⟨_, ⟨htyped, _, rfl⟩, hpops, hnext, hlimit⟩
    simp only at hpops hnext
    exact ⟨htyped, by omega, by omega, hlimit⟩
  · rintro ⟨htyped, hpops, hnext, hlimit⟩
    -- What is popped is on the stack, so counting it stays within a word.
    have hfits : instruction.pops ≤ depth := by omega
    exact ⟨_, ⟨htyped, hfits.trans hdepth, rfl⟩, hfits, by simp only; omega, hlimit⟩

/-- What a pass of the verifier says about the first instruction. -/
theorem verifyFrom_cons_eq_ok_iff :
    verifyFrom label code index depth (instruction :: instructions) = .ok () ↔
      (∀ slot, instruction = .aload slot → slot.toNat < code.maxLocals.toNat) ∧
        ∃ next, verifyStack label code index depth instruction = .ok next ∧
          (instruction ∈ terminators ∧ instructions = [] ∨ instruction ∉ terminators ∧
            verifyFrom label code (index + 1) next instructions = .ok ()) := by
  rw [verifyFrom, check_bind_eq_ok, verifyLocal_eq_ok_iff, bind_eq_ok]
  refine and_congr_right fun _ => exists_congr fun next => and_congr_right fun _ => ?_
  by_cases hends : instruction ∈ terminators
  · rw [if_pos (endsCode_iff.2 hends)]
    cases instructions with
    | nil => simp [hends, Pure.pure, Except.pure]
    | cons unreached more => simp [hends, throw, throwThe, MonadExceptOf.throw]
  · rw [if_neg (mt endsCode_iff.1 hends)]
    simp [hends]

/-- Code passes from a place on if it ends once and stays within its limits.  Each
depth is within the declared limit and so a word, which is what the next step
needs of it. -/
theorem verifyFrom_eq_ok_iff (hdepth : depth ≤ maxWord) :
    verifyFrom label code index depth instructions = .ok () ↔
      EndsOnce instructions ∧
        StaysWithin code.maxStack.toNat code.maxLocals.toNat depth instructions := by
  induction instructions generalizing index depth with
  | nil => simp [verifyFrom, not_endsOnce_nil]
  | cons instruction more ih =>
    have hword : code.maxStack.toNat ≤ maxWord := Nat.le_of_lt_succ code.maxStack.toNat_lt
    simp only [verifyFrom_cons_eq_ok_iff, verifyStack_eq_ok_iff_pops hdepth, endsOnce_cons,
      staysWithin_cons]
    constructor
    · rintro ⟨hlocal, next, ⟨htyped, hpops, hnext, hlimit⟩, hmore⟩
      have hlimitInt : (depth : Int) - instruction.pops + instruction.pushes ≤
          code.maxStack.toNat := hnext ▸ Int.ofNat_le.2 hlimit
      rcases hmore with ⟨hends, rfl⟩ | ⟨hpasses, hmore⟩
      · exact ⟨.inl ⟨hends, rfl⟩, hlocal, htyped, hpops, hlimitInt, staysWithin_nil ..⟩
      · obtain ⟨hends, hstays⟩ := (ih (hlimit.trans hword)).1 hmore
        exact ⟨.inr ⟨hpasses, hends⟩, hlocal, htyped, hpops, hlimitInt, hnext ▸ hstays⟩
    · rintro ⟨hends, hlocal, htyped, hpops, hlimit, hstays⟩
      -- Nothing is popped that is not there, so the integer depth is a number.
      obtain ⟨next, hnext⟩ := Int.eq_ofNat_of_zero_le
        (Int.add_nonneg hpops (Int.natCast_nonneg instruction.pushes))
      have hlimitNat : next ≤ code.maxStack.toNat := Int.ofNat_le.1 (hnext ▸ hlimit)
      refine ⟨hlocal, next, ⟨htyped, hpops, hnext.symm, hlimitNat⟩, ?_⟩
      rcases hends with hlast | ⟨hpasses, hends⟩
      · exact .inl hlast
      · exact .inr ⟨hpasses, (ih (hlimitNat.trans hword)).2 ⟨hends, hnext ▸ hstays⟩⟩

/-- The code of a method is accepted exactly if it is sound. -/
theorem verifyCode_eq_ok_iff {pool : Pool} {method : Method} :
    verifyCode pool label method code = .ok () ↔ code.Sound pool method := by
  have hword : code.maxLocals.toNat ≤ maxWord := Nat.le_of_lt_succ code.maxLocals.toNat_lt
  simp only [verifyCode, bind_eq_ok, mapError_eq_ok, refusal_bind_eq_ok, Nat.not_lt,
    verifyFrom_eq_ok_iff (Nat.zero_le maxWord)]
  constructor
  · rintro ⟨type, htype, _, hlocals, hinstructions⟩
    exact { parameters := ⟨type, htype, hlocals⟩, instructions := hinstructions }
  · rintro ⟨⟨type, htype, hlocals⟩, hinstructions⟩
    exact ⟨type, htype, hlocals.trans hword, hlocals, hinstructions⟩

end Verification

namespace ClassFile

/-- A method is accepted exactly if it is sound. -/
theorem verifyMethod_eq_ok_iff {file : ClassFile} {method : Method} :
    file.verifyMethod method = .ok () ↔ method.Sound file.pool := by
  unfold verifyMethod Method.Sound
  rw [← Method.lacksCode_iff]
  cases method.code with
  | none => cases method.lacksCode <;> simp
  | some code => cases method.lacksCode <;> simp [verifyCode_eq_ok_iff]

/-- Verification accepts a class if and only if each of its methods is sound. -/
theorem verify_eq_ok_iff_sound (file : ClassFile) :
    file.verify = .ok () ↔ ∀ method ∈ file.methods, method.Sound file.pool := by
  rw [verify, forM_eq_ok]
  exact forall₂_congr fun method _ => verifyMethod_eq_ok_iff

end ClassFile

end ClassStub
