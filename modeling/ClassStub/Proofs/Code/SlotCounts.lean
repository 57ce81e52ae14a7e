import ClassStub.Proofs.Code.SoundCode
import ClassStub.Proofs.Codec.Denotation

/-!
# Counting slots

Slots are counted exactly, so it can be said where the counts leave a 16-bit
word.  A descriptor takes at most two slots for each character that is no
parenthesis and not part of the result.  Code does not grow the stack by more
than one slot for each byte.  Hence verification counts beyond a word only where a
method or what it calls takes too many slots for its parameters, or where its code
is too long (`ClassFile.overcounts_of_verify`), and not at all in a class whose
descriptors and code are short (`ClassFile.Short.verify_ne_overflow`).
-/

namespace ClassStub

open Decoder

/-! ## Descriptors -/

/-- No type takes more than two slots. -/
theorem FieldType.slots_le (type : FieldType) : type.slots ≤ 2 := by
  cases type with
  | primitive type => cases type <;> decide
  | object _ => exact Nat.le_succ 1
  | array _ => exact Nat.le_succ 1

/-- A field type starts with neither of the characters that stand for something
else in a method descriptor. -/
theorem FieldType.head?_chars_ne (type : FieldType) (rest : List Char) :
    (type.chars ++ rest).head? ≠ some ')' ∧ (type.chars ++ rest).head? ≠ some 'V' := by
  cases type with
  | primitive type => cases type <;> simp [chars, Primitive.letter]
  | object name => simp [chars]
  | array element => simp [chars]

namespace MethodDescriptor

/-- The first parameter takes its slots and leaves the others theirs. -/
theorem argumentSlots_cons (parameter : FieldType) (parameters : List FieldType)
    (result : Option FieldType) :
    argumentSlots { parameters := parameter :: parameters, result } =
      parameter.slots + argumentSlots { parameters, result } :=
  rfl

/-- Each parameter is read from a character of its own at least, and the closing
parenthesis from another one. -/
theorem slots_of_readParameters {chars rest : List Char} {parameters : List FieldType}
    (hread : readParameters chars = .ok (parameters, rest)) (result : Option FieldType) :
    argumentSlots { parameters, result } + 2 * (rest.length + 1) ≤ 2 * chars.length := by
  fun_induction readParameters chars generalizing parameters rest with
  | case1 chars hclose =>
    cases hread
    cases chars with
    | nil => cases hclose
    | cons char chars => simp [argumentSlots]
  | case2 chars hopen hnone => cases hread
  | case3 chars hopen parameter more hparameter stopped hmore ih => cases hread
  | case4 chars hopen parameter more hparameter others last hmore ih =>
    cases hread
    have hlength := FieldType.length_lt_of_read? hparameter
    have hslots := parameter.slots_le
    have hothers := ih hmore
    rw [argumentSlots_cons]
    omega

/-- A result takes a character at least. -/
theorem length_of_readResult {chars rest : List Char} {result : Option FieldType}
    (hread : readResult chars = .ok (result, rest)) : rest.length + 1 ≤ chars.length := by
  unfold readResult at hread
  split at hread
  case isTrue hvoid =>
    cases hread
    cases chars with
    | nil => cases hvoid
    | cons char chars => simp
  case isFalse =>
    cases htype : FieldType.read? chars with
    | none =>
      rw [htype] at hread
      cases hread
    | some found =>
      rw [htype] at hread
      cases hread
      exact FieldType.length_lt_of_read? htype

/-- The parentheses and the result take no slots, and nothing takes more than two
slots for each character. -/
theorem slots_of_parse {text : String} {type : MethodDescriptor} (htype : parse text = .ok type) :
    type.argumentSlots + 6 ≤ 2 * text.length := by
  rw [parse, mapError_eq_ok] at htype
  rw [← String.length_toList]
  cases hchars : text.toList with
  | nil =>
    rw [hchars] at htype
    cases htype
  | cons char chars =>
    rw [hchars] at htype
    unfold read at htype
    split at htype
    case h_1 rest hopen =>
      obtain rfl : chars = rest := (List.cons.inj hopen).2
      simp only [bind_eq_ok] at htype
      obtain ⟨⟨parameters, behind⟩, hparameters, ⟨result, last⟩, hresult, hend⟩ := htype
      by_cases hempty : last.isEmpty
      · simp only [hempty, ↓reduceIte] at hend
        cases hend
        have hslots := slots_of_readParameters hparameters result
        have hlength : last.length + 1 ≤ behind.length := length_of_readResult hresult
        rw [List.length_cons]
        omega
      · simp only [hempty] at hend
        cases hend
    case h_2 => cases htype

/-- The greatest length of descriptors that never take more slots than a word
counts, even with one for a receiver. -/
def safeLength : Nat := 32770

/-- Too many slots, with one for a receiver, come from a long descriptor only. -/
theorem safeLength_lt {text : String} {type : MethodDescriptor} (htype : parse text = .ok type)
    (hslots : maxWord < type.argumentSlots + 1) : safeLength < text.length := by
  have hlength := slots_of_parse htype
  rw [maxWord] at hslots
  rw [safeLength]
  omega

/-- Written parameters are read back. -/
theorem readParameters_append (parameters : List FieldType) (rest : List Char) :
    readParameters (parameters.flatMap FieldType.chars ++ ')' :: rest) =
      .ok (parameters, rest) := by
  induction parameters with
  | nil =>
    rw [List.flatMap_nil, List.nil_append, readParameters, if_pos List.head?_cons, List.tail_cons]
  | cons parameter parameters ih =>
    obtain ⟨hopen, _⟩ :=
      parameter.head?_chars_ne (parameters.flatMap FieldType.chars ++ ')' :: rest)
    rw [List.flatMap_cons, List.append_assoc, readParameters, if_neg hopen]
    split
    case h_1 hnone =>
      rw [FieldType.read?_chars_append] at hnone
      cases hnone
    case h_2 other last hread =>
      rw [FieldType.read?_chars_append] at hread
      cases hread
      rw [ih]

/-- A written result is read back. -/
theorem readResult_chars (result : Option FieldType) :
    readResult (resultChars result) = .ok (result, []) := by
  cases result with
  | none => rfl
  | some type =>
    obtain ⟨_, hvoid⟩ := type.head?_chars_ne []
    have hread := type.read?_chars_append []
    rw [List.append_nil] at hvoid hread
    rw [resultChars, readResult, if_neg hvoid, hread]

/-- Whatever is read as parameters was written there, with the closing parenthesis
behind it. -/
theorem append_of_readParameters {chars rest : List Char} {parameters : List FieldType}
    (hread : readParameters chars = .ok (parameters, rest)) :
    chars = parameters.flatMap FieldType.chars ++ ')' :: rest := by
  fun_induction readParameters chars generalizing parameters rest with
  | case1 chars hclose =>
    cases hread
    cases chars with
    | nil => cases hclose
    | cons char chars =>
      rw [Option.some.inj hclose, List.flatMap_nil, List.nil_append, List.tail_cons]
  | case2 chars hopen hnone => cases hread
  | case3 chars hopen parameter more hparameter stopped hmore ih => cases hread
  | case4 chars hopen parameter more hparameter others last hmore ih =>
    cases hread
    rw [FieldType.append_of_read? hparameter, ih hmore, List.flatMap_cons, List.append_assoc]

/-- Whatever is read as a result was written there. -/
theorem append_of_readResult {chars rest : List Char} {result : Option FieldType}
    (hread : readResult chars = .ok (result, rest)) : chars = resultChars result ++ rest := by
  unfold readResult at hread
  split at hread
  case isTrue hvoid =>
    cases hread
    cases chars with
    | nil => cases hvoid
    | cons char chars => rw [Option.some.inj hvoid]; rfl
  case isFalse =>
    cases htype : FieldType.read? chars with
    | none =>
      rw [htype] at hread
      cases hread
    | some found =>
      rw [htype] at hread
      cases hread
      exact FieldType.append_of_read? htype

/-- Whatever is read as a descriptor was written so. -/
theorem chars_of_read {chars : List Char} {type : MethodDescriptor}
    (hread : read chars = .ok type) : chars = type.chars := by
  unfold read at hread
  split at hread
  case h_1 rest =>
    simp only [bind_eq_ok] at hread
    obtain ⟨⟨parameters, behind⟩, hparameters, ⟨result, last⟩, hresult, hend⟩ := hread
    split at hend
    case isTrue hempty =>
      cases hend
      obtain rfl : last = [] := List.isEmpty_iff.1 hempty
      have hbehind : behind = resultChars result ++ [] := append_of_readResult hresult
      rw [append_of_readParameters hparameters, hbehind, List.append_nil]
      rfl
    case isFalse => cases hend
  case h_2 => cases hread

/-- Written descriptors are read back. -/
theorem parse_chars (type : MethodDescriptor) : parse (String.ofList type.chars) = .ok type := by
  rw [parse, mapError_eq_ok, String.toList_ofList, chars, List.cons_append, read]
  simp only [readParameters_append, readResult_chars, Bind.bind, Except.bind]
  rfl

end MethodDescriptor

/-! ## Code -/

/-- No result takes more than two slots. -/
theorem MemberRef.resultSlots_le (method : MemberRef) : method.resultSlots ≤ 2 := by
  unfold resultSlots
  split
  case h_1 type _ =>
    unfold MethodDescriptor.resultSlots
    split
    case h_1 => exact Nat.zero_le 2
    case h_2 result _ => exact result.slots_le
  case h_2 => exact Nat.zero_le 2

namespace Instruction

/-- How many bytes an instruction takes at least. -/
def width : Instruction → Nat
  | invokeSpecial _ | invokeStatic _ => 3
  | _ => 1

/-- How many bytes several instructions take at least. -/
def totalWidth : List Instruction → Nat
  | [] => 0
  | instruction :: more => instruction.width + totalWidth more

/-- The stack does not grow by more slots than the instruction has bytes. -/
theorem pushes_le (instruction : Instruction) :
    instruction.pushes ≤ instruction.pops + instruction.width := by
  cases instruction with
  | invokeStatic method | invokeSpecial method =>
    have hresult := method.resultSlots_le
    simp only [pushes, pops, width]
    omega
  | _ => simp [pushes, pops, width]

/-- Operands are read from all bytes of an instruction but the first. -/
theorem consumes_decodeOperands (pool : Pool) (opcode : Opcode) :
    (decodeOperands pool opcode).Consumes fun instruction bytes =>
      instruction.width ≤ bytes.length + 1 := by
  have hone : ∀ count, 1 ≤ count + 1 := fun count => Nat.le_add_left 1 count
  cases opcode with
  | ldc =>
    refine Consumes.bind (consumes_u8.mono fun index bytes _ => ?_)
    exact Consumes.lift_bind fun literal _ => Consumes.pure (hone _)
  | ldcW => exact Consumes.u16_bind fun index => Consumes.lift_bind fun literal _ =>
      Consumes.pure (hone _)
  | aload => exact Consumes.bind (consumes_u8.mono fun slot bytes _ => Consumes.pure (hone _))
  | newObject => exact Consumes.u16_bind fun index => Consumes.lift_bind fun name _ =>
      Consumes.pure (hone _)
  | invokeSpecial | invokeStatic =>
    refine Consumes.u16_bind fun index => Consumes.lift_bind fun method _ => Consumes.pure ?_
    simp [width]
  | _ => exact Consumes.pure (hone _)

/-- An instruction is read from as many bytes as it takes. -/
theorem consumes_decode (pool : Pool) :
    (Instruction.decode pool).Consumes fun instruction bytes =>
      instruction.width ≤ bytes.length := by
  refine Consumes.get_bind fun cursor => ?_
  refine Consumes.bind (consumes_u8.mono fun byte bytes hlength => ?_)
  cases Opcode.ofByte? byte with
  | none => exact Consumes.throw
  | some opcode =>
    refine (consumes_decodeOperands pool opcode).mono fun instruction more hwidth => ?_
    rw [List.length_append, hlength, Nat.add_comm]
    exact hwidth

/-- Instructions are read from as many bytes as they take. -/
theorem consumes_decodeAll (pool : Pool) (count : Nat) :
    (decodeAll pool count).Consumes fun instructions bytes =>
      totalWidth instructions ≤ bytes.length := by
  induction count with
  | zero => exact Consumes.pure (Nat.le_refl 0)
  | succ count ih =>
    refine Consumes.get_bind fun cursor => ?_
    by_cases hmore : cursor.hasMore
    · simp only [hmore, ↓reduceIte]
      refine Consumes.bind ((consumes_decode pool).mono fun first bytes hfirst => ?_)
      refine Consumes.bind (ih.mono fun instructions more hinstructions => Consumes.pure ?_)
      simp only [totalWidth, List.length_append, List.length_nil]
      omega
    · simp only [hmore]
      exact Consumes.pure (Nat.le_refl 0)

/-- Instructions take no more bytes than the code that they are read from. -/
theorem totalWidth_le {pool : Pool} {code : List UInt8} {instructions : List Instruction}
    (hcode : disassemble pool code = .ok instructions) :
    totalWidth instructions ≤ code.length := by
  obtain ⟨after, hrun⟩ := Decoder.run_of_decode hcode
  obtain ⟨used, hused, _, hwidth⟩ := consumes_decodeAll pool _ _ _ _ hrun
  have hlength : code.length = used.length + after.rest.length := by
    rw [← List.length_append, ← hused]
    rfl
  omega

/-- Only a call that pops too much has no effect that can be counted. -/
theorem effect_eq_overflow {instruction : Instruction}
    (hoverflow : instruction.effect = .error .overflow) : maxWord < instruction.pops := by
  have hcall : ∀ {method receiver}, callEffect method receiver = .error .overflow →
      maxWord < method.argumentSlots + receiver := by
    intro method receiver hcall
    simp only [callEffect, bind_eq_error, mapError_eq_error, refusal_bind_eq_error] at hcall
    rcases hcall with ⟨_, _, hcause⟩ | ⟨type, htype, ⟨hpops, _⟩ | ⟨_, hrest⟩⟩
    · cases hcause
    · rw [mapError_eq_ok] at htype
      rwa [MemberRef.argumentSlots, htype]
    · cases hrest
  cases instruction with
  | invokeStatic method => exact hcall hoverflow
  | invokeSpecial method => exact hcall hoverflow
  | _ => cases hoverflow

/-- Only a call with a long descriptor pops more than a word counts. -/
theorem callee_of_pops {instruction : Instruction} (hpops : maxWord < instruction.pops) :
    ∃ callee, instruction.callee? = some callee ∧
      MethodDescriptor.safeLength < callee.descriptor.length := by
  have hcallee : ∀ callee : MemberRef, maxWord < callee.argumentSlots + 1 →
      MethodDescriptor.safeLength < callee.descriptor.length := by
    intro callee hslots
    unfold MemberRef.argumentSlots at hslots
    split at hslots
    case h_1 type htype => exact MethodDescriptor.safeLength_lt htype hslots
    case h_2 => cases (by decide : ¬maxWord < 0 + 1) hslots
  cases instruction with
  | invokeStatic method => exact ⟨method, rfl, hcallee method (Nat.lt_succ_of_lt hpops)⟩
  | invokeSpecial method => exact ⟨method, rfl, hcallee method hpops⟩
  | _ => exact absurd hpops (by simp [pops, maxWord])

/-- What an instruction calls is a member of the pool. -/
def CallsMember (pool : Pool) (instruction : Instruction) : Prop :=
  ∀ callee, instruction.callee? = some callee → ∃ index, pool.member index = .ok callee

/-- A callee is looked up in the pool. -/
theorem gives_decodeOperands (pool : Pool) (opcode : Opcode) :
    (decodeOperands pool opcode).Gives (CallsMember pool) := by
  cases opcode with
  | invokeSpecial | invokeStatic =>
    refine Gives.bind_any fun index => ?_
    refine (Gives.lift fun method hmethod => hmethod).bind fun method hmethod => Gives.pure ?_
    intro callee hcallee
    cases hcallee
    exact ⟨index, hmethod⟩
  | ldc | ldcW | newObject =>
    refine Gives.bind_any fun _ => Gives.bind_any fun _ => Gives.pure ?_
    simp [CallsMember, callee?]
  | aload => exact Gives.bind_any fun _ => Gives.pure (by simp [CallsMember, callee?])
  | _ => exact Gives.pure (by simp [CallsMember, callee?])

theorem gives_decode (pool : Pool) : (Instruction.decode pool).Gives (CallsMember pool) := by
  refine Gives.bind_any fun cursor => Gives.bind_any fun byte => ?_
  cases Opcode.ofByte? byte with
  | none => exact Gives.throw
  | some opcode => exact gives_decodeOperands pool opcode

/-- The callees of all instructions are looked up in the pool. -/
theorem gives_decodeAll (pool : Pool) (count : Nat) :
    (decodeAll pool count).Gives fun instructions =>
      ∀ instruction ∈ instructions, instruction.CallsMember pool := by
  induction count with
  | zero => exact Gives.pure (List.forall_mem_nil _)
  | succ count ih =>
    refine Gives.bind_any fun cursor => ?_
    by_cases hmore : cursor.hasMore
    · simp only [hmore, ↓reduceIte]
      refine (gives_decode pool).bind fun first hfirst => ?_
      refine ih.bind fun instructions hinstructions => Gives.pure ?_
      exact List.forall_mem_cons.2 ⟨hfirst, hinstructions⟩
    · simp only [hmore]
      exact Gives.pure (List.forall_mem_nil _)

/-- What disassembled code calls are members of the pool. -/
theorem member_of_disassemble {pool : Pool} {code : List UInt8} {instructions : List Instruction}
    (hcode : disassemble pool code = .ok instructions) :
    ∀ instruction ∈ instructions, instruction.CallsMember pool := by
  obtain ⟨after, hrun⟩ := Decoder.run_of_decode hcode
  exact gives_decodeAll pool _ _ _ _ hrun

end Instruction

open Instruction

section

variable {label : String} {code : CodeBytes} {index depth : Nat} {instruction : Instruction}

/-- A local slot is checked without counting. -/
theorem verifyLocal_ne_overflow : verifyLocal label code instruction ≠ .error .overflow := by
  intro hoverflow
  cases instruction with
  | aload slot =>
    rw [verifyLocal] at hoverflow
    split at hoverflow
    · cases hoverflow
    · cases hoverflow
  | _ => cases hoverflow

/-- The depth before an instruction and its bytes bound the depth after it. -/
theorem verifyStack_le {next : Nat}
    (hnext : verifyStack label code index depth instruction = .ok next) :
    next ≤ depth + instruction.width := by
  obtain ⟨effect, heffect, hpops, rfl, _⟩ := verifyStack_eq_ok_iff.1 hnext
  obtain ⟨_, _, rfl⟩ := effect_eq_ok_iff.1 heffect
  have hgrowth := instruction.pushes_le
  simp only at hpops ⊢
  omega

/-- A step counts beyond a word only if it pops too much or leaves the stack too
deep. -/
theorem verifyStack_eq_overflow
    (hoverflow : verifyStack label code index depth instruction = .error .overflow) :
    maxWord < instruction.pops ∨ maxWord < depth + instruction.width := by
  simp only [verifyStack, bind_eq_error, mapError_eq_error, mapError_eq_ok,
    refusal_bind_eq_error] at hoverflow
  rcases hoverflow with ⟨cause, heffect, hcause⟩ | ⟨effect, heffect, hrest⟩
  · cases cause with
    | descriptor _ => cases hcause
    | overflow => exact .inl (effect_eq_overflow heffect)
  · obtain ⟨_, _, rfl⟩ := effect_eq_ok_iff.1 heffect
    have hgrowth := instruction.pushes_le
    rcases hrest with ⟨_, hcause⟩ | ⟨hpops, ⟨hdepth, _⟩ | ⟨_, ⟨_, hcause⟩ | ⟨_, hcause⟩⟩⟩
    · cases hcause
    · simp only at hpops hdepth
      exact .inr (by omega)
    · cases hcause
    · cases hcause

/-- A pass counts beyond a word only at a call that pops too much, or when the
depth could have grown with the bytes that far. -/
theorem verifyFrom_eq_overflow {instructions : List Instruction}
    (hoverflow : verifyFrom label code index depth instructions = .error .overflow) :
    (∃ instruction ∈ instructions, maxWord < instruction.pops) ∨
      maxWord < depth + totalWidth instructions := by
  induction instructions generalizing index depth with
  | nil => cases hoverflow
  | cons instruction more ih =>
    rw [verifyFrom, bind_eq_error] at hoverflow
    rcases hoverflow with hlocal | ⟨_, _, hoverflow⟩
    · exact absurd hlocal verifyLocal_ne_overflow
    rcases bind_eq_error.1 hoverflow with hstack | ⟨next, hnext, hrest⟩
    · rcases verifyStack_eq_overflow hstack with hpops | hdepth
      · exact .inl ⟨instruction, List.mem_cons_self, hpops⟩
      · rw [totalWidth]
        exact .inr (by omega)
    by_cases hends : instruction.endsCode
    · simp only [hends, ↓reduceIte] at hrest
      cases more with
      | nil => cases hrest
      | cons _ _ => cases hrest
    · simp only [hends] at hrest
      have hle := verifyStack_le hnext
      rcases ih hrest with ⟨other, hother, hpops⟩ | hdepth
      · exact .inl ⟨other, List.mem_cons_of_mem instruction hother, hpops⟩
      · rw [totalWidth]
        exact .inr (by omega)

end

/-! ## Overcounting -/

/-- A method whose receiver and parameters take more slots than a word counts. -/
def Method.Overcounts (method : Method) : Prop :=
  ∃ type, MethodDescriptor.parse method.descriptor = .ok type ∧
    maxWord < MethodBody.localSlots type method.isStatic

/-- Besides the parameters there is a receiver at most. -/
theorem MethodBody.localSlots_le (type : MethodDescriptor) (isStatic : Bool) :
    localSlots type isStatic ≤ type.argumentSlots + 1 := by
  unfold localSlots
  cases isStatic with
  | true => exact Nat.le_succ _
  | false => exact Nat.le_refl _

/-- A method that overcounts has a long descriptor. -/
theorem Method.Overcounts.safeLength_lt {method : Method} (hmethod : method.Overcounts) :
    MethodDescriptor.safeLength < method.descriptor.length := by
  obtain ⟨type, htype, hslots⟩ := hmethod
  have hlocals := MethodBody.localSlots_le type method.isStatic
  exact MethodDescriptor.safeLength_lt htype (Nat.lt_of_lt_of_le hslots hlocals)

/-- Code for which some count of slots may leave a word: its method overcounts, a
call in it pops too much, or it has too many bytes. -/
inductive CodeBytes.Overcounts (pool : Pool) (method : Method) (code : CodeBytes) : Prop
  | parameters (hmethod : method.Overcounts)
  | call {instructions : List Instruction} {instruction : Instruction}
      (hcode : disassemble pool code.code = .ok instructions)
      (hmem : instruction ∈ instructions) (hpops : maxWord < instruction.pops)
  | length (hlength : maxWord < code.code.length)

/-- Code for which the slots of its method, and those that each of its
instructions pops, are counted within a word. -/
structure CodeBytes.SlotsFit (pool : Pool) (method : Method) (code : CodeBytes) : Prop where
  parameters : ¬method.Overcounts
  calls : ∀ instructions, disassemble pool code.code = .ok instructions →
    ∀ instruction ∈ instructions, instruction.pops ≤ maxWord

/-- What is popped is on the stack before, and so within the limit. -/
theorem StaysWithin.pops_le {maxStack maxLocals : Nat} {depth : Int}
    {instructions : List Instruction} (hstays : StaysWithin maxStack maxLocals depth instructions)
    (hdepth : depth ≤ maxStack) : ∀ instruction ∈ instructions, instruction.pops ≤ maxStack := by
  induction instructions generalizing depth with
  | nil => exact List.forall_mem_nil _
  | cons instruction more ih =>
    obtain ⟨_, _, hpops, hpushed, hmore⟩ := staysWithin_cons.1 hstays
    have hfirst : instruction.pops ≤ maxStack := by omega
    exact List.forall_mem_cons.2 ⟨hfirst, ih hmore hpushed⟩

/-- Sound code is counted within a word, since its limits are words. -/
theorem CodeBytes.Sound.slotsFit {pool : Pool} {method : Method} {code : CodeBytes}
    (hsound : code.Sound pool method) : code.SlotsFit pool method := by
  obtain ⟨⟨type, htype, hlocals⟩, found, hfound, _, hstays⟩ := hsound
  have hlocalsWord : code.maxLocals.toNat ≤ maxWord := Nat.le_of_lt_succ code.maxLocals.toNat_lt
  have hstackWord : code.maxStack.toNat ≤ maxWord := Nat.le_of_lt_succ code.maxStack.toNat_lt
  constructor
  · intro hovercounts
    obtain ⟨other, hother, hslots⟩ := hovercounts
    obtain rfl : type = other := Except.ok.inj (htype.symm.trans hother)
    exact Nat.not_lt.2 (Nat.le_trans hlocals hlocalsWord) hslots
  · intro instructions hcode instruction hmem
    obtain rfl : found = instructions := Except.ok.inj (hfound.symm.trans hcode)
    exact Nat.le_trans (hstays.pops_le (Int.natCast_nonneg _) instruction hmem) hstackWord

/-- Code counts beyond a word only if it overcounts. -/
theorem overcounts_of_verifyCode {pool : Pool} {label : String} {method : Method}
    {code : CodeBytes} (hoverflow : verifyCode pool label method code = .error .overflow) :
    code.Overcounts pool method := by
  simp only [verifyCode, bind_eq_error, mapError_eq_error, mapError_eq_ok,
    refusal_bind_eq_error] at hoverflow
  rcases hoverflow with ⟨_, _, hcause⟩ | ⟨type, htype, ⟨hslots, _⟩ | ⟨_, hrest⟩⟩
  · cases hcause
  · exact .parameters ⟨type, htype, hslots⟩
  rcases hrest with ⟨_, hcause⟩ | ⟨_, ⟨_, _, hcause⟩ | ⟨instructions, hcode, hrun⟩⟩
  · cases hcause
  · cases hcause
  rcases verifyFrom_eq_overflow hrun with ⟨instruction, hmem, hpops⟩ | hdepth
  · exact .call hcode hmem hpops
  · have hwidth := totalWidth_le hcode
    exact .length (by omega)

namespace ClassFile

/-- Verification counts beyond a word only for code that overcounts. -/
theorem overcounts_of_verify {file : ClassFile} (hoverflow : file.verify = .error .overflow) :
    ∃ method ∈ file.methods, ∃ code, method.code = some code ∧
      code.Overcounts file.pool method := by
  obtain ⟨method, hmethod, herror⟩ := forM_eq_error hoverflow
  unfold verifyMethod at herror
  split at herror
  case h_1 => cases herror
  case h_2 => cases herror
  case h_3 => cases herror
  case h_4 code hcode _ => exact ⟨method, hmethod, code, hcode, overcounts_of_verifyCode herror⟩

/-- What verification accepts is counted within a word. -/
theorem fits_of_verify {file : ClassFile} (hverify : file.verify = .ok ()) {method : Method}
    (hmethod : method ∈ file.methods) {code : CodeBytes} (hcode : method.code = some code) :
    code.SlotsFit file.pool method := by
  have hsound := verifyMethod_eq_ok_iff.1 (forM_eq_ok.1 hverify method hmethod)
  rcases hsound with ⟨_, hnone⟩ | ⟨_, other, hother, hsound⟩
  · rw [hcode] at hnone
    cases hnone
  · obtain rfl : code = other := Option.some.inj (hcode.symm.trans hother)
    exact hsound.slotsFit

/-- A class whose descriptors and code are too short for any overcounting. -/
structure Short (file : ClassFile) : Prop where
  methods : ∀ method ∈ file.methods, method.descriptor.length ≤ MethodDescriptor.safeLength
  members : ∀ index reference, file.pool.member index = .ok reference →
    reference.descriptor.length ≤ MethodDescriptor.safeLength
  code : ∀ method ∈ file.methods, ∀ code, method.code = some code → code.code.length ≤ maxWord

/-- In a class with short descriptors and code, nothing overcounts. -/
theorem Short.not_overcounts {file : ClassFile} (hshort : file.Short) {method : Method}
    (hmethod : method ∈ file.methods) {code : CodeBytes} (hcode : method.code = some code) :
    ¬code.Overcounts file.pool method := by
  intro hovercounts
  cases hovercounts with
  | parameters hlong => exact Nat.not_lt.2 (hshort.methods method hmethod) hlong.safeLength_lt
  | call hinstructions hmem hpops =>
    obtain ⟨callee, hcallee, hlong⟩ := callee_of_pops hpops
    obtain ⟨index, hindex⟩ := member_of_disassemble hinstructions _ hmem callee hcallee
    exact Nat.not_lt.2 (hshort.members index callee hindex) hlong
  | length hlong => exact Nat.not_lt.2 (hshort.code method hmethod code hcode) hlong

/-- Such a class is verified without counting beyond a word. -/
theorem Short.verify_ne_overflow {file : ClassFile} (hshort : file.Short) :
    file.verify ≠ .error .overflow := by
  intro hoverflow
  obtain ⟨method, hmethod, code, hcode, hovercounts⟩ := overcounts_of_verify hoverflow
  exact hshort.not_overcounts hmethod hcode hovercounts

end ClassFile

end ClassStub
