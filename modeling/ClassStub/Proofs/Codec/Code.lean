import ClassStub.Code.Body
import ClassStub.Code.Disassembly
import ClassStub.Proofs.Codec.WrittenPool

/-!
# Code, written and read

An encoded instruction decodes to itself, in every pool that holds what it
interned (`Instruction.yields_encode`), whichever form its operands choose.  So
an encoded body disassembles to its instructions (`MethodBody.yields_encode`).
-/

namespace ClassStub

open Decoder Encoder

namespace Instruction

/-- An instruction is read from the byte of its opcode and its operands. -/
theorem reads_decode {pool : Pool} {opcode : Opcode} {operands : List UInt8}
    {instruction : Instruction}
    (hoperands : (decodeOperands pool opcode).Reads operands instruction) :
    (decode pool).Reads (opcode.toByte :: operands) instruction := by
  refine Reads.get_bind fun cursor => ?_
  apply (reads_u8 opcode.toByte).bind
  rw [Opcode.ofByte?_toByte]
  exact hoperands

/-- A literal is written as an index that leads to it. -/
theorem yields_internLiteral (value : Literal) :
    (internLiteral value).Yields fun pool index => literalAt pool index = .ok value := by
  cases value with
  | int number =>
    apply (@PoolBuilder.yields_intern (.integer number) trivial).mono
    intro pool index hentry
    rw [literalAt, hentry.1]
    rfl
  | string text =>
    refine (PoolBuilder.yields_utf8 text).bind fun content => ?_
    apply (@PoolBuilder.yields_intern (.string content) trivial).mono
    intro pool index hentry htext
    have hstring : pool.string index = .ok text := by
      rw [Pool.string, hentry.1]
      exact htext.1
    simp only [literalAt, hentry.1, hstring, Bind.bind, Except.bind]
    rfl

/-- A short index is read from its one byte, a long one from two. -/
theorem reads_ldcBytes {pool : Pool} {index : UInt16} {value : Literal}
    (hvalue : literalAt pool index = .ok value) :
    (decode pool).Reads (ldcBytes index) (ldc value) := by
  unfold ldcBytes
  by_cases hshort : index.toNat < 256
  · rw [if_pos hshort]
    have hindex : (UInt8.ofNat index.toNat).toUInt16 = index := by
      apply UInt16.toNat.inj
      rw [UInt8.toNat_toUInt16, UInt8.toNat_ofNat']
      exact Nat.mod_eq_of_lt hshort
    apply reads_decode
    have hread : (decodeOperands pool .ldc).Reads
        (Bytes.u8 (UInt8.ofNat index.toNat) ++ []) (ldc value) := by
      refine (reads_u8 _).bind ((Reads.lift ?_).map ldc)
      rw [hindex]
      exact hvalue
    exact hread
  · rw [if_neg hshort]
    exact reads_decode (Reads.lookup_map hvalue ldc)

/-- The first four slots have opcodes of their own. -/
theorem yields_encode_aload (slot : UInt8) :
    (aload slot).encode.Yields fun pool bytes => (decode pool).Reads bytes (aload slot) := by
  by_cases hzero : slot = 0
  · subst hzero
    exact Yields.pure fun pool => reads_decode (Reads.pure _)
  by_cases hone : slot = 1
  · subst hone
    exact Yields.pure fun pool => reads_decode (Reads.pure _)
  by_cases htwo : slot = 2
  · subst htwo
    exact Yields.pure fun pool => reads_decode (Reads.pure _)
  by_cases hthree : slot = 3
  · subst hthree
    exact Yields.pure fun pool => reads_decode (Reads.pure _)
  have hlong : aloadOpcode slot = .aload := by
    simp only [aloadOpcode]
  simp only [encode, hlong]
  refine Yields.pure fun pool => ?_
  exact reads_decode ((reads_u8 slot).map aload)

/-- An encoded instruction decodes to itself. -/
theorem yields_encode (instruction : Instruction) :
    instruction.encode.Yields fun pool bytes => (decode pool).Reads bytes instruction := by
  cases instruction with
  | ldc value =>
    exact (yields_internLiteral value).map ldcBytes fun pool index hvalue =>
      reads_ldcBytes hvalue
  | aload slot => exact yields_encode_aload slot
  | invokeSpecial method =>
    exact (PoolBuilder.yields_methodRef method).map _ fun pool index hindex =>
      reads_decode (Reads.lookup_map hindex.1 invokeSpecial)
  | invokeStatic method =>
    exact (PoolBuilder.yields_methodRef method).map _ fun pool index hindex =>
      reads_decode (Reads.lookup_map hindex.1 invokeStatic)
  | newObject className =>
    exact (PoolBuilder.yields_classRef className).map _ fun pool index hindex =>
      reads_decode (Reads.lookup_map hindex.1 newObject)
  | _ => exact Yields.pure fun pool => reads_decode (Reads.pure _)

/-- No instruction is empty. -/
theorem length_pos_of_reads {pool : Pool} {instruction : Instruction} {bytes : List UInt8}
    (hread : (decode pool).Reads bytes instruction) : 0 < bytes.length := by
  cases bytes with
  | nil =>
    have hrun := hread 0 []
    cases hrun
  | cons byte bytes => exact Nat.succ_pos _

/-- Code that decodes to instructions, if as many steps are allowed as it has
bytes. -/
def CodedAs (pool : Pool) (instructions : List Instruction) (code : List UInt8) : Prop :=
  ∀ count position, code.length ≤ count →
    decodeAll pool count { position, rest := code } =
      .ok instructions { position := position + code.length, rest := [] }

theorem codedAs_nil (pool : Pool) : CodedAs pool [] [] := by
  intro count position _
  cases count with
  | zero => rfl
  | succ count => rfl

/-- Code starts with the bytes of its first instruction. -/
theorem CodedAs.cons {pool : Pool} {instruction : Instruction} {instructions : List Instruction}
    {bytes code : List UInt8} (hread : (decode pool).Reads bytes instruction)
    (hcode : CodedAs pool instructions code) :
    CodedAs pool (instruction :: instructions) (bytes ++ code) := by
  intro count position hcount
  have hpositive := length_pos_of_reads hread
  rw [List.length_append] at hcount
  obtain ⟨steps, rfl⟩ : ∃ steps, count = steps + 1 := ⟨count - 1, by omega⟩
  have hmore : (bytes ++ code).isEmpty = false := by
    rw [List.isEmpty_eq_false_iff_exists_mem]
    obtain ⟨byte, hbyte⟩ := List.exists_mem_of_length_pos hpositive
    exact ⟨byte, List.mem_append_left code hbyte⟩
  have hrest := hcode steps (position + bytes.length) (by omega)
  rw [decodeAll, run_get_bind, Cursor.hasMore, hmore, Bool.not_false, if_pos rfl,
    hread.run_bind, List.length_append, ← Nat.add_assoc]
  simp only [Bind.bind, EStateM.bind, hrest]
  rfl

end Instruction

/-- Code is taken apart into the instructions that it was made of. -/
theorem disassemble_eq_ok {pool : Pool} {instructions : List Instruction} {code : List UInt8}
    (hcode : Instruction.CodedAs pool instructions code) :
    disassemble pool code = .ok instructions := by
  have hrun := hcode code.length 0 (Nat.le_refl _)
  simp only [disassemble, Decoder.decode, EStateM.run, Cursor.ofBytes, hrun]

/-- An encoded body disassembles to its instructions. -/
theorem MethodBody.yields_encode (body : MethodBody) :
    body.encode.Yields fun pool code => disassemble pool code = .ok body.instructions := by
  have hcode : body.encode.Yields fun pool => Instruction.CodedAs pool body.instructions := by
    refine Yields.concat Instruction.CodedAs ?_ ?_ body.instructions fun instruction _ =>
      instruction.yields_encode
    · exact Instruction.codedAs_nil
    · exact fun pool instruction bytes instructions code hread hcode => hcode.cons hread
  exact hcode.mono fun pool code => disassemble_eq_ok

end ClassStub
