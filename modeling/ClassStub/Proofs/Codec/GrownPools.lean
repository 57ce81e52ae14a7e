import ClassStub.Proofs.Codec.Code
import ClassStub.Proofs.Codec.PoolRuns

/-!
# Code in grown pools

Code is encoded with the indices that its operands have at that time, and is read
in the pool that is written in the end.  Encoding keeps what is promised of a
builder (`MethodBody.stable_encode`), and an index that was given out leads to the
same constant ever after, so the code disassembles to the instructions that it
was encoded from, whatever was interned before and after
(`MethodBody.disassemble_grown`).

This is about constants that can be written.  A builder also takes a constant of
which no bytes are written, and a text whose length is no word; the first leaves a
pool that does not decode, the second one in which indices lead elsewhere
(`MethodBody.not_disassemble_unwritable`).
-/

namespace ClassStub

open Decoder Encoder

/-! ## Encoding code again -/

namespace Encoder

variable {α : Type}

theorem Stable.pure (value : α) : Stable (pure value : Encoder α) where
  keeps := fun builder hexact => ⟨hexact, .refl builder⟩
  repeats := by
    intro builder result grown later _ hrun _
    cases hrun
    rfl

/-- Changing the result leaves an encoder stable. -/
theorem Stable.map {β : Type} {encoder : Encoder α} (hencoder : encoder.Stable) (f : α → β) :
    Stable (do return f (← encoder)) :=
  hencoder.bind fun value => Stable.pure (f value)

/-- Encoding items one behind the other is stable if that of each is. -/
theorem Stable.concat {encode : α → Encoder (List UInt8)} (items : List α)
    (hitems : ∀ item ∈ items, (encode item).Stable) : (Encoder.concat encode items).Stable := by
  induction items with
  | nil => exact Stable.pure []
  | cons item more ih =>
    obtain ⟨hitem, hmore⟩ := List.forall_mem_cons.1 hitems
    exact hitem.bind fun bytes => (ih hmore).map (bytes ++ ·)

/-- What an encoder yields if it succeeds. -/
def value? (encoder : Encoder α) (builder : PoolBuilder) : Option α :=
  match encoder builder with
  | .ok value _ => some value
  | .error _ _ => none

/-- An encoder with a value succeeds with it. -/
theorem run_of_value? {encoder : Encoder α} {builder : PoolBuilder} {value : α}
    (hvalue : encoder.value? builder = some value) :
    encoder builder = .ok value (encoder.builderAfter builder) := by
  unfold value? at hvalue
  unfold builderAfter
  cases hrun : encoder builder with
  | error cause left =>
    rw [hrun] at hvalue
    cases hvalue
  | ok found left =>
    rw [hrun] at hvalue
    cases hvalue
    rfl

end Encoder

/-- Bytes of ASCII other than zero are units. -/
theorem ModifiedUtf8.isSome_units?_of_ascii {bytes : List UInt8}
    (hascii : ∀ byte ∈ bytes, byte.toNat ≠ 0 ∧ byte.toNat < 0x80) : (units? bytes).isSome := by
  induction bytes with
  | nil => rfl
  | cons first rest ih =>
    rw [List.forall_mem_cons] at hascii
    obtain ⟨⟨hnonzero, hsmall⟩, hrest⟩ := hascii
    rw [units?.eq_def]
    simp only [hsmall, hnonzero, ↓reduceIte, Option.isSome_map]
    exact ih hrest

/-- Interning a literal again gives the same index. -/
theorem Instruction.stable_internLiteral (value : Literal) : (internLiteral value).Stable := by
  cases value with
  | int number => exact @PoolBuilder.stable_intern (.integer number) trivial
  | string text => exact PoolBuilder.stable_javaString _

/-- Encoding an instruction again gives the same bytes. -/
theorem Instruction.stable_encode (instruction : Instruction) : instruction.encode.Stable := by
  cases instruction with
  | ldc value => exact (stable_internLiteral value).map ldcBytes
  | aload slot =>
    rw [encode]
    split <;> exact Stable.pure _
  | invokeSpecial method => exact (PoolBuilder.stable_methodRef method).map _
  | invokeStatic method => exact (PoolBuilder.stable_methodRef method).map _
  | newObject className => exact (PoolBuilder.stable_classRef className).map _
  | _ => exact Stable.pure _

/-- Encoding a body again gives the same code. -/
theorem MethodBody.stable_encode (body : MethodBody) : body.encode.Stable :=
  Stable.concat body.instructions fun instruction _ => instruction.stable_encode

/-! ## Reading code later -/

namespace MethodBody

open PoolStep

/-- **Code outlives the growth of its pool.**  If a body is encoded after some
steps, and others follow, the pool that is written in the end decodes, and the
code disassembles there to the instructions of the body. -/
theorem disassemble_grown {before after : List PoolStep}
    (hbefore : ∀ step ∈ before, step.Encodable) (hafter : ∀ step ∈ after, step.Encodable)
    {body : MethodBody} {code : List UInt8} {grown : PoolBuilder}
    (hencode : body.encode (runFrom {} before) = .ok code grown) :
    ∃ pool : Pool,
      (∀ position suffix,
        Pool.decode { position, rest := (runFrom grown after).bytes ++ suffix } =
          .ok pool { position := position + (runFrom grown after).bytes.length, rest := suffix }) ∧
        disassemble pool code = .ok body.instructions := by
  have hstart := (exact_runFrom hbefore PoolBuilder.exact_empty).1
  have hgrown := (body.stable_encode.keeps _ hstart).1
  rw [builderAfter_of_ok hencode] at hgrown
  obtain ⟨hlast, hlater⟩ := exact_runFrom hafter hgrown
  have hyields := body.yields_encode _ code grown hstart.toValid hencode
  refine ⟨(runFrom grown after).pool, ?_, ?_⟩
  · exact PoolBuilder.reads_pool hlast.toValid
  · exact hyields.2.2 _ (hlater.slots.trans (PoolBuilder.holds_pool _))

/-- Two texts that the code uses again, and a number that takes two indices. -/
def sampleBefore : List PoolStep :=
  [.long 5, .string "a", .classRef "p/A"]

/-- Later steps, of which the last finds an entry. -/
def sampleAfter : List PoolStep :=
  [.double 1, .intern (.moduleRef 4), .javaText (.ofString "m")]

/-- All forms of operands: literals, short and long slots, a class, and members of
a class and of an interface. -/
def sample : MethodBody where
  maxStack := 3
  maxLocals := 5
  instructions := [.ldc (.int 7), .ldc (.string "a"), .aload 0, .aload 4, .newObject "p/A",
    .invokeStatic { owner := "p/A", name := "m", descriptor := "()V" },
    .invokeSpecial { owner := "p/B", name := "n", descriptor := "()V", ofInterface := true },
    .athrow]

/-- The code of the sample, behind the constants that were interned before. -/
def sampleCode : List UInt8 :=
  [0x12, 0x07, 0x12, 0x04, 0x2A, 0x19, 0x04, 0xBB, 0x00, 0x06, 0xB8, 0x00, 0x0B, 0xB7, 0x00, 0x10,
    0xBF]

/-- The sample is taken apart with a pool that has grown since it was written. -/
theorem disassemble_grown_sample :
    ∃ grown, sample.encode (runFrom {} sampleBefore) = .ok sampleCode grown ∧
      ∃ pool : Pool,
        (∀ position suffix,
          Pool.decode { position, rest := (runFrom grown sampleAfter).bytes ++ suffix } =
            .ok pool {
              position := position + (runFrom grown sampleAfter).bytes.length
              rest := suffix }) ∧
          disassemble pool sampleCode = .ok sample.instructions := by
  have hbefore : ∀ step ∈ sampleBefore, step.Encodable := by
    simp [sampleBefore, PoolStep.Encodable]
  have hafter : ∀ step ∈ sampleAfter, step.Encodable := by
    simp [sampleAfter, PoolStep.Encodable, Constant.Encodable]
  have hencode := Encoder.run_of_value? (by cbv :
    sample.encode.value? (runFrom {} sampleBefore) = some sampleCode)
  exact ⟨_, hencode, disassemble_grown hbefore hafter hencode⟩

/-! ## Constants that cannot be written -/

/-- The first bytes of a text, which are those of a written number. -/
def numberBytes : List UInt8 := [3, 1, 1, 1, 1]

/-- A text of 65536 bytes. -/
def longText : JavaText where
  bytes := numberBytes ++ List.replicate 65531 0x61
  wellFormed := by
    apply ModifiedUtf8.isSome_units?_of_ascii
    intro byte hbyte
    rw [List.mem_append, List.mem_replicate] at hbyte
    have hnumber : ∀ byte ∈ numberBytes, byte.toNat ≠ 0 ∧ byte.toNat < 0x80 := by
      simp [numberBytes]
    rcases hbyte with hfirst | hrest
    · exact hnumber byte hfirst
    · rw [hrest.2]
      decide

open PoolBuilder in
/-- The length of a text of 65536 bytes is written as 0, and its bytes are read as
further entries. -/
theorem bytes_behind_long (builder : PoolBuilder) {text : JavaText} {padding : List UInt8}
    (hbytes : text.bytes = numberBytes ++ padding) (hlength : text.bytes.length = 65536)
    (value : Int32) :
    ((builder.extend (.utf8 text)).extend (.integer value)).bytes =
      ((builder.extend (.utf8 (.ofString ""))).extend (.integer 0x01010101)).bytes ++
        (padding ++ (Constant.integer value).bytes) := by
  simp only [PoolBuilder.bytes, extend, Array.toList_push, List.flatMap_append,
    List.flatMap_cons, List.flatMap_nil, List.append_nil, Constant.bytes, hlength]
  simp only [hbytes, List.append_assoc]
  rfl

open PoolBuilder in
/-- A text that is too long by one byte is read as an empty one, and its bytes as
the constants behind it, so that an index leads to a number that was never interned.
-/
theorem decode_behind_long {text : JavaText} {padding : List UInt8}
    (hbytes : text.bytes = numberBytes ++ padding) (hlength : text.bytes.length = 65536) :
    ∃ pool,
      Pool.decode.decode ((extend {} (.utf8 text)).extend (.integer 7)).bytes = .ok pool ∧
        disassemble pool [0x12, 0x02] = .ok [.ldc (.int 0x01010101)] := by
  have hempty : Constant.Encodable (.utf8 (.ofString "")) := Nat.zero_le _
  have hvalid : ((extend {} (.utf8 (.ofString ""))).extend (.integer 0x01010101)).Valid :=
    (valid_empty.extend hempty (by decide)).extend trivial (by decide)
  have hread := reads_pool hvalid 0 (padding ++ (Constant.integer 7).bytes)
  rw [← bytes_behind_long {} hbytes hlength 7] at hread
  exact ⟨_, by rw [Decoder.decode, EStateM.run, Cursor.ofBytes, hread], by cbv⟩

open PoolBuilder in
/-- Some constants can be interned but not written.  Behind one that takes an
index and has no bytes, the pool does not decode; behind a text whose length is no
word, an index leads elsewhere. -/
theorem not_disassemble_unwritable :
    (∃ grown, encode ⟨1, 0, [.newObject "A"]⟩ (runFrom {} [.intern .unusable]) =
        .ok [0xBB, 0x00, 0x03] grown ∧
      Pool.decode.decode grown.bytes = .error (.unreadable (.unexpectedEnd 9))) ∧
    ∃ grown, encode ⟨1, 0, [.ldc (.int 7)]⟩ (runFrom {} [.intern (.utf8 longText)]) =
        .ok [0x12, 0x02] grown ∧
      ∃ pool, Pool.decode.decode grown.bytes = .ok pool ∧
        disassemble pool [0x12, 0x02] = .ok [.ldc (.int 0x01010101)] := by
  constructor
  · have hencode := Encoder.run_of_value? (by cbv :
      (encode ⟨1, 0, [.newObject "A"]⟩).value? (runFrom {} [.intern .unusable]) =
        some [0xBB, 0x00, 0x03])
    exact ⟨_, hencode, by cbv⟩
  · have hlength : longText.bytes.length = 65536 := by
      rw [longText, List.length_append, List.length_replicate]
      rfl
    have hfirst : runFrom {} [.intern (.utf8 longText)] = extend {} (.utf8 longText) := by
      rw [runFrom, perform, builderAfter, intern_of_new (by simp), if_pos (by decide), runFrom]
    have hsecond : intern (.integer 7) (extend {} (.utf8 longText)) =
        .ok 2 ((extend {} (.utf8 longText)).extend (.integer 7)) := by
      rw [intern_of_new (by simp [indices_extend]), if_pos (by decide)]
      rfl
    have hpush : (Instruction.ldc (.int 7)).encode (extend {} (.utf8 longText)) =
        .ok [0x12, 0x02] ((extend {} (.utf8 longText)).extend (.integer 7)) := by
      rw [Instruction.encode, Instruction.internLiteral, run_bind hsecond]
      rfl
    refine ⟨(extend {} (.utf8 longText)).extend (.integer 7), ?_, decode_behind_long rfl hlength⟩
    rw [hfirst, encode, Encoder.concat, run_bind hpush]
    rfl

end MethodBody

end ClassStub
