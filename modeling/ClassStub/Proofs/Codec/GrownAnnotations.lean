import ClassStub.Proofs.Codec.Annotation
import ClassStub.Proofs.Codec.GrownPools
import ClassStub.Proofs.Codec.Refusals

/-!
# Annotations in grown pools

Annotations are encoded with the indices that their parts have at that time, and
are read in the pool that is written in the end.  Encoding keeps what is promised
of a builder (`ElementValue.stable_encode`), so the bytes are read back as the same
tree, and no byte more, whatever was interned before and after.  How many bytes are
written depends neither on the builder nor on the indices
(`ElementValue.emits_encode`), so a tree that was read is written with as many bytes
as it was read from.  Both are one statement (`Annotation.encode_and_decode`).

The first half is about constants that can be written, as it is for code: behind
others the pool does not decode, or an annotation is read with another value
(`Annotation.not_decode_unwritable`).
-/

namespace ClassStub

open Decoder Encoder

/-! ## How many bytes are written -/

namespace Encoder

variable {α : Type}

/-- Whatever the builder, an encoder that succeeds yields so many bytes. -/
def Emits (encoder : Encoder (List UInt8)) (count : Nat) : Prop :=
  ∀ (builder : PoolBuilder) (bytes : List UInt8) (grown : PoolBuilder),
    encoder builder = .ok bytes grown → bytes.length = count

theorem Emits.pure {bytes : List UInt8} {count : Nat} (hlength : bytes.length = count) :
    Emits (pure bytes) count := by
  intro builder result grown hrun
  cases hrun
  exact hlength

/-- Two encoders yield as many bytes as the second one does. -/
theorem Emits.bind {first : Encoder α} {next : α → Encoder (List UInt8)} {count : Nat}
    (hnext : ∀ value, (next value).Emits count) : (first >>= next).Emits count := by
  intro builder bytes grown hrun
  obtain ⟨value, between, _, hlast⟩ := exists_between hrun
  exact hnext value between bytes grown hlast

/-- The number of bytes of a part is known where they are put together. -/
theorem Emits.bind_bytes {first : Encoder (List UInt8)} {next : List UInt8 → Encoder (List UInt8)}
    {part count : Nat} (hfirst : first.Emits part)
    (hnext : ∀ bytes, bytes.length = part → (next bytes).Emits count) :
    (first >>= next).Emits count := by
  intro builder bytes grown hrun
  obtain ⟨value, between, hstep, hlast⟩ := exists_between hrun
  exact hnext value (hfirst builder value between hstep) between bytes grown hlast

end Encoder

mutual

/-- A value is written in as many bytes as its size says. -/
theorem ElementValue.emits_encode (value : ElementValue) : value.encode.Emits value.size := by
  cases value with
  | constant value => exact Emits.bind fun index => Emits.pure rfl
  | enumConstant type name => exact Emits.bind fun first => Emits.bind fun second => Emits.pure rfl
  | nested type elements =>
    refine Emits.bind fun index => Emits.bind fun count => ?_
    refine (emits_encodeElements elements).bind_bytes fun body hbody => Emits.pure ?_
    simp only [List.length_append, length_tagByte, Bytes.length_u16, hbody, ElementValue.size]
  | array values =>
    refine Emits.bind fun count => ?_
    refine (emits_encodeValues values).bind_bytes fun body hbody => Emits.pure ?_
    simp only [List.length_append, length_tagByte, Bytes.length_u16, hbody, ElementValue.size]

theorem emits_encodeElements (elements : List (String × ElementValue)) :
    (encodeElements elements).Emits (elementsSize elements) := by
  cases elements with
  | nil => exact Emits.pure rfl
  | cons element elements =>
    obtain ⟨name, value⟩ := element
    refine Emits.bind fun index => ?_
    refine value.emits_encode.bind_bytes fun first hfirst => ?_
    refine (emits_encodeElements elements).bind_bytes fun more hmore => Emits.pure ?_
    simp only [List.length_append, Bytes.length_u16, hfirst, hmore, elementsSize]

theorem emits_encodeValues (values : List ElementValue) :
    (encodeValues values).Emits (valuesSize values) := by
  cases values with
  | nil => exact Emits.pure rfl
  | cons value values =>
    refine value.emits_encode.bind_bytes fun first hfirst => ?_
    refine (emits_encodeValues values).bind_bytes fun more hmore => Emits.pure ?_
    simp only [List.length_append, hfirst, hmore, valuesSize]

end

/-- An annotation is written in as many bytes as its size says. -/
theorem Annotation.emits_encode (value : Annotation) : value.encode.Emits value.size := by
  refine Emits.bind fun index => Emits.bind fun count => ?_
  refine (emits_encodeElements value.elements).bind_bytes fun body hbody => Emits.pure ?_
  simp only [List.length_append, Bytes.length_u16, hbody, size]

/-! ## Encoding again -/

/-- Interning a constant value again gives the same index. -/
theorem ConstantValue.stable_intern (value : ConstantValue) : value.intern.Stable := by
  cases value with
  | byte number => exact @PoolBuilder.stable_intern (.integer number) trivial
  | char number => exact @PoolBuilder.stable_intern (.integer number) trivial
  | short number => exact @PoolBuilder.stable_intern (.integer number) trivial
  | boolean number => exact @PoolBuilder.stable_intern (.integer number) trivial
  | int number => exact @PoolBuilder.stable_intern (.integer number) trivial
  | long number => exact @PoolBuilder.stable_intern (.long number) trivial
  | float bits => exact @PoolBuilder.stable_intern (.float bits) trivial
  | double bits => exact @PoolBuilder.stable_intern (.double bits) trivial
  | string text => exact PoolBuilder.stable_javaText text
  | classLiteral descriptor => exact PoolBuilder.stable_utf8 descriptor

/-- The length of a table does not depend on the pool. -/
theorem Encoder.stable_tableLength (count : Nat) :
    Encoder.Stable (liftM (tableLength count)) := by
  unfold tableLength
  split
  · exact Stable.pure _
  · exact Stable.throw _

mutual

/-- Encoding a value again gives the same bytes. -/
theorem ElementValue.stable_encode (value : ElementValue) : value.encode.Stable := by
  cases value with
  | constant value => exact value.stable_intern.map _
  | enumConstant type name =>
    exact (PoolBuilder.stable_utf8 type).bind fun _ => (PoolBuilder.stable_utf8 name).map _
  | nested type elements =>
    refine (PoolBuilder.stable_utf8 type).bind fun _ => ?_
    exact (stable_tableLength _).bind fun _ => (stable_encodeElements elements).map _
  | array values =>
    exact (stable_tableLength _).bind fun _ => (stable_encodeValues values).map _

theorem stable_encodeElements (elements : List (String × ElementValue)) :
    (encodeElements elements).Stable := by
  cases elements with
  | nil => exact Stable.pure []
  | cons element elements =>
    obtain ⟨name, value⟩ := element
    refine (PoolBuilder.stable_utf8 name).bind fun _ => value.stable_encode.bind fun _ => ?_
    exact (stable_encodeElements elements).map _

theorem stable_encodeValues (values : List ElementValue) : (encodeValues values).Stable := by
  cases values with
  | nil => exact Stable.pure []
  | cons value values =>
    exact value.stable_encode.bind fun _ => (stable_encodeValues values).map _

end

namespace Annotation

/-- Encoding an annotation again gives the same bytes. -/
theorem stable_encode (value : Annotation) : value.encode.Stable :=
  (PoolBuilder.stable_utf8 _).bind fun _ => (stable_tableLength _).bind fun _ =>
    (stable_encodeElements value.elements).map _

/-- An annotation is read from the bytes that spell it. -/
theorem WrittenAs.reads_decode {pool : Pool} {value : Annotation} {bytes : List UInt8}
    (hwritten : value.WrittenAs pool bytes) : (decode pool).Reads bytes value :=
  Reads.remaining fun depth hdepth => hwritten.2 depth (hwritten.1 ▸ hdepth)

/-- An annotation that was read took as many bytes as its size says. -/
theorem consumes_decode (pool : Pool) :
    (decode pool).Consumes fun value bytes => bytes.length = value.size :=
  Consumes.get_bind fun cursor =>
    consumes_decodeWith pool (ElementValue.consumes_decodeWithin pool cursor.remaining)

/-! ## Both directions -/

open PoolStep

/-- **Annotations outlive the growth of their pool, and keep their size.**  If an
annotation is encoded after some steps, and others follow, the pool that is written
in the end decodes, and there the bytes are read as the annotation, up to what
follows them.  If an annotation is read in any pool, encoding it in any builder
either fails because something is too large, or yields as many bytes as were
read. -/
theorem encode_and_decode (value : Annotation) :
    (∀ (before after : List PoolStep) (bytes : List UInt8) (grown : PoolBuilder),
      (∀ step ∈ before, step.Encodable) → (∀ step ∈ after, step.Encodable) →
        value.encode (runFrom {} before) = .ok bytes grown →
          ∃ pool : Pool,
            (∀ position suffix,
              Pool.decode { position, rest := (runFrom grown after).bytes ++ suffix } =
                .ok pool {
                  position := position + (runFrom grown after).bytes.length
                  rest := suffix }) ∧
              ∀ position suffix, decode pool { position, rest := bytes ++ suffix } =
                .ok value { position := position + bytes.length, rest := suffix }) ∧
    ∀ (pool : Pool) (cursor next : Cursor), decode pool cursor = .ok value next →
      ∃ used, cursor.rest = used ++ next.rest ∧ next.position = cursor.position + used.length ∧
        ∀ builder : PoolBuilder,
          (∃ cause left, value.encode builder = .error cause left ∧ cause.IsSize) ∨
          ∃ bytes grown, value.encode builder = .ok bytes grown ∧ bytes.length = used.length := by
  constructor
  · intro before after bytes grown hbefore hafter hencode
    -- The pool keeps its invariant before, during and behind the writing.
    have hstart := (exact_runFrom hbefore PoolBuilder.exact_empty).1
    have hgrown := (value.stable_encode.keeps _ hstart).1
    rw [builderAfter_of_ok hencode] at hgrown
    obtain ⟨hlast, hlater⟩ := exact_runFrom hafter hgrown
    have hyields := value.yields_encode _ bytes grown hstart.toValid hencode
    have hwritten := hyields.2.2 _ (hlater.slots.trans (PoolBuilder.holds_pool _))
    exact ⟨(runFrom grown after).pool, PoolBuilder.reads_pool hlast.toValid,
      hwritten.reads_decode⟩
  · intro pool cursor next hdecode
    obtain ⟨used, hrest, hposition, hused⟩ := consumes_decode pool cursor value next hdecode
    refine ⟨used, hrest, hposition, fun builder => ?_⟩
    cases hencode : value.encode builder with
    | error cause left =>
      exact .inl ⟨cause, left, rfl, value.failsOnly_encode builder cause left hencode⟩
    | ok bytes grown =>
      have hlength := (value.emits_encode builder bytes grown hencode).trans hused.symm
      exact .inr ⟨bytes, grown, rfl, hlength⟩

/-- An annotation with a constant of each kind that the pool keeps, an enum
constant, and an annotation in an array. -/
def sampleTree : Annotation where
  type := "LP;"
  elements := [
    ("a", .array [
      .nested "LQ;" [("b", .constant (.boolean 1)), ("s", .constant (.string (.ofString "a")))],
      .constant (.long 5)]),
    ("e", .enumConstant "LE;" "a"),
    ("f", .constant (.float 7)),
    ("d", .constant (.double 1)),
    ("c", .constant (.classLiteral "V"))]

/-- The bytes of the sample, behind the constants that were interned before. -/
def sampleTreeBytes : List UInt8 :=
  [0x00, 0x07, 0x00, 0x05, 0x00, 0x03, 0x5B, 0x00, 0x02, 0x40, 0x00, 0x08, 0x00, 0x02, 0x00, 0x09,
    0x5A, 0x00, 0x0A, 0x00, 0x0B, 0x73, 0x00, 0x03, 0x4A, 0x00, 0x01, 0x00, 0x0C, 0x65, 0x00, 0x0D,
    0x00, 0x03, 0x00, 0x0E, 0x46, 0x00, 0x0F, 0x00, 0x10, 0x44, 0x00, 0x11, 0x00, 0x13, 0x63, 0x00,
    0x14]

/-- The sample is read back from a pool that has grown since it was written. -/
theorem encode_and_decode_sampleTree :
    ∃ grown, sampleTree.encode (runFrom {} MethodBody.sampleBefore) = .ok sampleTreeBytes grown ∧
      ∃ pool : Pool,
        (∀ position suffix,
          Pool.decode {
              position, rest := (runFrom grown MethodBody.sampleAfter).bytes ++ suffix } =
            .ok pool {
              position := position + (runFrom grown MethodBody.sampleAfter).bytes.length
              rest := suffix }) ∧
          decode pool { position := 0, rest := sampleTreeBytes ++ [0xFF] } =
            .ok sampleTree { position := 49, rest := [0xFF] } ∧
          ∃ again left, sampleTree.encode {} = .ok again left ∧ again.length = 49 := by
  have hbefore : ∀ step ∈ MethodBody.sampleBefore, step.Encodable := by
    simp [MethodBody.sampleBefore, PoolStep.Encodable]
  have hafter : ∀ step ∈ MethodBody.sampleAfter, step.Encodable := by
    simp [MethodBody.sampleAfter, PoolStep.Encodable, Constant.Encodable]
  have hencode := Encoder.run_of_value? (by cbv :
    sampleTree.encode.value? (runFrom {} MethodBody.sampleBefore) = some sampleTreeBytes)
  obtain ⟨hforth, hback⟩ := encode_and_decode sampleTree
  obtain ⟨pool, hpool, hread⟩ := hforth _ _ _ _ hbefore hafter hencode
  have hdecode : decode pool { position := 0, rest := sampleTreeBytes ++ [0xFF] } =
      .ok sampleTree { position := 49, rest := [0xFF] } := hread 0 [0xFF]
  obtain ⟨used, hrest, _, hsize⟩ := hback _ _ _ hdecode
  have hused : used.length = 49 := by
    have hlength := congrArg List.length hrest
    rw [List.length_append, List.length_append] at hlength
    simpa [sampleTreeBytes] using hlength.symm
  refine ⟨_, hencode, pool, hpool, hdecode, ?_⟩
  rcases hsize {} with ⟨cause, left, herror, _⟩ | ⟨again, left, hagain, hlength⟩
  · have hvalue : (sampleTree.encode.value? {}).isSome := by cbv
    rw [Encoder.value?, herror] at hvalue
    cases hvalue
  · exact ⟨again, left, hagain, hlength.trans hused⟩

end Annotation

/-! ## Constants that cannot be written -/

namespace PoolBuilder

variable {builder : PoolBuilder} {text : String}

/-- A new text gets the next index if there is room for it. -/
theorem utf8_fresh (hfits : (JavaText.ofString text).bytes.length ≤ maxWord)
    (hnew : builder.indices[Constant.utf8 (.ofString text)]? = none)
    (hroom : builder.next + 1 ≤ maxWord) :
    utf8 text builder =
      .ok (UInt16.ofNat builder.next) (builder.extend (.utf8 (.ofString text))) := by
  rw [utf8, javaText, if_pos hfits, intern_of_new hnew]
  exact if_pos hroom

/-- A text that was interned before keeps its index. -/
theorem utf8_known {index : UInt16} (hfits : (JavaText.ofString text).bytes.length ≤ maxWord)
    (hindex : builder.indices[Constant.utf8 (.ofString text)]? = some index) :
    utf8 text builder = .ok index builder := by
  rw [utf8, javaText, if_pos hfits, intern_of_index hindex]

end PoolBuilder

namespace Annotation

open PoolStep

/-- An annotation with a number as its only element. -/
def sampleNumber (value : Int32) : Annotation where
  type := "LP;"
  elements := [("n", .constant (.int value))]

/-- The bytes of an annotation with one number. -/
def sampleNumberBytes : List UInt8 :=
  [0x00, 0x01, 0x00, 0x01, 0x00, 0x02, 0x49, 0x00, 0x04]

open PoolBuilder MethodBody in
/-- An annotation is read with another number behind a text of 65536 bytes. -/
theorem decode_number_behind_long {text : JavaText} {padding : List UInt8}
    (hbytes : text.bytes = numberBytes ++ padding) (hlength : text.bytes.length = 65536) :
    ∃ grown, encode (sampleNumber 7)
        (runFrom {} [.utf8 "LP;", .utf8 "n", .intern (.utf8 text)]) =
          .ok sampleNumberBytes grown ∧
      ∃ pool, Pool.decode.decode grown.bytes = .ok pool ∧
        (decode pool).decode sampleNumberBytes = .ok (sampleNumber 0x01010101) := by
  -- The long text is none of the two that are interned before it.
  have hother : ∀ short : String, (JavaText.ofString short).bytes.length ≠ 65536 →
      text ≠ .ofString short := by
    rintro short hshort rfl
    exact hshort hlength
  have htype := hother "LP;" (by decide)
  have hname := hother "n" (by decide)
  have hnames : JavaText.ofString "LP;" ≠ .ofString "n" := by decide
  let names := (extend {} (.utf8 (.ofString "LP;"))).extend (.utf8 (.ofString "n"))
  have hrun : runFrom {} [.utf8 "LP;", .utf8 "n", .intern (.utf8 text)] =
      names.extend (.utf8 text) := by
    have hfirst : PoolBuilder.utf8 "LP;" {} = .ok 1 (extend {} (.utf8 (.ofString "LP;"))) :=
      utf8_fresh (by decide) (by simp) (by decide)
    have hsecond : PoolBuilder.utf8 "n" (extend {} (.utf8 (.ofString "LP;"))) = .ok 2 names :=
      utf8_fresh (by decide) (by simp [indices_extend, hnames]) (by decide)
    have hlast : PoolBuilder.intern (.utf8 text) names = .ok 3 (names.extend (.utf8 text)) := by
      have hroom : 3 + 1 ≤ maxWord := by decide
      rw [intern_of_new (by simp [names, indices_extend, htype.symm, hname.symm])]
      exact if_pos hroom
    rw [runFrom, perform, builderAfter_of_ok hfirst, runFrom, perform, builderAfter_of_ok hsecond,
      runFrom, perform, builderAfter_of_ok hlast, runFrom]
  have hfound : PoolBuilder.utf8 "LP;" (names.extend (.utf8 text)) =
      .ok 1 (names.extend (.utf8 text)) :=
    utf8_known (by decide) (by simp [names, indices_extend, htype, hnames.symm])
  have hnamed : PoolBuilder.utf8 "n" (names.extend (.utf8 text)) =
      .ok 2 (names.extend (.utf8 text)) :=
    utf8_known (by decide) (by simp [names, indices_extend, hname]; rfl)
  have hnumber : PoolBuilder.intern (.integer 7) (names.extend (.utf8 text)) =
      .ok 4 ((names.extend (.utf8 text)).extend (.integer 7)) := by
    have hroom : 4 + 1 ≤ maxWord := by decide
    rw [intern_of_new (by simp [names, indices_extend])]
    exact if_pos hroom
  refine ⟨(names.extend (.utf8 text)).extend (.integer 7), ?_, ?_⟩
  · have hvalue : (ElementValue.constant (.int 7)).encode (names.extend (.utf8 text)) =
        .ok [0x49, 0x00, 0x04] ((names.extend (.utf8 text)).extend (.integer 7)) :=
      run_bind hnumber
    have helements : encodeElements [("n", .constant (.int 7))] (names.extend (.utf8 text)) =
        .ok [0x00, 0x02, 0x49, 0x00, 0x04] ((names.extend (.utf8 text)).extend (.integer 7)) :=
      (run_bind hnamed).trans (run_bind hvalue)
    rw [hrun]
    exact (run_bind hfound).trans (run_bind helements)
  · have hvalid : ((names.extend (.utf8 (.ofString ""))).extend (.integer 0x01010101)).Valid := by
      have hempty : ∀ short : String, (JavaText.ofString short).bytes.length ≤ maxWord →
          Constant.Encodable (.utf8 (.ofString short)) := fun _ hfits => hfits
      have hfirst := valid_empty.extend (hempty "LP;" (by decide)) (by decide)
      have hsecond := hfirst.extend (hempty "n" (by decide)) (by decide)
      exact (hsecond.extend (hempty "" (by decide)) (by decide)).extend trivial (by decide)
    have hread := reads_pool hvalid 0 (padding ++ (Constant.integer 7).bytes)
    rw [← bytes_behind_long names hbytes hlength 7] at hread
    exact ⟨_, by rw [Decoder.decode, EStateM.run, Cursor.ofBytes, hread], by cbv⟩

/-- Some constants can be interned but not written.  Behind one that takes an index
and has no bytes, the pool does not decode; behind a text whose length is no word,
an annotation is read with another value. -/
theorem not_decode_unwritable :
    (∃ grown, encode ⟨"A", []⟩ (runFrom {} [.intern .unusable]) =
        .ok [0x00, 0x02, 0x00, 0x00] grown ∧
      Pool.decode.decode grown.bytes = .error (.unreadable (.unexpectedEnd 6))) ∧
    ∃ grown, encode (sampleNumber 7)
        (runFrom {} [.utf8 "LP;", .utf8 "n", .intern (.utf8 MethodBody.longText)]) =
          .ok sampleNumberBytes grown ∧
      ∃ pool, Pool.decode.decode grown.bytes = .ok pool ∧
        (decode pool).decode sampleNumberBytes = .ok (sampleNumber 0x01010101) := by
  constructor
  · have hencode := Encoder.run_of_value? (by cbv :
      (encode ⟨"A", []⟩).value? (runFrom {} [.intern .unusable]) =
        some [0x00, 0x02, 0x00, 0x00])
    exact ⟨_, hencode, by cbv⟩
  · have hlength : MethodBody.longText.bytes.length = 65536 := by
      rw [MethodBody.longText, List.length_append, List.length_replicate]
      rfl
    exact decode_number_behind_long rfl hlength

end Annotation

end ClassStub
