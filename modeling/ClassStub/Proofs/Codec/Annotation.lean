import ClassStub.Annotation.Codec
import ClassStub.Proofs.Codec.WrittenPool

/-!
# Annotations, written and read

The number of bytes of an element value follows from its shape alone
(`ElementValue.size`).  Encoding yields that many bytes, which read back as the
value at every depth that is not below their number; decoding consumed that many
bytes.  So a tree of annotations that was read from a frame fits into a frame of
the same length when it is written again, whatever indices it gets.
-/

namespace ClassStub

open Decoder Encoder

/-! ## Sizes -/

mutual

/-- The number of bytes of an element value. -/
def ElementValue.size : ElementValue → Nat
  | .constant _ => 3
  | .enumConstant _ _ => 5
  | .nested _ elements => 5 + elementsSize elements
  | .array values => 3 + valuesSize values

/-- The number of bytes of named elements. -/
def elementsSize : List (String × ElementValue) → Nat
  | [] => 0
  | (_, value) :: elements => 2 + value.size + elementsSize elements

/-- The number of bytes of values in a row. -/
def valuesSize : List ElementValue → Nat
  | [] => 0
  | value :: values => value.size + valuesSize values

end

namespace Annotation

/-- The number of bytes of an annotation. -/
def size (value : Annotation) : Nat :=
  4 + elementsSize value.elements

/-- The number of bytes of a table of annotations. -/
def tableSize : List Annotation → Nat
  | [] => 2
  | value :: table => value.size + tableSize table

/-- The number of bytes of one table for each parameter. -/
def parametersSize : List (List Annotation) → Nat
  | [] => 1
  | table :: tables => tableSize table + parametersSize tables

end Annotation

/-! ## From values to bytes and back -/

theorem length_tagByte (tag : Char) : (tagByte tag).length = 1 :=
  rfl

/-- A constant value is read back from its tag and its index, in whatever depth. -/
theorem ConstantValue.yields_intern (value : ConstantValue) :
    value.intern.Yields fun pool index => ∀ depth : Nat,
      (ElementValue.decodeWithin pool (depth + 1)).Reads
        (tagByte value.tag ++ Bytes.u16 index) (.constant value) := by
  cases value with
  | byte number =>
    exact (PoolBuilder.yields_integer number).mono fun pool index hindex depth =>
      (reads_u8 _).bind (Reads.lookup_map hindex.1 fun v => ElementValue.constant (byte v))
  | char number =>
    exact (PoolBuilder.yields_integer number).mono fun pool index hindex depth =>
      (reads_u8 _).bind (Reads.lookup_map hindex.1 fun v => ElementValue.constant (char v))
  | short number =>
    exact (PoolBuilder.yields_integer number).mono fun pool index hindex depth =>
      (reads_u8 _).bind (Reads.lookup_map hindex.1 fun v => ElementValue.constant (short v))
  | boolean number =>
    exact (PoolBuilder.yields_integer number).mono fun pool index hindex depth =>
      (reads_u8 _).bind (Reads.lookup_map hindex.1 fun v => ElementValue.constant (boolean v))
  | int number =>
    exact (PoolBuilder.yields_integer number).mono fun pool index hindex depth =>
      (reads_u8 _).bind (Reads.lookup_map hindex.1 fun v => ElementValue.constant (int v))
  | long number =>
    exact (PoolBuilder.yields_long number).mono fun pool index hindex depth =>
      (reads_u8 _).bind (Reads.lookup_map hindex.1 fun v => ElementValue.constant (long v))
  | float bits =>
    exact (PoolBuilder.yields_float bits).mono fun pool index hindex depth =>
      (reads_u8 _).bind (Reads.lookup_map hindex.1 fun v => ElementValue.constant (float v))
  | double bits =>
    exact (PoolBuilder.yields_double bits).mono fun pool index hindex depth =>
      (reads_u8 _).bind (Reads.lookup_map hindex.1 fun v => ElementValue.constant (double v))
  | string text =>
    exact (PoolBuilder.yields_javaText text).mono fun pool index hindex depth =>
      (reads_u8 _).bind (Reads.lookup_map hindex.1 fun v => ElementValue.constant (string v))
  | classLiteral descriptor =>
    exact (PoolBuilder.yields_utf8 descriptor).mono fun pool index hindex depth =>
      (reads_u8 _).bind
        (Reads.lookup_map hindex.1 fun v => ElementValue.constant (classLiteral v))

/-- Decodes an element of an annotation: its name and its value. -/
def decodeElement (pool : Pool) (value : Decoder ElementValue) :
    Decoder (String × ElementValue) := do
  let name ← pool.utf8 (← Reader.u16)
  let value ← value
  return (name, value)

/-- The bytes are an element value: as many as its size, and read as it at every
depth from there on. -/
def ElementValue.WrittenAs (pool : Pool) (value : ElementValue) (bytes : List UInt8) : Prop :=
  bytes.length = value.size ∧ ∀ depth, value.size ≤ depth →
    (ElementValue.decodeWithin pool depth).Reads bytes value

/-- The bytes are named elements in a row. -/
def ElementsWrittenAs (pool : Pool) (elements : List (String × ElementValue))
    (bytes : List UInt8) : Prop :=
  bytes.length = elementsSize elements ∧ ∀ depth, elementsSize elements ≤ depth →
    (repeated (decodeElement pool (ElementValue.decodeWithin pool depth)) elements.length).Reads
      bytes elements

/-- The bytes are values in a row. -/
def ValuesWrittenAs (pool : Pool) (values : List ElementValue) (bytes : List UInt8) : Prop :=
  bytes.length = valuesSize values ∧ ∀ depth, valuesSize values ≤ depth →
    (repeated (ElementValue.decodeWithin pool depth) values.length).Reads bytes values

/-- Every value takes at least its tag. -/
theorem ElementValue.size_pos (value : ElementValue) : 0 < value.size := by
  cases value with
  | constant value => exact Nat.zero_lt_succ 2
  | enumConstant type name => exact Nat.zero_lt_succ 4
  | nested type elements =>
    rw [ElementValue.size]
    omega
  | array values =>
    rw [ElementValue.size]
    omega

/-- A value has at least one byte, so only positive depths matter. -/
theorem ElementValue.WrittenAs.intro {pool : Pool} {value : ElementValue} {bytes : List UInt8}
    (hlength : bytes.length = value.size)
    (hread : ∀ depth, value.size ≤ depth + 1 →
      (ElementValue.decodeWithin pool (depth + 1)).Reads bytes value) :
    value.WrittenAs pool bytes := by
  refine ⟨hlength, fun depth hdepth => ?_⟩
  cases depth with
  | zero => exact absurd hdepth (Nat.not_le_of_lt value.size_pos)
  | succ depth => exact hread depth hdepth

/-- A count that fits a word is read as it was written. -/
theorem toNat_ofNat_count {count : Nat} (h : count ≤ maxWord) :
    (UInt16.ofNat count).toNat = count := by
  rw [UInt16.toNat_ofNat']
  exact Nat.mod_eq_of_lt (Nat.lt_succ_of_le h)

theorem Encoder.yields_tableLength (count : Nat) :
    Encoder.Yields (liftM (tableLength count)) fun _ length =>
      count ≤ maxWord ∧ length = UInt16.ofNat count :=
  Yields.lift fun _ _ => tableLength_eq_ok

/-- A count in front of as many items. -/
theorem Decoder.Reads.counted {α : Type} {item : Decoder α} {count : Nat} {values : List α}
    {bytes : List UInt8} (hcount : count ≤ maxWord)
    (hitems : (repeated item count).Reads bytes values) :
    Decoder.Reads (do
      let count ← Reader.u16
      repeated item count.toNat) (Bytes.u16 (UInt16.ofNat count) ++ bytes) values := by
  apply (reads_u16 _).bind
  rwa [toNat_ofNat_count hcount]

/-- An annotation is read from its type, its count and its elements, if the depth
suffices for these. -/
theorem ElementsWrittenAs.reads_decodeWith {pool : Pool} {type : String} {typeIndex : UInt16}
    {elements : List (String × ElementValue)} {bytes : List UInt8}
    (hwritten : ElementsWrittenAs pool elements bytes) (htype : pool.utf8 typeIndex = .ok type)
    (hcount : elements.length ≤ maxWord) {depth : Nat} (hdepth : elementsSize elements ≤ depth) :
    Decoder.Reads ( Annotation.decodeWith pool (ElementValue.decodeWithin pool depth))
      (Bytes.u16 typeIndex ++ (Bytes.u16 (UInt16.ofNat elements.length) ++ bytes))
      { type, elements } := by
  apply Reads.lookup htype
  apply (reads_u16 _).bind
  rw [toNat_ofNat_count hcount]
  exact (hwritten.2 depth hdepth).map fun elements => Annotation.mk type elements

mutual

/-- A value is written as bytes that spell it. -/
theorem ElementValue.yields_encode (value : ElementValue) :
    value.encode.Yields fun pool bytes => value.WrittenAs pool bytes := by
  cases value with
  | constant value =>
    rw [ElementValue.encode]
    exact value.yields_intern.map _ fun pool index hread =>
      ElementValue.WrittenAs.intro rfl fun depth _ => hread depth
  | enumConstant type name =>
    rw [ElementValue.encode]
    refine (PoolBuilder.yields_utf8 type).bind fun typeIndex => ?_
    refine (PoolBuilder.yields_utf8 name).map _ fun pool nameIndex hname htype => ?_
    refine ElementValue.WrittenAs.intro rfl fun depth _ => ?_
    rw [List.append_assoc]
    exact (reads_u8 _).bind
      (Reads.lookup htype.1 (Reads.lookup_map hname.1 (ElementValue.enumConstant type)))
  | nested type elements =>
    have helements := yields_encodeElements elements
    rw [ElementValue.encode]
    refine (PoolBuilder.yields_utf8 type).bind fun typeIndex => ?_
    refine (Encoder.yields_tableLength elements.length).bind fun count => ?_
    refine helements.map _ fun pool body hbody hcount htype => ?_
    rcases hcount with ⟨hfits, rfl⟩
    refine ElementValue.WrittenAs.intro ?_ fun depth hdepth => ?_
    · simp [length_tagByte, hbody.1, ElementValue.size]
      omega
    · -- The value is larger than its elements, so one level less suffices for them.
      have hinside : elementsSize elements ≤ depth := by
        rw [ElementValue.size] at hdepth
        omega
      have hcontent := hbody.reads_decodeWith htype.1 hfits hinside
      simp only [List.append_assoc]
      exact (reads_u8 _).bind (hcontent.map Annotation.toValue)
  | array values =>
    have hvalues := yields_encodeValues values
    rw [ElementValue.encode]
    refine (Encoder.yields_tableLength values.length).bind fun count => ?_
    refine hvalues.map _ fun pool body hbody hcount => ?_
    rcases hcount with ⟨hfits, rfl⟩
    refine ElementValue.WrittenAs.intro ?_ fun depth hdepth => ?_
    · simp [length_tagByte, hbody.1, ElementValue.size]
      omega
    · have hinside : valuesSize values ≤ depth := by
        rw [ElementValue.size] at hdepth
        omega
      have hread := hbody.2 depth hinside
      rw [← toNat_ofNat_count hfits] at hread
      simp only [List.append_assoc]
      exact (reads_u8 _).bind ((reads_u16 _).bind (hread.map ElementValue.array))

/-- Elements are written one behind the other, each as its name and its value. -/
theorem yields_encodeElements (elements : List (String × ElementValue)) :
    (encodeElements elements).Yields fun pool bytes =>
      ElementsWrittenAs pool elements bytes := by
  cases elements with
  | nil =>
    exact Yields.pure fun pool => ⟨rfl, fun depth _ => Reads.repeated_nil _⟩
  | cons element elements =>
    obtain ⟨name, value⟩ := element
    have hvalue := value.yields_encode
    have hmore := yields_encodeElements elements
    rw [encodeElements]
    refine (PoolBuilder.yields_utf8 name).bind fun nameIndex => ?_
    refine hvalue.bind fun first => ?_
    refine hmore.map _ fun pool more hrest hfirst hname => ⟨?_, fun depth hdepth => ?_⟩
    · simp [hfirst.1, hrest.1, elementsSize]
      omega
    · rw [elementsSize] at hdepth
      have hread := hfirst.2 depth (by omega)
      have helement : (decodeElement pool (ElementValue.decodeWithin pool depth)).Reads
          (Bytes.u16 nameIndex ++ first) (name, value) :=
        Reads.lookup hname.1 (hread.map (name, ·))
      exact Reads.repeated_cons helement (hrest.2 depth (by omega))

theorem yields_encodeValues (values : List ElementValue) :
    (encodeValues values).Yields fun pool bytes => ValuesWrittenAs pool values bytes := by
  cases values with
  | nil =>
    exact Yields.pure fun pool => ⟨rfl, fun depth _ => Reads.repeated_nil _⟩
  | cons value values =>
    have hvalue := value.yields_encode
    have hmore := yields_encodeValues values
    rw [encodeValues]
    refine hvalue.bind fun first => ?_
    refine hmore.map _ fun pool more hrest hfirst => ⟨?_, fun depth hdepth => ?_⟩
    · simp [hfirst.1, hrest.1, valuesSize]
    · rw [valuesSize] at hdepth
      exact Reads.repeated_cons (hfirst.2 depth (by omega)) (hrest.2 depth (by omega))

end

namespace Annotation

/-- The bytes are an annotation. -/
def WrittenAs (pool : Pool) (value : Annotation) (bytes : List UInt8) : Prop :=
  bytes.length = value.size ∧ ∀ depth, value.size ≤ depth →
    (decodeWith pool (ElementValue.decodeWithin pool depth)).Reads bytes value

/-- The bytes are annotations in a row. -/
def RowWrittenAs (pool : Pool) (table : List Annotation) (bytes : List UInt8) : Prop :=
  bytes.length + 2 = tableSize table ∧ ∀ depth, tableSize table ≤ depth →
    (repeated (decodeWith pool (ElementValue.decodeWithin pool depth)) table.length).Reads
      bytes table

/-- The bytes are a table of annotations. -/
def TableWrittenAs (pool : Pool) (table : List Annotation) (bytes : List UInt8) : Prop :=
  bytes.length = tableSize table ∧ ∀ depth, tableSize table ≤ depth →
    (decodeTableWith pool (ElementValue.decodeWithin pool depth)).Reads bytes table

/-- The bytes are tables of annotations in a row. -/
def TablesWrittenAs (pool : Pool) (tables : List (List Annotation)) (bytes : List UInt8) :
    Prop :=
  bytes.length + 1 = parametersSize tables ∧ ∀ depth, parametersSize tables ≤ depth →
    (repeated (decodeTableWith pool (ElementValue.decodeWithin pool depth)) tables.length).Reads
      bytes tables

/-- An annotation is written as bytes that spell it. -/
theorem yields_encode (value : Annotation) :
    value.encode.Yields fun pool bytes => value.WrittenAs pool bytes := by
  refine (PoolBuilder.yields_utf8 value.type).bind fun typeIndex => ?_
  refine (Encoder.yields_tableLength value.elements.length).bind fun count => ?_
  refine (yields_encodeElements value.elements).map _ fun pool body hbody hcount htype => ?_
  rcases hcount with ⟨hfits, rfl⟩
  refine ⟨?_, fun depth hdepth => ?_⟩
  · simp [hbody.1, size]
    omega
  · have hinside : elementsSize value.elements ≤ depth := by
      rw [size] at hdepth
      omega
    rw [List.append_assoc]
    exact hbody.reads_decodeWith htype.1 hfits hinside

/-- A table of annotations is written as bytes that spell it. -/
theorem yields_encodeTable (table : List Annotation) :
    (encodeTable table).Yields fun pool bytes => TableWrittenAs pool table bytes := by
  have hrow : (Encoder.concat encode table).Yields fun pool => RowWrittenAs pool table := by
    refine Yields.concat RowWrittenAs ?_ ?_ table fun value _ => value.yields_encode
    · exact fun pool => ⟨rfl, fun depth _ => Reads.repeated_nil _⟩
    · rintro pool value bytes table more ⟨hlength, hread⟩ ⟨hmore, hreads⟩
      refine ⟨?_, fun depth hdepth => ?_⟩
      · rw [tableSize, List.length_append]
        omega
      · rw [tableSize] at hdepth
        exact Reads.repeated_cons (hread depth (by omega)) (hreads depth (by omega))
  apply hrow.table.mono
  rintro pool _ ⟨hcount, body, rfl, hlength, hread⟩
  refine ⟨?_, fun depth hdepth => (hread depth hdepth).counted hcount⟩
  rw [List.length_append, Bytes.length_u16]
  omega

/-- The bytes are annotations of parameters. -/
def ParametersWrittenAs (pool : Pool) (tables : List (List Annotation)) (bytes : List UInt8) :
    Prop :=
  bytes.length = parametersSize tables ∧ (decodeParameters pool).Reads bytes tables

end Annotation

/-- A value is read from the bytes that spell it. -/
theorem ElementValue.WrittenAs.reads_decode {pool : Pool} {value : ElementValue}
    {bytes : List UInt8} (h : value.WrittenAs pool bytes) :
    (ElementValue.decode pool).Reads bytes value :=
  Reads.remaining fun depth hdepth => h.2 depth (h.1 ▸ hdepth)

theorem Annotation.TableWrittenAs.reads_decodeTable {pool : Pool} {table : List Annotation}
    {bytes : List UInt8} (h : TableWrittenAs pool table bytes) :
    (decodeTable pool).Reads bytes table :=
  Reads.remaining fun depth hdepth => h.2 depth (h.1 ▸ hdepth)

/-- The tables of parameters are written as bytes that spell them. -/
theorem Annotation.yields_encodeParameters (tables : List (List Annotation)) :
    (encodeParameters tables).Yields fun pool bytes =>
      ParametersWrittenAs pool tables bytes := by
  have hrow : (Encoder.concat encodeTable tables).Yields fun pool =>
      TablesWrittenAs pool tables := by
    refine Yields.concat TablesWrittenAs ?_ ?_ tables fun table _ => yields_encodeTable table
    · exact fun pool => ⟨rfl, fun depth _ => Reads.repeated_nil _⟩
    · rintro pool table bytes tables more ⟨hlength, hread⟩ ⟨hmore, hreads⟩
      refine ⟨?_, fun depth hdepth => ?_⟩
      · rw [parametersSize, List.length_append]
        omega
      · rw [parametersSize] at hdepth
        exact Reads.repeated_cons (hread depth (by omega)) (hreads depth (by omega))
  unfold encodeParameters
  by_cases hfew : tables.length < 256
  · simp only [hfew, ↓reduceIte]
    refine hrow.map _ fun pool body hbody => ?_
    have hcount : (UInt8.ofNat tables.length).toNat = tables.length := by
      rw [UInt8.toNat_ofNat']
      exact Nat.mod_eq_of_lt hfew
    have hlength : (Bytes.u8 (UInt8.ofNat tables.length) ++ body).length =
        parametersSize tables := by
      rw [← hbody.1, List.length_append, Bytes.u8, List.length_singleton, Nat.add_comm]
    have hread : ∀ depth, parametersSize tables ≤ depth → Decoder.Reads (do
        let count ← Reader.u8
        repeated (decodeTableWith pool (ElementValue.decodeWithin pool depth)) count.toNat)
        (Bytes.u8 (UInt8.ofNat tables.length) ++ body) tables := by
      intro depth hdepth
      apply (reads_u8 _).bind
      rw [hcount]
      exact hbody.2 depth hdepth
    refine ⟨hlength, fun position rest => ?_⟩
    refine hread (Bytes.u8 (UInt8.ofNat tables.length) ++ body ++ rest).length ?_ position rest
    rw [List.length_append, hlength]
    exact Nat.le_add_right _ _
  · simp only [hfew, ↓reduceIte]
    exact Yields.throw

/-! ## From bytes to sizes -/

/-- An annotation takes as many bytes as its size says if its values do. -/
theorem Annotation.consumes_decodeWith (pool : Pool) {value : Decoder ElementValue}
    (hvalue : value.Consumes fun value bytes => bytes.length = value.size) :
    (decodeWith pool value).Consumes fun result bytes => bytes.length = result.size := by
  refine Consumes.lookup fun type bytes hbytes => ?_
  refine Consumes.bind (consumes_u16.mono fun count more hmore => ?_)
  have helement : (decodeElement pool value).Consumes fun element used =>
      used.length = 2 + element.2.size := by
    refine Consumes.lookup fun name index hindex => ?_
    refine Consumes.bind (hvalue.mono fun value used hused => ?_)
    apply Consumes.pure
    rw [List.append_nil, List.length_append, hindex, hused]
  have helements : (repeated (decodeElement pool value) count.toNat).Consumes
      fun elements used => used.length = elementsSize elements := by
    refine helement.repeated rfl ?_ count.toNat
    intro element used elements rest hused hrest
    rw [elementsSize, List.length_append, hused, hrest]
  refine Consumes.bind (helements.mono fun elements used hused => ?_)
  apply Consumes.pure
  simp only [List.append_nil, List.length_append, hbytes, hmore, hused, size]
  omega

/-- Decoding an element value consumes as many bytes as its size. -/
theorem ElementValue.consumes_decodeWithin (pool : Pool) (depth : Nat) :
    (ElementValue.decodeWithin pool depth).Consumes
      fun value bytes => bytes.length = value.size := by
  induction depth with
  | zero =>
    intro cursor value after hrun
    cases hrun
  | succ depth ih =>
    refine Consumes.bind (consumes_u8.mono fun tag bytes hbytes => ?_)
    -- There is a case for each tag; those of constants are alike and come last.
    split
    case h_11 =>
      refine Consumes.lookup fun type used hused => ?_
      refine Consumes.lookup_map _ fun name more hmore => ?_
      simp only [List.length_append, hbytes, hused, hmore, ElementValue.size]
    case h_12 =>
      have hcontent := Annotation.consumes_decodeWith pool ih
      refine Consumes.bind (hcontent.mono fun annotation used hused => ?_)
      apply Consumes.pure
      simp only [List.append_nil, List.length_append, hbytes, hused, Annotation.size,
        Annotation.toValue, ElementValue.size]
      omega
    case h_13 =>
      refine Consumes.bind (consumes_u16.mono fun count used hused => ?_)
      have hvalues : (repeated (ElementValue.decodeWithin pool depth) count.toNat).Consumes
          fun values more => more.length = valuesSize values := by
        refine ih.repeated rfl ?_ count.toNat
        intro value more values rest hmore hrest
        rw [valuesSize, List.length_append, hmore, hrest]
      refine Consumes.bind (hvalues.mono fun values more hmore => ?_)
      apply Consumes.pure
      simp only [List.append_nil, List.length_append, hbytes, hused, hmore, ElementValue.size]
      omega
    case h_14 => exact Consumes.throw
    all_goals
      refine Consumes.lookup_map _ fun value used hused => ?_
      simp only [List.length_append, hbytes, hused, ElementValue.size]

namespace Annotation

theorem consumes_decodeTableWith (pool : Pool) (depth : Nat) :
    (decodeTableWith pool (ElementValue.decodeWithin pool depth)).Consumes
      fun table bytes => bytes.length = tableSize table := by
  refine Consumes.bind (consumes_u16.mono fun count bytes hbytes => ?_)
  refine Consumes.repeated (consumes_decodeWith pool
    (ElementValue.consumes_decodeWithin pool depth)) ?_ ?_ count.toNat
  · rw [List.append_nil, hbytes, tableSize]
  · intro value used table more hused hmore
    simp only [List.length_append, hused, tableSize] at hmore ⊢
    omega

/-- A table that was read took as many bytes as its size says. -/
theorem consumes_decodeTable (pool : Pool) :
    (decodeTable pool).Consumes fun table bytes => bytes.length = tableSize table :=
  Consumes.get_bind fun cursor => consumes_decodeTableWith pool cursor.remaining

theorem consumes_decodeParameters (pool : Pool) :
    (decodeParameters pool).Consumes fun tables bytes =>
      bytes.length = parametersSize tables := by
  refine Consumes.get_bind fun cursor => ?_
  refine Consumes.bind (consumes_u8.mono fun count bytes hbytes => ?_)
  refine Consumes.repeated (consumes_decodeTableWith pool cursor.remaining) ?_ ?_ count.toNat
  · rw [List.append_nil, hbytes, parametersSize]
  · intro table used tables more hused hmore
    simp only [List.length_append, hused, parametersSize] at hmore ⊢
    omega

end Annotation

/-- A value that was read took as many bytes as its size says. -/
theorem ElementValue.consumes_decode (pool : Pool) :
    (ElementValue.decode pool).Consumes fun value bytes => bytes.length = value.size :=
  Consumes.get_bind fun cursor => ElementValue.consumes_decodeWithin pool cursor.remaining

end ClassStub
