import ClassStub.ClassFile.Attribute
import ClassStub.Proofs.Codec.Annotation

/-!
# Attribute tables, written and read

An attribute reads back in every place that recognises its name, if its body is
short enough for the length in front of it (`Attribute.ReadIn`).  Tables read
back attribute by attribute (`Attribute.yields_encodeTable`).  In the other
direction, an attribute that was read fits into a frame again.
-/

namespace ClassStub

open Decoder Encoder

/-- A value of the kind that the descriptor of a field selects: the primitive
types have kinds of their own, and all other fields hold texts. -/
def ConstantValue.Suits (descriptor : String) : ConstantValue → Prop
  | byte _ => descriptor = "B"
  | char _ => descriptor = "C"
  | short _ => descriptor = "S"
  | boolean _ => descriptor = "Z"
  | int _ => descriptor = "I"
  | long _ => descriptor = "J"
  | float _ => descriptor = "F"
  | double _ => descriptor = "D"
  | string _ => descriptor ∉ ["B", "C", "S", "Z", "I", "J", "F", "D"]
  | classLiteral _ => False

namespace Attribute

/-- An attribute whose body has a 32-bit length.  Tables of names and of records
have it by their counts, and code by the limit on its own length. -/
def Fits : Attribute → Prop
  | annotations _ table => Annotation.tableSize table < UInt32.size
  | parameterAnnotations _ tables => Annotation.parametersSize tables < UInt32.size
  | annotationDefault value => value.size < UInt32.size
  | _ => True

/-- Wherever an encoded attribute stands in a place, the place reads it back. -/
def ReadIn (place : Pool → Recognition Attribute) (item : Attribute) : Prop :=
  item.encode.Yields fun pool bytes =>
    (decodeEntry pool (place pool)).Reads bytes (some item)

/-- An attribute of a recognised name reads back if its body does, in pools of
which something is given. -/
theorem yields_encodeEntry_of {α : Type} {place : Pool → Recognition α} {name : String}
    {content : Pool → Decoder α} {body : Encoder (List UInt8)} {value : α} (given : Pool → Prop)
    (hknown : ∀ pool, place pool name = some (content pool))
    (hbody : body.Yields fun pool bytes => given pool →
      bytes.length < UInt32.size ∧ (content pool).Reads bytes value) :
    (encodeEntry name body).Yields fun pool bytes => given pool →
      (decodeEntry pool (place pool)).Reads bytes (some value) := by
  refine (PoolBuilder.yields_utf8 name).bind fun nameIndex => ?_
  refine hbody.map _ fun pool bytes hbytes hname hgiven => ?_
  rcases hbytes hgiven with ⟨hlength, hread⟩
  have hcount : (UInt32.ofNat bytes.length).toNat = bytes.length := by
    rw [UInt32.toNat_ofNat']
    exact Nat.mod_eq_of_lt hlength
  have hframe : Decoder.Reads (Decoder.within bytes (content pool)) [] (value, 0) := by
    intro position rest
    have hrun := hread 0 []
    rw [List.append_nil] at hrun
    simp only [Decoder.within, EStateM.run, Cursor.ofBytes, hrun, Cursor.remaining]
    rfl
  rw [List.append_assoc]
  apply Reads.lookup hname.1
  apply (reads_u32 _).bind
  rw [hcount]
  apply (reads_take bytes).bind_nil
  simp only [hknown]
  exact hframe.bind_nil (Reads.pure (some value))

/-- An attribute of a known name is read back if its content is. -/
theorem yields_encodeEntry {α : Type} {place : Pool → Recognition α} {name : String}
    {content : Pool → Decoder α} {body : Encoder (List UInt8)} {value : α}
    (hknown : ∀ pool, place pool name = some (content pool))
    (hbody : body.Yields fun pool bytes =>
      bytes.length < UInt32.size ∧ (content pool).Reads bytes value) :
    (encodeEntry name body).Yields fun pool bytes =>
      (decodeEntry pool (place pool)).Reads bytes (some value) := by
  have hentry := yields_encodeEntry_of (fun _ => True) hknown
    (hbody.mono fun _ _ hbytes _ => hbytes)
  exact hentry.mono fun _ _ hread => hread trivial

variable {place : Pool → Recognition Attribute}

/-- Signatures are read back where they are known. -/
theorem readIn_signature
    (hknown : ∀ pool, place pool "Signature" = some do
      return signature (← pool.utf8 (← Reader.u16))) (text : String) :
    (signature text).ReadIn place := by
  refine yields_encodeEntry hknown ((PoolBuilder.yields_utf8 text).map Bytes.u16 ?_)
  intro pool index hindex
  exact ⟨by rw [Bytes.length_u16]; decide, Reads.lookup_map hindex.1 signature⟩

/-- Marks of deprecation are read back where they are known. -/
theorem readIn_deprecated (hknown : ∀ pool, place pool "Deprecated" = some (return deprecated)) :
    deprecated.ReadIn place :=
  yields_encodeEntry hknown (Yields.pure fun _ => ⟨by decide, Reads.pure deprecated⟩)

/-- Annotations are read back where they are known, if their size is a word. -/
theorem readIn_annotations {visible : Bool} {table : List Annotation}
    (hknown : ∀ pool, place pool (annotations visible table).name = some do
      return annotations visible (← Annotation.decodeTable pool))
    (hfits : Annotation.tableSize table < UInt32.size) :
    (annotations visible table).ReadIn place := by
  have htable := Annotation.yields_encodeTable table
  have hbody := htable.mono fun pool bytes hbytes =>
    And.intro (hbytes.1 ▸ hfits) (hbytes.reads_decodeTable.map (annotations visible))
  cases visible with
  | true => exact yields_encodeEntry hknown hbody
  | false => exact yields_encodeEntry hknown hbody

/-- Annotations of parameters are read back where they are known, if their size is a
word. -/
theorem readIn_parameterAnnotations {visible : Bool} {tables : List (List Annotation)}
    (hknown : ∀ pool, place pool (parameterAnnotations visible tables).name = some do
      return parameterAnnotations visible (← Annotation.decodeParameters pool))
    (hfits : Annotation.parametersSize tables < UInt32.size) :
    (parameterAnnotations visible tables).ReadIn place := by
  have htables := Annotation.yields_encodeParameters tables
  have hbody := htables.mono fun pool bytes hbytes =>
    And.intro (hbytes.1 ▸ hfits) (hbytes.2.map (parameterAnnotations visible))
  cases visible with
  | true => exact yields_encodeEntry hknown hbody
  | false => exact yields_encodeEntry hknown hbody

theorem readIn_annotationDefault {value : ElementValue}
    (hknown : ∀ pool, place pool "AnnotationDefault" = some do
      return annotationDefault (← ElementValue.decode pool))
    (hfits : value.size < UInt32.size) : (annotationDefault value).ReadIn place :=
  yields_encodeEntry hknown (value.yields_encode.mono fun _ _ hbytes =>
    ⟨hbytes.1 ▸ hfits, hbytes.reads_decode.map annotationDefault⟩)

/-- Code is read back where it is known, if it is not too long. -/
theorem readIn_code {body : CodeBytes}
    (hknown : ∀ pool, place pool "Code" = some do return code (← decodeCode pool))
    (hfits : body.code.length ≤ maxWord) : (code body).ReadIn place := by
  simp only [maxWord] at hfits
  refine yields_encodeEntry hknown (Yields.pure fun pool => ⟨?_, ?_⟩)
  · simp only [codeBody, List.length_append, Bytes.length_u16, Bytes.length_u32, UInt32.size]
    omega
  · have hlength : (UInt32.ofNat body.code.length).toNat = body.code.length := by
      rw [UInt32.toNat_ofNat']
      omega
    have htable : (decodeTable (α := Unit) pool fun _ => none).Reads (Bytes.u16 0) [] :=
      (reads_u16 0).map fun _ => []
    simp only [codeBody, List.append_assoc]
    refine Reads.map ?_ code
    refine (reads_u16 _).bind ((reads_u16 _).bind ((reads_u32 _).bind ?_))
    rw [hlength]
    refine (reads_take _).bind ((reads_u16 0).bind ?_)
    exact (reads_skip []).bind (htable.map fun _ => body)

/-! ### Constant values -/

/-- An index that leads to a value leads to the constant value made of it. -/
theorem yields_map_find {α : Type} {encoder : Encoder UInt16}
    {find : Pool → UInt16 → Except FormatError α} {value : α} (make : α → ConstantValue)
    (hfind : encoder.Yields fun pool index => find pool index = .ok value ∧ index ≠ 0) :
    encoder.Yields fun pool index => (find pool index).map make = .ok (make value) :=
  hfind.mono fun _ _ hindex => congrArg (Except.map make) hindex.1

/-- A constant value that suits a field reads back from the entry that it is
interned as. -/
theorem yields_internConstant {value : ConstantValue} {descriptor : String}
    (hsuits : value.Suits descriptor) :
    (internConstant value).Yields fun pool index =>
      lookUpConstant pool descriptor index = .ok value := by
  cases value with
  | byte number =>
    obtain rfl : descriptor = "B" := hsuits
    exact yields_map_find .byte (PoolBuilder.yields_integer number)
  | char number =>
    obtain rfl : descriptor = "C" := hsuits
    exact yields_map_find .char (PoolBuilder.yields_integer number)
  | short number =>
    obtain rfl : descriptor = "S" := hsuits
    exact yields_map_find .short (PoolBuilder.yields_integer number)
  | boolean number =>
    obtain rfl : descriptor = "Z" := hsuits
    exact yields_map_find .boolean (PoolBuilder.yields_integer number)
  | int number =>
    obtain rfl : descriptor = "I" := hsuits
    exact yields_map_find .int (PoolBuilder.yields_integer number)
  | long number =>
    obtain rfl : descriptor = "J" := hsuits
    exact yields_map_find .long (PoolBuilder.yields_long number)
  | float bits =>
    obtain rfl : descriptor = "F" := hsuits
    exact yields_map_find .float (PoolBuilder.yields_float bits)
  | double bits =>
    obtain rfl : descriptor = "D" := hsuits
    exact yields_map_find .double (PoolBuilder.yields_double bits)
  | string text =>
    refine (PoolBuilder.yields_javaText text).bind fun content => ?_
    apply (@PoolBuilder.yields_intern (.string content) trivial).mono
    intro pool index hentry htext
    unfold lookUpConstant
    simp only [ConstantValue.Suits, List.mem_cons, List.not_mem_nil, or_false, not_or] at hsuits
    obtain ⟨hbyte, hchar, hshort, hboolean, hint, hlong, hfloat, hdouble⟩ := hsuits
    simp only [hentry.1, Bind.bind, Except.bind, htext.1]
    rfl
  | classLiteral name => exact hsuits.elim

/-- The value of a field is read back if it suits the descriptor of the field. -/
theorem readIn_constantValue {value : ConstantValue} {descriptor : String}
    (hsuits : value.Suits descriptor)
    (hknown : ∀ pool, place pool constantValueName = some do
      return constantValue (← lookUpConstant pool descriptor (← Reader.u16))) :
    (constantValue value).ReadIn place := by
  refine (yields_internConstant hsuits).bind fun index => ?_
  refine yields_encodeEntry_of _ hknown (Yields.pure fun pool hindex => ⟨?_, ?_⟩)
  · rw [Bytes.length_u16]
    decide
  · exact Reads.lookup_map hindex constantValue

/-! ### Tables of names and records -/

/-- A class name is written as an index that leads to it. -/
theorem yields_encodeClassName (name : String) :
    (encodeClassName name).Yields fun pool bytes => ∃ index, bytes = Bytes.u16 index ∧
      pool.className index = .ok name :=
  (PoolBuilder.yields_classRef name).map Bytes.u16 fun _ index hindex => ⟨index, rfl, hindex.1⟩

/-- An optional index: 0 stands for none. -/
theorem yields_encodeOptional {α : Type} {intern : α → Encoder UInt16}
    {find : Pool → UInt16 → Except FormatError α}
    (hintern : ∀ value, (intern value).Yields fun pool index =>
      find pool index = .ok value ∧ index ≠ 0) (value : Option α) :
    (encodeOptional intern value).Yields fun pool bytes => ∃ index, bytes = Bytes.u16 index ∧
      Pool.optional (find pool) index = .ok value := by
  cases value with
  | none => exact Yields.pure fun pool => ⟨0, rfl, rfl⟩
  | some value =>
    apply (hintern value).map Bytes.u16
    rintro pool index ⟨hfind, hindex⟩
    refine ⟨index, rfl, ?_⟩
    rw [Pool.optional, if_neg hindex, hfind]
    rfl

/-- The record of an inner class is written in eight bytes and read back from them.
-/
theorem yields_encodeInnerClass (record : InnerClass) :
    (encodeInnerClass record).Yields fun pool bytes => bytes.length = 8 ∧
      (decodeInnerClass pool).Reads bytes record := by
  refine (yields_encodeClassName record.name).bind fun name => ?_
  refine (yields_encodeOptional PoolBuilder.yields_classRef record.outerName).bind
    fun outerName => ?_
  apply (yields_encodeOptional PoolBuilder.yields_utf8 record.innerName).map _
  rintro pool _ ⟨innerIndex, rfl, hinner⟩ ⟨outerIndex, rfl, houter⟩ ⟨nameIndex, rfl, hname⟩
  refine ⟨rfl, ?_⟩
  simp only [List.append_assoc]
  refine Reads.lookup hname (Reads.lookup houter (Reads.lookup hinner ?_))
  exact (reads_u16 record.flags).map fun flags =>
    InnerClass.mk record.name record.outerName record.innerName flags

/-- A table of items of one width is read back, and its length is known. -/
theorem yields_table {α : Type} {encode : α → Encoder (List UInt8)}
    {item : Pool → Decoder α} {width : Nat}
    (hitem : ∀ value, (encode value).Yields fun pool bytes => bytes.length = width ∧
      (item pool).Reads bytes value) (values : List α) :
    (Encoder.table encode values).Yields fun pool bytes => values.length ≤ maxWord ∧
      bytes.length = width * values.length + 2 ∧
        Decoder.Reads (do
          let count ← Reader.u16
          repeated (item pool) count.toNat) bytes values := by
  have hrow : (Encoder.concat encode values).Yields fun pool bytes =>
      bytes.length = width * values.length ∧
        (repeated (item pool) values.length).Reads bytes values := by
    refine Yields.concat (fun pool values bytes => bytes.length = width * values.length ∧
      (repeated (item pool) values.length).Reads bytes values) ?_ ?_ values fun value _ =>
        hitem value
    · exact fun pool => ⟨by simp, Reads.repeated_nil _⟩
    · rintro pool value bytes values more ⟨hwidth, hread⟩ ⟨hlength, hreads⟩
      refine ⟨?_, Reads.repeated_cons hread hreads⟩
      rw [List.length_append, hwidth, hlength, List.length_cons, Nat.mul_succ, Nat.add_comm]
  apply hrow.table.mono
  rintro pool _ ⟨hcount, body, rfl, hlength, hread⟩
  refine ⟨hcount, ?_, hread.counted hcount⟩
  rw [List.length_append, hlength, Bytes.length_u16, Nat.add_comm]

/-- Names of exceptions are read back where they are known. -/
theorem readIn_exceptions
    (hknown : ∀ pool, place pool "Exceptions" = some do
      return exceptions (← decodeClassNames pool)) (names : List String) :
    (exceptions names).ReadIn place := by
  have hname : ∀ name, (encodeClassName name).Yields fun pool bytes => bytes.length = 2 ∧
      Decoder.Reads (do pool.className (← Reader.u16)) bytes name := by
    intro name
    apply (yields_encodeClassName name).mono
    rintro pool _ ⟨index, rfl, hindex⟩
    exact ⟨Bytes.length_u16 index, Reads.lookup_only hindex⟩
  refine yields_encodeEntry hknown ((yields_table hname names).mono ?_)
  rintro pool bytes ⟨hcount, hlength, hread⟩
  refine ⟨?_, hread.map exceptions⟩
  simp only [maxWord, UInt32.size] at hcount ⊢
  omega

/-- Records of inner classes are read back where they are known. -/
theorem readIn_innerClasses
    (hknown : ∀ pool, place pool "InnerClasses" = some do
      let count ← Reader.u16
      return innerClasses (← repeated (decodeInnerClass pool) count.toNat))
    (records : List InnerClass) : (innerClasses records).ReadIn place := by
  refine yields_encodeEntry hknown ((yields_table yields_encodeInnerClass records).mono ?_)
  rintro pool bytes ⟨hcount, hlength, hread⟩
  refine ⟨?_, ?_⟩
  · simp only [maxWord, UInt32.size] at hcount ⊢
    omega
  · have hmapped := hread.map innerClasses
    simpa only [bind_assoc] using hmapped

/-! ### Tables of attributes -/

/-- A table of attributes is read back if each of them is. -/
theorem yields_encodeTable {items : List Attribute} (hitems : ∀ item ∈ items, item.ReadIn place) :
    (encodeTable items).Yields fun pool bytes =>
      (decodeTable pool (place pool)).Reads bytes items := by
  have hrow : (Encoder.concat encode items).Yields fun pool bytes =>
      (repeated (decodeEntry pool (place pool)) items.length).Reads bytes (items.map some) := by
    refine Yields.concat (fun pool items bytes =>
      (repeated (decodeEntry pool (place pool)) items.length).Reads bytes (items.map some))
      ?_ ?_ items hitems
    · exact fun pool => Reads.repeated_nil _
    · exact fun pool item bytes items more hread hreads => Reads.repeated_cons hread hreads
  refine hrow.bind fun body => ?_
  apply (Encoder.yields_tableLength items.length).map _
  rintro pool _ ⟨hcount, rfl⟩ hread
  apply (reads_u16 _).bind
  rw [toNat_ofNat_count hcount]
  have hentries := hread.map (List.filterMap id)
  rwa [List.filterMap_map, Function.id_comp, List.filterMap_some] at hentries

/-! ### The places of attributes -/

/-- The attributes of any declaration read back in a place that recognises
them. -/
theorem readIn_common
    (hplace : ∀ pool name, (ofDeclaration pool name).isSome →
      place pool name = ofDeclaration pool name)
    {signatureText : Option String} {isDeprecated : Bool} {visible invisible : List Annotation}
    (hvisible : Annotation.tableSize visible < UInt32.size)
    (hinvisible : Annotation.tableSize invisible < UInt32.size)
    {item : Attribute} (hitem : item ∈ common signatureText isDeprecated visible invisible) :
    item.ReadIn place := by
  simp only [common, List.mem_append] at hitem
  rcases hitem with ((hsignature | hdeprecated) | htable) | htable
  · cases signatureText with
    | none => simp at hsignature
    | some text =>
      obtain rfl : item = signature text := by simpa using hsignature
      exact readIn_signature (fun pool => hplace pool _ rfl) text
  · cases isDeprecated with
    | false => simp at hdeprecated
    | true =>
      obtain rfl : item = deprecated := by simpa using hdeprecated
      exact readIn_deprecated fun pool => hplace pool _ rfl
  · unfold ofAnnotations at htable
    cases hempty : visible.isEmpty with
    | true => simp [hempty] at htable
    | false =>
      obtain rfl : item = annotations true visible := by simpa [hempty] using htable
      exact readIn_annotations (fun pool => hplace pool _ rfl) hvisible
  · unfold ofAnnotations at htable
    cases hempty : invisible.isEmpty with
    | true => simp [hempty] at htable
    | false =>
      obtain rfl : item = annotations false invisible := by simpa [hempty] using htable
      exact readIn_annotations (fun pool => hplace pool _ rfl) hinvisible

/-- What any declaration may hold, a method may hold. -/
theorem ofMethod_eq_ofDeclaration (pool : Pool) (name : String)
    (hknown : (ofDeclaration pool name).isSome) :
    ofMethod pool name = ofDeclaration pool name := by
  unfold ofMethod
  split
  · cases hknown
  · cases hknown
  · cases hknown
  · cases hknown
  · cases hknown
  · rfl

theorem ofField_eq_ofDeclaration (pool : Pool) (descriptor name : String)
    (hknown : (ofDeclaration pool name).isSome) :
    ofField pool descriptor name = ofDeclaration pool name := by
  unfold ofField
  split
  · cases hknown
  · rfl

theorem ofClass_eq_ofDeclaration (pool : Pool) (name : String)
    (hknown : (ofDeclaration pool name).isSome) :
    ofClass pool name = ofDeclaration pool name := by
  unfold ofClass
  split
  · cases hknown
  · rfl

end Attribute

end ClassStub
