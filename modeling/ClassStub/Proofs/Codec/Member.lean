import ClassStub.ClassFile.Draft
import ClassStub.Proofs.Codec.AttributeTable
import ClassStub.Proofs.Codec.Code

/-!
# Members, written and read

A declaration is determined by its base and its attributes: adding the
attributes of a field or a method to its base gives it back
(`Method.foldl_attributes`).  So a member whose attributes read back reads back
as a whole (`Field.yields_entry`, `Method.reads_entry`), a method with the code
that is written for its body.
-/

namespace ClassStub

open Decoder Encoder

/-! ## Declarations from their attributes -/

/-- The attributes that any declaration can have fill four places of a field. -/
theorem Field.foldl_common (flags : AccessFlags) (name descriptor : String)
    (constant : Option ConstantValue) (signature : Option String) (deprecated : Bool)
    (visible invisible : List Annotation) :
    (Attribute.common signature deprecated visible invisible).foldl withAttribute
        { flags, name, descriptor, constantValue := constant } =
      { flags, name, descriptor, signature, constantValue := constant, deprecated,
        visibleAnnotations := visible, invisibleAnnotations := invisible } := by
  cases signature <;> cases deprecated <;> cases visible <;> cases invisible <;> rfl

/-- A field is what its attributes make of its flags, its name and its descriptor.
-/
theorem Field.foldl_attributes (field : Field) :
    field.attributes.foldl withAttribute
      { flags := field.flags, name := field.name, descriptor := field.descriptor } = field := by
  obtain ⟨flags, name, descriptor, signature, constant, deprecated, visible, invisible⟩ := field
  simp only [attributes, List.foldl_append]
  have hconstant : (constant.map Attribute.constantValue).toList.foldl withAttribute
      { flags, name, descriptor } =
        { flags, name, descriptor, constantValue := constant } := by
    cases constant <;> rfl
  rw [hconstant, foldl_common]

/-- The attributes of any declaration give a method the fields that any declaration
has. -/
theorem Method.foldl_common (flags : AccessFlags) (name descriptor : String)
    (exceptions : List String) (code : Option CodeBytes) (signature : Option String)
    (deprecated : Bool) (visible invisible : List Annotation) :
    (Attribute.common signature deprecated visible invisible).foldl withAttribute
        { flags, name, descriptor, exceptions, code } =
      { flags, name, descriptor, signature, exceptions, deprecated,
        visibleAnnotations := visible, invisibleAnnotations := invisible, code } := by
  cases signature <;> cases deprecated <;> cases visible <;> cases invisible <;> rfl

/-- A method is what its attributes make of its flags, its name and its descriptor.
-/
theorem Method.foldl_attributes (method : Method) :
    method.attributes.foldl withAttribute
      { flags := method.flags, name := method.name, descriptor := method.descriptor } =
        method := by
  obtain ⟨flags, name, descriptor, signature, exceptions, deprecated, visible, invisible,
    visibleParameters, invisibleParameters, default, code⟩ := method
  simp only [attributes, List.foldl_append]
  have hcode : (code.map Attribute.code).toList.foldl withAttribute
      { flags, name, descriptor } = { flags, name, descriptor, code } := by
    cases code <;> rfl
  have hexceptions : (if exceptions.isEmpty then [] else [Attribute.exceptions exceptions]).foldl
      withAttribute { flags, name, descriptor, code } =
        { flags, name, descriptor, exceptions, code } := by
    cases exceptions <;> rfl
  rw [hcode, hexceptions, foldl_common]
  cases visibleParameters <;> cases invisibleParameters <;> cases default <;> rfl

/-- The attributes of any declaration give a class the fields that any declaration
has. -/
theorem ClassFile.foldl_common (header : ClassHeader) (fields : List Field)
    (methods : List Method) (pool : Pool) (signature : Option String) (deprecated : Bool)
    (visible invisible : List Annotation) :
    (Attribute.common signature deprecated visible invisible).foldl withAttribute
        { header, fields, methods, pool } =
      { header, signature, deprecated, fields, methods, visibleAnnotations := visible,
        invisibleAnnotations := invisible, pool } := by
  cases signature <;> cases deprecated <;> cases visible <;> cases invisible <;> rfl

/-! ## Members -/

/-- A field whose annotations fit into frames. -/
structure Field.Fits (field : Field) : Prop where
  visible : Annotation.tableSize field.visibleAnnotations < UInt32.size
  invisible : Annotation.tableSize field.invisibleAnnotations < UInt32.size

/-- A method whose annotations fit into frames.  Nothing else can be too long:
tables of names have 16-bit counts and code has a limit of its own. -/
structure Method.Fits (method : Method) : Prop where
  visible : Annotation.tableSize method.visibleAnnotations < UInt32.size
  invisible : Annotation.tableSize method.invisibleAnnotations < UInt32.size
  visibleParameters : ∀ tables, method.visibleParameterAnnotations = some tables →
    Annotation.parametersSize tables < UInt32.size
  invisibleParameters : ∀ tables, method.invisibleParameterAnnotations = some tables →
    Annotation.parametersSize tables < UInt32.size
  default : ∀ value, method.annotationDefault = some value → value.size < UInt32.size

theorem Method.Fits.withCode {method : Method} (hfits : method.Fits) (code : Option CodeBytes) :
    { method with code }.Fits :=
  ⟨hfits.visible, hfits.invisible, hfits.visibleParameters, hfits.invisibleParameters,
    hfits.default⟩

namespace Attribute

/-- Every attribute of a field whose constant value suits it reads back. -/
theorem readIn_ofField {field : Field}
    (hconstant : ∀ value, field.constantValue = some value → value.Suits field.descriptor)
    (hfits : field.Fits) {item : Attribute} (hitem : item ∈ field.attributes) :
    item.ReadIn fun pool => ofField pool field.descriptor := by
  rw [Field.attributes, List.mem_append] at hitem
  rcases hitem with hvalue | hcommon
  · cases hcase : field.constantValue with
    | none => simp [hcase] at hvalue
    | some value =>
      obtain rfl : item = constantValue value := by simpa [hcase] using hvalue
      exact readIn_constantValue (hconstant value hcase) fun _ => rfl
  · exact readIn_common (fun pool => ofField_eq_ofDeclaration pool field.descriptor)
      hfits.visible hfits.invisible hcommon

/-- Every attribute of a method with short code reads back. -/
theorem readIn_ofMethod {method : Method}
    (hcode : ∀ body, method.code = some body → body.code.length ≤ maxWord)
    (hfits : method.Fits) {item : Attribute} (hitem : item ∈ method.attributes) :
    item.ReadIn ofMethod := by
  simp only [Method.attributes, List.mem_append] at hitem
  rcases hitem with ((((hbody | hthrown) | hcommon) | hvisible) | hinvisible) | hdefault
  · cases hcase : method.code with
    | none => simp [hcase] at hbody
    | some body =>
      obtain rfl : item = code body := by simpa [hcase] using hbody
      exact readIn_code (fun _ => rfl) (hcode body hcase)
  · cases hempty : method.exceptions.isEmpty with
    | true => simp [hempty] at hthrown
    | false =>
      obtain rfl : item = exceptions method.exceptions := by simpa [hempty] using hthrown
      exact readIn_exceptions (fun _ => rfl) method.exceptions
  · exact readIn_common ofMethod_eq_ofDeclaration hfits.visible hfits.invisible hcommon
  · cases hcase : method.visibleParameterAnnotations with
    | none => simp [hcase] at hvisible
    | some tables =>
      obtain rfl : item = parameterAnnotations true tables := by simpa [hcase] using hvisible
      exact readIn_parameterAnnotations (fun _ => rfl) (hfits.visibleParameters tables hcase)
  · cases hcase : method.invisibleParameterAnnotations with
    | none => simp [hcase] at hinvisible
    | some tables =>
      obtain rfl : item = parameterAnnotations false tables := by
        simpa [hcase] using hinvisible
      exact readIn_parameterAnnotations (fun _ => rfl) (hfits.invisibleParameters tables hcase)
  · cases hcase : method.annotationDefault with
    | none => simp [hcase] at hdefault
    | some value =>
      obtain rfl : item = annotationDefault value := by simpa [hcase] using hdefault
      exact readIn_annotationDefault (fun _ => rfl) (hfits.default value hcase)

end Attribute

/-- The written form of a member: its flags, its name, its descriptor and its
attributes. -/
def memberEntry (flags : AccessFlags) (name descriptor : String)
    (attributes : Encoder (List UInt8)) : Encoder (List UInt8) := do
  let name ← PoolBuilder.utf8 name
  let descriptor ← PoolBuilder.utf8 descriptor
  let attributes ← attributes
  return Bytes.u16 flags ++ (Bytes.u16 name ++ (Bytes.u16 descriptor ++ attributes))

/-- A member is written as its flags, the indices of its name and its descriptor,
and its attributes. -/
theorem yields_memberEntry (flags : AccessFlags) (name descriptor : String)
    {attributes : Encoder (List UInt8)} {relation : Pool → List UInt8 → Prop}
    (hattributes : attributes.Yields relation) :
    (memberEntry flags name descriptor attributes).Yields fun pool bytes =>
      ∃ nameIndex descriptorIndex table, pool.utf8 nameIndex = .ok name ∧
        pool.utf8 descriptorIndex = .ok descriptor ∧ relation pool table ∧
          bytes = Bytes.u16 flags ++
            (Bytes.u16 nameIndex ++ (Bytes.u16 descriptorIndex ++ table)) := by
  refine (PoolBuilder.yields_utf8 name).bind fun nameIndex => ?_
  refine (PoolBuilder.yields_utf8 descriptor).bind fun descriptorIndex => ?_
  refine hattributes.map _ fun pool table htable hdescriptor hname => ?_
  exact ⟨nameIndex, descriptorIndex, table, hname.1, hdescriptor.1, htable, rfl⟩

/-- A field whose constant value suits it reads back. -/
theorem Field.yields_entry {field : Field}
    (hconstant : ∀ value, field.constantValue = some value → value.Suits field.descriptor)
    (hfits : field.Fits) :
    (memberEntry field.flags field.name field.descriptor
      (Attribute.encodeTable field.attributes)).Yields fun pool bytes =>
        (Field.decode pool).Reads bytes field := by
  have htable := Attribute.yields_encodeTable fun item hitem =>
    Attribute.readIn_ofField hconstant hfits hitem
  apply (yields_memberEntry field.flags field.name field.descriptor htable).mono
  intro pool bytes hentry
  rcases hentry with ⟨nameIndex, descriptorIndex, table, hname, hdescriptor, hread, rfl⟩
  apply (reads_u16 field.flags).bind
  refine Reads.lookup hname (Reads.lookup hdescriptor ?_)
  have hfield := hread.map fun attributes => attributes.foldl withAttribute
    { flags := field.flags, name := field.name, descriptor := field.descriptor }
  rwa [field.foldl_attributes] at hfield

/-- Code that stands for a body: it has its limits and disassembles to its
instructions. -/
structure MethodBody.WrittenAs (pool : Pool) (body : MethodBody) (code : CodeBytes) : Prop where
  maxStack_eq : code.maxStack = body.maxStack
  maxLocals_eq : code.maxLocals = body.maxLocals
  length_le : code.code.length ≤ maxWord
  disassemble_eq : disassemble pool code.code = .ok body.instructions

/-- A body is written as code that is taken apart into it. -/
theorem MethodBody.yields_encodeBody (body : MethodBody) :
    (ClassDraft.encodeBody body).Yields fun pool => body.WrittenAs pool := by
  refine body.yields_encode.bind fun code => ?_
  by_cases hlength : code.length ≤ maxWord
  · rw [if_pos hlength]
    exact Yields.pure fun pool hcode => ⟨rfl, rfl, hlength, hcode⟩
  · rw [if_neg hlength]
    exact Yields.throw

/-- A body is written as code if there is one. -/
theorem MethodBody.yields_mapM_encodeBody (body : Option MethodBody) :
    (body.mapM ClassDraft.encodeBody).Yields fun pool code =>
      Option.Rel (MethodBody.WrittenAs pool) body code := by
  cases body with
  | none => exact Yields.pure fun pool => Option.Rel.none
  | some body =>
    exact body.yields_encodeBody.map some fun pool code hcode => Option.Rel.some hcode

/-- The bytes of a body that is encoded behind the name and the descriptor of its
method. -/
def MethodBody.bytesBehind (builder : PoolBuilder) (name descriptor : String)
    (body : MethodBody) : List UInt8 :=
  let encoder : Encoder (List UInt8) := do
    let _ ← PoolBuilder.utf8 name
    let _ ← PoolBuilder.utf8 descriptor
    body.encode
  match encoder builder with
  | .ok code _ => code
  | .error _ _ => []

/-- The code that a builder writes for the body of a method: its limits, and its
bytes behind the name and the descriptor of the method. -/
def Method.writtenCode (method : Method) (builder : PoolBuilder) (body : Option MethodBody) :
    Option CodeBytes :=
  body.map fun body => {
    maxStack := body.maxStack
    maxLocals := body.maxLocals
    code := body.bytesBehind builder method.name method.descriptor }

/-- A method with the code that a builder writes for its body. -/
def Method.writtenWith (method : Method) (builder : PoolBuilder) (body : Option MethodBody) :
    Method :=
  { method with code := method.writtenCode builder body }

theorem Method.writtenCode_eq {method : Method} {body : Option MethodBody}
    {builder named described coded : PoolBuilder} {nameIndex descriptorIndex : UInt16}
    {code : Option CodeBytes} (hname : PoolBuilder.utf8 method.name builder = .ok nameIndex named)
    (hdescriptor : PoolBuilder.utf8 method.descriptor named = .ok descriptorIndex described)
    (hcode : body.mapM ClassDraft.encodeBody described = .ok code coded) :
    method.writtenCode builder body = code := by
  cases body with
  | none =>
    cases hcode
    rfl
  | some body =>
    obtain ⟨written, between, hwritten, hdone⟩ := exists_between hcode
    obtain ⟨bytes, encoded, hbytes, hlimit⟩ := exists_between hwritten
    cases hdone
    have hbehind : body.bytesBehind builder method.name method.descriptor = bytes := by
      simp only [MethodBody.bytesBehind, Bind.bind, EStateM.bind, hname, hdescriptor, hbytes]
    by_cases hlength : bytes.length ≤ maxWord
    · rw [if_pos hlength] at hlimit
      cases hlimit
      rw [writtenCode, Option.map_some, hbehind]
    · rw [if_neg hlength] at hlimit
      cases hlimit

/-- A method reads back with the code that is written for its body. -/
theorem Method.reads_entry {method : Method} (hfits : method.Fits) {body : Option MethodBody}
    {builder grown : PoolBuilder} (hvalid : builder.Valid) {bytes : List UInt8}
    (hrun : memberEntry method.flags method.name method.descriptor
      (ClassDraft.encodeMethodAttributes method body) builder = .ok bytes grown) :
    grown.Valid ∧ builder.slots <+: grown.slots ∧ ∀ pool : Pool, pool.Holds grown →
      Option.Rel (MethodBody.WrittenAs pool) body (method.writtenCode builder body) ∧
        (Method.decode pool).Reads bytes (method.writtenWith builder body) := by
  obtain ⟨nameIndex, named, hname, hrun⟩ := exists_between hrun
  obtain ⟨descriptorIndex, described, hdescriptor, hrun⟩ := exists_between hrun
  obtain ⟨table, written, hattributes, hrun⟩ := exists_between hrun
  cases hrun
  obtain ⟨code, coded, hcode, htable⟩ := exists_between hattributes
  have hcodeEq := Method.writtenCode_eq hname hdescriptor hcode
  rw [writtenWith, hcodeEq]
  -- Each step keeps the builder consistent, and what it interned stays.
  obtain ⟨hnamed, hgrown, hname⟩ :=
    PoolBuilder.yields_utf8 method.name builder nameIndex named hvalid hname
  obtain ⟨hdescribed, hmore, hdescriptor⟩ :=
    PoolBuilder.yields_utf8 method.descriptor named descriptorIndex described hnamed hdescriptor
  obtain ⟨hcoded, hmost, hcode⟩ :=
    MethodBody.yields_mapM_encodeBody body described code coded hdescribed hcode
  have hshort : ∀ bytes, code = some bytes → bytes.code.length ≤ maxWord := by
    intro bytes hbytes
    subst hbytes
    cases hcode coded.pool coded.holds_pool with
    | some hwritten => exact hwritten.length_le
  obtain ⟨hwritten, hall, htable⟩ := Attribute.yields_encodeTable
    (fun item hitem => Attribute.readIn_ofMethod hshort (hfits.withCode code) hitem)
    coded table grown hcoded htable
  refine ⟨hwritten, ((hgrown.trans hmore).trans hmost).trans hall, fun pool hpool => ?_⟩
  have hpoolCoded : pool.Holds coded := hall.trans hpool
  have hpoolDescribed : pool.Holds described := hmost.trans hpoolCoded
  refine ⟨hcode pool hpoolCoded, (reads_u16 method.flags).bind ?_⟩
  refine Reads.lookup (hname pool (hmore.trans hpoolDescribed)).1
    (Reads.lookup (hdescriptor pool hpoolDescribed).1 ?_)
  have hmethod := (htable pool hpool).map fun attributes => attributes.foldl withAttribute
    { flags := method.flags, name := method.name, descriptor := method.descriptor }
  have hwhole := { method with code }.foldl_attributes
  rwa [hwhole] at hmethod

end ClassStub
