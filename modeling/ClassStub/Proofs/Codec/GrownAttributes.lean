import ClassStub.Proofs.Codec.GrownAnnotations
import ClassStub.Proofs.Codec.GrownPools
import ClassStub.Proofs.Codec.Member

/-!
# Members in grown pools

What a member consists of is encoded by steps that keep what is promised of a
builder, whether they succeed or fail: tables of annotations, attributes, code, and
the whole written form of the member (`stable_memberEntry`).  So a member that cannot
be written leaves a consistent builder behind, and so does the header of a class
(`ClassDraft.exact_start`).
-/

namespace ClassStub

open Encoder

/-! ## Tables -/

/-- Writing a table again gives the same bytes if that of each item does. -/
theorem Encoder.Stable.table {α : Type} {encode : α → Encoder (List UInt8)} {items : List α}
    (hitems : ∀ item ∈ items, (encode item).Stable) : (Encoder.table encode items).Stable :=
  (stable_tableLength _).bind fun _ => (Stable.concat items hitems).map _

/-- Encoding several items again gives the same results if that of each does. -/
theorem Encoder.Stable.mapM {α β : Type} {encode : α → Encoder β} {items : List α}
    (hitems : ∀ item ∈ items, (encode item).Stable) : (items.mapM encode).Stable := by
  induction items with
  | nil => exact Stable.pure []
  | cons item more ih =>
    obtain ⟨hitem, hmore⟩ := List.forall_mem_cons.1 hitems
    rw [List.mapM_cons]
    exact hitem.bind fun value => (ih hmore).map (value :: ·)

namespace Annotation

theorem stable_encodeTable (table : List Annotation) : (encodeTable table).Stable :=
  Stable.table fun value _ => value.stable_encode

/-- Writing the annotations of parameters again gives the same bytes. -/
theorem stable_encodeParameters (parameters : List (List Annotation)) :
    (encodeParameters parameters).Stable := by
  unfold encodeParameters
  split
  · exact (Stable.concat parameters fun table _ => stable_encodeTable table).map _
  · exact .throw _

end Annotation

/-! ## Attributes -/

namespace Attribute

/-- Interning the value of a field again gives the same index. -/
theorem stable_internConstant (value : ConstantValue) : (internConstant value).Stable := by
  cases value with
  | byte number => exact @PoolBuilder.stable_intern (.integer number) trivial
  | char number => exact @PoolBuilder.stable_intern (.integer number) trivial
  | short number => exact @PoolBuilder.stable_intern (.integer number) trivial
  | boolean number => exact @PoolBuilder.stable_intern (.integer number) trivial
  | int number => exact @PoolBuilder.stable_intern (.integer number) trivial
  | long number => exact @PoolBuilder.stable_intern (.long number) trivial
  | float bits => exact @PoolBuilder.stable_intern (.float bits) trivial
  | double bits => exact @PoolBuilder.stable_intern (.double bits) trivial
  | string text => exact PoolBuilder.stable_javaString text
  | classLiteral name => exact PoolBuilder.stable_classRef name

/-- Interning what may be missing again gives the same index, or none again. -/
theorem stable_encodeOptional {α : Type} {intern : α → Encoder UInt16}
    (hintern : ∀ value, (intern value).Stable) (value : Option α) :
    (encodeOptional intern value).Stable := by
  cases value with
  | none => exact Stable.pure _
  | some value => exact (hintern value).map _

theorem stable_encodeInnerClass (record : InnerClass) : (encodeInnerClass record).Stable := by
  refine ((PoolBuilder.stable_classRef _).map _).bind fun _ => ?_
  refine (stable_encodeOptional PoolBuilder.stable_classRef _).bind fun _ => ?_
  exact (stable_encodeOptional PoolBuilder.stable_utf8 _).map _

theorem stable_encodeBody (item : Attribute) : (encodeBody item).Stable := by
  cases item with
  | signature text => exact (PoolBuilder.stable_utf8 text).map _
  | deprecated => exact Stable.pure []
  | annotations visible table => exact Annotation.stable_encodeTable table
  | parameterAnnotations visible tables => exact Annotation.stable_encodeParameters tables
  | annotationDefault value => exact value.stable_encode
  | constantValue value => exact (stable_internConstant value).map _
  | code body => exact Stable.pure _
  | exceptions names =>
    exact Stable.table fun name _ => (PoolBuilder.stable_classRef name).map Bytes.u16
  | innerClasses records => exact Stable.table fun record _ => stable_encodeInnerClass record

theorem stable_encodeEntry (name : String) {body : Encoder (List UInt8)} (hbody : body.Stable) :
    (encodeEntry name body).Stable :=
  (PoolBuilder.stable_utf8 name).bind fun _ => hbody.map _

/-- Writing an attribute again gives the same bytes. -/
theorem stable_encode (item : Attribute) : item.encode.Stable := by
  have hentry := stable_encodeEntry item.name item.stable_encodeBody
  cases item with
  | constantValue value =>
    exact (stable_internConstant value).bind fun _ => stable_encodeEntry _ (Stable.pure _)
  | _ => exact hentry

theorem stable_encodeTable (items : List Attribute) : (encodeTable items).Stable :=
  (Stable.concat items fun item _ => item.stable_encode).bind fun _ =>
    (stable_tableLength _).map _

end Attribute

/-! ## Members -/

/-- Writing a member again gives the same bytes if that of its attributes does. -/
theorem stable_memberEntry (flags : AccessFlags) (name descriptor : String)
    {attributes : Encoder (List UInt8)} (hattributes : attributes.Stable) :
    (memberEntry flags name descriptor attributes).Stable :=
  (PoolBuilder.stable_utf8 name).bind fun _ => (PoolBuilder.stable_utf8 descriptor).bind fun _ =>
    hattributes.map _

namespace ClassDraft

/-- Writing the code of a body again gives the same bytes. -/
theorem stable_encodeBody (body : MethodBody) : (encodeBody body).Stable := by
  refine body.stable_encode.bind fun code => ?_
  split
  · exact Stable.pure _
  · exact .throw _

/-- Writing the attributes of a method again gives the same bytes. -/
theorem stable_encodeMethodAttributes (method : Method) (body : Option MethodBody) :
    (encodeMethodAttributes method body).Stable := by
  have hcode : (body.mapM encodeBody).Stable := by
    cases body with
    | none => exact Stable.pure none
    | some body => exact (stable_encodeBody body).map some
  exact hcode.bind fun _ => Attribute.stable_encodeTable _

/-! ## Headers -/

/-- Interning the parts of a header again gives the same indices. -/
theorem stable_internHeader (header : ClassHeader) : (internHeader header).Stable := by
  refine (PoolBuilder.stable_classRef header.name).bind fun thisClass => ?_
  have hinterfaces : (header.interfaces.mapM PoolBuilder.classRef).Stable :=
    Stable.mapM fun name _ => PoolBuilder.stable_classRef name
  cases header.superName with
  | none => exact hinterfaces.map fun interfaces => (thisClass, 0, interfaces)
  | some name =>
    refine (PoolBuilder.stable_classRef name).bind fun superClass => ?_
    exact hinterfaces.map fun interfaces => (thisClass, superClass, interfaces)

/-- The pool of a draft is exact from the start. -/
theorem exact_start {header : ClassHeader} {signature : Option String} {draft : ClassDraft}
    (hstart : start header signature = .ok draft) : draft.pool.Exact := by
  have hkept := ((stable_internHeader header).keeps {} PoolBuilder.exact_empty).1
  unfold start at hstart
  rw [EStateM.run] at hstart
  cases hrun : internHeader header {} with
  | error cause stopped => simp [hrun] at hstart
  | ok indices pool =>
    rw [builderAfter_of_ok hrun] at hkept
    rw [hrun] at hstart
    cases hstart
    exact hkept

end ClassDraft

end ClassStub
