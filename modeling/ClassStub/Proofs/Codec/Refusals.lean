import ClassStub.ClassFile.Draft
import ClassStub.Proofs.Codec.Interning

/-!
# What writing refuses

Writing a class fails only with what a computation of limits fails with, and
otherwise because something is too large for the format: a text, a table, the
pool or the code (`EncodeError.IsSize`).  One statement carries this through all
encoders (`FailsOnly`).
-/

namespace ClassStub

/-- Failures because something is too large for the format. -/
def EncodeError.IsSize : EncodeError → Prop
  | poolOverflow | textTooLong _ | tooManyItems _ | codeTooLarge _ => True
  | stackUnderflow _ | overflow | descriptor _ => False

/-- Whatever a computation fails with is possible. -/
def FailsOnly {σ α : Type} (possible : EncodeError → Prop) (computation : EStateM EncodeError σ α) :
    Prop :=
  ∀ (state : σ) (cause : EncodeError) (after : σ), computation state = .error cause after →
    possible cause

/-! ## Steps -/

namespace FailsOnly

variable {σ α β : Type} {possible : EncodeError → Prop}

/-- What does nothing fails with nothing. -/
theorem pure (value : α) : FailsOnly possible (pure value : EStateM EncodeError σ α) := by
  intro state cause after hrun
  cases hrun

/-- A failure is that of its cause. -/
theorem throw {cause : EncodeError} (hpossible : possible cause) :
    FailsOnly possible (throw cause : EStateM EncodeError σ α) := by
  intro state other after hrun
  cases hrun
  exact hpossible

/-- One computation behind another fails only if one of the two does. -/
theorem bind {first : EStateM EncodeError σ α} {next : α → EStateM EncodeError σ β}
    (hfirst : FailsOnly possible first) (hnext : ∀ value, FailsOnly possible (next value)) :
    FailsOnly possible (first >>= next) := by
  intro state cause after hrun
  simp only [Bind.bind, EStateM.bind] at hrun
  cases hstep : first state with
  | error other stopped =>
    rw [hstep] at hrun
    cases hrun
    exact hfirst state cause after hstep
  | ok value between =>
    rw [hstep] at hrun
    exact hnext value between cause after hrun

theorem map {first : EStateM EncodeError σ α} (hfirst : FailsOnly possible first) (f : α → β) :
    FailsOnly possible (do return f (← first)) :=
  hfirst.bind fun value => FailsOnly.pure (f value)

/-- What is possible in fewer ways is possible in more. -/
theorem mono {computation : EStateM EncodeError σ α} {weaker : EncodeError → Prop}
    (hfails : FailsOnly possible computation)
    (himplies : ∀ cause, possible cause → weaker cause) : FailsOnly weaker computation :=
  fun state cause after hrun => himplies cause (hfails state cause after hrun)

theorem modify (f : σ → σ) : FailsOnly possible (modify f : EStateM EncodeError σ PUnit) := by
  intro state cause after hrun
  cases hrun

/-- Doing something with each item fails only if that does for one of them. -/
theorem forM {items : List α} {action : α → EStateM EncodeError σ PUnit}
    (haction : ∀ item ∈ items, FailsOnly possible (action item)) :
    FailsOnly possible (items.forM action) := by
  induction items with
  | nil => exact FailsOnly.pure PUnit.unit
  | cons item items ih =>
    obtain ⟨hitem, hmore⟩ := List.forall_mem_cons.1 haction
    exact hitem.bind fun _ => ih hmore

/-- Making something of each item fails only if that does for one of them. -/
theorem mapM {items : List α} {action : α → EStateM EncodeError σ β}
    (haction : ∀ item, FailsOnly possible (action item)) :
    FailsOnly possible (items.mapM action) := by
  induction items with
  | nil => exact FailsOnly.pure []
  | cons item items ih =>
    rw [List.mapM_cons]
    exact (haction item).bind fun value => ih.map (value :: ·)

end FailsOnly

open EncodeError

/-! ## Encoders -/

/-- The length of a table is refused for its size. -/
theorem isSize_of_tableLength {count : Nat} {cause : EncodeError}
    (hlength : tableLength count = .error cause) : cause.IsSize := by
  unfold tableLength at hlength
  split at hlength
  · cases hlength
  · cases hlength
    trivial

namespace Encoder

/-- A result that was obtained without the pool fails as it did. -/
theorem failsOnly_lift {α : Type} {possible : EncodeError → Prop} {result : Except EncodeError α}
    (hresult : ∀ cause, result = .error cause → possible cause) :
    FailsOnly possible (liftM result : Encoder α) := by
  cases result with
  | error cause => exact FailsOnly.throw (hresult cause rfl)
  | ok value => exact FailsOnly.pure value

theorem failsOnly_tableLength (count : Nat) :
    FailsOnly IsSize (liftM (tableLength count) : Encoder UInt16) :=
  failsOnly_lift fun _ => isSize_of_tableLength

/-- Items one behind the other fail only if one of them does. -/
theorem failsOnly_concat {α : Type} {possible : EncodeError → Prop}
    {encode : α → Encoder (List UInt8)} (hencode : ∀ item, FailsOnly possible (encode item))
    (items : List α) : FailsOnly possible (concat encode items) := by
  induction items with
  | nil => exact FailsOnly.pure []
  | cons item items ih => exact (hencode item).bind fun first => ih.map (first ++ ·)

/-- A table fails with a size, or as its items do. -/
theorem failsOnly_table {α : Type} {encode : α → Encoder (List UInt8)}
    (hencode : ∀ item, FailsOnly IsSize (encode item)) (items : List α) :
    FailsOnly IsSize (table encode items) :=
  (failsOnly_tableLength items.length).bind fun _ => (failsOnly_concat hencode items).map _

end Encoder

open Encoder

namespace PoolBuilder

/-- Interning fails only if the pool is full. -/
theorem failsOnly_intern (constant : Constant) : FailsOnly IsSize (intern constant) := by
  intro builder cause after hrun
  unfold intern at hrun
  split at hrun
  · cases hrun
  · split at hrun
    · cases hrun
    · cases hrun
      trivial

/-- A text is refused if it is too long. -/
theorem failsOnly_javaText (text : JavaText) : FailsOnly IsSize (javaText text) := by
  unfold javaText
  split
  · exact failsOnly_intern _
  · exact FailsOnly.throw trivial

theorem failsOnly_utf8 (text : String) : FailsOnly IsSize (utf8 text) :=
  failsOnly_javaText _

theorem failsOnly_classRef (name : String) : FailsOnly IsSize (classRef name) :=
  (failsOnly_utf8 name).bind fun _ => failsOnly_intern _

theorem failsOnly_javaString (text : JavaText) : FailsOnly IsSize (javaString text) :=
  (failsOnly_javaText text).bind fun _ => failsOnly_intern _

theorem failsOnly_nameAndType (name descriptor : String) :
    FailsOnly IsSize (nameAndType name descriptor) :=
  (failsOnly_utf8 name).bind fun _ => (failsOnly_utf8 descriptor).bind fun _ => failsOnly_intern _

/-- A reference to a member is refused for its parts or for a full pool. -/
theorem failsOnly_methodRef (member : MemberRef) : FailsOnly IsSize (methodRef member) := by
  refine (failsOnly_classRef _).bind fun owner => (failsOnly_nameAndType _ _).bind fun _ => ?_
  split
  · exact failsOnly_intern _
  · exact failsOnly_intern _

end PoolBuilder

open PoolBuilder

theorem ConstantValue.failsOnly_intern (value : ConstantValue) : FailsOnly IsSize value.intern := by
  cases value with
  | string text => exact failsOnly_javaText text
  | classLiteral descriptor => exact failsOnly_utf8 descriptor
  | _ => exact PoolBuilder.failsOnly_intern _

mutual

/-- Writing a value fails only with a size, at each depth. -/
theorem ElementValue.failsOnly_encode (value : ElementValue) : FailsOnly IsSize value.encode := by
  cases value with
  | constant value => exact value.failsOnly_intern.map _
  | enumConstant type name =>
    exact (failsOnly_utf8 type).bind fun _ => (failsOnly_utf8 name).map _
  | nested type elements =>
    refine (failsOnly_utf8 type).bind fun _ => ?_
    exact (failsOnly_tableLength _).bind fun _ => (failsOnly_encodeElements elements).map _
  | array values =>
    exact (failsOnly_tableLength _).bind fun _ => (failsOnly_encodeValues values).map _

theorem failsOnly_encodeElements (elements : List (String × ElementValue)) :
    FailsOnly IsSize (encodeElements elements) := by
  cases elements with
  | nil => exact FailsOnly.pure []
  | cons element elements =>
    obtain ⟨name, value⟩ := element
    refine (failsOnly_utf8 name).bind fun _ => value.failsOnly_encode.bind fun _ => ?_
    exact (failsOnly_encodeElements elements).map _

theorem failsOnly_encodeValues (values : List ElementValue) :
    FailsOnly IsSize (encodeValues values) := by
  cases values with
  | nil => exact FailsOnly.pure []
  | cons value values =>
    exact value.failsOnly_encode.bind fun _ => (failsOnly_encodeValues values).map _

end

namespace Annotation

/-- Writing an annotation fails only with a size. -/
theorem failsOnly_encode (value : Annotation) : FailsOnly IsSize value.encode :=
  (failsOnly_utf8 _).bind fun _ => (failsOnly_tableLength _).bind fun _ =>
    (failsOnly_encodeElements value.elements).map _

theorem failsOnly_encodeTable (table : List Annotation) : FailsOnly IsSize (encodeTable table) :=
  failsOnly_table failsOnly_encode table

/-- Writing the annotations of parameters fails only with a size. -/
theorem failsOnly_encodeParameters (parameters : List (List Annotation)) :
    FailsOnly IsSize (encodeParameters parameters) := by
  unfold encodeParameters
  split
  · exact (failsOnly_concat failsOnly_encodeTable parameters).map _
  · exact FailsOnly.throw trivial

end Annotation

namespace Attribute

theorem failsOnly_internConstant (value : ConstantValue) :
    FailsOnly IsSize (internConstant value) := by
  cases value with
  | string text => exact failsOnly_javaString text
  | classLiteral name => exact failsOnly_classRef name
  | _ => exact PoolBuilder.failsOnly_intern _

/-- An attribute fails only with a size if its body does. -/
theorem failsOnly_encodeEntry (name : String) {body : Encoder (List UInt8)}
    (hbody : FailsOnly IsSize body) : FailsOnly IsSize (encodeEntry name body) :=
  (failsOnly_utf8 name).bind fun _ => hbody.map _

theorem failsOnly_encodeOptional {α : Type} {intern : α → Encoder UInt16}
    (hintern : ∀ value, FailsOnly IsSize (intern value)) (value : Option α) :
    FailsOnly IsSize (encodeOptional intern value) := by
  cases value with
  | none => exact FailsOnly.pure _
  | some value => exact (hintern value).map _

theorem failsOnly_encodeClassName (name : String) : FailsOnly IsSize (encodeClassName name) :=
  (failsOnly_classRef name).map _

theorem failsOnly_encodeInnerClass (record : InnerClass) :
    FailsOnly IsSize (encodeInnerClass record) :=
  (failsOnly_encodeClassName _).bind fun _ =>
    (failsOnly_encodeOptional failsOnly_classRef _).bind fun _ =>
      (failsOnly_encodeOptional failsOnly_utf8 _).map _

/-- The content of an attribute fails only with a size. -/
theorem failsOnly_encodeBody (item : Attribute) : FailsOnly IsSize item.encodeBody := by
  cases item with
  | signature text => exact (failsOnly_utf8 text).map _
  | deprecated => exact FailsOnly.pure []
  | annotations visible table => exact Annotation.failsOnly_encodeTable table
  | parameterAnnotations visible tables => exact Annotation.failsOnly_encodeParameters tables
  | annotationDefault value => exact value.failsOnly_encode
  | constantValue value => exact (failsOnly_internConstant value).map _
  | code body => exact FailsOnly.pure _
  | exceptions names => exact failsOnly_table failsOnly_encodeClassName names
  | innerClasses records => exact failsOnly_table failsOnly_encodeInnerClass records

/-- An attribute fails only with a size. -/
theorem failsOnly_encode (item : Attribute) : FailsOnly IsSize item.encode := by
  cases item with
  | constantValue value =>
    exact (failsOnly_internConstant value).bind fun _ =>
      failsOnly_encodeEntry _ (FailsOnly.pure _)
  | _ => exact failsOnly_encodeEntry _ (failsOnly_encodeBody _)

theorem failsOnly_encodeTable (items : List Attribute) : FailsOnly IsSize (encodeTable items) :=
  (failsOnly_concat failsOnly_encode items).bind fun _ => (failsOnly_tableLength _).map _

end Attribute

/-! ## Code -/

theorem Instruction.failsOnly_internLiteral (value : Literal) :
    FailsOnly IsSize (internLiteral value) := by
  cases value with
  | int value => exact PoolBuilder.failsOnly_intern _
  | string text => exact failsOnly_javaString _

/-- Writing an instruction fails only with a size. -/
theorem Instruction.failsOnly_encode (instruction : Instruction) :
    FailsOnly IsSize instruction.encode := by
  cases instruction with
  | ldc value => exact (failsOnly_internLiteral value).map _
  | aload slot =>
    unfold Instruction.encode
    simp only
    split
    · exact FailsOnly.pure _
    · exact FailsOnly.pure _
  | invokeSpecial method => exact (failsOnly_methodRef method).map _
  | invokeStatic method => exact (failsOnly_methodRef method).map _
  | newObject className => exact (failsOnly_classRef className).map _
  | _ => exact FailsOnly.pure _

theorem MethodBody.failsOnly_encode (body : MethodBody) : FailsOnly IsSize body.encode :=
  failsOnly_concat Instruction.failsOnly_encode body.instructions

/-! ## Drafts -/

namespace ClassDraft

/-- Interning the parts of a header fails only with a size. -/
theorem failsOnly_internHeader (header : ClassHeader) :
    FailsOnly IsSize (internHeader header) := by
  have hinterfaces : ∀ names : List String, FailsOnly IsSize (names.mapM classRef) :=
    fun names => FailsOnly.mapM failsOnly_classRef
  refine (failsOnly_classRef header.name).bind fun _ => ?_
  split
  · exact (failsOnly_classRef _).bind fun _ => (hinterfaces _).map _
  · exact (hinterfaces _).map _

/-- Writing the code of a body fails only with a size. -/
theorem failsOnly_encodeBody (body : MethodBody) : FailsOnly IsSize (encodeBody body) := by
  refine body.failsOnly_encode.bind fun code => ?_
  split
  · exact FailsOnly.pure _
  · exact FailsOnly.throw trivial

/-- Writing the attributes of a method fails only with a size. -/
theorem failsOnly_encodeMethodAttributes (method : Method) (body : Option MethodBody) :
    FailsOnly IsSize (encodeMethodAttributes method body) := by
  have hcode : FailsOnly IsSize (body.mapM encodeBody) := by
    cases body with
    | none => exact FailsOnly.pure none
    | some body => exact (failsOnly_encodeBody body).map some
  exact hcode.bind fun _ => Attribute.failsOnly_encodeTable _

/-- What interns into the pool of a draft fails as it would on its own. -/
theorem failsOnly_lift {α : Type} {possible : EncodeError → Prop} {encoder : Encoder α}
    (hencoder : FailsOnly possible encoder) : FailsOnly possible (liftM encoder : Writing α) := by
  intro draft cause after hrun
  cases hpool : encoder draft.pool with
  | ok value pool =>
    simp only [liftM, monadLift, MonadLift.monadLift, EStateM.run, hpool, reduceCtorEq] at hrun
  | error other stopped =>
    simp only [liftM, monadLift, MonadLift.monadLift, EStateM.run, hpool] at hrun
    cases hrun
    exact hencoder draft.pool cause stopped hpool

/-- Bytes are always appended. -/
theorem failsOnly_append (kind : MemberKind) (bytes : List UInt8) :
    FailsOnly IsSize (append kind bytes) :=
  FailsOnly.modify _

/-- Writing a member fails only with a size if its attributes do. -/
theorem failsOnly_writeMember (kind : MemberKind) (flags : AccessFlags)
    (name descriptor : String) {attributes : Encoder (List UInt8)}
    (hattributes : FailsOnly IsSize attributes) :
    FailsOnly IsSize (writeMember kind flags name descriptor attributes) := by
  refine (failsOnly_append kind _).bind fun _ => ?_
  refine (failsOnly_lift (failsOnly_utf8 name)).bind fun _ => ?_
  refine (failsOnly_append kind _).bind fun _ => ?_
  refine (failsOnly_lift (failsOnly_utf8 descriptor)).bind fun _ => ?_
  refine (failsOnly_append kind _).bind fun _ => ?_
  refine (failsOnly_lift hattributes).bind fun _ => ?_
  exact (failsOnly_append kind _).bind fun _ => FailsOnly.modify _

theorem failsOnly_writeField (field : Field) : FailsOnly IsSize (writeField field) :=
  failsOnly_writeMember .field _ _ _ (Attribute.failsOnly_encodeTable _)

/-- Writing a method fails only with a size. -/
theorem failsOnly_writeMethod (method : Method) (body : Option MethodBody) :
    FailsOnly IsSize (writeMethod method body) :=
  failsOnly_writeMember .method _ _ _ (failsOnly_encodeMethodAttributes method body)

/-- A class is started unless something is too large. -/
theorem isSize_of_start {header : ClassHeader} {signature : Option String} {cause : EncodeError}
    (hstart : start header signature = .error cause) : cause.IsSize := by
  unfold start at hstart
  cases hrun : (internHeader header).run {} with
  | ok value pool =>
    rw [hrun] at hstart
    cases hstart
  | error other stopped =>
    rw [hrun] at hstart
    cases hstart
    exact failsOnly_internHeader header _ cause stopped hrun

/-- A class is finished unless something is too large. -/
theorem isSize_of_complete {draft : ClassDraft} {cause : EncodeError}
    (hcomplete : draft.complete = .error cause) : cause.IsSize := by
  unfold complete at hcomplete
  cases hrun : (Attribute.encodeTable draft.attributes).run draft.pool with
  | error other stopped =>
    rw [hrun] at hcomplete
    cases hcomplete
    exact Attribute.failsOnly_encodeTable _ _ cause stopped hrun
  | ok attributes pool =>
    rw [hrun] at hcomplete
    rcases bind_eq_error.1 hcomplete with hfirst | ⟨_, _, hcomplete⟩
    · exact isSize_of_tableLength hfirst
    rcases bind_eq_error.1 hcomplete with hsecond | ⟨_, _, hcomplete⟩
    · exact isSize_of_tableLength hsecond
    rcases bind_eq_error.1 hcomplete with hthird | ⟨_, _, hcomplete⟩
    · exact isSize_of_tableLength hthird
    · cases hcomplete

end ClassDraft

end ClassStub
