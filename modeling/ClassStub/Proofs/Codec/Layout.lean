import ClassStub.Proofs.Codec.Denotation

/-!
# Layouts of classes

Counts and lengths divide the bytes of a class into a header with the pool, the
fields, the methods and tables of framed attributes (`ClassLayout`).  Whatever
decodes has such a layout (`ClassLayout.exists_of_decode`).  What a layout means
is said without a cursor: each part has a meaning of its own or none
(`ClassLayout.meaning`), and that of all of them is what the bytes decode to
(`ClassLayout.decode_bytes_iff`).
-/

namespace ClassStub

open Decoder

/-! ## Attributes -/

/-- An attribute in a table: the index of its name, and the body that its length
frames. -/
structure AttributeLayout where
  name : UInt16
  body : List UInt8

namespace AttributeLayout

/-- The bytes of an attribute: the index of its name, and its body behind a length.
-/
def bytes (entry : AttributeLayout) : List UInt8 :=
  Bytes.u16 entry.name ++ (Bytes.u32 (UInt32.ofNat entry.body.length) ++ entry.body)

/-- The length of the body is a 32-bit word. -/
def Fits (entry : AttributeLayout) : Prop :=
  entry.body.length < UInt32.size

instance : DecidablePred Fits :=
  fun entry => inferInstanceAs (Decidable (entry.body.length < UInt32.size))

variable {α : Type} (pool : Pool) (recognise : Attribute.Recognition α)

/-- An attribute that the place does not recognise means nothing, whatever its
body is. -/
def meaning (entry : AttributeLayout) : Option (Option α) :=
  (pool.utf8 entry.name).toOption.bind fun name =>
    match recognise name with
    | none => some none
    | some decoder => (decoder.fill entry.body).map some

/-- What a table means: the recognised attributes in order. -/
def tableMeaning (table : List AttributeLayout) : Option (List α) :=
  (table.mapM (meaning pool recognise)).map (List.filterMap id)

/-- The bytes of an attribute denote its meaning. -/
theorem denotes {entry : AttributeLayout} (hfits : entry.Fits) :
    (Attribute.decodeEntry pool recognise).Denotes entry.bytes (entry.meaning pool recognise) := by
  refine Denotes.reads_bind (reads_u16 _) (Denotes.lift_bind fun name _ => ?_)
  refine Denotes.reads_bind (reads_u32 _) ?_
  rw [UInt32.toNat_ofNat_of_lt' hfits]
  refine Denotes.reads_bind_nil (reads_take entry.body) ?_
  cases recognise name with
  | none => exact Denotes.of_reads (Reads.pure none)
  | some decoder =>
    simp only [within, fill]
    cases decoder.run (Cursor.ofBytes entry.body) with
    | error cause after => exact Denotes.throw cause
    | ok value after =>
      by_cases hend : after.remaining = 0
      · simp only [pure_bind, hend, ↓reduceIte]
        exact Denotes.of_reads (Reads.pure (some value))
      · simp only [pure_bind, hend, ↓reduceIte]
        exact Denotes.throw _

/-- The bytes of a table denote the items that it means. -/
theorem denotes_table {table : List AttributeLayout} (hfits : FitsCount Fits table) :
    (Attribute.decodeTable pool recognise).Denotes (countedBytes bytes table)
      (tableMeaning pool recognise table) := by
  have hentries : ∀ entry ∈ table, _ := fun entry hentry =>
    denotes pool recognise (hfits.parts entry hentry)
  have htable := Denotes.counted_bind hfits.count hentries fun entries =>
    Denotes.of_reads (Reads.pure (entries.filterMap id))
  rw [List.append_nil] at htable
  rw [tableMeaning, Option.map_eq_bind]
  exact htable

/-- The bytes of an attribute that was read have a layout. -/
theorem consumes_decodeEntry : (Attribute.decodeEntry pool recognise).Consumes fun _ used =>
    ∃ entry, Fits entry ∧ bytes entry = used := by
  refine Consumes.u16_bind fun index => Consumes.lift_bind fun name _ => ?_
  refine Consumes.u32_bind fun length => Consumes.take_bind fun body hlength => ?_
  have hentry : ∃ entry, Fits entry ∧
      bytes entry = Bytes.u16 index ++ (Bytes.u32 length ++ (body ++ [])) := by
    refine ⟨{ name := index, body }, ?_, ?_⟩
    · rw [Fits, hlength]
      exact length.toNat_lt
    · rw [bytes, hlength, UInt32.ofNat_toNat, List.append_nil]
  cases recognise name with
  | none => exact Consumes.pure hentry
  | some decoder =>
    refine Consumes.bind ((consumes_within body decoder).mono ?_)
    rintro ⟨value, unread⟩ _ rfl
    by_cases hend : unread = 0
    · simp only [hend, ↓reduceIte]
      exact Consumes.pure hentry
    · simp only [hend, ↓reduceIte]
      exact Consumes.throw

/-- The bytes of a table that was read have a layout. -/
theorem consumes_decodeTable : (Attribute.decodeTable pool recognise).Consumes fun _ used =>
    ∃ table, FitsCount Fits table ∧ countedBytes bytes table = used := by
  refine Consumes.counted_bind (consumes_decodeEntry pool recognise) fun entries table hfits => ?_
  exact Consumes.pure ⟨table, hfits, (List.append_nil _).symm⟩

end AttributeLayout

/-! ## Code -/

/-- Code as it stands in its attribute.  Its exception handlers have eight bytes
each. -/
structure CodeLayout where
  maxStack : UInt16
  maxLocals : UInt16
  code : List UInt8
  handlerCount : UInt16
  handlers : List UInt8
  attributes : List AttributeLayout

namespace CodeLayout

/-- The bytes of code: its two limits, the code behind a length, the handlers and
the attributes. -/
def bytes (layout : CodeLayout) : List UInt8 :=
  Bytes.u16 layout.maxStack ++ (Bytes.u16 layout.maxLocals ++
    (Bytes.u32 (UInt32.ofNat layout.code.length) ++ (layout.code ++
      (Bytes.u16 layout.handlerCount ++ (layout.handlers ++
        countedBytes AttributeLayout.bytes layout.attributes)))))

/-- What the counts and lengths of code can tell. -/
structure Fits (layout : CodeLayout) : Prop where
  code : layout.code.length < UInt32.size
  handlers : layout.handlers.length = layout.handlerCount.toNat * 8
  attributes : FitsCount AttributeLayout.Fits layout.attributes

instance : DecidablePred Fits := fun layout =>
  decidable_of_iff (layout.code.length < UInt32.size ∧
      layout.handlers.length = layout.handlerCount.toNat * 8 ∧
      FitsCount AttributeLayout.Fits layout.attributes)
    ⟨fun ⟨hcode, hhandlers, htable⟩ => ⟨hcode, hhandlers, htable⟩,
      fun ⟨hcode, hhandlers, htable⟩ => ⟨hcode, hhandlers, htable⟩⟩

variable (pool : Pool)

/-- No attribute of code is recognised, but all must have names. -/
def meaning (layout : CodeLayout) : Option CodeBytes :=
  (AttributeLayout.tableMeaning pool (fun _ => (none : Option (Decoder Unit)))
    layout.attributes).map fun _ =>
      { maxStack := layout.maxStack, maxLocals := layout.maxLocals, code := layout.code }

/-- The bytes of code denote its meaning. -/
theorem denotes {layout : CodeLayout} (hfits : layout.Fits) :
    (Attribute.decodeCode pool).Denotes layout.bytes (layout.meaning pool) := by
  refine Denotes.reads_bind (reads_u16 _) (Denotes.reads_bind (reads_u16 _) ?_)
  refine Denotes.reads_bind (reads_u32 _) ?_
  rw [UInt32.toNat_ofNat_of_lt' hfits.code]
  refine Denotes.reads_bind (reads_take _) (Denotes.reads_bind (reads_u16 _) ?_)
  rw [← hfits.handlers]
  refine Denotes.reads_bind (reads_skip _) ?_
  exact (AttributeLayout.denotes_table pool _ hfits.attributes).map _

/-- The bytes of code that was read have a layout. -/
theorem consumes_decodeCode : (Attribute.decodeCode pool).Consumes fun _ used =>
    ∃ layout, Fits layout ∧ bytes layout = used := by
  refine Consumes.u16_bind fun maxStack => Consumes.u16_bind fun maxLocals => ?_
  refine Consumes.u32_bind fun length => Consumes.take_bind fun code hlength => ?_
  refine Consumes.u16_bind fun handlerCount => Consumes.skip_bind fun handlers hhandlers => ?_
  refine Consumes.bind ((AttributeLayout.consumes_decodeTable pool _).mono ?_)
  rintro items _ ⟨attributes, hattributes, rfl⟩
  apply Consumes.pure
  have hcode : code.length < UInt32.size := hlength ▸ length.toNat_lt
  refine ⟨{ maxStack, maxLocals, code, handlerCount, handlers, attributes },
    ⟨hcode, hhandlers, hattributes⟩, ?_⟩
  rw [bytes, hlength, UInt32.ofNat_toNat, List.append_nil]

end CodeLayout

/-! ## Members -/

/-- A field or a method as it stands in a class, with the indices of its texts. -/
structure MemberLayout where
  flags : UInt16
  name : UInt16
  descriptor : UInt16
  attributes : List AttributeLayout

namespace MemberLayout

/-- The bytes of a member: its flags, two indices and the attributes. -/
def bytes (layout : MemberLayout) : List UInt8 :=
  Bytes.u16 layout.flags ++ (Bytes.u16 layout.name ++ (Bytes.u16 layout.descriptor ++
    countedBytes AttributeLayout.bytes layout.attributes))

def Fits (layout : MemberLayout) : Prop :=
  FitsCount AttributeLayout.Fits layout.attributes

instance : DecidablePred Fits :=
  fun layout => inferInstanceAs (Decidable (FitsCount AttributeLayout.Fits layout.attributes))

variable (pool : Pool)

/-- The field that a layout means. -/
def field (layout : MemberLayout) : Option Field :=
  (pool.utf8 layout.name).toOption.bind fun name =>
    (pool.utf8 layout.descriptor).toOption.bind fun descriptor =>
      (AttributeLayout.tableMeaning pool (Attribute.ofField pool descriptor)
        layout.attributes).map fun items =>
          items.foldl Field.withAttribute { flags := layout.flags, name, descriptor }

/-- The method that a layout means. -/
def method (layout : MemberLayout) : Option Method :=
  (pool.utf8 layout.name).toOption.bind fun name =>
    (pool.utf8 layout.descriptor).toOption.bind fun descriptor =>
      (AttributeLayout.tableMeaning pool (Attribute.ofMethod pool) layout.attributes).map
        fun items => items.foldl Method.withAttribute { flags := layout.flags, name, descriptor }

/-- The bytes of a field denote the field that they mean. -/
theorem denotes_field {layout : MemberLayout} (hfits : layout.Fits) :
    (Field.decode pool).Denotes layout.bytes (layout.field pool) := by
  refine Denotes.reads_bind (reads_u16 _) ?_
  refine Denotes.reads_bind (reads_u16 _) (Denotes.lift_bind fun name _ => ?_)
  refine Denotes.reads_bind (reads_u16 _) (Denotes.lift_bind fun descriptor _ => ?_)
  exact (AttributeLayout.denotes_table pool _ hfits).map _

theorem denotes_method {layout : MemberLayout} (hfits : layout.Fits) :
    (Method.decode pool).Denotes layout.bytes (layout.method pool) := by
  refine Denotes.reads_bind (reads_u16 _) ?_
  refine Denotes.reads_bind (reads_u16 _) (Denotes.lift_bind fun name _ => ?_)
  refine Denotes.reads_bind (reads_u16 _) (Denotes.lift_bind fun descriptor _ => ?_)
  exact (AttributeLayout.denotes_table pool _ hfits).map _

/-- Whatever starts like a member and ends with a table of attributes consumes a
layout. -/
theorem consumes_member {α β : Type} {recognise : String → Attribute.Recognition α}
    {make : UInt16 → String → String → List α → β} :
    Consumes (do
      let flags ← Reader.u16
      let name ← pool.utf8 (← Reader.u16)
      let descriptor ← pool.utf8 (← Reader.u16)
      let items ← Attribute.decodeTable pool (recognise descriptor)
      return make flags name descriptor items) fun _ used =>
        ∃ layout, Fits layout ∧ bytes layout = used := by
  refine Consumes.u16_bind fun flags => ?_
  refine Consumes.u16_bind fun name => Consumes.lift_bind fun _ _ => ?_
  refine Consumes.u16_bind fun descriptor => Consumes.lift_bind fun _ _ => ?_
  refine Consumes.bind ((AttributeLayout.consumes_decodeTable pool _).mono ?_)
  rintro items _ ⟨attributes, hfits, rfl⟩
  refine Consumes.pure ⟨{ flags, name, descriptor, attributes }, hfits, ?_⟩
  rw [bytes, List.append_nil]

/-- The bytes of a field that was read have a layout. -/
theorem consumes_decode_field : (Field.decode pool).Consumes fun _ used =>
    ∃ layout, Fits layout ∧ bytes layout = used :=
  consumes_member pool

theorem consumes_decode_method : (Method.decode pool).Consumes fun _ used =>
    ∃ layout, Fits layout ∧ bytes layout = used :=
  consumes_member pool

end MemberLayout

/-! ## Classes -/

/-- A class as it stands in bytes: what is in front of its members, and then
everything that has attributes. -/
structure ClassLayout where
  front : List UInt8
  fields : List MemberLayout
  methods : List MemberLayout
  attributes : List AttributeLayout

/-- An attribute leaves the pool of a class as it is. -/
theorem ClassFile.pool_withAttribute (file : ClassFile) (item : Attribute) :
    (file.withAttribute item).pool = file.pool := by
  cases item with
  | annotations visible table => cases visible <;> rfl
  | _ => rfl

theorem ClassFile.pool_foldl (file : ClassFile) (items : List Attribute) :
    (items.foldl withAttribute file).pool = file.pool := by
  induction items generalizing file with
  | nil => rfl
  | cons item items ih => rw [List.foldl_cons, ih, pool_withAttribute]

namespace ClassLayout

/-- The bytes of a class: the header, two tables of members and the attributes. -/
def bytes (layout : ClassLayout) : List UInt8 :=
  layout.front ++ (countedBytes MemberLayout.bytes layout.fields ++
    (countedBytes MemberLayout.bytes layout.methods ++
      countedBytes AttributeLayout.bytes layout.attributes))

/-- All counts and lengths fit their words. -/
structure Fits (layout : ClassLayout) : Prop where
  fields : FitsCount MemberLayout.Fits layout.fields
  methods : FitsCount MemberLayout.Fits layout.methods
  attributes : FitsCount AttributeLayout.Fits layout.attributes

instance : DecidablePred Fits := fun layout =>
  decidable_of_iff (FitsCount MemberLayout.Fits layout.fields ∧
      FitsCount MemberLayout.Fits layout.methods ∧
      FitsCount AttributeLayout.Fits layout.attributes)
    ⟨fun ⟨hfields, hmethods, htable⟩ => ⟨hfields, hmethods, htable⟩,
      fun ⟨hfields, hmethods, htable⟩ => ⟨hfields, hmethods, htable⟩⟩

/-- The class that a layout means behind a header. -/
def meaning (header : ClassHeader) (pool : Pool) (layout : ClassLayout) : Option ClassFile :=
  (layout.fields.mapM (MemberLayout.field pool)).bind fun fields =>
    (layout.methods.mapM (MemberLayout.method pool)).bind fun methods =>
      (AttributeLayout.tableMeaning pool (Attribute.ofClass pool) layout.attributes).map
        fun items => items.foldl ClassFile.withAttribute { header, fields, methods, pool }

/-- The bytes of a class denote its meaning, with the header and pool that were
read. -/
theorem denotes {layout : ClassLayout} {header : ClassHeader} {pool : Pool} (hfits : layout.Fits)
    (hfront : ClassHeader.decodeWithPool.Reads layout.front (header, pool)) :
    ClassFile.contents.Denotes layout.bytes (layout.meaning header pool) := by
  refine Denotes.reads_bind hfront ?_
  have hfields : ∀ field ∈ layout.fields, _ := fun field hfield =>
    MemberLayout.denotes_field pool (hfits.fields.parts field hfield)
  have hmethods : ∀ method ∈ layout.methods, _ := fun method hmethod =>
    MemberLayout.denotes_method pool (hfits.methods.parts method hmethod)
  refine Denotes.counted_bind hfits.fields.count hfields fun fields => ?_
  refine Denotes.counted_bind hfits.methods.count hmethods fun methods => ?_
  exact (AttributeLayout.denotes_table pool _ hfits.attributes).map _

/-- A class decodes to what its layout means. -/
theorem decode_bytes_iff {layout : ClassLayout} {header : ClassHeader} {pool : Pool}
    (hfits : layout.Fits)
    (hfront : ClassHeader.decodeWithPool.Reads layout.front (header, pool)) (file : ClassFile) :
    ClassFile.decode layout.bytes = .ok file ↔ layout.meaning header pool = some file := by
  rw [ClassFile.decode_eq_ok_iff, (denotes hfits hfront).reads_iff]

/-- How the bytes of a class divide into its parts. -/
structure Describes (layout : ClassLayout) (bytes : List UInt8) (file : ClassFile) : Prop where
  fits : layout.Fits
  bytes_eq : layout.bytes = bytes
  front : ClassHeader.decodeWithPool.Reads layout.front (file.header, file.pool)

/-- The bytes of a class that was read have a layout. -/
theorem consumes_contents : ClassFile.contents.Consumes fun file used =>
    ∃ layout, Describes layout used file := by
  refine Consumes.bind (ClassHeader.selfDelimiting_decodeWithPool.mono ?_)
  rintro ⟨header, pool⟩ front ⟨hfront, _⟩
  refine Consumes.counted_bind (MemberLayout.consumes_decode_field pool) ?_
  intro fields fieldLayouts hfields
  refine Consumes.counted_bind (MemberLayout.consumes_decode_method pool) ?_
  intro methods methodLayouts hmethods
  refine Consumes.bind ((AttributeLayout.consumes_decodeTable pool _).mono ?_)
  rintro items _ ⟨attributes, hattributes, rfl⟩
  apply Consumes.pure
  refine ⟨{ front, fields := fieldLayouts, methods := methodLayouts, attributes }, ?_⟩
  refine ⟨⟨hfields, hmethods, hattributes⟩, ?_, ?_⟩
  · rw [bytes, List.append_nil]
  · rw [ClassFile.header_foldl, ClassFile.pool_foldl]
    exact hfront

/-- Whatever decodes has a layout. -/
theorem exists_of_decode {bytes : List UInt8} {file : ClassFile}
    (hdecode : ClassFile.decode bytes = .ok file) : ∃ layout, Describes layout bytes file := by
  have hrun := ClassFile.decode_eq_ok_iff.1 hdecode 0 []
  obtain ⟨used, hused, _, hlayout⟩ := consumes_contents _ _ _ hrun
  obtain rfl : bytes = used := by simpa using hused
  exact hlayout

end ClassLayout

end ClassStub
