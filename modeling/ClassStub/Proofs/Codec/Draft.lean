import ClassStub.Proofs.Codec.Member
import Mathlib.Data.List.Forall2

/-!
# Classes, written and read

A draft holds what was written to it so far: in every pool that holds what the
draft interned, its header looks up to the written header and its encoded members
read back as the written members (`ClassDraft.Holds`).  Starting a class
establishes this, every step of writing preserves it, and a finished draft
decodes to a class that shows what was written (`ClassDraft.Holds.complete`).
-/

namespace ClassStub

open Decoder Encoder

/-- What is written to a class.  Each method has the code that is written for its
body, and comes with that body. -/
structure ClassContent where
  header : ClassHeader
  signature : Option String := none
  deprecated : Bool := false
  visibleAnnotations : List Annotation := []
  invisibleAnnotations : List Annotation := []
  innerClasses : List InnerClass := []
  fields : List Field := []
  methods : List (Method × Option MethodBody) := []

/-- A version that can be read. -/
def Version.Supported (version : Version) : Prop :=
  supportedVersions.1 ≤ version.major.toNat ∧ version.major.toNat ≤ supportedVersions.2

/-- A method as it was written, whose code stands for its body. -/
def MethodShows (pool : Pool) (written : Method × Option MethodBody) (method : Method) : Prop :=
  method = written.1 ∧ Option.Rel (MethodBody.WrittenAs pool) written.2 method.code

/-- A decoded class that shows what was written. -/
structure ClassFile.Shows (file : ClassFile) (content : ClassContent) : Prop where
  header_eq : file.header = content.header
  signature_eq : file.signature = content.signature
  deprecated_eq : file.deprecated = content.deprecated
  visibleAnnotations_eq : file.visibleAnnotations = content.visibleAnnotations
  invisibleAnnotations_eq : file.invisibleAnnotations = content.invisibleAnnotations
  innerClasses_eq : file.innerClasses = content.innerClasses
  fields_eq : file.fields = content.fields
  methods_show : List.Forall₂ (MethodShows file.pool) content.methods file.methods

/-- Every item of the second of two related lists has a partner in the first. -/
theorem exists_of_forall₂ {α β : Type} {related : α → β → Prop} {items : List α}
    {others : List β} (hrelated : List.Forall₂ related items others) {other : β}
    (hother : other ∈ others) : ∃ item ∈ items, related item other := by
  induction hrelated with
  | nil => cases hother
  | cons hfirst _ ih =>
    cases hother with
    | head => exact ⟨_, List.mem_cons_self, hfirst⟩
    | tail _ hlater =>
      obtain ⟨item, hitem, hsame⟩ := ih hlater
      exact ⟨item, List.mem_cons_of_mem _ hitem, hsame⟩

/-- A header is read from the front of a class. -/
theorem ClassHeader.decode_eq_ok {bytes : List UInt8} {header : ClassHeader} {pool : Pool}
    (hheader : decodeWithPool.Reads bytes (header, pool)) (rest : List UInt8) :
    decode (bytes ++ rest) = .ok header := by
  have hread : Decoder.Reads (Prod.fst <$> decodeWithPool) bytes header := hheader.map Prod.fst
  simp only [decode, Decoder.decode, EStateM.run, Cursor.ofBytes, hread 0 rest]

/-- A class decodes from the written forms of its parts, one after another. -/
theorem ClassFile.decode_eq_ok {headerBytes fieldBytes methodBytes table : List UInt8}
    {header : ClassHeader} {pool : Pool} {fieldCount methodCount : Nat} {fields : List Field}
    {methods : List Method} {items : List Attribute}
    (hheader : ClassHeader.decodeWithPool.Reads headerBytes (header, pool))
    (hfieldCount : fieldCount ≤ maxWord)
    (hfields : (repeated (Field.decode pool) fieldCount).Reads fieldBytes fields)
    (hmethodCount : methodCount ≤ maxWord)
    (hmethods : (repeated (Method.decode pool) methodCount).Reads methodBytes methods)
    (htable : (Attribute.decodeTable pool (Attribute.ofClass pool)).Reads table items) :
    decode (headerBytes ++ (Bytes.u16 (UInt16.ofNat fieldCount) ++ (fieldBytes ++
      (Bytes.u16 (UInt16.ofNat methodCount) ++ (methodBytes ++ table))))) =
        .ok (items.foldl withAttribute { header, fields, methods, pool }) := by
  have hrun : ∃ after, decoder (Cursor.ofBytes (headerBytes ++
      (Bytes.u16 (UInt16.ofNat fieldCount) ++ (fieldBytes ++
        (Bytes.u16 (UInt16.ofNat methodCount) ++ (methodBytes ++ (table ++ []))))))) =
      .ok (items.foldl withAttribute { header, fields, methods, pool }) after := by
    apply Exists.intro
    apply (hheader.run_bind _ 0 _).trans
    apply ((reads_u16 _).run_bind _ _ _).trans
    rw [toNat_ofNat_count hfieldCount]
    apply (hfields.run_bind _ _ _).trans
    apply ((reads_u16 _).run_bind _ _ _).trans
    rw [toNat_ofNat_count hmethodCount]
    apply (hmethods.run_bind _ _ _).trans
    exact (htable.run_bind _ _ _).trans rfl
  rcases hrun with ⟨after, hrun⟩
  rw [List.append_nil] at hrun
  simp only [decode, Decoder.decode, EStateM.run, hrun]

namespace MemberTable

/-- One more encoded member. -/
def add (table : MemberTable) (bytes : List UInt8) : MemberTable where
  encoded := table.encoded.append bytes
  count := table.count + 1

/-- A table with one more entry is read as one more value. -/
theorem reads_add {α : Type} {item : Decoder α} {table : MemberTable} {values : List α}
    {bytes : List UInt8} {value : α}
    (htable : (repeated item table.count).Reads table.encoded.toList values)
    (hvalue : item.Reads bytes value) :
    (repeated item (table.add bytes).count).Reads (table.add bytes).encoded.toList
      (values ++ [value]) := by
  rw [add, Bytes.Buffer.toList_append]
  exact htable.repeated_concat hvalue

end MemberTable

theorem Bytes.Buffer.append_append (buffer : Buffer) (first second : List UInt8) :
    (buffer.append first).append second = buffer.append (first ++ second) := by
  simp only [append, Buffer.mk.injEq]
  apply Array.toList_inj.1
  simp

namespace ClassDraft

/-! ## The header -/

/-- Indices that look up to the names of a header. -/
structure NamesHeader (pool : Pool) (thisClass superClass : UInt16) (interfaces : List UInt16)
    (header : ClassHeader) : Prop where
  name_eq : pool.className thisClass = .ok header.name
  superName_eq : pool.className? superClass = .ok header.superName
  interfaces_read : (repeated (do pool.className (← Reader.u16)) interfaces.length).Reads
    (interfaces.flatMap Bytes.u16) header.interfaces

/-- Several classes are written as indices, from which their names are read. -/
theorem yields_mapM_classRef (names : List String) :
    (names.mapM PoolBuilder.classRef).Yields fun pool indices =>
      Decoder.Reads (repeated (do pool.className (← Reader.u16)) indices.length)
        (indices.flatMap Bytes.u16) names := by
  induction names with
  | nil => exact Yields.pure fun pool => Reads.repeated_nil _
  | cons name names ih =>
    rw [List.mapM_cons]
    refine (PoolBuilder.yields_classRef name).bind fun index => ?_
    refine ih.map (index :: ·) fun pool indices hnames hname => ?_
    rw [List.flatMap_cons]
    exact Reads.repeated_cons (Reads.lookup_only hname.1) hnames

/-- The three parts of a header are written as indices that lead to them. -/
theorem yields_internHeader (header : ClassHeader) :
    (internHeader header).Yields fun pool indices =>
      NamesHeader pool indices.1 indices.2.1 indices.2.2 header := by
  rcases header with ⟨version, flags, name, superName, interfaces⟩
  refine (PoolBuilder.yields_classRef name).bind fun thisClass => ?_
  have hnames := yields_mapM_classRef interfaces
  cases superName with
  | none =>
    refine hnames.map (fun indices => (thisClass, 0, indices)) ?_
    intro pool indices hinterfaces hname
    exact ⟨hname.1, rfl, hinterfaces⟩
  | some superName =>
    refine (PoolBuilder.yields_classRef superName).bind fun superClass => ?_
    refine hnames.map (fun indices => (thisClass, superClass, indices)) ?_
    intro pool indices hinterfaces hsuper hname
    have hsuperName : pool.className? superClass = .ok (some superName) := by
      rw [Pool.className?, Pool.optional, if_neg hsuper.2, hsuper.1]
      rfl
    exact ⟨hname.1, hsuperName, hinterfaces⟩

/-! ## The invariant -/

/-- A draft holds what was written: its plain parts are those written, and its
encoded parts read back in every pool that holds what the draft interned. -/
structure Holds (draft : ClassDraft) (content : ClassContent) : Prop where
  valid : draft.pool.Valid
  version_eq : draft.version = content.header.version
  flags_eq : draft.flags = content.header.flags
  signature_eq : draft.signature = content.signature
  deprecated_eq : draft.deprecated = content.deprecated
  visibleAnnotations_eq : draft.visibleAnnotations.toList = content.visibleAnnotations
  invisibleAnnotations_eq : draft.invisibleAnnotations.toList = content.invisibleAnnotations
  innerClasses_eq : draft.innerClasses.toList = content.innerClasses
  header_named : ∀ pool : Pool, pool.Holds draft.pool →
    NamesHeader pool draft.thisClass draft.superClass draft.interfaces content.header
  fields_read : ∀ pool : Pool, pool.Holds draft.pool →
    (repeated (Field.decode pool) draft.fields.count).Reads draft.fields.encoded.toList
      content.fields
  methods_read : ∀ pool : Pool, pool.Holds draft.pool →
    ∃ methods, List.Forall₂ (MethodShows pool) content.methods methods ∧
      (repeated (Method.decode pool) draft.methods.count).Reads draft.methods.encoded.toList
        methods

/-- A draft without members holds its header and its signature. -/
theorem holds_start {header : ClassHeader} {signature : Option String} {draft : ClassDraft}
    (hstart : start header signature = .ok draft) : draft.Holds { header, signature } := by
  unfold start at hstart
  cases hrun : (internHeader header).run {} with
  | error cause stopped => simp [hrun] at hstart
  | ok indices pool =>
    obtain ⟨thisClass, superClass, interfaces⟩ := indices
    rw [hrun] at hstart
    cases hstart
    obtain ⟨hvalid, _, hnamed⟩ :=
      yields_internHeader header {} _ pool PoolBuilder.valid_empty hrun
    exact {
      valid := hvalid
      version_eq := rfl
      flags_eq := rfl
      signature_eq := rfl
      deprecated_eq := rfl
      visibleAnnotations_eq := rfl
      invisibleAnnotations_eq := rfl
      innerClasses_eq := rfl
      header_named := hnamed
      fields_read := fun pool _ => Reads.repeated_nil _
      methods_read := fun pool _ => ⟨[], List.Forall₂.nil, Reads.repeated_nil _⟩ }

/-- Interning more leaves intact what a draft holds. -/
theorem Holds.grow {draft : ClassDraft} {content : ClassContent} (hdraft : draft.Holds content)
    {grown : PoolBuilder} (hvalid : grown.Valid) (hgrown : draft.pool.slots <+: grown.slots) :
    { draft with pool := grown }.Holds content :=
  { hdraft with
    valid := hvalid
    header_named := fun pool hpool => hdraft.header_named pool (hgrown.trans hpool)
    fields_read := fun pool hpool => hdraft.fields_read pool (hgrown.trans hpool)
    methods_read := fun pool hpool => hdraft.methods_read pool (hgrown.trans hpool) }

/-! ## Steps of writing -/

variable {draft grown : ClassDraft} {content : ClassContent}

theorem Holds.markDeprecated (hdraft : draft.Holds content) :
    draft.markDeprecated.Holds { content with deprecated := true } :=
  { hdraft with deprecated_eq := rfl }

/-- Visible annotations are added behind those that are there. -/
theorem Holds.annotate_visible (hdraft : draft.Holds content) (table : List Annotation) :
    (draft.annotate true table).Holds
      { content with visibleAnnotations := content.visibleAnnotations ++ table } :=
  { hdraft with
    visibleAnnotations_eq := by
      rw [← hdraft.visibleAnnotations_eq]
      exact Array.toList_appendList }

theorem Holds.annotate_invisible (hdraft : draft.Holds content) (table : List Annotation) :
    (draft.annotate false table).Holds
      { content with invisibleAnnotations := content.invisibleAnnotations ++ table } :=
  { hdraft with
    invisibleAnnotations_eq := by
      rw [← hdraft.invisibleAnnotations_eq]
      exact Array.toList_appendList }

/-- The record of an inner class is added behind those that are there. -/
theorem Holds.listInnerClass (hdraft : draft.Holds content) (record : InnerClass) :
    (draft.listInnerClass record).Holds
      { content with innerClasses := content.innerClasses ++ [record] } :=
  { hdraft with
    innerClasses_eq := by
      rw [← hdraft.innerClasses_eq]
      exact Array.toList_push }

/-- Bytes that are appended are part of the table for whatever comes next. -/
theorem append_bind {α : Type} (kind : MemberKind) (bytes : List UInt8)
    (next : Unit → Writing α) (draft : ClassDraft) :
    (append kind bytes >>= next) draft =
      next () (changeTable kind (fun table => { table with encoded := table.encoded.append bytes })
        draft) :=
  rfl

@[simp] theorem pool_changeTable (kind : MemberKind) (change : MemberTable → MemberTable)
    (draft : ClassDraft) : (changeTable kind change draft).pool = draft.pool := by
  cases kind <;> rfl

/-- A step that interns changes nothing but the pool. -/
theorem lift_bind_eq_ok {α β : Type} {encoder : Encoder α} {next : α → Writing β} {result : β}
    (hrun : ((liftM encoder : Writing α) >>= next) draft = .ok result grown) :
    ∃ value pool, encoder draft.pool = .ok value pool ∧
      next value { draft with pool } = .ok result grown := by
  cases hencoder : encoder draft.pool with
  | error cause stopped =>
    simp only [Bind.bind, EStateM.bind, liftM, monadLift, MonadLift.monadLift, EStateM.run,
      hencoder, reduceCtorEq] at hrun
  | ok value pool =>
    simp only [Bind.bind, EStateM.bind, liftM, monadLift, MonadLift.monadLift, EStateM.run,
      hencoder] at hrun
    exact ⟨value, pool, rfl, hrun⟩

/-- A member that could be written was added to its table, and the pool grew. -/
theorem writeMember_eq_ok {kind : MemberKind} {flags : AccessFlags} {name descriptor : String}
    {attributes : Encoder (List UInt8)}
    (hrun : writeMember kind flags name descriptor attributes draft = .ok () grown) :
    ∃ bytes pool, memberEntry flags name descriptor attributes draft.pool = .ok bytes pool ∧
      grown = changeTable kind (·.add bytes) { draft with pool } := by
  rw [writeMember, append_bind] at hrun
  obtain ⟨nameIndex, named, hname, hrun⟩ := lift_bind_eq_ok hrun
  rw [append_bind] at hrun
  obtain ⟨descriptorIndex, described, hdescriptor, hrun⟩ := lift_bind_eq_ok hrun
  rw [append_bind] at hrun
  obtain ⟨table, pool, htable, hrun⟩ := lift_bind_eq_ok hrun
  rw [append_bind] at hrun
  simp only [pool_changeTable] at hname hdescriptor htable
  refine ⟨Bytes.u16 flags ++ (Bytes.u16 nameIndex ++ (Bytes.u16 descriptorIndex ++ table)), pool,
    ?_, ?_⟩
  · simp only [memberEntry, Bind.bind, EStateM.bind, hname, hdescriptor, htable]
    rfl
  · cases hrun
    cases kind <;>
      simp only [changeTable, MemberTable.add, Bytes.Buffer.append_append, List.append_assoc]

/-- A written field is added behind those that are there. -/
theorem Holds.writeField (hdraft : draft.Holds content) {field : Field}
    (hconstant : ∀ value, field.constantValue = some value → value.Suits field.descriptor)
    (hfits : field.Fits)
    (hrun : writeField field draft = .ok () grown) :
    grown.Holds { content with fields := content.fields ++ [field] } := by
  obtain ⟨bytes, pool, hentry, rfl⟩ := writeMember_eq_ok hrun
  obtain ⟨hvalid, hgrown, hread⟩ :=
    Field.yields_entry hconstant hfits draft.pool bytes pool hdraft.valid hentry
  have hheld := hdraft.grow hvalid hgrown
  exact { hheld with
    fields_read := fun pool hpool =>
      MemberTable.reads_add (hheld.fields_read pool hpool) (hread pool hpool) }

/-- A draft to which the written form of a method is added holds the method. -/
theorem Holds.addMethod (hdraft : draft.Holds content) {method : Method} (hfits : method.Fits)
    {body : Option MethodBody} {bytes : List UInt8} {pool : PoolBuilder}
    (hentry : memberEntry method.flags method.name method.descriptor
      (encodeMethodAttributes method body) draft.pool = .ok bytes pool) :
    (changeTable .method (·.add bytes) { draft with pool }).Holds { content with
      methods := content.methods ++ [(method.writtenWith draft.pool body, body)] } := by
  obtain ⟨hvalid, hgrown, hread⟩ := Method.reads_entry hfits hdraft.valid hentry
  have hheld := hdraft.grow hvalid hgrown
  refine { hheld with methods_read := fun pool hpool => ?_ }
  obtain ⟨methods, hshown, hmethods⟩ := hheld.methods_read pool hpool
  obtain ⟨hcode, hmethod⟩ := hread pool hpool
  refine ⟨methods ++ [method.writtenWith draft.pool body], ?_,
    MemberTable.reads_add hmethods hmethod⟩
  exact List.rel_append hshown (List.Forall₂.cons ⟨rfl, hcode⟩ List.Forall₂.nil)

/-- A written method is added behind those that are there, with the code of its
body. -/
theorem Holds.writeMethod (hdraft : draft.Holds content) {method : Method} (hfits : method.Fits)
    {body : Option MethodBody} (hrun : writeMethod method body draft = .ok () grown) :
    grown.Holds { content with
      methods := content.methods ++ [(method.writtenWith draft.pool body, body)] } := by
  obtain ⟨bytes, pool, hentry, rfl⟩ := writeMember_eq_ok hrun
  exact hdraft.addMethod hfits hentry

/-! ## The finished class -/

/-- The attributes of a class are read back. -/
theorem readIn_ofClass
    (hvisible : Annotation.tableSize draft.visibleAnnotations.toList < UInt32.size)
    (hinvisible : Annotation.tableSize draft.invisibleAnnotations.toList < UInt32.size)
    {item : Attribute} (hitem : item ∈ draft.attributes) :
    item.ReadIn Attribute.ofClass := by
  rw [attributes, List.mem_append] at hitem
  rcases hitem with hcommon | hinner
  · exact Attribute.readIn_common Attribute.ofClass_eq_ofDeclaration hvisible hinvisible hcommon
  · cases hempty : draft.innerClasses.isEmpty with
    | true => simp [hempty] at hinner
    | false =>
      obtain rfl : item = .innerClasses draft.innerClasses.toList := by
        simpa [hempty] using hinner
      exact Attribute.readIn_innerClasses (fun _ => rfl) draft.innerClasses.toList

/-- The attributes of a class give back what is not a header or a member. -/
theorem foldl_attributes (header : ClassHeader) (fields : List Field) (methods : List Method)
    (pool : Pool) :
    draft.attributes.foldl ClassFile.withAttribute { header, fields, methods, pool } =
      { header, signature := draft.signature, deprecated := draft.deprecated, fields, methods,
        innerClasses := draft.innerClasses.toList
        visibleAnnotations := draft.visibleAnnotations.toList
        invisibleAnnotations := draft.invisibleAnnotations.toList, pool } := by
  rw [attributes, List.foldl_append, ClassFile.foldl_common]
  cases hempty : draft.innerClasses.isEmpty with
  | true =>
    have hnone : draft.innerClasses.toList = [] := by simpa using hempty
    rw [if_pos rfl, hnone]
    rfl
  | false =>
    rw [if_neg Bool.false_ne_true]
    rfl

/-- The written form of a header with its pool. -/
def headerBytes (draft : ClassDraft) (pool : PoolBuilder) : List UInt8 :=
  Bytes.u32 classMagic ++ (Bytes.u16 draft.version.minor ++ (Bytes.u16 draft.version.major ++
    (pool.bytes ++ (Bytes.u16 draft.flags ++ (Bytes.u16 draft.thisClass ++
      (Bytes.u16 draft.superClass ++ (Bytes.u16 (UInt16.ofNat draft.interfaces.length) ++
        draft.interfaces.flatMap Bytes.u16)))))))

/-- The header of a finished class is read back, with the pool of the draft. -/
theorem Holds.reads_header (hdraft : draft.Holds content)
    (hversion : content.header.version.Supported)
    (hinterfaces : draft.interfaces.length ≤ maxWord) :
    ClassHeader.decodeWithPool.Reads (draft.headerBytes draft.pool)
      (content.header, draft.pool.pool) := by
  obtain ⟨hname, hsuper, hread⟩ :=
    hdraft.header_named draft.pool.pool draft.pool.holds_pool
  apply (reads_u32 classMagic).bind
  rw [if_neg (by simp)]
  apply (reads_u16 draft.version.minor).bind
  apply (reads_u16 draft.version.major).bind
  have hsupported : ¬(draft.version.major.toNat < supportedVersions.1 ∨
      supportedVersions.2 < draft.version.major.toNat) := by
    rw [hdraft.version_eq]
    exact not_or.2 ⟨Nat.not_lt.2 hversion.1, Nat.not_lt.2 hversion.2⟩
  rw [if_neg hsupported]
  apply (PoolBuilder.reads_pool hdraft.valid).bind
  apply (reads_u16 draft.flags).bind
  refine Reads.lookup hname (Reads.lookup hsuper ?_)
  have hheader := (hread.counted hinterfaces).map fun interfaces =>
    (ClassHeader.mk draft.version draft.flags content.header.name content.header.superName
      interfaces, draft.pool.pool)
  have hsame : ClassHeader.mk draft.version draft.flags content.header.name
      content.header.superName content.header.interfaces = content.header := by
    rw [hdraft.version_eq, hdraft.flags_eq]
  rw [hsame] at hheader
  exact hheader

/-- A finished class is its header, its two tables of members and its table of
attributes, and all counts are words. -/
theorem complete_eq_ok {bytes : List UInt8} (hrun : draft.complete = .ok bytes) :
    ∃ table pool, Attribute.encodeTable draft.attributes draft.pool = .ok table pool ∧
      draft.interfaces.length ≤ maxWord ∧ draft.fields.count ≤ maxWord ∧
      draft.methods.count ≤ maxWord ∧
      bytes = headerBytes { draft with pool } pool ++
        (Bytes.u16 (UInt16.ofNat draft.fields.count) ++ (draft.fields.encoded.toList ++
          (Bytes.u16 (UInt16.ofNat draft.methods.count) ++
            (draft.methods.encoded.toList ++ table)))) := by
  unfold ClassDraft.complete at hrun
  cases hencoded : (Attribute.encodeTable draft.attributes).run draft.pool with
  | error cause stopped => simp [hencoded] at hrun
  | ok table pool =>
    rw [hencoded] at hrun
    simp only [bind_eq_ok] at hrun
    rcases hrun with ⟨interfaceCount, hinterfaces, fieldCount, hfields, methodCount, hmethods, hrun⟩
    obtain ⟨hinterfaceCount, rfl⟩ := tableLength_eq_ok hinterfaces
    obtain ⟨hfieldCount, rfl⟩ := tableLength_eq_ok hfields
    obtain ⟨hmethodCount, rfl⟩ := tableLength_eq_ok hmethods
    cases hrun
    refine ⟨table, pool, hencoded, hinterfaceCount, hfieldCount, hmethodCount, ?_⟩
    simp only [headerBytes, List.append_assoc]

/-- A finished draft decodes to a class that shows what was written. -/
theorem Holds.complete (hdraft : draft.Holds content)
    (hversion : content.header.version.Supported)
    (hvisible : Annotation.tableSize content.visibleAnnotations < UInt32.size)
    (hinvisible : Annotation.tableSize content.invisibleAnnotations < UInt32.size)
    {bytes : List UInt8} (hrun : draft.complete = .ok bytes) :
    ∃ file, ClassFile.decode bytes = .ok file ∧ file.Shows content ∧
      ClassHeader.decode bytes = .ok content.header := by
  obtain ⟨table, pool, htable, hinterfaces, hfields, hmethods, rfl⟩ := complete_eq_ok hrun
  rw [← hdraft.visibleAnnotations_eq] at hvisible
  rw [← hdraft.invisibleAnnotations_eq] at hinvisible
  have hyields := Attribute.yields_encodeTable fun item hitem =>
    readIn_ofClass hvisible hinvisible hitem
  obtain ⟨hvalid, hgrown, hread⟩ := hyields draft.pool table pool hdraft.valid htable
  -- The attributes still intern, so everything is read in the pool behind them.
  have hheld := hdraft.grow hvalid hgrown
  have hpool := pool.holds_pool
  have hheader := hheld.reads_header hversion hinterfaces
  obtain ⟨methods, hshown, hmethodsRead⟩ := hheld.methods_read pool.pool hpool
  have hfile := ClassFile.decode_eq_ok hheader hfields (hheld.fields_read pool.pool hpool)
    hmethods hmethodsRead (hread pool.pool hpool)
  rw [foldl_attributes] at hfile
  refine ⟨_, hfile, ?_, ClassHeader.decode_eq_ok hheader _⟩
  exact {
    header_eq := rfl
    signature_eq := hdraft.signature_eq
    deprecated_eq := hdraft.deprecated_eq
    visibleAnnotations_eq := hdraft.visibleAnnotations_eq
    invisibleAnnotations_eq := hdraft.invisibleAnnotations_eq
    innerClasses_eq := hdraft.innerClasses_eq
    fields_eq := rfl
    methods_show := hshown }

end ClassDraft

end ClassStub
