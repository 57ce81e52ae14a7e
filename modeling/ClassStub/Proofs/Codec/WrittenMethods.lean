import ClassStub.Proofs.Codec.Layout
import ClassStub.Proofs.Codec.Script

/-!
# Written methods

Nothing keeps a field that is written from having a constant value that its type
does not have.  Such a class may be read differently or not at all, yet what was
written for a field takes the same bytes whatever it means
(`Field.yields_framed_entry`).  So if the class decodes, its methods are those
that were written (`ClassScript.methods_of_decode`).
-/

namespace ClassStub

open Decoder Encoder

/-! ## Bytes with an outcome -/

namespace Decoder

variable {α : Type}

/-- Bytes that a decoder either refuses or consumes exactly. -/
def Framed (decoder : Decoder α) (bytes : List UInt8) : Prop :=
  ∃ outcome, decoder.Denotes bytes outcome

/-- Bytes that are read as a value are framed. -/
theorem Framed.of_reads {decoder : Decoder α} {bytes : List UInt8} {value : α}
    (hread : decoder.Reads bytes value) : decoder.Framed bytes :=
  ⟨some value, Denotes.of_reads hread⟩

/-- Making something of what is read leaves bytes framed. -/
theorem Framed.map {β : Type} {decoder : Decoder α} {bytes : List UInt8}
    (hframed : decoder.Framed bytes) (f : α → β) : Framed (do return f (← decoder)) bytes := by
  obtain ⟨outcome, hdenotes⟩ := hframed
  exact ⟨outcome.map f, hdenotes.map f⟩

/-- One more item before the others is framed with them. -/
theorem Framed.repeated_cons {item : Decoder α} {count : Nat} {bytes more : List UInt8}
    (hfirst : item.Framed bytes) (hmore : (repeated item count).Framed more) :
    (repeated item (count + 1)).Framed (bytes ++ more) := by
  obtain ⟨outcome, hfirst⟩ := hfirst
  obtain ⟨others, hmore⟩ := hmore
  exact ⟨_, hfirst.bind fun value _ => hmore.map (value :: ·)⟩

/-- One more item behind the others is framed with them. -/
theorem Framed.repeated_concat {item : Decoder α} {count : Nat} {bytes more : List UInt8}
    (hfirst : (repeated item count).Framed bytes) (hlast : item.Framed more) :
    (repeated item (count + 1)).Framed (bytes ++ more) := by
  have hsingle := hlast.repeated_cons (Framed.of_reads (Reads.repeated_nil item))
  rw [List.append_nil] at hsingle
  obtain ⟨outcome, hfirst⟩ := hfirst
  obtain ⟨last, hsingle⟩ := hsingle
  rw [repeated_add]
  exact ⟨_, hfirst.bind fun values _ => hsingle.map (values ++ ·)⟩

/-- A decoder that succeeds on framed bytes has consumed them. -/
theorem Framed.exists_run_bind {β : Type} {first : Decoder α} {next : α → Decoder β}
    {bytes rest : List UInt8} (hframed : first.Framed bytes) {position : Nat} {result : β}
    {after : Cursor}
    (hrun : (first >>= next) { position, rest := bytes ++ rest } = .ok result after) :
    ∃ value, next value { position := position + bytes.length, rest } = .ok result after := by
  obtain ⟨outcome, hdenotes⟩ := hframed
  cases outcome with
  | none =>
    obtain ⟨cause, stopped, hfails⟩ := hdenotes.fails rfl position rest
    obtain ⟨value, between, hfirst, _⟩ := exists_between hrun
    rw [hfails] at hfirst
    cases hfirst
  | some value =>
    rw [(hdenotes.reads value rfl).run_bind] at hrun
    exact ⟨value, hrun⟩

/-- The index of something that is found goes before the bytes of the rest. -/
theorem Denotes.lookup_bind {β : Type} {find : UInt16 → Except FormatError α} {index : UInt16}
    {value : α} {next : α → Decoder β} {bytes : List UInt8} {outcome : Option β}
    (hfound : find index = .ok value) (hnext : (next value).Denotes bytes outcome) :
    Denotes (do next (← find (← Reader.u16))) (Bytes.u16 index ++ bytes) outcome := by
  refine Denotes.reads_bind (reads_u16 index) ?_
  rw [hfound]
  exact hnext

end Decoder

/-! ## Fields -/

namespace Attribute

variable {place : Pool → Recognition Attribute}

/-- Whatever constant is interned, it gets an index. -/
theorem yields_internConstant_index (value : ConstantValue) :
    (internConstant value).Yields fun _ _ => True := by
  cases value with
  | byte number | char number | short number | boolean number | int number =>
    exact (PoolBuilder.yields_integer number).mono fun _ _ _ => trivial
  | long number => exact (PoolBuilder.yields_long number).mono fun _ _ _ => trivial
  | float bits => exact (PoolBuilder.yields_float bits).mono fun _ _ _ => trivial
  | double bits => exact (PoolBuilder.yields_double bits).mono fun _ _ _ => trivial
  | string text =>
    refine (PoolBuilder.yields_javaText text).bind fun content => ?_
    exact (@PoolBuilder.yields_intern (.string content) trivial).mono fun _ _ _ _ => trivial
  | classLiteral name => exact (PoolBuilder.yields_classRef name).mono fun _ _ _ => trivial

/-- The value of a constant stands in its frame, whether it suits the place or
not. -/
theorem yields_framed_constantValue (value : ConstantValue) :
    (encode (constantValue value)).Yields fun pool bytes =>
      (decodeEntry pool (place pool)).Framed bytes := by
  refine (yields_internConstant_index value).bind fun index => ?_
  refine (PoolBuilder.yields_utf8 constantValueName).bind fun name => ?_
  refine Yields.pure fun pool _ _ => ?_
  have hfits : AttributeLayout.Fits { name, body := Bytes.u16 index } := by
    rw [AttributeLayout.Fits, Bytes.length_u16]
    decide
  have hlayout := AttributeLayout.denotes pool (place pool) hfits
  rw [AttributeLayout.bytes, ← List.append_assoc] at hlayout
  exact ⟨_, hlayout⟩

/-- A table is framed if all of its attributes are. -/
theorem yields_framed_table {items : List Attribute}
    (hitems : ∀ item ∈ items, item.encode.Yields fun pool bytes =>
      (decodeEntry pool (place pool)).Framed bytes) :
    (encodeTable items).Yields fun pool bytes => (decodeTable pool (place pool)).Framed bytes := by
  have hrow : (Encoder.concat encode items).Yields fun pool bytes =>
      (repeated (decodeEntry pool (place pool)) items.length).Framed bytes := by
    refine Yields.concat (fun pool items bytes =>
      (repeated (decodeEntry pool (place pool)) items.length).Framed bytes) ?_ ?_ items hitems
    · exact fun pool => Framed.of_reads (Reads.repeated_nil _)
    · exact fun pool item bytes items more hfirst hmore => hfirst.repeated_cons hmore
  refine hrow.bind fun body => ?_
  apply (Encoder.yields_tableLength items.length).map _
  intro pool count hlength hframed
  obtain ⟨hcount, rfl⟩ := hlength
  obtain ⟨outcome, hdenotes⟩ := hframed.map (List.filterMap id)
  refine ⟨outcome, Denotes.reads_bind (reads_u16 _) ?_⟩
  rw [toNat_ofNat_count hcount]
  exact hdenotes

end Attribute

/-- What is written for a field is read as a field or refused. -/
theorem Field.yields_framed_entry {field : Field} (hfits : field.Fits) :
    (memberEntry field.flags field.name field.descriptor
      (Attribute.encodeTable field.attributes)).Yields fun pool bytes =>
        (Field.decode pool).Framed bytes := by
  have hitems : ∀ item ∈ field.attributes, item.encode.Yields fun pool bytes =>
      (Attribute.decodeEntry pool (Attribute.ofField pool field.descriptor)).Framed bytes := by
    intro item hitem
    rw [Field.attributes, List.mem_append] at hitem
    rcases hitem with hvalue | hcommon
    · cases hcase : field.constantValue with
      | none => simp [hcase] at hvalue
      | some value =>
        obtain rfl : item = .constantValue value := by simpa [hcase] using hvalue
        exact Attribute.yields_framed_constantValue value
    · have hread := Attribute.readIn_common
        (fun pool => Attribute.ofField_eq_ofDeclaration pool field.descriptor)
        hfits.visible hfits.invisible hcommon
      exact hread.mono fun _ _ => Framed.of_reads
  apply (yields_memberEntry field.flags field.name field.descriptor
    (Attribute.yields_framed_table hitems)).mono
  intro pool bytes hentry
  obtain ⟨nameIndex, descriptorIndex, table, hname, hdescriptor, hframed, rfl⟩ := hentry
  obtain ⟨outcome, hdenotes⟩ := hframed.map fun attributes => attributes.foldl withAttribute
    { flags := field.flags, name := field.name, descriptor := field.descriptor }
  refine ⟨outcome, Denotes.reads_bind (reads_u16 _) ?_⟩
  exact Denotes.lookup_bind hname (Denotes.lookup_bind hdescriptor hdenotes)

/-! ## Drafts -/

namespace ClassDraft

variable {draft grown : ClassDraft} {content : ClassContent}

/-- A draft carries what it holds without its fields, and its fields are framed. -/
structure Carries (draft : ClassDraft) (content : ClassContent) : Prop where
  held : { draft with fields := {} }.Holds content
  framed : ∀ pool : Pool, pool.Holds draft.pool →
    (repeated (Field.decode pool) draft.fields.count).Framed draft.fields.encoded.toList

/-- A draft carries the header and the signature that it was started with. -/
theorem carries_start {header : ClassHeader} {signature : Option String}
    (hstart : start header signature = .ok draft) : draft.Carries { header, signature } := by
  have hheld := holds_start hstart
  unfold start at hstart
  split at hstart
  · cases hstart
  · cases hstart
    exact {
      held := hheld
      framed := fun _ _ => Framed.of_reads (Reads.repeated_nil _) }

/-- A draft that is marked carries the mark. -/
theorem Carries.markDeprecated (hdraft : draft.Carries content) :
    draft.markDeprecated.Carries { content with deprecated := true } where
  held := hdraft.held.markDeprecated
  framed := hdraft.framed

/-- A draft carries visible annotations behind those before. -/
theorem Carries.annotate_visible (hdraft : draft.Carries content) (table : List Annotation) :
    (draft.annotate true table).Carries
      { content with visibleAnnotations := content.visibleAnnotations ++ table } where
  held := hdraft.held.annotate_visible table
  framed := hdraft.framed

theorem Carries.annotate_invisible (hdraft : draft.Carries content) (table : List Annotation) :
    (draft.annotate false table).Carries
      { content with invisibleAnnotations := content.invisibleAnnotations ++ table } where
  held := hdraft.held.annotate_invisible table
  framed := hdraft.framed

theorem Carries.listInnerClass (hdraft : draft.Carries content) (record : InnerClass) :
    (draft.listInnerClass record).Carries
      { content with innerClasses := content.innerClasses ++ [record] } where
  held := hdraft.held.listInnerClass record
  framed := hdraft.framed

/-- A field takes nothing away from what a draft carries. -/
theorem Carries.writeField (hdraft : draft.Carries content) {field : Field} (hfits : field.Fits)
    (hrun : writeField field draft = .ok () grown) : grown.Carries content := by
  obtain ⟨bytes, pool, hentry, rfl⟩ := writeMember_eq_ok hrun
  obtain ⟨hvalid, hgrown, hframed⟩ :=
    Field.yields_framed_entry hfits draft.pool bytes pool hdraft.held.valid hentry
  exact {
    held := hdraft.held.grow hvalid hgrown
    framed := by
      intro reader hreader
      have hlast := (hdraft.framed reader (hgrown.trans hreader)).repeated_concat
        (hframed reader hreader)
      rw [← Bytes.Buffer.toList_append] at hlast
      exact hlast }

/-- A draft carries a written method behind those before. -/
theorem Carries.writeMethod (hdraft : draft.Carries content) {method : Method}
    (hfits : method.Fits) {body : Option MethodBody}
    (hrun : writeMethod method body draft = .ok () grown) :
    grown.Carries { content with
      methods := content.methods ++ [(method.writtenWith draft.pool body, body)] } := by
  obtain ⟨bytes, pool, hentry, rfl⟩ := writeMember_eq_ok hrun
  have hgrown := (Method.reads_entry hfits hdraft.held.valid hentry).2.1
  exact {
    held := hdraft.held.addMethod hfits hentry
    framed := fun reader hreader => hdraft.framed reader (hgrown.trans hreader) }

end ClassDraft

namespace ClassStep

variable {draft grown : ClassDraft} {content : ClassContent}

/-- A step whose annotations are short enough for frames. -/
def Fits : ClassStep → Prop
  | writeField field => field.Fits
  | writeMethod method _ => method.Fits
  | _ => True

/-- Behind a step, a draft carries what the step adds. -/
theorem carries_perform {step : ClassStep} (hfits : step.Fits) (hdraft : draft.Carries content)
    (hrun : step.perform draft = .ok () grown) :
    grown.Carries { content with
      deprecated := content.deprecated || step.isMark
      visibleAnnotations := content.visibleAnnotations ++ step.annotations true
      invisibleAnnotations := content.invisibleAnnotations ++ step.annotations false
      innerClasses := content.innerClasses ++ step.innerClasses
      methods := content.methods ++ step.methods draft } := by
  cases step with
  | markDeprecated =>
    cases hrun
    simpa [isMark, annotations, innerClasses, methods] using hdraft.markDeprecated
  | annotate visible table =>
    cases hrun
    cases visible with
    | true =>
      simpa [isMark, annotations, innerClasses, methods] using hdraft.annotate_visible table
    | false =>
      simpa [isMark, annotations, innerClasses, methods] using hdraft.annotate_invisible table
  | listInnerClass record =>
    cases hrun
    simpa [isMark, annotations, innerClasses, methods] using hdraft.listInnerClass record
  | writeField field =>
    simpa [isMark, annotations, innerClasses, methods] using hdraft.writeField hfits hrun
  | writeMethod method body =>
    simpa [isMark, annotations, innerClasses, methods] using hdraft.writeMethod hfits hrun

/-- Behind several steps, a draft carries what all of them add. -/
theorem carries_forM {steps : List ClassStep} (hfits : ∀ step ∈ steps, step.Fits)
    (hdraft : draft.Carries content) (hrun : steps.forM perform draft = .ok () grown) :
    grown.Carries { content with
      deprecated := content.deprecated || steps.any isMark
      visibleAnnotations := content.visibleAnnotations ++ steps.flatMap (annotations true)
      invisibleAnnotations := content.invisibleAnnotations ++ steps.flatMap (annotations false)
      innerClasses := content.innerClasses ++ steps.flatMap innerClasses
      methods := content.methods ++ methodsFrom draft steps } := by
  induction steps generalizing draft content with
  | nil =>
    cases hrun
    simpa [methodsFrom] using hdraft
  | cons step steps ih =>
    obtain ⟨_, between, hfirst, hmore⟩ := exists_between hrun
    have hbetween := carries_perform (hfits step List.mem_cons_self) hdraft hfirst
    have hgrown := ih (fun other hother => hfits other (List.mem_cons_of_mem step hother))
      hbetween hmore
    simpa [methodsFrom, hfirst, Bool.or_assoc] using hgrown

end ClassStep

/-! ## Classes -/

theorem ClassFile.methods_foldl (file : ClassFile) (items : List Attribute) :
    (items.foldl withAttribute file).methods = file.methods := by
  induction items generalizing file with
  | nil => rfl
  | cons item items ih =>
    rw [List.foldl_cons, ih]
    cases item with
    | annotations visible table => cases visible <;> rfl
    | _ => rfl

/-- If a finished draft decodes, its methods are those that it carries. -/
theorem ClassDraft.Carries.methods_show {draft : ClassDraft} {content : ClassContent}
    (hdraft : draft.Carries content) (hversion : content.header.version.Supported)
    (hvisible : Annotation.tableSize content.visibleAnnotations < UInt32.size)
    (hinvisible : Annotation.tableSize content.invisibleAnnotations < UInt32.size)
    {bytes : List UInt8} (hrun : draft.complete = .ok bytes) {file : ClassFile}
    (hdecode : ClassFile.decode bytes = .ok file) :
    List.Forall₂ (MethodShows file.pool) content.methods file.methods := by
  obtain ⟨table, pool, htable, hinterfaces, hfieldCount, hmethodCount, rfl⟩ := complete_eq_ok hrun
  rw [← hdraft.held.visibleAnnotations_eq] at hvisible
  rw [← hdraft.held.invisibleAnnotations_eq] at hinvisible
  have hyields := Attribute.yields_encodeTable fun item hitem =>
    readIn_ofClass hvisible hinvisible hitem
  obtain ⟨hvalid, hgrown, _⟩ := hyields draft.pool table pool hdraft.held.valid htable
  have hheld := hdraft.held.grow hvalid hgrown
  have hheader := hheld.reads_header hversion hinterfaces
  obtain ⟨methods, hshown, hmethods⟩ := hheld.methods_read pool.pool pool.holds_pool
  have hfields := hdraft.framed pool.pool (hgrown.trans pool.holds_pool)
  have hcontents := ClassFile.decode_eq_ok_iff.1 hdecode 0 []
  rw [List.append_nil, ClassFile.contents] at hcontents
  replace hcontents := (hheader.run_bind _ _ _).symm.trans hcontents
  replace hcontents := ((reads_u16 _).run_bind _ _ _).symm.trans hcontents
  rw [toNat_ofNat_count hfieldCount] at hcontents
  obtain ⟨fields, hcontents⟩ := hfields.exists_run_bind hcontents
  replace hcontents := ((reads_u16 _).run_bind _ _ _).symm.trans hcontents
  rw [toNat_ofNat_count hmethodCount] at hcontents
  replace hcontents := (hmethods.run_bind _ _ _).symm.trans hcontents
  obtain ⟨items, _, _, hfile⟩ := exists_between hcontents
  cases hfile
  rw [ClassFile.methods_foldl, ClassFile.pool_foldl]
  exact hshown

/-! ## Scripts -/

namespace ClassScript

/-- A script whose version and lengths can be read.  Its fields may have any
constant values. -/
structure Fits (script : ClassScript) : Prop where
  version : script.header.version.Supported
  steps : ∀ step ∈ script.steps, step.Fits
  visible :
    Annotation.tableSize (script.steps.flatMap (ClassStep.annotations true)) < UInt32.size
  invisible :
    Annotation.tableSize (script.steps.flatMap (ClassStep.annotations false)) < UInt32.size

/-- If a written class decodes, its methods are those that the script writes. -/
theorem methods_of_decode {script : ClassScript} (hfits : script.Fits) {bytes : List UInt8}
    (hwrite : script.write = .ok bytes) {file : ClassFile}
    (hdecode : ClassFile.decode bytes = .ok file) :
    List.Forall₂ (MethodShows file.pool) script.methods file.methods := by
  rw [write, bind_eq_ok] at hwrite
  obtain ⟨draft, hstart, hwrite⟩ := hwrite
  cases hrun : script.steps.forM ClassStep.perform draft with
  | error cause stopped =>
    rw [hrun] at hwrite
    cases hwrite
  | ok _ grown =>
    rw [hrun] at hwrite
    have hgrown := ClassStep.carries_forM hfits.steps (ClassDraft.carries_start hstart) hrun
    rw [methods, hstart]
    exact hgrown.methods_show hfits.version hfits.visible hfits.invisible hwrite hdecode

end ClassScript

end ClassStub
