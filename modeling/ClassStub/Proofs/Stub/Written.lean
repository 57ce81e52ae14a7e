import ClassStub.Api.Stub
import ClassStub.Proofs.Codec.Draft

/-!
# Stubs, written and read

Writing a surface declares its methods behind a helper, each with the
instructions of its kind.  A written stub decodes to a class that shows exactly
these declarations, whose code disassembles to these instructions
(`Stub.decode_write`).
-/

namespace ClassStub.Stub

/-- A declared method and its instructions; an abstract one has none. -/
abbrev Declaration := Method × Option (List Instruction)

/-- The instructions of a method of a surface. -/
def instructions (header : ClassHeader) (method : Method) : Option (List Instruction) :=
  if method.flags.has .accAbstract then none else some (failingCode header)

/-- The methods of a stub: a helper unless the stub is an interface, then the
methods of the surface. -/
def declarations (surface : Surface) : List Declaration :=
  (if surface.header.isInterface then [] else [(helper, some helperCode)]) ++
    surface.methods.map fun one => (method one, instructions surface.header (method one))

/-- A declared method is written with the body that its instructions make. -/
def HasBody (declared : Declaration) (written : Method × Option MethodBody) : Prop :=
  written.1 = { declared.1 with code := written.1.code } ∧ Option.Rel (fun instructions body =>
    MethodBody.ofInstructions instructions declared.1.descriptor declared.1.isStatic = .ok body)
      declared.2 written.2

/-- What a stub shows of a declared method: all but the code is as declared, and
the code is that of its instructions. -/
def Declares (pool : Pool) (declared : Declaration) (method : Method) : Prop :=
  ∃ code, method = { declared.1 with code } ∧ Option.Rel (fun instructions code =>
    ∃ body, MethodBody.ofInstructions instructions declared.1.descriptor declared.1.isStatic =
      .ok body ∧ body.WrittenAs pool code) declared.2 code

/-! ## Bodies -/

variable {draft grown : ClassDraft}

/-- Computing the limits of a body leaves the draft as it is. -/
theorem body_eq_ok {instructions : List Instruction} {method : Method} {made : MethodBody}
    (hrun : body instructions method draft = .ok made grown) :
    MethodBody.ofInstructions instructions method.descriptor method.isStatic = .ok made ∧
      grown = draft := by
  unfold body at hrun
  cases hmade : MethodBody.ofInstructions instructions method.descriptor method.isStatic with
  | error cause =>
    rw [hmade] at hrun
    cases hrun
  | ok other =>
    rw [hmade] at hrun
    cases hrun
    exact ⟨rfl, rfl⟩

/-- The helper is written with the body that its code is given. -/
theorem writeHelper_eq_ok (hrun : writeHelper draft = .ok () grown) :
    ∃ written, HasBody (helper, some helperCode) (helper.writtenWith draft.pool written, written) ∧
      ClassDraft.writeMethod helper written draft = .ok () grown := by
  obtain ⟨made, between, hbody, hwrite⟩ := exists_between hrun
  obtain ⟨hmade, rfl⟩ := body_eq_ok hbody
  exact ⟨some made, ⟨rfl, Option.Rel.some hmade⟩, hwrite⟩

/-- A method is written with the body that its instructions are given, if it has
any. -/
theorem writeMethod_eq_ok {header : ClassHeader} {method : Method}
    (hrun : writeMethod header method draft = .ok () grown) :
    ∃ written,
      HasBody (method, instructions header method)
        (method.writtenWith draft.pool written, written) ∧
      ClassDraft.writeMethod method written draft = .ok () grown := by
  unfold writeMethod at hrun
  by_cases habstract : method.flags.has .accAbstract
  · rw [if_pos habstract] at hrun
    refine ⟨none, ⟨rfl, ?_⟩, hrun⟩
    rw [instructions, if_pos habstract]
    exact Option.Rel.none
  · rw [if_neg habstract] at hrun
    obtain ⟨made, between, hbody, hwrite⟩ := exists_between hrun
    obtain ⟨hmade, rfl⟩ := body_eq_ok hbody
    refine ⟨some made, ⟨rfl, ?_⟩, hwrite⟩
    rw [instructions, if_neg habstract]
    exact Option.Rel.some hmade

/-! ## Members and records, one after another -/

variable {content : ClassContent}

/-- Written methods are behind those that the draft held. -/
theorem holds_methods {header : ClassHeader} {methods : List SurfaceMethod}
    (hfits : ∀ one ∈ methods, (method one).Fits) (hdraft : draft.Holds content)
    (hrun : (methods.forM fun one => writeMethod header (method one)) draft = .ok () grown) :
    ∃ written, List.Forall₂ HasBody
        (methods.map fun one => (method one, instructions header (method one))) written ∧
      grown.Holds { content with methods := content.methods ++ written } := by
  induction methods generalizing draft content with
  | nil =>
    cases hrun
    refine ⟨[], List.Forall₂.nil, ?_⟩
    rw [List.append_nil]
    exact hdraft
  | cons one methods ih =>
    obtain ⟨_, between, hfirst, hmore⟩ := exists_between hrun
    obtain ⟨body, hbody, hwrite⟩ := writeMethod_eq_ok hfirst
    have hbetween := hdraft.writeMethod (hfits one (List.mem_cons_self ..)) hwrite
    obtain ⟨written, hbodies, hgrown⟩ :=
      ih (fun other hother => hfits other (List.mem_cons_of_mem one hother)) hbetween hmore
    refine ⟨((method one).writtenWith draft.pool body, body) :: written,
      List.Forall₂.cons hbody hbodies, ?_⟩
    rw [List.append_assoc] at hgrown
    exact hgrown

theorem holds_fields {fields : List SurfaceField} (hfits : ∀ one ∈ fields, (field one).Fits)
    (hdraft : draft.Holds content)
    (hrun : (fields.forM fun one => ClassDraft.writeField (field one)) draft = .ok () grown) :
    grown.Holds { content with fields := content.fields ++ fields.map field } := by
  induction fields generalizing draft content with
  | nil =>
    cases hrun
    rw [List.map_nil, List.append_nil]
    exact hdraft
  | cons one fields ih =>
    obtain ⟨_, between, hfirst, hmore⟩ := exists_between hrun
    have hconstant : (field one).constantValue = none := rfl
    have hbetween :=
      hdraft.writeField (by simp [hconstant]) (hfits one (List.mem_cons_self ..)) hfirst
    have hgrown :=
      ih (fun other hother => hfits other (List.mem_cons_of_mem one hother)) hbetween hmore
    rw [List.append_assoc] at hgrown
    exact hgrown

theorem holds_innerClasses {records : List InnerClass} (hdraft : draft.Holds content)
    (hrun : (records.forM fun record => modify (·.listInnerClass record) : Writing Unit) draft =
      .ok () grown) :
    grown.Holds { content with innerClasses := content.innerClasses ++ records } := by
  induction records generalizing draft content with
  | nil =>
    cases hrun
    rw [List.append_nil]
    exact hdraft
  | cons record records ih =>
    obtain ⟨_, between, hfirst, hmore⟩ := exists_between hrun
    cases hfirst
    have hgrown := ih (hdraft.listInnerClass record) hmore
    rw [List.append_assoc] at hgrown
    exact hgrown

/-! ## Surfaces -/

/-- A surface that can be written: its version is supported, and its annotations
fit into frames. -/
structure SurfaceFits (surface : Surface) : Prop where
  version : surface.header.version.Supported
  visible : Annotation.tableSize (Retained.select true surface.annotations) < UInt32.size
  invisible : Annotation.tableSize (Retained.select false surface.annotations) < UInt32.size
  methods : ∀ one ∈ surface.methods, (method one).Fits
  fields : ∀ one ∈ surface.fields, (field one).Fits

theorem helper_fits : helper.Fits :=
  ⟨by decide, by decide, by simp [helper], by simp [helper], by simp [helper]⟩

/-- What a stub is written to contain. -/
structure Content (surface : Surface) (content : ClassContent) : Prop where
  header_eq : content.header = surface.header
  signature_eq : content.signature = surface.signature
  deprecated_eq : content.deprecated = surface.deprecated
  visible_eq : content.visibleAnnotations = Retained.select true surface.annotations
  invisible_eq : content.invisibleAnnotations = Retained.select false surface.annotations
  innerClasses_eq : content.innerClasses = surface.innerClasses
  fields_eq : content.fields = surface.fields.map field
  methods_declared : List.Forall₂ HasBody (declarations surface) content.methods

/-- A surface is written in seven steps. -/
theorem writeSurface_eq (surface : Surface) :
    writeSurface surface = (do
      (if surface.header.isInterface then pure () else writeHelper : Writing Unit)
      (if surface.deprecated then modify ClassDraft.markDeprecated else pure () : Writing Unit)
      (modify (·.annotate true (Retained.select true surface.annotations)) : Writing Unit)
      (modify (·.annotate false (Retained.select false surface.annotations)) : Writing Unit)
      (surface.methods.forM fun one => writeMethod surface.header (method one) : Writing Unit)
      (surface.fields.forM fun one => ClassDraft.writeField (field one) : Writing Unit)
      (surface.innerClasses.forM fun record =>
        modify (·.listInnerClass record) : Writing Unit)) := by
  unfold writeSurface
  cases surface.header.isInterface with
  | true => cases surface.deprecated <;> rfl
  | false => cases surface.deprecated <;> rfl

/-- The helper of a class is behind the methods that the draft held. -/
theorem holds_helper {header : ClassHeader} (hdraft : draft.Holds content)
    (hrun : (if header.isInterface then pure () else writeHelper : Writing Unit) draft =
      .ok () grown) :
    ∃ written, List.Forall₂ HasBody
        (if header.isInterface then [] else [(helper, some helperCode)]) written ∧
      grown.Holds { content with methods := content.methods ++ written } := by
  cases hinterface : header.isInterface with
  | true =>
    rw [hinterface] at hrun
    cases hrun
    refine ⟨[], List.Forall₂.nil, ?_⟩
    rw [List.append_nil]
    exact hdraft
  | false =>
    rw [hinterface] at hrun
    obtain ⟨body, hbody, hwrite⟩ := writeHelper_eq_ok hrun
    exact ⟨[(helper.writtenWith draft.pool body, body)],
      List.Forall₂.cons hbody List.Forall₂.nil, hdraft.writeMethod helper_fits hwrite⟩

/-- The mark is held exactly if it was written. -/
theorem holds_deprecated {deprecated : Bool} (hdraft : draft.Holds content)
    (hnew : content.deprecated = false)
    (hrun : (if deprecated then modify ClassDraft.markDeprecated
      else pure () : Writing Unit) draft = .ok () grown) :
    grown.Holds { content with deprecated } := by
  cases deprecated with
  | true =>
    cases hrun
    exact hdraft.markDeprecated
  | false =>
    cases hrun
    rw [← hnew]
    exact hdraft

/-- Writing a surface leaves a draft that holds it. -/
theorem holds_surface {surface : Surface} (hfits : SurfaceFits surface)
    (hdraft : draft.Holds { header := surface.header, signature := surface.signature })
    (hrun : writeSurface surface draft = .ok () grown) :
    ∃ content, grown.Holds content ∧ Content surface content := by
  rw [writeSurface_eq] at hrun
  obtain ⟨_, helped, hhelper, hrun⟩ := exists_between hrun
  obtain ⟨_, marked, hdeprecated, hrun⟩ := exists_between hrun
  obtain ⟨_, seen, hvisible, hrun⟩ := exists_between hrun
  obtain ⟨_, annotated, hinvisible, hrun⟩ := exists_between hrun
  obtain ⟨_, withMethods, hmethods, hrun⟩ := exists_between hrun
  obtain ⟨_, withFields, hfields, hrecords⟩ := exists_between hrun
  cases hvisible
  cases hinvisible
  obtain ⟨helpers, hhelpers, hhelped⟩ := holds_helper hdraft hhelper
  have hmarked := holds_deprecated hhelped rfl hdeprecated
  have hseen := hmarked.annotate_visible (Retained.select true surface.annotations)
  have hannotated := hseen.annotate_invisible (Retained.select false surface.annotations)
  obtain ⟨methods, hbodies, hwithMethods⟩ := holds_methods hfits.methods hannotated hmethods
  have hwithFields := holds_fields hfits.fields hwithMethods hfields
  refine ⟨_, holds_innerClasses hwithFields hrecords, ?_⟩
  exact {
    header_eq := rfl
    signature_eq := rfl
    deprecated_eq := rfl
    visible_eq := List.nil_append _
    invisible_eq := List.nil_append _
    innerClasses_eq := List.nil_append _
    fields_eq := List.nil_append _
    methods_declared := List.rel_append hhelpers hbodies }

/-- What a decoded stub shows of a surface. -/
structure Shows (file : ClassFile) (surface : Surface) : Prop where
  header_eq : file.header = surface.header
  signature_eq : file.signature = surface.signature
  deprecated_eq : file.deprecated = surface.deprecated
  visible_eq : file.visibleAnnotations = Retained.select true surface.annotations
  invisible_eq : file.invisibleAnnotations = Retained.select false surface.annotations
  innerClasses_eq : file.innerClasses = surface.innerClasses
  fields_eq : file.fields = surface.fields.map field
  methods_declared : List.Forall₂ (Declares file.pool) (declarations surface) file.methods

/-- A method that is shown with its body is declared with its instructions. -/
theorem declares_of_shows {pool : Pool} {declared : Declaration}
    {written : Method × Option MethodBody} {method : Method} (hbody : HasBody declared written)
    (hshown : MethodShows pool written method) : Declares pool declared method := by
  obtain ⟨declaredMethod, declaredCode⟩ := declared
  obtain ⟨writtenMethod, writtenBody⟩ := written
  rcases hbody with ⟨hmethod, hmade⟩
  rcases hshown with ⟨rfl, hcode⟩
  refine ⟨method.code, hmethod, ?_⟩
  revert hcode
  generalize method.code = code
  intro hcode
  cases hcode with
  | none =>
    cases hmade
    exact Option.Rel.none
  | some hwritten =>
    cases hmade with
    | some hbody => exact Option.Rel.some ⟨_, hbody, hwritten⟩

/-- So are all methods that are shown, one by one. -/
theorem forall₂_declares {pool : Pool} {declared : List Declaration}
    {written : List (Method × Option MethodBody)} {methods : List Method}
    (hbodies : List.Forall₂ HasBody declared written)
    (hshown : List.Forall₂ (MethodShows pool) written methods) :
    List.Forall₂ (Declares pool) declared methods := by
  induction hbodies generalizing methods with
  | nil =>
    cases hshown
    exact List.Forall₂.nil
  | cons hbody _ ih =>
    cases hshown with
    | cons hmethod hmore => exact List.Forall₂.cons (declares_of_shows hbody hmethod) (ih hmore)

/-- A written stub decodes to a class that shows the surface. -/
theorem decode_write {surface : Surface} (hfits : SurfaceFits surface) {bytes : List UInt8}
    (hwrite : write surface = .ok bytes) :
    ∃ file, ClassFile.decode bytes = .ok file ∧ Shows file surface ∧
      ClassHeader.decode bytes = .ok surface.header := by
  unfold write at hwrite
  rw [bind_eq_ok] at hwrite
  rcases hwrite with ⟨draft, hstart, hwrite⟩
  cases hrun : (writeSurface surface).run draft with
  | error cause stopped =>
    rw [hrun] at hwrite
    cases hwrite
  | ok _ grown =>
    rw [hrun] at hwrite
    obtain ⟨content, hgrown, hcontent⟩ :=
      holds_surface hfits (ClassDraft.holds_start hstart) hrun
    have hversion : content.header.version.Supported := hcontent.header_eq ▸ hfits.version
    have hvisible := hcontent.visible_eq ▸ hfits.visible
    have hinvisible := hcontent.invisible_eq ▸ hfits.invisible
    obtain ⟨file, hfile, hshown, hheader⟩ :=
      hgrown.complete hversion hvisible hinvisible hwrite
    refine ⟨file, hfile, ?_, hcontent.header_eq ▸ hheader⟩
    exact {
      header_eq := hshown.header_eq.trans hcontent.header_eq
      signature_eq := hshown.signature_eq.trans hcontent.signature_eq
      deprecated_eq := hshown.deprecated_eq.trans hcontent.deprecated_eq
      visible_eq := hshown.visibleAnnotations_eq.trans hcontent.visible_eq
      invisible_eq := hshown.invisibleAnnotations_eq.trans hcontent.invisible_eq
      innerClasses_eq := hshown.innerClasses_eq.trans hcontent.innerClasses_eq
      fields_eq := hshown.fields_eq.trans hcontent.fields_eq
      methods_declared := forall₂_declares hcontent.methods_declared hshown.methods_show }

end ClassStub.Stub
