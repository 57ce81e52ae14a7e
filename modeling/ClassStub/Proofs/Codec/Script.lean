import Mathlib
import ClassStub.Proofs.Codec.Draft

/-!
# Whole runs of writing

A class is written from a script: a header, a signature, and any sequence of
steps that add to it.  Each step keeps what the draft holds and adds what it says
(`ClassStep.holds_perform`), hence so does the whole sequence
(`ClassStep.holds_forM`).  A script that can be written to the end decodes to a
class that shows just what its steps have added, in their order
(`ClassScript.decode_written`).
-/

namespace ClassStub

/-- A step of writing a class.  A method comes with the body that is written in
place of its code. -/
inductive ClassStep where
  | markDeprecated
  | annotate (visible : Bool) (table : List Annotation)
  | listInnerClass (record : InnerClass)
  | writeField (field : Field)
  | writeMethod (method : Method) (body : Option MethodBody)

namespace ClassStep

/-- What a step does to a draft. -/
def perform : ClassStep → Writing Unit
  | markDeprecated => modify ClassDraft.markDeprecated
  | annotate visible table => modify (·.annotate visible table)
  | listInnerClass record => modify (·.listInnerClass record)
  | writeField field => ClassDraft.writeField field
  | writeMethod method body => ClassDraft.writeMethod method body

/-! ## What steps add -/

/-- Whether a step marks the class as deprecated. -/
def isMark : ClassStep → Bool
  | markDeprecated => true
  | _ => false

/-- The annotations that a step adds to the visible or the invisible table. -/
def annotations (visible : Bool) : ClassStep → List Annotation
  | annotate given table => if given = visible then table else []
  | _ => []

/-- The records of inner classes that a step adds. -/
def innerClasses : ClassStep → List InnerClass
  | listInnerClass record => [record]
  | _ => []

def fields : ClassStep → List Field
  | writeField field => [field]
  | _ => []

/-- The method that a step adds to a draft, with the code that is written for its
body. -/
def methods (draft : ClassDraft) : ClassStep → List (Method × Option MethodBody)
  | writeMethod method body => [(method.writtenWith draft.pool body, body)]
  | _ => []

/-- The methods that steps add to a draft, one after another. -/
def methodsFrom (draft : ClassDraft) : List ClassStep → List (Method × Option MethodBody)
  | [] => []
  | step :: more =>
    match step.perform draft with
    | .ok _ next => step.methods draft ++ methodsFrom next more
    | .error _ _ => []

/-- A step that can be read back: the constant value of a field suits it, and no
annotations of a member are too long for a frame. -/
def Readable : ClassStep → Prop
  | writeField field =>
    field.Fits ∧ ∀ value, field.constantValue = some value → value.Suits field.descriptor
  | writeMethod method _ => method.Fits
  | _ => True

/-! ## Steps and their sequences -/

variable {draft grown : ClassDraft} {content : ClassContent}

/-- What a draft holds after a step. -/
theorem holds_perform {step : ClassStep} (hstep : step.Readable) (hdraft : draft.Holds content)
    (hrun : step.perform draft = .ok () grown) :
    grown.Holds { content with
      deprecated := content.deprecated || step.isMark
      visibleAnnotations := content.visibleAnnotations ++ step.annotations true
      invisibleAnnotations := content.invisibleAnnotations ++ step.annotations false
      innerClasses := content.innerClasses ++ step.innerClasses
      fields := content.fields ++ step.fields
      methods := content.methods ++ step.methods draft } := by
  cases step with
  | markDeprecated =>
    cases hrun
    simpa [isMark, annotations, innerClasses, fields, methods] using hdraft.markDeprecated
  | annotate visible table =>
    cases hrun
    cases visible with
    | true =>
      simpa [isMark, annotations, innerClasses, fields, methods] using
        hdraft.annotate_visible table
    | false =>
      simpa [isMark, annotations, innerClasses, fields, methods] using
        hdraft.annotate_invisible table
  | listInnerClass record =>
    cases hrun
    simpa [isMark, annotations, innerClasses, fields, methods] using hdraft.listInnerClass record
  | writeField field =>
    simpa [isMark, annotations, innerClasses, fields, methods] using
      hdraft.writeField hstep.2 hstep.1 hrun
  | writeMethod method body =>
    simpa [isMark, annotations, innerClasses, fields, methods] using
      hdraft.writeMethod hstep hrun

/-- What a draft holds after a sequence of steps. -/
theorem holds_forM {steps : List ClassStep} (hsteps : ∀ step ∈ steps, step.Readable)
    (hdraft : draft.Holds content) (hrun : steps.forM perform draft = .ok () grown) :
    grown.Holds { content with
      deprecated := content.deprecated || steps.any isMark
      visibleAnnotations := content.visibleAnnotations ++ steps.flatMap (annotations true)
      invisibleAnnotations := content.invisibleAnnotations ++ steps.flatMap (annotations false)
      innerClasses := content.innerClasses ++ steps.flatMap innerClasses
      fields := content.fields ++ steps.flatMap fields
      methods := content.methods ++ methodsFrom draft steps } := by
  induction steps generalizing draft content with
  | nil =>
    cases hrun
    simpa [methodsFrom] using hdraft
  | cons step steps ih =>
    obtain ⟨_, between, hfirst, hmore⟩ := exists_between hrun
    have hbetween := holds_perform (hsteps step List.mem_cons_self) hdraft hfirst
    have hgrown := ih (fun other hother => hsteps other (List.mem_cons_of_mem step hother))
      hbetween hmore
    simpa [methodsFrom, hfirst, Bool.or_assoc] using hgrown

end ClassStep

/-! ## Scripts -/

/-- What a class is written from. -/
structure ClassScript where
  header : ClassHeader
  signature : Option String := none
  steps : List ClassStep

namespace ClassScript

/-- The class that a script writes, as bytes. -/
def write (script : ClassScript) : Except EncodeError (List UInt8) := do
  let draft ← ClassDraft.start script.header script.signature
  match script.steps.forM ClassStep.perform draft with
  | .ok _ draft => draft.complete
  | .error cause _ => throw cause

/-- The methods that a script writes, each with its code and its body. -/
def methods (script : ClassScript) : List (Method × Option MethodBody) :=
  match ClassDraft.start script.header script.signature with
  | .ok draft => ClassStep.methodsFrom draft script.steps
  | .error _ => []

/-- A class that has all that a script adds, and nothing else. -/
structure Shows (script : ClassScript) (file : ClassFile) : Prop where
  header_eq : file.header = script.header
  signature_eq : file.signature = script.signature
  deprecated_eq : file.deprecated = script.steps.any ClassStep.isMark
  visibleAnnotations_eq :
    file.visibleAnnotations = script.steps.flatMap (ClassStep.annotations true)
  invisibleAnnotations_eq :
    file.invisibleAnnotations = script.steps.flatMap (ClassStep.annotations false)
  innerClasses_eq : file.innerClasses = script.steps.flatMap ClassStep.innerClasses
  fields_eq : file.fields = script.steps.flatMap ClassStep.fields
  methods_eq : file.methods = script.methods.map Prod.fst

/-- The methods that are shown are those that were written. -/
theorem map_fst_of_methodShows {pool : Pool} {written : List (Method × Option MethodBody)}
    {methods : List Method} (hshown : List.Forall₂ (MethodShows pool) written methods) :
    methods = written.map Prod.fst := by
  induction hshown with
  | nil => rfl
  | cons hfirst _ ih => rw [List.map_cons, ← ih, hfirst.1]

/-- A script whose class can be read back: its version is supported, and no
annotations are too long for a frame. -/
structure Readable (script : ClassScript) : Prop where
  version : script.header.version.Supported
  steps : ∀ step ∈ script.steps, step.Readable
  visible :
    Annotation.tableSize (script.steps.flatMap (ClassStep.annotations true)) < UInt32.size
  invisible :
    Annotation.tableSize (script.steps.flatMap (ClassStep.annotations false)) < UInt32.size

/-- Whatever a script writes decodes to a class that has all that the script
adds. -/
theorem decode_written {script : ClassScript} (hreadable : script.Readable) {bytes : List UInt8}
    (hwrite : script.write = .ok bytes) :
    ∃ file, ClassFile.decode bytes = .ok file ∧ script.Shows file := by
  rw [write, bind_eq_ok] at hwrite
  obtain ⟨draft, hstart, hwrite⟩ := hwrite
  cases hrun : script.steps.forM ClassStep.perform draft with
  | error cause stopped =>
    rw [hrun] at hwrite
    cases hwrite
  | ok _ grown =>
    rw [hrun] at hwrite
    have hgrown := ClassStep.holds_forM hreadable.steps (ClassDraft.holds_start hstart) hrun
    obtain ⟨file, hfile, hshown, -⟩ :=
      hgrown.complete hreadable.version hreadable.visible hreadable.invisible hwrite
    have hmethods : script.methods = ClassStep.methodsFrom draft script.steps := by
      rw [methods, hstart]
    refine ⟨file, hfile, ?_⟩
    exact {
      header_eq := hshown.header_eq
      signature_eq := hshown.signature_eq
      deprecated_eq := hshown.deprecated_eq
      visibleAnnotations_eq := hshown.visibleAnnotations_eq
      invisibleAnnotations_eq := hshown.invisibleAnnotations_eq
      innerClasses_eq := hshown.innerClasses_eq
      fields_eq := hshown.fields_eq
      methods_eq := by
        rw [hmethods]
        exact map_fst_of_methodShows hshown.methods_show }

/-- A deprecated class with an annotation, a nested class, a constant of type
`long` and a method with a body. -/
def sample : ClassScript where
  header := {
    version := { major := 55, minor := 0 }
    flags := .accPublic
    name := "p/A"
    superName := none
    interfaces := [] }
  steps := [
    .writeMethod
      { flags := .accStatic, name := "m", descriptor := "()I" }
      (some { maxStack := 1, maxLocals := 0, instructions := [.ldc (.int 7), .ireturn] }),
    .markDeprecated,
    .annotate true [{ type := "Lp/B;", elements := [] }],
    .listInnerClass
      { name := "p/A$C", outerName := some "p/A", innerName := some "C", flags := .accPublic },
    .writeField
      { flags := .accFinal, name := "f", descriptor := "J", constantValue := some (.long 5) }]

/-- The bytes of the sample. -/
def sampleBytes : List UInt8 :=
  [0xca, 0xfe, 0xba, 0xbe, 0x00, 0x00, 0x00, 0x37, 0x00, 0x13, 0x01, 0x00, 0x03, 0x70, 0x2f,
    0x41, 0x07, 0x00, 0x01, 0x01, 0x00, 0x01, 0x6d, 0x01, 0x00, 0x03, 0x28, 0x29, 0x49, 0x03,
    0x00, 0x00, 0x00, 0x07, 0x01, 0x00, 0x04, 0x43, 0x6f, 0x64, 0x65, 0x01, 0x00, 0x01, 0x66,
    0x01, 0x00, 0x01, 0x4a, 0x05, 0x00, 0x00, 0x00, 0x00, 0x00, 0x00, 0x00, 0x05, 0x01, 0x00,
    0x0d, 0x43, 0x6f, 0x6e, 0x73, 0x74, 0x61, 0x6e, 0x74, 0x56, 0x61, 0x6c, 0x75, 0x65, 0x01,
    0x00, 0x0a, 0x44, 0x65, 0x70, 0x72, 0x65, 0x63, 0x61, 0x74, 0x65, 0x64, 0x01, 0x00, 0x19,
    0x52, 0x75, 0x6e, 0x74, 0x69, 0x6d, 0x65, 0x56, 0x69, 0x73, 0x69, 0x62, 0x6c, 0x65, 0x41,
    0x6e, 0x6e, 0x6f, 0x74, 0x61, 0x74, 0x69, 0x6f, 0x6e, 0x73, 0x01, 0x00, 0x05, 0x4c, 0x70,
    0x2f, 0x42, 0x3b, 0x01, 0x00, 0x0c, 0x49, 0x6e, 0x6e, 0x65, 0x72, 0x43, 0x6c, 0x61, 0x73,
    0x73, 0x65, 0x73, 0x01, 0x00, 0x05, 0x70, 0x2f, 0x41, 0x24, 0x43, 0x07, 0x00, 0x10, 0x01,
    0x00, 0x01, 0x43, 0x00, 0x01, 0x00, 0x02, 0x00, 0x00, 0x00, 0x00, 0x00, 0x01, 0x00, 0x10,
    0x00, 0x07, 0x00, 0x08, 0x00, 0x01, 0x00, 0x0b, 0x00, 0x00, 0x00, 0x02, 0x00, 0x09, 0x00,
    0x01, 0x00, 0x08, 0x00, 0x03, 0x00, 0x04, 0x00, 0x01, 0x00, 0x06, 0x00, 0x00, 0x00, 0x0f,
    0x00, 0x01, 0x00, 0x00, 0x00, 0x00, 0x00, 0x03, 0x12, 0x05, 0xac, 0x00, 0x00, 0x00, 0x00,
    0x00, 0x03, 0x00, 0x0c, 0x00, 0x00, 0x00, 0x00, 0x00, 0x0d, 0x00, 0x00, 0x00, 0x06, 0x00,
    0x01, 0x00, 0x0e, 0x00, 0x00, 0x00, 0x0f, 0x00, 0x00, 0x00, 0x0a, 0x00, 0x01, 0x00, 0x11,
    0x00, 0x02, 0x00, 0x12, 0x00, 0x01]

theorem write_sample : sample.write = .ok sampleBytes := by
  cbv

/-- The bytes of the sample decode to a class that shows all its steps. -/
theorem decode_written_sample :
    sample.Readable ∧ sample.write = .ok sampleBytes ∧
      ∃ file, ClassFile.decode sampleBytes = .ok file ∧ sample.Shows file := by
  have hreadable : sample.Readable := {
    version := ⟨by decide, by decide⟩
    steps := by
      simp only [sample, List.forall_mem_cons, ClassStep.Readable]
      refine ⟨⟨by decide, by decide, nofun, nofun, nofun⟩, trivial, trivial, trivial,
        ⟨⟨by decide, by decide⟩, ?_⟩, nofun⟩
      rintro value ⟨⟩
      rfl
    visible := by decide
    invisible := by decide }
  exact ⟨hreadable, write_sample, decode_written hreadable write_sample⟩

end ClassScript

end ClassStub
