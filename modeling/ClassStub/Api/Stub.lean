import ClassStub.Api.Surface
import ClassStub.ClassFile.Draft

/-!
# Stubs

The stub of an API is a class with the same surface whose methods fail when they
are called.  A class gets a helper that makes the exception, and every method
that is not abstract throws what the helper returns; an interface cannot hide a
helper, so its methods make the exception themselves.
-/

namespace ClassStub.Stub

/-- The name of the helper that makes the exception. -/
def helperName : String := "$unsupportedOpEx"

def helperDescriptor : String := "()Ljava/lang/UnsupportedOperationException;"

/-- The class of the exception. -/
def exceptionClass : String := "java/lang/UnsupportedOperationException"

def exceptionMessage : String :=
  "You tried to call a method on an API class. You probably added the API jar on classpath " ++
    "instead of the implementation jar."

/-- Instructions that leave the exception on the stack. -/
def makeException : List Instruction :=
  [.newObject exceptionClass, .dup, .ldc (.string exceptionMessage),
    .invokeSpecial {
      owner := exceptionClass, name := "<init>", descriptor := "(Ljava/lang/String;)V" }]

def helper : Method where
  flags := .accPrivate ||| .accStatic ||| .accSynthetic
  name := helperName
  descriptor := helperDescriptor

def helperCode : List Instruction :=
  makeException ++ [.areturn]

/-- The instructions of a method that is not abstract. -/
def failingCode (header : ClassHeader) : List Instruction :=
  if header.isInterface then
    makeException ++ [.athrow]
  else
    [.invokeStatic {
      owner := header.name, name := helperName, descriptor := helperDescriptor }, .athrow]

/-- The declaration of a method in the stub.  A native method becomes an
ordinary one, since it gets code. -/
def method (method : SurfaceMethod) : Method where
  flags :=
    if method.flags.has .accAbstract then method.flags else method.flags &&& ~~~.accNative
  name := method.name
  descriptor := method.descriptor
  signature := method.signature
  exceptions := method.exceptions
  deprecated := method.deprecated
  visibleAnnotations := Retained.select true method.annotations
  invisibleAnnotations := Retained.select false method.annotations
  visibleParameterAnnotations :=
    method.visibleParameterAnnotations.map (·.map (·.map (·.content)))
  invisibleParameterAnnotations :=
    method.invisibleParameterAnnotations.map (·.map (·.map (·.content)))
  annotationDefault := method.annotationDefault

/-- The declaration of a field in the stub. -/
def field (field : SurfaceField) : Field where
  flags := field.flags
  name := field.name
  descriptor := field.descriptor
  signature := field.signature
  deprecated := field.deprecated
  visibleAnnotations := Retained.select true field.annotations
  invisibleAnnotations := Retained.select false field.annotations

/-- Computes the limits of a body while a class is written. -/
def body (instructions : List Instruction) (method : Method) : Writing MethodBody :=
  match MethodBody.ofInstructions instructions method.descriptor method.isStatic with
  | .ok body => return body
  | .error cause => throw cause

def writeHelper : Writing Unit := do
  let body ← body helperCode helper
  ClassDraft.writeMethod helper (some body)

/-- Writes a method, with a failing body unless it is abstract. -/
def writeMethod (header : ClassHeader) (method : Method) : Writing Unit := do
  if method.flags.has .accAbstract then
    ClassDraft.writeMethod method none
  else
    let body ← body (failingCode header) method
    ClassDraft.writeMethod method (some body)

/-- Writes everything behind the header: the helper, the marks and annotations
of the class, its methods, its fields and its inner classes. -/
def writeSurface (surface : Surface) : Writing Unit := do
  unless surface.header.isInterface do
    writeHelper
  if surface.deprecated then
    modify ClassDraft.markDeprecated
  modify (·.annotate true (Retained.select true surface.annotations))
  modify (·.annotate false (Retained.select false surface.annotations))
  surface.methods.forM fun one => writeMethod surface.header (method one)
  surface.fields.forM fun one => ClassDraft.writeField (field one)
  surface.innerClasses.forM fun record => modify (·.listInnerClass record)

/-- The stub of an API, as bytes. -/
def write (surface : Surface) : Except EncodeError (List UInt8) := do
  let draft ← ClassDraft.start surface.header surface.signature
  match (writeSurface surface).run draft with
  | .ok _ draft => draft.complete
  | .error cause _ => throw cause

end ClassStub.Stub
