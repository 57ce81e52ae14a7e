import ClassStub.Api.Exposure

/-!
# Extracting the API of a class

Extraction yields the surface of a class or the first reason against it.  The
descriptors of all members that count as API must be well-formed.  Exposed types
are checked only on demand and only under a declared policy: first the
supertypes, then the annotations of the class, then its methods and its fields
in declared order.
-/

namespace ClassStub

/-- What decides about the API of classes: a policy, and whether exposed types
are checked. -/
structure ApiRules where
  policy : PackagePolicy
  validate : Bool
  deriving DecidableEq

namespace ApiRules

/-- The rules with declared packages. -/
def ofPackages (packages : List String) (validate : Bool) : ApiRules where
  policy := PackagePolicy.ofList packages
  validate

/-- Whether exposed types are checked. -/
def checksExposure (rules : ApiRules) : Bool :=
  rules.validate && !rules.policy.isOpen

/-- Performs a check of exposed types if such checks are made. -/
def whenChecked (rules : ApiRules) (check : Except ApiError Unit) : Except ApiError Unit :=
  if rules.checksExposure then check else .ok ()

def checkMethod (rules : ApiRules) (method : Method) : Except ApiError Unit := do
  let owner ← PackagePolicy.orMalformed
    (sourceMethod method.flags method.name method.descriptor)
  rules.whenChecked (rules.policy.checkMethod owner method.surface)

def checkField (rules : ApiRules) (field : Field) : Except ApiError Unit := do
  let owner ← PackagePolicy.orMalformed (sourceField field.flags field.name field.descriptor)
  rules.whenChecked (rules.policy.checkField owner field.surface)

def check (rules : ApiRules) (file : ClassFile) : Except ApiError Unit := do
  rules.whenChecked (rules.policy.checkSupertypes file)
  rules.whenChecked
    (rules.policy.checkAnnotations (ClassName.toBinary file.header.name) file.retainedAnnotations)
  (file.apiMethods rules.policy).forM rules.checkMethod
  (file.apiFields rules.policy).forM rules.checkField

/-- The surface of a class that passes all checks. -/
def extract (rules : ApiRules) (file : ClassFile) : Except ApiError Surface := do
  rules.check file
  return file.surface rules.policy

end ApiRules

end ClassStub
