import ClassStub.Api.Membership
import ClassStub.Api.Rules
import ClassStub.Api.Stub
import ClassStub.ClassFile.Decode

/-!
# Generating stubs

From the bytes of a class the rules tell whether it belongs to the API, for
which the header is enough, and make its stub.  The bytes may also come from a
source that is read piece by piece; it is read to its end before anything else
happens, so a failure of the source comes before any other.
-/

namespace ClassStub

/-- What successive reads of a source yield: pieces of bytes, or the reason of a
failure. -/
abbrev ByteSource := List (Except String (List UInt8))

/-- All bytes of a source. -/
def ByteSource.readAll : ByteSource → Except ApiError (List UInt8)
  | [] => .ok []
  | .ok piece :: more => (readAll more).map (piece ++ ·)
  | .error reason :: _ => .error (.unreadable reason)

namespace ApiRules

/-- Whether the class that bytes start with belongs to the API. -/
def includesClass (rules : ApiRules) (bytes : List UInt8) : Except ApiError Bool := do
  let header ← (ClassHeader.decode bytes).mapError ApiError.malformed
  return header.isApi rules.policy

/-- The stub of the class that bytes stand for. -/
def stub (rules : ApiRules) (bytes : List UInt8) : Except ApiError (List UInt8) := do
  let file ← (ClassFile.decode bytes).mapError ApiError.malformed
  let surface ← rules.extract file
  (Stub.write surface).mapError ApiError.unwritable

def includesClassFrom (rules : ApiRules) (source : ByteSource) : Except ApiError Bool := do
  rules.includesClass (← source.readAll)

def stubFrom (rules : ApiRules) (source : ByteSource) : Except ApiError (List UInt8) := do
  rules.stub (← source.readAll)

end ApiRules

end ClassStub
