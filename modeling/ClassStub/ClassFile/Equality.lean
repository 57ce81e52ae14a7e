import ClassStub.ClassFile.Basic

/-!
# Equality of class files

Whether two decoded classes are equal can be computed.  Element values nest
through lists, so the test of their equality is written out by mutual
recursion; all other instances are derived.
-/

namespace ClassStub

mutual

/-- Decides whether two element values are equal. -/
def ElementValue.decideEq : (value other : ElementValue) → Decidable (value = other)
  | .constant value, .constant other => decidable_of_iff (value = other) (by simp)
  | .enumConstant type name, .enumConstant otherType otherName =>
    decidable_of_iff (type = otherType ∧ name = otherName) (by simp)
  | .nested type elements, .nested otherType others =>
    have := decideEqElements elements others
    decidable_of_iff (type = otherType ∧ elements = others) (by simp)
  | .array values, .array others =>
    have := decideEqValues values others
    decidable_of_iff (values = others) (by simp)
  | .constant _, .enumConstant _ _ | .constant _, .nested _ _ | .constant _, .array _
  | .enumConstant _ _, .constant _ | .enumConstant _ _, .nested _ _ | .enumConstant _ _, .array _
  | .nested _ _, .constant _ | .nested _ _, .enumConstant _ _ | .nested _ _, .array _
  | .array _, .constant _ | .array _, .enumConstant _ _ | .array _, .nested _ _ =>
    isFalse nofun

/-- Decides whether two lists of elements are the same. -/
def ElementValue.decideEqElements :
    (elements others : List (String × ElementValue)) → Decidable (elements = others)
  | [], [] => isTrue rfl
  | [], _ :: _ | _ :: _, [] => isFalse nofun
  | (name, value) :: elements, (otherName, other) :: others =>
    have := value.decideEq other
    have := decideEqElements elements others
    decidable_of_iff ((name = otherName ∧ value = other) ∧ elements = others) (by simp)

/-- Decides whether two lists of values are the same. -/
def ElementValue.decideEqValues :
    (values others : List ElementValue) → Decidable (values = others)
  | [], [] => isTrue rfl
  | [], _ :: _ | _ :: _, [] => isFalse nofun
  | value :: values, other :: others =>
    have := value.decideEq other
    have := decideEqValues values others
    decidable_of_iff (value = other ∧ values = others) (by simp)

end

instance : DecidableEq ElementValue :=
  ElementValue.decideEq

deriving instance DecidableEq for Annotation
deriving instance DecidableEq for Field
deriving instance DecidableEq for Method
deriving instance DecidableEq for Pool
deriving instance DecidableEq for ClassFile

end ClassStub
