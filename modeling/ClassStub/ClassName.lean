/-!
# Class names

Class data separates the parts of a class name by slashes (`java/util/List`),
source code by dots (`java.util.List`).  The package of a name in dotted form is
what stands before its last dot.
-/

namespace ClassStub.ClassName

/-- The dotted form of a name in slashed form. -/
def toBinary (internal : String) : String :=
  internal.map fun char => if char = '/' then '.' else char

/-- What stands before the last dot, nothing if there is no dot. -/
def beforeLastDot (name : List Char) : List Char :=
  ((name.reverse.dropWhile (· ≠ '.')).drop 1).reverse

/-- The package of a name in dotted form, empty for the default package. -/
def packageName (binary : String) : String :=
  String.ofList (beforeLastDot binary.toList)

/-- The last dot splits a name, and no dot comes after it. -/
theorem beforeLastDot_append (package simple : List Char) (hsimple : '.' ∉ simple) :
    beforeLastDot (package ++ '.' :: simple) = package := by
  have hdrop : (simple.reverse ++ '.' :: package.reverse).dropWhile (· ≠ '.') =
      '.' :: package.reverse := by
    have hclear : ∀ char ∈ simple.reverse, (decide (char ≠ '.')) = true := by
      intro char hchar
      have hne : char ≠ '.' := fun heq => hsimple (heq ▸ List.mem_reverse.1 hchar)
      simpa using hne
    rw [List.dropWhile_append_of_pos hclear]
    simp
  simp only [beforeLastDot, List.reverse_append, List.reverse_cons, List.append_assoc,
    List.cons_append, List.nil_append]
  rw [hdrop]
  simp

/-- A name without a dot lies in the default package. -/
theorem beforeLastDot_eq_nil {name : List Char} (hname : '.' ∉ name) :
    beforeLastDot name = [] := by
  have hdrop : name.reverse.dropWhile (· ≠ '.') = [] := by
    have hclear : ∀ char ∈ name.reverse, (decide (char ≠ '.')) = true := by
      intro char hchar
      have hne : char ≠ '.' := fun heq => hname (heq ▸ List.mem_reverse.1 hchar)
      simpa using hne
    have hdropped : (name.reverse ++ []).dropWhile (· ≠ '.') = [] :=
      List.dropWhile_append_of_pos hclear
    simpa using hdropped
  rw [beforeLastDot, hdrop]
  rfl

end ClassStub.ClassName
