/-!
Identities of policy resources. An identity is one string, normally `namespace/name`; identities are
ordered by the bytes of their text. The main statements say that two identities of equal bytes are
equal and that the order is transitive and total.
-/

namespace PolicyWarden

structure Identity where
  text : String
deriving DecidableEq, Repr, Inhabited

namespace Identity

def qualified (area name : String) : Identity :=
  ⟨String.ofList (area.toList ++ '/' :: name.toList)⟩

def bytes (identity : Identity) : List UInt8 :=
  identity.text.toUTF8.data.toList

/-- Compares byte for byte, a shorter identity before those it begins. -/
instance : Ord Identity where
  compare left right := compare left.bytes right.bytes

def notAfter (left right : Identity) : Bool :=
  (compare left right).isLE

def splitAtSlash : List Char → Option (List Char × List Char)
  | [] => none
  | '/' :: rest => some ([], rest)
  | character :: rest =>
      (splitAtSlash rest).map fun (before, after) => (character :: before, after)

/-- The namespace and the name, divided at the first slash; neither may be empty. -/
def split? (identity : Identity) : Option (String × String) :=
  match splitAtSlash identity.text.toList with
  | some (first :: area, second :: name) =>
      some (String.ofList (first :: area), String.ofList (second :: name))
  | _ => none

theorem bytes_injective {left right : Identity} (equal : left.bytes = right.bytes) :
    left = right := by
  obtain ⟨left⟩ := left
  obtain ⟨right⟩ := right
  simp only [bytes] at equal
  have arrays : left.toUTF8.data = right.toUTF8.data := Array.ext' equal
  have whole : left.toUTF8 = right.toUTF8 := ByteArray.ext arrays
  exact congrArg Identity.mk (String.toByteArray_inj.mp whole)

theorem notAfter_trans {first second third : Identity} (left : first.notAfter second = true)
    (right : second.notAfter third = true) : first.notAfter third = true := by
  change (compare first.bytes third.bytes).isLE
  exact Std.TransCmp.isLE_trans left right

theorem notAfter_total (left right : Identity) : left.notAfter right || right.notAfter left := by
  have swapped : compare left.bytes right.bytes = (compare right.bytes left.bytes).swap :=
    Std.OrientedCmp.eq_swap
  change (compare left.bytes right.bytes).isLE || (compare right.bytes left.bytes).isLE
  rw [swapped]
  cases compare right.bytes left.bytes <;> rfl

end Identity

end PolicyWarden
