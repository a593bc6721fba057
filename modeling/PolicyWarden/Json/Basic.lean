/-!
Documents in JSON. Whole numbers are kept exactly, other numbers as the 64 bits of the nearest
binary floating-point number; members of an object keep their order.
-/

namespace PolicyWarden

inductive Json where
  | null
  | boolean (value : Bool)
  | integer (value : Int)
  | real (bits : UInt64)
  | text (value : String)
  | array (elements : List Json)
  | object (members : List (String × Json))
deriving Inhabited, Repr

namespace Json

/-- The value of the last member of this name, as a reader that keeps one value for a name has it.
-/
def member? (document : Json) (name : String) : Option Json :=
  match document with
  | .object members => (members.reverse.find? fun entry => entry.1 == name).map (·.2)
  | _ => none

def member (document : Json) (name : String) : Json :=
  (document.member? name).getD .null

def text? : Json → Option String
  | .text value => some value
  | _ => none

def elements? : Json → Option (List Json)
  | .array elements => some elements
  | _ => none

/-- The names of a pointer such as `/spec/names/0`; in a name `~1` stands for `/` and `~0` for `~`.
-/
def pointerNames (pointer : String) : Option (List String) :=
  let unescape (name : String) : String := (name.replace "~1" "/").replace "~0" "~"
  match pointer.splitOn "/" with
  | [""] => some []
  | "" :: names => some (names.map unescape)
  | _ => none

/-- A place in an array: decimal digits without a leading zero. -/
def position? (name : String) : Option Nat :=
  if name.isEmpty || !name.all Char.isDigit || (name.startsWith "0" && name ≠ "0") then none
  else name.toNat?

def follow (document : Json) : List String → Option Json
  | [] => some document
  | name :: names =>
      let next := match document with
        | .object _ => document.member? name
        | .array elements => (position? name).bind fun position => elements[position]?
        | _ => none
      next.bind fun found => found.follow names

def pointer? (document : Json) (pointer : String) : Option Json :=
  (pointerNames pointer).bind document.follow

end Json

end PolicyWarden
