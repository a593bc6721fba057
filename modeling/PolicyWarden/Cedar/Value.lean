import PolicyWarden.Cedar.Expression
import PolicyWarden.Cedar.Extension

/-!
The values that expressions come to. Sets are kept in ascending order without repetition, records in
ascending order of their names, so that equal values have one form.
-/

namespace PolicyWarden.Cedar

inductive Extended where
  | decimal (units : Int)
  | address (range : AddressRange)
  | moment (milliseconds : Int)
  | span (milliseconds : Int)
deriving DecidableEq, Repr

inductive Value where
  | boolean (value : Bool)
  | long (value : Int)
  | text (value : String)
  | entity (uid : EntityUid)
  | extended (value : Extended)
  | set (elements : List Value)
  | record (members : List (String × Value))
deriving Inhabited, Repr

namespace Extended

/-- Numbers in which two values of this kind differ exactly if the values do. -/
def key : Extended → List Int
  | .decimal units => [0, units]
  | .address range => [1, if range.long then 1 else 0, range.bits, range.common]
  | .moment milliseconds => [2, milliseconds]
  | .span milliseconds => [3, milliseconds]

end Extended

namespace Value

def rank : Value → Nat
  | .boolean _ => 0
  | .long _ => 1
  | .text _ => 2
  | .entity _ => 3
  | .extended _ => 4
  | .set _ => 5
  | .record _ => 6

mutual
/-- An order of all values; equal values are those that compare as equal. -/
def compareWith : Value → Value → Ordering
  | .boolean left, .boolean right => compare left right
  | .long left, .long right => compare left right
  | .text left, .text right => compare left right
  | .entity left, .entity right =>
      (compare left.kind right.kind).then (compare left.id right.id)
  | .extended left, .extended right => compare left.key right.key
  | .set left, .set right => compareLists left right
  | .record left, .record right => compareMembers left right
  | left, right => compare left.rank right.rank

def compareLists : List Value → List Value → Ordering
  | [], [] => .eq
  | [], _ :: _ => .lt
  | _ :: _, [] => .gt
  | left :: lefts, right :: rights => (left.compareWith right).then (compareLists lefts rights)

def compareMembers : List (String × Value) → List (String × Value) → Ordering
  | [], [] => .eq
  | [], _ :: _ => .lt
  | _ :: _, [] => .gt
  | (name, left) :: lefts, (other, right) :: rights =>
      ((compare name other).then (left.compareWith right)).then (compareMembers lefts rights)
end

def equals (left right : Value) : Bool :=
  left.compareWith right = .eq

def insertElement (value : Value) : List Value → List Value
  | [] => [value]
  | first :: rest =>
      match value.compareWith first with
      | .lt => value :: first :: rest
      | .eq => first :: rest
      | .gt => first :: insertElement value rest

def ofElements (elements : List Value) : Value :=
  .set (elements.foldr insertElement [])

/-- Adds a member to a list ascending by name; a later value replaces an earlier one. -/
def insertMember (name : String) (value : Value) : List (String × Value) → List (String × Value)
  | [] => [(name, value)]
  | (other, old) :: rest =>
      match compare name other with
      | .lt => (name, value) :: (other, old) :: rest
      | .eq => (name, value) :: rest
      | .gt => (other, old) :: insertMember name value rest

def ofMembers (members : List (String × Value)) : Value :=
  .record (members.foldl (fun sorted (name, value) => insertMember name value sorted) [])

def memberNamed? (name : String) (members : List (String × Value)) : Option Value :=
  (members.find? fun member => member.1 = name).map (·.2)

end Value

end PolicyWarden.Cedar
