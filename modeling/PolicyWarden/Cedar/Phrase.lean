import PolicyWarden.Cedar.Token

/-!
Policies as they are written, before it is known whether they mean anything.
-/

namespace PolicyWarden.Cedar

inductive Relator where
  | less
  | lessEqual
  | greaterEqual
  | greater
  | notEqual
  | equal
  | within
  /-- A single equals sign, which is never right. -/
  | assigned
deriving DecidableEq, Repr

inductive Adding where
  | plus
  | minus
deriving DecidableEq, Repr

inductive Scaling where
  | times
  | divide
  | remainder
deriving DecidableEq, Repr

inductive Signs where
  | none
  | bangs (count : Nat)
  | dashes (count : Nat)
deriving DecidableEq, Repr

inductive Literal where
  | boolean (value : Bool)
  | number (value : Nat)
  | text (raw : List Char)
deriving DecidableEq, Repr

structure Path where
  spaces : List String
  base : String
deriving DecidableEq, Repr

mutual
inductive Phrase where
  | choice (condition consequence alternative : Phrase)
  | either (first : Phrase) (rest : List Phrase)
  | both (first : Phrase) (rest : List Phrase)
  | relation (first : Phrase) (rest : List (Relator × Phrase))
  | has (target field : Phrase)
  | like (target pattern : Phrase)
  | is (target entityType : Phrase) (container : Option Phrase)
  | sum (first : Phrase) (rest : List (Adding × Phrase))
  | product (first : Phrase) (rest : List (Scaling × Phrase))
  | signed (signs : Signs) (operand : Phrase)
  | member (target : Phrase) (accesses : List Access)
  | literal (value : Literal)
  | name (path : Path)
  | entity (path : Path) (raw : List Char)
  /-- A type and members in braces, a form without meaning. -/
  | entityRecord (path : Path)
  | slot (name : String)
  | group (inner : Phrase)
  | list (elements : List Phrase)
  | record (members : List (Phrase × Phrase))
  | unreadable

inductive Access where
  | field (name : String)
  | call (arguments : List Phrase)
  | index (key : Phrase)
end

instance : Inhabited Phrase := ⟨.unreadable⟩

structure HeadVariable where
  name : String
  colonType : Option Path
  isType : Option Phrase
  relation : Option (Relator × Phrase)

structure Clause where
  word : String
  body : Option Phrase

structure Label where
  name : String
  raw : Option (List Char)

structure PolicyPhrase where
  labels : List Label
  effect : String
  heads : List HeadVariable
  clauses : List Clause

end PolicyWarden.Cedar
