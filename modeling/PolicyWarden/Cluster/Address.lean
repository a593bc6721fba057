import PolicyWarden.Resource.Policy

/-!
Where policy resources are found in a cluster. Names go into an address as they are; one that makes
no address cannot be asked for.
-/

namespace PolicyWarden.Address

def collection : (area : Option String) → String
  | some area => "/apis/" ++ PolicyResource.apiVersion ++ "/namespaces/" ++ area ++ "/" ++
      PolicyResource.plural
  | none => "/apis/" ++ PolicyResource.apiVersion ++ "/" ++ PolicyResource.plural

def object (area name : String) : String :=
  collection (some area) ++ "/" ++ name

/-- The characters that may stand in a path. All that is beyond ASCII may. -/
def inPath (character : Char) : Bool :=
  let code := character.toNat
  code = 0x21 || (0x24 ≤ code && code ≤ 0x3B) || code = 0x3D || (0x40 ≤ code && code ≤ 0x5F) ||
    (0x61 ≤ code && code ≤ 0x7E) || 0x7F ≤ code || character = '"'

def inQuery (character : Char) : Bool :=
  let code := character.toNat
  code = 0x21 || (0x24 ≤ code && code ≤ 0x3B) || code = 0x3D || 0x3F ≤ code

def limit : Nat := 65534

/-- The path that a request for an address goes to: what comes before a query or a fragment. None if
the address is not valid. -/
def path? (address : String) : Option String :=
  let characters := address.toList
  let path := characters.takeWhile fun character => character ≠ '?' && character ≠ '#'
  let rest := characters.drop path.length
  let query := match rest with
    | '?' :: query => query.takeWhile (· ≠ '#')
    | _ => []
  if path.all inPath && query.all inQuery && address.utf8ByteSize ≤ limit then
    some (String.ofList path)
  else none

end PolicyWarden.Address
