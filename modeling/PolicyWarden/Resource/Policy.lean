import PolicyWarden.Identity
import PolicyWarden.Resource.Metadata

/-!
The policy resource of a cluster: an object with metadata and a specification that holds the text of
policies. Objects are read from JSON and written back; an object and its specification may also be
arrays of their fields.
-/

namespace PolicyWarden

open Json

structure PolicySpecification where
  description : Option String := none
  policies : String
  /-- A resource that is switched off has no policies. -/
  enabled : Bool := true
deriving DecidableEq, Repr

namespace PolicySpecification

/-- What an array is told to have too few elements for. -/
def fields : String := "struct AuthorizationPolicySpec with 3 elements"

def decode : Json → Decoded PolicySpecification
  | .object members => do
      let description ← readOptional members "description" decodeText
      let enabled ← readMember members "enabled" decodeBoolean
      let policies ← readMember members "policies" decodeText
      return { description, policies := ← demand "policies" policies, enabled := enabled.getD true }
  | .array [] => .error (.length 1 fields)
  | .array [description] => do
      let _ ← decodeOptional decodeText description
      .error (.length 1 fields)
  | .array [description, policies] => do
      let description ← decodeOptional decodeText description
      return { description, policies := ← decodeText policies }
  | .array (description :: policies :: enabled :: more) => do
      let description ← decodeOptional decodeText description
      let policies ← decodeText policies
      let enabled ← decodeBoolean enabled
      if more.isEmpty then return { description, policies, enabled }
      else .error (.length (more.length + 3) "fewer elements in array")
  | other => .error (.kind other "struct AuthorizationPolicySpec")

def encode (specification : PolicySpecification) : Json :=
  .object <|
    memberOf "description" .text specification.description ++
    [("policies", .text specification.policies), ("enabled", .boolean specification.enabled)]

end PolicySpecification

structure PolicyResource where
  metadata : Metadata
  specification : PolicySpecification
deriving Repr

namespace PolicyResource

def kind : String := "AuthorizationPolicy"
def group : String := "lattice.dev"
def version : String := "v1alpha1"
def plural : String := "authorizationpolicies"

def apiVersion : String := group ++ "/" ++ version

/-- The name; an object that has none yet goes by what its name will be made from. -/
def name (resource : PolicyResource) : String :=
  (resource.metadata.name.or resource.metadata.generateName).getD ""

def identity? (resource : PolicyResource) : Option Identity :=
  resource.metadata.area.map fun area => .qualified area resource.name

def fields : String := "struct AuthorizationPolicy with 2 elements"

def decode : Json → Decoded PolicyResource
  | .object members => do
      let metadata ← readMember members "metadata" Metadata.decode
      let specification ← readMember members "spec" PolicySpecification.decode
      return ⟨← demand "metadata" metadata, ← demand "spec" specification⟩
  | .array [] => .error (.length 0 fields)
  | .array [metadata] => do
      let _ ← Metadata.decode metadata
      .error (.length 1 fields)
  | .array (metadata :: specification :: more) => do
      let metadata ← Metadata.decode metadata
      let specification ← PolicySpecification.decode specification
      if more.isEmpty then return ⟨metadata, specification⟩
      else .error (.length (more.length + 2) "fewer elements in array")
  | other => .error (.kind other "struct AuthorizationPolicy")

/-- The object with the kind and version of all objects of its sort. -/
def encode (resource : PolicyResource) : Json :=
  .object [("apiVersion", .text apiVersion), ("kind", .text kind),
    ("metadata", resource.metadata.encode), ("spec", resource.specification.encode)]

end PolicyResource

end PolicyWarden
