import PolicyWarden.Proofs.Json.Members
import PolicyWarden.Resource.Policy

/-!
Policy resources read from documents and written back. A document may hold the fields of a resource
in any order and among others, leave out those that may be left out, or come as an array of the
fields; what it says of them is its outline. Reading keeps the outline (`read_of_decode`), and what
is written is read as it was (`decode_encode`). So writing back what was read changes none of it,
which `read_encode_of_decode` puts together.
-/

namespace PolicyWarden

open Json

namespace Metadata

/-- Whether nothing is known of an object but its name, what a name is made from, its namespace and
its revision. -/
def IsBare (metadata : Metadata) : Prop :=
  metadata = {
    generateName := metadata.generateName
    name := metadata.name
    area := metadata.area
    revision := metadata.revision }

theorem decode_encode {metadata : Metadata} (bare : metadata.IsBare) :
    decode metadata.encode = .ok metadata := by
  rw [bare]
  -- Fields that are not known leave no members.
  have written : encode {
      generateName := metadata.generateName
      name := metadata.name
      area := metadata.area
      revision := metadata.revision } = .object (
        memberOf "generateName" .text metadata.generateName ++
        (memberOf "name" .text metadata.name ++
        (memberOf "namespace" .text metadata.area ++
        memberOf "resourceVersion" .text metadata.revision))) := by
    simp [encode, memberOf]
  rw [written]
  simp [decode, readLast_append_of_ne, readLast_append, readLast_of_ne, readLast_memberOf,
    filter_memberOf]
  rfl

theorem member_of_decode {document : Json} {metadata : Metadata}
    (accepted : decode document = .ok metadata) :
    document.member "name" = ofText metadata.name ∧
    document.member "generateName" = ofText metadata.generateName ∧
    document.member "namespace" = ofText metadata.area ∧
    document.member "resourceVersion" = ofText metadata.revision := by
  cases document with
  | object members =>
      simp only [decode, bind_eq_ok_iff] at accepted
      rcases accepted with ⟨_, -, _, -, _, -, _, -, _, -, generateName, generated, _, -, _, -, _, -,
        name, named, area, located, _, -, revision, dated, _, -, _, -, same⟩
      cases same
      exact ⟨member_of_readLast named, member_of_readLast generated, member_of_readLast located,
        member_of_readLast dated⟩
  | _ => cases accepted

end Metadata

namespace PolicySpecification

theorem decode_encode (specification : PolicySpecification) :
    decode specification.encode = .ok specification := by
  rcases specification with ⟨_ | description, policies, enabled⟩ <;> rfl

theorem field_of_decode {document : Json} {specification : PolicySpecification}
    (accepted : decode document = .ok specification) :
    (document.field? "description" 0).getD .null = ofText specification.description ∧
    (document.field? "policies" 1).getD .null = .text specification.policies ∧
    (document.field? "enabled" 2).getD (.boolean true) = .boolean specification.enabled := by
  cases document with
  | object members =>
      simp only [decode, bind_eq_ok_iff, demand_eq_ok_iff] at accepted
      rcases accepted with ⟨description, described, enabled, switched, _, given, policies, rfl, same⟩
      cases same
      refine ⟨member_of_readOptional described, ?_, ?_⟩
      · rcases member?_of_readMember given with ⟨found, there, taken⟩
        cases eq_text_of_decodeText taken
        exact congrArg (Option.getD · _) there
      · cases enabled with
        | none => exact congrArg (Option.getD · _) (member?_of_readMember_none switched)
        | some enabled =>
            rcases member?_of_readMember switched with ⟨found, there, taken⟩
            cases eq_boolean_of_decodeBoolean taken
            exact congrArg (Option.getD · _) there
  | array elements =>
      rcases elements with _ | ⟨description, _ | ⟨policies, _ | ⟨enabled, more⟩⟩⟩
      · cases accepted
      · rcases bind_eq_ok_iff.mp accepted with ⟨_, -, short⟩
        cases short
      -- Of the elements only the last may be left out.
      · simp only [decode, bind_eq_ok_iff] at accepted
        rcases accepted with ⟨_, described, _, given, same⟩
        cases same
        exact ⟨eq_ofText_of_decodeOptional described, eq_text_of_decodeText given, rfl⟩
      · simp only [decode, bind_eq_ok_iff] at accepted
        rcases accepted with ⟨_, described, _, given, _, switched, same⟩
        split at same
        · cases same
          exact ⟨eq_ofText_of_decodeOptional described, eq_text_of_decodeText given,
            eq_boolean_of_decodeBoolean switched⟩
        · cases same
  | _ => cases accepted

end PolicySpecification

namespace PolicyResource

/-- What a document says of a resource, with null for what it leaves out. -/
structure Outline where
  name : Json
  generateName : Json
  area : Json
  revision : Json
  description : Json
  policies : Json
  enabled : Json

namespace Outline

def read (document : Json) : Outline :=
  let metadata := (document.field? "metadata" 0).getD .null
  let specification := (document.field? "spec" 1).getD .null
  { name := metadata.member "name"
    generateName := metadata.member "generateName"
    area := metadata.member "namespace"
    revision := metadata.member "resourceVersion"
    description := (specification.field? "description" 0).getD .null
    policies := (specification.field? "policies" 1).getD .null
    -- A resource is switched on unless it says otherwise.
    enabled := (specification.field? "enabled" 2).getD (.boolean true) }

def ofResource (resource : PolicyResource) : Outline where
  name := ofText resource.metadata.name
  generateName := ofText resource.metadata.generateName
  area := ofText resource.metadata.area
  revision := ofText resource.metadata.revision
  description := ofText resource.specification.description
  policies := .text resource.specification.policies
  enabled := .boolean resource.specification.enabled

end Outline

variable {document : Json} {resource : PolicyResource}

theorem field_of_decode (accepted : decode document = .ok resource) :
    Metadata.decode ((document.field? "metadata" 0).getD .null) = .ok resource.metadata ∧
    PolicySpecification.decode ((document.field? "spec" 1).getD .null) =
      .ok resource.specification := by
  cases document with
  | object members =>
      simp only [decode, bind_eq_ok_iff, demand_eq_ok_iff] at accepted
      rcases accepted with ⟨_, known, _, specified, metadata, rfl, specification, rfl, same⟩
      cases same
      rcases member?_of_readMember known with ⟨found, there, taken⟩
      rcases member?_of_readMember specified with ⟨part, present, read⟩
      rw [field?_object, field?_object, there, present]
      exact ⟨taken, read⟩
  | array elements =>
      rcases elements with _ | ⟨metadata, _ | ⟨specification, more⟩⟩
      · cases accepted
      · rcases bind_eq_ok_iff.mp accepted with ⟨_, -, short⟩
        cases short
      · simp only [decode, bind_eq_ok_iff] at accepted
        rcases accepted with ⟨_, known, _, specified, same⟩
        split at same
        · cases same
          exact ⟨known, specified⟩
        · cases same
  | _ => cases accepted

theorem read_of_decode (accepted : decode document = .ok resource) :
    Outline.read document = .ofResource resource := by
  rcases field_of_decode accepted with ⟨known, specified⟩
  rcases Metadata.member_of_decode known with ⟨name, generateName, area, revision⟩
  rcases PolicySpecification.field_of_decode specified with ⟨description, policies, enabled⟩
  simp only [Outline.read, Outline.ofResource, name, generateName, area, revision, description,
    policies, enabled]

theorem decode_encode (bare : resource.metadata.IsBare) :
    decode resource.encode = .ok resource := by
  simp [decode, encode, readMember, Except.map, Metadata.decode_encode bare,
    PolicySpecification.decode_encode]
  rfl

/-- What is written of a resource that was read, and whose metadata are a name, what a name is made
from, a namespace and a revision, is accepted and read as the same resource, so that the same is
written again; and it says of these fields and of the specification what was said at first. -/
theorem read_encode_of_decode (accepted : decode document = .ok resource)
    (bare : resource.metadata.IsBare) :
    decode resource.encode = .ok resource ∧
    Outline.read document = .ofResource resource ∧
    Outline.read resource.encode = Outline.read document := by
  have again := decode_encode bare
  have said := read_of_decode accepted
  exact ⟨again, said, (read_of_decode again).trans said.symm⟩

def retired : Json :=
  .object [
    ("spec", .object [("severity", .integer 3), ("enabled", .boolean false), ("description", .null),
      ("policies", .text "permit(principal, action, resource);")]),
    ("metadata", .object [("resourceVersion", .text "42"), ("labels", .null), ("owner", .array []),
      ("name", .text "legacy")])]

/-- A resource without a name yet, as an array of its fields, of which the last is left out. -/
def nameless : Json :=
  .array [.object [("namespace", .text "payments"), ("generateName", .text "readers-")],
    .array [.text "For the frontend", .text "forbid(principal, action, resource);"]]

theorem read_encode_of_decode_retired : ∃ off on,
    decode retired = .ok off ∧ decode off.encode = .ok off ∧
    (Outline.read off.encode).revision = .text "42" ∧
    (Outline.read off.encode).description = .null ∧
    (Outline.read off.encode).enabled = .boolean false ∧
    decode nameless = .ok on ∧ decode on.encode = .ok on ∧
    (Outline.read on.encode).generateName = .text "readers-" ∧
    (Outline.read on.encode).policies = .text "forbid(principal, action, resource);" ∧
    (Outline.read on.encode).enabled = .boolean true := by
  have off : decode retired = .ok _ := rfl
  have on : decode nameless = .ok _ := rfl
  rcases read_encode_of_decode off rfl with ⟨againOff, -, saidOff⟩
  rcases read_encode_of_decode on rfl with ⟨againOn, -, saidOn⟩
  refine ⟨_, _, off, againOff, ?_, ?_, ?_, on, againOn, ?_, ?_, ?_⟩
  · exact congrArg Outline.revision saidOff
  · exact congrArg Outline.description saidOff
  · exact congrArg Outline.enabled saidOff
  · exact congrArg Outline.generateName saidOn
  · exact congrArg Outline.policies saidOn
  · exact congrArg Outline.enabled saidOn

end PolicyResource

end PolicyWarden
