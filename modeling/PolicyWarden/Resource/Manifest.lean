import PolicyWarden.Resource.Policy

/-!
The definition by which a cluster learns of policy resources: their names, the columns shown for
them and the form of their specification.
-/

namespace PolicyWarden.Manifest

def column (name kind path : String) : Json :=
  .object [("jsonPath", .text path), ("name", .text name), ("type", .text kind)]

def field (description kind : String) (before after : List (String × Json)) : Json :=
  .object (before ++ ("description", .text description) :: after ++ [("type", .text kind)])

def specificationText : String :=
  "AuthorizationPolicy defines request authorization rules in Cedar.\n\n" ++
  "Compiled policies are evaluated in order of `namespace/name`.\n\n" ++
  "Example: ```yaml apiVersion: lattice.dev/v1alpha1 kind: AuthorizationPolicy metadata: name: " ++
  "checkout-readers namespace: payments spec: description: Allow the frontend to read checkout " ++
  "policies: | permit( principal == Lattice::Service::\"web/frontend\", action == " ++
  "Lattice::Action::\"GET\", resource ); ```"

def specification : Json :=
  .object [
    ("description", .text specificationText),
    ("properties", .object [
      ("description", field "Human-readable description of what this policy does" "string" []
        [("nullable", .boolean true)]),
      ("enabled", field
        "Whether this policy is enabled Disabled policies compile to an empty policy set" "boolean"
        [("default", .boolean true)] []),
      ("policies", field "Cedar policy text containing one or more statements" "string" [] [])]),
    ("required", .array [.text "policies"]),
    ("type", .text "object")]

/-- The form of the whole object; what is the same for all kinds is not repeated. -/
def form : Json :=
  .object [
    ("description",
      .text "Auto-generated derived type for AuthorizationPolicySpec via `CustomResource`"),
    ("properties", .object [("spec", specification)]),
    ("required", .array [.text "spec"]),
    ("title", .text PolicyResource.kind),
    ("type", .text "object")]

def version : Json :=
  .object [
    ("additionalPrinterColumns", .array [
      column "Description" "string" ".spec.description",
      column "Enabled" "boolean" ".spec.enabled",
      column "Age" "date" ".metadata.creationTimestamp"]),
    ("name", .text PolicyResource.version),
    ("schema", .object [("openAPIV3Schema", form)]),
    ("served", .boolean true),
    ("storage", .boolean true),
    ("subresources", .object [])]

def names : Json :=
  .object [
    ("categories", .array []),
    ("kind", .text PolicyResource.kind),
    ("plural", .text PolicyResource.plural),
    ("shortNames", .array [.text "authzpolicy"]),
    ("singular", .text "authorizationpolicy")]

def document : Json :=
  .object [
    ("apiVersion", .text "apiextensions.k8s.io/v1"),
    ("kind", .text "CustomResourceDefinition"),
    ("metadata", .object [("name", .text (PolicyResource.plural ++ "." ++ PolicyResource.group))]),
    ("spec", .object [
      ("group", .text PolicyResource.group),
      ("names", names),
      ("scope", .text "Namespaced"),
      ("versions", .array [version])])]

end PolicyWarden.Manifest
