import PolicyWarden.Cedar.Evaluation
import PolicyWarden.Cedar.SchemaMeaning
import PolicyWarden.Cedar.Validation
import PolicyWarden.Failure

/-!
The step from the text of a policy resource to policies that decide requests. Every fault of a text
is an error of its own; with a schema, a text without faults is validated too.
-/

namespace PolicyWarden.Cedar

structure Compiler where
  schema : Option Schema := none

structure CompiledPolicy where
  identity : Identity
  policies : PolicySet
deriving Repr

namespace CompiledPolicy

def decide (compiled : CompiledPolicy) (request : Request) (entities : Entities) : Decision :=
  compiled.policies.decide request entities

/-- How many policies decide; templates do not. -/
def size (compiled : CompiledPolicy) : Nat :=
  compiled.policies.length

end CompiledPolicy

namespace Compiler

def ofSchemaText (source : String) : Except SetupError Compiler :=
  match Schema.parse? source with
  | some schema => .ok ⟨some schema⟩
  | none => .error (.configuration "invalid Cedar schema: the text describes no schema")

def ofSchema? : Option String → Except SetupError Compiler
  | some source => ofSchemaText source
  | none => .ok {}

def parseError : CompileError :=
  ⟨.parse, "the text is no list of policies"⟩

def validationError : CompileError :=
  ⟨.validation, "the policy does not fit the schema"⟩

/-- The policies of a text, or as many errors as it has faults. -/
def compileText (compiler : Compiler) (source : String) : Except (List CompileError) PolicySet :=
  match Policy.parseAll source with
  | .error faults => .error (List.replicate faults parseError)
  | .ok policies =>
      let faults := (compiler.schema.map (·.faults policies)).getD 0
      if faults = 0 then .ok (PolicySet.ofPolicies policies)
      else .error (List.replicate faults validationError)

/-- A resource that is switched off compiles to no policies, whatever its text. -/
def compile (compiler : Compiler) (identity : Identity) (source : String) (enabled : Bool) :
    Except (List CompileError) CompiledPolicy := do
  let policies ← if enabled then compiler.compileText source else pure []
  return { identity, policies }

end Compiler

end PolicyWarden.Cedar
