import PolicyWarden.Identity

/-!
The ways in which bringing a policy up to date can fail, and their texts. Only a failed fetch is
worth another attempt.
-/

namespace PolicyWarden

/-- A resource could not be fetched, for another reason than that it does not exist. -/
structure FetchError where
  identity : Identity
  message : String
deriving DecidableEq, Repr

def FetchError.text (error : FetchError) : String :=
  "failed to fetch policy " ++ error.identity.text ++ ": " ++ error.message

inductive CompileError.Kind where
  | parse
  | validation
deriving DecidableEq, Repr

def CompileError.Kind.text : CompileError.Kind → String
  | .parse => "parse"
  | .validation => "validation"

structure CompileError where
  kind : CompileError.Kind
  message : String
deriving DecidableEq, Repr

def CompileError.text (error : CompileError) : String :=
  error.kind.text ++ " error: " ++ error.message

inductive ReconcileError where
  | fetch (error : FetchError)
  | cancelled (identity : Identity)
deriving DecidableEq, Repr

namespace ReconcileError

def text : ReconcileError → String
  | .fetch error => error.text
  | .cancelled identity => "reconcile of " ++ identity.text ++ " cancelled"

def retryable : ReconcileError → Bool
  | .fetch _ => true
  | .cancelled _ => false

end ReconcileError

inductive ReadError where
  | cancelled
deriving DecidableEq, Repr

def ReadError.text : ReadError → String
  | .cancelled => "policy read cancelled"

inductive SetupError where
  | configuration (message : String)
  | telemetry (message : String)
deriving DecidableEq, Repr

def SetupError.text : SetupError → String
  | .configuration message => "configuration error: " ++ message
  | .telemetry message => "telemetry error: " ++ message

end PolicyWarden
