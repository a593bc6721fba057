import PolicyWarden.Cluster.Address
import PolicyWarden.Json.Parser
import PolicyWarden.Reconcile

/-!
Fetching a policy resource from a cluster: one request for the object that an identity names, and
what its reply says. That there is no such object is an answer; all else that goes wrong is a
failure.
-/

namespace PolicyWarden

inductive ClusterFault where
  | unqualified
  | invalidAddress
  | refused
  | unreadable
deriving DecidableEq, Repr

def ClusterFault.text : ClusterFault → String
  | .unqualified => "identity is not namespace/name"
  | .invalidAddress => "the names make no address"
  | .refused => "the cluster refused the request"
  | .unreadable => "the reply holds no policy resource"

structure Reply where
  status : Nat
  body : Option Json
deriving Repr

structure StatusBody where
  status : String
  message : String
  reason : String
  code : Nat
deriving DecidableEq, Repr

namespace StatusBody

open Json

def decodeCode : Json → Decoded Nat
  | .integer value =>
      if 0 ≤ value ∧ value < 65536 then .ok value.toNat else .error (.tooLarge value "u16")
  | other => .error (.kind other "u16")

def decode : Json → Decoded StatusBody
  | .object members => do
      let code ← readMember members "code" decodeCode
      let message ← readMember members "message" decodeText
      let reason ← readMember members "reason" decodeText
      let status ← readMember members "status" decodeText
      return {
        status := ← demand "status" status
        message := message.getD ""
        reason := reason.getD ""
        code := ← demand "code" code }
  | .array [status, message, reason, code] => do
      return ⟨← decodeText status, ← decodeText message, ← decodeText reason, ← decodeCode code⟩
  | other => .error (.kind other "struct ErrorResponse")

end StatusBody

namespace Reply

def ofText (status : Nat) (body : String) : Reply :=
  ⟨status, Json.parse? body⟩

def isRefusal (reply : Reply) : Bool :=
  400 ≤ reply.status && reply.status < 600

/-- The resource in a reply; a refusal for the reason that there is no such object is an answer. -/
def resource (reply : Reply) : Except ClusterFault (Option PolicyResource) :=
  if reply.isRefusal then
    match reply.body.map StatusBody.decode with
    | some (.ok body) => if body.reason = "NotFound" then .ok none else .error .refused
    | _ => .error .refused
  else
    match reply.body.map PolicyResource.decode with
    | some (.ok resource) => .ok (some resource)
    | _ => .error .unreadable

end Reply

namespace Identity

def request (identity : Identity) : Except ClusterFault String :=
  match identity.split? with
  | none => .error .unqualified
  | some (area, name) =>
      match Address.path? (Address.object area name) with
      | some path => .ok path
      | none => .error .invalidAddress

end Identity

end PolicyWarden
