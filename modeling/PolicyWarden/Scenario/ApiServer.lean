import PolicyWarden.Scenario.Surroundings
import PolicyWarden.Watch.Watcher

/-!
A cluster kept in memory: it holds objects, lists them in pages, tells of changes over one
connection and can be made to refuse requests. It keeps a record of the requests it gets.
-/

namespace PolicyWarden.Scenario

/-- Requests that are going to be refused: with which status, and how many; no end to it without a
number. -/
structure Refusals where
  status : Nat
  left : Option Nat
deriving DecidableEq, Repr

def Refusals.take (refusals : Refusals) : Option Refusals :=
  match refusals.left with
  | none => some refusals
  | some (left + 1) => some { refusals with left := some left }
  | some 0 => none

structure Connection where
  /-- What was sent and not read; a line that holds no document is none. -/
  lines : List (Option Json) := []
  closed : Bool := false
deriving Repr

structure ApiServer where
  objects : Table Identity Json := Table.empty
  revision : Nat := 0
  pageSize : Nat := 0
  area : Option String := none
  connection : Option Connection := none
  /-- The reply to every request for an object, if there is to be only one. -/
  fixedReply : Option Reply := none
  refusedGets : Table Identity Refusals := Table.empty
  refusedLists : Option Refusals := none
  refusedWatches : Option Refusals := none
  gets : List String := []
  lists : List String := []
  watches : List String := []

inductive Item where
  | built (identity : Identity) (policies : String) (enabled : Bool) (description : Option String)
      (revision : Option String)
  | whole (document : Json)
deriving Inhabited, Repr

namespace ApiServer

def identityOf (document : Json) : Identity :=
  let metadata := document.member "metadata"
  .qualified ((metadata.member "namespace").text?.getD "") ((metadata.member "name").text?.getD "")

/-- The document of an item; a built one gets the next revision if it has none. -/
def build (server : ApiServer) : Item → Identity × Json × ApiServer
  | .whole document => (identityOf document, document, server)
  | .built identity policies enabled description revision =>
      let (area, name) := identity.split?.getD ("", identity.text)
      let (revision, server) := match revision with
        | some revision => (revision, server)
        | none => (toString (server.revision + 1), { server with revision := server.revision + 1 })
      let resource : PolicyResource := {
        metadata := { name := some name, area := some area, revision := some revision }
        specification := { description, policies, enabled } }
      (identity, resource.encode, server)

def put (server : ApiServer) (item : Item) : Bool × Identity × Json × ApiServer :=
  let (identity, document, server) := server.build item
  (server.objects.contains identity, identity, document,
    { server with objects := server.objects.insert identity document })

def remove (server : ApiServer) (identity : Identity) : ApiServer :=
  { server with objects := server.objects.erase identity }

def isWatched (server : ApiServer) (document : Json) : Bool :=
  match server.area with
  | none => true
  | some area => ((document.member "metadata").member "namespace").text? = some area

/-- Sends a line to the one who watches; it is lost if nobody does. -/
def send (server : ApiServer) (line : Option Json) : ApiServer :=
  { server with connection := server.connection.map fun connection =>
      if connection.closed then connection
      else { connection with lines := connection.lines ++ [line] } }

def close (server : ApiServer) : ApiServer :=
  { server with connection := server.connection.map fun connection =>
      { connection with closed := true } }

def noticeOf (type : String) (document : Json) : Json :=
  .object [("type", .text type), ("object", document)]

def tell (server : ApiServer) (type : String) (document : Json) : ApiServer :=
  if server.isWatched document then server.send (some (noticeOf type document)) else server

def statusBody (status : Nat) : Json :=
  let reason := if status = 404 then "NotFound" else "R" ++ toString status
  .object [("apiVersion", .text "v1"), ("kind", .text "Status"), ("status", .text "Failure"),
    ("message", .text "refused"), ("reason", .text reason), ("code", .integer status)]

def refusal (status : Nat) : Reply :=
  ⟨status, some (statusBody status)⟩

def addressed? (path : String) : Option Identity := do
  let rest ← path.dropPrefix? ("/apis/" ++ PolicyResource.apiVersion ++ "/namespaces/")
  match rest.toString.splitOn ("/" ++ PolicyResource.plural ++ "/") with
  | area :: first :: more =>
      let divider := "/" ++ PolicyResource.plural ++ "/"
      return .qualified area (divider.intercalate (first :: more))
  | _ => none

def get (server : ApiServer) (path : String) : Reply × ApiServer :=
  let server := { server with gets := server.gets ++ [path] }
  match server.fixedReply, addressed? path with
  | some reply, _ => (reply, server)
  | none, none => (refusal 404, server)
  | none, some identity =>
      match (server.refusedGets.find? identity).bind fun refusals =>
          refusals.take.map fun rest => (refusals.status, rest) with
      | some (status, rest) =>
          (refusal status, { server with refusedGets := server.refusedGets.insert identity rest })
      | none =>
          match server.objects.find? identity with
          | some document => (⟨200, some document⟩, server)
          | none => (refusal 404, server)

def fetch (server : ApiServer) (identity : Identity) :
    Except ClusterFault (Option PolicyResource) × ApiServer :=
  match identity.request with
  | .error fault => (.error fault, server)
  | .ok path =>
      let (reply, server) := server.get path
      (reply.resource, server)

def watchedPath (server : ApiServer) : String :=
  Address.collection server.area

def pageFrom (server : ApiServer) (start : Nat) : List Json × Option Nat :=
  let watched := (server.objects.entries.filter fun entry => server.isWatched entry.2).mergeSort
    fun left right => left.1.notAfter right.1
  let rest := (watched.drop start).map (·.2)
  if server.pageSize = 0 || rest.length ≤ server.pageSize then (rest, none)
  else (rest.take server.pageSize, some (start + server.pageSize))

/-- One page of the listing; none if the request is refused or a document cannot be read. -/
def page (server : ApiServer) (continuation : Option String) : Option Page × ApiServer :=
  match Address.path? server.watchedPath with
  | none => (none, server)
  | some path =>
      let server := { server with lists := server.lists ++ [path] }
      match server.refusedLists.bind Refusals.take with
      | some rest => (none, { server with refusedLists := some rest })
      | none =>
          let start := (continuation.bind String.toNat?).getD 0
          let (documents, next) := server.pageFrom start
          let resources := documents.mapM fun document => (PolicyResource.decode document).toOption
          (resources.map fun resources => {
            resources
            continuation := next.map toString
            version := some (toString server.revision) }, server)

def follow (server : ApiServer) : Bool × ApiServer :=
  match Address.path? server.watchedPath with
  | none => (false, server)
  | some path =>
      let server := { server with watches := server.watches ++ [path ++ " timeoutSeconds=" ++
        toString Watcher.timeoutSeconds] }
      match server.refusedWatches.bind Refusals.take with
      | some rest => (false, { server with refusedWatches := some rest })
      | none => (true, { server with connection := some {} })

end ApiServer

end PolicyWarden.Scenario
