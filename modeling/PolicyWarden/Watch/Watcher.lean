import PolicyWarden.Cluster.Fetch
import PolicyWarden.Watch.Relist

/-!
Watching a collection of a cluster: list it page by page, then follow what the cluster tells of
changes, and list it again once the two have come apart. `Watcher` says what to ask of the cluster
next and what follows from each reply; after a fault the caller rests before going on, longer each
time.
-/

namespace PolicyWarden

inductive Watcher where
  | fresh
  /-- Within a listing: where the next page starts, if there is one, what is left of this page, and
  the version that the collection had. -/
  | listing (continuation : Option String) (page : List PolicyResource) (version : Option String)
  | listed (version : String)
  | following (version : String)
deriving Repr

inductive WatchFault where
  | noVersion
  | listingFailed
  | followingFailed
  | unreadable
  | told (code : Nat)
deriving DecidableEq, Repr

inductive WatchRequest where
  | page (continuation : Option String)
  | follow (version : String)
deriving DecidableEq, Repr

structure Page where
  resources : List PolicyResource
  continuation : Option String
  version : Option String

inductive Notice where
  | added (resource : PolicyResource)
  | modified (resource : PolicyResource)
  | deleted (resource : PolicyResource)
  /-- Nothing has changed up to this version. -/
  | bookmark (version : String)
  | failure (code : Nat)

namespace Notice

open Json

def decodeBookmark : Json → Decoded Notice
  | .object members => do
      let _ ← demand "apiVersion" (← readMember members "apiVersion" decodeText)
      let _ ← demand "kind" (← readMember members "kind" decodeText)
      match ← demand "metadata" (← readMember members "metadata" .ok) with
      | .object metadata => do
          let version ← readMember metadata "resourceVersion" decodeText
          return .bookmark (← demand "resourceVersion" version)
      | other => .error (.kind other "struct BookmarkMeta")
  | other => .error (.kind other "struct Bookmark")

def ofType (type : String) (content : Json) : Decoded Notice :=
  match type with
  | "ADDED" => (PolicyResource.decode content).map .added
  | "MODIFIED" => (PolicyResource.decode content).map .modified
  | "DELETED" => (PolicyResource.decode content).map .deleted
  | "BOOKMARK" => decodeBookmark content
  | "ERROR" => (StatusBody.decode content).map fun body => .failure body.code
  | _ => .error (.kind (.text type) "a type of notices")

def decode : Json → Decoded Notice
  | .object members => do
      let type ← demand "type" (← readMember members "type" decodeText)
      let content ← demand "object" (← readMember members "object" .ok)
      ofType type content
  | .array [type, content] => do ofType (← decodeText type) content
  | other => .error (.kind other "adjacently tagged enum WatchEvent")

end Notice

namespace Watcher

/-- The code by which a cluster tells that a version is too old to go on from. -/
def goneCode : Nat := 410

def timeoutSeconds : Nat := 25

def nonempty (text : Option String) : Option String :=
  text.filter fun text => !text.isEmpty

def tell? : Watcher → Option (WatchEvent × Watcher)
  | .fresh => some (.listingBegun, .listing none [] none)
  | .listing continuation (first :: rest) version =>
      some (.listed first, .listing continuation rest version)
  | .listing none [] (some version) => some (.listingDone, .listed version)
  | _ => none

def request? : Watcher → Option WatchRequest
  | .listing none [] (some _) => none
  | .listing continuation [] _ => some (.page continuation)
  | .listed version => some (.follow version)
  | _ => none

def onPage : Option Page → Except WatchFault Watcher
  | none => .error .listingFailed
  | some page =>
      let version := nonempty page.version
      let continuation := nonempty page.continuation
      if version.isNone && continuation.isNone then .error .noVersion
      else .ok (.listing continuation page.resources version)

/-- What follows from a notice of an object: it needs a version to go on from. -/
def onObject (resource : PolicyResource) (event : WatchEvent) :
    Except WatchFault WatchEvent × Watcher :=
  match nonempty resource.metadata.revision with
  | some version => (.ok event, .following version)
  | none => (.error .noVersion, .fresh)

def onNotice (version : String) : Option Notice → Option (Except WatchFault WatchEvent) × Watcher
  | some (.added resource) =>
      let (told, next) := onObject resource (.applied resource)
      (some told, next)
  | some (.modified resource) =>
      let (told, next) := onObject resource (.applied resource)
      (some told, next)
  | some (.deleted resource) =>
      let (told, next) := onObject resource (.deleted resource)
      (some told, next)
  | some (.bookmark version) => (none, .following version)
  | some (.failure code) =>
      (some (.error (.told code)), if code = goneCode then .fresh else .following version)
  | none => (some (.error .unreadable), .following version)

end Watcher

structure WatchRest where
  next : Nat := 800
deriving DecidableEq, Repr

namespace WatchRest

def longest : Nat := 30000

/-- The rest after another fault: twice as long as the one before, up to a limit. -/
def grown (rest : WatchRest) : WatchRest :=
  ⟨min (2 * rest.next) longest⟩

end WatchRest

end PolicyWarden
