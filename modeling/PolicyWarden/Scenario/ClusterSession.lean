import PolicyWarden.Json.Parser
import PolicyWarden.Scenario.ApiServer
import PolicyWarden.Scenario.World

/-!
Simulations of the whole controller against a cluster in memory: it watches the cluster, fetches
what it is told of and keeps its cache, while a script changes the cluster step by step.
-/

namespace PolicyWarden.Scenario

structure WatchedCluster where
  server : ApiServer
  watcher : Watcher := .fresh
  tracker : RelistTracker := {}
  rest : WatchRest := {}
  /-- The watch does not go on before this time. -/
  restUntil : Nat := 0

inductive ClusterChange where
  | apply (item : Item)
  | delete (identity : Identity)
  | silentPut (item : Item)
  | silentDelete (identity : Identity)
  | emit (type : String) (document : Json)
  | bookmark
  | failure (status : Nat)
  | line (text : String)
  | close
  | refuseGets (identity : Identity) (refusals : Refusals)
  | refuseLists (refusals : Refusals)
  | refuseWatches (refusals : Refusals)
deriving Inhabited

namespace ApiServer

def bookmark (server : ApiServer) : ApiServer :=
  let revision := server.revision + 1
  let content : Json := .object [("apiVersion", .text PolicyResource.apiVersion),
    ("kind", .text PolicyResource.kind),
    ("metadata", .object [("resourceVersion", .text (toString revision))])]
  { server with revision }.send (some (noticeOf "BOOKMARK" content))

/-- Sends a line as it is; one with nothing but blanks tells nothing. -/
def sendLine (server : ApiServer) (line : String) : ApiServer :=
  if (Json.skipBlanks line.toList).isEmpty then server else server.send (Json.parse? line)

def change (server : ApiServer) : ClusterChange → ApiServer
  | .apply item =>
      let (known, _, document, server) := server.put item
      server.tell (if known then "MODIFIED" else "ADDED") document
  | .delete identity =>
      match server.objects.find? identity with
      | some document => (server.remove identity).tell "DELETED" document
      | none => server
  | .silentPut item => (server.put item).2.2.2
  | .silentDelete identity => server.remove identity
  | .emit type document => server.tell type document
  | .bookmark => server.bookmark
  | .failure status => server.send (some (noticeOf "ERROR" (statusBody status)))
  | .line text => (text.splitOn "\n").foldl ApiServer.sendLine server
  | .close => server.close
  | .refuseGets identity refusals =>
      { server with refusedGets := server.refusedGets.insert identity refusals }
  | .refuseLists refusals => { server with refusedLists := some refusals }
  | .refuseWatches refusals => { server with refusedWatches := some refusals }

end ApiServer

namespace WatchedCluster

def observe (cluster : WatchedCluster) (stored : List Identity) (event : WatchEvent) :
    WatchedCluster × List Identity :=
  let (identities, tracker) := cluster.tracker.observe stored event
  ({ cluster with tracker, rest := {} }, identities)

def fault (cluster : WatchedCluster) (now : Nat) : WatchedCluster × List Identity :=
  ({ cluster with rest := cluster.rest.grown, restUntil := now + cluster.rest.next }, [])

def ask (cluster : WatchedCluster) (now : Nat) : WatchRequest → WatchedCluster × List Identity
  | .page continuation =>
      let (page, server) := cluster.server.page continuation
      match Watcher.onPage page with
      | .ok watcher => ({ cluster with server, watcher }, [])
      | .error _ => { cluster with server, watcher := .fresh }.fault now
  | .follow version =>
      match cluster.server.follow with
      | (true, server) => ({ cluster with server, watcher := .following version }, [])
      | (false, server) => { cluster with server }.fault now

def settleConnection (cluster : WatchedCluster) : WatchedCluster :=
  match cluster.watcher with
  | .following _ => cluster
  | _ => { cluster with server := { cluster.server with connection := none } }

def read (cluster : WatchedCluster) (now : Nat) (stored : List Identity) (version : String) :
    Option (WatchedCluster × List Identity) :=
  match cluster.server.connection with
  | none => some ({ cluster with watcher := .listed version }, [])
  | some { lines := [], closed := false } => none
  | some { lines := [], closed := true } =>
      some ({ cluster with watcher := .listed version }.settleConnection, [])
  | some { lines := line :: rest, closed } =>
      let notice := line.bind fun document => (Notice.decode document).toOption
      let (told, watcher) := Watcher.onNotice version notice
      let server := { cluster.server with connection := some { lines := rest, closed } }
      let cluster := { cluster with server, watcher }.settleConnection
      some <| match told with
        | none => (cluster, [])
        | some (.ok event) => cluster.observe stored event
        | some (.error _) => cluster.fault now

/-- The watch goes on by one step; none if it rests or waits for the cluster. -/
def pull (cluster : WatchedCluster) (now : Nat) (stored : List Identity) :
    Option (WatchedCluster × List Identity) :=
  if now < cluster.restUntil then none
  else
    match cluster.watcher.tell? with
    | some (event, watcher) => some ({ cluster with watcher }.observe stored event)
    | none =>
        match cluster.watcher.request?, cluster.watcher with
        | some request, _ => some (cluster.ask now request)
        | none, .following version => cluster.read now stored version
        | none, _ => none

def surroundings : Surroundings WatchedCluster ClusterChange where
  change cluster made := { cluster with server := cluster.server.change made }
  ask cluster identity :=
    (cluster, match identity.request with
      | .ok _ => .roundTrip
      | .error _ => .atOnce)
  answer cluster identity :=
    let (result, server) := cluster.server.fetch identity
    ({ cluster with server }, result.mapError fun fault => ⟨identity, fault.text⟩)
  pull := pull
  wakeAt cluster := some cluster.restUntil

end WatchedCluster

/-- One step of a session: what is done at once before the controller is given time. -/
inductive ClusterStep where
  | change (change : ClusterChange)
  | stop
  | together (steps : List ClusterStep)
deriving Inhabited

mutual
def ClusterStep.script : ClusterStep → List (Step ClusterChange)
  | .change made => [.change made]
  | .stop => [.stop]
  | .together steps => ClusterStep.scripts steps

def ClusterStep.scripts : List ClusterStep → List (Step ClusterChange)
  | [] => []
  | step :: rest => step.script ++ ClusterStep.scripts rest
end

structure ClusterSession where
  config : DispatchConfig
  compiler : Cedar.Compiler
  onRefusal : RefusalPolicy
  area : Option String
  pageSize : Nat
  pause : Nat

structure ClusterRecord where
  state : StateReport
  gets : List String

structure ClusterReport where
  records : List ClusterRecord
  endedEarly : Bool
  sound : Bool
  lists : List String
  watches : List String

namespace ClusterSession

abbrev ClusterWorld := World WatchedCluster ClusterChange

/-- More steps than a simulation that ends will take. -/
def limit : Nat := 100000000

def withoutRepetition : List String → List String
  | first :: second :: rest =>
      if first = second then withoutRepetition (second :: rest)
      else first :: withoutRepetition (second :: rest)
  | items => items

def play (world : ClusterWorld) (steps : List (Step ClusterChange)) :
    Option (ClusterWorld × List Report) := do
  let ended := { world with scripts := [{ path := [], steps }], finished := none }.run limit
  let reports ← ended.finished
  return (ended, reports)

/-- The requests for objects since the last record, which are in order if there is but one at a
time. -/
def drainGets (session : ClusterSession) (world : ClusterWorld) : List String × ClusterWorld :=
  let server := world.source.server
  let gets := (server.gets.filterMap ApiServer.addressed?).map Identity.text
  let shown := if session.config.maxConcurrent = 1 then gets else gets.mergeSort (· ≤ ·)
  (shown, { world with source := { world.source with server := { server with gets := [] } } })

def perform (session : ClusterSession) (world : ClusterWorld) (time : Nat)
    (steps : List (Step ClusterChange)) : Option (ClusterWorld × ClusterRecord) := do
  let (world, reports) ← play world (steps ++ [.waitUntil time, .state])
  match reports.getLast? with
  | some (.state state) =>
      let (gets, world) := session.drainGets world
      return (world, { state, gets })
  | _ => none

def performAll (session : ClusterSession) (world : ClusterWorld) (time : Nat) :
    List (List (Step ClusterChange)) → Option (ClusterWorld × List ClusterRecord)
  | [] => some (world, [])
  | steps :: rest => do
      let (world, record) ← session.perform world time steps
      let (world, records) ← session.performAll world (time + session.pause) rest
      return (world, record :: records)

def world (session : ClusterSession) (server : ApiServer) : ClusterWorld where
  surroundings := WatchedCluster.surroundings
  source := { server }
  config := session.config
  rules := PolicyResource.rules session.compiler session.onRefusal

def run (session : ClusterSession) (setup steps : List ClusterStep) : Option ClusterReport := do
  let server : ApiServer := { area := session.area, pageSize := session.pageSize }
  let (world, _) ← play (session.world server) (ClusterStep.scripts setup)
  let (world, records) ← session.performAll world session.pause
    ([.start] :: steps.map ClusterStep.script)
  let (world, reports) ← play world [.isDone, .stop, .waitForEnd]
  match world.processing, reports with
  | .done sound, [.flag endedEarly, _] =>
      let server := world.source.server
      return {
        records, endedEarly, sound
        lists := withoutRepetition server.lists
        watches := withoutRepetition server.watches }
  | _, _ => none

end ClusterSession

/-- Asks a cluster that holds some items for the resource of an identity, and tells which paths were
asked for. The reply to every request may be fixed, as may be the status of those for the identity.
-/
def fetchFrom (items : List Item) (fixedReply : Option Reply) (status : Option Nat)
    (identity : Identity) : List String × Except ClusterFault (Option PolicyResource) :=
  let filled := items.foldl (fun server item => (ApiServer.put server item).2.2.2) {}
  let refusedGets := match status with
    | some status => filled.refusedGets.insert identity ⟨status, none⟩
    | none => filled.refusedGets
  let (result, server) := ApiServer.fetch { filled with fixedReply, refusedGets } identity
  (server.gets, result)

end PolicyWarden.Scenario
