import PolicyWarden.Reconcile

/-!
Sessions with a policy cache: a list of steps on a cache whose source is kept in memory and whose
compiler works on marked texts. The steps given for the fetch or the compilation of a reconcile run
inside it, so that a session can come between the parts of a reconcile.
-/

namespace PolicyWarden.Scenario

structure Draft where
  text : String
  revision : Option String
deriving DecidableEq, Repr

/-- How texts compile. `panic:` fails without a verdict, `!` opens a list of faults divided by `|`,
where `v:` marks a fault of validation, and any other text becomes a policy. -/
def compileDraft (identity : Identity) (draft : Draft) : Verdict String :=
  match draft.text.dropPrefix? "panic:" with
  | some message => .panicked message.toString
  | none =>
      match draft.text.dropPrefix? "!" with
      | none => .accepted (identity.text ++ "=" ++ draft.text)
      | some faults =>
          let fault (part : String) : CompileError :=
            match part.dropPrefix? "v:" with
            | some message => ⟨.validation, message.toString⟩
            | none => ⟨.parse, part⟩
          .refused (if faults.isEmpty then [] else (faults.toString.splitOn "|").map fault)

inductive CacheStep where
  | put (identity : Identity) (draft : Draft)
  | delete (identity : Identity)
  | fail (identity : Identity) (error : FetchError)
  | calls
  | upsert (identity : Identity) (policy : String) (revision : Option String)
  | upsertAll (identities : List Identity)
  | remove (identity : Identity)
  | contains (identity : Identity)
  | revision (identity : Identity)
  | identities
  | size
  | isEmpty
  | policies
  | invalidate
  | generation
  | snapshot (hold : Option String)
  | held (name : String)
  | snapshots (readers : Nat)
  | read (cancelled : Bool)
  | counters
  | reconcile (identity : Identity) (cancelled hang : Bool)
      (duringFetch duringCompile : Option (List CacheStep))
  | cancel
  | reconcileAll (identities : List Identity)
deriving Inhabited

inductive CacheReport where
  | nothing
  | flag (value : Bool)
  | count (value : Nat)
  | texts (values : List String)
  | revision (value : Option String)
  | calls (fetches compilations : Nat)
  | generation (value : UInt64)
  /-- The policies, and whether they are the same shared list that the read before returned. -/
  | snapshot (policies : List String) (sameAsBefore : Option Bool)
  | held (found : Option (List String × Bool))
  | snapshots (hits recomputes : UInt64) (allSame : Bool) (policies : List String)
  | read (result : Except ReadError (List String))
  | counters (value : Counters)
  | reconciled (ended : Reconcile Draft String)
      (duringFetch duringCompile : Option (List CacheReport))
  | together (reports : List CacheReport)
  | unavailable

structure CacheSession where
  rules : Rules Draft String
  /-- Whether steps may use the snapshots directly; otherwise they only read policies. -/
  snapshotsShown : Bool := true
  cache : Cache String := {}
  held : Table Identity (Except FetchError Draft) := Table.empty
  fetches : Nat := 0
  compilations : Nat := 0
  cancelled : List Bool := []
  last : Option (Snapshot String) := none
  kept : Table String (Snapshot String) := Table.empty

namespace CacheSession

/-- The rules of a session; without revisions every resource is taken as new. -/
def rulesFor (onRefusal : RefusalPolicy) (revisions : Bool) : Rules Draft String where
  revision draft := if revisions then draft.revision else none
  compile := compileDraft
  onRefusal := onRefusal

def answer (session : CacheSession) (identity : Identity) : Answer Draft :=
  match session.held.find? identity with
  | some (.error error) => .error error
  | some (.ok draft) => .ok (some draft)
  | none => .ok none

def isCancelled (session : CacheSession) : Bool :=
  session.cancelled.head?.getD false

def cancel (session : CacheSession) : CacheSession :=
  { session with cancelled := session.cancelled.set 0 true }

def withStore (session : CacheSession) (change : Store String → Store String) : CacheSession :=
  { session with cache := { session.cache with store := change session.cache.store } }

def upsertAll (session : CacheSession) (identities : List Identity) : CacheSession :=
  session.withStore fun store => identities.foldl (fun store identity =>
    Store.upsert store identity ("v:" ++ identity.text) none) store

def advance (session : CacheSession) (identity : Identity) (state : Reconcile Draft String) :
    CacheSession × Reconcile Draft String :=
  match state.advance session.rules identity session.isCancelled session.cache with
  | some (cache, next) => ({ session with cache }, next)
  | none => (session, state)

def afterFetch (session : CacheSession) (identity : Identity) (hang : Bool) :
    CacheSession × Reconcile Draft String :=
  if hang then (session, Reconcile.fetching.abandon identity)
  else session.advance identity (.answered (session.answer identity))

def afterCompile (session : CacheSession) (identity : Identity) (state : Reconcile Draft String) :
    CacheSession × Reconcile Draft String :=
  session.advance identity (state.compile session.rules identity)

def reconcileAlone (session : CacheSession) (identity : Identity) :
    CacheSession × CacheReport :=
  let session := { session with
    fetches := session.fetches + 1, cancelled := false :: session.cancelled }
  let (session, state) := session.afterFetch identity false
  let (session, state) := match state with
    | .compiling _ =>
        { session with compilations := session.compilations + 1 }.afterCompile identity state
    | _ => (session, state)
  ({ session with cancelled := session.cancelled.tail }, .reconciled state none none)

def reconcileEach (session : CacheSession) : List Identity → CacheSession × List CacheReport
  | [] => (session, [])
  | identity :: rest =>
      let (session, report) := session.reconcileAlone identity
      let (session, reports) := session.reconcileEach rest
      (session, report :: reports)

def readSnapshot (session : CacheSession) (hold : Option String) : CacheSession × CacheReport :=
  let (snapshot, cache) := session.cache.read
  let same := session.last.map fun before => before.serial == snapshot.serial
  let kept := match hold with
    | some name => session.kept.insert name snapshot
    | none => session.kept
  ({ session with cache, kept, last := some snapshot }, .snapshot snapshot.policies same)

def readTogether (session : CacheSession) (readers : Nat) : CacheSession × CacheReport :=
  let before := session.cache.counters
  let (snapshots, cache) := session.cache.readTogether readers
  let first := snapshots.head?
  let allSame := snapshots.all fun snapshot => first.any (·.serial == snapshot.serial)
  ({ session with cache }, .snapshots (cache.counters.hits - before.hits)
    (cache.counters.recomputes - before.recomputes) allSame ((first.map (·.policies)).getD []))

def findHeld (session : CacheSession) (name : String) : CacheReport :=
  .held <| (session.kept.find? name).map fun snapshot =>
    (snapshot.policies, session.last.any (·.serial == snapshot.serial))

def showing (session : CacheSession) (done : CacheSession × CacheReport) :
    CacheSession × CacheReport :=
  if session.snapshotsShown then done else (session, .unavailable)

mutual
def runStep (session : CacheSession) : CacheStep → CacheSession × CacheReport
  | .put identity draft =>
      ({ session with held := session.held.insert identity (.ok draft) }, .nothing)
  | .delete identity =>
      ({ session with held := session.held.erase identity },
        .flag (session.held.contains identity))
  | .fail identity error =>
      ({ session with held := session.held.insert identity (.error error) }, .nothing)
  | .calls => (session, .calls session.fetches session.compilations)
  | .upsert identity policy revision =>
      let session := session.withStore (Store.upsert · identity policy revision)
      (session, .count session.cache.store.size)
  | .upsertAll identities =>
      let session := session.upsertAll identities
      (session, .count session.cache.store.size)
  | .remove identity =>
      let (found, store) := Store.remove session.cache.store identity
      (session.withStore fun _ => store, .flag found)
  | .contains identity => (session, .flag (session.cache.store.contains identity))
  | .revision identity => (session, .revision (Store.revision session.cache.store identity))
  | .identities =>
      (session, .texts ((Store.sortedIdentities session.cache.store).map Identity.text))
  | .size => (session, .count session.cache.store.size)
  | .isEmpty => (session, .flag session.cache.store.isEmpty)
  | .policies => (session, .texts (Store.sortedPolicies session.cache.store))
  | .invalidate =>
      let cache := session.cache.invalidate
      session.showing ({ session with cache }, .generation cache.generation)
  | .generation => session.showing (session, .generation session.cache.generation)
  | .snapshot hold => session.showing (session.readSnapshot hold)
  | .held name => (session, session.findHeld name)
  | .snapshots readers => session.showing (session.readTogether readers)
  | .read cancelled =>
      let (result, cache) := session.cache.policiesFor cancelled
      ({ session with cache }, .read result)
  | .counters => (session, .counters session.cache.counters)
  | .cancel => (session.cancel, .nothing)
  | .reconcileAll identities =>
      let (session, reports) := session.reconcileEach identities
      (session, .together reports)
  | .reconcile identity cancelled hang duringFetch duringCompile =>
      let session := { session with cancelled := cancelled :: session.cancelled }
      let (session, state) := session.advance identity .starting
      let (session, state, fetchReports) := match state with
        | .fetching =>
            let session := { session with fetches := session.fetches + 1 }
            let (session, reports) := session.runInside duringFetch
            let (session, state) := session.afterFetch identity hang
            (session, state, reports)
        | state => (session, state, none)
      let (session, state, compileReports) := match state with
        | .compiling draft =>
            let session := { session with compilations := session.compilations + 1 }
            let (session, reports) := session.runInside duringCompile
            let (session, state) := session.afterCompile identity (.compiling draft)
            (session, state, reports)
        | state => (session, state, none)
      ({ session with cancelled := session.cancelled.tail },
        .reconciled state fetchReports compileReports)

def runInside (session : CacheSession) :
    Option (List CacheStep) → CacheSession × Option (List CacheReport)
  | none => (session, none)
  | some steps =>
      let (session, reports) := session.run steps
      (session, some reports)

def run (session : CacheSession) : List CacheStep → CacheSession × List CacheReport
  | [] => (session, [])
  | step :: rest =>
      let (session, report) := session.runStep step
      let (session, reports) := session.run rest
      (session, report :: reports)
end

end CacheSession

end PolicyWarden.Scenario
