import PolicyWarden.Scenario.Surroundings

/-!
Simulated worlds: scripts, dispatch calls and an intake at work together in simulated time. A world
moves in small steps. Scripts go first, then calls and then the intake; once nothing else can move,
calls notice that they were cancelled, compilers and round trips complete, and at last the clock
goes to the next time at which something is due.
-/

namespace PolicyWarden.Scenario

inductive Step (δ : Type) where
  | change (change : δ)
  | cancel
  /-- Dispatches an identity; the scripts run inside the fetches of the call, one in each. -/
  | dispatch (identity : Identity) (cancelled : Bool) (cancelAfter : Option Nat)
      (inside : List (List (Step δ)))
  | dispatchAll (identities : List Identity)
  | state
  /-- Starts the intake; the times of the script are counted from here. -/
  | start
  | waitUntil (time : Nat)
  | stop
  | isDone
  | waitForEnd
deriving Inhabited

structure StateReport where
  served : List (Identity × Nat)
  revisions : List (Identity × Option String)
  counters : Counters
  fetches : List (Identity × Nat)

inductive Report where
  | nothing
  /-- What a call came to, with the fetches of its identity so far and the reports of the scripts
  that ran to their end inside it. A call without a result was merged into another. -/
  | called (result : Option (Except ReconcileError Outcome)) (fetches : Nat)
      (inside : List (List Report))
  | together (results : List (Option (Except ReconcileError Outcome)))
  | state (report : StateReport)
  | flag (value : Bool)

instance : Inhabited Report := ⟨.nothing⟩

inductive Stage where
  | pausing (due : Nat)
  | travelling
  | scripted
  | ready
deriving DecidableEq, Repr

structure CallTask (δ : Type) where
  ticket : Nat
  path : List Nat
  identity : Identity
  token : Nat
  phase : Phase PolicyResource Cedar.CompiledPolicy := .arriving
  stage : Stage := .ready
  due : Nat := 0
  inside : List (List (Step δ)) := []
  reports : List (List Report) := []

structure ScriptTask (δ : Type) where
  /-- The calls inside whose fetches it runs; this tells scripts apart. -/
  path : List Nat
  steps : List (Step δ)
  reports : List Report := []
  pending : List Nat := []
  together : Bool := false

inductive Mode where
  | waking
  | running
deriving DecidableEq, Repr

inductive Processing where
  | idle
  | active (intake : Intake)
  /-- The intake is done; `sound` unless a call took it down. -/
  | done (sound : Bool)

structure World (σ δ : Type) where
  surroundings : Surroundings σ δ
  source : σ
  config : DispatchConfig
  rules : Rules PolicyResource Cedar.CompiledPolicy
  dispatcher : Dispatcher Cedar.CompiledPolicy := {}
  now : Nat := 0
  mode : Mode := .running
  calls : List (CallTask δ) := []
  scripts : List (ScriptTask δ) := []
  finished : Option (List Report) := none
  processing : Processing := .idle
  origin : Nat := 0
  /-- Tokens and tickets given out so far; token 0 is that of the intake. -/
  issued : Nat := 1
  cancelled : List Nat := []
  alarms : List (Nat × Nat) := []
  fetches : Table Identity Nat := Table.empty
  peak : Nat := 0
  unwound : Option String := none

namespace World

variable {σ δ : Type}

def isCancelled (world : World σ δ) (token : Nat) : Bool :=
  world.cancelled.contains token

def withCall (world : World σ δ) (task : CallTask δ) : World σ δ :=
  { world with calls := world.calls.map fun other =>
      if other.ticket = task.ticket then task else other }

def withScript (world : World σ δ) (task : ScriptTask δ) : World σ δ :=
  { world with scripts := world.scripts.map fun other =>
      if other.path = task.path then task else other }

def call? (world : World σ δ) (ticket : Nat) : Option (CallTask δ) :=
  world.calls.find? fun task => task.ticket = ticket

def withoutCalls (world : World σ δ) (tickets : List Nat) : World σ δ :=
  { world with calls := world.calls.filter fun task => !tickets.contains task.ticket }

/-- Drops all that runs inside the fetch of a call. What is in flight there stays in flight. -/
def dropInside (world : World σ δ) (ticket : Nat) : World σ δ :=
  { world with
    calls := world.calls.filter fun task => !task.path.contains ticket
    scripts := world.scripts.filter fun task => !task.path.contains ticket }

def isFetching (task : CallTask δ) : Bool :=
  match task.phase with
  | .attempting _ .fetching => true
  | _ => false

def enter (world : World σ δ) (task : CallTask δ) : World σ δ :=
  match task.inside with
  | [] => world.withCall { task with stage := .ready }
  | steps :: rest =>
      let script : ScriptTask δ := { path := task.ticket :: task.path, steps }
      { world.withCall { task with stage := .scripted, inside := rest } with
        scripts := world.scripts ++ [script] }

def beginFetch (world : World σ δ) (task : CallTask δ) : World σ δ :=
  let (source, pace) := world.surroundings.ask world.source task.identity
  let made := (world.fetches.find? task.identity).getD 0
  let world := { world with source, fetches := world.fetches.insert task.identity (made + 1) }
  let world := world.withCall task
  let world := { world with peak := max world.peak (world.calls.countP isFetching) }
  match pace with
  | .atOnce => world.enter task
  | .after milliseconds => world.withCall { task with stage := .pausing (world.now + milliseconds) }
  | .roundTrip => world.withCall { task with stage := .travelling }

def move (world : World σ δ) (task : CallTask δ) (move : Move PolicyResource) :
    Option (World σ δ) := do
  let (dispatcher, phase) ← task.phase.move world.rules world.config.backoff 1.0 task.identity
    (world.isCancelled task.token) world.dispatcher move
  let due := match phase with
    | .backingOff _ _ wait => world.now + wait.timerMilliseconds
    | _ => task.due
  let moved := { task with phase, due }
  let world := { world with dispatcher }
  if isFetching moved then return world.beginFetch moved else return world.withCall moved

def callStep? (world : World σ δ) (task : CallTask δ) : Option (World σ δ) :=
  match task.phase with
  | .attempting _ .fetching =>
      match task.stage with
      | .pausing due => if due ≤ world.now then some (world.enter task) else none
      | .ready =>
          let (source, answer) := world.surroundings.answer world.source task.identity
          { world with source }.move task (.answered answer)
      | _ => none
  | .backingOff _ _ _ => if task.due ≤ world.now then world.move task .waited else none
  | _ => world.move task .proceed

def addCall (world : World σ δ) (path : List Nat) (identity : Identity) (token : Nat)
    (inside : List (List (Step δ))) : Nat × World σ δ :=
  let ticket := world.issued
  (ticket, { world with
    issued := ticket + 1
    calls := world.calls ++ [{ ticket, path, identity, token, inside }] })

def addToken (world : World σ δ) (cancelled : Bool) (cancelAfter : Option Nat) : Nat × World σ δ :=
  let token := world.issued
  (token, { world with
    issued := token + 1
    cancelled := if cancelled then token :: world.cancelled else world.cancelled
    alarms := world.alarms ++ (cancelAfter.map fun time => (world.now + time, token)).toList })

def addCalls (world : World σ δ) (path : List Nat) (token : Nat) :
    List Identity → List Nat × World σ δ
  | [] => ([], world)
  | identity :: rest =>
      let (ticket, world) := world.addCall path identity token []
      let (tickets, world) := world.addCalls path token rest
      (ticket :: tickets, world)

def resultOf (task : CallTask δ) : Option (Except ReconcileError Outcome) :=
  match task.phase with
  | .returned result => some result
  | _ => none

def failureOf (tasks : List (CallTask δ)) : Option String :=
  tasks.findSome? fun task =>
    match task.phase with
    | .unwound message => some message
    | _ => none

def report (world : World σ δ) : StateReport × World σ δ :=
  let (result, cache) := world.dispatcher.cache.policiesFor false
  let served := match result with
    | .ok policies => policies.map fun policy => (policy.identity, policy.size)
    | .error _ => []
  let revisions := (Store.sortedEntries cache.store).map fun (identity, entry) =>
    (identity, entry.revision)
  ({ served, revisions, counters := cache.counters, fetches := world.fetches.entries },
    { world with dispatcher := { world.dispatcher with cache } })

def isDone (world : World σ δ) : Bool :=
  match world.processing with
  | .done _ => true
  | _ => false

def shown (world : World σ δ) (script : ScriptTask δ) (reports : List Report) : World σ δ :=
  world.withScript { script with
    steps := script.steps.tail, reports := reports ++ script.reports, pending := [] }

/-- The calls of the current step are over. -/
def gather (world : World σ δ) (script : ScriptTask δ) (tasks : List (CallTask δ)) : World σ δ :=
  let world := world.withoutCalls script.pending
  match failureOf tasks with
  | some message => { world with unwound := some message }
  | none =>
      let report := match script.together, tasks with
        | false, [task] =>
            .called (resultOf task) ((world.fetches.find? task.identity).getD 0) task.reports
        | _, tasks => .together (tasks.map resultOf)
      world.shown script [report]

/-- All steps of a script were made; a script inside a fetch lets the fetch go on. -/
def conclude (world : World σ δ) (script : ScriptTask δ) : World σ δ :=
  let reports := script.reports.reverse
  let world := { world with scripts := world.scripts.filter fun other => other.path ≠ script.path }
  match script.path with
  | [] => { world with finished := some reports }
  | ticket :: _ =>
      match world.call? ticket with
      | some task =>
          world.withCall { task with stage := .ready, reports := task.reports ++ [reports] }
      | none => world

def perform (world : World σ δ) (script : ScriptTask δ) : Step δ → Option (World σ δ)
  | .change change =>
      some ({ world with source := world.surroundings.change world.source change }.shown script
        [.nothing])
  | .cancel =>
      let token := script.path.head?.bind fun ticket => (world.call? ticket).map CallTask.token
      some ({ world with cancelled := token.toList ++ world.cancelled }.shown script [.nothing])
  | .dispatch identity cancelled cancelAfter inside =>
      let (token, world) := world.addToken cancelled cancelAfter
      let (ticket, world) := world.addCall script.path identity token inside
      some (world.withScript { script with pending := [ticket], together := false })
  | .dispatchAll identities =>
      if identities.isEmpty then some (world.shown script [.together []])
      else
        let (token, world) := world.addToken false none
        let (tickets, world) := world.addCalls script.path token identities
        some (world.withScript { script with pending := tickets, together := true })
  | .state =>
      let (report, world) := world.report
      some (world.shown script [.state report])
  | .start =>
      some ({ world with
        origin := world.now
        processing := .active { limit := world.config.maxConcurrent } }.shown script [])
  | .waitUntil time =>
      if world.origin + time ≤ world.now then some (world.shown script []) else none
  | .stop => some ({ world with cancelled := 0 :: world.cancelled }.shown script [.nothing])
  | .isDone => some (world.shown script [.flag world.isDone])
  | .waitForEnd => if world.isDone then some (world.shown script []) else none

def scriptStep? (world : World σ δ) (script : ScriptTask δ) : Option (World σ δ) :=
  match script.pending, script.steps with
  | [], [] => some (world.conclude script)
  | [], step :: _ => world.perform script step
  | pending, _ =>
      let tasks := pending.filterMap world.call?
      if tasks.all fun task => task.phase.isOver then some (world.gather script tasks) else none

/-- A call took the intake down, and all its calls with it. -/
def collapse (world : World σ δ) (intake : Intake) : World σ δ :=
  let tickets := intake.slots.map Slot.ticket
  let world := tickets.foldl dropInside world
  { world.withoutCalls tickets with processing := .done false }

def overSlot? (world : World σ δ) (intake : Intake) : Option (Slot × CallTask δ) :=
  intake.slots.findSome? fun slot => do
    let task ← world.call? slot.ticket
    if task.phase.isOver then some (slot, task) else none

def intakeStep? (world : World σ δ) : Option (World σ δ) :=
  match world.processing with
  | .active intake =>
      match world.overSlot? intake with
      | some (slot, task) =>
          if (failureOf [task]).isSome then some (world.collapse intake)
          else
            let due := world.now + world.config.requeueDelay.timerMilliseconds
            let freed := intake.finish slot (resultOf task) (world.isCancelled 0) due
            some { world.withoutCalls [slot.ticket] with processing := .active freed }
      | none =>
          if intake.isDone then some { world with processing := .done true }
          else if !intake.stopped && world.isCancelled 0 then
            some { world with processing := .active intake.stop }
          else
            let pulled := if intake.accepts && intake.arrived.isEmpty then
                world.surroundings.pull world.source world.now
                  (Store.sortedIdentities world.dispatcher.cache.store)
              else none
            match pulled with
            | some (source, identities) =>
                some { world with
                  source, processing := .active { intake with arrived := identities } }
            | none =>
                intake.next?.map fun (identity, taken) =>
                  let (ticket, world) := world.addCall [] identity 0 []
                  { world with processing := .active (taken.start ticket identity) }
  | _ => none

def isNoticeable (world : World σ δ) (task : CallTask δ) : Bool :=
  world.isCancelled task.token &&
    match task.phase with
    | .attempting _ .fetching => true
    | .backingOff _ _ _ => true
    | _ => false

/-- A call notices that it is cancelled; what ran inside its fetch is dropped. -/
def notice (world : World σ δ) (task : CallTask δ) : Option (World σ δ) :=
  (world.dropInside task.ticket).move task .noticed

def isSettling (task : CallTask δ) : Bool :=
  match task.phase, task.stage with
  | .attempting _ (.compiling _), _ => true
  | .attempting _ .fetching, .travelling => true
  | _, _ => false

def settleCall (world : World σ δ) (task : CallTask δ) : World σ δ :=
  match task.phase with
  | .attempting _ (.compiling _) => (world.move task .compiled).getD world
  | _ => world.enter task

def settle? (world : World σ δ) : Option (World σ δ) :=
  let source := world.surroundings.settle world.source
  let settling := world.calls.filter isSettling
  if source.isNone && settling.isEmpty then none
  else some (settling.foldl settleCall { world with source := source.getD world.source })

def dueTimes (world : World σ δ) : List Nat :=
  let ofCalls := world.calls.filterMap fun task =>
    match task.phase, task.stage with
    | .attempting _ .fetching, .pausing due => some due
    | .backingOff _ _ _, _ => some task.due
    | _, _ => none
  let ofScripts := world.scripts.filterMap fun script =>
    match script.pending, script.steps with
    | [], .waitUntil time :: _ => some (world.origin + time)
    | _, _ => none
  let ofIntake := match world.processing with
    | .active intake => intake.resting.map Rest.due
    | _ => []
  ofCalls ++ ofScripts ++ ofIntake ++ world.alarms.map (·.1) ++
    (world.surroundings.wakeAt world.source).toList

def advanceTo (world : World σ δ) (time : Nat) : World σ δ :=
  let (due, later) := world.alarms.partition fun alarm => alarm.1 ≤ time
  let processing := match world.processing with
    | .active intake => .active (intake.wake time)
    | other => other
  { world with
    now := time, mode := .waking, alarms := later, processing
    cancelled := due.map (·.2) ++ world.cancelled }

def tick? (world : World σ δ) : Option (World σ δ) :=
  ((world.dueTimes.filter fun time => world.now < time).min?).map world.advanceTo

def step? (world : World σ δ) : Option (World σ δ) :=
  match world.mode, world.calls.find? world.isNoticeable with
  | .waking, some task => world.notice task
  | .waking, none => some { world with mode := .running }
  | .running, noticeable =>
      (world.scripts.findSome? world.scriptStep?)
        <|> (world.calls.findSome? world.callStep?)
        <|> world.intakeStep?
        <|> (noticeable.map fun _ => { world with mode := .waking })
        <|> world.settle?
        <|> world.tick?

/-- Goes on until the outermost script is over or a call of a script fails without a result, for at
most so many steps. -/
def run : (limit : Nat) → World σ δ → World σ δ
  | 0, world => world
  | limit + 1, world =>
      if world.finished.isSome || world.unwound.isSome then world
      else
        match world.step? with
        | some next => run limit next
        | none => world

end World

end PolicyWarden.Scenario
