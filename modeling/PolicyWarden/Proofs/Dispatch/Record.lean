import PolicyWarden.Proofs.Dispatch.Concurrent

/-!
What is kept of dispatch calls is so: a fetch began before it was answered, and its answer is still
the resource of its identity if that has not changed since; a call that comes to a result has it
from its latest fetch. `recorded_of_run` says so of every run without cancellations.
-/

namespace PolicyWarden

variable {α ρ : Type}

def LastRead (fetches : List (Fetch α)) (answer : Answer α) : Prop :=
  ∃ begun time earlier, fetches = ⟨begun, some (time, answer)⟩ :: earlier

/-- A result comes from the latest fetch; an error is the one that the source gave. -/
def Settled (fetches : List (Fetch α)) : Except ReconcileError Outcome → Prop
  | .ok _ => ∃ resource, LastRead fetches (.ok resource)
  | .error error => ∃ failure, error = .fetch failure ∧ LastRead fetches (.error failure)

theorem Settled.ne_nil {fetches : List (Fetch α)} {result : Except ReconcileError Outcome}
    (settled : Settled fetches result) : fetches ≠ [] := by
  cases result with
  | ok outcome =>
      rcases settled with ⟨resource, begun, time, earlier, rfl⟩
      exact List.cons_ne_nil _ _
  | error error =>
      rcases settled with ⟨failure, -, begun, time, earlier, rfl⟩
      exact List.cons_ne_nil _ _

def Phase.Heard (fetches : List (Fetch α)) : Phase α ρ → Prop
  | .arriving => fetches = []
  | .attempting _ .fetching => fetches ≠ []
  | .attempting _ (.answered answer) => LastRead fetches answer
  | .attempting _ (.compiling resource) => LastRead fetches (.ok (some resource))
  | .attempting _ (.compiled resource _) => LastRead fetches (.ok (some resource))
  | .attempting _ (.ended result) => Settled fetches result
  | .concluding result => Settled fetches result
  | _ => True

namespace DispatchCall

theorem follow_of_arriving {call : DispatchCall α ρ} (before : call.phase = .arriving)
    (clock : Nat) (phase : Phase α ρ) :
    call.follow clock phase = { call with phase, arrived := some clock } := by
  simp [follow, before]

theorem follow_of_rearming {call : DispatchCall α ρ} (before : call.phase = .rearming)
    (clock : Nat) (phase : Phase α ρ) :
    call.follow clock phase = { call with phase, fetches := [] } := by
  simp [follow, before]

theorem arrived_follow {call : DispatchCall α ρ} (before : call.phase ≠ .arriving)
    (clock : Nat) (phase : Phase α ρ) : (call.follow clock phase).arrived = call.arrived := by
  unfold follow
  split
  · next arriving => exact absurd arriving before
  · rfl
  · rfl
  · rfl
  · rfl

theorem fetches_follow {call : DispatchCall α ρ} {phase : Phase α ρ}
    (running : call.phase ≠ .rearming) (unasked : ∀ attempt, phase ≠ .attempting attempt .fetching)
    (unanswered : ∀ attempt answer, phase ≠ .attempting attempt (.answered answer)) (clock : Nat) :
    (call.follow clock phase).fetches = call.fetches := by
  unfold follow
  split
  · rfl
  · next rearmed => exact absurd rearmed running
  · exact absurd rfl (unasked _)
  · exact absurd rfl (unanswered _ _)
  · rfl

theorem mem_fetches_follow {call : DispatchCall α ρ} {clock : Nat} {phase : Phase α ρ}
    {fetch : Fetch α} (member : fetch ∈ (call.follow clock phase).fetches) :
    fetch ∈ call.fetches ∨ fetch = ⟨clock, none⟩ ∨
      ∃ attempt answer, phase = .attempting attempt (.answered answer) ∧
        ∃ old ∈ call.fetches, fetch = { old with read := some (clock, answer) } := by
  unfold follow at member
  split at member
  · exact .inl member
  · cases member
  · rcases List.mem_cons.mp member with equal | old
    · exact .inr (.inl equal)
    · exact .inl old
  · next attempt answer _ _ =>
      cases fetches : call.fetches with
      | nil => simp [fetches] at member
      | cons head earlier =>
          simp only [fetches, List.modifyHead_cons, List.mem_cons] at member
          rcases member with equal | old
          · exact .inr (.inr ⟨attempt, answer, rfl, head, .head _, equal⟩)
          · exact .inl (.tail _ old)
  · exact .inl member

theorem begun_follow {call : DispatchCall α ρ} {clock : Nat} {phase : Phase α ρ}
    {fetch : Fetch α} (member : fetch ∈ (call.follow clock phase).fetches) :
    fetch.begun = clock ∨ ∃ old ∈ call.fetches, old.begun = fetch.begun := by
  rcases mem_fetches_follow member with old | rfl | ⟨_, _, -, old, known, rfl⟩
  · exact .inr ⟨fetch, old, rfl⟩
  · exact .inl rfl
  · exact .inr ⟨old, known, rfl⟩

end DispatchCall

namespace Phase.Turns

variable {rules : Rules α ρ} {backoff : Backoff} {call : DispatchCall α ρ}
  {dispatcher after : Dispatcher ρ} {move : Move α} {phase : Phase α ρ}

theorem given {identity : Identity} {cancelled : Bool} {before : Phase α ρ} {attempt : Attempt}
    {answer : Answer α}
    (turns : Turns rules backoff identity cancelled dispatcher move before after
      (.attempting attempt (.answered answer))) :
    move = .answered answer := by
  cases turns with
  | advance _ _ _ _ advances => cases advances
  | answered _ _ given => exact given

theorem heard
    (turns : Turns rules backoff call.identity false dispatcher move call.phase after phase)
    (clock : Nat) (heard : call.phase.Heard call.fetches) :
    phase.Heard (call.follow clock phase).fetches := by
  have same (running : call.phase ≠ .rearming)
      (unasked : ∀ attempt, phase ≠ .attempting attempt .fetching)
      (unanswered : ∀ attempt answer, phase ≠ .attempting attempt (.answered answer))
      (heard : phase.Heard call.fetches) : phase.Heard (call.follow clock phase).fetches := by
    rw [call.fetches_follow running unasked unanswered]
    exact heard
  generalize before : call.phase = old at turns heard same
  cases turns with
  | merge => trivial
  | enter => trivial
  | advance attempt state next effects advances =>
      cases advances with
      | ask => simp [DispatchCall.follow, before, Heard]
      | failed error => exact same nofun nofun nofun ⟨error, rfl, heard⟩
      | removed => exact same nofun nofun nofun ⟨none, heard⟩
      | absent => exact same nofun nofun nofun ⟨none, heard⟩
      | unchanged resource => exact same nofun nofun nofun ⟨some resource, heard⟩
      | changed => exact same nofun nofun nofun heard
      | upserted resource => exact same nofun nofun nofun ⟨some resource, heard⟩
      | retained resource => exact same nofun nofun nofun ⟨some resource, heard⟩
      | evicted resource => exact same nofun nofun nofun ⟨some resource, heard⟩
      | unwound => trivial
      | refrain unwanted => cases unwanted
      | withdrawn _ _ unwanted => cases unwanted
  | answered attempt answer given =>
      cases fetches : call.fetches with
      | nil => exact absurd fetches heard
      | cons head earlier =>
          exact ⟨head.begun, clock, earlier, by simp [DispatchCall.follow, before, fetches]⟩
  | compiled => exact same nofun nofun nofun heard
  | conclude => exact same nofun nofun nofun heard
  | backOff => trivial
  | failWait => trivial
  | crash => trivial
  | again => trivial
  | failNext => trivial
  | leave => trivial
  | stay => trivial
  | rearm => trivial
  | abandon _ unwanted => cases unwanted
  | giveUp _ _ _ unwanted => cases unwanted

end Phase.Turns

/-- A fetch began in the past, was answered after that, and its answer is the resource as it is
now if that has not changed since. -/
structure Fetch.Genuine (state : Dispatching α ρ) (identity : Identity) (fetch : Fetch α) :
    Prop where
  begun : fetch.begun < state.clock
  read : ∀ time answer, fetch.read = some (time, answer) → fetch.begun < time ∧ time < state.clock
  current : ∀ time resource, fetch.read = some (time, .ok resource) →
    (∀ changed, (identity, changed) ∈ state.changes → changed < time) →
    resource = state.resources identity

structure DispatchCall.Recorded (state : Dispatching α ρ) (call : DispatchCall α ρ) : Prop where
  made : call.made < state.clock
  arrived : ∀ time, call.arrived = some time → call.made < time ∧ time < state.clock
  looked : call.phase ≠ .arriving → ∃ time, call.arrived = some time
  heard : call.phase.Heard call.fetches
  genuine : ∀ fetch ∈ call.fetches, fetch.Genuine state call.identity

theorem DispatchCall.Recorded.fetches_of_arriving {state : Dispatching α ρ}
    {call : DispatchCall α ρ} (recorded : call.Recorded state) (before : call.phase = .arriving) :
    call.fetches = [] := by
  have heard := recorded.heard
  rw [before] at heard
  exact heard

structure FinishedRun.Recorded (state : Dispatching α ρ) (run : FinishedRun α) : Prop where
  settled : Settled run.fetches run.result
  genuine : ∀ fetch ∈ run.fetches, fetch.Genuine state run.identity

namespace Dispatching

structure Recorded (state : Dispatching α ρ) : Prop where
  calls : ∀ call ∈ state.calls, call.Recorded state
  runs : ∀ run ∈ state.runs, run.Recorded state

variable {rules : Rules α ρ} {backoff : Backoff} {state next : Dispatching α ρ}
  {act : DispatchAct α}

theorem recorded_start (cache : Cache ρ) (resources : Identity → Option α) :
    Recorded (start cache resources) where
  calls := by simp [start]
  runs := by simp [start]

theorem clock_of_step (stepped : step rules backoff state act = some next) :
    next.clock = state.clock + 1 := by
  cases act with
  | change identity resource => cases stepped; rfl
  | call identity token => cases stepped; rfl
  | cancel token => cases stepped; rfl
  | move ticket jitter prompt =>
      rcases turns_of_step stepped with ⟨call, dispatcher, phase, -, -, rfl⟩
      rfl

end Dispatching

theorem Fetch.Genuine.of_step {rules : Rules α ρ} {backoff : Backoff}
    {state next : Dispatching α ρ} {act : DispatchAct α} {identity : Identity} {fetch : Fetch α}
    (genuine : fetch.Genuine state identity)
    (stepped : Dispatching.step rules backoff state act = some next) :
    fetch.Genuine next identity := by
  have clock := Dispatching.clock_of_step stepped
  refine ⟨?begun, ?read, ?current⟩
  case begun =>
    have := genuine.begun
    omega
  case read =>
    intro time answer read
    have := genuine.read time answer read
    omega
  case current =>
    intro time resource read unchanged
    cases act with
    | change changed resource =>
        cases stepped
        have different : changed ≠ identity := by
          rintro rfl
          have := unchanged state.clock (.head _)
          have := genuine.read time _ read
          omega
        rw [genuine.current time _ read fun moment known => unchanged moment (.tail _ known)]
        simp [different.symm]
    | call identity token => cases stepped; exact genuine.current time resource read unchanged
    | cancel token => cases stepped; exact genuine.current time resource read unchanged
    | move ticket jitter prompt =>
        rcases Dispatching.turns_of_step stepped with ⟨call, dispatcher, phase, -, -, rfl⟩
        exact genuine.current time resource read unchanged

theorem DispatchCall.Recorded.of_step {rules : Rules α ρ} {backoff : Backoff}
    {state next : Dispatching α ρ} {act : DispatchAct α} {call : DispatchCall α ρ}
    (recorded : call.Recorded state)
    (stepped : Dispatching.step rules backoff state act = some next) : call.Recorded next := by
  have clock := Dispatching.clock_of_step stepped
  refine ⟨?made, ?arrived, recorded.looked, recorded.heard, ?genuine⟩
  case made =>
    have := recorded.made
    omega
  case arrived =>
    intro time arrived
    have := recorded.arrived time arrived
    omega
  case genuine => exact fun fetch member => (recorded.genuine fetch member).of_step stepped

theorem FinishedRun.Recorded.of_step {rules : Rules α ρ} {backoff : Backoff}
    {state next : Dispatching α ρ} {act : DispatchAct α} {run : FinishedRun α}
    (recorded : run.Recorded state)
    (stepped : Dispatching.step rules backoff state act = some next) : run.Recorded next :=
  ⟨recorded.settled, fun fetch member => (recorded.genuine fetch member).of_step stepped⟩

namespace Dispatching

variable {rules : Rules α ρ} {backoff : Backoff} {state next : Dispatching α ρ}
  {act : DispatchAct α}

theorem recorded_follow (ticket : Nat) {call : DispatchCall α ρ} {dispatcher : Dispatcher ρ}
    {phase : Phase α ρ} {prompt : Prompt} (recorded : call.Recorded state)
    (turns : Phase.Turns rules backoff call.identity false state.dispatcher
      (prompt.move (state.resources call.identity)) call.phase dispatcher phase) :
    (call.follow state.clock phase).Recorded
      (state.replace ticket (call.follow state.clock phase) dispatcher) := by
  have made := recorded.made
  refine ⟨?made, ?arrived, ?looked, ?heard, ?genuine⟩
  case made =>
    rw [call.follow_made]
    exact Nat.lt_succ_of_lt made
  case arrived =>
    intro time arrived
    rw [call.follow_made]
    change call.made < time ∧ time < state.clock + 1
    by_cases before : call.phase = .arriving
    · rw [call.follow_of_arriving before] at arrived
      cases arrived
      omega
    · rw [call.arrived_follow before] at arrived
      have := recorded.arrived time arrived
      omega
  case looked =>
    intro _
    by_cases before : call.phase = .arriving
    · exact ⟨state.clock, by rw [call.follow_of_arriving before]⟩
    · rw [call.arrived_follow before]
      exact recorded.looked before
  case heard =>
    rw [call.follow_phase]
    exact turns.heard state.clock recorded.heard
  case genuine =>
    intro fetch member
    rw [call.follow_identity]
    rcases DispatchCall.mem_fetches_follow member with
      old | rfl | ⟨attempt, answer, rfl, old, known, rfl⟩
    · have genuine := recorded.genuine fetch old
      exact ⟨Nat.lt_succ_of_lt genuine.begun,
        fun time answer read => (genuine.read time answer read).imp_right Nat.lt_succ_of_lt,
        genuine.current⟩
    · exact ⟨Nat.lt_succ_self _, nofun, nofun⟩
    · have begun := (recorded.genuine old known).begun
      refine ⟨Nat.lt_succ_of_lt begun, ?_, ?_⟩
      · rintro time _ ⟨⟩
        exact ⟨begun, Nat.lt_succ_self _⟩
      · rintro time resource ⟨⟩ _
        rcases Prompt.answered_of_move turns.given with equal | ⟨error, equal⟩
        · exact Except.ok.inj equal
        · cases equal

theorem Recorded.of_step (recorded : Recorded state) (wanted : next.cancelled = [])
    (stepped : step rules backoff state act = some next) : Recorded next := by
  have older : ∀ call ∈ state.calls, call.Recorded next := fun call member =>
    (recorded.calls call member).of_step stepped
  have earlier : ∀ run ∈ state.runs, run.Recorded next := fun run member =>
    (recorded.runs run member).of_step stepped
  have uncancelled := cancelled_of_step stepped wanted
  cases act with
  | change identity resource => cases stepped; exact ⟨older, earlier⟩
  | call identity token =>
      cases stepped
      refine ⟨fun call member => ?_, earlier⟩
      rcases List.mem_append.mp member with old | new
      · exact older call old
      · cases List.mem_singleton.mp new
        exact ⟨Nat.lt_succ_self _, nofun, fun looked => absurd rfl looked, rfl, nofun⟩
  | cancel token => cases stepped; exact ⟨older, earlier⟩
  | move ticket jitter prompt =>
      rcases turns_of_step stepped with ⟨call, dispatcher, phase, found, turns, rfl⟩
      have unwanted : state.isCancelled call.token = false := by
        simp [isCancelled, uncancelled]
      rw [unwanted] at turns
      have known := recorded.calls call (List.mem_of_getElem? found)
      have follows := recorded_follow ticket known turns
      refine ⟨fun other member => ?_, fun run member => ?_⟩
      · rcases List.mem_or_eq_of_mem_set member with old | rfl
        · exact older other old
        · exact follows
      · rcases List.mem_append.mp member with new | old
        · rcases DispatchCall.mem_finishedRuns new with ⟨result, concluding, rfl⟩
          have heard := follows.heard
          rw [concluding] at heard
          exact ⟨heard, follows.genuine⟩
        · exact earlier run old

theorem recorded_of_run {acts : List (DispatchAct α)} {cache : Cache ρ}
    {resources : Identity → Option α}
    (ran : run rules backoff acts (start cache resources) = some state)
    (wanted : state.cancelled = []) : Recorded state := by
  refine Execution.run_invariant (fun state => state.cancelled = [] → Recorded state) ?_ ?_ ran
    wanted
  · exact fun _ => recorded_start cache resources
  · intro before act after induction stepped uncancelled
    exact (induction (cancelled_of_step stepped uncancelled)).of_step uncancelled stepped

end Dispatching

end PolicyWarden
