import PolicyWarden.Proofs.Dispatch.Exclusion
import PolicyWarden.Proofs.Dispatch.Serving

/-!
How the run of an intake ends. It returns only after its cancellation, never because its stream has
ended; its dispatches are over by then, and afterwards nothing moves. After the cancellation what is
under way is wound up, while no event is taken, no fetch begins, and no rest is added. This does not
depend on what a dispatch was doing at the cancellation: whichever way it goes from there, it comes
past a look at its token before it could fetch again.
-/

namespace PolicyWarden

variable {α ρ : Type}

theorem Phase.Turns.fetching_of_cancelled {rules : Rules α ρ} {backoff : Backoff}
    {identity : Identity} {dispatcher after : Dispatcher ρ} {move : Move α} {phase next : Phase α ρ}
    (turns : Phase.Turns rules backoff identity true dispatcher move phase after next) :
    next.fetching = false := by
  cases turns with
  | advance _ _ _ effects advances =>
      cases advances with
      | ask wanted => cases wanted
      | _ => rfl
  | _ => rfl

namespace Admitting

variable {rules : Rules α ρ} {backoff : Backoff} {state next : Admitting α ρ} {act : AdmitAct α}

def Tokened (state : Admitting α ρ) : Prop :=
  ∀ call ∈ state.dispatching.calls, call.token = 0

theorem Tokened.of_step (tokened : Tokened state)
    (stepped : step rules backoff state act = some next) : Tokened next := by
  intro call member
  cases act with
  | event | change | wake | cancel => cases stepped; exact tokened call member
  | take =>
      rcases take_of_step stepped with ⟨identity, intake, -, called, -⟩
      rw [← Option.some.inj called] at member
      rcases List.mem_append.mp member with old | fresh
      · exact tokened call old
      · exact List.mem_singleton.mp fresh ▸ rfl
  | move ticket jitter prompt due =>
      rcases move_of_step stepped with ⟨_, dispatched, -, -⟩
      rcases Dispatching.turns_of_step dispatched with ⟨mover, _, _, found, -, moved⟩
      rw [moved] at member
      rcases List.mem_or_eq_of_mem_set member with old | rfl
      · exact tokened call old
      · rw [mover.follow_token]
        exact tokened mover (List.mem_of_getElem? found)
  | stop =>
      simp only [step] at stepped
      split at stepped
      · cases stepped; exact tokened call member
      · cases stepped

/-- On the way from `state` to `later` no event was taken and no fetch began. -/
structure Winding (state later : Admitting α ρ) : Prop where
  arrived : state.intake.arrived <+: later.intake.arrived
  rested : state.intake.rested <+: later.intake.rested
  calls : later.dispatching.calls.length = state.dispatching.calls.length
  fetches : ∀ (ticket : Nat) (call : DispatchCall α ρ),
    later.dispatching.calls[ticket]? = some call → call.phase.fetching = true →
    state.dispatching.calls[ticket]? = some call

theorem Winding.refl (state : Admitting α ρ) : Winding state state :=
  ⟨List.prefix_rfl, List.prefix_rfl, rfl, fun _ _ present _ => present⟩

theorem Winding.trans {middle : Admitting α ρ} (first : Winding state middle)
    (second : Winding middle next) : Winding state next where
  arrived := first.arrived.trans second.arrived
  rested := first.rested.trans second.rested
  calls := second.calls.trans first.calls
  fetches ticket call present fetching :=
    first.fetches ticket call (second.fetches ticket call present fetching) fetching

theorem Winding.alike {other : Admitting α ρ} (winding : Winding state next)
    (arrived : other.intake.arrived = next.intake.arrived)
    (rested : other.intake.rested = next.intake.rested)
    (dispatching : other.dispatching = next.dispatching) : Winding state other where
  arrived := arrived ▸ winding.arrived
  rested := rested ▸ winding.rested
  calls := dispatching ▸ winding.calls
  fetches := dispatching ▸ winding.fetches

theorem winding_of_move {ticket due : Nat} {jitter : Float} {prompt : Prompt}
    (cancelled : state.dispatching.isCancelled 0 = true) (tokened : Tokened state)
    (stepped : step rules backoff state (.move ticket jitter prompt due) = some next) :
    Winding state next ∧ next.intake.resting = state.intake.resting := by
  rcases move_of_step stepped with ⟨call, dispatched, -, intake⟩
  have still := Dispatching.isCancelled_of_step cancelled dispatched
  rcases Dispatching.turns_of_step dispatched with ⟨mover, _, phase, found, turns, moved⟩
  have lines : next.intake.arrived = state.intake.arrived ∧
      next.intake.rested = state.intake.rested ∧ next.intake.resting = state.intake.resting := by
    rw [intake, release, still]
    split
    · rw [Intake.finish_eq, Bool.not_true, Bool.and_false]
      exact ⟨rfl, rfl, rfl⟩
    · exact ⟨rfl, rfl, rfl⟩
  refine ⟨⟨?arrived, ?rested, ?calls, ?fetches⟩, lines.2.2⟩
  case arrived => exact lines.1 ▸ List.prefix_rfl
  case rested => exact lines.2.1 ▸ List.prefix_rfl
  case calls =>
    rw [moved]
    exact List.length_set
  case fetches =>
    intro place other present fetching
    rw [moved] at present
    rcases Dispatching.getElem?_replace present with ⟨rfl, rfl⟩ | ⟨-, old⟩
    · -- The dispatch that moves looks at the token of the intake, which is cancelled.
      rw [tokened mover (List.mem_of_getElem? found), cancelled] at turns
      rw [mover.follow_phase, turns.fetching_of_cancelled] at fetching
      cases fetching
    · exact old

theorem winding_of_step (cancelled : state.dispatching.isCancelled 0 = true)
    (tokened : Tokened state) (stepped : step rules backoff state act = some next) :
    Winding state next ∧ next.intake.resting.Subperm state.intake.resting := by
  have unmoved := Winding.refl state
  cases act with
  | event identity =>
      cases stepped
      exact ⟨{ unmoved with arrived := List.prefix_append _ _ }, List.Subperm.refl _⟩
  | take => simp [step, cancelled] at stepped
  | change | cancel =>
      cases stepped
      exact ⟨⟨unmoved.arrived, unmoved.rested, rfl, unmoved.fetches⟩, List.Subperm.refl _⟩
  | move ticket jitter prompt due =>
      rcases winding_of_move cancelled tokened stepped with ⟨winding, resting⟩
      exact ⟨winding, resting ▸ List.Subperm.refl _⟩
  | wake now =>
      cases stepped
      rcases state.intake.exists_woken now with ⟨woken, same, -, -⟩
      have fewer := (List.sublist_append_right woken (state.intake.wake now).resting).subperm
      exact ⟨{ unmoved with rested := List.prefix_append _ _ }, fewer.trans same.subperm⟩
  | stop =>
      simp only [step, cancelled] at stepped
      cases stepped
      exact ⟨⟨unmoved.arrived, unmoved.rested, rfl, unmoved.fetches⟩, List.nil_subperm⟩

end Admitting

namespace Serving

variable {rules : Rules α ρ} {backoff : Backoff} {state next later : Serving α ρ}
  {act : ServeAct α} {limit : Nat} {cache : Cache ρ} {resources : Identity → Option α}
  {acts rest : List (ServeAct α)}

theorem tokened_of_step (tokened : state.admitting.Tokened)
    (stepped : step rules backoff state act = some next) : next.admitting.Tokened := by
  rw [Admitting.Tokened]
  rcases step_cases stepped with ⟨inner, admitting, -, -, admitted, rfl⟩ | aside
  · rw [dispatching_follow]
    exact tokened.of_step admitted
  · rw [aside.dispatching]
    exact tokened

structure WindsUp (state later : Serving α ρ) : Prop where
  cancelled : later.isCancelled = true
  winding : state.admitting.Winding later.admitting
  rests : later.rests.Subperm state.rests

theorem windsUp_of_step (cancelled : state.isCancelled = true) (tokened : state.admitting.Tokened)
    (stepped : step rules backoff state act = some next) : WindsUp state next := by
  rcases step_cases stepped with ⟨inner, admitting, -, -, admitted, rfl⟩ | aside
  · rcases Admitting.winding_of_step cancelled tokened admitted with ⟨winding, resting⟩
    have dispatching := state.dispatching_follow admitting inner
    rcases state.lines_follow admitting inner with ⟨-, arrived, rested, -, rests⟩
    refine ⟨?_, winding.alike arrived rested dispatching, ?_⟩
    · rw [isCancelled, dispatching]
      exact isCancelled_of_step cancelled admitted
    · exact rests.subperm.trans ((List.subperm_append_right _).mpr resting)
  · refine ⟨?_, ?_, aside.rests⟩
    · rw [isCancelled, aside.dispatching]
      exact cancelled
    · exact (Admitting.Winding.refl _).alike aside.arrived aside.rested aside.dispatching

theorem windsUp_of_run (cancelled : state.isCancelled = true) (tokened : state.admitting.Tokened)
    (continued : run rules backoff rest state = some later) : WindsUp state later := by
  have kept := Execution.run_invariant
    (fun later : Serving α ρ => later.admitting.Tokened ∧ WindsUp state later)
    ⟨tokened, cancelled, .refl _, List.Subperm.refl _⟩ ?_ continued
  · exact kept.2
  · rintro middle act next ⟨tokened, far⟩ stepped
    have step := windsUp_of_step far.cancelled tokened stepped
    exact ⟨tokened_of_step tokened stepped, step.cancelled, far.winding.trans step.winding,
      step.rests.trans far.rests⟩

structure Finished (state : Serving α ρ) : Prop where
  cancelled : state.isCancelled = true
  ended : ∀ call ∈ state.admitting.dispatching.calls, call.phase.isOver = true
  landed : ∀ identity,
    state.admitting.dispatching.dispatcher.inFlight.contains identity = false

theorem over_of_returned (sound : Sound state) (left : state.returned = true) :
    ∀ call ∈ state.admitting.dispatching.calls, call.phase.isOver = true := by
  rcases sound.returned left with ⟨whole, -, idle⟩
  -- Every dispatch in progress would hold a slot, and none is left.
  have none := (sound.standing whole).occupied.length
  rw [idle, List.length_nil, eq_comm, List.countP_eq_zero] at none
  intro call member
  simpa [DispatchCall.inProgress] using none call member

theorem finished_of_returned
    (ran : run rules backoff acts (start limit cache resources) = some state)
    (left : state.returned = true) : Finished state := by
  have sound := sound_of_run ran
  have complete := over_of_returned sound left
  rcases sound.returned left with ⟨whole, closed, -⟩
  rcases dispatching_of_run ran with ⟨_, dispatched⟩
  refine ⟨?cancelled, complete, ?landed⟩
  case cancelled =>
    rcases sound.stopped closed with cancelled | fallen
    · exact cancelled
    · exact absurd (whole.symm.trans fallen) nofun
  case landed =>
    intro identity
    apply (Dispatching.orderly_of_run dispatched (sound.standing whole).intact).landed
    rintro place ⟨call, present, -, inside⟩
    rw [Dispatching.not_inLoop_of_isOver (complete call (List.mem_of_getElem? present))] at inside
    cases inside

theorem dispatcher_of_returned (sound : Sound state) (left : state.returned = true)
    (stepped : step rules backoff state act = some next) :
    next.returned = true ∧
      next.admitting.dispatching.dispatcher = state.admitting.dispatching.dispatcher := by
  rcases step_cases stepped with ⟨inner, admitting, -, allowed, admitted, rfl⟩ | aside
  · cases inner with
    | take =>
        rcases Admitting.take_of_step admitted with ⟨identity, intake, taken, -, -⟩
        have accepts := (Intake.draws_of_next taken).1
        simp [Intake.accepts, (sound.returned left).2.1] at accepts
    | move ticket jitter prompt due =>
        rcases Admitting.move_of_step admitted with ⟨_, dispatched, -, -⟩
        rcases Dispatching.turns_of_step dispatched with ⟨mover, _, _, found, turns, -⟩
        have complete := over_of_returned sound left mover (List.mem_of_getElem? found)
        cases turns.going.symm.trans complete
    | stop => cases allowed
    | event | change | wake | cancel => cases admitted; exact ⟨left, rfl⟩
  · exact ⟨aside.returned left, congrArg Dispatching.dispatcher aside.dispatching⟩

/-- Whatever a run of an intake has gone through: it has returned only if it was cancelled, with all
its dispatches over and nothing in flight, and from then on its store and all else that its
dispatches shared stay as they are. From the cancellation on, no event is taken from the stream or
after a rest, no fetch begins, and no rest is added. -/
theorem returned_after_cancellation
    (ran : run rules backoff acts (start limit cache resources) = some state) :
    (state.returned = true → Finished state ∧
      ∀ rest later, run rules backoff rest state = some later →
        later.admitting.dispatching.dispatcher = state.admitting.dispatching.dispatcher) ∧
    (state.isCancelled = true →
      ∀ rest later, run rules backoff rest state = some later → WindsUp state later) := by
  refine ⟨fun left => ⟨finished_of_returned ran left, ?still⟩, ?winds⟩
  case still =>
    intro rest later continued
    have kept := Execution.run_invariant
      (fun later : Serving α ρ => Sound later ∧ later.returned = true ∧
        later.admitting.dispatching.dispatcher = state.admitting.dispatching.dispatcher)
      ⟨sound_of_run ran, left, rfl⟩ ?_ continued
    · exact kept.2.2
    · rintro middle act next ⟨sound, left, same⟩ stepped
      rcases dispatcher_of_returned sound left stepped with ⟨still, unchanged⟩
      exact ⟨sound.of_step stepped, still, unchanged.trans same⟩
  case winds =>
    intro cancelled rest later continued
    have tokened := Execution.run_invariant (fun state : Serving α ρ => state.admitting.Tokened)
      (fun _ member => absurd member List.not_mem_nil) (fun _ _ _ => tokened_of_step) ran
    exact windsUp_of_run cancelled tokened continued

def drained : List (ServeAct String) :=
  [.proceed (.event ⟨"a"⟩), .proceed (.event ⟨"b"⟩), .exhaust, .proceed .take,
    .proceed (.move 0 1 .proceed 0), .proceed (.move 0 1 .proceed 0),
    .proceed (.move 0 1 (.fail ⟨⟨"a"⟩, "unreachable"⟩) 0), .proceed (.move 0 1 .proceed 0),
    .proceed (.move 0 1 .proceed 0), .proceed (.move 0 1 .proceed 9), .proceed .take,
    .proceed (.move 1 1 .proceed 0), .proceed (.move 1 1 .proceed 0)]

def windsUp : List (ServeAct String) :=
  [.proceed (.move 1 1 .notice 0), .proceed (.move 1 1 .proceed 0), .proceed (.move 1 1 .proceed 0),
    .close, .lapse ⟨9, ⟨"a"⟩⟩, .leave]

theorem returned_after_cancellation_drained :
    ∃ state later, run Rules.plain { maxAttempts := 1 } (drained ++ [.proceed .cancel])
        (start 2 {} fun _ => none) = some state ∧
      state.flowing = false ∧ state.rests = [⟨9, ⟨"a"⟩⟩] ∧ state.isCancelled = true ∧
      run Rules.plain { maxAttempts := 1 } windsUp state = some later ∧ WindsUp state later ∧
      later.returned = true ∧ Finished later := by
  rcases (⟨_, rfl⟩ : ∃ state, run Rules.plain { maxAttempts := 1 }
    (drained ++ [.proceed .cancel]) (start 2 {} fun _ => none) = some state) with ⟨state, ran⟩
  have reached := Option.some.inj ran
  have flowing : state.flowing = false := reached ▸ rfl
  have rests : state.rests = [⟨9, ⟨"a"⟩⟩] := reached ▸ rfl
  have cancelled : state.isCancelled = true := reached ▸ rfl
  have ends : ∃ later, run Rules.plain { maxAttempts := 1 } windsUp state = some later ∧
      later.returned = true := by
    rw [← reached]
    exact ⟨_, rfl, rfl⟩
  rcases ends with ⟨later, continued, left⟩
  have whole := Execution.run_append_eq_some.mpr ⟨state, ran, continued⟩
  refine ⟨state, later, ran, flowing, rests, cancelled, continued, ?_, left, ?_⟩
  · exact (returned_after_cancellation ran).2 cancelled windsUp later continued
  · exact ((returned_after_cancellation whole).1 left).1

end Serving

end PolicyWarden
