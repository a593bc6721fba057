import PolicyWarden.Proofs.Dispatch.Serving

/-!
How much an intake has on its hands. Every event of an identity is worth one dispatch, which at most
turns into one rest, which turns into one place in line and again into one dispatch; a dispatch that
is merged, ends well or is cancelled turns into nothing. So what there is of an identity never
exceeds the events of it that the stream has given, however often its dispatches overlap and fail.
-/

namespace PolicyWarden

variable {α ρ : Type}

namespace Intake

def drawn (intake : Intake) : List Identity :=
  match intake.next? with
  | some (_, after) => intake.arrived.take (intake.arrived.length - after.arrived.length)
  | none => []

/-- The dispatches, rests, and places in line of an identity. -/
def load (intake : Intake) (identity : Identity) : Nat :=
  (intake.slots.map Slot.identity).count identity +
    (intake.resting.map Rest.identity).count identity + intake.rested.count identity

variable {intake after : Intake} {identity : Identity}

theorem load_start (taken : intake.next? = some (identity, after)) (ticket : Nat)
    (other : Identity) :
    (after.start ticket identity).load other = intake.load other + intake.drawn.count other := by
  unfold drawn
  rw [taken]
  cases (draws_of_next taken).2 with
  | arrived rest line =>
      simp only [load, start, line, List.length_cons, Nat.add_sub_cancel_left, List.take_succ_cons,
        List.take_zero, List.map_append, List.map_cons, List.map_nil, List.count_append]
      omega
  | rested rest line =>
      simp only [load, start, line, Nat.sub_self, List.take_zero, List.map_append, List.map_cons,
        List.map_nil, List.count_append, List.count_cons, List.count_nil]
      omega

theorem load_finish {slot : Slot} (held : slot ∈ intake.slots)
    (result : Option (Except ReconcileError Outcome)) (cancelled : Bool) (due : Nat)
    (other : Identity) :
    (intake.finish slot result cancelled due).load other ≤ intake.load other := by
  have freed := ((List.perm_cons_erase held).map Slot.identity).count_eq other
  rw [List.map_cons, List.count_cons] at freed
  rw [finish_eq]
  simp only [load]
  split
  · simp only [List.map_append, List.map_cons, List.map_nil, List.count_append, List.count_cons,
      List.count_nil]
    omega
  · omega

theorem load_wake (now : Nat) (other : Identity) :
    (intake.wake now).load other = intake.load other := by
  rcases intake.exists_woken now with ⟨woken, same, line, -⟩
  have rests := (same.map Rest.identity).count_eq other
  have slots : (intake.wake now).slots = intake.slots := rfl
  rw [List.map_append, List.count_append] at rests
  simp only [load, line, slots, List.count_append]
  omega

end Intake

theorem Dispatching.Orderly.pairwise {state : Dispatching α ρ} (orderly : state.Orderly) :
    state.calls.Pairwise fun left right =>
      left.phase.inLoop = true → right.phase.inLoop = true → left.identity ≠ right.identity := by
  rw [List.pairwise_iff_getElem]
  intro first second before after earlier leftInside rightInside equal
  have same := orderly.alone first second _ _ (List.getElem?_eq_getElem before)
    (List.getElem?_eq_getElem after) leftInside rightInside equal
  omega

namespace Serving

variable {rules : Rules α ρ} {backoff : Backoff} {state next : Serving α ρ} {act : ServeAct α}
  {limit : Nat} {cache : Cache ρ} {resources : Identity → Option α} {acts : List (ServeAct α)}

def inProgress (state : Serving α ρ) : List (DispatchCall α ρ) :=
  if state.fallen then [] else state.admitting.dispatching.calls.filter DispatchCall.inProgress

def fetching (state : Serving α ρ) : List (DispatchCall α ρ) :=
  state.inProgress.filter fun call => call.phase.fetching

def drawn (state : Serving α ρ) : ServeAct α → List Identity
  | .proceed .take => state.admitting.intake.drawn
  | _ => []

def load (state : Serving α ρ) (identity : Identity) : Nat :=
  (state.admitting.intake.slots.map Slot.identity).count identity +
    (state.rests.map Rest.identity).count identity +
    state.admitting.intake.rested.count identity

theorem load_follow (admitting : Admitting α ρ) (act : AdmitAct α) (identity : Identity) :
    (state.follow admitting act).load identity ≤
      admitting.intake.load identity + (state.stray.map Rest.identity).count identity := by
  rcases state.lines_follow admitting act with ⟨-, -, rested, slots, rests⟩
  have fewer := (slots.map Slot.identity).count_le identity
  have same := (rests.map Rest.identity).count_eq identity
  rw [List.map_append, List.count_append] at same
  simp only [load, Intake.load, rested]
  omega

theorem load_of_move {ticket due : Nat} {jitter : Float} {prompt : Prompt}
    {admitting : Admitting α ρ} (standing : state.Standing)
    (admitted : state.admitting.step rules backoff (.move ticket jitter prompt due) =
      some admitting)
    (identity : Identity) :
    admitting.intake.load identity ≤ state.admitting.intake.load identity := by
  rcases Admitting.move_of_step admitted with ⟨call, dispatched, present, intake⟩
  rcases Dispatching.turns_of_step dispatched with ⟨mover, _, phase, found, turns, moved⟩
  have own := standing.occupied.held ticket mover found
    (by simp [DispatchCall.inProgress, turns.going])
  rw [moved, Dispatching.getElem?_replace_self found] at present
  have same : call.identity = mover.identity := Option.some.inj present ▸ mover.follow_identity _ _
  -- A dispatch that is over turns into one rest at most.
  rw [intake, Admitting.release]
  split
  · exact Intake.load_finish (same ▸ own) _ _ _ identity
  · exact Nat.le_refl _

theorem load_of_step (sound : Sound state) (stepped : step rules backoff state act = some next)
    (identity : Identity) :
    next.load identity ≤ state.load identity + (state.drawn act).count identity := by
  rcases step_cases stepped with ⟨inner, admitting, rfl, allowed, admitted, rfl⟩ | aside
  · have followed := state.load_follow admitting inner identity
    have split : state.load identity = state.admitting.intake.load identity +
        (state.stray.map Rest.identity).count identity := by
      simp only [load, Intake.load, rests, List.map_append, List.count_append]
      omega
    cases inner with
    | take =>
        -- What is taken after a rest has been counted already; what is taken from the stream is new.
        rcases Admitting.take_of_step admitted with ⟨other, intake, taken, -, started⟩
        have started := congrArg (Intake.load · identity) started
        simp only [Intake.load_start taken] at started
        simp only [drawn]
        omega
    | move ticket jitter prompt due =>
        have whole : state.fallen = false := by simpa [allows] using allowed
        have released := load_of_move (sound.standing whole) admitted identity
        omega
    | wake now =>
        cases admitted
        rw [Intake.load_wake] at followed
        omega
    | stop => cases allowed
    | event other | change other resource | cancel =>
        cases admitted
        rw [split]
        exact Nat.le_add_right_of_le followed
  · rcases aside.rests with ⟨rests, same, fewer⟩
    have equal := (same.map Rest.identity).count_eq identity
    have fewer := (fewer.map Rest.identity).count_le identity
    simp only [load, aside.slots, aside.rested]
    omega

theorem load_of_run (ran : run rules backoff acts (start limit cache resources) = some state)
    (identity : Identity) :
    state.load identity ≤
      (Execution.observed (step rules backoff) drawn acts (start limit cache resources)).count
        identity := by
  refine Execution.run_history
    (fun acts (state : Serving α ρ) => state.load identity ≤
      (Execution.observed (step rules backoff) drawn acts (start limit cache resources)).count
        identity) (Nat.zero_le _ : (start limit cache resources).load identity ≤ _) ?_ ran
  intro acts act before after reached bounded stepped
  have grown := load_of_step (sound_of_run reached) stepped identity
  rw [Execution.observed_concat reached stepped, List.count_append]
  omega

def Within (limit : Nat) (state : Serving α ρ) : Prop :=
  state.admitting.intake.limit = limit ∧ (0 < limit → state.admitting.intake.slots.length ≤ limit)

theorem Within.of_step (within : Within limit state)
    (stepped : step rules backoff state act = some next) : Within limit next := by
  rcases step_cases stepped with ⟨inner, admitting, -, allowed, admitted, rfl⟩ | aside
  · rcases state.lines_follow admitting inner with ⟨same, -, -, slots, -⟩
    have inside : admitting.intake.limit = limit ∧
        (0 < limit → admitting.intake.slots.length ≤ limit) := by
      cases inner with
      | take =>
          rcases Admitting.take_of_step admitted with ⟨identity, intake, taken, -, started⟩
          rcases Intake.draws_of_next taken with ⟨accepts, draws⟩
          have kept : intake.limit = state.admitting.intake.limit ∧
              intake.slots = state.admitting.intake.slots := by
            cases draws <;> exact ⟨rfl, rfl⟩
          simp only [Intake.accepts, Intake.hasRoom, Bool.and_eq_true, Bool.or_eq_true,
            decide_eq_true_eq, within.1] at accepts
          refine ⟨?_, fun limited => ?_⟩
          · rw [started]
            exact kept.1.trans within.1
          · rw [started, Intake.start, kept.2, List.length_append, List.length_singleton]
            omega
      | move ticket jitter prompt due =>
          rcases Admitting.move_of_step admitted with ⟨call, -, -, intake⟩
          rw [intake, Admitting.release]
          split
          · rw [Intake.finish_eq]
            exact ⟨within.1, fun limited =>
              Nat.le_trans List.erase_sublist.length_le (within.2 limited)⟩
          · exact within
      | event | change | wake | cancel => cases admitted; exact within
      | stop => cases allowed
    exact ⟨same.trans inside.1, fun limited => Nat.le_trans slots.length_le (inside.2 limited)⟩
  · exact ⟨aside.limit.trans within.1, fun limited => aside.slots ▸ within.2 limited⟩

theorem count_slots (sound : Sound state) (identity : Identity) :
    (state.admitting.intake.slots.map Slot.identity).count identity =
      (state.inProgress.map DispatchCall.identity).count identity := by
  unfold inProgress
  cases whole : state.fallen with
  | true => simp [sound.fallen whole]
  | false =>
      have counted := (sound.standing whole).occupied.counted (· == identity)
      rw [List.count_eq_countP, List.countP_map, List.count_eq_countP, List.countP_map,
        if_neg nofun, List.countP_filter]
      simpa only [Bool.and_comm, Function.comp_def] using counted

theorem length_slots (sound : Sound state) :
    state.admitting.intake.slots.length = state.inProgress.length := by
  unfold inProgress
  cases whole : state.fallen with
  | true => simp [sound.fallen whole]
  | false =>
      rw [(sound.standing whole).occupied.length, if_neg nofun, List.countP_eq_length_filter]

theorem nodup_fetching (ran : run rules backoff acts (start limit cache resources) = some state) :
    (state.fetching.map DispatchCall.identity).Nodup := by
  unfold fetching inProgress
  split
  · exact List.nodup_nil
  · next standing =>
      have whole : state.fallen = false := Bool.eq_false_iff.mpr standing
      rcases dispatching_of_run ran with ⟨_, dispatched⟩
      have intact := ((sound_of_run ran).standing whole).intact
      have orderly := Dispatching.orderly_of_run dispatched intact
      rw [List.Nodup, List.pairwise_map, List.pairwise_filter]
      refine (orderly.pairwise.filter _).imp fun apart left right => ?_
      exact apart (Phase.inLoop_of_fetching left) (Phase.inLoop_of_fetching right)

theorem exists_take (sound : Sound state) (whole : state.fallen = false)
    (wanted : state.isCancelled = false)
    (room : state.admitting.intake.hasRoom = true)
    (waits : state.admitting.intake.arrived ≠ [] ∨ state.admitting.intake.rested ≠ []) :
    ∃ next, step rules backoff state (.proceed .take) = some next := by
  have accepts : state.admitting.intake.accepts = true := by
    cases stopped : state.admitting.intake.stopped with
    | false => simp [Intake.accepts, stopped, room]
    | true =>
        rcases sound.stopped stopped with cancelled | fallen
        · cases wanted.symm.trans cancelled
        · cases whole.symm.trans fallen
  rcases Intake.exists_next accepts waits with ⟨identity, after, taken⟩
  have wanted : state.admitting.dispatching.isCancelled 0 = false := wanted
  simp [step, allows, whole, Admitting.step, wanted, taken, Dispatching.step]

/-- What an intake with a limit has on its hands, given the events it has drawn from the stream. -/
structure Measured (rules : Rules α ρ) (backoff : Backoff) (limit : Nat) (drawn : List Identity)
    (state : Serving α ρ) : Prop where
  limited : 0 < limit → state.inProgress.length ≤ limit
  fetching : 0 < limit → state.fetching.length ≤ limit
  alone : (state.fetching.map DispatchCall.identity).Nodup
  room : state.fallen = false → state.isCancelled = false →
    (limit = 0 ∨ state.inProgress.length < limit) →
    (state.admitting.intake.arrived ≠ [] ∨ state.admitting.intake.rested ≠ []) →
    ∃ next, step rules backoff state (.proceed .take) = some next
  conserved : ∀ identity,
    (state.inProgress.map DispatchCall.identity).count identity +
      (state.rests.map Rest.identity).count identity +
      state.admitting.intake.rested.count identity ≤ drawn.count identity

/-- At every reachable state, no more dispatches are in progress and no more fetches run than the
limit allows, with at most one fetch for an identity. Rests and merged events take no room: with
fewer dispatches in progress than the limit, what waits in line can be taken. Dispatches in
progress, rests, and places in line of an identity do not exceed the events of it that were taken
from the stream. -/
theorem measured_of_run
    (ran : run rules backoff acts (start limit cache resources) = some state) :
    Measured rules backoff limit
      (Execution.observed (step rules backoff) drawn acts (start limit cache resources)) state := by
  have sound := sound_of_run ran
  have within := Execution.run_invariant (Within (α := α) (ρ := ρ) limit)
    ⟨rfl, fun _ => Nat.zero_le _⟩ (fun _ _ _ => Within.of_step) ran
  have length := length_slots sound
  refine ⟨?limited, ?fetching, nodup_fetching ran, ?room, ?conserved⟩
  case limited => exact fun limited => length ▸ within.2 limited
  case fetching =>
    intro limited
    exact Nat.le_trans List.filter_sublist.length_le (length ▸ within.2 limited)
  case room =>
    intro whole wanted free waits
    apply exists_take sound whole wanted _ waits
    simpa [Intake.hasRoom, within.1, length] using free
  case conserved =>
    intro identity
    have load := load_of_run ran identity
    rw [Serving.load, count_slots sound] at load
    exact load

/-- An event is merged into a dispatch whose attempts then run out twice, and another identity is
fetched while the first one rests. -/
def mergedThenResting : List (ServeAct String) :=
  let failure := Prompt.fail ⟨⟨"a"⟩, "unreachable"⟩
  [.proceed (.event ⟨"a"⟩), .proceed (.event ⟨"a"⟩), .proceed (.event ⟨"b"⟩), .proceed .take,
    .proceed (.move 0 1 .proceed 0), .proceed (.move 0 1 .proceed 0), .proceed .take,
    .proceed (.move 1 1 .proceed 0), .proceed (.move 0 1 failure 0),
    .proceed (.move 0 1 .proceed 0), .proceed (.move 0 1 .proceed 0),
    .proceed (.move 0 1 .proceed 0), .proceed (.move 0 1 .proceed 0),
    .proceed (.move 0 1 .proceed 0), .proceed (.move 0 1 failure 0),
    .proceed (.move 0 1 .proceed 0), .proceed (.move 0 1 .proceed 0),
    .proceed (.move 0 1 .proceed 9), .proceed .take, .proceed (.move 2 1 .proceed 0),
    .proceed (.move 2 1 .proceed 0)]

theorem measured_of_run_mergedThenResting :
    ∃ state, run Rules.plain { maxAttempts := 1 } mergedThenResting (start 2 {} fun _ => none) =
        some state ∧
      state.inProgress.map DispatchCall.identity = [⟨"b"⟩] ∧ state.rests = [⟨9, ⟨"a"⟩⟩] ∧
      Measured Rules.plain { maxAttempts := 1 } 2 [⟨"a"⟩, ⟨"a"⟩, ⟨"b"⟩] state := by
  rcases (⟨_, rfl⟩ : ∃ state, run Rules.plain { maxAttempts := 1 } mergedThenResting
    (start 2 {} fun _ => none) = some state) with ⟨state, ran⟩
  have reached := Option.some.inj ran
  exact ⟨state, ran, reached ▸ rfl, reached ▸ rfl, measured_of_run ran⟩

end Serving

end PolicyWarden
