import PolicyWarden.Proofs.Dispatch.InFlight
import PolicyWarden.Proofs.Dispatch.Laps
import PolicyWarden.Proofs.Dispatch.Record

/-!
How often a call runs its reconcile. A run begins with the mark away and ends with a look at the
mark; calls of the identity that are merged in between set it. So the call runs once more exactly if
one was merged, however many there were, and whatever the run has come to. Only the call itself has
to be uncancelled and to go on; other calls may be cancelled or fail without a result.
-/

namespace PolicyWarden

variable {α ρ : Type}

def DispatchCall.mergedFor (identity : Identity) (call : DispatchCall α ρ) : Bool :=
  call.identity = identity && match call.phase with
    | .merged => true
    | _ => false

def DispatchAct.moves (place : Nat) : DispatchAct α → Bool
  | .move ticket _ _ => ticket = place
  | _ => false

namespace Dispatching

variable {rules : Rules α ρ} {backoff : Backoff} {state next : Dispatching α ρ}
  {act : DispatchAct α} {acts : List (DispatchAct α)} {place : Nat} {call : DispatchCall α ρ}
  {cache : Cache ρ} {resources : Identity → Option α}

def loopEvents (rules : Rules α ρ) (backoff : Backoff) (place : Nat) (state : Dispatching α ρ) :
    DispatchAct α → List LoopEvent
  | .move ticket jitter prompt =>
      match state.calls[place]?, state.calls[ticket]?,
          (step rules backoff state (.move ticket jitter prompt)).bind (·.calls[ticket]?) with
      | some call, some mover, some moved =>
          if ticket = place then mover.phase.loopEvents moved.phase
          else if mover.identity = call.identity then moved.phase.mergeEvents
          else []
      | _, _, _ => []
  | _ => []

def laps (rules : Rules α ρ) (backoff : Backoff) (place : Nat) (acts : List (DispatchAct α))
    (state : Dispatching α ρ) : List Lap :=
  (Execution.observed (step rules backoff) (loopEvents rules backoff place) acts state).foldl
    Lap.follow []

theorem laps_concat (ran : run rules backoff acts (start cache resources) = some state)
    (stepped : step rules backoff state act = some next) :
    laps rules backoff place (acts ++ [act]) (start cache resources) =
      (loopEvents rules backoff place state act).foldl Lap.follow
        (laps rules backoff place acts (start cache resources)) := by
  rw [laps, Execution.observed_concat ran stepped, List.foldl_append, laps]

theorem loopEvents_of_move {ticket : Nat} {jitter : Float} {prompt : Prompt}
    {mover : DispatchCall α ρ} {phase : Phase α ρ} {dispatcher : Dispatcher ρ}
    (present : state.calls[place]? = some call) (found : state.calls[ticket]? = some mover)
    (stepped : step rules backoff state (.move ticket jitter prompt) =
      some (state.replace ticket (mover.follow state.clock phase) dispatcher)) :
    loopEvents rules backoff place state (.move ticket jitter prompt) =
      if ticket = place then mover.phase.loopEvents phase
      else if mover.identity = call.identity then phase.mergeEvents
      else [] := by
  simp only [loopEvents, present, found, stepped, Option.bind_some, getElem?_replace_self found,
    DispatchCall.follow_phase]

theorem loopEvents_of_absent (absent : state.calls[place]? = none) :
    loopEvents rules backoff place state act = [] := by
  cases act <;> simp [loopEvents, absent]

/-- The runs of the call at a place fit its phase, as long as it is not cancelled. -/
structure Lapped (place : Nat) (laps : List Lap) (state : Dispatching α ρ) : Prop where
  fits : ∀ call, state.calls[place]? = some call → state.isCancelled call.token = false →
    Lap.Fits (state.dispatcher.inFlight.find? call.identity) laps call.phase
  absent : state.calls[place]? = none → laps = []

theorem lapped_start (place : Nat) (cache : Cache ρ) (resources : Identity → Option α) :
    Lapped place [] (start cache resources) where
  fits := by simp [start]
  absent _ := rfl

theorem Lapped.of_foreign (solitary : Solitary state) {laps : List Lap}
    (present : state.calls[place]? = some call) {ticket : Nat} (different : ticket ≠ place)
    {mover : DispatchCall α ρ} (found : state.calls[ticket]? = some mover)
    {cancelled : Bool} {dispatcher : Dispatcher ρ} {move : Move α} {phase : Phase α ρ}
    (turns : Phase.Turns rules backoff mover.identity cancelled state.dispatcher move mover.phase
      dispatcher phase)
    (fits : Lap.Fits (state.dispatcher.inFlight.find? call.identity) laps call.phase) :
    Lap.Fits (dispatcher.inFlight.find? call.identity)
      ((if mover.identity = call.identity then phase.mergeEvents else []).foldl Lap.follow laps)
      call.phase := by
  by_cases same : mover.identity = call.identity
  · rw [if_pos same]
    cases loops : call.phase.inLoop with
    | true =>
        have outside := solitary.alone present loops different found same
        have flying := solitary.flying present loops
        generalize mover.phase = before at turns outside
        cases turns with
        | merge =>
            have marked : (state.dispatcher.inFlight.insert mover.identity true).find?
                call.identity = some true := by simp [same]
            exact marked ▸ fits.merge
        | enter landed =>
            rw [same, flying] at landed
            cases landed
        | _ => cases outside
    | false =>
        cases phase with
        | merged => exact fits.merge.of_outside loops _
        | _ => exact fits.of_outside loops _
  · rw [if_neg same, turns.find?_of_ne (Ne.symm same)]
    exact fits

theorem Lapped.of_step {laps : List Lap} (lapped : Lapped place laps state)
    (solitary : Solitary state) (stepped : step rules backoff state act = some next) :
    Lapped place ((loopEvents rules backoff place state act).foldl Lap.follow laps) next := by
  cases act with
  | change identity resource => cases stepped; exact ⟨lapped.fits, lapped.absent⟩
  | cancel token =>
      cases stepped
      refine ⟨fun call present wanted => lapped.fits call present ?_, lapped.absent⟩
      simp only [isCancelled, List.contains_cons, Bool.or_eq_false_iff] at wanted
      exact wanted.2
  | call identity token =>
      cases stepped
      refine ⟨fun call present wanted => ?_, fun absent => ?_⟩
      · cases before : state.calls[place]? with
        | some old =>
            cases (getElem?_made_of_some before).symm.trans present
            exact lapped.fits _ before wanted
        | none =>
            rcases getElem?_made present with old | rfl
            · cases before.symm.trans old
            · exact lapped.absent before
      · cases before : state.calls[place]? with
        | some old => cases (getElem?_made_of_some before).symm.trans absent
        | none => exact lapped.absent before
  | move ticket jitter prompt =>
      rcases turns_of_step stepped with ⟨mover, dispatcher, phase, found, turns, rfl⟩
      refine ⟨fun call present wanted => ?_, fun absent => ?_⟩
      · rcases getElem?_replace present with ⟨rfl, rfl⟩ | ⟨different, old⟩
        · rw [mover.follow_token] at wanted
          rw [show state.isCancelled mover.token = false from wanted] at turns
          rw [loopEvents_of_move found found stepped, if_pos rfl, mover.follow_identity,
            mover.follow_phase]
          exact turns.fits (lapped.fits mover found wanted) (solitary.flying found)
        · rw [loopEvents_of_move old found stepped, if_neg different.symm]
          exact Lapped.of_foreign solitary old different.symm found turns
            (lapped.fits call old wanted)
      · have before : state.calls[place]? = none := by
          rw [List.getElem?_eq_none_iff] at absent ⊢
          exact (List.length_set ▸ absent :)
        rw [loopEvents_of_absent before, lapped.absent before]
        rfl

theorem lapped_of_run (place : Nat)
    (ran : run rules backoff acts (start cache resources) = some state) :
    Lapped place (laps rules backoff place acts (start cache resources)) state := by
  refine Execution.run_history
    (fun acts state => Lapped place (laps rules backoff place acts (start cache resources)) state)
    (lapped_start place cache resources) ?_ ran
  intro acts act state next earlier lapped stepped
  rw [laps_concat earlier stepped]
  exact lapped.of_step (solitary_of_run earlier) stepped

theorem countP_isMerge_le (stepped : step rules backoff state act = some next)
    (present : state.calls[place]? = some call) :
    (loopEvents rules backoff place state act).countP LoopEvent.isMerge +
        state.calls.countP (·.mergedFor call.identity) ≤
      next.calls.countP (·.mergedFor call.identity) := by
  cases act with
  | change | cancel =>
      cases stepped
      exact Nat.le_of_eq (Nat.zero_add _)
  | call =>
      cases stepped
      simp [loopEvents]
  | move ticket jitter prompt =>
      rcases turns_of_step stepped with ⟨mover, dispatcher, phase, found, turns, rfl⟩
      have counted := countP_replace found (mover.follow state.clock phase) dispatcher
        (·.mergedFor call.identity)
      have fresh : mover.mergedFor call.identity = false := by
        have going := turns.going
        unfold DispatchCall.mergedFor
        split
        · next merged => rw [merged] at going; cases going
        · exact Bool.and_false _
      rw [loopEvents_of_move present found stepped]
      rw [fresh, Bool.toNat_false, Nat.add_zero] at counted
      rw [counted, Nat.add_comm]
      refine Nat.add_le_add_left ?_ _
      split
      · have none : ((mover.phase.loopEvents phase).countP LoopEvent.isMerge) = 0 := by
          unfold Phase.loopEvents
          split <;> rfl
        exact none ▸ Nat.zero_le _
      · split
        · next same =>
            cases phase <;> simp [Phase.mergeEvents, DispatchCall.mergedFor, same,
              LoopEvent.isMerge]
        · exact Nat.zero_le _

theorem exists_moved_of_step (stepped : step rules backoff state act = some next)
    (present : state.calls[place]? = some call) :
    ∃ moved, next.calls[place]? = some moved ∧ moved.identity = call.identity := by
  cases act with
  | change | cancel => cases stepped; exact ⟨call, present, rfl⟩
  | call => cases stepped; exact ⟨call, getElem?_made_of_some present, rfl⟩
  | move ticket jitter prompt =>
      rcases turns_of_step stepped with ⟨mover, dispatcher, phase, found, -, rfl⟩
      by_cases own : place = ticket
      · subst own
        cases present.symm.trans found
        exact ⟨_, getElem?_replace_self found, call.follow_identity _ _⟩
      · exact ⟨call, (getElem?_replace_of_ne own).trans present, rfl⟩

theorem total_laps_le (ran : run rules backoff acts (start cache resources) = some state)
    (present : state.calls[place]? = some call) :
    Lap.total (laps rules backoff place acts (start cache resources)) ≤
      state.calls.countP (·.mergedFor call.identity) := by
  refine Execution.run_history (fun acts state => ∀ call, state.calls[place]? = some call →
    Lap.total (laps rules backoff place acts (start cache resources)) ≤
      state.calls.countP (·.mergedFor call.identity)) ?_ ?_ ran call present
  · exact fun _ _ => Nat.zero_le _
  · intro acts act state next earlier known stepped call present
    rw [laps_concat earlier stepped]
    cases before : state.calls[place]? with
    | none =>
        rw [loopEvents_of_absent before, (lapped_of_run place earlier).absent before]
        exact Nat.zero_le _
    | some old =>
        rcases exists_moved_of_step stepped before with ⟨moved, found, same⟩
        cases present.symm.trans found
        have counted := countP_isMerge_le stepped before
        have folded := Lap.total_foldl_le
          (laps rules backoff place acts (start cache resources))
          (loopEvents rules backoff place state act)
        have so := known old before
        rw [same]
        omega

def movesAt (acts : List (DispatchAct α)) (place : Nat) : Nat :=
  acts.countP (·.moves place)

theorem movesAt_concat_move (acts : List (DispatchAct α)) (place : Nat) (jitter : Float)
    (prompt : Prompt) : movesAt (acts ++ [.move place jitter prompt]) place =
      movesAt acts place + 1 := by
  simp [movesAt, DispatchAct.moves]

theorem movesAt_concat_of_still (still : act.moves place = false) :
    movesAt (acts ++ [act]) place = movesAt acts place := by
  simp [movesAt, still]

structure Brief (acts : List (DispatchAct α)) (place : Nat) (state : Dispatching α ρ) : Prop where
  absent : state.calls[place]? = none → movesAt acts place = 0
  arriving : ∀ call, state.calls[place]? = some call → call.phase = .arriving →
    call.fetches = [] ∧ movesAt acts place = 0
  merged : ∀ call, state.calls[place]? = some call → call.phase = .merged →
    call.fetches = [] ∧ movesAt acts place = 1

theorem brief_start (place : Nat) (cache : Cache ρ) (resources : Identity → Option α) :
    Brief [] place (start cache resources) where
  absent _ := rfl
  arriving := by simp [start]
  merged := by simp [start]

theorem Brief.of_step (brief : Brief acts place state)
    (stepped : step rules backoff state act = some next) : Brief (acts ++ [act]) place next := by
  cases act with
  | change | cancel =>
      cases stepped
      refine ⟨?_, ?_, ?_⟩ <;> rw [movesAt_concat_of_still rfl]
      exacts [brief.absent, brief.arriving, brief.merged]
  | call identity token =>
      cases stepped
      refine ⟨?_, ?_, ?_⟩ <;> rw [movesAt_concat_of_still rfl]
      · intro absent
        cases before : state.calls[place]? with
        | none => exact brief.absent before
        | some old => cases (getElem?_made_of_some before).symm.trans absent
      · intro call present arriving
        cases before : state.calls[place]? with
        | none =>
            rcases getElem?_made present with old | rfl
            · cases before.symm.trans old
            · exact ⟨rfl, brief.absent before⟩
        | some old =>
            cases (getElem?_made_of_some before).symm.trans present
            exact brief.arriving _ before arriving
      · intro call present merged
        rcases getElem?_made present with old | rfl
        · exact brief.merged call old merged
        · cases merged
  | move ticket jitter prompt =>
      rcases turns_of_step stepped with ⟨mover, dispatcher, phase, found, turns, rfl⟩
      by_cases own : ticket = place
      · subst own
        have latest : (state.replace ticket (mover.follow state.clock phase)
            dispatcher).calls[ticket]? = some (mover.follow state.clock phase) :=
          getElem?_replace_self found
        generalize before : mover.phase = old at turns
        refine ⟨fun absent => ?_, fun call present arriving => ?_, fun call present merged => ?_⟩
        · cases latest.symm.trans absent
        · cases latest.symm.trans present
          rw [mover.follow_phase] at arriving
          subst arriving
          cases turns
        · cases latest.symm.trans present
          rw [mover.follow_phase] at merged
          subst merged
          cases turns
          have known := brief.arriving mover found before
          rw [movesAt_concat_move, known.2]
          rw [mover.follow_of_arriving before]
          exact ⟨known.1, rfl⟩
      · have still : (DispatchAct.move ticket jitter prompt : DispatchAct α).moves place = false :=
          decide_eq_false own
        have same : (state.replace ticket (mover.follow state.clock phase)
            dispatcher).calls[place]? = state.calls[place]? :=
          getElem?_replace_of_ne (Ne.symm own)
        refine ⟨?_, ?_, ?_⟩ <;> rw [movesAt_concat_of_still still, same]
        exacts [brief.absent, brief.arriving, brief.merged]

theorem brief_of_run (place : Nat)
    (ran : run rules backoff acts (start cache resources) = some state) :
    Brief acts place state :=
  Execution.run_history (fun acts state => Brief acts place state)
    (brief_start place cache resources)
    (fun _ _ _ _ _ brief stepped => brief.of_step stepped) ran

theorem exists_moved {jitter : Float} {prompt : Prompt} {dispatcher : Dispatcher ρ}
    {phase : Phase α ρ} (present : state.calls[place]? = some call)
    (moves : call.phase.move rules backoff jitter call.identity (state.isCancelled call.token)
      state.dispatcher (prompt.move (state.resources call.identity)) = some (dispatcher, phase)) :
    ∃ next moved, step rules backoff state (.move place jitter prompt) = some next ∧
      next.calls[place]? = some moved ∧ moved.phase = phase :=
  ⟨_, _, step_of_moves present moves, getElem?_replace_self present, call.follow_phase _ _⟩

theorem leaves_or_stays (rules : Rules α ρ) (backoff : Backoff)
    (present : state.calls[place]? = some call) (wanted : state.isCancelled call.token = false)
    {result : Except ReconcileError Outcome} (concluding : call.phase = .concluding result)
    {merged : Nat}
    (mark : state.dispatcher.inFlight.find? call.identity = some (decide (0 < merged)))
    (jitter : Float) :
    ∃ next moved, step rules backoff state (.move place jitter .proceed) = some next ∧
      next.calls[place]? = some moved ∧
      moved.phase = if merged = 0 then .returned result else .rearming := by
  have moves : call.phase.move rules backoff jitter call.identity (state.isCancelled call.token)
      state.dispatcher (Prompt.proceed.move (state.resources call.identity)) =
        some (if merged = 0 then
            { state.dispatcher with inFlight := state.dispatcher.inFlight.erase call.identity }
          else state.dispatcher, if merged = 0 then .returned result else .rearming) := by
    rw [concluding, wanted]
    cases merged <;> simp [Prompt.move, Phase.move, Phase.conclude, mark]
  exact exists_moved present moves

theorem begins_anew (rules : Rules α ρ) (backoff : Backoff)
    (present : state.calls[place]? = some call) (rearming : call.phase = .rearming)
    (jitter : Float) :
    ∃ next moved, step rules backoff state (.move place jitter .proceed) = some next ∧
      next.calls[place]? = some moved ∧ moved.phase = .attempting backoff.first .starting := by
  have moves : call.phase.move rules backoff jitter call.identity (state.isCancelled call.token)
      state.dispatcher (Prompt.proceed.move (state.resources call.identity)) =
        some (Phase.rearm backoff call.identity state.dispatcher) := by
    rw [rearming]
    rfl
  exact exists_moved present moves

theorem merges_of_flying (rules : Rules α ρ) (backoff : Backoff)
    (present : state.calls[place]? = some call) (arriving : call.phase = .arriving)
    (flying : state.dispatcher.inFlight.contains call.identity = true) (jitter : Float) :
    ∃ next moved, step rules backoff state (.move place jitter .proceed) = some next ∧
      next.calls[place]? = some moved ∧ moved.phase = .merged := by
  have moves : call.phase.move rules backoff jitter call.identity (state.isCancelled call.token)
      state.dispatcher (Prompt.proceed.move (state.resources call.identity)) =
        some ({ state.dispatcher with
          inFlight := state.dispatcher.inFlight.insert call.identity true }, .merged) := by
    rw [arriving]
    simp [Prompt.move, Phase.move, Phase.arrive, flying]
  exact exists_moved present moves

/-- For every uncancelled call that has not failed without a result, amid whatever else: after a run
at whose end it has looked for the mark there is another run exactly if calls were merged since the
beginning of that run, and it has looked after every run but the latest. So there are not more runs
than one and the calls that were merged into them. Where a run has come to its result, the call
leaves with it or stays, by the same rule; what it returns is the result of its latest run. A call of
its identity that arrives meanwhile is merged in its one and only move and never fetches. -/
theorem reruns_iff_merged
    (ran : run rules backoff acts (start cache resources) = some state)
    (present : state.calls[place]? = some call) (wanted : state.isCancelled call.token = false)
    (unfailed : ∀ message, call.phase ≠ .unwound message) :
    (∀ later lap earlier,
      laps rules backoff place acts (start cache resources) = later ++ lap :: earlier →
        (later ≠ [] → lap.checked = true) ∧
        (lap.checked = true → ((later ≠ [] ∨ call.phase = .rearming) ↔ 0 < lap.merged))) ∧
    (laps rules backoff place acts (start cache resources)).length ≤
      1 + Lap.total (laps rules backoff place acts (start cache resources)) ∧
    Lap.total (laps rules backoff place acts (start cache resources)) ≤
      state.calls.countP (·.mergedFor call.identity) ∧
    (∀ result, call.phase = .concluding result → ∃ lap earlier,
      laps rules backoff place acts (start cache resources) = lap :: earlier ∧
        lap.result = some result ∧ lap.checked = false ∧
        ∀ jitter, ∃ next moved, step rules backoff state (.move place jitter .proceed) = some next ∧
          next.calls[place]? = some moved ∧
          moved.phase = if lap.merged = 0 then .returned result else .rearming) ∧
    (call.phase = .rearming → ∀ jitter, ∃ next moved,
      step rules backoff state (.move place jitter .proceed) = some next ∧
        next.calls[place]? = some moved ∧ moved.phase = .attempting backoff.first .starting) ∧
    (∀ result, call.phase = .returned result → ∃ lap earlier,
      laps rules backoff place acts (start cache resources) = lap :: earlier ∧
        lap.result = some result) ∧
    ∀ ticket other, state.calls[ticket]? = some other → other.identity = call.identity →
      (other.phase = .merged → other.fetches = [] ∧ movesAt acts ticket = 1) ∧
      (other.phase = .arriving → call.phase.inLoop = true → ∀ jitter, ∃ next moved,
        step rules backoff state (.move ticket jitter .proceed) = some next ∧
          next.calls[ticket]? = some moved ∧ moved.phase = .merged) := by
  have fits := (lapped_of_run place ran).fits call present wanted
  refine ⟨?followed, fits.length_le unfailed, total_laps_le ran present, ?concluding,
    begins_anew rules backoff present, ?returned, ?merged⟩
  case followed => exact fun later lap earlier split => fits.followed_iff unfailed split
  case concluding =>
    intro result concluding
    rw [concluding] at fits
    rcases fits with ⟨merged, earlier, split, mark, -⟩
    exact ⟨_, earlier, split, rfl, rfl,
      leaves_or_stays rules backoff present wanted concluding mark⟩
  case returned =>
    intro result returned
    rw [returned] at fits
    rcases fits with ⟨earlier, split, -⟩
    exact ⟨_, earlier, split, rfl⟩
  case merged =>
    intro ticket other found same
    refine ⟨(brief_of_run ticket ran).merged other found, fun arriving loops => ?_⟩
    have flying := (solitary_of_run ran).flying present loops
    exact merges_of_flying rules backoff found arriving (same ▸ flying)

/-- Two calls are merged into a run both of whose attempts fail, and a third one after the look at the
mark; the second run comes to its end undisturbed. -/
def mergedAroundTheLook : List (DispatchAct String) :=
  [.call ⟨"a"⟩ 0, .call ⟨"a"⟩ 1, .call ⟨"a"⟩ 1, .call ⟨"a"⟩ 1, .move 0 1 .proceed,
    .move 0 1 .proceed, .move 1 1 .proceed, .move 2 1 .proceed, .cancel 1,
    .move 0 1 (.fail ⟨⟨"a"⟩, "unreachable"⟩), .move 0 1 .proceed, .move 0 1 .proceed,
    .move 0 1 .wait, .move 0 1 .proceed, .move 0 1 (.fail ⟨⟨"a"⟩, "unreachable"⟩),
    .move 0 1 .proceed, .move 0 1 .proceed, .move 0 1 .proceed, .move 3 1 .proceed,
    .move 0 1 .proceed, .move 0 1 .proceed, .move 0 1 .answer, .move 0 1 .proceed,
    .move 0 1 .proceed, .move 0 1 .proceed]

set_option maxRecDepth 4000 in
theorem reruns_iff_merged_aroundTheLook :
    ∃ state call other, run Rules.plain { maxAttempts := 2 } mergedAroundTheLook
        (start {} fun _ => none) = some state ∧
      state.calls[0]? = some call ∧ call.phase = .returned (.ok .absent) ∧
      state.isCancelled call.token = false ∧
      laps Rules.plain { maxAttempts := 2 } 0 mergedAroundTheLook (start {} fun _ => none) =
        [⟨0, some (.ok .absent), true⟩,
          ⟨2, some (.error (.fetch ⟨⟨"a"⟩, "unreachable"⟩)), true⟩] ∧
      2 ≤ state.calls.countP (·.mergedFor ⟨"a"⟩) ∧
      state.calls[3]? = some other ∧ other.phase = .merged ∧ other.fetches = [] ∧
      movesAt mergedAroundTheLook 3 = 1 := by
  rcases (⟨_, rfl⟩ : ∃ state, run Rules.plain { maxAttempts := 2 } mergedAroundTheLook
    (start {} fun _ => none) = some state) with ⟨state, ran⟩
  have reached := Option.some.inj ran
  have owner : ∃ call, state.calls[0]? = some call ∧ call.identity = ⟨"a"⟩ ∧
      state.isCancelled call.token = false ∧ call.phase = .returned (.ok .absent) :=
    reached ▸ ⟨_, rfl, rfl, rfl, rfl⟩
  have latecomer : ∃ other, state.calls[3]? = some other ∧ other.identity = ⟨"a"⟩ ∧
      other.phase = .merged :=
    reached ▸ ⟨_, rfl, rfl, rfl⟩
  have runs : laps Rules.plain { maxAttempts := 2 } 0 mergedAroundTheLook
      (start {} fun _ => none) = [⟨0, some (.ok .absent), true⟩,
        ⟨2, some (.error (.fetch ⟨⟨"a"⟩, "unreachable"⟩)), true⟩] := rfl
  rcases owner with ⟨call, present, own, wanted, returned⟩
  rcases latecomer with ⟨other, found, same, merged⟩
  have unfailed : ∀ message, call.phase ≠ .unwound message := by
    rw [returned]
    nofun
  rcases reruns_iff_merged ran present wanted unfailed with ⟨-, -, bounded, -, -, -, others⟩
  rw [runs, own] at bounded
  have brief := (others 3 other found (same.trans own.symm)).1 merged
  exact ⟨state, call, other, ran, present, returned, wanted, runs, bounded, found, merged, brief⟩

end Dispatching

end PolicyWarden
