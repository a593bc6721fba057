import PolicyWarden.Proofs.Dispatch.InFlight
import PolicyWarden.Proofs.Dispatch.Record

/-!
No event is lost by merging. An event is covered by a call in its loop that is marked or has not
begun a fetch before the event, or else by the last run of attempts, all of whose fetches began
after it. Every act keeps what is covered so; the mark is taken away before the fetches of the next
run, and for that reason at whatever point of the loop it was put there.
-/

namespace PolicyWarden.Dispatching

variable {α ρ : Type} {rules : Rules α ρ} {backoff : Backoff} {state next : Dispatching α ρ}
  {act : DispatchAct α} {identity : Identity} {time : Nat}

/-- How an event of an identity is accounted for that came at some time. -/
inductive Covered (state : Dispatching α ρ) (identity : Identity) (time : Nat) : Prop
  | running (place : Nat) (call : DispatchCall α ρ) (present : state.calls[place]? = some call)
      (own : call.identity = identity) (inside : call.phase.inLoop = true)
      (due : state.dispatcher.inFlight.find? identity = some true ∨
        ∀ fetch ∈ call.fetches, time < fetch.begun)
  | settled (landed : state.dispatcher.inFlight.contains identity = false) (run : FinishedRun α)
      (last : state.lastRun? identity = some run)
      (later : ∀ fetch ∈ run.fetches, time < fetch.begun)

/-- Whoever is about to leave has just come to the last run of its identity. -/
def Concluded (state : Dispatching α ρ) : Prop :=
  ∀ (place : Nat) (call : DispatchCall α ρ) (result : Except ReconcileError Outcome),
    state.calls[place]? = some call → call.phase = .concluding result →
    state.lastRun? call.identity = some ⟨call.identity, call.fetches, result⟩

section LastRun

variable {ticket : Nat} {moved : DispatchCall α ρ} {dispatcher : Dispatcher ρ}

theorem lastRun?_replace_of_ne (different : identity ≠ moved.identity) :
    (state.replace ticket moved dispatcher).lastRun? identity = state.lastRun? identity := by
  have foreign : moved.finishedRuns.find? (fun run => run.identity = identity) = none := by
    apply List.find?_eq_none.mpr
    intro run member
    rcases DispatchCall.mem_finishedRuns member with ⟨result, -, rfl⟩
    simpa using different.symm
  simp [lastRun?, replace, List.find?_append, foreign]

theorem lastRun?_replace_of_going (going : ∀ result, moved.phase ≠ .concluding result) :
    (state.replace ticket moved dispatcher).lastRun? identity = state.lastRun? identity := by
  have unfinished : moved.finishedRuns = [] := by
    apply List.eq_nil_iff_forall_not_mem.mpr
    intro run member
    rcases DispatchCall.mem_finishedRuns member with ⟨result, concluding, -⟩
    exact going result concluding
  simp [lastRun?, replace, unfinished]

theorem lastRun?_replace_of_concluding {result : Except ReconcileError Outcome}
    (concluding : moved.phase = .concluding result) :
    (state.replace ticket moved dispatcher).lastRun? moved.identity =
      some ⟨moved.identity, moved.fetches, result⟩ := by
  simp [lastRun?, replace, DispatchCall.finishedRuns, concluding]

end LastRun

theorem Covered.kept (covered : Covered state identity time)
    (dispatcher : next.dispatcher = state.dispatcher) (runs : next.runs = state.runs)
    (calls : ∀ (place : Nat) (call : DispatchCall α ρ), state.calls[place]? = some call →
      next.calls[place]? = some call) :
    Covered next identity time := by
  have last : next.lastRun? identity = state.lastRun? identity := by simp [lastRun?, runs]
  cases covered with
  | running place call present own inside due =>
      exact .running place call (calls place call present) own inside (dispatcher ▸ due)
  | settled landed run known later =>
      exact .settled (dispatcher ▸ landed) run (last.trans known) later

section Move

variable {ticket : Nat} {call : DispatchCall α ρ} {dispatcher : Dispatcher ρ} {phase : Phase α ρ}
  {move : Move α}

theorem Covered.elsewhere (covered : Covered state identity time)
    (found : state.calls[ticket]? = some call) (different : identity ≠ call.identity)
    (turns : Phase.Turns rules backoff call.identity false state.dispatcher move call.phase
      dispatcher phase) :
    Covered (state.replace ticket (call.follow state.clock phase) dispatcher) identity time := by
  have same := turns.find?_of_ne different
  cases covered with
  | running place other present own inside due =>
      have mover : place ≠ ticket := by
        rintro rfl
        cases present.symm.trans found
        exact different own.symm
      refine .running place other ((getElem?_replace_of_ne mover).trans present) own inside ?_
      exact due.imp_left same.trans
  | settled landed run last later =>
      refine .settled ?_ run ?_ later
      · change dispatcher.inFlight.contains identity = false
        rw [Table.contains, same]
        exact landed
      · rw [lastRun?_replace_of_ne (by simpa using different)]
        exact last

theorem covered_of_arriving (orderly : Orderly state) (found : state.calls[ticket]? = some call)
    (recorded : call.Recorded state) (before : call.phase = .arriving)
    (turns : Phase.Turns rules backoff call.identity false state.dispatcher move call.phase
      dispatcher phase) (time : Nat) :
    Covered (state.replace ticket (call.follow state.clock phase) dispatcher) call.identity
      time := by
  rw [call.follow_of_arriving before]
  rw [before] at turns
  cases turns with
  | merge flying =>
      rcases orderly.owned call.identity flying with ⟨place, other, present, own, inside⟩
      have mover : place ≠ ticket := by
        rintro rfl
        cases present.symm.trans found
        rw [before] at inside
        cases inside
      refine .running place other ((getElem?_replace_of_ne mover).trans present) own inside ?_
      exact .inl (by simp [replace])
  | enter landed =>
      refine .running ticket _ (getElem?_replace_self found) rfl rfl (.inr ?_)
      simp [recorded.fetches_of_arriving before]

theorem Covered.within (covered : Covered state call.identity time) (orderly : Orderly state)
    (found : state.calls[ticket]? = some call) (earlier : time < state.clock)
    (before : call.phase.inLoop = true) (after : phase.inLoop = true)
    (kept : dispatcher.inFlight = state.dispatcher.inFlight) :
    Covered (state.replace ticket (call.follow state.clock phase) dispatcher) call.identity
      time := by
  cases covered with
  | running place other present own inside due =>
      cases orderly.alone _ _ other call present found inside before own
      cases present.symm.trans found
      refine .running ticket _ (getElem?_replace_self found) (call.follow_identity _ _) ?_ ?_
      · rw [call.follow_phase]
        exact after
      · refine due.imp (fun mark => kept ▸ mark) fun later fetch member => ?_
        rcases DispatchCall.begun_follow member with now | ⟨old, known, equal⟩
        · omega
        · exact equal ▸ later old known
  | settled landed =>
      rw [orderly.flying ticket call found before] at landed
      cases landed

theorem Covered.own (covered : Covered state call.identity time) (orderly : Orderly state)
    (concluded : Concluded state) (found : state.calls[ticket]? = some call)
    (earlier : time < state.clock) (looked : call.phase ≠ .arriving)
    (unfailed : ∀ message, phase ≠ .unwound message)
    (turns : Phase.Turns rules backoff call.identity false state.dispatcher move call.phase
      dispatcher phase) :
    Covered (state.replace ticket (call.follow state.clock phase) dispatcher) call.identity
      time := by
  have within (starts : call.phase.inLoop = true) (ends : phase.inLoop = true)
      (kept : dispatcher.inFlight = state.dispatcher.inFlight) :
      Covered (state.replace ticket (call.follow state.clock phase) dispatcher) call.identity
        time :=
    covered.within orderly found earlier starts ends kept
  generalize before : call.phase = old at turns looked within
  cases turns with
  | merge => exact absurd rfl looked
  | enter => exact absurd rfl looked
  | advance => exact within rfl rfl rfl
  | answered => exact within rfl rfl rfl
  | compiled => exact within rfl rfl rfl
  | conclude => exact within rfl rfl rfl
  | backOff => exact within rfl rfl rfl
  | again => exact within rfl rfl rfl
  | stay => exact within rfl rfl rfl
  | failWait => exact absurd rfl (unfailed _)
  | crash => exact absurd rfl (unfailed _)
  | failNext => exact absurd rfl (unfailed _)
  | abandon _ unwanted => cases unwanted
  | giveUp _ _ _ unwanted => cases unwanted
  | leave result free =>
      have inside : call.phase.inLoop = true := by rw [before]; rfl
      -- Nobody has marked the identity, so it is covered by the fetches of the run just over.
      have unmarked : state.dispatcher.inFlight.find? call.identity = some false :=
        free.resolve_left Bool.false_ne_true
      have later : ∀ fetch ∈ call.fetches, time < fetch.begun := by
        cases covered with
        | running place other present own loops due =>
            cases orderly.alone _ _ other call present found loops inside own
            cases present.symm.trans found
            refine due.resolve_left fun marked => ?_
            cases unmarked.symm.trans marked
        | settled landed =>
            rw [Table.contains_of_find? unmarked] at landed
            cases landed
      refine .settled (by simp [replace]) ⟨call.identity, call.fetches, result⟩ ?_ later
      rw [lastRun?_replace_of_going (by simp)]
      exact concluded ticket call result found before
  | rearm inFlight unmarked =>
      refine .running ticket _ (getElem?_replace_self found) (call.follow_identity _ _) ?_ (.inr ?_)
      · rw [call.follow_phase]
        rfl
      · simp [call.follow_of_rearming before]

theorem Concluded.of_move (concluded : Concluded state) (orderly : Orderly state)
    (found : state.calls[ticket]? = some call) {cancelled : Bool}
    (turns : Phase.Turns rules backoff call.identity cancelled state.dispatcher move call.phase
      dispatcher phase) :
    Concluded (state.replace ticket (call.follow state.clock phase) dispatcher) := by
  intro place other result present concluding
  rcases getElem?_replace present with ⟨rfl, rfl⟩ | ⟨different, old⟩
  · exact lastRun?_replace_of_concluding concluding
  · have known := concluded place other result old concluding
    by_cases same : other.identity = call.identity
    · have loops : other.phase.inLoop = true := by rw [concluding]; rfl
      -- Two calls of one identity are not inside their loops, so the mover comes to no result.
      rw [lastRun?_replace_of_going]
      · exact known
      · intro outcome ends
        rw [call.follow_phase] at ends
        subst ends
        have inside := turns.inLoop_of_concluding
        exact different (orderly.alone _ _ other call old found loops inside same)
    · rw [lastRun?_replace_of_ne (by simpa using same)]
      exact known

end Move

structure Accounted (state : Dispatching α ρ) : Prop where
  concluded : Concluded state
  covered : ∀ call ∈ state.calls, ∀ time, call.arrived = some time →
    Covered state call.identity time

theorem accounted_start (cache : Cache ρ) (resources : Identity → Option α) :
    Accounted (start cache resources) where
  concluded := by simp [Concluded, start]
  covered := by simp [start]

theorem Accounted.of_step (accounted : Accounted state) (orderly : Orderly state)
    (recorded : Recorded state) (intact : next.Intact) (wanted : next.cancelled = [])
    (stepped : step rules backoff state act = some next) : Accounted next := by
  have uncancelled := cancelled_of_step stepped wanted
  cases act with
  | change identity resource =>
      cases stepped
      refine ⟨accounted.concluded, fun call member time arrived => ?_⟩
      exact (accounted.covered call member time arrived).kept rfl rfl fun _ _ present => present
  | call identity token =>
      cases stepped
      refine ⟨fun place call result present concluding => ?_, fun call member time arrived => ?_⟩
      · rcases getElem?_made present with old | rfl
        · exact accounted.concluded place call result old concluding
        · cases concluding
      · rcases List.mem_append.mp member with old | new
        · exact (accounted.covered call old time arrived).kept rfl rfl
            fun _ _ present => getElem?_made_of_some present
        · cases List.mem_singleton.mp new
          cases arrived
  | cancel token => cases stepped; cases wanted
  | move ticket jitter prompt =>
      rcases turns_of_step stepped with ⟨call, dispatcher, phase, found, turns, rfl⟩
      have unwanted : state.isCancelled call.token = false := by simp [isCancelled, uncancelled]
      rw [unwanted] at turns
      have unfailed := intact.unfailed found
      have known := recorded.calls call (List.mem_of_getElem? found)
      refine ⟨accounted.concluded.of_move orderly found turns, fun other member time arrived => ?_⟩
      rcases List.mem_or_eq_of_mem_set member with old | rfl
      · have covered := accounted.covered other old time arrived
        have earlier := ((recorded.calls other old).arrived time arrived).2
        by_cases same : other.identity = call.identity
        · rw [same] at covered ⊢
          by_cases before : call.phase = .arriving
          · exact covered_of_arriving orderly found known before turns time
          · exact covered.own orderly accounted.concluded found earlier before unfailed turns
        · exact covered.elsewhere found same turns
      · rw [call.follow_identity]
        by_cases before : call.phase = .arriving
        · exact covered_of_arriving orderly found known before turns time
        · rw [call.arrived_follow before] at arrived
          exact (accounted.covered call (List.mem_of_getElem? found) time arrived).own orderly
            accounted.concluded found (known.arrived time arrived).2 before unfailed turns

theorem accounted_of_run {acts : List (DispatchAct α)} {cache : Cache ρ}
    {resources : Identity → Option α}
    (ran : run rules backoff acts (start cache resources) = some state)
    (wanted : state.cancelled = []) (intact : state.Intact) : Accounted state := by
  refine Execution.run_history
    (fun _ state => state.cancelled = [] → state.Intact → Accounted state) ?_ ?_ ran wanted intact
  · exact fun _ _ => accounted_start cache resources
  · intro acts act before after reached induction stepped uncancelled unfailed
    have intactBefore := unfailed.of_step stepped
    have wantedBefore := cancelled_of_step stepped uncancelled
    exact (induction wantedBefore intactBefore).of_step (orderly_of_run reached intactBefore)
      (recorded_of_run reached wantedBefore) unfailed uncancelled stepped

def Quiet (state : Dispatching α ρ) (identity : Identity) : Prop :=
  ∀ call ∈ state.calls, call.identity = identity → call.phase.isOver = true

def Followed (state : Dispatching α ρ) (identity : Identity) : Prop :=
  ∀ changed, (identity, changed) ∈ state.changes →
    ∃ call ∈ state.calls, call.identity = identity ∧ changed < call.made

theorem not_inLoop_of_isOver {phase : Phase α ρ} (completed : phase.isOver = true) :
    phase.inLoop = false := by
  cases phase <;> simp_all [Phase.isOver, Phase.inLoop]

theorem Quiet.not_inLoop (quiet : Quiet state identity) {place : Nat} {call : DispatchCall α ρ}
    (present : state.calls[place]? = some call) (own : call.identity = identity) :
    call.phase.inLoop = false :=
  not_inLoop_of_isOver (quiet call (List.mem_of_getElem? present) own)

theorem Quiet.settled (quiet : Quiet state identity) (accounted : Accounted state)
    (recorded : Recorded state) {call : DispatchCall α ρ} (member : call ∈ state.calls)
    (own : call.identity = identity) :
    ∃ time run, call.arrived = some time ∧ call.made < time ∧ state.lastRun? identity = some run ∧
      run.fetches ≠ [] ∧ ∀ fetch ∈ run.fetches, time < fetch.begun := by
  have looked : call.phase ≠ .arriving := by
    intro arriving
    have completed := quiet call member own
    rw [arriving] at completed
    cases completed
  rcases (recorded.calls call member).looked looked with ⟨time, arrived⟩
  have covered := accounted.covered call member time arrived
  rw [own] at covered
  cases covered with
  | running place other present same inside due =>
      rw [quiet.not_inLoop present same] at inside
      cases inside
  | settled landed run last later =>
      have settled := (recorded.runs run (List.mem_of_find?_eq_some last)).settled
      exact ⟨time, run, arrived, ((recorded.calls call member).arrived time arrived).1, last,
        settled.ne_nil, later⟩

/-- Without cancellations and failures every event is covered from the moment its call has looked
whether the identity is in flight. Once no call of an identity is in progress, the fetches of its
last run began after each of its events; and if every change of its resource was followed by a call
and that run ended well, its final fetch began after the last change and read the resource as it is
now. -/
theorem lastRun_reads_last_change {acts : List (DispatchAct α)} {cache : Cache ρ}
    {resources : Identity → Option α}
    (ran : run rules backoff acts (start cache resources) = some state)
    (wanted : state.cancelled = []) (intact : state.Intact) :
    (∀ call ∈ state.calls, ∀ time, call.arrived = some time →
      Covered state call.identity time) ∧
    ∀ identity, Quiet state identity →
      (∀ call ∈ state.calls, call.identity = identity → ∃ time run, call.arrived = some time ∧
        call.made < time ∧ state.lastRun? identity = some run ∧ run.fetches ≠ [] ∧
        ∀ fetch ∈ run.fetches, time < fetch.begun) ∧
      ∀ run outcome, Followed state identity → state.lastRun? identity = some run →
        run.result = .ok outcome →
        ∃ fetch earlier time, run.fetches = fetch :: earlier ∧
          fetch.read = some (time, .ok (state.resources identity)) ∧
          ∀ changed, (identity, changed) ∈ state.changes →
            changed < fetch.begun ∧ fetch.begun < time := by
  have accounted := accounted_of_run ran wanted intact
  have recorded := recorded_of_run ran wanted
  refine ⟨accounted.covered, fun identity quiet => ⟨?events, ?changes⟩⟩
  case events => exact fun call member own => quiet.settled accounted recorded member own
  case changes =>
    intro run outcome followed last succeeded
    have known := recorded.runs run (List.mem_of_find?_eq_some last)
    have own : run.identity = identity := by simpa using List.find?_some last
    have settled := known.settled
    rw [succeeded] at settled
    rcases settled with ⟨resource, begun, time, earlier, fetches⟩
    have latest : ⟨begun, some (time, .ok resource)⟩ ∈ run.fetches := by
      rw [fetches]
      exact List.mem_cons_self
    have genuine := known.genuine _ latest
    rw [own] at genuine
    have read := (genuine.read time _ rfl).1
    have after : ∀ changed, (identity, changed) ∈ state.changes → changed < begun := by
      intro changed known
      rcases followed changed known with ⟨call, member, same, made⟩
      rcases quiet.settled accounted recorded member same with
        ⟨arrival, other, -, arrived, found, -, later⟩
      cases last.symm.trans found
      have begunLater : arrival < begun := later _ latest
      omega
    have current := genuine.current time resource rfl fun changed known =>
      Nat.lt_trans (after changed known) read
    refine ⟨_, earlier, time, fetches, ?_, fun changed known => ⟨after changed known, read⟩⟩
    rw [current]

/-- Two events of one identity are merged into a run, one of them after that has come to its result
and found itself marked, but before it has taken the mark away. -/
def mergedTwice : List (DispatchAct String) :=
  [.call ⟨"a"⟩ 0, .move 0 1 .proceed, .move 0 1 .proceed, .move 0 1 .answer,
    .change ⟨"a"⟩ (some "one"), .call ⟨"a"⟩ 0, .move 1 1 .proceed, .move 0 1 .proceed,
    .move 0 1 .proceed, .move 0 1 .proceed, .change ⟨"a"⟩ (some "two"), .call ⟨"a"⟩ 0,
    .move 2 1 .proceed, .move 0 1 .proceed, .move 0 1 .proceed, .move 0 1 .answer,
    .move 0 1 .proceed, .move 0 1 .compile, .move 0 1 .proceed, .move 0 1 .proceed,
    .move 0 1 .proceed]

theorem lastRun_reads_last_change_mergedTwice :
    ∃ state, run Rules.plain {} mergedTwice (start {} fun _ => none) = some state ∧
      state.cancelled = [] ∧ state.Intact ∧ Quiet state ⟨"a"⟩ ∧ Followed state ⟨"a"⟩ ∧
      (∃ call ∈ state.calls, call.arrived = some 12 ∧ call.phase = .merged) ∧
      ∃ run fetch earlier, state.lastRun? ⟨"a"⟩ = some run ∧ run.result = .ok .upserted ∧
        run.fetches = fetch :: earlier ∧ 12 < fetch.begun ∧
        ∃ time, fetch.read = some (time, .ok (some "two")) := by
  rcases (⟨_, rfl⟩ : ∃ state, run Rules.plain {} mergedTwice (start {} fun _ => none) =
    some state) with ⟨state, ran⟩
  have reached := Option.some.inj ran
  have wanted : state.cancelled = [] := reached ▸ rfl
  have phases : state.calls.map DispatchCall.phase =
      [.returned (.ok .upserted), .merged, .merged] :=
    reached ▸ rfl
  have changes : state.changes = [(⟨"a"⟩, 10), (⟨"a"⟩, 4)] := reached ▸ rfl
  have third : ∃ call ∈ state.calls, call.identity = ⟨"a"⟩ ∧ call.made = 11 ∧
      call.arrived = some 12 ∧ call.phase = .merged :=
    reached ▸ ⟨_, .tail _ (.tail _ (.head _)), rfl, rfl, rfl, rfl⟩
  have last : ∃ run, state.lastRun? ⟨"a"⟩ = some run ∧ run.result = .ok .upserted :=
    reached ▸ ⟨_, rfl, rfl⟩
  have resources : state.resources ⟨"a"⟩ = some "two" := reached ▸ rfl
  have completed : ∀ call ∈ state.calls, call.phase = .returned (.ok .upserted) ∨
      call.phase = .merged := by
    intro call member
    have known := List.mem_map_of_mem (f := DispatchCall.phase) member
    rw [phases] at known
    simpa using known
  have intact : state.Intact := by
    intro call member message
    rcases completed call member with equal | equal <;> rw [equal] <;> nofun
  have quiet : Quiet state ⟨"a"⟩ := by
    intro call member _
    rcases completed call member with equal | equal <;> rw [equal] <;> rfl
  rcases third with ⟨call, member, own, made, arrived, merged⟩
  have followed : Followed state ⟨"a"⟩ := by
    intro changed known
    refine ⟨call, member, own, ?_⟩
    have known : changed = 10 ∨ changed = 4 := by simpa [changes] using known
    omega
  rcases last with ⟨run, last, succeeded⟩
  have covers := (lastRun_reads_last_change ran wanted intact).2 ⟨"a"⟩ quiet
  rcases covers.1 call member own with ⟨time, covering, looked, -, same, -, later⟩
  rcases covers.2 run _ followed last succeeded with ⟨fetch, earlier, read, fetches, answer, -⟩
  cases last.symm.trans same
  cases arrived.symm.trans looked
  refine ⟨state, ran, wanted, intact, quiet, followed, ⟨call, member, arrived, merged⟩, run, fetch,
    earlier, last, succeeded, fetches, ?_, ?_⟩
  · exact later fetch (fetches ▸ List.mem_cons_self)
  · exact ⟨read, resources ▸ answer⟩

end PolicyWarden.Dispatching
