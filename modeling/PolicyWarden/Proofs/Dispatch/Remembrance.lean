import PolicyWarden.Proofs.Dispatch.Admission

/-!
No identity is forgotten whose attempts ran out. When the last run of an identity ends badly and its
call leaves, the identity becomes pending in the same step; it is pending until it is taken again,
and then the call that was made for it accounts for it.
-/

namespace PolicyWarden

variable {α ρ : Type} {rules : Rules α ρ} {backoff : Backoff}

namespace Dispatching

variable {state next : Dispatching α ρ} {act : DispatchAct α} {identity : Identity}

def CalledAfter (state : Dispatching α ρ) (identity : Identity) (run : FinishedRun α) : Prop :=
  ∃ call ∈ state.calls, call.identity = identity ∧ ∀ fetch ∈ run.fetches, fetch.begun < call.made

theorem exists_made_of_step {call : DispatchCall α ρ} (member : call ∈ state.calls)
    (stepped : step rules backoff state act = some next) :
    ∃ moved ∈ next.calls, moved.identity = call.identity ∧ moved.made = call.made := by
  cases act with
  | change identity resource => cases stepped; exact ⟨call, member, rfl, rfl⟩
  | call identity token => cases stepped; exact ⟨call, List.mem_append_left _ member, rfl, rfl⟩
  | cancel token => cases stepped; exact ⟨call, member, rfl, rfl⟩
  | move ticket jitter prompt =>
      rcases turns_of_step stepped with ⟨mover, dispatcher, phase, found, -, rfl⟩
      rcases List.mem_iff_getElem?.mp member with ⟨place, present⟩
      by_cases same : place = ticket
      · subst same
        cases present.symm.trans found
        exact ⟨_, List.mem_of_getElem? (getElem?_replace_self found), call.follow_identity _ _,
          call.follow_made _ _⟩
      · exact ⟨call, List.mem_of_getElem? ((getElem?_replace_of_ne same).trans present), rfl, rfl⟩

theorem CalledAfter.of_step {run : FinishedRun α} (called : CalledAfter state identity run)
    (stepped : step rules backoff state act = some next) : CalledAfter next identity run := by
  rcases called with ⟨call, member, own, later⟩
  rcases exists_made_of_step member stepped with ⟨moved, known, same, made⟩
  exact ⟨moved, known, same.trans own, made ▸ later⟩

theorem left_of_landed {call : DispatchCall α ρ} {ticket : Nat} {cancelled : Bool} {move : Move α}
    {dispatcher : Dispatcher ρ} {phase : Phase α ρ} (orderly : Orderly state)
    (found : state.calls[ticket]? = some call)
    (turns : Phase.Turns rules backoff call.identity cancelled state.dispatcher move call.phase
      dispatcher phase)
    (landed : dispatcher.inFlight.contains call.identity = false) :
    ∃ result, call.phase = .concluding result ∧ phase = .returned result := by
  have flies (inside : call.phase.inLoop = true)
      (kept : dispatcher.inFlight = state.dispatcher.inFlight) : False := by
    have contained := orderly.flying ticket call found inside
    rw [← kept, landed] at contained
    cases contained
  generalize before : call.phase = old at turns flies
  cases turns with
  | merge => simp at landed
  | enter => simp at landed
  | leave result => exact ⟨result, rfl, rfl⟩
  | rearm inFlight unmarked =>
      have contained := orderly.flying ticket call found (by rw [before]; rfl)
      rw [if_pos contained] at unmarked
      subst unmarked
      simp at landed
  | _ => exact (flies rfl rfl).elim

end Dispatching

namespace Admitting

open Dispatching

variable {state next : Admitting α ρ} {act : AdmitAct α}

/-- An identity that is not in flight, and whose last run has ended badly, is pending or was called
again. -/
def Remembered (state : Admitting α ρ) : Prop :=
  ∀ identity run error, state.dispatching.dispatcher.inFlight.contains identity = false →
    state.dispatching.lastRun? identity = some run → run.result = .error error →
    state.intake.Pending identity ∨ state.dispatching.CalledAfter identity run

theorem pending_release {intake : Intake} {identity : Identity} (pending : intake.Pending identity)
    (cancelled : Bool) (ticket due : Nat) (call : DispatchCall α ρ) :
    (release intake cancelled ticket due call).Pending identity := by
  unfold release
  split
  · exact pending.finish _ _ _ _
  · exact pending

theorem Remembered.of_move {ticket due : Nat} {jitter : Float} {prompt : Prompt}
    (remembered : Remembered state) (orderly : state.dispatching.Orderly)
    (recorded : state.dispatching.Recorded) (concluded : state.dispatching.Concluded)
    (wanted : next.dispatching.cancelled = [])
    (stepped : step rules backoff state (.move ticket jitter prompt due) = some next) :
    Remembered next := by
  rcases move_of_step stepped with ⟨moved, follows, present, intake⟩
  rcases turns_of_step follows with ⟨call, dispatcher, phase, found, turns, equal⟩
  intro identity run error landed last failed
  rw [equal] at landed last
  by_cases own : identity = call.identity
  · subst own
    rcases left_of_landed orderly found turns landed with ⟨result, concluding, rfl⟩
    rw [lastRun?_replace_of_going (by simp)] at last
    cases last.symm.trans (concluded ticket call result found concluding)
    cases failed
    have settled := (recorded.calls call (List.mem_of_getElem? found)).heard
    rw [concluding] at settled
    rcases settled with ⟨failure, rfl, -⟩
    have returned : moved = call.follow state.dispatching.clock
        (.returned (.error (.fetch failure))) := by
      rw [equal, getElem?_replace_self found] at present
      exact (Option.some.inj present).symm
    have unwanted : next.dispatching.isCancelled 0 = false := by simp [isCancelled, wanted]
    have retryable : (ReconcileError.fetch failure).retryable = true := rfl
    refine .inl ?_
    rw [intake, returned, unwanted, release, call.follow_phase, call.follow_identity]
    exact Intake.pending_finish retryable _ due
  · rw [lastRun?_replace_of_ne (by simpa using own)] at last
    have before : state.dispatching.dispatcher.inFlight.contains identity = false := by
      rw [Table.contains, ← turns.find?_of_ne own]
      exact landed
    refine (remembered identity run error before last failed).imp (fun pending => ?_)
      fun called => called.of_step follows
    rw [intake]
    exact pending_release pending _ _ _ _

theorem Remembered.of_take (remembered : Remembered state) (recorded : state.dispatching.Recorded)
    (stepped : step rules backoff state .take = some next) : Remembered next := by
  rcases take_of_step stepped with ⟨identity, intake, taken, called, started⟩
  intro other run error landed last failed
  have same := (Option.some.inj called).symm
  rw [same] at landed last
  rcases remembered other run error landed last failed with pending | again
  · rcases pending.of_next taken with still | rfl
    · refine .inl ?_
      rw [started]
      exact still
    · refine .inr ?_
      rw [same]
      refine ⟨_, List.mem_append_right _ (List.mem_singleton_self _), rfl, fun fetch member => ?_⟩
      have known := recorded.runs run (List.mem_of_find?_eq_some last)
      exact (known.genuine fetch member).begun
  · exact .inr (again.of_step called)

theorem Remembered.kept (remembered : Remembered state)
    (dispatcher : next.dispatching.dispatcher = state.dispatching.dispatcher)
    (runs : next.dispatching.runs = state.dispatching.runs)
    (calls : next.dispatching.calls = state.dispatching.calls)
    (pending : ∀ identity, state.intake.Pending identity → next.intake.Pending identity) :
    Remembered next := by
  intro identity run error landed last failed
  rw [dispatcher] at landed
  rw [lastRun?, runs] at last
  refine (remembered identity run error landed last failed).imp (pending identity) fun called => ?_
  rw [CalledAfter, calls]
  exact called

theorem remembered_start (limit : Nat) (cache : Cache ρ) (resources : Identity → Option α) :
    Remembered (start limit cache resources) := by
  intro identity run error _ last
  cases last

theorem Remembered.of_step (remembered : Remembered state) (orderly : state.dispatching.Orderly)
    (recorded : state.dispatching.Recorded) (concluded : state.dispatching.Concluded)
    (wanted : next.dispatching.cancelled = [])
    (stepped : step rules backoff state act = some next) : Remembered next := by
  cases act with
  | event identity =>
      cases stepped
      exact remembered.kept rfl rfl rfl fun _ pending => pending
  | take => exact remembered.of_take recorded stepped
  | change identity resource =>
      cases stepped
      exact remembered.kept rfl rfl rfl fun _ pending => pending
  | move ticket jitter prompt due =>
      exact remembered.of_move orderly recorded concluded wanted stepped
  | wake now =>
      cases stepped
      exact remembered.kept rfl rfl rfl fun _ pending => pending.wake now
  | cancel => cases stepped; cases wanted
  | stop =>
      simp only [step] at stepped
      split at stepped
      · next cancelled =>
          cases stepped
          change state.dispatching.cancelled = [] at wanted
          rw [isCancelled, wanted] at cancelled
          cases cancelled
      · cases stepped

theorem remembered_of_run {limit : Nat} {cache : Cache ρ} {resources : Identity → Option α}
    {acts : List (AdmitAct α)}
    (ran : run rules backoff acts (start limit cache resources) = some state)
    (wanted : state.dispatching.cancelled = []) (intact : state.dispatching.Intact) :
    Remembered state := by
  refine Execution.run_history (fun _ state =>
    state.dispatching.cancelled = [] → state.dispatching.Intact → Remembered state) ?_ ?_ ran wanted
      intact
  · exact fun _ _ => remembered_start limit cache resources
  · intro acts act before after reached induction stepped uncancelled unfailed
    have past : before.dispatching.cancelled = [] ∧ before.dispatching.Intact := by
      rcases dispatching_of_step stepped with same | ⟨act, moved, -⟩
      · exact same ▸ ⟨uncancelled, unfailed⟩
      · exact ⟨cancelled_of_step moved uncancelled, unfailed.of_step moved⟩
    rcases dispatching_of_run reached with ⟨_, dispatched⟩
    exact (induction past.1 past.2).of_step (orderly_of_run dispatched past.2)
      (recorded_of_run dispatched past.1) (accounted_of_run dispatched past.1 past.2).concluded
      uncancelled stepped

/-- The event of its identity that was taken last is that of this call. -/
def Latest (state : Admitting α ρ) (call : DispatchCall α ρ) : Prop :=
  call ∈ state.dispatching.calls ∧ ∀ other ∈ state.dispatching.calls,
    other.identity = call.identity → other.made ≤ call.made

/-- Before the cancellation, and as long as no call fails without a result, the event of an identity
that was taken last is accounted for: a run has ended well whose final fetch began after it, or its
call has yet to look whether the identity is in flight, or a call in its loop is marked or has not
fetched before the event, or the identity is pending. -/
theorem taken_accounted_for {limit : Nat} {cache : Cache ρ} {resources : Identity → Option α}
    {acts : List (AdmitAct α)} {call : DispatchCall α ρ}
    (ran : run rules backoff acts (start limit cache resources) = some state)
    (wanted : state.dispatching.cancelled = []) (intact : state.dispatching.Intact)
    (latest : Latest state call) :
    (∃ run ∈ state.dispatching.runs, run.identity = call.identity ∧
      (∃ outcome, run.result = .ok outcome) ∧
      ∃ fetch earlier, run.fetches = fetch :: earlier ∧ call.made < fetch.begun) ∨
    call.phase = .arriving ∨
    (∃ other ∈ state.dispatching.calls, other.identity = call.identity ∧
      other.phase.inLoop = true ∧
      (state.dispatching.dispatcher.inFlight.find? call.identity = some true ∨
        ∀ fetch ∈ other.fetches, call.made < fetch.begun)) ∨
    state.intake.Pending call.identity := by
  have remembered := remembered_of_run ran wanted intact
  rcases dispatching_of_run ran with ⟨_, dispatched⟩
  have recorded := recorded_of_run dispatched wanted
  have accounted := accounted_of_run dispatched wanted intact
  rcases latest with ⟨member, unsurpassed⟩
  have known := recorded.calls call member
  by_cases looked : call.phase = .arriving
  · exact .inr (.inl looked)
  rcases known.looked looked with ⟨time, arrived⟩
  have made := (known.arrived time arrived).1
  cases accounted.covered call member time arrived with
  | running place other present own inside due =>
      refine .inr (.inr (.inl ⟨other, List.mem_of_getElem? present, own, inside, ?_⟩))
      exact due.imp_right fun later fetch begun => Nat.lt_trans made (later fetch begun)
  | settled landed run last later =>
      have finished := List.mem_of_find?_eq_some last
      have own : run.identity = call.identity := by simpa using List.find?_some last
      have settled := (recorded.runs run finished).settled
      rcases List.exists_cons_of_ne_nil settled.ne_nil with ⟨fetch, earlier, fetches⟩
      have begun : time < fetch.begun := later fetch (fetches ▸ List.mem_cons_self)
      cases result : run.result with
      | ok outcome =>
          exact .inl ⟨run, finished, own, ⟨outcome, result⟩, fetch, earlier, fetches,
            Nat.lt_trans made begun⟩
      | error error =>
          rcases remembered call.identity run error landed last result with
            pending | ⟨other, calls, same, after⟩
          · exact .inr (.inr (.inr pending))
          · -- No event of the identity was taken later, so the run is not older than the event.
            have := unsurpassed other calls same
            have := after fetch (fetches ▸ List.mem_cons_self)
            omega

/-- An event is merged into a dispatch whose attempts then fail, both of them with a wait in between,
and fail again when it runs once more. -/
def mergedThenFailed : List (AdmitAct String) :=
  let failing : List (AdmitAct String) :=
    [.move 0 1 (.fail ⟨⟨"a"⟩, "unreachable"⟩) 0, .move 0 1 .proceed 0, .move 0 1 .proceed 0]
  let waiting : List (AdmitAct String) := [.move 0 1 .wait 0, .move 0 1 .proceed 0]
  List.flatten [
    [.event ⟨"a"⟩, .event ⟨"a"⟩, .take, .move 0 1 .proceed 0, .move 0 1 .proceed 0, .take,
      .move 1 1 .proceed 0],
    failing, waiting, failing, List.replicate 3 (.move 0 1 .proceed 0),
    failing, waiting, failing, [.move 0 1 .proceed 9]]

set_option maxRecDepth 4000 in
theorem taken_accounted_for_mergedThenFailed :
    ∃ state call, run Rules.plain { maxAttempts := 2 } mergedThenFailed
        (start 2 {} fun _ => none) = some state ∧
      state.dispatching.cancelled = [] ∧ state.dispatching.Intact ∧ Latest state call ∧
      call.identity = ⟨"a"⟩ ∧ call.phase = .merged ∧ state.intake.Pending ⟨"a"⟩ := by
  rcases (⟨_, rfl⟩ : ∃ state, run Rules.plain { maxAttempts := 2 } mergedThenFailed
    (start 2 {} fun _ => none) = some state) with ⟨state, ran⟩
  have reached := Option.some.inj ran
  have wanted : state.dispatching.cancelled = [] := reached ▸ rfl
  have calls : ∃ first second, state.dispatching.calls = [first, second] ∧
      first.made = 0 ∧ first.phase = .returned (.error (.fetch ⟨⟨"a"⟩, "unreachable"⟩)) ∧
      second.made = 3 ∧ second.identity = ⟨"a"⟩ ∧ second.phase = .merged :=
    reached ▸ ⟨_, _, rfl, rfl, rfl, rfl, rfl, rfl⟩
  have results : state.dispatching.runs.map FinishedRun.result =
      [.error (.fetch ⟨⟨"a"⟩, "unreachable"⟩), .error (.fetch ⟨⟨"a"⟩, "unreachable"⟩)] :=
    reached ▸ rfl
  rcases calls with ⟨first, second, calls, firstMade, left, secondMade, own, merged⟩
  have known : ∀ call ∈ state.dispatching.calls, call = first ∨ call = second := by
    simp [calls]
  have intact : state.dispatching.Intact := by
    intro call member message
    rcases known call member with rfl | rfl
    · rw [left]; nofun
    · rw [merged]; nofun
  have latest : Latest state second := by
    refine ⟨by simp [calls], fun other member _ => ?_⟩
    rcases known other member with rfl | rfl
    · omega
    · exact Nat.le_refl _
  refine ⟨state, second, ran, wanted, intact, latest, own, merged, ?_⟩
  rcases taken_accounted_for ran wanted intact latest with
    ⟨run, finished, -, ⟨outcome, succeeded⟩, -⟩ | arriving | ⟨call, member, -, inside, -⟩ | pending
  · have failed := List.mem_map_of_mem (f := FinishedRun.result) finished
    rw [results, succeeded] at failed
    simp at failed
  · rw [merged] at arriving
    cases arriving
  · rcases known call member with rfl | rfl
    · rw [left] at inside
      cases inside
    · rw [merged] at inside
      cases inside
  · exact own ▸ pending

end Admitting

end PolicyWarden
