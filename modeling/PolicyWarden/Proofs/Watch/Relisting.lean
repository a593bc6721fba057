import PolicyWarden.Proofs.Dispatch.Clearing
import PolicyWarden.Proofs.Dispatch.Exclusion
import PolicyWarden.Proofs.Store.Arrangement
import PolicyWarden.Proofs.Watch.Controlling

/-!
What a listing finds missing, and what becomes of it. The end of a listing calls for every stored
identity that the listing has not named. A call that is made after the object of its identity has
gone fetches after that, at the latest in the last run of the identity, and clears it.
-/

namespace PolicyWarden

variable {ρ : Type}

theorem RelistTracker.mem_missing {stored listing : List Identity} {identity : Identity}
    (known : identity ∈ stored) (unnamed : identity ∉ listing) :
    identity ∈ RelistTracker.missing stored listing := by
  apply List.mem_mergeSort.mpr
  simp [known, unnamed]

theorem Admitting.arrived_of_step {α : Type} {rules : Rules α ρ} {backoff : Backoff}
    {state next : Admitting α ρ} {act : AdmitAct α} {identity : Identity}
    (waits : identity ∈ state.intake.arrived) (stepped : step rules backoff state act = some next) :
    identity ∈ next.intake.arrived ∨ ∃ call ∈ next.dispatching.calls,
      call.identity = identity ∧ call.made = state.dispatching.clock := by
  cases act with
  | event other => cases stepped; exact .inl (List.mem_append_left _ waits)
  | take =>
      rcases take_of_step stepped with ⟨other, intake, taken, called, started⟩
      rw [started]
      rcases Intake.arrived_of_next taken with same | first
      · exact .inl (same ▸ waits)
      · rw [first] at waits
        rcases List.mem_cons.mp waits with rfl | later
        · have same := Option.some.inj called
          rw [← same]
          exact .inr ⟨_, List.mem_append_right _ (List.mem_singleton_self _), rfl, rfl⟩
        · exact .inl later
  | change other resource => cases stepped; exact .inl waits
  | move ticket jitter prompt due =>
      rcases move_of_step stepped with ⟨call, -, -, intake⟩
      rw [intake, release]
      split
      · rw [Intake.finish_eq]
        exact .inl waits
      · exact .inl waits
  | wake now => cases stepped; exact .inl waits
  | cancel => cases stepped; exact .inl waits
  | stop =>
      simp only [step] at stepped
      split at stepped
      · cases stepped; exact .inl waits
      · cases stepped

theorem Admitting.lastRun_ok {α : Type} {rules : Rules α ρ} {backoff : Backoff}
    {state : Admitting α ρ} {acts : List (AdmitAct α)} {limit : Nat} {cache : Cache ρ}
    {resources : Identity → Option α} {identity : Identity} {last : FinishedRun α}
    (ran : run rules backoff acts (start limit cache resources) = some state)
    (wanted : state.dispatching.cancelled = []) (intact : state.dispatching.Intact)
    (quiet : state.dispatching.Quiet identity) (idle : ¬state.intake.Pending identity)
    (known : state.dispatching.lastRun? identity = some last) :
    ∃ outcome, last.result = .ok outcome := by
  have remembered := remembered_of_run ran wanted intact
  rcases dispatching_of_run ran with ⟨_, dispatched⟩
  have recorded := Dispatching.recorded_of_run dispatched wanted
  have accounted := Dispatching.accounted_of_run dispatched wanted intact
  have landed := (Dispatching.orderly_of_run dispatched intact).landed quiet.not_loopsAt
  cases result : last.result with
  | ok outcome => exact ⟨outcome, rfl⟩
  | error error =>
      rcases remembered identity last error landed known result with
        pending | ⟨call, member, own, after⟩
      · exact absurd pending idle
      · -- That call has been accounted for, by fetches that began after it.
        rcases quiet.settled accounted recorded member own with
          ⟨time, run, -, made, same, some, later⟩
        cases known.symm.trans same
        rcases List.exists_mem_of_ne_nil _ some with ⟨fetch, fetched⟩
        have := after fetch fetched
        have := later fetch fetched
        omega

namespace Controlling

variable {rules : Rules PolicyResource ρ} {backoff : Backoff} {state next final : Controlling ρ}
  {act : ControlAct} {acts later listing : List ControlAct} {limit time : Nat} {cache : Cache ρ}
  {resources : Identity → Option PolicyResource} {identity : Identity}

theorem listing_of_run (begun : state.tracker.listing = some [])
    (ran : run rules backoff listing state = some final)
    (single : ∀ act ∈ listing, act ≠ .watch .listingBegun ∧ act ≠ .watch .listingDone) :
    ∃ named, final.tracker.listing = some named ∧ ∀ identity ∈ named,
      ∃ resource, .watch (.listed resource) ∈ listing ∧ resource.identity? = some identity := by
  refine Execution.run_history (fun listing final =>
    (∀ act ∈ listing, act ≠ .watch .listingBegun ∧ act ≠ .watch .listingDone) →
    ∃ named, final.tracker.listing = some named ∧ ∀ identity ∈ named,
      ∃ resource, .watch (.listed resource) ∈ listing ∧ resource.identity? = some identity)
    ?_ ?_ ran single
  · exact fun _ => ⟨[], begun, nofun⟩
  · intro listing act state next _ known stepped single
    rcases known fun other member => single other (List.mem_append_left _ member) with
      ⟨named, tracked, told⟩
    have earlier : ∀ identity ∈ named, ∃ resource,
        .watch (.listed resource) ∈ listing ++ [act] ∧ resource.identity? = some identity := by
      intro identity member
      rcases told identity member with ⟨resource, known, own⟩
      exact ⟨resource, List.mem_append_left _ known, own⟩
    have outside := single act (List.mem_append_right _ (List.mem_singleton_self _))
    cases act with
    | proceed act =>
        rcases proceed_of_step stepped with ⟨-, same⟩
        exact ⟨named, same ▸ tracked, earlier⟩
    | watch event =>
        rcases watch_of_step stepped with ⟨-, rfl⟩
        cases event with
        | applied | deleted => exact ⟨named, tracked, earlier⟩
        | listingBegun => exact absurd rfl outside.1
        | listingDone => exact absurd rfl outside.2
        | listed resource =>
            refine ⟨resource.identity?.toList ++ named, ?_, ?_⟩
            · simp [pull, RelistTracker.observe, tracked]
            · intro identity member
              rcases List.mem_append.mp member with new | old
              · exact ⟨resource, List.mem_append_right _ (List.mem_singleton_self _),
                  Option.mem_toList.mp new⟩
              · exact earlier identity old

/-- The identity waits to be taken, or was called after this time. -/
def Due (state : Controlling ρ) (identity : Identity) (time : Nat) : Prop :=
  time < state.dispatching.clock ∧ (identity ∈ state.intake.arrived ∨
    ∃ call ∈ state.dispatching.calls, call.identity = identity ∧ time < call.made)

theorem Due.of_step (due : state.Due identity time)
    (stepped : step rules backoff state act = some next) : next.Due identity time := by
  rcases due with ⟨past, known⟩
  have goesOn : time < next.dispatching.clock := by
    rcases dispatching_of_step stepped with same | ⟨moved, follows, -⟩
    · rw [same]
      exact past
    · have := Dispatching.clock_of_step follows
      omega
  refine ⟨goesOn, ?_⟩
  rcases known with waits | ⟨call, member, own, later⟩
  · cases act with
    | watch event =>
        rcases watch_of_step stepped with ⟨-, rfl⟩
        exact .inl (List.mem_append_left _ waits)
    | proceed act =>
        rcases Admitting.arrived_of_step waits (proceed_of_step stepped).1 with
          still | ⟨call, member, own, made⟩
        · exact .inl still
        · exact .inr ⟨call, member, own, made ▸ past⟩
  · rcases dispatching_of_step stepped with same | ⟨moved, follows, -⟩
    · rw [same]
      exact .inr ⟨call, member, own, later⟩
    · rcases Dispatching.exists_made_of_step member follows with ⟨other, known, same, made⟩
      exact .inr ⟨other, known, same.trans own, made ▸ later⟩

theorem gone_of_step (gone : state.dispatching.Gone identity time)
    (kept : ∀ resource, act ≠ .proceed (.change identity resource))
    (stepped : step rules backoff state act = some next) :
    next.dispatching.Gone identity time := by
  rcases dispatching_of_step stepped with same | ⟨moved, follows, change⟩
  · exact same ▸ gone
  · refine gone.of_step ?_ follows
    intro resource changes
    exact kept resource (change identity resource changes)

theorem cleared_of_step (cleared : state.dispatching.Cleared identity)
    (gone : state.dispatching.Gone identity time)
    (stepped : step rules backoff state act = some next) : next.dispatching.Cleared identity := by
  rcases dispatching_of_step stepped with same | ⟨moved, follows, -⟩
  · exact same ▸ cleared
  · exact cleared.of_step gone follows

theorem cleared_of_run (gone : state.dispatching.Gone identity time)
    (kept : ∀ act ∈ later, ∀ resource, act ≠ .proceed (.change identity resource))
    (goesOn : run rules backoff later state = some final) :
    final.dispatching.Gone identity time ∧
      (state.dispatching.Cleared identity → final.dispatching.Cleared identity) := by
  refine Execution.run_history (fun later final =>
    (∀ act ∈ later, ∀ resource, act ≠ .proceed (.change identity resource)) →
    final.dispatching.Gone identity time ∧
      (state.dispatching.Cleared identity → final.dispatching.Cleared identity)) ?_ ?_ goesOn kept
  · exact fun _ => ⟨gone, id⟩
  · intro later act middle next _ known stepped kept
    have before := known fun other member => kept other (List.mem_append_left _ member)
    have last := kept act (List.mem_append_right _ (List.mem_singleton_self _))
    refine ⟨gone_of_step before.1 last stepped, fun cleared => ?_⟩
    exact cleared_of_step (before.2 cleared) before.1 stepped

theorem cleared_of_succeeded
    (ran : run rules backoff acts (start limit cache resources) = some state)
    (gone : state.dispatching.Gone identity time) (now : state.dispatching.clock ≤ time + 1)
    (kept : ∀ act ∈ later, ∀ resource, act ≠ .proceed (.change identity resource))
    (goesOn : run rules backoff later state = some final)
    (wanted : final.dispatching.cancelled = []) (intact : final.dispatching.Intact)
    (succeeded : final.dispatching.Succeeded identity time) :
    final.dispatching.Cleared identity := by
  refine Execution.run_history (fun later final =>
    (∀ act ∈ later, ∀ resource, act ≠ .proceed (.change identity resource)) →
    final.dispatching.cancelled = [] → final.dispatching.Intact →
    final.dispatching.Succeeded identity time → final.dispatching.Cleared identity)
    ?_ ?_ goesOn kept wanted intact succeeded
  · intro _ wanted _ succeeded
    rcases dispatching_of_run ran with ⟨_, dispatched⟩
    have recorded := Dispatching.recorded_of_run dispatched wanted
    exact absurd succeeded (recorded.not_succeeded now)
  · intro later act middle next reached known stepped kept wanted intact succeeded
    have earlier : ∀ act ∈ later, ∀ resource, act ≠ .proceed (.change identity resource) :=
      fun other member => kept other (List.mem_append_left _ member)
    have gone := (cleared_of_run gone earlier reached).1
    rcases sound_of_step wanted intact stepped with ⟨wantedBefore, intactBefore⟩
    have known := known earlier wantedBefore intactBefore
    rcases dispatching_of_step stepped with same | ⟨moved, follows, -⟩
    · rw [same] at succeeded
      exact same ▸ known succeeded
    · have whole := Execution.run_append_eq_some.mpr ⟨state, ran, reached⟩
      rcases dispatching_of_run whole with ⟨_, dispatched⟩
      have orderly := Dispatching.orderly_of_run dispatched intactBefore
      have recorded := Dispatching.recorded_of_run dispatched wantedBefore
      rcases Dispatching.succeeded_or_cleared_of_step orderly recorded gone follows succeeded with
        before | cleared
      · exact (known before).of_step gone follows
      · exact cleared

theorem due_of_run (due : state.Due identity time)
    (goesOn : run rules backoff later state = some final) : final.Due identity time :=
  Execution.run_invariant (fun state => state.Due identity time) due
    (fun _ _ _ due stepped => due.of_step stepped) goesOn

/-- The end of a listing calls for every stored identity that the listing has not named. -/
theorem mem_arrived_of_listingDone {named : List Identity}
    (listed : state.tracker.listing = some named) (unnamed : identity ∉ named)
    (stored : state.store.contains identity = true) :
    identity ∈ (state.pull .listingDone).intake.arrived := by
  have missing := RelistTracker.mem_missing (Store.mem_sortedIdentities_iff.mpr stored) unnamed
  simp only [pull, RelistTracker.observe, listed]
  exact List.mem_append_right _ missing

theorem clock_le_of_run (goesOn : run rules backoff later state = some final) :
    state.dispatching.clock ≤ final.dispatching.clock := by
  refine Execution.run_invariant
    (fun final : Controlling ρ => state.dispatching.clock ≤ final.dispatching.clock)
    (Nat.le_refl _) ?_ goesOn
  intro middle act next before stepped
  rcases dispatching_of_step stepped with same | ⟨moved, follows, -⟩
  · rw [same]
    exact before
  · have := Dispatching.clock_of_step follows
    omega

theorem cleared_of_due
    (ran : run rules backoff acts (start limit cache resources) = some state)
    (gone : state.dispatching.Gone identity time) (now : state.dispatching.clock ≤ time + 1)
    (kept : ∀ act ∈ later, ∀ resource, act ≠ .proceed (.change identity resource))
    (goesOn : run rules backoff later state = some final)
    (wanted : final.dispatching.cancelled = []) (intact : final.dispatching.Intact)
    (quiet : final.dispatching.Quiet identity) (due : final.Due identity time)
    (taken : identity ∉ final.intake.arrived) (idle : ¬final.intake.Pending identity) :
    final.dispatching.Cleared identity := by
  rcases due with ⟨-, waits | ⟨call, member, own, after⟩⟩
  · exact absurd waits taken
  have whole := Execution.run_append_eq_some.mpr ⟨state, ran, goesOn⟩
  rcases admitting_of_run whole with ⟨_, admitted⟩
  rcases Admitting.dispatching_of_run admitted with ⟨_, dispatched⟩
  have recorded := Dispatching.recorded_of_run dispatched wanted
  have accounted := Dispatching.accounted_of_run dispatched wanted intact
  rcases quiet.settled accounted recorded member own with
    ⟨arrived, last, -, made, known, some, fetched⟩
  have succeeded := Admitting.lastRun_ok admitted wanted intact quiet idle known
  rcases List.exists_cons_of_ne_nil some with ⟨fetch, earlier, fetches⟩
  have later := fetched fetch (fetches ▸ List.mem_cons_self)
  have finished : last.identity = identity := by simpa using List.find?_some known
  apply cleared_of_succeeded ran gone now kept goesOn wanted intact
  exact .inr ⟨last, List.mem_of_find?_eq_some known, finished, succeeded, fetch, earlier, fetches,
    by omega⟩

end Controlling

end PolicyWarden
