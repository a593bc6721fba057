import PolicyWarden.Proofs.Dispatch.Remembrance
import PolicyWarden.Watch.Relist

/-!
The controller as a whole: a watch whose events a tracker turns into identities, the intake that
takes these one by one, and the dispatches that it calls. The next event of the watch is asked for
once all identities of the one before were taken and there is room for more. Which identities are
missing from a listing is told from the store as it is when the end of the listing is asked for.
-/

namespace PolicyWarden

variable {ρ : Type}

structure Controlling (ρ : Type) where
  admitting : Admitting PolicyResource ρ
  tracker : RelistTracker := {}

inductive ControlAct where
  | watch (event : WatchEvent)
  | proceed (act : AdmitAct PolicyResource)

namespace Controlling

abbrev dispatching (state : Controlling ρ) : Dispatching PolicyResource ρ :=
  state.admitting.dispatching

abbrev intake (state : Controlling ρ) : Intake :=
  state.admitting.intake

def store (state : Controlling ρ) : Store ρ :=
  state.dispatching.dispatcher.cache.store

def awaits (state : Controlling ρ) : Bool :=
  !state.dispatching.isCancelled 0 && state.intake.accepts && state.intake.arrived.isEmpty

def pull (state : Controlling ρ) (event : WatchEvent) : Controlling ρ :=
  let (named, tracker) := state.tracker.observe state.store.sortedIdentities event
  let intake := { state.intake with arrived := state.intake.arrived ++ named }
  { admitting := { state.admitting with intake }, tracker }

/-- What follows from an act; none if it is not possible. Events come from the watch alone. -/
def step (rules : Rules PolicyResource ρ) (backoff : Backoff) (state : Controlling ρ) :
    ControlAct → Option (Controlling ρ)
  | .watch event => if state.awaits then some (state.pull event) else none
  | .proceed (.event _) => none
  | .proceed act => do
      let admitting ← state.admitting.step rules backoff act
      some { state with admitting }

def start (limit : Nat) (cache : Cache ρ) (resources : Identity → Option PolicyResource) :
    Controlling ρ :=
  { admitting := .start limit cache resources }

abbrev run (rules : Rules PolicyResource ρ) (backoff : Backoff) (acts : List ControlAct)
    (state : Controlling ρ) : Option (Controlling ρ) :=
  Execution.run (step rules backoff) acts state

variable {rules : Rules PolicyResource ρ} {backoff : Backoff} {state next : Controlling ρ}
  {act : ControlAct} {limit : Nat} {cache : Cache ρ}
  {resources : Identity → Option PolicyResource} {acts : List ControlAct}

theorem watch_of_step {event : WatchEvent}
    (stepped : step rules backoff state (.watch event) = some next) :
    state.awaits = true ∧ next = state.pull event := by
  simp only [step] at stepped
  split at stepped
  · next awaits => cases stepped; exact ⟨awaits, rfl⟩
  · cases stepped

theorem proceed_of_step {act : AdmitAct PolicyResource}
    (stepped : step rules backoff state (.proceed act) = some next) :
    state.admitting.step rules backoff act = some next.admitting ∧
      next.tracker = state.tracker := by
  cases act with
  | event identity => cases stepped
  | _ =>
      simp only [step, Option.bind_eq_bind, Option.bind_eq_some_iff] at stepped
      rcases stepped with ⟨admitting, admitted, equal⟩
      cases equal
      exact ⟨admitted, rfl⟩

/-- The dispatcher sees of each act one of its own, or nothing; the cluster changes by itself. -/
theorem dispatching_of_step (stepped : step rules backoff state act = some next) :
    next.dispatching = state.dispatching ∨
      ∃ moved, state.dispatching.step rules backoff moved = some next.dispatching ∧
        ∀ identity resource, moved = .change identity resource →
          act = .proceed (.change identity resource) := by
  cases act with
  | watch event =>
      rcases watch_of_step stepped with ⟨-, rfl⟩
      exact .inl rfl
  | proceed act =>
      rcases proceed_of_step stepped with ⟨admitted, -⟩
      refine (Admitting.dispatching_of_step admitted).imp_right ?_
      rintro ⟨moved, follows, change⟩
      refine ⟨moved, follows, fun identity resource same => ?_⟩
      rw [change identity resource same]

theorem run_events (admitting : Admitting PolicyResource ρ) (named : List Identity) :
    Admitting.run rules backoff (named.map .event) admitting =
      some { admitting with
        intake := { admitting.intake with arrived := admitting.intake.arrived ++ named } } := by
  induction named generalizing admitting with
  | nil => simp
  | cons first rest induction =>
      have arrives := induction { admitting with
        intake := { admitting.intake with arrived := admitting.intake.arrived ++ [first] } }
      rw [List.append_assoc] at arrives
      exact arrives

theorem admitting_of_run (ran : run rules backoff acts (start limit cache resources) = some state) :
    ∃ acts, Admitting.run rules backoff acts (.start limit cache resources) =
      some state.admitting := by
  refine Execution.exists_run_of_steps Controlling.admitting ?_ ran
  intro before act after stepped
  cases act with
  | watch event =>
      rcases watch_of_step stepped with ⟨-, rfl⟩
      exact ⟨_, run_events before.admitting _⟩
  | proceed act =>
      rcases proceed_of_step stepped with ⟨admitted, -⟩
      exact ⟨[act], (Execution.run_singleton act).trans admitted⟩

theorem dispatching_of_run
    (ran : run rules backoff acts (start limit cache resources) = some state) :
    ∃ acts, Dispatching.run rules backoff acts (.start cache resources) =
      some state.dispatching := by
  rcases admitting_of_run ran with ⟨_, admitted⟩
  exact Admitting.dispatching_of_run admitted

theorem sound_of_step (wanted : next.dispatching.cancelled = []) (intact : next.dispatching.Intact)
    (stepped : step rules backoff state act = some next) :
    state.dispatching.cancelled = [] ∧ state.dispatching.Intact := by
  rcases dispatching_of_step stepped with same | ⟨moved, follows, -⟩
  · exact same ▸ ⟨wanted, intact⟩
  · exact ⟨Dispatching.cancelled_of_step follows wanted, intact.of_step follows⟩

end Controlling

end PolicyWarden
