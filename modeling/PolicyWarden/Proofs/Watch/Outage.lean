import PolicyWarden.Proofs.Watch.Relisting
import PolicyWarden.Scenario.Surroundings

/-!
Deletions that the watch has missed. A listing that was begun after a deletion does not name the
object. If its policy is stored when the end of the listing is asked for, or nobody has the object
in hand then, the policy is gone once everything is over. `not_caught_inFlight` shows that one of
the two has to be the case: a call that fetched the object before the deletion, and has yet to
store its policy, stores it after the listing has found nothing to be missing.
-/

namespace PolicyWarden

variable {ρ : Type}

/-- What happens around a deletion and a listing that is begun after it. -/
structure Outage (ρ : Type) where
  limit : Nat := 16
  cache : Cache ρ := {}
  resources : Identity → Option PolicyResource
  identity : Identity
  before : List ControlAct
  unseen : List ControlAct := []
  listing : List ControlAct
  after : List ControlAct

namespace Outage

open Controlling

def lapse (outage : Outage ρ) : List ControlAct :=
  outage.unseen ++ .watch .listingBegun :: outage.listing

def lead (outage : Outage ρ) : List ControlAct :=
  outage.before ++ .proceed (.change outage.identity none) :: outage.lapse

/-- The deletion was missed: nobody tells of it, the listing names the objects of the cluster and no
others, and after the listing nothing changes any more and everything comes to its end. -/
structure Missed (rules : Rules PolicyResource ρ) (backoff : Backoff) (outage : Outage ρ)
    (relisting final : Controlling ρ) : Prop where
  reached : run rules backoff outage.lead (start outage.limit outage.cache outage.resources) =
    some relisting
  goesOn : run rules backoff (.watch .listingDone :: outage.after) relisting = some final
  untold : ∀ act ∈ outage.unseen ++ outage.listing ++ outage.after, ∀ resource,
    act = .watch (.deleted resource) → resource.identity? ≠ some outage.identity
  unchanged : ∀ act ∈ outage.unseen ++ outage.listing, ∀ resource,
    act ≠ .proceed (.change outage.identity resource)
  still : ∀ act ∈ outage.after, ∀ identity resource, act ≠ .proceed (.change identity resource)
  single : ∀ act ∈ outage.listing, act ≠ .watch .listingBegun ∧ act ≠ .watch .listingDone
  complete : ∀ identity, relisting.dispatching.resources identity ≠ none ↔
    ∃ resource, .watch (.listed resource) ∈ outage.listing ∧ resource.identity? = some identity
  wanted : final.dispatching.cancelled = []
  intact : final.dispatching.Intact
  completed : ∀ call ∈ final.dispatching.calls, call.phase.isOver = true
  idle : final.intake.arrived = [] ∧ ∀ identity, ¬final.intake.Pending identity

variable {rules : Rules PolicyResource ρ} {backoff : Backoff} {outage : Outage ρ}
  {relisting final : Controlling ρ}

theorem Missed.deletion (missed : outage.Missed rules backoff relisting final) :
    ∃ acts deleted time,
      run rules backoff acts (start outage.limit outage.cache outage.resources) = some deleted ∧
      deleted.dispatching.Gone outage.identity time ∧
      deleted.dispatching.clock = time + 1 ∧
      run rules backoff outage.lapse deleted = some relisting := by
  have reached := missed.reached
  rw [lead] at reached
  rcases Execution.run_append_eq_some.mp reached with ⟨standing, ran, goesOn⟩
  rw [Execution.run_cons] at goesOn
  rcases Option.bind_eq_some_iff.mp goesOn with ⟨deleted, changed, goesOn⟩
  rcases dispatching_of_run ran with ⟨_, dispatched⟩
  have past := Dispatching.changes_lt_of_run dispatched
  have change : standing.dispatching.step rules backoff (.change outage.identity none) =
      some deleted.dispatching := by
    cases changed
    rfl
  refine ⟨outage.before ++ [.proceed (.change outage.identity none)], deleted,
    standing.dispatching.clock, ?_, Dispatching.gone_of_change past change,
    Dispatching.clock_of_step change, goesOn⟩
  rw [run, Execution.run_concat]
  exact Option.bind_eq_some_iff.mpr ⟨standing, ran, changed⟩

theorem Missed.kept_lapse (missed : outage.Missed rules backoff relisting final) :
    ∀ act ∈ outage.lapse, ∀ resource, act ≠ .proceed (.change outage.identity resource) := by
  intro act member
  rcases List.mem_append.mp member with early | late
  · exact missed.unchanged act (List.mem_append_left _ early)
  · rcases List.mem_cons.mp late with rfl | listed
    · intro resource same
      cases same
    · exact missed.unchanged act (List.mem_append_right _ listed)

theorem Missed.kept_after (missed : outage.Missed rules backoff relisting final) :
    ∀ act ∈ .watch .listingDone :: outage.after, ∀ resource,
      act ≠ .proceed (.change outage.identity resource) := by
  intro act member
  rcases List.mem_cons.mp member with rfl | late
  · intro resource same
    cases same
  · exact missed.still act late outage.identity

theorem Missed.unnamed (missed : outage.Missed rules backoff relisting final)
    (absent : relisting.dispatching.resources outage.identity = none) :
    ∃ named, relisting.tracker.listing = some named ∧ outage.identity ∉ named := by
  rcases missed.deletion with ⟨_, deleted, _, -, -, -, goesOn⟩
  rcases Execution.run_append_eq_some.mp goesOn with ⟨waiting, -, listed⟩
  rw [Execution.run_cons] at listed
  rcases Option.bind_eq_some_iff.mp listed with ⟨begun, stepped, listed⟩
  rcases watch_of_step stepped with ⟨-, rfl⟩
  rcases listing_of_run rfl listed missed.single with ⟨named, tracked, told⟩
  refine ⟨named, tracked, fun member => ?_⟩
  exact (missed.complete outage.identity).mpr (told _ member) absent

/-- A deletion that the watch has missed is caught by the next listing, if the policy is stored when
the end of the listing is asked for, or no call of the identity has its resource in hand then. -/
theorem not_stored_of_missed (missed : outage.Missed rules backoff relisting final)
    (noticed : relisting.store.contains outage.identity = true ∨
      ∀ call ∈ relisting.dispatching.calls, call.identity = outage.identity →
        call.phase.carries = false) :
    final.store.contains outage.identity = false := by
  rcases missed.deletion with ⟨acts, deleted, time, ran, gone, clock, lapsed⟩
  have goneThen := (cleared_of_run gone missed.kept_lapse lapsed).1
  have kept : ∀ act ∈ outage.lapse ++ .watch .listingDone :: outage.after, ∀ resource,
      act ≠ .proceed (.change outage.identity resource) := by
    intro act member
    exact (List.mem_append.mp member).elim (missed.kept_lapse act) (missed.kept_after act)
  have whole := Execution.run_append_eq_some.mpr ⟨relisting, lapsed, missed.goesOn⟩
  cases stored : relisting.store.contains outage.identity with
  | false =>
      -- Nothing is stored and nobody has the resource in hand, and so it stays.
      rw [stored] at noticed
      have cleared : relisting.dispatching.Cleared outage.identity :=
        ⟨stored, noticed.resolve_left Bool.false_ne_true⟩
      exact ((cleared_of_run goneThen missed.kept_after missed.goesOn).2 cleared).missing
  | true =>
      -- The identity is missing from the listing and is called after that.
      rcases missed.unnamed goneThen.absent with ⟨named, tracked, unnamed⟩
      have goesOn := missed.goesOn
      rw [run, Execution.run_cons] at goesOn
      rcases Option.bind_eq_some_iff.mp goesOn with ⟨pulled, stepped, rest⟩
      rcases watch_of_step stepped with ⟨-, rfl⟩
      have past : time < relisting.dispatching.clock := by
        have := clock_le_of_run lapsed
        omega
      have due : (relisting.pull .listingDone).Due outage.identity time :=
        ⟨past, .inl (mem_arrived_of_listingDone tracked unnamed stored)⟩
      have quiet : final.dispatching.Quiet outage.identity := fun call member _ =>
        missed.completed call member
      have taken : outage.identity ∉ final.intake.arrived := by
        rw [missed.idle.1]
        exact List.not_mem_nil
      exact (cleared_of_due ran gone (Nat.le_of_eq clock) kept whole missed.wanted missed.intact
        quiet (due_of_run due rest) taken (missed.idle.2 _)).missing

end Outage

def Phase.endedWell {α : Type} : Phase α ρ → Bool
  | .merged => true
  | .returned (.ok _) => true
  | _ => false

def Controlling.isSettled (state : Controlling ρ) : Bool :=
  state.dispatching.cancelled.isEmpty && state.dispatching.calls.all (·.phase.endedWell) &&
    state.intake.arrived.isEmpty && state.intake.rested.isEmpty && state.intake.resting.isEmpty

namespace ControlAct

def changes : ControlAct → Bool
  | .proceed (.change _ _) => true
  | _ => false

def tells : ControlAct → Bool
  | .watch _ => true
  | .proceed _ => false

end ControlAct

namespace Outage

open Controlling

def cluster (objects : List PolicyResource) (identity : Identity) : Option PolicyResource :=
  objects.find? fun resource => resource.identity? = some identity

def permitting (name : String) : PolicyResource where
  metadata := { name, area := "ns", revision := "1" }
  specification := { policies := "permit(principal, action, resource);" }

def moving (ticket : Nat) (prompts : List Prompt) : List ControlAct :=
  prompts.map fun prompt => .proceed (.move ticket 1 prompt 0)

def relisted (before after : List ControlAct) : Outage Cedar.CompiledPolicy where
  resources := cluster [permitting "a", permitting "b"]
  identity := .qualified "ns" "a"
  before
  listing := [.watch (.listed (permitting "b")), .proceed .take]
  after

def fetching : List Prompt := [.proceed, .proceed, .answer]

def storing : List Prompt := [.proceed, .compile, .proceed, .proceed, .proceed]

def finding : List Prompt := fetching ++ [.proceed, .proceed, .proceed]

def listedBoth (first second : List Prompt) : List ControlAct :=
  .watch .listingBegun :: .watch (.listed (permitting "a")) :: .proceed .take ::
    (moving 0 first ++ .watch (.listed (permitting "b")) :: .proceed .take ::
      (moving 1 second ++ [.watch .listingDone]))

def inFlight : Outage Cedar.CompiledPolicy :=
  relisted (listedBoth fetching (fetching ++ storing)) (moving 2 finding ++ moving 0 storing)

def standing : Outage Cedar.CompiledPolicy :=
  relisted (listedBoth (fetching ++ storing) fetching)
    (moving 2 [.proceed] ++ .proceed .take :: (moving 3 finding ++ moving 1 (storing ++ finding)))

theorem resources_of_run {acts : List ControlAct} {state : Controlling ρ}
    (kept : ∀ act ∈ acts, act.changes = false) (ran : run rules backoff acts state = some final) :
    final.dispatching.resources = state.dispatching.resources := by
  refine Execution.run_history (fun acts final => (∀ act ∈ acts, act.changes = false) →
    final.dispatching.resources = state.dispatching.resources) (fun _ => rfl) ?_ ran kept
  intro acts act middle next _ same stepped kept
  have before := same fun other member => kept other (List.mem_append_left _ member)
  have last := kept act (List.mem_append_right _ (List.mem_singleton_self _))
  rcases dispatching_of_step stepped with equal | ⟨moved, follows, change⟩
  · rw [equal]
    exact before
  · refine (Dispatching.resources_of_step ?_ follows).trans before
    intro identity resource changes
    rw [change identity resource changes] at last
    cases last

theorem resources_relisted {rules : Rules PolicyResource Cedar.CompiledPolicy} {backoff : Backoff}
    {before after : List ControlAct} {relisting : Controlling Cedar.CompiledPolicy}
    (kept : ∀ act ∈ before, act.changes = false)
    (reached : run rules backoff (relisted before after).lead
      (start 16 {} (cluster [permitting "a", permitting "b"])) = some relisting) :
    relisting.dispatching.resources =
      Function.update (cluster [permitting "a", permitting "b"]) (.qualified "ns" "a") none := by
  rcases Execution.run_append_eq_some.mp reached with ⟨standing, ran, goesOn⟩
  rw [Execution.run_cons] at goesOn
  rcases Option.bind_eq_some_iff.mp goesOn with ⟨deleted, changed, goesOn⟩
  have unchanged : ∀ act ∈ (relisted before after).lapse, act.changes = false := by
    simp [lapse, relisted, ControlAct.changes]
  rw [resources_of_run unchanged goesOn]
  cases changed
  change Function.update standing.dispatching.resources _ _ = _
  rw [resources_of_run kept ran]
  rfl

theorem cluster_deleted (identity : Identity) :
    Function.update (cluster [permitting "a", permitting "b"]) (.qualified "ns" "a") none
      identity ≠ none ↔ identity = .qualified "ns" "b" := by
  have names : (permitting "a").identity? = some (.qualified "ns" "a") ∧
      (permitting "b").identity? = some (.qualified "ns" "b") := ⟨rfl, rfl⟩
  have apart : Identity.qualified "ns" "b" ≠ .qualified "ns" "a" := by decide
  by_cases deleted : identity = .qualified "ns" "a"
  · subst deleted
    simp [apart.symm]
  · rw [Function.update_of_ne deleted]
    by_cases other : identity = .qualified "ns" "b"
    · simp [cluster, names, other, apart.symm]
    · have firstNot : ¬Identity.qualified "ns" "a" = identity := fun same => deleted same.symm
      have secondNot : ¬Identity.qualified "ns" "b" = identity := fun same => other same.symm
      simp [cluster, names, firstNot, secondNot, other]

theorem missed_relisted {rules : Rules PolicyResource Cedar.CompiledPolicy} {backoff : Backoff}
    {before after : List ControlAct} {relisting final : Controlling Cedar.CompiledPolicy}
    (kept : ∀ act ∈ before ++ after, act.changes = false)
    (silent : ∀ act ∈ after, act.tells = false)
    (reached : run rules backoff (relisted before after).lead
      (start 16 {} (cluster [permitting "a", permitting "b"])) = some relisting)
    (goesOn : run rules backoff (.watch .listingDone :: after) relisting = some final)
    (settled : final.isSettled = true) :
    (relisted before after).Missed rules backoff relisting final := by
  simp only [isSettled, Bool.and_eq_true, List.all_eq_true, List.isEmpty_iff] at settled
  rcases settled with ⟨⟨⟨⟨wanted, well⟩, arrived⟩, rested⟩, resting⟩
  refine ⟨reached, goesOn, ?untold, ?unchanged, ?still, ?single, ?complete, wanted, ?intact,
    ?completed, arrived, ?idle⟩
  case untold =>
    rintro act member resource rfl
    rcases List.mem_append.mp member with listed | late
    · simp [relisted] at listed
    · cases silent _ late
  case unchanged =>
    rintro act member resource rfl
    simp [relisted] at member
  case still =>
    rintro act late identity resource rfl
    cases kept _ (List.mem_append_right _ late)
  case single =>
    intro act member
    simp only [relisted, List.mem_cons, List.not_mem_nil, or_false] at member
    rcases member with rfl | rfl
    · exact ⟨nofun, nofun⟩
    · exact ⟨nofun, nofun⟩
  case complete =>
    intro identity
    rw [resources_relisted (fun act early => kept act (List.mem_append_left _ early)) reached,
      cluster_deleted]
    constructor
    · rintro rfl
      exact ⟨permitting "b", List.mem_cons_self, rfl⟩
    · rintro ⟨resource, listed, own⟩
      simp only [relisted, List.mem_cons, ControlAct.watch.injEq, WatchEvent.listed.injEq,
        reduceCtorEq, List.not_mem_nil, or_false] at listed
      subst listed
      exact (Option.some.inj own).symm
  case intact =>
    intro call member message failed
    have := well call member
    rw [failed] at this
    cases this
  case completed =>
    intro call member
    have := well call member
    cases phase : call.phase <;> simp_all [Phase.endedWell, Phase.isOver]
  case idle =>
    intro identity pending
    simp [Intake.Pending, rested, resting] at pending

theorem exists_course (rules : Rules PolicyResource Cedar.CompiledPolicy) (backoff : Backoff)
    (before after : List ControlAct) (early late : Controlling Cedar.CompiledPolicy → Bool)
    (course : ((run rules backoff (relisted before after).lead
      (start 16 {} (cluster [permitting "a", permitting "b"]))).any fun relisting =>
        early relisting && (run rules backoff (.watch .listingDone :: after) relisting).any
          fun final => final.isSettled && late final) = true)
    (kept : (before ++ after).all (!·.changes) = true) (silent : after.all (!·.tells) = true) :
    ∃ relisting final, (relisted before after).Missed rules backoff relisting final ∧
      final.isSettled = true ∧ early relisting = true ∧ late final = true := by
  simp only [Option.any_eq_true, Bool.and_eq_true] at course
  rcases course with ⟨relisting, reached, noticed, final, goesOn, settled, ends⟩
  simp only [List.all_eq_true, Bool.not_eq_true'] at kept silent
  exact ⟨relisting, final, missed_relisted kept silent reached goesOn settled, settled, noticed,
    ends⟩

/-- The next listing does not catch the deletion of an object that a call has in hand: nothing is
cancelled, everything ends well and nothing is left to do, and the policy is still stored. -/
theorem not_caught_inFlight :
    ∃ relisting final, inFlight.Missed (PolicyResource.rules {} .retainPrevious) {} relisting final ∧
      final.isSettled = true ∧ final.store.contains inFlight.identity = true := by
  rcases exists_course (PolicyResource.rules {} .retainPrevious) {}
    (listedBoth fetching (fetching ++ storing)) (moving 2 finding ++ moving 0 storing)
    (fun _ => true) (fun final => final.store.contains inFlight.identity) (by decide +kernel)
    (by decide +kernel) (by decide +kernel) with ⟨relisting, final, missed, settled, -, stored⟩
  exact ⟨relisting, final, missed, settled, stored⟩

theorem not_stored_of_missed_standing :
    ∃ relisting final, standing.Missed (PolicyResource.rules {} .retainPrevious) {} relisting final ∧
      relisting.store.contains standing.identity = true ∧
      final.store.contains standing.identity = false := by
  rcases exists_course (PolicyResource.rules {} .retainPrevious) {}
    (listedBoth (fetching ++ storing) fetching)
    (moving 2 [.proceed] ++ .proceed .take :: (moving 3 finding ++ moving 1 (storing ++ finding)))
    (fun relisting => relisting.store.contains standing.identity) (fun _ => true)
    (by decide +kernel) (by decide +kernel) (by decide +kernel) with
    ⟨relisting, final, missed, -, stored, -⟩
  exact ⟨relisting, final, missed, stored, not_stored_of_missed missed (.inl stored)⟩

end Outage

end PolicyWarden
