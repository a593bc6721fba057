import PolicyWarden.Proofs.Dispatch.InFlight
import PolicyWarden.Proofs.Dispatch.Record

/-!
How a resource that is gone leaves the store. Its policy can only be stored again by a call that has
fetched the resource before it went and has yet to commit. Once there is no such call and the policy
is not stored, both stay so; and a run of attempts that fetches after the resource has gone, and
ends well, brings that about.
-/

namespace PolicyWarden

variable {α ρ : Type}

namespace Reconcile

/-- Whether the reconcile has a resource in hand that it may yet store. -/
def carries : Reconcile α ρ → Bool
  | .answered (.ok (some _)) => true
  | .compiling _ => true
  | .compiled _ _ => true
  | _ => false

namespace Advances

variable {rules : Rules α ρ} {identity other : Identity} {cancelled : Bool} {cache : Cache ρ}
  {state next : Reconcile α ρ} {effects : List (Effect ρ)}

theorem find?_of_ne (advances : Advances rules identity cancelled cache.store state effects next)
    (different : other ≠ identity) :
    (cache.commit effects).store.find? other = cache.store.find? other := by
  cases advances <;> simp [removal, different]

theorem emptied (advances : Advances rules identity cancelled cache.store state effects next)
    (free : state.carries = false)
    (empty : cache.store.contains identity = false ∨ state = .answered (.ok none)) :
    (cache.commit effects).store.contains identity = false ∧ next.carries = false := by
  cases advances with
  | ask | refrain | failed | unwound =>
      exact ⟨empty.resolve_right nofun, rfl⟩
  | removed present => simp [removal, carries]
  | absent missing => exact ⟨missing, rfl⟩
  | _ => cases free

end Advances

end Reconcile

namespace Phase

def carries : Phase α ρ → Bool
  | .attempting _ reconcile => reconcile.carries
  | _ => false

def hasSucceeded : Phase α ρ → Bool
  | .attempting _ (.ended (.ok _)) => true
  | .concluding (.ok _) => true
  | _ => false

namespace Turns

variable {rules : Rules α ρ} {backoff : Backoff} {identity other : Identity} {cancelled : Bool}
  {dispatcher after : Dispatcher ρ} {phase next : Phase α ρ} {move : Move α}

theorem stored_of_ne
    (turns : Turns rules backoff identity cancelled dispatcher move phase after next)
    (different : other ≠ identity) :
    after.cache.store.find? other = dispatcher.cache.store.find? other := by
  cases turns with
  | advance _ _ _ _ advances => exact advances.find?_of_ne different
  | _ => rfl

theorem emptied (turns : Turns rules backoff identity cancelled dispatcher move phase after next)
    (gone : ∀ resource, move ≠ .answered (.ok (some resource))) (free : phase.carries = false)
    (empty : dispatcher.cache.store.contains identity = false ∨
      ∃ attempt, phase = .attempting attempt (.answered (.ok none))) :
    after.cache.store.contains identity = false ∧ next.carries = false := by
  cases turns with
  | advance attempt state _ _ advances =>
      refine advances.emptied free (empty.imp_right ?_)
      rintro ⟨_, equal⟩
      cases equal
      rfl
  | answered attempt answer given =>
      refine ⟨empty.resolve_right nofun, ?_⟩
      match answer with
      | .ok (some resource) => exact absurd given (gone resource)
      | .ok none => rfl
      | .error error => rfl
  | compiled => cases free
  | _ => exact ⟨empty.resolve_right nofun, rfl⟩

end Turns

end Phase

def Late (time : Nat) (fetches : List (Fetch α)) : Prop :=
  ∃ fetch earlier, fetches = fetch :: earlier ∧ time < fetch.begun

namespace Dispatching

variable {rules : Rules α ρ} {backoff : Backoff} {state next : Dispatching α ρ}
  {act : DispatchAct α} {identity : Identity} {time : Nat}

/-- Nothing is stored for the identity, and no call of it may yet store something. -/
structure Cleared (state : Dispatching α ρ) (identity : Identity) : Prop where
  missing : state.dispatcher.cache.store.contains identity = false
  free : ∀ call ∈ state.calls, call.identity = identity → call.phase.carries = false

structure Gone (state : Dispatching α ρ) (identity : Identity) (time : Nat) : Prop where
  absent : state.resources identity = none
  unchanged : ∀ changed, (identity, changed) ∈ state.changes → changed ≤ time

def Succeeded (state : Dispatching α ρ) (identity : Identity) (time : Nat) : Prop :=
  (∃ call ∈ state.calls, call.identity = identity ∧ call.phase.hasSucceeded = true ∧
      Late time call.fetches) ∨
    ∃ run ∈ state.runs, run.identity = identity ∧ (∃ outcome, run.result = .ok outcome) ∧
      Late time run.fetches

theorem resources_of_step (kept : ∀ identity resource, act ≠ .change identity resource)
    (stepped : step rules backoff state act = some next) : next.resources = state.resources := by
  cases act with
  | change identity resource => exact absurd rfl (kept identity resource)
  | call identity token => cases stepped; rfl
  | cancel token => cases stepped; rfl
  | move ticket jitter prompt =>
      rcases turns_of_step stepped with ⟨call, dispatcher, phase, -, -, rfl⟩
      rfl

theorem Gone.of_step (gone : state.Gone identity time)
    (kept : ∀ resource, act ≠ .change identity resource)
    (stepped : step rules backoff state act = some next) : next.Gone identity time := by
  cases act with
  | change changed resource =>
      cases stepped
      have different : identity ≠ changed := by
        rintro rfl
        exact kept resource rfl
      refine ⟨?_, ?_⟩
      · exact (Function.update_of_ne different resource _).trans gone.absent
      · intro moment known
        rcases List.mem_cons.mp known with equal | old
        · cases equal
          exact absurd rfl different
        · exact gone.unchanged moment old
  | call other token => cases stepped; exact ⟨gone.absent, gone.unchanged⟩
  | cancel token => cases stepped; exact ⟨gone.absent, gone.unchanged⟩
  | move ticket jitter prompt =>
      rcases turns_of_step stepped with ⟨call, dispatcher, phase, -, -, rfl⟩
      exact ⟨gone.absent, gone.unchanged⟩

theorem Gone.none_of_late (gone : state.Gone identity time) {fetches : List (Fetch α)}
    (genuine : ∀ fetch ∈ fetches, fetch.Genuine state identity) (late : Late time fetches)
    {resource : Option α} (read : LastRead fetches (.ok resource)) : resource = none := by
  rcases late with ⟨fetch, earlier, rfl, later⟩
  rcases read with ⟨begun, moment, rest, equal⟩
  cases equal
  have known := genuine _ List.mem_cons_self
  have after := (known.read moment _ rfl).1
  refine (known.current moment resource rfl fun changed member => ?_).trans gone.absent
  have := gone.unchanged changed member
  omega

theorem Gone.move_ne (gone : state.Gone identity time) (prompt : Prompt) (resource : α) :
    prompt.move (state.resources identity) ≠ .answered (.ok (some resource)) := by
  rw [gone.absent]
  cases prompt <;> nofun

section Move

variable {ticket : Nat} {call : DispatchCall α ρ} {dispatcher : Dispatcher ρ} {phase : Phase α ρ}
  {prompt : Prompt} {cancelled : Bool}

theorem Cleared.of_move (cleared : state.Cleared identity) (gone : state.Gone identity time)
    (found : state.calls[ticket]? = some call)
    (turns : Phase.Turns rules backoff call.identity cancelled state.dispatcher
      (prompt.move (state.resources call.identity)) call.phase dispatcher phase) :
    (state.replace ticket (call.follow state.clock phase) dispatcher).Cleared identity := by
  by_cases own : identity = call.identity
  · subst own
    have free := cleared.free call (List.mem_of_getElem? found) rfl
    rcases turns.emptied (gone.move_ne prompt) free (.inl cleared.missing) with ⟨missing, freed⟩
    refine ⟨missing, fun other member same => ?_⟩
    rcases List.mem_or_eq_of_mem_set member with old | rfl
    · exact cleared.free other old same
    · rw [call.follow_phase]
      exact freed
  · refine ⟨?_, fun other member same => ?_⟩
    · have stored := turns.stored_of_ne own
      change dispatcher.cache.store.contains identity = false
      rw [Table.contains, stored]
      exact cleared.missing
    · rcases List.mem_or_eq_of_mem_set member with old | rfl
      · exact cleared.free other old same
      · rw [call.follow_identity] at same
        exact absurd same.symm own

/-- A call that was told that there is no resource clears its identity, since no other call of the
identity is inside its loop. -/
theorem cleared_of_told (orderly : Orderly state) (gone : state.Gone call.identity time)
    (found : state.calls[ticket]? = some call) (attempt : Attempt)
    (told : call.phase = .attempting attempt (.answered (.ok none)))
    (turns : Phase.Turns rules backoff call.identity cancelled state.dispatcher
      (prompt.move (state.resources call.identity)) call.phase dispatcher phase) :
    (state.replace ticket (call.follow state.clock phase) dispatcher).Cleared call.identity := by
  have free : call.phase.carries = false := by rw [told]; rfl
  have inside : call.phase.inLoop = true := by rw [told]; rfl
  rcases turns.emptied (gone.move_ne prompt) free (.inr ⟨attempt, told⟩) with ⟨missing, freed⟩
  refine ⟨missing, fun other member same => ?_⟩
  rcases List.getElem?_of_mem member with ⟨place, present⟩
  rcases getElem?_replace present with ⟨-, rfl⟩ | ⟨different, old⟩
  · rw [call.follow_phase]
    exact freed
  · cases carries : other.phase.carries with
    | false => rfl
    | true =>
        have loops : other.phase.inLoop = true := by
          cases phases : other.phase with
          | attempting => rfl
          | _ => rw [phases] at carries; cases carries
        exact absurd (orderly.alone place ticket other call old found loops inside same) different

theorem cleared_of_hasSucceeded (orderly : Orderly state) (gone : state.Gone call.identity time)
    (recorded : call.Recorded state) (found : state.calls[ticket]? = some call)
    (turns : Phase.Turns rules backoff call.identity cancelled state.dispatcher
      (prompt.move (state.resources call.identity)) call.phase dispatcher phase)
    (succeeded : phase.hasSucceeded = true)
    (late : Late time (call.follow state.clock phase).fetches) :
    (call.phase.hasSucceeded = true ∧ Late time call.fetches) ∨
      (state.replace ticket (call.follow state.clock phase) dispatcher).Cleared call.identity := by
  have clears := fun attempt told => cleared_of_told orderly gone found attempt told turns
  have heard := recorded.heard
  have none (resource : α) (read : LastRead call.fetches (.ok (some resource)))
      (late : Late time call.fetches) : False := by
    have := gone.none_of_late recorded.genuine late read
    cases this
  have same (running : call.phase ≠ .rearming)
      (unasked : ∀ attempt, phase ≠ .attempting attempt .fetching)
      (unanswered : ∀ attempt answer, phase ≠ .attempting attempt (.answered answer)) :
      Late time call.fetches := by
    rw [← call.fetches_follow running unasked unanswered state.clock]
    exact late
  generalize before : call.phase = old at turns heard same clears
  cases turns with
  | advance attempt reconcile after effects advances =>
      cases advances with
      | removed | absent => exact .inr (clears attempt rfl)
      | unchanged resource => exact (none resource heard (same nofun nofun nofun)).elim
      | upserted resource => exact (none resource heard (same nofun nofun nofun)).elim
      | retained resource => exact (none resource heard (same nofun nofun nofun)).elim
      | evicted resource => exact (none resource heard (same nofun nofun nofun)).elim
      | _ => cases succeeded
  | conclude attempt result =>
      cases result with
      | ok outcome => exact .inl ⟨rfl, same nofun nofun nofun⟩
      | error error => cases succeeded
  | _ => cases succeeded

end Move

theorem Cleared.of_step (cleared : state.Cleared identity) (gone : state.Gone identity time)
    (stepped : step rules backoff state act = some next) : next.Cleared identity := by
  cases act with
  | change changed resource => cases stepped; exact ⟨cleared.missing, cleared.free⟩
  | call other token =>
      cases stepped
      refine ⟨cleared.missing, fun call member own => ?_⟩
      rcases List.mem_append.mp member with old | new
      · exact cleared.free call old own
      · cases List.mem_singleton.mp new
        rfl
  | cancel token => cases stepped; exact ⟨cleared.missing, cleared.free⟩
  | move ticket jitter prompt =>
      rcases turns_of_step stepped with ⟨call, dispatcher, phase, found, turns, rfl⟩
      exact cleared.of_move gone found turns

theorem succeeded_or_cleared_of_step (orderly : Orderly state) (recorded : Recorded state)
    (gone : state.Gone identity time) (stepped : step rules backoff state act = some next)
    (succeeded : next.Succeeded identity time) :
    state.Succeeded identity time ∨ next.Cleared identity := by
  cases act with
  | change changed resource => cases stepped; exact .inl succeeded
  | call other token =>
      cases stepped
      refine .inl (succeeded.imp_left ?_)
      rintro ⟨call, member, own, ends, late⟩
      rcases List.mem_append.mp member with old | new
      · exact ⟨call, old, own, ends, late⟩
      · cases List.mem_singleton.mp new
        cases ends
  | cancel token => cases stepped; exact .inl succeeded
  | move ticket jitter prompt =>
      rcases turns_of_step stepped with ⟨call, dispatcher, phase, found, turns, rfl⟩
      have known : call ∈ state.calls := List.mem_of_getElem? found
      have mover (own : call.identity = identity) (ends : phase.hasSucceeded = true)
          (late : Late time (call.follow state.clock phase).fetches) :
          state.Succeeded identity time ∨
            (state.replace ticket (call.follow state.clock phase) dispatcher).Cleared identity := by
        subst own
        rcases cleared_of_hasSucceeded orderly gone (recorded.calls call known) found turns ends late
          with ⟨before, earlier⟩ | cleared
        · exact .inl (.inl ⟨call, known, rfl, before, earlier⟩)
        · exact .inr cleared
      rcases succeeded with ⟨other, member, own, ends, late⟩ | ⟨run, member, own, good, late⟩
      · rcases List.mem_or_eq_of_mem_set member with old | rfl
        · exact .inl (.inl ⟨other, old, own, ends, late⟩)
        · rw [call.follow_identity] at own
          rw [call.follow_phase] at ends
          exact mover own ends late
      · rcases List.mem_append.mp member with new | old
        · rcases DispatchCall.mem_finishedRuns new with ⟨result, concluding, rfl⟩
          rcases good with ⟨outcome, rfl⟩
          rw [call.follow_phase] at concluding
          rw [call.follow_identity] at own
          exact mover own (concluding ▸ rfl) late
        · exact .inl (.inr ⟨run, old, own, good, late⟩)

theorem Recorded.not_succeeded (recorded : Recorded state) (now : state.clock ≤ time + 1) :
    ¬state.Succeeded identity time := by
  have past {fetches : List (Fetch α)} (genuine : ∀ fetch ∈ fetches, fetch.Genuine state identity) :
      ¬Late time fetches := by
    rintro ⟨fetch, earlier, rfl, later⟩
    have := (genuine fetch List.mem_cons_self).begun
    omega
  rintro (⟨call, member, rfl, -, late⟩ | ⟨run, member, rfl, -, late⟩)
  · exact past (recorded.calls call member).genuine late
  · exact past (recorded.runs run member).genuine late

theorem changes_lt_of_run {acts : List (DispatchAct α)} {cache : Cache ρ}
    {resources : Identity → Option α}
    (ran : run rules backoff acts (start cache resources) = some state) :
    ∀ change ∈ state.changes, change.2 < state.clock := by
  refine Execution.run_invariant (fun state : Dispatching α ρ =>
    ∀ change ∈ state.changes, change.2 < state.clock) (by simp [start]) ?_ ran
  intro state act next past stepped change member
  have clock := clock_of_step stepped
  cases act with
  | change identity resource =>
      cases stepped
      rcases List.mem_cons.mp member with rfl | old
      · exact Nat.lt_succ_self _
      · exact Nat.lt_succ_of_lt (past change old)
  | call identity token => cases stepped; exact Nat.lt_succ_of_lt (past change member)
  | cancel token => cases stepped; exact Nat.lt_succ_of_lt (past change member)
  | move ticket jitter prompt =>
      rcases turns_of_step stepped with ⟨call, dispatcher, phase, -, -, rfl⟩
      exact Nat.lt_succ_of_lt (past change member)

theorem gone_of_change (past : ∀ change ∈ state.changes, change.2 < state.clock)
    (stepped : step rules backoff state (.change identity none) = some next) :
    next.Gone identity state.clock := by
  cases stepped
  refine ⟨by simp, fun changed known => ?_⟩
  rcases List.mem_cons.mp known with equal | old
  · cases equal
    exact Nat.le_refl _
  · exact Nat.le_of_lt (past _ old)

end Dispatching

end PolicyWarden
