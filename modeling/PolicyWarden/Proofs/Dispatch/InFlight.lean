import PolicyWarden.Proofs.Dispatch.Concurrent

/-!
Who has an identity in flight. At most one call of an identity is inside its loop at a time, and it has
the identity in flight; `solitary_of_run` says so of every run. As long as no call fails without a
result, nothing else is in flight: `orderly_of_run`. Both hold with whatever cancellations.
-/

namespace PolicyWarden

variable {α ρ : Type}

def DispatchCall.loopsFor (identity : Identity) (call : DispatchCall α ρ) : Bool :=
  call.identity = identity && call.phase.inLoop

namespace Dispatching

variable {rules : Rules α ρ} {backoff : Backoff} {state next : Dispatching α ρ}
  {act : DispatchAct α} {acts : List (DispatchAct α)} {place : Nat} {call : DispatchCall α ρ}
  {cache : Cache ρ} {resources : Identity → Option α}

/-- At most one call of an identity is inside its loop, and none unless the identity is in flight. What
is in flight need not have a call in its loop, since a call may fail without a result. -/
def Solitary (state : Dispatching α ρ) : Prop :=
  ∀ identity, state.calls.countP (·.loopsFor identity) ≤
    (state.dispatcher.inFlight.contains identity).toNat

theorem Solitary.of_step (solitary : Solitary state)
    (stepped : step rules backoff state act = some next) : Solitary next := by
  intro identity
  cases act with
  | change | cancel => cases stepped; exact solitary identity
  | call other token =>
      cases stepped
      simpa [DispatchCall.loopsFor, Phase.inLoop] using solitary identity
  | move ticket jitter prompt =>
      rcases turns_of_step stepped with ⟨mover, dispatcher, phase, found, turns, rfl⟩
      have counted := countP_replace found (mover.follow state.clock phase) dispatcher
        (·.loopsFor identity)
      have before := solitary identity
      simp only [DispatchCall.loopsFor, DispatchCall.follow_identity,
        DispatchCall.follow_phase] at counted before ⊢
      by_cases own : mover.identity = identity
      · subst own
        have balance := turns.inLoop_le
        simp only [decide_true, Bool.true_and] at counted
        change _ ≤ (dispatcher.inFlight.contains mover.identity).toNat
        omega
      · have kept : dispatcher.inFlight.contains identity =
            state.dispatcher.inFlight.contains identity :=
          congrArg Option.isSome (turns.find?_of_ne (Ne.symm own))
        simp only [own, decide_false, Bool.false_and, Bool.toNat_false, Nat.add_zero] at counted
        rw [counted]
        exact kept ▸ before

theorem solitary_of_run (ran : run rules backoff acts (start cache resources) = some state) :
    Solitary state :=
  Execution.run_invariant Solitary (fun _ => Nat.zero_le _)
    (fun _ _ _ solitary stepped => solitary.of_step stepped) ran

theorem Solitary.flying (solitary : Solitary state) (present : state.calls[place]? = some call)
    (loops : call.phase.inLoop = true) :
    state.dispatcher.inFlight.contains call.identity = true := by
  have some : 0 < state.calls.countP (·.loopsFor call.identity) :=
    List.countP_pos_iff.mpr
      ⟨call, List.mem_of_getElem? present, by simp [DispatchCall.loopsFor, loops]⟩
  have few := solitary call.identity
  cases flies : state.dispatcher.inFlight.contains call.identity with
  | true => rfl
  | false =>
      rw [flies, Bool.toNat_false] at few
      omega

theorem Solitary.alone (solitary : Solitary state) (present : state.calls[place]? = some call)
    (loops : call.phase.inLoop = true) {ticket : Nat} {other : DispatchCall α ρ}
    (different : ticket ≠ place) (found : state.calls[ticket]? = some other)
    (same : other.identity = call.identity) : other.phase.inLoop = false := by
  rw [← Bool.not_eq_true]
  intro also
  -- without the other call the first one would still be counted
  let left : DispatchCall α ρ := { other with phase := .merged }
  have counted := countP_replace found left state.dispatcher (·.loopsFor call.identity)
  have before : other.loopsFor call.identity = true := by
    simp [DispatchCall.loopsFor, same, also]
  have after : left.loopsFor call.identity = false := Bool.and_false _
  have some : 0 < (state.replace ticket left state.dispatcher).calls.countP
      (·.loopsFor call.identity) :=
    List.countP_pos_iff.mpr ⟨call,
      List.mem_of_getElem? ((getElem?_replace_of_ne different.symm).trans present),
      by simp [DispatchCall.loopsFor, loops]⟩
  have few := solitary call.identity
  have most := Bool.toNat_le (state.dispatcher.inFlight.contains call.identity)
  simp only [before, after, Bool.toNat_true, Bool.toNat_false] at counted
  omega

structure Orderly (state : Dispatching α ρ) : Prop where
  flying : ∀ (place : Nat) (call : DispatchCall α ρ), state.calls[place]? = some call →
    call.phase.inLoop = true → state.dispatcher.inFlight.contains call.identity = true
  alone : ∀ (first second : Nat) (left right : DispatchCall α ρ),
    state.calls[first]? = some left → state.calls[second]? = some right →
    left.phase.inLoop = true → right.phase.inLoop = true → left.identity = right.identity →
    first = second
  /-- What is in flight was put there by a call that is still inside its loop. -/
  owned : ∀ identity, state.dispatcher.inFlight.contains identity = true →
    ∃ (place : Nat) (call : DispatchCall α ρ), state.calls[place]? = some call ∧
      call.identity = identity ∧ call.phase.inLoop = true

theorem owned_of_step (intact : next.Intact) (stepped : step rules backoff state act = some next)
    (owned : ∀ identity, state.dispatcher.inFlight.contains identity = true →
      ∃ (place : Nat) (call : DispatchCall α ρ), state.calls[place]? = some call ∧
        call.identity = identity ∧ call.phase.inLoop = true)
    (identity : Identity) (flies : next.dispatcher.inFlight.contains identity = true) :
    ∃ (place : Nat) (call : DispatchCall α ρ), next.calls[place]? = some call ∧
      call.identity = identity ∧ call.phase.inLoop = true := by
  cases act with
  | change | cancel => cases stepped; exact owned identity flies
  | call =>
      cases stepped
      rcases owned identity flies with ⟨place, call, present, rest⟩
      exact ⟨place, call, getElem?_made_of_some present, rest⟩
  | move ticket jitter prompt =>
      rcases turns_of_step stepped with ⟨mover, dispatcher, phase, found, turns, rfl⟩
      have unfailed := intact.unfailed found
      -- whoever else is inside its loop stays there
      have others (flew : state.dispatcher.inFlight.contains identity = true)
          (foreign : mover.identity = identity → mover.phase.inLoop = false) :
          ∃ (place : Nat) (call : DispatchCall α ρ),
            (state.replace ticket (mover.follow state.clock phase) dispatcher).calls[place]? =
              some call ∧ call.identity = identity ∧ call.phase.inLoop = true := by
        rcases owned identity flew with ⟨place, call, present, same, inside⟩
        have different : place ≠ ticket := by
          rintro rfl
          cases present.symm.trans found
          rw [foreign same] at inside
          cases inside
        exact ⟨place, call, (getElem?_replace_of_ne different).trans present, same, inside⟩
      by_cases own : mover.identity = identity
      · cases inside : phase.inLoop with
        | true =>
            refine ⟨ticket, _, getElem?_replace_self found, ?_, ?_⟩
            · rw [mover.follow_identity, own]
            · rw [mover.follow_phase, inside]
        | false =>
            generalize before : mover.phase = old at turns
            cases turns with
            | merge flying => exact others (own ▸ flying) fun _ => by rw [before]; rfl
            | leave => simp [replace, own] at flies
            | failWait _ _ message | crash _ message | failNext _ _ _ message =>
                exact absurd rfl (unfailed message)
            | _ => cases inside
      · have kept : dispatcher.inFlight.contains identity =
            state.dispatcher.inFlight.contains identity :=
          congrArg Option.isSome (turns.find?_of_ne (Ne.symm own))
        exact others (kept.symm.trans flies) fun same => absurd same own

theorem orderly_of_run (ran : run rules backoff acts (start cache resources) = some state)
    (intact : state.Intact) : Orderly state where
  flying _ _ present loops := (solitary_of_run ran).flying present loops
  alone first second left right found present leftLoops rightLoops same := by
    by_contra different
    have outside := (solitary_of_run ran).alone present rightLoops different found same
    rw [leftLoops] at outside
    cases outside
  owned := by
    refine Execution.run_invariant (fun state => state.Intact → ∀ identity,
      state.dispatcher.inFlight.contains identity = true →
        ∃ (place : Nat) (call : DispatchCall α ρ), state.calls[place]? = some call ∧
          call.identity = identity ∧ call.phase.inLoop = true) ?_ ?_ ran intact
    · simp [start, Table.contains]
    · intro before act after known stepped unfailed
      exact owned_of_step unfailed stepped (known (unfailed.of_step stepped))

end Dispatching

end PolicyWarden
