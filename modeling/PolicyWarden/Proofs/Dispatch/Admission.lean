import PolicyWarden.Dispatch.Intake
import PolicyWarden.Proofs.Dispatch.Coverage

/-!
An intake at work over a dispatcher that nobody else uses. The stream brings events at will, the
intake takes one whenever it can and calls a dispatch for it, and a dispatch that returns frees its
slot in the same step. An identity is pending while it rests or waits in line after its rest.
-/

namespace PolicyWarden

variable {α ρ : Type}

/-- What a call that is over came to; none if it was merged. -/
def Phase.result? : Phase α ρ → Option (Except ReconcileError Outcome)
  | .returned result => some result
  | _ => none

namespace Intake

def Pending (intake : Intake) (identity : Identity) : Prop :=
  identity ∈ intake.rested ∨ identity ∈ intake.resting.map Rest.identity

inductive Draws (intake : Intake) (identity : Identity) : Intake → Prop
  | arrived (rest : List Identity) (line : intake.arrived = identity :: rest) :
      Draws intake identity { intake with arrived := rest, restedFirst := !intake.restedFirst }
  | rested (rest : List Identity) (line : intake.rested = identity :: rest) :
      Draws intake identity { intake with rested := rest, restedFirst := !intake.restedFirst }

variable {intake after : Intake} {identity other : Identity}

theorem draws_of_next (taken : intake.next? = some (identity, after)) :
    intake.accepts = true ∧ Draws intake identity after := by
  unfold next? at taken
  split at taken
  · cases taken
  · next accepts =>
      refine ⟨by simpa using accepts, ?_⟩
      split at taken
      · next line => cases taken; exact .arrived _ line
      · next line => cases taken; exact .rested _ line
      · next line _ _ => cases taken; exact .arrived _ line
      · next line _ => cases taken; exact .rested _ line
      · cases taken

theorem lines_of_next (taken : intake.next? = some (identity, after)) :
    after.resting = intake.resting ∧
      (after.rested = intake.rested ∨ intake.rested = identity :: after.rested) := by
  cases (draws_of_next taken).2 with
  | arrived rest line => exact ⟨rfl, .inl rfl⟩
  | rested rest line => exact ⟨rfl, .inr line⟩

theorem arrived_of_next (taken : intake.next? = some (identity, after)) :
    after.arrived = intake.arrived ∨ intake.arrived = identity :: after.arrived := by
  cases (draws_of_next taken).2 with
  | arrived rest line => exact .inr line
  | rested rest line => exact .inl rfl

theorem finish_eq (slot : Slot) (result : Option (Except ReconcileError Outcome)) (cancelled : Bool)
    (due : Nat) :
    intake.finish slot result cancelled due =
      { intake with
        slots := intake.slots.erase slot
        resting := if result.any deservesRest && !cancelled then
          intake.resting ++ [⟨due, slot.identity⟩] else intake.resting } := by
  unfold finish
  split <;> rfl

theorem Pending.of_next (pending : intake.Pending other)
    (taken : intake.next? = some (identity, after)) : after.Pending other ∨ other = identity := by
  rcases lines_of_next taken with ⟨resting, rested⟩
  rcases pending with waits | rests
  · rcases rested with same | first
    · exact .inl (.inl (same ▸ waits))
    · rw [first] at waits
      rcases List.mem_cons.mp waits with equal | later
      · exact .inr equal
      · exact .inl (.inl later)
  · exact .inl (.inr (resting ▸ rests))

theorem Pending.finish (pending : intake.Pending identity) (slot : Slot)
    (result : Option (Except ReconcileError Outcome)) (cancelled : Bool) (due : Nat) :
    (intake.finish slot result cancelled due).Pending identity := by
  unfold Intake.finish
  split
  · refine pending.imp_right fun rests => ?_
    rw [List.map_append]
    exact List.mem_append_left _ rests
  · exact pending

theorem pending_finish {error : ReconcileError} (retryable : error.retryable = true) (slot : Slot)
    (due : Nat) : (intake.finish slot (some (.error error)) false due).Pending slot.identity := by
  have rests : (intake.finish slot (some (.error error)) false due).resting =
      intake.resting ++ [⟨due, slot.identity⟩] := by
    simp [Intake.finish, deservesRest, retryable]
  refine .inr ?_
  rw [rests, List.map_append]
  exact List.mem_append_right _ (List.mem_singleton_self _)

theorem Pending.wake (pending : intake.Pending identity) (now : Nat) :
    (intake.wake now).Pending identity := by
  rcases pending with waits | rests
  · exact .inl (List.mem_append_left _ waits)
  · rcases List.mem_map.mp rests with ⟨rest, member, rfl⟩
    by_cases ended : rest.due ≤ now
    · have woken : rest ∈ (intake.resting.partition fun rest => rest.due ≤ now).1 := by
        simp [member, ended]
      exact .inl (List.mem_append_right _ (List.mem_map_of_mem woken))
    · refine .inr (List.mem_map_of_mem ?_)
      have later : now < rest.due := Nat.lt_of_not_le ended
      simp [Intake.wake, member, later]

end Intake

structure Admitting (α ρ : Type) where
  dispatching : Dispatching α ρ
  intake : Intake

inductive AdmitAct (α : Type) where
  | event (identity : Identity)
  | take
  | change (identity : Identity) (resource : Option α)
  /-- A dispatch moves. If it is over, its slot becomes free, and its identity rests until `due` if
  its attempts have run out. -/
  | move (ticket : Nat) (jitter : Float) (prompt : Prompt) (due : Nat)
  | wake (now : Nat)
  | cancel
  | stop

namespace Admitting

def release (intake : Intake) (cancelled : Bool) (ticket due : Nat) (call : DispatchCall α ρ) :
    Intake :=
  if call.phase.isOver then
    intake.finish ⟨ticket, call.identity⟩ call.phase.result? cancelled due
  else intake

/-- What follows from an act; none if it is not possible. All calls are made under the one token of
the intake. -/
def step (rules : Rules α ρ) (backoff : Backoff) (state : Admitting α ρ) :
    AdmitAct α → Option (Admitting α ρ)
  | .event identity =>
      some { state with
        intake := { state.intake with arrived := state.intake.arrived ++ [identity] } }
  | .take =>
      if state.dispatching.isCancelled 0 then none
      else do
        let (identity, intake) ← state.intake.next?
        let dispatching ← state.dispatching.step rules backoff (.call identity 0)
        some { dispatching, intake := intake.start state.dispatching.calls.length identity }
  | .change identity resource => do
      let dispatching ← state.dispatching.step rules backoff (.change identity resource)
      some { state with dispatching }
  | .move ticket jitter prompt due => do
      let dispatching ← state.dispatching.step rules backoff (.move ticket jitter prompt)
      let call ← dispatching.calls[ticket]?
      some { dispatching
             intake := release state.intake (dispatching.isCancelled 0) ticket due call }
  | .wake now => some { state with intake := state.intake.wake now }
  | .cancel => do
      let dispatching ← state.dispatching.step rules backoff (.cancel 0)
      some { state with dispatching }
  | .stop =>
      if state.dispatching.isCancelled 0 then some { state with intake := state.intake.stop }
      else none

def start (limit : Nat) (cache : Cache ρ) (resources : Identity → Option α) : Admitting α ρ :=
  { dispatching := .start cache resources, intake := { limit } }

abbrev run (rules : Rules α ρ) (backoff : Backoff) (acts : List (AdmitAct α))
    (state : Admitting α ρ) : Option (Admitting α ρ) :=
  Execution.run (step rules backoff) acts state

variable {rules : Rules α ρ} {backoff : Backoff} {state next : Admitting α ρ} {act : AdmitAct α}

theorem move_of_step {ticket due : Nat} {jitter : Float} {prompt : Prompt}
    (stepped : step rules backoff state (.move ticket jitter prompt due) = some next) :
    ∃ call, state.dispatching.step rules backoff (.move ticket jitter prompt) =
        some next.dispatching ∧ next.dispatching.calls[ticket]? = some call ∧
      next.intake = release state.intake (next.dispatching.isCancelled 0) ticket due call := by
  simp only [step, Option.bind_eq_bind, Option.bind_eq_some_iff] at stepped
  rcases stepped with ⟨dispatching, moved, call, found, equal⟩
  cases equal
  exact ⟨call, moved, found, rfl⟩

theorem take_of_step (stepped : step rules backoff state .take = some next) :
    ∃ identity intake, state.intake.next? = some (identity, intake) ∧
      state.dispatching.step rules backoff (.call identity 0) = some next.dispatching ∧
      next.intake = intake.start state.dispatching.calls.length identity := by
  simp only [step] at stepped
  split at stepped
  · cases stepped
  · simp only [Option.bind_eq_bind, Option.bind_eq_some_iff] at stepped
    rcases stepped with ⟨⟨identity, intake⟩, taken, dispatching, called, equal⟩
    cases equal
    exact ⟨identity, intake, taken, called, rfl⟩

theorem dispatching_of_step (stepped : step rules backoff state act = some next) :
    next.dispatching = state.dispatching ∨
      ∃ moved, state.dispatching.step rules backoff moved = some next.dispatching ∧
        ∀ identity resource, moved = .change identity resource →
          act = .change identity resource := by
  cases act with
  | event identity => cases stepped; exact .inl rfl
  | take =>
      rcases take_of_step stepped with ⟨identity, intake, -, called, -⟩
      exact .inr ⟨_, called, nofun⟩
  | change identity resource =>
      cases stepped
      refine .inr ⟨.change identity resource, rfl, fun other given same => ?_⟩
      cases same
      rfl
  | move ticket jitter prompt due =>
      rcases move_of_step stepped with ⟨call, moved, -, -⟩
      exact .inr ⟨_, moved, nofun⟩
  | wake now => cases stepped; exact .inl rfl
  | cancel => cases stepped; exact .inr ⟨.cancel 0, rfl, nofun⟩
  | stop =>
      simp only [step] at stepped
      split at stepped
      · cases stepped; exact .inl rfl
      · cases stepped

theorem dispatching_of_run {limit : Nat} {cache : Cache ρ} {resources : Identity → Option α}
    {acts : List (AdmitAct α)}
    (ran : run rules backoff acts (start limit cache resources) = some state) :
    ∃ acts, Dispatching.run rules backoff acts (.start cache resources) =
      some state.dispatching := by
  refine Execution.exists_run_of_steps Admitting.dispatching ?_ ran
  intro before act after stepped
  rcases dispatching_of_step stepped with same | ⟨act, moved, -⟩
  · exact ⟨[], congrArg some same.symm⟩
  · exact ⟨[act], (Execution.run_singleton act).trans moved⟩

end Admitting

end PolicyWarden
