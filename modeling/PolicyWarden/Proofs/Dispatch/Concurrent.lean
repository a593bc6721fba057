import PolicyWarden.Proofs.Dispatch.Turn
import PolicyWarden.Proofs.Execution

/-!
Many dispatch calls at once over one dispatcher. The source changes at will, calls are made for any
identity under any token, tokens are cancelled, and the calls take their moves in any order. Every
act takes place at a time of its own; of each call it is kept when it was made, when it looked
whether its identity was in flight, and when its fetches began and were answered.
-/

namespace PolicyWarden

variable {α ρ : Type}

structure Fetch (α : Type) where
  begun : Nat
  read : Option (Nat × Answer α) := none

structure DispatchCall (α ρ : Type) where
  identity : Identity
  token : Nat
  made : Nat
  /-- When it looked whether its identity was in flight. -/
  arrived : Option Nat := none
  /-- The fetches of its current run of attempts, the latest first. -/
  fetches : List (Fetch α) := []
  phase : Phase α ρ := .arriving

structure FinishedRun (α : Type) where
  identity : Identity
  fetches : List (Fetch α)
  result : Except ReconcileError Outcome

structure Dispatching (α ρ : Type) where
  dispatcher : Dispatcher ρ := {}
  resources : Identity → Option α
  cancelled : List Nat := []
  calls : List (DispatchCall α ρ) := []
  /-- The runs that are over, the latest first. -/
  runs : List (FinishedRun α) := []
  changes : List (Identity × Nat) := []
  clock : Nat := 0

inductive Prompt where
  | proceed
  | answer
  | fail (error : FetchError)
  | compile
  | wait
  | notice

/-- What may happen next. A call is named by its place among the calls. -/
inductive DispatchAct (α : Type) where
  | change (identity : Identity) (resource : Option α)
  | call (identity : Identity) (token : Nat)
  | cancel (token : Nat)
  | move (ticket : Nat) (jitter : Float) (prompt : Prompt)

namespace Prompt

def move (resource : Option α) : Prompt → Move α
  | .proceed => .proceed
  | .answer => .answered (.ok resource)
  | .fail error => .answered (.error error)
  | .compile => .compiled
  | .wait => .waited
  | .notice => .noticed

theorem answered_of_move {resource : Option α} {prompt : Prompt} {answer : Answer α}
    (given : prompt.move resource = .answered answer) :
    answer = .ok resource ∨ ∃ error, answer = .error error := by
  cases prompt <;> cases given
  · exact .inl rfl
  · exact .inr ⟨_, rfl⟩

end Prompt

namespace DispatchCall

def follow (call : DispatchCall α ρ) (clock : Nat) (phase : Phase α ρ) : DispatchCall α ρ :=
  match call.phase, phase with
  | .arriving, _ => { call with phase, arrived := some clock }
  | .rearming, _ => { call with phase, fetches := [] }
  | _, .attempting _ .fetching => { call with phase, fetches := ⟨clock, none⟩ :: call.fetches }
  | _, .attempting _ (.answered answer) =>
      { call with
        phase
        fetches := call.fetches.modifyHead fun fetch =>
          { fetch with read := some (clock, answer) } }
  | _, _ => { call with phase }

def finishedRuns (call : DispatchCall α ρ) : List (FinishedRun α) :=
  match call.phase with
  | .concluding result => [⟨call.identity, call.fetches, result⟩]
  | _ => []

theorem mem_finishedRuns {call : DispatchCall α ρ} {run : FinishedRun α}
    (member : run ∈ call.finishedRuns) :
    ∃ result, call.phase = .concluding result ∧ run = ⟨call.identity, call.fetches, result⟩ := by
  unfold finishedRuns at member
  split at member
  · next result concluding => exact ⟨result, concluding, List.mem_singleton.mp member⟩
  · cases member

@[simp] theorem follow_phase (call : DispatchCall α ρ) (clock : Nat) (phase : Phase α ρ) :
    (call.follow clock phase).phase = phase := by
  unfold follow
  split <;> rfl

@[simp] theorem follow_identity (call : DispatchCall α ρ) (clock : Nat) (phase : Phase α ρ) :
    (call.follow clock phase).identity = call.identity := by
  unfold follow
  split <;> rfl

@[simp] theorem follow_made (call : DispatchCall α ρ) (clock : Nat) (phase : Phase α ρ) :
    (call.follow clock phase).made = call.made := by
  unfold follow
  split <;> rfl

@[simp] theorem follow_token (call : DispatchCall α ρ) (clock : Nat) (phase : Phase α ρ) :
    (call.follow clock phase).token = call.token := by
  unfold follow
  split <;> rfl

end DispatchCall

namespace Dispatching

def isCancelled (state : Dispatching α ρ) (token : Nat) : Bool :=
  state.cancelled.contains token

def lastRun? (state : Dispatching α ρ) (identity : Identity) : Option (FinishedRun α) :=
  state.runs.find? fun run => run.identity = identity

def replace (state : Dispatching α ρ) (ticket : Nat) (call : DispatchCall α ρ)
    (dispatcher : Dispatcher ρ) : Dispatching α ρ :=
  { state with
    dispatcher
    calls := state.calls.set ticket call
    runs := call.finishedRuns ++ state.runs
    clock := state.clock + 1 }

def step (rules : Rules α ρ) (backoff : Backoff) (state : Dispatching α ρ) :
    DispatchAct α → Option (Dispatching α ρ)
  | .change identity resource =>
      some { state with
        resources := Function.update state.resources identity resource
        changes := (identity, state.clock) :: state.changes
        clock := state.clock + 1 }
  | .call identity token =>
      some { state with
        calls := state.calls ++ [{ identity, token, made := state.clock }]
        clock := state.clock + 1 }
  | .cancel token =>
      some { state with cancelled := token :: state.cancelled, clock := state.clock + 1 }
  | .move ticket jitter prompt => do
      let call ← state.calls[ticket]?
      let (dispatcher, phase) ← call.phase.move rules backoff jitter call.identity
        (state.isCancelled call.token) state.dispatcher
        (prompt.move (state.resources call.identity))
      some (state.replace ticket (call.follow state.clock phase) dispatcher)

def start (cache : Cache ρ) (resources : Identity → Option α) : Dispatching α ρ :=
  { dispatcher := { cache }, resources }

abbrev run (rules : Rules α ρ) (backoff : Backoff) (acts : List (DispatchAct α))
    (state : Dispatching α ρ) : Option (Dispatching α ρ) :=
  Execution.run (step rules backoff) acts state

/-- No call has failed without a result. -/
def Intact (state : Dispatching α ρ) : Prop :=
  ∀ call ∈ state.calls, ∀ message, call.phase ≠ .unwound message

variable {rules : Rules α ρ} {backoff : Backoff} {state next : Dispatching α ρ}
  {act : DispatchAct α}

theorem turns_of_step {ticket : Nat} {jitter : Float} {prompt : Prompt}
    (stepped : step rules backoff state (.move ticket jitter prompt) = some next) :
    ∃ call dispatcher phase, state.calls[ticket]? = some call ∧
      Phase.Turns rules backoff call.identity (state.isCancelled call.token) state.dispatcher
        (prompt.move (state.resources call.identity)) call.phase dispatcher phase ∧
      next = state.replace ticket (call.follow state.clock phase) dispatcher := by
  simp only [step, Option.bind_eq_bind, Option.bind_eq_some_iff] at stepped
  rcases stepped with ⟨call, found, ⟨dispatcher, phase⟩, moved, equal⟩
  cases equal
  exact ⟨call, dispatcher, phase, found, Phase.turns_of_move moved, rfl⟩

theorem step_of_moves {ticket : Nat} {jitter : Float} {prompt : Prompt} {call : DispatchCall α ρ}
    {dispatcher : Dispatcher ρ} {phase : Phase α ρ} (present : state.calls[ticket]? = some call)
    (moves : call.phase.move rules backoff jitter call.identity (state.isCancelled call.token)
      state.dispatcher (prompt.move (state.resources call.identity)) = some (dispatcher, phase)) :
    step rules backoff state (.move ticket jitter prompt) =
      some (state.replace ticket (call.follow state.clock phase) dispatcher) := by
  simp only [step, present, moves, Option.bind_eq_bind, Option.bind_some]

theorem getElem?_replace {ticket other : Nat} {call found : DispatchCall α ρ}
    {dispatcher : Dispatcher ρ}
    (present : (state.replace ticket call dispatcher).calls[other]? = some found) :
    (other = ticket ∧ found = call) ∨ (other ≠ ticket ∧ state.calls[other]? = some found) := by
  simp only [replace, List.getElem?_set] at present
  split at present
  · next same =>
      split at present
      · cases present; exact .inl ⟨same.symm, rfl⟩
      · cases present
  · next different => exact .inr ⟨fun same => different same.symm, present⟩

theorem getElem?_replace_self {ticket : Nat} {call moved : DispatchCall α ρ}
    {dispatcher : Dispatcher ρ} (present : state.calls[ticket]? = some call) :
    (state.replace ticket moved dispatcher).calls[ticket]? = some moved := by
  have inside : ticket < state.calls.length := (List.getElem?_eq_some_iff.mp present).1
  simp [replace, inside]

theorem getElem?_replace_of_ne {ticket other : Nat} {moved : DispatchCall α ρ}
    {dispatcher : Dispatcher ρ} (different : other ≠ ticket) :
    (state.replace ticket moved dispatcher).calls[other]? = state.calls[other]? := by
  simp [replace, different.symm]

theorem countP_replace {ticket : Nat} {mover : DispatchCall α ρ}
    (found : state.calls[ticket]? = some mover)
    (moved : DispatchCall α ρ) (dispatcher : Dispatcher ρ) (counts : DispatchCall α ρ → Bool) :
    (state.replace ticket moved dispatcher).calls.countP counts + (counts mover).toNat =
      state.calls.countP counts + (counts moved).toNat :=
  Execution.countP_set counts moved found

theorem getElem?_made {place : Nat} {fresh found : DispatchCall α ρ}
    (present : (state.calls ++ [fresh])[place]? = some found) :
    state.calls[place]? = some found ∨ found = fresh := by
  rw [List.getElem?_append] at present
  split at present
  · exact .inl present
  · exact .inr (List.mem_singleton.mp (List.mem_of_getElem? present))

theorem getElem?_made_of_some {place : Nat} {fresh found : DispatchCall α ρ}
    (present : state.calls[place]? = some found) :
    (state.calls ++ [fresh])[place]? = some found := by
  rw [List.getElem?_append_left (List.getElem?_eq_some_iff.mp present).1]
  exact present

theorem Intact.unfailed {ticket : Nat} {call : DispatchCall α ρ} {dispatcher : Dispatcher ρ}
    {phase : Phase α ρ}
    (intact : (state.replace ticket (call.follow state.clock phase) dispatcher).Intact)
    (found : state.calls[ticket]? = some call) (message : String) : phase ≠ .unwound message := by
  intro failed
  apply intact _ (List.mem_of_getElem? (getElem?_replace_self found)) message
  rw [call.follow_phase]
  exact failed

theorem Intact.of_step (intact : next.Intact)
    (stepped : step rules backoff state act = some next) : state.Intact := by
  intro call member message failed
  cases act with
  | change identity resource => cases stepped; exact intact call member message failed
  | call identity token =>
      cases stepped
      exact intact call (List.mem_append_left _ member) message failed
  | cancel token => cases stepped; exact intact call member message failed
  | move ticket jitter prompt =>
      rcases turns_of_step stepped with ⟨mover, dispatcher, phase, found, turns, rfl⟩
      rcases List.mem_iff_getElem?.mp member with ⟨place, present⟩
      have different : place ≠ ticket := by
        rintro rfl
        cases present.symm.trans found
        rw [failed] at turns
        cases turns
      apply intact call _ message failed
      exact List.mem_of_getElem? ((getElem?_replace_of_ne different).trans present)

theorem cancelled_of_step (stepped : step rules backoff state act = some next)
    (wanted : next.cancelled = []) : state.cancelled = [] := by
  cases act with
  | change identity resource => cases stepped; exact wanted
  | call identity token => cases stepped; exact wanted
  | cancel token => cases stepped; cases wanted
  | move ticket jitter prompt =>
      rcases turns_of_step stepped with ⟨mover, dispatcher, phase, -, -, rfl⟩
      exact wanted

theorem isCancelled_of_step {token : Nat} {act : DispatchAct α}
    (cancelled : state.isCancelled token = true)
    (stepped : step rules backoff state act = some next) : next.isCancelled token = true := by
  cases act with
  | change identity resource => cases stepped; exact cancelled
  | call identity other => cases stepped; exact cancelled
  | cancel other =>
      cases stepped
      simp only [isCancelled, List.contains_cons, Bool.or_eq_true] at cancelled ⊢
      exact .inr cancelled
  | move ticket jitter prompt =>
      rcases turns_of_step stepped with ⟨mover, dispatcher, phase, -, -, rfl⟩
      exact cancelled

end Dispatching

end PolicyWarden
