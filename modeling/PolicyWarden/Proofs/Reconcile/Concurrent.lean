import PolicyWarden.Proofs.Execution
import PolicyWarden.Proofs.Reconcile.Advance

/-!
Many reconciles at once over one cache. The source changes at will, calls are made for any identity,
and the calls in progress take their steps in any order; between two steps a reader may ask for the
policies. A call commits in the step that brings it to its end, so that the calls that are over, in
the order in which they ended, are a history of the store.
-/

namespace PolicyWarden

variable {α ρ : Type}

namespace Reconcile

def isOver : Reconcile α ρ → Bool
  | .ended _ => true
  | .unwound _ => true
  | _ => false

inductive Motion where
  | advance
  | answer
  | abandon
  | compile
  /-- The compiler fails this once, whatever it makes of the resource otherwise. -/
  | crash (message : String)

end Reconcile

structure ReconcileCall (α ρ : Type) where
  identity : Identity
  cancelled : Bool := false
  answer : Option (Answer α) := none
  state : Reconcile α ρ := .starting

structure Reconciling (α ρ : Type) where
  cache : Cache ρ := {}
  answers : Identity → Answer α
  calls : List (ReconcileCall α ρ) := []
  ended : List (ReconcileCall α ρ) := []
  served : List (Identity × α) := []

/-- What may happen next. A call is named by its place among the calls. -/
inductive ReconcileAct (α : Type) where
  | change (identity : Identity) (answer : Answer α)
  | call (identity : Identity)
  | cancel (ticket : Nat)
  | move (ticket : Nat) (motion : Reconcile.Motion)
  | read (cancelled : Bool)

namespace ReconcileCall

def served (call : ReconcileCall α ρ) : List (Identity × α) :=
  match call.answer with
  | some (.ok (some resource)) => [(call.identity, resource)]
  | _ => []

def mutated (call : ReconcileCall α ρ) : Bool :=
  match call.state with
  | .ended (.ok outcome) => outcome.mutated
  | _ => false

def move (rules : Rules α ρ) (answer : Answer α) (cache : Cache ρ) (call : ReconcileCall α ρ) :
    Reconcile.Motion → Option (Cache ρ × ReconcileCall α ρ)
  | .advance =>
      (call.state.advance rules call.identity call.cancelled cache).map fun (cache, state) =>
        (cache, { call with state })
  | .answer =>
      match call.state with
      | .fetching => some (cache, { call with answer := some answer, state := .answered answer })
      | _ => none
  | .abandon =>
      match call.state, call.cancelled with
      | .fetching, true =>
          some (cache, { call with state := Reconcile.fetching.abandon call.identity })
      | _, _ => none
  | .compile =>
      match call.state with
      | .compiling resource =>
          some (cache, { call with
            state := (Reconcile.compiling resource).compile rules call.identity })
      | _ => none
  | .crash message =>
      match call.state with
      | .compiling resource =>
          some (cache, { call with state := .compiled resource (.panicked message) })
      | _ => none

end ReconcileCall

namespace Reconciling

def step (rules : Rules α ρ) (state : Reconciling α ρ) :
    ReconcileAct α → Option (Reconciling α ρ)
  | .change identity answer =>
      some { state with answers := Function.update state.answers identity answer }
  | .call identity => some { state with calls := state.calls ++ [{ identity }] }
  | .cancel ticket => do
      let call ← state.calls[ticket]?
      some { state with calls := state.calls.set ticket { call with cancelled := true } }
  | .move ticket motion => do
      let call ← state.calls[ticket]?
      let (cache, moved) ← call.move rules (state.answers call.identity) state.cache motion
      some { state with
        cache
        calls := state.calls.set ticket moved
        ended := if moved.state.isOver then moved :: state.ended else state.ended
        served := moved.served ++ state.served }
  | .read cancelled => some { state with cache := (state.cache.policiesFor cancelled).2 }

def start (answers : Identity → Answer α) : Reconciling α ρ :=
  { answers }

abbrev run (rules : Rules α ρ) (acts : List (ReconcileAct α)) (state : Reconciling α ρ) :
    Option (Reconciling α ρ) :=
  Execution.run (step rules) acts state

end Reconciling

namespace ReconcileCall

open Reconcile (Advances)

variable {rules : Rules α ρ} {answer : Answer α} {cache after : Cache ρ}
  {call moved : ReconcileCall α ρ}

theorem isOver_of_mutated (mutated : call.mutated = true) : call.state.isOver = true := by
  unfold ReconcileCall.mutated at mutated
  split at mutated
  · next ended => rw [ended]; rfl
  · cases mutated

theorem not_mutated_of_going (going : call.state.isOver = false) : call.mutated = false := by
  cases mutated : call.mutated with
  | false => rfl
  | true => exact absurd (going.symm.trans (isOver_of_mutated mutated)) nofun

def Logged (rules : Rules α ρ) (call : ReconcileCall α ρ) : Prop :=
  match call.state with
  | .answered answer => call.answer = some answer
  | .compiling resource => call.answer = some (.ok (some resource))
  | .compiled resource verdict =>
      call.answer = some (.ok (some resource)) ∧
        ((∃ message, verdict = .panicked message) ∨ verdict = rules.compile call.identity resource)
  | _ => True

theorem Logged.compiled (logged : call.Logged rules) {resource : α} {verdict : Verdict ρ}
    (compiled : call.state = .compiled resource verdict)
    (given : ∀ message, verdict ≠ .panicked message) :
    call.answer = some (.ok (some resource)) ∧ rules.compile call.identity resource = verdict := by
  simp only [Logged, compiled] at logged
  rcases logged with ⟨answered, ⟨message, panicked⟩ | own⟩
  · exact absurd panicked (given message)
  · exact ⟨answered, own.symm⟩

def effects (rules : Rules α ρ) (store : Store ρ) (call : ReconcileCall α ρ) :
    Reconcile.Motion → List (Effect ρ)
  | .advance => call.state.effects rules call.identity call.cancelled store
  | _ => []

/-- What brings a call on from outside: the answer of the source, the cancellation that it notices
while it waits for that, and the verdict of the compiler. -/
inductive Brings (rules : Rules α ρ) (answer : Answer α) (call : ReconcileCall α ρ) :
    Reconcile.Motion → ReconcileCall α ρ → Prop
  | answer (fetching : call.state = .fetching) :
      Brings rules answer call .answer { call with answer := some answer, state := .answered answer }
  | abandon (fetching : call.state = .fetching) (unwanted : call.cancelled = true) :
      Brings rules answer call .abandon
        { call with state := .ended (.error (.cancelled call.identity)) }
  | compile (resource : α) (compiling : call.state = .compiling resource) :
      Brings rules answer call .compile
        { call with state := .compiled resource (rules.compile call.identity resource) }
  | crash (resource : α) (message : String) (compiling : call.state = .compiling resource) :
      Brings rules answer call (.crash message)
        { call with state := .compiled resource (.panicked message) }

theorem effects_of_move {motion : Reconcile.Motion}
    (moves : call.move rules answer cache motion = some (after, moved)) :
    after = cache.commit (call.effects rules cache.store motion) ∧
      ((∃ next, motion = .advance ∧ moved = { call with state := next } ∧
          Advances rules call.identity call.cancelled cache.store call.state
            (call.effects rules cache.store motion) next) ∨
        (call.effects rules cache.store motion = [] ∧ Brings rules answer call motion moved)) := by
  cases motion with
  | advance =>
      rcases Option.map_eq_some_iff.mp moves with ⟨⟨next, state⟩, advanced, equal⟩
      cases equal
      rcases Reconcile.advances_effects advanced with ⟨committed, advances⟩
      exact ⟨committed, .inl ⟨state, rfl, rfl, advances⟩⟩
  | answer =>
      simp only [move] at moves
      split at moves
      · next fetching => cases moves; exact ⟨rfl, .inr ⟨rfl, .answer fetching⟩⟩
      · cases moves
  | abandon =>
      simp only [move] at moves
      split at moves
      · next fetching unwanted => cases moves; exact ⟨rfl, .inr ⟨rfl, .abandon fetching unwanted⟩⟩
      · cases moves
  | compile =>
      simp only [move] at moves
      split at moves
      · next resource compiling =>
          cases moves
          exact ⟨rfl, .inr ⟨rfl, .compile resource compiling⟩⟩
      · cases moves
  | crash message =>
      simp only [move] at moves
      split at moves
      · next resource compiling =>
          cases moves
          exact ⟨rfl, .inr ⟨rfl, .crash resource message compiling⟩⟩
      · cases moves

theorem move_cases {motion : Reconcile.Motion}
    (moves : call.move rules answer cache motion = some (after, moved)) :
    (∃ effects next, after = cache.commit effects ∧ moved = { call with state := next } ∧
        Advances rules call.identity call.cancelled cache.store call.state effects next) ∨
      (after = cache ∧ call.state = .fetching ∧
        moved = { call with answer := some answer, state := .answered answer }) ∨
      (after = cache ∧ call.state = .fetching ∧ call.cancelled = true ∧
        moved = { call with state := .ended (.error (.cancelled call.identity)) }) ∨
      (∃ resource verdict, after = cache ∧ call.state = .compiling resource ∧
        moved = { call with state := .compiled resource verdict } ∧
        ((∃ message, verdict = .panicked message) ∨
          verdict = rules.compile call.identity resource)) := by
  rcases effects_of_move moves with ⟨committed, ⟨next, -, rfl, advances⟩ | ⟨none, brings⟩⟩
  · exact .inl ⟨_, next, committed, rfl, advances⟩
  · rw [none] at committed
    cases brings with
    | answer fetching => exact .inr (.inl ⟨committed, fetching, rfl⟩)
    | abandon fetching unwanted => exact .inr (.inr (.inl ⟨committed, fetching, unwanted, rfl⟩))
    | compile resource compiling =>
        exact .inr (.inr (.inr ⟨resource, _, committed, compiling, rfl, .inr rfl⟩))
    | crash resource message compiling =>
        exact .inr (.inr (.inr ⟨resource, _, committed, compiling, rfl, .inl ⟨message, rfl⟩⟩))

theorem identity_of_move {motion : Reconcile.Motion}
    (moves : call.move rules answer cache motion = some (after, moved)) :
    moved.identity = call.identity := by
  rcases move_cases moves with
    ⟨_, _, -, rfl, -⟩ | ⟨-, -, rfl⟩ | ⟨-, -, -, rfl⟩ | ⟨_, _, -, -, rfl, -⟩ <;>
    rfl

theorem cancelled_of_move {motion : Reconcile.Motion}
    (moves : call.move rules answer cache motion = some (after, moved)) :
    moved.cancelled = call.cancelled := by
  rcases move_cases moves with
    ⟨_, _, -, rfl, -⟩ | ⟨-, -, rfl⟩ | ⟨-, -, -, rfl⟩ | ⟨_, _, -, -, rfl, -⟩ <;>
    rfl

theorem going_of_move {motion : Reconcile.Motion}
    (moves : call.move rules answer cache motion = some (after, moved)) :
    call.state.isOver = false := by
  rcases move_cases moves with
    ⟨_, _, -, -, advances⟩ | ⟨-, fetching, -⟩ | ⟨-, fetching, -, -⟩ | ⟨_, _, -, compiling, -, -⟩
  · generalize call.state = state at advances
    cases advances <;> rfl
  · rw [fetching]; rfl
  · rw [fetching]; rfl
  · rw [compiling]; rfl

theorem logged_move {motion : Reconcile.Motion} (logged : call.Logged rules)
    (moves : call.move rules answer cache motion = some (after, moved)) : moved.Logged rules := by
  rcases move_cases moves with
    ⟨effects, next, -, rfl, advances⟩ | ⟨-, -, rfl⟩ | ⟨-, -, -, rfl⟩ |
      ⟨resource, verdict, -, compiling, rfl, origin⟩
  · generalize source : call.state = state at advances
    cases advances with
    | changed resource different => simpa [Logged, source] using logged
    | _ => trivial
  · rfl
  · trivial
  · exact ⟨by simpa [Logged, compiling] using logged, origin⟩

end ReconcileCall

end PolicyWarden
