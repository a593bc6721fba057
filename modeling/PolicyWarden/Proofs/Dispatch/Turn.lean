import PolicyWarden.Dispatch.Call
import PolicyWarden.Proofs.Reconcile.Advance

/-!
What one move of a dispatch call can be. `Turns` lists the moves, each with what has to be the case
for it and with what it does to the identities in flight; `turns_of_move` says that `Phase.move`
makes no others. Only five of them touch the identities in flight: a call merges or enters, leaves,
stays for another run, or takes the mark away before that run.
-/

namespace PolicyWarden

variable {α ρ : Type}

namespace Phase

def inLoop : Phase α ρ → Bool
  | .attempting _ _ | .backingOff _ _ _ | .concluding _ | .rearming => true
  | .arriving | .merged | .returned _ | .unwound _ => false

def fetching : Phase α ρ → Bool
  | .attempting _ .fetching => true
  | _ => false

theorem inLoop_of_fetching {phase : Phase α ρ} (fetches : phase.fetching = true) :
    phase.inLoop = true := by
  unfold fetching at fetches
  split at fetches
  · rfl
  · cases fetches

/-- The moves of a call: from which phase, with which effect on what all calls share, to which
phase. -/
inductive Turns (rules : Rules α ρ) (backoff : Backoff) (identity : Identity) (cancelled : Bool)
    (dispatcher : Dispatcher ρ) (move : Move α) : Phase α ρ → Dispatcher ρ → Phase α ρ → Prop
  | merge (flying : dispatcher.inFlight.contains identity = true) :
      Turns rules backoff identity cancelled dispatcher move .arriving
        { dispatcher with inFlight := dispatcher.inFlight.insert identity true } .merged
  | enter (landed : dispatcher.inFlight.contains identity = false) :
      Turns rules backoff identity cancelled dispatcher move .arriving
        { dispatcher with inFlight := dispatcher.inFlight.insert identity false }
        (.attempting backoff.first .starting)
  | advance (attempt : Attempt) (state next : Reconcile α ρ) (effects : List (Effect ρ))
      (advances : Reconcile.Advances rules identity cancelled dispatcher.cache.store state effects
        next) :
      Turns rules backoff identity cancelled dispatcher move (.attempting attempt state)
        { dispatcher with cache := dispatcher.cache.commit effects } (.attempting attempt next)
  | answered (attempt : Attempt) (answer : Answer α) (given : move = .answered answer) :
      Turns rules backoff identity cancelled dispatcher move (.attempting attempt .fetching)
        dispatcher (.attempting attempt (.answered answer))
  | abandon (attempt : Attempt) (unwanted : cancelled = true) :
      Turns rules backoff identity cancelled dispatcher move (.attempting attempt .fetching)
        dispatcher (.attempting attempt (.ended (.error (.cancelled identity))))
  | compiled (attempt : Attempt) (resource : α) :
      Turns rules backoff identity cancelled dispatcher move
        (.attempting attempt (.compiling resource)) dispatcher
        (.attempting attempt (.compiled resource (rules.compile identity resource)))
  | conclude (attempt : Attempt) (result : Except ReconcileError Outcome)
      (last : ∀ error, result = .error error →
        error.retryable = false ∨ backoff.exhausted attempt = true) :
      Turns rules backoff identity cancelled dispatcher move (.attempting attempt (.ended result))
        dispatcher (.concluding result)
  | backOff (attempt : Attempt) (error : ReconcileError) (wait : Delay)
      (retryable : error.retryable = true) (left : backoff.exhausted attempt = false) :
      Turns rules backoff identity cancelled dispatcher move
        (.attempting attempt (.ended (.error error))) dispatcher (.backingOff attempt error wait)
  | failWait (attempt : Attempt) (error : ReconcileError) (message : String) :
      Turns rules backoff identity cancelled dispatcher move
        (.attempting attempt (.ended (.error error))) dispatcher (.unwound message)
  | crash (attempt : Attempt) (message : String) :
      Turns rules backoff identity cancelled dispatcher move
        (.attempting attempt (.unwound message)) dispatcher (.unwound message)
  | again (attempt next : Attempt) (error : ReconcileError) (wait : Delay) :
      Turns rules backoff identity cancelled dispatcher move (.backingOff attempt error wait)
        dispatcher (.attempting next .starting)
  | failNext (attempt : Attempt) (error : ReconcileError) (wait : Delay) (message : String) :
      Turns rules backoff identity cancelled dispatcher move (.backingOff attempt error wait)
        dispatcher (.unwound message)
  | giveUp (attempt : Attempt) (error : ReconcileError) (wait : Delay)
      (unwanted : cancelled = true) :
      Turns rules backoff identity cancelled dispatcher move (.backingOff attempt error wait)
        dispatcher (.concluding (.error error))
  | leave (result : Except ReconcileError Outcome)
      (free : cancelled = true ∨ dispatcher.inFlight.find? identity = some false) :
      Turns rules backoff identity cancelled dispatcher move (.concluding result)
        { dispatcher with inFlight := dispatcher.inFlight.erase identity } (.returned result)
  | stay (result : Except ReconcileError Outcome) (wanted : cancelled = false)
      (marked : dispatcher.inFlight.find? identity ≠ some false) :
      Turns rules backoff identity cancelled dispatcher move (.concluding result) dispatcher
        .rearming
  | rearm (inFlight : Table Identity Bool)
      (unmarked : inFlight = if dispatcher.inFlight.contains identity then
        dispatcher.inFlight.insert identity false else dispatcher.inFlight) :
      Turns rules backoff identity cancelled dispatcher move .rearming { dispatcher with inFlight }
        (.attempting backoff.first .starting)

variable {rules : Rules α ρ} {backoff : Backoff} {jitter : Float} {identity : Identity}
  {cancelled : Bool} {dispatcher after : Dispatcher ρ} {phase next : Phase α ρ} {move : Move α}

theorem turns_returned (attempt : Attempt) (result : Except ReconcileError Outcome) :
    Turns rules backoff identity cancelled dispatcher move (.attempting attempt (.ended result))
      dispatcher
      (ofRetry (Retry.returned backoff ReconcileError.retryable jitter attempt result)) := by
  cases result with
  | ok outcome => exact .conclude attempt (.ok outcome) nofun
  | error error =>
      simp only [Retry.returned]
      split
      · next final =>
          refine .conclude attempt (.error error) ?_
          rintro _ ⟨⟩
          simpa using final
      · next goesOn =>
          split
          · simp only [Bool.or_eq_true, Bool.not_eq_true', not_or, Bool.not_eq_false,
              Bool.not_eq_true] at goesOn
            exact .backOff attempt error _ goesOn.1 goesOn.2
          · exact .failWait attempt error _

theorem turns_elapsed (attempt : Attempt) (error : ReconcileError) (wait : Delay) :
    Turns rules backoff identity cancelled dispatcher move (.backingOff attempt error wait)
      dispatcher (ofRetry (Retry.elapsed backoff (.waiting attempt error wait))) := by
  simp only [Retry.elapsed]
  split
  · exact .again attempt _ error wait
  · exact .failNext attempt error wait _

theorem turns_advance {attempt : Attempt} {reconcile : Reconcile α ρ}
    (moved : advance rules backoff jitter identity cancelled dispatcher attempt reconcile =
      some (after, next)) :
    Turns rules backoff identity cancelled dispatcher move (.attempting attempt reconcile) after
      next := by
  have inside (stays : (reconcile.advance rules identity cancelled dispatcher.cache).map
      (fun pair => ({ dispatcher with cache := pair.1 }, Phase.attempting attempt pair.2)) =
        some (after, next)) :
      Turns rules backoff identity cancelled dispatcher move (.attempting attempt reconcile) after
        next := by
    rcases Option.map_eq_some_iff.mp stays with ⟨⟨cache, state⟩, advanced, equal⟩
    cases equal
    rcases Reconcile.advances_of_advance advanced with ⟨effects, rfl, advances⟩
    exact .advance attempt reconcile state effects advances
  cases reconcile with
  | ended result => cases moved; exact turns_returned attempt result
  | unwound message => cases moved; exact .crash attempt message
  | starting => exact inside moved
  | fetching => exact inside moved
  | answered answer => exact inside moved
  | compiling resource => exact inside moved
  | compiled resource verdict => exact inside moved

theorem turns_of_move
    (moved : phase.move rules backoff jitter identity cancelled dispatcher move =
      some (after, next)) :
    Turns rules backoff identity cancelled dispatcher move phase after next := by
  unfold Phase.move at moved
  split at moved
  · simp only [arrive, Option.some.injEq] at moved
    split at moved
    · next flying => cases moved; exact .merge flying
    · next landed => cases moved; exact .enter (Bool.not_eq_true _ ▸ landed)
  · exact turns_advance moved
  · cases moved; exact .answered _ _ rfl
  · cases moved; exact .compiled _ _
  · split at moved
    · next unwanted => cases moved; exact .abandon _ unwanted
    · cases moved
  · cases moved; exact turns_elapsed _ _ _
  · split at moved
    · next unwanted => cases moved; exact .giveUp _ _ _ unwanted
    · cases moved
  · simp only [conclude, Option.some.injEq] at moved
    split at moved
    · next free =>
        cases moved
        exact .leave _ (by simpa using free)
    · next bound =>
        cases moved
        simp only [Bool.or_eq_true, beq_iff_eq, not_or, Bool.not_eq_true] at bound
        exact .stay _ bound.1 bound.2
  · cases moved; exact .rearm _ rfl
  · cases moved

namespace Turns

theorem inLoop_of_concluding {result : Except ReconcileError Outcome}
    (turns : Turns rules backoff identity cancelled dispatcher move phase after
      (.concluding result)) : phase.inLoop = true := by
  cases turns <;> rfl

theorem going
    (turns : Turns rules backoff identity cancelled dispatcher move phase after next) :
    phase.isOver = false := by
  cases turns <;> rfl

theorem find?_of_ne {other : Identity}
    (turns : Turns rules backoff identity cancelled dispatcher move phase after next)
    (different : other ≠ identity) :
    after.inFlight.find? other = dispatcher.inFlight.find? other := by
  cases turns with
  | merge => simp [different]
  | enter => simp [different]
  | leave => simp [different]
  | rearm inFlight unmarked =>
      subst unmarked
      split
      · simp [different]
      · rfl
  | _ => rfl

/-- A call that enters its loop puts its identity in flight, and only a call that leaves its loop
takes it away. -/
theorem inLoop_le
    (turns : Turns rules backoff identity cancelled dispatcher move phase after next) :
    (dispatcher.inFlight.contains identity).toNat + next.inLoop.toNat ≤
      (after.inFlight.contains identity).toNat + phase.inLoop.toNat := by
  cases turns with
  | merge flying => simp [flying, inLoop]
  | enter landed => simp [landed, inLoop]
  | leave => simp [inLoop, Bool.toNat_le]
  | rearm inFlight unmarked =>
      subst unmarked
      split
      · next flying => simp [flying, inLoop]
      · exact Nat.le_refl _
  | _ => simp [inLoop]

end Turns

end Phase

end PolicyWarden
