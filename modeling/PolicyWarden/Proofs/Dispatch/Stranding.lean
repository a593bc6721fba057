import PolicyWarden.Proofs.Dispatch.Clearing
import PolicyWarden.Proofs.Dispatch.Exclusion
import PolicyWarden.Proofs.Dispatch.Rerun

/-!
What a call leaves behind that fails without a result. It takes nothing away, so its identity stays
in flight with no call inside its loop: the identity is stranded. No later call can change that, since
each of them finds the identity in flight and is merged. `stranded_for_good` says so of every run, and
`merged_though_unwound` shows it of a wait that cannot be computed.
-/

namespace PolicyWarden

variable {α ρ : Type}

namespace Phase

def hasUnwound : Phase α ρ → Bool
  | .unwound _ => true
  | _ => false

theorem exists_of_hasUnwound {phase : Phase α ρ} (unwound : phase.hasUnwound = true) :
    ∃ message, phase = .unwound message := by
  cases phase with
  | unwound message => exact ⟨message, rfl⟩
  | _ => cases unwound

namespace Turns

variable {rules : Rules α ρ} {backoff : Backoff} {identity : Identity} {cancelled : Bool}
  {dispatcher after : Dispatcher ρ} {phase next : Phase α ρ} {move : Move α}

theorem merges_of_flying
    (turns : Turns rules backoff identity cancelled dispatcher move phase after next)
    (outside : phase.inLoop = false) (flying : dispatcher.inFlight.contains identity = true) :
    after = { dispatcher with inFlight := dispatcher.inFlight.insert identity true } ∧
      next = .merged := by
  cases turns with
  | merge => exact ⟨rfl, rfl⟩
  | enter landed =>
      rw [flying] at landed
      cases landed
  | _ => cases outside

theorem of_unwound {message : String}
    (turns : Turns rules backoff identity cancelled dispatcher move phase after
      (.unwound message)) :
    phase.inLoop = true ∧ after = dispatcher := by
  cases turns <;> exact ⟨rfl, rfl⟩

end Turns

end Phase

namespace Dispatching

variable {rules : Rules α ρ} {backoff : Backoff} {state next failed : Dispatching α ρ}
  {act : DispatchAct α} {before after : List (DispatchAct α)} {identity : Identity}
  {call : DispatchCall α ρ} {message : String} {cache : Cache ρ}
  {resources : Identity → Option α}

/-- The identity is in flight, and no call is inside its loop for it that would take it away. -/
structure Stranded (state : Dispatching α ρ) (identity : Identity) : Prop where
  flying : state.dispatcher.inFlight.contains identity = true
  deserted : ∀ place, ¬LoopsAt state identity place

theorem Stranded.of_step (stranded : Stranded state identity)
    (stepped : step rules backoff state act = some next) :
    Stranded next identity ∧
      next.dispatcher.cache.store.find? identity = state.dispatcher.cache.store.find? identity := by
  cases act with
  | change | cancel => cases stepped; exact ⟨⟨stranded.flying, stranded.deserted⟩, rfl⟩
  | call =>
      cases stepped
      refine ⟨⟨stranded.flying, ?_⟩, rfl⟩
      rintro place ⟨call, present, own, inside⟩
      rcases getElem?_made present with old | rfl
      · exact stranded.deserted place ⟨call, old, own, inside⟩
      · cases inside
  | move ticket jitter prompt =>
      rcases turns_of_step stepped with ⟨mover, dispatcher, phase, found, turns, rfl⟩
      -- A call of the identity stands outside its loop, and the entry keeps it out.
      have merges (own : mover.identity = identity) :
          dispatcher.inFlight = state.dispatcher.inFlight.insert identity true ∧
            dispatcher.cache = state.dispatcher.cache ∧ phase = .merged := by
        subst own
        have outside : mover.phase.inLoop = false := by
          rw [← Bool.not_eq_true]
          exact fun inside => stranded.deserted ticket ⟨mover, found, rfl, inside⟩
        rcases turns.merges_of_flying outside stranded.flying with ⟨rfl, rfl⟩
        exact ⟨rfl, rfl, rfl⟩
      refine ⟨⟨?flying, ?deserted⟩, ?entry⟩
      case flying =>
        change dispatcher.inFlight.contains identity = true
        by_cases own : mover.identity = identity
        · simp [(merges own).1]
        · have kept := turns.find?_of_ne (Ne.symm own)
          exact (congrArg Option.isSome kept).trans stranded.flying
      case deserted =>
        rintro place ⟨call, present, own, inside⟩
        rcases getElem?_replace present with ⟨rfl, rfl⟩ | ⟨-, old⟩
        · rw [mover.follow_identity] at own
          rw [mover.follow_phase, (merges own).2.2] at inside
          cases inside
        · exact stranded.deserted place ⟨call, old, own, inside⟩
      case entry =>
        by_cases own : mover.identity = identity
        · exact congrArg (·.store.find? identity) (merges own).2.1
        · exact turns.stored_of_ne (Ne.symm own)

theorem stranded_of_failing {ticket : Nat} {mover : DispatchCall α ρ} {dispatcher : Dispatcher ρ}
    {prompt : Prompt} (solitary : Solitary state)
    (found : state.calls[ticket]? = some mover)
    (turns : Phase.Turns rules backoff mover.identity (state.isCancelled mover.token)
      state.dispatcher (prompt.move (state.resources mover.identity)) mover.phase dispatcher
      (.unwound message)) :
    Stranded (state.replace ticket (mover.follow state.clock (.unwound message)) dispatcher)
      mover.identity := by
  rcases turns.of_unwound with ⟨inside, rfl⟩
  refine ⟨solitary.flying found inside, ?_⟩
  rintro place ⟨call, present, own, loops⟩
  rcases getElem?_replace present with ⟨rfl, rfl⟩ | ⟨different, present⟩
  · rw [mover.follow_phase] at loops
    cases loops
  · have outside := solitary.alone found inside different present own
    rw [loops] at outside
    cases outside

theorem stranded_of_run (ran : run rules backoff before (start cache resources) = some failed)
    (member : call ∈ failed.calls) (unwound : call.phase = .unwound message) :
    Stranded failed call.identity := by
  refine Execution.run_history (fun _ state => ∀ call ∈ state.calls, ∀ message,
    call.phase = .unwound message → Stranded state call.identity) nofun ?_ ran call member message
    unwound
  intro acts act state next reached known stepped call member message unwound
  cases act with
  | change | cancel =>
      have same : call ∈ state.calls := by cases stepped; exact member
      exact ((known call same message unwound).of_step stepped).1
  | call =>
      have same : call ∈ state.calls := by
        cases stepped
        rcases List.mem_append.mp member with old | fresh
        · exact old
        · cases List.mem_singleton.mp fresh
          cases unwound
      exact ((known call same message unwound).of_step stepped).1
  | move ticket jitter prompt =>
      rcases turns_of_step stepped with ⟨mover, dispatcher, phase, found, turns, rfl⟩
      rcases List.mem_iff_getElem?.mp member with ⟨place, present⟩
      -- Either the call that moves fails now, or the call had failed before and stays stranded.
      rcases getElem?_replace present with ⟨rfl, rfl⟩ | ⟨-, old⟩
      · rw [mover.follow_phase] at unwound
        subst unwound
        rw [mover.follow_identity]
        exact stranded_of_failing (solitary_of_run reached) found turns
      · exact ((known call (List.mem_of_getElem? old) message unwound).of_step stepped).1

/-- Once a call has failed without a result, its identity is in flight for good, whatever was merged
before and whatever happens after: no call is ever again inside its loop for the identity, what is
stored for it never changes again, and each call of it that arrives is merged. -/
theorem stranded_for_good
    (ran : run rules backoff before (start cache resources) = some failed)
    (member : call ∈ failed.calls) (unwound : call.phase = .unwound message)
    (goesOn : run rules backoff after failed = some state) :
    state.dispatcher.inFlight.contains call.identity = true ∧
    (∀ place, ¬LoopsAt state call.identity place) ∧
    state.dispatcher.cache.store.find? call.identity =
      failed.dispatcher.cache.store.find? call.identity ∧
    ∀ place newcomer jitter, state.calls[place]? = some newcomer →
      newcomer.identity = call.identity → newcomer.phase = .arriving →
      ∃ next moved, step rules backoff state (.move place jitter .proceed) = some next ∧
        next.calls[place]? = some moved ∧ moved.phase = .merged := by
  have kept : Stranded state call.identity ∧
      state.dispatcher.cache.store.find? call.identity =
        failed.dispatcher.cache.store.find? call.identity := by
    refine Execution.run_invariant (fun state => Stranded state call.identity ∧
      state.dispatcher.cache.store.find? call.identity =
        failed.dispatcher.cache.store.find? call.identity)
      ⟨stranded_of_run ran member unwound, rfl⟩ ?_ goesOn
    rintro middle act next ⟨stranded, unchanged⟩ stepped
    rcases stranded.of_step stepped with ⟨stays, entry⟩
    exact ⟨stays, entry.trans unchanged⟩
  rcases kept with ⟨stranded, unchanged⟩
  refine ⟨stranded.flying, stranded.deserted, unchanged, ?_⟩
  intro place newcomer jitter present own arriving
  exact merges_of_flying rules backoff present arriving (own ▸ stranded.flying) jitter

def panicking : Rules String String where
  revision text := some text
  compile _ _ := .panicked "index out of bounds"

def panickedWhileMarked : List (DispatchAct String) :=
  [.call ⟨"a"⟩ 0, .call ⟨"a"⟩ 1, .move 0 1 .proceed, .move 0 1 .proceed, .move 1 1 .proceed,
    .move 0 1 .answer, .move 0 1 .proceed, .move 0 1 .compile, .move 0 1 .proceed,
    .move 0 1 .proceed]

theorem stranded_for_good_panickedWhileMarked :
    ∃ failed call state newcomer,
      run panicking {} panickedWhileMarked (start {} fun _ => some "text") = some failed ∧
      call ∈ failed.calls ∧ call.identity = ⟨"a"⟩ ∧
      call.phase = .unwound "index out of bounds" ∧
      run panicking {} [.change ⟨"a"⟩ none, .call ⟨"a"⟩ 2] failed = some state ∧
      state.dispatcher.inFlight.contains ⟨"a"⟩ = true ∧
      state.calls[2]? = some newcomer ∧ newcomer.phase = .arriving ∧
      ∃ next moved, step panicking {} state (.move 2 1 .proceed) = some next ∧
        next.calls[2]? = some moved ∧ moved.phase = .merged := by
  rcases (⟨_, rfl⟩ : ∃ failed, run panicking {} panickedWhileMarked
    (start {} fun _ => some "text") = some failed) with ⟨failed, ran⟩
  rcases (⟨_, rfl⟩ : ∃ state, run panicking {} [.change ⟨"a"⟩ none, .call ⟨"a"⟩ 2] failed =
    some state) with ⟨state, goesOn⟩
  have calls : ∃ first second, failed.calls = [first, second] ∧ first.identity = ⟨"a"⟩ ∧
      first.phase = .unwound "index out of bounds" :=
    Option.some.inj ran ▸ ⟨_, _, rfl, rfl, rfl⟩
  rcases calls with ⟨first, second, calls, own, unwound⟩
  have member : first ∈ failed.calls := by
    rw [calls]
    exact .head _
  have newcomers : ∃ newcomer, state.calls[2]? = some newcomer ∧ newcomer.identity = ⟨"a"⟩ ∧
      newcomer.phase = .arriving := by
    rw [← Option.some.inj goesOn]
    exact ⟨{ identity := ⟨"a"⟩, token := 2, made := failed.clock + 1 }, by simp [calls], rfl, rfl⟩
  rcases newcomers with ⟨newcomer, present, same, arriving⟩
  rcases stranded_for_good ran member unwound goesOn with ⟨flying, -, -, merges⟩
  rw [own] at flying
  exact ⟨failed, first, state, newcomer, ran, member, own, unwound, goesOn, flying, present,
    arriving, merges 2 newcomer 1 present (same.trans own.symm) arriving⟩

def shrinking : Backoff where
  maxAttempts := 5
  multiplier := -1

def deniedOnce : List (DispatchAct String) :=
  [.call ⟨"a"⟩ 0, .move 0 1 .proceed, .move 0 1 .proceed,
    .move 0 1 (.fail ⟨⟨"a"⟩, "unreachable"⟩), .move 0 1 .proceed, .move 0 1 .proceed,
    .move 0 1 .wait]

/-- A call fails because no wait is negative; the next call of its identity, when no other is left, is
merged all the same and reconciles nothing. -/
theorem merged_though_unwound :
    ∃ failed call message state next moved,
      run Rules.plain shrinking deniedOnce (start {} fun _ => some "text") = some failed ∧
      failed.calls = [call] ∧ call.identity = ⟨"a"⟩ ∧ call.phase = .unwound message ∧
      failed.dispatcher.inFlight.contains ⟨"a"⟩ = true ∧
      step Rules.plain shrinking failed (.call ⟨"a"⟩ 1) = some state ∧ NextAt state ⟨"a"⟩ 1 ∧
      step Rules.plain shrinking state (.move 1 1 .proceed) = some next ∧
      next.calls[1]? = some moved ∧ moved.phase = .merged := by
  have course : ((run Rules.plain shrinking deniedOnce (start {} fun _ => some "text")).any
      fun failed => failed.calls.length == 1 && failed.calls.all (fun call =>
        call.identity = ⟨"a"⟩ && call.phase.hasUnwound) &&
        failed.dispatcher.inFlight.contains ⟨"a"⟩) = true := by
    decide +kernel
  simp only [Option.any_eq_true, Bool.and_eq_true, beq_iff_eq, List.length_eq_one_iff,
    List.all_eq_true, decide_eq_true_eq] at course
  rcases course with ⟨failed, ran, ⟨⟨call, calls⟩, all⟩, flying⟩
  rcases all call (calls ▸ .head _) with ⟨own, unwound⟩
  rcases Phase.exists_of_hasUnwound unwound with ⟨message, unwound⟩
  rcases (⟨_, rfl⟩ : ∃ state, step Rules.plain shrinking failed (.call ⟨"a"⟩ 1) = some state) with
    ⟨state, stepped⟩
  have made : state.calls = [call, { identity := ⟨"a"⟩, token := 1, made := failed.clock }] := by
    rw [← Option.some.inj stepped]
    exact congrArg (· ++ [_]) calls
  have following : NextAt state ⟨"a"⟩ 1 := by
    refine ⟨⟨_, by rw [made]; rfl, rfl, rfl⟩, ?_⟩
    intro place other different present same
    have bound : place < 2 := by
      have := (List.getElem?_eq_some_iff.mp present).1
      simpa [made] using this
    obtain rfl : place = 0 := by omega
    rw [made] at present
    cases present
    rw [unwound]
    rfl
  have still : state.dispatcher.inFlight.contains ⟨"a"⟩ = true := by
    rw [← Option.some.inj stepped]
    exact flying
  rcases following.1 with ⟨newcomer, present, same, arriving⟩
  rcases merges_of_flying Rules.plain shrinking present arriving (same ▸ still) 1 with
    ⟨next, moved, merges, found, merged⟩
  exact ⟨failed, call, message, state, next, moved, ran, calls, own, unwound, flying, stepped,
    following, merges, found, merged⟩

end Dispatching

end PolicyWarden
