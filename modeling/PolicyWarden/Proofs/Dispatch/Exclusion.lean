import PolicyWarden.Proofs.Dispatch.Coverage

/-!
One call of an identity at a time. At most one reconcile of an identity runs, the identity is in
flight exactly while one call of it is inside its loop, and it is no longer in flight once all its
calls are over, so that the next one runs a reconcile. This holds under any tokens and any
cancellations. A call looks at its token in the move in which it leaves; since every call may have a
token of its own, a cancellation that another call sees earlier is covered as well.
-/

namespace PolicyWarden.Dispatching

variable {α ρ : Type} {rules : Rules α ρ} {backoff : Backoff} {state : Dispatching α ρ}
  {identity : Identity}

def LoopsAt (state : Dispatching α ρ) (identity : Identity) (place : Nat) : Prop :=
  ∃ call, state.calls[place]? = some call ∧ call.identity = identity ∧ call.phase.inLoop = true

def ReconcilesAt (state : Dispatching α ρ) (identity : Identity) (place : Nat) : Prop :=
  ∃ call attempt reconcile, state.calls[place]? = some call ∧ call.identity = identity ∧
    call.phase = .attempting attempt reconcile

/-- The call at this place is the next one of the identity: it has yet to look whether the identity
is in flight, and all others of the identity are over. -/
def NextAt (state : Dispatching α ρ) (identity : Identity) (place : Nat) : Prop :=
  (∃ call, state.calls[place]? = some call ∧ call.identity = identity ∧ call.phase = .arriving) ∧
    ∀ other call, other ≠ place → state.calls[other]? = some call → call.identity = identity →
      call.phase.isOver = true

theorem ReconcilesAt.loopsAt {place : Nat} (reconciles : ReconcilesAt state identity place) :
    LoopsAt state identity place := by
  rcases reconciles with ⟨call, attempt, reconcile, present, own, attempting⟩
  refine ⟨call, present, own, ?_⟩
  rw [attempting]
  rfl

theorem Orderly.loopsAt_unique (orderly : Orderly state) {first second : Nat}
    (left : LoopsAt state identity first) (right : LoopsAt state identity second) :
    first = second := by
  rcases left with ⟨call, present, own, inside⟩
  rcases right with ⟨other, found, same, loops⟩
  exact orderly.alone first second call other present found inside loops (own.trans same.symm)

theorem Orderly.contains_iff (orderly : Orderly state) :
    state.dispatcher.inFlight.contains identity = true ↔ ∃! place, LoopsAt state identity place := by
  constructor
  · intro flies
    rcases orderly.owned identity flies with ⟨place, call, present, own, inside⟩
    have loops : LoopsAt state identity place := ⟨call, present, own, inside⟩
    exact ⟨place, loops, fun other also => orderly.loopsAt_unique also loops⟩
  · rintro ⟨place, ⟨call, present, rfl, inside⟩, -⟩
    exact orderly.flying place call present inside

theorem Orderly.landed (orderly : Orderly state) (nobody : ∀ place, ¬LoopsAt state identity place) :
    state.dispatcher.inFlight.contains identity = false := by
  cases flies : state.dispatcher.inFlight.contains identity with
  | false => rfl
  | true =>
      rcases orderly.contains_iff.mp flies with ⟨place, loops, -⟩
      exact absurd loops (nobody place)

theorem Quiet.not_loopsAt (quiet : Quiet state identity) (place : Nat) :
    ¬LoopsAt state identity place := by
  rintro ⟨call, present, own, inside⟩
  rw [quiet.not_inLoop present own] at inside
  cases inside

theorem NextAt.not_loopsAt {place : Nat} (following : NextAt state identity place) (other : Nat) :
    ¬LoopsAt state identity other := by
  rintro ⟨call, present, own, inside⟩
  rcases following with ⟨⟨newcomer, found, -, arriving⟩, others⟩
  by_cases same : other = place
  · subst same
    cases present.symm.trans found
    rw [arriving] at inside
    cases inside
  · rw [not_inLoop_of_isOver (others other call same present own)] at inside
    cases inside

theorem enters_of_landed (rules : Rules α ρ) (backoff : Backoff) {place : Nat}
    {call : DispatchCall α ρ}
    (present : state.calls[place]? = some call) (arriving : call.phase = .arriving)
    (landed : state.dispatcher.inFlight.contains call.identity = false) (jitter : Float) :
    ∃ next moved, step rules backoff state (.move place jitter .proceed) = some next ∧
      next.calls[place]? = some moved ∧ moved.identity = call.identity ∧
      moved.phase = .attempting backoff.first .starting := by
  have moves : call.phase.move rules backoff jitter call.identity
      (state.isCancelled call.token) state.dispatcher
      (Prompt.proceed.move (state.resources call.identity)) =
        some ({ state.dispatcher with
          inFlight := state.dispatcher.inFlight.insert call.identity false },
          .attempting backoff.first .starting) := by
    rw [arriving]
    simp [Prompt.move, Phase.move, Phase.arrive, landed, Phase.run, Phase.ofRetry, Retry.start]
  exact ⟨_, _, step_of_moves present moves, getElem?_replace_self present,
    call.follow_identity _ _, call.follow_phase _ _⟩

/-- As long as no call fails without a result, at every reachable state and for every identity: at
most one reconcile of it runs; it is in flight exactly while one call of it is inside its loop; once
all its calls are over it is not in flight; and the next call of it then runs a reconcile. -/
theorem inFlight_iff_one_loops {acts : List (DispatchAct α)} {cache : Cache ρ}
    {resources : Identity → Option α}
    (ran : run rules backoff acts (start cache resources) = some state) (intact : state.Intact)
    (identity : Identity) :
    (∀ first second, ReconcilesAt state identity first → ReconcilesAt state identity second →
      first = second) ∧
    (state.dispatcher.inFlight.contains identity = true ↔
      ∃! place, LoopsAt state identity place) ∧
    (Quiet state identity → state.dispatcher.inFlight.contains identity = false) ∧
    ∀ place jitter, NextAt state identity place → ∃ next,
      step rules backoff state (.move place jitter .proceed) = some next ∧
        ReconcilesAt next identity place := by
  have orderly := orderly_of_run ran intact
  refine ⟨?alone, orderly.contains_iff, ?left, ?reenters⟩
  case alone =>
    intro first second left right
    exact orderly.loopsAt_unique left.loopsAt right.loopsAt
  case left => exact fun quiet => orderly.landed quiet.not_loopsAt
  case reenters =>
    intro place jitter following
    have landed := orderly.landed following.not_loopsAt
    rcases following with ⟨⟨call, present, rfl, arriving⟩, -⟩
    rcases enters_of_landed rules backoff present arriving landed jitter with
      ⟨next, moved, stepped, found, same, attempting⟩
    exact ⟨next, stepped, moved, _, _, found, same, attempting⟩

/-- A call is cancelled while it fetches and while another call, under another token, is merged into
it; it leaves all the same, and a third call arrives. -/
def cancelledWhileMarked : List (DispatchAct String) :=
  [.call ⟨"a"⟩ 0, .call ⟨"b"⟩ 1, .move 0 1 .proceed, .move 0 1 .proceed, .call ⟨"a"⟩ 1,
    .move 2 1 .proceed, .cancel 0, .move 1 1 .proceed, .move 0 1 .notice, .move 0 1 .proceed,
    .move 0 1 .proceed, .call ⟨"a"⟩ 1]

theorem inFlight_iff_one_loops_cancelledWhileMarked :
    ∃ state, run Rules.plain {} cancelledWhileMarked (start {} fun _ => none) = some state ∧
      state.Intact ∧ state.dispatcher.inFlight.contains ⟨"a"⟩ = false ∧
      (∃! place, LoopsAt state ⟨"b"⟩ place) ∧ NextAt state ⟨"a"⟩ 3 ∧
      ∃ next, step Rules.plain {} state (.move 3 1 .proceed) = some next ∧
        ReconcilesAt next ⟨"a"⟩ 3 := by
  rcases (⟨_, rfl⟩ : ∃ state, run Rules.plain {} cancelledWhileMarked (start {} fun _ => none) =
    some state) with ⟨state, ran⟩
  have reached := Option.some.inj ran
  have calls : ∃ first second third fourth, state.calls = [first, second, third, fourth] ∧
      first.phase = .returned (.error (.cancelled ⟨"a"⟩)) ∧
      second.identity = ⟨"b"⟩ ∧ second.phase = .attempting (Backoff.first {}) .starting ∧
      third.phase = .merged ∧ fourth.identity = ⟨"a"⟩ ∧ fourth.phase = .arriving :=
    reached ▸ ⟨_, _, _, _, rfl, rfl, rfl, rfl, rfl, rfl, rfl⟩
  rcases calls with
    ⟨first, second, third, fourth, calls, left, other, attempting, merged, own, arriving⟩
  have intact : state.Intact := by
    intro call member message
    simp only [calls, List.mem_cons, List.not_mem_nil, or_false] at member
    rcases member with rfl | rfl | rfl | rfl
    · rw [left]; nofun
    · rw [attempting]; nofun
    · rw [merged]; nofun
    · rw [arriving]; nofun
  have following : NextAt state ⟨"a"⟩ 3 := by
    refine ⟨⟨fourth, by rw [calls]; rfl, own, arriving⟩, ?_⟩
    intro place call different present same
    have bound : place < 4 := by
      have := (List.getElem?_eq_some_iff.mp present).1
      simpa [calls] using this
    rw [calls] at present
    obtain rfl | rfl | rfl : place = 0 ∨ place = 1 ∨ place = 2 := by omega
    · cases present; rw [left]; rfl
    · cases present; rw [other] at same; exact absurd same (by decide)
    · cases present; rw [merged]; rfl
  have flying : state.dispatcher.inFlight.contains ⟨"b"⟩ = true := reached ▸ rfl
  have landed : state.dispatcher.inFlight.contains ⟨"a"⟩ = false := reached ▸ rfl
  have busy := (inFlight_iff_one_loops ran intact ⟨"b"⟩).2.1.mp flying
  have reenters := (inFlight_iff_one_loops ran intact ⟨"a"⟩).2.2.2 3 1 following
  exact ⟨state, ran, intact, landed, busy, following, reenters⟩

end PolicyWarden.Dispatching
