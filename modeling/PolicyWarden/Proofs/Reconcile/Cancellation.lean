import PolicyWarden.Proofs.Reconcile.Footprint

/-!
What a cancellation prevents. A reconcile that is cancelled before it has touched the cache does not
touch it any more, unless the source was being asked and answers that the resource is gone: that
answer is acted on without another look at the cancellation. `touches_eq_nil_of_cancelled` states the
first, `removes_though_cancelled` shows the second.
-/

namespace PolicyWarden.Undertaking

variable {α ρ : Type} {rules : Rules α ρ} {cache : Cache ρ} {identity : Identity}
  {state next middle : Undertaking α ρ} {act : UndertakingAct α ρ}

/-- What is known of a reconcile that was cancelled before it has touched the cache: what it does to
the store all the same, it does because the resource is gone. -/
structure Withheld (rules : Rules α ρ) (state : Undertaking α ρ) : Prop where
  cancelled : state.call.cancelled = true
  logged : state.call.Logged rules
  gone : state.call.mutated = true → state.call.answer = some (.ok none)

structure Unasked (state : Undertaking α ρ) : Prop where
  cancelled : state.call.cancelled = true
  idle : state.call.state = .starting ∨ ∃ error, state.call.state = .ended (.error error)

theorem Withheld.of_step (withheld : Withheld rules state)
    (stepped : step rules state act = some next) : Withheld rules next := by
  cases act with
  | interfere cache => cases stepped; exact ⟨withheld.cancelled, withheld.logged, withheld.gone⟩
  | cancel => cases stepped; exact ⟨rfl, withheld.logged, withheld.gone⟩
  | shutDown =>
      simp only [step] at stepped
      split at stepped
      · cases stepped
        exact ⟨withheld.cancelled, trivial, by simp [ReconcileCall.mutated]⟩
      · cases stepped
  | move motion answer =>
      rcases Option.map_eq_some_iff.mp stepped with ⟨⟨after, moved⟩, moves, rfl⟩
      have logged := ReconcileCall.logged_move withheld.logged moves
      rcases (ReconcileCall.effects_of_move moves).2 with
        ⟨next, rfl, rfl, advances⟩ | ⟨-, brings⟩
      · refine ⟨withheld.cancelled, logged, ?_⟩
        have before := withheld.logged
        rw [withheld.cancelled] at advances
        generalize state.call.effects rules state.cache.store .advance = effects at advances
        generalize source : state.call.state = phase at advances
        simp only [ReconcileCall.Logged, source] at before
        -- Storing and evicting need the reconcile not to be cancelled, removing does not.
        cases advances with
        | removed present => exact fun _ => before
        | upserted resource policy wanted => cases wanted
        | evicted resource errors wanted => cases wanted
        | _ => simp [ReconcileCall.mutated, Outcome.mutated]
      · refine ⟨(ReconcileCall.cancelled_of_move moves).trans withheld.cancelled, logged, ?_⟩
        cases brings <;> simp [ReconcileCall.mutated]

theorem Unasked.of_step (unasked : Unasked state) (stepped : step rules state act = some next) :
    Unasked next := by
  cases act with
  | interfere cache => cases stepped; exact ⟨unasked.cancelled, unasked.idle⟩
  | cancel => cases stepped; exact ⟨rfl, unasked.idle⟩
  | shutDown =>
      simp only [step] at stepped
      split at stepped
      · cases stepped; exact ⟨unasked.cancelled, .inr ⟨_, rfl⟩⟩
      · cases stepped
  | move motion answer =>
      rcases Option.map_eq_some_iff.mp stepped with ⟨⟨after, moved⟩, moves, rfl⟩
      rcases (ReconcileCall.effects_of_move moves).2 with
        ⟨next, rfl, rfl, advances⟩ | ⟨-, brings⟩
      · refine ⟨unasked.cancelled, .inr ?_⟩
        rw [unasked.cancelled] at advances
        generalize state.call.effects rules state.cache.store .advance = effects at advances
        have idle := unasked.idle
        generalize state.call.state = phase at advances idle
        cases advances with
        | ask wanted => cases wanted
        | refrain => exact ⟨_, rfl⟩
        | _ => rcases idle with waiting | ⟨error, complete⟩ <;> contradiction
      · rcases unasked.idle with waiting | ⟨error, complete⟩ <;> cases brings <;> simp_all

theorem Unasked.not_mutated (unasked : Unasked state) : state.call.mutated = false := by
  rcases unasked.idle with waiting | ⟨error, complete⟩
  · rw [ReconcileCall.mutated, waiting]
  · rw [ReconcileCall.mutated, complete]

/-- A reconcile whose token is cancelled before it has touched the cache leaves the store and the
snapshot alone from then on, whatever others do meanwhile, provided that it had not asked the source
yet or the source does not answer that the resource is gone. -/
theorem touches_eq_nil_of_cancelled {before after : List (UndertakingAct α ρ)}
    (ran : run rules (before ++ .cancel :: after) (start cache identity) = some state)
    (reached : run rules before (start cache identity) = some middle)
    (early : touches rules before (start cache identity) = [])
    (spared : middle.call.state = .starting ∨ state.call.answer ≠ some (.ok none)) :
    touches rules (before ++ .cancel :: after) (start cache identity) = [] := by
  have known := known_of_run reached
  rw [early] at known
  rcases Execution.run_append_eq_some.mp ran with ⟨_, again, continued⟩
  cases reached.symm.trans again
  rw [Execution.run_cons] at continued
  rcases Option.bind_eq_some_iff.mp continued with ⟨halted, cancelled, continued⟩
  cases cancelled
  have unchanged := known.reported.untouched.mp rfl
  have initially : Withheld rules { middle with call := { middle.call with cancelled := true } } :=
    ⟨rfl, known.logged, fun mutated => absurd (unchanged.symm.trans mutated) nofun⟩
  have withheld : Withheld rules state := Execution.run_invariant (Withheld rules) initially
    (fun _ _ _ withheld => withheld.of_step) continued
  apply (known_of_run ran).reported.untouched.mpr
  rcases spared with waiting | present
  · have initially : Unasked { middle with call := { middle.call with cancelled := true } } :=
      ⟨rfl, .inl waiting⟩
    have unasked : Unasked state := Execution.run_invariant Unasked initially
      (fun _ _ _ unasked => unasked.of_step) continued
    exact unasked.not_mutated
  · cases mutated : state.call.mutated with
    | false => rfl
    | true => exact absurd (withheld.gone mutated) present

def accepting : List (UndertakingAct String String) :=
  [.move .advance (.ok none), .move .answer (.ok (some "new")), .move .advance (.ok none)]

theorem touches_eq_nil_of_cancelled_compiling :
    ∃ middle state,
      run .plain accepting (start (.holding [(⟨"a"⟩, "old")]) ⟨"a"⟩) = some middle ∧
      middle.call.state = .compiling "new" ∧
      run .plain (accepting ++ .cancel :: [.move .compile (.ok none), .move .advance (.ok none)])
        (start (.holding [(⟨"a"⟩, "old")]) ⟨"a"⟩) = some state ∧
      touches .plain
        (accepting ++ .cancel :: [.move .compile (.ok none), .move .advance (.ok none)])
        (start (.holding [(⟨"a"⟩, "old")]) ⟨"a"⟩) = [] := by
  rcases (⟨_, rfl⟩ : ∃ middle,
    run .plain accepting (start (.holding [(⟨"a"⟩, "old")]) ⟨"a"⟩) = some middle) with
      ⟨middle, reached⟩
  rcases (⟨_, rfl⟩ : ∃ state,
    run .plain (accepting ++ .cancel :: [.move .compile (.ok none), .move .advance (.ok none)])
      (start (.holding [(⟨"a"⟩, "old")]) ⟨"a"⟩) = some state) with ⟨state, ran⟩
  have answered : state.call.answer ≠ some (.ok none) := by
    cases ran
    exact nofun
  exact ⟨middle, state, reached, Option.some.inj reached ▸ rfl, ran,
    touches_eq_nil_of_cancelled ran reached rfl (.inr answered)⟩

/-- A reconcile that is cancelled while the source is being asked, and is then told that the resource
is gone, removes the policy. -/
theorem removes_though_cancelled :
    ∃ middle state,
      run .plain [.move .advance (.ok none)] (start (.holding [(⟨"a"⟩, "old")]) ⟨"a"⟩) =
        some middle ∧
      middle.call.state = .fetching ∧
      run .plain ([.move .advance (.ok none)] ++ .cancel ::
          [.move .answer (.ok none), .move .advance (.ok none)])
        (start (.holding [(⟨"a"⟩, "old")]) ⟨"a"⟩) = some state ∧
      state.call.state = .ended (.ok .removed) ∧ state.cache.store.contains ⟨"a"⟩ = false ∧
      touches .plain [.move .advance (.ok none)] (start (.holding [(⟨"a"⟩, "old")]) ⟨"a"⟩) = [] ∧
      touches .plain ([.move .advance (.ok none)] ++ .cancel ::
          [.move .answer (.ok none), .move .advance (.ok none)])
        (start (.holding [(⟨"a"⟩, "old")]) ⟨"a"⟩) =
          [⟨some ⟨"old", none⟩, [.remove ⟨"a"⟩, .invalidate]⟩] :=
  ⟨_, _, rfl, rfl, rfl, rfl, rfl, rfl, rfl⟩

end PolicyWarden.Undertaking
