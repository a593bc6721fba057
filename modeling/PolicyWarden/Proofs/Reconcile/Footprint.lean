import PolicyWarden.Proofs.Reconcile.Effects

/-!
What one reconcile does to a cache that it shares with others. These may do with the cache what they
like between its steps, and it may be cancelled at any time. It touches the store in its last step
if it touches it at all, then makes the snapshot stale, and its result tells which of this it has
done. `Reported` says so of the effects that it brings about, `Performed` of the caches that its
moves find and leave; `touches_reported` is the main statement.
-/

namespace PolicyWarden

variable {α ρ : Type}

structure Undertaking (α ρ : Type) where
  cache : Cache ρ
  call : ReconcileCall α ρ

inductive UndertakingAct (α ρ : Type) where
  /-- Somebody else leaves the cache like this. -/
  | interfere (cache : Cache ρ)
  | move (motion : Reconcile.Motion) (answer : Answer α)
  | cancel
  /-- The runtime ends before the compiler has come to a verdict. -/
  | shutDown

/-- A move that touched the cache: the entry that the identity had, and what was done apart from
counting. -/
structure Touch (ρ : Type) where
  entry : Option (Entry ρ)
  effects : List (Effect ρ)

namespace Undertaking

def step (rules : Rules α ρ) (state : Undertaking α ρ) : UndertakingAct α ρ → Option (Undertaking α ρ)
  | .interfere cache => some { state with cache }
  | .move motion answer =>
      (state.call.move rules answer state.cache motion).map fun (cache, call) => { cache, call }
  | .cancel => some { state with call := { state.call with cancelled := true } }
  | .shutDown =>
      match state.call.state with
      | .compiling _ =>
          some { state with call := { state.call with
            state := .ended (.error (.cancelled state.call.identity)) } }
      | _ => none

def start (cache : Cache ρ) (identity : Identity) : Undertaking α ρ :=
  { cache, call := { identity } }

abbrev run (rules : Rules α ρ) (acts : List (UndertakingAct α ρ)) (state : Undertaking α ρ) :
    Option (Undertaking α ρ) :=
  Execution.run (step rules) acts state

def touching (rules : Rules α ρ) (state : Undertaking α ρ) : UndertakingAct α ρ → List (Touch ρ)
  | .move motion _ =>
      match (state.call.effects rules state.cache.store motion).filter Effect.touches with
      | [] => []
      | effects => [⟨state.cache.store.find? state.call.identity, effects⟩]
  | _ => []

def touches (rules : Rules α ρ) (acts : List (UndertakingAct α ρ)) (state : Undertaking α ρ) :
    List (Touch ρ) :=
  Execution.observed (step rules) (touching rules) acts state

/-- The cache as a move of the reconcile found it and as it left it. -/
structure Passage (ρ : Type) where
  found : Cache ρ
  left : Cache ρ

namespace Passage

structure Spares (passage : Passage ρ) : Prop where
  store : passage.left.store = passage.found.store
  generation : passage.left.generation = passage.found.generation
  invalidations :
    passage.left.counters.invalidations = passage.found.counters.invalidations

/-- The identity has this entry now, or none; the others have what they had; and the snapshot was
made stale once. -/
structure Puts (passage : Passage ρ) (identity : Identity) (entry : Option (Entry ρ)) : Prop where
  own : passage.left.store.find? identity = entry
  others : ∀ other, other ≠ identity →
    passage.left.store.find? other = passage.found.store.find? other
  generation : passage.left.generation = passage.found.generation + 1
  invalidations :
    passage.left.counters.invalidations = passage.found.counters.invalidations + 1

/-- The last of these moves does this to the cache, and no other does anything to it. -/
def LastOnly (passages : List (Passage ρ)) (change : Passage ρ → Prop) : Prop :=
  ∃ earlier last, passages = earlier ++ [last] ∧ (∀ passage ∈ earlier, passage.Spares) ∧ change last

variable {passages earlier : List (Passage ρ)} {change : Passage ρ → Prop}

theorem LastOnly.imp {weaker : Passage ρ → Prop} (only : LastOnly passages change)
    (follows : ∀ passage, change passage → weaker passage) : LastOnly passages weaker := by
  rcases only with ⟨earlier, last, split, calm, changes⟩
  exact ⟨earlier, last, split, calm, follows last changes⟩

theorem LastOnly.append (spared : ∀ passage ∈ earlier, passage.Spares)
    (only : LastOnly passages change) : LastOnly (earlier ++ passages) change := by
  rcases only with ⟨middle, last, rfl, calm, changes⟩
  refine ⟨earlier ++ middle, last, (List.append_assoc _ _ _).symm, ?_, changes⟩
  intro passage member
  exact (List.mem_append.mp member).elim (spared passage) (calm passage)

end Passage

def moving (rules : Rules α ρ) (state : Undertaking α ρ) :
    UndertakingAct α ρ → List (Passage ρ)
  | .move motion answer =>
      ((step rules state (.move motion answer)).map fun next => ⟨state.cache, next.cache⟩).toList
  | _ => []

def passages (rules : Rules α ρ) (acts : List (UndertakingAct α ρ)) (state : Undertaking α ρ) :
    List (Passage ρ) :=
  Execution.observed (step rules) (moving rules) acts state

/-- What a reconcile has done to the cache is what it says. Only one that has changed the store has
touched the cache, and it has done so once: it has changed its own entry and made the snapshot stale
after that. -/
structure Reported (rules : Rules α ρ) (call : ReconcileCall α ρ) (touches : List (Touch ρ)) :
    Prop where
  untouched : touches = [] ↔ call.mutated = false
  upserted : call.state = .ended (.ok .upserted) → ∃ resource policy entry,
    call.answer = some (.ok (some resource)) ∧
    rules.compile call.identity resource = .accepted policy ∧
    touches = [⟨entry,
      [.upsert call.identity policy (rules.revision resource), .invalidate]⟩]
  removed : call.state = .ended (.ok .removed) → ∃ entry, call.answer = some (.ok none) ∧
    touches = [⟨some entry, [.remove call.identity, .invalidate]⟩]
  evicted : ∀ errors, call.state = .ended (.ok (.rejected errors true)) → ∃ resource entry,
    call.answer = some (.ok (some resource)) ∧
    rules.compile call.identity resource = .refused errors ∧ rules.onRefusal = .evict ∧
    touches = [⟨some entry, [.remove call.identity, .invalidate]⟩]

/-- What has become of the cache in the moves of a reconcile is what it says. Only one that reports a
change has changed anything, and only in its last move. -/
structure Performed (rules : Rules α ρ) (call : ReconcileCall α ρ) (passages : List (Passage ρ)) :
    Prop where
  spared : call.mutated = false → ∀ passage ∈ passages, passage.Spares
  upserted : call.state = .ended (.ok .upserted) → ∃ resource policy,
    call.answer = some (.ok (some resource)) ∧
    rules.compile call.identity resource = .accepted policy ∧
    Passage.LastOnly passages fun last =>
      last.Puts call.identity (some ⟨policy, rules.revision resource⟩)
  taken : (call.state = .ended (.ok .removed) ∨
      ∃ errors, call.state = .ended (.ok (.rejected errors true))) →
    Passage.LastOnly passages fun last =>
      last.found.store.contains call.identity = true ∧ last.Puts call.identity none

variable {rules : Rules α ρ} {cache : Cache ρ} {identity : Identity}
  {acts : List (UndertakingAct α ρ)} {state next : Undertaking α ρ} {act : UndertakingAct α ρ}

theorem Reported.of_not_mutated {call : ReconcileCall α ρ} (unchanged : call.mutated = false) :
    Reported rules call [] where
  untouched := ⟨fun _ => unchanged, fun _ => rfl⟩
  upserted ended := by simp [ReconcileCall.mutated, ended, Outcome.mutated] at unchanged
  removed ended := by simp [ReconcileCall.mutated, ended, Outcome.mutated] at unchanged
  evicted errors ended := by simp [ReconcileCall.mutated, ended, Outcome.mutated] at unchanged

theorem Reported.of_upserted {call : ReconcileCall α ρ} {resource : α} {policy : ρ}
    {entry : Option (Entry ρ)} (ended : call.state = .ended (.ok .upserted))
    (answered : call.answer = some (.ok (some resource)))
    (accepted : rules.compile call.identity resource = .accepted policy) :
    Reported rules call
      [⟨entry, [.upsert call.identity policy (rules.revision resource), .invalidate]⟩] where
  untouched := by simp [ReconcileCall.mutated, ended, Outcome.mutated]
  upserted _ := ⟨resource, policy, entry, answered, accepted, rfl⟩
  removed other := by simp [ended] at other
  evicted errors other := by simp [ended] at other

theorem Reported.of_removed {call : ReconcileCall α ρ} {entry : Entry ρ}
    (ended : call.state = .ended (.ok .removed)) (answered : call.answer = some (.ok none)) :
    Reported rules call [⟨some entry, [.remove call.identity, .invalidate]⟩] where
  untouched := by simp [ReconcileCall.mutated, ended, Outcome.mutated]
  upserted other := by simp [ended] at other
  removed _ := ⟨entry, answered, rfl⟩
  evicted errors other := by simp [ended] at other

theorem Reported.of_evicted {call : ReconcileCall α ρ} {resource : α} {entry : Entry ρ}
    {errors : List CompileError} (ended : call.state = .ended (.ok (.rejected errors true)))
    (answered : call.answer = some (.ok (some resource)))
    (refused : rules.compile call.identity resource = .refused errors)
    (evicts : rules.onRefusal = .evict) :
    Reported rules call [⟨some entry, [.remove call.identity, .invalidate]⟩] where
  untouched := by simp [ReconcileCall.mutated, ended, Outcome.mutated]
  upserted other := by simp [ended] at other
  removed other := by simp [ended] at other
  evicted others other := by
    cases ended.symm.trans other
    exact ⟨resource, entry, answered, refused, evicts, rfl⟩

theorem Reported.of_going {call : ReconcileCall α ρ} {touches : List (Touch ρ)}
    (reported : Reported rules call touches) (going : call.state.isOver = false) : touches = [] :=
  reported.untouched.mpr (ReconcileCall.not_mutated_of_going going)

/-- What is known of a reconcile and of the run so far. -/
structure Known (rules : Rules α ρ) (identity : Identity) (touches : List (Touch ρ))
    (state : Undertaking α ρ) : Prop where
  own : state.call.identity = identity
  logged : state.call.Logged rules
  reported : Reported rules state.call touches

theorem Known.of_move {touched : List (Touch ρ)} (known : Known rules identity touched state)
    {motion : Reconcile.Motion} {answer : Answer α}
    (stepped : step rules state (.move motion answer) = some next) :
    Known rules identity (touched ++ touching rules state (.move motion answer)) next := by
  rcases Option.map_eq_some_iff.mp stepped with ⟨⟨after, moved⟩, moves, rfl⟩
  have own := (ReconcileCall.identity_of_move moves).trans known.own
  have logged := ReconcileCall.logged_move known.logged moves
  refine ⟨own, logged, ?_⟩
  rw [known.reported.of_going (ReconcileCall.going_of_move moves), List.nil_append]
  rcases (ReconcileCall.effects_of_move moves).2 with
    ⟨next, rfl, rfl, advances⟩ | ⟨none, brings⟩
  · simp only [touching]
    generalize state.call.effects rules state.cache.store .advance = effects at advances
    generalize source : state.call.state = phase at advances
    cases advances with
    | removed present =>
        rcases Option.isSome_iff_exists.mp present with ⟨entry, found⟩
        rw [found]
        exact .of_removed rfl (by simpa [ReconcileCall.Logged, source] using known.logged)
    | upserted resource policy wanted =>
        rcases known.logged.compiled source (by simp) with ⟨answered, accepted⟩
        exact .of_upserted rfl answered accepted
    | evicted resource errors wanted evicts present =>
        rcases Option.isSome_iff_exists.mp present with ⟨entry, found⟩
        rw [found]
        rcases known.logged.compiled source (by simp) with ⟨answered, refused⟩
        exact .of_evicted rfl answered refused evicts
    | _ => exact .of_not_mutated rfl
  · simp only [touching, none, List.filter_nil]
    cases brings <;> exact .of_not_mutated rfl

theorem Known.of_step {touched : List (Touch ρ)} (known : Known rules identity touched state)
    (stepped : step rules state act = some next) :
    Known rules identity (touched ++ touching rules state act) next := by
  cases act with
  | move motion answer => exact known.of_move stepped
  | interfere cache =>
      cases stepped
      simp only [touching, List.append_nil]
      exact ⟨known.own, known.logged, known.reported⟩
  | cancel =>
      cases stepped
      simp only [touching, List.append_nil]
      have reported := known.reported
      exact ⟨known.own, known.logged, reported.untouched, reported.upserted, reported.removed,
        reported.evicted⟩
  | shutDown =>
      simp only [step] at stepped
      split at stepped
      · next resource compiling =>
          cases stepped
          rw [known.reported.of_going (by rw [compiling]; rfl)]
          exact ⟨known.own, trivial, .of_not_mutated rfl⟩
      · cases stepped

theorem known_start (rules : Rules α ρ) (cache : Cache ρ) (identity : Identity) :
    Known rules identity [] (start cache identity) where
  own := rfl
  logged := trivial
  reported := .of_not_mutated rfl

theorem known_of_run (ran : run rules acts (start cache identity) = some state) :
    Known rules identity (touches rules acts (start cache identity)) state := by
  refine Execution.run_history (fun acts state =>
    Known rules identity (touches rules acts (start cache identity)) state)
    (known_start rules cache identity) ?_ ran
  intro acts act state next reached known stepped
  have noted : touches rules (acts ++ [act]) (start cache identity) =
      touches rules acts (start cache identity) ++ touching rules state act :=
    Execution.observed_concat reached stepped
  rw [noted]
  exact known.of_step stepped

namespace Performed

variable {call : ReconcileCall α ρ} {passages earlier : List (Passage ρ)} {passage : Passage ρ}

theorem of_not_mutated (unchanged : call.mutated = false)
    (spared : ∀ passage ∈ passages, passage.Spares) : Performed rules call passages where
  spared _ := spared
  upserted ended := by simp [ReconcileCall.mutated, ended, Outcome.mutated] at unchanged
  taken ended := by
    rcases ended with ended | ⟨errors, ended⟩ <;>
      simp [ReconcileCall.mutated, ended, Outcome.mutated] at unchanged

theorem of_upserted {resource : α} {policy : ρ} (ended : call.state = .ended (.ok .upserted))
    (answered : call.answer = some (.ok (some resource)))
    (accepted : rules.compile call.identity resource = .accepted policy)
    (puts : passage.Puts call.identity (some ⟨policy, rules.revision resource⟩)) :
    Performed rules call [passage] where
  spared unchanged := by simp [ReconcileCall.mutated, ended, Outcome.mutated] at unchanged
  upserted _ := ⟨resource, policy, answered, accepted, [], passage, rfl, nofun, puts⟩
  taken other := by simp [ended] at other

theorem of_taken (mutated : call.mutated = true)
    (other : call.state ≠ .ended (.ok .upserted))
    (present : passage.found.store.contains call.identity = true)
    (puts : passage.Puts call.identity none) : Performed rules call [passage] where
  spared unchanged := absurd (unchanged.symm.trans mutated) nofun
  upserted ended := absurd ended other
  taken _ := ⟨[], passage, rfl, nofun, present, puts⟩

theorem append (performed : Performed rules call passages)
    (spared : ∀ passage ∈ earlier, passage.Spares) :
    Performed rules call (earlier ++ passages) where
  spared unchanged passage member :=
    (List.mem_append.mp member).elim (spared passage) (performed.spared unchanged passage)
  upserted ended := by
    rcases performed.upserted ended with ⟨resource, policy, answered, accepted, only⟩
    exact ⟨resource, policy, answered, accepted, only.append spared⟩
  taken ended := (performed.taken ended).append spared

theorem puts_of_mutated (performed : Performed rules call passages)
    (mutated : call.mutated = true) :
    ∃ entry, Passage.LastOnly passages fun last => last.Puts call.identity entry := by
  unfold ReconcileCall.mutated at mutated
  split at mutated
  · next outcome ended =>
      cases outcome with
      | upserted =>
          rcases performed.upserted ended with ⟨resource, policy, -, -, only⟩
          exact ⟨_, only⟩
      | removed => exact ⟨none, (performed.taken (.inl ended)).imp fun _ => And.right⟩
      | rejected errors evicted =>
          cases mutated
          exact ⟨none, (performed.taken (.inr ⟨errors, ended⟩)).imp fun _ => And.right⟩
      | absent | unchanged => cases mutated
  · cases mutated

theorem others (performed : Performed rules call passages) (member : passage ∈ passages)
    {other : Identity} (different : other ≠ call.identity) :
    passage.left.store.find? other = passage.found.store.find? other := by
  cases mutated : call.mutated with
  | false => rw [(performed.spared mutated passage member).store]
  | true =>
      rcases performed.puts_of_mutated mutated with ⟨entry, earlier, last, rfl, calm, puts⟩
      rcases List.mem_append.mp member with before | latest
      · rw [(calm passage before).store]
      · cases List.mem_singleton.mp latest
        exact puts.others other different

end Performed

theorem performed_of_move {motion : Reconcile.Motion} {answer : Answer α}
    (logged : state.call.Logged rules)
    (stepped : step rules state (.move motion answer) = some next) :
    Performed rules next.call [⟨state.cache, next.cache⟩] := by
  rcases Option.map_eq_some_iff.mp stepped with ⟨⟨after, moved⟩, moves, rfl⟩
  have others (other : Identity) (different : other ≠ state.call.identity) :
      after.store.find? other = state.cache.store.find? other := by
    rw [(ReconcileCall.effects_of_move moves).1]
    exact Cache.find?_commit_of_ne (ReconcileCall.concern_of_move moves) different
  rcases ReconcileCall.effects_of_move moves with
    ⟨rfl, ⟨next, rfl, rfl, advances⟩ | ⟨none, brings⟩⟩
  · generalize state.call.effects rules state.cache.store .advance = effects at advances others
    generalize source : state.call.state = phase at advances
    cases advances with
    | removed present =>
        exact .of_taken rfl (by simp) present ⟨by simp [Reconcile.removal], others, rfl, rfl⟩
    | upserted resource policy wanted =>
        rcases logged.compiled source (by simp) with ⟨answered, accepted⟩
        exact .of_upserted rfl answered accepted ⟨by simp, others, rfl, rfl⟩
    | evicted resource errors wanted evicts present =>
        exact .of_taken rfl (by simp) present ⟨by simp [Reconcile.removal], others, rfl, rfl⟩
    | _ => exact .of_not_mutated rfl (List.forall_mem_singleton.mpr ⟨rfl, rfl, rfl⟩)
  · rw [none]
    cases brings <;> exact .of_not_mutated rfl (List.forall_mem_singleton.mpr ⟨rfl, rfl, rfl⟩)

theorem performed_of_run (ran : run rules acts (start cache identity) = some state) :
    Performed rules state.call (passages rules acts (start cache identity)) := by
  refine Execution.run_history (fun acts state =>
    Performed rules state.call (passages rules acts (start cache identity)))
    (.of_not_mutated rfl nofun) ?_ ran
  intro acts act state next reached performed stepped
  have noted : passages rules (acts ++ [act]) (start cache identity) =
      passages rules acts (start cache identity) ++ moving rules state act :=
    Execution.observed_concat reached stepped
  rw [noted]
  cases act with
  | move motion answer =>
      rcases Option.map_eq_some_iff.mp stepped with ⟨⟨after, moved⟩, moves, rfl⟩
      have before := performed.spared
        (ReconcileCall.not_mutated_of_going (ReconcileCall.going_of_move moves))
      simp only [moving, stepped, Option.map_some, Option.toList_some]
      exact (performed_of_move (known_of_run reached).logged stepped).append before
  | interfere =>
      cases stepped
      simp only [moving, List.append_nil]
      exact performed
  | cancel =>
      cases stepped
      simp only [moving, List.append_nil]
      exact ⟨performed.spared, performed.upserted, performed.taken⟩
  | shutDown =>
      simp only [step] at stepped
      split at stepped
      · next resource compiling =>
          cases stepped
          simp only [moving, List.append_nil]
          have unchanged : state.call.mutated = false := by rw [ReconcileCall.mutated, compiling]
          exact .of_not_mutated rfl (performed.spared unchanged)
      · cases stepped

/-- Whatever others do with the cache meanwhile, a reconcile has touched it as its result says, at
any point and also when it failed, was cancelled or came to no result. Without a result that reports
a change, every move has left the store and the generation as it found them. With one, this holds of
all moves but the last: it has stored the compiled policy with the revision of the resource that was
fetched, or has taken away the policy that was there, as the one change of the store, and after that
has raised the generation by one. No move changes the entry of another identity. -/
theorem touches_reported (ran : run rules acts (start cache identity) = some state) :
    Reported rules state.call (touches rules acts (start cache identity)) ∧
      Performed rules state.call (passages rules acts (start cache identity)) ∧
      state.call.identity = identity ∧
      ∀ passage ∈ passages rules acts (start cache identity), ∀ other, other ≠ identity →
        passage.left.store.find? other = passage.found.store.find? other := by
  have known := known_of_run ran
  have performed := performed_of_run ran
  refine ⟨known.reported, performed, known.own, ?_⟩
  intro passage member other different
  exact performed.others member (known.own ▸ different)

/-- While the resource is compiled, others replace its policy and store another one. -/
def replacedMeanwhile : List (UndertakingAct String String) :=
  [.move .advance (.ok none), .move .answer (.ok (some "")), .move .advance (.ok none),
    .interfere (.holding [(⟨"a"⟩, "newer"), (⟨"b"⟩, "other")]), .move .compile (.ok none),
    .move .advance (.ok none)]

theorem touches_reported_replacedMeanwhile :
    ∃ state last, run (.plain .evict) replacedMeanwhile (start (.holding [(⟨"a"⟩, "old")]) ⟨"a"⟩) =
        some state ∧
      state.call.state = .ended (.ok (.rejected [] true)) ∧
      (∃ entry, touches (.plain .evict) replacedMeanwhile
        (start (.holding [(⟨"a"⟩, "old")]) ⟨"a"⟩) =
          [⟨some entry, [.remove ⟨"a"⟩, .invalidate]⟩]) ∧
      last ∈ passages (.plain .evict) replacedMeanwhile
        (start (.holding [(⟨"a"⟩, "old")]) ⟨"a"⟩) ∧
      last.found.store.contains ⟨"a"⟩ = true ∧ last.left.store.find? ⟨"a"⟩ = none ∧
      last.left.store.find? ⟨"b"⟩ = last.found.store.find? ⟨"b"⟩ ∧
      last.left.generation = last.found.generation + 1 ∧
      state.cache.store.find? ⟨"a"⟩ = none ∧
      state.cache.store.find? ⟨"b"⟩ = some ⟨"other", none⟩ ∧ state.cache.generation = 1 := by
  rcases (⟨_, rfl⟩ : ∃ state, run (.plain .evict) replacedMeanwhile
    (start (.holding [(⟨"a"⟩, "old")]) ⟨"a"⟩) = some state) with ⟨state, ran⟩
  have ended : state.call.state = .ended (.ok (.rejected [] true)) := Option.some.inj ran ▸ rfl
  rcases touches_reported ran with ⟨reported, performed, own, others⟩
  rcases reported.evicted [] ended with ⟨resource, entry, -, -, -, touched⟩
  rcases performed.taken (.inr ⟨[], ended⟩) with ⟨earlier, last, split, -, present, puts⟩
  have member : last ∈ passages (.plain .evict) replacedMeanwhile
      (start (.holding [(⟨"a"⟩, "old")]) ⟨"a"⟩) := by
    rw [split]
    exact List.mem_append_right _ (.head _)
  rw [own] at touched present puts
  have cache : state.cache.store.find? ⟨"a"⟩ = none ∧
      state.cache.store.find? ⟨"b"⟩ = some ⟨"other", none⟩ ∧ state.cache.generation = 1 :=
    Option.some.inj ran ▸ ⟨rfl, rfl, rfl⟩
  exact ⟨state, last, ran, ended, ⟨entry, touched⟩, member, present, puts.own,
    others last member ⟨"b"⟩ (by decide), puts.generation, cache⟩

end Undertaking

end PolicyWarden
