import PolicyWarden.Proofs.Reconcile.Concurrent
import PolicyWarden.Proofs.Snapshot.Passage

/-!
Memoized reads between reconciles. Every reconcile that changes the store makes the snapshot stale
in the same step, and no other does. So the generation counts the changes, and a snapshot of the
current generation was taken when the store was what it is now: a reader gets what it would get if
it sorted the store itself, and the store is sorted again only if it was changed meanwhile.
-/

namespace PolicyWarden

variable {α ρ : Type}

namespace Cache

theorem policiesFor_cases (cache : Cache ρ) :
    (∃ snapshot, cache.published = some snapshot ∧ snapshot.generation = cache.generation ∧
        cache.policiesFor false = (.ok snapshot.policies, cache.record .hit)) ∨
      ((∀ snapshot, cache.published = some snapshot → snapshot.generation ≠ cache.generation) ∧
        cache.policiesFor false = (.ok cache.store.sortedPolicies,
          (cache.publish cache.generation cache.store.sortedPolicies).2.record .recompute)) := by
  cases found : cache.publishedAt? cache.generation with
  | some snapshot =>
      rcases Reading.published_of_publishedAt found with ⟨published, current⟩
      exact .inl ⟨snapshot, published, current, by simp [policiesFor, read, found]⟩
  | none =>
      have outdated := Reader.ne_of_publishedAt_eq_none found
      exact .inr ⟨outdated, by simp [policiesFor, read, found, publish]⟩

theorem generation_policiesFor (cache : Cache ρ) (cancelled : Bool) :
    (cache.policiesFor cancelled).2.generation = cache.generation := by
  cases cancelled with
  | true => rfl
  | false =>
      rcases cache.policiesFor_cases with ⟨snapshot, -, -, hit⟩ | ⟨-, recomputed⟩
      · rw [hit]; rfl
      · rw [recomputed]; rfl

end Cache

namespace ReconcileCall

variable {rules : Rules α ρ} {answer : Answer α} {cache after : Cache ρ}
  {call moved : ReconcileCall α ρ}

theorem memo_of_move {motion : Reconcile.Motion}
    (moves : call.move rules answer cache motion = some (after, moved)) :
    after.published = cache.published ∧
      after.generation = cache.generation + (if moved.mutated then 1 else 0) ∧
      (moved.mutated = false → after.store = cache.store) := by
  rcases move_cases moves with
    ⟨effects, next, rfl, rfl, advances⟩ | ⟨rfl, -, rfl⟩ | ⟨rfl, -, -, rfl⟩ |
      ⟨resource, verdict, rfl, -, rfl, -⟩
  · generalize source : call.state = state at advances
    cases advances with
    | removed | upserted | evicted => exact ⟨rfl, rfl, nofun⟩
    | _ => exact ⟨rfl, (UInt64.add_zero _).symm, fun _ => rfl⟩
  · exact ⟨rfl, (UInt64.add_zero _).symm, fun _ => rfl⟩
  · exact ⟨rfl, (UInt64.add_zero _).symm, fun _ => rfl⟩
  · exact ⟨rfl, (UInt64.add_zero _).symm, fun _ => rfl⟩

end ReconcileCall

namespace Reconciling

def mutations (ended : List (ReconcileCall α ρ)) : Nat :=
  ended.countP ReconcileCall.mutated

def memoized (state : Reconciling α ρ) : ReconcileAct α → List (Except ReadError (List ρ))
  | .read cancelled => [(state.cache.policiesFor cancelled).1]
  | _ => []

def sortedAnew (state : Reconciling α ρ) : ReconcileAct α → List (Except ReadError (List ρ))
  | .read cancelled =>
      [if cancelled then .error .cancelled else .ok state.cache.store.sortedPolicies]
  | _ => []

def EndedSinceRead (rules : Rules α ρ) (answers : Identity → Answer α)
    (acts : List (ReconcileAct α)) (state : Reconciling α ρ)
    (recent : List (ReconcileCall α ρ)) : Prop :=
  ∃ before since middle, acts = before ++ .read false :: since ∧ .read false ∉ since ∧
    run rules before (start answers) = some middle ∧ state.ended = recent ++ middle.ended

variable {rules : Rules α ρ} {answers : Identity → Answer α} {acts : List (ReconcileAct α)}
  {act : ReconcileAct α} {state next : Reconciling α ρ} {recent : List (ReconcileCall α ρ)}

theorem ended_of_step (stepped : step rules state act = some next) :
    ∃ latest, next.ended = latest ++ state.ended ∧
      next.cache.generation = state.cache.generation + UInt64.ofNat (mutations latest) ∧
      (mutations latest = 0 → next.cache.store = state.cache.store) ∧
      (act ≠ .read false → next.cache.published = state.cache.published) := by
  cases act with
  | change identity answer =>
      cases stepped
      exact ⟨[], rfl, (UInt64.add_zero _).symm, fun _ => rfl, fun _ => rfl⟩
  | call identity =>
      cases stepped
      exact ⟨[], rfl, (UInt64.add_zero _).symm, fun _ => rfl, fun _ => rfl⟩
  | cancel ticket =>
      simp only [step, Option.bind_eq_bind, Option.bind_eq_some_iff] at stepped
      rcases stepped with ⟨call, -, equal⟩
      cases equal
      exact ⟨[], rfl, (UInt64.add_zero _).symm, fun _ => rfl, fun _ => rfl⟩
  | move ticket motion =>
      simp only [step, Option.bind_eq_bind, Option.bind_eq_some_iff] at stepped
      rcases stepped with ⟨call, -, ⟨cache, moved⟩, moves, equal⟩
      cases equal
      rcases ReconcileCall.memo_of_move moves with ⟨published, generation, kept⟩
      refine ⟨if moved.state.isOver then [moved] else [], ?_, ?_, ?_, fun _ => published⟩
      · split <;> rfl
      · cases mutated : moved.mutated with
        | true => simp [generation, mutated, ReconcileCall.isOver_of_mutated mutated, mutations]
        | false => split <;> simp [generation, mutated, mutations]
      · intro none
        apply kept
        cases mutated : moved.mutated with
        | true => simp [mutated, ReconcileCall.isOver_of_mutated mutated, mutations] at none
        | false => rfl
  | read cancelled =>
      cases stepped
      refine ⟨[], rfl, ?_, fun _ => Cache.store_policiesFor _ _, ?_⟩
      · exact (Cache.generation_policiesFor _ _).trans (UInt64.add_zero _).symm
      · intro different
        cases cancelled with
        | true => rfl
        | false => exact absurd rfl different

theorem mutations_append (latest earlier : List (ReconcileCall α ρ)) :
    mutations (latest ++ earlier) = mutations latest + mutations earlier :=
  List.countP_append

/-- The generation counts the calls that have changed the store, as far as it can. -/
theorem generation_eq (ran : run rules acts (start answers) = some state) :
    state.cache.generation = UInt64.ofNat (mutations state.ended) := by
  refine Execution.run_invariant
    (fun state => state.cache.generation = UInt64.ofNat (mutations state.ended)) rfl ?_ ran
  intro state act next counted stepped
  rcases ended_of_step stepped with ⟨latest, ended, generation, -, -⟩
  rw [generation, counted, ended, mutations_append, UInt64.ofNat_add]
  exact UInt64.add_comm _ _

/-- What is known of the published snapshot: there is none before the first read, and afterwards it
has the policies of the store, as long as no call has changed that since the latest read. -/
def Remembers (rules : Rules α ρ) (answers : Identity → Answer α) (acts : List (ReconcileAct α))
    (state : Reconciling α ρ) : Prop :=
  (.read false ∉ acts ∧ state.cache.published = none) ∨
    ∃ recent snapshot, EndedSinceRead rules answers acts state recent ∧
      state.cache.published = some snapshot ∧
      state.cache.generation = snapshot.generation + UInt64.ofNat (mutations recent) ∧
      (mutations recent = 0 → snapshot.policies = state.cache.store.sortedPolicies)

theorem EndedSinceRead.mutations_le (since : EndedSinceRead rules answers acts state recent) :
    mutations recent ≤ mutations state.ended := by
  rcases since with ⟨-, -, middle, -, -, -, ended⟩
  rw [ended, mutations_append]
  exact Nat.le_add_right _ _

structure Served (rules : Rules α ρ) (answers : Identity → Answer α) (acts : List (ReconcileAct α))
    (state : Reconciling α ρ) (occurrence : Occurrence) (snapshot : Snapshot ρ) : Prop where
  returned : (state.cache.policiesFor false).1 = .ok state.cache.store.sortedPolicies
  counted : (state.cache.policiesFor false).2.counters = state.cache.counters.record occurrence
  occasion : (.read false ∉ acts ∧ occurrence = .recompute) ∨
    ∃ recent, EndedSinceRead rules answers acts state recent ∧
      occurrence = if recent.any ReconcileCall.mutated then .recompute else .hit
  published : (state.cache.policiesFor false).2.published = some snapshot
  current : snapshot.generation = state.cache.generation
  policies : snapshot.policies = state.cache.store.sortedPolicies

theorem any_mutated_iff : recent.any ReconcileCall.mutated = true ↔ mutations recent ≠ 0 := by
  rw [mutations, List.any_eq_true, ← Nat.pos_iff_ne_zero, List.countP_pos_iff]

theorem Remembers.served (remembers : Remembers rules answers acts state)
    (few : mutations state.ended < 2 ^ 64) :
    ∃ occurrence snapshot, Served rules answers acts state occurrence snapshot := by
  rcases state.cache.policiesFor_cases with ⟨snapshot, published, current, hit⟩ | ⟨outdated, read⟩
  · -- A hit: the snapshot is of the current generation, so nothing was changed since it was taken.
    rcases remembers with ⟨-, none⟩ | ⟨recent, known, since, stored, generation, policies⟩
    · rw [none] at published
      cases published
    cases published.symm.trans stored
    have unchanged : mutations recent = 0 := by
      have bounded := Nat.lt_of_le_of_lt since.mutations_le few
      have zero : UInt64.ofNat (mutations recent) = UInt64.ofNat 0 :=
        UInt64.add_eq_left.mp (generation.symm.trans current.symm)
      exact Reading.ofNat_inj bounded (by decide) zero
    have policies := policies unchanged
    refine ⟨.hit, snapshot, ?returned, ?counted, .inr ⟨recent, since, ?occasion⟩, ?published,
      current, policies⟩
    case returned => rw [hit, policies]
    case counted => rw [hit]; rfl
    case published => rw [hit]; exact published
    case occasion =>
      have unmutated : ¬recent.any ReconcileCall.mutated = true := by
        rw [any_mutated_iff]
        exact absurd unchanged
      exact (if_neg unmutated).symm
  · refine ⟨.recompute, ⟨state.cache.generation, state.cache.issued, state.cache.store.sortedPolicies⟩,
      ?returned, ?counted, ?occasion, ?published, rfl, rfl⟩
    case returned => rw [read]
    case counted => rw [read]; rfl
    case published => rw [read]; rfl
    case occasion =>
      rcases remembers with ⟨first, -⟩ | ⟨recent, snapshot, since, stored, generation, -⟩
      · exact .inl ⟨first, rfl⟩
      · have changed : mutations recent ≠ 0 := by
          intro zero
          rw [zero] at generation
          exact outdated snapshot stored (generation.trans (UInt64.add_zero _)).symm
        exact .inr ⟨recent, since, (if_pos (any_mutated_iff.mpr changed)).symm⟩

theorem remembers_start (answers : Identity → Answer α) :
    Remembers rules answers [] (start answers) :=
  .inl ⟨nofun, rfl⟩

theorem Remembers.of_step (remembers : Remembers rules answers acts state)
    (few : mutations state.ended < 2 ^ 64) (ran : run rules acts (start answers) = some state)
    (stepped : step rules state act = some next) :
    Remembers rules answers (acts ++ [act]) next := by
  by_cases read : act = .read false
  · subst read
    cases stepped
    rcases remembers.served few with ⟨occurrence, snapshot, served⟩
    refine .inr ⟨[], snapshot, ⟨acts, [], state, rfl, nofun, ran, rfl⟩, served.published, ?_, ?_⟩
    · rw [Cache.generation_policiesFor, served.current]
      exact (UInt64.add_zero _).symm
    · intro _
      rw [Cache.store_policiesFor, served.policies]
  · rcases ended_of_step stepped with ⟨latest, ended, generation, kept, published⟩
    have published := published read
    rcases remembers with ⟨first, none⟩ | ⟨recent, snapshot, since, stored, counted, policies⟩
    · refine .inl ⟨?_, published.trans none⟩
      intro member
      rcases List.mem_append.mp member with old | new
      · exact first old
      · exact read (List.mem_singleton.mp new).symm
    · rcases since with ⟨before, since, middle, shape, last, reached, suffix⟩
      refine .inr ⟨latest ++ recent, snapshot, ⟨before, since ++ [act], middle, ?_, ?_, reached, ?_⟩,
        published.trans stored, ?_, ?_⟩
      · rw [shape, List.append_assoc, List.cons_append]
      · intro member
        rcases List.mem_append.mp member with old | new
        · exact last old
        · exact read (List.mem_singleton.mp new).symm
      · rw [ended, suffix, List.append_assoc]
      · rw [generation, counted, mutations_append, UInt64.ofNat_add, UInt64.add_assoc,
          UInt64.add_comm (UInt64.ofNat (mutations recent))]
      · intro none
        rw [mutations_append, Nat.add_eq_zero_iff] at none
        rw [kept none.1]
        exact policies none.2

theorem remembers_of_run (ran : run rules acts (start answers) = some state)
    (few : mutations state.ended < 2 ^ 64) : Remembers rules answers acts state := by
  refine Execution.run_history (fun acts state => mutations state.ended < 2 ^ 64 →
    Remembers rules answers acts state) (fun _ => remembers_start answers) ?_ ran few
  intro acts act state next reached remembers stepped few
  rcases ended_of_step stepped with ⟨latest, ended, -⟩
  rw [ended, mutations_append] at few
  have fewer : mutations state.ended < 2 ^ 64 := by omega
  exact (remembers fewer).of_step fewer reached stepped

theorem memoized_eq_sortedAnew (ran : run rules acts (start answers) = some state)
    (few : mutations state.ended < 2 ^ 64) :
    Execution.observed (step rules) memoized acts (start answers) =
      Execution.observed (step rules) sortedAnew acts (start answers) := by
  refine Execution.run_history (fun acts state => mutations state.ended < 2 ^ 64 →
    Execution.observed (step rules) memoized acts (start answers) =
      Execution.observed (step rules) sortedAnew acts (start answers)) (fun _ => rfl) ?_ ran few
  intro acts act state next reached equal stepped few
  rcases ended_of_step stepped with ⟨latest, ended, -⟩
  rw [ended, mutations_append] at few
  have fewer : mutations state.ended < 2 ^ 64 := by omega
  rw [Execution.observed_concat reached stepped, Execution.observed_concat reached stepped,
    equal fewer]
  congr 1
  cases act with
  | read cancelled =>
      cases cancelled with
      | true => rfl
      | false =>
          rcases (remembers_of_run reached fewer).served fewer with ⟨occurrence, snapshot, served⟩
          exact congrArg (fun result => [result]) served.returned
  | _ => rfl

/-- Whatever the reconciles have done, at their ends or in between, a reader of the memoizing cache
gets what it would get if it sorted the store itself. A read sorts the store again if it is the
first or a call has changed the store since the latest read, and is counted as a hit otherwise. A
cancelled read gets nothing and changes nothing. -/
theorem policiesFor_eq_sortedPolicies (ran : run rules acts (start answers) = some state)
    (few : mutations state.ended < 2 ^ 64) :
    Execution.observed (step rules) memoized acts (start answers) =
        Execution.observed (step rules) sortedAnew acts (start answers) ∧
      state.cache.policiesFor true = (.error .cancelled, state.cache) ∧
      (state.cache.policiesFor false).1 = .ok state.cache.store.sortedPolicies ∧
      ∃ occurrence,
        (state.cache.policiesFor false).2.counters = state.cache.counters.record occurrence ∧
        ((.read false ∉ acts ∧ occurrence = .recompute) ∨
          ∃ recent, EndedSinceRead rules answers acts state recent ∧
            occurrence = if recent.any ReconcileCall.mutated then .recompute else .hit) := by
  rcases (remembers_of_run ran few).served few with ⟨occurrence, snapshot, served⟩
  exact ⟨memoized_eq_sortedAnew ran few, rfl, served.returned, occurrence, served.counted,
    served.occasion⟩

/-- Two overlapping calls of one identity with reads in between: before the first has stored its
policy, after that while the second waits for its answer, and after the second has removed it. -/
def readBetween : List (ReconcileAct String) :=
  [.change ⟨"a"⟩ (.ok (some "one")), .call ⟨"a"⟩, .call ⟨"a"⟩, .move 0 .advance, .move 0 .answer,
    .read false, .move 0 .advance, .move 0 .compile, .move 0 .advance, .move 1 .advance,
    .read true, .read false, .change ⟨"a"⟩ (.ok none), .move 1 .answer, .read false,
    .move 1 .advance]

theorem policiesFor_eq_sortedPolicies_between :
    ∃ state : Reconciling String String,
      run .plain readBetween (start fun _ => .ok none) = some state ∧
        mutations state.ended = 2 ∧
        Execution.observed (step .plain) memoized readBetween (start fun _ => .ok none) =
          [.ok [], .error .cancelled, .ok ["one"], .ok ["one"]] ∧
        (state.cache.policiesFor false).1 = .ok [] := by
  rcases (⟨_, rfl⟩ : ∃ state, run .plain readBetween
    (start fun _ => .ok none : Reconciling String String) = some state) with ⟨state, ran⟩
  have mutations : mutations state.ended = 2 := Option.some.inj ran ▸ rfl
  have few : Reconciling.mutations state.ended < 2 ^ 64 := by
    rw [mutations]
    decide
  rcases policiesFor_eq_sortedPolicies ran few with ⟨equal, -, returned, -⟩
  refine ⟨state, ran, mutations, equal.trans ?_, returned.trans ?_⟩
  · cbv
  · cases ran
    cbv

end Reconciling

end PolicyWarden
