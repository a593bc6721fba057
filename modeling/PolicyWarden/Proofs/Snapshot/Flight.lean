import PolicyWarden.Proofs.Snapshot.Tally

/-!
One recomputation for all who wait. Readers that return a snapshot of one generation share it. Reads
that run while nobody makes the snapshot stale load one generation and so return one snapshot; it is
computed by one of them if the published one was missing or stale, and by none otherwise.
-/

namespace PolicyWarden

variable {ρ : Type}

namespace Reader

def At (generation : UInt64) : Reader ρ → Prop
  | .comparing loaded | .recomparing loaded | .tagging loaded | .sorted loaded _ =>
      loaded = generation
  | .issued snapshot | .releasing snapshot | .hitting snapshot _ | .finished snapshot =>
      snapshot.generation = generation
  | _ => True

namespace Passes

variable {cache after : Cache ρ} {reader moved : Reader ρ}

theorem at_generation (passes : Passes cache reader after moved)
    (known : reader.At cache.generation) : moved.At cache.generation := by
  cases passes with
  | load | reload | tag => rfl
  | hit | rehit | sort | publish | recompute | release | record | recordHolding => exact known
  | _ => trivial

theorem at_of_publishes {generation : UInt64} {snapshot : Snapshot ρ} (known : reader.At generation)
    (publishes : reader.publishes? cache = some snapshot) : snapshot.generation = generation := by
  cases reader with
  | sorted => cases publishes; exact known
  | _ => cases publishes

end Passes

end Reader

namespace Cache

def isFresh (cache : Cache ρ) : Bool :=
  (cache.publishedAt? cache.generation).isSome

theorem isFresh_iff {cache : Cache ρ} :
    cache.isFresh = true ↔
      ∃ snapshot, cache.published = some snapshot ∧ snapshot.generation = cache.generation := by
  rw [isFresh, Option.isSome_iff_exists]
  simp only [publishedAt?, Option.filter_eq_some_iff, beq_iff_eq]

end Cache

namespace Reading

variable {store : Store ρ} {acts reads : List (ReadAct ρ)} {state next before final : Reading ρ}
  {act : ReadAct ρ}

theorem Sequenced.eq_of_generation {snapshots : List (Snapshot ρ)} {left right : Snapshot ρ}
    (sequenced : Sequenced snapshots state) (leftMember : left ∈ snapshots)
    (rightMember : right ∈ snapshots) (same : left.generation = right.generation) :
    left = right := by
  rcases List.getElem_of_mem leftMember with ⟨first, firstInside, rfl⟩
  rcases List.getElem_of_mem rightMember with ⟨second, secondInside, rfl⟩
  have increasing := List.pairwise_iff_getElem.mp sequenced.increasing
  rcases Nat.lt_trichotomy first second with less | rfl | less
  · have older := increasing first second firstInside secondInside less
    rw [same] at older
    exact absurd older (UInt64.lt_irrefl _)
  · rfl
  · have older := increasing second first secondInside firstInside less
    rw [same] at older
    exact absurd older (UInt64.lt_irrefl _)

theorem Exclusive.idle_or_step (exclusive : Exclusive state) :
    Idle state ∨ ∃ number next, step state (.step number) = some next := by
  have steps {place : Nat} {reader : Reader ρ} (found : state.readers[place]? = some reader)
      (able : (reader.step state.cache).isSome = true) :
      ∃ number next, step state (.step number) = some next := by
    rcases Option.isSome_iff_exists.mp able with ⟨⟨cache, moved⟩, moves⟩
    refine ⟨place, { cache, readers := state.readers.set place moved }, ?_⟩
    simp [step, found, moves]
  by_cases idle : Idle state
  · exact .inl idle
  right
  simp only [Idle, not_forall] at idle
  rcases idle with ⟨reader, member, unfinished⟩
  rcases List.getElem?_of_mem member with ⟨place, found⟩
  rcases reader.isSome_step state.cache with able | finished | ⟨rfl, busy⟩
  · exact steps found able
  · exact absurd finished unfinished
  · -- The reader waits for the holder of the lock, who does not wait.
    rcases exclusive.owned busy with ⟨owner, holder, present, holds⟩
    rcases holder.isSome_step state.cache with able | ⟨snapshot, rfl⟩ | ⟨rfl, -⟩
    · exact steps present able
    · cases holds
    · cases holds

/-- What holds while the reads that were begun in `before` go on and nobody makes the snapshot stale:
the generation stays what it was, and all that they load and publish is of that generation. -/
structure Steady (before : Reading ρ) (reads : List (ReadAct ρ)) (state : Reading ρ) : Prop where
  generation : state.cache.generation = before.cache.generation
  published : ∀ snapshot ∈ publications reads before,
    snapshot.generation = before.cache.generation
  older : ∀ number, number < before.readers.length →
    state.readers[number]? = before.readers[number]?
  newer : ∀ (number : Nat) (reader : Reader ρ), before.readers.length ≤ number →
    state.readers[number]? = some reader → reader.At before.cache.generation
  count : state.readers.length = before.readers.length + beginnings reads

theorem steady_nil (before : Reading ρ) : Steady before [] before where
  generation := rfl
  published := nofun
  older := fun _ _ => rfl
  newer := by
    intro number reader outside found
    have := (List.getElem?_eq_some_iff.mp found).1
    omega
  count := rfl

theorem Steady.of_step (steady : Steady before reads state) (idle : Idle before)
    (ran : run reads before = some state) (calm : act.invalidates = false)
    (stepped : step state act = some next) : Steady before (reads ++ [act]) next := by
  have noted : publications (reads ++ [act]) before =
      publications reads before ++ publishes state act := Execution.observed_concat ran stepped
  have beginnings := beginnings_concat reads act
  cases act with
  | effect change =>
      cases stepped
      simp only [publishes, List.append_nil] at noted
      have generation := generation_perform state.cache change
      rw [calm, steady.generation] at generation
      refine ⟨by simpa using generation, noted ▸ steady.published, steady.older, steady.newer, ?_⟩
      rw [steady.count, beginnings]
      rfl
  | begin =>
      cases stepped
      simp only [publishes, List.append_nil] at noted
      simp only [ReadAct.begins, if_true] at beginnings
      refine ⟨steady.generation, noted ▸ steady.published, ?older, ?newer, ?count⟩
      case older =>
        intro number inside
        have longer : number < state.readers.length := by
          have := steady.count
          omega
        exact (List.getElem?_append_left longer).trans (steady.older number inside)
      case newer =>
        intro number moved outside found
        rcases getElem?_begun found with old | ⟨-, rfl⟩
        · exact steady.newer number moved outside old
        · trivial
      case count =>
        rw [List.length_append, List.length_singleton, steady.count, beginnings]
        omega
  | step number =>
      rcases passes_of_step stepped with ⟨mover, cache, moved, present, passes, rfl⟩
      simp only [ReadAct.begins, Bool.false_eq_true, if_false, Nat.add_zero] at beginnings
      simp only [publishes, present, Option.bind_some] at noted
      -- The reads of before are over, so the mover is one of those begun since.
      have outside : before.readers.length ≤ number := by
        apply Nat.le_of_not_lt
        intro inside
        have old := (steady.older number inside).symm.trans present
        rcases idle mover (List.mem_of_getElem? old) with ⟨snapshot, rfl⟩
        cases passes
      have known := steady.newer number mover outside present
      refine ⟨passes.generation_eq.trans steady.generation, ?published, ?older, ?newer, ?count⟩
      case published =>
        rw [noted]
        intro snapshot member
        rcases List.mem_append.mp member with old | new
        · exact steady.published snapshot old
        · exact Reader.Passes.at_of_publishes known (Option.mem_toList.mp new)
      case older =>
        intro place inside
        have different : number ≠ place := by omega
        exact (List.getElem?_set_ne different).trans (steady.older place inside)
      case newer =>
        intro place other beyond found
        rcases getElem?_moved found with ⟨-, rfl⟩ | ⟨-, old⟩
        · rw [← steady.generation] at known ⊢
          exact passes.at_generation known
        · exact steady.newer place other beyond old
      case count => rw [List.length_set, steady.count, beginnings]

theorem steady_of_run (idle : Idle before) (ran : run reads before = some final)
    (calm : invalidations reads = 0) : Steady before reads final := by
  refine Execution.run_history (fun reads state => invalidations reads = 0 →
    Steady before reads state) (fun _ => steady_nil before) ?_ ran calm
  intro reads act state next reached steady stepped calm
  rw [invalidations_concat, Nat.add_eq_zero_iff] at calm
  have quiet : act.invalidates = false := by simpa using calm.2
  exact (steady calm.1).of_step idle reached quiet stepped

theorem Steady.publications_cases (steady : Steady before reads state)
    (increasing : (publications reads before).Pairwise fun earlier later =>
      earlier.generation < later.generation) :
    publications reads before = [] ∨ ∃ snapshot, publications reads before = [snapshot] := by
  have generation := steady.published
  match publications reads before, increasing, generation with
  | [], _, _ => exact .inl rfl
  | [snapshot], _, _ => exact .inr ⟨snapshot, rfl⟩
  | first :: second :: rest, increasing, generation =>
      have less := List.rel_of_pairwise_cons increasing List.mem_cons_self
      rw [generation first (by simp), generation second (by simp)] at less
      exact absurd less (UInt64.lt_irrefl _)

/-- What some reads, begun in `before` and over in `final`, have come to: all return one snapshot,
and one of them has computed it unless there was one to return. -/
structure SingleFlight (before : Reading ρ) (reads : List (ReadAct ρ)) (final : Reading ρ)
    (shared : Snapshot ρ) : Prop where
  returned : ∀ (number : Nat) (reader : Reader ρ), before.readers.length ≤ number →
    final.readers[number]? = some reader → reader = .finished shared
  served : final.cache.published = some shared
  published : (publications reads before).length = if before.cache.isFresh then 0 else 1
  recomputed : tallied (tally reads before) .recompute = if before.cache.isFresh then 0 else 1
  hit : tallied (tally reads before) .hit =
    beginnings reads - if before.cache.isFresh then 0 else 1

theorem singleFlight_of_run (ran : run acts (start store) = some before)
    (few : invalidations acts < 2 ^ 64) (idle : Idle before)
    (goesOn : run reads before = some final) (calm : invalidations reads = 0)
    (completed : Idle final) (asked : 1 ≤ beginnings reads) :
    ∃ shared, SingleFlight before reads final shared := by
  have whole : run (acts ++ reads) (start store) = some final :=
    Execution.run_append_eq_some.mpr ⟨before, ran, goesOn⟩
  have fewer : invalidations (acts ++ reads) < 2 ^ 64 := by
    simp only [invalidations, List.countP_append] at calm few ⊢
    omega
  have earlier := sequenced_of_run ran few
  have sequenced := sequenced_of_run whole fewer
  have steady := steady_of_run idle goesOn calm
  have snapshots : publications (acts ++ reads) (start store) =
      publications acts (start store) ++ publications reads before :=
    Execution.observed_append ran reads
  have entries : tally (acts ++ reads) (start store) =
      tally acts (start store) ++ tally reads before := Execution.observed_append ran reads
  have increasing := sequenced.increasing
  rw [snapshots, List.pairwise_append] at increasing
  -- Whoever was begun has returned a snapshot of the one generation there was.
  have returns : ∀ (number : Nat) (reader : Reader ρ), before.readers.length ≤ number →
      final.readers[number]? = some reader → ∃ snapshot, reader = .finished snapshot ∧
        snapshot.generation = before.cache.generation ∧
        snapshot ∈ publications (acts ++ reads) (start store) := by
    intro number reader outside found
    rcases completed reader (List.mem_of_getElem? found) with ⟨snapshot, rfl⟩
    exact ⟨snapshot, rfl, steady.newer number _ outside found,
      sequenced.carried _ (List.mem_of_getElem? found) snapshot rfl⟩
  have first : ∃ reader, final.readers[before.readers.length]? = some reader := by
    have := steady.count
    exact ⟨_, List.getElem?_eq_getElem (by omega)⟩
  rcases first with ⟨reader, found⟩
  rcases returns _ reader (Nat.le_refl _) found with ⟨shared, rfl, current, member⟩
  have published : (publications reads before).length =
      if before.cache.isFresh then 0 else 1 := by
    rcases steady.publications_cases increasing.2.1 with none | ⟨snapshot, one⟩
    · -- The snapshot returned was published before, so it was there and not stale.
      have stored : shared ∈ publications acts (start store) := by
        rw [snapshots, none, List.append_nil] at member
        exact member
      have fresh : before.cache.isFresh = true :=
        Cache.isFresh_iff.mpr ⟨shared, earlier.published_of_current stored current, current⟩
      rw [none, fresh]
      rfl
    · -- A snapshot of the generation published before would not be older than this one.
      have new : snapshot ∈ publications reads before := one ▸ List.mem_singleton_self _
      have stale : ¬before.cache.isFresh = true := by
        intro fresh
        rcases Cache.isFresh_iff.mp fresh with ⟨old, stored, same⟩
        have less := increasing.2.2 old (earlier.mem_of_published stored) snapshot new
        rw [same, steady.published snapshot new] at less
        exact UInt64.lt_irrefl _ less
      rw [one, if_neg stale]
      rfl
  have counts : tallied (tally reads before) .recompute = (publications reads before).length ∧
      tallied (tally reads before) .hit + tallied (tally reads before) .recompute =
        beginnings reads := by
    have countsBefore := tallied_of_idle ran idle
    have countsAfter := tallied_of_idle whole completed
    rw [snapshots, entries, List.length_append, tallied_append, tallied_append] at countsAfter
    simp only [beginnings, List.countP_append] at countsBefore countsAfter ⊢
    omega
  refine ⟨shared, ?returned, ?served, published, counts.1.trans published, ?hit⟩
  case returned =>
    intro number reader outside found
    rcases returns number reader outside found with ⟨snapshot, rfl, same, known⟩
    rw [sequenced.eq_of_generation known member (same.trans current.symm)]
  case served =>
    exact sequenced.published_of_current member (current.trans steady.generation.symm)
  case hit =>
    have := counts.1.trans published
    omega

structure Served (store : Store ρ) (acts : List (ReadAct ρ)) (state : Reading ρ) : Prop where
  increasing : (publications acts (start store)).Pairwise fun earlier later =>
    earlier.generation < later.generation
  numbered : (publications acts (start store)).map Snapshot.serial =
    List.range (publications acts (start store)).length
  recomputed : tallied (tally acts (start store)) .recompute ≤
    (publications acts (start store)).length
  bounded : (publications acts (start store)).length ≤ 1 + invalidations acts
  counters : ∀ occurrence : Occurrence, occurrence.OfRead →
    state.cache.counters.count occurrence =
      UInt64.ofNat (tallied (tally acts (start store)) occurrence)
  once : ∀ (number : Nat) (snapshot : Snapshot ρ),
    state.readers[number]? = some (.finished snapshot) →
    ∃ occurrence : Occurrence, occurrence.OfRead ∧
      (tally acts (start store)).filter (·.1 = number) = [(number, occurrence)]
  shared : ∀ left right, .finished left ∈ state.readers → .finished right ∈ state.readers →
    left.generation = right.generation → left = right
  flight : Idle state → ∀ reads final, run reads state = some final → invalidations reads = 0 →
    (Idle final ∨ ∃ number next, step final (.step number) = some next) ∧
      reads.countP ReadAct.ofReader ≤ 11 * beginnings reads ∧
      (Idle final → 1 ≤ beginnings reads → ∃ returned, SingleFlight state reads final returned)

/-- Whatever readers and invalidations do in whatever order, no generation is sorted twice, every
read that is over was counted once, and reads that run together share one snapshot. -/
theorem served_of_run (ran : run acts (start store) = some state)
    (few : invalidations acts < 2 ^ 64) (silent : ∀ act ∈ acts, ¬act.CountsRead) :
    Served store acts state := by
  have sequenced := sequenced_of_run ran few
  have tallied := tallied_of_run ran
  refine ⟨sequenced.increasing, ?numbered, ?recomputed, length_publications_le ran few, ?counters,
    ?once, ?shared, ?flight⟩
  case numbered =>
    have length := congrArg List.length sequenced.numbered
    rw [List.length_map, List.length_range] at length
    rw [length]
    exact sequenced.numbered
  case recomputed =>
    have := tallied.recomputed
    omega
  case counters => exact fun occurrence ofRead => count_eq_tallied ran silent ofRead
  case once => exact fun number snapshot found => tallied.counted number _ found rfl
  case shared =>
    intro left right leftMember rightMember same
    exact sequenced.eq_of_generation (sequenced.carried _ leftMember left rfl)
      (sequenced.carried _ rightMember right rfl) same
  case flight =>
    intro idle reads final goesOn calm
    have whole := Execution.run_append_eq_some.mpr ⟨state, ran, goesOn⟩
    refine ⟨(exclusive_of_run whole).idle_or_step, ?_, ?_⟩
    · have bounded := countP_add_remaining_le goesOn
      rw [total_of_idle 0 idle fun _ => rfl] at bounded
      omega
    · exact fun completed asked => singleFlight_of_run ran few idle goesOn calm completed asked

/-- Two readers miss; while the first holds the lock and has sorted the store, a policy is stored
and the snapshot made stale. The second then finds what the first has published to be stale. -/
def contended : List (ReadAct String) :=
  [.begin, .begin, .step 0, .step 0, .step 1, .step 1, .step 0, .step 0, .step 0, .step 0, .step 0,
    .effect (.upsert ⟨"a"⟩ "one" none), .effect .invalidate, .step 0, .step 0, .step 0, .step 1,
    .step 1, .step 1, .step 1, .step 1, .step 1, .step 1, .step 1, .effect .invalidate]

def together : List (ReadAct String) :=
  [.begin, .begin, .step 2, .step 3, .step 2, .step 3, .begin, .step 3, .step 3, .step 3, .step 3,
    .step 3, .step 4, .step 4, .step 3, .step 3, .step 3, .step 4, .step 4, .step 4, .step 4,
    .step 4, .step 2, .step 2, .step 2, .step 2, .step 2]

theorem served_of_run_contended :
    ∃ state final shared, run contended (start ∅) = some state ∧ Served ∅ contended state ∧
      run together state = some final ∧ state.cache.isFresh = false ∧
      SingleFlight state together final shared ∧ beginnings together = 3 := by
  have course : ((run contended (start ∅)).any fun state => decide (Idle state) &&
      !state.cache.isFresh && (run together state).any fun final => decide (Idle final)) = true := by
    decide +kernel
  simp only [Option.any_eq_true, Bool.and_eq_true, Bool.not_eq_true', decide_eq_true_eq] at course
  rcases course with ⟨state, ran, ⟨idle, outdated⟩, final, goesOn, completed⟩
  have few : invalidations contended < 2 ^ 64 := by decide
  have silent : ∀ act ∈ contended, ¬act.CountsRead := by
    simp [contended, ReadAct.CountsRead]
  have served := served_of_run ran few silent
  rcases served.flight idle together final goesOn (by decide) with ⟨-, -, flight⟩
  rcases flight completed (by decide) with ⟨shared, flown⟩
  exact ⟨state, final, shared, ran, served, goesOn, outdated, flown, by decide⟩

end Reading

end PolicyWarden
