import PolicyWarden.Proofs.Reconcile.Bookkeeping

/-!
The counters of a cache against the results of those who use it. In the midst of a run a counter may
be behind, by what reconciles have decided on and not yet counted; with that added it is always what
the reconciles and the reads report. The generation is balanced in the same way, and so is the size
of the store. `Booked` says so of one act of a reconcile and `Balanced` of a whole state, and at
points where no commit is half done the books agree, which `accounted_of_settled` states.
-/

namespace PolicyWarden

variable {α ρ : Type}

/-- A number of 64 bits is behind a total by what is owed to it. -/
def Agrees (number : UInt64) (owed total : Nat) : Prop :=
  number + UInt64.ofNat owed = UInt64.ofNat total

theorem Agrees.of_change {number : UInt64} {times owed owes total totals : Nat}
    (agrees : Agrees number owed total) (change : times + owes + total = owed + totals) :
    Agrees (number + UInt64.ofNat times) owes totals := by
  have sums := congrArg UInt64.ofNat change
  simp only [UInt64.ofNat_add] at sums
  unfold Agrees at agrees ⊢
  grind

theorem Effect.countP_take_tail (counts : Effect ρ → Bool) (effects : List (Effect ρ)) :
    (effects.take 1).countP counts + effects.tail.countP counts = effects.countP counts := by
  rw [← List.countP_append, ← List.drop_one, List.take_append_drop]

theorem Cache.store_commit_take {effects : List (Effect ρ)}
    (unmutated : ∀ effect ∈ effects.tail, effect.mutates = false) (cache : Cache ρ) :
    (cache.commit (effects.take 1)).store = (cache.commit effects).store := by
  conv_rhs => rw [← List.take_append_drop 1 effects, commit_append, List.drop_one]
  exact (store_commit_of_unmutated unmutated _).symm

namespace Reconcile

theorem reports_of_going {state : Reconcile α ρ} (going : state.isOver = false)
    (occurrence : Occurrence) : state.reports occurrence = false := by
  cases state with
  | ended | unwound => cases going
  | _ => rfl

theorem reports_of_read {occurrence : Occurrence} (ofRead : occurrence.OfRead)
    (state : Reconcile α ρ) : state.reports occurrence = false := by
  rcases ofRead with rfl | rfl <;> cases state <;> rfl

theorem reports_invalidation (state : Reconcile α ρ) :
    (state.reports .upsert).toNat + (state.reports .removal).toNat =
      (state.reports .invalidation).toNat := by
  match state with
  | .ended (.error (.fetch _)) | .ended (.error (.cancelled _)) => rfl
  | .ended (.ok .upserted) | .ended (.ok .removed) => rfl
  | .ended (.ok .absent) | .ended (.ok .unchanged) => rfl
  | .ended (.ok (.rejected _ true)) | .ended (.ok (.rejected _ false)) => rfl
  | .starting | .fetching | .answered _ | .compiling _ | .compiled _ _ | .unwound _ => rfl

end Reconcile

namespace Job

def owes (occurrence : Occurrence) (job : Job α ρ) : Nat :=
  job.due.countP (Effect.counts occurrence)

def claims (occurrence : Occurrence) (job : Job α ρ) : Nat :=
  (job.call.state.reports occurrence).toNat + job.ahead.countP (Effect.counts occurrence)

def stale (job : Job α ρ) : Nat :=
  job.due.countP Effect.invalidates

/-- What an act of a reconcile leaves balanced: each counter, the generation and the size of the
store change together with what the reconcile owes and reports. -/
structure Booked (cache : Cache ρ) (job : Job α ρ) (after : Cache ρ) (moved : Job α ρ) : Prop where
  sound : moved.Sound
  counters : ∀ occurrence, ∃ times,
    after.counters.count occurrence = cache.counters.count occurrence + UInt64.ofNat times ∧
      times + moved.owes occurrence + job.claims occurrence =
        job.owes occurrence + moved.claims occurrence
  generation : ∃ times, after.generation = cache.generation + UInt64.ofNat times ∧
    times + moved.stale + (job.call.state.reports .invalidation).toNat =
      job.stale + (moved.call.state.reports .invalidation).toNat
  size : after.store.size + (moved.call.state.reports .removal).toNat + moved.replaced.toNat +
      (job.call.state.reports .upsert).toNat =
    cache.store.size + (moved.call.state.reports .upsert).toNat +
      (job.call.state.reports .removal).toNat + job.replaced.toNat

variable {rules : Rules α ρ} {answer : Answer α} {cache after : Cache ρ} {job moved : Job α ρ}
  {effects : List (Effect ρ)} {next : Reconcile α ρ} {act : Job.Act}

theorem Decision.booked (sound : job.Sound) (decision : Decision job cache effects next)
    (answer : Option (Answer α)) :
    Booked cache job (job.undertake cache next answer effects).1
      (job.undertake cache next answer effects).2 := by
  -- Before it moved the reconcile had nothing to report and nothing due.
  have silent := Reconcile.reports_of_going decision.going
  rcases sound.going decision.going with ⟨nothing, unreplaced⟩
  refine ⟨⟨decision.unmutated, ?going, ?refused⟩, ?counters, ?generation, ?size⟩
  case going =>
    intro going
    rcases decision.silent with rfl | complete
    · exact ⟨rfl, rfl⟩
    · cases going.symm.trans complete
  case refused =>
    intro counted going
    cases going.symm.trans (decision.final counted)
  case counters =>
    intro occurrence
    refine ⟨_, Cache.count_commit _ _ _, ?_⟩
    have counts := decision.counts occurrence
    have parts := Effect.countP_take_tail (Effect.counts occurrence) effects
    -- What was counted ahead of the end is among what the result reports.
    have ahead : (job.undertake cache next answer effects).2.ahead = [] := by
      cases counted : job.counted with
      | false => exact ahead_of_uncounted counted
      | true => exact ahead_of_isOver (decision.final counted)
    rw [List.countP_append] at counts
    rw [claims, claims, owes, owes, ahead, silent, nothing]
    simp only [undertake, List.countP_nil, Bool.toNat_false]
    omega
  case generation =>
    refine ⟨_, Cache.generation_commit _ _, ?_⟩
    have counts := decision.invalidates
    have parts := Effect.countP_take_tail Effect.invalidates effects
    rw [stale, stale, silent, nothing]
    simp only [undertake, List.countP_nil, Bool.toNat_false]
    omega
  case size =>
    have sized := decision.size
    rw [← Cache.store_commit_take decision.unmutated] at sized
    simp only [undertake, silent, unreplaced, Bool.toNat_false]
    omega

theorem booked_of_unseen {call : ReconcileCall α ρ}
    (same : ∀ occurrence, call.state.reports occurrence = job.call.state.reports occurrence)
    (ahead : ({ job with call } : Job α ρ).ahead = job.ahead)
    (known : ({ job with call } : Job α ρ).Sound) :
    Booked cache job cache { job with call } where
  sound := known
  counters occurrence := by
    refine ⟨0, (UInt64.add_zero _).symm, ?_⟩
    simp only [claims, owes, ahead, same]
    omega
  generation := by
    refine ⟨0, (UInt64.add_zero _).symm, ?_⟩
    simp only [stale, same]
    omega
  size := by
    simp only [same]
    omega

theorem booked_of_lost (sound : job.Sound) (going : job.call.state.isOver = false)
    (unrefused : ∀ resource errors, job.call.state ≠ .compiled resource (.refused errors))
    {state : Reconcile α ρ} (complete : state.isOver = true)
    (silent : ∀ occurrence, state.reports occurrence = false) :
    Booked cache job cache { job with call := { job.call with state } } := by
  apply booked_of_unseen
  · intro occurrence
    exact (silent occurrence).trans (Reconcile.reports_of_going going occurrence).symm
  · exact (ahead_of_isOver complete).trans
      (ahead_of_uncounted (sound.uncounted going unrefused)).symm
  · refine ⟨sound.unmutated, fun _ => sound.going going, fun _ again => ?_⟩
    cases complete.symm.trans again

theorem booked_of_due (sound : job.Sound) {effect : Effect ρ} {rest due : List (Effect ρ)}
    (owed : job.due = effect :: rest) (unmutated : ∀ effect ∈ due, effect.mutates = false)
    (store : after.store = cache.store)
    (counters : ∀ occurrence, ∃ times,
      after.counters.count occurrence = cache.counters.count occurrence + UInt64.ofNat times ∧
        times + due.countP (Effect.counts occurrence) = job.owes occurrence)
    (generation : ∃ times, after.generation = cache.generation + UInt64.ofNat times ∧
      times + due.countP Effect.invalidates = job.stale) :
    Booked cache job after { job with due } where
  sound :=
    { unmutated
      going := fun going => by cases owed.symm.trans (sound.going going).1
      refused := sound.refused }
  counters occurrence := by
    rcases counters occurrence with ⟨times, counted, settled⟩
    exact ⟨times, counted, congrArg (· + job.claims occurrence) settled⟩
  generation := by
    rcases generation with ⟨times, raised, settled⟩
    exact ⟨times, raised, congrArg (· + _) settled⟩
  size := by
    simp only [store]
    omega

theorem booked_of_commit (sound : job.Sound)
    (acted : job.act rules answer cache .commit = some (after, moved)) :
    Booked cache job after moved := by
  have unmutated := sound.unmutated
  simp only [Job.act] at acted
  split at acted
  · cases acted
  · next rest due =>
      cases acted
      rw [due] at unmutated
      refine booked_of_due sound due ?unmutated ?store ?counters ?generation
      case store => rfl
      case unmutated =>
        intro effect member
        rcases List.mem_cons.mp member with rfl | later
        · rfl
        · exact unmutated effect (.tail _ later)
      case counters =>
        intro occurrence
        exact ⟨0, (UInt64.add_zero _).symm, by rw [owes, due, Nat.zero_add]; rfl⟩
      case generation =>
        have paid : (Effect.record .invalidation :: rest).countP Effect.invalidates =
            rest.countP Effect.invalidates := List.countP_cons_of_neg Bool.false_ne_true
        have owed : (Effect.invalidate :: rest).countP Effect.invalidates =
            rest.countP Effect.invalidates + 1 := List.countP_cons_of_pos rfl
        exact ⟨1, rfl, by rw [stale, due, paid, owed, Nat.add_comm]⟩
  · next effect rest further due =>
      cases acted
      rw [due] at unmutated
      have store : (cache.commit [effect]).store = cache.store :=
        Cache.store_commit_of_unmutated
          (fun _ only => unmutated _ (List.mem_singleton.mp only ▸ .head _)) cache
      apply booked_of_due sound due (fun _ later => unmutated _ (.tail _ later)) store
      case counters =>
        intro occurrence
        refine ⟨_, Cache.count_commit cache [effect] occurrence, ?_⟩
        rw [owes, due, ← List.countP_append, List.singleton_append]
      case generation =>
        refine ⟨_, Cache.generation_commit cache [effect], ?_⟩
        rw [stale, due, ← List.countP_append, List.singleton_append]

theorem booked_of_count (sound : job.Sound)
    (acted : job.act rules answer cache .count = some (after, moved)) :
    Booked cache job after moved := by
  simp only [Job.act] at acted
  split at acted
  · next refuses =>
      rcases refused_of_refuses refuses with ⟨-, uncounted, resource, errors, refused⟩
      cases acted
      have ahead : job.tallied.ahead = [.record .compileFailure] := ahead_of_counted rfl refused
      refine ⟨⟨sound.unmutated, sound.going, fun _ _ => ⟨resource, errors, refused⟩⟩, ?counters,
        ⟨0, (UInt64.add_zero _).symm, ?generation⟩, ?size⟩
      case counters =>
        intro occurrence
        refine ⟨_, Cache.count_commit cache [.record .compileFailure] occurrence, ?_⟩
        rw [claims, claims, ahead, ahead_of_uncounted uncounted, List.countP_nil]
        simp only [owes, tallied]
        omega
      case generation => exact Nat.zero_add _ ▸ rfl
      case size =>
        simp only [Cache.record, tallied]
        omega
  · cases acted

theorem booked_of_act (sound : job.Sound)
    (acted : job.act rules answer cache act = some (after, moved)) :
    Booked cache job after moved := by
  cases act with
  | move motion =>
      simp only [Job.act] at acted
      split at acted
      · cases acted
      · next fresh =>
          rcases Option.map_eq_some_iff.mp acted with ⟨⟨_, decided⟩, moves, equal⟩
          cases equal
          exact (decision_of_move sound (Bool.not_eq_true _ ▸ fresh) moves).booked sound _
  | count => exact booked_of_count sound acted
  | commit => exact booked_of_commit sound acted
  | cancel =>
      cases acted
      exact booked_of_unseen (fun _ => rfl) rfl ⟨sound.unmutated, sound.going, sound.refused⟩
  | shutDown =>
      simp only [Job.act] at acted
      split at acted
      · next resource compiling =>
          cases acted
          apply booked_of_lost sound (compiling ▸ rfl) (by simp [compiling]) rfl
          intro occurrence
          cases occurrence <;> rfl
      · cases acted
  | crash message =>
      simp only [Job.act] at acted
      split at acted
      · next fetching =>
          cases acted
          exact booked_of_lost sound (fetching ▸ rfl) (by simp [fetching]) rfl fun _ => rfl
      · cases acted

end Job

theorem Reader.Passes.store_eq {cache after : Cache ρ} {reader moved : Reader ρ}
    (passes : Passes cache reader after moved) : after.store = cache.store := by
  cases passes <;> rfl

namespace Read

def claims (occurrence : Occurrence) (read : Read ρ) : Bool :=
  read.counted = some occurrence

structure Sound (read : Read ρ) : Prop where
  once : read.reader.counted = read.counted.toList.length
  kind : ∀ occurrence, read.counted = some occurrence → occurrence.OfRead

variable {cache after : Cache ρ} {read moved : Read ρ}

theorem booked_of_step (sound : read.Sound) (stepped : read.step cache = some (after, moved)) :
    moved.Sound ∧ after.store = cache.store ∧ after.generation = cache.generation ∧
      ∀ occurrence, ∃ times,
        after.counters.count occurrence = cache.counters.count occurrence + UInt64.ofNat times ∧
          times + (read.claims occurrence).toNat = (moved.claims occurrence).toNat := by
  rcases Option.map_eq_some_iff.mp stepped with ⟨⟨next, reader⟩, steps, equal⟩
  cases equal
  have passes := Reader.passes_of_step steps
  rcases passes.counters_eq with
    ⟨none, same, still⟩ | ⟨recorded, counts, kind, recording, before, now⟩
  · rw [none, Option.none_or]
    refine ⟨⟨still.trans sound.once, sound.kind⟩, passes.store_eq, passes.generation_eq, ?_⟩
    intro occurrence
    exact ⟨0, by rw [same]; exact (UInt64.add_zero _).symm, Nat.zero_add _⟩
  · have uncounted : read.counted = Option.none := by
      have empty := sound.once
      rw [before] at empty
      simpa using empty.symm
    rw [counts, Option.some_or]
    refine ⟨⟨now, ?_⟩, passes.store_eq, passes.generation_eq, ?_⟩
    · intro occurrence same
      cases same
      exact kind
    · intro occurrence
      refine ⟨(decide (occurrence = recorded)).toNat, ?_, ?_⟩
      · rw [recording, Counters.count_record]
        by_cases same : occurrence = recorded <;> simp [same]
      · simp [claims, uncounted, eq_comm]

theorem Sound.claims_add (sound : read.Sound) :
    (read.claims .hit).toNat + (read.claims .recompute).toNat =
      read.returned.toNat + read.returning.toNat := by
  have ended : read.returned.toNat + read.returning.toNat = read.reader.counted := by
    simp only [returned, returning]
    cases read.reader <;> rfl
  rw [ended, sound.once]
  simp only [claims]
  cases counted : read.counted with
  | none => rfl
  | some occurrence =>
      rcases sound.kind occurrence counted with rfl | rfl <;> rfl

end Read

namespace Bookkeeping

variable {rules : Rules α ρ} {answers : Identity → Answer α} {acts : List (BookAct α)}
  {state next : Bookkeeping α ρ} {act : BookAct α}

structure Balanced (state : Bookkeeping α ρ) : Prop where
  jobs : ∀ job ∈ state.jobs, job.Sound
  reads : ∀ read ∈ state.reads, read.Sound
  counters : ∀ occurrence, Agrees (state.cache.counters.count occurrence)
    (state.jobs.map (Job.owes occurrence)).sum
    ((state.jobs.map (Job.claims occurrence)).sum + state.reads.countP (Read.claims occurrence))
  generation : Agrees state.cache.generation (state.jobs.map Job.stale).sum
    (state.jobs.countP (·.call.state.reports .invalidation))
  size : state.cache.store.size + state.jobs.countP (·.call.state.reports .removal) +
      state.jobs.countP Job.replaced =
    state.jobs.countP (·.call.state.reports .upsert)

theorem balanced_start (answers : Identity → Answer α) :
    Balanced (start answers : Bookkeeping α ρ) where
  jobs := nofun
  reads := nofun
  counters occurrence := by cases occurrence <;> rfl
  generation := rfl
  size := rfl

theorem Balanced.of_act {ticket : Nat} {jobAct : Job.Act} (balanced : Balanced state)
    (stepped : step rules state (.act ticket jobAct) = some next) : Balanced next := by
  simp only [step, Option.bind_eq_bind, Option.bind_eq_some_iff] at stepped
  rcases stepped with ⟨job, present, ⟨cache, moved⟩, acted, equal⟩
  cases equal
  -- Each sum over the jobs changes by the one job that acts.
  have booked := Job.booked_of_act (balanced.jobs job (List.mem_of_getElem? present)) acted
  refine ⟨?jobs, balanced.reads, ?counters, ?generation, ?size⟩
  case jobs =>
    intro other member
    rcases List.mem_or_eq_of_mem_set member with old | rfl
    · exact balanced.jobs other old
    · exact booked.sound
  case counters =>
    intro occurrence
    rcases booked.counters occurrence with ⟨times, counted, change⟩
    have owed := Execution.sum_set (Job.owes occurrence) moved present
    have claimed := Execution.sum_set (Job.claims occurrence) moved present
    simp only [counted]
    apply (balanced.counters occurrence).of_change
    omega
  case generation =>
    rcases booked.generation with ⟨times, raised, change⟩
    have owed := Execution.sum_set Job.stale moved present
    have reported := Execution.countP_set (·.call.state.reports .invalidation) moved present
    simp only [raised]
    apply balanced.generation.of_change
    omega
  case size =>
    have sized := booked.size
    have known := balanced.size
    have removals := Execution.countP_set (·.call.state.reports .removal) moved present
    have upserts := Execution.countP_set (·.call.state.reports .upsert) moved present
    have replaced := Execution.countP_set Job.replaced moved present
    simp only
    omega

theorem Balanced.of_step (balanced : Balanced state) (stepped : step rules state act = some next) :
    Balanced next := by
  cases act with
  | change identity answer =>
      cases stepped
      exact ⟨balanced.jobs, balanced.reads, balanced.counters, balanced.generation, balanced.size⟩
  | call identity =>
      cases stepped
      refine ⟨?jobs, balanced.reads, ?counters, ?generation, ?size⟩
      case jobs =>
        intro job member
        rcases List.mem_append.mp member with old | new
        · exact balanced.jobs job old
        · cases List.mem_singleton.mp new
          exact ⟨nofun, fun _ => ⟨rfl, rfl⟩, nofun⟩
      case counters =>
        intro occurrence
        rw [List.map_append, List.map_append, List.sum_append, List.sum_append]
        exact balanced.counters occurrence
      case generation =>
        rw [List.map_append, List.sum_append, List.countP_append]
        exact balanced.generation
      case size =>
        simp only [List.countP_append]
        exact balanced.size
  | act ticket jobAct => exact balanced.of_act stepped
  | read cancelled =>
      cases stepped
      cases cancelled with
      | true => exact balanced
      | false =>
          refine ⟨balanced.jobs, ?_, ?_, balanced.generation, balanced.size⟩
          · intro read member
            rcases List.mem_append.mp member with old | new
            · exact balanced.reads read old
            · cases List.mem_singleton.mp new
              exact ⟨rfl, nofun⟩
          · intro occurrence
            simp only [Bool.false_eq_true, if_false, List.countP_append]
            exact balanced.counters occurrence
  | step number =>
      simp only [step, Option.bind_eq_bind, Option.bind_eq_some_iff] at stepped
      rcases stepped with ⟨read, present, ⟨cache, moved⟩, steps, equal⟩
      cases equal
      rcases Read.booked_of_step (balanced.reads read (List.mem_of_getElem? present)) steps with
        ⟨sound, store, generation, counters⟩
      refine ⟨balanced.jobs, ?_, ?_, generation ▸ balanced.generation, store ▸ balanced.size⟩
      · intro other member
        rcases List.mem_or_eq_of_mem_set member with old | rfl
        · exact balanced.reads other old
        · exact sound
      · intro occurrence
        rcases counters occurrence with ⟨times, counted, change⟩
        have claimed := Execution.countP_set (Read.claims occurrence) moved present
        simp only [counted]
        apply (balanced.counters occurrence).of_change
        omega

theorem balanced_of_run (ran : run rules acts (start answers) = some state) : Balanced state :=
  Execution.run_invariant Balanced (balanced_start answers)
    (fun _ _ _ balanced stepped => balanced.of_step stepped) ran

/-- No commit is half done: nothing is due from a reconcile, and none stands between counting a
refusal and deciding what becomes of the stored policy. -/
def Settled (state : Bookkeeping α ρ) : Prop :=
  ∀ job ∈ state.jobs, job.due = [] ∧ job.ahead = []

instance (state : Bookkeeping α ρ) : Decidable state.Settled :=
  decidable_of_iff (∀ job ∈ state.jobs, job.due.isEmpty = true ∧ job.ahead.isEmpty = true) <| by
    simp [Settled]

def occurrences (state : Bookkeeping α ρ) (occurrence : Occurrence) : Nat :=
  state.jobs.countP (·.call.state.reports occurrence) + state.reads.countP (Read.claims occurrence)

structure Accounted (state : Bookkeeping α ρ) : Prop where
  invalidations : state.cache.counters.invalidations = state.cache.generation
  generation : state.cache.generation.toNat =
    state.cache.counters.upserts.toNat + state.cache.counters.removals.toNat
  upserts : state.cache.counters.upserts.toNat =
    state.jobs.countP (·.call.state.reports .upsert)
  removals : state.cache.counters.removals.toNat =
    state.jobs.countP (·.call.state.reports .removal)
  compileFailures : state.cache.counters.compileFailures.toNat =
    state.jobs.countP (·.call.state.reports .compileFailure)
  fetchErrors : state.cache.counters.fetchErrors.toNat =
    state.jobs.countP (·.call.state.reports .fetchError)
  reads : state.cache.counters.hits.toNat + state.cache.counters.recomputes.toNat =
    state.reads.countP Read.returned + state.reads.countP Read.returning
  removed : state.cache.counters.removals.toNat ≤ state.cache.counters.upserts.toNat
  held : state.cache.store.size ≤
    state.cache.counters.upserts.toNat - state.cache.counters.removals.toNat
  full : state.cache.store.size =
      state.cache.counters.upserts.toNat - state.cache.counters.removals.toNat ↔
    ∀ job ∈ state.jobs, job.replaced = false

theorem count_of_settled (balanced : Balanced state) (settled : state.Settled)
    (occurrence : Occurrence) :
    state.cache.counters.count occurrence = UInt64.ofNat (state.occurrences occurrence) := by
  have owed : (state.jobs.map (Job.owes occurrence)).sum = 0 := by
    apply List.sum_eq_zero
    intro owes member
    rcases List.mem_map.mp member with ⟨job, known, rfl⟩
    rw [Job.owes, (settled job known).1]
    rfl
  have claimed : (state.jobs.map (Job.claims occurrence)).sum =
      state.jobs.countP (·.call.state.reports occurrence) := by
    rw [Execution.countP_eq_sum]
    congr 1
    apply List.map_congr_left
    intro job known
    rw [Job.claims, (settled job known).2]
    rfl
  have agrees := balanced.counters occurrence
  rw [owed, claimed] at agrees
  exact (UInt64.add_zero _).symm.trans agrees

theorem generation_of_settled (balanced : Balanced state) (settled : state.Settled) :
    state.cache.generation =
      UInt64.ofNat (state.jobs.countP (·.call.state.reports .invalidation)) := by
  have owed : (state.jobs.map Job.stale).sum = 0 := by
    apply List.sum_eq_zero
    intro owes member
    rcases List.mem_map.mp member with ⟨job, known, rfl⟩
    rw [Job.stale, (settled job known).1]
    rfl
  have agrees := balanced.generation
  rw [owed] at agrees
  exact (UInt64.add_zero _).symm.trans agrees

theorem toNat_count_of_settled (balanced : Balanced state) (settled : state.Settled)
    {occurrence : Occurrence} (few : state.occurrences occurrence < 2 ^ 64) :
    (state.cache.counters.count occurrence).toNat = state.occurrences occurrence := by
  rw [count_of_settled balanced settled]
  exact UInt64.toNat_ofNat_of_lt' few

theorem occurrences_of_read {occurrence : Occurrence} (ofRead : occurrence.OfRead) :
    state.occurrences occurrence = state.reads.countP (Read.claims occurrence) := by
  have none : state.jobs.countP (·.call.state.reports occurrence) = 0 :=
    List.countP_eq_zero.mpr fun job _ => by
      simp [Reconcile.reports_of_read ofRead job.call.state]
  rw [occurrences, none, Nat.zero_add]

theorem Balanced.occurrences_eq (balanced : Balanced state) {occurrence : Occurrence}
    (other : ¬occurrence.OfRead) :
    state.occurrences occurrence = state.jobs.countP (·.call.state.reports occurrence) := by
  have none : state.reads.countP (Read.claims occurrence) = 0 := by
    apply List.countP_eq_zero.mpr
    intro read member claimed
    exact other ((balanced.reads read member).kind occurrence (of_decide_eq_true claimed))
  rw [occurrences, none, Nat.add_zero]

theorem countP_reports_invalidation (jobs : List (Job α ρ)) :
    jobs.countP (·.call.state.reports .upsert) + jobs.countP (·.call.state.reports .removal) =
      jobs.countP (·.call.state.reports .invalidation) := by
  have sums := Execution.countP_add_countP (·.call.state.reports .upsert)
    (·.call.state.reports .removal) (·.call.state.reports .invalidation) (fun _ => false)
    fun job (_ : job ∈ jobs) => Reconcile.reports_invalidation job.call.state
  rwa [List.countP_false] at sums

theorem Balanced.countP_claims (balanced : Balanced state) :
    state.reads.countP (Read.claims .hit) + state.reads.countP (Read.claims .recompute) =
      state.reads.countP Read.returned + state.reads.countP Read.returning :=
  Execution.countP_add_countP _ _ _ _ fun read member => (balanced.reads read member).claims_add

theorem Accounted.reads_of_free (accounted : Accounted state)
    (free : ∀ read ∈ state.reads, read.returning = false) :
    state.cache.counters.hits.toNat + state.cache.counters.recomputes.toNat =
      state.reads.countP Read.returned := by
  have none : state.reads.countP Read.returning = 0 :=
    List.countP_eq_zero.mpr fun read member => by simp [free read member]
  rw [accounted.reads, none, Nat.add_zero]

/-- At every point of a run where no commit is half done, and as long as no counter has run over,
the books agree. Among the reads they count those that have returned and those that are about to
give the lock back; `Accounted.reads_of_free` leaves out the latter where there are none. -/
theorem accounted_of_settled (ran : run rules acts (start answers) = some state)
    (settled : state.Settled) (few : ∀ occurrence, state.occurrences occurrence < 2 ^ 64) :
    Accounted state := by
  have balanced := balanced_of_run ran
  have reported (occurrence : Occurrence) (other : ¬occurrence.OfRead) :
      (state.cache.counters.count occurrence).toNat =
        state.jobs.countP (·.call.state.reports occurrence) :=
    (toNat_count_of_settled balanced settled (few occurrence)).trans (balanced.occurrences_eq other)
  have read (occurrence : Occurrence) (ofRead : occurrence.OfRead) :
      (state.cache.counters.count occurrence).toNat =
        state.reads.countP (Read.claims occurrence) :=
    (toNat_count_of_settled balanced settled (few occurrence)).trans (occurrences_of_read ofRead)
  have upserts : state.cache.counters.upserts.toNat = _ := reported .upsert (by decide)
  have removals : state.cache.counters.removals.toNat = _ := reported .removal (by decide)
  have invalidations : state.cache.counters.invalidations.toNat = _ :=
    reported .invalidation (by decide)
  have hits : state.cache.counters.hits.toNat = _ := read .hit (.inl rfl)
  have recomputes : state.cache.counters.recomputes.toNat = _ := read .recompute (.inr rfl)
  have generation : state.cache.generation = state.cache.counters.invalidations := by
    rw [generation_of_settled balanced settled, ← invalidations]
    exact UInt64.ofNat_toNat
  have mutations := countP_reports_invalidation state.jobs
  have size := balanced.size
  refine ⟨generation.symm, ?generation, upserts, removals, ?failures, ?errors, ?reads, ?removed,
    ?held, ?full⟩
  case generation =>
    rw [generation]
    omega
  case failures => exact reported .compileFailure (by decide)
  case errors => exact reported .fetchError (by decide)
  case reads =>
    rw [hits, recomputes]
    exact balanced.countP_claims
  case removed => omega
  case held => omega
  case full =>
    have unreplaced : state.jobs.countP Job.replaced = 0 ↔
        ∀ job ∈ state.jobs, job.replaced = false := by
      simp [List.countP_eq_zero]
    rw [← unreplaced]
    omega

/-- Two reconciles of one identity store a policy each, the second in the place of the first, and
commit in turns while a reader sorts the store. A third one is refused and takes the policy away, and
a fourth one does not get an answer. -/
def overlapping : List (BookAct String) :=
  let compiles : List Job.Act := [.move .advance, .move .answer, .move .advance, .move .compile]
  List.flatten [
    [.change ⟨"a"⟩ (.ok (some "x")), .call ⟨"a"⟩, .call ⟨"a"⟩],
    compiles.map (.act 0), compiles.map (.act 1),
    [.act 0 (.move .advance), .read false, .act 1 (.move .advance), .act 0 .commit, .step 0,
      .act 1 .commit, .act 1 .commit, .act 0 .commit, .act 1 .commit, .act 0 .commit],
    List.replicate 9 (.step 0),
    [.change ⟨"a"⟩ (.ok (some "")), .call ⟨"a"⟩], compiles.map (.act 2),
    [.act 2 .count, .act 2 .cancel, .act 2 (.move .advance)],
    List.replicate 3 (.act 2 .commit),
    [.change ⟨"a"⟩ (.error ⟨⟨"a"⟩, "unreachable"⟩), .call ⟨"a"⟩, .act 3 (.move .advance),
      .act 3 (.move .answer), .act 3 (.move .advance)]]

theorem accounted_of_settled_overlapping :
    ∃ state, run (.plain .evict) overlapping (start fun _ => .ok none) = some state ∧
      state.cache.counters = {
        recomputes := 1, invalidations := 3, upserts := 2, removals := 1, compileFailures := 1
        fetchErrors := 1 } ∧
      state.cache.store.size = 0 ∧ Accounted state := by
  have ends : ∃ state ∈ run (.plain .evict) overlapping (start fun _ => .ok none),
      state.Settled ∧ state.jobs.length + state.reads.length < 2 ^ 64 ∧
        state.cache.counters = {
          recomputes := 1, invalidations := 3, upserts := 2, removals := 1, compileFailures := 1
          fetchErrors := 1 } ∧
        state.cache.store.size = 0 := by
    decide +kernel
  rcases ends with ⟨state, ran, settled, small, counters, size⟩
  have few (occurrence : Occurrence) : state.occurrences occurrence < 2 ^ 64 :=
    Nat.lt_of_le_of_lt (Nat.add_le_add List.countP_le_length List.countP_le_length) small
  exact ⟨state, ran, counters, size, accounted_of_settled ran settled few⟩

end Bookkeeping

end PolicyWarden
