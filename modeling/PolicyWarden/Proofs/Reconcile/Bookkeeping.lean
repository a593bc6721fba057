import PolicyWarden.Proofs.Reconcile.Course
import PolicyWarden.Proofs.Snapshot.Tally

/-!
Reconciles and reads over one cache, each of which does one thing at a time. A commit is no single
step here: other reconciles and readers come between the change of the store, the invalidation and
the counting, and between the two halves of an invalidation. `exists_acts_of_move` says that a
reconcile to which nothing comes in between does what it does in one step elsewhere. When a reconcile
moves, it decides on effects, and `decision_of_move` says of them that they count what its result
reports.
-/

namespace PolicyWarden

variable {α ρ : Type}

namespace Occurrence

def reported : Occurrence → Except ReconcileError Outcome → Bool
  | .upsert, .ok .upserted => true
  | .removal, .ok .removed => true
  | .removal, .ok (.rejected _ evicted) => evicted
  | .compileFailure, .ok (.rejected ..) => true
  | .invalidation, .ok outcome => outcome.mutated
  | .fetchError, .error (.fetch _) => true
  | _, _ => false

end Occurrence

namespace Effect

def replaces (store : Store ρ) : Effect ρ → Bool
  | .upsert identity _ _ => store.contains identity
  | _ => false

end Effect

namespace Reconcile

def reports (occurrence : Occurrence) : Reconcile α ρ → Bool
  | .ended result => occurrence.reported result
  | _ => false

end Reconcile

/-- A reconcile that does one thing to the cache at a time. -/
structure Job (α ρ : Type) where
  call : ReconcileCall α ρ
  due : List (Effect ρ) := []
  /-- It has counted the refusal of its resource. What becomes of the stored policy it decides after
  that. -/
  counted : Bool := false
  replaced : Bool := false

structure Read (ρ : Type) where
  reader : Reader ρ := .starting
  counted : Option Occurrence := none

structure Bookkeeping (α ρ : Type) where
  cache : Cache ρ := {}
  answers : Identity → Answer α
  jobs : List (Job α ρ) := []
  reads : List (Read ρ) := []

inductive Job.Act where
  | move (motion : Reconcile.Motion)
  | count
  | commit
  | cancel
  /-- The runtime ends before the compiler has come to a verdict. -/
  | shutDown
  /-- The source fails without an answer, and the reconcile with it. -/
  | crash (message : String)

inductive BookAct (α : Type) where
  | change (identity : Identity) (answer : Answer α)
  | call (identity : Identity)
  | act (ticket : Nat) (act : Job.Act)
  | read (cancelled : Bool)
  | step (number : Nat)

namespace Job

def refuses (job : Job α ρ) : Bool :=
  match job.call.state with
  | .compiled _ (.refused _) => !job.call.cancelled && !job.counted
  | _ => false

def ahead (job : Job α ρ) : List (Effect ρ) :=
  if job.counted && !job.call.state.isOver then [.record .compileFailure] else []

def tallied (job : Job α ρ) : Job α ρ :=
  { job with counted := true }

/-- The reconcile as it decides: once it has counted a refusal, it does not look at the cancellation
again. -/
def decider (job : Job α ρ) : ReconcileCall α ρ :=
  { job.call with cancelled := job.call.cancelled && !job.counted }

/-- The reconcile has moved and decided on these effects. The first of them it brings about in the
same step: it looks at the store and changes it under one lock. -/
def undertake (cache : Cache ρ) (job : Job α ρ) (state : Reconcile α ρ)
    (answer : Option (Answer α)) (effects : List (Effect ρ)) : Cache ρ × Job α ρ :=
  (cache.commit (effects.take 1),
    { job with
      call := { job.call with state, answer }
      due := effects.tail
      replaced := effects.any (·.replaces cache.store) })

def act (rules : Rules α ρ) (answer : Answer α) (cache : Cache ρ) (job : Job α ρ) :
    Job.Act → Option (Cache ρ × Job α ρ)
  | .move motion =>
      if job.refuses then none
      else
        (job.decider.move rules answer cache motion).map fun (_, moved) =>
          job.undertake cache moved.state moved.answer
            ((job.decider.effects rules cache.store motion).drop job.ahead.length)
  | .count =>
      if job.refuses then some (cache.record .compileFailure, job.tallied) else none
  | .commit =>
      match job.due with
      | [] => none
      -- The generation goes up before the invalidation is counted.
      | .invalidate :: rest =>
          some ({ cache with generation := cache.generation + 1 },
            { job with due := .record .invalidation :: rest })
      | effect :: rest => some (cache.perform effect, { job with due := rest })
  | .cancel => some (cache, { job with call := { job.call with cancelled := true } })
  | .shutDown =>
      match job.call.state with
      | .compiling _ =>
          some (cache, { job with call := { job.call with
            state := .ended (.error (.cancelled job.call.identity)) } })
      | _ => none
  | .crash message =>
      match job.call.state with
      | .fetching => some (cache, { job with call := { job.call with state := .unwound message } })
      | _ => none

end Job

namespace Read

def step (cache : Cache ρ) (read : Read ρ) : Option (Cache ρ × Read ρ) :=
  (read.reader.step cache).map fun (cache, reader) =>
    (cache, { reader, counted := read.reader.counts?.or read.counted })

def returned (read : Read ρ) : Bool :=
  read.reader.snapshot?.isSome

/-- The read has its policies and is counted, and has only to give the lock back. -/
def returning (read : Read ρ) : Bool :=
  match read.reader with
  | .releasing _ => true
  | _ => false

end Read

namespace Bookkeeping

def step (rules : Rules α ρ) (state : Bookkeeping α ρ) : BookAct α → Option (Bookkeeping α ρ)
  | .change identity answer =>
      some { state with answers := Function.update state.answers identity answer }
  | .call identity => some { state with jobs := state.jobs ++ [{ call := { identity } }] }
  | .act ticket act => do
      let job ← state.jobs[ticket]?
      let (cache, moved) ← job.act rules (state.answers job.call.identity) state.cache act
      some { state with cache, jobs := state.jobs.set ticket moved }
  | .read cancelled =>
      some (if cancelled then state else { state with reads := state.reads ++ [{}] })
  | .step number => do
      let read ← state.reads[number]?
      let (cache, moved) ← read.step state.cache
      some { state with cache, reads := state.reads.set number moved }

def start (answers : Identity → Answer α) : Bookkeeping α ρ :=
  { answers }

abbrev run (rules : Rules α ρ) (acts : List (BookAct α)) (state : Bookkeeping α ρ) :
    Option (Bookkeeping α ρ) :=
  Execution.run (step rules) acts state

end Bookkeeping

namespace Reconcile

variable {rules : Rules α ρ} {identity : Identity} {cancelled : Bool} {cache : Cache ρ}
  {store : Store ρ} {state next : Reconcile α ρ} {effects : List (Effect ρ)}

theorem Advances.counts_eq (advances : Advances rules identity cancelled store state effects next)
    (occurrence : Occurrence) :
    effects.countP (Effect.counts occurrence) = (next.reports occurrence).toNat := by
  cases advances <;> cases occurrence <;> rfl

theorem Advances.invalidates_eq
    (advances : Advances rules identity cancelled store state effects next) :
    effects.countP Effect.invalidates = (next.reports .invalidation).toNat := by
  cases advances <;> rfl

theorem Advances.size_eq
    (advances : Advances rules identity cancelled cache.store state effects next) :
    (cache.commit effects).store.size + (next.reports .removal).toNat +
        (effects.any (·.replaces cache.store)).toNat =
      cache.store.size + (next.reports .upsert).toNat := by
  cases advances with
  | upserted resource policy =>
      have sized := Table.size_insert cache.store identity ⟨policy, rules.revision resource⟩
      simpa [Effect.replaces, Store.upsert, reports, Occurrence.reported] using sized
  | removed present | evicted _ _ _ _ present =>
      have sized := Table.size_erase cache.store identity
      rw [present] at sized
      simpa [removal, Effect.replaces, reports, Occurrence.reported] using sized
  | _ => rfl

theorem Advances.of_refused {resource : α} {errors : List CompileError}
    (advances : Advances rules identity false store (.compiled resource (.refused errors)) effects
      next) :
    next.isOver = true ∧ ∃ rest, effects = .record .compileFailure :: rest ∧
      ∀ effect ∈ rest.tail, effect.mutates = false := by
  cases advances with
  | withdrawn _ _ unwanted => cases unwanted
  | retained => exact ⟨rfl, [], rfl, nofun⟩
  | evicted => exact ⟨rfl, _, rfl, by simp [removal, Effect.mutates]⟩

theorem Advances.unmutated_tail
    (advances : Advances rules identity cancelled store state effects next)
    (fresh : ∀ resource errors, state = .compiled resource (.refused errors) → cancelled = true) :
    ∀ effect ∈ effects.tail, effect.mutates = false := by
  cases advances with
  | evicted resource errors wanted =>
      cases wanted.symm.trans (fresh resource errors rfl)
  | _ => simp [removal, Effect.mutates]

end Reconcile

namespace ReconcileCall

variable {rules : Rules α ρ} {answer : Answer α} {left right after : Cache ρ}
  {call moved : ReconcileCall α ρ} {motion : Reconcile.Motion}

theorem move_congr (moves : call.move rules answer left motion = some (after, moved))
    (right : Cache ρ) (same : right.store = left.store) :
    ∃ cache, call.move rules answer right motion = some (cache, moved) := by
  cases motion with
  | advance =>
      rcases call with ⟨identity, cancelled, given, state⟩
      simp only [move] at moves ⊢
      cases state with
      | starting => cases moves; exact ⟨_, rfl⟩
      | answered | compiled =>
          simp only [Reconcile.advance, same] at moves ⊢
          cases moves
          exact ⟨_, rfl⟩
      | _ => cases moves
  | answer | abandon | compile | crash =>
      simp only [move] at moves ⊢
      split at moves
      · cases moves
        exact ⟨_, rfl⟩
      · cases moves

end ReconcileCall

namespace Job

open Reconcile (Advances)

variable {rules : Rules α ρ} {answer : Answer α} {cache after : Cache ρ} {job : Job α ρ}
  {motion : Reconcile.Motion} {decided : ReconcileCall α ρ} {effects : List (Effect ρ)}
  {next : Reconcile α ρ}

theorem ahead_of_uncounted (uncounted : job.counted = false) : job.ahead = [] := by
  rw [ahead, uncounted]
  rfl

theorem ahead_of_isOver (complete : job.call.state.isOver = true) : job.ahead = [] := by
  rw [ahead, complete, Bool.not_true, Bool.and_false]
  rfl

theorem ahead_of_counted {resource : α} {errors : List CompileError} (counted : job.counted = true)
    (refused : job.call.state = .compiled resource (.refused errors)) :
    job.ahead = [.record .compileFailure] := by
  rw [ahead, counted, refused]
  rfl

theorem decider_of_uncounted (uncounted : job.counted = false) : job.decider = job.call := by
  simp [decider, uncounted]

theorem decider_of_wanted (wanted : job.call.cancelled = false) : job.decider = job.call := by
  simp only [decider, wanted, Bool.false_and]
  rw [← wanted]

/-- A reconcile in progress owes nothing, and what is still due from one that is over leaves the
store alone. -/
structure Sound (job : Job α ρ) : Prop where
  unmutated : ∀ effect ∈ job.due, effect.mutates = false
  going : job.call.state.isOver = false → job.due = [] ∧ job.replaced = false
  refused : job.counted = true → job.call.state.isOver = false →
    ∃ resource errors, job.call.state = .compiled resource (.refused errors)

theorem Sound.uncounted (sound : job.Sound) (going : job.call.state.isOver = false)
    (unrefused : ∀ resource errors, job.call.state ≠ .compiled resource (.refused errors)) :
    job.counted = false := by
  cases counted : job.counted with
  | false => rfl
  | true =>
      rcases sound.refused counted going with ⟨resource, errors, refused⟩
      exact absurd refused (unrefused resource errors)

abbrev run (rules : Rules α ρ) (answer : Answer α) (acts : List Job.Act)
    (state : Cache ρ × Job α ρ) : Option (Cache ρ × Job α ρ) :=
  Execution.run (fun state => state.2.act rules answer state.1) acts state

theorem run_of_act {act : Job.Act} {moved : Job α ρ}
    (acted : job.act rules answer cache act = some (after, moved)) (acts : List Job.Act) :
    run rules answer (act :: acts) (cache, job) = run rules answer acts (after, moved) := by
  rw [run, Execution.run_cons, acted]
  rfl

/-- What is due can be done, and amounts to a commit. -/
theorem exists_commits (rules : Rules α ρ) (answer : Answer α) (cache : Cache ρ) (job : Job α ρ) :
    ∃ acts, run rules answer acts (cache, job) =
      some (cache.commit job.due, { job with due := [] }) := by
  rcases job with ⟨call, due, counted, replaced⟩
  induction due generalizing cache with
  | nil => exact ⟨[], rfl⟩
  | cons effect rest induction =>
      rcases induction (cache.perform effect) with ⟨acts, ran⟩
      cases effect with
      -- The first of the two acts leaves the counting of the invalidation due.
      | invalidate => exact ⟨.commit :: .commit :: acts, ran⟩
      | upsert | remove | record => exact ⟨.commit :: acts, ran⟩

theorem refused_of_refuses (refuses : job.refuses = true) :
    job.call.cancelled = false ∧ job.counted = false ∧
      ∃ resource errors, job.call.state = .compiled resource (.refused errors) := by
  unfold Job.refuses at refuses
  split at refuses
  · next resource errors refused =>
      simp only [Bool.and_eq_true, Bool.not_eq_true'] at refuses
      exact ⟨refuses.1, refuses.2, resource, errors, refused⟩
  · cases refuses

theorem effects_of_refuses (refuses : job.refuses = true)
    (moves : job.call.move rules answer cache motion = some (after, decided)) :
    ∃ rest, job.call.effects rules cache.store motion = .record .compileFailure :: rest := by
  rcases refused_of_refuses refuses with ⟨wanted, -, resource, errors, refused⟩
  rcases (ReconcileCall.effects_of_move moves).2 with ⟨next, -, -, advances⟩ | ⟨-, brings⟩
  · rw [refused, wanted] at advances
    rcases advances.of_refused with ⟨-, rest, equal, -⟩
    exact ⟨rest, equal⟩
  · cases brings with
    | answer other | abandon other | compile _ other | crash _ _ other =>
        cases refused.symm.trans other

theorem exists_acts_of_decider (fresh : job.refuses = false)
    (moves : job.decider.move rules answer cache motion = some (after, decided)) :
    ∃ acts moved, run rules answer acts (cache, job) =
        some (cache.commit
          ((job.decider.effects rules cache.store motion).drop job.ahead.length), moved) ∧
      moved.call = { job.call with state := decided.state, answer := decided.answer } ∧
      moved.due = [] := by
  generalize chosen : (job.decider.effects rules cache.store motion).drop job.ahead.length = effects
  have acted : job.act rules answer cache (.move motion) =
      some (job.undertake cache decided.state decided.answer effects) := by
    simp only [Job.act, fresh, moves, chosen, Bool.false_eq_true, if_false, Option.map_some]
  rcases exists_commits rules answer (job.undertake cache decided.state decided.answer effects).1
    (job.undertake cache decided.state decided.answer effects).2 with ⟨acts, ran⟩
  have whole : (cache.commit (effects.take 1)).commit effects.tail = cache.commit effects := by
    rw [← Cache.commit_append, ← List.drop_one, List.take_append_drop]
  exact ⟨.move motion :: acts, _, whole ▸ (run_of_act acted acts).trans ran, rfl, rfl⟩

theorem exists_acts_of_move (uncounted : job.counted = false)
    (moves : job.call.move rules answer cache motion = some (after, decided)) :
    ∃ acts moved, run rules answer acts (cache, job) = some (after, moved) ∧
      moved.call = decided ∧ moved.due = [] := by
  have same : { job.call with state := decided.state, answer := decided.answer } = decided := by
    have identity := ReconcileCall.identity_of_move moves
    have cancelled := ReconcileCall.cancelled_of_move moves
    rcases decided with ⟨_, _, given, state⟩
    cases identity
    cases cancelled
    rfl
  have committed := (ReconcileCall.effects_of_move moves).1
  cases refuses : job.refuses with
  | false =>
      rw [← decider_of_uncounted uncounted] at moves committed
      rcases exists_acts_of_decider refuses moves with ⟨acts, moved, ran, call, due⟩
      rw [ahead_of_uncounted uncounted, List.length_nil, List.drop_zero, ← committed] at ran
      exact ⟨acts, moved, ran, call.trans same, due⟩
  | true =>
      rcases refused_of_refuses refuses with ⟨wanted, -, resource, errors, refused⟩
      rcases effects_of_refuses refuses moves with ⟨rest, effects⟩
      have counts : job.act rules answer cache .count =
          some (cache.record .compileFailure, job.tallied) := by
        simp only [Job.act, refuses, if_true]
      have fresh : job.tallied.refuses = false := by simp [Job.refuses, tallied, refused]
      have own : job.tallied.decider = job.call := decider_of_wanted wanted
      have ahead : job.tallied.ahead = [.record .compileFailure] := ahead_of_counted rfl refused
      -- Counting does not touch the store, so the same is decided on after it.
      rcases ReconcileCall.move_congr moves (cache.record .compileFailure) rfl with ⟨_, again⟩
      rw [← own] at again
      rcases exists_acts_of_decider fresh again with ⟨acts, moved, ran, call, due⟩
      have later : (job.tallied.decider.effects rules (cache.record .compileFailure).store
          motion).drop job.tallied.ahead.length = rest := by
        rw [own, ahead]
        exact congrArg (List.drop 1) effects
      rw [later] at ran
      rw [committed, effects]
      exact ⟨.count :: acts, moved, (run_of_act counts acts).trans ran, call.trans same, due⟩

/-- What a reconcile decides on when it moves: the effects that follow what it has counted already,
and where it comes to. -/
structure Decision (job : Job α ρ) (cache : Cache ρ) (effects : List (Effect ρ))
    (next : Reconcile α ρ) : Prop where
  going : job.call.state.isOver = false
  silent : effects = [] ∨ next.isOver = true
  final : job.counted = true → next.isOver = true
  counts : ∀ occurrence, (job.ahead ++ effects).countP (Effect.counts occurrence) =
    (next.reports occurrence).toNat
  invalidates : effects.countP Effect.invalidates = (next.reports .invalidation).toNat
  unmutated : ∀ effect ∈ effects.tail, effect.mutates = false
  size : (cache.commit effects).store.size + (next.reports .removal).toNat +
      (effects.any (·.replaces cache.store)).toNat =
    cache.store.size + (next.reports .upsert).toNat

theorem Decision.of_uncounted (uncounted : job.counted = false) (fresh : job.refuses = false)
    (advances : Advances rules job.call.identity job.call.cancelled cache.store job.call.state
      effects next) (going : job.call.state.isOver = false) :
    Decision job cache effects next where
  going := going
  silent := advances.over_or_silent.symm
  final counted := by cases uncounted.symm.trans counted
  counts occurrence := by
    rw [ahead_of_uncounted uncounted]
    exact advances.counts_eq occurrence
  invalidates := advances.invalidates_eq
  unmutated := by
    apply advances.unmutated_tail
    intro resource errors refused
    simpa [refuses, refused, uncounted] using fresh
  size := advances.size_eq

theorem Decision.of_counted {resource : α} {errors : List CompileError}
    (counted : job.counted = true) (refused : job.call.state = .compiled resource (.refused errors))
    (advances : Advances rules job.call.identity false cache.store job.call.state effects next) :
    Decision job cache (effects.drop job.ahead.length) next := by
  have ahead := ahead_of_counted counted refused
  have counts := advances.counts_eq
  have invalidates := advances.invalidates_eq
  have size := advances.size_eq
  rw [refused] at advances
  rcases advances.of_refused with ⟨complete, rest, rfl, unmutated⟩
  rw [ahead]
  refine ⟨refused ▸ rfl, .inr complete, fun _ => complete, ?counts, invalidates, unmutated, ?size⟩
  case counts =>
    rw [ahead]
    exact counts
  case size =>
    rw [Cache.commit_cons, Cache.commit_record_comm] at size
    exact size

theorem Decision.of_brings (uncounted : job.counted = false)
    (brings : job.decider.Brings rules answer motion decided) :
    Decision job cache [] decided.state := by
  have final (counted : job.counted = true) : decided.state.isOver = true := by
    cases uncounted.symm.trans counted
  cases brings with
  | answer going | abandon going | compile _ going | crash _ _ going =>
      have state : job.call.state = _ := going
      refine ⟨by rw [state]; rfl, .inl rfl, final, ?_, rfl, nofun, rfl⟩
      intro occurrence
      rw [ahead_of_uncounted uncounted]
      cases occurrence <;> rfl

theorem decision_of_move (sound : job.Sound) (fresh : job.refuses = false)
    (moves : job.decider.move rules answer cache motion = some (after, decided)) :
    Decision job cache ((job.decider.effects rules cache.store motion).drop job.ahead.length)
      decided.state := by
  have going : job.decider.state.isOver = false := ReconcileCall.going_of_move moves
  rcases (ReconcileCall.effects_of_move moves).2 with ⟨next, -, rfl, advances⟩ | ⟨none, brings⟩
  · cases counted : job.counted with
    | false =>
        have wanted : job.decider.cancelled = job.call.cancelled := by simp [decider, counted]
        rw [wanted] at advances
        rw [ahead_of_uncounted counted]
        exact .of_uncounted counted fresh advances going
    | true =>
        rcases sound.refused counted going with ⟨resource, errors, refused⟩
        have wanted : job.decider.cancelled = false := by simp [decider, counted]
        rw [wanted] at advances
        exact .of_counted counted refused advances
  · have uncounted : job.counted = false := by
      apply sound.uncounted going
      intro resource errors refused
      have refused : job.decider.state = .compiled resource (.refused errors) := refused
      cases brings with
      | answer other | abandon other | compile _ other | crash _ _ other =>
          cases refused.symm.trans other
    rw [none, List.drop_nil]
    exact .of_brings uncounted brings

end Job

end PolicyWarden
