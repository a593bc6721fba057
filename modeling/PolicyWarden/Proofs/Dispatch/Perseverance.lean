import Mathlib.Logic.Relation
import PolicyWarden.Proofs.Dispatch.Turn
import PolicyWarden.Proofs.Reconcile.Course
import PolicyWarden.Proofs.Retry.Attempts

/-!
A call by itself. With nobody else at work and no cancellation, a call goes through its attempts one
after another. Each attempt is one undisturbed reconcile with the answer to its fetch; a failed one
leaves nothing behind but a fetch error in the counters. So the whole call is worth the last of its
reconciles and one fetch error for each attempt before it.
-/

namespace PolicyWarden

variable {α ρ : Type}

namespace Cache

theorem commit_replicate_comm (cache : Cache ρ) (occurrence : Occurrence) (times : Nat)
    (effects : List (Effect ρ)) :
    (cache.commit (List.replicate times (.record occurrence))).commit effects =
      (cache.commit effects).commit (List.replicate times (.record occurrence)) := by
  induction times generalizing cache with
  | zero => rfl
  | succ times induction =>
      rw [List.replicate_succ, commit_cons, commit_cons, induction, commit_record_comm]

theorem store_commit_replicate (cache : Cache ρ) (occurrence : Occurrence) (times : Nat) :
    (cache.commit (List.replicate times (.record occurrence))).store = cache.store ∧
      (cache.commit (List.replicate times (.record occurrence))).generation =
        cache.generation := by
  induction times generalizing cache with
  | zero => exact ⟨rfl, rfl⟩
  | succ times induction => exact induction (cache.perform (.record occurrence))

end Cache

namespace Reconcile

variable {rules : Rules α ρ} {identity : Identity} {answer : Answer α}

theorem alone_commit_replicate (cache : Cache ρ) (occurrence : Occurrence) (times : Nat) :
    alone rules identity answer (cache.commit (List.replicate times (.record occurrence))) =
      ((alone rules identity answer cache).1.commit (List.replicate times (.record occurrence)),
        (alone rules identity answer cache).2) := by
  rw [alone_eq, alone_eq, (cache.store_commit_replicate occurrence times).1,
    Cache.commit_replicate_comm]

/-- A reconcile by itself comes to a result unless the compiler fails without a verdict, and to an
error only if its fetch has failed. -/
theorem exists_result_alone (cache : Cache ρ)
    (sound : ∀ resource, answer = .ok (some resource) →
      ∀ message, rules.compile identity resource ≠ .panicked message) :
    ∃ result, (alone rules identity answer cache).2 = .ended result ∧
      ∀ error, result = .error error → ∃ failure, answer = .error failure := by
  have reads : Advances rules identity false cache.store (.answered answer) _ _ :=
    advances_onAnswer answer
  rw [alone_eq, course]
  generalize onAnswer rules identity cache.store answer = done at reads
  rcases done with ⟨effects, next⟩
  cases reads with
  | failed error => exact ⟨_, rfl, fun _ _ => ⟨error, rfl⟩⟩
  | removed | absent | unchanged => exact ⟨_, rfl, by rintro _ ⟨⟩⟩
  | changed resource =>
      change ∃ result, (onVerdict rules identity cache.store false resource
        (rules.compile identity resource)).2 = .ended result ∧ _
      cases verdict : rules.compile identity resource with
      | panicked message => exact absurd verdict (sound resource rfl message)
      | accepted policy => exact ⟨.ok .upserted, rfl, by rintro _ ⟨⟩⟩
      | refused errors =>
          exact ⟨.ok (onRefusal rules identity cache.store errors).2, rfl, by rintro _ ⟨⟩⟩

end Reconcile

structure Persevering (α ρ : Type) where
  dispatcher : Dispatcher ρ
  phase : Phase α ρ := .arriving
  fetches : Nat := 0

namespace Persevering

/-- What the call waits for; its fetches get the answers in turn. -/
def awaited (answers : Nat → Answer α) (state : Persevering α ρ) : Move α :=
  match state.phase with
  | .attempting _ .fetching => .answered (answers (state.fetches - 1))
  | .attempting _ (.compiling _) => .compiled
  | .backingOff _ _ _ => .waited
  | _ => .proceed

def step (rules : Rules α ρ) (backoff : Backoff) (identity : Identity) (answers : Nat → Answer α)
    (jitters : Nat → Float) (state : Persevering α ρ) : Option (Persevering α ρ) :=
  (state.phase.move rules backoff (jitters (state.fetches - 1)) identity false state.dispatcher
    (state.awaited answers)).map fun (dispatcher, phase) =>
      { dispatcher, phase
        fetches := if phase.fetching then state.fetches + 1 else state.fetches }

def Reaches (rules : Rules α ρ) (backoff : Backoff) (identity : Identity)
    (answers : Nat → Answer α) (jitters : Nat → Float) :
    Persevering α ρ → Persevering α ρ → Prop :=
  Relation.ReflTransGen fun state next => step rules backoff identity answers jitters state =
    some next

variable {rules : Rules α ρ} {backoff : Backoff} {identity : Identity} {answers : Nat → Answer α}
  {jitters : Nat → Float} {dispatcher : Dispatcher ρ} {attempt : Attempt} {fetches index : Nat}

theorem step_advance {state next : Reconcile α ρ} {effects : List (Effect ρ)}
    (known : awaited answers ⟨dispatcher, .attempting attempt state, fetches⟩ = .proceed)
    (going : state.isOver = false)
    (advanced : state.advance rules identity false dispatcher.cache =
      some (dispatcher.cache.commit effects, next))
    (quiet : (Phase.attempting attempt next).fetching = false) :
    step rules backoff identity answers jitters ⟨dispatcher, .attempting attempt state, fetches⟩ =
      some ⟨{ dispatcher with cache := dispatcher.cache.commit effects },
        .attempting attempt next, fetches⟩ := by
  cases state with
  | ended | unwound => cases going
  | starting | fetching | answered | compiling | compiled =>
      rw [step, known]
      simp only [Phase.move, Phase.advance, advanced, Option.map_some, quiet]
      rfl

theorem fetching_of_isOver {state : Reconcile α ρ} (complete : state.isOver = true) :
    (Phase.attempting attempt state).fetching = false := by
  cases state with
  | fetching => cases complete
  | _ => rfl

theorem reaches_alone :
    Reaches rules backoff identity answers jitters
      ⟨dispatcher, .attempting attempt .starting, fetches⟩
      ⟨{ dispatcher with
          cache := (Reconcile.alone rules identity (answers fetches) dispatcher.cache).1 },
        .attempting attempt
          (Reconcile.alone rules identity (answers fetches) dispatcher.cache).2,
        fetches + 1⟩ := by
  have asked : step rules backoff identity answers jitters
      ⟨dispatcher, .attempting attempt .starting, fetches⟩ =
        some ⟨dispatcher, .attempting attempt .fetching, fetches + 1⟩ := rfl
  have told : step rules backoff identity answers jitters
      ⟨dispatcher, .attempting attempt .fetching, fetches + 1⟩ =
        some ⟨dispatcher, .attempting attempt (.answered (answers fetches)), fetches + 1⟩ := rfl
  refine .head asked (.head told ?_)
  rw [Reconcile.alone_eq]
  have decides : (∃ resource, Reconcile.onAnswer rules identity dispatcher.cache.store
      (answers fetches) = ([], .compiling resource)) ∨ _ := Reconcile.onAnswer_cases _
  rcases decides with ⟨resource, compiles⟩ | ⟨complete, same⟩
  · have advanced : (Reconcile.answered (answers fetches)).advance rules identity false
        dispatcher.cache = some (dispatcher.cache.commit [], .compiling resource) := by
      simp [Reconcile.advance, compiles]
    have taken : step rules backoff identity answers jitters
        ⟨dispatcher, .attempting attempt (.answered (answers fetches)), fetches + 1⟩ =
          some ⟨dispatcher, .attempting attempt (.compiling resource), fetches + 1⟩ :=
      step_advance rfl rfl advanced rfl
    have compiled : step rules backoff identity answers jitters
        ⟨dispatcher, .attempting attempt (.compiling resource), fetches + 1⟩ =
          some ⟨dispatcher, .attempting attempt
            (.compiled resource (rules.compile identity resource)), fetches + 1⟩ := rfl
    refine .head taken (.head compiled (.single ?_))
    rw [Reconcile.course, compiles]
    exact step_advance rfl rfl rfl (fetching_of_isOver (Reconcile.isOver_onVerdict resource _))
  · rw [same]
    exact .single (step_advance rfl rfl rfl (fetching_of_isOver complete))

theorem reaches_next {error : ReconcileError} {wait : Delay} {next : Attempt}
    (retryable : error.retryable = true) (left : backoff.exhausted attempt = false)
    (waits : Backoff.wait attempt (jitters index) = .ok wait)
    (follows : backoff.next attempt = .ok next) :
    Reaches rules backoff identity answers jitters
      ⟨dispatcher, .attempting attempt (.ended (.error error)), index + 1⟩
      ⟨dispatcher, .attempting next .starting, index + 1⟩ := by
  have waiting : step rules backoff identity answers jitters
      ⟨dispatcher, .attempting attempt (.ended (.error error)), index + 1⟩ =
        some ⟨dispatcher, .backingOff attempt error wait, index + 1⟩ := by
    simp [step, awaited, Phase.move, Phase.advance, Retry.returned, retryable, left, waits,
      Phase.ofRetry, Phase.fetching]
  have begins : step rules backoff identity answers jitters
      ⟨dispatcher, .backingOff attempt error wait, index + 1⟩ =
        some ⟨dispatcher, .attempting next .starting, index + 1⟩ := by
    simp [step, awaited, Phase.move, Retry.elapsed, follows, Phase.ofRetry, Phase.fetching]
  exact .head waiting (.single begins)

theorem reaches_returned {result : Except ReconcileError Outcome}
    (last : ∀ error, result = .error error → backoff.exhausted attempt = true)
    (unmarked : dispatcher.inFlight.find? identity = some false) :
    Reaches rules backoff identity answers jitters
      ⟨dispatcher, .attempting attempt (.ended result), fetches⟩
      ⟨{ dispatcher with inFlight := dispatcher.inFlight.erase identity }, .returned result,
        fetches⟩ := by
  have concluded : step rules backoff identity answers jitters
      ⟨dispatcher, .attempting attempt (.ended result), fetches⟩ =
        some ⟨dispatcher, .concluding result, fetches⟩ := by
    cases result with
    | ok outcome => rfl
    | error error =>
        simp [step, awaited, Phase.move, Phase.advance, Retry.returned, last error rfl,
          Phase.ofRetry, Phase.fetching]
  have left : step rules backoff identity answers jitters
      ⟨dispatcher, .concluding result, fetches⟩ =
        some ⟨{ dispatcher with inFlight := dispatcher.inFlight.erase identity },
          .returned result, fetches⟩ := by
    simp [step, awaited, Phase.move, Phase.conclude, unmarked, Phase.fetching]
  exact .head concluded (.single left)

theorem reaches_attempt (rules : Rules α ρ)
    (landed : dispatcher.inFlight.contains identity = false)
    (failed : ∀ earlier < index, ∃ error, answers earlier = .error error)
    (within : backoff.maxAttempts = 0 ∨ index < backoff.maxAttempts.toNat)
    (spaced : ∀ earlier < index, backoff.isSpaced jitters earlier = true) :
    ∃ attempt, backoff.attempt? index = .ok attempt ∧
      Reaches rules backoff identity answers jitters { dispatcher }
        ⟨{ cache := dispatcher.cache.commit (List.replicate index (.record .fetchError))
           inFlight := dispatcher.inFlight.insert identity false },
          .attempting attempt .starting, index⟩ := by
  induction index with
  | zero =>
      have entered : step rules backoff identity answers jitters { dispatcher } =
          some ⟨{ dispatcher with inFlight := dispatcher.inFlight.insert identity false },
            .attempting backoff.first .starting, 0⟩ := by
        simp [step, awaited, Phase.move, Phase.arrive, landed, Phase.run, Phase.ofRetry,
          Retry.start, Phase.fetching]
      exact ⟨backoff.first, rfl, .single entered⟩
  | succ index induction =>
      have earlier := induction (fun earlier before => failed earlier (by omega))
        (within.imp_right fun before => by omega) (fun earlier before => spaced earlier (by omega))
      rcases earlier with ⟨attempt, known, reached⟩
      rcases failed index (by omega) with ⟨error, answered⟩
      rcases Backoff.exists_of_isSpaced known (spaced index (by omega)) with
        ⟨⟨wait, waits⟩, next, follows⟩
      refine ⟨next, by rw [Backoff.attempt?, known]; exact follows, ?_⟩
      have left := Backoff.not_exhausted_attempt known within
      have tried := reached.trans reaches_alone
      rw [answered] at tried
      have again := tried.trans (reaches_next rfl left waits follows)
      rw [List.replicate_succ', Cache.commit_append]
      exact again

/-- A call of an identity that is not in flight, with nobody else at work and no cancellation:
provided each delay it computes is a span of time, and whatever its fetches are answered up to the
first answer that is no error or the one that the last allowed attempt gets, it makes exactly these
fetches. It then returns what one reconcile with the last answer comes to, has done to the cache
what that reconcile does, and has counted one fetch error for each attempt before; if the last
answer is an error too, the store and the generation are as they were. -/
theorem returns_last_reconcile (rules : Rules α ρ) (backoff : Backoff) (jitters : Nat → Float)
    (dispatcher : Dispatcher ρ) {last : Nat}
    (landed : dispatcher.inFlight.contains identity = false)
    (failed : ∀ earlier < last, ∃ error, answers earlier = .error error)
    (within : backoff.maxAttempts = 0 ∨ last < backoff.maxAttempts.toNat)
    (decisive : (∃ found, answers last = .ok found) ∨ last + 1 = backoff.maxAttempts.toNat)
    (spaced : ∀ earlier < last, backoff.isSpaced jitters earlier = true)
    (sound : ∀ resource, answers last = .ok (some resource) →
      ∀ message, rules.compile identity resource ≠ .panicked message) :
    ∃ final result, Reaches rules backoff identity answers jitters { dispatcher } final ∧
      step rules backoff identity answers jitters final = none ∧
      final.phase = .returned result ∧ final.fetches = last + 1 ∧
      (Reconcile.alone rules identity (answers last) dispatcher.cache).2 = .ended result ∧
      final.dispatcher.cache =
        (Reconcile.alone rules identity (answers last) dispatcher.cache).1.commit
          (List.replicate last (.record .fetchError)) ∧
      final.dispatcher.inFlight.contains identity = false ∧
      ∀ error, answers last = .error error → result = .error (.fetch error) ∧
        final.dispatcher.cache.store = dispatcher.cache.store ∧
        final.dispatcher.cache.generation = dispatcher.cache.generation := by
  rcases reaches_attempt rules landed failed within spaced with ⟨attempt, known, reached⟩
  have tried := reached.trans reaches_alone
  rcases Reconcile.exists_result_alone dispatcher.cache sound with ⟨result, ended, failing⟩
  -- The fetch errors counted so far may stand behind what the last reconcile does.
  rw [Reconcile.alone_commit_replicate, ended] at tried
  have final : ∀ error, result = .error error → backoff.exhausted attempt = true := by
    intro error failed
    rcases decisive with ⟨found, answered⟩ | maximal
    · rcases failing error failed with ⟨failure, refuted⟩
      cases answered.symm.trans refuted
    · exact Backoff.exhausted_attempt known maximal
  have returned := tried.trans (reaches_returned final (by simp))
  refine ⟨_, result, returned, rfl, rfl, rfl, ended, rfl, by simp, ?_⟩
  intro error answered
  rw [answered] at ended
  cases ended
  exact ⟨rfl, answered ▸ Cache.store_commit_replicate _ _ _⟩

def unreachable : FetchError := ⟨⟨"a"⟩, "unreachable"⟩

def answersAfter (failures : Nat) : Nat → Answer String := fun index =>
  if index < failures then .error unreachable else .ok (some "permit")

def uneven (index : Nat) : Float :=
  if index = 0 then 0.75 else 1.25

/-- The third of three attempts is answered after two waits; and all of three attempts fail. -/
theorem returns_last_reconcile_answeredThird :
    (∃ final, Reaches Rules.plain { maxAttempts := 3 } ⟨"a"⟩ (answersAfter 2) uneven
        { dispatcher := {} } final ∧
      final.phase = .returned (.ok .upserted) ∧ final.fetches = 3 ∧
      final.dispatcher.cache.counters.fetchErrors = 2 ∧
      final.dispatcher.cache.counters.upserts = 1) ∧
    ∃ final, Reaches Rules.plain { maxAttempts := 3 } ⟨"a"⟩ (answersAfter 3) uneven
        { dispatcher := {} } final ∧
      final.phase = .returned (.error (.fetch unreachable)) ∧ final.fetches = 3 ∧
      final.dispatcher.cache.counters.fetchErrors = 3 ∧
      final.dispatcher.cache.generation = 0 := by
  have sound (resource : String) (message : String) :
      Rules.plain.compile ⟨"a"⟩ resource ≠ .panicked message := by
    unfold Rules.plain
    simp only
    split <;> nofun
  have spaced : ∀ earlier < 2, Backoff.isSpaced { maxAttempts := 3 } uneven earlier = true := by
    decide +kernel
  constructor
  · have failed : ∀ earlier < 2, ∃ error, answersAfter 2 earlier = .error error :=
      fun earlier before => ⟨unreachable, if_pos before⟩
    rcases returns_last_reconcile Rules.plain { maxAttempts := 3 } uneven {} rfl failed
      (.inr (by decide)) (.inl ⟨some "permit", rfl⟩) spaced (fun resource _ => sound resource) with
      ⟨final, result, reached, -, phase, fetches, ended, cache, -, -⟩
    cases ended
    exact ⟨final, reached, phase, fetches, by rw [cache]; rfl, by rw [cache]; rfl⟩
  · have failed : ∀ earlier < 2, ∃ error, answersAfter 3 earlier = .error error :=
      fun earlier before => ⟨unreachable, if_pos (by omega)⟩
    rcases returns_last_reconcile Rules.plain { maxAttempts := 3 } uneven {} rfl failed
      (.inr (by decide)) (.inr rfl) spaced (fun resource _ => sound resource) with
      ⟨final, result, reached, -, phase, fetches, ended, cache, -, unchanged⟩
    cases ended
    exact ⟨final, reached, phase, fetches, by rw [cache]; rfl, (unchanged _ rfl).2.2⟩

end Persevering

end PolicyWarden
