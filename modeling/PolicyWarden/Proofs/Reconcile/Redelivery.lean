import PolicyWarden.Proofs.Reconcile.Course
import PolicyWarden.Proofs.Reconcile.Footprint
import PolicyWarden.Proofs.Snapshot.Interchange

/-!
The same event delivered twice. `Delivers` lists what can become of an answer of the source in a
reconcile that nobody disturbs; from this list it is read off what becomes of the same answer in the
store that the first reconcile leaves. The second reconcile leaves this store as it is, and readers
cannot tell afterwards whether it took place; `redelivery_idempotent` is the main statement.
-/

namespace PolicyWarden

variable {α ρ : Type}

def Outcome.again : Outcome → Outcome
  | .upserted | .unchanged => .unchanged
  | .removed | .absent => .absent
  | .rejected errors _ => .rejected errors false

theorem Outcome.mutated_again (outcome : Outcome) : outcome.again.mutated = false := by
  cases outcome <;> rfl

namespace Reconcile

/-- What becomes of an answer if nobody disturbs the reconcile: its effects and its result. -/
inductive Delivers (rules : Rules α ρ) (identity : Identity) (store : Store ρ) :
    Answer α → List (Effect ρ) → Except ReconcileError Outcome → Prop
  | failed (error : FetchError) :
      Delivers rules identity store (.error error) [.record .fetchError] (.error (.fetch error))
  | removed (present : store.contains identity = true) :
      Delivers rules identity store (.ok none) (removal identity) (.ok .removed)
  | absent (missing : store.contains identity = false) :
      Delivers rules identity store (.ok none) [] (.ok .absent)
  | unchanged (resource : α) (revision : String) (known : rules.revision resource = some revision)
      (same : Store.revision store identity = some revision) :
      Delivers rules identity store (.ok (some resource)) [] (.ok .unchanged)
  | upserted (resource : α) (policy : ρ)
      (different : rules.revision resource = none ∨
        Store.revision store identity ≠ rules.revision resource)
      (accepted : rules.compile identity resource = .accepted policy) :
      Delivers rules identity store (.ok (some resource))
        [.upsert identity policy (rules.revision resource), .invalidate, .record .upsert]
        (.ok .upserted)
  | retained (resource : α) (errors : List CompileError)
      (different : rules.revision resource = none ∨
        Store.revision store identity ≠ rules.revision resource)
      (refused : rules.compile identity resource = .refused errors)
      (kept : rules.onRefusal = .retainPrevious ∨ store.contains identity = false) :
      Delivers rules identity store (.ok (some resource)) [.record .compileFailure]
        (.ok (.rejected errors false))
  | evicted (resource : α) (errors : List CompileError)
      (different : rules.revision resource = none ∨
        Store.revision store identity ≠ rules.revision resource)
      (refused : rules.compile identity resource = .refused errors)
      (evicts : rules.onRefusal = .evict) (present : store.contains identity = true) :
      Delivers rules identity store (.ok (some resource))
        (.record .compileFailure :: removal identity) (.ok (.rejected errors true))

def Unversioned (rules : Rules α ρ) (identity : Identity) (answer : Answer α) : Prop :=
  ∃ resource policy, answer = .ok (some resource) ∧ rules.revision resource = none ∧
    rules.compile identity resource = .accepted policy

variable {rules : Rules α ρ} {identity : Identity} {answer : Answer α} {store : Store ρ}
  {cache : Cache ρ} {effects later : List (Effect ρ)} {result : Except ReconcileError Outcome}

theorem delivers_course
    (sound : ∀ resource, answer = .ok (some resource) →
      ∀ message, rules.compile identity resource ≠ .panicked message) :
    ∃ effects result, course rules identity answer store = (effects, .ended result) ∧
      Delivers rules identity store answer effects result := by
  have reads : Advances rules identity false store (.answered answer) _ _ :=
    advances_onAnswer answer
  rw [course]
  generalize onAnswer rules identity store answer = done at reads
  rcases done with ⟨effects, next⟩
  cases reads with
  | failed error => exact ⟨_, _, rfl, .failed error⟩
  | removed present => exact ⟨_, _, rfl, .removed present⟩
  | absent missing => exact ⟨_, _, rfl, .absent missing⟩
  | unchanged resource revision known same =>
      exact ⟨_, _, rfl, .unchanged resource revision known same⟩
  | changed resource different =>
      have decides : Advances rules identity false store
          (.compiled resource (rules.compile identity resource)) _ _ :=
        advances_onVerdict resource _
      change ∃ effects result, onVerdict rules identity store false resource
        (rules.compile identity resource) = (effects, .ended result) ∧ _
      generalize onVerdict rules identity store false resource
        (rules.compile identity resource) = done at decides
      rcases done with ⟨effects, next⟩
      generalize verdict : rules.compile identity resource = found at decides
      cases decides with
      | unwound _ message => exact absurd verdict (sound resource rfl message)
      | withdrawn _ _ unwanted => cases unwanted
      | upserted _ policy => exact ⟨_, _, rfl, .upserted resource policy different verdict⟩
      | retained _ errors _ kept =>
          exact ⟨_, _, rfl, .retained resource errors different verdict kept⟩
      | evicted _ errors _ evicts present =>
          exact ⟨_, _, rfl, .evicted resource errors different verdict evicts present⟩

theorem onAnswer_of_different {resource : α}
    (different : rules.revision resource = none ∨
      Store.revision store identity ≠ rules.revision resource) :
    onAnswer rules identity store (.ok (some resource)) = ([], .compiling resource) := by
  rcases different with unknown | other <;> simp [onAnswer, *]

theorem Delivers.course_eq (delivers : Delivers rules identity store answer effects result) :
    course rules identity answer store = (effects, .ended result) := by
  cases delivers with
  | failed error => rfl
  | removed present => simp [course, onAnswer, present]
  | absent missing => simp [course, onAnswer, missing]
  | unchanged resource revision known same => simp [course, onAnswer, known, same]
  | upserted resource policy different accepted =>
      simp [course, onAnswer_of_different different, onVerdict, accepted]
  | retained resource errors different refused kept =>
      rcases kept with retains | missing
      · simp [course, onAnswer_of_different different, onVerdict, onRefusal, refused, retains]
      · cases policy : rules.onRefusal <;>
          simp [course, onAnswer_of_different different, onVerdict, onRefusal, refused, policy,
            missing]
  | evicted resource errors different refused evicts present =>
      simp [course, onAnswer_of_different different, onVerdict, onRefusal, refused, evicts, present]

theorem different_of_missing (missing : store.contains identity = false) (resource : α) :
    rules.revision resource = none ∨
      Store.revision store identity ≠ rules.revision resource := by
  rw [Store.revision, Table.find?_of_not_contains missing]
  cases rules.revision resource with
  | none => exact .inl rfl
  | some revision => exact .inr fun same => by cases same

theorem Delivers.again (delivers : Delivers rules identity cache.store answer effects result)
    (versioned : ¬Unversioned rules identity answer) :
    ∃ later, Delivers rules identity (cache.commit effects).store answer later
        (result.map Outcome.again) ∧ ∀ effect ∈ later, effect.touches = false := by
  have landed : ((cache.store.erase identity).contains identity) = false := by simp
  cases delivers with
  | failed error =>
      refine ⟨_, .failed error, ?_⟩
      rintro effect (_ | ⟨_, ⟨⟩⟩)
      rfl
  | removed present => exact ⟨_, .absent landed, List.forall_mem_nil _⟩
  | absent missing => exact ⟨_, .absent missing, List.forall_mem_nil _⟩
  | unchanged resource revision known same =>
      exact ⟨_, .unchanged resource revision known same, List.forall_mem_nil _⟩
  | upserted resource policy different accepted =>
      cases known : rules.revision resource with
      | none => exact absurd ⟨resource, policy, rfl, known, accepted⟩ versioned
      | some revision =>
          refine ⟨_, .unchanged resource revision known ?_, List.forall_mem_nil _⟩
          simp [Store.revision]
  | retained resource errors different refused kept =>
      refine ⟨_, .retained resource errors different refused kept, ?_⟩
      rintro effect (_ | ⟨_, ⟨⟩⟩)
      rfl
  | evicted resource errors different refused evicts present =>
      refine ⟨_, .retained resource errors (different_of_missing landed resource) refused
        (.inr landed), ?_⟩
      rintro effect (_ | ⟨_, ⟨⟩⟩)
      rfl

theorem Delivers.unversioned (delivers : Delivers rules identity store answer effects result)
    (unversioned : Unversioned rules identity answer) :
    ∃ policy, effects = [.upsert identity policy none, .invalidate, .record .upsert] ∧
      ∀ other : Store ρ, Delivers rules identity other answer effects (.ok .upserted) := by
  rcases unversioned with ⟨resource, policy, rfl, unknown, accepted⟩
  have stores (other : Store ρ) : Delivers rules identity other (.ok (some resource))
      [.upsert identity policy (rules.revision resource), .invalidate, .record .upsert]
      (.ok .upserted) :=
    .upserted resource policy (.inl unknown) accepted
  have same := delivers.course_eq.symm.trans (stores store).course_eq
  cases same
  exact ⟨policy, by rw [unknown], stores⟩

theorem Delivers.dated {coming : Nat}
    (delivers : Delivers rules identity cache.store answer effects result)
    (dated : cache.Dated (coming + 1)) : (cache.commit effects).Dated coming := by
  have once : effects.countP Effect.invalidates ≤ 1 := by
    cases delivers with
    | failed | absent | unchanged | retained => exact Nat.zero_le 1
    | removed | upserted | evicted => exact Nat.le_refl 1
  exact (dated.mono (Nat.add_le_add_left once _)).commit

def movesLeft : Reconcile α ρ → Nat
  | .starting => 5
  | .fetching => 4
  | .answered _ => 3
  | .compiling _ => 2
  | .compiled _ _ => 1
  | .ended _ | .unwound _ => 0

end Reconcile

namespace ReconcileCall

variable {rules : Rules α ρ} {answer : Answer α} {cache after : Cache ρ}
  {call moved : ReconcileCall α ρ} {motion : Reconcile.Motion}

theorem motion_eq_awaited (wanted : call.cancelled = false)
    (sane : ∀ message, motion ≠ .crash message)
    (moves : call.move rules answer cache motion = some (after, moved)) :
    motion = call.state.awaited := by
  rcases (effects_of_move moves).2 with ⟨next, rfl, -, advances⟩ | ⟨-, brings⟩
  · generalize call.effects rules cache.store .advance = effects at advances
    generalize call.state = state at advances
    cases advances <;> rfl
  · cases brings with
    | answer fetching => rw [fetching]; rfl
    | abandon _ unwanted => rw [wanted] at unwanted; cases unwanted
    | compile resource compiling => rw [compiling]; rfl
    | crash resource message => exact absurd rfl (sane message)

theorem movesLeft_of_move (moves : call.move rules answer cache motion = some (after, moved)) :
    moved.state.movesLeft < call.state.movesLeft := by
  rcases (effects_of_move moves).2 with ⟨next, -, rfl, advances⟩ | ⟨-, brings⟩
  · generalize call.effects rules cache.store motion = effects at advances
    generalize call.state = state at advances
    cases advances <;> simp [Reconcile.movesLeft]
  · cases brings with
    | answer fetching | abandon fetching => simp [Reconcile.movesLeft, fetching]
    | compile resource compiling | crash resource message compiling =>
        simp [Reconcile.movesLeft, compiling]

theorem exists_move (rules : Rules α ρ) (answer : Answer α) (cache : Cache ρ)
    (going : call.state.isOver = false) :
    ∃ result, call.move rules answer cache call.state.awaited = some result := by
  rcases call with ⟨identity, cancelled, given, state⟩
  cases state with
  | ended | unwound => cases going
  | _ => exact ⟨_, rfl⟩

theorem effects_of_going (moves : call.move rules answer cache motion = some (after, moved))
    (going : moved.state.isOver = false) : call.effects rules cache.store motion = [] := by
  rcases (effects_of_move moves).2 with ⟨next, -, rfl, advances⟩ | ⟨silent, -⟩
  · rcases advances.over_or_silent with complete | silent
    · rw [going] at complete; cases complete
    · exact silent
  · exact silent

end ReconcileCall

namespace Undertaking

open Reconcile (Delivers Unversioned course finish)

/-- Nothing happens but moves of the reconcile itself; the source gives this answer, and the compiler
does not fail without a verdict. -/
def Undisturbed (answer : Answer α) (acts : List (UndertakingAct α ρ)) : Prop :=
  ∀ act ∈ acts, ∃ motion, act = .move motion answer ∧ ∀ message, motion ≠ .crash message

structure Delivery (rules : Rules α ρ) (identity : Identity) (answer : Answer α) (cache : Cache ρ)
    (acts : List (UndertakingAct α ρ)) (state : Undertaking α ρ) : Prop where
  ran : run rules acts (start cache identity) = some state
  undisturbed : Undisturbed answer acts

/-- What a reconcile that nobody disturbs has done and has left to do makes up its course. -/
structure OnCourse (rules : Rules α ρ) (identity : Identity) (answer : Answer α) (cache : Cache ρ)
    (effects : List (Effect ρ)) (state : Undertaking α ρ) : Prop where
  own : state.call.identity = identity
  wanted : state.call.cancelled = false
  done : state.cache = cache.commit effects
  silent : state.call.state.isOver = false → effects = []
  rest : (effects ++ (finish rules identity answer cache.store state.call.state).1,
      (finish rules identity answer cache.store state.call.state).2) =
    course rules identity answer cache.store

variable {rules : Rules α ρ} {identity : Identity} {answer : Answer α} {cache : Cache ρ}
  {acts : List (UndertakingAct α ρ)} {state next : Undertaking α ρ} {effects : List (Effect ρ)}

theorem OnCourse.of_move (onCourse : OnCourse rules identity answer cache effects state)
    {motion : Reconcile.Motion} (sane : ∀ message, motion ≠ .crash message)
    (stepped : step rules state (.move motion answer) = some next) :
    OnCourse rules identity answer cache (state.call.effects rules cache.store motion) next := by
  rcases Option.map_eq_some_iff.mp stepped with ⟨⟨after, moved⟩, moves, rfl⟩
  have unchanged : effects = [] := onCourse.silent (ReconcileCall.going_of_move moves)
  have same : state.cache = cache := by rw [onCourse.done, unchanged, Cache.commit_nil]
  rw [same] at moves
  have awaited := ReconcileCall.motion_eq_awaited onCourse.wanted sane moves
  have rest := onCourse.rest
  have left := ReconcileCall.finish_eq_of_move onCourse.wanted (awaited ▸ moves)
  rw [onCourse.own, ← awaited] at left
  rw [unchanged, List.nil_append, left] at rest
  exact {
    own := (ReconcileCall.identity_of_move moves).trans onCourse.own
    wanted := (ReconcileCall.cancelled_of_move moves).trans onCourse.wanted
    done := (ReconcileCall.effects_of_move moves).1
    silent := ReconcileCall.effects_of_going moves
    rest }

theorem Delivery.onCourse (delivery : Delivery rules identity answer cache acts state) :
    ∃ effects, OnCourse rules identity answer cache effects state := by
  refine Execution.run_history (fun acts state => Undisturbed answer acts →
    ∃ effects, OnCourse rules identity answer cache effects state) ?_ ?_ delivery.ran
      delivery.undisturbed
  · exact fun _ => ⟨[], rfl, rfl, rfl, fun _ => rfl, rfl⟩
  · intro acts act state next _ known stepped undisturbed
    rcases known fun other member => undisturbed other (List.mem_append_left _ member) with
      ⟨effects, onCourse⟩
    rcases undisturbed act (List.mem_append_right _ (List.mem_singleton_self _)) with
      ⟨motion, rfl, sane⟩
    exact ⟨_, onCourse.of_move sane stepped⟩

theorem Delivery.course_eq (delivery : Delivery rules identity answer cache acts state)
    (complete : state.call.state.isOver = true) :
    ∃ effects, course rules identity answer cache.store = (effects, state.call.state) ∧
      state.cache = cache.commit effects := by
  rcases delivery.onCourse with ⟨effects, onCourse⟩
  have rest := onCourse.rest
  rw [Reconcile.finish_of_isOver complete, List.append_nil] at rest
  exact ⟨effects, rest.symm, onCourse.done⟩

theorem Delivery.length_add_le (delivery : Delivery rules identity answer cache acts state) :
    acts.length + state.call.state.movesLeft ≤ 5 := by
  refine Execution.run_history (fun acts (state : Undertaking α ρ) => Undisturbed answer acts →
    acts.length + state.call.state.movesLeft ≤ 5) ?_ ?_ delivery.ran delivery.undisturbed
  · exact fun _ => Nat.le_refl 5
  · intro acts act state next _ known stepped undisturbed
    have bounded := known fun other member => undisturbed other (List.mem_append_left _ member)
    rcases undisturbed act (List.mem_append_right _ (List.mem_singleton_self _)) with
      ⟨motion, rfl, -⟩
    rcases Option.map_eq_some_iff.mp stepped with ⟨⟨after, moved⟩, moves, rfl⟩
    have less := ReconcileCall.movesLeft_of_move moves
    simp only [List.length_append, List.length_singleton]
    omega

theorem Delivery.over_or_goesOn (delivery : Delivery rules identity answer cache acts state) :
    state.call.state.isOver = true ∨
      ∃ act next, Delivery rules identity answer cache (acts ++ [act]) next := by
  cases going : state.call.state.isOver with
  | true => exact .inl rfl
  | false =>
      rcases ReconcileCall.exists_move rules answer state.cache going with
        ⟨⟨after, moved⟩, moves⟩
      refine .inr ⟨.move state.call.state.awaited answer, ⟨after, moved⟩, ?_, ?_⟩
      · refine Execution.run_append_eq_some.mpr ⟨state, delivery.ran, ?_⟩
        rw [Execution.run_singleton, step, moves]
        rfl
      · intro act member
        rcases List.mem_append.mp member with old | new
        · exact delivery.undisturbed act old
        · refine ⟨_, List.mem_singleton.mp new, fun message => ?_⟩
          intro same
          cases phase : state.call.state <;> rw [phase] at same <;> cases same

theorem Delivery.delivers (delivery : Delivery rules identity answer cache acts state)
    (complete : state.call.state.isOver = true)
    (sound : ∀ resource, answer = .ok (some resource) →
      ∀ message, rules.compile identity resource ≠ .panicked message) :
    ∃ effects result, Delivers rules identity cache.store answer effects result ∧
      state.call.state = .ended result ∧ state.cache = cache.commit effects := by
  rcases delivery.course_eq complete with ⟨effects, course, done⟩
  rcases Reconcile.delivers_course sound with ⟨known, result, taken, delivers⟩
  rcases Prod.mk.inj (course.symm.trans taken) with ⟨rfl, ended⟩
  exact ⟨effects, result, delivers, ended, done⟩

/-- A reconcile comes to its end if nobody disturbs it, in a few moves. Delivered again right after
that, the same answer leaves the store as it is, and no reader gets anything else than without it,
whatever is done to the cache afterwards. Unless a policy without a revision is stored each time, the
second reconcile does not touch the cache, and finds things as the first one has left them; if one is
stored each time, readers depend on it that no generation comes back. -/
theorem redelivery_idempotent
    (sound : ∀ resource, answer = .ok (some resource) →
      ∀ message, rules.compile identity resource ≠ .panicked message) :
    (∀ (cache : Cache ρ) acts state, Delivery rules identity answer cache acts state →
      acts.length ≤ 5 ∧ (state.call.state.isOver = true ∨
        ∃ act next, Delivery rules identity answer cache (acts ++ [act]) next)) ∧
    ∀ (cache : Cache ρ) acts first later second,
      Delivery rules identity answer cache acts first → first.call.state.isOver = true →
      Delivery rules identity answer first.cache later second →
      second.call.state.isOver = true →
      second.cache.store = first.cache.store ∧
      (∀ following : List (CacheAct ρ),
        (Unversioned rules identity answer →
          cache.Dated (following.countP CacheAct.invalidates + 2)) →
            second.cache.reads following = first.cache.reads following) ∧
      ∃ result, first.call.state = .ended result ∧
        (¬Unversioned rules identity answer →
          second.call.state = .ended (result.map Outcome.again) ∧
            touches rules later (start first.cache identity) = []) := by
  refine ⟨?ends, ?again⟩
  case ends =>
    intro cache acts state delivery
    exact ⟨Nat.le_trans (Nat.le_add_right _ _) delivery.length_add_le, delivery.over_or_goesOn⟩
  case again =>
    intro cache acts first later second delivery complete redelivery completeAgain
    rcases delivery.delivers complete sound with ⟨effects, result, delivers, ended, done⟩
    rcases redelivery.delivers completeAgain sound with
      ⟨more, last, redelivers, endedAgain, doneAgain⟩
    rw [doneAgain]
    by_cases unversioned : Unversioned rules identity answer
    · rcases delivers.unversioned unversioned with ⟨policy, rfl, stores⟩
      cases redelivers.course_eq.symm.trans (stores first.cache.store).course_eq
      refine ⟨by rw [done]; exact Table.insert_insert _ _ _, fun following dated => ?_, result, ended,
        absurd unversioned⟩
      have dated := dated unversioned
      have once := delivers.dated dated
      have alike := Cache.interchangeable_upserted identity policy none dated
      rw [done] at redelivers ⊢
      exact alike.reads_eq following (redelivers.dated once) (once.mono (Nat.le_succ _))
    · rcases delivers.again unversioned with ⟨found, finds, silent⟩
      cases redelivers.course_eq.symm.trans (done ▸ finds).course_eq
      rcases Cache.commit_of_silent silent first.cache with ⟨counters, counted⟩
      rw [counted]
      refine ⟨rfl, fun following _ => first.cache.reads_counters counters following, result, ended,
        fun _ => ⟨endedAgain, ?_⟩⟩
      apply (known_of_run redelivery.ran).reported.untouched.mpr
      rw [ReconcileCall.mutated, endedAgain]
      cases result with
      | error error => rfl
      | ok outcome => exact outcome.mutated_again

def refusal : List (UndertakingAct String String) :=
  [.advance, .answer, .advance, .compile, .advance].map (.move · (.ok (some "")))

theorem redelivery_idempotent_evicted :
    ∃ first second, run (.plain .evict) refusal (start (.holding [(⟨"a"⟩, "old")]) ⟨"a"⟩) =
        some first ∧
      run (.plain .evict) refusal (start first.cache ⟨"a"⟩) = some second ∧
      first.call.state = .ended (.ok (.rejected [] true)) ∧
      second.call.state = .ended (.ok (.rejected [] false)) ∧
      second.cache.store = first.cache.store ∧
      (∀ following, second.cache.reads following = first.cache.reads following) ∧
      touches (.plain .evict) refusal (start first.cache ⟨"a"⟩) = [] := by
  have runs : ∃ first second,
      run (.plain .evict) refusal (start (.holding [(⟨"a"⟩, "old")]) ⟨"a"⟩) = some first ∧
        run (.plain .evict) refusal (start first.cache ⟨"a"⟩) = some second ∧
        first.call.state = .ended (.ok (.rejected [] true)) ∧
        second.call.state.isOver = true :=
    ⟨_, _, rfl, rfl, rfl, rfl⟩
  rcases runs with ⟨first, second, ran, ranAgain, evicted, complete⟩
  have undisturbed : Undisturbed (.ok (some "")) refusal := by
    intro act member
    rcases List.mem_map.mp member with ⟨motion, known, rfl⟩
    refine ⟨motion, rfl, ?_⟩
    rintro message rfl
    simp at known
  have sound : ∀ resource, (.ok (some "") : Answer String) = .ok (some resource) →
      ∀ message, (Rules.plain .evict).compile ⟨"a"⟩ resource ≠ .panicked message := by
    rintro _ ⟨⟩ message
    nofun
  have versioned : ¬Unversioned (.plain .evict) ⟨"a"⟩ (.ok (some "")) := by
    rintro ⟨_, policy, ⟨⟩, unknown, -⟩
    cases unknown
  rcases (redelivery_idempotent sound).2 _ _ first _ second ⟨ran, undisturbed⟩
    (by rw [evicted]; rfl) ⟨ranAgain, undisturbed⟩ complete with
    ⟨same, unread, result, ended, again⟩
  cases evicted.symm.trans ended
  rcases again versioned with ⟨rejected, untouched⟩
  exact ⟨first, second, ran, ranAgain, evicted, rejected, same,
    fun following => unread following (absurd · versioned), untouched⟩

end Undertaking

end PolicyWarden
