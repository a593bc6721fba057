import PolicyWarden.Proofs.Reconcile.Concurrent

/-!
The store as its history tells it. A call that is over may settle its identity: with a resource that
compiles it leaves the policy and the revision of that resource, with an absent one, or a refused
one where those are evicted, it leaves nothing. The main statement is that the store holds for each
identity what the latest call left that settled it, as long as the source hands out no two resources
of one revision that compile differently.
-/

namespace PolicyWarden

variable {α ρ : Type}

namespace ReconcileCall

/-- What a call that is over leaves for its identity, an entry or none; `none` if it leaves things
as they were. -/
def settles (rules : Rules α ρ) (call : ReconcileCall α ρ) : Option (Option (Entry ρ)) :=
  match call.answer, call.state with
  | some (.ok none), .ended (.ok _) => some none
  | some (.ok (some resource)), .ended (.ok _) =>
      match rules.compile call.identity resource with
      | .accepted policy => some (some ⟨policy, rules.revision resource⟩)
      | .refused _ => if rules.onRefusal = .evict then some none else none
      | .panicked _ => none
  | _, _ => none

end ReconcileCall

namespace Reconciling

def entryAfter (rules : Rules α ρ) (ended : List (ReconcileCall α ρ)) (identity : Identity) :
    Option (Entry ρ) :=
  ((ended.filter fun call => call.identity = identity).findSome?
    (ReconcileCall.settles rules)).join

/-- Resources of one identity and one revision that were handed out compile alike. -/
def Consistent (rules : Rules α ρ) (state : Reconciling α ρ) : Prop :=
  ∀ identity first second, (identity, first) ∈ state.served → (identity, second) ∈ state.served →
    rules.revision first = rules.revision second → rules.revision first ≠ none →
    rules.compile identity first = rules.compile identity second

def Sourced (rules : Rules α ρ) (store : Store ρ) (served : List (Identity × α)) : Prop :=
  ∀ identity entry, store.find? identity = some entry →
    ∃ resource, (identity, resource) ∈ served ∧
      rules.compile identity resource = .accepted entry.policy ∧
      rules.revision resource = entry.revision

end Reconciling

end PolicyWarden

namespace PolicyWarden.ReconcileCall

open Reconcile (Advances)
open Reconciling (Consistent Sourced)

variable {α ρ : Type} {rules : Rules α ρ} {call : ReconcileCall α ρ}

theorem settles_of_compiled {resource : α} {policy : ρ} {outcome : Outcome}
    (answered : call.answer = some (.ok (some resource)))
    (accepted : rules.compile call.identity resource = .accepted policy) :
    settles rules { call with state := .ended (.ok outcome) } =
      some (some ⟨policy, rules.revision resource⟩) := by
  simp [settles, answered, accepted]

theorem settles_of_absent {outcome : Outcome} (answered : call.answer = some (.ok none)) :
    settles rules { call with state := .ended (.ok outcome) } = some none := by
  simp [settles, answered]

theorem settles_of_refused {resource : α} {errors : List CompileError} {outcome : Outcome}
    (answered : call.answer = some (.ok (some resource)))
    (refused : rules.compile call.identity resource = .refused errors) :
    settles rules { call with state := .ended (.ok outcome) } =
      if rules.onRefusal = .evict then some none else none := by
  simp [settles, answered, refused]

theorem settles_of_failed {error : ReconcileError} :
    settles rules { call with state := .ended (.error error) } = none := by
  unfold settles
  split <;> simp_all

theorem settles_of_not_ended (unended : ∀ result, call.state ≠ .ended result) :
    settles rules call = none := by
  unfold settles
  split <;> simp_all

/-- What a step of a call does to the store: the entry of its identity becomes what the call
settles, if it settles anything, and no other entry changes. The shortcut by the revision needs to
know that the resource it spares would have compiled to the stored policy. -/
theorem find?_of_advances {cache : Cache ρ} {effects : List (Effect ρ)} {next : Reconcile α ρ}
    (advances : Advances rules call.identity call.cancelled cache.store call.state effects next)
    (logged : call.Logged rules)
    (spared : ∀ resource policy revision, call.answer = some (.ok (some resource)) →
      rules.revision resource = some revision →
      cache.store.find? call.identity = some ⟨policy, some revision⟩ →
      rules.compile call.identity resource = .accepted policy)
    (other : Identity) :
    (cache.commit effects).store.find? other =
      if other = call.identity then
        (settles rules { call with state := next }).getD (cache.store.find? other)
      else cache.store.find? other := by
  generalize source : call.state = state at advances
  have told := logged
  simp only [Logged, source] at told
  cases advances with
  | ask => simp [settles_of_not_ended]
  | refrain => simp [settles_of_failed]
  | failed error => simp [settles_of_failed]
  | removed present => simp [Reconcile.removal, settles_of_absent told]
  | absent missing =>
      have unknown := Table.find?_of_not_contains missing
      by_cases same : other = call.identity
      · simp [same, unknown, settles_of_absent told]
      · simp [same]
  | unchanged resource revision known same =>
      rcases Store.find?_of_revision same with ⟨policy, found⟩
      have accepted := spared resource policy revision told known found
      by_cases same : other = call.identity
      · simp [same, found, settles_of_compiled told accepted, known]
      · simp [same]
  | changed resource different => simp [settles_of_not_ended]
  | unwound resource message => simp [settles_of_not_ended]
  | withdrawn resource verdict => simp [settles_of_failed]
  | upserted resource policy wanted =>
      rcases logged.compiled source (by simp) with ⟨answered, accepted⟩
      simp [settles_of_compiled answered accepted]
  | retained resource errors wanted kept =>
      rcases logged.compiled source (by simp) with ⟨answered, refused⟩
      rw [settles_of_refused answered refused]
      rcases kept with retains | missing
      · simp [retains]
      · have unknown := Table.find?_of_not_contains missing
        by_cases same : other = call.identity <;> by_cases evicts : rules.onRefusal = .evict <;>
          simp [same, evicts, unknown]
  | evicted resource errors wanted evicts present =>
      rcases logged.compiled source (by simp) with ⟨answered, refused⟩
      simp [Reconcile.removal, settles_of_refused answered refused, evicts]

theorem find?_of_move {answer : Answer α} {cache after : Cache ρ} {moved : ReconcileCall α ρ}
    {motion : Reconcile.Motion}
    (moves : call.move rules answer cache motion = some (after, moved))
    (logged : call.Logged rules)
    (spared : ∀ resource policy revision, call.answer = some (.ok (some resource)) →
      rules.revision resource = some revision →
      cache.store.find? call.identity = some ⟨policy, some revision⟩ →
      rules.compile call.identity resource = .accepted policy)
    (other : Identity) :
    after.store.find? other =
      if other = call.identity then (moved.settles rules).getD (cache.store.find? other)
      else cache.store.find? other := by
  rcases move_cases moves with
    ⟨effects, next, rfl, rfl, advances⟩ | ⟨rfl, -, rfl⟩ | ⟨rfl, -, -, rfl⟩ |
      ⟨resource, verdict, rfl, -, rfl, -⟩
  · exact find?_of_advances advances logged spared other
  · simp [settles_of_not_ended]
  · simp [settles_of_failed]
  · simp [settles_of_not_ended]

theorem settles_of_going (going : call.state.isOver = false) : call.settles rules = none :=
  settles_of_not_ended fun result ended => by simp [ended, Reconcile.isOver] at going

theorem sourced_of_settles {entry : Entry ρ} (settled : call.settles rules = some (some entry)) :
    ∃ resource, call.answer = some (.ok (some resource)) ∧
      rules.compile call.identity resource = .accepted entry.policy ∧
      rules.revision resource = entry.revision := by
  unfold settles at settled
  split at settled
  · cases settled
  · next resource outcome answered ended =>
      split at settled
      · next policy accepted =>
          cases settled
          exact ⟨resource, answered, accepted, rfl⟩
      · split at settled <;> cases settled
      · cases settled
  · cases settled

theorem mem_served {resource : α} (answered : call.answer = some (.ok (some resource))) :
    (call.identity, resource) ∈ call.served := by
  simp [served, answered]

end PolicyWarden.ReconcileCall

namespace PolicyWarden.Reconciling

open ReconcileCall (settles)

variable {α ρ : Type} {rules : Rules α ρ} {state next : Reconciling α ρ} {act : ReconcileAct α}

theorem entryAfter_cons (call : ReconcileCall α ρ) (ended : List (ReconcileCall α ρ))
    (identity : Identity) :
    entryAfter rules (call :: ended) identity =
      if identity = call.identity then (call.settles rules).getD (entryAfter rules ended identity)
      else entryAfter rules ended identity := by
  by_cases same : identity = call.identity
  · cases left : call.settles rules with
    | none => simp [entryAfter, same, left]
    | some entry => simp [entryAfter, same, left]
  · have different : ¬call.identity = identity := fun equal => same equal.symm
    simp [entryAfter, same, different]

theorem served_of_step (stepped : step rules state act = some next) :
    state.served ⊆ next.served := by
  cases act with
  | move ticket motion =>
      simp only [step, Option.bind_eq_bind, Option.bind_eq_some_iff] at stepped
      rcases stepped with ⟨call, -, ⟨cache, moved⟩, -, equal⟩
      cases equal
      exact List.subset_append_right _ _
  | cancel ticket =>
      simp only [step, Option.bind_eq_bind, Option.bind_eq_some_iff] at stepped
      rcases stepped with ⟨call, -, equal⟩
      cases equal
      exact List.Subset.refl _
  | change identity answer => cases stepped; exact List.Subset.refl _
  | call identity => cases stepped; exact List.Subset.refl _
  | read cancelled => cases stepped; exact List.Subset.refl _

theorem Consistent.of_step (consistent : next.Consistent rules)
    (stepped : step rules state act = some next) : state.Consistent rules :=
  fun identity first second firstServed secondServed =>
    consistent identity first second (served_of_step stepped firstServed)
      (served_of_step stepped secondServed)

structure Faithful (rules : Rules α ρ) (state : Reconciling α ρ) : Prop where
  logged : ∀ call ∈ state.calls, call.Logged rules
  handed : ∀ call ∈ state.calls, ∀ resource, call.answer = some (.ok (some resource)) →
    (call.identity, resource) ∈ state.served
  sourced : Sourced rules state.cache.store state.served
  settled : ∀ identity,
    state.cache.store.find? identity = entryAfter rules state.ended identity
  spared : ∀ call ∈ state.ended, call.state = .ended (.ok .unchanged) →
    ∃ resource policy, call.answer = some (.ok (some resource)) ∧
      rules.compile call.identity resource = .accepted policy

theorem faithful_start (answers : Identity → Answer α) :
    Faithful rules (start answers : Reconciling α ρ) where
  logged := nofun
  handed := nofun
  sourced := nofun
  settled := fun _ => rfl
  spared := nofun

theorem Faithful.accepted (faithful : Faithful rules state) (consistent : state.Consistent rules)
    {identity : Identity} {resource : α} {policy : ρ} {revision : String}
    (served : (identity, resource) ∈ state.served)
    (known : rules.revision resource = some revision)
    (found : state.cache.store.find? identity = some ⟨policy, some revision⟩) :
    rules.compile identity resource = .accepted policy := by
  rcases faithful.sourced identity _ found with ⟨original, originalServed, accepted, same⟩
  have equal : rules.revision resource = rules.revision original := known.trans same.symm
  have known : rules.revision resource ≠ none := by simp [known]
  exact (consistent identity resource original served originalServed equal known).trans accepted

theorem Faithful.spared_of_move (faithful : Faithful rules state)
    (consistent : state.Consistent rules) {call moved : ReconcileCall α ρ} {cache : Cache ρ}
    {answer : Answer α} {motion : Reconcile.Motion} (member : call ∈ state.calls)
    (moves : call.move rules answer state.cache motion = some (cache, moved))
    (unchanged : moved.state = .ended (.ok .unchanged)) :
    ∃ resource policy, moved.answer = some (.ok (some resource)) ∧
      rules.compile moved.identity resource = .accepted policy := by
  rcases ReconcileCall.move_cases moves with
    ⟨effects, last, -, rfl, advances⟩ | ⟨-, -, rfl⟩ | ⟨-, -, -, rfl⟩ |
      ⟨resource, verdict, -, -, rfl, -⟩
  · have logged := faithful.logged call member
    generalize source : call.state = before at advances
    simp only [ReconcileCall.Logged, source] at logged
    cases advances with
    | unchanged resource revision known same =>
        rcases Store.find?_of_revision same with ⟨policy, found⟩
        have served := faithful.handed call member resource logged
        exact ⟨resource, policy, logged, faithful.accepted consistent served known found⟩
    | _ => cases unchanged
  · cases unchanged
  · cases unchanged
  · cases unchanged

theorem Faithful.of_move (faithful : Faithful rules state) (consistent : state.Consistent rules)
    {ticket : Nat} {motion : Reconcile.Motion}
    (stepped : step rules state (.move ticket motion) = some next) : Faithful rules next := by
  simp only [step, Option.bind_eq_bind, Option.bind_eq_some_iff] at stepped
  rcases stepped with ⟨call, found, ⟨cache, moved⟩, moves, equal⟩
  cases equal
  have member : call ∈ state.calls := List.mem_of_getElem? found
  have logged := faithful.logged call member
  have same : moved.identity = call.identity := ReconcileCall.identity_of_move moves
  have stored := fun other => ReconcileCall.find?_of_move moves logged
    (fun resource policy revision answered known found =>
      have served := faithful.handed call member resource answered
      faithful.accepted consistent served known found) other
  refine ⟨?logged, ?handed, ?sourced, ?settled, ?spared⟩
  case logged =>
    intro other changed
    rcases List.mem_or_eq_of_mem_set changed with old | rfl
    · exact faithful.logged other old
    · exact ReconcileCall.logged_move logged moves
  case handed =>
    intro other changed resource answered
    rcases List.mem_or_eq_of_mem_set changed with old | rfl
    · exact List.mem_append_right _ (faithful.handed other old resource answered)
    · exact List.mem_append_left _ (ReconcileCall.mem_served answered)
  case sourced =>
    intro identity entry present
    have unmoved : state.cache.store.find? identity = some entry →
        ∃ resource, (identity, resource) ∈ moved.served ++ state.served ∧
          rules.compile identity resource = .accepted entry.policy ∧
          rules.revision resource = entry.revision := by
      intro old
      rcases faithful.sourced identity entry old with ⟨resource, served, compiled⟩
      exact ⟨resource, List.mem_append_right _ served, compiled⟩
    rw [stored identity] at present
    split at present
    · next own =>
        subst own
        cases left : moved.settles rules with
        | none => exact unmoved (by simpa [left] using present)
        | some settled =>
            have settled : moved.settles rules = some (some entry) := by
              simpa [left] using present
            rcases ReconcileCall.sourced_of_settles settled with ⟨resource, answered, compiled⟩
            rw [same] at compiled
            exact ⟨resource, List.mem_append_left _ (same ▸ ReconcileCall.mem_served answered),
              compiled⟩
    · exact unmoved present
  case settled =>
    intro identity
    rw [stored identity, faithful.settled identity]
    cases completed : moved.state.isOver with
    | true => simp [entryAfter_cons, same]
    | false => simp [ReconcileCall.settles_of_going completed]
  case spared =>
    intro other ended unchanged
    cases completed : moved.state.isOver with
    | true =>
        simp only [completed, if_true, List.mem_cons] at ended
        rcases ended with rfl | old
        · exact faithful.spared_of_move consistent member moves unchanged
        · exact faithful.spared other old unchanged
    | false =>
        simp only [completed, Bool.false_eq_true, if_false] at ended
        exact faithful.spared other ended unchanged

theorem Faithful.of_step (faithful : Faithful rules state) (consistent : state.Consistent rules)
    (stepped : step rules state act = some next) : Faithful rules next := by
  cases act with
  | move ticket motion => exact faithful.of_move consistent stepped
  | change identity answer => cases stepped; exact ⟨faithful.logged, faithful.handed,
      faithful.sourced, faithful.settled, faithful.spared⟩
  | call identity =>
      cases stepped
      refine ⟨?logged, ?handed, faithful.sourced, faithful.settled, faithful.spared⟩
      case logged =>
        intro other member
        rcases List.mem_append.mp member with old | new
        · exact faithful.logged other old
        · cases List.mem_singleton.mp new
          trivial
      case handed =>
        intro other member resource answered
        rcases List.mem_append.mp member with old | new
        · exact faithful.handed other old resource answered
        · cases List.mem_singleton.mp new
          cases answered
  | cancel ticket =>
      simp only [step, Option.bind_eq_bind, Option.bind_eq_some_iff] at stepped
      rcases stepped with ⟨call, found, equal⟩
      cases equal
      have member : call ∈ state.calls := List.mem_of_getElem? found
      refine ⟨?logged, ?handed, faithful.sourced, faithful.settled, faithful.spared⟩
      case logged =>
        intro other changed
        rcases List.mem_or_eq_of_mem_set changed with old | rfl
        · exact faithful.logged other old
        · exact faithful.logged call member
      case handed =>
        intro other changed resource answered
        rcases List.mem_or_eq_of_mem_set changed with old | rfl
        · exact faithful.handed other old resource answered
        · exact faithful.handed call member resource answered
  | read cancelled =>
      cases stepped
      refine ⟨faithful.logged, faithful.handed, ?sourced, ?settled, faithful.spared⟩
      case sourced => simpa using faithful.sourced
      case settled => simpa using faithful.settled

/-- Whatever the calls of all identities have done in whatever order, the store holds for each
identity what the latest call that is over and settled it has left: the policy and the revision of a
resource that compiled, or nothing. Where the revision spared a compilation, the resource would have
compiled. -/
theorem stored_eq_entryAfter {answers : Identity → Answer α} {acts : List (ReconcileAct α)}
    (ran : run rules acts (start answers) = some state) (consistent : state.Consistent rules)
    (identity : Identity) :
    state.cache.store.find? identity = entryAfter rules state.ended identity ∧
      ∀ call ∈ state.ended, call.identity = identity → call.state = .ended (.ok .unchanged) →
        ∃ resource policy, call.answer = some (.ok (some resource)) ∧
          rules.compile identity resource = .accepted policy := by
  have faithful : state.Consistent rules → Faithful rules state :=
    Execution.run_invariant (fun state => state.Consistent rules → Faithful rules state)
      (fun _ => faithful_start answers)
      (fun before act after holds stepped consistent =>
        (holds (consistent.of_step stepped)).of_step (consistent.of_step stepped) stepped)
      ran
  refine ⟨(faithful consistent).settled identity, ?_⟩
  rintro call member rfl unchanged
  exact (faithful consistent).spared call member unchanged

theorem consistent_plain (onRefusal : RefusalPolicy) (state : Reconciling String String) :
    state.Consistent (.plain onRefusal) := by
  intro identity first second _ _ same _
  cases same
  rfl

def interleaved : List (ReconcileAct String) :=
  [.call ⟨"a"⟩, .call ⟨"b"⟩, .move 0 .advance, .change ⟨"a"⟩ (.ok (some "one")), .move 0 .answer,
    .move 1 .advance, .move 0 .advance, .move 1 .answer, .move 0 .compile, .move 1 .advance,
    .move 1 .compile, .move 0 .advance, .move 1 .advance, .call ⟨"a"⟩, .move 2 .advance,
    .move 2 .answer, .move 2 .advance]

theorem stored_eq_entryAfter_interleaved :
    ∃ state, run .plain interleaved (start fun _ => .ok (some "")) = some state ∧
      state.Consistent .plain ∧
      state.cache.store.find? ⟨"a"⟩ = entryAfter .plain state.ended ⟨"a"⟩ ∧
      state.cache.store.find? ⟨"a"⟩ = some ⟨"one", some "one"⟩ ∧
      state.cache.store.find? ⟨"b"⟩ = entryAfter .plain state.ended ⟨"b"⟩ ∧
      state.cache.store.find? ⟨"b"⟩ = none := by
  rcases (⟨_, rfl⟩ : ∃ state, run .plain interleaved (start fun _ => .ok (some "")) =
    some state) with ⟨state, ran⟩
  have consistent := consistent_plain .retainPrevious state
  have stored := fun identity => (stored_eq_entryAfter ran consistent identity).1
  refine ⟨state, ran, consistent, stored _, ?_, stored _, ?_⟩
  · exact Option.some.inj ran ▸ rfl
  · exact Option.some.inj ran ▸ rfl

end PolicyWarden.Reconciling
