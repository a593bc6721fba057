import PolicyWarden.Proofs.Reconcile.Course

/-!
Reconciles of distinct identities at once, and the same reconciles one after another. Nobody
disturbs them, and the source does not change. A reconcile decides in one step what it does to the
cache and does it in further steps, one effect at a time, so that others may come between any two of
them. All the same they end as if they had taken turns, in whatever order: `alike_inTurn` is the main
statement.
-/

namespace PolicyWarden

variable {α ρ : Type}

structure Work (α ρ : Type) where
  call : ReconcileCall α ρ
  due : List (Effect ρ) := []

structure Committing (α ρ : Type) where
  cache : Cache ρ
  works : List (Work α ρ)

namespace Work

def finished (work : Work α ρ) : Bool :=
  work.call.state.isOver && work.due.isEmpty

/-- A reconcile brings about the first effect that is due, or, if none is, makes its next move, whose
effects are then due; none once it is finished. -/
def step (rules : Rules α ρ) (answer : Answer α) (cache : Cache ρ) (work : Work α ρ) :
    Option (Cache ρ × Work α ρ) :=
  match work.due with
  | effect :: due => some (cache.perform effect, { work with due })
  | [] =>
      let motion := work.call.state.awaited
      (work.call.move rules answer cache motion).map fun (_, call) =>
        (cache, { call, due := work.call.effects rules cache.store motion })

def ahead : Reconcile α ρ → Nat
  | .starting => 9
  | .fetching => 8
  | .answered _ => 7
  | .compiling _ => 6
  | .compiled _ _ => 5
  | .ended _ => 0
  | .unwound _ => 0

def left (work : Work α ρ) : Nat :=
  work.due.length + ahead work.call.state

end Work

namespace Committing

def step (rules : Rules α ρ) (answers : Identity → Answer α) (state : Committing α ρ)
    (ticket : Nat) : Option (Committing α ρ) := do
  let work ← state.works[ticket]?
  let (cache, work) ← work.step rules (answers work.call.identity) state.cache
  some { cache, works := state.works.set ticket work }

def start (cache : Cache ρ) (identities : List Identity) : Committing α ρ :=
  { cache, works := identities.map fun identity => { call := { identity } } }

abbrev run (rules : Rules α ρ) (answers : Identity → Answer α) (schedule : List Nat)
    (state : Committing α ρ) : Option (Committing α ρ) :=
  Execution.run (step rules answers) schedule state

def inTurn (rules : Rules α ρ) (answers : Identity → Answer α) :
    List Identity → Cache ρ → Cache ρ × List (Identity × Reconcile α ρ)
  | [], cache => (cache, [])
  | identity :: rest, cache =>
      let (cache, result) := Reconcile.alone rules identity (answers identity) cache
      let (cache, results) := inTurn rules answers rest cache
      (cache, (identity, result) :: results)

/-- What a step does to the cache, and for which identity. -/
def performs (state : Committing α ρ) (ticket : Nat) : List (Identity × Effect ρ) :=
  match state.works[ticket]? with
  | some work => (work.due.take 1).map (work.call.identity, ·)
  | none => []

def deeds (rules : Rules α ρ) (answers : Identity → Answer α) (schedule : List Nat)
    (state : Committing α ρ) : List (Identity × Effect ρ) :=
  Execution.observed (step rules answers) performs schedule state

end Committing

namespace Work

open Reconcile (course finish)
open Effect (share)

variable {rules : Rules α ρ} {answer : Answer α} {cache after : Cache ρ} {start : Store ρ}
  {work moved : Work α ρ} {deeds : List (Identity × Effect ρ)}

theorem step_cases (stepped : work.step rules answer cache = some (after, moved)) :
    (∃ effect due, work.due = effect :: due ∧ after = cache.perform effect ∧
        moved = { work with due }) ∨
      ∃ committed call, work.due = [] ∧ after = cache ∧
        work.call.move rules answer cache work.call.state.awaited = some (committed, call) ∧
        moved = ⟨call, work.call.effects rules cache.store work.call.state.awaited⟩ := by
  simp only [step] at stepped
  split at stepped
  · next effect due remaining =>
      cases stepped
      exact .inl ⟨effect, due, remaining, rfl, rfl⟩
  · next idle =>
      rcases Option.map_eq_some_iff.mp stepped with ⟨⟨committed, call⟩, moves, equal⟩
      cases equal
      exact .inr ⟨committed, call, idle, rfl, moves, rfl⟩

/-- A reconcile that nobody disturbs has done, has due and has left what makes up its course. Until
it has come to its end it has done nothing, and nothing is due. -/
structure OnCourse (rules : Rules α ρ) (answer : Answer α) (start : Store ρ)
    (deeds : List (Identity × Effect ρ)) (work : Work α ρ) : Prop where
  wanted : work.call.cancelled = false
  silent : work.call.state.isOver = false →
    work.due = [] ∧ share work.call.identity deeds = []
  rest : (share work.call.identity deeds ++ work.due ++
        (finish rules work.call.identity answer start work.call.state).1,
      (finish rules work.call.identity answer start work.call.state).2) =
    course rules work.call.identity answer start

theorem OnCourse.of_move (onCourse : OnCourse rules answer start deeds work)
    {call : ReconcileCall α ρ}
    (same : share work.call.identity deeds = [] →
      cache.store.find? work.call.identity = start.find? work.call.identity)
    (moves : work.call.move rules answer cache work.call.state.awaited = some (after, call)) :
    OnCourse rules answer start deeds
      ⟨call, work.call.effects rules cache.store work.call.state.awaited⟩ := by
  -- A call that still moves has done nothing, so that its own entry is as it was at the start.
  rcases onCourse.silent (ReconcileCall.going_of_move moves) with ⟨idle, untouched⟩
  have own := ReconcileCall.identity_of_move moves
  have split := ReconcileCall.finish_eq_of_move onCourse.wanted moves
  have rest := onCourse.rest
  refine ⟨(ReconcileCall.cancelled_of_move moves).trans onCourse.wanted, ?silent, ?rest⟩
  case silent =>
    intro going
    refine ⟨?_, by rw [own, untouched]⟩
    rcases (ReconcileCall.effects_of_move moves).2 with ⟨next, -, rfl, advances⟩ | ⟨silent, -⟩
    · rcases advances.over_or_silent with complete | silent
      · exact absurd (going.symm.trans complete) nofun
      · exact silent
    · exact silent
  case rest =>
    rw [untouched, idle, List.nil_append, List.nil_append, Prod.eta] at rest
    simp only [own, untouched, List.nil_append]
    rw [← rest, ← Reconcile.finish_congr (same untouched), ← Reconcile.finish_congr (same untouched)]
    exact split.symm

theorem OnCourse.of_effect (onCourse : OnCourse rules answer start deeds work) {effect : Effect ρ}
    {due : List (Effect ρ)} (first : work.due = effect :: due) :
    OnCourse rules answer start (deeds ++ [(work.call.identity, effect)]) { work with due } where
  wanted := onCourse.wanted
  silent going := by
    rw [(onCourse.silent going).1] at first
    cases first
  rest := by
    have rest := onCourse.rest
    rw [first] at rest
    simpa using rest

theorem OnCourse.of_share_eq (onCourse : OnCourse rules answer start deeds work)
    {later : List (Identity × Effect ρ)}
    (same : share work.call.identity later = share work.call.identity deeds) :
    OnCourse rules answer start later work where
  wanted := onCourse.wanted
  silent going := ⟨(onCourse.silent going).1, same.trans (onCourse.silent going).2⟩
  rest := by rw [same, onCourse.rest]

theorem OnCourse.concern (onCourse : OnCourse rules answer start deeds work) {effect : Effect ρ}
    (member : effect ∈ work.due) : Effect.Concern work.call.identity [effect] := by
  have course : effect ∈ (course rules work.call.identity answer start).1 := by
    rw [← onCourse.rest]
    simp [member]
  exact (Reconcile.concern_course answer).of_mem course

theorem OnCourse.of_finished (onCourse : OnCourse rules answer start deeds work)
    (finished : work.finished = true) :
    course rules work.call.identity answer start =
      (share work.call.identity deeds, work.call.state) := by
  rcases Bool.and_eq_true_iff.mp finished with ⟨complete, idle⟩
  rw [← onCourse.rest, Reconcile.finish_of_isOver complete, List.isEmpty_iff.mp idle,
    List.append_nil, List.append_nil]

theorem left_of_step (stepped : work.step rules answer cache = some (after, moved)) :
    moved.left < work.left := by
  rcases step_cases stepped with
    ⟨effect, due, first, -, rfl⟩ | ⟨committed, call, idle, -, moves, rfl⟩
  · simp [left, first]
  · rcases (ReconcileCall.effects_of_move moves).2 with ⟨next, -, rfl, advances⟩ | ⟨silent, brings⟩
    · -- Five steps are reckoned for the phase in which at most four effects become due.
      have bounded := advances.length_le
      simp only [left, idle]
      generalize work.call.effects rules cache.store work.call.state.awaited = effects
        at advances bounded
      generalize work.call.state = state at advances
      cases advances <;> simp only [ahead, List.length_nil] at * <;> omega
    · simp only [left, idle, silent]
      generalize work.call.state.awaited = motion at brings
      cases brings with
      | answer fetching | abandon fetching => simp [ahead, fetching]
      | compile resource compiling | crash resource message compiling => simp [ahead, compiling]

theorem step_of_not_finished (rules : Rules α ρ) (answer : Answer α) (cache : Cache ρ)
    (unfinished : work.finished = false) :
    ∃ result, work.step rules answer cache = some result := by
  rcases work with ⟨⟨identity, cancelled, given, state⟩, due⟩
  cases due with
  | cons effect due => exact ⟨_, rfl⟩
  | nil =>
      cases state with
      | ended | unwound => cases unfinished
      | _ => exact ⟨_, rfl⟩

end Work

namespace Committing

open Reconcile (course)
open Effect (share)
open Work (OnCourse)

variable {rules : Rules α ρ} {answers : Identity → Answer α} {cache : Cache ρ}
  {identities order : List Identity} {schedule : List Nat} {state next : Committing α ρ}
  {ticket : Nat}

theorem step_eq_some (stepped : step rules answers state ticket = some next) :
    ∃ work after moved, state.works[ticket]? = some work ∧
      work.step rules (answers work.call.identity) state.cache = some (after, moved) ∧
      next = { cache := after, works := state.works.set ticket moved } := by
  rcases Option.bind_eq_some_iff.mp stepped with ⟨work, present, continued⟩
  rcases Option.bind_eq_some_iff.mp continued with ⟨⟨after, moved⟩, taken, equal⟩
  cases equal
  exact ⟨work, after, moved, present, taken, rfl⟩

structure Concerted (rules : Rules α ρ) (answers : Identity → Answer α) (cache : Cache ρ)
    (identities : List Identity) (deeds : List (Identity × Effect ρ)) (state : Committing α ρ) :
    Prop where
  committed : state.cache = cache.commit (deeds.map Prod.snd)
  owned : Effect.Owned deeds
  known : ∀ deed ∈ deeds, deed.1 ∈ identities
  tickets : state.works.map (·.call.identity) = identities
  onCourse : ∀ (ticket : Nat) (work : Work α ρ), state.works[ticket]? = some work →
    OnCourse rules (answers work.call.identity) cache.store deeds work

theorem concerted_start (rules : Rules α ρ) (answers : Identity → Answer α) (cache : Cache ρ)
    (identities : List Identity) :
    Concerted rules answers cache identities [] (start cache identities) where
  committed := rfl
  owned := nofun
  known := nofun
  tickets := by simp [start, Function.comp_def]
  onCourse ticket work present := by
    rw [start, List.getElem?_map] at present
    rcases Option.map_eq_some_iff.mp present with ⟨identity, -, rfl⟩
    exact ⟨rfl, fun _ => ⟨rfl, rfl⟩, rfl⟩

section Step

variable {deeds : List (Identity × Effect ρ)} {work : Work α ρ}
  (concerted : Concerted rules answers cache identities deeds state)

include concerted

theorem Concerted.find?_eq (identity : Identity) :
    state.cache.store.find? identity =
      (cache.commit (share identity deeds)).store.find? identity := by
  rw [concerted.committed, Cache.find?_commit_share concerted.owned]

theorem Concerted.getElem?_identities (present : state.works[ticket]? = some work) :
    identities[ticket]? = some work.call.identity := by
  rw [← concerted.tickets, List.getElem?_map, present, Option.map_some]

theorem Concerted.identity_ne (distinct : identities.Nodup) {number : Nat} {other : Work α ρ}
    (present : state.works[ticket]? = some work) (beside : state.works[number]? = some other)
    (different : number ≠ ticket) : other.call.identity ≠ work.call.identity := by
  intro same
  have own := concerted.getElem?_identities present
  have foreign := concerted.getElem?_identities beside
  have inside : number < identities.length := (List.getElem?_eq_some_iff.mp foreign).1
  exact different ((List.getElem?_inj inside distinct).mp (by rw [foreign, own, same]))

theorem Concerted.of_work (distinct : identities.Nodup) (present : state.works[ticket]? = some work)
    {after : Cache ρ} {moved : Work α ρ} {more : List (Identity × Effect ρ)}
    (committed : after = state.cache.commit (more.map Prod.snd))
    (owned : Effect.Owned more) (own : ∀ deed ∈ more, deed.1 = work.call.identity)
    (same : moved.call.identity = work.call.identity)
    (onCourse : OnCourse rules (answers work.call.identity) cache.store (deeds ++ more) moved) :
    Concerted rules answers cache identities (deeds ++ more)
      { cache := after, works := state.works.set ticket moved } := by
  have named := concerted.getElem?_identities present
  refine ⟨?committed, ?owned, ?known, ?tickets, ?onCourse⟩
  case committed =>
    rw [committed, concerted.committed, List.map_append, Cache.commit_append]
  case owned =>
    intro deed member
    exact (List.mem_append.mp member).elim (concerted.owned deed) (owned deed)
  case known =>
    intro deed member
    rcases List.mem_append.mp member with earlier | latest
    · exact concerted.known deed earlier
    · exact own deed latest ▸ List.mem_of_getElem? named
  case tickets =>
    rcases List.getElem?_eq_some_iff.mp named with ⟨inside, equal⟩
    rw [List.map_set, concerted.tickets, same, ← equal, List.set_getElem_self]
  case onCourse =>
    intro number other beside
    by_cases equal : number = ticket
    · have inside := (List.getElem?_eq_some_iff.mp present).1
      rw [equal, List.getElem?_set_self inside] at beside
      cases beside
      rw [same]
      exact onCourse
    · rw [List.getElem?_set_ne (Ne.symm equal)] at beside
      refine (concerted.onCourse number other beside).of_share_eq ?_
      have apart := concerted.identity_ne distinct present beside equal
      have others : share other.call.identity more = [] :=
        Effect.share_eq_nil fun deed member => own deed member ▸ apart.symm
      rw [Effect.share_append, others, List.append_nil]

theorem Concerted.of_step (distinct : identities.Nodup)
    (stepped : step rules answers state ticket = some next) :
    Concerted rules answers cache identities (deeds ++ performs state ticket) next := by
  rcases step_eq_some stepped with ⟨work, after, moved, present, taken, rfl⟩
  have onCourse := concerted.onCourse ticket work present
  rcases Work.step_cases taken with
    ⟨effect, due, first, rfl, rfl⟩ | ⟨committed, call, idle, rfl, moves, rfl⟩
  · have brought : performs state ticket = [(work.call.identity, effect)] := by
      simp [performs, present, first]
    rw [brought]
    refine concerted.of_work distinct present rfl ?_ (by simp) rfl (onCourse.of_effect first)
    intro deed member
    rw [List.mem_singleton.mp member]
    exact onCourse.concern (first ▸ .head _)
  · have brought : performs state ticket = [] := by simp [performs, present, idle]
    rw [brought]
    refine concerted.of_work distinct present rfl nofun nofun
      (ReconcileCall.identity_of_move moves) ?_
    rw [List.append_nil]
    refine onCourse.of_move ?_ moves
    intro untouched
    rw [concerted.find?_eq, untouched]
    rfl

end Step

theorem concerted_of_run (distinct : identities.Nodup)
    (ran : run rules answers schedule (start cache identities) = some state) :
    Concerted rules answers cache identities
      (deeds rules answers schedule (start cache identities)) state := by
  refine Execution.run_history (fun schedule state => Concerted rules answers cache identities
    (deeds rules answers schedule (start cache identities)) state)
    (concerted_start rules answers cache identities) ?_ ran
  intro schedule ticket state next reached concerted stepped
  have noted : deeds rules answers (schedule ++ [ticket]) (start cache identities) =
      deeds rules answers schedule (start cache identities) ++ performs state ticket :=
    Execution.observed_concat reached stepped
  rw [noted]
  exact concerted.of_step distinct stepped

theorem length_add_left_le
    (ran : run rules answers schedule (start cache identities) = some state) :
    schedule.length + (state.works.map Work.left).sum ≤ 9 * identities.length := by
  refine Execution.run_history (fun schedule state =>
    schedule.length + (state.works.map Work.left).sum ≤ 9 * identities.length) ?_ ?_ ran
  · simp [start, Function.comp_def, Work.left, Work.ahead, List.map_const', Nat.mul_comm]
  · intro schedule ticket state next reached bounded stepped
    rcases step_eq_some stepped with ⟨work, after, moved, present, taken, rfl⟩
    have less := Work.left_of_step taken
    have changed := Execution.sum_set Work.left moved present
    simp only [List.length_append, List.length_singleton]
    omega

theorem step_of_not_finished (rules : Rules α ρ) (answers : Identity → Answer α)
    {work : Work α ρ} (member : work ∈ state.works) (unfinished : work.finished = false) :
    ∃ ticket next, step rules answers state ticket = some next := by
  rcases List.getElem?_of_mem member with ⟨ticket, present⟩
  rcases Work.step_of_not_finished rules (answers work.call.identity) state.cache unfinished with
    ⟨⟨after, moved⟩, taken⟩
  refine ⟨ticket, { cache := after, works := state.works.set ticket moved }, ?_⟩
  simp [step, present, taken]

def courses (rules : Rules α ρ) (answers : Identity → Answer α) (store : Store ρ)
    (order : List Identity) : List (Identity × Effect ρ) :=
  order.flatMap fun identity =>
    (course rules identity (answers identity) store).1.map (identity, ·)

theorem share_courses (rules : Rules α ρ) (answers : Identity → Answer α) (store : Store ρ)
    (identity : Identity) (distinct : order.Nodup) :
    share identity (courses rules answers store order) =
      if identity ∈ order then (course rules identity (answers identity) store).1 else [] := by
  induction order with
  | nil => rfl
  | cons head rest induction =>
      rcases List.nodup_cons.mp distinct with ⟨apart, distinct⟩
      rw [courses, List.flatMap_cons, Effect.share_append, Effect.share_map]
      change _ ++ share identity (courses rules answers store rest) = _
      rw [induction distinct]
      by_cases same : head = identity
      · simp [same, same ▸ apart]
      · simp [same, Ne.symm same]

theorem owned_courses (rules : Rules α ρ) (answers : Identity → Answer α) (store : Store ρ)
    (order : List Identity) : Effect.Owned (courses rules answers store order) := by
  intro deed member
  rcases List.mem_flatMap.mp member with ⟨identity, -, member⟩
  rcases List.mem_map.mp member with ⟨effect, asked, rfl⟩
  exact (Reconcile.concern_course (answers identity)).of_mem asked

theorem inTurn_eq (rules : Rules α ρ) (answers : Identity → Answer α) (cache : Cache ρ)
    (distinct : order.Nodup) :
    inTurn rules answers order cache =
      (cache.commit ((courses rules answers cache.store order).map Prod.snd),
        order.map fun identity =>
          (identity, (course rules identity (answers identity) cache.store).2)) := by
  induction order generalizing cache with
  | nil => rfl
  | cons head rest induction =>
      rcases List.nodup_cons.mp distinct with ⟨apart, distinct⟩
      -- The first reconcile leaves alone what decides the courses of the others.
      have unmoved : ∀ identity ∈ rest,
          course rules identity (answers identity)
              (cache.commit (course rules head (answers head) cache.store).1).store =
            course rules identity (answers identity) cache.store := by
        intro identity member
        refine Reconcile.course_congr ?_ (answers identity)
        exact Cache.find?_commit_of_ne (Reconcile.concern_course (answers head))
          fun same => apart (same ▸ member)
      have same : courses rules answers
            (cache.commit (course rules head (answers head) cache.store).1).store rest =
          courses rules answers cache.store rest := by
        rw [courses, courses, List.flatMap_def, List.flatMap_def]
        exact congrArg List.flatten
          (List.map_congr_left fun identity member => by rw [unmoved identity member])
      have results : rest.map (fun identity => (identity, (course rules identity (answers identity)
            (cache.commit (course rules head (answers head) cache.store).1).store).2)) =
          rest.map fun identity =>
            (identity, (course rules identity (answers identity) cache.store).2) :=
        List.map_congr_left fun identity member => by rw [unmoved identity member]
      simp only [inTurn, Reconcile.alone_eq, induction _ distinct, same, results]
      simp [courses, Cache.commit_append, Function.comp_def]

section Finished

variable {deeds : List (Identity × Effect ρ)}
  (concerted : Concerted rules answers cache identities deeds state)
  (finished : ∀ work ∈ state.works, work.finished = true)

include concerted finished

theorem Concerted.course_eq {work : Work α ρ} (member : work ∈ state.works) :
    course rules work.call.identity (answers work.call.identity) cache.store =
      (share work.call.identity deeds, work.call.state) := by
  rcases List.getElem?_of_mem member with ⟨ticket, present⟩
  exact (concerted.onCourse ticket work present).of_finished (finished work member)

theorem Concerted.share_eq (distinct : order.Nodup) (permuted : order.Perm identities)
    (identity : Identity) :
    share identity deeds = share identity (courses rules answers cache.store order) := by
  rw [share_courses rules answers cache.store identity distinct]
  by_cases member : identity ∈ identities
  · rw [if_pos (permuted.mem_iff.mpr member)]
    rw [← concerted.tickets] at member
    rcases List.mem_map.mp member with ⟨work, known, rfl⟩
    rw [concerted.course_eq finished known]
  · rw [if_neg fun inside => member (permuted.mem_iff.mp inside)]
    exact Effect.share_eq_nil fun deed listed same => member (same ▸ concerted.known deed listed)

theorem Concerted.results_eq :
    (state.works.map fun work => (work.call.identity, work.call.state)) =
      identities.map fun identity =>
        (identity, (course rules identity (answers identity) cache.store).2) := by
  rw [← concerted.tickets, List.map_map]
  exact List.map_congr_left fun work member => by simp [concerted.course_eq finished member]

end Finished

/-- Reconciles of distinct identities at once come to an end whatever the order of their steps: they
take boundedly many, and none of them gets stuck. Once all have ended, the results, the entries, the
generation and the counters are those of the same reconciles one after another, in any order. -/
theorem alike_inTurn (distinct : identities.Nodup)
    (ran : run rules answers schedule (start cache identities) = some state) :
    schedule.length ≤ 9 * identities.length ∧
      ((∀ work ∈ state.works, work.finished = true) ∨
        ∃ ticket next, step rules answers state ticket = some next) ∧
      ((∀ work ∈ state.works, work.finished = true) → ∀ order, order.Perm identities →
        state.cache.Alike (inTurn rules answers order cache).1 ∧
          (state.works.map fun work => (work.call.identity, work.call.state)).Perm
            (inTurn rules answers order cache).2) := by
  have concerted := concerted_of_run distinct ran
  refine ⟨?bounded, ?goesOn, ?agrees⟩
  case bounded => exact Nat.le_trans (Nat.le_add_right _ _) (length_add_left_le ran)
  case goesOn =>
    by_cases finished : ∀ work ∈ state.works, work.finished = true
    · exact .inl finished
    · rcases not_forall.mp finished with ⟨work, unfinished⟩
      rcases Classical.not_imp.mp unfinished with ⟨member, unfinished⟩
      exact .inr (step_of_not_finished rules answers member (Bool.not_eq_true _ ▸ unfinished))
  case agrees =>
    intro finished order permuted
    have apart : order.Nodup := permuted.nodup_iff.mpr distinct
    rw [inTurn_eq rules answers cache apart, concerted.committed, concerted.results_eq finished]
    refine ⟨?_, (permuted.map _).symm⟩
    exact Cache.alike_of_share_eq cache concerted.owned (owned_courses _ _ _ _)
      (concerted.share_eq finished apart permuted)

/-- A source that has something new of one identity, cannot tell of another, has lost a third and
keeps a fourth in a form that is refused. -/
def answering : Identity → Answer String
  | ⟨"a"⟩ => .ok (some "new")
  | ⟨"b"⟩ => .error ⟨⟨"b"⟩, "unreachable"⟩
  | ⟨"c"⟩ => .ok none
  | _ => .ok (some "")

def roundByRound : List Nat :=
  (List.replicate 4 [0, 1, 2, 3]).flatten ++ (List.replicate 2 [0, 2, 3]).flatten ++
    (List.replicate 2 [0, 3]).flatten ++ [3]

theorem alike_inTurn_roundByRound :
    let cache : Cache String := .holding [(⟨"c"⟩, "old"), (⟨"d"⟩, "old")]
    ∃ state, run (.plain .evict) answering roundByRound
        (start cache [⟨"a"⟩, ⟨"b"⟩, ⟨"c"⟩, ⟨"d"⟩]) = some state ∧
      state.cache.Alike
        (inTurn (.plain .evict) answering [⟨"d"⟩, ⟨"c"⟩, ⟨"b"⟩, ⟨"a"⟩] cache).1 ∧
      (state.works.map fun work => (work.call.identity, work.call.state)).Perm
        [(⟨"d"⟩, .ended (.ok (.rejected [] true))), (⟨"c"⟩, .ended (.ok .removed)),
          (⟨"b"⟩, .ended (.error (.fetch ⟨⟨"b"⟩, "unreachable"⟩))),
          (⟨"a"⟩, .ended (.ok .upserted))] := by
  intro cache
  have ends : (run (.plain .evict) answering roundByRound
      (start cache [⟨"a"⟩, ⟨"b"⟩, ⟨"c"⟩, ⟨"d"⟩])).any (·.works.all Work.finished) = true := by
    decide +kernel
  rcases (Option.any_eq_true _ _).mp ends with ⟨state, ran, finished⟩
  have distinct : ([⟨"a"⟩, ⟨"b"⟩, ⟨"c"⟩, ⟨"d"⟩] : List Identity).Nodup := by decide
  have agrees := (alike_inTurn distinct ran).2.2 (List.all_eq_true.mp finished)
    [⟨"d"⟩, ⟨"c"⟩, ⟨"b"⟩, ⟨"a"⟩] (by decide)
  have results : (inTurn (.plain .evict) answering [⟨"d"⟩, ⟨"c"⟩, ⟨"b"⟩, ⟨"a"⟩] cache).2 =
      [(⟨"d"⟩, .ended (.ok (.rejected [] true))), (⟨"c"⟩, .ended (.ok .removed)),
        (⟨"b"⟩, .ended (.error (.fetch ⟨⟨"b"⟩, "unreachable"⟩))),
        (⟨"a"⟩, .ended (.ok .upserted))] := rfl
  exact ⟨state, ran, agrees.1, results ▸ agrees.2⟩

end Committing

end PolicyWarden
