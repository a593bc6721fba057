import PolicyWarden.Proofs.Reconcile.Effects

/-!
What becomes of a reconcile that nobody disturbs. `course` gives its effects and its end from one
look at the store, `finish` what is left of them in a later phase. Each step takes its own effects
off what is left, and all of this hangs on one entry of the store.
-/

namespace PolicyWarden

variable {α ρ : Type}

namespace Reconcile

variable {rules : Rules α ρ} {identity : Identity} {answer : Answer α} {store : Store ρ}
  {cancelled : Bool} {state next : Reconcile α ρ} {effects : List (Effect ρ)}

def course (rules : Rules α ρ) (identity : Identity) (answer : Answer α) (store : Store ρ) :
    List (Effect ρ) × Reconcile α ρ :=
  match onAnswer rules identity store answer with
  | (_, .compiling resource) =>
      onVerdict rules identity store false resource (rules.compile identity resource)
  | done => done

/-- What a reconcile still does to the cache from its phase on, and what it comes to. -/
def finish (rules : Rules α ρ) (identity : Identity) (answer : Answer α) (store : Store ρ) :
    Reconcile α ρ → List (Effect ρ) × Reconcile α ρ
  | .starting => course rules identity answer store
  | .fetching => course rules identity answer store
  | .answered given => course rules identity given store
  | .compiling resource =>
      onVerdict rules identity store false resource (rules.compile identity resource)
  | .compiled resource verdict => onVerdict rules identity store false resource verdict
  | .ended result => ([], .ended result)
  | .unwound message => ([], .unwound message)

def awaited : Reconcile α ρ → Motion
  | .fetching => .answer
  | .compiling _ => .compile
  | _ => .advance

theorem finish_of_isOver (complete : state.isOver = true) :
    finish rules identity answer store state = ([], state) := by
  cases state with
  | ended | unwound => rfl
  | _ => cases complete

theorem Advances.over_or_silent
    (advances : Advances rules identity cancelled store state effects next) :
    next.isOver = true ∨ effects = [] := by
  cases advances with
  | ask | changed => exact .inr rfl
  | _ => exact .inl rfl

theorem Advances.length_le (advances : Advances rules identity cancelled store state effects next) :
    effects.length ≤ 4 := by
  cases advances <;> simp [removal]

theorem isOver_onVerdict (resource : α) (verdict : Verdict ρ) :
    (onVerdict rules identity store cancelled resource verdict).2.isOver = true := by
  have advances : Advances rules identity cancelled store (.compiled resource verdict) _ _ :=
    advances_onVerdict resource verdict
  generalize (onVerdict rules identity store cancelled resource verdict).1 = effects at advances
  generalize (onVerdict rules identity store cancelled resource verdict).2 = next at advances
  cases advances <;> rfl

theorem onAnswer_cases (answer : Answer α) :
    (∃ resource, onAnswer rules identity store answer = ([], .compiling resource)) ∨
      (onAnswer rules identity store answer).2.isOver = true ∧
        course rules identity answer store = onAnswer rules identity store answer := by
  have advances : Advances rules identity false store (.answered answer) _ _ :=
    advances_onAnswer answer
  rw [course]
  generalize onAnswer rules identity store answer = done at advances
  rcases done with ⟨effects, next⟩
  cases advances with
  | changed resource => exact .inl ⟨resource, rfl⟩
  | _ => exact .inr ⟨rfl, rfl⟩

theorem alone_eq (cache : Cache ρ) :
    alone rules identity answer cache =
      (cache.commit (course rules identity answer cache.store).1,
        (course rules identity answer cache.store).2) := by
  rcases onAnswer_cases answer with ⟨resource, compiles⟩ | ⟨complete, same⟩
  · rw [alone, course, compiles]
    rfl
  · rw [same, alone]
    generalize onAnswer rules identity cache.store answer = done at complete
    rcases done with ⟨effects, next⟩
    cases next with
    | ended | unwound => rfl
    | _ => cases complete

theorem course_eq_finish (given answer : Answer α) :
    course rules identity given store =
      ((onAnswer rules identity store given).1 ++
          (finish rules identity answer store (onAnswer rules identity store given).2).1,
        (finish rules identity answer store (onAnswer rules identity store given).2).2) := by
  rcases onAnswer_cases given with ⟨resource, compiles⟩ | ⟨complete, same⟩
  · rw [course, compiles]
    rfl
  · rw [finish_of_isOver complete, same, List.append_nil]

theorem onVerdict_eq_finish (resource : α) (verdict : Verdict ρ) (answer : Answer α) :
    onVerdict rules identity store cancelled resource verdict =
      ((onVerdict rules identity store cancelled resource verdict).1 ++
          (finish rules identity answer store
            (onVerdict rules identity store cancelled resource verdict).2).1,
        (finish rules identity answer store
          (onVerdict rules identity store cancelled resource verdict).2).2) := by
  rw [finish_of_isOver (isOver_onVerdict resource verdict), List.append_nil]

section Congruence

variable {left right : Store ρ} (same : left.find? identity = right.find? identity)

include same

theorem onAnswer_congr (answer : Answer α) :
    onAnswer rules identity left answer = onAnswer rules identity right answer := by
  have contained : left.contains identity = right.contains identity := by
    rw [Table.contains, Table.contains, same]
  have revised : Store.revision left identity = Store.revision right identity := by
    rw [Store.revision, Store.revision, same]
  simp only [onAnswer, contained, revised]

theorem onVerdict_congr (resource : α) (verdict : Verdict ρ) :
    onVerdict rules identity left cancelled resource verdict =
      onVerdict rules identity right cancelled resource verdict := by
  have contained : left.contains identity = right.contains identity := by
    rw [Table.contains, Table.contains, same]
  simp only [onVerdict, onRefusal, contained]

theorem course_congr (answer : Answer α) :
    course rules identity answer left = course rules identity answer right := by
  simp only [course, onAnswer_congr same, onVerdict_congr same]

theorem finish_congr (state : Reconcile α ρ) :
    finish rules identity answer left state = finish rules identity answer right state := by
  cases state <;> simp only [finish, course_congr same, onVerdict_congr same]

end Congruence

theorem concern_course (answer : Answer α) :
    Effect.Concern identity (course rules identity answer store).1 := by
  rcases onAnswer_cases answer with ⟨resource, compiles⟩ | ⟨complete, same⟩
  · rw [course, compiles]
    exact (advances_onVerdict resource _).concern
  · rw [same]
    have advances : Advances rules identity false store (.answered answer) _ _ :=
      advances_onAnswer answer
    exact advances.concern

end Reconcile

namespace ReconcileCall

variable {rules : Rules α ρ} {answer : Answer α} {cache after : Cache ρ}
  {call moved : ReconcileCall α ρ}

theorem finish_eq_of_move (wanted : call.cancelled = false)
    (moves : call.move rules answer cache call.state.awaited = some (after, moved)) :
    call.state.finish rules call.identity answer cache.store =
      (call.effects rules cache.store call.state.awaited ++
          (moved.state.finish rules call.identity answer cache.store).1,
        (moved.state.finish rules call.identity answer cache.store).2) := by
  rcases call with ⟨identity, cancelled, given, state⟩
  cases wanted
  cases state with
  | starting | fetching | compiling => cases moves; rfl
  | ended | unwound => cases moves
  | answered given => cases moves; exact Reconcile.course_eq_finish given answer
  | compiled resource verdict =>
      cases moves
      exact Reconcile.onVerdict_eq_finish resource verdict answer

end ReconcileCall

end PolicyWarden
