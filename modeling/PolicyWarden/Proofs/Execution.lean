import Mathlib.Algebra.Ring.Nat
import Mathlib.Data.List.Induction

/-!
Executions of a system that takes one labelled step at a time, where a step may be impossible. What
one step keeps, a whole run keeps; `run_invariant` says so of a property of states, `run_history` of
a property that also looks at the run so far. `observed` collects what an observer notes of the
steps of a run.
-/

namespace PolicyWarden.Execution

variable {σ ι β : Type}

def run (step : σ → ι → Option σ) (acts : List ι) (state : σ) : Option σ :=
  acts.foldlM step state

def observed (step : σ → ι → Option σ) (note : σ → ι → List β) : List ι → σ → List β
  | [], _ => []
  | act :: rest, state =>
      match step state act with
      | some next => note state act ++ observed step note rest next
      | none => []

variable {step : σ → ι → Option σ} {note : σ → ι → List β} {start middle final : σ}

@[simp] theorem run_nil : run step [] start = some start := rfl

theorem run_append (earlier later : List ι) :
    run step (earlier ++ later) start =
      (run step earlier start).bind (run step later) :=
  List.foldlM_append

theorem run_concat (acts : List ι) (act : ι) :
    run step (acts ++ [act]) start = (run step acts start).bind (step · act) := by
  rw [run_append]
  congr 1
  funext state
  simp [run]

theorem run_singleton (act : ι) : run step [act] start = step start act := by
  rw [run, List.foldlM_cons]
  exact bind_pure _

theorem run_cons (act : ι) (rest : List ι) :
    run step (act :: rest) start = (step start act).bind (run step rest) := rfl

theorem run_append_eq_some {earlier later : List ι} :
    run step (earlier ++ later) start = some final ↔
      ∃ middle, run step earlier start = some middle ∧ run step later middle = some final := by
  rw [run_append, Option.bind_eq_some_iff]

theorem run_of_prefix {earlier later : List ι} (first : earlier <+: later)
    (reached : run step earlier start = some middle) (ran : run step later start = some final) :
    ∃ rest, later = earlier ++ rest ∧ run step rest middle = some final := by
  rcases first with ⟨rest, rfl⟩
  rcases run_append_eq_some.mp ran with ⟨_, again, continued⟩
  cases reached.symm.trans again
  exact ⟨rest, rfl, continued⟩

theorem observed_append {earlier : List ι} (ran : run step earlier start = some middle)
    (later : List ι) :
    observed step note (earlier ++ later) start =
      observed step note earlier start ++ observed step note later middle := by
  induction earlier generalizing start with
  | nil =>
      cases ran
      rfl
  | cons act rest induction =>
      rw [run_cons] at ran
      rcases Option.bind_eq_some_iff.mp ran with ⟨next, stepped, ran⟩
      simp only [List.cons_append, observed, stepped, induction ran, List.append_assoc]

theorem observed_concat {acts : List ι} {act : ι} (ran : run step acts start = some middle)
    (stepped : step middle act = some final) :
    observed step note (acts ++ [act]) start = observed step note acts start ++ note middle act := by
  rw [observed_append ran]
  simp [observed, stepped]

theorem exists_of_mem_observed {acts : List ι} (ran : run step acts start = some final) {noted : β}
    (member : noted ∈ observed step note acts start) :
    ∃ before act rest state, acts = before ++ act :: rest ∧
      run step before start = some state ∧ noted ∈ note state act := by
  induction acts using List.reverseRecOn generalizing final with
  | nil => cases member
  | append_singleton acts act induction =>
      rw [run_concat] at ran
      rcases Option.bind_eq_some_iff.mp ran with ⟨state, reached, stepped⟩
      rw [observed_concat reached stepped] at member
      rcases List.mem_append.mp member with earlier | latest
      · rcases induction reached earlier with ⟨before, other, rest, seen, rfl, known⟩
        exact ⟨before, other, rest ++ [act], seen, by simp, known⟩
      · exact ⟨acts, act, [], state, rfl, reached, latest⟩

/-- What holds at the start and is kept by each step, given the run up to it, holds at the end. -/
theorem run_history (holds : List ι → σ → Prop) {acts : List ι} (initially : holds [] start)
    (kept : ∀ acts act state next, run step acts start = some state → holds acts state →
      step state act = some next → holds (acts ++ [act]) next)
    (ran : run step acts start = some final) : holds acts final := by
  induction acts using List.reverseRecOn generalizing final with
  | nil =>
      cases ran
      exact initially
  | append_singleton acts act induction =>
      rw [run_concat] at ran
      rcases Option.bind_eq_some_iff.mp ran with ⟨state, reached, stepped⟩
      exact kept acts act state final reached (induction reached) stepped

theorem run_invariant (holds : σ → Prop) {acts : List ι} (initially : holds start)
    (kept : ∀ state act next, holds state → step state act = some next → holds next)
    (ran : run step acts start = some final) : holds final :=
  run_history (fun _ state => holds state) initially
    (fun _ act state next _ before => kept state act next before) ran

/-- Where runs are bounded in length, one of them comes to a state from where no step is possible. -/
theorem exists_run_to_rest {bound : Nat}
    (bounded : ∀ acts final, run step acts start = some final → acts.length ≤ bound) :
    ∃ acts final, run step acts start = some final ∧ ∀ act, step final act = none := by
  by_contra never
  push Not at never
  have longer : ∀ length, ∃ acts final, run step acts start = some final ∧
      acts.length = length := by
    intro length
    induction length with
    | zero => exact ⟨[], start, rfl, rfl⟩
    | succ length induction =>
        rcases induction with ⟨acts, middle, ran, rfl⟩
        rcases never acts middle ran with ⟨act, possible⟩
        rcases Option.ne_none_iff_exists'.mp possible with ⟨next, stepped⟩
        exact ⟨acts ++ [act], next, by rw [run_concat, ran, Option.bind_some, stepped], by simp⟩
  rcases longer (bound + 1) with ⟨acts, final, ran, length⟩
  have short := bounded acts final ran
  omega

/-- If every step, seen through a view, is a run of another system, so is every run. -/
theorem exists_run_of_steps {τ κ : Type} {inner : τ → κ → Option τ} (view : σ → τ)
    {acts : List ι} (follows : ∀ state act next, step state act = some next →
      ∃ acts, run inner acts (view state) = some (view next))
    (ran : run step acts start = some final) :
    ∃ acts, run inner acts (view start) = some (view final) := by
  refine run_invariant (fun state => ∃ acts, run inner acts (view start) = some (view state))
    ⟨[], rfl⟩ ?_ ran
  rintro state act next ⟨earlier, reached⟩ stepped
  rcases follows state act next stepped with ⟨more, goesOn⟩
  exact ⟨earlier ++ more, run_append_eq_some.mpr ⟨view state, reached, goesOn⟩⟩

theorem sum_set (weight : β → Nat) {members : List β} {number : Nat} {old : β} (new : β)
    (present : members[number]? = some old) :
    ((members.set number new).map weight).sum + weight old =
      (members.map weight).sum + weight new := by
  rcases List.getElem?_eq_some_iff.mp present with ⟨inside, rfl⟩
  have split := congrArg (fun members => (members.map weight).sum)
    (List.take_append_drop number members)
  rw [List.drop_eq_getElem_cons inside] at split
  have joined := congrArg (fun members => (members.map weight).sum)
    (List.set_eq_take_append_cons_drop (l := members) (i := number) (a := new))
  simp only [if_pos inside, List.map_append, List.map_cons, List.sum_append, List.sum_cons]
    at split joined
  omega

theorem countP_eq_sum (counts : β → Bool) (members : List β) :
    members.countP counts = (members.map fun member => (counts member).toNat).sum := by
  induction members with
  | nil => rfl
  | cons member rest induction =>
      rw [List.countP_cons, List.map_cons, List.sum_cons, induction, Nat.add_comm]
      cases counts member <;> rfl

theorem countP_add_countP (first second third fourth : β → Bool) {members : List β}
    (same : ∀ member ∈ members, (first member).toNat + (second member).toNat =
      (third member).toNat + (fourth member).toNat) :
    members.countP first + members.countP second =
      members.countP third + members.countP fourth := by
  induction members with
  | nil => rfl
  | cons member rest induction =>
      have known := induction fun other inside => same other (.tail _ inside)
      have head := same member (.head _)
      simp only [countP_eq_sum, List.map_cons, List.sum_cons] at known ⊢
      omega

theorem countP_set (counts : β → Bool) {members : List β} {number : Nat} {old : β} (new : β)
    (present : members[number]? = some old) :
    (members.set number new).countP counts + (counts old).toNat =
      members.countP counts + (counts new).toNat := by
  rw [countP_eq_sum, countP_eq_sum]
  exact sum_set _ new present

end PolicyWarden.Execution
