import Mathlib.Data.Nat.Find
import Mathlib.Order.Bounds.Basic
import PolicyWarden.Proofs.Execution
import PolicyWarden.Proofs.Retry.Attempts

/-!
A retried operation in time. The calls return what they like and take as long as they like, and a
cancellation may come at any moment. `RetrySetting.Stops` says after which calls no other one may
follow; if the attempts are limited there is such a call. `Retrying.Goes` lists what an act can be,
and `goes_of_step` says that there are no others.
-/

namespace PolicyWarden

variable {ε τ : Type}

def Retry.attempt? : Retry ε τ → Option Attempt
  | .calling attempt | .waiting attempt _ _ => some attempt
  | .ended _ | .unwound _ => none

def Retry.stage : Retry ε τ → Nat
  | .calling _ => 0
  | .waiting _ _ _ => 1
  | .ended _ | .unwound _ => 2

/-- What surrounds the retrying of an operation. The calls are told apart by an index from zero on,
and moments are counted in nanoseconds from the first of them. -/
structure RetrySetting (ε τ : Type) where
  backoff : Backoff
  retryable : ε → Bool
  results : Nat → Except ε τ
  lasting : Nat → Nat
  jitters : Nat → Float
  /-- How much longer than asked for the timer of that wait runs. -/
  lateness : Nat → Nat
  cancelledAt : Option Nat

structure Retrying (ε τ : Type) where
  retry : Retry ε τ
  index : Nat := 0
  clock : Nat := 0

inductive RetryAct where
  | answer
  | elapse
  | cancel

namespace RetrySetting

/-- Once the call of this index has returned there is no wait after it. -/
def Concludes (setting : RetrySetting ε τ) (index : Nat) : Prop :=
  (∃ value, setting.results index = .ok value) ∨
    (∃ error, setting.results index = .error error ∧ setting.retryable error = false) ∨
    index + 1 = setting.backoff.maxAttempts.toNat

def pause (setting : RetrySetting ε τ) (index : Nat) : Nat :=
  match setting.backoff.attempt? index >>= fun attempt =>
    Backoff.wait attempt (setting.jitters index) with
  | .ok wait => wait.nanoseconds + setting.lateness index
  | .error _ => 0

def begun (setting : RetrySetting ε τ) : Nat → Nat
  | 0 => 0
  | index + 1 => setting.begun index + setting.lasting index + setting.pause index

/-- The cancellation comes before the wait after the call of this index is over. -/
def Interrupted (setting : RetrySetting ε τ) (index : Nat) : Prop :=
  ∃ moment, setting.cancelledAt = some moment ∧ moment < setting.begun (index + 1)

def Stops (setting : RetrySetting ε τ) (index : Nat) : Prop :=
  setting.Concludes index ∨ setting.Interrupted index

def Made (setting : RetrySetting ε τ) (index : Nat) : Prop :=
  ∀ earlier < index, ¬setting.Stops earlier

/-- Every delay that is computed is a span of time, every wait is positive, and no wait ends at the
very moment of the cancellation. -/
structure Regular (setting : RetrySetting ε τ) : Prop where
  numbered : ∀ index, setting.Made index → ∃ attempt, setting.backoff.attempt? index = .ok attempt
  spaced : ∀ index attempt, setting.Made index → ¬setting.Concludes index →
    setting.backoff.attempt? index = .ok attempt →
      ∃ wait, Backoff.wait attempt (setting.jitters index) = .ok wait ∧ 0 < wait.nanoseconds
  apart : ∀ index, setting.Made index → ¬setting.Concludes index →
    setting.cancelledAt ≠ some (setting.begun (index + 1))

variable {setting : RetrySetting ε τ} {index : Nat} {attempt : Attempt}

theorem made_zero : setting.Made 0 :=
  fun _ before => absurd before (Nat.not_lt_zero _)

theorem Made.next (made : setting.Made index) (goesOn : ¬setting.Stops index) :
    setting.Made (index + 1) := by
  intro earlier before
  rcases Nat.lt_succ_iff_lt_or_eq.mp before with before | rfl
  · exact made earlier before
  · exact goesOn

theorem Made.le_of_stops (made : setting.Made index) {last : Nat} (stops : setting.Stops last) :
    index ≤ last :=
  Nat.le_of_not_lt fun before => made last before stops

theorem Made.isLeast (made : setting.Made index) (stops : setting.Stops index) :
    IsLeast {index | setting.Stops index} index :=
  ⟨stops, fun _ other => made.le_of_stops other⟩

theorem exhausted_iff (known : setting.backoff.attempt? index = .ok attempt)
    (within : setting.backoff.maxAttempts = 0 ∨ index < setting.backoff.maxAttempts.toNat) :
    setting.backoff.exhausted attempt = true ↔ index + 1 = setting.backoff.maxAttempts.toNat := by
  constructor
  · intro exhausted
    by_contra other
    have left := Backoff.not_exhausted_attempt known (within.imp_right fun within => by omega)
    rw [exhausted] at left
    cases left
  · exact Backoff.exhausted_attempt known

theorem not_concludes (known : setting.backoff.attempt? index = .ok attempt)
    (within : setting.backoff.maxAttempts = 0 ∨ index < setting.backoff.maxAttempts.toNat)
    {error : ε} (failed : setting.results index = .error error)
    (retryable : setting.retryable error = true)
    (left : setting.backoff.exhausted attempt = false) : ¬setting.Concludes index := by
  rintro (⟨value, succeeded⟩ | ⟨other, same, refused⟩ | last)
  · cases failed.symm.trans succeeded
  · cases failed.symm.trans same
    rw [retryable] at refused
    cases refused
  · rw [(exhausted_iff known within).mpr last] at left
    cases left

theorem exists_isLeast_stops (limited : setting.backoff.maxAttempts ≠ 0) :
    ∃ last < setting.backoff.maxAttempts.toNat, IsLeast {index | setting.Stops index} last := by
  have positive : setting.backoff.maxAttempts.toNat ≠ 0 := fun none =>
    limited (UInt32.toNat_inj.mp none)
  have stops : ∃ index, setting.Stops index :=
    ⟨setting.backoff.maxAttempts.toNat - 1, .inl (.inr (.inr (by omega)))⟩
  classical
  refine ⟨Nat.find stops, ?_, Nat.find_spec stops, fun _ => Nat.find_min' stops⟩
  have early := Nat.find_min' stops (m := setting.backoff.maxAttempts.toNat - 1)
    (.inl (.inr (.inr (by omega))))
  omega

theorem begun_succ (known : setting.backoff.attempt? index = .ok attempt) {wait : Delay}
    (waits : Backoff.wait attempt (setting.jitters index) = .ok wait) :
    setting.begun (index + 1) = setting.begun index + setting.lasting index + wait.nanoseconds +
      setting.lateness index := by
  have pause : setting.pause index = wait.nanoseconds + setting.lateness index := by
    rw [RetrySetting.pause, known]
    change (match Backoff.wait attempt (setting.jitters index) with
      | .ok wait => wait.nanoseconds + setting.lateness index
      | .error _ => 0) = _
    rw [waits]
  rw [begun, pause]
  omega

end RetrySetting

namespace Retrying

def start (setting : RetrySetting ε τ) : Retrying ε τ :=
  { retry := Retry.start setting.backoff }

def calls (state : Retrying ε τ) : Nat :=
  state.index + 1

def due (setting : RetrySetting ε τ) (state : Retrying ε τ) (wait : Delay) : Nat :=
  state.clock + wait.nanoseconds + setting.lateness state.index

/-- What follows from an act; none if it is not possible. Where both the timer and the cancellation
are ready when they are first looked at, either may come. -/
def step (setting : RetrySetting ε τ) (state : Retrying ε τ) :
    RetryAct → Option (Retrying ε τ)
  | .answer =>
      match state.retry with
      | .calling attempt => some {
          state with
          retry := Retry.returned setting.backoff setting.retryable (setting.jitters state.index)
            attempt (setting.results state.index)
          clock := state.clock + setting.lasting state.index }
      | _ => none
  | .elapse =>
      match state.retry with
      | .waiting _ _ wait =>
          let due := state.due setting wait
          if setting.cancelledAt.all (due ≤ ·) || wait.nanoseconds = 0 then
            match state.retry.elapsed setting.backoff with
            | .calling next => some ⟨.calling next, state.index + 1, due⟩
            | other => some ⟨other, state.index, due⟩
          else none
      | _ => none
  | .cancel =>
      match state.retry, setting.cancelledAt with
      | .waiting _ _ wait, some moment =>
          if moment ≤ state.due setting wait then
            some { state with retry := state.retry.cancelled, clock := max state.clock moment }
          else none
      | _, _ => none

abbrev run (setting : RetrySetting ε τ) (acts : List RetryAct) (state : Retrying ε τ) :
    Option (Retrying ε τ) :=
  Execution.run (step setting) acts state

inductive Goes (setting : RetrySetting ε τ) (state : Retrying ε τ) : Retrying ε τ → Prop
  | conclude (attempt : Attempt) (calling : state.retry = .calling attempt) (clock : Nat)
      (last : ∀ error, setting.results state.index = .error error →
        setting.retryable error = false ∨ setting.backoff.exhausted attempt = true) :
      Goes setting state ⟨.ended (setting.results state.index), state.index, clock⟩
  | rest (attempt : Attempt) (error : ε) (wait : Delay) (calling : state.retry = .calling attempt)
      (failed : setting.results state.index = .error error)
      (retryable : setting.retryable error = true)
      (left : setting.backoff.exhausted attempt = false)
      (waits : Backoff.wait attempt (setting.jitters state.index) = .ok wait) :
      Goes setting state ⟨.waiting attempt error wait, state.index,
        state.clock + setting.lasting state.index⟩
  | failWait (attempt : Attempt) (error : ε) (failure : DelayError) (clock : Nat)
      (calling : state.retry = .calling attempt)
      (failed : setting.results state.index = .error error)
      (retryable : setting.retryable error = true)
      (left : setting.backoff.exhausted attempt = false)
      (waits : Backoff.wait attempt (setting.jitters state.index) = .error failure) :
      Goes setting state ⟨.unwound failure, state.index, clock⟩
  | again (attempt next : Attempt) (error : ε) (wait : Delay)
      (waiting : state.retry = .waiting attempt error wait)
      (ready : (∀ moment, setting.cancelledAt = some moment → state.due setting wait ≤ moment) ∨
        wait.nanoseconds = 0)
      (follows : setting.backoff.next attempt = .ok next) :
      Goes setting state ⟨.calling next, state.index + 1, state.due setting wait⟩
  | failNext (attempt : Attempt) (error : ε) (wait : Delay) (failure : DelayError) (clock : Nat)
      (waiting : state.retry = .waiting attempt error wait)
      (ready : (∀ moment, setting.cancelledAt = some moment → state.due setting wait ≤ moment) ∨
        wait.nanoseconds = 0)
      (follows : setting.backoff.next attempt = .error failure) :
      Goes setting state ⟨.unwound failure, state.index, clock⟩
  | giveUp (attempt : Attempt) (error : ε) (wait : Delay) (moment clock : Nat)
      (waiting : state.retry = .waiting attempt error wait)
      (cancelled : setting.cancelledAt = some moment) (ready : moment ≤ state.due setting wait) :
      Goes setting state ⟨.ended (.error error), state.index, clock⟩

variable {setting : RetrySetting ε τ} {state next : Retrying ε τ} {act : RetryAct}
  {acts : List RetryAct}

theorem goes_of_step (stepped : step setting state act = some next) : Goes setting state next := by
  rcases state with ⟨retry, index, clock⟩
  cases act with
  | answer =>
      simp only [step] at stepped
      split at stepped
      · next attempt =>
          cases stepped
          cases failed : setting.results index with
          | ok value =>
              rw [Retry.returned, ← failed]
              exact .conclude attempt rfl _ fun error other => by
                rw [failed] at other
                cases other
          | error error =>
              simp only [Retry.returned]
              split
              · next final =>
                  rw [← failed]
                  refine .conclude attempt rfl _ fun other same => ?_
                  cases failed.symm.trans same
                  simpa using final
              · next goesOn =>
                  simp only [Bool.or_eq_true, Bool.not_eq_true', not_or, Bool.not_eq_false,
                    Bool.not_eq_true] at goesOn
                  split
                  · next wait waits =>
                      exact .rest attempt error wait rfl failed goesOn.1 goesOn.2 waits
                  · next failure waits =>
                      exact .failWait attempt error failure _ rfl failed goesOn.1 goesOn.2 waits
      · cases stepped
  | elapse =>
      simp only [step] at stepped
      split at stepped
      · next attempt error wait =>
          split at stepped
          · next ready =>
              have ready : (∀ moment, setting.cancelledAt = some moment →
                  due setting ⟨.waiting attempt error wait, index, clock⟩ wait ≤ moment) ∨
                  wait.nanoseconds = 0 := by
                simpa [Option.all_eq_true] using ready
              simp only [Retry.elapsed] at stepped
              cases follows : setting.backoff.next attempt with
              | ok next =>
                  rw [follows] at stepped
                  cases stepped
                  exact .again attempt next error wait rfl ready follows
              | error failure =>
                  rw [follows] at stepped
                  cases stepped
                  exact .failNext attempt error wait failure _ rfl ready follows
          · cases stepped
      · cases stepped
  | cancel =>
      simp only [step] at stepped
      split at stepped
      · next attempt error wait moment cancelled =>
          split at stepped
          · next ready =>
              cases stepped
              exact .giveUp attempt error wait moment _ rfl cancelled ready
          · cases stepped
      · cases stepped

end Retrying

end PolicyWarden
