import PolicyWarden.Proofs.Retry.Timeline

/-!
Which call of a retried operation is the last one: the first of those that stop the retrying, and its
result is the result of all. The number of the attempts does not overflow if these are limited.
-/

namespace PolicyWarden

variable {ε τ : Type}

namespace Retrying

variable {setting : RetrySetting ε τ} {state next : Retrying ε τ} {act : RetryAct}
  {acts : List RetryAct}

/-- The attempt that is under way has the index of the latest call and may be made at all; each call
takes two acts. -/
structure Numbered (setting : RetrySetting ε τ) (acts : List RetryAct) (state : Retrying ε τ) :
    Prop where
  attempt : ∀ attempt, state.retry.attempt? = some attempt →
    setting.backoff.attempt? state.index = .ok attempt
  within : setting.backoff.maxAttempts = 0 ∨ state.index < setting.backoff.maxAttempts.toNat
  left : ∀ attempt error wait, state.retry = .waiting attempt error wait →
    setting.backoff.maxAttempts = 0 ∨ state.index + 1 < setting.backoff.maxAttempts.toNat
  length : acts.length ≤ 2 * state.index + state.retry.stage

theorem numbered_of_over (complete : next.retry.attempt? = none)
    (within : setting.backoff.maxAttempts = 0 ∨ next.index < setting.backoff.maxAttempts.toNat)
    (length : acts.length ≤ 2 * next.index + 1) : Numbered setting (acts ++ [act]) next := by
  rcases next with ⟨retry, index, clock⟩
  cases retry with
  | calling | waiting => cases complete
  | ended | unwound =>
      refine ⟨?_, within, ?_, by simpa [Retry.stage] using length⟩
      · rintro _ ⟨⟩
      · rintro _ _ _ ⟨⟩

theorem Numbered.of_goes (numbered : Numbered setting acts state) (goes : Goes setting state next) :
    Numbered setting (acts ++ [act]) next := by
  rcases numbered with ⟨known, within, left, length⟩
  cases goes with
  | conclude _ calling | failWait _ _ _ _ calling =>
      rw [calling] at length
      exact numbered_of_over rfl within (Nat.le_succ_of_le length)
  | rest attempt error wait calling failed retryable other =>
      rw [calling] at known length
      have known := known attempt rfl
      refine ⟨fun _ same => by cases same; exact known, within, fun _ _ _ _ => ?_, ?_⟩
      · have unequal := mt (RetrySetting.exhausted_iff known within).mpr (by simp [other])
        exact within.imp_right fun within => Nat.lt_of_le_of_ne within unequal
      · simpa [Retry.stage] using length
  | again attempt following error wait waiting ready follows =>
      rw [waiting] at known length
      refine ⟨?_, left attempt error wait waiting, ?_, ?_⟩
      · rintro _ ⟨⟩
        rw [Backoff.attempt?, known attempt rfl]
        exact follows
      · rintro _ _ _ ⟨⟩
      · simpa [Retry.stage, Nat.mul_succ] using length
  | failNext _ _ _ _ _ waiting | giveUp _ _ _ _ _ waiting =>
      rw [waiting] at length
      exact numbered_of_over rfl within length

theorem numbered_start (setting : RetrySetting ε τ) : Numbered setting [] (start setting) := by
  refine ⟨fun _ same => by cases same; rfl, ?_, by rintro _ _ _ ⟨⟩, Nat.zero_le _⟩
  by_cases unlimited : setting.backoff.maxAttempts = 0
  · exact .inl unlimited
  · exact .inr (Nat.pos_of_ne_zero fun none => unlimited (UInt32.toNat_inj.mp none))

theorem numbered_of_run (ran : run setting acts (start setting) = some state) :
    Numbered setting acts state :=
  Execution.run_history (Numbered setting) (numbered_start setting)
    (fun _ _ _ _ _ numbered stepped => numbered.of_goes (goes_of_step stepped)) ran

def OnSchedule (setting : RetrySetting ε τ) (state : Retrying ε τ) : Prop :=
  match state.retry with
  | .calling _ => state.clock = setting.begun state.index
  | .waiting attempt error wait =>
      setting.results state.index = .error error ∧ ¬setting.Concludes state.index ∧
        Backoff.wait attempt (setting.jitters state.index) = .ok wait ∧
        state.clock = setting.begun state.index + setting.lasting state.index
  | .ended result => result = setting.results state.index ∧ setting.Stops state.index
  | .unwound _ => False

theorem onSchedule_start (setting : RetrySetting ε τ) : OnSchedule setting (start setting) :=
  rfl

section Waiting

variable {attempt : Attempt} {error : ε} {wait : Delay}

theorem OnSchedule.of_waiting (onSchedule : OnSchedule setting state)
    (waiting : state.retry = .waiting attempt error wait) :
    setting.results state.index = .error error ∧ ¬setting.Concludes state.index ∧
      Backoff.wait attempt (setting.jitters state.index) = .ok wait ∧
      state.clock = setting.begun state.index + setting.lasting state.index := by
  rw [OnSchedule, waiting] at onSchedule
  exact onSchedule

theorem due_eq (regular : setting.Regular) (numbered : Numbered setting acts state)
    (made : setting.Made state.index) (onSchedule : OnSchedule setting state)
    (waiting : state.retry = .waiting attempt error wait) :
    state.due setting wait = setting.begun (state.index + 1) ∧ 0 < wait.nanoseconds := by
  have known := numbered.attempt attempt (by rw [waiting]; rfl)
  rcases onSchedule.of_waiting waiting with ⟨-, goesOn, computed, clock⟩
  rcases regular.spaced state.index attempt made goesOn known with ⟨same, again, positive⟩
  cases computed.symm.trans again
  rw [RetrySetting.begun_succ known computed, due, clock]
  exact ⟨rfl, positive⟩

theorem made_next (regular : setting.Regular) (numbered : Numbered setting acts state)
    (made : setting.Made state.index) (onSchedule : OnSchedule setting state)
    (waiting : state.retry = .waiting attempt error wait)
    (ready : (∀ moment, setting.cancelledAt = some moment → state.due setting wait ≤ moment) ∨
      wait.nanoseconds = 0) : setting.Made (state.index + 1) := by
  rcases due_eq regular numbered made onSchedule waiting with ⟨due, positive⟩
  have uncancelled := ready.resolve_right (Nat.ne_of_gt positive)
  refine made.next ?_
  rintro (concludes | ⟨moment, cancelled, early⟩)
  · exact (onSchedule.of_waiting waiting).2.1 concludes
  · rw [← due] at early
    exact absurd early (Nat.not_lt_of_le (uncancelled moment cancelled))

end Waiting

theorem onSchedule_of_goes (regular : setting.Regular) (numbered : Numbered setting acts state)
    (made : setting.Made state.index) (onSchedule : OnSchedule setting state)
    (goes : Goes setting state next) : setting.Made next.index ∧ OnSchedule setting next := by
  have known := numbered.attempt
  have within := numbered.within
  cases goes with
  | conclude attempt calling clock last =>
      refine ⟨made, rfl, .inl ?_⟩
      rw [calling] at known
      cases result : setting.results state.index with
      | ok value => exact .inl ⟨value, result⟩
      | error error =>
          rcases last error result with refused | exhausted
          · exact .inr (.inl ⟨error, result, refused⟩)
          · exact .inr (.inr ((RetrySetting.exhausted_iff (known attempt rfl) within).mp exhausted))
  | rest attempt error wait calling failed retryable left computed =>
      rw [calling] at known
      rw [OnSchedule, calling] at onSchedule
      refine ⟨made, failed, ?_, computed, congrArg (· + _) onSchedule⟩
      exact RetrySetting.not_concludes (known attempt rfl) within failed retryable left
  | failWait attempt error failure clock calling failed retryable left fails =>
      rw [calling] at known
      have goesOn := RetrySetting.not_concludes (known attempt rfl) within failed retryable left
      rcases regular.spaced state.index attempt made goesOn (known attempt rfl) with
        ⟨wait, computed, -⟩
      cases fails.symm.trans computed
  | again attempt following error wait waiting ready =>
      exact ⟨made_next regular numbered made onSchedule waiting ready,
        (due_eq regular numbered made onSchedule waiting).1⟩
  | failNext attempt error wait failure clock waiting ready fails =>
      have made := made_next regular numbered made onSchedule waiting ready
      rcases regular.numbered (state.index + 1) made with ⟨following, computed⟩
      rw [waiting] at known
      rw [Backoff.attempt?, known attempt rfl] at computed
      cases fails.symm.trans computed
  | giveUp attempt error wait moment clock waiting cancelled ready =>
      rcases onSchedule.of_waiting waiting with ⟨failed, goesOn, -, -⟩
      have apart := regular.apart state.index made goesOn
      rw [cancelled, ne_eq, Option.some_inj] at apart
      rw [(due_eq regular numbered made onSchedule waiting).1] at ready
      exact ⟨made, failed.symm, .inr ⟨moment, cancelled, Nat.lt_of_le_of_ne ready apart⟩⟩

theorem onSchedule_of_run (regular : setting.Regular)
    (ran : run setting acts (start setting) = some state) :
    setting.Made state.index ∧ OnSchedule setting state := by
  refine Execution.run_history (fun _ state => setting.Made state.index ∧ OnSchedule setting state)
    ⟨RetrySetting.made_zero, onSchedule_start setting⟩ ?_ ran
  intro acts act state next earlier known stepped
  exact onSchedule_of_goes regular (numbered_of_run earlier) known.1 known.2 (goes_of_step stepped)

theorem exists_step (attempt : Attempt) (going : state.retry.attempt? = some attempt) :
    ∃ act next, step setting state act = some next := by
  rcases state with ⟨retry, index, clock⟩
  cases retry with
  | ended | unwound => cases going
  | calling attempt => exact ⟨.answer, _, rfl⟩
  | waiting attempt error wait =>
      by_cases early : ∃ moment, setting.cancelledAt = some moment ∧
        moment ≤ due setting ⟨.waiting attempt error wait, index, clock⟩ wait
      · rcases early with ⟨moment, cancelled, early⟩
        refine ⟨.cancel, ?_⟩
        simp only [step, cancelled, if_pos early]
        exact ⟨_, rfl⟩
      · have ready : setting.cancelledAt.all
            (due setting ⟨.waiting attempt error wait, index, clock⟩ wait ≤ ·) = true := by
          rw [Option.all_eq_true]
          intro moment cancelled
          simpa using Nat.le_of_not_le fun other => early ⟨moment, cancelled, other⟩
        refine ⟨.elapse, ?_⟩
        simp only [step, ready, Bool.true_or, if_true]
        split <;> exact ⟨_, rfl⟩

theorem step_of_ended {result : Except ε τ} (complete : state.retry = .ended result)
    (act : RetryAct) : step setting state act = none := by
  cases act <;> simp [step, complete]

theorem over_or_goesOn (regular : setting.Regular)
    (ran : run setting acts (start setting) = some state) :
    (IsLeast {index | setting.Stops index} state.index ∧
      state.retry = .ended (setting.results state.index)) ∨
    ∃ act next, step setting state act = some next := by
  rcases onSchedule_of_run regular ran with ⟨made, onSchedule⟩
  cases phase : state.retry with
  | calling attempt | waiting attempt =>
      exact .inr (exists_step attempt (by rw [phase]; rfl))
  | ended result =>
      rw [OnSchedule, phase] at onSchedule
      rcases onSchedule with ⟨rfl, stops⟩
      exact .inl ⟨made.isLeast stops, rfl⟩
  | unwound =>
      rw [OnSchedule, phase] at onSchedule
      cases onSchedule

theorem stage_le (retry : Retry ε τ) : retry.stage ≤ 2 := by
  cases retry <;> simp [Retry.stage]

/-- Where the delays are regular, the retrying comes to an end with the result of its last call, which
is the first one that stops it, and no act is possible then; without such a call it goes on for
ever. Cancelled beforehand, it still makes the first call. Limited attempts make for such a call, and
then the number of the attempt is the number of the calls, which is at most the maximum. -/
theorem ends_with_last_call (setting : RetrySetting ε τ) :
    (setting.Regular →
      (∀ last, IsLeast {index | setting.Stops index} last →
        (∃ acts final, run setting acts (start setting) = some final ∧ final.calls = last + 1 ∧
          final.retry = .ended (setting.results last)) ∧
        ∀ acts state, run setting acts (start setting) = some state →
          acts.length ≤ 2 * (last + 1) ∧ state.calls ≤ last + 1 ∧
          (state.calls = last + 1 ∧ state.retry = .ended (setting.results last) ∧
              (∀ act, step setting state act = none) ∨
            ∃ act next, step setting state act = some next)) ∧
      ((∀ index, ¬setting.Stops index) → ∀ acts state,
        run setting acts (start setting) = some state →
          ∃ act next, step setting state act = some next) ∧
      (setting.cancelledAt = some 0 → IsLeast {index | setting.Stops index} 0)) ∧
    (setting.backoff.maxAttempts ≠ 0 →
      (∃ last < setting.backoff.maxAttempts.toNat, IsLeast {index | setting.Stops index} last) ∧
      ∀ acts state, run setting acts (start setting) = some state →
        acts.length ≤ 2 * setting.backoff.maxAttempts.toNat ∧
        state.calls ≤ setting.backoff.maxAttempts.toNat ∧
        ∀ attempt, state.retry.attempt? = some attempt → attempt.number.toNat = state.calls) := by
  refine ⟨fun regular => ⟨?last, ?endless, ?beforehand⟩, fun limited => ⟨?first, ?bounded⟩⟩
  case last =>
    intro last least
    have bounded : ∀ acts state, run setting acts (start setting) = some state →
        acts.length ≤ 2 * (last + 1) ∧ state.calls ≤ last + 1 := by
      intro acts state ran
      have early := (onSchedule_of_run regular ran).1.le_of_stops least.1
      have length := (numbered_of_run ran).length
      have stage := stage_le state.retry
      rw [calls]
      omega
    have ended : ∀ acts state, run setting acts (start setting) = some state →
        state.calls = last + 1 ∧ state.retry = .ended (setting.results last) ∧
            (∀ act, step setting state act = none) ∨
          ∃ act next, step setting state act = some next := by
      intro acts state ran
      refine (over_or_goesOn regular ran).imp_left fun ⟨first, ended⟩ => ?_
      cases first.unique least
      exact ⟨rfl, ended, step_of_ended ended⟩
    refine ⟨?_, fun acts state ran =>
      ⟨(bounded acts state ran).1, (bounded acts state ran).2, ended acts state ran⟩⟩
    rcases Execution.exists_run_to_rest fun acts state ran => (bounded acts state ran).1 with
      ⟨acts, final, ran, rests⟩
    rcases ended acts final ran with ⟨calls, result, -⟩ | ⟨act, next, stepped⟩
    · exact ⟨acts, final, ran, calls, result⟩
    · cases (rests act).symm.trans stepped
  case endless =>
    intro unstopped acts state ran
    exact (over_or_goesOn regular ran).resolve_left fun least => unstopped _ least.1.1
  case beforehand =>
    intro cancelled
    refine RetrySetting.made_zero.isLeast ?_
    by_cases concludes : setting.Concludes 0
    · exact .inl concludes
    · rcases regular.spaced 0 _ RetrySetting.made_zero concludes rfl with ⟨wait, computed, positive⟩
      refine .inr ⟨0, cancelled, ?_⟩
      rw [RetrySetting.begun_succ rfl computed]
      omega
  case first => exact RetrySetting.exists_isLeast_stops limited
  case bounded =>
    intro acts state ran
    have numbered := numbered_of_run ran
    have within := numbered.within.resolve_left limited
    have length := numbered.length
    have stage := stage_le state.retry
    refine ⟨by omega, within, fun attempt known => ?_⟩
    have bound := setting.backoff.maxAttempts.toNat_lt
    rw [Backoff.number_attempt (numbered.attempt attempt known), UInt32.toNat_ofNat',
      Nat.mod_eq_of_lt (by omega), calls]

section EverySecond

def everySecond (maxAttempts : UInt32) (cancelledAt : Option Nat) : RetrySetting Unit Unit where
  backoff := { maxAttempts, initial := ⟨1000000000⟩, ceiling := ⟨1000000000⟩ }
  retryable _ := true
  results _ := .error ()
  lasting _ := 0
  jitters _ := 1.0
  lateness _ := 0
  cancelledAt

variable {maxAttempts : UInt32} {cancelledAt : Option Nat}

theorem ofSeconds_second {seconds : Float}
    (known : (Delay.ofSeconds seconds).toOption = some ⟨1000000000⟩) :
    Delay.ofSeconds seconds = .ok ⟨1000000000⟩ := by
  cases computed : Delay.ofSeconds seconds with
  | error => rw [computed] at known; cases known
  | ok delay => rw [computed] at known; cases known; rfl

theorem attempt?_everySecond (index : Nat) :
    (everySecond maxAttempts cancelledAt).backoff.attempt? index =
      .ok ⟨UInt32.ofNat (index + 1), ⟨1000000000⟩⟩ := by
  induction index with
  | zero => rfl
  | succ index induction =>
      have grown : Delay.ofSeconds (Backoff.lesser ((⟨1000000000⟩ : Delay).seconds * 2.0)
          (⟨1000000000⟩ : Delay).seconds) = .ok ⟨1000000000⟩ :=
        ofSeconds_second (by decide +kernel)
      rw [Backoff.attempt?, induction, UInt32.ofNat_add (index + 1) 1]
      exact Backoff.next_eq grown

theorem wait_everySecond (number : UInt32) :
    Backoff.wait ⟨number, ⟨1000000000⟩⟩ 1.0 = .ok ⟨1000000000⟩ := by
  change Delay.ofSeconds ((⟨1000000000⟩ : Delay).seconds * 1.0) = _
  exact ofSeconds_second (by decide +kernel)

theorem begun_everySecond (index : Nat) :
    (everySecond maxAttempts cancelledAt).begun index = index * 1000000000 := by
  induction index with
  | zero => rfl
  | succ index induction =>
      rw [RetrySetting.begun_succ (attempt?_everySecond index) (wait_everySecond _), induction]
      simp only [everySecond]
      omega

theorem regular_everySecond
    (apart : ∀ index, cancelledAt ≠ some ((index + 1) * 1000000000)) :
    (everySecond maxAttempts cancelledAt).Regular where
  numbered index _ := ⟨_, attempt?_everySecond index⟩
  spaced index attempt _ _ known := by
    cases (attempt?_everySecond index).symm.trans known
    exact ⟨_, wait_everySecond _, by decide⟩
  apart index _ _ := by
    rw [begun_everySecond]
    exact apart index

end EverySecond

/-- A cancellation during the second wait leaves it at two calls out of three, one beforehand at one
call. Without any and without a limit the calls go on for ever; and the greatest limit there is does
for the number of the attempts. -/
theorem ends_with_last_call_everySecond :
    (∃ acts final, run (everySecond 3 (some 1500000000)) acts
        (start (everySecond 3 (some 1500000000))) = some final ∧
      final.calls = 2 ∧ final.retry = .ended (.error ())) ∧
    IsLeast {index | (everySecond 0 (some 0)).Stops index} 0 ∧
    (∀ acts state, run (everySecond 0 none) acts (start (everySecond 0 none)) = some state →
      ∃ act next, step (everySecond 0 none) state act = some next) ∧
    ∀ acts state, run (everySecond 4294967295 none) acts (start (everySecond 4294967295 none)) =
      some state → state.calls ≤ 4294967295 := by
  have goesOn : ∀ maxAttempts cancelledAt index, index + 1 ≠ maxAttempts.toNat →
      (∀ moment, cancelledAt = some moment → (index + 1) * 1000000000 ≤ moment) →
      ¬(everySecond maxAttempts cancelledAt).Stops index := by
    rintro maxAttempts cancelledAt index left uncancelled
      ((⟨_, ⟨⟩⟩ | ⟨_, _, ⟨⟩⟩ | last) | ⟨moment, cancelled, early⟩)
    · exact left last
    · rw [begun_everySecond] at early
      exact absurd early (Nat.not_lt_of_le (uncancelled moment cancelled))
  refine ⟨?cancelled, ?beforehand, ?endless, ?greatest⟩
  case cancelled =>
    refine (((ends_with_last_call (everySecond 3 (some 1500000000))).1 ?_).1 1 ?_).1
    · refine regular_everySecond fun index same => ?_
      have moment := Option.some.inj same
      omega
    · refine RetrySetting.Made.isLeast ?_ (.inr ⟨1500000000, rfl, ?_⟩)
      · intro earlier before
        refine goesOn _ _ earlier ?_ ?_
        · change earlier + 1 ≠ 3
          omega
        · rintro _ ⟨⟩
          omega
      · rw [begun_everySecond]
        decide
  case beforehand =>
    refine ((ends_with_last_call (everySecond 0 (some 0))).1 ?_).2.2 rfl
    exact regular_everySecond fun index same => by simp at same
  case endless =>
    refine ((ends_with_last_call (everySecond 0 none)).1 ?_).2.1 fun index => ?_
    · exact regular_everySecond nofun
    · exact goesOn _ _ index (Nat.succ_ne_zero index) nofun
  case greatest =>
    intro acts state ran
    exact (((ends_with_last_call (everySecond 4294967295 none)).2 (by decide)).2 acts state ran).2.1

end Retrying

end PolicyWarden
