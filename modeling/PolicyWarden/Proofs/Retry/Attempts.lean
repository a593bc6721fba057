import PolicyWarden.Retry

/-!
The attempts of a retried operation. They are numbered from one on, so that the number of an attempt
says how many calls were made, and the attempts are used up when it has come to their maximum.
-/

namespace PolicyWarden

namespace Backoff

variable {backoff : Backoff} {index : Nat} {attempt : Attempt}

/-- The attempts in their order, the first one having the index zero. -/
def attempt? (backoff : Backoff) : Nat → Except DelayError Attempt
  | 0 => .ok backoff.first
  | index + 1 => backoff.attempt? index >>= backoff.next

/-- Whether the delays that are computed after this attempt are spans of time. -/
def isSpaced (backoff : Backoff) (jitters : Nat → Float) (index : Nat) : Bool :=
  match backoff.attempt? index with
  | .ok attempt => (wait attempt (jitters index)).isOk && (backoff.next attempt).isOk
  | .error _ => false

theorem exists_of_isSpaced {jitters : Nat → Float} (known : backoff.attempt? index = .ok attempt)
    (spaced : backoff.isSpaced jitters index = true) :
    (∃ wait, Backoff.wait attempt (jitters index) = .ok wait) ∧
      ∃ next, backoff.next attempt = .ok next := by
  rw [isSpaced, known] at spaced
  rcases Bool.and_eq_true_iff.mp spaced with ⟨waits, follows⟩
  constructor
  · cases computed : wait attempt (jitters index) with
    | ok wait => exact ⟨wait, rfl⟩
    | error => rw [computed] at waits; cases waits
  · cases computed : backoff.next attempt with
    | ok next => exact ⟨next, rfl⟩
    | error => rw [computed] at follows; cases follows

theorem next_eq {delay : Delay}
    (grown : Delay.ofSeconds (lesser (attempt.delay.seconds * backoff.multiplier)
      backoff.ceiling.seconds) = .ok delay) :
    backoff.next attempt = .ok ⟨attempt.number + 1, delay⟩ := by
  simp only [Backoff.next, grown]

theorem number_next {next : Attempt} (follows : backoff.next attempt = .ok next) :
    next.number = attempt.number + 1 := by
  unfold Backoff.next at follows
  simp only at follows
  split at follows
  · cases follows; rfl
  · cases follows

theorem number_attempt (known : backoff.attempt? index = .ok attempt) :
    attempt.number = UInt32.ofNat (index + 1) := by
  induction index generalizing attempt with
  | zero => cases known; rfl
  | succ index induction =>
      cases earlier : backoff.attempt? index with
      | error => rw [attempt?, earlier] at known; cases known
      | ok before =>
          rw [attempt?, earlier] at known
          rw [number_next known, induction earlier, UInt32.ofNat_add (index + 1) 1]
          rfl

theorem not_exhausted_attempt (known : backoff.attempt? index = .ok attempt)
    (within : backoff.maxAttempts = 0 ∨ index + 1 < backoff.maxAttempts.toNat) :
    backoff.exhausted attempt = false := by
  have bound := backoff.maxAttempts.toNat_lt
  rw [exhausted, number_attempt known, Bool.and_eq_false_iff]
  simp only [decide_eq_false_iff_not, UInt32.lt_iff_toNat_lt, UInt32.le_iff_toNat_le,
    UInt32.toNat_ofNat', UInt32.toNat_zero]
  rcases within with unlimited | within
  · exact .inl (by simp [unlimited])
  · right
    rw [Nat.mod_eq_of_lt (by omega)]
    omega

theorem exhausted_attempt (known : backoff.attempt? index = .ok attempt)
    (last : index + 1 = backoff.maxAttempts.toNat) : backoff.exhausted attempt = true := by
  have bound := backoff.maxAttempts.toNat_lt
  rw [exhausted, number_attempt known, Bool.and_eq_true]
  simp only [decide_eq_true_eq, UInt32.lt_iff_toNat_lt, UInt32.le_iff_toNat_le,
    UInt32.toNat_ofNat', UInt32.toNat_zero]
  rw [Nat.mod_eq_of_lt (by omega)]
  omega

end Backoff

end PolicyWarden
