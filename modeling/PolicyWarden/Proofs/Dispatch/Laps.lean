import Mathlib.Algebra.Order.BigOperators.Group.List
import Mathlib.Algebra.Ring.Nat
import PolicyWarden.Proofs.Dispatch.Turn

/-!
The runs of one call, one after another, with the calls that are merged into each. `Lap.follow` takes
them along from event to event; `Lap.Fits` says what they are like at a phase of the call, and
`Phase.Turns.fits` that the call keeps it so by its own moves.
-/

namespace PolicyWarden

variable {α ρ : Type}

inductive LoopEvent where
  /-- A run of attempts begins; the identity is in flight without a mark. -/
  | begins
  | merges
  | ends (result : Except ReconcileError Outcome)
  | checks

def LoopEvent.isMerge : LoopEvent → Bool
  | .merges => true
  | _ => false

structure Lap where
  /-- How many calls were merged from the beginning to the look at the mark. -/
  merged : Nat := 0
  result : Option (Except ReconcileError Outcome) := none
  checked : Bool := false

namespace Phase

def loopEvents : Phase α ρ → Phase α ρ → List LoopEvent
  | .arriving, .attempting _ _ | .rearming, .attempting _ _ => [.begins]
  | .concluding _, _ => [.checks]
  | _, .concluding result => [.ends result]
  | _, _ => []

def mergeEvents : Phase α ρ → List LoopEvent
  | .merged => [.merges]
  | _ => []

end Phase

namespace Lap

def Repeated (lap : Lap) : Prop :=
  lap.checked = true ∧ 0 < lap.merged

/-- The runs after another event, the latest first. What is merged after the look at the mark belongs
to none of them. -/
def follow (laps : List Lap) : LoopEvent → List Lap
  | .begins => {} :: laps
  | .merges => laps.modifyHead fun lap =>
      if lap.checked then lap else { lap with merged := lap.merged + 1 }
  | .ends result => laps.modifyHead fun lap => { lap with result := some result }
  | .checks => laps.modifyHead fun lap => { lap with checked := true }

/-- What the runs of a call are like at a phase, given the mark of its identity. -/
def Fits (mark : Option Bool) (laps : List Lap) : Phase α ρ → Prop
  | .arriving | .merged => laps = []
  | .attempting _ _ | .backingOff _ _ _ => ∃ merged earlier,
      laps = ⟨merged, none, false⟩ :: earlier ∧ mark = some (decide (0 < merged)) ∧
        ∀ lap ∈ earlier, lap.Repeated
  | .concluding result => ∃ merged earlier,
      laps = ⟨merged, some result, false⟩ :: earlier ∧ mark = some (decide (0 < merged)) ∧
        ∀ lap ∈ earlier, lap.Repeated
  | .rearming => laps ≠ [] ∧ ∀ lap ∈ laps, lap.Repeated
  | .returned result => ∃ earlier,
      laps = ⟨0, some result, true⟩ :: earlier ∧ ∀ lap ∈ earlier, lap.Repeated
  | .unwound _ => True

def total (laps : List Lap) : Nat :=
  (laps.map merged).sum

theorem total_foldl_le (laps : List Lap) (events : List LoopEvent) :
    total (events.foldl follow laps) ≤ total laps + events.countP LoopEvent.isMerge := by
  induction events generalizing laps with
  | nil => exact Nat.le_refl _
  | cons event rest induction =>
      have first : total (follow laps event) ≤ total laps + event.isMerge.toNat := by
        cases laps with
        | nil => cases event <;> simp [total, follow]
        | cons lap earlier =>
            cases event with
            | merges =>
                cases checked : lap.checked <;>
                  simp [total, follow, LoopEvent.isMerge, checked, Nat.add_right_comm]
            | begins | ends | checks => simp [total, follow]
      have later := induction (follow laps event)
      rw [List.foldl_cons, List.countP_cons]
      cases counts : event.isMerge <;> simp [counts] at first ⊢ <;> omega

section Fits

variable {mark : Option Bool} {laps : List Lap} {phase : Phase α ρ}

theorem Fits.of_outside (fits : Fits mark laps phase) (outside : phase.inLoop = false)
    (other : Option Bool) : Fits other laps phase := by
  cases phase with
  | attempting | backingOff | concluding | rearming => cases outside
  | arriving | merged | returned | unwound => exact fits

theorem Fits.merge (fits : Fits mark laps phase) :
    Fits (some true) (follow laps .merges) phase := by
  cases phase with
  | arriving | merged => cases fits; rfl
  | attempting | backingOff | concluding =>
      rcases fits with ⟨merged, earlier, rfl, -, repeated⟩
      exact ⟨merged + 1, earlier, rfl, by simp, repeated⟩
  | rearming =>
      rcases laps with - | ⟨lap, earlier⟩
      · exact absurd rfl fits.1
      · have checked := (fits.2 lap (.head _)).1
        simpa [Fits, follow, checked] using fits.2
  | returned result =>
      rcases fits with ⟨earlier, rfl, repeated⟩
      exact ⟨earlier, rfl, repeated⟩
  | unwound => trivial

theorem Fits.latest (fits : Fits mark laps phase) (unfailed : ∀ message, phase ≠ .unwound message) :
    laps = [] ∨ (phase = .rearming ∧ ∀ lap ∈ laps, lap.Repeated) ∨
      ∃ lap earlier, laps = lap :: earlier ∧ phase ≠ .rearming ∧
        (lap.checked = true → lap.merged = 0) ∧ ∀ lap ∈ earlier, lap.Repeated := by
  cases phase with
  | arriving | merged => exact .inl fits
  | attempting | backingOff | concluding =>
      rcases fits with ⟨merged, earlier, rfl, -, repeated⟩
      exact .inr (.inr ⟨_, earlier, rfl, nofun, nofun, repeated⟩)
  | rearming => exact .inr (.inl ⟨rfl, fits.2⟩)
  | returned result =>
      rcases fits with ⟨earlier, rfl, repeated⟩
      exact .inr (.inr ⟨_, earlier, rfl, nofun, fun _ => rfl, repeated⟩)
  | unwound message => exact absurd rfl (unfailed message)

theorem length_le_total (repeated : ∀ lap ∈ laps, lap.Repeated) : laps.length ≤ total laps := by
  have length : (laps.map merged).length = laps.length := List.length_map _
  rw [total, ← length]
  refine List.length_le_sum_of_one_le _ fun count member => ?_
  rcases List.mem_map.mp member with ⟨lap, known, rfl⟩
  exact (repeated lap known).2

theorem Fits.length_le (fits : Fits mark laps phase)
    (unfailed : ∀ message, phase ≠ .unwound message) : laps.length ≤ 1 + total laps := by
  rcases fits.latest unfailed with rfl | ⟨-, repeated⟩ | ⟨lap, earlier, rfl, -, -, repeated⟩
  · exact Nat.zero_le _
  · exact Nat.le_add_left_of_le (length_le_total repeated)
  · have few := length_le_total repeated
    simp only [total, List.length_cons, List.map_cons, List.sum_cons] at few ⊢
    omega

theorem Fits.followed_iff (fits : Fits mark laps phase)
    (unfailed : ∀ message, phase ≠ .unwound message) {later earlier : List Lap} {lap : Lap}
    (split : laps = later ++ lap :: earlier) :
    (later ≠ [] → lap.checked = true) ∧
      (lap.checked = true → ((later ≠ [] ∨ phase = .rearming) ↔ 0 < lap.merged)) := by
  have member : lap ∈ laps := by simp [split]
  rcases fits.latest unfailed with rfl | ⟨rearming, repeated⟩ |
    ⟨latest, rest, rfl, other, unmarked, repeated⟩
  · cases member
  · have known := repeated lap member
    exact ⟨fun _ => known.1, fun _ => iff_of_true (.inr rearming) known.2⟩
  · rcases later with - | ⟨first, later⟩
    · cases split
      refine ⟨absurd rfl, fun checked => iff_of_false ?_ ?_⟩
      · rintro (nonempty | rearming)
        · exact nonempty rfl
        · exact other rearming
      · simp [unmarked checked]
    · cases split
      have known := repeated lap (by simp)
      exact ⟨fun _ => known.1, fun _ => iff_of_true (.inl (List.cons_ne_nil _ _)) known.2⟩

end Fits

end Lap

namespace Phase.Turns

variable {rules : Rules α ρ} {backoff : Backoff} {identity : Identity} {cancelled : Bool}
  {dispatcher after : Dispatcher ρ} {phase next : Phase α ρ} {move : Move α}

theorem fits {laps : List Lap}
    (turns : Turns rules backoff identity false dispatcher move phase after next)
    (fits : Lap.Fits (dispatcher.inFlight.find? identity) laps phase)
    (flying : phase.inLoop = true → dispatcher.inFlight.contains identity = true) :
    Lap.Fits (after.inFlight.find? identity)
      ((phase.loopEvents next).foldl Lap.follow laps) next := by
  cases turns with
  | merge => cases fits; rfl
  | enter =>
      cases fits
      exact ⟨0, [], rfl, by simp, nofun⟩
  | advance | answered | compiled | backOff | again => exact fits
  | abandon _ unwanted | giveUp _ _ _ unwanted => cases unwanted
  | conclude attempt result =>
      rcases fits with ⟨merged, earlier, rfl, marked, repeated⟩
      exact ⟨merged, earlier, rfl, marked, repeated⟩
  | failWait | crash | failNext => trivial
  | leave result free =>
      rcases fits with ⟨merged, earlier, rfl, marked, repeated⟩
      rcases free with unwanted | free
      · cases unwanted
      · have none : merged = 0 := by simpa [marked] using free
        subst none
        exact ⟨earlier, rfl, repeated⟩
  | stay result wanted bound =>
      rcases fits with ⟨merged, earlier, rfl, marked, repeated⟩
      have some : 0 < merged := by
        rw [marked] at bound
        simpa [Nat.pos_iff_ne_zero] using bound
      refine ⟨List.cons_ne_nil _ _, ?_⟩
      rintro lap (_ | ⟨_, member⟩)
      · exact ⟨rfl, some⟩
      · exact repeated lap member
  | rearm inFlight unmarked =>
      rw [if_pos (flying rfl)] at unmarked
      subst unmarked
      exact ⟨0, laps, rfl, by simp, fits.2⟩

end Phase.Turns

end PolicyWarden
