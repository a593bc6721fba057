import Mathlib.Data.List.Perm.Subperm
import PolicyWarden.Proofs.Dispatch.Occupancy

/-!
An intake from its start to its return. It stops taking events when it is cancelled, or when none
can come any more: the stream has ended, both lines are empty, and nobody is left who could send an
identity back after a rest. Such a sender is the intake itself until it returns, every dispatch in
progress, and every rest, which has its sender from the dispatch that it follows. The intake returns
once it has stopped and its last dispatch is over. A dispatch that fails without a result makes the
intake fall, and the other dispatches with it; rests outlive both ends and then come to nothing.
-/

namespace PolicyWarden

variable {α ρ : Type}

structure Serving (α ρ : Type) where
  admitting : Admitting α ρ
  flowing : Bool := true
  /-- Rests that nobody waits for any more. -/
  stray : List Rest := []
  senders : Nat := 1
  returned : Bool := false
  fallen : Bool := false

inductive ServeAct (α : Type) where
  | proceed (act : AdmitAct α)
  | exhaust
  | lapse (rest : Rest)
  | close
  | leave

namespace Serving

def isCancelled (state : Serving α ρ) : Bool := state.admitting.dispatching.isCancelled 0

def rests (state : Serving α ρ) : List Rest :=
  state.admitting.intake.resting ++ state.stray

def isDry (state : Serving α ρ) : Bool :=
  !state.flowing && state.senders = 0 &&
    state.admitting.intake.arrived.isEmpty && state.admitting.intake.rested.isEmpty

def shut (state : Serving α ρ) : Serving α ρ :=
  { state with
    admitting.intake := state.admitting.intake.stop
    stray := state.stray ++ state.admitting.intake.resting }

def fall (state : Serving α ρ) : Serving α ρ :=
  { state.shut with
    admitting.intake.slots := []
    senders := state.senders - 1 - state.admitting.intake.slots.length
    fallen := true }

/-- A dispatch that has moved keeps its sender while it is in progress and then hands it on to the
rest that follows, if one does. -/
def settle (state : Serving α ρ) (call : DispatchCall α ρ) : Serving α ρ :=
  let kept := call.inProgress || call.deservesRest (state.admitting.dispatching.isCancelled 0)
  let settled := { state with senders := if kept then state.senders else state.senders - 1 }
  match call.phase with
  | .unwound _ => settled.fall
  | _ => settled

/-- Whether the intake may act so. It stops by `close` alone, and nothing is taken or moved after
a fall. -/
def allows (state : Serving α ρ) : AdmitAct α → Bool
  | .event _ => state.flowing
  | .take | .move _ _ _ _ => !state.fallen
  | .stop => false
  | .change _ _ | .wake _ | .cancel => true

def follow (state : Serving α ρ) (admitting : Admitting α ρ) : AdmitAct α → Serving α ρ
  | .take => { state with admitting, senders := state.senders + 1 }
  | .move ticket _ _ _ =>
      match admitting.dispatching.calls[ticket]? with
      | some call => settle { state with admitting } call
      | none => { state with admitting }
  | .wake now =>
      { state with
        admitting
        senders :=
          state.senders - state.admitting.intake.resting.countP fun rest => rest.due ≤ now }
  | _ => { state with admitting }

def step (rules : Rules α ρ) (backoff : Backoff) (state : Serving α ρ) :
    ServeAct α → Option (Serving α ρ)
  | .proceed act =>
      if state.allows act then
        (state.admitting.step rules backoff act).map fun admitting => state.follow admitting act
      else none
  | .exhaust => some { state with flowing := false }
  | .lapse rest =>
      if rest ∈ state.stray then
        some { state with stray := state.stray.erase rest, senders := state.senders - 1 }
      else if state.isCancelled && rest ∈ state.admitting.intake.resting then
        some { state with
          admitting.intake.resting := state.admitting.intake.resting.erase rest
          senders := state.senders - 1 }
      else none
  | .close =>
      if !state.fallen && !state.admitting.intake.stopped && (state.isCancelled || state.isDry) then
        some state.shut
      else none
  | .leave =>
      if !state.fallen && !state.returned && state.admitting.intake.isDone then
        some { state with returned := true, senders := state.senders - 1 }
      else none

def start (limit : Nat) (cache : Cache ρ) (resources : Identity → Option α) : Serving α ρ :=
  { admitting := .start limit cache resources }

abbrev run (rules : Rules α ρ) (backoff : Backoff) (acts : List (ServeAct α))
    (state : Serving α ρ) : Option (Serving α ρ) :=
  Execution.run (step rules backoff) acts state

variable {rules : Rules α ρ} {backoff : Backoff} {state next : Serving α ρ}

theorem proceed_of_step {act : AdmitAct α}
    (stepped : step rules backoff state (.proceed act) = some next) :
    state.allows act = true ∧
      ∃ admitting, state.admitting.step rules backoff act = some admitting ∧
        next = state.follow admitting act := by
  simp only [step] at stepped
  split at stepped
  · next allowed =>
      rcases Option.map_eq_some_iff.mp stepped with ⟨admitting, admitted, rfl⟩
      exact ⟨allowed, admitting, admitted, rfl⟩
  · cases stepped

theorem move_of_step {ticket due : Nat} {jitter : Float} {prompt : Prompt}
    (stepped : step rules backoff state (.proceed (.move ticket jitter prompt due)) = some next) :
    state.fallen = false ∧ ∃ admitting call,
      state.admitting.step rules backoff (.move ticket jitter prompt due) = some admitting ∧
      admitting.dispatching.calls[ticket]? = some call ∧
      next = settle { state with admitting } call := by
  rcases proceed_of_step stepped with ⟨allowed, admitting, admitted, followed⟩
  rcases Admitting.move_of_step admitted with ⟨call, -, present, -⟩
  refine ⟨by simpa [allows] using allowed, admitting, call, admitted, present, ?_⟩
  rw [followed]
  simp only [follow, present]

theorem dispatching_follow (admitting : Admitting α ρ) (act : AdmitAct α) :
    (state.follow admitting act).admitting.dispatching = admitting.dispatching := by
  cases act with
  | move ticket jitter prompt due =>
      simp only [follow]
      split
      · unfold settle
        split <;> rfl
      · rfl
  | _ => rfl

theorem lapse_of_step {rest : Rest} (stepped : step rules backoff state (.lapse rest) = some next) :
    (rest ∈ state.stray ∧
      next = { state with stray := state.stray.erase rest, senders := state.senders - 1 }) ∨
    (state.isCancelled = true ∧ rest ∈ state.admitting.intake.resting ∧
      next = { state with
        admitting.intake.resting := state.admitting.intake.resting.erase rest
        senders := state.senders - 1 }) := by
  simp only [step] at stepped
  split at stepped
  · next known => cases stepped; exact .inl ⟨known, rfl⟩
  · split at stepped
    · next known =>
        cases stepped
        simp only [Bool.and_eq_true, decide_eq_true_eq] at known
        exact .inr ⟨known.1, known.2, rfl⟩
    · cases stepped

theorem close_of_step (stepped : step rules backoff state .close = some next) :
    state.fallen = false ∧ state.admitting.intake.stopped = false ∧
      (state.isCancelled = true ∨ state.isDry = true) ∧ next = state.shut := by
  simp only [step] at stepped
  split at stepped
  · next ready =>
      cases stepped
      simp only [Bool.and_eq_true, Bool.or_eq_true, Bool.not_eq_true'] at ready
      exact ⟨ready.1.1, ready.1.2, ready.2, rfl⟩
  · cases stepped

theorem leave_of_step (stepped : step rules backoff state .leave = some next) :
    state.fallen = false ∧ state.returned = false ∧ state.admitting.intake.stopped = true ∧
      state.admitting.intake.slots = [] ∧
      next = { state with returned := true, senders := state.senders - 1 } := by
  simp only [step] at stepped
  split at stepped
  · next ready =>
      cases stepped
      simp only [Intake.isDone, Bool.and_eq_true, Bool.not_eq_true', List.isEmpty_iff] at ready
      exact ⟨ready.1.1, ready.1.2, ready.2.1, ready.2.2, rfl⟩
  · cases stepped

theorem rests_shut (state : Serving α ρ) : state.shut.rests.Perm state.rests :=
  (List.perm_append_comm : (state.stray ++ state.admitting.intake.resting).Perm _)

theorem lines_follow (admitting : Admitting α ρ) (act : AdmitAct α) :
    (state.follow admitting act).admitting.intake.limit = admitting.intake.limit ∧
      (state.follow admitting act).admitting.intake.arrived = admitting.intake.arrived ∧
      (state.follow admitting act).admitting.intake.rested = admitting.intake.rested ∧
      (state.follow admitting act).admitting.intake.slots.Sublist admitting.intake.slots ∧
      (state.follow admitting act).rests.Perm (admitting.intake.resting ++ state.stray) := by
  cases act with
  | move ticket jitter prompt due =>
      simp only [follow]
      split
      · unfold settle
        split
        · exact ⟨rfl, rfl, rfl, List.nil_sublist _, rests_shut { state with admitting }⟩
        · exact ⟨rfl, rfl, rfl, List.Sublist.refl _, List.Perm.refl _⟩
      · exact ⟨rfl, rfl, rfl, List.Sublist.refl _, List.Perm.refl _⟩
  | _ => exact ⟨rfl, rfl, rfl, List.Sublist.refl _, List.Perm.refl _⟩

structure Aside (state next : Serving α ρ) : Prop where
  dispatching : next.admitting.dispatching = state.admitting.dispatching
  limit : next.admitting.intake.limit = state.admitting.intake.limit
  arrived : next.admitting.intake.arrived = state.admitting.intake.arrived
  rested : next.admitting.intake.rested = state.admitting.intake.rested
  slots : next.admitting.intake.slots = state.admitting.intake.slots
  rests : next.rests.Subperm state.rests
  returned : state.returned = true → next.returned = true

theorem step_cases {act : ServeAct α} (stepped : step rules backoff state act = some next) :
    (∃ inner admitting, act = .proceed inner ∧ state.allows inner = true ∧
      state.admitting.step rules backoff inner = some admitting ∧
      next = state.follow admitting inner) ∨
    Aside state next := by
  cases act with
  | proceed inner =>
      rcases proceed_of_step stepped with ⟨allowed, admitting, admitted, rfl⟩
      exact .inl ⟨inner, admitting, rfl, allowed, admitted, rfl⟩
  | exhaust =>
      cases stepped
      exact .inr ⟨rfl, rfl, rfl, rfl, rfl, List.Subperm.refl _, id⟩
  | lapse rest =>
      rcases lapse_of_step stepped with ⟨-, rfl⟩ | ⟨-, -, rfl⟩
      · exact .inr ⟨rfl, rfl, rfl, rfl, rfl, (List.erase_sublist.append_left _).subperm, id⟩
      · exact .inr ⟨rfl, rfl, rfl, rfl, rfl, (List.erase_sublist.append_right _).subperm, id⟩
  | close =>
      rcases close_of_step stepped with ⟨-, -, -, rfl⟩
      exact .inr ⟨rfl, rfl, rfl, rfl, rfl, state.rests_shut.subperm, id⟩
  | leave =>
      rcases leave_of_step stepped with ⟨-, -, -, -, rfl⟩
      exact .inr ⟨rfl, rfl, rfl, rfl, rfl, List.Subperm.refl _, fun _ => rfl⟩

theorem dispatching_of_step {act : ServeAct α}
    (stepped : step rules backoff state act = some next) :
    next.admitting.dispatching = state.admitting.dispatching ∨
      ∃ moved, state.admitting.dispatching.step rules backoff moved =
        some next.admitting.dispatching := by
  rcases step_cases stepped with ⟨inner, admitting, -, -, admitted, rfl⟩ | aside
  · rw [dispatching_follow]
    exact (Admitting.dispatching_of_step admitted).imp_right fun ⟨moved, known, _⟩ =>
      ⟨moved, known⟩
  · exact .inl aside.dispatching

theorem isCancelled_of_step {act : AdmitAct α} {admitting : Admitting α ρ}
    (cancelled : state.isCancelled = true)
    (admitted : state.admitting.step rules backoff act = some admitting) :
    admitting.dispatching.isCancelled 0 = true := by
  rcases Admitting.dispatching_of_step admitted with same | ⟨moved, stepped, -⟩
  · exact same ▸ cancelled
  · exact Dispatching.isCancelled_of_step cancelled stepped

/-- As long as the intake has not fallen, every sender has its holder. -/
structure Standing (state : Serving α ρ) : Prop where
  occupied : state.admitting.Occupied
  intact : state.admitting.dispatching.Intact
  senders : state.senders = (!state.returned).toNat + state.admitting.intake.slots.length +
    state.admitting.intake.resting.length + state.stray.length

structure Sound (state : Serving α ρ) : Prop where
  standing : state.fallen = false → state.Standing
  fallen : state.fallen = true → state.admitting.intake.slots = []
  stopped : state.admitting.intake.stopped = true →
    state.isCancelled = true ∨ state.fallen = true
  returned : state.returned = true →
    state.fallen = false ∧ state.admitting.intake.stopped = true ∧
      state.admitting.intake.slots = []

theorem sound_start (limit : Nat) (cache : Cache ρ) (resources : Identity → Option α) :
    Sound (start limit cache resources) where
  standing := fun _ => ⟨Admitting.occupied_start limit cache resources, nofun, rfl⟩
  fallen := nofun
  stopped := nofun
  returned := nofun

theorem Sound.kept (sound : Sound state) {admitting : Admitting α ρ}
    (calls : admitting.dispatching.calls = state.admitting.dispatching.calls)
    (slots : admitting.intake.slots = state.admitting.intake.slots)
    (resting : admitting.intake.resting = state.admitting.intake.resting)
    (stopped : admitting.intake.stopped = state.admitting.intake.stopped)
    (cancelled : state.isCancelled = true → admitting.dispatching.isCancelled 0 = true) :
    Sound { state with admitting } where
  standing whole := by
    have standing := sound.standing whole
    refine ⟨standing.occupied.kept calls slots, ?_, ?_⟩
    · intro call member
      exact standing.intact call (calls ▸ member)
    · simp only [slots, resting]
      exact standing.senders
  fallen := fun down => slots.trans (sound.fallen down)
  stopped := fun closed => (sound.stopped (stopped ▸ closed)).imp_left cancelled
  returned := fun left => by
    rcases sound.returned left with ⟨whole, closed, idle⟩
    exact ⟨whole, stopped.trans closed, slots.trans idle⟩

theorem Sound.advance (sound : Sound state) {admitting : Admitting α ρ} {senders : Nat}
    (whole : state.fallen = false) (staying : state.returned = false)
    (standing : Standing { state with admitting, senders })
    (stopped : admitting.intake.stopped = state.admitting.intake.stopped)
    (cancelled : state.isCancelled = true → admitting.dispatching.isCancelled 0 = true) :
    Sound { state with admitting, senders } where
  standing := fun _ => standing
  fallen := fun down => absurd (whole.symm.trans down) nofun
  stopped := fun closed => (sound.stopped (stopped ▸ closed)).imp_left cancelled
  returned := fun left => absurd (staying.symm.trans left) nofun

theorem Sound.staying_of_accepting (sound : Sound state)
    (accepting : state.admitting.intake.stopped = false) : state.returned = false := by
  cases left : state.returned with
  | false => rfl
  | true => exact absurd (accepting.symm.trans (sound.returned left).2.1) nofun

theorem Sound.staying_of_held (sound : Sound state) {slot : Slot}
    (held : slot ∈ state.admitting.intake.slots) : state.returned = false := by
  cases left : state.returned with
  | false => rfl
  | true =>
      rw [(sound.returned left).2.2] at held
      cases held

theorem Sound.of_take (sound : Sound state)
    (stepped : step rules backoff state (.proceed .take) = some next) : Sound next := by
  rcases proceed_of_step stepped with ⟨allowed, admitting, admitted, rfl⟩
  have whole : state.fallen = false := by simpa [allows] using allowed
  have standing := sound.standing whole
  rcases Admitting.take_of_step admitted with ⟨identity, intake, taken, called, started⟩
  rcases Intake.draws_of_next taken with ⟨accepts, draws⟩
  have staying : state.returned = false := by
    apply sound.staying_of_accepting
    simp only [Intake.accepts, Bool.and_eq_true, Bool.not_eq_true'] at accepts
    exact accepts.1
  have same : intake.slots = state.admitting.intake.slots ∧
      intake.resting = state.admitting.intake.resting ∧
      intake.stopped = state.admitting.intake.stopped := by
    cases draws <;> exact ⟨rfl, rfl, rfl⟩
  apply sound.advance whole staying
  · refine ⟨standing.occupied.of_step admitted, ?intact, ?senders⟩
    case intact =>
      intro call member message
      have calls := congrArg Dispatching.calls (Option.some.inj called)
      simp only [← calls] at member
      rcases List.mem_append.mp member with old | fresh
      · exact standing.intact call old message
      · rw [List.mem_singleton.mp fresh]
        nofun
    case senders =>
      have := standing.senders
      simp only [started, Intake.start, same, List.length_append, List.length_singleton]
      omega
  · simp only [started, Intake.start, same]
  · exact fun cancelled => isCancelled_of_step cancelled admitted

theorem Sound.of_move {ticket due : Nat} {jitter : Float} {prompt : Prompt} (sound : Sound state)
    (stepped : step rules backoff state (.proceed (.move ticket jitter prompt due)) = some next) :
    Sound next := by
  rcases move_of_step stepped with ⟨whole, admitting, call, admitted, present, rfl⟩
  have standing := sound.standing whole
  rcases standing.occupied.slots_of_move admitted present with
    ⟨⟨slot, held⟩, stopped, slots, resting⟩
  have staying := sound.staying_of_held held
  unfold settle
  simp only
  split
  · exact ⟨nofun, fun _ => rfl, fun _ => .inr rfl, fun left =>
      absurd (staying.symm.trans left) nofun⟩
  · next unfailed =>
      apply sound.advance whole staying _ stopped
      · exact fun already => isCancelled_of_step already admitted
      · refine ⟨standing.occupied.of_step admitted, ?intact, ?senders⟩
        case intact =>
          rcases Admitting.move_of_step admitted with ⟨_, dispatched, -, -⟩
          exact standing.intact.of_move dispatched present unfailed
        case senders =>
          have := standing.senders
          have := List.length_pos_of_mem held
          have exclusive (going : call.inProgress = true) :=
            call.deservesRest_of_inProgress going (admitting.dispatching.isCancelled 0)
          -- In progress, over with a rest to follow, or over without: one sender less in the last.
          generalize call.deservesRest (admitting.dispatching.isCancelled 0) = rests at *
          generalize call.inProgress = going at *
          cases going <;> cases rests <;> simp at exclusive slots resting ⊢ <;> omega

theorem Sound.of_wake {now : Nat} (sound : Sound state)
    (stepped : step rules backoff state (.proceed (.wake now)) = some next) : Sound next := by
  rcases proceed_of_step stepped with ⟨-, admitting, admitted, rfl⟩
  cases admitted
  refine ⟨fun whole => ?_, sound.fallen, sound.stopped, sound.returned⟩
  have standing := sound.standing whole
  refine ⟨standing.occupied.kept rfl rfl, standing.intact, ?_⟩
  have := standing.senders
  rcases state.admitting.intake.exists_woken now with ⟨woken, same, -, number⟩
  have := same.length_eq
  have slots : (state.admitting.intake.wake now).slots = state.admitting.intake.slots := rfl
  rw [List.length_append] at this
  simp only [follow, slots, ← number]
  omega

theorem Sound.of_lapse {rest : Rest} (sound : Sound state)
    (stepped : step rules backoff state (.lapse rest) = some next) : Sound next := by
  rcases lapse_of_step stepped with ⟨member, rfl⟩ | ⟨-, member, rfl⟩
  all_goals
    refine ⟨fun whole => ?_, sound.fallen, sound.stopped, sound.returned⟩
    have standing := sound.standing whole
    refine ⟨standing.occupied.kept rfl rfl, standing.intact, ?_⟩
    have := standing.senders
    have := List.length_erase_of_mem member
    have := List.length_pos_of_mem member
    simp only
    omega

theorem Sound.of_close (sound : Sound state)
    (stepped : step rules backoff state .close = some next) : Sound next := by
  rcases close_of_step stepped with ⟨whole, accepting, reason, rfl⟩
  have standing := sound.standing whole
  have staying := sound.staying_of_accepting accepting
  refine ⟨fun _ => ⟨standing.occupied.kept rfl rfl, standing.intact, ?senders⟩, ?_, ?_, ?_⟩
  case senders =>
    have := standing.senders
    simp only [shut, Intake.stop, List.length_nil, List.length_append]
    omega
  · intro down
    exact absurd (whole.symm.trans down) nofun
  · -- The intake holds a sender itself, so it is never left without events to come.
    rintro -
    rcases reason with cancelled | dry
    · exact .inl cancelled
    · have := standing.senders
      simp only [isDry, Bool.and_eq_true, decide_eq_true_eq] at dry
      rw [dry.1.1.2, staying, Bool.not_false, Bool.toNat_true] at this
      omega
  · intro left
    exact absurd (staying.symm.trans left) nofun

theorem Sound.of_leave (sound : Sound state)
    (stepped : step rules backoff state .leave = some next) : Sound next := by
  rcases leave_of_step stepped with ⟨whole, staying, closed, idle, rfl⟩
  have standing := sound.standing whole
  refine ⟨fun _ => ⟨standing.occupied, standing.intact, ?senders⟩, sound.fallen, sound.stopped,
    fun _ => ⟨whole, closed, idle⟩⟩
  have := standing.senders
  rw [staying] at this
  simp only [Bool.not_true, Bool.not_false, Bool.toNat_false, Bool.toNat_true] at this ⊢
  omega

theorem Sound.of_step {act : ServeAct α} (sound : Sound state)
    (stepped : step rules backoff state act = some next) : Sound next := by
  cases act with
  | proceed act =>
      cases act with
      | take => exact sound.of_take stepped
      | move ticket jitter prompt due => exact sound.of_move stepped
      | wake now => exact sound.of_wake stepped
      | event | change =>
          rcases proceed_of_step stepped with ⟨-, admitting, admitted, rfl⟩
          cases admitted
          exact sound.kept rfl rfl rfl rfl id
      | cancel =>
          rcases proceed_of_step stepped with ⟨-, admitting, admitted, rfl⟩
          have cancelled (already : state.isCancelled = true) :=
            isCancelled_of_step already admitted
          cases admitted
          exact sound.kept rfl rfl rfl rfl cancelled
      | stop => cases (proceed_of_step stepped).1
  | exhaust =>
      cases stepped
      exact ⟨fun whole => ⟨(sound.standing whole).occupied, (sound.standing whole).intact,
        (sound.standing whole).senders⟩, sound.fallen, sound.stopped, sound.returned⟩
  | lapse rest => exact sound.of_lapse stepped
  | close => exact sound.of_close stepped
  | leave => exact sound.of_leave stepped

theorem sound_of_run {limit : Nat} {cache : Cache ρ} {resources : Identity → Option α}
    {acts : List (ServeAct α)}
    (ran : run rules backoff acts (start limit cache resources) = some state) : Sound state :=
  Execution.run_invariant Sound (sound_start limit cache resources)
    (fun _ _ _ sound stepped => sound.of_step stepped) ran

theorem dispatching_of_run {limit : Nat} {cache : Cache ρ} {resources : Identity → Option α}
    {acts : List (ServeAct α)}
    (ran : run rules backoff acts (start limit cache resources) = some state) :
    ∃ acts, Dispatching.run rules backoff acts (.start cache resources) =
      some state.admitting.dispatching := by
  refine Execution.exists_run_of_steps (fun state : Serving α ρ => state.admitting.dispatching) ?_
    ran
  intro before act after stepped
  rcases dispatching_of_step stepped with same | ⟨act, moved⟩
  · exact ⟨[], congrArg some same.symm⟩
  · exact ⟨[act], (Execution.run_singleton act).trans moved⟩

end Serving

end PolicyWarden
