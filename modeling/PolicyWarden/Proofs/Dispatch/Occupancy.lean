import PolicyWarden.Proofs.Dispatch.Admission

/-!
Slots and those who hold them. A dispatch holds a slot from the event that called it until the move
in which it is over, so as many slots are taken as dispatches are in progress; a dispatch that is
merged and an identity that rests have none.
-/

namespace PolicyWarden

variable {α ρ : Type}

namespace Intake

variable {intake : Intake}

theorem exists_next (accepts : intake.accepts = true)
    (waits : intake.arrived ≠ [] ∨ intake.rested ≠ []) :
    ∃ identity after, intake.next? = some (identity, after) := by
  unfold next?
  rw [if_neg (by simp [accepts])]
  cases arrived : intake.arrived with
  | cons first rest =>
      cases intake.restedFirst <;> cases intake.rested <;> exact ⟨_, _, rfl⟩
  | nil =>
      cases rested : intake.rested with
      | cons first rest => cases intake.restedFirst <;> exact ⟨_, _, rfl⟩
      | nil => exact absurd waits (by simp [arrived, rested])

theorem exists_woken (intake : Intake) (now : Nat) :
    ∃ woken, (woken ++ (intake.wake now).resting).Perm intake.resting ∧
      (intake.wake now).rested = intake.rested ++ woken.map Rest.identity ∧
      woken.length = intake.resting.countP fun rest => rest.due ≤ now := by
  refine ⟨intake.resting.filter fun rest => rest.due ≤ now, ?_, ?_, ?_⟩
  · simpa [wake, List.partition_eq_filter_filter, Function.comp_def] using
      List.filter_append_perm (fun rest => decide (rest.due ≤ now)) intake.resting
  · simp [wake, List.partition_eq_filter_filter]
  · exact (List.countP_eq_length_filter ..).symm

end Intake

namespace DispatchCall

def inProgress (call : DispatchCall α ρ) : Bool := !call.phase.isOver

def deservesRest (call : DispatchCall α ρ) (cancelled : Bool) : Bool :=
  call.phase.result?.any Intake.deservesRest && !cancelled

theorem deservesRest_of_inProgress {call : DispatchCall α ρ} (going : call.inProgress = true)
    (cancelled : Bool) : call.deservesRest cancelled = false := by
  unfold deservesRest inProgress at *
  cases phase : call.phase <;> simp_all [Phase.isOver, Phase.result?]

end DispatchCall

namespace Dispatching

variable {rules : Rules α ρ} {backoff : Backoff} {state next : Dispatching α ρ}

theorem Intact.of_move {ticket : Nat} {jitter : Float} {prompt : Prompt} {call : DispatchCall α ρ}
    (intact : state.Intact)
    (stepped : step rules backoff state (.move ticket jitter prompt) = some next)
    (present : next.calls[ticket]? = some call)
    (unfailed : ∀ message, call.phase ≠ .unwound message) : next.Intact := by
  rcases turns_of_step stepped with ⟨mover, dispatcher, phase, found, -, rfl⟩
  intro other member
  rcases List.mem_or_eq_of_mem_set member with old | rfl
  · exact intact other old
  · cases (getElem?_replace_self found).symm.trans present
    exact unfailed

end Dispatching

namespace Admitting

variable {rules : Rules α ρ} {backoff : Backoff} {state next : Admitting α ρ} {act : AdmitAct α}

structure Occupied (state : Admitting α ρ) : Prop where
  held : ∀ (ticket : Nat) (call : DispatchCall α ρ), state.dispatching.calls[ticket]? = some call →
    call.inProgress = true → ⟨ticket, call.identity⟩ ∈ state.intake.slots
  counted : ∀ among : Identity → Bool,
    state.intake.slots.countP (fun slot => among slot.identity) =
      state.dispatching.calls.countP fun call => call.inProgress && among call.identity

theorem occupied_start (limit : Nat) (cache : Cache ρ) (resources : Identity → Option α) :
    Occupied (start limit cache resources) where
  held := by simp [start, Dispatching.start]
  counted := fun _ => rfl

theorem Occupied.length (occupied : Occupied state) :
    state.intake.slots.length = state.dispatching.calls.countP DispatchCall.inProgress := by
  simpa using occupied.counted fun _ => true

theorem Occupied.kept (occupied : Occupied state)
    (calls : next.dispatching.calls = state.dispatching.calls)
    (slots : next.intake.slots = state.intake.slots) : Occupied next where
  held := by rw [calls, slots]; exact occupied.held
  counted := by rw [calls, slots]; exact occupied.counted

theorem Occupied.of_take (occupied : Occupied state)
    (stepped : step rules backoff state .take = some next) : Occupied next := by
  rcases take_of_step stepped with ⟨identity, intake, taken, called, started⟩
  have same : intake.slots = state.intake.slots := by
    cases (Intake.draws_of_next taken).2 <;> rfl
  have calls : next.dispatching.calls = state.dispatching.calls ++
      [{ identity, token := 0, made := state.dispatching.clock }] :=
    Option.some.inj called ▸ rfl
  have slots : next.intake.slots =
      state.intake.slots ++ [⟨state.dispatching.calls.length, identity⟩] := by
    rw [started, Intake.start, same]
  refine ⟨?held, ?counted⟩
  case held =>
    intro ticket call present going
    rw [calls, List.getElem?_append] at present
    rw [slots]
    split at present
    · exact List.mem_append_left _ (occupied.held ticket call present going)
    · next beyond =>
        have last : ticket = state.dispatching.calls.length := by
          have inside := (List.getElem?_eq_some_iff.mp present).1
          rw [List.length_singleton] at inside
          omega
        subst last
        rw [Nat.sub_self] at present
        cases present
        exact List.mem_append_right _ (List.mem_singleton_self _)
  case counted =>
    intro among
    rw [calls, slots, List.countP_append, List.countP_append, occupied.counted among]
    rfl

theorem Occupied.of_move {ticket due : Nat} {jitter : Float} {prompt : Prompt}
    (occupied : Occupied state)
    (stepped : step rules backoff state (.move ticket jitter prompt due) = some next) :
    Occupied next := by
  rcases move_of_step stepped with ⟨call, dispatched, present, intake⟩
  rcases Dispatching.turns_of_step dispatched with ⟨mover, dispatcher, phase, found, turns, moved⟩
  rw [moved, Dispatching.getElem?_replace_self found] at present
  have identity : call.identity = mover.identity :=
    Option.some.inj present ▸ mover.follow_identity _ _
  have going : mover.inProgress = true := by simp [DispatchCall.inProgress, turns.going]
  have counts (among : Identity → Bool) :=
    Dispatching.countP_replace found call dispatcher fun call =>
      call.inProgress && among call.identity
  rw [Option.some.inj present] at moved
  rw [← moved] at counts
  have others (place : Nat) (other : DispatchCall α ρ) (different : place ≠ ticket)
      (known : next.dispatching.calls[place]? = some other) (busy : other.inProgress = true) :
      ⟨place, other.identity⟩ ∈ state.intake.slots := by
    rw [moved, Dispatching.getElem?_replace_of_ne different] at known
    exact occupied.held place other known busy
  have own := occupied.held ticket mover found going
  have latest : next.dispatching.calls[ticket]? = some call := by
    rw [moved]
    exact Dispatching.getElem?_replace_self found
  cases completed : call.phase.isOver with
  | true =>
      have left : call.inProgress = false := by simp [DispatchCall.inProgress, completed]
      have slots : next.intake.slots = state.intake.slots.erase ⟨ticket, mover.identity⟩ := by
        rw [intake, release, if_pos completed, Intake.finish_eq, identity]
      refine ⟨?held, ?counted⟩
      case held =>
        intro place other known busy
        rw [slots]
        by_cases mine : place = ticket
        · subst mine
          cases latest.symm.trans known
          rw [left] at busy
          cases busy
        · exact (List.mem_erase_of_ne fun same => mine (congrArg Slot.ticket same)).mpr
            (others place other mine known busy)
      case counted =>
        intro among
        have freed := (List.perm_cons_erase own).countP_eq fun slot => among slot.identity
        have := occupied.counted among
        have := counts among
        simp only [left, going, Bool.false_and, Bool.true_and, Bool.toNat_false] at this
        rw [slots]
        rw [List.countP_cons] at freed
        cases relevant : among mover.identity <;> simp_all
  | false =>
      have stays : call.inProgress = true := by simp [DispatchCall.inProgress, completed]
      have slots : next.intake.slots = state.intake.slots := by
        rw [intake, release, if_neg (by simp [completed])]
      refine ⟨?held, ?counted⟩
      case held =>
        intro place other known busy
        rw [slots]
        by_cases mine : place = ticket
        · subst mine
          cases latest.symm.trans known
          rw [identity]
          exact own
        · exact others place other mine known busy
      case counted =>
        intro among
        have := counts among
        rw [slots, occupied.counted among]
        simp only [stays, going, identity] at this
        omega

theorem Occupied.slots_of_move {ticket due : Nat} {jitter : Float} {prompt : Prompt}
    {call : DispatchCall α ρ} (occupied : Occupied state)
    (stepped : step rules backoff state (.move ticket jitter prompt due) = some next)
    (present : next.dispatching.calls[ticket]? = some call) :
    (∃ slot, slot ∈ state.intake.slots) ∧ next.intake.stopped = state.intake.stopped ∧
      next.intake.slots.length + (!call.inProgress).toNat = state.intake.slots.length ∧
      next.intake.resting.length = state.intake.resting.length +
        (call.deservesRest (next.dispatching.isCancelled 0)).toNat := by
  rcases move_of_step stepped with ⟨_, dispatched, again, intake⟩
  cases present.symm.trans again
  rcases Dispatching.turns_of_step dispatched with ⟨mover, dispatcher, phase, found, turns, moved⟩
  rw [moved, Dispatching.getElem?_replace_self found] at present
  have identity : call.identity = mover.identity :=
    Option.some.inj present ▸ mover.follow_identity _ _
  have own := occupied.held ticket mover found (by simp [DispatchCall.inProgress, turns.going])
  refine ⟨⟨_, own⟩, ?_⟩
  rw [intake, release]
  cases completed : call.phase.isOver with
  | true =>
      have left : call.inProgress = false := by simp [DispatchCall.inProgress, completed]
      have freed := (List.perm_cons_erase own).length_eq
      rw [if_pos rfl, Intake.finish_eq, identity, left]
      refine ⟨rfl, freed.symm, ?_⟩
      unfold DispatchCall.deservesRest
      simp only
      split
      · next rests => rw [rests, List.length_append]; rfl
      · next ends => rw [Bool.eq_false_iff.mpr ends]; rfl
  | false =>
      have going : call.inProgress = true := by simp [DispatchCall.inProgress, completed]
      rw [call.deservesRest_of_inProgress going, going]
      exact ⟨rfl, rfl, rfl⟩

theorem Occupied.of_step (occupied : Occupied state)
    (stepped : step rules backoff state act = some next) : Occupied next := by
  cases act with
  | event identity => cases stepped; exact occupied.kept rfl rfl
  | take => exact occupied.of_take stepped
  | change identity resource => cases stepped; exact occupied.kept rfl rfl
  | move ticket jitter prompt due => exact occupied.of_move stepped
  | wake now => cases stepped; exact occupied.kept rfl rfl
  | cancel => cases stepped; exact occupied.kept rfl rfl
  | stop =>
      simp only [step] at stepped
      split at stepped
      · cases stepped; exact occupied.kept rfl rfl
      · cases stepped

end Admitting

end PolicyWarden
