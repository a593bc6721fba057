import PolicyWarden.Proofs.Snapshot.Freshness

/-!
What one step of a read can be, and who holds the lock. `Passes` lists the steps, each with what has
to be the case for it; `passes_of_step` says that `Reader.step` takes no others. At most one reader
holds the lock, and the cache is marked as being sorted exactly as long as one does.
-/

namespace PolicyWarden

variable {ρ : Type}

namespace Reader

def holds : Reader ρ → Bool
  | .locked | .recomparing _ | .stale | .tagging _ | .sorted _ _ | .issued _ | .releasing _ => true
  | .hitting _ holding => holding
  | .starting | .comparing _ | .missed | .finished _ => false

inductive Passes (cache : Cache ρ) : Reader ρ → Cache ρ → Reader ρ → Prop
  | load : Passes cache .starting cache (.comparing cache.generation)
  | hit (snapshot : Snapshot ρ) (published : cache.published = some snapshot) :
      Passes cache (.comparing snapshot.generation) cache (.hitting snapshot false)
  | miss (generation : UInt64)
      (outdated : ∀ snapshot, cache.published = some snapshot → snapshot.generation ≠ generation) :
      Passes cache (.comparing generation) cache .missed
  | lock (free : cache.sorting = false) :
      Passes cache .missed { cache with sorting := true } .locked
  | reload : Passes cache .locked cache (.recomparing cache.generation)
  | rehit (snapshot : Snapshot ρ) (published : cache.published = some snapshot) :
      Passes cache (.recomparing snapshot.generation) cache (.hitting snapshot true)
  | remiss (generation : UInt64)
      (outdated : ∀ snapshot, cache.published = some snapshot → snapshot.generation ≠ generation) :
      Passes cache (.recomparing generation) cache .stale
  | tag : Passes cache .stale cache (.tagging cache.generation)
  | sort (generation : UInt64) :
      Passes cache (.tagging generation) cache (.sorted generation cache.store.sortedPolicies)
  | publish (generation : UInt64) (policies : List ρ) :
      Passes cache (.sorted generation policies) (cache.publish generation policies).2
        (.issued (cache.publish generation policies).1)
  | recompute (snapshot : Snapshot ρ) :
      Passes cache (.issued snapshot) (cache.record .recompute) (.releasing snapshot)
  | release (snapshot : Snapshot ρ) :
      Passes cache (.releasing snapshot) { cache with sorting := false } (.finished snapshot)
  | record (snapshot : Snapshot ρ) :
      Passes cache (.hitting snapshot false) (cache.record .hit) (.finished snapshot)
  | recordHolding (snapshot : Snapshot ρ) :
      Passes cache (.hitting snapshot true) (cache.record .hit) (.releasing snapshot)

variable {cache after : Cache ρ} {reader moved : Reader ρ}

theorem ne_of_publishedAt_eq_none {generation : UInt64}
    (missing : cache.publishedAt? generation = none) :
    ∀ snapshot, cache.published = some snapshot → snapshot.generation ≠ generation := by
  intro snapshot published same
  have kept : cache.publishedAt? generation = some snapshot :=
    Option.filter_eq_some_iff.mpr ⟨published, by simp [same]⟩
  rw [missing] at kept
  cases kept

theorem passes_of_step (stepped : reader.step cache = some (after, moved)) :
    Passes cache reader after moved := by
  cases reader with
  | starting => cases stepped; exact .load
  | comparing generation =>
      simp only [step] at stepped
      split at stepped
      · next snapshot found =>
          rcases Reading.published_of_publishedAt found with ⟨published, rfl⟩
          cases stepped
          exact .hit snapshot published
      · next missing =>
          cases stepped
          exact .miss generation (ne_of_publishedAt_eq_none missing)
  | missed =>
      simp only [step] at stepped
      split at stepped
      · cases stepped
      · next free => cases stepped; exact .lock (Bool.not_eq_true _ ▸ free)
  | locked => cases stepped; exact .reload
  | recomparing generation =>
      simp only [step] at stepped
      split at stepped
      · next snapshot found =>
          rcases Reading.published_of_publishedAt found with ⟨published, rfl⟩
          cases stepped
          exact .rehit snapshot published
      · next missing =>
          cases stepped
          exact .remiss generation (ne_of_publishedAt_eq_none missing)
  | stale => cases stepped; exact .tag
  | tagging generation => cases stepped; exact .sort generation
  | sorted generation policies => cases stepped; exact .publish generation policies
  | issued snapshot => cases stepped; exact .recompute snapshot
  | releasing snapshot => cases stepped; exact .release snapshot
  | hitting snapshot holding =>
      cases stepped
      cases holding with
      | true => exact .recordHolding snapshot
      | false => exact .record snapshot
  | finished snapshot => cases stepped

theorem isSome_step (reader : Reader ρ) (cache : Cache ρ) :
    (reader.step cache).isSome = true ∨ (∃ snapshot, reader = .finished snapshot) ∨
      (reader = .missed ∧ cache.sorting = true) := by
  cases reader with
  | comparing generation => left; simp only [step]; split <;> rfl
  | recomparing generation => left; simp only [step]; split <;> rfl
  | missed =>
      cases busy : cache.sorting with
      | true => exact .inr (.inr ⟨rfl, rfl⟩)
      | false => left; simp [step, busy]
  | finished snapshot => exact .inr (.inl ⟨snapshot, rfl⟩)
  | _ => exact .inl rfl

theorem Passes.lock_cases (passes : Passes cache reader after moved) :
    (moved.holds = reader.holds ∧ after.sorting = cache.sorting) ∨
      (reader.holds = false ∧ cache.sorting = false ∧ moved.holds = true ∧ after.sorting = true) ∨
      (reader.holds = true ∧ moved.holds = false ∧ after.sorting = false) := by
  cases passes with
  | lock free => exact .inr (.inl ⟨rfl, free, rfl, rfl⟩)
  | release => exact .inr (.inr ⟨rfl, rfl, rfl⟩)
  | _ => exact .inl ⟨rfl, rfl⟩

end Reader

namespace Reading

variable {store : Store ρ} {acts : List (ReadAct ρ)} {state next : Reading ρ} {act : ReadAct ρ}

theorem moves_of_step {number : Nat} (stepped : step state (.step number) = some next) :
    ∃ reader cache moved, state.readers[number]? = some reader ∧
      reader.step state.cache = some (cache, moved) ∧
      next = { cache, readers := state.readers.set number moved } := by
  simp only [step, Option.bind_eq_bind, Option.bind_eq_some_iff] at stepped
  rcases stepped with ⟨reader, present, ⟨cache, moved⟩, moves, equal⟩
  cases equal
  exact ⟨reader, cache, moved, present, moves, rfl⟩

theorem passes_of_step {number : Nat} (stepped : step state (.step number) = some next) :
    ∃ reader cache moved, state.readers[number]? = some reader ∧
      Reader.Passes state.cache reader cache moved ∧
      next = { cache, readers := state.readers.set number moved } := by
  rcases moves_of_step stepped with ⟨reader, cache, moved, present, moves, equal⟩
  exact ⟨reader, cache, moved, present, Reader.passes_of_step moves, equal⟩

theorem getElem?_moved {readers : List (Reader ρ)} {number place : Nat} {moved other : Reader ρ}
    (present : (readers.set number moved)[place]? = some other) :
    (place = number ∧ other = moved) ∨ (place ≠ number ∧ readers[place]? = some other) := by
  rw [List.getElem?_set] at present
  split at present
  · next same =>
      split at present
      · cases present; exact .inl ⟨same.symm, rfl⟩
      · cases present
  · next different => exact .inr ⟨fun same => different same.symm, present⟩

theorem getElem?_begun {readers : List (Reader ρ)} {place : Nat} {reader : Reader ρ}
    (present : (readers ++ [.starting])[place]? = some reader) :
    readers[place]? = some reader ∨ (place = readers.length ∧ reader = .starting) := by
  rw [List.getElem?_append] at present
  split at present
  · exact .inl present
  · next outside =>
      have inside := (List.getElem?_eq_some_iff.mp present).1
      have last : place = readers.length := by
        simp only [List.length_singleton] at inside
        omega
      subst last
      exact .inr ⟨rfl, by simpa using present.symm⟩

/-- The lock is held by one reader at most, and marked as long as it is held. -/
structure Exclusive (state : Reading ρ) : Prop where
  marked : ∀ (place : Nat) (reader : Reader ρ), state.readers[place]? = some reader →
    reader.holds = true → state.cache.sorting = true
  alone : ∀ (first second : Nat) (left right : Reader ρ), state.readers[first]? = some left →
    state.readers[second]? = some right → left.holds = true → right.holds = true → first = second
  owned : state.cache.sorting = true → ∃ (place : Nat) (reader : Reader ρ),
    state.readers[place]? = some reader ∧ reader.holds = true

theorem exclusive_start (store : Store ρ) : Exclusive (start store) where
  marked := by simp [start]
  alone := by simp [start]
  owned := nofun

theorem sorting_perform (cache : Cache ρ) (effect : Effect ρ) :
    (cache.perform effect).sorting = cache.sorting := by
  cases effect <;> rfl

theorem Exclusive.of_passes (exclusive : Exclusive state) {number : Nat} {reader moved : Reader ρ}
    {cache : Cache ρ} (present : state.readers[number]? = some reader)
    (passes : Reader.Passes state.cache reader cache moved) :
    Exclusive { cache, readers := state.readers.set number moved } := by
  have inside := (List.getElem?_eq_some_iff.mp present).1
  have placed : (state.readers.set number moved)[number]? = some moved := by simp [inside]
  have elsewhere : ∀ (place : Nat) (other : Reader ρ), place ≠ number →
      state.readers[place]? = some other →
      (state.readers.set number moved)[place]? = some other := by
    intro place other different found
    rw [List.getElem?_set_ne different.symm]
    exact found
  rcases passes.lock_cases with
    ⟨same, kept⟩ | ⟨before, free, after, taken⟩ | ⟨before, after, given⟩
  · -- The mover holds the lock afterwards if it held it before.
    refine ⟨?marked, ?alone, ?owned⟩
    case marked =>
      intro place other found holds
      rcases getElem?_moved found with ⟨rfl, rfl⟩ | ⟨-, old⟩
      · exact kept.trans (exclusive.marked place reader present (same ▸ holds))
      · exact kept.trans (exclusive.marked place other old holds)
    case alone =>
      intro first second left right leftFound rightFound leftHolds rightHolds
      rcases getElem?_moved leftFound with ⟨rfl, rfl⟩ | ⟨-, leftOld⟩ <;>
        rcases getElem?_moved rightFound with ⟨rfl, rfl⟩ | ⟨-, rightOld⟩
      · rfl
      · exact exclusive.alone _ _ reader right present rightOld (same ▸ leftHolds) rightHolds
      · exact exclusive.alone _ _ left reader leftOld present leftHolds (same ▸ rightHolds)
      · exact exclusive.alone _ _ left right leftOld rightOld leftHolds rightHolds
    case owned =>
      intro busy
      rcases exclusive.owned (kept.symm.trans busy) with ⟨place, other, found, holds⟩
      by_cases mover : place = number
      · subst mover
        cases found.symm.trans present
        exact ⟨place, moved, placed, same.trans holds⟩
      · exact ⟨place, other, elsewhere place other mover found, holds⟩
  · -- Nobody held the lock that the mover has taken.
    have nobody : ∀ (place : Nat) (other : Reader ρ), state.readers[place]? = some other →
        other.holds = false := by
      intro place other found
      cases holds : other.holds with
      | false => rfl
      | true =>
          rw [exclusive.marked place other found holds] at free
          cases free
    refine ⟨fun _ _ _ _ => taken, ?_, fun _ => ⟨number, moved, placed, after⟩⟩
    intro first second left right leftFound rightFound leftHolds rightHolds
    rcases getElem?_moved leftFound with ⟨rfl, -⟩ | ⟨-, leftOld⟩
    · rcases getElem?_moved rightFound with ⟨rfl, -⟩ | ⟨-, rightOld⟩
      · rfl
      · rw [nobody second right rightOld] at rightHolds
        cases rightHolds
    · rw [nobody first left leftOld] at leftHolds
      cases leftHolds
  · -- The mover alone held the lock that it has given back.
    have nobody : ∀ (place : Nat) (other : Reader ρ),
        (state.readers.set number moved)[place]? = some other → other.holds = false := by
      intro place other found
      rcases getElem?_moved found with ⟨-, rfl⟩ | ⟨different, old⟩
      · exact after
      · cases holds : other.holds with
        | false => rfl
        | true => exact absurd (exclusive.alone _ _ other reader old present holds before) different
    refine ⟨?marked, ?alone, ?owned⟩
    case marked =>
      intro place other found holds
      rw [nobody place other found] at holds
      cases holds
    case alone =>
      intro first second left right leftFound _ leftHolds
      rw [nobody first left leftFound] at leftHolds
      cases leftHolds
    case owned =>
      intro busy
      rw [given] at busy
      cases busy

theorem Exclusive.of_step (exclusive : Exclusive state) (stepped : step state act = some next) :
    Exclusive next := by
  cases act with
  | effect change =>
      cases stepped
      have sorting := sorting_perform state.cache change
      refine ⟨?marked, exclusive.alone, ?owned⟩
      case marked =>
        intro place reader found holds
        exact sorting.trans (exclusive.marked place reader found holds)
      case owned => exact fun busy => exclusive.owned (sorting.symm.trans busy)
  | begin =>
      cases stepped
      have old : ∀ (place : Nat) (reader : Reader ρ),
          (state.readers ++ [.starting])[place]? = some reader → reader.holds = true →
          state.readers[place]? = some reader := by
        intro place reader found holds
        rcases getElem?_begun found with known | ⟨-, rfl⟩
        · exact known
        · cases holds
      refine ⟨?marked, ?alone, ?owned⟩
      case marked =>
        intro place reader found holds
        exact exclusive.marked place reader (old place reader found holds) holds
      case alone =>
        intro first second left right leftFound rightFound leftHolds rightHolds
        exact exclusive.alone first second left right (old first left leftFound leftHolds)
          (old second right rightFound rightHolds) leftHolds rightHolds
      case owned =>
        intro busy
        rcases exclusive.owned busy with ⟨place, reader, found, holds⟩
        have inside := (List.getElem?_eq_some_iff.mp found).1
        exact ⟨place, reader, (List.getElem?_append_left inside).trans found, holds⟩
  | step number =>
      rcases passes_of_step stepped with ⟨reader, cache, moved, present, passes, rfl⟩
      exact exclusive.of_passes present passes

theorem exclusive_of_run (ran : run acts (start store) = some state) : Exclusive state :=
  Execution.run_invariant Exclusive (exclusive_start store)
    (fun _ _ _ exclusive stepped => exclusive.of_step stepped) ran

end Reading

end PolicyWarden
