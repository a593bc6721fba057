import PolicyWarden.Cache.Effect
import PolicyWarden.Proofs.Execution

/-!
Any number of readers over one cache that others change under their hands. Readers begin at any time
and take their atomic steps in any order; the store is changed and the snapshot made stale by
effects that come in between. The run so far is the history: an instant of a run is one of its
beginnings, and the reader that begins after `before` has as its number the count of readers begun
before.
-/

namespace PolicyWarden

variable {ρ : Type}

structure Reading (ρ : Type) where
  cache : Cache ρ
  readers : List (Reader ρ) := []

inductive ReadAct (ρ : Type) where
  /-- Somebody changes the store, makes the snapshot stale or counts something. -/
  | effect (change : Effect ρ)
  | begin
  | step (number : Nat)

namespace ReadAct

def invalidates : ReadAct ρ → Bool
  | .effect .invalidate => true
  | _ => false

def begins : ReadAct ρ → Bool
  | .begin => true
  | _ => false

end ReadAct

def invalidations (acts : List (ReadAct ρ)) : Nat :=
  acts.countP ReadAct.invalidates

def beginnings (acts : List (ReadAct ρ)) : Nat :=
  acts.countP ReadAct.begins

namespace Reading

def step (state : Reading ρ) : ReadAct ρ → Option (Reading ρ)
  | .effect change => some { state with cache := state.cache.perform change }
  | .begin => some { state with readers := state.readers ++ [.starting] }
  | .step number => do
      let reader ← state.readers[number]?
      let (cache, moved) ← reader.step state.cache
      some { cache, readers := state.readers.set number moved }

def start (store : Store ρ) : Reading ρ :=
  { cache := { store } }

abbrev run (acts : List (ReadAct ρ)) (state : Reading ρ) : Option (Reading ρ) :=
  Execution.run step acts state

end Reading

theorem invalidations_concat (acts : List (ReadAct ρ)) (act : ReadAct ρ) :
    invalidations (acts ++ [act]) = invalidations acts + if act.invalidates then 1 else 0 := by
  simp [invalidations, List.countP_append, List.countP_cons]

theorem invalidations_mono {earlier later : List (ReadAct ρ)} (first : earlier <+: later) :
    invalidations earlier ≤ invalidations later :=
  first.sublist.countP_le

theorem beginnings_concat (acts : List (ReadAct ρ)) (act : ReadAct ρ) :
    beginnings (acts ++ [act]) = beginnings acts + if act.begins then 1 else 0 := by
  simp [beginnings, List.countP_append, List.countP_cons]

theorem beginnings_lt (before after : List (ReadAct ρ)) :
    beginnings before < beginnings (before ++ .begin :: after) := by
  simp only [beginnings, List.countP_append, List.countP_cons, ReadAct.begins, if_true]
  omega

theorem exists_beginning {acts : List (ReadAct ρ)} {number : Nat}
    (begun : number < beginnings acts) :
    ∃ before after, acts = before ++ .begin :: after ∧ beginnings before = number := by
  induction acts using List.reverseRecOn with
  | nil => cases begun
  | append_singleton acts act induction =>
      rw [beginnings_concat] at begun
      by_cases earlier : number < beginnings acts
      · rcases induction earlier with ⟨before, after, rfl, placed⟩
        exact ⟨before, after ++ [act], by simp, placed⟩
      · cases act with
        | begin =>
            simp only [ReadAct.begins, if_true] at begun
            exact ⟨acts, [], rfl, by omega⟩
        | effect change => simp [ReadAct.begins] at begun; omega
        | step moving => simp [ReadAct.begins] at begun; omega

namespace Reading

variable {acts : List (ReadAct ρ)} {state next : Reading ρ}

theorem generation_perform (cache : Cache ρ) (effect : Effect ρ) :
    (cache.perform effect).generation =
      cache.generation + if (ReadAct.effect effect).invalidates then 1 else 0 := by
  cases effect <;> simp [Cache.perform, ReadAct.invalidates, Cache.invalidate, Cache.record]

theorem generation_step {cache after : Cache ρ} {reader moved : Reader ρ}
    (stepped : reader.step cache = some (after, moved)) : after.generation = cache.generation := by
  cases reader <;> simp only [Reader.step] at stepped <;>
    grind [Cache.record, Cache.publish]

theorem generation_eq {store : Store ρ} (ran : run acts (start store) = some state) :
    state.cache.generation = UInt64.ofNat (invalidations acts) := by
  refine Execution.run_history
    (fun acts state => state.cache.generation = UInt64.ofNat (invalidations acts)) rfl ?_ ran
  intro acts act state next _ counted stepped
  rw [invalidations_concat]
  cases act with
  | effect change =>
      cases stepped
      rw [generation_perform, counted]
      split <;> simp
  | begin => cases stepped; simpa [ReadAct.invalidates] using counted
  | step number =>
      simp only [step, Option.bind_eq_bind, Option.bind_eq_some_iff] at stepped
      rcases stepped with ⟨reader, -, ⟨cache, moved⟩, moves, equal⟩
      cases equal
      simpa [ReadAct.invalidates, generation_step moves] using counted

theorem generation_le_of_prefix {store : Store ρ} {earlier later : List (ReadAct ρ)}
    {final : Reading ρ} (first : earlier <+: later)
    (reached : run earlier (start store) = some state)
    (ran : run later (start store) = some final) (few : invalidations later < 2 ^ 64) :
    state.cache.generation ≤ final.cache.generation := by
  have more := invalidations_mono first
  rw [generation_eq reached, generation_eq ran, UInt64.le_iff_toNat_le,
    UInt64.toNat_ofNat_of_lt' (Nat.lt_of_le_of_lt more few), UInt64.toNat_ofNat_of_lt' few]
  exact more

theorem length_readers {store : Store ρ} (ran : run acts (start store) = some state) :
    state.readers.length = beginnings acts := by
  refine Execution.run_history
    (fun acts state => state.readers.length = beginnings acts) rfl ?_ ran
  intro acts act state next _ counted stepped
  rw [beginnings_concat]
  cases act with
  | effect change => cases stepped; simpa [ReadAct.begins] using counted
  | begin => cases stepped; simpa [ReadAct.begins] using counted
  | step number =>
      simp only [step, Option.bind_eq_bind, Option.bind_eq_some_iff] at stepped
      rcases stepped with ⟨reader, -, ⟨cache, moved⟩, -, equal⟩
      cases equal
      simpa [ReadAct.begins] using counted

end Reading

end PolicyWarden
