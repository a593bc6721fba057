import PolicyWarden.Proofs.Snapshot.Publication

/-!
How reads are counted. A reader is counted once, in the step that ends its work: as a hit if it has
found its snapshot published, as a recomputation if it has published one. So the counters of a run
say how many reads are over, and how many snapshots were published for them.
-/

namespace PolicyWarden

variable {ρ : Type}

def Occurrence.OfRead (occurrence : Occurrence) : Prop :=
  occurrence = .hit ∨ occurrence = .recompute

instance (occurrence : Occurrence) : Decidable occurrence.OfRead :=
  inferInstanceAs (Decidable (_ ∨ _))

namespace ReadAct

/-- Somebody counts a read who is no reader. -/
def CountsRead : ReadAct ρ → Prop
  | .effect (.record occurrence) => occurrence.OfRead
  | _ => False

def ofReader : ReadAct ρ → Bool
  | .effect _ => false
  | _ => true

end ReadAct

namespace Reader

def counts? : Reader ρ → Option Occurrence
  | .issued _ => some .recompute
  | .hitting _ _ => some .hit
  | _ => none

def counted : Reader ρ → Nat
  | .releasing _ | .finished _ => 1
  | _ => 0

def owing : Reader ρ → Nat
  | .issued _ => 1
  | _ => 0

namespace Passes

variable {cache after : Cache ρ} {reader moved : Reader ρ}

theorem counters_eq (passes : Passes cache reader after moved) :
    (reader.counts? = none ∧ after.counters = cache.counters ∧ moved.counted = reader.counted) ∨
      ∃ occurrence, reader.counts? = some occurrence ∧ occurrence.OfRead ∧
        after.counters = cache.counters.record occurrence ∧ reader.counted = 0 ∧
        moved.counted = 1 := by
  cases passes with
  | recompute => exact .inr ⟨.recompute, rfl, .inr rfl, rfl, rfl, rfl⟩
  | record => exact .inr ⟨.hit, rfl, .inl rfl, rfl, rfl, rfl⟩
  | recordHolding => exact .inr ⟨.hit, rfl, .inl rfl, rfl, rfl, rfl⟩
  | _ => exact .inl ⟨rfl, rfl, rfl⟩

theorem owing_eq (passes : Passes cache reader after moved) :
    (reader.publishes? cache).toList.length + reader.owing =
      reader.counts?.toList.countP (· = .recompute) + moved.owing := by
  cases passes <;> rfl

end Passes

end Reader

namespace Reading

def counts (state : Reading ρ) : ReadAct ρ → List (Nat × Occurrence)
  | .step number => ((state.readers[number]?.bind Reader.counts?).map (number, ·)).toList
  | _ => []

def tally (acts : List (ReadAct ρ)) (state : Reading ρ) : List (Nat × Occurrence) :=
  Execution.observed step counts acts state

def tallied (entries : List (Nat × Occurrence)) (occurrence : Occurrence) : Nat :=
  entries.countP fun entry => entry.2 = occurrence

def total (weight : Reader ρ → Nat) (state : Reading ρ) : Nat :=
  (state.readers.map weight).sum

def Idle (state : Reading ρ) : Prop :=
  ∀ reader ∈ state.readers, ∃ snapshot, reader = .finished snapshot

instance (state : Reading ρ) : Decidable (Idle state) :=
  decidable_of_iff (∀ reader ∈ state.readers, reader.snapshot?.isSome = true) <| by
    refine forall₂_congr fun reader _ => ?_
    cases reader <;> simp [Reader.snapshot?]

variable {store : Store ρ} {acts : List (ReadAct ρ)} {state next before final : Reading ρ}
  {act : ReadAct ρ} {entries : List (Nat × Occurrence)}

theorem total_begun (weight : Reader ρ → Nat) (cache : Cache ρ) :
    total weight { cache, readers := state.readers ++ [.starting] } =
      total weight state + weight .starting := by
  simp [total]

theorem total_moved (weight : Reader ρ → Nat) (cache : Cache ρ) {number : Nat} {reader : Reader ρ}
    (moved : Reader ρ) (present : state.readers[number]? = some reader) :
    total weight { cache, readers := state.readers.set number moved } + weight reader =
      total weight state + weight moved :=
  Execution.sum_set weight moved present

theorem total_of_idle {weight : Reader ρ → Nat} (value : Nat) (idle : Idle state)
    (same : ∀ snapshot, weight (.finished snapshot) = value) :
    total weight state = state.readers.length * value := by
  have all : ∀ count ∈ state.readers.map weight, count = value := by
    intro count member
    rcases List.mem_map.mp member with ⟨reader, known, rfl⟩
    rcases idle reader known with ⟨snapshot, rfl⟩
    exact same snapshot
  rw [total, List.eq_replicate_of_mem all]
  simp

/-- What the readers have counted so far: each is counted once, in the step that ends its work, and
a recomputation for each snapshot published. -/
structure Tallied (entries : List (Nat × Occurrence)) (published : Nat) (state : Reading ρ) :
    Prop where
  uncounted : ∀ (number : Nat) (reader : Reader ρ), state.readers[number]? = some reader →
    reader.counted = 0 → entries.filter (·.1 = number) = []
  counted : ∀ (number : Nat) (reader : Reader ρ), state.readers[number]? = some reader →
    reader.counted = 1 → ∃ occurrence : Occurrence, occurrence.OfRead ∧
      entries.filter (·.1 = number) = [(number, occurrence)]
  begun : ∀ entry ∈ entries, entry.1 < state.readers.length ∧ entry.2.OfRead
  whole : entries.length = total Reader.counted state
  recomputed : published = tallied entries .recompute + total Reader.owing state

theorem tallied_start (store : Store ρ) : Tallied [] 0 (start store) where
  uncounted := nofun
  counted := nofun
  begun := nofun
  whole := rfl
  recomputed := rfl

theorem tallied_append (entries more : List (Nat × Occurrence)) (occurrence : Occurrence) :
    tallied (entries ++ more) occurrence = tallied entries occurrence + tallied more occurrence :=
  List.countP_append

theorem Tallied.of_begin {published : Nat} (known : Tallied entries published state) :
    Tallied entries published { state with readers := state.readers ++ [.starting] } := by
  refine ⟨?uncounted, ?counted, ?begun, ?whole, ?recomputed⟩
  case uncounted =>
    intro number reader found free
    rcases getElem?_begun found with old | ⟨rfl, -⟩
    · exact known.uncounted number reader old free
    · apply List.filter_eq_nil_iff.mpr
      intro entry member equal
      have := (known.begun entry member).1
      have : entry.1 = state.readers.length := by simpa using equal
      omega
  case counted =>
    intro number reader found ended
    rcases getElem?_begun found with old | ⟨-, rfl⟩
    · exact known.counted number reader old ended
    · cases ended
  case begun =>
    intro entry member
    have := known.begun entry member
    refine ⟨?_, this.2⟩
    rw [List.length_append]
    omega
  case whole =>
    rw [total_begun]
    exact known.whole
  case recomputed =>
    rw [total_begun]
    exact known.recomputed

theorem Tallied.of_passes {published number : Nat} {reader moved : Reader ρ} {cache : Cache ρ}
    (known : Tallied entries published state) (present : state.readers[number]? = some reader)
    (passes : Reader.Passes state.cache reader cache moved) :
    Tallied (entries ++ (reader.counts?.map (number, ·)).toList)
      (published + (reader.publishes? state.cache).toList.length)
      { cache, readers := state.readers.set number moved } := by
  have inside := (List.getElem?_eq_some_iff.mp present).1
  have wholeMoved := total_moved Reader.counted cache moved present
  have owingMoved := total_moved Reader.owing cache moved present
  have balance := passes.owing_eq
  have whole := known.whole
  have recomputed := known.recomputed
  rcases passes.counters_eq with
    ⟨none, -, same⟩ | ⟨occurrence, counts, ofRead, -, before, after⟩
  · simp only [none, Option.map_none, Option.toList_none, List.append_nil, List.countP_nil,
      Nat.zero_add] at balance ⊢
    refine ⟨?uncounted, ?counted, ?begun, by omega, by omega⟩
    case uncounted =>
      intro place other found free
      rcases getElem?_moved found with ⟨rfl, rfl⟩ | ⟨-, old⟩
      · exact known.uncounted place reader present (same ▸ free)
      · exact known.uncounted place other old free
    case counted =>
      intro place other found ended
      rcases getElem?_moved found with ⟨rfl, rfl⟩ | ⟨-, old⟩
      · exact known.counted place reader present (same ▸ ended)
      · exact known.counted place other old ended
    case begun => simpa using known.begun
  · simp only [counts, Option.map_some, Option.toList_some] at balance ⊢
    have entered : tallied [(number, occurrence)] .recompute =
        List.countP (fun counted => decide (counted = .recompute)) [occurrence] := by
      simp [tallied, List.countP_cons]
    refine ⟨?uncounted, ?counted, ?begun, ?whole, ?recomputed⟩
    case uncounted =>
      intro place other found free
      rcases getElem?_moved found with ⟨rfl, rfl⟩ | ⟨different, old⟩
      · rw [after] at free
        cases free
      · rw [List.filter_append, known.uncounted place other old free]
        simp [different.symm]
    case counted =>
      intro place other found ended
      rcases getElem?_moved found with ⟨rfl, rfl⟩ | ⟨different, old⟩
      · refine ⟨occurrence, ofRead, ?_⟩
        rw [List.filter_append, known.uncounted place reader present before]
        simp
      · rcases known.counted place other old ended with ⟨read, kind, only⟩
        refine ⟨read, kind, ?_⟩
        rw [List.filter_append, only]
        simp [different.symm]
    case begun =>
      intro entry member
      rw [List.length_set]
      rcases List.mem_append.mp member with old | new
      · exact known.begun entry old
      · cases List.mem_singleton.mp new
        exact ⟨inside, ofRead⟩
    case whole =>
      rw [List.length_append, List.length_singleton]
      omega
    case recomputed =>
      rw [tallied_append, entered]
      omega

theorem tallied_of_run (ran : run acts (start store) = some state) :
    Tallied (tally acts (start store)) (publications acts (start store)).length state := by
  refine Execution.run_history (fun acts state => Tallied (tally acts (start store))
    (publications acts (start store)).length state) (tallied_start store) ?_ ran
  intro acts act state next reached known stepped
  have noted : tally (acts ++ [act]) (start store) =
      tally acts (start store) ++ counts state act := Execution.observed_concat reached stepped
  have published : publications (acts ++ [act]) (start store) =
      publications acts (start store) ++ publishes state act :=
    Execution.observed_concat reached stepped
  rw [noted, published, List.length_append]
  cases act with
  | effect change =>
      cases stepped
      simp only [counts, publishes, List.append_nil, List.length_nil, Nat.add_zero]
      exact ⟨known.uncounted, known.counted, known.begun, known.whole, known.recomputed⟩
  | begin =>
      cases stepped
      simp only [counts, publishes, List.append_nil, List.length_nil, Nat.add_zero]
      exact known.of_begin
  | step number =>
      rcases passes_of_step stepped with ⟨reader, cache, moved, present, passes, rfl⟩
      simp only [counts, publishes, present, Option.bind_some]
      exact known.of_passes present passes

theorem count_perform {change : Effect ρ} {occurrence : Occurrence} (ofRead : occurrence.OfRead)
    (silent : ¬(ReadAct.effect change).CountsRead) (cache : Cache ρ) :
    (cache.perform change).counters.count occurrence = cache.counters.count occurrence := by
  cases change with
  | record recorded =>
      have different : occurrence ≠ recorded := fun same => silent (same ▸ ofRead)
      simp [Cache.perform, Cache.record, Counters.count_record, different]
  | invalidate =>
      have different : occurrence ≠ .invalidation := by
        rintro rfl
        rcases ofRead with hit | recompute
        · cases hit
        · cases recompute
      simp [Cache.perform, Cache.invalidate, Cache.record, Counters.count_record, different]
  | _ => rfl

theorem count_eq_tallied (ran : run acts (start store) = some state)
    (silent : ∀ act ∈ acts, ¬act.CountsRead) {occurrence : Occurrence}
    (ofRead : occurrence.OfRead) :
    state.cache.counters.count occurrence =
      UInt64.ofNat (tallied (tally acts (start store)) occurrence) := by
  refine Execution.run_history (fun acts state => (∀ act ∈ acts, ¬act.CountsRead) →
    state.cache.counters.count occurrence =
      UInt64.ofNat (tallied (tally acts (start store)) occurrence)) ?_ ?_ ran silent
  · intro _
    rcases ofRead with rfl | rfl <;> rfl
  · intro acts act state next reached counted stepped silent
    have before := counted fun other member => silent other (List.mem_append_left _ member)
    have quiet := silent act (List.mem_append_right _ (List.mem_singleton_self _))
    have noted : tally (acts ++ [act]) (start store) =
        tally acts (start store) ++ counts state act := Execution.observed_concat reached stepped
    rw [noted, tallied_append]
    cases act with
    | effect change =>
        cases stepped
        rw [count_perform ofRead quiet, before]
        rfl
    | begin => cases stepped; exact before
    | step number =>
        rcases passes_of_step stepped with ⟨reader, cache, moved, present, passes, rfl⟩
        simp only [counts, present, Option.bind_some]
        rcases passes.counters_eq with ⟨none, same, -⟩ | ⟨recorded, counts, -, recording, -, -⟩
        · rw [none, same, before]
          rfl
        · rw [counts, recording, Counters.count_record, before]
          by_cases same : occurrence = recorded
          · subst same
            simp [tallied, UInt64.ofNat_add]
          · have other : ¬recorded = occurrence := fun equal => same equal.symm
            simp [tallied, same, other]

theorem tallied_add_tallied (kinds : ∀ entry ∈ entries, entry.2.OfRead) :
    tallied entries .hit + tallied entries .recompute = entries.length := by
  induction entries with
  | nil => rfl
  | cons entry rest induction =>
      have known := induction fun other member => kinds other (.tail _ member)
      simp only [tallied] at known
      rcases kinds entry (.head _) with hit | recompute
      · simp [tallied, hit]
        omega
      · simp [tallied, recompute]
        omega

theorem tallied_of_idle (ran : run acts (start store) = some state) (idle : Idle state) :
    tallied (tally acts (start store)) .recompute = (publications acts (start store)).length ∧
      tallied (tally acts (start store)) .hit + tallied (tally acts (start store)) .recompute =
        beginnings acts := by
  have known := tallied_of_run ran
  have recomputed := known.recomputed
  have whole := known.whole
  rw [total_of_idle 0 idle fun _ => rfl] at recomputed
  rw [total_of_idle 1 idle fun _ => rfl, length_readers ran] at whole
  rw [tallied_add_tallied fun entry member => (known.begun entry member).2]
  omega

/-- Readers take no more than ten steps each, whatever comes between these. -/
theorem countP_add_remaining_le (ran : run reads before = some final) :
    reads.countP ReadAct.ofReader + total Reader.remaining final ≤
      11 * beginnings reads + total Reader.remaining before := by
  refine Execution.run_history (fun reads state =>
    reads.countP ReadAct.ofReader + total Reader.remaining state ≤
      11 * beginnings reads + total Reader.remaining before) ?_ ?_ ran
  · simp [beginnings]
  · intro reads act state next _ bounded stepped
    rw [List.countP_append, List.countP_singleton, beginnings_concat]
    cases act with
    | effect change =>
        cases stepped
        exact bounded
    | begin =>
        cases stepped
        rw [total_begun]
        simp only [ReadAct.begins, ReadAct.ofReader, if_true, Reader.remaining]
        omega
    | step number =>
        rcases moves_of_step stepped with ⟨reader, cache, moved, present, moves, rfl⟩
        have sums := total_moved Reader.remaining cache moved present
        have less := Reader.remaining_step moves
        simp only [ReadAct.begins, ReadAct.ofReader, if_true]
        omega

end Reading

end PolicyWarden
