import PolicyWarden.Proofs.Snapshot.Publication

/-!
Reads do not go back in time. Each snapshot holds the sorted store of the instant at which its
publisher has read the store. Readers sort one at a time, so that snapshots published one after
another were sorted one after another, and a reader that begins when another has returned is served
no earlier snapshot than that one; `reads_monotone` is the main statement.
-/

namespace PolicyWarden

variable {ρ : Type}

namespace Reader

def Since (floor : UInt64) : Reader ρ → Prop
  | .comparing generation | .recomparing generation | .tagging generation
  | .sorted generation _ => floor ≤ generation
  | .issued snapshot | .releasing snapshot | .hitting snapshot _ | .finished snapshot =>
      floor ≤ snapshot.generation
  | .starting | .missed | .locked | .stale => True

theorem Passes.since {cache after : Cache ρ} {reader moved : Reader ρ} {floor : UInt64}
    (passes : Passes cache reader after moved) (since : reader.Since floor)
    (past : floor ≤ cache.generation) : moved.Since floor := by
  cases passes with
  | load | reload | tag => exact past
  | miss | lock | remiss => trivial
  | hit | rehit | sort | publish | recompute | release | record | recordHolding => exact since

end Reader

namespace Reading

variable {store : Store ρ} {acts instant earlier later : List (ReadAct ρ)}
  {state middle final seen : Reading ρ} {number : Nat} {reader : Reader ρ} {snapshot : Snapshot ρ}

/-- After `instant`, a reader takes a step of the run from this phase. -/
structure StepsAt (store : Store ρ) (acts instant : List (ReadAct ρ)) (number : Nat)
    (seen : Reading ρ) (phase : Reader ρ) : Prop where
  inside : instant ++ [.step number] <+: acts
  reached : run instant (start store) = some seen
  found : seen.readers[number]? = some phase

def SortedAt (store : Store ρ) (acts instant : List (ReadAct ρ)) (snapshot : Snapshot ρ) : Prop :=
  ∃ number seen generation publication publishing,
    StepsAt store acts instant number seen (.tagging generation) ∧
    snapshot.policies = seen.cache.store.sortedPolicies ∧
    StepsAt store acts publication number publishing
      (.sorted snapshot.generation snapshot.policies) ∧
    snapshot.serial = publishing.cache.issued

theorem remaining_le (ran : run acts middle = some final)
    (present : middle.readers[number]? = some reader) :
    ∃ last, final.readers[number]? = some last ∧ last.remaining ≤ reader.remaining := by
  refine Execution.run_invariant (fun state : Reading ρ =>
    ∃ last, state.readers[number]? = some last ∧ last.remaining ≤ reader.remaining)
    ⟨reader, present, Nat.le_refl _⟩ ?_ ran
  intro state act next known stepped
  rcases known with ⟨last, found, bounded⟩
  cases act with
  | effect change => cases stepped; exact ⟨last, found, bounded⟩
  | begin =>
      cases stepped
      have inside := (List.getElem?_eq_some_iff.mp found).1
      exact ⟨last, (List.getElem?_append_left inside).trans found, bounded⟩
  | step other =>
      rcases moves_of_step stepped with ⟨mover, cache, moved, placed, moves, rfl⟩
      by_cases same : other = number
      · subst same
        cases placed.symm.trans found
        have inside := (List.getElem?_eq_some_iff.mp found).1
        exact ⟨moved, List.getElem?_set_self inside,
          Nat.le_trans (Nat.le_of_lt (Reader.remaining_step moves)) bounded⟩
      · exact ⟨last, (List.getElem?_set_ne same).trans found, bounded⟩

theorem holds_of_remaining (sorted : reader.remaining = 3) : reader.holds = true := by
  cases reader with
  | sorted => rfl
  | _ => cases sorted

theorem issued_le (ran : run acts middle = some final) :
    middle.cache.issued ≤ final.cache.issued := by
  refine Execution.run_invariant (fun state : Reading ρ =>
    middle.cache.issued ≤ state.cache.issued) (Nat.le_refl _) ?_ ran
  intro state act next bounded stepped
  cases act with
  | effect change =>
      cases stepped
      rw [(published_perform state.cache change).2]
      exact bounded
  | begin => cases stepped; exact bounded
  | step other =>
      rcases passes_of_step stepped with ⟨mover, cache, moved, -, passes, rfl⟩
      have issued := passes.published_eq.2
      exact Nat.le_trans bounded (issued ▸ Nat.le_add_right _ _)

theorem since_of_run {before after : List (ReadAct ρ)}
    (reached : run before (start store) = some middle)
    (ran : run (.begin :: after) middle = some final)
    (few : invalidations (before ++ .begin :: after) < 2 ^ 64)
    (found : final.readers[beginnings before]? = some reader) :
    reader.Since middle.cache.generation := by
  have counted := length_readers reached
  refine Execution.run_history (fun acts state => invalidations (before ++ acts) < 2 ^ 64 →
    ∀ reader, state.readers[beginnings before]? = some reader →
      reader.Since middle.cache.generation) ?_ ?_ ran few reader found
  · -- The reader has not begun yet.
    intro _ reader found
    rw [List.getElem?_eq_none (Nat.le_of_eq counted)] at found
    cases found
  · intro acts act state next continued since stepped few reader found
    rw [← List.append_assoc] at few
    have shorter : invalidations (before ++ acts) < 2 ^ 64 :=
      Nat.lt_of_le_of_lt (invalidations_mono (List.prefix_append _ _)) few
    have ran : run (before ++ acts) (start store) = some state :=
      Execution.run_append_eq_some.mpr ⟨middle, reached, continued⟩
    have past := generation_le_of_prefix (List.prefix_append before acts) reached ran shorter
    cases act with
    | effect change => cases stepped; exact since shorter reader found
    | begin =>
        cases stepped
        rcases getElem?_begun found with known | ⟨-, rfl⟩
        · exact since shorter reader known
        · trivial
    | step number =>
        rcases passes_of_step stepped with ⟨mover, cache, moved, present, passes, rfl⟩
        rcases getElem?_moved found with ⟨same, rfl⟩ | ⟨-, old⟩
        · exact passes.since (since shorter mover (same ▸ present)) past
        · exact since shorter reader old

namespace StepsAt

variable {other : Nat} {phase second : Reader ρ} {next : List (ReadAct ρ)} {following : Reading ρ}

theorem prefix_acts (stepsAt : StepsAt store acts instant number seen phase) : instant <+: acts :=
  (List.prefix_append _ _).trans stepsAt.inside

theorem mono (stepsAt : StepsAt store earlier instant number seen phase) (first : earlier <+: later) :
    StepsAt store later instant number seen phase :=
  ⟨stepsAt.inside.trans first, stepsAt.reached, stepsAt.found⟩

theorem prefix_or_after (first : StepsAt store acts instant number seen phase)
    (another : StepsAt store acts next other following second) :
    instant <+: next ∨ next ++ [.step other] <+: instant := by
  rcases List.prefix_or_prefix_of_prefix first.prefix_acts another.inside with early | late
  · rcases List.prefix_concat_iff.mp early with same | early
    · exact .inr (same ▸ List.prefix_refl _)
    · exact .inl early
  · exact .inr late

theorem passes (first : StepsAt store acts instant number seen phase)
    (ran : run next (start store) = some following) (after : instant ++ [.step number] <+: next) :
    ∃ cache moved rest, Reader.Passes seen.cache phase cache moved ∧
      moved.remaining < phase.remaining ∧
      run rest { cache, readers := seen.readers.set number moved } = some following := by
  rcases after with ⟨rest, rfl⟩
  rcases Execution.run_append_eq_some.mp ran with ⟨between, reached, continued⟩
  rw [Execution.run_concat] at reached
  rcases Option.bind_eq_some_iff.mp reached with ⟨_, again, stepped⟩
  cases first.reached.symm.trans again
  rcases moves_of_step stepped with ⟨mover, cache, moved, placed, moves, rfl⟩
  cases placed.symm.trans first.found
  exact ⟨cache, moved, rest, Reader.passes_of_step moves, Reader.remaining_step moves, continued⟩

theorem remaining_lt (first : StepsAt store acts instant number seen phase)
    (ran : run next (start store) = some following) (after : instant ++ [.step number] <+: next) :
    ∃ last, following.readers[number]? = some last ∧ last.remaining < phase.remaining := by
  rcases first.passes ran after with ⟨cache, moved, rest, -, less, continued⟩
  have inside := (List.getElem?_eq_some_iff.mp first.found).1
  rcases remaining_le continued (List.getElem?_set_self inside) with ⟨last, found, bounded⟩
  exact ⟨last, found, Nat.lt_of_le_of_lt bounded less⟩

theorem issued_lt {generation : UInt64} {policies : List ρ}
    (first : StepsAt store acts instant number seen (.sorted generation policies))
    (ran : run next (start store) = some following) (after : instant ++ [.step number] <+: next) :
    seen.cache.issued < following.cache.issued := by
  rcases first.passes ran after with ⟨cache, moved, rest, passes, -, continued⟩
  cases passes
  exact issued_le continued

theorem remaining_ge (another : StepsAt store acts next other following second)
    (first : instant <+: next) (reached : run instant (start store) = some seen)
    (present : seen.readers[other]? = some phase) : second.remaining ≤ phase.remaining := by
  rcases Execution.run_of_prefix first reached another.reached with ⟨rest, -, continued⟩
  rcases remaining_le continued present with ⟨last, found, bounded⟩
  cases another.found.symm.trans found
  exact bounded

end StepsAt

theorem sorted_before_published {generation tag : UInt64} {policies : List ρ}
    {publication : List (ReadAct ρ)} {publishing : Reading ρ}
    (sorts : StepsAt store acts instant number seen (.tagging tag))
    (publishes : StepsAt store acts publication number publishing (.sorted generation policies)) :
    instant ++ [.step number] <+: publication := by
  rcases publishes.prefix_or_after sorts with early | late
  · have impossible := sorts.remaining_ge early publishes.reached publishes.found
    simp [Reader.remaining] at impossible
  · exact late

theorem SortedAt.prefix_of_serial_le {early late : Snapshot ρ} {first second : List (ReadAct ρ)}
    (earlySorted : SortedAt store acts first early) (lateSorted : SortedAt store acts second late)
    (order : early.serial ≤ late.serial) : first <+: second := by
  rcases earlySorted with ⟨own, seen, _, printing, printed, sorts, -, publishes, serial⟩
  rcases lateSorted with ⟨other, _, _, next, following, sortsNext, -, publishesNext, serialNext⟩
  rcases sorts.prefix_or_after sortsNext with early | overtaken
  · exact early
  · -- Otherwise two readers would hold the lock when the first one sorts the store.
    exfalso
    have published : printing <+: next := by
      rcases publishes.prefix_or_after publishesNext with early | after
      · exact early
      · have more := publishesNext.issued_lt publishes.reached after
        omega
    have within : first <+: next :=
      (List.prefix_append _ _).trans ((sorted_before_published sorts publishes).trans published)
    rcases sortsNext.remaining_lt sorts.reached overtaken with ⟨last, found, less⟩
    have unpublished : 3 ≤ last.remaining :=
      publishesNext.remaining_ge within sorts.reached found
    have sorted : last.remaining = 3 := Nat.le_antisymm (Nat.le_of_lt_succ less) unpublished
    have alone : own = other := (exclusive_of_run sorts.reached).alone own other _ last sorts.found
      found rfl (holds_of_remaining sorted)
    subst alone
    cases sorts.found.symm.trans found
    cases sorted

theorem sorted_of_run {generation : UInt64} {policies : List ρ}
    (ran : run acts (start store) = some state)
    (found : state.readers[number]? = some (.sorted generation policies)) :
    ∃ instant seen, StepsAt store acts instant number seen (.tagging generation) ∧
      policies = seen.cache.store.sortedPolicies := by
  refine Execution.run_history (fun acts state => ∀ number generation policies,
    state.readers[number]? = some (.sorted generation policies) →
      ∃ instant seen, StepsAt store acts instant number seen (.tagging generation) ∧
        policies = seen.cache.store.sortedPolicies) ?_ ?_ ran number generation policies found
  · intro number generation policies found
    cases found
  · intro acts act state next reached known stepped number generation policies found
    have kept (old : state.readers[number]? = some (.sorted generation policies)) :
        ∃ instant seen, StepsAt store (acts ++ [act]) instant number seen (.tagging generation) ∧
          policies = seen.cache.store.sortedPolicies := by
      rcases known number generation policies old with ⟨instant, seen, sorts, same⟩
      exact ⟨instant, seen, sorts.mono (List.prefix_append _ _), same⟩
    cases act with
    | effect change => cases stepped; exact kept found
    | begin =>
        cases stepped
        rcases getElem?_begun found with old | ⟨-, impossible⟩
        · exact kept old
        · cases impossible
    | step mover =>
        rcases passes_of_step stepped with ⟨reader, cache, moved, present, passes, rfl⟩
        rcases getElem?_moved found with ⟨same, sorted⟩ | ⟨-, old⟩
        · subst same
          subst sorted
          cases passes
          exact ⟨acts, state, ⟨List.prefix_refl _, reached, present⟩, rfl⟩
        · exact kept old

theorem exists_sortedAt (ran : run acts (start store) = some state)
    (member : snapshot ∈ publications acts (start store)) :
    ∃ instant, SortedAt store acts instant snapshot := by
  rcases Execution.exists_of_mem_observed ran member with
    ⟨publication, act, rest, publishing, rfl, reached, published⟩
  cases act with
  | effect change => cases published
  | begin => cases published
  | step number =>
      rcases Option.bind_eq_some_iff.mp (Option.mem_toList.mp published) with
        ⟨reader, found, publishes⟩
      cases reader with
      | sorted generation policies =>
          cases publishes
          rcases sorted_of_run reached found with ⟨instant, seen, sorts, same⟩
          have inside : publication ++ [.step number] <+: publication ++ .step number :: rest :=
            ⟨rest, by simp⟩
          exact ⟨instant, number, seen, generation, publication, publishing,
            sorts.mono (List.prefix_append _ _), same, ⟨inside, reached, found⟩, rfl⟩
      | _ => cases publishes

theorem Sequenced.serial_le {snapshots : List (Snapshot ρ)} (sequenced : Sequenced snapshots state)
    {early late : Snapshot ρ} (first : early ∈ snapshots) (second : late ∈ snapshots)
    (order : early.generation ≤ late.generation) : early.serial ≤ late.serial := by
  have serial : ∀ (place : Nat) (inside : place < snapshots.length),
      snapshots[place].serial = place := by
    intro place inside
    have numbered := congrArg (·[place]?) sequenced.numbered
    simp only [List.getElem?_map, List.getElem?_eq_getElem inside, Option.map_some] at numbered
    rcases List.getElem?_eq_some_iff.mp numbered.symm with ⟨_, same⟩
    exact same.symm.trans (List.getElem_range _)
  rcases List.getElem_of_mem first with ⟨place, inside, rfl⟩
  rcases List.getElem_of_mem second with ⟨other, within, rfl⟩
  rw [serial, serial]
  refine Nat.le_of_not_lt fun after => ?_
  have older := List.pairwise_iff_getElem.mp sequenced.increasing other place within inside after
  exact UInt64.lt_irrefl _ (UInt64.lt_of_lt_of_le older order)

/-- Whatever readers, mutations and invalidations do in whatever order: if one reader has returned
before another begins, the store whose sorted policies the other returns is not from an earlier
instant, and its snapshot was not published earlier. This holds even if the first reader has
returned a snapshot that was stale when it was published. -/
theorem reads_monotone {before after : List (ReadAct ρ)} {early late : Snapshot ρ}
    (ran : run (before ++ .begin :: after) (start store) = some state)
    (few : invalidations (before ++ .begin :: after) < 2 ^ 64)
    (reached : run before (start store) = some middle)
    (returned : middle.readers[number]? = some (.finished early))
    (finished : state.readers[beginnings before]? = some (.finished late)) :
    early.serial ≤ late.serial ∧
      (∃ first, SortedAt store (before ++ .begin :: after) first early) ∧
      (∃ second, SortedAt store (before ++ .begin :: after) second late) ∧
      ∀ first second, SortedAt store (before ++ .begin :: after) first early →
        SortedAt store (before ++ .begin :: after) second late → first <+: second := by
  have shorter : invalidations before < 2 ^ 64 :=
    Nat.lt_of_le_of_lt (invalidations_mono (List.prefix_append _ _)) few
  rcases Execution.run_of_prefix (List.prefix_append _ _) reached ran with ⟨rest, same, continued⟩
  cases List.append_cancel_left same
  have sequenced := sequenced_of_run ran few
  have known := sequenced_of_run reached shorter
  have earlyBefore : early ∈ publications before (start store) :=
    known.carried _ (List.mem_of_getElem? returned) early rfl
  have earlyPublished : early ∈ publications (before ++ .begin :: after) (start store) := by
    rw [publications, Execution.observed_append reached]
    exact List.mem_append_left _ earlyBefore
  have latePublished : late ∈ publications (before ++ .begin :: after) (start store) :=
    sequenced.carried _ (List.mem_of_getElem? finished) late rfl
  have order : early.serial ≤ late.serial :=
    sequenced.serial_le earlyPublished latePublished
      (UInt64.le_trans (known.past early earlyBefore) (since_of_run reached continued few finished))
  exact ⟨order, exists_sortedAt ran earlyPublished, exists_sortedAt ran latePublished,
    fun _ _ sorted sortedNext => sorted.prefix_of_serial_le sortedNext order⟩

theorem reads_monotone_overtaken :
    ∃ middle state early late, run overtaken (start ∅) = some middle ∧
      run (overtaken ++ .begin :: sortingAlone) (start ∅) = some state ∧
      middle.readers[0]? = some (.finished early) ∧
      early.generation ≠ middle.cache.generation ∧
      state.readers[1]? = some (.finished late) ∧ early.serial ≤ late.serial ∧
      ∃ first second, SortedAt ∅ (overtaken ++ .begin :: sortingAlone) first early ∧
        SortedAt ∅ (overtaken ++ .begin :: sortingAlone) second late ∧ first <+: second := by
  rcases (⟨_, _, rfl, rfl, by decide⟩ : ∃ middle early, run overtaken (start ∅) = some middle ∧
    middle.readers[0]? = some (.finished early) ∧ early.generation ≠ middle.cache.generation) with
      ⟨middle, early, reached, returned, stale⟩
  rcases (⟨_, _, rfl, rfl⟩ : ∃ state late,
    run (overtaken ++ .begin :: sortingAlone) (start ∅) = some state ∧
      state.readers[beginnings overtaken]? = some (.finished late)) with ⟨state, late, ran, finished⟩
  rcases reads_monotone ran (by decide) reached returned finished with
    ⟨order, ⟨first, sorted⟩, ⟨second, sortedNext⟩, inOrder⟩
  exact ⟨middle, state, early, late, reached, ran, returned, stale, finished, order, first, second,
    sorted, sortedNext, inOrder first second sorted sortedNext⟩

end Reading

end PolicyWarden
