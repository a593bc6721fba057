import Mathlib
import PolicyWarden.Proofs.Snapshot.Reading

/-!
What readers see. A snapshot is the sorted store of one instant of the run, and the generation it is
tagged with was loaded before that instant. So a reader that finds a snapshot of the generation it
has loaded itself gets a store that contains every mutation made stale-marked before the reader
began, whoever sorted that store and however late it was published. `policies_eq_sortedPolicies`
states this for every reader that has come to its end.
-/

namespace PolicyWarden.Reading

variable {ρ : Type} {store : Store ρ} {acts : List (ReadAct ρ)} {floor : Nat}
  {generation : UInt64} {policies : List ρ}

def Loaded (acts : List (ReadAct ρ)) (floor : Nat) (generation : UInt64) : Prop :=
  ∃ count, floor ≤ count ∧ count ≤ invalidations acts ∧ generation = UInt64.ofNat count

/-- The policies are the sorted store of an instant of the run that has at least `floor`
invalidations behind it, and those that the generation counts. -/
def Taken (store : Store ρ) (acts : List (ReadAct ρ)) (floor : Nat) (generation : UInt64)
    (policies : List ρ) : Prop :=
  ∃ instant state count, instant <+: acts ∧ run instant (start store) = some state ∧
    policies = state.cache.store.sortedPolicies ∧ floor ≤ invalidations instant ∧
    count ≤ invalidations instant ∧ generation = UInt64.ofNat count

def Knows (store : Store ρ) (acts : List (ReadAct ρ)) (floor : Nat) : Reader ρ → Prop
  | .starting | .missed | .locked | .stale => True
  | .comparing generation | .recomparing generation | .tagging generation =>
      Loaded acts floor generation
  | .sorted generation policies => Taken store acts floor generation policies
  | .issued snapshot | .releasing snapshot | .hitting snapshot _ | .finished snapshot =>
      Taken store acts floor snapshot.generation snapshot.policies

theorem Loaded.concat (loaded : Loaded acts floor generation) (act : ReadAct ρ) :
    Loaded (acts ++ [act]) floor generation := by
  rcases loaded with ⟨count, above, below, equal⟩
  have longer := invalidations_mono (List.prefix_append acts [act])
  exact ⟨count, above, Nat.le_trans below longer, equal⟩

theorem Taken.concat (taken : Taken store acts floor generation policies) (act : ReadAct ρ) :
    Taken store (acts ++ [act]) floor generation policies := by
  rcases taken with ⟨instant, state, count, first, rest⟩
  exact ⟨instant, state, count, first.trans (List.prefix_append _ _), rest⟩

theorem Taken.lower (taken : Taken store acts floor generation policies) :
    Taken store acts 0 generation policies := by
  rcases taken with ⟨instant, state, count, first, ran, equal, -, rest⟩
  exact ⟨instant, state, count, first, ran, equal, Nat.zero_le _, rest⟩

theorem Knows.concat {reader : Reader ρ} (knows : Knows store acts floor reader)
    (act : ReadAct ρ) : Knows store (acts ++ [act]) floor reader := by
  cases reader with
  | starting | missed | locked | stale => trivial
  | comparing _ | recomparing _ | tagging _ => exact Loaded.concat knows act
  | sorted _ _ | issued _ | releasing _ | hitting _ _ | finished _ =>
      exact Taken.concat knows act

theorem ofNat_inj {left right : Nat} (leftFits : left < 2 ^ 64) (rightFits : right < 2 ^ 64)
    (equal : UInt64.ofNat left = UInt64.ofNat right) : left = right := by
  have values := congrArg UInt64.toNat equal
  rwa [UInt64.toNat_ofNat_of_lt' leftFits, UInt64.toNat_ofNat_of_lt' rightFits] at values

/-- The one step that matters: a published snapshot of the generation that a reader has loaded was
taken after everything that was stale-marked when the reader began. -/
theorem Loaded.taken (loaded : Loaded acts floor generation) (few : invalidations acts < 2 ^ 64)
    {snapshot : Snapshot ρ}
    (taken : Taken store acts 0 snapshot.generation snapshot.policies)
    (current : snapshot.generation = generation) :
    Taken store acts floor snapshot.generation snapshot.policies := by
  rcases loaded with ⟨loads, above, below, rfl⟩
  rcases taken with ⟨instant, state, tags, first, ran, sorted, -, tagged, equal⟩
  have within := invalidations_mono first
  have same : tags = loads := ofNat_inj (by omega) (by omega) (equal.symm.trans current)
  exact ⟨instant, state, tags, first, ran, sorted, by omega, tagged, equal⟩

/-- What is known after a run: the published snapshot was taken at an instant of the run, and every
reader knows what it should, given how many invalidations it has behind it. -/
structure Sound (store : Store ρ) (acts : List (ReadAct ρ)) (state : Reading ρ) : Prop where
  published : ∀ snapshot, state.cache.published = some snapshot →
    Taken store acts 0 snapshot.generation snapshot.policies
  readers : ∀ (number : Nat) (reader : Reader ρ) (before after : List (ReadAct ρ)),
    state.readers[number]? = some reader → acts = before ++ .begin :: after →
    beginnings before = number → Knows store acts (invalidations before) reader

theorem published_of_publishedAt {cache : Cache ρ} {snapshot : Snapshot ρ}
    (found : cache.publishedAt? generation = some snapshot) :
    cache.published = some snapshot ∧ snapshot.generation = generation := by
  rcases Option.filter_eq_some_iff.mp found with ⟨published, current⟩
  exact ⟨published, eq_of_beq current⟩

theorem Knows.of_step {state : Reading ρ} (ran : run acts (start store) = some state)
    (few : invalidations acts < 2 ^ 64) (bounded : floor ≤ invalidations acts)
    (published : ∀ snapshot, state.cache.published = some snapshot →
      Taken store acts 0 snapshot.generation snapshot.policies)
    {reader moved : Reader ρ} {cache : Cache ρ} (knows : Knows store acts floor reader)
    (stepped : reader.step state.cache = some (cache, moved)) :
    Knows store acts floor moved ∧
      ∀ snapshot, cache.published = some snapshot →
        Taken store acts 0 snapshot.generation snapshot.policies := by
  have generation := generation_eq ran
  have current : Loaded acts floor state.cache.generation :=
    ⟨invalidations acts, bounded, Nat.le_refl _, generation⟩
  cases reader with
  | starting => cases stepped; exact ⟨current, published⟩
  | locked => cases stepped; exact ⟨current, published⟩
  | stale => cases stepped; exact ⟨current, published⟩
  | comparing loaded =>
      simp only [Reader.step] at stepped
      split at stepped
      · next snapshot found =>
          cases stepped
          rcases published_of_publishedAt found with ⟨stored, same⟩
          exact ⟨Loaded.taken knows few (published _ stored) same, published⟩
      · cases stepped; exact ⟨trivial, published⟩
  | recomparing loaded =>
      simp only [Reader.step] at stepped
      split at stepped
      · next snapshot found =>
          cases stepped
          rcases published_of_publishedAt found with ⟨stored, same⟩
          exact ⟨Loaded.taken knows few (published _ stored) same, published⟩
      · cases stepped; exact ⟨trivial, published⟩
  | missed =>
      simp only [Reader.step] at stepped
      split at stepped
      · cases stepped
      · cases stepped; exact ⟨trivial, published⟩
  | tagging tag =>
      cases stepped
      rcases knows with ⟨count, -, below, equal⟩
      exact ⟨⟨acts, state, count, List.prefix_refl _, ran, rfl, bounded, below, equal⟩, published⟩
  | sorted tag policies =>
      cases stepped
      refine ⟨knows, ?_⟩
      intro snapshot stored
      cases stored
      exact Taken.lower knows
  | issued snapshot => cases stepped; exact ⟨knows, published⟩
  | releasing snapshot => cases stepped; exact ⟨knows, published⟩
  | hitting snapshot holding =>
      cases stepped
      cases holding with
      | true => exact ⟨knows, published⟩
      | false => exact ⟨knows, published⟩
  | finished snapshot => cases stepped

theorem beginning_of_concat {act : ReadAct ρ} {before after : List (ReadAct ρ)}
    (whole : acts ++ [act] = before ++ .begin :: after) :
    (act = .begin ∧ before = acts) ∨ ∃ rest, acts = before ++ .begin :: rest := by
  rcases List.eq_nil_or_concat after with rfl | ⟨rest, last, rfl⟩
  · rcases List.append_inj' whole rfl with ⟨equal, same⟩
    exact .inl ⟨by simpa using same, equal.symm⟩
  · have shorter : acts ++ [act] = (before ++ .begin :: rest) ++ [last] := by simpa using whole
    exact .inr ⟨rest, (List.append_inj' shorter rfl).1⟩

theorem sound_nil : Sound store ([] : List (ReadAct ρ)) (start store) where
  published := nofun
  readers := nofun

theorem Sound.of_step {state next : Reading ρ} {act : ReadAct ρ}
    (ran : run acts (start store) = some state) (sound : Sound store acts state)
    (few : invalidations acts < 2 ^ 64) (stepped : step state act = some next) :
    Sound store (acts ++ [act]) next := by
  have count := length_readers ran
  cases act with
  | effect change =>
      cases stepped
      refine ⟨?published, ?readers⟩
      case published =>
        intro snapshot stored
        have unchanged : (state.cache.perform change).published = state.cache.published := by
          cases change <;> rfl
        exact (sound.published snapshot (unchanged ▸ stored)).concat _
      case readers =>
        intro number reader before after found whole placed
        rcases beginning_of_concat whole with ⟨impossible, -⟩ | ⟨rest, shorter⟩
        · cases impossible
        · exact (sound.readers number reader before rest found shorter placed).concat _
  | begin =>
      cases stepped
      refine ⟨fun snapshot stored => (sound.published snapshot stored).concat _, ?_⟩
      intro number reader before after found whole placed
      rcases beginning_of_concat whole with ⟨-, rfl⟩ | ⟨rest, shorter⟩
      · have new : reader = .starting := by
          rw [List.getElem?_append_right (by omega), count, placed] at found
          simpa using found.symm
        subst new
        trivial
      · have old : number < state.readers.length := by
          have := beginnings_lt before rest
          rw [count, shorter]
          omega
        rw [List.getElem?_append_left old] at found
        exact (sound.readers number reader before rest found shorter placed).concat _
  | step moving =>
      simp only [step, Option.bind_eq_bind, Option.bind_eq_some_iff] at stepped
      rcases stepped with ⟨reader, present, ⟨cache, moved⟩, moves, equal⟩
      cases equal
      -- The moving reader began somewhere, and knows what belongs to that beginning.
      have known : ∀ before after, acts = before ++ .begin :: after → beginnings before = moving →
          Knows store acts (invalidations before) moved ∧
            ∀ snapshot, cache.published = some snapshot →
              Taken store acts 0 snapshot.generation snapshot.policies := by
        intro before after whole placed
        have first : before <+: acts := ⟨_, whole.symm⟩
        exact (sound.readers moving reader before after present whole placed).of_step ran few
          (invalidations_mono first) sound.published moves
      refine ⟨?published, ?readers⟩
      case published =>
        intro snapshot stored
        have begun : moving < beginnings acts := by
          rw [← count]
          exact (List.getElem?_eq_some_iff.mp present).1
        rcases exists_beginning begun with ⟨before, after, whole, placed⟩
        exact ((known before after whole placed).2 snapshot stored).concat _
      case readers =>
        intro number other before after found whole placed
        rcases beginning_of_concat whole with ⟨impossible, -⟩ | ⟨rest, shorter⟩
        · cases impossible
        · rw [List.getElem?_set] at found
          split at found
          · next same =>
              split at found
              · cases found
                exact (known before rest shorter (placed.trans same.symm)).1.concat _
              · cases found
          · exact (sound.readers number other before rest found shorter placed).concat _

theorem sound_of_run {state : Reading ρ} (ran : run acts (start store) = some state)
    (few : invalidations acts < 2 ^ 64) : Sound store acts state := by
  refine Execution.run_history
    (fun acts state => invalidations acts < 2 ^ 64 → Sound store acts state)
    (fun _ => sound_nil) ?_ ran few
  intro acts act state next reached sound stepped few
  have fewer : invalidations acts < 2 ^ 64 := by
    have := invalidations_concat acts act
    omega
  exact (sound fewer).of_step reached fewer stepped

/-- Whatever readers, mutations and invalidations do in whatever order, a reader that has come to
its end returns the sorted store of a single instant of the run. That instant is no earlier than any
mutation, or anything else, that an invalidation followed before the reader began. -/
theorem policies_eq_sortedPolicies {before after : List (ReadAct ρ)} {state : Reading ρ}
    {snapshot : Snapshot ρ}
    (ran : run (before ++ .begin :: after) (start store) = some state)
    (few : invalidations (before ++ .begin :: after) < 2 ^ 64)
    (finished : state.readers[beginnings before]? = some (.finished snapshot)) :
    ∃ instant seen, instant <+: before ++ .begin :: after ∧
      run instant (start store) = some seen ∧
      snapshot.policies = seen.cache.store.sortedPolicies ∧
      ∀ earlier mutation between rest,
        before = earlier ++ mutation :: between ++ .effect .invalidate :: rest →
        earlier ++ [mutation] <+: instant := by
  have knows := (sound_of_run ran few).readers _ _ before after finished rfl rfl
  rcases knows with ⟨instant, seen, count, first, reached, sorted, above, -⟩
  refine ⟨instant, seen, first, reached, sorted, ?_⟩
  intro earlier mutation between rest shape
  have begun : earlier ++ [mutation] <+: before ++ .begin :: after :=
    ⟨between ++ .effect .invalidate :: rest ++ .begin :: after, by simp [shape]⟩
  rcases List.prefix_or_prefix_of_prefix begun first with early | late
  · exact early
  · -- An instant as early as the mutation would have fewer invalidations behind it.
    have few : invalidations instant ≤ invalidations (earlier ++ [mutation]) :=
      invalidations_mono late
    have more : invalidations (earlier ++ [mutation]) < invalidations before := by
      simp only [shape, invalidations, List.countP_append, List.countP_cons, List.countP_nil,
        ReadAct.invalidates, if_true]
      omega
    omega

/-- The first reader sorts the store; meanwhile a policy is stored and the snapshot made stale, and
only then does the reader publish what it has sorted. -/
def overtaken : List (ReadAct String) :=
  [.begin, .step 0, .step 0, .step 0, .step 0, .step 0, .step 0, .step 0,
    .effect (.upsert ⟨"a"⟩ "one" none), .effect .invalidate, .step 0, .step 0, .step 0]

def sortingAlone : List (ReadAct String) :=
  List.replicate 10 (.step 1)

theorem policies_eq_sortedPolicies_overtaken :
    ∃ state snapshot, run (overtaken ++ .begin :: sortingAlone) (start ∅) = some state ∧
      invalidations (overtaken ++ .begin :: sortingAlone) < 2 ^ 64 ∧
      state.readers[beginnings overtaken]? = some (.finished snapshot) ∧
      ∃ instant seen, run instant (start ∅) = some seen ∧
        snapshot.policies = seen.cache.store.sortedPolicies ∧
        overtaken.take 9 <+: instant := by
  rcases (⟨_, rfl⟩ : ∃ state, run (overtaken ++ .begin :: sortingAlone) (start ∅) = some state) with
    ⟨state, ran⟩
  have few : invalidations (overtaken ++ .begin :: sortingAlone) < 2 ^ 64 := by decide
  rcases (Option.some.inj ran ▸ ⟨_, rfl⟩ :
    ∃ snapshot, state.readers[beginnings overtaken]? = some (.finished snapshot)) with
      ⟨snapshot, finished⟩
  rcases policies_eq_sortedPolicies ran few finished with
    ⟨instant, seen, -, reached, sorted, covered⟩
  exact ⟨state, snapshot, ran, few, finished, instant, seen, reached, sorted,
    covered (overtaken.take 8) _ [] (overtaken.drop 10) rfl⟩

end PolicyWarden.Reading
