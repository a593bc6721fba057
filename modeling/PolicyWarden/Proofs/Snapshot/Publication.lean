import PolicyWarden.Proofs.Snapshot.Passage

/-!
The snapshots that a run publishes. Only the holder of the lock publishes, and it has found that the
published snapshot is older than the generation it then loads for its own. So the generations of the
snapshots published one after another increase, and a snapshot is known by its generation.
-/

namespace PolicyWarden

variable {ρ : Type}

namespace Reader

def publishes? (cache : Cache ρ) : Reader ρ → Option (Snapshot ρ)
  | .sorted generation policies => some (cache.publish generation policies).1
  | _ => none

def carries? : Reader ρ → Option (Snapshot ρ)
  | .issued snapshot | .releasing snapshot | .hitting snapshot _ | .finished snapshot =>
      some snapshot
  | _ => none

/-- What the holder of the lock knows of the published snapshot: how its generation compares to the
one that the holder has loaded, and once it has found the snapshot stale, to the current one. -/
def Ahead (cache : Cache ρ) : Reader ρ → Prop
  | .recomparing generation =>
      generation ≤ cache.generation ∧
        ∀ snapshot, cache.published = some snapshot → snapshot.generation ≤ generation
  | .stale => ∀ snapshot, cache.published = some snapshot → snapshot.generation < cache.generation
  | .tagging generation | .sorted generation _ =>
      generation ≤ cache.generation ∧
        ∀ snapshot, cache.published = some snapshot → snapshot.generation < generation
  | _ => True

variable {cache after : Cache ρ} {reader moved : Reader ρ}

theorem Ahead.of_not_holds (free : reader.holds = false) : reader.Ahead cache := by
  cases reader <;> trivial

theorem Ahead.mono (ahead : reader.Ahead cache) (published : after.published = cache.published)
    (later : cache.generation ≤ after.generation) : reader.Ahead after := by
  cases reader with
  | recomparing generation =>
      exact ⟨UInt64.le_trans ahead.1 later, fun snapshot stored =>
        ahead.2 snapshot (published.symm.trans stored)⟩
  | stale =>
      intro snapshot stored
      exact UInt64.lt_of_lt_of_le (ahead snapshot (published.symm.trans stored)) later
  | tagging generation | sorted generation policies =>
      exact ⟨UInt64.le_trans ahead.1 later, fun snapshot stored =>
        ahead.2 snapshot (published.symm.trans stored)⟩
  | _ => trivial

namespace Passes

theorem generation_eq (passes : Passes cache reader after moved) :
    after.generation = cache.generation := by
  cases passes <;> rfl

theorem published_eq (passes : Passes cache reader after moved) :
    after.published = (reader.publishes? cache).or cache.published ∧
      after.issued = cache.issued + (reader.publishes? cache).toList.length := by
  cases passes <;> exact ⟨rfl, rfl⟩

theorem ahead (passes : Passes cache reader after moved) (known : reader.Ahead cache)
    (past : ∀ snapshot, cache.published = some snapshot →
      snapshot.generation ≤ cache.generation) : moved.Ahead after := by
  cases passes with
  | reload => exact ⟨UInt64.le_refl _, past⟩
  | remiss generation outdated =>
      intro snapshot stored
      have differs : snapshot.generation < generation :=
        UInt64.lt_of_le_of_ne (known.2 snapshot stored) (outdated snapshot stored)
      exact UInt64.lt_of_lt_of_le differs known.1
  | tag => exact ⟨UInt64.le_refl _, known⟩
  | sort generation => exact known
  | _ => trivial

theorem carried (passes : Passes cache reader after moved) {snapshot : Snapshot ρ}
    (carries : moved.carries? = some snapshot) :
    reader.carries? = some snapshot ∨ cache.published = some snapshot ∨
      reader.publishes? cache = some snapshot := by
  cases passes with
  | hit found published => cases carries; exact .inr (.inl published)
  | rehit found published => cases carries; exact .inr (.inl published)
  | publish => exact .inr (.inr carries)
  | recompute | release | record | recordHolding => exact .inl carries
  | _ => cases carries

end Passes

end Reader

namespace Reading

def publishes (state : Reading ρ) : ReadAct ρ → List (Snapshot ρ)
  | .step number => (state.readers[number]?.bind (Reader.publishes? state.cache)).toList
  | _ => []

def publications (acts : List (ReadAct ρ)) (state : Reading ρ) : List (Snapshot ρ) :=
  Execution.observed step publishes acts state

variable {store : Store ρ} {acts : List (ReadAct ρ)} {state next : Reading ρ} {act : ReadAct ρ}
  {snapshots : List (Snapshot ρ)}

structure Sequenced (snapshots : List (Snapshot ρ)) (state : Reading ρ) : Prop where
  latest : state.cache.published = snapshots.getLast?
  increasing : snapshots.Pairwise fun earlier later => earlier.generation < later.generation
  past : ∀ snapshot ∈ snapshots, snapshot.generation ≤ state.cache.generation
  /-- A serial number names one published snapshot. -/
  numbered : snapshots.map Snapshot.serial = List.range state.cache.issued
  ahead : ∀ reader ∈ state.readers, reader.Ahead state.cache
  carried : ∀ reader ∈ state.readers, ∀ snapshot, reader.carries? = some snapshot →
    snapshot ∈ snapshots

theorem sequenced_start (store : Store ρ) : Sequenced [] (start store) where
  latest := rfl
  increasing := .nil
  past := nofun
  numbered := rfl
  ahead := nofun
  carried := nofun

theorem Sequenced.mem_of_published (sequenced : Sequenced snapshots state) {snapshot : Snapshot ρ}
    (published : state.cache.published = some snapshot) : snapshot ∈ snapshots :=
  List.mem_of_getLast? (sequenced.latest.symm.trans published)

theorem Sequenced.latest_of_mem (sequenced : Sequenced snapshots state) {snapshot : Snapshot ρ}
    (member : snapshot ∈ snapshots) :
    ∃ last, state.cache.published = some last ∧
      (snapshot = last ∨ snapshot.generation < last.generation) := by
  rw [sequenced.latest]
  rcases List.eq_nil_or_concat' snapshots with rfl | ⟨earlier, last, rfl⟩
  · cases member
  · refine ⟨last, List.getLast?_concat, ?_⟩
    rcases List.mem_append.mp member with old | new
    · exact .inr ((List.pairwise_append.mp sequenced.increasing).2.2 snapshot old last
        (List.mem_singleton_self _))
    · exact .inl (List.mem_singleton.mp new)

theorem Sequenced.published_of_current (sequenced : Sequenced snapshots state)
    {snapshot : Snapshot ρ} (member : snapshot ∈ snapshots)
    (current : snapshot.generation = state.cache.generation) :
    state.cache.published = some snapshot := by
  rcases sequenced.latest_of_mem member with ⟨last, published, rfl | older⟩
  · exact published
  · have past := sequenced.past last (sequenced.mem_of_published published)
    rw [current] at older
    exact absurd (UInt64.lt_of_lt_of_le older past) (UInt64.lt_irrefl _)

theorem generation_le_of_step (ran : run acts (start store) = some state)
    (stepped : step state act = some next) (few : invalidations (acts ++ [act]) < 2 ^ 64) :
    state.cache.generation ≤ next.cache.generation := by
  have longer : run (acts ++ [act]) (start store) = some next :=
    (Execution.run_concat acts act).trans (Option.bind_eq_some_iff.mpr ⟨state, ran, stepped⟩)
  exact generation_le_of_prefix (List.prefix_append acts [act]) ran longer few

theorem published_perform (cache : Cache ρ) (effect : Effect ρ) :
    (cache.perform effect).published = cache.published ∧
      (cache.perform effect).issued = cache.issued := by
  cases effect <;> exact ⟨rfl, rfl⟩

theorem Sequenced.kept (sequenced : Sequenced snapshots state)
    (published : next.cache.published = state.cache.published)
    (issued : next.cache.issued = state.cache.issued)
    (later : state.cache.generation ≤ next.cache.generation)
    (readers : ∀ reader ∈ next.readers, reader ∈ state.readers ∨ reader = .starting) :
    Sequenced snapshots next := by
  refine ⟨published.trans sequenced.latest, sequenced.increasing, ?past, ?numbered, ?ahead,
    ?carried⟩
  case past => exact fun snapshot member => UInt64.le_trans (sequenced.past snapshot member) later
  case numbered => rw [issued]; exact sequenced.numbered
  case ahead =>
    intro reader member
    rcases readers reader member with old | rfl
    · exact (sequenced.ahead reader old).mono published later
    · trivial
  case carried =>
    intro reader member snapshot carries
    rcases readers reader member with old | rfl
    · exact sequenced.carried reader old snapshot carries
    · cases carries

theorem Sequenced.of_passes (sequenced : Sequenced snapshots state) (exclusive : Exclusive state)
    {number : Nat} {reader moved : Reader ρ} {cache : Cache ρ}
    (present : state.readers[number]? = some reader)
    (passes : Reader.Passes state.cache reader cache moved) :
    Sequenced (snapshots ++ (reader.publishes? state.cache).toList)
      { cache, readers := state.readers.set number moved } := by
  have known := sequenced.ahead reader (List.mem_of_getElem? present)
  have past : ∀ snapshot, state.cache.published = some snapshot →
      snapshot.generation ≤ state.cache.generation := fun snapshot published =>
    sequenced.past snapshot (sequenced.mem_of_published published)
  have generation := passes.generation_eq
  have follows := passes.ahead known past
  have carried : ∀ other ∈ state.readers.set number moved, ∀ snapshot,
      other.carries? = some snapshot →
        snapshot ∈ snapshots ++ (reader.publishes? state.cache).toList := by
    intro other member snapshot carries
    rcases List.mem_or_eq_of_mem_set member with old | rfl
    · exact List.mem_append_left _ (sequenced.carried other old snapshot carries)
    · rcases passes.carried carries with before | found | issued
      · exact List.mem_append_left _
          (sequenced.carried reader (List.mem_of_getElem? present) snapshot before)
      · exact List.mem_append_left _ (sequenced.mem_of_published found)
      · rw [issued]
        exact List.mem_append_right _ (List.mem_singleton_self _)
  cases publishes : reader.publishes? state.cache with
  | none =>
      rcases passes.published_eq with ⟨published, issued⟩
      simp only [publishes, Option.none_or, Option.toList_none, List.length_nil,
        Nat.add_zero] at published issued
      simp only [publishes, Option.toList_none, List.append_nil] at carried ⊢
      refine ⟨published.trans sequenced.latest, sequenced.increasing, ?past, ?numbered, ?ahead,
        carried⟩
      case past => exact fun snapshot member => generation ▸ sequenced.past snapshot member
      case numbered => exact issued ▸ sequenced.numbered
      case ahead =>
        intro other member
        rcases List.mem_or_eq_of_mem_set member with old | rfl
        · exact (sequenced.ahead other old).mono published (generation ▸ UInt64.le_refl _)
        · exact follows
  | some fresh =>
      rcases passes.published_eq with ⟨published, issued⟩
      simp only [publishes, Option.some_or, Option.toList_some, List.length_singleton]
        at published issued
      simp only [publishes, Option.toList_some] at carried ⊢
      cases reader with
      | sorted tag policies =>
          cases publishes
          refine ⟨?latest, ?increasing, ?later, ?serials, ?others, carried⟩
          case latest => rw [List.getLast?_concat]; exact published
          case increasing =>
            refine List.pairwise_append.mpr ⟨sequenced.increasing, List.pairwise_singleton _ _, ?_⟩
            intro earlier old last new
            cases List.mem_singleton.mp new
            -- The latest snapshot so far is older, and all before it are older still.
            rcases sequenced.latest_of_mem old with ⟨latest, stored, rfl | older⟩
            · exact known.2 earlier stored
            · exact UInt64.lt_trans older (known.2 latest stored)
          case later =>
            intro snapshot member
            rcases List.mem_append.mp member with old | new
            · exact generation ▸ sequenced.past snapshot old
            · cases List.mem_singleton.mp new
              exact generation ▸ known.1
          case serials =>
            rw [List.map_append, sequenced.numbered, issued, List.range_succ]
            rfl
          case others =>
            intro other member
            rcases List.getElem?_of_mem member with ⟨place, found⟩
            rcases getElem?_moved found with ⟨-, rfl⟩ | ⟨different, old⟩
            · exact follows
            · -- Nobody else holds the lock, so nobody else knows of the published snapshot.
              apply Reader.Ahead.of_not_holds
              cases holds : other.holds with
              | false => rfl
              | true =>
                  exact absurd (exclusive.alone place number other _ old present holds rfl) different
      | _ => cases publishes

theorem Sequenced.of_step (sequenced : Sequenced snapshots state) (exclusive : Exclusive state)
    (later : state.cache.generation ≤ next.cache.generation)
    (stepped : step state act = some next) :
    Sequenced (snapshots ++ publishes state act) next := by
  cases act with
  | effect change =>
      cases stepped
      have unpublished := published_perform state.cache change
      simp only [publishes, List.append_nil]
      exact sequenced.kept unpublished.1 unpublished.2 later fun reader member => .inl member
  | begin =>
      cases stepped
      simp only [publishes, List.append_nil]
      refine sequenced.kept rfl rfl later fun reader member => ?_
      rcases List.mem_append.mp member with old | new
      · exact .inl old
      · exact .inr (List.mem_singleton.mp new)
  | step number =>
      rcases passes_of_step stepped with ⟨reader, cache, moved, present, passes, rfl⟩
      simp only [publishes, present, Option.bind_some]
      exact sequenced.of_passes exclusive present passes

theorem sequenced_of_run (ran : run acts (start store) = some state)
    (few : invalidations acts < 2 ^ 64) : Sequenced (publications acts (start store)) state := by
  refine Execution.run_history (fun acts state => invalidations acts < 2 ^ 64 →
    Sequenced (publications acts (start store)) state) (fun _ => sequenced_start store) ?_ ran few
  intro acts act state next reached sequenced stepped few
  have fewer := Nat.lt_of_le_of_lt (invalidations_mono (List.prefix_append acts [act])) few
  have noted : publications (acts ++ [act]) (start store) =
      publications acts (start store) ++ publishes state act :=
    Execution.observed_concat reached stepped
  rw [noted]
  exact (sequenced fewer).of_step (exclusive_of_run reached)
    (generation_le_of_step reached stepped few) stepped

/-- At most one snapshot is published for each generation there was. -/
theorem length_publications_le (ran : run acts (start store) = some state)
    (few : invalidations acts < 2 ^ 64) :
    (publications acts (start store)).length ≤ 1 + invalidations acts := by
  have sequenced := sequenced_of_run ran few
  have distinct : ((publications acts (start store)).map fun snapshot =>
      snapshot.generation.toNat).Nodup := by
    rw [List.Nodup, List.pairwise_map]
    exact sequenced.increasing.imp fun less =>
      Nat.ne_of_lt (UInt64.lt_iff_toNat_lt.mp less)
  have counted : ((publications acts (start store)).map fun snapshot =>
      snapshot.generation.toNat) ⊆ List.range (1 + invalidations acts) := by
    intro count member
    rcases List.mem_map.mp member with ⟨snapshot, published, rfl⟩
    have past := UInt64.le_iff_toNat_le.mp (sequenced.past snapshot published)
    rw [generation_eq ran, UInt64.toNat_ofNat_of_lt' few] at past
    exact List.mem_range.mpr (by omega)
  have bounded := (List.subperm_of_subset distinct counted).length_le
  simpa using bounded

end Reading

end PolicyWarden
