import PolicyWarden.Proofs.Execution
import PolicyWarden.Proofs.Store.Arrangement

/-!
The store as a finite map. Writers on any number of threads replace and take away entries, one at a
time and in any order among the threads. What the store shows then is the map from each identity to
the last entry that was written for it: `shows_lastWritten` says so of every schedule. Nothing else
of the past can be seen, nor the order in which the entries happen to be kept, so that writers of
distinct identities leave the same behind however they take turns.
-/

namespace PolicyWarden

variable {ρ : Type}

inductive Write (ρ : Type) where
  | upsert (identity : Identity) (policy : ρ) (revision : Option String)
  | remove (identity : Identity)

namespace Write

def identity : Write ρ → Identity
  | .upsert identity _ _ => identity
  | .remove identity => identity

def entry? : Write ρ → Option (Entry ρ)
  | .upsert _ policy revision => some ⟨policy, revision⟩
  | .remove _ => none

def perform (store : Store ρ) : Write ρ → Store ρ
  | .upsert identity policy revision => Store.upsert store identity policy revision
  | .remove identity => (Store.remove store identity).2

/-- The entry of an identity after these writes: what the last one of the identity has left, and what
was there before if there is none. -/
def lastWritten (before : Identity → Option (Entry ρ)) (writes : List (Write ρ))
    (identity : Identity) : Option (Entry ρ) :=
  match (writes.filter (·.identity = identity)).getLast? with
  | some write => write.entry?
  | none => before identity

variable {before : Identity → Option (Entry ρ)} {writes : List (Write ρ)}

theorem find?_perform (store : Store ρ) (write : Write ρ) (identity : Identity) :
    (write.perform store).find? identity =
      if identity = write.identity then write.entry? else store.find? identity := by
  cases write with
  | upsert => exact Table.find?_insert _ _ _ _
  | remove => exact Table.find?_erase _ _ _

theorem lastWritten_concat (write : Write ρ) (identity : Identity) :
    lastWritten before (writes ++ [write]) identity =
      if identity = write.identity then write.entry? else lastWritten before writes identity := by
  by_cases same : write.identity = identity
  · simp [lastWritten, same]
  · simp [lastWritten, same, Ne.symm same]

end Write

/-- All that can be asked of the store is answered from this finite map. -/
structure Store.Shows (store : Store ρ) (entries : Identity → Option (Entry ρ)) : Prop where
  contains : ∀ identity, store.contains identity = (entries identity).isSome
  revision : ∀ identity, Store.revision store identity = (entries identity).bind Entry.revision
  removes : ∀ identity, (Store.remove store identity).1 = (entries identity).isSome
  keys : store.keys.Nodup ∧ ∀ identity, identity ∈ store.keys ↔ (entries identity).isSome = true
  size : store.size = store.keys.length
  isEmpty : store.isEmpty = true ↔ ∀ identity, entries identity = none
  sorted : ∃ identities : List Identity,
    identities.Pairwise (fun left right => left.bytes < right.bytes) ∧
    (∀ identity, identity ∈ identities ↔ (entries identity).isSome = true) ∧
    store.sortedPolicies.map some = identities.map fun identity =>
      (entries identity).map Entry.policy

theorem Store.shows_find? (store : Store ρ) : store.Shows store.find? where
  contains _ := rfl
  revision _ := rfl
  removes _ := rfl
  keys := ⟨store.nodup_keys, fun _ => Table.mem_keys_iff⟩
  size := (List.length_map _).symm
  isEmpty := Table.isEmpty_iff
  sorted := ⟨store.sortedIdentities, store.pairwise_sortedIdentities,
    fun _ => mem_sortedIdentities_iff, store.map_sortedPolicies⟩

structure Writing (ρ : Type) where
  store : Store ρ
  waiting : List (List (Write ρ))
  written : List (Write ρ) := []

namespace Writing

def step (state : Writing ρ) (thread : Nat) : Option (Writing ρ) :=
  match state.waiting[thread]? with
  | some (write :: rest) =>
      some {
        store := write.perform state.store
        waiting := state.waiting.set thread rest
        written := state.written ++ [write] }
  | _ => none

def start (store : Store ρ) (threads : List (List (Write ρ))) : Writing ρ :=
  { store, waiting := threads }

abbrev run (schedule : List Nat) (state : Writing ρ) : Option (Writing ρ) :=
  Execution.run step schedule state

def IsDone (state : Writing ρ) : Prop :=
  ∀ rest ∈ state.waiting, rest = []

/-- No two threads write for the same identity, however often each of them writes for its own. -/
def Disjoint (threads : List (List (Write ρ))) : Prop :=
  threads.Pairwise fun first second =>
    ∀ left ∈ first, ∀ right ∈ second, left.identity ≠ right.identity

variable {store : Store ρ} {threads : List (List (Write ρ))} {schedule : List Nat}
  {state next : Writing ρ} {thread : Nat}

theorem step_cases (stepped : step state thread = some next) :
    ∃ write rest before after, state.waiting = before ++ (write :: rest) :: after ∧
      next = ⟨write.perform state.store, before ++ rest :: after, state.written ++ [write]⟩ := by
  unfold step at stepped
  split at stepped
  · next write rest present =>
      cases stepped
      rcases List.getElem?_eq_some_iff.mp present with ⟨inside, here⟩
      rcases List.exists_of_set inside with ⟨before, after, whole, -, changed⟩
      exact ⟨write, rest, before, after, here ▸ whole, congrArg (Writing.mk _ · _) changed⟩
  · cases stepped

theorem find?_run (ran : run schedule (start store threads) = some state) (identity : Identity) :
    state.store.find? identity = Write.lastWritten store.find? state.written identity := by
  refine Execution.run_invariant (fun state : Writing ρ =>
    state.store.find? identity = Write.lastWritten store.find? state.written identity) rfl ?_ ran
  intro state thread next known stepped
  rcases step_cases stepped with ⟨write, rest, before, after, -, rfl⟩
  rw [Write.find?_perform, Write.lastWritten_concat, known]

theorem written_perm (ran : run schedule (start store threads) = some state) :
    (state.written ++ state.waiting.flatten).Perm threads.flatten := by
  refine Execution.run_invariant (fun state : Writing ρ =>
    (state.written ++ state.waiting.flatten).Perm threads.flatten) (.refl _) ?_ ran
  intro state thread next known stepped
  rcases step_cases stepped with ⟨write, rest, before, after, split, rfl⟩
  refine .trans ?_ known
  simp only [split, List.flatten_append, List.flatten_cons, List.append_assoc, List.cons_append,
    List.nil_append]
  exact (List.perm_middle.symm).append_left state.written

theorem Disjoint.tail {before after : List (List (Write ρ))} {write : Write ρ}
    {rest : List (Write ρ)} (apart : Disjoint (before ++ (write :: rest) :: after)) :
    Disjoint (before ++ rest :: after) := by
  rw [Disjoint, List.pairwise_append, List.pairwise_cons] at apart ⊢
  rcases apart with ⟨earlier, ⟨here, later⟩, across⟩
  have kept : ∀ other ∈ after, ∀ left ∈ rest, ∀ right ∈ other, left.identity ≠ right.identity :=
    fun other member left inside => here other member left (.tail _ inside)
  refine ⟨earlier, ⟨kept, later⟩, ?_⟩
  intro first member second present left inside right there
  rcases List.mem_cons.mp present with rfl | present
  · exact across first member _ (.head _) left inside right (.tail _ there)
  · exact across first member second (.tail _ present) left inside right there

theorem filter_written (apart : Disjoint threads)
    (ran : run schedule (start store threads) = some state) (identity : Identity) :
    (state.written ++ state.waiting.flatten).filter (·.identity = identity) =
      threads.flatten.filter (·.identity = identity) := by
  -- The threads stay apart, since a step only shortens one of them.
  let holds (state : Writing ρ) : Prop := Disjoint state.waiting ∧
    (state.written ++ state.waiting.flatten).filter (·.identity = identity) =
      threads.flatten.filter (·.identity = identity)
  suffices kept : holds state from kept.2
  refine Execution.run_invariant holds ⟨apart, rfl⟩ ?_ ran
  rintro state thread next ⟨apart, known⟩ stepped
  rcases step_cases stepped with ⟨write, rest, before, after, split, rfl⟩
  rw [split] at apart known
  refine ⟨apart.tail, .trans ?_ known⟩
  by_cases same : write.identity = identity
  · -- The threads before this one have nothing for the identity, so that this write is the next one
    -- for it.
    have others : before.flatten.filter (·.identity = identity) = [] := by
      rw [List.filter_eq_nil_iff]
      intro other member equal
      rcases List.mem_flatten.mp member with ⟨first, inside, here⟩
      exact (List.pairwise_append.mp apart).2.2 first inside _ (.head _) other here write (.head _)
        ((of_decide_eq_true equal).trans same.symm)
    simp [others, same]
  · simp [same]

theorem find?_of_isDone (apart : Disjoint threads)
    (ran : run schedule (start store threads) = some state) (done : state.IsDone)
    (identity : Identity) :
    state.store.find? identity = Write.lastWritten store.find? threads.flatten identity := by
  have same := filter_written apart ran identity
  rw [List.flatten_eq_nil_iff.mpr done, List.append_nil] at same
  rw [find?_run ran, Write.lastWritten, same, Write.lastWritten]

/-- After any run of any number of writers the store shows just the map from each identity to the
entry that was last written for it: what it says of an identity, which identities it names and how
many, and the policies in the order of the identities. That order is the same for all stores that
show the map, and it is what anyone arrives at who takes the entries in any order and sorts them by
their identities. Writers of distinct identities leave the same behind however they take turns. -/
theorem shows_lastWritten (ran : run schedule (start store threads) = some state) :
    (state.written ++ state.waiting.flatten).Perm threads.flatten ∧
    state.store.Shows (Write.lastWritten store.find? state.written) ∧
    (∀ other : Store ρ, (∀ identity, other.find? identity = state.store.find? identity) →
      other.sortedPolicies = state.store.sortedPolicies) ∧
    (∀ listed sorted : List (Identity × Entry ρ), listed.Perm state.store.entries →
      sorted.Perm listed →
      sorted.Pairwise (fun left right => left.1.notAfter right.1 = true) →
      sorted.map (·.2.policy) = state.store.sortedPolicies) ∧
    (Disjoint threads → state.IsDone →
      state.store.Shows (Write.lastWritten store.find? threads.flatten) ∧
      ∀ turns other, run turns (start store threads) = some other → other.IsDone →
        other.store.sortedPolicies = state.store.sortedPolicies) := by
  have alike : ∀ left right : Store ρ, (∀ identity, left.find? identity = right.find? identity) →
      left.sortedPolicies = right.sortedPolicies := fun left right same =>
    congrArg (List.map _) (Store.sortedEntries_congr same)
  refine ⟨written_perm ran, ?shows, fun other => alike other state.store, ?sorted, ?turns⟩
  case shows =>
    rw [← funext (find?_run ran)]
    exact state.store.shows_find?
  case sorted =>
    intro listed sorted whole same ascending
    exact congrArg (List.map _) (Store.eq_sortedEntries (same.trans whole) ascending)
  case turns =>
    intro apart done
    refine ⟨?_, fun turns other ranOther doneOther => alike _ _ fun identity => ?_⟩
    · rw [← funext (find?_of_isDone apart ran done)]
      exact state.store.shows_find?
    · rw [find?_of_isDone apart ran done, find?_of_isDone apart ranOther doneOther]

def stocked : Store Nat :=
  Store.upsert ∅ ⟨"b"⟩ 0 none

def crossing : List (List (Write Nat)) :=
  [[.upsert ⟨"ns/é"⟩ 1 none, .upsert ⟨"ns/é"⟩ 2 (some "2")],
    [.upsert ⟨"ns/z"⟩ 3 none, .remove ⟨"b"⟩]]

theorem shows_lastWritten_crossing : ∃ one other,
    run [0, 1, 0, 1] (start stocked crossing) = some one ∧
    run [1, 1, 0, 0] (start stocked crossing) = some other ∧ one.store.keys ≠ other.store.keys ∧
    Store.revision one.store ⟨"ns/é"⟩ = some "2" ∧ one.store.contains ⟨"b"⟩ = false ∧
    one.store.sortedPolicies = [3, 2] ∧ other.store.sortedPolicies = [3, 2] := by
  have apart : Disjoint crossing := by
    simp [Disjoint, crossing, Write.identity]
  have ran : run [0, 1, 0, 1] (start stocked crossing) = some _ := rfl
  rcases shows_lastWritten ran with ⟨-, shown, -, arranged, turns⟩
  have again : run [1, 1, 0, 0] (start stocked crossing) = some _ := rfl
  have policies := arranged _ [(⟨"ns/z"⟩, ⟨3, none⟩), (⟨"ns/é"⟩, ⟨2, some "2"⟩)] (.refl _)
    (.swap _ _ _) (by decide)
  have done : ∀ rest ∈ [[], []], rest = ([] : List (Write Nat)) := by decide
  refine ⟨_, _, ran, again, by decide, shown.revision _, shown.contains _, policies.symm, ?_⟩
  exact ((turns apart done).2 _ _ again done).trans policies.symm

end Writing

end PolicyWarden
