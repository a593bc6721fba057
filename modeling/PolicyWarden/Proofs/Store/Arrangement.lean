import Mathlib.Data.List.Nodup
import PolicyWarden.Cache.Store

/-!
The order in which a store is read. The entries of a store are known from its view, so that two
stores with the same view hold the same entries, and whoever sorts them, in whatever order they come
and by whatever method, arrives at one and the same list: `eq_sortedEntries` says so. In it the
identities ascend strictly in the order of their bytes.
-/

namespace PolicyWarden

namespace Identity

variable {left right : Identity}

/-- Bytes are compared as lists are: by the first one that differs, and what ends comes before what
goes on. -/
theorem compare_bytes_eq_lt_iff {left right : List UInt8} :
    compare left right = .lt ↔ left < right := by
  induction left generalizing right with
  | nil => cases right <;> simp [List.compare_nil_cons]
  | cons first left induction =>
      cases right with
      | nil => simp [List.compare_cons_nil]
      | cons second right =>
          have firsts : compare first second = .lt ↔ first < second := Std.compare_eq_lt
          have same : compare first second = .eq ↔ first = second := Std.compare_eq_iff_eq
          rw [List.compare_cons_cons, Ordering.then_eq_lt, List.cons_lt_cons_iff, firsts, same,
            induction]

theorem notAfter_antisymm (forth : left.notAfter right = true) (back : right.notAfter left = true) :
    left = right := by
  apply bytes_injective
  change (compare left.bytes right.bytes).isLE = true at forth
  change (compare right.bytes left.bytes).isLE = true at back
  exact Std.LawfulEqCmp.eq_of_compare (Std.OrientedCmp.isLE_antisymm forth back)

theorem bytes_lt_of_notAfter (before : left.notAfter right = true) (different : left ≠ right) :
    left.bytes < right.bytes := by
  change (compare left.bytes right.bytes).isLE = true at before
  rcases Ordering.isLE_iff_eq_lt_or_eq_eq.mp before with less | same
  · exact compare_bytes_eq_lt_iff.mp less
  · exact absurd (bytes_injective (Std.LawfulEqCmp.eq_of_compare same)) different

end Identity

namespace Table

variable {κ υ : Type}

theorem nodup_keys (table : Table κ υ) : table.keys.Nodup :=
  List.pairwise_map.mpr table.keysDistinct

variable [DecidableEq κ] {table left right : Table κ υ} {key : κ} {value : υ}

theorem mem_entries_iff : (key, value) ∈ table.entries ↔ table.find? key = some value := by
  rcases table with ⟨entries, distinct⟩
  change _ ↔ lookup key entries = some value
  induction distinct with
  | nil => simp [lookup]
  | @cons head rest apart _ induction =>
      rcases head with ⟨other, old⟩
      by_cases same : other = key
      · subst same
        have absent : (other, value) ∉ rest := fun member => apart _ member rfl
        simp [lookup, absent, eq_comm]
      · simp [lookup, same, Ne.symm same, induction]

theorem mem_keys_iff : key ∈ table.keys ↔ table.contains key = true := by
  simp [keys, contains, mem_entries_iff, Option.isSome_iff_exists]

theorem isEmpty_iff : table.isEmpty = true ↔ ∀ key, table.find? key = none := by
  rw [isEmpty, List.isEmpty_iff, List.eq_nil_iff_forall_not_mem]
  simp only [Prod.forall, mem_entries_iff, Option.eq_none_iff_forall_ne_some]

theorem perm_entries (same : ∀ key, left.find? key = right.find? key) :
    left.entries.Perm right.entries := by
  rw [List.perm_ext_iff_of_nodup left.nodup_keys.of_map right.nodup_keys.of_map]
  rintro ⟨key, value⟩
  rw [mem_entries_iff, mem_entries_iff, same]

end Table

namespace Store

variable {ρ : Type} {store left right : Store ρ}

theorem perm_sortedEntries (store : Store ρ) : store.sortedEntries.Perm store.entries :=
  List.mergeSort_perm _ _

theorem pairwise_sortedEntries (store : Store ρ) :
    store.sortedEntries.Pairwise fun left right => left.1.notAfter right.1 = true := by
  apply List.pairwise_mergeSort
  · intro first second third
    exact Identity.notAfter_trans
  · intro left right
    exact Identity.notAfter_total left.1 right.1

/-- Sorting the entries of a store by their identities has one result, whatever the order in which they
come and whatever becomes of equals: there are none. -/
theorem eq_sortedEntries {sorted : List (Identity × Entry ρ)} (same : sorted.Perm store.entries)
    (ascending : sorted.Pairwise fun left right => left.1.notAfter right.1 = true) :
    sorted = store.sortedEntries := by
  have both := same.trans store.perm_sortedEntries.symm
  refine both.eq_of_pairwise ?_ ascending store.pairwise_sortedEntries
  -- Each identity has one entry, so that there are no ties.
  rintro ⟨first, entry⟩ ⟨second, other⟩ member present forth back
  obtain rfl := Identity.notAfter_antisymm forth back
  have left := Table.mem_entries_iff.mp (same.mem_iff.mp member)
  have right := Table.mem_entries_iff.mp (store.perm_sortedEntries.mem_iff.mp present)
  cases left.symm.trans right
  rfl

theorem sortedEntries_congr (same : ∀ identity, left.find? identity = right.find? identity) :
    left.sortedEntries = right.sortedEntries :=
  eq_sortedEntries (left.perm_sortedEntries.trans (Table.perm_entries same))
    left.pairwise_sortedEntries

theorem pairwise_sortedIdentities (store : Store ρ) :
    store.sortedIdentities.Pairwise fun left right => left.bytes < right.bytes := by
  have distinct := store.keysDistinct.perm store.perm_sortedEntries.symm Ne.symm
  refine List.pairwise_map.mpr ((store.pairwise_sortedEntries.and distinct).imp ?_)
  rintro left right ⟨before, different⟩
  exact Identity.bytes_lt_of_notAfter before different

theorem mem_sortedIdentities_iff {identity : Identity} :
    identity ∈ store.sortedIdentities ↔ store.contains identity = true := by
  rw [← Table.mem_keys_iff]
  exact (store.perm_sortedEntries.map Prod.fst).mem_iff

theorem map_sortedPolicies (store : Store ρ) :
    store.sortedPolicies.map some =
      store.sortedIdentities.map fun identity => (store.find? identity).map Entry.policy := by
  rw [sortedPolicies, sortedIdentities, List.map_map, List.map_map]
  apply List.map_congr_left
  rintro ⟨identity, entry⟩ member
  have found := Table.mem_entries_iff.mp (store.perm_sortedEntries.mem_iff.mp member)
  simp [found]

end Store

end PolicyWarden
