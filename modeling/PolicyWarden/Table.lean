/-!
Finite maps, kept as a list of pairs whose keys are distinct. `find?` is the view through which the
operations are described; the order of the pairs is the order in which the keys were first inserted.
-/

namespace PolicyWarden

structure Table (κ υ : Type) where
  entries : List (κ × υ)
  keysDistinct : entries.Pairwise fun first second => first.1 ≠ second.1

namespace Table

variable {κ υ : Type}

def empty : Table κ υ :=
  ⟨[], .nil⟩

instance : Inhabited (Table κ υ) := ⟨empty⟩

instance : EmptyCollection (Table κ υ) := ⟨empty⟩

def keys (table : Table κ υ) : List κ :=
  table.entries.map (·.1)

def values (table : Table κ υ) : List υ :=
  table.entries.map (·.2)

def size (table : Table κ υ) : Nat :=
  table.entries.length

def isEmpty (table : Table κ υ) : Bool :=
  table.entries.isEmpty

variable [DecidableEq κ]

def lookup (key : κ) : List (κ × υ) → Option υ
  | [] => none
  | (other, value) :: rest => if other = key then some value else lookup key rest

/-- The pairs with the value of `key` replaced, or with a pair added at the end. -/
def place (key : κ) (value : υ) : List (κ × υ) → List (κ × υ)
  | [] => [(key, value)]
  | (other, old) :: rest =>
      if other = key then (key, value) :: rest else (other, old) :: place key value rest

theorem mem_place_key {key : κ} {value : υ} {entries : List (κ × υ)} {entry : κ × υ}
    (member : entry ∈ place key value entries) :
    entry.1 = key ∨ entry ∈ entries := by
  induction entries with
  | nil => simp_all [place]
  | cons head rest induction =>
      simp only [place] at member
      split at member
      · rcases List.mem_cons.mp member with equal | member
        · exact .inl (equal ▸ rfl)
        · exact .inr (.tail _ member)
      · rcases List.mem_cons.mp member with equal | member
        · exact .inr (equal ▸ .head _)
        · exact (induction member).imp_right (.tail _)

theorem place_keysDistinct (key : κ) (value : υ) {entries : List (κ × υ)}
    (distinct : entries.Pairwise fun first second => first.1 ≠ second.1) :
    (place key value entries).Pairwise fun first second => first.1 ≠ second.1 := by
  induction distinct with
  | nil => simp [place]
  | @cons head rest apart _ induction =>
      simp only [place]
      split
      · next equal =>
          refine .cons (fun entry member => ?_) ‹_›
          exact equal ▸ apart entry member
      · next different =>
          refine .cons (fun entry member => ?_) induction
          rcases mem_place_key member with equal | member
          · exact equal ▸ different
          · exact apart entry member

def find? (table : Table κ υ) (key : κ) : Option υ :=
  lookup key table.entries

def contains (table : Table κ υ) (key : κ) : Bool :=
  (table.find? key).isSome

def insert (table : Table κ υ) (key : κ) (value : υ) : Table κ υ :=
  ⟨place key value table.entries, place_keysDistinct key value table.keysDistinct⟩

def erase (table : Table κ υ) (key : κ) : Table κ υ :=
  ⟨table.entries.filter fun entry => entry.1 ≠ key, table.keysDistinct.filter _⟩

theorem lookup_place (key other : κ) (value : υ) (entries : List (κ × υ)) :
    lookup other (place key value entries) =
      if other = key then some value else lookup other entries := by
  induction entries with
  | nil => simp [place, lookup, eq_comm]
  | cons head rest induction =>
      by_cases same : head.1 = key <;> by_cases equal : other = key <;>
        simp_all [place, lookup, eq_comm]

theorem lookup_filter_ne (key other : κ) (entries : List (κ × υ)) :
    lookup other (entries.filter fun entry => entry.1 ≠ key) =
      if other = key then none else lookup other entries := by
  induction entries with
  | nil => simp [lookup]
  | cons head rest induction =>
      by_cases same : head.1 = key <;> by_cases equal : other = key <;>
        by_cases found : head.1 = other <;> simp_all [lookup]

theorem length_place (key : κ) (value : υ) (entries : List (κ × υ)) :
    (place key value entries).length + (lookup key entries).isSome.toNat = entries.length + 1 := by
  induction entries with
  | nil => rfl
  | cons head rest induction =>
      by_cases same : head.1 = key
      · simp [place, lookup, same]
      · simp only [place, lookup, same, if_false, List.length_cons]
        omega

theorem length_filter_ne {entries : List (κ × υ)} (key : κ)
    (distinct : entries.Pairwise fun first second => first.1 ≠ second.1) :
    (entries.filter fun entry => entry.1 ≠ key).length + (lookup key entries).isSome.toNat =
      entries.length := by
  induction distinct with
  | nil => rfl
  | @cons head rest apart _ induction =>
      by_cases same : head.1 = key
      · have kept : (rest.filter fun entry => entry.1 ≠ key) = rest :=
          List.filter_eq_self.mpr fun entry member =>
            decide_eq_true fun equal => apart entry member (same.trans equal.symm)
        rw [List.filter_cons_of_neg (by simp [same]), kept]
        simp [lookup, same]
      · rw [List.filter_cons_of_pos (by simp [same])]
        simp only [lookup, same, if_false, List.length_cons]
        omega

@[simp] theorem find?_empty (key : κ) : (empty : Table κ υ).find? key = none := rfl

@[simp] theorem find?_insert (table : Table κ υ) (key other : κ) (value : υ) :
    (table.insert key value).find? other =
      if other = key then some value else table.find? other :=
  lookup_place key other value table.entries

@[simp] theorem find?_erase (table : Table κ υ) (key other : κ) :
    (table.erase key).find? other = if other = key then none else table.find? other :=
  lookup_filter_ne key other table.entries

theorem contains_of_find? {table : Table κ υ} {key : κ} {value : υ}
    (found : table.find? key = some value) : table.contains key = true := by
  simp [contains, found]

theorem find?_of_not_contains {table : Table κ υ} {key : κ} (missing : table.contains key = false) :
    table.find? key = none := by
  simpa [contains] using missing

@[simp] theorem contains_insert (table : Table κ υ) (key other : κ) (value : υ) :
    (table.insert key value).contains other = (other = key || table.contains other) := by
  by_cases same : other = key <;> simp [contains, same]

@[simp] theorem contains_erase (table : Table κ υ) (key other : κ) :
    (table.erase key).contains other = (other ≠ key && table.contains other) := by
  by_cases same : other = key <;> simp [contains, same]

/-- A key is added only if it was missing. -/
theorem size_insert (table : Table κ υ) (key : κ) (value : υ) :
    (table.insert key value).size + (table.contains key).toNat = table.size + 1 :=
  length_place key value table.entries

theorem size_erase (table : Table κ υ) (key : κ) :
    (table.erase key).size + (table.contains key).toNat = table.size :=
  length_filter_ne key table.keysDistinct

end Table

end PolicyWarden
