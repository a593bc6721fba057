import PolicyWarden.Cluster.Fetch

/-!
Identities on their way from a watched object to the request for it. An identity joins a namespace and a
name at a slash and is divided at the first slash again. That gives back the two parts exactly if the
namespace holds no slash and neither part is empty: `split?_eq_some_iff` says of what an identity was
made, `split?_eq_none_iff` which identities have no parts, and `split?_inverts_qualified` collects what
follows for objects and the requests for them.
-/

namespace PolicyWarden.Identity

variable {area name : String} {identity : Identity}

section Slash

variable {character : Char} {characters before after : List Char}

theorem splitAtSlash_cons_of_ne (different : character ≠ '/') :
    splitAtSlash (character :: characters) =
      (splitAtSlash characters).map fun (before, after) => (character :: before, after) :=
  splitAtSlash.eq_3 _ _ different

theorem splitAtSlash_append (free : '/' ∉ before) :
    splitAtSlash (before ++ '/' :: after) = some (before, after) := by
  induction before with
  | nil => rfl
  | cons first before induction =>
      rw [List.mem_cons, not_or] at free
      rw [List.cons_append, splitAtSlash_cons_of_ne (Ne.symm free.1), induction free.2]
      rfl

theorem eq_append_of_splitAtSlash (divided : splitAtSlash characters = some (before, after)) :
    characters = before ++ '/' :: after ∧ '/' ∉ before := by
  induction characters generalizing before with
  | nil => cases divided
  | cons character rest induction =>
      by_cases slash : character = '/'
      · subst slash
        cases divided
        exact ⟨rfl, List.not_mem_nil⟩
      · rw [splitAtSlash_cons_of_ne slash] at divided
        rcases Option.map_eq_some_iff.mp divided with ⟨⟨before, after⟩, inner, equal⟩
        cases equal
        rcases induction inner with ⟨rfl, free⟩
        exact ⟨rfl, by simp [Ne.symm slash, free]⟩

theorem splitAtSlash_eq_some_iff :
    splitAtSlash characters = some (before, after) ↔
      characters = before ++ '/' :: after ∧ '/' ∉ before := by
  refine ⟨eq_append_of_splitAtSlash, ?_⟩
  rintro ⟨rfl, free⟩
  exact splitAtSlash_append free

theorem splitAtSlash_eq_none_iff : splitAtSlash characters = none ↔ '/' ∉ characters := by
  constructor
  · intro undivided member
    rcases List.eq_append_cons_of_mem member with ⟨before, after, rfl, free⟩
    rw [splitAtSlash_append free] at undivided
    cases undivided
  · intro free
    cases divided : splitAtSlash characters with
    | none => rfl
    | some parts =>
        rcases eq_append_of_splitAtSlash divided with ⟨rfl, -⟩
        simp at free

end Slash

theorem toList_qualified : (qualified area name).text.toList = area.toList ++ '/' :: name.toList :=
  String.toList_ofList

theorem split?_eq (identity : Identity) :
    identity.split? = (splitAtSlash identity.text.toList).bind fun (before, after) =>
      if before = [] ∨ after = [] then none
      else some (String.ofList before, String.ofList after) := by
  unfold split?
  rcases splitAtSlash identity.text.toList with _ | ⟨_ | _, _ | _⟩ <;> simp

/-- An identity has the parts of which it was made, if the first of them holds no slash and both are
given. -/
theorem split?_eq_some_iff :
    identity.split? = some (area, name) ↔
      identity = qualified area name ∧ area ≠ "" ∧ '/' ∉ area.toList ∧ name ≠ "" := by
  rw [split?_eq, Option.bind_eq_some_iff]
  constructor
  · rintro ⟨⟨before, after⟩, divided, given⟩
    -- What comes before the first slash holds none, whatever comes after it.
    rcases splitAtSlash_eq_some_iff.mp divided with ⟨same, free⟩
    rw [Option.ite_none_left_eq_some, Option.some.injEq, Prod.mk.injEq, not_or] at given
    rcases given with ⟨full, rfl, rfl⟩
    rw [← String.ofList_eq_empty_iff, ← String.ofList_eq_empty_iff] at full
    refine ⟨?_, full.1, by rwa [String.toList_ofList], full.2⟩
    rw [qualified, String.toList_ofList, String.toList_ofList, ← same, String.ofList_toList]
  · rintro ⟨rfl, area_ne, free, name_ne⟩
    refine ⟨(area.toList, name.toList), ?_, ?_⟩
    · rw [toList_qualified, splitAtSlash_append free]
    · simp [String.ofList_toList, area_ne, name_ne]

theorem split?_eq_none_iff :
    identity.split? = none ↔ '/' ∉ identity.text.toList ∨
      ∃ before after, identity.text.toList = before ++ '/' :: after ∧ '/' ∉ before ∧
        (before = [] ∨ after = []) := by
  rw [split?_eq, ← splitAtSlash_eq_none_iff]
  simp only [← and_assoc, ← splitAtSlash_eq_some_iff]
  rcases splitAtSlash identity.text.toList with _ | ⟨before, after⟩ <;>
    simp [and_assoc, Decidable.or_iff_not_imp_left]

theorem qualified_inj {other title : String} (free : '/' ∉ area.toList)
    (otherFree : '/' ∉ other.toList) (same : qualified area name = qualified other title) :
    area = other ∧ name = title := by
  have divided : splitAtSlash (area.toList ++ '/' :: name.toList) = some (area.toList, name.toList) :=
    splitAtSlash_append free
  rw [← toList_qualified, same, toList_qualified, splitAtSlash_append otherFree] at divided
  simp only [Option.some.injEq, Prod.mk.injEq, String.toList_inj] at divided
  exact ⟨divided.1.symm, divided.2.symm⟩

theorem request_of_split? (parts : identity.split? = some (area, name)) :
    identity.request =
      (Address.path? (Address.object area name)).elim (.error .invalidAddress) .ok := by
  simp only [request, parts]
  cases Address.path? (Address.object area name) <;> rfl

/-- A qualified identity has just the parts it was made of, exactly if its namespace is not empty and
holds no slash and its name is not empty; and whatever has parts was made of them. An identity has none
exactly if there is no slash in it or nothing on one side of the first one. So identities tell
namespaces without a slash and names apart, and the identity of an object with such a namespace and a
name has just these two as its parts. The address asked for is put together of the parts and nothing
else; that different parts make different addresses is not said, since what follows a '?' or a '#' in
a name is left out of the path. -/
theorem split?_inverts_qualified :
    (∀ (area name : String), (qualified area name).split? = some (area, name) ↔
      area ≠ "" ∧ '/' ∉ area.toList ∧ name ≠ "") ∧
    (∀ (identity : Identity) (area name : String), identity.split? = some (area, name) →
      qualified area name = identity ∧ '/' ∉ area.toList) ∧
    (∀ identity : Identity, identity.split? = none ↔ '/' ∉ identity.text.toList ∨
      ∃ before after, identity.text.toList = before ++ '/' :: after ∧ '/' ∉ before ∧
        (before = [] ∨ after = [])) ∧
    (∀ area other name title : String, '/' ∉ area.toList → '/' ∉ other.toList →
      qualified area name = qualified other title → area = other ∧ name = title) ∧
    ∀ (resource : PolicyResource) (area : String), resource.metadata.area = some area → area ≠ "" →
      '/' ∉ area.toList → resource.name ≠ "" → ∃ identity, resource.identity? = some identity ∧
        identity.split? = some (area, resource.name) ∧
        identity.request = (Address.path? (Address.object area resource.name)).elim
          (.error .invalidAddress) .ok := by
  refine ⟨?inverts, ?made, fun _ => split?_eq_none_iff, ?apart, ?asked⟩
  case inverts =>
    intro area name
    rw [split?_eq_some_iff, and_iff_right rfl]
  case made =>
    intro identity area name parts
    rcases split?_eq_some_iff.mp parts with ⟨rfl, -, free, -⟩
    exact ⟨rfl, free⟩
  case apart =>
    intro area other name title free otherFree same
    exact qualified_inj free otherFree same
  case asked =>
    intro resource area located area_ne free name_ne
    have parts : (qualified area resource.name).split? = some (area, resource.name) :=
      split?_eq_some_iff.mpr ⟨rfl, area_ne, free, name_ne⟩
    exact ⟨_, congrArg (Option.map _) located, parts, request_of_split? parts⟩

def slashed : PolicyResource where
  metadata := { name := "größe/π/2", area := "zürich" }
  specification := { policies := "" }

theorem split?_inverts_qualified_slashed :
    (qualified "zürich" "größe/π/2").split? = some ("zürich", "größe/π/2") ∧
    (⟨"/π"⟩ : Identity).split? = none ∧
    qualified "a" "b/c" ≠ qualified "ä" "b/c" ∧
    ∃ identity, slashed.identity? = some identity ∧
      identity.split? = some ("zürich", "größe/π/2") ∧
      identity.request = .ok
        "/apis/lattice.dev/v1alpha1/namespaces/zürich/authorizationpolicies/größe/π/2" := by
  rcases split?_inverts_qualified with ⟨inverts, made, partless, apart, asked⟩
  refine ⟨?_, ?_, ?_, ?_⟩
  · exact (inverts _ _).mpr (by decide)
  · exact (partless _).mpr (.inr ⟨[], ['π'], by decide, by decide, .inl rfl⟩)
  · intro same
    exact absurd (apart _ _ _ _ (by decide) (by decide) same).1 (by decide)
  · rcases asked slashed "zürich" rfl (by decide) (by decide) (by decide) with
      ⟨identity, named, parts, request⟩
    exact ⟨identity, named, parts, request⟩

end PolicyWarden.Identity
