import Mathlib.Data.List.Induction
import PolicyWarden.Watch.Relist

/-!
What a tracker emits, told from the events alone. Of all events before it an emission depends only
on the objects that were listed since the latest beginning of a listing, unless that listing is done
already; `emitted_eq_missing` says so for every sequence of events, however malformed.
-/

namespace PolicyWarden

namespace WatchEvent

def resource? : WatchEvent → Option PolicyResource
  | .applied resource | .deleted resource | .listed resource => some resource
  | .listingBegun | .listingDone => none

def listed? : WatchEvent → Option Identity
  | .listed resource => resource.identity?
  | _ => none

def matters : WatchEvent → Bool
  | .listingBegun | .listingDone => true
  | .listed resource => resource.identity?.isSome
  | .applied _ | .deleted _ => false

end WatchEvent

structure Observation where
  event : WatchEvent
  stored : List Identity

namespace RelistTracker

variable {before since earlier told listing : List Observation} {stored : List Identity}
  {identity : Identity}

def follow (told : List Observation) : RelistTracker :=
  told.foldl (fun tracker observation =>
    (tracker.observe observation.stored observation.event).2) {}

def emitted (told : List Observation) (event : WatchEvent) (stored : List Identity) :
    List Identity :=
  ((follow told).observe stored event).1

def named (told : List Observation) : List Identity :=
  told.filterMap (·.event.listed?)

def Within (told : List Observation) : Prop :=
  ∀ observation ∈ told, observation.event ≠ .listingBegun ∧ observation.event ≠ .listingDone

/-- A listing is under way, and these are the observations since it began. -/
def UnderWay (told since : List Observation) : Prop :=
  ∃ before stored, told = before ++ ⟨.listingBegun, stored⟩ :: since ∧ Within since

def EmittedFor (before listing : List Observation) (event : WatchEvent) (identity : Identity) :
    Prop :=
  ∃ earlier stored later, listing = earlier ++ ⟨event, stored⟩ :: later ∧
    identity ∈ emitted (before ++ earlier) event stored

theorem follow_concat (told : List Observation) (observation : Observation) :
    follow (told ++ [observation]) =
      ((follow told).observe observation.stored observation.event).2 := by
  simp [follow]

theorem follow_append (earlier later : List Observation) :
    follow (earlier ++ later) = later.foldl (fun tracker observation =>
      (tracker.observe observation.stored observation.event).2) (follow earlier) :=
  List.foldl_append

theorem observe_within {event : WatchEvent} (begins : event ≠ .listingBegun)
    (ends : event ≠ .listingDone) (tracker : RelistTracker) (stored : List Identity) :
    (tracker.observe stored event).2 =
      ⟨tracker.listing.map (event.listed?.toList ++ ·)⟩ := by
  cases event with
  | applied | deleted => simp [observe, WatchEvent.listed?]
  | listed resource => rfl
  | listingBegun => exact absurd rfl begins
  | listingDone => exact absurd rfl ends

theorem follow_listingBegun (before since : List Observation) (stored : List Identity) :
    follow (before ++ ⟨.listingBegun, stored⟩ :: since) =
      follow (⟨.listingBegun, stored⟩ :: since) := by
  rw [follow_append]
  rfl

theorem listing_of_within (within : Within since) :
    (follow (⟨.listingBegun, stored⟩ :: since)).listing = some (named since).reverse := by
  induction since using List.reverseRecOn with
  | nil => rfl
  | append_singleton since observation induction =>
      have known := induction fun other member => within other (List.mem_append_left _ member)
      rcases within observation (List.mem_append_right _ (List.mem_singleton_self _)) with
        ⟨begins, ends⟩
      rw [← List.cons_append, follow_concat, observe_within begins ends, known]
      cases listed : observation.event.listed? <;> simp [named, listed]

theorem listing_of_underWay (underWay : UnderWay told since) :
    (follow told).listing = some (named since).reverse := by
  rcases underWay with ⟨before, stored, rfl, within⟩
  rw [follow_listingBegun]
  exact listing_of_within within

theorem listing_eq_none (idle : ∀ since, ¬UnderWay told since) :
    (follow told).listing = none := by
  induction told using List.reverseRecOn with
  | nil => rfl
  | append_singleton told observation induction =>
      rcases observation with ⟨event, stored⟩
      rw [follow_concat]
      by_cases begins : event = .listingBegun
      · subst begins
        exact absurd ⟨told, stored, rfl, List.forall_mem_nil _⟩ (idle [])
      by_cases ends : event = .listingDone
      · subst ends
        simp only [observe]
        split
        · rfl
        · assumption
      -- Any other event leaves the listing under way that was under way before it.
      have before : ∀ since, ¬UnderWay told since := by
        rintro since ⟨before, begun, rfl, within⟩
        refine idle (since ++ [⟨event, stored⟩]) ⟨before, begun, by simp, fun other member => ?_⟩
        rcases List.mem_append.mp member with old | new
        · exact within other old
        · exact List.mem_singleton.mp new ▸ ⟨begins, ends⟩
      rw [observe_within begins ends, induction before]
      rfl

theorem pairwise_missing (stored listing : List Identity) :
    (missing stored listing).Pairwise fun left right => left.notAfter right = true := by
  have transitive : ∀ first second third : Identity, first.notAfter second = true →
      second.notAfter third = true → first.notAfter third = true :=
    fun _ _ _ => Identity.notAfter_trans
  exact List.pairwise_mergeSort transitive Identity.notAfter_total _

theorem perm_missing (stored listing : List Identity) :
    (missing stored listing).Perm (stored.filter fun identity => !listing.contains identity) :=
  List.mergeSort_perm _ _

theorem emitted_listingDone (underWay : UnderWay told since) (stored : List Identity) :
    emitted told .listingDone stored = missing stored (named since).reverse := by
  simp [emitted, observe, listing_of_underWay underWay]

theorem mem_emitted_listingDone (underWay : UnderWay told since) :
    identity ∈ emitted told .listingDone stored ↔ identity ∈ stored ∧ identity ∉ named since := by
  rw [emitted_listingDone underWay, (perm_missing _ _).mem_iff]
  simp

theorem emitted_listingDone_of_idle (idle : ∀ since, ¬UnderWay told since)
    (stored : List Identity) : emitted told .listingDone stored = [] := by
  simp [emitted, observe, listing_eq_none idle]

theorem emitted_of_resource {event : WatchEvent} {resource : PolicyResource}
    (about : event.resource? = some resource) (told : List Observation) (stored : List Identity) :
    emitted told event stored = resource.identity?.toList := by
  cases event <;> cases about <;> rfl

theorem follow_filter_matters (told : List Observation) :
    follow (told.filter (·.event.matters)) = follow told := by
  induction told using List.reverseRecOn with
  | nil => rfl
  | append_singleton told observation induction =>
      rcases observation with ⟨event, stored⟩
      rw [List.filter_append, follow_concat]
      cases matters : event.matters with
      | true =>
          have kept : [Observation.mk event stored].filter (·.event.matters) =
              [⟨event, stored⟩] := by simp [matters]
          rw [kept, follow_concat, induction]
      | false =>
          have dropped : [Observation.mk event stored].filter (·.event.matters) = [] := by
            simp [matters]
          have unnamed : event.listed? = none ∧ event ≠ .listingBegun ∧ event ≠ .listingDone := by
            cases event <;> simp_all [WatchEvent.matters, WatchEvent.listed?]
          rcases unnamed with ⟨unlisted, begins, ends⟩
          rw [dropped, List.append_nil, induction, observe_within begins ends, unlisted]
          cases follow told with
          | mk listing => cases listing <;> rfl

theorem emittedFor_of_mem_named (before : List Observation) (listed : identity ∈ named listing) :
    ∃ resource, EmittedFor before listing (.listed resource) identity := by
  rcases List.mem_filterMap.mp listed with ⟨⟨event, stored⟩, member, names⟩
  rcases List.append_of_mem member with ⟨earlier, later, split⟩
  cases event with
  | listed resource =>
      refine ⟨resource, earlier, stored, later, split, ?_⟩
      rw [emitted_of_resource rfl]
      exact Option.mem_toList.mpr names
  | _ => cases names

theorem mem_named_of_emittedFor {resource : PolicyResource}
    (emits : EmittedFor before listing (.listed resource) identity) : identity ∈ named listing := by
  rcases emits with ⟨earlier, stored, later, rfl, member⟩
  rw [emitted_of_resource rfl] at member
  exact List.mem_filterMap.mpr ⟨⟨.listed resource, stored⟩, by simp, Option.mem_toList.mp member⟩

/-- For every sequence of observations: the end of a listing emits, in ascending order, the stored
identities that were not listed since its latest beginning, and nothing if no listing is under way;
a beginning emits nothing, and an event about an object its identity, if it has a namespace. What was
before a beginning does not count, nor do events about objects outside the listing or without a
namespace. Over a complete listing every stored identity is emitted for an object of the listing or
at its end, and none for both. -/
theorem emitted_eq_missing (told : List Observation) (stored : List Identity) :
    (∀ since, UnderWay told since →
      (emitted told .listingDone stored).Pairwise (fun left right => left.notAfter right = true) ∧
      (emitted told .listingDone stored).Perm
        (stored.filter fun identity => identity ∉ named since)) ∧
    ((∀ since, ¬UnderWay told since) → emitted told .listingDone stored = []) ∧
    emitted told .listingBegun stored = [] ∧
    (∀ event resource, event.resource? = some resource → emitted told event stored =
      match resource.metadata.area with
      | some area => [.qualified area resource.name]
      | none => []) ∧
    (∀ before since begun, told = before ++ ⟨.listingBegun, begun⟩ :: since → ∀ event,
      emitted told event stored = emitted (⟨.listingBegun, begun⟩ :: since) event stored) ∧
    (∀ event, emitted (told.filter (·.event.matters)) event stored = emitted told event stored) ∧
    ∀ before listing begun, told = before ++ ⟨.listingBegun, begun⟩ :: listing → Within listing →
      (∀ identity ∈ stored, (∃ event, EmittedFor (before ++ [⟨.listingBegun, begun⟩]) listing event
          identity) ∨ identity ∈ emitted told .listingDone stored) ∧
      ∀ identity resource,
        EmittedFor (before ++ [⟨.listingBegun, begun⟩]) listing (.listed resource) identity →
          identity ∉ emitted told .listingDone stored := by
  refine ⟨?done, fun idle => emitted_listingDone_of_idle idle stored, rfl, ?objects, ?restarted,
    ?immaterial, ?complete⟩
  case done =>
    intro since underWay
    rw [emitted_listingDone underWay]
    refine ⟨pairwise_missing _ _, (perm_missing _ _).trans (.of_eq ?_)⟩
    simp
  case objects =>
    intro event resource about
    rw [emitted_of_resource about, PolicyResource.identity?]
    cases resource.metadata.area <;> rfl
  case restarted =>
    rintro before since begun rfl event
    rw [emitted, follow_listingBegun, emitted]
  case immaterial => exact fun event => by rw [emitted, follow_filter_matters, emitted]
  case complete =>
    rintro before listing begun rfl within
    have underWay : UnderWay (before ++ ⟨.listingBegun, begun⟩ :: listing) listing :=
      ⟨before, begun, rfl, within⟩
    constructor
    · intro identity known
      by_cases listed : identity ∈ named listing
      · rcases emittedFor_of_mem_named _ listed with ⟨resource, emits⟩
        exact .inl ⟨_, emits⟩
      · exact .inr ((mem_emitted_listingDone underWay).mpr ⟨known, listed⟩)
    · intro identity resource emits missed
      exact ((mem_emitted_listingDone underWay).mp missed).2 (mem_named_of_emittedFor emits)

def object (name : String) : PolicyResource :=
  ⟨{ area := some "ns", name := some name }, { policies := "" }⟩

example :
    emitted [⟨.listingBegun, []⟩, ⟨.listed (object "a"), []⟩, ⟨.listingBegun, []⟩,
        ⟨.listed (object "b"), []⟩, ⟨.applied (object "c"), []⟩] .listingDone
      [⟨"ns/c"⟩, ⟨"ns/b"⟩, ⟨"ns/a"⟩] = [⟨"ns/a"⟩, ⟨"ns/c"⟩] := by
  cbv

end RelistTracker

end PolicyWarden
