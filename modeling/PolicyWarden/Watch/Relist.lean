import PolicyWarden.Resource.Policy

/-!
From what a watch tells to the identities that have to be reconciled. While the watch is down
objects may be deleted unseen; they are the stored ones that a new listing from its start to its end
does not name.
-/

namespace PolicyWarden

inductive WatchEvent where
  /-- The object is there, new or changed. -/
  | applied (resource : PolicyResource)
  | deleted (resource : PolicyResource)
  | listingBegun
  | listed (resource : PolicyResource)
  | listingDone

/-- Keeps the identities that the current listing has named so far, if there is one. -/
structure RelistTracker where
  listing : Option (List Identity) := none
deriving Repr

namespace RelistTracker

def missing (stored listing : List Identity) : List Identity :=
  (stored.filter fun identity => !listing.contains identity).mergeSort Identity.notAfter

def observe (tracker : RelistTracker) (stored : List Identity) :
    WatchEvent → List Identity × RelistTracker
  | .applied resource => (resource.identity?.toList, tracker)
  | .deleted resource => (resource.identity?.toList, tracker)
  | .listingBegun => ([], ⟨some []⟩)
  | .listed resource =>
      let named := resource.identity?.toList
      (named, ⟨tracker.listing.map (named ++ ·)⟩)
  | .listingDone =>
      match tracker.listing with
      | some listing => (missing stored listing, ⟨none⟩)
      | none => ([], tracker)

end RelistTracker

end PolicyWarden
