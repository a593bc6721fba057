import PolicyWarden.Identity
import PolicyWarden.Table

/-!
The store of compiled policies: at most one per identity, with the revision of the resource it was
compiled from. Readers see the policies in ascending order of their identities.
-/

namespace PolicyWarden

structure Entry (ρ : Type) where
  policy : ρ
  revision : Option String
deriving DecidableEq, Repr

abbrev Store (ρ : Type) := Table Identity (Entry ρ)

namespace Store

variable {ρ : Type}

def upsert (store : Store ρ) (identity : Identity) (policy : ρ) (revision : Option String) :
    Store ρ :=
  store.insert identity ⟨policy, revision⟩

/-- Takes the policy of an identity away and says whether there was one. -/
def remove (store : Store ρ) (identity : Identity) : Bool × Store ρ :=
  (store.contains identity, store.erase identity)

def revision (store : Store ρ) (identity : Identity) : Option String :=
  (store.find? identity).bind Entry.revision

def sortedEntries (store : Store ρ) : List (Identity × Entry ρ) :=
  store.entries.mergeSort fun left right => left.1.notAfter right.1

def sortedPolicies (store : Store ρ) : List ρ :=
  store.sortedEntries.map (·.2.policy)

def sortedIdentities (store : Store ρ) : List Identity :=
  store.sortedEntries.map (·.1)

end Store

end PolicyWarden
