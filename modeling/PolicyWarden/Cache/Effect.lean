import PolicyWarden.Cache.Snapshot

/-!
Changes to the policy cache, as values. Whoever decides what is to happen returns a list of effects;
`Cache.commit` brings them about in order.
-/

namespace PolicyWarden

inductive Effect (ρ : Type) where
  | upsert (identity : Identity) (policy : ρ) (revision : Option String)
  | remove (identity : Identity)
  | invalidate
  | record (occurrence : Occurrence)

namespace Effect

def mutates {ρ : Type} : Effect ρ → Bool
  | .upsert .. => true
  | .remove _ => true
  | .invalidate => false
  | .record _ => false

end Effect

namespace Cache

variable {ρ : Type}

def perform (cache : Cache ρ) : Effect ρ → Cache ρ
  | .upsert identity policy revision =>
      { cache with store := Store.upsert cache.store identity policy revision }
  | .remove identity => { cache with store := (Store.remove cache.store identity).2 }
  | .invalidate => cache.invalidate
  | .record occurrence => cache.record occurrence

def commit (cache : Cache ρ) (effects : List (Effect ρ)) : Cache ρ :=
  effects.foldl perform cache

@[simp] theorem commit_nil (cache : Cache ρ) : cache.commit [] = cache := rfl

@[simp] theorem commit_cons (cache : Cache ρ) (effect : Effect ρ) (rest : List (Effect ρ)) :
    cache.commit (effect :: rest) = (cache.perform effect).commit rest := rfl

end Cache

end PolicyWarden
