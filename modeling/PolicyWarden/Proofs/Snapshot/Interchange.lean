import PolicyWarden.Proofs.Reconcile.Effects

/-!
Caches that readers cannot tell apart. They may have counted differently, and the snapshot of one may
be of another generation, as long as each serves the same policies or none. An invalidation leaves
nothing to serve; this depends on it that no generation comes back, which `Cache.Dated` says.
-/

namespace PolicyWarden

variable {ρ : Type}

theorem Table.insert_insert {κ υ : Type} [DecidableEq κ] (table : Table κ υ) (key : κ) (value : υ) :
    (table.insert key value).insert key value = table.insert key value := by
  have placed (entries : List (κ × υ)) :
      place key value (place key value entries) = place key value entries := by
    induction entries with
    | nil => simp [place]
    | cons head rest induction =>
        by_cases same : head.1 = key <;> simp [place, same, induction]
  simp only [insert, placed]

inductive CacheAct (ρ : Type) where
  | read (cancelled : Bool)
  | perform (effect : Effect ρ)

def CacheAct.invalidates : CacheAct ρ → Bool
  | .perform effect => effect.invalidates
  | .read _ => false

namespace Cache

def reads (cache : Cache ρ) : List (CacheAct ρ) → List (Except ReadError (List ρ))
  | [] => []
  | .read cancelled :: rest =>
      (cache.policiesFor cancelled).1 :: (cache.policiesFor cancelled).2.reads rest
  | .perform effect :: rest => (cache.perform effect).reads rest

/-- The snapshot is of no generation that is still to come, and there are so many to come. -/
structure Dated (cache : Cache ρ) (coming : Nat) : Prop where
  past : ∀ snapshot, cache.published = some snapshot →
    snapshot.generation.toNat ≤ cache.generation.toNat
  room : cache.generation.toNat + coming < 2 ^ 64

/-- Two caches that hold the same, and if one of them has a snapshot to serve, the other has it too.
-/
structure Interchangeable (left right : Cache ρ) : Prop where
  store : left.store = right.store
  served : (left.publishedAt? left.generation).map Snapshot.policies =
    (right.publishedAt? right.generation).map Snapshot.policies

variable {cache left right : Cache ρ} {coming : Nat}

theorem toNat_generation_invalidate (dated : Dated cache (coming + 1)) :
    cache.invalidate.generation.toNat = cache.generation.toNat + 1 := by
  have room := dated.room
  change (cache.generation + 1).toNat = _
  rw [UInt64.toNat_add]
  exact Nat.mod_eq_of_lt (by simp only [UInt64.toNat_one]; omega)

theorem Dated.invalidate (dated : Dated cache (coming + 1)) : Dated cache.invalidate coming := by
  have counted := toNat_generation_invalidate dated
  have room := dated.room
  refine ⟨fun snapshot published => ?_, by omega⟩
  have past := dated.past snapshot published
  omega

theorem publishedAt?_invalidate (dated : Dated cache (coming + 1)) :
    cache.invalidate.publishedAt? cache.invalidate.generation = none := by
  have counted := toNat_generation_invalidate dated
  apply Option.filter_eq_none_iff.mpr
  intro snapshot published
  have past := dated.past snapshot published
  have different : snapshot.generation ≠ cache.invalidate.generation := by
    intro same
    rw [same] at past
    omega
  simpa using different

theorem Dated.perform (effect : Effect ρ)
    (dated : Dated cache (coming + effect.invalidates.toNat)) :
    Dated (cache.perform effect) coming := by
  cases effect with
  | invalidate => exact dated.invalidate
  | upsert | remove | record => exact ⟨dated.past, dated.room⟩

theorem Dated.read (dated : Dated cache coming) (cancelled : Bool) :
    Dated (cache.policiesFor cancelled).2 coming := by
  cases cancelled with
  | true => exact dated
  | false =>
      cases found : cache.publishedAt? cache.generation with
      | some snapshot =>
          simp only [policiesFor, Cache.read, found]
          exact ⟨dated.past, dated.room⟩
      | none =>
          simp only [policiesFor, Cache.read, found]
          refine ⟨?_, dated.room⟩
          rintro _ ⟨⟩
          exact Nat.le_refl _

theorem Interchangeable.perform (alike : Interchangeable left right) (effect : Effect ρ)
    (leftDated : Dated left (coming + effect.invalidates.toNat))
    (rightDated : Dated right (coming + effect.invalidates.toNat)) :
    Interchangeable (left.perform effect) (right.perform effect) := by
  cases effect with
  | upsert | remove => exact ⟨by simp [alike.store], alike.served⟩
  | record => exact ⟨alike.store, alike.served⟩
  | invalidate =>
      refine ⟨alike.store, ?_⟩
      change (left.invalidate.publishedAt? left.invalidate.generation).map _ =
        (right.invalidate.publishedAt? right.invalidate.generation).map _
      rw [publishedAt?_invalidate leftDated, publishedAt?_invalidate rightDated]

theorem Interchangeable.read (alike : Interchangeable left right) (cancelled : Bool) :
    (left.policiesFor cancelled).1 = (right.policiesFor cancelled).1 ∧
      Interchangeable (left.policiesFor cancelled).2 (right.policiesFor cancelled).2 := by
  cases cancelled with
  | true => exact ⟨rfl, alike⟩
  | false =>
      have served := alike.served
      cases leftFound : left.publishedAt? left.generation with
      | some snapshot =>
          rw [leftFound, Option.map_some, eq_comm, Option.map_eq_some_iff] at served
          rcases served with ⟨other, rightFound, same⟩
          simp only [policiesFor, Cache.read, leftFound, rightFound, same]
          exact ⟨rfl, alike.store, alike.served⟩
      | none =>
          rw [leftFound, Option.map_none, eq_comm, Option.map_eq_none_iff] at served
          simp only [policiesFor, Cache.read, leftFound, served]
          refine ⟨by simp [publish, alike.store], alike.store, ?_⟩
          simp [publish, publishedAt?, record, alike.store, Option.filter]

/-- Readers cannot tell such caches apart, whatever is done to both of them. -/
theorem Interchangeable.reads_eq (alike : Interchangeable left right) (acts : List (CacheAct ρ))
    (leftDated : Dated left (acts.countP CacheAct.invalidates))
    (rightDated : Dated right (acts.countP CacheAct.invalidates)) :
    left.reads acts = right.reads acts := by
  induction acts generalizing left right with
  | nil => rfl
  | cons act rest induction =>
      rw [List.countP_cons] at leftDated rightDated
      cases act with
      | read cancelled =>
          rcases alike.read cancelled with ⟨same, alike⟩
          have known := induction alike (leftDated.read cancelled) (rightDated.read cancelled)
          rw [reads, reads, same, known]
      | perform effect =>
          have counted : (if CacheAct.invalidates (.perform effect) = true then 1 else 0) =
              effect.invalidates.toNat := by
            cases effect <;> rfl
          rw [counted] at leftDated rightDated
          exact induction (alike.perform effect leftDated rightDated) (leftDated.perform effect)
            (rightDated.perform effect)

theorem Dated.mono {fewer : Nat} (dated : Dated cache coming) (le : fewer ≤ coming) :
    Dated cache fewer :=
  ⟨dated.past, Nat.lt_of_le_of_lt (Nat.add_le_add_left le _) dated.room⟩

theorem Dated.commit {effects : List (Effect ρ)}
    (dated : Dated cache (coming + effects.countP Effect.invalidates)) :
    Dated (cache.commit effects) coming := by
  induction effects generalizing cache with
  | nil => exact dated
  | cons effect rest induction =>
      refine induction (Dated.perform effect ?_)
      rw [List.countP_cons] at dated
      refine dated.mono (Nat.le_of_eq ?_)
      cases effect.invalidates <;> rfl

theorem commit_of_silent {effects : List (Effect ρ)}
    (silent : ∀ effect ∈ effects, effect.touches = false) (cache : Cache ρ) :
    ∃ counters, cache.commit effects = { cache with counters } := by
  induction effects generalizing cache with
  | nil => exact ⟨cache.counters, rfl⟩
  | cons effect rest induction =>
      rcases induction (fun later member => silent later (.tail _ member)) (cache.perform effect)
        with ⟨counters, counted⟩
      have first := silent effect (.head _)
      cases effect with
      | upsert | remove | invalidate => cases first
      | record => exact ⟨counters, counted⟩

theorem perform_counters (cache : Cache ρ) (counters : Counters) (effect : Effect ρ) :
    ∃ counted, ({ cache with counters } : Cache ρ).perform effect =
      { cache.perform effect with counters := counted } := by
  cases effect <;> exact ⟨_, rfl⟩

theorem policiesFor_counters (cache : Cache ρ) (counters : Counters) (cancelled : Bool) :
    ∃ counted, ({ cache with counters } : Cache ρ).policiesFor cancelled =
      ((cache.policiesFor cancelled).1,
        { (cache.policiesFor cancelled).2 with counters := counted }) := by
  cases cancelled with
  | true => exact ⟨counters, rfl⟩
  | false =>
      have same : ({ cache with counters } : Cache ρ).publishedAt? cache.generation =
          cache.publishedAt? cache.generation := rfl
      cases found : cache.publishedAt? cache.generation <;>
        simp only [policiesFor, Cache.read, same, found] <;> exact ⟨_, rfl⟩

theorem reads_counters (cache : Cache ρ) (counters : Counters) (acts : List (CacheAct ρ)) :
    ({ cache with counters } : Cache ρ).reads acts = cache.reads acts := by
  induction acts generalizing cache counters with
  | nil => rfl
  | cons act rest induction =>
      cases act with
      | read cancelled =>
          rcases cache.policiesFor_counters counters cancelled with ⟨counted, same⟩
          rw [reads, reads, same, induction]
      | perform effect =>
          rcases cache.perform_counters counters effect with ⟨counted, same⟩
          rw [reads, reads, same, induction]

theorem interchangeable_upserted (identity : Identity) (policy : ρ) (revision : Option String)
    (dated : Dated cache (coming + 2)) :
    let upsertion := [.upsert identity policy revision, .invalidate, .record .upsert]
    Interchangeable ((cache.commit upsertion).commit upsertion) (cache.commit upsertion) := by
  intro upsertion
  have once : Dated (cache.perform (.upsert identity policy revision)) (coming + 1 + 1) :=
    dated.perform _
  refine ⟨Table.insert_insert _ _ _, ?_⟩
  have twice : Dated ((cache.perform (.upsert identity policy revision)).invalidate.perform
      (.upsert identity policy revision)) (coming + 1) :=
    once.invalidate.perform _
  exact (congrArg (Option.map Snapshot.policies) (publishedAt?_invalidate twice)).trans
    (congrArg (Option.map Snapshot.policies) (publishedAt?_invalidate once)).symm

end Cache

end PolicyWarden
