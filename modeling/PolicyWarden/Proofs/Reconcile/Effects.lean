import PolicyWarden.Proofs.Reconcile.Concurrent

/-!
What the effects of a reconcile do to a cache. A list of effects leaves alone the entries of all
identities that it does not name, and the generation and the counters go up by what it makes stale
and counts. Effects that are brought about for several identities leave the cache alike in whatever
order these take turns, which `alike_of_share_eq` states. A move of a call has the effects that its
phase decides on, and these name no identity but its own.
-/

namespace PolicyWarden

variable {α ρ : Type}

namespace Effect

def identity? : Effect ρ → Option Identity
  | .upsert identity _ _ => some identity
  | .remove identity => some identity
  | _ => none

def invalidates : Effect ρ → Bool
  | .invalidate => true
  | _ => false

/-- Whether the effect changes the store or makes the snapshot stale; counting does neither. -/
def touches (effect : Effect ρ) : Bool :=
  effect.mutates || effect.invalidates

def counts (occurrence : Occurrence) : Effect ρ → Bool
  | .record recorded => occurrence = recorded
  | .invalidate => occurrence = .invalidation
  | _ => false

/-- The effects change the entry of this identity, if they change any. -/
def Concern (identity : Identity) (effects : List (Effect ρ)) : Prop :=
  ∀ effect ∈ effects, ∀ other, effect.identity? = some other → other = identity

def share (identity : Identity) (deeds : List (Identity × Effect ρ)) : List (Effect ρ) :=
  (deeds.filter (·.1 = identity)).map Prod.snd

/-- Each effect changes no entry but that of the identity for which it was brought about. -/
def Owned (deeds : List (Identity × Effect ρ)) : Prop :=
  ∀ deed ∈ deeds, Concern deed.1 [deed.2]

variable {identity other : Identity} {effect : Effect ρ} {deeds left right : List (Identity × Effect ρ)}

theorem Concern.of_mem {effects : List (Effect ρ)} (concern : Concern identity effects)
    (member : effect ∈ effects) : Concern identity [effect] :=
  fun _ only => concern _ (List.mem_singleton.mp only ▸ member)

@[simp] theorem share_append :
    share identity (left ++ right) = share identity left ++ share identity right := by
  simp [share]

@[simp] theorem share_singleton :
    share identity [(other, effect)] = if other = identity then [effect] else [] := by
  by_cases same : other = identity <;> simp [share, same]

theorem share_eq_nil (others : ∀ deed ∈ deeds, deed.1 ≠ identity) : share identity deeds = [] := by
  rw [share, List.map_eq_nil_iff, List.filter_eq_nil_iff]
  intro deed member
  simpa using others deed member

theorem share_map (effects : List (Effect ρ)) :
    share identity (effects.map (other, ·)) = if other = identity then effects else [] := by
  by_cases same : other = identity <;> simp [share, List.filter_map, same, Function.comp_def]

theorem perm_of_share_eq (same : ∀ identity, share identity left = share identity right) :
    left.Perm right := by
  classical
  have counted : ∀ (deeds : List (Identity × Effect ρ)) (deed : Identity × Effect ρ),
      deeds.count deed = ((share deed.1 deeds).map (deed.1, ·)).count deed := by
    intro deeds deed
    have kept : (share deed.1 deeds).map (deed.1, ·) = deeds.filter (·.1 = deed.1) := by
      rw [share, List.map_map]
      refine (List.map_congr_left fun other member => ?_).trans (List.map_id _)
      exact Prod.ext (of_decide_eq_true (List.mem_filter.mp member).2).symm rfl
    rw [kept]
    exact (List.count_filter (by simp)).symm
  apply List.perm_iff_count.mpr
  intro deed
  rw [counted left, counted right, same]

end Effect

/-- Two caches that hold the same entries under the same generation and have counted the same. -/
structure Cache.Alike (left right : Cache ρ) : Prop where
  entries : ∀ identity, left.store.find? identity = right.store.find? identity
  generation : left.generation = right.generation
  counters : left.counters = right.counters

theorem Counters.ext_count {left right : Counters}
    (same : ∀ occurrence, left.count occurrence = right.count occurrence) : left = right := by
  cases left
  cases right
  simp only [Counters.mk.injEq]
  exact ⟨same .hit, same .recompute, same .invalidation, same .upsert, same .removal,
    same .compileFailure, same .fetchError⟩

theorem Counters.record_comm (counters : Counters) (first second : Occurrence) :
    (counters.record first).record second = (counters.record second).record first := by
  cases first <;> cases second <;> rfl

namespace Cache

def holding (entries : List (Identity × ρ)) : Cache ρ :=
  ({} : Cache ρ).commit (entries.map fun (identity, policy) => .upsert identity policy none)

theorem find?_perform (cache : Cache ρ) (effect : Effect ρ) (identity : Identity) :
    (cache.perform effect).store.find? identity =
      match effect with
      | .upsert own policy revision =>
          if identity = own then some ⟨policy, revision⟩ else cache.store.find? identity
      | .remove own => if identity = own then none else cache.store.find? identity
      | _ => cache.store.find? identity := by
  cases effect with
  | upsert => exact Store.find?_upsert _ _ _ _ _
  | remove => exact Table.find?_erase _ _ _
  | _ => rfl

theorem find?_commit_of_ne {cache : Cache ρ} {effects : List (Effect ρ)} {identity other : Identity}
    (concern : Effect.Concern identity effects) (different : other ≠ identity) :
    (cache.commit effects).store.find? other = cache.store.find? other := by
  induction effects generalizing cache with
  | nil => rfl
  | cons effect rest induction =>
      have unnamed : effect.identity? ≠ some other := fun named =>
        different (concern effect (.head _) other named)
      rw [commit_cons, induction fun later member => concern later (.tail _ member),
        find?_perform]
      cases effect with
      | upsert own => exact if_neg fun same => unnamed (congrArg some same.symm)
      | remove own => exact if_neg fun same => unnamed (congrArg some same.symm)
      | _ => rfl

theorem find?_commit_congr {left right : Cache ρ} {identity : Identity}
    (same : left.store.find? identity = right.store.find? identity) (effects : List (Effect ρ)) :
    (left.commit effects).store.find? identity = (right.commit effects).store.find? identity := by
  induction effects generalizing left right with
  | nil => exact same
  | cons effect rest induction =>
      refine induction ?_
      rw [find?_perform, find?_perform]
      cases effect <;> simp only [same]

theorem commit_append (cache : Cache ρ) (earlier later : List (Effect ρ)) :
    cache.commit (earlier ++ later) = (cache.commit earlier).commit later :=
  List.foldl_append

theorem generation_commit (cache : Cache ρ) (effects : List (Effect ρ)) :
    (cache.commit effects).generation =
      cache.generation + UInt64.ofNat (effects.countP Effect.invalidates) := by
  induction effects generalizing cache with
  | nil => exact (UInt64.add_zero _).symm
  | cons effect rest induction =>
      rw [commit_cons, induction, List.countP_cons, UInt64.ofNat_add]
      cases effect with
      | invalidate =>
          exact UInt64.add_assoc _ _ _ |>.trans (congrArg _ (UInt64.add_comm _ _))
      | _ => exact congrArg _ (UInt64.add_zero _).symm

theorem count_commit (cache : Cache ρ) (effects : List (Effect ρ)) (occurrence : Occurrence) :
    (cache.commit effects).counters.count occurrence =
      cache.counters.count occurrence +
        UInt64.ofNat (effects.countP (Effect.counts occurrence)) := by
  induction effects generalizing cache with
  | nil => exact (UInt64.add_zero _).symm
  | cons effect rest induction =>
      have counted : (cache.perform effect).counters.count occurrence =
          cache.counters.count occurrence + if effect.counts occurrence then 1 else 0 := by
        cases effect with
        | record recorded =>
            by_cases same : occurrence = recorded <;>
              simp [perform, record, Effect.counts, Counters.count_record, same]
        | invalidate =>
            by_cases same : occurrence = .invalidation <;>
              simp [perform, invalidate, record, Effect.counts, Counters.count_record, same]
        | _ => exact (UInt64.add_zero _).symm
      rw [commit_cons, induction, counted, List.countP_cons, UInt64.ofNat_add, UInt64.add_assoc,
        UInt64.add_comm (UInt64.ofNat _)]
      split <;> rfl

theorem perform_record_comm (cache : Cache ρ) (occurrence : Occurrence) (effect : Effect ρ) :
    (cache.perform (.record occurrence)).perform effect =
      (cache.perform effect).perform (.record occurrence) := by
  cases effect with
  | upsert | remove => rfl
  | invalidate | record =>
      simp only [perform, invalidate, record]
      rw [Counters.record_comm]

theorem commit_record_comm (cache : Cache ρ) (occurrence : Occurrence)
    (effects : List (Effect ρ)) :
    (cache.perform (.record occurrence)).commit effects =
      (cache.commit effects).perform (.record occurrence) := by
  induction effects generalizing cache with
  | nil => rfl
  | cons effect rest induction => rw [commit_cons, commit_cons, perform_record_comm, induction]

theorem store_commit_of_unmutated {effects : List (Effect ρ)}
    (unmutated : ∀ effect ∈ effects, effect.mutates = false) (cache : Cache ρ) :
    (cache.commit effects).store = cache.store := by
  induction effects generalizing cache with
  | nil => rfl
  | cons effect rest induction =>
      rw [commit_cons, induction fun later member => unmutated later (.tail _ member)]
      have first := unmutated effect (.head _)
      cases effect with
      | upsert | remove => cases first
      | invalidate | record => rfl

theorem find?_commit_share {cache : Cache ρ} {deeds : List (Identity × Effect ρ)}
    (owned : Effect.Owned deeds) (identity : Identity) :
    (cache.commit (deeds.map Prod.snd)).store.find? identity =
      (cache.commit (Effect.share identity deeds)).store.find? identity := by
  induction deeds generalizing cache with
  | nil => rfl
  | cons deed rest induction =>
      rcases deed with ⟨owner, effect⟩
      rw [List.map_cons, commit_cons, induction fun deed member => owned deed (.tail _ member)]
      by_cases own : owner = identity
      · simp [Effect.share, own]
      · have unchanged : (cache.perform effect).store.find? identity = cache.store.find? identity :=
          find?_commit_of_ne (owned _ (.head _)) (Ne.symm own)
        simp only [Effect.share, List.filter_cons, own, decide_false, Bool.false_eq_true, if_false]
        exact find?_commit_congr unchanged _

/-- Effects that change the entry of their own identity alone leave a cache alike in whatever order
the identities take turns. -/
theorem alike_of_share_eq (cache : Cache ρ) {left right : List (Identity × Effect ρ)}
    (leftOwned : Effect.Owned left) (rightOwned : Effect.Owned right)
    (same : ∀ identity, Effect.share identity left = Effect.share identity right) :
    Alike (cache.commit (left.map Prod.snd)) (cache.commit (right.map Prod.snd)) where
  entries identity := by
    rw [find?_commit_share leftOwned, find?_commit_share rightOwned, same]
  generation := by
    have permuted := (Effect.perm_of_share_eq same).map Prod.snd
    rw [generation_commit, generation_commit, permuted.countP_eq]
  counters := by
    have permuted := (Effect.perm_of_share_eq same).map Prod.snd
    apply Counters.ext_count
    intro occurrence
    rw [count_commit, count_commit, permuted.countP_eq]

end Cache

namespace Reconcile

variable {rules : Rules α ρ} {identity : Identity} {cancelled : Bool} {store : Store ρ}
  {state next : Reconcile α ρ} {effects : List (Effect ρ)}

theorem Advances.concern
    (advances : Advances rules identity cancelled store state effects next) :
    Effect.Concern identity effects := by
  cases advances <;> simp [Effect.Concern, Effect.identity?, removal]

end Reconcile

namespace ReconcileCall

open Reconcile (Advances)

variable {rules : Rules α ρ} {answer : Answer α} {cache after : Cache ρ}
  {call moved : ReconcileCall α ρ} {motion : Reconcile.Motion}

theorem concern_of_move (moves : call.move rules answer cache motion = some (after, moved)) :
    Effect.Concern call.identity (call.effects rules cache.store motion) := by
  rcases (effects_of_move moves).2 with ⟨next, -, -, advances⟩ | ⟨none, -⟩
  · exact advances.concern
  · rw [none]
    exact nofun

end ReconcileCall

end PolicyWarden
