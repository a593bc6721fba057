import PolicyWarden.Reconcile

/-!
What one step of a reconcile can be. `Advances` lists the steps that a reconcile takes on its own,
each with its effects and with what has to be the case for it; `advances_effects` says that
`Reconcile.advance` takes no others. Everything that is known of a run of reconciles comes from this
list and from what the effects do to the store.
-/

namespace PolicyWarden

variable {α ρ : Type}

/-- Rules to try things out with: a text is its own revision and its own policy, and only the empty
text is refused. -/
def Rules.plain (onRefusal : RefusalPolicy := .retainPrevious) : Rules String String where
  revision text := some text
  compile _ text := if text = "" then .refused [] else .accepted text
  onRefusal

namespace Cache

@[simp] theorem store_perform_upsert (cache : Cache ρ) (identity : Identity) (policy : ρ)
    (revision : Option String) :
    (cache.perform (.upsert identity policy revision)).store =
      Store.upsert cache.store identity policy revision := rfl

@[simp] theorem store_perform_remove (cache : Cache ρ) (identity : Identity) :
    (cache.perform (.remove identity)).store = cache.store.erase identity := rfl

@[simp] theorem store_perform_invalidate (cache : Cache ρ) :
    (cache.perform .invalidate).store = cache.store := rfl

@[simp] theorem store_perform_record (cache : Cache ρ) (occurrence : Occurrence) :
    (cache.perform (.record occurrence)).store = cache.store := rfl

@[simp] theorem store_policiesFor (cache : Cache ρ) (cancelled : Bool) :
    (cache.policiesFor cancelled).2.store = cache.store := by
  cases cancelled with
  | true => rfl
  | false =>
      simp only [policiesFor, read, Bool.false_eq_true, if_false]
      split <;> rfl

end Cache

namespace Store

@[simp] theorem find?_upsert (store : Store ρ) (identity other : Identity) (policy : ρ)
    (revision : Option String) :
    (Store.upsert store identity policy revision).find? other =
      if other = identity then some ⟨policy, revision⟩ else store.find? other :=
  Table.find?_insert store identity other _

theorem find?_of_revision {store : Store ρ} {identity : Identity} {revision : String}
    (known : Store.revision store identity = some revision) :
    ∃ policy, store.find? identity = some ⟨policy, some revision⟩ := by
  rcases Option.bind_eq_some_iff.mp known with ⟨⟨policy, stored⟩, found, equal⟩
  cases equal
  exact ⟨policy, found⟩

end Store

namespace Reconcile

/-- The steps of a reconcile that need nothing from outside: from where, with which effects, and to
where. -/
inductive Advances (rules : Rules α ρ) (identity : Identity) (cancelled : Bool) (store : Store ρ) :
    Reconcile α ρ → List (Effect ρ) → Reconcile α ρ → Prop
  | ask (wanted : cancelled = false) :
      Advances rules identity cancelled store .starting [] .fetching
  | refrain (unwanted : cancelled = true) :
      Advances rules identity cancelled store .starting [] (.ended (.error (.cancelled identity)))
  | failed (error : FetchError) :
      Advances rules identity cancelled store (.answered (.error error)) [.record .fetchError]
        (.ended (.error (.fetch error)))
  | removed (present : store.contains identity = true) :
      Advances rules identity cancelled store (.answered (.ok none)) (removal identity)
        (.ended (.ok .removed))
  | absent (missing : store.contains identity = false) :
      Advances rules identity cancelled store (.answered (.ok none)) [] (.ended (.ok .absent))
  | unchanged (resource : α) (revision : String) (known : rules.revision resource = some revision)
      (same : Store.revision store identity = some revision) :
      Advances rules identity cancelled store (.answered (.ok (some resource))) []
        (.ended (.ok .unchanged))
  | changed (resource : α)
      (different : rules.revision resource = none ∨
        Store.revision store identity ≠ rules.revision resource) :
      Advances rules identity cancelled store (.answered (.ok (some resource))) []
        (.compiling resource)
  | unwound (resource : α) (message : String) :
      Advances rules identity cancelled store (.compiled resource (.panicked message)) []
        (.unwound message)
  | withdrawn (resource : α) (verdict : Verdict ρ) (unwanted : cancelled = true)
      (sound : ∀ message, verdict ≠ .panicked message) :
      Advances rules identity cancelled store (.compiled resource verdict) []
        (.ended (.error (.cancelled identity)))
  | upserted (resource : α) (policy : ρ) (wanted : cancelled = false) :
      Advances rules identity cancelled store (.compiled resource (.accepted policy))
        [.upsert identity policy (rules.revision resource), .invalidate, .record .upsert]
        (.ended (.ok .upserted))
  | retained (resource : α) (errors : List CompileError) (wanted : cancelled = false)
      (kept : rules.onRefusal = .retainPrevious ∨ store.contains identity = false) :
      Advances rules identity cancelled store (.compiled resource (.refused errors))
        [.record .compileFailure] (.ended (.ok (.rejected errors false)))
  | evicted (resource : α) (errors : List CompileError) (wanted : cancelled = false)
      (evicts : rules.onRefusal = .evict) (present : store.contains identity = true) :
      Advances rules identity cancelled store (.compiled resource (.refused errors))
        (.record .compileFailure :: removal identity) (.ended (.ok (.rejected errors true)))

variable {rules : Rules α ρ} {identity : Identity} {cancelled : Bool} {store : Store ρ}

theorem advances_onAnswer (answer : Answer α) :
    Advances rules identity cancelled store (.answered answer)
      (onAnswer rules identity store answer).1 (onAnswer rules identity store answer).2 := by
  match answer with
  | .error error => exact .failed error
  | .ok none =>
      simp only [onAnswer]
      split
      · next present => exact .removed present
      · next missing => exact .absent (Bool.not_eq_true _ ▸ missing)
  | .ok (some resource) =>
      simp only [onAnswer]
      split
      · next shortcut =>
          rcases Bool.and_eq_true_iff.mp shortcut with ⟨known, same⟩
          rcases Option.isSome_iff_exists.mp known with ⟨revision, equal⟩
          exact .unchanged resource revision equal (equal ▸ eq_of_beq same)
      · next different =>
          refine .changed resource ?_
          cases equal : rules.revision resource with
          | none => exact .inl rfl
          | some revision => exact .inr fun same => different (by simp [equal, same])

theorem advances_onVerdict (resource : α) (verdict : Verdict ρ) :
    Advances rules identity cancelled store (.compiled resource verdict)
      (onVerdict rules identity store cancelled resource verdict).1
      (onVerdict rules identity store cancelled resource verdict).2 := by
  cases verdict with
  | panicked message => exact .unwound resource message
  | accepted policy =>
      simp only [onVerdict]
      split
      · next unwanted => exact .withdrawn resource _ unwanted nofun
      · next wanted => exact .upserted resource policy (Bool.not_eq_true _ ▸ wanted)
  | refused errors =>
      simp only [onVerdict]
      split
      · next unwanted => exact .withdrawn resource _ unwanted nofun
      · next wanted =>
          have wanted : cancelled = false := Bool.not_eq_true _ ▸ wanted
          cases policy : rules.onRefusal with
          | retainPrevious =>
              simp only [onRefusal, policy]
              exact .retained resource errors wanted (.inl policy)
          | evict =>
              simp only [onRefusal, policy]
              split
              · next present => exact .evicted resource errors wanted policy present
              · next missing =>
                  exact .retained resource errors wanted (.inr (Bool.not_eq_true _ ▸ missing))

def effects (rules : Rules α ρ) (identity : Identity) (cancelled : Bool) (store : Store ρ) :
    Reconcile α ρ → List (Effect ρ)
  | .answered answer => (onAnswer rules identity store answer).1
  | .compiled resource verdict => (onVerdict rules identity store cancelled resource verdict).1
  | _ => []

theorem advances_effects {cache after : Cache ρ} {state next : Reconcile α ρ}
    (advanced : state.advance rules identity cancelled cache = some (after, next)) :
    after = cache.commit (state.effects rules identity cancelled cache.store) ∧
      Advances rules identity cancelled cache.store state
        (state.effects rules identity cancelled cache.store) next := by
  cases state with
  | starting =>
      simp only [advance, Option.some.injEq, Prod.mk.injEq] at advanced
      rcases advanced with ⟨rfl, rfl⟩
      refine ⟨rfl, ?_⟩
      cases cancelled with
      | true => exact .refrain rfl
      | false => exact .ask rfl
  | answered answer =>
      simp only [advance, Option.some.injEq, Prod.mk.injEq] at advanced
      rcases advanced with ⟨rfl, rfl⟩
      exact ⟨rfl, advances_onAnswer answer⟩
  | compiled resource verdict =>
      simp only [advance, Option.some.injEq, Prod.mk.injEq] at advanced
      rcases advanced with ⟨rfl, rfl⟩
      exact ⟨rfl, advances_onVerdict resource verdict⟩
  | fetching => cases advanced
  | compiling resource => cases advanced
  | ended result => cases advanced
  | unwound message => cases advanced

theorem advances_of_advance {cache after : Cache ρ} {state next : Reconcile α ρ}
    (advanced : state.advance rules identity cancelled cache = some (after, next)) :
    ∃ effects, after = cache.commit effects ∧
      Advances rules identity cancelled cache.store state effects next :=
  ⟨_, advances_effects advanced⟩

end Reconcile

end PolicyWarden
