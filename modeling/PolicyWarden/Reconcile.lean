import PolicyWarden.Cache.Effect

/-!
Reconciling one identity with the source of truth: fetch its resource, compile it, commit. A
`Reconcile` follows one such cycle; the source and the compiler answer in their own time, and
`Reconcile.advance` takes the steps in between. The store changes only in the last step, and every
change is followed by an invalidation. That the runtime ends while the compiler is at work is nothing
a `Reconcile` does by itself: it is a step of those who drive one alone.
-/

namespace PolicyWarden

/-- What the source says of an identity: its resource, that there is none, or that it cannot tell.
-/
abbrev Answer (α : Type) := Except FetchError (Option α)

inductive Verdict (ρ : Type) where
  | accepted (policy : ρ)
  | refused (errors : List CompileError)
  | panicked (message : String)

inductive RefusalPolicy where
  | retainPrevious
  | evict
deriving DecidableEq, Repr

structure Rules (α ρ : Type) where
  revision : α → Option String
  compile : Identity → α → Verdict ρ
  onRefusal : RefusalPolicy := .retainPrevious

inductive Outcome where
  | upserted
  | removed
  | absent
  | unchanged
  /-- The resource was refused; `evicted` tells whether a stored policy went with it. -/
  | rejected (errors : List CompileError) (evicted : Bool)
deriving DecidableEq, Repr

def Outcome.mutated : Outcome → Bool
  | .upserted => true
  | .removed => true
  | .absent => false
  | .unchanged => false
  | .rejected _ evicted => evicted

inductive Reconcile (α ρ : Type) where
  | starting
  | fetching
  | answered (answer : Answer α)
  | compiling (resource : α)
  | compiled (resource : α) (verdict : Verdict ρ)
  | ended (result : Except ReconcileError Outcome)
  | unwound (message : String)

namespace Reconcile

variable {α ρ : Type}

def removal (identity : Identity) : List (Effect ρ) :=
  [.remove identity, .invalidate, .record .removal]

/-- What follows from the answer of the source. Nothing here looks at the cancellation. -/
def onAnswer (rules : Rules α ρ) (identity : Identity) (store : Store ρ) :
    Answer α → List (Effect ρ) × Reconcile α ρ
  | .error error => ([.record .fetchError], .ended (.error (.fetch error)))
  | .ok none =>
      if store.contains identity then (removal identity, .ended (.ok .removed))
      else ([], .ended (.ok .absent))
  | .ok (some resource) =>
      let revision := rules.revision resource
      if revision.isSome && Store.revision store identity == revision then
        ([], .ended (.ok .unchanged))
      else ([], .compiling resource)

def onRefusal (rules : Rules α ρ) (identity : Identity) (store : Store ρ)
    (errors : List CompileError) : List (Effect ρ) × Outcome :=
  match rules.onRefusal with
  | .retainPrevious => ([.record .compileFailure], .rejected errors false)
  | .evict =>
      if store.contains identity then
        (.record .compileFailure :: removal identity, .rejected errors true)
      else ([.record .compileFailure], .rejected errors false)

/-- What follows from the verdict of the compiler. A cancelled reconcile changes nothing. -/
def onVerdict (rules : Rules α ρ) (identity : Identity) (store : Store ρ) (cancelled : Bool)
    (resource : α) : Verdict ρ → List (Effect ρ) × Reconcile α ρ
  | .panicked message => ([], .unwound message)
  | .accepted policy =>
      if cancelled then ([], .ended (.error (.cancelled identity)))
      else
        ([.upsert identity policy (rules.revision resource), .invalidate, .record .upsert],
          .ended (.ok .upserted))
  | .refused errors =>
      if cancelled then ([], .ended (.error (.cancelled identity)))
      else
        let (effects, outcome) := onRefusal rules identity store errors
        (effects, .ended (.ok outcome))

/-- Asks the source, or acts on an answer or a verdict that has come in; none while the reconcile
waits or is over. A cancelled reconcile does not ask. -/
def advance (rules : Rules α ρ) (identity : Identity) (cancelled : Bool) (cache : Cache ρ) :
    Reconcile α ρ → Option (Cache ρ × Reconcile α ρ)
  | .starting =>
      some (cache, if cancelled then .ended (.error (.cancelled identity)) else .fetching)
  | .answered answer =>
      let (effects, next) := onAnswer rules identity cache.store answer
      some (cache.commit effects, next)
  | .compiled resource verdict =>
      let (effects, next) := onVerdict rules identity cache.store cancelled resource verdict
      some (cache.commit effects, next)
  | _ => none

def abandon (identity : Identity) : Reconcile α ρ → Reconcile α ρ
  | .fetching => .ended (.error (.cancelled identity))
  | other => other

def compile (rules : Rules α ρ) (identity : Identity) : Reconcile α ρ → Reconcile α ρ
  | .compiling resource => .compiled resource (rules.compile identity resource)
  | other => other

/-- A reconcile that nothing comes between and nobody cancels, from the answer of the source on. -/
def alone (rules : Rules α ρ) (identity : Identity) (answer : Answer α) (cache : Cache ρ) :
    Cache ρ × Reconcile α ρ :=
  let (effects, next) := onAnswer rules identity cache.store answer
  let cache := cache.commit effects
  match next with
  | .compiling resource =>
      let (effects, last) :=
        onVerdict rules identity cache.store false resource (rules.compile identity resource)
      (cache.commit effects, last)
  | other => (cache, other)

end Reconcile

end PolicyWarden
