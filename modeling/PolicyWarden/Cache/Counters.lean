/-!
Counters of what the policy cache has done. A counter holds 64 bits and wraps.
-/

namespace PolicyWarden

inductive Occurrence where
  | hit
  | recompute
  | invalidation
  | upsert
  | removal
  | compileFailure
  | fetchError
deriving DecidableEq, Repr

structure Counters where
  hits : UInt64 := 0
  recomputes : UInt64 := 0
  invalidations : UInt64 := 0
  upserts : UInt64 := 0
  removals : UInt64 := 0
  compileFailures : UInt64 := 0
  fetchErrors : UInt64 := 0
deriving DecidableEq, Repr, Inhabited

namespace Counters

def count (counters : Counters) : Occurrence → UInt64
  | .hit => counters.hits
  | .recompute => counters.recomputes
  | .invalidation => counters.invalidations
  | .upsert => counters.upserts
  | .removal => counters.removals
  | .compileFailure => counters.compileFailures
  | .fetchError => counters.fetchErrors

def record (counters : Counters) : Occurrence → Counters
  | .hit => { counters with hits := counters.hits + 1 }
  | .recompute => { counters with recomputes := counters.recomputes + 1 }
  | .invalidation => { counters with invalidations := counters.invalidations + 1 }
  | .upsert => { counters with upserts := counters.upserts + 1 }
  | .removal => { counters with removals := counters.removals + 1 }
  | .compileFailure => { counters with compileFailures := counters.compileFailures + 1 }
  | .fetchError => { counters with fetchErrors := counters.fetchErrors + 1 }

/-- Counts `occurrence` as often as `times` says; the counter ends where single steps would bring
it. -/
def recordTimes (counters : Counters) (occurrence : Occurrence) (times : UInt64) : Counters :=
  match occurrence with
  | .hit => { counters with hits := counters.hits + times }
  | .recompute => { counters with recomputes := counters.recomputes + times }
  | .invalidation => { counters with invalidations := counters.invalidations + times }
  | .upsert => { counters with upserts := counters.upserts + times }
  | .removal => { counters with removals := counters.removals + times }
  | .compileFailure => { counters with compileFailures := counters.compileFailures + times }
  | .fetchError => { counters with fetchErrors := counters.fetchErrors + times }

/-- The share of reads served from the published snapshot; zero before the first read. -/
def hitRate (counters : Counters) : Float :=
  let reads := counters.hits + counters.recomputes
  if reads = 0 then 0 else counters.hits.toFloat / reads.toFloat

theorem count_record (counters : Counters) (recorded asked : Occurrence) :
    (counters.record recorded).count asked =
      if asked = recorded then counters.count asked + 1 else counters.count asked := by
  cases recorded <;> cases asked <;> rfl

end Counters

end PolicyWarden
