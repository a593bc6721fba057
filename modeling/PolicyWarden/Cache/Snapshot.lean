import PolicyWarden.Cache.Counters
import PolicyWarden.Cache.Store
import PolicyWarden.Failure

/-!
Memoized reads of the store. A snapshot carries the generation that was current before the store was
read; it is served only while that generation is current. `Reader.step` goes through one read in its
atomic steps, so that reads, invalidations and store mutations may be interleaved at will;
`Cache.read` is a read that nothing comes between, which `Reader.run_starting` confirms.
-/

namespace PolicyWarden

/-- The policies as one reader found them. Readers of equal `serial` hold the same shared list. -/
structure Snapshot (ρ : Type) where
  generation : UInt64
  serial : Nat
  policies : List ρ

structure Cache (ρ : Type) where
  store : Store ρ := Table.empty
  generation : UInt64 := 0
  published : Option (Snapshot ρ) := none
  sorting : Bool := false
  /-- How many snapshots were published so far. -/
  issued : Nat := 0
  counters : Counters := {}

instance {ρ : Type} : Inhabited (Cache ρ) := ⟨{}⟩

inductive Reader (ρ : Type) where
  | starting
  | comparing (generation : UInt64)
  /-- The snapshot was missing or stale; about to take the lock. -/
  | missed
  | locked
  | recomparing (generation : UInt64)
  /-- Holds the lock, the snapshot is stale; about to load the generation it will be tagged with. -/
  | stale
  | tagging (generation : UInt64)
  | sorted (generation : UInt64) (policies : List ρ)
  | issued (snapshot : Snapshot ρ)
  | releasing (snapshot : Snapshot ρ)
  /-- About to count a hit, holding the lock or not. -/
  | hitting (snapshot : Snapshot ρ) (holding : Bool)
  | finished (snapshot : Snapshot ρ)

namespace Cache

variable {ρ : Type}

def record (cache : Cache ρ) (occurrence : Occurrence) : Cache ρ :=
  { cache with counters := cache.counters.record occurrence }

def invalidate (cache : Cache ρ) : Cache ρ :=
  { cache with generation := cache.generation + 1 }.record .invalidation

def publishedAt? (cache : Cache ρ) (generation : UInt64) : Option (Snapshot ρ) :=
  cache.published.filter fun snapshot => snapshot.generation == generation

/-- Publishes policies under the generation that was current before they were read. -/
def publish (cache : Cache ρ) (generation : UInt64) (policies : List ρ) : Snapshot ρ × Cache ρ :=
  let snapshot := ⟨generation, cache.issued, policies⟩
  (snapshot, { cache with published := some snapshot, issued := cache.issued + 1 })

end Cache

namespace Reader

variable {ρ : Type}

/-- One atomic step of a read; none while another reader holds the lock, and none at the end. -/
def step (cache : Cache ρ) : Reader ρ → Option (Cache ρ × Reader ρ)
  | .starting => some (cache, .comparing cache.generation)
  | .comparing generation =>
      match cache.publishedAt? generation with
      | some snapshot => some (cache, .hitting snapshot false)
      | none => some (cache, .missed)
  | .missed => if cache.sorting then none else some ({ cache with sorting := true }, .locked)
  | .locked => some (cache, .recomparing cache.generation)
  | .recomparing generation =>
      match cache.publishedAt? generation with
      | some snapshot => some (cache, .hitting snapshot true)
      | none => some (cache, .stale)
  | .stale => some (cache, .tagging cache.generation)
  | .tagging generation => some (cache, .sorted generation cache.store.sortedPolicies)
  | .sorted generation policies =>
      let (snapshot, next) := cache.publish generation policies
      some (next, .issued snapshot)
  | .issued snapshot => some (cache.record .recompute, .releasing snapshot)
  | .releasing snapshot => some ({ cache with sorting := false }, .finished snapshot)
  | .hitting snapshot holding =>
      some (cache.record .hit, if holding then .releasing snapshot else .finished snapshot)
  | .finished _ => none

def stepAll (cache : Cache ρ) : List (Reader ρ) → Cache ρ × List (Reader ρ)
  | [] => (cache, [])
  | reader :: rest =>
      let (next, reader) := (reader.step cache).getD (cache, reader)
      let (last, rest) := stepAll next rest
      (last, reader :: rest)

def run : (rounds : Nat) → Cache ρ → List (Reader ρ) → Cache ρ × List (Reader ρ)
  | 0, cache, readers => (cache, readers)
  | rounds + 1, cache, readers =>
      let (next, readers) := stepAll cache readers
      run rounds next readers

def snapshot? : Reader ρ → Option (Snapshot ρ)
  | .finished snapshot => some snapshot
  | _ => none

def remaining : Reader ρ → Nat
  | .starting => 10
  | .comparing _ => 9
  | .missed => 8
  | .locked => 7
  | .recomparing _ => 6
  | .stale => 5
  | .tagging _ => 4
  | .sorted _ _ => 3
  | .issued _ => 2
  | .hitting _ _ => 2
  | .releasing _ => 1
  | .finished _ => 0

theorem remaining_step {cache next : Cache ρ} {reader after : Reader ρ}
    (stepped : reader.step cache = some (next, after)) : after.remaining < reader.remaining := by
  cases reader <;> simp only [step] at stepped <;> grind [remaining]

end Reader

namespace Cache

variable {ρ : Type}

def read (cache : Cache ρ) : Snapshot ρ × Cache ρ :=
  match cache.publishedAt? cache.generation with
  | some snapshot => (snapshot, cache.record .hit)
  | none =>
      let (snapshot, next) := cache.publish cache.generation cache.store.sortedPolicies
      (snapshot, next.record .recompute)

/-- As many reads as `readers` says, begun together and taking turns step by step. Each round brings
the holder of the lock on, so ten rounds for each reader are enough. -/
def readTogether (cache : Cache ρ) (readers : Nat) : List (Snapshot ρ) × Cache ρ :=
  let (next, ended) := Reader.run (10 * readers) cache (List.replicate readers .starting)
  (ended.filterMap Reader.snapshot?, next)

/-- What a reader with a context of its own gets: the policies, unless the context was cancelled
beforehand. -/
def policiesFor (cache : Cache ρ) (cancelled : Bool) : Except ReadError (List ρ) × Cache ρ :=
  if cancelled then (.error .cancelled, cache)
  else
    let (snapshot, next) := cache.read
    (.ok snapshot.policies, next)

end Cache

theorem Reader.run_starting {ρ : Type} (cache : Cache ρ) (free : cache.sorting = false) :
    Reader.run 10 cache [.starting] = (cache.read.2, [.finished cache.read.1]) := by
  cases found : cache.publishedAt? cache.generation with
  | none =>
      have absent : (cache.published.filter fun snapshot =>
          snapshot.generation == cache.generation) = none := found
      simp [Reader.run, Reader.stepAll, Reader.step, Cache.read, free, Cache.publish,
        Cache.record, Cache.publishedAt?, absent]
  | some snapshot =>
      simp [Reader.run, Reader.stepAll, Reader.step, Cache.read, found]

end PolicyWarden
