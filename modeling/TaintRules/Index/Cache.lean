import TaintRules.Index.Basic

/-!
# The index cache

The last index that was built is used again while the same batch is asked for in the same case
mode. A reuse window of zero switches the cache off. Time stands still, so an index does not age.
-/

namespace TaintRules

/-- An index that is kept, with the fingerprint and the mode that it was asked for in. -/
structure CachedIndex where
  fingerprint : Fingerprint
  mode : CaseMode
  index : Index
  deriving DecidableEq, Repr

/-- A slot for one index, the reuse window in milliseconds, and the counters. -/
structure IndexCache where
  window : Nat
  slot : Option CachedIndex := none
  hits : Nat := 0
  misses : Nat := 0
  deriving DecidableEq, Repr

/-- Whether a kept index serves for a batch with the fingerprint in the mode. -/
def CachedIndex.serves (cached : CachedIndex) (fingerprint : Fingerprint) (mode : CaseMode) :
    Bool :=
  cached.fingerprint == fingerprint && cached.mode == mode

namespace IndexCache

/-- The index of a batch, and whether it was kept from before. -/
def getOrBuild (entities : List Entity) (mode : CaseMode) : StateM IndexCache (Index × Bool) :=
  fun cache ↦
    let fingerprint := Fingerprint.ofBatch entities
    match cache.slot.filter fun cached ↦ cache.window != 0 && cached.serves fingerprint mode with
    | some cached => ((cached.index, true), { cache with hits := cache.hits + 1 })
    | none =>
      let index := Index.buildWith fingerprint entities mode
      ((index, false), { cache with
        slot := if cache.window = 0 then cache.slot else some { fingerprint, mode, index }
        misses := cache.misses + 1 })

/-- Forgets the kept index. -/
def invalidate (cache : IndexCache) : IndexCache := { cache with slot := none }

/-- A length of time in the largest unit that it fills, with the rest as a decimal fraction. -/
def describeMillis (ms : Nat) : String :=
  if ms = 0 then "0ns"
  else if ms < 1000 then s!"{ms}ms"
  else
    let rest := (toString (1000 + ms % 1000)).toList.drop 1
    let fraction := (rest.reverse.dropWhile (· = '0')).reverse
    toString (ms / 1000) ++ String.ofList (if fraction.isEmpty then [] else '.' :: fraction) ++ "s"

/-- A one-line account of the window and the counters. -/
def describe (cache : IndexCache) : String :=
  "IndexCache \x7b ttl: " ++ describeMillis cache.window ++ ", hits: " ++ toString cache.hits
    ++ ", misses: " ++ toString cache.misses ++ " \x7d"

end IndexCache

end TaintRules
