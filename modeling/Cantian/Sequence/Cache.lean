import Mathlib.Algebra.Order.Group.Unbundled.Int
import Cantian.Lib.Transition

/-!
# Sequences

The disk keeps the next free number of a sequence (`sequence$`). A node takes
`cache_size` numbers at a time from it and hands them out from its dictionary
entry, one by one (`db_next_seq_value`) or many at once
(`db_multi_seq_value`). Every call runs under the cluster lock of the
sequence; a batch call is shown pass by pass of its loop, and no other call
runs between two passes. A node that crashes loses its dictionary entry, and
the next call there loads it from the disk.

Numbers are 64-bit integers, and additions wrap around. Reads and writes of
`sequence$` succeed, and the sequence is neither altered nor dropped.
-/

namespace Cantian.Sequence

open Function

/-- The range of a 64-bit integer. -/
def fits (x : Int) : Bool := -9223372036854775808 ≤ x && x ≤ 9223372036854775807

/-- A 64-bit result. -/
def wrap (x : Int) : Int :=
  (x + 9223372036854775808) % 18446744073709551616 - 9223372036854775808

/-- The definition of a sequence; `is_cyclable` is an argument of the functions that read it. -/
structure Seq where
  minval : Int
  maxval : Int
  step : Int
  cacheSize : Int
deriving DecidableEq, Repr

/-- The part of `dc_sequence_t` that the calls change. -/
structure Cache where
  lastval : Int
  rsvNextval : Int
  cachePos : Int
deriving DecidableEq, Repr

/-- `dc_seq_load`: the entry after it was read from the disk. -/
def seqLoad (q : Seq) (lastNumber : Int) : Cache where
  lastval := lastNumber
  rsvNextval := lastNumber
  cachePos := if 0 < q.cacheSize then q.cacheSize - 1 else 0

/-- The value is past one of the ends. -/
def outOfRange (q : Seq) (v : Int) : Bool := q.maxval < v || v < q.minval

/-- Where a sequence that cycles starts again. -/
def firstval (q : Seq) : Int := if 0 < q.step then q.minval else q.maxval

/-- The end that the values move to. -/
def boundary (q : Seq) : Int := if 0 < q.step then q.maxval else q.minval

/-- `lastval` after the first test of `seq_get_next_value`. -/
def cycled (q : Seq) (v : Int) : Int := if outOfRange q v then firstval q else v

/-- `seq_get_next_value`, with the changed entry and whether it was a success. -/
def seqGetNextValue (isCyclable : Bool) (q : Seq) (c : Cache) : Cache × Bool :=
  if outOfRange q c.lastval && !isCyclable then (c, false)
  else
    let c := { c with lastval := cycled q c.lastval }
    if !fits (c.rsvNextval + q.step) then (c, false)
    else ({ c with rsvNextval := c.lastval, lastval := wrap (c.lastval + q.step) }, true)

/-- The first value past the boundary, counted from `v`. -/
def pastBoundary (q : Seq) (v : Int) : Int :=
  wrap (v + ((wrap (boundary q - v)).tdiv q.step + 1) * q.step)

/-- `db_reach_sequence_boundary`: the changed entry, `end_val`, and whether the end of the
sequence was reached. -/
def reachSequenceBoundary (q : Seq) (c : Cache) (batchCount : Nat) : Cache × Int × Bool :=
  let val := wrap (c.lastval + batchCount * q.step)
  if (0 < q.step && val < q.maxval) || (q.step < 0 && q.minval < val) then
    ({ c with lastval := val }, wrap (val - q.step), false)
  else ({ c with lastval := pastBoundary q c.lastval }, boundary q, true)

/-- The numbers that one refill takes. -/
def cacheCount (q : Seq) : Int := if 0 < q.cacheSize then q.cacheSize else 1

/-- The first test of `seq_generate_last_number`. -/
def strideStays (q : Seq) (lastNumber : Int) : Bool :=
  let val := wrap (lastNumber + cacheCount q * q.step)
  (0 < q.step && val ≤ q.maxval) || (q.step < 0 && q.minval ≤ val)

/-- The number after a refill that passes the boundary, before it is cut to 64 bits. -/
def turnedSum (q : Seq) (lastNumber : Int) : Int :=
  firstval q + (cacheCount q - |(wrap (boundary q - lastNumber)).tdiv q.step| - 1) * q.step

def seqGenerateLastNumber (isCyclable : Bool) (q : Seq) (lastNumber : Int) : Int :=
  if strideStays q lastNumber then wrap (lastNumber + cacheCount q * q.step)
  else if isCyclable then wrap (turnedSum q lastNumber)
  else pastBoundary q lastNumber

/-- `seq_generate_cache`: the number on disk and the entry. -/
def seqGenerateCache (isCyclable : Bool) (q : Seq) (lastNumber : Int) (c : Cache) : Int × Cache :=
  if q.cacheSize ≤ c.cachePos + 1 then
    (seqGenerateLastNumber isCyclable q lastNumber,
      { c with lastval := lastNumber, cachePos := 0 })
  else (lastNumber, { c with cachePos := c.cachePos + 1 })

/-- A `db_multi_seq_value` call between two passes of its loop. -/
structure Call where
  node : Nat
  count : Nat
  remain : Nat
  start : Option Int
deriving DecidableEq, Repr

/-- A sequence that does not cycle, on all nodes. `handed` are the values handed out so far; no
step reads it. -/
structure Sys where
  lastNumber : Int
  cache : Nat → Option Cache
  call : Option Call
  handed : List Int

structure Sys.Fresh (q : Seq) (s : Sys) : Prop where
  lastNumber : q.minval ≤ s.lastNumber ∧ s.lastNumber ≤ q.maxval
  cache : ∀ n, s.cache n = none
  call : s.call = none
  handed : s.handed = []

/-- `dc_seq_open`. -/
def seqOpen (q : Seq) (s : Sys) (n : Nat) : Cache := (s.cache n).getD (seqLoad q s.lastNumber)

/-- `start`, `start + step` and so on up to `endVal`. -/
def valuesUpTo (q : Seq) (start endVal : Int) : List Int :=
  if 0 ≤ (endVal - start) * q.step then
    (List.range ((endVal - start).tdiv q.step + 1).toNat).map fun (j : Nat) => start + j * q.step
  else []

inductive Action where
  | next (node : Nat)
  | multiStart (node : Nat) (count : Nat)
  | multiPass
  | crash (node : Nat)
deriving DecidableEq, Repr

def nextSeqValue (q : Seq) (s : Sys) (n : Nat) : Sys :=
  let (lastNumber, c) := seqGenerateCache false q s.lastNumber (seqOpen q s n)
  let (c', ok) := seqGetNextValue false q c
  { s with
    lastNumber := lastNumber
    cache := update s.cache n (some c')
    handed := if ok then s.handed ++ [c'.rsvNextval] else s.handed }

/-- The end of a successful `db_multi_seq_value`. -/
def multiDone (q : Seq) (s : Sys) (n : Nat) (c : Cache) (start endVal : Int) : Sys :=
  { s with
    cache := update s.cache n (some { c with rsvNextval := c.lastval })
    call := none
    handed := s.handed ++ valuesUpTo q start endVal }

/-- `batch_count` for the rest of the cache range. -/
def batchCount (rest : Int) (remain : Nat) : Nat :=
  let batch := (rest % 4294967296).toNat
  let batch := if 0 < batch then batch else 1
  if batch < remain then batch else remain

/-- One pass of the loop of `db_multi_seq_value`. -/
def multiPass (q : Seq) (s : Sys) (call : Call) : Sys :=
  let (lastNumber, c) := seqGenerateCache false q s.lastNumber (seqOpen q s call.node)
  let s := { s with lastNumber := lastNumber }
  let batch := batchCount (q.cacheSize - c.cachePos) call.remain
  if outOfRange q c.lastval then
    { s with cache := update s.cache call.node (some c), call := none }
  else
    let start := call.start.getD c.lastval
    match reachSequenceBoundary q c batch with
    | (c', endVal, true) => multiDone q s call.node c' start endVal
    | (c', endVal, false) =>
      let c' := { c' with cachePos := c'.cachePos + batch - 1 }
      if call.remain - batch = 0 then multiDone q s call.node c' start endVal
      else
        { s with
          cache := update s.cache call.node (some c')
          call := some { call with remain := call.remain - batch, start := some start } }

/-- The start of `db_multi_seq_value`; without a value to get it returns at once, with
`start_val` and `end_val` as they were set first. -/
def multiStart (q : Seq) (s : Sys) (n count : Nat) : Sys :=
  if count = 0 then multiDone q s n (seqOpen q s n) 0 0
  else { s with call := some ⟨n, count, count, none⟩ }

def seqStep (q : Seq) (s : Sys) : Action → Option Sys
  | .next n => if s.call = none then some (nextSeqValue q s n) else none
  | .multiStart n count => if s.call = none then some (multiStart q s n count) else none
  | .multiPass => s.call.map (multiPass q s)
  | .crash n =>
    if s.call = none then some { s with cache := update s.cache n none } else none

end Cantian.Sequence
