-- SUMMARY: The predicates on tuple ids that divide a table among the readers of its initial copy.
import Mathlib.Tactic.Ring
import Moonlink.Lib.Panics

/-!
# Shards of a table

Each shard but the last has the rows of a range of blocks, and empty ranges are dropped. The last
shard is open, since the table may have more blocks than estimated.

Whether arithmetic that leaves 64 bits panics or wraps around depends on how the code is built.
-/

namespace Moonlink.Replication

open Lib

/-- The id of a tuple; offsets in a block start at one. -/
structure Tid where
  block : Nat
  offset : Nat
  offset_pos : 1 ≤ offset

/-- The tuples from the first one of a block on, up to the first one of another. -/
structure CtidPredicate where
  cur : Int
  next : Option Int

namespace CtidPredicate

def text (p : CtidPredicate) : String :=
  s!"ctid >= '({p.cur},1)'::tid" ++ (p.next.map fun next => s!" AND ctid < '({next},1)'::tid").getD ""

/-- A negative number is no block. -/
def holds (p : CtidPredicate) (tid : Tid) : Bool :=
  0 ≤ p.cur && (p.cur < tid.block || p.cur = tid.block && 1 ≤ tid.offset) &&
    p.next.all fun next => (tid.block : Int) < next || tid.block = next && tid.offset < 1

end CtidPredicate

inductive ShardPanic where
  | arithmeticOverflow
  deriving DecidableEq, Repr

section Plan

variable (overflowChecks : Bool)

/-- The result of an addition or subtraction of 64-bit numbers. -/
def toI64 (n : Int) : Except ShardPanic Int :=
  if -2 ^ 63 ≤ n ∧ n < 2 ^ 63 then .ok n
  else if overflowChecks then .error .arithmeticOverflow
  else .ok (n.bmod (2 ^ 64))

def nextBlock (blocks step cur : Int) : Except ShardPanic Int := do
  let n ← toI64 overflowChecks (cur + step)
  return min n blocks

/-- The last `n` shards, from the block `cur` on. -/
def planShards (blocks step : Int) : Nat → Int → Except ShardPanic (List CtidPredicate)
  | 0, _ => .ok []
  | n + 1, cur => do
    let next ← nextBlock overflowChecks blocks step cur
    let preds ← planShards blocks step n next
    return if n = 0 then ⟨cur, none⟩ :: preds else if cur < next then ⟨cur, some next⟩ :: preds else preds

/-- The estimate may fail. -/
def planCtidShards (estimate : Option Int64) (shardCount : UInt64) : Except ShardPanic (List CtidPredicate) := do
  let blocks := (estimate.getD 0).toInt
  if shardCount.toNat ≤ 1 ∨ blocks ≤ 0 then return [⟨0, none⟩]
  let shards := shardCount.toInt64.toInt
  let sum ← toI64 overflowChecks (blocks + shards)
  let sum ← toI64 overflowChecks (sum - 1)
  let step := sum.tdiv shards
  planShards overflowChecks blocks step shards.toNat 0

end Plan

/-! ## What is covered -/

/-- Exactly one of the predicates holds of each tuple. -/
def Partitions (plan : Except ShardPanic (List CtidPredicate)) : Prop :=
  Returns plan fun preds => ∀ tid, preds.countP (·.holds tid) = 1

theorem holds_open (tid : Tid) {cur : Int} (h : 0 ≤ cur) :
    (⟨cur, none⟩ : CtidPredicate).holds tid = decide (cur ≤ tid.block) := by
  have hoffset := tid.offset_pos
  simp [CtidPredicate.holds, hoffset, h, le_iff_lt_or_eq]

theorem holds_range (tid : Tid) {cur next : Int} (h : 0 ≤ cur) :
    (⟨cur, some next⟩ : CtidPredicate).holds tid = (decide (cur ≤ tid.block) && decide (tid.block < next)) := by
  have hoffset := tid.offset_pos
  simp [CtidPredicate.holds, hoffset, h, le_iff_lt_or_eq, Nat.ne_of_gt hoffset]

section Shards

variable {overflowChecks : Bool} {blocks step : Int}

theorem toI64_eq {n : Int} (hlow : -2 ^ 63 ≤ n) (hhigh : n < 2 ^ 63) : toI64 overflowChecks n = .ok n :=
  if_pos ⟨hlow, hhigh⟩

theorem nextBlock_eq {cur : Int} (hlow : -2 ^ 63 ≤ cur + step) (hhigh : cur + step < 2 ^ 63) :
    nextBlock overflowChecks blocks step cur = .ok (min (cur + step) blocks) := by
  rw [nextBlock, toI64_eq hlow hhigh]
  rfl

/-- The tuples from the current block on are in one shard each. What is left of the steps stays below the sum of the
blocks and the shards. -/
theorem planShards_covers (hstep : 0 ≤ step) (n : Nat) : ∀ cur, 0 ≤ cur → cur ≤ blocks →
    cur + (n + 1) * step < 2 ^ 63 → Returns (planShards overflowChecks blocks step (n + 1) cur) fun preds =>
      ∀ tid, preds.countP (·.holds tid) = if cur ≤ tid.block then 1 else 0 := by
  induction n with
  | zero =>
    intro cur hcur _ hbound
    rw [planShards, nextBlock_eq (by omega) (by omega)]
    exact .ok fun tid => by simp [holds_open tid hcur]
  | succ n ih =>
    intro cur hcur hle hbound
    have hsteps : (((n + 1 : Nat) : Int) + 1) * step = (n + 1) * step + step := by
      push_cast
      ring
    have hrest : 0 ≤ ((n : Int) + 1) * step := Int.mul_nonneg (by omega) hstep
    rw [hsteps] at hbound
    rw [planShards, nextBlock_eq (by omega) (by omega), ok_bind]
    refine (ih (min (cur + step) blocks) (by omega) (by omega) (by omega)).bind fun preds hpreds => ?_
    rw [if_neg (Nat.succ_ne_zero n)]
    refine .pure fun tid => ?_
    split
    · rw [List.countP_cons, hpreds, holds_range tid hcur]
      simp only [Bool.and_eq_true, decide_eq_true_eq]
      split_ifs <;> omega
    · rw [hpreds]
      split_ifs <;> omega

/-- With no step up, only the last shard is left. -/
theorem planShards_of_nonpos (hblocks : 0 < blocks) (hstep : step ≤ 0) (n : Nat) : ∀ cur ≤ 0,
    -2 ^ 63 ≤ cur + (n + 1) * step →
      planShards overflowChecks blocks step (n + 1) cur = .ok [⟨cur + n * step, none⟩] := by
  induction n with
  | zero =>
    intro cur hcur hbound
    rw [planShards, nextBlock_eq (by omega) (by omega)]
    simp [planShards]
  | succ n ih =>
    intro cur hcur hbound
    have hsteps : (((n + 1 : Nat) : Int) + 1) * step = (n + 1) * step + step := by
      push_cast
      ring
    have hrest : ((n : Int) + 1) * step ≤ 0 := Int.mul_nonpos_of_nonneg_of_nonpos (by omega) hstep
    rw [hsteps] at hbound
    rw [planShards, nextBlock_eq (by omega) (by omega), ok_bind, min_eq_left (by omega),
      ih (cur + step) (by omega) (by omega), ok_bind, if_neg (Nat.succ_ne_zero n), if_neg (by omega)]
    refine congrArg (fun cur => Except.ok [CtidPredicate.mk cur none]) ?_
    push_cast
    ring

end Shards

section Plan

variable {overflowChecks : Bool} {estimate : Option Int64} {shardCount : UInt64} {sum : Int}

theorem toInt64_toInt (n : UInt64) :
    n.toInt64.toInt = if n.toNat < 2 ^ 63 then (n.toNat : Int) else n.toNat - 2 ^ 64 := by
  change n.toBitVec.toInt = _
  rw [BitVec.toInt_eq_toNat_cond]
  change (if 2 * n.toNat < 2 ^ 64 then (n.toNat : Int) else n.toNat - (2 ^ 64 : Nat)) = _
  split <;> split <;> omega

/-- The sum of the blocks and the shards, less one. -/
def blocksAndShards (overflowChecks : Bool) (estimate : Option Int64) (shardCount : UInt64) : Except ShardPanic Int := do
  let n ← toI64 overflowChecks ((estimate.getD 0).toInt + shardCount.toNat)
  toI64 overflowChecks (n - 1)

theorem planCtidShards_eq (hblocks : 0 < (estimate.getD 0).toInt) (hshards : 1 < shardCount.toNat)
    (hlt : shardCount.toNat < 2 ^ 63) : planCtidShards overflowChecks estimate shardCount =
      blocksAndShards overflowChecks estimate shardCount >>= fun sum =>
        planShards overflowChecks (estimate.getD 0).toInt (sum.tdiv shardCount.toNat) shardCount.toNat 0 := by
  unfold planCtidShards blocksAndShards
  simp only
  rw [if_neg (by omega), toInt64_toInt, if_pos hlt, Int.toNat_natCast, bind_assoc]

/-- A negative sum is only right if no step down comes of it. -/
theorem partitions_of_sum (hblocks : 0 < (estimate.getD 0).toInt) (hshards : 1 < shardCount.toNat)
    (hlt : shardCount.toNat < 2 ^ 63) (hsum : blocksAndShards overflowChecks estimate shardCount = .ok sum)
    (hlow : -2 ^ 63 ≤ sum) (hhigh : sum < 2 ^ 63) :
    Partitions (planCtidShards overflowChecks estimate shardCount) ↔ -(shardCount.toNat : Int) < sum := by
  rw [planCtidShards_eq hblocks hshards hlt, hsum, ok_bind]
  obtain ⟨n, hn⟩ : ∃ n, shardCount.toNat = n + 1 := ⟨shardCount.toNat - 1, by omega⟩
  rw [hn] at hshards ⊢
  obtain hnonneg | hneg := le_or_gt 0 sum
  · have hle := Int.mul_tdiv_self_le (k := ((n + 1 : Nat) : Int)) hnonneg
    push_cast at hle ⊢
    have hstep : 0 ≤ sum.tdiv (n + 1) := Int.tdiv_nonneg hnonneg (by omega)
    refine iff_of_true ((planShards_covers hstep n 0 le_rfl hblocks.le (by omega)).mono fun preds h tid => ?_) (by omega)
    rw [h, if_pos (by omega)]
  · obtain ⟨t, ht⟩ : ∃ t, (-sum).tdiv (n + 1 : Nat) = t := ⟨_, rfl⟩
    have hnonneg : 0 ≤ t := ht ▸ Int.tdiv_nonneg (by omega) (by omega)
    have hle := Int.mul_tdiv_self_le (x := -sum) (k := ((n + 1 : Nat) : Int)) (by omega)
    have hgt := Int.lt_tdiv_add_one_mul_self (-sum) (b := ((n + 1 : Nat) : Int)) (by omega)
    have hstep : sum.tdiv (n + 1 : Nat) = -t := by rw [← ht, Int.neg_tdiv, Int.neg_neg]
    rw [ht] at hle hgt
    push_cast at hle hgt
    rw [hstep, planShards_of_nonpos hblocks (by omega) n 0 le_rfl (by rw [Int.mul_neg]; omega), Partitions, Returns.ok_iff]
    obtain rfl | hpos := hnonneg.eq_or_lt
    · refine iff_of_true (fun tid => ?_) (by omega)
      simp [holds_open]
    · have hdown : 0 < (n : Int) * t := Int.mul_pos (by omega) hpos
      refine iff_of_false (fun h => ?_) ?_
      · have hfirst := h ⟨0, 1, le_rfl⟩
        simp [CtidPredicate.holds] at hfirst
        omega
      · have hmul : ((n : Int) + 1) * 1 ≤ (n + 1) * t := Int.mul_le_mul_of_nonneg_left (by omega) (by omega)
        omega

/-- Every tuple is in exactly one shard if there is at most one shard or no block to divide. Otherwise the shards must
be fewer than `2 ^ 63` and their sum with the blocks less than that. Where it may wrap around, it may also be `2 ^ 63`,
or so large that what it wraps around to is divided to zero. -/
theorem planCtidShards_partitions_iff : ∀ overflowChecks estimate shardCount,
    Partitions (planCtidShards overflowChecks estimate shardCount) ↔
      shardCount.toNat ≤ 1 ∨ (estimate.getD 0).toInt ≤ 0 ∨ shardCount.toNat < 2 ^ 63 ∧
        ((estimate.getD 0).toInt + shardCount.toNat < 2 ^ 63 ∨ overflowChecks = false ∧
          ((estimate.getD 0).toInt + shardCount.toNat = 2 ^ 63 ∨
            2 ^ 64 + 1 < (estimate.getD 0).toInt + 2 * shardCount.toNat)) := by
  intro overflowChecks estimate shardCount
  have hhigh := (estimate.getD 0).toInt_lt
  by_cases hsingle : shardCount.toNat ≤ 1 ∨ (estimate.getD 0).toInt ≤ 0
  · have hplan : planCtidShards overflowChecks estimate shardCount = .ok [⟨0, none⟩] := if_pos hsingle
    rw [hplan, ← or_assoc]
    exact iff_of_true (.ok fun tid => by simp [holds_open]) (.inl hsingle)
  obtain ⟨hshards, hblocks⟩ := not_or.mp hsingle
  rw [not_le] at hshards hblocks
  by_cases hlt : shardCount.toNat < 2 ^ 63
  · have hiff : ∀ sum, blocksAndShards overflowChecks estimate shardCount = .ok sum → -2 ^ 63 ≤ sum → sum < 2 ^ 63 →
        (Partitions (planCtidShards overflowChecks estimate shardCount) ↔ -(shardCount.toNat : Int) < sum) :=
      fun sum => partitions_of_sum hblocks hshards hlt
    have hplan := @planCtidShards_eq overflowChecks _ _ hblocks hshards hlt
    unfold blocksAndShards at hiff hplan
    obtain hfits | hover := lt_or_ge ((estimate.getD 0).toInt + shardCount.toNat : Int) (2 ^ 63)
    · rw [toI64_eq (by omega) hfits, ok_bind, toI64_eq (by omega) (by omega)] at hiff
      rw [hiff _ rfl (by omega) (by omega)]
      omega
    rw [toI64, if_neg (by omega)] at hiff hplan
    cases overflowChecks with
    | true =>
      rw [hplan]
      refine iff_of_false ?_ (by simp; omega)
      rintro ⟨preds, hpreds, -⟩
      cases hpreds
    | false =>
      have hwrap : ((estimate.getD 0).toInt + shardCount.toNat : Int).bmod (2 ^ 64) =
          (estimate.getD 0).toInt + shardCount.toNat - 2 ^ 64 := by
        rw [Int.bmod_def]
        omega
      simp only [Bool.false_eq_true, if_false, hwrap, ok_bind] at hiff
      obtain heq | hgt := hover.eq_or_lt
      · have hwrap' : ((estimate.getD 0).toInt + shardCount.toNat - 2 ^ 64 - 1 : Int).bmod (2 ^ 64) =
            (estimate.getD 0).toInt + shardCount.toNat - 1 := by
          rw [Int.bmod_def]
          omega
        rw [toI64, if_neg (by omega), if_neg Bool.false_ne_true, hwrap'] at hiff
        rw [hiff _ rfl (by omega) (by omega)]
        simp
        omega
      · rw [toI64_eq (by omega) (by omega)] at hiff
        rw [hiff _ rfl (by omega) (by omega)]
        simp
        omega
  -- The count is negative, and there are no shards.
  · have hplan : planCtidShards overflowChecks estimate shardCount = .ok [] := by
      have hcount := shardCount.toNat_lt
      unfold planCtidShards
      simp only
      rw [if_neg hsingle, toInt64_toInt, if_neg hlt, toI64_eq (by omega) (by omega), ok_bind,
        toI64_eq (by omega) (by omega), ok_bind, Int.toNat_of_nonpos (by omega)]
      rfl
    rw [hplan]
    refine iff_of_false (fun h => ?_) (by omega)
    exact absurd (Returns.ok_iff.mp h ⟨0, 1, le_rfl⟩) (by decide)

/-- With 2^63 shards there are none. -/
theorem planCtidShards_none : ¬ Partitions (planCtidShards true (some 4) 9223372036854775808) := by
  have hplan : planCtidShards true (some 4) 9223372036854775808 = .ok [] := rfl
  rw [hplan]
  exact fun h => absurd (Returns.ok_iff.mp h ⟨0, 1, le_rfl⟩) (by decide)

end Plan

end Moonlink.Replication
