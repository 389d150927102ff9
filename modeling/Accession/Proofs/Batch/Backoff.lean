import Accession.Batch.RetryPolicy
import Mathlib.Algebra.Order.Ring.Nat
set_option autoImplicit false

namespace Accession.Batch

/-- Whole seconds, and the nanoseconds of the one that has begun. -/
structure Span where
  seconds : UInt64
  nanos : UInt32
  nanos_lt : nanos.toNat < 1000000000

namespace Span

def nanoseconds (t : Span) : Nat :=
  t.seconds.toNat * 1000000000 + t.nanos.toNat

theorem nanos_ofMillis (ms : UInt64) :
    ((ms % 1000).toUInt32 * 1000000).toNat = ms.toNat % 1000 * 1000000 := by
  rw [UInt32.toNat_mul, UInt64.toNat_toUInt32, UInt64.toNat_mod]
  have hsmall : ms.toNat % 1000 < 1000 := Nat.mod_lt _ (by decide)
  change ms.toNat % 1000 % 2 ^ 32 * 1000000 % 2 ^ 32 = _
  omega

def ofMillis (ms : UInt64) : Span where
  seconds := ms / 1000
  nanos := (ms % 1000).toUInt32 * 1000000
  nanos_lt := by
    rw [nanos_ofMillis]
    omega

theorem nanoseconds_ofMillis (ms : UInt64) : (ofMillis ms).nanoseconds = ms.toNat * 1000000 := by
  have hseconds : (ofMillis ms).seconds.toNat = ms.toNat / 1000 := UInt64.toNat_div ms 1000
  have hnanos : (ofMillis ms).nanos.toNat = ms.toNat % 1000 * 1000000 := nanos_ofMillis ms
  rw [nanoseconds, hseconds, hnanos]
  omega

def longest : Span :=
  ⟨18446744073709551615, 999999999, by decide⟩

theorem nanoseconds_lt (t : Span) : t.nanoseconds < 2 ^ 64 * 1000000000 := by
  have hseconds : t.seconds.toNat < 2 ^ 64 := t.seconds.toNat_lt
  have hnanos := t.nanos_lt
  rw [nanoseconds]
  omega

theorem nanoseconds_longest : longest.nanoseconds = 2 ^ 64 * 1000000000 - 1 := by
  decide

def product (t : Span) (k : UInt32) : UInt64 :=
  t.nanos.toUInt64 * k.toUInt64

theorem toNat_product (t : Span) (k : UInt32) :
    (t.product k).toNat = t.nanos.toNat * k.toNat := by
  rw [product, UInt64.toNat_mul, UInt32.toNat_toUInt64, UInt32.toNat_toUInt64]
  refine Nat.mod_eq_of_lt ?_
  calc t.nanos.toNat * k.toNat
      < 2 ^ 32 * 2 ^ 32 := Nat.mul_lt_mul'' t.nanos.toNat_lt k.toNat_lt
    _ = 2 ^ 64 := by decide

theorem nanos_rest (n : UInt64) :
    (n % 1000000000).toUInt32.toNat = n.toNat % 1000000000 := by
  rw [UInt64.toNat_toUInt32, UInt64.toNat_mod]
  change n.toNat % 1000000000 % 2 ^ 32 = _
  omega

/-- A multiple of a span, or the longest one if there is no such span. -/
def times (t : Span) (k : UInt32) : Span :=
  if t.seconds.toNat * k.toNat + (t.product k / 1000000000).toNat < 2 ^ 64 then {
    seconds := t.seconds * k.toUInt64 + t.product k / 1000000000
    nanos := (t.product k % 1000000000).toUInt32
    nanos_lt := by
      rw [nanos_rest]
      exact Nat.mod_lt _ (by decide) }
  else longest

theorem nanoseconds_times (t : Span) (k : UInt32) :
    (t.times k).nanoseconds = min (t.nanoseconds * k.toNat) longest.nanoseconds := by
  have hcarried : (t.product k / 1000000000).toNat = t.nanos.toNat * k.toNat / 1000000000 := by
    rw [UInt64.toNat_div, toNat_product]
    rfl
  have hexact : t.nanoseconds * k.toNat =
      t.seconds.toNat * k.toNat * 1000000000 + t.nanos.toNat * k.toNat := by
    rw [nanoseconds, Nat.add_mul, Nat.mul_right_comm]
  rw [times, hcarried, hexact, nanoseconds_longest]
  split
  · next hfits =>
    have hseconds : (t.seconds * k.toUInt64 + t.product k / 1000000000).toNat =
        t.seconds.toNat * k.toNat + t.nanos.toNat * k.toNat / 1000000000 := by
      rw [UInt64.toNat_add, UInt64.toNat_mul, UInt32.toNat_toUInt64, hcarried]
      omega
    rw [nanoseconds, hseconds, nanos_rest, toNat_product]
    omega
  · next hlong =>
    rw [nanoseconds_longest]
    omega

def shorter (t u : Span) : Span :=
  if t.seconds < u.seconds ∨ t.seconds = u.seconds ∧ t.nanos ≤ u.nanos then t else u

theorem nanoseconds_shorter (t u : Span) :
    (t.shorter u).nanoseconds = min t.nanoseconds u.nanoseconds := by
  have ht := t.nanos_lt
  have hu := u.nanos_lt
  simp only [shorter, UInt64.lt_iff_toNat_lt, ← UInt64.toNat_inj, UInt32.le_iff_toNat_le]
  split <;> (rw [nanoseconds, nanoseconds]; omega)

/-- How far the bit is moved: by the attempts made before this one, but never out of the word. -/
def places (attempt : UInt32) : UInt32 :=
  min (if attempt = 0 then 0 else attempt - 1) 31

theorem toNat_places (attempt : UInt32) : (places attempt).toNat = min (attempt.toNat - 1) 31 := by
  have hearlier : (if attempt = 0 then 0 else attempt - 1).toNat = attempt.toNat - 1 := by
    split
    · next hzero =>
      rw [hzero]
      rfl
    · next hpositive =>
      have hone : 1 ≤ attempt.toNat :=
        Nat.pos_of_ne_zero (fun h => hpositive (UInt32.toNat_inj.1 h))
      exact UInt32.toNat_sub_of_le attempt 1 (UInt32.le_iff_toNat_le.2 hone)
  rw [places, ← hearlier]
  exact UInt32.toNat_min _ _

theorem toNat_moved (attempt : UInt32) :
    ((1 : UInt32) <<< places attempt).toNat = 2 ^ min (attempt.toNat - 1) 31 := by
  have hplaces : min (attempt.toNat - 1) 31 ≤ 31 := Nat.min_le_right _ _
  have hword : 2 ^ min (attempt.toNat - 1) 31 < 2 ^ 32 :=
    Nat.pow_lt_pow_right (by decide) (Nat.lt_succ_of_le hplaces)
  rw [UInt32.toNat_shiftLeft, toNat_places, Nat.mod_eq_of_lt (Nat.lt_succ_of_le hplaces),
    Nat.shiftLeft_eq, UInt32.toNat_one, Nat.one_mul, Nat.mod_eq_of_lt hword]

def wait (initial limit : UInt64) (attempt : UInt32) : Span :=
  ((ofMillis initial).times (1 <<< places attempt)).shorter (ofMillis limit)

theorem nanoseconds_wait (attempts : Nat) (initial limit : UInt64) (attempt : UInt32) :
    (wait initial limit attempt).nanoseconds =
      RetryPolicy.backoff ⟨attempts, initial.toNat, limit.toNat⟩ attempt.toNat * 1000000 := by
  have hlimit := (ofMillis limit).nanoseconds_lt
  rw [nanoseconds_ofMillis] at hlimit
  rw [wait, nanoseconds_shorter, nanoseconds_times, nanoseconds_longest, toNat_moved,
    nanoseconds_ofMillis, nanoseconds_ofMillis, RetryPolicy.backoff, Nat.pow_eq]
  -- a multiple that stopped at the longest span is beyond the limit in any case
  rw [Nat.min_assoc, Nat.min_eq_right (Nat.le_sub_one_of_lt hlimit), Nat.mul_right_comm,
    Nat.mul_min_mul_right]

end Span

namespace RetryPolicy

/-- No doubling is missed among so many: there are not too many, or those that are missed would not
have changed the wait. -/
def Doubling (policy : RetryPolicy) (failed : Nat) : Prop :=
  failed ≤ 31 ∨ policy.initialBackoff = 0 ∨ policy.maxBackoff ≤ policy.initialBackoff * 2 ^ 31

variable {policy : RetryPolicy} {failed : Nat}

theorem backoff_succ (policy : RetryPolicy) (failed : Nat) :
    policy.backoff (failed + 1) =
      min (policy.initialBackoff * 2 ^ min failed 31) policy.maxBackoff := by
  rw [backoff, Nat.add_sub_cancel, Nat.pow_eq]

theorem backoff_of_doubling (h : policy.Doubling failed) :
    policy.backoff (failed + 1) = min (policy.initialBackoff * 2 ^ failed) policy.maxBackoff := by
  rw [backoff_succ]
  obtain hearly | hlate := Nat.le_total failed 31
  · rw [Nat.min_eq_left hearly]
  · rw [Nat.min_eq_right hlate]
    obtain hfew | hzero | hcapped := h
    · rw [Nat.le_antisymm hfew hlate]
    · rw [hzero, Nat.zero_mul, Nat.zero_mul]
    · have hpow : 2 ^ 31 ≤ 2 ^ failed := Nat.pow_le_pow_right (by decide) hlate
      have hbeyond : policy.maxBackoff ≤ policy.initialBackoff * 2 ^ failed :=
        hcapped.trans (Nat.mul_le_mul_left policy.initialBackoff hpow)
      rw [Nat.min_eq_right hcapped, Nat.min_eq_right hbeyond]

theorem backoff_of_not_doubling (h : ¬policy.Doubling failed) :
    policy.backoff (failed + 1) = policy.initialBackoff * 2 ^ 31 ∧
      policy.backoff (failed + 1) < policy.initialBackoff * 2 ^ failed ∧
      policy.backoff (failed + 1) < policy.maxBackoff := by
  obtain ⟨hlate, hpositive, hbelow⟩ : 31 < failed ∧ 0 < policy.initialBackoff ∧
      policy.initialBackoff * 2 ^ 31 < policy.maxBackoff := by
    rw [Doubling] at h
    omega
  have hwait : policy.backoff (failed + 1) = policy.initialBackoff * 2 ^ 31 := by
    rw [backoff_succ, Nat.min_eq_right hlate.le, Nat.min_eq_left hbelow.le]
  have hpow : 2 ^ 31 < 2 ^ failed := Nat.pow_lt_pow_right (by decide) hlate
  exact ⟨hwait, hwait ▸ Nat.mul_lt_mul_of_pos_left hpow hpositive, hwait ▸ hbelow⟩

theorem backoff_eq_iff :
    policy.backoff (failed + 1) = min (policy.initialBackoff * 2 ^ failed) policy.maxBackoff ↔
      policy.Doubling failed := by
  refine ⟨fun heq => by_contra fun h => ?_, backoff_of_doubling⟩
  obtain ⟨-, hexact, hlimit⟩ := backoff_of_not_doubling h
  exact (lt_min hexact hlimit).ne heq

theorem Doubling.of_succ (h : policy.Doubling (failed + 1)) : policy.Doubling failed :=
  h.imp_left Nat.le_of_succ_le

theorem backoff_step_iff :
    policy.backoff (failed + 2) = min (2 * policy.backoff (failed + 1)) policy.maxBackoff ↔
      policy.Doubling (failed + 1) := by
  constructor
  · intro hstep
    by_contra h
    obtain ⟨hwait, -, hbelow⟩ := backoff_of_not_doubling h
    obtain ⟨hlate, hpositive⟩ : 31 ≤ failed ∧ 0 < policy.initialBackoff := by
      rw [Doubling] at h
      omega
    -- the wait before was the same already
    have hsame : policy.backoff (failed + 1) = policy.initialBackoff * 2 ^ 31 := by
      rw [backoff_succ, Nat.min_eq_right hlate, Nat.min_eq_left (hwait ▸ hbelow).le]
    rw [hwait] at hbelow
    rw [hwait, hsame] at hstep
    omega
  · intro h
    rw [backoff_of_doubling h, backoff_of_doubling h.of_succ, Nat.pow_succ, ← Nat.mul_assoc]
    omega

end RetryPolicy

/-- Under any settings in milliseconds, of 64 bits each, the first wait is the initial one, and from
each failed attempt to the next the wait doubles, both up to the limit: as far as the thirty-second,
or for good if there is nothing to double or the limit is reached by then, and no further. No number
is ever too large for its word. -/
theorem backoff_doubles (attempts : Nat) (initial limit : UInt64) :
    let policy : RetryPolicy := ⟨attempts, initial.toNat, limit.toNat⟩
    policy.backoff 1 = min initial.toNat limit.toNat ∧
    (∀ failed, policy.backoff (failed + 2) = min (2 * policy.backoff (failed + 1)) limit.toNat ↔
      failed + 1 ≤ 31 ∨ initial = 0 ∨ limit.toNat ≤ initial.toNat * 2 ^ 31) ∧
    (∀ failed, policy.backoff (failed + 1) = min (initial.toNat * 2 ^ failed) limit.toNat ↔
      failed ≤ 31 ∨ initial = 0 ∨ limit.toNat ≤ initial.toNat * 2 ^ 31) ∧
    (∀ attempt, (Span.wait initial limit attempt).nanoseconds =
      policy.backoff attempt.toNat * 1000000) := by
  intro policy
  have hinitial : policy.initialBackoff = 0 ↔ initial = 0 :=
    UInt64.toNat_inj (b := 0)
  refine ⟨?_, fun failed => ?_, fun failed => ?_, Span.nanoseconds_wait attempts initial limit⟩
  · rw [RetryPolicy.backoff_succ policy 0, Nat.zero_min, Nat.pow_zero, Nat.mul_one]
  · rw [← hinitial]
    exact RetryPolicy.backoff_step_iff
  · rw [← hinitial]
    exact RetryPolicy.backoff_eq_iff

/-- From one millisecond up to a limit of 2⁴⁰, the wait after the thirty-third attempt is the one
after the thirty-second, far from the limit. -/
theorem doubling_ends :
    let policy : RetryPolicy := ⟨10, 1, 2 ^ 40⟩
    policy.backoff 32 = 2 ^ 31 ∧ policy.backoff 33 = 2 ^ 31 ∧
      policy.backoff 33 ≠ min (2 * policy.backoff 32) policy.maxBackoff := by
  decide

end Accession.Batch
