import Loomworks.Intake

/- next_pow2_u64 and the sizes pool_init (src/thread_pool.c) gives the ring and the
cancel index. -/
namespace Loomworks.Pool

open Intake

/-- The loop that doubles cancel_cap while it is below need, for at most fuel rounds. -/
def doubleUntil (need : UInt64) : Nat → UInt64 → UInt64
  | 0, cap => cap
  | fuel + 1, cap => if cap < need then doubleUntil need fuel (cap <<< 1) else cap

def Config.need (config : Config) : Nat := config.ringSize + config.workerCount * dequeCapacity

/-- cancel_cap as pool_init computes it. -/
def Config.cancelCap (config : Config) : Nat :=
  (doubleUntil (UInt64.ofNat config.need) 64 1).toNat

/-- A table of this many slots is addressed through the mask size - 1. -/
def Masked (size : Nat) : Prop :=
  (∃ k, size = 2 ^ k) ∧ ∀ position, position &&& (size - 1) = position % size

structure Sized (config : Config) : Prop where
  ring : Masked config.ringSize
  two : 2 ≤ config.ringSize
  capacity : config.queueCapacity.toNat ≤ config.ringSize
  index : Masked config.cancelCap
  covers : config.ringSize + 256 * config.workerCount ≤ config.cancelCap

/-- What the comment above next_pow2_u64 promises. -/
def SmallestPow2 (v : UInt32) : Prop :=
  IsLeast {p | (∃ k, p = 2 ^ k) ∧ v.toNat ≤ p} (nextPow2 v)

/-- A bit of n is set where one of the next w bits of v is. -/
def Smeared (v w n : Nat) : Prop :=
  ∀ i, n.testBit i = true ↔ ∃ j, i ≤ j ∧ j < i + w ∧ v.testBit j = true

theorem Smeared.shift {v w : Nat} {n b : UInt64} (smeared : Smeared v w n.toNat)
    (within : b.toNat ≤ w) (small : b.toNat < 64) :
    Smeared v (w + b.toNat) (n ||| (n >>> b)).toNat := by
  intro i
  rw [UInt64.toNat_or, UInt64.toNat_shiftRight, Nat.mod_eq_of_lt small, Nat.testBit_or,
    Nat.testBit_shiftRight, Bool.or_eq_true, smeared i, smeared (b.toNat + i)]
  constructor
  · rintro (⟨j, low, high, set⟩ | ⟨j, low, high, set⟩)
    · exact ⟨j, low, by omega, set⟩
    · exact ⟨j, by omega, by omega, set⟩
  · rintro ⟨j, low, high, set⟩
    by_cases near : j < i + w
    · exact Or.inl ⟨j, low, near, set⟩
    · exact Or.inr ⟨j, by omega, by omega, set⟩

/-- Six shifts reach 64 bits. -/
theorem smeared_nextPow2 (v : UInt32) :
    ∃ n, nextPow2 v = n + 1 ∧ Smeared v.toNat 64 n := by
  have one : Smeared v.toNat 1 v.toUInt64.toNat := by
    intro i
    rw [UInt32.toNat_toUInt64]
    constructor
    · exact fun set => ⟨i, Nat.le_refl i, Nat.lt_succ_self i, set⟩
    · rintro ⟨j, low, high, set⟩
      rwa [show i = j by omega]
  have two := @Smeared.shift _ _ _ 1 one (by decide) (by decide)
  have four := @Smeared.shift _ _ _ 2 two (by decide) (by decide)
  have eight := @Smeared.shift _ _ _ 4 four (by decide) (by decide)
  have sixteen := @Smeared.shift _ _ _ 8 eight (by decide) (by decide)
  have half := @Smeared.shift _ _ _ 16 sixteen (by decide) (by decide)
  exact ⟨_, rfl, @Smeared.shift _ _ _ 32 half (by decide) (by decide)⟩

/-- A number of few bits is smeared to all ones. -/
theorem Smeared.eq_ones {v n : Nat} (smeared : Smeared v 64 n) (narrow : v < 2 ^ 64) :
    n = 2 ^ v.size - 1 := by
  apply Nat.eq_of_testBit_eq
  intro i
  rw [Nat.testBit_two_pow_sub_one, Bool.eq_iff_iff, smeared i, decide_eq_true_eq, Nat.lt_size]
  constructor
  · rintro ⟨j, low, -, set⟩
    exact Nat.le_trans (Nat.pow_le_pow_right (by decide) low) (Nat.ge_two_pow_of_testBit set)
  · intro large
    obtain ⟨j, low, set⟩ := Nat.exists_ge_and_testBit_of_ge_two_pow large
    refine ⟨j, low, ?_, set⟩
    have bounded : 2 ^ j < 2 ^ 64 := Nat.lt_of_le_of_lt (Nat.ge_two_pow_of_testBit set) narrow
    have := (Nat.pow_lt_pow_iff_right (by decide)).mp bounded
    omega

theorem nextPow2_eq (v : UInt32) : nextPow2 v = 2 ^ v.toNat.size := by
  obtain ⟨n, value, smeared⟩ := smeared_nextPow2 v
  have narrow : v.toNat < 2 ^ 64 := Nat.lt_trans v.toNat_lt (by decide)
  rw [value, smeared.eq_ones narrow]
  exact Nat.sub_add_cancel Nat.one_le_two_pow

theorem nextPow2_bounds (v : UInt32) (k : Nat) : v.toNat + 1 ≤ nextPow2 v ∧
    (v.toNat < 2 ^ k → nextPow2 v ≤ 2 ^ k) := by
  rw [nextPow2_eq]
  refine ⟨Nat.lt_size_self _, fun below => ?_⟩
  exact Nat.pow_le_pow_right (by decide) (Nat.size_le.mpr below)

/-- A power of two is doubled; everything else is rounded up. -/
theorem smallestPow2_iff (v : UInt32) : SmallestPow2 v ↔ ¬∃ k, v.toNat = 2 ^ k := by
  unfold SmallestPow2
  rw [nextPow2_eq]
  constructor
  · rintro ⟨-, least⟩ ⟨k, power⟩
    have doubled := least ⟨⟨k, rfl⟩, Nat.le_of_eq power⟩
    rw [power, Nat.size_pow] at doubled
    exact absurd doubled (Nat.not_le.mpr (Nat.pow_lt_pow_right (by decide) (Nat.lt_succ_self k)))
  · intro rough
    refine ⟨⟨⟨_, rfl⟩, Nat.le_of_lt (Nat.lt_size_self _)⟩, ?_⟩
    rintro p ⟨⟨k, rfl⟩, above⟩
    have strict : v.toNat < 2 ^ k := Nat.lt_of_le_of_ne above fun same => rough ⟨k, same⟩
    exact Nat.pow_le_pow_right (by decide) (Nat.size_le.mpr strict)

theorem doubleUntil_eq (need : UInt64) (small : need.toNat ≤ 2 ^ 63) (fuel k : Nat) (cap : UInt64)
    (power : cap.toNat = 2 ^ k) (enough : k + fuel = 64) (below : k ≤ Nat.clog 2 need.toNat) :
    (doubleUntil need fuel cap).toNat = 2 ^ Nat.clog 2 need.toNat := by
  have limit : Nat.clog 2 need.toNat ≤ 63 := Nat.clog_le_of_le_pow small
  induction fuel generalizing k cap with
  | zero => omega
  | succ fuel ih =>
    unfold doubleUntil
    split
    · rename_i short
      rw [UInt64.lt_iff_toNat_lt, power] at short
      have more : k < Nat.clog 2 need.toNat := (Nat.lt_clog_iff_pow_lt (by decide)).mpr short
      apply ih (k + 1) (cap <<< 1) _ (by omega) more
      rw [UInt64.toNat_shiftLeft, power, show (1 : UInt64).toNat % 64 = 1 from rfl,
        Nat.shiftLeft_eq, ← Nat.pow_succ]
      exact Nat.mod_eq_of_lt (Nat.pow_lt_pow_right (by decide) (by omega))
    · rename_i reached
      rw [UInt64.lt_iff_toNat_lt, power, Nat.not_lt] at reached
      rw [power, Nat.le_antisymm below (Nat.clog_le_of_le_pow reached)]

/-- The loop ends with the capacity the model of the pool starts from. -/
theorem cancelCap_eq (config : Config) (small : config.need ≤ 2 ^ 63) :
    config.cancelCap = 2 ^ config.indexBits := by
  have wide : (UInt64.ofNat config.need).toNat = config.need := by
    rw [UInt64.toNat_ofNat']
    exact Nat.mod_eq_of_lt (Nat.lt_of_le_of_lt small (by decide))
  have doubled := doubleUntil_eq (UInt64.ofNat config.need) (wide.symm ▸ small) 64 0 1 rfl rfl
    (Nat.zero_le _)
  rw [wide] at doubled
  exact doubled

theorem masked_two_pow (k : Nat) : Masked (2 ^ k) :=
  ⟨⟨k, rfl⟩, fun position => Nat.and_two_pow_sub_one_eq_mod position k⟩

theorem settings_queueCapacity (config : Config) (processors : Nat) :
    (settings config processors).queueCapacity.toNat ≤ 2 ^ 20 := by
  show (if config.queueCapacity ≤ maxQueueCapacity then config.queueCapacity
    else maxQueueCapacity).toNat ≤ 2 ^ 20
  split
  · rename_i small
    exact UInt32.le_iff_toNat_le.mp small
  · exact Nat.le_refl _

/-- A ring has 2 ^ k slots, 1 ≤ k ≤ 21, and room for queue_capacity. -/
theorem ringSize_eq (config : Config) (processors : Nat) (ring : config.ringAlloc = true) :
    ∃ k, (settings config processors).ringSize = 2 ^ k ∧ 1 ≤ k ∧ k ≤ 21 ∧
      (settings config processors).queueCapacity.toNat ≤ 2 ^ k := by
  have limit := settings_queueCapacity config processors
  have ring : (settings config processors).ringAlloc = true := ring
  unfold Config.ringSize
  rw [if_pos ring]
  generalize (settings config processors).queueCapacity = capacity at limit ⊢
  split
  · rename_i unbounded
    exact ⟨12, rfl, by decide, by decide, by simp [unbounded]⟩
  · rename_i bounded
    rw [nextPow2_eq]
    refine ⟨_, rfl, ?_, Nat.size_le.mpr (by omega), Nat.le_of_lt (Nat.lt_size_self _)⟩
    exact Nat.size_pos.mpr (Nat.pos_of_ne_zero fun zero => bounded (UInt32.toNat_inj.mp zero))

theorem settings_workerCount (workers capacity : UInt32) (processors : Nat) :
    (settings ⟨workers.toNat, capacity, true, true⟩ processors).workerCount < 2 ^ 32 := by
  show (if workers.toNat = 0 then min (max processors 1) 64 * 2 else workers.toNat) < 2 ^ 32
  split
  · omega
  · exact workers.toNat_lt

theorem sized (workers capacity : UInt32) (processors : Nat) :
    Sized (settings ⟨workers.toNat, capacity, true, true⟩ processors) := by
  obtain ⟨k, size, two, limit, room⟩ := ringSize_eq ⟨workers.toNat, capacity, true, true⟩ processors rfl
  have count := settings_workerCount workers capacity processors
  generalize settings ⟨workers.toNat, capacity, true, true⟩ processors = config at *
  have ring : 2 ^ k ≤ 2 ^ 21 := Nat.pow_le_pow_right (by decide) limit
  have need : config.need = 2 ^ k + config.workerCount * 256 := by
    rw [Config.need, size]
    rfl
  have cap := cancelCap_eq config (by omega)
  have covered : config.need ≤ 2 ^ config.indexBits := Nat.le_pow_clog (by decide) _
  exact {
    ring := size ▸ masked_two_pow k
    two := by
      rw [size]
      exact (Nat.pow_le_pow_right (by decide) two : 2 ^ 1 ≤ 2 ^ k)
    capacity := size ▸ room
    index := cap ▸ masked_two_pow _
    covers := by
      rw [cap, size]
      omega }

/-- The ring and the index are always as large as they have to be; next_pow2_u64 is what
it is said to be unless it is given a power of two. -/
theorem ring_sizing (v workers capacity : UInt32) (processors : Nat) :
    (SmallestPow2 v ∧ Sized (settings ⟨workers.toNat, capacity, true, true⟩ processors)) ↔
      ¬∃ k, v.toNat = 2 ^ k := by
  rw [smallestPow2_iff]
  exact and_iff_left (sized workers capacity processors)

/-- 4 is a power of two, and next_pow2_u64 makes 8 of it. -/
theorem nextPow2_doubles_four : nextPow2 4 = 8 ∧ ¬SmallestPow2 4 := by
  refine ⟨by decide, ?_⟩
  rw [smallestPow2_iff]
  exact fun rough => rough ⟨2, rfl⟩

end Loomworks.Pool
