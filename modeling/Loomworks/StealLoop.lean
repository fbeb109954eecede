import Loomworks.Pool

/- Step 3 of worker_entry (src/thread_pool.c): the deques a worker with nothing of its own
to do tries to steal from, in 32-bit arithmetic. -/
namespace Loomworks.Pool.Steal

/-- The victim of round k; the rounds are one apart, or two while the ring has work. -/
def victim (idx workerCount stride k : UInt32) : UInt32 := (idx + 1 + k * stride) % workerCount

/-- The loop from round k on: the deques probed in order, and what was stolen. -/
def probeLoop (steal : UInt32 → Option Nat) (idx workerCount stride : UInt32) :
    Nat → UInt32 → List UInt32 × Option Nat
  | 0, _ => ([], none)
  | rounds + 1, k =>
    let v := victim idx workerCount stride k
    if v = idx then probeLoop steal idx workerCount stride rounds (k + 1)
    else match steal v with
      | some task => ([v], some task)
      | none =>
        let rest := probeLoop steal idx workerCount stride rounds (k + 1)
        (v :: rest.1, rest.2)

/-- steal is deque_steal on the deque of a slot. -/
def stealLoop (steal : UInt32 → Option Nat) (ringHasWork : Bool) (idx workerCount : UInt32) :
    List UInt32 × Option Nat :=
  if 1 < workerCount then
    if ringHasWork then probeLoop steal idx workerCount 2 stealTries 0
    else probeLoop steal idx workerCount 1 (workerCount - 1).toNat 0
  else ([], none)

/-- With a dry ring no deque is probed twice and the own one never; a worker that has found
nothing has probed all others. -/
def Covers (idx workerCount : UInt32) : Prop :=
  ∀ steal : UInt32 → Option Nat,
    (stealLoop steal false idx workerCount).1.Nodup ∧
    (∀ v ∈ (stealLoop steal false idx workerCount).1, v < workerCount ∧ v ≠ idx) ∧
    ((stealLoop steal false idx workerCount).2 = none →
      ∀ v, v < workerCount → v ≠ idx → v ∈ (stealLoop steal false idx workerCount).1)

/-- The deques probed by rounds k, k + 1, … while nothing is found. -/
def probeOrder (idx workerCount stride : UInt32) (rounds k : Nat) : List UInt32 :=
  ((List.range' k rounds).map fun k => victim idx workerCount stride (UInt32.ofNat k)).filter (· ≠ idx)

variable {idx workerCount stride : UInt32}

theorem probeLoop_spec (steal : UInt32 → Option Nat) (rounds k : Nat) :
    (probeLoop steal idx workerCount stride rounds (UInt32.ofNat k)).1 <+:
        probeOrder idx workerCount stride rounds k ∧
      ((probeLoop steal idx workerCount stride rounds (UInt32.ofNat k)).2 = none →
        (probeLoop steal idx workerCount stride rounds (UInt32.ofNat k)).1 =
          probeOrder idx workerCount stride rounds k) := by
  induction rounds generalizing k with
  | zero => exact ⟨List.prefix_rfl, fun _ => rfl⟩
  | succ rounds ih =>
    have next : UInt32.ofNat k + 1 = UInt32.ofNat (k + 1) := by
      rw [UInt32.ofNat_add]
      rfl
    obtain ⟨front, whole⟩ := ih (k + 1)
    simp only [probeLoop, probeOrder, List.range'_succ, List.map_cons, next]
    by_cases own : victim idx workerCount stride (UInt32.ofNat k) = idx
    · rw [if_pos own, List.filter_cons_of_neg (by simp [own])]
      exact ⟨front, whole⟩
    · rw [if_neg own, List.filter_cons_of_pos (by simp [own])]
      cases steal (victim idx workerCount stride (UInt32.ofNat k)) with
      | some task =>
        refine ⟨?_, fun clash => by cases clash⟩
        exact List.cons_prefix_cons.mpr ⟨rfl, List.nil_prefix⟩
      | none =>
        refine ⟨List.cons_prefix_cons.mpr ⟨rfl, front⟩, fun missed => ?_⟩
        exact congrArg _ (whole missed)

theorem victim_one_toNat (idx workerCount : UInt32) {k : Nat} (small : k < 2 ^ 32) :
    (victim idx workerCount 1 (UInt32.ofNat k)).toNat =
      (idx.toNat + 1 + k) % 2 ^ 32 % workerCount.toNat := by
  unfold victim
  rw [UInt32.mul_one, UInt32.toNat_mod, UInt32.toNat_add, UInt32.toNat_add, UInt32.toNat_ofNat',
    Nat.mod_eq_of_lt small, Nat.mod_add_mod]
  rfl

/-- Without a wrap the probes go up from the own slot and around. -/
theorem victim_one_eq (below : idx < workerCount)
    (fits : idx.toNat + workerCount.toNat ≤ 2 ^ 32) {k : Nat} (round : k < workerCount.toNat - 1) :
    (victim idx workerCount 1 (UInt32.ofNat k)).toNat =
      if idx.toNat + 1 + k < workerCount.toNat then idx.toNat + 1 + k
      else idx.toNat + 1 + k - workerCount.toNat := by
  have below : idx.toNat < workerCount.toNat := below
  have unwrapped : idx.toNat + 1 + k < 2 ^ 32 := by omega
  rw [victim_one_toNat idx workerCount (by omega), Nat.mod_eq_of_lt unwrapped]
  split
  · rename_i inside
    exact Nat.mod_eq_of_lt inside
  · rw [Nat.mod_eq_sub_mod (by omega), Nat.mod_eq_of_lt (by omega)]

theorem mem_probeOrder {rounds : Nat} {v : UInt32} : v ∈ probeOrder idx workerCount 1 rounds 0 ↔
    (∃ k < rounds, victim idx workerCount 1 (UInt32.ofNat k) = v) ∧ v ≠ idx := by
  simp [probeOrder, List.mem_range']

theorem stealLoop_dry (two : 2 ≤ workerCount) (steal : UInt32 → Option Nat) :
    stealLoop steal false idx workerCount =
      probeLoop steal idx workerCount 1 (workerCount.toNat - 1) (UInt32.ofNat 0) := by
  have two : 2 ≤ workerCount.toNat := two
  have many : 1 < workerCount := two
  have rounds : (workerCount - 1).toNat = workerCount.toNat - 1 :=
    UInt32.toNat_sub_of_le _ _ (UInt32.le_of_lt many)
  unfold stealLoop
  rw [if_pos many, rounds]
  rfl

theorem nodup_probeOrder (below : idx < workerCount)
    (fits : idx.toNat + workerCount.toNat ≤ 2 ^ 32) :
    (probeOrder idx workerCount 1 (workerCount.toNat - 1) 0).Nodup := by
  have below' : idx.toNat < workerCount.toNat := below
  apply List.Nodup.filter
  apply List.Nodup.map_on _ List.nodup_range'
  intro i first j second same
  have first : i < workerCount.toNat - 1 := by simpa using List.mem_range'_1.mp first
  have second : j < workerCount.toNat - 1 := by simpa using List.mem_range'_1.mp second
  have same := congrArg UInt32.toNat same
  rw [victim_one_eq below fits first, victim_one_eq below fits second] at same
  split at same <;> split at same <;> omega

theorem mem_probeOrder_of_ne (below : idx < workerCount)
    (fits : idx.toNat + workerCount.toNat ≤ 2 ^ 32) {v : UInt32} (inside : v < workerCount)
    (other : v ≠ idx) : v ∈ probeOrder idx workerCount 1 (workerCount.toNat - 1) 0 := by
  have below' : idx.toNat < workerCount.toNat := below
  have inside : v.toNat < workerCount.toNat := inside
  have apart : v.toNat ≠ idx.toNat := fun same => other (UInt32.toNat_inj.mp same)
  have reached : ∀ k, k < workerCount.toNat - 1 →
      (if idx.toNat + 1 + k < workerCount.toNat then idx.toNat + 1 + k
        else idx.toNat + 1 + k - workerCount.toNat) = v.toNat →
      v ∈ probeOrder idx workerCount 1 (workerCount.toNat - 1) 0 := by
    intro k round value
    refine mem_probeOrder.mpr ⟨⟨k, round, UInt32.toNat_inj.mp ?_⟩, other⟩
    rw [victim_one_eq below fits round, value]
  by_cases above : idx.toNat < v.toNat
  · apply reached (v.toNat - idx.toNat - 1) (by omega)
    rw [if_pos (by omega)]
    omega
  · apply reached (v.toNat + workerCount.toNat - idx.toNat - 1) (by omega)
    rw [if_neg (by omega)]
    omega

theorem covers_of_fits (two : 2 ≤ workerCount) (below : idx < workerCount)
    (fits : idx.toNat + workerCount.toNat ≤ 2 ^ 32) : Covers idx workerCount := by
  intro steal
  rw [stealLoop_dry two]
  obtain ⟨front, whole⟩ := @probeLoop_spec idx workerCount 1 steal (workerCount.toNat - 1) 0
  refine ⟨(nodup_probeOrder below fits).sublist front.sublist, fun v member => ?_,
    fun missed v inside other => ?_⟩
  · obtain ⟨⟨k, -, rfl⟩, other⟩ := mem_probeOrder.mp (front.subset member)
    refine ⟨?_, other⟩
    have positive : 0 < workerCount := UInt32.lt_of_lt_of_le (by decide) two
    exact UInt32.mod_lt _ positive
  · rw [whole missed]
    exact mem_probeOrder_of_ne below fits inside other

theorem probeLoop_none (rounds : Nat) (k : UInt32) :
    (probeLoop (fun _ => none) idx workerCount stride rounds k).2 = none := by
  induction rounds generalizing k with
  | zero => rfl
  | succ rounds ih =>
    simp only [probeLoop]
    split
    · exact ih (k + 1)
    · exact ih (k + 1)

/-- What covering means for a worker that finds nothing. -/
theorem Covers.order (covers : Covers idx workerCount) (two : 2 ≤ workerCount) :
    (probeOrder idx workerCount 1 (workerCount.toNat - 1) 0).Nodup ∧
      ∀ v, v < workerCount → v ≠ idx →
        v ∈ probeOrder idx workerCount 1 (workerCount.toNat - 1) 0 := by
  obtain ⟨nodup, -, all⟩ := covers fun _ => none
  have missed := @probeLoop_none idx workerCount 1 (workerCount.toNat - 1) (UInt32.ofNat 0)
  have whole := (@probeLoop_spec idx workerCount 1 (fun _ => none) (workerCount.toNat - 1) 0).2 missed
  rw [stealLoop_dry two] at nodup all
  rw [whole] at nodup all
  exact ⟨nodup, all missed⟩

/-- One round less than there are slots: a worker outside of them leaves one out. -/
theorem Covers.below (covers : Covers idx workerCount) (two : 2 ≤ workerCount) :
    idx < workerCount := by
  have two' : 2 ≤ workerCount.toNat := two
  by_contra outside
  have outside : workerCount.toNat ≤ idx.toNat := UInt32.le_iff_toNat_le.mp (UInt32.not_lt.mp outside)
  obtain ⟨-, all⟩ := covers.order two
  have slots : (List.range workerCount.toNat).map UInt32.ofNat ⊆
      probeOrder idx workerCount 1 (workerCount.toNat - 1) 0 := by
    intro v member
    obtain ⟨i, inside, rfl⟩ := List.mem_map.mp member
    have inside := List.mem_range.mp inside
    have value : (UInt32.ofNat i).toNat = i :=
      UInt32.toNat_ofNat_of_lt' (Nat.lt_trans inside workerCount.toNat_lt)
    have below : UInt32.ofNat i < workerCount := by
      rw [UInt32.lt_iff_toNat_lt, value]
      exact inside
    refine all _ below fun own => ?_
    rw [own] at value
    omega
  have distinct : ((List.range workerCount.toNat).map UInt32.ofNat).Nodup := by
    refine List.Nodup.map_on ?_ List.nodup_range
    intro i first j second same
    have first := Nat.lt_trans (List.mem_range.mp first) workerCount.toNat_lt
    have second := Nat.lt_trans (List.mem_range.mp second) workerCount.toNat_lt
    rw [← UInt32.toNat_ofNat_of_lt' first, same, UInt32.toNat_ofNat_of_lt' second]
  have long := (distinct.subperm slots).length_le
  have short : (probeOrder idx workerCount 1 (workerCount.toNat - 1) 0).length ≤
      workerCount.toNat - 1 := by
    refine Nat.le_trans (List.length_filter_le _ _) ?_
    simp
  simp only [List.length_map, List.length_range] at long
  omega

/-- When the sum wraps, slot 0 is probed before and after the wrap. -/
theorem Covers.fits (covers : Covers idx workerCount) (two : 2 ≤ workerCount) :
    idx.toNat + workerCount.toNat ≤ 2 ^ 32 := by
  have below : idx.toNat < workerCount.toNat := covers.below two
  have narrow := workerCount.toNat_lt
  by_contra wraps
  obtain ⟨nodup, -⟩ := covers.order two
  have before : victim idx workerCount 1 (UInt32.ofNat (workerCount.toNat - idx.toNat - 1)) = 0 := by
    apply UInt32.toNat_inj.mp
    rw [victim_one_toNat idx workerCount (by omega),
      show idx.toNat + 1 + (workerCount.toNat - idx.toNat - 1) = workerCount.toNat by omega,
      Nat.mod_eq_of_lt narrow, Nat.mod_self]
    rfl
  have after : victim idx workerCount 1 (UInt32.ofNat (2 ^ 32 - idx.toNat - 1)) = 0 := by
    apply UInt32.toNat_inj.mp
    rw [victim_one_toNat idx workerCount (by omega),
      show idx.toNat + 1 + (2 ^ 32 - idx.toNat - 1) = 2 ^ 32 by omega, Nat.mod_self, Nat.zero_mod]
    rfl
  have other : (0 : UInt32) ≠ idx := by
    intro own
    rw [← own] at wraps
    exact wraps (by simp; omega)
  rw [probeOrder, List.filter_map] at nodup
  have visited : ∀ k, k < workerCount.toNat - 1 → victim idx workerCount 1 (UInt32.ofNat k) = 0 →
      k ∈ (List.range' 0 (workerCount.toNat - 1)).filter
        ((fun v => decide (v ≠ idx)) ∘ fun k => victim idx workerCount 1 (UInt32.ofNat k)) := by
    intro k round value
    refine List.mem_filter.mpr ⟨List.mem_range'_1.mpr ⟨Nat.zero_le _, by omega⟩, ?_⟩
    simp [value, other]
  have same := List.inj_on_of_nodup_map nodup (visited _ (by omega) before)
    (visited _ (by omega) after) (before.trans after.symm)
  omega

/-- A pool with more than one worker: the loop covers every other deque for the workers of
the pool, as far as the sum of two slot numbers does not wrap, and for no displaced one. -/
theorem steal_covers (idx workerCount : UInt32) (two : 2 ≤ workerCount) :
    Covers idx workerCount ↔ idx < workerCount ∧ idx.toNat + workerCount.toNat ≤ 2 ^ 32 :=
  ⟨fun covers => ⟨covers.below two, covers.fits two⟩,
    fun fits => covers_of_fits two fits.1 fits.2⟩

theorem steal_covers_three_workers : Covers 1 3 :=
  (steal_covers 1 3 (by decide)).mpr (by decide)

/-- Worker 2 of a pool that was shrunk to two drains after shutdown: it probes deque 1 and
never deque 0. -/
theorem displaced_worker_skips_deque :
    stealLoop (fun _ => none) false 2 2 = ([1], none) ∧ ¬Covers 2 2 := by
  refine ⟨by decide, fun covers => ?_⟩
  exact absurd (covers.below (by decide)) (by decide)

/-- Without a wrap these are the victims of the pool's model. -/
theorem probeOrder_eq_victims (s : ThreadPool) (idx workerCount : UInt32)
    (count : s.workerCount = workerCount.toNat) (two : 2 ≤ workerCount) (dry : s.ringHasWork = false)
    (fits : idx.toNat + workerCount.toNat ≤ 2 ^ 32) :
    (probeOrder idx workerCount 1 (workerCount.toNat - 1) 0).map UInt32.toNat =
      s.victims idx.toNat := by
  have two : 2 ≤ workerCount.toNat := two
  unfold ThreadPool.victims probeOrder
  rw [if_neg (by omega), if_neg (by simp [dry]), count, List.range_eq_range', List.filter_map,
    List.filter_map, List.map_map]
  have value : ∀ k ∈ List.range' 0 (workerCount.toNat - 1),
      (victim idx workerCount 1 (UInt32.ofNat k)).toNat =
        (idx.toNat + 1 + k) % workerCount.toNat := by
    intro k member
    have round := (List.mem_range'_1.mp member).2
    have unwrapped : idx.toNat + 1 + k < 2 ^ 32 := by omega
    rw [victim_one_toNat idx workerCount (by omega), Nat.mod_eq_of_lt unwrapped]
  have visited : (List.range' 0 (workerCount.toNat - 1)).filter
      ((fun v => decide (v ≠ idx)) ∘ fun k => victim idx workerCount 1 (UInt32.ofNat k)) =
      (List.range' 0 (workerCount.toNat - 1)).filter
        ((fun v => decide (v ≠ idx.toNat)) ∘ fun k => (idx.toNat + 1 + k) % workerCount.toNat) := by
    refine List.filter_congr fun k member => ?_
    simp only [Function.comp_apply, ← value k member, ne_eq, UInt32.toNat_inj]
  rw [visited]
  refine List.map_congr_left fun k member => ?_
  exact value k (List.mem_of_mem_filter member)

end Loomworks.Pool.Steal
