import PacingFabric.Theorems.RoundTrip
import PacingFabric.Theorems.Arithmetic
import PacingFabric.Model.Envelope

/-!
# The derived cadence in exact arithmetic

`derive_cadence` over the natural numbers: the requested rate or the share of the ceiling,
clamped to the ceiling and raised to the floors; the least interval that carries a quantum
within that rate, or the sparser one of a hint; the grants and bytes of a window. What the
checked code returns is exactly that, and it overflows on exactly the inputs whose window
or whose burst capacity it multiplies out of 64 bits.

## Main definitions

* `DerivationInput.exactRate`, `exactInterval`, `exactBytes`: the derivation over `ℕ`.
* `Derivation`: what a successful derivation has computed and checked.
* `CadenceContract`: the numeric contract of a cadence.

## Main results

* `Derivation.rate_exact`, `interval_exact`, `bytes_exact`: the code agrees with it.
-/

namespace Pacing

/-- The bits of a byte times the nanoseconds of a second. -/
def bitNanos : ℕ := 8 * 10 ^ 9

theorem toNat_bitNanos : (bitsPerByte * nanosPerSecond).toNat = bitNanos := rfl

/-! ### The pieces of the code, exactly -/

theorem ne_zero_iff_pos {x : UInt64} : x ≠ 0 ↔ 0 < x.toNat := by
  rw [Nat.pos_iff_ne_zero, ne_eq, ← UInt64.toNat_inj]
  rfl

private theorem toNat_mul_bitNanos {x : UInt64} (h : x.toNat * bitNanos < 2 ^ 64) :
    (x * (bitsPerByte * nanosPerSecond)).toNat = x.toNat * bitNanos := by
  rw [UInt64.toNat_mul, toNat_bitNanos, Nat.mod_eq_of_lt h]

theorem deriveIntervalNs_eq_some_iff {quantum rate interval : UInt64} (hquantum : quantum ≠ 0)
    (hrate : rate ≠ 0) : deriveIntervalNs quantum rate = some interval ↔
      quantum.toNat * bitNanos < 2 ^ 64 ∧
        interval.toNat = (quantum.toNat * bitNanos) ⌈/⌉ rate.toNat := by
  have hrate' := ne_zero_iff_pos.1 hrate
  unfold deriveIntervalNs
  rw [if_neg (by simp [hquantum, hrate]), Checked.mul_eq_ite, toNat_bitNanos]
  by_cases hfits : quantum.toNat * bitNanos < 2 ^ 64
  · have hceil := fun c => @Checked.mulDivCeil_eq_some_iff
      (quantum * (bitsPerByte * nanosPerSecond)) 1 rate c hrate
    rw [toNat_mul_bitNanos hfits, show (1 : UInt64).toNat = 1 from rfl, mul_one] at hceil
    have hne : ∀ c, Checked.mulDivCeil (quantum * (bitsPerByte * nanosPerSecond)) 1 rate = some c →
        c ≠ 0 := by
      intro c hc
      have hquantum' := ne_zero_iff_pos.1 hquantum
      have hscale : 0 < bitNanos := by decide
      rw [ne_zero_iff_pos, (hceil c).1 hc, Nat.pos_iff_ne_zero, ne_eq, ← Nat.le_zero,
        ceilDiv_le_iff_le_mul hrate', mul_zero, Nat.le_zero]
      positivity
    rw [if_pos hfits, ← hceil]
    simp only [hfits, true_and]
    cases hc : Checked.mulDivCeil (quantum * (bitsPerByte * nanosPerSecond)) 1 rate with
    | none => rfl
    | some c =>
      dsimp only
      rw [if_pos (by simpa using hne c hc)]
  · rw [if_neg hfits]
    simp only [reduceCtorEq, hfits, false_and]

theorem deriveIntervalNs_ne_zero {quantum rate interval : UInt64}
    (h : deriveIntervalNs quantum rate = some interval) : interval ≠ 0 := by
  unfold deriveIntervalNs at h
  split at h
  · cases h
  · split at h
    · cases h
    · split at h
      · cases h
      · split at h
        · rename_i hne
          obtain rfl := Option.some.inj h
          simpa using hne
        · cases h

/-- The interval of a representable product is representable. -/
theorem deriveIntervalNs_isSome {quantum rate : UInt64} (hquantum : quantum ≠ 0)
    (hrate : rate ≠ 0) (hfits : quantum.toNat * bitNanos < 2 ^ 64) :
    ∃ interval, deriveIntervalNs quantum rate = some interval ∧
      interval.toNat = (quantum.toNat * bitNanos) ⌈/⌉ rate.toNat := by
  have hle : (quantum.toNat * bitNanos) ⌈/⌉ rate.toNat ≤ quantum.toNat * bitNanos := by
    have hrate' := ne_zero_iff_pos.1 hrate
    rw [ceilDiv_le_iff_le_mul hrate']
    exact Nat.le_mul_of_pos_left _ hrate'
  have heq : (UInt64.ofNat ((quantum.toNat * bitNanos) ⌈/⌉ rate.toNat)).toNat =
      (quantum.toNat * bitNanos) ⌈/⌉ rate.toNat := by
    rw [UInt64.toNat_ofNat', Nat.mod_eq_of_lt (hle.trans_lt hfits)]
  exact ⟨_, (deriveIntervalNs_eq_some_iff hquantum hrate).2 ⟨hfits, heq⟩, heq⟩

theorem burstCapacityBytes_eq_some_iff {rate horizon capacity : UInt64} :
    burstCapacityBytes rate horizon = some capacity ↔
      rate.toNat * horizon.toNat < 2 ^ 64 ∧
        capacity.toNat = rate.toNat * horizon.toNat / bitNanos := by
  unfold burstCapacityBytes
  split
  · rename_i hzero
    obtain rfl : rate = 0 := by simpa using hzero
    rw [Option.some.injEq, ← UInt64.toNat_inj, eq_comm]
    simp
  · rw [Checked.mul_eq_ite]
    by_cases hfits : rate.toNat * horizon.toNat < 2 ^ 64
    · rw [if_pos hfits]
      have hproduct : (rate * horizon).toNat = rate.toNat * horizon.toNat := by
        rw [UInt64.toNat_mul, Nat.mod_eq_of_lt hfits]
      dsimp only
      rw [Checked.mulDivFloor_eq_some_iff (by decide), hproduct, toNat_bitNanos,
        show (1 : UInt64).toNat = 1 from rfl, mul_one]
      simp only [hfits, true_and]
    · rw [if_neg hfits]
      simp only [reduceCtorEq, hfits, false_and]

theorem burstCapacityBytes_eq_none_iff {rate horizon : UInt64} :
    burstCapacityBytes rate horizon = none ↔ 2 ^ 64 ≤ rate.toNat * horizon.toNat := by
  constructor
  · intro hnone
    by_contra hfits
    have hfits := not_le.1 hfits
    have hbelow : rate.toNat * horizon.toNat / bitNanos < 2 ^ 64 :=
      (Nat.div_le_self ..).trans_lt hfits
    have hsome : burstCapacityBytes rate horizon =
        some (.ofNat (rate.toNat * horizon.toNat / bitNanos)) :=
      burstCapacityBytes_eq_some_iff.2
        ⟨hfits, by rw [UInt64.toNat_ofNat', Nat.mod_eq_of_lt hbelow]⟩
    rw [hnone] at hsome
    cases hsome
  · intro hbig
    cases hcapacity : burstCapacityBytes rate horizon with
    | none => rfl
    | some capacity =>
      exact absurd (burstCapacityBytes_eq_some_iff.1 hcapacity).1 hbig.not_gt

theorem effectiveRateBps_eq_some_iff {c : Cadence} (hwindow : c.windowNs ≠ 0)
    {effective : UInt64} :
    c.effectiveRateBps = some effective ↔ c.bytesPerWindow.toNat * bitNanos < 2 ^ 64 ∧
      effective.toNat = c.bytesPerWindow.toNat * bitNanos / c.windowNs.toNat := by
  unfold Cadence.effectiveRateBps
  rw [if_neg (by simpa using hwindow), Checked.mul_eq_ite, toNat_bitNanos]
  by_cases hfits : c.bytesPerWindow.toNat * bitNanos < 2 ^ 64
  · rw [if_pos hfits]
    dsimp only
    rw [Checked.mulDivFloor_eq_some_iff hwindow, toNat_mul_bitNanos hfits,
      show (1 : UInt64).toNat = 1 from rfl, mul_one]
    simp only [hfits, true_and]
  · rw [if_neg hfits]
    simp only [reduceCtorEq, hfits, false_and]

theorem effectiveRateBps_eq_none_iff {c : Cadence} (hwindow : c.windowNs ≠ 0) :
    c.effectiveRateBps = none ↔ 2 ^ 64 ≤ c.bytesPerWindow.toNat * bitNanos := by
  constructor
  · intro hnone
    by_contra hfits
    have hfits := not_le.1 hfits
    have hbelow : c.bytesPerWindow.toNat * bitNanos / c.windowNs.toNat < 2 ^ 64 :=
      (Nat.div_le_self ..).trans_lt hfits
    have hsome : c.effectiveRateBps =
        some (.ofNat (c.bytesPerWindow.toNat * bitNanos / c.windowNs.toNat)) :=
      (effectiveRateBps_eq_some_iff hwindow).2
        ⟨hfits, by rw [UInt64.toNat_ofNat', Nat.mod_eq_of_lt hbelow]⟩
    rw [hnone] at hsome
    cases hsome
  · intro hbig
    cases hrate : c.effectiveRateBps with
    | none => rfl
    | some effective => exact absurd ((effectiveRateBps_eq_some_iff hwindow).1 hrate).1 hbig.not_gt

/-! ### The derivation over the natural numbers -/

namespace DerivationInput
variable (input : DerivationInput)

/-- The requested rate, or the share of the ceiling. -/
def exactTarget : ℕ :=
  if input.requestedRateBps = 0 then
    input.ceilingBps.toNat * input.rateSharePpm.toNat / 10 ^ 6
  else input.requestedRateBps.toNat

/-- The target clamped to the ceiling and raised to the floors. -/
def exactRate : ℕ :=
  max (min input.exactTarget input.ceilingBps.toNat)
    (max input.floorBps.toNat input.minRateBps.toNat)

/-- Whether the hint takes part. -/
def hinted : Bool := input.shape == .windowed && input.grantsPerWindowHint != 0

/-- The least interval within the rate, or the sparser one of the hint. -/
def exactInterval : ℕ :=
  max ((input.quantumBytes.toNat * bitNanos) ⌈/⌉ input.exactRate)
    (if input.hinted then input.windowNs.toNat ⌈/⌉ input.grantsPerWindowHint.toNat else 0)

def exactGrants : ℕ := input.windowNs.toNat / input.exactInterval

def exactBytes : ℕ := input.exactGrants * input.quantumBytes.toNat

/-- A burst in one dimension: what the policy allows, tightened by the flow, and `one` where
neither says anything. -/
def allowed (allowance flowMax one : UInt64) : UInt64 :=
  if tightened allowance flowMax == 0 then one else tightened allowance flowMax

def allowedBytes : UInt64 := allowed input.burstBytes input.flowMaxBurstBytes input.quantumBytes

def allowedPackets : UInt64 := allowed input.burstPackets input.flowMaxBurstPackets 1

/-- What the first step leaves standing. -/
structure Bounded (limits : Limits) : Prop where
  ceiling_ne : input.ceilingBps ≠ 0
  ceiling_le : input.ceilingBps ≤ limits.maxRateBps
  floor_le : input.floorBps ≤ input.ceilingBps
  minRate_le : input.minRateBps ≤ input.ceilingBps
  requested_le : input.requestedRateBps ≤ limits.maxRateBps
  share_le : input.rateSharePpm ≤ 1000000
  quantum_ne : input.quantumBytes ≠ 0
  quantum_le : input.quantumBytes ≤ limits.maxQuantumBytes
  window_ge : limits.minWindowNs ≤ input.windowNs
  window_le : input.windowNs ≤ limits.maxWindowNs
  burst_le : input.burstBytes ≤ limits.maxBurstBytes
  packets_le : input.burstPackets ≤ limits.maxBurstPackets
  flowBurst_le : input.flowMaxBurstBytes ≤ limits.maxBurstBytes
  flowPackets_le : input.flowMaxBurstPackets ≤ limits.maxBurstPackets
  hint_le : input.grantsPerWindowHint ≤ nanosPerSecond

variable {input} {limits : Limits}

theorem bounded_of_check (h : (input.check limits).isOk = true) : input.Bounded limits := by
  unfold check at h
  obtain ⟨hceiling, h⟩ := isOk_ite h nofun
  obtain ⟨hceilingLe, h⟩ := isOk_ite h nofun
  obtain ⟨hfloor, h⟩ := isOk_ite h nofun
  obtain ⟨hmin, h⟩ := isOk_ite h nofun
  obtain ⟨-, h⟩ := isOk_ite h nofun
  obtain ⟨hrequested, h⟩ := isOk_ite h nofun
  obtain ⟨hshare, h⟩ := isOk_ite h nofun
  obtain ⟨hquantum, h⟩ := isOk_ite h nofun
  obtain ⟨hwindow, h⟩ := isOk_ite h nofun
  obtain ⟨hburst, h⟩ := isOk_ite h nofun
  obtain ⟨hpackets, h⟩ := isOk_ite h nofun
  obtain ⟨hflowBurst, h⟩ := isOk_ite h nofun
  obtain ⟨hflowPackets, h⟩ := isOk_ite h nofun
  obtain ⟨hhint, -⟩ := isOk_ite h nofun
  simp only [Bool.or_eq_true, beq_iff_eq, decide_eq_true_eq, not_or] at hceiling hquantum hwindow
  exact {
    ceiling_ne := hceiling
    ceiling_le := UInt64.not_lt.1 hceilingLe
    floor_le := UInt64.not_lt.1 hfloor
    minRate_le := UInt64.not_lt.1 hmin
    requested_le := UInt64.not_lt.1 hrequested
    share_le := UInt64.not_lt.1 hshare
    quantum_ne := hquantum.1
    quantum_le := UInt64.not_lt.1 hquantum.2
    window_ge := UInt64.not_lt.1 hwindow.1
    window_le := UInt64.not_lt.1 hwindow.2
    burst_le := UInt64.not_lt.1 hburst
    packets_le := UInt64.not_lt.1 hpackets
    flowBurst_le := UInt64.not_lt.1 hflowBurst
    flowPackets_le := UInt64.not_lt.1 hflowPackets
    hint_le := UInt64.not_lt.1 hhint }

/-- The share of a ceiling never overflows. -/
theorem Bounded.target_exact (h : input.Bounded limits) :
    ∃ target, input.target = some target ∧ target.toNat = input.exactTarget := by
  unfold target exactTarget
  by_cases hrequested : input.requestedRateBps = 0
  · rw [if_neg (by simpa using hrequested), if_pos hrequested]
    have hshare := UInt64.le_iff_toNat_le.1 h.share_le
    have hbelow : input.ceilingBps.toNat * input.rateSharePpm.toNat / 10 ^ 6 < 2 ^ 64 := by
      have hle : input.ceilingBps.toNat * input.rateSharePpm.toNat ≤
          input.ceilingBps.toNat * 10 ^ 6 := Nat.mul_le_mul_left _ hshare
      have := input.ceilingBps.toNat_lt
      omega
    have heq : (UInt64.ofNat (input.ceilingBps.toNat * input.rateSharePpm.toNat / 10 ^ 6)).toNat =
        input.ceilingBps.toNat * input.rateSharePpm.toNat / 10 ^ 6 := by
      rw [UInt64.toNat_ofNat', Nat.mod_eq_of_lt hbelow]
    exact ⟨_, (Checked.mulDivFloor_eq_some_iff (by decide)).2 heq, heq⟩
  · rw [if_pos (by simpa using hrequested), if_neg hrequested]
    exact ⟨_, rfl, rfl⟩

private theorem toNat_capped (x bound : UInt64) :
    (if decide (x > bound) then bound else x).toNat = min x.toNat bound.toNat := by
  by_cases h : x > bound
  · rw [if_pos (decide_eq_true h), min_eq_right (UInt64.lt_iff_toNat_lt.1 h).le]
  · rw [if_neg (by simpa using h), min_eq_left (UInt64.le_iff_toNat_le.1 (UInt64.not_lt.1 h))]

private theorem toNat_raised (x bound : UInt64) :
    (if decide (x < bound) then bound else x).toNat = max x.toNat bound.toNat := by
  by_cases h : x < bound
  · rw [if_pos (decide_eq_true h), max_eq_right (UInt64.lt_iff_toNat_lt.1 h).le]
  · rw [if_neg (by simpa using h), max_eq_left (UInt64.le_iff_toNat_le.1 (UInt64.not_lt.1 h))]

private theorem toNat_max (x y : UInt64) : (max x y).toNat = max x.toNat y.toNat := by
  change (if x ≤ y then y else x).toNat = _
  by_cases h : x ≤ y
  · rw [if_pos h, max_eq_right (UInt64.le_iff_toNat_le.1 h)]
  · rw [if_neg h, max_eq_left (UInt64.lt_iff_toNat_lt.1 (UInt64.not_le.1 h)).le]

theorem clampedTarget_toNat (input : DerivationInput) (target : UInt64) :
    (input.clampedTarget target).1.toNat = max (min target.toNat input.ceilingBps.toNat)
      (max input.floorBps.toNat input.minRateBps.toNat) := by
  unfold clampedTarget
  dsimp only
  rw [toNat_raised, toNat_capped, toNat_max]

private theorem hint_exact {hint : UInt64} (hhint : hint ≠ 0) (window : UInt64) :
    ∃ interval, Checked.mulDivCeil window 1 hint = some interval ∧
      interval.toNat = window.toNat ⌈/⌉ hint.toNat := by
  have hhint' := ne_zero_iff_pos.1 hhint
  have hle : window.toNat ⌈/⌉ hint.toNat ≤ window.toNat := by
    rw [ceilDiv_le_iff_le_mul hhint']
    exact Nat.le_mul_of_pos_left _ hhint'
  have heq : (UInt64.ofNat (window.toNat ⌈/⌉ hint.toNat)).toNat = window.toNat ⌈/⌉ hint.toNat := by
    rw [UInt64.toNat_ofNat', Nat.mod_eq_of_lt (hle.trans_lt window.toNat_lt)]
  refine ⟨_, (Checked.mulDivCeil_eq_some_iff hhint).2 ?_, heq⟩
  rw [show (1 : UInt64).toNat = 1 from rfl, mul_one]
  exact heq

/-- No clamp exceeds the ceiling. -/
theorem Bounded.exactRate_le (h : input.Bounded limits) :
    input.exactRate ≤ input.ceilingBps.toNat :=
  max_le (min_le_right ..) (max_le (UInt64.le_iff_toNat_le.1 h.floor_le)
    (UInt64.le_iff_toNat_le.1 h.minRate_le))

/-- The interval over the natural numbers, when the quantum can be multiplied out: only the
configured bound refuses it. -/
theorem interval_exact {rate : UInt64} (hquantum : input.quantumBytes ≠ 0) (hrate : rate ≠ 0)
    (hexact : rate.toNat = input.exactRate)
    (hfits : input.quantumBytes.toNat * bitNanos < 2 ^ 64) :
    ∃ interval : UInt64, interval.toNat = input.exactInterval ∧ interval ≠ 0 ∧
      input.interval rate limits =
        if interval > limits.maxIntervalNs then
          .error (.of .outOfRange "derived interval above configured limit")
        else .ok interval := by
  obtain ⟨least, hleast, hleastExact⟩ := deriveIntervalNs_isSome hquantum hrate hfits
  have hleast0 := deriveIntervalNs_ne_zero hleast
  unfold interval exactInterval hinted
  rw [hleast, ← hexact, ← hleastExact]
  dsimp only
  by_cases hhint : (input.shape == .windowed && input.grantsPerWindowHint != 0) = true
  · rw [if_pos hhint, if_pos hhint]
    have hne : input.grantsPerWindowHint ≠ 0 := by
      simpa using (Bool.and_eq_true_iff.1 hhint).2
    obtain ⟨hinted, hsome, hhinted⟩ := hint_exact hne input.windowNs
    rw [hsome, ← hhinted]
    have hmax : (if hinted > least then hinted else least).toNat =
        max least.toNat hinted.toNat := by
      split
      · rename_i hlt
        rw [max_eq_right (UInt64.lt_iff_toNat_lt.1 hlt).le]
      · rename_i hle
        rw [max_eq_left (UInt64.le_iff_toNat_le.1 (UInt64.not_lt.1 hle))]
    have hpos : (if hinted > least then hinted else least) ≠ 0 := by
      rw [ne_zero_iff_pos, hmax]
      exact lt_max_of_lt_left (ne_zero_iff_pos.1 hleast0)
    refine ⟨_, hmax, hpos, ?_⟩
    dsimp only [pure, Except.pure, bind, Except.bind]
    rw [if_neg (by simpa using hpos)]
  · rw [if_neg hhint, if_neg hhint]
    refine ⟨least, by simp, hleast0, ?_⟩
    dsimp only [pure, Except.pure, bind, Except.bind]
    rw [if_neg (by simpa using hleast0)]

theorem allowed_ne_zero {allowance flowMax one : UInt64} (hone : one ≠ 0) :
    allowed allowance flowMax one ≠ 0 := by
  unfold allowed
  split
  · exact hone
  · rename_i hne
    simpa using hne

/-- A flow bound tightens what the policy allows, and an absent allowance only where the
bound is within the default. -/
theorem allowed_le_iff {allowance flowMax one : UInt64} :
    allowed allowance flowMax one ≤ allowed allowance 0 one ↔ allowance ≠ 0 ∨ flowMax ≤ one := by
  have hnone : tightened allowance 0 = allowance := rfl
  unfold allowed
  rw [hnone]
  by_cases hzero : allowance = 0
  · subst hzero
    have hset : tightened 0 flowMax = flowMax := by
      unfold tightened
      by_cases hflow : flowMax = 0 <;> simp [hflow]
    rw [hset]
    by_cases hflow : flowMax = 0 <;> simp [hflow]
  · have htight : tightened allowance flowMax ≠ 0 ∧ tightened allowance flowMax ≤ allowance := by
      unfold tightened
      split
      · rename_i hcond
        simp only [Bool.and_eq_true, bne_iff_ne, Bool.or_eq_true, beq_iff_eq, hzero,
          decide_eq_true_eq, false_or] at hcond
        exact ⟨hcond.1, UInt64.le_of_lt hcond.2⟩
      · exact ⟨hzero, UInt64.le_refl _⟩
    rw [if_neg (by simpa using htight.1), if_neg (by simpa using hzero)]
    exact iff_of_true htight.2 (.inl hzero)

/-- The burst step by the burst it allows. -/
theorem burst_eq (input : DerivationInput) (rate : UInt64) (limits : Limits) :
    input.burst rate limits =
      if input.allowedBytes < input.quantumBytes then
        .error (.of .invalidArgument "burst allowance is smaller than one quantum")
      else if input.allowedBytes > limits.maxBurstBytes then
        .error (.of .burstExceedsBound "derived burst bytes above bound")
      else if input.allowedPackets > limits.maxBurstPackets then
        .error (.of .burstExceedsBound "derived burst packets above bound")
      else if input.shape == .tokenBucket then
        match burstCapacityBytes rate limits.maxBurstHorizonNs with
        | none => .error (.of .arithmeticOverflow "burst capacity derivation overflowed")
        | some capacity =>
          if input.allowedBytes > capacity then
            .error (.of .burstExceedsBound
              "token bucket depth exceeds the capacity implied by the authorized rate")
          else .ok (input.allowedBytes, input.allowedPackets)
      else .ok (input.allowedBytes, input.allowedPackets) :=
  rfl

/-- The burst step returns what is allowed, between one quantum and the bounds. -/
theorem of_burst {rate bytes packets : UInt64}
    (h : input.burst rate limits = .ok (bytes, packets)) :
    bytes = input.allowedBytes ∧ packets = input.allowedPackets ∧
      input.quantumBytes ≤ bytes ∧ bytes ≤ limits.maxBurstBytes ∧
      packets ≤ limits.maxBurstPackets := by
  rw [burst_eq] at h
  generalize input.allowedBytes = bytes' at *
  generalize input.allowedPackets = packets' at *
  split at h
  · cases h
  rename_i hquantum
  split at h
  · cases h
  rename_i hbytes
  split at h
  · cases h
  rename_i hpackets
  have hok : (bytes, packets) = (bytes', packets') := by
    split at h
    · split at h
      · cases h
      · split at h
        · cases h
        · exact (Except.ok.inj h).symm
    · exact (Except.ok.inj h).symm
  obtain ⟨rfl, rfl⟩ := Prod.mk.inj hok
  exact ⟨rfl, rfl, UInt64.not_lt.1 hquantum, UInt64.not_lt.1 hbytes, UInt64.not_lt.1 hpackets⟩

end DerivationInput

/-! ### What a derivation returns -/

/-- The cadence `c` is the one derived from `input`: what each step computed and checked. -/
structure Derivation (input : DerivationInput) (limits : Limits) (c : Cadence) : Prop where
  valid : (input.check limits).isOk = true
  rate : ∃ target, input.target = some target ∧ c.rateBps = (input.clampedTarget target).1
  rate_ne : c.rateBps ≠ 0
  rate_le : c.rateBps ≤ limits.maxRateBps
  interval : input.interval c.rateBps limits = .ok c.intervalNs
  grants : c.grantsPerWindow = input.windowNs / c.intervalNs
  bytes : Checked.mul c.grantsPerWindow input.quantumBytes = some c.bytesPerWindow
  burst : input.burst c.rateBps limits = .ok (c.burstBytes, c.burstPackets)
  recheck : (input.recheck c limits).isOk = true
  quantum : c.quantumBytes = input.quantumBytes
  window : c.windowNs = input.windowNs
  shape : c.shape = input.shape

/-- A derivation that succeeds has passed every step. -/
theorem derivation_of_ok {input : DerivationInput} {limits : Limits}
    {outcome : DerivationOutcome} (h : deriveCadence input limits = .ok outcome) :
    Derivation input limits outcome.cadence := by
  unfold deriveCadence at h
  -- the steps in the order of the source, each failing on its own
  cases hvalid : (input.check limits).isOk with
  | false => simp [hvalid] at h
  | true =>
    simp only [hvalid, Bool.not_true, Bool.false_eq_true, if_false] at h
    cases htarget : input.target with
    | none => simp [htarget] at h
    | some target =>
      simp only [htarget] at h
      have hrate : ∃ target', input.target = some target' ∧
          (input.clampedTarget target).1 = (input.clampedTarget target').1 := ⟨_, htarget, rfl⟩
      generalize input.clampedTarget target = clamped at h hrate
      obtain ⟨rate, toCeiling, toFloor⟩ := clamped
      dsimp only at h hrate
      split at h
      · cases h
      rename_i hzero
      split at h
      · cases h
      rename_i hlimit
      cases hinterval : input.interval rate limits with
      | error status => simp [hinterval, bind, Except.bind] at h
      | ok interval =>
        simp only [hinterval, bind, Except.bind] at h
        cases hbytes : Checked.mul (input.windowNs / interval) input.quantumBytes with
        | none => simp [hbytes] at h
        | some bytes =>
          simp only [hbytes] at h
          cases hburst : input.burst rate limits with
          | error status => simp [hburst] at h
          | ok bursts =>
            simp only [hburst] at h
            split at h
            · cases h
            · rename_i hrecheck
              obtain rfl := Except.ok.inj h
              exact ⟨hvalid, hrate, by simpa using hzero, UInt64.not_lt.1 hlimit, hinterval, rfl,
                hbytes, hburst, by simpa using hrecheck, rfl, rfl, rfl⟩

namespace Derivation
variable {input : DerivationInput} {limits : Limits} {c : Cadence}

theorem rate_exact (h : Derivation input limits c) : c.rateBps.toNat = input.exactRate := by
  obtain ⟨target, htarget, hrate⟩ := h.rate
  obtain ⟨target', htarget', hexact⟩ :=
    (DerivationInput.bounded_of_check h.valid).target_exact
  obtain rfl := Option.some.inj (htarget.symm.trans htarget')
  rw [hrate, DerivationInput.clampedTarget_toNat, hexact]
  rfl

/-- The interval is the exact one, and not zero. -/
theorem interval_exact (h : Derivation input limits c) :
    c.intervalNs.toNat = input.exactInterval ∧ c.intervalNs ≠ 0 := by
  have hquantum := (DerivationInput.bounded_of_check h.valid).quantum_ne
  have hfits : input.quantumBytes.toNat * bitNanos < 2 ^ 64 := by
    have hinterval := h.interval
    unfold DerivationInput.interval at hinterval
    cases hleast : deriveIntervalNs input.quantumBytes c.rateBps with
    | none => simp [hleast] at hinterval
    | some least => exact ((deriveIntervalNs_eq_some_iff hquantum h.rate_ne).1 hleast).1
  obtain ⟨interval, hexact, hne, heq⟩ :=
    @DerivationInput.interval_exact _ limits _ hquantum h.rate_ne h.rate_exact hfits
  rw [h.interval] at heq
  split at heq
  · cases heq
  · obtain rfl := Except.ok.inj heq
    exact ⟨hexact, hne⟩

theorem grants_exact (h : Derivation input limits c) :
    c.grantsPerWindow.toNat = input.exactGrants := by
  rw [h.grants, UInt64.toNat_div, h.interval_exact.1]
  rfl

theorem bytes_exact (h : Derivation input limits c) :
    c.bytesPerWindow.toNat = input.exactBytes := by
  rw [← Checked.mul_eq_some_iff.1 h.bytes, h.grants_exact]
  rfl

theorem rate_le_ceiling (h : Derivation input limits c) : c.rateBps ≤ input.ceilingBps := by
  rw [UInt64.le_iff_toNat_le, h.rate_exact]
  exact (DerivationInput.bounded_of_check h.valid).exactRate_le

theorem rate_pos (h : Derivation input limits c) : 0 < input.exactRate :=
  h.rate_exact ▸ ne_zero_iff_pos.1 h.rate_ne

end Derivation

/-- The numeric contract between a derivation input and the cadence made of it. -/
structure CadenceContract (input : DerivationInput) (limits : Limits) (c : Cadence) : Prop where
  floor_le : max input.floorBps.toNat input.minRateBps.toNat ≤ c.rateBps.toNat
  le_ceiling : c.rateBps.toNat ≤ min input.ceilingBps.toNat limits.maxRateBps.toNat
  quantum_within : c.quantumBytes.toNat * (8 * 10 ^ 9) ≤ c.rateBps.toNat * c.intervalNs.toNat
  window_within : c.bytesPerWindow.toNat * (8 * 10 ^ 9) ≤ c.rateBps.toNat * c.windowNs.toNat
  grants : c.grantsPerWindow.toNat = c.windowNs.toNat / c.intervalNs.toNat
  grants_le_hint : input.shape = .windowed → input.grantsPerWindowHint ≠ 0 →
    c.grantsPerWindow ≤ input.grantsPerWindowHint
  least : IsLeast {t | c.quantumBytes.toNat * (8 * 10 ^ 9) ≤ c.rateBps.toNat * t}
      c.intervalNs.toNat ∨
    input.shape = .windowed ∧ input.grantsPerWindowHint ≠ 0 ∧
      (∃ t < c.intervalNs.toNat,
        IsLeast {t | c.quantumBytes.toNat * (8 * 10 ^ 9) ≤ c.rateBps.toNat * t} t) ∧
      IsLeast {t | c.windowNs.toNat ≤ input.grantsPerWindowHint.toNat * t} c.intervalNs.toNat
  quantum_le_burst : c.quantumBytes ≤ c.burstBytes
  burst_le : c.burstBytes ≤ limits.maxBurstBytes
  quantum : c.quantumBytes = input.quantumBytes
  window : c.windowNs = input.windowNs

/-- The least multiplier that reaches a number. -/
theorem isLeast_ceilDiv (n : ℕ) {d : ℕ} (hd : 0 < d) : IsLeast {t | n ≤ d * t} (n ⌈/⌉ d) :=
  ⟨(ceilDiv_le_iff_le_mul hd).1 le_rfl, fun _ ht => (ceilDiv_le_iff_le_mul hd).2 ht⟩

/-- Every derived cadence meets the contract: not a bit above the rate, no interval longer
than rate and hint ask for. -/
theorem derived_contract {input : DerivationInput} {limits : Limits}
    {outcome : DerivationOutcome} (h : deriveCadence input limits = .ok outcome) :
    CadenceContract input limits outcome.cadence := by
  have hd := derivation_of_ok h
  generalize outcome.cadence = c at hd
  have hbounded := DerivationInput.bounded_of_check hd.valid
  have hrate := hd.rate_exact
  have hpos := hd.rate_pos
  obtain ⟨hinterval, hinterval0⟩ := hd.interval_exact
  obtain ⟨-, -, hquantumBurst, hburst, -⟩ := DerivationInput.of_burst hd.burst
  have hwithin : c.quantumBytes.toNat * bitNanos ≤ c.rateBps.toNat * c.intervalNs.toNat := by
    rw [hd.quantum, hrate, hinterval, ← ceilDiv_le_iff_le_mul hpos]
    exact le_max_left ..
  have hgrants : c.grantsPerWindow.toNat = c.windowNs.toNat / c.intervalNs.toNat := by
    rw [hd.grants, hd.window, UInt64.toNat_div]
  refine ⟨?_, ?_, hwithin, ?_, hgrants, ?_, ?_, ?_, hburst, hd.quantum, hd.window⟩
  · rw [hrate]
    exact le_max_right ..
  · rw [hrate]
    have hceiling := hbounded.exactRate_le
    exact le_min hceiling (hceiling.trans (UInt64.le_iff_toNat_le.1 hbounded.ceiling_le))
  · -- as many quanta as intervals fit into the window
    have hbytes := Checked.mul_eq_some_iff.1 hd.bytes
    rw [← hd.quantum] at hbytes
    calc c.bytesPerWindow.toNat * bitNanos
        = c.grantsPerWindow.toNat * (c.quantumBytes.toNat * bitNanos) := by
          rw [← hbytes, mul_assoc]
      _ ≤ c.grantsPerWindow.toNat * (c.rateBps.toNat * c.intervalNs.toNat) :=
          Nat.mul_le_mul_left _ hwithin
      _ = c.rateBps.toNat * (c.windowNs.toNat / c.intervalNs.toNat * c.intervalNs.toNat) := by
          rw [hgrants]
          ring
      _ ≤ c.rateBps.toNat * c.windowNs.toNat :=
          Nat.mul_le_mul_left _ (Nat.div_mul_le_self ..)
  · intro hshape hhint
    rw [UInt64.le_iff_toNat_le, hgrants, hd.window, hinterval]
    refine Nat.div_le_of_le_mul ?_
    rw [mul_comm, ← ceilDiv_le_iff_le_mul (ne_zero_iff_pos.1 hhint)]
    unfold DerivationInput.exactInterval DerivationInput.hinted
    rw [hshape, if_pos (by simpa using hhint)]
    exact le_max_right ..
  · rw [hinterval, hd.quantum, hd.window, hrate]
    have hleast := isLeast_ceilDiv (input.quantumBytes.toNat * bitNanos) hpos
    unfold DerivationInput.exactInterval
    split
    · rename_i hhint
      simp only [DerivationInput.hinted, Bool.and_eq_true, beq_iff_eq, bne_iff_ne] at hhint
      have hsparse := isLeast_ceilDiv input.windowNs.toNat (ne_zero_iff_pos.1 hhint.2)
      rcases le_or_gt (input.windowNs.toNat ⌈/⌉ input.grantsPerWindowHint.toNat)
        ((input.quantumBytes.toNat * bitNanos) ⌈/⌉ input.exactRate) with hle | hlt
      · rw [max_eq_left hle]
        exact .inl hleast
      · rw [max_eq_right hlt.le]
        exact .inr ⟨hhint.1, hhint.2, ⟨_, hlt, hleast⟩, hsparse⟩
    · rw [max_eq_left (Nat.zero_le _)]
      exact .inl hleast
  · rw [hd.quantum]
    exact hquantumBurst

/-- Ten gigabits per second in quanta of 1500 bytes, counted by the millisecond. -/
def DerivationInput.tenGigabit : DerivationInput where
  ceilingBps := 10000000000
  quantumBytes := 1500
  windowNs := 1000000

/-- What it derives to: a quantum every 1200 ns. -/
def Cadence.tenGigabit : Cadence where
  rateBps := 10000000000
  quantumBytes := 1500
  intervalNs := 1200
  windowNs := 1000000
  grantsPerWindow := 833
  bytesPerWindow := 1249500
  burstBytes := 1500
  burstPackets := 1

theorem deriveCadence_tenGigabit :
    deriveCadence .tenGigabit {} = .ok { cadence := .tenGigabit } := by
  rfl

/-- The contract at a plain input. -/
theorem derived_contract_tenGigabit : CadenceContract .tenGigabit {} .tenGigabit :=
  derived_contract deriveCadence_tenGigabit

end Pacing
