import PacingFabric.Theorems.Derivation

/-!
# What a derivation does not promise

Three limits of `derive_cadence`, each with the exact inputs it concerns. A bound declared by
the flow tightens the burst only where the policy sets an allowance: without one the bound
takes the place of the default. A window may be too short for a single quantum, and then the
cadence grants nothing. And two products are formed in 64 bits before they are divided, so
that inputs within the default limits overflow.

## Main results

* `flow_bounds_tighten_iff`: when a flow bound only tightens.
* `derived_positive_iff`: when every field of a cadence is positive.
* `derivation_representable_iff`: when a derivation does not overflow.
-/

namespace Pacing

/-! ### Flow bounds -/

/-- The input without the bounds the flow declares. -/
def DerivationInput.withoutFlowBounds (input : DerivationInput) : DerivationInput :=
  { input with flowMaxBurstBytes := 0, flowMaxBurstPackets := 0 }

/-- A flow bound changes nothing but the burst. -/
theorem Derivation.flow_bounds {input : DerivationInput} {limits : Limits} {c c' : Cadence}
    (h : Derivation input limits c) (h' : Derivation input.withoutFlowBounds limits c') :
    { c with burstBytes := c'.burstBytes, burstPackets := c'.burstPackets } = c' := by
  have hrate : c.rateBps = c'.rateBps :=
    UInt64.toNat_inj.1 (h.rate_exact.trans h'.rate_exact.symm)
  have hinterval : c.intervalNs = c'.intervalNs :=
    UInt64.toNat_inj.1 (h.interval_exact.1.trans h'.interval_exact.1.symm)
  have hgrants : c.grantsPerWindow = c'.grantsPerWindow :=
    UInt64.toNat_inj.1 (h.grants_exact.trans h'.grants_exact.symm)
  have hbytes : c.bytesPerWindow = c'.bytesPerWindow :=
    UInt64.toNat_inj.1 (h.bytes_exact.trans h'.bytes_exact.symm)
  have hquantum : c.quantumBytes = c'.quantumBytes := h.quantum.trans h'.quantum.symm
  have hwindow : c.windowNs = c'.windowNs := h.window.trans h'.window.symm
  have hshape : c.shape = c'.shape := h.shape.trans h'.shape.symm
  cases c
  cases c'
  simp_all

/-- A flow bound tightens a declared allowance, and loosens an absent one exactly when it is
above the default of one quantum or one packet. -/
theorem flow_bounds_tighten_iff {input : DerivationInput} {limits : Limits}
    {bounded unbounded : DerivationOutcome} (h : deriveCadence input limits = .ok bounded)
    (h' : deriveCadence input.withoutFlowBounds limits = .ok unbounded) :
    (bounded.cadence.burstBytes ≤ unbounded.cadence.burstBytes ∧
        bounded.cadence.burstPackets ≤ unbounded.cadence.burstPackets ∧
        { bounded.cadence with
          burstBytes := unbounded.cadence.burstBytes
          burstPackets := unbounded.cadence.burstPackets } = unbounded.cadence) ↔
      (input.burstBytes ≠ 0 ∨ input.flowMaxBurstBytes ≤ input.quantumBytes) ∧
        (input.burstPackets ≠ 0 ∨ input.flowMaxBurstPackets ≤ 1) := by
  have hd := derivation_of_ok h
  have hd' := derivation_of_ok h'
  obtain ⟨hbytes, hpackets, -⟩ := DerivationInput.of_burst hd.burst
  obtain ⟨hbytes', hpackets', -⟩ := DerivationInput.of_burst hd'.burst
  have hburst : bounded.cadence.burstBytes ≤ unbounded.cadence.burstBytes ↔
      input.burstBytes ≠ 0 ∨ input.flowMaxBurstBytes ≤ input.quantumBytes := by
    rw [hbytes, hbytes']
    exact DerivationInput.allowed_le_iff
  have hcount : bounded.cadence.burstPackets ≤ unbounded.cadence.burstPackets ↔
      input.burstPackets ≠ 0 ∨ input.flowMaxBurstPackets ≤ 1 := by
    rw [hpackets, hpackets']
    exact DerivationInput.allowed_le_iff
  have hrest := hd.flow_bounds hd'
  rw [hburst, hcount]
  exact ⟨fun h => ⟨h.1, h.2.1⟩, fun h => ⟨h.1, h.2, hrest⟩⟩

/-- A flow that declares a bound of two quanta under a policy without an allowance. -/
def DerivationInput.twoQuanta : DerivationInput :=
  { DerivationInput.tenGigabit with flowMaxBurstBytes := 3000 }

theorem deriveCadence_twoQuanta : deriveCadence .twoQuanta {} =
    .ok { cadence := { Cadence.tenGigabit with burstBytes := 3000 } } := by
  rfl

theorem flow_bounds_tighten_twoQuanta :
    ((3000 : UInt64) ≤ 1500 ∧ (1 : UInt64) ≤ 1 ∧
        { Cadence.tenGigabit with burstBytes := 1500, burstPackets := 1 } = Cadence.tenGigabit) ↔
      (DerivationInput.twoQuanta.burstBytes ≠ 0 ∨ DerivationInput.twoQuanta.flowMaxBurstBytes ≤
          DerivationInput.twoQuanta.quantumBytes) ∧
        (DerivationInput.twoQuanta.burstPackets ≠ 0 ∨
          DerivationInput.twoQuanta.flowMaxBurstPackets ≤ 1) :=
  flow_bounds_tighten_iff deriveCadence_twoQuanta deriveCadence_tenGigabit

/-- A declared bound of two quanta doubles the burst of one quantum it would otherwise be. -/
theorem flow_bound_loosens :
    ∃ bounded unbounded, deriveCadence .twoQuanta {} = .ok bounded ∧
      deriveCadence DerivationInput.twoQuanta.withoutFlowBounds {} = .ok unbounded ∧
      ¬bounded.cadence.burstBytes ≤ unbounded.cadence.burstBytes :=
  ⟨_, _, deriveCadence_twoQuanta, deriveCadence_tenGigabit, by decide⟩

/-! ### Windows that grant nothing -/

/-- Every field of the cadence is positive. -/
structure Cadence.Positive (c : Cadence) : Prop where
  rate : 0 < c.rateBps
  quantum : 0 < c.quantumBytes
  interval : 0 < c.intervalNs
  window : 0 < c.windowNs
  grants : 0 < c.grantsPerWindow
  bytes : 0 < c.bytesPerWindow
  burst : 0 < c.burstBytes
  packets : 0 < c.burstPackets

theorem pos_iff_toNat {x : UInt64} : 0 < x ↔ 0 < x.toNat := UInt64.lt_iff_toNat_lt

/-- The window of a derivation is never empty. -/
theorem Derivation.window_ne {input : DerivationInput} {limits : Limits} {c : Cadence}
    (h : Derivation input limits c) : c.windowNs ≠ 0 := by
  have hrecheck := h.recheck
  unfold DerivationInput.recheck at hrecheck
  dsimp only at hrecheck
  split at hrecheck
  · rename_i hbad
    rw [hrecheck] at hbad
    cases hbad
  · rename_i hok
    have hok : (validateCadence c limits.maxRateBps limits.maxBurstBytes
        limits.maxBurstPackets).isOk = true := by simpa using hok
    unfold validateCadence at hok
    obtain ⟨-, hok⟩ := isOk_ite hok nofun
    obtain ⟨-, hok⟩ := isOk_ite hok nofun
    obtain ⟨-, hok⟩ := isOk_ite hok nofun
    obtain ⟨-, hok⟩ := isOk_ite hok nofun
    obtain ⟨hwindow, -⟩ := isOk_ite hok nofun
    simpa using hwindow

/-- A hint never makes the interval longer than the window. -/
theorem DerivationInput.exactInterval_le_window {input : DerivationInput}
    (hrate : 0 < input.exactRate) : input.exactInterval ≤ input.windowNs.toNat ↔
      input.quantumBytes.toNat * bitNanos ≤ input.exactRate * input.windowNs.toNat := by
  unfold exactInterval
  rw [max_le_iff, ceilDiv_le_iff_le_mul hrate, and_iff_left_iff_imp]
  intro _
  split
  · rename_i hhint
    simp only [hinted, Bool.and_eq_true, bne_iff_ne] at hhint
    have hpos := ne_zero_iff_pos.1 hhint.2
    rw [ceilDiv_le_iff_le_mul hpos]
    exact Nat.le_mul_of_pos_left _ hpos
  · exact Nat.zero_le _

/-- A derived cadence is positive throughout exactly when the clamped rate carries a quantum
within one window. -/
theorem derived_positive_iff {input : DerivationInput} {limits : Limits}
    {outcome : DerivationOutcome} (h : deriveCadence input limits = .ok outcome) :
    outcome.cadence.Positive ↔
      input.quantumBytes.toNat * (8 * 10 ^ 9) ≤ input.exactRate * input.windowNs.toNat := by
  have hd := derivation_of_ok h
  generalize outcome.cadence = c at hd
  have hquantum := (DerivationInput.bounded_of_check hd.valid).quantum_ne
  have hwindow : 0 < input.windowNs.toNat := hd.window ▸ ne_zero_iff_pos.1 hd.window_ne
  obtain ⟨hinterval, hinterval0⟩ := hd.interval_exact
  have hinterval' := ne_zero_iff_pos.1 hinterval0
  obtain ⟨hbytes, hpackets, hburst, -⟩ := DerivationInput.of_burst hd.burst
  have hgrants : 0 < c.grantsPerWindow.toNat ↔
      input.quantumBytes.toNat * bitNanos ≤ input.exactRate * input.windowNs.toNat := by
    rw [← DerivationInput.exactInterval_le_window hd.rate_pos, hd.grants_exact, ← hinterval]
    unfold DerivationInput.exactGrants
    rw [← hinterval, Nat.div_pos_iff]
    exact and_iff_right hinterval'
  constructor
  · intro hpos
    exact hgrants.1 (pos_iff_toNat.1 hpos.grants)
  · intro hcarries
    have hgranted := hgrants.2 hcarries
    have hquantum' := ne_zero_iff_pos.1 hquantum
    refine ⟨pos_iff_toNat.2 (ne_zero_iff_pos.1 hd.rate_ne), ?_, pos_iff_toNat.2 hinterval', ?_,
      pos_iff_toNat.2 hgranted, ?_, ?_, ?_⟩
    · rwa [pos_iff_toNat, hd.quantum]
    · rwa [pos_iff_toNat, hd.window]
    · rw [pos_iff_toNat, ← Checked.mul_eq_some_iff.1 hd.bytes]
      positivity
    · rw [pos_iff_toNat]
      exact hquantum'.trans_le (UInt64.le_iff_toNat_le.1 hburst)
    · rw [pos_iff_toNat, hpackets]
      exact ne_zero_iff_pos.1 (DerivationInput.allowed_ne_zero (by decide))

/-- One megabit per second counted by the microsecond. -/
def DerivationInput.slow : DerivationInput :=
  { DerivationInput.tenGigabit with requestedRateBps := 1000000, windowNs := 1000 }

theorem deriveCadence_slow : deriveCadence .slow {} = .ok {
    cadence := { Cadence.tenGigabit with
      rateBps := 1000000
      intervalNs := 12000000
      windowNs := 1000
      grantsPerWindow := 0
      bytesPerWindow := 0 }
    requestedRateBps := 1000000 } := by
  rfl

theorem derived_positive_tenGigabit :
    Cadence.tenGigabit.Positive ↔ DerivationInput.tenGigabit.quantumBytes.toNat * (8 * 10 ^ 9) ≤
      DerivationInput.tenGigabit.exactRate * DerivationInput.tenGigabit.windowNs.toNat :=
  derived_positive_iff deriveCadence_tenGigabit

/-- An authorized cadence that sends nothing per window. -/
theorem derived_grants_nothing :
    Limits.coherent {} = true ∧ ∃ outcome, deriveCadence .slow {} = .ok outcome ∧
      ¬0 < outcome.cadence.grantsPerWindow ∧ ¬0 < outcome.cadence.bytesPerWindow :=
  ⟨by decide, _, deriveCadence_slow, by decide, by decide⟩

/-! ### Overflow under the default limits -/

/-- The result is an arithmetic overflow. -/
def Overflows {α : Type} (result : StatusOr α) : Prop :=
  ∃ status, result = .error status ∧ status.code = .arithmeticOverflow

theorem overflows_error_iff {α : Type} {status : Status} :
    Overflows (.error status : StatusOr α) ↔ status.code = .arithmeticOverflow := by
  simp [Overflows]

theorem not_overflows_ok {α : Type} (x : α) : ¬Overflows (.ok x : StatusOr α) := by
  simp [Overflows]

/-- A check is passed on, or its refusal is the result. -/
theorem overflows_checked_iff {α : Type} (check : Status) (x : α) :
    Overflows (if (!check.isOk) = true then .error check else .ok x : StatusOr α) ↔
      check.code = .arithmeticOverflow := by
  split
  · exact overflows_error_iff
  · rename_i hok
    have hcode : check.code = .ok := by simpa [Status.isOk] using hok
    simp [not_overflows_ok, hcode]

namespace DerivationInput
variable {input : DerivationInput}

/-- Refused on another ground before a burst or a window is multiplied out. -/
def RefusedFirst (input : DerivationInput) : Prop :=
  input.exactRate = 0 ∨ 10 ^ 10 < input.exactInterval ∨ input.allowedBytes < input.quantumBytes

/-- The window carries few enough bytes. -/
def SmallWindow (input : DerivationInput) : Prop := input.exactBytes ≤ 2305843009

/-- Either the bucket is refused as too deep for its rate, or capacity and window fit. -/
def SmallProducts (input : DerivationInput) : Prop :=
  if input.shape = .tokenBucket then
    input.exactRate ≤ 184467440737 ∧
      (input.exactRate < 80 * input.allowedBytes.toNat ∨ input.SmallWindow)
  else input.SmallWindow

/-- What an assembled cadence meets before it is checked again. -/
structure Assembled (limits : Limits) (c : Cadence) : Prop where
  rate_ne : c.rateBps ≠ 0
  rate_le : c.rateBps ≤ limits.maxRateBps
  quantum_ne : c.quantumBytes ≠ 0
  interval_ne : c.intervalNs ≠ 0
  window_ne : c.windowNs ≠ 0
  burst_ne : c.burstBytes ≠ 0
  packets_ne : c.burstPackets ≠ 0
  burst_le : c.burstBytes ≤ limits.maxBurstBytes
  packets_le : c.burstPackets ≤ limits.maxBurstPackets
  bytes : Checked.mul c.grantsPerWindow c.quantumBytes = some c.bytesPerWindow

/-- The last step overflows exactly when the bits of the window do. -/
theorem Assembled.recheck_iff {limits : Limits} {c : Cadence} (h : Assembled limits c) :
    (input.recheck c limits).code = .arithmeticOverflow ↔
      2 ^ 64 ≤ c.bytesPerWindow.toNat * bitNanos := by
  rw [← effectiveRateBps_eq_none_iff h.window_ne]
  unfold recheck validateCadence
  cases c.effectiveRateBps with
  | none =>
    simp [h.rate_ne, h.quantum_ne, h.interval_ne, h.window_ne, h.burst_ne, h.packets_ne,
      UInt64.not_lt.2 h.rate_le, UInt64.not_lt.2 h.burst_le, UInt64.not_lt.2 h.packets_le,
      h.bytes, Status.of, Status.isOk]
  | some effective =>
    simp only [beq_iff_eq, h.rate_ne, h.quantum_ne, h.interval_ne, h.window_ne, h.burst_ne,
      h.packets_ne, gt_iff_lt, UInt64.not_lt.2 h.rate_le, UInt64.not_lt.2 h.burst_le,
      UInt64.not_lt.2 h.packets_le, if_false, h.bytes, bne_self_eq_false, Bool.false_eq_true,
      reduceCtorEq, iff_false]
    split_ifs <;> simp_all [Status.of, Status.isOk, Status.success]

theorem allowed_le {allowance flowMax one bound : UInt64} (hallowance : allowance ≤ bound)
    (hflow : flowMax ≤ bound) (hone : one ≤ bound) : allowed allowance flowMax one ≤ bound := by
  have htight : tightened allowance flowMax ≤ bound := by
    unfold tightened
    split
    · exact hflow
    · exact hallowance
  unfold allowed
  split
  · exact hone
  · exact htight

/-- The burst step under the default limits overflows where the capacity of a bucket does. -/
theorem Bounded.burst_cases (h : input.Bounded {}) {rate : UInt64}
    (hrate : rate.toNat = input.exactRate) :
    (Overflows (input.burst rate {}) ↔ ¬input.allowedBytes < input.quantumBytes ∧
        input.shape = .tokenBucket ∧ 184467440737 < input.exactRate) ∧
      ((∃ bursts, input.burst rate {} = .ok bursts) ↔
        ¬input.allowedBytes < input.quantumBytes ∧ (input.shape = .tokenBucket →
          input.exactRate ≤ 184467440737 ∧ 80 * input.allowedBytes.toNat ≤ input.exactRate)) := by
  have hbytes : ¬input.allowedBytes > ({} : Limits).maxBurstBytes :=
    UInt64.not_lt.2 (allowed_le h.burst_le h.flowBurst_le
      (UInt64.le_trans h.quantum_le (by decide)))
  have hpackets : ¬input.allowedPackets > ({} : Limits).maxBurstPackets :=
    UInt64.not_lt.2 (allowed_le h.packets_le h.flowPackets_le (by decide))
  rw [burst_eq, if_neg hbytes, if_neg hpackets]
  by_cases hsmall : input.allowedBytes < input.quantumBytes
  · rw [if_pos hsmall, overflows_error_iff]
    simp [hsmall, Status.of]
  · rw [if_neg hsmall]
    by_cases hshape : input.shape = .tokenBucket
    · rw [if_pos (by simpa using hshape)]
      have hhorizon : ({} : Limits).maxBurstHorizonNs.toNat = 10 ^ 8 := rfl
      cases hcapacity : burstCapacityBytes rate ({} : Limits).maxBurstHorizonNs with
      | none =>
        rw [burstCapacityBytes_eq_none_iff, hrate, hhorizon] at hcapacity
        have hbig : 184467440737 < input.exactRate := by omega
        simp [overflows_error_iff, Status.of, hsmall, hshape, hbig]
      | some capacity =>
        obtain ⟨hfits, hcapacity⟩ := burstCapacityBytes_eq_some_iff.1 hcapacity
        rw [hrate, hhorizon] at hfits hcapacity
        have hfits' : input.exactRate ≤ 184467440737 := by omega
        have hdeep : input.allowedBytes > capacity ↔
            ¬80 * input.allowedBytes.toNat ≤ input.exactRate := by
          rw [gt_iff_lt, UInt64.lt_iff_toNat_lt, hcapacity]
          unfold bitNanos
          omega
        dsimp only
        by_cases hle : 80 * input.allowedBytes.toNat ≤ input.exactRate
        · rw [if_neg (by simpa [hdeep] using hle)]
          simp [not_overflows_ok, hsmall, hshape, hfits', hle]
        · rw [if_pos (hdeep.2 hle)]
          simp [overflows_error_iff, Status.of, hshape, hfits', hle]
    · rw [if_neg (by simpa using hshape)]
      simp [hsmall, hshape, not_overflows_ok]

end DerivationInput

namespace DerivationInput
variable {input : DerivationInput}

/-- Under the default limits the bytes of a window are always counted. -/
theorem Bounded.bytes_exact (h : input.Bounded {}) {interval : UInt64}
    (hinterval : interval.toNat = input.exactInterval) :
    ∃ bytes, Checked.mul (input.windowNs / interval) input.quantumBytes = some bytes ∧
      bytes.toNat = input.exactBytes := by
  have hquantum : input.quantumBytes.toNat ≤ 16777216 := UInt64.le_iff_toNat_le.1 h.quantum_le
  have hwindow : input.windowNs.toNat ≤ 10 ^ 10 := UInt64.le_iff_toNat_le.1 h.window_le
  have hgrants : (input.windowNs / interval).toNat = input.exactGrants := by
    rw [UInt64.toNat_div, hinterval]
    rfl
  have hle : input.exactGrants ≤ 10 ^ 10 := (Nat.div_le_self ..).trans hwindow
  have hfits : (input.windowNs / interval).toNat * input.quantumBytes.toNat < 2 ^ 64 := by
    rw [hgrants]
    have := Nat.mul_le_mul hle hquantum
    omega
  refine ⟨_, by rw [Checked.mul_eq_ite, if_pos hfits], ?_⟩
  rw [UInt64.toNat_mul, Nat.mod_eq_of_lt hfits, hgrants]
  rfl

theorem refusedFirst_iff (hrate : input.exactRate ≠ 0)
    (hinterval : ¬10 ^ 10 < input.exactInterval) :
    input.RefusedFirst ↔ input.allowedBytes < input.quantumBytes := by
  unfold RefusedFirst
  rw [or_iff_right hrate, or_iff_right hinterval]

end DerivationInput

/-- Under the default limits, an input that passes the bound checks overflows exactly when
nothing else refuses it and its bucket or its window is multiplied out of 64 bits. -/
theorem derivation_representable_iff {input : DerivationInput}
    (hvalid : (input.check {}).isOk = true) :
    (∀ status, deriveCadence input {} = .error status → status.code ≠ .arithmeticOverflow) ↔
      input.RefusedFirst ∨ input.SmallProducts := by
  have hbounded := DerivationInput.bounded_of_check hvalid
  have hoverflows : (∀ status, deriveCadence input {} = .error status →
      status.code ≠ .arithmeticOverflow) ↔ ¬Overflows (deriveCadence input {}) := by
    simp [Overflows]
  obtain ⟨target, htarget, hexact⟩ := hbounded.target_exact
  have hclamped : (input.clampedTarget target).1.toNat = input.exactRate := by
    rw [DerivationInput.clampedTarget_toNat, hexact]
    rfl
  rw [hoverflows]
  unfold deriveCadence
  simp only [hvalid, Bool.not_true, Bool.false_eq_true, if_false, htarget]
  generalize input.clampedTarget target = clamped at hclamped
  obtain ⟨rate, toCeiling, toFloor⟩ := clamped
  dsimp only at hclamped ⊢
  -- a zero rate is refused before anything is multiplied
  by_cases hzero : rate = 0
  · have hrefused : input.RefusedFirst := .inl (by rw [← hclamped, hzero]; rfl)
    simp [hzero, overflows_error_iff, Status.of, hrefused]
  have hlimit : ¬rate > ({} : Limits).maxRateBps := by
    rw [gt_iff_lt, UInt64.not_lt, UInt64.le_iff_toNat_le, hclamped]
    exact hbounded.exactRate_le.trans (UInt64.le_iff_toNat_le.1 hbounded.ceiling_le)
  have hquantum : input.quantumBytes.toNat ≤ 16777216 :=
    UInt64.le_iff_toNat_le.1 hbounded.quantum_le
  obtain ⟨interval, hinterval, hinterval0, heq⟩ :=
    @DerivationInput.interval_exact _ {} _ hbounded.quantum_ne hzero hclamped
      (by unfold bitNanos; omega)
  rw [if_neg (by simpa using hzero), if_neg hlimit, heq]
  -- an interval above the bound is refused before the bucket is sized
  by_cases hlong : interval > ({} : Limits).maxIntervalNs
  · have hrefused : input.RefusedFirst := by
      refine .inr (.inl ?_)
      rw [← hinterval]
      exact UInt64.lt_iff_toNat_lt.1 hlong
    rw [if_pos hlong]
    simp [bind, Except.bind, overflows_error_iff, Status.of, hrefused]
  have hlong' : ¬10 ^ 10 < input.exactInterval := by
    rw [← hinterval]
    exact fun h => hlong (UInt64.lt_iff_toNat_lt.2 h)
  have hpos : input.exactRate ≠ 0 := by
    rw [← hclamped]
    exact (ne_zero_iff_pos.1 hzero).ne'
  obtain ⟨bytes, hbytes, hbytesExact⟩ := hbounded.bytes_exact hinterval
  obtain ⟨hoverflow, hok⟩ := hbounded.burst_cases hclamped
  rw [if_neg hlong, DerivationInput.refusedFirst_iff hpos hlong']
  simp only [bind, Except.bind, hbytes]
  unfold DerivationInput.SmallProducts
  -- what is left are the product that sizes the bucket and the one of the final check
  cases hburst : input.burst rate {} with
  | error status =>
    rw [hburst] at hoverflow hok
    simp only [overflows_error_iff, reduceCtorEq, exists_false, false_iff] at hoverflow hok ⊢
    rw [hoverflow]
    split_ifs with hshape
    · simp only [hshape, true_and, forall_const] at hok ⊢
      by_cases hsmall : input.allowedBytes < input.quantumBytes
      · simp [hsmall]
      · simp only [hsmall, not_false_eq_true, true_and, false_or] at hok ⊢
        omega
    · simp only [hshape, false_and, and_false, not_false_eq_true, true_iff, false_implies,
        and_true, not_not] at hok ⊢
      exact .inl hok
  | ok bursts =>
    obtain ⟨burstBytes, burstPackets⟩ := bursts
    obtain ⟨hsmall, hbucket⟩ := hok.1 ⟨_, hburst⟩
    obtain ⟨rfl, rfl, hquantumBurst, hburstLe, hpacketsLe⟩ := DerivationInput.of_burst hburst
    have hquantum' := ne_zero_iff_pos.1 hbounded.quantum_ne
    have hwindow : input.windowNs ≠ 0 := by
      have := UInt64.le_iff_toNat_le.1 hbounded.window_ge
      rw [ne_zero_iff_pos]
      exact Nat.lt_of_lt_of_le (by decide) this
    have hburst0 : input.allowedBytes ≠ 0 :=
      ne_zero_iff_pos.2 (hquantum'.trans_le (UInt64.le_iff_toNat_le.1 hquantumBurst))
    have hassembled : DerivationInput.Assembled {} {
        rateBps := rate
        quantumBytes := input.quantumBytes
        intervalNs := interval
        windowNs := input.windowNs
        grantsPerWindow := input.windowNs / interval
        bytesPerWindow := bytes
        burstBytes := input.allowedBytes
        burstPackets := input.allowedPackets
        shape := input.shape } :=
      ⟨hzero, UInt64.not_lt.1 hlimit, hbounded.quantum_ne, hinterval0, hwindow, hburst0,
        DerivationInput.allowed_ne_zero (by decide), hburstLe, hpacketsLe, hbytes⟩
    have hwindowBytes : ¬2 ^ 64 ≤ bytes.toNat * bitNanos ↔ input.SmallWindow := by
      rw [hbytesExact]
      unfold DerivationInput.SmallWindow bitNanos
      omega
    dsimp only [pure, Except.pure]
    rw [overflows_checked_iff, hassembled.recheck_iff, hwindowBytes]
    split_ifs with hshape
    · obtain ⟨hrate, hdeep⟩ := hbucket hshape
      rw [or_iff_right hsmall, and_iff_right hrate, or_iff_right (not_lt.2 hdeep)]
    · rw [or_iff_right hsmall]

/-- Ten gigabits per second counted by the longest window allowed. -/
def DerivationInput.tenSeconds : DerivationInput :=
  { DerivationInput.tenGigabit with windowNs := 10000000000 }

/-- The highest rate allowed, with a bucket of one quantum. -/
def DerivationInput.fastBucket : DerivationInput :=
  { DerivationInput.tenGigabit with ceilingBps := 400000000000, shape := .tokenBucket }

theorem derivation_representable_tenGigabit :
    (∀ status, deriveCadence .tenGigabit {} = .error status →
        status.code ≠ .arithmeticOverflow) ↔
      DerivationInput.tenGigabit.RefusedFirst ∨ DerivationInput.tenGigabit.SmallProducts :=
  derivation_representable_iff (by decide)

/-- Both products leave 64 bits within the default limits. -/
theorem derivation_overflows :
    ((DerivationInput.tenSeconds.check {}).isOk = true ∧
        Overflows (deriveCadence .tenSeconds {})) ∧
      (DerivationInput.fastBucket.check {}).isOk = true ∧
        Overflows (deriveCadence .fastBucket {}) :=
  ⟨⟨by decide, _, rfl, rfl⟩, by decide, _, rfl, rfl⟩

end Pacing
