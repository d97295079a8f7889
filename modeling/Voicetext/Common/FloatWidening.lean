import Mathlib.Tactic.Positivity

/-!
# Single precision in double precision

Every single-precision number is a double-precision number: its mantissa is scaled to the longer one and
nothing is rounded. So a number of the closed unit interval stays in it.
-/

namespace Voicetext.Common

open Float.Model (Format UnpackedFloat totalExponent)
open Float.Model.UnpackedFloat (Sign packComponents unpackSign unpackMantissa_packComponents
  unpackExponent_packComponents)

theorem unpackSign_packComponents {spec : Format} {sign : Sign} {exponent : BitVec spec.exponentBits}
    {mantissa : BitVec spec.mantissaBitsWithoutImplicit} :
    unpackSign (packComponents spec sign exponent mantissa) = sign.toBitVec := by
  ext i hi
  obtain rfl : i = 0 := by omega
  delta unpackSign
  simp [packComponents, BitVec.getLsbD_eq_getElem, BitVec.getLsbD_append, BitVec.getElem_append]

/-- `f64::from` a single-precision number: the same value in double precision. -/
def f64From (x : Float32) : Float :=
  .ofModel (.pack (match x.toModel.unpack with
    | .finite sign mantissa exponent _ => UnpackedFloat.round .binary64 sign mantissa exponent
    | other => other))

/-- A number with a leading bit is unpacked as it was packed, unless its exponent is out of range. -/
theorem unpack_pack_normal (sign : Sign) {mantissa : ℕ} {exponent : ℤ} (hpos : 0 < mantissa)
    (hlow : 2 ^ 52 ≤ mantissa) (hhigh : mantissa < 2 ^ 53) (hmin : -1074 ≤ exponent) (hmax : exponent ≤ 971) :
    UnpackedFloat.unpack .binary64 (UnpackedFloat.pack .binary64 (.finite sign mantissa exponent hpos)) =
      .finite sign mantissa exponent hpos := by
  have hlog : mantissa.log2 = 52 := (Nat.log2_eq_iff hpos.ne').mpr ⟨hlow, hhigh⟩
  obtain ⟨biased, hbiased⟩ : ∃ biased : ℕ, (exponent + (1023 : ℕ) + (52 : ℕ)).toNat = biased := ⟨_, rfl⟩
  have hpack : UnpackedFloat.pack .binary64 (.finite sign mantissa exponent hpos) =
      packComponents .binary64 sign (BitVec.ofNat 11 biased) (BitVec.ofNat 52 mantissa) := by
    have hrange : ¬ 2 ^ 11 ≤ biased + 1 := by omega
    delta UnpackedFloat.pack
    simp only [show Format.binary64.exponentBias = 1023 from rfl,
      show Format.binary64.mantissaBits = 53 from rfl, hlog, hbiased, hrange, if_true, if_false]
  have hmantissa : (1#1 ++ BitVec.ofNat 52 mantissa).toNat = mantissa := by
    have hlow : mantissa % 2 ^ 52 < 2 ^ 52 := Nat.mod_lt _ (by decide)
    rw [BitVec.toNat_append, Nat.or_comm]
    simp only [BitVec.toNat_ofNat, Nat.shiftLeft_eq]
    rw [show 1 % 2 ^ 1 * 2 ^ 52 = 2 ^ 52 from rfl, Nat.or_two_pow_eq_add_of_lt hlow]
    omega
  have hfield : (BitVec.ofNat 11 biased).toNat = biased := by
    rw [BitVec.toNat_ofNat, Nat.mod_eq_of_lt (by omega)]
  have hfull : BitVec.ofNat 11 biased ≠ -1#11 := by
    intro h
    have hnat : biased = 2047 := hfield.symm.trans (congrArg BitVec.toNat h)
    omega
  have hzero : BitVec.ofNat 11 biased ≠ 0#11 := by
    intro h
    have hnat : biased = 0 := hfield.symm.trans (congrArg BitVec.toNat h)
    omega
  have hsign : Sign.ofBitVec sign.toBitVec = sign := by cases sign <;> rfl
  have hexponent : ((BitVec.ofNat 11 biased).toNat : ℤ) - ((1023 : ℕ) + (52 : ℕ)) = exponent := by
    rw [hfield]
    omega
  rw [hpack]
  delta UnpackedFloat.unpack
  dsimp only
  rw [unpackExponent_packComponents, if_neg hfull, if_neg hzero, UnpackedFloat.finite.injEq, unpackSign_packComponents,
    unpackMantissa_packComponents]
  exact ⟨hsign, hmantissa, hexponent⟩

/-- The exponent of a number after which its mantissa has the leading bit of double precision. -/
theorem targetExponent_binary64 (total : ℤ) : Format.binary64.targetExponent total = max (total - 53) (-1074) := rfl

/-- A number at its target exponent is not rounded. -/
theorem roundWithAccuracy_exact {spec : Format} (sign : Sign) {mantissa : ℕ} {exponent : ℤ} (hpos : 0 < mantissa)
    (htarget : spec.targetExponent (totalExponent mantissa exponent) = exponent) :
    UnpackedFloat.roundWithAccuracy spec sign mantissa exponent .exact =
      .finite sign mantissa exponent hpos := by
  have hshift : UnpackedFloat.shiftToTargetExponent spec mantissa exponent .exact =
      (⟨mantissa, false, false⟩, exponent) := by
    rw [UnpackedFloat.shiftToTargetExponent, htarget, UnpackedFloat.shiftToExponent, Int.sub_self]
    exact Prod.ext rfl (Int.add_zero _)
  have hrounded : (⟨mantissa, false, false⟩ : UnpackedFloat.ExtendedMantissa).roundedMantissa = mantissa := rfl
  rw [UnpackedFloat.roundWithAccuracy, hshift]
  dsimp only
  rw [hrounded, hshift]
  exact dif_neg hpos.ne'

/-- A number scaled to have its leading bit at a place. -/
theorem log2_mul_pow {n place : ℕ} (hpos : 0 < n) (hle : n.log2 ≤ place) :
    (n * 2 ^ (place - n.log2)).log2 = place := by
  refine (Nat.log2_eq_iff (by positivity)).mpr ⟨?_, ?_⟩
  · calc 2 ^ place = 2 ^ n.log2 * 2 ^ (place - n.log2) := by rw [← pow_add, Nat.add_sub_cancel' hle]
      _ ≤ n * 2 ^ (place - n.log2) := Nat.mul_le_mul_right _ (Nat.log2_self_le hpos.ne')
  · calc n * 2 ^ (place - n.log2) < 2 ^ (n.log2 + 1) * 2 ^ (place - n.log2) :=
          Nat.mul_lt_mul_of_pos_right Nat.lt_log2_self (by positivity)
      _ = 2 ^ (place + 1) := by rw [← pow_add, show n.log2 + 1 + (place - n.log2) = place + 1 by omega]

/-- Nothing is lost when a short mantissa is rounded to double precision. -/
theorem round_of_short (sign : Sign) {mantissa : ℕ} {exponent : ℤ} (hpos : 0 < mantissa)
    (hshort : mantissa.log2 ≤ 52) (hmin : -1022 ≤ exponent) :
    ∃ h, UnpackedFloat.round .binary64 sign mantissa exponent =
      .finite sign (mantissa * 2 ^ (52 - mantissa.log2)) (exponent + mantissa.log2 - 52) h := by
  generalize hlog : mantissa.log2 = log at *
  have hscaled : (mantissa * 2 ^ (52 - log)).log2 = 52 := hlog ▸ log2_mul_pow hpos (hlog ▸ hshort)
  have htarget : Format.binary64.targetExponent (totalExponent mantissa exponent) = exponent + log - 52 := by
    rw [targetExponent_binary64, totalExponent, hlog]
    omega
  have hstays : Format.binary64.targetExponent (totalExponent (mantissa * 2 ^ (52 - log)) (exponent + log - 52)) =
      exponent + log - 52 := by
    rw [targetExponent_binary64, totalExponent, hscaled]
    omega
  have hshift : (exponent - (exponent + log - 52)).toNat = 52 - log := by omega
  have hexponent : exponent - ((52 - log : ℕ) : ℤ) = exponent + log - 52 := by omega
  have hnonzero : mantissa * 2 ^ (52 - log) ≠ 0 := by positivity
  refine ⟨Nat.pos_of_ne_zero hnonzero, ?_⟩
  have hscale : UnpackedFloat.decreaseExponent mantissa exponent (exponent + log - 52) =
      (mantissa * 2 ^ (52 - log), exponent + log - 52) := by
    rw [UnpackedFloat.decreaseExponent, hshift, Nat.shiftLeft_eq, hexponent]
  rw [UnpackedFloat.round, htarget, hscale]
  exact roundWithAccuracy_exact sign _ hstays

/-- A finite single-precision number has a short mantissa and a small exponent. -/
theorem bounds_of_unpack {pattern : BitVec 32} {sign : Sign} {mantissa : ℕ} {exponent : ℤ} {hpos : 0 < mantissa}
    (h : @UnpackedFloat.unpack .binary32 pattern = .finite sign mantissa exponent hpos) :
    mantissa < 2 ^ 24 ∧ -149 ≤ exponent ∧ exponent ≤ 104 := by
  have hbias : Format.binary32.exponentBias = 127 := rfl
  have hbits : (@UnpackedFloat.unpackExponent .binary32 pattern).toNat < 2 ^ 8 := BitVec.isLt _
  have hfraction : (@UnpackedFloat.unpackMantissa .binary32 pattern).toNat < 2 ^ 23 := BitVec.isLt _
  delta UnpackedFloat.unpack at h
  dsimp only at h
  rw [hbias] at h
  by_cases hfull : @UnpackedFloat.unpackExponent .binary32 pattern = -1#_
  · rw [if_pos hfull] at h
    by_cases hnone : @UnpackedFloat.unpackMantissa .binary32 pattern = 0#_
    · rw [if_pos hnone] at h
      cases h
    · rw [if_neg hnone] at h
      cases h
  rw [if_neg hfull] at h
  have hrange : (@UnpackedFloat.unpackExponent .binary32 pattern).toNat ≠ 255 := fun heq =>
    hfull (BitVec.eq_of_toNat_eq heq)
  by_cases hzero : @UnpackedFloat.unpackExponent .binary32 pattern = 0#_
  · rw [if_pos hzero] at h
    have hleast : (@UnpackedFloat.unpackExponent .binary32 pattern).toNat = 0 := congrArg BitVec.toNat hzero
    by_cases hnone : @UnpackedFloat.unpackMantissa .binary32 pattern = 0#_
    · rw [dif_pos hnone] at h
      cases h
    · rw [dif_neg hnone] at h
      obtain ⟨-, rfl, rfl⟩ := UnpackedFloat.finite.inj h
      omega
  · rw [if_neg hzero] at h
    have hleast : (@UnpackedFloat.unpackExponent .binary32 pattern).toNat ≠ 0 := fun heq =>
      hzero (BitVec.eq_of_toNat_eq heq)
    obtain ⟨-, rfl, rfl⟩ := UnpackedFloat.finite.inj h
    have hleading : (1#1 ++ @UnpackedFloat.unpackMantissa .binary32 pattern).toNat < 2 ^ (1 + 23) := BitVec.isLt _
    omega

/-- What a finite single-precision number becomes: the same value with the leading bit of double precision. -/
theorem unpack_f64From {x : Float32} {sign : Sign} {mantissa : ℕ} {exponent : ℤ} {hpos : 0 < mantissa}
    (h : x.toModel.unpack = .finite sign mantissa exponent hpos) :
    ∃ hpos', (f64From x).toModel.unpack =
      .finite sign (mantissa * 2 ^ (52 - mantissa.log2)) (exponent + mantissa.log2 - 52) hpos' := by
  obtain ⟨hshort, hmin, hmax⟩ := bounds_of_unpack h
  have hlog : mantissa.log2 < 24 := (Nat.log2_lt hpos.ne').mpr hshort
  obtain ⟨hpos', hround⟩ := round_of_short sign hpos (by omega) (by omega : -1022 ≤ exponent)
  have hscaled := log2_mul_pow hpos (by omega : mantissa.log2 ≤ 52)
  obtain ⟨hlow, hhigh⟩ := (Nat.log2_eq_iff hpos'.ne').mp hscaled
  refine ⟨hpos', ?_⟩
  rw [f64From, h]
  dsimp only
  rw [hround]
  exact unpack_pack_normal sign hpos' hlow hhigh (by omega) (by omega)

/-- Numbers are compared by what they unpack to. -/
theorem float_le_iff {x y : Float} : x ≤ y ↔ x.toModel.unpack.le y.toModel.unpack = true := decide_eq_true_iff

theorem float32_le_iff {x y : Float32} : x ≤ y ↔ x.toModel.unpack.le y.toModel.unpack = true :=
  decide_eq_true_iff

/-- A confidence of the closed unit interval stays in it. -/
theorem unitInterval_f64From {x : Float32} (hfinite : x.isFinite = true) (hlow : 0.0 ≤ x) (hhigh : x ≤ 1.0) :
    (f64From x).isFinite = true ∧ 0.0 ≤ f64From x ∧ f64From x ≤ 1.0 := by
  have hzero32 : (0.0 : Float32).toModel.unpack = .zero .positive := rfl
  have hone32 : (1.0 : Float32).toModel.unpack = .finite .positive (2 ^ 23) (-23) (by decide) := rfl
  have hzero : (0.0 : Float).toModel.unpack = .zero .positive := rfl
  have hone : (1.0 : Float).toModel.unpack = .finite .positive (2 ^ 52) (-52) (by decide) := rfl
  have hunpacked : (f64From x).toModel.unpack.isFinite = true ∧
      (UnpackedFloat.zero .positive).le (f64From x).toModel.unpack = true ∧
      (f64From x).toModel.unpack.le (.finite .positive (2 ^ 52) (-52) (by decide)) = true := by
    rw [float32_le_iff, hzero32] at hlow
    rw [float32_le_iff, hone32] at hhigh
    change x.toModel.unpack.isFinite = true at hfinite
    cases hx : x.toModel.unpack with
    | infinity sign => rw [hx] at hfinite; cases hfinite
    | notANumber => rw [hx] at hfinite; cases hfinite
    | zero sign =>
      have hunpack : (f64From x).toModel.unpack = .zero sign := by
        rw [f64From, hx]
        cases sign <;> rfl
      rw [hunpack]
      cases sign <;> decide
    | finite sign mantissa exponent hpos =>
      obtain ⟨hpos', hunpack⟩ := unpack_f64From hx
      obtain ⟨hshort, -, -⟩ := bounds_of_unpack hx
      rw [hx] at hlow hhigh
      rw [hunpack]
      cases sign with
      | negative => cases hlow
      | positive =>
        refine ⟨rfl, rfl, ?_⟩
        delta UnpackedFloat.le UnpackedFloat.compare at hhigh ⊢
        simp only [Option.any_some, Ordering.isLE_then_iff_or, Int.compare_eq_lt, Int.compare_eq_eq,
          Nat.isLE_compare] at hhigh ⊢
        have hlog : mantissa.log2 < 24 := (Nat.log2_lt hpos.ne').mpr hshort
        by_cases hless : exponent + mantissa.log2 < 0
        · exact .inl (by omega)
        · -- only one has the exponent of one and its leading bit
          have hlast : mantissa.log2 = 23 := by omega
          have hmantissa : mantissa ≤ 2 ^ 23 := (hhigh.resolve_left (by omega)).2
          rw [hlast]
          exact .inr ⟨by omega, by omega⟩
  rw [float_le_iff, float_le_iff, hzero, hone]
  exact hunpacked

end Voicetext.Common
