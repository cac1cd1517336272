import Mathlib
import PackageInstaller.Number

/-! The order of what a clock shows. A reading after one that is not zero is not zero either, if the clock begins at
zero or later and does not go back. -/

namespace PackageInstaller.Number

open Float.Model Float.Model.UnpackedFloat

/-- A number is at most another: two whole ones by their values, else as doubles. -/
def AtMost : Number → Number → Prop
  | .whole a, .whole b => a ≤ b
  | a, b => a.toFloat ≤ b.toFloat

instance : DecidableRel AtMost
  | .whole a, .whole b => inferInstanceAs (Decidable (a ≤ b))
  | .whole a, .real y => inferInstanceAs (Decidable (ofInt a ≤ y))
  | .real x, b => inferInstanceAs (Decidable (x ≤ b.toFloat))

/-- What a clock shows is zero or more, and never less than before. -/
def Ascending (readings : List Number) : Prop := (.whole 0 :: readings).Pairwise AtMost

instance (readings : List Number) : Decidable (Ascending readings) :=
  inferInstanceAs (Decidable (List.Pairwise _ _))

/-- More than zero. -/
inductive Above : UnpackedFloat → Prop
  | infinity : Above (.infinity .positive)
  | finite {mantissa : Nat} {exponent : Int} (hpos : 0 < mantissa) : Above (.finite .positive mantissa exponent hpos)

variable {x y : Float} {u v : UnpackedFloat} {a b : Number}

lemma le_iff : x ≤ y ↔ x.toModel.unpack.le y.toModel.unpack = true := decide_eq_true_iff

lemma beq_zero_iff : (x == 0) = true ↔ ∃ sign, x.toModel.unpack = .zero sign := by
  change x.toModel.unpack.beq (.zero .positive) = true ↔ _
  cases x.toModel.unpack with
  | infinity sign => cases sign <;> simp [UnpackedFloat.beq, UnpackedFloat.compare]
  | notANumber => simp [UnpackedFloat.beq, UnpackedFloat.compare]
  | zero sign => simp [UnpackedFloat.beq, UnpackedFloat.compare]
  | finite sign mantissa exponent pos => cases sign <;> simp [UnpackedFloat.beq, UnpackedFloat.compare]

lemma above_of_zero_le (h : (UnpackedFloat.zero .positive).le u = true) (hne : ∀ sign, u ≠ .zero sign) : Above u := by
  cases u with
  | infinity sign =>
    cases sign with
    | positive => exact .infinity
    | negative => simp [UnpackedFloat.le, UnpackedFloat.compare] at h
  | notANumber => simp [UnpackedFloat.le, UnpackedFloat.compare] at h
  | zero sign => exact absurd rfl (hne sign)
  | finite sign mantissa exponent hpos =>
    cases sign with
    | positive => exact .finite hpos
    | negative => simp [UnpackedFloat.le, UnpackedFloat.compare] at h

lemma Above.ne_zero_of_le (h : Above u) (hle : u.le v = true) (sign : Sign) : v ≠ .zero sign := by
  rintro rfl
  cases h <;> simp [UnpackedFloat.le, UnpackedFloat.compare] at hle

section Packing

variable {spec : Format} {word : BitVec spec.numBits} {exponent : BitVec spec.exponentBits}
  {fraction : BitVec spec.mantissaBitsWithoutImplicit}

lemma unpackSign_packComponents (sign : Sign) :
    unpackSign (packComponents spec sign exponent fraction) = sign.toBitVec := by
  refine BitVec.eq_of_getLsbD_eq fun i hi => ?_
  obtain rfl : i = 0 := by omega
  simp [unpackSign, packComponents, BitVec.getLsbD_append, BitVec.getElem_append]

lemma above_packComponents (hinf : exponent = -1#_ → fraction = 0#_) (hpos : exponent = 0#_ → fraction ≠ 0#_) :
    Above (UnpackedFloat.unpack spec (packComponents spec .positive exponent fraction)) := by
  rw [UnpackedFloat.unpack]
  simp only [unpackExponent_packComponents, unpackMantissa_packComponents, unpackSign_packComponents]
  split_ifs with he hf he' hf'
  · exact .infinity
  · exact absurd (hinf he) hf
  · exact absurd hf' (hpos he')
  · exact .finite _
  · exact .finite _

lemma above_packedInfinity : Above (UnpackedFloat.unpack .binary64 (packedInfinity .binary64 .positive)) :=
  above_packComponents (fun _ => rfl) (by decide)

lemma above_pack_finite {mantissa : Nat} {e : Int} (hmantissa : 0 < mantissa)
    (hbiased : 0 < (e + Format.binary64.exponentBias + (52 : Nat)).toNat)
    (hsmall : mantissa.log2 + 1 ≠ Format.binary64.mantissaBits → mantissa < 2 ^ 52) :
    Above (UnpackedFloat.unpack .binary64 (UnpackedFloat.pack .binary64 (.finite .positive mantissa e hmantissa))) := by
  rw [UnpackedFloat.pack]
  simp only
  generalize (e + Format.binary64.exponentBias + (52 : Nat)).toNat = biased at hbiased ⊢
  split_ifs with hinf hlog
  · exact above_packedInfinity
  · have hne : ∀ n < 2 ^ 11, biased ≠ n → BitVec.ofNat 11 biased ≠ BitVec.ofNat 11 n := fun n hn hne heq => by
      have := congrArg BitVec.toNat heq
      simp only [BitVec.toNat_ofNat] at this
      omega
    exact above_packComponents (fun h => absurd h (hne 2047 (by decide) (by omega)))
      fun h => absurd h (hne 0 (by decide) (by omega))
  · refine above_packComponents (fun h => absurd h (by decide)) fun _ h => ?_
    have := congrArg BitVec.toNat h
    simp only [BitVec.toNat_ofNat] at this
    have := hsmall hlog
    omega

lemma log2_append (fraction : BitVec 52) : (1#1 ++ fraction).toNat.log2 = 52 := by
  have hlt : fraction.toNat < 2 ^ 52 := fraction.isLt
  rw [BitVec.toNat_append, ← Nat.shiftLeft_add_eq_or_of_lt hlt, Nat.log2_eq_iff (by simp)]
  simp only [BitVec.toNat_ofNat, Nat.shiftLeft_eq]
  omega

lemma above_pack_unpack {word : BitVec Format.binary64.numBits} (hsign : unpackSign word = 0#1)
    (hinf : unpackExponent word = -1#_ → unpackMantissa word = 0#_)
    (hpos : unpackExponent word = 0#_ → unpackMantissa word ≠ 0#_) :
    Above (UnpackedFloat.unpack .binary64 (UnpackedFloat.pack .binary64 (UnpackedFloat.unpack .binary64 word))) := by
  have hs : Sign.ofBitVec (unpackSign word) = .positive := by rw [hsign]; rfl
  have hwidth : Format.binary64.mantissaBitsWithoutImplicit = 52 := rfl
  generalize hu : UnpackedFloat.unpack .binary64 word = u
  rw [UnpackedFloat.unpack, hs] at hu
  split_ifs at hu with he hf he' hf'
  · rw [← hu]
    exact above_packedInfinity
  · exact absurd (hinf he) hf
  · exact absurd hf' (hpos he')
  · rw [← hu]
    exact above_pack_finite _ (by omega) fun _ => (unpackMantissa word).isLt
  · rw [← hu]
    have hexponent := BitVec.toNat_pos_of_ne_zero he'
    exact above_pack_finite _ (by omega) fun hlog => absurd (congrArg (· + 1) (log2_append _)) hlog

lemma toNat_unpackSign (word : BitVec Format.binary64.numBits) :
    (unpackSign word).toNat = word.toNat / 2 ^ 63 % 2 := by
  rw [← Nat.shiftRight_eq_div_pow]
  rfl

lemma toNat_unpackExponent (word : BitVec Format.binary64.numBits) :
    (unpackExponent word).toNat = word.toNat / 2 ^ 52 % 2 ^ 11 := by
  rw [← Nat.shiftRight_eq_div_pow]
  rfl

lemma toNat_unpackMantissa (word : BitVec Format.binary64.numBits) :
    (unpackMantissa word).toNat = word.toNat % 2 ^ 52 := rfl

lemma above_withSign {bits : Nat} (hpos : 0 < bits) (hbits : bits ≤ infinityBits) :
    Above (withSign false bits).toModel.unpack := by
  rw [infinityBits, fractionBits] at hbits
  have hword : (0 + bits).toUInt64.toBitVec.toNat = bits := by
    rw [Nat.zero_add]
    change bits % 2 ^ 64 = bits
    omega
  change Above (UnpackedFloat.unpack .binary64 (UnpackedFloat.pack .binary64
    (UnpackedFloat.unpack .binary64 (0 + bits).toUInt64.toBitVec)))
  generalize (0 + bits).toUInt64.toBitVec = word at hword
  have hsign := toNat_unpackSign word
  have hexponent := toNat_unpackExponent word
  have hfraction := toNat_unpackMantissa word
  rw [hword] at hsign hexponent hfraction
  refine above_pack_unpack (BitVec.eq_of_toNat_eq ?_) (fun h => BitVec.eq_of_toNat_eq ?_) fun h h' => ?_
  · rw [hsign]
    change _ = 0
    omega
  · rw [h] at hexponent
    change 2047 = _ at hexponent
    rw [hfraction]
    change _ = 0
    omega
  · rw [h] at hexponent
    rw [h'] at hfraction
    change 0 = _ at hexponent hfraction
    omega

lemma binaryExponent_pos (n : Nat) : 0 < (binaryExponent n 1 - least).toNat := by
  rw [binaryExponent, least]
  have hone : Nat.log2 1 = 0 := by decide
  simp only [hone]
  split_ifs <;> omega

lemma above_ofInt {n : Int} (hn : 0 < n) : Above (ofInt n).toModel.unpack := by
  have hne : n.natAbs ≠ 0 := by omega
  rw [ofInt, decide_eq_false (by omega), nearest, if_neg hne]
  have hexponent := binaryExponent_pos n.natAbs
  refine above_withSign ?_ (Nat.min_le_left _ _)
  have hscaled := Nat.mul_pos hexponent (by decide : 0 < fractionBits)
  exact Nat.lt_min.mpr ⟨by decide, by omega⟩

end Packing

lemma unpack_ofInt_zero : (ofInt 0).toModel.unpack = .zero .positive := rfl

lemma above_toFloat (ha : AtMost (.whole 0) a) (hne : a.isZero = false) : Above a.toFloat.toModel.unpack := by
  cases a with
  | whole n =>
    have hn : n ≠ 0 := by simpa [isZero] using hne
    have hpos : 0 ≤ n := ha
    exact above_ofInt (by omega)
  | real x =>
    refine above_of_zero_le (le_iff.mp ha) fun sign hsign => ?_
    have hzero : (x == 0) = true := beq_zero_iff.mpr ⟨sign, hsign⟩
    rw [isZero, hzero] at hne
    cases hne

lemma toFloat_of_isZero (h : a.isZero = true) : ∃ sign, a.toFloat.toModel.unpack = .zero sign := by
  cases a with
  | whole n =>
    obtain rfl : n = 0 := by simpa [isZero] using h
    exact ⟨_, unpack_ofInt_zero⟩
  | real x => exact beq_zero_iff.mp h

lemma toFloat_le (h : AtMost a b) (hreal : ¬∃ m n, a = .whole m ∧ b = .whole n) : a.toFloat ≤ b.toFloat := by
  cases a with
  | real x => exact h
  | whole m =>
    cases b with
    | real y => exact h
    | whole n => exact absurd ⟨m, n, rfl, rfl⟩ hreal

lemma isZero_of_atMost (ha : AtMost (.whole 0) a) (hab : AtMost a b) (hb : b.isZero = true) : a.isZero = true := by
  cases hne : a.isZero with
  | true => rfl
  | false =>
    exfalso
    by_cases hreal : ∃ m n, a = .whole m ∧ b = .whole n
    · obtain ⟨m, n, rfl, rfl⟩ := hreal
      have ha : 0 ≤ m := ha
      have hab : m ≤ n := hab
      simp only [isZero, decide_eq_true_eq, decide_eq_false_iff_not] at hb hne
      omega
    · obtain ⟨sign, hsign⟩ := toFloat_of_isZero hb
      exact (above_toFloat ha hne).ne_zero_of_le (le_iff.mp (toFloat_le hab hreal)) sign hsign

/-- Where a clock shows zero it has shown nothing else before. -/
theorem Ascending.isZero {readings : List Number} (h : Ascending readings) (hab : [a, b].Sublist readings)
    (hb : b.isZero = true) : a.isZero = true := by
  rw [Ascending] at h
  have hpairs := h.sublist (hab.cons_cons _)
  simp only [List.pairwise_cons, List.mem_cons, forall_eq_or_imp] at hpairs
  exact isZero_of_atMost hpairs.1.1 hpairs.2.1.1 hb

end PackageInstaller.Number
