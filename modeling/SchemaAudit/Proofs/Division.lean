import SchemaAudit.Proofs.Demands

/-! # Where divisions stop

Division by a whole number and division by a double-precision one fail on different operands,
and rounding a whole number to a double-precision one never turns it into zero.
-/

namespace SchemaAudit

namespace Binary64

theorem exponentFor_le (num den : Nat) :
    exponentFor num den ≤ max ((num.log2 : Int) - den.log2 - 53) leastExponent + 1 := by
  unfold exponentFor
  dsimp only
  split <;> omega

theorem scaled_pos (num : Nat) (e : Int) : 0 < (scaled num 1 e).2 := by
  unfold scaled
  split
  · exact Nat.mul_pos Nat.one_pos (Nat.two_pow_pos _)
  · exact Nat.one_pos

/-- A whole number keeps at least one unit at the exponent at which it is rounded. -/
theorem one_le_scaled {num : Nat} (positive : num ≠ 0) :
    (scaled num 1 (exponentFor num 1)).2 ≤ (scaled num 1 (exponentFor num 1)).1 := by
  have small := exponentFor_le num 1
  unfold scaled
  split
  · next natural =>
      have below : (exponentFor num 1).toNat ≤ num.log2 := by
        simp only [leastExponent] at small
        omega
      calc 1 * 2 ^ (exponentFor num 1).toNat = 2 ^ (exponentFor num 1).toNat := Nat.one_mul _
        _ ≤ 2 ^ num.log2 := Nat.pow_le_pow_right (by decide) below
        _ ≤ num := Nat.log2_self_le positive
  · exact Nat.mul_pos (Nat.pos_of_ne_zero positive) (Nat.two_pow_pos _)

theorem roundHalfEven_ne_zero {num den : Nat} (positive : 0 < den) (unit : den ≤ num) :
    roundHalfEven num den ≠ 0 := by
  have whole : 0 < num / den := Nat.div_pos unit positive
  unfold roundHalfEven
  dsimp only
  split
  · omega
  · split
    · omega
    · split <;> omega

theorem isZero_ofQuotient (negative : Bool) (num : Nat) :
    (ofQuotient negative num 1).isZero = true ↔ num = 0 := by
  by_cases zero : num = 0
  · simp [ofQuotient, Binary64.zero, isZero, zero]
  · have mantissa : roundHalfEven (scaled num 1 (exponentFor num 1)).1
        (scaled num 1 (exponentFor num 1)).2 ≠ 0 :=
      roundHalfEven_ne_zero (scaled_pos num _) (one_le_scaled zero)
    rw [ofQuotient, if_neg zero]
    simp only [zero, iff_false]
    split
    · split <;> simp [isZero]
    · split <;> simp [isZero, mantissa]

theorem isZero_ofInt? {n : Int} {y : Binary64} (rounded : ofInt? n = some y) :
    y.isZero = true ↔ n = 0 := by
  rw [← Int.natAbs_eq_zero, ← isZero_ofQuotient (n < 0)]
  unfold ofInt? at rounded
  split at rounded
  · next same => rw [same, ← Option.some.inj rounded]
  · cases rounded

theorem ofInt?_finite {n : Int} {y : Binary64} (rounded : ofInt? n = some y) :
    ∃ negative m e, y = .finite negative m e := by
  unfold ofInt? at rounded
  split at rounded
  · exact ⟨_, _, _, (Option.some.inj rounded).symm⟩
  · cases rounded

end Binary64

namespace Evaluation

theorem stop?_dividesExactly {inst : Value} (number : inst.magnitude?.isSome) (n : Int) :
    stop? (dividesExactly inst n) = (Operation.divisionByWhole? inst n).map .fault := by
  cases inst with
  | int m =>
      rw [dividesExactly, Operation.divisionByWhole?]
      split <;> rfl
  | float | nan =>
      rw [dividesExactly, Operation.divisionByWhole?, Operation.isHuge]
      cases rounded : Binary64.ofInt? n with
      | none => rfl
      | some y =>
          by_cases zero : n = 0
          · simp [zero, (Binary64.isZero_ofInt? rounded).mpr zero]
          · simp [zero, mt (Binary64.isZero_ofInt? rounded).mp zero]
      all_goals simp
  | _ => cases number

/-- Finite numbers have a quotient, if it is only decided exactly. -/
theorem stop?_dividesRounded_finite {inst : Value} {negative : Bool} {m : Nat} {e : Int}
    {y : Binary64} (converted : asBinary64 inst = .ok (some (.finite negative m e)))
    (nonzero : ¬ y.isZero = true) : stop? (dividesRounded inst (.float y)) = none := by
  rw [dividesRounded, stop?_bind, converted]
  cases y with
  | infinite => rfl
  | finite t n f =>
      simp only [asBinary64, stop?_bind, Option.any_some, nonzero]
      simp only [Binary64.quotient?]
      cases Binary64.ofQuotient (negative != t) (Binary64.scaled m n (f - e)).1
        (Binary64.scaled m n (f - e)).2 <;> rfl

theorem stop?_dividesRounded_zero {inst : Value} {x? : Option Binary64} {y : Binary64}
    (converted : asBinary64 inst = .ok x?) (zero : y.isZero = true) :
    stop? (dividesRounded inst (.float y)) = some (.fault .divisionByZero) := by
  rw [dividesRounded, stop?_bind, converted]
  simp [asBinary64, stop?_bind, zero]

theorem stop?_dividesRounded {inst : Value} (number : inst.magnitude?.isSome) (y : Binary64) :
    stop? (dividesRounded inst (.float y)) = (Operation.division? inst (.float y)).map .fault := by
  cases inst with
  | int n =>
      cases rounded : Binary64.ofInt? n with
      | none =>
          simp [dividesRounded, stop?_bind, asBinary64, rounded, faulted, Operation.division?,
            Operation.isHuge]
      | some x =>
          obtain ⟨s, m, e, rfl⟩ := Binary64.ofInt?_finite rounded
          have converted : asBinary64 (.int n) = .ok (some (.finite s m e)) := by
            rw [asBinary64, rounded]
          by_cases zero : y.isZero = true
          · rw [stop?_dividesRounded_zero converted zero]
            simp [Operation.division?, Operation.isHuge, rounded, zero]
          · rw [stop?_dividesRounded_finite converted zero]
            simp [Operation.division?, Operation.isHuge, rounded, zero]
  | float x =>
      by_cases zero : y.isZero = true
      · rw [stop?_dividesRounded_zero rfl zero]
        simp [Operation.division?, Operation.isHuge, zero]
      · cases x with
        | finite =>
            rw [stop?_dividesRounded_finite rfl zero]
            simp [Operation.division?, Operation.isHuge, zero]
        | infinite =>
            cases y <;> simp [dividesRounded, stop?_bind, asBinary64, Binary64.quotient?, zero,
              Operation.division?, Operation.isHuge]
  | nan =>
      by_cases zero : y.isZero = true
      · rw [stop?_dividesRounded_zero rfl zero]
        simp [Operation.division?, Operation.isHuge, zero]
      · simp [dividesRounded, stop?_bind, asBinary64, zero, Operation.division?,
          Operation.isHuge]
  | _ => cases number

theorem stop?_dividesRounded_nan {inst : Value} (number : inst.magnitude?.isSome) (tag : Nat) :
    stop? (dividesRounded inst (.nan tag)) =
      (Operation.division? inst (.nan tag)).map .fault := by
  cases inst with
  | int n =>
      cases rounded : Binary64.ofInt? n <;>
        simp [dividesRounded, stop?_bind, asBinary64, rounded, faulted, Operation.division?,
          Operation.isHuge]
  | float | nan =>
      simp [dividesRounded, stop?_bind, asBinary64, Operation.division?, Operation.isHuge]
  | _ => cases number

theorem stop?_checkDivisibleBy (b : Bench) (divisor inst : Value) :
    stop? (checkDivisibleBy b.store divisor inst) =
      (performIf inst.magnitude?.isSome (.divide inst divisor)).findSome? b.stop? := by
  rw [checkDivisibleBy, performIf]
  cases found : inst.magnitude? with
  | none => rfl
  | some x =>
      have number : inst.magnitude?.isSome := by rw [found]; rfl
      simp only [Option.isSome_some, if_true, List.findSome?_singleton, Bench.stop?,
        Operation.stop?]
      have compared : ∀ fits : Except Stop Bool, stop? (do
          violationIf (!(← fits)) (inst.display b.store ++ " is not a multiple of "
            ++ divisor.plain b.store)) = stop? fits :=
        fun fits => stop?_bind_clear fun _ => stop?_violationIf _ _
      cases divisor with
      | int n => exact (compared _).trans (stop?_dividesExactly number n)
      | bool b => exact (compared _).trans (stop?_dividesExactly number _)
      | float y => exact (compared _).trans (stop?_dividesRounded number y)
      | nan tag => exact (compared _).trans (stop?_dividesRounded_nan number tag)
      | _ => rfl

end Evaluation

end SchemaAudit
