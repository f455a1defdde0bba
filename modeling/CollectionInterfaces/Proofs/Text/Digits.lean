import Mathlib.Algebra.Group.Nat.Defs
import CollectionInterfaces.Text.Decimal

/-!
# The size of numbers in digits

A number is below the power of its base by the number of its digits (`Text.readDigits_lt`,
`Text.toNat_lt`).
-/

namespace CollectionInterfaces

namespace Text

variable {base acc n : Nat} {digits : Text}

theorem readDigits_lt (h : readDigits base acc digits = some n) :
    n < (acc + 1) * base ^ digits.length := by
  induction digits generalizing acc with
  | nil =>
    cases h
    simp
  | cons c rest ih =>
    unfold readDigits at h
    split at h
    · rename_i d _
      split at h
      · rename_i hd
        calc n < (acc * base + d + 1) * base ^ rest.length := ih h
          _ ≤ ((acc + 1) * base) * base ^ rest.length :=
            Nat.mul_le_mul_right _ (by rw [Nat.succ_mul]; omega)
          _ = (acc + 1) * base ^ (c :: rest).length := by
            rw [List.length_cons, Nat.pow_succ, Nat.mul_assoc, Nat.mul_comm base]
      · cases h
    · cases h

theorem digitValue?_of_isDigit {c : CodePoint} (h : c.isDigit = true) :
    ∃ d < 10, c.digitValue? = some d := by
  refine ⟨c.val - 48, ?_, by simp [CodePoint.digitValue?, h]⟩
  simp only [CodePoint.isDigit, Bool.and_eq_true, decide_eq_true_eq] at h
  omega

theorem readDigits_of_isDigit (acc : Nat) (h : ∀ c ∈ digits, c.isDigit = true) :
    readDigits 10 acc digits =
      some (digits.foldl (fun n c => n * 10 + (c.digitValue?.getD 0)) acc) := by
  induction digits generalizing acc with
  | nil => rfl
  | cons c rest ih =>
    rw [List.forall_mem_cons] at h
    obtain ⟨d, hd, hvalue⟩ := digitValue?_of_isDigit h.1
    simp only [readDigits, hvalue, hd, if_true, ih _ h.2, List.foldl_cons, Option.getD_some]

/-- Decimal digits denote a number below the power of ten by their number. -/
theorem toNat_lt (h : ∀ c ∈ digits, c.isDigit = true) : digits.toNat < 10 ^ digits.length := by
  have hlt := readDigits_lt (readDigits_of_isDigit 0 h)
  rwa [Nat.zero_add, Nat.one_mul] at hlt

end Text

end CollectionInterfaces
