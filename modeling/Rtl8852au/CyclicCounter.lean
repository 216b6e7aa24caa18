import Mathlib.Data.Nat.ModEq

namespace Rtl8852au.CyclicCounter

def issued (modulus base : Nat) : Nat → List Nat
  | 0 => []
  | count+1 => ((base + count + 1) % modulus) :: issued modulus base count

theorem issued_exact : value ∈ issued modulus base count ↔ ∃ k < count, value = (base + k + 1) % modulus := by
  induction count with
  | zero => simp [issued]
  | succ count ih =>
    simp only [issued,List.mem_cons,ih]
    constructor
    · rintro (rfl | ⟨k,before,rfl⟩)
      · exact ⟨count,Nat.lt_succ_self _,rfl⟩
      · exact ⟨k,by omega,rfl⟩
    · rintro ⟨k,before,rfl⟩
      by_cases last : k = count
      · exact .inl (by rw [last])
      · exact .inr ⟨k,by omega,rfl⟩

theorem comes_round (apart : k < count) (again : (base + count + 1) % modulus = (base + k + 1) % modulus) :
    modulus ≤ count - k := by
  have split : base + count + 1 = base + k + 1 + (count-k) := by omega
  have round : (count-k) % modulus = 0 := by
    have same : base + k + 1 + (count-k) ≡ base + k + 1 + 0 [MOD modulus] := by
      rw [← split]
      exact again
    exact Nat.ModEq.add_left_cancel' _ same
  exact Nat.le_of_dvd (by omega) (Nat.dvd_of_mod_eq_zero round)

theorem next_new (positive : 0 < modulus) :
    (base + count + 1) % modulus ∉ issued modulus base count ↔ count < modulus := by
  rw [issued_exact]
  constructor
  · intro new
    by_contra many
    refine new ⟨count-modulus,by omega,?_⟩
    have shifted : base + count + 1 = base + (count-modulus) + 1 + modulus := by omega
    rw [shifted,Nat.add_mod_right]
  · rintro few ⟨k,before,again⟩
    have far := comes_round before again
    omega
end Rtl8852au.CyclicCounter
