import Mathlib.Data.List.Range

namespace Rtl8852au.PrefixScan
open Nat

variable {accept halt accept' halt' : Nat → Prop} {busy n m k : Nat}

section
variable (accept halt : Nat → Prop) [DecidablePred accept] [DecidablePred halt]

def taken : Nat → Nat → Nat
  | 0,k => k
  | busy+1,k => if accept k then (if halt k then k + 1 else taken busy (k+1)) else k
end

def Attempted (accept halt : Nat → Prop) (busy k : Nat) : Prop := k < busy ∧ accept k ∧ ∀ j < k, accept j ∧ ¬halt j

structure Stops (accept halt : Nat → Prop) (busy n : Nat) : Prop where
  bound : n ≤ busy
  accepted : ∀ k < n, accept k
  onward : ∀ k, k+1 < n → ¬halt k
  ended : n = busy ∨ (∃ m, n = m+1 ∧ halt m) ∨ ¬accept n

theorem Attempted.before (attempted : Attempted accept halt busy k) (less : m ≤ k) : Attempted accept halt busy m := by
  refine ⟨lt_of_le_of_lt less attempted.1,?_,fun j smaller => attempted.2.2 j (lt_of_lt_of_le smaller less)⟩
  rcases lt_or_eq_of_le less with smaller | rfl
  · exact (attempted.2.2 m smaller).1
  · exact attempted.2.1

theorem Stops.attempted (stops : Stops accept halt busy n) : Attempted accept halt busy k ↔ k < n := by
  constructor
  · intro attempted
    by_contra late
    have reached : n ≤ k := Nat.le_of_not_lt late
    rcases stops.ended with all | ⟨m,rfl,halted⟩ | refused
    · have inside := attempted.1
      omega
    · exact (attempted.2.2 m reached).2 halted
    · exact refused (attempted.before reached).2.1
  · intro inside
    refine ⟨lt_of_lt_of_le inside stops.bound,stops.accepted k inside,fun j smaller => ⟨stops.accepted j (by omega),?_⟩⟩
    exact stops.onward j (by omega)

theorem Stops.unique (one : Stops accept halt busy n) (two : Stops accept halt busy m) : n = m := by
  have forward : n < m ↔ n < n := two.attempted.symm.trans one.attempted
  have backward : m < n ↔ m < m := one.attempted.symm.trans two.attempted
  omega

theorem Stops.carry (stops : Stops accept halt busy n) (accepted : ∀ k < n, accept' k)
    (onward : ∀ k, k+1 < n → ¬halt k → ¬halt' k) (halted : ∀ m, n = m+1 → halt m → halt' m)
    (refused : ¬accept n → (∀ m, n = m+1 → ¬halt m) → n < busy → ¬accept' n) : Stops accept' halt' busy n where
  bound := stops.bound
  accepted := accepted
  onward k inside := onward k inside (stops.onward k inside)
  ended := by
    by_cases all : n = busy
    · exact .inl all
    by_cases last : ∃ m, n = m+1 ∧ halt m
    · obtain ⟨m,eq,there⟩ := last
      exact .inr (.inl ⟨m,eq,halted m eq there⟩)
    · rcases stops.ended with whole | halts | no
      · exact .inl whole
      · exact absurd halts last
      · exact .inr (.inr (refused no (fun m eq there => last ⟨m,eq,there⟩) (by have := stops.bound; omega)))

variable [DecidablePred accept] [DecidablePred halt]

theorem taken_from (before : ∀ j < k, accept j ∧ ¬halt j) : Stops accept halt (k+busy) (taken accept halt busy k) := by
  induction busy generalizing k with
  | zero => exact ⟨le_refl _,fun j less => (before j less).1,fun j less => (before j (lt_of_succ_lt less)).2,.inl rfl⟩
  | succ busy ih =>
    unfold taken
    by_cases accepted : accept k
    · have upto : ∀ j < k+1, accept j := by
        intro j less
        rcases lt_or_eq_of_le (le_of_lt_succ less) with smaller | rfl
        · exact (before j smaller).1
        · exact accepted
      by_cases halted : halt k
      · rw [if_pos accepted,if_pos halted]
        exact ⟨by omega,upto,fun j less => (before j (lt_of_succ_lt_succ less)).2,.inr (.inl ⟨k,rfl,halted⟩)⟩
      · rw [if_pos accepted,if_neg halted,show k + (busy+1) = k + 1 + busy by omega]
        apply ih
        intro j less
        rcases lt_or_eq_of_le (le_of_lt_succ less) with smaller | rfl
        · exact before j smaller
        · exact ⟨accepted,halted⟩
    · rw [if_neg accepted]
      exact ⟨by omega,fun j less => (before j less).1,fun j less => (before j (lt_of_succ_lt less)).2,.inr (.inr accepted)⟩

theorem taken_stops : Stops accept halt busy (taken accept halt busy 0) := by
  have stops : Stops accept halt (0 + busy) _ := taken_from (fun j less => absurd less (not_lt_zero j))
  rwa [Nat.zero_add] at stops

theorem taken_eq : taken accept halt busy 0 = n ↔ Stops accept halt busy n :=
  ⟨fun same => same ▸ taken_stops,fun stops => taken_stops.unique stops⟩

end Rtl8852au.PrefixScan
