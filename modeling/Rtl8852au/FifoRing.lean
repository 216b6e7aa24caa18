import Mathlib.Logic.Function.Basic

namespace Rtl8852au.FifoRing
open Function List Nat

def index (size base moves : Nat) : Nat := (base+moves) % size
def cell (size base k : Nat) : Nat := index size base (k+1)

structure Holds (size base : Nat) (entry : Nat → Option α) (all : List α) (gone : Nat) : Prop where
  past : gone ≤ all.length
  fits : all.length < gone + size
  kept : ∀ k, gone ≤ k → k < all.length → entry (cell size base k) = all[k]?

variable {size base k m n : Nat} {entry : Nat → Option α} {all : List α} {gone : Nat}

theorem index_lt (positive : 0 < size) : index size base m < size := mod_lt _ positive
theorem index_zero (small : base < size) : index size base 0 = base := mod_eq_of_lt small

theorem index_add (small : n < size) : index size base (m+n) =
    if index size base m + n < size then index size base m + n else index size base m + n - size := by
  have positive : 0 < size := by omega
  have below : index size base m < size := index_lt positive
  have sum : index size base (m+n) = (index size base m + n) % size := by
    unfold index
    rw [← Nat.add_assoc,Nat.mod_add_mod]
  rw [sum]
  split
  · rename_i inside; exact mod_eq_of_lt inside
  · rename_i outside
    rw [mod_eq_sub_mod (by omega)]
    exact mod_eq_of_lt (by omega)

theorem index_succ (small : 1 < size) : index size base (m+1) =
    if index size base m + 1 < size then index size base m + 1 else 0 := by
  have below : index size base m < size := index_lt (by omega)
  rw [index_add small]
  split <;> omega

variable (size base) in
theorem index_gap (order : m ≤ n) (near : n < m + size) : n - m =
    if index size base m ≤ index size base n then index size base n - index size base m
    else index size base n + (size - index size base m) := by
  obtain ⟨d,rfl⟩ := Nat.exists_eq_add_of_le order
  have below : index size base m < size := index_lt (by omega)
  rw [index_add (by omega)]
  split <;> split <;> omega

theorem cell_ne (order : m < n) (near : n < m + size) : cell size base m ≠ cell size base n := by
  intro same
  have gap := index_gap size base (m := m+1) (n := n+1) (by omega) (by omega)
  unfold cell at same
  rw [same] at gap
  simp only [Nat.le_refl,if_true] at gap
  omega

theorem Holds.start (positive : 0 < size) : Holds size base entry [] 0 :=
  ⟨Nat.le_refl 0,by simpa using positive,fun k _ short => by simp at short⟩

section
variable (held : Holds size base entry all gone)
include held

theorem Holds.write (room : all.length + 1 < gone + size) (value : Option α) :
    Holds size base (update entry (cell size base all.length) value) all gone := by
  refine ⟨held.past,held.fits,?_⟩
  intro k late short
  have apart : cell size base k ≠ cell size base all.length := cell_ne short (by omega)
  rw [update_of_ne apart]
  exact held.kept k late short

theorem Holds.grow (room : all.length + 1 < gone + size)
    (there : entry (cell size base all.length) = some a) : Holds size base entry (all ++ [a]) gone := by
  refine ⟨?_,?_,?_⟩
  · have past := held.past
    simp only [length_append,length_singleton]
    omega
  · simpa using room
  · intro k late short
    by_cases last : k = all.length
    · subst last
      simpa using there
    · have before : k < all.length := by
        simp only [length_append,length_singleton] at short
        omega
      rw [getElem?_append_left before]
      exact held.kept k late before

theorem Holds.out (some_left : gone < all.length) :
    Holds size base entry all (gone+1) := by
  have fits := held.fits
  exact ⟨some_left,by omega,fun k late short => held.kept k (by omega) short⟩
end

theorem Holds.clear (held : Holds size base entry all (gone+1)) (value : Option α) :
    Holds size base (update entry (cell size base gone) value) all (gone+1) := by
  have fits := held.fits
  refine ⟨held.past,held.fits,?_⟩
  intro k late short
  have apart : cell size base gone ≠ cell size base k := cell_ne (by omega) (by omega)
  rw [update_of_ne apart.symm]
  exact held.kept k late short
end Rtl8852au.FifoRing
