import Mathlib.Data.Nat.Bitwise
import Mathlib.Data.Set.Image

namespace Rtl8852au.Bitmap
open Set

def mark (map i : Nat) : Nat := map ||| 1 <<< i
def clear (map i : Nat) : Nat := map ^^^ (map &&& 1 <<< i)
def firstFree (map size : Nat) : Option Nat := (List.range size).find? (fun i => !map.testBit i)

theorem testBit_one (i j : Nat) : (1 <<< i).testBit j = decide (i = j) := by rw [Nat.one_shiftLeft,Nat.testBit_two_pow]

@[simp] theorem testBit_mark (map i j : Nat) : (mark map i).testBit j = (map.testBit j || decide (i = j)) := by
  rw [mark,Nat.testBit_or,testBit_one]

theorem testBit_marks {I : Type} (at_ : I → Nat) (items : List I) (map j : Nat) :
    (items.foldl (fun map i => mark map (at_ i)) map).testBit j ↔ map.testBit j ∨ ∃ i ∈ items, at_ i = j := by
  induction items generalizing map with
  | nil => simp
  | cons i rest ih => simp [ih,or_assoc]

@[simp] theorem testBit_clear (map i j : Nat) : (clear map i).testBit j = (map.testBit j && !decide (i = j)) := by
  rw [clear,Nat.testBit_xor,Nat.testBit_and,testBit_one]
  cases map.testBit j with
  | false => rfl
  | true => simp

theorem firstFree_some (found : firstFree map size = some i) : i < size ∧ map.testBit i = false := by
  have member := List.mem_of_find?_eq_some found
  have free := List.find?_some found
  exact ⟨List.mem_range.mp member,by simpa using free⟩

theorem firstFree_none : firstFree map size = none ↔ ∀ i < size, map.testBit i := by simp [firstFree]

def Holds (map : Nat) (owned : Set Nat) : Prop := ∀ i, map.testBit i ↔ i ∈ owned

theorem Holds.empty : Holds 0 ∅ := by
  intro i
  simp

theorem Holds.unique (one : Holds map owned) (two : Holds map' owned) : map = map' := by
  apply Nat.eq_of_testBit_eq
  intro i
  rw [Bool.eq_iff_iff,one i,two i]

theorem Holds.same (holds : Holds map owned) (equal : ∀ i, i ∈ owned ↔ i ∈ owned') : Holds map owned' :=
  fun i => (holds i).trans (equal i)

theorem Holds.mark (holds : Holds map owned) (i : Nat) : Holds (mark map i) (insert i owned) := by
  intro j
  rw [testBit_mark,Bool.or_eq_true,holds j,mem_insert_iff,decide_eq_true_iff]
  constructor
  · rintro (there | same)
    · exact .inr there
    · exact .inl same.symm
  · rintro (same | there)
    · exact .inr same.symm
    · exact .inl there

theorem Holds.clear (holds : Holds map owned) (i : Nat) : Holds (clear map i) (owned \ {i}) := by
  intro j
  rw [testBit_clear,Bool.and_eq_true,holds j,mem_sdiff,mem_singleton_iff,
    Bool.not_eq_true',decide_eq_false_iff_not]
  exact and_congr_right' ⟨Ne.symm,Ne.symm⟩

theorem Holds.take {live : Set ι} {f g : ι → Nat} (holds : Holds map (f '' live)) (kept : ∀ q ∈ live, g q = f q) (r : ι) :
    Holds (Bitmap.mark map (g r)) (g '' insert r live) := by
  rw [image_insert_eq,image_congr kept]
  exact holds.mark (g r)

theorem Holds.give (holds : Holds map (f '' live)) (own : ∀ q ∈ live, q ≠ r → f q ≠ f r) :
    Holds (Bitmap.clear map (f r)) (f '' (live \ {r})) := by
  apply (holds.clear (f r)).same
  intro i
  constructor
  · rintro ⟨⟨q,member,rfl⟩,other⟩
    have apart : q ≠ r := fun same => other (congrArg f same)
    exact ⟨q,⟨member,apart⟩,rfl⟩
  · rintro ⟨q,⟨member,apart⟩,rfl⟩
    exact ⟨⟨q,member,rfl⟩,own q member apart⟩

theorem Holds.free (holds : Holds map owned) : map.testBit i = false ↔ i ∉ owned := by rw [← holds i,Bool.not_eq_true]
end Rtl8852au.Bitmap
