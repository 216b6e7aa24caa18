import Mathlib.Algebra.Group.Defs

namespace Rtl8852au.Mixing

variable {W A : Type} {n : Nat}

def addTo [Add W] (block : Vector W n) (i : Fin n) (amount : W) : Vector W n := block.set i (block[i] + amount)

theorem addTo_same [Add W] (block : Vector W n) (i : Fin n) (amount : W) :
    (addTo block i amount)[i] = block[i] + amount := by
  simp [addTo]

theorem addTo_other [Add W] (block : Vector W n) {i j : Fin n} (apart : j ≠ i) (amount : W) :
    (addTo block i amount)[j] = block[j] := by
  have differ : i.val ≠ j.val := fun same => apart (Fin.ext same.symm)
  simp [addTo,differ]

def Blind (i : Fin n) (amount : Vector W n → W) : Prop :=
  ∀ one two : Vector W n, (∀ j : Fin n, j ≠ i → one[j] = two[j]) → amount one = amount two

theorem addTo_injective [Add W] [IsRightCancelAdd W] {i : Fin n} {amount : Vector W n → W} (blind : Blind i amount) :
    Function.Injective (fun block => addTo block i (amount block)) := by
  intro one two mixed
  have mixed : addTo one i (amount one) = addTo two i (amount two) := mixed
  have others : ∀ j : Fin n, j ≠ i → one[j] = two[j] := by
    intro j apart
    rw [← addTo_other one apart (amount one),mixed,addTo_other two apart]
  have amounts : amount one = amount two := blind one two others
  have moved : one[i] + amount one = two[i] + amount one := by rw [← addTo_same,mixed,addTo_same,amounts]
  have here : one[i] = two[i] := add_right_cancel moved
  apply Vector.ext
  intro j inside
  by_cases same : (⟨j,inside⟩ : Fin n) = i
  · subst same
    exact here
  · exact others ⟨j,inside⟩ same

theorem Blind.word {i j : Fin n} (apart : j ≠ i) (amount : W → W) :
    Blind i (fun block : Vector W n => amount block[j]) :=
  fun _ _ others => congrArg amount (others j apart)

theorem Blind.fixed (i : Fin n) (amount : W) : Blind i (fun _ : Vector W n => amount) := fun _ _ _ => rfl

theorem foldl_injective {block : Type} {round : block → A → block}
    (each : ∀ a, Function.Injective (fun b => round b a)) (rounds : List A) :
    Function.Injective (fun b => rounds.foldl round b) := by
  induction rounds with
  | nil => exact fun _ _ same => same
  | cons a rounds ih =>
    intro one two same
    exact each a (ih same)

end Rtl8852au.Mixing
