import Rtl8852au.Mixing

namespace Rtl8852au.Checksum

variable {Sum Word : Type}

structure Sensitive (step : Sum → Word → Sum) : Prop where
  sum : ∀ word, Function.Injective (fun acc => step acc word)
  word : ∀ acc, Function.Injective (step acc)

variable {step : Sum → Word → Sum}

theorem Sensitive.foldl (sensitive : Sensitive step) (words : List Word) :
    Function.Injective (fun acc => words.foldl step acc) := Mixing.foldl_injective sensitive.sum words

theorem Sensitive.modify (sensitive : Sensitive step) (acc : Sum) {words : List Word} {k : Nat} {alter : Word → Word}
    (inside : k < words.length) (altered : alter words[k] ≠ words[k]) :
    (words.modify k alter).foldl step acc ≠ words.foldl step acc := by
  induction words generalizing acc k with
  | nil => cases inside
  | cons word rest ih =>
    cases k with
    | zero =>
      intro same
      exact altered (sensitive.word acc (sensitive.foldl rest same))
    | succ k => exact ih (step acc word) (Nat.lt_of_succ_lt_succ inside) altered

end Rtl8852au.Checksum
