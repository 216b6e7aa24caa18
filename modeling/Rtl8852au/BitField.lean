import Mathlib.Data.BitVec

namespace Rtl8852au.BitField
open BitVec

structure Field (w : Nat) where
  msk : BitVec w
  sh : Nat

variable {w : Nat}

def setWord (value : BitVec w) (f : Field w) : BitVec w := (value &&& f.msk) <<< f.sh
def getField (word : BitVec w) (f : Field w) : BitVec w := (word >>> f.sh) &&& f.msk

-- The mask is not shifted out of the word, and two fields have no bit in common.
def Field.Fits (f : Field w) : Prop := (f.msk <<< f.sh) >>> f.sh = f.msk
def Field.Apart (f g : Field w) : Prop := (f.msk <<< f.sh) &&& (g.msk <<< g.sh) = 0#w

instance (f : Field w) : Decidable f.Fits := inferInstanceAs (Decidable (_ = _))
instance (f g : Field w) : Decidable (f.Apart g) := inferInstanceAs (Decidable (_ = _))

theorem getField_or (a b : BitVec w) (f : Field w) : getField (a ||| b) f = getField a f ||| getField b f := by
  unfold getField
  ext i bound
  simp [Bool.and_or_distrib_right]

theorem Field.Fits.bit {f : Field w} (fits : f.Fits) {i : Nat} (set : f.msk.getLsbD i) : i + f.sh < w := by
  have same := congrArg (fun word => word.getLsbD i) fits
  simp only [getLsbD_ushiftRight,getLsbD_shiftLeft,set] at same
  simp only [Bool.and_eq_true,decide_eq_true_eq] at same
  omega

theorem getField_setWord (value : BitVec w) {f : Field w} (fits : f.Fits) : getField (setWord value f) f = value &&& f.msk := by
  unfold getField setWord
  apply eq_of_getLsbD_eq
  intro i bound
  cases set : f.msk.getLsbD i with
  | false => simp [set]
  | true =>
    have inside := fits.bit set
    have later : ¬ i + f.sh < f.sh := by omega
    rw [getLsbD_and,getLsbD_ushiftRight,getLsbD_shiftLeft,getLsbD_and,getLsbD_and,
      Nat.add_comm f.sh i,Nat.add_sub_cancel,set]
    simp only [inside,later,decide_true,decide_false,Bool.not_false,Bool.and_true,Bool.true_and]

theorem getField_apart (value : BitVec w) {f g : Field w} (fits : f.Fits) (apart : f.Apart g) :
    getField (setWord value g) f = 0#w := by
  unfold getField setWord
  apply eq_of_getLsbD_eq
  intro i bound
  cases set : f.msk.getLsbD i with
  | false => simp [set]
  | true =>
    have inside := fits.bit set
    have none_shared := congrArg (fun word => word.getLsbD (f.sh+i)) apart
    simp [set,Nat.add_comm f.sh i,inside] at none_shared ⊢
    intro late _
    exact none_shared late
end Rtl8852au.BitField
