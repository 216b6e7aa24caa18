import Mathlib.Algebra.GroupWithZero.Nat

namespace Rtl8852au.Words
open BitVec

abbrev U8 := BitVec 8
abbrev U16 := BitVec 16
abbrev U32 := BitVec 32

-- By name, so that a numeral of a finite type is one term wherever it stands.
instance neZero_one : NeZero 1 := Nat.instNeZeroSucc
instance neZero_two : NeZero 2 := Nat.instNeZeroSucc
instance neZero_four : NeZero 4 := Nat.instNeZeroSucc
instance neZero_five : NeZero 5 := Nat.instNeZeroSucc
instance neZero_six : NeZero 6 := Nat.instNeZeroSucc
instance neZero_eight : NeZero 8 := Nat.instNeZeroSucc
instance neZero_sequence : NeZero 4096 := Nat.instNeZeroSucc

def lo8 (v16 : U16) : U8 := v16.setWidth 8
def hi8 (v16 : U16) : U8 := (v16 >>> 8).setWidth 8
def lo16 (v32 : U32) : U16 := v32.setWidth 16
def hi16 (v32 : U32) : U16 := (v32 >>> 16).setWidth 16
def mk16 (hi lo : U8) : U16 := lo.setWidth 16 ^^^ hi.setWidth 16 <<< 8
def leBytes (c : U32) : List U8 := [c.setWidth 8,(c >>> 8).setWidth 8,(c >>> 16).setWidth 8,(c >>> 24).setWidth 8]

-- Words read from memory at a byte position, the lowest byte first.
def hword (mem : Nat → U8) (pos : Nat) : U16 := mem (pos+1) ++ mem pos
def dword (mem : Nat → U8) (pos : Nat) : U32 := mem (pos+3) ++ mem (pos+2) ++ mem (pos+1) ++ mem pos
@[simp] theorem leBytes_length (c : U32) : (leBytes c).length = 4 := rfl

theorem word_bytes (low : lo8 one = lo8 two) (high : hi8 one = hi8 two) : one = two := by
  have lows := congrArg BitVec.toNat low
  have highs := congrArg BitVec.toNat high
  simp only [lo8,hi8,toNat_setWidth,toNat_ushiftRight] at lows highs
  apply eq_of_toNat_eq
  omega

@[simp] theorem lo8_mk16 (hi lo : U8) : lo8 (mk16 hi lo) = lo := by
  apply eq_of_getLsbD_eq
  intro i inside
  simp [lo8,mk16,inside]

@[simp] theorem hi8_mk16 (hi lo : U8) : hi8 (mk16 hi lo) = hi := by
  apply eq_of_getLsbD_eq
  intro i inside
  have within : 8 + i < 16 := by omega
  simp [hi8,mk16,inside,within]

theorem mk16_injective (same : mk16 hi lo = mk16 hi' lo') : hi = hi' ∧ lo = lo' := by
  have high := congrArg hi8 same
  have low := congrArg lo8 same
  simp only [hi8_mk16,lo8_mk16] at high low
  exact ⟨high,low⟩

theorem word_halves (low : lo16 one = lo16 two) (high : hi16 one = hi16 two) : one = two := by
  have lows := congrArg BitVec.toNat low
  have highs := congrArg BitVec.toNat high
  simp only [lo16,hi16,toNat_setWidth,toNat_ushiftRight] at lows highs
  apply eq_of_toNat_eq
  omega

theorem leBytes_injective : Function.Injective leBytes := by
  intro one two same
  simp only [leBytes,List.cons.injEq] at same
  obtain ⟨zero,first,second,third,_⟩ := same
  have zero := congrArg BitVec.toNat zero
  have first := congrArg BitVec.toNat first
  have second := congrArg BitVec.toNat second
  have third := congrArg BitVec.toNat third
  simp only [BitVec.toNat_setWidth,BitVec.toNat_ushiftRight] at zero first second third
  apply BitVec.eq_of_toNat_eq
  omega

end Rtl8852au.Words
