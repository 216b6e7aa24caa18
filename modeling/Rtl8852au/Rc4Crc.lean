import Rtl8852au.Bitmap
import Rtl8852au.Checksum
import Rtl8852au.StreamCipher
import Rtl8852au.Words
import Mathlib.Data.Fintype.EquivFin

namespace Rtl8852au.Rc4Crc
open Words BitVec

structure Arc4context where
  x : U8
  y : U8
  state : Vector U8 256
  deriving DecidableEq,Repr

def swap (state : Vector U8 256) (i j : U8) : Vector U8 256 :=
  (state.set j.toNat (state.get i.toFin)).set i.toNat (state.get j.toFin)

def arcfourRound (key : List U8) (keyLen : Nat) (acc : Vector U8 256 × Nat × U8) (counter : Fin 256) :
    Vector U8 256 × Nat × U8 :=
  let (state,keyindex,stateindex) := acc
  let stateindex := stateindex + key.getD keyindex 0 + state.get counter
  (swap state (BitVec.ofFin counter) stateindex,if keyindex + 1 ≥ keyLen then 0 else keyindex + 1,stateindex)

def arcfourInit (key : List U8) (keyLen : Nat) : Arc4context :=
  let (state,_,_) := (List.finRange 256).foldl (arcfourRound key keyLen) (Vector.ofFn fun i => BitVec.ofFin i,0,0)
  {x:=0,y:=0,state}

def arcfourByte (ctx : Arc4context) : U8 × Arc4context :=
  let x := ctx.x+1
  let sx := ctx.state.get x.toFin
  let y := sx + ctx.y
  let sy := ctx.state.get y.toFin
  let state := swap ctx.state x y
  (state.get (sx+sy).toFin,{x,y,state})

def arcfourEncrypt (ctx : Arc4context) (src : List U8) : List U8 × Arc4context := StreamCipher.crypt arcfourByte ctx src
def crc32Poly : U32 := 0x04c11db7

def crc32ReverseBit (data : U8) : U8 :=
  ((data <<< 7) &&& 0x80) ||| ((data <<< 5) &&& 0x40) ||| ((data <<< 3) &&& 0x20) ||| ((data <<< 1) &&& 0x10) |||
  ((data >>> 1) &&& 0x08) ||| ((data >>> 3) &&& 0x04) ||| ((data >>> 5) &&& 0x02) ||| ((data >>> 7) &&& 0x01)

def crc32Shift (c : U32) : U32 := if c &&& 0x80000000 ≠ 0 then (c <<< 1) ^^^ crc32Poly else c <<< 1

def crc32Entry (i : U8) : U32 :=
  let c := (List.range 8).foldl (fun c _ => crc32Shift c) ((crc32ReverseBit i).setWidth 32 <<< 24)
  crc32ReverseBit (c.setWidth 8) ++ crc32ReverseBit ((c >>> 8).setWidth 8) ++
    crc32ReverseBit ((c >>> 16).setWidth 8) ++ crc32ReverseBit ((c >>> 24).setWidth 8)

def crc32Table : Vector U32 256 := Vector.ofFn fun i => crc32Entry (BitVec.ofFin i)

section
variable (crc : U32) (byte : U8)

def crc32Step : U32 := crc32Table.get ((crc ^^^ byte.setWidth 32).setWidth 8).toFin ^^^ (crc >>> 8)

def getcrc32 (buf : List U8) : U32 := ~~~buf.foldl crc32Step 0xffffffff
def crc32Top (i : Fin 256) : Fin 256 := ((crc32Entry (BitVec.ofFin i) >>> 24).setWidth 8).toFin

theorem crc32Top_marks :
    (List.finRange 256).foldl (fun map i => Bitmap.mark map (crc32Top i).val) 0 = 2^256 - 1 := by decide +kernel

theorem crc32Top_injective : Function.Injective crc32Top := by
  apply Finite.injective_iff_surjective.mpr
  intro j
  have set : (2^256 - 1).testBit j.val := by
    rw [Nat.testBit_two_pow_sub_one]
    exact decide_eq_true j.isLt
  rw [← crc32Top_marks,Bitmap.testBit_marks] at set
  obtain low | ⟨i,_,same⟩ := set
  · simp at low
  · exact ⟨i,Fin.ext same⟩

def crc32Index : Fin 256 := ((crc ^^^ byte.setWidth 32).setWidth 8).toFin

theorem crc32Index_byte : BitVec.ofFin (crc32Index crc byte) = crc.setWidth 8 ^^^ byte := by
  show (crc ^^^ byte.setWidth 32).setWidth 8 = _
  rw [setWidth_xor,setWidth_setWidth_of_le byte (by decide),setWidth_eq]

theorem crc32Table_get (i : Fin 256) : crc32Table.get i = crc32Entry (BitVec.ofFin i) := by
  show crc32Table[i.val] = _
  simp [crc32Table]

theorem crc32Step_index :
    crc32Step crc byte = crc32Entry (BitVec.ofFin (crc32Index crc byte)) ^^^ (crc >>> 8) := by
  rw [← crc32Table_get]
  rfl

theorem crc32Step_top :
    ((crc32Step crc byte >>> 24).setWidth 8).toFin = crc32Top (crc32Index crc byte) := by
  have gone : (crc >>> 8) >>> 24 = 0#32 := by
    rw [← shiftRight_add]
    exact ushiftRight_eq_zero (Nat.le_refl 32)
  rw [crc32Step_index,ushiftRight_xor_distrib,gone,xor_zero]
  rfl
end

theorem crc32Step_same (same : crc32Step crc byte = crc32Step crc' byte') :
    crc.setWidth 8 ^^^ byte = crc'.setWidth 8 ^^^ byte' ∧ crc >>> 8 = crc' >>> 8 := by
  have top := congrArg (fun crc => ((crc >>> 24).setWidth 8).toFin) same
  simp only [crc32Step_top] at top
  have index := crc32Top_injective top
  constructor
  · rw [← crc32Index_byte,← crc32Index_byte,index]
  · rw [crc32Step_index,crc32Step_index,index] at same
    exact (xor_right_inj _).mp same

theorem crc32Step_sensitive : Checksum.Sensitive crc32Step where
  sum := by
    intro byte crc crc' same
    obtain ⟨low,high⟩ := crc32Step_same same
    have lows := congrArg BitVec.toNat ((BitVec.xor_left_inj byte).mp low)
    have highs := congrArg BitVec.toNat high
    simp only [toNat_setWidth,toNat_ushiftRight] at lows highs
    apply eq_of_toNat_eq
    omega
  word := by
    intro crc byte byte' same
    exact (xor_right_inj _).mp (crc32Step_same same).1

theorem getcrc32_modify (inside : k < buf.length)
    (altered : alter buf[k] ≠ buf[k]) : getcrc32 (buf.modify k alter) ≠ getcrc32 buf := by
  intro same
  exact crc32Step_sensitive.modify 0xffffffff inside altered (BitVec.not_inj.mp same)

end Rtl8852au.Rc4Crc
