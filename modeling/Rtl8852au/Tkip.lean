import Rtl8852au.Mixing
import Rtl8852au.Words
import Mathlib.Data.BitVec

namespace Rtl8852au.Tkip
open Mixing Words

def rotR1 (v16 : U16) : U16 := ((v16 >>> 1) &&& 0x7FFF) ^^^ (v16 &&& 1) <<< 15
def tk16 (tk : Vector U8 16) (n : Fin 8) : U16 := mk16 tk[2*n.val + 1] tk[2*n.val]

set_option maxRecDepth 4000 in
def sbox1First : Vector Nat 256 := #v[
  0xC6A5,0xF884,0xEE99,0xF68D,0xFF0D,0xD6BD,0xDEB1,0x9154,0x6050,0x0203,0xCEA9,0x567D,0xE719,0xB562,0x4DE6,0xEC9A,
  0x8F45,0x1F9D,0x8940,0xFA87,0xEF15,0xB2EB,0x8EC9,0xFB0B,0x41EC,0xB367,0x5FFD,0x45EA,0x23BF,0x53F7,0xE496,0x9B5B,
  0x75C2,0xE11C,0x3DAE,0x4C6A,0x6C5A,0x7E41,0xF502,0x834F,0x685C,0x51F4,0xD134,0xF908,0xE293,0xAB73,0x6253,0x2A3F,
  0x080C,0x9552,0x4665,0x9D5E,0x3028,0x37A1,0x0A0F,0x2FB5,0x0E09,0x2436,0x1B9B,0xDF3D,0xCD26,0x4E69,0x7FCD,0xEA9F,
  0x121B,0x1D9E,0x5874,0x342E,0x362D,0xDCB2,0xB4EE,0x5BFB,0xA4F6,0x764D,0xB761,0x7DCE,0x527B,0xDD3E,0x5E71,0x1397,
  0xA6F5,0xB968,0x0000,0xC12C,0x4060,0xE31F,0x79C8,0xB6ED,0xD4BE,0x8D46,0x67D9,0x724B,0x94DE,0x98D4,0xB0E8,0x854A,
  0xBB6B,0xC52A,0x4FE5,0xED16,0x86C5,0x9AD7,0x6655,0x1194,0x8ACF,0xE910,0x0406,0xFE81,0xA0F0,0x7844,0x25BA,0x4BE3,
  0xA2F3,0x5DFE,0x80C0,0x058A,0x3FAD,0x21BC,0x7048,0xF104,0x63DF,0x77C1,0xAF75,0x4263,0x2030,0xE51A,0xFD0E,0xBF6D,
  0x814C,0x1814,0x2635,0xC32F,0xBEE1,0x35A2,0x88CC,0x2E39,0x9357,0x55F2,0xFC82,0x7A47,0xC8AC,0xBAE7,0x322B,0xE695,
  0xC0A0,0x1998,0x9ED1,0xA37F,0x4466,0x547E,0x3BAB,0x0B83,0x8CCA,0xC729,0x6BD3,0x283C,0xA779,0xBCE2,0x161D,0xAD76,
  0xDB3B,0x6456,0x744E,0x141E,0x92DB,0x0C0A,0x486C,0xB8E4,0x9F5D,0xBD6E,0x43EF,0xC4A6,0x39A8,0x31A4,0xD337,0xF28B,
  0xD532,0x8B43,0x6E59,0xDAB7,0x018C,0xB164,0x9CD2,0x49E0,0xD8B4,0xACFA,0xF307,0xCF25,0xCAAF,0xF48E,0x47E9,0x1018,
  0x6FD5,0xF088,0x4A6F,0x5C72,0x3824,0x57F1,0x73C7,0x9751,0xCB23,0xA17C,0xE89C,0x3E21,0x96DD,0x61DC,0x0D86,0x0F85,
  0xE090,0x7C42,0x71C4,0xCCAA,0x90D8,0x0605,0xF701,0x1C12,0xC2A3,0x6A5F,0xAEF9,0x69D0,0x1791,0x9958,0x3A27,0x27B9,
  0xD938,0xEB13,0x2BB3,0x2233,0xD2BB,0xA970,0x0789,0x33A7,0x2DB6,0x3C22,0x1592,0xC920,0x8749,0xAAFF,0x5078,0xA57A,
  0x038F,0x59F8,0x0980,0x1A17,0x65DA,0xD731,0x84C6,0xD0B8,0x82C3,0x29B0,0x5A77,0x1E11,0x7BCB,0xA8FC,0x6DD6,0x2C3A]

set_option maxRecDepth 4000 in
def sbox1Second : Vector Nat 256 := #v[
  0xA5C6,0x84F8,0x99EE,0x8DF6,0x0DFF,0xBDD6,0xB1DE,0x5491,0x5060,0x0302,0xA9CE,0x7D56,0x19E7,0x62B5,0xE64D,0x9AEC,
  0x458F,0x9D1F,0x4089,0x87FA,0x15EF,0xEBB2,0xC98E,0x0BFB,0xEC41,0x67B3,0xFD5F,0xEA45,0xBF23,0xF753,0x96E4,0x5B9B,
  0xC275,0x1CE1,0xAE3D,0x6A4C,0x5A6C,0x417E,0x02F5,0x4F83,0x5C68,0xF451,0x34D1,0x08F9,0x93E2,0x73AB,0x5362,0x3F2A,
  0x0C08,0x5295,0x6546,0x5E9D,0x2830,0xA137,0x0F0A,0xB52F,0x090E,0x3624,0x9B1B,0x3DDF,0x26CD,0x694E,0xCD7F,0x9FEA,
  0x1B12,0x9E1D,0x7458,0x2E34,0x2D36,0xB2DC,0xEEB4,0xFB5B,0xF6A4,0x4D76,0x61B7,0xCE7D,0x7B52,0x3EDD,0x715E,0x9713,
  0xF5A6,0x68B9,0x0000,0x2CC1,0x6040,0x1FE3,0xC879,0xEDB6,0xBED4,0x468D,0xD967,0x4B72,0xDE94,0xD498,0xE8B0,0x4A85,
  0x6BBB,0x2AC5,0xE54F,0x16ED,0xC586,0xD79A,0x5566,0x9411,0xCF8A,0x10E9,0x0604,0x81FE,0xF0A0,0x4478,0xBA25,0xE34B,
  0xF3A2,0xFE5D,0xC080,0x8A05,0xAD3F,0xBC21,0x4870,0x04F1,0xDF63,0xC177,0x75AF,0x6342,0x3020,0x1AE5,0x0EFD,0x6DBF,
  0x4C81,0x1418,0x3526,0x2FC3,0xE1BE,0xA235,0xCC88,0x392E,0x5793,0xF255,0x82FC,0x477A,0xACC8,0xE7BA,0x2B32,0x95E6,
  0xA0C0,0x9819,0xD19E,0x7FA3,0x6644,0x7E54,0xAB3B,0x830B,0xCA8C,0x29C7,0xD36B,0x3C28,0x79A7,0xE2BC,0x1D16,0x76AD,
  0x3BDB,0x5664,0x4E74,0x1E14,0xDB92,0x0A0C,0x6C48,0xE4B8,0x5D9F,0x6EBD,0xEF43,0xA6C4,0xA839,0xA431,0x37D3,0x8BF2,
  0x32D5,0x438B,0x596E,0xB7DA,0x8C01,0x64B1,0xD29C,0xE049,0xB4D8,0xFAAC,0x07F3,0x25CF,0xAFCA,0x8EF4,0xE947,0x1810,
  0xD56F,0x88F0,0x6F4A,0x725C,0x2438,0xF157,0xC773,0x5197,0x23CB,0x7CA1,0x9CE8,0x213E,0xDD96,0xDC61,0x860D,0x850F,
  0x90E0,0x427C,0xC471,0xAACC,0xD890,0x0506,0x01F7,0x121C,0xA3C2,0x5F6A,0xF9AE,0xD069,0x9117,0x5899,0x273A,0xB927,
  0x38D9,0x13EB,0xB32B,0x3322,0xBBD2,0x70A9,0x8907,0xA733,0xB62D,0x223C,0x9215,0x20C9,0x4987,0xFFAA,0x7850,0x7AA5,
  0x8F03,0xF859,0x8009,0x171A,0xDA65,0x31D7,0xC684,0xB8D0,0xC382,0xB029,0x775A,0x111E,0xCB7B,0xFCA8,0xD66D,0x3A2C]

def sBox (v16 : U16) : U16 :=
  BitVec.ofNat 16 (sbox1First.get (lo8 v16).toFin) ^^^ BitVec.ofNat 16 (sbox1Second.get (hi8 v16).toFin)

example : sbox1Second.toList = sbox1First.toList.map fun v => v/256 + v%256*256 := by decide +kernel

abbrev P1k := Vector U16 5
abbrev Ppk := Vector U16 6

def phase1Start (ta : Vector U8 6) (iv32 : U32) : P1k :=
  #v[lo16 iv32,hi16 iv32,mk16 ta[1] ta[0],mk16 ta[3] ta[2],mk16 ta[5] ta[4]]

section
variable (tk : Vector U8 16)

def phase1Round (p1k : P1k) (i : Fin 8) : P1k :=
  let p1k := addTo p1k 0 (sBox (p1k[4] ^^^ tk16 tk ((i &&& 1) + 0)))
  let p1k := addTo p1k 1 (sBox (p1k[0] ^^^ tk16 tk ((i &&& 1) + 2)))
  let p1k := addTo p1k 2 (sBox (p1k[1] ^^^ tk16 tk ((i &&& 1) + 4)))
  let p1k := addTo p1k 3 (sBox (p1k[2] ^^^ tk16 tk ((i &&& 1) + 6)))
  let p1k := addTo p1k 4 (sBox (p1k[3] ^^^ tk16 tk ((i &&& 1) + 0)))
  addTo p1k 4 (BitVec.ofNat 16 i)

def phase1 (ta : Vector U8 6) (iv32 : U32) : P1k := (List.finRange 8).foldl (phase1Round tk) (phase1Start ta iv32)

def phase2Start (p1k : P1k) (iv16 : U16) : Ppk := #v[p1k[0],p1k[1],p1k[2],p1k[3],p1k[4],p1k[4] + iv16]

def phase2Mix (ppk : Ppk) : Ppk :=
  let ppk := addTo ppk 0 (sBox (ppk[5] ^^^ tk16 tk 0))
  let ppk := addTo ppk 1 (sBox (ppk[0] ^^^ tk16 tk 1))
  let ppk := addTo ppk 2 (sBox (ppk[1] ^^^ tk16 tk 2))
  let ppk := addTo ppk 3 (sBox (ppk[2] ^^^ tk16 tk 3))
  let ppk := addTo ppk 4 (sBox (ppk[3] ^^^ tk16 tk 4))
  addTo ppk 5 (sBox (ppk[4] ^^^ tk16 tk 5))

def phase2Sweep (ppk : Ppk) : Ppk :=
  let ppk := addTo ppk 0 (rotR1 (ppk[5] ^^^ tk16 tk 6))
  let ppk := addTo ppk 1 (rotR1 (ppk[0] ^^^ tk16 tk 7))
  let ppk := addTo ppk 2 (rotR1 ppk[1])
  let ppk := addTo ppk 3 (rotR1 ppk[2])
  let ppk := addTo ppk 4 (rotR1 ppk[3])
  addTo ppk 5 (rotR1 ppk[4])

def rc4Key (iv16 : U16) (ppk : Ppk) : List U8 :=
  [hi8 iv16,(hi8 iv16 ||| 0x20) &&& 0x7F,lo8 iv16,lo8 ((ppk[5] ^^^ tk16 tk 0) >>> 1)] ++
    ppk.toList.flatMap (fun word => [lo8 word,hi8 word])

def phase2 (p1k : P1k) (iv16 : U16) : List U8 := rc4Key tk iv16 (phase2Sweep tk (phase2Mix tk (phase2Start p1k iv16)))
end

theorem phase1Start_injective (same : phase1Start ta iv32 = phase1Start ta' iv32') : ta = ta' ∧ iv32 = iv32' := by
  have word : ∀ i : Fin 5, (phase1Start ta iv32)[i] = (phase1Start ta' iv32')[i] := fun i => by rw [same]
  obtain ⟨one,zero⟩ := mk16_injective (word 2)
  obtain ⟨three,two⟩ := mk16_injective (word 3)
  obtain ⟨five,four⟩ := mk16_injective (word 4)
  refine ⟨?_,word_halves (word 0) (word 1)⟩
  apply Vector.ext
  intro i inside
  match i,inside with
  | 0,_ => exact zero
  | 1,_ => exact one
  | 2,_ => exact two
  | 3,_ => exact three
  | 4,_ => exact four
  | 5,_ => exact five

section
variable (tk : Vector U8 16)

theorem phase1Round_injective (i : Fin 8) : Function.Injective (fun p1k => phase1Round tk p1k i) := by
  have first := addTo_injective (.word (i := (0 : Fin 5)) (j := 4) (by decide) fun w => sBox (w ^^^ tk16 tk ((i &&& 1) + 0)))
  have second := addTo_injective (.word (i := (1 : Fin 5)) (j := 0) (by decide) fun w => sBox (w ^^^ tk16 tk ((i &&& 1) + 2)))
  have third := addTo_injective (.word (i := (2 : Fin 5)) (j := 1) (by decide) fun w => sBox (w ^^^ tk16 tk ((i &&& 1) + 4)))
  have fourth := addTo_injective (.word (i := (3 : Fin 5)) (j := 2) (by decide) fun w => sBox (w ^^^ tk16 tk ((i &&& 1) + 6)))
  have fifth := addTo_injective (.word (i := (4 : Fin 5)) (j := 3) (by decide) fun w => sBox (w ^^^ tk16 tk ((i &&& 1) + 0)))
  have slide := addTo_injective (.fixed (4 : Fin 5) (BitVec.ofNat 16 i))
  exact ((((slide.comp fifth).comp fourth).comp third).comp second).comp first

theorem phase1_injective (same : phase1 tk ta iv32 = phase1 tk ta' iv32') : ta = ta' ∧ iv32 = iv32' := by
  have started := foldl_injective (phase1Round_injective tk) (List.finRange 8) same
  exact phase1Start_injective started

theorem phase2Start_injective (same : phase2Start p1k iv16 = phase2Start p1k' iv16') : p1k = p1k' ∧ iv16 = iv16' := by
  have word : ∀ i : Fin 6, (phase2Start p1k iv16)[i] = (phase2Start p1k' iv16')[i] := fun i => by rw [same]
  have last : p1k[4] + iv16 = p1k'[4] + iv16' := word 5
  have fourth : p1k[4] = p1k'[4] := word 4
  constructor
  · apply Vector.ext
    intro i inside
    match i,inside with
    | 0,_ => exact word 0
    | 1,_ => exact word 1
    | 2,_ => exact word 2
    | 3,_ => exact word 3
    | 4,_ => exact fourth
  · rw [fourth] at last
    exact add_left_cancel last

theorem around_injective (amount : Fin 6 → U16 → U16) : Function.Injective (fun ppk : Ppk =>
    let ppk := addTo ppk 0 (amount 0 ppk[5])
    let ppk := addTo ppk 1 (amount 1 ppk[0])
    let ppk := addTo ppk 2 (amount 2 ppk[1])
    let ppk := addTo ppk 3 (amount 3 ppk[2])
    let ppk := addTo ppk 4 (amount 4 ppk[3])
    addTo ppk 5 (amount 5 ppk[4])) := by
  have one (i j : Fin 6) (apart : j ≠ i) := addTo_injective (.word apart (amount i))
  have first := one 0 5 (by decide)
  have second := one 1 0 (by decide)
  have third := one 2 1 (by decide)
  have fourth := one 3 2 (by decide)
  have fifth := one 4 3 (by decide)
  have sixth := one 5 4 (by decide)
  exact ((((sixth.comp fifth).comp fourth).comp third).comp second).comp first

theorem phase2Mix_injective : Function.Injective (phase2Mix tk) :=
  around_injective fun i w => sBox (w ^^^ tk16 tk (i.castLE (by decide)))

theorem phase2Sweep_injective : Function.Injective (phase2Sweep tk) :=
  around_injective fun i w => rotR1 (if i = 0 then w ^^^ tk16 tk 6 else if i = 1 then w ^^^ tk16 tk 7 else w)

theorem bytes_injective : ∀ {one two : List U16},
    one.flatMap (fun word => [lo8 word,hi8 word]) = two.flatMap (fun word => [lo8 word,hi8 word]) → one = two
  | [],[],_ => rfl
  | first :: one,second :: two,same => by
    simp only [List.flatMap_cons,List.cons_append,List.nil_append,List.cons.injEq] at same
    obtain ⟨low,high,rest⟩ := same
    rw [word_bytes low high,bytes_injective rest]
  | [],_ :: _,same => by cases same
  | _ :: _,[],same => by cases same

theorem rc4Key_injective (same : rc4Key tk iv16 ppk = rc4Key tk iv16' ppk') : ppk = ppk' := by
  have copied := List.append_inj_right same rfl
  exact Vector.toList_inj.mp (bytes_injective copied)

theorem phase2_injective (same : phase2 tk p1k iv16 = phase2 tk p1k' iv16') : p1k = p1k' ∧ iv16 = iv16' := by
  have swept := rc4Key_injective tk same
  have mixed := phase2Sweep_injective tk swept
  have started := phase2Mix_injective tk mixed
  exact phase2Start_injective started
end

-- No two packets under one temporal key get the same RC4 key.
theorem rc4_key_unique (tk : Vector U8 16) :
    Function.Injective fun packet : Vector U8 6 × U32 × U16 =>
      phase2 tk (phase1 tk packet.1 packet.2.1) packet.2.2 := by
  intro one two same
  obtain ⟨keys,iv16⟩ := phase2_injective tk same
  obtain ⟨ta,iv32⟩ := phase1_injective tk keys
  exact Prod.ext ta (Prod.ext iv32 iv16)

end Rtl8852au.Tkip
