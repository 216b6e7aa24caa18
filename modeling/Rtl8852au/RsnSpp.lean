import Rtl8852au.RsnParseSound
import Rtl8852au.ParseElems

namespace Rtl8852au.Rsn
open Words Attr Memory Scan Fields BitVec Option

theorem bitLenMask16_bit (few : bitLen ≤ 16) : (bitLenMask16 bitLen).getLsbD i = decide (i < bitLen) := by
  unfold bitLenMask16
  rw [getLsbD_ushiftRight,show (0xFFFF#16) = allOnes 16 by decide,getLsbD_allOnes]
  apply decide_eq_decide.mpr
  omega

theorem setBits_outside (word value : U16) (few : bitLen ≤ 16) (small : i < 16)
    (outside : i < bitOffset ∨ bitOffset + bitLen ≤ i) :
    ((word &&& ~~~bitOffsetLenMask16 bitOffset bitLen) ||| (value &&& bitLenMask16 bitLen) <<< bitOffset).getLsbD i =
    word.getLsbD i := by
  have clear : (decide (i < bitOffset) || !decide (i - bitOffset < bitLen)) := by
    rcases outside with below | above
    · simp [below]
    · simp only [Bool.or_eq_true,Bool.not_eq_true',decide_eq_true_eq,decide_eq_false_iff_not]
      omega
  unfold bitOffsetLenMask16
  simp only [getLsbD_or,getLsbD_and,getLsbD_not,getLsbD_shiftLeft,bitLenMask16_bit few,small,decide_true,
    Bool.true_and]
  cases word.getLsbD i <;> cases value.getLsbD (i-bitOffset) <;> cases below : decide (i < bitOffset) <;>
    cases inside : decide (i - bitOffset < bitLen) <;> simp_all

theorem lo8_bit (word : U16) (b : Nat) : (lo8 word).getLsbD b = (decide (b < 8) && word.getLsbD b) := getLsbD_setWidth ..

theorem hi8_bit (word : U16) (b : Nat) : (hi8 word).getLsbD b = (decide (b < 8) && word.getLsbD (8 + b)) := by
  unfold hi8
  rw [getLsbD_setWidth,getLsbD_ushiftRight]

theorem setRsnCapSpp_bits (spp : U8) (changed : (setRsnCapSpp ie cap spp p).getLsbD b ≠ (ie p).getLsbD b) :
    p = cap+1 ∧ (b = 2 ∨ b = 3) := by
  obtain ⟨word,same,kept⟩ : ∃ word, setRsnCapSpp ie cap spp = put ie cap [lo8 word,hi8 word] ∧
      ∀ i < 16, i < 10 ∨ 12 ≤ i → word.getLsbD i = (getLe16 ie cap).getLsbD i :=
    ⟨_,rfl,fun i small outside => setBits_outside (getLe16 ie cap) (spp.setWidth 16) (by decide) small outside⟩
  have low : ie cap = lo8 (getLe16 ie cap) := (lo8_mk16 (ie (cap+1)) (ie cap)).symm
  have high : ie (cap+1) = hi8 (getLe16 ie cap) := (hi8_mk16 (ie (cap+1)) (ie cap)).symm
  rw [same] at changed
  by_cases before : p < cap
  · exact absurd (by rw [put_before ie _ before]) changed
  by_cases after : cap + 2 ≤ p
  · exact absurd (by rw [put_after ie _ (by simpa using after)]) changed
  by_cases first : p = cap
  · rw [first] at changed
    refine absurd ?_ changed
    rw [show put ie cap [lo8 word,hi8 word] cap = lo8 word from put_inside ie [lo8 word,hi8 word] cap (i := 0) (by simp),low,lo8_bit,lo8_bit]
    by_cases small : b < 8
    · rw [kept b (by omega) (by omega)]
    · simp only [small,decide_false,Bool.false_and]
  obtain rfl : p = cap + 1 := by omega
  refine ⟨rfl,?_⟩
  by_contra other
  refine changed ?_
  rw [show put ie cap [lo8 word,hi8 word] (cap+1) = hi8 word from put_inside ie [lo8 word,hi8 word] cap (i := 1) (by simp),high,
    hi8_bit,hi8_bit]
  by_cases small : b < 8
  · rw [kept (8 + b) (by omega) (by omega)]
  · simp only [small,decide_false,Bool.false_and]

theorem rtwSetSppAmsduMode_parsed (mode cap : U8) (known : sppReqCap mode = some cap)
    (ok : (rtwRsneInfoParse ie ieLen).ok) :
    rtwSetSppAmsduMode ie ieLen mode = (rtwRsneInfoParse ie ieLen).info.cap.map fun pos => setRsnCapSpp ie pos cap := by
  unfold rtwSetSppAmsduMode
  rw [known]
  dsimp only
  rw [ok,if_neg (by decide)]

def SppOnly (ie : Bytes) (ieLen : Nat) (fields : List (List U8)) (mode : U8) : Prop :=
  ∃ out, rtwSetSppAmsduMode ie ieLen mode = some out ∧
    ∀ p b, (out p).getLsbD b ≠ (ie p).getLsbD b → 3 < fields.length ∧ p = place fields 3 + 1 ∧ (b = 2 ∨ b = 3)

structure ParseFine (ie : Bytes) (ieLen : Nat) : Prop where
  inside : Inside ieLen (rtwRsneInfoParse ie ieLen).reads
  exactly : (rtwRsneInfoParse ie ieLen).ok ↔ ∃ fields, RsnElement ie ieLen fields
  describes : ∀ fields, RsnElement ie ieLen fields → Describes fields (rtwRsneInfoParse ie ieLen).info
  modes : ∀ fields, RsnElement ie ieLen fields → ∀ mode, SppOnly ie ieLen fields mode

theorem element_accept (element : RsnElement ie ieLen fields) :
    (rtwRsneInfoParse ie ieLen).ok ∧ Describes fields (rtwRsneInfoParse ie ieLen).info := by
  obtain ⟨headed,cut⟩ := element
  obtain ⟨ok,info⟩ := accept_reads headed (by decide) cut.reads
  refine ⟨ok,?_⟩
  rw [info]
  exact recorded_describes cut

theorem element_modes (element : RsnElement ie ieLen fields) : (∀ mode, SppOnly ie ieLen fields mode) ↔ 4 ≤ fields.length := by
  obtain ⟨ok,describes⟩ := element_accept element
  have cap := describes.cap
  unfold Pointed at cap
  constructor
  · intro modes
    obtain ⟨out,written,_⟩ := modes 0
    by_contra few
    rw [List.getElem?_eq_none (by omega),map_none] at cap
    rw [rtwSetSppAmsduMode_parsed 0 0xFF (by decide) ok,cap] at written
    cases written
  · intro enough mode
    cases known : sppReqCap mode with
    | none =>
      refine ⟨ie,?_,fun p b changed => absurd rfl changed⟩
      unfold rtwSetSppAmsduMode
      rw [known]
    | some value =>
      rw [List.getElem?_eq_getElem (by omega),map_some] at cap
      refine ⟨setRsnCapSpp ie (place fields 3) value,?_,?_⟩
      · rw [rtwSetSppAmsduMode_parsed mode value known ok,cap,map_some]
      · intro p b changed
        exact ⟨enough,setRsnCapSpp_bits value changed⟩

-- The bytes that the parser takes for an RSN element are one, with capabilities.
def Tidy (ie : Bytes) (ieLen : Nat) : Prop :=
  ∀ version body fields ending, lo8 version = 1 → Headed ie ieLen version body → Reads rsnFields body fields ending →
    hi8 version = 0 ∧ ending = .clean ∧ 4 ≤ fields.length

theorem rsn_parsing_exact (ie : Bytes) (ieLen : Nat) : ParseFine ie ieLen ↔ Tidy ie ieLen := by
  constructor
  · intro fine version body fields ending low headed reads
    obtain ⟨ok,_⟩ := accept_reads headed low reads
    obtain ⟨fields',element⟩ := fine.exactly.mp ok
    have enough := (element_modes element).mp (fine.modes fields' element)
    obtain ⟨headed',cut⟩ := element
    obtain ⟨rfl,rfl⟩ := headed_unique headed headed'
    obtain ⟨rfl,rfl⟩ := reads_unique reads cut.reads
    exact ⟨by decide,rfl,enough⟩
  · intro tidy
    refine ⟨parse_inside,⟨?_,?_⟩,fun fields element => (element_accept element).2,?_⟩
    · intro ok
      obtain ⟨version,body,fields,ending,low,headed,reads⟩ := reads_accept ok
      obtain ⟨high,clean,_⟩ := tidy version body fields ending low headed reads
      obtain ⟨cut,rfl⟩ := reads.cut clean
      have one : version = 1 := word_bytes (low.trans (by decide)) (high.trans (by decide))
      cases one
      exact ⟨fields,headed,cut⟩
    · rintro ⟨fields,element⟩
      exact (element_accept element).1
    · intro fields element
      apply (element_modes element).mpr
      obtain ⟨headed,cut⟩ := element
      obtain ⟨_,_,enough⟩ := tidy 1 fields.flatten fields .clean (by decide) headed cut.reads
      exact enough

def highVersion : Bytes := Ie.memory [48,2,1,1]
def bareCount : Bytes := Ie.memory [48,8,1,0,0x00,0x0F,0xAC,4,1,0]
def noCapabilities : Bytes := Ie.memory [48,2,1,0]

-- Version 0x0101 and a pairwise count without its list are accepted, and
-- absent capabilities are written through NULL.
theorem rsn_parsing_fails : ¬ ParseFine highVersion 4 ∧ ¬ ParseFine bareCount 10 ∧ ¬ ParseFine noCapabilities 4 := by
  refine ⟨?_,?_,?_⟩
  · intro fine
    obtain ⟨fields,headed,_⟩ := fine.exactly.mp (by decide)
    have other : Headed highVersion 4 0x0101 [] := ⟨2,by decide,by decide⟩
    exact absurd (headed_unique headed other).1 (by decide)
  · intro fine
    obtain ⟨fields,headed,cut⟩ := fine.exactly.mp (by decide)
    have other : Headed bareCount 10 1 [0x00,0x0F,0xAC,4,1,0] := ⟨8,by decide,by decide⟩
    have reads := cut.reads
    rw [(headed_unique headed other).2] at reads
    have bare : parse rsnFields [0x00,0x0F,0xAC,4,1,0] = some ([[0x00,0x0F,0xAC,4]],.bare) := by decide
    exact absurd (reads_unique reads (parse_sound bare)).2 (by decide)
  · intro fine
    have element : RsnElement noCapabilities 4 [] := ⟨⟨2,by decide,by decide⟩,.stop _⟩
    obtain ⟨out,written,_⟩ := fine.modes [] element 0
    have null : rtwSetSppAmsduMode noCapabilities 4 0 = none := by
      rw [rtwSetSppAmsduMode_parsed 0 0xFF (by decide) (by decide)]
      rfl
    exact absurd (null.symm.trans written) (by simp)

end Rtl8852au.Rsn
