import Mathlib.Data.List.ReduceOption
import Rtl8852au.Words

namespace Rtl8852au.PhyRpt
open Words List BitVec

def macAxPpduMaxUsr : Nat := 4
def macAxRxCntSize : Nat := 96
def macAxMacInfoUseSize : Nat := 4
def macAxMacInfoSize : Nat := 8
def macAxDfsHdrSize : Nat := 8
def macAxDfsRptSizeSh : Nat := 3

inductive MacRet where
  | success
  | parseErr
  deriving DecidableEq

structure PpduUsr where
  vld : Bool
  hasData : Bool
  hasCtrl : Bool
  hasMgnt : Bool
  hasBcn : Bool
  macid : U8

structure PpduRpt where
  rxCntPtr : Option Nat := none
  plcpPtr : Option Nat := none
  phyStPtr : Option Nat := none
  phyStSize : U32 := 0
  rxCntSize : Nat := 0
  lsigLen : U16 := 0
  service : U16 := 0
  usrNum : Nat := 0
  fwDef : U8 := 0
  isToSelf : Bool := false
  plcpSize : Nat := 0
  usr : List PpduUsr := []

abbrev Span := Nat × Nat

structure Parsed (ρ : Type) where
  ret : MacRet
  rpt : ρ
  reads : List Span

def parseUsr (val : U32) : PpduUsr where
  vld := val.getLsbD 0
  hasData := val.getLsbD 1
  hasCtrl := val.getLsbD 2
  hasMgnt := val.getLsbD 3
  hasBcn := val.getLsbD 4
  macid := val.extractLsb' 8 8

def parseUsrs (mem : Nat → U8) : Nat → Nat → List PpduUsr × List Span
  | 0,_ => ([],[])
  | n+1,ptr =>
    let rest := parseUsrs mem n (ptr+macAxMacInfoUseSize)
    (parseUsr (dword mem ptr) :: rest.1,(ptr,4) :: rest.2)

section
variable (mem : Nat → U8) (buf : Nat)

def infoUsrNum : Nat := ((dword mem buf).extractLsb' 0 4).toNat
def infoRxCntSize : Nat := if (dword mem buf).getLsbD 29 then macAxRxCntSize else 0
def infoPlcpSize : Nat := ((dword mem (buf+4)).extractLsb' 16 8).toNat * 8 % 256

def usrSize (usrNum : Nat) : Nat := macAxMacInfoUseSize*usrNum + if usrNum % 2 = 1 then macAxMacInfoUseSize else 0

def parseMacInfo (len : U32) : Parsed PpduRpt :=
  let usrNum := infoUsrNum mem buf
  if usrNum > macAxPpduMaxUsr then ⟨.parseErr,{usrNum},[(buf,4)]⟩
  else
    let dword0 := dword mem buf
    let dword1 := dword mem (buf+4)
    let rxCntSize := infoRxCntSize mem buf
    let plcpSize := infoPlcpSize mem buf
    let users := parseUsrs mem usrNum (buf+macAxMacInfoSize)
    let rxCntPos := buf + macAxMacInfoSize + usrSize usrNum
    let accuSize := macAxMacInfoSize + usrSize usrNum + rxCntSize + plcpSize
    ⟨.success,
      {rxCntPtr := if rxCntSize ≠ 0 then some rxCntPos else none
       plcpPtr := if plcpSize ≠ 0 then some (rxCntPos+rxCntSize) else none
       phyStPtr := if len.toNat > accuSize then some (rxCntPos + rxCntSize + plcpSize) else none
       phyStSize := if len.toNat > accuSize then len - BitVec.ofNat 32 accuSize else 0
       rxCntSize,plcpSize,usrNum
       lsigLen := (dword0.extractLsb' 16 12).setWidth 16
       service := dword1.extractLsb' 0 16
       fwDef := dword0.extractLsb' 8 8
       isToSelf := dword0.getLsbD 28
       usr := users.1},
      [(buf,4),(buf+4,4)] ++ users.2⟩

def macParsePpdu (ppduLen : U32) (macInfo : Bool) : Parsed PpduRpt :=
  if macInfo then parseMacInfo mem buf ppduLen else ⟨.success,{phyStPtr:=some buf,phyStSize:=ppduLen},[]⟩

structure DfsRpt where
  dfsPtr : Nat
  dropNum : U16
  maxContDrop : U16
  totalDrop : U16
  dfsNum : U16

def macParseDfs (dfsLen : U32) : Parsed DfsRpt :=
  let len := dfsLen - BitVec.ofNat 32 macAxDfsHdrSize
  ⟨if len.toNat % 2 ^ macAxDfsRptSizeSh ≠ 0 then .parseErr else .success,
    {dfsPtr := buf + macAxDfsHdrSize
     dropNum := (dword mem buf).extractLsb' 0 16
     maxContDrop := ((dword mem buf).extractLsb' 16 8).setWidth 16
     totalDrop := ((dword mem (buf+4)).extractLsb' 24 8).setWidth 16
     dfsNum := (len >>> macAxDfsRptSizeSh).setWidth 16},
    [(buf,4),(buf+4,4)]⟩
end

def PpduRpt.regions (rpt : PpduRpt) : List Span :=
  [rpt.rxCntPtr.map (·,rpt.rxCntSize),rpt.plcpPtr.map (·,rpt.plcpSize),rpt.phyStPtr.map (·,rpt.phyStSize.toNat)].reduceOption

def DfsRpt.regions (rpt : DfsRpt) : List Span := [(rpt.dfsPtr,rpt.dfsNum.toNat*2 ^ macAxDfsRptSizeSh)]
def Within (buf len : Nat) (span : Span) : Prop := buf ≤ span.1 ∧ span.1 + span.2 ≤ buf + len

structure Inside (regions : ρ → List Span) (buf len : Nat) (parsed : Parsed ρ) : Prop where
  reads : ∀ span ∈ parsed.reads, Within buf len span
  regions : parsed.ret = .success → (∀ span ∈ regions parsed.rpt, Within buf len span) ∧
    (regions parsed.rpt).Pairwise fun one two => one.1 + one.2 ≤ two.1

def PpduFits (mem : Nat → U8) (buf len : Nat) (macInfo : Bool) : Prop :=
  macInfo →
    if infoUsrNum mem buf > macAxPpduMaxUsr then 4 ≤ len
    else macAxMacInfoSize + macAxMacInfoUseSize * infoUsrNum mem buf ≤ len ∧
      (infoRxCntSize mem buf + infoPlcpSize mem buf ≠ 0 →
        macAxMacInfoSize + usrSize (infoUsrNum mem buf) + infoRxCntSize mem buf + infoPlcpSize mem buf ≤ len)

theorem parseUsrs_reads (mem : Nat → U8) (n : Nat) (after : buf ≤ ptr) (inside : ptr ≤ buf + len) :
    (∀ span ∈ (parseUsrs mem n ptr).2, Within buf len span) ↔ ptr + macAxMacInfoUseSize*n ≤ buf + len := by
  unfold macAxMacInfoUseSize
  induction n generalizing ptr with
  | zero => simpa [parseUsrs] using inside
  | succ n ih =>
    rw [parseUsrs]
    dsimp only
    rw [forall_mem_cons]
    unfold macAxMacInfoUseSize
    by_cases here : ptr + 4 ≤ buf + len
    · rw [ih (by omega) here]
      constructor
      · rintro ⟨_,rest⟩
        omega
      · intro all
        exact ⟨⟨after,here⟩,by omega⟩
    · constructor
      · rintro ⟨⟨_,first⟩,_⟩
        exact absurd first here
      · intro all
        omega

theorem regions_chain (start rx plcp phy : Nat) :
    let regions : List Span := [(if rx ≠ 0 then some start else none).map (·,rx),
      (if plcp ≠ 0 then some (start+rx) else none).map (·,plcp),
      (if phy ≠ 0 then some (start + rx + plcp) else none).map (·,phy)].reduceOption
    (∀ span ∈ regions, start ≤ span.1 ∧ span.1 + span.2 ≤ start + rx + plcp + phy) ∧
      regions.Pairwise (fun one two => one.1 + one.2 ≤ two.1) ∧
      (rx + plcp ≠ 0 → ∃ span ∈ regions, start + rx + plcp ≤ span.1 + span.2) := by
  by_cases noRx : rx = 0 <;> by_cases noPlcp : plcp = 0 <;> by_cases noPhy : phy = 0 <;>
    simp [reduceOption,noRx,noPlcp,noPhy]
  omega

theorem usrSize_small (few : ¬n > macAxPpduMaxUsr) : usrSize n ≤ 16 ∧ macAxMacInfoUseSize*n ≤ usrSize n := by
  unfold macAxPpduMaxUsr at few
  unfold usrSize macAxMacInfoUseSize
  split <;> omega

section
variable (mem : Nat → U8) (buf : Nat)

theorem infoSizes : infoRxCntSize mem buf ≤ 96 ∧ infoPlcpSize mem buf < 256 := by
  constructor
  · unfold infoRxCntSize macAxRxCntSize
    split <;> omega
  · exact Nat.mod_lt _ (by decide)

theorem parseMacInfo_regions (len : U32) (few : ¬infoUsrNum mem buf > macAxPpduMaxUsr) :
    let start := buf + macAxMacInfoSize + usrSize (infoUsrNum mem buf)
    let accuSize := macAxMacInfoSize + usrSize (infoUsrNum mem buf) + infoRxCntSize mem buf + infoPlcpSize mem buf
    (parseMacInfo mem buf len).ret = .success ∧ (parseMacInfo mem buf len).rpt.regions =
      [(if infoRxCntSize mem buf ≠ 0 then some start else none).map (·,infoRxCntSize mem buf),
        (if infoPlcpSize mem buf ≠ 0 then some (start + infoRxCntSize mem buf) else none).map (·,infoPlcpSize mem buf),
        (if len.toNat - accuSize ≠ 0 then some (start + infoRxCntSize mem buf + infoPlcpSize mem buf) else none).map
          (·,len.toNat-accuSize)].reduceOption := by
  have users := (usrSize_small few).1
  obtain ⟨rx,plcp⟩ := infoSizes mem buf
  unfold parseMacInfo PpduRpt.regions
  rw [if_neg few]
  dsimp only
  refine ⟨rfl,?_⟩
  generalize size : macAxMacInfoSize + usrSize (infoUsrNum mem buf) + infoRxCntSize mem buf + infoPlcpSize mem buf = accuSize
  have small : accuSize < 2 ^ 32 := by
    unfold macAxMacInfoSize at size
    omega
  by_cases more : len.toNat > accuSize
  · have left : (len - BitVec.ofNat 32 accuSize).toNat = len.toNat - accuSize := by
      have below := len.isLt
      rw [toNat_sub,toNat_ofNat,Nat.mod_eq_of_lt small]
      omega
    have some : len.toNat - accuSize ≠ 0 := by omega
    rw [if_pos more,if_pos more,left,if_pos some]
  · have none : len.toNat - accuSize = 0 := by omega
    rw [if_neg more,if_neg more,none]
    simp

theorem parseMacInfo_inside (len : U32) (few : ¬infoUsrNum mem buf > macAxPpduMaxUsr) :
    Inside PpduRpt.regions buf len.toNat (parseMacInfo mem buf len) ↔
      macAxMacInfoSize + macAxMacInfoUseSize * infoUsrNum mem buf ≤ len.toNat ∧
      (infoRxCntSize mem buf + infoPlcpSize mem buf ≠ 0 →
        macAxMacInfoSize + usrSize (infoUsrNum mem buf) + infoRxCntSize mem buf + infoPlcpSize mem buf ≤ len.toNat) := by
  obtain ⟨success,regions⟩ := parseMacInfo_regions mem buf len few
  have users := (usrSize_small few).2
  obtain ⟨bounded,ordered,reaches⟩ := regions_chain (buf + macAxMacInfoSize + usrSize (infoUsrNum mem buf))
    (infoRxCntSize mem buf) (infoPlcpSize mem buf)
    (len.toNat - (macAxMacInfoSize + usrSize (infoUsrNum mem buf) + infoRxCntSize mem buf + infoPlcpSize mem buf))
  rw [← regions] at bounded ordered reaches
  have reads : (parseMacInfo mem buf len).reads =
      [(buf,4),(buf+4,4)] ++ (parseUsrs mem (infoUsrNum mem buf) (buf+macAxMacInfoSize)).2 := by
    unfold parseMacInfo
    rw [if_neg few]
  unfold macAxMacInfoSize at *
  constructor
  · rintro ⟨inside,fits⟩
    rw [reads] at inside
    have header := (inside (buf+4,4) (by simp)).2
    have fit := (parseUsrs_reads mem (infoUsrNum mem buf) (by omega) (by omega)).mp
      fun span member => inside span (mem_append_right _ member)
    refine ⟨by omega,fun some => ?_⟩
    obtain ⟨span,member,far⟩ := reaches some
    have near := ((fits success).1 span member).2
    omega
  · rintro ⟨fit,all⟩
    refine ⟨?_,fun _ => ⟨fun span member => ?_,ordered⟩⟩
    · rw [reads]
      intro span member
      rcases mem_append.mp member with header | user
      · simp only [mem_cons,not_mem_nil,or_false] at header
        rcases header with rfl | rfl
        · exact ⟨by simp,by omega⟩
        · exact ⟨by simp,by omega⟩
      · exact (parseUsrs_reads mem (infoUsrNum mem buf) (by omega) (by omega)).mpr (by omega) span user
    · obtain ⟨low,high⟩ := bounded span member
      refine ⟨by omega,?_⟩
      by_cases some : infoRxCntSize mem buf + infoPlcpSize mem buf = 0
      · by_cases more : len.toNat ≤ 8 + usrSize (infoUsrNum mem buf) + infoRxCntSize mem buf + infoPlcpSize mem buf
        · rw [regions] at member
          have none : len.toNat -
              (8 + usrSize (infoUsrNum mem buf) + infoRxCntSize mem buf + infoPlcpSize mem buf) = 0 := by omega
          have noRx : infoRxCntSize mem buf = 0 := by omega
          have noPlcp : infoPlcpSize mem buf = 0 := by omega
          rw [none,noRx,noPlcp] at member
          simp [reduceOption] at member
        · omega
      · have within := all some
        omega

theorem ppdu_inside (len : U32) (macInfo : Bool) :
    Inside PpduRpt.regions buf len.toNat (macParsePpdu mem buf len macInfo) ↔ PpduFits mem buf len.toNat macInfo := by
  cases macInfo with
  | false =>
    refine ⟨fun _ announced => (nomatch announced),fun _ => ⟨?_,fun _ => ⟨?_,?_⟩⟩⟩
    · intro span member
      exact nomatch member
    · simp [macParsePpdu,PpduRpt.regions,reduceOption,Within]
    · simp [macParsePpdu,PpduRpt.regions,reduceOption]
  | true =>
    unfold PpduFits
    rw [imp_iff_right rfl]
    by_cases many : infoUsrNum mem buf > macAxPpduMaxUsr
    · rw [if_pos many]
      unfold macParsePpdu parseMacInfo
      rw [if_pos many]
      constructor
      · rintro ⟨inside,_⟩
        have header := (inside (buf,4) (by simp)).2
        omega
      · intro fits
        refine ⟨?_,fun success => nomatch success⟩
        intro span member
        simp only [if_true,mem_singleton] at member
        subst member
        exact ⟨Nat.le_refl _,by omega⟩
    · rw [if_neg many]
      exact parseMacInfo_inside mem buf len many

theorem dfs_inside (len : U32) :
    Inside DfsRpt.regions buf len.toNat (macParseDfs mem buf len) ↔ macAxDfsHdrSize ≤ len.toNat := by
  unfold macAxDfsHdrSize
  constructor
  · rintro ⟨inside,_⟩
    have header := (inside (buf+4,4) (by simp [macParseDfs])).2
    omega
  · intro fits
    refine ⟨?_,fun _ => ⟨?_,pairwise_singleton _ _⟩⟩
    · intro span member
      simp only [macParseDfs,mem_cons,not_mem_nil,or_false] at member
      rcases member with rfl | rfl
      · exact ⟨by simp,by omega⟩
      · exact ⟨by simp,by omega⟩
    · intro span member
      obtain rfl := mem_singleton.mp member
      have left : (len - BitVec.ofNat 32 8).toNat = len.toNat - 8 := by
        have below := len.isLt
        rw [toNat_sub,toNat_ofNat]
        omega
      refine ⟨by simp [macParseDfs],?_⟩
      simp only [macParseDfs,macAxDfsHdrSize,macAxDfsRptSizeSh,toNat_setWidth,toNat_ushiftRight,left,
        Nat.shiftRight_eq_div_pow]
      omega
end

-- Every buffer and every length.
theorem phy_rpt_inside_exact (mem : Nat → U8) (buf : Nat) (len : U32) (macInfo : Bool) :
    (Inside PpduRpt.regions buf len.toNat (macParsePpdu mem buf len macInfo) ↔ PpduFits mem buf len.toNat macInfo) ∧
      (Inside DfsRpt.regions buf len.toNat (macParseDfs mem buf len) ↔ macAxDfsHdrSize ≤ len.toNat) :=
  ⟨ppdu_inside mem buf len macInfo,dfs_inside mem buf len⟩

def shortReport : Nat → U8 := fun pos => if pos = 6 then 3 else 0

theorem phy_rpt_outside :
    ¬ Inside PpduRpt.regions 0 0 (macParsePpdu shortReport 0 0 true) ∧
      ¬ Inside PpduRpt.regions 0 8 (macParsePpdu shortReport 0 8 true) ∧
      ¬ Inside DfsRpt.regions 0 4 (macParseDfs shortReport 0 4) := by
  refine ⟨?_,?_,?_⟩
  · rintro ⟨inside,_⟩
    exact absurd (inside (0,4) (by decide)).2 (by decide)
  · rintro ⟨_,fits⟩
    exact absurd ((fits (by decide)).1 (8,24) (by decide)).2 (by decide)
  · rintro ⟨inside,_⟩
    exact absurd (inside (4,4) (by decide)).2 (by decide)

end Rtl8852au.PhyRpt
