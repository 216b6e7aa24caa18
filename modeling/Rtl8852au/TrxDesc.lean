import Rtl8852au.Machine
import Rtl8852au.Words

namespace Rtl8852au.TrxDesc
open Machine Words BitVec

def tidMaxNum : Nat := 8

inductive MacRet where
  | success
  | bufSz
  | txChDma
  | funcInput
  | intf
  | noItem
  deriving DecidableEq

inductive PktType where
  | data
  | mgnt
  | h2c
  | fwdl
  -- `CTRL`, and values outside the enumeration
  | other
  deriving DecidableEq

inductive Intf where
  | usb
  | pcie
  | sdio
  | other
  deriving DecidableEq

structure Hw where
  intf : Intf
  stf : Bool
  wdChecksumEn : Bool

structure TMetaData where
  band : U8 := 0
  wmm : U8 := 0
  type : PktType
  tid : U8 := 0
  bc : U8 := 0
  mc : U8 := 0
  pktlen : U16
  hwSeqMode : U8 := 0
  hwSsnSel : U8 := 0
  smhEn : U8 := 0
  hwAmsdu : U8 := 0
  hwAesIv : U8 := 0
  wdPageSize : U8 := 0
  hdrLen : U8 := 0
  dmaCh : U8 := 0
  usbPktOfst : U8 := 0
  wdinfoEn : U8 := 0
  wpOffset : U8 := 0
  shcutCamid : U8 := 0
  macid : U16 := 0
  swSeq : U16 := 0
  ampduEn : U8 := 0
  bk : U8 := 0
  mbssid : U8 := 0
  halPort : U8 := 0
  dataBwEr : U8 := 0
  disRtsRateFb : U8 := 0
  disDataRateFb : U8 := 0
  fLdpc : U8 := 0
  fStbc : U8 := 0
  fDcm : U8 := 0
  fEr : U8 := 0
  fRate : U16 := 0
  fGiLtf : U8 := 0
  fBw : U8 := 0
  userateSel : U8 := 0
  ackChInfo : U8 := 0
  maxAggNum : U8 := 0
  navUseHdr : U8 := 0
  aCtrlUph : U8 := 0
  aCtrlBsr : U8 := 0
  aCtrlCas : U8 := 0
  dataRtyLowestRate : U16 := 0
  dataTxCntLmt : U8 := 0
  dataTxCntLmtEn : U8 := 0
  secCamIdx : U8 := 0
  secHwEnc : U8 := 0
  secType : U8 := 0
  lifeTimeSel : U8 := 0
  ampduDensity : U8 := 0
  ndpa : U8 := 0
  sndPktSel : U8 := 0
  sifsTx : U8 := 0
  rttEn : U8 := 0
  speRpt : U8 := 0
  swDefine : U8 := 0
  rtsEn : U8 := 0
  cts2self : U8 := 0
  rtsCcaMode : U8 := 0
  hwRtsEn : U8 := 0

structure WdBody where
  dword0 : U32
  dword1 : U32
  dword2 : U32
  dword3 : U32
  dword4 : U32
  dword5 : U32
  deriving DecidableEq

structure WdInfo where
  dword0 : U32
  dword1 : U32
  dword2 : U32
  dword3 : U32
  dword4 : U32
  dword5 : U32
  deriving DecidableEq

structure TxDesc where
  body : WdBody
  info : Option WdInfo
  deriving DecidableEq

def WdBody.words (body : WdBody) : List U32 := [body.dword0,body.dword1,body.dword2,body.dword3,body.dword4,body.dword5]
def WdInfo.words (info : WdInfo) : List U32 := [info.dword0,info.dword1,info.dword2,info.dword3,info.dword4,info.dword5]

def TxDesc.infoWords (desc : TxDesc) : List U32 :=
  match desc.info with
  | none => []
  | some info => info.words

def TxDesc.words (desc : TxDesc) : List U32 := desc.body.words ++ desc.infoWords

def wdBodyLen : Nat := 24
def wdInfoLen : Nat := 24

def macTxdescLen (info : TMetaData) : Nat :=
  if info.type ≠ .h2c ∧ info.type ≠ .fwdl ∧ info.wdinfoEn ≠ 0 then wdBodyLen + wdInfoLen else wdBodyLen

-- `SET_WORD`, `SET_CLR_WORD` and a flag.
def setWord (v : BitVec w) (sh : Nat) (msk : U32) : U32 := (v.setWidth 32 &&& msk) <<< sh
def setClrWord (word : U32) (v : BitVec w) (sh : Nat) (msk : U32) : U32 := (word &&& ~~~(msk <<< sh)) ||| setWord v sh msk
def flag (b : Bool) (bit : Nat) : U32 := if b then 1 <<< bit else 0
def on (v : U8) : Bool := v != 0
def pktOffsetBit : Nat := 21

-- `mac_wd_checksum`: the checksum field counts as zero, and is written over
-- what the word held before.
def clearChecksum (desc : TxDesc) : TxDesc :=
  {desc with body:={desc.body with dword4:=setClrWord desc.body.dword4 (0 : U16) 0 0xffff}}

def xorHalves (words : List U32) : U16 := words.foldl (fun chksum word => chksum ^^^ (lo16 word ^^^ hi16 word)) 0

def macWdChecksum (info : TMetaData) (desc : TxDesc) : TxDesc :=
  let chksum := xorHalves ((clearChecksum desc).words.take (macTxdescLen info / 4))
  {desc with body:={desc.body with dword4:=setClrWord desc.body.dword4 chksum 0 0xffff}}

def checksummed (hw : Hw) (info : TMetaData) (desc : TxDesc) : TxDesc :=
  if hw.wdChecksumEn then macWdChecksum info desc else desc

def qselL (i : Fin 8) : U8 := match i with | 0 => 0 | 1 => 1 | 2 => 1 | 3 => 0 | 4 => 2 | 5 => 2 | 6 => 3 | 7 => 3
def tidInd (i : Fin 8) : Bool :=
  match i with | 0 => false | 1 => false | 2 => true | 3 => true | 4 => false | 5 => true | 6 => false | 7 => true

def readTable (table : Fin 8 → α) (beyond : Nat → α) (i : Nat) : α := if h : i < 8 then table ⟨i,h⟩ else beyond i

structure Built where
  ret : MacRet
  desc : Option TxDesc
  info : TMetaData
  indices : List Nat

def refuse (ret : MacRet) (info : TMetaData) : Built := ⟨ret,none,info,[]⟩

section
variable (info : TMetaData)

def txdesProcH2cFwdl (len : Nat) : Built :=
  if len ≠ macTxdescLen info then refuse .bufSz info
  else if info.pktlen.toNat > 0x3fff ∨ info.pktlen = 0 then refuse .funcInput info
  else
    ⟨.success,some
      {body:=⟨setWord (12 : U8) 16 0xf ||| flag (info.type = .fwdl) 20,0,setWord info.pktlen 0 0x3fff,0,0,0⟩,info:=none},
      info,[]⟩

def intfWord (hw : Hw) (info : TMetaData) : Option U32 :=
  match hw.intf with
  | .sdio => some (flag true 10)
  | .usb => some (flag true 10 ||| flag (on info.usbPktOfst) pktOffsetBit)
  | .pcie => some (flag (on info.wdPageSize) 7 ||| flag hw.stf 10)
  | .other => none

def infoDword0 : U32 :=
  flag (on info.userateSel) 30 ||| setWord info.fRate 16 0x1ff ||| setWord info.fBw 28 0x3 ||| flag (on info.dataBwEr) 8 |||
  setWord info.fGiLtf 25 0x7 ||| flag (on info.fEr) 15 ||| flag (on info.fDcm) 14 ||| flag (on info.fStbc) 12 |||
  flag (on info.fLdpc) 11 ||| flag (on info.disDataRateFb) 10 ||| flag (on info.disRtsRateFb) 9 |||
  setWord info.halPort 4 0x7 ||| setWord info.mbssid 0 0xf

def infoDword1 : U32 :=
  setWord info.maxAggNum 0 0xff ||| setWord info.dataTxCntLmt 25 0x3f ||| flag (on info.dataTxCntLmtEn) 31 |||
  flag (on info.bc || on info.mc) 11 ||| flag (on info.navUseHdr) 10

def infoDword2 : U32 :=
  setWord info.lifeTimeSel 13 0x7 ||| setWord info.secType 9 0xf ||| flag (on info.secHwEnc) 8 |||
  setWord info.secCamIdx 0 0xff ||| setWord info.ampduDensity 18 0x7

def infoDword3 : U32 :=
  flag (on info.sifsTx) 6 ||| setWord info.ndpa 1 0x3 ||| setWord info.sndPktSel 3 0x7 ||| flag (on info.rttEn) 9 |||
  flag (on info.speRpt) 10

def infoDword4 : U32 :=
  flag (on info.rtsEn) 27 ||| flag (on info.cts2self) 28 ||| setWord info.rtsCcaMode 29 0x3 ||| flag (on info.hwRtsEn) 31 |||
  setWord info.swDefine 0 0xf

def hiq : U8 := 9

def dataCh (hw : Hw) (info : TMetaData) : U8 :=
  if info.dmaCh = hiq ∧ hw.intf = .usb then (if on info.band then 10 else 8)
  else if info.dmaCh = hiq then (if on info.band then 11 else 9)
  else info.dmaCh

def dataDword0 (hw : Hw) (info : TMetaData) (dword0 : U32) : U32 :=
  dword0 ||| (setWord info.hwSeqMode 0 0x3 ||| setWord info.hwSsnSel 2 0x3 ||| setWord info.hdrLen 11 0x1f |||
    setWord (dataCh hw info) 16 0xf ||| flag (on info.hwAmsdu) 5 ||| flag (on info.smhEn) 4 ||| flag (on info.hwAesIv) 6 |||
    flag (on info.wdinfoEn) 22 ||| setWord info.wpOffset 24 0xff)

-- `tid_ind` is read with the tid brought into the table, `qsel_l` is not.
def clampTid (tid : U8) : U8 := if tid.toNat ≥ tidMaxNum then 7 else tid

def txdesProcData (beyond : Nat → U8) (hw : Hw) (info : TMetaData) (len : Nat) : Built :=
  if len ≠ macTxdescLen info then refuse .bufSz info
  else if info.dmaCh.toNat > hiq.toNat then refuse .txChDma info
  else if info.pktlen.toNat > 0x3fff ∨ info.pktlen = 0 then refuse .funcInput info
  else
    match intfWord hw info with
    | none => refuse .intf info
    | some dword0 =>
      let qsel : U8 := if info.dmaCh = hiq then (if on info.band then 25 else 17)
        else (info.wmm <<< 2) ||| readTable qselL beyond info.tid.toNat
      let qselIndex := if info.dmaCh = hiq then [] else [info.tid.toNat]
      let tid := clampTid info.tid
      let body : WdBody :=
        {dword0 := dataDword0 hw info dword0
         dword1 := setWord info.shcutCamid 0 0xff
         dword2 := setWord info.pktlen 0 0x3fff ||| setWord qsel 17 0x3f |||
          flag (readTable tidInd (fun _ => false) tid.toNat) 23 ||| setWord info.macid 24 0x7f
         dword3 := setWord info.swSeq 0 0xfff ||| flag (on info.ampduEn) 12 ||| flag (on info.bk || on info.ackChInfo) 13
         dword4 := 0
         dword5 := 0}
      let wdInfo : WdInfo :=
        {dword0 := infoDword0 info ||| flag (on info.ackChInfo) 31
         dword1 := infoDword1 info ||| flag (on info.aCtrlUph) 13 ||| flag (on info.aCtrlBsr) 14 |||
          flag (on info.aCtrlCas) 15 ||| setWord info.dataRtyLowestRate 16 0x1ff
         dword2 := infoDword2 info
         dword3 := infoDword3 info
         dword4 := infoDword4 info
         dword5 := 0}
      ⟨.success,some (checksummed hw info ⟨body,if on info.wdinfoEn then some wdInfo else none⟩),{info with tid},
        qselIndex ++ [tid.toNat]⟩

def mgntDword0 (dword0 : U32) : U32 :=
  dword0 ||| (setWord info.hwSeqMode 0 0x3 ||| setWord info.hwSsnSel 2 0x3 ||| setWord info.hdrLen 11 0x1f |||
    flag (on info.wdinfoEn) 22) ||| setWord (if on info.band then (10 : U8) else 8) 16 0xf
end

def txdesProcMgnt (hw : Hw) (info : TMetaData) (len : Nat) : Built :=
  if len ≠ macTxdescLen info then refuse .bufSz info
  else if info.pktlen.toNat > 0x3fff ∨ info.pktlen = 0 then refuse .funcInput info
  else
    match intfWord hw info with
    | none => refuse .intf info
    | some dword0 =>
      let body : WdBody :=
        {dword0 := mgntDword0 info dword0
         dword1 := 0
         dword2 := setWord info.pktlen 0 0x3fff ||| setWord (if on info.band then (26 : U8) else 18) 17 0x3f |||
          setWord info.macid 24 0x7f
         dword3 := setWord info.swSeq 0 0xfff ||| flag (on info.bk) 13
         dword4 := 0
         dword5 := 0}
      let wdInfo : WdInfo :=
        {dword0 := infoDword0 info
         dword1 := infoDword1 info
         dword2 := infoDword2 info
         dword3 := infoDword3 info
         dword4 := infoDword4 info
         dword5 := 0}
      ⟨.success,some (checksummed hw info ⟨body,if on info.wdinfoEn then some wdInfo else none⟩),info,[]⟩

def macBuildTxdesc (beyond : Nat → U8) (hw : Hw) (info : TMetaData) (len : Nat) : Built :=
  match info.type with
  | .h2c | .fwdl => txdesProcH2cFwdl info len
  | .data => txdesProcData beyond hw info len
  | .mgnt => txdesProcMgnt hw info len
  | .other => refuse .noItem info

structure RefillInfo where
  aggNum : U32
  packetOffset : U8

structure Refill where
  mask : RefillInfo
  info : RefillInfo

def macRefillTxdesc (hw : Hw) (info : TMetaData) (desc : TxDesc) (refill : Refill) : TxDesc :=
  let dword0 := if on refill.mask.packetOffset then desc.body.dword0 ||| flag (on refill.info.packetOffset) pktOffsetBit
    else desc.body.dword0
  let dword1 := if refill.mask.aggNum = 0xff then setClrWord desc.body.dword1 refill.info.aggNum 8 0xff
    else desc.body.dword1
  checksummed hw info {desc with body:={desc.body with dword0,dword1}}

theorem lo16_setChecksum (word : U32) (v : U16) : lo16 (setClrWord word v 0 0xffff) = v := by
  apply eq_of_getLsbD_eq
  intro i inside
  have low : ∀ i < 16, (0xffff#16).getLsbD i := by decide
  have here := low i inside
  rw [getLsbD_eq_getElem inside] at here
  simp [lo16,setClrWord,setWord,inside,here]

theorem hi16_setChecksum (word : U32) (v : U16) : hi16 (setClrWord word v 0 0xffff) = hi16 word := by
  apply eq_of_getLsbD_eq
  intro i inside
  have high : ∀ i < 16, (0xffff0000#32).getLsbD (16 + i) := by decide
  simp [hi16,setClrWord,setWord,inside,high i inside]

theorem xorHalves_from (words : List U32) (chksum : U16) :
    words.foldl (fun chksum word => chksum ^^^ (lo16 word ^^^ hi16 word)) chksum = chksum ^^^ xorHalves words := by
  unfold xorHalves
  induction words generalizing chksum with
  | nil => simp
  | cons word rest ih =>
    rw [List.foldl_cons,List.foldl_cons,ih,ih (0 ^^^ _)]
    simp [xor_assoc]

theorem xorHalves_cons (word : U32) (rest : List U32) :
    xorHalves (word :: rest) = lo16 word ^^^ hi16 word ^^^ xorHalves rest := by
  rw [xorHalves,List.foldl_cons,xorHalves_from]
  simp

theorem xorHalves_append (one two : List U32) : xorHalves (one ++ two) = xorHalves one ^^^ xorHalves two := by
  induction one with
  | nil => simp [xorHalves]
  | cons word rest ih => 
    rw [List.cons_append,xorHalves_cons,ih,xorHalves_cons]
    ac_rfl

def TxDesc.others (desc : TxDesc) : U16 :=
  xorHalves [desc.body.dword0,desc.body.dword1,desc.body.dword2,desc.body.dword3,desc.body.dword5] ^^^
    xorHalves desc.infoWords

theorem xorHalves_words (desc : TxDesc) :
    xorHalves desc.words = lo16 desc.body.dword4 ^^^ hi16 desc.body.dword4 ^^^ desc.others := by
  unfold TxDesc.others TxDesc.words WdBody.words
  rw [xorHalves_append]
  simp only [xorHalves_cons]
  ac_rfl

def Sized (info : TMetaData) (desc : TxDesc) : Prop := desc.words.length = macTxdescLen info / 4

theorem macWdChecksum_zero (sized : Sized info desc) : xorHalves (macWdChecksum info desc).words = 0 := by
  have whole : (clearChecksum desc).words.take (macTxdescLen info / 4) = (clearChecksum desc).words := by
    have same : (clearChecksum desc).words.length = desc.words.length := rfl
    rw [← sized,← same]
    exact List.take_length
  have cleared : xorHalves (clearChecksum desc).words = hi16 desc.body.dword4 ^^^ desc.others := by
    rw [xorHalves_words]
    change lo16 (setClrWord desc.body.dword4 (0 : U16) 0 0xffff) ^^^ hi16 (setClrWord desc.body.dword4 (0 : U16) 0 0xffff) ^^^
      desc.others = _
    rw [lo16_setChecksum,hi16_setChecksum]
    simp
  unfold macWdChecksum
  dsimp only
  rw [whole,cleared,xorHalves_words]
  change lo16 (setClrWord desc.body.dword4 (hi16 desc.body.dword4 ^^^ desc.others) 0 0xffff) ^^^
    hi16 (setClrWord desc.body.dword4 (hi16 desc.body.dword4 ^^^ desc.others) 0 0xffff) ^^^ desc.others = 0
  rw [lo16_setChecksum,hi16_setChecksum,xor_assoc]
  exact xor_self

theorem checksummed_keeps (hw : Hw) (info : TMetaData) (desc : TxDesc) :
    (checksummed hw info desc).body.dword0 = desc.body.dword0 ∧ (checksummed hw info desc).body.dword1 = desc.body.dword1 ∧
      (checksummed hw info desc).body.dword2 = desc.body.dword2 ∧ (checksummed hw info desc).body.dword3 = desc.body.dword3 ∧
      hi16 (checksummed hw info desc).body.dword4 = hi16 desc.body.dword4 ∧
      (checksummed hw info desc).body.dword5 = desc.body.dword5 ∧ (checksummed hw info desc).info = desc.info := by
  unfold checksummed
  split
  · refine ⟨rfl,rfl,rfl,rfl,?_,rfl,rfl⟩
    unfold macWdChecksum
    exact hi16_setChecksum _ _
  · exact ⟨rfl,rfl,rfl,rfl,rfl,rfl,rfl⟩

structure Refilled (refill : Refill) (before after : TxDesc) : Prop where
  offset : on refill.mask.packetOffset → after.body.dword0.getLsbD pktOffsetBit = on refill.info.packetOffset
  agg : refill.mask.aggNum = 0xff → (after.body.dword1.extractLsb' 8 8).toNat = refill.info.aggNum.toNat
  dword0 : ∀ i, (on refill.mask.packetOffset → i ≠ pktOffsetBit) →
    after.body.dword0.getLsbD i = before.body.dword0.getLsbD i
  dword1 : ∀ i, (refill.mask.aggNum = 0xff → i < 8 ∨ 16 ≤ i) →
    after.body.dword1.getLsbD i = before.body.dword1.getLsbD i
  dword2 : after.body.dword2 = before.body.dword2
  dword3 : after.body.dword3 = before.body.dword3
  dword4 : hi16 after.body.dword4 = hi16 before.body.dword4
  dword5 : after.body.dword5 = before.body.dword5
  info : after.info = before.info

theorem setAgg_bit (word v : U32) (i : Nat) :
    (setClrWord word v 8 0xff).getLsbD i = if 8 ≤ i ∧ i < 16 then v.getLsbD (i-8) else word.getLsbD i := by
  by_cases small : i < 32
  · have masks : ∀ i < 32, ((~~~((0xff : U32) <<< 8)).getLsbD i = decide (i < 8 ∨ 16 ≤ i)) ∧
        (0xff : U32).getLsbD i = decide (i < 8) := by decide
    obtain ⟨keeps,_⟩ := masks i small
    have takes := (masks (i-8) (by omega)).2
    unfold setClrWord setWord
    rw [getLsbD_or,getLsbD_and,getLsbD_shiftLeft,getLsbD_and,keeps,takes]
    by_cases inside : 8 ≤ i ∧ i < 16
    · have out : ¬(i < 8 ∨ 16 ≤ i) := by omega
      have within : i - 8 < 8 := by omega
      rw [decide_eq_false out,decide_eq_true within]
      simp [inside,small,Nat.not_lt.mpr inside.1]
    · rw [if_neg inside]
      have out : i < 8 ∨ 16 ≤ i := by omega
      rcases out with low | high
      · simp [low]
      · have past : ¬ i - 8 < 8 := by omega
        simp [high,past]
  · have none : ¬(8 ≤ i ∧ i < 16) := by omega
    rw [if_neg none,getLsbD_of_ge _ i (by omega),getLsbD_of_ge _ i (by omega)]

theorem setAgg_field (word v : U32) : ((setClrWord word v 8 0xff).extractLsb' 8 8).toNat = v.toNat % 256 := by
  have field : (setClrWord word v 8 0xff).extractLsb' 8 8 = v.setWidth 8 := by
    apply eq_of_getLsbD_eq
    intro i inside
    rw [getLsbD_extractLsb',setAgg_bit,getLsbD_setWidth]
    have within : 8 ≤ 8 + i ∧ 8 + i < 16 := by omega
    simp [within,inside]
  rw [field,toNat_setWidth]

theorem setOffset_bit (word : U32) (b : Bool) (i : Nat) :
    (word ||| flag b pktOffsetBit).getLsbD i = (word.getLsbD i || (b && decide (i = pktOffsetBit))) := by
  unfold flag pktOffsetBit
  rw [getLsbD_or]
  cases b with
  | false => simp
  | true =>
    congr 1
    by_cases small : i < 32
    · have bits : ∀ i < 32, ((1 : U32) <<< 21).getLsbD i = decide (i = 21) := by decide
      simpa using bits i small
    · have other : i ≠ 21 := by omega
      rw [getLsbD_of_ge _ i (by omega)]
      simp [other]

-- The packet-offset bit is only ever set, and the aggregation number has eight bits.
def Refill.Fits (offset : Bool) (refill : Refill) : Prop :=
  (on refill.mask.packetOffset → on refill.info.packetOffset = false → offset = false) ∧
    (refill.mask.aggNum = 0xff → refill.info.aggNum.toNat < 256)

theorem refill_exact (hw : Hw) (info : TMetaData) (desc : TxDesc) (refill : Refill) :
    Refilled refill desc (macRefillTxdesc hw info desc refill) ↔ refill.Fits (desc.body.dword0.getLsbD pktOffsetBit) := by
  unfold macRefillTxdesc
  dsimp only
  generalize patched : ({desc with body:=_} : TxDesc) = patch
  obtain ⟨dword0,dword1,dword2,dword3,dword4,dword5,infoWords⟩ := checksummed_keeps hw info patch
  subst patched
  dsimp only at dword0 dword1 dword2 dword3 dword4 dword5 infoWords
  constructor
  · rintro ⟨offset,agg,_⟩
    constructor
    · intro named clear
      have bit := offset named
      rw [dword0,if_pos named,setOffset_bit,clear] at bit
      simpa using bit
    · intro named
      have field := agg named
      rw [dword1,if_pos named,setAgg_field] at field
      omega
  · rintro ⟨settable,small⟩
    refine ⟨?_,?_,?_,?_,dword2,dword3,dword4,dword5,infoWords⟩
    · intro named
      rw [dword0,if_pos named,setOffset_bit]
      cases wanted : on refill.info.packetOffset with
      | false => simp [settable named wanted]
      | true => simp
    · intro named
      rw [dword1,if_pos named,setAgg_field,Nat.mod_eq_of_lt (small named)]
    · intro i other
      rw [dword0]
      by_cases named : on refill.mask.packetOffset
      · rw [if_pos named,setOffset_bit]
        simp [other named]
      · rw [if_neg named]
    · intro i other
      rw [dword1]
      by_cases named : refill.mask.aggNum = 0xff
      · have out : ¬(8 ≤ i ∧ i < 16) := by
          have := other named
          omega
        rw [if_pos named,setAgg_bit,if_neg out]
      · rw [if_neg named]

theorem setWord_clear (v : BitVec w) (outside : i < sh ∨ msk.getLsbD (i-sh) = false) :
    (setWord v sh msk).getLsbD i = false := by
  unfold setWord
  rw [getLsbD_shiftLeft,getLsbD_and]
  rcases outside with below | masked
  · simp [below]
  · simp [masked]

theorem flag_clear (b : Bool) (bit : Nat) (other : (1 <<< bit : U32).getLsbD i = false) : (flag b bit).getLsbD i = false := by
  unfold flag
  split
  · exact other
  · simp

theorem dataDword0_offset (hw : Hw) (info : TMetaData) (dword0 : U32) :
    (dataDword0 hw info dword0).getLsbD pktOffsetBit = dword0.getLsbD pktOffsetBit := by
  unfold dataDword0
  simp only [getLsbD_or]
  rw [setWord_clear _ (.inr (by decide)),setWord_clear _ (.inr (by decide)),setWord_clear _ (.inr (by decide)),
    setWord_clear _ (.inr (by decide)),flag_clear _ _ (by decide),flag_clear _ _ (by decide),flag_clear _ _ (by decide),
    flag_clear _ _ (by decide),setWord_clear _ (.inl (by decide))]
  simp

theorem mgntDword0_offset (info : TMetaData) (dword0 : U32) :
    (mgntDword0 info dword0).getLsbD pktOffsetBit = dword0.getLsbD pktOffsetBit := by
  unfold mgntDword0
  simp only [getLsbD_or]
  rw [setWord_clear _ (.inr (by decide)),setWord_clear _ (.inr (by decide)),setWord_clear _ (.inr (by decide)),
    flag_clear _ _ (by decide),setWord_clear _ (.inr (by decide))]
  simp

theorem clampTid_small (tid : U8) : (clampTid tid).toNat < tidMaxNum := by
  unfold clampTid tidMaxNum
  split
  · decide
  · omega

theorem intfWord_offset (known : intfWord hw info = some dword0) :
    dword0.getLsbD pktOffsetBit = (decide (hw.intf = .usb) && on info.usbPktOfst) := by
  unfold intfWord at known
  unfold pktOffsetBit at *
  cases kind : hw.intf with
  | other => simp [kind] at known
  | sdio =>
    rw [kind] at known
    cases known
    simp [flag]
  | usb =>
    rw [kind] at known
    cases known
    have bit := setOffset_bit (flag true 10) (on info.usbPktOfst) 21
    unfold pktOffsetBit at bit
    rw [bit,flag_clear _ _ (by decide)]
    simp
  | pcie =>
    rw [kind] at known
    cases known
    rw [getLsbD_or,flag_clear _ _ (by decide),flag_clear _ _ (by decide)]
    simp

structure BuiltAs (hw : Hw) (info : TMetaData) (built : Built) (desc : TxDesc) (indices : List Nat) : Prop where
  isDesc : ∃ plain, desc = checksummed hw info plain ∧ Sized info plain ∧
    plain.body.dword0.getLsbD pktOffsetBit = (decide (hw.intf = .usb) && on info.usbPktOfst)
  sameLen : macTxdescLen built.info = macTxdescLen info
  indices : built.indices = indices

theorem sized_built (info : TMetaData) (kind : info.type = .data ∨ info.type = .mgnt) (body : WdBody) (wdInfo : WdInfo) :
    Sized info ⟨body,if on info.wdinfoEn then some wdInfo else none⟩ := by
  have air : info.type ≠ .h2c ∧ info.type ≠ .fwdl := by rcases kind with kind | kind <;> simp [kind]
  unfold Sized macTxdescLen TxDesc.words TxDesc.infoWords on
  by_cases en : info.wdinfoEn = 0
  · simp [en,WdBody.words,wdBodyLen]
  · have set : info.wdinfoEn ≠ 0#8 := en
    simp [set,air.1,air.2,WdBody.words,WdInfo.words,wdBodyLen,wdInfoLen]

theorem txdesProcData_built (kind : info.type = .data) (built : (txdesProcData beyond hw info len).desc = some desc) :
    BuiltAs hw info (txdesProcData beyond hw info len) desc
      ((if info.dmaCh = hiq then [] else [info.tid.toNat]) ++ [(clampTid info.tid).toNat]) := by
  unfold txdesProcData at built ⊢
  by_cases size : len ≠ macTxdescLen info
  · rw [if_pos size] at built
    cases built
  by_cases channel : info.dmaCh.toNat > hiq.toNat
  · rw [if_neg size,if_pos channel] at built
    cases built
  by_cases packet : info.pktlen.toNat > 0x3fff ∨ info.pktlen = 0
  · rw [if_neg size,if_neg channel,if_pos packet] at built
    cases built
  rw [if_neg size,if_neg channel,if_neg packet] at built ⊢
  cases word : intfWord hw info with
  | none =>
    rw [word] at built
    cases built
  | some dword0 =>
    rw [word] at built
    obtain rfl := Option.some.inj built
    refine ⟨⟨_,rfl,sized_built info (.inl kind) _ _,?_⟩,rfl,rfl⟩
    exact (dataDword0_offset hw info dword0).trans (intfWord_offset word)

theorem txdesProcMgnt_built (kind : info.type = .mgnt) (built : (txdesProcMgnt hw info len).desc = some desc) :
    BuiltAs hw info (txdesProcMgnt hw info len) desc [] := by
  unfold txdesProcMgnt at built ⊢
  by_cases size : len ≠ macTxdescLen info
  · rw [if_pos size] at built
    cases built
  by_cases packet : info.pktlen.toNat > 0x3fff ∨ info.pktlen = 0
  · rw [if_neg size,if_pos packet] at built
    cases built
  rw [if_neg size,if_neg packet] at built ⊢
  cases word : intfWord hw info with
  | none =>
    rw [word] at built
    cases built
  | some dword0 =>
    rw [word] at built
    obtain rfl := Option.some.inj built
    refine ⟨⟨_,rfl,sized_built info (.inr kind) _ _,?_⟩,rfl,rfl⟩
    exact (mgntDword0_offset info dword0).trans (intfWord_offset word)

def Refill.sets (offset : Bool) (refill : Refill) : Bool :=
  offset || (on refill.mask.packetOffset && on refill.info.packetOffset)

theorem refill_offset (hw : Hw) (info : TMetaData) (desc : TxDesc) (refill : Refill) :
    (macRefillTxdesc hw info desc refill).body.dword0.getLsbD pktOffsetBit =
      refill.sets (desc.body.dword0.getLsbD pktOffsetBit) := by
  unfold macRefillTxdesc Refill.sets
  dsimp only
  rw [(checksummed_keeps hw info _).1]
  dsimp only
  by_cases named : on refill.mask.packetOffset
  · rw [if_pos named,setOffset_bit,named]
    simp
  · rw [if_neg named]
    simp [named]

theorem refill_zero (en : hw.wdChecksumEn) (sized : Sized info desc) (refill : Refill) :
    Sized info (macRefillTxdesc hw info desc refill) ∧ xorHalves (macRefillTxdesc hw info desc refill).words = 0 := by
  unfold macRefillTxdesc checksummed
  rw [if_pos en]
  exact ⟨sized,macWdChecksum_zero sized⟩

structure Agree (po agg : Bool) (one two : TxDesc) : Prop where
  dword0 : ∀ i, (po → i ≠ pktOffsetBit) → one.body.dword0.getLsbD i = two.body.dword0.getLsbD i
  dword1 : ∀ i, (agg → i < 8 ∨ 16 ≤ i) → one.body.dword1.getLsbD i = two.body.dword1.getLsbD i
  dword2 : one.body.dword2 = two.body.dword2
  dword3 : one.body.dword3 = two.body.dword3
  dword4 : hi16 one.body.dword4 = hi16 two.body.dword4
  dword5 : one.body.dword5 = two.body.dword5
  info : one.info = two.info

theorem Refilled.agree (done : Refilled refill before after) :
    Agree (on refill.mask.packetOffset) (refill.mask.aggNum == 0xff) after before := by
  refine {done with dword1:=fun i other => done.dword1 i fun named => other (by simp [named])}

theorem Agree.refill {refill : Refill} (agree : Agree po agg one two) (first : Refilled refill one one')
    (second : Refilled refill two two') :
    Agree (po && !on refill.mask.packetOffset) (agg && !(refill.mask.aggNum == 0xff)) one' two' := by
  refine ⟨?_,?_,?_,?_,?_,?_,?_⟩
  · intro i other
    by_cases named : on refill.mask.packetOffset
    · by_cases bit : i = pktOffsetBit
      · rw [bit,first.offset named,second.offset named]
      · rw [first.dword0 i fun _ => bit,second.dword0 i fun _ => bit]
        exact agree.dword0 i fun _ => bit
    · rw [first.dword0 i fun isNamed => absurd isNamed named,second.dword0 i fun isNamed => absurd isNamed named]
      exact agree.dword0 i fun differs => other (by simp [differs,named])
  · intro i other
    by_cases named : refill.mask.aggNum = 0xff
    · by_cases field : i < 8 ∨ 16 ≤ i
      · rw [first.dword1 i fun _ => field,second.dword1 i fun _ => field]
        exact agree.dword1 i fun _ => field
      · have value : one'.body.dword1.extractLsb' 8 8 = two'.body.dword1.extractLsb' 8 8 :=
          eq_of_toNat_eq ((first.agg named).trans (second.agg named).symm)
        have bit := congrArg (fun field => field.getLsbD (i-8)) value
        rw [getLsbD_extractLsb',getLsbD_extractLsb'] at bit
        have place : 8 + (i-8) = i := by omega
        have inside : i - 8 < 8 := by omega
        simpa [place,inside] using bit
    · rw [first.dword1 i fun isNamed => absurd isNamed named,second.dword1 i fun isNamed => absurd isNamed named]
      exact agree.dword1 i fun differs => other (by rw [differs,beq_eq_false_iff_ne.mpr named]; rfl)
  · rw [first.dword2,second.dword2,agree.dword2]
  · rw [first.dword3,second.dword3,agree.dword3]
  · rw [first.dword4,second.dword4,agree.dword4]
  · rw [first.dword5,second.dword5,agree.dword5]
  · rw [first.info,second.info,agree.info]

theorem Agree.same (agree : Agree false false one two) (first : xorHalves one.words = 0) (second : xorHalves two.words = 0) :
    one = two := by
  obtain ⟨⟨a0,a1,a2,a3,a4,a5⟩,aInfo⟩ := one
  obtain ⟨⟨b0,b1,b2,b3,b4,b5⟩,bInfo⟩ := two
  obtain ⟨dword0,dword1,dword2,dword3,dword4,dword5,info⟩ := agree
  dsimp only at *
  have zero : a0 = b0 := eq_of_getLsbD_eq fun i _ => dword0 i fun never => nomatch never
  have one : a1 = b1 := eq_of_getLsbD_eq fun i _ => dword1 i fun never => nomatch never
  subst zero one dword2 dword3 dword5 info
  rw [xorHalves_words] at first second
  dsimp only at first second
  have low : lo16 a4 = lo16 b4 := by
    have both := first.trans second.symm
    rw [dword4,xor_assoc,xor_assoc] at both
    exact (xor_left_inj _).mp both
  rw [word_halves low dword4]

def RefillSound (hw : Hw) (info : TMetaData) (desc : TxDesc) (refill : Refill) : Prop :=
  Refilled refill desc (macRefillTxdesc hw info desc refill) ∧ xorHalves (macRefillTxdesc hw info desc refill).words = 0

def Refill.Covers (later earlier : Refill) : Prop :=
  (on earlier.mask.packetOffset → on later.mask.packetOffset) ∧
    (earlier.mask.aggNum = 0xff → later.mask.aggNum = 0xff)

structure TxDescSound (hw : Hw) (built : Built) (desc : TxDesc) (refills : List Refill) : Prop where
  tables : ∀ i ∈ built.indices, i < tidMaxNum
  zero : xorHalves desc.words = 0
  steps : Admitted (macRefillTxdesc hw built.info) (RefillSound hw built.info) desc refills
  overrides : ∀ before earlier middle later after, refills = before ++ earlier :: (middle ++ later :: after) →
    later.Covers earlier →
    run (macRefillTxdesc hw built.info) desc (before ++ earlier :: (middle ++ [later])) =
      run (macRefillTxdesc hw built.info) desc (before ++ (middle ++ [later]))

structure TxDescFits (hw : Hw) (info : TMetaData) (refills : List Refill) : Prop where
  tid : info.type = .data → info.dmaCh ≠ hiq → info.tid.toNat < tidMaxNum
  steps : Admitted Refill.sets Refill.Fits (decide (hw.intf = .usb) && on info.usbPktOfst) refills

theorem refills_exact (en : hw.wdChecksumEn) (sized : Sized info desc) (refills : List Refill) :
    Admitted (macRefillTxdesc hw info) (RefillSound hw info) desc refills ↔
      Admitted Refill.sets Refill.Fits (desc.body.dword0.getLsbD pktOffsetBit) refills := by
  induction refills generalizing desc with
  | nil => exact Iff.rfl
  | cons refill rest ih =>
    obtain ⟨sized',zero⟩ := refill_zero en sized refill
    have exact := refill_exact hw info desc refill
    have later := ih sized'
    rw [refill_offset] at later
    constructor
    · rintro ⟨⟨done,_⟩,more⟩
      exact ⟨exact.mp done,later.mp more⟩
    · rintro ⟨fits,more⟩
      exact ⟨⟨exact.mpr fits,zero⟩,later.mpr more⟩

theorem admitted_append {step : σ → ε → σ} {guard : σ → ε → Prop} (s : σ) (one two : List ε) :
    Admitted step guard s (one ++ two) ↔ Admitted step guard s one ∧ Admitted step guard (run step s one) two := by
  induction one generalizing s with
  | nil => exact (and_iff_right trivial).symm
  | cons event rest ih => exact (and_congr_right fun _ => ih _).trans and_assoc.symm

theorem fits_without (fits : Admitted Refill.sets Refill.Fits (big : Bool) refills) (less : small = true → big = true) :
    Admitted Refill.sets Refill.Fits small refills := by
  induction refills generalizing small big with
  | nil => trivial
  | cons refill rest ih =>
    refine ⟨⟨fun named clear => ?_,fits.1.2⟩,ih fits.2 fun set => ?_⟩
    · have none := fits.1.1 named clear
      cases offset : small with
      | false => rfl
      | true => exact absurd ((less offset).symm.trans none) (by decide)
    · unfold Refill.sets at set ⊢
      rcases Bool.or_eq_true_iff.mp set with already | now
      · rw [less already,Bool.true_or]
      · rw [now,Bool.or_true]

theorem agree_run {one two : TxDesc} (agree : Agree po agg one two)
    (first : Admitted (macRefillTxdesc hw info) (RefillSound hw info) one refills)
    (second : Admitted (macRefillTxdesc hw info) (RefillSound hw info) two refills) :
    Agree po agg (run (macRefillTxdesc hw info) one refills) (run (macRefillTxdesc hw info) two refills) := by
  induction refills generalizing one two with
  | nil => exact agree
  | cons refill rest ih =>
    have next := agree.refill first.1.1 second.1.1
    refine ih {next with dword0:=fun i other => next.dword0 i fun differs => ?_,dword1:=fun i other => next.dword1 i fun differs => ?_} first.2 second.2
    · exact other (Bool.and_eq_true_iff.mp differs).1
    · exact other (Bool.and_eq_true_iff.mp differs).1

theorem covered_overridden (en : hw.wdChecksumEn = true) (sized : Sized info desc) (earlier later : Refill) (middle : List Refill)
    (fits : Admitted Refill.sets Refill.Fits (desc.body.dword0.getLsbD pktOffsetBit) (earlier :: (middle ++ [later])))
    (covers : later.Covers earlier) :
    run (macRefillTxdesc hw info) desc (earlier :: (middle ++ [later])) =
      run (macRefillTxdesc hw info) desc (middle ++ [later]) := by
  have without : Admitted Refill.sets Refill.Fits (desc.body.dword0.getLsbD pktOffsetBit) (middle ++ [later]) :=
    fits_without fits.2 fun set => by rw [Refill.sets,set,Bool.true_or]
  obtain ⟨sized',_⟩ := refill_zero en sized earlier
  have changed := (refill_exact hw info desc earlier).mpr fits.1
  have withSound := (refills_exact en sized' (middle ++ [later])).mpr (by rw [refill_offset]; exact fits.2)
  have withoutSound := (refills_exact en sized (middle ++ [later])).mpr without
  rw [admitted_append] at withSound withoutSound
  have apart := agree_run changed.agree withSound.1 withoutSound.1
  have joined := apart.refill withSound.2.1.1 withoutSound.2.1.1
  have same : ∀ desc, run (macRefillTxdesc hw info) desc (middle ++ [later]) =
      macRefillTxdesc hw info (run (macRefillTxdesc hw info) desc middle) later := by
    intro desc
    simp [run]
  change run (macRefillTxdesc hw info) (macRefillTxdesc hw info desc earlier) (middle ++ [later]) = _
  rw [same,same]
  refine Agree.same {joined with dword0:=fun i _ => joined.dword0 i fun differs => ?_,dword1:=fun i _ => joined.dword1 i fun differs => ?_} withSound.2.1.2 withoutSound.2.1.2
  · obtain ⟨named,unnamed⟩ := Bool.and_eq_true_iff.mp differs
    rw [covers.1 named] at unnamed
    cases unnamed
  · obtain ⟨named,unnamed⟩ := Bool.and_eq_true_iff.mp differs
    rw [covers.2 (beq_iff_eq.mp named)] at unnamed
    cases unnamed

theorem sized_run (en : hw.wdChecksumEn) (sized : Sized info desc) (refills : List Refill) :
    Sized info (run (macRefillTxdesc hw info) desc refills) ∧
      (run (macRefillTxdesc hw info) desc refills).body.dword0.getLsbD pktOffsetBit =
        run Refill.sets (desc.body.dword0.getLsbD pktOffsetBit) refills := by
  induction refills generalizing desc with
  | nil => exact ⟨sized,rfl⟩
  | cons refill rest ih =>
    obtain ⟨final,offset⟩ := ih (refill_zero en sized refill).1
    rw [refill_offset] at offset
    exact ⟨final,offset⟩

theorem builtAs_exact (en : hw.wdChecksumEn) (as : BuiltAs hw info built desc indices)
    (tid : (∀ i ∈ indices, i < tidMaxNum) ↔ (info.type = .data → info.dmaCh ≠ hiq → info.tid.toNat < tidMaxNum))
    (refills : List Refill) : TxDescSound hw built desc refills ↔ TxDescFits hw info refills := by
  obtain ⟨⟨plain,isDesc,sizedPlain,offsetPlain⟩,sameLen,isIndices⟩ := as
  rw [← isIndices] at tid
  have zero : xorHalves desc.words = 0 := by
    rw [isDesc,checksummed,if_pos en]
    exact macWdChecksum_zero sizedPlain
  have offset : desc.body.dword0.getLsbD pktOffsetBit = (decide (hw.intf = .usb) && on info.usbPktOfst) := by
    rw [isDesc,(checksummed_keeps hw info plain).1,offsetPlain]
  have sized : Sized built.info desc := by
    unfold Sized
    rw [isDesc,sameLen,checksummed,if_pos en]
    exact sizedPlain
  have steps := refills_exact en sized refills
  rw [offset] at steps
  constructor
  · rintro ⟨tables,_,done,_⟩
    exact ⟨tid.mp tables,steps.mp done⟩
  · rintro ⟨inTable,fits⟩
    refine ⟨tid.mpr inTable,zero,steps.mpr fits,?_⟩
    rintro before earlier middle later after rfl covers
    obtain ⟨sizedBefore,offsetBefore⟩ := sized_run en sized before
    rw [offset] at offsetBefore
    have rest := ((admitted_append _ before _).mp fits).2
    have upTo : earlier :: (middle ++ later :: after) = (earlier :: (middle ++ [later])) ++ after := by simp
    rw [upTo] at rest
    have fitsHere := ((admitted_append _ (earlier :: (middle ++ [later])) after).mp rest).1
    have gone := covered_overridden en sizedBefore earlier later middle (by rw [offsetBefore]; exact fitsHere) covers
    have split (tail : List Refill) : run (macRefillTxdesc hw built.info) desc (before ++ tail) =
        run (macRefillTxdesc hw built.info) (run (macRefillTxdesc hw built.info) desc before) tail := List.foldl_append
    rw [split,split,gone]

-- For every data or management packet whose descriptor was built, and every run of refills.
theorem txdesc_refills_exact (beyond : Nat → U8) (hw : Hw) (info : TMetaData) (len : Nat) (refills : List Refill)
    (kind : info.type = .data ∨ info.type = .mgnt) (en : hw.wdChecksumEn = true)
    (built : (macBuildTxdesc beyond hw info len).desc = some desc) :
    TxDescSound hw (macBuildTxdesc beyond hw info len) desc refills ↔ TxDescFits hw info refills := by
  rcases kind with data | mgnt
  · have isBuild : macBuildTxdesc beyond hw info len = txdesProcData beyond hw info len := by rw [macBuildTxdesc,data]
    rw [isBuild] at built ⊢
    refine builtAs_exact en (txdesProcData_built data built) ?_ refills
    have clamped := clampTid_small info.tid
    by_cases high : info.dmaCh = hiq
    · simp [high,clamped]
    · simp [high,clamped,data]
  · have isBuild : macBuildTxdesc beyond hw info len = txdesProcMgnt hw info len := by rw [macBuildTxdesc,mgnt]
    rw [isBuild] at built ⊢
    exact builtAs_exact en (txdesProcMgnt_built mgnt built) (by simp [mgnt]) refills

def usbHw : Hw := ⟨.usb,false,true⟩

def plainData : TMetaData := {type:=.data,pktlen:=100,tid:=5}
def twoRefills : List Refill := [⟨⟨0xff,1⟩,⟨3,1⟩⟩,⟨⟨0xff,0⟩,⟨7,0⟩⟩]

theorem txdesc_refills_exact_plain :
    ∃ desc, (macBuildTxdesc (fun _ => 0) usbHw plainData 24).desc = some desc ∧
      TxDescSound usbHw (macBuildTxdesc (fun _ => 0) usbHw plainData 24) desc twoRefills := by
  refine ⟨_,rfl,(txdesc_refills_exact (fun _ => 0) usbHw plainData 24 twoRefills (.inl rfl) rfl rfl).mpr ⟨by decide,?_⟩⟩
  simp [twoRefills,Admitted,Refill.Fits,Refill.sets,on,plainData,usbHw]

def offsetData : TMetaData := {plainData with usbPktOfst:=1}
def clearOffset : List Refill := [⟨⟨0,1⟩,⟨0,0⟩⟩]
def wideTid : TMetaData := {plainData with tid:=8}

theorem txdesc_spoiled :
    (∃ desc, (macBuildTxdesc (fun _ => 0) usbHw offsetData 24).desc = some desc ∧
        ¬ TxDescSound usbHw (macBuildTxdesc (fun _ => 0) usbHw offsetData 24) desc clearOffset) ∧
      ∃ desc, (macBuildTxdesc (fun _ => 0) usbHw wideTid 24).desc = some desc ∧
        ¬ TxDescSound usbHw (macBuildTxdesc (fun _ => 0) usbHw wideTid 24) desc [] := by
  refine ⟨⟨_,rfl,?_⟩,⟨_,rfl,?_⟩⟩
  · rintro ⟨_,_,⟨⟨exact,_⟩,_⟩,_⟩
    exact absurd (exact.offset (by decide)) (by decide +kernel)
  · rintro ⟨tables,_⟩
    exact absurd (tables 8 (by decide +kernel)) (by decide)

end Rtl8852au.TrxDesc
