import Rtl8852au.Machine
import Rtl8852au.Memory
import Rtl8852au.Words
import Rtl8852au.BitField

namespace Rtl8852au.Fwdl
open Machine Memory Words BitField List

def fwhdrHdrLen : Nat := 32
def fwhdrSectionLen : Nat := 16
def fwdlSectionMaxNum : Nat := 10
def fwdlSectionChksumLen : Nat := 8
def fwdlSectionPerPktLen : Nat := 2020
def fwdlWaitCnt : Nat := 400000
def romdlSegLen : Nat := 0x40000
def rAxFilterModelAddr : Nat := 0x0c04
def rAxIndirAccessEntry : Nat := 0x40000

def fwhdrSecNum : Field 32 := ⟨0xff,8⟩
def fwhdrFwPartSz : Field 32 := ⟨0xffff,0⟩
def fwhdrCommitid : Field 32 := ⟨0xffffffff,0⟩
def sectionInfoSecDlAddr : Field 32 := ⟨0xffffffff,0⟩
def sectionInfoSecSize : Field 32 := ⟨0xffffff,0⟩
def sectionInfoChecksum (hdrVal : U32) : Bool := hdrVal.getLsbD 28
def sectionInfoRedl (hdrVal : U32) : Bool := hdrVal.getLsbD 29
def setClrWord (word value : U32) (f : Field 32) : U32 := (word &&& ~~~(f.msk <<< f.sh)) ||| setWord value f

inductive MacRet where
  | success
  | nptr
  | noItem
  | noBuf
  | bufSz
  | fwBin
  | procErr
  | pollTo
  | fwChkSum
  | fwSecBoot
  | fwCut
  | memRo
  -- what a transmit function returned
  | tx
  deriving DecidableEq,Repr

structure FwhdrSectionInfo where
  redl : Bool
  addr : Nat
  len : Nat
  dladdr : Nat

structure FwBinInfo where
  sectionNum : Nat
  hdrLen : Nat
  gitIdx : U32
  sectionInfo : List FwhdrSectionInfo
  counted : sectionInfo.length = sectionNum

section
variable (fw : Nat → U8)

def fwhdrSectionParser (pos addr : Nat) : FwhdrSectionInfo :=
  let hdrVal := dword fw (pos+4)
  let size := (getField hdrVal sectionInfoSecSize).toNat
  {redl := sectionInfoRedl hdrVal,addr
   len := if sectionInfoChecksum hdrVal then size + fwdlSectionChksumLen else size
   dladdr := (getField (dword fw pos) sectionInfoSecDlAddr &&& 0x1FFFFFFF).toNat}

structure Parse where
  pos : Nat
  binPtr : Nat
  reads : List Nat
  sections : List FwhdrSectionInfo

def parseSections (fw : Nat → U8) : Nat → Parse → Parse
  | 0,p => p
  | count+1,p =>
    let cur := fwhdrSectionParser fw p.pos p.binPtr
    parseSections fw count ⟨p.pos+fwhdrSectionLen,p.binPtr+cur.len,p.reads ++ [p.pos+4,p.pos],p.sections ++ [cur]⟩

theorem parse_count (count : Nat) (p : Parse) :
    (parseSections fw count p).sections.length = p.sections.length + count := by
  induction count generalizing p with
  | zero => rfl
  | succ count ih =>
    rw [parseSections,ih]
    simp only [length_append,length_singleton]
    omega

def sectionNum : Nat := (getField (dword fw 24) fwhdrSecNum).toNat
def hdrLen : Nat := fwhdrHdrLen + sectionNum fw*fwhdrSectionLen

def fillPartSz : Nat → U8 := put fw 28 (leBytes (setClrWord (dword fw 28) (BitVec.ofNat 32 fwdlSectionPerPktLen) fwhdrFwPartSz))

def sectionsOf : Parse := parseSections (fillPartSz fw) (sectionNum fw) ⟨fwhdrHdrLen,hdrLen fw,[24,28,8],[]⟩

def fwhdrInfo : FwBinInfo where
  sectionNum := sectionNum fw
  hdrLen := hdrLen fw
  gitIdx := getField (dword (fillPartSz fw) 8) fwhdrCommitid
  sectionInfo := (sectionsOf fw).sections
  counted := (parse_count _ _ _).trans (Nat.zero_add _)
end

structure Parsed where
  ret : MacRet
  fw : Option (Nat → U8)
  info : Option FwBinInfo
  reads : List Nat

-- `none` is a NULL image; `info` is the address of a local of the callers.
def fwhdrParser (fw : Option (Nat → U8)) (len : Nat) : Parsed :=
  match fw with
  | none => ⟨.noItem,none,none,[]⟩
  | some fw =>
    if len = 0 then ⟨.bufSz,some fw,none,[]⟩
    else
      let parse := sectionsOf fw
      ⟨if len ≠ parse.binPtr then .fwBin else .success,some (fillPartSz fw),some (fwhdrInfo fw),parse.reads⟩

structure Dl where
  section_ : Nat
  residueLen : Nat
  sent : List (List U8)
  ret : MacRet

def Dl.more (d : Dl) : Bool := d.residueLen != 0 && d.ret == .success

def Dl.body (fw : Nat → U8) (fails : Nat → Option MacRet) (d : Dl) : Dl :=
  let pktLen := if d.residueLen ≥ fwdlSectionPerPktLen then fwdlSectionPerPktLen else d.residueLen
  match fails d.sent.length with
  | some ret => {d with ret}
  | none => ⟨d.section_+pktLen,d.residueLen-pktLen,d.sent ++ [bytesAt fw d.section_ pktLen],.success⟩

def sectionsDownload (fw : Nat → U8) (fails : Nat → Option MacRet) (info : FwhdrSectionInfo) (sent : List (List U8)) : Dl :=
  iterate Dl.more (Dl.body fw fails) info.len ⟨info.addr,info.len,sent,.success⟩

def downloadSections (fw : Nat → U8) (fails : Nat → Option MacRet) (redl : Bool) :
    List FwhdrSectionInfo → List (List U8) → MacRet × List (List U8)
  | [],sent => (.success,sent)
  | info::rest,sent =>
    if !redl || info.redl then
      let d := sectionsDownload fw fails info sent
      if d.ret ≠ .success then (d.ret,d.sent) else downloadSections fw fails redl rest d.sent
    else downloadSections fw fails redl rest sent

inductive FwdlState where
  | idle
  | cpuOn
  | h2cPathRdy
  | pathRdy
  | initRdy
  deriving DecidableEq,Repr

def checkFwRdy (polls : Nat → Nat) : MacRet :=
  if (range (fwdlWaitCnt-1)).any (fun k => polls k == 7) then .success
  else
    match polls (fwdlWaitCnt-2) with
    | 2 => .fwChkSum
    | 3 => .fwSecBoot
    | 4 => .fwCut
    | _ => .pollTo

def fwdlPhase2 (state : FwdlState) (fw : Nat → U8) (info : FwBinInfo) (redl : Bool) (fails : Nat → Option MacRet)
    (polls : Nat → Nat) : MacRet × FwdlState × List (List U8) :=
  if state ≠ .pathRdy then (.procErr,state,[])
  else
    let (ret,sent) := downloadSections fw fails redl info.sectionInfo []
    if ret ≠ .success then (ret,state,sent)
    else
      let ret := checkFwRdy polls
      (ret,if ret = .success then .initRdy else state,sent)

-- The write loops as a machine: at the test of the outer loop, at the test of
-- the inner one, and behind them. The counters are `u32`.
inductive Pc where
  | outer
  | inner
  | done
  deriving DecidableEq,Repr

structure WriteState where
  pc : Pc
  dlSize : Nat
  targetAddr : Nat
  segSize : Nat
  segBytes : Nat
  writeAddr : Nat
  index : Nat
  reads : List Nat
  regs : List (Nat × U32)

def writeStep (content : Nat → U8) (s : WriteState) : WriteState :=
  match s.pc with
  | .outer =>
    if s.dlSize = 0 then {s with pc:=.done}
    else
      let segSize := if s.dlSize ≥ romdlSegLen then romdlSegLen else s.dlSize
      {s with
        pc := .inner,segSize,segBytes := segSize,writeAddr := rAxIndirAccessEntry
        regs := s.regs ++ [(rAxFilterModelAddr,BitVec.ofNat 32 s.targetAddr)]}
  | .inner =>
    if s.segBytes = 0 then
      {s with pc:=.outer,targetAddr:=(s.targetAddr+s.segSize) % 0x100000000,dlSize:=s.dlSize - s.segSize}
    else
      {s with
        segBytes := (s.segBytes + 0xfffffffc) % 0x100000000
        writeAddr := (s.writeAddr+4) % 0x100000000
        index := (s.index+4) % 0x100000000
        reads := s.reads ++ [s.index]
        regs := s.regs ++ [(s.writeAddr,dword content s.index)]}
  | .done => s

structure WriteAnswers where
  entry : U32
  entry4 : U32
  block : Option (Nat → U8)

inductive WriteMemory where
  | ret (ret : MacRet)
  | loops (content : Nat → U8) (start : WriteState)

def writeMemory (answers : WriteAnswers) (buffer : Nat → U8) (addr len : Nat) : WriteMemory :=
  if answers.entry ≠ 0xAAAAAAAA then .ret .memRo
  else if answers.entry4 ≠ 0xBBBBBBBB then .ret .memRo
  else
    match answers.block with
    | none => .ret .noBuf
    | some block => .loops (put block 0 (bytesAt buffer 0 len)) ⟨.outer,len,addr,0,0,0,0,[],[]⟩
end Rtl8852au.Fwdl
