import Rtl8852au.Efuse

namespace Rtl8852au.Efuse
open Fallible Prog Function List UInt8

structure PgArgs where
  efuseMap : Option Bytes
  efuseMapSize : Nat
  efuseMask : Option Bytes
  efuseMaskSize : Nat

structure PgInfo where
  efuseMap : Bytes
  efuseMapSize : Nat
  efuseMask : Bytes
  efuseMaskSize : Nat

-- The mask has the words of the first block of 16 bytes in its high nibble.
def wordBit (w : Nat) : UInt8 := if w < 4 then 1 <<< ofNat (w+4) else 1 <<< ofNat (w-4)

-- The two loops that clear bits of a mask walk it in the same way.
def clearWords (cond : Nat → Bool) (mapSize : Nat) (mask : Bytes) : Bytes :=
  (range (mapSize/16)).foldl (fun mask k =>
    (range 8).foldl (fun mask w => if cond (16*k+2*w) then update mask k (mask k &&& ~~~wordBit w) else mask) mask) mask

def sameWord (one two : Bytes) (offset : Nat) : Bool := one offset == two offset && one (offset+1) == two (offset+1)
def emptyWord (map : Bytes) (offset : Nat) : Bool := map offset == 0xFF && map (offset+1) == 0xFF

def adjustMask (info : PgInfo) : PgInfo :=
  {info with efuseMask:=clearWords (emptyWord info.efuseMap) info.efuseMapSize fun k =>
    if k < info.efuseMaskSize then 0xFF else info.efuseMask k}

def adjusted (info : PgInfo) (part : Bool) : PgInfo := if part then adjustMask info else info

-- Bytes written to a buffer with room for so many: past its end they go into
-- memory the driver does not own.
def within (size room : Nat) : Call Unit := check (size ≤ room) .fault

-- The cleared mask of a call, after the caller's own was copied into it.
def copiedMask (info : PgInfo) : Bytes := fun k => if k < info.efuseMaskSize then info.efuseMask k else 0x00

section
variable (hw : HwInfo) (env : Env)

section
variable (info : PgInfo)

def updateEepromMask (pgSim : Bool) : Call Bytes := do
  require (env.alloc .map) .bufAlloc
  let b ← current
  let map ← if pgSim then deref b.logMap else readLogEfuseMap hw env
  require (env.alloc .maskMap) .bufAlloc
  let b ← current
  let phyMap ← deref b.phyMap
  let maskMap ← parse hw env phyMap .mask
  within info.efuseMaskSize (info.efuseMapSize>>>4)
  pure (clearWords (fun offset => sameWord info.efuseMap map offset && maskMap offset == 0x00) info.efuseMapSize
    (copiedMask info))

def preWordEn (updatedMask : Bytes) (blk : Nat) : UInt8 :=
  if blk % 2 = 1 then updatedMask (blk/2) &&& 0x0F else updatedMask (blk/2) >>> 4

def pgWords (preWordEn : UInt8) : List Nat := [0,1,2,3].filter fun j => preWordEn.toNat.testBit j

def pgNum (info : PgInfo) (updatedMask : Bytes) : Nat :=
  (range (info.efuseMapSize/8)).foldl (fun pgNum blk =>
    let pre := preWordEn updatedMask blk
    if 0 < pre then pgNum + 2 + 2*(pgWords pre).length else pgNum) 0

def checkEfuseEnough (hw : HwInfo) (info : PgInfo) (updatedMask : Bytes) : Call Unit := do
  let s ← look
  let b ← current
  require (!(hw.phyMapSize s.info < pgNum info updatedMask + b.efuseEnd)) .efuseSize

def pgData (preWordEn : UInt8) (offset : Nat) : List UInt8 :=
  (pgWords preWordEn).flatMap fun i => [info.efuseMap (offset+2*i),info.efuseMap (offset+2*i+1)]

def simHeader : List UInt8 → List UInt8
  | [hdr] => [hdr,0xFF]
  | hdrs => hdrs

def putBytes : Nat → List UInt8 → Bytes → Bytes
  | _,[],map => map
  | idx,byte :: rest,map => putBytes (idx+1) rest (update map idx byte)

def procPgEfuse (pre : UInt8) (offset : Nat) (pgSim : Bool) : Call Unit := do
  let isBt := info.efuseMapSize == hw.btLogEfuseSize
  let hdr := entryHeader isBt offset (pre ^^^ 0x0F)
  let b ← current
  if pgSim then
    let efuseMap ← deref b.phyMap
    let bytes := simHeader hdr ++ pgData info pre offset
    updateCurrent fun b => {b with phyMap:=some (putBytes b.efuseEnd bytes efuseMap)}
    updateCurrent fun b => {b with efuseEnd:=b.efuseEnd + bytes.length}
  else
    let bytes := hdr ++ pgData info pre offset
    writeBytes env b.efuseEnd bytes
    updateCurrent fun b => {b with efuseEnd:=b.efuseEnd + bytes.length}

def programEfuse (updatedMask : Bytes) (pgSim : Bool) : Call Unit :=
  each (fun blk => do
    let pre := preWordEn updatedMask blk
    onlyIf (0 < pre) (procPgEfuse hw env info pre (8*blk) pgSim)) (range (info.efuseMapSize/8))

def procPgEfuseByMap : Call Unit := do
  require (env.alloc .updatedMask) .bufAlloc
  let updatedMask ← updateEepromMask hw env info false
  checkEfuseEnough hw info updatedMask
  programEfuse hw env info updatedMask false

def sameVersion (verLen : Nat) : Bool := (range verLen).all fun i =>
  info.efuseMap (info.efuseMapSize+i) == info.efuseMask ((info.efuseMapSize>>>4)+i)

def compareVersion (verLen : Nat) : Call Unit := require (sameVersion info verLen) .verErr
end
section
variable (args : PgArgs)

def checkPgArgs (mapSize : Nat) : Call PgInfo := do
  require (args.efuseMapSize == mapSize) .efuseSize
  require (args.efuseMapSize &&& 0xF == 0) .efuseSize
  require (args.efuseMaskSize == args.efuseMapSize>>>4) .efuseSize
  match args.efuseMap,args.efuseMask with
  | some efuseMap,some efuseMask => pure {efuseMap,efuseMapSize:=args.efuseMapSize,efuseMask,efuseMaskSize:=args.efuseMaskSize}
  | _,_ => fail (.ret .nptr)

def checkRead (cfg : ReadCfg) : Call Unit := do
  let s ← look
  require (!(cfg == .fw && !s.fwdlReady)) .noFw

def macDumpEfuseMapWl (cfg : ReadCfg) : Call (List UInt8) := do
  checkRead cfg
  efuseProcCk
  cnvEfuseState .phy
  orIdle (switchEfuseBank env .wifi)
  efuseMapInit env (.phy .wifi)
  orIdle (procDumpEfuse hw env cfg)
  let map ← queryPhyMap hw
  cnvEfuseState .idle
  pure map

def macDumpEfuseMapBt (cfg : ReadCfg) : Call (List UInt8) := do
  checkRead cfg
  efuseProcCk
  cnvEfuseState .phy
  orIdle (switchEfuseBank env .bt)
  efuseMapInit env (.phy .bt)
  orIdle (procDumpEfuse hw env cfg)
  let map ← queryPhyMap hw
  orIdle (switchEfuseBank env .wifi)
  cnvEfuseState .idle
  pure map

def otpPhySize : Nat := 0x800

def rawSize (hw : HwInfo) (s : Adapter) : Bank → Nat
  | .wifi => if s.otpTest then otpPhySize else hw.wlEfuseSize
  | .bt => hw.btEfuseSize

def macWriteEfuse (addr : UInt32) (val : UInt8) (bank : Bank) : Call Unit := do
  let s ← look
  require (addr.toNat < rawSize hw s bank) .efuseSize
  efuseProcCk
  cnvEfuseState .phy
  orIdle (switchEfuseBank env bank)
  orIdle (writeHwEfuse env addr.toNat val)
  onlyIf (bank == .bt) (orIdle (switchEfuseBank env .wifi))
  cnvEfuseState .idle

-- The sum of address and size is a `u32`. A size that wraps passes the check:
-- the loop over the fuses then makes no round, but a copy runs off its buffer.
def inRange (addr size : UInt32) (efuseSize : Nat) : Bool := addr.toNat < efuseSize && (addr+size).toNat ≤ efuseSize

def copyChecked (map : Bytes) (addr size : UInt32) (efuseSize : Nat) : Call (List UInt8) :=
  if addr.toNat + size.toNat ≤ efuseSize then pure (copyOut map addr.toNat size.toNat) else fail .fault

def macReadEfuse (addr size : UInt32) (bank : Bank) : Call (List UInt8) := do
  let s ← look
  require (inRange addr size (rawSize hw s bank)) .efuseSize
  efuseProcCk
  cnvEfuseState .phy
  orIdle (switchEfuseBank env bank)
  let count := (addr+size).toNat - addr.toNat
  let val ← orIdle (readHwEfuse env addr.toNat count)
  onlyIf (bank == .bt) (orIdle (switchEfuseBank env .wifi))
  cnvEfuseState .idle
  pure (copyOut val 0 count)

section
variable (parserCfg : ParserCfg) (cfg : ReadCfg)

-- What the two logical dumps do when the logical map is not valid.
def fillLogMap : Call Unit := do
  let b ← current
  onlyIf (!b.logMapValid) do
    orIdle (procDumpEfuse hw env cfg)
    let b ← current
    onlyIf b.phyMapValid do
      orIdle (require (env.alloc .map) .bufAlloc)
      let phyMap ← deref b.phyMap
      let map ← orIdle (parse hw env phyMap parserCfg)
      storeLogMap map

def macDumpLogEfuse (isLimit : Bool) :
    Call (List UInt8) := do
  checkRead cfg
  efuseProcCk
  cnvEfuseState .logMap
  orIdle (switchEfuseBank env .wifi)
  efuseMapInit env (.log .wifi)
  efuseMapInit env (.phy .wifi)
  fillLogMap hw env parserCfg cfg
  let map ← queryLogMap hw isLimit
  cnvEfuseState .idle
  pure map

def macDumpLogEfuseBt : Call (List UInt8) := do
  checkRead cfg
  efuseProcCk
  cnvEfuseState .logMap
  orIdle (switchEfuseBank env .bt)
  efuseMapInit env (.log .bt)
  efuseMapInit env (.phy .bt)
  fillLogMap hw env parserCfg cfg
  let map ← queryLogMap hw false
  orIdle (switchEfuseBank env .wifi)
  cnvEfuseState .idle
  pure map
end

def macGetEfuseAvlSize : Call UInt32 := do
  require (env.alloc .caller) .bufAlloc
  let _ ← macDumpLogEfuse hw env .map .auto false
  let s ← look
  pure (UInt32.ofNat hw.efuseSize - UInt32.ofNat (s.bank .wifi).efuseEnd)

def macGetEfuseAvlSizeBt : Call UInt32 := do
  require (env.alloc .caller) .bufAlloc
  let _ ← macDumpLogEfuseBt hw env .map .drv
  let s ← look
  pure (UInt32.ofNat hw.btEfuseSize - UInt32.ofNat (s.bank .bt).efuseEnd)

def macReadLogEfuse (addr size : UInt32) : Call (List UInt8) := do
  efuseProcCk
  cnvEfuseState .logMap
  orIdle (switchEfuseBank env .wifi)
  require (inRange addr size hw.logEfuseSize) .efuseSize
  efuseMapInit env (.phy .wifi)
  efuseMapInit env (.log .wifi)
  orIdle (require (env.alloc .map) .bufAlloc)
  let map ← orIdle (readLogEfuseMap hw env)
  let val ← copyChecked map addr size hw.logEfuseSize
  cnvEfuseState .idle
  pure val

def macWriteLogEfuse (addr : UInt32) (val : UInt8) : Call Unit := do
  efuseProcCk
  cnvEfuseState .logMap
  orIdle (switchEfuseBank env .wifi)
  require (addr.toNat < hw.logEfuseSize) .efuseSize
  efuseMapInit env (.phy .wifi)
  efuseMapInit env (.log .wifi)
  orIdle (procWriteLogEfuse hw env addr.toNat val)
  cnvEfuseState .idle

def macReadLogEfuseBt (addr size : UInt32) : Call (List UInt8) := do
  require (inRange addr size hw.btLogEfuseSize) .efuseSize
  efuseProcCk
  cnvEfuseState .logMap
  orIdle (switchEfuseBank env .bt)
  efuseMapInit env (.phy .bt)
  efuseMapInit env (.log .bt)
  orIdle (require (env.alloc .map) .bufAlloc)
  let map ← orIdle (readLogEfuseMap hw env)
  let val ← copyChecked map addr size hw.btLogEfuseSize
  orIdle (switchEfuseBank env .wifi)
  cnvEfuseState .idle
  pure val

-- The address is checked against the logical size of the WLAN bank.
def macWriteLogEfuseBt (addr : UInt32) (val : UInt8) : Call Unit := do
  require (addr.toNat < hw.logEfuseSize) .efuseSize
  efuseProcCk
  cnvEfuseState .logMap
  orIdle (switchEfuseBank env .bt)
  efuseMapInit env (.phy .bt)
  efuseMapInit env (.log .bt)
  orIdle (procWriteLogEfuse hw env addr.toNat val)
  orIdle (switchEfuseBank env .wifi)
  cnvEfuseState .idle

def pgMapSize (hw : HwInfo) (isLimit : Bool) : Nat := if isLimit then hw.limitEfuseSize hw.intf else hw.logEfuseSize

def macPgEfuseByMap (part isLimit : Bool) : Call Unit := do
  let info ← checkPgArgs args (pgMapSize hw isLimit)
  compareVersion info hw.efuseVersionSize
  efuseProcCk
  cnvEfuseState .phy
  orIdle (switchEfuseBank env .wifi)
  efuseMapInit env (.phy .wifi)
  efuseMapInit env (.log .wifi)
  orIdle (procPgEfuseByMap hw env (adjusted info part))
  cnvEfuseState .idle

-- No map is allocated here.
def macPgEfuseByMapBt : Call Unit := do
  let info ← checkPgArgs args hw.btLogEfuseSize
  efuseProcCk
  cnvEfuseState .phy
  orIdle (switchEfuseBank env .bt)
  orIdle (procPgEfuseByMap hw env info)
  orIdle (switchEfuseBank env .wifi)
  cnvEfuseState .idle

def maskEeprom (info : PgInfo) : Bytes :=
  (range (info.efuseMapSize/8)).foldl (fun map blk =>
    (range 4).foldl (fun map j =>
      if (preWordEn info.efuseMask blk).toNat.testBit j then map
      else update (update map (8*blk+2*j) 0xFF) (8*blk+2*j+1) 0xFF) map) info.efuseMap

def macMaskLogEfuse (hw : HwInfo) (args : PgArgs) : Call Bytes := do
  let info ← checkPgArgs args hw.logEfuseSize
  pure (maskEeprom info)

def macAddrSize : Nat := 6

def macPgSecDataByMap : Call Unit := do
  require (args.efuseMapSize == hw.secDataEfuseSize) .efuseSize
  match args.efuseMap with
  | none => fail (.ret .nptr)
  | some mapPg => do
    efuseProcCk
    cnvEfuseState .phy
    orIdle (switchEfuseBank env .wifi)
    each (fun i => orIdle (writeHwEfuse env (macAddrSize + i + hw.efuseSize) (mapPg (macAddrSize+i))))
      (range (hw.secDataEfuseSize-macAddrSize))
    cnvEfuseState .idle

-- A timeout leaves the state and goes on with the next two bytes.
def cmpSecData (env : Env) (startAddr : Nat) : List Nat → Bytes → Call Bytes
  | [],mapPg => pure mapPg
  | k :: rest,mapPg =>
    let put (value : UInt8) := update (update mapPg (2*k) value) (2*k+1) value
    match env.compare (2*k+startAddr) with
    | .different => cmpSecData env startAddr rest (put 0xFF)
    | .same => cmpSecData env startAddr rest (put 0x00)
    | .timeout => do
      cnvEfuseState .idle
      cmpSecData env startAddr rest mapPg

def macCmpSecDataByMap : Call Bytes := do
  require (args.efuseMapSize == hw.secDataEfuseSize) .efuseSize
  match args.efuseMap with
  | none => fail (.ret .nptr)
  | some mapPg => do
    efuseProcCk
    cnvEfuseState .phy
    orIdle (switchEfuseBank env .wifi)
    let mapPg ← cmpSecData env hw.efuseSize (range ((hw.secDataEfuseSize+1)/2)) mapPg
    cnvEfuseState .idle
    pure mapPg

def macReadHiddenRpt (env : Env) : Call Unit := do
  efuseProcCk
  cnvEfuseState .phy
  orIdle (switchEfuseBank env .wifi)
  efuseMapInit env (.phy .wifi)
  orIdle (answered env.procMsgReg)
  cnvEfuseState .idle

-- The first parse goes into the bank's own logical map, also when it fails.
def parseInPlace (phyMap : Bytes) : Call Unit := do
  let s ← look
  match eepromParser (hw.shape s.info) (bounded (hw.phyMapSize s.info) env.beyond phyMap) .map with
  | .error logMap =>
    updateCurrent fun b => {b with logMap:=some logMap}
    fail (.ret .efuseParse)
  | .ok c => updateCurrent fun b => {b with logMap:=some c.logMap,efuseEnd:=c.efuseIdx}

def simMapSize (hw : HwInfo) (size : Nat) : Nat := if size ≠ hw.logEfuseSize then hw.limitEfuseSize hw.intf else hw.logEfuseSize

-- The mask size is not checked, and the last parse clears a map of the whole
-- logical size also where the caller's is a limited one.
def macPgSimulator (phyMap : Bytes) : Call (Bytes × Bytes) := do
  require (args.efuseMapSize == simMapSize hw args.efuseMapSize) .efuseSize
  let efuseMap ← deref args.efuseMap
  let efuseMask ← deref args.efuseMask
  let info : PgInfo := {efuseMap,efuseMapSize:=args.efuseMapSize,efuseMask,efuseMaskSize:=args.efuseMaskSize}
  compareVersion info hw.efuseVersionSize
  switchEfuseBank env .wifi
  efuseMapInit env (.phy .wifi)
  efuseMapInit env (.log .wifi)
  parseInPlace hw env phyMap
  updateCurrent fun b => {b with phyMap:=some phyMap}
  require (env.alloc .updatedMask) .bufAlloc
  let updatedMask ← updateEepromMask hw env info true
  checkEfuseEnough hw info updatedMask
  programEfuse hw env info updatedMask true
  let b ← current
  let phyMap ← deref b.phyMap
  let s ← look
  within (hw.logMapSize s.info) (info.efuseMapSize + hw.efuseVersionSize)
  let logMap ← parse hw env phyMap .map
  updateCurrent fun b => {b with logMapValid:=false,phyMapValid:=false}
  pure (phyMap,logMap)
end

def chksumOffset1 : Nat := 0x1AC
def chksumOffset2 : Nat := 0x1AD
def dataWord (map : Bytes) (k : Nat) : UInt16 := (map (2*k)).toUInt16 ||| ((map (2*k+1)).toUInt16 <<< 8)

def calCheckSum (hw : HwInfo) (map : Bytes) : UInt16 :=
  (range (hw.logEfuseSize>>>2)).foldl (fun chksum i =>
    if i = chksumOffset1>>>2 then chksum ^^^ (0x0000 ^^^ dataWord map (2*i+1))
    else chksum ^^^ (dataWord map (2*i) ^^^ dataWord map (2*i+1))) 0x0000

def chksumEntry (offset : Nat) (byte1 byte2 : UInt8) : List UInt8 :=
  entryHeader false offset (((1 : UInt8) <<< ofNat ((offset &&& 7) >>> 1)) ^^^ 0x0F) ++ [byte1,byte2]

def setCheckSumVal (map : Bytes) (value : UInt16) : Call Unit := do
  let s ← look
  let b ← current
  let low := (value &&& 0xFF).toUInt8
  let high := ((value &&& 0xFF00) >>> 8).toUInt8
  require (!(hw.phyMapSize s.info ≤ 4 + b.efuseEnd)) .efuseSize
  writeBytes env b.efuseEnd (chksumEntry chksumOffset1 low (map (chksumOffset1+1)))
  require (!(hw.phyMapSize s.info ≤ 4 + (b.efuseEnd+4))) .efuseSize
  writeBytes env (b.efuseEnd+4) (chksumEntry chksumOffset2 low high)

def macChecksumUpdate : Call Unit := do
  require (env.alloc .caller) .bufAlloc
  let map ← macDumpLogEfuse hw env .map .auto false
  let s ← look
  let logMap ← deref (s.bank .wifi).logMap
  setCheckSumVal hw env (fun i => map.getD i 0xFF) (calCheckSum hw logMap)

def macChecksumRpt (hw : HwInfo) (first second : Env) : Call UInt16 := do
  require (first.alloc .caller) .bufAlloc
  let tmp ← macReadLogEfuse hw first (UInt32.ofNat chksumOffset1) 2
  let realChksum := dataWord (fun i => tmp.getD i 0) 0
  require (!(realChksum == 0xFFFF)) .chksumEmpty
  require (second.alloc .caller) .bufAlloc
  let _ ← macReadLogEfuse hw second 0 (UInt32.ofNat hw.logEfuseSize)
  let s ← look
  let logMap ← deref (s.bank .wifi).logMap
  let chksum := calCheckSum hw logMap
  require (chksum == realChksum) .chksumFail
  pure chksum

-- The public operations that touch the caches, the fuses or `sm.efuse`.
inductive Op where
  | dumpEfuseMapWl (cfg : ReadCfg)
  | dumpEfuseMapBt (cfg : ReadCfg)
  | writeEfuse (addr : UInt32) (val : UInt8) (bank : Bank)
  | readEfuse (addr size : UInt32) (bank : Bank)
  | getEfuseAvlSize
  | getEfuseAvlSizeBt
  | dumpLogEfuse (parserCfg : ParserCfg) (cfg : ReadCfg) (isLimit : Bool)
  | readLogEfuse (addr size : UInt32)
  | writeLogEfuse (addr : UInt32) (val : UInt8)
  | dumpLogEfuseBt (parserCfg : ParserCfg) (cfg : ReadCfg)
  | readLogEfuseBt (addr size : UInt32)
  | writeLogEfuseBt (addr : UInt32) (val : UInt8)
  | pgEfuseByMap (args : PgArgs) (part isLimit : Bool)
  | pgEfuseByMapBt (args : PgArgs)
  | maskLogEfuse (args : PgArgs)
  | pgSecDataByMap (args : PgArgs)
  | cmpSecDataByMap (args : PgArgs)
  | readHiddenRpt
  | pgSimulator (args : PgArgs) (phyMap : Bytes)
  | checksumUpdate
  | checksumRpt (second : Env)
  | otpTest (isOtpTest : Bool)

def discard (m : Call α) : Call Unit := m >>= fun _ => pure ()

def Op.call : Op → Call Unit
  | .dumpEfuseMapWl cfg => discard (macDumpEfuseMapWl hw env cfg)
  | .dumpEfuseMapBt cfg => discard (macDumpEfuseMapBt hw env cfg)
  | .writeEfuse addr val bank => macWriteEfuse hw env addr val bank
  | .readEfuse addr size bank => discard (macReadEfuse hw env addr size bank)
  | .getEfuseAvlSize => discard (macGetEfuseAvlSize hw env)
  | .getEfuseAvlSizeBt => discard (macGetEfuseAvlSizeBt hw env)
  | .dumpLogEfuse parserCfg cfg isLimit => discard (macDumpLogEfuse hw env parserCfg cfg isLimit)
  | .readLogEfuse addr size => discard (macReadLogEfuse hw env addr size)
  | .writeLogEfuse addr val => macWriteLogEfuse hw env addr val
  | .dumpLogEfuseBt parserCfg cfg => discard (macDumpLogEfuseBt hw env parserCfg cfg)
  | .readLogEfuseBt addr size => discard (macReadLogEfuseBt hw env addr size)
  | .writeLogEfuseBt addr val => macWriteLogEfuseBt hw env addr val
  | .pgEfuseByMap args part isLimit => macPgEfuseByMap hw env args part isLimit
  | .pgEfuseByMapBt args => macPgEfuseByMapBt hw env args
  | .maskLogEfuse args => discard (macMaskLogEfuse hw args)
  | .pgSecDataByMap args => macPgSecDataByMap hw env args
  | .cmpSecDataByMap args => discard (macCmpSecDataByMap hw env args)
  | .readHiddenRpt => macReadHiddenRpt env
  | .pgSimulator args phyMap => discard (macPgSimulator hw env args phyMap)
  | .checksumUpdate => macChecksumUpdate hw env
  | .checksumRpt second => discard (macChecksumRpt hw env second)
  | .otpTest isOtpTest => change fun s => {s with otpTest:=isOtpTest}
end

def opStep (hw : HwInfo) (s : Adapter) (event : Env × Op) : Adapter := (event.2.call hw event.1 s).2
end Rtl8852au.Efuse
