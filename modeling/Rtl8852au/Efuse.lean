import Rtl8852au.EfuseParser
import Rtl8852au.Fallible

namespace Rtl8852au.Efuse
open Fallible Prog

inductive Bank where
  | wifi
  | bt
  deriving DecidableEq,Repr

inductive Intf where
  | pcie
  | usb
  | sdio
  deriving DecidableEq,Repr

structure HwInfo where
  intf : Intf
  wlEfuseSize : Nat
  efuseSize : Nat
  logEfuseSize : Nat
  limitEfuseSize : Intf → Nat
  btEfuseSize : Nat
  btLogEfuseSize : Nat
  secCtrlEfuseSize : Nat
  secDataEfuseSize : Nat
  efuseVersionSize : Nat
  distinct : logEfuseSize ≠ btLogEfuseSize
  logBlocks : logEfuseSize % 16 = 0 ∧ logEfuseSize ≤ 2048
  btLogBlocks : btLogEfuseSize % 16 = 0 ∧ btLogEfuseSize ≤ 1024
  limitBlocks : ∀ i, limitEfuseSize i % 16 = 0 ∧ limitEfuseSize i ≤ logEfuseSize ∧ limitEfuseSize i ≠ btLogEfuseSize
  secCtrlInside : secCtrlEfuseSize ≤ efuseSize

def mac8852aHwInfo (intf : Intf) : HwInfo where
  intf := intf
  wlEfuseSize := 1536
  efuseSize := 1216
  logEfuseSize := 1536
  limitEfuseSize i := match i with
    | .pcie => 1152
    | .usb => 1152
    | .sdio => 1184
  btEfuseSize := 512
  btLogEfuseSize := 1024
  secCtrlEfuseSize := 4
  secDataEfuseSize := 192
  efuseVersionSize := 6
  distinct := by decide
  logBlocks := by decide
  btLogBlocks := by decide
  limitBlocks i := by cases i <;> decide
  secCtrlInside := by decide

section
variable (hw : HwInfo)

def HwInfo.phyMapSize : Bank → Nat
  | .wifi => hw.efuseSize
  | .bt => hw.btEfuseSize

def HwInfo.logMapSize : Bank → Nat
  | .wifi => hw.logEfuseSize
  | .bt => hw.btLogEfuseSize

def HwInfo.shape (bank : Bank) : Shape :=
  let isBt := hw.logMapSize bank == hw.btLogEfuseSize
  {phySize:=hw.phyMapSize bank,logSize:=hw.logMapSize bank,start:=if isBt then 0 else hw.secCtrlEfuseSize,isBt}

-- `cells` and `requests` are the hardware: the fuses, and the write commands
-- the driver has issued for them.
structure BankState where
  cells : Bytes
  requests : List (Nat × UInt8)
  phyMap : Option Bytes
  phyMapValid : Bool
  logMap : Option Bytes
  logMapValid : Bool
  efuseEnd : Nat

inductive SmEfuse where
  | idle
  | phy
  | logMap
  | logMask
  deriving DecidableEq,Repr

structure Adapter where
  bank : Bank → BankState
  cellSel : Bank
  info : Bank
  efuse : SmEfuse
  fwdlReady : Bool
  autoCkEn : Bool
  otpTest : Bool

def Adapter.setBank (s : Adapter) (bank : Bank) (state : BankState) : Adapter :=
  {s with bank:=Function.update s.bank bank state}

inductive MapSel where
  | phy (bank : Bank)
  | log (bank : Bank)
  deriving DecidableEq,Repr

inductive Buffer where
  | dump
  | localMap
  | map
  | maskMap
  | updatedMask
  | caller
  deriving DecidableEq,Repr

inductive MacRet where
  | procBusy
  | procErr
  | efuseBank
  | efuseSize
  | efuseRead
  | efuseWrite
  | efuseParse
  | bufAlloc
  | nptr
  | verErr
  | noFw
  | chksumEmpty
  | chksumFail
  | other (code : Nat)
  deriving DecidableEq,Repr

inductive Compare where
  | same
  | different
  | timeout
  deriving DecidableEq,Repr

-- How hardware, firmware and allocator answer during one call. `unburned` are
-- the bits a timed out write command has not reached, `heap` and `beyond` what
-- stands in a fresh buffer and behind the end of one.
structure Env where
  btState : Bool
  selects : Bank → Bool
  mapAlloc : MapSel → Bool
  alloc : Buffer → Bool
  readRdy : Nat → Bool
  writeRdy : Nat → Bool
  unburned : Nat → UInt8
  compare : Nat → Compare
  dumpEfuseOfld : Option MacRet
  efuseOfldMap : Option MacRet
  fwMap : Bytes → Bytes
  procMsgReg : Option MacRet
  heap : Bytes
  beyond : Nat → UInt8

-- A `fault` is a null pointer or a copy out of bounds: the call never returns.
inductive Stop where
  | ret (code : MacRet)
  | fault
  deriving DecidableEq,Repr

abbrev Call := Prog Adapter Stop
def require (holds : Bool) (code : MacRet) : Call Unit := check holds (.ret code)

def answered : Option MacRet → Call Unit
  | none => pure ()
  | some code => fail (.ret code)

def current : Call BankState := do
  let s ← look
  pure (s.bank s.info)

def updateCurrent (f : BankState → BankState) : Call Unit := change fun s => s.setBank s.info (f (s.bank s.info))

def deref : Option α → Call α
  | none => fail .fault
  | some a => pure a

def efuseProcCk : Call Unit := do
  let s ← look
  require (s.efuse == .idle) .procBusy

def cnvEfuseState (destState : SmEfuse) : Call Unit := do
  let s ← look
  require (!(s.efuse == destState)) .procErr
  require (destState == .idle || s.efuse == .idle) .procErr
  change fun s => {s with efuse:=destState}

-- `if (ret != 0) { stat = cnv_efuse_state(IDLE); if (stat != 0) return stat; return ret; }`
def orIdle (m : Call α) : Call α := handle m fun
  | .fault => fail .fault
  | .ret code => do
    cnvEfuseState .idle
    fail (.ret code)

section
variable (env : Env)

def switchEfuseBank (bank : Bank) : Call Unit := do
  require (bank == .wifi || env.btState) .efuseBank
  let s ← look
  onlyIf (s.cellSel != bank) do
    require (env.selects bank) .efuseBank
    change fun s => {s with cellSel:=bank}
  change fun s => {s with info:=bank}

def efuseMapInit (sel : MapSel) : Call Unit := do
  let s ← look
  match sel with
  | .phy bank =>
    onlyIf (s.bank bank).phyMap.isNone do
      require (env.mapAlloc sel) .bufAlloc
      change fun s => s.setBank bank {s.bank bank with phyMap:=some env.heap}
  | .log bank =>
    onlyIf (s.bank bank).logMap.isNone do
      require (env.mapAlloc sel) .bufAlloc
      change fun s => s.setBank bank {s.bank bank with logMap:=some env.heap}

def bounded (size : Nat) (beyond : Nat → UInt8) (map : Bytes) : Bytes := fun a => if a < size then map a else beyond a

def readHwEfuse (offset size : Nat) : Call Bytes := do
  require ((List.range size).all fun i => env.readRdy (offset+i)) .efuseRead
  let s ← look
  pure fun a => (s.bank s.cellSel).cells (offset+a)

def burn (offset : Nat) (value : UInt8) (state : BankState) : BankState :=
  let reached := if env.writeRdy offset then value else value ||| env.unburned offset
  {state with
    cells := Function.update state.cells offset (state.cells offset &&& reached)
    requests := state.requests ++ [(offset,value)]}

def writeHwEfuse (offset : Nat) (value : UInt8) : Call Unit := do
  updateCurrent fun b => {b with phyMapValid:=false,logMapValid:=false}
  change fun s => s.setBank s.cellSel (burn env offset value (s.bank s.cellSel))
  require (env.writeRdy offset) .efuseWrite
  let s ← look
  onlyIf s.autoCkEn do
    let valueRead ← readHwEfuse env offset 1
    require (valueRead 0 == value) .efuseWrite

def writeBytes (env : Env) : Nat → List UInt8 → Call Unit
  | _,[] => pure ()
  | offset,byte :: rest => do
    writeHwEfuse env offset byte
    writeBytes env (offset+1) rest

def storePhyMap (map : Bytes) : Call Unit := do
  let b ← current
  let _ ← deref b.phyMap
  updateCurrent fun b => {b with phyMap:=some map,phyMapValid:=true}

def storeLogMap (map : Bytes) : Call Unit := do
  let b ← current
  let _ ← deref b.logMap
  updateCurrent fun b => {b with logMap:=some map,logMapValid:=true}

-- `eeprom_parser` on a map of the selected bank; the index behind the last
-- entry goes to `efuse_end`.
def parse (phyMap : Bytes) (cfg : ParserCfg) : Call Bytes := do
  let s ← look
  match eepromParser (hw.shape s.info) (bounded (hw.phyMapSize s.info) env.beyond phyMap) cfg with
  | .error _ => fail (.ret .efuseParse)
  | .ok c =>
    updateCurrent fun b => {b with efuseEnd:=c.efuseIdx}
    pure c.logMap

def readEfuse (offset size : Nat) : Call Bytes := do
  let b ← current
  if b.phyMapValid then
    let phyMap ← deref b.phyMap
    pure fun a => phyMap (offset+a)
  else readHwEfuse env offset size

def readLogEfuseMap : Call Bytes := do
  let s ← look
  let b ← current
  if b.logMapValid then deref b.logMap
  else
    onlyIf (!b.phyMapValid) do
      require (env.alloc .localMap) .bufAlloc
      let localMap ← readEfuse env 0 (hw.phyMapSize s.info)
      storePhyMap localMap
    let b ← current
    let phyMap ← deref b.phyMap
    let map ← parse hw env phyMap .map
    storeLogMap map
    pure map

inductive ReadCfg where
  | auto
  | drv
  | fw
  deriving DecidableEq,Repr

def dumpEfuseDrv : Call Unit := do
  let s ← look
  let b ← current
  onlyIf (!b.phyMapValid) do
    require (env.alloc .dump) .bufAlloc
    let map ← readHwEfuse env 0 (hw.phyMapSize s.info)
    storePhyMap map

def dumpEfuseFw : Call Unit := do
  let s ← look
  let b ← current
  onlyIf (!b.phyMapValid) do
    answered env.dumpEfuseOfld
    require (env.alloc .dump) .bufAlloc
    answered env.efuseOfldMap
    storePhyMap (env.fwMap (s.bank s.cellSel).cells)

def procDumpEfuse (cfg : ReadCfg) : Call Unit := do
  let s ← look
  match cfg with
  | .auto => if s.fwdlReady then dumpEfuseFw env else dumpEfuseDrv hw env
  | .fw => dumpEfuseFw env
  | .drv => dumpEfuseDrv hw env

def copyOut (map : Bytes) (offset size : Nat) : List UInt8 := (List.range size).map fun i => map (offset+i)

-- `query_status_map`, for its two features.
def queryPhyMap : Call (List UInt8) := do
  let s ← look
  let b ← current
  let map ← deref b.phyMap
  pure (copyOut map 0 (hw.phyMapSize s.info))

def queryLogMap (isLimit : Bool) : Call (List UInt8) := do
  let s ← look
  let b ← current
  let map ← deref b.logMap
  pure (copyOut map 0 (if isLimit then hw.limitEfuseSize hw.intf else hw.logMapSize s.info))

def procWriteLogEfuse (offset : Nat) (value : UInt8) : Call Unit := do
  require (env.alloc .map) .bufAlloc
  let s ← look
  let logMap ← readLogEfuseMap hw env
  let map := bounded (hw.logMapSize s.info) env.beyond logMap
  let isBt := hw.logMapSize s.info == hw.btLogEfuseSize
  onlyIf (map offset != value) do
    let b ← current
    let blkIdx := (offset &&& 7) >>> 1
    let hdr := entryHeader isBt offset ((1 <<< UInt8.ofNat blkIdx) ^^^ 0x0F)
    let word := if offset &&& 1 = 0 then [value,map (offset+1)] else [map (offset-1),value]
    require (!(hw.phyMapSize s.info ≤ 4 + b.efuseEnd)) .efuseSize
    writeBytes env b.efuseEnd (hdr ++ word)
end
end

end Rtl8852au.Efuse
