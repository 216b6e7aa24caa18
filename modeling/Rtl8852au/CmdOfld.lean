import Mathlib.Logic.Function.Basic
import Rtl8852au.BitField

namespace Rtl8852au.CmdOfld
open BitField

abbrev cmdOfldMaxLen : Nat := 2000
abbrev cmdOfldSize : Nat := 16
abbrev h2cLongDataLen : Nat := 2048

inductive Src where
  | bb | rf | mac | other
  deriving DecidableEq

inductive CmdType where
  | write | compare | delay
  deriving DecidableEq

inductive RfPath where
  | a | b | c | d
  deriving DecidableEq

def Src.word : Src → BitVec 32
  | .bb => 0 | .rf => 1 | .mac => 2 | .other => 3

def CmdType.word : CmdType → BitVec 32
  | .write => 0 | .compare => 1 | .delay => 2

def RfPath.word : RfPath → BitVec 32
  | .a => 0 | .b => 1 | .c => 2 | .d => 3

structure RtwMacCmd where
  src : Src
  type : CmdType
  lc : BitVec 8
  rfPath : RfPath
  offset : BitVec 16
  name : BitVec 16
  value : BitVec 32
  mask : BitVec 32

structure FwcmdCmdOfld where
  dword0 : BitVec 32
  dword1 : BitVec 32
  dword2 : BitVec 32
  dword3 : BitVec 32

namespace Fwcmd
def src : Field 32 := ⟨0x3,0⟩
def type : Field 32 := ⟨0x3,2⟩
def lc : Field 32 := ⟨0x1,4⟩
def path : Field 32 := ⟨0x3,5⟩
def cmdNum : Field 32 := ⟨0x7f,8⟩
def offset : Field 32 := ⟨0xffff,16⟩
def name : Field 32 := ⟨0xffff,0⟩
def value : Field 32 := ⟨0xffffffff,0⟩
def mask : Field 32 := ⟨0xffffffff,0⟩
end Fwcmd

def fwcmdLc : BitVec 32 := 1 <<< 4

def RtwMacCmd.record (cmd : RtwMacCmd) (cmdNum : BitVec 32) : FwcmdCmdOfld where
  dword0 := setWord cmd.src.word Fwcmd.src ||| setWord cmd.type.word Fwcmd.type |||
    (if cmd.lc ≠ 0 then fwcmdLc else 0) ||| setWord cmd.rfPath.word Fwcmd.path |||
    setWord (cmd.offset.zeroExtend 32) Fwcmd.offset ||| setWord cmdNum Fwcmd.cmdNum
  dword1 := setWord (cmd.name.zeroExtend 32) Fwcmd.name
  dword2 := setWord cmd.value Fwcmd.value
  dword3 := setWord cmd.mask Fwcmd.mask

-- The write through last_wptr: it is a byte pointer, at the low byte of `dword0`.
def FwcmdCmdOfld.patch (r : FwcmdCmdOfld) : FwcmdCmdOfld := {r with dword0:=r.dword0 ||| fwcmdLc}

inductive CmdState where
  | idle | proc | sending | rcvd
  deriving DecidableEq

inductive MacRet where
  | success | badAddr | noFw | procErr | nptr | bufAlloc | noBuf | txFail | pollTo | drvRm | fioOfld
  deriving DecidableEq

structure CmdOfldInfo where
  buf : Option (Nat → FwcmdCmdOfld)
  bufWptr : Nat
  lastWptr : Option Nat
  bufSize : Nat
  avlBufSize : Nat
  usedSize : Nat
  cmdNum : Nat
  accuDelay : BitVec 32

structure Ofld where
  info : CmdOfldInfo
  cmdState : CmdState
  reach : Nat
  taken : List RtwMacCmd
  sent : List (List FwcmdCmdOfld)
  asked : Nat

structure Platform where
  junk : Nat → FwcmdCmdOfld
  malloc : Nat → Bool
  alloc : Nat → Bool
  tx : Nat → Bool
  check : Nat → MacRet

def u16Sub (a b : Nat) : Nat := (a + (65536 - b)) % 65536
def u16Add (a b : Nat) : Nat := (a+b) % 65536

def CmdOfldInfo.fresh (junk : Nat → FwcmdCmdOfld) : CmdOfldInfo where
  buf := some junk
  bufWptr := 0
  lastWptr := none
  bufSize := cmdOfldMaxLen
  avlBufSize := cmdOfldMaxLen
  usedSize := 0
  cmdNum := 0
  accuDelay := 0

def CmdOfldInfo.write (info : CmdOfldInfo) (mem : Nat → FwcmdCmdOfld) (cmd : RtwMacCmd) : CmdOfldInfo where
  buf := some (Function.update mem info.bufWptr (cmd.record (BitVec.ofNat 32 info.cmdNum)))
  bufWptr := info.bufWptr + cmdOfldSize
  lastWptr := some info.bufWptr
  bufSize := info.bufSize
  avlBufSize := u16Sub info.avlBufSize cmdOfldSize
  usedSize := u16Add info.usedSize cmdOfldSize
  cmdNum := (info.cmdNum+1) % 256
  accuDelay := if cmd.type = .delay then info.accuDelay + cmd.value else info.accuDelay

def Ofld.write (o : Ofld) (info : CmdOfldInfo) (mem : Nat → FwcmdCmdOfld) (cmd : RtwMacCmd) : Ofld :=
  {o with
    info := info.write mem cmd
    reach := max o.reach (info.bufWptr+cmdOfldSize)
    taken := o.taken ++ [cmd]}

section
variable (plat : Platform)

def addCmd (o : Ofld) (cmd : RtwMacCmd) : Ofld × MacRet :=
  match o.info.buf with
  | some mem => (o.write o.info mem cmd,.success)
  | none => if plat.malloc o.asked then (o.write (.fresh plat.junk) plat.junk cmd,.success) else (o,.bufAlloc)

-- The bytes copied to the packet, `used_size` of them.
def CmdOfldInfo.payload (info : CmdOfldInfo) : List FwcmdCmdOfld :=
  match info.buf with
  | none => []
  | some mem => (List.range (info.usedSize / cmdOfldSize)).map (fun i => mem (i*cmdOfldSize))

def Ofld.freeBuf (o : Ofld) : Ofld := {o with info:={o.info with buf:=none}}

def transmit (o : Ofld) : Ofld × MacRet :=
  let n := o.asked
  let o := {o with asked:=n + 1}
  if ¬ plat.alloc n then (o,.nptr)
  else if o.info.usedSize > h2cLongDataLen then (o.freeBuf,.noBuf)
  else if ¬ plat.tx n then (o.freeBuf,.txFail)
  else ({o with sent:=o.sent ++ [o.info.payload]},.success)

def cmdOfld (o : Ofld) : Ofld × MacRet :=
  match transmit plat o with
  | (sent,.success) =>
    if plat.check o.asked = .success then ({sent with cmdState:=.rcvd}.freeBuf,.success)
    else ({sent with cmdState:=.sending}.freeBuf,plat.check o.asked)
  | failed => failed

def RtwMacCmd.misplaced (cmd : RtwMacCmd) : Prop := cmd.type ≠ .delay ∧ cmd.src ≠ .rf ∧ cmd.offset &&& 3 ≠ 0

instance : DecidablePred RtwMacCmd.misplaced := fun _ => inferInstanceAs (Decidable (_ ∧ _ ∧ _))

def CmdOfldInfo.close (info : CmdOfldInfo) (mem : Nat → FwcmdCmdOfld) (last : Nat) : CmdOfldInfo :=
  {info with buf:=some (Function.update mem last (mem last).patch)}

inductive Room where
  | fits
  | full (o : Ofld)
  | broken

def Ofld.room (o : Ofld) : Room :=
  match o.info.buf with
  | none => .fits
  | some mem =>
    if o.info.avlBufSize < cmdOfldSize then
      match o.info.lastWptr with
      | none => .broken
      | some last => .full {o with info:=o.info.close mem last, reach:=max o.reach (last+1)}
    else .fits

def makeRoom (o : Ofld) : Ofld × MacRet :=
  match o.room with
  | .fits => (o,.success)
  | .full o => cmdOfld plat o
  | .broken => (o,.nptr)

def issue (o : Ofld) (cmd : RtwMacCmd) : Ofld × MacRet :=
  match makeRoom plat o with
  | (o,.success) =>
    match addCmd plat o cmd with
    | (o,.success) => if cmd.lc = 0 then (o,.success) else cmdOfld plat o
    | failed => failed
  | failed => failed

def macAddCmdOfld (o : Ofld) (cmd : RtwMacCmd) (ready : Bool) : Ofld × MacRet :=
  if cmd.misplaced then (o,.badAddr)
  else if ¬ ready then (o,.noFw)
  else if o.cmdState ≠ .idle then (o,.procErr)
  else
    let (o,ret) := issue plat {o with cmdState:=.proc} cmd
    ({o with cmdState:=.idle},ret)

def Ofld.init : Ofld where
  info := ⟨none,0,none,0,0,0,0,0⟩
  cmdState := .idle
  reach := 0
  taken := []
  sent := []
  asked := 0

def run (calls : List (RtwMacCmd × Bool)) : Ofld := calls.foldl (fun o call => (macAddCmdOfld plat o call.1 call.2).1) .init
end

end Rtl8852au.CmdOfld
