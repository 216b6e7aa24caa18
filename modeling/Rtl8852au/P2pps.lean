import Rtl8852au.Machine

namespace Rtl8852au.P2pps
open Function

inductive P2ppsTrigTag where
  | go
  | gc
  | gc255
  | mcc
  deriving DecidableEq,Repr

def slots : List P2ppsTrigTag := [.go,.gc,.gc255,.mcc]

structure NoaDesc where
  enable : Bool
  wRole : Bool
  tag : P2ppsTrigTag
  startTH : UInt32
  startTL : UInt32
  interval : UInt32
  duration : UInt32
  count : UInt8
  noaId : UInt8
  deriving DecidableEq,Repr

def zeroDesc : NoaDesc := ⟨false,false,.go,0,0,0,0,0,0⟩
def noaidNone : UInt8 := 0xFF

inductive HalStatus where
  | success
  | resource
  | failure
  deriving DecidableEq,Repr

inductive PhlStatus where
  | success
  | resource
  | failure
  deriving DecidableEq,Repr

structure NoaInfo where
  enDescNum : UInt8
  paused : Bool
  noaDesc : P2ppsTrigTag → NoaDesc
  roleDesc : P2ppsTrigTag → NoaDesc
  fw : P2ppsTrigTag → Option NoaDesc
  halOk : Bool

def p2ppsInit : NoaInfo where
  enDescNum := 0
  paused := false
  noaDesc := fun _ => zeroDesc
  roleDesc := fun _ => zeroDesc
  fw := fun _ => none
  halOk := true

section
variable (s : NoaInfo)

def copyNoaDesc (i : P2ppsTrigTag) (d : NoaDesc) : NoaInfo := {s with noaDesc:=update s.noaDesc i d}
def clearNoaDesc (i : P2ppsTrigTag) : NoaInfo := copyNoaDesc s i zeroDesc
def noaIncreaseDesc : NoaInfo := {s with enDescNum:=s.enDescNum + 1}
def noaDecreaseDesc : NoaInfo := if 0 < s.enDescNum then {s with enDescNum:=s.enDescNum - 1} else s

-- Without the query for MCC, which always answers no, only the tag counts.
def noaShouldActivate (d : NoaDesc) : Bool := d.tag != .mcc
def noaIsAllDisable : Bool := slots.all fun i => !(s.noaDesc i).enable

def maxNoaid : UInt8 :=
  slots.foldl (fun max i =>
    if (s.noaDesc i).noaId = noaidNone then max
    else if max < (s.noaDesc i).noaId then (s.noaDesc i).noaId else max) 0

def noaAssignNoaid : UInt8 := if s.enDescNum = 0 then 0 else if maxNoaid s ≠ 0 then maxNoaid s + 1 else 0

section
variable (i : P2ppsTrigTag)

def setNoaid (id : UInt8) : NoaInfo := copyNoaDesc s i {s.noaDesc i with noaId:=id}
def roleNoaNotify (wRole : Bool) : NoaInfo := if wRole then {s with roleDesc:=s.noaDesc} else s
def refused : NoaInfo := {s with halOk:=false}
def enToFw (d : NoaDesc) : Bool := d.noaId != noaidNone && d.enable
def cleared (clearDesc : Bool) : NoaInfo := if clearDesc then clearNoaDesc s i else s
def dropped : NoaInfo := {noaDecreaseDesc s with fw:=update s.fw i none}

def noaDisable (clearDesc : Bool) (hal : HalStatus) : PhlStatus × NoaInfo :=
  if s.paused && clearDesc then (.success,clearNoaDesc s i)
  else if enToFw (s.noaDesc i) then
    match hal with
    | .success => (.success,roleNoaNotify (cleared (dropped s i) i clearDesc) (s.noaDesc i).wRole)
    | _ => (.failure,refused s)
  else (.success,roleNoaNotify (cleared s i clearDesc) (s.noaDesc i).wRole)

def given : NoaInfo := {noaIncreaseDesc s with fw:=update s.fw i (some (s.noaDesc i))}

def noaActivate (hal : HalStatus) : PhlStatus × NoaInfo :=
  let s := setNoaid s i (noaAssignNoaid s)
  match hal with
  | .success => (.success,given s i)
  | .resource => (.resource,refused (setNoaid s i noaidNone))
  | .failure => (.failure,refused (setNoaid s i noaidNone))

-- A paused table only records the request, with the id that came with it.
def noaEnable (inDesc : NoaDesc) (hal : HalStatus) : PhlStatus × NoaInfo :=
  let s := roleNoaNotify (copyNoaDesc s i inDesc) inDesc.wRole
  if s.paused then (.success,s)
  else if noaShouldActivate inDesc then noaActivate s i hal
  else (.success,setNoaid s i noaidNone)
end

-- The result of the disable step is not looked at when a request follows.
def noaUpdate (inDesc : NoaDesc) (disable enable : HalStatus) : PhlStatus × NoaInfo :=
  if inDesc.enable then noaEnable (noaDisable s inDesc.tag true disable).2 inDesc.tag inDesc enable
  else noaDisable s inDesc.tag true disable

section
variable (hal : P2ppsTrigTag → HalStatus)

def disableEach (s : NoaInfo) (i : P2ppsTrigTag) : NoaInfo :=
  if (s.noaDesc i).enable then (noaDisable s i true (hal i)).2 else s

def noaDisableAll : NoaInfo := {slots.foldl (disableEach hal) s with paused:=false}

def pauseEach (s : NoaInfo) (i : P2ppsTrigTag) : NoaInfo := (noaDisable s i false (hal i)).2

def noaPauseAll : NoaInfo := if s.paused then s else slots.foldl (pauseEach hal) {s with paused:=true}

def resumeEach (s : NoaInfo) (i : P2ppsTrigTag) : NoaInfo :=
  if (s.noaDesc i).enable then (noaEnable s i (s.noaDesc i) (hal i)).2 else s

def noaResumeAll : NoaInfo := if s.paused then slots.foldl (resumeEach hal) {s with paused:=false} else s
end

inductive Call where
  | update (inDesc : NoaDesc) (disable enable : HalStatus)
  | pauseAll (hal : P2ppsTrigTag → HalStatus)
  | resumeAll (hal : P2ppsTrigTag → HalStatus)
  | disableAll (hal : P2ppsTrigTag → HalStatus)

def step : Call → NoaInfo
  | .update inDesc disable enable => (noaUpdate s inDesc disable enable).2
  | .pauseAll hal => noaPauseAll s hal
  | .resumeAll hal => noaResumeAll s hal
  | .disableAll hal => noaDisableAll s hal
end

end Rtl8852au.P2pps
