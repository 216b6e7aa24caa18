import Rtl8852au.Michael
import Rtl8852au.Recv

namespace Rtl8852au.TkipMic
open Words Michael
open Recv (Cipher)

abbrev Keytype := Vector U8 32
def isMcast (addr : Vector U8 6) : Bool := (addr.get 0).getLsbD 0

structure SecurityPriv where
  dot118021XGrpKeyid : Fin 6
  dot118021XGrptxmickey : Vector Keytype 6
  dot118021XGrprxmickey : Vector Keytype 6
  binstallGrpkey : Bool
  bcheckGrpkey : Bool

structure PktAttrib where
  encrypt : Cipher
  bswenc : Bool
  qosEn : Bool
  priority : U8
  ra : Vector U8 6
  dst : Vector U8 6
  src : Vector U8 6
  dot11tkiptxmickey : Keytype

structure XmitFrame where
  attrib : PktAttrib
  llc : Vector U8 8
  first : List (List U8)
  others : List (List (List U8))

-- The list of the first request; without software encryption only the last
-- request has a tail.
def hasTail (bswenc : Bool) (others : Nat) : Bool := others = 0 || bswenc

def pktList (header tail : List U8) (frame : XmitFrame) : List (List U8) :=
  header :: frame.first ++ (if hasTail frame.attrib.bswenc frame.others.length then [tail] else [])

def micKeyTx (sec : SecurityPriv) (attrib : PktAttrib) : Keytype :=
  if isMcast attrib.ra then sec.dot118021XGrptxmickey.get sec.dot118021XGrpKeyid else attrib.dot11tkiptxmickey

def isNullKey (key : Keytype) : Bool := key.toList.take 16 = List.replicate 16 0

-- None is a failure; the MIC, if there is one, goes into the tail of the last
-- fragment.
def coreWlanFillTkipMic (sec : SecurityPriv) (header tail : List U8) (frame : XmitFrame) : Option (Option (List U8)) :=
  let attrib := frame.attrib
  if attrib.encrypt = .tkip then
    let key := micKeyTx sec attrib
    if isNullKey key then none
    else
      let micdata := rtwSecmicsetkey key.toList
      let micdata := rtwSecmicappend micdata attrib.dst.toList
      let micdata := rtwSecmicappend micdata attrib.src.toList
      let micdata := rtwSecmicappend micdata [if attrib.qosEn then attrib.priority else 0,0,0,0]
      let micdata := rtwSecmicappend micdata frame.llc.toList
      let list := pktList header tail frame
      -- the header is left out at one end and the tail at the other
      let micdata := ((list.drop 1).take (list.length-2)).foldl rtwSecmicappend micdata
      some (some (rtwSecgetmic micdata))
  else some none

section
variable (header : List U8)

def bytesAt (at_ : Nat) : List U8 := (header.drop at_).take 6

def toDs : Bool := (header.getD 1 0).getLsbD 0
def fromDs : Bool := (header.getD 1 0).getLsbD 1
def micDa : List U8 := bytesAt header (if toDs header then 16 else 4)

def micSa : List U8 :=
  bytesAt header (if toDs header then (if fromDs header then 24 else 10) else (if fromDs header then 16 else 10))
end

def rtwSeccalctkipmic (key header data : List U8) (pri : U8) : List U8 :=
  let micdata := rtwSecmicsetkey key
  let micdata := rtwSecmicappend micdata (micDa header)
  let micdata := rtwSecmicappend micdata (micSa header)
  let micdata := rtwSecmicappend micdata [pri,0,0,0]
  let micdata := rtwSecmicappend micdata data
  rtwSecgetmic micdata

structure RxPktAttrib where
  encrypt : Cipher
  hdrlen : Nat
  ivLen : Nat
  icvLen : Nat
  ra : Vector U8 6
  keyIndex : Fin 6
  priority : U8
  bdecrypted : Bool

structure Checked where
  res : Bool
  frame : List U8
  reported : Bool
  bcheckGrpkey : Bool

-- `stainfo` is the MIC key of the station, if it is known; `current` the key
-- index of the association.
def recvframeChkmic (sec : SecurityPriv) (stainfo : Option Keytype) (current : Fin 6) (rx : RxPktAttrib) (frame : List U8) :
    Checked :=
  let same := {res:=true, frame, reported:=false, bcheckGrpkey:=sec.bcheckGrpkey}
  if rx.encrypt = .tkip then
    match stainfo with
    | none => {same with frame:=frame.take (frame.length-8)}
    | some unicast =>
      if isMcast rx.ra ∧ sec.binstallGrpkey = false then {same with res:=false}
      else
        let mickey := if isMcast rx.ra then sec.dot118021XGrprxmickey.get rx.keyIndex else unicast
        let datalen := frame.length - rx.hdrlen - rx.ivLen - rx.icvLen - 8
        let payload := frame.drop (rx.hdrlen+rx.ivLen)
        let miccode := rtwSeccalctkipmic mickey.toList frame (payload.take datalen) rx.priority
        let pulled := {same with frame:=frame.take (frame.length-8)}
        if miccode = (payload.drop datalen).take 8 then {pulled with bcheckGrpkey:=sec.bcheckGrpkey || isMcast rx.ra}
        else
          let report := !(isMcast rx.ra && rx.keyIndex != current)
          {pulled with res:=false, reported:=rx.bdecrypted && report}
  else same

end Rtl8852au.TkipMic
