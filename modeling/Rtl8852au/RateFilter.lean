import Rtl8852au.ElemRemove

namespace Rtl8852au.RateFilter
open Words Attr Memory Elements Scan List

def beaconIeOffset : Nat := 12
def supportedRatesIe : U8 := 1
def extSupportedRatesIe : U8 := 50
def ndis80211LengthRatesEx : Nat := 16
def ieee80211BasicRateMask : U8 := 0x80

def wlanMd11B : U32 := 1
def wlanMd11A : U32 := 2
def wlanMd11G : U32 := 4
def wlanMd11Bg : U32 := 5

inductive RateSection where
  | cck
  | ofdm
deriving DecidableEq

def wifiCckRates : List U8 := [0x82,0x84,0x8B,0x96]
def wifiOfdmRates : List U8 := [0x0C,0x12,0x18,0x24,0x30,0x48,0x60,0x6C]
def rtwBasicRateOfdm : List U8 := [0x8C,0x98,0xB0]
def inTable (table : List U8) (rate : U8) : Bool := table.any fun known => known &&& 0x7F == rate &&& 0x7F

def rtwIsCckRate : U8 → Bool := inTable wifiCckRates
def rtwIsOfdmRate : U8 → Bool := inTable wifiOfdmRates
def rtwIsBasicRateOfdm : U8 → Bool := inTable rtwBasicRateOfdm

def keeps : RateSection → U8 → Bool
  | .cck,rate => rtwIsCckRate rate
  | .ofdm,rate => rtwIsOfdmRate rate

def flagged (rate : U8) : U8 := if rtwIsBasicRateOfdm rate then rate ||| ieee80211BasicRateMask else rate

section
variable (keep : RateSection)

-- `new_rate[idx++] = ..`; `none` when `idx` has left the local array.
def keepRates (keep : RateSection) : List U8 → List U8 → Option (List U8)
  | [],newRate => some newRate
  | rate :: rates,newRate =>
    if keeps keep rate then
      if newRate.length < ndis80211LengthRatesEx then keepRates keep rates (newRate ++ [flagged rate]) else none
    else keepRates keep rates newRate

structure Network where
  ies : Bytes
  ieLength : Nat
  dsConfig : U32
  supportedRates : List U8

structure Run where
  net : Network
  wrote : List Nat

def Run.write (r : Run) (pos : Nat) (bytes : List U8) : Run where
  net := { r.net with ies:=put r.net.ies pos bytes }
  wrote := r.wrote ++ span pos bytes.length

def getIe (n : Network) (id : U8) (fuel : Nat) : Option (List Nat × Ie.Found) :=
  Ie.rtwGetIeFrom n.ies beaconIeOffset id.toNat ((n.ieLength : Int) - beaconIeOffset) fuel

-- The new rates, their number and what is behind the element, in place.
def rateieWritten (r : Run) (p ieOrilen : Nat) (newRate : List U8) : Run :=
  let rates := (r.write (p+1) [BitVec.ofNat 8 newRate.length]).write (p+2) newRate
  let remainIes := p + 2 + ieOrilen
  let moved := rates.write (p + 2 + newRate.length) (bytesAt rates.net.ies remainIes (r.net.ieLength-remainIes))
  { moved with net:={ moved.net with ieLength:=r.net.ieLength - (ieOrilen-newRate.length) } }

-- The outer `none` is for too little fuel, the inner one for a write behind
-- `new_rate`.
def rtwFilterSuppportRateie (r : Run) (keep : RateSection) (fuel : Nat) : Option (Option Run) :=
  match getIe r.net supportedRatesIe fuel with
  | none => none
  | some (_,none) => some (some r)
  | some (_,some (p,ieOrilen)) => some ((keepRates keep (bytesAt r.net.ies (p+2) ieOrilen) []).map (rateieWritten r p ieOrilen))

def rtwSetSupportedRate (mode : U32) (ch : U8) : List U8 :=
  let rates :=
    if mode = wlanMd11B then wifiCckRates
    else if mode = wlanMd11G ∨ mode = wlanMd11A then wifiOfdmRates
    else if ch.toNat < 14 then wifiCckRates ++ wifiOfdmRates
    else wifiOfdmRates
  rates ++ replicate (ndis80211LengthRatesEx-rates.length) 0

def removeWrites (q : Ie.Query) (inner : Nat) : Nat → Ie.Cut → List Nat
  | 0,_ => []
  | fuel+1,c =>
    match Ie.rtwGetIeExFrom q c.buf c.start c.searchLen inner with
    | some (_,some (at_,targetLen)) =>
      if targetLen = 0 then []
      else
        let remainLen := c.searchLen - (at_+targetLen)
        span (c.start+at_) remainLen ++
          removeWrites q inner fuel
            ⟨Ie.closeUp c.buf (c.start+at_) targetLen remainLen,c.iesLen-targetLen,c.start+at_,remainLen,true⟩
    | _ => []

-- The removal works on the length from before the rates were filtered, and
-- `IELength` then loses the length of the body only.
def removeExt (r : Run) (networkIelen ieLen fuel : Nat) : Option Run :=
  let q := Ie.removal extSupportedRatesIe none
  (Ie.rtwIesRemoveIe ⟨r.net.ies,networkIelen⟩ beaconIeOffset extSupportedRatesIe none fuel).map fun out =>
    { net := { r.net with ies:=out.1.buf,ieLength:=r.net.ieLength - ieLen }
      wrote := r.wrote ++
        removeWrites q fuel fuel ⟨r.net.ies,networkIelen,beaconIeOffset,networkIelen-beaconIeOffset,false⟩ }

def finish (networkType : U32) (r : Run) : Run × U32 :=
  ({ r with net:={ r.net with supportedRates:=rtwSetSupportedRate networkType (r.net.dsConfig.setWidth 8) } },networkType)

def rtwUpdateRateBymode (n : Network) (mode : U32) (fuel : Nat) : Option (Option (Run × U32)) :=
  if mode = wlanMd11B then
    match rtwFilterSuppportRateie ⟨n,[]⟩ .cck fuel with
    | none => none
    | some none => some none
    | some (some r) =>
      match getIe r.net extSupportedRatesIe fuel with
      | none => none
      | some (_,none) => some (some (finish wlanMd11B r))
      | some (_,some (_,ieLen)) => (removeExt r n.ieLength ieLen fuel).map fun r => some (finish wlanMd11B r)
  else if mode &&& wlanMd11B = 0 then
    (rtwFilterSuppportRateie ⟨n,[]⟩ .ofdm fuel).map fun out =>
      out.map (finish (if 14 < n.dsConfig.toNat then wlanMd11A else wlanMd11G))
  else
    (getIe n extSupportedRatesIe fuel).map fun out => some (finish (if out.2.isSome then wlanMd11Bg else wlanMd11B) ⟨n,[]⟩)

def kept (rates : List U8) : List U8 := (rates.filter (keeps keep)).map flagged

theorem kept_length_le (rates : List U8) : (kept keep rates).length ≤ rates.length := by
  unfold kept
  rw [length_map]
  exact length_filter_le ..

def reduced (e : Element) : Element := ⟨e.id,kept keep e.body,Nat.lt_of_le_of_lt (kept_length_le keep e.body) e.short⟩

def reduceFirst (keep : RateSection) : List Element → List Element
  | [] => []
  | e :: es => if e.id = supportedRatesIe then reduced keep e :: es else e :: reduceFirst keep es

def filtered (mode : U32) (es : List Element) : List Element :=
  if mode = wlanMd11B then (reduceFirst .cck es).filter fun e => e.id ≠ extSupportedRatesIe
  else if mode &&& wlanMd11B = 0 then reduceFirst .ofdm es
  else es

structure Beacon where
  net : Network
  elems : List Element
  holds : Holds net.ies beaconIeOffset elems
  length : net.ieLength = beaconIeOffset + (encode elems).length
  fits : net.ieLength ≤ Ie.maxIeSz

structure Keeps (b : Beacon) (es : List Element) (r : Run) : Prop where
  holds : Holds r.net.ies beaconIeOffset es
  length : r.net.ieLength = beaconIeOffset + (encode es).length
  fixed : ∀ i < beaconIeOffset, r.net.ies i = b.net.ies i
  inside : Inside Ie.maxIeSz r.wrote

def RateFine (b : Beacon) (mode : U32) : Prop :=
  ∃ fuel r networkType, rtwUpdateRateBymode b.net mode fuel = some (some (r,networkType)) ∧ Keeps b (filtered mode b.elems) r

-- The kept rates of the first element of supported rates have room in `new_rate`.
def RatesFit (es : List Element) : Prop :=
  ∀ pre e post, es = pre ++ e :: post → (∀ x ∈ pre, x.id ≠ supportedRatesIe) → e.id = supportedRatesIe →
    (e.body.filter (keeps keep)).length ≤ ndis80211LengthRatesEx
end

end Rtl8852au.RateFilter
