import Rtl8852au.IdleBusy
import Rtl8852au.Machine

namespace Rtl8852au.Sounding
open IdleBusy Function

inductive HalStatus where
  | success
  | failure
  | resource
  deriving DecidableEq,Repr

inductive BfeeType where
  | su
  | mu
  deriving DecidableEq,Repr

-- The widths without a size of their own are one.
inductive ChannelWidth where
  | w20
  | w40
  | w80
  | other
  deriving DecidableEq,Repr

-- What a sub_idx can hold outside the CSI object; all bits zero is the whole buffer.
inductive SubIdx where
  | i80
  | i40U
  | i40L
  | i20UU
  | i20UL
  | i20LU
  | i20LL
  | non
  deriving DecidableEq,Repr

def SubIdx.parts : SubIdx → List (Fin 4)
  | .i80 => [0,1,2,3]
  | .i40U => [3,2]
  | .i40L => [1,0]
  | .i20UU => [3]
  | .i20UL => [2]
  | .i20LU => [1]
  | .i20LL => [0]
  | .non => []

structure CsiBuf where
  subIdx : SubIdx
  idx : Nat
  type : BfeeType
  deriving DecidableEq,Repr

def zeroCsi : CsiBuf := ⟨.i80,0,.su⟩
abbrev Bits := Fin 4 → Bool

structure CsiObj where
  maxSu : Nat
  max : Nat
  sub : Nat → Bits
  counted : max < 256

section
variable (b : Bits)

def maskOf (parts : List (Fin 4)) : Nat := (parts.map fun i => if b i then 2 ^ i.val else 0).sum
def isSub20Busy (i : Fin 4) : Bool := maskOf b [i] = 2 ^ i.val
def is40LBusy : Bool := maskOf b [0,1] = 2 ^ 0 + 2 ^ 1
def is40UBusy : Bool := maskOf b [2,3] = 2 ^ 0 + 2 ^ 1
def setBusy (sub : SubIdx) : Bits := fun i => b i || decide (i ∈ sub.parts)
def clearBusy (sub : SubIdx) : Bits := fun i => b i && !decide (i ∈ sub.parts)

def queryAvl20 : SubIdx × Bits :=
  if !isSub20Busy b 0 then (.i20LL,setBusy b .i20LL)
  else if !isSub20Busy b 1 then (.i20LU,setBusy b .i20LU)
  else if !isSub20Busy b 2 then (.i20UL,setBusy b .i20UL)
  else if !isSub20Busy b 3 then (.i20UU,setBusy b .i20UU)
  else (.non,b)

def queryAvl40 : SubIdx × Bits :=
  if !is40LBusy b then (.i40L,setBusy b .i40L)
  else if !is40UBusy b then (.i40U,setBusy b .i40U)
  else (.non,b)

def queryAvl80 : SubIdx × Bits := if maskOf b [0,1,2,3] = 0 then (.i80,setBusy b .i80) else (.non,b)
end

def queryAvl : ChannelWidth → Bits → SubIdx × Bits
  | .w20 => queryAvl20
  | .w40 => queryAvl40
  | .w80 => queryAvl80
  | .other => fun b => (.non,b)

def searchBuf (avl : Bits → SubIdx × Bits) (sub : Nat → Bits) : List Nat → Option (Nat × SubIdx × Bits)
  | [] => none
  | i :: rest => if (avl (sub i)).1 = .non then searchBuf avl sub rest else some (i,avl (sub i))

section
variable (csi : CsiObj)

def queryCsiBufSu (bw : ChannelWidth) : Option (Nat × SubIdx × Bits) := searchBuf (queryAvl bw) csi.sub (List.range csi.maxSu)

def queryCsiBufMu (bw : ChannelWidth) : Option (Nat × SubIdx × Bits) :=
  searchBuf (queryAvl bw) csi.sub (List.range' csi.maxSu (csi.max-csi.maxSu))

def queryCsiBuf : BfeeType → ChannelWidth → Option (Nat × SubIdx × Bits)
  | .su => queryCsiBufSu csi
  | .mu => queryCsiBufMu csi

def CsiObj.take (i : Nat) (bits : Bits) : CsiObj := {csi with sub:=update csi.sub i bits}

-- With the index of the buffer and its part, before the index is cut to the field's width.
def queryIdleCsiBuf (kind : BfeeType) (bw : ChannelWidth) : Option (Nat × SubIdx × CsiObj) :=
  match queryCsiBuf csi kind bw with
  | none => none
  | some (i,sub,bits) => some (i,sub,csi.take i bits)

def csiRecord (i : Nat) (sub : SubIdx) (kind : BfeeType) : CsiBuf := ⟨sub,i % 32,kind⟩

def releaseCsiBuf (buf : CsiBuf) : HalStatus × CsiObj × CsiBuf :=
  if buf.idx < csi.max then
    (.success,csi.take buf.idx (clearBusy (csi.sub buf.idx) buf.subIdx),{buf with idx:=0,subIdx:=.non})
  else (.failure,csi,buf)

def isCsiBufValid (buf : CsiBuf) : Bool := decide (buf.idx < csi.max) && buf.subIdx != .non
end

structure BfEntry where
  macid : Nat
  aid12 : Nat
  band : Nat
  csiBuf : CsiBuf
  enSwap : Bool
  csiBufSwap : CsiBuf
  couter : Nat
  bfee : Option (BfeeType × Nat)
  deriving DecidableEq,Repr

structure HalSta where
  bfEntry : Option Nat
  bfCsiBuf : CsiBuf
  bfCsiBufSwap : CsiBuf
  macid : Nat
  aid : Nat
  band : Nat
  deriving DecidableEq,Repr

structure Hold where
  entry : Nat
  kind : BfeeType
  csi : Nat × SubIdx
  swap : Option (Nat × SubIdx)
  deriving DecidableEq,Repr

structure Hal where
  bf : Pool Nat
  sumu : BfeeType → Pool Nat
  entry : Nat → BfEntry
  sndSts : BfeeType → Nat → Nat
  csi : CsiObj
  sta : Nat → HalSta
  held : Nat → Option Hold

def resetBfEntry (b : BfEntry) : BfEntry := {b with macid:=0,aid12:=0,csiBuf:=zeroCsi,bfee:=none,csiBufSwap:=zeroCsi,couter:=0}

section
variable (s : Hal)

def Hal.setEntry (e : Nat) (b : BfEntry) : Hal := {s with entry:=update s.entry e b}
def Hal.setPool (k : BfeeType) (p : Pool Nat) : Hal := {s with sumu:=update s.sumu k p}
def Hal.setSta (x : Nat) (sta : HalSta) : Hal := {s with sta:=update s.sta x sta}

def resetSumuEntry (k : BfeeType) (i : Nat) : Hal := {s with sndSts:=update s.sndSts k (update (s.sndSts k) i 0)}

-- No result is a read or write through a pointer of a node that is in no list.
def releaseBfee (bfee : Option (BfeeType × Nat)) : Option Hal :=
  match bfee with
  | none => some s
  | some (k,i) => ((s.sumu k).unlink i).map fun p => (resetSumuEntry s k i).setPool k (p.push i)

def releaseTargetBfEntry (e : Nat) : Option Hal :=
  (releaseBfee s (s.entry e).bfee).bind fun s =>
    (s.bf.unlink e).map fun p => {s.setEntry e (resetBfEntry (s.entry e)) with bf:=p.push e}

-- The entry is handed back also after it has been released again.
def queryIdleBfEntry (kind : BfeeType) : Option (Option Nat × Hal) :=
  match s.bf.pop with
  | none => some (none,s)
  | some (e,bf) =>
    match (s.sumu kind).pop with
    | none => (releaseTargetBfEntry ({s with bf}.setEntry e {s.entry e with bfee:=none}) e).map fun s => (some e,s)
    | some (i,p) =>
      some (some e,({s with bf:=bf.append e}.setEntry e {s.entry e with bfee:=some (kind,i)}).setPool kind (p.append i))

def cfgSwbfEntry (x e : Nat) (swap : Bool) : Hal :=
  let b := {s.entry e with macid:=(s.sta x).macid,aid12:=(s.sta x).aid,band:=(s.sta x).band,csiBuf:=(s.sta x).bfCsiBuf}
  s.setEntry e (if swap then {b with enSwap:=true,csiBufSwap:=(s.sta x).bfCsiBufSwap} else b)

def releaseEntry (x : Nat) : Option (HalStatus × Hal) :=
  match (s.sta x).bfEntry with
  | none => some (.failure,s)
  | some e => (releaseTargetBfEntry s e).map fun s => (.success,s)

def releaseRecord (st : HalStatus) (csi : CsiObj) (buf : CsiBuf) : HalStatus × CsiObj × CsiBuf :=
  if isCsiBufValid csi buf then releaseCsiBuf csi buf else (st,csi,buf)

def releaseRecords (st : HalStatus) (s : Hal) (x : Nat) : HalStatus × Hal :=
  let one := releaseRecord st s.csi (s.sta x).bfCsiBuf
  let two := releaseRecord one.1 one.2.1 (s.sta x).bfCsiBufSwap
  (two.1,{s with
    csi := two.2.1
    sta := update s.sta x {s.sta x with bfCsiBuf:=one.2.2,bfCsiBufSwap:=two.2.2}
    held := update s.held x none})

def releaseProcStaRes (x : Nat) : Option (HalStatus × Hal) := (releaseEntry s x).map fun r => releaseRecords r.1 r.2 x

section
variable (x : Nat) (kind : BfeeType) (bw : ChannelWidth) (enSwap : Bool)

-- A swap buffer that is not there is reported as RESOURCE, which the check for FAILURE lets pass.
def querySwap : Option (Nat × SubIdx) × Hal :=
  if kind = .mu ∧ enSwap then
    match queryIdleCsiBuf s.csi kind bw with
    | none => (none,s)
    | some (i,sub,csi) => (some (i,sub),{s with csi}.setSta x {s.sta x with bfCsiBufSwap:=csiRecord i sub kind})
  else (none,s)

def queryFailed (st : HalStatus) (s : Hal) (x : Nat) : Option (HalStatus × Hal) := (releaseProcStaRes s x).map fun r => (st,r.2)

def queryProcStaRes : Option (HalStatus × Hal) :=
  (queryIdleBfEntry s kind).bind fun (e,s) =>
    let s := s.setSta x {s.sta x with bfEntry:=e}
    match e with
    | none => queryFailed .failure s x
    | some e =>
      match queryIdleCsiBuf s.csi kind bw with
      | none => queryFailed .resource s x
      | some (i,sub,csi) =>
        let s := {s with csi}.setSta x {s.sta x with bfCsiBuf:=csiRecord i sub kind}
        let (swap,s) := querySwap s x kind bw enSwap
        let s := cfgSwbfEntry s x e enSwap
        some (.success,{s with held:=update s.held x (some ⟨e,kind,(i,sub),swap⟩)})
end
end

inductive Call where
  | query (x : Nat) (kind : BfeeType) (bw : ChannelWidth) (enSwap : Bool)
  | release (x : Nat)

-- A run ends where a call has no result.
def step (s : Option Hal) (call : Call) : Option Hal :=
  s.bind fun s =>
    match call with
    | .query x kind bw enSwap => (queryProcStaRes s x kind bw enSwap).map Prod.snd
    | .release x => (releaseProcStaRes s x).map Prod.snd

def idlePool (n : Nat) : Pool Nat := ⟨List.range n,[],n⟩
def zeroEntry : BfEntry := ⟨0,0,0,zeroCsi,false,zeroCsi,0,none⟩

def init (bfNr suNr muNr csiSu csiMu : Nat) (counted : csiSu+csiMu < 256) (ident : Nat → Nat × Nat × Nat) : Hal where
  bf := idlePool bfNr
  sumu := fun | .su => idlePool suNr | .mu => idlePool muNr
  entry := fun _ => zeroEntry
  sndSts := fun _ _ => 0
  csi := ⟨csiSu,csiSu+csiMu,fun _ _ => false,counted⟩
  sta := fun x => ⟨none,zeroCsi,zeroCsi,(ident x).1,(ident x).2.1,(ident x).2.2⟩
  held := fun _ => none
end Rtl8852au.Sounding
