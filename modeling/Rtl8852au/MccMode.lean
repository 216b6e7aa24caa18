import Rtl8852au.MccPattern

namespace Rtl8852au.Mcc

-- In a pattern for two roles role_ref is at ref_role_idx and role_ano the other one.
def other (idx : Fin 2) : Fin 2 := if idx = 0 then 1 else 0

def MccInfo.ref (i : MccInfo) : MccRole := i.enInfo.mccRole i.enInfo.refRoleIdx
def MccInfo.ano (i : MccInfo) : MccRole := i.enInfo.mccRole (other i.enInfo.refRoleIdx)

def setRefs (p : Place) (i : MccInfo) : MccInfo :=
  i.onPattern (fun pattern => {pattern with
    roleRef := some ⟨p,i.enInfo.refRoleIdx⟩,roleAno := some ⟨p,other i.enInfo.refRoleIdx⟩})

def btPattern (i : MccInfo) : Option Pattern :=
  mccCalculate2wslot1btslotPattern i.ref.policy.durInfo i.ano.policy.durInfo (s16 i.btInfo.btDur) i.enInfo.pattern

def withBtRole (i : MccInfo) : MccInfo := {i with btInfo.addBtRole:=true}

def mccFill2WroleBtPattern (p : Place) (m : Mem) : Mem :=
  if (m p).btInfo.btSegNum = 1 then
    let m := m.modify p withBtRole
    m.modify p (fun i => i.onPattern (fun pattern =>
      (btPattern i).getD (mccSet2ClientsWorsecaseDefaultPattern m i.ref.policy.durInfo.dur pattern)))
  else m

def withCourtesy (cNum : Bool) (tgtRole mrole : MccRole) : MccRole :=
  {mrole with policy := {mrole.policy with
    courtesyEn := true,courtesyNum := if cNum then 1 else 0,courtesyTarget := u8 tgtRole.macid}}

-- The courtesy of the pattern goes into the policy of the role it names, by reference.
def applyCourtesy (courtesy : Courtesy) (m : Mem) : Mem :=
  match courtesy.cEn,courtesy.srcRole,courtesy.tgtRole with
  | true,some srcRole,some tgtRole => m.onRole srcRole (withCourtesy courtesy.cNum (m.role tgtRole))
  | _,_,_ => m

def limited (mrole : MccRole) : Bool := mrole.policy.durInfo.durLimit.enable

section
variable (env : Env) (p : Place) (m : Mem)

def mccFill2wrolePatternWithLimitation : Bool × Mem :=
  if limited (m p).ref = limited (m p).ano then (false,m)
  else
    let (extra,i) := mccDiscisionDurationFor2roleBt env (m p)
    let m := m.modify p (fun _ => i)
    if extra then
      let m := mccFill2WroleBtPattern p m
      (true,applyCourtesy (m p).enInfo.pattern.courtesy m)
    else match mccCalculate2WrolePattern (m p).ref.policy.durInfo (m p).ano.policy.durInfo (m p).enInfo.pattern.bcnsOffset
        (m p).enInfo.pattern with
      | none => (false,m)
      | some pattern =>
        let m := m.modify p (fun i => i.onPattern (fun _ => pattern))
        (true,applyCourtesy (m p).enInfo.pattern.courtesy m)

def mccFill2ClientsPattern (worsecase : Bool) (p : Place) (m : Mem) : Mem :=
  let offset := (m p).enInfo.pattern.bcnsOffset
  let refDur := (m p).ref.policy.durInfo.dur
  let anoDur := (m p).ano.policy.durInfo.dur
  m.modify p (fun i => i.onPattern (
    if worsecase then worsecasePattern m refDur anoDur offset i.ref.bcnIntvl else mccCalculate2ClientsPattern refDur anoDur offset))

def mccGet2ClientsBcnOffset (env : Env) (tsf : Option (Nat × Nat)) (i : MccInfo) : Option Nat :=
  tsf.map (fun (tsfRef,tsfAno) =>
    let ofstR := calcOffsetFromTbtt env i.ref.wrole tsfRef
    let ofstA := calcOffsetFromTbtt env i.ano.wrole tsfAno
    let ofstR := if ofstR < ofstA then u16 (ofstR+i.ref.bcnIntvl) else ofstR
    u16 (ofstR-ofstA))

def apClientPattern (ref ano : RoleRef) (refDur anoDur mccIntvl : Nat) (pattern : Pattern) : Pattern :=
  let bcnsOffset := u8 (mccIntvl / 2 : Nat)
  let toaR := s16 (refDur / 2 : Nat)
  let tobA : Int := u8 (bcnsOffset-toaR)
  let pattern := {setTimes pattern (s16 (refDur-toaR)) toaR tobA (s16 (anoDur-tobA)) with bcnsOffset}
  mccFillSlotInfo (mccFillSlotInfo pattern false refDur (some ref)) false anoDur (some ano)

def mccSetApClientDefaultPattern (p : Place) (i : MccInfo) : MccInfo :=
  i.onPattern (apClientPattern ⟨p,i.enInfo.refRoleIdx⟩ ⟨p,other i.enInfo.refRoleIdx⟩ i.ref.policy.durInfo.dur
    i.ano.policy.durInfo.dur i.enInfo.mccIntvl)

def limitDur (mccIntvl : Nat) (limit : DurLim) (dur rest : Nat) : Nat × Nat :=
  if limit.enable ∧ limit.maxDur ≠ 0 ∧ limit.maxDur < dur then (limit.maxDur,u16 (mccIntvl-limit.maxDur)) else (dur,rest)

def mccSetDurFor2ClientsMode (dur1 dur2 : DurInfo) (mccIntvl : Nat) : Nat × Nat :=
  let (d1,d2) := if dur1.dur = mccDurNonspecific then (u16 (mccIntvl-dur2.dur),dur2.dur)
    else (dur1.dur,u16 (mccIntvl-dur1.dur))
  let (d1,d2) :=
    if d1 < minClientDur then (minClientDur,u16 (mccIntvl-minClientDur))
    else if d2 < minClientDur then (u16 (mccIntvl-minClientDur),minClientDur) else (d1,d2)
  let (d1,d2) := limitDur mccIntvl dur1.durLimit d1 d2
  let (d2,d1) := limitDur mccIntvl dur2.durLimit d2 d1
  (d1,d2)

def mccSetWorsecaseDurFor2ClientsMode (d1 d2 : Nat) : Nat × Nat :=
  if d2 < d1 then (clientsWorsecaseLargeDur,worsecaseIntvl-clientsWorsecaseLargeDur)
  else (worsecaseIntvl-clientsWorsecaseLargeDur,clientsWorsecaseLargeDur)

def MccInfo.setDurs (i : MccInfo) (durs : Nat × Nat) : MccInfo :=
  (i.setDur i.enInfo.refRoleIdx durs.1).setDur (other i.enInfo.refRoleIdx) durs.2

-- _mcc_fill_info_for_2_clients_mode up to the durations, and whether it is the worst case.
def twoClientsDurs (env : Env) (p : Place) (i : MccInfo) : Option (Bool × MccInfo) :=
  let i := {i with enInfo.mccIntvl:=i.ref.bcnIntvl}
  (mccGet2ClientsBcnOffset env env.portsTsf i).map (fun bcnsOffset =>
    let worsecase := bcnsOffset < minBcnsOffset || (i.ref.bcnIntvl : Int) - minBcnsOffset < bcnsOffset
    let i := (setRefs p i).onPattern (fun pattern => {pattern with bcnsOffset})
    (worsecase,i.setDurs (mccSetDurFor2ClientsMode i.ref.policy.durInfo i.ano.policy.durInfo i.enInfo.mccIntvl)))

def worsecaseDurs (i : MccInfo) : MccInfo :=
  {i.setDurs (mccSetWorsecaseDurFor2ClientsMode i.ref.policy.durInfo.dur i.ano.policy.durInfo.dur) with
    enInfo.mccIntvl := worsecaseIntvl}

section
variable (env : Env) (worsecase : Bool) (p : Place) (m : Mem)

def unlimitedSlots : Mem :=
  let (extra,i) := mccDiscisionDurationFor2roleBt env (m p)
  let m := m.modify p (fun _ => i)
  if extra then mccFill2WroleBtPattern p m
  else mccFill2ClientsPattern worsecase p (if worsecase then m.modify p worsecaseDurs else m)

def twoClientsSlots : Mem :=
  match mccFill2wrolePatternWithLimitation env p m with
  | (true,m) => m
  | (false,m) => unlimitedSlots env worsecase p m
end

def withStartTsf : Bool × Mem :=
  let (done,i) := mccCalculateStartTsf env (m p)
  (done,m.modify p (fun _ => i))

def mccFillInfoFor2ClientsMode : Bool × Mem :=
  match twoClientsDurs env p (m p) with
  | none => (false,m.modify p (fun i => {i with enInfo.mccIntvl:=i.ref.bcnIntvl}))
  | some (worsecase,i) => withStartTsf env p (twoClientsSlots env worsecase p (m.modify p (fun _ => i)))

def mccSetDurForApClientMode (apDur clientDur mccIntvl : Nat) : Nat × Nat :=
  let apDur := if apDur = mccDurNonspecific then u16 (mccIntvl-clientDur) else apDur
  let apDur := if apDur < minApDur then minApDur
    else if (mccIntvl : Int) - minClientDur < apDur then u16 (mccIntvl-minClientDur) else apDur
  (apDur,u16 (mccIntvl-apDur))

def setApIntvl (p : Place) (ap : Fin 2) (i : MccInfo) : MccInfo :=
  {setRefs p i with enInfo.mccIntvl:=(i.enInfo.mccRole ap).bcnIntvl}

def apClientDurs (env : Env) (p : Place) (i : MccInfo) : Option (Fin 2 × Fin 2 × MccInfo) :=
  match mccGetMroleByCategory env i isApCategory,mccGetMroleByCategory env i isClientCategory with
  | some ap,some client =>
    let i := setApIntvl p ap i
    let durs := mccSetDurForApClientMode (i.dur ap) (i.dur client) i.enInfo.mccIntvl
    some (ap,client,(i.setDur ap durs.1).setDur client durs.2)
  | _,_ => none

def atApClientOffset (i : MccInfo) : MccInfo := i.onPattern (fun pattern => {pattern with bcnsOffset:=apClientOffset})

def apClientSlots : Mem :=
  let (extra,i) := mccDiscisionDurationFor2roleBt env (m p)
  if extra then mccFill2WroleBtPattern p (m.modify p (fun _ => atApClientOffset i))
  else m.modify p (fun _ => mccSetApClientDefaultPattern p i)

def phlRoleGetBcnIntvl (env : Env) (wrole : Nat) : Nat :=
  match (env.wrole wrole).type with
  | .station | .p2pGc => ((env.wrole wrole).sta.map SelfSta.bcnInterval).getD 0
  | .ap | .p2pGo => u16 (env.wrole wrole).bcnCmnInterval
  | _ => 0

def rtwPhlTbttSync (env : Env) (srcRole tgtRole : Option Nat) (syncOfst : Nat) : Option Nat :=
  match env.syncTsf with
  | none => none
  | some tsf =>
    let bcnIntvl := (tgtRole.map (phlRoleGetBcnIntvl env)).getD 0
    if bcnIntvl = 0 then none
    else
      let ofst := calcOffsetFromTbtt env srcRole tsf
      let tgtTsf := u64 (tsf + syncOfst*tu - ofst*tu)
      let diffTsf := (bcnIntvl*tu - tgtTsf % (bcnIntvl*tu)) / tu
      if env.tsfSync then some (u16 diffTsf) else none

def setSync (client ap : Fin 2) (offset : Nat) (i : MccInfo) : MccInfo :=
  {i with enInfo.syncTsf:=⟨true,(i.enInfo.mccRole client).macid,(i.enInfo.mccRole ap).macid,offset⟩}

def mccFillInfoForApClientMode : Bool × Mem :=
  match apClientDurs env p (m p) with
  | none => (false,m)
  | some (ap,client,i) =>
    let m := apClientSlots env p (m.modify p (fun _ => i))
    match rtwPhlTbttSync env ((m p).enInfo.mccRole client).wrole ((m p).enInfo.mccRole ap).wrole
        (m p).enInfo.pattern.bcnsOffset with
    | none => (false,m)
    | some offset => withStartTsf env p (m.modify p (setSync client ap offset))

def apBtSet (i : MccInfo) : MccInfo := {withBtRole i with enInfo.mccIntvl:=i.ref.bcnIntvl}

def apBtDur (i : MccInfo) : MccInfo :=
  let i := apBtSet i
  i.setDur i.enInfo.refRoleIdx (u8 (i.enInfo.mccIntvl-i.btInfo.btDur))

def apBtPattern (ref : RoleRef) (refDur btDur : Nat) (pattern : Pattern) : Pattern :=
  let toaR := s16 (refDur / 2 : Nat)
  let pattern := {pattern with roleRef:=some ref,toaR,tobR:=s16 (refDur-toaR)}
  mccFillSlotInfo (mccFillSlotInfo pattern false refDur (some ref)) true btDur none

def apBtSlots (p : Place) (i : MccInfo) : MccInfo :=
  let i := apBtDur i
  let ref := i.enInfo.refRoleIdx
  i.onPattern (apBtPattern ⟨p,ref⟩ (i.dur ref) i.btInfo.btDur)

def mccFillInfoForApBtMode : Bool × Mem := withStartTsf env p (m.modify p (apBtSlots p))
end

def mccFillInfo (env : Env) (mode : TdmraMode) (p : Place) (m : Mem) : Bool × Mem :=
  match mode with
  | .apClient => mccFillInfoForApClientMode env p m
  | .twoClients => mccFillInfoFor2ClientsMode env p m
  | .ap => mccFillInfoForApBtMode env p m
  | _ => (false,m)
end Rtl8852au.Mcc
