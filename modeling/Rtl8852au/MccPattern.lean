import Rtl8852au.Mcc

namespace Rtl8852au.Mcc

section
variable (pattern : Pattern)

def mccFillSlotInfo (btRole : Bool) (dur : Nat) (mrole : Option RoleRef) : Pattern :=
  if room : pattern.slotOrder.val.length < slotNum then
    {pattern with
      slotOrder := ⟨pattern.slotOrder.val ++ [if btRole then .bt dur else .wifi dur mrole],by
        rw [List.length_append]; exact room⟩
      btSlotNum := if btRole then pattern.btSlotNum + 1 else pattern.btSlotNum}
  else pattern

def setTimes (tobR toaR tobA toaA : Int) : Pattern := {pattern with tobR,toaR,tobA,toaA}

def fillRef (dur : Nat) : Pattern := mccFillSlotInfo pattern false dur pattern.roleRef
def fillAno (dur : Nat) : Pattern := mccFillSlotInfo pattern false dur pattern.roleAno
def fillBt (dur : Nat) : Pattern := mccFillSlotInfo pattern true dur none

def fillRefAno (durRef durAno : Nat) : Pattern := fillAno (fillRef pattern durRef) durAno
def fillRefAnoBt (durRef durAno btDur : Nat) : Pattern := fillBt (fillRefAno pattern durRef durAno) btDur
def fillRefBtAno (durRef durAno btDur : Nat) : Pattern := fillAno (fillBt (fillRef pattern durRef) btDur) durAno

inductive Verdict where
  | take | skip | stop

structure Search where
  mccIntvl : Nat
  dR : Int
  dA : Int
  tobAOf : Int → Int
  limitRef : Int → Int → Verdict
  exceedsAno : Int → Int → Bool

def spread (a b c d : Int) : Int :=
  s16 ((a-b) * (a-b) + (a-c) * (a-c) + (a-d) * (a-d) + (b-c) * (b-c) + (b-d) * (b-d) + (c-d) * (c-d))

def Search.loop (x : Search) : Nat → Int → Int → Int → Int × Int
  | 0,tobR,_,cand => (tobR,cand)
  | rounds+1,tobR,sumLast,cand =>
    let toaR := s16 (x.dR-tobR)
    if toaR < minRxBcnT then (tobR,cand)
    else match x.limitRef tobR toaR with
      | .stop => (tobR,cand)
      | .skip => x.loop rounds (tobR+1) sumLast cand
      | .take =>
        let tobA := s16 (x.tobAOf toaR)
        let toaA := s16 (x.dA-tobA)
        if tobA < earlyRxBcnT then x.loop rounds (tobR+1) sumLast cand
        else if toaA < minRxBcnT then (tobR,cand)
        else if x.exceedsAno tobA toaA then x.loop rounds (tobR+1) sumLast cand
        else
          let sum := spread tobR toaR tobA toaA
          if sumLast ≠ 0 ∧ sumLast < sum then (tobR,tobR) else x.loop rounds (tobR+1) sum tobR

-- tob_r stays below mcc_intvl, so these are all rounds the loop can take.
def Search.run (x : Search) : Int × Int := x.loop (x.mccIntvl-earlyRxBcnT) earlyRxBcnT 0 0
def unlimited : Int → Int → Verdict := fun _ _ => .take

def limitBreak (dur : DurInfo) (tobR toaR : Int) : Verdict :=
  if !dur.durLimit.enable then .take
  else if s16 dur.durLimit.maxTob < tobR then .stop
  else if s16 dur.durLimit.maxToa < toaR then .skip else .take

def limitContinue (dur : DurInfo) (tobR toaR : Int) : Verdict :=
  if dur.durLimit.enable ∧ (s16 dur.durLimit.maxTob < tobR ∨ s16 dur.durLimit.maxToa < toaR) then .skip else .take

def exceeds (dur : DurInfo) (tobA toaA : Int) : Bool :=
  dur.durLimit.enable && (s16 dur.durLimit.maxTob < tobA || s16 dur.durLimit.maxToa < toaA)

def timesOf (tobR : Int) (dR dA offset : Int) : Int × Int × Int × Int :=
  let toaR := s16 (dR-tobR)
  let tobA := s16 (offset-toaR)
  (tobR,toaR,tobA,s16 (dA-tobA))

def withTimes (times : Int × Int × Int × Int) : Pattern := setTimes pattern times.1 times.2.1 times.2.2.1 times.2.2.2

def searchTimes (x : Search) (offset : Int) : Option (Int × Int × Int × Int) :=
  let cand := x.run.2
  if cand = 0 then none else some (timesOf cand x.dR x.dA offset)

section
variable (ref ano : DurInfo)

def pattern1Times (offset : Nat) : Option (Int × Int × Int × Int) :=
  searchTimes ⟨u16 (ref.dur+ano.dur),s16 ref.dur,s16 ano.dur,fun toaR => s16 offset - toaR,limitBreak ref,exceeds ano⟩
    (s16 offset)

def pattern2Times (offset : Nat) (btDur : Int) : Option (Int × Int × Int × Int) :=
  searchTimes ⟨u16 (ref.dur+ano.dur),s16 ref.dur,s16 ano.dur,fun toaR => s16 offset - toaR - btDur,limitBreak ref,
    exceeds ano⟩ (s16 offset)

def twoWroleTimes (offset : Nat) : Option (Int × Int × Int × Int) :=
  searchTimes ⟨u16 (ref.dur+ano.dur),s16 ref.dur,s16 ano.dur,fun toaR => s16 offset - toaR,limitContinue ref,exceeds ano⟩
    (s16 offset)

def limitedSplit (dur : DurInfo) : Option (Int × Int) :=
  let tob := s16 (dur.dur / 2 : Nat)
  let toa := s16 (dur.dur-tob)
  let (tob,toa) := if dur.durLimit.maxTob < tob then
    (s16 dur.durLimit.maxTob,s16 (dur.dur - s16 dur.durLimit.maxTob)) else (tob,toa)
  let (tob,toa) := if dur.durLimit.maxToa < toa then
    (s16 (dur.dur - s16 dur.durLimit.maxToa),s16 dur.durLimit.maxToa) else (tob,toa)
  if dur.durLimit.maxTob < tob ∨ dur.durLimit.maxToa < toa then none else some (tob,toa)

def courteous (srcRole tgtRole : Option RoleRef) (needed : Bool) : Pattern :=
  if needed then {pattern with courtesy:=⟨true,true,srcRole,tgtRole⟩} else pattern

-- From the times of the reference role, and from those of the other role. `gap`
-- is what lies between the two slots.
def negoFromRef (ano : DurInfo) (tobR toaR offset gap : Int) : Pattern :=
  let tobA := s16 (offset - toaR - gap)
  let toaA := s16 (ano.dur-tobA)
  setTimes (courteous pattern pattern.roleRef pattern.roleAno (tobA ≤ 0 || toaA ≤ 0)) tobR toaR tobA toaA

def negoFromAno (ref : DurInfo) (tobA toaA offset gap : Int) : Pattern :=
  let toaR := s16 (offset - tobA - gap)
  let tobR := s16 (ref.dur-toaR)
  setTimes (courteous pattern pattern.roleAno pattern.roleRef (toaR ≤ 0 || tobR ≤ 0)) tobR toaR tobA toaA

def negoLimited (offset gap : Int) : Option Pattern :=
  if ref.durLimit.enable then
    (limitedSplit ref).map (fun (tobR,toaR) => negoFromRef pattern ano tobR toaR offset gap)
  else (limitedSplit ano).map (fun (tobA,toaA) => negoFromAno pattern ref tobA toaA offset gap)

def nego2wslot1btslot (offset gap : Int) : Option Pattern :=
  if ref.durLimit.enable ∧ ano.durLimit.enable then none
  else if ref.durLimit.enable ∨ ano.durLimit.enable then negoLimited pattern ref ano offset gap
  else
    let tobR := s16 (ref.dur / 2 : Nat)
    some (negoFromRef pattern ano tobR (s16 (ref.dur-tobR)) offset gap)
end
end
section
variable (ref ano : DurInfo)

def mccCalc2wslot1btslotNegoP1 (offset btDur : Int) (pattern : Pattern) : Option Pattern :=
  (nego2wslot1btslot pattern ref ano offset 0).map (fun pattern => fillRefAnoBt pattern ref.dur ano.dur (u16 btDur))

def mccCalc2wslot1btslotNegoP2 (btDur offset : Int) (pattern : Pattern) : Option Pattern :=
  (nego2wslot1btslot pattern ref ano offset btDur).map (fun pattern => fillRefBtAno pattern ref.dur ano.dur (u16 btDur))

def mccCalc2WroleNegoPattern (offset : Int) (pattern : Pattern) : Option Pattern :=
  if ref.durLimit.enable = ano.durLimit.enable then none
  else (negoLimited pattern ref ano offset 0).map (fun pattern => fillRefAno pattern ref.dur ano.dur)

section
variable (offset : Nat) (btDur : Int) (pattern : Pattern)

def mccCalculate2wslot1btslotPattern1 : Option Pattern :=
  (pattern1Times ref ano offset).map (fun times => fillRefAnoBt (withTimes pattern times) ref.dur ano.dur (u16 btDur))

def mccCalculate2wslot1btslotPattern2 : Option Pattern :=
  (pattern2Times ref ano offset btDur).map (fun times => fillRefBtAno (withTimes pattern times) ref.dur ano.dur (u16 btDur))

def offsetP1 (durR tobR tobA : Int) : Int := s16 (durR - tobR + tobA)
def offsetP2 (durR btDur tobR tobA : Int) : Int := s16 (durR - tobR + btDur + tobA)

def offsetRangeP1 (ref ano : Int) : Int × Int :=
  let bcnMin := offsetP1 ref earlyRxBcnT earlyRxBcnT
  let bcnMax := offsetP1 ref earlyRxBcnT (s16 (ano-minRxBcnT))
  let min1 := offsetP1 ref (s16 (ref-minRxBcnT)) earlyRxBcnT
  let max1 := offsetP1 ref (s16 (ref-minRxBcnT)) (s16 (ano-minRxBcnT))
  (if min1 < bcnMin then min1 else bcnMin,if bcnMax < max1 then max1 else bcnMax)

-- min1 is assigned twice and max1 stays 0.
def offsetRangeP2 (ref ano btDur : Int) : Int × Int :=
  let bcnMin := offsetP2 ref btDur earlyRxBcnT earlyRxBcnT
  let bcnMax := offsetP2 ref btDur earlyRxBcnT (s16 (ano-minRxBcnT))
  let min1 := offsetP2 ref btDur (s16 (ref-minRxBcnT)) (s16 (ano-minRxBcnT))
  let max1 := 0
  (if min1 < bcnMin then min1 else bcnMin,if bcnMax < max1 then max1 else bcnMax)

-- The two nego patterns; the second is called with offset and bt_dur exchanged.
def negoPattern : Option Pattern :=
  match mccCalc2wslot1btslotNegoP1 ref ano (s16 offset) btDur pattern with
  | some pattern => some pattern
  | none => mccCalc2wslot1btslotNegoP2 ref ano (s16 offset) btDur pattern
end

def orNego (found : Option Pattern) (ref ano : DurInfo) (offset : Nat) (btDur : Int) (pattern : Pattern) : Option Pattern :=
  match found with
  | some pattern => some pattern
  | none => negoPattern ref ano offset btDur pattern

def mccCalculate2wslot1btslotPattern (btDur : Int) (pattern : Pattern) : Option Pattern :=
  let offset := pattern.bcnsOffset
  let range1 := offsetRangeP1 (s16 ref.dur) (s16 ano.dur)
  let range2 := offsetRangeP2 (s16 ref.dur) (s16 ano.dur) btDur
  if range1.1 ≤ offset ∧ offset ≤ range1.2 then
    orNego (mccCalculate2wslot1btslotPattern1 ref ano offset btDur pattern) ref ano offset btDur pattern
  else if range2.1 ≤ offset ∧ offset ≤ range2.2 then
    orNego (mccCalculate2wslot1btslotPattern2 ref ano offset btDur pattern) ref ano offset btDur pattern
  else negoPattern ref ano offset btDur pattern

def mccCalculate2WrolePattern (offset : Nat) (pattern : Pattern) : Option Pattern :=
  match twoWroleTimes ref ano offset with
  | some times => some (fillRefAno (withTimes pattern times) ref.dur ano.dur)
  | none => mccCalc2WroleNegoPattern ref ano (s16 offset) pattern
end

-- The two loops below keep no candidate: tob_r is the one before the last.
def clientTimes (x : Search) : Int × Int × Int × Int :=
  let tobR := s16 (x.run.1-1)
  let toaR := s16 (x.dR-tobR)
  let tobA := s16 (x.tobAOf toaR)
  (u8 tobR,u8 toaR,u8 tobA,u8 (s16 (x.dA-tobA)))

def mccCalculate2ClientsPattern (refDur anoDur offset : Nat) (pattern : Pattern) : Pattern :=
  let times := clientTimes ⟨u16 (refDur+anoDur),s16 refDur,s16 anoDur,fun toaR => s16 offset - toaR,unlimited,fun _ _ => false⟩
  fillRefAno (withTimes pattern times) refDur anoDur

def offsetWorsecase (ref ano : Int) (bcnIntvl : Nat) (toaRef tobAno : Int) : Int :=
  s16 (toaRef + tobAno + ref + ano - 2*bcnIntvl)

def offsetRangeWorsecase (ref ano : Int) (bcnIntvl : Nat) : Int × Int :=
  let min1 := offsetWorsecase ref ano bcnIntvl minRxBcnT earlyRxBcnT
  let max1 := offsetWorsecase ref ano bcnIntvl minRxBcnT (s16 (ano-minRxBcnT))
  let min2 := offsetWorsecase ref ano bcnIntvl (s16 (ref-earlyRxBcnT)) earlyRxBcnT
  let max2 := offsetWorsecase ref ano bcnIntvl (s16 (ref-earlyRxBcnT)) (s16 (ano-minRxBcnT))
  (if min1 < min2 then min1 else min2,if max2 < max1 then max1 else max2)

def worsecaseOffset (refDur anoDur offset bcnIntvl : Nat) : Option Int :=
  let range := offsetRangeWorsecase (s16 refDur) (s16 anoDur) bcnIntvl
  let bcnsOffset := s16 offset
  if range.1 ≤ bcnsOffset ∧ bcnsOffset ≤ range.2 then some bcnsOffset
  else
    let bcnsOffset := s16 (bcnIntvl-bcnsOffset)
    if range.1 ≤ bcnsOffset ∧ range.1 ≤ range.2 then some bcnsOffset else none

def mccCalc2ClientsWorsecasePattern (refDur anoDur offset bcnIntvl : Nat) (pattern : Pattern) : Bool × Pattern :=
  let mccIntvl := u16 (refDur+anoDur)
  match if bcnIntvl = handleBcnIntvl then worsecaseOffset refDur anoDur offset bcnIntvl else none with
  | none => (false,{pattern with calcFail:=true})
  | some bcnsOffset =>
    let times := clientTimes ⟨mccIntvl,s16 refDur,s16 anoDur,fun toaR => bcnsOffset + 2*bcnIntvl - toaR - mccIntvl,
      unlimited,fun _ _ => false⟩
    (true,fillRefAno (withTimes pattern times) refDur anoDur)

def Mem.durOf (m : Mem) (r : Option RoleRef) : Nat := (r.map fun r => (m.role r).policy.durInfo.dur).getD 0

def mccSet2ClientsWorsecaseDefaultPattern (m : Mem) (durRef : Nat) (pattern : Pattern) : Pattern :=
  let toaR : Int := clientsWorsecaseRefToa
  fillRefAno {pattern with toaR,tobR:=s16 (durRef-toaR)} (m.durOf pattern.roleRef) (m.durOf pattern.roleAno)

def worsecasePattern (m : Mem) (refDur anoDur offset bcnIntvl : Nat) (pattern : Pattern) : Pattern :=
  let (found,pattern) := mccCalc2ClientsWorsecasePattern refDur anoDur offset bcnIntvl pattern
  if found then pattern else mccSet2ClientsWorsecaseDefaultPattern m refDur pattern
end Rtl8852au.Mcc
