import Mathlib.Data.Int.ModEq
import Rtl8852au.Twt

namespace Rtl8852au.Twt
open Nat

def ignoreCfgId : UInt8 := 0xff
def joined (h l : UInt32) : UInt64 := h.toUInt64 <<< 32 ||| l.toUInt64

-- An int that goes into a u32. The exponent has five bits in the element.
def twtCalcIntvl (exp : UInt8) (mantissa : UInt16) : UInt32 := UInt32.ofNat (mantissa.toNat*2 ^ exp.toNat)

def twtCalcWakeupDur (dur : UInt8) : WakeDurUnit → UInt32
  | .wake256us => dur.toUInt32*256
  | .wake1tu => dur.toUInt32*1024

-- do_div divides by whatever it is given.
def osModular64 (x y : UInt64) : Option UInt64 := if y = 0 then none else some (x % y)

def TwtInfo.intvl (info : TwtInfo) : UInt32 := twtCalcIntvl info.twtWakeIntExp info.twtWakeIntMantissa
def TwtInfo.refTsf (info : TwtInfo) : UInt64 := joined info.targetWakeTimeH info.targetWakeTimeL

inductive WakeTime where
  | fault
  | failure
  | success (tsfH tsfL : UInt32)

def WakeTime.of (tgtTsf : UInt64) : WakeTime := .success (tgtTsf >>> 32).toUInt32 tgtTsf.toUInt32

section
variable (sup init : Bool) (tsf : Option (UInt32 × UInt32)) (r : Ring σ ρ) (id : UInt8) (offset : UInt16)

def rtwPhlTwtGetTargetWakeTime :
    WakeTime :=
  if !sup then .failure
  else if !init then .failure
  else match tsf with
  | none => .failure
  | some (cTsfH,cTsfL) =>
    let tgtTsf := joined cTsfH cTsfL + offset.toUInt64*1000
    if id = ignoreCfgId then .of tgtTsf
    else match getConfigById r id.toNat with
    | none => .failure
    | some i =>
      let info := (r i).twtInfo
      match osModular64 (tgtTsf-info.refTsf) info.intvl.toUInt64 with
      | none => .fault
      | some phase => .of (tgtTsf - phase + info.intvl.toUInt64)

def absDiff (x y : UInt64) : UInt64 := if x > y then x - y else y - x

def twtCompareTwtPara (info : TwtInfo) (setup : TwtSetupInfo) : Option Bool :=
  let cmpInfo := fillConfigInfo zeroInfo setup
  if cmpInfo.responderPmMode ≠ info.responderPmMode ∨ cmpInfo.negoType ≠ info.negoType ∨ cmpInfo.trigger ≠ info.trigger ∨
      cmpInfo.flowType ≠ info.flowType ∨ cmpInfo.implicitLastbcast ≠ info.implicitLastbcast ∨
      cmpInfo.twtProtection ≠ info.twtProtection ∨
      twtCalcWakeupDur cmpInfo.nomMinTwtWakeDur cmpInfo.wakeDurUnit ≠ twtCalcWakeupDur info.nomMinTwtWakeDur info.wakeDurUnit ∨
      cmpInfo.intvl ≠ info.intvl then some false
  else
    (osModular64 (absDiff cmpInfo.refTsf info.refTsf) info.intvl.toUInt64).map fun left => left == 0

-- What is stored for a setup.
def TwtSetupInfo.config (setup : TwtSetupInfo) : TwtInfo := fillConfigInfo zeroInfo setup

-- The interval that the two fields stand for.
def TwtInfo.interval (info : TwtInfo) : Nat := info.twtWakeIntMantissa.toNat*2 ^ info.twtWakeIntExp.toNat

def Timely (info : TwtInfo) (start : Nat) : WakeTime → Prop
  | .fault => False
  | .failure => True
  | .success tsfH tsfL =>
    info.intvl.toNat = info.interval ∧ (joined tsfH tsfL).toNat ≡ info.refTsf.toNat [MOD info.interval] ∧
      start < (joined tsfH tsfL).toNat ∧ (joined tsfH tsfL).toNat ≤ start + info.interval

-- The first wake time after `start` is below 2^64, and the difference does not wrap or wraps by whole intervals.
def InReach (info : TwtInfo) (start : Nat) : Prop :=
  0 < info.interval ∧ info.interval < 2 ^ 32 ∧ (info.refTsf.toNat ≤ start ∨ info.interval ∣ 2 ^ 64) ∧
    (start : Int) + info.interval - ((start : Int) - info.refTsf.toNat) % info.interval < 2 ^ 64

def SameTimes (one two : TwtInfo) : Prop :=
  ∀ t, t ≡ one.refTsf.toNat [MOD one.interval] ↔ t ≡ two.refTsf.toNat [MOD two.interval]

def startAt (cTsfH cTsfL : UInt32) (offset : UInt16) : Nat := (joined cTsfH cTsfL).toNat + offset.toNat*1000

def WakesTimely : Prop :=
  ∀ i cTsfH cTsfL, getConfigById r id.toNat = some i → tsf = some (cTsfH,cTsfL) →
    Timely (r i).twtInfo (startAt cTsfH cTsfL offset) (rtwPhlTwtGetTargetWakeTime sup init tsf r id offset)
end

-- Against every offer with the same interval.
def ComparesRight (setup : TwtSetupInfo) : Prop :=
  ∀ offer : TwtSetupInfo, offer.config.interval = setup.config.interval →
    ∃ same, twtCompareTwtPara setup.config offer = some same ∧ (same → SameTimes offer.config setup.config)

theorem joined_of (t : UInt64) : joined (t >>> 32).toUInt32 t.toUInt32 = t := by
  have low : t.toNat % 2 ^ 32 < 2 ^ 32 := mod_lt _ (by decide)
  have bound := t.toNat_lt
  apply UInt64.toNat_inj.mp
  simp only [joined,UInt64.toNat_or,UInt64.toNat_shiftLeft,UInt32.toNat_toUInt64,UInt64.toNat_toUInt32,UInt64.toNat_shiftRight]
  have part : t.toNat >>> 32 < 2 ^ 32 := by rw [shiftRight_eq_div_pow]; omega
  have whole : (t.toNat >>> 32) <<< 32 < 2 ^ 64 := by rw [shiftLeft_eq]; omega
  simp only [UInt64.toNat_ofNat,reducePow,reduceMod] at low part whole ⊢
  rw [mod_eq_of_lt part,mod_eq_of_lt whole,← shiftLeft_add_eq_or_of_lt low,shiftLeft_eq,
    shiftRight_eq_div_pow]
  omega

theorem intvl_toNat (info : TwtInfo) : info.intvl.toNat = info.interval % 2 ^ 32 := by
  simp [TwtInfo.intvl,TwtInfo.interval,twtCalcIntvl]

theorem stepped_timely {start ref intvl phase reached : Nat} (low : ref < 2 ^ 64) (some_ : 0 < intvl) (short : intvl < 2 ^ 32)
    (left : phase = (2 ^ 64 - ref + start % 2 ^ 64) % 2 ^ 64 % intvl)
    (ends : reached = (2 ^ 64 - phase + start % 2 ^ 64 + intvl) % 2 ^ 64) :
    reached ≡ ref [MOD intvl] ∧ start < reached ∧ reached ≤ start + intvl ↔
      (ref ≤ start ∨ intvl ∣ 2 ^ 64) ∧ (start : Int) + intvl - ((start : Int) - ref) % intvl < 2 ^ 64 := by
  have below : reached < 2 ^ 64 := ends ▸ mod_lt _ (by decide)
  have near : phase < intvl := left ▸ mod_lt _ some_
  have back := Int.emod_lt_of_pos ((start : Int) - ref) (show (0 : Int) < intvl by omega)
  rcases lt_or_ge start (2 ^ 64) with inside | beyond
  · have split := div_add_mod ((2 ^ 64 - ref + start % 2 ^ 64) % 2 ^ 64) intvl
    rw [← left] at split
    generalize (2 ^ 64 - ref + start % 2 ^ 64) % 2 ^ 64 / intvl = turns at split
    rw [mod_eq_of_lt inside] at split ends
    have split : (intvl : Int) * turns + phase = ((2 ^ 64 - ref + start) % 2 ^ 64 : Nat) := by exact_mod_cast split
    -- The phase is that of the true difference if this does not wrap or the interval divides 2^64.
    have multiple : ref ≤ start ∨ intvl ∣ 2 ^ 64 → (intvl : Int) ∣ (start : Int) - ref - phase := by
      intro fits
      rcases lt_or_ge start ref with ahead | behind
      · obtain ⟨parts,whole⟩ := fits.resolve_left (by omega)
        refine ⟨(turns : Int) - parts,?_⟩
        have whole : (intvl : Int) * parts = 2 ^ 64 := by exact_mod_cast whole.symm
        rw [mul_sub]
        omega
      · exact ⟨turns,by omega⟩
    have same : ref ≤ start ∨ intvl ∣ 2 ^ 64 → ((start : Int) - ref) % intvl = phase := by
      intro fits
      rw [Int.emod_eq_emod_iff_emod_sub_eq_zero.mpr (Int.emod_eq_zero_of_dvd (multiple fits))]
      exact Int.emod_eq_of_lt (by omega) (by omega)
    rcases lt_or_ge (start + intvl - phase) (2 ^ 64) with fitting | beyond
    · have there : reached = start + intvl - phase := by omega
      rw [modEq_iff_dvd]
      constructor
      · intro ⟨congruent,_⟩
        have fits : ref ≤ start ∨ intvl ∣ 2 ^ 64 := by
          rcases lt_or_ge start ref with ahead | behind
          · obtain ⟨parts,whole⟩ := congruent
            right
            rw [← Int.natCast_dvd_natCast]
            refine ⟨turns + 1 + parts,?_⟩
            rw [mul_add,mul_add,mul_one]
            push_cast
            omega
          · exact .inl behind
        refine ⟨fits,?_⟩
        rw [same fits]
        omega
      · intro ⟨fits,_⟩
        obtain ⟨parts,whole⟩ := multiple fits
        refine ⟨⟨-parts - 1,?_⟩,by omega,by omega⟩
        rw [mul_sub,mul_neg,mul_one]
        omega
    · refine iff_of_false (fun timely => by omega) fun reaches => ?_
      have reached := same reaches.1
      omega
  · exact iff_of_false (fun timely => by omega) fun reaches => by omega

theorem modular_some {x y : UInt64} (some_ : 0 < y.toNat) : osModular64 x y = some (x % y) :=
  if_neg fun zero => by simp [zero] at some_

variable {r : Ring σ ρ}

theorem get_target_timely (id : UInt8) (offset : UInt16) (cTsfH cTsfL : UInt32) (config : id ≠ ignoreCfgId)
    (found : getConfigById r id.toNat = some i) :
    Timely (r i).twtInfo (startAt cTsfH cTsfL offset)
      (rtwPhlTwtGetTargetWakeTime true true (some (cTsfH,cTsfL)) r id offset) ↔
    InReach (r i).twtInfo (startAt cTsfH cTsfL offset) := by
  have cut := intvl_toNat (r i).twtInfo
  have result : rtwPhlTwtGetTargetWakeTime true true (some (cTsfH,cTsfL)) r id offset =
      match osModular64 (joined cTsfH cTsfL + offset.toUInt64*1000 - (r i).twtInfo.refTsf) (r i).twtInfo.intvl.toUInt64 with
      | none => .fault
      | some phase => .of (joined cTsfH cTsfL + offset.toUInt64*1000 - phase + (r i).twtInfo.intvl.toUInt64) := by
    unfold rtwPhlTwtGetTargetWakeTime
    simp only [Bool.not_true,Bool.false_eq_true,if_false,if_neg config,found]
  rw [result]
  generalize (r i).twtInfo = info at cut
  unfold InReach startAt
  by_cases some_ : 0 < info.intvl.toNat
  · rw [modular_some (by simpa using some_)]
    unfold WakeTime.of Timely
    dsimp only
    rw [joined_of]
    by_cases short : info.interval < 2 ^ 32
    · have same : info.intvl.toNat = info.interval := by rw [cut,mod_eq_of_lt short]
      rw [and_iff_right same,and_iff_right (same ▸ some_ : 0 < info.interval),and_iff_right short]
      refine stepped_timely info.refTsf.toNat_lt (same ▸ some_) short rfl ?_
      have started : (joined cTsfH cTsfL + offset.toUInt64*1000).toNat =
          ((joined cTsfH cTsfL).toNat + offset.toNat*1000) % 2 ^ 64 := by
        simp [UInt64.toNat_add]
      rw [UInt64.toNat_add,UInt64.toNat_sub,UInt64.toNat_mod,UInt64.toNat_sub,started,UInt32.toNat_toUInt64,same]
      omega
    · have wrapped : info.intvl.toNat ≠ info.interval := by omega
      exact iff_of_false (fun timely => wrapped timely.1) fun reach => short reach.2.1
  · have zero : info.intvl.toUInt64 = 0 := by
      apply UInt64.toNat_inj.mp
      simp
      omega
    rw [osModular64,if_pos zero]
    refine iff_of_false nofun fun reach => ?_
    omega

theorem absDiff_toNat (x y : UInt64) : (absDiff x y).toNat = (x.toNat-y.toNat) + (y.toNat-x.toNat) := by
  unfold absDiff
  split
  · rename_i later
    have order := UInt64.lt_iff_toNat_lt.mp later
    rw [UInt64.toNat_sub_of_le _ _ (UInt64.le_of_lt later)]
    omega
  · rename_i early
    have order := UInt64.le_iff_toNat_le.mp (UInt64.not_lt.mp early)
    rw [UInt64.toNat_sub_of_le _ _ (UInt64.not_lt.mp early)]
    omega

-- The offer `setup` again but for another reference time.
def retimed (setup : TwtSetupInfo) (t : UInt64) : TwtSetupInfo :=
  {setup with para:={setup.para with targetWakeTH:=(t >>> 32).toUInt32,targetWakeTL:=t.toUInt32}}

theorem compare_alike (info : TwtInfo) (setup : TwtSetupInfo)
    (alike : ∃ h l, setup.config = {info with targetWakeTimeH:=h,targetWakeTimeL:=l}) :
    twtCompareTwtPara info setup =
      (osModular64 (absDiff setup.config.refTsf info.refTsf) info.intvl.toUInt64).map fun left => left == 0 := by
  obtain ⟨h,l,alike⟩ := alike
  unfold TwtSetupInfo.config at alike ⊢
  unfold twtCompareTwtPara
  dsimp only
  rw [alike]
  exact if_neg (by simp [TwtInfo.intvl])

theorem moved_by (x : UInt64) (step : UInt32) :
    ∃ t : UInt64, (absDiff t x).toNat = step.toNat ∧
      ((t.toNat : Int) - x.toNat = step.toNat ∨ (x.toNat : Int) - t.toNat = step.toNat) := by
  have small := step.toNat_lt
  have low := x.toNat_lt
  have reached : ∃ t : UInt64, t.toNat = if x.toNat < 2 ^ 63 then x.toNat + step.toNat else x.toNat - step.toNat :=
    ⟨.ofNat _,UInt64.toNat_ofNat_of_lt' (by split <;> (show _ < 2 ^ 64; omega))⟩
  obtain ⟨t,there⟩ := reached
  refine ⟨t,?_⟩
  rw [absDiff_toNat]
  split at there <;> omega

theorem compare_congruent {x y intvl : UInt64} (left : (absDiff x y % intvl == 0)) : x.toNat ≡ y.toNat [MOD intvl.toNat] := by
  have whole : (absDiff x y).toNat % intvl.toNat = 0 := by
    rw [← UInt64.toNat_mod,eq_of_beq left]
    rfl
  have divides := dvd_of_mod_eq_zero whole
  rw [absDiff_toNat] at divides
  rcases Nat.le_total x.toNat y.toNat with behind | ahead
  · rw [Nat.sub_eq_zero_of_le behind,Nat.zero_add] at divides
    exact (modEq_iff_dvd' behind).mpr divides
  · rw [Nat.sub_eq_zero_of_le ahead,Nat.add_zero] at divides
    exact ((modEq_iff_dvd' ahead).mpr divides).symm

theorem retimed_config (indiv : setup.negoType = .indivTwt) (t : UInt64) : (retimed setup t).config =
    {setup.config with targetWakeTimeH:=(t >>> 32).toUInt32,targetWakeTimeL:=t.toUInt32} := by
  unfold TwtSetupInfo.config fillConfigInfo retimed
  dsimp only
  rw [if_pos indiv,if_pos indiv]
  rfl

theorem compare_meets (setup : TwtSetupInfo) : ComparesRight setup ↔
    0 < setup.config.interval ∧ setup.config.interval < 2 ^ 32 := by
  have cut := intvl_toNat setup.config
  constructor
  · intro meets
    by_contra outside
    by_cases zero : setup.config.intvl.toNat = 0
    · obtain ⟨same,answer,_⟩ := meets setup rfl
      rw [compare_alike setup.config setup ⟨_,_,rfl⟩,osModular64,if_pos (UInt64.toNat_inj.mp (by simpa using zero))] at answer
      cases answer
    · have indiv : setup.negoType = .indivTwt := by
        by_contra other
        apply zero
        rw [cut]
        unfold TwtSetupInfo.config fillConfigInfo TwtInfo.interval
        dsimp only
        rw [if_neg other]
        rfl
      obtain ⟨t,difference,way⟩ := moved_by setup.config.refTsf setup.config.intvl
      have again := retimed_config indiv t
      have time : (retimed setup t).config.refTsf = t := by
        rw [again]
        exact joined_of t
      have size : (retimed setup t).config.interval = setup.config.interval := by rw [again]; rfl
      obtain ⟨same,answer,times⟩ := meets (retimed setup t) size
      have step := UInt32.toNat_toUInt64 setup.config.intvl
      rw [compare_alike setup.config (retimed setup t) ⟨_,_,again⟩,time,modular_some (by omega),
        UInt64.toNat_inj.mp (difference.trans step.symm),Option.map_some,UInt64.mod_self] at answer
      have congruent := (times (Option.some.inj answer).symm setup.config.refTsf.toNat).mpr rfl
      rw [time,modEq_iff_dvd,size] at congruent
      have long : (setup.config.interval : Int) ≤ setup.config.intvl.toNat := by
        rcases way with later | earlier
        · exact Int.le_of_dvd (by omega) (later ▸ congruent)
        · have negated := Int.dvd_neg.mpr congruent
          rw [Int.neg_sub,earlier] at negated
          exact Int.le_of_dvd (by omega) negated
      omega
  · intro ⟨some_,short⟩ offer interval
    have whole : setup.config.intvl.toUInt64.toNat = setup.config.interval := by
      rw [UInt32.toNat_toUInt64,cut,mod_eq_of_lt short]
    unfold twtCompareTwtPara
    dsimp only
    split
    · exact ⟨false,rfl,nofun⟩
    · rw [modular_some (whole ▸ some_)]
      refine ⟨_,rfl,fun left => ?_⟩
      have same := compare_congruent left
      rw [whole] at same
      intro t
      rw [interval]
      exact ⟨fun here => here.trans same,fun here => here.trans same.symm⟩

theorem wakes_meet (sup init : Bool) (tsf : Option (UInt32 × UInt32)) (r : Ring σ ρ) (id : UInt8) (offset : UInt16) :
    WakesTimely sup init tsf r id offset ↔ (sup → init → ∀ i cTsfH cTsfL,
      getConfigById r id.toNat = some i → tsf = some (cTsfH,cTsfL) → InReach (r i).twtInfo (startAt cTsfH cTsfL offset)) := by
  unfold WakesTimely
  cases sup with
  | false => exact iff_of_true (fun _ _ _ _ _ => trivial) nofun
  | true =>
    cases init with
    | false => exact iff_of_true (fun _ _ _ _ _ => trivial) nofun
    | true =>
      rw [forall_prop_of_true rfl,forall_prop_of_true rfl]
      refine forall_congr' fun i => forall_congr' fun cTsfH => forall_congr' fun cTsfL => imp_congr_right fun found =>
        imp_congr_right fun read => ?_
      have config : id ≠ ignoreCfgId := by
        rintro rfl
        cases found
      rw [read]
      exact get_target_timely id offset cTsfH cTsfL config found

theorem wake_times_meet :
    (∀ (sup init : Bool) (tsf : Option (UInt32 × UInt32)) (r : Ring σ ρ) (id : UInt8) (offset : UInt16),
      WakesTimely sup init tsf r id offset ↔ (sup = true → init = true → ∀ i cTsfH cTsfL,
        getConfigById r id.toNat = some i → tsf = some (cTsfH,cTsfL) → InReach (r i).twtInfo (startAt cTsfH cTsfL offset))) ∧
    ∀ setup, ComparesRight setup ↔ 0 < setup.config.interval ∧ setup.config.interval < 2 ^ 32 :=
  ⟨wakes_meet,compare_meets⟩

def heldConfig (info : TwtInfo) : Ring Unit Unit := fun _ => ⟨.enable,none,info,[]⟩

-- Every 1000 us from 2^63 on, asked for at 0.
def laterInfo : TwtInfo := {zeroInfo with twtWakeIntMantissa:=1000,targetWakeTimeH:=0x80000000}

theorem wake_time_misses :
    ¬((∀ (sup init : Bool) (tsf : Option (UInt32 × UInt32)) (r : Ring Unit Unit) (id : UInt8) (offset : UInt16),
      WakesTimely sup init tsf r id offset) ∧ ∀ setup, ComparesRight setup) := by
  intro ⟨right,_⟩
  have misses := (right true true (some (0,0)) (heldConfig laterInfo) 0 0 0 0 0 rfl rfl).2.1
  revert misses
  decide
end Rtl8852au.Twt
