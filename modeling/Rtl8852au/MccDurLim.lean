import Rtl8852au.Mcc

namespace Rtl8852au.Mcc

-- The time from the beacon to the absence.
def DurLimReq.phase (req : DurLimReq) : Nat := (req.startTH*2 ^ 32 + req.startTL) % req.intvl

structure Matches (mrole : MccRole) (req : DurLimReq) : Prop where
  intvl : req.intvl = mrole.bcnIntvl*tu
  fits : mrole.bcnIntvl < 2 ^ 16
  shorter : req.dur < req.intvl

structure Clear (lim : DurLim) (req : DurLimReq) : Prop where
  sum : lim.maxToa + lim.maxTob = lim.maxDur
  toa : lim.maxToa*tu ≤ req.phase
  tob : req.phase + req.dur + lim.maxTob*tu ≤ req.intvl
  wholeToa : lim.maxToa = req.phase / tu
  wholeDur : lim.maxDur = (req.intvl-req.dur) / tu

section
variable (mrole : MccRole) (req : DurLimReq)

def durLimOf : DurLim := (mccFillDurLimInfo mrole req).policy.durInfo.durLimit

-- What the limit is for: it keeps clear of the absence, and is there for each
-- request whose absence leaves the beacon alone.
def KeepsClear : Prop :=
  ((durLimOf mrole req).enable → Clear (durLimOf mrole req) req) ∧
    (req.enable → 0 < req.phase → req.phase < req.intvl - req.dur → (durLimOf mrole req).enable)

-- The phase is narrowed to 16 bits, and each time is rounded down to TU alone.
def Narrows (req : DurLimReq) : Prop :=
  if req.phase < 2 ^ 16 then
    req.phase = 0 ∨ req.intvl - req.dur ≤ req.phase ∨ req.phase % tu ≤ (req.intvl-req.dur) % tu
  else req.intvl - req.dur ≤ req.phase ∧ (req.phase % 2 ^ 16 = 0 ∨ req.intvl - req.dur ≤ req.phase % 2 ^ 16)

theorem durLim_cases (fits : Matches mrole req) :
    let toa := req.phase % 2 ^ 16
    let dur := (req.intvl-req.dur) / tu
    ((durLimOf mrole req).enable ↔ req.enable ∧ toa < req.intvl - req.dur ∧ toa ≠ 0) ∧
      ((durLimOf mrole req).enable → durLimOf mrole req = ⟨true,req.tag,dur - toa / tu,toa / tu,dur⟩) := by
  obtain ⟨intvl,fits,shorter⟩ := fits
  have bound : req.intvl < 2 ^ 26 := by rw [intvl]; unfold tu; omega
  have phase : u16 ((req.startTH*2 ^ 32 + req.startTL) % (mrole.bcnIntvl*tu) : Nat) = req.phase % 2 ^ 16 := by
    unfold DurLimReq.phase u16
    rw [intvl]
    omega
  have left : u32 (req.intvl-req.dur) = req.intvl - req.dur := by unfold u32; omega
  unfold durLimOf mccFillDurLimInfo
  dsimp only
  rw [phase,← intvl,left]
  generalize req.phase % 2 ^ 16 = toa
  split
  · rename_i refused
    refine ⟨⟨nofun,?_⟩,nofun⟩
    rintro ⟨on,below,some⟩
    rcases refused with off | differs | late | zero
    · simp [on] at off
    · exact absurd rfl differs
    · omega
    · exact absurd zero some
  · rename_i taken
    simp only [not_or,Bool.not_eq_true,Bool.not_eq_false',not_le] at taken
    obtain ⟨on,_,below,some⟩ := taken
    refine ⟨⟨fun _ => ⟨on,below,some⟩,fun _ => rfl⟩,fun _ => ?_⟩
    have order : toa / tu ≤ (req.intvl-req.dur) / tu := Nat.div_le_div_right (Nat.le_of_lt below)
    unfold tu at order ⊢
    simp only [DurLim.mk.injEq,true_and]
    unfold u16 u32
    omega

theorem clear_iff (fits : Matches mrole req) (on : (durLimOf mrole req).enable) :
    Clear (durLimOf mrole req) req ↔ req.phase < 2 ^ 16 ∧ req.phase % tu ≤ (req.intvl-req.dur) % tu := by
  obtain ⟨enabled,is⟩ := durLim_cases mrole req fits
  obtain ⟨_,below,_⟩ := enabled.mp on
  have shorter := fits.shorter
  rw [is on]
  unfold tu
  constructor
  · intro clear
    obtain ⟨_,_,tob,whole,_⟩ := clear
    unfold tu at tob whole
    dsimp only at tob whole
    have narrow : req.phase < 2 ^ 16 := by omega
    rw [Nat.mod_eq_of_lt narrow] at tob below
    exact ⟨narrow,by omega⟩
  · rintro ⟨narrow,fraction⟩
    rw [Nat.mod_eq_of_lt narrow] at below ⊢
    constructor <;> simp only [tu] <;> omega
end

theorem dur_limit_clear (mrole : MccRole) (req : DurLimReq) (fits : Matches mrole req) :
    KeepsClear mrole req ↔ req.enable = false ∨ Narrows req := by
  have enabled := (durLim_cases mrole req fits).1
  have clear := clear_iff mrole req fits
  unfold KeepsClear Narrows
  cases asked : req.enable with
  | false => simp [enabled,asked]
  | true =>
    simp only [asked,true_and] at enabled
    by_cases on : (durLimOf mrole req).enable
    · have ⟨below,nonzero⟩ := enabled.mp on
      simp only [on,clear on]
      split <;> simp <;> omega
    · rw [enabled] at on
      simp only [enabled]
      split <;> simp <;> omega

def farNoa : DurLimReq := ⟨.noa,true,0,70000,1024,102400⟩

theorem dur_limit_overlaps : ¬ KeepsClear {zeroRole with bcnIntvl := 100} farNoa := by
  intro clear
  have tob := (clear.1 (by decide +kernel)).tob
  revert tob
  decide +kernel

theorem dur_limit_clear_near : KeepsClear {zeroRole with bcnIntvl := 100} {farNoa with startTL := 30720} ↔
    true = false ∨ Narrows {farNoa with startTL := 30720} :=
  dur_limit_clear _ {farNoa with startTL := 30720} ⟨by decide,by decide,by decide⟩
end Rtl8852au.Mcc
