import Rtl8852au.MccPattern

namespace Rtl8852au.Mcc
open Nat

structure Splits (refDur anoDur tobR toaR tobA toaA : Int) : Prop where
  ref : tobR + toaR = refDur
  ano : tobA + toaA = anoDur
  tobR : earlyRxBcnT ≤ tobR
  toaR : minRxBcnT ≤ toaR
  tobA : earlyRxBcnT ≤ tobA
  toaA : minRxBcnT ≤ toaA

section
variable (refDur anoDur offset : Nat)

def worsecaseMeets : Bool × Pattern → Prop
  | (true,p) => Splits refDur anoDur p.tobR p.toaR p.tobA p.toaA ∧
      (p.toaR + anoDur + refDur + p.tobA - offset) % handleBcnIntvl = 0
  | (false,_) => ∀ tobR toaR tobA toaA, Splits refDur anoDur tobR toaR tobA toaA →
      toaR + anoDur + refDur + tobA ≠ 2*handleBcnIntvl + offset ∧ toaR + anoDur + refDur + tobA ≠ handleBcnIntvl + offset

-- `shared` is toa_r + tob_a. The times are stored in 8 bits.
abbrev Stored8 (dR dA shared : Int) : Prop := dR - shared ≤ 250 ∧ dA - shared ≤ 245
abbrev SharedFits (dR dA shared : Int) : Prop := 15 ≤ shared ∧ shared ≤ dR + dA - 15

-- Both 16-bit tests of the offset against the range reject it.
def OutOfRange : Prop :=
  let range := offsetRangeWorsecase (s16 refDur) (s16 anoDur) handleBcnIntvl
  ¬ (range.1 ≤ offset ∧ offset ≤ range.2) ∧ ¬ (range.1 ≤ handleBcnIntvl - offset ∧ range.1 ≤ range.2)

def WorsecaseGood : Prop :=
  if 510 < refDur ∨ 510 < anoDur then OutOfRange refDur anoDur offset
  else if SharedFits refDur anoDur (200 + offset - refDur - anoDur) then
    Stored8 refDur anoDur (200 + offset - refDur - anoDur)
  else refDur + anoDur + offset ≤ 285 → (offset = 0 ∨ offset = 50) ∧
    SharedFits refDur anoDur (300 - offset - refDur - anoDur) ∧ Stored8 refDur anoDur (300 - offset - refDur - anoDur)
end

theorem s16_small {x : Int} (low : -32768 ≤ x) (high : x < 32768) : s16 x = x := by
  exact Int.bmod_eq_of_le (by omega) (by omega)

theorem u8_le {x : Int} (positive : 0 ≤ x) : (u8 x : Int) ≤ x := by
  unfold u8
  omega

theorem u8_byte (x : Int) : (u8 x : Int) ≤ 255 := by
  unfold u8
  omega

theorem u8_small {x : Int} (positive : 0 ≤ x) (small : x ≤ 255) : (u8 x : Int) = x := by
  unfold u8
  omega

def clientSearch (mccIntvl : Nat) (dR dA shared : Int) : Search :=
  ⟨mccIntvl,dR,dA,fun toaR => shared - toaR,unlimited,fun _ _ => false⟩

section
variable {dR dA shared : Int} {mccIntvl : Nat} (ref : 15 ≤ dR ∧ dR ≤ 510) (ano : 15 ≤ dA ∧ dA ≤ 510)
include ref ano

theorem s16_times (few : 0 ≤ shared ∧ shared ≤ 1005) (tobR : Int) (inside : 0 ≤ tobR ∧ tobR ≤ dR) : s16 (dR-tobR) = dR - tobR ∧
    s16 (shared - (dR-tobR)) = shared - (dR-tobR) ∧
      s16 (dA - (shared - (dR-tobR))) = dA - (shared - (dR-tobR)) :=
  ⟨s16_small (by omega) (by omega),s16_small (by omega) (by omega),s16_small (by omega) (by omega)⟩

theorem loop_within (fits : SharedFits dR dA shared) (rounds : Nat) (enough : dR ≤ tobR + rounds) (low : 5 ≤ tobR)
    (high : tobR ≤ dR - 9 ∧ tobR ≤ dR + dA - shared - 9) (fresh : tobR ≤ 5 ∨ tobR ≤ 5 + dR - shared → sumLast = 0) :
    let after := ((clientSearch mccIntvl dR dA shared).loop rounds tobR sumLast cand).1
    5 < after ∧ 5 + dR - shared < after ∧ after ≤ dR - 9 ∧ after ≤ dR + dA - shared - 9 := by
  obtain ⟨least,most⟩ := fits
  induction rounds generalizing tobR sumLast cand with
  | zero => omega
  | succ rounds ih =>
    obtain ⟨toaR,tobA,toaA⟩ := s16_times ref ano (by omega : 0 ≤ shared ∧ shared ≤ 1005) tobR (by omega)
    unfold Search.loop clientSearch unlimited
    dsimp only
    rw [toaR,tobA,toaA]
    unfold minRxBcnT earlyRxBcnT
    split
    · dsimp only
      omega
    split
    · exact ih (by omega) (by omega) (by omega) fun _ => fresh (by omega)
    split
    · dsimp only
      omega
    rw [if_neg Bool.false_ne_true]
    split
    · rename_i larger
      have behind : ¬ (tobR ≤ 5 ∨ tobR ≤ 5 + dR - shared) := fun first => larger.1 (fresh first)
      dsimp only
      omega
    · exact ih (by omega) (by omega) (by omega) fun _ => by omega

-- tob_r where all four times are long enough.
abbrev FitsAt (dR dA shared tobR : Int) : Prop :=
  (5 ≤ tobR ∧ tobR ≤ dR - 10) ∧ 5 + dR - shared ≤ tobR ∧ tobR ≤ dR + dA - shared - 10

theorem clientTimes_at (few : shared ≤ 300) (positive : 0 ≤ shared) (stops : ((clientSearch mccIntvl dR dA shared).run).1 = tobR+1)
    (low : 0 ≤ tobR) (high : tobR ≤ dR) : clientTimes (clientSearch mccIntvl dR dA shared) =
      ((u8 tobR : Int),(u8 (dR-tobR) : Int),(u8 (shared - (dR-tobR)) : Int),(u8 (dA - (shared - (dR-tobR))) : Int)) := by
  unfold clientTimes
  have one : s16 (tobR + 1 - 1) = tobR := by
    rw [add_sub_cancel_right]
    exact s16_small (by omega) (by omega)
  dsimp only
  rw [stops,one]
  obtain ⟨toaR,tobA,toaA⟩ := s16_times ref ano (by omega : 0 ≤ shared ∧ shared ≤ 1005) tobR (by omega)
  change (_,(u8 (s16 (dR-tobR)) : Int),(u8 (s16 (shared - s16 (dR-tobR))) : Int),
    (u8 (s16 (dA - s16 (shared - s16 (dR-tobR)))) : Int)) = _
  rw [toaR,tobA,toaA]

theorem search_within (fits : SharedFits dR dA shared) (intvl : dR ≤ mccIntvl) :
    ∃ tobR, (clientSearch mccIntvl dR dA shared).run.1 = tobR+1 ∧ FitsAt dR dA shared tobR := by
  have within : let after := (clientSearch mccIntvl dR dA shared).run.1
      5 < after ∧ 5 + dR - shared < after ∧ after ≤ dR - 9 ∧ after ≤ dR + dA - shared - 9 :=
    loop_within ref ano fits (mccIntvl-earlyRxBcnT) (by unfold earlyRxBcnT; omega) (by decide) (by unfold earlyRxBcnT; omega)
      fun _ => rfl
  exact ⟨(clientSearch mccIntvl dR dA shared).run.1 - 1,by omega,by omega⟩

theorem clientTimes_early (more : dR + dA - 15 < shared) (few : shared ≤ 300) (intvl : dR ≤ mccIntvl) :
    (clientTimes (clientSearch mccIntvl dR dA shared)).1 = 4 := by
  have stops : (clientSearch mccIntvl dR dA shared).run.1 = 4 + 1 := by
    obtain ⟨rounds,more⟩ : ∃ rounds, mccIntvl - earlyRxBcnT = rounds + 1 := ⟨mccIntvl-6,by unfold earlyRxBcnT; omega⟩
    unfold Search.run
    have start : (clientSearch mccIntvl dR dA shared).mccIntvl = mccIntvl := rfl
    rw [start,more]
    obtain ⟨toaR,tobA,toaA⟩ := s16_times ref ano (by omega : 0 ≤ shared ∧ shared ≤ 1005) 5 (by omega)
    unfold Search.loop clientSearch unlimited
    dsimp only
    rw [show s16 (dR-earlyRxBcnT) = dR - 5 from toaR,tobA,toaA,if_neg (by unfold minRxBcnT; omega),if_neg (by unfold earlyRxBcnT; omega),
      if_pos (by unfold minRxBcnT; omega)]
    rfl
  rw [clientTimes_at ref ano few (by omega) stops (by omega) (by omega)]
  rfl
end

theorem corner_ref : ∀ i < 5, ∀ j < 5, ∀ k < 5, i+1 ≤ k → i + j + k ≤ 4 →
    (clientSearch (266 + i + (15 + j)) (266 + i : Nat) (15 + j : Nat) (15 + k : Nat)).run.1 ≤ 256 := by decide +kernel

theorem corner_ano : ∀ i < 10, ∀ j < 10, ∀ k < 10, i+1 ≤ k → i + j + k ≤ 9 → ((261 + i + j : Nat) : Int) ≤
    (clientSearch (15 + j + (261 + i)) (15 + j : Nat) (261 + i : Nat) (15 + k : Nat)).run.1 + k + 254 := by
  decide +kernel

section
variable (fits : FitsAt dR dA shared tobR)
include fits

theorem splits_stored (splits : Splits dR dA (u8 tobR) (u8 (dR-tobR)) (u8 (shared - (dR-tobR))) (u8 (dA - (shared - (dR-tobR))))) :
    Stored8 dR dA shared ∧ (u8 (dR-tobR) + u8 (shared - (dR-tobR)) : Int) = shared := by
  obtain ⟨ref,ano,_,_,_,_⟩ := splits
  have one := @u8_le tobR (by omega)
  have two := @u8_le (dR-tobR) (by omega)
  have three := @u8_le (shared - (dR-tobR)) (by omega)
  have four := @u8_le (dA - (shared - (dR-tobR))) (by omega)
  have oneByte := u8_byte tobR
  have fourByte := u8_byte (dA - (shared - (dR-tobR)))
  unfold Stored8
  omega

theorem stored_splits (high : tobR ≤ 255) (last : dR + dA - shared - tobR ≤ 255) (few : shared ≤ 150) :
    Splits dR dA (u8 tobR) (u8 (dR-tobR)) (u8 (shared - (dR-tobR))) (u8 (dA - (shared - (dR-tobR)))) := by
  rw [u8_small (by omega) high,u8_small (by omega) (by omega),u8_small (by omega) (by omega),u8_small (by omega) (by omega)]
  refine ⟨by omega,by omega,?_,?_,?_,?_⟩ <;> simp only [earlyRxBcnT,minRxBcnT] <;> omega

theorem bytes_enough {refDur anoDur : Nat} (ref : 15 ≤ dR) (ano : 15 ≤ dA) (least : 15 ≤ shared)
    (few : dR + dA + shared ≤ 300) (stored : Stored8 dR dA shared) (isR : (refDur : Int) = dR) (isA : (anoDur : Int) = dA)
    (stops : (clientSearch (refDur+anoDur) dR dA shared).run.1 = tobR+1) : tobR ≤ 255 ∧ dR + dA - shared - tobR ≤ 255 := by
  obtain ⟨x,same⟩ : ∃ x : Nat, shared = x := ⟨shared.toNat,by omega⟩
  subst same isR isA
  constructor
  · by_cases near : refDur ≤ 265
    · omega
    · have corner := corner_ref (refDur-266) (by omega) (anoDur-15) (by omega) (x-15) (by omega) (by omega) (by omega)
      rw [add_sub_of_le (by omega),add_sub_of_le (by omega),add_sub_of_le (by omega),stops] at corner
      omega
  · by_cases near : anoDur ≤ 260
    · omega
    · have corner := corner_ano (anoDur-261) (by omega) (refDur-15) (by omega) (x-15) (by omega) (by omega) (by omega)
      rw [add_sub_of_le (show 15 ≤ x by omega),add_sub_of_le (show 15 ≤ refDur by omega),
        add_sub_of_le (show 261 ≤ anoDur by omega),stops] at corner
      omega
end

theorem worsecaseOffset_small {refDur anoDur offset : Nat} (ref : 15 ≤ refDur ∧ refDur ≤ 510) (ano : 15 ≤ anoDur ∧ anoDur ≤ 510)
    (less : offset < 100) : worsecaseOffset refDur anoDur offset handleBcnIntvl =
      if SharedFits refDur anoDur (200 + offset - refDur - anoDur) then some (offset : Int)
      else if refDur + anoDur + offset ≤ 285 then some (100 - offset : Int) else none := by
  have small (x : Int) (low : -3000 ≤ x) (high : x ≤ 3000) : s16 x = x := s16_small (by omega) (by omega)
  have offsets (toaRef tobAno : Int) (low : 0 ≤ toaRef ∧ toaRef ≤ 510) (high : 0 ≤ tobAno ∧ tobAno ≤ 510) :
      offsetWorsecase refDur anoDur handleBcnIntvl toaRef tobAno = toaRef + tobAno + refDur + anoDur - 200 :=
    small _ (by unfold handleBcnIntvl; omega) (by unfold handleBcnIntvl; omega)
  have early : ((earlyRxBcnT : Nat) : Int) = 5 := rfl
  have least : ((minRxBcnT : Nat) : Int) = 10 := rfl
  have intvl : ((handleBcnIntvl : Nat) : Int) = 100 := rfl
  have wide : s16 (anoDur-minRxBcnT) = anoDur - 10 := small _ (by omega) (by omega)
  have long : s16 (refDur-earlyRxBcnT) = refDur - 5 := small _ (by omega) (by omega)
  have range : offsetRangeWorsecase refDur anoDur handleBcnIntvl =
      ((refDur + anoDur - 185 : Int),(2*refDur + 2*anoDur - 215 : Int)) := by
    have one := offsets minRxBcnT earlyRxBcnT (by decide) (by decide)
    have two := offsets minRxBcnT (s16 (anoDur-minRxBcnT)) (by decide) (by omega)
    have three := offsets (s16 (refDur-earlyRxBcnT)) earlyRxBcnT (by omega) (by decide)
    have four := offsets (s16 (refDur-earlyRxBcnT)) (s16 (anoDur-minRxBcnT)) (by omega) (by omega)
    unfold offsetRangeWorsecase
    dsimp only
    rw [one,two,three,four]
    refine Prod.ext ?_ ?_ <;> dsimp only <;> split <;> omega
  have folded : s16 (handleBcnIntvl-offset) = 100 - offset := small _ (by omega) (by omega)
  unfold worsecaseOffset
  rw [small refDur (by omega) (by omega),small anoDur (by omega) (by omega),small offset (by omega) (by omega),range]
  dsimp only
  rw [folded]
  by_cases inside : SharedFits refDur anoDur (200 + offset - refDur - anoDur)
  · rw [if_pos inside,if_pos (by unfold SharedFits at inside; omega)]
  · rw [if_neg inside,if_neg (by unfold SharedFits at inside; omega)]
    by_cases folds : refDur + anoDur + offset ≤ 285
    · rw [if_pos folds,if_pos (by omega)]
    · rw [if_neg folds,if_neg (by omega)]

theorem fillRefAno_times (pattern : Pattern) (times : Int × Int × Int × Int) (durRef durAno : Nat) :
    let p := fillRefAno (withTimes pattern times) durRef durAno
    p.tobR = times.1 ∧ p.toaR = times.2.1 ∧ p.tobA = times.2.2.1 ∧ p.toaA = times.2.2.2 := by
  have filled (p : Pattern) (bt : Bool) (dur : Nat) (r : Option RoleRef) : (mccFillSlotInfo p bt dur r).tobR = p.tobR ∧
      (mccFillSlotInfo p bt dur r).toaR = p.toaR ∧ (mccFillSlotInfo p bt dur r).tobA = p.tobA ∧
        (mccFillSlotInfo p bt dur r).toaA = p.toaA := by
    unfold mccFillSlotInfo
    split <;> exact ⟨rfl,rfl,rfl,rfl⟩
  have second := filled (fillRef (withTimes pattern times) durRef) false durAno
    (fillRef (withTimes pattern times) durRef).roleAno
  have first := filled (withTimes pattern times) false durRef (withTimes pattern times).roleRef
  exact ⟨second.1.trans first.1,second.2.1.trans first.2.1,second.2.2.1.trans first.2.2.1,second.2.2.2.trans first.2.2.2⟩

theorem worsecaseOffset_none {refDur anoDur offset : Nat} (less : offset < 100) :
    worsecaseOffset refDur anoDur offset handleBcnIntvl = none ↔ OutOfRange refDur anoDur offset := by
  have plain : s16 offset = offset := s16_small (by omega) (by omega)
  have folded : s16 (handleBcnIntvl-offset) = handleBcnIntvl - offset :=
    s16_small (by unfold handleBcnIntvl; omega) (by unfold handleBcnIntvl; omega)
  unfold worsecaseOffset OutOfRange
  rw [plain]
  dsimp only
  rw [folded]
  split
  case isTrue first => exact iff_of_false nofun fun out => out.1 first
  case isFalse first =>
    split
    case isTrue second => exact iff_of_false nofun fun out => out.2 second
    case isFalse second => exact iff_of_true rfl ⟨first,second⟩

theorem worsecase_calc (same : bcnIntvl = handleBcnIntvl) (refDur anoDur offset : Nat) (pattern : Pattern) :
    mccCalc2ClientsWorsecasePattern refDur anoDur offset bcnIntvl pattern =
      match worsecaseOffset refDur anoDur offset bcnIntvl with
      | none => (false,{pattern with calcFail:=true})
      | some accepted => (true,fillRefAno (withTimes pattern (clientTimes ⟨u16 (refDur+anoDur),s16 refDur,s16 anoDur,
          fun toaR => accepted + 2*bcnIntvl - toaR - u16 (refDur+anoDur),unlimited,fun _ _ => false⟩)) refDur anoDur) := by
  unfold mccCalc2ClientsWorsecasePattern
  cases worsecaseOffset refDur anoDur offset bcnIntvl with
  | none => simp only [if_pos same]
  | some accepted => simp only [if_pos same]

theorem worsecase_accepted {refDur anoDur offset : Nat} (ref : 15 ≤ refDur ∧ refDur ≤ 510) (ano : 15 ≤ anoDur ∧ anoDur ≤ 510)
    (found : worsecaseOffset refDur anoDur offset handleBcnIntvl = some accepted)
    (left : shared = accepted + 200 - refDur - anoDur) (least : 15 ≤ shared) (few : refDur + anoDur + shared ≤ 300)
    (pattern : Pattern) :
    worsecaseMeets refDur anoDur offset (mccCalc2ClientsWorsecasePattern refDur anoDur offset handleBcnIntvl pattern) ↔
      SharedFits refDur anoDur shared ∧ Stored8 refDur anoDur shared ∧ (accepted-offset) % 100 = 0 := by
  have short (x : Nat) (small : x ≤ 510) : s16 x = x := s16_small (by omega) (by omega)
  have intvl : u16 (refDur+anoDur) = refDur + anoDur := by
    unfold u16
    omega
  have tobAOf : (fun toaR : Int => accepted + 2 * (handleBcnIntvl : Int) - toaR - (refDur + anoDur : Nat)) =
      fun toaR => shared - toaR := by
    funext toaR
    simp only [handleBcnIntvl]
    omega
  obtain ⟨tobR,toaR,tobA,toaA⟩ := fillRefAno_times pattern (clientTimes (clientSearch (refDur+anoDur) refDur anoDur shared))
    refDur anoDur
  rw [worsecase_calc rfl,found]
  dsimp only
  rw [intvl,short refDur ref.2,short anoDur ano.2,tobAOf]
  unfold worsecaseMeets
  dsimp only
  have same : (⟨refDur+anoDur,refDur,anoDur,fun toaR => shared - toaR,unlimited,fun _ _ => false⟩ : Search) =
    clientSearch (refDur+anoDur) refDur anoDur shared := rfl
  rw [same,tobR,toaR,tobA,toaA]
  have refs : 15 ≤ (refDur : Int) ∧ (refDur : Int) ≤ 510 := by omega
  have anos : 15 ≤ (anoDur : Int) ∧ (anoDur : Int) ≤ 510 := by omega
  by_cases fits : SharedFits refDur anoDur shared
  · have wide : (refDur : Int) ≤ (refDur + anoDur : Nat) := by omega
    obtain ⟨t,stops,there⟩ := search_within refs anos fits wide
    rw [clientTimes_at refs anos (by omega) (by omega) stops (by omega) (by omega)]
    constructor
    · rintro ⟨splits,congruent⟩
      obtain ⟨stored,total⟩ := splits_stored there splits
      simp only [handleBcnIntvl] at congruent
      exact ⟨fits,stored,by omega⟩
    · rintro ⟨_,stored,congruent⟩
      obtain ⟨high,last⟩ := bytes_enough there refs.1 anos.1 fits.1 few stored rfl rfl stops
      have splits := stored_splits there high last (by omega)
      obtain ⟨_,total⟩ := splits_stored there splits
      refine ⟨splits,?_⟩
      simp only [handleBcnIntvl]
      omega
  · refine iff_of_false ?_ fun good => fits good.1
    rintro ⟨splits,_⟩
    have more : (refDur : Int) + anoDur - 15 < shared := by
      unfold SharedFits at fits
      omega
    have wide : (refDur : Int) ≤ (refDur + anoDur : Nat) := by omega
    have early := clientTimes_early refs anos more (by omega) wide
    have first := splits.tobR
    rw [early] at first
    exact absurd first (by decide)

theorem worsecase_refused {refDur anoDur offset : Nat} (found : worsecaseOffset refDur anoDur offset handleBcnIntvl = none)
    (free : ∀ shared : Int, SharedFits refDur anoDur shared → shared ≠ 200 + offset - refDur - anoDur ∧
      shared ≠ 100 + offset - refDur - anoDur) (pattern : Pattern) (good : p) :
    worsecaseMeets refDur anoDur offset (mccCalc2ClientsWorsecasePattern refDur anoDur offset handleBcnIntvl pattern) ↔ p := by
  rw [worsecase_calc rfl,found]
  refine iff_of_true ?_ good
  intro tobR toaR tobA toaA splits
  obtain ⟨ref,ano,early,least,late,last⟩ := splits
  simp only [earlyRxBcnT,minRxBcnT,handleBcnIntvl] at *
  obtain ⟨first,second⟩ := free (toaR+tobA) ⟨by omega,by omega⟩
  omega

theorem worsecase_pattern_meets (refDur anoDur offset : Nat) (ref : minClientDur ≤ refDur) (ano : minClientDur ≤ anoDur)
    (less : offset < handleBcnIntvl) (pattern : Pattern) :
    worsecaseMeets refDur anoDur offset (mccCalc2ClientsWorsecasePattern refDur anoDur offset handleBcnIntvl pattern) ↔
      WorsecaseGood refDur anoDur offset := by
  have more : 15 ≤ refDur ∧ 15 ≤ anoDur ∧ offset < 100 := ⟨ref,ano,less⟩
  unfold WorsecaseGood
  by_cases wide : 510 < refDur ∨ 510 < anoDur
  · rw [if_pos wide,← worsecaseOffset_none less]
    cases found : worsecaseOffset refDur anoDur offset handleBcnIntvl with
    | none =>
      refine worsecase_refused found (fun shared fits => ?_) pattern rfl
      unfold SharedFits at fits
      omega
    | some accepted =>
      -- Two times of 8 bits never fill the duration.
      refine iff_of_false ?_ nofun
      rw [worsecase_calc rfl,found]
      rintro ⟨⟨refs,anos,_,_,_,_⟩,_⟩
      have bytes (x : Search) := fillRefAno_times pattern (clientTimes x) refDur anoDur
      dsimp only at refs anos bytes
      rw [(bytes _).1,(bytes _).2.1] at refs
      rw [(bytes _).2.2.1,(bytes _).2.2.2] at anos
      unfold clientTimes at refs anos
      dsimp only at refs anos
      cases wide with
      | inl wide => exact absurd refs (Int.ne_of_lt (Int.lt_of_le_of_lt (Int.add_le_add (u8_byte _) (u8_byte _)) (by omega)))
      | inr wide => exact absurd anos (Int.ne_of_lt (Int.lt_of_le_of_lt (Int.add_le_add (u8_byte _) (u8_byte _)) (by omega)))
  · rw [if_neg wide]
    have refs : 15 ≤ refDur ∧ refDur ≤ 510 := by omega
    have anos : 15 ≤ anoDur ∧ anoDur ≤ 510 := by omega
    have tests := worsecaseOffset_small refs anos more.2.2
    by_cases inside : SharedFits refDur anoDur (200 + offset - refDur - anoDur)
    · rw [if_pos inside] at tests ⊢
      rw [worsecase_accepted refs anos tests (by omega) inside.1 (by omega) pattern]
      exact ⟨fun good => good.2.1,fun stored => ⟨inside,stored,by omega⟩⟩
    · rw [if_neg inside] at tests ⊢
      by_cases folds : refDur + anoDur + offset ≤ 285
      · rw [if_pos folds] at tests
        have left : (300 - offset - refDur - anoDur : Int) = (100 - offset : Int) + 200 - refDur - anoDur := by omega
        rw [worsecase_accepted refs anos tests left (by omega) (by omega) pattern]
        constructor
        · exact fun ⟨fits,stored,congruent⟩ _ => ⟨by omega,fits,stored⟩
        · intro good
          obtain ⟨half,fits,stored⟩ := good folds
          exact ⟨fits,stored,by omega⟩
      · rw [if_neg folds] at tests
        refine worsecase_refused tests (fun shared fits => ?_) pattern fun folded => absurd folded folds
        unfold SharedFits at fits inside
        omega

theorem worsecase_pattern_meets_at : worsecaseMeets 75 75 0 (mccCalc2ClientsWorsecasePattern 75 75 0 handleBcnIntvl zeroPattern) :=
  (worsecase_pattern_meets 75 75 0 (by decide) (by decide) (by decide) _).mpr (by unfold WorsecaseGood OutOfRange; decide)

-- 75 and 75 TU: the offset 90 is folded to 10 where -10 is meant.
theorem worsecase_pattern_folded :
    ¬ worsecaseMeets 75 75 90 (mccCalc2ClientsWorsecasePattern 75 75 90 handleBcnIntvl zeroPattern) := by
  have folded : worsecaseOffset 75 75 90 handleBcnIntvl = some 10 := by decide
  intro meets
  have congruent := ((worsecase_accepted (by decide) (by decide) folded rfl (by decide) (by decide) _).mp meets).2.2
  exact absurd congruent (by decide)
end Rtl8852au.Mcc
