import Rtl8852au.MacidCalls
import Rtl8852au.Words

namespace Rtl8852au.Macid
open Bitmap Machine Words List Nat Bool
open WifiRole (RoleType)

def phlMacidMaxArrayNum : Nat := 8
def usedWords (map : Nat) : List U32 := (range phlMacidMaxArrayNum).map (fun i => BitVec.ofNat 32 (map >>> (32*i)))

def wordsOf : List U8 → List U32
  | a :: b :: c :: d :: rest => (d ++ c ++ b ++ a) :: wordsOf rest
  | _ => []

-- `_os_mem_cpy` counts bytes.
def osMemCpy (dst src : List U32) (count : Nat) : List U32 :=
  wordsOf ((src.flatMap leBytes).take count ++ (dst.flatMap leBytes).drop count)

structure MacidPauseGrp where
  pauseGrp : List U32
  maskGrp : List U32

def grpBit (word : U32) (pause : Bool) (grp : U32 × U32) (bitIdx : Nat) : U32 × U32 :=
  if word.getLsbD bitIdx then
    (if pause then grp.1 ||| BitVec.twoPow 32 bitIdx else grp.1 &&& ~~~BitVec.twoPow 32 bitIdx,grp.2 ||| BitVec.twoPow 32 bitIdx)
  else grp

def grpWord (word : U32) (pause : Bool) : U32 × U32 := (range 32).foldl (grpBit word pause) (0,0)

-- The groups have four words; what the array has beyond them is not looked at.
def rtwHalMacSetMacidGrpPause (macidArr : List U32) (macidArrSz : Nat) (pause : Bool) : MacidPauseGrp :=
  let grps := (macidArr.take (min 4 macidArrSz)).map (grpWord · pause)
  {pauseGrp:=grps.map Prod.fst, maskGrp:=grps.map Prod.snd}

inductive HalPause where
  | one (macid : Nat) (pause : Bool)
  | group (cfg : MacidPauseGrp)

def mutliMacid : RoleType → Bool
  | .none | .station | .adhoc | .p2pDevice | .p2pGc => false
  | _ => true

section
variable (s : Ctl) (roles : Nat → Wrole) (wrole : Nat) (pause : Bool)

def phlWifiRoleMacidAllPause : Option HalPause :=
  if mutliMacid (roles wrole).type then
    let macidPause := osMemCpy (replicate phlMacidMaxArrayNum 0) (usedWords (s.wifiRoleUsedmap wrole)) phlMacidMaxArrayNum
    some (.group (rtwHalMacSetMacidGrpPause macidPause phlMacidMaxArrayNum pause))
  else (s.assocStaQueue wrole).head?.map (fun self => .one (s.stas self).macid pause)

def bitAt (words : List U32) (mid : Nat) : Bool := (words.getD (mid / 32) 0).getLsbD (mid % 32)

def PausesExactly : Prop :=
  ∃ cfg, phlWifiRoleMacidAllPause s roles wrole pause = some (.group cfg) ∧
    ∀ mid, bitAt cfg.maskGrp mid = (s.wifiRoleUsedmap wrole).testBit mid ∧
      (bitAt cfg.maskGrp mid → bitAt cfg.pauseGrp mid = pause)

theorem wordsOf_leBytes (word : U32) (rest : List U8) : wordsOf (leBytes word ++ rest) = word :: wordsOf rest := by
  have whole : (word >>> 24).setWidth 8 ++ (word >>> 16).setWidth 8 ++ (word >>> 8).setWidth 8 ++ word.setWidth 8 = word := by
    apply BitVec.eq_of_getLsbD_eq
    intro i inside
    simp only [BitVec.getLsbD_append,BitVec.getLsbD_setWidth,BitVec.getLsbD_ushiftRight]
    grind
  rw [leBytes,cons_append,cons_append,cons_append,cons_append,nil_append,wordsOf,whole]

theorem wordsOf_words (words : List U32) : wordsOf (words.flatMap leBytes) = words := by
  induction words with
  | nil => rfl
  | cons word rest ih => rw [flatMap_cons,wordsOf_leBytes,ih]

theorem osMemCpy_words (dst src : List U32) (count : Nat) (room : count ≤ dst.length) (enough : count ≤ src.length) :
    osMemCpy dst src (4*count) = src.take count ++ dst.drop count := by
  induction count generalizing dst src with
  | zero => rw [osMemCpy,mul_zero,take_zero,drop_zero,nil_append,wordsOf_words,take_zero,drop_zero,nil_append]
  | succ count ih =>
    cases dst with
    | nil => exact absurd room (not_succ_le_zero count)
    | cons old dst =>
      cases src with
      | nil => exact absurd enough (not_succ_le_zero count)
      | cons new src =>
        have bytes : 4*(count+1) = (leBytes new).length + 4*count := by rw [leBytes_length]; omega
        have others : 4*(count+1) = (leBytes old).length + 4*count := by rw [leBytes_length]; omega
        have tail := ih dst src (le_of_succ_le_succ room) (le_of_succ_le_succ enough)
        rw [osMemCpy] at tail ⊢
        rw [flatMap_cons,flatMap_cons,bytes,take_length_add_append,← bytes,others,drop_length_add_append,
          append_assoc,wordsOf_leBytes,tail,take_succ_cons,drop_succ_cons,cons_append]

theorem grpWord_bits (word : U32) (pause : Bool) (count : Nat) (few : count ≤ 32) (i : Nat) :
    ((range count).foldl (grpBit word pause) (0,0)).1.getLsbD i = (decide (i < count) && word.getLsbD i && pause) ∧
    ((range count).foldl (grpBit word pause) (0,0)).2.getLsbD i = (decide (i < count) && word.getLsbD i) := by
  induction count with
  | zero => simp
  | succ count ih =>
    obtain ⟨paused,masked⟩ := ih (by omega)
    rw [range_succ,foldl_append,foldl_cons,foldl_nil,grpBit]
    generalize (range count).foldl (grpBit word pause) (0,0) = grp at paused masked
    cases bit : word.getLsbD count with
    | false =>
      simp only [false_eq_true,if_false,paused,masked]
      grind
    | true =>
      cases pause with
      | false =>
        simp only [if_true,false_eq_true,if_false,BitVec.getLsbD_and,BitVec.getLsbD_or,BitVec.getLsbD_not,BitVec.getLsbD_twoPow,paused,masked]
        grind
      | true =>
        simp only [if_true,BitVec.getLsbD_or,BitVec.getLsbD_twoPow,paused,masked]
        grind

theorem grpWord_eq (word : U32) (pause : Bool) : grpWord word pause = (if pause then word else 0,word) := by
  apply Prod.ext
  · apply BitVec.eq_of_getLsbD_eq
    intro i inside
    rw [grpWord,(grpWord_bits word pause 32 (le_refl _) i).1]
    cases pause with
    | false => simp
    | true => simp [inside]
  · apply BitVec.eq_of_getLsbD_eq
    intro i inside
    rw [grpWord,(grpWord_bits word pause 32 (le_refl _) i).2]
    simp [inside]

theorem copied_words (map : Nat) : osMemCpy (replicate phlMacidMaxArrayNum 0) (usedWords map) phlMacidMaxArrayNum =
    [BitVec.ofNat 32 map,BitVec.ofNat 32 (map >>> 32),0,0,0,0,0,0] := by
  have two := osMemCpy_words (replicate 8 0) (usedWords map) 2 (by decide) (by rw [usedWords,length_map]; decide)
  rw [phlMacidMaxArrayNum]
  exact two

theorem bitAt_copied (map mid : Nat) :
    bitAt [BitVec.ofNat 32 map,BitVec.ofNat 32 (map >>> 32),0,0] mid = (decide (mid < 64) && map.testBit mid) := by
  have split : mid = 32*(mid / 32) + mid % 32 := (div_add_mod mid 32).symm
  have low : mid % 32 < 32 := mod_lt _ (by decide)
  rw [bitAt]
  match word : mid / 32 with
  | 0 =>
    have same : mid % 32 = mid := by omega
    have inside : mid < 64 := by omega
    have here : mid < 32 := by omega
    rw [getD_cons_zero,BitVec.getLsbD_ofNat,same,decide_eq_true here,decide_eq_true inside]
  | 1 =>
    have inside : mid < 64 := by omega
    have same : 32 + mid % 32 = mid := by omega
    rw [getD_cons_succ,getD_cons_zero,BitVec.getLsbD_ofNat,testBit_shiftRight,same,decide_eq_true low,
      decide_eq_true inside]
  | 2 => simp [show ¬mid < 64 by omega]
  | 3 => simp [show ¬mid < 64 by omega]
  | n + 4 => simp [show ¬mid < 64 by omega]

theorem bitAt_clear (mid : Nat) : bitAt [0,0,0,0] mid = false := by
  rw [bitAt]
  match mid / 32 with
  | 0 | 1 | 2 | 3 => simp
  | n + 4 => simp

theorem all_pause_group (apType : mutliMacid (roles wrole).type) :
    phlWifiRoleMacidAllPause s roles wrole pause = some (.group
      { pauseGrp:=[if pause then BitVec.ofNat 32 (s.wifiRoleUsedmap wrole) else 0,
          if pause then BitVec.ofNat 32 (s.wifiRoleUsedmap wrole >>> 32) else 0,if pause then 0 else 0,if pause then 0 else 0]
        maskGrp := [BitVec.ofNat 32 (s.wifiRoleUsedmap wrole),BitVec.ofNat 32 (s.wifiRoleUsedmap wrole >>> 32),0,0] }) := by
  rw [phlWifiRoleMacidAllPause,if_pos apType,copied_words]
  simp [rtwHalMacSetMacidGrpPause,phlMacidMaxArrayNum,grpWord_eq]
end

theorem exact_low (apType : mutliMacid (roles wrole).type)
    (asks : PausesExactly s roles wrole pause) (mid : Nat) (used : (s.wifiRoleUsedmap wrole).testBit mid) : mid < 64 := by
  obtain ⟨cfg,request,bits⟩ := asks
  rw [all_pause_group s roles wrole pause apType] at request
  obtain rfl := HalPause.group.inj (Option.some.inj request)
  have mask := (bits mid).1
  rw [bitAt_copied,used,Bool.and_true,decide_eq_true_eq] at mask
  exact mask

theorem role_pause_exact (s : Ctl) (roles : Nat → Wrole) (wrole : Nat) (pause : Bool) (apType : mutliMacid (roles wrole).type = true) :
    PausesExactly s roles wrole pause ↔ ∀ mid, (s.wifiRoleUsedmap wrole).testBit mid = true → mid < 64 := by
  constructor
  · intro asks
    exact exact_low apType asks
  · intro low
    refine ⟨_,all_pause_group s roles wrole pause apType,?_⟩
    intro mid
    have mask := bitAt_copied (s.wifiRoleUsedmap wrole) mid
    refine ⟨?_,?_⟩
    · rw [mask]
      cases used : (s.wifiRoleUsedmap wrole).testBit mid with
      | false => exact and_false _
      | true => simp [low mid used]
    · intro masked
      cases pause with
      | false => exact bitAt_clear mid
      | true => exact masked

theorem role_pause_cell : PausesExactly (run macidStep (init 128 128) cell) twoRoles 0 true ↔
    ∀ mid, ((run macidStep (init 128 128) cell).wifiRoleUsedmap 0).testBit mid = true → mid < 64 :=
  role_pause_exact _ twoRoles 0 true rfl

def crowd : List Event := (range 65).map (fun i => .alloc twoRoles 0 (BitVec.ofNat 48 (i+1)) ⟨true,true⟩)

theorem role_pause_fails : ¬∀ events : List Event, Admitted macidStep Proper (init 128 128) events →
    PausesExactly (run macidStep (init 128 128) events) twoRoles 0 true := by
  intro always
  have used : ((run macidStep (init 128 128) crowd).wifiRoleUsedmap 0).testBit 64 := by decide +kernel
  have exactly := always crowd (by decide +kernel)
  exact absurd (exact_low rfl exactly 64 used) (by decide)

end Rtl8852au.Macid
