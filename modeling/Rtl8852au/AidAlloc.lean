import Mathlib.Data.Finset.Card
import Mathlib.Data.Nat.ModEq
import Rtl8852au.Machine

namespace Rtl8852au.Aid
open Machine Function Finset Nat Option

structure Conf where
  maxAid : Nat
  maxNumSta : Nat
  rrAid : Bool
  hwStateAp : Bool

structure StaPriv where
  staAid : Nat → Option Nat
  startedAid : Nat
  aid : Nat → Nat
  live : Nat → Bool

structure Scan where
  aid : Nat
  i : Nat
  usedCnt : Nat

variable (conf : Conf)

def slotAt (start i : Nat) : Nat := (i + start - 1) % conf.maxAid

section
variable (s : StaPriv)

def scan (s : StaPriv) : Nat → Scan → Scan
  | 0,found => found
  | left + 1,found =>
    let aid := slotAt conf s.startedAid found.i + 1
    if (s.staAid (aid-1)).isNone then {found with aid}
    else if found.usedCnt + 1 ≥ conf.maxNumSta then {found with aid, usedCnt:=found.usedCnt + 1}
    else scan s left {aid, i:=found.i+1, usedCnt:=found.usedCnt + 1}

def rtwAidAlloc (sta : Nat) : Nat × StaPriv :=
  let found := scan conf s conf.maxAid {aid:=0, i:=0, usedCnt:=0}
  let aid := if found.i ≥ conf.maxAid ∨ found.usedCnt ≥ conf.maxNumSta then 0 else found.aid
  let s := {s with aid:=update s.aid sta aid}
  if aid = 0 then (0,s)
  else
    (aid,{s with
      staAid := update s.staAid (aid-1) (some sta)
      startedAid := if conf.rrAid then aid % conf.maxAid + 1 else s.startedAid})

def rtwFreeCoreStainfo (sta : Nat) : StaPriv :=
  if conf.hwStateAp then
    if s.aid sta > 0 ∧ s.staAid (s.aid sta - 1) = some sta then
      {s with staAid:=update s.staAid (s.aid sta - 1) none, aid:=update s.aid sta 0}
    else s
  else s

inductive Event where
  | join (sta : Nat)
  | alloc (sta : Nat)
  | free (sta : Nat)

def aidStep : Event → StaPriv
  | .join sta => {s with live:=update s.live sta true}
  | .alloc sta => (rtwAidAlloc conf s sta).2
  | .free sta =>
    let s := rtwFreeCoreStainfo conf s sta
    {s with live:=update s.live sta false}

def Asked : Event → Prop
  | .join sta => s.live sta = false
  | .alloc sta => s.live sta ∧ s.aid sta = 0
  | .free sta => s.live sta

def init (startedAid : Nat) : StaPriv where
  staAid := fun _ => none
  startedAid
  aid := fun _ => 0
  live := fun _ => false

def allocated : Finset Nat := (Finset.range conf.maxAid).filter (fun slot => (s.staAid slot).isSome)

structure AidsKept (s : StaPriv) : Prop where
  table : ∀ slot < conf.maxAid, ∀ sta, s.staAid slot = some sta ↔ s.live sta ∧ s.aid sta = slot+1
  range : ∀ sta, s.live sta → s.aid sta ≤ conf.maxAid
  distinct : ∀ sta other, s.live sta → s.live other → s.aid sta ≠ 0 → s.aid sta = s.aid other → sta = other
  limit : (allocated conf s).card ≤ conf.maxNumSta
  refused : ∀ sta, s.live sta → s.aid sta = 0 → (rtwAidAlloc conf s sta).1 = 0 →
    conf.maxNumSta ≤ (allocated conf s).card ∨ (allocated conf s).card = conf.maxAid

structure Paired (s : StaPriv) : Prop where
  table : ∀ slot < conf.maxAid, ∀ sta, s.staAid slot = some sta ↔ s.live sta ∧ s.aid sta = slot+1
  range : ∀ sta, s.aid sta ≤ conf.maxAid
  gone : ∀ sta, s.live sta = false → s.aid sta = 0

inductive Ended (s : StaPriv) : Scan → Prop where
  | free (i : Nat) (here : i < conf.maxAid) (below : i < conf.maxNumSta)
      (empty : s.staAid (slotAt conf s.startedAid i) = none)
      (before : ∀ j < i, (s.staAid (slotAt conf s.startedAid j)).isSome) :
      Ended s {aid:=slotAt conf s.startedAid i + 1, i, usedCnt:=i}
  | limit (found : Scan) (many : conf.maxNumSta ≤ found.usedCnt) (few : conf.maxNumSta ≤ conf.maxAid)
      (before : ∀ j < conf.maxNumSta, (s.staAid (slotAt conf s.startedAid j)).isSome) : Ended s found
  | full (found : Scan) (all : conf.maxAid ≤ found.i)
      (before : ∀ j < conf.maxAid, (s.staAid (slotAt conf s.startedAid j)).isSome) : Ended s found

theorem scan_ends (left : Nat) (found : Scan) (whole : found.i + left = conf.maxAid)
    (counted : found.usedCnt = found.i) (below : found.i < conf.maxNumSta)
    (before : ∀ j < found.i, (s.staAid (slotAt conf s.startedAid j)).isSome) :
    Ended conf s (scan conf s left found) := by
  induction left generalizing found with
  | zero => exact .full _ (by rw [scan]; omega) (by intro j hj; exact before j (by omega))
  | succ left ih =>
    obtain ⟨aid,i,usedCnt⟩ := found
    dsimp only at whole counted below before
    obtain rfl : i = usedCnt := counted.symm
    rw [scan]
    dsimp only
    cases here : s.staAid (slotAt conf s.startedAid i) with
    | none =>
      simp only [Nat.add_sub_cancel,here,isNone_none,if_true]
      exact .free i (by omega) below here before
    | some sta =>
      have upto : ∀ j < i+1, (s.staAid (slotAt conf s.startedAid j)).isSome := by
        intro j hj
        rcases Nat.lt_succ_iff_lt_or_eq.mp hj with less | rfl
        · exact before j less
        · rw [here]; rfl
      simp only [Nat.add_sub_cancel,here,isNone_some,Bool.false_eq_true,if_false]
      split
      · rename_i many
        refine .limit _ many (by omega) ?_
        intro j hj
        exact upto j (by omega)
      · exact ih _ (by dsimp only; omega) rfl (by dsimp only; omega) upto

theorem slotAt_lt (some_ : 1 ≤ conf.maxAid) (start i : Nat) : slotAt conf start i < conf.maxAid := mod_lt _ (by omega)

theorem slotAt_inj {start i j : Nat} (one : 1 ≤ start) (hi : i < conf.maxAid) (hj : j < conf.maxAid)
    (same : slotAt conf start i = slotAt conf start j) : i = j := by
  have left : i + start - 1 = i + (start-1) := by omega
  have right : j + start - 1 = j + (start-1) := by omega
  rw [slotAt,slotAt,left,right] at same
  have plain : i ≡ j [MOD conf.maxAid] := Nat.ModEq.add_right_cancel' (start-1) same
  rwa [Nat.ModEq,mod_eq_of_lt hi,mod_eq_of_lt hj] at plain

theorem allocated_le : (allocated conf s).card ≤ conf.maxAid := by
  have part := card_filter_le (range conf.maxAid) (fun slot => (s.staAid slot).isSome)
  rwa [card_range] at part
end

theorem allocated_ge {count : Nat} (some_ : 1 ≤ conf.maxAid) (one : 1 ≤ s.startedAid) (few : count ≤ conf.maxAid)
    (used : ∀ j < count, (s.staAid (slotAt conf s.startedAid j)).isSome) : count ≤ (allocated conf s).card := by
  have into : ∀ j ∈ range count, slotAt conf s.startedAid j ∈ allocated conf s := by
    intro j hj
    rw [mem_range] at hj
    rw [allocated,mem_filter,mem_range]
    exact ⟨slotAt_lt conf some_ _ j,used j hj⟩
  have apart : Set.InjOn (slotAt conf s.startedAid) (range count : Set Nat) := by
    intro i hi j hj same
    rw [mem_coe,mem_range] at hi hj
    exact slotAt_inj conf one (by omega) (by omega) same
  have many := card_le_card_of_injOn _ into apart
  rwa [card_range] at many

inductive Allocates (s : StaPriv) (sta : Nat) : Nat × StaPriv → Prop where
  | refused (why : conf.maxNumSta ≤ (allocated conf s).card ∨ (allocated conf s).card = conf.maxAid)
      (busy : (s.staAid (slotAt conf s.startedAid 0)).isSome) :
      Allocates s sta (0,{s with aid:=update s.aid sta 0})
  | given (i : Nat) (here : i < conf.maxAid) (below : i < conf.maxNumSta) (empty : s.staAid (slotAt conf s.startedAid i) = none)
      (before : ∀ j < i, (s.staAid (slotAt conf s.startedAid j)).isSome) :
      Allocates s sta (slotAt conf s.startedAid i + 1,{s with
        aid := update s.aid sta (slotAt conf s.startedAid i + 1)
        staAid := update s.staAid (slotAt conf s.startedAid i) (some sta)
        startedAid := if conf.rrAid then (slotAt conf s.startedAid i + 1) % conf.maxAid + 1 else s.startedAid})

theorem rtwAidAlloc_allocates (s : StaPriv) (sta : Nat) (some_ : 1 ≤ conf.maxAid) (room : 1 ≤ conf.maxNumSta)
    (one : 1 ≤ s.startedAid) : Allocates conf s sta (rtwAidAlloc conf s sta) := by
  have ends := scan_ends conf s conf.maxAid {aid:=0, i:=0, usedCnt:=0} (by dsimp only; omega) rfl room
    (by intro j hj; exact absurd hj (not_lt_zero j))
  rw [rtwAidAlloc]
  generalize scan conf s conf.maxAid {aid:=0, i:=0, usedCnt:=0} = found at ends
  cases ends with
  | free i here below empty before =>
    have short : ¬(i ≥ conf.maxAid ∨ i ≥ conf.maxNumSta) := by omega
    simp only [short,if_false,add_one_ne_zero]
    exact .given i here below empty before
  | limit found many few before =>
    have long : found.i ≥ conf.maxAid ∨ found.usedCnt ≥ conf.maxNumSta := .inr many
    simp only [long,if_true]
    exact .refused (.inl (allocated_ge conf some_ one few before)) (before 0 room)
  | full found all before =>
    have long : found.i ≥ conf.maxAid ∨ found.usedCnt ≥ conf.maxNumSta := .inl all
    have most := allocated_le conf s
    have least := allocated_ge conf some_ one (le_refl _) before
    simp only [long,if_true]
    exact .refused (.inr (le_antisymm most least)) (before 0 some_)

theorem Paired.distinct (paired : Paired conf s) {sta other : Nat} (here : s.live sta)
    (there : s.live other) (has : s.aid sta ≠ 0) (same : s.aid sta = s.aid other) : sta = other := by
  have range := paired.range sta
  have low : s.aid sta - 1 < conf.maxAid := by omega
  have mine := (paired.table _ low sta).mpr ⟨here,by omega⟩
  have theirs := (paired.table _ low other).mpr ⟨there,by omega⟩
  rw [mine] at theirs
  exact some.inj theirs

theorem init_paired (started : Nat) : Paired conf (init started) where
  table := by
    intro slot _ sta
    simp [init]
  range := by
    intro sta
    exact zero_le _
  gone := by
    intro sta _
    rfl

theorem join_paired (paired : Paired conf s) (new : s.live sta = false) : Paired conf (aidStep conf s (.join sta)) where
  table := by
    intro slot low other
    rw [aidStep,paired.table slot low other]
    by_cases same : other = sta
    · subst same
      simp [new,paired.gone other new]
    · simp [update_of_ne same]
  range := paired.range
  gone := by
    intro other dead
    apply paired.gone
    by_cases same : other = sta
    · subst same
      exact new
    · rw [aidStep] at dead
      simpa only [update_of_ne same] using dead

theorem alloc_paired {sta aid : Nat} (paired : Paired conf s) (here : s.live sta) (none_ : s.aid sta = 0)
    (does : Allocates conf s sta (aid,t)) : Paired conf t := by
  cases does with
  | refused =>
    rw [← none_,update_eq_self]
    exact paired
  | given i low below empty before =>
    have unused : ∀ other, ¬(s.live other ∧ s.aid other = slotAt conf s.startedAid i + 1) := by
      intro other owns
      have found := (paired.table _ (slotAt_lt conf (by omega) _ _) other).mpr owns
      rw [empty] at found
      exact some_ne_none _ found.symm
    refine ⟨?_,?_,?_⟩
    · intro slot inside other
      have old := paired.table slot inside other
      by_cases slots : slot = slotAt conf s.startedAid i
      · subst slots
        by_cases same : other = sta
        · subst same
          simp [here]
        · simp [update_of_ne same,Ne.symm same,unused other]
      · by_cases same : other = sta
        · subst same
          simp [update_of_ne slots,old,none_,Ne.symm slots]
        · simp [update_of_ne slots,update_of_ne same,old]
    · intro other
      by_cases same : other = sta
      · subst same
        have inside := slotAt_lt conf (by omega) s.startedAid i
        simp only [update_self]
        omega
      · simp only [update_of_ne same]
        exact paired.range other
    · intro other dead
      by_cases same : other = sta
      · subst same
        rw [here] at dead
        cases dead
      · simp only [update_of_ne same]
        exact paired.gone other dead

theorem free_paired (ap : conf.hwStateAp) (paired : Paired conf s) (here : s.live sta) :
    Paired conf (aidStep conf s (.free sta)) := by
  have range := paired.range sta
  by_cases has : s.aid sta = 0
  · have kept : rtwFreeCoreStainfo conf s sta = s := by simp [rtwFreeCoreStainfo,has]
    rw [aidStep,kept]
    refine ⟨?_,paired.range,?_⟩
    · intro slot low other
      rw [paired.table slot low other]
      by_cases same : other = sta
      · subst same
        simp [has]
      · simp [update_of_ne same]
    · intro other dead
      by_cases same : other = sta
      · subst same
        exact has
      · simp only [update_of_ne same] at dead
        exact paired.gone other dead
  · have inside : s.aid sta - 1 < conf.maxAid := by omega
    have entry := (paired.table _ inside sta).mpr ⟨here,by omega⟩
    have positive : s.aid sta > 0 := by omega
    rw [aidStep,rtwFreeCoreStainfo,if_pos ap,if_pos ⟨positive,entry⟩]
    refine ⟨?_,?_,?_⟩
    · intro slot low other
      have old := paired.table slot low other
      by_cases slots : slot = s.aid sta - 1
      · subst slots
        have only : s.live other → s.aid other = s.aid sta → other = sta := by
          intro there same
          exact paired.distinct conf there here (by omega) same
        have back : s.aid sta - 1 + 1 = s.aid sta := by omega
        by_cases same : other = sta
        · simp [same]
        · simp only [update_self,update_of_ne same,back]
          constructor
          · intro impossible
            cases impossible
          · intro owns
            exact absurd (only owns.1 owns.2) same
      · by_cases same : other = sta
        · subst same
          have other_ : s.aid other ≠ slot + 1 := by omega
          simp [update_of_ne slots,old,other_]
        · simp [update_of_ne slots,update_of_ne same,old]
    · intro other
      by_cases same : other = sta
      · subst same
        simp
      · simp only [update_of_ne same]
        exact paired.range other
    · intro other dead
      by_cases same : other = sta
      · subst same
        simp
      · simp only [update_of_ne same] at dead ⊢
        exact paired.gone other dead

structure Scanned (origin : Nat) (s : StaPriv) : Prop where
  start : 1 ≤ s.startedAid ∧ s.startedAid ≤ conf.maxAid
  fixed : conf.rrAid = false → s.startedAid = origin
  window : conf.rrAid = false → ∀ slot < conf.maxAid, (s.staAid slot).isSome → ∃ i < conf.maxNumSta, slot = slotAt conf origin i

theorem alloc_scanned {sta aid origin : Nat} (scanned : Scanned conf origin s)
    (does : Allocates conf s sta (aid,t)) : Scanned conf origin t := by
  cases does with
  | refused => exact ⟨scanned.start,scanned.fixed,scanned.window⟩
  | given i low below empty before =>
    refine ⟨?_,?_,?_⟩
    · dsimp only
      split
      · have inside := mod_lt (slotAt conf s.startedAid i + 1) (show conf.maxAid > 0 by omega)
        omega
      · exact scanned.start
    · intro off
      simp only [off,Bool.false_eq_true,if_false]
      exact scanned.fixed off
    · intro off slot inside used
      by_cases slots : slot = slotAt conf s.startedAid i
      · rw [scanned.fixed off] at slots
        exact ⟨i,below,slots⟩
      · simp only [update_of_ne slots] at used
        exact scanned.window off slot inside used

theorem free_scanned {origin : Nat} (sta : Nat) (scanned : Scanned conf origin s) :
    Scanned conf origin (rtwFreeCoreStainfo conf s sta) := by
  rw [rtwFreeCoreStainfo]
  split
  · split
    · refine ⟨scanned.start,scanned.fixed,?_⟩
      intro off slot inside used
      by_cases slots : slot = s.aid sta - 1
      · subst slots
        simp at used
      · simp only [update_of_ne slots] at used
        exact scanned.window off slot inside used
    · exact scanned
  · exact scanned

variable {conf}

def Kept (conf : Conf) (origin : Nat) (s : StaPriv) : Prop := Paired conf s ∧ Scanned conf origin s

theorem step_kept {origin : Nat} (ap : conf.hwStateAp) (some_ : 1 ≤ conf.maxAid)
    (room : 1 ≤ conf.maxNumSta) (kept : Kept conf origin s) (event : Event) (asked : Asked s event) :
    Kept conf origin (aidStep conf s event) := by
  cases event with
  | join sta => exact ⟨join_paired conf kept.1 asked,kept.2.start,kept.2.fixed,kept.2.window⟩
  | alloc sta =>
    have does := rtwAidAlloc_allocates conf s sta some_ room kept.2.start.1
    exact ⟨alloc_paired conf kept.1 asked.1 asked.2 does,alloc_scanned conf kept.2 does⟩
  | free sta =>
    have scanned := free_scanned conf sta kept.2
    exact ⟨free_paired conf ap kept.1 asked,scanned.start,scanned.fixed,scanned.window⟩

theorem window_limit {origin : Nat} (scanned : Scanned conf origin s) (off : conf.rrAid = false) :
    (allocated conf s).card ≤ conf.maxNumSta := by
  have into : allocated conf s ⊆ (range conf.maxNumSta).image (slotAt conf origin) := by
    intro slot used
    rw [allocated,mem_filter,mem_range] at used
    obtain ⟨i,low,rfl⟩ := scanned.window off slot used.1 used.2
    exact mem_image_of_mem _ (mem_range.mpr low)
  have few := card_le_card into
  have fewer := Finset.card_image_le (s := range conf.maxNumSta) (f := slotAt conf origin)
  rw [card_range] at fewer
  exact few.trans fewer

theorem Kept.aids {origin : Nat} (kept : Kept conf origin s) (some_ : 1 ≤ conf.maxAid) (room : 1 ≤ conf.maxNumSta)
    (limited : conf.rrAid = false ∨ conf.maxAid ≤ conf.maxNumSta) : AidsKept conf s where
  table := kept.1.table
  range := by
    intro sta _
    exact kept.1.range sta
  distinct := by
    intro sta other here there has same
    exact kept.1.distinct conf here there has same
  limit := by
    cases limited with
    | inl off => exact window_limit kept.2 off
    | inr wide => exact (allocated_le conf s).trans wide
  refused := by
    intro sta _ _ zero
    have does := rtwAidAlloc_allocates conf s sta some_ room kept.2.start.1
    generalize rtwAidAlloc conf s sta = result at does zero
    cases does with
    | refused why => exact why
    | given => exact absurd zero (add_one_ne_zero _)

structure Filled (conf : Conf) (origin count : Nat) (s : StaPriv) : Prop where
  start : slotAt conf s.startedAid 0 = slotAt conf origin count
  one : 1 ≤ s.startedAid
  used : ∀ slot < conf.maxAid, (s.staAid slot).isSome → ∃ j < count, slot = slotAt conf origin j
  given : ∀ j < count, s.live j ∧ s.aid j ≠ 0
  ahead : ∀ j, count ≤ j → s.live j = false ∧ s.aid j = 0

theorem slotAt_next {origin count aid : Nat} (one : 1 ≤ origin) (at_ : aid = slotAt conf origin count + 1) :
    slotAt conf (aid % conf.maxAid + 1) 0 = slotAt conf origin (count+1) := by
  have left : (0 + (aid % conf.maxAid + 1) - 1) % conf.maxAid = aid % conf.maxAid := by
    rw [Nat.zero_add,Nat.add_sub_cancel,Nat.mod_mod]
  have right : count + 1 + origin - 1 = count + origin - 1 + 1 := by omega
  rw [slotAt,slotAt,left,right,at_,slotAt,mod_add_mod]

theorem next_filled {origin count : Nat} (rr : conf.rrAid) (one : 1 ≤ origin) (room : 1 ≤ conf.maxNumSta)
    (less : count < conf.maxAid) (filled : Filled conf origin count s) :
    Filled conf origin (count+1) (aidStep conf (aidStep conf s (.join count)) (.alloc count)) := by
  have unused : s.staAid (slotAt conf s.startedAid 0) = none := by
    rw [← not_isSome_iff_eq_none]
    intro used
    obtain ⟨j,low,same⟩ := filled.used _ (slotAt_lt conf (by omega) _ _) used
    rw [filled.start] at same
    have equal := slotAt_inj conf one less (by omega) same
    omega
  have does := rtwAidAlloc_allocates conf (aidStep conf s (.join count)) count (by omega) room filled.one
  have next : aidStep conf (aidStep conf s (.join count)) (.alloc count) =
      (rtwAidAlloc conf (aidStep conf s (.join count)) count).2 := rfl
  rw [next]
  generalize rtwAidAlloc conf (aidStep conf s (.join count)) count = result at does ⊢
  cases does with
  | refused why busy =>
    rw [aidStep] at busy
    rw [unused] at busy
    cases busy
  | given i low below empty before =>
    obtain rfl : i = 0 := by
      by_contra later
      have busy := before 0 (by omega)
      rw [aidStep] at busy
      rw [unused] at busy
      cases busy
    simp only [aidStep,filled.start]
    refine ⟨?_,?_,?_,?_,?_⟩
    · simp only [rr,if_true]
      exact slotAt_next one rfl
    · simp only [rr,if_true]
      omega
    · intro slot inside used
      by_cases slots : slot = slotAt conf origin count
      · exact ⟨count,lt_succ_self _,slots⟩
      · simp only [update_of_ne slots] at used
        obtain ⟨j,low,same⟩ := filled.used slot inside used
        exact ⟨j,by omega,same⟩
    · intro j low
      by_cases same : j = count
      · subst same
        simp
      · simpa [update_of_ne same] using filled.given j (by omega)
    · intro j high
      have same : j ≠ count := by omega
      simpa [update_of_ne same] using filled.ahead j (by omega)

theorem comes_filled {origin : Nat} (rr : conf.rrAid) (low : 1 ≤ origin) (room : 1 ≤ conf.maxNumSta) (count : Nat)
    (few : count ≤ conf.maxAid) : ∃ s, Reached (aidStep conf) Asked (init origin) s ∧ Filled conf origin count s := by
  induction count with
  | zero =>
    refine ⟨init origin,.start,rfl,low,?_,?_,?_⟩
    · intro slot _ used
      cases used
    · intro j less
      exact absurd less (not_lt_zero j)
    · intro j _
      exact ⟨rfl,rfl⟩
  | succ count ih =>
    obtain ⟨s,path,filled⟩ := ih (by omega)
    have new := filled.ahead count (le_refl _)
    have joined : Asked (aidStep conf s (.join count)) (.alloc count) := by
      rw [aidStep]
      exact ⟨update_self ..,new.2⟩
    have came : Reached (aidStep conf) Asked (init origin) (aidStep conf s (.join count)) := path.step new.1
    exact ⟨_,came.step joined,next_filled rr low room few filled⟩

theorem AidsKept.many {count : Nat} (kept : AidsKept conf s) (given : ∀ j < count, s.live j ∧ s.aid j ≠ 0) :
    count ≤ (allocated conf s).card := by
  have into : ∀ j ∈ Finset.range count, s.aid j - 1 ∈ allocated conf s := by
    intro j less
    obtain ⟨here,has⟩ := given j (mem_range.mp less)
    have range := kept.range j here
    have entry := (kept.table (s.aid j - 1) (by omega) j).mpr ⟨here,by omega⟩
    rw [allocated,mem_filter,mem_range,entry]
    exact ⟨by omega,rfl⟩
  have apart : Set.InjOn (fun j => s.aid j - 1) (Finset.range count : Set Nat) := by
    intro i hi j hj same
    rw [mem_coe,mem_range] at hi hj
    dsimp only at same
    have first := given i hi
    have second := given j hj
    exact kept.distinct i j first.1 second.1 first.2 (by omega)
  have most := card_le_card_of_injOn _ into apart
  rwa [card_range] at most

theorem rr_exceeds (conf : Conf) (origin : Nat) (rr : conf.rrAid) (low : 1 ≤ origin) (room : 1 ≤ conf.maxNumSta)
    (narrow : conf.maxNumSta < conf.maxAid) : ∃ s, Reached (aidStep conf) Asked (init origin) s ∧ ¬AidsKept conf s := by
  obtain ⟨s,path,filled⟩ := comes_filled rr low room (conf.maxNumSta+1) narrow
  refine ⟨s,path,?_⟩
  intro kept
  have most := kept.many filled.given
  have limit := kept.limit
  omega

theorem stale_entry {origin : Nat} (off : conf.hwStateAp = false) (low : 1 ≤ origin) (some_ : 1 ≤ conf.maxAid) (room : 1 ≤ conf.maxNumSta) :
    ∃ s, Reached (aidStep conf) Asked (init origin) s ∧ ¬AidsKept conf s := by
  let s := aidStep conf (init origin) (.join 0)
  have joined : Reached (aidStep conf) Asked (init origin) s := Reached.step .start rfl
  have given : Reached (aidStep conf) Asked (init origin) (aidStep conf s (.alloc 0)) := joined.step ⟨rfl,rfl⟩
  have does := rtwAidAlloc_allocates conf s 0 some_ room low
  have next : aidStep conf s (.alloc 0) = (rtwAidAlloc conf s 0).2 := rfl
  rw [next] at given
  generalize rtwAidAlloc conf s 0 = result at does given
  cases does with
  | refused why busy => cases busy
  | given i inside below empty before =>
    have freed : ∀ t, Reached (aidStep conf) Asked (init origin) t → t.live 0 →
        Reached (aidStep conf) Asked (init origin) (aidStep conf t (.free 0)) := fun t path here => path.step here
    refine ⟨_,freed _ given rfl,?_⟩
    intro kept
    have slots := slotAt_lt conf some_ s.startedAid i
    have entry := kept.table _ slots 0
    simp [aidStep,rtwFreeCoreStainfo,off] at entry

theorem aids_kept (conf : Conf) (origin : Nat) (some_ : 1 ≤ conf.maxAid) (room : 1 ≤ conf.maxNumSta)
    (start : 1 ≤ origin ∧ origin ≤ conf.maxAid) :
    (∀ s, Reached (aidStep conf) Asked (init origin) s → AidsKept conf s) ↔
      conf.hwStateAp = true ∧ (conf.rrAid = false ∨ conf.maxAid ≤ conf.maxNumSta) := by
  constructor
  · intro always
    have ap : conf.hwStateAp := by
      by_contra off
      obtain ⟨s,path,broken⟩ := stale_entry (Bool.eq_false_of_not_eq_true off) start.1 some_ room
      exact broken (always s path)
    refine ⟨ap,?_⟩
    by_contra neither
    rw [not_or] at neither
    obtain ⟨s,path,broken⟩ := rr_exceeds conf origin (Bool.eq_true_of_not_eq_false neither.1) start.1 room (by omega)
    exact broken (always s path)
  · intro limited s path
    have first : Kept conf origin (init origin) := by
      refine ⟨init_paired conf origin,start,fun _ => rfl,?_⟩
      intro _ slot _ used
      cases used
    have kept := path.invariant (Kept conf origin) first (fun _ event kept asked => step_kept limited.1 some_ room kept event asked)
    exact kept.aids some_ room limited.2

-- 128 ids and 32 stations: first the default, then with `rr_aid`.
theorem aids_kept_default :
    (∀ s, Reached (aidStep ⟨128,32,false,true⟩) Asked (init 1) s → AidsKept ⟨128,32,false,true⟩ s) ∧
    ¬∀ s, Reached (aidStep ⟨128,32,true,true⟩) Asked (init 1) s → AidsKept ⟨128,32,true,true⟩ s :=
  ⟨(aids_kept ⟨128,32,false,true⟩ 1 (by decide) (by decide) (by decide)).mpr (by decide),
    mt (aids_kept ⟨128,32,true,true⟩ 1 (by decide) (by decide) (by decide)).mp (by decide)⟩

-- Two ids for an AP of one station: after the first the start has moved on.
theorem aids_exceed : ¬∀ (conf : Conf) (origin : Nat), conf.hwStateAp = true → 1 ≤ conf.maxAid → 1 ≤ conf.maxNumSta →
    1 ≤ origin ∧ origin ≤ conf.maxAid → ∀ s, Reached (aidStep conf) Asked (init origin) s → AidsKept conf s := by
  intro always
  obtain ⟨s,path,broken⟩ := rr_exceeds ⟨2,1,true,true⟩ 1 rfl (by decide) (by decide) (by decide)
  exact broken (always ⟨2,1,true,true⟩ 1 rfl (by decide) (by decide) (by decide) s path)

end Rtl8852au.Aid
