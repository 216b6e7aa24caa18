import Rtl8852au.Mcc

namespace Rtl8852au.BcnOffset
open Mcc Nat Function

def maxStoreBcnNum : Nat := 3
def similarTh : Nat := 2

inductive ConfLvl where
  | none | low | mid | high
  deriving DecidableEq

structure Sample where
  tsf : Nat
  offset : Nat
  hwTsf : Nat
  deriving DecidableEq

structure RxBcnInfo where
  idx : Nat
  num : Nat
  info : Nat → Option Sample
  offset : Nat
  confLvl : ConfLvl

structure Sta where
  bcnI : RxBcnInfo
  bcnInterval : Nat

structure Beacon where
  tsf : BitVec 64
  hwTsf : BitVec 64
  bcnInterval : BitVec 16

inductive Fault where
  | divByZero | unstored
  deriving DecidableEq

def modular64 (x y : Nat) : Except Fault Nat := if y = 0 then .error .divByZero else .ok (x % y)

def RxBcnInfo.read (i : RxBcnInfo) (slot : Nat) : Except Fault Sample :=
  match i.info slot with
  | .none => .error .unstored
  | some a => .ok a

def getFidx (num cur : Nat) : Nat := if num = 0 then cur else if maxStoreBcnNum ≤ cur + 1 then 0 else cur + 1
def getBidx (num cur : Nat) : Nat := if cur = 0 then u8 (num-1) else cur - 1
def lower (offset stored : Nat) : Nat := if stored < offset then u16 stored else offset
def similar (bcnIntvl diff : Nat) : Bool := diff < similarTh || u64 (bcnIntvl-diff) < similarTh

-- The inner walk of _phl_sta_up_bcn_offset_info, back from `cur`.
def walk (i : RxBcnInfo) (bcnIntvl cur : Nat) : Nat → Nat → Nat → Except Fault Nat
  | 0,_,offset => .ok offset
  | rounds+1,bidx,offset => do
    let bidx := getBidx i.num bidx
    if i.idx = bidx then return offset
    let a ← i.read cur
    let b ← i.read bidx
    let rest ← modular64 (u64 (a.tsf-b.tsf)) (bcnIntvl*tu)
    if similar bcnIntvl (rest / tu) then walk i bcnIntvl cur rounds bidx (lower (lower offset a.offset) b.offset)
    else walk i bcnIntvl cur rounds bidx offset

def walks (i : RxBcnInfo) (bcnIntvl : Nat) : Nat → Nat → Nat → Except Fault Nat
  | 0,_,offset => .ok offset
  | rounds+1,cur,offset => do
    let offset ← walk i bcnIntvl cur (i.num-1) cur offset
    walks i bcnIntvl rounds (getBidx i.num cur) offset

def midStep (i : RxBcnInfo) (slot : Nat) : Except Fault RxBcnInfo := do
  let a ← i.read slot
  if a.offset < i.offset then return {i with offset:=u16 a.offset,confLvl:=.mid}
  else return i

-- An offset below 5% of the interval counts as 0.
def settle (bcnIntvl : Nat) (i : RxBcnInfo) : RxBcnInfo :=
  if i.offset ≠ 0 ∧ i.offset < bcnIntvl*5 / 100 then {i with offset:=0} else i

def phlStaUpBcnOffsetInfo (i : RxBcnInfo) (bcnIntvl : Nat) : Except Fault RxBcnInfo := do
  if i.num = 1 then
    let a ← i.read i.idx
    return settle bcnIntvl {i with offset:=u16 a.offset,confLvl:=.low}
  let offset ← walks i bcnIntvl i.num i.idx bcnIntvl
  if offset ≠ bcnIntvl then
    return settle bcnIntvl {i with offset:=if offset < i.offset then offset else i.offset,confLvl:=.high}
  let i ← (List.range i.num).foldlM midStep i
  return settle bcnIntvl i

def rtwPhlStaUpRxBcn (sta : Sta) (b : Beacon) : Except Fault Sta := do
  let bcnIntvl := b.bcnInterval.toNat
  let i := sta.bcnI
  let idx := getFidx i.num i.idx
  let rest ← modular64 b.tsf.toNat (bcnIntvl*tu)
  let sample := {tsf:=b.tsf.toNat,offset:=rest / tu,hwTsf:=b.hwTsf.toNat}
  let num := if i.num < maxStoreBcnNum then i.num + 1 else i.num
  let i ← phlStaUpBcnOffsetInfo {i with idx,num,info:=update i.info idx (some sample)} bcnIntvl
  return {bcnI:=i,bcnInterval:=bcnIntvl}

-- phl_clean_sta_bcn_info
def clean : RxBcnInfo := {idx:=0,num:=0,info:=fun _ => .none,offset:=0,confLvl:=.none}

def receive (bcnInterval : BitVec 16) (beacons : List Beacon) : Except Fault Sta :=
  beacons.foldlM rtwPhlStaUpRxBcn {bcnI:=clean,bcnInterval:=bcnInterval.toNat}

-- Without a fault, and with this of the result.
def Yields (m : Except Fault α) (holds : α → Prop) : Prop := ∃ a, m = .ok a ∧ holds a

theorem Yields.bind (first : Yields m middle) (second : ∀ a, middle a → Yields (f a) after) : Yields (m >>= f) after := by
  obtain ⟨a,rfl,holds⟩ := first
  exact second a holds

theorem Yields.pure (holds : after a) : Yields (pure a) after := ⟨a,rfl,holds⟩

theorem modular64_yields (y : 0 < d) (x : Nat) : Yields (modular64 x d) fun rest => rest = x % d :=
  ⟨x % d,if_neg (ne_of_gt y),rfl⟩

theorem getBidx_lt (more : 0 < num) (few : num ≤ maxStoreBcnNum) (inside : cur < num) : getBidx num cur < num := by
  unfold getBidx maxStoreBcnNum u8 at *
  split <;> omega

structure Tracks (seen : Nat → Prop) (i : RxBcnInfo) : Prop where
  num : i.num ≤ maxStoreBcnNum
  place : i.num = 0 ∧ i.idx = 0 ∨ i.idx < i.num ∧ (i.num < maxStoreBcnNum → i.idx+1 = i.num)
  stored : ∀ slot < i.num, Yields (i.read slot) fun a => seen a.offset
  selected : i.offset = 0 ∨ seen i.offset

theorem clean_tracks (seen : Nat → Prop) : Tracks seen clean := ⟨zero_le _,.inl ⟨rfl,rfl⟩,nofun,.inl rfl⟩

section
variable {seen : Nat → Prop} {i : RxBcnInfo} {bcnIntvl : Nat}

def Candidate (seen : Nat → Prop) (bcnIntvl offset : Nat) : Prop := offset ≤ bcnIntvl ∧ (offset = bcnIntvl ∨ seen offset)

theorem Candidate.lower (candidate : Candidate seen bcnIntvl offset) (small : ∀ o, seen o → o < 2 ^ 16) (there : seen stored) :
    Candidate seen bcnIntvl (lower offset stored) := by
  have same : u16 stored = stored := by
    have bound := small stored there
    unfold u16
    omega
  unfold BcnOffset.lower
  split
  · rename_i less
    rw [same]
    exact ⟨le_of_lt (lt_of_lt_of_le less candidate.1),.inr there⟩
  · exact candidate

section
variable (tracks : Tracks seen i) (small : ∀ o, seen o → o < 2 ^ 16) (intvl : 0 < bcnIntvl)
include tracks small intvl

theorem walk_yields (inside : cur < i.num)
    (rounds : Nat) (back : bidx < i.num) (candidate : Candidate seen bcnIntvl offset) :
    Yields (walk i bcnIntvl cur rounds bidx offset) (Candidate seen bcnIntvl) := by
  induction rounds generalizing bidx offset with
  | zero => exact .pure candidate
  | succ rounds ih =>
    have further := getBidx_lt (by omega) tracks.num back
    unfold walk
    dsimp only
    split
    · exact .pure candidate
    · refine .bind (tracks.stored cur inside) fun a seenA => .bind (tracks.stored _ further) fun b seenB => ?_
      refine .bind (modular64_yields (Nat.mul_pos intvl (by decide)) _) fun rest _ => ?_
      split
      · exact ih further ((candidate.lower small seenA).lower small seenB)
      · exact ih further candidate

theorem walks_yields (rounds : Nat)
    (inside : cur < i.num) (candidate : Candidate seen bcnIntvl offset) :
    Yields (walks i bcnIntvl rounds cur offset) (Candidate seen bcnIntvl) := by
  induction rounds generalizing cur offset with
  | zero => exact .pure candidate
  | succ rounds ih =>
    refine .bind (walk_yields tracks small intvl inside _ inside candidate) fun found candidate => ?_
    exact ih (getBidx_lt (by omega) tracks.num inside) candidate
end

structure Lowered (seen : Nat → Prop) (i : RxBcnInfo) (slots : List Nat) (j : RxBcnInfo) : Prop where
  same : j = {i with offset:=j.offset,confLvl:=j.confLvl}
  least : j.offset ≤ i.offset
  selected : j.offset = i.offset ∨ seen j.offset
  all : ∀ slot ∈ slots, Yields (i.read slot) fun a => j.offset ≤ a.offset

theorem mids_yield (stored : ∀ slot ∈ slots, Yields (i.read slot) fun a => seen a.offset) (small : ∀ o, seen o → o < 2 ^ 16) :
    Yields (slots.foldlM midStep i) (Lowered seen i slots) := by
  induction slots generalizing i with
  | nil => exact .pure ⟨rfl,le_refl _,.inl rfl,nofun⟩
  | cons slot rest ih =>
    obtain ⟨a,found,there⟩ := stored slot List.mem_cons_self
    have here : Yields (midStep i slot) fun j => j = {i with offset:=j.offset,confLvl:=j.confLvl} ∧ j.offset ≤ a.offset ∧
        j.offset ≤ i.offset ∧ (j.offset = i.offset ∨ seen j.offset) := by
      have same : u16 a.offset = a.offset := by
        have bound := small _ there
        unfold u16
        omega
      unfold midStep
      rw [found]
      change Yields (if a.offset < i.offset then _ else _) _
      split
      · rename_i less
        refine .pure ⟨rfl,?_⟩
        rw [same]
        exact ⟨le_refl _,le_of_lt less,.inr there⟩
      · rename_i more
        exact .pure ⟨rfl,not_lt.mp more,le_refl _,.inl rfl⟩
    rw [List.foldlM_cons]
    refine .bind here fun j ⟨same,below,less,selected⟩ => ?_
    have reads (k : Nat) : j.read k = i.read k := by rw [same]; rfl
    have later : ∀ k ∈ rest, Yields (j.read k) fun a => seen a.offset := fun k member => by
      rw [reads]
      exact stored k (List.mem_cons_of_mem slot member)
    obtain ⟨last,ran,lowered⟩ := ih later
    refine ⟨last,ran,?_,lowered.least.trans less,?_,?_⟩
    · rw [lowered.same,same]
    · rcases lowered.selected with equal | there
      · rw [equal]
        exact selected
      · exact .inr there
    · intro k member
      rcases List.mem_cons.mp member with rfl | member
      · exact ⟨a,found,lowered.least.trans below⟩
      · rw [← reads]
        exact lowered.all k member

structure Updated (seen : Nat → Prop) (bcnIntvl : Nat) (i j : RxBcnInfo) : Prop where
  same : j = {i with offset:=j.offset,confLvl:=j.confLvl}
  selected : j.offset = 0 ∨ seen j.offset
  below : j.offset < bcnIntvl

theorem Updated.settle (updated : Updated seen bcnIntvl i j) : Updated seen bcnIntvl i (settle bcnIntvl j) := by
  unfold BcnOffset.settle
  split
  · rw [updated.same]
    exact ⟨rfl,.inl rfl,lt_of_le_of_lt (zero_le _) updated.below⟩
  · exact updated

theorem offsetInfo_yields (tracks : Tracks seen i) (small : ∀ o, seen o → o < 2 ^ 16) (intvl : 0 < bcnIntvl)
    (inside : i.idx < i.num) (newest : Yields (i.read i.idx) fun a => a.offset < bcnIntvl) :
    Yields (phlStaUpBcnOffsetInfo i bcnIntvl) (Updated seen bcnIntvl i) := by
  obtain ⟨a,found,below⟩ := newest
  have there : seen a.offset := by
    obtain ⟨b,again,there⟩ := tracks.stored i.idx inside
    rw [found] at again
    cases again
    exact there
  unfold phlStaUpBcnOffsetInfo
  split
  · rw [found]
    have same : u16 a.offset = a.offset := by
      have bound := small _ there
      unfold u16
      omega
    refine .pure (Updated.settle ⟨rfl,?_,?_⟩)
    · rw [same]
      exact .inr there
    · rw [same]
      exact below
  · refine .bind (walks_yields tracks small intvl i.num inside ⟨le_refl _,.inl rfl⟩) fun offset ⟨atMost,selected⟩ => ?_
    split
    · rename_i other
      have less : offset < bcnIntvl := lt_of_le_of_ne atMost other
      refine .pure (Updated.settle ⟨rfl,?_,?_⟩)
      · dsimp only
        split
        · exact .inr (selected.resolve_left other)
        · exact tracks.selected
      · dsimp only
        split <;> omega
    · refine .bind (mids_yield (fun slot member => tracks.stored slot (List.mem_range.mp member)) small) fun j lowered => ?_
      refine .pure (Updated.settle ⟨lowered.same,?_,?_⟩)
      · rcases lowered.selected with equal | there
        · rw [equal]
          exact tracks.selected
        · exact .inr there
      · obtain ⟨b,again,least⟩ := lowered.all i.idx (List.mem_range.mpr inside)
        rw [found] at again
        cases again
        exact lt_of_le_of_lt least below
end

def Beacon.offset (b : Beacon) : Nat := b.tsf.toNat % (b.bcnInterval.toNat*tu) / tu

structure Tracked (seen : Nat → Prop) (sta : Sta) : Prop where
  tracks : Tracks seen sta.bcnI
  below : sta.bcnI.offset < sta.bcnInterval
  small : sta.bcnInterval < 2 ^ 16

theorem Beacon.intvl_pos (b : Beacon) (nonzero : b.bcnInterval ≠ 0) : 0 < b.bcnInterval.toNat := by
  rw [Nat.pos_iff_ne_zero]
  intro zero
  exact nonzero (BitVec.eq_of_toNat_eq zero)

theorem Beacon.offset_lt (b : Beacon) (nonzero : b.bcnInterval ≠ 0) : b.offset < b.bcnInterval.toNat := by
  have period := Nat.mod_lt b.tsf.toNat (Nat.mul_pos (b.intvl_pos nonzero) (by decide : 0 < tu))
  exact Nat.div_lt_of_lt_mul (Nat.mul_comm _ _ ▸ period)

theorem tracks_put (tracks : Tracks seen i) (there : seen a.offset) :
    Tracks seen {i with idx := getFidx i.num i.idx,num := if i.num < maxStoreBcnNum then i.num + 1 else i.num,
                        info := update i.info (getFidx i.num i.idx) (some a)} ∧
      getFidx i.num i.idx < (if i.num < maxStoreBcnNum then i.num + 1 else i.num) := by
  have most := tracks.num
  -- The slot is the next free one, or the oldest of a full ring.
  have place : getFidx i.num i.idx = i.num ∧ i.num < maxStoreBcnNum ∨ getFidx i.num i.idx < i.num ∧ i.num = maxStoreBcnNum := by
    have place := tracks.place
    unfold getFidx maxStoreBcnNum at *
    split
    · omega
    · split <;> omega
  have inside : getFidx i.num i.idx < (if i.num < maxStoreBcnNum then i.num + 1 else i.num) := by split <;> omega
  refine ⟨⟨?_,?_,?_,tracks.selected⟩,inside⟩
  · dsimp only
    split <;> omega
  · refine .inr ⟨inside,?_⟩
    dsimp only
    split <;> omega
  · intro slot filled
    unfold RxBcnInfo.read
    dsimp only at filled ⊢
    by_cases here : slot = getFidx i.num i.idx
    · rw [here,update_self]
      exact .pure there
    · rw [update_of_ne here]
      exact tracks.stored slot (by split at filled <;> omega)

theorem rxBcn_yields (tracks : Tracks seen sta.bcnI) (small : ∀ o, seen o → o < 2 ^ 16) (b : Beacon) (nonzero : b.bcnInterval ≠ 0)
    (there : seen b.offset) : Yields (rtwPhlStaUpRxBcn sta b) (Tracked seen) := by
  have intvl := b.intvl_pos nonzero
  unfold rtwPhlStaUpRxBcn
  refine .bind (modular64_yields (Nat.mul_pos intvl (by decide)) _) fun rest same => ?_
  subst same
  obtain ⟨put,inside⟩ := tracks_put (a := ⟨b.tsf.toNat,b.offset,b.hwTsf.toNat⟩) tracks there
  refine .bind (offsetInfo_yields put small intvl inside ?_) fun j updated => ?_
  · unfold RxBcnInfo.read
    dsimp only
    rw [update_self]
    exact .pure (b.offset_lt nonzero)
  · refine .pure ⟨?_,updated.below,b.bcnInterval.isLt⟩
    rw [updated.same]
    exact {put with selected:=updated.selected}

theorem beacons_yield (small : ∀ o, seen o → o < 2 ^ 16) (beacons : List Beacon)
    (good : ∀ b ∈ beacons, b.bcnInterval ≠ 0 ∧ seen b.offset) (tracked : Tracked seen sta) :
    Yields (beacons.foldlM rtwPhlStaUpRxBcn sta) (Tracked seen) := by
  induction beacons generalizing sta with
  | nil => exact .pure tracked
  | cons b rest ih =>
    obtain ⟨nonzero,there⟩ := good b List.mem_cons_self
    rw [List.foldlM_cons]
    refine .bind (rxBcn_yields tracked.tracks small b nonzero there) fun next tracked => ?_
    exact ih (fun c member => good c (List.mem_cons_of_mem b member)) tracked

theorem mod_wrap {m b o : Nat} (less : m < b) (offset : o < b) : (m + (b-o) + o) % b = m := by
  have wraps : m + (b-o) + o = m + b := by omega
  rw [wraps,add_mod_right,mod_eq_of_lt less]

theorem tbtt_congruent (env : Env) (own : (env.wrole w).sta = some sta) (below : sta.bcnOffset < roleBcnIntvl env w sta)
    (small : roleBcnIntvl env w sta < 2 ^ 16) (curT : Nat) :
    calcOffsetFromTbtt env (some w) curT < roleBcnIntvl env w sta ∧
      (calcOffsetFromTbtt env (some w) curT + sta.bcnOffset) % roleBcnIntvl env w sta = curT / tu % roleBcnIntvl env w sta := by
  have calc_ : calcOffsetFromTbtt env (some w) curT =
      if curT % (roleBcnIntvl env w sta*tu) / tu < sta.bcnOffset
      then u16 ((curT % (roleBcnIntvl env w sta*tu) / tu : Nat) + (roleBcnIntvl env w sta - sta.bcnOffset : Int))
      else u16 (curT % (roleBcnIntvl env w sta*tu) / tu - sta.bcnOffset : Nat) := by
    unfold calcOffsetFromTbtt
    rw [Option.bind_some,own,Option.map_some]
    exact if_neg (ne_of_gt (lt_of_le_of_lt (zero_le _) below))
  have turns : curT % (roleBcnIntvl env w sta*tu) / tu = curT / tu % roleBcnIntvl env w sta := by
    rw [mul_comm,mod_mul_right_div_self]
  rw [calc_,turns]
  generalize roleBcnIntvl env w sta = intvl at *
  have less := mod_lt (curT / tu) (lt_of_le_of_lt (zero_le _) below)
  generalize curT / tu % intvl = m at *
  split
  · rename_i far
    have same : u16 ((m : Int) + (intvl - sta.bcnOffset : Int)) = m + (intvl-sta.bcnOffset) := by
      unfold u16
      omega
    rw [same]
    exact ⟨by omega,mod_wrap less below⟩
  · rename_i near
    have same : u16 ((m - sta.bcnOffset : Nat) : Int) = m - sta.bcnOffset := by
      unfold u16
      omega
    rw [same,Nat.sub_add_cancel (Nat.not_lt.mp near)]
    exact ⟨by omega,mod_eq_of_lt less⟩

theorem beacon_offset_tracked (bcnInterval : BitVec 16) (beacons : List Beacon) (nonzero : ∀ b ∈ beacons, b.bcnInterval ≠ 0) :
    ∃ s, receive bcnInterval beacons = .ok s ∧ s.bcnI.idx < maxStoreBcnNum ∧ s.bcnI.num ≤ maxStoreBcnNum ∧
      (s.bcnI.offset = 0 ∨ ∃ b ∈ beacons, b.offset = s.bcnI.offset) ∧ (beacons ≠ [] → s.bcnI.offset < s.bcnInterval) ∧
      ∀ env w sta, (env.wrole w).sta = some sta → sta.bcnOffset = s.bcnI.offset → roleBcnIntvl env w sta = s.bcnInterval →
        0 < s.bcnInterval → ∀ curT, calcOffsetFromTbtt env (some w) curT < s.bcnInterval ∧
          (calcOffsetFromTbtt env (some w) curT + s.bcnI.offset) % s.bcnInterval = curT / tu % s.bcnInterval := by
  have small : ∀ o, (∃ b ∈ beacons, b.offset = o) → o < 2 ^ 16 := by
    rintro o ⟨b,member,rfl⟩
    exact (b.offset_lt (nonzero b member)).trans b.bcnInterval.isLt
  have tbtt {s : Sta} (below : 0 < s.bcnInterval → s.bcnI.offset < s.bcnInterval) (short : s.bcnInterval < 2 ^ 16) (env : Env)
      (w : Nat) (sta : SelfSta) (own : (env.wrole w).sta = some sta) (offset : sta.bcnOffset = s.bcnI.offset)
      (intvl : roleBcnIntvl env w sta = s.bcnInterval) (pos : 0 < s.bcnInterval) (curT : Nat) :=
    offset ▸ intvl ▸ tbtt_congruent env own (by rw [offset,intvl]; exact below pos) (intvl ▸ short) curT
  have tracks : Tracks (fun o => ∃ b ∈ beacons, b.offset = o) (Sta.mk clean bcnInterval.toNat).bcnI := clean_tracks _
  cases beacons with
  | nil => exact ⟨_,rfl,zero_lt_succ 2,zero_le 3,.inl rfl,fun some => absurd rfl some,tbtt id bcnInterval.isLt⟩
  | cons b rest =>
    have good : ∀ c ∈ b :: rest, c.bcnInterval ≠ 0 ∧ ∃ d ∈ b :: rest, d.offset = c.offset :=
      fun c member => ⟨nonzero c member,c,member,rfl⟩
    obtain ⟨s,ran,tracked⟩ := Yields.bind (rxBcn_yields tracks small b
      (nonzero b List.mem_cons_self) (good b List.mem_cons_self).2)
      fun _ tracked => beacons_yield small rest (fun c member => good c (List.mem_cons_of_mem b member)) tracked
    have few := tracked.tracks.num
    refine ⟨s,?_,?_,few,?_,fun _ => tracked.below,tbtt (fun _ => tracked.below) tracked.small⟩
    · unfold receive
      rw [List.foldlM_cons]
      exact ran
    · rcases tracked.tracks.place with ⟨_,zero⟩ | ⟨inside,_⟩
      · rw [zero]
        decide
      · omega
    · exact tracked.tracks.selected

def beaconAt (tsf : BitVec 64) (bcnInterval : BitVec 16) : Beacon := {tsf,hwTsf:=0,bcnInterval}

-- The ring holds 80, 60 and 70 when the beacon of the selected 50 has left it; and an interval of 0.
theorem beacon_offset_left :
    (receive 100 [beaconAt (50 * 1024) 100,beaconAt (160 * 1024) 100,beaconAt (270 * 1024) 100,beaconAt (380 * 1024) 100]).toOption.map
        (fun s => (s.bcnI.offset,(List.range maxStoreBcnNum).map fun slot => (s.bcnI.info slot).map (·.offset))) =
      some (50,[some 80,some 60,some 70]) ∧
    (receive 0 [beaconAt 1 0]).toOption.isNone := by
  decide +kernel

theorem beacon_offset_tracked_two : ∃ s, receive 100 [beaconAt (50 * 1024) 100,beaconAt (160 * 1024) 90] = .ok s ∧ s.bcnI.num ≤ maxStoreBcnNum := by
  obtain ⟨s,ran,_,few,_⟩ := beacon_offset_tracked 100 [beaconAt (50 * 1024) 100,beaconAt (160 * 1024) 90] (by decide)
  exact ⟨s,ran,few⟩
end Rtl8852au.BcnOffset
