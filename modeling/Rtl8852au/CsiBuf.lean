import Rtl8852au.Machine

namespace Rtl8852au.CsiBuf
open Machine Function List Bool

abbrev Sub := BitVec 6

def subIdx80 : Sub := 0b000000
def subIdx40U : Sub := 0b100100
def subIdx40L : Sub := 0b101000
def subIdx20UU : Sub := 0b000100
def subIdx20UL : Sub := 0b001000
def subIdx20LU : Sub := 0b001100
def subIdx20LL : Sub := 0b010000
def subIdxNon : Sub := 0b111111
def bit (idx : Nat) : Sub := 1#6 <<< idx

structure HalCsiBuf where
  subIdx : Sub
  idx : BitVec 5
  mu : Bool

structure HalCsiObj where
  maxCsiBufNr : Nat
  maxCsiBufNrSu : Nat
  csiBuf : Nat → HalCsiBuf

inductive Width where
  | w20
  | w40
  | w80
  deriving DecidableEq

section
variable (sub : Sub)

-- sub_idx of a buffer of the object holds its busy bits, that of a buffer handed out a code.
def isSub20Busy (idx : Nat) : Bool := sub &&& bit idx == bit idx
def is40LBusy : Bool := sub &&& (bit 0 ||| bit 1) == bit 0 ||| bit 1
def is40UBusy : Bool := sub &&& (bit 2 ||| bit 3) == bit 0 ||| bit 1

def queryAvlBufIdx20 : Sub × Sub :=
  if !isSub20Busy sub 0 then (subIdx20LL,sub ||| bit 0)
  else if !isSub20Busy sub 1 then (subIdx20LU,sub ||| bit 1)
  else if !isSub20Busy sub 2 then (subIdx20UL,sub ||| bit 2)
  else if !isSub20Busy sub 3 then (subIdx20UU,sub ||| bit 3)
  else (subIdxNon,sub)

def queryAvlBufIdx40 : Sub × Sub :=
  if !is40LBusy sub then (subIdx40L,sub ||| (bit 0 ||| bit 1))
  else if !is40UBusy sub then (subIdx40U,sub ||| (bit 2 ||| bit 3))
  else (subIdxNon,sub)

def queryAvlBufIdx80 : Sub × Sub := if sub = 0 then (subIdx80,0xF) else (subIdxNon,sub)
end

def queryAvl : Width → Sub → Sub × Sub
  | .w20 => queryAvlBufIdx20
  | .w40 => queryAvlBufIdx40
  | .w80 => queryAvlBufIdx80

section
variable (o : HalCsiObj)

def HalCsiObj.put (i : Nat) (sub : Sub) : HalCsiObj := {o with csiBuf:=update o.csiBuf i {o.csiBuf i with subIdx:=sub}}

def queryFirst (bw : Width) (o : HalCsiObj) : List Nat → Option (Nat × Sub) × HalCsiObj
  | [] => (none,o)
  | i :: rest =>
    let (subIdx,sub) := queryAvl bw (o.csiBuf i).subIdx
    if subIdx ≠ subIdxNon then (some (i,subIdx),o.put i sub) else queryFirst bw (o.put i sub) rest

def HalCsiObj.range (mu : Bool) : List Nat :=
  if mu then List.range' o.maxCsiBufNrSu (o.maxCsiBufNr-o.maxCsiBufNrSu) else List.range o.maxCsiBufNrSu

-- What is written into the caller's buffer, if anything.
def halCsiQueryIdleCsiBuf (mu : Bool) (bw : Width) : Option HalCsiBuf × HalCsiObj :=
  match queryFirst bw o (o.range mu) with
  | (none,o) => (none,o)
  | (some (i,subIdx),o) => (some ⟨subIdx,(o.csiBuf i).idx,mu⟩,o)

def clearCsiStsBit (sub : Sub) (x : Nat) : Sub := sub &&& ~~~bit x

def released (subIdx sub : Sub) : Sub :=
  if subIdx = subIdx80 then 0
  else if subIdx = subIdx40U then clearCsiStsBit (clearCsiStsBit sub 3) 2
  else if subIdx = subIdx40L then clearCsiStsBit (clearCsiStsBit sub 1) 0
  else if subIdx = subIdx20UU then clearCsiStsBit sub 3
  else if subIdx = subIdx20UL then clearCsiStsBit sub 2
  else if subIdx = subIdx20LU then clearCsiStsBit sub 1
  else if subIdx = subIdx20LL then clearCsiStsBit sub 0
  else sub

def halCsiReleaseCsiBuf (buf : HalCsiBuf) : Bool × HalCsiObj × HalCsiBuf :=
  let i := buf.idx.toNat
  if i < o.maxCsiBufNr then
    (true,o.put i (released buf.subIdx (o.csiBuf i).subIdx),{buf with idx:=0,subIdx:=subIdxNon})
  else (false,o,buf)

-- The numbers are u8, idx is a field of five bits.
def halCsiInit (suBufNr muBufNr : Nat) : HalCsiObj :=
  ⟨(suBufNr+muBufNr) % 256,suBufNr,fun idx => ⟨0,BitVec.ofNat 5 idx,decide (suBufNr ≤ idx)⟩⟩

structure Sys where
  obj : HalCsiObj
  bufs : List HalCsiBuf

inductive Event where
  | query (mu : Bool) (bw : Width)
  | release (k : Nat)

def step (s : Sys) : Event → Sys
  | .query mu bw =>
    match halCsiQueryIdleCsiBuf s.obj mu bw with
    | (none,obj) => {s with obj}
    | (some buf,obj) => ⟨obj,s.bufs ++ [buf]⟩
  | .release k =>
    match s.bufs[k]? with
    | none => s
    | some buf =>
      let (_,obj,buf) := halCsiReleaseCsiBuf s.obj buf
      ⟨obj,s.bufs.set k buf⟩

def start (suBufNr muBufNr : Nat) : Sys := ⟨halCsiInit suBufNr muBufNr,[]⟩

-- The quarters that a code stands for.
def quarters (subIdx : Sub) : Sub :=
  if subIdx = subIdx80 then 0b1111
  else if subIdx = subIdx40U then 0b1100
  else if subIdx = subIdx40L then 0b0011
  else if subIdx = subIdx20UU then 0b1000
  else if subIdx = subIdx20UL then 0b0100
  else if subIdx = subIdx20LU then 0b0010
  else if subIdx = subIdx20LL then 0b0001
  else 0

def aligned : Width → List Sub
  | .w20 => [0b0001,0b0010,0b0100,0b1000]
  | .w40 => [0b0011,0b1100]
  | .w80 => [0b1111]

def Idle (bw : Width) (sub : Sub) : Prop := ∃ part ∈ aligned bw, sub &&& part = 0

instance (bw : Width) (sub : Sub) : Decidable (Idle bw sub) := inferInstanceAs (Decidable (∃ part ∈ aligned bw, _))

-- Quarter `q` of buffer `i` is in the caller's buffer `k`.
def Takes (s : Sys) (k i q : Nat) : Prop := ∃ buf, s.bufs[k]? = some buf ∧ buf.idx.toNat = i ∧ (quarters buf.subIdx).getLsbD q

structure Owned (suBufNr muBufNr : Nat) (s : Sys) : Prop where
  apart : ∀ k l i q, Takes s k i q → Takes s l i q → k = l
  busy : ∀ i < suBufNr + muBufNr, ∀ q, (s.obj.csiBuf i).subIdx.getLsbD q ↔ ∃ k, Takes s k i q
  served : ∀ buf ∈ s.bufs, quarters buf.subIdx ≠ 0 →
    if buf.mu then suBufNr ≤ buf.idx.toNat ∧ buf.idx.toNat < suBufNr + muBufNr else buf.idx.toNat < suBufNr

structure Allotted (suBufNr muBufNr : Nat) (s : Sys) : Prop extends Owned suBufNr muBufNr s where
  refused : ∀ mu bw, (halCsiQueryIdleCsiBuf s.obj mu bw).1 = none →
    ∀ i, (if mu then suBufNr ≤ i ∧ i < suBufNr + muBufNr else i < suBufNr) → ¬Idle bw (s.obj.csiBuf i).subIdx

-- The half that a request of 40 MHz takes of a buffer, whatever is busy of it.
def taken40 (sub : Sub) : Sub := if is40LBusy sub then 0b1100 else 0b0011

def Guard (s : Sys) : Event → Prop
  | .query mu .w40 => ∀ i ∈ (s.obj.range mu).head?, (s.obj.csiBuf i).subIdx &&& taken40 (s.obj.csiBuf i).subIdx = 0
  | _ => True

theorem quarters_low : ∀ subIdx : Sub, quarters subIdx &&& 0b110000 = 0 := by decide
theorem quarters_non : quarters subIdxNon = 0 := by decide

theorem query_none : ∀ bw (sub : Sub), sub &&& 0b110000 = 0 → (queryAvl bw sub).1 = subIdxNon →
    (queryAvl bw sub).2 = sub ∧ ¬Idle bw sub := by
  intro bw
  cases bw <;> decide

theorem query_some : ∀ bw (sub : Sub), (queryAvl bw sub).1 ≠ subIdxNon →
    (queryAvl bw sub).2 = sub ||| quarters (queryAvl bw sub).1 := by
  intro bw
  cases bw <;> decide

theorem query_apart : ∀ bw (sub : Sub), (bw = .w40 → sub &&& taken40 sub = 0) →
    sub &&& quarters (queryAvl bw sub).1 = 0 := by
  intro bw
  cases bw <;> decide

theorem query40_serves : ∀ sub : Sub, (queryAvl .w40 sub).1 ≠ subIdxNon := by decide

theorem released_clears : ∀ subIdx sub : Sub, sub &&& 0b110000 = 0 → released subIdx sub = sub &&& ~~~quarters subIdx := by
  decide

theorem put_at (sub : Sub) (j : Nat) :
    (o.put i sub).csiBuf j = if j = i then {o.csiBuf j with subIdx:=sub} else o.csiBuf j := by
  unfold HalCsiObj.put
  dsimp only
  rw [update_apply]
  split
  · rename_i same
    rw [same]
  · rfl

theorem put_idx (sub : Sub) (j : Nat) : ((o.put i sub).csiBuf j).idx = (o.csiBuf j).idx := by
  rw [put_at]
  split <;> rfl

theorem put_sub (sub : Sub) (j : Nat) :
    ((o.put i sub).csiBuf j).subIdx = if j = i then sub else (o.csiBuf j).subIdx := by
  rw [put_at]
  split <;> rfl
end

theorem queryFirst_spec (bw : Width) (o : HalCsiObj) (low : ∀ i, (o.csiBuf i).subIdx &&& 0b110000 = 0) (l : List Nat) :
    (queryFirst bw o l = (none,o) ∧ ∀ i ∈ l, ¬Idle bw (o.csiBuf i).subIdx) ∨
    ∃ i ∈ l, (bw = .w40 → l.head? = some i) ∧ queryFirst bw o l = (some (i,(queryAvl bw (o.csiBuf i).subIdx).1),
      o.put i ((o.csiBuf i).subIdx ||| quarters (queryAvl bw (o.csiBuf i).subIdx).1)) := by
  induction l with
  | nil => exact .inl ⟨rfl,nofun⟩
  | cons i rest ih =>
    by_cases refused : (queryAvl bw (o.csiBuf i).subIdx).1 = subIdxNon
    · obtain ⟨same,busy⟩ := query_none bw _ (low i) refused
      have passed : queryFirst bw o (i :: rest) = queryFirst bw o rest := by
        rw [queryFirst]
        dsimp only
        rw [if_neg (not_not_intro refused),same]
        exact congrArg (fun csiBuf => queryFirst bw {o with csiBuf} rest) (update_eq_self i o.csiBuf)
      rw [passed]
      obtain ⟨none,all⟩ | ⟨j,member,first,found⟩ := ih
      · exact .inl ⟨none,forall_mem_cons.mpr ⟨busy,all⟩⟩
      · refine .inr ⟨j,mem_cons_of_mem _ member,fun wide => ?_,found⟩
        subst wide
        exact absurd refused (query40_serves _)
    · refine .inr ⟨i,mem_cons_self,fun _ => rfl,?_⟩
      rw [queryFirst]
      dsimp only
      rw [if_pos refused,query_some bw _ refused]

structure Inv (suBufNr muBufNr : Nat) (s : Sys) : Prop extends Owned suBufNr muBufNr s where
  nr : s.obj.maxCsiBufNr = suBufNr + muBufNr
  nrSu : s.obj.maxCsiBufNrSu = suBufNr
  idx : ∀ i, (s.obj.csiBuf i).idx = BitVec.ofNat 5 i
  low : ∀ i, (s.obj.csiBuf i).subIdx &&& 0b110000 = 0

section
variable {suBufNr muBufNr : Nat} {s : Sys}

theorem Inv.range (inv : Inv suBufNr muBufNr s) (mu : Bool) (i : Nat) :
    i ∈ s.obj.range mu ↔ if mu then suBufNr ≤ i ∧ i < suBufNr + muBufNr else i < suBufNr := by
  unfold HalCsiObj.range
  rw [inv.nr,inv.nrSu]
  cases mu with
  | true =>
    simp only [if_true,mem_range'_1]
    omega
  | false => simp

theorem Inv.allotted (inv : Inv suBufNr muBufNr s) : Allotted suBufNr muBufNr s := by
  refine ⟨inv.toOwned,?_⟩
  intro mu bw none i inside
  unfold halCsiQueryIdleCsiBuf at none
  obtain ⟨found,all⟩ | ⟨j,_,_,found⟩ := queryFirst_spec bw s.obj inv.low (s.obj.range mu)
  · exact all i ((inv.range mu i).mpr inside)
  · rw [found] at none
    cases none

theorem takes_append (buf : HalCsiBuf) (obj : HalCsiObj) :
    Takes ⟨obj,s.bufs ++ [buf]⟩ k i q ↔
      Takes s k i q ∨ k = s.bufs.length ∧ buf.idx.toNat = i ∧ (quarters buf.subIdx).getLsbD q := by
  unfold Takes
  dsimp only
  rcases Nat.lt_trichotomy k s.bufs.length with old | new | beyond
  · rw [getElem?_append_left old]
    have apart : k ≠ s.bufs.length := by omega
    simp [apart]
  · subst new
    simp
  · rw [getElem?_eq_none (by simp; omega),getElem?_eq_none (by omega)]
    have apart : k ≠ s.bufs.length := by omega
    simp [apart]

theorem takes_set (blank : quarters buf.subIdx = 0) (inside : l < s.bufs.length) (obj : HalCsiObj) :
    Takes ⟨obj,s.bufs.set l buf⟩ k i q ↔ k ≠ l ∧ Takes s k i q := by
  unfold Takes
  dsimp only
  by_cases same : k = l
  · subst same
    rw [getElem?_set_self inside]
    simp [blank]
  · rw [getElem?_set_ne (Ne.symm same)]
    exact (and_iff_right same).symm

theorem idx_toNat (few : suBufNr + muBufNr ≤ 32) (inv : Inv suBufNr muBufNr s) (inside : i < suBufNr + muBufNr) :
    (s.obj.csiBuf i).idx.toNat = i := by
  rw [inv.idx,BitVec.toNat_ofNat]
  omega

theorem Inv.put (inv : Inv suBufNr muBufNr s) (small : sub &&& 0b110000 = 0)
    (owned : Owned suBufNr muBufNr ⟨s.obj.put i sub,bufs⟩) : Inv suBufNr muBufNr ⟨s.obj.put i sub,bufs⟩ where
  toOwned := owned
  nr := inv.nr
  nrSu := inv.nrSu
  idx j := (put_idx _ _ j).trans (inv.idx j)
  low j := by
    rw [put_sub]
    split
    · exact small
    · exact inv.low j

theorem Inv.given (few : suBufNr + muBufNr ≤ 32) (inv : Inv suBufNr muBufNr s) (code : Sub) (mu : Bool)
    (inside : if mu then suBufNr ≤ i ∧ i < suBufNr + muBufNr else i < suBufNr)
    (clear : (s.obj.csiBuf i).subIdx &&& quarters code = 0) :
    Inv suBufNr muBufNr ⟨s.obj.put i ((s.obj.csiBuf i).subIdx ||| quarters code),s.bufs ++ [⟨code,(s.obj.csiBuf i).idx,mu⟩]⟩ := by
  have bound : i < suBufNr + muBufNr := by
    cases mu with
    | true => exact inside.2
    | false => exact Nat.lt_of_lt_of_le inside (Nat.le_add_right _ _)
  have here := idx_toNat few inv bound
  have fresh : ∀ k q, Takes s k i q → (quarters code).getLsbD q = false := by
    intro k q takes
    have busy := (inv.busy i bound q).mpr ⟨k,takes⟩
    have both := congrArg (fun sub => sub.getLsbD q) clear
    simpa [busy] using both
  refine inv.put ?_ ⟨?_,?_,?_⟩
  · rw [BitVec.and_or_distrib_right,inv.low,quarters_low]
    rfl
  · intro k l j q one two
    rw [takes_append] at one two
    rcases one with one | ⟨rfl,rfl,one⟩
    · rcases two with two | ⟨_,rfl,two⟩
      · exact inv.apart k l j q one two
      · rw [fresh k q (here ▸ one)] at two
        cases two
    · rcases two with two | ⟨rfl,_,_⟩
      · rw [fresh l q (here ▸ two)] at one
        cases one
      · rfl
  · intro j low q
    dsimp only
    rw [put_sub]
    by_cases same : j = i
    · subst same
      rw [if_pos rfl,BitVec.getLsbD_or,or_eq_true,inv.busy j low q]
      constructor
      · rintro (⟨k,takes⟩ | new)
        · exact ⟨k,takes_append _ _ |>.mpr (.inl takes)⟩
        · exact ⟨s.bufs.length,takes_append _ _ |>.mpr (.inr ⟨rfl,here,new⟩)⟩
      · rintro ⟨k,takes⟩
        rcases (takes_append _ _).mp takes with takes | ⟨_,_,new⟩
        · exact .inl ⟨k,takes⟩
        · exact .inr new
    · rw [if_neg same,inv.busy j low q]
      refine exists_congr fun k => ?_
      rw [takes_append]
      refine (or_iff_left fun ⟨_,other,_⟩ => same ?_).symm
      exact other.symm.trans here
  · intro buf member some_
    rcases mem_append.mp member with before | new
    · exact inv.served buf before some_
    · cases mem_singleton.mp new
      dsimp only
      rw [here]
      exact inside

theorem Inv.cleared (inv : Inv suBufNr muBufNr s) (held : s.bufs[k]? = some buf) (low : j < suBufNr + muBufNr) (q : Nat) :
    ((s.obj.put buf.idx.toNat ((s.obj.csiBuf buf.idx.toNat).subIdx &&& ~~~quarters buf.subIdx)).csiBuf j).subIdx.getLsbD q ↔
      ∃ l, l ≠ k ∧ Takes s l j q := by
  rw [put_sub]
  by_cases same : j = buf.idx.toNat
  · subst same
    rw [if_pos rfl,BitVec.getLsbD_and,BitVec.getLsbD_not,and_eq_true,inv.busy _ low q]
    constructor
    · rintro ⟨⟨l,takes⟩,outside⟩
      refine ⟨l,?_,takes⟩
      rintro rfl
      obtain ⟨buf',held',_,has⟩ := takes
      cases Option.some.inj (held.symm.trans held')
      simp [has] at outside
    · rintro ⟨l,other,takes⟩
      refine ⟨⟨l,takes⟩,?_⟩
      have apart : (quarters buf.subIdx).getLsbD q = false :=
        eq_false_iff.mpr fun has => other (inv.apart l k _ q takes ⟨buf,held,rfl,has⟩)
      obtain ⟨buf',_,_,has⟩ := takes
      rw [apart,decide_eq_true (BitVec.lt_of_getLsbD has)]
      rfl
  · rw [if_neg same,inv.busy j low q]
    refine exists_congr fun l => (and_iff_right_of_imp ?_).symm
    rintro ⟨buf',held',at',_⟩ rfl
    cases Option.some.inj (held.symm.trans held')
    exact same at'.symm

theorem Inv.release (inv : Inv suBufNr muBufNr s) (k : Nat) : Inv suBufNr muBufNr (step s (.release k)) := by
  unfold step
  dsimp only
  cases held : s.bufs[k]? with
  | none => exact inv
  | some buf =>
    obtain ⟨inside,here⟩ := List.getElem?_eq_some_iff.mp held
    unfold halCsiReleaseCsiBuf
    dsimp only
    by_cases bound : buf.idx.toNat < s.obj.maxCsiBufNr
    · rw [if_pos bound,released_clears _ _ (inv.low _)]
      refine inv.put ?_ ⟨?_,?_,?_⟩
      · rw [BitVec.and_assoc,BitVec.and_comm (~~~_),← BitVec.and_assoc,inv.low]
        exact BitVec.zero_and
      · intro l m i q one two
        rw [takes_set quarters_non inside] at one two
        exact inv.apart l m i q one.2 two.2
      · intro j low q
        exact (inv.cleared held low q).trans (exists_congr fun l => (takes_set quarters_non inside _).symm)
      · intro buf' member some_
        rcases mem_or_eq_of_mem_set member with before | rfl
        · exact inv.served buf' before some_
        · exact absurd quarters_non some_
    · rw [if_neg bound]
      dsimp only
      rw [← here,set_getElem_self]
      exact inv

theorem Inv.query (few : suBufNr + muBufNr ≤ 32) (inv : Inv suBufNr muBufNr s) (allowed : Guard s (.query mu bw)) :
    Inv suBufNr muBufNr (step s (.query mu bw)) := by
  unfold step halCsiQueryIdleCsiBuf
  dsimp only
  obtain ⟨none,_⟩ | ⟨i,member,first,found⟩ := queryFirst_spec bw s.obj inv.low (s.obj.range mu)
  · rw [none]
    exact inv
  · rw [found]
    dsimp only
    rw [put_idx]
    refine inv.given few _ mu ((inv.range mu i).mp member) (query_apart bw _ fun wide => ?_)
    subst wide
    exact allowed i (first rfl)

theorem Inv.initial (few : suBufNr + muBufNr ≤ 32) : Inv suBufNr muBufNr (start suBufNr muBufNr) := by
  refine ⟨⟨?_,?_,nofun⟩,Nat.mod_eq_of_lt (by omega),rfl,fun _ => rfl,fun _ => BitVec.zero_and⟩
  · rintro k l i q ⟨buf,held,_⟩
    cases held
  · intro i low q
    refine iff_of_false (by simp [start,halCsiInit]) ?_
    rintro ⟨k,buf,held,_⟩
    cases held
end

theorem csi_bufs_allotted (few : suBufNr + muBufNr ≤ 32) (path : Reached step Guard (start suBufNr muBufNr) s) :
    Allotted suBufNr muBufNr s := by
  refine (path.invariant (Inv suBufNr muBufNr) (.initial few) fun s event inv allowed => ?_).allotted
  cases event with
  | query mu bw => exact inv.query few allowed
  | release k => exact inv.release k

instance (s : Sys) : (event : Event) → Decidable (Guard s event)
  | .query mu .w40 => inferInstanceAs (Decidable (∀ i ∈ (s.obj.range mu).head?, _ = _))
  | .query _ .w20 | .query _ .w80 | .release _ => isTrue trivial

def mixed : List Event := [.query false .w40,.query true .w80,.query false .w40,.release 0,.query false .w20]

theorem csi_bufs_allotted_mixed : Admitted step Guard (start 1 1) mixed ∧ Allotted 1 1 (run step (start 1 1) mixed) := by
  have admitted : Admitted step Guard (start 1 1) mixed := by decide
  exact ⟨admitted,csi_bufs_allotted (by decide) (Reached.start.run admitted)⟩

-- The lower half goes to the second request though the first has a quarter of it.
def halfTaken : List Event := [.query false .w20,.query false .w40]

theorem csi_bufs_shared : ¬∀ suBufNr muBufNr s, Reached step (fun _ _ => True) (start suBufNr muBufNr) s →
    Allotted suBufNr muBufNr s := by
  intro allotted
  have two := allotted 1 0 (run step (start 1 0) halfTaken) (Reached.start.run ⟨trivial,trivial,trivial⟩)
  have one : Takes (run step (start 1 0) halfTaken) 0 0 0 := ⟨_,rfl,rfl,rfl⟩
  exact absurd (two.apart 0 1 0 0 one ⟨_,rfl,rfl,rfl⟩) nofun
end Rtl8852au.CsiBuf
