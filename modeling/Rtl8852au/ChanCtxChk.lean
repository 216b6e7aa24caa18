import Rtl8852au.ChanCtx

namespace Rtl8852au.Chan
open List
variable {n : Nat}

section
variable (s : Band n) (chan : Nat) (bw : ChannelWidth) (offset : ChanOffset)

def Band.groups : Bool := s.queue.any (fun ctx => isChbwGrouped ctx.chanDef chan bw offset)

def rtwPhlChanctxChk : Bool :=
  if chan = 0 then false
  else if s.isSb ∧ s.bandIdx = 1 then false
  else if 0 < s.cnt then s.groups chan bw offset || (s.mccSup && decide (s.cnt < 2))
  else true

section
variable (dbccSup : Bool) (s : Band n) (r : Fin n) (chan : Nat) (bw : ChannelWidth)

section
variable (offset : ChanOffset) (alloc : Option Nat)

-- `chandef` points to the last context when the loop has found none.
def phlChanctxAddDbcc : Bool × (Nat × ChannelWidth × ChanOffset) × Band n :=
  let create := chanctxCreate s r ⟨bandOf chan,chan,bw,offset⟩ alloc
  if s.cnt = 0 then (create.1,(chan,bw,offset),create.2)
  else
    match s.queue.find? (fun ctx => isChbwGrouped ctx.chanDef chan bw offset) with
    | some ctx =>
      let g := adjustChandef bw offset ctx.chanDef
      (true,(g.chan,g.bw,g.offset),chanctxRmapSet (s.onCtx ctx.addr (fun ctx => {ctx with chanDef:=g})) r ctx.addr)
    | none =>
      if !s.mccSup ∨ 2 ≤ s.cnt then (false,(chan,bw,offset),s)
      else if dbccSup ∧ s.queue.getLast?.any (fun ctx => ctx.chanDef.band ≠ bandOf chan) then (false,(chan,bw,offset),s)
      else (create.1,(chan,bw,offset),create.2)

def rtwPhlChanctxAddDbcc : Bool × (Nat × ChannelWidth × ChanOffset) × Band n :=
  if chan = 0 then (false,(chan,bw,offset),s)
  else if s.isSb ∧ s.bandIdx = 1 then (false,(chan,bw,offset),s)
  else
    let (grouped,chandef,s) := phlChanctxAddDbcc dbccSup s r chan bw offset alloc
    (grouped,chandef,if grouped then {s with opMode:=addMode s} else s)

-- The check and the add answer alike, and a refused add leaves the band alone.
def ChecksAlike : Prop :=
  let added := rtwPhlChanctxAddDbcc dbccSup s r chan bw offset alloc
  (rtwPhlChanctxChk s chan bw offset ↔ added.1) ∧ (added.1 = false → added.2.2 = s)
end
end

-- The request opens a second channel on another band than the one context is on.
def OtherBand : Prop :=
  chan ≠ 0 ∧ ¬ (s.isSb ∧ s.bandIdx = 1) ∧ s.mccSup ∧ s.groups chan bw offset = false ∧
    ∃ ctx, s.queue = [ctx] ∧ ctx.chanDef.band ≠ bandOf chan

theorem groups_find :
    s.groups chan bw offset = (s.queue.find? (fun ctx => isChbwGrouped ctx.chanDef chan bw offset)).isSome := by
  unfold Band.groups
  rw [Bool.eq_iff_iff,find?_isSome,any_eq_true]
end

theorem create_succeeds (s : Band n) (r : Fin n) (chanDef : ChanDef) (fresh : kmemAlloc s alloc = some addr) :
    (chanctxCreate s r chanDef alloc).1 := by
  unfold chanctxCreate
  rw [fresh]

theorem phlChanctxAddDbcc_cases (dbccSup : Bool) (s : Band n) (r : Fin n) (chan : Nat) (bw : ChannelWidth) (offset : ChanOffset)
    (fresh : kmemAlloc s alloc = some addr) (counted : s.cnt = s.queue.length) :
    let added := phlChanctxAddDbcc dbccSup s r chan bw offset alloc
    (added.1 ↔ s.cnt = 0 ∨ s.groups chan bw offset ∨ s.mccSup ∧ s.cnt < 2 ∧
      ¬ (dbccSup ∧ ∃ ctx, s.queue = [ctx] ∧ ctx.chanDef.band ≠ bandOf chan)) ∧ (added.1 = false → added.2.2 = s) := by
  have made := create_succeeds s r ⟨bandOf chan,chan,bw,offset⟩ fresh
  have groups := groups_find s chan bw offset
  unfold phlChanctxAddDbcc
  dsimp only
  split
  · rename_i empty
    simp [made,empty]
  rename_i occupied
  split
  · rename_i ctx found
    rw [found] at groups
    simp [groups]
  rename_i loose
  rw [loose] at groups
  split
  · rename_i refused
    simp only [Bool.not_eq_true'] at refused
    simp only [groups,occupied]
    rcases refused with off | full
    · simp [off]
    · simp [Nat.not_lt.mpr full]
  rename_i taken
  simp only [not_or,Bool.not_eq_true,Bool.not_eq_false',not_le] at taken
  -- one context is left
  obtain ⟨ctx,alone⟩ := length_eq_one_iff.mp (show s.queue.length = 1 by omega)
  simp only [groups,occupied,taken,alone,getLast?_singleton,Option.any_some]
  split
  · rename_i split
    simpa using split
  · rename_i same
    rw [made]
    simpa using same

theorem chanctx_checks_alike (dbccSup : Bool) (s : Band n) (r : Fin n) (chan : Nat) (bw : ChannelWidth) (offset : ChanOffset)
    (alloc : Option Nat) (addr : Nat) (fresh : kmemAlloc s alloc = some addr) (counted : s.cnt = s.queue.length) :
    ChecksAlike dbccSup s r chan bw offset alloc ↔ ¬ (dbccSup = true ∧ OtherBand s chan bw offset) := by
  obtain ⟨adds,still⟩ := phlChanctxAddDbcc_cases dbccSup s r chan bw offset fresh counted
  unfold ChecksAlike OtherBand rtwPhlChanctxChk rtwPhlChanctxAddDbcc
  by_cases zero : chan = 0
  · simp [zero]
  by_cases second : s.isSb ∧ s.bandIdx = 1
  · simp [second]
  rw [if_neg zero,if_neg second,if_neg zero,if_neg second]
  generalize phlChanctxAddDbcc dbccSup s r chan bw offset alloc = added at adds still
  obtain ⟨grouped,chandef,t⟩ := added
  dsimp only at adds still ⊢
  have unchanged : grouped = false → (if grouped then {t with opMode := addMode t} else t) = s := by
    rintro rfl
    exact still rfl
  rw [and_iff_left unchanged,adds]
  have single : (∃ ctx, s.queue = [ctx] ∧ ctx.chanDef.band ≠ bandOf chan) → s.cnt = 1 := by
    rintro ⟨ctx,alone,_⟩
    rw [counted,alone]
    rfl
  generalize (∃ ctx, s.queue = [ctx] ∧ ctx.chanDef.band ≠ bandOf chan) = apart at single ⊢
  simp only [ne_eq,zero,second,not_false_eq_true,true_and]
  split
  · rename_i occupied
    cases s.groups chan bw offset with
    | true => simp
    | false =>
      cases s.mccSup with
      | false => simp; omega
      | true =>
        by_cases other : dbccSup ∧ apart
        · simp [other,single other.2]
        · simp only [other,not_false_eq_true,and_true,true_and,iff_true]
          simp
          omega
  · rename_i empty
    have none : ¬ apart := fun other => empty (by rw [single other]; decide)
    simp [none]
    omega

def split5g : Band 2 := ⟨false,0,true,[⟨7,⟨.on24g,6,.w20,.noExt⟩,{0}⟩],1,.non,fun r => if r = 0 then some 7 else none,
  fun _ => ⟨.on24g,6,.w20,.noExt⟩⟩

theorem chanctx_checks_apart : ¬ ChecksAlike true split5g 1 36 .w20 .noExt (some 8) := by
  intro alike
  have added := alike.1.mp (by decide)
  revert added
  decide

theorem chanctx_checks_alike_same : ChecksAlike true split5g 1 6 .w20 .noExt (some 8) ↔
    ¬ (true = true ∧ OtherBand split5g 6 .w20 .noExt) :=
  chanctx_checks_alike true split5g 1 6 .w20 .noExt (some 8) 8 (by decide) (by decide)
end Rtl8852au.Chan
