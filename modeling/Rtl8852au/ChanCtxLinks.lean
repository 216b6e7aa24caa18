import Rtl8852au.ChanCtx

namespace Rtl8852au.Chan
open Machine Function List

variable {n : Nat} {s : Band n}

theorem mem_onCtx : ctx ∈ (s.onCtx addr change).queue ↔
    ∃ old ∈ s.queue, (if old.addr = addr then change old else old) = ctx := mem_map

theorem onCtx_addrs (keeps : ∀ ctx : ChanCtx n, (change ctx).addr = ctx.addr) :
    (s.onCtx addr change).queue.map ChanCtx.addr = s.queue.map ChanCtx.addr := by
  simp only [Band.onCtx,map_map]
  apply map_congr_left
  intro ctx _
  simp only [comp]
  split
  · exact keeps ctx
  · rfl

theorem onCtx_length (s : Band n) (addr : Nat) (change : ChanCtx n → ChanCtx n) :
    (s.onCtx addr change).queue.length = s.queue.length := length_map _

theorem onCtx_there (keeps : ∀ ctx : ChanCtx n, (change ctx).addr = ctx.addr) (there : ∃ ctx ∈ s.queue, ctx.addr = a) :
    ∃ ctx ∈ (s.onCtx addr change).queue, ctx.addr = a := by
  have listed : a ∈ (s.onCtx addr change).queue.map ChanCtx.addr := by
    rw [onCtx_addrs keeps]
    exact mem_map.mpr there
  exact mem_map.mp listed

theorem Tied.same (tied : Tied s) (one : ctx ∈ s.queue) (two : ctx' ∈ s.queue) (addr : ctx.addr = ctx'.addr) :
    ctx = ctx' := inj_on_of_nodup_map tied.addrs one two addr

theorem Tied.at (tied : Tied s) (there : ctx ∈ s.queue) : s.ctxAt ctx.addr = some ctx := by
  cases found : s.ctxAt ctx.addr with
  | none => exact absurd (find?_eq_none.mp found ctx there) (by simp)
  | some other =>
    have addr : other.addr = ctx.addr := by simpa using find?_some found
    rw [tied.same (mem_of_find?_eq_some found) there addr]

theorem ctxAt_mem (found : s.ctxAt addr = some ctx) : ctx ∈ s.queue ∧ ctx.addr = addr :=
  ⟨mem_of_find?_eq_some found,by simpa using find?_some found⟩

theorem Tied.redefine (tied : Tied s) (addr : Nat) (chanDef : ChanDef) :
    Tied (s.onCtx addr (fun ctx => {ctx with chanDef:=chanDef})) := by
  constructor
  · rw [onCtx_addrs]
    · exact tied.addrs
    · exact fun _ => rfl
  · intro r ctx member
    obtain ⟨old,there,rfl⟩ := mem_onCtx.mp member
    have mapped := tied.mapped r old there
    split <;> exact mapped
  · intro r a points
    exact onCtx_there (fun _ => rfl) (tied.pointed r a points)
  · rw [onCtx_length]
    exact tied.counted
  · rw [onCtx_length]
    exact tied.few

theorem Linked.redefine (linked : Linked s) (addr : Nat) (chanDef : ChanDef) :
    Linked (s.onCtx addr (fun ctx => {ctx with chanDef:=chanDef})) := by
  refine ⟨linked.toTied.redefine addr chanDef,?_⟩
  intro ctx member
  obtain ⟨old,there,rfl⟩ := mem_onCtx.mp member
  have used := linked.used old there
  split <;> exact used

theorem Tied.append (tied : Tied s) (fresh : ∀ ctx ∈ s.queue, ctx.addr ≠ addr) (room : s.queue.length < 2)
    (chanDef : ChanDef) : Tied (chanctxAdd s ⟨addr,chanDef,∅⟩) := by
  constructor
  · simp only [chanctxAdd,map_append,map_singleton]
    rw [nodup_append_comm]
    refine nodup_cons.mpr ⟨?_,tied.addrs⟩
    intro member
    obtain ⟨ctx,there,same⟩ := mem_map.mp member
    exact fresh ctx there same
  · intro r ctx member
    rcases mem_append.mp member with there | new
    · exact tied.mapped r ctx there
    · cases mem_singleton.mp new
      constructor
      · intro none
        cases Finset.notMem_empty r none
      · intro points
        obtain ⟨ctx,there,same⟩ := tied.pointed r addr points
        exact absurd same (fresh ctx there)
  · intro r a points
    obtain ⟨ctx,there,same⟩ := tied.pointed r a points
    exact ⟨ctx,mem_append_left _ there,same⟩
  · simp only [chanctxAdd,length_append,length_singleton,tied.counted]
  · simp only [chanctxAdd,length_append,length_singleton]
    omega

theorem Tied.join (tied : Tied s) (free : s.chanctx r = none) (there : ∃ ctx ∈ s.queue, ctx.addr = addr) :
    Tied (chanctxRmapSet s r addr) := by
  constructor
  · change ((s.onCtx addr _).queue.map ChanCtx.addr).Nodup
    rw [onCtx_addrs]
    · exact tied.addrs
    · exact fun _ => rfl
  · intro r' ctx member
    obtain ⟨old,held,rfl⟩ := mem_onCtx.mp member
    have mapped := tied.mapped r' old held
    by_cases here : old.addr = addr
    · rw [if_pos here]
      by_cases own : r' = r
      · subst own
        simp [chanctxRmapSet,here]
      · simp only [chanctxRmapSet,Finset.mem_insert,own,false_or,update_of_ne own]
        exact mapped
    · rw [if_neg here]
      by_cases own : r' = r
      · subst own
        rw [free] at mapped
        simp only [chanctxRmapSet,update_self,Option.some.injEq]
        exact ⟨fun member => absurd (mapped.mp member) nofun,fun same => absurd same.symm here⟩
      · simp only [chanctxRmapSet,update_of_ne own]
        exact mapped
  · intro r' a points
    refine onCtx_there (fun _ => rfl) ?_
    by_cases own : r' = r
    · subst own
      simp only [chanctxRmapSet,update_self,Option.some.injEq] at points
      exact points ▸ there
    · simp only [chanctxRmapSet,update_of_ne own] at points
      exact tied.pointed r' a points
  · exact tied.counted.trans (onCtx_length ..).symm
  · exact (onCtx_length ..).symm ▸ tied.few

theorem rmapSet_used (others : ∀ ctx ∈ s.queue, ctx.addr ≠ addr → ctx.roleMap.Nonempty) :
    ∀ ctx ∈ (chanctxRmapSet s r addr).queue, ctx.roleMap.Nonempty := by
  intro ctx member
  obtain ⟨old,held,rfl⟩ := mem_onCtx.mp member
  split
  · exact Finset.insert_nonempty _ _
  · rename_i other
    exact others old held other

theorem Tied.clear (tied : Tied s) (points : s.chanctx r = some addr) : Tied (chanctxRmapClr s r addr) := by
  constructor
  · change ((s.onCtx addr _).queue.map ChanCtx.addr).Nodup
    rw [onCtx_addrs]
    · exact tied.addrs
    · exact fun _ => rfl
  · intro r' ctx member
    obtain ⟨old,held,rfl⟩ := mem_onCtx.mp member
    have mapped := tied.mapped r' old held
    by_cases own : r' = r
    · subst own
      simp only [chanctxRmapClr,update_self]
      split
      · simp
      · rename_i other
        rw [points,Option.some.injEq] at mapped
        exact ⟨fun member => absurd (mapped.mp member).symm other,nofun⟩
    · simp only [chanctxRmapClr,update_of_ne own]
      split
      · rw [Finset.mem_erase,and_iff_right own]
        exact mapped
      · exact mapped
  · intro r' a points'
    refine onCtx_there (fun _ => rfl) ?_
    by_cases own : r' = r
    · subst own
      simp [chanctxRmapClr] at points'
    · simp only [chanctxRmapClr,update_of_ne own] at points'
      exact tied.pointed r' a points'
  · exact tied.counted.trans (onCtx_length ..).symm
  · exact (onCtx_length ..).symm ▸ tied.few

theorem length_without {queue : List (ChanCtx n)} (apart : (queue.map ChanCtx.addr).Nodup)
    (there : ∃ ctx ∈ queue, ctx.addr = addr) :
    (queue.filter (fun ctx => ctx.addr ≠ addr)).length + 1 = queue.length := by
  induction queue with
  | nil =>
    obtain ⟨_,member,_⟩ := there
    cases member
  | cons first rest ih =>
    rw [map_cons,nodup_cons] at apart
    by_cases here : first.addr = addr
    · have all : rest.filter (fun ctx => ctx.addr ≠ addr) = rest := by
        apply filter_eq_self.mpr
        intro ctx member
        simp only [decide_eq_true_eq,ne_eq]
        intro same
        exact apart.1 (mem_map.mpr ⟨ctx,member,same.trans here.symm⟩)
      rw [filter_cons_of_neg (by simpa using here),all,length_cons]
    · obtain ⟨ctx,member,same⟩ := there
      rw [filter_cons_of_pos (by simpa using here),length_cons,length_cons]
      rcases mem_cons.mp member with rfl | later
      · exact absurd same here
      · rw [ih apart.2 ⟨ctx,later,same⟩]

theorem Tied.remove (tied : Tied s) (there : ∃ ctx ∈ s.queue, ctx.addr = addr) (alone : ∀ r, s.chanctx r ≠ some addr) :
    Tied (chanctxDel s addr) := by
  have shorter := length_without tied.addrs there
  have some : s.cnt ≠ 0 := by
    rw [tied.counted]
    omega
  unfold chanctxDel
  rw [if_pos some]
  constructor
  · exact tied.addrs.sublist (filter_sublist.map _)
  · intro r ctx member
    exact tied.mapped r ctx (mem_of_mem_filter member)
  · intro r a points
    obtain ⟨ctx,held,same⟩ := tied.pointed r a points
    refine ⟨ctx,mem_filter.mpr ⟨held,?_⟩,same⟩
    simp only [decide_eq_true_eq,ne_eq]
    intro gone
    exact alone r (points.trans (congrArg Option.some (same.symm.trans gone)))
  · have counted := tied.counted
    change s.cnt - 1 = (s.queue.filter _).length
    omega
  · have few := tied.few
    change (s.queue.filter _).length ≤ 2
    omega

theorem kmemAlloc_fresh (got : kmemAlloc s alloc = some addr) : ∀ ctx ∈ s.queue, ctx.addr ≠ addr := by
  have unused := (Option.filter_eq_some_iff.mp got).2
  intro ctx member same
  have used : s.queue.any (fun ctx => ctx.addr == addr) := any_eq_true.mpr ⟨ctx,member,by simp [same]⟩
  rw [used] at unused
  cases unused

theorem create_linked (linked : Linked s) (free : s.chanctx r = none) (room : s.queue.length < 2) (chanDef : ChanDef)
    (alloc : Option Nat) :
    (chanctxCreate s r chanDef alloc = (false,s)) ∨
    (chanctxCreate s r chanDef alloc).1 ∧ Linked (chanctxCreate s r chanDef alloc).2 ∧
      (chanctxCreate s r chanDef alloc).2.queue ≠ [] := by
  unfold chanctxCreate
  cases got : kmemAlloc s alloc with
  | none => exact .inl rfl
  | some addr =>
    right
    have fresh := kmemAlloc_fresh got
    have own : (⟨addr,chanDef,∅⟩ : ChanCtx n) ∈ (chanctxAdd s ⟨addr,chanDef,∅⟩).queue :=
      mem_append_right _ (mem_singleton_self _)
    have tied := (linked.toTied.append fresh room chanDef).join (r := r) free ⟨_,own,rfl⟩
    refine ⟨rfl,⟨tied,rmapSet_used ?_⟩,?_⟩
    · intro ctx member other
      rcases mem_append.mp member with there | new
      · exact linked.used ctx there
      · cases mem_singleton.mp new
        exact absurd rfl other
    · simp [chanctxRmapSet,Band.onCtx,chanctxAdd]

theorem phlChanctxAdd_linked (linked : Linked s) (free : s.chanctx r = none) (chan : Nat) (bw : ChannelWidth)
    (offset : ChanOffset) (alloc : Option Nat) :
    ((phlChanctxAdd s r chan bw offset alloc).1 = false ∧ (phlChanctxAdd s r chan bw offset alloc).2.2 = s) ∨
    ((phlChanctxAdd s r chan bw offset alloc).1 ∧ Linked (phlChanctxAdd s r chan bw offset alloc).2.2 ∧
      (phlChanctxAdd s r chan bw offset alloc).2.2.queue ≠ []) := by
  have counted := linked.counted
  have created (room : s.queue.length < 2) := create_linked linked free room ⟨bandOf chan,chan,bw,offset⟩ alloc
  unfold phlChanctxAdd
  dsimp only
  by_cases empty : s.cnt = 0
  · rw [if_pos empty]
    rcases created (by omega) with failed | done
    · exact .inl (by rw [failed]; exact ⟨rfl,rfl⟩)
    · exact .inr done
  rw [if_neg empty]
  cases found : s.queue.find? (fun ctx => isChbwGrouped ctx.chanDef chan bw offset) with
  | some ctx =>
    right
    have there := mem_of_find?_eq_some found
    have defined := linked.redefine ctx.addr (adjustChandef bw offset ctx.chanDef)
    have tied := defined.toTied.join (r := r) free (onCtx_there (fun _ => rfl) ⟨ctx,there,rfl⟩)
    refine ⟨rfl,⟨tied,rmapSet_used (fun other member _ => defined.used other member)⟩,?_⟩
    intro none
    have gone := congrArg length none
    simp only [chanctxRmapSet,onCtx_length,length_nil] at gone
    omega
  | none =>
    dsimp only
    split
    · exact .inl ⟨rfl,rfl⟩
    · rename_i room
      rw [not_or] at room
      rcases created (by omega) with failed | done
      · exact .inl (by rw [failed]; exact ⟨rfl,rfl⟩)
      · exact .inr done

inductive Shape (s : Band n) : Prop where
  | none (queue : s.queue = []) (cnt : s.cnt = 0)
  | one (ctx : ChanCtx n) (queue : s.queue = [ctx]) (cnt : s.cnt = 1)
  | two (first second : ChanCtx n) (queue : s.queue = [first,second]) (cnt : s.cnt = 2)

theorem Tied.shape (tied : Tied s) : Shape s := by
  have counted := tied.counted
  have few := tied.few
  match queue : s.queue with
  | [] => exact .none queue (by rw [counted,queue]; rfl)
  | [ctx] => exact .one ctx queue (by rw [counted,queue]; rfl)
  | [first,second] => exact .two first second queue (by rw [counted,queue]; rfl)
  | _ :: _ :: _ :: _ =>
    rw [queue] at few
    simp only [length_cons] at few
    omega

theorem addMode_right (linked : Linked s) (some : s.queue ≠ []) : addMode s = modeOf s.queue := by
  cases linked.toTied.shape with
  | none queue _ => exact absurd queue some
  | one ctx queue cnt =>
    simp only [addMode,cnt,queue,head?_cons]
    rfl
  | two first second queue cnt =>
    simp only [addMode,cnt,queue]
    rfl

theorem add_consistent (consistent : Consistent s) (free : s.chanctx r = none) (chan : Nat) (bw : ChannelWidth)
    (offset : ChanOffset) (alloc : Option Nat) : Consistent (rtwPhlChanctxAdd s r chan bw offset alloc).2.2 := by
  unfold rtwPhlChanctxAdd
  split
  · exact consistent
  split
  · exact consistent
  rcases phlChanctxAdd_linked consistent.toLinked free chan bw offset alloc with ⟨failed,same⟩ | ⟨done,linked,some⟩
  · dsimp only
    rw [failed,same]
    exact consistent
  · dsimp only
    rw [done]
    exact ⟨⟨{linked with},linked.used⟩,addMode_right linked some⟩

theorem delMode_consistent (linked : Linked s) (out : Option ChanDef) (addr : Nat) : Consistent (delMode s out addr).2.2 := by
  have moded (mode : MrOp) (right : mode = modeOf s.queue) : Consistent {s with opMode:=mode} :=
    ⟨⟨{linked with},linked.used⟩,right⟩
  cases linked.toTied.shape with
  | none queue cnt =>
    have same : (delMode s out addr).2.2 = {s with opMode:=.non} := by simp only [delMode,cnt]
    rw [same]
    exact moded .non (by rw [queue]; rfl)
  | one ctx queue cnt =>
    have same : (delMode s out addr).2.2 = {s with opMode:=if ctx.rnum = 1 then .non else .scc} := by
      simp only [delMode,cnt,queue,head?_cons]
    have held : 0 < ctx.rnum := Finset.card_pos.mpr (linked.used ctx (by rw [queue]; exact mem_singleton_self _))
    rw [same]
    apply moded
    rw [queue]
    change _ = if 2 ≤ ctx.rnum then MrOp.scc else .non
    by_cases alone : ctx.rnum = 1
    · rw [if_pos alone,if_neg (by omega)]
    · rw [if_neg alone,if_pos (by omega)]
  | two first second queue cnt =>
    have same : (delMode s out addr).2.2 = {s with opMode:=.mcc} := by
      simp only [delMode,cnt]
      split <;> rfl
    rw [same]
    exact moded .mcc (by rw [queue]; rfl)

theorem roles_length (ctx : ChanCtx n) : ctx.roles.length = ctx.rnum := by
  have apart : ctx.roles.Nodup := (nodup_finRange n).filter _
  have all : ctx.roles.toFinset = ctx.roleMap := by
    ext r
    simp [ChanCtx.roles]
  rw [ChanCtx.rnum,← all,toFinset_card_of_nodup apart]

theorem sync_fails (failed : chandefSync chandef roles = none) : roles.length ≠ 1 := by
  intro single
  obtain ⟨r,rfl⟩ := length_eq_one_iff.mp single
  cases failed

theorem upt_linked (linked : Linked s) (updated : chandefUpt s addr = some left) : Linked left := by
  unfold chandefUpt at updated
  split at updated
  · cases updated
  · obtain ⟨chanDef,_,rfl⟩ := Option.map_eq_some_iff.mp updated
    exact linked.redefine addr chanDef

theorem unsynced_mode (consistent : Consistent s) (target : ctx ∈ s.queue) (points : s.chanctx r = some ctx.addr)
    (failed : chandefUpt (chanctxRmapClr s r ctx.addr) ctx.addr = none) (left : 1 < ctx.rnum) :
    s.opMode = modeOf (chanctxRmapClr s r ctx.addr).queue := by
  have tied := consistent.toTied.clear points
  have member : {ctx with roleMap:=ctx.roleMap.erase r} ∈ (chanctxRmapClr s r ctx.addr).queue :=
    mem_onCtx.mpr ⟨ctx,target,if_pos rfl⟩
  have here : (chanctxRmapClr s r ctx.addr).ctxAt ctx.addr = some {ctx with roleMap:=ctx.roleMap.erase r} := tied.at member
  have several : 2 ≤ (ctx.roleMap.erase r).card := by
    have unsynced : chandefSync (chanctxRmapClr s r ctx.addr).chandef
        (ChanCtx.roles {ctx with roleMap:=ctx.roleMap.erase r}) = none := by
      unfold chandefUpt at failed
      rw [here] at failed
      exact Option.map_eq_none_iff.mp failed
    have many := sync_fails unsynced
    rw [roles_length] at many
    have inside : r ∈ ctx.roleMap := (consistent.mapped r ctx target).mpr points
    have less := Finset.card_erase_of_mem inside
    simp only [ChanCtx.rnum] at many left
    omega
  rw [consistent.mode]
  cases consistent.toTied.shape with
  | none queue _ =>
    rw [queue] at target
    cases target
  | one only queue _ =>
    rw [queue] at target
    cases mem_singleton.mp target
    have before : 2 ≤ ctx.rnum := left
    have after : (chanctxRmapClr s r ctx.addr).queue = [{ctx with roleMap:=ctx.roleMap.erase r}] := by
      simp [chanctxRmapClr,Band.onCtx,queue]
    rw [after,queue]
    change (if 2 ≤ ctx.rnum then MrOp.scc else .non) = if 2 ≤ (ctx.roleMap.erase r).card then MrOp.scc else .non
    rw [if_pos before,if_pos several]
  | two first second queue _ =>
    simp only [chanctxRmapClr,Band.onCtx,queue,map_cons,map_nil]
    rfl

theorem del_consistent (consistent : Consistent s) (r : Fin n) (chanDef : Option ChanDef) :
    Consistent (rtwPhlChanctxDel s r chanDef).2.2 := by
  unfold rtwPhlChanctxDel
  cases points : s.chanctx r with
  | none => exact consistent
  | some addr =>
    dsimp only
    cases found : s.ctxAt addr with
    | none => exact consistent
    | some target =>
      obtain ⟨there,rfl⟩ := ctxAt_mem found
      have inside : r ∈ target.roleMap := (consistent.mapped r target there).mpr points
      have cleared := consistent.toTied.clear points
      dsimp only
      split
      · exact consistent
      by_cases last : target.rnum = 1
      · rw [if_pos last]
        apply delMode_consistent
        obtain ⟨only,single⟩ := Finset.card_eq_one.mp last
        have alone : ∀ other, (chanctxRmapClr s r target.addr).chanctx other ≠ some target.addr := by
          intro other same
          by_cases own : other = r
          · subst own
            simp [chanctxRmapClr] at same
          · simp only [chanctxRmapClr,update_of_ne own] at same
            have listed := (consistent.mapped other target there).mpr same
            rw [single,Finset.mem_singleton] at listed inside
            exact own (listed.trans inside.symm)
        refine ⟨cleared.remove (onCtx_there (fun _ => rfl) ⟨target,there,rfl⟩) alone,?_⟩
        intro ctx member
        unfold chanctxDel at member
        split at member
        · obtain ⟨held,other⟩ := mem_filter.mp member
          obtain ⟨old,stood,rfl⟩ := mem_onCtx.mp held
          by_cases gone : old.addr = target.addr
          · simp [gone] at other
          · rw [if_neg gone]
            exact consistent.used old stood
        · rename_i none
          have counted := cleared.counted
          have some := length_pos_of_mem member
          omega
      · rw [if_neg last]
        have left : 1 < target.rnum := by
          have held : 0 < target.rnum := Finset.card_pos.mpr ⟨r,inside⟩
          omega
        have linked : Linked (chanctxRmapClr s r target.addr) := by
          refine ⟨cleared,?_⟩
          intro ctx member
          obtain ⟨old,stood,rfl⟩ := mem_onCtx.mp member
          split
          · rename_i here
            cases consistent.toTied.same stood there here
            have fewer := Finset.card_erase_of_mem inside
            change 1 < target.roleMap.card at left
            exact Finset.card_pos.mp (by rw [fewer]; omega)
          · exact consistent.used old stood
        split
        · rename_i failed
          exact ⟨linked,unsynced_mode consistent there points failed left⟩
        · rename_i updated
          exact delMode_consistent (upt_linked linked updated) _ _

theorem init_consistent (isSb : Bool) (bandIdx : Nat) (mccSup : Bool) (chandef : Fin n → ChanDef) :
    Consistent (.init isSb bandIdx mccSup chandef) :=
  ⟨⟨⟨nodup_nil,nofun,nofun,rfl,Nat.zero_le 2⟩,nofun⟩,rfl⟩

theorem chanctx_consistent (isSb : Bool) (bandIdx : Nat) (mccSup : Bool) (chandef : Fin n → ChanDef)
    (path : Reached bandStep AddsFree (.init isSb bandIdx mccSup chandef) s) : Consistent s := by
  apply path.invariant Consistent (init_consistent isSb bandIdx mccSup chandef)
  intro s event consistent allowed
  cases event with
  | add r chan bw offset alloc => exact add_consistent consistent allowed chan bw offset alloc
  | del r chanDef => exact del_consistent consistent r chanDef
  | setChandef r chanDef =>
    exact ⟨⟨{consistent with},consistent.used⟩,
      consistent.mode⟩

def wide : ChanDef := ⟨.on5g,36,.w80,.upper⟩

def visits : List (BandEvent 4) :=
  [.add 0 0 .w20 .noExt none,.add 0 36 .w40 .upper none,.add 0 36 .w40 .upper (some 7),.add 1 36 .w80 .upper none,
    .add 2 36 .w20 .noExt none,.add 3 1 .w20 .noExt (some 7),.add 3 1 .w20 .noExt (some 9),
    .setChandef 0 {wide with offset:=.lower},.del 2 (some wide),.setChandef 0 wide,.del 3 none,.del 1 none,.del 1 none]

theorem chanctx_consistent_visits :
    let s := run bandStep (.init true 0 true (fun _ => wide)) visits
    Admitted bandStep AddsFree (.init true 0 true (fun _ => wide)) visits ∧
    s.queue.map (fun ctx => (ctx.addr,ctx.chanDef,ctx.roles)) = [(7,wide,[0])] ∧ Consistent s := by
  have admitted : Admitted bandStep AddsFree (.init true 0 true (fun _ => wide)) visits := by decide +kernel
  exact ⟨admitted,by decide +kernel,chanctx_consistent true 0 true _ (Reached.start.run admitted)⟩
end Rtl8852au.Chan
