import Rtl8852au.MccBuild

namespace Rtl8852au.Mcc

def Written (m : Mem) (courtesy : Courtesy) : Prop :=
  ∃ srcRole tgtRole, courtesy.srcRole = some srcRole ∧ courtesy.tgtRole = some tgtRole ∧
    (m.role srcRole).policy.courtesyEn ∧
    (m.role srcRole).policy.courtesyNum = (if courtesy.cNum then 1 else 0) ∧
    (m.role srcRole).policy.courtesyTarget = u8 (m.role tgtRole).macid

theorem apply_written (written : Written m courtesy) : applyCourtesy courtesy m = m := by
  obtain ⟨srcRole,tgtRole,src,tgt,en,num,target⟩ := written
  unfold applyCourtesy
  rw [src,tgt]
  cases courtesy.cEn with
  | false => rfl
  | true =>
    refine onRole_same m srcRole _ ?_
    unfold withCourtesy
    rw [← num,← target,← en]

theorem apply_off (courtesy : Courtesy) (m : Mem) (off : courtesy.cEn = false) : applyCourtesy courtesy m = m := by
  unfold applyCourtesy
  rw [off]

theorem apply_on (m : Mem) (src tgt : RoleRef) :
    applyCourtesy ⟨true,true,some src,some tgt⟩ m = m.onRole src (withCourtesy true (m.role tgt)) := rfl

theorem onRole_local (m : Mem) (r : RoleRef) (change : MccRole → MccRole) (same : SameRole (m.role r) (change (m.role r))) :
    Local r.place m (m.onRole r change) := .modify m _ (.onRole _ _ _ same)

theorem apply_writes (m : Mem) (src tgt : RoleRef) :
    Written (applyCourtesy ⟨true,true,some src,some tgt⟩ m) ⟨true,true,some src,some tgt⟩ := by
  refine ⟨src,tgt,rfl,rfl,?_⟩
  rw [apply_on,onRole_role,if_pos rfl,onRole_role]
  refine ⟨rfl,rfl,?_⟩
  unfold withCourtesy
  by_cases same : tgt = src
  · rw [if_pos same,same]
  · rw [if_neg same]

-- A courtesy that stood before the slots were made, as the one a copy has from
-- the stored pattern: it is written where it points, and points elsewhere.
def Old (p : Place) (m : Mem) : Prop :=
  limited (m p).ref ≠ limited (m p).ano → (m p).enInfo.pattern.courtesy.cEn →
    Written m (m p).enInfo.pattern.courtesy ∧ ∀ r, (m p).enInfo.pattern.courtesy.srcRole = some r ∨
      (m p).enInfo.pattern.courtesy.tgtRole = some r → r.place ≠ p

theorem Written.away (written : Written m courtesy) (away : ∀ q, q ≠ p → m' q = m q)
    (elsewhere : ∀ r, courtesy.srcRole = some r ∨ courtesy.tgtRole = some r → r.place ≠ p) : Written m' courtesy := by
  obtain ⟨srcRole,tgtRole,src,tgt,facts⟩ := written
  refine ⟨srcRole,tgtRole,src,tgt,?_⟩
  unfold Mem.role
  rw [away _ (elsewhere _ (.inl src)),away _ (elsewhere _ (.inr tgt))]
  exact facts

def NamedAt (p : Place) (i : MccInfo) : Prop :=
  ∃ ref ano, i.enInfo.pattern.roleRef = some ⟨p,ref⟩ ∧ i.enInfo.pattern.roleAno = some ⟨p,ano⟩

theorem Arranged.courtesy (arranged : Arranged extra fits before after) :
    after.enInfo.pattern.courtesy = before.enInfo.pattern.courtesy ∨
      Fresh before.enInfo.pattern after.enInfo.pattern.courtesy := by
  cases extra with
  | false => exact (arranged.plain rfl).1.courtesy
  | true =>
    by_cases fit : fits
    · rcases arranged.takes rfl fit with first | second
      · exact first.courtesy
      · exact second.courtesy
    · exact (arranged.lacks rfl fit).courtesy

structure Done (env : Env) (p : Place) (m m' : Mem) : Prop extends Local p m m' where
  arranged : Arranged (mccDiscisionDurationFor2roleBt env (m p)).1 (BtFits (mccDiscisionDurationFor2roleBt env (m p)).2)
    (m p) (m' p)
  written : limited (m p).ref ≠ limited (m p).ano → (m' p).enInfo.pattern.courtesy.cEn →
    Written m' (m' p).enInfo.pattern.courtesy

theorem Arranged.of_eq (arranged : Arranged extra fits before after) (pattern : after'.enInfo.pattern = after.enInfo.pattern)
    (bt : after'.btInfo = after.btInfo) : Arranged extra fits before after' where
  plain no := by rw [pattern,bt]; exact arranged.plain no
  added yes := by rw [bt]; exact arranged.added yes
  takes yes fit := by rw [pattern]; exact arranged.takes yes fit
  lacks yes none := by rw [pattern]; exact arranged.lacks yes none

theorem courtesy_done (old : Old p m) (named : NamedAt p (m p)) (apart : limited (m p).ref ≠ limited (m p).ano)
    (here : Local p m m')
    (arranged : Arranged (mccDiscisionDurationFor2roleBt env (m p)).1 (BtFits (mccDiscisionDurationFor2roleBt env (m p)).2)
      (m p) (m' p)) : Done env p m (applyCourtesy (m' p).enInfo.pattern.courtesy m') := by
  have fresh : ∀ ref ano : Fin 2, (m' p).enInfo.pattern.courtesy = ⟨true,true,some ⟨p,ref⟩,some ⟨p,ano⟩⟩ →
      Done env p m (applyCourtesy (m' p).enInfo.pattern.courtesy m') := by
    intro ref ano courtesy
    have kept : (applyCourtesy (m' p).enInfo.pattern.courtesy m' p).enInfo.pattern = (m' p).enInfo.pattern ∧
        (applyCourtesy (m' p).enInfo.pattern.courtesy m' p).btInfo = (m' p).btInfo := by
      rw [courtesy,apply_on]
      unfold Mem.onRole
      rw [modify_at]
      exact ⟨rfl,rfl⟩
    refine ⟨here.trans ?_,arranged.of_eq kept.1 kept.2,fun _ _ => ?_⟩
    · rw [courtesy,apply_on]
      exact onRole_local m' ⟨p,ref⟩ _ ⟨rfl,rfl,rfl,rfl⟩
    · rw [kept.1,courtesy]
      exact apply_writes ..
  obtain ⟨ref,ano,roleRef,roleAno⟩ := named
  rcases arranged.courtesy with same | first | second
  · cases on : (m p).enInfo.pattern.courtesy.cEn with
    | false =>
      have off : (m' p).enInfo.pattern.courtesy.cEn = false := by rw [same]; exact on
      rw [apply_off _ _ off]
      exact ⟨here,arranged,fun _ on => absurd (off.symm.trans on) Bool.false_ne_true⟩
    | true =>
      obtain ⟨written,elsewhere⟩ := old apart on
      have there : Written m' (m' p).enInfo.pattern.courtesy := by
        rw [same]
        exact written.away here.away elsewhere
      rw [apply_written there]
      exact ⟨here,arranged,fun _ _ => there⟩
  · exact fresh ref ano (by rw [first,roleRef,roleAno])
  · exact fresh ano ref (by rw [second,roleRef,roleAno])

theorem put_local (m : Mem) (same : Same (m p) i) : Local p m (m.modify p (fun _ => i)) := .modify m _ same

theorem bt_arranged_from (m : Mem) (tunes : Tunes (m p) i) (seg : (m p).btInfo.btSegNum = 1) :
    Local p m (mccFill2WroleBtPattern p (m.modify p (fun _ => i))) ∧
      Arranged true (BtFits i) (m p) (mccFill2WroleBtPattern p (m.modify p (fun _ => i)) p) := by
  have facts := bt_pattern_arranged (m.modify p (fun _ => i)) (p := p) (by rw [modify_at]; exact tunes.segNum.trans seg)
  rw [modify_at] at facts
  exact ⟨(put_local m tunes.toSame).trans facts.1,facts.2.of_tunes tunes⟩

theorem wrole_arranged (m : Mem) (tunes : Tunes (m p) i) (two : TwoSlots i.enInfo.pattern pattern) :
    Local p m ((m.modify p (fun _ => i)).modify p (fun i => i.onPattern (fun _ => pattern))) ∧
      Arranged false fits (m p) ((m.modify p (fun _ => i)).modify p (fun i => i.onPattern (fun _ => pattern)) p) := by
  rw [modify_twice,modify_at]
  exact ⟨.modify m _ (tunes.toSame.trans (.onPattern _ _)),fun _ => ⟨two.of_tunes tunes,tunes.addBt⟩,nofun,nofun,nofun⟩

theorem limitation_equal (env : Env) (m : Mem) (equal : limited (m p).ref = limited (m p).ano) :
    mccFill2wrolePatternWithLimitation env p m = (false,m) := by
  unfold mccFill2wrolePatternWithLimitation
  rw [if_pos equal]

theorem limitation_apart (env : Env) (m : Mem) (seg : (m p).btInfo.btSegNum = 1) (old : Old p m) (named : NamedAt p (m p))
    (apart : limited (m p).ref ≠ limited (m p).ano) :
    (∃ m',mccFill2wrolePatternWithLimitation env p m = (true,m') ∧ Done env p m m') ∨
      (mccDiscisionDurationFor2roleBt env (m p)).1 = false ∧
        mccFill2wrolePatternWithLimitation env p m =
          (false,m.modify p (fun _ => (mccDiscisionDurationFor2roleBt env (m p)).2)) := by
  have tunes := discision_tunes env (m p)
  have finish : ∀ m', Local p m m' → Arranged (mccDiscisionDurationFor2roleBt env (m p)).1
      (BtFits (mccDiscisionDurationFor2roleBt env (m p)).2) (m p) (m' p) →
      Done env p m (applyCourtesy (m' p).enInfo.pattern.courtesy m') :=
    fun m' here arranged => courtesy_done old named apart here arranged
  unfold mccFill2wrolePatternWithLimitation
  rw [if_neg apart]
  generalize mccDiscisionDurationFor2roleBt env (m p) = decided at tunes finish ⊢
  obtain ⟨extra,i⟩ := decided
  cases extra with
  | true =>
    obtain ⟨here,arranged⟩ := bt_arranged_from m tunes seg
    exact .inl ⟨_,rfl,finish _ here arranged⟩
  | false =>
    dsimp only at tunes finish ⊢
    rw [modify_at]
    cases found : mccCalculate2WrolePattern i.ref.policy.durInfo i.ano.policy.durInfo i.enInfo.pattern.bcnsOffset
        i.enInfo.pattern with
    | none => exact .inr ⟨rfl,rfl⟩
    | some pattern =>
      obtain ⟨here,arranged⟩ := wrole_arranged m tunes (calculate_wrole_appends found)
      exact .inl ⟨_,rfl,finish _ here arranged⟩

theorem clients_pattern_plain (m : Mem) (worsecase : Bool) :
    Local p m (mccFill2ClientsPattern worsecase p m) ∧
      TwoSlots (m p).enInfo.pattern (mccFill2ClientsPattern worsecase p m p).enInfo.pattern ∧
      (mccFill2ClientsPattern worsecase p m p).enInfo.pattern.courtesy = (m p).enInfo.pattern.courtesy ∧
      (mccFill2ClientsPattern worsecase p m p).btInfo = (m p).btInfo := by
  unfold mccFill2ClientsPattern
  rw [modify_at]
  refine ⟨.modify m _ (.onPattern _ _),?_⟩
  cases worsecase with
  | false => exact ⟨calculate_clients_appends ..,refAno_courtesy ..,rfl⟩
  | true => exact ⟨(worsecase_appends ..).1,(worsecase_appends ..).2,rfl⟩

theorem worsecase_durs_tunes (i : MccInfo) : Tunes i (worsecaseDurs i) := (Tunes.setDurs i _).rest worsecaseIntvl _ _ _ _

section
variable (env : Env) (m : Mem) (worsecase : Bool)

theorem clients_slots_done (old : Old p m) (tunes : Tunes (m p) i)
    (no : (mccDiscisionDurationFor2roleBt env (m p)).1 = false) :
    Done env p m (mccFill2ClientsPattern worsecase p (m.modify p (fun _ => i))) := by
  obtain ⟨here,two,courtesy,bt⟩ := clients_pattern_plain (p := p) (m.modify p (fun _ => i)) worsecase
  rw [modify_at] at two courtesy bt
  have whole := (put_local m tunes.toSame).trans here
  refine ⟨whole,?_,fun apart on => ?_⟩
  · rw [no]
    exact ⟨fun _ => ⟨two.of_tunes tunes,by rw [bt]; exact tunes.addBt⟩,nofun,nofun,nofun⟩
  · rw [courtesy,tunes.courtesy] at on ⊢
    obtain ⟨written,elsewhere⟩ := old apart on
    exact written.away whole.away elsewhere

theorem unlimited_slots_done (seg : (m p).btInfo.btSegNum = 1) (old : Old p m)
    (equal : limited (m p).ref = limited (m p).ano) : Done env p m (unlimitedSlots env worsecase p m) := by
  have tunes := discision_tunes env (m p)
  unfold unlimitedSlots
  cases extra : (mccDiscisionDurationFor2roleBt env (m p)).1 with
  | true =>
    obtain ⟨here,arranged⟩ := bt_arranged_from m tunes seg
    dsimp only
    rw [if_pos extra]
    exact ⟨here,by rw [extra]; exact arranged,fun apart => absurd equal apart⟩
  | false =>
    dsimp only
    rw [if_neg (by rw [extra]; exact Bool.false_ne_true)]
    cases worsecase with
    | true =>
      rw [if_pos rfl,modify_twice]
      exact clients_slots_done env m true old (tunes.trans (worsecase_durs_tunes _)) extra
    | false => exact clients_slots_done env m false old tunes extra

theorem given_up_slots_done (old : Old p m)
    (no : (mccDiscisionDurationFor2roleBt env (m p)).1 = false) :
    Done env p m (unlimitedSlots env worsecase p (m.modify p (fun _ => (mccDiscisionDurationFor2roleBt env (m p)).2))) := by
  have again := discision_again env (m p) no
  have tunes := (discision_tunes env (m p)).trans (discision_tunes env (mccDiscisionDurationFor2roleBt env (m p)).2)
  unfold unlimitedSlots
  rw [modify_at]
  dsimp only
  rw [if_neg (by rw [again]; exact Bool.false_ne_true),modify_twice]
  cases worsecase with
  | true =>
    rw [if_pos rfl,modify_twice]
    exact clients_slots_done env m true old (tunes.trans (worsecase_durs_tunes _)) no
  | false =>
    rw [if_neg Bool.false_ne_true,modify_twice]
    exact clients_slots_done env m false old tunes no

theorem two_clients_slots_done (seg : (m p).btInfo.btSegNum = 1) (old : Old p m)
    (named : NamedAt p (m p)) : Done env p m (twoClientsSlots env worsecase p m) := by
  unfold twoClientsSlots
  by_cases equal : limited (m p).ref = limited (m p).ano
  · rw [limitation_equal env m equal]
    exact unlimited_slots_done env m worsecase seg old equal
  · rcases limitation_apart env m seg old named equal with ⟨m',found,done⟩ | ⟨no,left⟩
    · rw [found]; exact done
    · rw [left]; exact given_up_slots_done env m worsecase old no
end

structure Finished (p : Place) (m m' : Mem) : Prop extends Local p m m' where
  pattern : (m' p).enInfo.pattern = (m p).enInfo.pattern
  bt : (m' p).btInfo = (m p).btInfo
  roles : (m' p).enInfo.mccRole = (m p).enInfo.mccRole

theorem Finished.trans (one : Finished p a b) (two : Finished p b c) : Finished p a c :=
  ⟨one.toLocal.trans two.toLocal,two.pattern.trans one.pattern,two.bt.trans one.bt,two.roles.trans one.roles⟩

theorem Finished.role (finished : Finished p m m') (r : RoleRef) : m'.role r = m.role r := by
  unfold Mem.role
  by_cases here : r.place = p
  · rw [here,finished.roles]
  · rw [finished.away _ here]

theorem Finished.written (finished : Finished p m m') (written : Written m courtesy) : Written m' courtesy := by
  obtain ⟨srcRole,tgtRole,src,tgt,facts⟩ := written
  refine ⟨srcRole,tgtRole,src,tgt,?_⟩
  rw [finished.role,finished.role]
  exact facts

theorem put_finished (m : Mem) (same : Same (m p) i) (pattern : i.enInfo.pattern = (m p).enInfo.pattern)
    (bt : i.btInfo = (m p).btInfo) (roles : i.enInfo.mccRole = (m p).enInfo.mccRole) :
    Finished p m (m.modify p (fun _ => i)) :=
  ⟨put_local m same,by rw [modify_at]; exact pattern,by rw [modify_at]; exact bt,by rw [modify_at]; exact roles⟩

theorem start_finished (env : Env) (p : Place) (m : Mem) : Finished p m (withStartTsf env p m).2 := by
  unfold withStartTsf mccCalculateStartTsf
  generalize startTsfFor env (m p) = found
  cases found with
  | none => exact put_finished m (.refl _) rfl rfl rfl
  | some start => exact put_finished m ⟨rfl,rfl,rfl,rfl,rfl,rfl,fun _ => .refl _⟩ rfl rfl rfl

theorem sync_finished (m : Mem) (p : Place) (client ap : Fin 2) (offset : Nat) :
    Finished p m (m.modify p (setSync client ap offset)) :=
  put_finished m ⟨rfl,rfl,rfl,rfl,rfl,rfl,fun _ => .refl _⟩ rfl rfl rfl

theorem Arranged.finished (arranged : Arranged extra fits i (m p)) (finished : Finished p m m') :
    Arranged extra fits i (m' p) := arranged.of_eq finished.pattern finished.bt

structure Sets (p : Place) (before after : MccInfo) : Prop extends Same before after where
  slots : after.enInfo.pattern.slotOrder = before.enInfo.pattern.slotOrder
  courtesy : after.enInfo.pattern.courtesy = before.enInfo.pattern.courtesy
  addBt : after.btInfo.addBtRole = before.btInfo.addBtRole
  roleRef : after.enInfo.pattern.roleRef = some ⟨p,before.enInfo.refRoleIdx⟩
  roleAno : after.enInfo.pattern.roleAno = some ⟨p,other before.enInfo.refRoleIdx⟩

theorem Sets.tunes (sets : Sets p i j) (tunes : Tunes j k) : Sets p i k where
  toSame := sets.toSame.trans tunes.toSame
  slots := tunes.slots.trans sets.slots
  courtesy := tunes.courtesy.trans sets.courtesy
  addBt := tunes.addBt.trans sets.addBt
  roleRef := tunes.roleRef.trans sets.roleRef
  roleAno := tunes.roleAno.trans sets.roleAno

theorem Sets.named (sets : Sets p i j) : NamedAt p j := ⟨_,_,sets.roleRef,sets.roleAno⟩

theorem Sets.old (sets : Sets p (m p) i) (old : Old p m) : Old p (m.modify p (fun _ => i)) := by
  intro apart on
  rw [modify_at,sets.limitedRef,sets.limitedAno] at apart
  rw [modify_at] at on ⊢
  rw [sets.courtesy] at on ⊢
  obtain ⟨written,elsewhere⟩ := old apart on
  exact ⟨written.away (fun _ apart => modify_away m _ apart) elsewhere,elsewhere⟩

theorem two_clients_sets (durs : twoClientsDurs env p i = some (worsecase,j)) : Sets p i j := by
  obtain ⟨offset,_,made⟩ := Option.map_eq_some_iff.mp durs
  cases made
  refine Sets.tunes ?_ (Tunes.setDurs _ _)
  exact ⟨⟨rfl,rfl,rfl,rfl,rfl,rfl,fun _ => .refl _⟩,rfl,rfl,rfl,rfl,rfl⟩

theorem set_ap_intvl_sets (p : Place) (ap : Fin 2) (i : MccInfo) : Sets p i (setApIntvl p ap i) :=
  ⟨⟨rfl,rfl,rfl,rfl,rfl,rfl,fun _ => .refl _⟩,rfl,rfl,rfl,rfl,rfl⟩

theorem ap_client_sets (durs : apClientDurs env p i = some (ap,client,j)) : Sets p i j := by
  unfold apClientDurs at durs
  split at durs
  · cases Option.some.inj durs
    exact (set_ap_intvl_sets p ap i).tunes (.setTwo _ _ _ _ _)
  · cases durs

theorem two_clients_made (m : Mem) (seg : (m p).btInfo.btSegNum = 1) (old : Old p m)
    (durs : twoClientsDurs env p (m p) = some (worsecase,i)) :
    let m' := (mccFillInfoFor2ClientsMode env p m).2
    let decided := mccDiscisionDurationFor2roleBt env i
    Local p m m' ∧ Arranged decided.1 (BtFits decided.2) i (m' p) ∧
      (limited (m p).ref ≠ limited (m p).ano → (m' p).enInfo.pattern.courtesy.cEn →
        Written m' (m' p).enInfo.pattern.courtesy) := by
  have sets := two_clients_sets durs
  have done := two_clients_slots_done env (m.modify p (fun _ => i)) worsecase
    (by rw [modify_at]; exact sets.segNum.trans seg) (sets.old old) (by rw [modify_at]; exact sets.named)
  have finished := start_finished env p (twoClientsSlots env worsecase p (m.modify p (fun _ => i)))
  unfold mccFillInfoFor2ClientsMode
  rw [durs]
  have arranged := done.arranged.finished finished
  have written := done.written
  rw [modify_at] at arranged written
  refine ⟨((put_local m sets.toSame).trans done.toLocal).trans finished.toLocal,arranged,fun apart on => ?_⟩
  dsimp only at on ⊢
  rw [finished.pattern] at on ⊢
  rw [sets.limitedRef,sets.limitedAno] at written
  exact finished.written (written apart on)

theorem at_offset_tunes (i : MccInfo) : Tunes i (atApClientOffset i) := (Tunes.refl i).rest _ _ _ apClientOffset _

theorem ap_client_pattern (before pattern : Pattern) (ref ano : RoleRef) (refDur anoDur mccIntvl : Nat)
    (appends : Appends before pattern []) :
    Appends before (apClientPattern ref ano refDur anoDur mccIntvl pattern) [SlotKind.wifi (some ref),.wifi (some ano)] := by
  unfold apClientPattern
  dsimp only
  have start : ∀ tobR toaR tobA toaA bcnsOffset,Appends before {setTimes pattern tobR toaR tobA toaA with bcnsOffset} [] :=
    fun _ _ _ _ _ => {appends with}
  exact ((start _ _ _ _ _).fill false refDur (some ref)).fill false anoDur (some ano)

theorem ap_client_default (i : MccInfo) (ref : i.enInfo.pattern.roleRef = some ⟨p,i.enInfo.refRoleIdx⟩)
    (ano : i.enInfo.pattern.roleAno = some ⟨p,other i.enInfo.refRoleIdx⟩) :
    TwoSlots i.enInfo.pattern (mccSetApClientDefaultPattern p i).enInfo.pattern := by
  unfold TwoSlots refSlot anoSlot
  rw [ref,ano]
  exact ap_client_pattern _ _ _ _ _ _ _ (.refl _)

theorem ap_client_default_same (p : Place) (i : MccInfo) : Same i (mccSetApClientDefaultPattern p i) := .onPattern _ _

theorem ap_client_slots_arranged (env : Env) (m : Mem) (seg : (m p).btInfo.btSegNum = 1)
    (ref : (m p).enInfo.pattern.roleRef = some ⟨p,(m p).enInfo.refRoleIdx⟩)
    (ano : (m p).enInfo.pattern.roleAno = some ⟨p,other (m p).enInfo.refRoleIdx⟩) :
    let decided := mccDiscisionDurationFor2roleBt env (m p)
    Local p m (apClientSlots env p m) ∧
      Arranged decided.1 (BtFits (atApClientOffset decided.2)) (m p) (apClientSlots env p m p) := by
  have tunes := discision_tunes env (m p)
  unfold apClientSlots
  generalize mccDiscisionDurationFor2roleBt env (m p) = decided at tunes ⊢
  obtain ⟨extra,i⟩ := decided
  dsimp only at tunes ⊢
  cases extra with
  | true =>
    rw [if_pos rfl]
    exact bt_arranged_from m (tunes.trans (at_offset_tunes i)) seg
  | false =>
    rw [if_neg Bool.false_ne_true,modify_at]
    have two := ap_client_default (p := p) i (by rw [tunes.roleRef,tunes.refIdx]; exact ref)
      (by rw [tunes.roleAno,tunes.refIdx]; exact ano)
    exact ⟨put_local m (tunes.toSame.trans (ap_client_default_same p i)),fun _ => ⟨two.of_tunes tunes,tunes.addBt⟩,nofun,nofun,nofun⟩

theorem ap_client_made (m : Mem) (seg : (m p).btInfo.btSegNum = 1)
    (durs : apClientDurs env p (m p) = some (ap,client,i)) :
    let m' := (mccFillInfoForApClientMode env p m).2
    let decided := mccDiscisionDurationFor2roleBt env i
    Local p m m' ∧ Arranged decided.1 (BtFits (atApClientOffset decided.2)) i (m' p) := by
  have sets := ap_client_sets durs
  have slots := ap_client_slots_arranged env (m.modify p (fun _ => i))
    (by rw [modify_at]; exact sets.segNum.trans seg)
    (by rw [modify_at,sets.refIdx]; exact sets.roleRef) (by rw [modify_at,sets.refIdx]; exact sets.roleAno)
  rw [modify_at] at slots
  obtain ⟨here,arranged⟩ := slots
  have whole := (put_local m sets.toSame).trans here
  unfold mccFillInfoForApClientMode
  rw [durs]
  dsimp only
  split
  · exact ⟨whole,arranged⟩
  · rename_i offset _
    have finished := (sync_finished (apClientSlots env p (m.modify p (fun _ => i))) p client ap offset).trans
      (start_finished env p _)
    exact ⟨whole.trans finished.toLocal,arranged.finished finished⟩

structure ApSlots (p : Place) (before after : MccInfo) : Prop extends Same before after where
  appends : after.enInfo.pattern.kinds =
    (before.enInfo.pattern.kinds ++ [SlotKind.wifi (some ⟨p,before.enInfo.refRoleIdx⟩),.bt]).take slotNum
  roleRef : after.enInfo.pattern.roleRef = some ⟨p,before.enInfo.refRoleIdx⟩
  roleAno : after.enInfo.pattern.roleAno = before.enInfo.pattern.roleAno
  courtesy : after.enInfo.pattern.courtesy = before.enInfo.pattern.courtesy
  addBt : after.btInfo.addBtRole

theorem ap_bt_pattern (pattern : Pattern) (ref : RoleRef) (refDur btDur : Nat) :
    (apBtPattern ref refDur btDur pattern).kinds = (pattern.kinds ++ [SlotKind.wifi (some ref),.bt]).take slotNum ∧
      (apBtPattern ref refDur btDur pattern).roleRef = some ref ∧
      (apBtPattern ref refDur btDur pattern).roleAno = pattern.roleAno ∧
      (apBtPattern ref refDur btDur pattern).courtesy = pattern.courtesy := by
  unfold apBtPattern
  dsimp only
  refine ⟨?_,?_,?_,?_⟩
  · rw [fill_kinds,fill_kinds,take_grown,List.append_assoc]; rfl
  · rw [(fill_heads ..).1,(fill_heads ..).1]
  · rw [(fill_heads ..).2.1,(fill_heads ..).2.1]
  · rw [(fill_heads ..).2.2,(fill_heads ..).2.2]

theorem ap_bt_set_same (i : MccInfo) : Same i (apBtSet i) := ⟨rfl,rfl,rfl,rfl,rfl,rfl,fun _ => .refl _⟩

theorem ap_bt_dur_same (i : MccInfo) : Same i (apBtDur i) :=
  (ap_bt_set_same i).trans (Tunes.setDur (apBtSet i) (apBtSet i).enInfo.refRoleIdx _).toSame

theorem ap_bt_slots (p : Place) (i : MccInfo) : ApSlots p i (apBtSlots p i) := by
  obtain ⟨kinds,roleRef,roleAno,courtesy⟩ := ap_bt_pattern i.enInfo.pattern ⟨p,i.enInfo.refRoleIdx⟩
    ((apBtDur i).dur i.enInfo.refRoleIdx) i.btInfo.btDur
  have same : Same (apBtDur i) (apBtSlots p i) := .onPattern _ _
  exact ⟨(ap_bt_dur_same i).trans same,kinds,roleRef,roleAno,courtesy,rfl⟩

theorem ap_bt_made (env : Env) (p : Place) (m : Mem) :
    Local p m (mccFillInfoForApBtMode env p m).2 ∧ ApSlots p (m p) ((mccFillInfoForApBtMode env p m).2 p) := by
  have slots := ap_bt_slots p (m p)
  have finished := start_finished env p (m.modify p (apBtSlots p))
  have pattern := finished.pattern
  have bt := finished.bt
  have same := finished.same
  rw [modify_at] at pattern bt same
  refine ⟨(Local.modify m _ slots.toSame).trans finished.toLocal,slots.toSame.trans same,?_,?_,?_,?_,?_⟩
  · unfold mccFillInfoForApBtMode; rw [pattern]; exact slots.appends
  · unfold mccFillInfoForApBtMode; rw [pattern]; exact slots.roleRef
  · unfold mccFillInfoForApBtMode; rw [pattern]; exact slots.roleAno
  · unfold mccFillInfoForApBtMode; rw [pattern]; exact slots.courtesy
  · unfold mccFillInfoForApBtMode; rw [bt]; exact slots.addBt

structure Filled (p : Place) (m m' : Mem) : Prop where
  roleRef : ∃ idx,(m' p).enInfo.pattern.roleRef = some ⟨p,idx⟩
  grows : ∃ added,(m' p).enInfo.pattern.kinds = ((m p).enInfo.pattern.kinds ++ added).take slotNum ∧
    2 ≤ added.length ∧ ∀ mrole,SlotKind.wifi mrole ∈ added → ∃ idx,mrole = some ⟨p,idx⟩

theorem Sets.kinds (sets : Sets p i j) : j.enInfo.pattern.kinds = i.enInfo.pattern.kinds := by
  unfold Pattern.kinds
  rw [sets.slots]

def Adds (before after : Pattern) : Prop :=
  ∃ added,Appends before after added ∧ 2 ≤ added.length ∧
    ∀ mrole,SlotKind.wifi mrole ∈ added → mrole = before.roleRef ∨ mrole = before.roleAno

theorem TwoSlots.adds (two : TwoSlots before after) : Adds before after := by
  refine ⟨_,two,Nat.le_refl 2,fun mrole member => ?_⟩
  rcases List.mem_cons.mp member with ref | member
  · injection ref with same; exact .inl same
  · rcases List.mem_cons.mp member with ano | none
    · injection ano with same; exact .inr same
    · cases none

theorem TakesBt.adds (takes : TakesBt before after) : Adds before after := by
  rcases takes with first | second
  · refine ⟨_,first,Nat.le_succ 2,fun mrole member => ?_⟩
    simp only [List.mem_cons,List.not_mem_nil,or_false,refSlot,anoSlot,SlotKind.wifi.injEq,reduceCtorEq] at member
    exact member
  · refine ⟨_,second,Nat.le_succ 2,fun mrole member => ?_⟩
    simp only [List.mem_cons,List.not_mem_nil,or_false,false_or,refSlot,anoSlot,SlotKind.wifi.injEq,reduceCtorEq] at member
    exact member

theorem Arranged.adds (arranged : Arranged extra fits before after) : Adds before.enInfo.pattern after.enInfo.pattern := by
  cases extra with
  | false => exact (arranged.plain rfl).1.adds
  | true =>
    by_cases fit : fits
    · exact (arranged.takes rfl fit).adds
    · exact (arranged.lacks rfl fit).adds

theorem Arranged.filled (sets : Sets p (m p) i) (arranged : Arranged extra fits i (m' p)) : Filled p m m' := by
  obtain ⟨added,appends,long,named⟩ := arranged.adds
  refine ⟨⟨_,appends.roleRef.trans sets.roleRef⟩,added,by rw [appends.kinds,sets.kinds],long,fun mrole member => ?_⟩
  rcases named mrole member with ref | ano
  · exact ⟨_,ref.trans sets.roleRef⟩
  · exact ⟨_,ano.trans sets.roleAno⟩

theorem ApSlots.filled (slots : ApSlots p (m p) (m' p)) : Filled p m m' := by
  refine ⟨⟨_,slots.roleRef⟩,_,slots.appends,Nat.le_refl 2,fun mrole member => ?_⟩
  simp only [List.mem_cons,List.not_mem_nil,or_false] at member
  rcases member with wifi | bt
  · injection wifi with same; exact ⟨_,same⟩
  · cases bt

theorem fill_info_filled (env : Env) (mode : TdmraMode) (p : Place) (m : Mem) (seg : (m p).btInfo.btSegNum = 1)
    (old : mode = .twoClients → Old p m) :
    Local p m (mccFillInfo env mode p m).2 ∧
      ((mccFillInfo env mode p m).1 → Filled p m (mccFillInfo env mode p m).2) := by
  cases mode with
  | apClient =>
    cases durs : apClientDurs env p (m p) with
    | none =>
      have none : mccFillInfo env .apClient p m = (false,m) := by
        unfold mccFillInfo mccFillInfoForApClientMode; dsimp only; rw [durs]
      rw [none]
      exact ⟨.refl p m,nofun⟩
    | some known =>
      obtain ⟨here,arranged⟩ := ap_client_made m seg durs
      exact ⟨here,fun _ => arranged.filled (ap_client_sets durs)⟩
  | twoClients =>
    cases durs : twoClientsDurs env p (m p) with
    | none =>
      have none : mccFillInfo env .twoClients p m =
          (false,m.modify p (fun i => {i with enInfo.mccIntvl:=i.ref.bcnIntvl})) := by
        unfold mccFillInfo mccFillInfoFor2ClientsMode; dsimp only; rw [durs]
      rw [none]
      dsimp only
      exact ⟨.modify m _ ⟨rfl,rfl,rfl,rfl,rfl,rfl,fun _ => .refl _⟩,nofun⟩
    | some known =>
      obtain ⟨here,arranged,_⟩ := two_clients_made m seg (old rfl) durs
      exact ⟨here,fun _ => arranged.filled (two_clients_sets durs)⟩
  | ap =>
    obtain ⟨here,slots⟩ := ap_bt_made env p m
    exact ⟨here,fun _ => slots.filled⟩
  | none => exact ⟨.refl p m,nofun⟩
  | unknown => exact ⟨.refl p m,nofun⟩
end Rtl8852au.Mcc
