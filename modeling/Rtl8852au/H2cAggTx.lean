import Rtl8852au.H2cAgg

namespace Rtl8852au.H2cAgg
open Option

def SubH2c.WellFormed (sub : SubH2c) : Prop :=
  sub.len % 4 = 0 ∧ sub.body = sub.src.data ∧ sub.body.length ≤ sub.len ∧ sub.len < sub.body.length+4

def Frame.WellFormed : Frame → Prop
  | .normal _ => True
  | .agg subs => (∀ sub ∈ subs, sub.WellFormed) ∧ subsLen subs ≤ h2cLongDataLen

structure Meets (queue : List H2cPkt) (ret : MacRet) (s : Agg) : Prop where
  unlocked : s.locked = false ∧ s.unlocks = 1
  emptied : s.queue = [] ∧ s.h2cAggPktNum = 0
  inOrder : s.sent.flatMap Frame.pkts <+: queue
  complete : ret = .success → s.sent.flatMap Frame.pkts = queue
  framed : ∀ frame ∈ s.sent, frame.WellFormed
  recycled : ret ≠ .success →
    ∀ pkt ∈ queue.drop (s.sent.flatMap Frame.pkts).length, s.recycled.count (.pkt pkt.name) = 1

def Out.Meets (queue : List H2cPkt) : Out → Prop
  | .done ret s => H2cAgg.Meets queue ret s
  | _ => False

-- How many answers the packets need: two for one sent alone, four for an aggregate.
-- `opened` is the length of the aggregate that is being filled.
def asks : Option Nat → List H2cPkt → Nat
  | _,[] => 0
  | none,cur :: rest =>
    if alone cur rest then 2 + asks none rest
    else if closes (wdBodyLen + fwcmdHdrLen + subH2cLen cur) rest then 4 + asks none rest
    else 1 + asks (some (wdBodyLen + fwcmdHdrLen + subH2cLen cur)) rest
  | some aggLen,cur :: rest =>
    if closes (aggLen + subH2cLen cur) rest then 3 + asks none rest
    else asks (some (aggLen + subH2cLen cur)) rest

def apart (a b : H2cPkt) : Prop := ¬ (h2cPktAggregatable a.dataLen ∧ h2cPktAggregatable b.dataLen)
def AllOk (plat : Platform) (asked count : Nat) : Prop := ∀ k < count, plat.answer (asked+k) = .ok

-- Nothing asked for fails, and nothing is recycled through a callback that is missing.
def Smooth (plat : Platform) (asked : Nat) (opened : Option Nat) (queue : List H2cPkt) : Prop :=
  AllOk plat asked (asks opened queue) ∧
    (plat.rtlRecycleH2c = true ∨ opened = none ∧ queue.IsChain apart)

def Turn.Stops (turn : Turn) : Prop :=
  turn = .nullCall ∨ ∃ ret s, turn = .leave ret s ∧ ret ≠ .success ∧ s.locked = true ∧ s.unlocks = 0

variable {plat : Platform} {s : Agg}

theorem AllOk.succ : AllOk plat asked (count+1) ↔ plat.answer asked = .ok ∧ AllOk plat (asked+1) count := by
  constructor
  · intro ok
    refine ⟨ok 0 (Nat.succ_pos count),?_⟩
    intro k below
    have later := ok (k+1) (by omega)
    rwa [← Nat.add_assoc,Nat.add_right_comm] at later
  · intro ok k below
    cases k with
    | zero => exact ok.1
    | succ k =>
      have later := ok.2 k (by omega)
      rwa [Nat.add_right_comm] at later

theorem AllOk.split : AllOk plat asked (m+n) ↔ AllOk plat asked m ∧ AllOk plat (asked+m) n := by
  induction m generalizing asked with
  | zero => simp [AllOk]
  | succ m ih =>
    have shift : asked + 1 + m = asked + (m+1) := by omega
    rw [Nat.add_right_comm,succ,succ,ih,shift,and_assoc]

theorem query_ok (ok : plat.answer s.asked = .ok) : s.query plat ret onOk = onOk s.ask := by
  unfold Agg.query
  rw [ok]

theorem query_stops (bad : plat.answer s.asked ≠ .ok) (failure : ret ≠ .success)
    (locked : s.locked) (fresh : s.unlocks = 0) : (s.query plat ret onOk).Stops := by
  unfold Agg.query
  cases answer : plat.answer s.asked with
  | ok => exact absurd answer bad
  | fail | failRecycled => exact .inr ⟨ret,s.ask,rfl,failure,locked,fresh⟩

theorem pltfmTx_ok (ok : plat.answer s.asked = .ok) :
    pltfmTx plat s frame buf onOk = onOk {s.ask with sent:=s.sent ++ [frame]} := by
  unfold pltfmTx
  rw [ok]

theorem pltfmTx_stops (bad : plat.answer s.asked ≠ .ok)
    (locked : s.locked) (fresh : s.unlocks = 0) : (pltfmTx plat s frame buf onOk).Stops := by
  unfold pltfmTx
  cases answer : plat.answer s.asked with
  | ok => exact absurd answer bad
  | fail => exact .inr ⟨.other,_,rfl,by decide,locked,fresh⟩
  | failRecycled => exact .inr ⟨.other,_,rfl,by decide,locked,fresh⟩

theorem single_normal_ok (ok : AllOk plat s.asked 2) :
    macH2cAggTxSingleNormalH2c plat s pkt onOk = onOk {s with asked:=s.asked+2, sent:=s.sent ++ [.normal pkt]} := by
  obtain ⟨txd,rest⟩ := AllOk.succ.mp ok
  obtain ⟨tx,_⟩ := AllOk.succ.mp rest
  unfold macH2cAggTxSingleNormalH2c
  rw [query_ok txd]
  exact pltfmTx_ok tx

theorem single_normal_stops (bad : ¬ AllOk plat s.asked 2)
    (locked : s.locked) (fresh : s.unlocks = 0) : (macH2cAggTxSingleNormalH2c plat s pkt onOk).Stops := by
  unfold macH2cAggTxSingleNormalH2c
  by_cases txd : plat.answer s.asked = .ok
  · rw [query_ok txd]
    apply pltfmTx_stops
    · intro tx
      exact bad (AllOk.succ.mpr ⟨txd,AllOk.succ.mpr ⟨tx,fun k none_left => absurd none_left (Nat.not_lt_zero k)⟩⟩)
    · exact locked
    · exact fresh
  · exact query_stops txd (by decide) locked fresh

theorem single_agg_ok (ok : AllOk plat s.asked 3) :
    macH2cAggTxSingleAggH2c plat s subs onOk = onOk {s with asked:=s.asked+3, sent:=s.sent ++ [.agg subs]} := by
  obtain ⟨hdr,rest⟩ := AllOk.succ.mp ok
  obtain ⟨txd,rest⟩ := AllOk.succ.mp rest
  obtain ⟨tx,_⟩ := AllOk.succ.mp rest
  unfold macH2cAggTxSingleAggH2c
  rw [query_ok hdr,query_ok txd]
  exact pltfmTx_ok tx

theorem single_agg_stops (bad : ¬ AllOk plat s.asked 3)
    (locked : s.locked) (fresh : s.unlocks = 0) : (macH2cAggTxSingleAggH2c plat s subs onOk).Stops := by
  unfold macH2cAggTxSingleAggH2c
  by_cases hdr : plat.answer s.asked = .ok
  · rw [query_ok hdr]
    by_cases txd : plat.answer (s.asked+1) = .ok
    · rw [query_ok txd]
      apply pltfmTx_stops
      · intro tx
        have last : AllOk plat (s.asked+2) 1 := AllOk.succ.mpr ⟨tx,fun k none_left => absurd none_left (Nat.not_lt_zero k)⟩
        exact bad (AllOk.succ.mpr ⟨hdr,AllOk.succ.mpr ⟨txd,last⟩⟩)
      · exact locked
      · exact fresh
    · exact query_stops txd (by decide) locked fresh
  · exact query_stops hdr (by decide) locked fresh

theorem align4Byte_exact (small : len + 3 < 2 ^ 32) :
    align4Byte len % 4 = 0 ∧ len ≤ align4Byte len ∧ align4Byte len < len + 4 := by
  unfold align4Byte
  rw [Nat.mod_eq_of_lt small]
  omega

theorem wellFormed_sub (cur : H2cPkt) : SubH2c.WellFormed ⟨align4Byte cur.dataLen,cur.data,cur⟩ := by
  have few : cur.dataLen ≤ 8 + 2048 := cur.admitted
  have small : cur.dataLen + 3 < 2 ^ 32 := by omega
  obtain ⟨whole,covers,near⟩ := align4Byte_exact small
  exact ⟨whole,rfl,covers,near⟩

theorem subsLen_append (subs : List SubH2c) (sub : SubH2c) :
    subsLen (subs ++ [sub]) = subsLen subs + (sub.len+h2cAggSubHdrLen) := by
  simp [subsLen]

structure Filling (all : List H2cPkt) (s : Agg) : Prop where
  locked : s.locked = true
  fresh : s.unlocks = 0
  framed : ∀ frame ∈ s.sent, frame.WellFormed
  whole : s.sent.flatMap Frame.pkts ++ (s.aggH2cb.getD []).map SubH2c.src ++ s.queue = all
  sized : ∀ subs, s.aggH2cb = some subs → s.aggLen = wdBodyLen + fwcmdHdrLen + subsLen subs
  formed : ∀ subs, s.aggH2cb = some subs → ∀ sub ∈ subs, sub.WellFormed
  -- An aggregate stays open only for a packet that still fits.
  roomy : ∀ subs, s.aggH2cb = some subs → ∃ cur rest, s.queue = cur :: rest ∧ s.aggLen + subH2cLen cur < h2cLongDataLen

def Agg.opened (s : Agg) : Option Nat := s.aggH2cb.map (fun _ => s.aggLen)

theorem chain_cons : (cur :: rest).IsChain apart ↔ alone cur rest ∧ rest.IsChain apart := by
  cases rest with
  | nil => simp [alone]
  | cons next rest =>
    rw [List.isChain_cons_cons]
    simp [alone,apart,nextLen,imp_iff_not_or]

theorem put_ok (set : plat.rtlRecycleH2c)
    (locked : s.locked) (fresh : s.unlocks = 0) (framed : ∀ frame ∈ s.sent, frame.WellFormed)
    (whole : s.sent.flatMap Frame.pkts ++ subs.map SubH2c.src ++ cur :: rest = all)
    (sized : s.aggLen = wdBodyLen + fwcmdHdrLen + subsLen subs) (formed : ∀ sub ∈ subs, sub.WellFormed)
    (roomy : s.aggLen + subH2cLen cur < h2cLongDataLen) (ok : closes (s.aggLen + subH2cLen cur) rest → AllOk plat s.asked 3) :
    ∃ next, putSubH2c plat s subs cur rest = .next next ∧ Filling all next ∧ next.queue = rest ∧
      next.opened = (if closes (s.aggLen + subH2cLen cur) rest then none else some (s.aggLen + subH2cLen cur)) ∧
      next.asked = s.asked + (if closes (s.aggLen + subH2cLen cur) rest then 3 else 0) := by
  have longer : subsLen (subs ++ [⟨align4Byte cur.dataLen,cur.data,cur⟩]) = subsLen subs + subH2cLen cur := subsLen_append _ _
  have good : ∀ sub ∈ subs ++ [⟨align4Byte cur.dataLen,cur.data,cur⟩], sub.WellFormed := by
    intro sub member
    rcases List.mem_append.mp member with old | new
    · exact formed sub old
    · rw [List.mem_singleton.mp new]
      exact wellFormed_sub cur
  have fits : subsLen subs + subH2cLen cur ≤ h2cLongDataLen := by omega
  unfold putSubH2c
  dsimp only
  rw [if_neg (Nat.not_lt.mpr fits),if_neg (not_not.mpr set)]
  by_cases close : closes (s.aggLen + subH2cLen cur) rest
  · rw [if_pos close,if_pos close,if_pos close,single_agg_ok (by exact ok close)]
    refine ⟨_,rfl,⟨locked,fresh,?_,?_,?_,?_,?_⟩,rfl,rfl,rfl⟩
    · intro frame member
      rcases List.mem_append.mp member with old | new
      · exact framed frame old
      · rw [List.mem_singleton.mp new]
        exact ⟨good,by omega⟩
    · rw [← whole]
      simp [Frame.pkts]
    · intro _ none_open
      exact absurd none_open (not_mem_none _)
    · intro _ none_open
      exact absurd none_open (not_mem_none _)
    · intro _ none_open
      exact absurd none_open (not_mem_none _)
  · rw [if_neg close,if_neg close,if_neg close]
    refine ⟨_,rfl,⟨locked,fresh,framed,?_,?_,?_,?_⟩,rfl,rfl,rfl⟩
    · rw [← whole]
      simp
    · intro opened is
      cases some.inj is
      dsimp only
      omega
    · intro opened is
      cases some.inj is
      exact good
    · intro opened is
      cases rest with
      | nil => exact absurd (.inl rfl) close
      | cons next rest =>
        refine ⟨next,rest,rfl,?_⟩
        have open_still : ¬ s.aggLen + subH2cLen cur + align4Byte next.dataLen + h2cAggSubHdrLen ≥ h2cLongDataLen :=
          fun full => close (.inr full)
        have next_len : subH2cLen next = align4Byte next.dataLen + h2cAggSubHdrLen := rfl
        dsimp only
        omega

theorem put_stops (locked : s.locked) (fresh : s.unlocks = 0)
    (bad : plat.rtlRecycleH2c = false ∨ closes (s.aggLen + subH2cLen cur) rest ∧ ¬ AllOk plat s.asked 3) :
    (putSubH2c plat s subs cur rest).Stops := by
  unfold putSubH2c
  dsimp only
  split
  · exact .inr ⟨.noItem,s,rfl,by decide,locked,fresh⟩
  · split
    · exact .inl rfl
    · rename_i set
      rcases bad with unset | ⟨close,bad⟩
      · exact absurd (by simp [unset]) set
      · rw [if_pos close]
        exact single_agg_stops bad locked fresh

theorem Smooth.alone (single : alone cur rest) :
    Smooth plat asked none (cur :: rest) ↔ AllOk plat asked 2 ∧ Smooth plat (asked+2) none rest := by
  unfold Smooth
  rw [asks,if_pos single,AllOk.split,chain_cons]
  simp [single,and_assoc]

theorem Smooth.put : Smooth plat asked (some aggLen) (cur :: rest) ↔
      plat.rtlRecycleH2c ∧ (closes (aggLen + subH2cLen cur) rest → AllOk plat asked 3) ∧
      Smooth plat (asked + if closes (aggLen + subH2cLen cur) rest then 3 else 0)
        (if closes (aggLen + subH2cLen cur) rest then none else some (aggLen + subH2cLen cur)) rest := by
  unfold Smooth
  rw [asks]
  by_cases close : closes (aggLen + subH2cLen cur) rest
  · rw [if_pos close,if_pos close,if_pos close,AllOk.split]
    simp only [close,reduceCtorEq,false_and,or_false,true_and,true_implies]
    constructor
    · intro ⟨⟨now,later⟩,set⟩
      exact ⟨set,now,later,.inl set⟩
    · intro ⟨set,now,later,_⟩
      exact ⟨⟨now,later⟩,set⟩
  · rw [if_neg close,if_neg close,if_neg close]
    simp only [close,reduceCtorEq,false_and,or_false,false_implies,true_and,Nat.add_zero]
    constructor
    · intro ⟨later,set⟩
      exact ⟨set,later,set⟩
    · intro ⟨set,later,_⟩
      exact ⟨later,set⟩

theorem Smooth.start (joined : ¬ H2cAgg.alone cur rest) : Smooth plat asked none (cur :: rest) ↔
      plat.answer asked = .ok ∧ Smooth plat (asked+1) (some (wdBodyLen+fwcmdHdrLen)) (cur :: rest) := by
  unfold Smooth
  rw [asks,if_neg joined,asks,chain_cons]
  simp only [joined,false_and,and_false,or_false,reduceCtorEq]
  rw [← and_assoc,← AllOk.succ]
  split
  · rw [Nat.add_right_comm 3]
  · rw [Nat.add_comm 1]

-- One round: it goes on exactly where nothing it asks for fails and nothing is
-- recycled through a missing callback.
def Exact (plat : Platform) (all rest : List H2cPkt) (smooth : Prop) (turn : Turn) : Prop :=
  (∃ next, turn = .next next ∧ Filling all next ∧ next.queue = rest ∧ (smooth ↔ Smooth plat next.asked next.opened rest)) ∨
    turn.Stops ∧ ¬ smooth

theorem put_exact (locked : s.locked) (fresh : s.unlocks = 0) (framed : ∀ frame ∈ s.sent, frame.WellFormed)
    (whole : s.sent.flatMap Frame.pkts ++ subs.map SubH2c.src ++ cur :: rest = all)
    (sized : s.aggLen = wdBodyLen + fwcmdHdrLen + subsLen subs) (formed : ∀ sub ∈ subs, sub.WellFormed)
    (roomy : s.aggLen + subH2cLen cur < h2cLongDataLen) :
    Exact plat all rest (Smooth plat s.asked (some s.aggLen) (cur :: rest)) (putSubH2c plat s subs cur rest) := by
  cases set : plat.rtlRecycleH2c with
  | false =>
    refine .inr ⟨put_stops locked fresh (.inl set),?_⟩
    intro smooth
    exact absurd (set.symm.trans (Smooth.put.mp smooth).1) (by decide)
  | true =>
    by_cases ok : closes (s.aggLen + subH2cLen cur) rest → AllOk plat s.asked 3
    · obtain ⟨next,turn,filling,here,opened,asked⟩ := put_ok set locked fresh framed whole sized formed roomy ok
      refine .inl ⟨next,turn,filling,here,?_⟩
      rw [Smooth.put,opened,asked]
      simp only [set,true_and]
      exact ⟨fun smooth => smooth.2,fun smooth => ⟨ok,smooth⟩⟩
    · have bad := Classical.not_imp.mp ok
      exact .inr ⟨put_stops locked fresh (.inr bad),fun smooth => ok (Smooth.put.mp smooth).2.1⟩

theorem aggNode_exact (filling : Filling all s) (here : s.queue = cur :: rest) :
    Exact plat all rest (Smooth plat s.asked s.opened (cur :: rest)) (aggNode plat s cur rest) := by
  obtain ⟨locked,fresh,framed,whole,sized,formed,roomy⟩ := filling
  unfold aggNode Agg.opened
  cases state : s.aggH2cb with
  | none =>
    rw [state,here] at whole
    simp only [map_none]
    by_cases single : alone cur rest
    · rw [if_pos single,Smooth.alone single]
      by_cases ok : AllOk plat s.asked 2
      · rw [single_normal_ok ok]
        refine .inl ⟨_,rfl,⟨locked,fresh,?_,?_,?_,?_,?_⟩,rfl,?_⟩
        · intro frame member
          rcases List.mem_append.mp member with old | new
          · exact framed frame old
          · rw [List.mem_singleton.mp new]
            trivial
        · rw [← whole]
          simp [Frame.pkts,state]
        · intro subs is
          exact absurd (state.symm.trans is) (by simp)
        · intro subs is
          exact absurd (state.symm.trans is) (by simp)
        · intro subs is
          exact absurd (state.symm.trans is) (by simp)
        · simp [Agg.opened,state,ok]
      · exact .inr ⟨single_normal_stops ok locked fresh,fun smooth => ok smooth.1⟩
    · have fits : wdBodyLen + fwcmdHdrLen + subH2cLen cur < h2cLongDataLen := by
        have small : h2cPktAggregatable cur.dataLen := by_contra fun large => single (.inl large)
        unfold h2cPktAggregatable at small
        unfold subH2cLen
        omega
      rw [if_neg single,Smooth.start single]
      by_cases alloc : plat.answer s.asked = .ok
      · rw [query_ok alloc]
        have opened : Exact plat all rest (Smooth plat (s.asked+1) (some (wdBodyLen+fwcmdHdrLen)) (cur :: rest))
            (putSubH2c plat {s.ask with aggH2cb:=some [], aggLen:=wdBodyLen + fwcmdHdrLen} [] cur rest) :=
          put_exact locked fresh framed whole rfl (fun sub none_in => absurd none_in List.not_mem_nil) fits
        simpa only [alloc,true_and] using opened
      · exact .inr ⟨query_stops alloc (by decide) locked fresh,fun smooth => alloc smooth.1⟩
  | some subs =>
    rw [state,here] at whole
    obtain ⟨next,later,same,room⟩ := roomy subs state
    obtain ⟨rfl,rfl⟩ := List.cons.inj (here.symm.trans same)
    exact put_exact locked fresh framed whole (sized subs state) (formed subs state) room

variable (plat) in
theorem aggLoop_exact (queue : List H2cPkt) (s : Agg) (filling : Filling all s) (here : s.queue = queue) :
    (∃ last, aggLoop plat s queue = .leave .success last ∧ Filling all last ∧ last.queue = [] ∧ last.aggH2cb = none ∧
      Smooth plat s.asked s.opened queue) ∨ (aggLoop plat s queue).Stops ∧ ¬ Smooth plat s.asked s.opened queue := by
  induction queue generalizing s with
  | nil =>
    have none_open : s.aggH2cb = none := by
      cases state : s.aggH2cb with
      | none => rfl
      | some subs =>
        obtain ⟨cur,rest,more,_⟩ := filling.roomy subs state
        exact absurd (here.symm.trans more) (by simp)
    refine .inl ⟨s,rfl,filling,here,none_open,?_,.inr ⟨?_,.nil⟩⟩
    · intro k below
      unfold asks at below
      exact absurd below (Nat.not_lt_zero k)
    · unfold Agg.opened
      rw [none_open]
      rfl
  | cons cur rest ih =>
    unfold aggLoop
    rcases aggNode_exact filling here with ⟨next,turn,filling,there,same⟩ | ⟨stops,bad⟩
    · rw [turn,same]
      exact ih next filling there
    · refine .inr ⟨?_,bad⟩
      rcases stops with crash | ⟨ret,s,leaves,facts⟩
      · rw [crash]
        exact .inl rfl
      · rw [leaves]
        exact .inr ⟨ret,s,rfl,facts⟩

-- The flush asks for the lock that is held: without a signal it waits for itself, and
-- with one the lock is let go twice.
variable (plat s) in
theorem macH2cAggFlush_cases :
    macH2cAggFlush plat s = .deadlock ∨ macH2cAggFlush plat s = .nullCall ∨
    ∃ flushed, macH2cAggFlush plat s = .done .success flushed ∧ flushed.unlocks = s.unlocks + 1 := by
  unfold macH2cAggFlush
  split
  · exact .inl rfl
  · split
    · exact .inr (.inl rfl)
    · exact .inr (.inr ⟨_,rfl,rfl⟩)

theorem leaveTx_fails (failure : ret ≠ .success) (fresh : s.unlocks = 0) : ¬ (leaveTx plat ret s).Meets all := by
  intro meets
  unfold leaveTx at meets
  rw [if_neg failure] at meets
  rcases macH2cAggFlush_cases plat s with stuck | crash | ⟨flushed,done,once⟩
  · rw [stuck] at meets
    exact meets
  · rw [crash] at meets
    exact meets
  · rw [done] at meets
    have twice : flushed.unlocks + 1 ≠ 1 := by omega
    dsimp only at meets
    split at meets
    · split at meets
      · exact twice meets.unlocked.2
      · exact meets
    · exact twice meets.unlocked.2

def accepted (on : Bool) : List Call → List H2cPkt
  | [] => []
  | .enable now :: rest => accepted now rest
  | .enqueue pkt malloc :: rest => if on ∧ malloc then pkt :: accepted on rest else accepted on rest

theorem calls_queue (calls : List Call) (s : Agg) :
    (calls.foldl Agg.call s).queue = s.queue ++ accepted s.h2cAggEn calls ∧
    (calls.foldl Agg.call s).asked = s.asked ∧ (calls.foldl Agg.call s).sent = s.sent ∧
    (calls.foldl Agg.call s).unlocks = s.unlocks := by
  induction calls generalizing s with
  | nil => simp [accepted]
  | cons call rest ih =>
    obtain ⟨queue,others⟩ := ih (s.call call)
    rw [List.foldl_cons,queue]
    cases call with
    | enable on => exact ⟨rfl,others⟩
    | enqueue pkt malloc =>
      unfold Agg.call h2cAggEnqueue at others ⊢
      cases enabled : s.h2cAggEn <;> cases malloc <;> simp [accepted,enabled] at others ⊢ <;> exact others

variable (plat) in
theorem macH2cAggTx_exact (sent : s.sent = []) (unlocks : s.unlocks = 0) :
    (macH2cAggTx plat s).Meets s.queue ↔ Smooth plat s.asked none s.queue := by
  unfold macH2cAggTx
  have start : Filling s.queue {s with locked:=true, aggH2cb:=none, aggLen:=0} := by
    refine ⟨rfl,unlocks,?_,?_,?_,?_,?_⟩
    · intro frame member
      dsimp only at member
      rw [sent] at member
      exact absurd member List.not_mem_nil
    · dsimp only
      rw [sent]
      rfl
    · intro subs is
      cases is
    · intro subs is
      cases is
    · intro subs is
      cases is
  rcases aggLoop_exact plat s.queue _ start rfl with ⟨last,success,filling,empty,closed,smooth⟩ | ⟨stops,bad⟩
  · dsimp only
    rw [success]
    refine ⟨fun _ => smooth,fun _ => ?_⟩
    have whole := filling.whole
    rw [closed,empty] at whole
    simp only [getD_none,List.map_nil,List.append_nil] at whole
    have once : last.unlocks + 1 = 1 := by
      have fresh := filling.fresh
      omega
    exact ⟨⟨rfl,once⟩,⟨rfl,rfl⟩,whole ▸ List.prefix_rfl,fun _ => whole,filling.framed,fun failure => absurd rfl failure⟩
  · refine ⟨fun meets => ?_,fun smooth => absurd smooth bad⟩
    dsimp only at meets
    rcases stops with crash | ⟨ret,last,leaves,failure,_,fresh⟩
    · rw [crash] at meets
      exact absurd meets id
    · rw [leaves] at meets
      exact absurd meets (leaveTx_fails failure fresh)

theorem h2c_agg_exactly_once (plat : Platform) (calls : List Call) :
    (calls.foldl Agg.call .init).queue = accepted false calls ∧
    ((macH2cAggTx plat (calls.foldl Agg.call .init)).Meets (accepted false calls) ↔
      Smooth plat 0 none (accepted false calls)) := by
  obtain ⟨queue,asked,sent,unlocks⟩ := calls_queue calls .init
  refine ⟨queue,?_⟩
  have exactly := macH2cAggTx_exact plat sent unlocks
  rw [queue,asked] at exactly
  exact exactly

def emptyH2c (name : Nat) : H2cPkt := ⟨name,[],Nat.zero_le _⟩

-- One packet and a bus that refuses it: the flush waits for the lock of its caller.
-- Two small packets and a bus that takes everything: the first copy is recycled through
-- a callback that the driver never sets.
theorem h2c_agg_stuck :
    ¬ (macH2cAggTx (rtwPltCbInit (fun asked => if asked = 1 then .failRecycled else .ok) false)
      ([.enable true,.enqueue (emptyH2c 1) true].foldl Agg.call .init)).Meets [emptyH2c 1] ∧
    ¬ (macH2cAggTx (rtwPltCbInit (fun _ => .ok) false)
      ([.enable true,.enqueue (emptyH2c 1) true,.enqueue (emptyH2c 2) true].foldl Agg.call .init)).Meets
        [emptyH2c 1,emptyH2c 2] := by
  refine ⟨?_,?_⟩
  · intro meets
    exact meets
  · intro meets
    exact meets
end Rtl8852au.H2cAgg
