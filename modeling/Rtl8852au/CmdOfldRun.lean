import Rtl8852au.CmdOfldBatch

namespace Rtl8852au.CmdOfld
open List Prod

-- What is assumed of the driver's side: memory, packets and the bus never fail it.
structure Platform.Met (plat : Platform) : Prop where
  malloc : ∀ n, plat.malloc n
  alloc : ∀ n, plat.alloc n
  tx : ∀ n, plat.tx n

structure Ofld.Inv (o : Ofld) (wait : List RtwMacCmd) : Prop where
  order : ∃ gone, o.taken = gone ++ wait ∧ o.sent.flatten.map FwcmdCmdOfld.what = gone.map RtwMacCmd.what
  batches : ∀ b ∈ o.sent, Batch b
  unflagged : ∀ cmd ∈ wait, cmd.lc = 0
  buffer : o.info.buf = none ∧ wait = [] ∨ ∃ mem, Loaded o.info mem wait false ∧ 0 < wait.length
  inside : o.reach ≤ cmdOfldMaxLen

variable {plat : Platform} {o : Ofld} {wait : List RtwMacCmd}

theorem Ofld.Inv.init : Ofld.init.Inv [] :=
  ⟨⟨[],rfl,rfl⟩,fun _ none_sent => absurd none_sent not_mem_nil,fun _ none_in => absurd none_in not_mem_nil,.inl ⟨rfl,rfl⟩,Nat.zero_le _⟩

theorem Ofld.Inv.freed (inv : Ofld.Inv o []) : o.info.buf = none := by
  rcases inv.buffer with ⟨freed,_⟩ | ⟨_,_,none_in⟩
  · exact freed
  · exact absurd none_in (Nat.lt_irrefl 0)

theorem cmdOfld_sends (met : plat.Met) {mem : Nat → FwcmdCmdOfld} (loaded : Loaded o.info mem wait true) (some_in : 0 < wait.length)
    (order : ∃ gone, o.taken = gone ++ wait ∧ o.sent.flatten.map FwcmdCmdOfld.what = gone.map RtwMacCmd.what)
    (batches : ∀ b ∈ o.sent, Batch b) (inside : o.reach ≤ cmdOfldMaxLen) :
    ∃ next, cmdOfld plat o = (next,plat.check o.asked) ∧ next.Inv [] ∧ next.taken = o.taken := by
  have small : ¬ o.info.usedSize > h2cLongDataLen := by
    have few := loaded.few
    rw [loaded.used]
    dsimp only [cmdOfldMaxLen,h2cLongDataLen] at *
    omega
  have sent_order : (o.sent ++ [o.info.payload]).flatten.map FwcmdCmdOfld.what = o.taken.map RtwMacCmd.what := by
    obtain ⟨gone,taken,sent⟩ := order
    rw [flatten_append,map_append,sent,taken]
    simp [loaded.payload_what]
  have sent_batches : ∀ b ∈ o.sent ++ [o.info.payload], Batch b := by
    intro b member
    rcases mem_append.mp member with old | new
    · exact batches b old
    · rw [mem_singleton.mp new]
      exact loaded.batch some_in
  unfold cmdOfld transmit
  simp only [met.alloc,met.tx,small,not_true_eq_false,if_false]
  split
  · rename_i good
    exact ⟨_,Prod.ext rfl good.symm,⟨⟨_,(append_nil _).symm,sent_order⟩,sent_batches,by simp,.inl ⟨rfl,rfl⟩,inside⟩,rfl⟩
  · exact ⟨_,rfl,⟨⟨_,(append_nil _).symm,sent_order⟩,sent_batches,by simp,.inl ⟨rfl,rfl⟩,inside⟩,rfl⟩

section
variable (met : plat.Met) (inv : o.Inv wait)
include met inv

theorem makeRoom_inv :
    ∃ next left, makeRoom plat o = (next,(makeRoom plat o).2) ∧ next.Inv left ∧ next.taken = o.taken ∧
      (next.info.buf = none ∨ cmdOfldSize ≤ next.info.avlBufSize) ∧
      ((∀ n, plat.check n = .success) → (makeRoom plat o).2 = .success) := by
  rcases inv.buffer with ⟨none_there,empty⟩ | ⟨mem,loaded,some_in⟩
  · have stays : makeRoom plat o = (o,.success) := by
      unfold makeRoom Ofld.room
      rw [none_there]
    exact ⟨o,wait,by rw [stays],inv,rfl,.inl none_there,fun _ => by rw [stays]⟩
  · by_cases full : o.info.avlBufSize < cmdOfldSize
    · have last : o.info.lastWptr = some ((wait.length-1) * cmdOfldSize) := by
        rw [loaded.last,if_neg (by omega)]
      have reach : max o.reach ((wait.length-1) * cmdOfldSize + 1) ≤ cmdOfldMaxLen := by
        have few := loaded.few
        have inside := inv.inside
        dsimp only [cmdOfldSize,cmdOfldMaxLen] at *
        omega
      obtain ⟨next,sends,after,taken⟩ := cmdOfld_sends met
        (o := {o with
          info := o.info.close mem ((wait.length-1) * cmdOfldSize)
          reach := max o.reach ((wait.length-1) * cmdOfldSize + 1)})
        (loaded.close some_in) some_in inv.order inv.batches reach
      have goes : makeRoom plat o = (next,plat.check o.asked) := by
        unfold makeRoom Ofld.room
        rw [loaded.alive]
        simp only [full,if_true,last]
        exact sends
      exact ⟨next,[],by rw [goes],after,taken,.inl after.freed,fun good => by rw [goes]; exact good _⟩
    · have stays : makeRoom plat o = (o,.success) := by
        unfold makeRoom Ofld.room
        rw [loaded.alive]
        simp only [full,if_false]
      exact ⟨o,wait,by rw [stays],inv,rfl,.inr (Nat.not_lt.mp full),fun _ => by rw [stays]⟩

theorem addCmd_inv (room : o.info.buf = none ∨ cmdOfldSize ≤ o.info.avlBufSize)
    (cmd : RtwMacCmd) :
    ∃ next mem, addCmd plat o cmd = (next,.success) ∧ Loaded next.info mem (wait ++ [cmd]) (decide (cmd.lc ≠ 0)) ∧
      next.sent = o.sent ∧ next.taken = o.taken ++ [cmd] ∧ next.reach ≤ cmdOfldMaxLen := by
  have inside := inv.inside
  rcases inv.buffer with ⟨none_there,rfl⟩ | ⟨mem,loaded,_⟩
  · refine ⟨o.write (.fresh plat.junk) plat.junk cmd,_,?_,(Loaded.fresh plat.junk).write (by decide : 16 ≤ 2000) cmd,rfl,rfl,?_⟩
    · unfold addCmd
      rw [none_there]
      simp only [met.malloc,if_true]
    · simp only [Ofld.write,CmdOfldInfo.fresh,cmdOfldSize,cmdOfldMaxLen] at *
      omega
  · have free : cmdOfldSize ≤ o.info.avlBufSize := by
      rcases room with none_there | free
      · exact absurd (loaded.alive.symm.trans none_there) (by simp)
      · exact free
    refine ⟨o.write o.info mem cmd,_,?_,loaded.write free cmd,rfl,rfl,?_⟩
    · unfold addCmd
      rw [loaded.alive]
    · have few := loaded.few
      rw [loaded.avl] at free
      simp only [Ofld.write,loaded.wptr,cmdOfldSize,cmdOfldMaxLen] at *
      omega

theorem issue_inv (cmd : RtwMacCmd) :
    ∃ left, (issue plat o cmd).1.Inv left ∧
      Answered o cmd (issue plat o cmd).1 (issue plat o cmd).2 ∧
      ((∀ n, plat.check n = .success) → (issue plat o cmd).1.taken = o.taken ++ [cmd]) := by
  obtain ⟨ready,left,goes,after,same,room,good⟩ := makeRoom_inv met inv
  unfold issue
  cases ret : (makeRoom plat o).2 with
  | success =>
    rw [ret] at goes
    rw [goes]
    obtain ⟨full,mem,adds,loaded,sent,taken,inside⟩ := addCmd_inv met after room cmd
    have grown : full.taken = o.taken ++ [cmd] := by rw [taken,same]
    have order : ∃ gone, full.taken = gone ++ (left ++ [cmd]) ∧
        full.sent.flatten.map FwcmdCmdOfld.what = gone.map RtwMacCmd.what := by
      obtain ⟨gone,before,out⟩ := after.order
      refine ⟨gone,?_,?_⟩
      · rw [taken,before,append_assoc]
      · rw [sent,out]
    have batches : ∀ b ∈ full.sent, Batch b := by
      rw [sent]
      exact after.batches
    dsimp only
    rw [adds]
    dsimp only
    by_cases more : cmd.lc = 0
    · rw [if_pos more]
      simp only [more,ne_eq,not_true_eq_false,decide_false] at loaded
      have unflagged : ∀ one ∈ left ++ [cmd], one.lc = 0 := by
        intro one member
        rcases mem_append.mp member with old | new
        · exact after.unflagged one old
        · rw [mem_singleton.mp new]
          exact more
      exact ⟨left ++ [cmd],⟨order,batches,unflagged,.inr ⟨mem,loaded,by simp⟩,inside⟩,
        ⟨fun _ => grown,fun failed => absurd rfl failed⟩,fun _ => grown⟩
    · rw [if_neg more]
      simp only [more,ne_eq,not_false_eq_true,decide_true] at loaded
      obtain ⟨next,sends,finished,kept⟩ := cmdOfld_sends met loaded (by simp) order batches inside
      rw [sends]
      have wrote := kept.trans grown
      exact ⟨[],finished,⟨fun _ => wrote,fun _ => .inr ⟨more,wrote,finished.freed⟩⟩,fun _ => wrote⟩
  | badAddr | noFw | procErr | nptr | bufAlloc | noBuf | txFail | pollTo | drvRm | fioOfld =>
    rw [ret] at goes
    rw [goes]
    refine ⟨left,after,⟨nofun,fun _ => .inl same⟩,fun all_good => ?_⟩
    exact absurd (ret.symm.trans (good all_good)) (by decide)
end

def valid (call : RtwMacCmd × Bool) : Bool := ¬ call.1.misplaced ∧ call.2

theorem macAddCmdOfld_inv (met : plat.Met) (inv : o.Inv wait) (idle : o.cmdState = .idle) (call : RtwMacCmd × Bool) :
    ∃ left extra, (macAddCmdOfld plat o call.1 call.2).1.Inv left ∧
      (macAddCmdOfld plat o call.1 call.2).1.cmdState = .idle ∧
      Answered o call.1 (macAddCmdOfld plat o call.1 call.2).1 (macAddCmdOfld plat o call.1 call.2).2 ∧
      (macAddCmdOfld plat o call.1 call.2).1.taken = o.taken ++ extra ∧
      extra.Sublist (([call].filter valid).map fst) ∧
      ((∀ n, plat.check n = .success) → extra = ([call].filter valid).map fst) := by
  unfold macAddCmdOfld
  by_cases misplaced : call.1.misplaced
  · rw [if_pos misplaced]
    exact ⟨wait,[],inv,idle,⟨nofun,fun _ => .inl rfl⟩,by simp,by simp,fun _ => by simp [valid,misplaced]⟩
  · rw [if_neg misplaced]
    cases ready : call.2 with
    | false => exact ⟨wait,[],inv,idle,⟨nofun,fun _ => .inl rfl⟩,by simp,by simp,fun _ => by simp [valid,ready]⟩
    | true =>
      rw [if_neg (by simp),if_neg (by simp [idle])]
      obtain ⟨left,after,answered,taken⟩ := issue_inv (o := {o with cmdState:=.proc}) met
        {inv with} call.1
      have said : Answered o call.1 (issue plat {o with cmdState:=.proc} call.1).1 (issue plat {o with cmdState:=.proc} call.1).2 :=
        {answered with}
      have one : ([call].filter valid).map fst = [call.1] := by simp [valid,misplaced,ready]
      rw [one]
      have kept : (issue plat {o with cmdState:=.proc} call.1).1.Inv left := after
      have grown : (issue plat {o with cmdState:=.proc} call.1).1.taken = o.taken ∨
          (issue plat {o with cmdState:=.proc} call.1).1.taken = o.taken ++ [call.1] := by
        by_cases done : (issue plat {o with cmdState:=.proc} call.1).2 = .success
        · exact .inr (said.written done)
        · exact (said.leftOut done).imp_right fun sent => sent.2.1
      rcases grown with same | grown
      · refine ⟨left,[],{kept with},rfl,{said with},by simpa using same,by simp,fun good => ?_⟩
        have both := same.symm.trans (taken good)
        simp at both
      · exact ⟨left,[call.1],{kept with},rfl,{said with},grown,List.Sublist.refl _,fun _ => rfl⟩

theorem run_inv (met : plat.Met) (calls : List (RtwMacCmd × Bool)) :
    ∀ o wait, Ofld.Inv o wait → o.cmdState = .idle →
      ∃ left extra, (calls.foldl (fun o call => (macAddCmdOfld plat o call.1 call.2).1) o).Inv left ∧
        (calls.foldl (fun o call => (macAddCmdOfld plat o call.1 call.2).1) o).cmdState = .idle ∧
        (calls.foldl (fun o call => (macAddCmdOfld plat o call.1 call.2).1) o).taken = o.taken ++ extra ∧
        extra.Sublist ((calls.filter valid).map fst) ∧
        ((∀ n, plat.check n = .success) → extra = (calls.filter valid).map fst) := by
  induction calls with
  | nil => exact fun o wait inv idle => ⟨wait,[],inv,idle,by simp,by simp,fun _ => rfl⟩
  | cons call rest ih =>
    intro o wait inv idle
    obtain ⟨left,one,after,idle_after,_,taken,few,exactly⟩ := macAddCmdOfld_inv met inv idle call
    obtain ⟨last,more,final,still,all,fewer,precisely⟩ := ih _ left after idle_after
    have both : ((call :: rest).filter valid).map fst =
        ([call].filter valid).map fst ++ (rest.filter valid).map fst := by
      rw [← map_append,← filter_append,singleton_append]
    refine ⟨last,one ++ more,final,still,?_,?_,fun good => ?_⟩
    · rw [foldl_cons,all,taken,append_assoc]
    · rw [both]
      exact few.append fewer
    · rw [both,exactly good,precisely good]

theorem Ofld.Inv.payload (inv : o.Inv wait) :
    o.info.payload.map FwcmdCmdOfld.what = wait.map RtwMacCmd.what ∧ ∀ r ∈ o.info.payload, r.lc = false := by
  rcases inv.buffer with ⟨none_there,rfl⟩ | ⟨mem,loaded,_⟩
  · simp [CmdOfldInfo.payload,none_there]
  · refine ⟨loaded.payload_what,?_⟩
    rw [loaded.payload]
    intro r member
    obtain ⟨i,below,rfl⟩ := mem_map.mp member
    simpa using loaded.lcs i (mem_range.mp below)

theorem Ofld.Inv.batched (inv : o.Inv wait) : Batched o := by
  obtain ⟨gone,taken,out⟩ := inv.order
  obtain ⟨what,lcs⟩ := inv.payload
  refine ⟨?_,inv.batches,lcs,?_,?_,inv.inside⟩
  · rw [map_append,what,out,taken,map_append]
  · have lengths := congrArg length out
    rw [length_map,length_map] at lengths
    rw [taken,lengths,drop_left]
    exact inv.unflagged
  · intro mem there
    rcases inv.buffer with ⟨none_there,_⟩ | ⟨_,loaded,_⟩
    · exact absurd (none_there.symm.trans there) (by simp)
    · have few := loaded.few
      refine ⟨?_,loaded.whole,loaded.wptr.trans loaded.used.symm⟩
      rw [loaded.used,loaded.avl]
      omega

-- A command is left out only where the batch before it was not acknowledged.
theorem cmd_ofld_batches (plat : Platform) (met : plat.Met) (calls : List (RtwMacCmd × Bool)) :
    Batched (run plat calls) ∧ (run plat calls).taken.Sublist ((calls.filter valid).map Prod.fst) ∧
    (∀ cmd ready, Answered (run plat calls) cmd (macAddCmdOfld plat (run plat calls) cmd ready).1
      (macAddCmdOfld plat (run plat calls) cmd ready).2) ∧
    ((∀ n, plat.check n = .success) → (run plat calls).taken = (calls.filter valid).map Prod.fst) := by
  obtain ⟨wait,extra,inv,idle,taken,few,exactly⟩ := run_inv met calls .init [] .init rfl
  have here : (run plat calls).taken = extra := taken
  rw [here]
  refine ⟨inv.batched,few,?_,exactly⟩
  intro cmd ready
  obtain ⟨_,_,_,_,answered,_⟩ := macAddCmdOfld_inv met inv idle (cmd,ready)
  exact answered

def delayCmd (lc : BitVec 8) : RtwMacCmd := ⟨.mac,.delay,lc,.a,0,0,5,0⟩
def easyBus : Platform := ⟨fun _ => ⟨0,0,0,0⟩,fun _ => true,fun _ => true,fun _ => true,fun _ => .success⟩

-- A batch that fills the buffer to its last byte and one that is closed by hand.
theorem cmd_ofld_batches_full :
    Batched (run easyBus (List.replicate 125 (delayCmd 0,true) ++ [(delayCmd 1,true)])) ∧
    (run easyBus (List.replicate 125 (delayCmd 0,true) ++ [(delayCmd 1,true)])).taken =
      ((List.replicate 125 (delayCmd 0,true) ++ [(delayCmd 1,true)]).filter valid).map Prod.fst :=
  have all := cmd_ofld_batches easyBus ⟨fun _ => rfl,fun _ => rfl,fun _ => rfl⟩
    (replicate 125 (delayCmd 0,true) ++ [(delayCmd 1,true)])
  ⟨all.1,all.2.2.2 (fun _ => rfl)⟩
end Rtl8852au.CmdOfld
