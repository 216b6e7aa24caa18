import Rtl8852au.DispatcherLanes

namespace Rtl8852au.Dispr
open Machine List

def Goes (s : CmdDispatcher) (hands : List Nat) (t : CmdDispatcher) (hands' : List Nat) : Prop :=
  ∀ lanes, ∃ lanes', Reached access legal ⟨s,hands,lanes⟩ ⟨t,hands',lanes'⟩

theorem Goes.refl (s : CmdDispatcher) (hands : List Nat) : Goes s hands s hands := fun lanes => ⟨lanes,.start⟩

theorem Goes.trans (one : Goes s hands t hands') (two : Goes t hands' u hands'') : Goes s hands u hands'' := by
  intro lanes
  obtain ⟨lanes',first⟩ := one lanes
  obtain ⟨lanes'',second⟩ := two lanes'
  refine ⟨lanes'',second.invariant (Reached access legal ⟨s,hands,lanes⟩) first ?_⟩
  exact fun _ _ path allowed => .step path allowed

theorem Goes.once (event : Access) (allowed : ∀ lanes, legal ⟨s,hands,lanes⟩ event)
    (made : ∀ lanes, (access ⟨s,hands,lanes⟩ event).disp = t ∧ (access ⟨s,hands,lanes⟩ event).hands = hands') :
    Goes s hands t hands' := by
  intro lanes
  obtain ⟨rfl,rfl⟩ := made lanes
  exact ⟨_,.step .start (allowed lanes)⟩

theorem Goes.elsewhere (quiet : QueuesKept s hands t) : Goes s hands t hands :=
  .once (.elsewhere t) (fun _ => quiet) fun _ => ⟨rfl,rfl⟩

theorem QueuesKept.trans (one : QueuesKept s hands t) (two : QueuesKept t hands u) : QueuesKept s hands u :=
  ⟨two.idle.trans one.idle,two.wait.trans one.wait,two.pend.trans one.pend,fun i free => (two.msg i free).trans (one.msg i free)⟩

theorem Goes.then (goes : Goes s hands t hands') (quiet : QueuesKept t hands' u) : Goes s hands u hands' :=
  goes.trans (.elsewhere quiet)

theorem QueuesKept.goto (s : CmdDispatcher) (hands : List Nat) (pc : Pc) : QueuesKept s hands (s.goto pc) :=
  ⟨rfl,rfl,rfl,fun _ _ => rfl⟩

theorem QueuesKept.note (s : CmdDispatcher) (hands : List Nat) (n : Note) : QueuesKept s hands (s.note n) :=
  ⟨rfl,rfl,rfl,fun _ _ => rfl⟩

section
variable (s : CmdDispatcher) (i : Nat) (hands : List Nat)

theorem goes_queue : Goes s (i :: hands) (queueMsg s i (s.msgExPool i).msg.mdlId) hands :=
  .once (.queue i) (fun _ => mem_cons_self) fun _ => ⟨rfl,erase_cons_head ..⟩

theorem goes_requeue : Goes s (i :: hands) (requeueMsg s i) hands :=
  .once (.requeue i) (fun _ => mem_cons_self) fun _ => ⟨rfl,erase_cons_head ..⟩

theorem goes_return : Goes s (i :: hands) (returnMsg s i) hands :=
  .once (.giveBack i) (fun _ => mem_cons_self) fun _ => ⟨rfl,erase_cons_head ..⟩

theorem goes_reschedule :
    Goes s (i :: hands) (if (s.msgExPool i).status.pending then pushBackPendingMsg s i else pushBackWaitMsg s i) hands := by
  refine .once (.reschedule i) (fun _ => mem_cons_self) fun _ => ?_
  unfold access
  dsimp only
  split
  · exact ⟨rfl,erase_cons_head ..⟩
  · exact ⟨rfl,erase_cons_head ..⟩
end

theorem goes_popIdle (popped : popFrontIdleMsg s = some (i,t)) (hands : List Nat) : Goes s hands t (i :: hands) := by
  refine .once .take (fun _ => trivial) fun _ => ?_
  simp only [access,popped,Hub.taken,and_self]

theorem goes_popWait (popped : popFrontWaitMsg s = some (i,t)) (hands : List Nat) : Goes s hands t (i :: hands) := by
  refine .once .fetch (fun _ => trivial) fun _ => ?_
  simp only [access,popped,Hub.fetched,and_self]

theorem goes_lift (pend : s.msgPendQ = i :: rest) (hands : List Nat) : Goes s hands {s with msgPendQ:=rest} (i :: hands) := by
  refine .once .lift (fun _ => trivial) fun _ => ?_
  simp only [access,popFrontPendingMsg,pend,Hub.taken,and_self]

theorem goes_requeues (queue : List Nat) (s : CmdDispatcher) (hands : List Nat) (empty : s.msgPendQ = []) :
    Goes {s with msgPendQ:=queue} hands (queue.foldl requeueMsg s) hands := by
  have alone (s : CmdDispatcher) (i : Nat) (rest : List Nat) :
      requeueMsg {s with msgPendQ:=rest} i = {requeueMsg s i with msgPendQ:=rest} := by
    unfold requeueMsg
    dsimp only
    split <;> rfl
  induction queue generalizing s with
  | nil =>
    have same : ({s with msgPendQ:=[]} : CmdDispatcher) = s := by rw [← empty]
    rw [same]
    exact .refl s hands
  | cons i rest ih =>
    have stays : (requeueMsg s i).msgPendQ = [] := (queued_requeue s i).pend.trans empty
    refine (goes_lift rfl hands).trans ((goes_requeue {s with msgPendQ:=rest} i hands).trans ?_)
    rw [alone]
    exact ih (requeueMsg s i) stays

section
variable (s : CmdDispatcher)

theorem goes_clearPending (hands : List Nat) : Goes s hands (clearPendingMsg s) hands := by
  unfold clearPendingMsg
  split
  · refine .trans (.elsewhere (t := {s with status:={s.status with clrPendMsg:=false}}) ⟨rfl,rfl,rfl,fun _ _ => rfl⟩) ?_
    exact goes_requeues s.msgPendQ {s with status:={s.status with clrPendMsg:=false},msgPendQ:=[]} hands rfl
  · exact .refl s hands

theorem elsewhere_completeMsg (i : Nat) (hands : List Nat) : QueuesKept s (i :: hands) (completeMsg s i).1 := by
  unfold completeMsg
  dsimp only
  split
  · refine .trans ?_ (.note _ _ _)
    split
    · exact .setEx s i _ (.inl mem_cons_self)
    · exact ⟨rfl,rfl,rfl,fun _ _ => rfl⟩
  · exact ⟨rfl,rfl,rfl,fun _ _ => rfl⟩

theorem goes_pushIdle (i : Nat) (hands : List Nat) : Goes s (i :: hands) (pushBackIdleMsg s i) hands :=
  .trans (.elsewhere (elsewhere_completeMsg s i hands)) (goes_return _ i hands)

theorem sentEx_msg (ex : MsgEx) (msg : MsgId) (attr : Option MsgAttr) : (sentEx s ex msg attr).msg = msg := by
  have own (ex : MsgEx) : (ownEx s ex msg.mdlId).msg = ex.msg := by
    unfold ownEx
    dsimp only
    split
    · rfl
    · split <;> rfl
  unfold sentEx
  rw [own]
  cases attr <;> rfl

theorem goes_send (msg : MsgId) (attr : Option MsgAttr) (hands : List Nat) :
    Goes s hands (disprSendMsg s msg attr).1 hands := by
  unfold disprSendMsg
  split
  · exact .refl s hands
  split
  · exact .refl s hands
  split
  · exact .refl s hands
  split
  · exact .refl s hands
  · rename_i i t popped
    refine (goes_popIdle popped hands).trans ?_
    have isMsg := sentEx_msg t (t.msgExPool i) msg attr
    dsimp only
    generalize sentEx t (t.msgExPool i) msg attr = ex at isMsg
    split
    · exact .trans (.elsewhere (.setEx t i _ (.inl mem_cons_self))) (goes_pushIdle _ i hands)
    · -- The extension is filled in, put into the wait queue, and that is noted.
      generalize (ex.status.ownerReq && lastPermit (getCurCmdReqId t).2) = abort
      have armed : QueuesKept t (i :: hands) (if abort then {t with status:={t.status with waitAbortMsgDone:=true}} else t) := by
        split <;> exact ⟨rfl,rfl,rfl,fun _ _ => rfl⟩
      generalize (if abort then _ else t) = u at armed
      have filled := armed.trans (.setEx u i {ex with status:={ex.status with forAbort:=abort,prePhase:=true}}
        (.inl mem_cons_self))
      refine .then ?_ (.note _ _ _)
      have queued := goes_queue (u.setEx i {ex with status:={ex.status with forAbort:=abort,prePhase:=true}}) i hands
      have here : ((u.setEx i {ex with status:={ex.status with forAbort:=abort,prePhase:=true}}).msgExPool i).msg.mdlId =
          msg.mdlId := by simp [CmdDispatcher.setEx,isMsg]
      rw [here] at queued
      exact .trans (.elsewhere filled) queued
end

theorem elsewhere_pushOp (s : CmdDispatcher) (node : OpNode) (type : OpType) (data : Nat) (hands : List Nat) :
    QueuesKept s hands (pushBackTokenOpInfo s node type data).1 := by
  unfold pushBackTokenOpInfo
  split
  · exact ⟨rfl,rfl,rfl,fun _ _ => rfl⟩
  · cases node <;> exact ⟨rfl,rfl,rfl,fun _ _ => rfl⟩

theorem goes_follows (hands : List Nat) : Follows fun s t => Goes s hands t hands where
  calm calm := .elsewhere ⟨calm.idle,calm.wait,calm.pend,fun i _ => (calm.ex i).mdlId⟩
  trans := .trans
  clrPending _ := .elsewhere ⟨rfl,rfl,rfl,fun _ _ => rfl⟩
  send s msg attr := goes_send s msg attr hands
  pushOp s _ _ _ := .elsewhere (elsewhere_pushOp s _ _ _ hands)
  goto s pc := .elsewhere (.goto s hands pc)
  note s n _ := .elsewhere (.note s hands n)
  clearPending s := goes_clearPending s hands

theorem goes_dispatchStep (s : CmdDispatcher) (i : Nat) (stage : Stage) (ret : MdlRet) :
    Goes s [i] (dispatchStep s i stage ret) (heldBy (dispatchStep s i stage ret).pc).toList := by
  rcases leaves_cases stage with stays | rfl | rfl | rfl
  · obtain ⟨_,isPc,_⟩ := dispatchStep_held s i stage ret stays
    rw [isPc]
    exact (goes_follows [i]).flows.dispatchStep s i stage ret stays
  · exact (goes_reschedule s i []).then (.goto _ _ _)
  · have completed := elsewhere_completeMsg s i []
    unfold dispatchStep
    dsimp only
    split
    · exact .elsewhere (completed.trans (.goto _ _ _))
    · exact ((Goes.elsewhere completed).trans (goes_return _ i [])).then (.goto _ _ _)
  · exact (goes_return s i []).then (.goto _ _ _)

theorem goes_thread (s : CmdDispatcher) (ret : MdlRet) :
    Goes s (heldBy s.pc).toList (threadStep s ret) (heldBy (threadStep s ret).pc).toList := by
  rcases early_cases s.pc with isEarly | pc | pc | ⟨i,stage,pc⟩
  · rw [(early_free isEarly).1,(thread_free isEarly ret).1]
    exact (goes_follows []).thread s ret isEarly fun _ _ _ => .elsewhere ⟨rfl,rfl,rfl,fun _ _ => rfl⟩
  · rw [threadStep_wait pc]
    split
    · exact .refl s _
    · have held : (heldBy s.pc).toList = [] := by
        rw [pc]
        rfl
      rw [held]
      have woken : QueuesKept s [] {s with msgQSema:=s.msgQSema - 1} := ⟨rfl,rfl,rfl,fun _ _ => rfl⟩
      exact ((Goes.elsewhere woken).trans (goes_clearPending _ [])).then (.goto _ _ _)
  · rw [threadStep_fetch pc,pc]
    split
    · exact .elsewhere (.goto s _ _)
    · rename_i popped
      exact (goes_popWait popped []).then (.goto _ _ _)
  · rw [threadStep_held pc,pc]
    exact goes_dispatchStep s i stage ret

theorem goes_step (s : CmdDispatcher) (event : Event) :
    Goes s (heldBy s.pc).toList (step s event) (heldBy (step s event).pc).toList := by
  by_cases isThread : ∃ ret, event = .thread ret
  · obtain ⟨ret,rfl⟩ := isThread
    exact goes_thread s ret
  · have other : ∀ ret, event ≠ .thread ret := fun ret same => isThread ⟨ret,same⟩
    rw [step_pc s event other]
    exact (goes_follows _).step s event other

theorem reached_hub (path : Reached step (fun _ _ => True) (disprStart moduleQ bitmap basemap ctrlPresent) s) :
    ∃ lanes, Reached access legal (Hub.start (disprStart moduleQ bitmap basemap ctrlPresent)) ⟨s,(heldBy s.pc).toList,lanes⟩ := by
  have goes : Goes (disprStart moduleQ bitmap basemap ctrlPresent) [] s (heldBy s.pc).toList :=
    path.invariant (fun s => Goes _ [] s (heldBy s.pc).toList) (.refl _ _) fun s event goes _ => goes.trans (goes_step s event)
  exact goes ⟨[],[]⟩

def overlookedRun : List Event :=
  .send {mdlId:=phlMdlPhyMgnt,evtId:=msgEvtDevCannotIo} none :: List.replicate 9 (.thread .pending) ++
    [.send {mdlId:=phlMdlPowerMgnt,evtId:=7} none,.clrPending,.thread .success]

theorem controller_overlooked :
    ∃ h, Reached access legal (Hub.start (disprStart powerMgntQ powerMgntMap powerMgntMap true)) h ∧
      h.disp = run step (disprStart powerMgntQ powerMgntMap powerMgntMap true) overlookedRun ∧
      ¬∃ high low, h.disp.msgWaitQ = high ++ low ∧ (∀ i ∈ high, isDisprCtrl (h.mdlId i) = true) ∧
        ∀ i ∈ low, isDisprCtrl (h.mdlId i) = false := by
  have admitted : Admitted step (fun _ _ => True) (disprStart powerMgntQ powerMgntMap powerMgntMap true) overlookedRun := by
    decide +kernel
  obtain ⟨lanes,path⟩ := reached_hub (Reached.start.run admitted)
  refine ⟨_,path,rfl,?_⟩
  have queue : (run step (disprStart powerMgntQ powerMgntMap powerMgntMap true) overlookedRun).msgWaitQ = [1,0] := by
    decide +kernel
  have first : isDisprCtrl ((run step (disprStart powerMgntQ powerMgntMap powerMgntMap true) overlookedRun).msgExPool 1).msg.mdlId =
      false := by decide +kernel
  have second : isDisprCtrl ((run step (disprStart powerMgntQ powerMgntMap powerMgntMap true) overlookedRun).msgExPool 0).msg.mdlId =
      true := by decide +kernel
  rintro ⟨high,low,wait,isHigh,isLow⟩
  unfold Hub.mdlId at isHigh isLow
  dsimp only at wait isHigh isLow
  rw [queue] at wait
  cases high with
  | nil =>
    have slow := isLow 0 (by rw [← nil_append low,← wait]; decide)
    rw [second] at slow
    exact nomatch slow
  | cons i rest =>
    have same : 1 = i := (cons.inj wait).1
    have fast := isHigh i mem_cons_self
    rw [← same,first] at fast
    exact nomatch fast

end Rtl8852au.Dispr
