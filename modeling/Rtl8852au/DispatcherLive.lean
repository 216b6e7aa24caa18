import Rtl8852au.DispatcherToken
import Rtl8852au.DispatcherWake

namespace Rtl8852au.Dispr
open Machine Function List

def Fit (s : CmdDispatcher) : Prop := ∀ i < maxPhlMsgNum, i ∈ s.msgIdleQ ↔ (s.msgExPool i).live = false

structure SameLive (s t : CmdDispatcher) : Prop where
  idle : t.msgIdleQ = s.msgIdleQ
  live : ∀ i, (t.msgExPool i).live = (s.msgExPool i).live

variable {s t : CmdDispatcher} {hands : List Nat} {done : Option Nat}

theorem SameLive.refl (s : CmdDispatcher) : SameLive s s := ⟨rfl,fun _ => rfl⟩

theorem SameLive.trans (one : SameLive s t) (two : SameLive t u) : SameLive s u :=
  ⟨two.idle.trans one.idle,fun i => (two.live i).trans (one.live i)⟩

theorem Fit.same (fit : Fit s) (same : SameLive s t) : Fit t := by
  intro i small
  rw [same.idle,same.live]
  exact fit i small

theorem SameLive.setEx (same : ex.live = (s.msgExPool i).live) : SameLive s (s.setEx i ex) := by
  refine ⟨rfl,fun j => ?_⟩
  by_cases here : j = i
  · subst here
    simpa [CmdDispatcher.setEx] using same
  · simp [CmdDispatcher.setEx,here]

theorem SameLive.goto (same : SameLive s t) (pc : Pc) : SameLive s (t.goto pc) := ⟨same.idle,same.live⟩
theorem Fit.goto (fit : Fit s) (pc : Pc) : Fit (s.goto pc) := fit

section
variable (s : CmdDispatcher)

theorem sameLive_note (n : Note) : SameLive s (s.note n) := ⟨rfl,fun _ => rfl⟩

theorem sameLive_setOpInfo (node : OpNode) (info : TokenOpInfo) : SameLive s (setOpInfo s node info) := by
  cases node <;> exact ⟨rfl,fun _ => rfl⟩

theorem sameLive_pushOp (node : OpNode) (type : OpType) (data : Nat) :
    SameLive s (pushBackTokenOpInfo s node type data).1 := by
  unfold pushBackTokenOpInfo
  split
  · exact .refl s
  · exact (sameLive_setOpInfo s node _).trans ⟨rfl,fun _ => rfl⟩

theorem sameLive_abortComplete : SameLive s (onAbortMsgComplete s) := by
  have flag : SameLive s {s with status:={s.status with waitAbortMsgDone:=false}} := ⟨rfl,fun _ => rfl⟩
  exact flag.trans (sameLive_pushOp _ _ _ _)

theorem sameLive_clearEvt (msg : MsgId) : SameLive s (clearPendingEvt s msg) := by
  unfold clearPendingEvt
  split
  · exact ⟨rfl,fun _ => rfl⟩
  · exact .refl s

theorem sameLive_completeMsg (i : Nat) : SameLive s (completeMsg s i).1 := by
  unfold completeMsg
  dsimp only
  split
  · refine SameLive.trans ?_ (sameLive_note _ _)
    split
    · exact .setEx rfl
    · exact .refl s
  · exact .refl s
end

theorem Hushed.sameLive (calm : Hushed s t) : SameLive s t := ⟨calm.idle,fun i => (calm.ex i).live⟩

theorem sameLive_flows : Flows SameLive where
  refl := .refl
  trans := .trans
  mild _ _ _ mild := .setEx mild.live
  goto s pc := (SameLive.refl s).goto pc
  note s n _ _ := sameLive_note s n

def FitBut (s : CmdDispatcher) (i : Nat) : Prop :=
  i ∉ s.msgIdleQ ∧ ∀ j < maxPhlMsgNum, j ≠ i → (j ∈ s.msgIdleQ ↔ (s.msgExPool j).live = false)

theorem Fit.but (fit : Fit s) (out : i ∉ s.msgIdleQ) : FitBut s i := ⟨out,fun j small _ => fit j small⟩

theorem FitBut.same (fit : FitBut s i) (same : SameLive s t) : FitBut t i := by
  refine ⟨by rw [same.idle]; exact fit.1,fun j small other => ?_⟩
  rw [same.idle,same.live]
  exact fit.2 j small other

section
variable (fit : FitBut s i)
include fit

theorem FitBut.setEx (ex : MsgEx) : FitBut (s.setEx i ex) i := by
  refine ⟨fit.1,fun j small other => ?_⟩
  have same : (s.setEx i ex).msgExPool j = s.msgExPool j := update_of_ne other ..
  rw [same]
  exact fit.2 j small other

theorem FitBut.put (live : ex.live) : Fit (s.setEx i ex) := by
  intro j small
  by_cases here : j = i
  · subst here
    have written : (s.setEx j ex).msgExPool j = ex := update_self ..
    rw [written,live]
    exact iff_of_false fit.1 nofun
  · exact (fit.setEx ex).2 j small here

theorem FitBut.pushWait : Fit (pushBackWaitMsg s i) := by
  have marked : Fit (s.setEx i (enqueued (s.msgExPool i))) := fit.put rfl
  exact marked.same ⟨rfl,fun _ => rfl⟩

theorem FitBut.insert : Fit (insertMsgByPriority s i) := by
  have marked : Fit (s.setEx i (enqueued (s.msgExPool i))) := fit.put rfl
  exact marked.same ⟨rfl,fun _ => rfl⟩

theorem FitBut.requeue : Fit (requeueMsg s i) := by
  unfold requeueMsg
  split
  · exact fit.insert
  · exact fit.pushWait
end

theorem FitBut.queueMsg (fit : FitBut s i) (mdlId : Nat) : Fit (queueMsg s i mdlId) := by
  unfold Dispr.queueMsg
  split
  · exact fit.insert
  · exact fit.pushWait

theorem FitBut.pushPending (fit : FitBut s i) : Fit (pushBackPendingMsg s i) := by
  have marked : Fit (s.setEx i (enqueued (s.msgExPool i))) := fit.put rfl
  refine marked.same ?_
  unfold pushBackPendingMsg
  dsimp only
  split <;> exact ⟨rfl,fun _ => rfl⟩

theorem FitBut.returned (fit : FitBut s i) : Fit (returnMsg s i) := by
  unfold returnMsg
  dsimp only
  have done : SameLive s (if (s.msgExPool i).status.forAbort then onAbortMsgComplete s else s) := by
    split
    · exact sameLive_abortComplete s
    · exact .refl s
  have cleared := done.trans (sameLive_clearEvt _ (s.msgExPool i).msg)
  generalize clearPendingEvt _ (s.msgExPool i).msg = u at cleared
  intro j small
  change j ∈ u.msgIdleQ ++ [i] ↔ (update u.msgExPool i _ j).live = false
  rw [cleared.idle,mem_append,mem_singleton]
  by_cases here : j = i
  · subst here
    rw [update_self]
    exact iff_of_true (.inr rfl) rfl
  · rw [update_of_ne here,cleared.live,or_iff_left here]
    exact fit.2 j small here

theorem requeue_idle (s : CmdDispatcher) (i : Nat) : (requeueMsg s i).msgIdleQ = s.msgIdleQ := (queued_requeue s i).idle

theorem Fit.requeues {queue : List Nat} (fit : Fit s) (out : ∀ i ∈ queue, i ∉ s.msgIdleQ) : Fit (queue.foldl requeueMsg s) := by
  induction queue generalizing s with
  | nil => exact fit
  | cons i rest ih =>
    refine ih (fit.but (out i mem_cons_self)).requeue (fun j member => ?_)
    rw [requeue_idle]
    exact out j (mem_cons_of_mem i member)

theorem Kept.pendOut (kept : Kept s hands done) (pending : i ∈ s.msgPendQ) : i ∉ s.msgIdleQ := by
  intro idle
  have place := kept.places i
  have here := count_pos_iff.mpr pending
  have there := count_pos_iff.mpr idle
  split at place <;> omega

theorem Kept.waitOut (kept : Kept s hands done) (waiting : i ∈ s.msgWaitQ) : i ∉ s.msgIdleQ := by
  intro idle
  have place := kept.places i
  have here := count_pos_iff.mpr waiting
  have there := count_pos_iff.mpr idle
  split at place <;> omega

theorem Fit.clearPending (fit : Fit s) (kept : Kept s hands done) : Fit (clearPendingMsg s) := by
  unfold clearPendingMsg
  split
  · refine Fit.requeues (fit.same ⟨rfl,fun _ => rfl⟩) (fun i pending => ?_)
    exact kept.pendOut pending
  · exact fit

theorem Fit.popWait (fit : Fit s) (kept : Kept s hands done) (popped : popFrontWaitMsg s = some (i,t)) : Fit t := by
  unfold popFrontWaitMsg at popped
  split at popped
  · cases popped
  · rename_i j rest queue
    cases popped
    have out : i ∉ s.msgIdleQ := kept.waitOut (by rw [queue]; exact mem_cons_self)
    have left : Fit {s with msgWaitQ:=rest} := fit
    exact (left.but out).put rfl

theorem popIdle_parts (popped : popFrontIdleMsg s = some (i,t)) : s.msgIdleQ = i :: t.msgIdleQ ∧
    ∀ j, j ≠ i → t.msgExPool j = s.msgExPool j := by
  unfold popFrontIdleMsg at popped
  split at popped
  · cases popped
  · rename_i j rest queue
    cases popped
    exact ⟨queue,fun k other => update_of_ne other ..⟩

theorem Fit.taken (fit : Fit s) (kept : Kept s hands done) (popped : popFrontIdleMsg s = some (i,t)) : FitBut t i := by
  obtain ⟨queue,others⟩ := popIdle_parts popped
  have place := kept.places i
  rw [queue,count_cons_self] at place
  refine ⟨fun again => ?_,fun j small other => ?_⟩
  · have twice := count_pos_iff.mpr again
    split at place <;> omega
  · have before := fit j small
    rw [queue,mem_cons,or_iff_right other,← others j other] at before
    exact before

theorem Fit.send (fit : Fit s) (kept : Kept s hands done) (msg : MsgId) (attr : Option MsgAttr) :
    Fit (disprSendMsg s msg attr).1 := by
  unfold disprSendMsg
  split
  · exact fit
  split
  · exact fit
  split
  · exact fit
  cases popped : popFrontIdleMsg s with
  | none => exact fit
  | some taken =>
    obtain ⟨i,t⟩ := taken
    have out := fit.taken kept popped
    dsimp only
    split
    · unfold pushBackIdleMsg
      exact ((out.setEx _).same (sameLive_completeMsg _ i)).returned
    · refine Fit.same (FitBut.queueMsg ?_ msg.mdlId) (sameLive_note _ _)
      refine FitBut.setEx ?_ _
      split
      · exact out.same ⟨rfl,fun _ => rfl⟩
      · exact out

theorem fit_follows (hands : List Nat) (done : Option Nat) :
    Follows fun s t => Kept s hands done ∧ Fit s → Kept t hands done ∧ Fit t where
  calm calm both := ⟨both.1.same calm.same,both.2.same calm.sameLive⟩
  trans one two := two ∘ one
  clrPending s both := ⟨both.1.same (sameMsgs_clrPending s),both.2.same ⟨rfl,fun _ => rfl⟩⟩
  send _ msg attr both := ⟨both.1.send msg attr,both.2.send both.1 msg attr⟩
  pushOp s node type data both := ⟨both.1.same (sameMsgs_pushOp s _ _ _),both.2.same (sameLive_pushOp s node type data)⟩
  goto s pc both := ⟨(kept_follows hands done).goto s pc both.1,both.2⟩
  note s n other both := ⟨both.1.same (.note other),both.2.same (sameLive_note s n)⟩
  clearPending _ both := ⟨both.1.clearPending,both.2.clearPending both.1⟩

theorem Fit.dispatchStep (fit : Fit s) (out : i ∉ s.msgIdleQ) (stage : Stage) (ret : MdlRet) :
    Fit (dispatchStep s i stage ret) := by
  rcases leaves_cases stage with stays | rfl | rfl | rfl
  · exact fit.same (sameLive_flows.dispatchStep s i stage ret stays)
  · unfold Dispr.dispatchStep
    dsimp only
    split
    · exact (fit.but out).pushPending
    · exact (fit.but out).pushWait
  · have completed := sameLive_completeMsg s i
    unfold Dispr.dispatchStep
    dsimp only
    split
    · exact fit.same (completed.goto _)
    · exact ((fit.but out).same completed).returned
  · exact (fit.but out).returned

theorem Fit.thread (fit : Fit s) (kept : KeptAt s) (ret : MdlRet) : Fit (threadStep s ret) := by
  unfold KeptAt at kept
  rcases early_cases s.pc with isEarly | pc | pc | ⟨i,stage,pc⟩
  · have follows := fit_follows (heldBy s.pc).toList (calling s.pc)
    exact (follows.thread s ret isEarly (fun _ _ _ both => ⟨both.1.same ⟨rfl,rfl,rfl,rfl,fun _ => rfl,rfl⟩,both.2⟩) ⟨kept,fit⟩).2
  · rw [threadStep_wait pc]
    split
    · exact fit
    · have taken : Fit {s with msgQSema:=s.msgQSema - 1} := fit
      exact (taken.clearPending (kept.same ⟨rfl,rfl,rfl,rfl,fun _ => rfl,rfl⟩)).goto _
  · rw [threadStep_fetch pc]
    split
    · exact fit
    · rename_i popped
      exact (fit.popWait kept popped).goto _
  · rw [threadStep_held pc]
    rw [pc] at kept
    exact fit.dispatchStep (kept.notIdle (mem_singleton_self _)) _ ret

structure MsgsKept (s : CmdDispatcher) : Prop where
  kept : KeptAt s
  fit : Fit s

theorem MsgsKept.same (msgs : MsgsKept s) (same : SameMsgs s t) (live : SameLive s t) (pc : t.pc = s.pc) : MsgsKept t :=
  ⟨Kept.idle msgs.kept same pc,msgs.fit.same live⟩

theorem MsgsKept.setReq (msgs : MsgsKept s) (req : Nat) (ex : TokenReqEx) : MsgsKept (s.setReq req ex) :=
  msgs.same ⟨rfl,rfl,rfl,rfl,fun _ => rfl,rfl⟩ ⟨rfl,fun _ => rfl⟩ rfl

theorem MsgsKept.addTokenReq {s : TokenSys} (msgs : MsgsKept s.dispr) (req : CmdTokenReq) : MsgsKept (s.addTokenReq req).dispr := by
  unfold TokenSys.addTokenReq popFrontIdleReq
  split
  · exact msgs
  · cases s.dispr.tokenReqIdleQ with
    | nil => exact msgs
    | cons idx rest =>
      have popped : MsgsKept {s.dispr with tokenReqIdleQ:=rest} :=
        msgs.same ⟨rfl,rfl,rfl,rfl,fun _ => rfl,rfl⟩ ⟨rfl,fun _ => rfl⟩ rfl
      exact (popped.setReq idx {}).setReq idx _

theorem MsgsKept.pushOp {s : TokenSys} (msgs : MsgsKept s.dispr) (call : TokenCall) (node : OpNode) (type : OpType) :
    MsgsKept (s.pushOp call node type).dispr := by
  rw [(pushOp_dispr s call node type).1]
  exact msgs.same (sameMsgs_pushOp s.dispr node type call.req) (sameLive_pushOp s.dispr node type call.req)
    (pushOp_pc s.dispr node type call.req)

theorem MsgsKept.proceed {s : TokenSys} (msgs : MsgsKept s.dispr) (call : TokenCall) : MsgsKept (s.proceed call).dispr := by
  unfold TokenSys.proceed
  cases call.stage with
  | taken =>
    have waits : MsgsKept (pushWaitReq s.dispr call.req) := msgs.same ⟨rfl,rfl,rfl,rfl,fun _ => rfl,rfl⟩ ⟨rfl,fun _ => rfl⟩ rfl
    exact waits
  | pushed => exact msgs.setReq call.req _
  | marked => exact msgs.pushOp call _ _
  | ending type => exact msgs.pushOp call _ _

theorem MsgsKept.tokenStep {s : TokenSys} (msgs : MsgsKept s.dispr) (event : TokenEvent) : MsgsKept (tokenStep s event).dispr := by
  have made (call : Call) : MsgsKept (made s.dispr call) :=
    ⟨msgs.kept.made call,((fit_follows _ _).made s.dispr call ⟨msgs.kept,msgs.fit⟩).2⟩
  cases event with
  | thread ret => exact ⟨msgs.kept.thread ret,msgs.fit.thread msgs.kept ret⟩
  | go k =>
    rcases go_cases s k with stays | ⟨call,_,goes⟩
    · rw [stays]
      exact msgs
    · rw [goes]
      have left : MsgsKept {s with calls:=s.calls.eraseIdx k}.dispr := msgs
      exact left.proceed call
  | call call =>
    cases call with
    | addTokenReq req => exact msgs.addTokenReq req
    | cancelTokenReq hdl | freeToken hdl =>
      unfold Dispr.tokenStep
      dsimp only
      split
      · exact msgs.setReq _ _
      · exact msgs
    | send msg attr => exact made (.send msg attr)
    | cancel hdl => exact made (.cancel hdl)
    | clrPending => exact made .clrPending
    | cannotIo mdlId => exact made (.cannotIo mdlId)
    | resumeIo => exact made .resumeIo
    | shallStop => exact made .shallStop

theorem fit_start (moduleQ : Priority → List BkModule) (bitmap basemap : Bitmap) (ctrlPresent : Bool) :
    Fit (disprStart moduleQ bitmap basemap ctrlPresent) := by
  intro i small
  exact iff_of_true (mem_range.mpr small) rfl

theorem reached_msgs {s : TokenSys} {guard : TokenSys → TokenEvent → Prop}
    (path : Reached tokenStep guard (tokenStart (disprStart moduleQ bitmap basemap ctrlPresent)) s) : MsgsKept s.dispr := by
  refine path.invariant (fun s => MsgsKept s.dispr) ?_ (fun s event msgs _ => msgs.tokenStep event)
  exact ⟨kept_start moduleQ bitmap basemap ctrlPresent,fit_start moduleQ bitmap basemap ctrlPresent⟩
end Rtl8852au.Dispr
