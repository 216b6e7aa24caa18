import Rtl8852au.DispatcherPool

namespace Rtl8852au.Dispr
open Machine Bool List

def refusedLate (s : CmdDispatcher) (msg : MsgId) (attr : Option MsgAttr) : Bool :=
  let (curReqId,reqStatus) := getCurCmdReqId s
  s.status.started && !badAttr attr && !mayNotSend s msg.mdlId && !s.msgIdleQ.isEmpty &&
    (getModuleById s msg.mdlId).isNone && (curReqId == msg.mdlId || curReqId == phlMdlIdMax) && lastPermit reqStatus &&
    !sendInAbort attr

def toModule : Note → Bool
  | .complete _ _ => true
  | _ => false

structure Silent (s t : CmdDispatcher) : Prop where
  notCalled : t.log.filter toModule = s.log.filter toModule
  notLater : ∀ n, s.nextSerial ≤ n → n < t.nextSerial → ∀ u, Reached step (fun _ _ => True) t u → ∀ c, Note.complete n c ∉ u.log
  wait : t.msgWaitQ = s.msgWaitQ
  pend : t.msgPendQ = s.msgPendQ
  idle : t.msgIdleQ.Perm s.msgIdleQ
  pendingEvt : t.pendingEvt = s.pendingEvt
  status : t.status = s.status

section
variable (s : CmdDispatcher)

theorem Silent.refl : Silent s s := ⟨rfl,fun _ from_ below => absurd below (Nat.not_lt.mpr from_),rfl,rfl,.refl _,rfl,rfl⟩

def refusedEx (s : CmdDispatcher) (msg : MsgId) (attr : Option MsgAttr) : MsgEx :=
  let ex := sentEx s {serial:=s.nextSerial} msg attr
  {ex with msg:={ex.msg with fail:=true}}

theorem sentEx_same (s t : CmdDispatcher) (ex : MsgEx) (msg : MsgId) (attr : Option MsgAttr) (status : t.status = s.status)
    (moduleQ : t.moduleQ = s.moduleQ) (bitmap : t.bitmap = s.bitmap) (basemap : t.basemap = s.basemap)
    (cur : getCurCmdReqId t = getCurCmdReqId s) : sentEx t ex msg attr = sentEx s ex msg attr := by
  have own (map : Bitmap) : ownBit t msg.mdlId map = ownBit s msg.mdlId map := by
    unfold ownBit
    rw [bitmap]
  have found : getModuleById t msg.mdlId = getModuleById s msg.mdlId := by
    unfold getModuleById
    rw [status,moduleQ,bitmap]
  unfold sentEx ownEx
  rw [cur,found]
  cases attr with
  | none => simp only [attrEx,setMsgBitmap,own,bitmap]
  | some attr => simp only [attrEx,setMsgBitmap,setMsgCustomBitmap,own,bitmap,basemap]

def popped (s : CmdDispatcher) (i : Nat) (rest : List Nat) : CmdDispatcher :=
  ({s with msgIdleQ:=rest,nextSerial:=s.nextSerial + 1} : CmdDispatcher).setEx i {serial:=s.nextSerial}

theorem sentEx_popped (i : Nat) (rest : List Nat) (msg : MsgId) (attr : Option MsgAttr) :
    sentEx (popped s i rest) ((popped s i rest).msgExPool i) msg attr = sentEx s {serial:=s.nextSerial} msg attr := by
  have mine : (popped s i rest).msgExPool i = {serial:=s.nextSerial} := by simp [popped,CmdDispatcher.setEx]
  rw [mine]
  exact sentEx_same s _ _ msg attr rfl rfl rfl rfl rfl

theorem ownEx_parts (ex : MsgEx) (mdlId : Nat) :
    (ownEx s ex mdlId).msg = ex.msg ∧ (ownEx s ex mdlId).completion = ex.completion ∧ (ownEx s ex mdlId).serial = ex.serial ∧
      (ownEx s ex mdlId).status.notifyComplete = ex.status.notifyComplete ∧ (ownEx s ex mdlId).status.forAbort = ex.status.forAbort := by
  unfold ownEx
  dsimp only
  split
  · exact ⟨rfl,rfl,rfl,rfl,rfl⟩
  · split <;> exact ⟨rfl,rfl,rfl,rfl,rfl⟩

theorem refusedEx_parts (msg : MsgId) (attr : Option MsgAttr) :
    (refusedEx s msg attr).msg = {msg with fail:=true} ∧ (refusedEx s msg attr).completion = MsgAttr.routine attr ∧
      (refusedEx s msg attr).serial = s.nextSerial ∧
      (refusedEx s msg attr).status.notifyComplete = (MsgAttr.routine attr).isSome ∧
      (refusedEx s msg attr).status.forAbort = false := by
  unfold refusedEx sentEx
  obtain ⟨isMsg,isCompletion,isSerial,isNotify,isAbort⟩ :=
    ownEx_parts s (attrEx s (setMsgBitmap s {({serial:=s.nextSerial} : MsgEx) with msg} msg.mdlId) msg.mdlId attr) msg.mdlId
  dsimp only
  rw [isMsg,isCompletion,isSerial,isNotify,isAbort]
  cases attr <;> exact ⟨rfl,rfl,rfl,rfl,rfl⟩

theorem sentEx_ownerReq (n : Nat) (msg : MsgId) (attr : Option MsgAttr) :
    (sentEx s {serial:=n} msg attr).status.ownerReq =
      ((getModuleById s msg.mdlId).isNone &&
        ((getCurCmdReqId s).1 == msg.mdlId || ((getCurCmdReqId s).1 == phlMdlIdMax && lastPermit (getCurCmdReqId s).2))) := by
  have plain : (attrEx s (setMsgBitmap s {({serial:=n} : MsgEx) with msg} msg.mdlId) msg.mdlId attr).status.ownerReq = false := by
    cases attr <;> rfl
  unfold sentEx ownEx
  dsimp only
  cases found : getModuleById s msg.mdlId with
  | some mdl => simpa using plain
  | none =>
    dsimp only
    split
    · rename_i mine
      simpa using mine
    · rename_i other
      rw [plain]
      simpa using other
end

theorem disprSendMsg_late (late : refusedLate s msg attr) (idle : s.msgIdleQ = i :: rest) :
    disprSendMsg s msg attr = (pushBackIdleMsg ((popped s i rest).setEx i (refusedEx s msg attr)) i,.failure,0) := by
  unfold refusedLate at late
  simp only [and_eq_true,not_eq_true',or_eq_true] at late
  obtain ⟨⟨⟨⟨⟨⟨⟨started,good⟩,allowed⟩,_⟩,found⟩,cur⟩,last⟩,unsent⟩ := late
  have taken : popFrontIdleMsg s = some (i,popped s i rest) := by
    unfold popFrontIdleMsg
    rw [idle]
    rfl
  have owner : (sentEx s {serial:=s.nextSerial} msg attr).status.ownerReq := by
    rw [sentEx_ownerReq,found]
    simp only [Bool.true_and,Bool.or_eq_true,Bool.and_eq_true]
    exact cur.imp_right fun isMax => ⟨isMax,last⟩
  have samePermit : lastPermit (getCurCmdReqId (popped s i rest)).2 := last
  unfold disprSendMsg
  rw [started,good,allowed,taken]
  simp only [Bool.not_true,Bool.false_eq_true,if_false,sentEx_popped,owner,samePermit,unsent,Bool.and_self,Bool.not_false,if_true]
  rfl

theorem disprSendMsg_early (other : refusedLate s msg attr = false) (failed : (disprSendMsg s msg attr).2.1 ≠ .success) :
    (disprSendMsg s msg attr).1 = s := by
  unfold disprSendMsg at failed ⊢
  split
  · rfl
  split
  · rfl
  split
  · rfl
  rename_i started good allowed
  rw [if_neg started,if_neg good,if_neg allowed] at failed
  cases idle : s.msgIdleQ with
  | nil => simp [popFrontIdleMsg,idle]
  | cons i rest =>
    have taken : popFrontIdleMsg s = some (i,popped s i rest) := by
      unfold popFrontIdleMsg
      rw [idle]
      rfl
    exfalso
    apply failed
    rw [taken]
    simp only [sentEx_popped,sentEx_ownerReq]
    rw [if_neg]
    intro refused
    have samePermit : getCurCmdReqId (popped s i rest) = getCurCmdReqId s := rfl
    rw [samePermit] at refused
    have late : refusedLate s msg attr := by
      unfold refusedLate
      simp only [and_eq_true,or_eq_true,not_eq_true'] at refused started good allowed ⊢
      obtain ⟨⟨⟨found,cur⟩,last⟩,unsent⟩ := refused
      simp only [not_eq_false,not_eq_true] at started good allowed
      exact ⟨⟨⟨⟨⟨⟨⟨started,good⟩,allowed⟩,by rw [idle]; rfl⟩,found⟩,cur.imp_right And.left⟩,last⟩,unsent⟩
    rw [late] at other
    cases other

theorem refused_parts (s : CmdDispatcher) (msg : MsgId) (attr : Option MsgAttr) (i : Nat) (rest : List Nat) :
    let t := pushBackIdleMsg ((popped s i rest).setEx i (refusedEx s msg attr)) i
    (∃ status, t.log = s.log ++ (MsgAttr.routine attr).toList.map (.complete s.nextSerial) ++ [.recycle s.nextSerial i status]) ∧
      t.msgWaitQ = s.msgWaitQ ∧ t.msgPendQ = s.msgPendQ ∧ t.msgIdleQ = rest ++ [i] ∧ t.nextSerial = s.nextSerial+1 ∧
      t.pendingEvt = (clearPendingEvt s msg).pendingEvt ∧ t.status = s.status := by
  obtain ⟨isMsg,isCompletion,isSerial,isNotify,isAbort⟩ := refusedEx_parts s msg attr
  have mine : ((popped s i rest).setEx i (refusedEx s msg attr)).msgExPool i = refusedEx s msg attr := by simp [CmdDispatcher.setEx]
  generalize refusedEx s msg attr = ex at isMsg isCompletion isSerial isNotify isAbort mine
  generalize isState : (popped s i rest).setEx i ex = u at mine
  have before : u.log = s.log ∧ u.msgWaitQ = s.msgWaitQ ∧ u.msgPendQ = s.msgPendQ ∧ u.msgIdleQ = rest ∧
      u.nextSerial = s.nextSerial+1 ∧ u.pendingEvt = s.pendingEvt ∧ u.status = s.status := by
    rw [← isState]
    exact ⟨rfl,rfl,rfl,rfl,rfl,rfl,rfl⟩
  obtain ⟨log,wait,pend,idle,next,evt,status⟩ := before
  have completed : ∃ (v : CmdDispatcher) (more : List Note), (completeMsg u i).1 = {v with log:=s.log ++ more} ∧
      more = (MsgAttr.routine attr).toList.map (.complete s.nextSerial) ∧
      (v.msgExPool i).msg.mdlId = msg.mdlId ∧ (v.msgExPool i).msg.evtId = msg.evtId ∧
      (v.msgExPool i).serial = s.nextSerial ∧ (v.msgExPool i).status.forAbort = false ∧ v.msgWaitQ = s.msgWaitQ ∧
      v.msgPendQ = s.msgPendQ ∧ v.msgIdleQ = rest ∧ v.nextSerial = s.nextSerial+1 ∧ v.pendingEvt = s.pendingEvt ∧
      v.status = s.status := by
    unfold completeMsg
    dsimp only
    rw [mine,isNotify,isCompletion]
    cases isRoutine : MsgAttr.routine attr with
    | none =>
      refine ⟨u,[],?_,rfl,?_,?_,?_,?_,wait,pend,idle,next,evt,status⟩
      · simp [← log]
      all_goals rw [mine]
      · rw [isMsg]
      · rw [isMsg]
      · exact isSerial
      · exact isAbort
    | some routine =>
      cases isCancel : ex.status.cancel with
      | false =>
        refine ⟨u,[.complete s.nextSerial routine],?_,rfl,?_⟩
        · simp [CmdDispatcher.note,isSerial,log]
        · simp [mine,isMsg,isSerial,isAbort,wait,pend,idle,next,evt,status]
      | true =>
        refine ⟨u.setEx i {ex with msg:={ex.msg with cancel:=true}},[.complete s.nextSerial routine],?_,rfl,?_⟩
        · rw [isRoutine] at isCompletion
          simp [CmdDispatcher.note,CmdDispatcher.setEx,isSerial,isCompletion,log]
        · simp [CmdDispatcher.setEx,isMsg,isSerial,isAbort,wait,pend,idle,next,evt,status]
  obtain ⟨v,more,completed,isMore,mdl,evtId,serial,abort,wait,pend,idle,next,evt,status⟩ := completed
  have told := returnMsg_log {v with log:=s.log ++ more} i
  unfold pushBackIdleMsg
  dsimp only
  rw [completed]
  refine ⟨⟨_,by rw [told,serial,isMore]⟩,?_⟩
  have cleared (w : CmdDispatcher) (m : MsgId) : (clearPendingEvt w m).msgWaitQ = w.msgWaitQ ∧
      (clearPendingEvt w m).msgPendQ = w.msgPendQ ∧ (clearPendingEvt w m).msgIdleQ = w.msgIdleQ ∧
      (clearPendingEvt w m).nextSerial = w.nextSerial ∧ (clearPendingEvt w m).status = w.status := by
    unfold clearPendingEvt
    split <;> exact ⟨rfl,rfl,rfl,rfl,rfl⟩
  obtain ⟨wait',pend',idle',next',status'⟩ := cleared {v with log:=s.log ++ more} (v.msgExPool i).msg
  have evt' : (clearPendingEvt {v with log:=s.log ++ more} (v.msgExPool i).msg).pendingEvt = (clearPendingEvt s msg).pendingEvt := by
    unfold clearPendingEvt
    dsimp only
    rw [evt,mdl,evtId]
    split
    · simp [CmdDispatcher.setPendingEvt]
    · rfl
  unfold returnMsg
  dsimp only [CmdDispatcher.note,CmdDispatcher.setEx]
  rw [abort]
  simp only [false_eq_true,if_false]
  exact ⟨wait'.trans wait,pend'.trans pend,by rw [idle',idle],next'.trans next,evt',status'.trans status⟩

theorem story_same {s t : CmdDispatcher} (same : t.log = s.log) (n : Nat) : story t.log n = story s.log n := by rw [same]

section
variable (s : CmdDispatcher)

theorem story_note (n : Nat) (note : Note) (other : about n note = false) :
    story (s.note note).log n = story s.log n := by
  unfold CmdDispatcher.note
  rw [story_append]
  simp [story,other]

theorem completeMsg_story (i n : Nat) (other : (s.msgExPool i).serial ≠ n) :
    story (completeMsg s i).1.log n = story s.log n ∧ ((completeMsg s i).1.msgExPool i).serial = (s.msgExPool i).serial := by
  obtain ⟨t,_,_,log,serial,quiet | ⟨c,noted⟩⟩ := completeMsg_parts s i
  · rw [quiet]
    exact ⟨story_same log n,serial⟩
  · rw [noted]
    refine ⟨?_,serial⟩
    rw [story_note t n _ (by simpa [about] using other)]
    exact story_same log n

theorem returnMsg_story (i n : Nat) (other : (s.msgExPool i).serial ≠ n) :
    story (returnMsg s i).log n = story s.log n := by
  rw [returnMsg_log,story_append]
  simp [story,about,other]

-- What stays of what was told of the messages numbered so far.
def Older (s t : CmdDispatcher) : Prop := s.nextSerial ≤ t.nextSerial ∧ ∀ n < s.nextSerial, story t.log n = story s.log n
theorem SameMsgs.older (same : SameMsgs s t) : Older s t := ⟨Nat.le_of_eq same.next.symm,fun n _ => same.story n⟩

theorem send_older (msg : MsgId) (attr : Option MsgAttr) : Older s (disprSendMsg s msg attr).1 := by
  rcases disprSendMsg_cases s msg attr with same | ⟨i,rejected⟩ | ⟨i,c,accepted⟩
  · rw [same]
    exact (SameMsgs.refl s).older
  · exact ⟨by rw [rejected.next]; omega,fun n old => rejected.log n (Nat.ne_of_lt old)⟩
  · refine ⟨by rw [accepted.next]; omega,fun n old => ?_⟩
    rw [accepted.log,story_append]
    simp [story,about,Nat.ne_of_gt old]

theorem older_follows : Follows Older where
  calm calm := calm.same.older
  trans one two := ⟨Nat.le_trans one.1 two.1,fun n old => (two.2 n (Nat.lt_of_lt_of_le old one.1)).trans (one.2 n old)⟩
  clrPending s := (sameMsgs_clrPending s).older
  send := send_older
  pushOp s _ _ _ := (sameMsgs_pushOp s _ _ _).older
  goto s pc := (sameMsgs_flows.goto s pc).older
  note _ _ other := (SameMsgs.note other).older
  clearPending s := ⟨Nat.le_of_eq (clearPending_log s).2.symm,fun n _ => story_same (clearPending_log s).1 n⟩

theorem dispatchStep_story (i : Nat) (stage : Stage) (ret : MdlRet) (n : Nat)
    (other : (s.msgExPool i).serial ≠ n) : story (dispatchStep s i stage ret).log n = story s.log n := by
  cases stage with
  | reschedule =>
    unfold dispatchStep pushBackPendingMsg
    dsimp only [CmdDispatcher.goto]
    split
    · split <;> rfl
    · rfl
  | recycle =>
    obtain ⟨called,serial⟩ := completeMsg_story s i n other
    unfold dispatchStep
    dsimp only
    split
    · exact called
    · exact (returnMsg_story _ i n (serial ▸ other)).trans called
  | completing => exact returnMsg_story s i n other
  | _ => exact (sameMsgs_flows.dispatchStep s i _ ret rfl).story n
end

theorem thread_story (kept : KeptAt s) (ret : MdlRet) (told : story s.log n ≠ [])
    (unsent : ∀ i c, Note.accept n i c ∉ s.log) : story (threadStep s ret).log n = story s.log n := by
  have old : n < s.nextSerial := by
    by_contra late
    exact told (kept.unborn n (Nat.not_lt.mp late))
  rcases early_cases s.pc with isEarly | isPc | isPc | ⟨i,stage,isPc⟩
  · exact (older_follows.thread s ret isEarly fun _ _ _ => ⟨Nat.le_refl _,fun _ _ => rfl⟩).2 n old
  · rw [threadStep_wait isPc]
    split
    · rfl
    · exact story_same (clearPending_log {s with msgQSema:=s.msgQSema - 1}).1 n
  · rw [threadStep_fetch isPc]
    unfold popFrontWaitMsg
    cases s.msgWaitQ <;> rfl
  · -- What the thread holds was accepted, so it is another message.
    have held : i ∈ (heldBy s.pc).toList := by
      rw [isPc]
      exact mem_cons_self
    obtain ⟨_,accepted⟩ := kept.loads i (kept.small held) (kept.notIdle held) _ rfl
    rw [threadStep_held isPc]
    refine dispatchStep_story s i stage ret n fun same => unsent i (s.msgExPool i).completion ?_
    have member : Note.accept n i (s.msgExPool i).completion ∈ story s.log n := by
      rw [← same]
      exact accepted ▸ mem_cons_self
    exact (mem_filter.mp member).1

theorem step_story (kept : KeptAt s) (told : story s.log n ≠ []) (unsent : ∀ i c, Note.accept n i c ∉ s.log) (event : Event) :
    story (step s event).log n = story s.log n := by
  have old : n < s.nextSerial := by
    by_contra late
    exact told (kept.unborn n (Nat.not_lt.mp late))
  by_cases isThread : ∃ ret, event = .thread ret
  · obtain ⟨ret,rfl⟩ := isThread
    exact thread_story kept ret told unsent
  · exact (older_follows.step s event fun ret same => isThread ⟨ret,same⟩).2 n old

theorem story_settled (path : Reached step (fun _ _ => True) t u) (kept : KeptAt t) (told : story t.log n ≠ [])
    (unsent : ∀ i c, Note.accept n i c ∉ story t.log n) : story u.log n = story t.log n := by
  have all := path.invariant (fun u => KeptAt u ∧ story u.log n = story t.log n) ⟨kept,rfl⟩ fun u event settled _ => by
    obtain ⟨keptU,same⟩ := settled
    refine ⟨keptU.step event,(step_story keptU (same ▸ told) (fun i c member => unsent i c ?_) event).trans same⟩
    rw [← same]
    exact mem_filter.mpr ⟨member,by simp [about]⟩
  exact all.2

theorem refused_story {s t : CmdDispatcher} (kept : KeptAt s) (attr : Option MsgAttr)
    (log : t.log = s.log ++ (MsgAttr.routine attr).toList.map (.complete s.nextSerial) ++ [.recycle s.nextSerial i status]) :
    story t.log s.nextSerial = (MsgAttr.routine attr).toList.map (.complete s.nextSerial) ++ [.recycle s.nextSerial i status] := by
  rw [log,append_assoc,story_append,kept.unborn s.nextSerial (Nat.le_refl _)]
  cases MsgAttr.routine attr <;> simp [story,about]

-- A send that fails leaves no trace but when it is refused late, and then only
-- when no routine came with it and its event is not the one that is pending.
theorem failed_send_silent (path : Reached step (fun _ _ => True) (disprStart moduleQ bitmap basemap ctrlPresent) s) (msg : MsgId)
    (attr : Option MsgAttr) :
    ((disprSendMsg s msg attr).2.1 ≠ .success → Silent s (disprSendMsg s msg attr).1) ↔
      ¬(refusedLate s msg attr = true ∧
        ((MsgAttr.routine attr).isSome = true ∨ (s.pendingEvt msg.mdlId = msg.evtId ∧ msg.evtId ≠ msgEvtMax))) := by
  have kept := reached_kept path
  cases late : refusedLate s msg attr with
  | false =>
    refine ⟨fun _ => by simp,fun _ failed => ?_⟩
    rw [disprSendMsg_early late failed]
    exact .refl s
  | true =>
    obtain ⟨i,rest,idle⟩ : ∃ i rest, s.msgIdleQ = i :: rest := by
      cases isIdle : s.msgIdleQ with
      | nil => simp [refusedLate,isIdle] at late
      | cons i rest => exact ⟨i,rest,rfl⟩
    have keptT : KeptAt (disprSendMsg s msg attr).1 := kept.step (.send msg attr)
    rw [disprSendMsg_late late idle] at keptT ⊢
    have parts := refused_parts s msg attr i rest
    generalize pushBackIdleMsg ((popped s i rest).setEx i (refusedEx s msg attr)) i = t at parts keptT ⊢
    obtain ⟨⟨status,log⟩,wait,pend,idle',next,evt,status'⟩ := parts
    have told := refused_story kept attr log
    have cleared : t.pendingEvt = s.pendingEvt ↔ ¬(s.pendingEvt msg.mdlId = msg.evtId ∧ msg.evtId ≠ msgEvtMax) := by
      rw [evt]
      unfold clearPendingEvt
      split
      · rename_i isEvt
        dsimp only [CmdDispatcher.setPendingEvt]
        rw [← isEvt]
        constructor
        · rintro same ⟨_,other⟩
          apply other
          rw [← same]
          simp
        · intro isMax
          have isMax' : s.pendingEvt msg.mdlId = msgEvtMax := by simpa using isMax
          rw [← isMax']
          exact Function.update_eq_self _ _
      · rename_i other
        exact iff_of_true rfl fun both => other both.1
    constructor
    · rintro silent ⟨_,routine | both⟩
      · obtain ⟨c,isRoutine⟩ := Option.isSome_iff_exists.mp routine
        have called := (silent (by simp)).notCalled
        rw [log,isRoutine] at called
        simp [toModule] at called
      · exact cleared.mp (silent (by simp)).pendingEvt both
    · intro harmless _
      have none_ : MsgAttr.routine attr = none := by
        by_contra some_
        exact harmless ⟨rfl,.inl (Option.isSome_iff_ne_none.mpr some_)⟩
      rw [none_] at log told
      refine ⟨?_,?_,wait,pend,?_,cleared.mpr fun both => harmless ⟨rfl,.inr both⟩,status'⟩
      · rw [log]
        simp [toModule]
      · intro n from_ below u onward c called
        have isNow : n = s.nextSerial := by
          dsimp only at below
          omega
        subst isNow
        have settled := story_settled onward keptT (n := s.nextSerial) (by rw [told]; simp) (by rw [told]; simp)
        have member : Note.complete s.nextSerial c ∈ story u.log s.nextSerial := mem_filter.mpr ⟨called,by simp [about]⟩
        rw [settled,told] at member
        simp at member
      · rw [idle',idle]
        exact perm_append_singleton i rest

def abortedRun : List Event :=
  .addTokenReq ⟨phlFgMdlStart,true⟩ :: replicate 4 (.thread .success) ++
    [.cancelTokenReq (genValidHdl 0),.thread .success]

theorem failed_send_silent_aborted :
    let s := run step (disprStart powerMgntQ powerMgntMap powerMgntMap true) abortedRun
    let sent := disprSendMsg s {mdlId := phlFgMdlStart,evtId := 7} (some {completion := some 5})
    Reached step (fun _ _ => True) (disprStart powerMgntQ powerMgntMap powerMgntMap true) s ∧ s.pc = .abortCurrent (.free 0) ∧
      sent.2.1 = .failure ∧ Note.complete s.nextSerial 5 ∈ sent.1.log ∧ ¬Silent s sent.1 := by
  have admitted : Admitted step (fun _ _ => True) (disprStart powerMgntQ powerMgntMap powerMgntMap true) abortedRun := by
    decide +kernel
  have called : Note.complete (run step (disprStart powerMgntQ powerMgntMap powerMgntMap true) abortedRun).nextSerial 5 ∈
      (disprSendMsg (run step (disprStart powerMgntQ powerMgntMap powerMgntMap true) abortedRun)
        {mdlId := phlFgMdlStart,evtId := 7} (some {completion := some 5})).1.log.filter toModule := by decide +kernel
  have quiet : (run step (disprStart powerMgntQ powerMgntMap powerMgntMap true) abortedRun).log.filter toModule = [] := by
    decide +kernel
  refine ⟨Reached.start.run admitted,by decide +kernel,by decide +kernel,(mem_filter.mp called).1,fun silent => ?_⟩
  rw [silent.notCalled,quiet] at called
  exact nomatch called

theorem failed_send_silent_plain :
    let s := run step (disprStart powerMgntQ powerMgntMap powerMgntMap true) abortedRun
    (disprSendMsg s {mdlId := phlFgMdlStart,evtId := 7} none).2.1 = .failure ∧
      Silent s (disprSendMsg s {mdlId := phlFgMdlStart,evtId := 7} none).1 := by
  have admitted : Admitted step (fun _ _ => True) (disprStart powerMgntQ powerMgntMap powerMgntMap true) abortedRun := by
    decide +kernel
  have failed : (disprSendMsg (run step (disprStart powerMgntQ powerMgntMap powerMgntMap true) abortedRun)
      {mdlId := phlFgMdlStart,evtId := 7} none).2.1 = .failure := by decide +kernel
  refine ⟨failed,(failed_send_silent (Reached.start.run admitted) {mdlId := phlFgMdlStart,evtId := 7} none).mpr ?_ ?_⟩
  · decide +kernel
  · rw [failed]
    decide
end Rtl8852au.Dispr
