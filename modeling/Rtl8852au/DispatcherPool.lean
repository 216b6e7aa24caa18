import Mathlib.Data.List.Basic
import Rtl8852au.DispatcherFlow

namespace Rtl8852au.Dispr
open Machine List Function

def about (n : Nat) : Note → Bool
  | .accept m _ _ | .complete m _ | .recycle m _ _ => m == n
  | _ => false

def story (log : List Note) (n : Nat) : List Note := log.filter (about n)

theorem story_append (log more : List Note) (n : Nat) : story (log ++ more) n = story log n ++ story more n := filter_append ..

def called (done : Option Nat) (i : Nat) (load : Load) : List Note :=
  if done = some i then load.completion.toList.map (.complete load.serial) else []

structure Kept (s : CmdDispatcher) (hands : List Nat) (done : Option Nat) : Prop where
  places : ∀ i, s.msgIdleQ.count i + s.msgWaitQ.count i + s.msgPendQ.count i + hands.count i =
    if i < maxPhlMsgNum then 1 else 0
  loads : ∀ i < maxPhlMsgNum, i ∉ s.msgIdleQ → ∀ load, load = (s.msgExPool i).load →
    load.notifies = load.completion.isSome ∧
      story s.log load.serial = .accept load.serial i load.completion :: called done i load
  unborn : ∀ n, s.nextSerial ≤ n → story s.log n = []
  told : ∀ n i c, Note.accept n i c ∈ s.log →
    (i < maxPhlMsgNum ∧ i ∉ s.msgIdleQ ∧ (s.msgExPool i).load = ⟨n,c,c.isSome⟩) ∨
      ∃ status, story s.log n = .accept n i c :: c.toList.map (.complete n) ++ [.recycle n i status]
  doneHeld : ∀ i, done = some i → i ∈ hands ∧ (s.msgExPool i).completion.isSome

structure SameMsgs (s s' : CmdDispatcher) : Prop where
  idle : s'.msgIdleQ = s.msgIdleQ
  wait : s'.msgWaitQ = s.msgWaitQ
  pend : s'.msgPendQ = s.msgPendQ
  next : s'.nextSerial = s.nextSerial
  load : ∀ i, (s'.msgExPool i).load = (s.msgExPool i).load
  log : s'.log.filter isStory = s.log.filter isStory

theorem story_isStory (log : List Note) (n : Nat) : story (log.filter isStory) n = story log n := by
  unfold story
  rw [filter_filter]
  congr 1
  funext note
  cases note <;> simp [about,isStory]

theorem SameMsgs.story (same : SameMsgs s s') (n : Nat) : story s'.log n = story s.log n := by
  rw [← story_isStory,same.log,story_isStory]

theorem SameMsgs.accepted (same : SameMsgs s s') (member : Note.accept n i c ∈ s'.log) : Note.accept n i c ∈ s.log := by
  have now : Note.accept n i c ∈ s'.log.filter isStory := mem_filter.mpr ⟨member,rfl⟩
  rw [same.log] at now
  exact (mem_filter.mp now).1

theorem SameMsgs.refl (s : CmdDispatcher) : SameMsgs s s := ⟨rfl,rfl,rfl,rfl,fun _ => rfl,rfl⟩

theorem SameMsgs.trans (first : SameMsgs s t) (second : SameMsgs t u) : SameMsgs s u :=
  ⟨second.idle.trans first.idle,second.wait.trans first.wait,second.pend.trans first.pend,second.next.trans first.next,
    fun i => (second.load i).trans (first.load i),second.log.trans first.log⟩

theorem Kept.same (kept : Kept s hands done) (same : SameMsgs s s') : Kept s' hands done := by
  refine ⟨?_,?_,?_,?_,?_⟩
  · rw [same.idle,same.wait,same.pend]
    exact kept.places
  · intro i small out load isLoad
    rw [same.idle] at out
    rw [same.story]
    exact kept.loads i small out load (isLoad.trans (same.load i))
  · intro n next
    rw [same.story]
    exact kept.unborn n (same.next ▸ next)
  · intro n i c accepted
    rw [same.idle,same.story,same.load]
    exact kept.told n i c (same.accepted accepted)
  · intro i isDone
    have completion : (s'.msgExPool i).completion = (s.msgExPool i).completion := congrArg Load.completion (same.load i)
    rw [completion]
    exact kept.doneHeld i isDone

section
variable (kept : Kept s hands done)
include kept

theorem Kept.small (held : i ∈ hands) : i < maxPhlMsgNum := by
  have place := kept.places i
  have here := count_pos_iff.mpr held
  split at place
  · assumption
  · omega

theorem Kept.notIdle (held : i ∈ hands) : i ∉ s.msgIdleQ := by
  intro idle
  have place := kept.places i
  have here := count_pos_iff.mpr held
  have there := count_pos_iff.mpr idle
  split at place <;> omega

theorem Kept.carrier (small : i < maxPhlMsgNum) (out : i ∉ s.msgIdleQ) (small' : j < maxPhlMsgNum)
    (out' : j ∉ s.msgIdleQ) (same : (s.msgExPool i).serial = (s.msgExPool j).serial) : i = j := by
  have one := (kept.loads i small out _ rfl).2
  have two := (kept.loads j small' out' _ rfl).2
  have serial : (s.msgExPool i).load.serial = (s.msgExPool j).load.serial := same
  rw [serial,two] at one
  injection one with first
  injection first with _ same
  exact same.symm

theorem Kept.born (small : i < maxPhlMsgNum) (out : i ∉ s.msgIdleQ) :
    (s.msgExPool i).serial < s.nextSerial := by
  rcases Nat.lt_or_ge (s.msgExPool i).serial s.nextSerial with less | more
  · exact less
  · have told := (kept.loads i small out _ rfl).2
    have none := kept.unborn _ more
    have serial : (s.msgExPool i).load.serial = (s.msgExPool i).serial := rfl
    rw [serial,none] at told
    exact nomatch told
end

theorem SameMsgs.note (other : isStory n = false) : SameMsgs s (s.note n) := by
  refine ⟨rfl,rfl,rfl,rfl,fun _ => rfl,?_⟩
  unfold CmdDispatcher.note
  simp [filter_append,other]

theorem SameMsgs.setEx (same : ex.load = (s.msgExPool i).load) : SameMsgs s (s.setEx i ex) := by
  refine ⟨rfl,rfl,rfl,rfl,?_,rfl⟩
  intro j
  unfold CmdDispatcher.setEx
  by_cases here : j = i
  · subst here
    simpa using same
  · simp [here]

section
variable (s : CmdDispatcher)

theorem sameMsgs_setOpInfo (node : OpNode) (info : TokenOpInfo) : SameMsgs s (setOpInfo s node info) := by
  cases node <;> exact ⟨rfl,rfl,rfl,rfl,fun _ => rfl,rfl⟩

theorem sameMsgs_pushOp (node : OpNode) (type : OpType) (data : Nat) :
    SameMsgs s (pushBackTokenOpInfo s node type data).1 := by
  unfold pushBackTokenOpInfo
  split
  · exact .refl s
  · exact (sameMsgs_setOpInfo s node _).trans ⟨rfl,rfl,rfl,rfl,fun _ => rfl,rfl⟩

theorem sameMsgs_abortComplete : SameMsgs s (onAbortMsgComplete s) := by
  have flag : SameMsgs s {s with status:={s.status with waitAbortMsgDone:=false}} := ⟨rfl,rfl,rfl,rfl,fun _ => rfl,rfl⟩
  exact flag.trans (sameMsgs_pushOp _ _ _ _)

theorem sameMsgs_clearEvt (msg : MsgId) : SameMsgs s (clearPendingEvt s msg) := by
  unfold clearPendingEvt
  split
  · exact ⟨rfl,rfl,rfl,rfl,fun _ => rfl,rfl⟩
  · exact .refl s
end

theorem Hushed.same (calm : Hushed s t) : SameMsgs s t :=
  ⟨calm.idle,calm.wait,calm.pend,calm.next,fun i => (calm.ex i).load,by rw [calm.log]⟩

theorem sameMsgs_flows : Flows SameMsgs where
  refl := .refl
  trans := .trans
  mild _ _ _ mild := .setEx mild.load
  goto _ _ := ⟨rfl,rfl,rfl,rfl,fun _ => rfl,rfl⟩
  note _ _ other _ := .note other

theorem Kept.moved (kept : Kept s hands done) (idle : s'.msgIdleQ = s.msgIdleQ)
    (places : ∀ i, s'.msgWaitQ.count i + s'.msgPendQ.count i + hands'.count i =
      s.msgWaitQ.count i + s.msgPendQ.count i + hands.count i)
    (next : s'.nextSerial = s.nextSerial) (load : ∀ i, (s'.msgExPool i).load = (s.msgExPool i).load) (log : s'.log = s.log)
    (doneHeld : ∀ i, done = some i → i ∈ hands') : Kept s' hands' done := by
  refine ⟨?_,?_,?_,?_,?_⟩
  · intro i
    have before := kept.places i
    have now := places i
    rw [idle]
    omega
  · intro i small out l isLoad
    rw [idle] at out
    rw [log]
    exact kept.loads i small out l (isLoad.trans (load i))
  · rw [log,next]
    exact kept.unborn
  · intro n i c accepted
    rw [log] at accepted
    rw [idle,log,load]
    exact kept.told n i c accepted
  · intro i isDone
    have completion : (s'.msgExPool i).completion = (s.msgExPool i).completion := congrArg Load.completion (load i)
    rw [completion]
    exact ⟨doneHeld i isDone,(kept.doneHeld i isDone).2⟩

section
variable (s : CmdDispatcher)

theorem load_setEx (same : ex.load = (s.msgExPool i).load) (j : Nat) :
    ((s.setEx i ex).msgExPool j).load = (s.msgExPool j).load := (SameMsgs.setEx same).load j

theorem pqInsert_count (before : Nat → Bool) (i : Nat) (queue : List Nat) (j : Nat) :
    (pqInsert before i queue).count j = queue.count j + [i].count j := by
  induction queue with
  | nil => simp [pqInsert]
  | cons head rest ih =>
    unfold pqInsert
    split
    · simp [count_cons]
    · simp only [count_cons,count_nil] at ih ⊢
      omega

structure Queued (s s' : CmdDispatcher) (i : Nat) : Prop where
  idle : s'.msgIdleQ = s.msgIdleQ
  wait : ∀ j, s'.msgWaitQ.count j = s.msgWaitQ.count j + [i].count j
  pend : s'.msgPendQ = s.msgPendQ
  next : s'.nextSerial = s.nextSerial
  load : ∀ j, (s'.msgExPool j).load = (s.msgExPool j).load
  log : s'.log = s.log
  pc : s'.pc = s.pc

theorem queued_push (i : Nat) : Queued s (pushBackWaitMsg s i) i := by
  refine ⟨rfl,?_,rfl,rfl,load_setEx s rfl,rfl,rfl⟩
  intro j
  exact count_append

theorem queued_insert (i : Nat) : Queued s (insertMsgByPriority s i) i :=
  ⟨rfl,fun j => pqInsert_count _ i _ j,rfl,rfl,load_setEx s rfl,rfl,rfl⟩

theorem queued_requeue (i : Nat) : Queued s (requeueMsg s i) i := by
  unfold requeueMsg
  split
  · exact queued_insert s i
  · exact queued_push s i

theorem queued_queueMsg (i mdlId : Nat) : Queued s (queueMsg s i mdlId) i := by
  unfold queueMsg
  split
  · exact queued_insert s i
  · exact queued_push s i
end

theorem Kept.queued (kept : Kept s (i :: hands) done) (other : done ≠ some i) (queued : Queued s s' i) : Kept s' hands done := by
  refine kept.moved queued.idle ?_ queued.next queued.load queued.log ?_
  · intro j
    have wait := queued.wait j
    simp only [count_cons,count_nil] at wait ⊢
    rw [queued.pend]
    omega
  · intro j isDone
    rcases mem_cons.mp (kept.doneHeld j isDone).1 with rfl | held
    · exact absurd isDone other
    · exact held

theorem Kept.requeued (kept : Kept s (queue ++ hands) done) (other : ∀ i ∈ queue, done ≠ some i) :
    Kept (queue.foldl requeueMsg s) hands done := by
  induction queue generalizing s with
  | nil => exact kept
  | cons i rest ih =>
    rw [foldl_cons]
    exact ih (Kept.queued kept (other i mem_cons_self) (queued_requeue s i)) fun j member => other j (mem_cons_of_mem _ member)

theorem Kept.notDone (kept : Kept s hands done) (pending : i ∈ s.msgPendQ) : done ≠ some i := by
  intro isDone
  have place := kept.places i
  have here := count_pos_iff.mpr (kept.doneHeld i isDone).1
  have there := count_pos_iff.mpr pending
  split at place <;> omega

theorem Kept.clearPending (kept : Kept s hands done) : Kept (clearPendingMsg s) hands done := by
  unfold clearPendingMsg
  split
  · refine Kept.requeued ?_ fun i pending => kept.notDone pending
    refine kept.moved rfl ?_ rfl (fun _ => rfl) rfl ?_
    · intro j
      simp only [count_append,count_nil]
      omega
    · intro i isDone
      exact mem_append_right _ (kept.doneHeld i isDone).1
  · exact kept

theorem Kept.pushPending (kept : Kept s [i] none) : Kept (pushBackPendingMsg s i) [] none := by
  unfold pushBackPendingMsg
  have moved : ∀ t, SameMsgs s t → Kept {t with msgPendQ:=t.msgPendQ ++ [i]} [] none := by
    intro t same
    refine (kept.same same).moved rfl ?_ rfl (fun _ => rfl) rfl (by simp)
    intro j
    simp only [count_append,count_nil]
    omega
  refine moved _ ?_
  have queued : SameMsgs s (s.setEx i (enqueued (s.msgExPool i))) := .setEx rfl
  split
  · exact queued.trans ⟨rfl,rfl,rfl,rfl,fun _ => rfl,rfl⟩
  · exact queued

theorem Kept.popWait (kept : Kept s [] none) (popped : popFrontWaitMsg s = some (i,s')) : Kept s' [i] none := by
  unfold popFrontWaitMsg at popped
  split at popped
  · exact nomatch popped
  · rename_i j rest queue
    simp only [Option.some.injEq,Prod.mk.injEq] at popped
    obtain ⟨rfl,rfl⟩ := popped
    refine kept.moved rfl ?_ rfl (load_setEx {s with msgWaitQ:=rest} rfl) rfl (by simp)
    intro k
    have wait : s.msgWaitQ.count k = rest.count k + [j].count k := by
      rw [queue]
      simp [count_cons]
    have rest' : ((({s with msgWaitQ:=rest} : CmdDispatcher).setEx j
      {s.msgExPool j with status:={(s.msgExPool j).status with run:=true,enq:=false,pending:=false}}).msgWaitQ) = rest := rfl
    have pend : ((({s with msgWaitQ:=rest} : CmdDispatcher).setEx j
      {s.msgExPool j with status:={(s.msgExPool j).status with run:=true,enq:=false,pending:=false}}).msgPendQ) = s.msgPendQ := rfl
    rw [rest',pend,wait]
    simp only [count_nil]
    omega

theorem completeMsg_cases (kept : Kept s [i] none) :
    ((s.msgExPool i).completion = none ∧ completeMsg s i = (s,false)) ∨
      ∃ c t, (s.msgExPool i).completion = some c ∧ SameMsgs s t ∧
        completeMsg s i = (t.note (.complete (s.msgExPool i).serial c),true) := by
  have notifies := (kept.loads i (kept.small (by simp)) (kept.notIdle (by simp)) _ rfl).1
  have flag : (s.msgExPool i).status.notifyComplete = (s.msgExPool i).completion.isSome := notifies
  unfold completeMsg
  cases isRoutine : (s.msgExPool i).completion with
  | none =>
    left
    rw [isRoutine] at flag
    simp [isRoutine,flag]
  | some c =>
    right
    rw [isRoutine] at flag
    refine ⟨c,if (s.msgExPool i).status.cancel then
      s.setEx i {s.msgExPool i with msg:={(s.msgExPool i).msg with cancel:=true}} else s,rfl,?_,?_⟩
    · split
      · exact .setEx rfl
      · exact .refl s
    · simp [isRoutine,flag]

theorem Kept.complete (kept : Kept s [i] none) (routine : (s.msgExPool i).completion = some c) (same : SameMsgs s t) :
    Kept (t.note (.complete (s.msgExPool i).serial c)) [i] (some i) := by
  have small := kept.small (i := i) (by simp)
  have out := kept.notIdle (i := i) (by simp)
  have now := kept.same same
  have serial : (t.msgExPool i).serial = (s.msgExPool i).serial := congrArg Load.serial (same.load i)
  have completion : (t.msgExPool i).completion = some c := (congrArg Load.completion (same.load i)).trans routine
  have out' : i ∉ t.msgIdleQ := same.idle ▸ out
  rw [← serial]
  have log : ∀ n, story (t.note (.complete (t.msgExPool i).serial c)).log n =
      story t.log n ++ if (t.msgExPool i).serial = n then [.complete (t.msgExPool i).serial c] else [] := by
    intro n
    unfold CmdDispatcher.note
    rw [story_append]
    congr 1
    by_cases same : (t.msgExPool i).serial = n <;> simp [story,about,same]
  refine ⟨now.places,?_,?_,?_,?_⟩
  · intro j small' outJ load isLoad
    obtain ⟨notifies,told⟩ := now.loads j small' outJ load isLoad
    refine ⟨notifies,?_⟩
    rw [log,told]
    by_cases here : j = i
    · subst here
      have isSerial : load.serial = (t.msgExPool j).serial := congrArg Load.serial isLoad
      have isCompletion : load.completion = some c := (congrArg Load.completion isLoad).trans completion
      simp [called,isSerial,isCompletion]
    · have other : (t.msgExPool i).serial ≠ load.serial := by
        intro same
        exact here (now.carrier small' outJ small out' (by rw [same,isLoad]; rfl))
      simp [called,other,Ne.symm here]
  · intro n next
    rw [log,now.unborn n next]
    have born := now.born small out'
    have fresh : (t.msgExPool i).serial ≠ n := by
      intro same
      have next' : t.nextSerial ≤ n := next
      omega
    simp [fresh]
  · intro n j d accepted
    have before : Note.accept n j d ∈ t.log := by
      rcases mem_append.mp accepted with before | now
      · exact before
      · simp at now
    rcases now.told n j d before with out | ⟨status,finished⟩
    · exact .inl out
    · refine .inr ⟨status,?_⟩
      have other : (t.msgExPool i).serial ≠ n := by
        intro same
        have told := (now.loads i small out' _ rfl).2
        have isSerial : (t.msgExPool i).load.serial = n := same
        rw [isSerial,finished] at told
        simp [called] at told
      rw [log,finished]
      simp [other]
  · intro j isDone
    injection isDone with isI
    subst isI
    exact ⟨by simp,by
      have noted : (t.note (.complete (t.msgExPool i).serial c)).msgExPool = t.msgExPool := rfl
      rw [noted,completion]
      rfl⟩

theorem returnMsg_parts (s : CmdDispatcher) (i : Nat) :
    ∃ t, SameMsgs s t ∧ returnMsg s i = {t.setEx i {s.msgExPool i with status:={},msg:={}} with
      msgIdleQ := t.msgIdleQ ++ [i]}.note (.recycle (s.msgExPool i).serial i (s.msgExPool i).status) := by
  refine ⟨clearPendingEvt (if (s.msgExPool i).status.forAbort then onAbortMsgComplete s else s) (s.msgExPool i).msg,?_,rfl⟩
  refine .trans ?_ (sameMsgs_clearEvt _ _)
  split
  · exact sameMsgs_abortComplete s
  · exact .refl s

theorem Kept.returned (kept : Kept s [i] done) (called : done = some i ∨ (s.msgExPool i).completion = none) :
    Kept (returnMsg s i) [] none := by
  obtain ⟨t,same,parts⟩ := returnMsg_parts s i
  have small := kept.small (i := i) (by simp)
  have out := kept.notIdle (i := i) (by simp)
  have now := kept.same same
  have serial : (s.msgExPool i).serial = (t.msgExPool i).serial := (congrArg Load.serial (same.load i)).symm
  have completion : (s.msgExPool i).completion = (t.msgExPool i).completion := (congrArg Load.completion (same.load i)).symm
  have out' : i ∉ t.msgIdleQ := same.idle ▸ out
  have mine := (now.loads i small out' _ rfl).2
  rw [serial] at parts
  rw [completion] at called
  generalize (s.msgExPool i).status = status at parts
  have idle : (returnMsg s i).msgIdleQ = t.msgIdleQ ++ [i] := by rw [parts]; rfl
  have log : ∀ n, story (returnMsg s i).log n =
      story t.log n ++ if (t.msgExPool i).serial = n then [.recycle (t.msgExPool i).serial i status] else [] := by
    intro n
    rw [parts]
    unfold CmdDispatcher.note
    rw [story_append]
    congr 1
    by_cases same : (t.msgExPool i).serial = n <;> simp [story,about,same]
  have others : ∀ j, j ≠ i → (returnMsg s i).msgExPool j = t.msgExPool j := by
    intro j other
    rw [parts]
    unfold CmdDispatcher.note CmdDispatcher.setEx
    simp [other]
  refine ⟨?_,?_,?_,?_,by simp⟩
  · intro j
    have place := now.places j
    have wait : (returnMsg s i).msgWaitQ = t.msgWaitQ := by rw [parts]; rfl
    have pend : (returnMsg s i).msgPendQ = t.msgPendQ := by rw [parts]; rfl
    rw [idle,wait,pend]
    simp only [count_append,count_nil]
    omega
  · intro j small' outJ load isLoad
    rw [idle] at outJ
    have other : j ≠ i := fun same => outJ (same ▸ mem_append_right _ (by simp))
    have outJ' : j ∉ t.msgIdleQ := fun member => outJ (mem_append_left _ member)
    rw [others j other] at isLoad
    obtain ⟨notifies,told⟩ := now.loads j small' outJ' load isLoad
    refine ⟨notifies,?_⟩
    have fresh : (t.msgExPool i).serial ≠ load.serial := by
      intro same
      exact other (now.carrier small' outJ' small out' (by rw [same,isLoad]; rfl))
    have notDone : done ≠ some j := by
      intro isDone
      have held := (now.doneHeld j isDone).1
      exact other (by simpa using held)
    rw [log,told]
    simp [Dispr.called,fresh,notDone]
  · intro n next
    have next' : t.nextSerial ≤ n := by rw [parts] at next; exact next
    have born := now.born small out'
    have fresh : (t.msgExPool i).serial ≠ n := by omega
    rw [log,now.unborn n next']
    simp [fresh]
  · intro n j d accepted
    have before : Note.accept n j d ∈ t.log := by
      rw [parts] at accepted
      rcases mem_append.mp accepted with before | now
      · exact before
      · simp at now
    rcases now.told n j d before with ⟨small',outJ,load⟩ | ⟨status',finished⟩
    · by_cases here : j = i
      · subst here
        right
        have isSerial : (t.msgExPool j).serial = n := congrArg Load.serial load
        have isCompletion : (t.msgExPool j).completion = d := congrArg Load.completion load
        have all : Dispr.called done j ⟨n,d,d.isSome⟩ = d.toList.map (.complete n) := by
          unfold Dispr.called
          rcases called with isDone | none
          · rw [if_pos isDone]
          · rw [isCompletion] at none
            subst none
            split <;> rfl
        refine ⟨status,?_⟩
        have told := (now.loads j small' outJ _ rfl).2
        rw [load,all] at told
        rw [log,told,if_pos isSerial,isSerial]
      · left
        refine ⟨small',?_,?_⟩
        · rw [idle]
          simp [outJ,here]
        · rw [others j here]
          exact load
    · right
      refine ⟨status',?_⟩
      have fresh : (t.msgExPool i).serial ≠ n := by
        intro same
        have isSerial : (t.msgExPool i).load.serial = n := same
        rw [isSerial,finished] at mine
        injection mine with first rest
        have back : Note.recycle n j status' ∈ Dispr.called done i (t.msgExPool i).load := by
          rw [← rest]
          simp
        unfold Dispr.called at back
        split at back <;> simp at back
      rw [log,finished]
      simp [fresh]

structure Accepted (s s' : CmdDispatcher) (i : Nat) (c : Option Nat) : Prop where
  idle : s.msgIdleQ = i :: s'.msgIdleQ
  wait : ∀ j, s'.msgWaitQ.count j = s.msgWaitQ.count j + [i].count j
  pend : s'.msgPendQ = s.msgPendQ
  next : s'.nextSerial = s.nextSerial+1
  others : ∀ j, j ≠ i → (s'.msgExPool j).load = (s.msgExPool j).load
  load : (s'.msgExPool i).load = ⟨s.nextSerial,c,c.isSome⟩
  log : s'.log = s.log ++ [.accept s.nextSerial i c]
  pc : s'.pc = s.pc

structure Rejected (s s' : CmdDispatcher) (i : Nat) : Prop where
  idle : ∀ j, s'.msgIdleQ.count j = s.msgIdleQ.count j
  head : i ∈ s.msgIdleQ
  wait : s'.msgWaitQ = s.msgWaitQ
  pend : s'.msgPendQ = s.msgPendQ
  next : s'.nextSerial = s.nextSerial+1
  others : ∀ j, j ≠ i → (s'.msgExPool j).load = (s.msgExPool j).load
  log : ∀ n, n ≠ s.nextSerial → story s'.log n = story s.log n
  accepts : ∀ n j c, Note.accept n j c ∈ s'.log → Note.accept n j c ∈ s.log
  pc : s'.pc = s.pc
  grows : s.log <+: s'.log

section
variable (s : CmdDispatcher)

theorem sentEx_load (ex : MsgEx) (msg : MsgId) (attr : Option MsgAttr) (fresh : ex.load = ⟨n,none,false⟩) :
    ∃ c, (sentEx s ex msg attr).load = ⟨n,c,c.isSome⟩ := by
  have own (ex : MsgEx) : (ownEx s ex msg.mdlId).load = ex.load := by
    unfold ownEx
    dsimp only
    split
    · rfl
    · split <;> rfl
  unfold sentEx
  rw [own]
  cases attr with
  | none => exact ⟨none,fresh⟩
  | some attr =>
    refine ⟨attr.completion,?_⟩
    have serial : ex.serial = n := congrArg Load.serial fresh
    rw [← serial]
    rfl

theorem returnMsg_pc (i : Nat) : (returnMsg s i).pc = s.pc := by
  have op (s : CmdDispatcher) : (onAbortMsgComplete s).pc = s.pc := by
    unfold onAbortMsgComplete pushBackTokenOpInfo
    dsimp only
    split <;> rfl
  have evt (s : CmdDispatcher) (msg : MsgId) : (clearPendingEvt s msg).pc = s.pc := by
    unfold clearPendingEvt
    split <;> rfl
  unfold returnMsg
  dsimp only [CmdDispatcher.note,CmdDispatcher.setEx]
  rw [evt]
  split
  · exact op s
  · rfl

theorem pushOp_log (node : OpNode) (type : OpType) (data : Nat) :
    (pushBackTokenOpInfo s node type data).1.log = s.log := by
  unfold pushBackTokenOpInfo
  split
  · rfl
  · cases node <;> rfl

theorem returnMsg_log (i : Nat) :
    (returnMsg s i).log = s.log ++ [.recycle (s.msgExPool i).serial i (s.msgExPool i).status] := by
  have evt (s : CmdDispatcher) (msg : MsgId) : (clearPendingEvt s msg).log = s.log := by
    unfold clearPendingEvt
    split <;> rfl
  have same : (clearPendingEvt (if (s.msgExPool i).status.forAbort then onAbortMsgComplete s else s) (s.msgExPool i).msg).log =
      s.log := by
    rw [evt]
    split
    · exact pushOp_log _ _ _ _
    · rfl
  unfold returnMsg CmdDispatcher.note
  dsimp only [CmdDispatcher.setEx]
  rw [same]

theorem completeMsg_parts (i : Nat) :
    ∃ t, SameMsgs s t ∧ t.pc = s.pc ∧ t.log = s.log ∧ (t.msgExPool i).serial = (s.msgExPool i).serial ∧
      ((completeMsg s i).1 = t ∨ ∃ c, (completeMsg s i).1 = t.note (.complete (s.msgExPool i).serial c)) := by
  unfold completeMsg
  dsimp only
  split
  · rename_i routine _ _
    have same : SameMsgs s (if (s.msgExPool i).status.cancel then
        s.setEx i {s.msgExPool i with msg:={(s.msgExPool i).msg with cancel:=true}} else s) := by
      split
      · exact .setEx rfl
      · exact .refl s
    refine ⟨_,same,?_,?_,congrArg Load.serial (same.load i),.inr ⟨routine,rfl⟩⟩
    · split <;> rfl
    · split <;> rfl
  · exact ⟨s,.refl s,rfl,rfl,rfl,.inl rfl⟩

theorem rejected_parts (s t : CmdDispatcher) (i : Nat) (idle : s.msgIdleQ = i :: t.msgIdleQ) (wait : t.msgWaitQ = s.msgWaitQ)
    (pend : t.msgPendQ = s.msgPendQ) (next : t.nextSerial = s.nextSerial+1)
    (others : ∀ j, j ≠ i → (t.msgExPool j).load = (s.msgExPool j).load) (serial : (t.msgExPool i).serial = s.nextSerial)
    (log : t.log = s.log) (pc : t.pc = s.pc) : Rejected s (pushBackIdleMsg t i) i := by
  obtain ⟨u,same,samePc,sameLog,serial',completed⟩ := completeMsg_parts t i
  -- The log so far: at most the routine was called.
  have told : ∃ more, (∀ note ∈ more, ∃ c, note = .complete s.nextSerial c) ∧ SameMsgs t u ∧
      (completeMsg t i).1 = {u with log:=u.log ++ more} := by
    rcases completed with quiet | ⟨c,noted⟩
    · exact ⟨[],by simp,same,by rw [quiet,append_nil]⟩
    · refine ⟨[.complete s.nextSerial c],by simp,same,?_⟩
      rw [noted,serial]
      rfl
  obtain ⟨more,calls,_,completed⟩ := told
  unfold pushBackIdleMsg
  rw [completed]
  obtain ⟨v,same',parts⟩ := returnMsg_parts {u with log:=u.log ++ more} i
  have pc' := returnMsg_pc {u with log:=u.log ++ more} i
  have logV : ∀ n, story v.log n = story (u.log ++ more) n := fun n => same'.story n
  refine ⟨?_,?_,?_,?_,?_,?_,?_,?_,?_,?_⟩
  · intro j
    rw [parts]
    have now : v.msgIdleQ = t.msgIdleQ := same'.idle.trans same.idle
    unfold CmdDispatcher.note CmdDispatcher.setEx
    simp only [count_append]
    rw [now,idle,count_cons]
    simp [count_cons]
  · rw [idle]
    exact mem_cons_self
  · rw [parts]
    exact same'.wait.trans (same.wait.trans wait)
  · rw [parts]
    exact same'.pend.trans (same.pend.trans pend)
  · rw [parts]
    exact same'.next.trans (same.next.trans next)
  · intro j other
    rw [parts]
    unfold CmdDispatcher.note CmdDispatcher.setEx
    simp only [update_of_ne other]
    exact (same'.load j).trans ((same.load j).trans (others j other))
  · intro n other
    have fresh : story more n = [] := by
      unfold story
      rw [filter_eq_nil_iff]
      intro note member
      obtain ⟨c,rfl⟩ := calls note member
      simpa [about] using Ne.symm other
    rw [parts]
    unfold CmdDispatcher.note
    rw [story_append]
    have isSerial : (({u with log:=u.log ++ more} : CmdDispatcher).msgExPool i).serial = s.nextSerial := serial'.trans serial
    rw [isSerial]
    have quiet : story [Note.recycle s.nextSerial i (({u with log:=u.log ++ more} : CmdDispatcher).msgExPool i).status] n = [] := by
      simp [story,about,Ne.symm other]
    have logV' : (CmdDispatcher.setEx v i {({u with log:=u.log ++ more} : CmdDispatcher).msgExPool i with status:={},msg:={}}).log =
      v.log := rfl
    rw [quiet,logV',logV,story_append,fresh,same.story,log]
    simp
  · intro n j c accepted
    rw [parts] at accepted
    rcases mem_append.mp accepted with before | now
    · have member := same'.accepted before
      rcases mem_append.mp member with before | now
      · exact log ▸ same.accepted before
      · obtain ⟨_,isCall⟩ := calls _ now
        exact nomatch isCall
    · simp at now
  · exact pc'.trans (samePc.trans pc)
  · rw [returnMsg_log,← log,← sameLog,append_assoc]
    exact prefix_append _ _

theorem disprSendMsg_cases (msg : MsgId) (attr : Option MsgAttr) :
    (disprSendMsg s msg attr).1 = s ∨ (∃ i, Rejected s (disprSendMsg s msg attr).1 i) ∨
      ∃ i c, Accepted s (disprSendMsg s msg attr).1 i c := by
  unfold disprSendMsg
  split
  · exact .inl rfl
  split
  · exact .inl rfl
  split
  · exact .inl rfl
  cases idle : s.msgIdleQ with
  | nil => simp [popFrontIdleMsg,idle]
  | cons i rest =>
    right
    have popped : popFrontIdleMsg s =
        some (i,({s with msgIdleQ:=rest,nextSerial:=s.nextSerial + 1} : CmdDispatcher).setEx i {serial:=s.nextSerial}) := by
      unfold popFrontIdleMsg
      rw [idle]
    rw [popped]
    dsimp only
    generalize isState : ({s with msgIdleQ:=rest,nextSerial:=s.nextSerial + 1} : CmdDispatcher).setEx i {serial:=s.nextSerial} = t
    have idle' : t.msgIdleQ = rest := by rw [← isState]; rfl
    have mine : t.msgExPool i = {serial:=s.nextSerial} := by rw [← isState]; simp [CmdDispatcher.setEx]
    have others : ∀ j, j ≠ i → (t.msgExPool j).load = (s.msgExPool j).load := by
      intro j other
      rw [← isState]
      simp [CmdDispatcher.setEx,other]
    obtain ⟨c,load⟩ := sentEx_load t (t.msgExPool i) msg attr (n := s.nextSerial) (by rw [mine]; rfl)
    have serial : (sentEx t (t.msgExPool i) msg attr).serial = s.nextSerial := congrArg Load.serial load
    have completion : (sentEx t (t.msgExPool i) msg attr).completion = c := congrArg Load.completion load
    generalize sentEx t (t.msgExPool i) msg attr = ex at load serial completion
    split
    · left
      refine ⟨i,rejected_parts s _ i ?_ ?_ ?_ ?_ ?_ ?_ ?_ ?_⟩
      · rw [idle]
        exact congrArg _ idle'.symm
      · rw [← isState]; rfl
      · rw [← isState]; rfl
      · rw [← isState]; rfl
      · intro j other
        unfold CmdDispatcher.setEx
        simp only [update_of_ne other]
        exact others j other
      · simpa [CmdDispatcher.setEx] using serial
      · rw [← isState]; rfl
      · rw [← isState]; rfl
    · right
      generalize abort : (ex.status.ownerReq && lastPermit (getCurCmdReqId t).2) = aborting
      generalize isQueued : (if aborting then {t with status:={t.status with waitAbortMsgDone:=true}} else t) = u
      have same : u.msgIdleQ = t.msgIdleQ ∧ u.msgWaitQ = t.msgWaitQ ∧ u.msgPendQ = t.msgPendQ ∧ u.nextSerial = t.nextSerial ∧
          u.msgExPool = t.msgExPool ∧ u.log = t.log ∧ u.pc = t.pc := by
        rw [← isQueued]
        split <;> exact ⟨rfl,rfl,rfl,rfl,rfl,rfl,rfl⟩
      obtain ⟨sameIdle,sameWait,samePend,sameNext,samePool,sameLog,samePc⟩ := same
      have queued := queued_queueMsg (u.setEx i {ex with status:={ex.status with forAbort:=aborting,prePhase:=true}}) i msg.mdlId
      refine ⟨i,c,?_,?_,?_,?_,?_,?_,?_,?_⟩
      · rw [idle]
        exact congrArg _ ((queued.idle.trans (sameIdle.trans idle')).symm)
      · intro j
        have wait : u.msgWaitQ = s.msgWaitQ := sameWait.trans (by rw [← isState]; rfl)
        exact wait ▸ queued.wait j
      · exact queued.pend.trans (samePend.trans (by rw [← isState]; rfl))
      · exact queued.next.trans (sameNext.trans (by rw [← isState]; rfl))
      · intro j other
        refine (queued.load j).trans ?_
        unfold CmdDispatcher.setEx
        simp only [update_of_ne other]
        rw [samePool]
        exact others j other
      · refine (queued.load i).trans ?_
        have here : (u.setEx i {ex with status:={ex.status with forAbort:=aborting,prePhase:=true}}).msgExPool i =
          {ex with status:={ex.status with forAbort:=aborting,prePhase:=true}} := by simp [CmdDispatcher.setEx]
        rw [here]
        exact load
      · have log : u.log = s.log := sameLog.trans (by rw [← isState]; rfl)
        unfold CmdDispatcher.note
        dsimp only
        rw [queued.log,serial,completion,← log]
        rfl
      · exact queued.pc.trans (samePc.trans (by rw [← isState]; rfl))
end

theorem Kept.accepted (kept : Kept s hands done) (accepted : Accepted s s' i c) : Kept s' hands done := by
  have place := kept.places i
  have head : s.msgIdleQ.count i = s'.msgIdleQ.count i + 1 := by rw [accepted.idle]; simp
  have inIdle : i ∈ s.msgIdleQ := accepted.idle ▸ mem_cons_self
  have small : i < maxPhlMsgNum := by
    split at place
    · assumption
    · omega
  have log (n : Nat) : story s'.log n = story s.log n ++ if s.nextSerial = n then [.accept s.nextSerial i c] else [] := by
    rw [accepted.log,story_append]
    congr 1
    by_cases same : s.nextSerial = n <;> simp [story,about,same]
  have fresh := kept.unborn s.nextSerial (Nat.le_refl _)
  have idle (j : Nat) (other : j ≠ i) : j ∉ s'.msgIdleQ → j ∉ s.msgIdleQ := by
    intro out member
    rw [accepted.idle] at member
    rcases mem_cons.mp member with same | member
    · exact other same
    · exact out member
  have notDone : done ≠ some i := by
    intro isDone
    have held := count_pos_iff.mpr (kept.doneHeld i isDone).1
    split at place <;> omega
  refine ⟨?_,?_,?_,?_,?_⟩
  · intro j
    have place := kept.places j
    have wait := accepted.wait j
    have isIdle : s.msgIdleQ.count j = s'.msgIdleQ.count j + [i].count j := by rw [accepted.idle]; simp [count_cons]
    rw [accepted.pend]
    omega
  · intro j smallJ out load isLoad
    by_cases here : j = i
    · subst here
      rw [accepted.load] at isLoad
      subst isLoad
      refine ⟨rfl,?_⟩
      rw [log,fresh]
      simp [called,notDone]
    · rw [accepted.others j here] at isLoad
      obtain ⟨notifies,told⟩ := kept.loads j smallJ (idle j here out) load isLoad
      have born := kept.born smallJ (idle j here out)
      have serial : load.serial = (s.msgExPool j).serial := congrArg Load.serial isLoad
      have other : s.nextSerial ≠ load.serial := by omega
      refine ⟨notifies,?_⟩
      rw [log,told]
      simp [other]
  · intro n next
    rw [accepted.next] at next
    have other : s.nextSerial ≠ n := by omega
    rw [log,kept.unborn n (by omega)]
    simp [other]
  · intro n j d member
    rw [accepted.log] at member
    rcases mem_append.mp member with before | now
    · rcases kept.told n j d before with ⟨smallJ,out,load⟩ | ⟨status,finished⟩
      · have here : j ≠ i := fun same => out (same ▸ inIdle)
        left
        refine ⟨smallJ,?_,by rw [accepted.others j here]; exact load⟩
        intro member
        exact out (accepted.idle ▸ mem_cons_of_mem _ member)
      · right
        have other : s.nextSerial ≠ n := by
          intro same
          rw [← same,fresh] at finished
          exact nomatch finished
        refine ⟨status,?_⟩
        rw [log,finished]
        simp [other]
    · left
      simp only [mem_singleton,Note.accept.injEq] at now
      obtain ⟨rfl,rfl,routine⟩ := now
      refine ⟨small,?_,?_⟩
      · intro member
        have there := count_pos_iff.mpr member
        split at place <;> omega
      · rw [accepted.load,← routine]
  · intro j isDone
    obtain ⟨held,routine⟩ := kept.doneHeld j isDone
    have here : j ≠ i := fun same => notDone (same ▸ isDone)
    have completion : (s'.msgExPool j).completion = (s.msgExPool j).completion := congrArg Load.completion (accepted.others j here)
    rw [completion]
    exact ⟨held,routine⟩

theorem Kept.rejected (kept : Kept s hands done) (rejected : Rejected s s' i) : Kept s' hands done := by
  have place := kept.places i
  have inIdle := count_pos_iff.mpr rejected.head
  have idle (j : Nat) : j ∈ s'.msgIdleQ ↔ j ∈ s.msgIdleQ := by rw [← count_pos_iff,← count_pos_iff,rejected.idle]
  have fresh := kept.unborn s.nextSerial (Nat.le_refl _)
  refine ⟨?_,?_,?_,?_,?_⟩
  · intro j
    rw [rejected.idle,rejected.wait,rejected.pend]
    exact kept.places j
  · intro j small out load isLoad
    rw [idle] at out
    have here : j ≠ i := fun same => out (same ▸ rejected.head)
    rw [rejected.others j here] at isLoad
    obtain ⟨notifies,told⟩ := kept.loads j small out load isLoad
    have born := kept.born small out
    have serial : load.serial = (s.msgExPool j).serial := congrArg Load.serial isLoad
    rw [rejected.log load.serial (by omega)]
    exact ⟨notifies,told⟩
  · intro n next
    rw [rejected.next] at next
    rw [rejected.log n (by omega)]
    exact kept.unborn n (by omega)
  · intro n j d accepted
    rcases kept.told n j d (rejected.accepts n j d accepted) with ⟨small,out,load⟩ | ⟨status,finished⟩
    · have here : j ≠ i := fun same => out (same ▸ rejected.head)
      exact .inl ⟨small,fun member => out ((idle j).mp member),by rw [rejected.others j here]; exact load⟩
    · have other : n ≠ s.nextSerial := by
        rintro rfl
        rw [fresh] at finished
        exact nomatch finished
      exact .inr ⟨status,(rejected.log n other).trans finished⟩
  · intro j isDone
    obtain ⟨held,routine⟩ := kept.doneHeld j isDone
    have here : j ≠ i := by
      rintro rfl
      have there := count_pos_iff.mpr held
      split at place <;> omega
    have completion : (s'.msgExPool j).completion = (s.msgExPool j).completion := congrArg Load.completion (rejected.others j here)
    rw [completion]
    exact ⟨held,routine⟩

theorem Kept.send (kept : Kept s hands done) (msg : MsgId) (attr : Option MsgAttr) :
    Kept (disprSendMsg s msg attr).1 hands done := by
  rcases disprSendMsg_cases s msg attr with same | ⟨i,rejected⟩ | ⟨i,c,accepted⟩
  · rw [same]
    exact kept
  · exact kept.rejected rejected
  · exact kept.accepted accepted

theorem disprSendMsg_pc (s : CmdDispatcher) (msg : MsgId) (attr : Option MsgAttr) : (disprSendMsg s msg attr).1.pc = s.pc := by
  rcases disprSendMsg_cases s msg attr with same | ⟨i,rejected⟩ | ⟨i,c,accepted⟩
  · rw [same]
  · exact rejected.pc
  · exact accepted.pc

theorem sameMsgs_clrPending (s : CmdDispatcher) : SameMsgs s (disprClrPendingMsg s) := ⟨rfl,rfl,rfl,rfl,fun _ => rfl,rfl⟩

theorem kept_follows (hands : List Nat) (done : Option Nat) : Follows fun s t => Kept s hands done → Kept t hands done where
  calm calm kept := kept.same calm.same
  trans one two := two ∘ one
  clrPending s kept := kept.same (sameMsgs_clrPending s)
  send _ msg attr kept := kept.send msg attr
  pushOp s _ _ _ kept := kept.same (sameMsgs_pushOp s _ _ _)
  goto _ _ kept := kept.same ⟨rfl,rfl,rfl,rfl,fun _ => rfl,rfl⟩
  note _ _ other kept := kept.same (.note other)
  clearPending _ kept := kept.clearPending

def heldBy : Pc → Option Nat
  | .held i _ => some i
  | _ => none

def calling : Pc → Option Nat
  | .held i .completing => some i
  | _ => none

def KeptAt (s : CmdDispatcher) : Prop := Kept s (heldBy s.pc).toList (calling s.pc)

theorem KeptAt.goto (kept : Kept s hands done) (isHands : (heldBy pc).toList = hands) (isDone : calling pc = done) :
    KeptAt (s.goto pc) := by
  unfold KeptAt
  have pc' : (s.goto pc).pc = pc := rfl
  rw [pc',isHands,isDone]
  exact kept.same ⟨rfl,rfl,rfl,rfl,fun _ => rfl,rfl⟩

theorem early_free (isEarly : early pc) : heldBy pc = none ∧ calling pc = none := by
  cases pc with
  | wait | fetch | held i stage => cases isEarly
  | tokenOps | process node | acquired node | abortWaiting node req | abortCurrent node => exact ⟨rfl,rfl⟩

theorem calling_held (i : Nat) (stage : Stage) (other : stage ≠ .completing) : calling (.held i stage) = none := by
  cases stage with
  | completing => exact absurd rfl other
  | _ => rfl

theorem Kept.dispatchStep (kept : Kept s [i] (calling (.held i stage))) (ret : MdlRet) : KeptAt (dispatchStep s i stage ret) := by
  rcases leaves_cases stage with stays | rfl | rfl | rfl
  · have none : calling (.held i stage) = none := by
      refine calling_held i stage ?_
      rintro rfl
      cases stays
    rw [none] at kept
    obtain ⟨stage',isPc,other⟩ := dispatchStep_held s i stage ret stays
    unfold KeptAt
    rw [isPc,calling_held i stage' other]
    exact kept.same (sameMsgs_flows.dispatchStep s i stage ret stays)
  · unfold Dispr.dispatchStep
    dsimp only
    split
    · exact .goto (Kept.pushPending kept) rfl rfl
    · exact .goto (Kept.queued kept (by simp [calling]) (queued_push s i)) rfl rfl
  · unfold Dispr.dispatchStep
    dsimp only
    rcases completeMsg_cases kept with ⟨none,same⟩ | ⟨c,t,routine,same,noted⟩
    · rw [same]
      exact .goto (Kept.returned kept (.inr none)) rfl rfl
    · rw [noted]
      exact .goto (Kept.complete kept routine same) rfl rfl
  · exact .goto (Kept.returned kept (.inl rfl)) rfl rfl

theorem thread_free (isEarly : early s.pc) (ret : MdlRet) :
    heldBy (threadStep s ret).pc = none ∧ calling (threadStep s ret).pc = none := by
  cases isPc : s.pc with
  | wait | fetch | held i stage =>
    rw [isPc] at isEarly
    cases isEarly
  | tokenOps =>
    unfold threadStep
    rw [isPc]
    dsimp only
    split
    · exact ⟨rfl,rfl⟩
    · exact early_free (handleTokenOp_early _ _)
  | process node =>
    unfold threadStep
    rw [isPc]
    exact early_free (processTokenReq_early s node)
  | acquired node | abortCurrent node =>
    unfold threadStep
    rw [isPc]
    dsimp only
    split <;> exact ⟨rfl,rfl⟩
  | abortWaiting node req =>
    unfold threadStep
    rw [isPc]
    exact ⟨rfl,rfl⟩

theorem KeptAt.thread (kept : KeptAt s) (ret : MdlRet) : KeptAt (threadStep s ret) := by
  unfold KeptAt at kept
  rcases early_cases s.pc with isEarly | pc | pc | ⟨i,stage,pc⟩
  · have now := thread_free isEarly ret
    have before := early_free isEarly
    unfold KeptAt
    rw [now.1,now.2]
    rw [before.1,before.2] at kept
    exact (kept_follows [] none).thread s ret isEarly (fun _ _ _ kept => kept.same ⟨rfl,rfl,rfl,rfl,fun _ => rfl,rfl⟩) kept
  all_goals
    unfold threadStep
    rw [pc] at kept ⊢
    dsimp only
  · split
    · unfold KeptAt
      rw [pc]
      exact kept
    · refine .goto (Kept.clearPending (kept.same ?_)) rfl rfl
      exact ⟨rfl,rfl,rfl,rfl,fun _ => rfl,rfl⟩
  · split
    · exact .goto kept rfl rfl
    · rename_i popped
      exact .goto (kept.popWait popped) rfl rfl
  · exact kept.dispatchStep ret

section
variable (s : CmdDispatcher)

theorem pushOp_pc (node : OpNode) (type : OpType) (data : Nat) :
    (pushBackTokenOpInfo s node type data).1.pc = s.pc := by
  unfold pushBackTokenOpInfo
  split
  · rfl
  · cases node <;> rfl

theorem pc_serves : Serves fun s t => t.pc = s.pc where
  calm := Hushed.pc
  trans one two := two.trans one
  clrPending _ := rfl
  send := disprSendMsg_pc
  pushOp := pushOp_pc

theorem step_pc (event : Event) (other : ∀ ret, event ≠ .thread ret) : (step s event).pc = s.pc := pc_serves.step s event other

theorem log_kept {s t : CmdDispatcher} (same : t.log = s.log) : s.log <+: t.log := same ▸ prefix_rfl

theorem goto_log (pc : Pc) : (s.goto pc).log = s.log := rfl

theorem send_log (msg : MsgId) (attr : Option MsgAttr) : s.log <+: (disprSendMsg s msg attr).1.log := by
  rcases disprSendMsg_cases s msg attr with same | ⟨i,rejected⟩ | ⟨i,c,accepted⟩
  · exact log_kept (by rw [same])
  · exact rejected.grows
  · rw [accepted.log]
    exact prefix_append _ _

theorem clearPending_log : (clearPendingMsg s).log = s.log ∧ (clearPendingMsg s).nextSerial = s.nextSerial := by
  have all (queue : List Nat) (s : CmdDispatcher) :
      (queue.foldl requeueMsg s).log = s.log ∧ (queue.foldl requeueMsg s).nextSerial = s.nextSerial := by
    induction queue generalizing s with
    | nil => exact ⟨rfl,rfl⟩
    | cons i rest ih =>
      have first := queued_requeue s i
      exact ⟨(ih _).1.trans first.log,(ih _).2.trans first.next⟩
  unfold clearPendingMsg
  split
  · exact all _ _
  · exact ⟨rfl,rfl⟩

theorem completeMsg_log (i : Nat) : s.log <+: (completeMsg s i).1.log := by
  obtain ⟨t,_,_,same,_,completed⟩ := completeMsg_parts s i
  rw [← same]
  rcases completed with quiet | ⟨c,noted⟩
  · exact log_kept (by rw [quiet])
  · rw [noted]
    exact prefix_append _ _

theorem log_follows : Follows fun s t => s.log <+: t.log where
  calm calm := log_kept calm.log
  trans := .trans
  clrPending _ := prefix_rfl
  send := send_log
  pushOp s _ _ _ := log_kept (pushOp_log s _ _ _)
  goto _ _ := prefix_rfl
  note _ _ _ := prefix_append _ _
  clearPending s := log_kept (clearPending_log s).1

theorem dispatchStep_log (i : Nat) (stage : Stage) (ret : MdlRet) :
    s.log <+: (dispatchStep s i stage ret).log := by
  have returned (t : CmdDispatcher) : t.log <+: (returnMsg t i).log := by
    rw [returnMsg_log]
    exact prefix_append _ _
  cases stage with
  | reschedule =>
    unfold dispatchStep pushBackPendingMsg
    dsimp only [CmdDispatcher.goto]
    split
    · split <;> exact prefix_rfl
    · exact prefix_rfl
  | recycle =>
    unfold dispatchStep
    dsimp only
    split
    · exact completeMsg_log s i
    · exact (completeMsg_log s i).trans (returned _)
  | completing => exact returned s
  | _ => exact log_follows.flows.dispatchStep s i _ ret rfl

theorem thread_log (ret : MdlRet) : s.log <+: (threadStep s ret).log := by
  rcases early_cases s.pc with isEarly | pc | pc | ⟨i,stage,pc⟩
  · exact log_follows.thread s ret isEarly fun _ _ _ => prefix_rfl
  · rw [threadStep_wait pc]
    split
    · exact prefix_rfl
    · exact log_kept (clearPending_log {s with msgQSema:=s.msgQSema - 1}).1
  · rw [threadStep_fetch pc]
    unfold popFrontWaitMsg
    cases s.msgWaitQ <;> exact prefix_rfl
  · rw [threadStep_held pc]
    exact dispatchStep_log s i stage ret
end

theorem Kept.idle (kept : Kept s (heldBy s.pc).toList (calling s.pc)) (same : SameMsgs s t) (pc : t.pc = s.pc) : KeptAt t := by
  unfold KeptAt
  rw [pc]
  exact kept.same same

theorem KeptAt.step (kept : KeptAt s) (event : Event) : KeptAt (step s event) := by
  by_cases isThread : ∃ ret, event = .thread ret
  · obtain ⟨ret,rfl⟩ := isThread
    exact kept.thread ret
  · have other : ∀ ret, event ≠ .thread ret := fun ret same => isThread ⟨ret,same⟩
    unfold KeptAt
    rw [step_pc s event other]
    exact (kept_follows _ _).step s event other kept

theorem kept_start (moduleQ : Priority → List BkModule) (bitmap basemap : Bitmap) (ctrlPresent : Bool) :
    KeptAt (disprStart moduleQ bitmap basemap ctrlPresent) := by
  refine ⟨?_,?_,?_,?_,?_⟩
  · intro i
    have count := nodup_range.count (a := i) (l := range maxPhlMsgNum)
    simp [disprStart,heldBy,count]
  · intro i small out
    exact absurd (mem_range.mpr small) out
  · intro n _
    rfl
  · intro n i c accepted
    exact nomatch accepted
  · intro i isDone
    exact nomatch isDone

theorem reached_kept (path : Reached step (fun _ _ => True) (disprStart moduleQ bitmap basemap ctrlPresent) s) : KeptAt s :=
  path.invariant KeptAt (kept_start moduleQ bitmap basemap ctrlPresent) fun _ event kept _ => kept.step event

def MsgAttr.routine : Option MsgAttr → Option Nat
  | none => none
  | some attr => attr.completion

theorem send_accepts (s : CmdDispatcher) (msg : MsgId) (attr : Option MsgAttr)
    (success : (disprSendMsg s msg attr).2.1 = .success) :
    ∃ i, Note.accept s.nextSerial i (MsgAttr.routine attr) ∈ (disprSendMsg s msg attr).1.log := by
  unfold disprSendMsg at success ⊢
  split at success
  · exact nomatch success
  split at success
  · exact nomatch success
  split at success
  · exact nomatch success
  rename_i started good allowed
  rw [if_neg started,if_neg good,if_neg allowed]
  split at success
  · exact nomatch success
  · rename_i i t popped
    dsimp only at success ⊢
    split at success
    · exact nomatch success
    · rename_i passes
      rw [if_neg passes]
      refine ⟨i,mem_append_right _ ?_⟩
      have fresh : t.msgExPool i = {serial:=s.nextSerial} := by
        unfold popFrontIdleMsg at popped
        split at popped
        · exact nomatch popped
        · simp only [Option.some.injEq,Prod.mk.injEq] at popped
          obtain ⟨rfl,rfl⟩ := popped
          simp [CmdDispatcher.setEx]
      rw [fresh]
      have own (ex : MsgEx) : (ownEx t ex msg.mdlId).serial = ex.serial ∧ (ownEx t ex msg.mdlId).completion = ex.completion := by
        unfold ownEx
        dsimp only
        split
        · exact ⟨rfl,rfl⟩
        · split <;> exact ⟨rfl,rfl⟩
      unfold sentEx
      rw [(own _).1,(own _).2]
      cases attr <;> simp [attrEx,setMsgBitmap,setMsgCustomBitmap,MsgAttr.routine]

-- Every extension is in one place, and every routine of a message that was
-- accepted is called once, when the extension goes back to the idle queue.
theorem messages_conserved (path : Reached step (fun _ _ => True) (disprStart moduleQ bitmap basemap ctrlPresent) s) :
    (∀ i, s.msgIdleQ.count i + s.msgWaitQ.count i + s.msgPendQ.count i + (if heldBy s.pc = some i then 1 else 0) =
      if i < maxPhlMsgNum then 1 else 0) ∧
    (∀ n i c, Note.accept n i (some c) ∈ s.log →
      (i ∉ s.msgIdleQ ∧ calling s.pc ≠ some i ∧ story s.log n = [.accept n i (some c)]) ∨
      (heldBy s.pc = some i ∧ calling s.pc = some i ∧ story s.log n = [.accept n i (some c),.complete n c]) ∨
      ∃ status, story s.log n = [.accept n i (some c),.complete n c,.recycle n i status]) ∧
    ∀ msg attr, (disprSendMsg s msg attr).2.1 = .success →
      ∃ i, Note.accept s.nextSerial i (MsgAttr.routine attr) ∈ (disprSendMsg s msg attr).1.log := by
  have kept := reached_kept path
  refine ⟨?_,?_,send_accepts s⟩
  · intro i
    have place := kept.places i
    rw [← place]
    cases heldBy s.pc with
    | none => simp
    | some j => by_cases same : j = i <;> simp [same]
  · intro n i c accepted
    rcases kept.told n i (some c) accepted with ⟨small,out,load⟩ | finished
    · have told := (kept.loads i small out _ rfl).2
      rw [load] at told
      by_cases isDone : calling s.pc = some i
      · right
        left
        have held := (kept.doneHeld i isDone).1
        rw [Option.mem_toList] at held
        exact ⟨held,isDone,by simpa [called,isDone] using told⟩
      · exact .inl ⟨out,isDone,by simpa [called,isDone] using told⟩
    · exact .inr (.inr finished)

def powerMgntQ : Priority → List BkModule
  | .mandatory => [⟨phlMdlPowerMgnt,true,true⟩]
  | _ => []

def powerMgntMap : Bitmap := BitVec.twoPow 128 phlMdlPowerMgnt

def pendedRun : List Event :=
  .send {mdlId:=phlMdlPowerMgnt,evtId:=7} (some {completion:=some 5}) :: replicate 9 (.thread .success) ++
    replicate 3 (.thread .pending) ++ .clrPending :: replicate 28 (.thread .success)

theorem messages_conserved_run :
    let s := run step (disprStart powerMgntQ powerMgntMap powerMgntMap true) pendedRun
    Note.accept 0 0 (some 5) ∈ s.log ∧
      ((0 ∉ s.msgIdleQ ∧ calling s.pc ≠ some 0 ∧ story s.log 0 = [.accept 0 0 (some 5)]) ∨
        (heldBy s.pc = some 0 ∧ calling s.pc = some 0 ∧ story s.log 0 = [.accept 0 0 (some 5),.complete 0 5]) ∨
        ∃ status, story s.log 0 = [.accept 0 0 (some 5),.complete 0 5,.recycle 0 0 status]) := by
  have accepted : Note.accept 0 0 (some 5) ∈ (run step (disprStart powerMgntQ powerMgntMap powerMgntMap true) pendedRun).log := by
    decide +kernel
  have admitted : Admitted step (fun _ _ => True) (disprStart powerMgntQ powerMgntMap powerMgntMap true) pendedRun := by
    decide +kernel
  exact ⟨accepted,(messages_conserved (Reached.start.run admitted)).2.1 0 0 5 accepted⟩
end Rtl8852au.Dispr
