import Rtl8852au.DispatcherPool

namespace Rtl8852au.Dispr
open Machine

def takes (n : Nat) : Note → Option (Nat × Phase)
  | .fed m mdl phase ret => if m = n ∧ mdl ≠ phlMdlPhyMgnt ∧ stopDispatchMsg ret = false then some (mdl,phase) else none
  | _ => none

def accepts (log : List Note) (n : Nat) : List (Nat × Phase) := log.filterMap (takes n)

def isCall (n mdl : Nat) (phase : Phase) : Note → Bool
  | .fed m x p _ => m == n && x == mdl && p == phase
  | _ => false

def calls (log : List Note) (n mdl : Nat) (phase : Phase) : Nat := log.countP (isCall n mdl phase)
def phaseOf (ex : MsgEx) : Phase := if ex.msg.prePhase then .pre else .post
abbrev Answer := Nat → Phase → Nat → MdlRet

-- Each module pends finitely often and never fails.
def Patient (answer : Answer) : Prop :=
  ∀ mdl phase, (∀ k, answer mdl phase k ≠ .fail ∧ answer mdl phase k ≠ .cannotIo) ∧
    ∃ bound, ∀ k, bound ≤ k → answer mdl phase k ≠ .pending

def drive (answer : Answer) (s : CmdDispatcher) : CmdDispatcher :=
  match s.pc with
  | .wait => threadStep (if s.msgPendQ = [] then s else disprClrPendingMsg s) .success
  | .held i (.feeding mdl _) =>
    let ex := s.msgExPool i
    threadStep s (answer mdl (phaseOf ex) (calls s.log ex.serial mdl (phaseOf ex)))
  | _ => threadStep s .success

def candidate (owner : Option Nat) : Visit → Option Nat
  | .owner p => owner.filter fun id => decide (id ≤ phlBkMdlEnd ∧ getMdlPriority id = some p)
  | .mdl module => if module.started then some module.id else none

def order (owner : Option Nat) (map : Bitmap) (visits : List Visit) : List Nat :=
  ((visits.filterMap (candidate owner)).filter map.chk).eraseDups

structure Registered (moduleQ : Priority → List BkModule) (bitmap : Bitmap) : Prop where
  started : ∀ p, ∀ mdl ∈ moduleQ p, getMdlPriority mdl.id = some p ∧ mdl.started = bitmap.chk mdl.id
  listed : ∀ id, bitmap.chk id = true → ∃ p, ∃ mdl ∈ moduleQ p, mdl.id = id

structure Scene where
  i : Nat
  serial : Nat
  moduleQ : Priority → List BkModule
  bitmap : Bitmap
  owner : Option Nat
  ctrl : Bool

structure View where
  flag : Bool
  indc : Bool
  pending : Bool
  premap : Bitmap
  postmap : Bitmap
  seen : List (Nat × Phase)
  asked : Nat → Phase → Nat

structure Shows (c : Scene) (s : CmdDispatcher) (queue parked : List Nat) (v : View) : Prop where
  moduleQ : s.moduleQ = c.moduleQ
  bitmap : s.bitmap = c.bitmap
  ctrl : s.status.ctrlPresent = c.ctrl
  started : s.status.started = true
  going : s.status.shallStop = false
  io : s.status.cannotIo = false
  ops : s.tokenOpQ = []
  waiting : s.msgWaitQ = queue
  pended : s.msgPendQ = parked
  serial : (s.msgExPool c.i).serial = c.serial
  owner : (s.msgExPool c.i).module = c.owner
  flag : (s.msgExPool c.i).status.prePhase = v.flag
  indc : (s.msgExPool c.i).msg.prePhase = v.indc
  pending : (s.msgExPool c.i).status.pending = v.pending
  premap : (s.msgExPool c.i).premap = v.premap
  postmap : (s.msgExPool c.i).postmap = v.postmap
  keeps : (s.msgExPool c.i).status.cancel = false
  sound : (s.msgExPool c.i).status.fail = false
  quiet : s.pendingEvt (s.msgExPool c.i).msg.mdlId = msgEvtMax ∨
    s.pendingEvt (s.msgExPool c.i).msg.mdlId = (s.msgExPool c.i).msg.evtId
  seen : accepts s.log c.serial = v.seen
  asked : ∀ mdl phase, calls s.log c.serial mdl phase = v.asked mdl phase

def View.map (v : View) : Phase → Bitmap
  | .pre => v.premap
  | .post => v.postmap

def View.phase (v : View) : Phase := if v.indc then .pre else .post
def At (c : Scene) (s : CmdDispatcher) (stage : Stage) (v : View) : Prop := s.pc = .held c.i stage ∧ Shows c s [] [] v

theorem Shows.mapOf (shows : Shows c s queue parked v) (phase : Phase) : mapOf (s.msgExPool c.i) phase = v.map phase := by
  cases phase with
  | pre => exact shows.premap
  | post => exact shows.postmap

theorem Shows.goto (shows : Shows c s queue parked v) (pc : Pc) : Shows c (s.goto pc) queue parked v := {shows with}

def MsgEx.view (ex : MsgEx) (v : View) : View :=
  {v with flag:=ex.status.prePhase,indc:=ex.msg.prePhase,pending:=ex.status.pending,premap:=ex.premap,postmap:=ex.postmap}

structure SameMsg (ex ex' : MsgEx) : Prop where
  serial : ex'.serial = ex.serial
  owner : ex'.module = ex.module
  keeps : ex'.status.cancel = ex.status.cancel
  sound : ex'.status.fail = ex.status.fail
  mdlId : ex'.msg.mdlId = ex.msg.mdlId
  evtId : ex'.msg.evtId = ex.msg.evtId

theorem Shows.setEx (shows : Shows c s queue parked v) (ex : MsgEx) (same : SameMsg (s.msgExPool c.i) ex) :
    Shows c (s.setEx c.i ex) queue parked (ex.view v) := by
  have here : (s.setEx c.i ex).msgExPool c.i = ex := by simp [CmdDispatcher.setEx]
  refine ⟨shows.moduleQ,shows.bitmap,shows.ctrl,shows.started,shows.going,shows.io,shows.ops,shows.waiting,shows.pended,
    ?_,?_,?_,?_,?_,?_,?_,?_,?_,?_,shows.seen,shows.asked⟩
  all_goals rw [here]
  · exact same.serial.trans shows.serial
  · exact same.owner.trans shows.owner
  · rfl
  · rfl
  · rfl
  · rfl
  · rfl
  · exact same.keeps.trans shows.keeps
  · exact same.sound.trans shows.sound
  · rw [same.mdlId,same.evtId]
    exact shows.quiet

theorem Shows.view (shows : Shows c s queue parked v) : (s.msgExPool c.i).view v = v := by
  unfold MsgEx.view
  rw [shows.flag,shows.indc,shows.pending,shows.premap,shows.postmap]

theorem drive_held (pc : s.pc = .held i stage) (quiet : ∀ mdl after, stage ≠ .feeding mdl after) :
    drive answer s = dispatchStep s i stage .success := by
  unfold drive
  rw [pc]
  cases stage with
  | feeding mdl after => exact absurd rfl (quiet mdl after)
  | _ =>
    unfold threadStep
    rw [pc]

section
variable (ex : MsgEx) (go : Stage) (keeps : ex.status.cancel = false) (sound : ex.status.fail = false)
include keeps sound

theorem redirected_go
    (still : ex.status.pending = false) : redirected ex go = go := by
  simp [redirected,keeps,sound,still]

theorem redirected_pending
    (pending : ex.status.pending) : redirected ex go = .reschedule := by
  simp [redirected,keeps,sound,pending]
end

theorem getMsgBitmap_flag (flag : ex.status.prePhase = on) :
    getMsgBitmap ex = ({ex with msg:={ex.msg with prePhase:=on}},if on then .pre else .post) := by
  unfold getMsgBitmap
  subst flag
  cases flag : ex.status.prePhase <;> simp

theorem At.held (shows : Shows c s [] [] v) (stage : Stage) : At c (s.goto (.held c.i stage)) stage v := ⟨rfl,shows.goto _⟩

theorem At.put (shows : Shows c s [] [] v) (same : SameMsg (s.msgExPool c.i) ex) (view : ex.view v = v') (stage : Stage) :
    At c ((s.setEx c.i ex).goto (.held c.i stage)) stage v' := by
  rw [← view]
  exact .held (shows.setEx ex same) stage

theorem At.start (answer : Answer) (here : At c s .start v) (still : v.pending = false) :
    At c (drive answer s) (.ctrl (if v.flag then .pre else .post)) {v with indc:=v.flag} := by
  obtain ⟨pc,shows⟩ := here
  rw [drive_held pc (by simp)]
  unfold dispatchStep
  dsimp only
  rw [getMsgBitmap_flag shows.flag,redirected_go]
  · refine .put shows ?_ ?_ _
    · exact ⟨rfl,rfl,rfl,rfl,rfl,rfl⟩
    · simp only [MsgEx.view,shows.flag,shows.pending,shows.premap,shows.postmap]
  · exact shows.keeps
  · exact shows.sound
  · exact shows.pending.trans still

theorem At.ctrl (answer : Answer) (here : At c s (.ctrl map) v) :
    At c (drive answer s) (if c.ctrl then .feeding phlMdlPhyMgnt (.ctrl map) else .ctrlDone map) v := by
  obtain ⟨pc,shows⟩ := here
  rw [drive_held pc (by simp)]
  unfold dispatchStep
  rw [shows.ctrl]
  exact .held shows _

theorem At.ctrlDone (answer : Answer) (here : At c s (.ctrlDone map) v) (still : v.pending = false) :
    At c (drive answer s) (if v.indc && v.map map != 0 then .loop .pre (visits s.moduleQ .pre) else .preDone map) v := by
  obtain ⟨pc,shows⟩ := here
  rw [drive_held pc (by simp)]
  unfold dispatchStep
  dsimp only
  rw [redirected_go _ _ shows.keeps shows.sound (shows.pending.trans still),shows.indc,shows.mapOf]
  exact .held shows _

theorem At.loopNil (here : At c s (.loop phase []) v) : At c (drive answer s) (loopEnd phase) v := by
  obtain ⟨pc,shows⟩ := here
  rw [drive_held pc (by simp)]
  exact .held shows _

theorem fedAt_candidate (ex : MsgEx) (phase : Phase) (visit : Visit) :
    fedAt ex phase visit = (candidate ex.module visit).filter (mapOf ex phase).chk := by
  cases visit with
  | owner p =>
    cases isOwner : ex.module with
    | none => simp [fedAt,candidate,isOwner]
    | some id =>
      simp only [fedAt,candidate,isOwner]
      by_cases fits : id ≤ phlBkMdlEnd ∧ getMdlPriority id = some p
      · by_cases bit : (mapOf ex phase).chk id <;> simp [Option.filter,fits,bit]
      · simp only [Option.filter,fits,decide_false]
        simp [← and_assoc,fits]
  | mdl module =>
    by_cases started : module.started
    · by_cases bit : (mapOf ex phase).chk module.id <;> simp [fedAt,candidate,Option.filter,started,bit]
    · simp [fedAt,candidate,Option.filter,started]

theorem At.visit {visit : Visit} (answer : Answer) (here : At c s (.loop phase (visit :: todo)) v) :
    At c (drive answer s) (match (candidate c.owner visit).filter (v.map phase).chk with
      | some mdl => .feeding mdl (.loop phase todo)
      | none => .loop phase todo) v := by
  obtain ⟨pc,shows⟩ := here
  rw [drive_held pc (by simp)]
  unfold dispatchStep
  dsimp only
  rw [fedAt_candidate,shows.owner,shows.mapOf]
  cases (candidate c.owner visit).filter (v.map phase).chk with
  | none => exact .held shows _
  | some mdl => exact .held shows _

theorem At.preDone (answer : Answer) (here : At c s (.preDone map) v) (still : v.pending = false) (done : v.map map = 0) :
    At c (drive answer s) .postStart v := by
  obtain ⟨pc,shows⟩ := here
  rw [drive_held pc (by simp)]
  unfold dispatchStep
  dsimp only
  rw [redirected_go _ _ shows.keeps shows.sound (shows.pending.trans still),shows.mapOf,done]
  exact .held shows _

theorem At.preBroken (here : At c s (.preDone map) v) (still : v.pending = false) (left : (v.map map != 0)) :
    (drive answer s).pc = .held c.i .recycle ∧ ((drive answer s).msgExPool c.i).serial = c.serial ∧
      ((drive answer s).msgExPool c.i).status.cancel := by
  obtain ⟨pc,shows⟩ := here
  rw [drive_held pc (by simp)]
  unfold dispatchStep
  dsimp only
  rw [redirected_go _ _ shows.keeps shows.sound (shows.pending.trans still),shows.mapOf,left]
  refine ⟨rfl,?_,?_⟩
  · have serial := shows.serial
    simpa [canceledMsg,CmdDispatcher.setEx,CmdDispatcher.goto] using serial
  · simp [canceledMsg,CmdDispatcher.setEx,CmdDispatcher.goto]

theorem At.postStart (answer : Answer) (here : At c s .postStart v) :
    At c (drive answer s) (if v.postmap != 0 then .loop .post (visits s.moduleQ .post) else .postDone)
      {v with flag:=false,indc:=false} := by
  obtain ⟨pc,shows⟩ := here
  rw [drive_held pc (by simp)]
  unfold dispatchStep
  dsimp only
  have flag : ({s.msgExPool c.i with status:={(s.msgExPool c.i).status with prePhase:=false}} : MsgEx).status.prePhase = false := rfl
  rw [getMsgBitmap_flag flag]
  have postmap : Dispr.mapOf {s.msgExPool c.i with
      status := {(s.msgExPool c.i).status with prePhase:=false}
      msg := {(s.msgExPool c.i).msg with prePhase:=false}} .post = v.postmap := shows.postmap
  simp only [Bool.false_eq_true,if_false]
  rw [postmap]
  refine .put shows ?_ ?_ _
  · exact ⟨rfl,rfl,rfl,rfl,rfl,rfl⟩
  · simp only [MsgEx.view,shows.pending,shows.premap,shows.postmap]

theorem At.postDone (answer : Answer) (here : At c s .postDone v) (still : v.pending = false) (done : v.postmap = 0) :
    At c (drive answer s) .curReq v := by
  obtain ⟨pc,shows⟩ := here
  rw [drive_held pc (by simp)]
  unfold dispatchStep
  dsimp only
  rw [redirected_go _ _ shows.keeps shows.sound (shows.pending.trans still),shows.postmap,done]
  exact .held shows _

theorem At.pended (answer : Answer) (here : At c s stage v) (asks : stage = .ctrlDone phase ∨ stage = loopEnd phase)
    (pended : v.pending) : At c (drive answer s) .reschedule v := by
  obtain ⟨pc,shows⟩ := here
  have back (go : Stage) := redirected_pending (s.msgExPool c.i) go shows.keeps shows.sound (shows.pending.trans pended)
  have step : drive answer s = s.goto (.held c.i .reschedule) := by
    rcases asks with rfl | rfl
    · rw [drive_held pc (by simp)]
      unfold dispatchStep
      dsimp only
      rw [back]
    · rw [drive_held pc (by cases phase <;> simp [loopEnd])]
      unfold dispatchStep loopEnd
      cases phase with
      | pre =>
        dsimp only
        rw [back]
        exact if_pos nofun
      | post =>
        dsimp only
        rw [back]
        exact if_pos nofun
  rw [step]
  exact .held shows _

def bump (asked : Nat → Phase → Nat) (mdl : Nat) (phase : Phase) : Nat → Phase → Nat :=
  fun x p => asked x p + if x = mdl ∧ p = phase then 1 else 0

def View.fed (v : View) (mdl : Nat) (ret : MdlRet) : View :=
  {v with
    seen := v.seen ++ if mdl ≠ phlMdlPhyMgnt ∧ stopDispatchMsg ret = false then [(mdl,v.phase)] else []
    asked := bump v.asked mdl v.phase}

def View.clr (v : View) (mdl : Nat) : View :=
  if v.indc then {v with premap:=v.premap.clr mdl} else {v with postmap:=v.postmap.clr mdl}

theorem Shows.fed (shows : Shows c s queue parked v) (mdl : Nat) (ret : MdlRet) :
    Shows c (s.note (.fed (s.msgExPool c.i).serial mdl v.phase ret)) queue parked (v.fed mdl ret) := by
  rw [shows.serial]
  refine {shows with seen:=?_,asked:=?_}
  · unfold CmdDispatcher.note accepts
    rw [List.filterMap_append]
    have before : s.log.filterMap (takes c.serial) = v.seen := shows.seen
    rw [before]
    unfold View.fed
    congr 1
    by_cases new : mdl ≠ phlMdlPhyMgnt ∧ stopDispatchMsg ret = false <;> simp [takes,new]
  · intro x p
    unfold CmdDispatcher.note calls
    rw [List.countP_append]
    have before : s.log.countP (isCall c.serial x p) = v.asked x p := shows.asked x p
    rw [before]
    unfold View.fed bump
    congr 1
    by_cases isMdl : mdl = x
    · by_cases isPhase : v.phase = p
      · simp [isCall,isMdl,isPhase]
      · simp [isCall,isMdl,isPhase,Ne.symm isPhase]
    · simp [isCall,isMdl,Ne.symm isMdl]

theorem Shows.phase (shows : Shows c s queue parked v) : phaseOf (s.msgExPool c.i) = v.phase := by
  unfold phaseOf View.phase
  rw [shows.indc]

theorem drive_feeding (here : At c s (.feeding mdl after) v) :
    drive answer s = fedMdlMsg s c.i mdl after (answer mdl v.phase (v.asked mdl v.phase)) := by
  obtain ⟨pc,shows⟩ := here
  unfold drive
  rw [pc]
  dsimp only
  rw [shows.phase,shows.serial,shows.asked]
  unfold threadStep
  rw [pc]
  rfl

section
variable (answer : Answer)

theorem At.asked (here : At c s (.feeding mdl after) v)
    (pends : answer mdl v.phase (v.asked mdl v.phase) = .pending) :
    At c (drive answer s) (afterFeed after .pending) {v.fed mdl .pending with pending:=true} := by
  rw [drive_feeding here,pends]
  obtain ⟨pc,shows⟩ := here
  have phase : (if (s.msgExPool c.i).msg.prePhase then Phase.pre else .post) = v.phase := shows.phase
  unfold fedMdlMsg
  dsimp only
  rw [phase]
  refine .put (shows.fed mdl .pending) ?_ ?_ _
  · exact ⟨rfl,rfl,rfl,rfl,rfl,rfl⟩
  · simp only [MsgEx.view,shows.flag,shows.indc,shows.premap,shows.postmap,View.fed]

theorem At.taken (here : At c s (.feeding mdl after) v)
    (takes : stopDispatchMsg (answer mdl v.phase (v.asked mdl v.phase)) = false) :
    At c (drive answer s) (afterFeed after .success) ((v.fed mdl .success).clr mdl) := by
  rw [drive_feeding here]
  generalize answer mdl v.phase (v.asked mdl v.phase) = ret at takes
  obtain ⟨pc,shows⟩ := here
  have phase : (if (s.msgExPool c.i).msg.prePhase then Phase.pre else .post) = v.phase := shows.phase
  have fed : v.fed mdl ret = v.fed mdl .success := by
    unfold View.fed
    rw [takes]
    rfl
  have stage : afterFeed after ret = afterFeed after .success := by
    cases after with
    | ctrl map => rfl
    | loop phase todo =>
      unfold afterFeed
      rw [takes]
      rfl
  have map := shows.mapOf v.phase
  have clear : (setMap (s.msgExPool c.i) v.phase ((mapOf (s.msgExPool c.i) v.phase).clr mdl)).view (v.fed mdl .success) =
      (v.fed mdl .success).clr mdl := by
    have indc : (v.fed mdl .success).indc = v.indc := rfl
    rw [map]
    unfold View.clr
    rw [indc]
    unfold View.phase
    cases isPre : v.indc <;>
      simp [setMap,MsgEx.view,View.map,View.fed,shows.flag,shows.indc,shows.pending,shows.premap,shows.postmap,isPre]
  have same : SameMsg (s.msgExPool c.i) (setMap (s.msgExPool c.i) v.phase ((mapOf (s.msgExPool c.i) v.phase).clr mdl)) := by
    cases v.phase <;> exact ⟨rfl,rfl,rfl,rfl,rfl,rfl⟩
  have shows' := shows.fed mdl ret
  rw [fed] at shows'
  unfold fedMdlMsg
  dsimp only
  rw [phase]
  cases ret with
  | success => exact .put shows' same clear _
  | ignore => exact stage ▸ .put shows' same clear _
  | fail => cases takes
  | pending => cases takes
  | cannotIo => cases takes

def View.again (v : View) (bitmap : Bitmap) : View :=
  {v with pending:=false,premap:=v.premap &&& bitmap,postmap:=v.postmap &&& bitmap}

theorem isMsgCanceled_going (shows : Shows c s [] [] v) : isMsgCanceled s c.i = (s,false) := by
  unfold isMsgCanceled
  dsimp only
  rw [shows.started,shows.keeps,shows.going,shows.io]
  rcases shows.quiet with quiet | quiet <;> simp [quiet]

theorem fetched (pc : s.pc = .tokenOps) (shows : Shows c s [c.i] [] v) :
    ∃ t, Leads (drive answer) s t ∧ At c t .start (v.again c.bitmap) := by
  have one : drive answer s = s.goto .fetch := by
    unfold drive threadStep
    rw [pc]
    rw [shows.ops]
  have two : ∃ t, drive answer (s.goto .fetch) = t.goto (.held c.i .popped) ∧ Shows c t [] [] {v with pending:=false} := by
    have popped : popFrontWaitMsg (s.goto .fetch) = some (c.i,({s.goto .fetch with msgWaitQ:=[]} : CmdDispatcher).setEx c.i
        {s.msgExPool c.i with status:={(s.msgExPool c.i).status with run:=true,enq:=false,pending:=false}}) := by
      unfold popFrontWaitMsg
      have queue : (s.goto .fetch).msgWaitQ = [c.i] := shows.waiting
      rw [queue]
      rfl
    refine ⟨({s.goto .fetch with msgWaitQ:=[]} : CmdDispatcher).setEx c.i
      {s.msgExPool c.i with status:={(s.msgExPool c.i).status with run:=true,enq:=false,pending:=false}},?_,?_⟩
    · unfold drive threadStep
      dsimp only [CmdDispatcher.goto]
      have popped' := popped
      dsimp only [CmdDispatcher.goto] at popped'
      rw [popped']
    · have emptied : Shows c ({s.goto .fetch with msgWaitQ:=[]} : CmdDispatcher) [] [] v :=
        {shows with waiting:=rfl}
      have next := emptied.setEx {s.msgExPool c.i with
        status := {(s.msgExPool c.i).status with run:=true,enq:=false,pending:=false}} ⟨rfl,rfl,rfl,rfl,rfl,rfl⟩
      have view : MsgEx.view {s.msgExPool c.i with
          status := {(s.msgExPool c.i).status with run:=true,enq:=false,pending:=false}} v = {v with pending:=false} := by
        simp only [MsgEx.view,shows.flag,shows.indc,shows.premap,shows.postmap]
      exact view ▸ next
  obtain ⟨t,two,shows'⟩ := two
  have three : At c (drive answer (t.goto (.held c.i .popped))) .start (v.again c.bitmap) := by
    have pc : (t.goto (.held c.i .popped)).pc = .held c.i .popped := rfl
    rw [drive_held pc (by simp)]
    unfold dispatchStep
    rw [isMsgCanceled_going (shows'.goto _)]
    simp only [Bool.false_eq_true,if_false]
    refine .put (shows'.goto _) ?_ ?_ _
    · exact ⟨rfl,rfl,rfl,rfl,rfl,rfl⟩
    · have shown := shows'.goto (.held c.i .popped)
      simp only [MsgEx.view,shown.flag,shown.indc,shown.pending,shown.premap,shown.postmap,shown.bitmap,View.again]
  refine ⟨_,.ahead ?_,three⟩
  rw [one]
  refine .ahead ?_
  rw [two]
  exact .ahead (.refl _ _)

theorem Shows.requeued (shows : Shows c s [] [] v) : Shows c (requeueMsg s c.i) [c.i] [] v := by
  have queued := shows.setEx (enqueued (s.msgExPool c.i)) ⟨rfl,rfl,rfl,rfl,rfl,rfl⟩
  have view : (enqueued (s.msgExPool c.i)).view v = v := shows.view
  rw [view] at queued
  have front : ∀ queue, queue = [c.i] → Shows c (notifyBkThread {s.setEx c.i (enqueued (s.msgExPool c.i)) with msgWaitQ:=queue})
      [c.i] [] v := by
    intro queue isQueue
    exact {queued with waiting:=isQueue}
  unfold requeueMsg
  split
  · unfold insertMsgByPriority
    refine front _ ?_
    have empty : (s.setEx c.i (enqueued (s.msgExPool c.i))).msgWaitQ = [] := shows.waiting
    rw [empty]
    rfl
  · unfold pushBackWaitMsg
    refine front _ ?_
    have empty : (s.setEx c.i (enqueued (s.msgExPool c.i))).msgWaitQ = [] := shows.waiting
    rw [empty]
    rfl

theorem Shows.parked (shows : Shows c s [] [] v) : Shows c (pushBackPendingMsg s c.i) [] [c.i] v := by
  have queued := shows.setEx (enqueued (s.msgExPool c.i)) ⟨rfl,rfl,rfl,rfl,rfl,rfl⟩
  have view : (enqueued (s.msgExPool c.i)).view v = v := shows.view
  rw [view] at queued
  have here : (s.setEx c.i (enqueued (s.msgExPool c.i))).msgExPool c.i = enqueued (s.msgExPool c.i) := by simp [CmdDispatcher.setEx]
  have pended : (s.setEx c.i (enqueued (s.msgExPool c.i))).msgPendQ ++ [c.i] = [c.i] := by rw [queued.pended]; rfl
  unfold pushBackPendingMsg
  dsimp only
  split
  · refine {queued with pended:=pended,quiet:=?_}
    right
    unfold CmdDispatcher.setPendingEvt
    dsimp only
    rw [here,Function.update_self]
  · exact {queued with pended:=pended}

theorem resumed (here : At c s .reschedule v) (pended : v.pending) :
    ∃ t, Leads (drive answer) s t ∧ At c t .start (v.again c.bitmap) := by
  obtain ⟨pc,shows⟩ := here
  have one : drive answer s = (pushBackPendingMsg s c.i).goto .wait := by
    rw [drive_held pc (by simp)]
    unfold dispatchStep
    dsimp only
    rw [shows.pending,pended]
    rfl
  have parked := shows.parked.goto .wait
  have waits : ((pushBackPendingMsg s c.i).goto .wait).pc = .wait := rfl
  generalize (pushBackPendingMsg s c.i).goto .wait = u at one parked waits
  let cleared : CmdDispatcher := {u with
    msgQSema := u.msgQSema + 1 - 1
    status := {u.status with clrPendMsg:=false}
    msgPendQ := []
    pc := .wait}
  have two : drive answer u = (requeueMsg cleared c.i).goto .tokenOps := by
    unfold drive
    rw [waits]
    rw [parked.pended,if_neg (by simp)]
    unfold threadStep
    have stays : (disprClrPendingMsg u).pc = .wait := waits
    rw [stays]
    have woken : (disprClrPendingMsg u).msgQSema = u.msgQSema + 1 := rfl
    rw [woken,if_neg (by omega)]
    unfold clearPendingMsg
    have flag : ({disprClrPendingMsg u with msgQSema:=u.msgQSema + 1 - 1} : CmdDispatcher).status.clrPendMsg := rfl
    have pend : ({disprClrPendingMsg u with msgQSema:=u.msgQSema + 1 - 1} : CmdDispatcher).msgPendQ = [c.i] := parked.pended
    rw [if_pos flag,pend]
    rfl
  have emptied : Shows c cleared [] [] v := {parked with pended:=rfl}
  obtain ⟨t,leads,there⟩ := fetched answer rfl (emptied.requeued.goto .tokenOps)
  refine ⟨t,.ahead ?_,there⟩
  rw [one]
  refine .ahead ?_
  rw [two]
  exact leads
end

theorem chk_clr (map : Bitmap) (mdl id : Nat) : (map.clr mdl).chk id = (map.chk id && decide (id ≠ mdl)) := by
  unfold Bitmap.clr Bitmap.chk
  rw [BitVec.getLsbD_and,BitVec.getLsbD_not,BitVec.getLsbD_twoPow]
  by_cases small : id < 128
  · by_cases same : mdl = id
    · subst same
      simp [small]
    · simp [small,same,Ne.symm same]
  · have none : map.getLsbD id = false := BitVec.getLsbD_of_ge map id (by omega)
    simp [none]

theorem bitmap_ext {map map' : Bitmap} (same : ∀ id, map.chk id = map'.chk id) : map = map' :=
  BitVec.eq_of_getLsbD_eq fun id _ => same id

theorem clr_absent (absent : Bitmap.chk map mdl = false) : map.clr mdl = map := by
  refine bitmap_ext fun id => ?_
  rw [chk_clr]
  by_cases same : id = mdl
  · subst same
    rw [absent]
    rfl
  · simp [same]

def Within (map bitmap : Bitmap) : Prop := map &&& bitmap = map

theorem Within.chk (within : Within map bitmap) (bit : map.chk mdl) : bitmap.chk mdl := by
  unfold Within at within
  have both : Bitmap.chk (map &&& bitmap) mdl := by rw [within]; exact bit
  unfold Bitmap.chk at both
  rw [BitVec.getLsbD_and] at both
  simp only [Bool.and_eq_true] at both
  exact both.2

theorem Within.of_chk (all : ∀ id, Bitmap.chk map id → Bitmap.chk bitmap id) : Within map bitmap := by
  refine bitmap_ext fun id => ?_
  have split : Bitmap.chk (map &&& bitmap) id = (map.chk id && bitmap.chk id) := BitVec.getLsbD_and
  rw [split]
  cases bit : map.chk id with
  | false => rfl
  | true => simp [all id bit]

theorem within_and (map bitmap : Bitmap) : Within (map &&& bitmap) bitmap := by
  refine .of_chk fun id bit => ?_
  have split : Bitmap.chk (map &&& bitmap) id = (map.chk id && bitmap.chk id) := BitVec.getLsbD_and
  rw [split,Bool.and_eq_true] at bit
  exact bit.2

theorem Within.clr (within : Within map bitmap) (mdl : Nat) : Within (map.clr mdl) bitmap := by
  refine .of_chk fun id bit => ?_
  rw [chk_clr,Bool.and_eq_true] at bit
  exact within.chk bit.1

theorem Registered.notCtrl (registered : Registered moduleQ bitmap) (bit : bitmap.chk mdl) : mdl ≠ phlMdlPhyMgnt := by
  rintro rfl
  obtain ⟨p,module,member,isCtrl⟩ := registered.listed _ bit
  have priority := (registered.started p module member).1
  rw [isCtrl] at priority
  exact nomatch priority

section
variable (owner : Option Nat) (map : Bitmap) (visit : Visit) (todo : List Visit)

theorem order_none
    (none : (candidate owner visit).filter map.chk = none) : order owner map (visit :: todo) = order owner map todo := by
  unfold order
  rw [List.filterMap_cons]
  cases isCandidate : candidate owner visit with
  | none => rfl
  | some mdl =>
    have absent : map.chk mdl = false := by
      rw [isCandidate] at none
      simpa [Option.filter] using none
    rw [List.filter_cons_of_neg (by simp [absent])]

theorem order_some
    (some : (candidate owner visit).filter map.chk = some mdl) :
    order owner map (visit :: todo) = mdl :: order owner (map.clr mdl) todo := by
  obtain ⟨isCandidate,bit⟩ := Option.filter_eq_some_iff.mp some
  unfold order
  rw [List.filterMap_cons,isCandidate]
  rw [List.filter_cons_of_pos bit,List.eraseDups_cons,List.filter_filter]
  congr 3
  funext id
  rw [chk_clr]
  by_cases same : id = mdl <;> simp [same]
end

theorem order_head (isOrder : order owner map todo = mdl :: rest) : order owner (map.clr mdl) todo = rest := by
  induction todo with
  | nil => exact nomatch isOrder
  | cons visit todo ih =>
    cases at_ : (candidate owner visit).filter map.chk with
    | none =>
      rw [order_none _ _ _ _ at_] at isOrder
      have still : (candidate owner visit).filter (map.clr mdl).chk = none := by
        cases isCandidate : candidate owner visit with
        | none => rfl
        | some id =>
          have absent : map.chk id = false := by
            rw [isCandidate] at at_
            simpa [Option.filter] using at_
          simp [Option.filter,chk_clr,absent]
      rw [order_none _ _ _ _ still]
      exact ih isOrder
    | some id =>
      rw [order_some _ _ _ _ at_] at isOrder
      injection isOrder with same isRest
      subst same
      have cleared : (candidate owner visit).filter (map.clr id).chk = none := by
        obtain ⟨isCandidate,_⟩ := Option.filter_eq_some_iff.mp at_
        rw [isCandidate]
        simp [Option.filter,chk_clr]
      rw [order_none _ _ _ _ cleared]
      exact isRest

theorem order_chk (member : mdl ∈ order owner map todo) : map.chk mdl := by
  unfold order at member
  rw [List.mem_eraseDups] at member
  exact (List.mem_filter.mp member).2

theorem mem_visits (member : mdl ∈ moduleQ p) (phase : Phase) : Visit.mdl mdl ∈ visits moduleQ phase := by
  cases phase <;> cases p <;> simp [visits,preVisits,postVisits,member]

theorem order_mem (registered : Registered moduleQ bitmap) (within : Within map bitmap) (owner : Option Nat) (phase : Phase) :
    mdl ∈ order owner map (visits moduleQ phase) ↔ map.chk mdl := by
  constructor
  · exact order_chk
  · intro bit
    obtain ⟨p,module,member,isMdl⟩ := registered.listed mdl (within.chk bit)
    have started := (registered.started p module member).2
    rw [isMdl,within.chk bit] at started
    unfold order
    rw [List.mem_eraseDups]
    refine List.mem_filter.mpr ⟨List.mem_filterMap.mpr ⟨.mdl module,mem_visits member phase,?_⟩,bit⟩
    simp [candidate,started,isMdl]

theorem order_empty (registered : Registered moduleQ bitmap) (within : Within map bitmap)
    (empty : order owner map (visits moduleQ phase) = []) : map = 0 := by
  refine bitmap_ext fun id => ?_
  have zero : Bitmap.chk 0 id = false := BitVec.getLsbD_zero
  rw [zero]
  cases bit : map.chk id with
  | false => rfl
  | true =>
    have member := (order_mem registered within owner phase).mpr bit
    rw [empty] at member
    exact nomatch member

structure Calm (v v' : View) : Prop where
  flag : v'.flag = v.flag
  premap : v'.premap = v.premap
  postmap : v'.postmap = v.postmap
  seen : v'.seen = v.seen
  asked : ∀ mdl, mdl ≠ phlMdlPhyMgnt → v'.asked mdl = v.asked mdl

theorem Calm.trans (first : Calm u v) (second : Calm v w) : Calm u w :=
  ⟨second.flag.trans first.flag,second.premap.trans first.premap,second.postmap.trans first.postmap,second.seen.trans first.seen,
    fun mdl other => (second.asked mdl other).trans (first.asked mdl other)⟩

def View.Fits (v : View) (bitmap : Bitmap) : Prop := Within v.premap bitmap ∧ Within v.postmap bitmap

theorem Calm.fits (calm : Calm v v') (fits : v.Fits bitmap) : v'.Fits bitmap := by
  unfold View.Fits
  rw [calm.premap,calm.postmap]
  exact fits

theorem calm_fed (v : View) (ret : MdlRet) : Calm v (v.fed phlMdlPhyMgnt ret) := by
  refine ⟨rfl,rfl,rfl,?_,?_⟩
  · simp [View.fed]
  · intro mdl other
    funext phase
    simp [View.fed,bump,other]

theorem calm_clr (registered : Registered moduleQ bitmap) (fits : View.Fits v bitmap) : v.clr phlMdlPhyMgnt = v := by
  have absent (map : Bitmap) (within : Within map bitmap) : map.clr phlMdlPhyMgnt = map := by
    refine clr_absent ?_
    cases bit : map.chk phlMdlPhyMgnt with
    | false => rfl
    | true => exact absurd rfl (registered.notCtrl (within.chk bit))
  unfold View.clr
  rw [absent _ fits.1,absent _ fits.2]
  split <;> rfl

def entry (flag : Bool) : Phase := if flag then .pre else .post

theorem ctrl_passes (registered : Registered c.moduleQ c.bitmap) (patient : Patient answer) (here : At c s .start v)
    (still : v.pending = false) (fits : v.Fits c.bitmap) :
    ∃ t v', Leads (drive answer) s t ∧ At c t (.ctrlDone (entry v.flag)) v' ∧ v'.pending = false ∧ v'.indc = v.flag ∧
    Calm v v' := by
  obtain ⟨sane,bound,accepts⟩ := patient phlMdlPhyMgnt (entry v.flag)
  -- Each round that pends uses up one of the answers below `bound`.
  induction left : bound - v.asked phlMdlPhyMgnt (entry v.flag) using Nat.strongRecOn generalizing s v with
  | _ rounds ih =>
    have atCtrl := here.start answer still
    have next := atCtrl.ctrl answer
    cases present : c.ctrl with
    | false =>
      rw [present] at next
      exact ⟨_,_,.ahead (.ahead (.refl _ _)),next,still,rfl,rfl,rfl,rfl,rfl,fun _ _ => rfl⟩
    | true =>
      rw [present] at next
      have phase : View.phase {v with indc:=v.flag} = entry v.flag := rfl
      cases ret : answer phlMdlPhyMgnt (entry v.flag) (v.asked phlMdlPhyMgnt (entry v.flag)) with
      | pending =>
        have pended := next.asked answer ret
        obtain ⟨t,leads,again⟩ := resumed answer (pended.pended answer (.inl rfl) rfl) rfl
        have calm : Calm v (View.again {({v with indc:=v.flag} : View).fed phlMdlPhyMgnt .pending with pending:=true} c.bitmap) := by
          have fed := calm_fed {v with indc:=v.flag} .pending
          exact ⟨rfl,fits.1,fits.2,fed.seen,fed.asked⟩
        have fewer : bound - ((View.again {({v with indc:=v.flag} : View).fed phlMdlPhyMgnt .pending with pending:=true}
            c.bitmap).asked phlMdlPhyMgnt (entry v.flag)) < rounds := by
          have more : (View.again {({v with indc:=v.flag} : View).fed phlMdlPhyMgnt .pending with pending:=true}
              c.bitmap).asked phlMdlPhyMgnt (entry v.flag) = v.asked phlMdlPhyMgnt (entry v.flag) + 1 := by
            simp [View.again,View.fed,bump,phase]
          have below : v.asked phlMdlPhyMgnt (entry v.flag) < bound := Nat.lt_of_not_le fun reached => accepts _ reached ret
          omega
        obtain ⟨u,v',leads',there,still',indc,calm'⟩ := ih _ fewer again rfl (calm.fits fits) sane accepts rfl
        exact ⟨u,v',.ahead (.ahead (.ahead (.ahead (leads.trans leads')))),there,still',indc,calm.trans calm'⟩
      | fail => exact absurd ret (sane _).1
      | cannotIo => exact absurd ret (sane _).2
      | _ =>
        have taken := next.taken answer (by rw [phase,ret]; rfl)
        have calm := calm_fed {v with indc:=v.flag} .success
        rw [calm_clr registered (calm.fits fits)] at taken
        exact ⟨_,_,.ahead (.ahead (.ahead (.refl _ _))),taken,still,rfl,rfl,rfl,rfl,calm.seen,calm.asked⟩

theorem loop_empty (answer : Answer) (here : At c s (.loop phase todo) v) (empty : order c.owner (v.map phase) todo = []) :
    ∃ t, Leads (drive answer) s t ∧ At c t (loopEnd phase) v := by
  induction todo generalizing s with
  | nil => exact ⟨_,.ahead (.refl _ _),here.loopNil⟩
  | cons visit todo ih =>
    have next := here.visit answer
    cases at_ : (candidate c.owner visit).filter (v.map phase).chk with
    | some mdl =>
      rw [order_some _ _ _ _ at_] at empty
      exact nomatch empty
    | none =>
      rw [at_] at next
      rw [order_none _ _ _ _ at_] at empty
      obtain ⟨t,leads,there⟩ := ih next empty
      exact ⟨t,.ahead leads,there⟩

theorem loop_next (answer : Answer) (here : At c s (.loop phase todo) v)
    (isOrder : order c.owner (v.map phase) todo = mdl :: rest) :
    ∃ t todo', Leads (drive answer) s t ∧ At c t (.feeding mdl (.loop phase todo')) v ∧
      order c.owner ((v.map phase).clr mdl) todo' = rest := by
  induction todo generalizing s with
  | nil => exact nomatch isOrder
  | cons visit todo ih =>
    have next := here.visit answer
    cases at_ : (candidate c.owner visit).filter (v.map phase).chk with
    | some first =>
      rw [at_] at next
      rw [order_some _ _ _ _ at_] at isOrder
      injection isOrder with same isRest
      subst same
      exact ⟨_,todo,.ahead (.refl _ _),next,isRest⟩
    | none =>
      rw [at_] at next
      rw [order_none _ _ _ _ at_] at isOrder
      obtain ⟨t,todo',leads,there,isRest⟩ := ih next isOrder
      exact ⟨t,todo',.ahead leads,there,isRest⟩

structure Walks (c : Scene) (phase : Phase) (v : View) : Prop where
  flag : entry v.flag = phase
  indc : v.indc = v.flag
  still : v.pending = false
  fits : v.Fits c.bitmap

theorem Walks.inPhase (walks : Walks c phase v) : v.phase = phase := by
  unfold View.phase
  rw [walks.indc]
  exact walks.flag

theorem feeding_taken (patient : Patient answer) (walks : Walks c phase v) (here : At c s (.feeding mdl (.loop phase todo)) v)
    (willing : answer mdl phase (v.asked mdl phase) ≠ .pending) (other : mdl ≠ phlMdlPhyMgnt) :
    At c (drive answer s) (.loop phase todo) ((v.fed mdl .success).clr mdl) ∧
      ((v.fed mdl .success).clr mdl).seen = v.seen ++ [(mdl,phase)] := by
  have sane := (patient mdl phase).1 (v.asked mdl phase)
  have isPhase := walks.inPhase
  have takes : stopDispatchMsg (answer mdl v.phase (v.asked mdl v.phase)) = false := by
    rw [isPhase]
    cases ret : answer mdl phase (v.asked mdl phase) with
    | success => rfl
    | ignore => rfl
    | pending => exact absurd ret willing
    | fail => exact absurd ret sane.1
    | cannotIo => exact absurd ret sane.2
  refine ⟨here.taken answer takes,?_⟩
  have kept : ((v.fed mdl .success).clr mdl).seen = (v.fed mdl .success).seen := by
    unfold View.clr
    split <;> rfl
  rw [kept]
  unfold View.fed
  rw [isPhase,if_pos ⟨other,rfl⟩]

theorem clr_map (walks : Walks c phase v) (mdl : Nat) (ret : MdlRet) :
    ((v.fed mdl ret).clr mdl).map phase = (v.map phase).clr mdl := by
  have isPhase := walks.inPhase
  unfold View.phase at isPhase
  cases indc : v.indc <;> rw [indc] at isPhase <;> subst isPhase <;> simp [View.clr,View.fed,View.map,indc]

theorem clr_walks (walks : Walks c phase v) (mdl : Nat) (ret : MdlRet) : Walks c phase ((v.fed mdl ret).clr mdl) := by
  unfold View.clr
  split
  · exact ⟨walks.flag,walks.indc,walks.still,walks.fits.1.clr mdl,walks.fits.2⟩
  · exact ⟨walks.flag,walks.indc,walks.still,walks.fits.1,walks.fits.2.clr mdl⟩

theorem clr_asked (v : View) (mdl : Nat) (ret : MdlRet) (x : Nat) (p : Phase) :
    ((v.fed mdl ret).clr mdl).asked x p = v.asked x p + if x = mdl ∧ p = v.phase then 1 else 0 := by
  unfold View.clr
  split <;> rfl

theorem Within.nonzero (bit : Bitmap.chk map mdl) : (map != 0) := by
  rw [bne_iff_ne]
  rintro rfl
  have zero : Bitmap.chk 0 mdl = false := BitVec.getLsbD_zero
  rw [zero] at bit
  exact nomatch bit

section
variable {c : Scene} (registered : Registered c.moduleQ c.bitmap) (patient : Patient answer)
include registered patient

theorem pend_returns (walks : Walks c phase v)
    (here : At c s (.feeding mdl (.loop phase todo)) v) (pends : answer mdl phase (v.asked mdl phase) = .pending) :
    ∃ t v', Leads (drive answer) s t ∧
      At c t (if v.flag && v.map phase != 0 then .loop .pre (visits c.moduleQ .pre) else .preDone phase) v' ∧
      Walks c phase v' ∧ v'.premap = v.premap ∧ v'.postmap = v.postmap ∧ v'.seen = v.seen ∧
      ∀ x, x ≠ phlMdlPhyMgnt → v'.asked x = bump v.asked mdl phase x := by
  have isPhase := walks.inPhase
  have pended := here.asked answer (by rw [isPhase]; exact pends)
  obtain ⟨u,leads,again⟩ := resumed answer (At.pended answer pended (.inr rfl) rfl) rfl
  generalize isAgain : View.again {v.fed mdl .pending with pending:=true} c.bitmap = w at again
  have facts : w.flag = v.flag ∧ w.pending = false ∧ w.premap = v.premap ∧ w.postmap = v.postmap ∧ w.seen = v.seen ∧
      w.asked = bump v.asked mdl phase := by
    rw [← isAgain,← isPhase]
    refine ⟨rfl,rfl,walks.fits.1,walks.fits.2,?_,rfl⟩
    simp [View.again,View.fed,stopDispatchMsg]
  obtain ⟨flag,still,premap,postmap,seen,asked⟩ := facts
  have fits : w.Fits c.bitmap := by
    unfold View.Fits
    rw [premap,postmap]
    exact walks.fits
  obtain ⟨t,v',leads',there,still',indc,calm⟩ := ctrl_passes registered patient again still fits
  rw [flag] at there indc
  rw [walks.flag] at there
  have map : v'.map phase = v.map phase := by
    cases phase with
    | pre => exact calm.premap.trans premap
    | post => exact calm.postmap.trans postmap
  have next := there.ctrlDone answer still'
  rw [indc,map,there.2.moduleQ] at next
  have flag' := calm.flag.trans flag
  refine ⟨_,v',.ahead (.ahead (leads.trans (leads'.trans (.ahead (.refl _ _))))),next,
    ⟨by rw [flag']; exact walks.flag,indc.trans flag'.symm,still',calm.fits fits⟩,calm.premap.trans premap,calm.postmap.trans postmap,
    calm.seen.trans seen,?_⟩
  intro x other
  rw [calm.asked x other,asked]

theorem pre_takes (walks : Walks c .pre v)
    (here : At c s (.loop .pre todo) v) (isTodo : order c.owner v.premap todo = mdl :: rest)
    (isAll : order c.owner v.premap (visits c.moduleQ .pre) = mdl :: rest) :
    ∃ t v' todo', Leads (drive answer) s t ∧ At c t (.loop .pre todo') v' ∧ Walks c .pre v' ∧
      v'.premap = v.premap.clr mdl ∧ v'.postmap = v.postmap ∧ order c.owner v'.premap todo' = rest ∧
      v'.seen = v.seen ++ [(mdl,.pre)] ∧ ∀ x, x ≠ phlMdlPhyMgnt → v'.asked x .post = v.asked x .post := by
  obtain ⟨bound,accepts⟩ := (patient mdl .pre).2
  have bit : v.premap.chk mdl := order_chk (isAll ▸ List.mem_cons_self)
  have other := registered.notCtrl (walks.fits.1.chk bit)
  induction left : bound - v.asked mdl .pre using Nat.strongRecOn generalizing s v todo with
  | _ rounds ih =>
    obtain ⟨t,todo',leads,feeding,isRest⟩ := loop_next answer here isTodo
    by_cases pends : answer mdl .pre (v.asked mdl .pre) = .pending
    · obtain ⟨u,w,leads',next,walks',premap,postmap,seen,asked⟩ := pend_returns registered patient walks feeding pends
      have flag : v.flag := by
        have isPre := walks.flag
        unfold entry at isPre
        split at isPre
        · assumption
        · exact nomatch isPre
      have nonzero : (v.map .pre != 0) := Within.nonzero bit
      rw [flag,nonzero] at next
      have more : w.asked mdl .pre = v.asked mdl .pre + 1 := by
        rw [asked mdl other]
        simp [bump]
      have below : v.asked mdl .pre < bound := Nat.lt_of_not_le fun reached => accepts _ reached pends
      obtain ⟨t3,v3,todo3,leads3,there3,walks3,premap3,postmap3,isRest3,seen3,asked3⟩ :=
        ih _ (by omega) walks' next (premap ▸ isAll) (premap ▸ isAll) (premap ▸ bit) rfl
      refine ⟨t3,v3,todo3,leads.trans (leads'.trans leads3),there3,walks3,?_,postmap3.trans postmap,isRest3,?_,?_⟩
      · rw [premap3,premap]
      · rw [seen3,seen]
      · intro x notCtrl
        rw [asked3 x notCtrl,asked x notCtrl]
        simp [bump]
    · obtain ⟨there,seen⟩ := feeding_taken patient walks feeding pends other
      have premap : ((v.fed mdl .success).clr mdl).premap = v.premap.clr mdl := clr_map walks mdl .success
      have postmap : ((v.fed mdl .success).clr mdl).postmap = v.postmap := by
        have indc : v.indc := by
          have phase := walks.inPhase
          unfold View.phase at phase
          split at phase
          · assumption
          · exact nomatch phase
        unfold View.clr
        rw [if_pos (by exact indc)]
        rfl
      refine ⟨_,_,todo',leads.trans (.ahead (.refl _ _)),there,clr_walks walks mdl .success,premap,postmap,?_,seen,?_⟩
      · rw [premap]
        exact isRest
      · intro x _
        rw [clr_asked,walks.inPhase]
        simp

theorem pre_done (walks : Walks c .pre v)
    (here : At c s (.loop .pre todo) v) (isTodo : order c.owner v.premap todo = mdls)
    (isAll : order c.owner v.premap (visits c.moduleQ .pre) = mdls) :
    ∃ t v', Leads (drive answer) s t ∧ At c t (.preDone .pre) v' ∧ Walks c .pre v' ∧ v'.premap = 0 ∧ v'.postmap = v.postmap ∧
      v'.seen = v.seen ++ mdls.map (·,.pre) ∧ ∀ x, x ≠ phlMdlPhyMgnt → v'.asked x .post = v.asked x .post := by
  induction mdls generalizing s v todo with
  | nil =>
    obtain ⟨t,leads,there⟩ := loop_empty answer here isTodo
    exact ⟨t,v,leads,there,walks,order_empty registered walks.fits.1 isAll,rfl,by simp,fun _ _ => rfl⟩
  | cons mdl rest ih =>
    obtain ⟨t,v',todo',leads,there,walks',premap,postmap,isRest,seen,asked⟩ := pre_takes registered patient walks here isTodo isAll
    have isAll' : order c.owner v'.premap (visits c.moduleQ .pre) = rest := by
      rw [premap]
      exact order_head isAll
    obtain ⟨u,w,leads',there',walks'',done,postmap',seen',asked'⟩ := ih walks' there isRest isAll'
    refine ⟨u,w,leads.trans leads',there',walks'',done,postmap'.trans postmap,?_,?_⟩
    · rw [seen',seen]
      simp
    · intro x other
      rw [asked' x other,asked x other]

theorem post_takes (walks : Walks c .post v) (here : At c s (.loop .post todo) v)
    (isTodo : order c.owner v.postmap todo = mdl :: rest)
    (isAll : order c.owner v.postmap (visits c.moduleQ .post) = mdl :: rest)
    (willing : answer mdl .post (v.asked mdl .post) ≠ .pending) :
    ∃ t v' todo', Leads (drive answer) s t ∧ At c t (.loop .post todo') v' ∧ Walks c .post v' ∧
      order c.owner v'.postmap todo' = rest ∧ order c.owner v'.postmap (visits c.moduleQ .post) = rest ∧
      v'.seen = v.seen ++ [(mdl,.post)] ∧ ∀ x ∈ rest, v'.asked x .post = v.asked x .post := by
  have other := registered.notCtrl (walks.fits.2.chk (order_chk (isAll ▸ List.mem_cons_self)))
  obtain ⟨t,todo',leads,feeding,isRest⟩ := loop_next answer here isTodo
  obtain ⟨there,seen⟩ := feeding_taken patient walks feeding willing other
  have postmap : ((v.fed mdl .success).clr mdl).postmap = v.postmap.clr mdl := clr_map walks mdl .success
  have isAll' : order c.owner ((v.fed mdl .success).clr mdl).postmap (visits c.moduleQ .post) = rest := by
    rw [postmap]
    exact order_head isAll
  refine ⟨_,_,todo',leads.trans (.ahead (.refl _ _)),there,clr_walks walks mdl .success,postmap ▸ isRest,isAll',seen,?_⟩
  intro x member
  have fresh : x ≠ mdl := by
    have bit := order_chk (isAll'.symm ▸ member)
    rw [postmap,chk_clr] at bit
    simpa using And.right (by simpa using bit)
  rw [clr_asked,if_neg (by simp [fresh]),Nat.add_zero]

section
variable (walks : Walks c .post v) (here : At c s (.loop .post todo) v) (isTodo : order c.owner v.postmap todo = mdls) (isAll : order c.owner v.postmap (visits c.moduleQ .post) = mdls)
include walks here isTodo isAll

theorem post_done
    (willing : ∀ mdl ∈ mdls, answer mdl .post (v.asked mdl .post) ≠ .pending) :
    ∃ t v', Leads (drive answer) s t ∧ At c t .postDone v' ∧ v'.pending = false ∧ v'.postmap = 0 ∧
      v'.seen = v.seen ++ mdls.map (·,.post) := by
  induction mdls generalizing s v todo with
  | nil =>
    obtain ⟨t,leads,there⟩ := loop_empty answer here isTodo
    exact ⟨t,v,leads,there,walks.still,order_empty registered walks.fits.2 isAll,by simp⟩
  | cons mdl rest ih =>
    obtain ⟨t,v',todo',leads,there,walks',isRest,isAll',seen,asked⟩ :=
      post_takes registered patient walks here isTodo isAll (willing mdl List.mem_cons_self)
    have willing' : ∀ x ∈ rest, answer x .post (v'.asked x .post) ≠ .pending := by
      intro x member
      rw [asked x member]
      exact willing x (List.mem_cons_of_mem _ member)
    obtain ⟨u,w,leads',there',still,done,seen'⟩ := ih walks' there isRest isAll' willing'
    refine ⟨u,w,leads.trans leads',there',still,done,?_⟩
    rw [seen',seen]
    simp

theorem post_pends (member : x ∈ mdls)
    (pends : answer x .post (v.asked x .post) = .pending) :
    ∃ t, Leads (drive answer) s t ∧ t.pc = .held c.i .recycle ∧ (t.msgExPool c.i).serial = c.serial ∧
      (t.msgExPool c.i).status.cancel := by
  induction mdls generalizing s v todo with
  | nil => exact nomatch member
  | cons mdl rest ih =>
    by_cases now : answer mdl .post (v.asked mdl .post) = .pending
    · obtain ⟨t,todo',leads,feeding,_⟩ := loop_next answer here isTodo
      obtain ⟨u,w,leads',next,walks',_,postmap,_⟩ := pend_returns registered patient walks feeding now
      have flag : v.flag = false := by
        have isPost := walks.flag
        unfold entry at isPost
        split at isPost
        · exact nomatch isPost
        · simpa using ‹¬v.flag›
      have broken : At c u (.preDone .post) w := by
        rw [flag] at next
        exact next
      have left : (w.map .post != 0) := Within.nonzero (postmap ▸ order_chk (isAll ▸ List.mem_cons_self))
      exact ⟨_,leads.trans (leads'.trans (.ahead (.refl _ _))),broken.preBroken walks'.still left⟩
    · have later : x ∈ rest := by
        rcases List.mem_cons.mp member with rfl | later
        · exact absurd pends now
        · exact later
      obtain ⟨t,v',todo',leads,there,walks',isRest,isAll',_,asked⟩ := post_takes registered patient walks here isTodo isAll now
      obtain ⟨u,leads',there',facts⟩ := ih walks' there isRest isAll' later ((asked x later).symm ▸ pends)
      exact ⟨u,leads.trans leads',there',facts⟩
end
end

theorem accepts_other (other : takes n note = none) : accepts (log ++ [note]) n = accepts log n := by
  unfold accepts
  rw [List.filterMap_append]
  simp [other]

theorem completeMsg_keeps (s : CmdDispatcher) (i n : Nat) :
    ((completeMsg s i).1.msgExPool i).serial = (s.msgExPool i).serial ∧
      ((completeMsg s i).1.msgExPool i).status = (s.msgExPool i).status ∧ accepts (completeMsg s i).1.log n = accepts s.log n := by
  unfold completeMsg
  dsimp only
  split
  · have same : (if (s.msgExPool i).status.cancel then
        s.setEx i {s.msgExPool i with msg:={(s.msgExPool i).msg with cancel:=true}} else s).log = s.log := by split <;> rfl
    refine ⟨?_,?_,?_⟩
    · dsimp only [CmdDispatcher.note]
      split <;> simp [CmdDispatcher.setEx]
    · dsimp only [CmdDispatcher.note]
      split <;> simp [CmdDispatcher.setEx]
    · dsimp only [CmdDispatcher.note]
      rw [same]
      exact accepts_other rfl
  · exact ⟨rfl,rfl,rfl⟩

theorem recycled (answer : Answer) (n : Nat) (pc : s.pc = .held i .recycle) :
    ∃ t, Leads (drive answer) s t ∧ Note.recycle (s.msgExPool i).serial i (s.msgExPool i).status ∈ t.log ∧
      accepts t.log n = accepts s.log n := by
  obtain ⟨serial,status,seen⟩ := completeMsg_keeps s i n
  have one : drive answer s =
      if (completeMsg s i).2 then (completeMsg s i).1.goto (.held i .completing) else (returnMsg (completeMsg s i).1 i).goto .wait :=
    drive_held pc (by simp)
  have log (u : CmdDispatcher) (keeps : (u.msgExPool i).serial = (s.msgExPool i).serial ∧
      (u.msgExPool i).status = (s.msgExPool i).status ∧ accepts u.log n = accepts s.log n) :
      Note.recycle (s.msgExPool i).serial i (s.msgExPool i).status ∈ ((returnMsg u i).goto .wait).log ∧
        accepts ((returnMsg u i).goto .wait).log n = accepts s.log n := by
    rw [goto_log,returnMsg_log,keeps.1,keeps.2.1,accepts_other rfl]
    exact ⟨by simp,keeps.2.2⟩
  cases called : (completeMsg s i).2 with
  | false =>
    rw [called] at one
    exact ⟨_,.ahead (.refl _ _),one ▸ log _ ⟨serial,status,seen⟩⟩
  | true =>
    rw [called] at one
    have two : drive answer ((completeMsg s i).1.goto (.held i .completing)) =
        (returnMsg ((completeMsg s i).1.goto (.held i .completing)) i).goto .wait := by
      have pc : ((completeMsg s i).1.goto (.held i .completing)).pc = .held i .completing := rfl
      exact drive_held pc (by simp)
    refine ⟨drive answer (drive answer s),.ahead (.ahead (.refl _ _)),?_⟩
    rw [one]
    change _ ∈ (drive answer ((completeMsg s i).1.goto (.held i .completing))).log ∧
      accepts (drive answer ((completeMsg s i).1.goto (.held i .completing))).log n = _
    rw [two]
    exact log _ ⟨serial,status,seen⟩

structure Ready (s : CmdDispatcher) (i : Nat) : Prop where
  waits : s.pc = .wait
  woken : 0 < s.msgQSema
  queue : s.msgWaitQ = [i]
  parked : s.msgPendQ = []
  ops : s.tokenOpQ = []
  started : s.status.started = true
  going : s.status.shallStop = false
  io : s.status.cannotIo = false
  flag : (s.msgExPool i).status.prePhase = true
  keeps : (s.msgExPool i).status.cancel = false
  sound : (s.msgExPool i).status.fail = false
  quiet : s.pendingEvt (s.msgExPool i).msg.mdlId = msgEvtMax ∨ s.pendingEvt (s.msgExPool i).msg.mdlId = (s.msgExPool i).msg.evtId
  fresh : ∀ mdl phase ret, Note.fed (s.msgExPool i).serial mdl phase ret ∉ s.log
  registered : Registered s.moduleQ s.bitmap

section
variable (s : CmdDispatcher) (i : Nat)

def Ready.scene : Scene := ⟨i,(s.msgExPool i).serial,s.moduleQ,s.bitmap,(s.msgExPool i).module,s.status.ctrlPresent⟩

def preMdls : List Nat := order (s.msgExPool i).module ((s.msgExPool i).premap &&& s.bitmap) (visits s.moduleQ .pre)

def postMdls : List Nat := order (s.msgExPool i).module ((s.msgExPool i).postmap &&& s.bitmap) (visits s.moduleQ .post)
end

def Resumes (answer : Answer) (s : CmdDispatcher) (i : Nat) : Prop :=
  ∃ t, Leads (drive answer) s t ∧
    accepts t.log (s.msgExPool i).serial = (preMdls s i).map (·,.pre) ++ (postMdls s i).map (·,.post) ∧
    ∃ status, Note.recycle (s.msgExPool i).serial i status ∈ t.log ∧ status.cancel = false ∧ status.fail = false

theorem Ready.starts (ready : Ready s i) :
    ∃ t v, Leads (drive answer) s t ∧ At (Ready.scene s i) t .start v ∧ v.flag ∧ v.pending = false ∧ v.seen = [] ∧
      (∀ x p, v.asked x p = 0) ∧ v.premap = (s.msgExPool i).premap &&& s.bitmap ∧ v.postmap = (s.msgExPool i).postmap &&& s.bitmap := by
  let v : View := (s.msgExPool i).view ⟨true,true,true,0,0,[],fun _ _ => 0⟩
  have seen : accepts s.log (s.msgExPool i).serial = [] := by
    unfold accepts
    rw [List.filterMap_eq_nil_iff]
    intro note member
    cases note with
    | fed m mdl phase ret =>
      have other : m ≠ (s.msgExPool i).serial := by
        rintro rfl
        exact ready.fresh _ _ _ member
      simp [takes,other]
    | _ => rfl
  have asked : ∀ mdl phase, calls s.log (s.msgExPool i).serial mdl phase = 0 := by
    intro mdl phase
    unfold calls
    rw [List.countP_eq_zero]
    intro note member
    cases note with
    | fed m x p ret =>
      have other : m ≠ (s.msgExPool i).serial := by
        rintro rfl
        exact ready.fresh _ _ _ member
      simp [isCall,other]
    | _ => simp [isCall]
  have shows : Shows (Ready.scene s i) s [i] [] v :=
    ⟨rfl,rfl,rfl,ready.started,ready.going,ready.io,ready.ops,ready.queue,ready.parked,rfl,rfl,rfl,rfl,rfl,rfl,rfl,ready.keeps,
      ready.sound,ready.quiet,seen,asked⟩
  have one : ∃ u, drive answer s = u.goto .tokenOps ∧ Shows (Ready.scene s i) u [i] [] v := by
    unfold drive threadStep
    rw [ready.waits]
    have woken := ready.woken
    rw [if_pos ready.parked,ready.waits]
    rw [if_neg (by omega)]
    refine ⟨_,rfl,?_⟩
    unfold clearPendingMsg
    split
    · have parked : ({s with msgQSema:=s.msgQSema - 1} : CmdDispatcher).msgPendQ = [] := ready.parked
      rw [parked]
      exact {shows with pended:=rfl}
    · exact {shows with}
  obtain ⟨u,one,shows'⟩ := one
  obtain ⟨t,leads,there⟩ := fetched answer rfl (shows'.goto .tokenOps)
  exact ⟨t,_,.ahead (one ▸ leads),there,ready.flag,rfl,rfl,fun _ _ => rfl,rfl,rfl⟩

theorem order_zero (owner : Option Nat) (todo : List Visit) : order owner 0 todo = [] := by
  cases isOrder : order owner 0 todo with
  | nil => rfl
  | cons mdl rest =>
    have bit : Bitmap.chk 0 mdl := order_chk (isOrder ▸ List.mem_cons_self)
    exact absurd (Within.nonzero bit) (by simp)

theorem Ready.passes (ready : Ready s i) (patient : Patient answer) :
    ∃ t v, Leads (drive answer) s t ∧ At (Ready.scene s i) t .postStart v ∧ v.pending = false ∧ v.Fits s.bitmap ∧
      v.postmap = (s.msgExPool i).postmap &&& s.bitmap ∧ v.seen = (preMdls s i).map (·,.pre) ∧
      ∀ x, x ≠ phlMdlPhyMgnt → v.asked x .post = 0 := by
  have registered : Registered (Ready.scene s i).moduleQ (Ready.scene s i).bitmap := ready.registered
  obtain ⟨t,v,leads,there,flag,still,seen,asked,premap,postmap⟩ := ready.starts
  have fits : v.Fits (Ready.scene s i).bitmap := by
    unfold View.Fits
    rw [premap,postmap]
    exact ⟨within_and _ _,within_and _ _⟩
  obtain ⟨t1,v1,leads1,there1,still1,indc1,calm⟩ := ctrl_passes registered patient there still fits
  have isPre : entry v.flag = .pre := by rw [flag]; rfl
  rw [isPre] at there1
  have next := there1.ctrlDone answer still1
  have walks : Walks (Ready.scene s i) .pre v1 := ⟨by rw [calm.flag]; exact isPre,by rw [indc1,calm.flag],still1,calm.fits fits⟩
  have premap1 : v1.premap = (s.msgExPool i).premap &&& s.bitmap := calm.premap.trans premap
  have asked1 : ∀ x, x ≠ phlMdlPhyMgnt → v1.asked x .post = 0 := fun x other => (congrFun (calm.asked x other) _).trans (asked x _)
  have isAll : order (Ready.scene s i).owner v1.premap (visits (Ready.scene s i).moduleQ .pre) = preMdls s i := by
    rw [premap1]
    rfl
  have isMap : v1.map .pre = v1.premap := rfl
  rw [indc1,flag,isMap,there1.2.moduleQ] at next
  cases some : (v1.premap != 0) with
  | false =>
    rw [some] at next
    have zero : v1.premap = 0 := by simpa using some
    have done := At.preDone answer next still1 zero
    have none : preMdls s i = [] := by
      rw [← isAll,zero]
      exact order_zero _ _
    refine ⟨_,v1,leads.trans (leads1.trans (.ahead (.ahead (.refl _ _)))),done,still1,walks.fits,calm.postmap.trans postmap,?_,asked1⟩
    rw [none,calm.seen,seen]
    rfl
  | true =>
    rw [some] at next
    obtain ⟨t2,v2,leads2,there2,walks2,zero,postmap2,seen2,asked2⟩ := pre_done registered patient walks next isAll isAll
    have done := At.preDone answer there2 walks2.still zero
    refine ⟨_,v2,leads.trans (leads1.trans (.ahead (leads2.trans (.ahead (.refl _ _))))),done,walks2.still,walks2.fits,?_,?_,?_⟩
    · rw [postmap2,calm.postmap,postmap]
    · rw [seen2,calm.seen,seen]
      simp
    · intro x other
      rw [asked2 x other,asked1 x other]

theorem post_begins (answer : Answer) (here : At c s .postStart v) (still : v.pending = false) (fits : v.Fits c.bitmap) :
    Walks c .post {v with flag:=false,indc:=false} ∧
      (v.postmap = 0 ∧ At c (drive answer s) .postDone {v with flag:=false,indc:=false} ∨
        At c (drive answer s) (.loop .post (visits c.moduleQ .post)) {v with flag:=false,indc:=false}) := by
  have next := here.postStart answer
  refine ⟨⟨rfl,rfl,still,fits⟩,?_⟩
  rw [here.2.moduleQ] at next
  cases some : (v.postmap != 0) with
  | false =>
    rw [some] at next
    exact .inl ⟨by simpa using some,next⟩
  | true =>
    rw [some] at next
    exact .inr next

theorem Ready.resumes (ready : Ready s i) (patient : Patient answer)
    (willing : ∀ mdl, Bitmap.chk ((s.msgExPool i).postmap &&& s.bitmap) mdl → answer mdl .post 0 ≠ .pending) :
    Resumes answer s i := by
  have registered : Registered (Ready.scene s i).moduleQ (Ready.scene s i).bitmap := ready.registered
  obtain ⟨t,v,leads,there,still,fits,postmap,seen,asked⟩ := ready.passes patient
  have isAll : order (Ready.scene s i).owner v.postmap (visits (Ready.scene s i).moduleQ .post) = postMdls s i := by
    rw [postmap]
    rfl
  obtain ⟨walks,next⟩ := post_begins answer there still fits
  have done : ∃ u w, Leads (drive answer) s u ∧ At (Ready.scene s i) u .postDone w ∧ w.pending = false ∧ w.postmap = 0 ∧
      w.seen = (preMdls s i).map (·,.pre) ++ (postMdls s i).map (·,.post) := by
    rcases next with ⟨zero,next⟩ | next
    · have none : postMdls s i = [] := by
        rw [← isAll,zero]
        exact order_zero _ _
      refine ⟨_,_,leads.trans (.ahead (.refl _ _)),next,still,zero,?_⟩
      rw [none,List.map_nil,List.append_nil]
      exact seen
    · have yields : ∀ mdl ∈ postMdls s i, answer mdl .post (v.asked mdl .post) ≠ .pending := by
        intro mdl member
        have bit := order_chk member
        rw [asked mdl (ready.registered.notCtrl ((within_and _ _).chk bit))]
        exact willing mdl bit
      obtain ⟨u,w,leads',there',still',zero,seen'⟩ := post_done registered patient walks next isAll isAll yields
      refine ⟨u,w,leads.trans (.ahead leads'),there',still',zero,?_⟩
      rw [seen']
      exact congrArg (· ++ _) seen
  obtain ⟨u,w,leads',there',still',zero,seen'⟩ := done
  have last := At.postDone answer there' still' zero
  obtain ⟨pc,shows⟩ := last
  have told : drive answer (drive answer u) =
      (curReqHdl (drive answer u) ((drive answer u).msgExPool i)).goto (.held i .recycle) := drive_held pc (by simp)
  have same : (curReqHdl (drive answer u) ((drive answer u).msgExPool i)).msgExPool = (drive answer u).msgExPool ∧
      accepts (curReqHdl (drive answer u) ((drive answer u).msgExPool i)).log (s.msgExPool i).serial =
        accepts (drive answer u).log (s.msgExPool i).serial := by
    unfold curReqHdl
    split
    · exact ⟨rfl,rfl⟩
    · dsimp only
      split
      · exact ⟨rfl,rfl⟩
      · exact ⟨rfl,accepts_other rfl⟩
  generalize isLast : curReqHdl (drive answer u) ((drive answer u).msgExPool i) = last at told same
  obtain ⟨x,leads'',recycle,seen''⟩ := recycled answer (s.msgExPool i).serial
    (show (last.goto (.held i .recycle)).pc = .held i .recycle from rfl)
  have pool : (last.goto (.held i .recycle)).msgExPool i = (drive answer u).msgExPool i := congrFun same.1 i
  have serial : ((drive answer u).msgExPool i).serial = (s.msgExPool i).serial := shows.serial
  rw [pool,serial] at recycle
  refine ⟨x,leads'.trans (.ahead (.ahead (told ▸ leads''))),?_,_,recycle,shows.keeps,shows.sound⟩
  rw [seen'',goto_log,same.2]
  exact shows.seen.trans seen'

theorem drive_reached (path : Reached step (fun _ _ => True) origin s) (answer : Answer) :
    Reached step (fun _ _ => True) origin (drive answer s) := by
  have next (t : CmdDispatcher) (path : Reached step (fun _ _ => True) origin t) (ret : MdlRet) :
      Reached step (fun _ _ => True) origin (step t (.thread ret)) := .step path trivial
  unfold drive
  split
  · split
    · exact next _ path _
    · have cleared : Reached step (fun _ _ => True) origin (step s .clrPending) := .step path trivial
      exact next _ cleared _
  · exact next _ path _
  · exact next _ path _

theorem drive_log (answer : Answer) (s : CmdDispatcher) : s.log <+: (drive answer s).log := by
  unfold drive
  split
  · split
    · exact thread_log s _
    · exact thread_log (disprClrPendingMsg s) _
  · exact thread_log s _
  · exact thread_log s _

theorem leads_reached (path : Reached step (fun _ _ => True) origin s) (leads : Leads (drive answer) s t) :
    Reached step (fun _ _ => True) origin t := by
  obtain ⟨k,rfl⟩ := leads
  induction k generalizing s with
  | zero => exact path
  | succ k ih => exact ih (drive_reached path answer)

theorem leads_log (leads : Leads (drive answer) s t) : s.log <+: t.log := by
  obtain ⟨k,rfl⟩ := leads
  induction k generalizing s with
  | zero => exact List.prefix_rfl
  | succ k ih => exact (drive_log answer s).trans ih

theorem recycled_once (path : Reached step (fun _ _ => True) (disprStart moduleQ bitmap basemap ctrlPresent) s)
    (accepted : Note.accept n j c ∈ s.log) (one : Note.recycle n i status ∈ s.log) (two : Note.recycle n i' status' ∈ s.log) :
    status = status' := by
  have kept := reached_kept path
  have first : Note.recycle n i status ∈ story s.log n := List.mem_filter.mpr ⟨one,by simp [about]⟩
  have second : Note.recycle n i' status' ∈ story s.log n := List.mem_filter.mpr ⟨two,by simp [about]⟩
  rcases kept.told n j c accepted with ⟨small,out,load⟩ | ⟨last,finished⟩
  · have told := (kept.loads j small out _ rfl).2
    rw [load] at told
    rw [told] at first
    unfold called at first
    split at first <;> simp at first
  · rw [finished] at first second
    simp only [List.cons_append,List.mem_cons,List.mem_append,List.mem_map,reduceCtorEq,false_or,and_false,exists_false,
      Note.recycle.injEq,List.not_mem_nil,or_false] at first second
    exact first.2.2.trans second.2.2.symm

theorem leads_either (one : Leads next s t) (two : Leads next s u) : Leads next t u ∨ Leads next u t := by
  obtain ⟨m,rfl⟩ := one
  obtain ⟨n,rfl⟩ := two
  rcases Nat.le_total m n with less | more
  · exact .inl ⟨n-m,by rw [← Function.iterate_add_apply,Nat.sub_add_cancel less]⟩
  · exact .inr ⟨m-n,by rw [← Function.iterate_add_apply,Nat.sub_add_cancel more]⟩

theorem Ready.canceled (ready : Ready s i) (patient : Patient answer)
    (path : Reached step (fun _ _ => True) (disprStart moduleQ bitmap basemap ctrlPresent) s)
    (bit : Bitmap.chk ((s.msgExPool i).postmap &&& s.bitmap) mdl) (pends : answer mdl .post 0 = .pending) :
    ¬ Resumes answer s i := by
  have registered : Registered (Ready.scene s i).moduleQ (Ready.scene s i).bitmap := ready.registered
  obtain ⟨t,v,leads,there,still,fits,postmap,_,asked⟩ := ready.passes patient
  have isAll : order (Ready.scene s i).owner v.postmap (visits (Ready.scene s i).moduleQ .post) = postMdls s i := by
    rw [postmap]
    rfl
  obtain ⟨walks,next⟩ := post_begins answer there still fits
  have broken : ∃ u, Leads (drive answer) s u ∧ u.pc = .held i .recycle ∧ (u.msgExPool i).serial = (s.msgExPool i).serial ∧
      (u.msgExPool i).status.cancel := by
    rcases next with ⟨zero,_⟩ | next
    · rw [← postmap,zero] at bit
      exact absurd (Within.nonzero bit) (by simp)
    · have member := (order_mem ready.registered (within_and _ _) (s.msgExPool i).module .post).mpr bit
      have now : answer mdl .post (({v with flag:=false,indc:=false} : View).asked mdl .post) = .pending := by
        have fresh := asked mdl (ready.registered.notCtrl ((within_and _ _).chk bit))
        exact fresh ▸ pends
      obtain ⟨u,leads',facts⟩ := post_pends registered patient walks next isAll isAll member now
      exact ⟨u,leads.trans (.ahead leads'),facts⟩
  obtain ⟨u,leads',pc,serial,cancel⟩ := broken
  obtain ⟨w,leads'',recycle,_⟩ := recycled answer 0 pc
  rw [serial] at recycle
  rintro ⟨x,leadsX,_,status,recycleX,keeps,_⟩
  have kept := reached_kept path
  have queued : i ∈ s.msgWaitQ := by rw [ready.queue]; simp
  have place := kept.places i
  have waits := List.count_pos_iff.mpr queued
  have small : i < maxPhlMsgNum := by
    split at place
    · assumption
    · omega
  have out : i ∉ s.msgIdleQ := by
    intro idle
    have there := List.count_pos_iff.mpr idle
    split at place <;> omega
  have accepted : Note.accept (s.msgExPool i).serial i (s.msgExPool i).completion ∈ s.log := by
    have member : Note.accept (s.msgExPool i).serial i (s.msgExPool i).completion ∈ story s.log (s.msgExPool i).serial := by
      have told : story s.log (s.msgExPool i).serial = _ := (kept.loads i small out _ rfl).2
      rw [told]
      exact List.mem_cons_self
    exact List.mem_of_mem_filter member
  have same : (u.msgExPool i).status = status := by
    rcases leads_either (leads'.trans leads'') leadsX with later | later
    · exact recycled_once (leads_reached path leadsX) ((leads_log leadsX).subset accepted) ((leads_log later).subset recycle) recycleX
    · exact recycled_once (leads_reached path (leads'.trans leads'')) ((leads_log (leads'.trans leads'')).subset accepted) recycle
        ((leads_log later).subset recycleX)
  rw [same,keeps] at cancel
  exact nomatch cancel

-- A message that is pended resumes where it stopped exactly if no module pends
-- it in the post phase.
theorem pended_resumes (path : Reached step (fun _ _ => True) (disprStart moduleQ bitmap basemap ctrlPresent) s)
    (ready : Ready s i) (patient : Patient answer) :
    Resumes answer s i ↔ ∀ mdl, Bitmap.chk ((s.msgExPool i).postmap &&& s.bitmap) mdl = true → answer mdl .post 0 ≠ .pending := by
  constructor
  · intro resumes mdl bit pends
    exact ready.canceled patient path bit pends resumes
  · exact ready.resumes patient

theorem powerMgnt_registered : Registered powerMgntQ powerMgntMap := by
  constructor
  · intro p mdl member
    cases p with
    | role => exact nomatch member
    | optional => exact nomatch member
    | mandatory =>
      rw [List.mem_singleton.mp member]
      decide
  · intro mdl bit
    refine ⟨.mandatory,_,List.mem_singleton_self _,?_⟩
    unfold powerMgntMap Bitmap.chk at bit
    rw [BitVec.getLsbD_twoPow] at bit
    simp only [Bool.and_eq_true,decide_eq_true_eq] at bit
    exact bit.2

def oneSent : CmdDispatcher :=
  step (disprStart powerMgntQ powerMgntMap powerMgntMap true) (.send {mdlId:=phlMdlPowerMgnt,evtId:=7} none)

theorem oneSent_ready : Ready oneSent 0 := by
  have log : oneSent.log = [.accept 0 0 none] := by decide +kernel
  refine ⟨?_,?_,?_,?_,?_,?_,?_,?_,?_,?_,?_,?_,?_,powerMgnt_registered⟩
  case refine_13 =>
    rw [log]
    simp
  all_goals decide +kernel

def pendsFor (phase : Phase) (k : Nat) : Answer := fun mdl p asked =>
  if mdl = phlMdlPowerMgnt ∧ p = phase ∧ asked < k then .pending else .success

theorem pendsFor_patient (phase : Phase) (k : Nat) : Patient (pendsFor phase k) := by
  intro mdl p
  refine ⟨?_,k,?_⟩
  · intro asked
    unfold pendsFor
    split <;> simp
  · intro asked enough
    have late : ¬asked < k := by omega
    simp [pendsFor,late]

theorem pended_resumes_run : Resumes (pendsFor .pre 2) oneSent 0 := by
  refine (pended_resumes (.step .start trivial) oneSent_ready (pendsFor_patient .pre 2)).mpr ?_
  intro mdl _
  simp [pendsFor]

-- Pended once in the post phase, it is canceled.
theorem pended_canceled : Reached step (fun _ _ => True) (disprStart powerMgntQ powerMgntMap powerMgntMap true) oneSent ∧
    Ready oneSent 0 ∧ Patient (pendsFor .post 1) ∧ ¬ Resumes (pendsFor .post 1) oneSent 0 := by
  have path : Reached step (fun _ _ => True) (disprStart powerMgntQ powerMgntMap powerMgntMap true) oneSent := .step .start trivial
  have bit : Bitmap.chk ((oneSent.msgExPool 0).postmap &&& oneSent.bitmap) phlMdlPowerMgnt := by decide +kernel
  exact ⟨path,oneSent_ready,pendsFor_patient .post 1,oneSent_ready.canceled (pendsFor_patient .post 1) path bit (by simp [pendsFor])⟩
end Rtl8852au.Dispr
