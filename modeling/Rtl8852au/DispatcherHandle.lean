import Rtl8852au.DispatcherLive
import Rtl8852au.DispatcherTokenMutex

namespace Rtl8852au.Dispr
open Machine List Tok

def ReqStatus.alive (status : ReqStatus) : Bool := status.enq || status.run || status.prepare
def ReqStatus.served (status : ReqStatus) : Bool := status.run || status.prepare

def MsgRecycled (s : TokenSys) (n i : Nat) : Prop :=
  i < maxPhlMsgNum ∧ (∃ c, Note.accept n i c ∈ s.dispr.log) ∧ ∃ status, Note.recycle n i status ∈ s.dispr.log

def ReqRecycled (s : TokenSys) (req life : Nat) : Prop :=
  req < maxCmdReqNum ∧ 0 < life ∧ life ≤ s.life req ∧ (life = s.life req → req ∈ s.dispr.tokenReqIdleQ)

structure Harmless (s t : TokenSys) : Prop where
  msgs : ∀ i < maxPhlMsgNum, i ∉ s.dispr.msgIdleQ → (t.dispr.msgExPool i).status = (s.dispr.msgExPool i).status
  reqs : ∀ req < maxCmdReqNum, (t.dispr.tokenReqExPool req).status = (s.dispr.tokenReqExPool req).status
  calls : t.calls = s.calls

def Elsewhere (s : TokenSys) (req : Nat) : Prop :=
  req ∈ s.dispr.tokenReqIdleQ ∨ (∃ call ∈ s.calls, call.req = req ∧ (call.stage = .taken ∨ call.stage = .pushed)) ∨
    (∃ node, s.dispr.pc = .abortCurrent node) ∧ s.dispr.curCmdReq = some req

structure StaleSound (s : TokenSys) : Prop where
  other : ∀ n i, MsgRecycled s n i → i ∉ s.dispr.msgIdleQ → (s.dispr.msgExPool i).serial ≠ n
  cancelMsg : ∀ n i, MsgRecycled s n i → (Harmless s (tokenStep s (.call (.cancel (genValidHdl i)))) ↔
    s.dispr.status.started = false ∨ i ∈ s.dispr.msgIdleQ ∨ (s.dispr.msgExPool i).status.cancel)
  cancelReq : ∀ req life, ReqRecycled s req life → (Harmless s (tokenStep s (.call (.cancelTokenReq (genValidHdl req)))) ↔
    s.dispr.status.started = false ∨ (s.dispr.tokenReqExPool req).status.alive = false)
  freeReq : ∀ req life, ReqRecycled s req life → (Harmless s (tokenStep s (.call (.freeToken (genValidHdl req)))) ↔
    s.dispr.status.started = false ∨ s.dispr.curCmdReq = none ∨ s.dispr.tokenCnt = 0 ∨
      (s.dispr.tokenReqExPool req).status.served = false)
  elsewhere : ∀ req < maxCmdReqNum, (s.dispr.tokenReqExPool req).status.alive = false → Elsewhere s req

theorem msgHdl_idx : ∀ i < maxPhlMsgNum, isHdlValid (genValidHdl i) ∧ getIdxFromHdl (genValidHdl i) = i := by decide

theorem reqHdl_idx (small : req < maxCmdReqNum) : isHdlValid (genValidHdl req) ∧ getIdxFromHdl (genValidHdl req) = req :=
  msgHdl_idx req (Nat.lt_trans small (by decide))

section messages
variable {s : TokenSys}

theorem recycled_other (msgs : MsgsKept s.dispr) (recycled : MsgRecycled s n i) (out : i ∉ s.dispr.msgIdleQ) :
    (s.dispr.msgExPool i).serial ≠ n := by
  obtain ⟨small,_,status,returned⟩ := recycled
  intro carried
  have told := (Kept.loads msgs.kept i small out _ rfl).2
  have member : Note.recycle n i status ∈ story s.dispr.log (s.dispr.msgExPool i).load.serial := by
    refine mem_filter.mpr ⟨returned,?_⟩
    rw [← carried]
    exact beq_self_eq_true _
  rw [told] at member
  cases member with
  | tail _ routine =>
    unfold called at routine
    split at routine
    · obtain ⟨_,_,same⟩ := mem_map.mp routine
      cases same
    · cases routine

section
variable (msgs : MsgsKept s.dispr) (small : i < maxPhlMsgNum)
include msgs small

theorem cancel_refused
    (refuses : s.dispr.status.started = false ∨ i ∈ s.dispr.msgIdleQ) : tokenStep s (.call (.cancel (genValidHdl i))) = s := by
  obtain ⟨valid,idx⟩ := msgHdl_idx i small
  change {s with dispr:=(disprCancelMsg s.dispr (genValidHdl i)).1} = s
  have stays : (disprCancelMsg s.dispr (genValidHdl i)).1 = s.dispr := by
    unfold disprCancelMsg
    rw [idx]
    rcases refuses with stopped | idle
    · rw [stopped]
      rfl
    · have dead := (msgs.fit i small).mp idle
      unfold MsgEx.live at dead
      obtain ⟨enq,run⟩ := Bool.or_eq_false_iff.mp dead
      dsimp only
      rw [enq,run]
      split
      · rfl
      split <;> rfl
  rw [stays]

theorem cancel_accepted (started : s.dispr.status.started)
    (out : i ∉ s.dispr.msgIdleQ) : tokenStep s (.call (.cancel (genValidHdl i))) = {s with dispr:=Dispr.cancelMsg s.dispr i} := by
  obtain ⟨valid,idx⟩ := msgHdl_idx i small
  have live : (s.dispr.msgExPool i).live := by
    by_contra dead
    exact out ((msgs.fit i small).mpr (Bool.eq_false_iff.mpr dead))
  have accepts : (!(s.dispr.msgExPool i).status.enq && !(s.dispr.msgExPool i).status.run) = false := by
    rw [← Bool.not_or]
    exact congrArg not live
  change {s with dispr:=(disprCancelMsg s.dispr (genValidHdl i)).1} = _
  unfold disprCancelMsg
  rw [idx,valid,started]
  dsimp only
  rw [accepts,if_neg (by decide),if_neg (by simpa using small),if_neg (by decide)]

theorem cancel_harmless :
    Harmless s (tokenStep s (.call (.cancel (genValidHdl i)))) ↔
      s.dispr.status.started = false ∨ i ∈ s.dispr.msgIdleQ ∨ (s.dispr.msgExPool i).status.cancel := by
  by_cases refuses : s.dispr.status.started = false ∨ i ∈ s.dispr.msgIdleQ
  · rw [cancel_refused msgs small refuses]
    refine iff_of_true ⟨fun _ _ _ => rfl,fun _ _ => rfl,rfl⟩ ?_
    rcases refuses with stopped | idle
    · exact .inl stopped
    · exact .inr (.inl idle)
  · obtain ⟨started,out⟩ := not_or.mp refuses
    rw [cancel_accepted msgs small (Bool.not_eq_false _ ▸ started) out]
    have written : ((Dispr.cancelMsg s.dispr i).msgExPool i).status = {(s.dispr.msgExPool i).status with cancel:=true} := by
      simp [Dispr.cancelMsg,CmdDispatcher.setEx]
    constructor
    · intro harmless
      have same := harmless.msgs i small out
      right; right
      rw [← same]
      exact congrArg MsgStatus.cancel written
    · intro free
      have canceled := (free.resolve_left started).resolve_left out
      refine ⟨fun j _ _ => ?_,fun _ _ => rfl,rfl⟩
      by_cases here : j = i
      · subst here
        refine written.trans ?_
        rw [← canceled]
      · simp [Dispr.cancelMsg,CmdDispatcher.setEx,here]
end
end messages
section requests
variable {s : TokenSys}

theorem cancelChecked_hdl (d : CmdDispatcher) (small : req < maxCmdReqNum) :
    cancelChecked d (genValidHdl req) = (d.status.started && (d.tokenReqExPool req).status.alive) := by
  obtain ⟨valid,idx⟩ := reqHdl_idx small
  unfold cancelChecked
  rw [idx,valid]
  simp [small,ReqStatus.alive]

theorem freeChecked_hdl (d : CmdDispatcher) (small : req < maxCmdReqNum) : freeChecked d (genValidHdl req) =
    (d.status.started && d.curCmdReq.isSome && d.tokenCnt != 0 && (d.tokenReqExPool req).status.served) := by
  obtain ⟨valid,idx⟩ := reqHdl_idx small
  unfold freeChecked
  rw [idx,valid]
  simp [small,ReqStatus.served]

theorem harmless_refl (s : TokenSys) : Harmless s s := ⟨fun _ _ _ => rfl,fun _ _ => rfl,rfl⟩

theorem ended_harms (s : TokenSys) (req : Nat) (type : OpType) : ¬ Harmless s (s.endTokenReq req type) := by
  intro harmless
  have more := congrArg length harmless.calls
  simp [TokenSys.endTokenReq] at more

theorem cancelReq_harmless (small : req < maxCmdReqNum) :
    Harmless s (tokenStep s (.call (.cancelTokenReq (genValidHdl req)))) ↔
      s.dispr.status.started = false ∨ (s.dispr.tokenReqExPool req).status.alive = false := by
  rw [tokenStep,cancelChecked_hdl s.dispr small,← Bool.and_eq_false_iff]
  cases passed : s.dispr.status.started && (s.dispr.tokenReqExPool req).status.alive with
  | false => exact iff_of_true (harmless_refl s) rfl
  | true => exact iff_of_false (ended_harms s _ _) Bool.noConfusion

theorem freeReq_harmless (small : req < maxCmdReqNum) :
    Harmless s (tokenStep s (.call (.freeToken (genValidHdl req)))) ↔
      s.dispr.status.started = false ∨ s.dispr.curCmdReq = none ∨ s.dispr.tokenCnt = 0 ∨
        (s.dispr.tokenReqExPool req).status.served = false := by
  have refuses : (s.dispr.status.started && s.dispr.curCmdReq.isSome && s.dispr.tokenCnt != 0 &&
      (s.dispr.tokenReqExPool req).status.served) = false ↔ s.dispr.status.started = false ∨ s.dispr.curCmdReq = none ∨
        s.dispr.tokenCnt = 0 ∨ (s.dispr.tokenReqExPool req).status.served = false := by
    simp only [Bool.and_eq_false_iff,Option.isSome_eq_false_iff,Option.isNone_iff_eq_none,bne_eq_false_iff_eq,or_assoc]
  rw [tokenStep,freeChecked_hdl s.dispr small,← refuses]
  split
  · rename_i passed
    rw [passed]
    exact iff_of_false (ended_harms s _ _) Bool.noConfusion
  · rename_i failed
    exact iff_of_true (harmless_refl s) (Bool.eq_false_iff.mpr failed)
end requests

-- Where a request is that is not alive, as far as the dispatcher alone tells.
def Tok.Placed (t : Tok) (req : Nat) : Prop :=
  (t.pool req).status.alive ∨ req ∈ t.idleQ ∨ (∃ node, t.task = .abortCurrent node) ∧ t.cur = some req

section placed
variable {t u : Tok}

theorem Tok.Placed.same (placed : t.Placed req) (status : (u.pool req).status = (t.pool req).status) (idle : u.idleQ = t.idleQ)
    (away : ∀ node, t.task ≠ .abortCurrent node) : u.Placed req := by
  rcases placed with alive | idle' | ⟨⟨node,task⟩,_⟩
  · left
    rw [status]
    exact alive
  · right; left
    rw [idle]
    exact idle'
  · exact absurd task (away node)

theorem finish_placed (placed : t.Placed req) (away : ∀ node, t.task ≠ .abortCurrent node) (node : OpNode) :
    (t.finish node).Placed req := by
  refine placed.same (finish_status t req node) ?_ away
  cases node <;> rfl

theorem idle_status (t : Tok) (q req : Nat) : ((t.idle q).pool req).status = if req = q then {} else (t.pool req).status :=
  setStatus_status t req q {}

theorem idle_placed (placed : t.Placed req) (away : ∀ node, t.task ≠ .abortCurrent node) (q : Nat) : (t.idle q).Placed req := by
  by_cases own : req = q
  · subst own
    right; left
    exact mem_append_right _ mem_cons_self
  · rcases placed with alive | idle | ⟨⟨node,task⟩,_⟩
    · left
      rw [idle_status,if_neg own]
      exact alive
    · right; left
      exact mem_append_left _ idle
    · exact absurd task (away node)

theorem release_placed (placed : t.Placed req) (task : Task) : (t.release.goto task).Placed req := by
  unfold release
  cases cur : t.cur with
  | none =>
    rcases placed with alive | idle | ⟨_,holds⟩
    · exact .inl alive
    · exact .inr (.inl idle)
    · rw [cur] at holds
      cases holds
  | some q =>
    by_cases own : req = q
    · subst own
      right; left
      exact mem_append_right _ mem_cons_self
    · rcases placed with alive | idle | ⟨_,holds⟩
      · left
        change ((t.idle q).pool req).status.alive
        rw [idle_status,if_neg own]
        exact alive
      · right; left
        exact mem_append_left _ idle
      · rw [cur] at holds
        cases holds
        exact absurd rfl own

theorem handle_placed (placed : t.Placed req) (away : ∀ node, t.task ≠ .abortCurrent node) (node : OpNode) :
    (t.handle node).Placed req := by
  have finished := finish_placed placed away node
  have moves (task : Task) : (t.goto task).Placed req := placed.same rfl rfl away
  unfold handle
  dsimp only
  cases (t.info node).type with
  | renewCmdReq | addCmdReq => exact moves _
  | freeCmdReq =>
    dsimp only
    split
    · exact finished
    · exact release_placed placed _
  | cancelCmdReq =>
    dsimp only
    split
    · exact finished
    split
    · exact placed.same rfl rfl away
    split
    · cases cur : t.cur with
      | none => exact moves _
      | some q =>
        by_cases own : req = q
        · subst own
          right; right
          exact ⟨⟨node,rfl⟩,cur⟩
        · have others := setStatus_status t req q {(t.pool q).status with run:=false,lastPermit:=true}
          rw [if_neg own] at others
          exact placed.same others rfl away
    · exact finished

theorem register_status (t : Tok) (q : Nat) (queue : List Nat) (node : OpNode) (req : Nat) :
    (((t.takeWait q queue).register q node).pool req).status =
      if req = q then {(t.pool q).status with run:=true,prepare:=false,enq:=false} else (t.pool req).status := by
  by_cases own : req = q <;> simp [takeWait,register,setStatus,setReq,own]

theorem works_placed {pops drops : Option Nat} (placed : t.Placed req) (works : t.Works ret pops drops u) : u.Placed req := by
  cases works with
  | stay => exact placed
  | renew rest => exact handle_placed placed (fun node => by rw [rest]; exact nofun) .renew
  | @handle node queue rest front free =>
    have away : ∀ node, t.task ≠ .abortCurrent node := fun node => by rw [rest]; exact nofun
    have left : ({t with ops:=queue} : Tok).Placed req := placed.same rfl rfl away
    exact handle_placed left away node
  | close task => exact finish_placed placed (fun node => by rw [task]; exact nofun) _
  | @register node q queue task none_held front popped =>
    have away : ∀ node, t.task ≠ .abortCurrent node := fun node => by rw [task]; exact nofun
    have status := register_status t q queue node req
    by_cases own : req = q
    · left
      rw [status,if_pos own]
      rfl
    · rw [if_neg own] at status
      exact placed.same status rfl away
  | acquire task kept => exact finish_placed placed (fun node => by rw [task]; exact nofun) _
  | refuse task failed dropped => exact release_placed placed _
  | @aborted node q task =>
    have away : ∀ node, t.task ≠ .abortCurrent node := fun node => by rw [task]; exact nofun
    exact finish_placed (idle_placed placed away q) away node
  | ended task => exact release_placed placed _
end placed

def Adding (calls : List TokenCall) (req : Nat) : Prop :=
  ∃ call ∈ calls, call.req = req ∧ (call.stage = .taken ∨ call.stage = .pushed)

structure TokenSys.Reqs (s : TokenSys) : Prop where
  quiet : Quiet s.dispr
  placed : ∀ req < maxCmdReqNum, (tok s.dispr).Placed req ∨ Adding s.calls req

section steps
variable {s : TokenSys}

theorem TokenSys.Reqs.same (reqs : s.Reqs) (same : SameToken s.dispr d) : {s with dispr:=d}.Reqs := by
  refine ⟨same.quiet reqs.quiet,fun req small => ?_⟩
  change (tok d).Placed req ∨ Adding s.calls req
  rw [same.tok]
  exact reqs.placed req small

theorem TokenSys.Reqs.thread (reqs : s.Reqs) (ret : MdlRet) : (tokenStep s (.thread ret)).Reqs := by
  obtain ⟨works,quiet⟩ := thread_works reqs.quiet ret
  refine ⟨quiet,fun req small => ?_⟩
  rcases reqs.placed req small with placed | adding
  · exact .inl (works_placed placed works)
  · exact .inr adding

theorem Adding.more {calls : List TokenCall} (adding : Adding calls req) (call : TokenCall) : Adding (calls ++ [call]) req := by
  obtain ⟨own,member,facts⟩ := adding
  exact ⟨own,mem_append_left _ member,facts⟩

theorem Tok.Placed.alive {t u : Tok} (placed : t.Placed req)
    (alive : (t.pool req).status.alive → (u.pool req).status.alive)
    (idle : ∀ r ∈ t.idleQ, r ∈ u.idleQ) (task : u.task = t.task) (cur : u.cur = t.cur) : u.Placed req := by
  rcases placed with now | idle' | ending
  · exact .inl (alive now)
  · exact .inr (.inl (idle req idle'))
  · right; right
    rw [task,cur]
    exact ending

theorem TokenSys.Reqs.add (reqs : s.Reqs) (req : CmdTokenReq) : (s.addTokenReq req).Reqs := by
  have step := addTokenReq_taken s req
  generalize s.addTokenReq req = t at step
  cases step with
  | refused => exact reqs
  | @taken idx rest d pops front view quiet =>
    refine ⟨quiet reqs.quiet,fun r small => ?_⟩
    by_cases own : r = idx
    · subst own
      right
      exact ⟨_,mem_append_right _ mem_cons_self,rfl,.inl rfl⟩
    · rcases reqs.placed r small with placed | adding
      · left
        change (tok d).Placed r
        rw [view]
        have status := take_status (tok s.dispr) idx rest req r
        rw [if_neg own] at status
        rcases placed with alive | idle | ending
        · left
          rw [status]
          exact alive
        · right; left
          change r ∈ s.dispr.tokenReqIdleQ at idle
          rw [front] at idle
          exact (mem_cons.mp idle).resolve_left own
        · exact .inr (.inr ending)
      · exact .inr (adding.more _)

theorem TokenSys.Reqs.ended (reqs : s.Reqs) (req : Nat) (type : OpType) : (s.endTokenReq req type).Reqs := by
  refine ⟨reqs.quiet,fun r small => ?_⟩
  rcases reqs.placed r small with placed | adding
  · left
    change (tok (setCancel s.dispr req)).Placed r
    rw [tok_setCancel]
    refine placed.alive (fun alive => ?_) (fun _ => id) rfl rfl
    rw [setStatus_status]
    split
    · rename_i own
      rw [own] at alive
      exact alive
    · exact alive
  · exact .inr (adding.more _)

theorem TokenSys.Reqs.pushed (reqs : s.Reqs) (call : TokenCall) (type : OpType) (other : node ≠ .renew) :
    (s.pushOp call node type).Reqs := by
  have step := pushOp_pushed s call node type other
  generalize s.pushOp call node type = t at step
  cases step with
  | refused used => exact reqs
  | @pushed d unused view quiet =>
    refine ⟨quiet reqs.quiet,fun r small => ?_⟩
    rcases reqs.placed r small with placed | adding
    · left
      change (tok d).Placed r
      rw [view]
      refine placed.alive (fun alive => ?_) (fun _ idle => ?_) ?_ ?_
      · rw [link_status]
        exact alive
      · cases node <;> exact idle
      · cases node <;> rfl
      · cases node <;> rfl
    · exact .inr adding

theorem left_behind {calls : List TokenCall} (there : calls[k]? = some call) (member : other ∈ calls) :
    other = call ∨ other ∈ calls.eraseIdx k := by
  obtain ⟨j,at'⟩ := mem_iff_getElem?.mp member
  by_cases here : j = k
  · subst here
    left
    rw [there] at at'
    exact (Option.some.inj at').symm
  · right
    exact mem_eraseIdx_iff_getElem?.mpr ⟨j,here,at'⟩

theorem Adding.leave {calls : List TokenCall} (adding : Adding calls req) (there : calls[k]? = some call) :
    (call.req = req ∧ (call.stage = .taken ∨ call.stage = .pushed)) ∨ Adding (calls.eraseIdx k) req := by
  obtain ⟨own,member,facts⟩ := adding
  rcases left_behind there member with same | still
  · rw [same] at facts
    exact .inl facts
  · exact .inr ⟨own,still,facts⟩

theorem TokenSys.Reqs.go (reqs : s.Reqs) (k : Nat) : (tokenStep s (.go k)).Reqs := by
  rcases go_cases s k with stays | ⟨call,there,goes⟩
  · rw [stays]
    exact reqs
  rw [goes]
  have through (leaves : call.stage ≠ .taken ∧ call.stage ≠ .pushed) : ({s with calls:=s.calls.eraseIdx k} : TokenSys).Reqs := by
    refine ⟨reqs.quiet,fun req small => ?_⟩
    rcases reqs.placed req small with placed | adding
    · exact .inl placed
    · rcases adding.leave there with ⟨_,taken | pushed⟩ | still
      · exact absurd taken leaves.1
      · exact absurd pushed leaves.2
      · exact .inr still
  unfold TokenSys.proceed
  cases stage : call.stage with
  | taken =>
    refine ⟨reqs.quiet,fun req small => ?_⟩
    rcases reqs.placed req small with placed | adding
    · left
      exact placed.alive id (fun _ => id) rfl rfl
    · right
      rcases adding.leave there with ⟨own,_⟩ | still
      · exact ⟨{call with stage:=.pushed},mem_append_right _ mem_cons_self,own,.inr rfl⟩
      · exact still.more _
  | pushed =>
    refine ⟨reqs.quiet,fun req small => ?_⟩
    have marks : ((tok (setEnq s.dispr call.req)).pool req).status =
        if req = call.req then {((tok s.dispr).pool call.req).status with enq:=true} else ((tok s.dispr).pool req).status := by
      rw [tok_setEnq]
      exact setStatus_status _ req call.req _
    by_cases own : req = call.req
    · left; left
      change ((tok (setEnq s.dispr call.req)).pool req).status.alive
      rw [marks,if_pos own]
      rfl
    · rw [if_neg own] at marks
      rcases reqs.placed req small with placed | adding
      · left
        refine Tok.Placed.alive placed (fun alive => ?_) (fun _ => id) rfl rfl
        change ((tok (setEnq s.dispr call.req)).pool req).status.alive
        rw [marks]
        exact alive
      · right
        rcases adding.leave there with ⟨same,_⟩ | still
        · exact absurd same.symm own
        · exact still.more _
  | marked =>
    rw [stage] at through
    exact (through ⟨nofun,nofun⟩).pushed call _ nofun
  | ending type =>
    rw [stage] at through
    exact (through ⟨nofun,nofun⟩).pushed call _ nofun

theorem tokenStep_reqs (reqs : s.Reqs) (event : TokenEvent) : (tokenStep s event).Reqs := by
  cases event with
  | thread ret => exact reqs.thread ret
  | go k => exact reqs.go k
  | call call =>
    cases call with
    | addTokenReq req => exact reqs.add req
    | cancelTokenReq hdl | freeToken hdl =>
      unfold tokenStep
      dsimp only
      split
      · exact reqs.ended _ _
      · exact reqs
    | send msg attr => exact reqs.same (sameToken_send s.dispr msg attr)
    | cancel hdl => exact reqs.same (sameToken_cancelMsg s.dispr hdl)
    | clrPending => exact reqs.same (sameToken_clrPending s.dispr)
    | cannotIo mdlId => exact reqs.same (sameToken_cannotIo s.dispr mdlId)
    | resumeIo => exact reqs.same (sameToken_resumeIo s.dispr)
    | shallStop => exact reqs.same (sameToken_shallStop s.dispr)

theorem reached_reqs {guard : TokenSys → TokenEvent → Prop}
    (path : Reached tokenStep guard (tokenStart (disprStart moduleQ bitmap basemap ctrlPresent)) s) : s.Reqs := by
  refine path.invariant TokenSys.Reqs ?_ (fun s event reqs _ => tokenStep_reqs reqs event)
  exact ⟨.inl rfl,fun req small => .inl (.inr (.inl (mem_range.mpr small)))⟩

theorem TokenSys.Reqs.elsewhere (reqs : s.Reqs) (small : req < maxCmdReqNum)
    (dead : (s.dispr.tokenReqExPool req).status.alive = false) : Elsewhere s req := by
  rcases reqs.placed req small with (alive | idle | ⟨⟨node,task⟩,cur⟩) | adding
  · change (s.dispr.tokenReqExPool req).status.alive at alive
    rw [dead] at alive
    cases alive
  · exact .inl idle
  · right; right
    refine ⟨⟨node,?_⟩,cur⟩
    change taskOf s.dispr.pc = _ at task
    cases pc : s.dispr.pc with
    | abortCurrent own =>
      rw [pc] at task
      cases task
      rfl
    | wait | tokenOps | fetch | held | process | acquired | abortWaiting =>
      rw [pc] at task
      cases task
  · exact .inr (.inl adding)

theorem stale_handles (moduleQ : Priority → List BkModule) (bitmap basemap : Bitmap) (ctrlPresent : Bool)
    (path : Reached tokenStep (fun _ _ => True) (tokenStart (disprStart moduleQ bitmap basemap ctrlPresent)) s) : StaleSound s where
  other _ _ recycled out := recycled_other (reached_msgs path) recycled out
  cancelMsg _ _ recycled := cancel_harmless (reached_msgs path) recycled.1
  cancelReq _ _ recycled := cancelReq_harmless recycled.1
  freeReq _ _ recycled := freeReq_harmless recycled.1
  elsewhere _ small dead := (reached_reqs path).elsewhere small dead
end steps

theorem stale_handles_refused : StaleSound (run tokenStep bare refused) :=
  stale_handles (fun _ => []) 0 0 false (Reached.start.run (by decide +kernel))

-- The first request is refused and its index is given to another, which the
-- handle of the first cancels.
theorem stale_handle_cancels : ¬ ∀ events : List TokenEvent, ∀ req life, ReqRecycled (run tokenStep bare events) req life →
    Harmless (run tokenStep bare events) (tokenStep (run tokenStep bare events) (.call (.cancelTokenReq (genValidHdl req)))) := by
  intro harmless
  have recycled : ReqRecycled (run tokenStep bare (refused ++ adds)) 0 1 := by
    refine ⟨by decide,by decide,?_,fun last => absurd last ?_⟩
    · decide +kernel
    · decide +kernel
  have free := (cancelReq_harmless (by decide)).mp (harmless (refused ++ adds) 0 1 recycled)
  have held : ¬ ((run tokenStep bare (refused ++ adds)).dispr.status.started = false ∨
    ((run tokenStep bare (refused ++ adds)).dispr.tokenReqExPool 0).status.alive = false) := by decide +kernel
  exact held free
end Rtl8852au.Dispr
