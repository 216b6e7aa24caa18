import Rtl8852au.DispatcherTokenView

namespace Rtl8852au.Dispr
open Machine List Function Tok

def OpNode.req : OpNode → Nat
  | .add req | .free req => req
  | .renew => maxCmdReqNum

def Task.holds (task : Task) (node : OpNode) : Nat :=
  match task with
  | .rest => 0
  | .process held | .acquired held | .abortWaiting held _ | .abortCurrent held => if held = node then 1 else 0

def Intact (node : OpNode) (info : TokenOpInfo) : Prop :=
  info.data = node.req ∧
    match node with
    | .add _ => info.type = .addCmdReq
    | .free _ => info.type = .freeCmdReq ∨ info.type = .cancelCmdReq
    | .renew => True

structure OpsInv (t : Tok) (calls : List TokenCall) (life : Nat → Nat) (stamp : OpNode → Nat) : Prop where
  share : ∀ node ≠ .renew, t.ops.count node + t.task.holds node = if (t.info node).used then 1 else 0
  owner : ∀ node ≠ .renew, (t.info node).used → Intact node (t.info node) ∧ stamp node = life node.req
  present : ∀ call ∈ calls, call.life = life call.req
  ending : ∀ call ∈ calls, ∀ type, call.stage = .ending type → type = .freeCmdReq ∨ type = .cancelCmdReq

structure Tok.SameOps (t u : Tok) : Prop where
  info : u.info = t.info
  ops : u.ops = t.ops

section operations
variable {t u : Tok}

theorem Tok.SameOps.refl (t : Tok) : t.SameOps t := ⟨rfl,rfl⟩

theorem Tok.SameOps.trans {v : Tok} (one : t.SameOps u) (two : u.SameOps v) : t.SameOps v :=
  ⟨two.info.trans one.info,two.ops.trans one.ops⟩

theorem Tok.SameOps.goto (same : t.SameOps u) (task : Task) : t.SameOps (u.goto task) := ⟨same.info,same.ops⟩

section
variable (t : Tok)

theorem sameOps_setStatus (req : Nat) (status : ReqStatus) : t.SameOps (t.setStatus req status) := by
  constructor
  · funext node
    cases node with
    | add other =>
      by_cases same : other = req
      · subst same
        simp [info,setStatus,setReq]
      · simp [info,setStatus,setReq,same]
    | free other =>
      by_cases same : other = req
      · subst same
        simp [info,setStatus,setReq]
      · simp [info,setStatus,setReq,same]
    | renew => rfl
  · rfl

theorem sameOps_idle (req : Nat) : t.SameOps (t.idle req) := by
  have status := sameOps_setStatus t req {}
  exact ⟨status.info,status.ops⟩

theorem sameOps_release : t.SameOps t.release := by
  unfold release
  cases t.cur with
  | none => exact .refl t
  | some req =>
    have idle := sameOps_idle t req
    exact ⟨idle.info,idle.ops⟩

theorem sameOps_takeWait (req : Nat) (rest : List Nat) : t.SameOps (t.takeWait req rest) := by
  have status := sameOps_setStatus t req {(t.pool req).status with prepare:=true,enq:=false}
  exact ⟨status.info,status.ops⟩

theorem sameOps_register (req : Nat) (node : OpNode) : t.SameOps (t.register req node) := by
  have status := sameOps_setStatus t req {(t.pool req).status with run:=true,prepare:=false}
  exact ⟨status.info,status.ops⟩

theorem setInfo_info (node : OpNode) (info : TokenOpInfo) (other : node ≠ .renew) (n : OpNode) :
    (t.setInfo node info).info n = if n = node then info else t.info n := by
  cases node with
  | renew => exact absurd rfl other
  | add req =>
    cases n with
    | renew => rfl
    | add req' => by_cases same : req' = req <;> simp [Tok.setInfo,Tok.setReq,Tok.info,same]
    | free req' => by_cases same : req' = req <;> simp [Tok.setInfo,Tok.setReq,Tok.info,same]
  | free req =>
    cases n with
    | renew => rfl
    | add req' => by_cases same : req' = req <;> simp [Tok.setInfo,Tok.setReq,Tok.info,same]
    | free req' => by_cases same : req' = req <;> simp [Tok.setInfo,Tok.setReq,Tok.info,same]
end
end operations
section invariant
variable {t u : Tok} {calls : List TokenCall} {life : Nat → Nat} {stamp : OpNode → Nat}

section
variable (inv : OpsInv t calls life stamp)
include inv

theorem OpsInv.same (info : u.info = t.info)
    (share : ∀ node ≠ .renew, u.ops.count node + u.task.holds node = t.ops.count node + t.task.holds node) :
    OpsInv u calls life stamp := by
  constructor
  · intro node other
    rw [share node other,info]
    exact inv.share node other
  · rw [info]
    exact inv.owner
  · exact inv.present
  · exact inv.ending

theorem OpsInv.used (node : OpNode) (other : node ≠ .renew) (member : node ∈ t.ops) :
    (t.info node).used := by
  have share := inv.share node other
  have positive := count_pos_iff.mpr member
  by_contra unused
  rw [if_neg unused] at share
  omega

theorem OpsInv.finish (node : OpNode) (same : t.SameOps u)
    (task : ∀ n, t.task.holds n = if node = n then 1 else 0) : OpsInv (u.finish node) calls life stamp := by
  by_cases own : node = .renew
  · subst own
    have share : ∀ n ≠ .renew, (u.finish .renew).ops.count n + (u.finish .renew).task.holds n = t.ops.count n + t.task.holds n := by
      intro n other
      rw [task n,if_neg (Ne.symm other)]
      change u.ops.count n + 0 = _
      rw [same.ops]
    exact inv.same same.info share
  · have infos (n : OpNode) : (u.finish node).info n = if n = node then {t.info node with used:=false} else t.info n := by
      have set : (u.finish node).info n = if n = node then {u.info node with used:=false} else u.info n :=
        setInfo_info u node {u.info node with used:=false} own n
      rw [same.info] at set
      exact set
    have ops : (u.finish node).ops = t.ops := by
      rw [← same.ops]
      cases node <;> rfl
    constructor
    · intro n other
      rw [infos,ops]
      have before := inv.share n other
      rw [task n] at before
      change t.ops.count n + 0 = _
      by_cases hit : n = node
      · subst hit
        have used : (t.info n).used := by
          by_contra unused
          simp [unused] at before
        simp [used] at before
        simp [before]
      · have miss : node ≠ n := fun eq => hit eq.symm
        simpa [hit,miss] using before
    · intro n other used
      rw [infos] at used ⊢
      by_cases hit : n = node
      · simp [hit] at used
      · simp only [hit,if_false] at used ⊢
        exact inv.owner n other used
    · exact inv.present
    · exact inv.ending
end

theorem handle_cases (t : Tok) (node : OpNode) : t.handle node = t.finish node ∨
    t.SameOps (t.handle node) ∧ ∀ n, (t.handle node).task.holds n = if node = n then 1 else 0 := by
  unfold handle
  dsimp only
  cases (t.info node).type with
  | renewCmdReq => exact .inr ⟨⟨rfl,rfl⟩,fun _ => rfl⟩
  | addCmdReq => exact .inr ⟨⟨rfl,rfl⟩,fun _ => rfl⟩
  | freeCmdReq =>
    dsimp only
    split
    · exact .inl rfl
    · exact .inr ⟨(sameOps_release t).goto _,fun _ => rfl⟩
  | cancelCmdReq =>
    dsimp only
    split
    · exact .inl rfl
    split
    · exact .inr ⟨⟨rfl,rfl⟩,fun _ => rfl⟩
    split
    · cases t.cur with
      | none => exact .inr ⟨⟨rfl,rfl⟩,fun _ => rfl⟩
      | some req =>
        have ended := sameOps_setStatus t req {(t.pool req).status with run:=false,lastPermit:=true}
        exact .inr ⟨⟨ended.info,ended.ops⟩,fun _ => rfl⟩
    · exact .inl rfl

theorem OpsInv.handle (inv : OpsInv t calls life stamp) (held : ∀ n, t.task.holds n = if node = n then 1 else 0) :
    OpsInv (t.handle node) calls life stamp := by
  rcases handle_cases t node with ended | ⟨same,task⟩
  · rw [ended]
    exact inv.finish node (.refl t) held
  · apply inv.same same.info
    intro n _
    rw [same.ops,task n,held n]

theorem handle_goto (t : Tok) (node : OpNode) (task : Task) : (t.goto task).handle node = t.handle node := by
  have finished : (t.goto task).finish node = t.finish node := by cases node <;> rfl
  have released : (t.goto task).release.goto (.process node) = t.release.goto (.process node) := by
    cases t with
    | mk pool waitQ idleQ ops cnt cur task aborts => cases cur <;> rfl
  unfold handle
  rw [finished,released]
  have info : (t.goto task).info node = t.info node := by cases node <;> rfl
  rw [info]
  rfl

theorem OpsInv.onward (inv : OpsInv t calls life stamp) (same : t.SameOps u) (task : ∀ n, u.task.holds n = t.task.holds n) :
    OpsInv u calls life stamp := by
  apply inv.same same.info
  intro n _
  rw [same.ops,task n]

theorem OpsInv.works {pops drops : Option Nat} (inv : OpsInv t calls life stamp) (works : t.Works ret pops drops u) :
    OpsInv u calls life stamp := by
  cases works with
  | stay => exact inv
  | renew rest =>
    have share : ∀ n ≠ OpNode.renew, (t.handle .renew).ops.count n + (t.handle .renew).task.holds n =
        t.ops.count n + t.task.holds n := by
      intro n other
      change t.ops.count n + (if OpNode.renew = n then 1 else 0) = _
      rw [if_neg (Ne.symm other),rest]
      rfl
    exact inv.same rfl share
  | @handle node queue rest front free =>
    have share : ∀ n ≠ OpNode.renew, queue.count n + (Task.process node).holds n = t.ops.count n + t.task.holds n := by
      intro n _
      rw [front,rest,count_cons]
      simp [Task.holds]
    have held : OpsInv ({t with ops:=queue}.goto (.process node)) calls life stamp := inv.same rfl share
    have handled : OpsInv (({t with ops:=queue}.goto (.process node)).handle node) calls life stamp := held.handle (fun _ => rfl)
    rw [handle_goto] at handled
    exact handled
  | close task =>
    apply inv.finish _ (.refl t)
    intro n
    rw [task]
    rfl
  | @register node req queue task none_held front popped =>
    apply inv.onward ((sameOps_takeWait t req queue).trans (sameOps_register _ req node))
    intro n
    rw [task]
    rfl
  | acquire task kept =>
    apply inv.finish _ (.refl t)
    intro n
    rw [task]
    rfl
  | refuse task failed dropped =>
    apply inv.onward ((sameOps_release t).goto _)
    intro n
    rw [task]
    rfl
  | aborted task =>
    apply inv.finish _ (sameOps_idle t _)
    intro n
    rw [task]
    rfl
  | ended task =>
    apply inv.onward ((sameOps_release t).goto _)
    intro n
    rw [task]
    rfl
theorem take_info (t : Tok) (idx : Nat) (rest : List Nat) (req : CmdTokenReq) (other : n ≠ .renew) :
    (t.take idx rest req).info n = if n.req = idx then {} else t.info n := by
  cases n with
  | add own => by_cases same : own = idx <;> simp [Tok.take,Tok.setReq,Tok.info,OpNode.req,same]
  | free own => by_cases same : own = idx <;> simp [Tok.take,Tok.setReq,Tok.info,OpNode.req,same]
  | renew => exact absurd rfl other

section
variable (inv : OpsInv t calls life stamp)
include inv

theorem OpsInv.take (rest : List Nat) (req : CmdTokenReq)
    (spare : ∀ n ≠ OpNode.renew, n.req = idx → (t.info n).used = false) (nobody : ∀ call ∈ calls, call.req ≠ idx) :
    OpsInv (t.take idx rest req) (calls ++ [⟨idx,life idx + 1,.taken⟩]) (update life idx (life idx + 1)) stamp := by
  constructor
  · intro n other
    rw [take_info t idx rest req other]
    have before := inv.share n other
    split
    · rename_i own
      rw [spare n other own] at before
      exact before
    · exact before
  · intro n other used
    rw [take_info t idx rest req other] at used ⊢
    split at used
    · cases used
    · rename_i away
      rw [if_neg away,update_of_ne away]
      exact inv.owner n other used
  · intro call member
    rcases mem_append.mp member with old | new
    · rw [update_of_ne (nobody call old)]
      exact inv.present call old
    · cases mem_singleton.mp new
      simp
  · intro call member type stage
    rcases mem_append.mp member with old | new
    · exact inv.ending call old type stage
    · cases mem_singleton.mp new
      cases stage

theorem OpsInv.link (other : node ≠ .renew) (unused : (t.info node).used = false)
    (intact : Intact node {used:=true,type,data}) (own : now = life node.req) :
    OpsInv (t.link node type data) calls life (update stamp node now) := by
  have infos (n : OpNode) : (t.link node type data).info n = if n = node then {used:=true,type,data} else t.info n :=
    setInfo_info t node _ other n
  have task : (t.link node type data).task = t.task := by cases node <;> rfl
  constructor
  · intro n others
    have before := inv.share n others
    rw [infos,task]
    change (t.ops ++ [node]).count n + _ = _
    rw [count_append,count_singleton]
    by_cases hit : n = node
    · subst hit
      rw [unused] at before
      simp at before
      simp [before]
    · have miss : node ≠ n := fun eq => hit eq.symm
      simpa [hit,miss] using before
  · intro n others used
    rw [infos] at used ⊢
    by_cases hit : n = node
    · subst hit
      simp only [if_true,update_self]
      exact ⟨intact,own⟩
    · simp only [hit,if_false] at used ⊢
      rw [update_of_ne hit]
      exact inv.owner n others used
  · exact inv.present
  · exact inv.ending

theorem OpsInv.leave (k : Nat) : OpsInv t (calls.eraseIdx k) life stamp := by
  constructor
  · exact inv.share
  · exact inv.owner
  · intro call member
    exact inv.present call (mem_of_mem_eraseIdx member)
  · intro call member
    exact inv.ending call (mem_of_mem_eraseIdx member)

theorem OpsInv.enter (call : TokenCall) (present : call.life = life call.req)
    (ending : ∀ type, call.stage = .ending type → type = .freeCmdReq ∨ type = .cancelCmdReq) :
    OpsInv t (calls ++ [call]) life stamp := by
  constructor
  · exact inv.share
  · exact inv.owner
  · intro other member
    rcases mem_append.mp member with old | new
    · exact inv.present other old
    · cases mem_singleton.mp new
      exact present
  · intro other member
    rcases mem_append.mp member with old | new
    · exact inv.ending other old
    · cases mem_singleton.mp new
      exact ending
end
end invariant

structure Spare (s : TokenSys) (req : Nat) : Prop where
  add : (s.dispr.tokenReqExPool req).addReqInfo.used = false
  free : (s.dispr.tokenReqExPool req).freeReqInfo.used = false
  calls : ∀ call ∈ s.calls, call.req ≠ req

instance (s : TokenSys) (req : Nat) : Decidable (Spare s req) :=
  decidable_of_iff ((s.dispr.tokenReqExPool req).addReqInfo.used = false ∧
    (s.dispr.tokenReqExPool req).freeReqInfo.used = false ∧ ∀ call ∈ s.calls, call.req ≠ req)
    ⟨fun ⟨add,free,calls⟩ => ⟨add,free,calls⟩,fun spare => ⟨spare.add,spare.free,spare.calls⟩⟩

def AddsSpare (s : TokenSys) : TokenEvent → Prop
  | .call (.addTokenReq req) => ∀ idx ∈ popsIdle s.dispr req, Spare s idx
  | _ => True

instance (s : TokenSys) : (event : TokenEvent) → Decidable (AddsSpare s event)
  | .call (.addTokenReq req) => inferInstanceAs (Decidable (∀ idx ∈ popsIdle s.dispr req, Spare s idx))
  | .call (.send _ _) | .call (.cancel _) | .call .clrPending | .call (.cannotIo _) | .call .resumeIo | .call .shallStop
  | .call (.cancelTokenReq _) | .call (.freeToken _) | .thread _ | .go _ => isTrue trivial

structure TokenSys.OpsKept (s : TokenSys) : Prop where
  ops : OpsInv (tok s.dispr) s.calls s.life s.stamp
  quiet : Quiet s.dispr

theorem TokenSys.OpsKept.same {s : TokenSys} (kept : s.OpsKept) (same : SameToken s.dispr d) : {s with dispr:=d}.OpsKept := by
  constructor
  · change OpsInv (tok d) _ _ _
    rw [same.tok]
    exact kept.ops
  · exact same.quiet kept.quiet

section steps
variable {s : TokenSys}

section
variable (kept : s.OpsKept)
include kept

theorem TokenSys.OpsKept.add (req : CmdTokenReq) (spare : ∀ idx ∈ popsIdle s.dispr req, Spare s idx) :
    (s.addTokenReq req).OpsKept := by
  have step := addTokenReq_taken s req
  generalize s.addTokenReq req = t at step
  cases step with
  | refused => exact kept
  | @taken idx rest d pops front view quiet =>
    have fit := spare idx pops
    constructor
    · change OpsInv (tok d) _ _ _
      rw [view]
      apply kept.ops.take rest req
      · intro n other own
        cases n with
        | add own' => rw [← own] at fit; exact fit.add
        | free own' => rw [← own] at fit; exact fit.free
        | renew => exact absurd rfl other
      · exact fit.calls
    · exact quiet kept.quiet

theorem TokenSys.OpsKept.ended (req : Nat) (ending : type = .freeCmdReq ∨ type = .cancelCmdReq) :
    (s.endTokenReq req type).OpsKept := by
  have same := sameOps_setStatus (tok s.dispr) req {((tok s.dispr).pool req).status with cancel:=true}
  constructor
  · apply OpsInv.enter
    · change OpsInv (tok (setCancel s.dispr req)) _ _ _
      rw [tok_setCancel]
      exact kept.ops.onward same (fun _ => rfl)
    · rfl
    · intro other stage
      cases stage
      exact ending
  · exact kept.quiet

theorem TokenSys.OpsKept.pushed {call : TokenCall} (present : call.life = s.life call.req)
    (other : node ≠ .renew)
    (own : node.req = call.req) (intact : Intact node {used:=true,type,data:=call.req}) : (s.pushOp call node type).OpsKept := by
  have step := pushOp_pushed s call node type other
  generalize s.pushOp call node type = t at step
  cases step with
  | refused used => exact kept
  | @pushed d unused view quiet =>
    constructor
    · change OpsInv (tok d) _ _ _
      rw [view]
      exact kept.ops.link other unused intact (by rw [own]; exact present)
    · exact quiet kept.quiet

theorem TokenSys.OpsKept.proceed {call : TokenCall} (present : call.life = s.life call.req)
    (ending : ∀ type, call.stage = .ending type → type = .freeCmdReq ∨ type = .cancelCmdReq) : (s.proceed call).OpsKept := by
  have waits : ({s with dispr:=pushWaitReq s.dispr call.req} : TokenSys).OpsKept :=
    ⟨kept.ops.onward (u := tok (pushWaitReq s.dispr call.req)) ⟨rfl,rfl⟩ (fun _ => rfl),kept.quiet⟩
  have marks : ({s with dispr:=setEnq s.dispr call.req} : TokenSys).OpsKept :=
    ⟨kept.ops.onward (sameOps_setStatus _ _ _) (fun _ => rfl),kept.quiet⟩
  unfold TokenSys.proceed
  cases stage : call.stage with
  | taken => exact ⟨waits.ops.enter {call with stage:=.pushed} present nofun,waits.quiet⟩
  | pushed => exact ⟨marks.ops.enter {call with stage:=.marked} present nofun,marks.quiet⟩
  | marked => exact kept.pushed present nofun rfl ⟨rfl,rfl⟩
  | ending type => exact kept.pushed present nofun rfl ⟨rfl,ending type stage⟩

theorem opsKept_step (event : TokenEvent) (spare : AddsSpare s event) : (tokenStep s event).OpsKept := by
  cases event with
  | thread ret =>
    obtain ⟨works,quiet⟩ := thread_works kept.quiet ret
    exact ⟨kept.ops.works works,quiet⟩
  | go k =>
    rcases go_cases s k with stays | ⟨call,there,goes⟩
    · rw [stays]
      exact kept
    · rw [goes]
      have member := mem_of_getElem? there
      have left : ({s with calls:=s.calls.eraseIdx k} : TokenSys).OpsKept := ⟨kept.ops.leave k,kept.quiet⟩
      exact left.proceed (kept.ops.present call member) (kept.ops.ending call member)
  | call call =>
    cases call with
    | addTokenReq req => exact kept.add req spare
    | cancelTokenReq hdl =>
      unfold tokenStep
      dsimp only
      split
      · exact kept.ended _ (.inr rfl)
      · exact kept
    | freeToken hdl =>
      unfold tokenStep
      dsimp only
      split
      · exact kept.ended _ (.inl rfl)
      · exact kept
    | send msg attr => exact kept.same (sameToken_send s.dispr msg attr)
    | cancel hdl => exact kept.same (sameToken_cancelMsg s.dispr hdl)
    | clrPending => exact kept.same (sameToken_clrPending s.dispr)
    | cannotIo mdlId => exact kept.same (sameToken_cannotIo s.dispr mdlId)
    | resumeIo => exact kept.same (sameToken_resumeIo s.dispr)
    | shallStop => exact kept.same (sameToken_shallStop s.dispr)

structure OpsSound (s : TokenSys) : Prop where
  once : ∀ node ≠ .renew, s.dispr.tokenOpQ.count node ≤ 1
  used : ∀ node ≠ .renew, node ∈ s.dispr.tokenOpQ → (opInfo s.dispr node).used
  owner : ∀ node ≠ .renew, node ∈ s.dispr.tokenOpQ → Intact node (opInfo s.dispr node) ∧ s.stamp node = s.life node.req

-- An add zeroes no operation that is queued.
def SparesQueued (s : TokenSys) : TokenEvent → Prop
  | .call (.addTokenReq req) => ∀ idx ∈ popsIdle s.dispr req, .add idx ∉ s.dispr.tokenOpQ ∧ .free idx ∉ s.dispr.tokenOpQ
  | _ => True

theorem TokenSys.OpsKept.sound : OpsSound s := by
  have counts {node : OpNode} (other : node ≠ .renew) : s.dispr.tokenOpQ.count node = (tok s.dispr).ops.count node := by
    symm
    exact count_filter (by simpa using other)
  have used : ∀ node ≠ OpNode.renew, node ∈ s.dispr.tokenOpQ → ((tok s.dispr).info node).used := by
    intro node other member
    exact kept.ops.used node other (mem_filter.mpr ⟨member,by simpa using other⟩)
  constructor
  · intro node other
    have share := kept.ops.share node other
    rw [counts other]
    split at share <;> omega
  · intro node other member
    rw [opInfo_tok s.dispr other]
    exact used node other member
  · intro node other member
    rw [opInfo_tok s.dispr other]
    exact kept.ops.owner node other (used node other member)
end

theorem OpsSound.spares (sound : OpsSound s) (event : TokenEvent) (spare : AddsSpare s event) : SparesQueued s event := by
  cases event with
  | thread ret => trivial
  | go k => trivial
  | call call =>
    cases call with
    | addTokenReq req =>
      intro idx pops
      have fit := spare idx pops
      constructor
      · intro member
        have used : (s.dispr.tokenReqExPool idx).addReqInfo.used := sound.used (.add idx) nofun member
        rw [fit.add] at used
        cases used
      · intro member
        have used : (s.dispr.tokenReqExPool idx).freeReqInfo.used := sound.used (.free idx) nofun member
        rw [fit.free] at used
        cases used
    | send msg attr => trivial
    | cancel hdl => trivial
    | clrPending => trivial
    | cannotIo mdlId => trivial
    | resumeIo => trivial
    | shallStop => trivial
    | cancelTokenReq hdl => trivial
    | freeToken hdl => trivial

theorem opsKept_start (moduleQ : Priority → List BkModule) (bitmap basemap : Bitmap) (ctrlPresent : Bool) :
    (tokenStart (disprStart moduleQ bitmap basemap ctrlPresent)).OpsKept := by
  have unused : ∀ node, ((tok (disprStart moduleQ bitmap basemap ctrlPresent)).info node).used = false := by
    intro node
    cases node <;> rfl
  refine ⟨⟨?_,?_,nofun,nofun⟩,.inl rfl⟩
  · intro node _
    rw [tokenStart,unused node]
    rfl
  · intro node _ used
    exact absurd (used.symm.trans (unused node)) nofun

theorem token_ops_sound (moduleQ : Priority → List BkModule) (bitmap basemap : Bitmap) (ctrlPresent : Bool)
    (reached : Reached tokenStep AddsSpare (tokenStart (disprStart moduleQ bitmap basemap ctrlPresent)) s) :
    OpsSound s ∧ ∀ event, AddsSpare s event → SparesQueued s event := by
  have kept : s.OpsKept := reached.invariant TokenSys.OpsKept (opsKept_start moduleQ bitmap basemap ctrlPresent)
    (fun _ event kept spare => opsKept_step kept event spare)
  exact ⟨kept.sound,kept.sound.spares⟩
end steps

def bare : TokenSys := tokenStart (disprStart (fun _ => []) 0 0 false)
def adds : List TokenEvent := [.call (.addTokenReq ⟨phlFgMdlStart,true⟩),.go 0,.go 0,.go 0]
def worked (rets : List MdlRet) : List TokenEvent := rets.map .thread

def served : List TokenEvent :=
  adds ++ worked [.success,.success,.success,.success,.success] ++ [.call (.freeToken (genValidHdl 0)),.go 0] ++
    worked [.success,.success,.success,.success,.success,.success,.success,.success] ++ adds

theorem token_ops_sound_served :
    OpsSound (run tokenStep bare served) ∧ ∀ event, AddsSpare (run tokenStep bare served) event →
    SparesQueued (run tokenStep bare served) event :=
  token_ops_sound (fun _ => []) 0 0 false (Reached.start.run (by decide +kernel))

-- Eight requests wait. The first two are refused by their `acquired` callbacks one
-- after the other, while the operation of the second is still queued, and are
-- taken by two more adds.
def refused : List TokenEvent :=
  (List.replicate maxCmdReqNum adds).flatten ++ worked [.success,.success,.success,.fail,.success,.fail] ++ adds

theorem token_ops_reused : ¬ OpsSound (run tokenStep bare (refused ++ adds.take 1)) ∧
    ¬ OpsSound (run tokenStep bare (refused ++ adds)) := by
  constructor
  · intro sound
    have used := sound.used (.add 1) nofun (by decide +kernel)
    have zeroed : (opInfo (run tokenStep bare (refused ++ adds.take 1)).dispr (.add 1)).used = false := by decide +kernel
    rw [zeroed] at used
    cases used
  · intro sound
    have once := sound.once (.add 1) nofun
    have twice : (run tokenStep bare (refused ++ adds)).dispr.tokenOpQ.count (.add 1) = 2 := by decide +kernel
    omega
end Rtl8852au.Dispr
