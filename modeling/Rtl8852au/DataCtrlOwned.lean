import Rtl8852au.DataCtrl

namespace Rtl8852au.DataCtrl
open Machine Finset Datapath
variable {s : Datapath} {call : Call}

def running : Path := ⟨.running,∅⟩
def Settled (p : Path) : Prop := p = running ∨ p.sts = .swPause ∧ p.pauseId ≠ ∅

section
variable (settled : Settled p)
include settled

theorem Settled.owned : p.sts ≠ .running ↔ p.pauseId ≠ ∅ := by
  rcases settled with rfl | ⟨sts,owners⟩
  · simp [running]
  · simp [sts,owners]

theorem Settled.not_stopping : p.sts ≠ .stopInprogress := by
  rcases settled with rfl | ⟨sts,_⟩
  · simp [running]
  · simp [sts]

theorem Settled.paused (sts : p.sts ≠ .running) : p.sts = .swPause ∧ p.pauseId ≠ ∅ := by
  rcases settled with rfl | held
  · exact absurd rfl sts
  · exact held

theorem Settled.unowned (none : p.pauseId = ∅) : p = running := by
  rcases settled with same | ⟨_,owners⟩
  · exact same
  · exact absurd none owners
end

section
variable (tx : Path) (mdl : Option CtrlMdl)

-- What leaves TX as it is, said of an operation, of what is left of a command
-- and of the step it is at. An RX pause is not reached: before it the hardware
-- pause fails. An RX resume fails, unless nobody is told from the caller.
def Quiet : Op → Prop
  | .pause .tx => tx.sts = .swPause ∧ Marked tx.pauseId mdl
  | .pause .rx => False
  | .resume .tx => Unmarked tx.pauseId mdl
  | _ => True

def QuietOps (tx : Path) (mdl : Option CtrlMdl) : List Op → Prop
  | [] => True
  | .hwTrxPause :: .pause .rx :: _ => True
  | .resume .rx :: rest => mdl = none → QuietOps tx mdl rest
  | op :: rest => Quiet tx mdl op ∧ QuietOps tx mdl rest

def QuietStage (rest : List Op) : Stage → Prop
  | .pauseChk .tx => Quiet tx mdl (.pause .tx) ∧ QuietOps tx mdl rest
  | .resumeChk .tx => Quiet tx mdl (.resume .tx) ∧ QuietOps tx mdl rest
  | .resumeChk .rx => mdl = none → QuietOps tx mdl rest
  | .resumeTrx d | .resumeNotify d => mdl = none ∧ (d = .tx → tx.pauseId = ∅) ∧ QuietOps tx mdl rest
  | .hwTrxPause => QuietOps tx mdl (.hwTrxPause :: rest)
  | .hwTrxRstResume | .reset _ => QuietOps tx mdl rest
  | _ => False

def Calm (tx before : Path) (call : Call) : Prop := Settled tx ∧ tx = before ∧ QuietStage tx call.mdl call.rest call.stage

-- A TX pause that is not a part of a larger command.
def PausingAt (tx : Path) : Stage → Prop
  | .pauseChk .tx => Settled tx
  | .pauseChkStop .tx | .pauseReq .tx => tx = running
  | .pauseNotify .tx | .pausePoll .tx _ => tx.sts ≠ .running ∧ tx.pauseId = ∅
  | _ => False

def ResumingAt : Stage → Prop
  | .resumeChk .tx => Settled tx ∧ Marked tx.pauseId mdl
  | .resumeTrx .tx => tx.sts = .swPause ∧ tx.pauseId = ∅
  | .resumeNotify .tx => tx = running
  | _ => False
end

def Pausing (tx : Path) (call : Call) : Prop := call.rest = [] ∧ call.mdl ≠ none ∧ PausingAt tx call.stage
def Resuming (tx : Path) (call : Call) : Prop := call.rest = [] ∧ call.mdl ≠ none ∧ ResumingAt tx call.mdl call.stage
def UnderWay (tx before : Path) (call : Call) : Prop := Calm tx before call ∨ Pausing tx call ∨ Resuming tx call

def AtRest (s : Datapath) : Prop :=
  Settled (s.path .tx) ∧ ∀ status, s.ret = some status → status ≠ .success → s.path .tx = s.before .tx

structure Base (s : Datapath) : Prop where
  rx : s.path .rx = running
  beforeRx : s.before .rx = running
  handler : s.handler = .stopping → (s.path .tx).sts = .stopInprogress

structure Inv (s : Datapath) : Prop extends Base s where
  idle : s.call = none → AtRest s
  busy : ∀ call, s.call = some call → UnderWay (s.path .tx) (s.before .tx) call

theorem inv_init : Inv init where
  rx := rfl
  beforeRx := rfl
  handler absurd' := by cases absurd'
  idle _ := ⟨.inl rfl,fun _ given => by cases given⟩
  busy _ given := by cases given

theorem Inv.owned (inv : Inv s) : Owned s := by
  constructor
  · intro idle d
    cases d with
    | tx => exact (inv.idle idle).1.owned
    | rx =>
      rw [inv.rx]
      simp [running]
  · intro idle status ret failed
    funext d
    cases d with
    | tx => exact (inv.idle idle).2 status ret failed
    | rx => exact inv.rx.trans inv.beforeRx.symm

theorem quiet_first (quiet : QuietOps tx mdl (op :: rest)) : QuietStage tx mdl rest op.first := by
  cases op with
  | hwTrxPause => exact quiet
  | pause d =>
    cases d with
    | tx => exact quiet
    | rx => exact quiet.1.elim
  | resume d =>
    cases d with
    | tx => exact quiet
    | rx => exact quiet
  | hwTrxRstResume => exact quiet.2
  | reset d => exact quiet.2

theorem begun_inv (inv : Inv s) (idle : s.call = none) (id : ModuleId) (cmd : Cmd) (guarded : Guard s (.cmd id cmd)) :
    Inv (phlDataCtrler s id cmd) := by
  have settled := (inv.idle idle).1
  have start {op : Op} {rest : List Op} (is : ops cmd = op :: rest)
      (way : UnderWay (s.path .tx) (s.path .tx) ⟨cmd,phlGetCtrlMdl id,op.first,rest⟩) : Inv (phlDataCtrler s id cmd) := by
    unfold phlDataCtrler
    rw [is]
    refine ⟨⟨inv.rx,inv.rx,inv.handler⟩,fun ended => ?_,fun call given => ?_⟩
    · cases ended
    · cases given
      exact way
  have calm {op : Op} {rest : List Op} (is : ops cmd = op :: rest)
      (quiet : QuietOps (s.path .tx) (phlGetCtrlMdl id) (op :: rest)) : Inv (phlDataCtrler s id cmd) :=
    start is (.inl ⟨settled,rfl,quiet_first quiet⟩)
  cases cmd with
  | max =>
    refine ⟨⟨inv.rx,inv.rx,inv.handler⟩,fun _ => ⟨settled,fun _ _ _ => rfl⟩,fun call given => ?_⟩
    change s.call = some call at given
    rw [idle] at given
    cases given
  | hwTrxRstResume => exact calm rfl (And.intro trivial trivial)
  | hwTrxPause => exact calm rfl (And.intro trivial trivial)
  | swRxResume => exact calm rfl (fun _ => trivial)
  | swTxReset => exact calm rfl (And.intro trivial trivial)
  | swRxReset => exact calm rfl (And.intro trivial trivial)
  | swRxPause => exact absurd (congrArg Path.sts inv.rx) (guarded idle)
  | trxSwPause => exact absurd (congrArg Path.sts inv.rx) (guarded idle)
  | trxPauseWRst => exact calm rfl (And.intro (guarded idle (congrArg Path.sts inv.rx)) trivial)
  | trxSwResume => exact calm rfl (And.intro (guarded idle) (fun _ => trivial))
  | trxResumeWRst =>
    refine calm rfl (fun unknown => And.intro trivial (And.intro ?_ trivial))
    intro m is
    rw [unknown] at is
    cases is
  | swTxPause =>
    by_cases known : phlGetCtrlMdl id = none
    · have paused := settled.paused (fun sts => guarded idle sts known)
      refine calm rfl (And.intro (And.intro paused.1 ?_) trivial)
      intro m is
      rw [known] at is
      cases is
    · exact start rfl (.inr (.inl ⟨rfl,known,settled⟩))
  | swTxResume =>
    by_cases marked : phlGetCtrlMdl id ≠ none ∧ Marked (s.path .tx).pauseId (phlGetCtrlMdl id)
    · exact start rfl (.inr (.inr ⟨rfl,marked.1,settled,marked.2⟩))
    · refine calm rfl (And.intro ?_ trivial)
      intro m is held
      refine marked ⟨by rw [is]; exact Option.some_ne_none m,fun n same => ?_⟩
      rw [is] at same
      cases same
      exact held

theorem PausingAt.answered (way : PausingAt tx stage) (sts : tx.sts = .stopInprogress) :
    PausingAt {tx with sts:=.swPause} stage := by
  have moving : tx ≠ running := by
    rintro rfl
    cases sts
  cases stage with
  | pauseChk d =>
    cases d with
    | tx => exact absurd sts (Settled.not_stopping way)
    | rx => exact way
  | pauseChkStop d =>
    cases d with
    | tx => exact absurd way moving
    | rx => exact way
  | pauseReq d =>
    cases d with
    | tx => exact absurd way moving
    | rx => exact way
  | pauseNotify d =>
    cases d with
    | tx => exact ⟨SwSts.noConfusion,way.2⟩
    | rx => exact way
  | pausePoll d i =>
    cases d with
    | tx => exact ⟨SwSts.noConfusion,way.2⟩
    | rx => exact way
  | resumeChk | resumeTrx | resumeNotify | hwTrxPause | hwTrxRstResume | reset => exact way

theorem ResumingAt.not_stopping (way : ResumingAt tx mdl stage) : tx.sts ≠ .stopInprogress := by
  cases stage with
  | resumeChk d =>
    cases d with
    | tx => exact Settled.not_stopping way.1
    | rx => exact way.elim
  | resumeTrx d =>
    cases d with
    | tx => rw [show tx.sts = .swPause from way.1]; exact SwSts.noConfusion
    | rx => exact way.elim
  | resumeNotify d =>
    cases d with
    | tx => rw [show tx = running from way]; exact SwSts.noConfusion
    | rx => exact way.elim
  | pauseChk | pauseChkStop | pauseReq | pauseNotify | pausePoll | hwTrxPause | hwTrxRstResume | reset => exact way.elim

theorem handler_inv (inv : Inv s) : Inv (phlTxCallbackUsb s) := by
  unfold phlTxCallbackUsb
  cases stage : s.handler with
  | idle =>
    dsimp only
    split
    · exact inv
    · exact ⟨⟨inv.rx,inv.beforeRx,nofun⟩,inv.idle,inv.busy⟩
  | begun =>
    refine ⟨⟨inv.rx,inv.beforeRx,?_⟩,inv.idle,inv.busy⟩
    dsimp only
    split
    · rename_i stopping
      exact fun _ => stopping
    · intro other
      cases other
  | stopping =>
    have sts := inv.handler stage
    refine ⟨⟨inv.rx,inv.beforeRx,nofun⟩,fun idle => ?_,fun call given => ?_⟩
    · exact absurd sts (inv.idle idle).1.not_stopping
    · change UnderWay ((s.onSts .tx .swPause).path .tx) (s.before .tx) call
      rw [onSts,setPath_self]
      rcases inv.busy call given with calm | pausing | resuming
      · exact absurd sts calm.1.not_stopping
      · right; left
        exact ⟨pausing.1,pausing.2.1,pausing.2.2.answered sts⟩
      · exact absurd sts resuming.2.2.not_stopping

theorem goto_inv (base : Base s) (way : UnderWay (s.path .tx) (s.before .tx) {call with stage}) : Inv (s.goto call stage) := by
  refine ⟨⟨base.rx,base.beforeRx,base.handler⟩,fun ended => ?_,fun other given => ?_⟩
  · cases ended
  · cases given
    exact way

section
variable (base : Base s) (settled : Settled (s.path .tx))
include base settled

theorem fail_inv (same : s.path .tx = s.before .tx) (status : Status) :
    Inv (s.fail call status) := by
  refine ⟨⟨base.rx,base.beforeRx,base.handler⟩,fun _ => ⟨settled,fun _ _ _ => same⟩,fun other given => ?_⟩
  cases given

theorem done_inv (last : call.rest = []) : Inv (s.succeed call) := by
  unfold succeed
  rw [last]
  refine ⟨⟨base.rx,base.beforeRx,base.handler⟩,fun _ => ⟨settled,fun status ret failed => ?_⟩,fun other given => ?_⟩
  · cases ret
    exact absurd rfl failed
  · cases given

theorem next_inv (same : s.path .tx = s.before .tx)
    (quiet : QuietOps (s.path .tx) call.mdl call.rest) : Inv (s.succeed call) := by
  cases rest : call.rest with
  | nil => exact done_inv base settled rest
  | cons op rest' =>
    rw [rest] at quiet
    unfold succeed
    rw [rest]
    refine ⟨⟨base.rx,base.beforeRx,base.handler⟩,fun ended => ?_,fun other given => ?_⟩
    · cases ended
    · cases given
      exact .inl ⟨settled,same,quiet_first quiet⟩
end

theorem setFlag_marked (marked : Marked (s.path d).pauseId mdl) : s.setFlag d mdl = s := by
  have same : setStatusFlag (s.path d).pauseId mdl = (s.path d).pauseId := by
    cases mdl with
    | none => rfl
    | some m => exact insert_eq_of_mem (marked m rfl)
  unfold setFlag
  rw [same]
  exact setPath_same s d

theorem clearFlag_none (s : Datapath) (d : Dir) : s.clearFlag d none = s := setPath_same s d

theorem onSts_running (runs : s.path d = running) : s.onSts d .running = s := by
  unfold onSts
  rw [runs]
  change s.setPath d running = s
  rw [← runs]
  exact setPath_same s d

theorem quiet_hw (quiet : QuietOps tx mdl (.hwTrxPause :: rest)) (other : rest.head? ≠ some (.pause .rx)) :
    QuietOps tx mdl rest := by
  cases rest with
  | nil => trivial
  | cons op rest' =>
    cases op with
    | pause d =>
      cases d with
      | tx => exact quiet.2
      | rx => exact absurd rfl other
    | resume | hwTrxPause | hwTrxRstResume | reset => exact quiet.2

theorem unknown_passes (s : Datapath) (d : Dir) : testStatusFlag (s.path d).pauseId none := rfl

theorem marked_passes (marked : m ∈ (s.path d).pauseId) : testStatusFlag (s.path d).pauseId (some m) := decide_eq_true marked

theorem unmarked_fails (unmarked : m ∉ (s.path d).pauseId) : testStatusFlag (s.path d).pauseId (some m) = false :=
  decide_eq_false unmarked

theorem calm_resumeChk (base : Base s) (calm : Calm (s.path .tx) (s.before .tx) call) (d : Dir) (unknown : call.mdl = none)
    (after : QuietOps (s.path .tx) call.mdl call.rest) :
    Inv (if (s.path d).pauseId ≠ ∅ then s.succeed call else s.goto call (.resumeTrx d)) := by
  obtain ⟨settled,same,_⟩ := calm
  split
  · exact next_inv base settled same after
  · rename_i unowned
    apply goto_inv base
    left
    refine ⟨settled,same,unknown,?_,after⟩
    intro is
    rw [is] at unowned
    exact not_not.mp unowned

theorem calm_step (base : Base s) (calm : Calm (s.path .tx) (s.before .tx) call) (guarded : StepGuard s call ok) :
    Inv (advance s call ok) := by
  have whole := calm
  obtain ⟨settled,same,quiet⟩ := calm
  have failed : Inv (s.fail call .failure) := fail_inv base settled same .failure
  unfold StepGuard at guarded
  unfold advance
  cases stage : call.stage with
  | pauseChk d =>
    rw [stage] at quiet
    cases d with
    | rx => exact quiet.elim
    | tx =>
      obtain ⟨⟨sts,marked⟩,after⟩ := quiet
      dsimp only
      rw [if_pos sts,setFlag_marked marked]
      exact next_inv base settled same after
  | pauseChkStop | pauseReq | pauseNotify | pausePoll =>
    rw [stage] at quiet
    exact quiet.elim
  | resumeChk d =>
    rw [stage] at quiet
    dsimp only
    cases mdl : call.mdl with
    | none =>
      have after : QuietOps (s.path .tx) call.mdl call.rest := by
        cases d with
        | tx => exact quiet.2
        | rx => exact quiet mdl
      rw [if_pos (unknown_passes s d),clearFlag_none]
      exact calm_resumeChk base whole d mdl after
    | some m =>
      have unmarked : m ∉ (s.path d).pauseId := by
        cases d with
        | tx => exact quiet.1 m mdl
        | rx =>
          rw [base.rx]
          exact notMem_empty m
      rw [unmarked_fails unmarked]
      exact failed
  | resumeTrx d =>
    rw [stage] at quiet
    have runs : s.path d = running := by
      cases d with
      | tx => exact settled.unowned (quiet.2.1 rfl)
      | rx => exact base.rx
    dsimp only
    rw [onSts_running runs]
    exact goto_inv base (.inl ⟨settled,same,quiet⟩)
  | resumeNotify d =>
    rw [stage] at quiet
    dsimp only
    split
    · exact next_inv base settled same quiet.2.2
    · exact failed
  | hwTrxPause =>
    rw [stage] at quiet guarded
    dsimp only
    split
    · rename_i done
      have paused : Base {s with isHwTrxPause:=true} := ⟨base.rx,base.beforeRx,base.handler⟩
      refine next_inv paused settled same (quiet_hw quiet ?_)
      intro rx
      rw [guarded rx (congrArg Path.sts base.rx)] at done
      cases done
    · exact failed
  | hwTrxRstResume =>
    rw [stage] at quiet
    dsimp only
    split
    · have resumed : Base {s with isHwTrxPause:=false} := ⟨base.rx,base.beforeRx,base.handler⟩
      exact next_inv resumed settled same quiet
    · exact failed
  | reset d =>
    rw [stage] at quiet
    exact next_inv base settled same quiet

theorem Base.setTx (base : Base s) (p : Path) (agrees : s.handler = .stopping → p.sts = .stopInprogress) :
    Base (s.setPath .tx p) := by
  refine ⟨?_,base.beforeRx,?_⟩
  · rw [setPath_other s p (by decide)]
    exact base.rx
  · rw [setPath_self]
    exact agrees

theorem owner_set (known : mdl ≠ none) (pauseId : Finset CtrlMdl) : setStatusFlag pauseId mdl ≠ ∅ := by
  cases mdl with
  | none => exact absurd rfl known
  | some m => exact insert_ne_empty m pauseId

theorem owned_inv (base : Base s) (known : call.mdl ≠ none) (last : call.rest = []) (sts : (s.path .tx).sts = .swPause) :
    Inv ((s.setFlag .tx call.mdl).succeed call) := by
  have changed : Base (s.setFlag .tx call.mdl) := base.setTx _ (fun stopping => base.handler stopping)
  refine done_inv changed ?_ last
  rw [setFlag,setPath_self]
  exact .inr ⟨sts,owner_set known _⟩

theorem pausing_step (base : Base s) (pausing : Pausing (s.path .tx) call) (guarded : StepGuard s call ok) :
    Inv (advance s call ok) := by
  obtain ⟨last,known,way⟩ := pausing
  have onward {stage : Stage} (next : PausingAt (s.path .tx) stage) : Inv (s.goto call stage) :=
    goto_inv base (.inr (.inl ⟨last,known,next⟩))
  unfold StepGuard at guarded
  unfold advance
  cases stage : call.stage with
  | pauseChk d =>
    rw [stage] at way
    cases d with
    | rx => exact way.elim
    | tx =>
      dsimp only
      split
      · rename_i paused
        exact owned_inv base known last paused
      · rename_i moving
        apply onward
        rcases way with runs | held
        · exact runs
        · exact absurd held.1 moving
  | pauseChkStop d =>
    rw [stage] at way
    cases d with
    | rx => exact way.elim
    | tx =>
      change s.path .tx = running at way
      dsimp only
      rw [if_neg (by rw [way]; decide)]
      exact onward way
  | pauseReq d =>
    rw [stage] at way
    cases d with
    | rx => exact way.elim
    | tx =>
      change s.path .tx = running at way
      have asked : Base (s.onSts .tx .stopInprogress) := base.setTx _ (fun _ => rfl)
      refine goto_inv asked (.inr (.inl ⟨last,known,?_⟩))
      rw [onSts,setPath_self,way]
      exact ⟨SwSts.noConfusion,rfl⟩
  | pauseNotify d =>
    rw [stage] at way guarded
    cases d with
    | rx => exact way.elim
    | tx =>
      change ok at guarded
      dsimp only
      rw [if_pos guarded]
      exact onward way
  | pausePoll d i =>
    rw [stage] at way guarded
    cases d with
    | rx => exact way.elim
    | tx =>
      dsimp only
      split
      · rename_i paused
        exact owned_inv base known last paused
      · rename_i moving
        have soon : i + 1 < pollCnt := guarded.resolve_left moving
        rw [if_pos soon]
        exact onward way
  | resumeChk | resumeTrx | resumeNotify | hwTrxPause | hwTrxRstResume | reset =>
    rw [stage] at way
    exact way.elim

theorem resuming_step (base : Base s) (resuming : Resuming (s.path .tx) call) (guarded : StepGuard s call ok) :
    Inv (advance s call ok) := by
  obtain ⟨last,known,way⟩ := resuming
  unfold StepGuard at guarded
  unfold advance
  cases stage : call.stage with
  | resumeChk d =>
    rw [stage] at way
    cases d with
    | rx => exact way.elim
    | tx =>
      cases mdl : call.mdl with
      | none => exact absurd mdl known
      | some m =>
        obtain ⟨settled,marked⟩ := way
        have mine : m ∈ (s.path .tx).pauseId := marked m mdl
        have paused : (s.path .tx).sts = .swPause := by
          rcases settled with runs | held
          · rw [runs] at mine
            exact absurd mine (notMem_empty m)
          · exact held.1
        have cleared : Base (s.clearFlag .tx (some m)) := base.setTx _ (fun stopping => base.handler stopping)
        have sts : ((s.clearFlag .tx (some m)).path .tx).sts = .swPause := by
          rw [clearFlag,setPath_self]
          exact paused
        dsimp only
        rw [marked_passes mine,if_pos rfl]
        split
        · rename_i others
          exact done_inv cleared (.inr ⟨sts,others⟩) last
        · rename_i unowned
          refine goto_inv cleared (.inr (.inr ⟨last,known,sts,?_⟩))
          exact not_not.mp unowned
  | resumeTrx d =>
    rw [stage] at way
    cases d with
    | rx => exact way.elim
    | tx =>
      obtain ⟨sts,unowned⟩ := way
      have restarted : Base (s.onSts .tx .running) := by
        refine base.setTx _ (fun stopping => ?_)
        have asked := base.handler stopping
        rw [sts] at asked
        cases asked
      refine goto_inv restarted (.inr (.inr ⟨last,known,?_⟩))
      change (s.onSts .tx .running).path .tx = running
      rw [onSts,setPath_self]
      exact congrArg (Path.mk .running) unowned
  | resumeNotify d =>
    rw [stage] at way guarded
    cases d with
    | rx => exact way.elim
    | tx =>
      have told : ok := guarded.resolve_right known
      rw [if_pos told]
      exact done_inv base (.inl way) last
  | pauseChk | pauseChkStop | pauseReq | pauseNotify | pausePoll | hwTrxPause | hwTrxRstResume | reset =>
    rw [stage] at way
    exact way.elim

theorem dataStep_inv (inv : Inv s) (guarded : Guard s event) : Inv (dataStep s event) := by
  cases event with
  | cmd id cmd =>
    unfold dataStep
    cases call : s.call with
    | none => exact begun_inv inv call id cmd guarded
    | some other => exact inv
  | advance ok =>
    unfold dataStep
    cases given : s.call with
    | none => exact inv
    | some call =>
      have steps : StepGuard s call ok := guarded call given
      rcases inv.busy call given with calm | pausing | resuming
      · exact calm_step inv.toBase calm steps
      · exact pausing_step inv.toBase pausing steps
      · exact resuming_step inv.toBase resuming steps
  | txHandler => exact handler_inv inv
  | rxHandler => exact inv

section
variable (s : Datapath)

@[simp] theorem succeed_path (call : Call) : (s.succeed call).path = s.path := by
  unfold succeed
  cases call.rest <;> rfl

@[simp] theorem goto_path (call : Call) (stage : Stage) : (s.goto call stage).path = s.path := rfl
@[simp] theorem fail_path (call : Call) (status : Status) : (s.fail call status).path = s.path := rfl

@[simp] theorem phlDataCtrler_path (id : ModuleId) (cmd : Cmd) : (phlDataCtrler s id cmd).path = s.path := by
  unfold phlDataCtrler
  split <;> rfl

@[simp] theorem setFlag_sts (d e : Dir) (mdl : Option CtrlMdl) :
    ((s.setFlag d mdl).path e).sts = (s.path e).sts := by
  by_cases same : e = d
  · subst same
    rw [setFlag,setPath_self]
  · rw [setFlag,setPath_other s _ same]

@[simp] theorem clearFlag_sts (d e : Dir) (mdl : Option CtrlMdl) :
    ((s.clearFlag d mdl).path e).sts = (s.path e).sts := by
  by_cases same : e = d
  · subst same
    rw [clearFlag,setPath_self]
  · rw [clearFlag,setPath_other s _ same]

theorem handler_keeps (d : Dir) : (phlTxCallbackUsb s).call = s.call ∧
    ((phlTxCallbackUsb s).path d).pauseId = (s.path d).pauseId ∧
    (((phlTxCallbackUsb s).path d).sts = .running → (s.path d).sts = .running) := by
  unfold phlTxCallbackUsb
  cases s.handler with
  | idle =>
    dsimp only
    split
    · exact ⟨rfl,rfl,id⟩
    · exact ⟨rfl,rfl,id⟩
  | begun => exact ⟨rfl,rfl,id⟩
  | stopping =>
    refine ⟨rfl,?_,?_⟩
    · dsimp only
      cases d with
      | tx => rw [onSts,setPath_self]
      | rx => rw [onSts,setPath_other s _ (by decide)]
    · dsimp only
      cases d with
      | tx =>
        rw [onSts,setPath_self]
        exact SwSts.noConfusion
      | rx =>
        rw [onSts,setPath_other s _ (by decide)]
        exact id

def Emptied (s : Datapath) : Prop := ∀ call, s.call = some call → ∀ d, call.stage = .resumeTrx d → (s.path d).pauseId = ∅

theorem fail_emptied (call : Call) (status : Status) : Emptied (s.fail call status) := by
  intro other given
  cases given

theorem goto_emptied (call : Call) (none' : ∀ d, stage = .resumeTrx d → (s.path d).pauseId = ∅) :
    Emptied (s.goto call stage) := by
  intro other given d at'
  cases given
  exact none' d at'

theorem first_not_resumeTrx (op : Op) (d : Dir) : op.first ≠ .resumeTrx d := by cases op <;> exact Stage.noConfusion

theorem succeed_emptied (call : Call) : Emptied (s.succeed call) := by
  intro other given d at'
  unfold succeed at given
  cases rest : call.rest with
  | nil =>
    rw [rest] at given
    cases given
  | cons op rest' =>
    rw [rest] at given
    cases given
    exact absurd at' (first_not_resumeTrx op d)

theorem advance_emptied (call : Call) (ok : Bool) : Emptied (advance s call ok) := by
  have onward (s : Datapath) {stage : Stage} (other : ∀ d, stage ≠ .resumeTrx d) : Emptied (s.goto call stage) :=
    goto_emptied s call (fun d is => absurd is (other d))
  unfold advance
  cases call.stage with
  | pauseChk d =>
    dsimp only
    split
    · exact succeed_emptied _ call
    · exact onward s (fun _ => Stage.noConfusion)
  | pauseChkStop d =>
    dsimp only
    split
    · exact succeed_emptied _ call
    · exact onward s (fun _ => Stage.noConfusion)
  | pauseReq d => exact onward _ (fun _ => Stage.noConfusion)
  | pauseNotify d =>
    dsimp only
    split
    · exact onward s (fun _ => Stage.noConfusion)
    · exact fail_emptied s call .failure
  | pausePoll d i =>
    dsimp only
    split
    · exact succeed_emptied _ call
    · split
      · exact onward s (fun _ => Stage.noConfusion)
      · exact fail_emptied _ call .cmdTimeout
  | resumeChk d =>
    dsimp only
    split
    · split
      · exact succeed_emptied _ call
      · rename_i unowned
        apply goto_emptied
        intro e is
        cases is
        exact not_not.mp unowned
    · exact fail_emptied s call .failure
  | resumeTrx d => exact onward _ (fun _ => Stage.noConfusion)
  | resumeNotify | hwTrxPause | hwTrxRstResume =>
    dsimp only
    split
    · exact succeed_emptied _ call
    · exact fail_emptied s call .failure
  | reset d => exact succeed_emptied s call
end

theorem dataStep_emptied (emptied : Emptied s) (event : Event) : Emptied (dataStep s event) := by
  cases event with
  | cmd id cmd =>
    unfold dataStep
    cases idle : s.call with
    | some other => exact emptied
    | none =>
      change Emptied (phlDataCtrler s id cmd)
      unfold phlDataCtrler
      intro call given d at'
      split at given
      · exact emptied call given d at'
      · cases given
        exact absurd at' (first_not_resumeTrx _ d)
  | advance ok =>
    unfold dataStep
    cases given : s.call with
    | none => exact emptied
    | some call => exact advance_emptied s call ok
  | txHandler =>
    intro call given d at'
    obtain ⟨under,owners,_⟩ := handler_keeps s d
    change (phlTxCallbackUsb s).call = some call at given
    change ((phlTxCallbackUsb s).path d).pauseId = ∅
    rw [owners]
    exact emptied call (under.symm.trans given) d at'
  | rxHandler => exact emptied

theorem advance_restarts (stopped : (s.path d).sts ≠ .running) (runs : ((advance s call ok).path d).sts = .running) :
    call.stage = .resumeTrx d ∧ ((advance s call ok).path d).pauseId = (s.path d).pauseId := by
  unfold advance at runs ⊢
  cases stage : call.stage with
  | resumeTrx e =>
    rw [stage] at runs
    by_cases same : d = e
    · subst same
      refine ⟨rfl,?_⟩
      rw [goto_path,onSts,setPath_self]
    · dsimp only at runs
      rw [goto_path,onSts,setPath_other s _ same] at runs
      exact absurd runs stopped
  | pauseReq e =>
    rw [stage] at runs
    rw [goto_path,onSts] at runs
    by_cases same : d = e
    · subst same
      rw [setPath_self] at runs
      cases runs
    · rw [setPath_other s _ same] at runs
      exact absurd runs stopped
  | pauseChk | pauseChkStop | pauseNotify | pausePoll | resumeChk | resumeNotify | hwTrxPause | hwTrxRstResume | reset =>
    rw [stage] at runs
    dsimp only at runs
    refine absurd ?_ stopped
    repeat' split at runs
    all_goals simpa using runs

theorem restarts_unowned (emptied : Emptied s) (event : Event) : RestartsUnowned s event := by
  intro d stopped runs
  cases event with
  | cmd id cmd =>
    rw [dataStep,apply_ite path,phlDataCtrler_path,ite_self] at runs
    exact absurd runs stopped
  | advance ok =>
    unfold dataStep at runs ⊢
    cases given : s.call with
    | none =>
      rw [given] at runs
      exact absurd runs stopped
    | some call =>
      rw [given] at runs
      obtain ⟨at',owners⟩ := advance_restarts stopped runs
      exact owners.trans (emptied call given d at')
  | txHandler => exact absurd ((handler_keeps s d).2.2 runs) stopped
  | rxHandler => exact absurd runs stopped

theorem reached_emptied {guard : Datapath → Event → Prop} (path : Reached dataStep guard init s) : Emptied s := by
  refine path.invariant Emptied ?_ (fun s event emptied _ => dataStep_emptied emptied event)
  intro call given
  cases given

theorem run_restarts_unowned (events : List Event) (event : Event) : RestartsUnowned (run dataStep Datapath.init events) event :=
  have start : Emptied Datapath.init := fun _ given => by cases given
  restarts_unowned (events.foldlRecOn dataStep start fun _ emptied event _ => dataStep_emptied emptied event) event

theorem reached_inv (path : Reached dataStep Guard init s) : Inv s :=
  path.invariant Inv inv_init (fun _ _ inv guarded => dataStep_inv inv guarded)

theorem datapath_owned (path : Reached dataStep Guard Datapath.init s) : Owned s ∧ ∀ event, RestartsUnowned s event :=
  ⟨(reached_inv path).owned,fun event => restarts_unowned (reached_emptied path) event⟩

instance (pauseId : Finset CtrlMdl) (mdl : Option CtrlMdl) : Decidable (Marked pauseId mdl) :=
  inferInstanceAs (Decidable (∀ m ∈ mdl, m ∈ pauseId))

instance (pauseId : Finset CtrlMdl) (mdl : Option CtrlMdl) : Decidable (Unmarked pauseId mdl) :=
  inferInstanceAs (Decidable (∀ m ∈ mdl, m ∉ pauseId))

instance (s : Datapath) (call : Call) (ok : Bool) : Decidable (StepGuard s call ok) := by
  unfold StepGuard
  split <;> infer_instance

instance (s : Datapath) : (event : Event) → Decidable (Guard s event)
  | .cmd id cmd => by
    cases cmd <;> unfold Guard <;> infer_instance
  | .advance ok => inferInstanceAs (Decidable (∀ call ∈ s.call, StepGuard s call ok))
  | .txHandler => isTrue trivial
  | .rxHandler => isTrue trivial

-- The recovery pauses TX, the power manager joins, a combined pause by the
-- former fails at the hardware, and both resume.
def pauses : List Event := [.cmd .ser .swTxPause,.advance true,.advance true,.advance true,.txHandler,.advance true,
  .txHandler,.advance true,.txHandler,.advance true,
  .cmd .powerMgnt .swTxPause,.advance true,
  .cmd .ser .trxPauseWRst,.advance true,.advance false,
  .cmd .ser .swTxResume,.advance true,.cmd .powerMgnt .swTxResume,.advance true,.advance true,.advance true]

theorem datapath_shared : Owned (run dataStep Datapath.init pauses) ∧
    ∀ event, RestartsUnowned (run dataStep Datapath.init pauses) event :=
  datapath_owned (Reached.start.run (by decide +kernel))

-- The recovery asks TX to stop and the handler cannot be scheduled.
def unscheduled : List Event := [.cmd .ser .swTxPause,.advance true,.advance true,.advance true,.advance false]

theorem datapath_unowned : ¬ ∀ events : List Event, Owned (run dataStep Datapath.init events) := by
  intro owned
  have stopping : ((run dataStep init unscheduled).path .tx).sts ≠ .running := by decide
  have idle : (run dataStep init unscheduled).call = none := rfl
  have owners := ((owned unscheduled).owners idle .tx).mp stopping
  exact owners (by decide)
end Rtl8852au.DataCtrl
