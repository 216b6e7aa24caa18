import Mathlib.Data.List.Perm.Basic
import Rtl8852au.DispatcherTokenOps

namespace Rtl8852au.Dispr
open Machine List Tok

@[ext] structure Seat where
  idle : Nat
  wait : Nat
  cur : Nat
  enq : Nat
  run : Nat
  out : Nat
  last : Nat
  aborts : Nat
  due : Nat

@[ext] structure Claim where
  taken : Nat
  pushed : Nat
  ends : Nat
  canceled : Nat
  base : Nat
  inside : Nat

def Task.out : Task → Nat → Nat
  | .abortWaiting _ held,req => if held = req then 1 else 0
  | _,_ => 0

def Task.last : Task → Nat → Nat
  | .abortCurrent _,cur => cur
  | _,_ => 0

@[simp] theorem Task.out_rest (req : Nat) : Task.rest.out req = 0 := rfl
section
variable (node : OpNode)

@[simp] theorem Task.out_process (req : Nat) : (Task.process node).out req = 0 := rfl
@[simp] theorem Task.out_abortWaiting (held req : Nat) :
    (Task.abortWaiting node held).out req = if held = req then 1 else 0 := rfl
@[simp] theorem Task.last_rest (cur : Nat) : Task.rest.last cur = 0 := rfl
@[simp] theorem Task.last_process (cur : Nat) : (Task.process node).last cur = 0 := rfl
end

namespace Tok

def holdsCur (t : Tok) (req : Nat) : Nat := if t.cur = some req then 1 else 0

def cancelDue (t : Tok) (req : Nat) : Nat := if .free req ∈ t.ops ∧ (t.info (.free req)).type = .cancelCmdReq then 1 else 0

def seat (t : Tok) (req : Nat) : Seat where
  idle := t.idleQ.count req
  wait := t.waitQ.count req
  cur := t.holdsCur req
  enq := (t.pool req).status.enq.toNat
  run := (t.pool req).status.run.toNat
  out := t.task.out req
  last := t.task.last (t.holdsCur req)
  aborts := t.aborts req
  due := t.cancelDue req
end Tok

@[mk_iff] structure Fair (a : Seat) (k : Claim) : Prop where
  inside : k.inside ≤ 1
  place : a.idle + a.wait + a.cur + k.taken + a.out = k.inside
  enq : a.enq + k.pushed = a.wait + a.out
  run : a.run + a.last = a.cur
  low : k.base ≤ a.aborts
  high : a.aborts ≤ k.base+1
  aborted : a.aborts = k.base+1 → k.canceled = 1 ∧ a.idle + a.out + a.last = 1
  aborting : a.out + a.last ≠ 0 → a.aborts = k.base+1
  owed : k.canceled = 1 → a.aborts = k.base → a.due = 1 ∧ a.wait + a.run = 1
  told : a.due = 1 → k.canceled = 1
  ending : k.ends ≠ 0 → a.wait + a.run = 1 ∨ a.aborts = k.base+1
  fresh : k.taken + k.pushed ≠ 0 → k.canceled = 0 ∧ k.ends = 0
  canceled : k.canceled ≤ 1

inductive Fate (pops drops : Option Nat) (req : Nat) (a : Seat) : Seat → Prop where
  | same : Fate pops drops req a a
  | missed (idle : a.enq = 0) (off : a.run = 0) : Fate pops drops req a {a with due:=0}
  | acquired (popped : pops = some req) (waits : 1 ≤ a.wait) (free : a.cur = 0) :
      Fate pops drops req a {a with wait:=a.wait - 1,cur:=1,enq:=0,run:=1}
  | dropped (dropped : drops = some req) (holds : a.cur = 1) (off : a.last = 0) :
      Fate pops drops req a {a with idle:=a.idle+1,cur:=0,enq:=0,run:=0}
  | canceledWaiting (waits : a.enq = 1) (due : a.due = 1) (off : a.out = 0) :
      Fate pops drops req a {a with wait:=a.wait - 1,out:=1,aborts:=a.aborts+1,due:=0}
  | canceledCurrent (holds : a.run = 1) (due : a.due = 1) (off : a.last = 0) :
      Fate pops drops req a {a with run:=0,last:=1,aborts:=a.aborts+1,due:=0}
  | abortedWaiting (out : a.out = 1) : Fate pops drops req a {a with idle:=a.idle+1,enq:=0,run:=0,out:=0}
  | abortedCurrent (last : a.last = 1) (holds : a.cur = 1) :
      Fate pops drops req a {a with idle:=a.idle+1,cur:=0,enq:=0,run:=0,last:=0}

theorem Fate.fair {pops drops : Option Nat} (fate : Fate pops drops req a b) (fair : Fair a k)
    (unpushed : pops = some req → k.pushed = 0) (undue : drops = some req → a.due = 0 ∧ k.ends = 0) : Fair b k := by
  rw [fair_iff] at fair ⊢
  cases fate with
  | same => exact fair
  | missed idle off =>
    dsimp only
    and_intros <;> omega
  | acquired popped waits free =>
    have none := unpushed popped
    dsimp only
    and_intros <;> omega
  | dropped gone holds off =>
    obtain ⟨notDue,notEnding⟩ := undue gone
    dsimp only
    and_intros <;> omega
  | canceledWaiting waits due off =>
    dsimp only
    and_intros <;> omega
  | canceledCurrent holds due off =>
    dsimp only
    and_intros <;> omega
  | abortedWaiting out =>
    dsimp only
    and_intros <;> omega
  | abortedCurrent last holds =>
    dsimp only
    and_intros <;> omega

section seats
variable (t : Tok) (req q : Nat)

theorem seat_goto (task : Task) : (t.goto task).seat req =
    {t.seat req with out:=task.out req,last:=task.last (t.holdsCur req)} := rfl

theorem finish_status (node : OpNode) : ((t.finish node).pool req).status = (t.pool req).status := by
  cases node with
  | add own => by_cases same : req = own <;> simp [finish,setInfo,setReq,goto,same]
  | free own => by_cases same : req = own <;> simp [finish,setInfo,setReq,goto,same]
  | renew => rfl

theorem setStatus_status (status : ReqStatus) :
    ((t.setStatus q status).pool req).status = if req = q then status else (t.pool req).status := by
  by_cases same : req = q <;> simp [setStatus,setReq,same]

theorem seat_finish (node : OpNode) : (t.finish node).seat req = {t.seat req with out:=0,last:=0} := by
  have type : ((t.finish node).info (.free req)).type = (t.info (.free req)).type := by
    cases node with
    | add own => by_cases same : req = own <;> simp [finish,setInfo,setReq,goto,info,same]
    | free own => by_cases same : req = own <;> simp [finish,setInfo,setReq,goto,info,same]
    | renew => rfl
  have due : (t.finish node).cancelDue req = t.cancelDue req := by
    unfold cancelDue
    rw [type]
    cases node <;> rfl
  unfold seat
  rw [finish_status,due]
  cases node <;> rfl

theorem seat_setStatus (status : ReqStatus) : (t.setStatus q status).seat req =
    if req = q then {t.seat req with enq:=status.enq.toNat,run:=status.run.toNat} else t.seat req := by
  have due : (t.setStatus q status).cancelDue req = t.cancelDue req := by
    unfold cancelDue
    rw [(sameOps_setStatus t q status).info]
    rfl
  have holds : (t.setStatus q status).holdsCur req = t.holdsCur req := rfl
  unfold seat
  rw [due,holds]
  by_cases same : req = q
  · simp [same,setStatus,setReq]
  · simp [same,setStatus,setReq]

theorem seat_idle : (t.idle q).seat req =
    if req = q then {t.seat req with idle:=(t.seat req).idle + 1,enq:=0,run:=0} else t.seat req := by
  have back : (t.idle q).seat req = {(t.setStatus q {}).seat req with idle:=(t.idleQ ++ [q]).count req} := rfl
  rw [back,seat_setStatus,count_append,count_singleton]
  by_cases same : req = q
  · subst same
    simp [seat]
  · simp [same,Ne.symm same,seat]

theorem seat_release (holds : t.cur = some q) (task : Task) : (t.release.goto task).seat req =
    if req = q then {t.seat req with
      idle := (t.seat req).idle + 1,cur := 0,enq := 0,run := 0,out := task.out req,last := task.last 0}
    else {t.seat req with out:=task.out req,last:=task.last 0} := by
  have back : (t.release.goto task).seat req =
      {(t.idle q).seat req with cur:=0,out:=task.out req,last:=task.last 0} := by
    rw [release_held t holds]
    rfl
  rw [back,seat_idle]
  by_cases same : req = q
  · simp [same]
  · have away : t.holdsCur req = 0 := by simp [holdsCur,holds,Ne.symm same]
    simp [same,seat,away]
end seats

structure Token (t : Tok) : Prop where
  cnt : t.cnt = if t.cur.isSome then 1 else 0
  prepare : ∀ req, (t.pool req).status.prepare = false

section works
variable {t u : Tok} {k : Nat → Claim} {pops drops : Option Nat} {calls : List TokenCall} {life : Nat → Nat} {stamp : OpNode → Nat}

section
variable (token : Token t)
include token

theorem Token.keep (cnt : u.cnt = t.cnt) (cur : u.cur = t.cur)
    (prepare : ∀ req, (u.pool req).status.prepare → (t.pool req).status.prepare) : Token u := by
  constructor
  · rw [cnt,cur]
    exact token.cnt
  · intro req
    by_contra set
    have old := prepare req (by simpa using set)
    rw [token.prepare req] at old
    cases old

theorem Token.setStatus (q : Nat) (unset : status.prepare = false) : Token (t.setStatus q status) := by
  refine ⟨token.cnt,fun req => ?_⟩
  rw [setStatus_status]
  split
  · exact unset
  · exact token.prepare req

theorem Token.release (task : Task) : Token (t.release.goto task) := by
  cases holds : t.cur with
  | none =>
    have same : t.release = t := by
      unfold Tok.release
      rw [holds]
    rw [same]
    exact token.keep rfl rfl (fun _ => id)
  | some q =>
    rw [release_held t holds]
    constructor
    · have one := token.cnt
      rw [holds] at one
      change t.cnt - 1 = 0
      rw [one]
      rfl
    · exact (token.setStatus q rfl).prepare

theorem Token.finish (node : OpNode) : Token (t.finish node) := by
  apply token.keep
  · cases node <;> rfl
  · cases node <;> rfl
  · intro req
    rw [finish_status]
    exact id

theorem Token.handle (node : OpNode) : Token (t.handle node) := by
  unfold Tok.handle
  dsimp only
  cases (t.info node).type with
  | renewCmdReq => exact token.keep rfl rfl (fun _ => id)
  | addCmdReq => exact token.keep rfl rfl (fun _ => id)
  | freeCmdReq =>
    dsimp only
    split
    · exact token.finish node
    · exact token.release _
  | cancelCmdReq =>
    dsimp only
    split
    · exact token.finish node
    split
    · exact token.keep rfl rfl (fun _ => id)
    split
    · cases holds : t.cur with
      | none => exact token.keep rfl rfl (fun _ => id)
      | some q =>
        have set : Token (t.setStatus q {(t.pool q).status with run:=false,lastPermit:=true}) := token.setStatus q (token.prepare q)
        exact set.keep rfl rfl (fun _ => id)
    · exact token.finish node
end

theorem Token.works (token : Token t) (works : t.Works ret pops drops u) : Token u := by
  cases works with
  | stay => exact token
  | renew rest => exact token.keep rfl rfl (fun _ => id)
  | @handle node queue rest front free =>
    have popped : Token {t with ops:=queue} := token.keep rfl rfl (fun _ => id)
    exact popped.handle node
  | close task => exact token.finish _
  | @register node q queue task none_held front popped =>
    have cnt := token.cnt
    have zero : t.cnt = 0 := by
      split at cnt
      · omega
      · exact cnt
    constructor
    · change t.cnt + 1 = 1
      rw [zero]
      rfl
    · intro req
      change (((t.takeWait q queue).setStatus q {((t.takeWait q queue).pool q).status with
        run := true,prepare := false}).pool req).status.prepare = false
      rw [setStatus_status]
      split
      · rfl
      · rename_i away
        have others : ((t.takeWait q queue).pool req).status = (t.pool req).status :=
          (setStatus_status t req q _).trans (if_neg away)
        rw [others]
        exact token.prepare req
  | acquire task kept => exact token.finish _
  | refuse task failed dropped => exact token.release _
  | @aborted node q task =>
    have back : Token (t.idle q) := (token.setStatus q rfl).keep rfl rfl (fun _ => id)
    exact back.finish node
  | ended task => exact token.release _

theorem Fate.to (fate : Fate pops drops req a b) (eq : c = b) : Fate pops drops req a c := by
  rw [eq]
  exact fate

theorem seat_calm (out : t.task.out req = 0) (last : t.task.last (t.holdsCur req) = 0) :
    {t.seat req with out:=0,last:=0} = t.seat req := by
  simp [seat,out,last]

theorem finish_fate (out : t.task.out req = 0) (last : t.task.last (t.holdsCur req) = 0) (node : OpNode) :
    Fate pops drops req (t.seat req) ((t.finish node).seat req) := by
  apply Fate.to .same
  rw [seat_finish,seat_calm out last]

theorem release_none (none_held : t.cur = none) : t.release = t := by
  unfold release
  rw [none_held]

theorem release_fate (out : t.task.out req = 0) (last : t.task.last (t.holdsCur req) = 0) (dropped : drops = t.cur)
    (node : OpNode) :
    Fate pops drops req (t.seat req) ((t.release.goto (.process node)).seat req) := by
  cases holds : t.cur with
  | none =>
    apply Fate.to .same
    rw [release_none holds,seat_goto]
    exact seat_calm out last
  | some q =>
    rw [seat_release t req q holds]
    by_cases own : req = q
    · subst own
      have cur : (t.seat req).cur = 1 := by simp [seat,holdsCur,holds]
      apply Fate.to (Fate.dropped (dropped.trans holds) cur last)
      simp [seat,out,last]
    · apply Fate.to .same
      rw [if_neg own]
      exact seat_calm out last

theorem ended_fate (task : t.task = .abortCurrent node) :
    Fate pops drops req (t.seat req) ((t.release.goto (.process node)).seat req) := by
  have out : t.task.out req = 0 := by rw [task]; rfl
  have last : t.task.last (t.holdsCur req) = t.holdsCur req := by rw [task]; rfl
  cases holds : t.cur with
  | none =>
    have away : t.holdsCur req = 0 := by simp [holdsCur,holds]
    apply Fate.to .same
    rw [release_none holds,seat_goto]
    exact seat_calm out (last.trans away)
  | some q =>
    rw [seat_release t req q holds]
    by_cases own : req = q
    · subst own
      have cur : (t.seat req).cur = 1 := by simp [seat,holdsCur,holds]
      have inLast : (t.seat req).last = 1 := last.trans cur
      apply Fate.to (Fate.abortedCurrent inLast cur)
      simp [seat,out]
    · have away : t.holdsCur req = 0 := by simp [holdsCur,holds,Ne.symm own]
      apply Fate.to .same
      rw [if_neg own]
      exact seat_calm out (last.trans away)

theorem aborted_fate (task : t.task = .abortWaiting node q) :
    Fate pops drops req (t.seat req) (((t.idle q).finish node).seat req) := by
  have last : t.task.last (t.holdsCur req) = 0 := by rw [task]; rfl
  rw [seat_finish,seat_idle]
  by_cases own : req = q
  · subst own
    have out : (t.seat req).out = 1 := by simp [seat,task]
    apply Fate.to (Fate.abortedWaiting out)
    simp [seat,last]
  · have out : t.task.out req = 0 := by rw [task]; exact if_neg (Ne.symm own)
    apply Fate.to .same
    rw [if_neg own]
    exact seat_calm out last

theorem register_fate (task : t.task = .process node) (free : t.cur = none) (front : t.waitQ = q :: queue)
    (popped : pops = some q) :
    Fate pops drops req (t.seat req) (((t.takeWait q queue).register q node).seat req) := by
  have out : t.task.out req = 0 := by rw [task]; rfl
  have last : t.task.last (t.holdsCur req) = 0 := by rw [task]; rfl
  have seat : ((t.takeWait q queue).register q node).seat req =
      {((t.setStatus q {(t.pool q).status with prepare:=true,enq:=false}).setStatus q
        {((t.takeWait q queue).pool q).status with run:=true,prepare:=false}).seat req with
        wait := queue.count req
        cur := if some q = some req then 1 else 0
        out := 0
        last := 0} := rfl
  have away : t.holdsCur req = 0 := by simp [Tok.holdsCur,free]
  rw [seat,Tok.setStatus_setStatus,seat_setStatus]
  by_cases own : req = q
  · subst own
    have waits : 1 ≤ (t.seat req).wait := by simp [Tok.seat,front]
    apply Fate.to (Fate.acquired popped waits away)
    simp [Tok.seat,Tok.takeWait,Tok.setStatus,Tok.setReq,front,out,last]
  · apply Fate.to .same
    simp [own,Ne.symm own,Tok.seat,front,task,away]

section
variable (front : t.ops = node :: queue) (once : node ≠ .renew → t.ops.count node ≤ 1) (req : Nat)
include front once

theorem popped_due :
    ({t with ops:=queue} : Tok).cancelDue req = if node = .free req then 0 else t.cancelDue req := by
  unfold cancelDue
  rw [front] at once
  rw [front]
  by_cases own : node = .free req
  · subst own
    have gone : OpNode.free req ∉ queue := by
      intro member
      have more := count_pos_iff.mpr member
      have single := once nofun
      rw [count_cons_self] at single
      omega
    simp [gone]
  · have others : OpNode.free req ∈ node :: queue ↔ OpNode.free req ∈ queue := by simp [Ne.symm own]
    rw [if_neg own]
    exact if_congr (and_congr others.symm Iff.rfl) rfl rfl

theorem seat_popped :
    ({t with ops:=queue} : Tok).seat req = {t.seat req with due:=if node = .free req then 0 else (t.seat req).due} := by
  have due := popped_due front once req
  unfold seat
  rw [due]
  rfl
end

def Tok.dropWaiting (t : Tok) (q : Nat) (node : OpNode) : Tok :=
  ({t with waitQ:=t.waitQ.erase q}.abort q).goto (.abortWaiting node q)

def Tok.dropCurrent (t : Tok) (q : Nat) (node : OpNode) : Tok :=
  ((t.setStatus q {(t.pool q).status with run:=false,lastPermit:=true}).abort q).goto (.abortCurrent node)

inductive Dropping (t : Tok) (q : Nat) : Tok → Prop where
  | outside (beyond : maxCmdReqNum ≤ q) : Dropping t q (t.finish (.free q))
  | gone (enq : (t.pool q).status.enq = false) (run : (t.pool q).status.run = false) : Dropping t q (t.finish (.free q))
  | waiting (enq : (t.pool q).status.enq) : Dropping t q (t.dropWaiting q (.free q))
  | lost (run : (t.pool q).status.run) (cur : t.cur = none) : Dropping t q (t.goto (.process (.free q)))
  | current (run : (t.pool q).status.run) (cur : t.cur = some c) : Dropping t q (t.dropCurrent c (.free q))

theorem handle_dropping (type : (t.info (.free q)).type = .cancelCmdReq) (data : (t.info (.free q)).data = q) :
    Dropping t q (t.handle (.free q)) := by
  unfold handle
  dsimp only
  rw [type,data]
  dsimp only
  split
  · rename_i beyond
    exact .outside beyond
  split
  · rename_i enq
    exact .waiting enq
  split
  · rename_i run
    cases cur : t.cur with
    | none => exact .lost run cur
    | some c => exact .current run cur
  · rename_i enq run
    exact .gone (by simpa using enq) (by simpa using run)

section
variable (rest : t.task = .rest)
include rest

theorem seat_dropWaiting (node : OpNode) (req : Nat) : (t.dropWaiting q node).seat req =
    if req = q then {t.seat req with wait:=(t.seat req).wait - 1,out:=1,aborts:=(t.seat req).aborts + 1} else t.seat req := by
  have seat : (t.dropWaiting q node).seat req =
      {t.seat req with
        wait := (t.waitQ.erase q).count req
        out := if q = req then 1 else 0
        last := 0
        aborts := Function.update t.aborts q (t.aborts q + 1) req} := rfl
  rw [seat]
  by_cases own : req = q
  · subst own
    simp [Tok.seat,rest]
  · have counts : (t.waitQ.erase q).count req = t.waitQ.count req := count_erase_of_ne own
    simp [Tok.seat,rest,own,Ne.symm own,counts]

theorem seat_dropCurrent (cur : t.cur = some q) (node : OpNode) (req : Nat) :
    (t.dropCurrent q node).seat req =
    if req = q then {t.seat req with run:=0,last:=1,aborts:=(t.seat req).aborts + 1} else t.seat req := by
  have seat : (t.dropCurrent q node).seat req =
      {(t.setStatus q {(t.pool q).status with run:=false,lastPermit:=true}).seat req with
        out := 0
        last := t.holdsCur req
        aborts := Function.update t.aborts q (t.aborts q + 1) req} := rfl
  rw [seat,seat_setStatus]
  by_cases own : req = q
  · subst own
    simp [Tok.seat,rest,Tok.holdsCur,cur]
  · simp [Tok.seat,rest,Tok.holdsCur,cur,own,Ne.symm own]

theorem cancel_fate (step : Dropping t q u) (due : a.due = 1) (popped : t.seat q = {a with due:=0})
    (outside : maxCmdReqNum ≤ q → a.enq = 0 ∧ a.run = 0) (running : a.run = 1 → t.cur = some q) :
    Fate pops drops q a (u.seat q) := by
  have out : t.task.out q = 0 := by rw [rest]; rfl
  have last : t.task.last (t.holdsCur q) = 0 := by rw [rest]; rfl
  have enqs : (t.pool q).status.enq.toNat = a.enq := congrArg Seat.enq popped
  have runs : (t.pool q).status.run.toNat = a.run := congrArg Seat.run popped
  have outs : t.task.out q = a.out := congrArg Seat.out popped
  have lasts : t.task.last (t.holdsCur q) = a.last := congrArg Seat.last popped
  have missed (enq : a.enq = 0) (run : a.run = 0) : Fate pops drops q a ((t.finish (.free q)).seat q) := by
    apply Fate.to (Fate.missed enq run)
    rw [seat_finish,seat_calm out last,popped]
  cases step with
  | outside beyond =>
    obtain ⟨enq,run⟩ := outside beyond
    exact missed enq run
  | gone enq run =>
    rw [enq] at enqs
    rw [run] at runs
    exact missed enqs.symm runs.symm
  | waiting enq =>
    rw [enq] at enqs
    apply Fate.to (Fate.canceledWaiting enqs.symm due (outs.symm.trans out))
    rw [seat_dropWaiting rest,if_pos rfl,popped]
  | lost run cur =>
    rw [run] at runs
    rw [running runs.symm] at cur
    cases cur
  | @current c run cur =>
    rw [run] at runs
    rw [running runs.symm] at cur
    cases cur
    apply Fate.to (Fate.canceledCurrent runs.symm due (lasts.symm.trans last))
    rw [seat_dropCurrent rest (running runs.symm),if_pos rfl,popped]

theorem cancel_others (step : Dropping t q u) (running : (t.pool q).status.run → t.cur = some q)
    (other : req ≠ q) : u.seat req = t.seat req := by
  have out : t.task.out req = 0 := by rw [rest]; rfl
  have last : t.task.last (t.holdsCur req) = 0 := by rw [rest]; rfl
  cases step with
  | outside beyond => rw [seat_finish,seat_calm out last]
  | gone enq run => rw [seat_finish,seat_calm out last]
  | waiting enq => rw [seat_dropWaiting rest,if_neg other]
  | lost run cur =>
    rw [running run] at cur
    cases cur
  | @current c run cur =>
    have same : c = q := by simpa [running run] using cur.symm
    subst same
    rw [seat_dropCurrent rest cur,if_neg other]
end

theorem fair_running (fair : Fair (t.seat q) (k q)) (run : (t.seat q).run = 1) : t.cur = some q := by
  have one := fair.run
  have place := fair.place
  have inside := fair.inside
  have cur : (t.seat q).cur = 1 := by omega
  by_contra away
  have none : (t.seat q).cur = 0 := if_neg away
  omega

structure Popped (t v : Tok) (node : OpNode) : Prop where
  rest : v.task = .rest
  pool : v.pool = t.pool
  cur : v.cur = t.cur
  info : v.info = t.info
  seat : ∀ req, v.seat req = {t.seat req with due:=if node = .free req then 0 else (t.seat req).due}

theorem Popped.other (popped : Popped t v node) (away : node ≠ .free req) : v.seat req = t.seat req := by
  rw [popped.seat,if_neg away]

theorem Popped.out (popped : Popped t v node) (req : Nat) : v.task.out req = 0 := by
  rw [popped.rest]
  rfl

theorem Popped.last (popped : Popped t v node) (req : Nat) : v.task.last (v.holdsCur req) = 0 := by
  rw [popped.rest]
  rfl

theorem added_fate (popped : Popped t v (.add q)) (type : (t.info (.add q)).type = .addCmdReq) (req : Nat) :
    Fate pops drops req (t.seat req) ((v.handle (.add q)).seat req) := by
  have handled : v.handle (.add q) = v.goto (.process (.add q)) := by
    unfold handle
    dsimp only
    rw [popped.info,type]
  apply Fate.to .same
  rw [handled,seat_goto,← popped.other (OpNode.noConfusion : OpNode.add q ≠ .free req)]
  exact seat_calm (popped.out req) (popped.last req)

theorem freed_fate (popped : Popped t v (.free q)) (type : (t.info (.free q)).type = .freeCmdReq)
    (data : (t.info (.free q)).data = q) (free : t.Frees (.free q) → drops = t.cur) (req : Nat) :
    Fate pops drops req (t.seat req) ((v.handle (.free q)).seat req) := by
  have notDue : (t.seat q).due = 0 := if_neg fun due => by rw [type] at due; cases due.2
  have same : v.seat req = t.seat req := by
    by_cases own : OpNode.free q = .free req
    · cases own
      rw [popped.seat,if_pos rfl,← notDue]
    · exact popped.other own
  have handled : v.handle (.free q) =
      if maxCmdReqNum ≤ q || !(t.pool q).status.run then v.finish (.free q) else v.release.goto (.process (.free q)) := by
    unfold handle
    dsimp only
    rw [popped.info,popped.pool,type,data]
  rw [handled,← same]
  split
  · exact finish_fate (popped.out req) (popped.last req) _
  · rename_i freed
    have parts : q < maxCmdReqNum ∧ (t.pool q).status.run := by simpa using freed
    have frees : t.Frees (.free q) := ⟨type,by rw [data]; exact parts.1,by rw [data]; exact parts.2⟩
    exact release_fate (popped.out req) (popped.last req) ((free frees).trans popped.cur.symm) _

theorem dropped_fate (popped : Popped t v (.free q)) (queued : .free q ∈ t.ops)
    (type : (t.info (.free q)).type = .cancelCmdReq) (data : (t.info (.free q)).data = q) (fair : Fair (t.seat q) (k q))
    (size : maxCmdReqNum ≤ q → (k q).inside = 0) (req : Nat) : Fate pops drops req (t.seat req) ((v.handle (.free q)).seat req) := by
  have step : Dropping v q (v.handle (.free q)) := by
    apply handle_dropping
    · rw [popped.info,type]
    · rw [popped.info,data]
  by_cases own : req = q
  · subst own
    apply cancel_fate popped.rest step (if_pos ⟨queued,type⟩)
    · rw [popped.seat,if_pos rfl]
    · intro beyond
      have none := size beyond
      have place := fair.place
      have enq := fair.enq
      have run := fair.run
      omega
    · rw [popped.cur]
      exact fair_running fair
  · have running : (v.pool q).status.run → v.cur = some q := by
      rw [popped.pool,popped.cur]
      intro run
      exact fair_running fair (congrArg Bool.toNat run)
    have away : OpNode.free q ≠ .free req := fun eq => own (OpNode.free.inj eq).symm
    apply Fate.to .same
    rw [cancel_others popped.rest step running own,popped.other away]

theorem handle_fate (ops : OpsInv t calls life stamp) (fair : ∀ req, Fair (t.seat req) (k req))
    (size : ∀ req, maxCmdReqNum ≤ req → (k req).inside = 0) (rest : t.task = .rest) (front : t.ops = node :: queue)
    (free : t.Frees node → drops = t.cur) (req : Nat) :
    Fate pops drops req (t.seat req) (({t with ops:=queue}.handle node).seat req) := by
  have queued : node ∈ t.ops := by rw [front]; exact mem_cons_self
  have once (other : node ≠ .renew) : t.ops.count node ≤ 1 := by
    have share := ops.share node other
    rw [if_pos (ops.used node other queued)] at share
    omega
  have popped : Popped t {t with ops:=queue} node := ⟨rest,rfl,rfl,rfl,seat_popped front once⟩
  cases node with
  | renew =>
    apply Fate.to .same
    change (({t with ops:=queue} : Tok).goto (.process .renew)).seat req = _
    rw [seat_goto,← popped.other (OpNode.noConfusion : OpNode.renew ≠ .free req)]
    exact seat_calm (popped.out req) (popped.last req)
  | add q =>
    have type := (ops.owner (.add q) nofun (ops.used _ nofun queued)).1.2
    exact added_fate popped type req
  | free q =>
    obtain ⟨⟨data,kind⟩,_⟩ := ops.owner (.free q) nofun (ops.used _ nofun queued)
    rcases kind with type | type
    · exact freed_fate popped type data free req
    · exact dropped_fate popped queued type data (fair q) (size q) req

theorem works_fate (ops : OpsInv t calls life stamp) (token : Token t) (fair : ∀ req, Fair (t.seat req) (k req))
    (size : ∀ req, maxCmdReqNum ≤ req → (k req).inside = 0) (works : t.Works ret pops drops u) (req : Nat) :
    Fate pops drops req (t.seat req) (u.seat req) := by
  cases works with
  | stay => exact .same
  | renew rest =>
    apply Fate.to .same
    change (t.goto (.process .renew)).seat req = _
    rw [seat_goto]
    apply seat_calm <;> rw [rest] <;> rfl
  | handle rest front free => exact handle_fate ops fair size rest front free req
  | close task => apply finish_fate <;> rw [task] <;> rfl
  | register task none_held front popped =>
    apply register_fate task _ front popped
    by_contra held
    have cnt := token.cnt
    rw [if_pos (Option.isSome_iff_ne_none.mpr held)] at cnt
    omega
  | acquire task kept => apply finish_fate <;> rw [task] <;> rfl
  | refuse task failed dropped =>
    apply release_fate _ _ dropped
    · rw [task]
      rfl
    · rw [task]
      rfl
  | aborted task => exact aborted_fate task
  | ended task => exact ended_fate task
end works

-- What one step of a call does to its request.
section calls
variable {a : Seat} {k : Claim}

section
variable (fair : Fair a k)
include fair

theorem Fair.take (idle : 1 ≤ a.idle) (ends : k.ends = 0) :
    Fair {a with idle:=a.idle - 1,enq:=0,run:=0,due:=0} {k with taken:=k.taken+1,canceled:=0,base:=a.aborts} := by
  rw [fair_iff] at fair ⊢
  dsimp only
  and_intros <;> omega

theorem Fair.push (taken : 1 ≤ k.taken) :
    Fair {a with wait:=a.wait + 1} {k with taken:=k.taken - 1,pushed:=k.pushed + 1} := by
  rw [fair_iff] at fair ⊢
  dsimp only
  and_intros <;> omega

theorem Fair.mark (pushed : 1 ≤ k.pushed) : Fair {a with enq:=1} {k with pushed:=k.pushed - 1} := by
  rw [fair_iff] at fair ⊢
  dsimp only
  and_intros <;> omega

theorem Fair.check (alive : a.enq = 1 ∨ a.run = 1) : Fair a {k with ends:=k.ends + 1} := by
  rw [fair_iff] at fair ⊢
  dsimp only
  and_intros <;> omega

theorem Fair.leave : Fair a {k with ends:=k.ends - 1} := by
  rw [fair_iff] at fair ⊢
  dsimp only
  and_intros <;> omega

theorem Fair.tell (ends : 1 ≤ k.ends) : Fair {a with due:=1} {k with ends:=k.ends - 1,canceled:=1} := by
  rw [fair_iff] at fair ⊢
  dsimp only
  and_intros <;> omega
end
end calls

def stageN (calls : List TokenCall) (stage : CallStage) (req : Nat) : Nat :=
  calls.countP fun call => call.req = req ∧ call.stage = stage

def TokenSys.claim (s : TokenSys) (req : Nat) : Claim where
  taken := stageN s.calls .taken req
  pushed := stageN s.calls .pushed req
  ends := stageN s.calls (.ending .cancelCmdReq) req
  canceled := (s.canceled req).toNat
  base := s.base req
  inside := if req < maxCmdReqNum then 1 else 0

theorem stageN_enter (calls : List TokenCall) (call : TokenCall) (stage : CallStage) (req : Nat) :
    stageN (calls ++ [call]) stage req = stageN calls stage req + if call.req = req ∧ call.stage = stage then 1 else 0 := by
  simp [stageN,countP_append]

theorem stageN_leave {calls : List TokenCall} {call : TokenCall} (there : calls[j]? = some call) (stage : CallStage) (req : Nat) :
    stageN calls stage req = stageN (calls.eraseIdx j) stage req + if call.req = req ∧ call.stage = stage then 1 else 0 := by
  obtain ⟨short,this⟩ := List.getElem?_eq_some_iff.mp there
  have perm := getElem_cons_eraseIdx_perm short
  rw [this] at perm
  have counts := perm.countP_eq fun call : TokenCall => decide (call.req = req ∧ call.stage = stage)
  unfold stageN
  rw [← counts,countP_cons]
  simp

theorem stageN_gone {calls : List TokenCall} {call : TokenCall} (there : calls[j]? = some call) (stage : CallStage) (req : Nat) :
    stageN (calls.eraseIdx j) stage req = stageN calls stage req - if call.req = req ∧ call.stage = stage then 1 else 0 := by
  have left := stageN_leave there stage req
  omega

theorem stageN_there {calls : List TokenCall} {call : TokenCall} {j : Nat} (there : calls[j]? = some call) (at_ : call.stage = stage) :
    1 ≤ stageN calls stage call.req := by
  have left := stageN_leave there stage call.req
  rw [if_pos ⟨rfl,at_⟩] at left
  omega

theorem stageN_zero {calls : List TokenCall} (none : ∀ call ∈ calls, call.req = req → call.stage ≠ stage) :
    stageN calls stage req = 0 := by
  apply countP_eq_zero.mpr
  intro call member both
  have parts : call.req = req ∧ call.stage = stage := by simpa using both
  exact none call member parts.1 parts.2

structure TokenSys.Held (s : TokenSys) : Prop where
  ops : s.OpsKept
  token : Token (tok s.dispr)
  fair : ∀ req, Fair ((tok s.dispr).seat req) (s.claim req)

structure Undue (s : TokenSys) (req : Nat) : Prop where
  queued : ¬ ((s.dispr.tokenReqExPool req).freeReqInfo.used ∧ (s.dispr.tokenReqExPool req).freeReqInfo.type = .cancelCmdReq)
  calls : ∀ call ∈ s.calls, call.req = req → call.stage ≠ .ending .cancelCmdReq

instance (s : TokenSys) (req : Nat) : Decidable (Undue s req) :=
  decidable_of_iff (¬ ((s.dispr.tokenReqExPool req).freeReqInfo.used ∧
      (s.dispr.tokenReqExPool req).freeReqInfo.type = .cancelCmdReq) ∧
      ∀ call ∈ s.calls, call.req = req → call.stage ≠ .ending .cancelCmdReq)
    ⟨fun ⟨queued,calls⟩ => ⟨queued,calls⟩,fun undue => ⟨undue.queued,undue.calls⟩⟩

-- The thread takes no request whose `REQ_STATUS_ENQ` is still to be set, and returns
-- none to the idle queue unasked that is being canceled.
def Orderly (s : TokenSys) : TokenEvent → Prop
  | .thread ret => (∀ req ∈ popsWait s.dispr, ∀ call ∈ s.calls, call.req = req → call.stage ≠ .pushed) ∧
      ∀ req ∈ drops s.dispr ret, Undue s req
  | .call call => AddsSpare s (.call call)
  | .go _ => True

instance (s : TokenSys) : (event : TokenEvent) → Decidable (Orderly s event)
  | .thread ret => inferInstanceAs (Decidable (_ ∧ ∀ req ∈ drops s.dispr ret, Undue s req))
  | .call call => inferInstanceAs (Decidable (AddsSpare s (.call call)))
  | .go _ => isTrue trivial

section held
variable {s : TokenSys}

theorem TokenSys.Held.queued (held : s.Held) (due : ((tok s.dispr).seat req).due ≠ 0) :
    (s.dispr.tokenReqExPool req).freeReqInfo.used ∧ (s.dispr.tokenReqExPool req).freeReqInfo.type = .cancelCmdReq := by
  have both : .free req ∈ (tok s.dispr).ops ∧ ((tok s.dispr).info (.free req)).type = .cancelCmdReq := by
    by_contra neither
    exact due (if_neg neither)
  exact ⟨held.ops.ops.used (.free req) nofun both.1,both.2⟩

theorem TokenSys.Held.same (held : s.Held) (same : SameToken s.dispr d) : {s with dispr:=d}.Held := by
  refine ⟨held.ops.same same,?_,?_⟩
  · change Token (tok d)
    rw [same.tok]
    exact held.token
  · intro req
    change Fair ((tok d).seat req) (s.claim req)
    rw [same.tok]
    exact held.fair req

theorem TokenSys.Held.thread (held : s.Held) (ret : MdlRet) (orderly : Orderly s (.thread ret)) :
    {s with dispr:=threadStep s.dispr ret}.Held := by
  obtain ⟨works,quiet⟩ := thread_works held.ops.quiet ret
  refine ⟨⟨held.ops.ops.works works,quiet⟩,held.token.works works,?_⟩
  intro req
  have size : ∀ req, maxCmdReqNum ≤ req → (s.claim req).inside = 0 := fun req beyond => if_neg (Nat.not_lt.mpr beyond)
  have fate := works_fate held.ops.ops held.token held.fair size works req
  apply fate.fair (held.fair req)
  · intro popped
    exact stageN_zero (orderly.1 req popped)
  · intro dropped
    have undue := orderly.2 req dropped
    constructor
    · by_contra due
      exact undue.queued (held.queued due)
    · exact stageN_zero undue.calls

theorem take_status (t : Tok) (idx : Nat) (rest : List Nat) (req : CmdTokenReq) (r : Nat) :
    ((t.take idx rest req).pool r).status = if r = idx then {} else (t.pool r).status := by
  by_cases own : r = idx <;> simp [Tok.take,Tok.setReq,own]

theorem seat_take (t : Tok) (req : CmdTokenReq) (front : t.idleQ = idx :: rest) (unqueued : .free idx ∉ t.ops) (r : Nat) :
    (t.take idx rest req).seat r =
      if r = idx then {t.seat r with idle:=(t.seat r).idle - 1,enq:=0,run:=0,due:=0} else t.seat r := by
  have seat : (t.take idx rest req).seat r = {t.seat r with
      idle := rest.count r
      enq := ((t.take idx rest req).pool r).status.enq.toNat
      run := ((t.take idx rest req).pool r).status.run.toNat
      due := (t.take idx rest req).cancelDue r} := rfl
  rw [seat,take_status]
  by_cases own : r = idx
  · subst own
    have due : (t.take r rest req).cancelDue r = 0 := if_neg fun both => unqueued both.1
    rw [due]
    simp [Tok.seat,front]
  · have info : (t.take idx rest req).info (.free r) = t.info (.free r) :=
      (take_info t idx rest req (n := .free r) nofun).trans (if_neg own)
    have due : (t.take idx rest req).cancelDue r = t.cancelDue r := by
      unfold Tok.cancelDue
      rw [info]
      rfl
    rw [due]
    simp [Tok.seat,front,own,Ne.symm own]

theorem TokenSys.Held.add (held : s.Held) (req : CmdTokenReq) (spare : ∀ idx ∈ popsIdle s.dispr req, Spare s idx) :
    (s.addTokenReq req).Held := by
  have kept := held.ops.add req spare
  have step := addTokenReq_taken s req
  generalize s.addTokenReq req = t at step kept
  cases step with
  | refused => exact held
  | @taken idx rest d pops front view quiet =>
    have fit := spare idx pops
    have unqueued : .free idx ∉ (tok s.dispr).ops := by
      intro member
      have used : (s.dispr.tokenReqExPool idx).freeReqInfo.used := held.ops.ops.used (.free idx) nofun member
      rw [fit.free] at used
      cases used
    refine ⟨kept,?_,?_⟩
    · change Token (tok d)
      rw [view]
      have stays (r : Nat) (set : (((tok s.dispr).take idx rest req).pool r).status.prepare) :
          ((tok s.dispr).pool r).status.prepare := by
        rw [take_status] at set
        by_cases own : r = idx
        · simp [own] at set
        · simpa [own] using set
      exact held.token.keep rfl rfl stays
    · intro r
      change Fair ((tok d).seat r) _
      rw [view,seat_take (tok s.dispr) req front unqueued]
      have fair := held.fair r
      by_cases own : r = idx
      · subst own
        have waits : 1 ≤ ((tok s.dispr).seat r).idle := by
          have queue : (tok s.dispr).idleQ = r :: rest := front
          simp [seat,queue]
        have ends : (s.claim r).ends = 0 := stageN_zero fun call member eq => absurd eq (fit.calls call member)
        have next := fair.take waits ends
        rw [if_pos rfl]
        simpa [TokenSys.claim,stageN_enter,seat,tok] using next
      · rw [if_neg own]
        simpa [TokenSys.claim,stageN_enter,own,Ne.symm own] using fair

theorem TokenSys.Held.ended (held : s.Held) (ending : type = .freeCmdReq ∨ type = .cancelCmdReq)
    (alive : ((tok s.dispr).seat req).enq = 1 ∨ ((tok s.dispr).seat req).run = 1) : (s.endTokenReq req type).Held := by
  have token : Token (tok (setCancel s.dispr req)) := held.token.setStatus req (held.token.prepare req)
  have seats (r : Nat) : (tok (setCancel s.dispr req)).seat r = (tok s.dispr).seat r := by
    rw [tok_setCancel,seat_setStatus]
    split
    · rename_i own
      rw [own]
      rfl
    · rfl
  refine ⟨held.ops.ended req ending,token,?_⟩
  intro r
  change Fair ((tok (setCancel s.dispr req)).seat r) _
  rw [seats]
  by_cases own : r = req ∧ type = .cancelCmdReq
  · obtain ⟨rfl,rfl⟩ := own
    have next := (held.fair r).check alive
    simpa [TokenSys.claim,TokenSys.endTokenReq,stageN_enter] using next
  · have away : ¬ (req = r ∧ type = .cancelCmdReq) := fun both => own ⟨both.1.symm,both.2⟩
    simpa [TokenSys.claim,TokenSys.endTokenReq,stageN_enter,away] using held.fair r

theorem TokenSys.Held.waits (held : s.Held) (there : s.calls[j]? = some call) (stage : call.stage = .taken)
    (kept : ({s with dispr:=pushWaitReq s.dispr call.req,calls:=s.calls.eraseIdx j ++ [{call with stage:=.pushed}]} :
      TokenSys).OpsKept) :
    ({s with dispr:=pushWaitReq s.dispr call.req,calls:=s.calls.eraseIdx j ++ [{call with stage:=.pushed}]} : TokenSys).Held := by
  refine ⟨kept,held.token.keep rfl rfl (fun _ => id),?_⟩
  intro r
  have seat : (tok (pushWaitReq s.dispr call.req)).seat r =
      {(tok s.dispr).seat r with wait:=(s.dispr.tokenReqWaitQ ++ [call.req]).count r} := rfl
  have fair := held.fair r
  change Fair ((tok (pushWaitReq s.dispr call.req)).seat r) _
  rw [seat,count_append,count_singleton]
  by_cases own : call.req = r
  · subst own
    have next := fair.push (stageN_there there stage)
    simpa [TokenSys.claim,stageN_enter,stageN_gone there,stage,Tok.seat,tok] using next
  · simpa [TokenSys.claim,stageN_enter,stageN_gone there,own,Tok.seat,tok] using fair

theorem TokenSys.Held.marks (held : s.Held) (there : s.calls[j]? = some call) (stage : call.stage = .pushed)
    (kept : ({s with dispr:=setEnq s.dispr call.req,calls:=s.calls.eraseIdx j ++ [{call with stage:=.marked}]} :
      TokenSys).OpsKept) :
    ({s with dispr:=setEnq s.dispr call.req,calls:=s.calls.eraseIdx j ++ [{call with stage:=.marked}]} : TokenSys).Held := by
  have token : Token (tok (setEnq s.dispr call.req)) := held.token.setStatus call.req (held.token.prepare call.req)
  refine ⟨kept,token,?_⟩
  intro r
  have fair := held.fair r
  change Fair ((tok (setEnq s.dispr call.req)).seat r) _
  rw [tok_setEnq,seat_setStatus]
  by_cases own : call.req = r
  · subst own
    have next := fair.mark (stageN_there there stage)
    simpa [TokenSys.claim,stageN_enter,stageN_gone there,stage,seat,tok] using next
  · simpa [TokenSys.claim,stageN_enter,stageN_gone there,own,Ne.symm own,seat,tok] using fair

theorem link_status (t : Tok) (node : OpNode) (type : OpType) (data r : Nat) :
    ((t.link node type data).pool r).status = (t.pool r).status := by
  cases node with
  | add own => by_cases same : r = own <;> simp [link,setInfo,setReq,same]
  | free own => by_cases same : r = own <;> simp [link,setInfo,setReq,same]
  | renew => rfl

theorem Token.link (token : Token t) (node : OpNode) (type : OpType) (data : Nat) : Token (t.link node type data) := by
  apply token.keep
  · cases node <;> rfl
  · cases node <;> rfl
  · intro req
    rw [link_status]
    exact id

theorem seat_link (t : Tok) (node : OpNode) (type : OpType) (data r : Nat) (other : node ≠ .renew) :
    (t.link node type data).seat r =
    if node = .free r then {t.seat r with due:=if type = .cancelCmdReq then 1 else 0} else t.seat r := by
  have seat : (t.link node type data).seat r = {t.seat r with
      enq := ((t.link node type data).pool r).status.enq.toNat
      run := ((t.link node type data).pool r).status.run.toNat
      due := (t.link node type data).cancelDue r} := by cases node <;> rfl
  have info : (t.link node type data).info (.free r) = if .free r = node then {used:=true,type,data} else t.info (.free r) :=
    setInfo_info t node _ other (.free r)
  have ops : (t.link node type data).ops = t.ops ++ [node] := rfl
  rw [seat,link_status]
  unfold Tok.cancelDue
  rw [info,ops]
  by_cases own : node = .free r
  · subst own
    simp [Tok.seat]
  · simp [Tok.seat,Tok.cancelDue,own,Ne.symm own]

section
variable (held : s.Held)
include held

theorem TokenSys.Held.added (there : s.calls[j]? = some call) (stage : call.stage = .marked)
    (kept : ({s with calls:=s.calls.eraseIdx j}.pushOp call (.add call.req) .addCmdReq).OpsKept) :
    ({s with calls:=s.calls.eraseIdx j}.pushOp call (.add call.req) .addCmdReq).Held := by
  have step := pushOp_pushed {s with calls:=s.calls.eraseIdx j} call (.add call.req) .addCmdReq nofun
  generalize ({s with calls:=s.calls.eraseIdx j} : TokenSys).pushOp call (.add call.req) .addCmdReq = t at step kept
  cases step with
  | refused used =>
    refine ⟨kept,held.token,?_⟩
    intro r
    simpa [TokenSys.claim,stageN_gone there,stage] using held.fair r
  | @pushed d unused view quiet =>
    refine ⟨kept,?_,?_⟩
    · change Token (tok d)
      rw [view]
      exact held.token.link _ _ _
    · intro r
      change Fair ((tok d).seat r) _
      rw [view,seat_link _ (.add call.req) _ _ _ nofun,if_neg (by nofun)]
      simpa [TokenSys.claim,stageN_gone there,stage] using held.fair r

theorem TokenSys.Held.told (there : s.calls[j]? = some call) (stage : call.stage = .ending type)
    (kept : ({s with calls:=s.calls.eraseIdx j}.pushOp call (.free call.req) type).OpsKept) :
    ({s with calls:=s.calls.eraseIdx j}.pushOp call (.free call.req) type).Held := by
  have present := held.ops.ops.present call (mem_of_getElem? there)
  have step := pushOp_pushed {s with calls:=s.calls.eraseIdx j} call (.free call.req) type nofun
  generalize ({s with calls:=s.calls.eraseIdx j} : TokenSys).pushOp call (.free call.req) type = t at step kept
  cases step with
  | refused used =>
    refine ⟨kept,held.token,?_⟩
    intro r
    by_cases hit : call.req = r ∧ type = .cancelCmdReq
    · obtain ⟨rfl,cancel⟩ := hit
      have next := (held.fair call.req).leave
      simpa [TokenSys.claim,stageN_gone there,stage,cancel] using next
    · simpa [TokenSys.claim,stageN_gone there,stage,hit] using held.fair r
  | @pushed d unused view quiet =>
    refine ⟨kept,?_,?_⟩
    · change Token (tok d)
      rw [view]
      exact held.token.link _ _ _
    · intro r
      change Fair ((tok d).seat r) _
      rw [view,seat_link _ (.free call.req) _ _ _ nofun]
      by_cases hit : call.req = r
      · subst hit
        rw [if_pos rfl]
        by_cases cancel : type = .cancelCmdReq
        · have next := (held.fair call.req).tell (stageN_there there (stage.trans (by rw [cancel])))
          simpa [TokenSys.claim,stageN_gone there,stage,cancel,present] using next
        · have notDue : ((tok s.dispr).seat call.req).due = 0 := by
            by_contra due
            have used : ((tok s.dispr).info (.free call.req)).used := (held.queued due).1
            rw [used] at unused
            cases unused
          have same : {(tok s.dispr).seat call.req with due:=0} = (tok s.dispr).seat call.req := by rw [← notDue]
          rw [if_neg cancel,same]
          simpa [TokenSys.claim,stageN_gone there,stage,cancel] using held.fair call.req
      · have away : OpNode.free call.req ≠ .free r := fun eq => hit (OpNode.free.inj eq)
        rw [if_neg away]
        by_cases cancel : type = .cancelCmdReq
        · simpa [TokenSys.claim,stageN_gone there,cancel,present,hit,Ne.symm hit] using held.fair r
        · simpa [TokenSys.claim,stageN_gone there,cancel,hit] using held.fair r

theorem TokenSys.Held.go (j : Nat) : (tokenStep s (.go j)).Held := by
  have kept := opsKept_step held.ops (.go j) trivial
  rcases go_cases s j with stays | ⟨call,there,goes⟩
  · rw [stays]
    exact held
  · rw [goes] at kept ⊢
    unfold TokenSys.proceed at kept ⊢
    cases stage : call.stage with
    | taken =>
      rw [stage] at kept
      exact held.waits there stage kept
    | pushed =>
      rw [stage] at kept
      exact held.marks there stage kept
    | marked =>
      rw [stage] at kept
      exact held.added there stage kept
    | ending type =>
      rw [stage] at kept
      exact held.told there stage kept

theorem TokenSys.Held.cancel (hdl : BitVec 32) : (tokenStep s (.call (.cancelTokenReq hdl))).Held := by
  change (if cancelChecked s.dispr hdl then s.endTokenReq (getIdxFromHdl hdl) .cancelCmdReq else s).Held
  split
  · rename_i checked
    apply held.ended (.inr rfl)
    have prepare : (s.dispr.tokenReqExPool (getIdxFromHdl hdl)).status.prepare = false := held.token.prepare _
    have flags : (s.dispr.tokenReqExPool (getIdxFromHdl hdl)).status.enq ∨
        (s.dispr.tokenReqExPool (getIdxFromHdl hdl)).status.run := by
      simp only [cancelChecked,prepare,Bool.and_eq_true,Bool.or_eq_true,Bool.false_eq_true,or_false] at checked
      exact checked.2
    cases flags with
    | inl enq => exact .inl (congrArg Bool.toNat enq)
    | inr run => exact .inr (congrArg Bool.toNat run)
  · exact held

theorem TokenSys.Held.free (hdl : BitVec 32) : (tokenStep s (.call (.freeToken hdl))).Held := by
  change (if freeChecked s.dispr hdl then s.endTokenReq (getIdxFromHdl hdl) .freeCmdReq else s).Held
  split
  · rename_i checked
    apply held.ended (.inl rfl)
    have prepare : (s.dispr.tokenReqExPool (getIdxFromHdl hdl)).status.prepare = false := held.token.prepare _
    have run : (s.dispr.tokenReqExPool (getIdxFromHdl hdl)).status.run := by
      simp only [freeChecked,prepare,Bool.and_eq_true,Bool.or_eq_true,Bool.false_eq_true,or_false] at checked
      exact checked.2
    exact .inr (congrArg Bool.toNat run)
  · exact held

theorem held_step (event : TokenEvent) (orderly : Orderly s event) : (tokenStep s event).Held := by
  cases event with
  | thread ret => exact held.thread ret orderly
  | go k => exact held.go k
  | call call =>
    cases call with
    | addTokenReq req => exact held.add req orderly
    | cancelTokenReq hdl => exact held.cancel hdl
    | freeToken hdl => exact held.free hdl
    | send msg attr => exact held.same (sameToken_send s.dispr msg attr)
    | cancel hdl => exact held.same (sameToken_cancelMsg s.dispr hdl)
    | clrPending => exact held.same (sameToken_clrPending s.dispr)
    | cannotIo mdlId => exact held.same (sameToken_cannotIo s.dispr mdlId)
    | resumeIo => exact held.same (sameToken_resumeIo s.dispr)
    | shallStop => exact held.same (sameToken_shallStop s.dispr)
end

theorem fair_start (inside : n ≤ 1) : Fair ⟨n,0,0,0,0,0,0,0,0⟩ ⟨0,0,0,0,0,n⟩ := by
  constructor <;> try dsimp only
  all_goals omega

theorem held_start (moduleQ : Priority → List BkModule) (bitmap basemap : Bitmap) (ctrlPresent : Bool) :
    (tokenStart (disprStart moduleQ bitmap basemap ctrlPresent)).Held := by
  refine ⟨opsKept_start moduleQ bitmap basemap ctrlPresent,⟨rfl,fun _ => rfl⟩,?_⟩
  intro req
  have count : (range maxCmdReqNum).count req = if req < maxCmdReqNum then 1 else 0 := by
    rw [nodup_range.count]
    simp only [mem_range]
  have seat : (tok (disprStart moduleQ bitmap basemap ctrlPresent)).seat req =
      ⟨if req < maxCmdReqNum then 1 else 0,0,0,0,0,0,0,0,0⟩ := by
    rw [← count]
    rfl
  have claim : (tokenStart (disprStart moduleQ bitmap basemap ctrlPresent)).claim req =
      ⟨0,0,0,0,0,if req < maxCmdReqNum then 1 else 0⟩ := rfl
  change Fair ((tok (disprStart moduleQ bitmap basemap ctrlPresent)).seat req) _
  rw [seat,claim]
  apply fair_start
  split <;> decide

def places (s : TokenSys) (req : Nat) : Nat :=
  s.dispr.tokenReqIdleQ.count req + s.dispr.tokenReqWaitQ.count req + (if s.dispr.curCmdReq = some req then 1 else 0) +
    stageN s.calls .taken req + (taskOf s.dispr.pc).out req

structure TokenSound (s : TokenSys) : Prop where
  cnt : s.dispr.tokenCnt = if s.dispr.curCmdReq.isSome then 1 else 0
  alone : ∀ req, (s.dispr.tokenReqExPool req).status.run → s.dispr.curCmdReq = some req
  place : ∀ req < maxCmdReqNum, places s req = 1
  canceled : ∀ req, s.canceled req → s.aborts req = 1 ∨
    s.aborts req = 0 ∧ .free req ∈ s.dispr.tokenOpQ ∧ (s.dispr.tokenReqExPool req).freeReqInfo.type = .cancelCmdReq ∧
      (req ∈ s.dispr.tokenReqWaitQ ∨ s.dispr.curCmdReq = some req)
  others : ∀ req, s.canceled req = false → s.aborts req = 0

theorem TokenSys.Held.sound (held : s.Held) : TokenSound s := by
  have aborts (req : Nat) : s.aborts req = ((tok s.dispr).seat req).aborts - (s.claim req).base := rfl
  constructor
  · exact held.token.cnt
  · intro req run
    apply fair_running (held.fair req)
    exact congrArg Bool.toNat run
  · intro req inside
    have place := (held.fair req).place
    have one : (s.claim req).inside = 1 := if_pos inside
    rw [one] at place
    exact place
  · intro req canceled
    have fair := held.fair req
    have owed := fair.owed (congrArg Bool.toNat canceled)
    have low := fair.low
    have high := fair.high
    by_cases done : ((tok s.dispr).seat req).aborts = (s.claim req).base
    · obtain ⟨due,alive⟩ := owed done
      have queued : .free req ∈ (tok s.dispr).ops ∧ ((tok s.dispr).info (.free req)).type = .cancelCmdReq := by
        by_contra neither
        have none : ((tok s.dispr).seat req).due = 0 := if_neg neither
        omega
      refine .inr ⟨by rw [aborts]; omega,(mem_filter.mp queued.1).1,queued.2,?_⟩
      by_cases run : ((tok s.dispr).seat req).run = 1
      · exact .inr (fair_running fair run)
      · have waits : 0 < s.dispr.tokenReqWaitQ.count req := by
          change 0 < ((tok s.dispr).seat req).wait
          omega
        exact .inl (count_pos_iff.mp waits)
    · left
      rw [aborts]
      omega
  · intro req notCanceled
    have fair := held.fair req
    have aborted := fair.aborted
    have low := fair.low
    have high := fair.high
    have zero : (s.claim req).canceled = 0 := congrArg Bool.toNat notCanceled
    rw [aborts]
    omega

theorem token_mutual_exclusion (moduleQ : Priority → List BkModule) (bitmap basemap : Bitmap) (ctrlPresent : Bool)
    (reached : Reached tokenStep Orderly (tokenStart (disprStart moduleQ bitmap basemap ctrlPresent)) s) : TokenSound s := by
  have held : s.Held := reached.invariant TokenSys.Held (held_start moduleQ bitmap basemap ctrlPresent)
    (fun _ event held orderly => held_step held event orderly)
  exact held.sound
end held

def canceledTwo : List TokenEvent :=
  adds ++ adds ++ worked [.success,.success,.success,.success] ++ [.call (.cancelTokenReq (genValidHdl 0)),.go 0,
    .call (.cancelTokenReq (genValidHdl 1)),.go 0] ++ worked (List.replicate 10 .success)

theorem token_mutual_exclusion_canceled : TokenSound (run tokenStep bare canceledTwo) :=
  token_mutual_exclusion (fun _ => []) 0 0 false (Reached.start.run (by decide +kernel))

-- A request is canceled while it waits, and its `acquired` callback fails before the
-- cancel is handled: it is idle again, and no abort callback was called.
def canceledUnheard : List TokenEvent :=
  adds ++ [.call (.cancelTokenReq (genValidHdl 0)),.go 0] ++ worked [.success,.success,.success,.fail,.success,.success]

-- A request runs before the add that has put it in the wait queue sets `REQ_STATUS_ENQ`.
-- A cancel then takes it for one that waits.
def enqLate : List TokenEvent :=
  [.call (.addTokenReq ⟨phlFgMdlStart,true⟩),.go 0,.call (.addTokenReq ⟨phlFgMdlStart,true⟩),.go 1,.go 1,.go 1] ++
    worked [.success,.success,.success,.success] ++ [.go 0,.go 0,.call (.cancelTokenReq (genValidHdl 0)),.go 0] ++
    worked [.success,.success,.success,.success]

theorem token_mutual_exclusion_broken :
    ¬ TokenSound (run tokenStep bare canceledUnheard) ∧ ¬ TokenSound (run tokenStep bare enqLate) := by
  constructor
  · intro sound
    have canceled : (run tokenStep bare canceledUnheard).canceled 0 := by decide +kernel
    have aborts : (run tokenStep bare canceledUnheard).aborts 0 = 0 := by decide +kernel
    have drained : .free 0 ∉ (run tokenStep bare canceledUnheard).dispr.tokenOpQ := by decide +kernel
    rcases sound.canceled 0 canceled with one | ⟨_,queued,_⟩
    · omega
    · exact drained queued
  · intro sound
    have place := sound.place 0 (by decide)
    have twice : places (run tokenStep bare enqLate) 0 = 2 := by decide +kernel
    omega
end Rtl8852au.Dispr
