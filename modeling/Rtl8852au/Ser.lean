import Mathlib.Data.Finset.Erase
import Mathlib.Data.Finset.Insert
import Rtl8852au.Machine

namespace Rtl8852au.Ser
open Machine List

inductive SerStatus where
  | m1 | m2 | m3 | m4 | m5 | m9
  deriving DecidableEq

inductive DataCtlCmd where
  | swTxPause | hwTrxPause | swRxPause | swTxReset | swRxReset
  | hwTrxRstResume | swRxResume | swTxResume
  deriving DecidableEq

inductive Sts where
  | success | cmdTimeout | failure
  deriving DecidableEq

inductive Interval where
  | idl | act
  deriving DecidableEq

structure CmdSer where
  state : Finset SerStatus
  pollCnt : Nat
  pollTimer : Option Interval
  bserl2 : Bool
  serL2Hdlr : Bool
  holdsTx : Bool
  holdsRx : Bool
  owed : Bool
  hdlrRun : Bool
  told : Bool

abbrev Results := DataCtlCmd → Sts

inductive SerMsg where
  | pollingChk (recognized : Bool)
  | eventChk
  | m1PauseTrx (results : Results)
  | ioTimerExpire
  | fwTimerExpire
  | m3DoRecov (results : Results)
  | m5Ready (results : Results)
  | m9L2Reset (results : Results)
  -- of another module, and one of this module that could not be delivered
  | external
  | fail

-- A pause that fails takes nothing; a resume gives the bit back whatever comes of it.
def phlDataCtrler (s : CmdSer) (results : Results) : DataCtlCmd → Sts × CmdSer
  | .swTxPause => (results .swTxPause,if results .swTxPause = .success then {s with holdsTx:=true} else s)
  | .swRxPause => (results .swRxPause,if results .swRxPause = .success then {s with holdsRx:=true} else s)
  | .swTxResume => if s.holdsTx then (results .swTxResume,{s with holdsTx:=false}) else (.failure,s)
  | .swRxResume => if s.holdsRx then (results .swRxResume,{s with holdsRx:=false}) else (.failure,s)
  | cmd => (results cmd,s)

-- RTW_WKARD_SER_L1_EXPIRE goes on after an RX pause that times out.
def tolerated (cmd : DataCtlCmd) (sts : Sts) : Bool := sts = .success || cmd = .swRxPause && sts = .cmdTimeout

-- The commands one after the other, up to the first that fails.
def ctlSeq (results : Results) : List DataCtlCmd → CmdSer → Bool × CmdSer
  | [],s => (true,s)
  | cmd :: rest,s =>
    let (sts,s) := phlDataCtrler s results cmd
    if tolerated cmd sts then ctlSeq results rest s else (false,s)

section
variable (s : CmdSer)

def serResetStatus : CmdSer := {s with state:=∅,pollCnt:=0,pollTimer:=some .idl}
def clrPendingMsg : CmdSer := {s with owed:=false}

def serL2Notify : CmdSer :=
  let s := {s with bserl2:=true,hdlrRun:=s.hdlrRun || s.serL2Hdlr}
  {clrPendingMsg s with told:=true}

def serM2Notify : CmdSer := {s with state:=insert .m2 (s.state.erase .m1)}
def serM4Notify : CmdSer := {s with state:=insert .m4 (s.state.erase .m3)}
def serM3M5Waiting : CmdSer := {s with pollCnt:=10,pollTimer:=some .act}
def m1Cmds : List DataCtlCmd := [.swTxPause,.hwTrxPause,.swRxPause,.swTxReset,.swRxReset]

section
variable (results : Results)

def serM1PauseTrx : CmdSer :=
  let (done,s) := ctlSeq results m1Cmds s
  if done then serM3M5Waiting (serM2Notify s) else serResetStatus (serL2Notify s)

def m3Cmds : List DataCtlCmd := [.hwTrxRstResume,.swRxResume]

def serM3ResetHwTrx : CmdSer :=
  let (done,s) := ctlSeq results m3Cmds s
  if done then serM3M5Waiting (serM4Notify s) else serResetStatus (serL2Notify s)

def serMsgHdlM1 : CmdSer := serM1PauseTrx {s with pollTimer:=none,state:=insert .m1 s.state} results

def serMsgHdlFwExpire : CmdSer := {s with state:=insert .m9 s.state,pollTimer:=some .idl,bserl2:=true}

def serMsgHdlM3 : CmdSer := serM3ResetHwTrx {s with pollTimer:=none,state:=insert .m3 (s.state.erase .m2)} results

def serMsgHdlM5 : CmdSer :=
  let s := {s with pollTimer:=none,state:=insert .m5 (s.state.erase .m4)}
  let s := (phlDataCtrler s results .swTxResume).2
  clrPendingMsg (serResetStatus s)

def serMsgHdlM9 : CmdSer :=
  let s := {s with pollTimer:=none,state:=insert .m9 s.state}
  let s := if s.state ≠ ∅ then (phlDataCtrler (phlDataCtrler s results .swTxResume).2 results .swRxResume).2 else s
  serResetStatus (serL2Notify s)
end

-- A recognized interrupt is handed on; its event comes as a message of its own.
def serMsgHdlPollingChk (recognized : Bool) : CmdSer :=
  if recognized then s
  else if 0 < s.pollCnt then {s with pollCnt:=s.pollCnt - 1,pollTimer:=some .act}
  else {s with pollTimer:=some .idl}

inductive MdlRet where
  | fail | pending | ignore
  deriving DecidableEq

def serHdlExternalEvt : MdlRet := if s.bserl2 then .fail else if s.state ≠ ∅ then .pending else .ignore

def serStep : SerMsg → CmdSer
  | .pollingChk recognized => serMsgHdlPollingChk s recognized
  | .eventChk => s
  | .m1PauseTrx results => serMsgHdlM1 s results
  | .ioTimerExpire => s
  | .fwTimerExpire => serMsgHdlFwExpire s
  | .m3DoRecov results => serMsgHdlM3 s results
  | .m5Ready results => serMsgHdlM5 s results
  | .m9L2Reset results => serMsgHdlM9 s results
  | .external => if serHdlExternalEvt s = .pending then {s with owed:=true} else s
  | .fail => {s with pollTimer:=some .idl}

def CmdSer.init (serL2Hdlr : Bool) : CmdSer := ⟨∅,0,some .idl,false,serL2Hdlr,false,false,false,false,false⟩

def L2Ran : Prop := s.told ∧ (s.serL2Hdlr → s.hdlrRun)
end

instance (s : CmdSer) : Decidable (L2Ran s) := by
  unfold L2Ran
  infer_instance

structure Clear (s : CmdSer) : Prop where
  tx : s.holdsTx = false
  rx : s.holdsRx = false
  pending : s.owed = false
  l2 : s.bserl2 → L2Ran s

def Released (s : CmdSer) : Prop := s.state = ∅ → Clear s

-- M1 runs through, or fails at once with nothing held. M3 resumes the RX it
-- holds, or has nothing left to hold when it fails. M5 finds no RX pause, and
-- no level-2 mark that only a timeout of the firmware has set.
def SerGuard (s : CmdSer) : SerMsg → Prop
  | .m1PauseTrx results => (∀ cmd ∈ m1Cmds, tolerated cmd (results cmd)) ∨
    s.holdsTx = false ∧ s.holdsRx = false ∧ results .swTxPause ≠ .success
  | .m3DoRecov results => results .hwTrxRstResume = .success ∧ s.holdsRx ∧ results .swRxResume = .success ∨
    s.holdsTx = false ∧ (s.holdsRx = false ∨ results .hwTrxRstResume = .success)
  | .m5Ready _ => s.holdsRx = false ∧ (s.bserl2 → L2Ran s)
  | _ => True

instance (s : CmdSer) (msg : SerMsg) : Decidable (SerGuard s msg) := by
  unfold SerGuard
  split <;> infer_instance

theorem waiting_released (state : s.state ≠ ∅) : Released (serM3M5Waiting s) := fun idle => absurd idle state
theorem m2_waits (s : CmdSer) : (serM2Notify s).state ≠ ∅ := Finset.insert_ne_empty _ _
theorem m4_waits (s : CmdSer) : (serM4Notify s).state ≠ ∅ := Finset.insert_ne_empty _ _

theorem l2Notify_ran (s : CmdSer) : L2Ran (serL2Notify s) := by
  refine ⟨rfl,?_⟩
  intro registered
  change (s.hdlrRun || s.serL2Hdlr)
  rw [show s.serL2Hdlr = true from registered,Bool.or_true]

theorem given_up (s : CmdSer) : Released (serResetStatus (serL2Notify s)) ↔ s.holdsTx = false ∧ s.holdsRx = false := by
  constructor
  · intro released
    have clear := released rfl
    exact ⟨clear.tx,clear.rx⟩
  · rintro ⟨tx,rx⟩ _
    exact ⟨tx,rx,rfl,fun _ => l2Notify_ran s⟩

theorem ctlSeq_cons (results : Results) (cmd : DataCtlCmd) (rest : List DataCtlCmd) (s : CmdSer) :
    ctlSeq results (cmd :: rest) s = if tolerated cmd (phlDataCtrler s results cmd).1 then
      ctlSeq results rest (phlDataCtrler s results cmd).2 else (false,(phlDataCtrler s results cmd).2) := rfl

theorem ctlSeq_keeps (cmds : List DataCtlCmd) (pausing : ∀ cmd ∈ cmds, cmd ∈ m1Cmds) (s : CmdSer) :
    ((ctlSeq results cmds s).2.holdsTx = false → s.holdsTx = false) ∧
    ((ctlSeq results cmds s).2.holdsRx = false → s.holdsRx = false) := by
  induction cmds generalizing s with
  | nil => exact ⟨fun same => same,fun same => same⟩
  | cons cmd rest ih =>
    have one : ((phlDataCtrler s results cmd).2.holdsTx = false → s.holdsTx = false) ∧
        ((phlDataCtrler s results cmd).2.holdsRx = false → s.holdsRx = false) := by
      have named := pausing cmd mem_cons_self
      simp only [m1Cmds,mem_cons,not_mem_nil,or_false] at named
      rcases named with rfl | rfl | rfl | rfl | rfl <;> simp only [phlDataCtrler]
      · split <;> simp
      · exact ⟨fun same => same,fun same => same⟩
      · split <;> simp
      · exact ⟨fun same => same,fun same => same⟩
      · exact ⟨fun same => same,fun same => same⟩
    rw [ctlSeq_cons]
    split
    · obtain ⟨tx,rx⟩ := ih (fun other member => pausing other (mem_cons_of_mem _ member)) (phlDataCtrler s results cmd).2
      exact ⟨fun none => one.1 (tx none),fun none => one.2 (rx none)⟩
    · exact one

theorem pausing_answers (results : Results) (s : CmdSer) (pausing : cmd ∈ m1Cmds) :
    (phlDataCtrler s results cmd).1 = results cmd := by
  simp only [m1Cmds,mem_cons,not_mem_nil,or_false] at pausing
  rcases pausing with rfl | rfl | rfl | rfl | rfl <;> rfl

theorem ctlSeq_done (cmds : List DataCtlCmd) (pausing : ∀ cmd ∈ cmds, cmd ∈ m1Cmds) (s : CmdSer) :
    (ctlSeq results cmds s).1 ↔ ∀ cmd ∈ cmds, tolerated cmd (results cmd) := by
  induction cmds generalizing s with
  | nil => simp [ctlSeq]
  | cons cmd rest ih =>
    rw [ctlSeq_cons,pausing_answers results s (pausing cmd mem_cons_self),forall_mem_cons]
    split
    · rename_i ok
      rw [ih (fun other member => pausing other (mem_cons_of_mem _ member))]
      exact (and_iff_right ok).symm
    · rename_i failed
      simp [failed]

section
variable (s : CmdSer) (results : Results)

theorem pauseTrx_eq : serM1PauseTrx s results =
    if (ctlSeq results m1Cmds s).1 then serM3M5Waiting (serM2Notify (ctlSeq results m1Cmds s).2)
    else serResetStatus (serL2Notify (ctlSeq results m1Cmds s).2) := rfl

theorem resetHwTrx_eq : serM3ResetHwTrx s results =
    if (ctlSeq results m3Cmds s).1 then serM3M5Waiting (serM4Notify (ctlSeq results m3Cmds s).2)
    else serResetStatus (serL2Notify (ctlSeq results m3Cmds s).2) := rfl

theorem m1_released :
    Released (serMsgHdlM1 s results) ↔ SerGuard s (.m1PauseTrx results) := by
  unfold serMsgHdlM1
  generalize begun : ({s with pollTimer:=none,state:=insert .m1 s.state} : CmdSer) = t
  have tx : t.holdsTx = s.holdsTx := by rw [← begun]
  have rx : t.holdsRx = s.holdsRx := by rw [← begun]
  rw [pauseTrx_eq]
  by_cases passed : (ctlSeq results m1Cmds t).1
  · rw [if_pos passed]
    have all := (ctlSeq_done m1Cmds (fun _ member => member) t).mp passed
    exact ⟨fun _ => .inl all,fun _ => waiting_released (m2_waits _)⟩
  · rw [if_neg passed,given_up]
    have some : ¬ ∀ cmd ∈ m1Cmds, tolerated cmd (results cmd) :=
      fun all => passed ((ctlSeq_done m1Cmds (fun _ member => member) t).mpr all)
    simp only [SerGuard,some,false_or]
    by_cases first : results .swTxPause = .success
    · constructor
      · rintro ⟨none,_⟩
        rw [m1Cmds,ctlSeq_cons] at none
        simp only [phlDataCtrler,first,reduceIte,tolerated,decide_true,Bool.true_or] at none
        have held := (ctlSeq_keeps _ (fun _ member => mem_cons_of_mem _ member) _).1 none
        cases held
      · rintro ⟨_,_,failed⟩
        exact absurd first failed
    · have stops : (ctlSeq results m1Cmds t).2 = t := by
        rw [m1Cmds,ctlSeq_cons]
        simp [phlDataCtrler,first,tolerated]
      rw [stops,tx,rx]
      exact ⟨fun both => ⟨both.1,both.2,first⟩,fun both => ⟨both.1,both.2.1⟩⟩

theorem m3_released :
    Released (serMsgHdlM3 s results) ↔ SerGuard s (.m3DoRecov results) := by
  unfold serMsgHdlM3
  generalize begun : ({s with pollTimer:=none,state:=insert .m3 (s.state.erase .m2)} : CmdSer) = t
  have tx : t.holdsTx = s.holdsTx := by rw [← begun]
  have rx : t.holdsRx = s.holdsRx := by rw [← begun]
  rw [resetHwTrx_eq]
  simp only [SerGuard,← tx,← rx]
  by_cases hw : results .hwTrxRstResume = .success
  swap
  · have stops : ctlSeq results m3Cmds t = (false,t) := by simp [m3Cmds,ctlSeq,phlDataCtrler,tolerated,hw]
    rw [stops,if_neg Bool.false_ne_true,given_up]
    simp [hw]
  by_cases held : t.holdsRx
  swap
  · have stops : ctlSeq results m3Cmds t = (false,t) := by simp [m3Cmds,ctlSeq,phlDataCtrler,tolerated,hw,held]
    rw [stops,if_neg Bool.false_ne_true,given_up]
    simp [hw,held]
  by_cases resumed : results .swRxResume = .success
  · have passes : (ctlSeq results m3Cmds t).1 := by
      simp [m3Cmds,ctlSeq,phlDataCtrler,tolerated,hw,held,resumed]
    rw [if_pos passes]
    exact ⟨fun _ => .inl ⟨hw,held,resumed⟩,fun _ => waiting_released (m4_waits _)⟩
  · have stops : ctlSeq results m3Cmds t = (false,{t with holdsRx:=false}) := by
      simp [m3Cmds,ctlSeq,phlDataCtrler,tolerated,hw,held,resumed]
    rw [stops,if_neg Bool.false_ne_true,given_up]
    simp [hw,resumed]

theorem m5_released :
    Released (serMsgHdlM5 s results) ↔ SerGuard s (.m5Ready results) := by
  have resumed : (phlDataCtrler {s with pollTimer:=none,state:=insert .m5 (s.state.erase .m4)} results .swTxResume).2 =
      {s with pollTimer:=none,state:=insert .m5 (s.state.erase .m4),holdsTx:=false} := by
    simp only [phlDataCtrler]
    split
    · rfl
    · rename_i none
      simp only [Bool.not_eq_true] at none
      rw [none]
  unfold serMsgHdlM5
  dsimp only
  rw [resumed]
  constructor
  · intro released
    have clear := released rfl
    exact ⟨clear.rx,clear.l2⟩
  · rintro ⟨rx,l2⟩ _
    exact ⟨rfl,rx,rfl,l2⟩

theorem m9_released : Released (serMsgHdlM9 s results) := by
  unfold serMsgHdlM9
  dsimp only
  rw [if_pos (Finset.insert_ne_empty _ _),given_up]
  simp only [phlDataCtrler]
  constructor <;> (split <;> split <;> simp_all)
end

theorem serStep_released (released : Released s) (msg : SerMsg) : Released (serStep s msg) ↔ SerGuard s msg := by
  cases msg with
  | pollingChk recognized =>
    refine ⟨fun _ => trivial,fun _ => ?_⟩
    change Released (serMsgHdlPollingChk s recognized)
    unfold serMsgHdlPollingChk
    split
    · exact released
    · split <;> exact fun idle => ⟨(released idle).tx,(released idle).rx,(released idle).pending,(released idle).l2⟩
  | eventChk => exact ⟨fun _ => trivial,fun _ => released⟩
  | m1PauseTrx results => exact m1_released s results
  | ioTimerExpire => exact ⟨fun _ => trivial,fun _ => released⟩
  | fwTimerExpire => exact ⟨fun _ => trivial,fun _ idle => absurd idle (Finset.insert_ne_empty _ _)⟩
  | m3DoRecov results => exact m3_released s results
  | m5Ready results => exact m5_released s results
  | m9L2Reset results => exact ⟨fun _ => trivial,fun _ => m9_released s results⟩
  | external =>
    refine ⟨fun _ => trivial,fun _ => ?_⟩
    change Released (if serHdlExternalEvt s = .pending then {s with owed:=true} else s)
    split
    · rename_i pending
      intro idle
      simp only [serHdlExternalEvt,show s.state = ∅ from idle] at pending
      split at pending <;> simp at pending
    · exact released
  | fail => exact ⟨fun _ => trivial,fun _ idle =>
      ⟨(released idle).tx,(released idle).rx,(released idle).pending,(released idle).l2⟩⟩

theorem recovery_released (serL2Hdlr : Bool) (path : Reached serStep SerGuard (.init serL2Hdlr) s) :
    Released s ∧ ∀ msg, Released (serStep s msg) ↔ SerGuard s msg := by
  have start : Released (.init serL2Hdlr) := fun _ => ⟨rfl,rfl,rfl,nofun⟩
  have released : Released s := path.invariant Released start (fun _ msg kept allowed => (serStep_released kept msg).mpr allowed)
  exact ⟨released,serStep_released released⟩

def calm : Results := fun _ => .success
def failing (cmd : DataCtlCmd) : Results := fun other => if other = cmd then .failure else .success

def recoveries : List SerMsg :=
  [.pollingChk true,.m1PauseTrx calm,.external,.pollingChk false,.m3DoRecov calm,.external,.m5Ready calm,.external,
    .m1PauseTrx (failing .swTxPause),.m1PauseTrx calm,.fwTimerExpire,.m9L2Reset (failing .swTxResume)]

theorem recovery_released_recoveries :
    let s := run serStep (.init true) recoveries
    Admitted serStep SerGuard (.init true) recoveries ∧ s.state = ∅ ∧ s.bserl2 ∧
    Released s ∧ ∀ msg, Released (serStep s msg) ↔ SerGuard s msg := by
  have admitted : Admitted serStep SerGuard (.init true) recoveries := by decide +kernel
  exact ⟨admitted,by decide +kernel,by decide +kernel,recovery_released true (Reached.start.run admitted)⟩

-- M1 gives up after the software TX was paused; and M5 ends a recovery that the
-- firmware timer has marked as lost, without the level-2 notification.
theorem recovery_unreleased :
    ¬ Released (run serStep (.init true) [.m1PauseTrx (failing .hwTrxPause)]) ∧
    ¬ Released (run serStep (.init true) [.m1PauseTrx calm,.m3DoRecov calm,.fwTimerExpire,.m5Ready calm]) := by
  constructor
  · intro released
    have clear := released (by decide +kernel)
    have held : (run serStep (.init true) [.m1PauseTrx (failing .hwTrxPause)]).holdsTx := by decide +kernel
    rw [clear.tx] at held
    cases held
  · intro released
    have clear := released (by decide +kernel)
    have unheard : ¬ L2Ran (run serStep (.init true) [.m1PauseTrx calm,.m3DoRecov calm,.fwTimerExpire,.m5Ready calm]) := by
      decide +kernel
    exact unheard (clear.l2 (by decide +kernel))
end Rtl8852au.Ser
