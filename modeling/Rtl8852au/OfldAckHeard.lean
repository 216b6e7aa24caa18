import Rtl8852au.OfldAck

namespace Rtl8852au.OfldAck
open CmdOfld Machine List

structure Heard (s : Cmd) : Prop where
  kept : s.lost = 0
  inTime : .pollTo ∉ s.checks
  waiting : ∀ cmd first cnt, s.pc = .poll cmd first cnt →
    s.flying = 1 ∧ s.o.cmdState = .sending ∨ s.flying = 0 ∧ s.o.cmdState = .rcvd
  -- An answer that comes now ends the polling with what it says.
  told : ∀ cmd first cnt, s.pc = .poll cmd first cnt → 1 < cnt → s.flying = 1 → ∀ result plat drvRm,
    (run Cmd.step s [.rsp result,.go plat drvRm]).checks = s.checks ++ [if result then .fioOfld else .success]

-- What keeps a run clear of the two windows: an answer is handled while the sender
-- polls for it, and the sender does not take its last look.
def CmdInTime (s : Cmd) : CmdEvent → Prop
  | .macAddCmdOfld _ _ => True
  | .go _ drvRm => ∀ cmd first cnt, s.pc = .poll cmd first cnt → 1 < cnt ∧ drvRm = false
  | .rsp _ => s.flying = 0 ∨ ∃ cmd first cnt, s.pc = .poll cmd first cnt

structure Cmd.Inv (s : Cmd) : Prop where
  kept : s.lost = 0
  inTime : .pollTo ∉ s.checks
  stage : match s.pc with
    | .mark _ _ => s.flying = 1
    | .poll _ _ _ => s.flying = 1 ∧ s.o.cmdState = .sending ∨ s.flying = 0 ∧ s.o.cmdState = .rcvd
    | _ => s.flying = 0

theorem Cmd.go_inv (inv : s.Inv) (plat : Platform) (drvRm : Bool) (calm : CmdInTime s (.go plat drvRm)) :
    (s.go plat drvRm).Inv := by
  obtain ⟨kept,inTime,stage⟩ := inv
  unfold go
  cases pc : s.pc with
  | away => exact ⟨kept,inTime,stage⟩
  | room cmd =>
    rw [pc] at stage
    dsimp only
    split
    · exact ⟨kept,inTime,stage⟩
    · exact ⟨kept,inTime,stage⟩
    · exact ⟨kept,inTime,stage⟩
  | begin cmd first =>
    rw [pc] at stage
    dsimp only
    split
    · refine ⟨kept,inTime,?_⟩
      have none_before : s.flying = 0 := stage
      dsimp only
      omega
    · exact ⟨kept,inTime,stage⟩
  | mark cmd first =>
    rw [pc] at stage
    exact ⟨kept,inTime,.inl ⟨stage,rfl⟩⟩
  | poll cmd first cnt =>
    rw [pc] at stage
    obtain ⟨left,present⟩ := calm cmd first cnt pc
    dsimp only
    unfold chkCmdOfldPkt
    rw [if_neg (by omega)]
    by_cases rcvd : s.o.cmdState = .rcvd
    · have answered : s.flying = 0 := by
        rcases stage with ⟨_,sending⟩ | ⟨none_left,_⟩
        · rw [sending] at rcvd
          cases rcvd
        · exact none_left
      rw [if_pos rcvd]
      split
      · exact ⟨kept,by simpa [checked] using inTime,answered⟩
      · refine ⟨kept,by simpa [checked] using inTime,?_⟩
        unfold checked
        cases first <;> exact answered
    · rw [if_neg rcvd,present]
      exact ⟨kept,inTime,stage⟩
  | add cmd =>
    rw [pc] at stage
    dsimp only
    split
    · refine ⟨kept,inTime,?_⟩
      by_cases more : cmd.lc = 0
      · rw [if_pos more]
        exact stage
      · rw [if_neg more]
        exact stage
    · exact ⟨kept,inTime,stage⟩
  | finish =>
    rw [pc] at stage
    exact ⟨kept,inTime,stage⟩

theorem Cmd.step_inv (inv : s.Inv) (event : CmdEvent) (calm : CmdInTime s event) : (s.step event).Inv := by
  cases event with
  | macAddCmdOfld cmd ready =>
    unfold step
    dsimp only
    split
    · rename_i away
      split
      · exact inv
      · have stage := inv.stage
        rw [away] at stage
        exact ⟨inv.kept,inv.inTime,stage⟩
    · exact inv
  | go plat drvRm => exact go_inv inv plat drvRm calm
  | rsp result =>
    unfold step
    dsimp only
    by_cases quiet : s.flying = 0
    · rw [if_pos quiet]
      exact inv
    · rw [if_neg quiet]
      rcases calm with none_flying | ⟨cmd,first,cnt,polling⟩
      · exact absurd none_flying quiet
      · have stage := inv.stage
        rw [polling] at stage
        obtain ⟨one,sending⟩ : s.flying = 1 ∧ s.o.cmdState = .sending := by
          rcases stage with here | ⟨none_left,_⟩
          · exact here
          · exact absurd none_left quiet
        unfold c2hCmdOfldRspHdl
        rw [if_neg (by simp [sending])]
        refine ⟨inv.kept,inv.inTime,?_⟩
        simp [Cmd.state,polling,one]

theorem Cmd.Inv.heard (inv : s.Inv) : Heard s := by
  refine ⟨inv.kept,inv.inTime,?_,?_⟩
  · intro cmd first cnt polling
    have stage := inv.stage
    rw [polling] at stage
    exact stage
  · intro cmd first cnt polling left flying result plat drvRm
    have sending : s.o.cmdState = .sending := by
      have stage := inv.stage
      rw [polling] at stage
      rcases stage with ⟨_,sending⟩ | ⟨none_left,_⟩
      · exact sending
      · rw [none_left] at flying
        cases flying
    have more : ¬ cnt - 1 = 0 := by omega
    cases result <;>
      simp [Machine.run,Cmd.step,flying,c2hCmdOfldRspHdl,sending,Cmd.state,Cmd.go,polling,chkCmdOfldPkt,more,checked]

theorem deaf_times_out (cnt : Nat) (polling : s.pc = .poll cmd first (cnt+1))
    (deaf : s.o.cmdState = .sending) (plat : Platform) :
    (run Cmd.step s (replicate (cnt+1) (.go plat false))).checks = s.checks ++ [.pollTo] := by
  induction cnt generalizing s with
  | zero => simp [Machine.run,Cmd.step,Cmd.go,polling,chkCmdOfldPkt,Cmd.checked]
  | succ cnt ih =>
    have next : s.step (.go plat false) = {s with pc:=.poll cmd first (cnt+1)} := by
      simp [Cmd.step,Cmd.go,polling,chkCmdOfldPkt,deaf]
    rw [replicate_succ]
    unfold Machine.run
    rw [foldl_cons,next]
    exact ih (s := {s with pc:=.poll cmd first (cnt+1)}) rfl deaf

structure Settled (s : Pkt) : Prop where
  kept : s.lost = 0
  right : ∀ op ret state, (op,ret,state) ∈ s.settled →
    state = if ret = false then .error else if op = .read then .done else .idle

-- A done-ack handled before the sender has noted its command finds the one before,
-- which is of no account where both are reads or neither is.
def PktInTime (s : Pkt) : PktEvent → Prop
  | .ack _ => ∀ op op' rest, s.flight = .done op :: rest → s.pc = .mark op' → (s.lastOp = some .read ↔ op' = .read)
  | _ => True

def Pkt.Noted (s : Pkt) (op : PktOp) : Prop := s.pc = .mark op ∨ s.pc = .away ∧ s.lastOp = some op

structure Pkt.Inv (s : Pkt) : Prop where
  kept : s.lost = 0
  right : ∀ op ret state, (op,ret,state) ∈ s.settled →
    state = if ret = false then .error else if op = .read then .done else .idle
  stage : match s.flight with
    | [] => ∀ op, s.pc = .begun op → s.state = .sending
    | [.rcv,.done op] => s.state = .sending ∧ s.Noted op
    | [.done op] => s.state = .rcvd ∧ s.Noted op
    | _ => False

theorem Pkt.Inv.begun {s : Pkt} (inv : s.Inv) {op : PktOp} (pc : s.pc = .begun op) : s.flight = [] ∧ s.state = .sending := by
  have stage := inv.stage
  split at stage
  · rename_i empty
    exact ⟨empty,stage op pc⟩
  · rcases stage.2 with mark | ⟨away,_⟩
    · rw [pc] at mark
      cases mark
    · rw [pc] at away
      cases away
  · rcases stage.2 with mark | ⟨away,_⟩
    · rw [pc] at mark
      cases mark
    · rw [pc] at away
      cases away
  · exact stage.elim

theorem Pkt.go_inv {s : Pkt} (inv : s.Inv) (tx : Tx) : (s.go tx).Inv := by
  unfold go
  cases pc : s.pc with
  | away => exact inv
  | begun op =>
    obtain ⟨empty,sending⟩ := inv.begun pc
    cases tx with
    | ok =>
      refine ⟨inv.kept,inv.right,?_⟩
      rw [empty]
      exact ⟨sending,.inl rfl⟩
    | noPacket =>
      refine ⟨inv.kept,inv.right,?_⟩
      dsimp only
      rw [empty]
      intro _ again
      cases again
    | refused =>
      refine ⟨inv.kept,inv.right,?_⟩
      dsimp only
      rw [empty]
      intro _ again
      cases again
  | mark op =>
    refine ⟨inv.kept,inv.right,?_⟩
    have stage := inv.stage
    unfold Noted at stage ⊢
    dsimp only
    split at stage
    · intro _ again
      cases again
    · rcases stage with ⟨sending,same | ⟨away,_⟩⟩
      · rw [pc] at same
        cases same
        exact ⟨sending,.inr ⟨rfl,rfl⟩⟩
      · rw [pc] at away
        cases away
    · rcases stage with ⟨rcvd,same | ⟨away,_⟩⟩
      · rw [pc] at same
        cases same
        exact ⟨rcvd,.inr ⟨rfl,rfl⟩⟩
      · rw [pc] at away
        cases away
    · exact stage.elim

theorem Pkt.Noted.not_begun {s : Pkt} {op other : PktOp} (noted : s.Noted op) : s.pc ≠ .begun other := by
  intro begun
  rcases noted with mark | ⟨away,_⟩
  · rw [begun] at mark
    cases mark
  · rw [begun] at away
    cases away

theorem Pkt.Inv.ack {s : Pkt} (inv : s.Inv) (ret : Bool) (calm : PktInTime s (.ack ret)) : (s.step (.ack ret)).Inv := by
  have stage := inv.stage
  unfold step
  dsimp only
  cases flight : s.flight with
  | nil => exact inv
  | cons first rest =>
    rw [flight] at stage
    cases first with
    | rcv =>
      split at stage
      · rename_i empty
        cases empty
      · rename_i op same
        cases same
        dsimp only
        unfold c2hFwofldRcvAckHdl
        rw [if_pos stage.1]
        exact ⟨inv.kept,inv.right,rfl,stage.2⟩
      · rename_i same
        cases same
      · exact stage.elim
    | done op =>
      split at stage
      · rename_i empty
        cases empty
      · rename_i same
        cases same
      · rename_i same
        cases same
        obtain ⟨rcvd,noted⟩ := stage
        have kind : s.lastOp = some .read ↔ op = .read := by
          rcases noted with mark | ⟨_,last⟩
          · exact calm op op [] flight mark
          · rw [last]
            simp
        dsimp only
        unfold c2hFwofldDoneAckHdl
        rw [if_pos rcvd]
        refine ⟨inv.kept,?_,?_⟩
        · intro other answer state member
          rcases mem_append.mp member with old | new
          · exact inv.right other answer state old
          · cases mem_singleton.mp new
            cases ret <;> simp [doneState,kind]
        · intro other begun
          exact absurd begun noted.not_begun
      · exact stage.elim

theorem Pkt.step_inv (inv : s.Inv) (event : PktEvent) (calm : PktInTime s event) : (s.step event).Inv := by
  cases event with
  | call op name ready =>
    unfold step
    dsimp only
    split
    · rename_i away
      split
      · rename_i taken
        have idle : s.state = .idle := by
          unfold admitted at taken
          rw [Bool.and_eq_true,Bool.and_eq_true] at taken
          simpa using taken.2
        refine ⟨inv.kept,inv.right,?_⟩
        have stage := inv.stage
        dsimp only
        split at stage
        · intro _ _
          rfl
        · rw [idle] at stage
          cases stage.1
        · rw [idle] at stage
          cases stage.1
        · exact stage.elim
      · exact inv
    · exact inv
  | go tx => exact go_inv inv tx
  | rsp op name len =>
    unfold step c2hPktOfldRspHdl
    dsimp only
    split
    · exact inv
    · cases op with
      | add | del | read => exact ⟨inv.kept,inv.right,inv.stage⟩
  | ack ret => exact inv.ack ret calm
  | macPktOfldPacket malloc =>
    unfold step
    dsimp only
    split
    · rename_i fetched
      refine ⟨inv.kept,inv.right,?_⟩
      have stage := inv.stage
      dsimp only
      split at stage
      · intro op begun
        have sending := stage op begun
        rw [fetched.1] at sending
        cases sending
      · rw [fetched.1] at stage
        cases stage.1
      · rw [fetched.1] at stage
        cases stage.1
      · exact stage.elim
    · exact inv

theorem ofld_acks_heard (s : Cmd) (t : Pkt) (io : Reached Cmd.step CmdInTime .init s) (pkt : Reached Pkt.step PktInTime .init t) :
    Heard s ∧ Settled t := by
  refine ⟨?_,?_⟩
  · have start : Cmd.init.Inv := ⟨rfl,not_mem_nil,rfl⟩
    have inv := io.invariant Cmd.Inv start (fun _ event inv calm => Cmd.step_inv inv event calm)
    exact inv.heard
  · have start : Pkt.init.Inv := by
      refine ⟨rfl,?_,?_⟩
      · intro op ret state member
        exact absurd member not_mem_nil
      · intro op begun
        cases begun
    have inv := pkt.invariant Pkt.Inv start (fun _ event inv calm => Pkt.step_inv inv event calm)
    exact ⟨inv.kept,inv.right⟩

def oneCmd : RtwMacCmd := ⟨.mac,.delay,1,.a,0,0,5,0⟩
def bus : Platform := ⟨fun _ => ⟨0,0,0,0⟩,fun _ => true,fun _ => true,fun _ => true,fun _ => .success⟩

-- A command answered while the sender polls, and a packet whose acknowledgements come
-- after the command has been noted.
theorem ofld_acks_heard_late :
    Heard (Machine.run Cmd.step .init [.macAddCmdOfld oneCmd true,.go bus false,.go bus false,.go bus false,.go bus false,
      .rsp false]) ∧
    Settled (Machine.run Pkt.step .init [.call .add 0 true,.go .ok,.go .ok,.ack true,.ack true]) := by
  refine ofld_acks_heard _ _ (Reached.start.run ?_) (Reached.start.run ?_)
  · have away : ∀ (s : Cmd) plat, (∀ cmd first cnt, s.pc ≠ .poll cmd first cnt) → CmdInTime s (.go plat false) :=
      fun s plat other cmd first cnt polling => absurd polling (other cmd first cnt)
    refine ⟨trivial,away _ _ ?_,away _ _ ?_,away _ _ ?_,away _ _ ?_,.inr ⟨oneCmd,false,1000,rfl⟩,trivial⟩ <;>
      exact fun _ _ _ polling => nomatch polling
  · refine ⟨trivial,trivial,trivial,?_,?_,trivial⟩
    · intro op op' rest flight mark
      cases mark
    · intro op op' rest flight mark
      cases mark

-- The same two with the messages handled before the sender's own write. The command
-- times out, and a read of packet 0 is left idle, its packet never fetched.
theorem ofld_acks_lost :
    (Machine.run Cmd.step .init ([.macAddCmdOfld oneCmd true,.go bus false,.go bus false,.go bus false,.rsp false,.go bus false] ++
      List.replicate 1000 (.go bus false))).checks = [.pollTo] ∧
    ¬ Settled (Machine.run Pkt.step .init [.call .add 0 true,.go .ok,.go .ok,.ack true,.ack true,.rsp .add 0 8,
      .call .read 0 true,.go .ok,.ack true,.ack true]) := by
  refine ⟨?_,?_⟩
  · unfold Machine.run
    rw [foldl_append]
    exact deaf_times_out 999 rfl rfl bus
  · intro settled
    have wrong := settled.right .read true .idle (by decide)
    cases wrong
end Rtl8852au.OfldAck
