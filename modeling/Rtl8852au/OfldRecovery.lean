import Rtl8852au.PktOfldIds

namespace Rtl8852au.OfldAck
open Machine List Bool Prod

inductive OfldRet where
  | success
  | noFw
  | noItem
  | noBuf
  | procErr
  | nptr
  | bufAlloc
  -- whatever the header, the descriptor or the transfer returned
  | h2c
  deriving DecidableEq

structure Steps where
  alloc : Bool := true
  put : Bool := true
  putPkt : Bool := true
  setHdr : Bool := true
  buildTxd : Bool := true
  tx : Bool := true

-- The rest of a packet command once it has moved the state to SENDING. Only a
-- failing transfer moves it back.
def sendPktOfld (op : PktOp) (steps : Steps) (s : Pkt) : OfldRet × Pkt :=
  if !steps.alloc then (.nptr,s)
  else if !steps.put then (.noBuf,s)
  else if op = .add ∧ !steps.putPkt then (.noBuf,s)
  else if !steps.setHdr then (.h2c,s)
  else if !steps.buildTxd then (.h2c,s)
  else if !steps.tx then (.h2c,{s with state:=.idle})
  else (.success,{s with flight:=s.flight ++ [.rcv,.done op],lastOp:=some op})

section
variable (ready : Bool) (id : Fin 256) (steps : Steps) (s : Pkt)

def macReadPktOfld : OfldRet × Pkt :=
  if !ready then (.noFw,s)
  else if id.val = pktOfldMaxCount - 1 then (.noItem,s)
  else if !s.idBitmap id.val then (.noItem,s)
  else if s.state ≠ .idle then (.procErr,s)
  else sendPktOfld .read steps {s with state:=.sending}

def macDelPktOfld : OfldRet × Pkt :=
  if !ready then (.noFw,s)
  else if id.val = pktOfldMaxCount - 1 then (.noItem,s)
  else if !s.idBitmap id.val then (.noItem,s)
  else if s.usedIdCount = 0 then (.noItem,s)
  else if s.state ≠ .idle then (.procErr,s)
  else sendPktOfld .del steps {s with state:=.sending}
end

def macAddPktOfld (ready : Bool) (steps : Steps) (s : Pkt) : OfldRet × Option Nat × Pkt :=
  if !ready then (.noFw,none,s)
  else if s.freeIdCount = 0 then (.noBuf,none,s)
  else if s.state ≠ .idle then (.procErr,none,s)
  else
    ((sendPktOfld .add steps {s with state:=.sending}).1,
      if steps.alloc && steps.put then some (allocId s.idBitmap) else none,
      (sendPktOfld .add steps {s with state:=.sending}).2)

structure EfuseOfld where
  state : H2cState
  buf : Bool
  phyMapValid : Bool

def macDumpEfuseOfld (ready malloc : Bool) (steps : Steps) (s : EfuseOfld) : OfldRet × EfuseOfld :=
  if !ready then (.noFw,s)
  else if s.state ≠ .idle then (.procErr,s)
  else if !s.buf && !malloc then (.bufAlloc,{s with state:=.sending})
  else if !steps.alloc then (.nptr,{s with state:=.sending,buf:=true})
  else if !steps.put then (.noBuf,{s with state:=.sending,buf:=true})
  else if !steps.setHdr then (.h2c,{s with state:=.sending,buf:=true})
  else if !steps.buildTxd then (.h2c,{s with state:=.sending,buf:=true})
  else if !steps.tx then (.h2c,{s with state:=.sending,buf:=true})
  else (.success,{s with state:=.sending,buf:=true})

inductive EfuseC2h where
  | rcvAck
  | doneAck (ret : Bool)
  | dumpEfuse (malloc : Bool)
  deriving DecidableEq

def efuseC2h (s : EfuseOfld) : EfuseC2h → EfuseOfld
  | .rcvAck => if s.state = .sending then {s with state:=.rcvd} else s
  | .doneAck ret => if s.state = .rcvd then {s with state:=if ret then .done else .error} else s
  | .dumpEfuse malloc =>
    if s.state ≠ .rcvd then s
    else if !s.buf && !malloc then s
    else {s with state:=.done,buf:=true}

def macEfuseOfldMap (s : EfuseOfld) : OfldRet × EfuseOfld :=
  if s.state ≠ .done then (.procErr,s) else (.success,{s with state:=.idle})

def efuseFwDumpWaitCnt : Nat := 100000

-- `while (--cnt)`: `heard cnt` are the messages that come before the look at `cnt`.
def waitC2h (heard : Nat → List EfuseC2h) : Nat → EfuseOfld → Bool × EfuseOfld
  | 0,s => (false,s)
  | cnt+1,s =>
    let s := (heard cnt).foldl efuseC2h s
    if cnt = 0 then (false,s) else if s.state = .done then (true,s) else waitC2h heard cnt s

def dumpEfuseFw (ready malloc : Bool) (steps : Steps) (heard : Nat → List EfuseC2h) (mapMalloc : Bool) (s : EfuseOfld) :
    OfldRet × EfuseOfld :=
  if s.phyMapValid then (.success,s)
  else
    let (ret,s) := macDumpEfuseOfld ready malloc steps s
    if ret ≠ .success then (ret,s)
    else
      let (found,s) := waitC2h heard efuseFwDumpWaitCnt s
      if !found then (.procErr,{s with state:=.idle})
      else if !mapMalloc then (.bufAlloc,s)
      else
        let (ret,s) := macEfuseOfldMap s
        if ret ≠ .success then (ret,s) else (.success,{s with phyMapValid:=true})

structure OfldSys where
  ready : Bool
  pkt : Pkt
  efuse : EfuseOfld

inductive OfldCall where
  | readPkt (id : Fin 256) (steps : Steps)
  | delPkt (id : Fin 256) (steps : Steps)
  | addPkt (steps : Steps)
  | dumpEfuse (malloc : Bool) (steps : Steps)
  | dumpFw (malloc : Bool) (steps : Steps) (heard : Nat → List EfuseC2h) (mapMalloc : Bool)

-- `bank` is a switch to another bank, or a map that is dropped.
inductive OfldEvent where
  | call (c : OfldCall)
  | pktRsp (op : PktOp) (id : Fin 256) (len : Nat)
  | pktAck (ret : Bool)
  | macPktOfldPacket (malloc : Bool)
  | efuseMsg (message : EfuseC2h)
  | macEfuseOfldMap
  | resetPktOfld
  | resetDumpEfuse
  | fwdl (ready : Bool)
  | bank (phyMapValid : Bool)

section
variable (s : OfldSys)

def OfldCall.ret : OfldCall → OfldRet
  | .readPkt id steps => (macReadPktOfld s.ready id steps s.pkt).1
  | .delPkt id steps => (macDelPktOfld s.ready id steps s.pkt).1
  | .addPkt steps => (macAddPktOfld s.ready steps s.pkt).1
  | .dumpEfuse malloc steps => (macDumpEfuseOfld s.ready malloc steps s.efuse).1
  | .dumpFw malloc steps heard mapMalloc => (dumpEfuseFw s.ready malloc steps heard mapMalloc s.efuse).1

def OfldCall.go : OfldCall → OfldSys
  | .readPkt id steps => {s with pkt:=(macReadPktOfld s.ready id steps s.pkt).2}
  | .delPkt id steps => {s with pkt:=(macDelPktOfld s.ready id steps s.pkt).2}
  | .addPkt steps => {s with pkt:=(macAddPktOfld s.ready steps s.pkt).2.2}
  | .dumpEfuse malloc steps => {s with efuse:=(macDumpEfuseOfld s.ready malloc steps s.efuse).2}
  | .dumpFw malloc steps heard mapMalloc => {s with efuse:=(dumpEfuseFw s.ready malloc steps heard mapMalloc s.efuse).2}

def ofldStep : OfldEvent → OfldSys
  | .call c => c.go s
  | .pktRsp op id len => {s with pkt:=s.pkt.step (.rsp op id.val len)}
  | .pktAck ret => {s with pkt:=s.pkt.step (.ack ret)}
  | .macPktOfldPacket malloc => {s with pkt:=s.pkt.step (.macPktOfldPacket malloc)}
  | .efuseMsg message => {s with efuse:=efuseC2h s.efuse message}
  | .macEfuseOfldMap => {s with efuse:=(macEfuseOfldMap s.efuse).2}
  | .resetPktOfld => {s with pkt:={s.pkt with state:=.idle}}
  | .resetDumpEfuse => {s with efuse:={s.efuse with state:=.idle}}
  | .fwdl ready => {s with ready:=ready}
  | .bank phyMapValid => {s with efuse:={s.efuse with phyMapValid:=phyMapValid}}

def OfldSys.init : OfldSys := ⟨false,.init,⟨.idle,false,false⟩⟩

def OfldCall.machine : OfldCall → H2cState
  | .readPkt .. | .delPkt .. | .addPkt .. => s.pkt.state
  | .dumpEfuse .. | .dumpFw .. => s.efuse.state

def Recovers : OfldEvent → Prop
  | .call c => c.ret s ≠ .success → c.machine (c.go s) = c.machine s
  | _ => True

def reachesTx (op : PktOp) (steps : Steps) : Bool :=
  steps.alloc && steps.put && (op != .add || steps.putPkt) && steps.setHdr && steps.buildTxd

def dumpSent (malloc : Bool) (steps : Steps) (s : EfuseOfld) : Bool := (s.buf || malloc) && reachesTx .read steps && steps.tx

def answered (heard : Nat → List EfuseC2h) : Bool :=
  (((range' 1 (efuseFwDumpWaitCnt-1)).reverse.flatMap heard).foldl efuseC2h ⟨.sending,true,false⟩).state == .done

-- A call that takes its state machine does not fail before the transfer, one
-- of the efuse not at all; a dump that is answered finds room for its map.
def Restores : OfldEvent → Prop
  | .call (.readPkt id steps) => admitted s.pkt .read id.val s.ready → reachesTx .read steps
  | .call (.delPkt id steps) => admitted s.pkt .del id.val s.ready → reachesTx .del steps
  | .call (.addPkt steps) => admitted s.pkt .add 0 s.ready → reachesTx .add steps
  | .call (.dumpEfuse malloc steps) => s.ready → s.efuse.state = .idle → dumpSent malloc steps s.efuse
  | .call (.dumpFw malloc steps heard mapMalloc) => s.efuse.phyMapValid = false → s.ready → s.efuse.state = .idle →
    dumpSent malloc steps s.efuse ∧ (answered heard → mapMalloc)
  | _ => True
end

theorem sendPktOfld_reaches (s : Pkt) (reaches : reachesTx op steps) :
    sendPktOfld op steps s = if steps.tx then
      (.success,{s with flight:=s.flight ++ [.rcv,.done op],lastOp:=some op}) else (.h2c,{s with state:=.idle}) := by
  unfold reachesTx at reaches
  simp only [and_eq_true,or_eq_true,bne_iff_ne,ne_eq] at reaches
  obtain ⟨⟨⟨⟨alloc,put⟩,packet⟩,setHdr⟩,buildTxd⟩ := reaches
  have fits : ¬(op = .add ∧ steps.putPkt = false) := by
    rintro ⟨add,none⟩
    rcases packet with other | room
    · exact other add
    · exact absurd (room.symm.trans none) (by decide)
  unfold sendPktOfld
  cases tx : steps.tx <;> simp [alloc,put,fits,setHdr,buildTxd]

theorem sendPktOfld_fails (s : Pkt) (early : reachesTx op steps = false) :
    (sendPktOfld op steps s).1 ≠ .success ∧ (sendPktOfld op steps s).2 = s := by
  unfold sendPktOfld
  by_cases alloc : steps.alloc
  case neg => simp [alloc]
  by_cases put : steps.put
  case neg => simp [alloc,put]
  by_cases packet : op = .add ∧ steps.putPkt = false
  case pos => simp [alloc,put,packet]
  by_cases setHdr : steps.setHdr
  case neg => simp [alloc,put,packet,setHdr]
  by_cases buildTxd : steps.buildTxd
  case neg => simp [alloc,put,packet,setHdr,buildTxd]
  have fits : op ≠ .add ∨ steps.putPkt := by
    by_cases add : op = .add
    · exact .inr (eq_true_of_ne_false fun none => packet ⟨add,none⟩)
    · exact .inl add
  have reaches : reachesTx op steps := by
    unfold reachesTx
    simp [alloc,put,fits,setHdr,buildTxd]
  rw [reaches] at early
  cases early

theorem sendPktOfld_recovers (op : PktOp) (steps : Steps) (sending : s.state = .sending) :
    ((sendPktOfld op steps s).1 ≠ .success → (sendPktOfld op steps s).2.state = .idle) ↔ reachesTx op steps := by
  cases reaches : reachesTx op steps with
  | false =>
    obtain ⟨failed,same⟩ := sendPktOfld_fails s reaches
    simp [failed,same,sending]
  | true =>
    rw [sendPktOfld_reaches s reaches]
    cases steps.tx <;> simp

section
variable (ready : Bool) (id : Fin 256) (steps : Steps) (s : Pkt)

theorem macReadPktOfld_cases :
    (admitted s .read id.val ready → s.state = .idle ∧
        macReadPktOfld ready id steps s = sendPktOfld .read steps {s with state:=.sending}) ∧
      (admitted s .read id.val ready = false → (macReadPktOfld ready id steps s).2 = s) := by
  unfold admitted macReadPktOfld
  by_cases isReady : ready
  · by_cases last : id.val = 255
    · simp [isReady,last]
    · by_cases known : s.idBitmap id.val
      · by_cases idle : s.state = .idle
        · simp [isReady,last,known,idle]
        · simp [isReady,last,known,idle]
      · simp [isReady,last,known]
  · simp [isReady]

theorem macDelPktOfld_cases :
    (admitted s .del id.val ready → s.state = .idle ∧
        macDelPktOfld ready id steps s = sendPktOfld .del steps {s with state:=.sending}) ∧
      (admitted s .del id.val ready = false → (macDelPktOfld ready id steps s).2 = s) := by
  unfold admitted macDelPktOfld
  by_cases isReady : ready
  · by_cases last : id.val = 255
    · simp [isReady,last]
    · by_cases known : s.idBitmap id.val
      · by_cases used : s.usedIdCount = 0
        · simp [isReady,last,known,used]
        · by_cases idle : s.state = .idle
          · simp [isReady,last,known,used,idle]
          · simp [isReady,last,known,used,idle]
      · simp [isReady,last,known]
  · simp [isReady]
end

theorem macAddPktOfld_cases (ready : Bool) (steps : Steps) (s : Pkt) :
    (admitted s .add 0 ready → s.state = .idle ∧
        (macAddPktOfld ready steps s).1 = (sendPktOfld .add steps {s with state:=.sending}).1 ∧
        (macAddPktOfld ready steps s).2.2 = (sendPktOfld .add steps {s with state:=.sending}).2) ∧
      (admitted s .add 0 ready = false → (macAddPktOfld ready steps s).2.2 = s) := by
  unfold admitted macAddPktOfld
  by_cases isReady : ready
  · by_cases free : s.freeIdCount = 0
    · simp [isReady,free]
    · by_cases idle : s.state = .idle
      · simp [isReady,free,idle]
      · simp [isReady,free,idle]
  · simp [isReady]

theorem macDumpEfuseOfld_taken (malloc : Bool) (steps : Steps) (idle : s.state = .idle) :
    ((macDumpEfuseOfld true malloc steps s).1 = .success ↔ dumpSent malloc steps s) ∧
      (macDumpEfuseOfld true malloc steps s).2.state = .sending ∧ ((macDumpEfuseOfld true malloc steps s).1 = .success →
        (macDumpEfuseOfld true malloc steps s).2 = {s with state:=.sending,buf:=true}) := by
  obtain ⟨alloc,put,putPkt,setHdr,buildTxd,tx⟩ := steps
  unfold macDumpEfuseOfld dumpSent reachesTx
  by_cases room : s.buf ∨ malloc
  · have has : (s.buf || malloc) := by simpa using room
    have none : (!s.buf && !malloc) = false := by
      rw [← Bool.not_or,has]
      rfl
    rw [has,none]
    cases alloc <;> cases put <;> cases setHdr <;> cases buildTxd <;> cases tx <;> simp [idle]
  · obtain ⟨noBuf,noMalloc⟩ := not_or.mp room
    simp [idle,noBuf,noMalloc]

theorem macDumpEfuseOfld_refused (malloc : Bool) (steps : Steps) (refused : ¬(ready = true ∧ s.state = .idle)) :
    (macDumpEfuseOfld ready malloc steps s).1 ≠ .success ∧ (macDumpEfuseOfld ready malloc steps s).2 = s := by
  unfold macDumpEfuseOfld
  by_cases isReady : ready = true
  · have busy : s.state ≠ .idle := fun idle => refused ⟨isReady,idle⟩
    simp [isReady,busy]
  · simp [isReady]

theorem efuseC2h_done (done : s.state = .done) (message : EfuseC2h) : (efuseC2h s message).state = .done := by
  cases message with
  | rcvAck => simp [efuseC2h,done]
  | doneAck ret => simp [efuseC2h,done]
  | dumpEfuse malloc => simp [efuseC2h,done]

theorem messages_done (done : s.state = .done) (messages : List EfuseC2h) : (messages.foldl efuseC2h s).state = .done := by
  induction messages generalizing s with
  | nil => exact done
  | cons message rest ih => exact ih (efuseC2h_done done message)

theorem waitC2h_found (heard : Nat → List EfuseC2h) (cnt : Nat) (s : EfuseOfld) :
    ((waitC2h heard (cnt+1) s).1 ↔
        (((range' 1 cnt).reverse.flatMap heard).foldl efuseC2h s).state = .done ∧ 0 < cnt) ∧
      ((waitC2h heard (cnt+1) s).1 → (waitC2h heard (cnt+1) s).2.state = .done) := by
  induction cnt generalizing s with
  | zero => simp [waitC2h]
  | succ cnt ih =>
    have looks : ((range' 1 (cnt+1)).reverse.flatMap heard).foldl efuseC2h s =
        ((range' 1 cnt).reverse.flatMap heard).foldl efuseC2h ((heard (cnt+1)).foldl efuseC2h s) := by
      rw [range'_concat,reverse_append,flatMap_append,foldl_append]
      simp [Nat.add_comm]
    rw [looks,waitC2h]
    rw [if_neg (by omega)]
    by_cases done : ((heard (cnt+1)).foldl efuseC2h s).state = .done
    · rw [if_pos done]
      exact ⟨⟨fun _ => ⟨messages_done done _,by omega⟩,fun _ => rfl⟩,fun _ => done⟩
    · rw [if_neg done]
      obtain ⟨found,left⟩ := ih ((heard (cnt+1)).foldl efuseC2h s)
      refine ⟨found.trans ⟨fun both => ⟨both.1,by omega⟩,fun both => ⟨both.1,?_⟩⟩,left⟩
      rcases Nat.eq_zero_or_pos cnt with none | some
      · subst none
        exact absurd both.1 done
      · exact some

theorem efuseC2h_bank (s : EfuseOfld) (valid : Bool) (message : EfuseC2h) :
    efuseC2h {s with phyMapValid:=valid} message = {efuseC2h s message with phyMapValid:=valid} := by
  cases message with
  | rcvAck => simp only [efuseC2h]; split <;> rfl
  | doneAck ret => simp only [efuseC2h]; split <;> rfl
  | dumpEfuse malloc =>
    simp only [efuseC2h]
    split
    · rfl
    · split <;> rfl

theorem messages_bank (messages : List EfuseC2h) (s : EfuseOfld) (valid : Bool) :
    messages.foldl efuseC2h {s with phyMapValid:=valid} = {messages.foldl efuseC2h s with phyMapValid:=valid} := by
  induction messages generalizing s with
  | nil => rfl
  | cons message rest ih => rw [foldl_cons,foldl_cons,efuseC2h_bank,ih]

theorem waitC2h_answered (heard : Nat → List EfuseC2h) (phyMapValid : Bool) :
    ((waitC2h heard efuseFwDumpWaitCnt ⟨.sending,true,phyMapValid⟩).1 ↔ answered heard) ∧
      ((waitC2h heard efuseFwDumpWaitCnt ⟨.sending,true,phyMapValid⟩).1 →
        (waitC2h heard efuseFwDumpWaitCnt ⟨.sending,true,phyMapValid⟩).2.state = .done) := by
  have some : 1 < efuseFwDumpWaitCnt := by decide
  obtain ⟨cnt,count⟩ : ∃ cnt, efuseFwDumpWaitCnt = cnt + 1 := ⟨efuseFwDumpWaitCnt-1,by omega⟩
  unfold answered
  rw [count] at some ⊢
  obtain ⟨found,left⟩ := waitC2h_found heard cnt ⟨.sending,true,phyMapValid⟩
  have state := messages_bank ((range' 1 cnt).reverse.flatMap heard) ⟨.sending,true,false⟩ phyMapValid
  rw [state] at found
  rw [beq_iff_eq]
  exact ⟨found.trans (and_iff_left (by omega)),left⟩

theorem dumpEfuseFw_recovers (ready malloc : Bool) (steps : Steps) (heard : Nat → List EfuseC2h) (mapMalloc : Bool)
    (s : EfuseOfld) :
    ((dumpEfuseFw ready malloc steps heard mapMalloc s).1 ≠ .success →
        (dumpEfuseFw ready malloc steps heard mapMalloc s).2.state = s.state) ↔
      (s.phyMapValid = false → ready = true → s.state = .idle →
        dumpSent malloc steps s = true ∧ (answered heard = true → mapMalloc = true)) := by
  unfold dumpEfuseFw
  cases valid : s.phyMapValid with
  | true => simp
  | false =>
    by_cases taken : ready = true ∧ s.state = .idle
    · obtain ⟨rfl,idle⟩ := taken
      obtain ⟨success,sending,left⟩ := macDumpEfuseOfld_taken malloc steps idle
      simp only [idle,true_implies]
      by_cases sent : dumpSent malloc steps s = true
      · have done := success.mpr sent
        obtain ⟨waited,ended⟩ := waitC2h_answered heard s.phyMapValid
        rw [left done,done]
        by_cases heardDone : answered heard = true
        · have found := waited.mpr heardDone
          have state := ended found
          cases mapMalloc with
          | false => simp [found,heardDone,sent,state]
          | true => simp [found,heardDone,sent,state,macEfuseOfldMap]
        · have lost : (waitC2h heard efuseFwDumpWaitCnt ⟨.sending,true,s.phyMapValid⟩).1 = false :=
            eq_false_iff.mpr fun found => heardDone (waited.mp found)
          simp [lost,heardDone,sent]
      · have failed : (macDumpEfuseOfld true malloc steps s).1 ≠ .success := fun done => sent (success.mp done)
        simp [failed,sent,sending]
    · obtain ⟨failed,same⟩ := macDumpEfuseOfld_refused malloc steps taken
      have never : ready = true → s.state = .idle → False := fun isReady idle => taken ⟨isReady,idle⟩
      simp only [failed,same,ne_eq,not_false_eq_true,if_true,false_eq_true,if_false,implies_true,true_implies,true_iff]
      exact fun isReady idle => (never isReady idle).elim

def Steps.pktTx (op : PktOp) (steps : Steps) : Tx :=
  if !reachesTx op steps then .noPacket else if steps.tx then .ok else .refused

def callSteps (op : PktOp) (name : Nat) (ready : Bool) (steps : Steps) : List PktEvent :=
  [.call op name ready,.go (steps.pktTx op),.go .ok]

theorem pkt_recovers {s after : Pkt} {ret : OfldRet} {taken : Bool}
    (goes : taken → s.state = .idle ∧ ret = (sendPktOfld op steps {s with state:=.sending}).1 ∧
      after = (sendPktOfld op steps {s with state:=.sending}).2) (refused : taken = false → after = s) :
    (ret ≠ .success → after.state = s.state) ↔ (taken → reachesTx op steps) := by
  cases taken with
  | false => simp [refused rfl]
  | true =>
    obtain ⟨idle,rfl,rfl⟩ := goes rfl
    rw [idle]
    simpa using sendPktOfld_recovers op steps (s := {s with state:=.sending}) rfl

theorem recovers_exact (s : OfldSys) (event : OfldEvent) : Recovers s event ↔ Restores s event := by
  cases event with
  | call c =>
    cases c with
    | readPkt id steps =>
      obtain ⟨goes,refused⟩ := macReadPktOfld_cases s.ready id steps s.pkt
      refine pkt_recovers (fun taken => ⟨(goes taken).1,?_,?_⟩) refused
      · exact congrArg fst (goes taken).2
      · exact congrArg snd (goes taken).2
    | delPkt id steps =>
      obtain ⟨goes,refused⟩ := macDelPktOfld_cases s.ready id steps s.pkt
      refine pkt_recovers (fun taken => ⟨(goes taken).1,?_,?_⟩) refused
      · exact congrArg fst (goes taken).2
      · exact congrArg snd (goes taken).2
    | addPkt steps =>
      obtain ⟨goes,refused⟩ := macAddPktOfld_cases s.ready steps s.pkt
      exact pkt_recovers goes refused
    | dumpEfuse malloc steps =>
      simp only [Recovers,Restores,OfldCall.ret,OfldCall.machine,OfldCall.go]
      by_cases taken : s.ready ∧ s.efuse.state = .idle
      · obtain ⟨isReady,idle⟩ := taken
        obtain ⟨success,sending,_⟩ := macDumpEfuseOfld_taken malloc steps idle
        rw [isReady,sending,idle]
        simpa using success
      · obtain ⟨_,same⟩ := macDumpEfuseOfld_refused malloc steps taken
        rw [same]
        exact ⟨fun _ isReady idle => absurd ⟨isReady,idle⟩ taken,fun _ _ => rfl⟩
    | dumpFw malloc steps heard mapMalloc => exact dumpEfuseFw_recovers s.ready malloc steps heard mapMalloc s.efuse
  | _ => exact Iff.rfl

-- In any run, from any state, the calls that fail give the state machines back
-- exactly if each of them fails early or at the transfer.
theorem ofld_recovers_exact (s : OfldSys) (events : List OfldEvent) :
    Admitted ofldStep Recovers s events ↔ Admitted ofldStep Restores s events := by
  induction events generalizing s with
  | nil => exact Iff.rfl
  | cons event rest ih => exact and_congr (recovers_exact s event) (ih _)

-- No buffer for the first packet, and the next one is refused; the same with a
-- dump whose transfer fails.
theorem ofld_stuck :
    ¬ Admitted ofldStep Recovers .init [.fwdl true,.call (.addPkt {alloc := false})] ∧
      (OfldCall.addPkt {}).ret (run ofldStep .init [.fwdl true,.call (.addPkt {alloc := false})]) = .procErr ∧
      ¬ Admitted ofldStep Recovers .init [.fwdl true,.call (.dumpEfuse true {tx := false})] ∧
      (OfldCall.dumpEfuse true {}).ret (run ofldStep .init [.fwdl true,.call (.dumpEfuse true {tx := false})]) = .procErr := by
  refine ⟨?_,by decide,?_,by decide⟩
  · rintro ⟨_,recovers,_⟩
    exact absurd (recovers (by decide)) (by decide)
  · rintro ⟨_,recovers,_⟩
    exact absurd (recovers (by decide)) (by decide)

end Rtl8852au.OfldAck
