import Rtl8852au.RecvDefrag

namespace Rtl8852au.Recv
open Option

def ofBuffers : Note → Bool
  | .alloc _ => true
  | .attach _ _ => true
  | .queue _ _ => true
  | .unqueue _ => true
  | .free _ _ => true
  | .joined _ => true
  | _ => false

theorem foldl_buffers {ρ : Type} {f : ρ → Note → ρ} {notes : List Note} (same : ∀ n, ofBuffers n → ∀ r, f r n = r)
    (buffers : ∀ n ∈ notes, ofBuffers n) (r : ρ) : notes.foldl f r = r := by
  induction notes with
  | nil => rfl
  | cons n rest ih =>
    rw [List.foldl_cons,same n (buffers n (by simp))]
    exact ih fun m member => buffers m (by simp [member])

structure Shuffled (s s' : Rx) : Prop where
  cfg : s'.cfg = s.cfg
  ivSeq : s'.ivSeq = s.ivSeq
  bipRxpn : s'.bipRxpn = s.bipRxpn
  log : ∃ notes, s'.log = s.log ++ notes ∧ ∀ n ∈ notes, ofBuffers n

theorem Shuffled.same (cfg : s'.cfg = s.cfg) (ivSeq : s'.ivSeq = s.ivSeq) (bipRxpn : s'.bipRxpn = s.bipRxpn)
    (log : s'.log = s.log) : Shuffled s s' := ⟨cfg,ivSeq,bipRxpn,[],by simpa using log,by simp⟩

theorem Shuffled.refl (s : Rx) : Shuffled s s := .same rfl rfl rfl rfl

theorem Shuffled.trans (first : Shuffled s t) (second : Shuffled t u) : Shuffled s u := by
  obtain ⟨before,log,ours⟩ := first.log
  obtain ⟨after,log',theirs⟩ := second.log
  refine ⟨second.cfg.trans first.cfg,second.ivSeq.trans first.ivSeq,second.bipRxpn.trans first.bipRxpn,before ++ after,?_,?_⟩
  · rw [log',log,List.append_assoc]
  · intro n member
    rcases List.mem_append.mp member with earlier | later
    · exact ours n earlier
    · exact theirs n later

theorem Shuffled.note (buffers : ofBuffers n) : Shuffled s (s.note n) := ⟨rfl,rfl,rfl,[n],rfl,by simpa using buffers⟩

theorem Shuffled.free : Shuffled s (rtwFreeRecvframe s f) :=
  Shuffled.trans (t := {s.unlink f.id with
    freeQueue := (s.unlink f.id).freeQueue ++ [{f with len:=0,hasPkt:=false}],freeCnt := (s.unlink f.id).freeCnt + 1})
    (.same rfl rfl rfl rfl) (.note rfl)

theorem Shuffled.freeQueue : Shuffled s (rtwFreeRecvframeQueue s queue) := by
  induction queue generalizing s with
  | nil => exact .refl s
  | cons f rest ih => exact Shuffled.free.trans ih

theorem Shuffled.setStation : Shuffled s (s.setStation key sta) := .same rfl rfl rfl rfl
theorem Shuffled.collected : Shuffled s (collected s key sta f) := Shuffled.setStation.trans (.note rfl)

theorem Shuffled.staOp (s : Rx) (op : StaOp) : Shuffled s (staOp s op) := by
  cases op with
  | alloc addr conf =>
    simp only [Recv.staOp,rtwAllocStainfo]
    split
    · exact .refl s
    · exact .setStation
  | free addr =>
    simp only [Recv.staOp,rtwFreeStainfo]
    split
    · exact .refl s
    · exact Shuffled.freeQueue.trans (.same rfl rfl rfl rfl)
  | conf addr conf =>
    simp only [Recv.staOp]
    split
    · exact .refl s
    · exact .setStation
  | key addr =>
    simp only [Recv.staOp]
    split
    · exact .refl s
    · exact .setStation

theorem Shuffled.dispatched : Shuffled s (mgtDispatcher s pkt) := by
  unfold mgtDispatcher
  generalize pkt.dispatched = ops
  induction ops generalizing s with
  | nil => exact .refl s
  | cons op rest ih => exact (Shuffled.staOp s op).trans ih

theorem Shuffled.defrag (defrag : Defrag s f s' state prframe) : Shuffled s s' := by
  have lifted {t : Rx} {key : Addr} {sta : Station} {rest : List RecvFrame} {buffer : Nat} :
      Shuffled t ((setDefragQ t key sta rest).note (.unqueue buffer)) := Shuffled.setStation.trans (.note rfl)
  cases defrag with
  | whole => exact .refl s
  | noQueue => exact .refl s
  | first => exact Shuffled.freeQueue.trans .collected
  | next => exact .collected
  | failed => exact Shuffled.collected.trans (lifted.trans (Shuffled.free.trans .freeQueue))
  | joined => exact Shuffled.collected.trans (lifted.trans (Shuffled.freeQueue.trans (.note rfl)))

theorem Taken.shuffled (taken : Taken s pkt s' f state) : Shuffled s s' := by
  obtain ⟨f0,rest,_,rfl,_⟩ := taken.spec
  refine ⟨rfl,rfl,rfl,[.alloc f0.id,.attach f0.id pkt.req],rfl,?_⟩
  intro n member
  rcases List.mem_cons.mp member with rfl | last
  · rfl
  · rw [List.mem_singleton.mp last]
    rfl

theorem rxStop_shuffled : Shuffled s (rxStop s) := by
  unfold rxStop rtwAllocRecvframe
  cases s.freeQueue with
  | nil => exact .refl s
  | cons f rest =>
    have taken : Shuffled s ({s with freeQueue:=rest,freeCnt:=s.freeCnt - 1}.note (.alloc f.id)) :=
      Shuffled.trans (t := {s with freeQueue:=rest,freeCnt:=s.freeCnt - 1}) (.same rfl rfl rfl rfl) (.note rfl)
    exact taken.trans .free

structure SameConf (s s' : Rx) : Prop where
  cfg : s'.cfg = s.cfg
  stations : ∀ key, (s'.stations key).map Station.conf = (s.stations key).map Station.conf

theorem SameConf.refl (s : Rx) : SameConf s s := ⟨rfl,fun _ => rfl⟩

theorem SameConf.trans (first : SameConf s t) (second : SameConf t u) : SameConf s u :=
  ⟨second.cfg.trans first.cfg,fun key => (second.stations key).trans (first.stations key)⟩

theorem SameConf.note : SameConf s (s.note n) := ⟨rfl,fun _ => rfl⟩

theorem SameConf.setStation (known : s.stations key = some sta) (conf : sta'.conf = sta.conf) :
    SameConf s (s.setStation key sta') := by
  refine ⟨rfl,?_⟩
  intro other
  by_cases same : other = key
  · subst same
    simp [Rx.setStation,known,conf]
  · simp [Rx.setStation,same]

theorem SameConf.free : SameConf s (rtwFreeRecvframe s f) := by
  refine ⟨rfl,?_⟩
  intro key
  have stations : (rtwFreeRecvframe s f).stations key = (s.unlink f.id).stations key := rfl
  rw [stations]
  cases known : s.stations key <;> simp [Rx.unlink,known]

theorem SameConf.freeQueue : SameConf s (rtwFreeRecvframeQueue s queue) := by
  induction queue generalizing s with
  | nil => exact .refl s
  | cons f rest ih => exact SameConf.free.trans ih

theorem SameConf.known (same : SameConf s s') (known : s.stations key = some sta) :
    ∃ sta', s'.stations key = some sta' ∧ sta'.conf = sta.conf := by
  have conf := same.stations key
  rw [known] at conf
  exact map_eq_some_iff.mp conf

theorem SameConf.collected (known : s.stations key = some sta) (conf : sta'.conf = sta.conf) :
    SameConf s (collected s key sta' f) := by
  have set : SameConf s (setDefragQ s key sta' (sta'.defragQ ++ [f])) := .setStation known conf
  exact set.trans .note

theorem collected_known : (collected s key sta f).stations key = some {sta with defragQ:=sta.defragQ ++ [f]} :=
  Function.update_self key _ s.stations

theorem SameConf.lifted (known : s.stations key = some sta) (conf : sta'.conf = sta.conf) :
    SameConf s ((setDefragQ s key sta' rest).note (.unqueue buffer)) := by
  have set : SameConf s (setDefragQ s key sta' rest) := .setStation known conf
  exact set.trans .note

theorem SameConf.blockedNow (same : SameConf s s') (addr : Addr) : blockedNow s' addr = blockedNow s addr := by
  have conf := same.stations (if isMcast addr then s.cfg.selfSta else addr)
  unfold Recv.blockedNow rtwGetStainfo
  rw [same.cfg]
  cases now : s'.stations (if isMcast addr then s.cfg.selfSta else addr) <;>
    cases before : s.stations (if isMcast addr then s.cfg.selfSta else addr) <;> simp_all

theorem SameConf.defrag (defrag : Defrag s f s' state prframe) : SameConf s s' := by
  cases defrag with
  | whole => exact .refl s
  | noQueue => exact .refl s
  | first _ _ found =>
    obtain ⟨sta',known,conf⟩ := SameConf.freeQueue.known (defragQueue_known found)
    exact SameConf.freeQueue.trans (.collected known conf.symm)
  | next _ _ found => exact .collected (defragQueue_known found) rfl
  | @failed key sta first rest _ _ found =>
    have put : SameConf s (Recv.collected s key sta (tracked sta f)) := .collected (defragQueue_known found) rfl
    exact put.trans ((SameConf.lifted collected_known rfl).trans (SameConf.free.trans .freeQueue))
  | @joined key sta first rest _ _ _ found =>
    have put : SameConf s (Recv.collected s key sta (tracked sta f)) := .collected (defragQueue_known found) rfl
    exact put.trans ((SameConf.lifted collected_known rfl).trans (SameConf.freeQueue.trans .note))

structure SameStations (s s' : Rx) : Prop where
  cfg : s'.cfg = s.cfg
  stations : ∀ key, (s'.stations key).map (fun sta => (sta.conf,sta.defragQ)) = (s.stations key).map fun sta => (sta.conf,sta.defragQ)

theorem SameStations.trans (first : SameStations s t) (second : SameStations t u) : SameStations s u :=
  ⟨second.cfg.trans first.cfg,fun key => (second.stations key).trans (first.stations key)⟩

theorem SameStations.conf (same : SameStations s s') : SameConf s s' := by
  refine ⟨same.cfg,?_⟩
  intro key
  have both := congrArg (Option.map Prod.fst) (same.stations key)
  simpa only [map_map,Function.comp_def] using both

theorem SameStations.setStation (known : s.stations key = some sta) (conf : sta'.conf = sta.conf)
    (queue : sta'.defragQ = sta.defragQ) :
    SameStations s (s.setStation key sta') := by
  refine ⟨rfl,?_⟩
  intro other
  by_cases same : other = key
  · subst same
    simp [Rx.setStation,known,conf,queue]
  · simp [Rx.setStation,same]

theorem SameStations.found (same : SameStations s s') (found : rtwGetStainfo s' addr = some (key,sta')) :
    ∃ sta, rtwGetStainfo s addr = some (key,sta) ∧ sta'.conf = sta.conf ∧ sta'.defragQ = sta.defragQ := by
  have both := same.stations (if isMcast addr then s.cfg.selfSta else addr)
  unfold rtwGetStainfo at found ⊢
  simp only [same.cfg,map_eq_some_iff,Prod.mk.injEq] at found
  obtain ⟨now,known,rfl,rfl⟩ := found
  rw [known] at both
  obtain ⟨sta,before,equal⟩ := map_eq_some_iff.mp both.symm
  simp only [Prod.mk.injEq] at equal
  exact ⟨sta,by simp only [before,map_some],equal.1.symm,equal.2.symm⟩

theorem noteAccepted_stations : SameStations s (noteAccepted s f) := by
  unfold noteAccepted
  split <;> exact ⟨rfl,fun _ => rfl⟩

theorem recvUcastPnDecache_conf (fresh : recvUcastPnDecache sta a ptr = some sta') : sta'.conf = sta.conf := by
  unfold recvUcastPnDecache at fresh
  simp only at fresh
  split at fresh
  · cases fresh
  · split at fresh
    · split at fresh
      · cases fresh
        rfl
      · cases fresh
        rfl
    · cases fresh
      rfl

theorem pnDecache_stations (fresh : pnDecache s key sta f = some s') (known : s.stations key = some before)
    (conf : sta.conf = before.conf) (queue : sta.defragQ = before.defragQ) : SameStations s s' := by
  unfold pnDecache at fresh
  split at fresh
  · obtain ⟨ivSeq,_,rfl⟩ := map_eq_some_iff.mp fresh
    have set := SameStations.setStation known conf queue
    exact ⟨rfl,set.stations⟩
  · obtain ⟨sta',kept,rfl⟩ := map_eq_some_iff.mp fresh
    exact .setStation known ((recvUcastPnDecache_conf kept).trans conf) ((recvUcastPnDecache_keeps kept).trans queue)

theorem DataFrame.stations (data : DataFrame s f s' g .success) : SameStations s s' := by
  obtain ⟨key,sta,sta',dst,src,bssid,t,found,fresh,pn,_,_,rfl⟩ := data.success
  obtain ⟨queue,conf,_⟩ := recvDecache_keeps fresh
  exact (pnDecache_stations pn (rtwGetStainfo_spec found).1 conf queue).trans noteAccepted_stations

def Cipher.inSoftware : Cipher → Bool
  | .wep40 => true
  | .wep104 => true
  | .tkip => true
  | .aes => true
  | .ccmp256 => true
  | .gcmp => true
  | .gcmp256 => true
  | _ => false

-- The bytes behind header and IV are those the cipher gave, if it is the driver that decrypts.
def clearBytes (pkt : RxPacket) (cipher : Cipher) : Bytes :=
  if pkt.swDec && cipher.inSoftware then
    fun i => if i < ownHdrlen pkt.mpdu + (setIceIvLen cipher).1 then pkt.mpdu i else pkt.plain.getD pkt.mpdu i
  else pkt.mpdu

structure Arrived (s : Rx) (pkt : RxPacket) (f : RecvFrame) : Prop extends DataOf s pkt f where
  len : f.len = pkt.len
  room : f.room = pkt.room
  plain : f.plain = !getPrivacy pkt.mpdu
  blocked : f.blocked = blockedNow s (getAddr2 pkt.mpdu)
  bytes : f.rxData = clearBytes pkt f.attrib.encrypt

theorem decryptor_clear (done : decryptor pkt f = some g) (bytes : f.rxData = pkt.mpdu)
    (hardware : f.attrib.bdecrypted = !pkt.swDec)
    (hdrlen : f.attrib.hdrlen = ownHdrlen pkt.mpdu) (ivLen : f.attrib.ivLen = (setIceIvLen f.attrib.encrypt).1) :
    g.rxData = clearBytes pkt f.attrib.encrypt := by
  unfold decryptor decrypted at done
  unfold clearBytes
  simp only [bytes,hdrlen,ivLen] at done
  cases driver : pkt.swDec with
  | false =>
    simp only [hardware,driver,Bool.not_false,Bool.true_eq_false,and_false,if_false,some.injEq] at done
    rw [← done]
    simp
  | true =>
    simp only [hardware,driver,Bool.not_true,and_true] at done
    cases cipher : f.attrib.encrypt <;> simp only [cipher,ne_eq,not_true_eq_false,if_false,reduceCtorEq,not_false_eq_true,if_true,
      some.injEq,map_eq_some_iff] at done
    all_goals first
      | (obtain ⟨plain,isPlain,rfl⟩ := done
         simp [Cipher.inSoftware,isPlain])
      | (subst done
         simp [Cipher.inSoftware])

theorem setEncrypt_hardware (cfg : Config) (sta : Station) (a : Attrib) : (setEncrypt cfg sta a).bdecrypted = a.bdecrypted := by
  unfold setEncrypt
  split <;> rfl

theorem Checked.arrived (checked : Checked s pkt s2 f) : Arrived s pkt f ∧ SameStations s s2 ∧
    ∃ key sta sta' a, rtwGetStainfo s (getAddr2 pkt.mpdu) = some (key,sta) ∧ sta'.conf = sta.conf ∧
      OwnAttrib s pkt.mpdu a ∧ a.encrypt = f.attrib.encrypt ∧ plaintextAllowed s.cfg sta' {f with rxData:=pkt.mpdu,attrib:=a} := by
  have data := checked.data.1
  obtain ⟨entered,validated,plain⟩ := checked
  obtain ⟨taken,_,_⟩ := entered
  obtain ⟨f0,rest,queue,rfl,_,_,full⟩ := taken.spec
  cases full rfl
  cases validated with
  | data type result =>
    have ways := dataFrame_ways result
    have stations : SameStations s s2 := SameStations.trans (t := takenFor s pkt f0 rest) ⟨rfl,fun _ => rfl⟩ ways.stations
    obtain ⟨key,sta,sta',dst,src,bssid,t,found,fresh,pn,rfl,allowed,_⟩ := ways.success
    obtain ⟨now,ivSeq,rfl,_⟩ := pnDecache_spec pn
    have conf := (recvDecache_keeps fresh).2.1
    have own := setEncrypt_own (s := takenFor s pkt f0 rest) (f := filled s pkt {f0 with rxReq:=none}) dst src bssid found conf
    have clear := decryptor_clear plain rfl (setEncrypt_hardware _ sta' _) own.hdrlen own.ivLen
    obtain ⟨bytes,_,rfl⟩ := decryptor_spec plain
    refine ⟨⟨data,rfl,rfl,rfl,rfl,clear⟩,stations,key,sta,sta',_,found,conf,?_,rfl,allowed⟩
    exact {own with}
end Rtl8852au.Recv
