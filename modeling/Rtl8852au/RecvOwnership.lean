import Rtl8852au.Custody
import Rtl8852au.RecvDefrag

namespace Rtl8852au.Recv
open Custody List Machine

abbrev FrameBook := Book Nat Addr Nat

def moveOf : Note → Option (Move Nat Addr Nat)
  | .alloc buffer => some (.take buffer)
  | .attach buffer req => some (.attach buffer req)
  | .queue buffer key => some (.put buffer key)
  | .unqueue buffer => some (.lift buffer)
  | .free buffer req => some (.give buffer req)
  | _ => none

def moves (log : List Note) : List (Move Nat Addr Nat) := log.filterMap moveOf

def queueAt (s : Rx) (key : Addr) : List RecvFrame :=
  match s.stations key with
  | some sta => sta.defragQ
  | none => []

def Resides (s : Rx) (hand : Option RecvFrame) (f : RecvFrame) : Place Addr → Prop
  | .home => f ∈ s.freeQueue
  | .hand => hand = some f
  | .at key => f ∈ queueAt s key

structure Kept (s : Rx) (hand : Option RecvFrame) (book : FrameBook) : Prop where
  legal : Legal (moves s.log) book
  places : ∀ f place, Resides s hand f place →
    f.id < nrRecvframe ∧ (book f.id).place = place ∧ (place ≠ .home → (book f.id).token = f.rxReq)
  present : ∀ i < nrRecvframe, ∃ f, f.id = i ∧ Resides s hand f (book i).place
  freeNodup : (s.freeQueue.map RecvFrame.id).Nodup
  queueNodup : ∀ key, ((queueAt s key).map RecvFrame.id).Nodup
  counted : s.freeCnt = s.freeQueue.length
  packets : ∀ key, ∀ f ∈ queueAt s key, f.hasPkt
  alive : s.inProcess = none

def Owned (s : Rx) (hand : Option RecvFrame) : Prop := ∃ book, Kept s hand book

theorem moves_note (s : Rx) (n : Note) : moves (s.note n).log = moves s.log ++ (moveOf n).toList := by
  unfold moves Rx.note
  rw [filterMap_append]
  cases isMove : moveOf n <;> simp [isMove]

theorem queueAt_setStation (s : Rx) (key : Addr) (sta : Station) (other : Addr) :
    queueAt (s.setStation key sta) other = if other = key then sta.defragQ else queueAt s other := by
  unfold queueAt Rx.setStation
  by_cases same : other = key
  · subst same
    simp
  · simp [same]

theorem queueAt_known (known : s.stations key = some sta) : queueAt s key = sta.defragQ := by
  unfold queueAt
  rw [known]

theorem queueAt_unknown (unknown : s.stations key = none) : queueAt s key = [] := by
  unfold queueAt
  rw [unknown]

theorem queueAt_free (s : Rx) (f : RecvFrame) (key : Addr) :
    queueAt (rtwFreeRecvframe s f) key = (queueAt s key).filter fun g => g.id != f.id := by
  have stations : (rtwFreeRecvframe s f).stations key = (s.unlink f.id).stations key := rfl
  unfold queueAt
  rw [stations]
  unfold Rx.unlink
  cases known : s.stations key <;> simp [known]

structure SameFrames (s s' : Rx) : Prop where
  freeQueue : s'.freeQueue = s.freeQueue
  freeCnt : s'.freeCnt = s.freeCnt
  queues : ∀ key, queueAt s' key = queueAt s key
  moves : moves s'.log = moves s.log
  inProcess : s'.inProcess = s.inProcess

theorem SameFrames.refl (s : Rx) : SameFrames s s := ⟨rfl,rfl,fun _ => rfl,rfl,rfl⟩

theorem SameFrames.trans (first : SameFrames s t) (second : SameFrames t u) : SameFrames s u :=
  ⟨second.freeQueue.trans first.freeQueue,second.freeCnt.trans first.freeCnt,fun key => (second.queues key).trans (first.queues key),
    second.moves.trans first.moves,second.inProcess.trans first.inProcess⟩

theorem SameFrames.note (other : moveOf n = none) : SameFrames s (s.note n) :=
  ⟨rfl,rfl,fun _ => rfl,by rw [moves_note,other]; simp,rfl⟩

theorem SameFrames.setStation (kept : sta.defragQ = queueAt s key) : SameFrames s (s.setStation key sta) := by
  refine ⟨rfl,rfl,?_,rfl,rfl⟩
  intro other
  rw [queueAt_setStation]
  split
  · rename_i same
    rw [kept,same]
  · rfl

theorem SameFrames.resides (same : SameFrames s s') (hand : Option RecvFrame) (f : RecvFrame) (place : Place Addr) :
    Resides s' hand f place ↔ Resides s hand f place := by
  cases place with
  | home => simp only [Resides,same.freeQueue]
  | hand => exact Iff.rfl
  | «at» key => simp only [Resides,same.queues]

theorem Owned.same (owned : Owned s hand) (same : SameFrames s s') : Owned s' hand := by
  obtain ⟨book,kept⟩ := owned
  refine ⟨book,?_,?_,?_,?_,?_,?_,?_,same.inProcess.trans kept.alive⟩
  · rw [same.moves]
    exact kept.legal
  · intro f place there
    exact kept.places f place ((same.resides hand f place).mp there)
  · intro i below
    obtain ⟨f,isId,there⟩ := kept.present i below
    exact ⟨f,isId,(same.resides hand f _).mpr there⟩
  · rw [same.freeQueue]
    exact kept.freeNodup
  · intro key
    rw [same.queues]
    exact kept.queueNodup key
  · rw [same.freeCnt,same.freeQueue]
    exact kept.counted
  · intro key f member
    rw [same.queues] at member
    exact kept.packets key f member

theorem Kept.unique (kept : Kept s hand book) (first : Resides s hand f p) (second : Resides s hand g r)
    (same : f.id = g.id) : p = r := by
  rw [← (kept.places f p first).2.1,← (kept.places g r second).2.1,same]

theorem Kept.notHome (kept : Kept s hand book) (there : Resides s hand f place) (out : place ≠ .home) :
    ∀ g ∈ s.freeQueue, g.id ≠ f.id := by
  intro g member same
  exact out (kept.unique there (g := g) (r := .home) member same.symm)

theorem Kept.moved (kept : Kept s hand book) (there : Resides s hand f p) (same : g.id = f.id)
    (resides : ∀ h q, Resides s' hand' h q ↔ (q = r ∧ h = g) ∨ (Resides s hand h q ∧ h.id ≠ f.id))
    (token : r ≠ .home → u = g.rxReq) (legal : Legal (moves s'.log) (enter book f.id ⟨r,u⟩))
    (freeNodup : (s'.freeQueue.map RecvFrame.id).Nodup) (queueNodup : ∀ key, ((queueAt s' key).map RecvFrame.id).Nodup)
    (counted : s'.freeCnt = s'.freeQueue.length) (packets : ∀ key, ∀ f ∈ queueAt s' key, f.hasPkt)
    (alive : s'.inProcess = s.inProcess) : Owned s' hand' := by
  refine ⟨_,legal,?_,?_,freeNodup,queueNodup,counted,packets,alive.trans kept.alive⟩
  · intro h q now
    rcases (resides h q).mp now with ⟨rfl,rfl⟩ | ⟨before,other⟩
    · rw [same,enter_same]
      exact ⟨(kept.places f p there).1,rfl,token⟩
    · rw [enter_other _ _ other]
      exact kept.places h q before
  · intro i below
    by_cases here : i = f.id
    · subst here
      rw [enter_same]
      exact ⟨g,same,(resides g r).mpr (.inl ⟨rfl,rfl⟩)⟩
    · obtain ⟨h,isId,before⟩ := kept.present i below
      rw [enter_other _ _ here]
      exact ⟨h,isId,(resides _ _).mpr (.inr ⟨before,isId ▸ here⟩)⟩

theorem resides_free (same : SameBuffer f g) (left : ∀ h, hand' = some h ↔ hand = some h ∧ h.id ≠ f.id) :
    Resides (rtwFreeRecvframe s g) hand' h place' ↔
      (place' = .home ∧ h = {g with len:=0,hasPkt:=false}) ∨ (Resides s hand h place' ∧ h.id ≠ f.id) := by
  have freeQueue : (rtwFreeRecvframe s g).freeQueue =
      (s.freeQueue.filter fun f => f.id != g.id) ++ [{g with len:=0,hasPkt:=false}] := rfl
  cases place' with
  | home =>
    simp only [Resides,freeQueue,mem_append,mem_filter,mem_singleton,bne_iff_ne,same.id]
    constructor
    · rintro (before | now)
      · exact .inr before
      · exact .inl ⟨trivial,now⟩
    · rintro (⟨_,now⟩ | before)
      · exact .inr now
      · exact .inl before
  | hand => simpa [Resides] using left h
  | «at» key => simp [Resides,queueAt_free,same.id]

theorem Owned.free (owned : Owned s hand) (there : Resides s hand f p) (out : p ≠ .home) (same : SameBuffer f g)
    (left : ∀ h, hand' = some h ↔ hand = some h ∧ h.id ≠ f.id) : Owned (rtwFreeRecvframe s g) hand' := by
  obtain ⟨book,kept⟩ := owned
  obtain ⟨small,isPlace,token⟩ := kept.places f p there
  have notFree := kept.notHome there out
  have freeQueue : (rtwFreeRecvframe s g).freeQueue = s.freeQueue ++ [{g with len:=0,hasPkt:=false}] := by
    have all : (s.freeQueue.filter fun f => f.id != g.id) = s.freeQueue := by
      refine filter_eq_self.mpr ?_
      intro h member
      simpa [same.id] using notFree h member
    have filtered : (rtwFreeRecvframe s g).freeQueue =
        (s.freeQueue.filter fun f => f.id != g.id) ++ [{g with len:=0,hasPkt:=false}] := rfl
    rw [filtered,all]
  have log : moves (rtwFreeRecvframe s g).log = moves s.log ++ [.give f.id f.rxReq] := by
    have noted : moves (rtwFreeRecvframe s g).log = moves s.log ++ (moveOf (.free g.id g.rxReq)).toList := moves_note s _
    rw [noted,same.id,same.rxReq]
    rfl
  refine kept.moved (g := {g with len:=0,hasPkt:=false}) (r := .home) (u := none) there same.id
    (fun h q => resides_free same left) (by simp) ?_ ?_ ?_ ?_ ?_ rfl
  · rw [log]
    refine .step kept.legal ⟨?_,token out⟩
    rw [isPlace]
    exact out
  · rw [freeQueue,map_append,map_singleton]
    refine nodup_append.mpr ⟨kept.freeNodup,by simp,?_⟩
    intro i before j now
    obtain ⟨h,member,rfl⟩ := mem_map.mp before
    rw [mem_singleton.mp now]
    exact same.id ▸ notFree h member
  · intro key
    rw [queueAt_free]
    exact (kept.queueNodup key).sublist (filter_sublist.map _)
  · have counted : (rtwFreeRecvframe s g).freeCnt = s.freeCnt + 1 := rfl
    rw [counted,freeQueue,kept.counted]
    simp
  · intro key h member
    rw [queueAt_free] at member
    exact kept.packets key h (mem_filter.mp member).1

theorem Owned.freeHand (owned : Owned s (some f)) (same : SameBuffer f g) : Owned (rtwFreeRecvframe s g) none := by
  refine owned.free (p := .hand) (f := f) rfl (by simp) same ?_
  intro h
  simp only [reduceCtorEq,Option.some.injEq,false_iff,not_and,ne_eq,Decidable.not_not]
  rintro rfl
  rfl

theorem Owned.freeQueued (owned : Owned s hand) (there : f ∈ queueAt s k) (same : SameBuffer f g) :
    Owned (rtwFreeRecvframe s g) hand := by
  refine owned.free (p := .at k) there (by simp) same ?_
  intro h
  refine ⟨fun held => ⟨held,?_⟩,fun held => held.1⟩
  obtain ⟨book,kept⟩ := owned
  intro clash
  have wrong := kept.unique (f := h) (g := f) (p := .hand) (r := .at k) held there clash
  cases wrong

theorem Owned.freeQueue (owned : Owned s hand) (there : ∀ f ∈ queue, f ∈ queueAt s k) (nodup : (queue.map RecvFrame.id).Nodup) :
    Owned (rtwFreeRecvframeQueue s queue) hand := by
  induction queue generalizing s with
  | nil => exact owned
  | cons f rest ih =>
    obtain ⟨fresh,nodup⟩ := nodup_cons.mp nodup
    refine ih (owned.freeQueued (there f (by simp)) (.refl f)) ?_ nodup
    intro g member
    rw [queueAt_free]
    refine mem_filter.mpr ⟨there g (by simp [member]),?_⟩
    have other : g.id ≠ f.id := fun clash => fresh (clash ▸ mem_map_of_mem member)
    simpa using other

theorem Kept.resides_hand (kept : Kept s (some f) book) (h : RecvFrame) (q : Place Addr) :
    Resides s (some g) h q ↔ (q = .hand ∧ h = g) ∨ (Resides s (some f) h q ∧ h.id ≠ f.id) := by
  constructor
  · intro now
    cases q with
    | hand =>
      cases now
      exact .inl ⟨rfl,rfl⟩
    | home => exact .inr ⟨now,fun clash => by cases kept.unique (f := h) (g := f) (p := .home) (r := .hand) now rfl clash⟩
    | «at» key => exact .inr ⟨now,fun clash => by cases kept.unique (f := h) (g := f) (p := .at key) (r := .hand) now rfl clash⟩
  · rintro (⟨rfl,rfl⟩ | ⟨before,other⟩)
    · rfl
    · cases q with
      | hand =>
        cases before
        exact absurd rfl other
      | home => exact before
      | «at» key => exact before

theorem Owned.regrip (owned : Owned s (some f)) (same : SameBuffer f g) : Owned s (some g) := by
  obtain ⟨book,kept⟩ := owned
  obtain ⟨_,isPlace,token⟩ := kept.places f .hand rfl
  have book_same : enter book f.id ⟨.hand,g.rxReq⟩ = book := by
    funext i
    by_cases here : i = f.id
    · subst here
      rw [enter_same,same.rxReq,← token (by simp),← isPlace]
    · rw [enter_other _ _ here]
  exact kept.moved (f := f) (p := .hand) (r := .hand) rfl same.id kept.resides_hand (fun _ => rfl)
    (by rw [book_same]; exact kept.legal) kept.freeNodup kept.queueNodup kept.counted kept.packets rfl

theorem Owned.attach (owned : Owned s (some f)) (free : f.rxReq = none) (isId : g.id = f.id) (isReq : g.rxReq = some req) :
    Owned (s.note (.attach f.id req)) (some g) := by
  obtain ⟨book,kept⟩ := owned
  obtain ⟨_,isPlace,token⟩ := kept.places f .hand rfl
  refine kept.moved (f := f) (p := .hand) (r := .hand) (u := some req) rfl isId kept.resides_hand (fun _ => isReq.symm) ?_
    kept.freeNodup kept.queueNodup kept.counted kept.packets rfl
  rw [moves_note]
  exact .step kept.legal ⟨isPlace,(token (by simp)).trans free⟩

theorem Owned.alloc (owned : Owned s none) (alloc : rtwAllocRecvframe s = some (f,s')) : Owned s' (some f) ∧ f.rxReq = none := by
  obtain ⟨book,kept⟩ := owned
  unfold rtwAllocRecvframe at alloc
  split at alloc
  · cases alloc
  · rename_i f rest queue
    cases alloc
    have there : Resides s none f .home := by simp [Resides,queue]
    have isPlace := (kept.places f .home there).2.1
    obtain ⟨fresh,nodup⟩ := nodup_cons.mp (show (f.id :: rest.map RecvFrame.id).Nodup by simpa [queue] using kept.freeNodup)
    refine ⟨kept.moved (g := {f with rxReq:=none}) there rfl (r := .hand) (u := none) ?_ (fun _ => rfl) ?_ nodup
      kept.queueNodup ?_ kept.packets rfl,rfl⟩
    · intro h q
      cases q with
      | home =>
        simp only [Resides,Rx.note,queue,mem_cons,reduceCtorEq,false_and,false_or]
        constructor
        · intro later
          exact ⟨.inr later,fun clash => fresh (clash ▸ mem_map_of_mem later)⟩
        · rintro ⟨rfl | later,other⟩
          · exact absurd rfl other
          · exact later
      | hand => simp [Resides,eq_comm]
      | «at» key =>
        simp only [reduceCtorEq,false_and,false_or]
        refine ⟨fun inside => ⟨inside,fun clash => ?_⟩,fun inside => inside.1⟩
        cases kept.unique (f := h) (g := f) (p := .at key) (r := .home) inside there clash
    · rw [moves_note]
      exact .step kept.legal isPlace
    · simp [Rx.note,kept.counted,queue]

theorem Owned.put (owned : Owned s (some f)) (queue : a.defragQ = queueAt s key) (same : SameBuffer f g)
    (hasPkt : g.hasPkt) : Owned (collected s key a g) none := by
  obtain ⟨book,kept⟩ := owned
  obtain ⟨_,isPlace,token⟩ := kept.places f .hand rfl
  have queues (other : Addr) : queueAt (collected s key a g) other = if other = key then queueAt s key ++ [g] else queueAt s other := by
    rw [← queue]
    exact queueAt_setStation s key _ other
  have log : moves (collected s key a g).log = moves s.log ++ [.put f.id key] := by
    rw [← same.id]
    exact moves_note (setDefragQ s key a (a.defragQ ++ [g])) (.queue g.id key)
  refine kept.moved (f := f) (p := .hand) rfl same.id (r := .at key) (u := (book f.id).token) ?_
    (fun _ => (token (by simp)).trans same.rxReq.symm) ?_ kept.freeNodup ?_ kept.counted ?_ rfl
  · intro h q
    cases q with
    | home =>
      simp only [reduceCtorEq,false_and,false_or]
      refine ⟨fun inside => ⟨inside,fun clash => ?_⟩,fun inside => inside.1⟩
      cases kept.unique (f := h) (g := f) (p := .home) (r := .hand) inside rfl clash
    | hand =>
      simp only [Resides,reduceCtorEq,false_and,false_or,Option.some.injEq,false_iff,not_and,ne_eq,Decidable.not_not]
      rintro rfl
      rfl
    | «at» other =>
      have elsewhere (inside : h ∈ queueAt s other) : h.id ≠ f.id := by
        intro clash
        cases kept.unique (f := h) (g := f) (p := .at other) (r := .hand) inside rfl clash
      simp only [Resides,queues,Place.at.injEq]
      by_cases here : other = key
      · subst here
        simp only [if_true,mem_append,mem_singleton,true_and]
        constructor
        · rintro (before | now)
          · exact .inr ⟨before,elsewhere before⟩
          · exact .inl now
        · rintro (now | before)
          · exact .inr now
          · exact .inl before.1
      · simp only [here,if_false,false_and,false_or]
        exact ⟨fun inside => ⟨inside,elsewhere inside⟩,fun inside => inside.1⟩
  · rw [log]
    exact .step kept.legal isPlace
  · intro other
    rw [queues]
    split
    · rw [map_append,map_singleton]
      refine nodup_append.mpr ⟨kept.queueNodup key,by simp,?_⟩
      intro i before j now
      obtain ⟨h,member,rfl⟩ := mem_map.mp before
      rw [mem_singleton.mp now,same.id]
      intro clash
      cases kept.unique (f := h) (g := f) (p := .at key) (r := .hand) member rfl clash
    · exact kept.queueNodup other
  · intro other h member
    rw [queues] at member
    split at member
    · rcases mem_append.mp member with before | now
      · exact kept.packets key h before
      · rw [mem_singleton.mp now]
        exact hasPkt
    · exact kept.packets other h member

theorem Owned.lift (owned : Owned s none) (queue : queueAt s key = first :: rest) :
    Owned ((setDefragQ s key a rest).note (.unqueue first.id)) (some first) := by
  obtain ⟨book,kept⟩ := owned
  have there : Resides s none first (.at key) := by simp [Resides,queue]
  obtain ⟨_,isPlace,token⟩ := kept.places first (.at key) there
  have queues (other : Addr) : queueAt ((setDefragQ s key a rest).note (.unqueue first.id)) other =
      if other = key then rest else queueAt s other := queueAt_setStation s key _ other
  obtain ⟨fresh,nodup⟩ := nodup_cons.mp (show (first.id :: rest.map RecvFrame.id).Nodup by simpa [queue] using kept.queueNodup key)
  refine kept.moved there rfl (r := .hand) (u := (book first.id).token) ?_ (fun _ => token (by simp)) ?_ kept.freeNodup ?_
    kept.counted ?_ rfl
  · intro h q
    cases q with
    | home =>
      simp only [reduceCtorEq,false_and,false_or]
      refine ⟨fun inside => ⟨inside,fun clash => ?_⟩,fun inside => inside.1⟩
      cases kept.unique (f := h) (g := first) (p := .home) (r := .at key) inside there clash
    | hand => simp [Resides,eq_comm]
    | «at» other =>
      simp only [Resides,queues,reduceCtorEq,false_and,false_or]
      split
      · rename_i here
        rw [here,queue]
        constructor
        · intro later
          exact ⟨mem_cons_of_mem _ later,fun clash => fresh (clash ▸ mem_map_of_mem later)⟩
        · rintro ⟨inside,different⟩
          rcases mem_cons.mp inside with rfl | later
          · exact absurd rfl different
          · exact later
      · rename_i elsewhere
        refine ⟨fun inside => ⟨inside,fun clash => ?_⟩,fun inside => inside.1⟩
        cases kept.unique (f := h) (g := first) (p := .at other) (r := .at key) inside there clash
        exact elsewhere rfl
  · have log := moves_note (setDefragQ s key a rest) (.unqueue first.id)
    rw [log]
    exact .step kept.legal ⟨key,isPlace⟩
  · intro other
    rw [queues]
    split
    · exact nodup
    · exact kept.queueNodup other
  · intro other h member
    rw [queues] at member
    split at member
    · exact kept.packets key h (queue ▸ mem_cons_of_mem _ member)
    · exact kept.packets other h member

theorem DataFrame.sameFrames (data : DataFrame s f s' g ret) : SameFrames s s' := by
  have decached {key : Addr} {sta sta' : Station} {a : Attrib} {addr : Addr} (found : rtwGetStainfo s addr = some (key,sta))
      (fresh : recvDecache sta a = some sta') : sta'.defragQ = queueAt s key := by
    rw [queueAt_known (rtwGetStainfo_spec found).1]
    exact (recvDecache_keeps fresh).1
  have checked {key : Addr} {sta' : Station} {h : RecvFrame} {t : Rx} (queue : sta'.defragQ = queueAt s key)
      (pn : pnDecache s key sta' h = some t) : SameFrames s t := by
    obtain ⟨now,ivSeq,rfl,same⟩ := pnDecache_spec pn
    have set := SameFrames.setStation (same.trans queue)
    exact {set with}
  cases data with
  | refused => exact .refl s
  | repeated found _ fresh => exact .setStation (decached found fresh)
  | plaintext found _ fresh pn => exact checked (decached found fresh) pn
  | accepted found _ fresh pn =>
    refine (checked (decached found fresh) pn).trans ?_
    rcases noteAccepted_ways _ g with same | ⟨_,_,same⟩ <;> rw [same]
    · exact .refl _
    · exact .note rfl

theorem Protected.sameFrames (checked : Protected s pkt f s' g ret) : SameFrames s s' := by
  rcases checked.ways with rfl | ⟨_,rfl⟩
  · exact .refl _
  · exact SameFrames.trans (t := {s with bipRxpn:=mmeIpn s.cfg f}) ⟨rfl,rfl,fun _ => rfl,rfl,rfl⟩ (.note rfl)

theorem delivered_sameFrames : SameFrames s (delivered s f ethTypes) := by
  refine ⟨rfl,rfl,fun _ => rfl,?_,rfl⟩
  simp only [moves,delivered,filterMap_append,filterMap_map]
  simp [moveOf,Function.comp_def]

theorem queueAt_freed (s : Rx) (key : Addr) : queueAt (rtwFreeRecvframeQueue s (queueAt s key)) key = [] := by
  cases known : (rtwFreeRecvframeQueue s (queueAt s key)).stations key with
  | none => exact queueAt_unknown known
  | some sta =>
    rw [queueAt_known known]
    refine eq_nil_iff_forall_not_mem.mpr ?_
    intro f member
    refine freeQueue_emptied known member ?_ rfl
    intro before there g inside
    rwa [queueAt_known there]

theorem Owned.freeAll (owned : Owned s hand) (key : Addr) : Owned (rtwFreeRecvframeQueue s (queueAt s key)) hand := by
  obtain ⟨book,kept⟩ := owned
  exact Owned.freeQueue ⟨book,kept⟩ (fun _ member => member) (kept.queueNodup key)

theorem Owned.staOp (owned : Owned s hand) (op : StaOp) : Owned (staOp s op) hand := by
  cases op with
  | alloc addr conf =>
    simp only [Recv.staOp,rtwAllocStainfo]
    split
    · exact owned
    · rename_i unknown
      exact owned.same (.setStation (queueAt_unknown unknown).symm)
  | free addr =>
    simp only [Recv.staOp,rtwFreeStainfo]
    split
    · exact owned
    · rename_i sta known
      have freed := owned.freeAll addr
      have empty := queueAt_freed s addr
      rw [queueAt_known known] at freed empty
      refine freed.same ⟨rfl,rfl,?_,rfl,rfl⟩
      intro key
      by_cases here : key = addr
      · subst here
        rw [empty]
        simp [queueAt]
      · simp [queueAt,here]
  | conf addr conf =>
    simp only [Recv.staOp]
    split
    · exact owned
    · rename_i known
      exact owned.same (.setStation (queueAt_known known).symm)
  | key addr =>
    simp only [Recv.staOp]
    split
    · exact owned
    · rename_i known
      exact owned.same (.setStation (queueAt_known known).symm)

theorem Owned.dispatched (owned : Owned s hand) (pkt : RxPacket) : Owned (mgtDispatcher s pkt) hand := by
  unfold mgtDispatcher
  generalize pkt.dispatched = ops
  induction ops generalizing s with
  | nil => exact owned
  | cons op rest ih => exact ih (owned.staOp op)

theorem queueAt_collected : queueAt (collected s key sta g) key = sta.defragQ ++ [g] :=
  (queueAt_setStation s key _ key).trans (if_pos rfl)

theorem queueAt_collected_mem : g ∈ queueAt (collected s key sta g) key := by
  rw [queueAt_collected]
  simp

theorem Owned.queueIds (owned : Owned s hand) (queue : queueAt s key = first :: rest) :
    first.id ∉ rest.map RecvFrame.id ∧ (rest.map RecvFrame.id).Nodup := by
  obtain ⟨book,kept⟩ := owned
  have nodup := kept.queueNodup key
  rw [queue,map_cons] at nodup
  exact nodup_cons.mp nodup

theorem Owned.freeRest (owned : Owned s hand) (queue : queueAt s key = rest) : Owned (rtwFreeRecvframeQueue s rest) hand := by
  subst queue
  exact owned.freeAll key

theorem queueAt_lifted : queueAt ((setDefragQ s key sta rest).note (.unqueue buffer)) key = rest :=
  (queueAt_setStation s key _ key).trans (if_pos rfl)

theorem Owned.defrag (owned : Owned s (some f)) (hasPkt : f.hasPkt) (defrag : Defrag s f s' state prframe) :
    Owned s' (if state = .defrag then none else prframe) ∧ ∀ p, prframe = some p → p.hasPkt := by
  have collectedIn {key : Addr} {sta : Station} (found : defragQueue s f = some (key,sta)) :
      Owned (collected s key sta (tracked sta f)) none ∧
        queueAt (collected s key sta (tracked sta f)) key = sta.defragQ ++ [tracked sta f] := by
    have queue := (queueAt_known (defragQueue_known found)).symm
    exact ⟨owned.put queue ⟨rfl,rfl⟩ hasPkt,queueAt_collected⟩
  cases defrag with
  | whole => exact ⟨by simpa using owned,by simp [hasPkt]⟩
  | noQueue => exact ⟨by simpa using owned,by simp [hasPkt]⟩
  | @first key sta more number found =>
    refine ⟨?_,by simp [tracked,hasPkt]⟩
    have queue := queueAt_known (defragQueue_known found)
    have freed := owned.freeAll key
    have empty := queueAt_freed s key
    rw [queue] at freed empty
    simpa using freed.put (a := {sta with defragQ:=[]}) (g := tracked sta f) empty.symm ⟨rfl,rfl⟩ hasPkt
  | next more number found => exact ⟨by simpa using (collectedIn found).1,by simp [tracked,hasPkt]⟩
  | @failed key sta first rest more number found queue =>
    refine ⟨?_,by simp⟩
    obtain ⟨inQueue,whole⟩ := collectedIn found
    have freed := (inQueue.lift (a := {sta with defragQ:=first :: rest}) (whole.trans queue)).freeHand (.refl first)
    refine freed.freeQueue (k := key) ?_ (inQueue.queueIds (whole.trans queue)).2
    intro g member
    rw [queueAt_free,queueAt_lifted]
    refine mem_filter.mpr ⟨member,?_⟩
    have other : g.id ≠ first.id := fun clash => (inQueue.queueIds (whole.trans queue)).1 (clash ▸ mem_map_of_mem member)
    simpa using other
  | @joined key sta first rest prframe more number found queue start join =>
    obtain ⟨inQueue,whole⟩ := collectedIn found
    have same := joinFragments_same join
    have lifted := inQueue.lift (a := {sta with defragQ:=first :: rest}) (whole.trans queue)
    refine ⟨?_,?_⟩
    · exact ((lifted.freeRest queueAt_lifted).same (.note rfl)).regrip same.toSameBuffer
    · intro p isFrame
      cases isFrame
      obtain ⟨book,kept⟩ := inQueue
      rw [same.hasPkt]
      exact kept.packets key first (by rw [whole,queue]; simp)

theorem Owned.defragMgnt (owned : Owned s (some f)) (hasPkt : f.hasPkt) (defrag : Defrag s f s' state prframe)
    (notLast : f.attrib.mfrag = false → f.attrib.fragNum ≠ 0 → defragQueue s f = none) :
    Owned (rtwFreeRecvframe s' f) none ∧ (state = .continue_ → Owned s' (some f)) := by
  have moved := owned.defrag hasPkt defrag
  cases defrag with
  | whole => exact ⟨owned.freeHand (.refl f),fun _ => owned⟩
  | noQueue => exact ⟨owned.freeHand (.refl f),fun _ => owned⟩
  | @first key sta more number found =>
    refine ⟨moved.1.freeQueued (k := key) (f := tracked sta f) queueAt_collected_mem ⟨rfl,rfl⟩,by simp⟩
  | @next key sta more number found =>
    refine ⟨moved.1.freeQueued (k := key) (f := tracked sta f) queueAt_collected_mem ⟨rfl,rfl⟩,by simp⟩
  | failed more number found =>
    rw [notLast more number] at found
    cases found
  | joined more number found =>
    rw [notLast more number] at found
    cases found

theorem Owned.take (owned : Owned s none) (taken : Taken s pkt s' f state) : Owned s' (some f) := by
  obtain ⟨alloc,update⟩ := taken
  obtain ⟨held,free⟩ := owned.alloc alloc
  unfold rtwCoreUpdateRecvframe at update
  simp only at update
  split at update
  · cases update
    exact held.attach free rfl rfl
  · split at update
    · cases update
      exact held.attach free rfl rfl
    · split at update
      · cases update
        exact held.attach free rfl rfl
      · cases update
        exact held.attach free rfl rfl

theorem Entered.hasPkt (entered : Entered s pkt s1 f1) : f1.hasPkt := by
  obtain ⟨taken,_,_⟩ := entered
  obtain ⟨f0,rest,_,_,_,_,full⟩ := taken.spec
  rw [full rfl]
  rfl

theorem Owned.enter (owned : Owned s none) (entered : Entered s pkt s1 f1) : Owned s1 (some f1) := by
  obtain ⟨taken,_,_⟩ := entered
  exact owned.take taken

theorem Owned.invalid (owned : Owned s none) (entered : Entered s pkt s1 f1) (once : mgntLast s pkt = none)
    (validated : Validated s1 pkt f1 s2 f2 ret) : Owned (rtwFreeRecvframe s2 f2) none := by
  have same := validated.same
  have grip := (owned.enter entered).regrip same.toSameBuffer
  have hasPkt : f2.hasPkt := same.hasPkt.trans entered.hasPkt
  cases validated with
  | refused => exact grip.freeHand (.refl f2)
  | mgnt version type protection defrag =>
    have held := grip.same (mgmtProtect_ways protection).sameFrames
    refine (held.defragMgnt hasPkt (chkDefrag_ways defrag) ?_).1
    intro more number
    rw [← mgntLast_eq entered version type protection more number,once]
  | dispatched version type protection defrag =>
    have held := grip.same (mgmtProtect_ways protection).sameFrames
    have after := (held.defragMgnt hasPkt (chkDefrag_ways defrag) (by
      intro more number
      rw [← mgntLast_eq entered version type protection more number,once])).2 rfl
    exact ((after.same (.note rfl)).dispatched pkt).freeHand (.refl f2)
  | data type result => exact (grip.same (dataFrame_ways result).sameFrames).freeHand (.refl f2)

theorem Owned.checked (owned : Owned s none) (checked : Checked s pkt s2 f) : Owned s2 (some f) ∧ f.hasPkt := by
  obtain ⟨entered,validated,plain⟩ := checked
  have same := validated.same.trans (decryptor_same plain)
  refine ⟨?_,same.hasPkt.trans entered.hasPkt⟩
  cases validated with
  | data type result => exact ((owned.enter entered).same (dataFrame_ways result).sameFrames).regrip same.toSameBuffer

def Settled (s : Rx) : Prop := Owned {s with inProcess:=none} s.inProcess

theorem Owned.settled (owned : Owned s none) : Settled s := by
  obtain ⟨book,kept⟩ := owned
  unfold Settled
  rw [kept.alive]
  have same : {s with inProcess:=none} = s := by rw [← kept.alive]
  rw [same]
  exact ⟨book,kept⟩

theorem Owned.round (owned : Owned s none) (once : mgntLast s pkt = none) (round : Round s pkt s') : Settled s' := by
  cases round with
  | noBuffer => exact owned.settled
  | died taken =>
    have held := owned.take taken
    unfold Settled
    exact held.same ⟨rfl,rfl,fun _ => rfl,rfl,by obtain ⟨_,kept⟩ := held; exact kept.alive.symm⟩
  | refused taken => exact ((owned.take taken).freeHand (.refl _)).settled
  | invalid entered validated => exact (owned.invalid entered once validated).settled
  | queued checked defrag =>
    obtain ⟨held,hasPkt⟩ := owned.checked checked
    exact (by simpa using (held.defrag hasPkt (chkDefrag_ways defrag)).1 : Owned s' none).settled
  | @dropped s2 f s3 state prframe g checked defrag other same =>
    obtain ⟨held,hasPkt⟩ := owned.checked checked
    have after := (held.defrag hasPkt (chkDefrag_ways defrag)).1
    rw [if_neg other] at after
    cases prframe with
    | none => exact after.settled
    | some p => exact (after.freeHand (same p rfl)).settled
  | delivered checked defrag passed _ same =>
    obtain ⟨held,hasPkt⟩ := owned.checked checked
    have after := (held.defrag hasPkt (chkDefrag_ways defrag)).1
    exact ((after.same delivered_sameFrames).freeHand (passed.same.toSameBuffer.trans same)).settled
  | twice checked defrag noPkt =>
    obtain ⟨held,hasPkt⟩ := owned.checked checked
    have packet := (held.defrag hasPkt (chkDefrag_ways defrag)).2 _ rfl
    rw [noPkt] at packet
    cases packet

def freesOnce (s : Rx) : Event → Bool
  | .rx pkt => (mgntLast s pkt).isNone
  | _ => true

def Holds (s : Rx) (i req : Nat) : Prop :=
  ∃ f place, f.id = i ∧ f.rxReq = some req ∧ place ≠ .home ∧ Resides s s.inProcess f place

structure Accounted (s : Rx) : Prop where
  onePlace : ∀ i < nrRecvframe, ∃! place, ∃ f, f.id = i ∧ Resides s s.inProcess f place
  onceInList : (s.freeQueue.map RecvFrame.id).Nodup ∧ ∀ key, ((queueAt s key).map RecvFrame.id).Nodup
  everyMove : ∃ book, Legal (moves s.log) book
  freed : ∀ i < nrRecvframe, (moves s.log).countP (isTake i) =
    (moves s.log).countP (isGive i) + (if i ∈ s.freeQueue.map RecvFrame.id then 0 else 1)
  returned : ∀ i < nrRecvframe, ∀ req,
    (Holds s i req ∧ (moves s.log).countP (isAttach i req) = (moves s.log).countP (isReturn i req) + 1) ∨
      (¬Holds s i req ∧ (moves s.log).countP (isAttach i req) = (moves s.log).countP (isReturn i req))
  counted : s.freeCnt = s.freeQueue.length

theorem Settled.accounted (settled : Settled s) : Accounted s := by
  obtain ⟨book,kept⟩ := settled
  have resides (f : RecvFrame) (place : Place Addr) : Resides {s with inProcess:=none} s.inProcess f place ↔
      Resides s s.inProcess f place := by cases place <;> exact Iff.rfl
  refine ⟨?_,⟨kept.freeNodup,kept.queueNodup⟩,⟨book,kept.legal⟩,?_,?_,kept.counted⟩
  · intro i below
    obtain ⟨f,isId,there⟩ := kept.present i below
    refine ⟨(book i).place,⟨f,isId,(resides _ _).mp there⟩,?_⟩
    rintro place ⟨g,isId',there'⟩
    rw [← isId']
    exact ((kept.places g place ((resides _ _).mpr there')).2.1).symm
  · intro i below
    obtain ⟨f,isId,there⟩ := kept.present i below
    have level : (book i).place.out = if i ∈ s.freeQueue.map RecvFrame.id then 0 else 1 := by
      split
      · rename_i free
        obtain ⟨g,member,isId'⟩ := mem_map.mp free
        rw [← isId',(kept.places g .home member).2.1]
        rfl
      · rename_i notFree
        refine Place.out_of_ne ?_
        intro home
        rw [home] at there
        exact notFree (isId ▸ mem_map_of_mem there)
    rw [← level]
    exact kept.legal.given i
  · intro i below req
    obtain ⟨f,isId,there⟩ := kept.present i below
    have balance := kept.legal.returned i req
    have tied : Holds s i req ↔ (book i).token = some req := by
      constructor
      · rintro ⟨g,place,isId',isReq,out,inside⟩
        have token := (kept.places g place ((resides _ _).mpr inside)).2.2 out
        rw [← isId',token,isReq]
      · intro token
        have out : (book i).place ≠ .home := by
          intro home
          have untied := kept.legal.untied i home
          rw [untied] at token
          cases token
        have isReq := (kept.places f _ there).2.2 out
        rw [isId,token] at isReq
        exact ⟨f,_,isId,isReq.symm,out,(resides _ _).mp there⟩
    by_cases holds : Holds s i req
    · rw [if_pos (tied.mp holds)] at balance
      exact .inl ⟨holds,balance⟩
    · rw [if_neg (fun token => holds (tied.mpr token))] at balance
      exact .inr ⟨holds,balance⟩

theorem Settled.owned (settled : Settled s) (alive : s.inProcess = none) : Owned s none := by
  unfold Settled at settled
  have same : {s with inProcess:=none} = s := by rw [← alive]
  rwa [same,alive] at settled

theorem rxStep_settled (settled : Settled s) (once : freesOnce s event) : Settled (rxStep s event) := by
  unfold rxStep
  split
  · exact settled
  · rename_i alive
    have owned := settled.owned alive
    cases event with
    | rx pkt => exact owned.round (by simpa [freesOnce] using once) rtwCoreRxProcess_ways
    | rxStop =>
      simp only [rxStop]
      rcases alloc : rtwAllocRecvframe s with _ | ⟨f,t⟩
      · exact settled
      · exact ((owned.alloc alloc).1.freeHand (.refl f)).settled
    | sta op => exact (owned.staOp op).settled
    | config cfg =>
      have same : SameFrames s {s with cfg} := ⟨rfl,rfl,fun _ => rfl,rfl,rfl⟩
      exact (owned.same same).settled
    | groupKey keyId alg seq =>
      have noted := owned.same (SameFrames.note (n := .groupKey keyId) rfl)
      have same : SameFrames (s.note (.groupKey keyId)) (setGroupKey s keyId alg seq) := ⟨rfl,rfl,fun _ => rfl,rfl,rfl⟩
      exact (noted.same same).settled
    | bipKey keyId seq =>
      have noted := owned.same (SameFrames.note (n := .bipKey) rfl)
      have same : SameFrames (s.note .bipKey) (setBipKey s keyId seq) := ⟨rfl,rfl,fun _ => rfl,rfl,rfl⟩
      exact (noted.same same).settled

theorem rtwInitRecvPriv_settled (cfg : Config) : Settled (rtwInitRecvPriv cfg) := by
  refine Owned.settled ⟨idle,.start,?_,?_,?_,by simp [queueAt,rtwInitRecvPriv],?_,by simp [queueAt,rtwInitRecvPriv],rfl⟩
  · intro f place there
    cases place with
    | home =>
      obtain ⟨i,below,rfl⟩ := mem_map.mp there
      exact ⟨mem_range.mp below,rfl,by simp⟩
    | hand => cases there
    | «at» key => cases there
  · intro i below
    exact ⟨blankFrame i,rfl,mem_map_of_mem (mem_range.mpr below)⟩
  · simp only [rtwInitRecvPriv,map_map]
    exact nodup_range.map (f := RecvFrame.id ∘ blankFrame) fun _ _ same => same
  · simp [rtwInitRecvPriv]

-- In a run in which no management frame ends a row of fragments every buffer
-- and every request is accounted for.
theorem recv_frames_accounted (path : Machine.Reached rxStep (fun s event => freesOnce s event = true) (rtwInitRecvPriv cfg) s) :
    Accounted s :=
  Settled.accounted (path.invariant Settled (rtwInitRecvPriv_settled cfg) fun _ _ settled once => rxStep_settled settled once)

theorem recv_frames_accounted_run : Accounted (Machine.run rxStep (rtwInitRecvPriv openCfg) (twoFragments 1)) :=
  recv_frames_accounted (Machine.Reached.start.run (by decide +kernel))

-- A beacon that calls itself the last fragment: the buffer is freed by
-- defragmentation and once more at the end of the round.
def fragmentedBeacon (req : Nat) : RxPacket :=
  plainPacket req ([0x80,0,0,0] ++ [0x10,0,0,0,0,0] ++ [0x20,0,0,0,0,0] ++ [0x20,0,0,0,0,0] ++ [0x11,0] ++ [0,0,0,0,0,0,0,0])

def beaconRun : List Event := [.sta (.alloc 0x10 openConf),.sta (.alloc 0x20 openConf),.rx (fragmentedBeacon 1)]

theorem recv_frames_unaccounted : ¬∀ cfg s, Machine.Reached rxStep (fun _ _ => True) (rtwInitRecvPriv cfg) s → Accounted s := by
  intro all
  have path : Machine.Reached rxStep (fun _ _ => True) (rtwInitRecvPriv openCfg)
      (run rxStep (rtwInitRecvPriv openCfg) beaconRun) :=
    Machine.Reached.start.run (by simp [Machine.Admitted,beaconRun])
  have counted := (all openCfg _ path).counted
  have differ : (run rxStep (rtwInitRecvPriv openCfg) beaconRun).freeCnt ≠
      (run rxStep (rtwInitRecvPriv openCfg) beaconRun).freeQueue.length := by decide +kernel
  exact differ counted
end Rtl8852au.Recv
