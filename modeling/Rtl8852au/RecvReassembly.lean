import Rtl8852au.RecvPort

namespace Rtl8852au.Recv
open Prod

structure Buf where
  rxData : Int
  rxTail : Int
  rxEnd : Int
  len : Nat

-- Each of the three takes its step back when it would cross the other pointer; no
-- caller below looks at the result.
def Buf.pull (b : Buf) (sz : Nat) : Buf :=
  if b.rxTail < b.rxData + sz then b else {b with rxData:=b.rxData + sz,len:=b.len - sz}

def Buf.pullTail (b : Buf) (sz : Nat) : Buf :=
  if b.rxTail - sz < b.rxData then b else {b with rxTail:=b.rxTail - sz,len:=b.len - sz}

def Buf.put (b : Buf) (sz : Nat) : Buf := if b.rxEnd < b.rxTail + sz then b else {b with rxTail:=b.rxTail + sz,len:=b.len + sz}

structure Fragment where
  frame : RecvFrame
  buf : Buf

structure Write where
  at_ : Int
  count : Nat

-- The copy comes before `recvframe_put`, which is the only one to look at `rx_end`.
def attach (prframe next : Fragment) : Write × Fragment :=
  let from_ := next.buf.pull (next.frame.attrib.hdrlen+next.frame.attrib.ivLen)
  let to_ := prframe.buf.pullTail prframe.frame.attrib.icvLen
  (⟨to_.rxTail,from_.len⟩,⟨appendFragment prframe.frame next.frame,to_.put from_.len⟩)

def goesOn (keytrack : UInt32) (curPn curfragnum : Nat) (next : RecvFrame) : Bool :=
  !(next.attrib.encrypt.hasPn && framePn next != curPn+1) && keytrack == next.keytrack && curfragnum == next.attrib.fragNum

def nextPn (curPn : Nat) (next : RecvFrame) : Nat := if next.attrib.encrypt.hasPn then framePn next else curPn

structure Reassembly where
  writes : List Write
  result : Option Fragment

def defragLoop (prframe : Fragment) (curPn curfragnum : Nat) : List Fragment → Reassembly
  | [] => ⟨[],some prframe⟩
  | next :: rest =>
    if goesOn prframe.frame.keytrack curPn curfragnum next.frame then
      let later := defragLoop (attach prframe next).2 (nextPn curPn next.frame) (curfragnum+1) rest
      ⟨(attach prframe next).1 :: later.writes,later.result⟩
    else ⟨[],none⟩

def firstPn (first : RecvFrame) : Nat := if first.attrib.encrypt.hasPn then framePn first else 0

def defragAt : List Fragment → Reassembly
  | [] => ⟨[],none⟩
  | first :: rest => if first.frame.attrib.fragNum != 0 then ⟨[],none⟩ else defragLoop first (firstPn first.frame) 1 rest

def rtwMaxEthPktLen : Nat := 1536
def phlRxHeadroom : Nat := 50

def netbufLen (mfrag : Bool) (fragNum length : Nat) : Nat :=
  if mfrag && fragNum == 0 then if length < rtwMaxEthPktLen then rtwMaxEthPktLen else length else length

def allocSz (moreFrag : Bool) (fragNum length : Nat) : Nat :=
  if moreFrag && fragNum == 0 then if length ≤ 1650 then 1664 else length + 14 else length + 14

-- What `core_alloc_recvframe_pkt` leaves free in front, of an allocation at `data`.
def reserved (qos : Bool) (data : Nat) : Nat := 8 - data % 8 + if qos then 6 else 0

-- The two ways a frame gets its buffer. The bits of the second come from the
-- descriptor of the frame.
inductive RxPath where
  | usb
  | core (qos moreFrag : Bool) (fragNum data : Nat)

section
variable (path : RxPath) (slack : Nat) (f : RecvFrame)

-- The headroom of the USB path is asked for, but `skb_pull` of an empty buffer takes
-- nothing off. The allocator may give `slack` more than it is asked for.
def RxPath.room : Nat :=
  match path with
  | .usb => netbufLen f.attrib.mfrag f.attrib.fragNum f.len + phlRxHeadroom + slack
  | .core qos moreFrag fragNum data => allocSz moreFrag fragNum f.len - reserved qos data + slack

def sized : RecvFrame := {f with room:=path.room slack f}
def placed (at_ : Int) (f : RecvFrame) : Fragment := ⟨f,⟨at_,at_+f.len,at_+f.room,f.len⟩⟩

theorem sized_room : (sized path slack f).len ≤ (sized path slack f).room := by
  cases path with
  | usb =>
    simp only [sized,RxPath.room,netbufLen]
    split
    · split <;> omega
    · omega
  | core qos moreFrag fragNum data =>
    have front : reserved qos data ≤ 14 := by
      unfold reserved
      split <;> omega
    simp only [sized,RxPath.room,allocSz]
    split
    · split <;> omega
    · omega
end

def kept (len icv : Nat) : Nat := if icv ≤ len then len - icv else len
def taken (part : Part) : Nat := if part.head ≤ part.len then part.len - part.head else part.len

theorem Buf.pull_long {b : Buf} {sz : Nat} (long : b.rxData + sz ≤ b.rxTail) :
    b.pull sz = {b with rxData:=b.rxData + sz,len:=b.len - sz} :=
  if_neg (by omega)

theorem Buf.pull_short {b : Buf} {sz : Nat} (short : b.rxTail < b.rxData + sz) : b.pull sz = b := if_pos short

theorem Buf.pullTail_long {b : Buf} {sz : Nat} (long : b.rxData ≤ b.rxTail - sz) :
    b.pullTail sz = {b with rxTail:=b.rxTail - sz,len:=b.len - sz} := if_neg (by omega)

theorem Buf.pullTail_short {b : Buf} {sz : Nat} (short : b.rxTail - sz < b.rxData) : b.pullTail sz = b := if_pos short

theorem Buf.put_room {b : Buf} {sz : Nat} (room : b.rxTail + sz ≤ b.rxEnd) :
    b.put sz = {b with rxTail:=b.rxTail + sz,len:=b.len + sz} :=
  if_neg (by omega)

theorem Buf.put_full {b : Buf} {sz : Nat} (full : b.rxEnd < b.rxTail + sz) : b.put sz = b := if_pos full

theorem pull_placed (at_ : Int) (f : RecvFrame) :
    ((placed at_ f).buf.pull (f.attrib.hdrlen+f.attrib.ivLen)).len = taken (partOf f) := by
  unfold taken partOf
  by_cases long : f.attrib.hdrlen + f.attrib.ivLen ≤ f.len
  · rw [Buf.pull_long (by simp only [placed]; omega),if_pos long]
    rfl
  · rw [Buf.pull_short (by simp only [placed]; omega),if_neg long]
    rfl

theorem pullTail_placed (at_ : Int) (f : RecvFrame) :
    (placed at_ f).buf.pullTail f.attrib.icvLen =
      ⟨at_,at_ + kept f.len f.attrib.icvLen,at_+f.room,kept f.len f.attrib.icvLen⟩ := by
  unfold kept
  by_cases long : f.attrib.icvLen ≤ f.len
  · have tail : at_ + (f.len : Int) - f.attrib.icvLen = at_ + ((f.len - f.attrib.icvLen : Nat) : Int) := by omega
    rw [Buf.pullTail_long (by simp only [placed]; omega),if_pos long,← tail]
    rfl
  · rw [Buf.pullTail_short (by simp only [placed]; omega),if_neg long]
    rfl

theorem appendFragment_lengths (prframe next : RecvFrame) :
    (appendFragment prframe next).len = (if kept prframe.len prframe.attrib.icvLen + taken (partOf next) ≤ prframe.room then
        kept prframe.len prframe.attrib.icvLen + taken (partOf next) else kept prframe.len prframe.attrib.icvLen) ∧
      (appendFragment prframe next).room = prframe.room ∧
      (appendFragment prframe next).attrib.icvLen = next.attrib.icvLen := by
  have from_ : (recvframePull next (next.attrib.hdrlen+next.attrib.ivLen)).len = taken (partOf next) := by
    unfold recvframePull taken partOf
    by_cases long : next.attrib.hdrlen + next.attrib.ivLen ≤ next.len
    · rw [if_pos long,if_pos long]
    · rw [if_neg long,if_neg long]
  have icv : (recvframePull next (next.attrib.hdrlen+next.attrib.ivLen)).attrib = next.attrib := by
    unfold recvframePull
    split <;> rfl
  have to_ : (recvframePullTail prframe prframe.attrib.icvLen).len = kept prframe.len prframe.attrib.icvLen ∧
      (recvframePullTail prframe prframe.attrib.icvLen).room = prframe.room := by
    unfold recvframePullTail kept
    split <;> exact ⟨rfl,rfl⟩
  unfold appendFragment recvframePut
  simp only [from_,icv,to_.1,to_.2]
  split <;> simp only [and_self]

theorem attach_placed (here there : Int) (prframe next : RecvFrame) :
    attach (placed here prframe) (placed there next) =
      (⟨here + kept prframe.len prframe.attrib.icvLen,taken (partOf next)⟩,placed here (appendFragment prframe next)) := by
  obtain ⟨len,room,_⟩ := appendFragment_lengths prframe next
  have from_ : ((placed there next).buf.pull (next.attrib.hdrlen+next.attrib.ivLen)).len = taken (partOf next) :=
    pull_placed there next
  have to_ := pullTail_placed here prframe
  have frames : (placed here prframe).frame = prframe ∧ (placed there next).frame = next := ⟨rfl,rfl⟩
  unfold attach
  simp only [frames.1,frames.2,from_,to_]
  unfold placed
  rw [len,room]
  by_cases fits : kept prframe.len prframe.attrib.icvLen + taken (partOf next) ≤ prframe.room
  · rw [Buf.put_room (by simp only; omega),if_pos fits]
    simp only [Int.natCast_add,Int.add_assoc]
  · rw [Buf.put_full (by simp only; omega),if_neg fits]

theorem goesOn_iff : goesOn keytrack curPn number next ↔
    (next.attrib.encrypt.hasPn && framePn next != curPn+1) = false ∧ keytrack = next.keytrack ∧ number = next.attrib.fragNum := by
  simp only [goesOn,Bool.and_eq_true,Bool.not_eq_true',beq_iff_eq,and_assoc]

theorem joinFragments_cons (prframe next : RecvFrame) (curPn number : Nat) (rest : List RecvFrame) :
    joinFragments prframe curPn number (next :: rest) =
      if goesOn prframe.keytrack curPn number next then
        joinFragments (appendFragment prframe next) (nextPn curPn next) (number+1) rest
      else none := by
  rw [joinFragments]
  by_cases on : goesOn prframe.keytrack curPn number next
  · obtain ⟨pn,keytrack,fragNum⟩ := goesOn_iff.mp on
    rw [if_pos on,if_neg (by simp [pn]),if_neg (by simp [keytrack]),if_neg (by simp [fragNum])]
    rfl
  · rw [if_neg on]
    split
    · rfl
    · split
      · rfl
      · split
        · rfl
        · rename_i pn keytrack fragNum
          exact absurd (goesOn_iff.mpr ⟨by simpa using pn,by simpa using keytrack,by simpa using fragNum⟩) on

theorem defragLoop_result (here : Int) (prframe : RecvFrame) (curPn number : Nat) (rest : List (Int × RecvFrame)) :
    (defragLoop (placed here prframe) curPn number (rest.map fun f => placed f.1 f.2)).result =
      (joinFragments prframe curPn number (rest.map snd)).map (placed here) := by
  induction rest generalizing prframe curPn number with
  | nil => rfl
  | cons next rest ih =>
    simp only [List.map_cons,defragLoop,joinFragments_cons,attach_placed]
    have same : goesOn (placed here prframe).frame.keytrack curPn number (placed next.1 next.2).frame =
        goesOn prframe.keytrack curPn number next.2 := rfl
    rw [same]
    split
    · exact ih _ _ _
    · rfl

def checkedPart (keytrack : UInt32) : Nat → Nat → List RecvFrame → List RecvFrame
  | _,_,[] => []
  | curPn,number,next :: rest =>
    if goesOn keytrack curPn number next then next :: checkedPart keytrack (nextPn curPn next) (number+1) rest else []

-- There is room for each fragment behind what is left of those before it; and, when all
-- of them are joined, each holds its header and IV, and each ICV that is taken off is there.
def FragmentsFit (room : Nat) (all : Prop) : Nat → Nat → List Part → Prop
  | _,_,[] => True
  | len,icv,part :: rest =>
    (all → icv ≤ len ∧ part.head ≤ part.len) ∧ kept len icv + taken part ≤ room ∧
      FragmentsFit room all (kept len icv + taken part) part.icv rest

def Write.Inside (rxEnd : Int) (w : Write) : Prop := ∀ i < w.count, w.at_ + i < rxEnd

theorem inside_iff (here : Int) (below : left ≤ room) :
    Write.Inside (here + (room : Nat)) ⟨here + (left : Nat),count⟩ ↔ left + count ≤ room := by
  constructor
  · intro inside
    cases count with
    | zero => exact below
    | succ last =>
      have final := inside last (Nat.lt_succ_self last)
      simp only at final
      omega
  · intro fits i small
    simp only at small ⊢
    omega

theorem kept_le (len icv : Nat) : kept len icv ≤ len := by
  unfold kept
  split <;> omega

theorem defragLoop_writes (here : Int) (prframe : RecvFrame) (curPn number : Nat) (rest : List (Int × RecvFrame))
    (below : prframe.len ≤ prframe.room) :
    (∀ w ∈ (defragLoop (placed here prframe) curPn number (rest.map fun f => placed f.1 f.2)).writes,
        w.Inside (here+prframe.room)) ↔
      FragmentsFit prframe.room False prframe.len prframe.attrib.icvLen
        ((checkedPart prframe.keytrack curPn number (rest.map snd)).map partOf) := by
  induction rest generalizing prframe curPn number with
  | nil => simp [defragLoop,checkedPart,FragmentsFit]
  | cons next rest ih =>
    have front : kept prframe.len prframe.attrib.icvLen ≤ prframe.room := Nat.le_trans (kept_le _ _) below
    obtain ⟨len,room,icv⟩ := appendFragment_lengths prframe next.2
    have same : goesOn (placed here prframe).frame.keytrack curPn number (placed next.1 next.2).frame =
        goesOn prframe.keytrack curPn number next.2 := rfl
    simp only [List.map_cons,defragLoop,checkedPart,attach_placed,same]
    split
    · simp only [List.mem_cons,forall_eq_or_imp,List.map_cons,FragmentsFit,false_implies,true_and,inside_iff here front]
      apply and_congr_right
      intro fits
      rw [if_pos fits] at len
      have later := ih (appendFragment prframe next.2) (nextPn curPn next.2) (number+1) (by omega)
      rw [len,room,icv,appendFragment_keytrack] at later
      exact later
    · simp [FragmentsFit]

-- All lengths, less header and IV of all but the first fragment, less the ICV of all but
-- the last.
def joinedLen (first : Part) (rest : List Part) : Int :=
  (((first :: rest).map Part.len).sum : Nat) - ((rest.map Part.head).sum : Nat) - (((first :: rest).dropLast.map Part.icv).sum : Nat)

theorem joinedLen_cons (first next : Part) (rest : List Part) :
    joinedLen first (next :: rest) = first.len - first.icv - next.head + joinedLen next rest := by
  simp only [joinedLen,List.map_cons,List.sum_cons,List.dropLast_cons_cons,Int.natCast_add]
  omega

theorem joinedLen_first (first : Part) (rest : List Part) (len : Nat) :
    joinedLen {first with len} rest = joinedLen first rest + len - first.len := by
  cases rest with
  | nil =>
    simp only [joinedLen,List.map_cons,List.map_nil,List.sum_cons,List.sum_nil,List.dropLast_singleton]
    omega
  | cons next rest =>
    simp only [joinedLen_cons]
    omega

-- What stays in the frame because a pull took its step back.
def excess : Nat → Nat → List Part → Nat
  | _,_,[] => 0
  | len,icv,part :: rest =>
    (if icv ≤ len then 0 else icv) + (if part.head ≤ part.len then 0 else part.head) + excess (kept len icv + taken part) part.icv rest

def grown : Nat → Nat → List Part → Nat
  | len,_,[] => len
  | len,icv,part :: rest => grown (kept len icv + taken part) part.icv rest

theorem grown_excess (first : Part) (rest : List Part) :
    (grown first.len first.icv rest : Int) = joinedLen first rest + excess first.len first.icv rest := by
  induction rest generalizing first with
  | nil => simp [grown,joinedLen,excess]
  | cons next rest ih =>
    have later := ih {next with len:=kept first.len first.icv + taken next}
    simp only [joinedLen_first] at later
    have left : (kept first.len first.icv : Int) = first.len - first.icv + (if first.icv ≤ first.len then 0 else first.icv : Nat) := by
      unfold kept
      split <;> omega
    have got : (taken next : Int) = next.len - next.head + (if next.head ≤ next.len then 0 else next.head : Nat) := by
      unfold taken
      split <;> omega
    simp only [grown,excess,joinedLen_cons,later,Int.natCast_add,left,got]
    omega

theorem fragmentsFit_iff (room : Nat) (all : Prop) (len icv : Nat) (parts : List Part) :
    FragmentsFit room all len icv parts ↔ FragmentsFit room False len icv parts ∧ (all → excess len icv parts = 0) := by
  induction parts generalizing len icv with
  | nil => simp [FragmentsFit,excess]
  | cons part rest ih =>
    have none_left : ((if icv ≤ len then 0 else icv) = 0 ↔ icv ≤ len) ∧ ((if part.head ≤ part.len then 0 else part.head) = 0 ↔ part.head ≤ part.len) := by
      constructor <;> split <;> omega
    simp only [FragmentsFit,excess,ih (kept len icv + taken part),Nat.add_eq_zero_iff,none_left.1,none_left.2]
    constructor
    · intro ⟨long,here,later,clean⟩
      exact ⟨⟨False.elim,here,later⟩,fun whole => ⟨long whole,clean whole⟩⟩
    · intro ⟨⟨_,here,later⟩,clean⟩
      exact ⟨fun whole => (clean whole).1,here,later,fun whole => (clean whole).2⟩

section
variable (prframe : RecvFrame) (curPn number : Nat) (rest : List RecvFrame)

theorem joinFragments_length
    (fits : FragmentsFit prframe.room False prframe.len prframe.attrib.icvLen (rest.map partOf))
    (join : joinFragments prframe curPn number rest = some result) :
    result.len = grown prframe.len prframe.attrib.icvLen (rest.map partOf) := by
  induction rest generalizing prframe curPn number with
  | nil =>
    cases join
    rfl
  | cons next rest ih =>
    obtain ⟨len,room,icv⟩ := appendFragment_lengths prframe next
    obtain ⟨_,here,later⟩ := fits
    rw [joinFragments_cons] at join
    split at join
    · rw [if_pos here] at len
      have rest_ := ih (appendFragment prframe next) (nextPn curPn next) (number+1) (by rw [len,room,icv]; exact later) join
      rw [len,icv] at rest_
      exact rest_
    · cases join

theorem joinFragments_checked :
    (joinFragments prframe curPn number rest).isSome ↔ checkedPart prframe.keytrack curPn number rest = rest := by
  induction rest generalizing prframe curPn number with
  | nil => simp [joinFragments,checkedPart]
  | cons next rest ih =>
    rw [joinFragments_cons,checkedPart]
    split
    · rw [ih,appendFragment_keytrack]
      exact ⟨fun same => by rw [same],fun same => (List.cons.inj same).2⟩
    · simp
end

structure StaysInside (first : Fragment) (rest : List RecvFrame) (run : Reassembly) : Prop where
  inside : ∀ w ∈ run.writes, w.Inside first.buf.rxEnd
  agree : ∀ r, run.result = some r → (r.buf.len : Int) = r.buf.rxTail - r.buf.rxData ∧
    (r.buf.len : Int) = joinedLen (partOf first.frame) (rest.map partOf)

theorem defragLoop_inside (here : Int) (first : RecvFrame) (rest : List (Int × RecvFrame)) (curPn number : Nat)
    (below : first.len ≤ first.room) :
    StaysInside (placed here first) (rest.map snd)
        (defragLoop (placed here first) curPn number (rest.map fun f => placed f.1 f.2)) ↔
      FragmentsFit first.room (checkedPart first.keytrack curPn number (rest.map snd) = rest.map snd) first.len
        first.attrib.icvLen ((checkedPart first.keytrack curPn number (rest.map snd)).map partOf) := by
  have writes := defragLoop_writes here first curPn number rest below
  have result := defragLoop_result here first curPn number rest
  have checked := joinFragments_checked first curPn number (rest.map snd)
  have total := grown_excess (partOf first) ((rest.map snd).map partOf)
  rw [fragmentsFit_iff]
  constructor
  · intro stays
    have fits := writes.mp stays.inside
    refine ⟨fits,?_⟩
    intro all
    obtain ⟨joined,join⟩ := Option.isSome_iff_exists.mp (checked.mpr all)
    rw [all] at fits ⊢
    have length := joinFragments_length first curPn number _ fits join
    obtain ⟨_,agree⟩ := stays.agree (placed here joined) (by rw [result,join]; rfl)
    have same : ((placed here joined).buf.len : Int) = grown (partOf first).len (partOf first).icv ((rest.map snd).map partOf) := by
      exact_mod_cast length
    have frame : (placed here first).frame = first := rfl
    rw [same,total,frame] at agree
    have icv : (partOf first).len = first.len ∧ (partOf first).icv = first.attrib.icvLen := ⟨rfl,rfl⟩
    rw [icv.1,icv.2] at agree
    omega
  · intro ⟨fits,whole⟩
    refine ⟨writes.mpr fits,?_⟩
    intro r came
    rw [result] at came
    obtain ⟨joined,join,rfl⟩ := Option.map_eq_some_iff.mp came
    have all := checked.mp (by rw [join]; rfl)
    have clean := whole all
    rw [all] at fits clean
    have length := joinFragments_length first curPn number _ fits join
    have icv : (partOf first).len = first.len ∧ (partOf first).icv = first.attrib.icvLen := ⟨rfl,rfl⟩
    rw [icv.1,icv.2,clean] at total
    have frame : (placed here first).frame = first := rfl
    refine ⟨by simp only [placed]; omega,?_⟩
    rw [frame]
    simp only [placed]
    omega

def FirstHolds (path : RxPath) (slack : Nat) (first : RecvFrame) (rest : List RecvFrame) : Prop :=
  first.attrib.fragNum = 0 →
    FragmentsFit (path.room slack first) (checkedPart first.keytrack (firstPn first) 1 rest = rest) first.len first.attrib.icvLen
      ((checkedPart first.keytrack (firstPn first) 1 rest).map partOf)

theorem recvframe_defrag_inside (path : RxPath) (slack : Nat) (here : Int) (first : RecvFrame) (rest : List (Int × RecvFrame)) :
    StaysInside (placed here (sized path slack first)) (rest.map Prod.snd)
        (defragAt (placed here (sized path slack first) :: rest.map fun f => placed f.1 f.2)) ↔
      FirstHolds path slack first (rest.map Prod.snd) := by
  have call : defragAt (placed here (sized path slack first) :: rest.map fun f => placed f.1 f.2) =
      if first.attrib.fragNum != 0 then ⟨[],none⟩
      else defragLoop (placed here (sized path slack first)) (firstPn first) 1 (rest.map fun f => placed f.1 f.2) := rfl
  rw [call]
  by_cases zero : first.attrib.fragNum = 0
  · rw [if_neg (by simp [zero])]
    have loop := defragLoop_inside here (sized path slack first) rest (firstPn first) 1 (sized_room path slack first)
    exact loop.trans ⟨fun fits _ => fits,fun fits => fits zero⟩
  · rw [if_pos (by simpa using zero)]
    exact ⟨fun _ number => absurd number zero,fun _ => ⟨by simp,by simp⟩⟩

def openFragment (fragNum len : Nat) : RecvFrame where
  id := fragNum
  attrib := {
    toFrDs := 1,fragNum,seqNum := 7,mfrag := fragNum == 0,privacy := false,order := false,qos := false,amsdu := false
    priority := 0,hdrlen := 24,encrypt := .noPrivacy,ivLen := 0,icvLen := 0,bdecrypted := true,icvErr := false
    crcErr := false,ra := 2,ta := 4,dst := 2,src := 6,bssid := 4}
  mpdu := fun _ => 0
  rxData := fun _ => 0
  len := len
  room := len
  rxReq := some fragNum
  hasPkt := true
  hasAdapter := true
  keytrack := 0
  plain := true
  blocked := false

-- Two fragments of 1500 bytes, in a buffer that has 78 bytes more than it was asked for:
-- the second one ends 1312 bytes behind it.
theorem recvframe_defrag_inside_fails :
    ¬ ∀ (path : RxPath) (slack : Nat) (here : Int) (first : RecvFrame) (rest : List (Int × RecvFrame)),
      StaysInside (placed here (sized path slack first)) (rest.map Prod.snd)
        (defragAt (placed here (sized path slack first) :: rest.map fun f => placed f.1 f.2)) := by
  intro claim
  have stays := claim .usb 78 0 (openFragment 0 1500) [(0,openFragment 1 1500)]
  have last := stays.inside ⟨1500,1476⟩ (List.mem_singleton.mpr rfl) 1475 (by decide)
  revert last
  decide

end Rtl8852au.Recv
