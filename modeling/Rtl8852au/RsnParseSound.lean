import Rtl8852au.RsnParse
import Rtl8852au.Fields
import Rtl8852au.ElemSearch

namespace Rtl8852au.Rsn
open Words Attr Memory Scan Fields

def leWord : List U8 → U16
  | [lo,hi] => mk16 hi lo
  | _ => 0

def selector : Format U8 where
  head := rsnSelectorLen
  present := by decide
  tail _ := 0
  fine _ := true
  bare := false

def suites : Format U8 where
  head := 2
  present := by decide
  tail head := rsnSelectorLen * (leWord head).toNat
  fine head := leWord head != 0
  bare := true

def capabilities : Format U8 where
  head := 2
  present := by decide
  tail _ := 0
  fine _ := true
  bare := false

def pmkids : Format U8 where
  head := 2
  present := by decide
  tail head := rsnPmkidLen * (leWord head).toNat
  fine _ := true
  bare := false

def rsnFields : List (Format U8) := [selector,suites,suites,capabilities,pmkids,selector]
abbrev Note := Nat → List U8 → RsneInfo → RsneInfo

def noteGcs : Note := fun pos _ info => { info with gcs:=some pos }
def notePcs : Note := fun pos field info => { info with pcsCnt:=leWord (field.take 2),pcsList:=some (pos+2) }
def noteAkm : Note := fun pos field info => { info with akmCnt:=leWord (field.take 2),akmList:=some (pos+2) }
def noteCap : Note := fun pos _ info => { info with cap:=some pos }
def notePmkid : Note := fun pos field info => { info with pmkidCnt:=leWord (field.take 2),pmkidList:=some (pos+2) }
def noteGmcs : Note := fun pos _ info => { info with gmcs:=some pos }
def notes : List Note := [noteGcs,notePcs,noteAkm,noteCap,notePmkid,noteGmcs]

def recorded : List Note → Nat → List (List U8) → RsneInfo → RsneInfo
  | note :: notes,pos,field :: fields,info => recorded notes (pos+field.length) fields (note pos field info)
  | _,_,_,info => info

variable {ie : Bytes} {ieLen : Nat} {formats : List (Format U8)} {f : Format U8}

def Agrees (ends : Option (List (List U8) × Ending)) (notes : List Note) (pos : Nat) (info : RsneInfo) (p : Parse) : Prop :=
  match ends with
  | none => p.ok = false
  | some (fields,_) => p.ok ∧ p.info = recorded notes pos fields info

def Follows (ie : Bytes) (ieLen : Nat) (formats : List (Format U8)) (notes : List Note) (stage : Nat → RsneInfo → Parse) : Prop :=
  ∀ pos info, pos ≤ ieLen → Inside ieLen (stage pos info).reads ∧
    Agrees (parse formats (bytesAt ie pos (ieLen-pos))) notes pos info (stage pos info)

section
variable {pos count : Nat}

theorem bytesAt_take (buf : Bytes) (pos : Nat) (enough : k ≤ count) : (bytesAt buf pos count).take k = bytesAt buf pos k := by
  obtain ⟨rest,rfl⟩ := Nat.exists_eq_add_of_le enough
  rw [bytesAt_append,List.take_append_of_le_length (by simp),List.take_of_length_le (by simp)]

theorem parse_short (some_ : 0 < count) (short : count < f.head) : parse (f :: formats) (bytesAt ie pos count) = none := by
  unfold parse
  rw [bytesAt_length,if_neg (by omega),if_pos short]

theorem parse_wrong (some_ : 0 < count) (wrong : f.fine (bytesAt ie pos f.head) = false) :
    parse (f :: formats) (bytesAt ie pos count) = none := by
  by_cases short : count < f.head
  · exact parse_short some_ short
  · unfold parse
    rw [bytesAt_take ie pos (by omega),bytesAt_length,if_neg (by omega),if_neg short,if_pos wrong]

theorem parse_cut (fine : f.fine (bytesAt ie pos f.head)) (whole : f.head ≤ count)
    (cut : count < f.head + f.tail (bytesAt ie pos f.head)) :
    parse (f :: formats) (bytesAt ie pos count) = if f.bare ∧ count = f.head then some ([],.bare) else none := by
  have present := f.present
  unfold parse
  rw [bytesAt_take ie pos whole,bytesAt_length,if_neg (by omega),if_neg (by omega),if_neg (by simp [fine]),if_pos cut]

theorem parse_whole (size : Nat) (fine : f.fine (bytesAt ie pos f.head))
    (same : size = f.head + f.tail (bytesAt ie pos f.head)) (whole : size ≤ count) :
    parse (f :: formats) (bytesAt ie pos count) =
      (parse formats (bytesAt ie (pos+size) (count-size))).map fun (fields,ending) => (bytesAt ie pos size :: fields,ending) := by
  have first : (bytesAt ie pos size).take f.head = bytesAt ie pos f.head := bytesAt_take ie pos (by omega)
  have complete : f.Complete (bytesAt ie pos size) := by
    refine ⟨?_,?_⟩
    · rw [first,bytesAt_length,same]
    · rw [first,fine]
  have apart := bytesAt_append ie pos size (count-size)
  rw [Nat.add_sub_cancel' whole] at apart
  rw [apart,parse_field formats complete]
end

theorem agrees_field {note : Note} {notes : List Note} {pos size : Nat}
    {info : RsneInfo} (agrees : Agrees ends notes (pos+size) (note pos (bytesAt ie pos size) info) p) :
    Agrees (ends.map fun (fields,ending) => (bytesAt ie pos size :: fields,ending)) (note :: notes) pos info p := by
  cases ends with
  | none => exact agrees
  | some read =>
    obtain ⟨ok,same⟩ := agrees
    refine ⟨ok,?_⟩
    rw [same]
    simp only [recorded,bytesAt_length]

theorem exit_agrees (notes : List Note) (pos : Nat) (info : RsneInfo) (ending : Ending) :
    Agrees (some ([],ending)) notes pos info (.exit info) := by
  refine ⟨rfl,?_⟩
  cases notes <;> rfl

theorem follows_end : Follows ie ieLen [] [] fun _ info => .exit info := by
  intro pos info _
  refine ⟨inside_nil,?_⟩
  cases bytesAt ie pos (ieLen-pos) with
  | nil => exact exit_agrees [] pos info .clean
  | cons byte rest => exact exit_agrees [] pos info .extra

theorem follows_reading {p : Parse} {pos : Nat} (two : pos + 2 ≤ ieLen) (inside : Inside ieLen p.reads) :
    Inside ieLen (p.reading [pos,pos+1]).reads := by
  refine inside_append.mpr ⟨?_,inside⟩
  intro a member
  simp only [List.mem_cons,List.not_mem_nil,or_false] at member
  omega

theorem room_follows {notes : List Note} {info : RsneInfo} (before : pos ≤ ieLen)
    (empty : f.head = need) (whole : pos + need ≤ ieLen → Inside ieLen next.reads ∧
      Agrees (parse (f :: formats) (bytesAt ie pos (ieLen-pos))) notes pos info next) :
    Inside ieLen (room ieLen pos need info next).reads ∧
      Agrees (parse (f :: formats) (bytesAt ie pos (ieLen-pos))) notes pos info (room ieLen pos need info next) := by
  unfold room
  split
  · rename_i short
    split
    · rename_i left
      rw [parse_short (by omega) (by omega)]
      exact ⟨inside_nil,rfl⟩
    · rename_i none_
      rw [show ieLen - pos = 0 by omega,bytesAt_zero,parse_nil]
      exact ⟨inside_nil,exit_agrees notes pos info .clean⟩
  · rename_i long
    exact whole (by omega)

theorem fixed_follows (note : Note) {notes : List Note} (fixed : ∀ head, f.tail head = 0)
    (fine : ∀ head, f.fine head) (next : Follows ie ieLen formats notes stage) :
    Follows ie ieLen (f :: formats) (note :: notes) fun pos info =>
      room ieLen pos f.head info (stage (pos+f.head) (note pos (bytesAt ie pos f.head) info)) := by
  intro pos info before
  apply room_follows before rfl
  intro enough
  obtain ⟨inside,agrees⟩ := next (pos+f.head) (note pos (bytesAt ie pos f.head) info) enough
  refine ⟨inside,?_⟩
  rw [parse_whole f.head (fine _) (by rw [fixed]; rfl) (by omega),show ieLen - pos - f.head = ieLen - (pos+f.head) by omega]
  exact agrees_field agrees

theorem leWord_at (pos : Nat) : leWord (bytesAt ie pos 2) = getLe16 ie pos := rfl

theorem note_at {pos size : Nat} (two : 2 ≤ size) : leWord ((bytesAt ie pos size).take 2) = getLe16 ie pos := by
  rw [bytesAt_take ie pos two,leWord_at]

theorem suites_follows {notes : List Note} (next : Follows ie ieLen formats notes stage) :
    Follows ie ieLen (suites :: formats) ((fun pos field info => keep info (leWord (field.take 2)) (pos+2)) :: notes)
      (suitesStage ie ieLen keep stage) := by
  intro pos info before
  have head : suites.head = 2 := rfl
  unfold suitesStage
  apply room_follows before head
  intro two
  dsimp only
  by_cases zero : getLe16 ie pos = 0
  · rw [if_pos zero,parse_wrong (by omega) (by simp [suites,leWord_at,zero])]
    exact ⟨follows_reading two inside_nil,rfl⟩
  rw [if_neg zero]
  have fine : suites.fine (bytesAt ie pos suites.head) := by simpa [suites,leWord_at] using zero
  have tail : suites.tail (bytesAt ie pos suites.head) = rsnSelectorLen * (getLe16 ie pos).toNat := by simp [suites,leWord_at]
  unfold room
  split
  · rename_i short
    rw [parse_cut fine (by omega) (by omega)]
    split
    · rename_i left
      rw [if_neg (by omega)]
      exact ⟨follows_reading two inside_nil,rfl⟩
    · rename_i none_
      rw [if_pos ⟨rfl,by omega⟩]
      exact ⟨follows_reading two inside_nil,exit_agrees _ pos info .bare⟩
  · rename_i long
    obtain ⟨inside,agrees⟩ := next (pos + 2 + rsnSelectorLen * (getLe16 ie pos).toNat) (keep info (getLe16 ie pos) (pos+2)) (by omega)
    refine ⟨follows_reading two inside,?_⟩
    rw [parse_whole (2 + rsnSelectorLen * (getLe16 ie pos).toNat) fine (by rw [tail]; rfl) (by omega)]
    rw [show ieLen - pos - (2 + rsnSelectorLen * (getLe16 ie pos).toNat) = ieLen - (pos + 2 + rsnSelectorLen * (getLe16 ie pos).toNat) by omega,
      Nat.add_assoc] at *
    apply agrees_field
    rwa [note_at (by omega)]

theorem gmcs_follows : Follows ie ieLen [selector] [noteGmcs] (gmcsStage ieLen) :=
  fixed_follows noteGmcs (fun _ => rfl) (fun _ => rfl) follows_end

theorem pmkid_follows : Follows ie ieLen [pmkids,selector] [notePmkid,noteGmcs] (pmkidStage ie ieLen) := by
  intro pos info before
  have head : pmkids.head = 2 := rfl
  have fine : pmkids.fine (bytesAt ie pos pmkids.head) := rfl
  have tail : pmkids.tail (bytesAt ie pos pmkids.head) = rsnPmkidLen * (getLe16 ie pos).toNat := rfl
  unfold pmkidStage
  apply room_follows before head
  intro two
  dsimp only
  split
  · rename_i short
    -- A list that is cut off belongs to a count that is not zero.
    have counted : getLe16 ie pos ≠ 0 := by
      intro zero
      have none_ : (getLe16 ie pos).toNat = 0 := by rw [zero]; rfl
      rw [none_] at short
      omega
    rw [parse_cut fine (by omega) (by omega),if_pos (.inr counted),if_neg (by simp [pmkids])]
    exact ⟨follows_reading two inside_nil,rfl⟩
  · rename_i long
    obtain ⟨inside,agrees⟩ := (gmcs_follows : Follows ie ieLen _ _ _) (pos + 2 + rsnPmkidLen * (getLe16 ie pos).toNat)
      { info with pmkidCnt:=getLe16 ie pos,pmkidList:=some (pos+2) } (by omega)
    refine ⟨follows_reading two inside,?_⟩
    rw [parse_whole (2 + rsnPmkidLen * (getLe16 ie pos).toNat) fine (by rw [tail]; rfl) (by omega)]
    rw [show ieLen - pos - (2 + rsnPmkidLen * (getLe16 ie pos).toNat) = ieLen - (pos + 2 + rsnPmkidLen * (getLe16 ie pos).toNat) by omega,
      Nat.add_assoc] at *
    apply agrees_field
    unfold notePmkid
    rwa [note_at (by omega)]

theorem cap_follows : Follows ie ieLen [capabilities,pmkids,selector] [noteCap,notePmkid,noteGmcs] (capStage ie ieLen) :=
  fixed_follows noteCap (fun _ => rfl) (fun _ => rfl) pmkid_follows

theorem akm_follows : Follows ie ieLen [suites,capabilities,pmkids,selector] [noteAkm,noteCap,notePmkid,noteGmcs] (akmStage ie ieLen) :=
  suites_follows cap_follows

theorem pcs_follows : Follows ie ieLen [suites,suites,capabilities,pmkids,selector] [notePcs,noteAkm,noteCap,notePmkid,noteGmcs]
    (pcsStage ie ieLen) :=
  suites_follows akm_follows

theorem gcs_follows : Follows ie ieLen rsnFields notes (gcsStage ie ieLen) :=
  fixed_follows noteGcs (fun _ => rfl) (fun _ => rfl) pcs_follows

def Headed (ie : Bytes) (ieLen : Nat) (version : U16) (body : List U8) : Prop :=
  ∃ len : U8, len.toNat+2 = ieLen ∧ bytesAt ie 0 ieLen = [wlanEidRsn,len,lo8 version,hi8 version] ++ body

theorem headed_unique (one : Headed ie ieLen version body)
    (two : Headed ie ieLen version' body') : version = version' ∧ body = body' := by
  obtain ⟨len,_,bytes⟩ := one
  obtain ⟨len',_,bytes'⟩ := two
  rw [bytes] at bytes'
  simp only [List.cons_append,List.nil_append,List.cons.injEq] at bytes'
  obtain ⟨_,_,low,high,same⟩ := bytes'
  exact ⟨word_bytes low high,same⟩

theorem headed_parse (headed : Headed ie ieLen version body) (low : lo8 version = 1) :
    (rtwRsneInfoParse ie ieLen).ok = (gcsStage ie ieLen 4 {}).ok ∧
    (rtwRsneInfoParse ie ieLen).info = (gcsStage ie ieLen 4 {}).info ∧ 4 ≤ ieLen ∧ bytesAt ie 4 (ieLen-4) = body := by
  obtain ⟨len,length,bytes⟩ := headed
  have four : 4 ≤ ieLen := by
    have lengths := congrArg List.length bytes
    simp only [bytesAt_length,List.length_append,List.length_cons,List.length_nil] at lengths
    omega
  have apart := bytesAt_append ie 0 4 (ieLen-4)
  rw [Nat.add_sub_cancel' four,bytes] at apart
  simp only [bytesAt_cons,bytesAt_zero,List.cons_append,List.nil_append,List.cons.injEq,Nat.zero_add,Nat.reduceAdd] at apart
  obtain ⟨eid,len_,low_,_,rest⟩ := apart
  unfold rtwRsneInfoParse
  rw [if_neg (by unfold rsnHeaderLen; omega),if_neg (by rw [←eid]; simp),if_neg (by rw [←len_]; omega),if_neg (by rw [←low_,low]; decide)]
  exact ⟨rfl,rfl,four,rest.symm⟩

theorem parse_headed (ok : (rtwRsneInfoParse ie ieLen).ok) :
    ∃ version body, lo8 version = 1 ∧ Headed ie ieLen version body := by
  unfold rtwRsneInfoParse at ok
  split at ok
  · cases ok
  rename_i four
  by_cases eid : ie 0 = wlanEidRsn
  swap
  · rw [if_pos eid] at ok
    cases ok
  by_cases len : (ie 1).toNat = ieLen - 2
  swap
  · rw [if_neg (by simpa using eid),if_pos len] at ok
    cases ok
  by_cases low : (ie 2).setWidth 16 = rsnVersionBsd
  swap
  · rw [if_neg (by simpa using eid),if_neg (by simpa using len),if_pos low] at ok
    cases ok
  have one : ie 2 = 1 := by
    apply BitVec.eq_of_toNat_eq
    have same := congrArg BitVec.toNat low
    have small := (ie 2).isLt
    rw [BitVec.toNat_setWidth] at same
    change (ie 2).toNat % 65536 = 1 at same
    change (ie 2).toNat = 1
    omega
  have apart := bytesAt_append ie 0 4 (ieLen-4)
  unfold rsnHeaderLen at four
  rw [Nat.add_sub_cancel' (by omega)] at apart
  refine ⟨mk16 (ie 3) (ie 2),bytesAt ie 4 (ieLen-4),by rw [lo8_mk16,one],ie 1,by omega,?_⟩
  rw [apart,lo8_mk16,hi8_mk16,←eid]
  rfl

theorem parse_inside : Inside ieLen (rtwRsneInfoParse ie ieLen).reads := by
  unfold rtwRsneInfoParse
  split
  · exact inside_nil
  rename_i four
  unfold rsnHeaderLen at four
  have byte : ∀ {i p}, i < 4 → Inside ieLen (Parse.reads p) → Inside ieLen (p.reading [i]).reads := by
    intro i p small inside
    refine inside_append.mpr ⟨?_,inside⟩
    intro a member
    cases List.mem_singleton.mp member
    omega
  apply byte (by omega)
  split
  · exact inside_nil
  apply byte (by omega)
  split
  · exact inside_nil
  apply byte (by omega)
  split
  · exact inside_nil
  obtain ⟨inside,_⟩ := (gcs_follows : Follows ie ieLen _ _ _) 4 {} (by omega)
  exact inside

theorem parse_outcome (headed : Headed ie ieLen version body) (low : lo8 version = 1) :
    Agrees (parse rsnFields body) notes 4 {} (rtwRsneInfoParse ie ieLen) := by
  obtain ⟨sameOk,sameInfo,four,rest⟩ := headed_parse headed low
  obtain ⟨_,agrees⟩ := (gcs_follows : Follows ie ieLen _ _ _) 4 {} four
  rw [rest] at agrees
  unfold Agrees at agrees ⊢
  rwa [sameOk,sameInfo]

theorem accept_reads (headed : Headed ie ieLen version body)
    (low : lo8 version = 1) (reads : Reads rsnFields body fields ending) :
    (rtwRsneInfoParse ie ieLen).ok ∧ (rtwRsneInfoParse ie ieLen).info = recorded notes 4 fields {} := by
  have outcome := parse_outcome headed low
  rwa [parse_complete reads] at outcome

theorem reads_accept (ok : (rtwRsneInfoParse ie ieLen).ok) : ∃ version body fields ending, lo8 version = 1 ∧
    Headed ie ieLen version body ∧ Reads rsnFields body fields ending := by
  obtain ⟨version,body,low,headed⟩ := parse_headed ok
  have outcome := parse_outcome headed low
  cases parsed : parse rsnFields body with
  | none =>
    rw [parsed] at outcome
    exact absurd (ok.symm.trans outcome) (by decide)
  | some read =>
    obtain ⟨fields,ending⟩ := read
    exact ⟨version,body,fields,ending,low,headed,parse_sound parsed⟩

-- An element of the 16-bit version 1 whose body is cut between complete fields.
def RsnElement (ie : Bytes) (ieLen : Nat) (fields : List (List U8)) : Prop :=
  Headed ie ieLen 1 fields.flatten ∧ Cut rsnFields fields

def place (fields : List (List U8)) (i : Nat) : Nat := rsnHeaderLen + (fields.take i).flatten.length

def Listed (fields : List (List U8)) (i unit : Nat) (list : Option Nat) (cnt : U16) : Prop :=
  match fields[i]? with
  | none => list = none ∧ cnt = 0
  | some field => list = some (place fields i + 2) ∧ field.length = 2 + unit*cnt.toNat ∧ cnt = leWord (field.take 2)

def Pointed (fields : List (List U8)) (i : Nat) (pointer : Option Nat) : Prop :=
  pointer = fields[i]?.map fun _ => place fields i

structure Describes (fields : List (List U8)) (info : RsneInfo) : Prop where
  gcs : Pointed fields 0 info.gcs
  pcs : Listed fields 1 rsnSelectorLen info.pcsList info.pcsCnt
  akm : Listed fields 2 rsnSelectorLen info.akmList info.akmCnt
  cap : Pointed fields 3 info.cap
  pmkid : Listed fields 4 rsnPmkidLen info.pmkidList info.pmkidCnt
  gmcs : Pointed fields 5 info.gmcs
  err : info.err = 0

theorem recorded_describes (cut : Cut rsnFields fields) : Describes fields (recorded notes 4 fields {}) := by
  have few := cut.length_le
  have pcs : ∀ field, fields[1]? = some field → field.length = 2 + rsnSelectorLen * (leWord (field.take 2)).toNat := by
    intro field here
    exact (cut.complete (f := suites) rfl here).1
  have akm : ∀ field, fields[2]? = some field → field.length = 2 + rsnSelectorLen * (leWord (field.take 2)).toNat := by
    intro field here
    exact (cut.complete (f := suites) rfl here).1
  have pmkid : ∀ field, fields[4]? = some field → field.length = 2 + rsnPmkidLen * (leWord (field.take 2)).toNat := by
    intro field here
    exact (cut.complete (f := pmkids) rfl here).1
  rcases fields with _ | ⟨first,_ | ⟨second,_ | ⟨third,_ | ⟨fourth,_ | ⟨fifth,_ | ⟨sixth,_ | ⟨seventh,rest⟩⟩⟩⟩⟩⟩⟩
  case cons.cons.cons.cons.cons.cons.cons =>
    simp only [List.length_cons,rsnFields,List.length_nil] at few
    omega
  all_goals
    constructor <;>
      simp_all [Pointed,Listed,recorded,notes,place,noteGcs,notePcs,noteAkm,noteCap,notePmkid,noteGmcs,rsnHeaderLen,Nat.add_assoc]

end Rtl8852au.Rsn
