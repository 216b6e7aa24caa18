import Rtl8852au.RsnParseSound

namespace Rtl8852au.Rsn
open Words Attr Memory Scan Fields List

def suiteOf (last : U8) : List U8 := [0x00,0x0F,0xAC,last]

def suiteBit (table : List (U8 × Nat)) (s : List U8) : U32 :=
  match table.find? fun entry => suiteOf entry.1 = s with
  | some (_,bit) => 1#32 <<< bit
  | none => 0

def cipherSuites : List (U8 × Nat) := [(0,0),(1,1),(2,3),(4,4),(8,5),(9,6),(10,7),(5,2),(6,8),(11,9),(12,10),(13,11)]
def akmSuites : List (U8 × Nat) :=
  [(1,0),(2,1),(3,2),(4,3),(5,4),(6,5),(7,6),(8,7),(9,8),(11,9),(12,10),(14,11),(15,12),(16,13),(17,14)]

def rtwGetRsnCipherSuite : List U8 → U32 := suiteBit cipherSuites
def rtwGetAkmSuiteBitmap : List U8 → U32 := suiteBit akmSuites
def wpaCipherBipCmac128 : U32 := 0x100

structure Wpa2 where
  groupCipher : U32
  pairwiseCipher : U32
  gmcs : U32
  akm : U32
  mfpOpt : U8
  sppOpt : U8

variable (ie : Bytes)

def suiteBits (bit : List U8 → U32) (list cnt : Nat) : U32 :=
  (range cnt).foldl (fun out i => out ||| bit (bytesAt ie (list + 4*i) 4)) 0

def leBitsTo2Byte (pStart bitOffset bitLen : Nat) : U16 := (getLe16 ie pStart >>> bitOffset) &&& bitLenMask16 bitLen
def pointed (pointer : Option Nat) (count : Nat) : List Nat := pointer.elim [] fun pos => span pos count

def suiteReads (info : RsneInfo) : List Nat :=
  pointed info.gcs 4 ++ pointed info.pcsList (4*info.pcsCnt.toNat) ++ pointed info.gmcs 4 ++
    pointed info.akmList (4*info.akmCnt.toNat) ++ pointed info.cap 2

def rtwParseWpa2Ie (ieLen : Nat) : List Nat × Option Wpa2 :=
  let parsed := rtwRsneInfoParse ie ieLen
  let info := parsed.info
  if parsed.ok = false then (parsed.reads,none)
  else
    (parsed.reads ++ suiteReads info,some
      { groupCipher := info.gcs.elim 0 fun pos => rtwGetRsnCipherSuite (bytesAt ie pos 4)
        pairwiseCipher := info.pcsList.elim 0 fun pos => suiteBits ie rtwGetRsnCipherSuite pos info.pcsCnt.toNat
        gmcs := info.gmcs.elim wpaCipherBipCmac128 fun pos => rtwGetRsnCipherSuite (bytesAt ie pos 4)
        akm := info.akmList.elim 0 fun pos => suiteBits ie rtwGetAkmSuiteBitmap pos info.akmCnt.toNat
        mfpOpt := info.cap.elim 0 fun pos => (leBitsTo2Byte ie pos 6 2).setWidth 8
        sppOpt := info.cap.elim 0 fun pos => (leBitsTo2Byte ie pos 10 2).setWidth 8 })

section Inside
variable {ie} {ieLen : Nat} {fields : List (List U8)}

section
variable (whole : 4 + fields.flatten.length ≤ ieLen)
include whole

theorem place_inside (here : fields[i]? = some field) :
    place fields i + field.length ≤ ieLen := by
  obtain ⟨small,rfl⟩ := List.getElem?_eq_some_iff.mp here
  have apart : fields.take i ++ fields[i] :: fields.drop (i+1) = fields := by rw [getElem_cons_drop,take_append_drop]
  have lengths := congrArg (fun l => l.flatten.length) apart
  simp only [flatten_append,flatten_cons,length_append] at lengths
  unfold place rsnHeaderLen
  omega

theorem pointed_inside {i count : Nat} (at_ : Pointed fields i pointer)
    (long : ∀ field, fields[i]? = some field → count ≤ field.length) : Inside ieLen (pointed pointer count) := by
  unfold Pointed at at_
  rw [at_]
  cases here : fields[i]? with
  | none => exact inside_nil
  | some field =>
    have ends := place_inside whole here
    have enough := long field here
    have within : place fields i + count ≤ ieLen := by omega
    exact inside_span.mpr (.inr within)

theorem listed_inside
    (at_ : Listed fields i unit list cnt) : Inside ieLen (pointed list (unit*cnt.toNat)) := by
  unfold Listed at at_
  cases here : fields[i]? with
  | none =>
    rw [here] at at_
    rw [at_.1]
    exact inside_nil
  | some field =>
    rw [here] at at_
    obtain ⟨rfl,length,_⟩ := at_
    have ends := place_inside whole here
    exact inside_span.mpr (.inr (by omega))
end

theorem headed_length {body : List U8} (headed : Headed ie ieLen version body) : 4 + body.length = ieLen := by
  obtain ⟨len,_,bytes⟩ := headed
  have lengths := congrArg length bytes
  simp only [bytesAt_length,length_append,length_cons,length_nil] at lengths
  omega

theorem wpa2_reads_inside (ie : Bytes) (ieLen : Nat) : Inside ieLen (rtwParseWpa2Ie ie ieLen).1 := by
  unfold rtwParseWpa2Ie
  dsimp only
  split
  · exact parse_inside
  rename_i accepted
  have ok : (rtwRsneInfoParse ie ieLen).ok := by simpa using accepted
  obtain ⟨version,body,fields,ending,low,headed,reads⟩ := reads_accept ok
  obtain ⟨_,info⟩ := accept_reads headed low reads
  obtain ⟨cut,front⟩ := reads.front
  have describes := recorded_describes cut
  rw [←info] at describes
  have whole : 4 + fields.flatten.length ≤ ieLen := by
    have shorter := front.length_le
    have length := headed_length headed
    omega
  have selectors : ∀ {i : Nat}, rsnFields[i]? = some selector → ∀ field : List U8, fields[i]? = some field → 4 ≤ field.length := by
    intro i format field here
    exact (cut.complete format here).head_le
  have caps : ∀ field : List U8, fields[3]? = some field → 2 ≤ field.length := by
    intro field here
    exact (cut.complete (f := capabilities) rfl here).head_le
  refine inside_append.mpr ⟨parse_inside,?_⟩
  unfold suiteReads
  simp only [inside_append]
  exact ⟨⟨⟨⟨pointed_inside whole describes.gcs (selectors rfl),listed_inside whole describes.pcs⟩,
    pointed_inside whole describes.gmcs (selectors rfl)⟩,listed_inside whole describes.akm⟩,pointed_inside whole describes.cap caps⟩
end Inside

end Rtl8852au.Rsn
