import Rtl8852au.MccEnable

namespace Rtl8852au.Mcc
open Machine

theorem event_decided (inv : Inv s) (event : Event) : Decided s event (Guard s event) := by
  cases event with
  | enable env curRole =>
    unfold Guard
    dsimp only
    by_cases two : env.chanctxNum = 2
    · rw [if_pos two]
      exact enable_decided inv (if_pos two) rfl
    · rw [if_neg two]
      split
      · rename_i ap
        exact enable_decided inv ((if_neg two).trans (if_pos ap)) rfl
      · rename_i no
        have called : call s (.enable env curRole) = (false,s.mem) := (if_neg two).trans (if_neg no)
        exact .idle inv (fun band => by rw [called]; rfl) trivial
  | disable env specRole => exact disable_decided inv
  | durationChange env info => exact duration_change_decided inv
  | durLimChange env wrole limReq => exact lim_change_decided inv
  | watchdog env band => exact watchdog_decided inv

theorem reached_inv (path : Reached mccStep Guard (origin initMcc) s) : Inv s :=
  path.invariant Inv (inv_origin initMcc) fun _ event inv allowed => ((event_decided inv event).kept allowed).1

-- The guard is exact: with it every state is sound and every failed change leaves
-- the information, and the first step without it breaks one of the two.
theorem mcc_lifecycle (path : Reached mccStep Guard (origin initMcc) s) : Sound s ∧ ∀ event,Kept s event ↔ Guard s event :=
  ⟨(reached_inv path).sound,fun event => (event_decided (reached_inv path) event).exact⟩

def twoStations (group : Option Nat) : Env where
  wrole w := ⟨.station,.band0,w,.on5g,100,some ⟨w+3,100,0⟩⟩
  roleMap _ := 3
  chanctxNum := 2
  apNum := 0
  p2pGoNum := 0
  ldStaNum := 2
  lgStaNum := 0
  roleTimeSlotLim _ := ⟨.none,false,0,0,0,0⟩
  getSetting _ _ := none
  chRfk _ := false
  btcReqSlot := 0
  portsTsf := some (40*tu,0)
  trackTsf := none
  syncTsf := none
  tsfSync := true
  startTsf := some 1000000
  pktOfld _ := true
  mac := ⟨group,fun _ => true,fun _ => true,true,true,true,true,true,true⟩

def enabled : MccCtl := mccStep (origin true) (.enable (twoStations (some 1)) 0)
def longer : DurChangeInfo := ⟨false,.band0,0,50⟩

instance (env : Env) (p : Place) (roleMap curRole : Nat) (i : MccInfo) : Decidable (SlotsFit env p roleMap curRole i) := by
  unfold SlotsFit
  split
  · split
    · infer_instance
    · infer_instance
  · split
    · infer_instance
    · infer_instance
  · infer_instance

theorem enable_allowed : Guard (origin true) (.enable (twoStations (some 1)) 0) := by
  unfold Guard
  dsimp only
  have two : (twoStations (some 1)).chanctxNum = 2 := rfl
  rw [if_pos two]
  exact fun _ _ _ => ⟨by decide +kernel,by decide +kernel⟩

theorem refused_change_allowed : Guard enabled (.durationChange (twoStations none) longer) := by
  have found : mccGetMroleIdxByWrole (enabled.info longer.hwBand) longer.role = some 0 := by decide +kernel
  intro _ _
  have wifi : longer.btRole ≠ true := Bool.false_ne_true
  rw [if_neg wifi,found]
  exact ⟨fun _ => .inl rfl,by decide +kernel⟩

-- An enabled pattern, and a change the firmware refuses.
theorem mcc_lifecycle_two_stations :
    Sound (mccStep enabled (.durationChange (twoStations none) longer)) ∧ (enabled.info .band0).state = .runing :=
  ⟨(mcc_lifecycle ((Reached.start.step enable_allowed).step refused_change_allowed)).1,by decide +kernel⟩

-- The same change accepted: the slots are four, and role_ref points into the frame of
-- the call that is over.
theorem mcc_lifecycle_fails : ¬ ∀ initMcc events,Sound (run mccStep (origin initMcc) events) := by
  intro always
  have sound := always true [.enable (twoStations (some 1)) 0,.durationChange (twoStations (some 1)) longer] .band0
  have slots := (sound.2 (by decide +kernel)).total
  have four : ((run mccStep (origin true) [.enable (twoStations (some 1)) 0,
      .durationChange (twoStations (some 1)) longer]).info .band0).enInfo.pattern.kinds.length = 4 := by decide +kernel
  have two : ((run mccStep (origin true) [.enable (twoStations (some 1)) 0,
      .durationChange (twoStations (some 1)) longer]).info .band0).enInfo.mroleNum = 2 := by decide +kernel
  rw [four,two] at slots
  split at slots
  · cases slots
  · cases slots
end Rtl8852au.Mcc
