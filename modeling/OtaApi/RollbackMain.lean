import OtaApi.RollbackContract

/-!
# `app_main()` keeps its contract

From the boot to the restart, function by function.
-/

namespace OtaApi.Rollback

open Interaction

variable {P D : Type} [DecidableEq P] {E : Platform P D} {b b' : Board P D} {I : Board P D → Prop}

/-- The device has booted, into a confirmed image or into one on trial. -/
def Awake (E : Platform P D) (b : Board P D) : Prop :=
  (∃ r, Stands E b (.settled r)) ∨ ∃ r n, Stands E b (.trial r n)

/-- What `pending_verify` says of the image. -/
structure Judging (E : Platform P D) (pendingVerify : Bool) (b : Board P D) : Prop where
  onTrial : pendingVerify = true → ∃ r n, Stands E b (.trial r n)
  settled : pendingVerify = false → ∃ r, Stands E b (.settled r)

section Lasting

omit [DecidableEq P]

theorem lasting_awake : Lasting (Awake E) := by
  rintro b b' hsame (⟨r, h⟩ | ⟨r, n, h⟩)
  · exact .inl ⟨r, h.same hsame⟩
  · exact .inr ⟨r, n, h.same hsame⟩

theorem lasting_judging (pendingVerify : Bool) : Lasting (Judging E pendingVerify) := by
  intro b b' hsame h
  constructor
  case onTrial =>
    intro hpending
    obtain ⟨r, n, hr⟩ := h.onTrial hpending
    exact ⟨r, n, hr.same hsame⟩
  case settled =>
    intro hpending
    obtain ⟨r, hr⟩ := h.settled hpending
    exact ⟨r, hr.same hsame⟩

theorem lasting_staged : Lasting fun b => ∃ r n, Stands E b (.staged r n) :=
  fun _ _ hsame ⟨r, n, h⟩ => ⟨r, n, h.same hsame⟩

end Lasting

/-! ## The trial run -/

/-- What is read of the state of the running image tells whether it is on trial. -/
theorem statePartition_does {b b' : Board P D} {a : EspErr × ImgState}
    (h : ((contract E).under trialCalls).does b ⟨.otaGetStatePartition, a⟩ b') :
    b.Same b' ∧ (if a.1 ≠ espOk then false else a.2 == .pendingVerify) = b.onTrial E := by
  obtain ⟨reply, hread, hd⟩ := under_trial h
  refine ⟨idle_does rfl hd, ?_⟩
  obtain ⟨fault, hfault, heq⟩ := Option.map_eq_some_iff.mp hd
  by_cases hok : fault = espOk
  · rw [if_neg (not_not.mpr hok)] at heq
    unfold Board.onTrial
    split at heq
    · cases heq
      simp
    · cases heq
      dsimp only
      split <;> rfl
  · -- only the state of an image that is not on trial cannot be read
    rw [if_pos hok] at heq
    cases heq
    have hnot : b.onTrial E = false := by
      simpa [Board.readsTruly, hfault, hok] using hread
    rw [hnot]
    exact if_pos hok

/-- `ota_api_is_on_trial()` tells the truth. -/
theorem otaApiIsOnTrial_triple (hI : Lasting I) :
    ((contract E).under trialCalls).Triple I otaApiIsOnTrial fun r b => I b ∧ r = b.onTrial E := by
  have hask : ((contract E).under trialCalls).Triple I (trialAsk .otaGetStatePartition)
      fun a b => I b ∧ (if a.1 ≠ espOk then false else a.2 == .pendingVerify) = b.onTrial E := by
    refine .ask (fun _ _ => trivial) fun b a b' h hdoes => ?_
    obtain ⟨hsame, hread⟩ := statePartition_does hdoes
    exact ⟨hI b b' hsame h, hread.trans (hsame.onTrial E).symm⟩
  refine hask.bind fun answer => ?_
  obtain ⟨err, state⟩ := answer
  dsimp only
  split
  · rename_i herr
    exact .pure fun b h => by simpa [herr] using h
  · rename_i herr
    exact .pure fun b h => by simpa [herr] using h

/-- A verdict is given on an image that is on trial, with the network as it says. -/
def Judged (E : Platform P D) (network : Bool) (b : Board P D) : Prop :=
  (∃ r n, Stands E b (.trial r n)) ∧ b.network = network

omit [DecidableEq P] in
theorem lasting_judged (network : Bool) : Lasting (Judged E network) :=
  fun _ _ hsame ⟨⟨r, n, h⟩, hn⟩ => ⟨⟨r, n, h.same hsame⟩, hsame.network.trans hn⟩

variable (hdoc : E.Documented)
include hdoc

omit [DecidableEq P] in
theorem Judged.onTrial {network : Bool} (h : Judged E network b) : b.onTrial E = true := by
  obtain ⟨⟨r, n, hr⟩, _⟩ := h
  exact (hr.onTrial_iff hdoc).mpr ⟨r, n, rfl⟩

/-- A confirmation that returns `ESP_OK` has confirmed the image. -/
theorem otaApiTrialConfirm_triple :
    ((contract E).under trialCalls).Triple (Judged E true) (otaApiTrialConfirm none)
      fun err b => err = espOk → Online E b := by
  refine (otaApiIsOnTrial_triple (lasting_judged true)).bind fun onTrial => ?_
  split
  · exact .pure fun b h herr => absurd herr (by decide)
  · refine .ask (fun b h => ⟨h.1.onTrial hdoc, h.1.2⟩) fun b err b' h hdoes herr => ?_
    obtain ⟨reply, _, hd⟩ := under_trial hdoes
    obtain ⟨⟨r, n, hr⟩, hn⟩ := h.1
    obtain ⟨d, hmark, hsettled⟩ := hr.confirmed hdoc
    obtain ⟨hfailed, _⟩ | ⟨_, rfl⟩ := respond_markAppValid hmark hd
    · exact absurd herr hfailed
    · exact ⟨⟨n, hsettled⟩, hn⟩

theorem otaApiTrialReject_triple :
    ((contract E).under trialCalls).Triple (Judged E false) otaApiTrialReject fun _ _ => True :=
  .ask (fun _ h => ⟨h.onTrial hdoc, h.2⟩) fun _ _ _ _ _ => trivial

/-! ## The application -/

omit hdoc in
theorem initializeNvs_triple (hI : Lasting I) :
    (contract E).Triple I initializeNvs fun _ => I := by
  refine (idle_triple hI (Prog.only_ask rfl)).bind fun err => ?_
  split
  · refine (idle_triple hI (Prog.only_ask rfl)).bind fun err => ?_
    refine (espErrorCheck_triple fun _ h _ => h).bind fun _ => ?_
    refine (idle_triple hI (Prog.only_ask rfl)).bind fun err => ?_
    exact espErrorCheck_triple fun _ h _ => h
  · exact espErrorCheck_triple fun _ h _ => h

theorem pendingVerify_triple :
    (contract E).Triple (Awake E) (otaApiIsOnTrial.embed trialCalls) (Judging E) := by
  refine (otaApiIsOnTrial_triple lasting_awake).embed.weaken (fun _ h => h) ?_
  rintro pendingVerify b ⟨hawake, rfl⟩
  constructor
  case onTrial =>
    intro htrial
    obtain ⟨r, h⟩ | h := hawake
    · obtain ⟨_, _, heq⟩ := (h.onTrial_iff hdoc).mp htrial
      cases heq
    · exact h
  case settled =>
    intro htrial
    obtain h | ⟨r, n, h⟩ := hawake
    · exact h
    · rw [(h.onTrial_iff hdoc).mpr ⟨r, n, rfl⟩] at htrial
      cases htrial

omit hdoc in
/-- The network is up exactly when `example_connect()` says so. -/
theorem exampleConnect_triple (pendingVerify : Bool) :
    (contract E).Triple (Judging E pendingVerify) (mainAsk .exampleConnect)
      fun err b => Judging E pendingVerify b ∧ b.network = (err == espOk) := by
  refine .ask (fun _ _ => trivial) fun b err b' h hdoes => ?_
  obtain ⟨reply, _, hd⟩ := hdoes
  have hb' : b' = b.connected err := by
    obtain ⟨_, _, heq⟩ := Option.map_eq_some_iff.mp hd
    cases heq
    rfl
  subst hb'
  constructor
  · constructor
    case onTrial =>
      intro hpending
      obtain ⟨r, n, hr⟩ := h.onTrial hpending
      exact ⟨r, n, hr.congr rfl rfl rfl⟩
    case settled =>
      intro hpending
      obtain ⟨r, hr⟩ := h.settled hpending
      exact ⟨r, hr.congr rfl rfl rfl⟩
  · rfl

/-- Past the verdict the image is confirmed, or the error of the connection is fatal. -/
theorem judgeTrial_triple (pendingVerify : Bool) (connectErr : EspErr) :
    (contract E).Triple (fun b => Judging E pendingVerify b ∧ b.network = (connectErr == espOk))
      (judgeTrial pendingVerify connectErr) fun _ b => connectErr = espOk → Online E b := by
  unfold judgeTrial
  split
  · rename_i hpending
    split
    · rename_i hpassed
      have hok : connectErr = espOk := beq_iff_eq.mp hpassed
      subst hok
      refine .bind (.weaken (otaApiTrialConfirm_triple hdoc).embed ?_ fun _ _ h => h) fun err => ?_
      · exact fun b h => ⟨h.1.onTrial hpending, h.2⟩
      · exact espErrorCheck_triple fun b h herr _ => h herr
    · rename_i hfailed
      have hne : connectErr ≠ espOk := fun hok => hfailed (by simp [runDiagnostic, hok])
      refine .bind (.weaken (otaApiTrialReject_triple hdoc).embed ?_ fun _ _ h => h) fun err => ?_
      · exact fun b h => ⟨h.1.onTrial hpending, h.2.trans (by simp [hne])⟩
      · exact .pure fun b _ hok => absurd hok hne
  · rename_i hpending
    refine .pure fun b h hok => ⟨h.1.settled (by simpa using hpending), ?_⟩
    rw [h.2, hok]
    rfl

omit hdoc in
theorem setPowerSave_triple (hI : Lasting I) (o : Options) :
    (contract E).Triple I (setPowerSave o) fun _ => I := by
  unfold setPowerSave
  split
  · exact (idle_triple hI (Prog.only_ask rfl)).bind fun _ => .pure fun _ h => h
  · exact .pure fun _ h => h

omit hdoc in
theorem stayRunning_triple : (contract E).Triple (Online E) stayRunning fun _ _ => True := by
  have honly : stayRunning.Only fun c => idle c = true := by
    unfold stayRunning Prog.whileCall
    exact ⟨rfl, fun _ _ => trivial, fun _ => trivial⟩
  exact (idle_triple lasting_online honly).weaken (fun _ h => h) fun _ _ _ => trivial

theorem updateAndRestart_triple (o : Options) :
    (contract E).Triple (Online E) (updateAndRestart o) fun _ _ => True := by
  refine (otaApiUpdate_triple hdoc o.build (some o.otaConfig)).embed.bind fun err => ?_
  split
  · rename_i herr
    exact stayRunning_triple.weaken (fun b h => h.kept herr) fun _ _ h => h
  · rename_i hok
    refine .weaken ?_ (fun b h => h.stored (not_not.mp hok)) fun _ _ h => h
    refine (idle_triple lasting_staged (Prog.only_ask rfl)).bind fun _ => ?_
    refine .ask (fun b h => ?_) fun _ never => nomatch never
    obtain ⟨r, n, hr⟩ := h
    exact (hr.replaced_iff hdoc).mpr ⟨r, n, rfl⟩

theorem appMain_triple (o : Options) :
    (contract E).Triple (Awake E) (appMain o) fun _ _ => True := by
  refine (initializeNvs_triple lasting_awake).bind fun _ => ?_
  refine (pendingVerify_triple hdoc).bind fun pendingVerify => ?_
  have hjudging : Lasting (Judging E pendingVerify) := lasting_judging pendingVerify
  refine (idle_triple hjudging (Prog.only_ask rfl)).bind fun err => ?_
  refine (espErrorCheck_triple fun _ h _ => h).bind fun _ => ?_
  refine (idle_triple hjudging (Prog.only_ask rfl)).bind fun err => ?_
  refine (espErrorCheck_triple fun _ h _ => h).bind fun _ => ?_
  refine (exampleConnect_triple pendingVerify).bind fun connectErr => ?_
  refine (judgeTrial_triple hdoc pendingVerify connectErr).bind fun _ => ?_
  refine (espErrorCheck_triple fun _ h hok => h hok).bind fun _ => ?_
  refine (setPowerSave_triple lasting_online o).bind fun _ => ?_
  exact updateAndRestart_triple hdoc o

end OtaApi.Rollback
