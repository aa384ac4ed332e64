import OtaApi.Basic
import OtaApi.Connection

/-!
# What the basic application starts

`app_main()` brings the device up step by step, each when the one before has gone well,
and creates one task, whose configuration is that of the build. What it has been told on
the way is kept as an account, and every call is in its place by this account.
-/

namespace OtaApi.Basic

open Interaction CText

/-- How far the device has been brought up. -/
inductive Stage where
  | powered | storage | interfaces | events | network | started
  deriving DecidableEq, Repr

/-- What `app_main()` has been told so far: the hash that was read last, the interface
that was found, and what was typed. -/
structure Seen where
  stage : Stage
  hash : Option Sha256
  bound : Option Netif
  typed : Option (List Char)

def Seen.initial : Seen := ⟨.powered, none, none, none⟩

/-- The next stage, if the call has gone well. -/
def Seen.advance (s : Seen) (err : EspErr) (stage : Stage) : Seen :=
  if err = espOk then { s with stage := stage } else s

def Seen.after (s : Seen) : MainEvent → Seen
  | ⟨.common .nvsFlashInit, err⟩ => s.advance err .storage
  | ⟨.common .netifInit, err⟩ => s.advance err .interfaces
  | ⟨.common .eventLoopCreateDefault, err⟩ => s.advance err .events
  | ⟨.common .exampleConnect, err⟩ => s.advance err .network
  | ⟨.common (.ota (.taskCreate _ _ _)), created⟩ =>
    if created then { s with stage := .started } else s
  | ⟨.partitionGetSha256 _, (_, sha256)⟩ => { s with hash := some sha256 }
  | ⟨.getExampleNetifFromDesc _, netif⟩ => { s with bound := netif }
  | ⟨.stdin, typed⟩ => { s with typed := some typed }
  | _ => s

/-- The URL of the build, or what `readUrl` makes of what was typed. -/
def Chosen (o : Options) (s : Seen) (url : String) : Prop :=
  if o.exampleFirmwareUpgradeUrlFromStdin then
    ∃ stdin urlBuf, s.typed = some stdin ∧ readUrl stdin = some urlBuf ∧ url = urlBuf.str.text
  else url = o.exampleFirmwareUpgradeUrl

/-- The configuration is made of what the build says and what was found. -/
structure Configured (o : Options) (s : Seen) (config : OtaApiConfig) : Prop where
  made : ∃ url, Chosen o s url ∧ config = o.otaConfig s.bound url
  bound : s.bound.isSome = o.exampleFirmwareUpgradeBindIf.isSome

/-- When each call is in its place. -/
def May (o : Options) (s : Seen) : MainCall → Prop
  | .common .nvsFlashInit => s.stage = .powered
  | .common .nvsFlashErase => s.stage = .powered
  | .common .netifInit => s.stage = .storage
  | .common .eventLoopCreateDefault => s.stage = .interfaces
  | .common .exampleConnect => s.stage = .events
  | .common .wifiSetPs => s.stage = .network ∧ o.exampleConnectWifi = true
  | .common (.taskDelay _) => s.stage = .started
  | .common .abort => s.stage ≠ .started
  | .common (.trial _) => False
  | .common (.ota .malloc) => s.stage = .network
  | .common (.ota .free) => s.stage = .network
  | .common (.ota (.taskCreate size priority config)) =>
    s.stage = .network ∧ size = o.build.otaApiTaskStackSize ∧
      priority = o.build.otaApiTaskPriority ∧ Configured o s config
  | .common (.ota _) => False
  | .partitionGetSha256 _ => s.stage = .storage
  | .frame => s.stage = .storage
  | .logi _ text =>
    ∃ sha256, s.hash = some sha256 ∧ text.chars = sha256.bytes.flatMap hexByte
  | .getExampleNetifFromDesc bindIf =>
    s.stage = .network ∧ o.exampleFirmwareUpgradeBindIf = some bindIf
  | .configureStdinStdout => s.stage = .network ∧ o.exampleFirmwareUpgradeUrlFromStdin = true
  | .stdin => s.stage = .network ∧ o.exampleFirmwareUpgradeUrlFromStdin = true
  | .outOfBounds =>
    ∃ stdin, s.typed = some stdin ∧ lineOf stdin = [] ∧ stdin.head? ≠ some '\n'

/-- The calls of `app_main()`, with the account of what they answered. -/
def contract (o : Options) : Contract MainCall MainAnswer Seen := .tracking Seen.after (May o)

section Triples

variable {o : Options} {I : Seen → Prop}

/-- At a stage, with the interface that was found. -/
def At (stage : Stage) (bound : Option Netif) (s : Seen) : Prop :=
  s.stage = stage ∧ s.bound = bound

/-- An error leaves the device where it is. -/
structure Told (stage next : Stage) (bound : Option Netif) (err : EspErr) (s : Seen) : Prop where
  failed : err ≠ espOk → At stage bound s
  done : err = espOk → At next bound s

theorem At.told {stage : Stage} {bound : Option Netif} {s : Seen} (hs : At stage bound s)
    (next : Stage) (err : EspErr) : Told stage next bound err (s.advance err next) := by
  unfold Seen.advance
  by_cases hok : err = espOk
  · rw [if_pos hok]
    exact ⟨fun hne => absurd hok hne, fun _ => ⟨rfl, hs.2⟩⟩
  · rw [if_neg hok]
    exact ⟨fun _ => hs, fun h => absurd h hok⟩

theorem espErrorCheck_under {err : EspErr} {J : Seen → Prop}
    (hfailed : ∀ s, I s → err ≠ espOk → s.stage ≠ .started) (h : ∀ s, I s → err = espOk → J s) :
    ((contract o).under commonCalls).Triple I (Rollback.espErrorCheck err) fun _ => J :=
  Rollback.espErrorCheck_rule hfailed h

theorem told_under {err : EspErr} {stage next : Stage} {bound : Option Netif}
    (hnot : stage ≠ .started) :
    ((contract o).under commonCalls).Triple (Told stage next bound err) (Rollback.espErrorCheck err)
      fun _ => At next bound := by
  refine espErrorCheck_under (fun s hs hne => ?_) fun s hs hok => hs.done hok
  rw [(hs.failed hne).1]
  exact hnot

/-- A checked call takes the device to the next stage. -/
theorem advance_triple {c : Rollback.MainCall} {stage next : Stage} {bound : Option Netif}
    {err : Rollback.MainAnswer c → EspErr} (hnot : stage ≠ .started)
    (hmay : ∀ s, At stage bound s → May o s (.common c))
    (hafter : ∀ s a, Seen.after s ⟨.common c, a⟩ = s.advance (err a) next) :
    (contract o).Triple (At stage bound) (mainAsk (.common c) >>= fun a => espErrorCheck (err a))
      fun _ => At next bound := by
  have hcall : (contract o).Triple (At stage bound) (mainAsk (.common c)) fun a =>
      Told stage next bound (err a) := by
    refine .ask hmay fun s a s' hs hdoes => ?_
    obtain rfl : s' = Seen.after s ⟨.common c, a⟩ := hdoes
    rw [hafter]
    exact hs.told next (err a)
  exact hcall.bind fun a => (told_under hnot).embed

/-- A call that tells the account nothing leaves every stage. -/
theorem untold_triple {c : MainCall} (hmay : ∀ s, I s → May o s c)
    (hafter : ∀ s a, Seen.after s ⟨c, a⟩ = s) : (contract o).Triple I (mainAsk c) fun _ => I := by
  refine .ask hmay fun s a s' hs hdoes => ?_
  obtain rfl : s' = Seen.after s ⟨c, a⟩ := hdoes
  rw [hafter]
  exact hs

/-- NVS is initialised, at the first or at the second try. -/
theorem initializeNvs_triple :
    (contract o).Triple (At .powered none) (Rollback.initializeNvs.embed commonCalls)
      fun _ => At .storage none := by
  have hinit : ((contract o).under commonCalls).Triple (At .powered none)
      (Rollback.mainAsk .nvsFlashInit) (Told .powered .storage none) := by
    refine .askUnder (fun s hs => hs.1) fun s err s' hs hdoes => ?_
    obtain rfl : s' = Seen.after s ⟨_, err⟩ := hdoes
    exact hs.told .storage err
  have herase : ((contract o).under commonCalls).Triple (At .powered none)
      (Rollback.mainAsk .nvsFlashErase) fun _ => At .powered none := by
    refine .askUnder (fun s hs => hs.1) fun s err s' hs hdoes => ?_
    obtain rfl : s' = Seen.after s ⟨_, err⟩ := hdoes
    exact hs
  refine .embed (hinit.bind fun err => ?_)
  split
  · rename_i herr
    -- these two errors are erased with what is stored
    have hne : err ≠ espOk := by
      rintro rfl
      revert herr
      decide
    have hpowered : ∀ s, Told .powered .storage none err s → At .powered none s :=
      fun s hs => hs.failed hne
    refine (herase.weaken hpowered fun _ _ h => h).bind fun err => ?_
    have hcheck : ((contract o).under commonCalls).Triple (At .powered none)
        (Rollback.espErrorCheck err) fun _ => At .powered none := by
      refine espErrorCheck_under (fun s hs _ => ?_) fun _ hs _ => hs
      rw [hs.1]
      decide
    exact hcheck.bind fun _ => hinit.bind fun err => told_under (by decide)
  · exact told_under (by decide)

theorem printSha256_triple (label : String) (sha256 : Sha256) :
    (contract o).Triple (fun s => At .storage none s ∧ s.hash = some sha256)
      (printSha256 sha256 label) fun _ => At .storage none := by
  have hframe : (contract o).Triple (fun s => At .storage none s ∧ s.hash = some sha256)
      (mainAsk .frame) fun _ s => At .storage none s ∧ s.hash = some sha256 :=
    untold_triple (fun s hs => hs.1.1) fun _ _ => rfl
  refine hframe.bind fun frame => ?_
  have hlogi : (contract o).Triple (fun s => At .storage none s ∧ s.hash = some sha256)
      (mainAsk (.logi label (hashPrint frame sha256).str)) fun _ s =>
        At .storage none s ∧ s.hash = some sha256 :=
    untold_triple (fun s hs => ⟨sha256, hs.2, hashPrint_chars frame sha256⟩) fun _ _ => rfl
  exact hlogi.bind fun _ => .pure fun s hs => hs.1

theorem getSha256OfPartitions_triple :
    (contract o).Triple (At .storage none) getSha256OfPartitions fun _ => At .storage none := by
  have hread (region : Region) : (contract o).Triple (At .storage none)
      (mainAsk (.partitionGetSha256 region)) fun answer s =>
        At .storage none s ∧ s.hash = some answer.2 := by
    refine .ask (fun s hs => hs.1) fun s a s' hs hdoes => ?_
    obtain rfl : s' = Seen.after s ⟨_, a⟩ := hdoes
    exact ⟨hs, rfl⟩
  refine (hread .bootloader).bind fun answer => ?_
  refine (printSha256_triple _ answer.2).bind fun _ => ?_
  exact (hread .running).bind fun answer => printSha256_triple _ answer.2

theorem setPowerSave_triple :
    (contract o).Triple (At .network none) (setPowerSave o) fun _ => At .network none := by
  unfold setPowerSave
  split
  · rename_i hwifi
    have hcall : (contract o).Triple (At .network none) (mainAsk (.common .wifiSetPs))
        fun _ => At .network none := untold_triple (fun s hs => ⟨hs.1, hwifi⟩) fun _ _ => rfl
    exact hcall.bind fun _ => .pure fun _ hs => hs
  · exact .pure fun _ hs => hs

theorem abort_triple {α : Type} {post : α → Seen → Prop} {k : Empty → MainProgram α}
    (h : ∀ s, I s → s.stage ≠ .started) :
    (contract o).Triple I (mainAsk (.common .abort) >>= k) post := by
  have habort : (contract o).Triple I (mainAsk (.common .abort)) fun _ _ => False :=
    .ask h fun _ never => nomatch never
  exact habort.bind fun never => nomatch never

/-- The interface is found if there is one to be found. -/
theorem chooseNetif_triple :
    (contract o).Triple (At .network none) (chooseNetif o) fun bound s =>
      At .network bound s ∧ bound.isSome = o.exampleFirmwareUpgradeBindIf.isSome := by
  unfold chooseNetif
  split
  · rename_i hno
    exact .pure fun s hs => ⟨hs, by rw [hno]; rfl⟩
  · rename_i bindIf hbind
    have hfind : (contract o).Triple (At .network none) (mainAsk (.getExampleNetifFromDesc bindIf))
        fun bound => At .network bound := by
      refine .ask (fun s hs => ⟨hs.1, hbind⟩) fun s a s' hs hdoes => ?_
      obtain rfl : s' = Seen.after s ⟨_, a⟩ := hdoes
      exact ⟨hs.1, rfl⟩
    refine hfind.bind fun bound => ?_
    split
    · refine abort_triple fun s hs => ?_
      rw [hs.1]
      decide
    · rename_i hfound
      refine .pure fun s hs => ⟨hs, ?_⟩
      rw [hbind]
      exact Option.isSome_iff_ne_none.mpr hfound

/-- The URL is the build's, or what was typed. -/
theorem chooseUrl_triple {bound : Option Netif} :
    (contract o).Triple (At .network bound) (chooseUrl o) fun url s =>
      At .network bound s ∧ Chosen o s url := by
  unfold chooseUrl
  split
  case isFalse hbuild =>
    exact .pure fun s hs => ⟨hs, by rw [Chosen, if_neg hbuild]⟩
  case isTrue htyped =>
    rw [if_pos (o.fromStdin_iff.mp htyped)]
    have hconfigure : (contract o).Triple (At .network bound) (mainAsk .configureStdinStdout)
        fun _ => At .network bound := untold_triple (fun s hs => ⟨hs.1, htyped⟩) fun _ _ => rfl
    have hread : (contract o).Triple (At .network bound) (mainAsk .stdin) fun stdin s =>
        At .network bound s ∧ s.typed = some stdin := by
      refine .ask (fun s hs => ⟨hs.1, htyped⟩) fun s a s' hs hdoes => ?_
      obtain rfl : s' = Seen.after s ⟨_, a⟩ := hdoes
      exact ⟨hs, rfl⟩
    refine hconfigure.bind fun _ => hread.bind fun stdin => ?_
    split
    · rename_i urlBuf hurl
      refine .pure fun s hs => ⟨hs.1, ?_⟩
      rw [Chosen, if_pos htyped]
      exact ⟨stdin, urlBuf, hs.2, hurl, rfl⟩
    · rename_i hnone
      have hstray : (contract o).Triple (fun s => At .network bound s ∧ s.typed = some stdin)
          (mainAsk .outOfBounds) fun _ _ => False := by
        refine .ask (fun s hs => ⟨stdin, hs.2, ?_⟩) fun _ never => nomatch never
        exact (url_read stdin).undefined.mp hnone
      exact hstray.bind fun never => nomatch never

/-- The task is created with the configuration of the caller. -/
theorem startTask_triple {bound : Option Netif} {url : String} :
    (contract o).Triple
      (fun s => s.stage = .network ∧ Configured o s (o.otaConfig bound url))
      ((otaApiStartTask o.build (some (o.otaConfig bound url))).embed otaCalls)
      fun err s => (err ≠ espOk → s.stage ≠ .started) ∧ (err = espOk → s.stage = .started) := by
  have hmalloc : ((contract o).under otaCalls).Triple
      (fun s => s.stage = .network ∧ Configured o s (o.otaConfig bound url)) (ask .malloc)
      fun _ s => s.stage = .network ∧ Configured o s (o.otaConfig bound url) := by
    refine .askUnder (fun s hs => hs.1) fun s a s' hs hdoes => ?_
    obtain rfl : s' = Seen.after s ⟨_, a⟩ := hdoes
    exact hs
  have hfree : ((contract o).under otaCalls).Triple (fun s => s.stage = .network) (ask .free)
      fun _ s => s.stage = .network := by
    refine .askUnder (fun s hs => hs) fun s a s' hs hdoes => ?_
    obtain rfl : s' = Seen.after s ⟨_, a⟩ := hdoes
    exact hs
  have hcreate : ((contract o).under otaCalls).Triple
      (fun s => s.stage = .network ∧ Configured o s (o.otaConfig bound url))
      (ask (.taskCreate o.build.otaApiTaskStackSize o.build.otaApiTaskPriority
        (o.otaConfig bound url)))
      fun created s => (created = false → s.stage = .network) ∧
        (created = true → s.stage = .started) := by
    refine .askUnder (fun s hs => ⟨hs.1, rfl, rfl, hs.2⟩) fun s created s' hs hdoes => ?_
    obtain rfl : s' = Seen.after s ⟨_, created⟩ := hdoes
    cases created with
    | false => exact ⟨fun _ => hs.1, fun h => absurd h Bool.false_ne_true⟩
    | true => exact ⟨fun h => absurd h.symm Bool.false_ne_true, fun _ => rfl⟩
  refine .embed (hmalloc.bind fun copy => ?_)
  cases copy with
  | false =>
    refine .pure fun s hs => ⟨fun _ => ?_, fun h => absurd h (by decide)⟩
    rw [hs.1]
    decide
  | true =>
    refine hcreate.bind fun created => ?_
    cases created with
    | false =>
      refine (hfree.weaken (fun s hs => hs.1 rfl) fun _ _ h => h).bind fun _ => ?_
      refine .pure fun s hs => ⟨fun _ => ?_, fun h => absurd h (by decide)⟩
      rw [hs]
      decide
    | true =>
      exact .pure fun s hs => ⟨fun h => absurd rfl h, fun _ => hs.2 rfl⟩

/-- After that nothing is done any more. -/
theorem stayRunning_triple :
    (contract o).Triple (fun s => s.stage = .started) (Rollback.stayRunning.embed commonCalls)
      fun _ _ => True := by
  refine .embed ?_
  have hdelay : ((contract o).under commonCalls).Triple (fun s => s.stage = .started)
      (Prog.ask (.taskDelay 1000)) fun _ s => s.stage = .started := by
    refine .askUnder (fun s hs => hs) fun s a s' hs hdoes => ?_
    obtain rfl : s' = Seen.after s ⟨_, a⟩ := hdoes
    exact hs
  exact .whileCall (fun _ => hdelay.bind fun _ => .pure fun _ hs => hs) ()

theorem startUpdate_triple :
    (contract o).Triple (At .network none) (startUpdate o) fun _ _ => True := by
  refine setPowerSave_triple.bind fun _ => chooseNetif_triple.bind fun bound => ?_
  -- what was found stays what it was while the URL is chosen
  have hurl : (contract o).Triple
      (fun s => At .network bound s ∧ bound.isSome = o.exampleFirmwareUpgradeBindIf.isSome)
      (chooseUrl o) fun url s => s.stage = .network ∧ Configured o s (o.otaConfig bound url) := by
    intro s hs
    refine (chooseUrl_triple.weaken (fun _ h => h) fun url s' hs' => ?_) s hs.1
    refine ⟨hs'.1.1, ⟨url, hs'.2, by rw [hs'.1.2]⟩, ?_⟩
    rw [hs'.1.2]
    exact hs.2
  refine hurl.bind fun url => startTask_triple.bind fun err => ?_
  refine (espErrorCheck_under (fun s hs hne => hs.1 hne) fun s hs hok => hs.2 hok).embed.bind fun _ => ?_
  exact stayRunning_triple

/-- The contract of `app_main()` is kept, whatever its calls answer. -/
theorem appMain_triple : (contract o).Triple (At .powered none) (appMain o) fun _ _ => True := by
  refine initializeNvs_triple.bind fun _ => getSha256OfPartitions_triple.bind fun _ => ?_
  have hnetif : (contract o).Triple (At .storage none)
      (mainAsk (.common .netifInit) >>= fun err => espErrorCheck err) fun _ => At .interfaces none :=
    advance_triple (by decide) (fun s hs => hs.1) fun _ _ => rfl
  have hevents : (contract o).Triple (At .interfaces none)
      (mainAsk (.common .eventLoopCreateDefault) >>= fun err => espErrorCheck err)
      fun _ => At .events none :=
    advance_triple (by decide) (fun s hs => hs.1) fun _ _ => rfl
  have hconnect : (contract o).Triple (At .events none)
      (mainAsk (.common .exampleConnect) >>= fun err => espErrorCheck err) fun _ => At .network none :=
    advance_triple (by decide) (fun s hs => hs.1) fun _ _ => rfl
  exact hnetif.bind fun _ => hevents.bind fun _ => hconnect.bind fun _ => startUpdate_triple

end Triples

/-! ## A boot in which a URL is typed -/

section Typed

/-- It asks for the URL, trusts the bundle and binds to the station. -/
def sampleOptions : Options where
  build := sampleBuild
  exampleConnectWifi := true
  exampleFirmwareUpgradeUrl := "FROM_STDIN"
  exampleFirmwareUpgradeUrlFromStdin := true
  exampleUseCertBundle := true
  exampleSkipCommonNameCheck := false
  exampleFirmwareUpgradeBindIf := some .sta
  serverCertPem := ""
  bundle_depends _ := rfl
  fromStdin_iff := by decide

def sampleHash : Sha256 := ⟨List.replicate 32 0xA5, rfl⟩

/-- One hash is read and printed. -/
def hashTrace (region : Region) (label : String) : List MainEvent :=
  [⟨.partitionGetSha256 region, (espOk, sampleHash)⟩, ⟨.frame, .zeroed 65⟩,
    ⟨.logi label (hashPrint (.zeroed 65) sampleHash).str, ()⟩]

/-- Up to the task. -/
def typedTrace : List MainEvent :=
  ⟨.common .nvsFlashInit, espOk⟩ :: hashTrace .bootloader "SHA-256 for bootloader: " ++
    hashTrace .running "SHA-256 for current firmware: " ++
    [⟨.common .netifInit, espOk⟩, ⟨.common .eventLoopCreateDefault, espOk⟩,
      ⟨.common .exampleConnect, espOk⟩, ⟨.common .wifiSetPs, espOk⟩,
      ⟨.getExampleNetifFromDesc .sta, some 3⟩, ⟨.configureStdinStdout, espOk⟩,
      ⟨.stdin, "https://h/\n".toList⟩, ⟨.common (.ota .malloc), true⟩]

theorem typedTrace_steps : ∃ p, Steps Prog.turn (appMain sampleOptions) typedTrace p ∧
    p.turn.next? = some (.common (.ota (.taskCreate sampleBuild.otaApiTaskStackSize
      sampleBuild.otaApiTaskPriority (sampleOptions.otaConfig (some 3) "https://h/")))) := by
  -- one step for each answer
  refine ⟨_, .cons rfl _ (.cons rfl _ (.cons rfl _ (.cons rfl _ (.cons rfl _ (.cons rfl _
    (.cons rfl _ (.cons rfl _ (.cons rfl _ (.cons rfl _ (.cons rfl _ (.cons rfl _ (.cons rfl _
      (.cons rfl _ (.cons rfl _ (.nil _))))))))))))))), ?_⟩
  rfl

end Typed

/-! ## What it comes to -/

section Outcome

variable {o : Options}

theorem appMain_may {t : List MainEvent} {p : MainProgram Empty} {c : MainCall}
    (hsteps : Steps Prog.turn (appMain o) t p) (hc : p.turn.next? = some c) :
    May o (t.foldl Seen.after .initial) c := by
  obtain ⟨k, ht⟩ := Turn.eq_call hc
  have hsafe : (contract o).Safe (fun _ _ => True) (t.foldl Seen.after .initial) p :=
    Contract.Safe.steps (appMain_triple .initial ⟨rfl, rfl⟩) hsteps
  exact (hsafe.call ht).1

/-- What `app_main()` calls for next is in its place. -/
structure InPlace (o : Options) (t : List MainEvent) : Prop where
  next : ∀ p c, Steps Prog.turn (appMain o) t p → p.turn.next? = some c →
    May o (t.foldl Seen.after .initial) c

theorem app_main_in_place (o : Options) (t : List MainEvent) : InPlace o t :=
  ⟨fun _ _ hsteps hc => appMain_may hsteps hc⟩

/-- The task of the typed URL is created in its place. -/
theorem app_main_in_place_typed : ∃ p size priority config,
    Steps Prog.turn (appMain sampleOptions) typedTrace p ∧
      p.turn.next? = some (.common (.ota (.taskCreate size priority config))) ∧
        May sampleOptions (typedTrace.foldl Seen.after .initial)
          (.common (.ota (.taskCreate size priority config))) := by
  obtain ⟨p, hsteps, hnext⟩ := typedTrace_steps
  exact ⟨p, _, _, _, hsteps, hnext,
    (app_main_in_place sampleOptions typedTrace).next p _ hsteps hnext⟩

/-- What the update of the task connects with. -/
structure Connects (o : Options) (url : String) (http : HttpClientConfig) : Prop where
  address : http.url = url
  plain : StartsWithHttp url → o.build.httpsOtaAllowHttp = true
  /-- Without the bundle the certificate that is linked in is all that is trusted. -/
  pinned : ¬StartsWithHttp url → o.exampleUseCertBundle = false →
    http.certPem = some o.serverCertPem ∧ http.crtBundleAttach = none
  bundled : ¬StartsWithHttp url → o.exampleUseCertBundle = true →
    http.certPem = none ∧ http.crtBundleAttach =
      some (if o.build.tlsSkipServerCertVerify then .skipServerVerifyAttach else .espCrtBundleAttach)
  commonName : ¬StartsWithHttp url → http.skipCertCommonNameCheck = true →
    o.exampleSkipCommonNameCheck = true ∨ http.crtBundleAttach = some .skipServerVerifyAttach

theorem authenticated_connects {bound : Option Netif} {url : String} {http : HttpClientConfig}
    (hc : Connectable o.build (o.otaConfig bound url) url)
    (h : Authenticated o.build (o.otaConfig bound url) url http) : Connects o url http where
  address := h.address
  plain := hc.1
  pinned hs hbundle := by
    have hpem : (o.otaConfig bound url).certPem = some o.serverCertPem := by
      simp [Options.otaConfig, hbundle]
    have hpinned := (h.trusted hs).pinned (by simp [hpem])
    rw [hpem] at hpinned
    exact ⟨hpinned, (h.trusted hs).exactlyOne.mp (by simp [hpinned])⟩
  bundled hs hbundle := by
    have hpem : (o.otaConfig bound url).certPem = none := by simp [Options.otaConfig, hbundle]
    have hattach : http.crtBundleAttach =
        some (if o.build.tlsSkipServerCertVerify then .skipServerVerifyAttach else .espCrtBundleAttach) := by
      cases hskip : o.build.tlsSkipServerCertVerify with
      | true => exact ((h.trusted hs).skipped hpem).mpr hskip
      | false => exact ((h.trusted hs).bundled hpem hskip).1
    refine ⟨?_, hattach⟩
    by_contra hne
    rw [(h.trusted hs).exactlyOne.mp hne] at hattach
    cases hattach
  commonName hs hskip := (h.trusted hs).commonName hskip

/-- The interface is left to the binding. -/
theorem configureServerTrust_ifName {build : BuildOptions} {config : OtaApiConfig}
    {http http' : HttpClientConfig} (h : configureServerTrust build config http = .ok http') :
    http'.ifName = http.ifName := by
  unfold configureServerTrust at h
  split at h
  · split at h <;> cases h
    rfl
  · split at h
    · cases h
      rfl
    · split at h
      · cases h
        rfl
      · split at h <;> cases h
        rfl

theorem returns_ifName {build : BuildOptions} {config : OtaApiConfig} {url : String}
    {t : List Event} {http : HttpClientConfig}
    (h : Returns Prog.turn (otaApiBuildHttpConfig build config url) t (.ok http)) :
    http.ifName.isSome = config.bindNetif.isSome := by
  cases hn : config.bindNetif with
  | some n =>
    obtain ⟨answer, _, hname⟩ := returns_bound hn h
    rw [hname]
    rfl
  | none =>
    obtain ⟨http', htrust, _⟩ | ⟨htrust, _⟩ := configureServerTrust_spec build config url
    · rw [buildHttpConfig_eq htrust, hn] at h
      cases (Prog.returns_pure.mp h).2
      rw [configureServerTrust_ifName htrust]
      rfl
    · rw [buildHttpConfig_error htrust] at h
      cases (Prog.returns_pure.mp h).2

/-- The update that a configuration of `app_main()` leads to. -/
structure Serves (o : Options) (s : Seen) (config : OtaApiConfig) (url : String) : Prop where
  updates : config.url = some url
  chosen : Chosen o s url
  /-- It is refused for one reason only. -/
  connectable : Connectable o.build config url ↔
    (StartsWithHttp url → o.build.httpsOtaAllowHttp = true)
  /-- In every interleaving. -/
  connects : ∀ ls (i : Nat) (a : Activation) (c : HttpsOtaConfig),
    (System.run o.build ls).activations[i]? = some a → a.Updates config url →
      .httpsOtaBegin c ∈ a.calls → Connects o url c.httpConfig ∧
        c.httpConfig.ifName.isSome = o.exampleFirmwareUpgradeBindIf.isSome

theorem Configured.serves {s : Seen} {config : OtaApiConfig} (h : Configured o s config) :
    ∃ url, Serves o s config url := by
  obtain ⟨url, hchosen, rfl⟩ := h.made
  have htrust : TrustAvailable o.build (o.otaConfig s.bound url) := by
    cases hbundle : o.exampleUseCertBundle with
    | true => exact .inr (.inr (o.bundle_depends hbundle))
    | false => exact .inl (by simp [Options.otaConfig, hbundle])
  refine ⟨url, rfl, hchosen, ⟨fun hc => hc.1, fun hplain => ⟨hplain, fun _ => htrust⟩⟩, ?_⟩
  intro ls i a c ha hu hc
  have hsound : a.Sound o.build := run_sound ha
  obtain ⟨hconn, hauth⟩ := begin_authenticated hsound hu hc
  refine ⟨authenticated_connects hconn hauth, ?_⟩
  obtain ⟨_, _, _, hreturns⟩ := begin_built hsound hu hc
  rw [returns_ifName hreturns]
  exact h.bound

/-- What `app_main()` creates a task for. -/
structure Created (o : Options) (t : List MainEvent) : Prop where
  update : ∀ p size priority config, Steps Prog.turn (appMain o) t p →
    p.turn.next? = some (.common (.ota (.taskCreate size priority config))) →
      ∃ url, Serves o (t.foldl Seen.after .initial) config url

theorem task_serves (o : Options) (t : List MainEvent) : Created o t := by
  refine ⟨fun p size priority config hsteps hc => ?_⟩
  obtain ⟨_, _, _, hconfigured⟩ := appMain_may hsteps hc
  exact hconfigured.serves

/-- The task is created for the URL that was typed. -/
theorem task_serves_typed : ∃ url, Serves sampleOptions (typedTrace.foldl Seen.after .initial)
    (sampleOptions.otaConfig (some 3) "https://h/") url := by
  obtain ⟨p, hsteps, hnext⟩ := typedTrace_steps
  exact (task_serves sampleOptions typedTrace).update p _ _ _ hsteps hnext

/-! ## That it comes to something -/

theorem answered (c : MainCall) (a : MainAnswer c) : (mainAsk c).CanReturn a :=
  Prog.canReturn_ask c a

theorem check_canCall {α : Type} {c d : MainCall} {err : MainAnswer c → EspErr} {a : MainAnswer c}
    {k : Unit → MainProgram α} (ha : err a = espOk) (hk : (k ()).CanCall d) :
    (mainAsk c >>= fun a => espErrorCheck (err a) >>= k).CanCall d := by
  have hcheck : (espErrorCheck (err a)).CanReturn () := by
    rw [ha]
    exact Prog.canReturn_pure ()
  exact (answered c a).canCall (hcheck.canCall hk)

theorem printSha256_canReturn (sha256 : Sha256) (label : String) :
    (printSha256 sha256 label).CanReturn () := by
  refine (answered .frame (Buffer.zeroed 65)).bind ?_
  exact (answered (.logi label _) ()).bind (Prog.canReturn_pure ())

theorem getSha256OfPartitions_canReturn : getSha256OfPartitions.CanReturn () := by
  have hread (region : Region) := answered (.partitionGetSha256 region)
    (espOk, ⟨List.replicate 32 0, rfl⟩)
  refine (hread .bootloader).bind ((printSha256_canReturn _ _).bind ?_)
  exact (hread .running).bind (printSha256_canReturn _ _)

theorem setPowerSave_canReturn (o : Options) : (setPowerSave o).CanReturn () := by
  unfold setPowerSave
  split
  · exact (answered (.common .wifiSetPs) espOk).bind (Prog.canReturn_pure ())
  · exact Prog.canReturn_pure ()

theorem chooseNetif_canReturn (o : Options) : ∃ bound, (chooseNetif o).CanReturn bound := by
  unfold chooseNetif
  split
  · exact ⟨none, Prog.canReturn_pure none⟩
  · rename_i bindIf _
    exact ⟨some 0, (answered (.getExampleNetifFromDesc bindIf) (some 0)).bind
      (Prog.canReturn_pure (some 0))⟩

/-- An empty line that is ended will do. -/
theorem chooseUrl_canReturn (o : Options) : ∃ url, (chooseUrl o).CanReturn url := by
  unfold chooseUrl
  split
  case isFalse _ => exact ⟨_, Prog.canReturn_pure _⟩
  case isTrue htyped =>
    rw [if_pos (o.fromStdin_iff.mp htyped)]
    obtain ⟨urlBuf, hread, _⟩ := (url_read ['\n']).whole.mpr (by decide)
    refine ⟨urlBuf.str.text, (answered .configureStdinStdout espOk).bind ?_⟩
    refine (answered .stdin ['\n']).bind ?_
    rw [hread]
    exact Prog.canReturn_pure _

/-- In every build it can come to the task. -/
theorem task_created (o : Options) : ∃ size priority config,
    (appMain o).CanCall (.common (.ota (.taskCreate size priority config))) := by
  obtain ⟨bound, hbound⟩ := chooseNetif_canReturn o
  obtain ⟨url, hurl⟩ := chooseUrl_canReturn o
  refine ⟨o.build.otaApiTaskStackSize, o.build.otaApiTaskPriority, o.otaConfig bound url, ?_⟩
  have hnvs : (Rollback.initializeNvs.embed commonCalls).CanReturn () :=
    (answered (.common .nvsFlashInit) espOk).bind (Prog.canReturn_pure ())
  have hstart : ((otaApiStartTask o.build (some (o.otaConfig bound url))).embed otaCalls).CanCall
      (.common (.ota (.taskCreate o.build.otaApiTaskStackSize o.build.otaApiTaskPriority
        (o.otaConfig bound url)))) := by
    refine (answered (.common (.ota .malloc)) true).canCall ⟨[], _, .nil _, ?_⟩
    rfl
  refine hnvs.canCall (getSha256OfPartitions_canReturn.canCall ?_)
  refine @check_canCall _ (.common .netifInit) _ id espOk _ rfl ?_
  refine @check_canCall _ (.common .eventLoopCreateDefault) _ id espOk _ rfl ?_
  refine @check_canCall _ (.common .exampleConnect) _ id espOk _ rfl ?_
  exact (setPowerSave_canReturn o).canCall (hbound.canCall (hurl.canCall (hstart.bind _)))

end Outcome

end OtaApi.Basic
