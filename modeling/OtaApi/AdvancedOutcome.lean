import OtaApi.Abort
import OtaApi.AdvancedRequests

/-!
# What the advanced application promises

Its commands and its updates correspond one to one; the variables of the file are those of
the update that is under way; the flag that keeps other commands out says exactly whether
there is one; and an image of the running version is only ever downloaded for a command
that says `force`.
-/

namespace OtaApi

open Interaction

namespace Advanced

open CText

variable {o : Options} {t : List (Handover Request)} {p : Handoff Request} {spent : List Nat}
  {served : List (Nat × Request)} {s : State}

/-! ## Commands and updates -/

section Order

/-- Nothing is lost, repeated or overtaken between the commands and the updates. -/
structure ServedInOrder (o : Options) (ls : List Label) : Prop where
  /-- The console, the tasks and the callback take turns at the variables. -/
  turns : ∃ p, Path Handoff.Move .free (events o ls) p
  /-- The updates are those of the commands that were let in, in this order, and one may
  still wait. None is turned away, and each is judged by the flag of its own command. -/
  served : ∃ (served : List (Nat × Request)) (waiting : List Request),
    (run o ls).accepted ++ (run o ls).returning = served.map Prod.snd ++ waiting ∧
    waiting.length ≤ 1 ∧ (served.map Prod.fst).Pairwise (· < ·) ∧
    (∀ (i : Nat) (a : Activation) (config : Option OtaApiConfig),
      (run o ls).system.activations[i]? = some a → a.routine = .otaApiUpdate config →
        i ∈ served.map Prod.fst) ∧
    ∀ i r, (i, r) ∈ served → ∃ a, (run o ls).system.activations[i]? = some a ∧ Serves o r a

theorem commands_served (o : Options) (ls : List Label) : ServedInOrder o ls := by
  obtain ⟨p, hpath, spent, served, h⟩ := run_refines o ls
  refine ⟨⟨p, hpath⟩, served, p.waiting, ?_, ?_, h.trail.order, h.trail.all, h.trail.each⟩
  · rw [← h.trail.offered, Handoff.offers_eq hpath, h.trail.taken]
  · cases p <;> simp [Handoff.waiting]

end Order

/-! ## The variables and the flag -/

section Flag

/-- The callback has been told that this update has failed. -/
def Told (s : State) (i : Nat) (a : Activation) : Prop :=
  ∃ n cb err ctx, s.system.stack (.spawned n) = [i, n] ∧
    a.next? = some (.eventCb cb (.failed err) ctx) ∧ s.verdict n ≠ none

/-- The update has not come to its end, as far as the callback knows. -/
structure UnderWay (s : State) (i : Nat) (a : Activation) : Prop where
  get : s.system.activations[i]? = some a
  update : ∃ config, a.routine = .otaApiUpdate config
  live : a.result? = none
  untold : ¬Told s i a

/-- A spent task is in no such update. -/
theorem Spent.not_underWay {n i : Nat} {a : Activation} (h : Spent o s n)
    (hstack : s.system.stack (.spawned n) = [i, n]) : ¬UnderWay s i a := by
  rintro ⟨hget, _, hlive, huntold⟩
  cases h with
  | deleted _ hst _ =>
    rw [hstack] at hst
    cases hst
  | failed _ hst ha _ _ hend =>
    rw [hstack] at hst
    cases hst
    rw [hget] at ha
    cases ha
    obtain hres | ⟨⟨cb, ctx, hn⟩, _, hv⟩ := hend
    · rw [hlive] at hres
      cases hres
    · refine huntold ⟨n, cb, _, ctx, hstack, hn, ?_⟩
      rw [hv]
      simp

/-- Whoever is under way is the one the place is used for. -/
theorem Refined.underWay (h : Refined o t p spent served s) {i : Nat} {a : Activation}
    (hway : UnderWay s i a) :
    ∃ n r, p = .serving r ∧ (i, r) ∈ served ∧ s.system.stack (.spawned n) = [i, n] ∧
      Created s (n :: spent) := by
  obtain ⟨config, hr⟩ := hway.update
  obtain ⟨n, b, url, hb, hrb, hstack⟩ := h.trail.shape.update_at hway.get hr hway.live
  have hn : n ∉ spent := fun hmem => (h.trail.ended n hmem).not_underWay hstack hway
  have htasks := h.tasks
  cases p with
  | free => exact absurd (htasks n b _ hb hrb) hn
  | filling => exact absurd (htasks n b _ hb hrb) hn
  | handed r =>
    obtain ⟨c, _, hcreated, hwait⟩ := htasks
    obtain rfl : n = c := (List.mem_cons.mp (hcreated n b _ hb hrb)).resolve_right hn
    obtain ⟨_, hst, _⟩ := hwait
    rw [hstack] at hst
    cases hst
  | serving r =>
    obtain ⟨c, _, hcreated, hl⟩ := htasks
    obtain rfl : n = c := (List.mem_cons.mp (hcreated n b _ hb hrb)).resolve_right hn
    cases hl with
    | restarting _ hst _ =>
      rw [hstack] at hst
      cases hst
    | inside _ hst hmem _ _ _ _ =>
      rw [hstack] at hst
      cases hst
      exact ⟨n, r, rfl, hmem, hstack, hcreated⟩

/-- What the tasks may rely on while the console goes on taking commands. -/
structure VariablesKept (o : Options) (s : State) : Prop where
  /-- The buffer still holds the URL the update was called with, the flag `force` is the one
  its callback has answered by so far, and other commands are kept out. -/
  kept : ∀ i a, UnderWay s i a → a.routine = .otaApiUpdate (some (o.otaConfig s.sOtaUrl.str)) ∧
    Answered o s.sForceUpdate a ∧ s.sOtaPending = true
  alone : ∀ i j a b, UnderWay s i a → UnderWay s j b → i = j
  terminated : s.sOtaUrl.Terminated

theorem variables_kept (o : Options) (ls : List Label) : VariablesKept o (run o ls) := by
  obtain ⟨p, _, spent, served, h⟩ := run_refines o ls
  constructor
  case kept =>
    intro i a hway
    obtain ⟨n, r, rfl, hmem, _, _⟩ := h.underWay hway
    obtain ⟨a', ha', hserves⟩ := h.trail.each i r hmem
    rw [hway.get] at ha'
    cases ha'
    obtain ⟨_, hpending, hurl, hforce⟩ := h.fields
    rw [hurl, hforce]
    exact ⟨hserves.routine, hserves.answered, hpending⟩
  case alone =>
    intro i j a b hi hj
    obtain ⟨n, r, hr, hmem, hstack, _⟩ := h.underWay hi
    obtain ⟨m, r', hr', hmem', hstack', hcreated⟩ := h.underWay hj
    have hne : (run o ls).system.stack (.spawned n) ≠ [] := by simp [hstack]
    obtain ⟨c, url, hc⟩ := h.isTask hne
    obtain rfl | hspent := List.mem_cons.mp (hcreated n c _ hc.1 hc.2)
    · rw [hstack] at hstack'
      cases hstack'
      rfl
    · exact absurd hi ((h.trail.ended n hspent).not_underWay hstack)
  case terminated => exact h.trail.terminated

/-- What `s_ota_pending` says. -/
structure FlagExact (o : Options) (s : State) : Prop where
  /-- While it is down, every task is over or its failure known, and the slot is free. -/
  down : s.sOtaPending = false →
    (∀ n b url, IsTask o s n b url → Spent o s n) ∧ otaApiIsRunning s.system.slot = false
  /-- While it is up, and not because of a command that is still being started, there is
  exactly one task that is not. -/
  up : s.sOtaPending = true → Away s →
    ∃ n b, IsTask o s n b s.sOtaUrl.str ∧ ¬Spent o s n ∧
      ∀ m b' url, IsTask o s m b' url → m ≠ n → Spent o s m

theorem Waiting.not_spent {n : Nat} {r : Request} (h : Waiting o s n r) : ¬Spent o s n := by
  obtain ⟨hb, hstack, hnext⟩ := h
  intro hspent
  cases hspent with
  | failed _ hst _ _ _ _ =>
    rw [hstack] at hst
    cases hst
  | deleted hb' _ hnext' =>
    have heq := hb.1.symm.trans hb'.1
    cases heq
    obtain h | ⟨h, _⟩ := hnext <;> rw [h] at hnext' <;> cases hnext'

theorem Live.not_spent {n : Nat} {r : Request} (h : Live o s served n r) : ¬Spent o s n := by
  intro hspent
  cases h with
  | restarting hb hstack hnext =>
    cases hspent with
    | failed _ hst _ _ _ _ =>
      rw [hstack] at hst
      cases hst
    | deleted hb' _ hnext' =>
      have heq := hb.1.symm.trans hb'.1
      cases heq
      rw [hnext] at hnext'
      cases hnext'
  | inside hb hstack hmem ha hr hok hquiet =>
    cases hspent with
    | deleted _ hst _ =>
      rw [hstack] at hst
      cases hst
    | failed _ hst ha' _ herr hend =>
      rw [hstack] at hst
      cases hst
      rw [ha] at ha'
      cases ha'
      obtain hres | ⟨⟨cb, ctx, hn⟩, _, hv⟩ := hend
      · exact herr (hok _ hres)
      · rw [hquiet cb _ ctx hn] at hv
        cases hv

/-- Where all tasks are spent nobody holds the slot. -/
theorem Refined.slot_free (h : Refined o t p spent served s) (hcreated : Created s spent) :
    otaApiIsRunning s.system.slot = false := by
  obtain ⟨ls, hls⟩ := h.trail.shape.reached
  by_contra hrunning
  have hrun : s.system.slot.sRunning = true := by simpa [otaApiIsRunning] using hrunning
  rw [hls] at hrun
  obtain ⟨j, b, hb, hholds⟩ := (run_singleSlot ls).running.mp hrun
  rw [← hls] at hb
  rw [h.trail.not_held hb fun m hm => ?_] at hholds
  · cases hholds
  · have hne : s.system.stack (.spawned m) ≠ [] := by simp [hm]
    obtain ⟨c, url, hc⟩ := h.isTask hne
    exact hcreated m c _ hc.1 hc.2

/-- The console is about to write to the variables as long as it fills the place. -/
theorem Filling.not_away (h : Filling s) : ¬Away s := by
  intro haway
  cases hc : s.console <;> simp only [Filling, Away, hc] at h haway <;> exact h.2 haway

theorem flag_exact (o : Options) (ls : List Label) : FlagExact o (run o ls) := by
  obtain ⟨p, _, spent, served, h⟩ := run_refines o ls
  constructor
  case down =>
    intro hdown
    have hcreated : Created (run o ls) spent := by
      have hfields := h.fields
      cases p with
      | free => exact h.tasks
      | filling => exact h.tasks
      | handed r => exact absurd hfields.2.1 (by simp [hdown])
      | serving r => exact absurd hfields.2.1 (by simp [hdown])
    exact ⟨fun n b url hb => h.trail.ended n (hcreated n b _ hb.1 hb.2), h.slot_free hcreated⟩
  case up =>
    intro hup haway
    have single : ∀ {n : Nat}, Created (run o ls) (n :: spent) →
        ∀ m b' url, IsTask o (run o ls) m b' url → m ≠ n → Spent o (run o ls) m := by
      intro n hcreated m b' url hb' hm
      exact h.trail.ended m ((List.mem_cons.mp (hcreated m b' _ hb'.1 hb'.2)).resolve_left hm)
    have hfields := h.fields
    have htasks := h.tasks
    cases p with
    | free =>
      rw [hfields.1] at hup
      cases hup
    | filling =>
      exact absurd haway (Filling.not_away hfields)
    | handed r =>
      obtain ⟨c, hc, hcreated, hwait⟩ := htasks
      have hnot := hwait.not_spent
      obtain ⟨hb, _, _⟩ := hwait
      rw [hfields.2.2.1]
      exact ⟨c, _, hb, hnot, single hcreated⟩
    | serving r =>
      obtain ⟨c, hc, hcreated, hl⟩ := htasks
      have hnot := hl.not_spent
      rw [hfields.2.2.1]
      cases hl with
      | inside hb _ _ _ _ _ _ => exact ⟨c, _, hb, hnot, single hcreated⟩
      | restarting hb _ _ => exact ⟨c, _, hb, hnot, single hcreated⟩

end Flag

/-! ## The version that is running already -/

section Version

/-- The request a command is about. -/
def Console.request? : Console → Option Request
  | .prompt => none
  | .parsed r => some r
  | .unclaimed r => some r
  | .admitted r => some r
  | .copying r _ => some r
  | .copied r => some r
  | .forced r => some r
  | .flagged r => some r
  | .starting r => some r
  | .started r _ => some r

/-- The requests there have been. -/
def State.requests (s : State) : List Request := s.codes.map Prod.fst ++ s.console.request?.toList

/-- The line with which the console enters `cmd_ota()`. -/
def commandLine? (s : State) : Label → Option (List Str)
  | .cmdOta args => if s.system.restarted = false ∧ s.console = .prompt then some args else none
  | _ => none

/-- The lines it has entered `cmd_ota()` with, in order. -/
def commandLines (o : Options) (ls : List Label) : List (List Str) :=
  observed (State.step o) commandLine? .initial ls

theorem requests_same {s' : State} (hcodes : s'.codes = s.codes)
    (hc : s'.console.request? = s.console.request?) : s'.requests = s.requests := by
  rw [State.requests, hcodes, hc, State.requests]

/-- A command that comes back leaves its request with the code. -/
theorem requests_back {s' : State} {r : Request} {code : Int32} (hr : s.console.request? = some r)
    (hcodes : s'.codes = s.codes ++ [(r, code)]) (hc : s'.console = .prompt) :
    s'.requests = s.requests := by
  rw [State.requests, hcodes, hc, State.requests, hr]
  simp [Console.request?]

/-- In a command the console stays with its request, up to the code it comes back with. -/
theorem cmdOtaNext_requests (o : Options) (s : State) : (s.cmdOtaNext o).requests = s.requests := by
  rw [State.cmdOtaNext]
  cases hc : s.console with
  | prompt => rfl
  | parsed r =>
    dsimp only
    split
    · exact requests_back (by rw [hc]; rfl) rfl rfl
    · exact requests_same rfl (by rw [hc]; rfl)
  | unclaimed r =>
    dsimp only
    split
    · exact requests_back (by rw [hc]; rfl) rfl rfl
    · exact requests_same rfl (by rw [hc]; rfl)
  | admitted r =>
    dsimp only
    split
    · exact requests_back (by rw [hc]; rfl) rfl rfl
    · exact requests_same rfl (by rw [hc]; rfl)
  | copying r k =>
    dsimp only
    split <;> exact requests_same rfl (by rw [hc]; rfl)
  | copied r => exact requests_same rfl (by rw [hc]; rfl)
  | forced r => exact requests_same rfl (by rw [hc]; rfl)
  | flagged r => exact requests_same rfl (by rw [hc]; rfl)
  | starting r =>
    refine requests_same rfl ?_
    rw [hc]
    cases s.startResult? <;> rfl
  | started r err =>
    dsimp only
    split
    · exact requests_back (by rw [hc]; rfl) rfl rfl
    · exact requests_back (by rw [hc]; rfl) rfl rfl

/-- Only a command line makes a request, and it makes its own. -/
theorem requests_step (o : Options) (s : State) (l : Label) :
    (s.step o l).requests = s.requests ++ ((commandLine? s l).map (parseArgs o)).toList := by
  have nothing : ∀ {s' : State}, commandLine? s l = none → s'.requests = s.requests →
      s'.requests = s.requests ++ ((commandLine? s l).map (parseArgs o)).toList := by
    intro s' hl hsame
    rw [hl, hsame]
    exact (List.append_nil _).symm
  by_cases hrun : s.system.restarted = true
  · rw [show s.step o l = s by simp [State.step, hrun]]
    exact nothing (by cases l <;> simp [commandLine?, hrun]) rfl
  unfold State.step
  rw [if_neg hrun]
  cases l with
  | cmdOta args =>
    by_cases hc : s.console = .prompt
    · simp [commandLine?, hrun, hc, State.requests, Console.request?]
    · simp only [hc]
      exact nothing (by simp [commandLine?, hc]) rfl
  | cmdAbort =>
    refine nothing rfl ?_
    by_cases hc : s.console = .prompt <;> simp only [hc] <;> rfl
  | cmdStatus onTrial =>
    refine nothing rfl ?_
    by_cases hc : s.console = .prompt <;> simp only [hc] <;> rfl
  | console => exact nothing rfl (cmdOtaNext_requests o s)
  | consoleAnswer reply =>
    refine nothing rfl ?_
    dsimp only
    split <;> rfl
  | task n => exact nothing rfl rfl
  | taskAnswer n reply =>
    refine nothing rfl ?_
    dsimp only
    split <;> rfl
  | callback n nowUs =>
    refine nothing rfl ?_
    dsimp only
    split
    · rename_i event _ _
      cases event <;> rfl
    · rfl
  | callbackReturn n =>
    refine nothing rfl ?_
    dsimp only
    split <;> rfl

/-- The requests are those of the lines, in order. -/
theorem run_requests (o : Options) (ls : List Label) :
    (run o ls).requests = (commandLines o ls).map (parseArgs o) := by
  induction ls using List.reverseRecOn with
  | nil => rfl
  | append_singleton ls l ih =>
    rw [run, exec_snoc, requests_step, commandLines, observed_snoc, List.map_append]
    change (run o ls).requests ++ _ = _
    rw [ih]
    change (commandLines o ls).map (parseArgs o) ++
        ((commandLine? (run o ls) l).map (parseArgs o)).toList =
      (commandLines o ls).map (parseArgs o) ++
        (commandLine? (run o ls) l).toList.map (parseArgs o)
    cases commandLine? (run o ls) l <;> rfl

/-- The commands that were let in are among them, in the same order. -/
theorem letIn_sublist (s : State) : (s.accepted ++ s.returning).Sublist s.requests := by
  refine List.Sublist.append (List.filter_sublist.map Prod.fst) ?_
  cases hc : s.console with
  | starting r =>
    simp only [State.returning, hc, Console.request?, Option.toList_some]
    split
    · exact .refl _
    · exact List.nil_sublist _
  | started r err =>
    simp only [State.returning, hc, Console.request?, Option.toList_some]
    split
    · exact .refl _
    · exact List.nil_sublist _
  | _ => simp [State.returning, hc]

theorem parseArgs_force (o : Options) (args : List Str) :
    (parseArgs o args).2 = true ↔ ∃ arg ∈ args, arg.chars = force := by
  rw [parseArgs_eq]
  simp

/-- Only an update that has read the header offers an image. -/
theorem next_offering {build : BuildOptions} {config : OtaApiConfig} {ph : Phase} {cb : EventCb}
    {newApp : EspAppDesc} {ctx : Nat}
    (hn : ph.next? build config = some (.eventCb cb (.imageDesc newApp) ctx)) :
    ∃ h, ph = .offering cb h newApp := by
  cases ph with
  | announcing cb' err =>
    have hevent : outcomeEvent err = .imageDesc newApp := by
      simp only [Phase.next?, Option.some.injEq, Call.eventCb.injEq] at hn
      exact hn.2.1
    unfold outcomeEvent at hevent
    split at hevent <;> cases hevent
  | offering cb' h d =>
    cases hn
    exact ⟨h, rfl⟩
  | _ => cases hn

/-- An image that was refused for its version has failed the update. -/
theorem refused_image {build : BuildOptions} {a : Activation} (hs : a.Sound build)
    {config : OtaApiConfig} {url : String} (hu : a.Updates config url) {cb : EventCb}
    {newApp : EspAppDesc} {ctx : Nat}
    (hmem : (⟨.eventCb cb (.imageDesc newApp) ctx, espErrOtaValidateFailed⟩ : Event) ∈ a.trace)
    {r : EspErr} (hr : a.result? = some r) : r = espErrOtaValidateFailed := by
  obtain ⟨ph, hpath, hprog⟩ := update_path hs hu
  obtain ⟨v, w, htrace⟩ := List.append_of_mem hmem
  rw [htrace] at hpath
  obtain ⟨q, q', hq, m, _⟩ := hpath.at_event
  have hoffering : firstFailure build config url v = none := by
    obtain ⟨_, rfl⟩ := next_offering m.next?_eq
    exact path_failure hq rfl
  have hfirst : firstFailure build config url
      (v ++ ⟨.eventCb cb (.imageDesc newApp) ctx, espErrOtaValidateFailed⟩ :: w) =
        some espErrOtaValidateFailed := by
    simp only [firstFailure, Option.or_eq_none_iff] at hoffering
    simp only [firstFailure, List.findSome?_append, List.findSome?_cons, hoffering.1, hoffering.2,
      Option.none_or]
    rfl
  obtain rfl | rfl := update_result? hprog hr
  · rw [path_failure hpath rfl] at hfirst
    change failed r = some espErrOtaValidateFailed at hfirst
    by_cases hok : r = espOk
    · rw [hok, failed_espOk] at hfirst
      cases hfirst
    · rw [failed_of_ne hok] at hfirst
      exact Option.some.inj hfirst
  · have hsingle : v ++ (⟨.eventCb cb (.imageDesc newApp) ctx, espErrOtaValidateFailed⟩ : Event) :: w =
        [⟨.claimUpdateSlot, false⟩] := path_facts hpath
    have hin : (⟨.eventCb cb (.imageDesc newApp) ctx, espErrOtaValidateFailed⟩ : Event) ∈
        [(⟨.claimUpdateSlot, false⟩ : Event)] := by
      rw [← hsingle]
      simp
    cases List.mem_singleton.mp hin

/-- What an update does about an image with the version that is running already, for a
command that asks for `r`. -/
structure Forced (o : Options) (r : Request) (a : Activation) : Prop where
  /-- It downloads it only if this command says `force`. -/
  downloaded : ∀ h : HttpsOtaHandle, .httpsOtaPerform h ∈ a.calls →
    ∃ newApp, ⟨.httpsOtaGetImgDesc h, (espOk, newApp)⟩ ∈ a.trace ∧
      (sameVersion o newApp = true → r.2 = true)
  /-- If the callback refuses an image, it is for this reason, and the update comes back
  with that. -/
  refused : ∀ (cb : EventCb) (newApp : EspAppDesc) (ctx : Nat) (v err : EspErr),
    ⟨.eventCb cb (.imageDesc newApp) ctx, v⟩ ∈ a.trace → v ≠ espOk → a.result? = some err →
      sameVersion o newApp = true ∧ r.2 = false ∧ err = espErrOtaValidateFailed

theorem Serves.forced {r : Request} {a : Activation} (h : Serves o r a) (hs : a.Sound o.build) :
    Forced o r a := by
  constructor
  case downloaded =>
    intro handle hperform
    obtain ⟨cs, ds, hcalls⟩ := List.append_of_mem hperform
    obtain ⟨u, v, ph, htrace, _, hphase, hnext⟩ := calls_phase hs (otaConfig_updates h.routine) hcalls
    obtain ⟨total, last, rfl⟩ := next_perform hnext
    have hadmitted : Admitted (o.otaConfig r.1) handle u := path_facts hphase
    obtain ⟨newApp, hdesc, haccepted⟩ := hadmitted.header
    refine ⟨newApp, ?_, fun hsame => ?_⟩
    · rw [htrace]
      exact List.mem_append_left _ hdesc
    · have hverdict := h.answered 0 (.imageDesc newApp) (o.otaConfig r.1).userCtx
        espOk (by rw [htrace]; exact List.mem_append_left _ (haccepted 0 rfl))
      by_contra hforced
      have hunforced : r.2 = false := by simpa using hforced
      simp [onOtaEventCbVerdict, hsame, hunforced, espOk, espErrOtaValidateFailed] at hverdict
  case refused =>
    intro cb newApp ctx v err hmem hne hres
    have hverdict := h.answered cb _ ctx v hmem
    rw [onOtaEventCbVerdict] at hverdict
    split at hverdict
    · rename_i hcond
      simp only [Bool.and_eq_true, Bool.not_eq_true'] at hcond
      rw [hverdict] at hmem
      exact ⟨hcond.2, hcond.1, refused_image hs (otaConfig_updates h.routine) hmem hres⟩
    · exact absurd hverdict hne

/-- An image with the running version is only installed for a command that says so. -/
structure ReinstallForced (o : Options) (ls : List Label) : Prop where
  /-- The requests there have been are those of the command lines, and the ones that were
  let in are among them, in the same order. -/
  requests : (run o ls).requests = (commandLines o ls).map (parseArgs o)
  letIn : ((run o ls).accepted ++ (run o ls).returning).Sublist (run o ls).requests
  word : ∀ args, (parseArgs o args).2 = true ↔ ∃ arg ∈ args, arg.chars = force
  /-- Each update is of one command that was let in, with none left out or used twice, and
  it is this command that decides. -/
  served : ∃ (served : List (Nat × Request)) (waiting : List Request),
    (run o ls).accepted ++ (run o ls).returning = served.map Prod.snd ++ waiting ∧
    waiting.length ≤ 1 ∧ (served.map Prod.fst).Pairwise (· < ·) ∧
    (∀ (i : Nat) (a : Activation) (config : Option OtaApiConfig),
      (run o ls).system.activations[i]? = some a → a.routine = .otaApiUpdate config →
        i ∈ served.map Prod.fst) ∧
    ∀ i r, (i, r) ∈ served → ∃ a, (run o ls).system.activations[i]? = some a ∧ Serves o r a ∧
      Forced o r a

theorem reinstall_forced (o : Options) (ls : List Label) : ReinstallForced o ls := by
  refine ⟨run_requests o ls, letIn_sublist _, parseArgs_force o, ?_⟩
  obtain ⟨p, hpath, spent, served, h⟩ := run_refines o ls
  refine ⟨served, p.waiting, ?_, ?_, h.trail.order, h.trail.all, fun i r hmem => ?_⟩
  · rw [← h.trail.offered, Handoff.offers_eq hpath, h.trail.taken]
  · cases p <;> simp [Handoff.waiting]
  · obtain ⟨a, ha, hserves⟩ := h.trail.each i r hmem
    exact ⟨a, ha, hserves, hserves.forced (h.trail.shape.sound ha)⟩

end Version

end Advanced

end OtaApi
