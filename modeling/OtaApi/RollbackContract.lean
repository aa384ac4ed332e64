import OtaApi.RollbackFlash

/-!
# What the application may call when

An image is confirmed or rejected only while it is on trial and by the verdict of the
diagnostic, nothing is written before the running image is confirmed and the network is
up, and the device is restarted only into a new image. `app_main()` keeps this contract
from every device that has just booted.
-/

namespace OtaApi.Rollback

open Interaction

variable {P D : Type} {E : Platform P D} {b b' : Board P D} {q : Succession P}

/-- The running image is confirmed, and a restart boots it again. -/
def Board.confirmed (E : Platform P D) (b : Board P D) : Prop :=
  b.onTrial E = false ∧ (b.reset E).running = b.running

/-- A restart boots another image, for its trial. -/
def Board.replaced (E : Platform P D) (b : Board P D) : Prop :=
  b.onTrial E = false ∧ (b.reset E).running ≠ b.running

/-- When each call is in its place. -/
def Board.May (E : Platform P D) (b : Board P D) : MainCall → Prop
  | .trial .otaMarkAppValidCancelRollback => b.onTrial E = true ∧ b.network = true
  | .trial .otaMarkAppInvalidRollbackAndReboot => b.onTrial E = true ∧ b.network = false
  | .ota (.httpsOtaBegin _) => b.confirmed E ∧ b.network = true
  | .ota (.httpsOtaPerform _) => b.confirmed E ∧ b.network = true
  | .ota (.httpsOtaFinish _) => b.confirmed E ∧ b.network = true
  | .ota .restart => b.replaced E
  | _ => True

namespace Stands

theorem confirmed_iff (hdoc : E.Documented) (h : Stands E b q) :
    b.confirmed E ↔ ∃ r, q = .settled r := by
  have htrial := h.onTrial_iff hdoc
  have hreset := (h.restart hdoc).running_whole.1
  have hrun := h.running_whole.1
  unfold Board.confirmed
  rw [hreset, hrun]
  cases q with
  | settled r =>
    simp only [reduceCtorEq, exists_false, iff_false, Bool.not_eq_true] at htrial
    simp [htrial, Succession.restart, Succession.occupant]
  | staged r n =>
    cases h with
    | staged ota _ _ _ => simp [Succession.restart, Succession.occupant, ota.1]
  | trial r n => simp [htrial.mpr ⟨r, n, rfl⟩]

theorem replaced_iff (hdoc : E.Documented) (h : Stands E b q) :
    b.replaced E ↔ ∃ r n, q = .staged r n := by
  have htrial := h.onTrial_iff hdoc
  have hreset := (h.restart hdoc).running_whole.1
  have hrun := h.running_whole.1
  unfold Board.replaced
  rw [hreset, hrun]
  cases q with
  | settled r => simp [Succession.restart, Succession.occupant]
  | staged r n =>
    simp only [reduceCtorEq, exists_false, iff_false, Bool.not_eq_true] at htrial
    cases h with
    | staged ota _ _ _ => simp [htrial, Succession.restart, Succession.occupant, ota.1]
  | trial r n => simp [htrial.mpr ⟨r, n, rfl⟩]

end Stands

/-! ## Calls that leave the flash alone -/

/-- The flash, what is running and the network are as they were. -/
structure Board.Same (b b' : Board P D) : Prop where
  otadata : b'.otadata = b.otadata
  whole : b'.whole = b.whole
  running : b'.running = b.running
  network : b'.network = b.network

theorem Board.Same.onTrial (h : b.Same b') (E : Platform P D) : b'.onTrial E = b.onTrial E := by
  unfold Board.onTrial
  rw [h.otadata, h.running]

/-- A call that is in its place at any time and changes nothing that lasts. -/
def idle : MainCall → Bool
  | .exampleConnect => false
  | .trial .otaMarkAppValidCancelRollback => false
  | .trial .otaMarkAppInvalidRollbackAndReboot => false
  | .ota (.httpsOtaBegin _) => false
  | .ota (.httpsOtaPerform _) => false
  | .ota (.httpsOtaFinish _) => false
  | .ota .restart => false
  | _ => true

theorem idle_may {c : MainCall} (hc : idle c = true) : b.May E c := by
  cases c with
  | trial c => cases c <;> trivial
  | ota c => cases c <;> trivial
  | _ => trivial

variable [DecidableEq P]

/-- The calls of the application, and what is done about them as long as the state of an
image on trial can be read. -/
def contract (E : Platform P D) : Contract MainCall MainAnswer (Board P D) where
  may b c := b.May E c
  does b e b' := ∃ reply, b.readsTruly E e.call reply = true ∧
    b.respond E e.call reply = some (.returned e.answer b')

theorem respond_ota_eq {c : Call} (hc : c ≠ .restart) (reply : Reply) :
    b.respond E (.ota c) reply =
      match criticalSection b.runState c with
      | some (answer, runState) => some (.returned answer { b with runState := runState })
      | none => (reply.answer? c).map fun answer => .returned answer (b.answering E ⟨c, answer⟩) := by
  cases c <;> first | rfl | exact absurd rfl hc

theorem respond_ota {c : Call} {reply : Reply} {a : Answer c}
    (h : b.respond E (.ota c) reply = some (.returned a b')) :
    (∃ runState, criticalSection b.runState c = some (a, runState) ∧
      b' = { b with runState := runState }) ∨
    (criticalSection b.runState c = none ∧ reply.answer? c = some a ∧
      b' = b.answering E ⟨c, a⟩) := by
  have hc : c ≠ .restart := by
    rintro rfl
    exact Empty.elim a
  rw [respond_ota_eq hc] at h
  split at h
  · rename_i answer runState hcs
    cases h
    exact .inl ⟨runState, hcs, rfl⟩
  · rename_i hcs
    obtain ⟨answer, hanswer, heq⟩ := Option.map_eq_some_iff.mp h
    cases heq
    exact .inr ⟨hcs, hanswer, rfl⟩

/-- The device boots by a restart, or into the image before the one that is rejected. -/
theorem respond_rebooted {c : MainCall} {reply : Reply}
    (h : b.respond E c reply = some (.rebooted b')) :
    (c = .abort ∨ c = .ota .restart) ∧ b' = b.reset E ∨
    c = .trial .otaMarkAppInvalidRollbackAndReboot ∧
      ∃ d, E.markAppInvalid b.otadata b.running b.whole = .ok d ∧
        b' = { b with otadata := d }.reset E := by
  cases c with
  | abort =>
    cases h
    exact .inl ⟨.inl rfl, rfl⟩
  | taskDelay ms => cases h
  | ota c =>
    by_cases hc : c = .restart
    · subst hc
      cases h
      exact .inl ⟨.inr rfl, rfl⟩
    · rw [respond_ota_eq hc] at h
      split at h
      · cases h
      · obtain ⟨_, _, heq⟩ := Option.map_eq_some_iff.mp h
        cases heq
  | trial c =>
    cases c with
    | otaMarkAppInvalidRollbackAndReboot =>
      obtain ⟨_, _, heq⟩ := Option.map_eq_some_iff.mp h
      split at heq
      · cases heq
      · split at heq
        · rename_i d hmark
          cases heq
          exact .inr ⟨rfl, d, hmark, rfl⟩
        · cases heq
    | otaGetStatePartition =>
      obtain ⟨_, _, heq⟩ := Option.map_eq_some_iff.mp h
      split at heq
      · cases heq
      · split at heq <;> cases heq
    | otaMarkAppValidCancelRollback =>
      obtain ⟨_, _, heq⟩ := Option.map_eq_some_iff.mp h
      split at heq
      · cases heq
      · split at heq <;> cases heq
    | _ =>
      obtain ⟨_, _, heq⟩ := Option.map_eq_some_iff.mp h
      cases heq
  | _ =>
    obtain ⟨_, _, heq⟩ := Option.map_eq_some_iff.mp h
    cases heq

/-- Where the running image can be marked valid, the call does so or fails by itself. -/
theorem respond_markAppValid {d : D} (hmark : E.markAppValid b.otadata b.running = .ok d)
    {reply : Reply} {err : EspErr}
    (h : b.respond E (.trial .otaMarkAppValidCancelRollback) reply = some (.returned err b')) :
    err ≠ espOk ∧ b' = b ∨ err = espOk ∧ b' = { b with otadata := d } := by
  obtain ⟨fault, _, heq⟩ := Option.map_eq_some_iff.mp h
  rw [hmark] at heq
  split at heq
  · rename_i hfault
    cases heq
    exact .inl ⟨hfault, rfl⟩
  · cases heq
    exact .inr ⟨rfl, rfl⟩

/-- A rejection that comes back has changed nothing. -/
theorem respond_markAppInvalid {reply : Reply} {err : EspErr}
    (h : b.respond E (.trial .otaMarkAppInvalidRollbackAndReboot) reply =
      some (.returned err b')) : b' = b := by
  obtain ⟨fault, _, heq⟩ := Option.map_eq_some_iff.mp h
  split at heq
  · cases heq
    rfl
  · split at heq <;> cases heq
    rfl

theorem idle_does {c : MainCall} (hc : idle c = true) {reply : Reply} {a : MainAnswer c}
    (h : b.respond E c reply = some (.returned a b')) : b.Same b' := by
  cases c with
  | exampleConnect => cases hc
  | taskDelay ms =>
    cases h
    exact ⟨rfl, rfl, rfl, rfl⟩
  | abort => exact Empty.elim a
  | ota c =>
    obtain ⟨runState, _, rfl⟩ | ⟨_, _, rfl⟩ := respond_ota h
    · exact ⟨rfl, rfl, rfl, rfl⟩
    · cases c <;> first | exact ⟨rfl, rfl, rfl, rfl⟩ | cases hc
  | trial c =>
    cases c with
    | otaGetStatePartition =>
      obtain ⟨_, _, heq⟩ := Option.map_eq_some_iff.mp h
      split at heq
      · cases heq
        exact ⟨rfl, rfl, rfl, rfl⟩
      · split at heq <;> (cases heq; exact ⟨rfl, rfl, rfl, rfl⟩)
    | otaMarkAppValidCancelRollback => cases hc
    | otaMarkAppInvalidRollbackAndReboot => cases hc
    | _ =>
      obtain ⟨_, _, heq⟩ := Option.map_eq_some_iff.mp h
      cases heq
      exact ⟨rfl, rfl, rfl, rfl⟩
  | _ =>
    obtain ⟨_, _, heq⟩ := Option.map_eq_some_iff.mp h
    cases heq
    exact ⟨rfl, rfl, rfl, rfl⟩

/-- The contract as an update sees it. -/
theorem under_ota {c : Call} {a : Answer c}
    (h : ((contract E).under otaCalls).does b ⟨c, a⟩ b') :
    ∃ reply, b.respond E (.ota c) reply = some (.returned a b') := by
  obtain ⟨_, rfl, reply, _, hd⟩ := Contract.under_does h
  exact ⟨reply, hd⟩

/-- The contract as the trial run sees it. -/
theorem under_trial {c : TrialCall} {a : TrialAnswer c}
    (h : ((contract E).under trialCalls).does b ⟨c, a⟩ b') :
    ∃ reply, b.readsTruly E (.trial c) reply = true ∧
      b.respond E (.trial c) reply = some (.returned a b') := by
  obtain ⟨_, rfl, hd⟩ := Contract.under_does h
  exact hd

/-- What depends on the flash, on what is running and on the network only. -/
def Lasting (I : Board P D → Prop) : Prop := ∀ b b', b.Same b' → I b → I b'

section Triples

variable {I J : Board P D → Prop} {α : Type}

theorem idle_triple (hI : Lasting I) {p : MainProgram α} (hp : p.Only fun c => idle c = true) :
    (contract E).Triple I p fun _ => I :=
  .only (fun _ _ hc hs => ⟨idle_may hc, fun _ _ ⟨_, _, hd⟩ => hI _ _ (idle_does hc hd) hs⟩) hp

/-- The same for a program of the component. -/
theorem idle_ota (hI : Lasting I) {p : Program α} (hp : p.Only fun c => idle (.ota c) = true) :
    ((contract E).under otaCalls).Triple I p fun _ => I := by
  refine .only (fun b c hc hb => ⟨idle_may hc, fun a b' hdoes => ?_⟩) hp
  obtain ⟨reply, hd⟩ := under_ota hdoes
  exact hI b b' (idle_does hc hd) hb

theorem espErrorCheck_triple {err : EspErr} (h : ∀ b, I b → err = espOk → J b) :
    (contract E).Triple I (espErrorCheck err) fun _ => J :=
  espErrorCheck_rule (fun _ _ _ => trivial) h

end Triples

/-! ## The update -/

/-- The calls of an update up to its commit. -/
def uncommitted : Call → Bool
  | .httpsOtaFinish _ => false
  | .restart => false
  | _ => true

section Only

variable {config : OtaApiConfig} {handle : HttpsOtaHandle}

theorem dispatchEvent_only {Q : Call → Prop} (h : ∀ cb event ctx, Q (.eventCb cb event ctx))
    (event : OtaApiEvent) : (otaApiDispatchEvent config event).Only Q := by
  unfold otaApiDispatchEvent
  split
  · exact Prog.only_pure _
  · exact Prog.only_ask (h _ _ _)

theorem reportLength_only (totalBytes : Int32) (last : Int64) :
    (reportLength handle config totalBytes last).Only fun c => uncommitted c = true := by
  refine Prog.only_bind (Prog.only_ask rfl) fun readBytes => ?_
  split
  · exact Prog.only_pure _
  · exact Prog.only_bind (dispatchEvent_only (fun _ _ _ => rfl) _) fun _ => Prog.only_pure _

theorem reportProgress_only (totalBytes : Int32) (last : Int64) (force : Bool) :
    (otaApiReportProgress handle config totalBytes last force).Only
      fun c => uncommitted c = true := by
  unfold otaApiReportProgress
  split
  · refine Prog.only_bind (Prog.only_ask rfl) fun nowUs => ?_
    split
    · exact Prog.only_pure _
    · exact reportLength_only totalBytes nowUs
  · exact reportLength_only totalBytes last

theorem downloadChunk_only (totalBytes : Int32) (err : EspErr) (last : Int64) :
    (downloadChunk handle config totalBytes err last).Only fun c => uncommitted c = true := by
  unfold downloadChunk
  split
  · exact Prog.only_pure _
  · refine Prog.only_bind (Prog.only_ask rfl) fun requested => ?_
    split
    · exact Prog.only_pure _
    · refine Prog.only_bind (reportProgress_only totalBytes last false) fun (err, last) => ?_
      dsimp only
      split <;> exact Prog.only_pure _

theorem verifyDownload_only (totalBytes : Int32) (err : EspErr) (last : Int64) :
    (verifyDownload handle config totalBytes err last).Only fun c => uncommitted c = true := by
  unfold verifyDownload
  split
  · exact Prog.only_pure _
  · refine Prog.only_bind (Prog.only_ask rfl) fun complete => ?_
    split
    · exact Prog.only_pure _
    · exact Prog.only_bind (reportProgress_only totalBytes last true) fun _ => Prog.only_pure _

theorem downloadImage_only : (downloadImage handle config).Only fun c => uncommitted c = true := by
  refine Prog.only_bind (Prog.only_ask rfl) fun totalBytes => Prog.only_bind ?_ fun exit => ?_
  · exact ⟨rfl, fun err last => downloadChunk_only totalBytes err last, fun _ => trivial⟩
  · cases exit with
    | returned err => exact Prog.only_pure _
    | broke err last => exact verifyDownload_only totalBytes err last

theorem checkIncomingImage_only :
    (checkIncomingImage handle config).Only fun c => uncommitted c = true := by
  refine Prog.only_bind (Prog.only_ask rfl) fun (err, newApp) => ?_
  dsimp only
  split
  · exact Prog.only_pure _
  · exact dispatchEvent_only (fun _ _ _ => rfl) _

theorem ifOk_only {Q : Call → Prop} {err : EspErr} {p : Program EspErr} (hp : p.Only Q) :
    (ifOk err p).Only Q := by
  unfold ifOk
  split
  · exact hp
  · exact Prog.only_pure _

end Only

section Update

/-- The running image is confirmed and the network is up. -/
def Online (E : Platform P D) (b : Board P D) : Prop := (∃ r, Stands E b (.settled r)) ∧ b.network = true

/-- An update has come to its end: a new image is ready, or all is as before. -/
structure Updated (E : Platform P D) (err : EspErr) (b : Board P D) : Prop where
  stored : err = espOk → ∃ r n, Stands E b (.staged r n)
  kept : err ≠ espOk → Online E b

omit [DecidableEq P] in
theorem Stands.same {q : Succession P} (h : Stands E b q) (hsame : b.Same b') : Stands E b' q :=
  h.congr hsame.otadata hsame.whole hsame.running

omit [DecidableEq P] in
theorem lasting_online : Lasting (Online E) :=
  fun _ _ hsame ⟨⟨r, h⟩, hn⟩ => ⟨⟨r, h.same hsame⟩, hsame.network.trans hn⟩

omit [DecidableEq P] in
theorem lasting_updated (err : EspErr) : Lasting (Updated E err) := by
  intro b b' hsame h
  constructor
  case stored =>
    intro herr
    obtain ⟨r, n, hr⟩ := h.stored herr
    exact ⟨r, n, hr.same hsame⟩
  case kept => exact fun herr => lasting_online b b' hsame (h.kept herr)

omit [DecidableEq P] in
theorem Updated.failed {err : EspErr} (h : Online E b) (herr : err ≠ espOk) : Updated E err b :=
  ⟨fun hok => absurd hok herr, fun _ => h⟩

variable (hdoc : E.Documented)
include hdoc

omit [DecidableEq P] in
theorem Online.may (h : Online E b) : b.confirmed E ∧ b.network = true := by
  obtain ⟨⟨r, hr⟩, hn⟩ := h
  exact ⟨(hr.confirmed_iff hdoc).mpr ⟨r, rfl⟩, hn⟩

omit [DecidableEq P] in
/-- An update does not write to the partition that is running. -/
theorem Stands.spare_ne {r : P} (h : Stands E b (.settled r)) : b.spare E ≠ r := by
  rw [← show b.running = r from h.running_whole.1]
  exact hdoc.elsewhere b.running

/-- Writing the next partition spoils nothing that may be booted. -/
theorem Stands.written {r : P} (h : Stands E b (.settled r)) (x : Bool) :
    Stands E { b with whole := Function.update b.whole (b.spare E) x } (.settled r) := by
  have hne := h.spare_ne hdoc
  cases h with
  | settled ota run whole =>
    refine .settled ota run ?_
    simpa [Function.update_of_ne hne.symm] using whole

theorem Online.written (h : Online E b) (x : Bool) :
    Online E { b with whole := Function.update b.whole (b.spare E) x } := by
  obtain ⟨⟨r, hr⟩, hn⟩ := h
  exact ⟨⟨r, hr.written hdoc x⟩, hn⟩

/-- The new image is ready beside the one that is running. -/
theorem Stands.stored {r : P} (h : Stands E b (.settled r)) (handle : HttpsOtaHandle) :
    Stands E (b.answering E ⟨.httpsOtaFinish handle, espOk⟩) (.staged r (b.spare E)) := by
  have hne := h.spare_ne hdoc
  cases h with
  | settled ota run whole =>
    refine .staged ⟨hne, _, ota, rfl⟩ run ?_ ?_
    · simpa [Board.answering, Function.update_of_ne hne.symm] using whole
    · simp [Board.answering]

theorem uncommitted_online {c : Call} (hc : uncommitted c = true) (h : Online E b) :
    b.May E (.ota c) ∧ ∀ (a : Answer c) b',
      ((contract E).under otaCalls).does b ⟨c, a⟩ b' → Online E b' := by
  have keep : idle (.ota c) = true → b.May E (.ota c) ∧ ∀ (a : Answer c) b',
      ((contract E).under otaCalls).does b ⟨c, a⟩ b' → Online E b' := by
    intro hidle
    refine ⟨idle_may hidle, fun a b' hdoes => ?_⟩
    obtain ⟨reply, hd⟩ := under_ota hdoes
    exact lasting_online b b' (idle_does hidle hd) h
  cases c with
  | httpsOtaBegin config =>
    refine ⟨h.may hdoc, fun a b' hdoes => ?_⟩
    obtain ⟨reply, hd⟩ := under_ota hdoes
    obtain ⟨_, hcs, _⟩ | ⟨_, _, rfl⟩ := respond_ota hd
    · cases hcs
    · exact h
  | httpsOtaPerform handle =>
    refine ⟨h.may hdoc, fun a b' hdoes => ?_⟩
    obtain ⟨reply, hd⟩ := under_ota hdoes
    obtain ⟨_, hcs, _⟩ | ⟨_, _, rfl⟩ := respond_ota hd
    · cases hcs
    · exact h.written hdoc false
  | httpsOtaFinish handle => cases hc
  | restart => cases hc
  | _ => exact keep rfl

theorem uncommitted_triple {α : Type} {p : Program α} (hp : p.Only fun c => uncommitted c = true) :
    ((contract E).under otaCalls).Triple (Online E) p fun _ => Online E :=
  .only (fun _ _ hc hs => uncommitted_online hdoc hc hs) hp

variable {config : OtaApiConfig}

theorem finish_triple (handle : HttpsOtaHandle) :
    ((contract E).under otaCalls).Triple (Online E) (ask (.httpsOtaFinish handle)) (Updated E) := by
  refine .ask (fun _ h => h.may hdoc) fun b err b' h hdoes => ?_
  obtain ⟨reply, hd⟩ := under_ota hdoes
  obtain ⟨_, hcs, _⟩ | ⟨_, _, rfl⟩ := respond_ota hd
  · cases hcs
  · constructor
    case stored =>
      rintro rfl
      obtain ⟨⟨r, hr⟩, _⟩ := h
      exact ⟨r, _, hr.stored hdoc handle⟩
    case kept =>
      intro herr
      simpa [Board.answering, herr] using h

theorem transferImage_triple (handle : HttpsOtaHandle) :
    ((contract E).under otaCalls).Triple (Online E) (transferImage handle config) (Updated E) := by
  refine (uncommitted_triple hdoc (dispatchEvent_only (fun _ _ _ => rfl) _)).bind fun err => ?_
  refine (uncommitted_triple hdoc (ifOk_only checkIncomingImage_only)).bind fun err => ?_
  refine (uncommitted_triple hdoc (ifOk_only downloadImage_only)).bind fun err => ?_
  split
  · rename_i herr
    refine (uncommitted_triple hdoc (Prog.only_ask rfl)).bind fun _ => ?_
    exact .pure fun b h => .failed h herr
  · exact finish_triple hdoc handle

theorem buildHttpConfig_triple (build : BuildOptions) (url : String) :
    ((contract E).under otaCalls).Triple (Online E) (otaApiBuildHttpConfig build config url)
      fun result b => Online E b ∧ ∀ err, result = .error err → err ≠ espOk := by
  unfold otaApiBuildHttpConfig
  split
  · rename_i err herr
    refine .pure fun b h => ⟨h, fun err' heq => ?_⟩
    cases heq
    exact configureServerTrust_error_ne herr
  · split
    · exact .pure fun b h => ⟨h, nofun⟩
    · exact (uncommitted_triple hdoc (Prog.only_ask rfl)).bind fun _ => .pure fun b h => ⟨h, nofun⟩

theorem runUpdate_triple (build : BuildOptions) (url : String) :
    ((contract E).under otaCalls).Triple (Online E) (runUpdate build config url) (Updated E) := by
  refine (buildHttpConfig_triple hdoc build url).bind fun result => ?_
  cases result with
  | error err => exact .pure fun b h => .failed h.1 (h.2 err rfl)
  | ok httpConfig =>
    refine .weaken ?_ (fun b h => h.1) fun _ _ h => h
    refine (uncommitted_triple hdoc (Prog.only_ask rfl)).bind fun (err, handle) => ?_
    dsimp only
    split
    · rename_i herr
      exact .pure fun b h => .failed h herr
    · exact transferImage_triple hdoc handle

/-- An update keeps the contract, and says how it has ended. -/
theorem otaApiUpdate_triple (build : BuildOptions) (config : Option OtaApiConfig) :
    ((contract E).under otaCalls).Triple (Online E) (otaApiUpdate build config) (Updated E) := by
  unfold otaApiUpdate
  split
  · exact .pure fun b h => .failed h (by decide)
  · split
    · exact .pure fun b h => .failed h (by decide)
    · refine (uncommitted_triple hdoc (Prog.only_ask rfl)).bind fun claimed => ?_
      split
      · exact .pure fun b h => .failed h (by decide)
      · refine (runUpdate_triple hdoc build _).bind fun err => ?_
        refine (idle_ota (lasting_updated err) (Prog.only_ask rfl)).bind fun _ => ?_
        refine (idle_ota (lasting_updated err) (dispatchEvent_only (fun _ _ _ => rfl) _)).bind
          fun _ => ?_
        exact .pure fun b h => h

end Update

end OtaApi.Rollback
