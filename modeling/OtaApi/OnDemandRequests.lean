import OtaApi.Calls
import OtaApi.OnDemand

/-!
# The requests of the on-demand application

Every command that is let in is handed to the worker once, in order, and with the URL
it was given. The buffer stays as it is as long as an update may read it, which is what
the header asks of the caller, and no update ever finds the slot taken.
-/

namespace OtaApi

open Interaction

namespace OnDemand

open CText

/-! ## The worker in the component -/

section Component

variable {build : BuildOptions} {s : System} {earlier : List Activation} {a : Activation}

/-- Every update there was has returned. -/
structure Idle (s : System) : Prop where
  live : s.restarted = false
  stack : s.stack otaWorker = []
  ended : ∀ a ∈ s.activations, ∃ r, a.result? = some r

/-- The worker is in the update it called last, and those before have returned. -/
structure Busy (s : System) (earlier : List Activation) (a : Activation) : Prop where
  live : s.restarted = false
  stack : s.stack otaWorker = [earlier.length]
  all : s.activations = earlier ++ [a]
  ended : ∀ b ∈ earlier, ∃ r, b.result? = some r
  update : ∃ config, a.routine = .otaApiUpdate config

theorem Busy.get (h : Busy s earlier a) : s.activations[earlier.length]? = some a := by
  simp [h.all]

theorem Busy.current (h : Busy s earlier a) : s.current? otaWorker = some (earlier.length, a) :=
  current?_alone h.stack h.get

theorem Busy.put (h : Busy s earlier a) (b : Activation) :
    (s.put earlier.length b).activations = earlier ++ [b] := by
  simp [System.put, h.all]

/-- The worker calls the update. -/
theorem Idle.call (h : Idle s) (config : OtaApiConfig) :
    Busy (s.step build (.otaApiUpdate otaWorker (some config))) s.activations
      (.start build (.otaApiUpdate (some config))) := by
  have hcur : s.current? otaWorker = none := by simp [System.current?, h.stack]
  have hin : s.inApp otaWorker = true := by
    simp only [System.inApp, hcur]
    rfl
  have hstep : s.step build (.otaApiUpdate otaWorker (some config)) =
      s.call build otaWorker (.otaApiUpdate (some config)) := by
    simp [System.step, h.live, hin]
  rw [hstep]
  refine ⟨h.live, ?_, rfl, h.ended, _, rfl⟩
  simp [System.call, h.stack]

/-- The update is at its end, and returns. -/
theorem Busy.return (h : Busy s earlier a) {r : EspErr} (hr : a.result? = some r) :
    Idle (s.step build (.advance otaWorker)) ∧
      (s.step build (.advance otaWorker)).activations = s.activations := by
  have hd : a.prog.turn = .done r := Turn.eq_done hr
  have hstep : s.step build (.advance otaWorker) =
      { s with stack := Function.update s.stack otaWorker [] } := by
    simp [System.step, h.live, System.advance, h.current, hd, leave_alone h.stack]
  rw [hstep]
  refine ⟨⟨h.live, by simp, fun b hb => ?_⟩, rfl⟩
  rw [h.all] at hb
  obtain hold | hlast := List.mem_append.mp hb
  · exact h.ended b hold
  · exact ⟨r, by rw [List.mem_singleton.mp hlast, hr]⟩

/-- What the update does by itself leaves the worker in it. -/
theorem Busy.advance (h : Busy s earlier a) (hs : a.Sound build) (hr : a.result? = none) :
    ∃ a', Busy (s.step build (.advance otaWorker)) earlier a' ∧ Evolves s.slot a a' := by
  obtain ⟨config, hupd⟩ := h.update
  obtain ⟨a', hgoes, hlive, hstack, hact⟩ := update_advance h.live h.current hs hupd hr
  have hev := hgoes.evolves
  refine ⟨a', ⟨hlive, ?_, ?_, h.ended, config, hev.routine_eq.trans hupd⟩, hev⟩
  · rw [hstack]
    exact h.stack
  · rw [hact]
    exact h.put a'

/-- So does what it has called coming back. -/
theorem Busy.answer (h : Busy s earlier a) (hs : a.Sound build) (reply : Reply) :
    ∃ a', Busy (s.step build (.answer otaWorker reply)) earlier a' ∧ Evolves s.slot a a' := by
  obtain ⟨config, hupd⟩ := h.update
  obtain hsame | ⟨c, k, answer, ht, he, ha, hlive, hstack, hact⟩ := update_answer h.current hs hupd reply
  · rw [hsame]
    exact ⟨a, h, .same⟩
  · refine ⟨a.resume k answer, ⟨hlive, ?_, ?_, h.ended, config, hupd⟩,
      .answered answer ht he (answer?_not_critical ha)⟩
    · rw [hstack]
      exact h.stack
    · rw [hact]
      exact h.put _

end Component

/-! ## The place in which the URL is handed over -/

section Requests

variable {o : Options} {t : List (Handover Str)} {s : State}

/-- The URLs of the commands that were let in. -/
def State.accepted (s : State) : List Str := cameBack 0 s.codes

/-- What holds whatever the place is used for. -/
structure Trail (o : Options) (t : List (Handover Str)) (s : State) : Prop where
  reached : ∃ ls, s.system = System.run o.build ls
  calls : s.system.activations.map Activation.routine =
    (takes t).map fun url => .otaApiUpdate (some (o.otaConfig url))
  granted : ∀ a ∈ s.system.activations, a.Granted
  accepted : s.accepted = offers t
  terminated : s.sOtaUrl.Terminated

/-- How far the console has come with a command it has let in. -/
def Filling (s : State) : Prop :=
  match s.console with
  | .prompt => False
  | .admitted _ => s.sOtaRunning = false
  | .copying url k => s.sOtaRunning = false ∧ url.strlen < otaUrlSize ∧ s.sOtaUrl.Copying url k
  | .copied url => s.sOtaRunning = false ∧ s.sOtaUrl.str = url
  | .announced url => s.sOtaRunning = false ∧ s.sOtaUrl.str = url
  | .flagged url => s.sOtaRunning = true ∧ s.sOtaUrl.str = url

/-- The worker has been asked and has not called the update yet. -/
def Asked (s : State) : Prop :=
  (s.sOtaRequest = true ∧ s.worker = .waiting) ∨ (s.sOtaRequest = false ∧ s.worker = .requested)

/-- The worker has called the update and has not lowered the flag yet. -/
def Serving (s : State) : Prop :=
  s.sOtaRequest = false ∧
    ((s.worker = .updating ∧ ∃ earlier a, Busy s.system earlier a) ∨
      ∃ err, s.worker = .returned err ∧ Idle s.system)

/-- What the two tasks are doing, after what the place is used for. -/
def Standing : Handoff Str → State → Prop
  | .free, s => s.console = .prompt ∧ s.sOtaRunning = false ∧ s.sOtaRequest = false ∧
      s.worker = .waiting ∧ Idle s.system
  | .filling, s => Filling s ∧ s.sOtaRequest = false ∧ s.worker = .waiting ∧ Idle s.system
  | .handed url, s => s.console = .prompt ∧ s.sOtaRunning = true ∧ s.sOtaUrl.str = url ∧
      Asked s ∧ Idle s.system
  | .serving url, s => s.console = .prompt ∧ s.sOtaRunning = true ∧ s.sOtaUrl.str = url ∧ Serving s

/-- A run of the application and the machine it has been through. -/
structure Refines (o : Options) (t : List (Handover Str)) (h : Handoff Str) (s : State) : Prop where
  trail : Trail o t s
  standing : Standing h s

theorem refines_initial (o : Options) : Refines o [] .free .initial where
  trail := ⟨⟨[], rfl⟩, rfl, by simp [State.initial, System.initial], rfl,
    Buffer.terminated_zeroed (by decide)⟩
  standing := ⟨rfl, rfl, rfl, rfl, rfl, rfl, by simp [State.initial, System.initial]⟩

/-- The prompt and a raised flag: the place is taken. -/
theorem Standing.flag {h : Handoff Str} (hs : Standing h s) (hc : s.console = .prompt)
    (hf : s.sOtaRunning = false) : h = .free := by
  cases h with
  | free => rfl
  | filling => simp [Standing, Filling, hc] at hs
  | handed url => simp [Standing, hf] at hs
  | serving url => simp [Standing, hf] at hs

/-- Away from the prompt the console is filling the place. -/
theorem Standing.busy {h : Handoff Str} (hs : Standing h s) (hc : s.console ≠ .prompt) :
    h = .filling := by
  cases h with
  | free => exact absurd hs.1 hc
  | filling => rfl
  | handed url => exact absurd hs.1 hc
  | serving url => exact absurd hs.1 hc

/-- An event that is neither an offer nor a call of the update leaves the trail as it is. -/
theorem Trail.keep {s' : State} {t' : List (Handover Str)} (h : Trail o t s)
    (hsystem : s'.system = s.system) (htakes : takes t' = takes t) (hacc : s'.accepted = offers t')
    (hurl : s'.sOtaUrl.Terminated) : Trail o t' s' := by
  refine ⟨?_, ?_, ?_, hacc, hurl⟩
  · rw [hsystem]
    exact h.reached
  · rw [hsystem, htakes]
    exact h.calls
  · rw [hsystem]
    exact h.granted

theorem Trail.accepted_event (h : Trail o t s) {e : Handover Str} (he : e.offer? = none) :
    s.accepted = offers (t ++ [e]) := by
  rw [offers_event he, h.accepted]

/-- A command is let in exactly when the place is free. -/
theorem cmdOta_matched {h : Handoff Str} (hr : Refines o t h s) (hlive : s.restarted = false)
    (arg : Option Str) :
    Matched Handoff.Move (Refines o) t h (s.step o (.cmdOta arg)) (observe s (.cmdOta arg)) := by
  obtain ⟨htrail, hstand⟩ := hr
  by_cases hc : s.console = .prompt
  · have hstep : s.step o (.cmdOta arg) =
        s.cmdOta (arg.getD o.exampleDefaultFirmwareUpgradeUrl) := by simp [State.step, hlive, hc]
    rw [hstep, State.cmdOta]
    by_cases hf : s.sOtaRunning = true
    · have hobs : observe s (.cmdOta arg) = none := by simp [observe, hlive, hf]
      rw [hobs, if_pos hf]
      refine .stays
        ⟨htrail.keep rfl rfl ((cameBack_other (by decide) _).trans htrail.accepted) htrail.terminated, ?_⟩
      cases h with
      | free => exact hstand
      | filling => exact hstand
      | handed url => exact hstand
      | serving url => exact hstand
    · have hobs : observe s (.cmdOta arg) = some .opened := by simp [observe, hlive, hc, hf]
      obtain rfl := hstand.flag hc (by simpa using hf)
      rw [hobs, if_neg hf]
      obtain ⟨_, hflag, hreq, hworker, hidle⟩ := hstand
      have hfilling :
          Filling { s with console := .admitted (arg.getD o.exampleDefaultFirmwareUpgradeUrl) } :=
        hflag
      exact .moves .opened
        ⟨htrail.keep rfl (takes_event rfl) (htrail.accepted_event rfl) htrail.terminated,
          hfilling, hreq, hworker, hidle⟩
  · have hstep : s.step o (.cmdOta arg) = s := by simp [State.step, hlive, hc]
    have hobs : observe s (.cmdOta arg) = none := by simp [observe, hlive, hc]
    rw [hstep, hobs]
    exact .stays ⟨htrail, hstand⟩

/-- The console brings the URL of its command into the buffer, and offers it there. -/
theorem console_matched {h : Handoff Str} (hr : Refines o t h s) (hlive : s.restarted = false) :
    Matched Handoff.Move (Refines o) t h (s.step o .console) (observe s .console) := by
  obtain ⟨htrail, hstand⟩ := hr
  have hstep : s.step o .console = s.cmdOtaNext := by simp [State.step, hlive]
  rw [hstep, State.cmdOtaNext]
  cases hc : s.console with
  | prompt =>
    have hobs : observe s .console = none := by simp [observe, hlive, hc]
    rw [hobs]
    exact .stays ⟨htrail, hstand⟩
  | admitted url =>
    obtain rfl := hstand.busy (by simp [hc])
    obtain ⟨hfilling, hreq, hworker, hidle⟩ := hstand
    simp only [Filling, hc] at hfilling
    by_cases hlong : otaUrlSize ≤ url.strlen
    · have hobs : observe s .console = some .withdrawn := by simp [observe, hlive, hc, hlong]
      rw [hobs]
      dsimp only
      rw [if_pos hlong]
      refine .moves .withdrawn
        ⟨htrail.keep rfl (takes_event rfl) ?_ htrail.terminated, rfl, hfilling, hreq, hworker, hidle⟩
      exact (cameBack_other (by decide) _).trans (htrail.accepted_event rfl)
    · have hobs : observe s .console = none := by simp [observe, hlive, hc, hlong]
      rw [hobs]
      dsimp only
      rw [if_neg hlong]
      have hcopy : Filling { s with console := .copying url 0 } :=
        ⟨hfilling, Nat.lt_of_not_le hlong, Buffer.Copying.start _ _⟩
      exact .stays ⟨htrail.keep rfl rfl htrail.accepted htrail.terminated, hcopy, hreq, hworker, hidle⟩
  | copying url k =>
    have hobs : observe s .console = none := by simp [observe, hlive, hc]
    rw [hobs]
    obtain rfl := hstand.busy (by simp [hc])
    obtain ⟨hfilling, hreq, hworker, hidle⟩ := hstand
    simp only [Filling, hc] at hfilling
    obtain ⟨hflag, hfits, hcopying⟩ := hfilling
    have hterm := htrail.terminated.snprintfByte url k
    obtain ⟨buf, hbyte, hcopying⟩ | ⟨buf, hbyte, _, hcopied⟩ := hcopying.next hfits
    · rw [hbyte] at hterm
      dsimp only
      rw [hbyte]
      have hfilling : Filling { s with sOtaUrl := buf, console := .copying url (k + 1) } :=
        ⟨hflag, hfits, hcopying⟩
      exact .stays ⟨htrail.keep rfl rfl htrail.accepted hterm, hfilling, hreq, hworker, hidle⟩
    · rw [hbyte] at hterm
      dsimp only
      rw [hbyte]
      have hfilling : Filling { s with sOtaUrl := buf, console := .copied url } := ⟨hflag, hcopied⟩
      exact .stays ⟨htrail.keep rfl rfl htrail.accepted hterm, hfilling, hreq, hworker, hidle⟩
  | copied url =>
    have hobs : observe s .console = none := by simp [observe, hlive, hc]
    rw [hobs]
    obtain rfl := hstand.busy (by simp [hc])
    obtain ⟨hfilling, hreq, hworker, hidle⟩ := hstand
    simp only [Filling, hc] at hfilling
    exact .stays ⟨htrail.keep rfl rfl htrail.accepted htrail.terminated, hfilling, hreq, hworker, hidle⟩
  | announced url =>
    have hobs : observe s .console = none := by simp [observe, hlive, hc]
    rw [hobs]
    obtain rfl := hstand.busy (by simp [hc])
    obtain ⟨hfilling, hreq, hworker, hidle⟩ := hstand
    simp only [Filling, hc] at hfilling
    have hflagged : Filling { s with console := .flagged url, sOtaRunning := true } := ⟨rfl, hfilling.2⟩
    exact .stays ⟨htrail.keep rfl rfl htrail.accepted htrail.terminated, hflagged, hreq, hworker, hidle⟩
  | flagged url =>
    have hobs : observe s .console = some (.offered url) := by simp [observe, hlive, hc]
    rw [hobs]
    obtain rfl := hstand.busy (by simp [hc])
    obtain ⟨hfilling, hreq, hworker, hidle⟩ := hstand
    simp only [Filling, hc] at hfilling
    refine .moves (.offered url)
      ⟨htrail.keep rfl (takes_event rfl) ?_ htrail.terminated, rfl, hfilling.1, hfilling.2,
        .inl ⟨rfl, hworker⟩, hidle⟩
    rw [offers_snoc, ← htrail.accepted]
    exact cameBack_snoc _

theorem Trail.sound (h : Trail o t s) {i : Nat} {a : Activation}
    (ha : s.system.activations[i]? = some a) : a.Sound o.build := by
  obtain ⟨ls, hls⟩ := h.reached
  rw [hls] at ha
  exact run_sound ha

theorem Trail.reached_step (h : Trail o t s) (l : OtaApi.Label) :
    ∃ ls, s.system.step o.build l = System.run o.build ls := by
  obtain ⟨ls, hls⟩ := h.reached
  refine ⟨ls ++ [l], ?_⟩
  rw [hls, System.run, System.run, exec_snoc]

/-- The claim of the worker's update is granted: those before it are over. -/
theorem Busy.free {earlier : List Activation} {a : Activation} (hb : Busy s.system earlier a)
    (h : Trail o t s) {k : Bool → Program EspErr} (ht : a.prog.turn = .call .claimUpdateSlot k) :
    s.system.slot.sRunning = false := by
  obtain ⟨ls, hls⟩ := h.reached
  have hget := hb.get
  rw [hls] at hget ⊢
  refine claim_unopposed hget ht fun j b hj hbj => ?_
  have hmem : b ∈ earlier := by
    have hin := hbj
    rw [← hls, hb.all] at hin
    obtain hold | hlast := List.mem_append.mp (List.mem_of_getElem? hin)
    · exact hold
    · have hlt : j < earlier.length := by
        obtain ⟨hlt, _⟩ := List.getElem?_eq_some_iff.mp hin
        rw [List.length_append, List.length_singleton] at hlt
        omega
      rw [List.getElem?_append_left hlt] at hin
      exact List.mem_of_getElem? hin
  obtain ⟨r, hr⟩ := hb.ended b hmem
  exact returned_free hbj hr

/-- The trail while the worker is in its update. -/
theorem Trail.evolve {s' : State} {earlier : List Activation} {a a' : Activation} (h : Trail o t s)
    (hb : Busy s.system earlier a) (hb' : Busy s'.system earlier a')
    (hev : Evolves s.system.slot a a') (hreached : ∃ ls, s'.system = System.run o.build ls)
    (hurl : s'.sOtaUrl = s.sOtaUrl) (hcodes : s'.codes = s.codes) : Trail o t s' := by
  constructor
  case reached => exact hreached
  case calls =>
    rw [← h.calls, hb.all, hb'.all]
    simp [hev.routine_eq]
  case granted =>
    intro b hmem
    rw [hb'.all] at hmem
    have hall := h.granted
    rw [hb.all] at hall
    obtain hold | hlast := List.mem_append.mp hmem
    · exact hall b (List.mem_append_left _ hold)
    · rw [List.mem_singleton.mp hlast]
      exact hev.granted (fun k ht => hb.free h ht) (hall a List.mem_concat_self)
  case accepted =>
    rw [State.accepted, hcodes]
    exact h.accepted
  case terminated =>
    rw [hurl]
    exact h.terminated

/-- The worker calls the update with the URL that waits in the buffer. -/
theorem requested_matched {url : Str} (hr : Refines o t (.handed url) s)
    (hw : s.worker = .requested) (hlive : s.restarted = false) :
    Matched Handoff.Move (Refines o) t (.handed url) (s.step o .worker) (observe s .worker) := by
  obtain ⟨htrail, hc, hflag, hstr, hasked, hidle⟩ := hr
  have hreq : s.sOtaRequest = false := by
    obtain ⟨_, hwaiting⟩ | ⟨hreq, _⟩ := hasked
    · rw [hw] at hwaiting
      cases hwaiting
    · exact hreq
  have hstep : s.step o .worker = s.otaWorkerTask o := by simp [State.step, hlive]
  have hobs : observe s .worker = some (.taken url) := by simp [observe, hlive, hw, hstr]
  rw [hstep, State.otaWorkerTask, hw, hobs]
  dsimp only
  have hbusy := @Idle.call o.build s.system hidle (o.otaConfig s.sOtaUrl.str)
  have hreached := htrail.reached_step (.otaApiUpdate otaWorker (some (o.otaConfig s.sOtaUrl.str)))
  refine .moves (.taken url)
    ⟨⟨hreached, ?_, ?_, ?_, htrail.terminated⟩, hc, hflag, hstr, hreq, ?_⟩
  · change List.map _ (s.system.step o.build _).activations = _
    rw [hbusy.all, takes_snoc, List.map_append, htrail.calls, hstr]
    simp [Handover.take?, Activation.start]
  · intro a hmem
    change a ∈ (s.system.step o.build _).activations at hmem
    rw [hbusy.all] at hmem
    obtain hold | hnew := List.mem_append.mp hmem
    · exact htrail.granted a hold
    · rw [List.mem_singleton.mp hnew]
      exact granted_start _
  · exact htrail.accepted_event rfl
  · exact .inl ⟨rfl, _, _, hbusy⟩

/-- What the worker does in the update, and the return from it. -/
theorem updating_matched {url : Str} (hr : Refines o t (.serving url) s)
    (hw : s.worker = .updating) (hlive : s.restarted = false) :
    Matched Handoff.Move (Refines o) t (.serving url) (s.step o .worker) (observe s .worker) := by
  obtain ⟨htrail, hc, hflag, hstr, hreq, hserving⟩ := hr
  obtain ⟨_, earlier, a, hbusy⟩ | ⟨err, hret, _⟩ := hserving
  · have hstep : s.step o .worker = s.otaWorkerTask o := by simp [State.step, hlive]
    have hobs : observe s .worker = none := by simp [observe, hlive, hw]
    have hresult : s.updateResult? = a.result? := by simp [State.updateResult?, hbusy.current]
    rw [hstep, State.otaWorkerTask, hw, hobs]
    dsimp only
    rw [hresult]
    cases hres : a.result? with
    | some r =>
      obtain ⟨hidle, hsame⟩ := @Busy.return o.build s.system earlier a hbusy r hres
      refine .stays ⟨⟨htrail.reached_step (.advance otaWorker), ?_, ?_, htrail.accepted,
        htrail.terminated⟩, hc, hflag, hstr, hreq, ?_⟩
      · exact (congrArg (List.map _) hsame).trans htrail.calls
      · intro b hmem
        exact htrail.granted b (hsame ▸ hmem)
      · exact .inr ⟨r, rfl, hidle⟩
    | none =>
      obtain ⟨a', hbusy', hev⟩ := hbusy.advance (htrail.sound hbusy.get) hres
      exact .stays ⟨htrail.evolve hbusy hbusy' hev (htrail.reached_step (.advance otaWorker)) rfl rfl,
        hc, hflag, hstr, hreq, .inl ⟨rfl, _, _, hbusy'⟩⟩
  · rw [hw] at hret
    cases hret

/-- The worker, wherever it is. -/
theorem worker_matched {h : Handoff Str} (hr : Refines o t h s) (hlive : s.restarted = false) :
    Matched Handoff.Move (Refines o) t h (s.step o .worker) (observe s .worker) := by
  have hstep : s.step o .worker = s.otaWorkerTask o := by simp [State.step, hlive]
  cases hw : s.worker with
  | waiting =>
    have hobs : observe s .worker = none := by simp [observe, hlive, hw]
    rw [hstep, State.otaWorkerTask, hw, hobs]
    dsimp only
    obtain ⟨htrail, hstand⟩ := hr
    by_cases hreq : s.sOtaRequest = true
    · rw [if_pos hreq]
      have hkept : Trail o t { s with sOtaRequest := false, worker := .requested } :=
        htrail.keep rfl rfl htrail.accepted htrail.terminated
      cases h with
      | free => simp [Standing, hreq] at hstand
      | filling => simp [Standing, hreq] at hstand
      | serving url => simp [Standing, Serving, hreq] at hstand
      | handed url =>
        obtain ⟨hc, hflag, hstr, _, hidle⟩ := hstand
        exact .stays ⟨hkept, hc, hflag, hstr, .inr ⟨rfl, rfl⟩, hidle⟩
    · rw [if_neg hreq]
      exact .stays ⟨htrail, hstand⟩
  | requested =>
    have hstand := hr.standing
    cases h with
    | free => simp [Standing, hw] at hstand
    | filling => simp [Standing, hw] at hstand
    | serving url => simp [Standing, Serving, hw] at hstand
    | handed url => exact requested_matched hr hw hlive
  | updating =>
    have hstand := hr.standing
    cases h with
    | free => simp [Standing, hw] at hstand
    | filling => simp [Standing, hw] at hstand
    | handed url => simp [Standing, Asked, hw] at hstand
    | serving url => exact updating_matched hr hw hlive
  | returned err =>
    obtain ⟨htrail, hstand⟩ := hr
    rw [hstep, State.otaWorkerTask, hw]
    dsimp only
    cases h with
    | free => simp [Standing, hw] at hstand
    | filling => simp [Standing, hw] at hstand
    | handed url => simp [Standing, Asked, hw] at hstand
    | serving url =>
      obtain ⟨hc, hflag, hstr, hreq, ⟨hup, _⟩ | ⟨_, _, hidle⟩⟩ := hstand
      · rw [hw] at hup
        cases hup
      by_cases herr : err ≠ espOk
      · have hobs : observe s .worker = some .settled := by simp [observe, hlive, hw, herr]
        rw [hobs, if_pos herr]
        exact .moves (.settled url)
          ⟨htrail.keep rfl (takes_event rfl) (htrail.accepted_event rfl) htrail.terminated,
            hc, rfl, hreq, rfl, hidle⟩
      · have hobs : observe s .worker = none := by simp [observe, hlive, hw, herr]
        rw [hobs, if_neg herr]
        exact .stays ⟨htrail.keep rfl rfl htrail.accepted htrail.terminated, hc, hflag, hstr, hreq,
          .inr ⟨err, rfl, hidle⟩⟩

/-- What the update has called comes back. -/
theorem answer_matched {h : Handoff Str} (hr : Refines o t h s) (hlive : s.restarted = false)
    (reply : Reply) :
    Matched Handoff.Move (Refines o) t h (s.step o (.answer reply)) (observe s (.answer reply)) := by
  have hobs : observe s (.answer reply) = none := by simp [observe, hlive]
  rw [hobs]
  by_cases hw : s.worker = .updating
  · have hstep : s.step o (.answer reply) =
        { s with system := s.system.step o.build (.answer otaWorker reply) } := by
      simp [State.step, hlive, hw]
    rw [hstep]
    obtain ⟨htrail, hstand⟩ := hr
    cases h with
    | free => simp [Standing, hw] at hstand
    | filling => simp [Standing, hw] at hstand
    | handed url => simp [Standing, Asked, hw] at hstand
    | serving url =>
      obtain ⟨hc, hflag, hstr, hreq, ⟨_, earlier, a, hbusy⟩ | ⟨err, hret, _⟩⟩ := hstand
      · obtain ⟨a', hbusy', hev⟩ := hbusy.answer (htrail.sound hbusy.get) reply
        have hreached := htrail.reached_step (.answer otaWorker reply)
        exact .stays ⟨htrail.evolve hbusy hbusy' hev hreached rfl rfl, hc, hflag, hstr, hreq,
          .inl ⟨hw, _, _, hbusy'⟩⟩
      · rw [hw] at hret
        cases hret
  · have hstep : s.step o (.answer reply) = s := by simp [State.step, hlive, hw]
    rw [hstep]
    exact .stays hr

/-- Every step of the application is matched by the place. -/
theorem step_matched {h : Handoff Str} (hr : Refines o t h s) (l : Label) :
    Matched Handoff.Move (Refines o) t h (s.step o l) (observe s l) := by
  by_cases hlive : s.restarted = false
  · cases l with
    | cmdOta arg => exact cmdOta_matched hr hlive arg
    | console => exact console_matched hr hlive
    | worker => exact worker_matched hr hlive
    | answer reply => exact answer_matched hr hlive reply
  · have hstep : s.step o l = s := by simp [State.step, hlive]
    have hobs : observe s l = none := by simp [observe, hlive]
    rw [hstep, hobs]
    exact .stays hr

/-- The application hands its requests over one at a time. -/
theorem run_refines (o : Options) (ls : List Label) :
    ∃ h, Path Handoff.Move .free (events o ls) h ∧ Refines o (events o ls) h (run o ls) :=
  exec_refines (fun _ _ _ l hr => step_matched hr l) (refines_initial o) ls

/-! ## What the application promises -/

/-- Nothing is lost, repeated or overtaken between the commands and the updates. -/
structure ServedInOrder (o : Options) (ls : List Label) : Prop where
  /-- The two tasks take turns at the place, as the machine has it. -/
  turns : ∃ h, Path Handoff.Move .free (events o ls) h
  /-- The updates are those of the commands that were let in; one may still wait. -/
  served : ∃ called waiting, (run o ls).accepted = called ++ waiting ∧ waiting.length ≤ 1 ∧
    (run o ls).system.activations.map Activation.routine =
      called.map fun url => .otaApiUpdate (some (o.otaConfig url))
  /-- Nothing waits and nothing is under way when the flag is down at the prompt. -/
  quiet : (run o ls).console = .prompt → (run o ls).sOtaRunning = false →
    (run o ls).system.activations.map Activation.routine =
        (run o ls).accepted.map (fun url => .otaApiUpdate (some (o.otaConfig url))) ∧
      ∀ a ∈ (run o ls).system.activations, ∃ r, a.result? = some r

theorem waiting_length (h : Handoff Str) : h.waiting.length ≤ 1 := by
  cases h <;> simp [Handoff.waiting]

theorem served_in_order (o : Options) (ls : List Label) : ServedInOrder o ls := by
  obtain ⟨h, hpath, hr⟩ := run_refines o ls
  constructor
  case turns => exact ⟨h, hpath⟩
  case served =>
    refine ⟨takes (events o ls), h.waiting, ?_, waiting_length h, hr.trail.calls⟩
    rw [hr.trail.accepted, Handoff.offers_eq hpath]
  case quiet =>
    intro hc hf
    obtain rfl := hr.standing.flag hc hf
    obtain ⟨_, _, _, _, hidle⟩ := hr.standing
    have hall : (run o ls).accepted = takes (events o ls) := by
      rw [hr.trail.accepted, Handoff.offers_eq hpath]
      exact List.append_nil _
    refine ⟨?_, hidle.ended⟩
    rw [hall]
    exact hr.trail.calls

/-- What the header asks of a caller of `ota_api_update()`. -/
structure BufferKept (o : Options) (s : State) : Prop where
  /-- The pointer in the configuration of an update that has not returned still leads to
  the URL it was called with. -/
  url : ∀ a ∈ s.system.activations, a.result? = none →
    a.routine = .otaApiUpdate (some (o.otaConfig s.sOtaUrl.str))
  alone : ∀ (i j : Nat) (a b : Activation), s.system.activations[i]? = some a →
    s.system.activations[j]? = some b → a.result? = none → b.result? = none → i = j
  /-- No update found the slot taken. -/
  granted : ∀ a ∈ s.system.activations, a.Granted ∧ ∀ r, a.result? = some r → a.claims = 1
  terminated : s.sOtaUrl.Terminated

/-- An update that has returned without being turned away has had the slot. -/
theorem granted_claims {build : BuildOptions} {a : Activation} {config : OtaApiConfig} {url : String}
    {r : EspErr} (hs : a.Sound build) (hu : a.Updates config url) (hg : a.Granted)
    (hr : a.result? = some r) : a.claims = 1 := by
  obtain ⟨ph, hpath, hprog⟩ := update_path hs hu
  obtain rfl | rfl := update_result? hprog hr
  · exact (path_claims hpath).1
  · have htrace : a.trace = [⟨.claimUpdateSlot, false⟩] := path_facts hpath
    simp [Activation.Granted, htrace] at hg

theorem Trail.updates (h : Trail o t s) {a : Activation} (ha : a ∈ s.system.activations) :
    ∃ url, a.Updates (o.otaConfig url) url.text := by
  have hmem : a.routine ∈ (takes t).map fun url => Routine.otaApiUpdate (some (o.otaConfig url)) := by
    rw [← h.calls]
    exact List.mem_map_of_mem ha
  obtain ⟨url, _, hroutine⟩ := List.mem_map.mp hmem
  exact ⟨url, hroutine.symm, rfl⟩

/-- Whoever has not returned is the one update the worker is in. -/
theorem Standing.unreturned {h : Handoff Str} (hs : Standing h s) {a : Activation} {i : Nat}
    (ha : s.system.activations[i]? = some a) (hr : a.result? = none) :
    ∃ url earlier, h = .serving url ∧ s.sOtaUrl.str = url ∧ i = earlier.length ∧
      Busy s.system earlier a := by
  have hmem := List.mem_of_getElem? ha
  have returned : ∀ {b : Activation}, (∃ r, b.result? = some r) → b ≠ a := by
    rintro b ⟨r, hb⟩ rfl
    rw [hr] at hb
    cases hb
  cases h with
  | free => exact absurd rfl (returned (hs.2.2.2.2.ended a hmem))
  | filling => exact absurd rfl (returned (hs.2.2.2.ended a hmem))
  | handed url => exact absurd rfl (returned (hs.2.2.2.2.ended a hmem))
  | serving url =>
    obtain ⟨_, _, hstr, _, ⟨_, earlier, b, hbusy⟩ | ⟨_, _, hidle⟩⟩ := hs
    · have hget := ha
      rw [hbusy.all] at hget
      by_cases hlt : i < earlier.length
      · rw [List.getElem?_append_left hlt] at hget
        exact absurd rfl (returned (hbusy.ended a (List.mem_of_getElem? hget)))
      · obtain ⟨hlen, _⟩ := List.getElem?_eq_some_iff.mp hget
        rw [List.length_append, List.length_singleton] at hlen
        obtain rfl : i = earlier.length := by omega
        rw [List.getElem?_concat_length] at hget
        cases hget
        exact ⟨url, earlier, rfl, hstr, rfl, hbusy⟩
    · exact absurd rfl (returned (hidle.ended a hmem))

theorem buffer_kept (o : Options) (ls : List Label) : BufferKept o (run o ls) := by
  obtain ⟨h, hpath, hr⟩ := run_refines o ls
  constructor
  case url =>
    intro a hmem hnone
    obtain ⟨i, ha⟩ := List.getElem?_of_mem hmem
    obtain ⟨url, earlier, rfl, hstr, rfl, hbusy⟩ := hr.standing.unreturned ha hnone
    have hlast := congrArg List.getLast? hr.trail.calls
    rw [hbusy.all, List.getLast?_map, List.getLast?_map, List.getLast?_concat,
      Handoff.serving_last hpath] at hlast
    rw [hstr]
    exact Option.some.inj hlast
  case alone =>
    intro i j a b ha hb hnone hnone'
    obtain ⟨_, earlier, _, _, rfl, hbusy⟩ := hr.standing.unreturned ha hnone
    obtain ⟨_, earlier', _, _, rfl, hbusy'⟩ := hr.standing.unreturned hb hnone'
    have hlen := congrArg List.length (hbusy.all.symm.trans hbusy'.all)
    simpa using hlen
  case granted =>
    intro a hmem
    obtain ⟨i, ha⟩ := List.getElem?_of_mem hmem
    obtain ⟨url, hu⟩ := hr.trail.updates hmem
    exact ⟨hr.trail.granted a hmem, fun r hres =>
      granted_claims (hr.trail.sound ha) hu (hr.trail.granted a hmem) hres⟩
  case terminated => exact hr.trail.terminated

/-! ## Another attempt -/

/-- The steps of a command up to its return, and those of the worker up to the claim. -/
def request (url : Str) : List Label :=
  .cmdOta (some url) :: .console :: (List.replicate (url.strlen + 1) .console ++
    [.console, .console, .console, .worker, .worker, .worker])

/-- A copy that fits comes to its end. -/
theorem copy_completes {s : State} {url : Str} (hlive : s.restarted = false)
    (hfits : url.strlen < otaUrlSize) :
    ∀ (n : Nat) (buf : Buffer otaUrlSize) (k : Nat), url.strlen - k = n → buf.Copying url k →
      ∃ buf' : Buffer otaUrlSize, buf'.str = url ∧
        exec (State.step o) { s with sOtaUrl := buf, console := .copying url k }
            (List.replicate (n + 1) .console) =
          { s with sOtaUrl := buf', console := .copied url } := by
  intro n
  induction n with
  | zero =>
    intro buf k hk hcopying
    obtain ⟨_, _, hmore⟩ | ⟨buf', hbyte, _, hcopied⟩ := hcopying.next hfits
    · have := hmore.le
      omega
    · refine ⟨buf', hcopied, ?_⟩
      simp [State.step, hlive, State.cmdOtaNext, hbyte]
  | succ n ih =>
    intro buf k hk hcopying
    obtain ⟨buf', hbyte, hmore⟩ | ⟨_, _, hend, _⟩ := hcopying.next hfits
    · obtain ⟨buf'', hcopied, hrest⟩ := ih buf' (k + 1) (by omega) hmore
      refine ⟨buf'', hcopied, ?_⟩
      rw [List.replicate_succ, exec_cons, ← hrest]
      congr 1
      simp [State.step, hlive, State.cmdOtaNext, hbyte]
    · omega

/-- A command is let in, and its update called and given the slot. -/
structure Requested (o : Options) (url : Str) (s s' : State) : Prop where
  letIn : s'.accepted = s.accepted ++ [url]
  called : ∃ a, s'.system.activations = s.system.activations ++ [a] ∧
    a.routine = .otaApiUpdate (some (o.otaConfig url)) ∧ a.claims = 1 ∧ a.releases = 0

/-- Where every update is over, the claim of the next one is granted. -/
theorem Idle.claim {build : BuildOptions} {s : System} (h : Idle s)
    (hreached : ∃ ls, s = System.run build ls) {config : OtaApiConfig} {url : String}
    (hu : config.url = some url) :
    ∃ a, ((s.step build (.otaApiUpdate otaWorker (some config))).step build
          (.advance otaWorker)).activations = s.activations ++ [a] ∧
      a.routine = .otaApiUpdate (some config) ∧ a.claims = 1 ∧ a.releases = 0 := by
  have hbusy := @Idle.call build s h config
  have hfree : s.slot.sRunning = false := by
    obtain ⟨ls, rfl⟩ := hreached
    by_contra hrunning
    obtain ⟨j, b, hb, hholds⟩ := (run_singleSlot ls).running.mp (by simpa using hrunning)
    obtain ⟨r, hres⟩ := h.ended b (List.mem_of_getElem? hb)
    rw [returned_free hb hres] at hholds
    cases hholds
  have hslot : (s.step build (.otaApiUpdate otaWorker (some config))).slot = s.slot :=
    (step_branch _ _).update_slot
  have hclaim : criticalSection (s.step build (.otaApiUpdate otaWorker (some config))).slot
      .claimUpdateSlot = some (true, ⟨true, false⟩) := by
    simp [criticalSection, otaApiClaimUpdateSlot, hslot, hfree]
  have hturn : (Activation.start build (.otaApiUpdate (some config))).prog.turn =
      (prog build config url .claiming).turn := congrArg Prog.turn (otaApiUpdate_prog hu)
  obtain ⟨k, hcall⟩ : ∃ k, (prog build config url .claiming).turn = .call .claimUpdateSlot k :=
    ⟨_, rfl⟩
  rw [step_passing hbusy.live hbusy.current (hturn.trans hcall) rfl hclaim]
  exact ⟨_, hbusy.put _, rfl, rfl, rfl⟩

/-- It is the worker that restarts the device, and it goes no further. -/
theorem restarted_returned (o : Options) (ls : List Label) :
    (run o ls).restarted = true → ∃ err, (run o ls).worker = .returned err := by
  have keep : ∀ (s : State) (l : Label), (s.restarted = true → ∃ err, s.worker = .returned err) →
      (s.step o l).restarted = true → ∃ err, (s.step o l).worker = .returned err := by
    intro s l ih hres
    by_cases hlive : s.restarted = true
    · have hstep : s.step o l = s := by simp [State.step, hlive]
      rw [hstep]
      exact ih hlive
    · unfold State.step at hres ⊢
      rw [if_neg hlive] at hres ⊢
      cases l with
      | cmdOta arg =>
        dsimp only [State.cmdOta] at hres
        split at hres
        · split at hres <;> exact absurd hres hlive
        · exact absurd hres hlive
      | console =>
        dsimp only [State.cmdOtaNext] at hres
        split at hres
        case h_2 => split at hres <;> exact absurd hres hlive
        case h_3 => split at hres <;> exact absurd hres hlive
        all_goals exact absurd hres hlive
      | worker =>
        cases hw : s.worker with
        | returned err =>
          refine ⟨err, ?_⟩
          by_cases herr : err = espOk <;> simp [State.otaWorkerTask, hw, herr, hlive] at hres ⊢
        | waiting =>
          simp only [State.otaWorkerTask, hw] at hres
          split at hres <;> exact absurd hres hlive
        | _ =>
          simp only [State.otaWorkerTask, hw] at hres
          exact absurd hres hlive
      | answer reply =>
        dsimp only at hres
        split at hres <;> exact absurd hres hlive
  exact exec_invariant keep (by simp [State.initial]) ls

/-- With the flag down another attempt can always be made, whatever became of those
before it. -/
theorem request_served (o : Options) (ls : List Label) (hdown : (run o ls).sOtaRunning = false)
    (hprompt : (run o ls).console = .prompt) (url : Str) (hfits : url.strlen < otaUrlSize) :
    Requested o url (run o ls) (run o (ls ++ request url)) := by
  obtain ⟨h, _, hr⟩ := run_refines o ls
  obtain rfl := hr.standing.flag hprompt hdown
  obtain ⟨_, _, hreq, hworker, hidle⟩ := hr.standing
  have hlive : (run o ls).restarted = false := by
    by_contra hres
    obtain ⟨err, hret⟩ := restarted_returned o ls (by simpa using hres)
    rw [hworker] at hret
    cases hret
  have hreached := hr.trail.reached
  have hsplit : run o (ls ++ request url) = exec (State.step o) (run o ls) (request url) :=
    exec_append _ ls _
  rw [hsplit]
  clear hr hsplit
  generalize run o ls = s at *
  -- the command up to the copy
  have hadmitted : s.step o (.cmdOta (some url)) = { s with console := .admitted url } := by
    simp [State.step, hlive, hprompt, State.cmdOta, hdown]
  have hstarted : State.step o { s with console := .admitted url } .console =
      { s with console := .copying url 0 } := by
    simp [State.step, hlive, State.cmdOtaNext, Nat.not_le_of_lt hfits]
  obtain ⟨buf, hstr, hcopied⟩ := @copy_completes o s url hlive hfits url.strlen s.sOtaUrl 0 rfl
    (Buffer.Copying.start _ _)
  -- the offer, the call, and the claim
  have hnone : (Activation.start o.build (.otaApiUpdate (some (o.otaConfig url)))).result? = none :=
    rfl
  have hbusy := @Idle.call o.build s.system hidle (o.otaConfig url)
  obtain ⟨a, hact, hroutine, hclaims, hreleases⟩ :=
    @Idle.claim o.build s.system hidle hreached (o.otaConfig url) url.text rfl
  have hlast : exec (State.step o) { s with sOtaUrl := buf, console := .copied url }
        [.console, .console, .console, .worker, .worker, .worker] =
      { s with
        system := (s.system.step o.build (.otaApiUpdate otaWorker (some (o.otaConfig url)))).step
          o.build (.advance otaWorker)
        sOtaUrl := buf
        sOtaRunning := true
        worker := .updating
        printed := s.printed ++ ["Requesting update from " ++ url.text ++ "\n"]
        codes := s.codes ++ [(url, 0)] } := by
    simp [State.step, hlive, State.cmdOtaNext, State.otaWorkerTask, hworker, hstr, hprompt, hreq,
      State.updateResult?, hbusy.current, hnone]
  rw [request, exec_cons, hadmitted, exec_cons, hstarted, exec_append, hcopied, hlast]
  exact ⟨cameBack_snoc _, a, hact, hroutine, hclaims, hreleases⟩

def sampleOptions : Options where
  build := sampleBuild
  exampleDefaultFirmwareUpgradeUrl := ⟨['h'], by decide⟩
  exampleSkipCommonNameCheck := false

def sampleUrl : Str := ⟨['h', 's'], by decide⟩

/-- A command whose update does not reach the server, up to the flag that is down again. -/
def failedAttempt : List Label :=
  request sampleUrl ++ [.worker, .answer (.handle espFail 0), .worker, .worker, .worker]

theorem request_after_failure :
    Requested sampleOptions sampleUrl (run sampleOptions failedAttempt)
      (run sampleOptions (failedAttempt ++ request sampleUrl)) :=
  request_served sampleOptions failedAttempt (by decide +kernel) (by decide +kernel) sampleUrl
    (by decide)

end Requests

end OnDemand

end OtaApi
