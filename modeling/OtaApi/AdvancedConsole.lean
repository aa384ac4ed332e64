import OtaApi.AdvancedPlace

/-!
# The console of the advanced application

The steps of the console: it lets a command in when the place is free, brings the request
into the variables, and offers it to the task it creates.
-/

namespace OtaApi

open Interaction

namespace Advanced

open CText

variable {o : Options} {t t' : List (Handover Request)} {p p' : Handoff Request}
  {spent : List Nat} {served : List (Nat × Request)} {s s' : State}

/-! ## Steps that leave the component alone -/

section Local

/-- The console changes nothing but the variables and itself. -/
theorem Refined.local (h : Refined o t p spent served s) (hsys : s'.system = s.system)
    (hverdict : s'.verdict = s.verdict) (hterm : s'.sOtaUrl.Terminated) (hat : AtConsole o s')
    (hfields : Consoled p' s')
    (hp : Tasked o p spent served s' → Tasked o p' spent served s')
    (htakes : takes t' = takes t) (hoffers : offers t' = s'.accepted ++ s'.returning) :
    Refined o t' p' spent served s' := by
  have he : Elsewhere consoleTask s.system s'.system := hsys ▸ .refl consoleTask s.system
  have hnew := noneNew_same hsys
  refine ⟨?_, hat, hfields, hp ?_⟩
  · refine h.trail.frame (hsys ▸ h.trail.shape) he hterm hnew.updates (fun i r a _ _ ha hserves => ?_)
      (fun n _ => congrFun hverdict n) (fun n v hn => by cases hn) (fun n _ hn => by cases hn)
      htakes hoffers
    exact ⟨a, by rw [hsys]; exact ha, hserves⟩
  · exact h.tasks.frame h.trail.shape.placed he hnew (fun n _ => congrFun hverdict n)
      (fun n r hn => by cases hn) fun n r hn => by cases hn

/-- Away from the prompt and the three steps around it the console is filling the place. -/
theorem Consoled.filling (h : Consoled p s) (haway : ¬Away s) (hc : ∀ r, s.console ≠ .unclaimed r) :
    p = .filling := by
  cases p with
  | free =>
    obtain ⟨_, h | ⟨r, h⟩⟩ := h
    · exact absurd h haway
    · exact absurd h (hc r)
  | filling => rfl
  | handed r => exact absurd h.1 haway
  | serving r => exact absurd h.1 haway

/-- A command that has seen the flag down has the place for itself. -/
theorem Consoled.free (h : Consoled p s) (hc : ¬Filling s) (hf : s.sOtaPending = false) : p = .free := by
  cases p with
  | free => rfl
  | filling => exact absurd h hc
  | handed r =>
    obtain ⟨_, hflag, _⟩ := h
    rw [hf] at hflag
    cases hflag
  | serving r =>
    obtain ⟨_, hflag, _⟩ := h
    rw [hf] at hflag
    cases hflag

/-- Back at the prompt after a command that was not let in. -/
theorem Refined.refused (h : Refined o t p spent served s) {r : Request} {message : String}
    (hat : s.system.stack consoleTask = []) (hreturning : s.returning = [])
    (hfields : Consoled p' (s.refuse r message))
    (hp : Tasked o p spent served (s.refuse r message) → Tasked o p' spent served (s.refuse r message))
    (htakes : takes t' = takes t) (hoffers : offers t' = offers t) :
    Refined o t' p' spent served (s.refuse r message) := by
  refine Refined.local h rfl rfl h.trail.terminated hat hfields hp htakes ?_
  have hsame : (s.refuse r message).accepted = s.accepted := cameBack_other (by decide) r
  rw [hoffers, h.trail.offered, hreturning, hsame]
  rfl

/-- A command line is read, whatever the place is used for. -/
theorem cmdOta_matched (h : Refined o t p spent served s) (hlive : s.system.restarted = false)
    (args : List Str) :
    Matched Handoff.Move (Refines o) t p (s.step o (.cmdOta args)) (observe s (.cmdOta args)) := by
  have hobs : observe s (.cmdOta args) = none := by simp [observe, hlive]
  rw [hobs]
  by_cases hc : s.console = .prompt
  · have hstep : s.step o (.cmdOta args) = { s with console := .parsed (parseArgs o args) } := by
      simp [State.step, hlive, hc]
    rw [hstep]
    have hat : s.system.stack consoleTask = [] := by
      have hat := h.console
      rw [AtConsole, hc] at hat
      exact hat
    have hreturning : s.returning = [] := by simp [State.returning, hc]
    refine .stays ⟨spent, served, Refined.local h rfl rfl h.trail.terminated hat ?_ id rfl ?_⟩
    · have hfields := h.fields
      cases p with
      | free => exact ⟨hfields.1, .inl trivial⟩
      | filling =>
        simp only [Consoled, Filling, hc] at hfields
      | handed r => exact ⟨trivial, hfields.2⟩
      | serving r => exact ⟨trivial, hfields.2⟩
    · rw [h.trail.offered, hreturning]
      rfl
  · have hstep : s.step o (.cmdOta args) = s := by simp [State.step, hlive, hc]
    rw [hstep]
    exact .stays ⟨spent, served, h⟩

theorem cmdStatus_matched (h : Refined o t p spent served s) (hlive : s.system.restarted = false)
    (onTrial : Bool) :
    Matched Handoff.Move (Refines o) t p (s.step o (.cmdStatus onTrial))
      (observe s (.cmdStatus onTrial)) := by
  have hobs : observe s (.cmdStatus onTrial) = none := by simp [observe, hlive]
  rw [hobs]
  by_cases hc : s.console = .prompt
  · have hstep : s.step o (.cmdStatus onTrial) = s.cmdStatus onTrial := by
      simp [State.step, hlive, hc]
    rw [hstep]
    have hsame : SameVariables s (s.cmdStatus onTrial) := ⟨rfl, rfl, rfl, rfl, rfl⟩
    exact .stays ⟨spent, served, Refined.local h rfl rfl h.trail.terminated h.console
      (hsame.consoled rfl h.fields) id rfl h.trail.offered⟩
  · have hstep : s.step o (.cmdStatus onTrial) = s := by simp [State.step, hlive, hc]
    rw [hstep]
    exact .stays ⟨spent, served, h⟩

/-- An abort is noticed, and that is all. -/
theorem cmdAbort_matched (h : Refined o t p spent served s) (hlive : s.system.restarted = false) :
    Matched Handoff.Move (Refines o) t p (s.step o .cmdAbort) (observe s .cmdAbort) := by
  have hobs : observe s .cmdAbort = none := by simp [observe, hlive]
  rw [hobs]
  by_cases hc : s.console = .prompt
  · have hstep : s.step o .cmdAbort = s.cmdAbort o := by simp [State.step, hlive, hc]
    rw [hstep]
    obtain ⟨he, hstack, hact⟩ := @abort_elsewhere o.build s.system consoleTask consoleTask
    have hshape : Shape o (s.cmdAbort o).system := shape_step h.trail.shape .abort
    have hnew : NoneNew s.system (s.cmdAbort o).system := noneNew_step fun a' ha' => by cases ha'
    have hsame : SameVariables s (s.cmdAbort o) := ⟨rfl, rfl, rfl, rfl, rfl⟩
    have hat : s.system.stack consoleTask = [] := by
      have hat := h.console
      rw [AtConsole, hc] at hat
      exact hat
    have hat' : (s.cmdAbort o).system.stack consoleTask = [] := (congrFun hstack _).trans hat
    have hres : (s.cmdAbort o).startResult? = s.startResult? := by
      simp [State.startResult?, System.current?, hat, hat']
    refine .stays ⟨spent, served, ?_, ?_, hsame.consoled hres h.fields, ?_⟩
    · refine h.trail.frame hshape he h.trail.terminated hnew.updates (fun i r a _ _ ha hserves => ?_)
        (fun n _ => rfl) (fun n v hn => by cases hn) (fun n _ hn => by cases hn) rfl
        (h.trail.offered.trans (hsame.offered hres).symm)
      obtain ⟨a', ha', haa⟩ := hact i a ha
      exact ⟨a', ha', hserves.alike haa⟩
    · rw [AtConsole, hsame.console, hc]
      exact hat'
    · exact h.tasks.frame h.trail.shape.placed he hnew (fun n _ => rfl)
        (fun n r hn => by cases hn) fun n r hn => by cases hn
  · have hstep : s.step o .cmdAbort = s := by simp [State.step, hlive, hc]
    rw [hstep]
    exact .stays ⟨spent, served, h⟩

/-- The console brings the request of its command into the variables. -/
theorem filling_matched (h : Refined o t p spent served s) (hlive : s.system.restarted = false)
    (hc : (∃ r, s.console = .admitted r) ∨ (∃ r k, s.console = .copying r k) ∨
      (∃ r, s.console = .copied r) ∨ ∃ r, s.console = .forced r) :
    Matched Handoff.Move (Refines o) t p (s.step o .console) (observe s .console) := by
  have hstep : s.step o .console = s.cmdOtaNext o := by simp [State.step, hlive]
  have hat : s.system.stack consoleTask = [] := by
    have hat := h.console
    obtain ⟨r, hc⟩ | ⟨r, k, hc⟩ | ⟨r, hc⟩ | ⟨r, hc⟩ := hc <;>
      simp only [AtConsole, hc] at hat <;> exact hat
  have hreturning : s.returning = [] := by
    obtain ⟨r, hc⟩ | ⟨r, k, hc⟩ | ⟨r, hc⟩ | ⟨r, hc⟩ := hc <;> simp [State.returning, hc]
  obtain rfl : p = .filling := by
    obtain ⟨r, hc⟩ | ⟨r, k, hc⟩ | ⟨r, hc⟩ | ⟨r, hc⟩ := hc <;>
      exact h.fields.filling (by simp [Away, hc]) (by simp [hc])
  have hfields : Filling s := h.fields
  have hoffered : offers t = s.accepted := by
    rw [h.trail.offered, hreturning, List.append_nil]
  rw [hstep, State.cmdOtaNext]
  obtain ⟨r, hc⟩ | ⟨r, k, hc⟩ | ⟨r, hc⟩ | ⟨r, hc⟩ := hc <;> simp only [Filling, hc] at hfields
  · by_cases hlong : otaUrlSize ≤ r.1.strlen
    · have hobs : observe s .console = some .withdrawn := by simp [observe, hlive, hc, hlong]
      rw [hobs, hc]
      dsimp only
      rw [if_pos hlong]
      exact .moves .withdrawn ⟨spent, served, h.refused hat hreturning ⟨hfields, .inl trivial⟩ id
        (takes_event rfl) (offers_event rfl)⟩
    · have hobs : observe s .console = none := by simp [observe, hlive, hc, hlong]
      rw [hobs, hc]
      dsimp only
      rw [if_neg hlong]
      refine .stays ⟨spent, served, Refined.local h rfl rfl h.trail.terminated hat ?_ id rfl ?_⟩
      · exact ⟨hfields, Nat.lt_of_not_le hlong, Buffer.Copying.start _ _⟩
      · exact hoffered.trans (List.append_nil _).symm
  · have hobs : observe s .console = none := by simp [observe, hlive, hc]
    rw [hobs, hc]
    dsimp only
    obtain ⟨hflag, hfits, hcopying⟩ := hfields
    have hterm := h.trail.terminated.snprintfByte r.1 k
    obtain ⟨buf, hbyte, hcopying⟩ | ⟨buf, hbyte, _, hcopied⟩ := hcopying.next hfits
    · rw [hbyte] at hterm ⊢
      refine .stays ⟨spent, served, Refined.local h rfl rfl hterm hat ?_ id rfl ?_⟩
      · exact ⟨hflag, hfits, hcopying⟩
      · exact hoffered.trans (List.append_nil _).symm
    · rw [hbyte] at hterm ⊢
      refine .stays ⟨spent, served, Refined.local h rfl rfl hterm hat ?_ id rfl ?_⟩
      · exact ⟨hflag, hcopied⟩
      · exact hoffered.trans (List.append_nil _).symm
  · have hobs : observe s .console = none := by simp [observe, hlive, hc]
    rw [hobs, hc]
    refine .stays ⟨spent, served, Refined.local h rfl rfl h.trail.terminated hat ?_ id rfl ?_⟩
    · exact ⟨hfields.1, hfields.2, rfl⟩
    · exact hoffered.trans (List.append_nil _).symm
  · have hobs : observe s .console = none := by simp [observe, hlive, hc]
    rw [hobs, hc]
    refine .stays ⟨spent, served, Refined.local h rfl rfl h.trail.terminated hat ?_ id rfl ?_⟩
    · exact ⟨rfl, hfields.2⟩
    · exact hoffered.trans (List.append_nil _).symm

/-- A command is let in when the flag is down and the slot is free. -/
theorem asking_matched (h : Refined o t p spent served s) (hlive : s.system.restarted = false)
    {r : Request} (hc : s.console = .parsed r ∨ s.console = .unclaimed r) :
    Matched Handoff.Move (Refines o) t p (s.step o .console) (observe s .console) := by
  have hstep : s.step o .console = s.cmdOtaNext o := by simp [State.step, hlive]
  have hat : s.system.stack consoleTask = [] := by
    have hat := h.console
    obtain hc | hc := hc <;> simp only [AtConsole, hc] at hat <;> exact hat
  have hreturning : s.returning = [] := by
    obtain hc | hc := hc <;> simp [State.returning, hc]
  have hoffered : offers t = s.accepted := by
    rw [h.trail.offered, hreturning, List.append_nil]
  have hfilling : ¬Filling s := by
    obtain hc | hc := hc <;> simp [Filling, hc]
  rw [hstep, State.cmdOtaNext]
  obtain hc | hc := hc
  · have hobs : observe s .console = none := by simp [observe, hlive, hc]
    rw [hobs, hc]
    dsimp only
    by_cases hf : s.sOtaPending = true
    · rw [if_pos hf]
      refine .stays ⟨spent, served, h.refused hat hreturning ?_ id rfl rfl⟩
      have hfields := h.fields
      cases p with
      | free => exact ⟨hfields.1, .inl trivial⟩
      | filling => exact absurd hfields hfilling
      | handed r => exact ⟨trivial, hfields.2⟩
      | serving r => exact ⟨trivial, hfields.2⟩
    · rw [if_neg hf]
      have hdown : s.sOtaPending = false := by simpa using hf
      obtain rfl := h.fields.free hfilling hdown
      refine .stays ⟨spent, served, Refined.local h rfl rfl h.trail.terminated hat ?_ id rfl ?_⟩
      · exact ⟨hdown, .inr ⟨r, rfl⟩⟩
      · exact hoffered.trans (List.append_nil _).symm
  · obtain rfl : p = .free := by
      have hfields := h.fields
      cases p with
      | free => rfl
      | filling => exact absurd hfields hfilling
      | handed r => simp [Consoled, Away, hc] at hfields
      | serving r => simp [Consoled, Away, hc] at hfields
    have hdown : s.sOtaPending = false := h.fields.1
    by_cases hrun : otaApiIsRunning s.system.slot = true
    · have hobs : observe s .console = none := by simp [observe, hlive, hc, hrun]
      rw [hobs, hc]
      dsimp only
      rw [if_pos hrun]
      exact .stays ⟨spent, served, h.refused hat hreturning ⟨hdown, .inl trivial⟩ id rfl rfl⟩
    · have hobs : observe s .console = some .opened := by simp [observe, hlive, hc, hrun]
      rw [hobs, hc]
      dsimp only
      rw [if_neg hrun]
      refine .moves .opened ⟨spent, served, Refined.local h rfl rfl h.trail.terminated hat ?_ id
        (takes_event rfl) ?_⟩
      · exact hdown
      · exact (offers_event rfl).trans (hoffered.trans (List.append_nil _).symm)

/-- The command comes back, with the request if its task could not be created. -/
theorem started_matched (h : Refined o t p spent served s) (hlive : s.system.restarted = false)
    {r : Request} {err : EspErr} (hc : s.console = .started r err) :
    Matched Handoff.Move (Refines o) t p (s.step o .console) (observe s .console) := by
  have hstep : s.step o .console = s.cmdOtaNext o := by simp [State.step, hlive]
  have hat : s.system.stack consoleTask = [] := by
    have hat := h.console
    simp only [AtConsole, hc] at hat
    exact hat
  rw [hstep, State.cmdOtaNext, hc]
  dsimp only
  by_cases herr : err ≠ espOk
  · have hobs : observe s .console = some .withdrawn := by simp [observe, hlive, hc, herr]
    obtain rfl : p = .filling := h.fields.filling (by simp [Away, hc, herr]) (by simp [hc])
    rw [hobs, if_pos herr]
    refine .moves .withdrawn ⟨spent, served, Refined.local h rfl rfl h.trail.terminated hat ?_ id
      (takes_event rfl) ?_⟩
    · exact ⟨rfl, .inl trivial⟩
    · rw [offers_event rfl, h.trail.offered]
      simp [State.returning, hc, herr, State.accepted]
  · have hobs : observe s .console = none := by simp [observe, hlive, hc, herr]
    rw [hobs, if_neg herr]
    have hok : err = espOk := by simpa using herr
    have hfilling : ¬Filling s := by simp [Filling, hc, hok]
    refine .stays ⟨spent, served, Refined.local h rfl rfl h.trail.terminated hat ?_ id rfl ?_⟩
    · have hfields := h.fields
      cases p with
      | free => exact ⟨hfields.1, .inl trivial⟩
      | filling => exact absurd hfields hfilling
      | handed r => exact ⟨trivial, hfields.2⟩
      | serving r => exact ⟨trivial, hfields.2⟩
    · rw [h.trail.offered]
      simp [State.returning, hc, hok, State.accepted]

end Local

/-! ## Steps in `ota_api_start_task()` -/

section Starting

variable {x : System} {k : Nat} {a : Activation} {config : OtaApiConfig}

theorem startTask_calls {build : BuildOptions} (hs : a.Sound build)
    (hr : a.routine = .otaApiStartTask (some config)) {c : Call} {f : Answer c → Program EspErr}
    (ht : a.prog.turn = .call c f) :
    c = .malloc ∨ c = .free ∨ ∃ size priority, c = .taskCreate size priority config := by
  obtain h | h | ⟨size, priority, h, _⟩ := (startTask_cases hs hr).1 c (next?_of_turn ht)
  · exact .inl h
  · exact .inr (.inl h)
  · exact .inr (.inr ⟨size, priority, h⟩)

/-- By itself a start that has not come to its end enters its calls. -/
theorem startTask_advance (hs : Shape o x) (hlive : x.restarted = false)
    (hcur : x.current? consoleTask = some (k, a)) (hr : a.routine = .otaApiStartTask (some config))
    (hnone : a.result? = none) :
    ∃ a', a'.routine = a.routine ∧ a'.result? = none ∧
      (x.step o.build (.advance consoleTask)).stack = x.stack ∧
      (x.step o.build (.advance consoleTask)).activations = x.activations.set k a' := by
  cases ht : a.prog.turn with
  | done r =>
    rw [Activation.result?, ht] at hnone
    cases hnone
  | call c f =>
    cases he : a.entered with
    | true =>
      have hstep : x.step o.build (.advance consoleTask) = x := by
        simp [System.step, System.advance, hcur, ht, he]
      rw [hstep]
      exact ⟨a, rfl, hnone, rfl, (set_self (current?_get hcur)).symm⟩
    | false =>
      have hcall := startTask_calls (hs.sound (current?_get hcur)) hr ht
      have hcrit : criticalSection x.slot c = none := by
        obtain rfl | rfl | ⟨_, _, rfl⟩ := hcall <;> rfl
      have hflash : (x.put k a.enter).entering o.build consoleTask c =
          { x.put k a.enter with flash := x.flash.entering c } := by
        obtain rfl | rfl | ⟨_, _, rfl⟩ := hcall <;> rfl
      rw [step_entering hlive hcur ht he hcrit, hflash]
      exact ⟨a.enter, rfl, hnone, rfl, rfl⟩

/-- What a reply does to a start that has not come to its end. -/
inductive Started (o : Options) (x : System) (k : Nat) (a : Activation) (config : OtaApiConfig)
    (reply : Reply) (x' : System) : Prop where
  | goesOn {a' : Activation} (hr : a'.routine = a.routine) (hres : a'.result? ≠ some espOk)
      (hnot : ∀ size priority, a.next? = some (.taskCreate size priority config) →
        a.entered = true → reply ≠ .flag true)
      (hstack : x'.stack = x.stack) (hact : x'.activations = x.activations.set k a')
  | created {a' : Activation} {size priority : UInt32}
      (hn : a.next? = some (.taskCreate size priority config)) (he : a.entered = true)
      (hreply : reply = .flag true) (hr : a'.routine = a.routine) (hres : a'.result? = some espOk)
      (hstack : x'.stack =
        Function.update x.stack (.spawned x.activations.length) [x.activations.length])
      (hact : x'.activations = x.activations.set k a' ++ [.start o.build (.otaTask config)])

theorem startTask_answer (hs : Shape o x) (hlive : x.restarted = false)
    (hcur : x.current? consoleTask = some (k, a)) (hr : a.routine = .otaApiStartTask (some config))
    (hnone : a.result? = none) (reply : Reply) :
    Started o x k a config reply (x.step o.build (.answer consoleTask reply)) := by
  have hget := current?_get hcur
  have hshape' : Shape o (x.step o.build (.answer consoleTask reply)) :=
    shape_step hs (.goesOn (.inr ⟨reply, rfl⟩))
  have hlt : k < x.activations.length := (List.getElem?_eq_some_iff.mp hget).1
  cases ht : a.prog.turn with
  | done r =>
    rw [Activation.result?, ht] at hnone
    cases hnone
  | call c f =>
    by_cases hok : a.entered = true ∧ ∃ answer, reply.answer? c = some answer
    · obtain ⟨he, answer, hans⟩ := hok
      rw [step_answering hlive hcur ht he hans] at hshape' ⊢
      by_cases hcreate : ∃ size priority, (⟨c, answer⟩ : Event) = ⟨.taskCreate size priority config, true⟩
      · obtain ⟨size, priority, heq⟩ := hcreate
        cases heq
        have hreply : reply = .flag true := by
          cases reply <;> cases hans
          rfl
        have hvacant : x.stack (.spawned x.activations.length) = [] := hs.vacant (Nat.le_refl _)
        refine @Started.created o x k a config reply _
          (@Activation.resume (.taskCreate size priority config) a f true) size priority
          (next?_of_turn ht) he hreply rfl (startTask_created (hs.sound hget) hr ht) ?_ rfl
        simp [System.answering, System.spawn, System.call, System.put, hvacant]
      · have hplain : (x.put k (a.resume f answer)).answering o.build ⟨c, answer⟩ =
            { x.put k (a.resume f answer) with flash := x.flash.answering ⟨c, answer⟩ } := by
          obtain rfl | rfl | ⟨size, priority, rfl⟩ := startTask_calls (hs.sound hget) hr ht
          · rfl
          · rfl
          · cases answer with
            | false => rfl
            | true => exact absurd ⟨size, priority, rfl⟩ hcreate
        rw [hplain] at hshape' ⊢
        refine @Started.goesOn o x k a config reply _ (a.resume f answer) rfl (fun hres => ?_)
          (fun size priority hn _ heq => ?_) rfl rfl
        · exact hcreate (startTask_accepted (hshape'.sound (List.getElem?_set_self hlt)) hr hres)
        · rw [next?_of_turn ht] at hn
          cases hn
          subst heq
          cases hans
          exact hcreate ⟨size, priority, rfl⟩
    · have hstep : x.step o.build (.answer consoleTask reply) = x := by
        simp only [System.step, System.answer, hcur, ht]
        split
        · rfl
        · split
          · rename_i he
            split
            · rename_i answer hans
              exact absurd ⟨he, answer, hans⟩ hok
            · rfl
          · rfl
      rw [hstep]
      refine .goesOn rfl (by simp [hnone]) (fun size priority hn he heq => ?_) rfl (set_self hget).symm
      rw [next?_of_turn ht] at hn
      cases hn
      subst heq
      exact hok ⟨he, true, rfl⟩

end Starting

section Component

/-- The console at a step that concerns only its own call. -/
theorem Refined.component (h : Refined o t p spent served s) {l : OtaApi.Label}
    (hc : Client o s.system l) (hsys : s'.system = s.system.step o.build l)
    (he : Elsewhere consoleTask s.system s'.system) (hverdict : s'.verdict = s.verdict)
    (hterm : s'.sOtaUrl.Terminated) (hnew : NoneNew s.system s'.system) (hat : AtConsole o s')
    (hfields : Consoled p s') (hoffers : offers t = s'.accepted ++ s'.returning) :
    Refined o t p spent served s' := by
  have hshape : Shape o s'.system := hsys ▸ shape_step h.trail.shape hc
  refine ⟨?_, hat, hfields, ?_⟩
  · refine h.trail.frame hshape he hterm hnew.updates (fun i r a _ hi ha hserves => ?_)
      (fun n _ => congrFun hverdict n) (fun n v hn => by cases hn) (fun n _ hn => by cases hn)
      rfl hoffers
    -- what is on the stack of the console is not an update
    obtain hempty | ⟨k, b, url, hstack, hb, hr⟩ := h.trail.shape.console
    · rw [hempty] at hi
      cases hi
    · rw [hstack] at hi
      obtain rfl := List.mem_singleton.mp hi
      rw [ha] at hb
      cases hb
      rw [hserves.routine] at hr
      cases hr
  · exact h.tasks.frame h.trail.shape.placed he hnew (fun n _ => congrFun hverdict n)
      (fun n r hn => by cases hn) fun n r hn => by cases hn

/-- The console calls `ota_api_start_task()`. -/
theorem flagged_matched (h : Refined o t p spent served s) (hlive : s.system.restarted = false)
    {r : Request} (hc : s.console = .flagged r) :
    Matched Handoff.Move (Refines o) t p (s.step o .console) (observe s .console) := by
  have hobs : observe s .console = none := by simp [observe, hlive, hc]
  have hstep : s.step o .console = s.cmdOtaNext o := by simp [State.step, hlive]
  have hidle : s.system.stack consoleTask = [] := by
    have hat := h.console
    simp only [AtConsole, hc] at hat
    exact hat
  obtain rfl : p = .filling := h.fields.filling (by simp [Away, hc]) (by simp [hc])
  have hholding : Filling s := h.fields
  simp only [Filling, hc] at hholding
  rw [hstep, State.cmdOtaNext, hc, hobs]
  dsimp only
  rw [hholding.2.1]
  -- the call, and where it puts the console
  have hcur : s.system.current? consoleTask = none := by simp [System.current?, hidle]
  have hin : s.system.inApp consoleTask = true := by
    simp only [System.inApp, hcur]
    rfl
  have hcall : s.system.step o.build (.otaApiStartTask consoleTask (some (o.otaConfig r.1))) =
      s.system.call o.build consoleTask (.otaApiStartTask (some (o.otaConfig r.1))) := by
    simp [System.step, hlive, hin]
  have hget : (s.system.call o.build consoleTask
      (.otaApiStartTask (some (o.otaConfig r.1)))).activations[s.system.activations.length]? =
        some (.start o.build (.otaApiStartTask (some (o.otaConfig r.1)))) := by
    simp [System.call]
  have hstack : (s.system.call o.build consoleTask
      (.otaApiStartTask (some (o.otaConfig r.1)))).stack consoleTask = [s.system.activations.length] := by
    simp [System.call, hidle]
  refine .stays ⟨spent, served, h.component (.startTask r.1 hidle) rfl ?_ rfl h.trail.terminated
    (noneNew_step fun a' ha' => ?_) ?_ ?_ ?_⟩
  · dsimp only
    rw [hcall]
    refine ⟨fun τ hne _ => call_stack _ _ hne, fun i a ha _ => ⟨a, ?_, .refl a⟩⟩
    exact (List.getElem?_append_left (List.getElem?_eq_some_iff.mp ha).1).trans ha
  · cases ha'
    exact ⟨_, rfl⟩
  · rw [hcall]
    exact ⟨_, _, hstack, hget, rfl⟩
  · refine ⟨hholding, ?_⟩
    simp only [State.startResult?, hcall, current?_alone hstack hget]
    intro hres
    cases hres
  · rw [h.trail.offered]
    simp only [State.returning, hc, State.startResult?, hcall, current?_alone hstack hget]
    rfl

/-- In that call the console goes on filling the place until its task is created. -/
theorem start_goes (h : Refined o t .filling spent served s) {r : Request}
    (hc : s.console = .starting r) {k : Nat} {a a' : Activation}
    (hstack : s.system.stack consoleTask = [k]) (ha : s.system.activations[k]? = some a)
    (hr : a.routine = .otaApiStartTask (some (o.otaConfig r.1))) (hr' : a'.routine = a.routine)
    (hres' : a'.result? ≠ some espOk) {l : OtaApi.Label} (hl : l.of consoleTask)
    (hst : (s.system.step o.build l).stack = s.system.stack)
    (hact : (s.system.step o.build l).activations = s.system.activations.set k a') :
    Refined o t .filling spent served { s with system := s.system.step o.build l } := by
  have hlt : k < s.system.activations.length := (List.getElem?_eq_some_iff.mp ha).1
  have hstack' : (s.system.step o.build l).stack consoleTask = [k] := (congrFun hst _).trans hstack
  have hget' : (s.system.step o.build l).activations[k]? = some a' := by
    rw [hact, List.getElem?_set_self hlt]
  have hcur' := current?_alone hstack' hget'
  have hfilling : Filling s := h.fields
  simp only [Filling, hc] at hfilling
  refine h.component (.goesOn hl) rfl (step_elsewhere hl) rfl h.trail.terminated
    (noneNew_set ha hr' hact) ?_ ?_ ?_
  · rw [AtConsole, hc]
    exact ⟨k, a', hstack', hget', hr'.trans hr⟩
  · simp only [Consoled, Filling, hc, State.startResult?, hcur']
    exact ⟨hfilling.1, hres'⟩
  · rw [h.trail.offered]
    have hnot := hfilling.2
    simp only [State.startResult?] at hnot
    simp [State.returning, State.accepted, hc, hnot, State.startResult?, hcur', hres']

/-- The console goes on in that call, or comes back from it. -/
theorem starting_matched (h : Refined o t p spent served s) (hlive : s.system.restarted = false)
    {r : Request} (hc : s.console = .starting r) :
    Matched Handoff.Move (Refines o) t p (s.step o .console) (observe s .console) := by
  have hobs : observe s .console = none := by simp [observe, hlive, hc]
  have hstep : s.step o .console = s.cmdOtaNext o := by simp [State.step, hlive]
  have hat := h.console
  rw [AtConsole, hc] at hat
  obtain ⟨k, a, hstack, ha, hr⟩ := hat
  have hcur := current?_alone hstack ha
  have hresult : s.startResult? = a.result? := by simp [State.startResult?, hcur]
  have hl : OtaApi.Label.of consoleTask (.advance consoleTask) := .inl rfl
  rw [hstep, State.cmdOtaNext, hc, hobs, hresult]
  dsimp only
  cases hres : a.result? with
  | some q =>
    have hd : a.prog.turn = .done q := Turn.eq_done hres
    have hleave : s.system.step o.build (.advance consoleTask) =
        { s.system with stack := Function.update s.system.stack consoleTask [] } := by
      simp [System.step, hlive, System.advance, hcur, hd, leave_alone hstack]
    have hnew : NoneNew s.system (s.system.step o.build (.advance consoleTask)) := by
      rw [hleave]
      exact fun i b hb _ => ⟨b, hb, rfl⟩
    have hfields := h.fields
    refine .stays ⟨spent, served, h.component (.goesOn hl) rfl (step_elsewhere hl) rfl
      h.trail.terminated hnew ?_ ?_ ?_⟩
    · simp [AtConsole, hleave]
    · cases p <;> simpa [Consoled, Filling, Away, Holding, hc, hresult, hres] using hfields
    · rw [h.trail.offered]
      simp [State.returning, State.accepted, hc, hresult, hres]
  | none =>
    obtain rfl : p = .filling := h.fields.filling (by simp [Away, hc, hresult, hres]) (by simp [hc])
    obtain ⟨a', hr', hres', hst, hact⟩ := startTask_advance h.trail.shape hlive hcur hr hres
    have hgoes := start_goes h hc hstack ha hr hr' (by simp [hres']) hl hst hact
    have hsame : ({ s with system := s.system.step o.build (.advance consoleTask) } : State) =
        { s with
          console := .starting r
          system := s.system.step o.build (.advance consoleTask) } := by rw [← hc]
    rw [hsame] at hgoes
    exact .stays ⟨spent, served, hgoes⟩

theorem Spent.lt {n : Nat} (h : Spent o s n) : n < s.system.activations.length := by
  cases h with
  | failed hb _ _ _ _ _ => exact hb.lt
  | deleted hb _ _ => exact hb.lt

/-- The console is given its task, and so it offers the request. -/
theorem creating_matched (h : Refined o t .filling spent served s) {r : Request}
    (hc : s.console = .starting r) {k : Nat} {a a' : Activation}
    (hstack : s.system.stack consoleTask = [k]) (ha : s.system.activations[k]? = some a)
    (hr : a.routine = .otaApiStartTask (some (o.otaConfig r.1))) (hr' : a'.routine = a.routine)
    (hres' : a'.result? = some espOk)
    (hst : s'.system.stack = Function.update s.system.stack (.spawned s.system.activations.length)
      [s.system.activations.length])
    (hact : s'.system.activations =
      s.system.activations.set k a' ++ [.start o.build (.otaTask (o.otaConfig r.1))])
    (hshape : Shape o s'.system) (he : Elsewhere consoleTask s.system s'.system)
    (hverdict : s'.verdict = s.verdict) (hsame : SameVariables s s') :
    Refines o (t ++ [.offered r]) (.handed r) s' := by
  have hfilling : Filling s := h.fields
  simp only [Filling, hc] at hfilling
  obtain ⟨hholding, hnot⟩ := hfilling
  have hlt : k < s.system.activations.length := (List.getElem?_eq_some_iff.mp ha).1
  have hstack' : s'.system.stack consoleTask = [k] := by
    rw [hst]
    exact (Function.update_of_ne (fun heq => by cases heq) _ _).trans hstack
  have hget' : s'.system.activations[k]? = some a' := by
    rw [hact, List.getElem?_append_left (by simpa using hlt), List.getElem?_set_self hlt]
  have hresult' : s'.startResult? = some espOk := by
    simp [State.startResult?, current?_alone hstack' hget', hres']
  have hc' : s'.console = .starting r := hsame.console.trans hc
  -- everything but the new task was there before
  have hnew : ∀ (i : Nat) (b : Activation), s'.system.activations[i]? = some b →
      (i = s.system.activations.length ∧ b = .start o.build (.otaTask (o.otaConfig r.1))) ∨
        ∃ b₀, s.system.activations[i]? = some b₀ ∧ b₀.routine = b.routine := by
    intro i b hb
    have hbound := (List.getElem?_eq_some_iff.mp hb).1
    rw [hact] at hb hbound
    obtain ⟨rfl, rfl, _⟩ | ⟨_, hold⟩ | ⟨hnone, hmem⟩ := getElem?_set_append hb
    · exact .inr ⟨a, ha, hr'.symm⟩
    · exact .inr ⟨b, hold, rfl⟩
    · refine .inl ⟨?_, List.mem_singleton.mp hmem⟩
      have hle : s.system.activations.length ≤ i := by simpa using hnone
      simp at hbound
      omega
  have hlast : s'.system.activations[s.system.activations.length]? =
      some (.start o.build (.otaTask (o.otaConfig r.1))) := by
    rw [hact, List.getElem?_append_right (by simp)]
    simp
  refine ⟨spent, served, ?_, ?_, ?_, ?_⟩
  · refine h.trail.frame hshape he (hsame.sOtaUrl ▸ h.trail.terminated) (fun i b config hb hrb => ?_)
      (fun i r' b _ hi hb hserves => ?_) (fun n _ => congrFun hverdict n) (fun n v hn => by cases hn)
      (fun n _ hn => by cases hn) (takes_event rfl) ?_
    · obtain ⟨_, rfl⟩ | hold := hnew i b hb
      · cases hrb
      · exact hold
    · rw [hstack] at hi
      obtain rfl := List.mem_singleton.mp hi
      rw [ha] at hb
      cases hb
      rw [hserves.routine] at hr
      cases hr
    · rw [offers_snoc, h.trail.offered]
      simp [State.returning, State.accepted, hc, hc', hnot, hresult', hsame.codes, Handover.offer?]
  · rw [AtConsole, hc']
    exact ⟨k, a', hstack', hget', hr'.trans hr⟩
  · refine ⟨by simp only [Away, hc', hresult'], ?_⟩
    rw [Holding, hsame.sOtaPending, hsame.sOtaUrl, hsame.sForceUpdate]
    exact hholding
  · refine ⟨s.system.activations.length, fun hmem => ?_, fun n b config hb hrb => ?_, ?_⟩
    · exact Nat.lt_irrefl _ (h.trail.ended _ hmem).lt
    · obtain ⟨rfl, _⟩ | ⟨b₀, hb₀, hrb₀⟩ := hnew n b hb
      · exact List.mem_cons_self
      · exact List.mem_cons_of_mem _ (h.tasks n b₀ config hb₀ (hrb₀.trans hrb))
    · refine ⟨⟨hlast, rfl⟩, ?_, .inl rfl⟩
      rw [hst, Function.update_self]

/-- The console, wherever it is. -/
theorem console_matched (h : Refined o t p spent served s) (hlive : s.system.restarted = false) :
    Matched Handoff.Move (Refines o) t p (s.step o .console) (observe s .console) := by
  cases hc : s.console with
  | prompt =>
    have hstep : s.step o .console = s := by simp [State.step, hlive, State.cmdOtaNext, hc]
    have hobs : observe s .console = none := by simp [observe, hlive, hc]
    rw [hstep, hobs]
    exact .stays ⟨spent, served, h⟩
  | parsed r => exact asking_matched h hlive (.inl hc)
  | unclaimed r => exact asking_matched h hlive (.inr hc)
  | admitted r => exact filling_matched h hlive (.inl ⟨r, hc⟩)
  | copying r k => exact filling_matched h hlive (.inr (.inl ⟨r, k, hc⟩))
  | copied r => exact filling_matched h hlive (.inr (.inr (.inl ⟨r, hc⟩)))
  | forced r => exact filling_matched h hlive (.inr (.inr (.inr ⟨r, hc⟩)))
  | flagged r => exact flagged_matched h hlive hc
  | starting r => exact starting_matched h hlive hc
  | started r err => exact started_matched h hlive hc

/-- What the console is waiting for comes back. -/
theorem consoleAnswer_matched (h : Refined o t p spent served s) (hlive : s.system.restarted = false)
    (reply : Reply) :
    Matched Handoff.Move (Refines o) t p (s.step o (.consoleAnswer reply))
      (observe s (.consoleAnswer reply)) := by
  by_cases hcons : ∃ r, s.console = .starting r
  · obtain ⟨r, hc⟩ := hcons
    have hstep : s.step o (.consoleAnswer reply) =
        { s with system := s.system.step o.build (.answer consoleTask reply) } := by
      simp [State.step, hlive, hc]
    have hobs : observe s (.consoleAnswer reply) =
        if s.creates reply then some (.offered r) else none := by simp [observe, hlive, hc]
    have hat := h.console
    rw [AtConsole, hc] at hat
    obtain ⟨k, a, hstack, ha, hr⟩ := hat
    have hcur := current?_alone hstack ha
    have hl : OtaApi.Label.of consoleTask (.answer consoleTask reply) := .inr ⟨reply, rfl⟩
    rw [hstep, hobs]
    cases hres : a.result? with
    | some q =>
      have hd : a.prog.turn = .done q := Turn.eq_done hres
      have hsys : s.system.step o.build (.answer consoleTask reply) = s.system := by
        simp [System.step, System.answer, hcur, hd]
      have hnot : s.creates reply = false := by
        have hnext : a.next? = none := by rw [Activation.next?, hd]; rfl
        simp [State.creates, hcur, hnext]
      rw [hnot, hsys]
      exact .stays ⟨spent, served, h⟩
    | none =>
      have hresult : s.startResult? = none := by simp [State.startResult?, hcur, hres]
      obtain rfl : p = .filling := h.fields.filling (by simp [Away, hc, hresult]) (by simp [hc])
      obtain ⟨hr', hres', hnot, hst, hact⟩ | ⟨hn, hent, hreply, hr', hres', hst, hact⟩ :=
        startTask_answer h.trail.shape hlive hcur hr hres reply
      · have hcreates : s.creates reply = false := by
          by_contra hyes
          simp only [State.creates, hcur, Bool.not_eq_false] at hyes
          split at hyes
          · rename_i size priority config hn
            simp only [Bool.and_eq_true, beq_iff_eq] at hyes
            obtain rfl : config = o.otaConfig r.1 := by
              have hroutine := creating_start (h.trail.shape.sound ha) hn
              rw [hr] at hroutine
              cases hroutine
              rfl
            exact hnot size priority hn hyes.1 hyes.2
          · cases hyes
        rw [hcreates]
        exact .stays ⟨spent, served, start_goes h hc hstack ha hr hr' hres' hl hst hact⟩
      · have hcreates : s.creates reply = true := by
          simp [State.creates, hcur, hn, hent, hreply]
        rw [hcreates]
        exact .moves (.offered r) (creating_matched h hc hstack ha hr hr' hres' hst hact
          (shape_step h.trail.shape (.goesOn hl)) (step_elsewhere hl) rfl ⟨rfl, rfl, rfl, rfl, rfl⟩)
  · have hstep : s.step o (.consoleAnswer reply) = s ∧ observe s (.consoleAnswer reply) = none := by
      cases hc : s.console with
      | starting r => exact absurd ⟨r, hc⟩ hcons
      | _ => simp only [State.step, observe, hlive, hc]; exact ⟨rfl, rfl⟩
    rw [hstep.1, hstep.2]
    exact .stays ⟨spent, served, h⟩

end Component

end Advanced

end OtaApi
