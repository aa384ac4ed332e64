import OtaApi.AdvancedShape

/-!
# The tasks of the advanced application

A task that was created is waiting to call its update, in the one it has called, about to
restart the device after it, or spent, which is when the callback has been told that the
update has failed. What the task does by itself, and what comes back to it, takes it from
one of these to the next.
-/

namespace OtaApi

open Interaction

section Functions

variable {build : BuildOptions} {a : Activation}

/-- An update with a callback comes to its end by telling the outcome, unless it is turned
away. -/
theorem update_finishes (hs : a.Sound build) {config : OtaApiConfig} {url : String}
    (hu : a.Updates config url) (hcb : config.eventCb ≠ none) {c : Call}
    {k : Answer c → Program EspErr} {answer : Answer c} {r : EspErr}
    (ht : a.prog.turn = .call c k) (hr : (a.resume k answer).result? = some r) :
    (⟨c, answer⟩ : Event) = ⟨.claimUpdateSlot, false⟩ ∨
      ∃ cb ctx v, (⟨c, answer⟩ : Event) = ⟨.eventCb cb (outcomeEvent r) ctx, v⟩ := by
  obtain ⟨ph, _, hprog⟩ := update_path hs hu
  rw [hprog] at ht
  obtain ⟨ph', m, hk⟩ := prog_moves ht answer
  have hend : ph' = .finished r ∨ ph' = .refused r := by
    apply @prog_result? build config url
    rw [← hk]
    exact hr
  obtain rfl | rfl := hend
  · cases m with
    | announced => exact .inr ⟨_, _, _, rfl⟩
    | releasedSilent hc => exact absurd hc hcb
  · cases m
    exact .inl rfl

/-- An update tells of its failure after it has left the slot, and then it is over. -/
theorem update_failing (hs : a.Sound build) {config : OtaApiConfig} {url : String}
    (hu : a.Updates config url) {cb : EventCb} {err : EspErr} {ctx : Nat}
    (hn : a.next? = some (.eventCb cb (.failed err) ctx)) :
    err ≠ espOk ∧ a.holds = false ∧
      ∀ (k : EspErr → Program EspErr) (v : EspErr),
        a.prog.turn = .call (.eventCb cb (.failed err) ctx) k → (k v).turn.result? = some err := by
  obtain ⟨ph, hpath, hprog⟩ := update_path hs hu
  rw [update_next? hprog] at hn
  obtain ⟨cb', err', rfl, hfailed⟩ : ∃ cb' err', ph = .announcing cb' err' ∧
      outcomeEvent err' = .failed err := by
    cases ph <;> first | cases hn | skip
    case announcing cb' err' =>
      simp only [Phase.next?, Option.some.injEq, Call.eventCb.injEq] at hn
      exact ⟨cb', err', rfl, hn.2.1⟩
  have hne : err' ≠ espOk := by
    intro hok
    rw [outcomeEvent, if_pos hok] at hfailed
    cases hfailed
  have hevent : outcomeEvent err' = .failed err' := if_neg hne
  obtain rfl : err' = err := OtaApiEvent.failed.inj (hevent.symm.trans hfailed)
  have hclaims := path_claims hpath
  refine ⟨hne, ?_, fun k v ht => ?_⟩
  · by_contra hholds
    have hfree := (holds_iff.mp (by simpa using hholds)).2
    rw [hclaims.2] at hfree
    cases hfree
  · rw [hprog, ← hevent] at ht
    cases ht
    rfl

/-- A start whose task is created is accepted. -/
theorem startTask_created (hs : a.Sound build) {config config' : OtaApiConfig}
    (hr : a.routine = .otaApiStartTask (some config)) {size priority : UInt32}
    {k : Bool → Program EspErr} (ht : a.prog.turn = .call (.taskCreate size priority config') k) :
    (k true).turn.result? = some espOk := by
  obtain h | h | ⟨_, _, _, htrace⟩ := (startTask_cases hs hr).1 _ (next?_of_turn ht)
  · cases h
  · cases h
  cases hu : config.url with
  | none =>
    have hnone := (startTask_invalid hs hr hu).2
    rw [next?_of_turn ht] at hnone
    cases hnone
  | some url =>
    have hruns := hs.runs
    rw [hr, htrace] at hruns
    simp only [Routine.program, otaApiStartTask, hu] at hruns
    generalize a.prog = p at hruns ht
    cases hruns with
    | cons hmalloc copy rest =>
      cases hmalloc
      cases rest with
      | nil _ =>
        cases ht
        rfl

/-- And no other one is. -/
theorem startTask_accepted {c : Call} {k : Answer c → Program EspErr} {answer : Answer c}
    (hs : (a.resume k answer).Sound build) {config : OtaApiConfig}
    (hr : a.routine = .otaApiStartTask (some config))
    (hok : (a.resume k answer).result? = some espOk) :
    ∃ size priority, (⟨c, answer⟩ : Event) = ⟨.taskCreate size priority config, true⟩ := by
  obtain ⟨_, size, priority, htrace⟩ := (startTask_cases hs hr).2 hok
  have hlast := congrArg List.getLast? htrace
  simp only [Activation.resume, List.getLast?_concat] at hlast
  exact ⟨size, priority, Option.some.inj hlast⟩

end Functions

namespace Advanced

open CText

variable {o : Options} {served : List (Nat × Request)} {s s' : State}

section Tasks

/-- The callback has answered the events of an update by this flag. -/
def Answered (o : Options) (flag : Bool) (a : Activation) : Prop :=
  ∀ (cb : EventCb) (event : OtaApiEvent) (ctx : Nat) (v : EspErr),
    (⟨.eventCb cb event ctx, v⟩ : Event) ∈ a.trace → v = onOtaEventCbVerdict o flag event

/-- A task that runs `ota_task()` for this URL. -/
def IsTask (o : Options) (s : State) (n : Nat) (b : Activation) (url : Str) : Prop :=
  s.system.activations[n]? = some b ∧ b.routine = .otaTask (o.otaConfig url)

/-- A task whose update has failed, which the callback has been told. -/
inductive Spent (o : Options) (s : State) (n : Nat) : Prop where
  | failed {b a : Activation} {url : Str} {i : Nat} {err : EspErr} (hb : IsTask o s n b url)
      (hstack : s.system.stack (.spawned n) = [i, n]) (ha : s.system.activations[i]? = some a)
      (hr : a.routine = .otaApiUpdate (some (o.otaConfig url))) (herr : err ≠ espOk)
      (hend : a.result? = some err ∨ (∃ cb ctx, a.next? = some (.eventCb cb (.failed err) ctx)) ∧
        a.entered = true ∧ s.verdict n = some espOk)
  | deleted {b : Activation} {url : Str} (hb : IsTask o s n b url)
      (hstack : s.system.stack (.spawned n) = [n]) (hnext : b.next? = some .taskDelete)

/-- A task that has not called its update yet. -/
inductive Waiting (o : Options) (s : State) (n : Nat) (r : Request) : Prop where
  | intro {b : Activation} (hb : IsTask o s n b r.1) (hstack : s.system.stack (.spawned n) = [n])
      (hnext : b.next? = some .free ∨
        b.next? = some (.otaApiUpdate (o.otaConfig r.1)) ∧ b.entered = false)

/-- A task in its update, of whose failure the callback does not know, or about to restart
the device. -/
inductive Live (o : Options) (s : State) (served : List (Nat × Request)) (n : Nat) (r : Request) :
    Prop where
  | inside {b a : Activation} {i : Nat} (hb : IsTask o s n b r.1)
      (hstack : s.system.stack (.spawned n) = [i, n]) (hmem : (i, r) ∈ served)
      (ha : s.system.activations[i]? = some a)
      (hr : a.routine = .otaApiUpdate (some (o.otaConfig r.1)))
      (hok : ∀ q, a.result? = some q → q = espOk)
      (hquiet : ∀ cb err ctx, a.next? = some (.eventCb cb (.failed err) ctx) → s.verdict n = none)
  | restarting {b : Activation} (hb : IsTask o s n b r.1)
      (hstack : s.system.stack (.spawned n) = [n]) (hnext : b.next? = some .restart)

/-- A step of another task leaves a task where it is. -/
theorem Elsewhere.task {τ : Task} {x x' : System} (h : Elsewhere τ x x') (hx : Placed x) {n : Nat}
    {st : List Nat} (hne : Task.spawned n ≠ τ) (hst : x.stack (.spawned n) = st)
    (hn : n < x.activations.length) : x'.stack (.spawned n) = st ∧
      ∀ i ∈ st, ∀ a, x.activations[i]? = some a →
        ∃ a', x'.activations[i]? = some a' ∧ a.Alike a' := by
  refine ⟨(h.stack _ hne fun m hm => by cases hm; exact hn).trans hst, fun i hi a ha => ?_⟩
  refine h.act i a ha fun hmem => hne (hx.apart _ _ i ?_ hmem)
  rw [hst]
  exact hi

theorem IsTask.lt {n : Nat} {b : Activation} {url : Str} (h : IsTask o s n b url) :
    n < s.system.activations.length := (List.getElem?_eq_some_iff.mp h.1).1

theorem IsTask.alike {n : Nat} {b b' : Activation} {url : Str} (h : IsTask o s n b url)
    (hb' : s'.system.activations[n]? = some b') (hab : b.Alike b') : IsTask o s' n b' url :=
  ⟨hb', hab.routine.trans h.2⟩

theorem Spent.frame {τ : Task} {n : Nat} (h : Spent o s n) (hs : Placed s.system)
    (he : Elsewhere τ s.system s'.system) (hne : Task.spawned n ≠ τ)
    (hv : s'.verdict n = s.verdict n) : Spent o s' n := by
  cases h with
  | failed hb hstack ha hr herr hend =>
    obtain ⟨hst, hact⟩ := Elsewhere.task he hs hne hstack hb.lt
    obtain ⟨b', hb', hbb⟩ := hact n (by simp) _ hb.1
    obtain ⟨a', ha', haa⟩ := hact _ (by simp) _ ha
    refine .failed (hb.alike hb' hbb) hst ha' (haa.routine.trans hr) herr ?_
    rw [haa.result?, haa.next?, haa.entered, hv]
    exact hend
  | deleted hb hstack hnext =>
    obtain ⟨hst, hact⟩ := Elsewhere.task he hs hne hstack hb.lt
    obtain ⟨b', hb', hbb⟩ := hact n (by simp) _ hb.1
    exact .deleted (hb.alike hb' hbb) hst (hbb.next?.trans hnext)

theorem Waiting.frame {τ : Task} {n : Nat} {r : Request} (h : Waiting o s n r) (hs : Placed s.system)
    (he : Elsewhere τ s.system s'.system) (hne : Task.spawned n ≠ τ) : Waiting o s' n r := by
  obtain ⟨hb, hstack, hnext⟩ := h
  obtain ⟨hst, hact⟩ := Elsewhere.task he hs hne hstack hb.lt
  obtain ⟨b', hb', hbb⟩ := hact n (by simp) _ hb.1
  refine ⟨hb.alike hb' hbb, hst, ?_⟩
  rw [hbb.next?, hbb.entered]
  exact hnext

theorem Live.frame {τ : Task} {n : Nat} {r : Request} (h : Live o s served n r)
    (hs : Placed s.system) (he : Elsewhere τ s.system s'.system) (hne : Task.spawned n ≠ τ)
    (hv : s'.verdict n = s.verdict n) : Live o s' served n r := by
  cases h with
  | inside hb hstack hmem ha hr hok hquiet =>
    obtain ⟨hst, hact⟩ := Elsewhere.task he hs hne hstack hb.lt
    obtain ⟨b', hb', hbb⟩ := hact n (by simp) _ hb.1
    obtain ⟨a', ha', haa⟩ := hact _ (by simp) _ ha
    refine .inside (hb.alike hb' hbb) hst hmem ha' (haa.routine.trans hr) (fun q hq => ?_)
      fun cb err ctx hn => ?_
    · rw [haa.result?] at hq
      exact hok q hq
    · rw [haa.next?] at hn
      rw [hv]
      exact hquiet cb err ctx hn
  | restarting hb hstack hnext =>
    obtain ⟨hst, hact⟩ := Elsewhere.task he hs hne hstack hb.lt
    obtain ⟨b', hb', hbb⟩ := hact n (by simp) _ hb.1
    exact .restarting (hb.alike hb' hbb) hst (hbb.next?.trans hnext)

/-- What a callback is about to return is the verdict on the event it was called with. -/
def Judged (o : Options) (served : List (Nat × Request)) (s : State) (n : Nat) (v : EspErr) : Prop :=
  ∃ i a cb event ctx r, s.system.stack (.spawned n) = [i, n] ∧ s.system.activations[i]? = some a ∧
    a.entered = true ∧ a.next? = some (.eventCb cb event ctx) ∧ (i, r) ∈ served ∧
    v = onOtaEventCbVerdict o r.2 event

theorem Judged.frame {τ : Task} {n : Nat} {v : EspErr} (h : Judged o served s n v)
    (hs : Placed s.system) (hn : n < s.system.activations.length)
    (he : Elsewhere τ s.system s'.system) (hne : Task.spawned n ≠ τ) : Judged o served s' n v := by
  obtain ⟨i, a, cb, event, ctx, r, hstack, ha, hent, hnext, hmem, hv⟩ := h
  obtain ⟨hst, hact⟩ := Elsewhere.task he hs hne hstack hn
  obtain ⟨a', ha', haa⟩ := hact i (by simp) a ha
  exact ⟨i, a', cb, event, ctx, r, hst, ha', haa.entered.trans hent, haa.next?.trans hnext, hmem, hv⟩

theorem Judged.lt {n : Nat} {v : EspErr} (h : Judged o served s n v) (hs : Placed s.system) :
    n < s.system.activations.length := by
  obtain ⟨i, a, cb, event, ctx, r, hstack, _⟩ := h
  exact hs.bound (.spawned n) n (by simp [hstack])

/-- Whoever is judged is in its callback. -/
theorem Judged.inside {n i : Nat} {a : Activation} {v : EspErr} (h : Judged o served s n v)
    (hstack : s.system.stack (.spawned n) = [i, n]) (ha : s.system.activations[i]? = some a) :
    a.entered = true ∧ ∃ cb event ctx r, a.next? = some (.eventCb cb event ctx) ∧ (i, r) ∈ served ∧
      v = onOtaEventCbVerdict o r.2 event := by
  obtain ⟨j, b, cb, event, ctx, r, hst, hb, he, hn, hmem, hv⟩ := h
  rw [hstack] at hst
  cases hst
  rw [ha] at hb
  cases hb
  exact ⟨he, cb, event, ctx, r, hn, hmem, hv⟩

/-- An update that was not turned away, for this request. -/
structure Serves (o : Options) (r : Request) (a : Activation) : Prop where
  routine : a.routine = .otaApiUpdate (some (o.otaConfig r.1))
  granted : a.Granted
  answered : Answered o r.2 a

theorem Serves.alike {r : Request} {a a' : Activation} (h : Serves o r a) (haa : a.Alike a') :
    Serves o r a' := by
  refine ⟨haa.routine.trans h.routine, ?_, ?_⟩
  · rw [Activation.Granted, haa.trace]
    exact h.granted
  · intro cb event ctx v hmem
    rw [haa.trace] at hmem
    exact h.answered cb event ctx v hmem

theorem serves_start (o : Options) (r : Request) :
    Serves o r (.start o.build (.otaApiUpdate (some (o.otaConfig r.1)))) := by
  refine ⟨rfl, granted_start _, fun _ _ _ _ hmem => ?_⟩
  exact absurd hmem List.not_mem_nil

/-- What comes back to an update leaves its request served, when its callback answers by
the flag of the request and its claim is granted. -/
theorem Serves.resume {r : Request} {a : Activation} {c : Call} {k : Answer c → Program EspErr}
    {answer : Answer c} (h : Serves o r a) (hclaim : (⟨c, answer⟩ : Event) ≠ ⟨.claimUpdateSlot, false⟩)
    (hcb : ∀ cb event ctx v, (⟨c, answer⟩ : Event) = ⟨.eventCb cb event ctx, v⟩ →
      v = onOtaEventCbVerdict o r.2 event) : Serves o r (a.resume k answer) := by
  refine ⟨h.routine, fun hmem => ?_, fun cb event ctx v hmem => ?_⟩
  · obtain hold | hnew := List.mem_append.mp hmem
    · exact h.granted hold
    · exact hclaim (List.mem_singleton.mp hnew).symm
  · obtain hold | hnew := List.mem_append.mp hmem
    · exact h.answered cb event ctx v hold
    · exact hcb cb event ctx v (List.mem_singleton.mp hnew).symm

end Tasks

/-! ## What a task does -/

section Steps

variable {n i : Nat} {a b : Activation} {url : Str}

theorem IsTask.current (h : IsTask o s n b url) (hstack : s.system.stack (.spawned n) = [n]) :
    s.system.current? (.spawned n) = some (n, b) := current?_alone hstack h.1

theorem current_inside (hstack : s.system.stack (.spawned n) = [i, n])
    (ha : s.system.activations[i]? = some a) : s.system.current? (.spawned n) = some (i, a) := by
  simp [System.current?, hstack, ha]

/-- An update is not the task that is inside of it. -/
theorem inside_ne (hs : Shape o s.system) (hstack : s.system.stack (.spawned n) = [i, n]) : n ≠ i := by
  have hsorted := hs.placed.sorted (.spawned n)
  rw [hstack] at hsorted
  have hlt : n < i := (List.pairwise_cons.mp hsorted).1 n (by simp)
  omega

/-- An update that is over hands its result to its task. -/
theorem task_return (hs : Shape o s.system) (hlive : s.system.restarted = false)
    (hb : IsTask o s n b url) (hstack : s.system.stack (.spawned n) = [i, n])
    (ha : s.system.activations[i]? = some a) {r : EspErr} (hr : a.result? = some r)
    (hsys : s'.system = s.system.step o.build (.advance (.spawned n))) :
    s'.system.stack (.spawned n) = [n] ∧ ∃ b', IsTask o s' n b' url ∧
      b'.next? = some (if r = espOk then .restart else .taskDelete) := by
  have hd : a.prog.turn = .done r := Turn.eq_done hr
  cases hs.at_task hb.1 hb.2 with
  | starting hst _ =>
    rw [hstack] at hst
    cases hst
  | back hst _ =>
    rw [hstack] at hst
    cases hst
  | inside _ hnext he _ _ =>
    obtain ⟨k, ht⟩ := Turn.eq_call hnext
    have hstep : s.system.step o.build (.advance (.spawned n)) =
        ({ s.system with stack := Function.update s.system.stack (.spawned n) [n] } : System).put n
          (@Activation.resume (.otaApiUpdate (o.otaConfig url)) b k r) := by
      have hleave : s.system.step o.build (.advance (.spawned n)) = s.system.leave (.spawned n) r := by
        simp [System.step, hlive, System.advance, current_inside hstack ha, hd]
      rw [hleave]
      simp [System.leave, System.current?, hstack, hb.1, ht, he]
    have hget : s'.system.activations[n]? =
        some (@Activation.resume (.otaApiUpdate (o.otaConfig url)) b k r) := by
      rw [hsys, hstep]
      simp [System.put, hb.lt]
    refine ⟨by rw [hsys, hstep]; simp [System.put], _, ⟨hget, hb.2⟩, ?_⟩
    have hshape : Shape o s'.system := by
      rw [hsys]
      exact shape_step hs (.goesOn (.inl rfl))
    obtain ⟨htrace, _⟩ | ⟨htrace, _⟩ | ⟨r', htrace, hn⟩ := otaTask_state (hshape.sound hget) hb.2
    · simp [Activation.resume] at htrace
    · have hlast := congrArg List.getLast? htrace
      simp only [Activation.resume, List.getLast?_concat] at hlast
      cases hlast
    · have hlast := congrArg List.getLast? htrace
      simp only [Activation.resume, List.getLast?_concat] at hlast
      cases hlast
      exact hn

/-- A task by itself that is not about to call its update enters the call it is at. -/
theorem task_advance (hlive : s.system.restarted = false) (hb : IsTask o s n b url)
    (hstack : s.system.stack (.spawned n) = [n]) {c : Call} (hnext : b.next? = some c)
    (hc : c = .free ∨ c = .restart ∨ c = .taskDelete)
    (hsys : s'.system = s.system.step o.build (.advance (.spawned n))) :
    s'.system.stack (.spawned n) = [n] ∧ ∃ b', IsTask o s' n b' url ∧ b'.next? = some c := by
  obtain ⟨k, ht⟩ := Turn.eq_call hnext
  have hcur := hb.current hstack
  cases he : b.entered with
  | true =>
    have hstep : s.system.step o.build (.advance (.spawned n)) = s.system := by
      simp [System.step, System.advance, hcur, ht, he]
    rw [hstep] at hsys
    exact ⟨by rw [hsys]; exact hstack, b, ⟨by rw [hsys]; exact hb.1, hb.2⟩, hnext⟩
  | false =>
    have hnone : criticalSection s.system.slot c = none := by
      obtain rfl | rfl | rfl := hc <;> rfl
    rw [step_entering hlive hcur ht he hnone] at hsys
    have hput : (s.system.put n b.enter).activations[n]? = some b.enter := by
      simp [System.put, hb.lt]
    obtain ⟨hst, hact⟩ : s'.system.stack = s.system.stack ∧
        s'.system.activations = (s.system.put n b.enter).activations := by
      rw [hsys]
      obtain rfl | rfl | rfl := hc <;> exact ⟨rfl, rfl⟩
    exact ⟨by rw [hst]; exact hstack, b.enter, ⟨hact ▸ hput, hb.2⟩, hnext⟩

/-- Nothing comes back to a task from its end. -/
theorem task_answer (hb : IsTask o s n b url) (hstack : s.system.stack (.spawned n) = [n])
    {c : Call} (hnext : b.next? = some c) {reply : Reply} (hc : reply.answer? c = none) :
    s.system.step o.build (.answer (.spawned n) reply) = s.system := by
  obtain ⟨k, ht⟩ := Turn.eq_call hnext
  simp [System.step, System.answer, hb.current hstack, ht, hc]

/-- A spent task stays spent. -/
theorem Spent.advance (h : Spent o s n) (hs : Shape o s.system) (hlive : s.system.restarted = false)
    (hsys : s'.system = s.system.step o.build (.advance (.spawned n)))
    (hv : s'.verdict n = s.verdict n) : Spent o s' n := by
  cases h with
  | deleted hb hstack hnext =>
    obtain ⟨hst, b', hb', hn⟩ := task_advance hlive hb hstack hnext (.inr (.inr rfl)) hsys
    exact .deleted hb' hst hn
  | @failed b a url i err hb hstack ha hr herr hend =>
    obtain hres | ⟨⟨cb, ctx, hn⟩, he, hverdict⟩ := hend
    · obtain ⟨hst, b', hb', hn⟩ := task_return hs hlive hb hstack ha hres hsys
      rw [if_neg herr] at hn
      exact .deleted hb' hst hn
    · obtain ⟨k, ht⟩ := Turn.eq_call hn
      have hstep : s.system.step o.build (.advance (.spawned n)) = s.system := by
        simp [System.step, System.advance, current_inside hstack ha, ht, he]
      rw [hstep] at hsys
      refine .failed ⟨by rw [hsys]; exact hb.1, hb.2⟩ (by rw [hsys]; exact hstack)
        (by rw [hsys]; exact ha) hr herr (.inr ⟨⟨cb, ctx, hn⟩, he, ?_⟩)
      rw [hv]
      exact hverdict

/-- The event of an update that is in its callback. -/
theorem event_inside (hstack : s.system.stack (.spawned n) = [i, n])
    (ha : s.system.activations[i]? = some a) {cb : EventCb} {event : OtaApiEvent} {ctx : Nat}
    (hn : a.next? = some (.eventCb cb event ctx)) (he : a.entered = true) :
    s.event? n = some event := by
  simp [State.event?, current_inside hstack ha, hn, he]

theorem event_inside_inv (hstack : s.system.stack (.spawned n) = [i, n])
    (ha : s.system.activations[i]? = some a) {event : OtaApiEvent} (h : s.event? n = some event) :
    a.entered = true ∧ ∃ cb ctx, a.next? = some (.eventCb cb event ctx) := by
  simp only [State.event?, current_inside hstack ha, Option.bind_some] at h
  split at h
  · rename_i cb event' ctx hn
    split at h
    · rename_i he
      cases h
      exact ⟨he, cb, ctx, hn⟩
    · cases h
  · cases h

theorem event_outside (hb : IsTask o s n b url) (hstack : s.system.stack (.spawned n) = [n])
    (hout : ∀ cb event ctx, b.next? ≠ some (.eventCb cb event ctx)) : s.event? n = none := by
  simp only [State.event?, hb.current hstack, Option.bind_some]

theorem Spent.answer (h : Spent o s n) (hevent : s.event? n = none) {reply : Reply}
    (hsys : s'.system = s.system.step o.build (.answer (.spawned n) reply)) : Spent o s' n := by
  cases h with
  | deleted hb hstack hnext =>
    rw [task_answer hb hstack hnext (by cases reply <;> rfl)] at hsys
    exact .deleted ⟨by rw [hsys]; exact hb.1, hb.2⟩ (by rw [hsys]; exact hstack) hnext
  | @failed b a url i err hb hstack ha hr herr hend =>
    obtain hres | ⟨⟨cb, ctx, hn⟩, he, _⟩ := hend
    · have hd : a.prog.turn = .done err := Turn.eq_done hres
      have hstep : s.system.step o.build (.answer (.spawned n) reply) = s.system := by
        simp [System.step, System.answer, current_inside hstack ha, hd]
      rw [hstep] at hsys
      exact .failed ⟨by rw [hsys]; exact hb.1, hb.2⟩ (by rw [hsys]; exact hstack)
        (by rw [hsys]; exact ha) hr herr (.inl hres)
    · rw [event_inside hstack ha hn he] at hevent
      cases hevent

/-- A task that has not called its update yet does not do so by anything else. -/
theorem Waiting.advance {r : Request} (h : Waiting o s n r) (hlive : s.system.restarted = false)
    (hcalls : s.calls n = false)
    (hsys : s'.system = s.system.step o.build (.advance (.spawned n))) : Waiting o s' n r := by
  obtain ⟨hb, hstack, hnext | ⟨hnext, he⟩⟩ := h
  · obtain ⟨hst, b', hb', hn⟩ := task_advance hlive hb hstack hnext (.inl rfl) hsys
    exact ⟨hb', hst, .inl hn⟩
  · simp [State.calls, hb.current hstack, hnext, he] at hcalls

theorem Waiting.answer {r : Request} (h : Waiting o s n r) (hs : Shape o s.system) {reply : Reply}
    (hsys : s'.system = s.system.step o.build (.answer (.spawned n) reply)) : Waiting o s' n r := by
  obtain @⟨b, hb, hstack, hnext⟩ := h
  have hshape : Shape o s'.system := by
    rw [hsys]
    exact shape_step hs (.goesOn (.inr ⟨reply, rfl⟩))
  have hcur := hb.current hstack
  have hbranch := @step_branch o.build s.system (.answer (.spawned n) reply)
  rw [← hsys] at hbranch
  generalize hx : s'.system = x at hbranch
  cases hbranch with
  | idle => exact ⟨⟨by rw [hx]; exact hb.1, hb.2⟩, by rw [hx]; exact hstack, hnext⟩
  | @answered _ _ j b' c k answer hrun hcur' ht he ha =>
    rw [hcur] at hcur'
    cases hcur'
    have hc : c = .free := by
      obtain hn | ⟨hn, _⟩ := hnext
      · rw [next?_of_turn ht] at hn
        exact Option.some.inj hn
      · rw [next?_of_turn ht] at hn
        cases hn
        cases reply <;> cases ha
    subst hc
    have hget : s'.system.activations[n]? = some (b.resume k answer) := by
      rw [hx]
      change (s.system.activations.set n (b.resume k answer))[n]? = _
      rw [List.getElem?_set_self hb.lt]
    have hst : s'.system.stack (.spawned n) = [n] := by
      rw [hx]
      exact hstack
    obtain ⟨htrace, hn⟩ | ⟨_, hn⟩ | ⟨r', htrace, hn⟩ := otaTask_state (hshape.sound hget) hb.2
    · exact ⟨⟨hget, hb.2⟩, hst, .inl hn⟩
    · exact ⟨⟨hget, hb.2⟩, hst, .inr ⟨hn, rfl⟩⟩
    · have hlast := congrArg List.getLast? htrace
      simp only [Activation.resume, List.getLast?_concat] at hlast
      cases hlast

/-- The claim of the update a task is inside of is granted. -/
def ClaimFree (s : State) (n : Nat) : Prop :=
  ∀ (i : Nat) (a : Activation) (k : Bool → Program EspErr), s.system.stack (.spawned n) = [i, n] →
    s.system.activations[i]? = some a → a.prog.turn = .call .claimUpdateSlot k →
      s.system.slot.sRunning = false

/-- What an update does by itself concerns nobody but itself. -/
theorem inside_advance (hs : Shape o s.system) (hlive : s.system.restarted = false)
    (hstack : s.system.stack (.spawned n) = [i, n]) (ha : s.system.activations[i]? = some a)
    {config : Option OtaApiConfig} (hr : a.routine = .otaApiUpdate config) (hnone : a.result? = none)
    (hsys : s'.system = s.system.step o.build (.advance (.spawned n))) :
    ∃ a', Goes s.system.slot a a' ∧ s'.system.stack (.spawned n) = [i, n] ∧
      s'.system.activations[i]? = some a' ∧ ∀ b url, IsTask o s n b url → IsTask o s' n b url := by
  obtain ⟨a', hgoes, _, hst, hact⟩ :=
    update_advance hlive (current_inside hstack ha) (hs.sound ha) hr hnone
  have hlt : i < s.system.activations.length := (List.getElem?_eq_some_iff.mp ha).1
  refine ⟨a', hgoes, ?_, ?_, fun b url hb => ⟨?_, hb.2⟩⟩
  · rw [hsys, hst]
    exact hstack
  · rw [hsys, hact, List.getElem?_set_self hlt]
  · rw [hsys, hact, List.getElem?_set_ne (Ne.symm (inside_ne hs hstack))]
    exact hb.1

/-- Nor does what comes back to it. -/
theorem inside_answer (hs : Shape o s.system) (hstack : s.system.stack (.spawned n) = [i, n])
    (ha : s.system.activations[i]? = some a) {config : Option OtaApiConfig}
    (hr : a.routine = .otaApiUpdate config) {reply : Reply}
    (hsys : s'.system = s.system.step o.build (.answer (.spawned n) reply)) :
    s'.system = s.system ∨ ∃ (c : Call) (k : Answer c → Program EspErr) (answer : Answer c),
      a.prog.turn = .call c k ∧ a.entered = true ∧ reply.answer? c = some answer ∧
      s'.system.stack (.spawned n) = [i, n] ∧
      s'.system.activations[i]? = some (a.resume k answer) ∧
      ∀ b url, IsTask o s n b url → IsTask o s' n b url := by
  obtain hsame | ⟨c, k, answer, ht, he, hans, _, hst, hact⟩ :=
    @update_answer o.build _ _ _ _ _ (current_inside hstack ha) (hs.sound ha) hr reply
  · exact .inl (hsys.trans hsame)
  · have hlt : i < s.system.activations.length := (List.getElem?_eq_some_iff.mp ha).1
    refine .inr ⟨c, k, answer, ht, he, hans, ?_, ?_, fun b url hb => ⟨?_, hb.2⟩⟩
    · rw [hsys, hst]
      exact hstack
    · rw [hsys, hact, List.getElem?_set_self hlt]
    · rw [hsys, hact, List.getElem?_set_ne (Ne.symm (inside_ne hs hstack))]
      exact hb.1

theorem IsTask.same (h : IsTask o s n b url) (hsys : s'.system = s.system) : IsTask o s' n b url :=
  ⟨by rw [hsys]; exact h.1, h.2⟩

theorem not_claimed {slot slot' : RunState} {c : Call} {answer : Answer c}
    (hc : criticalSection slot c = some (answer, slot'))
    (hfree : c = .claimUpdateSlot → slot.sRunning = false) :
    (⟨c, answer⟩ : Event) ≠ ⟨.claimUpdateSlot, false⟩ := by
  intro heq
  cases heq
  simp [criticalSection, otaApiClaimUpdateSlot, hfree rfl] at hc

/-- A critical section is not the callback, and an answer from outside is not the one of the
claim. -/
theorem passed_event {slot slot' : RunState} {c : Call} {answer : Answer c}
    (hc : criticalSection slot c = some (answer, slot')) (cb : EventCb) (event : OtaApiEvent) (ctx : Nat)
    (v : EspErr) : (⟨c, answer⟩ : Event) ≠ ⟨.eventCb cb event ctx, v⟩ := by
  intro heq
  cases heq
  cases hc

theorem answered_event {reply : Reply} {c : Call} {answer : Answer c} (h : reply.answer? c = some answer) :
    (⟨c, answer⟩ : Event) ≠ ⟨.claimUpdateSlot, false⟩ := by
  intro heq
  cases heq
  cases reply <;> cases h

/-- A task that serves its request goes on doing so. -/
theorem Live.advance {r : Request} (h : Live o s served n r) (hs : Shape o s.system)
    (hlive : s.system.restarted = false) (hfree : ClaimFree s n)
    (hjudged : ∀ v, s.verdict n = some v → Judged o served s n v)
    (hsys : s'.system = s.system.step o.build (.advance (.spawned n)))
    (hv : s'.verdict n = s.verdict n) : Live o s' served n r := by
  cases h with
  | restarting hb hstack hnext =>
    obtain ⟨hst, b', hb', hn⟩ := task_advance hlive hb hstack hnext (.inr (.inl rfl)) hsys
    exact .restarting hb' hst hn
  | @inside b a i hb hstack hmem ha hr hok hquiet =>
    cases hres : a.result? with
    | some q =>
      obtain rfl := hok q hres
      obtain ⟨hst, b', hb', hn⟩ := task_return hs hlive hb hstack ha hres hsys
      exact .restarting hb' hst hn
    | none =>
      obtain ⟨a', hgoes, hst, ha', hkept⟩ := inside_advance hs hlive hstack ha hr hres hsys
      have hr' : a'.routine = a.routine := hgoes.evolves.routine_eq
      refine .inside (hkept _ _ hb) hst hmem ha' (hr'.trans hr) (fun q hq => ?_) fun cb err ctx hn => ?_
      · cases hgoes with
        | waits _ => exact hok q hq
        | enters _ _ _ => exact hok q hq
        | @passes c k answer slot' ht he hc =>
          have hclaim := not_claimed hc fun heq => by subst heq; exact hfree i a k hstack ha ht
          obtain h | ⟨cb, ctx, v, h⟩ :=
            update_finishes (hs.sound ha) (otaConfig_updates hr) (by simp [Options.otaConfig]) ht hq
          · exact absurd h hclaim
          · exact absurd h (passed_event hc _ _ _ _)
      · rw [hv]
        cases hgoes with
        | waits _ => exact hquiet cb err ctx hn
        | enters _ _ _ => exact hquiet cb err ctx hn
        | passes _ he _ =>
          cases hverdict : s.verdict n with
          | none => rfl
          | some v =>
            obtain ⟨hent, _⟩ := (hjudged v hverdict).inside hstack ha
            rw [he] at hent
            cases hent

theorem Live.answer {r : Request} (h : Live o s served n r) (hs : Shape o s.system)
    (hevent : s.event? n = none) (hjudged : ∀ v, s.verdict n = some v → Judged o served s n v)
    {reply : Reply} (hsys : s'.system = s.system.step o.build (.answer (.spawned n) reply))
    (hv : s'.verdict n = s.verdict n) : Live o s' served n r := by
  cases h with
  | restarting hb hstack hnext =>
    rw [task_answer hb hstack hnext (by cases reply <;> rfl)] at hsys
    exact .restarting (hb.same hsys) (by rw [hsys]; exact hstack) hnext
  | @inside b a i hb hstack hmem ha hr hok hquiet =>
    obtain hsame | ⟨c, k, answer, ht, he, hans, hst, ha', hkept⟩ := inside_answer hs hstack ha hr hsys
    · refine .inside (hb.same hsame) (by rw [hsame]; exact hstack) hmem (by rw [hsame]; exact ha) hr hok
        fun cb err ctx hn => ?_
      rw [hv]
      exact hquiet cb err ctx hn
    · refine .inside (hkept _ _ hb) hst hmem ha' hr (fun q hq => ?_) fun cb err ctx hn => ?_
      · obtain h | ⟨cb, ctx, v, h⟩ :=
          update_finishes (hs.sound ha) (otaConfig_updates hr) (by simp [Options.otaConfig]) ht hq
        · exact absurd h (answered_event hans)
        · cases h
          rw [event_inside hstack ha (next?_of_turn ht) he] at hevent
          cases hevent
      · rw [hv]
        cases hverdict : s.verdict n with
        | none => rfl
        | some v =>
          obtain ⟨hent, cb', event, ctx', _, hn', _⟩ := (hjudged v hverdict).inside hstack ha
          rw [event_inside hstack ha hn' hent] at hevent
          cases hevent

/-- The callback comes back with its verdict. -/
theorem callback_return (hs : Shape o s.system) (hlive : s.system.restarted = false)
    (hstack : s.system.stack (.spawned n) = [i, n]) (ha : s.system.activations[i]? = some a)
    (he : a.entered = true) {cb : EventCb} {event : OtaApiEvent} {ctx : Nat}
    {k : EspErr → Program EspErr} (ht : a.prog.turn = .call (.eventCb cb event ctx) k) {v : EspErr}
    (hsys : s'.system = s.system.step o.build (.answer (.spawned n) (.err v))) :
    s'.system.stack (.spawned n) = [i, n] ∧
      s'.system.activations[i]? = some (@Activation.resume (.eventCb cb event ctx) a k v) ∧
      ∀ b url, IsTask o s n b url → IsTask o s' n b url := by
  have hlt : i < s.system.activations.length := (List.getElem?_eq_some_iff.mp ha).1
  have hstep : s.system.step o.build (.answer (.spawned n) (.err v)) =
      s.system.put i (@Activation.resume (.eventCb cb event ctx) a k v) :=
    step_answering hlive (current_inside hstack ha) ht he rfl
  rw [hstep] at hsys
  refine ⟨by rw [hsys]; exact hstack, ?_, fun b url hb => ⟨?_, hb.2⟩⟩
  · rw [hsys, System.put, List.getElem?_set_self hlt]
  · rw [hsys, System.put, List.getElem?_set_ne (Ne.symm (inside_ne hs hstack))]
    exact hb.1

theorem Live.return {r : Request} {v : EspErr} (h : Live o s served n r) (hs : Shape o s.system)
    (hlive : s.system.restarted = false) (hverdict : s.verdict n = some v)
    (hjudged : Judged o served s n v)
    (hsys : s'.system = s.system.step o.build (.answer (.spawned n) (.err v)))
    (hv : s'.verdict n = none) : Live o s' served n r := by
  cases h with
  | restarting hb hstack hnext =>
    obtain ⟨i, _, _, _, _, _, hst, _⟩ := hjudged
    rw [hstack] at hst
    cases hst
  | @inside b a i hb hstack hmem ha hr hok hquiet =>
    obtain ⟨he, cb, event, ctx, _, hn, _⟩ := hjudged.inside hstack ha
    obtain ⟨k, ht⟩ := Turn.eq_call hn
    obtain ⟨hst, ha', hkept⟩ := callback_return hs hlive hstack ha he ht hsys
    refine .inside (hkept _ _ hb) hst hmem ha' hr (fun q hq => ?_) fun _ _ _ _ => hv
    obtain h | ⟨cb', ctx', v', h⟩ :=
      update_finishes (hs.sound ha) (otaConfig_updates hr) (by simp [Options.otaConfig]) ht hq
    · cases h
    · by_contra hne
      cases h
      have hfailed : outcomeEvent q = .failed q := if_neg hne
      rw [hfailed] at hn
      rw [hquiet cb q ctx hn] at hverdict
      cases hverdict

theorem Spent.return {v : EspErr} (h : Spent o s n) (hs : Shape o s.system)
    (hlive : s.system.restarted = false) (hjudged : Judged o served s n v)
    (hsys : s'.system = s.system.step o.build (.answer (.spawned n) (.err v))) : Spent o s' n := by
  cases h with
  | deleted hb hstack hnext =>
    obtain ⟨i, _, _, _, _, _, hst, _⟩ := hjudged
    rw [hstack] at hst
    cases hst
  | @failed b a url i err hb hstack ha hr herr hend =>
    obtain ⟨he, cb, event, ctx, _, hn, _⟩ := hjudged.inside hstack ha
    obtain hres | ⟨⟨cb', ctx', hn'⟩, _, _⟩ := hend
    · have hd : a.prog.turn = .done err := Turn.eq_done hres
      rw [Activation.next?, hd] at hn
      cases hn
    · rw [hn] at hn'
      cases hn'
      obtain ⟨k, ht⟩ := Turn.eq_call hn
      obtain ⟨hst, ha', hkept⟩ := callback_return hs hlive hstack ha he ht hsys
      obtain ⟨_, _, hlast⟩ := update_failing (hs.sound ha) (otaConfig_updates hr) hn
      exact .failed (hkept _ _ hb) hst ha' hr herr (.inl (hlast k v ht))

end Steps

end Advanced

end OtaApi
