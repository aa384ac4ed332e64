import OtaApi.Activations

/-!
# Who owns the update slot

The two flags carry out a lease whose holder is an activation of
`ota_api_update()`: `Leased` says which one, and that its request is exactly
what the flag shows. Every step of the system is a step of the lease.
-/

namespace OtaApi

open Interaction

/-- The activation is between its claim and its release. -/
def Activation.holds (a : Activation) : Bool := OtaApi.holds a.trace

/-- The moment fell into the ownership of the activation. -/
def Activation.owned (a : Activation) (m : Moment) : Bool := OtaApi.holds (a.trace.take m.answered)

/-- An abort was accepted while the activation held the slot. -/
def Activation.requested (a : Activation) : Bool := a.aborts.any a.owned

/-- Claims that were granted. -/
def Activation.claims (a : Activation) : Nat := a.trace.countP isClaim

def Activation.releases (a : Activation) : Nat := a.trace.countP isRelease

section Trace

@[simp] theorem holds_nil : holds [] = false := rfl

theorem holds_snoc {t : List Event} {e : Event} (hc : isClaim e = false)
    (hr : isRelease e = false) : holds (t ++ [e]) = holds t := by
  simp [holds, hc, hr]

theorem not_claim {e : Event} (h : e.call.critical = false) : isClaim e = false := by
  obtain ⟨c, a⟩ := e
  cases c with
  | claimUpdateSlot => cases h
  | _ => rfl

theorem not_release {e : Event} (h : e.call.critical = false) : isRelease e = false := by
  obtain ⟨c, a⟩ := e
  cases c with
  | releaseUpdateSlot => cases h
  | _ => rfl

theorem holds_outside {t : List Event} {e : Event} (h : e.call.critical = false) :
    holds (t ++ [e]) = holds t :=
  holds_snoc (not_claim h) (not_release h)

end Trace

section Activation

variable {build : BuildOptions} {a : Activation}

theorem Activation.Sound.answered_le (hs : a.Sound build) {m : Moment} (hm : m ∈ a.aborts) :
    m.answered ≤ a.trace.length := by
  have := hs.moments m hm
  omega

theorem Activation.Sound.owned_resume (hs : a.Sound build) {c : Call}
    (k : Answer c → Program EspErr) (answer : Answer c) {m : Moment} (hm : m ∈ a.aborts) :
    (a.resume k answer).owned m = a.owned m := by
  have hle := hs.answered_le hm
  simp only [Activation.owned, Activation.resume]
  rw [List.take_append_of_le_length hle]

/-- What happened before does not depend on what comes after. -/
theorem Activation.Sound.requested_resume (hs : a.Sound build) {c : Call}
    (k : Answer c → Program EspErr) (answer : Answer c) :
    (a.resume k answer).requested = a.requested := by
  have hb : a.requested = true ↔ (a.resume k answer).requested = true := by
    simp only [Activation.requested, List.any_eq_true]
    refine exists_congr fun m => and_congr_right fun hm => ?_
    rw [hs.owned_resume k answer hm]
  exact (Bool.eq_iff_iff.mpr hb).symm

@[simp] theorem holds_start (r : Routine) : (Activation.start build r).holds = false := rfl
@[simp] theorem holds_enter : a.enter.holds = a.holds := rfl
@[simp] theorem requested_enter : a.enter.requested = a.requested := rfl
@[simp] theorem holds_notice : a.notice.holds = a.holds := rfl

@[simp] theorem requested_notice : a.notice.requested = (a.requested || a.holds) := by
  have howned : a.notice.owned = a.owned := rfl
  have hnow : a.owned a.now = a.holds := by simp [Activation.owned, Activation.now, Activation.holds]
  simp only [Activation.requested, howned]
  simp [Activation.notice, hnow]

theorem holds_resume_outside {c : Call} {k : Answer c → Program EspErr} {answer : Answer c}
    (h : c.critical = false) : (a.resume k answer).holds = a.holds :=
  holds_outside h

theorem otaApiStartTask_only (config : Option OtaApiConfig) :
    (otaApiStartTask build config).Only fun c => c.critical = false := by
  unfold otaApiStartTask
  split
  · exact Prog.only_pure _
  · split
    · exact Prog.only_pure _
    · refine Prog.only_bind (Prog.only_ask rfl) fun copy => ?_
      split
      · exact Prog.only_pure _
      · refine Prog.only_bind (Prog.only_ask rfl) fun created => ?_
        split
        · exact Prog.only_bind (Prog.only_ask rfl) fun _ => Prog.only_pure _
        · exact Prog.only_pure _

theorem otaTask_only (config : OtaApiConfig) :
    (otaTask config).Only fun c => c.critical = false := by
  refine Prog.only_bind (Prog.only_ask rfl) fun _ => Prog.only_bind (Prog.only_ask rfl) fun err => ?_
  split
  · exact Prog.only_bind (Prog.only_ask rfl) fun never => nomatch never
  · exact Prog.only_bind (Prog.only_ask rfl) fun never => nomatch never

/-- Only an update that has a URL ever touches the slot. -/
theorem updates_or_outside (hs : a.Sound build) :
    (∃ config url, a.Updates config url) ∨
      (∀ e ∈ a.trace, e.call.critical = false) ∧
        ∀ c k, a.prog.turn = .call c k → c.critical = false := by
  have hruns := hs.runs
  have only : ∀ {p : Program EspErr}, p.Only (fun c => c.critical = false) →
      Steps Prog.turn p a.trace a.prog →
      (∀ e ∈ a.trace, e.call.critical = false) ∧
        ∀ c k, a.prog.turn = .call c k → c.critical = false := by
    intro p hp h
    have hrest := h.only hp
    exact ⟨hrest.1, fun c k ht => (hrest.2.turn ht).1⟩
  cases hr : a.routine with
  | otaApiUpdate config =>
    rw [hr] at hruns
    cases config with
    | none => exact .inr (only (Prog.only_pure _) hruns)
    | some config =>
      cases hu : config.url with
      | some url => exact .inl ⟨config, url, hr, hu⟩
      | none =>
        refine .inr (only ?_ hruns)
        simp only [Routine.program, otaApiUpdate, hu]
        exact Prog.only_pure _
  | otaApiStartTask config =>
    rw [hr] at hruns
    exact .inr (only (otaApiStartTask_only config) hruns)
  | otaTask config =>
    rw [hr] at hruns
    exact .inr (only (otaTask_only config) hruns)

/-- Before a critical section an activation is in one of three phases. -/
theorem critical_phase (hs : a.Sound build) {c : Call} {k : Answer c → Program EspErr}
    (ht : a.prog.turn = .call c k) (hc : c.critical = true) :
    (c = .claimUpdateSlot ∧ a.trace = []) ∨
      (a.holds = true ∧ (c = .releaseUpdateSlot ∨ c = .abortRequested)) := by
  obtain ⟨config, url, hu⟩ | ⟨_, hout⟩ := updates_or_outside hs
  · obtain ⟨ph, hpath, hprog⟩ := update_path hs hu
    have hnext : ph.next? build config = some c := by
      rw [← @prog_next? _ _ url, ← hprog, ht]
      rfl
    have hheld : ph.slotUse = (1, 0) → a.holds = true := (path_holds hpath).mpr
    cases ph with
    | claiming =>
      cases hnext
      exact .inl ⟨rfl, path_facts hpath⟩
    | releasing err =>
      cases hnext
      exact .inr ⟨hheld rfl, .inl rfl⟩
    | polling h total last =>
      cases hnext
      exact .inr ⟨hheld rfl, .inr rfl⟩
    | refused _ => cases hnext
    | finished _ => cases hnext
    | _ => cases hnext; cases hc
  · rw [hout c k ht] at hc
    cases hc

end Activation

section Lease

variable {build : BuildOptions} {s s' : System} {l : Lease Nat}

/-- The slot is leased to the activation that holds it. -/
structure Leased (s : System) (l : Lease Nat) : Prop where
  slot : s.slot = .ofLease l
  holder : ∀ i, l.holder = some i ↔ ∃ a, s.activations[i]? = some a ∧ a.holds = true
  asked : ∀ i a, l.holder = some i → s.activations[i]? = some a → l.asked = a.requested

theorem leased_initial : Leased .initial none := by
  refine ⟨rfl, fun i => ?_, fun i a h => ?_⟩
  · simp [System.initial]
  · cases h

theorem Leased.holds_iff (h : Leased s l) {i : Nat} {a : Activation}
    (ha : s.activations[i]? = some a) : a.holds = true ↔ l.holder = some i := by
  rw [h.holder]
  constructor
  · intro hh
    exact ⟨a, ha, hh⟩
  · rintro ⟨b, hb, hh⟩
    rw [ha] at hb
    cases hb
    exact hh

/-- What a step makes of the lease is checked activation by activation; those it
adds hold nothing. -/
theorem Leased.step {lab : Label} {l' : Lease Nat} (hc : Change build s lab s')
    (hslot : s'.slot = .ofLease l')
    (hdom : ∀ j, l'.holder = some j → ∃ b, s.activations[j]? = some b)
    (heach : ∀ j b, s.activations[j]? = some b → ∃ b', s'.activations[j]? = some b' ∧
      (b'.holds = true ↔ l'.holder = some j) ∧ (l'.holder = some j → l'.asked = b'.requested)) :
    Leased s' l' := by
  refine ⟨hslot, fun j => ⟨fun hj => ?_, ?_⟩, fun j a' hj ha' => ?_⟩
  · obtain ⟨b, hb⟩ := hdom j hj
    obtain ⟨b', hb', hh, _⟩ := heach j b hb
    exact ⟨b', hb', hh.mpr hj⟩
  · rintro ⟨a', ha', hh⟩
    obtain ⟨b, hb, _⟩ | ⟨_, r, rfl⟩ := hc.origin ha'
    · obtain ⟨b', hb', hiff, _⟩ := heach j b hb
      rw [ha'] at hb'
      cases hb'
      exact hiff.mp hh
    · rw [holds_start] at hh
      cases hh
  · obtain ⟨b, hb⟩ := hdom j hj
    obtain ⟨b', hb', _, hasked⟩ := heach j b hb
    rw [ha'] at hb'
    cases hb'
    exact hasked hj

/-- The same when the step replaces one activation. -/
theorem Leased.replace {lab : Label} {l' : Lease Nat} {i : Nat} {a b : Activation}
    {new : List Routine} (h : Leased s l) (hc : Change build s lab s')
    (ha : s.activations[i]? = some a)
    (hact : s'.activations = s.activations.set i b ++ new.map (.start build))
    (hslot : s'.slot = .ofLease l') (hself : b.holds = true ↔ l'.holder = some i)
    (hasked : l'.holder = some i → l'.asked = b.requested)
    (hother : ∀ j, j ≠ i → (l'.holder = some j ↔ l.holder = some j) ∧
      (l'.holder = some j → l'.asked = l.asked)) : Leased s' l' := by
  obtain ⟨hlt, _⟩ := List.getElem?_eq_some_iff.mp ha
  refine .step hc hslot (fun j hj => ?_) (fun j c hget => ?_)
  · by_cases hij : j = i
    · exact ⟨a, hij ▸ ha⟩
    · obtain ⟨b', hb', _⟩ := (h.holder j).mp ((hother j hij).1.mp hj)
      exact ⟨b', hb'⟩
  · obtain ⟨hlt', _⟩ := List.getElem?_eq_some_iff.mp hget
    rw [hact, List.getElem?_append_left (by simpa using hlt'), List.getElem?_set]
    by_cases hij : j = i
    · subst hij
      exact ⟨b, by simp [hlt'], hself, hasked⟩
    · refine ⟨c, by simp [Ne.symm hij, hget], ?_, fun hj => ?_⟩
      · rw [(hother j hij).1]
        exact h.holds_iff hget
      · rw [(hother j hij).2 hj]
        exact h.asked j c ((hother j hij).1.mp hj) hget

/-- A critical section is the operation of the lease it stands for. -/
theorem leased_passed {lab : Label} {i : Nat} {a : Activation} {c : Call}
    {k : Answer c → Program EspErr} {answer : Answer c} (h : Leased s l) (hs : a.Sound build)
    (hc : Change build s lab s') (ha : s.activations[i]? = some a)
    (ht : a.prog.turn = .call c k) (hcs : criticalSection s.slot c = some (answer, s'.slot))
    (hact : s'.activations = s.activations.set i (a.resume k answer)) : ∃ l', Leased s' l' := by
  have hact : s'.activations =
      s.activations.set i (a.resume k answer) ++ ([] : List Routine).map (.start build) := by
    rw [hact]
    exact (List.append_nil _).symm
  have hheld := h.holds_iff ha
  rw [h.slot] at hcs
  obtain ⟨rfl, htrace⟩ | ⟨hholds, rfl | rfl⟩ := critical_phase hs ht (critical_of_criticalSection hcs)
  · -- a claim
    have hnone : a.holds = false := by simp [Activation.holds, htrace]
    simp only [criticalSection, claim_ofLease i, Option.some.injEq, Prod.mk.injEq] at hcs
    obtain ⟨hanswer, hslot⟩ := hcs
    have hholds : (a.resume k answer).holds = answer := by
      simp [Activation.holds, Activation.resume, htrace, holds, isClaim, isRelease]
    have hreq : (a.resume k answer).requested = false := by
      rw [hs.requested_resume k answer, Activation.requested, List.any_eq_false]
      intro m _
      simp [Activation.owned, htrace]
    refine ⟨_, h.replace hc ha hact hslot.symm ?_ ?_ ?_⟩
    · rw [hholds, ← hanswer]
      cases l with
      | none => simp [Lease.take]
      | some held =>
        have hne : ¬ Lease.holder (some held) = some i := fun hh => by
          rw [hheld.mpr hh] at hnone
          cases hnone
        simpa [Lease.take] using hne
    · intro hi
      rw [hreq]
      cases l with
      | none => rfl
      | some held =>
        rw [hheld.mpr hi] at hnone
        cases hnone
    · intro j hij
      cases l with
      | none => simpa [Lease.take] using Ne.symm hij
      | some held => simp [Lease.take]
  · -- a release
    simp only [criticalSection, release_ofLease, Option.some.injEq, Prod.mk.injEq] at hcs
    have hfree : (a.resume k answer).holds = false := by
      simp [Activation.holds, Activation.resume, holds, isRelease]
    refine ⟨l.drop, h.replace hc ha hact hcs.2.symm ?_ ?_ ?_⟩
    · simp [hfree, Lease.drop]
    · intro hi
      simp [Lease.drop] at hi
    · intro j hij
      rw [hheld.mp hholds]
      simp [Lease.drop, Ne.symm hij]
  · -- a look at the request
    simp only [criticalSection, Option.some.injEq, Prod.mk.injEq] at hcs
    have hsame : (a.resume k answer).holds = a.holds := holds_snoc rfl rfl
    refine ⟨l, h.replace hc ha hact hcs.2.symm ?_ ?_ fun j _ => ⟨.rfl, fun _ => rfl⟩⟩
    · rw [hsame]
      exact hheld
    · intro hi
      rw [hs.requested_resume k answer]
      exact h.asked i a hi ha

theorem leased_change {lab : Label} (h : Leased s l) (hc : Change build s lab s')
    (hs : ∀ (i : Nat) (a : Activation), s.activations[i]? = some a → a.Sound build) :
    ∃ l', Leased s' l' := by
  have hstep := hc
  cases hc with
  | opened new hslot hflash hact =>
    refine ⟨l, .step hstep (hslot.trans h.slot) (fun j hj => ?_)
      fun j b hb => ⟨b, ?_, h.holds_iff hb, fun hj => h.asked j b hj hb⟩⟩
    · obtain ⟨b, hb, _⟩ := (h.holder j).mp hj
      exact ⟨b, hb⟩
    · obtain ⟨hlt, _⟩ := List.getElem?_eq_some_iff.mp hb
      rw [hact, List.getElem?_append_left hlt]
      exact hb
  | passed hcur ht he hcs hflash hact =>
    have hget := current?_get hcur
    exact leased_passed h (hs _ _ hget) hstep hget ht hcs hact
  | @entered τ i a c k s' new hrun hcur ht he hcrit hslot hflash hact =>
    have hget := current?_get hcur
    have hself : a.enter.holds = true ↔ l.holder = some i := by
      rw [holds_enter]
      exact h.holds_iff hget
    have hasked : l.holder = some i → l.asked = a.enter.requested := fun hi => h.asked i a hi hget
    exact ⟨l, h.replace hstep hget hact
      (hslot.trans h.slot) hself hasked fun j _ => ⟨.rfl, fun _ => rfl⟩⟩
  | answered new hget ht he hcrit hslot hflash hact =>
    refine ⟨l, h.replace hstep hget hact
      (hslot.trans h.slot) ?_ (fun hi => ?_) fun j _ => ⟨.rfl, fun _ => rfl⟩⟩
    · rw [holds_resume_outside hcrit]
      exact h.holds_iff hget
    · rw [(hs _ _ hget).requested_resume]
      exact h.asked _ _ hi hget
  | aborted hr hslot hflash hact =>
    have hask : s'.slot = .ofLease l.ask.2 := by
      rw [hslot, h.slot, abort_ofLease]
    refine ⟨l.ask.2, .step hstep hask (fun j hj => ?_) fun j b hb => ?_⟩
    · rw [Lease.holder_ask] at hj
      obtain ⟨b, hb, _⟩ := (h.holder j).mp hj
      exact ⟨b, hb⟩
    · refine ⟨b.notice, by simp [hact, hb], ?_, fun hj => ?_⟩
      · rw [holds_notice, Lease.holder_ask]
        exact h.holds_iff hb
      · rw [Lease.holder_ask] at hj
        have hholds := (h.holds_iff hb).mpr hj
        cases l with
        | none => cases hj
        | some held => simp [Lease.ask, hholds]

theorem run_leased (build : BuildOptions) (ls : List Label) :
    ∃ l, Leased (System.run build ls) l := by
  have keep : ∀ ls lab, (∃ l, Leased (System.run build ls) l) →
      ∃ l, Leased ((System.run build ls).step build lab) l := by
    rintro ls lab ⟨l, h⟩
    have hs : ∀ (i : Nat) (a : Activation), (System.run build ls).activations[i]? = some a →
        a.Sound build := fun i a ha => run_sound ha
    exact leased_change h (step_change _ lab) hs
  exact @run_induction build (fun s => ∃ l, Leased s l) ⟨none, leased_initial⟩ keep ls

end Lease

/-! ## What a look at the flag shows -/

section Poll

variable {build : BuildOptions}

/-- Every look at the request shows whether one had been accepted by then, while
the activation held the slot. -/
def Activation.Polled (a : Activation) : Prop :=
  ∀ u b v, a.trace = u ++ ⟨.abortRequested, b⟩ :: v →
    (b = true ↔ ∃ m ∈ a.aborts, a.owned m = true ∧ m.answered ≤ u.length)

theorem polled_resume {a : Activation} (hs : a.Sound build) (hp : a.Polled) {c : Call}
    {k : Answer c → Program EspErr} {answer : Answer c}
    (hlook : ∀ b, (⟨c, answer⟩ : Event) = ⟨.abortRequested, b⟩ → (b = true ↔ a.requested = true)) :
    (a.resume k answer).Polled := by
  intro u b v htrace
  have howned : ∀ m ∈ a.aborts, (a.resume k answer).owned m = a.owned m :=
    fun m hm => hs.owned_resume k answer hm
  have hsame : (∃ m ∈ a.aborts, (a.resume k answer).owned m = true ∧ m.answered ≤ u.length) ↔
      ∃ m ∈ a.aborts, a.owned m = true ∧ m.answered ≤ u.length := by
    refine exists_congr fun m => and_congr_right fun hm => ?_
    rw [howned m hm]
  refine Iff.trans ?_ hsame.symm
  obtain ⟨rfl, he, _⟩ | ⟨v', _, ht⟩ := snoc_eq_append_cons htrace
  · rw [hlook b he.symm, Activation.requested, List.any_eq_true]
    constructor
    · rintro ⟨m, hm, ho⟩
      exact ⟨m, hm, ho, hs.answered_le hm⟩
    · rintro ⟨m, hm, ho, _⟩
      exact ⟨m, hm, ho⟩
  · exact hp u b v' ht

theorem polled_notice {a : Activation} (hp : a.Polled) : a.notice.Polled := by
  intro u b v htrace
  have htrace : a.trace = u ++ ⟨.abortRequested, b⟩ :: v := htrace
  have hlate : ¬ a.now.answered ≤ u.length := by
    have hlen : a.trace.length = u.length + (v.length + 1) := by simp [htrace]
    simp only [Activation.now]
    omega
  have howned : a.notice.owned = a.owned := rfl
  rw [hp u b v htrace, howned]
  constructor
  · rintro ⟨m, hm, ho⟩
    exact ⟨m, List.mem_append_left _ hm, ho⟩
  · rintro ⟨m, hm, ho⟩
    obtain hm | hm := List.mem_append.mp hm
    · exact ⟨m, hm, ho⟩
    · cases List.mem_singleton.mp hm
      exact absurd ho.2 hlate

theorem run_polled {ls : List Label} {i : Nat} {a : Activation}
    (ha : (System.run build ls).activations[i]? = some a) : a.Polled := by
  have keep : ∀ ls l,
      (∀ (i : Nat) (a : Activation), (System.run build ls).activations[i]? = some a → a.Polled) →
      ∀ (i : Nat) (a : Activation),
        ((System.run build ls).step build l).activations[i]? = some a → a.Polled := by
    intro ls l hp i a' ha'
    obtain ⟨b, hb, hev⟩ | ⟨_, r, rfl⟩ := (step_change _ l).origin ha'
    · have hs : b.Sound build := run_sound hb
      cases hev with
      | same => exact hp i _ hb
      | entered ht he hc => exact hp i b hb
      | answered answer ht he hc =>
        refine polled_resume hs (hp i b hb) fun v hv => ?_
        cases hv
        cases hc
      | passed ht he hc =>
        refine polled_resume hs (hp i b hb) fun v hv => ?_
        cases hv
        obtain ⟨l, hl⟩ := run_leased build ls
        obtain ⟨hclaim, _⟩ | ⟨hholds, _⟩ := critical_phase hs ht rfl
        · cases hclaim
        · have hasked := hl.asked i b ((hl.holds_iff hb).mp hholds) hb
          rw [hl.slot] at hc
          simp only [criticalSection, abortRequested_ofLease, Option.some.injEq, Prod.mk.injEq] at hc
          rw [← hc.1, hasked]
      | noticed hr => exact polled_notice (hp i b hb)
    · intro u v w hw
      simp [Activation.start] at hw
  exact @run_induction build (fun s => ∀ (i : Nat) (a : Activation), s.activations[i]? = some a →
    a.Polled) (by simp [System.initial]) keep ls i a ha

end Poll

/-! ## The slot over whole runs -/

section Slot

variable {build : BuildOptions}

/-- What the slot guarantees at one moment. -/
structure SingleSlot (s : System) : Prop where
  exclusive : ∀ (i j : Nat) (a b : Activation), s.activations[i]? = some a →
    s.activations[j]? = some b → a.holds = true → b.holds = true → i = j
  running : s.slot.sRunning = true ↔
    ∃ (i : Nat) (a : Activation), s.activations[i]? = some a ∧ a.holds = true
  request : s.slot.sAbortRequested = true → s.slot.sRunning = true
  claims : ∀ (i : Nat) (a : Activation), s.activations[i]? = some a →
    a.releases ≤ a.claims ∧ a.claims ≤ 1
  returned : ∀ (i : Nat) (a : Activation) (r : EspErr), s.activations[i]? = some a →
    a.result? = some r → a.releases = a.claims
  silent : ∀ (i : Nat) (a : Activation) (config : Option OtaApiConfig),
    s.activations[i]? = some a → a.routine = .otaApiUpdate config → a.claims = 0 →
    delivered a.trace = [] ∧ ∀ cb event ctx, a.next? ≠ some (.eventCb cb event ctx)

/-- What a call that does not get the slot leaves alone. -/
structure RefusalsHarmless (build : BuildOptions) (s : System) : Prop where
  call : ∀ τ config, (s.step build (.otaApiUpdate τ config)).slot = s.slot ∧
    (s.step build (.otaApiStartTask τ config)).slot = s.slot
  ask : ∀ τ, (s.step build (.otaApiIsRunning τ)) = s
  work : ∀ τ i a a' l, s.current? τ = some (i, a) →
    (l = .advance τ ∨ ∃ reply, l = .answer τ reply) →
    (s.step build l).activations[i]? = some a' → a'.claims = 0 → (s.step build l).slot = s.slot
  abort : ∀ τ, (otaApiAbort s.slot).1 ≠ espOk → s.step build (.otaApiAbort τ) = s

theorem slotUse_le (ph : Phase) : ph.slotUse.2 ≤ ph.slotUse.1 ∧ ph.slotUse.1 ≤ 1 := by
  cases ph <;> simp [Phase.slotUse]

theorem claims_outside {a : Activation} (h : ∀ e ∈ a.trace, e.call.critical = false) :
    a.claims = 0 ∧ a.releases = 0 :=
  ⟨List.countP_eq_zero.mpr fun e he => by simp [not_claim (h e he)],
    List.countP_eq_zero.mpr fun e he => by simp [not_release (h e he)]⟩

theorem path_claims {a : Activation} {config : OtaApiConfig} {url : String} {ph : Phase}
    (h : Path (Move build config url) .claiming a.trace ph) :
    a.claims = ph.slotUse.1 ∧ a.releases = ph.slotUse.2 :=
  Prod.ext_iff.mp (path_slotUse h)

/-- Without a configuration or a URL an update returns before it does anything. -/
theorem invalid_stopped {a : Activation} (hs : a.Sound build) {config : Option OtaApiConfig}
    (hr : a.routine = .otaApiUpdate config) (hu : config.bind OtaApiConfig.url = none) :
    a.trace = [] ∧ a.prog = pure espErrInvalidArg := by
  have hp : Routine.program build (.otaApiUpdate config) = pure espErrInvalidArg := by
    cases config with
    | none => rfl
    | some config =>
      have hu : config.url = none := hu
      simp only [Routine.program, otaApiUpdate, hu]
  have hruns := hs.runs
  rw [hr, hp] at hruns
  exact hruns.of_done rfl

/-- An update that has not claimed the slot has told nobody. -/
theorem refused_silent {a : Activation} (hs : a.Sound build) {config : Option OtaApiConfig}
    (hr : a.routine = .otaApiUpdate config) (hc : a.claims = 0) :
    delivered a.trace = [] ∧ ∀ cb event ctx, a.next? ≠ some (.eventCb cb event ctx) := by
  cases hu : config.bind OtaApiConfig.url with
  | none =>
    obtain ⟨htrace, hprog⟩ := invalid_stopped hs hr hu
    rw [htrace, Activation.next?, hprog]
    exact ⟨rfl, fun _ _ _ hn => by cases hn⟩
  | some url =>
    obtain ⟨config, rfl, hurl⟩ := Option.bind_eq_some_iff.mp hu
    obtain ⟨ph, hpath, hprog⟩ := update_path hs ⟨hr, hurl⟩
    have huse := (path_claims hpath).1
    have hnext : a.next? = ph.next? build config := update_next? hprog
    rw [hnext]
    cases ph with
    | claiming =>
      rw [show a.trace = [] from path_facts hpath]
      exact ⟨rfl, fun _ _ _ hn => by cases hn⟩
    | refused err =>
      rw [show a.trace = [⟨.claimUpdateSlot, false⟩] from path_facts hpath]
      exact ⟨rfl, fun _ _ _ hn => by cases hn⟩
    | _ =>
      rw [hc] at huse
      cases huse

theorem run_singleSlot (ls : List Label) : SingleSlot (System.run build ls) := by
  obtain ⟨l, hl⟩ := run_leased build ls
  have hrunning : (System.run build ls).slot.sRunning = true ↔ ∃ i, l.holder = some i := by
    rw [hl.slot, ofLease_sRunning, Lease.held_iff]
  constructor
  case exclusive =>
    intro i j a b ha hb hha hhb
    have hi := (hl.holds_iff ha).mp hha
    rw [(hl.holds_iff hb).mp hhb] at hi
    cases hi
    rfl
  case running =>
    rw [hrunning]
    exact exists_congr fun i => hl.holder i
  case request =>
    rw [hl.slot]
    exact Lease.held_of_asked
  case claims =>
    intro i a ha
    have hs : a.Sound build := run_sound ha
    obtain ⟨config, url, hu⟩ | ⟨hout, _⟩ := updates_or_outside hs
    · obtain ⟨ph, hpath, _⟩ := update_path hs hu
      rw [(path_claims hpath).1, (path_claims hpath).2]
      exact slotUse_le ph
    · have h0 := claims_outside hout
      omega
  case returned =>
    intro i a r ha hr
    have hs : a.Sound build := run_sound ha
    obtain ⟨config, url, hu⟩ | ⟨hout, _⟩ := updates_or_outside hs
    · obtain ⟨ph, hpath, hprog⟩ := update_path hs hu
      rw [(path_claims hpath).1, (path_claims hpath).2]
      obtain rfl | rfl := update_result? hprog hr <;> rfl
    · have h0 := claims_outside hout
      omega
  case silent =>
    intro i a config ha hr hc
    exact refused_silent (run_sound ha) hr hc

theorem claims_pos_of_holds {a : Activation} (h : a.holds = true) : 0 < a.claims := by
  simp only [Activation.holds, holds, Bool.and_eq_true] at h
  obtain ⟨e, he, hc⟩ := List.any_eq_true.mp h.1
  exact List.countP_pos_iff.mpr ⟨e, he, hc⟩

theorem claims_resume (a : Activation) {c : Call} (k : Answer c → Program EspErr)
    (answer : Answer c) :
    (a.resume k answer).claims = a.claims + List.countP isClaim [⟨c, answer⟩] := by
  simp only [Activation.claims, Activation.resume, List.countP_append]

/-- A critical section that leaves its activation without a claim leaves the flags
as they were. -/
theorem passed_unclaimed {a : Activation} (hs : a.Sound build) {c : Call}
    {k : Answer c → Program EspErr} {answer : Answer c} {slot slot' : RunState}
    (ht : a.prog.turn = .call c k) (hc : criticalSection slot c = some (answer, slot'))
    (h0 : (a.resume k answer).claims = 0) : slot' = slot := by
  rw [claims_resume] at h0
  obtain ⟨rfl, _⟩ | ⟨hholds, _⟩ := critical_phase hs ht (critical_of_criticalSection hc)
  · simp only [criticalSection, otaApiClaimUpdateSlot, Option.some.injEq] at hc
    split at hc
    · cases hc
      simp [isClaim] at h0
    · cases hc
      rfl
  · have := claims_pos_of_holds hholds
    omega

theorem Branch.update_slot {s s' : System} {τ : Task} {config : Option OtaApiConfig}
    (h : Branch build s (.otaApiUpdate τ config) s') : s'.slot = s.slot := by
  cases h <;> rfl

theorem Branch.startTask_slot {s s' : System} {τ : Task} {config : Option OtaApiConfig}
    (h : Branch build s (.otaApiStartTask τ config) s') : s'.slot = s.slot := by
  cases h <;> rfl

/-- An abort that is refused does nothing. -/
theorem Branch.abort_refused {s s' : System} {τ : Task} (h : Branch build s (.otaApiAbort τ) s')
    (hrefused : (otaApiAbort s.slot).1 ≠ espOk) : s' = s := by
  cases h with
  | idle => rfl
  | abort hrun hin =>
    cases hr : s.slot.sRunning with
    | true => simp [otaApiAbort, hr] at hrefused
    | false => simp [System.abort, otaApiAbort, hr, espErrInvalidState, espOk]

theorem run_refusalsHarmless (ls : List Label) : RefusalsHarmless build (System.run build ls) := by
  constructor
  case call =>
    intro τ config
    exact ⟨(step_branch _ _).update_slot, (step_branch _ _).startTask_slot⟩
  case ask =>
    intro τ
    simp [System.step]
  case work =>
    intro τ i a a' l hcur hl ha' h0
    cases step_change (System.run build ls) l with
    | opened new hslot hflash hact => exact hslot
    | entered new hrun hcur' ht he hc hslot hflash hact => exact hslot
    | answered new hget ht he hc hslot hflash hact => exact hslot
    | @passed τ' j b c k answer _ hcur' ht he hc hflash hact =>
      have hτ : τ' = τ := by
        obtain h | ⟨reply, h⟩ := hl
        · cases h
          rfl
        · cases h
      subst hτ
      rw [hcur] at hcur'
      cases hcur'
      have hget := current?_get hcur
      obtain ⟨hlt, _⟩ := List.getElem?_eq_some_iff.mp hget
      rw [hact, List.getElem?_set_self hlt] at ha'
      cases ha'
      exact passed_unclaimed (run_sound hget) ht hc h0
    | aborted hr hslot hflash hact =>
      obtain h | ⟨reply, h⟩ := hl <;> cases h
  case abort =>
    intro τ h
    exact (step_branch _ _).abort_refused h

/-- One slot, one update: over every interleaving and every nesting of calls. -/
theorem single_update_slot (build : BuildOptions) (ls : List Label) :
    SingleSlot (System.run build ls) ∧ RefusalsHarmless build (System.run build ls) :=
  ⟨run_singleSlot ls, run_refusalsHarmless ls⟩

end Slot

end OtaApi
