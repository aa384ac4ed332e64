import OtaApi.Activations

/-!
# What comes before a commit

`esp_https_ota_finish()` is the one irreversible transition. It is entered
exactly when everything that could refuse the image has accepted it, and it is
the only step that changes what `otadata` points to.
-/

namespace OtaApi

open Interaction

/-- Everything that could refuse the image has accepted it. -/
structure Cleared (config : OtaApiConfig) (h : HttpsOtaHandle) (t : List Event) : Prop where
  admitted : Admitted config h t
  received : ⟨.httpsOtaPerform h, espOk⟩ ∈ t
  polled : ∀ h' u v, t = u ++ ⟨.httpsOtaPerform h', espErrHttpsOtaInProgress⟩ :: v →
    ∃ w, v = ⟨.abortRequested, false⟩ :: w
  reports : ∀ cb p ctx (verdict : EspErr), ⟨.eventCb cb (.progress p) ctx, verdict⟩ ∈ t →
    verdict = espOk
  final : FinalReport config h t

section Machine

variable {build : BuildOptions} {config : OtaApiConfig} {url : String}

theorem path_cleared {t : List Event} {h : HttpsOtaHandle}
    (hp : Path (Move build config url) .claiming t (.committing h)) : Cleared config h t := by
  obtain ⟨⟨hadmitted, hreceived⟩, hfinal⟩ := path_facts hp
  have hnone := path_faultless hp rfl rfl
  refine ⟨hadmitted, hreceived, fun h' u v ht => ?_, fun cb p ctx verdict hmem => ?_, hfinal⟩
  · subst ht
    obtain ⟨q, q', _, m, hrest⟩ := hp.at_event
    cases m with
    | inProgress =>
      cases hrest with
      | cons m' _ =>
        cases m' with
        | stopped => exact absurd (hnone ⟨.abortRequested, true⟩ (by simp)) (by simp [failure])
        | goingOn _ => exact ⟨_, rfl⟩
        | goingOnUnthrottled _ => exact ⟨_, rfl⟩
    | interrupted hne _ => exact absurd rfl hne
  · have hf := hnone _ hmem
    simp only [failure, terminal_progress, Bool.false_eq_true, if_false] at hf
    exact (failed_eq_none_iff verdict).mp hf

/-- A final report that went well leaves only the commit to be made. -/
theorem cleared_committing {t : List Event} {ph : Phase} {h : HttpsOtaHandle}
    (hp : Path (Move build config url) .claiming t ph) (hf : FinalReport config h t) :
    ph = .committing h ∨ ∃ err, (⟨.httpsOtaFinish h, err⟩ : Event) ∈ t := by
  have committed : ∀ {u : List Event}, Path (Move build config url) (.committing h) u ph →
      ph = .committing h ∨ ∃ err, (⟨.httpsOtaFinish h, err⟩ : Event) ∈ u := by
    intro u hu
    cases hu with
    | nil _ => exact .inl rfl
    | cons m _ =>
      cases m with
      | committed => exact .inr ⟨_, List.mem_cons_self⟩
  obtain ⟨u, n, w, rfl, hw⟩ := hf
  obtain ⟨q, q', _, m, hrest⟩ := hp.at_event
  cases m with
  | complete =>
    cases hrest with
    | cons m' hrest' =>
      cases m' with
      | unmeasuredAll hn =>
        refine (committed hrest').imp_right fun ⟨err, herr⟩ => ⟨err, ?_⟩
        simp [herr]
      | measuredAllSilent hn hc =>
        refine (committed hrest').imp_right fun ⟨err, herr⟩ => ⟨err, ?_⟩
        simp [herr]
      | measuredAll hn hc =>
        obtain ⟨p, w', rfl⟩ := (hw.resolve_left hn) _ hc
        cases hrest' with
        | cons m'' hrest'' =>
          cases m'' with
          | reportedAll =>
            refine (committed hrest'').imp_right fun ⟨err, herr⟩ => ⟨err, ?_⟩
            simp [herr]
          | cancelledAll hv => exact absurd rfl hv

/-- The chunk being received belongs to an image that was let in. -/
theorem performing_admitted {t : List Event} {ph : Phase} {h : HttpsOtaHandle}
    (hp : Path (Move build config url) .claiming t ph)
    (hn : ph.next? build config = some (.httpsOtaPerform h)) : Admitted config h t := by
  obtain ⟨total, last, rfl⟩ := next_perform hn
  exact path_facts hp

/-- An update that is on its way out without an error has committed. -/
def Phase.Success : Phase → List Event → Prop
  | .aborting _ err, _ => err ≠ espOk
  | .releasing err, t => err = espOk → ∃ h, ⟨.httpsOtaFinish h, espOk⟩ ∈ t
  | .announcing _ err, t => err = espOk → ∃ h, ⟨.httpsOtaFinish h, espOk⟩ ∈ t
  | .finished err, t => err = espOk → ∃ h, ⟨.httpsOtaFinish h, espOk⟩ ∈ t
  | .refused err, _ => err ≠ espOk
  | _, _ => True

theorem path_success {t : List Event} {ph : Phase}
    (h : Path (Move build config url) .claiming t ph) : ph.Success t := by
  have keep : ∀ (s : List Event) (p : Phase) (e : Event) (q : Phase),
      Path (Move build config url) .claiming s p → p.Success s → Move build config url p e q →
      q.Success (s ++ [e]) := by
    intro s p e q _ hs m
    have grows : ∀ {err : EspErr}, (err = espOk → ∃ h, (⟨.httpsOtaFinish h, espOk⟩ : Event) ∈ s) →
        err = espOk → ∃ h, ⟨.httpsOtaFinish h, espOk⟩ ∈ s ++ [e] := by
      intro err hgood herr
      obtain ⟨h, hh⟩ := hgood herr
      exact ⟨h, List.mem_append_left _ hh⟩
    cases m with
    | busy => exact (by decide : espErrInvalidState ≠ espOk)
    | untrusted ht => exact fun herr => absurd herr (configureServerTrust_error_ne ht)
    | unreachable he => exact fun herr => absurd herr he
    | committed =>
      intro herr
      subst herr
      exact ⟨_, List.mem_concat_self⟩
    | discarded => exact fun herr => absurd herr hs
    | released _ => exact grows hs
    | releasedSilent _ => exact grows hs
    | announced => exact grows hs
    | unwelcome hv => exact hv
    | unreadable he => exact he
    | vetoed hv => exact hv
    | interrupted _ he => exact he
    | stopped => exact (by decide : espErrNotFinished ≠ espOk)
    | cancelled hv => exact hv
    | truncated => exact (by decide : espErrOtaValidateFailed ≠ espOk)
    | cancelledAll hv => exact hv
    | _ => trivial
  exact Path.invariant keep h trivial

/-- From the release on the result is settled. -/
theorem released_result {t : List Event} {err r : EspErr}
    (h : Path (Move build config url) (.releasing err) t (.finished r)) : r = err := by
  cases h with
  | cons m rest =>
    cases m with
    | releasedSilent _ =>
      cases rest with
      | nil _ => rfl
      | cons m' _ => cases m'
    | released _ =>
      cases rest with
      | cons m' rest' =>
        cases m' with
        | announced =>
          cases rest' with
          | nil _ => rfl
          | cons m'' _ => cases m''

/-- The result is `ESP_OK` exactly when the commit was made. -/
theorem finished_ok_iff {t : List Event} {r : EspErr}
    (hp : Path (Move build config url) .claiming t (.finished r)) :
    (∃ h, ⟨.httpsOtaFinish h, espOk⟩ ∈ t) ↔ r = espOk := by
  constructor
  · rintro ⟨h, hmem⟩
    obtain ⟨u, v, rfl⟩ := List.append_of_mem hmem
    obtain ⟨q, q', _, m, hrest⟩ := hp.at_event
    cases m with
    | committed => exact released_result hrest
  · exact path_success hp

end Machine

section System

variable {build : BuildOptions}

/-- The call of `esp_https_ota_finish()` that returns in a step, and succeeds. -/
def Commits (build : BuildOptions) (s : System) (l : Label) : Prop :=
  ∃ (i : Nat) (a : Activation) (h : HttpsOtaHandle) (k : EspErr → Program EspErr),
    s.activations[i]? = some a ∧ a.prog.turn = .call (.httpsOtaFinish h) k ∧
      (s.step build l).activations[i]? = some (@Activation.resume (.httpsOtaFinish h) a k espOk)

/-- The step enters a call of `esp_https_ota_perform()`. -/
def Writes (s : System) (l : Label) : Prop :=
  ∃ (τ : Task) (i : Nat) (a : Activation) (h : HttpsOtaHandle) (k : EspErr → Program EspErr),
    l = .advance τ ∧ s.restarted = false ∧ s.current? τ = some (i, a) ∧ a.entered = false ∧
      a.prog.turn = .call (.httpsOtaPerform h) k

/-- What a step does to the flash. -/
theorem flash_step (s : System) (l : Label) :
    (s.step build l).flash = s.flash ∨
      (Writes s l ∧ (s.step build l).flash = s.flash.write) ∨
      (Commits build s l ∧ (s.step build l).flash = s.flash.commit) := by
  generalize hs' : s.step build l = s'
  have hc : Change build s l s' := hs' ▸ step_change s l
  cases hc with
  | opened new hslot hflash hact => exact .inl hflash
  | passed hcur ht he hcs hflash hact => exact .inl hflash
  | aborted hr hslot hflash hact => exact .inl hflash
  | @entered τ i a c k _ new hrun hcur ht he hcrit hslot hflash hact =>
    cases c with
    | httpsOtaPerform h => exact .inr (.inl ⟨⟨τ, i, a, h, k, rfl, hrun, hcur, he, ht⟩, hflash⟩)
    | _ => exact .inl hflash
  | @answered l i a c k answer _ new hget ht he hcrit hslot hflash hact =>
    cases c with
    | httpsOtaFinish h =>
      by_cases hok : answer = espOk
      · subst hok
        obtain ⟨hlt, _⟩ := List.getElem?_eq_some_iff.mp hget
        have hnew : s'.activations[i]? = some (@Activation.resume (.httpsOtaFinish h) a k espOk) := by
          rw [hact, List.getElem?_append_left (by simpa using hlt), List.getElem?_set_self hlt]
        refine .inr (.inr ⟨⟨i, a, h, k, hget, ht, ?_⟩, hflash⟩)
        rw [hs']
        exact hnew
      · refine .inl (hflash.trans ?_)
        simp [Flash.answering, hok]
    | _ => exact .inl hflash

theorem writes_step {s : System} {l : Label} (h : Writes s l) :
    (s.step build l).flash = s.flash.write := by
  obtain ⟨τ, i, a, h, k, rfl, hrun, hcur, he, ht⟩ := h
  rw [step_entering hrun hcur ht he rfl]
  rfl

/-- The contract of a commit, for one update of a run. -/
structure CommitGated (config : OtaApiConfig) (a : Activation) : Prop where
  /-- `esp_https_ota_finish()` is entered only when all is clear. -/
  onlyIf : ∀ h, a.next? = some (.httpsOtaFinish h) → Cleared config h a.trace
  /-- And then it is entered next, or has been. -/
  entered : ∀ h, Cleared config h a.trace →
    a.next? = some (.httpsOtaFinish h) ∨ ∃ err, ⟨.httpsOtaFinish h, err⟩ ∈ a.trace
  /-- Nothing is written before the application has let the image in. -/
  written : ∀ h, a.next? = some (.httpsOtaPerform h) → Admitted config h a.trace
  /-- The update has rewritten `otadata` exactly when it returns `ESP_OK`. -/
  result : ∀ r, a.result? = some r → ((∃ h, ⟨.httpsOtaFinish h, espOk⟩ ∈ a.trace) ↔ r = espOk)

/-- Everything above, for any update in any interleaving. -/
theorem commit_gated {ls : List Label} {i : Nat} {a : Activation} {config : OtaApiConfig}
    {url : String} (ha : (System.run build ls).activations[i]? = some a)
    (hu : a.Updates config url) :
    CommitGated config a ∧
      ∀ l, ((System.run build ls).step build l).flash.boot ≠ (System.run build ls).flash.boot →
        Commits build (System.run build ls) l := by
  obtain ⟨ph, hpath, hnext, hresult⟩ := run_update ha hu
  constructor
  · constructor
    case onlyIf =>
      intro h hn
      rw [hnext] at hn
      obtain rfl := next_finish hn
      exact path_cleared hpath
    case entered =>
      intro h hc
      obtain rfl | hdone := cleared_committing hpath hc.final
      · exact .inl hnext
      · exact .inr hdone
    case written =>
      intro h hn
      rw [hnext] at hn
      exact performing_admitted hpath hn
    case result =>
      intro r hr
      obtain rfl | rfl := hresult r hr
      · exact finished_ok_iff hpath
      · have htrace : a.trace = [⟨.claimUpdateSlot, false⟩] := path_facts hpath
        have hne : r ≠ espOk := path_success hpath
        simp [htrace, hne]
  · intro l hb
    obtain hsame | ⟨_, hwrite⟩ | ⟨hcommit, _⟩ :=
      @flash_step build (System.run build ls) l
    · exact absurd (congrArg Flash.boot hsame) hb
    · exact absurd (congrArg Flash.boot hwrite) hb
    · exact hcommit

/-- A whole update that has committed. -/
theorem commit_gated_wholeUpdate :
    ∃ a, (System.run sampleBuild (wholeUpdate (.app 0) sampleConfig)).activations[0]? = some a ∧
      a.result? = some espOk ∧ CommitGated sampleConfig a := by
  have hrun : ((System.run sampleBuild (wholeUpdate (.app 0) sampleConfig)).activations[0]?).map
      (fun a => (a.routine, a.result?)) =
      some (.otaApiUpdate (some sampleConfig), some espOk) := by decide +kernel
  obtain ⟨a, ha, hview⟩ := Option.map_eq_some_iff.mp hrun
  obtain ⟨hroutine, hresult⟩ := Prod.mk.inj hview
  exact ⟨a, ha, hresult, (commit_gated ha ⟨hroutine, rfl⟩).1⟩

/-! ## The boot partition -/

theorem run_take_succ {ls : List Label} {k : Nat} {l : Label} (h : ls[k]? = some l) :
    System.run build (ls.take (k + 1)) = (System.run build (ls.take k)).step build l := by
  rw [List.take_add_one, h]
  exact exec_snoc _ _ _

/-- What `otadata` points to is whole at every moment of an interleaving exactly when
nothing is written once `otadata` has left the running firmware. -/
theorem whole_boot_iff (build : BuildOptions) (ls : List Label) :
    (∀ k, (System.run build (ls.take k)).flash.WholeBoot) ↔
      ∀ k l, ls[k]? = some l → Writes (System.run build (ls.take k)) l →
        (System.run build (ls.take k)).flash.boot = .running := by
  constructor
  · intro hw k l hl hwrites
    have hnext := hw (k + 1)
    rw [run_take_succ hl, writes_step hwrites] at hnext
    exact hnext.resolve_right (by simp [Flash.write])
  · intro h k
    induction k with
    | zero => exact .inl rfl
    | succ k ih =>
      cases hl : ls[k]? with
      | none =>
        rw [List.take_add_one, hl]
        simpa using ih
      | some l =>
        rw [run_take_succ hl]
        obtain hsame | ⟨hwrites, hflash⟩ | ⟨_, hflash⟩ :=
          @flash_step build (System.run build (ls.take k)) l
        · rw [hsame]
          exact ih
        · rw [hflash]
          exact .inl (h k l hl hwrites)
        · rw [hflash]
          exact .inr rfl

/-- A second update, started after one that has succeeded, erases the image that
`otadata` points to. -/
def overwritten : List Label :=
  wholeUpdate (.app 0) sampleConfig ++ admission (.app 0) sampleConfig ++ [.advance (.app 0)]

theorem overwritten_not_whole : ¬ (System.run sampleBuild overwritten).flash.WholeBoot := by
  decide +kernel

end System

end OtaApi
