import Mathlib.Data.List.Forall2
import OtaApi.Abort

/-!
# How an update connects

Two gates stand between a configuration and a connection: the component's own
choice of a trust source, and the one of `esp_https_ota_begin()`. What the first
lets through has exactly one trust source, or is plain HTTP in a build that
allows it, so the second has nothing left to refuse. The interface to bind to is
looked up in between, and only its name is kept.
-/

namespace OtaApi

open Interaction

section Url

/-- The same letters, each in one case or the other. -/
def SameLetters (s t : List Char) : Prop := List.Forall₂ (fun c d => c = d ∨ c = d.toUpper) s t

/-- The URL starts with `http://`, in any letter case. -/
def StartsWithHttp (url : String) : Prop :=
  ∃ scheme rest, url.toList = scheme ++ rest ∧ SameLetters scheme "http://".toList

theorem toLower_eq_iff {c d : Char} (hd : d ∈ "http://".toList) :
    c.toLower = d ↔ c = d ∨ c = d.toUpper := by
  have hd : d = 'h' ∨ d = 't' ∨ d = 'p' ∨ d = ':' ∨ d = '/' := by simpa using hd
  unfold Char.toLower
  by_cases h : c.val ≥ 'A'.val ∧ c.val ≤ 'Z'.val
  · have hlow : 65 ≤ c.toNat := UInt32.le_iff_toNat_le.mp h.1
    have hhigh : c.toNat ≤ 90 := UInt32.le_iff_toNat_le.mp h.2
    rw [dif_pos h, Char.ext_iff, Char.ext_iff, Char.ext_iff]
    simp only [← UInt32.toNat_inj, UInt32.toNat_add]
    have hupper : 'h'.toUpper = 'H' ∧ 't'.toUpper = 'T' ∧ 'p'.toUpper = 'P' ∧ ':'.toUpper = ':' ∧
        '/'.toUpper = '/' := ⟨rfl, rfl, rfl, rfl, rfl⟩
    obtain rfl | rfl | rfl | rfl | rfl := hd <;> simp [hupper] <;> omega
  · rw [dif_neg h]
    constructor
    · intro hc
      exact .inl hc
    · rintro (rfl | rfl)
      · rfl
      · -- a capital letter does not get here
        revert h
        obtain rfl | rfl | rfl | rfl | rfl := hd <;> decide

theorem map_toLower_iff {s t : List Char} (ht : ∀ d ∈ t, d ∈ "http://".toList) :
    s.map Char.toLower = t ↔ SameLetters s t := by
  induction s generalizing t with
  | nil =>
    cases t with
    | nil => exact iff_of_true rfl .nil
    | cons d t => exact iff_of_false (by simp) fun h => by cases h
  | cons c s ih =>
    cases t with
    | nil => exact iff_of_false (by simp) fun h => by cases h
    | cons d t =>
      obtain ⟨hd, ht⟩ := List.forall_mem_cons.mp ht
      rw [List.map_cons, List.cons.injEq, toLower_eq_iff hd, ih ht]
      unfold SameLetters
      rw [List.forall₂_cons]

theorem isPlainHttp_iff (url : String) : isPlainHttp url = true ↔ StartsWithHttp url := by
  rw [isPlainHttp, beq_iff_eq, map_toLower_iff fun d hd => hd]
  constructor
  · intro h
    exact ⟨_, _, (List.take_append_drop 7 url.toList).symm, h⟩
  · rintro ⟨scheme, rest, hurl, h⟩
    have hscheme : scheme.length = 7 := List.Forall₂.length_eq h
    rw [hurl, ← hscheme, List.take_left]
    exact h

end Url

/-! ## The trust in the server -/

section Trust

variable {build : BuildOptions} {config : OtaApiConfig} {url : String}

/-- A trust source can be had: the caller's certificate, or what the build provides. -/
def TrustAvailable (build : BuildOptions) (config : OtaApiConfig) : Prop :=
  config.certPem ≠ none ∨ build.tlsSkipServerCertVerify = true ∨ build.mbedtlsCertificateBundle = true

/-- The configurations that may be connected with. -/
def Connectable (build : BuildOptions) (config : OtaApiConfig) (url : String) : Prop :=
  (StartsWithHttp url → build.httpsOtaAllowHttp = true) ∧
    (¬StartsWithHttp url → TrustAvailable build config)

/-- The gate of `esp_https_ota_begin()`: a build that allows plain HTTP has none;
otherwise a configuration without any trust source is refused. `use_global_ca_store`
is never set by the component. -/
def httpsOtaGate (build : BuildOptions) (http : HttpClientConfig) : Bool :=
  build.httpsOtaAllowHttp || http.certPem.isSome || http.crtBundleAttach.isSome

/-- How the server of an HTTPS URL is authenticated. -/
structure Trusted (build : BuildOptions) (config : OtaApiConfig) (http : HttpClientConfig) :
    Prop where
  exactlyOne : http.certPem ≠ none ↔ http.crtBundleAttach = none
  pinned : config.certPem ≠ none → http.certPem = config.certPem
  skipped : config.certPem = none →
    (http.crtBundleAttach = some .skipServerVerifyAttach ↔ build.tlsSkipServerCertVerify = true)
  bundled : config.certPem = none → build.tlsSkipServerCertVerify = false →
    http.crtBundleAttach = some .espCrtBundleAttach ∧ build.mbedtlsCertificateBundle = true
  commonName : http.skipCertCommonNameCheck = true →
    config.skipCommonNameCheck = true ∨ http.crtBundleAttach = some .skipServerVerifyAttach

/-- What an accepted configuration connects with. -/
structure Authenticated (build : BuildOptions) (config : OtaApiConfig) (url : String)
    (http : HttpClientConfig) : Prop where
  address : http.url = url
  plain : StartsWithHttp url → http.certPem = none ∧ http.crtBundleAttach = none
  trusted : ¬StartsWithHttp url → Trusted build config http
  gate : httpsOtaGate build http = true

theorem Authenticated.bind {http : HttpClientConfig} (h : Authenticated build config url http)
    (name : Option String) : Authenticated build config url { http with ifName := name } where
  address := h.address
  plain := h.plain
  trusted hs :=
    have ht := h.trusted hs
    ⟨ht.exactlyOne, ht.pinned, ht.skipped, ht.bundled, ht.commonName⟩
  gate := h.gate

/-- The source goes through its alternatives in this order. -/
theorem configureServerTrust_spec (build : BuildOptions) (config : OtaApiConfig) (url : String) :
    (∃ http, configureServerTrust build config (baseHttpConfig config url) = .ok http ∧
      Connectable build config url ∧ Authenticated build config url http) ∨
    (configureServerTrust build config (baseHttpConfig config url) = .error espErrInvalidArg ∧
      ¬Connectable build config url) := by
  have hurl : (baseHttpConfig config url).url = url := rfl
  unfold configureServerTrust
  rw [hurl]
  cases hplain : isPlainHttp url with
  | true =>
    have hhttp : StartsWithHttp url := (isPlainHttp_iff url).mp hplain
    cases hallow : build.httpsOtaAllowHttp with
    | true =>
      refine .inl ⟨_, rfl, ⟨fun _ => hallow, fun hs => absurd hhttp hs⟩, rfl, fun _ => ⟨rfl, rfl⟩,
        fun hs => absurd hhttp hs, ?_⟩
      simp [httpsOtaGate, hallow]
    | false =>
      refine .inr ⟨rfl, fun hc => ?_⟩
      rw [hc.1 hhttp] at hallow
      cases hallow
  | false =>
    have hhttps : ¬StartsWithHttp url := by
      rw [← isPlainHttp_iff, hplain]
      decide
    have connectable : TrustAvailable build config → Connectable build config url :=
      fun h => ⟨fun hs => absurd hs hhttps, fun _ => h⟩
    cases hpem : config.certPem with
    | some pem =>
      refine .inl ⟨_, rfl, connectable (.inl (by simp [hpem])), rfl, fun hs => absurd hs hhttps,
        fun _ => ?_, by simp [httpsOtaGate]⟩
      constructor <;> simp_all [baseHttpConfig]
    | none =>
      cases hskip : build.tlsSkipServerCertVerify with
      | true =>
        refine .inl ⟨_, rfl, connectable (.inr (.inl hskip)), rfl, fun hs => absurd hs hhttps,
          fun _ => ?_, by simp [httpsOtaGate]⟩
        constructor <;> simp_all [baseHttpConfig]
      | false =>
        cases hbundle : build.mbedtlsCertificateBundle with
        | true =>
          refine .inl ⟨_, rfl, connectable (.inr (.inr hbundle)), rfl, fun hs => absurd hs hhttps,
            fun _ => ?_, by simp [httpsOtaGate]⟩
          constructor <;> simp_all [baseHttpConfig]
        | false =>
          refine .inr ⟨rfl, fun hc => ?_⟩
          obtain h | h | h := hc.2 hhttps
          · exact h hpem
          · rw [hskip] at h
            cases h
          · rw [hbundle] at h
            cases h

/-- What is left to do when the trust source is settled: look up the interface. -/
theorem buildHttpConfig_eq {http : HttpClientConfig}
    (h : configureServerTrust build config (baseHttpConfig config url) = .ok http) :
    otaApiBuildHttpConfig build config url =
      match config.bindNetif with
      | none => pure (.ok http)
      | some n => Prog.ask (.netifGetNetifImplName n) >>= fun (x : EspErr × String) =>
          pure (.ok { http with ifName := some x.2 }) := by
  rw [otaApiBuildHttpConfig, h]
  rfl

theorem buildHttpConfig_error {err : EspErr}
    (h : configureServerTrust build config (baseHttpConfig config url) = .error err) :
    otaApiBuildHttpConfig build config url = pure (.error err) := by
  rw [otaApiBuildHttpConfig, h]

theorem returns_buildHttpConfig {t : List Event} {r : Except EspErr HttpClientConfig}
    (h : Returns Prog.turn (otaApiBuildHttpConfig build config url) t r) :
    (∃ http, r = .ok http ∧ Connectable build config url ∧ Authenticated build config url http) ∨
      (r = .error espErrInvalidArg ∧ ¬Connectable build config url) := by
  obtain ⟨http, htrust, hc, hauth⟩ | ⟨htrust, hc⟩ := configureServerTrust_spec build config url
  · rw [buildHttpConfig_eq htrust] at h
    cases hn : config.bindNetif with
    | none =>
      rw [hn] at h
      obtain ⟨_, rfl⟩ := Prog.returns_pure.mp h
      exact .inl ⟨http, rfl, hc, hauth⟩
    | some n =>
      rw [hn] at h
      obtain ⟨x, s, _, hrest⟩ := Prog.returns_ask_bind.mp h
      obtain ⟨_, rfl⟩ := Prog.returns_pure.mp hrest
      exact .inl ⟨_, rfl, hc, hauth.bind _⟩
  · rw [buildHttpConfig_error htrust] at h
    obtain ⟨_, rfl⟩ := Prog.returns_pure.mp h
    exact .inr ⟨rfl, hc⟩

/-- The configuration of an update that need not, or does, bind to an interface. -/
theorem buildHttpConfig_unbound {http : HttpClientConfig}
    (h : configureServerTrust build config (baseHttpConfig config url) = .ok http)
    (hn : config.bindNetif = none) :
    Returns Prog.turn (otaApiBuildHttpConfig build config url) [] (.ok http) := by
  rw [buildHttpConfig_eq h, hn]
  exact Prog.returns_pure.mpr ⟨rfl, rfl⟩

theorem buildHttpConfig_bound {http : HttpClientConfig} {n : Netif}
    (h : configureServerTrust build config (baseHttpConfig config url) = .ok http)
    (hn : config.bindNetif = some n) (answer : EspErr × String) :
    Returns Prog.turn (otaApiBuildHttpConfig build config url)
      [⟨.netifGetNetifImplName n, answer⟩] (.ok { http with ifName := some answer.2 }) := by
  rw [buildHttpConfig_eq h, hn]
  exact Prog.returns_ask_bind.mpr ⟨answer, [], rfl, Prog.returns_pure.mpr ⟨rfl, rfl⟩⟩

/-- Whatever the lookup answers, a configuration comes of it or is refused. -/
theorem buildHttpConfig_returns (build : BuildOptions) (config : OtaApiConfig) (url : String)
    (answer : EspErr × String) :
    ∃ t r, Returns Prog.turn (otaApiBuildHttpConfig build config url) t r ∧
      ∀ n (x : EspErr × String), ⟨.netifGetNetifImplName n, x⟩ ∈ t → x = answer := by
  cases htrust : configureServerTrust build config (baseHttpConfig config url) with
  | error err =>
    refine ⟨[], .error err, ?_, by simp⟩
    rw [buildHttpConfig_error htrust]
    exact Prog.returns_pure.mpr ⟨rfl, rfl⟩
  | ok http =>
    cases hn : config.bindNetif with
    | none => exact ⟨[], _, buildHttpConfig_unbound htrust hn, by simp⟩
    | some n =>
      refine ⟨_, _, buildHttpConfig_bound htrust hn answer, fun m x hx => ?_⟩
      cases List.mem_singleton.mp hx
      rfl

end Trust

/-! ## What is connected with -/

section Machine

variable {build : BuildOptions} {config : OtaApiConfig} {url : String}

def Call.isBegin : Call → Bool
  | .httpsOtaBegin _ => true
  | _ => false

/-- An update that connects does so with the configuration that was built, and has
called nothing but its claim and the lookup. -/
theorem path_connecting {t : List Event} {http : HttpClientConfig}
    (hp : Path (Move build config url) .claiming t (.connecting http)) :
    ∃ s, t = ⟨.claimUpdateSlot, true⟩ :: s ∧
      Returns Prog.turn (otaApiBuildHttpConfig build config url) s (.ok http) := by
  obtain ⟨_, hend⟩ | ⟨s, e, q, rfl, hs, m⟩ := hp.last
  · cases hend
  · cases m with
    | unbound htrust hn =>
      have hstart : s = [] := path_facts hs
      exact ⟨[], by rw [hstart]; rfl, buildHttpConfig_unbound htrust hn⟩
    | @named n http err ifrName =>
      obtain ⟨_, hend⟩ | ⟨s, e, q, rfl, hclaim, m⟩ := hs.last
      · cases hend
      · cases m with
        | bound htrust hn =>
          have hstart : s = [] := path_facts hclaim
          exact ⟨_, by rw [hstart]; rfl, buildHttpConfig_bound htrust hn (err, ifrName)⟩

/-- The machine gets to connect with every configuration that may be connected with. -/
theorem connecting_reached (hc : Connectable build config url) :
    ∃ t http, Path (Move build config url) .claiming t (.connecting http) ∧
      (⟨.claimUpdateSlot, false⟩ : Event) ∉ t ∧ (⟨.abortRequested, true⟩ : Event) ∉ t := by
  obtain ⟨http, htrust, _⟩ | ⟨_, hnot⟩ := configureServerTrust_spec build config url
  · cases hn : config.bindNetif with
    | none =>
      refine ⟨[⟨.claimUpdateSlot, true⟩], http, .cons (.unbound htrust hn) (.nil _), ?_⟩
      simp
    | some n =>
      refine ⟨[⟨.claimUpdateSlot, true⟩, ⟨.netifGetNetifImplName n, (espOk, "")⟩], _,
        .cons (.bound htrust hn) (.cons .named (.nil _)), ?_⟩
      simp
  · exact absurd hc hnot

/-- Every connection is made with a configuration that was built for it. -/
theorem begin_built {a : Activation} (hs : a.Sound build) (hu : a.Updates config url)
    {c : HttpsOtaConfig} (hc : .httpsOtaBegin c ∈ a.calls) :
    ∃ s v, a.trace = ⟨.claimUpdateSlot, true⟩ :: s ++ v ∧
      Returns Prog.turn (otaApiBuildHttpConfig build config url) s (.ok c.httpConfig) := by
  obtain ⟨cs, ds, hcalls⟩ := List.append_of_mem hc
  obtain ⟨u, v, ph, htrace, _, hpath, hnext⟩ := calls_phase hs hu hcalls
  obtain ⟨http, rfl, rfl⟩ := next_begin hnext
  obtain ⟨s, rfl, hreturns⟩ := path_connecting hpath
  exact ⟨s, v, htrace, hreturns⟩

theorem begin_authenticated {a : Activation} (hs : a.Sound build) (hu : a.Updates config url)
    {c : HttpsOtaConfig} (hc : .httpsOtaBegin c ∈ a.calls) :
    Connectable build config url ∧ Authenticated build config url c.httpConfig := by
  obtain ⟨s, _, _, hreturns⟩ := begin_built hs hu hc
  obtain ⟨http, heq, hauth⟩ | ⟨herror, _⟩ := returns_buildHttpConfig hreturns
  · cases heq
    exact hauth
  · cases herror

end Machine

section Authentication

/-- How `ota_api_build_http_config()` decides, and what an update makes of it. -/
structure ServerAuthenticated (build : BuildOptions) (config : OtaApiConfig) (url : String) :
    Prop where
  returns : ∀ answer : EspErr × String, ∃ t r,
    Returns Prog.turn (otaApiBuildHttpConfig build config url) t r ∧
      ∀ n (x : EspErr × String), ⟨.netifGetNetifImplName n, x⟩ ∈ t → x = answer
  decided : ∀ t r, Returns Prog.turn (otaApiBuildHttpConfig build config url) t r →
    ((∃ http, r = .ok http) ↔ Connectable build config url)
  refused : ∀ t err, Returns Prog.turn (otaApiBuildHttpConfig build config url) t (.error err) →
    err = espErrInvalidArg
  accepted : ∀ t http, Returns Prog.turn (otaApiBuildHttpConfig build config url) t (.ok http) →
    Authenticated build config url http
  connected : ∀ ls (i : Nat) (a : Activation) (c : HttpsOtaConfig),
    (System.run build ls).activations[i]? = some a → a.Updates config url →
      .httpsOtaBegin c ∈ a.calls → Authenticated build config url c.httpConfig
  unconnected : ¬Connectable build config url → ∀ ls (i : Nat) (a : Activation),
    (System.run build ls).activations[i]? = some a → a.Updates config url →
      (∀ c ∈ a.calls, c.isBegin = false) ∧
        ∀ r, a.result? = some r → 0 < a.claims → r = espErrInvalidArg

theorem server_authenticated (build : BuildOptions) (config : OtaApiConfig) (url : String) :
    ServerAuthenticated build config url := by
  constructor
  case returns => exact buildHttpConfig_returns build config url
  case decided =>
    intro t r h
    obtain ⟨http, rfl, hc, _⟩ | ⟨rfl, hc⟩ := returns_buildHttpConfig h
    · exact iff_of_true ⟨http, rfl⟩ hc
    · exact iff_of_false (by simp) hc
  case refused =>
    intro t err h
    obtain ⟨_, heq, _⟩ | ⟨heq, _⟩ := returns_buildHttpConfig h
    · cases heq
    · cases heq
      rfl
  case accepted =>
    intro t http h
    obtain ⟨http', heq, _, hauth⟩ | ⟨heq, _⟩ := returns_buildHttpConfig h
    · cases heq
      exact hauth
    · cases heq
  case connected =>
    intro ls i a c ha hu hc
    exact (begin_authenticated (run_sound ha) hu hc).2
  case unconnected =>
    intro hnot ls i a ha hu
    constructor
    · intro c hc
      cases c with
      | httpsOtaBegin c =>
        exact absurd (begin_authenticated (run_sound ha) hu hc).1 hnot
      | _ => rfl
    · intro r hr hclaims
      obtain ⟨ph, hpath, _, hresult⟩ := run_update ha hu
      obtain rfl | rfl := hresult r hr
      · have herror : httpConfigError build config url = some espErrInvalidArg := by
          obtain ⟨_, _, hc, _⟩ | ⟨htrust, _⟩ := configureServerTrust_spec build config url
          · exact absurd hc hnot
          · simp [httpConfigError, htrust]
        rw [finished_result hpath, firstFailure, herror]
        rfl
      · rw [(path_claims hpath).1] at hclaims
        cases hclaims

end Authentication

/-! ## The interface -/

section Binding

variable {build : BuildOptions} {config : OtaApiConfig} {url : String}

def lookupAnswer : Event → Option (Netif × EspErr × String)
  | ⟨.netifGetNetifImplName n, answer⟩ => some (n, answer)
  | _ => none

/-- The interfaces that were looked up, and what the lookups answered. -/
def lookups (t : List Event) : List (Netif × EspErr × String) := t.filterMap lookupAnswer

/-- `esp_netif_get_netif_impl_name()` gives the name of the interface, which is not
empty, or fails and leaves the zeroed name as it was. -/
structure LookupsDocumented (implName : Netif → String) (t : List Event) : Prop where
  found : ∀ n name, (n, espOk, name) ∈ lookups t → name = implName n ∧ name ≠ ""
  missed : ∀ n err name, (n, err, name) ∈ lookups t → err ≠ espOk → name = ""

/-- The connection is bound to the interface that was asked for, or not made. -/
structure BindingHonoured (config : OtaApiConfig) (implName : Netif → String) (n : Netif)
    (a : Activation) : Prop where
  bound : ∀ c, .httpsOtaBegin c ∈ a.calls → ∃ name, c.httpConfig.ifName = some name ∧
    name = implName n ∧ name ≠ ""
  refused : (∃ err name, (n, err, name) ∈ lookups a.trace ∧ err ≠ espOk) →
    (∀ c ∈ a.calls, c.isBegin = false ∧ c.isFinish = false) ∧
      ∀ r, a.result? = some r → r ≠ espOk ∧ a.holds = false ∧
        ∀ cb, config.eventCb = some cb → ∃ w, delivered a.trace = w ++ [.failed r]

theorem mem_lookups {t : List Event} {n : Netif} {answer : EspErr × String} :
    (n, answer) ∈ lookups t ↔ ⟨.netifGetNetifImplName n, answer⟩ ∈ t := by
  rw [lookups, List.mem_filterMap]
  constructor
  · rintro ⟨⟨c, x⟩, he, hx⟩
    cases c <;> cases hx
    exact he
  · intro h
    exact ⟨_, h, rfl⟩

/-- The name a configuration binds to is what its one lookup left. -/
theorem returns_bound {n : Netif} (hn : config.bindNetif = some n) {t : List Event}
    {http : HttpClientConfig}
    (h : Returns Prog.turn (otaApiBuildHttpConfig build config url) t (.ok http)) :
    ∃ answer : EspErr × String, t = [⟨.netifGetNetifImplName n, answer⟩] ∧
      http.ifName = some answer.2 := by
  obtain ⟨http', htrust, _⟩ | ⟨htrust, _⟩ := configureServerTrust_spec build config url
  · rw [buildHttpConfig_eq htrust, hn] at h
    obtain ⟨answer, s, rfl, hrest⟩ := Prog.returns_ask_bind.mp h
    obtain ⟨rfl, hhttp⟩ := Prog.returns_pure.mp hrest
    cases hhttp
    exact ⟨answer, rfl, rfl⟩
  · rw [buildHttpConfig_error htrust] at h
    cases (Prog.returns_pure.mp h).2

/-- Whatever the lookup answers, the update goes on to connect. -/
theorem lookup_begins {a : Activation} (hs : a.Sound build) (hu : a.Updates config url)
    {n : Netif} {answer : EspErr × String} (hmem : (n, answer) ∈ lookups a.trace) :
    ∃ c ∈ a.calls, c.isBegin = true := by
  obtain ⟨u, v, htrace⟩ := List.append_of_mem (mem_lookups.mp hmem)
  obtain ⟨ph, hpath, hprog⟩ := update_path hs hu
  have hnext : a.next? = ph.next? build config := update_next? hprog
  rw [htrace] at hpath
  obtain ⟨q, q', _, m, hrest⟩ := hpath.at_event
  cases m with
  | named =>
    cases hrest with
    | nil _ =>
      obtain ⟨c, hc⟩ : ∃ c, a.next? = some (.httpsOtaBegin c) := ⟨_, hnext⟩
      exact ⟨.httpsOtaBegin c, next_mem_calls hc, rfl⟩
    | @cons _ _ _ e v m' _ =>
      have hmade : e ∈ a.trace := by
        rw [htrace]
        simp
      refine ⟨e.call, answered_mem_calls hmade, ?_⟩
      cases m' <;> rfl

theorem binding_honoured_iff {ls : List Label} {i : Nat} {a : Activation} {n : Netif}
    {implName : Netif → String} (ha : (System.run build ls).activations[i]? = some a)
    (hu : a.Updates config url) (hn : config.bindNetif = some n)
    (hdoc : LookupsDocumented implName a.trace) :
    BindingHonoured config implName n a ↔
      ∀ err name, (n, err, name) ∈ lookups a.trace → err = espOk := by
  have hs : a.Sound build := run_sound ha
  constructor
  · intro h err name hmem
    by_contra herr
    obtain ⟨hnone, _⟩ := h.refused ⟨err, name, hmem, herr⟩
    obtain ⟨c, hc, hbegin⟩ := lookup_begins hs hu hmem
    rw [(hnone c hc).1] at hbegin
    cases hbegin
  · intro hok
    constructor
    case bound =>
      intro c hc
      obtain ⟨s, v, htrace, hreturns⟩ := begin_built hs hu hc
      obtain ⟨⟨err, name⟩, rfl, hname⟩ := returns_bound hn hreturns
      have hmem : (n, err, name) ∈ lookups a.trace := by
        rw [mem_lookups, htrace]
        simp
      obtain rfl := hok err name hmem
      exact ⟨name, hname, hdoc.found n name hmem⟩
    case refused =>
      rintro ⟨err, name, hmem, herr⟩
      exact absurd (hok err name hmem) herr

def boundConfig : OtaApiConfig := { sampleConfig with bindNetif := some 3 }

/-- A whole update whose lookup answers this. -/
def boundUpdate (answer : EspErr × String) : List Label :=
  (admission (.app 0) boundConfig).take 2 ++ Label.through (.app 0) (.named answer.1 answer.2) ++
    (admission (.app 0) boundConfig).drop 2 ++ chunk (.app 0) ++ lastChunk (.app 0) ++
    conclusion (.app 0)

/-- `ESP_ERR_ESP_NETIF_INVALID_PARAMS`, for an interface without a network behind it. -/
def espErrEspNetifInvalidParams : EspErr := 0x5001

/-- The interface is not up: the image comes over whichever is, and is committed. -/
theorem binding_lost :
    ∃ a, (System.run sampleBuild (boundUpdate (espErrEspNetifInvalidParams, ""))).activations[0]? =
        some a ∧ a.Updates boundConfig "https://host/app.bin" ∧
      LookupsDocumented (fun _ => "st1") a.trace ∧ a.result? = some espOk ∧
      ¬BindingHonoured boundConfig (fun _ => "st1") 3 a := by
  have hrun : ((System.run sampleBuild
        (boundUpdate (espErrEspNetifInvalidParams, ""))).activations[0]?).map
      (fun a => (a.routine, a.result?, lookups a.trace)) =
      some (.otaApiUpdate (some boundConfig), some espOk, [(3, espErrEspNetifInvalidParams, "")]) := by
    decide +kernel
  obtain ⟨a, ha, hview⟩ := Option.map_eq_some_iff.mp hrun
  simp only [Prod.mk.injEq] at hview
  obtain ⟨hroutine, hresult, hlookups⟩ := hview
  refine ⟨a, ha, ⟨hroutine, rfl⟩, ?_, hresult, fun h => ?_⟩
  · constructor
    · rw [hlookups]
      simp [espErrEspNetifInvalidParams, espOk]
    · rw [hlookups]
      intro n err name hmem _
      cases List.mem_singleton.mp hmem
      rfl
  · have hmem : (3, espErrEspNetifInvalidParams, "") ∈ lookups a.trace := by simp [hlookups]
    obtain ⟨hnone, _⟩ := h.refused ⟨_, _, hmem, by decide⟩
    obtain ⟨c, hc, hbegin⟩ := lookup_begins (run_sound ha) ⟨hroutine, rfl⟩ hmem
    rw [(hnone c hc).1] at hbegin
    cases hbegin

theorem binding_honoured_iff_found :
    ∃ a, (System.run sampleBuild (boundUpdate (espOk, "st1"))).activations[0]? = some a ∧
      a.result? = some espOk ∧ (BindingHonoured boundConfig (fun _ => "st1") 3 a ↔
        ∀ err name, (3, err, name) ∈ lookups a.trace → err = espOk) := by
  have hrun : ((System.run sampleBuild (boundUpdate (espOk, "st1"))).activations[0]?).map
      (fun a => (a.routine, a.result?, lookups a.trace)) =
      some (.otaApiUpdate (some boundConfig), some espOk, [(3, espOk, "st1")]) := by decide +kernel
  obtain ⟨a, ha, hview⟩ := Option.map_eq_some_iff.mp hrun
  simp only [Prod.mk.injEq] at hview
  obtain ⟨hroutine, hresult, hlookups⟩ := hview
  refine ⟨a, ha, hresult, binding_honoured_iff ha ⟨hroutine, rfl⟩ rfl ?_⟩
  constructor
  · rw [hlookups]
    intro n name hmem
    cases List.mem_singleton.mp hmem
    decide
  · rw [hlookups]
    intro n err name hmem herr
    cases List.mem_singleton.mp hmem
    exact absurd rfl herr

end Binding

end OtaApi
