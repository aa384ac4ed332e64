import OtaApi.RollbackMain

/-!
# A platform that does what is documented

`otadata` as the list of the partitions that were selected, the newest first, each with the
state of its image. The bootloader takes the first that may be booted and is whole, and the
partition that was flashed over USB if there is none.
-/

namespace OtaApi.Rollback

variable {P : Type}

/-! ## The records -/

/-- The partitions for applications: the one that is booted as long as no update has
succeeded, and the one that is written to by an update that runs from another. -/
structure Table (P : Type) where
  first : P
  next : P → P
  next_ne : ∀ p, next p ≠ p

abbrev Otadata (P : Type) := List (P × ImgState)

def bootable : ImgState → Bool
  | .invalid => false
  | .aborted => false
  | _ => true

namespace Otadata

/-- The record that is in force. -/
def active? (d : Otadata P) (whole : P → Bool) : Option (P × ImgState) :=
  d.find? fun e => bootable e.2 && whole e.1

/-- A partition is selected; only the record in force is kept beside the new one. -/
def select (d : Otadata P) (p : P) : Otadata P := (p, .new) :: (d.active? fun _ => true).toList

/-- An image that was booted on trial and not confirmed is given up. -/
def expire (d : Otadata P) : Otadata P :=
  d.map fun e => if e.2 = .pendingVerify then (e.1, .aborted) else e

theorem expire_ne_pending {d : Otadata P} {e : P × ImgState} (h : e ∈ d.expire) :
    e.2 ≠ .pendingVerify := by
  obtain ⟨f, _, rfl⟩ := List.mem_map.mp h
  split
  · simp
  · assumption

variable [DecidableEq P]

def state? (d : Otadata P) (p : P) : Option ImgState := (d.find? fun e => e.1 == p).map Prod.snd

/-- The state of a partition is rewritten. -/
def mark (p : P) (state : ImgState) : Otadata P → Otadata P
  | [] => []
  | e :: d => if e.1 = p then (p, state) :: d else e :: mark p state d

theorem state?_mark {p : P} {old state : ImgState} {d : Otadata P} (h : (p, old) ∈ d) :
    (d.mark p state).state? p = some state := by
  induction d with
  | nil => cases h
  | cons e d ih =>
    by_cases he : e.1 = p
    · simp [mark, state?, he]
    · have hmem : (p, old) ∈ d := (List.mem_cons.mp h).resolve_left fun heq => he (heq ▸ rfl)
      have hrest := ih hmem
      simpa [mark, state?, he] using hrest

end Otadata

variable [DecidableEq P]

namespace Table

variable (T : Table P)

def boot (d : Otadata P) (whole : P → Bool) : P × Otadata P :=
  match d.expire.active? whole with
  | none => (T.first, d.expire)
  | some (p, .new) => (p, d.expire.mark p .pendingVerify)
  | some (p, _) => (p, d.expire)

/-- It takes another whole image to go back to. -/
def markAppInvalid (d : Otadata P) (p : P) (whole : P → Bool) : Except EspErr (Otadata P) :=
  let back := (T.boot (d.mark p .invalid) whole).1
  if (d.state? p).isNone then .error espFail
  else if back = p ∨ whole back = false then .error espErrOtaRollbackFailed
  else .ok (d.mark p .invalid)

def platform : Platform P (Otadata P) where
  first := T.first
  erased := []
  boot := T.boot
  getNextUpdatePartition := T.next
  setBootPartition := Otadata.select
  getStatePartition d p :=
    match d.state? p with
    | some state => .ok state
    | none => .error espErrNotSupported
  markAppValid d p := if (d.state? p).isSome then .ok (d.mark p .valid) else .error espFail
  markAppInvalid := T.markAppInvalid

end Table

/-! ## What they say -/

section Documented

variable {T : Table P} {d k : Otadata P} {r n : P} {whole : P → Bool}

/-- What is kept beside a new record: nothing, or the record of an image that stays. -/
inductive Kept (T : Table P) : P → Otadata P → Prop where
  | first : Kept T T.first []
  | record {r : P} {state : ImgState} (boots : bootable state = true) (new : state ≠ .new)
      (pending : state ≠ .pendingVerify) : Kept T r [(r, state)]

theorem state_eq_pending {p : P} (h : d.state? p = some .pendingVerify) :
    T.platform.getStatePartition d p = .ok .pendingVerify := by
  simp only [Table.platform, h]

theorem state_ne_pending {p : P} (h : d.state? p ≠ some .pendingVerify) :
    T.platform.getStatePartition d p ≠ .ok .pendingVerify := by
  intro heq
  simp only [Table.platform] at heq
  split at heq
  · rename_i hstate
    cases heq
    exact h hstate
  · cases heq

/-- An image that is booted for good is in force, or no image is. -/
theorem settled_kept (h : T.platform.Settled d r) : Kept T r (d.active? fun _ => true).toList := by
  have hboot : T.boot d (fun _ => true) = (r, d) := h.boots _ rfl
  unfold Table.boot at hboot
  cases hactive : d.expire.active? fun _ => true with
  | none =>
    simp only [hactive, Prod.mk.injEq] at hboot
    obtain ⟨rfl, hsame⟩ := hboot
    rw [hsame] at hactive
    rw [hactive]
    exact .first
  | some e =>
    obtain ⟨p, state⟩ := e
    have hmem := List.mem_of_find?_eq_some hactive
    have hboots : bootable state = true := by simpa using List.find?_some hactive
    have hpending := Otadata.expire_ne_pending hmem
    by_cases hnew : state = .new
    · subst hnew
      simp only [hactive, Prod.mk.injEq] at hboot
      obtain ⟨rfl, hsame⟩ := hboot
      have hstate : (d.expire.mark p .pendingVerify).state? p = some .pendingVerify :=
        Otadata.state?_mark hmem
      rw [hsame] at hstate
      exact absurd (state_eq_pending hstate) h.quiet
    · have hrest : p = r ∧ d.expire = d := by
        cases state <;> first | exact absurd rfl hnew | simpa [hactive] using hboot
      obtain ⟨rfl, hsame⟩ := hrest
      rw [hsame] at hactive
      rw [hactive]
      exact .record hboots hnew hpending

namespace Kept

omit [DecidableEq P] in
theorem expire (h : Kept T r k) : Otadata.expire k = k := by
  cases h with
  | first => rfl
  | record _ _ pending => simp [Otadata.expire, pending]

omit [DecidableEq P] in
theorem expire_cons (h : Kept T r k) (n : P) {state : ImgState} (hstate : state ≠ .pendingVerify) :
    Otadata.expire ((n, state) :: k) = (n, state) :: k := by
  change (if state = .pendingVerify then _ else _) :: Otadata.expire k = _
  rw [if_neg hstate, h.expire]

/-- With a record that is not in force it stays. -/
theorem settled (h : Kept T r k) {state : ImgState} (hstate : bootable state = false) (hne : n ≠ r) :
    T.platform.Settled ((n, state) :: k) r := by
  have hpending : state ≠ .pendingVerify := by
    rintro rfl
    cases hstate
  have hexpire := h.expire_cons n hpending
  cases h with
  | first =>
    refine ⟨state_ne_pending (by simp [Otadata.state?, hne]), fun whole _ => ?_⟩
    simp [Table.platform, Table.boot, hexpire, Otadata.active?, hstate]
  | @record r old boots new pending =>
    refine ⟨state_ne_pending (by simp [Otadata.state?, hne, pending]), fun whole hwhole => ?_⟩
    simp only [Table.platform, Table.boot, hexpire, Otadata.active?, List.find?_cons, hstate, boots,
      hwhole, Bool.false_and, Bool.and_self]

/-- With the record of a valid image that image is booted. -/
theorem settled_valid (h : Kept T r k) : T.platform.Settled ((n, .valid) :: k) n := by
  refine ⟨state_ne_pending (by simp [Otadata.state?]), fun whole hwhole => ?_⟩
  have hexpire := h.expire_cons n (show ImgState.valid ≠ .pendingVerify by decide)
  simp [Table.platform, Table.boot, hexpire, Otadata.active?, bootable, hwhole]

/-- A new image is booted on trial. -/
theorem boot_new (h : Kept T r k) (hn : whole n = true) :
    T.boot ((n, .new) :: k) whole = (n, (n, .pendingVerify) :: k) := by
  have hexpire := h.expire_cons n (show ImgState.new ≠ .pendingVerify by decide)
  simp [Table.boot, hexpire, Otadata.active?, bootable, hn, Otadata.mark]

/-- An image that is still on trial is given up. -/
theorem boot_pending (h : Kept T r k) (hne : n ≠ r) (hr : whole r = true) :
    T.boot ((n, .pendingVerify) :: k) whole = (r, (n, .aborted) :: k) := by
  have hsettled : T.boot ((n, .aborted) :: k) whole = (r, (n, .aborted) :: k) :=
    (h.settled rfl hne).boots whole hr
  exact hsettled

end Kept

/-- What a partition that has been selected is recorded beside. -/
theorem staged_kept (h : T.platform.Staged d r n) : n ≠ r ∧ ∃ k, Kept T r k ∧ d = (n, .new) :: k := by
  obtain ⟨hne, d₀, hsettled, rfl⟩ := h
  exact ⟨hne, _, settled_kept hsettled, rfl⟩

theorem onTrial_kept (h : T.platform.OnTrial d r n) :
    n ≠ r ∧ ∃ k, Kept T r k ∧ d = (n, .pendingVerify) :: k := by
  obtain ⟨d₀, whole, hstaged, _, hn, hboot⟩ := h
  obtain ⟨hne, k, hkept, rfl⟩ := staged_kept hstaged
  have hbooted : T.boot ((n, .new) :: k) whole = (n, d) := hboot
  rw [hkept.boot_new hn] at hbooted
  exact ⟨hne, k, hkept, (congrArg Prod.snd hbooted).symm⟩

theorem documented (T : Table P) : T.platform.Documented where
  elsewhere := T.next_ne
  erased := ⟨state_ne_pending (by simp [Table.platform, Otadata.state?]), fun _ _ => rfl⟩
  untouched h := by
    obtain ⟨hne, k, hkept, rfl⟩ := staged_kept h
    refine state_ne_pending ?_
    cases hkept with
    | first => simp [Otadata.state?, hne]
    | record _ _ pending => simp [Otadata.state?, hne, pending]
  tried h _ hn := by
    obtain ⟨_, k, hkept, rfl⟩ := staged_kept h
    have hboot : T.platform.boot _ _ = _ := hkept.boot_new hn
    rw [hboot]
    exact ⟨rfl, state_eq_pending (by simp [Otadata.state?])⟩
  reverted h hr := by
    obtain ⟨hne, k, hkept, rfl⟩ := onTrial_kept h
    have hboot : T.platform.boot _ _ = _ := hkept.boot_pending hne hr
    rw [hboot]
    exact ⟨rfl, hkept.settled rfl hne⟩
  confirmed h := by
    obtain ⟨_, k, hkept, rfl⟩ := onTrial_kept h
    exact ⟨_, by simp [Table.platform, Otadata.state?, Otadata.mark], hkept.settled_valid⟩
  rejected {_ r n whole} h hr := by
    obtain ⟨hne, k, hkept, rfl⟩ := onTrial_kept h
    have hsettled : T.platform.Settled ((n, .invalid) :: k) r := hkept.settled rfl hne
    have hback : T.boot ((n, .invalid) :: k) whole = (r, (n, .invalid) :: k) :=
      hsettled.boots whole hr
    refine ⟨_, ?_, hsettled⟩
    simp [Table.platform, Table.markAppInvalid, Otadata.state?, Otadata.mark, hback, hne.symm, hr]

end Documented

/-! ## The partitions of the example -/

inductive AppPartition where
  | factory | ota0 | ota1
  deriving DecidableEq, Repr

def twoOta : Table AppPartition where
  first := .factory
  next
    | .factory => .ota0
    | .ota0 => .ota1
    | .ota1 => .ota0
  next_ne p := by cases p <;> decide

def sampleOptions : Options where
  build := sampleBuild
  exampleConnectWifi := true
  exampleFirmwareUpgradeUrl := "https://192.168.0.3:8070/hello_world.bin"
  exampleSkipCommonNameCheck := false

/-! ## Replies of a boot that no call fails in -/

/-- Up to `example_connect()`. -/
def bootReplies (connectErr : EspErr) : List Reply :=
  [.err espOk, .err espOk, .err espOk, .err espOk, .err connectErr]

/-- The verdict on an image that is on trial. -/
def verdictReplies (connectErr : EspErr) : List Reply :=
  if connectErr = espOk then [.err espOk, .err espOk] else [.err espOk]

/-- An update that succeeds in two chunks of four bytes. -/
def updateReplies : List Reply :=
  [.none, .handle espOk 1, .appDesc espOk ⟨"app", "2"⟩, .int 8, .err espErrHttpsOtaInProgress,
    .none, .int 4, .err espOk, .flag true, .int 8, .err espOk, .none]

/-- The pause after it, and the restart. -/
def restartReplies : List Reply := [.none, .none]

/-- A boot that goes on to the update, although the state of the image cannot be read. -/
def misreadReplies : List Reply :=
  [.err espOk, .err espFail, .err espOk, .err espOk, .err espOk, .err espOk, .none]

/-- The boot after the image was flashed over USB, up to the end of an update. -/
def firstUpdate : List Label :=
  (bootReplies espOk ++ .err espOk :: updateReplies).map .answer

/-- Up to the verdict on the new image, which has joined the network. -/
def firstTrial : List Label :=
  firstUpdate ++ (restartReplies ++ bootReplies espOk).map .answer

def misreadTrial : List Label :=
  firstUpdate ++ (restartReplies ++ misreadReplies).map .answer

/-- The image is confirmed, and one from a second update cannot join the network. -/
def twoUpdates : List Label :=
  firstTrial ++ (verdictReplies espOk ++ .err espOk :: updateReplies ++
    restartReplies ++ bootReplies espFail ++ verdictReplies espFail).map .answer

end OtaApi.Rollback
