import OtaApi.Rollback

/-!
# What the flash stands for

A device stands for a succession: the partition it can always go back to, and the image
that is ready or on trial beside it. What ESP-IDF and the bootloader are relied on for is
said of one call each. From it every restart is an arrow of the succession, and so is every
call that rewrites `otadata`.
-/

namespace OtaApi.Rollback

open Interaction

variable {P D : Type}

/-! ## What is relied on -/

namespace Platform

variable (E : Platform P D)

/-- `r` is booted, and nothing comes of it. -/
structure Settled (d : D) (r : P) : Prop where
  quiet : E.getStatePartition d r ≠ .ok .pendingVerify
  boots : ∀ whole, whole r = true → E.boot d whole = (r, d)

/-- `n` has been selected in the place of `r`. -/
def Staged (d : D) (r n : P) : Prop :=
  n ≠ r ∧ ∃ d₀, E.Settled d₀ r ∧ d = E.setBootPartition d₀ n

/-- It has been booted since, for the first time. -/
def OnTrial (d : D) (r n : P) : Prop :=
  ∃ d₀ whole, E.Staged d₀ r n ∧ whole r = true ∧ whole n = true ∧ E.boot d₀ whole = (n, d)

/-- What the repository says of the bootloader with
`CONFIG_BOOTLOADER_APP_ROLLBACK_ENABLE`, and of the functions of ESP-IDF. -/
structure Documented : Prop where
  /-- An update is written to another partition than the one that is running. -/
  elsewhere : ∀ p, E.getNextUpdatePartition p ≠ p
  /-- The image that was flashed over USB is booted, and it is not on trial. -/
  erased : E.Settled E.erased E.first
  /-- Selecting an image does not put the one that is running on trial. -/
  untouched : ∀ {d r n}, E.Staged d r n → E.getStatePartition d r ≠ .ok .pendingVerify
  /-- A newly written image is started in `ESP_OTA_IMG_PENDING_VERIFY`. -/
  tried : ∀ {d r n whole}, E.Staged d r n → whole r = true → whole n = true →
    (E.boot d whole).1 = n ∧ E.getStatePartition (E.boot d whole).2 n = .ok .pendingVerify
  /-- The next reset reverts unless it is confirmed. -/
  reverted : ∀ {d r n whole}, E.OnTrial d r n → whole r = true →
    (E.boot d whole).1 = r ∧ E.Settled (E.boot d whole).2 r
  /-- An image that is marked valid is booted from now on. -/
  confirmed : ∀ {d r n}, E.OnTrial d r n → ∃ d', E.markAppValid d n = .ok d' ∧ E.Settled d' n
  /-- In the place of one that is marked invalid the previous image is. -/
  rejected : ∀ {d r n whole}, E.OnTrial d r n → whole r = true →
    ∃ d', E.markAppInvalid d n whole = .ok d' ∧ E.Settled d' r

end Platform

variable {E : Platform P D} {b : Board P D} {d : D} {r n p : P}

/-- The succession a device is in. Whatever may be booted is whole. -/
inductive Stands (E : Platform P D) (b : Board P D) : Succession P → Prop where
  | settled {r : P} (otadata : E.Settled b.otadata r) (running : b.running = r)
    (whole : b.whole r = true) : Stands E b (.settled r)
  | staged {r n : P} (otadata : E.Staged b.otadata r n) (running : b.running = r)
    (whole : b.whole r = true) (ready : b.whole n = true) : Stands E b (.staged r n)
  | trial {r n : P} (otadata : E.OnTrial b.otadata r n) (running : b.running = n)
    (whole : b.whole r = true) (ready : b.whole n = true) : Stands E b (.trial r n)

/-- It can be read off the running image whether it is on trial. -/
theorem onTrial_eq_true : b.onTrial E = true ↔
    E.getStatePartition b.otadata b.running = .ok .pendingVerify := by
  unfold Board.onTrial
  cases E.getStatePartition b.otadata b.running with
  | ok state => simp
  | error err => simp

theorem Platform.Settled.not_onTrial (h : E.Settled b.otadata r) (hrun : b.running = r) :
    b.onTrial E = false := by
  rw [← Bool.not_eq_true, onTrial_eq_true, hrun]
  exact h.quiet

namespace Stands

variable {q : Succession P}

/-- The image that is running is whole. -/
theorem running_whole (h : Stands E b q) : b.running = q.occupant ∧ b.whole b.running = true := by
  cases h with
  | settled _ hrun hwhole => exact ⟨hrun, hrun ▸ hwhole⟩
  | staged _ hrun hwhole _ => exact ⟨hrun, hrun ▸ hwhole⟩
  | trial _ hrun _ hready => exact ⟨hrun, hrun ▸ hready⟩

theorem ne_holder (h : Stands E b (.trial r n)) : r ≠ n := by
  cases h with
  | trial htrial _ _ _ =>
    obtain ⟨_, _, hstaged, _⟩ := htrial
    exact hstaged.1.symm

/-- Only what the flash holds and what is running matters. -/
theorem congr {b' : Board P D} (h : Stands E b q) (hotadata : b'.otadata = b.otadata)
    (hwhole : b'.whole = b.whole) (hrunning : b'.running = b.running) : Stands E b' q := by
  cases h with
  | settled ota run whole =>
    exact .settled (hotadata ▸ ota) (hrunning.trans run) (hwhole ▸ whole)
  | staged ota run whole ready =>
    exact .staged (hotadata ▸ ota) (hrunning.trans run) (hwhole ▸ whole) (hwhole ▸ ready)
  | trial ota run whole ready =>
    exact .trial (hotadata ▸ ota) (hrunning.trans run) (hwhole ▸ whole) (hwhole ▸ ready)

/-! ## From the documents to the succession -/

section Documented

variable (hdoc : E.Documented)
include hdoc

/-- Which of the three a device is in can be read off it. -/
theorem onTrial_iff (h : Stands E b q) : b.onTrial E = true ↔ ∃ r n, q = .trial r n := by
  cases h with
  | settled ota run _ => simp [ota.not_onTrial run]
  | staged ota run _ _ =>
    have hnot := hdoc.untouched ota
    rw [← run] at hnot
    simp [onTrial_eq_true, hnot]
  | trial ota run _ _ =>
    obtain ⟨d, whole, hstaged, hr, hn, hboot⟩ := ota
    have hpending := (hdoc.tried hstaged hr hn).2
    rw [hboot, ← run] at hpending
    simp [onTrial_eq_true, hpending]

/-- A restart ends in one of two ways. -/
theorem restart (h : Stands E b q) : Stands E (b.reset E) q.restart := by
  cases h with
  | settled ota _ whole =>
    have hboot := ota.boots b.whole whole
    refine .settled ?_ ?_ whole
    · simpa [Board.reset, hboot] using ota
    · simp [Board.reset, hboot]
  | staged ota _ whole ready =>
    obtain ⟨hbooted, _⟩ := hdoc.tried ota whole ready
    exact .trial ⟨_, b.whole, ota, whole, ready, Prod.ext hbooted rfl⟩ hbooted whole ready
  | trial ota _ whole _ =>
    obtain ⟨hbooted, hsettled⟩ := hdoc.reverted ota whole
    exact .settled hsettled hbooted whole

/-- A restart is an arrow of the succession. -/
theorem reset (h : Stands E b q) :
    Succession.Move q (restarted E b) q.restart ∧ Stands E (b.reset E) q.restart := by
  have hrestart := h.restart hdoc
  refine ⟨?_, hrestart⟩
  have hbefore := h.onTrial_iff hdoc
  have hafter := hrestart.onTrial_iff hdoc
  have hrun := hrestart.running_whole.1
  cases q with
  | settled r =>
    change (b.reset E).running = r at hrun
    have hshown : restarted E b = .resumed r := by
      simp only [Succession.restart, reduceCtorEq, exists_false, iff_false] at hbefore hafter
      simpa [restarted, hbefore, hafter] using hrun
    rw [hshown]
    exact .resumed
  | staged r n =>
    change (b.reset E).running = n at hrun
    have hshown : restarted E b = .tried n := by
      simpa [restarted, hafter.mpr ⟨r, n, rfl⟩] using hrun
    rw [hshown]
    exact .tried
  | trial r n =>
    change (b.reset E).running = r at hrun
    have hshown : restarted E b = .wentBack r := by
      simp only [Succession.restart, reduceCtorEq, exists_false, iff_false] at hafter
      simpa [restarted, hbefore.mpr ⟨r, n, rfl⟩, hafter] using hrun
    rw [hshown]
    exact .wentBack

/-- A confirmed image stays. -/
theorem confirmed (h : Stands E b (.trial r n)) :
    ∃ d, E.markAppValid b.otadata b.running = .ok d ∧
      Stands E { b with otadata := d } (.settled n) := by
  cases h with
  | trial ota run _ ready =>
    obtain ⟨d, hmark, hsettled⟩ := hdoc.confirmed ota
    exact ⟨d, run ▸ hmark, .settled hsettled run ready⟩

/-- A rejected image gives way to the one before it. -/
theorem rejected (h : Stands E b (.trial r n)) :
    ∃ d, E.markAppInvalid b.otadata b.running b.whole = .ok d ∧
      Stands E ({ b with otadata := d }.reset E) (.settled r) := by
  cases h with
  | trial ota run whole _ =>
    obtain ⟨d, hmark, hsettled⟩ := hdoc.rejected ota whole
    have hboot := hsettled.boots b.whole whole
    refine ⟨d, run ▸ hmark, .settled ?_ ?_ whole⟩
    · simpa [Board.reset, hboot] using hsettled
    · simp [Board.reset, hboot]

end Documented

end Stands

end OtaApi.Rollback
