import OtaApi.RollbackOtadata

/-!
# What becomes of the images

Over every course of events, the power failing at any moment of it: the device is never
stranded, and the images that were stored, tried, confirmed and given up follow one
another as in a succession. This is so with every platform that does what is documented, as
long as the state of an image on trial can be read.
-/

namespace OtaApi.Rollback

open Interaction

variable {P D : Type} {E : Platform P D} {b b' : Board P D} {q : Succession P}

/-! ## One step -/

section Step

variable (hdoc : E.Documented)
include hdoc

/-- After a restart an image is confirmed or on trial. -/
theorem Stands.awake (h : Stands E b q) : Awake E (b.reset E) := by
  have hreset := h.restart hdoc
  cases q with
  | settled r => exact .inl ⟨r, hreset⟩
  | staged r n => exact .inr ⟨r, n, hreset⟩
  | trial r n => exact .inl ⟨r, hreset⟩

variable [DecidableEq P]

/-- A call that reboots the device is an arrow of the succession. -/
theorem rebooted_moves (h : Stands E b q) {c : MainCall} (hmay : b.May E c) {reply : Reply}
    (hd : b.respond E c reply = some (.rebooted b')) :
    ∃ e q', observeAnswer E b c (some (.rebooted b')) = some e ∧ Succession.Move q e q' ∧
      Stands E b' q' ∧ Awake E b' := by
  obtain ⟨rfl | rfl, rfl⟩ | ⟨rfl, d, hmark, rfl⟩ := respond_rebooted hd
  · exact ⟨_, q.restart, rfl, (h.reset hdoc).1, (h.reset hdoc).2, h.awake hdoc⟩
  · exact ⟨_, q.restart, rfl, (h.reset hdoc).1, (h.reset hdoc).2, h.awake hdoc⟩
  · obtain ⟨r, n, rfl⟩ := (h.onTrial_iff hdoc).mp hmay.1
    obtain ⟨d', hmark', hstands⟩ := h.rejected hdoc
    rw [hmark] at hmark'
    cases hmark'
    refine ⟨_, _, rfl, ?_, hstands, .inl ⟨r, hstands⟩⟩
    rw [hstands.running_whole.1]
    exact .wentBack

/-- A call that returns is an arrow of the succession, or shows nothing. -/
theorem returned_moves (h : Stands E b q) {c : MainCall} (hmay : b.May E c) {reply : Reply}
    {a : MainAnswer c} (hd : b.respond E c reply = some (.returned a b')) :
    (observeAnswer E b c (some (.returned a b')) = none ∧ Stands E b' q) ∨
      ∃ e q', observeAnswer E b c (some (.returned a b')) = some e ∧ Succession.Move q e q' ∧
        Stands E b' q' := by
  have still : idle c = true → observeAnswer E b c (some (.returned a b')) = none →
      (observeAnswer E b c (some (.returned a b')) = none ∧ Stands E b' q) ∨
        ∃ e q', observeAnswer E b c (some (.returned a b')) = some e ∧ Succession.Move q e q' ∧
          Stands E b' q' :=
    fun hidle hshown => .inl ⟨hshown, h.same (idle_does hidle hd)⟩
  cases c with
  | exampleConnect =>
    obtain ⟨_, _, heq⟩ := Option.map_eq_some_iff.mp hd
    cases heq
    exact .inl ⟨rfl, h.congr rfl rfl rfl⟩
  | ota c =>
    cases c with
    | httpsOtaBegin config =>
      obtain ⟨_, hcs, _⟩ | ⟨_, _, rfl⟩ := respond_ota hd
      · cases hcs
      · exact .inl ⟨rfl, h⟩
    | httpsOtaPerform handle =>
      obtain ⟨r, rfl⟩ := (h.confirmed_iff hdoc).mp hmay.1
      obtain ⟨_, hcs, _⟩ | ⟨_, _, rfl⟩ := respond_ota hd
      · cases hcs
      · exact .inl ⟨rfl, h.written hdoc false⟩
    | httpsOtaFinish handle =>
      obtain ⟨r, rfl⟩ := (h.confirmed_iff hdoc).mp hmay.1
      obtain ⟨_, hcs, _⟩ | ⟨_, _, rfl⟩ := respond_ota hd
      · cases hcs
      · by_cases hok : a = espOk
        · subst hok
          exact .inr ⟨_, _, rfl, .stored (h.spare_ne hdoc), h.stored hdoc handle⟩
        · refine .inl ⟨by simp [observeAnswer, hok], ?_⟩
          simpa [Board.answering, hok] using h
    | restart => exact Empty.elim a
    | _ => exact still rfl rfl
  | trial c =>
    cases c with
    | otaMarkAppValidCancelRollback =>
      obtain ⟨r, n, rfl⟩ := (h.onTrial_iff hdoc).mp hmay.1
      have hrun : b.running = n := h.running_whole.1
      obtain ⟨d, hmark, hstands⟩ := h.confirmed hdoc
      obtain ⟨hfailed, rfl⟩ | ⟨rfl, rfl⟩ := respond_markAppValid hmark hd
      · exact .inl ⟨by simp [observeAnswer, hfailed], h⟩
      · exact .inr ⟨_, _, rfl, hrun ▸ .confirmed, hstands⟩
    | otaMarkAppInvalidRollbackAndReboot =>
      obtain rfl := respond_markAppInvalid hd
      exact .inl ⟨rfl, h⟩
    | _ => exact still rfl rfl
  | abort => exact Empty.elim a
  | _ => exact still rfl rfl

end Step

/-! ## Every run -/

section Run

variable [DecidableEq P] {o : Options}

/-- The device stands for the succession, and what is left of `app_main()` is safe. -/
structure Refined (E : Platform P D) (q : Succession P) (s : State P D) : Prop where
  stands : Stands E s.board q
  safe : (contract E).Safe (fun _ _ => True) s.board s.prog

theorem step_refined (hdoc : E.Documented) (t : List (Turnover P)) {q : Succession P} {s : State P D}
    (l : Label) (hread : s.readsTruly E l = true) (h : Refined E q s) :
    Matched Succession.Move (fun _ => Refined E) t q (s.step E o l) (observe E s l) := by
  cases l with
  | reset =>
    obtain ⟨hmove, hstands⟩ := h.stands.reset hdoc
    exact .moves hmove ⟨hstands, appMain_triple hdoc o _ (h.stands.awake hdoc)⟩
  | answer reply =>
    cases ht : s.prog.turn with
    | done never => exact nomatch never
    | call c k =>
      obtain ⟨hmay, hdoes⟩ := h.safe.call ht
      cases hd : s.board.respond E c reply with
      | none =>
        have hstep : s.step E o (.answer reply) = s := by simp [State.step, ht, hd]
        have hshown : observe E s (.answer reply) = none := by simp [observe, ht, hd, observeAnswer]
        rw [hstep, hshown]
        exact .stays h
      | some response =>
        cases response with
        | returned a b' =>
          have hstep : s.step E o (.answer reply) = ⟨b', k a⟩ := by simp [State.step, ht, hd]
          have htruly : s.board.readsTruly E c reply = true := by
            simpa [State.readsTruly, ht] using hread
          have hsafe := hdoes a b' ⟨reply, htruly, hd⟩
          have hmoves := returned_moves hdoc h.stands hmay hd
          have hobserve : observe E s (.answer reply) =
              observeAnswer E s.board c (some (.returned a b')) := by simp [observe, ht, hd]
          rw [hstep, hobserve]
          obtain ⟨hshown, hstands⟩ | ⟨e, q', hshown, hmove, hstands⟩ := hmoves
          · rw [hshown]
            exact .stays ⟨hstands, hsafe⟩
          · rw [hshown]
            exact .moves hmove ⟨hstands, hsafe⟩
        | rebooted b' =>
          have hstep : s.step E o (.answer reply) = ⟨b', appMain o⟩ := by simp [State.step, ht, hd]
          have hobserve : observe E s (.answer reply) =
              observeAnswer E s.board c (some (.rebooted b')) := by simp [observe, ht, hd]
          obtain ⟨e, q', hshown, hmove, hstands, hawake⟩ := rebooted_moves hdoc h.stands hmay hd
          rw [hstep, hobserve, hshown]
          exact .moves hmove ⟨hstands, appMain_triple hdoc o b' hawake⟩

theorem stands_initial (hdoc : E.Documented) : Stands E (.initial E) (.settled E.first) :=
  .settled hdoc.erased rfl (by simp [Board.initial])

/-- Every run refines the succession. -/
theorem run_refines (hdoc : E.Documented) {ls : List Label} (hreads : Readable E o ls) :
    ∃ q, Path Succession.Move (.settled E.first) (events E o ls) q ∧ Refined E q (run E o ls) :=
  exec_refines_throughout (fun t _ _ l hread h => step_refined hdoc t l hread h)
    ⟨stands_initial hdoc, appMain_triple hdoc o _ (.inl ⟨_, stands_initial hdoc⟩)⟩ hreads

end Run

/-! ## The device is never stranded -/

section Promises

variable [DecidableEq P]

/-- What can be relied on whatever happens next. -/
structure NeverStranded (E : Platform P D) (b : Board P D) : Prop where
  /-- The running image is whole, and so is the one that a failure of the power would boot. -/
  running : b.whole b.running = true
  booted : (b.reset E).whole (b.reset E).running = true
  /-- A failure of the power during a trial boots another image, and that one is confirmed. -/
  back : b.onTrial E = true → (b.reset E).running ≠ b.running ∧ (b.reset E).confirmed E
  /-- Without a trial the running image is booted again, unless a new one is, on trial. -/
  again : b.onTrial E = false → (b.reset E).confirmed E ∧ (b.reset E).running = b.running ∨
    (b.reset E).onTrial E = true ∧ (b.reset E).running ≠ b.running

/-- What the application calls for next is in its place. -/
structure InPlace (E : Platform P D) (s : State P D) : Prop where
  next : ∀ c, s.prog.turn.next? = some c → s.board.May E c

/-- An image on trial whose state cannot be read goes on to the next update unjudged. -/
theorem misread_unjudged :
    (run twoOta.platform sampleOptions misreadTrial).board.onTrial twoOta.platform = true ∧
      ∃ config, (run twoOta.platform sampleOptions misreadTrial).prog.turn.next? =
        some (.ota (.httpsOtaBegin config)) :=
  ⟨by decide +kernel, _, rfl⟩

/-- How the images follow one another. -/
structure Succeeds (E : Platform P D) (o : Options) (ls : List Label) : Prop where
  turns : ∃ q, Path Succession.Move (.settled E.first) (events E o ls) q ∧
    (run E o ls).board.running = q.occupant
  /-- No image is booted on trial that was not stored just before, whatever became of it
  earlier. -/
  tried : ∀ u n v, events E o ls = u ++ .tried n :: v → ∃ w, u = w ++ [.stored n]
  /-- No image is confirmed without a trial. -/
  confirmed : ∀ u n v, events E o ls = u ++ .confirmed n :: v → ∃ w, u = w ++ [.stored n, .tried n]
  /-- A trial that fails ends in the image that was confirmed last. -/
  wentBack : ∀ u r v, events E o ls = u ++ .wentBack r :: v →
    r = lastConfirmed E.first u ∧ ∃ w n, n ≠ r ∧ u = w ++ [.stored n, .tried n]

end Promises

end OtaApi.Rollback
