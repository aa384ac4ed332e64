import OtaApi.RollbackOutcome

/-!
# The verdict on a new image

When no call fails by itself, the boot into a new image decides about it: the image is
kept if it joins the network, and the one before it comes back if it does not.
-/

namespace OtaApi.Rollback

open Interaction

variable {P D : Type} [DecidableEq P] {E : Platform P D} {o : Options} {b b' : Board P D} {α : Type}

/-- What a call does that returns. -/
def Board.returns (E : Platform P D) (b : Board P D) (c : MainCall) (reply : Reply) :
    Option (MainAnswer c × Board P D) :=
  match b.respond E c reply with
  | some (.returned a b') => some (a, b')
  | _ => none

/-- What follows on a list of replies is what the device comes to. -/
theorem exec_follow {p : MainProgram α} {f : α → MainProgram Empty} {a : α} {replies : List Reply}
    (h : p.follow (Board.returns E) replies b = some (b', a)) :
    exec (State.step E o) ⟨b, p >>= f⟩ (replies.map .answer) = ⟨b', f a⟩ := by
  induction replies generalizing b p with
  | nil =>
    cases p with
    | ret r =>
      cases h
      rfl
    | call c k => cases h
    | loop c s body k => cases h
  | cons reply replies ih =>
    cases ht : p.turn with
    | done r => simp [Prog.follow, ht] at h
    | call c k =>
      simp only [Prog.follow, ht] at h
      obtain ⟨⟨a', b''⟩, hreply, hrest⟩ := Option.bind_eq_some_iff.mp h
      have hturn : (p >>= f).turn = .call c fun a => k a >>= f := by rw [Prog.turn_bind, ht]
      have hd : b.respond E c reply = some (.returned a' b'') := by
        unfold Board.returns at hreply
        split at hreply
        · rename_i hd
          cases hreply
          exact hd
        · cases hreply
      have hstep : State.step E o ⟨b, p >>= f⟩ (.answer reply) = ⟨b'', k a' >>= f⟩ := by
        simp [State.step, hturn, hd]
      rw [List.map_cons, exec_cons, hstep]
      exact ih hrest

/-- `app_main()` up to `example_connect()`, and the rest of it. -/
def untilConnected : MainProgram (Bool × EspErr) := do
  initializeNvs
  let pendingVerify ← otaApiIsOnTrial.embed trialCalls
  espErrorCheck (← mainAsk .netifInit)
  espErrorCheck (← mainAsk .eventLoopCreateDefault)
  let connectErr ← mainAsk .exampleConnect
  pure (pendingVerify, connectErr)

def afterConnected (o : Options) (r : Bool × EspErr) : MainProgram Empty := do
  judgeTrial r.1 r.2
  espErrorCheck r.2
  setPowerSave o
  updateAndRestart o

theorem appMain_eq (o : Options) : appMain o = untilConnected >>= afterConnected o := by
  simp only [appMain, untilConnected, afterConnected, bind_assoc, pure_bind]

/-- The state of an image on trial is read as it is. -/
theorem returns_onTrial (h : b.onTrial E = true) :
    b.returns E (.trial .otaGetStatePartition) (.err espOk) = some ((espOk, .pendingVerify), b) := by
  rw [onTrial_eq_true] at h
  simp [Board.returns, Board.respond, Board.respondTrial, errorIn, h]

theorem untilConnected_follow (connectErr : EspErr) (h : b.onTrial E = true) :
    untilConnected.follow (Board.returns E) (bootReplies connectErr) b =
      some (b.connected connectErr, true, connectErr) := by
  refine (Prog.follow_call rfl rfl).trans ?_
  -- the state of the image is the only reply that depends on the device
  refine (Prog.follow_call rfl (returns_onTrial h)).trans ?_
  refine (Prog.follow_call rfl rfl).trans ?_
  refine (Prog.follow_call rfl rfl).trans ?_
  exact (Prog.follow_call rfl rfl).trans rfl

/-- What is left of the device by a boot that no call has failed in. -/
structure Decided (E : Platform P D) (connectErr : EspErr) (b b' : Board P D) : Prop where
  confirmed : b'.confirmed E
  kept : connectErr = espOk → b'.running = (b.reset E).running
  wentBack : connectErr ≠ espOk → b'.running = b.running

section Documented

variable (hdoc : E.Documented)
include hdoc

/-- The verdict on an image that has joined the network. -/
theorem verdict_kept {r n : P} (h : Stands E b (.trial r n)) :
    Stands E (exec (State.step E o) ⟨b, afterConnected o (true, espOk)⟩
      ((verdictReplies espOk).map .answer)).board (.settled n) := by
  obtain ⟨d, hmark, hstands⟩ := h.confirmed hdoc
  have htrial := (h.onTrial_iff hdoc).mpr ⟨r, n, rfl⟩
  have hvalid : b.returns E (.trial .otaMarkAppValidCancelRollback) (.err espOk) =
      some (espOk, { b with otadata := d }) := by
    simp [Board.returns, Board.respond, Board.respondTrial, errorIn, hmark]
  have hconfirm : ((otaApiTrialConfirm none).embed trialCalls).follow (Board.returns E)
      (verdictReplies espOk) b = some ({ b with otadata := d }, espOk) := by
    refine (Prog.follow_call rfl (returns_onTrial htrial)).trans ?_
    exact (Prog.follow_call rfl hvalid).trans rfl
  have hrest : afterConnected o (true, espOk) =
      (otaApiTrialConfirm none).embed trialCalls >>= fun err =>
        espErrorCheck err >>= fun _ => espErrorCheck espOk >>= fun _ => setPowerSave o >>= fun _ =>
          updateAndRestart o := by
    simp only [afterConnected, judgeTrial, runDiagnostic, beq_self_eq_true, if_true, bind_assoc]
  rw [hrest, exec_follow hconfirm]
  exact hstands

/-- The verdict on one that has not. -/
theorem verdict_wentBack {r n : P} (h : Stands E b (.trial r n)) {connectErr : EspErr}
    (hne : connectErr ≠ espOk) :
    Stands E (exec (State.step E o) ⟨b, afterConnected o (true, connectErr)⟩
      ((verdictReplies connectErr).map .answer)).board (.settled r) := by
  obtain ⟨d, hmark, hstands⟩ := h.rejected hdoc
  have hrest : (afterConnected o (true, connectErr)).turn =
      .call (.trial .otaMarkAppInvalidRollbackAndReboot) fun (_ : EspErr) =>
        espErrorCheck connectErr >>= fun _ => setPowerSave o >>= fun _ => updateAndRestart o := by
    simp only [afterConnected, judgeTrial, runDiagnostic, beq_eq_false_iff_ne.mpr hne, if_true,
      Bool.false_eq_true, if_false]
    rfl
  have hd : b.respond E (.trial .otaMarkAppInvalidRollbackAndReboot) (.err espOk) =
      some (.rebooted ({ b with otadata := d }.reset E)) := by
    simp [Board.respond, Board.respondTrial, errorIn, hmark]
  have hreplies : verdictReplies connectErr = [.err espOk] := if_neg hne
  simp only [hreplies, List.map_cons, List.map_nil, exec_cons, exec_nil, State.step, hrest, hd]
  exact hstands

end Documented

end OtaApi.Rollback
