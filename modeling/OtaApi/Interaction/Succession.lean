import OtaApi.Interaction.Run

/-!
# A successor on trial

One of several candidates holds a place. A successor is made ready beside it, takes the
place on trial at the next restart, and either is confirmed or gives it back. The
machine says in which order this happens; whatever refines it never loses the holder.
-/

namespace Interaction

variable {α : Type u}

/-- The holder, and the successor if there is one. -/
inductive Succession (α : Type u) where
  | settled : α → Succession α
  | staged : α → α → Succession α
  | trial : α → α → Succession α
  deriving DecidableEq, Repr

/-- What can be seen of a succession. -/
inductive Turnover (α : Type u) where
  | stored : α → Turnover α
  | tried : α → Turnover α
  | confirmed : α → Turnover α
  | wentBack : α → Turnover α
  | resumed : α → Turnover α
  deriving DecidableEq, Repr

namespace Succession

/-- The arrows. A restart tries the successor that is ready, gives the place back after a
trial without a verdict, and changes nothing otherwise. -/
inductive Move : Succession α → Turnover α → Succession α → Prop where
  | stored {r n : α} (h : n ≠ r) : Move (.settled r) (.stored n) (.staged r n)
  | tried {r n : α} : Move (.staged r n) (.tried n) (.trial r n)
  | confirmed {r n : α} : Move (.trial r n) (.confirmed n) (.settled n)
  | wentBack {r n : α} : Move (.trial r n) (.wentBack r) (.settled r)
  | resumed {r : α} : Move (.settled r) (.resumed r) (.settled r)

/-- Who has the place for certain. -/
def holder : Succession α → α
  | .settled r => r
  | .staged r _ => r
  | .trial r _ => r

/-- Who is in the place. -/
def occupant : Succession α → α
  | .settled r => r
  | .staged r _ => r
  | .trial _ n => n

/-- What a restart makes of it. -/
def restart : Succession α → Succession α
  | .settled r => .settled r
  | .staged r n => .trial r n
  | .trial r _ => .settled r

end Succession

/-- Who was confirmed last, `r` if nobody was. -/
def lastConfirmed (r : α) (t : List (Turnover α)) : α :=
  t.foldl (fun r e => match e with | .confirmed n => n | _ => r) r

theorem lastConfirmed_snoc (r : α) (t : List (Turnover α)) (e : Turnover α) :
    lastConfirmed r (t ++ [e]) = match e with | .confirmed n => n | _ => lastConfirmed r t := by
  simp only [lastConfirmed, List.foldl_append]
  cases e <;> rfl

namespace Succession

/-- What has just happened to a successor. -/
def Recent (t : List (Turnover α)) : Succession α → Prop
  | .settled _ => True
  | .staged r n => n ≠ r ∧ ∃ w, t = w ++ [.stored n]
  | .trial r n => n ≠ r ∧ ∃ w, t = w ++ [.stored n, .tried n]

theorem path_recent {r : α} {t : List (Turnover α)} {q : Succession α}
    (hp : Path Move (.settled r) t q) : q.Recent t := by
  have keep : ∀ (t : List (Turnover α)) (p : Succession α) (e : Turnover α) (q : Succession α),
      Path Move (.settled r) t p → p.Recent t → Move p e q → q.Recent (t ++ [e]) := by
    intro t p e q _ h m
    cases m with
    | stored hne => exact ⟨hne, t, rfl⟩
    | tried =>
      obtain ⟨hne, w, rfl⟩ := h
      exact ⟨hne, w, by simp⟩
    | confirmed => trivial
    | wentBack => trivial
    | resumed => trivial
  have kept := Path.invariant keep hp
  exact kept trivial

/-- The place belongs to whoever was confirmed last. -/
theorem path_holder {r : α} {t : List (Turnover α)} {q : Succession α}
    (hp : Path Move (.settled r) t q) : q.holder = lastConfirmed r t := by
  have keep : ∀ (t : List (Turnover α)) (p : Succession α) (e : Turnover α) (q : Succession α),
      Path Move (.settled r) t p → p.holder = lastConfirmed r t → Move p e q →
      q.holder = lastConfirmed r (t ++ [e]) := by
    intro t p e q _ h m
    rw [lastConfirmed_snoc]
    cases m <;> first | exact h | rfl
  have kept := Path.invariant keep hp
  exact kept rfl

variable {r n : α} {t u v : List (Turnover α)} {q : Succession α}

/-- Nobody is tried who was not made ready just before. -/
theorem tried_stored (hp : Path Move (.settled r) (u ++ .tried n :: v) q) :
    ∃ w, u = w ++ [.stored n] := by
  obtain ⟨p, _, hu, m, _⟩ := hp.at_event
  cases m
  exact (path_recent hu).2

/-- Nobody is confirmed who was not tried just before. -/
theorem confirmed_tried (hp : Path Move (.settled r) (u ++ .confirmed n :: v) q) :
    ∃ w, u = w ++ [.stored n, .tried n] := by
  obtain ⟨p, _, hu, m, _⟩ := hp.at_event
  cases m
  exact (path_recent hu).2

/-- A trial that fails gives the place back to whoever had it. -/
theorem wentBack_holder {b : α} (hp : Path Move (.settled r) (u ++ .wentBack b :: v) q) :
    b = lastConfirmed r u ∧ ∃ w n, n ≠ b ∧ u = w ++ [.stored n, .tried n] := by
  obtain ⟨p, _, hu, m, _⟩ := hp.at_event
  cases m with
  | @wentBack _ n =>
    obtain ⟨hne, w, hw⟩ := path_recent hu
    exact ⟨path_holder hu, w, n, hne, hw⟩

end Succession

end Interaction
