import Mathlib.Data.List.Chain

/-!
# Throttles

Offers come one after the other, each at its time. `greedy` lets one through when
it is ready and the gap since the last one it let through is over. `eager` starts
its gap anew as soon as one is over, whether or not it has anything to let through.
They are the same throttle only as long as what comes due is never wasted.
-/

namespace Interaction

variable {τ : Type u} {gap : Int} {time : τ → Int} {ready sent : τ → Bool}

/-- Whether an offer is let through, and the time of the last one that was. -/
def greedy (gap : Int) (time : τ → Int) (ready : τ → Bool) (last : Int) (t : τ) : Bool × Int :=
  if gap ≤ time t - last ∧ ready t then (true, time t) else (false, last)

def eager (gap : Int) (time : τ → Int) (sent : τ → Bool) (last : Int) (t : τ) : Bool × Int :=
  if gap ≤ time t - last then (sent t, time t) else (false, last)

/-- What a throttle does with each offer of a list. -/
def passes (step : Int → τ → Bool × Int) : Int → List τ → List (Bool × Int)
  | _, [] => []
  | last, t :: ts => step last t :: passes step (step last t).2 ts

/-- What it remembers afterwards. -/
def stamp (step : Int → τ → Bool × Int) (last : Int) (ts : List τ) : Int :=
  ts.foldl (fun s t => (step s t).2) last

/-- The times of the offers that are let through. -/
def admitted (time : τ → Int) : List τ → List Bool → List Int
  | t :: ts, b :: bs => if b then time t :: admitted time ts bs else admitted time ts bs
  | _, _ => []

variable {step : Int → τ → Bool × Int} {last : Int} {t : τ} {ts : List τ}

@[simp] theorem passes_nil : passes step last [] = [] := rfl
@[simp] theorem passes_cons :
    passes step last (t :: ts) = step last t :: passes step (step last t).2 ts := rfl
@[simp] theorem stamp_nil : stamp step last [] = last := rfl
@[simp] theorem stamp_cons : stamp step last (t :: ts) = stamp step (step last t).2 ts := rfl

theorem greedy_early (h : ¬ gap ≤ time t - last) : greedy gap time ready last t = (false, last) :=
  if_neg fun hdue => h hdue.1

theorem eager_early (h : ¬ gap ≤ time t - last) : eager gap time sent last t = (false, last) :=
  if_neg h

theorem eager_due (h : gap ≤ time t - last) : eager gap time sent last t = (sent t, time t) :=
  if_pos h

/-- A due offer is treated alike when there is something to let through, and only then. -/
theorem eager_eq_greedy_due (hgap : 0 < gap) (h : gap ≤ time t - last) :
    eager gap time sent last t = greedy gap time ready last t ↔ sent t = true ∧ ready t = true := by
  rw [eager_due h]
  by_cases hready : ready t = true
  · simp [greedy, h, hready]
  · have hmoved : time t ≠ last := by omega
    simp [greedy, hready, hmoved]

/-- Every offer that comes due satisfies `P`. -/
def WhenDue (gap : Int) (time : τ → Int) (ready : τ → Bool) (P : τ → Prop) (last : Int)
    (ts : List τ) : Prop :=
  ∀ pre t post, ts = pre ++ t :: post →
    gap ≤ time t - stamp (greedy gap time ready) last pre → P t

variable {P : τ → Prop}

theorem whenDue_nil : WhenDue gap time ready P last [] := by
  intro pre t post h
  simp at h

theorem whenDue_cons : WhenDue gap time ready P last (t :: ts) ↔
    (gap ≤ time t - last → P t) ∧
      WhenDue gap time ready P (greedy gap time ready last t).2 ts := by
  constructor
  · intro h
    exact ⟨h [] t ts rfl, fun pre t' post hts => h (t :: pre) t' post (by rw [hts]; rfl)⟩
  · rintro ⟨hhead, htail⟩ pre t' post hts
    cases pre with
    | nil =>
      obtain ⟨rfl, rfl⟩ := List.cons.inj hts
      exact hhead
    | cons s pre =>
      obtain ⟨rfl, hrest⟩ := List.cons.inj hts
      exact htail pre t' post hrest

instance decidableWhenDue [DecidablePred P] :
    (last : Int) → (ts : List τ) → Decidable (WhenDue gap time ready P last ts)
  | _, [] => isTrue whenDue_nil
  | last, t :: ts =>
    haveI := decidableWhenDue (greedy gap time ready last t).2 ts
    decidable_of_iff _ whenDue_cons.symm

/-- The two throttles agree on a list exactly when nothing that comes due is wasted. -/
theorem eager_eq_greedy_iff (hgap : 0 < gap) :
    passes (eager gap time sent) last ts = passes (greedy gap time ready) last ts ↔
      WhenDue gap time ready (fun t => sent t = true ∧ ready t = true) last ts := by
  induction ts generalizing last with
  | nil => simp [whenDue_nil]
  | cons t ts ih =>
    rw [whenDue_cons, passes_cons, passes_cons, List.cons.injEq]
    by_cases hdue : gap ≤ time t - last
    · rw [eager_eq_greedy_due hgap hdue]
      constructor
      · rintro ⟨hserved, htail⟩
        rw [(eager_eq_greedy_due hgap hdue).mpr hserved] at htail
        exact ⟨fun _ => hserved, ih.mp htail⟩
      · rintro ⟨hserved, htail⟩
        have hserved := hserved hdue
        rw [(eager_eq_greedy_due hgap hdue).mpr hserved]
        exact ⟨hserved, ih.mpr htail⟩
    · rw [eager_early hdue, greedy_early hdue]
      constructor
      · rintro ⟨_, htail⟩
        exact ⟨fun h => absurd h hdue, ih.mp htail⟩
      · rintro ⟨_, htail⟩
        exact ⟨rfl, ih.mpr htail⟩

/-- A gap that starts later ends later. -/
theorem admitted_head {bs : List Bool} {b : Int} (hb : last ≤ b)
    (h : (b :: admitted time ts bs).IsChain fun x y => gap ≤ y - x) :
    (last :: admitted time ts bs).IsChain fun x y => gap ≤ y - x := by
  cases hlist : admitted time ts bs with
  | nil => exact .singleton last
  | cons x xs =>
    rw [hlist] at h
    obtain ⟨hx, hxs⟩ := List.isChain_cons_cons.mp h
    apply List.isChain_cons_cons.mpr
    exact ⟨by omega, hxs⟩

/-- What is let through is spaced by the gap, the first one from where it started. -/
theorem eager_spaced (hgap : 0 < gap) :
    (last :: admitted time ts ((passes (eager gap time sent) last ts).map Prod.fst)).IsChain
      fun x y => gap ≤ y - x := by
  induction ts generalizing last with
  | nil => exact .singleton last
  | cons t ts ih =>
    rw [passes_cons, List.map_cons]
    by_cases hdue : gap ≤ time t - last
    · rw [eager_due hdue]
      have hrest := @ih (time t)
      cases hs : sent t with
      | true =>
        rw [admitted, if_pos rfl]
        exact List.isChain_cons_cons.mpr ⟨hdue, hrest⟩
      | false =>
        rw [admitted, if_neg Bool.false_ne_true]
        exact admitted_head (by omega) hrest
    · rw [eager_early hdue, admitted, if_neg Bool.false_ne_true]
      exact ih

end Interaction
