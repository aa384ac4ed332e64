import OtaApi.EspIdf
import OtaApi.Interaction.Lease

/-!
# The single update slot

`ota-api-state.c`: the two flags behind the spinlock and the functions that
touch them. Every function is one critical section, so each is one step on the
shared state. The flags carry out the operations of a lease, of which they show
everything but the holder's name.
-/

namespace OtaApi

open Interaction

structure RunState where
  sRunning : Bool
  sAbortRequested : Bool
  deriving DecidableEq, Repr

/-- Static storage starts out zeroed. -/
def RunState.initial : RunState := ⟨false, false⟩

def otaApiClaimUpdateSlot (s : RunState) : Bool × RunState :=
  if !s.sRunning then (true, { sRunning := true, sAbortRequested := false })
  else (false, s)

def otaApiReleaseUpdateSlot (s : RunState) : RunState :=
  { s with sRunning := false, sAbortRequested := false }

def otaApiAbortRequested (s : RunState) : Bool := s.sAbortRequested

def otaApiAbort (s : RunState) : EspErr × RunState :=
  if s.sRunning then (espOk, { s with sAbortRequested := true })
  else (espErrInvalidState, s)

def otaApiIsRunning (s : RunState) : Bool := s.sRunning

section Lease

variable {ι : Type}

/-- The flags that stand for a lease. -/
def RunState.ofLease (l : Lease ι) : RunState := ⟨l.held, l.asked⟩

@[simp] theorem ofLease_none : RunState.ofLease (none : Lease ι) = .initial := rfl
@[simp] theorem ofLease_sRunning (l : Lease ι) : (RunState.ofLease l).sRunning = l.held := rfl
@[simp] theorem ofLease_sAbortRequested (l : Lease ι) :
    (RunState.ofLease l).sAbortRequested = l.asked := rfl

theorem claim_ofLease (i : ι) (l : Lease ι) :
    otaApiClaimUpdateSlot (.ofLease l) = ((l.take i).1, .ofLease (l.take i).2) := by
  cases l <;> rfl

theorem release_ofLease (l : Lease ι) :
    otaApiReleaseUpdateSlot (.ofLease l) = .ofLease l.drop := rfl

theorem abortRequested_ofLease (l : Lease ι) : otaApiAbortRequested (.ofLease l) = l.asked := rfl

theorem isRunning_ofLease (l : Lease ι) : otaApiIsRunning (.ofLease l) = l.held := rfl

theorem abort_ofLease (l : Lease ι) :
    otaApiAbort (.ofLease l) =
      (if l.ask.1 then espOk else espErrInvalidState, .ofLease l.ask.2) := by
  cases l <;> rfl

end Lease

end OtaApi
