import Sponge.Util.FDWrapper

set_option autoImplicit false

/-! # The event loop

`eventloop.hh` and `eventloop.cc`. The callbacks of the rules act on the state `σ` of the program
that owns the loop, which holds the handles too; `α` is what the kernel answers to the system calls
of one callback. The rules go by names from `ι`, and the loop keeps the names of the rules that have
not been cancelled, in the order in which the rules were added. -/

namespace Sponge

namespace Util

namespace EventLoop

/-- A part of the state does something; when it throws, nothing has changed. -/
def onPart {σ τ β : Type} (part : σ → τ) (setPart : σ → τ → σ)
    (f : τ → Except Exception (β × τ)) : EStateM Exception σ β := do
  let s ← get
  match f (part s) with
  | .error e => throw e
  | .ok (b, t) =>
      set (setPart s t)
      return b

theorem onPart_run {σ τ β : Type} (part : σ → τ) (setPart : σ → τ → σ)
    (f : τ → Except Exception (β × τ)) (s : σ) :
    (onPart part setPart f).run s = match f (part s) with
      | .error e => .error e s
      | .ok (b, t) => .ok b (setPart s t) := by
  unfold onPart
  simp only [EStateM.run_bind, EStateM.run_get]
  cases f (part s) <;> rfl

/-! ## Rules and polls -/

inductive Direction where
  /-- Callback will be triggered when the descriptor is readable. -/
  | In
  /-- Callback will be triggered when the descriptor is writable. -/
  | Out
  deriving DecidableEq, Repr

structure Rule (σ α : Type) where
  fd : σ → FDWrapper
  direction : Direction
  callback : α → EStateM Exception σ Unit
  interest : σ → Bool
  cancel : EStateM Exception σ Unit := pure ()

/-- How often the descriptor has been read or written. -/
def Rule.serviceCount {σ α : Type} (rule : Rule σ α) (s : σ) : UInt32 :=
  match rule.direction with
  | .In => (rule.fd s).readCount
  | .Out => (rule.fd s).writeCount

/-- The bits that `poll` sets for a descriptor. -/
structure Revents where
  pollin : Bool := false
  pollout : Bool := false
  pollerr : Bool := false
  pollhup : Bool := false
  pollnval : Bool := false
  deriving DecidableEq, Repr

def Revents.has (r : Revents) : Direction → Bool
  | .In => r.pollin
  | .Out => r.pollout

/-- What a call of `poll` reports, with the answers of the kernel to the callbacks. -/
inductive Poll (α : Type) where
  | timeout
  | failed (errno : Int)
  | ready (answers : List (Revents × α))

inductive Result where
  | success
  | timeout
  /-- All rules have been cancelled or were uninterested. -/
  | exit
  deriving DecidableEq, Repr

def eintr : Int := 4

def pollError : Exception := .runtimeError "EventLoop: error on polled file descriptor"

def busyWait : Exception := .runtimeError
  "EventLoop: busy wait detected: callback did not read/write fd and is still interested"

section

variable {ι σ α : Type} (table : ι → Rule σ α)

/-- There is nothing more to read, or the descriptor is closed. -/
def finished (i : ι) (s : σ) : Bool :=
  ((table i).direction == .In && ((table i).fd s).eof) || ((table i).fd s).closed

/-- Set up the descriptors to poll: every rule that stays is asked whether it is interested. -/
def setup : List ι → EStateM Exception σ (List (ι × Bool))
  | [] => return []
  | i :: rules => do
      if finished table i (← get) then
        (table i).cancel
        setup rules
      else
        let interested := (table i).interest (← get)
        return (i, interested) :: (← setup rules)

/-- Call a rule back. -/
def serve (i : ι) (a : α) : EStateM Exception σ Unit := do
  let countBefore := (table i).serviceCount (← get)
  (table i).callback a
  if countBefore = (table i).serviceCount (← get) ∧ (table i).interest (← get) then
    throw busyWait

/-- What is done for one rule when `poll` has returned; tells whether the rule stays. -/
def turn (i : ι) (interested : Bool) (revents : Revents) (a : α) : EStateM Exception σ Bool := do
  if revents.pollerr || revents.pollnval then
    throw pollError
  let ready := interested && revents.has (table i).direction
  if revents.pollhup && interested && !ready then
    -- the only condition was a hangup: the descriptor is defunct
    (table i).cancel
    return false
  if ready then
    serve table i a
  return true

/-- Go through the results of `poll`; returns the rules that stay. -/
def service : List (ι × Bool) → List (Revents × α) → EStateM Exception σ (List ι)
  | [], _ => return []
  | polled, [] => return polled.map Prod.fst
  | (i, interested) :: polled, (revents, a) :: answers => do
      let stays ← turn table i interested revents a
      let rules ← service polled answers
      return if stays then i :: rules else rules

/-- One call of `wait_next_event`; also returns the rules that stay. -/
def waitNextEvent (rules : List ι) (poll : Poll α) :
    EStateM Exception σ (Result × List ι) := do
  let polled ← setup table rules
  if polled.all fun p => !p.2 then
    return (.exit, polled.map Prod.fst)
  match poll with
  | .timeout => return (.timeout, polled.map Prod.fst)
  | .failed errno =>
      if errno = eintr then
        return (.exit, polled.map Prod.fst)
      -- any other error is caught and forgotten, and no bit is set
      return (.success, ← service table polled [])
  | .ready answers => return (.success, ← service table polled answers)

end

/-- A loop and the program that owns it; `status` tells whether it is still called. -/
inductive Status where
  | running
  | exited
  | threw (e : Exception)
  deriving DecidableEq, Repr

structure Machine (ι σ : Type) where
  rules : List ι
  state : σ
  status : Status := .running

/-- Call `wait_next_event` once more, unless it has returned `Exit` or thrown. -/
def Machine.step {ι σ α : Type} (table : ι → Rule σ α) (m : Machine ι σ) (poll : Poll α) :
    Machine ι σ :=
  match m.status with
  | .running =>
      match (waitNextEvent table m.rules poll).run m.state with
      | .ok (result, rules) s =>
          { rules, state := s, status := if result = .exit then .exited else .running }
      | .error e s => { m with state := s, status := .threw e }
  | _ => m

end EventLoop

end Util

end Sponge
