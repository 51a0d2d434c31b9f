import CrossHostOps.ConnectionPool
import CrossHostOps.Notifications

/-!
The calls that wait for a connection in `ManagedPool` of `daemon/connection_manager.rs`. This is one
key of the pool, with the `Notify` of its entry: a call that finds neither an idle connection nor a
permit waits there, and whoever gives up a connection notifies. A section under the mutex, an
operation of a semaphore and one of a `Notify` outside of the sections is one step.
-/

namespace CrossHostOps.PoolWaiters

open Runs Notifications
open ConnectionPool (Slot PoolEntry PoolLease Move Event ManagedPool)

variable {T : Type*}

/-- What the calls of a key share. A `PoolState` is known by the number of its semaphore, and so is
its `Notify`; one that has not been made yet is new. -/
structure Shared (T : Type*) where
  slot : Slot T
  notify : ℕ → Notify ℕ

namespace Shared

variable (shared : Shared T)

def setNotify (n : ℕ) (notify : Notify ℕ) : Shared T :=
  { shared with notify := Function.update shared.notify n notify }

/-- Something is done to the `Notify` of the entry. -/
def notifying (f : Notify ℕ → Notify ℕ) : Shared T :=
  match shared.slot.current with
  | none => shared
  | some n => shared.setNotify n (f (shared.notify n))

def unmarkActiveAndNotify : Shared T :=
  { shared.notifying Notify.notifyOne with slot := shared.slot.unmarkActiveAndNotify }

def returnHealthy (capacity : ℕ) (lease : PoolLease T) : Shared T :=
  let returned := { shared with slot := shared.slot.returnHealthy capacity lease }
  returned.notifying Notify.notifyOne

/-- The section of `discard`, and of a lease that is dropped. It notifies before the entry goes. -/
def discard : Shared T :=
  { shared.notifying Notify.notifyOne with slot := shared.slot.discard }

def retainIdle (kept : PoolEntry T → Bool) : Shared T :=
  let retained := { shared with slot := shared.slot.retainIdle kept }
  if retained.slot.idle.length ≠ shared.slot.idle.length then
    retained.notifying Notify.notifyWaiters
  else retained

def removeUnused : Shared T := { shared with slot := shared.slot.removeUnused }

def invalidateGeneration (generation : ℕ) : Shared T :=
  shared.retainIdle fun e => e.generation != generation

def discardIdleWhere (shouldDiscard : T → Bool) : Shared T :=
  (shared.retainIdle fun e => !shouldDiscard e.resource).removeUnused

/-- `fresh` tells which connections have been used of late. -/
def pruneIdleWith (fresh : PoolEntry T → Bool) (isAlive : T → Bool) : Shared T :=
  (shared.retainIdle fun e => fresh e && isAlive e.resource).removeUnused

end Shared

/-! ### The calls -/

/-- Where a call of `checkout_or_create_with` stands, and what becomes of its lease. A future
`notified()` keeps the count of `notify_waiters` calls from when it was made. -/
inductive Phase (T : Type*)
  | start
  | looking
  | handles (n : ℕ)
  | refused (n : ℕ)
  | listening (n calls : ℕ)
  | checking (n calls : ℕ)
  | parking (n calls : ℕ)
  | waiting (n : ℕ)
  | acquired (permit : ℕ)
  | creating (permit : ℕ)
  | created (permit : ℕ) (resource : T)
  | recording (permit : ℕ) (resource : T) (generation : ℕ)
  | failed (permit : ℕ)
  | unmarked (permit : ℕ)
  | leased (lease : PoolLease T)
  | discarding
  | finished

def move (capacity generation i : ℕ) (shared : Shared T) :
    Phase T → Move T → Option (Shared T × Phase T)
  | .start, .turn =>
    match shared.slot.checkoutIdle with
    | some (slot, lease) => some ({ shared with slot }, .leased lease)
    | none => some (shared, .looking)
  | .looking, .turn =>
    let (slot, n) := shared.slot.poolHandles capacity
    some ({ shared with slot }, .handles n)
  | .handles n, .turn =>
    match shared.slot.tryAcquire n with
    | some slot => some ({ shared with slot }, .acquired n)
    | none => some (shared, .refused n)
  | .refused n, .turn => some (shared, .listening n (shared.notify n).calls)
  | .listening n calls, .turn =>
    match shared.slot.checkoutIdle with
    | some (slot, lease) => some ({ shared with slot }, .leased lease)
    | none => some (shared, .checking n calls)
  | .checking n calls, .turn =>
    if shared.slot.permits n > 0 then some (shared, .start) else some (shared, .parking n calls)
  | .parking n calls, .turn =>
    let (notify, ready) := (shared.notify n).poll calls i
    some (shared.setNotify n notify, if ready then .start else .waiting n)
  | .waiting n, .turn =>
    ((shared.notify n).resume i).map fun notify => (shared.setNotify n notify, .start)
  | .waiting n, .dropped => some (shared.setNotify n ((shared.notify n).drop i), .finished)
  | .acquired permit, .turn =>
    some ({ shared with slot := shared.slot.markActive capacity }, .creating permit)
  | .creating permit, .created (some resource) => some (shared, .created permit resource)
  | .creating permit, .created none => some (shared, .failed permit)
  | .creating permit, .dropped =>
    some ({ shared with slot := shared.slot.release permit }, .finished)
  | .created permit resource, .turn => some (shared, .recording permit resource generation)
  | .recording permit resource generation, .turn =>
    some ({ shared with slot := shared.slot.recordGeneration capacity generation },
      .leased ⟨resource, generation, permit⟩)
  | .failed permit, .turn => some (shared.unmarkActiveAndNotify, .unmarked permit)
  | .unmarked permit, .turn =>
    some ({ shared with slot := shared.slot.release permit }, .finished)
  | .leased lease, .returnHealthy => some (shared.returnHealthy capacity lease, .finished)
  | .leased lease, .discard =>
    some ({ shared with slot := shared.slot.release lease.permit }, .discarding)
  | .discarding, .turn => some (shared.discard, .finished)
  | _, _ => none

namespace Phase

/-- The call as the pool sees it, where nothing is said about notifications. -/
def toPhase : Phase T → ConnectionPool.Phase T
  | .start => .start
  | .looking => .looking
  | .handles n => .handles n
  | .refused n | .listening n _ => .refused n
  | .checking n _ => .checking n
  | .parking _ _ | .waiting _ => .waiting
  | .acquired permit => .acquired permit
  | .creating permit => .creating permit
  | .created permit resource => .created permit resource
  | .recording permit resource generation => .recording permit resource generation
  | .failed permit => .failed permit
  | .unmarked permit => .unmarked permit
  | .leased lease => .leased lease
  | .discarding => .discarding
  | .finished => .finished

/-- The `PoolState` whose handles a call has and may come to wait on. -/
def handle : Phase T → Option ℕ
  | .handles n | .refused n | .listening n _ | .checking n _ | .parking n _ | .waiting n => some n
  | _ => none

/-- The `Notify` that a call waits on. -/
def waitsOn : Phase T → Option ℕ
  | .waiting n => some n
  | _ => none

/-- A call has not found an idle connection since it made its future, and has not polled it yet. -/
def checked : Phase T → Bool
  | .checking _ _ | .parking _ _ => true
  | _ => false

/-- A call has not found a permit either. -/
def parks : Phase T → Bool
  | .parking _ _ => true
  | _ => false

/-- A call is at `notified.await`. -/
def awaits : Phase T → Bool
  | .parking _ _ | .waiting _ => true
  | _ => false

def looks : Phase T → Bool
  | .start | .looking | .handles _ | .refused _ | .listening _ _ | .checking _ _ => true
  | _ => false

/-- A call whose `create` has failed has notified, and has yet to drop its permit. -/
def owes (n : ℕ) : Phase T → Bool
  | .unmarked permit => permit = n
  | _ => false

/-- The future of a call is dropped while it awaits `create`. -/
def cancels : Phase T → Move T → Bool
  | .creating _, .dropped => true
  | _, _ => false

/-- The semaphore that is asked for its available permits. -/
def checks : Phase T → Move T → Option ℕ
  | .checking n _, .turn => some n
  | _, _ => none

end Phase

/-- `woken` is not in the code: it tells that the call has gone on from `notified.await`, and still
looks for a connection. -/
structure Call (T : Type*) where
  phase : Phase T
  woken : Bool

def Call.next (call : Call T) (phase : Phase T) : Call T :=
  ⟨phase, phase.looks && (call.woken || call.phase.awaits)⟩

structure State (T : Type*) where
  capacity : ℕ
  nextGeneration : ℕ
  shared : Shared T
  calls : List (Call T)

namespace State

def new (capacity : ℕ) : State T where
  capacity := max capacity 1
  nextGeneration := 1
  shared := ⟨⟨none, 0, fun _ => 0⟩, fun _ => .new⟩
  calls := []

variable (s : State T)

def step : Event Unit T → Option (State T)
  | .checkoutOrCreateWith _ => some { s with calls := s.calls ++ [⟨.start, false⟩] }
  | .move i m =>
    s.calls[i]?.bind fun call =>
      (move s.capacity s.nextGeneration i s.shared call.phase m).map fun (shared, phase) =>
        { s with
          nextGeneration :=
            ConnectionPool.allocateGeneration s.nextGeneration call.phase.toPhase m
          shared := shared
          calls := s.calls.set i (call.next phase) }
  | .invalidateGeneration _ generation =>
    some { s with shared := s.shared.invalidateGeneration generation }
  | .discardIdleWhere shouldDiscard =>
    some { s with shared := s.shared.discardIdleWhere shouldDiscard }
  | .pruneIdleWith fresh isAlive =>
    some { s with shared := s.shared.pruneIdleWith fresh isAlive }

/-- The pool without its notifications. -/
def toPool : ManagedPool Unit T where
  capacity := s.capacity
  nextGeneration := s.nextGeneration
  slots _ := s.shared.slot
  tasks := s.calls.map fun call => ⟨(), call.phase.toPhase⟩

/-! ### Calls that are not left waiting -/

/-- A call at `notified.await` waits on the `Notify` of the entry. -/
def OnCurrent : Prop :=
  ∀ call ∈ s.calls, ∀ n ∈ call.phase.waitsOn, s.shared.slot.current = some n
  deriving Decidable

/-- The entry has a permit or an idle connection. -/
def Available : Prop :=
  ∃ n ∈ s.shared.slot.current, 0 < s.shared.slot.permits n ∨ s.shared.slot.idle ≠ []
  deriving Decidable

/-- A call is woken, or is going to wake one: it waits and has been notified, it has gone on and
still looks, or it has given up its connection and comes to `notify_one`. -/
def Wakes (i : ℕ) (call : Call T) : Bool :=
  match call.phase with
  | .waiting n => (s.shared.notify n).ready i
  | .discarding => true
  | _ => call.woken

/-- A wakeup is on its way. -/
def WakeupPending : Prop :=
  ∃ i < s.calls.length, ∃ call ∈ s.calls[i]?, s.Wakes i call = true

instance decidableWakeupPending : Decidable s.WakeupPending :=
  inferInstanceAs (Decidable (∃ i < _, ∃ call ∈ _, _))

/-- Where something is available while a call waits, a wakeup is on its way. -/
def NoneStranded : Prop :=
  s.Available → (∃ call ∈ s.calls, call.phase.waitsOn ≠ none) → s.WakeupPending
  deriving Decidable

/-- A step calls `notify_one`. A future that is dropped passes on the notification it had. -/
def Notifies (i : ℕ) : Phase T → Move T → Bool
  | .leased _, .returnHealthy | .failed _, .turn | .discarding, .turn => true
  | .waiting n, .dropped => i ∈ (s.shared.notify n).notified
  | _, _ => false

/-- What a step of a call has to meet. A `create` is not dropped while a call waits or is about to.
No call finds the permits gone while another has notified and has yet to drop its own. There is no
second notification to keep while a call is about to wait. -/
def Calm (i : ℕ) (phase : Phase T) (m : Move T) : Prop :=
  (phase.cancels m = true → (∀ call ∈ s.calls, call.phase.parks = false) ∧
    ∀ n ∈ s.shared.slot.current, (s.shared.notify n).waiters = []) ∧
  (∀ n ∈ phase.checks m, s.shared.slot.permits n = 0 →
    ∀ call ∈ s.calls, call.phase.owes n = false) ∧
  (s.Notifies i phase m = true → ∀ n ∈ s.shared.slot.current, (s.shared.notify n).permit = true →
    ∀ call ∈ s.calls, call.phase.checked = false)
  deriving Decidable

/-- The entry is not removed while a call has its handles. -/
def Undisturbed (event : Event Unit T) : Prop :=
  s.toPool.Removes () event → ∀ call ∈ s.calls, call.phase.handle = none
  deriving Decidable

def Orderly : Event Unit T → Prop
  | .move i m => s.Undisturbed (.move i m) ∧ ∀ call ∈ s.calls[i]?, s.Calm i call.phase m
  | event => s.Undisturbed event

instance decidableOrderly : ∀ event, Decidable (s.Orderly event)
  | .move _ _ => inferInstanceAs (Decidable (_ ∧ ∀ call ∈ _, _))
  | .checkoutOrCreateWith _ | .invalidateGeneration _ _ | .discardIdleWhere _
  | .pruneIdleWith _ _ => inferInstanceAs (Decidable (Undisturbed _ _))

end State

/-! ### What a step does -/

inductive Moved (capacity generation i : ℕ) (shared : Shared T) :
    Phase T → Move T → Shared T → Phase T → Prop
  | found {slot lease} (h : shared.slot.checkoutIdle = some (slot, lease)) :
    Moved capacity generation i shared .start .turn { shared with slot } (.leased lease)
  | none (h : shared.slot.checkoutIdle = none) :
    Moved capacity generation i shared .start .turn shared .looking
  | poolHandles : Moved capacity generation i shared .looking .turn
    { shared with slot := (shared.slot.poolHandles capacity).1 }
    (.handles (shared.slot.poolHandles capacity).2)
  | acquired {n slot} (h : shared.slot.tryAcquire n = some slot) :
    Moved capacity generation i shared (.handles n) .turn { shared with slot } (.acquired n)
  | refused {n} (h : shared.slot.tryAcquire n = Option.none) :
    Moved capacity generation i shared (.handles n) .turn shared (.refused n)
  | listening {n} : Moved capacity generation i shared (.refused n) .turn shared
    (.listening n (shared.notify n).calls)
  | foundLate {n calls slot lease} (h : shared.slot.checkoutIdle = some (slot, lease)) :
    Moved capacity generation i shared (.listening n calls) .turn { shared with slot }
      (.leased lease)
  | noneLate {n calls} (h : shared.slot.checkoutIdle = none) :
    Moved capacity generation i shared (.listening n calls) .turn shared (.checking n calls)
  | again {n calls} (h : 0 < shared.slot.permits n) :
    Moved capacity generation i shared (.checking n calls) .turn shared .start
  | parking {n calls} (h : shared.slot.permits n = 0) :
    Moved capacity generation i shared (.checking n calls) .turn shared (.parking n calls)
  | ready {n calls} (h : ((shared.notify n).poll calls i).2 = true) :
    Moved capacity generation i shared (.parking n calls) .turn
      (shared.setNotify n ((shared.notify n).poll calls i).1) .start
  | waiting {n calls} (h : ((shared.notify n).poll calls i).2 = false) :
    Moved capacity generation i shared (.parking n calls) .turn
      (shared.setNotify n ((shared.notify n).poll calls i).1) (.waiting n)
  | resumed {n notify} (h : (shared.notify n).resume i = some notify) :
    Moved capacity generation i shared (.waiting n) .turn (shared.setNotify n notify) .start
  | dropped {n} : Moved capacity generation i shared (.waiting n) .dropped
    (shared.setNotify n ((shared.notify n).drop i)) .finished
  | marked {permit} : Moved capacity generation i shared (.acquired permit) .turn
    { shared with slot := shared.slot.markActive capacity } (.creating permit)
  | created {permit resource} :
    Moved capacity generation i shared (.creating permit) (.created (some resource)) shared
      (.created permit resource)
  | failed {permit} : Moved capacity generation i shared (.creating permit) (.created Option.none)
    shared (.failed permit)
  | cancelled {permit} : Moved capacity generation i shared (.creating permit) .dropped
    { shared with slot := shared.slot.release permit } .finished
  | allocated {permit resource} :
    Moved capacity generation i shared (.created permit resource) .turn shared
      (.recording permit resource generation)
  | recorded {permit resource g} :
    Moved capacity generation i shared (.recording permit resource g) .turn
      { shared with slot := shared.slot.recordGeneration capacity g }
      (.leased ⟨resource, g, permit⟩)
  | unmarked {permit} : Moved capacity generation i shared (.failed permit) .turn
    shared.unmarkActiveAndNotify (.unmarked permit)
  | released {permit} : Moved capacity generation i shared (.unmarked permit) .turn
    { shared with slot := shared.slot.release permit } .finished
  | returned {lease} : Moved capacity generation i shared (.leased lease) .returnHealthy
    (shared.returnHealthy capacity lease) .finished
  | discarding {lease} : Moved capacity generation i shared (.leased lease) .discard
    { shared with slot := shared.slot.release lease.permit } .discarding
  | discarded : Moved capacity generation i shared .discarding .turn shared.discard .finished

section Moved

variable {capacity generation i : ℕ} {shared shared' : Shared T} {phase phase' : Phase T}
  {m : Move T}

lemma Moved.of_move (h : move capacity generation i shared phase m = some (shared', phase')) :
    Moved capacity generation i shared phase m shared' phase' := by
  revert h
  fun_cases move capacity generation i shared phase m <;> intro h
  case case11 n calls notify ready hpoll =>
    cases h
    obtain ⟨rfl, rfl⟩ := Prod.ext_iff.1 hpoll
    split_ifs with hready
    · exact .ready hready
    · exact .waiting (by simpa using hready)
  case case12 n =>
    obtain ⟨notify, hresume, heq⟩ := Option.map_eq_some_iff.1 h
    cases heq
    exact .resumed hresume
  all_goals cases h
  · exact .found ‹_›
  · exact .none ‹_›
  · rename_i hhandles
    obtain ⟨rfl, rfl⟩ := Prod.ext_iff.1 hhandles
    exact .poolHandles
  · exact .acquired ‹_›
  · exact .refused ‹_›
  · exact .listening
  · exact .foundLate ‹_›
  · exact .noneLate ‹_›
  · exact .again ‹_›
  · exact .parking (by omega)
  · exact .dropped
  · exact .marked
  · exact .created
  · exact .failed
  · exact .cancelled
  · exact .allocated
  · exact .recorded
  · exact .unmarked
  · exact .released
  · exact .returned
  · exact .discarding
  · exact .discarded

@[simp] lemma Shared.slot_notifying (shared : Shared T) (f : Notify ℕ → Notify ℕ) :
    (shared.notifying f).slot = shared.slot := by
  unfold notifying
  split <;> rfl

@[simp] lemma Shared.slot_retainIdle (shared : Shared T) (kept : PoolEntry T → Bool) :
    (shared.retainIdle kept).slot = shared.slot.retainIdle kept := by
  simp only [retainIdle]
  split_ifs
  · rw [slot_notifying]
  · rfl

/-- A step of a call is one of the pool, or only about notifications. -/
lemma Moved.refines (h : Moved capacity generation i shared phase m shared' phase') :
    shared'.slot = shared.slot ∧ phase'.toPhase = phase.toPhase ∧
      ConnectionPool.allocateGeneration generation phase.toPhase m = generation ∨
    ConnectionPool.move capacity generation shared.slot phase.toPhase m =
      some (shared'.slot, phase'.toPhase) := by
  cases h with
  | found h | none h | acquired h | refused h | foundLate h | noneLate h | again h | parking h =>
    simp [Phase.toPhase, ConnectionPool.move, h]
  | listening | waiting => exact .inl ⟨rfl, rfl, rfl⟩
  | returned =>
    refine .inr ?_
    simp [Phase.toPhase, ConnectionPool.move, Shared.returnHealthy]
  | _ => exact .inr rfl

end Moved

theorem State.step_refines {s s' : State T} {event : Event Unit T} (h : s.step event = some s') :
    s'.toPool = s.toPool ∨ s.toPool.step event = some s'.toPool := by
  have hupdate (slots : Unit → Slot T) (slot) : Function.update slots () slot = fun _ => slot :=
    Function.update_eq_const_of_subsingleton ..
  cases event with
  | move i m =>
    obtain ⟨call, hcall, hmap⟩ := Option.bind_eq_some_iff.1 h
    obtain ⟨⟨shared, phase⟩, hmove, rfl⟩ := Option.map_eq_some_iff.1 hmap
    have htasks : (s.calls.set i (call.next phase)).map (fun call => ⟨(), call.phase.toPhase⟩) =
        s.toPool.tasks.set i ⟨(), phase.toPhase⟩ := List.map_set
    obtain ⟨hslot, hphase, hgeneration⟩ | hpool := (Moved.of_move hmove).refines
    · refine .inl ?_
      have htask : s.toPool.tasks[i]? = some ⟨(), call.phase.toPhase⟩ := by
        simp [toPool, hcall]
      obtain ⟨hi, hget⟩ := List.getElem?_eq_some_iff.1 htask
      rw [hphase, ← hget, List.set_getElem_self hi] at htasks
      simp [toPool, htasks, hslot, hgeneration]
    · refine .inr ?_
      simp [toPool, ManagedPool.step, hcall, hpool, hupdate, htasks]
  | _ =>
    cases h
    refine .inr ?_
    simp [toPool, ManagedPool.step, hupdate, Phase.toPhase, Shared.invalidateGeneration,
      Slot.invalidateGeneration, Shared.discardIdleWhere, Slot.discardIdleWhere,
      Shared.pruneIdleWith, Slot.pruneIdleWith, Shared.removeUnused]

/-- **With its notifications the pool does what it does without them.** -/
theorem State.run_refines {s s' : State T} {es : List (Event Unit T)}
    (h : run step s es = some s') :
    ∃ es', es'.Sublist es ∧ run ManagedPool.step s.toPool es' = some s'.toPool := by
  induction es generalizing s with
  | nil =>
    cases h
    exact ⟨[], .slnil, rfl⟩
  | cons e es ih =>
    obtain ⟨t, hstep, hrun⟩ := Option.bind_eq_some_iff.1 h
    obtain ⟨es', hsub, hpool⟩ := ih hrun
    obtain heq | hstep := step_refines hstep
    · exact ⟨es', hsub.cons e, heq ▸ hpool⟩
    · exact ⟨e :: es', hsub.cons_cons e, by rw [run, hstep, Option.bind_some, hpool]⟩

theorem State.run_refines_two :
    let es := .checkoutOrCreateWith () :: .checkoutOrCreateWith () ::
      (List.replicate 3 (.move 0 .turn) ++ List.replicate 4 (.move 1 .turn))
    ∃ s : State Unit, run step (new 1) es = some s ∧
      ∃ es', es'.Sublist es ∧ run ManagedPool.step (new 1).toPool es' = some s.toPool :=
  ⟨_, rfl, run_refines rfl⟩

end CrossHostOps.PoolWaiters
