import Mathlib.Data.Multiset.Count
import CrossHostOps.Runs

/-!
`ManagedPool` of `daemon/connection_manager.rs`: connections are kept by key, and a semaphore of
each key bounds how many there are. Every section under the mutex and every operation of a semaphore
is one step; the steps of all calls may interleave.
-/

namespace CrossHostOps.ConnectionPool

open Runs List Function

variable {K T : Type*}

/-- An idle connection. It keeps its permit, which is known by the semaphore it is of. -/
structure PoolEntry (T : Type*) where
  resource : T
  generation : ℕ
  permit : ℕ

/-- The idle connections are listed from the one pushed last. -/
structure PoolState (T : Type*) where
  semaphore : ℕ
  idle : List (PoolEntry T)
  active : ℕ
  latestGeneration : ℕ

structure PoolLease (T : Type*) where
  resource : T
  generation : ℕ
  permit : ℕ

/-- What there is of one key: its entry in the map, and all semaphores made for it, with the permits
that each has left. A semaphore lives on when its entry is removed. -/
structure Slot (T : Type*) where
  entry : Option (PoolState T)
  made : ℕ
  permits : ℕ → ℕ

namespace Slot

variable (slot : Slot T)

/-- The entry of the key, made with a new semaphore where there is none. -/
def orInsertNew (capacity : ℕ) : Slot T × PoolState T :=
  match slot.entry with
  | some state => (slot, state)
  | none =>
    let state : PoolState T := ⟨slot.made, [], 0, 0⟩
    (⟨some state, slot.made + 1, Function.update slot.permits slot.made (max capacity 1)⟩, state)

def tryAcquire (semaphore : ℕ) : Option (Slot T) :=
  if 0 < slot.permits semaphore then
    some { slot with
      permits := Function.update slot.permits semaphore (slot.permits semaphore - 1) }
  else none

/-- A permit is dropped. -/
def release (permit : ℕ) : Slot T :=
  { slot with permits := Function.update slot.permits permit (slot.permits permit + 1) }

def checkoutIdle : Option (Slot T × PoolLease T) := do
  let state ← slot.entry
  match state.idle with
  | [] => none
  | e :: idle =>
    let state := { state with
      idle := idle
      active := state.active + 1
      latestGeneration := max state.latestGeneration e.generation }
    some ({ slot with entry := some state }, ⟨e.resource, e.generation, e.permit⟩)

def poolHandles (capacity : ℕ) : Slot T × ℕ :=
  let (slot, state) := slot.orInsertNew capacity
  (slot, state.semaphore)

def markActive (capacity : ℕ) : Slot T :=
  let (slot, state) := slot.orInsertNew capacity
  { slot with entry := some { state with active := state.active + 1 } }

def unmarkActiveAndNotify : Slot T :=
  { slot with entry := slot.entry.map fun state => { state with active := state.active - 1 } }

def recordGeneration (capacity generation : ℕ) : Slot T :=
  let (slot, state) := slot.orInsertNew capacity
  { slot with
    entry := some { state with latestGeneration := max state.latestGeneration generation } }

def returnHealthy (capacity : ℕ) (lease : PoolLease T) : Slot T :=
  let (slot, state) := slot.orInsertNew capacity
  let state := { state with
    active := state.active - 1
    latestGeneration := max state.latestGeneration lease.generation
    idle := ⟨lease.resource, lease.generation, lease.permit⟩ :: state.idle }
  { slot with entry := some state }

/-- The idle connections that are not kept are dropped, with their permits. -/
def retainIdle (kept : PoolEntry T → Bool) : Slot T :=
  match slot.entry with
  | none => slot
  | some state =>
    let dropped := state.idle.filter fun e => !kept e
    { slot with
      entry := some { state with idle := state.idle.filter kept }
      permits := fun semaphore =>
        slot.permits semaphore + dropped.countP fun e => e.permit == semaphore }

/-- An entry without connections is removed. -/
def removeUnused : Slot T :=
  match slot.entry with
  | none => slot
  | some state =>
    if state.active > 0 ∨ state.idle ≠ [] then slot else { slot with entry := none }

def invalidateGeneration (generation : ℕ) : Slot T :=
  slot.retainIdle fun e => e.generation != generation

def discardIdleWhere (shouldDiscard : T → Bool) : Slot T :=
  (slot.retainIdle fun e => !shouldDiscard e.resource).removeUnused

/-- `fresh` tells which connections have been used of late. -/
def pruneIdleWith (fresh : PoolEntry T → Bool) (isAlive : T → Bool) : Slot T :=
  (slot.retainIdle fun e => fresh e && isAlive e.resource).removeUnused

/-- The section of `discard`, and of a lease that is dropped. -/
def discard : Slot T :=
  match slot.entry with
  | none => slot
  | some state =>
    let state := { state with active := state.active - 1 }
    if state.active = 0 ∧ state.idle = [] then { slot with entry := none }
    else { slot with entry := some state }

end Slot

/-! ### The calls that use a connection -/

/-- Where a call of `checkout_or_create_with` stands, and what becomes of its lease. -/
inductive Phase (T : Type*)
  | start
  | looking
  | handles (semaphore : ℕ)
  | refused (semaphore : ℕ)
  | checking (semaphore : ℕ)
  | waiting
  | acquired (permit : ℕ)
  | creating (permit : ℕ)
  | created (permit : ℕ) (resource : T)
  | recording (permit : ℕ) (resource : T) (generation : ℕ)
  | failed (permit : ℕ)
  | unmarked (permit : ℕ)
  | leased (lease : PoolLease T)
  | discarding
  | finished

inductive Move (T : Type*)
  /-- The next step of the call itself. A call that waits may go on at any time. -/
  | turn
  /-- The future `create` ends. -/
  | created (result : Option T)
  /-- The future of the call is dropped. -/
  | dropped
  | returnHealthy
  /-- The lease is discarded, or dropped. -/
  | discard

def move (capacity generation : ℕ) (slot : Slot T) :
    Phase T → Move T → Option (Slot T × Phase T)
  | .start, .turn =>
    match slot.checkoutIdle with
    | some (slot, lease) => some (slot, .leased lease)
    | none => some (slot, .looking)
  | .looking, .turn =>
    let (slot, semaphore) := slot.poolHandles capacity
    some (slot, .handles semaphore)
  | .handles semaphore, .turn =>
    match slot.tryAcquire semaphore with
    | some slot => some (slot, .acquired semaphore)
    | none => some (slot, .refused semaphore)
  | .refused semaphore, .turn =>
    match slot.checkoutIdle with
    | some (slot, lease) => some (slot, .leased lease)
    | none => some (slot, .checking semaphore)
  | .checking semaphore, .turn =>
    if slot.permits semaphore > 0 then some (slot, .start) else some (slot, .waiting)
  | .waiting, .turn => some (slot, .start)
  | .waiting, .dropped => some (slot, .finished)
  | .acquired permit, .turn => some (slot.markActive capacity, .creating permit)
  | .creating permit, .created (some resource) => some (slot, .created permit resource)
  | .creating permit, .created none => some (slot, .failed permit)
  | .creating permit, .dropped => some (slot.release permit, .finished)
  | .created permit resource, .turn => some (slot, .recording permit resource generation)
  | .recording permit resource generation, .turn =>
    some (slot.recordGeneration capacity generation, .leased ⟨resource, generation, permit⟩)
  | .failed permit, .turn => some (slot.unmarkActiveAndNotify, .unmarked permit)
  | .unmarked permit, .turn => some (slot.release permit, .finished)
  | .leased lease, .returnHealthy => some (slot.returnHealthy capacity lease, .finished)
  | .leased lease, .discard => some (slot.release lease.permit, .discarding)
  | .discarding, .turn => some (slot.discard, .finished)
  | _, _ => none

def allocateGeneration (generation : ℕ) : Phase T → Move T → ℕ
  | .created _ _, .turn => generation + 1
  | _, _ => generation

structure Task (K T : Type*) where
  key : K
  phase : Phase T

structure ManagedPool (K T : Type*) where
  capacity : ℕ
  nextGeneration : ℕ
  slots : K → Slot T
  tasks : List (Task K T)

inductive Event (K T : Type*)
  | checkoutOrCreateWith (key : K)
  | move (task : ℕ) (m : Move T)
  | invalidateGeneration (key : K) (generation : ℕ)
  | discardIdleWhere (shouldDiscard : T → Bool)
  | pruneIdleWith (fresh : PoolEntry T → Bool) (isAlive : T → Bool)

namespace ManagedPool

def new (capacity : ℕ) : ManagedPool K T where
  capacity := max capacity 1
  nextGeneration := 1
  slots _ := ⟨none, 0, fun _ => 0⟩
  tasks := []

variable [DecidableEq K]

def step (pool : ManagedPool K T) : Event K T → Option (ManagedPool K T)
  | .checkoutOrCreateWith key => some { pool with tasks := pool.tasks ++ [⟨key, .start⟩] }
  | .move i m =>
    pool.tasks[i]?.bind fun task =>
      (move pool.capacity pool.nextGeneration (pool.slots task.key) task.phase m).map
        fun (slot, phase) =>
          { pool with
            nextGeneration := allocateGeneration pool.nextGeneration task.phase m
            slots := Function.update pool.slots task.key slot
            tasks := pool.tasks.set i ⟨task.key, phase⟩ }
  | .invalidateGeneration key generation =>
    let slot := (pool.slots key).invalidateGeneration generation
    some { pool with slots := Function.update pool.slots key slot }
  | .discardIdleWhere shouldDiscard =>
    some { pool with slots := fun key => (pool.slots key).discardIdleWhere shouldDiscard }
  | .pruneIdleWith fresh isAlive =>
    some { pool with slots := fun key => (pool.slots key).pruneIdleWith fresh isAlive }

end ManagedPool

/-! ### What is counted -/

namespace Slot

def current (slot : Slot T) : Option ℕ := slot.entry.map (·.semaphore)

def active (slot : Slot T) : ℕ := (slot.entry.map (·.active)).getD 0

def idle (slot : Slot T) : List (PoolEntry T) := (slot.entry.map (·.idle)).getD []

end Slot

namespace Phase

def permit : Phase T → Option ℕ
  | .acquired p | .creating p | .created p _ | .recording p _ _ | .failed p | .unmarked p => some p
  | .leased lease => some lease.permit
  | _ => none

/-- A call is counted as active. -/
def marked : Phase T → Bool
  | .creating _ | .created _ _ | .recording _ _ _ | .failed _ | .leased _ | .discarding => true
  | _ => false

/-- A call stands between looking up the semaphore and being counted as active. -/
def between : Phase T → Bool
  | .handles _ | .acquired _ => true
  | _ => false

/-- A step that counts off a connection which has been given up. -/
def discards : Phase T → Move T → Bool
  | .discarding, .turn => true
  | _, _ => false

/-- A connection is made for the call, or leased to it. -/
def outstanding : Phase T → Bool
  | .acquired _ | .creating _ | .created _ _ | .recording _ _ _ | .leased _ => true
  | _ => false

/-- The semaphore that has to be the one of the entry. -/
def uses : Phase T → Option ℕ
  | .handles semaphore => some semaphore
  | .acquired p | .creating p | .created p _ | .recording p _ _ => some p
  | .leased lease => some lease.permit
  | _ => none

end Phase

namespace ManagedPool

variable [DecidableEq K]

def phasesOf (key : K) (tasks : List (Task K T)) : List (Phase T) :=
  (tasks.filter (·.key = key)).map (·.phase)

/-- The leases, the connections that are being made and the idle ones of a key. -/
def connections (pool : ManagedPool K T) (key : K) : ℕ :=
  (phasesOf key pool.tasks).countP (·.outstanding) + (pool.slots key).idle.length

/-- An event removes the entry of a key. -/
def Removes (pool : ManagedPool K T) (key : K) : Event K T → Prop
  | .move i m => (∃ task ∈ pool.tasks[i]?, task.key = key ∧ task.phase.discards m = true) ∧
      ∃ state ∈ (pool.slots key).entry, state.active ≤ 1 ∧ state.idle = []
  | .discardIdleWhere shouldDiscard =>
    ∃ state ∈ (pool.slots key).entry, state.active = 0 ∧ ∀ e ∈ state.idle, shouldDiscard e.resource
  | .pruneIdleWith fresh isAlive =>
    ∃ state ∈ (pool.slots key).entry, state.active = 0 ∧
      ∀ e ∈ state.idle, (fresh e && isAlive e.resource) = false
  | _ => False

instance decidableRemoves (pool : ManagedPool K T) (key : K) :
    ∀ event, Decidable (pool.Removes key event)
  | .checkoutOrCreateWith _ | .invalidateGeneration _ _ => inferInstanceAs (Decidable False)
  | .move i _ => inferInstanceAs (Decidable ((∃ task ∈ pool.tasks[i]?, _ ∧ _) ∧ ∃ state ∈ _, _ ∧ _))
  | .discardIdleWhere _ => inferInstanceAs (Decidable (∃ state ∈ _, _ ∧ ∀ e ∈ _, _))
  | .pruneIdleWith _ _ => inferInstanceAs (Decidable (∃ state ∈ _, _ ∧ ∀ e ∈ _, _))

/-- The entry of a key is not removed while a call stands between looking up its semaphore and being
counted as active. -/
def Undisturbed (key : K) (pool : ManagedPool K T) (event : Event K T) : Prop :=
  pool.Removes key event → ∀ phase ∈ phasesOf key pool.tasks, phase.between = false
  deriving Decidable

end ManagedPool

/-! ### One key -/

structure Sound (capacity : ℕ) (slot : Slot T) (phases : Multiset (Phase T)) : Prop where
  uses : ∀ phase ∈ phases, ∀ semaphore, phase.uses = some semaphore →
    slot.current = some semaphore
  marked : phases.countP (·.marked) ≤ slot.active
  idle : ∀ e ∈ slot.idle, slot.current = some e.permit
  permits : ∀ semaphore, slot.current = some semaphore →
    slot.permits semaphore + phases.countP (·.permit = some semaphore) + slot.idle.length = capacity
  made : ∀ semaphore, slot.current = some semaphore → semaphore < slot.made
  held : ∀ phase ∈ phases, ∀ permit, phase.permit = some permit → permit < slot.made

section Sound

variable {capacity generation semaphore permit : ℕ} {slot slot' : Slot T} {phase phase' : Phase T}
  {rest phases : Multiset (Phase T)} {lease : PoolLease T}

/-- A call that uses a semaphore is counted as active, or it stands between. -/
lemma Phase.marked_of_uses (h : phase.uses = some semaphore) (hbetween : phase.between = false) :
    phase.marked = true := by
  cases phase <;> simp_all [Phase.uses, Phase.between, Phase.marked]

lemma Phase.uses_of_outstanding (h : phase.outstanding = true) :
    ∃ semaphore, phase.uses = some semaphore ∧ phase.permit = some semaphore := by
  cases phase <;> first | exact ⟨_, rfl, rfl⟩ | cases h

namespace Sound

variable (h : Sound capacity slot (phase ::ₘ rest))

include h

/-- A call goes on while the entry of its key stays: what the entry gains, the call loses. -/
lemma change (hcurrent : slot'.current = slot.current) (hmade : slot'.made = slot.made)
    (huses : ∀ semaphore, phase'.uses = some semaphore → slot.current = some semaphore)
    (hactive : slot.active + (if phase'.marked then 1 else 0) ≤
      slot'.active + if phase.marked then 1 else 0)
    (hidle : ∀ e ∈ slot'.idle, slot.current = some e.permit)
    (hpermits : ∀ semaphore, slot.current = some semaphore →
      slot'.permits semaphore + (if phase'.permit = some semaphore then 1 else 0) +
        slot'.idle.length =
      slot.permits semaphore + (if phase.permit = some semaphore then 1 else 0) + slot.idle.length)
    (hheld : ∀ permit, phase'.permit = some permit → permit < slot.made) :
    Sound capacity slot' (phase' ::ₘ rest) where
  uses := by
    rw [hcurrent]
    exact Multiset.forall_mem_cons.2 ⟨huses, (Multiset.forall_mem_cons.1 h.uses).2⟩
  marked := by
    have hold := h.marked
    rw [Multiset.countP_cons] at hold ⊢
    omega
  idle := hcurrent ▸ hidle
  permits semaphore hs := by
    rw [hcurrent] at hs
    have hold := h.permits semaphore hs
    have hnew := hpermits semaphore hs
    rw [Multiset.countP_cons] at hold ⊢
    omega
  made := by
    rw [hcurrent, hmade]
    exact h.made
  held := by
    rw [hmade]
    exact Multiset.forall_mem_cons.2 ⟨hheld, (Multiset.forall_mem_cons.1 h.held).2⟩

/-- A call goes on and leaves its key as it is. -/
lemma goOn (huses : ∀ semaphore, phase'.uses = some semaphore → phase.uses = some semaphore)
    (hmarked : phase'.marked = true → phase.marked = true)
    (hpermit : phase'.permit = phase.permit) : Sound capacity slot (phase' ::ₘ rest) := by
  have hself := Multiset.mem_cons_self phase rest
  refine h.change rfl rfl (fun semaphore hs => h.uses _ hself _ (huses _ hs)) ?_ h.idle ?_ ?_
  · split_ifs <;> simp_all
  · intro semaphore _
    rw [hpermit]
  · intro permit hp
    exact h.held _ hself _ (hpermit ▸ hp)

/-- A call that has nothing of its key goes on. -/
lemma leave (huses : phase'.uses = none) (hmarked : phase'.marked = false)
    (hpermit : phase'.permit = phase.permit) :
    Sound capacity slot (phase' ::ₘ rest) :=
  h.goOn (by simp [huses]) (by simp [hmarked]) hpermit

lemma release (hpermit : phase.permit = some permit) (hpermit' : phase'.permit = none)
    (huses : phase'.uses = none) (hmarked : phase'.marked = true → phase.marked = true) :
    Sound capacity (slot.release permit) (phase' ::ₘ rest) := by
  refine h.change rfl rfl ?_ ?_ h.idle ?_ ?_
  · intro semaphore hs
    rw [huses] at hs
    cases hs
  · change slot.active + _ ≤ slot.active + _
    split_ifs <;> simp_all
  · intro semaphore _
    change update slot.permits permit _ semaphore + _ + slot.idle.length = _
    rw [update_apply]
    split_ifs <;> simp_all
  · intro p hp
    rw [hpermit'] at hp
    cases hp

end Sound

/-! ### The sections -/

namespace Sound

variable (h : Sound capacity slot phases)

include h

/-- A new entry comes with a semaphore that nobody knows. -/
lemma insert (hcapacity : 1 ≤ capacity) (hentry : slot.entry = none) :
    Sound capacity (slot.orInsertNew capacity).1 phases := by
  have hcurrent : slot.current = none := by rw [Slot.current, hentry]; rfl
  have hactive : slot.active = 0 := by rw [Slot.active, hentry]; rfl
  rw [Slot.orInsertNew, hentry]
  refine ⟨?_, ?_, ?_, ?_, ?_, ?_⟩
  · intro phase hphase semaphore hs
    have := h.uses phase hphase semaphore hs
    rw [hcurrent] at this
    cases this
  · exact (h.marked.trans hactive.le).trans (Nat.zero_le _)
  · intro e he
    cases he
  · intro semaphore hs
    cases hs
    have hfree : phases.countP (·.permit = some slot.made) = 0 := by
      rw [Multiset.countP_eq_zero]
      intro phase hphase hp
      exact Nat.lt_irrefl _ (h.held phase hphase _ hp)
    change update slot.permits slot.made (max capacity 1) slot.made + _ + 0 = capacity
    rw [update_self, hfree]
    omega
  · intro semaphore hs
    cases hs
    exact Nat.lt_succ_self _
  · intro phase hphase permit hp
    exact (h.held phase hphase permit hp).trans (Nat.lt_succ_self _)

/-- An entry without connections and without calls that are to be counted may go. -/
lemma removeUnused
    (hbetween : ∀ state ∈ slot.entry, state.active = 0 → state.idle = [] →
      ∀ phase ∈ phases, phase.between = false) : Sound capacity slot.removeUnused phases := by
  unfold Slot.removeUnused
  cases hentry : slot.entry with
  | none => exact h
  | some state =>
    by_cases hused : state.active > 0 ∨ state.idle ≠ []
    · simp only [if_pos hused]
      exact h
    · simp only [if_neg hused]
      have hzero : state.active = 0 := by omega
      have hactive : slot.active = 0 := by
        rw [Slot.active, hentry]
        exact hzero
      have hnone : phases.countP (·.marked) = 0 := Nat.le_zero.1 (hactive ▸ h.marked)
      have hunused : ∀ phase ∈ phases, phase.between = false :=
        hbetween state hentry hzero (by simpa using fun hne => hused (.inr hne))
      refine ⟨?_, ?_, ?_, ?_, ?_, h.held⟩
      · intro phase hphase semaphore hs
        have hmarked := Phase.marked_of_uses hs (hunused phase hphase)
        exact absurd hmarked (Multiset.countP_eq_zero.1 hnone phase hphase)
      · rw [hnone]
        exact Nat.zero_le _
      · intro e he
        cases he
      · intro semaphore hs
        cases hs
      · intro semaphore hs
        cases hs

/-- Connections that are dropped give their permits back. -/
lemma retainIdle (kept : PoolEntry T → Bool) : Sound capacity (slot.retainIdle kept) phases := by
  obtain ⟨_ | state, made, permits⟩ := slot
  · exact h
  · have hown : ∀ e ∈ state.idle, e.permit = state.semaphore :=
      fun e he => (Option.some.inj (h.idle e he)).symm
    refine ⟨h.uses, h.marked, fun e he => h.idle e (mem_of_mem_filter he), ?_, h.made, h.held⟩
    intro semaphore hs
    obtain rfl : state.semaphore = semaphore := Option.some.inj hs
    have hold : permits state.semaphore + _ + state.idle.length = capacity := h.permits _ rfl
    have hdropped : (state.idle.filter fun e => !kept e).countP (·.permit == state.semaphore) =
        (state.idle.filter fun e => !kept e).length :=
      countP_eq_length.2 fun e he => by simpa using hown e (mem_of_mem_filter he)
    have hsplit : state.idle.length = (state.idle.filter kept).length +
        (state.idle.filter fun e => !kept e).length :=
      length_eq_length_filter_add kept
    change permits state.semaphore + _ + _ + (state.idle.filter kept).length = capacity
    omega

/-- Connections are dropped, and then an entry that has none left. -/
lemma retainUsed (kept : PoolEntry T → Bool)
    (hbetween : ∀ state ∈ slot.entry, state.active = 0 → (∀ e ∈ state.idle, kept e = false) →
      ∀ phase ∈ phases, phase.between = false) :
    Sound capacity (slot.retainIdle kept).removeUnused phases := by
  refine (h.retainIdle kept).removeUnused ?_
  obtain ⟨_ | state, made, permits⟩ := slot
  · rintro state ⟨⟩
  · rintro state' ⟨⟩ hactive hidle
    refine hbetween state rfl hactive fun e he => ?_
    simpa using filter_eq_nil_iff.1 hidle e he

end Sound

lemma Slot.discard_eq (slot : Slot T) : slot.discard = slot.unmarkActiveAndNotify.removeUnused := by
  obtain ⟨_ | state, made, permits⟩ := slot
  · rfl
  · simp only [discard, unmarkActiveAndNotify, removeUnused, Option.map_some]
    by_cases hunused : state.active - 1 = 0 ∧ state.idle = []
    · rw [if_pos hunused, if_neg]
      rintro (hactive | hidle)
      · omega
      · exact hidle hunused.2
    · rw [if_neg hunused, if_pos]
      by_contra hno
      exact hunused ⟨by omega, by simpa using fun hne => hno (.inr hne)⟩

lemma Sound.unmark (h : Sound capacity slot (phase ::ₘ rest)) (hmarked : phase.marked = true)
    (hmarked' : phase'.marked = false) (huses : phase'.uses = none)
    (hpermit : phase'.permit = phase.permit) :
    Sound capacity slot.unmarkActiveAndNotify (phase' ::ₘ rest) := by
  have heffect : slot.unmarkActiveAndNotify.current = slot.current ∧
      slot.unmarkActiveAndNotify.active = slot.active - 1 ∧
      slot.unmarkActiveAndNotify.idle = slot.idle := by
    obtain ⟨_ | state, made, permits⟩ := slot <;> exact ⟨rfl, rfl, rfl⟩
  obtain ⟨hcurrent, hactive, hidle⟩ := heffect
  refine h.change hcurrent rfl ?_ ?_ (hidle ▸ h.idle) ?_ ?_
  · intro semaphore hs
    rw [huses] at hs
    cases hs
  · rw [hmarked, hmarked']
    simp
    omega
  · intro semaphore _
    rw [hpermit, hidle]
    rfl
  · intro permit hp
    exact h.held _ (Multiset.mem_cons_self _ _) _ (hpermit ▸ hp)

lemma Slot.of_checkoutIdle (h : slot.checkoutIdle = some (slot', lease)) :
    slot'.current = slot.current ∧ slot'.made = slot.made ∧ slot'.permits = slot.permits ∧
      slot'.active = slot.active + 1 ∧
      ∃ e, slot.idle = e :: slot'.idle ∧ lease.permit = e.permit := by
  obtain ⟨_ | ⟨semaphore, _ | ⟨e, idle⟩, active, latest⟩, made, permits⟩ := slot
  · cases h
  · cases h
  · cases h
    exact ⟨rfl, rfl, rfl, rfl, e, rfl, rfl⟩

lemma Sound.checkoutIdle (h : Sound capacity slot (phase ::ₘ rest))
    (hcheckout : slot.checkoutIdle = some (slot', lease)) (hpermit : phase.permit = none) :
    Sound capacity slot' (.leased lease ::ₘ rest) := by
  obtain ⟨hcurrent, hmade, hpermits, hactive, e, hidle, hlease⟩ := Slot.of_checkoutIdle hcheckout
  have hown : slot.current = some lease.permit := hlease ▸ h.idle e (hidle ▸ mem_cons_self)
  refine h.change hcurrent hmade ?_ ?_ ?_ ?_ ?_
  · rintro semaphore ⟨⟩
    exact hown
  · split_ifs <;> omega
  · intro e' he'
    exact h.idle e' (hidle ▸ mem_cons_of_mem _ he')
  · intro semaphore hs
    obtain rfl : lease.permit = semaphore := Option.some.inj (hown.symm.trans hs)
    rw [hpermits, hidle, hpermit, Phase.permit, if_pos rfl, if_neg (by simp), length_cons]
    omega
  · rintro permit ⟨⟩
    exact h.made _ hown

lemma Sound.tryAcquire (h : Sound capacity slot (.handles semaphore ::ₘ rest))
    (hacquire : slot.tryAcquire semaphore = some slot') :
    Sound capacity slot' (.acquired semaphore ::ₘ rest) := by
  have hown : slot.current = some semaphore := h.uses _ (Multiset.mem_cons_self _ _) _ rfl
  unfold Slot.tryAcquire at hacquire
  split_ifs at hacquire with hpos
  cases hacquire
  refine h.change rfl rfl ?_ le_rfl h.idle ?_ ?_
  · rintro semaphore ⟨⟩
    exact hown
  · intro semaphore' hs
    obtain rfl : semaphore = semaphore' := Option.some.inj (hown.symm.trans hs)
    change update slot.permits semaphore (slot.permits semaphore - 1) semaphore + _ +
      slot.idle.length = _
    rw [update_self]
    simp only [Phase.permit, reduceCtorEq, if_true, if_false]
    omega
  · rintro permit ⟨⟩
    exact h.made _ hown

/-- A call that has a permit of the key's semaphore finds the entry. -/
lemma Sound.markActive (h : Sound capacity slot (.acquired permit ::ₘ rest)) :
    Sound capacity (slot.markActive capacity) (.creating permit ::ₘ rest) := by
  have hown : slot.current = some permit := h.uses _ (Multiset.mem_cons_self _ _) _ rfl
  obtain ⟨_ | state, made, permits⟩ := slot
  · cases hown
  · refine h.change rfl rfl ?_ ?_ h.idle (fun _ _ => rfl) ?_
    · rintro semaphore ⟨⟩
      exact hown
    · exact le_rfl
    · rintro permit ⟨⟩
      exact h.made _ hown

lemma Sound.recordGeneration {g : ℕ} {resource : T}
    (h : Sound capacity slot (.recording permit resource g ::ₘ rest)) :
    Sound capacity (slot.recordGeneration capacity g)
      (.leased ⟨resource, g, permit⟩ ::ₘ rest) := by
  have hown : slot.current = some permit := h.uses _ (Multiset.mem_cons_self _ _) _ rfl
  obtain ⟨_ | state, made, permits⟩ := slot
  · cases hown
  · refine h.change rfl rfl ?_ le_rfl h.idle (fun _ _ => rfl) ?_
    · rintro semaphore ⟨⟩
      exact hown
    · rintro permit ⟨⟩
      exact h.made _ hown

/-- A connection that is given back keeps its permit. -/
lemma Sound.returnHealthy (h : Sound capacity slot (.leased lease ::ₘ rest)) :
    Sound capacity (slot.returnHealthy capacity lease) (.finished ::ₘ rest) := by
  have hown : slot.current = some lease.permit := h.uses _ (Multiset.mem_cons_self _ _) _ rfl
  obtain ⟨_ | state, made, permits⟩ := slot
  · cases hown
  · refine h.change rfl rfl ?_ ?_ ?_ ?_ ?_
    · rintro semaphore ⟨⟩
    · change state.active + 0 ≤ state.active - 1 + 1
      omega
    · intro e he
      rcases mem_cons.1 he with rfl | he
      · exact hown
      · exact h.idle e he
    · intro semaphore hs
      obtain rfl : lease.permit = semaphore := Option.some.inj (hown.symm.trans hs)
      change permits lease.permit + 0 + (state.idle.length + 1) =
        permits lease.permit + (if some lease.permit = some lease.permit then 1 else 0) +
          state.idle.length
      rw [if_pos rfl]
      omega
    · rintro permit ⟨⟩

/-- The semaphore that is looked up is the one of the entry. -/
lemma Sound.poolHandles (hcapacity : 1 ≤ capacity) (h : Sound capacity slot (.looking ::ₘ rest)) :
    Sound capacity (slot.poolHandles capacity).1
      (.handles (slot.poolHandles capacity).2 ::ₘ rest) := by
  have hfound : Sound capacity (slot.orInsertNew capacity).1 (.looking ::ₘ rest) := by
    cases hentry : slot.entry with
    | none => exact h.insert hcapacity hentry
    | some state =>
      rw [Slot.orInsertNew, hentry]
      exact h
  have hcurrent : (slot.orInsertNew capacity).1.current =
      some (slot.orInsertNew capacity).2.semaphore := by
    obtain ⟨_ | state, made, permits⟩ := slot <;> rfl
  refine hfound.change rfl rfl ?_ le_rfl hfound.idle (fun _ _ => rfl) ?_
  · rintro semaphore ⟨⟩
    exact hcurrent
  · rintro permit ⟨⟩

/-- The last of the connections takes the entry with it. -/
lemma Sound.discard (h : Sound capacity slot (.discarding ::ₘ rest))
    (hbetween : ∀ state ∈ slot.entry, state.active ≤ 1 → state.idle = [] →
      ∀ phase ∈ rest, phase.between = false) :
    Sound capacity slot.discard (.finished ::ₘ rest) := by
  rw [Slot.discard_eq]
  have hunmarked : Sound capacity slot.unmarkActiveAndNotify (.finished ::ₘ rest) :=
    h.unmark rfl rfl rfl rfl
  refine hunmarked.removeUnused ?_
  intro state hstate hactive hidle
  obtain ⟨state', hentry, rfl⟩ := Option.map_eq_some_iff.1 hstate
  have hold := hbetween state' hentry (Nat.sub_eq_zero_iff_le.1 hactive) hidle
  exact Multiset.forall_mem_cons.2 ⟨rfl, hold⟩

/-- **Every step of a call keeps its key sound**, where an entry that is removed is not used by a
call that stands between. -/
theorem Sound.move (hcapacity : 1 ≤ capacity) (h : Sound capacity slot (phase ::ₘ rest))
    {m : Move T} (hmove : move capacity generation slot phase m = some (slot', phase'))
    (hbetween : phase.discards m = true → ∀ state ∈ slot.entry, state.active ≤ 1 → state.idle = [] →
      ∀ phase ∈ rest, phase.between = false) :
    Sound capacity slot' (phase' ::ₘ rest) := by
  revert hmove hbetween
  fun_cases ConnectionPool.move capacity generation slot phase m <;> intro hmove hbetween <;>
    cases hmove
  · exact h.checkoutIdle ‹_› rfl
  · exact h.leave rfl rfl rfl
  · rename_i hhandles
    obtain ⟨rfl, rfl⟩ := Prod.ext_iff.1 hhandles
    exact h.poolHandles hcapacity
  · exact h.tryAcquire ‹_›
  · exact h.leave rfl rfl rfl
  · exact h.checkoutIdle ‹_› rfl
  · exact h.leave rfl rfl rfl
  · exact h.leave rfl rfl rfl
  · exact h.leave rfl rfl rfl
  · exact h.leave rfl rfl rfl
  · exact h.leave rfl rfl rfl
  · exact h.markActive
  · exact h.goOn (fun _ => id) id rfl
  · exact h.goOn (by simp [Phase.uses]) id rfl
  · -- the call stays counted as active
    exact h.release rfl rfl rfl (by simp [Phase.marked])
  · exact h.goOn (fun _ => id) id rfl
  · exact h.recordGeneration
  · exact h.unmark rfl rfl rfl rfl
  · exact h.release rfl rfl rfl (by simp [Phase.marked])
  · exact h.returnHealthy
  · exact h.release rfl rfl rfl id
  · exact h.discard (hbetween rfl)

lemma countP_le {p q : Phase T → Prop} [DecidablePred p] [DecidablePred q]
    (h : ∀ phase ∈ phases, p phase → q phase) : phases.countP p ≤ phases.countP q := by
  induction phases using Quotient.inductionOn with
  | h l => exact countP_mono_left fun phase hphase => by simpa using h phase hphase

/-- A sound key has no more connections than its semaphore has permits. -/
lemma Sound.connections_le (h : Sound capacity slot phases) :
    phases.countP (·.outstanding) + slot.idle.length ≤ capacity := by
  cases hcurrent : slot.current with
  | none =>
    have hnone : phases.countP (·.outstanding) = 0 := by
      rw [Multiset.countP_eq_zero]
      intro phase hphase hout
      obtain ⟨semaphore, huses, -⟩ := Phase.uses_of_outstanding hout
      have := h.uses phase hphase semaphore huses
      rw [hcurrent] at this
      cases this
    have hidle : slot.idle = [] := by
      rw [eq_nil_iff_forall_not_mem]
      intro e he
      have := h.idle e he
      rw [hcurrent] at this
      cases this
    rw [hnone, hidle]
    exact Nat.zero_le _
  | some semaphore =>
    have hle : phases.countP (·.outstanding) ≤ phases.countP (·.permit = some semaphore) := by
      refine countP_le fun phase hphase hout => ?_
      obtain ⟨semaphore', huses, hpermit⟩ := Phase.uses_of_outstanding hout
      have hsame := h.uses phase hphase semaphore' huses
      rw [hpermit, ← hsame, hcurrent]
    have hpermits := h.permits semaphore hcurrent
    omega

end Sound

/-! ### The pool -/

lemma Sound.start {capacity : ℕ} {slot : Slot T} {phases : Multiset (Phase T)}
    (h : Sound capacity slot phases) : Sound capacity slot (.start ::ₘ phases) where
  uses := Multiset.forall_mem_cons.2 ⟨by simp [Phase.uses], h.uses⟩
  marked := by
    rw [Multiset.countP_cons_of_neg _ (by simp [Phase.marked])]
    exact h.marked
  idle := h.idle
  permits semaphore hs := by
    rw [Multiset.countP_cons_of_neg _ (by simp [Phase.permit])]
    exact h.permits semaphore hs
  made := h.made
  held := Multiset.forall_mem_cons.2 ⟨by simp [Phase.permit], h.held⟩

/-- One of a list, and the list with another in its place. -/
lemma exists_split {α : Type*} {l : List α} {a : α} {i : ℕ} (h : l[i]? = some a) :
    ∃ before behind, l = before ++ a :: behind ∧ ∀ b, l.set i b = before ++ b :: behind := by
  obtain ⟨hi, rfl⟩ := List.getElem?_eq_some_iff.1 h
  refine ⟨l.take i, l.drop (i + 1), ?_, fun b => ?_⟩
  · rw [← List.drop_eq_getElem_cons hi, List.take_append_drop]
  · rw [List.set_eq_take_append_cons_drop, if_pos hi]

namespace ManagedPool

section Tasks

variable {tasks : List (Task K T)} {i : ℕ} {task : Task K T}

variable [DecidableEq K] {key : K}

lemma phasesOf_set_ne (htask : tasks[i]? = some task) (hkey : task.key ≠ key) (phase : Phase T) :
    phasesOf key (tasks.set i ⟨task.key, phase⟩) = phasesOf key tasks := by
  obtain ⟨before, behind, htasks, hset⟩ := exists_split htask
  rw [hset, htasks]
  simp [phasesOf, hkey]

lemma exists_phasesOf (htask : tasks[i]? = some task) :
    ∃ rest : Multiset (Phase T), ↑(phasesOf task.key tasks) = task.phase ::ₘ rest ∧
      ∀ phase, ↑(phasesOf task.key (tasks.set i ⟨task.key, phase⟩)) = phase ::ₘ rest := by
  obtain ⟨before, behind, htasks, hset⟩ := exists_split htask
  refine ⟨↑(phasesOf task.key before ++ phasesOf task.key behind), ?_, fun phase => ?_⟩
  · rw [htasks, Multiset.cons_coe]
    simp [phasesOf]
  · rw [hset, Multiset.cons_coe]
    simp [phasesOf]

end Tasks

variable [DecidableEq K] {key : K} {pool pool' : ManagedPool K T} {n : ℕ}

def SoundAt (n : ℕ) (key : K) (pool : ManagedPool K T) : Prop :=
  pool.capacity = n ∧ Sound n (pool.slots key) ↑(phasesOf key pool.tasks)

lemma SoundAt.step (hn : 1 ≤ n) {event : Event K T} (h : SoundAt n key pool)
    (hquiet : Undisturbed key pool event) (hstep : pool.step event = some pool') :
    SoundAt n key pool' := by
  obtain ⟨hcapacity, hsound⟩ := h
  cases event with
  | checkoutOrCreateWith key' =>
    cases hstep
    refine ⟨hcapacity, ?_⟩
    by_cases hkey : key' = key
    · have hphases : (↑(phasesOf key (pool.tasks ++ [⟨key', .start⟩])) : Multiset (Phase T)) =
          .start ::ₘ ↑(phasesOf key pool.tasks) := by
        simp [phasesOf, hkey]
      rw [hphases]
      exact hsound.start
    · have hphases : phasesOf key (pool.tasks ++ [⟨key', .start⟩]) = phasesOf key pool.tasks := by
        simp [phasesOf, hkey]
      rw [hphases]
      exact hsound
  | move i m =>
    obtain ⟨task, htask, hmap⟩ := Option.bind_eq_some_iff.1 hstep
    obtain ⟨⟨slot, phase⟩, hmove, rfl⟩ := Option.map_eq_some_iff.1 hmap
    refine ⟨hcapacity, ?_⟩
    by_cases hkey : task.key = key
    · subst hkey
      obtain ⟨rest, hphases, hphases'⟩ := exists_phasesOf htask
      rw [hphases] at hsound
      rw [hcapacity] at hmove
      simp only [update_self, hphases']
      refine hsound.move hn hmove fun hdiscards state hstate hactive hidle phase hphase => ?_
      have hmem : phase ∈ phasesOf task.key pool.tasks := by
        rw [← Multiset.mem_coe, hphases]
        exact Multiset.mem_cons_of_mem hphase
      exact hquiet ⟨⟨task, htask, rfl, hdiscards⟩, state, hstate, hactive, hidle⟩ phase hmem
    · simp only [update_of_ne (Ne.symm hkey), phasesOf_set_ne htask hkey]
      exact hsound
  | invalidateGeneration key' generation =>
    cases hstep
    refine ⟨hcapacity, ?_⟩
    by_cases hkey : key' = key
    · subst hkey
      simp only [update_self]
      exact hsound.retainIdle _
    · simp only [update_of_ne (Ne.symm hkey)]
      exact hsound
  | discardIdleWhere shouldDiscard =>
    cases hstep
    refine ⟨hcapacity, hsound.retainUsed _ fun state hstate hactive hidle => ?_⟩
    exact hquiet ⟨state, hstate, hactive, fun e he => by simpa using hidle e he⟩
  | pruneIdleWith fresh isAlive =>
    cases hstep
    refine ⟨hcapacity, hsound.retainUsed _ fun state hstate hactive hidle => ?_⟩
    exact hquiet ⟨state, hstate, hactive, hidle⟩

/-- **No key has more connections than the capacity** in a run in which no entry is removed while a
call stands between looking up its semaphore and being counted as active. -/
theorem connections_le_capacity (hn : 1 ≤ n) (key : K) {events : List (Event K T)}
    (hquiet : Meets step (Undisturbed key) (new n) events)
    (hrun : run step (new n) events = some pool) : pool.connections key ≤ n := by
  have hnew : SoundAt n key (new n : ManagedPool K T) := by
    refine ⟨max_eq_left hn, ?_, Nat.zero_le _, ?_, ?_, ?_, ?_⟩
    · rintro phase ⟨⟩
    · rintro e ⟨⟩
    · rintro semaphore ⟨⟩
    · rintro semaphore ⟨⟩
    · rintro phase ⟨⟩
  obtain ⟨-, hsound⟩ := run_invariant (SoundAt.step hn) hnew hquiet hrun
  simpa [connections] using hsound.connections_le

/-- Two calls with one permit: the second waits, and leases the connection when it is given back. It
discards it, the entry goes, and a third call makes a new one. -/
def handedOn : List (Event ℕ Unit) :=
  [.checkoutOrCreateWith 7, .checkoutOrCreateWith 7] ++ List.replicate 4 (.move 0 .turn) ++
    List.replicate 5 (.move 1 .turn) ++
    [.move 0 (.created (some ())), .move 0 .turn, .move 0 .turn, .move 0 .returnHealthy,
      .pruneIdleWith (fun _ => true) fun _ => true, .move 1 .turn, .move 1 .turn, .move 1 .discard,
      .move 1 .turn, .checkoutOrCreateWith 7] ++
    List.replicate 4 (.move 2 .turn)

theorem connections_le_capacity_handedOn :
    ∃ pool, run step (new 1) handedOn = some pool ∧ pool.connections 7 ≤ 1 := by
  have hsome : (run step (new 1) handedOn).isSome = true := by decide +kernel
  obtain ⟨pool, hrun⟩ := Option.isSome_iff_exists.1 hsome
  exact ⟨pool, hrun, connections_le_capacity le_rfl 7 (by decide +kernel) hrun⟩

/-- The entry is removed before the first call has taken a permit of its semaphore. -/
def pruned : List (Event ℕ Unit) :=
  [.checkoutOrCreateWith 7, .move 0 .turn, .move 0 .turn,
    .pruneIdleWith (fun _ => true) fun _ => true, .move 0 .turn, .move 0 .turn,
    .checkoutOrCreateWith 7, .move 1 .turn, .move 1 .turn, .move 1 .turn, .move 1 .turn]

theorem two_connections_of_one :
    (run step (new 1) pruned).map (·.connections 7) = some 2 := by
  decide +kernel

end ManagedPool

end CrossHostOps.ConnectionPool
