import Mathlib.Data.List.Count

/-!
Waiting to be notified. A notification is for one of those who wait, the one that has waited
longest, or for all of them. One that is given while nobody waits is kept for the next who comes; no
more than one is kept.
-/

namespace CrossHostOps.Notifications

open List

variable {ι : Type*}

/-- `calls` counts the notifications for all. Those who have been notified stay listed until they go
on, by the kind of their notification. -/
structure Notify (ι : Type*) where
  permit : Bool
  calls : ℕ
  waiters : List ι
  notified : List ι
  released : List ι
  /-- Nobody waits while a notification is kept. -/
  exclusive : permit = true → waiters = []

namespace Notify

def new : Notify ι := ⟨false, 0, [], [], [], fun _ => rfl⟩

variable (n : Notify ι)

def notifyOne : Notify ι :=
  match h : n.waiters with
  | [] => { n with permit := true, exclusive := fun _ => h }
  | i :: rest =>
    { n with
      waiters := rest
      notified := i :: n.notified
      exclusive := fun hp => absurd (h.symm.trans (n.exclusive hp)) (List.cons_ne_nil i rest) }

def notifyWaiters : Notify ι :=
  { n with
    calls := n.calls + 1
    waiters := []
    released := n.waiters ++ n.released
    exclusive := fun _ => rfl }

/-- A future is polled for the first time, `calls` being the count when it was made. It is ready,
or begins to wait. -/
def poll (calls : ℕ) (i : ι) : Notify ι × Bool :=
  if h : n.permit = true then ({ n with permit := false, exclusive := by simp }, true)
  else if n.calls ≠ calls then (n, true)
  else ({ n with waiters := n.waiters ++ [i], exclusive := fun hp => absurd hp h }, false)

variable [DecidableEq ι]

def ready (i : ι) : Bool := i ∈ n.notified ∨ i ∈ n.released

/-- A future that waits is polled, and goes on if it has been notified. -/
def resume (i : ι) : Option (Notify ι) :=
  if i ∈ n.notified then some { n with notified := n.notified.erase i }
  else if i ∈ n.released then some { n with released := n.released.erase i }
  else none

/-- A future that waits is dropped. A notification that was for one goes to the next. -/
def drop (i : ι) : Notify ι :=
  if i ∈ n.notified then { n with notified := n.notified.erase i }.notifyOne
  else if i ∈ n.released then { n with released := n.released.erase i }
  else { n with
    waiters := n.waiters.erase i
    exclusive := fun hp => by rw [n.exclusive hp, List.erase_nil] }

end Notify

/-! ### Who waits -/

namespace Notify

/-- The notifications for one which nobody has taken yet. -/
def signals (n : Notify ι) : ℕ := n.notified.length + if n.permit then 1 else 0

variable {n n' : Notify ι} {i j : ι} {calls : ℕ}

lemma waiters_notifyOne_ne_nil (h : n.notifyOne.waiters ≠ []) : n.waiters ≠ [] := by
  obtain ⟨permit, calls, _ | ⟨i, rest⟩, notified, released, exclusive⟩ := n
  · exact h
  · exact cons_ne_nil i rest

/-- A notification is lost only where one is kept already. -/
lemma signals_notifyOne (h : n.permit = false) : n.notifyOne.signals = n.signals + 1 := by
  obtain ⟨permit, calls, _ | ⟨i, rest⟩, notified, released, exclusive⟩ := n
  · obtain rfl : permit = false := h
    rfl
  · obtain rfl : permit = false := h
    rfl

variable [DecidableEq ι]

/-- The notification of a future that is dropped goes on, unless one is kept already. -/
lemma signals_drop (h : i ∈ n.notified → n.permit = false) : n.signals ≤ (n.drop i).signals := by
  unfold drop
  split_ifs with hone hall
  · have hlength := length_erase_of_mem hone
    rw [signals_notifyOne]
    · simp only [signals]
      omega
    · exact h hone
  · exact Nat.le_refl _
  · exact Nat.le_refl _

lemma waiters_drop_ne_nil (h : (n.drop i).waiters ≠ []) : n.waiters ≠ [] := by
  unfold drop at h
  split_ifs at h with hone hall
  · have hne := waiters_notifyOne_ne_nil h
    exact hne
  · exact h
  · exact fun hnil => h (by simp [hnil])

/-- How often somebody is listed: as waiting, or as notified. -/
def listed (n : Notify ι) (i : ι) : ℕ :=
  n.waiters.count i + n.notified.count i + n.released.count i

lemma mem_of_listed (h : 0 < n.listed i) (hready : n.ready i = false) : i ∈ n.waiters := by
  have hnot : i ∉ n.notified ∧ i ∉ n.released := by simpa [ready] using hready
  rw [listed, count_eq_zero.2 hnot.1, count_eq_zero.2 hnot.2] at h
  exact count_pos_iff.1 h

lemma listed_pos (h : i ∈ n.waiters ∨ i ∈ n.notified) : 0 < n.listed i := by
  have := h.imp count_pos_iff.2 count_pos_iff.2
  unfold listed
  omega

@[simp] lemma listed_notifyOne (n : Notify ι) (j : ι) : n.notifyOne.listed j = n.listed j := by
  obtain ⟨permit, calls, _ | ⟨i, rest⟩, notified, released, exclusive⟩ := n
  · rfl
  · change rest.count j + (i :: notified).count j + released.count j =
      (i :: rest).count j + notified.count j + released.count j
    rw [count_cons, count_cons]
    omega

@[simp] lemma listed_notifyWaiters (n : Notify ι) (j : ι) :
    n.notifyWaiters.listed j = n.listed j := by
  change 0 + n.notified.count j + (n.waiters ++ n.released).count j = _
  rw [count_append, listed]
  omega

/-- A future that is ready at once takes one notification at most. -/
lemma poll_ready (h : (n.poll calls i).2 = true) :
    n.signals ≤ (n.poll calls i).1.signals + 1 ∧ (n.poll calls i).1.waiters = n.waiters ∧
      ∀ j, (n.poll calls i).1.listed j = n.listed j := by
  unfold poll at h ⊢
  split_ifs at h ⊢ with hpermit
  · exact ⟨by simp [signals, hpermit], rfl, fun _ => rfl⟩
  · exact ⟨Nat.le_succ _, rfl, fun _ => rfl⟩

lemma poll_wait (h : (n.poll calls i).2 = false) :
    (n.poll calls i).1.signals = n.signals ∧
      ∀ j, (n.poll calls i).1.listed j = n.listed j + [i].count j := by
  unfold poll at h ⊢
  split_ifs at h ⊢
  refine ⟨rfl, fun j => ?_⟩
  simp only [listed, count_append]
  omega

lemma count_erase_add {l : List ι} (h : i ∈ l) (j : ι) :
    (l.erase i).count j + [i].count j = l.count j := by
  rw [Nat.add_comm, ← count_append]
  exact ((perm_cons_erase h).count_eq j).symm

lemma resume_some (h : n.resume i = some n') :
    n.signals ≤ n'.signals + 1 ∧ n'.waiters = n.waiters ∧
      ∀ j, n'.listed j + [i].count j = n.listed j := by
  unfold resume at h
  split_ifs at h with hone hall
  · cases h
    have hlength := length_erase_of_mem hone
    refine ⟨?_, rfl, fun j => ?_⟩
    · simp only [signals]
      omega
    · have := count_erase_add hone j
      simp only [listed]
      omega
  · cases h
    refine ⟨Nat.le_succ _, rfl, fun j => ?_⟩
    have := count_erase_add hall j
    simp only [listed]
    omega

lemma listed_drop (h : 0 < n.listed i) (j : ι) :
    (n.drop i).listed j + [i].count j = n.listed j := by
  unfold drop
  split_ifs with hone hall
  · have := count_erase_add hone j
    rw [listed_notifyOne]
    simp only [listed]
    omega
  · have := count_erase_add hall j
    simp only [listed]
    omega
  · have hwaits : i ∈ n.waiters := mem_of_listed h (by simp [ready, hone, hall])
    have := count_erase_add hwaits j
    simp only [listed]
    omega

end Notify

end CrossHostOps.Notifications
