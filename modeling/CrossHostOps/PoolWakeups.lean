import CrossHostOps.PoolWaiters

/-!
Why no call is left waiting in the pool: as long as somebody waits, or is about to, there is a
wakeup on its way for every idle connection and every permit. Wakeups are counted: the notifications
that have not been taken, the calls that come to `notify_one`, and the calls that have been woken
and still look.
-/

namespace CrossHostOps.PoolWaiters

open Runs Notifications List Function
open ConnectionPool (Slot PoolEntry PoolLease Move Event)

variable {T : Type*}

/-! ### Wakeups cover what is available -/

namespace Call

/-- A call that is about to notify, or that has been woken and is going to look for an idle
connection. -/
def early : Call T → Bool
  | ⟨.discarding, _⟩ => true
  | ⟨.start, woken⟩ => woken
  | _ => false

/-- A call that has been woken, and has found no idle connection so far. -/
def late : Call T → Bool
  | ⟨.looking, woken⟩ | ⟨.handles _, woken⟩ | ⟨.refused _, woken⟩ | ⟨.listening _ _, woken⟩
  | ⟨.checking _ _, woken⟩ => woken
  | _ => false

end Call

/-- Somebody waits, or is on the way there. -/
def Someone (p : Phase T → Bool) (shared : Shared T) (calls : Multiset (Call T)) (n : ℕ) : Prop :=
  (∃ call ∈ calls, p call.phase = true) ∨ (shared.notify n).waiters ≠ []

/-- There are wakeups for all idle connections once somebody has found none, and for all permits too
once somebody has found none of these either. -/
structure Covered (shared : Shared T) (calls : Multiset (Call T)) : Prop where
  current : ∀ call ∈ calls, ∀ n ∈ call.phase.handle, shared.slot.current = some n
  idle : ∀ n ∈ shared.slot.current, Someone Phase.checked shared calls n →
    shared.slot.idle.length ≤ (shared.notify n).signals + calls.countP (·.early)
  all : ∀ n ∈ shared.slot.current, Someone Phase.parks shared calls n →
    shared.slot.permits n + shared.slot.idle.length + calls.countP (·.phase.owes n) ≤
      (shared.notify n).signals + calls.countP (·.early) + calls.countP (·.late)

variable {i n : ℕ} {shared shared' : Shared T} {slot : Slot T} {call call' : Call T}
  {phase phase' : Phase T} {m : Move T}

section Covered

variable {lease : PoolLease T} {calls rest : Multiset (Call T)}

lemma Phase.checked_of_parks (h : phase.parks = true) : phase.checked = true := by
  cases phase <;> first | rfl | cases h

lemma Phase.handle_of_checked (h : phase.checked = true) : ∃ n, phase.handle = some n := by
  cases phase <;> first | exact ⟨_, rfl⟩ | cases h

lemma Phase.handle_of_waitsOn (h : phase.waitsOn = some n) : phase.handle = some n := by
  cases phase <;> first | exact h | cases h

lemma Phase.checked_of_handle (h : phase.handle = none) :
    phase.checked = false := by
  refine Bool.eq_false_iff.2 fun hp => ?_
  obtain ⟨n, hn⟩ := handle_of_checked hp
  rw [h] at hn
  cases hn

lemma Phase.parks_of_checked (h : phase.checked = false) :
    phase.parks = false :=
  Bool.eq_false_iff.2 fun hp => Bool.eq_false_iff.1 h (checked_of_parks hp)

lemma Call.early_add_late_le (call : Call T) : call.early.toNat + call.late.toNat ≤ 1 := by
  obtain ⟨phase, _ | _⟩ := call <;> cases phase <;> simp [early, late]

lemma Someone.mono {p q : Phase T → Bool} (hpq : ∀ phase, p phase = true → q phase = true)
    (h : Someone p shared calls n) : Someone q shared calls n :=
  h.imp (fun ⟨call, hcall, hp⟩ => ⟨call, hcall, hpq _ hp⟩) id

/-- Who waits after a step of a call did so before. -/
lemma Someone.before {p : Phase T → Bool} (h : Someone p shared' (call' ::ₘ rest) n)
    (hcall : p call'.phase = true → p call.phase = true)
    (hwaiters : (shared'.notify n).waiters ≠ [] →
      (shared.notify n).waiters ≠ [] ∨ p call.phase = true) :
    Someone p shared (call ::ₘ rest) n := by
  obtain ⟨c, hc, hp⟩ | hw := h
  · obtain rfl | hrest := Multiset.mem_cons.1 hc
    · exact .inl ⟨call, Multiset.mem_cons_self _ _, hcall hp⟩
    · exact .inl ⟨c, Multiset.mem_cons_of_mem hrest, hp⟩
  · obtain hw | hp := hwaiters hw
    · exact .inr hw
    · exact .inl ⟨call, Multiset.mem_cons_self _ _, hp⟩

/-- Where nobody is about to wait, there is nothing to cover. -/
lemma Covered.vacant (hcurrent : ∀ call ∈ calls, ∀ n ∈ call.phase.handle,
      shared.slot.current = some n)
    (hnobody : ∀ n ∈ shared.slot.current, ¬ Someone Phase.checked shared calls n) :
    Covered shared calls where
  current := hcurrent
  idle n hn hsome := absurd hsome (hnobody n hn)
  all n hn hsome := absurd (hsome.mono fun _ => Phase.checked_of_parks) (hnobody n hn)

lemma countP_cons_eq (p : Call T → Bool) (call : Call T) (rest : Multiset (Call T)) :
    (call ::ₘ rest).countP (p · = true) = rest.countP (p · = true) + (p call).toNat := by
  rw [Multiset.countP_cons]
  cases p call <;> rfl

/-- The connections of an entry are the same. -/
def Same (slot slot' : Slot T) : Prop :=
  slot'.current = slot.current ∧ slot'.permits = slot.permits ∧ slot'.idle = slot.idle

lemma Shared.notify_notifying (h : n ∈ shared.slot.current) (f : Notify ℕ → Notify ℕ) :
    (shared.notifying f).notify n = f (shared.notify n) := by
  have hcurrent : shared.slot.current = some n := h
  simp [notifying, hcurrent, setNotify]

lemma Shared.notify_notifying_ne (h : n ∉ shared.slot.current) (f : Notify ℕ → Notify ℕ) :
    (shared.notifying f).notify n = shared.notify n := by
  unfold notifying
  split
  · rfl
  · rename_i current hcurrent
    have hne : n ≠ current := by
      rintro rfl
      exact h hcurrent
    simp [setNotify, update_of_ne hne]

lemma Shared.waiters_notifying (h : (shared.notify n).waiters = []) :
    ((shared.notifying Notify.notifyOne).notify n).waiters = [] := by
  by_cases hn : n ∈ shared.slot.current
  · rw [notify_notifying hn]
    by_contra hw
    exact Notify.waiters_notifyOne_ne_nil hw h
  · rw [notify_notifying_ne hn]
    exact h

lemma idle_eq_nil (h : shared.slot.checkoutIdle = none) : shared.slot.idle = [] := by
  obtain ⟨⟨_ | ⟨semaphore, _ | ⟨e, idle⟩, active, latest⟩, made, permits⟩, notify⟩ := shared
  · rfl
  · rfl
  · cases h

namespace Covered

variable (h : Covered shared (call ::ₘ rest))

include h

/-- A call goes on while the entry stays: what becomes available is matched by wakeups. -/
lemma change (hcurrent : shared'.slot.current = shared.slot.current)
    (hhandle : ∀ n ∈ call'.phase.handle, shared.slot.current = some n)
    (hwaiters : ∀ n ∈ shared.slot.current, (shared'.notify n).waiters ≠ [] →
      (shared.notify n).waiters ≠ [] ∨ call.phase.parks = true)
    (hparks : call'.phase.parks = true → call.phase.parks = true)
    (hidle : shared'.slot.idle = [] ∨ (call'.phase.checked = true → call.phase.checked = true) ∧
      ∀ n ∈ shared.slot.current,
        shared'.slot.idle.length + (shared.notify n).signals + call.early.toNat ≤
          shared.slot.idle.length + (shared'.notify n).signals + call'.early.toNat)
    (hall : ∀ n ∈ shared.slot.current, Someone Phase.parks shared' (call' ::ₘ rest) n →
      shared'.slot.permits n + shared'.slot.idle.length + (call'.phase.owes n).toNat +
          ((shared.notify n).signals + call.early.toNat + call.late.toNat) ≤
        shared.slot.permits n + shared.slot.idle.length + (call.phase.owes n).toNat +
          ((shared'.notify n).signals + call'.early.toNat + call'.late.toNat)) :
    Covered shared' (call' ::ₘ rest) := by
  refine ⟨?_, ?_, ?_⟩
  · rw [hcurrent]
    exact Multiset.forall_mem_cons.2 ⟨hhandle, (Multiset.forall_mem_cons.1 h.current).2⟩
  · intro n hn hsome
    rw [hcurrent] at hn
    obtain hnil | ⟨hchecked, hle⟩ := hidle
    · rw [hnil]
      exact Nat.zero_le _
    have hbefore : Someone Phase.checked shared (call ::ₘ rest) n :=
      hsome.before hchecked fun hw => (hwaiters n hn hw).imp_right Phase.checked_of_parks
    have hold := h.idle n hn hbefore
    have hnew := hle n hn
    rw [countP_cons_eq Call.early] at hold ⊢
    omega
  · intro n hn hsome
    rw [hcurrent] at hn
    have hold := h.all n hn (hsome.before hparks (hwaiters n hn))
    have hnew := hall n hn hsome
    rw [countP_cons_eq Call.early, countP_cons_eq Call.late,
      countP_cons_eq (·.phase.owes n)] at hold ⊢
    omega

/-- A call goes on by itself. -/
lemma goOn (hsame : Same shared.slot slot)
    (hhandle : ∀ n ∈ call'.phase.handle, shared.slot.current = some n)
    (hparks : call'.phase.parks = false)
    (hearly : shared.slot.idle = [] ∨ call'.phase.checked = false ∧
      call.early.toNat ≤ call'.early.toNat)
    (hlate : ∀ n, (call'.phase.owes n).toNat + call.early.toNat + call.late.toNat ≤
      (call.phase.owes n).toNat + call'.early.toNat + call'.late.toNat) :
    Covered { shared with slot } (call' ::ₘ rest) := by
  obtain ⟨hcurrent, hpermits, hidle⟩ := hsame
  refine h.change hcurrent hhandle (fun n _ hw => .inl hw) (by simp [hparks]) ?_ ?_
  · rw [hidle]
    refine hearly.imp_right fun ⟨hchecked, hle⟩ => ⟨by simp [hchecked], fun n _ => ?_⟩
    dsimp only
    omega
  · intro n _ _
    have hle := hlate n
    rw [hpermits, hidle]
    dsimp only
    omega

/-- The entry is made anew; the calls that are there do not have its handles. -/
lemma insert (hnone : shared.slot.current = none)
    (hwaiters : ∀ n, (shared'.notify n).waiters = [])
    (hhandle : ∀ n ∈ call'.phase.handle, shared'.slot.current = some n)
    (hchecked : call'.phase.checked = false) : Covered shared' (call' ::ₘ rest) := by
  have hrest : ∀ c ∈ rest, c.phase.handle = none := by
    intro c hc
    rw [Option.eq_none_iff_forall_not_mem]
    intro n hn
    have := h.current c (Multiset.mem_cons_of_mem hc) n hn
    rw [hnone] at this
    cases this
  refine Covered.vacant ?_ ?_
  · refine Multiset.forall_mem_cons.2 ⟨hhandle, fun c hc n hn => ?_⟩
    rw [hrest c hc] at hn
    cases hn
  · rintro n - (⟨c, hc, hp⟩ | hw)
    · obtain rfl | hc := Multiset.mem_cons.1 hc
      · rw [hchecked] at hp
        cases hp
      · obtain ⟨n', hn'⟩ := Phase.handle_of_checked hp
        rw [hrest c hc] at hn'
        cases hn'
    · exact hw (hwaiters n)

/-- A section that makes the entry where there is none, and does nothing else that matters here. -/
lemma enter (hnobody : shared.slot.current = none → ∀ n, (shared.notify n).waiters = [])
    (hslot : shared.slot.current ≠ none → Same shared.slot slot)
    (hhandle : ∀ n ∈ call'.phase.handle, slot.current = some n)
    (hchecked : call'.phase.checked = false) (hearly : call.early = false)
    (hlate : ∀ n, (call'.phase.owes n).toNat + call.late.toNat ≤ call'.late.toNat) :
    Covered { shared with slot } (call' ::ₘ rest) := by
  by_cases hnone : shared.slot.current = none
  · exact h.insert hnone (hnobody hnone) hhandle hchecked
  · have hsame := hslot hnone
    refine h.goOn hsame (fun n hn => hsame.1 ▸ hhandle n hn)
      (Phase.parks_of_checked hchecked) (.inr ⟨hchecked, ?_⟩) fun n => ?_
    · rw [hearly]
      exact Nat.zero_le _
    · have hle := hlate n
      rw [hearly]
      simp only [Bool.toNat_false]
      omega

/-- A notification is lost, but nobody is about to wait. -/
lemma lost (hcurrent : shared'.slot.current = shared.slot.current) (hn : n ∈ shared.slot.current)
    (hhandle : call'.phase.handle = none) (hwaiters : (shared'.notify n).waiters = [])
    (hchecked : ∀ c ∈ call ::ₘ rest, c.phase.checked = false) :
    Covered shared' (call' ::ₘ rest) := by
  refine Covered.vacant ?_ ?_
  · refine Multiset.forall_mem_cons.2 ⟨by simp [hhandle], ?_⟩
    rw [hcurrent]
    exact (Multiset.forall_mem_cons.1 h.current).2
  · intro n' hn'
    rw [hcurrent] at hn'
    obtain rfl : n' = n := Option.mem_unique hn' hn
    rintro (⟨c, hc, hp⟩ | hw)
    · obtain rfl | hc := Multiset.mem_cons.1 hc
      · simp [Phase.checked_of_handle hhandle] at hp
      · simp [hchecked c (Multiset.mem_cons_of_mem hc)] at hp
    · exact hw hwaiters

/-- A call notifies as it goes on. -/
lemma notify (hcalm : ∀ n ∈ shared.slot.current, (shared.notify n).permit = true →
      ∀ c ∈ call ::ₘ rest, c.phase.checked = false)
    (hcurrent : slot.current = shared.slot.current) (hhandle : call'.phase.handle = none)
    (hidle : slot.idle.length + call.early.toNat ≤ shared.slot.idle.length + 1)
    (hall : ∀ n, slot.permits n + slot.idle.length + (call'.phase.owes n).toNat + call.early.toNat +
        call.late.toNat ≤
      shared.slot.permits n + shared.slot.idle.length + (call.phase.owes n).toNat + 1) :
    Covered { shared.notifying Notify.notifyOne with slot } (call' ::ₘ rest) := by
  have hnext := Phase.checked_of_handle hhandle
  by_cases hkept : ∃ n ∈ shared.slot.current, (shared.notify n).permit = true
  · obtain ⟨n, hn, hpermit⟩ := hkept
    refine h.lost hcurrent hn hhandle ?_ (hcalm n hn hpermit)
    exact Shared.waiters_notifying ((shared.notify n).exclusive hpermit)
  · have hsignals : ∀ n ∈ shared.slot.current,
        ((shared.notifying Notify.notifyOne).notify n).signals = (shared.notify n).signals + 1 := by
      intro n hn
      have hpermit : (shared.notify n).permit = false := by
        simpa using fun hp => hkept ⟨n, hn, hp⟩
      rw [Shared.notify_notifying hn, Notify.signals_notifyOne hpermit]
    refine h.change hcurrent (by simp [hhandle]) ?_ (by simp [Phase.parks_of_checked hnext])
      (.inr ⟨by simp [hnext], ?_⟩) ?_
    · intro n hn hw
      rw [Shared.notify_notifying hn] at hw
      exact .inl (Notify.waiters_notifyOne_ne_nil hw)
    · intro n hn
      have := hsignals n hn
      dsimp only
      omega
    · intro n hn _
      have := hsignals n hn
      have := hall n
      dsimp only
      omega

/-- A call that has the handles of the entry has something to do with its `Notify`. -/
lemma setNotify {notify : Notify ℕ} (hhandle : n ∈ call.phase.handle)
    (hhandle' : ∀ n' ∈ call'.phase.handle, n' = n) (hchecked : call'.phase.checked = false)
    (hwaiters : notify.waiters ≠ [] → (shared.notify n).waiters ≠ [] ∨ call.phase.parks = true)
    (hsignals : (shared.notify n).signals + call.early.toNat ≤
      notify.signals + call'.early.toNat)
    (hlate : call.late.toNat ≤ call'.late.toNat) (howes : ∀ n, call'.phase.owes n = false) :
    Covered (shared.setNotify n notify) (call' ::ₘ rest) := by
  have hcurrent : shared.slot.current = some n :=
    h.current call (Multiset.mem_cons_self _ _) n hhandle
  have hsame : (shared.setNotify n notify).notify n = notify := update_self _ _ _
  refine h.change rfl ?_ ?_ (by simp [Phase.parks_of_checked hchecked])
    (.inr ⟨by simp [hchecked], ?_⟩) ?_
  · intro n' hn'
    rw [hhandle' n' hn']
    exact hcurrent
  · intro n' hn' hw
    obtain rfl : n' = n := Option.mem_unique hn' hcurrent
    rw [hsame] at hw
    exact hwaiters hw
  · intro n' hn'
    obtain rfl : n' = n := Option.mem_unique hn' hcurrent
    rw [hsame]
    change shared.slot.idle.length + _ + _ ≤ _
    omega
  · intro n' hn' _
    obtain rfl : n' = n := Option.mem_unique hn' hcurrent
    rw [hsame, howes]
    change shared.slot.permits n' + shared.slot.idle.length + 0 + _ ≤ _
    omega

lemma found (hfound : shared.slot.checkoutIdle = some (slot, lease))
    (howes : ∀ n, call.phase.owes n = false) :
    Covered { shared with slot } (⟨.leased lease, false⟩ ::ₘ rest) := by
  have hone := call.early_add_late_le
  obtain ⟨hcurrent, -, hpermits, -, e, hidle, -⟩ := ConnectionPool.Slot.of_checkoutIdle hfound
  have hlength : shared.slot.idle.length = slot.idle.length + 1 := by rw [hidle, length_cons]
  refine h.change hcurrent (by simp [Phase.handle]) (fun n _ hw => .inl hw) (by simp [Phase.parks])
    (.inr ⟨by simp [Phase.checked], fun n _ => ?_⟩) fun n _ _ => ?_
  · change slot.idle.length + (shared.notify n).signals + _ ≤ _ + (shared.notify n).signals + 0
    omega
  · rw [howes, hpermits]
    change _ + slot.idle.length + 0 + _ ≤ _ + 0 + ((shared.notify n).signals + 0 + 0)
    omega

lemma acquire (hacquire : shared.slot.tryAcquire n = some slot)
    (hcurrent : shared.slot.current = some n) (hhandle : call'.phase.handle = none)
    (howes : ∀ n, call'.phase.owes n = false)
    (hearly : call.early = false) (hlate : call.late.toNat ≤ 1) :
    Covered { shared with slot } (call' ::ₘ rest) := by
  have hchecked := Phase.checked_of_handle hhandle
  unfold Slot.tryAcquire at hacquire
  split_ifs at hacquire with hpos
  cases hacquire
  refine h.change rfl (by simp [hhandle]) (fun n _ hw => .inl hw)
    (by simp [Phase.parks_of_checked hchecked]) (.inr ⟨by simp [hchecked], fun n' _ => ?_⟩)
    fun n' hn' _ => ?_
  · rw [hearly]
    exact Nat.le_add_right _ _
  · obtain rfl : n' = n := Option.mem_unique hn' hcurrent
    simp only [howes, hearly, update_self, Slot.idle, Bool.toNat_false]
    omega

lemma release {permit : ℕ} (hhandle : call'.phase.handle = none) (hearly : call.early = false)
    (hlate : call.late = false)
    (hall : ∀ n ∈ shared.slot.current, Someone Phase.parks shared (call' ::ₘ rest) n →
      (if n = permit then 1 else 0) + (call'.phase.owes n).toNat ≤
        (call.phase.owes n).toNat + call'.early.toNat) :
    Covered { shared with slot := shared.slot.release permit } (call' ::ₘ rest) := by
  have hchecked := Phase.checked_of_handle hhandle
  refine h.change rfl (by simp [hhandle]) (fun n _ hw => .inl hw)
    (by simp [Phase.parks_of_checked hchecked]) (.inr ⟨by simp [hchecked], fun n _ => ?_⟩)
    fun n hn hsome => ?_
  · rw [hearly]
    exact Nat.le_add_right _ _
  · have hle := hall n hn hsome
    simp only [hearly, hlate, Slot.release, Slot.idle, update_apply, Bool.toNat_false]
    split_ifs at hle ⊢ with hpermit
    · subst hpermit
      omega
    · omega

end Covered

lemma Covered.drop {i : ℕ} {woken : Bool} (h : Covered shared (⟨.waiting n, woken⟩ ::ₘ rest))
    (hcalm : i ∈ (shared.notify n).notified → (shared.notify n).permit = true →
      ∀ c ∈ (⟨.waiting n, woken⟩ : Call T) ::ₘ rest, c.phase.checked = false) :
    Covered (shared.setNotify n ((shared.notify n).drop i)) (⟨.finished, false⟩ ::ₘ rest) := by
  by_cases hlost : i ∈ (shared.notify n).notified ∧ (shared.notify n).permit = true
  · have hcurrent : shared.slot.current = some n :=
      h.current _ (Multiset.mem_cons_self _ _) n rfl
    refine h.lost rfl hcurrent rfl ?_ (hcalm hlost.1 hlost.2)
    simp only [Shared.setNotify, update_self]
    by_contra hw
    exact Notify.waiters_drop_ne_nil hw ((shared.notify n).exclusive hlost.2)
  · refine h.setNotify rfl (by simp [Phase.handle]) rfl
      (fun hw => .inl (Notify.waiters_drop_ne_nil hw)) ?_ (Nat.zero_le _) fun _ => rfl
    refine Notify.signals_drop fun hnotified => ?_
    simpa using fun hp => hlost ⟨hnotified, hp⟩

/-- A call that has found no idle connection finds no permit either. -/
lemma Covered.park {n calls : ℕ} {woken : Bool}
    (h : Covered shared (⟨.checking n calls, woken⟩ ::ₘ rest))
    (hpermits : shared.slot.permits n = 0) (howes : ∀ c ∈ rest, c.phase.owes n = false) :
    Covered shared (⟨.parking n calls, false⟩ ::ₘ rest) := by
  have hself := Multiset.mem_cons_self (⟨.checking n calls, woken⟩ : Call T) rest
  have hcurrent : shared.slot.current = some n := h.current _ hself n rfl
  have hchecked : Someone Phase.checked shared (⟨.checking n calls, woken⟩ ::ₘ rest) n :=
    .inl ⟨_, hself, rfl⟩
  have hidle := h.idle n hcurrent hchecked
  rw [countP_cons_eq Call.early] at hidle
  refine ⟨?_, ?_, ?_⟩
  · refine Multiset.forall_mem_cons.2 ⟨?_, (Multiset.forall_mem_cons.1 h.current).2⟩
    rintro n' ⟨⟩
    exact hcurrent
  · intro n' hn' _
    obtain rfl : n' = n := Option.mem_unique hn' hcurrent
    rw [countP_cons_eq Call.early]
    exact hidle
  · intro n' hn' _
    obtain rfl : n' = n := Option.mem_unique hn' hcurrent
    have hnone : rest.countP (fun c => c.phase.owes n' = true) = 0 :=
      Multiset.countP_eq_zero.2 fun c hc => by simp [howes c hc]
    rw [countP_cons_eq Call.early, countP_cons_eq (·.phase.owes n'), hnone]
    simp only [Phase.owes, Call.early, Bool.toNat_false] at hidle ⊢
    omega

end Covered

/-! ### The calls that wait -/

/-- A `Notify` lists the calls that wait on it. -/
def Listed (shared : Shared T) (calls : List (Call T)) : Prop :=
  ∀ n i, (shared.notify n).listed i =
    (calls[i]?.any fun call => call.phase.waitsOn = some n).toNat

section Listed

variable {capacity generation j : ℕ} {calls : List (Call T)}

lemma Shared.listed_notifying {f : Notify ℕ → Notify ℕ}
    (hf : ∀ notify j, (f notify).listed j = notify.listed j) (shared : Shared T) (n j : ℕ) :
    ((shared.notifying f).notify n).listed j = (shared.notify n).listed j := by
  by_cases hn : n ∈ shared.slot.current
  · rw [notify_notifying hn, hf]
  · rw [notify_notifying_ne hn]

variable (h : Listed shared calls)

include h

lemma Listed.waits (hpos : 0 < (shared.notify n).listed i) :
    ∃ call, calls[i]? = some call ∧ call.phase.waitsOn = some n := by
  rw [h n i] at hpos
  cases hcall : calls[i]? with
  | none => simp [hcall] at hpos
  | some call =>
    refine ⟨call, rfl, ?_⟩
    by_contra hwaits
    simp [hcall, hwaits] at hpos

variable (hcall : calls[i]? = some call)

include hcall

lemma Listed.listed_pos (hwaits : call.phase.waitsOn = some n) :
    0 < (shared.notify n).listed i := by
  rw [h n i, hcall]
  simp [hwaits]

/-- A call goes on: it is listed where it begins to wait, and no longer where it waited. -/
lemma Listed.change
    (hchange : ∀ n j,
      (shared'.notify n).listed j + (if call.phase.waitsOn = some n then [i].count j else 0) =
        (shared.notify n).listed j + if call'.phase.waitsOn = some n then [i].count j else 0) :
    Listed shared' (calls.set i call') := by
  intro n j
  have hold := h n j
  have hnew := hchange n j
  obtain ⟨hi, -⟩ := List.getElem?_eq_some_iff.1 hcall
  by_cases hij : i = j
  · by_cases h1 : call.phase.waitsOn = some n <;> by_cases h2 : call'.phase.waitsOn = some n <;>
      simp_all
  · rw [List.getElem?_set_ne hij, ← hold]
    have hcount : [i].count j = 0 := List.count_eq_zero.2 (by simp [Ne.symm hij])
    simpa [hcount] using hnew

lemma Listed.goOn
    (hlisted : ∀ n j, (shared'.notify n).listed j = (shared.notify n).listed j)
    (hwaits : call.phase.waitsOn = none) (hwaits' : call'.phase.waitsOn = none) :
    Listed shared' (calls.set i call') :=
  h.change hcall fun n j => by simp [hwaits, hwaits', hlisted n j]

/-- The `Notify` that a call has to do with lists the call, or no longer does. -/
lemma Listed.setNotify {notify : Notify ℕ}
    (hwaits : call.phase.waitsOn = none ∨ call.phase.waitsOn = some n)
    (hwaits' : call'.phase.waitsOn = none ∨ call'.phase.waitsOn = some n)
    (hlisted : ∀ j, notify.listed j + (if call.phase.waitsOn = some n then [i].count j else 0) =
      (shared.notify n).listed j + if call'.phase.waitsOn = some n then [i].count j else 0) :
    Listed (shared.setNotify n notify) (calls.set i call') := by
  refine h.change hcall fun n' j => ?_
  by_cases hn : n' = n
  · subst hn
    simpa [Shared.setNotify] using hlisted j
  · have hother : ∀ waitsOn : Option ℕ, waitsOn = none ∨ waitsOn = some n → waitsOn ≠ some n' := by
      rintro _ (rfl | rfl) hsome
      · cases hsome
      · exact hn (Option.some.inj hsome).symm
    simp [Shared.setNotify, update_of_ne hn, hother _ hwaits, hother _ hwaits']

/-- **The calls that wait stay listed**, and no others are. -/
theorem Listed.move
    (hmoved : Moved capacity generation i shared call.phase m shared' phase') :
    Listed shared' (calls.set i (call.next phase')) := by
  obtain ⟨phase, woken⟩ := call
  cases hmoved with
  | ready hready =>
    refine h.setNotify hcall (.inl rfl) (.inl rfl) fun j => ?_
    simpa [Phase.waitsOn, Call.next] using (Notify.poll_ready hready).2.2 j
  | waiting hwait =>
    refine h.setNotify hcall (.inl rfl) (.inr rfl) fun j => ?_
    simpa [Phase.waitsOn, Call.next] using (Notify.poll_wait hwait).2 j
  | resumed hresume =>
    refine h.setNotify hcall (.inr rfl) (.inl rfl) fun j => ?_
    simpa [Phase.waitsOn, Call.next] using (Notify.resume_some hresume).2.2 j
  | dropped =>
    refine h.setNotify hcall (.inr rfl) (.inl rfl) fun j => ?_
    simpa [Phase.waitsOn, Call.next] using Notify.listed_drop (h.listed_pos hcall rfl) j
  | unmarked | discarded =>
    exact h.goOn hcall (Shared.listed_notifying Notify.listed_notifyOne shared) rfl rfl
  | @returned lease =>
    let returned := { shared with slot := shared.slot.returnHealthy capacity lease }
    exact h.goOn hcall (Shared.listed_notifying Notify.listed_notifyOne returned) rfl rfl
  | _ => exact h.goOn hcall (fun _ _ => rfl) rfl rfl

end Listed

/-! ### The steps of a call -/

lemma Shared.returnHealthy_eq {shared : Shared T} (h : shared.slot.current ≠ none) (capacity : ℕ)
    (lease : PoolLease T) :
    shared.returnHealthy capacity lease =
      { shared.notifying Notify.notifyOne with
        slot := shared.slot.returnHealthy capacity lease } := by
  obtain ⟨⟨_ | state, made, permits⟩, notify⟩ := shared
  · exact absurd rfl h
  · rfl

section Slot

lemma poolHandles_current (slot : Slot T) (capacity : ℕ) :
    (slot.poolHandles capacity).1.current = some (slot.poolHandles capacity).2 := by
  obtain ⟨_ | state, made, permits⟩ := slot <;> rfl

/-- The sections that look up an entry leave its connections as they are. -/
lemma lookup_same (h : slot.current ≠ none) (capacity generation : ℕ) :
    Same slot (slot.poolHandles capacity).1 ∧ Same slot (slot.markActive capacity) ∧
      Same slot (slot.recordGeneration capacity generation) := by
  obtain ⟨_ | state, made, permits⟩ := slot
  · exact absurd rfl h
  · exact ⟨⟨rfl, rfl, rfl⟩, ⟨rfl, rfl, rfl⟩, rfl, rfl, rfl⟩

lemma unmarkActiveAndNotify_same (slot : Slot T) : Same slot slot.unmarkActiveAndNotify := by
  obtain ⟨_ | state, made, permits⟩ := slot <;> exact ⟨rfl, rfl, rfl⟩

lemma returnHealthy_adds (h : slot.current ≠ none) (capacity : ℕ) (lease : PoolLease T) :
    (slot.returnHealthy capacity lease).current = slot.current ∧
      (slot.returnHealthy capacity lease).permits = slot.permits ∧
      (slot.returnHealthy capacity lease).idle.length = slot.idle.length + 1 := by
  obtain ⟨_ | state, made, permits⟩ := slot
  · exact absurd rfl h
  · exact ⟨rfl, rfl, rfl⟩

lemma removeUnused_cases (slot : Slot T) :
    slot.removeUnused = slot ∨
      slot.removeUnused.current = none ∧
        ∃ state ∈ slot.entry, state.active = 0 ∧ state.idle = [] := by
  obtain ⟨_ | state, made, permits⟩ := slot
  · exact .inl rfl
  · by_cases hused : state.active > 0 ∨ state.idle ≠ []
    · refine .inl ?_
      simp [Slot.removeUnused, if_pos hused]
    · obtain ⟨hactive, hidle⟩ := not_or.1 hused
      refine .inr ⟨?_, state, rfl, by omega, not_not.1 hidle⟩
      simp only [Slot.removeUnused, if_neg hused]
      rfl

/-- The section of `discard` removes the entry, or counts one connection less. -/
lemma discard_cases (slot : Slot T) :
    slot.discard = slot.unmarkActiveAndNotify ∨
      slot.discard.current = none ∧ ∃ state ∈ slot.entry, state.active ≤ 1 ∧ state.idle = [] := by
  rw [ConnectionPool.Slot.discard_eq]
  obtain hsame | ⟨hnone, state', hentry, hactive, hidle⟩ :=
    removeUnused_cases slot.unmarkActiveAndNotify
  · exact .inl hsame
  · obtain ⟨state, hstate, rfl⟩ := Option.map_eq_some_iff.1 hentry
    exact .inr ⟨hnone, state, hstate, Nat.sub_eq_zero_iff_le.1 hactive, hidle⟩

end Slot

section Moves

variable {s : State T}

lemma Covered.nobody (h : Covered s.shared ↑s.calls) (hlisted : Listed s.shared s.calls)
    (hnone : s.shared.slot.current = none) (n : ℕ) : (s.shared.notify n).waiters = [] := by
  rw [eq_nil_iff_forall_not_mem]
  intro j hj
  obtain ⟨call, hcall, hwaits⟩ := hlisted.waits (Notify.listed_pos (.inl hj))
  have hcurrent := h.current call (Multiset.mem_coe.2 (mem_of_getElem? hcall)) n
    (Phase.handle_of_waitsOn hwaits)
  rw [hnone] at hcurrent
  cases hcurrent

lemma exists_rest {calls : List (Call T)} (h : calls[i]? = some call) :
    ∃ rest : Multiset (Call T), ↑calls = call ::ₘ rest ∧
      ∀ call', ↑(calls.set i call') = call' ::ₘ rest := by
  obtain ⟨before, behind, rfl, hset⟩ := ConnectionPool.exists_split h
  refine ⟨↑(before ++ behind), ?_, fun call' => ?_⟩
  · rw [Multiset.cons_coe, Multiset.coe_eq_coe]
    exact perm_middle
  · rw [hset, Multiset.cons_coe, Multiset.coe_eq_coe]
    exact perm_middle

/-- **A step of a call keeps what is available covered.** -/
theorem Covered.move (h : Covered s.shared ↑s.calls) (hlisted : Listed s.shared s.calls)
    (hcall : s.calls[i]? = some call)
    (hmoved : Moved s.capacity s.nextGeneration i s.shared call.phase m shared phase)
    (hundisturbed : s.Undisturbed (.move i m)) (hcalm : s.Calm i call.phase m) :
    Covered shared ↑(s.calls.set i (call.next phase)) := by
  have hnobody := h.nobody hlisted
  obtain ⟨rest, hcalls, hset⟩ := exists_rest hcall
  have hmem : ∀ c, c ∈ call ::ₘ rest ↔ c ∈ s.calls := by
    intro c
    rw [← hcalls, Multiset.mem_coe]
  rw [hcalls] at h
  rw [hset]
  have hself : ∀ n ∈ call.phase.handle, s.shared.slot.current = some n :=
    h.current call (Multiset.mem_cons_self _ _)
  have hrest : ∀ c ∈ rest, c ∈ s.calls := fun c hc => (hmem c).1 (Multiset.mem_cons_of_mem hc)
  have hheard : s.Notifies i call.phase m = true → ∀ n ∈ s.shared.slot.current,
      (s.shared.notify n).permit = true → ∀ c ∈ call ::ₘ rest, c.phase.checked = false :=
    fun hnotifies n hn hpermit c hc => hcalm.2.2 hnotifies n hn hpermit c ((hmem c).1 hc)
  obtain ⟨old, woken⟩ := call
  cases hmoved with
  | found hfound | foundLate hfound =>
    exact h.found hfound fun _ => rfl
  | none hnone =>
    exact h.goOn ⟨rfl, rfl, rfl⟩ nofun rfl (.inl (idle_eq_nil hnone))
      fun n => by cases woken <;> exact Nat.le_refl _
  | noneLate hnone =>
    exact h.goOn ⟨rfl, rfl, rfl⟩ hself rfl (.inl (idle_eq_nil hnone))
      fun n => by cases woken <;> exact Nat.le_refl _
  | poolHandles =>
    refine h.enter hnobody (fun h => (lookup_same h _ 0).1) ?_ rfl rfl fun n => by
      cases woken <;> exact Nat.le_refl _
    rintro n ⟨⟩
    exact poolHandles_current _ _
  | acquired hacquire =>
    exact h.acquire hacquire (hself _ rfl) rfl (fun _ => rfl) rfl (Bool.toNat_le _)
  | refused | listening =>
    exact h.goOn ⟨rfl, rfl, rfl⟩ hself rfl (.inr ⟨rfl, Nat.le_refl _⟩)
      fun n => by cases woken <;> exact Nat.le_refl _
  | again =>
    exact h.goOn ⟨rfl, rfl, rfl⟩ nofun rfl
      (.inr ⟨rfl, Nat.zero_le _⟩) fun n => by cases woken <;> exact Nat.le_refl _
  | parking hpermits =>
    have howes := hcalm.2.1 _ rfl hpermits
    exact h.park hpermits fun c hc => howes c (hrest c hc)
  | ready hready =>
    obtain ⟨hsignals, hwaiters, -⟩ := Notify.poll_ready hready
    refine h.setNotify rfl nofun rfl ?_ ?_ (Nat.zero_le _) fun _ => rfl
    · rw [hwaiters]
      exact .inl
    · simpa [Call.next, Call.early, Phase.looks, Phase.awaits] using hsignals
  | waiting hwait =>
    refine h.setNotify rfl (by simp [Call.next, Phase.handle]) rfl (fun _ => .inr rfl) ?_
      (Nat.zero_le _) fun _ => rfl
    exact (Notify.poll_wait hwait).1.ge
  | resumed hresume =>
    obtain ⟨hsignals, hwaiters, -⟩ := Notify.resume_some hresume
    refine h.setNotify rfl nofun rfl ?_ ?_ (Nat.zero_le _) fun _ => rfl
    · rw [hwaiters]
      exact .inl
    · simpa [Call.next, Call.early, Phase.looks, Phase.awaits] using hsignals
  | @dropped n =>
    refine h.drop fun hnotified => hheard ?_ n (hself n rfl)
    simpa [State.Notifies] using hnotified
  | marked =>
    exact h.enter hnobody (fun h => (lookup_same h _ 0).2.1) nofun
      rfl rfl fun n => Nat.le_refl _
  | created | failed | allocated =>
    exact h.goOn ⟨rfl, rfl, rfl⟩ nofun rfl
      (.inr ⟨rfl, Nat.le_refl _⟩) fun n => Nat.le_refl _
  | recorded =>
    exact h.enter hnobody (fun h => (lookup_same h _ _).2.2) nofun
      rfl rfl fun n => Nat.le_refl _
  | cancelled =>
    refine h.release rfl rfl rfl fun n hn hsome => ?_
    obtain ⟨c, hc, hp⟩ | hw := hsome
    · obtain rfl | hc := Multiset.mem_cons.1 hc
      · cases hp
      · rw [(hcalm.1 rfl).1 c (hrest c hc)] at hp
        cases hp
    · exact absurd ((hcalm.1 rfl).2 n hn) hw
  | @unmarked permit =>
    obtain ⟨hcurrent, hpermits, hidle⟩ := unmarkActiveAndNotify_same s.shared.slot
    refine h.notify (hheard rfl) hcurrent rfl ?_ fun n => ?_
    · rw [hidle]
      exact Nat.le_succ _
    · rw [hidle]
      have hone := Bool.toNat_le (Phase.owes n (.unmarked permit : Phase T))
      exact Nat.add_le_add_left hone _
  | released =>
    refine h.release rfl rfl rfl fun n hn _ => ?_
    split_ifs with hpermit
    · simp [Call.next, Phase.owes, hpermit]
    · exact Nat.zero_le _
  | @returned lease =>
    by_cases hnone : s.shared.slot.current = none
    · refine h.insert hnone (fun n => ?_) nofun rfl
      unfold Shared.returnHealthy
      exact Shared.waiters_notifying (hnobody hnone n)
    · obtain ⟨hcurrent, hpermits, hidle⟩ := returnHealthy_adds hnone s.capacity lease
      rw [Shared.returnHealthy_eq hnone]
      refine h.notify (hheard rfl) hcurrent rfl hidle.le fun n => ?_
      rw [hidle, hpermits]
      exact Nat.le_refl _
  | discarding =>
    refine h.release rfl rfl rfl fun n hn _ => ?_
    split_ifs
    · exact Nat.le_refl _
    · exact Nat.zero_le _
  | discarded =>
    rw [Shared.discard]
    obtain heq | ⟨hnone, hremoved⟩ := discard_cases s.shared.slot
    · obtain ⟨hcurrent, hpermits, hidle⟩ := unmarkActiveAndNotify_same s.shared.slot
      rw [heq]
      refine h.notify (hheard rfl) hcurrent rfl ?_ fun n => ?_
      · rw [hidle]
        exact Nat.le_refl _
      · rw [hidle]
        exact Nat.le_refl _
    · have hhandles : ∀ c ∈ s.calls, c.phase.handle = none := by
        refine hundisturbed ⟨⟨⟨(), .discarding⟩, ?_, rfl, rfl⟩, hremoved⟩
        simp [State.toPool, hcall, Phase.toPhase]
      refine Covered.vacant ?_ ?_
      · refine Multiset.forall_mem_cons.2 ⟨by simp [Call.next, Phase.handle], ?_⟩
        intro c hc
        simp [hhandles c (hrest c hc)]
      · simp [hnone]

end Moves

/-! ### Idle connections that are dropped -/

section Retain

variable {calls : List (Call T)}

/-- Those who wait are notified, or the `Notify` stays as it is. -/
lemma Shared.notify_retainIdle (shared : Shared T) (kept : PoolEntry T → Bool) (n : ℕ) :
    (shared.retainIdle kept).notify n = (shared.notify n).notifyWaiters ∨
      (shared.retainIdle kept).notify n = shared.notify n := by
  simp only [retainIdle]
  split_ifs
  · by_cases hn : n ∈ (shared.slot.retainIdle kept).current
    · exact .inl (notify_notifying hn _)
    · exact .inr (notify_notifying_ne hn _)
  · exact .inr rfl

lemma Listed.retainIdle (h : Listed shared calls) (kept : PoolEntry T → Bool) :
    Listed (shared.retainIdle kept) calls := by
  intro n i
  rw [← h n i]
  obtain hn | hn := shared.notify_retainIdle kept n <;> rw [hn]
  rw [Notify.listed_notifyWaiters]

lemma retainIdle_current (slot : Slot T) (kept : PoolEntry T → Bool) :
    (slot.retainIdle kept).current = slot.current := by
  obtain ⟨_ | state, made, permits⟩ := slot <;> rfl

/-- What is dropped of the idle connections is gained in permits at most. -/
lemma retainIdle_length (slot : Slot T) (kept : PoolEntry T → Bool) (n : ℕ) :
    (slot.retainIdle kept).idle.length ≤ slot.idle.length ∧
      (slot.retainIdle kept).permits n + (slot.retainIdle kept).idle.length ≤
        slot.permits n + slot.idle.length := by
  obtain ⟨_ | state, made, permits⟩ := slot
  · exact ⟨Nat.le_refl _, Nat.le_refl _⟩
  · have hsplit : state.idle.length = (state.idle.filter kept).length +
        (state.idle.filter fun e => !kept e).length := length_eq_length_filter_add kept
    have hdropped : (state.idle.filter fun e => !kept e).countP (·.permit == n) ≤
        (state.idle.filter fun e => !kept e).length := countP_le_length
    change (state.idle.filter kept).length ≤ state.idle.length ∧
      permits n + _ + (state.idle.filter kept).length ≤ permits n + state.idle.length
    omega

lemma Covered.retainIdle {calls : Multiset (Call T)} (h : Covered shared calls)
    (kept : PoolEntry T → Bool) : Covered (shared.retainIdle kept) calls := by
  have hsome : ∀ {p n}, Someone p (shared.retainIdle kept) calls n → Someone p shared calls n := by
    refine fun {p n} h => h.imp_right fun hw => ?_
    obtain hn | hn := shared.notify_retainIdle kept n <;> rw [hn] at hw
    · exact absurd rfl hw
    · exact hw
  have hsignals (n : ℕ) :
      ((shared.retainIdle kept).notify n).signals = (shared.notify n).signals := by
    obtain hn | hn := shared.notify_retainIdle kept n <;> rw [hn]
    rfl
  refine ⟨?_, ?_, ?_⟩
  · rw [Shared.slot_retainIdle, retainIdle_current]
    exact h.current
  · intro n hn hchecked
    rw [Shared.slot_retainIdle] at hn ⊢
    rw [retainIdle_current] at hn
    have hold := h.idle n hn (hsome hchecked)
    have hless := (retainIdle_length shared.slot kept n).1
    rw [hsignals]
    omega
  · intro n hn hparks
    rw [Shared.slot_retainIdle] at hn ⊢
    rw [retainIdle_current] at hn
    have hold := h.all n hn (hsome hparks)
    have hless := (retainIdle_length shared.slot kept n).2
    rw [hsignals]
    omega

lemma Covered.removeUnused {calls : Multiset (Call T)} (h : Covered shared calls)
    (hundisturbed : ∀ state ∈ shared.slot.entry, state.active = 0 → state.idle = [] →
      ∀ call ∈ calls, call.phase.handle = none) : Covered shared.removeUnused calls := by
  rw [Shared.removeUnused]
  obtain hsame | ⟨hnone, state, hstate, hactive, hidle⟩ := removeUnused_cases shared.slot
  · rw [hsame]
    exact h
  · have hhandles := hundisturbed state hstate hactive hidle
    refine Covered.vacant ?_ (by simp [hnone])
    intro call hcall
    simp [hhandles call hcall]

/-- Idle connections are dropped, and then an entry that has none left. -/
lemma Covered.retainUsed {calls : Multiset (Call T)} (h : Covered shared calls)
    (kept : PoolEntry T → Bool)
    (hundisturbed : ∀ state ∈ shared.slot.entry, state.active = 0 →
      (∀ e ∈ state.idle, kept e = false) → ∀ call ∈ calls, call.phase.handle = none) :
    Covered (shared.retainIdle kept).removeUnused calls := by
  refine (h.retainIdle kept).removeUnused ?_
  rw [Shared.slot_retainIdle]
  obtain ⟨⟨_ | state, made, permits⟩, notify⟩ := shared
  · rintro state ⟨⟩
  · rintro state' ⟨⟩ hactive hidle
    refine hundisturbed state rfl hactive fun e he => ?_
    simpa using filter_eq_nil_iff.1 hidle e he

end Retain

/-! ### Every run -/

/-- A new call has nothing to do with those that wait. -/
lemma Covered.start {shared : Shared T} {calls : Multiset (Call T)} (h : Covered shared calls) :
    Covered shared (⟨.start, false⟩ ::ₘ calls) := by
  have hsome : ∀ {p : Phase T → Bool} {n}, p .start = false →
      Someone p shared (⟨.start, false⟩ ::ₘ calls) n → Someone p shared calls n := by
    rintro p n hp (⟨call, hcall, hpc⟩ | hw)
    · obtain rfl | hcall := Multiset.mem_cons.1 hcall
      · rw [hp] at hpc
        cases hpc
      · exact .inl ⟨call, hcall, hpc⟩
    · exact .inr hw
  refine ⟨?_, ?_, ?_⟩
  · exact Multiset.forall_mem_cons.2 ⟨by simp [Phase.handle], h.current⟩
  · intro n hn hchecked
    rw [countP_cons_eq Call.early]
    exact h.idle n hn (hsome rfl hchecked)
  · intro n hn hparks
    rw [countP_cons_eq Call.early, countP_cons_eq Call.late, countP_cons_eq (·.phase.owes n)]
    exact h.all n hn (hsome rfl hparks)

lemma Listed.start {shared : Shared T} {calls : List (Call T)} (h : Listed shared calls) :
    Listed shared (calls ++ [⟨.start, false⟩]) := by
  intro n i
  rw [h n i]
  rcases Nat.lt_trichotomy i calls.length with hi | rfl | hi
  · rw [getElem?_append_left hi]
  · simp [Phase.waitsOn]
  · rw [getElem?_eq_none hi.le, getElem?_eq_none (by simp; omega)]

namespace State

variable {s s' : State T}

lemma step_inv {event : Event Unit T}
    (h : Covered s.shared ↑s.calls ∧ Listed s.shared s.calls) (horderly : s.Orderly event)
    (hstep : s.step event = some s') : Covered s'.shared ↑s'.calls ∧ Listed s'.shared s'.calls := by
  obtain ⟨hcovered, hlisted⟩ := h
  cases event with
  | checkoutOrCreateWith key =>
    cases hstep
    have hcalls : (↑(s.calls ++ [(⟨.start, false⟩ : Call T)]) : Multiset (Call T)) =
        ⟨.start, false⟩ ::ₘ ↑s.calls := by
      rw [Multiset.cons_coe, Multiset.coe_eq_coe]
      exact perm_append_singleton _ _
    refine ⟨?_, hlisted.start⟩
    rw [hcalls]
    exact hcovered.start
  | move i m =>
    obtain ⟨call, hcall, hmap⟩ := Option.bind_eq_some_iff.1 hstep
    obtain ⟨⟨shared, phase⟩, hmove, rfl⟩ := Option.map_eq_some_iff.1 hmap
    have hmoved := Moved.of_move hmove
    exact ⟨hcovered.move hlisted hcall hmoved horderly.1 (horderly.2 call hcall),
      hlisted.move hcall hmoved⟩
  | invalidateGeneration key generation =>
    cases hstep
    exact ⟨hcovered.retainIdle _, hlisted.retainIdle _⟩
  | discardIdleWhere shouldDiscard =>
    cases hstep
    refine ⟨hcovered.retainUsed _ fun state hstate hactive hidle => ?_, hlisted.retainIdle _⟩
    exact horderly ⟨state, hstate, hactive, fun e he => by simpa using hidle e he⟩
  | pruneIdleWith fresh isAlive =>
    cases hstep
    refine ⟨hcovered.retainUsed _ fun state hstate hactive hidle => ?_, hlisted.retainIdle _⟩
    exact horderly ⟨state, hstate, hactive, hidle⟩

lemma wakes_of_early_or_late {i : ℕ} {call : Call T}
    (h : call.early = true ∨ call.late = true) : s.Wakes i call = true := by
  obtain ⟨phase, woken⟩ := call
  cases phase <;> simp_all [Call.early, Call.late, Wakes]

/-- A call that is counted as a wakeup is one that is on its way. -/
lemma pending_of_mem {call : Call T} (hcall : call ∈ s.calls)
    (h : call.early = true ∨ call.late = true) : s.WakeupPending := by
  obtain ⟨i, hi, rfl⟩ := mem_iff_getElem.1 hcall
  exact ⟨i, hi, _, getElem?_eq_getElem hi, wakes_of_early_or_late h⟩

lemma pending_of_ready {i n : ℕ} {call : Call T} (hcall : s.calls[i]? = some call)
    (hwaits : call.phase.waitsOn = some n) (hready : (s.shared.notify n).ready i = true) :
    s.WakeupPending := by
  obtain ⟨hi, -⟩ := List.getElem?_eq_some_iff.1 hcall
  refine ⟨i, hi, call, hcall, ?_⟩
  obtain ⟨phase, woken⟩ := call
  cases phase <;> simp_all [Phase.waitsOn, Wakes]

/-- A call has been left waiting for what is available only where a wakeup is on its way. -/
lemma noneStranded (hcovered : Covered s.shared ↑s.calls) (hlisted : Listed s.shared s.calls)
    (hcurrent : s.OnCurrent) : s.NoneStranded := by
  rintro ⟨n, hn, havailable⟩ ⟨call, hcall, hwaits⟩
  obtain ⟨n', hn'⟩ := Option.ne_none_iff_exists'.1 hwaits
  obtain rfl : n' = n := Option.mem_unique (hcurrent call hcall n' hn') hn
  obtain ⟨i, hi, rfl⟩ := mem_iff_getElem.1 hcall
  have hget : s.calls[i]? = some s.calls[i] := getElem?_eq_getElem hi
  cases hready : (s.shared.notify n').ready i with
  | true => exact pending_of_ready hget hn' hready
  | false =>
    -- the call has not been notified, so what is available is covered by wakeups of others
    have hmem := Notify.mem_of_listed (hlisted.listed_pos hget hn') hready
    have hwaiters : (s.shared.notify n').waiters ≠ [] := ne_nil_of_mem hmem
    have hcover := hcovered.all n' hn (.inr hwaiters)
    have hpos : 0 < s.shared.slot.permits n' + s.shared.slot.idle.length := by
      obtain hpermits | hidle := havailable
      · omega
      · have := length_pos_iff.2 hidle
        omega
    have hsignals : (s.shared.notify n').signals = (s.shared.notify n').notified.length := by
      have hpermit : (s.shared.notify n').permit = false :=
        Bool.eq_false_iff.2 fun hp => hwaiters (Notify.exclusive _ hp)
      rw [Notify.signals, hpermit]
      rfl
    by_cases hnotified : (s.shared.notify n').notified = []
    · have hcalls : 0 < (↑s.calls : Multiset (Call T)).countP (·.early = true) ∨
          0 < (↑s.calls : Multiset (Call T)).countP (·.late = true) := by
        rw [hsignals, hnotified] at hcover
        simp only [length_nil] at hcover
        omega
      rcases hcalls with hearly | hlate
      · obtain ⟨c, hc, hp⟩ := Multiset.countP_pos.1 hearly
        exact pending_of_mem (Multiset.mem_coe.1 hc) (.inl hp)
      · obtain ⟨c, hc, hp⟩ := Multiset.countP_pos.1 hlate
        exact pending_of_mem (Multiset.mem_coe.1 hc) (.inr hp)
    · obtain ⟨j, hj⟩ := exists_mem_of_ne_nil _ hnotified
      obtain ⟨c, hc, hcwaits⟩ := hlisted.waits (Notify.listed_pos (.inr hj))
      exact pending_of_ready hc hcwaits (by simp [Notify.ready, hj])

/-- **No call is left waiting.** In every orderly run a call that waits does so on the `Notify` of
the entry, and whenever a permit or an idle connection is there for it a wakeup is on its way. -/
theorem pool_waiters_woken {capacity : ℕ} {events : List (Event Unit T)}
    (hrun : run step (new capacity) events = some s)
    (hmeets : Meets step Orderly (new capacity) events) : s.OnCurrent ∧ s.NoneStranded := by
  have hnew : Covered (new capacity : State T).shared ↑(new capacity : State T).calls ∧
      Listed (new capacity : State T).shared (new capacity : State T).calls := by
    refine ⟨Covered.vacant ?_ ?_, fun n i => rfl⟩
    · intro call hcall
      cases hcall
    · intro n hn
      cases hn
  obtain ⟨hcovered, hlisted⟩ := run_invariant step_inv hnew hmeets hrun
  have hcurrent : s.OnCurrent := by
    intro call hcall n hn
    exact hcovered.current call (Multiset.mem_coe.2 hcall) n (Phase.handle_of_waitsOn hn)
  exact ⟨hcurrent, noneStranded hcovered hlisted hcurrent⟩

/-- The events of a new call `i` that comes to have a permit and calls `create`. -/
def creates (i : ℕ) : List (Event Unit T) :=
  .checkoutOrCreateWith () :: List.replicate 4 (.move i .turn)

def leases (i : ℕ) (resource : T) : List (Event Unit T) :=
  creates i ++ [.move i (.created (some resource)), .move i .turn, .move i .turn]

/-- A new call `i` comes to `notified.await`, and waits there. -/
def parks (i : ℕ) : List (Event Unit T) :=
  .checkoutOrCreateWith () :: List.replicate 6 (.move i .turn)

def waits (i : ℕ) : List (Event Unit T) := parks i ++ [.move i .turn]

theorem pool_waiters_woken_returned :
    ∃ s : State Unit,
      run step (new 1) (leases 0 () ++ waits 1 ++ [.move 0 .returnHealthy]) = some s ∧
      s.Available ∧ s.WakeupPending ∧ s.OnCurrent ∧ s.NoneStranded := by
  have hrun : run step (new 1 : State Unit) (leases 0 () ++ waits 1 ++ [.move 0 .returnHealthy]) =
    some _ := rfl
  refine ⟨_, hrun, ?_, ?_, pool_waiters_woken hrun ?_⟩
  · decide +kernel
  · decide +kernel
  · decide +kernel

/-- A call that fails notifies before it drops its permit: the one that is woken finds none and
waits again, next to the permit. -/
def notifiesEarly : List (Event Unit Unit) :=
  creates 0 ++ waits 1 ++ [.move 0 (.created none), .move 0 .turn] ++
    List.replicate 8 (.move 1 .turn) ++ [.move 0 .turn]

/-- A call that is cancelled in `create` drops its permit and tells nobody. -/
def cancelled : List (Event Unit Unit) := creates 0 ++ waits 1 ++ [.move 0 .dropped]

/-- The last connection is discarded while two calls wait. One is notified and makes a new entry,
the other waits on for the one that is gone. -/
def discardedLast : List (Event Unit Unit) :=
  leases 0 () ++ waits 1 ++ waits 2 ++ [.move 0 .discard, .move 0 .turn] ++
    List.replicate 5 (.move 1 .turn) ++
    [.move 1 (.created (some ())), .move 1 .turn, .move 1 .turn, .move 1 .returnHealthy]

/-- Two connections are returned while two calls are about to wait. Only one notification is
kept. -/
def returnedTwice : List (Event Unit Unit) :=
  leases 0 () ++ leases 1 () ++ parks 2 ++ parks 3 ++
    [.move 0 .returnHealthy, .move 1 .returnHealthy, .move 2 .turn, .move 3 .turn, .move 2 .turn]

theorem pool_waiters_stranded :
    (∃ s ∈ run step (new 1) notifiesEarly, ¬ s.NoneStranded) ∧
    (∃ s ∈ run step (new 1) cancelled, ¬ s.NoneStranded) ∧
    (∃ s ∈ run step (new 1) discardedLast, ¬ s.OnCurrent ∧ ¬ s.NoneStranded) ∧
    ∃ s ∈ run step (new 2) returnedTwice, ¬ s.NoneStranded := by
  decide +kernel

end State

end CrossHostOps.PoolWaiters
