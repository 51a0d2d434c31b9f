import CrossHostOps.JumpserverShells

/-!
The capacity of the session cache of a jumpserver gateway, with the loop of `insert` as it runs.
-/

namespace CrossHostOps.ShellCache

open Text JumpserverShells

abbrev Shells := List (ShellKey × CachedShellEntry)

/-- `while self.shells.len() >= max { self.shells.pop_first(); }`, in so many rounds at most. -/
def evictLoop (max : ℕ) : ℕ → Shells → Option Shells
  | 0, _ => none
  | rounds + 1, shells =>
    if max ≤ shells.length then evictLoop max rounds shells.tail else some shells

/-- `insert`, with its loop. -/
def insertWithin (rounds : ℕ) (cache : SessionCache) (now : ℕ) (ip : Str) (shell : PtyShell)
    (lease : ℕ) : Option SessionCache :=
  let kept := match cache.maxCachedSessions with
    | some max => evictLoop max rounds cache.shells
    | none => some cache.shells
  kept.map fun kept =>
    let key := (now, cache.nextId)
    { cache with
      shells := kept.orderedInsert SessionCache.keyLe (key, ⟨ip, shell, lease⟩)
      byIp := Function.update cache.byIp ip (cache.byIp ip ++ [key])
      nextId := cache.nextId + 1 }

lemma evictLoop_zero (rounds : ℕ) (shells : Shells) : evictLoop 0 rounds shells = none := by
  induction rounds generalizing shells with
  | zero => rfl
  | succ rounds ih => rw [evictLoop, if_pos (Nat.zero_le _), ih]

variable {rounds : ℕ} {shells kept : Shells}

/-- With room for a shell the loop ends. -/
lemma evictLoop_isSome (max : ℕ) (h : shells.length < rounds) :
    ∃ kept, evictLoop (max + 1) rounds shells = some kept := by
  fun_induction evictLoop (max + 1) rounds shells with
  | case1 => omega
  | case2 rounds shells hfull ih =>
    refine ih ?_
    rw [List.length_tail]
    omega
  | case3 rounds shells hroom => exact ⟨shells, rfl⟩

lemma evictLoop_eq {max : ℕ} (h : evictLoop (max + 1) rounds shells = some kept) :
    kept = shells.drop (shells.length - max) := by
  fun_induction evictLoop (max + 1) rounds shells with
  | case1 => cases h
  | case2 rounds shells hfull ih =>
    have hlen : shells.length - max = shells.tail.length - max + 1 := by
      rw [List.length_tail]
      omega
    rw [ih h, List.drop_tail, hlen]
  | case3 rounds shells hroom =>
    obtain rfl := Option.some.inj h
    rw [Nat.sub_eq_zero_of_le (by omega), List.drop_zero]

variable {cache cache' : SessionCache} {now lease : ℕ} {ip : Str} {shell : PtyShell}

/-- The loop of `insert` comes to what `SessionCache.insert` says, or to no end. -/
lemma exists_insertWithin :
    (∃ rounds, insertWithin rounds cache now ip shell lease = some cache') ↔
      cache.insert now ip shell lease = some cache' := by
  obtain ⟨shells, byIp, nextId, max⟩ := cache
  match max with
  | none => exact ⟨fun ⟨_, h⟩ => h, fun h => ⟨0, h⟩⟩
  | some 0 => simp [insertWithin, SessionCache.insert, SessionCache.evict, evictLoop_zero]
  | some (max + 1) =>
    constructor
    · rintro ⟨rounds, h⟩
      obtain ⟨kept, hkept, rfl⟩ := Option.map_eq_some_iff.1 h
      rw [evictLoop_eq hkept]
      rfl
    · intro h
      obtain ⟨kept, hkept⟩ := evictLoop_isSome max (Nat.lt_add_one shells.length)
      refine ⟨shells.length + 1, ?_⟩
      simp only [insertWithin, hkept]
      rw [evictLoop_eq hkept]
      exact h

lemma exists_evict (hne : cache.maxCachedSessions ≠ some 0) : ∃ kept, cache.evict = some kept := by
  fun_cases SessionCache.evict cache
  · contradiction
  · exact ⟨_, rfl⟩
  · exact ⟨_, rfl⟩

lemma evict_length (h : cache.evict = some kept) :
    ∀ n ∈ cache.maxCachedSessions, kept.length < n := by
  revert h
  fun_cases SessionCache.evict cache <;> intro h <;> cases h
  next max hmax =>
    simp only [hmax, Option.mem_some_iff, List.length_drop]
    omega
  next hnone => simp [hnone]

/-- **`insert` comes to its end exactly if the capacity is not zero**, and then there are no more
shells than may be. -/
theorem insert_terminates_iff (cache : SessionCache) (now : ℕ) (ip : Str) (shell : PtyShell)
    (lease : ℕ) :
    (∃ rounds cache', insertWithin rounds cache now ip shell lease = some cache' ∧
      ∀ n ∈ cache.maxCachedSessions, cache'.shells.length ≤ max n 1) ↔
      cache.maxCachedSessions ≠ some 0 := by
  constructor
  · rintro ⟨rounds, cache', h, -⟩ hzero
    simp [insertWithin, hzero, evictLoop_zero] at h
  · intro hne
    obtain ⟨kept, hkept⟩ := exists_evict hne
    have hinsert : cache.insert now ip shell lease = some _ := congrArg _ hkept
    obtain ⟨rounds, hrounds⟩ := exists_insertWithin.2 hinsert
    refine ⟨rounds, _, hrounds, fun n hn => ?_⟩
    have hlt := evict_length hkept n hn
    simp only [List.orderedInsert_length]
    omega

/-- Without room for a shell the loop has no end, on an empty cache too. -/
theorem insert_hangs_without_capacity :
    ¬ ∃ rounds cache',
      insertWithin rounds (.new (some 0)) 0 "10.0.0.1" ⟨0⟩ 0 = some cache' := by
  rintro ⟨rounds, cache', h⟩
  simp [insertWithin, SessionCache.new, evictLoop_zero] at h

end CrossHostOps.ShellCache
