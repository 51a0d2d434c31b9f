import Mathlib.Data.List.Sort
import CrossHostOps.Runs
import CrossHostOps.Text

/-!
`JumpserverGateway` of `daemon/gateway/jumpserver.rs`: one transport is shared by all calls and
known by its generation, and shells that were opened on it are kept in a cache. A call takes a lease
of the transport in one step and a shell from the cache in another; every section under a lock is
one step, and the steps of all calls may interleave.
-/

namespace CrossHostOps.JumpserverShells

open Text Runs List

/-! ### `SessionCache` -/

/-- When a shell was returned, and a number that makes the key unique. -/
abbrev ShellKey := ℕ × ℕ

/-- A shell, by the generation of the transport its channel was opened on. -/
structure PtyShell where
  generation : ℕ

/-- A lease is known by the generation of its transport. -/
structure CachedShellEntry where
  ip : Str
  shell : PtyShell
  transportLease : ℕ

/-- The shells are listed from the oldest key. A key of the index may be stale. -/
structure SessionCache where
  shells : List (ShellKey × CachedShellEntry)
  byIp : Str → List ShellKey
  nextId : ℕ
  maxCachedSessions : Option ℕ

namespace SessionCache

def new (maxCachedSessions : Option ℕ) : SessionCache := ⟨[], fun _ => [], 0, maxCachedSessions⟩

/-- The last key that is not stale, with the keys in front of it; the keys are listed from the
last. -/
def popLive (shells : List (ShellKey × CachedShellEntry)) :
    List ShellKey → Option (ShellKey × CachedShellEntry × List ShellKey)
  | [] => none
  | key :: keys =>
    match shells.find? (·.1 = key) with
    | some (_, entry) => some (key, entry, keys)
    | none => popLive shells keys

def checkout (cache : SessionCache) (ip : Str) : Option PtyShell × SessionCache :=
  match popLive cache.shells (cache.byIp ip).reverse with
  | some (key, entry, keys) =>
    (some entry.shell, { cache with
      shells := cache.shells.filter (·.1 ≠ key)
      byIp := Function.update cache.byIp ip keys.reverse })
  | none => (none, { cache with byIp := Function.update cache.byIp ip [] })

def keyLe (a b : ShellKey × CachedShellEntry) : Prop :=
  a.1.1 < b.1.1 ∨ a.1.1 = b.1.1 ∧ a.1.2 ≤ b.1.2

instance : DecidableRel keyLe := fun _ _ => inferInstanceAs (Decidable (_ ∨ _))

/-- The shells without the oldest, so that there is room for one more; where there is no room at
all the loop that drops them does not end. -/
def evict (cache : SessionCache) : Option (List (ShellKey × CachedShellEntry)) :=
  match cache.maxCachedSessions with
  | some 0 => none
  | some (max + 1) => some (cache.shells.drop (cache.shells.length - max))
  | none => some cache.shells

def insert (cache : SessionCache) (now : ℕ) (ip : Str) (shell : PtyShell) (lease : ℕ) :
    Option SessionCache :=
  cache.evict.map fun kept =>
    let key := (now, cache.nextId)
    { cache with
      shells := kept.orderedInsert keyLe (key, ⟨ip, shell, lease⟩)
      byIp := Function.update cache.byIp ip (cache.byIp ip ++ [key])
      nextId := cache.nextId + 1 }

/-- Shells that were returned before the given time are dropped, and the index is made anew. -/
def prune (cache : SessionCache) (cutoff : ℕ) : SessionCache :=
  let kept := cache.shells.dropWhile (·.1.1 < cutoff)
  if kept.length = cache.shells.length then cache
  else { cache with
    shells := kept, byIp := fun ip => (kept.filter (·.2.ip = ip)).map Prod.fst }

def clear (cache : SessionCache) : SessionCache := { cache with shells := [], byIp := fun _ => [] }

lemma popLive_mem {shells : List (ShellKey × CachedShellEntry)} {keys keys' : List ShellKey}
    {key : ShellKey} {entry : CachedShellEntry}
    (h : popLive shells keys = some (key, entry, keys')) : ∃ e ∈ shells, e.2 = entry := by
  induction keys with
  | nil => cases h
  | cons k keys ih =>
    simp only [popLive] at h
    split at h
    · rename_i k' entry' hfind
      cases h
      exact ⟨_, mem_of_find?_eq_some hfind, rfl⟩
    · exact ih h

/-- What is taken was in the cache, and what stays was too. -/
lemma checkout_spec (cache : SessionCache) (ip : Str) :
    (∀ shell ∈ (cache.checkout ip).1, ∃ e ∈ cache.shells, e.2.shell = shell) ∧
      ∀ e ∈ (cache.checkout ip).2.shells, e ∈ cache.shells := by
  simp only [checkout]
  split
  · rename_i key entry keys hpop
    refine ⟨?_, fun e he => mem_of_mem_filter he⟩
    rintro shell hshell
    cases hshell
    obtain ⟨e, he, rfl⟩ := popLive_mem hpop
    exact ⟨e, he, rfl⟩
  · exact ⟨nofun, fun e he => he⟩

variable {cache : SessionCache} {e : ShellKey × CachedShellEntry}

lemma mem_evict {kept : List (ShellKey × CachedShellEntry)} (h : cache.evict = some kept)
    (he : e ∈ kept) :
    e ∈ cache.shells := by
  simp only [evict] at h
  split at h <;> cases h
  · exact mem_of_mem_drop he
  · exact he

lemma mem_insert {cache' : SessionCache} {now lease : ℕ} {ip : Str} {shell : PtyShell}
    (h : cache.insert now ip shell lease = some cache') (he : e ∈ cache'.shells) :
    e.2 = ⟨ip, shell, lease⟩ ∨ e ∈ cache.shells := by
  obtain ⟨kept, hkept, rfl⟩ := Option.map_eq_some_iff.1 h
  rcases mem_orderedInsert keyLe |>.1 he with rfl | he
  · exact .inl rfl
  · exact .inr (mem_evict hkept he)

lemma mem_prune {cutoff : ℕ} (he : e ∈ (cache.prune cutoff).shells) : e ∈ cache.shells := by
  simp only [prune] at he
  split_ifs at he
  · exact he
  · exact (dropWhile_sublist _).subset he

end SessionCache

/-! ### The gateway -/

inductive ErrorKind
  | resolution
  | transport
  | execution
  | unsupported
  deriving DecidableEq

/-- The transport by its generation, and the cache. -/
structure JumpserverGateway where
  transport : Option ℕ
  nextGeneration : ℕ
  sessionCache : SessionCache

namespace JumpserverGateway

/-- `ManagedSingleton::checkout_or_insert_with`; `created` is what `create` returns if it is called.
-/
def checkoutOrInsertWith (g : JumpserverGateway) (created : Except ErrorKind Unit) :
    JumpserverGateway × Except ErrorKind ℕ :=
  match g.transport with
  | some generation => (g, .ok generation)
  | none =>
    match created with
    | .error kind => (g, .error kind)
    | .ok _ =>
      ({ g with
        transport := some g.nextGeneration
        nextGeneration := min (g.nextGeneration + 1) (2 ^ 64 - 1) }, .ok g.nextGeneration)

def invalidateGeneration (g : JumpserverGateway) (generation : ℕ) : JumpserverGateway :=
  if g.transport = some generation then { g with transport := none } else g

end JumpserverGateway

/-- Who has called `acquire_shell`. -/
inductive User
  | session
  | copy (attempt : ℕ)
  | probe

/-- A call of the gateway, by the step it is in front of. The lease of a call is held through all of
them. -/
inductive Task
  /-- In front of the transport's lock, with the attempts of `acquire_shell` and of
  `ensure_transport`. -/
  | ensuring (user : User) (ip : Str) (attempt retry : ℕ)
  | leased (user : User) (ip : Str) (attempt lease : ℕ)
  | probing (user : User) (ip : Str) (attempt lease : ℕ) (shell : PtyShell)
  | opening (user : User) (ip : Str) (attempt lease : ℕ)
  /-- In front of the two sections of `invalidate_transport`; then `acquire_shell` goes on. -/
  | invalidating (next : Option (User × Str × ℕ)) (lease : ℕ)
  | clearing (next : Option (User × Str × ℕ)) (lease : ℕ)
  /-- `acquire_shell` has returned. -/
  | held (user : User) (ip : Str) (lease : ℕ) (shell : PtyShell)
  /-- The session has returned its shell. -/
  | guarding (lease : ℕ)
  | ended

inductive TaskEvent
  | ensure (created : Except ErrorKind Unit)
  | checkout
  | probe (alive : Bool)
  | openTargetShell (result : Except ErrorKind Unit)
  | invalidate
  | clear
  | returnFn (now : ℕ)
  | drop
  /-- The relay of a download stalls. -/
  | stall
  | finish

/-- What is handed out by `acquire_shell`, and the ends of `invalidate_transport`. -/
inductive Entry
  | handedOut (shell : PtyShell) (lease : ℕ)
  | invalidated (generation : ℕ)

namespace Task

/-- What follows `invalidate_transport`. -/
def resume : Option (User × Str × ℕ) → Task
  | some (user, ip, attempt) => .ensuring user ip attempt 0
  | none => .ended

def step (g : JumpserverGateway) : Task → TaskEvent → Option (JumpserverGateway × Task × List Entry)
  | .ensuring user ip attempt retry, .ensure created =>
    match g.checkoutOrInsertWith created with
    | (g', .ok lease) => some (g', .leased user ip attempt lease, [])
    | (g', .error kind) =>
      some (g', if retry = 0 ∧ kind = .transport then .ensuring user ip attempt 1 else .ended, [])
  | .leased user ip attempt lease, .checkout =>
    match g.sessionCache.checkout ip with
    | (some shell, cache) =>
      some ({ g with sessionCache := cache }, .probing user ip attempt lease shell, [])
    | (none, cache) => some ({ g with sessionCache := cache }, .opening user ip attempt lease, [])
  | .probing user ip attempt lease shell, .probe alive =>
    if alive then some (g, .held user ip lease shell, [.handedOut shell lease])
    else some (g, .opening user ip attempt lease, [])
  | .opening user ip attempt lease, .openTargetShell result =>
    match result with
    | .ok _ => some (g, .held user ip lease ⟨lease⟩, [.handedOut ⟨lease⟩ lease])
    | .error kind =>
      some (g, if kind = .transport then
          .invalidating (if attempt = 0 then some (user, ip, 1) else none) lease
        else .ended, [])
  | .invalidating next lease, .invalidate =>
    some (g.invalidateGeneration lease, .clearing next lease, [])
  | .clearing next lease, .clear =>
    some ({ g with sessionCache := g.sessionCache.clear }, resume next, [.invalidated lease])
  | .held user ip lease shell, .returnFn now =>
    (g.sessionCache.insert now ip shell lease).map fun cache =>
      ({ g with sessionCache := cache },
        match user with
        | .session => .guarding lease
        | _ => .ended, [])
  | .held .., .drop => some (g, .ended, [])
  | .held (.copy 0) ip lease _, .stall =>
    some (g, .invalidating (some (.copy 1, ip, 0)) lease, [])
  | .guarding _, .finish => some (g, .ended, [])
  | _, _ => none

/-- The lease of a task that can still hand out a shell or return one. -/
def live : Task → Option ℕ
  | .leased _ _ _ lease | .probing _ _ _ lease _ | .opening _ _ _ lease | .held _ _ lease _ =>
    some lease
  | _ => none

def lease : Task → Option ℕ
  | .invalidating _ lease | .clearing _ lease | .guarding lease => some lease
  | task => task.live

def shell : Task → Option PtyShell
  | .probing _ _ _ _ shell | .held _ _ _ shell => some shell
  | _ => none

/-- Between the two sections of `invalidate_transport`. -/
def isClearing : Task → Bool
  | .clearing .. => true
  | _ => false

end Task

structure State where
  gateway : JumpserverGateway
  tasks : List Task
  log : List Entry

inductive Event
  | acquireShell (user : User) (ip : Str)
  | task (i : ℕ) (event : TaskEvent)
  /-- The two sections of `prune_idle`. -/
  | pruneTransport (idle : Bool)
  | pruneCache (cutoff : ℕ)

namespace State

def start (maxCachedSessions : Option ℕ) : State := ⟨⟨none, 1, .new maxCachedSessions⟩, [], []⟩

/-- `Arc::strong_count` of the transport: its own reference and one for each lease. -/
def strongCount (s : State) (generation : ℕ) : ℕ :=
  1 + (s.tasks.filterMap Task.lease).count generation +
    (s.gateway.sessionCache.shells.map (·.2.transportLease)).count generation

def step (s : State) : Event → Option State
  | .acquireShell user ip => some { s with tasks := s.tasks ++ [.ensuring user ip 0 0] }
  | .task i event =>
    match s.tasks[i]? with
    | some task =>
      (task.step s.gateway event).map fun (g, task, entries) =>
        ⟨g, s.tasks.set i task, s.log ++ entries⟩
    | none => none
  | .pruneTransport idle =>
    match s.gateway.transport with
    | some generation =>
      if s.strongCount generation = 1 ∧ idle then
        some { s with gateway := { s.gateway with transport := none } }
      else some s
    | none => some s
  | .pruneCache cutoff =>
    some { s with gateway := { s.gateway with
      sessionCache := s.gateway.sessionCache.prune cutoff } }

/-- A shell is handed out with a lease of its own transport. -/
def Paired (log : List Entry) : Prop :=
  ∀ shell lease, .handedOut shell lease ∈ log → shell.generation = lease

/-- Behind the end of `invalidate_transport` no shell of the generation is handed out. -/
def Retired (log : List Entry) : Prop :=
  log.Pairwise fun entry later =>
    ∀ generation shell lease, entry = .invalidated generation → later = .handedOut shell lease →
      shell.generation ≠ generation

/-- The transport is invalidated only while no other call holds it with a shell or for one, nothing
is taken from the cache within an invalidation, and the generations do not run out. -/
def Cond (s : State) : Event → Prop
  | .task i .invalidate =>
    ∀ lease ∈ s.gateway.transport, s.tasks[i]?.bind Task.lease = some lease →
      ∀ task ∈ s.tasks.eraseIdx i, task.live ≠ some lease
  | .task _ .checkout => ∀ task ∈ s.tasks, task.isClearing = false
  | .task _ (.ensure _) => s.gateway.nextGeneration < 2 ^ 64 - 1
  | _ => True

instance (s : State) : (event : Event) → Decidable (s.Cond event)
  | .task i .invalidate => inferInstanceAs (Decidable (∀ lease ∈ s.gateway.transport,
      s.tasks[i]?.bind Task.lease = some lease →
        ∀ task ∈ s.tasks.eraseIdx i, task.live ≠ some lease))
  | .task _ .checkout => inferInstanceAs (Decidable (∀ task ∈ s.tasks, task.isClearing = false))
  | .task _ (.ensure _) => inferInstanceAs (Decidable (s.gateway.nextGeneration < 2 ^ 64 - 1))
  | .task _ (.probe _) | .task _ (.openTargetShell _) | .task _ .clear | .task _ (.returnFn _)
  | .task _ .drop | .task _ .stall | .task _ .finish | .acquireShell .. | .pruneTransport _
  | .pruneCache _ => inferInstanceAs (Decidable True)

end State

/-! ### The invariant -/

/-- A task with a shell, or on the way to one, has a lease of the transport there is. -/
structure TaskOk (g : JumpserverGateway) (task : Task) : Prop where
  live : ∀ lease ∈ task.live, g.transport = some lease
  shell : ∀ shell ∈ task.shell, ∀ lease ∈ task.live, shell.generation = lease
  bound : ∀ lease ∈ task.lease, lease < g.nextGeneration
  clearing : task.isClearing = true → ∀ lease ∈ task.lease, g.transport ≠ some lease

/-- The cache has shells of the transport only, but within an invalidation. -/
structure Inv (s : State) : Prop where
  tasks : ∀ task ∈ s.tasks, TaskOk s.gateway task
  own : ∀ e ∈ s.gateway.sessionCache.shells, e.2.shell.generation = e.2.transportLease
  cached : (∀ task ∈ s.tasks, task.isClearing = false) →
    ∀ e ∈ s.gateway.sessionCache.shells, s.gateway.transport = some e.2.transportLease
  bound : ∀ generation ∈ s.gateway.transport, generation < s.gateway.nextGeneration
  invalidated : ∀ generation, .invalidated generation ∈ s.log →
    generation < s.gateway.nextGeneration ∧ s.gateway.transport ≠ some generation
  paired : State.Paired s.log
  retired : State.Retired s.log

lemma inv_start (maxCachedSessions : Option ℕ) : Inv (.start maxCachedSessions) :=
  ⟨nofun, nofun, fun _ => nofun, nofun, nofun, nofun, .nil⟩

section inv

variable {s : State} {i : ℕ} {task task' : Task} {g g' : JumpserverGateway}

lemma forall_mem_set {α : Type*} {P : α → Prop} {l : List α} {a : α}
    (hothers : ∀ b ∈ l.eraseIdx i, P b) (ha : P a) : ∀ b ∈ l.set i a, P b := by
  intro b hb
  obtain ⟨j, hj⟩ := mem_iff_getElem?.1 hb
  by_cases hij : i = j
  · subst hij
    rw [getElem?_set_self'] at hj
    obtain ⟨_, _, rfl⟩ := Option.map_eq_some_iff.1 hj
    exact ha
  · rw [getElem?_set_ne hij] at hj
    exact hothers b (mem_eraseIdx_iff_getElem?.2 ⟨j, Ne.symm hij, hj⟩)

lemma TaskOk.congr (h : TaskOk g task) (htransport : g'.transport = g.transport)
    (hnext : g'.nextGeneration = g.nextGeneration) : TaskOk g' task := by
  refine ⟨?_, h.shell, ?_, ?_⟩
  · rw [htransport]
    exact h.live
  · rw [hnext]
    exact h.bound
  · rw [htransport]
    exact h.clearing

/-- Tasks that are not within an invalidation behind the step were not before. -/
lemma forall_isClearing_of_set (htask : s.tasks[i]? = some task) (hself : task.isClearing = false)
    (h : ∀ t ∈ s.tasks.set i task', t.isClearing = false) :
    ∀ t ∈ s.tasks, t.isClearing = false := by
  intro t ht
  obtain ⟨j, hj⟩ := mem_iff_getElem?.1 ht
  by_cases hij : i = j
  · subst hij
    rw [htask] at hj
    cases hj
    exact hself
  · refine h t (mem_iff_getElem?.2 ⟨j, ?_⟩)
    rw [getElem?_set_ne hij, hj]

/-- A shell of the transport is handed out. -/
structure Fresh (g : JumpserverGateway) (entry : Entry) : Prop where
  handed : ∃ shell lease, entry = .handedOut shell lease ∧ shell.generation = lease ∧
    g.transport = some lease

variable {entries : List Entry} {user : User} {ip : Str} {attempt lease : ℕ}
  {next : Option (User × Str × ℕ)}

section Moves

variable (h : Inv s) (htask : s.tasks[i]? = some task) (hclearing : task.isClearing = false)

include h htask hclearing

/-- A step that leaves the transport alone. -/
lemma Inv.move {cache : SessionCache} (hok : TaskOk s.gateway task')
    (hcache : ∀ e ∈ cache.shells, e ∈ s.gateway.sessionCache.shells ∨
      e.2.shell.generation = e.2.transportLease ∧ s.gateway.transport = some e.2.transportLease)
    (hentries : ∀ entry ∈ entries, Fresh s.gateway entry) :
    Inv ⟨{ s.gateway with sessionCache := cache }, s.tasks.set i task', s.log ++ entries⟩ := by
  have hnew : ∀ generation, .invalidated generation ∉ entries := by
    intro generation hmem
    obtain ⟨shell, lease, heq, -⟩ := (hentries _ hmem).handed
    cases heq
  refine ⟨?_, ?_, ?_, h.bound, ?_, ?_, ?_⟩
  · exact forall_mem_set
      (fun t ht => (h.tasks t (mem_of_mem_eraseIdx ht)).congr rfl rfl) (hok.congr rfl rfl)
  · intro e he
    rcases hcache e he with hold | ⟨hown, -⟩
    · exact h.own e hold
    · exact hown
  · intro hno e he
    rcases hcache e he with hold | ⟨-, hcurrent⟩
    · exact h.cached (forall_isClearing_of_set htask hclearing hno) e hold
    · exact hcurrent
  · intro generation hmem
    rcases mem_append.1 hmem with hold | hmem
    · exact h.invalidated generation hold
    · exact absurd hmem (hnew generation)
  · intro shell lease hmem
    rcases mem_append.1 hmem with hold | hmem
    · exact h.paired shell lease hold
    · obtain ⟨shell', lease', heq, hown, -⟩ := (hentries _ hmem).handed
      cases heq
      exact hown
  · refine pairwise_append.2 ⟨h.retired, ?_, ?_⟩
    · refine pairwise_of_forall_mem_list fun entry hentry later hlater => ?_
      rintro generation shell lease rfl
      exact absurd hentry (hnew generation)
    · rintro entry hentry later hlater generation shell lease rfl rfl
      obtain ⟨shell', lease', heq, rfl, hcurrent⟩ := (hentries _ hlater).handed
      cases heq
      rintro rfl
      exact (h.invalidated _ hentry).2 hcurrent

lemma Inv.stay (hok : TaskOk s.gateway task') :
    Inv ⟨s.gateway, s.tasks.set i task', s.log ++ []⟩ :=
  h.move htask hclearing hok (fun _ he => .inl he) nofun

lemma Inv.connect (hnone : s.gateway.transport = none)
    (hnext : s.gateway.nextGeneration < 2 ^ 64 - 1) :
    Inv ⟨{ s.gateway with
        transport := some s.gateway.nextGeneration
        nextGeneration := min (s.gateway.nextGeneration + 1) (2 ^ 64 - 1) },
      s.tasks.set i (.leased user ip attempt s.gateway.nextGeneration), s.log ++ []⟩ := by
  have hmin : min (s.gateway.nextGeneration + 1) (2 ^ 64 - 1) = s.gateway.nextGeneration + 1 := by
    omega
  rw [hmin, append_nil]
  -- without a transport no task is live and nothing is cached
  have hlive : ∀ t ∈ s.tasks, t.live = none := by
    intro t ht
    refine Option.eq_none_iff_forall_not_mem.2 fun lease hlease => ?_
    have hcurrent := (h.tasks t ht).live lease hlease
    rw [hnone] at hcurrent
    cases hcurrent
  refine ⟨forall_mem_set ?_ ?_, h.own, ?_, ?_, ?_, h.paired, h.retired⟩
  · intro t ht
    have hmem := mem_of_mem_eraseIdx ht
    refine ⟨by rw [hlive t hmem]; exact nofun, by rw [hlive t hmem]; exact fun _ _ => nofun, ?_, ?_⟩
    · intro lease hlease
      exact Nat.lt_succ_of_lt ((h.tasks t hmem).bound lease hlease)
    · intro _ lease hlease heq
      have hless := (h.tasks t hmem).bound lease hlease
      cases heq
      omega
  · refine ⟨?_, nofun, ?_, nofun⟩
    · rintro lease hlease
      exact hlease
    · rintro lease hlease
      cases hlease
      exact Nat.lt_succ_self _
  · intro hno e he
    have hcurrent := h.cached (forall_isClearing_of_set htask hclearing hno) e he
    rw [hnone] at hcurrent
    cases hcurrent
  · rintro generation hgeneration
    cases hgeneration
    exact Nat.lt_succ_self _
  · intro generation hmem
    have hless := (h.invalidated generation hmem).1
    refine ⟨Nat.lt_succ_of_lt hless, fun heq => ?_⟩
    cases heq
    omega

end Moves

/-- Without a transport the tasks that are not live are as they were. -/
lemma TaskOk.disconnect (h : TaskOk g task) (hlive : task.live = none) :
    TaskOk { g with transport := none } task :=
  ⟨by rw [hlive]; exact nofun, by rw [hlive]; exact fun _ _ => nofun, h.bound, fun _ _ _ => nofun⟩

/-- The first section of `invalidate_transport`. -/
lemma Inv.invalidate (h : Inv s) (htask : s.tasks[i]? = some (.invalidating next lease))
    (hcond : s.Cond (.task i .invalidate)) :
    Inv ⟨s.gateway.invalidateGeneration lease, s.tasks.set i (.clearing next lease),
      s.log ++ []⟩ := by
  have hok := h.tasks _ (mem_of_getElem? htask)
  have hbound := hok.bound lease rfl
  rw [JumpserverGateway.invalidateGeneration]
  split_ifs with hcurrent
  · have hothers : ∀ t ∈ s.tasks.eraseIdx i, t.live ≠ some lease :=
      hcond lease hcurrent (by rw [htask]; rfl)
    rw [append_nil]
    refine ⟨forall_mem_set ?_ ⟨nofun, nofun, ?_, fun _ _ _ => nofun⟩, h.own, ?_, nofun, ?_,
      h.paired, h.retired⟩
    · intro t ht
      have htok := h.tasks t (mem_of_mem_eraseIdx ht)
      refine htok.disconnect (Option.eq_none_iff_forall_not_mem.2 fun lease' hlease' => ?_)
      have hsame := htok.live lease' hlease'
      rw [hcurrent] at hsame
      cases hsame
      exact hothers t ht hlease'
    · rintro lease' hlease'
      cases hlease'
      exact hbound
    · intro hno
      have hmem : Task.clearing next lease ∈ s.tasks.set i (.clearing next lease) := by
        refine mem_iff_getElem?.2 ⟨i, ?_⟩
        rw [getElem?_set_self', htask]
        rfl
      cases hno _ hmem
    · exact fun generation hmem => ⟨(h.invalidated generation hmem).1, nofun⟩
  · refine h.stay htask rfl ⟨nofun, nofun, ?_, ?_⟩
    · rintro lease' hlease'
      cases hlease'
      exact hbound
    · rintro - lease' hlease'
      cases hlease'
      exact hcurrent

lemma taskOk_resume (next : Option (User × Str × ℕ)) : TaskOk g (Task.resume next) := by
  cases next with
  | none | some => exact ⟨nofun, nofun, nofun, nofun⟩

/-- The second section of `invalidate_transport`. -/
lemma Inv.clear (h : Inv s) (htask : s.tasks[i]? = some (.clearing next lease)) :
    Inv ⟨{ s.gateway with sessionCache := s.gateway.sessionCache.clear },
      s.tasks.set i (Task.resume next), s.log ++ [.invalidated lease]⟩ := by
  have hok := h.tasks _ (mem_of_getElem? htask)
  refine ⟨forall_mem_set ?_ (taskOk_resume next), nofun, fun _ => nofun, h.bound, ?_, ?_, ?_⟩
  · exact fun t ht => (h.tasks t (mem_of_mem_eraseIdx ht)).congr rfl rfl
  · intro generation hmem
    rcases mem_append.1 hmem with hold | hnew
    · exact h.invalidated generation hold
    · cases mem_singleton.1 hnew
      exact ⟨hok.bound lease rfl, hok.clearing rfl lease rfl⟩
  · intro shell lease' hmem
    rcases mem_append.1 hmem with hold | hnew
    · exact h.paired shell lease' hold
    · cases mem_singleton.1 hnew
  · refine pairwise_append.2 ⟨h.retired, pairwise_singleton _ _, ?_⟩
    rintro entry - later hlater generation shell lease' - rfl
    cases mem_singleton.1 hlater

lemma Task.lease_of_live (h : task.live = some lease) : task.lease = some lease := by
  cases task <;> first | exact h | cases h

/-- The transport is pruned only when there is no lease of it. -/
lemma Inv.prune {generation : ℕ} (h : Inv s) (hsome : s.gateway.transport = some generation)
    (hcount : s.strongCount generation = 1) :
    Inv { s with gateway := { s.gateway with transport := none } } := by
  have htasks : generation ∉ s.tasks.filterMap Task.lease :=
    count_eq_zero.1 (by rw [State.strongCount] at hcount; omega)
  have hentries : generation ∉ s.gateway.sessionCache.shells.map (·.2.transportLease) :=
    count_eq_zero.1 (by rw [State.strongCount] at hcount; omega)
  refine ⟨?_, h.own, ?_, nofun, ?_, h.paired, h.retired⟩
  · intro t ht
    refine (h.tasks t ht).disconnect (Option.eq_none_iff_forall_not_mem.2 fun lease hlease => ?_)
    have hsame := (h.tasks t ht).live lease hlease
    rw [hsome] at hsame
    cases hsame
    exact htasks (mem_filterMap.2 ⟨t, ht, Task.lease_of_live hlease⟩)
  · intro hno e he
    have hsame := h.cached hno e he
    rw [hsome] at hsame
    cases hsame
    exact absurd (mem_map_of_mem he) hentries
  · exact fun generation hmem => ⟨(h.invalidated generation hmem).1, nofun⟩

lemma Inv.taskOk (h : Inv s) (hlive : ∀ lease ∈ task.live, s.gateway.transport = some lease)
    (hshell : ∀ shell ∈ task.shell, ∀ lease ∈ task.live, shell.generation = lease)
    (hlease : task.lease = task.live) (hclearing : task.isClearing = false) :
    TaskOk s.gateway task := by
  refine ⟨hlive, hshell, fun lease hmem => ?_, fun hyes => ?_⟩
  · rw [hlease] at hmem
    exact h.bound lease (hlive lease hmem)
  · rw [hclearing] at hyes
    cases hyes

lemma Inv.ensure {retry : ℕ} {created : Except ErrorKind Unit} (h : Inv s)
    (htask : s.tasks[i]? = some (.ensuring user ip attempt retry))
    (hnext : s.gateway.nextGeneration < 2 ^ 64 - 1)
    (hstep : Task.step s.gateway (.ensuring user ip attempt retry) (.ensure created) =
      some (g', task', entries)) : Inv ⟨g', s.tasks.set i task', s.log ++ entries⟩ := by
  simp only [Task.step, JumpserverGateway.checkoutOrInsertWith] at hstep
  cases htransport : s.gateway.transport with
  | some lease =>
    rw [htransport] at hstep
    cases hstep
    refine h.stay htask rfl (h.taskOk ?_ nofun rfl rfl)
    rintro lease' hlease'
    cases hlease'
    exact htransport
  | none =>
    rw [htransport] at hstep
    cases created with
    | error kind =>
      cases hstep
      refine h.stay htask rfl ?_
      split_ifs <;> exact ⟨nofun, nofun, nofun, nofun⟩
    | ok _ =>
      cases hstep
      exact h.connect htask rfl htransport hnext

lemma Inv.checkout (h : Inv s) (htask : s.tasks[i]? = some (.leased user ip attempt lease))
    (hno : ∀ t ∈ s.tasks, t.isClearing = false)
    (hstep : Task.step s.gateway (.leased user ip attempt lease) .checkout =
      some (g', task', entries)) : Inv ⟨g', s.tasks.set i task', s.log ++ entries⟩ := by
  have hok := h.tasks _ (mem_of_getElem? htask)
  have hcurrent : s.gateway.transport = some lease := hok.live lease rfl
  obtain ⟨htaken, hkept⟩ := s.gateway.sessionCache.checkout_spec ip
  simp only [Task.step] at hstep
  cases hcheckout : s.gateway.sessionCache.checkout ip with
  | mk taken cache =>
    rw [hcheckout] at hstep htaken hkept
    cases taken with
    | some shell =>
      cases hstep
      refine h.move htask rfl (h.taskOk ?_ ?_ rfl rfl) (fun e he => .inl (hkept e he)) nofun
      · rintro lease' hlease'
        cases hlease'
        exact hcurrent
      · rintro shell' hshell' lease' hlease'
        cases hshell'
        cases hlease'
        obtain ⟨e, he, rfl⟩ := htaken shell rfl
        have hsame := h.cached hno e he
        rw [hcurrent] at hsame
        rw [h.own e he, Option.some.inj hsame]
    | none =>
      cases hstep
      refine h.move htask rfl (h.taskOk ?_ nofun rfl rfl) (fun e he => .inl (hkept e he)) nofun
      rintro lease' hlease'
      cases hlease'
      exact hcurrent

lemma Inv.handOut {shell : PtyShell} (h : Inv s) (htask : s.tasks[i]? = some task)
    (hclearing : task.isClearing = false) (hcurrent : s.gateway.transport = some lease)
    (hshell : shell.generation = lease) :
    Inv ⟨s.gateway, s.tasks.set i (.held user ip lease shell),
      s.log ++ [.handedOut shell lease]⟩ := by
  refine h.move htask hclearing (h.taskOk ?_ ?_ rfl rfl) (fun _ he => .inl he) ?_
  · rintro lease' hlease'
    cases hlease'
    exact hcurrent
  · rintro shell' hshell' lease' hlease'
    cases hshell'
    cases hlease'
    exact hshell
  · intro entry hentry
    cases mem_singleton.1 hentry
    exact ⟨shell, lease, rfl, hshell, hcurrent⟩

lemma Inv.taskStep {event : TaskEvent} (h : Inv s) (htask : s.tasks[i]? = some task)
    (hcond : s.Cond (.task i event))
    (hstep : task.step s.gateway event = some (g', task', entries)) :
    Inv ⟨g', s.tasks.set i task', s.log ++ entries⟩ := by
  have hok := h.tasks _ (mem_of_getElem? htask)
  cases task <;> cases event <;> try cases hstep
  case ensuring.ensure => exact h.ensure htask hcond hstep
  case leased.checkout => exact h.checkout htask hcond hstep
  case probing.probe lease shell alive =>
    simp only [Task.step] at hstep
    split_ifs at hstep
    · cases hstep
      exact h.handOut htask rfl (hok.live lease rfl) (hok.shell shell rfl lease rfl)
    · cases hstep
      exact h.stay htask rfl (h.taskOk hok.live nofun rfl rfl)
  case opening.openTargetShell lease result =>
    cases result with
    | ok _ =>
      cases hstep
      exact h.handOut htask rfl (hok.live lease rfl) rfl
    | error kind =>
      cases hstep
      refine h.stay htask rfl ?_
      split_ifs
      · exact ⟨nofun, nofun, hok.bound, nofun⟩
      · exact ⟨nofun, nofun, hok.bound, nofun⟩
      · exact ⟨nofun, nofun, nofun, nofun⟩
  case invalidating.invalidate.refl => exact h.invalidate htask hcond
  case clearing.clear.refl => exact h.clear htask
  case held.returnFn user ip lease shell now =>
    obtain ⟨cache, hcache, heq⟩ := Option.map_eq_some_iff.1 hstep
    cases heq
    refine h.move htask rfl ?_ ?_ nofun
    · cases user with
      | session => exact ⟨nofun, nofun, hok.bound, nofun⟩
      | copy | probe => exact ⟨nofun, nofun, nofun, nofun⟩
    · intro e he
      rcases SessionCache.mem_insert hcache he with hnew | hold
      · rw [hnew]
        exact .inr ⟨hok.shell shell rfl lease rfl, hok.live lease rfl⟩
      · exact .inl hold
  case held.drop.refl => exact h.stay htask rfl ⟨nofun, nofun, nofun, nofun⟩
  case held.stall user _ _ _ =>
    rcases user with _ | (_ | attempt) | _ <;> cases hstep
    exact h.stay htask rfl ⟨nofun, nofun, hok.bound, nofun⟩
  case guarding.finish.refl => exact h.stay htask rfl ⟨nofun, nofun, nofun, nofun⟩

lemma Inv.step {event : Event} {s' : State} (h : Inv s) (hcond : s.Cond event)
    (hstep : s.step event = some s') : Inv s' := by
  cases event with
  | acquireShell user ip =>
    cases hstep
    refine ⟨?_, h.own, fun hno => h.cached fun t ht => hno t (mem_append_left _ ht), h.bound,
      h.invalidated, h.paired, h.retired⟩
    intro t ht
    rcases mem_append.1 ht with hold | hnew
    · exact h.tasks t hold
    · cases mem_singleton.1 hnew
      exact ⟨nofun, nofun, nofun, nofun⟩
  | task i event =>
    simp only [State.step] at hstep
    split at hstep
    · rename_i task htask
      obtain ⟨⟨g', task', entries⟩, htaskStep, rfl⟩ := Option.map_eq_some_iff.1 hstep
      exact h.taskStep htask hcond htaskStep
    · cases hstep
  | pruneTransport idle =>
    simp only [State.step] at hstep
    split at hstep
    · rename_i generation hsome
      split_ifs at hstep with hprune
      · cases hstep
        exact h.prune hsome hprune.1
      · cases hstep
        exact h
    · cases hstep
      exact h
  | pruneCache cutoff =>
    cases hstep
    refine ⟨fun t ht => (h.tasks t ht).congr rfl rfl, fun e he => h.own e (SessionCache.mem_prune
      he), fun hno e he => h.cached hno e (SessionCache.mem_prune he), h.bound, h.invalidated,
      h.paired, h.retired⟩

end inv

/-- In every run that meets the condition each shell is handed out with a lease of its own
transport, and none of a generation behind the end of its invalidation. -/
theorem shells_paired {maxCachedSessions : Option ℕ} {events : List Event} {s : State}
    (hrun : run State.step (.start maxCachedSessions) events = some s)
    (hcond : Meets State.step State.Cond (.start maxCachedSessions) events) :
    State.Paired s.log ∧ State.Retired s.log := by
  have h : Inv s := run_invariant (fun h hcond hstep => h.step hcond hstep)
    (inv_start maxCachedSessions) hcond hrun
  exact ⟨h.paired, h.retired⟩

/-- A call of task `i` that finds nothing in the cache and opens a shell. -/
def opens (i : ℕ) : List Event :=
  [.task i (.ensure (.ok ())), .task i .checkout, .task i (.openTargetShell (.ok ()))]

def reuses (i : ℕ) : List Event :=
  [.task i (.ensure (.ok ())), .task i .checkout, .task i (.probe true)]

def host : Str := "10.0.0.1"

/-- A download stalls and is done again, and a shell of the new transport is used twice. -/
def retried : List Event :=
  .acquireShell (.copy 0) host :: opens 0 ++
    [.task 0 .stall, .task 0 .invalidate, .task 0 .clear] ++ opens 0 ++
    [.task 0 (.returnFn 5), .acquireShell .session host] ++ reuses 1

theorem shells_paired_retried :
    ∃ s, run State.step (.start (some 4)) retried = some s ∧
      s.log = [.handedOut ⟨1⟩ 1, .invalidated 1, .handedOut ⟨2⟩ 2, .handedOut ⟨2⟩ 2] ∧
      State.Paired s.log ∧ State.Retired s.log := by
  have hrun : run State.step (.start (some 4)) retried = some _ := rfl
  exact ⟨_, hrun, rfl, shells_paired hrun (by decide)⟩

def otherHost : Str := "10.0.0.2"

/-- A download of task `i` stalls, and the transport is invalidated. -/
def stalls (i : ℕ) : List Event := [.task i .stall, .task i .invalidate, .task i .clear]

/-- A session returns its shell behind the invalidation of its transport. -/
def returnedLate : List Event :=
  .acquireShell .session host :: opens 0 ++ .acquireShell (.copy 0) host :: opens 1 ++ stalls 1 ++
    .task 0 (.returnFn 5) :: reuses 1

/-- A call has its lease from before the invalidation, and its shell from behind it. -/
def leasedEarly : List Event :=
  [.acquireShell .session host, .task 0 (.ensure (.ok ())), .acquireShell (.copy 0) host] ++
    opens 1 ++ stalls 1 ++ opens 1 ++
    [.task 1 (.returnFn 5), .task 0 .checkout, .task 0 (.probe true)]

/-- A call comes between the two sections of an invalidation. -/
def comesBetween : List Event :=
  .acquireShell .session host :: opens 0 ++
    [.task 0 (.returnFn 5), .task 0 .finish, .acquireShell (.copy 0) otherHost] ++ opens 1 ++
    [.task 1 .stall, .task 1 .invalidate, .acquireShell .session host, .task 2 (.ensure (.ok ())),
      .task 2 .checkout, .task 1 .clear, .task 2 (.probe true)]

/-- A call opens its shell behind the invalidation. -/
def opensLate : List Event :=
  [.acquireShell .session host, .task 0 (.ensure (.ok ())), .task 0 .checkout,
    .acquireShell (.copy 0) otherHost] ++ opens 1 ++ stalls 1 ++
    [.task 0 (.openTargetShell (.ok ()))]

/-- A shell can be handed out with the lease of another transport, and behind the end of its own. -/
theorem shells_mispaired :
    (∃ s, run State.step (.start none) returnedLate = some s ∧ s.log =
      [.handedOut ⟨1⟩ 1, .handedOut ⟨1⟩ 1, .invalidated 1, .handedOut ⟨1⟩ 2] ∧
      ¬State.Paired s.log ∧ ¬State.Retired s.log) ∧
    (∃ s, run State.step (.start none) leasedEarly = some s ∧ s.log =
      [.handedOut ⟨1⟩ 1, .invalidated 1, .handedOut ⟨2⟩ 2, .handedOut ⟨2⟩ 1] ∧
      ¬State.Paired s.log) ∧
    (∃ s, run State.step (.start none) comesBetween = some s ∧ s.log =
      [.handedOut ⟨1⟩ 1, .handedOut ⟨1⟩ 1, .invalidated 1, .handedOut ⟨1⟩ 2] ∧
      ¬State.Paired s.log ∧ ¬State.Retired s.log) ∧
    (∃ s, run State.step (.start none) opensLate = some s ∧ s.log =
      [.handedOut ⟨1⟩ 1, .invalidated 1, .handedOut ⟨1⟩ 1] ∧ ¬State.Retired s.log) := by
  have hmixed : ¬State.Paired
      [.handedOut ⟨1⟩ 1, .handedOut ⟨1⟩ 1, .invalidated 1, .handedOut ⟨1⟩ 2] :=
    fun h => absurd (h ⟨1⟩ 2 (by simp)) (by decide)
  have hagain : ∀ lease, ¬State.Retired
      [.handedOut ⟨1⟩ 1, .invalidated 1, .handedOut ⟨1⟩ lease] := by
    intro lease h
    have hlater := rel_of_pairwise_cons (pairwise_cons.1 h).2 (mem_singleton_self _)
    exact hlater 1 ⟨1⟩ lease rfl rfl rfl
  refine ⟨⟨_, rfl, rfl, hmixed, fun h => hagain 2 (pairwise_cons.1 h).2⟩, ⟨_, rfl, rfl, fun h =>
    ?_⟩, ⟨_, rfl, rfl, hmixed, fun h => hagain 2 (pairwise_cons.1 h).2⟩, ⟨_, rfl, rfl, hagain 1⟩⟩
  exact absurd (h ⟨2⟩ 1 (mem_of_getElem? (i := 3) rfl)) (by decide)

end CrossHostOps.JumpserverShells
