import Mathlib.Data.List.AList
import CrossHostOps.ServerList

/-!
The registry of reverse proxy nodes and the handshake tasks of `daemon/reverse_proxy.rs`. Every
connection has a task: it checks its name, registers a gateway under it and polls the node until a
health check fails, each step under a lock section of its own.

Any number of tasks run interleaved. Between the check and the registration, and between a failed
health check and the removal, every other task may run.
-/

namespace CrossHostOps.Handshakes

open Text Runs ServerList Targets

/-! ### The registry -/

/-- A gateway over the connection of one task. -/
structure ReverseProxyGateway where
  nodeName : Str
  connection : ℕ

structure ReverseProxyNodeInfo where
  name : Str
  peerAddr : Option Str
  fingerprint : Str
  connectedAt : ℕ
  hostname : Str
  user : Str

structure RegisteredNode where
  gateway : ReverseProxyGateway
  info : ReverseProxyNodeInfo

abbrev Registry := AList fun _ : Str => RegisteredNode

def alreadyRegistered (name : Str) : Str :=
  "reverse proxy node name '" ++ name ++
    "' is already registered; refusing new connection"

def Registry.contains (registry : Registry) (name : Str) : Bool := (registry.lookup name).isSome

def Registry.register (registry : Registry) (name : Str) (gateway : ReverseProxyGateway)
    (info : ReverseProxyNodeInfo) : Except Str Registry :=
  if registry.contains name then .error (alreadyRegistered name)
  else .ok (registry.insert name ⟨gateway, info⟩)

def Registry.unregister (registry : Registry) (name : Str) : Registry := registry.erase name

def Registry.updateNodeInfo (registry : Registry) (name hostname user : Str) : Registry :=
  match registry.lookup name with
  | none => registry
  | some node =>
    let info := if hostname ≠ [] then { node.info with hostname } else node.info
    let info := if user ≠ [] then { info with user } else info
    registry.insert name { node with info }

def Registry.gateway (registry : Registry) (name : Str) : Option ReverseProxyGateway :=
  (registry.lookup name).map (·.gateway)

variable {registry registry' : Registry} {name : Str} {i : ℕ}

lemma Registry.contains_eq_false (h : registry.contains name = false) :
    registry.gateway name = none := by
  cases hlookup : registry.lookup name with
  | none => rw [Registry.gateway, hlookup, Option.map_none]
  | some node => simp [Registry.contains, hlookup] at h

lemma Registry.gateway_register {gateway : ReverseProxyGateway} {info : ReverseProxyNodeInfo}
    (h : registry.register name gateway info = .ok registry') :
    registry.gateway name = none ∧
      ∀ n, registry'.gateway n = if n = name then some gateway else registry.gateway n := by
  unfold Registry.register at h
  split at h
  · cases h
  next hfree =>
    cases h
    refine ⟨Registry.contains_eq_false (by simpa using hfree), fun n => ?_⟩
    unfold Registry.gateway
    split
    next hn =>
      rw [hn, AList.lookup_insert]
      rfl
    next hn => rw [AList.lookup_insert_ne hn]

lemma Registry.gateway_unregister (registry : Registry) (name n : Str) :
    (registry.unregister name).gateway n = if n = name then none else registry.gateway n := by
  unfold Registry.gateway Registry.unregister
  split
  next hn =>
    rw [hn, AList.lookup_erase]
    rfl
  next hn => rw [AList.lookup_erase_ne hn]

lemma Registry.gateway_updateNodeInfo (registry : Registry) (name hostname user n : Str) :
    (registry.updateNodeInfo name hostname user).gateway n = registry.gateway n := by
  unfold Registry.updateNodeInfo
  cases hlookup : registry.lookup name with
  | none => rfl
  | some node =>
    unfold Registry.gateway
    by_cases hn : n = name
    · rw [hn, hlookup, AList.lookup_insert]
      rfl
    · rw [AList.lookup_insert_ne hn]

/-! ### Tasks -/

/-- Where `process_reverse_handshake` stands. -/
inductive Phase where
  /-- Before the check of the name. -/
  | accepted
  /-- The name was free. -/
  | checked
  /-- At the head of the monitor loop. -/
  | watching
  /-- A health check is on its way. -/
  | polling
  /-- The node has reported its host and user. -/
  | updating (hostname user : Str)
  /-- The health check has failed. -/
  | failed
  | ended (result : Except Str Unit)

/-- The monitor loop, up to the removal that leaves it. -/
def Phase.inLoop : Phase → Bool
  | .watching | .polling | .updating _ _ | .failed => true
  | .accepted | .checked | .ended _ => false

/-- A handshake: what its connection is known by, and where its task stands. -/
structure Task where
  nodeName : Str
  peerAddr : Option Str
  publicKeyFingerprint : Str
  phase : Phase

/-- One lock section of a task, or the reply it waits for. -/
inductive Action where
  | check
  | register (now : ℕ)
  | look
  | reply (result : Except Str ServerListResponse)
  | update
  | unregister

/-- The row in which a node tells of itself. -/
def selfRow (response : ServerListResponse) : Option RpcServerEntry := do
  let rows ← response.merged
  let row ← rows.find? fun row => row.server.any (·.alias = selfTarget)
  row.server

/-- What task `i` does next: the registry it leaves and where it stands then. An action that does
not belong to its phase cannot happen. -/
def act (registry : Registry) (i : ℕ) (task : Task) (action : Action) : Option (Registry × Phase) :=
  match task.phase, action with
  | .accepted, .check =>
    if task.nodeName = [] then
      some (registry, .ended (.error
        "reverse proxy node name is empty (subsystem must be xho-reverse:<name>)"))
    else if registry.contains task.nodeName then
      some (registry, .ended (.error (alreadyRegistered task.nodeName)))
    else some (registry, .checked)
  | .checked, .register now =>
    match registry.register task.nodeName ⟨task.nodeName, i⟩
        { name := task.nodeName, peerAddr := task.peerAddr
          fingerprint := task.publicKeyFingerprint, connectedAt := now, hostname := [], user := [] }
      with
    | .error e => some (registry, .ended (.error e))
    | .ok registry => some (registry, .watching)
  | .watching, .look =>
    some (registry, if registry.contains task.nodeName then .polling else .ended (.ok ()))
  | .polling, .reply (.ok response) =>
    match selfRow response with
    | none => some (registry, .watching)
    | some server => some (registry, .updating server.host server.user)
  | .polling, .reply (.error _) => some (registry, .failed)
  | .updating hostname user, .update =>
    some (registry.updateNodeInfo task.nodeName hostname user, .watching)
  | .failed, .unregister => some (registry.unregister task.nodeName, .ended (.ok ()))
  | _, _ => none

/-- What an action can do to the registered gateways and to the task's place in the loop. -/
inductive Effect (i : ℕ) (task : Task) (registry registry' : Registry) (phase : Phase) : Prop
  | kept (hgateway : ∀ n, registry'.gateway n = registry.gateway n)
      (hloop : phase.inLoop = task.phase.inLoop)
  | registered (hfree : registry.gateway task.nodeName = none)
      (hgateway : ∀ n, registry'.gateway n =
        if n = task.nodeName then some ⟨task.nodeName, i⟩ else registry.gateway n)
      (hout : task.phase.inLoop = false) (hin : phase.inLoop = true)
  | vanished (hfree : registry.gateway task.nodeName = none) (hin : task.phase.inLoop = true)
  | unregistered (hgateway : ∀ n, registry'.gateway n =
        if n = task.nodeName then none else registry.gateway n)
      (hin : task.phase.inLoop = true) (hout : phase.inLoop = false)

variable {task : Task} {action : Action} {phase : Phase}

lemma act_effect (h : act registry i task action = some (registry', phase)) :
    Effect i task registry registry' phase := by
  obtain ⟨nodeName, peerAddr, fingerprint, stands⟩ := task
  unfold act at h
  split at h
  next hphase =>
    cases hphase
    split at h
    · cases h
      exact .kept (fun _ => rfl) rfl
    · split at h
      · cases h
        exact .kept (fun _ => rfl) rfl
      · cases h
        exact .kept (fun _ => rfl) rfl
  next now hphase =>
    cases hphase
    split at h
    · cases h
      exact .kept (fun _ => rfl) rfl
    next hregister =>
      cases h
      obtain ⟨hfree, hgateway⟩ := Registry.gateway_register hregister
      exact .registered hfree hgateway rfl rfl
  next hphase =>
    cases hphase
    cases h
    cases hcontains : registry.contains nodeName with
    | true => exact .kept (fun _ => rfl) rfl
    | false => exact .vanished (Registry.contains_eq_false hcontains) rfl
  next response hphase =>
    cases hphase
    split at h
    · cases h
      exact .kept (fun _ => rfl) rfl
    · cases h
      exact .kept (fun _ => rfl) rfl
  next hphase =>
    cases hphase
    cases h
    exact .kept (fun _ => rfl) rfl
  next hostname user hphase =>
    cases hphase
    cases h
    exact .kept (Registry.gateway_updateNodeInfo _ _ _ _) rfl
  next hphase =>
    cases hphase
    cases h
    exact .unregistered (Registry.gateway_unregister _ _) rfl rfl
  · cases h

/-! ### Every interleaving -/

structure State where
  registry : Registry
  tasks : List Task

def State.initial : State := ⟨∅, []⟩

inductive Event where
  /-- A connection is accepted and its task spawned. -/
  | connect (nodeName : Str) (peerAddr : Option Str) (publicKeyFingerprint : Str)
  | act (i : ℕ) (action : Action)

def step (s : State) : Event → Option State
  | .connect nodeName peerAddr fingerprint =>
    some { s with tasks := s.tasks ++ [⟨nodeName, peerAddr, fingerprint, .accepted⟩] }
  | .act i action => do
    let task ← s.tasks[i]?
    let (registry, phase) ← act s.registry i task action
    some ⟨registry, s.tasks.set i { task with phase }⟩

def Monitors (s : State) (i : ℕ) (name : Str) : Prop :=
  ∃ task, s.tasks[i]? = some task ∧ task.nodeName = name ∧ task.phase.inLoop = true

/-- The registered gateways are those of the tasks in the monitor loop. -/
def Owned (s : State) : Prop :=
  ∀ name gateway, s.registry.gateway name = some gateway ↔
    gateway.nodeName = name ∧ Monitors s gateway.connection name

lemma owned_initial : Owned State.initial := by
  intro name gateway
  constructor
  · intro h
    cases h
  · rintro ⟨-, task, htask, -⟩
    cases htask

variable {s s' : State}

lemma monitors_set (htask : s.tasks[i]? = some task) (j : ℕ) (name : Str) :
    Monitors ⟨registry, s.tasks.set i { task with phase }⟩ j name ↔
      if j = i then task.nodeName = name ∧ phase.inLoop = true else Monitors s j name := by
  have hi : i < s.tasks.length := (List.getElem?_eq_some_iff.1 htask).1
  unfold Monitors
  by_cases hj : j = i
  · subst hj
    rw [if_pos rfl, List.getElem?_set_self hi]
    constructor
    · rintro ⟨task', htask', hname, hloop⟩
      cases htask'
      exact ⟨hname, hloop⟩
    · rintro ⟨hname, hloop⟩
      exact ⟨_, rfl, hname, hloop⟩
  · rw [if_neg hj, List.getElem?_set_ne (Ne.symm hj)]

lemma monitors_connect (hphase : task.phase = .accepted) (j : ℕ) (name : Str) :
    Monitors { s with tasks := s.tasks ++ [task] } j name ↔ Monitors s j name := by
  constructor
  · rintro ⟨task', htask', hname, hloop⟩
    rcases lt_or_ge j s.tasks.length with hj | hj
    · rw [List.getElem?_append_left hj] at htask'
      exact ⟨task', htask', hname, hloop⟩
    · -- the new task has not registered
      rw [List.getElem?_append_right hj, List.getElem?_singleton] at htask'
      split at htask'
      · cases htask'
        rw [hphase] at hloop
        cases hloop
      · cases htask'
  · rintro ⟨task', htask', hname, hloop⟩
    refine ⟨task', ?_, hname, hloop⟩
    rw [List.getElem?_append_left (List.getElem?_eq_some_iff.1 htask').1]
    exact htask'

lemma monitors_of_ne {j : ℕ} {p : Prop} (htask : s.tasks[i]? = some task)
    (hname : task.nodeName ≠ name) :
    (if j = i then task.nodeName = name ∧ p else Monitors s j name) ↔ Monitors s j name := by
  split
  next hj =>
    constructor
    · exact fun h => absurd h.1 hname
    · rintro ⟨task', htask', hname', -⟩
      rw [hj, htask] at htask'
      cases htask'
      exact absurd hname' hname
  · rfl

lemma Owned.act (h : Owned s) (htask : s.tasks[i]? = some task)
    (heffect : Effect i task s.registry registry phase) :
    Owned ⟨registry, s.tasks.set i { task with phase }⟩ := by
  intro name gateway
  rw [monitors_set htask]
  cases heffect with
  | kept hgateway hloop =>
    rw [hgateway, h name gateway]
    refine and_congr_right fun _ => ?_
    split
    next hi =>
      rw [hi]
      constructor
      · rintro ⟨task', htask', hname, hin⟩
        obtain rfl := Option.some.inj (htask.symm.trans htask')
        exact ⟨hname, hloop.trans hin⟩
      · rintro ⟨hname, hin⟩
        exact ⟨task, htask, hname, hloop.symm.trans hin⟩
    · rfl
  | registered hfree hgateway hout hin =>
    rw [hgateway]
    by_cases hn : name = task.nodeName
    · subst hn
      rw [if_pos rfl]
      constructor
      · intro hnew
        cases hnew
        exact ⟨rfl, by simp [hin]⟩
      · rintro ⟨hname, hmonitors⟩
        split at hmonitors
        next hi => rw [← hname, ← hi]
        next hi =>
          -- another task in the loop of this name would have it registered
          have howner := (h _ gateway).2 ⟨hname, hmonitors⟩
          rw [hfree] at howner
          cases howner
    · rw [if_neg hn, h name gateway, monitors_of_ne htask (Ne.symm hn)]
  | vanished hfree hin =>
    have howner := (h task.nodeName ⟨task.nodeName, i⟩).2 ⟨rfl, task, htask, rfl, hin⟩
    rw [hfree] at howner
    cases howner
  | unregistered hgateway hin hout =>
    rw [hgateway]
    by_cases hn : name = task.nodeName
    · subst hn
      rw [if_pos rfl]
      constructor
      · intro hnone
        cases hnone
      · rintro ⟨hname, hmonitors⟩
        split at hmonitors
        · rw [hout] at hmonitors
          cases hmonitors.2
        next hi =>
          -- the task that leaves owned the name, so no other did
          have hown := (h task.nodeName ⟨task.nodeName, i⟩).2 ⟨rfl, task, htask, rfl, hin⟩
          have hother := (h _ gateway).2 ⟨hname, hmonitors⟩
          obtain rfl := Option.some.inj (hown.symm.trans hother)
          exact absurd rfl hi
    · rw [if_neg hn, h name gateway, monitors_of_ne htask (Ne.symm hn)]

lemma step_act (h : step s (.act i action) = some s') :
    ∃ task registry phase, s.tasks[i]? = some task ∧
      Handshakes.act s.registry i task action = some (registry, phase) ∧
      s' = ⟨registry, s.tasks.set i { task with phase }⟩ := by
  simp only [step, Option.bind_eq_bind, Option.bind_eq_some_iff, Prod.exists] at h
  obtain ⟨task, htask, registry, phase, hact, hs'⟩ := h
  cases hs'
  exact ⟨task, registry, phase, htask, hact, rfl⟩

lemma Owned.step {e : Event} (h : Owned s) (hstep : step s e = some s') : Owned s' := by
  cases e with
  | connect nodeName peerAddr fingerprint =>
    cases hstep
    intro name gateway
    rw [monitors_connect rfl]
    exact h name gateway
  | act i action =>
    obtain ⟨task, registry, phase, htask, hact, rfl⟩ := step_act hstep
    exact h.act htask (act_effect hact)

theorem owned_of_run {es : List Event} (hrun : run step .initial es = some s) : Owned s :=
  run_keeps Owned.step owned_initial hrun

/-- A task that removes a registration has left a failed health check behind. -/
lemma act_unregister (h : act registry i task .unregister = some (registry', phase)) :
    task.phase.inLoop = true ∧ registry' = registry.erase task.nodeName := by
  unfold act at h
  cases hphase : task.phase with
  | failed =>
    rw [hphase] at h
    cases h
    exact ⟨rfl, rfl⟩
  | accepted | checked | watching | polling | updating | ended => simp [hphase] at h

/-- **One monitor per registered node**: after every run, a registered name has exactly one task in
its monitor loop, its gateway is the one of that task, and a removal takes the registration of the
task that makes it and no other. -/
theorem one_monitor_per_registered_node {s : State} {es : List Event}
    (hrun : run step .initial es = some s) :
    (∀ name node, s.registry.lookup name = some node → ∃! i, Monitors s i name) ∧
    (∀ name node i, s.registry.lookup name = some node → Monitors s i name →
      node.gateway = ⟨name, i⟩) ∧
    ∀ i s', step s (.act i .unregister) = some s' →
      ∃ task node, s.tasks[i]? = some task ∧ s.registry.lookup task.nodeName = some node ∧
        node.gateway = ⟨task.nodeName, i⟩ ∧ s'.registry = s.registry.erase task.nodeName := by
  have howned := owned_of_run hrun
  have hgateway : ∀ name node i, s.registry.lookup name = some node → Monitors s i name →
      node.gateway = ⟨name, i⟩ := by
    intro name node i hnode hmonitors
    have howner := (howned name ⟨name, i⟩).2 ⟨rfl, hmonitors⟩
    rw [Registry.gateway, hnode] at howner
    exact Option.some.inj howner
  refine ⟨?_, hgateway, ?_⟩
  · intro name node hnode
    have hmonitors := (howned name node.gateway).1 (by rw [Registry.gateway, hnode]; rfl)
    refine ⟨node.gateway.connection, hmonitors.2, fun i hi => ?_⟩
    rw [hgateway name node i hnode hi]
  · intro i s' hstep
    obtain ⟨task, registry, phase, htask, hact, rfl⟩ := step_act hstep
    obtain ⟨hin, rfl⟩ := act_unregister hact
    have howner := (howned task.nodeName ⟨task.nodeName, i⟩).2 ⟨rfl, task, htask, rfl, hin⟩
    obtain ⟨node, hnode, hnodeGateway⟩ := Option.map_eq_some_iff.1 howner
    exact ⟨task, node, htask, hnode, hnodeGateway, rfl⟩

/-- Two connections of one name: both find it free, and the second one registers it. -/
def reconnecting : List Event :=
  [.connect "web" none [], .connect "web" none [], .act 0 .check, .act 1 .check,
    .act 1 (.register 3), .act 0 (.register 4), .act 1 .look, .act 1 (.reply (.error []))]

theorem one_monitor_reconnecting :
    ∃ s node s', run step .initial reconnecting = some s ∧
      s.registry.lookup "web".toList = some node ∧ (∃! i, Monitors s i "web".toList) ∧
      step s (.act 1 .unregister) = some s' ∧
      ∃ task node, s.tasks[1]? = some task ∧ s.registry.lookup task.nodeName = some node ∧
        node.gateway = ⟨task.nodeName, 1⟩ ∧ s'.registry = s.registry.erase task.nodeName := by
  have hrun : run step .initial reconnecting = some _ := rfl
  have h := one_monitor_per_registered_node hrun
  exact ⟨_, _, _, rfl, rfl, h.1 _ _ rfl, rfl, h.2.2 1 _ rfl⟩

end CrossHostOps.Handshakes
