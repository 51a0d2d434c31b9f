import CrossHostOps.Nesting
import CrossHostOps.ServerList

/-!
Nested `list_servers`: daemons that ask each other for their lists, over forward gateways and over
the connections of registered reverse nodes.
-/

namespace CrossHostOps.ListCalls

open Text Config Targets ServerList Nesting Results Relation

/-- A reverse node in the registry of a daemon, and the daemon at the other end. -/
structure Peer (δ : Type) where
  name : Str
  hostname : Str
  user : Str
  daemon : δ

/-- Daemons connected by forward gateways and reverse registrations. What a forward gateway that
leads to none of them answers is part of its daemon's record, whose `nodes` are not used. -/
structure Network (δ : Type) where
  daemon : δ → Daemon
  forward : δ → Str → Option δ
  registered : δ → List (Peer δ)

namespace Network

variable {δ : Type} (net : Network δ)

/-- The forward gateways that lead to a daemon of the network. -/
def forwardCalls (e : δ) : List (Str × δ) :=
  (net.daemon e).gateways.filterMap fun (name, kind) =>
    if kind = .xhod then (net.forward e name).map fun e' => (name, e') else none

def response (e : δ) (listing : Listing) : ServerListResponse where
  servers := listing.rows.map fun row =>
    let entry := serverEntryToRpc row.server
    if row.server.alias ∈ (net.registered e).map Peer.name then
      { entry with authKind := "reverse_proxy" }
    else entry
  merged := some <| listing.rows.map fun row =>
    ⟨some (serverEntryToRpc row.server), serverListSourceToString row.source⟩

/-- `process_list_servers` on a daemon, with the calls it makes on others, at most `fuel` deep.
Every such call sends `xho-no-recurse`. -/
def processListServers : ℕ → δ → Bool → Option Listing
  | 0, _, _ => none
  | fuel + 1, e, noRecurse => do
    let call (e' : δ) : Option RpcOutcome := do
      let listing ← processListServers fuel e' true
      some (.response (net.response e' listing))
    let answers ← (if noRecurse then [] else net.forwardCalls e).mapM fun (name, e') => do
      let answer ← call e'
      some (name, answer)
    let nodes ← (net.registered e).mapM fun peer => do
      let answer ← call peer.daemon
      some (⟨peer.name, peer.hostname, peer.user, some (answer.toList peer.name)⟩ : Node)
    let d := net.daemon e
    some ({ d with
      answers := fun name => (answers.lookup name).getD (d.answers name)
      nodes }.listing noRecurse)

def registeredDaemons (e : δ) : List δ := (net.registered e).map Peer.daemon

/-- The daemon, or one that it has a forward gateway to, asks the other along registrations. -/
def Asks (e x : δ) : Prop :=
  ∃ start, (start = e ∨ start ∈ (net.forwardCalls e).map Prod.snd) ∧
    ReflTransGen (Calls net.registeredDaemons) start x

/-- The daemon is registered with itself, directly or over other daemons. -/
def OnCycle (x : δ) : Prop := TransGen (Calls net.registeredDaemons) x x

end Network

variable {δ : Type} {net : Network δ} {e : δ} {fuel : ℕ}

/-- A call returns if all the calls it makes return. -/
lemma isSome_processListServers {noRecurse : Bool} :
    (net.processListServers (fuel + 1) e noRecurse).isSome ↔
      (noRecurse = false → ∀ e' ∈ (net.forwardCalls e).map Prod.snd,
          (net.processListServers fuel e' true).isSome) ∧
        ∀ e' ∈ net.registeredDaemons e, (net.processListServers fuel e' true).isSome := by
  rw [Network.processListServers, isSome_map₂, isSome_mapM, isSome_mapM]
  refine and_congr ?_ ?_
  · cases noRecurse with
    | true => simp
    | false =>
      rw [List.forall_mem_map]
      simp only [forall_const]
      exact forall₂_congr fun call _ => isSome_map.trans isSome_map
  · rw [Network.registeredDaemons, List.forall_mem_map]
    exact forall₂_congr fun peer _ => isSome_map.trans isSome_map

/-- A call with `xho-no-recurse` passes on along the registrations. -/
lemma isSome_iff_within :
    (net.processListServers fuel e true).isSome ↔ Within net.registeredDaemons fuel e := by
  induction fuel generalizing e with
  | zero => simp [Network.processListServers, Within]
  | succ fuel ih =>
    rw [isSome_processListServers]
    simp only [Bool.true_eq_false, false_implies, true_and, ih]
    rfl

/-- No cycle is asked if none of the calls that start from the daemon runs into one. -/
lemma not_onCycle_iff [Finite δ] : (∀ x, net.Asks e x → ¬ net.OnCycle x) ↔
    ∀ start ∈ e :: (net.forwardCalls e).map Prod.snd,
      ∃ n, Within net.registeredDaemons n start := by
  constructor
  · intro h start hmem
    exact exists_within_iff.2 fun x hx => h x ⟨start, List.mem_cons.1 hmem, hx⟩
  · rintro h x ⟨start, hmem, hx⟩
    exact exists_within_iff.1 (h start (List.mem_cons.2 hmem)) x hx

/-- **Nested lists**: the calls that `process_list_servers` starts are finitely many, and it
returns, exactly if they come to no daemon that is registered with itself over others. -/
theorem list_servers_returns_iff [Finite δ] (net : Network δ) (e : δ) :
    (∃ fuel, (net.processListServers fuel e false).isSome) ↔
      ∀ x, net.Asks e x → ¬ net.OnCycle x := by
  rw [not_onCycle_iff, List.forall_mem_cons]
  constructor
  · rintro ⟨fuel, h⟩
    cases fuel with
    | zero => cases h
    | succ fuel =>
      obtain ⟨hforward, hregistered⟩ := isSome_processListServers.1 h
      have hself : Within net.registeredDaemons (fuel + 1) e :=
        fun x hx => isSome_iff_within.1 (hregistered x hx)
      exact ⟨⟨fuel + 1, hself⟩, fun x hx => ⟨fuel, isSome_iff_within.1 (hforward rfl x hx)⟩⟩
  · rintro ⟨⟨m, hm⟩, h⟩
    obtain ⟨n, hn⟩ := exists_within_forall h
    refine ⟨max m n + 1, isSome_processListServers.2 ⟨fun _ x hx => ?_, fun x hx => ?_⟩⟩
    · exact isSome_iff_within.2 ((hn x hx).mono (le_max_right m n))
    · have hself : Within net.registeredDaemons (max m n + 1) e :=
        hm.mono ((le_max_left m n).trans (Nat.le_succ _))
      exact isSome_iff_within.2 (hself x hx)

/-! ### Two daemons -/

def plainDaemon (gateways : List GatewayConfig) : Daemon where
  process := bareHost
  config := { AppConfig.default bareHost with gateways }
  serverToml := .missing
  sshConfig := .missing
  hostname := []
  user := []
  answers _ := .timedOut
  nodes := []

/-- Each of two daemons has a forward gateway to the other; the second is also registered with
the first. -/
def hubAndNode : Network Bool where
  daemon _ := plainDaemon [.xhod { name := "gw", address := "h" }]
  forward e _ := some !e
  registered
    | true => [⟨"node", [], [], false⟩]
    | false => []

lemma calls_hubAndNode {x y : Bool} :
    Calls hubAndNode.registeredDaemons x y ↔ x = true ∧ y = false := by
  cases x <;> simp [Calls, Network.registeredDaemons, hubAndNode]

theorem list_servers_returns_iff_hubAndNode :
    ∃ fuel, (hubAndNode.processListServers fuel true false).isSome := by
  refine (list_servers_returns_iff hubAndNode true).2 fun x _ hcycle => ?_
  obtain ⟨y, hfirst, -⟩ := TransGen.head'_iff.1 hcycle
  obtain ⟨z, -, hlast⟩ := TransGen.tail'_iff.1 hcycle
  rw [calls_hubAndNode] at hfirst hlast
  exact absurd (hfirst.1.symm.trans hlast.2) (by decide)

/-- Two daemons that are registered with each other. -/
def mutualNodes : Network Bool where
  daemon _ := plainDaemon []
  forward _ _ := none
  registered e := [⟨"node", [], [], !e⟩]

lemma not_within_mutualNodes (fuel : ℕ) (e : Bool) :
    ¬ Within mutualNodes.registeredDaemons fuel e := by
  induction fuel generalizing e with
  | zero => exact id
  | succ fuel ih => exact fun h => ih (!e) (h (!e) List.mem_cons_self)

/-- They ask each other without end. -/
theorem mutual_nodes_never_return :
    ¬ ∃ fuel, (mutualNodes.processListServers fuel true false).isSome := by
  rintro ⟨fuel, h⟩
  cases fuel with
  | zero => cases h
  | succ fuel =>
    have hcall := (isSome_processListServers.1 h).2 false List.mem_cons_self
    exact not_within_mutualNodes fuel false (isSome_iff_within.1 hcall)

end CrossHostOps.ListCalls
