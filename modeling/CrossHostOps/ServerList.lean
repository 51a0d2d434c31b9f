import CrossHostOps.JumpserverShells
import CrossHostOps.Targets

/-!
The merged list of servers: what each kind of gateway lists, how a daemon puts the lists together
(`process_list_servers`), and how it resolves a target against them
(`resolve_target_with_merged_view`).
-/

namespace CrossHostOps.ServerList

open Text Config Inventory Targets
open JumpserverShells (ErrorKind)

structure GatewayError where
  kind : ErrorKind
  source : Str
  deriving DecidableEq

def GatewayError.toStr (e : GatewayError) : Str :=
  let kind := match e.kind with
    | .resolution => "resolution"
    | .transport => "transport"
    | .execution => "execution"
    | .unsupported => "unsupported"
  '[' :: kind.toList ++ "] " ++ e.source

/-! ### `DirectGateway` and `LocalhostGateway` -/

structure ResolvedTarget where
  host : Str
  port : UInt16
  user : Str
  auth : DirectAuth
  shell : Option Str
  defaultsShell : Str
  deriving DecidableEq

def targetNotFound (target : Str) : GatewayError :=
  ⟨.resolution, "target '" ++ target ++ "' not found"⟩

/-- `DirectGateway::resolve_target`. `secretResolver` makes the resolver from the identity file of
the defaults. -/
def resolveTarget (p : Process) (file : FileContent ServerConfigFile)
    (secretResolver : Option Str → Secret → Except Str Str) (target : Str) :
    Except GatewayError ResolvedTarget := do
  let serverConfig ← (loadServerConfig p file).mapError fun e =>
    ⟨.resolution, "failed to load server config: " ++ e⟩
  match serverConfig.servers.get target with
  | none => .error (targetNotFound target)
  | some server =>
    let resolver := secretResolver serverConfig.defaults.identityFile
    let entry ← (resolveServerEntry target server serverConfig.defaults (some resolver)).mapError
      fun e => ⟨.resolution, "failed to resolve target '" ++ target ++ "': " ++ e⟩
    .ok {
      host := entry.host
      port := entry.port
      user := entry.user
      auth := entry.auth
      shell := server.shell
      defaultsShell := serverConfig.defaults.shell }

def directListServers (p : Process) (file : FileContent ServerConfigFile) :
    Except GatewayError (List ServerListRow) := do
  let entries ← (listServerEntries p file).mapError fun e =>
    ⟨.resolution, "failed to list servers: " ++ e⟩
  .ok (entries.map fun server => ⟨.local, server⟩)

def localhostListServers (hostname user : Str) : List ServerListRow :=
  [⟨.local, { «alias» := selfTarget, host := hostname, port := 0, user, auth := .none }⟩]

/-! ### Gateways behind an RPC -/

structure RpcServerEntry where
  «alias» : Str
  host : Str
  port : UInt32
  user : Str
  authKind : Str

structure RpcServerListRow where
  server : Option RpcServerEntry
  source : Str

structure ServerListResponse where
  servers : List RpcServerEntry
  merged : Option (List RpcServerListRow)

def authKind : DirectAuth → Str
  | .key _ => "key"
  | .password _ => "password"
  | .none => "none"
  | .reverseProxy => "reverse_proxy"

def serverEntryToRpc (entry : ServerEntry) : RpcServerEntry where
  «alias» := entry.alias
  host := entry.host
  port := entry.port.toUInt32
  user := entry.user
  authKind := authKind entry.auth

def serverEntryFromRpc (entry : RpcServerEntry) : ServerEntry where
  «alias» := entry.alias
  host := entry.host
  port := entry.port.toUInt16
  user := entry.user
  auth :=
    if entry.authKind = "password" then .password []
    else if entry.authKind = "none" then .none
    else if entry.authKind = "reverse_proxy" then .reverseProxy
    else .key []

def prefixSource (gatewayName remoteSource : Str) : ServerListSource :=
  if remoteSource = localName ∨ remoteSource = [] then .gateway gatewayName
  else .gateway (qualified gatewayName remoteSource)

/-- What the `list_servers` of a forward or reverse gateway makes of the answer. -/
def rowsFromResponse (gatewayName : Str) (response : ServerListResponse) : List ServerListRow :=
  match response.merged with
  | some (row :: rows) => (row :: rows).filterMap fun rpcRow => do
    let server ← rpcRow.server
    some ⟨prefixSource gatewayName rpcRow.source, serverEntryFromRpc server⟩
  | _ => response.servers.map fun server => ⟨.gateway gatewayName, serverEntryFromRpc server⟩

/-- How a call of `list_servers` under its timeout ends. -/
inductive ListOutcome
  | rows (rows : List ServerListRow)
  | failed (error : GatewayError)
  | timedOut

def ListOutcome.ofResult : Except GatewayError (List ServerListRow) → ListOutcome
  | .ok list => .rows list
  | .error e => .failed e

inductive RpcOutcome
  | response (response : ServerListResponse)
  | failed (status : Str)
  | timedOut

def RpcOutcome.toList (gatewayName : Str) : RpcOutcome → ListOutcome
  | .response answer => .rows (rowsFromResponse gatewayName answer)
  | .failed status => .failed ⟨.transport, "list_servers RPC failed: " ++ status⟩
  | .timedOut => .timedOut

/-! ### `process_list_servers` -/

/-- Only the bastion does not declare `LIST`. -/
def lists : GatewayKind → Bool
  | .jumpserver => false
  | _ => true

structure Listing where
  rows : List ServerListRow
  sourceStatus : List (ServerListSource × ServerListSourceStatus)

def makeSource (name : Str) : ServerListSource :=
  if name = localName then .local else .gateway name

/-- The arms of the match on the outcome of a call; a reverse gateway has none for
`unsupported`. -/
def outcomeListing (tag : ServerListSource) (static : Bool) : ListOutcome → Listing
  | .rows rows => ⟨rows, [(tag, .ok)]⟩
  | .failed e =>
    if static && e.kind = .unsupported then ⟨[], [(tag, .unsupported)]⟩
    else ⟨[], [(tag, .error e.toStr)]⟩
  | .timedOut => ⟨[], [(tag, .error "timeout")]⟩

/-- A static gateway, with the outcome of its `list_servers`. -/
structure StaticGateway where
  name : Str
  kind : GatewayKind
  outcome : ListOutcome

def staticListing (noRecurse : Bool) (gateway : StaticGateway) : Listing :=
  if noRecurse && gateway.kind = .xhod then ⟨[], []⟩
  else if !lists gateway.kind then ⟨[], []⟩
  else outcomeListing (makeSource gateway.name) true gateway.outcome

/-- A registered reverse node; `outcome` is missing if it has gone between the two looks into the
registry. -/
structure Node where
  name : Str
  hostname : Str
  user : Str
  outcome : Option ListOutcome

/-- The entry a daemon makes up for a reverse node. -/
def nodeRow (node : Node) : ServerListRow :=
  ⟨.local, {
    «alias» := node.name
    host := if node.hostname = [] then node.name else node.hostname
    port := 0
    user := node.user
    auth := .reverseProxy }⟩

def nodeListing (node : Node) : Listing :=
  let tag := .gateway node.name
  let listing := match node.outcome with
    | some outcome => outcomeListing tag false outcome
    | none => ⟨[], [(tag, .ok)]⟩
  { listing with rows := nodeRow node :: listing.rows }

def processListServers (noRecurse : Bool) (gateways : List StaticGateway) (nodes : List Node) :
    Listing :=
  let parts := gateways.map (staticListing noRecurse) ++ nodes.map nodeListing
  ⟨parts.flatMap Listing.rows, parts.flatMap Listing.sourceStatus⟩

lemma processListServers_eq (noRecurse : Bool) (gateways : List StaticGateway)
    (nodes : List Node) :
    (processListServers noRecurse gateways nodes).rows =
        gateways.flatMap (fun g => (staticListing noRecurse g).rows) ++
          nodes.flatMap (fun node => (nodeListing node).rows) ∧
      (processListServers noRecurse gateways nodes).sourceStatus =
        gateways.flatMap (fun g => (staticListing noRecurse g).sourceStatus) ++
          nodes.flatMap fun node => (nodeListing node).sourceStatus := by
  simp [processListServers, List.flatMap_map]

/-! ### The daemon -/

/-- What a daemon's lists are made of: its configuration and files, the answers of its forward
gateways, and the nodes that have registered. -/
structure Daemon where
  process : Process
  config : AppConfig
  serverToml : FileContent ServerConfigFile
  sshConfig : FileContent Str
  hostname : Str
  user : Str
  answers : Str → RpcOutcome
  nodes : List Node

namespace Daemon

variable (d : Daemon)

/-- `build_gateways`: the names and kinds, `local` first. -/
def buildGateways : List (Str × GatewayKind) :=
  (localName, .direct) :: d.config.gateways.map fun gc => (gc.name, gc.gatewayKind)

/-- The gateways of the daemon's state: `_self` is the last, where the host may be reached. -/
def gateways : List (Str × GatewayKind) :=
  d.buildGateways ++
    if (d.config.reverseProxy.enable && d.config.reverseProxy.allowHostAccess) ||
        d.config.server.proxy.enable then [(selfTarget, .localhost)] else []

/-- `list_servers` by the kind of the gateway; the bastion is never asked. -/
def listServers (name : Str) : GatewayKind → ListOutcome
  | .direct => .ofResult (directListServers d.process d.serverToml)
  | .localhost => .rows (localhostListServers d.hostname d.user)
  | _ => (d.answers name).toList name

def staticGateways : List StaticGateway :=
  d.gateways.map fun (name, kind) => ⟨name, kind, d.listServers name kind⟩

def listing (noRecurse : Bool) : Listing := processListServers noRecurse d.staticGateways d.nodes

def dynamicNames : List Str := d.nodes.map Node.name

def serverConfig : ServerConfigFile := loadServerConfigOrDefault d.process d.serverToml

/-- The resolver without the merged view. -/
def plainResolver : Resolver :=
  (Resolver.new d.process d.config d.sshConfig d.serverConfig d.config.gateways).withDynamicGateways
    d.dynamicNames

def mergedResolver : Resolver :=
  (Resolver.withMergedView d.process d.config d.sshConfig d.serverConfig d.config.gateways
    (d.listing false).rows (d.listing false).sourceStatus).withDynamicGateways d.dynamicNames

def resolveTargetWithMergedView (target : Str) : Except Str ResolveResult :=
  if (target ∈ d.gateways.map Prod.fst ∨ target ∈ d.dynamicNames) ∧ target ≠ localName then
    .ok ⟨[⟨target, selfTarget⟩], none⟩
  else if ':' ∈ target ∧ target.head? ≠ some '[' then d.plainResolver.resolveWithWarning target
  else d.mergedResolver.resolveWithWarning target

end Daemon

end CrossHostOps.ServerList
