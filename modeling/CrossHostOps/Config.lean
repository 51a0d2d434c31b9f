import CrossHostOps.Numerals
import CrossHostOps.Oversight
import CrossHostOps.Results

/-!
The daemon's configuration (`config.rs` and the modules of `config/`): its sections with their
defaults, the expansion of `~` in its paths, its validation, and `AppConfig::load`.

The texts of configuration files are of any type: what `toml` and the derived code of serde make of
one is a parameter. What they print and read of a value with a serializer of its own is here.
-/

namespace CrossHostOps.Config

open Text Numerals Oversight

/-- A hash map, in the order of its keys. -/
structure Headers where
  entries : List (Str × Str)
  sorted : (entries.map Prod.fst).Pairwise (List.Lex (· < ·))
  deriving DecidableEq

/-- The order in which a hash map is gone through. -/
structure Iteration where
  list : Headers → List (Str × Str)
  perm : ∀ headers, (list headers).Perm headers.entries

/-- What the process finds around it. `isSocketAddr` is `parse::<SocketAddr>().is_ok()`. -/
structure Process where
  env : Str → Option Str
  home : Option Str
  root : Bool
  isSocketAddr : Str → Bool
  iteration : Iteration

/-! ### `~` -/

def Process.homeDir (p : Process) : Except Str Str :=
  match p.home with
  | some home => .ok home
  | none => .error "home directory not found"

/-- `PathBuf::join` on the texts of the paths. -/
def joinPath (base rest : Str) : Str :=
  if rest.head? = some '/' then rest
  else if base = [] ∨ base.getLast? = some '/' then base ++ rest
  else base ++ '/' :: rest

def expandTilde (p : Process) (value : Str) : Except Str Str :=
  if value = ['~'] then p.homeDir
  else match value with
    | '~' :: '/' :: rest => (joinPath · rest) <$> p.homeDir
    | _ => .ok value

/-! ### Secrets -/

inductive SecretSource
  | literal (value : Str)
  | env (name : Str)
  | file (path : Str)
  | vault (name : Str)
  deriving DecidableEq

structure Secret where
  source : SecretSource
  deriving DecidableEq

def Secret.fromReference (raw : Str) : Secret :=
  match raw with
  | 'e' :: 'n' :: 'v' :: ':' :: name => ⟨.env name⟩
  | 'f' :: 'i' :: 'l' :: 'e' :: ':' :: path => ⟨.file path⟩
  | 'v' :: 'a' :: 'u' :: 'l' :: 't' :: ':' :: name => ⟨.vault name⟩
  | _ => ⟨.literal raw⟩

def Secret.toReference (secret : Secret) : Str :=
  match secret.source with
  | .literal value => value
  | .env name => "env:" ++ name
  | .file path => "file:" ++ path
  | .vault name => "vault:" ++ name

/-! ### Durations -/

/-- The seconds of a duration, in the arithmetic of a build without overflow checks. -/
def parseDuration (value : Str) : Except Str UInt64 :=
  if value = [] then .error "duration is empty"
  else match parseU64 value with
    | some seconds => .ok (.ofNat seconds)
    | none =>
      if value.dropWhile Char.isDigit = [] then .error ("invalid duration " ++ value)
      else match parseU64 (value.takeWhile Char.isDigit) with
        | none => .error ("invalid duration number " ++ value)
        | some amount =>
          match value.dropWhile Char.isDigit with
          | ['s'] => .ok (.ofNat amount)
          | ['m'] => .ok (.ofNat amount * 60)
          | ['h'] => .ok (.ofNat amount * 60 * 60)
          | ['d'] => .ok (.ofNat amount * 60 * 60 * 24)
          | unit => .error ("invalid duration unit " ++ unit)

/-- A value of the document that may stand for a duration. -/
inductive Scalar
  | integer (value : Int64)
  | string (value : Str)

def serializeDuration (seconds : UInt64) : Scalar := .string (showNat seconds.toNat ++ ['s'])

def deserializeDuration : Scalar → Except Str UInt64
  | .integer value =>
    if value < 0 then .error "duration must be positive" else .ok value.toUInt64
  | .string value => parseDuration value

lemma deserializeDuration_serializeDuration (seconds : UInt64) :
    deserializeDuration (serializeDuration seconds) = .ok seconds := by
  have hdigits : ∀ c ∈ showNat seconds.toNat, c.isDigit := fun _ => isDigit_of_mem_showNat
  have htake : (showNat seconds.toNat ++ ['s']).takeWhile Char.isDigit = showNat seconds.toNat := by
    rw [List.takeWhile_append_of_pos hdigits]
    exact List.append_nil _
  have hdrop : (showNat seconds.toNat ++ ['s']).dropWhile Char.isDigit = ['s'] := by
    rw [List.dropWhile_append_of_pos hdigits]
    rfl
  have hunit : parseU64 (showNat seconds.toNat ++ ['s']) = none :=
    parseUnsigned_showNat_unit (by decide)
  have hamount : parseU64 (showNat seconds.toNat) = some seconds.toNat :=
    parseUnsigned_showNat seconds.toNat_lt
  rw [serializeDuration, deserializeDuration, parseDuration, if_neg (by simp), hunit, htake, hdrop,
    hamount]
  simp

/-! ### Gateways -/

inductive GatewayKind
  | xhod
  | jumpserver
  | direct
  | reverseProxy
  | localhost
  deriving DecidableEq

/-- The `Debug` form, as the messages show it. -/
def GatewayKind.debug : GatewayKind → Str
  | .xhod => "Xhod"
  | .jumpserver => "Jumpserver"
  | .direct => "Direct"
  | .reverseProxy => "ReverseProxy"
  | .localhost => "Localhost"

structure XhodGatewayConfig where
  name : Str
  address : Str
  identityFile : Str := []
  knownHostsPath : Str := []
  deriving DecidableEq

structure JumpserverGatewayConfig where
  name : Str
  host : Str
  port : UInt16 := 22
  user : Str
  identityFile : Str := []
  pubkeyAcceptedAlgorithms : Option Str := none
  totpSecretBase32 : Str := []
  totpDigits : UInt32 := 6
  totpPeriod : UInt64 := 30
  maxCachedSessions : Option ℕ := none
  /-- In nanoseconds: the one duration that serde writes in its own form. -/
  sessionIdleTimeout : ℕ := 300 * 10 ^ 9
  suppressHistory : Bool := true
  deriving DecidableEq

structure DirectGatewayConfig where
  name : Str
  host : Str
  port : UInt16 := 22
  user : Str
  identityFile : Str := []
  password : Option Secret := none
  deriving DecidableEq

inductive GatewayConfig
  | xhod (c : XhodGatewayConfig)
  | jumpserver (c : JumpserverGatewayConfig)
  | direct (c : DirectGatewayConfig)
  deriving DecidableEq

namespace GatewayConfig

def name : GatewayConfig → Str
  | .xhod c => c.name
  | .jumpserver c => c.name
  | .direct c => c.name

def gatewayKind : GatewayConfig → GatewayKind
  | .xhod _ => .xhod
  | .jumpserver _ => .jumpserver
  | .direct _ => .direct

/-- The kind-specific field that must not be empty, with its name. -/
def requiredField : GatewayConfig → Str × Str
  | .xhod c => ("address", c.address)
  | .jumpserver c => ("host", c.host)
  | .direct c => ("host", c.host)

end GatewayConfig

def localName : Str := "local"

def reservedNames : List Str := [localName]

inductive GatewayValidationError
  | emptyName
  | reservedName (name : Str)
  | nameCollision (name : Str) (existingKind : GatewayKind)
  | emptyRequiredField (name field : Str)
  deriving DecidableEq

def GatewayValidationError.message : GatewayValidationError → Str
  | .emptyName => "gateway name must not be empty"
  | .reservedName name =>
    "gateway name '" ++ name ++ "' is reserved (reserved names: [\"local\"])"
  | .nameCollision name existingKind =>
    "gateway name '" ++ name ++ "' is already used by a " ++ existingKind.debug ++
      " gateway"
  | .emptyRequiredField name field =>
    "gateway '" ++ name ++ "' has empty required field '" ++ field ++ "'"

/-- The loop of `validate_gateways`, with the names seen so far. -/
def validateGatewaysFrom (seen : List (Str × GatewayKind)) :
    List GatewayConfig → Except GatewayValidationError Unit
  | [] => .ok ()
  | entry :: rest =>
    if entry.name = [] then .error .emptyName
    else if entry.name ∈ reservedNames then .error (.reservedName entry.name)
    else match seen.lookup entry.name with
      | some existingKind => .error (.nameCollision entry.name existingKind)
      | none =>
        if entry.requiredField.2 = [] then
          .error (.emptyRequiredField entry.name entry.requiredField.1)
        else validateGatewaysFrom ((entry.name, entry.gatewayKind) :: seen) rest

def validateGateways (gateways : List GatewayConfig) : Except GatewayValidationError Unit :=
  validateGatewaysFrom [] gateways

/-- An entry that passes on its own: its name and the required field are there, and the name is
free. -/
structure GatewayConfig.Valid (g : GatewayConfig) : Prop where
  name_ne_nil : g.name ≠ []
  notReserved : g.name ∉ reservedNames
  required_ne_nil : g.requiredField.2 ≠ []

variable {seen : List (Str × GatewayKind)} {gateways : List GatewayConfig}

lemma lookup_eq_none {name : Str} : seen.lookup name = none ↔ name ∉ seen.map Prod.fst := by
  rw [List.lookup_eq_none_iff, List.mem_map]
  constructor
  · rintro h ⟨entry, hentry, rfl⟩
    exact absurd rfl (bne_iff_ne.1 (h entry hentry))
  · intro h entry hentry
    rw [bne_iff_ne]
    rintro rfl
    exact h ⟨entry, hentry, rfl⟩

lemma validateGatewaysFrom_ok :
    validateGatewaysFrom seen gateways = .ok () ↔
      (∀ g ∈ gateways, g.Valid ∧ g.name ∉ seen.map Prod.fst) ∧
        (gateways.map GatewayConfig.name).Nodup := by
  induction gateways generalizing seen with
  | nil => simp [validateGatewaysFrom]
  | cons entry rest ih =>
    rw [validateGatewaysFrom, List.forall_mem_cons, List.map_cons, List.nodup_cons]
    constructor
    · intro h
      cases hlookup : seen.lookup entry.name with
      | some kind =>
        simp only [hlookup] at h
        split_ifs at h
      | none =>
        simp only [hlookup] at h
        split_ifs at h with hname hreserved hrequired
        obtain ⟨hall, hnodup⟩ := ih.1 h
        refine ⟨⟨⟨⟨hname, hreserved, hrequired⟩, lookup_eq_none.1 hlookup⟩, ?_⟩, ?_, hnodup⟩
        · exact fun g hg => ⟨(hall g hg).1, fun hseen => (hall g hg).2 (by simp [hseen])⟩
        · intro hmem
          obtain ⟨g, hg, heq⟩ := List.mem_map.1 hmem
          exact (hall g hg).2 (by simp [heq])
    · rintro ⟨⟨⟨hvalid, hseen⟩, hall⟩, hmem, hnodup⟩
      rw [if_neg hvalid.name_ne_nil, if_neg hvalid.notReserved, lookup_eq_none.2 hseen]
      refine (if_neg hvalid.required_ne_nil).trans (ih.2 ⟨fun g hg => ⟨(hall g hg).1, ?_⟩, hnodup⟩)
      rw [List.map_cons, List.mem_cons, not_or]
      exact ⟨fun heq => hmem (List.mem_map.2 ⟨g, hg, heq⟩), (hall g hg).2⟩

theorem validateGateways_ok :
    validateGateways gateways = .ok () ↔
      (∀ g ∈ gateways, g.Valid) ∧ (gateways.map GatewayConfig.name).Nodup := by
  rw [validateGateways, validateGatewaysFrom_ok]
  simp

inductive FallbackEntry
  | «local»
  | gateway (name : Str)
  deriving DecidableEq

def FallbackEntry.deserialize (s : Str) : FallbackEntry :=
  if s = localName then .local else .gateway s

def FallbackEntry.serialize : FallbackEntry → Str
  | .local => localName
  | .gateway name => name

def validateFallbackReferences (gateways : List GatewayConfig) :
    List FallbackEntry → Except Str Unit
  | [] => .ok ()
  | .local :: rest => validateFallbackReferences gateways rest
  | .gateway name :: rest =>
    if name = localName ∨ gateways.any (·.name = name) then
      validateFallbackReferences gateways rest
    else .error ("ssh.fallback references gateway '" ++ name ++
      "' which is not defined in [[gateways]]")

/-! ### The other sections -/

inductive LocalTransport
  | unix
  | tcp
  deriving DecidableEq

structure LocalServerConfig where
  enable : Bool := true
  transport : LocalTransport := .unix
  socketPath : Str
  tcpBind : Str := "127.0.0.1:0"
  tcpLockFile : Str := "~/.xho/xhod.tcp"
  deriving DecidableEq

structure RemoteServerConfig where
  enable : Bool := false
  listenAddr : Str := "0.0.0.0:12222"
  user : Str := "xho"
  hostKeyPath : Str := "~/.xho/host_key"
  authorizedKeysPath : Str := "~/.xho/authorized_keys"
  bootstrapToken : Option Str := none
  reverseProxyEnable : Bool := false
  deriving DecidableEq

structure ProxyServerConfig where
  enable : Bool := true
  listenAddr : Str := "0.0.0.0:2222"
  hostKeyPath : Str := "~/.xho/host_key"
  authorizedKeysPath : Str := "~/.xho/proxy_authorized_keys"
  sftpServerPath : Option Str := none
  deriving DecidableEq

structure ServerConfig where
  logPath : Option Str := none
  logLevel : Str := "info"
  reaperInterval : UInt64 := 30
  inactivityTimeout : Option UInt64 := none
  «local» : LocalServerConfig
  remote : RemoteServerConfig := {}
  proxy : ProxyServerConfig := {}
  deriving DecidableEq

def LocalServerConfig.validate (p : Process) (c : LocalServerConfig) : Except Str Unit :=
  if !c.enable then .ok ()
  else match c.transport with
    | .unix =>
      if trim c.socketPath = [] then
        .error "server.local.socket_path must not be empty when transport = unix"
      else .ok ()
    | .tcp =>
      if trim c.tcpBind = [] then
        .error "server.local.tcp_bind must not be empty when transport = tcp".toList
      else if !p.isSocketAddr c.tcpBind && !(":0".toList).isSuffixOf c.tcpBind then
        .error ("server.local.tcp_bind is not a valid bind address: " ++ c.tcpBind)
      else .ok ()

def RemoteServerConfig.validate (p : Process) (c : RemoteServerConfig) : Except Str Unit :=
  if !c.enable then .ok ()
  else if trim c.user = [] then .error "server.remote.user must not be empty"
  else if !p.isSocketAddr c.listenAddr then
    .error ("server.remote.listen_addr is invalid: " ++ c.listenAddr)
  else if trim c.hostKeyPath = [] then
    .error "server.remote.host_key_path must not be empty"
  else if trim c.authorizedKeysPath = [] then
    .error "server.remote.authorized_keys_path must not be empty"
  else .ok ()

def ProxyServerConfig.validate (p : Process) (remote : RemoteServerConfig)
    (c : ProxyServerConfig) : Except Str Unit :=
  if !c.enable then .ok ()
  else if !p.isSocketAddr c.listenAddr then
    .error ("server.proxy.listen_addr is invalid: " ++ c.listenAddr)
  else if trim c.hostKeyPath = [] then
    .error "server.proxy.host_key_path must not be empty"
  else if trim c.authorizedKeysPath = [] then
    .error "server.proxy.authorized_keys_path must not be empty"
  else if remote.enable && c.listenAddr == remote.listenAddr then
    .error "server.proxy.listen_addr must differ from server.remote.listen_addr"
  else .ok ()

def ServerConfig.validate (p : Process) (c : ServerConfig) : Except Str Unit :=
  if !c.local.enable && !c.remote.enable && !c.proxy.enable then
    .error ("at least one of server.local.enable, server.remote.enable, or ".toList ++
      "server.proxy.enable must be true")
  else do
    c.local.validate p
    c.remote.validate p
    c.proxy.validate p c.remote

structure SshConfig where
  sshConfigPath : Str := "~/.ssh/config"
  serverConfigPath : Str := "~/.xho/server.toml"
  fallback : List FallbackEntry := [.local]
  tty : Bool := true
  stdin : Bool := false
  autoTtyDetect : Bool := true
  connectTimeout : UInt64 := 10
  keepaliveInterval : UInt64 := 30
  inactivityTimeout : Option UInt64 := none
  maxIdleTime : UInt64 := 600
  maxConnectionsPerIp : ℕ := 10
  deriving DecidableEq

/-! ### Reviews -/

structure ReviewPolicy where
  safe : ReviewAction := .allow
  risky : ReviewAction := .confirm
  dangerous : ReviewAction := .deny
  deriving DecidableEq

def ReviewPolicy.actionFor (policy : ReviewPolicy) : RiskLevel → ReviewAction
  | .safe => policy.safe
  | .risky => policy.risky
  | .dangerous => policy.dangerous

/-- `ReviewPrompts` and `ReviewCopyPrompts`. -/
structure ReviewPrompts where
  system : Str
  template : Str
  deriving DecidableEq

structure FastAllowlistConfig where
  enable : Bool := true
  commands : List Str := []
  deriving DecidableEq

structure SemanticWhitelistEntry where
  name : Str
  description : Str
  examples : List Str
  deriving DecidableEq

def defaultReviewPrompts : ReviewPrompts where
  system := [' '].intercalate
    ["You are a Unix command safety reviewer for a remote execution tool.",
      "Your job is to classify whether a command is operationally safe before execution.",
      "Be conservative and judge the overall effect of the full command, not isolated substrings.",
      "Return JSON only, with no markdown and no extra text."]
  template := ['\n'].intercalate
    ["Classify the command into exactly one risk level: safe, risky, or dangerous.",
      "safe: read-only inspection or diagnostics that should not modify files, system state, " ++
        "services, users, packages, network policy, or remote data.".toList,
      "risky: bounded changes to application or working state with moderate blast radius, where " ++
        "human confirmation is reasonable.".toList,
      "dangerous: deletion, overwrite, download-and-execute, package install, service " ++
        "restart/stop, privilege escalation, system configuration change, cluster mutation, " ++
        "credential access, data exfiltration, or any broad/uncertain shell script.".toList,
      "Judge the whole command after shell operators, pipes, redirects, subshells, and scripts " ++
        "are considered together.".toList,
      "Semantic whitelist entries are only hints. They can justify safe only when the entire " ++
        "command is actually read-only or otherwise clearly within the allowed intent.".toList,
      "If a command mixes a benign subcommand with any mutating or unclear behavior, do not " ++
        "whitelist it.".toList,
      "Return compact JSON with keys: risk_level, reason, matched_whitelist_reason.",
      "matched_whitelist_reason must be null when no whitelist intent applies."]

def defaultCopyPrompts : ReviewPrompts where
  system := [' '].intercalate
    ["You are a file-transfer safety reviewer for a remote operations tool.",
      "Your job is to classify whether copying a file or directory to/from a target host is safe.",
      "Be conservative: credential files, secrets, private keys, and broad system directories " ++
        "are sensitive.".toList,
      "Return JSON only, with no markdown and no extra text."]
  template := ['\n'].intercalate
    ["Classify the copy operation into exactly one risk level: safe, risky, or dangerous.",
      "safe: ordinary application data, logs, build artifacts, or public files with no secret " ++
        "material.".toList,
      "risky: sensitive but non-secret paths where exfiltration or overwrite could cause harm.",
      "dangerous: credentials, private keys, shadow files, or any path likely to contain secrets.",
      "Consider the direction: downloading secrets from a host is exfiltration; overwriting " ++
        "system files is destructive.".toList,
      "Return compact JSON with keys: risk_level, reason, matched_whitelist_reason.",
      "matched_whitelist_reason must be null when no special reason applies."]

def defaultSemanticWhitelist : List SemanticWhitelistEntry :=
  [⟨"read-only inspection",
      "Read-only inspection of files, logs, process state, sockets, environment, or system " ++
        "metadata.".toList,
      ["cat /etc/hosts", "journalctl -u nginx", "ps aux | grep kubelet"].map String.toList⟩,
    ⟨"source and git inspection",
      "Read-only inspection of source code or git history/status without checkout, reset, " ++
        "clean, apply, or commit.".toList,
      ["grep -R TODO src", "git status --short", "git log --oneline -20"].map String.toList⟩,
    ⟨"kubernetes read-only inspection",
      "Cluster inspection commands that only get, describe, or view logs and do not patch, " ++
        "edit, apply, delete, scale, or exec.".toList,
      ["kubectl get pods -A", "kubectl describe pod my-pod -n prod",
        "kubectl logs deploy/api -n prod --since=10m"].map String.toList⟩]

structure ReviewExecConfig where
  enable : Bool := false
  prompts : ReviewPrompts := defaultReviewPrompts
  policy : ReviewPolicy := {}
  fastAllowlist : FastAllowlistConfig := {}
  semanticWhitelist : List SemanticWhitelistEntry := defaultSemanticWhitelist
  deriving DecidableEq

def defaultCopyBlocklist : List Str :=
  [".ssh", ".aws", ".gnupg", ".kube", "/etc/shadow", "/etc/ssh"].map String.toList

structure ReviewCopyConfig where
  enable : Bool := false
  prompts : ReviewPrompts := defaultCopyPrompts
  policy : ReviewPolicy := {}
  allowlist : List Str := []
  blocklist : List Str := defaultCopyBlocklist
  deriving DecidableEq

structure ReviewConfig where
  endpoint : Str := "https://api.openai.com/v1/chat/completions"
  model : Str := "gpt-4.1-mini"
  apiKey : Option Str := none
  timeout : UInt64 := 10
  headers : Headers := ⟨[], .nil⟩
  failureAction : ReviewAction := .deny
  exec : ReviewExecConfig := {}
  copy : ReviewCopyConfig := {}
  deriving DecidableEq

/-! ### The sections that are left -/

structure AuditConfig where
  enabled : Bool := true
  path : Option Str := none
  includeIdentity : Bool := true
  deriving DecidableEq

structure SecretConfig where
  vaultPath : Option Str := none
  keySource : Option Str := none
  deriving DecidableEq

structure ReverseProxyClientConfig where
  enable : Bool := false
  serverAddress : Str := []
  identityFile : Str := "~/.ssh/id_ed25519"
  knownHostsPath : Str := "~/.xho/known_hosts"
  nodeName : Str := []
  allowHostAccess : Bool := false
  shell : Option Str := none
  user : Option Str := none
  workdir : Option Str := none
  reconnectDelay : UInt64 := 10
  keepaliveInterval : UInt64 := 30
  maxIdleTime : UInt64 := 600
  deriving DecidableEq

def ReverseProxyClientConfig.validate (c : ReverseProxyClientConfig) : Except Str Unit :=
  let required (field value : Str) : Except Str Unit :=
    if trim value = [] then
      .error ("reverse_proxy." ++ field ++
        " must not be empty when reverse_proxy is enabled")
    else .ok ()
  if !c.enable then .ok ()
  else do
    required "server_address" c.serverAddress
    required "node_name" c.nodeName
    required "identity_file" c.identityFile
    required "known_hosts_path" c.knownHostsPath

structure AppConfig where
  server : ServerConfig
  ssh : SshConfig := {}
  preserveMode : Bool := true
  review : ReviewConfig := {}
  audit : AuditConfig := {}
  secret : SecretConfig := {}
  gateways : List GatewayConfig := []
  reverseProxy : ReverseProxyClientConfig := {}
  configDir : Option Str := none
  deriving DecidableEq

def defaultReviewApiKey (p : Process) : Option Str :=
  p.env "XHO_REVIEW_API_KEY" <|> p.env "OPENAI_API_KEY"

def defaultSocketPath (p : Process) : Str :=
  if p.root then "/var/run/xho/xhod.sock" else "~/.xho/xhod.sock"

/-! ### `AppConfig::load` -/

/-- What a read of a file brings: `unreadable` is a failed read or, for a document, a failed
parse. -/
inductive FileContent (α : Type)
  | missing
  | unreadable (error : Str)
  | content (value : α)
  deriving DecidableEq

section Expand

variable (p : Process)

def ServerConfig.expandPaths (c : ServerConfig) : Except Str ServerConfig := do
  let logPath ← c.logPath.mapM (expandTilde p)
  let socketPath ← expandTilde p c.local.socketPath
  let tcpLockFile ← expandTilde p c.local.tcpLockFile
  let remoteHostKeyPath ← expandTilde p c.remote.hostKeyPath
  let remoteAuthorizedKeysPath ← expandTilde p c.remote.authorizedKeysPath
  let proxyHostKeyPath ← expandTilde p c.proxy.hostKeyPath
  let proxyAuthorizedKeysPath ← expandTilde p c.proxy.authorizedKeysPath
  let sftpServerPath ← c.proxy.sftpServerPath.mapM (expandTilde p)
  .ok { c with
    logPath
    «local» := { c.local with socketPath, tcpLockFile }
    remote := { c.remote with
      hostKeyPath := remoteHostKeyPath
      authorizedKeysPath := remoteAuthorizedKeysPath }
    proxy := { c.proxy with
      hostKeyPath := proxyHostKeyPath
      authorizedKeysPath := proxyAuthorizedKeysPath
      sftpServerPath } }

def SshConfig.expandPaths (c : SshConfig) : Except Str SshConfig := do
  let sshConfigPath ← expandTilde p c.sshConfigPath
  let serverConfigPath ← expandTilde p c.serverConfigPath
  .ok { c with sshConfigPath, serverConfigPath }

def SecretConfig.expandPaths (c : SecretConfig) : Except Str SecretConfig := do
  let vaultPath ← c.vaultPath.mapM (expandTilde p)
  let keySource ← c.keySource.mapM (expandTilde p)
  .ok { c with vaultPath, keySource }

def GatewayConfig.expandPaths : GatewayConfig → Except Str GatewayConfig
  | .xhod c => do
    let identityFile ← expandTilde p c.identityFile
    let knownHostsPath ← expandTilde p c.knownHostsPath
    .ok (.xhod { c with identityFile, knownHostsPath })
  | .jumpserver c => do
    let identityFile ← expandTilde p c.identityFile
    .ok (.jumpserver { c with identityFile })
  | .direct c => do
    let identityFile ← expandTilde p c.identityFile
    .ok (.direct { c with identityFile })

def ReverseProxyClientConfig.expandPaths (c : ReverseProxyClientConfig) :
    Except Str ReverseProxyClientConfig := do
  let identityFile ← expandTilde p c.identityFile
  let knownHostsPath ← expandTilde p c.knownHostsPath
  let workdir ← c.workdir.mapM (expandTilde p)
  .ok { c with identityFile, knownHostsPath, workdir }

/-- `expand_paths`, section by section; the order does not matter, since all failures are the
same. -/
def AppConfig.expandPaths (c : AppConfig) : Except Str AppConfig := do
  let auditPath ← c.audit.path.mapM (expandTilde p)
  let server ← c.server.expandPaths p
  let ssh ← c.ssh.expandPaths p
  let secret ← c.secret.expandPaths p
  let gateways ← c.gateways.mapM (GatewayConfig.expandPaths p)
  let reverseProxy ← c.reverseProxy.expandPaths p
  .ok { c with
    server, ssh, secret, gateways, reverseProxy
    audit := { c.audit with path := auditPath } }

end Expand

def AppConfig.validate (p : Process) (c : AppConfig) : Except Str Unit := do
  c.server.validate p
  (validateGateways c.gateways).mapError GatewayValidationError.message
  validateFallbackReferences c.gateways c.ssh.fallback
  c.reverseProxy.validate

namespace AppConfig

def default (p : Process) : AppConfig where
  server := { «local» := { socketPath := defaultSocketPath p } }
  review := { apiKey := defaultReviewApiKey p }

/-- serde's default for a document without `review.api_key`. -/
def fillApiKey (p : Process) (c : AppConfig) : AppConfig :=
  { c with review := { c.review with apiKey := c.review.apiKey <|> defaultReviewApiKey p } }

/-- What `load` does with a configuration it has got. -/
def settle (p : Process) (dir : Option Str) (c : AppConfig) : Except Str AppConfig := do
  let c ← expandPaths p { c with configDir := dir }
  c.validate p
  .ok c

end AppConfig

/-! ### The document -/

/-- A value with a serializer of its own. -/
inductive Leaf
  | duration (seconds : UInt64)
  | fallback (entry : FallbackEntry)
  | secret (held : Secret)

def Leaf.Read : Leaf → Prop
  | .duration seconds => ∃ value, deserializeDuration value = .ok seconds
  | .fallback entry => ∃ s, FallbackEntry.deserialize s = entry
  | .secret held => ∃ raw, Secret.fromReference raw = held

/-- The value is read back from what is written for it. -/
def Leaf.Readable : Leaf → Prop
  | .duration seconds => deserializeDuration (serializeDuration seconds) = .ok seconds
  | .fallback entry => FallbackEntry.deserialize entry.serialize = entry
  | .secret held => Secret.fromReference held.toReference = held

lemma Leaf.read_iff {leaf : Leaf} : leaf.Read ↔ leaf.Readable := by
  cases leaf with
  | duration seconds =>
    exact ⟨fun _ => deserializeDuration_serializeDuration seconds, fun h => ⟨_, h⟩⟩
  | fallback entry =>
    refine ⟨?_, fun h => ⟨_, h⟩⟩
    rintro ⟨s, rfl⟩
    by_cases hlocal : s = localName
    · rw [hlocal]
      rfl
    · simp only [Leaf.Readable, FallbackEntry.deserialize, if_neg hlocal, FallbackEntry.serialize]
  | secret held =>
    refine ⟨?_, fun h => ⟨_, h⟩⟩
    rintro ⟨raw, rfl⟩
    rw [Leaf.Readable]
    fun_cases Secret.fromReference raw with
    | case1 | case2 | case3 => rfl
    | case4 _ henv hfile hvault => exact Secret.fromReference.eq_4 raw henv hfile hvault

instance (leaf : Leaf) : Decidable leaf.Readable :=
  match leaf with
  | .duration seconds => isTrue (deserializeDuration_serializeDuration seconds)
  | .fallback _ | .secret _ => inferInstanceAs (Decidable (_ = _))

def GatewayConfig.leaves : GatewayConfig → List Leaf
  | .xhod _ | .jumpserver _ => []
  | .direct c => c.password.toList.map .secret

def AppConfig.leaves (c : AppConfig) : List Leaf :=
  ([c.server.reaperInterval, c.ssh.connectTimeout, c.ssh.keepaliveInterval, c.ssh.maxIdleTime,
      c.review.timeout, c.reverseProxy.reconnectDelay, c.reverseProxy.keepaliveInterval,
      c.reverseProxy.maxIdleTime] ++ c.server.inactivityTimeout.toList ++
        c.ssh.inactivityTimeout.toList).map .duration ++
    c.ssh.fallback.map .fallback ++ c.gateways.flatMap GatewayConfig.leaves

def AppConfig.Readable (c : AppConfig) : Prop := ∀ leaf ∈ c.leaves, leaf.Readable
  deriving Decidable

/-- `toml::from_str`, and `toml::to_string_pretty` of a configuration whose headers come in some
order. What is read has no `apiKey` where the text has none; the other defaults are in place. -/
structure TomlText (T : Type) where
  fromStr : T → Except Str AppConfig
  toStringPretty : AppConfig → List (Str × Str) → Except Str T

/-- **The round trip**: if its leaves are read back, a configuration is read back from the text that
is made of it, all but `config_dir`, which is not written; and the text shows the order of the
headers. -/
structure TomlText.RoundTrips {T : Type} (toml : TomlText T) : Prop where
  read : ∀ {text c}, toml.fromStr text = .ok c →
    c.configDir = none ∧ ∀ leaf ∈ c.leaves, leaf.Read
  readBack : ∀ {c headers text}, c.Readable → headers.Perm c.review.headers.entries →
    toml.toStringPretty c headers = .ok text → toml.fromStr text = .ok { c with configDir := none }
  ordered : ∀ {c headers headers' text}, headers.Perm c.review.headers.entries →
    headers'.Perm c.review.headers.entries → toml.toStringPretty c headers = .ok text →
      toml.toStringPretty c headers' = .ok text → headers = headers'

namespace AppConfig

variable {T : Type} (toml : TomlText T) (p : Process)

def load (dir : Option Str) : FileContent T → Except Str AppConfig
  | .missing => settle p dir (default p)
  | .unreadable error => .error error
  | .content text => do
    let c ← toml.fromStr text
    settle p dir (c.fillApiKey p)

def print (c : AppConfig) : Except Str T :=
  toml.toStringPretty c (p.iteration.list c.review.headers)

end AppConfig

/-! ### A bare host -/

def inOrder : Iteration := ⟨Headers.entries, fun _ => .refl _⟩

/-- A process of root with an empty environment. -/
def bareHost : Process where
  env _ := none
  home := some "/root"
  root := true
  isSocketAddr _ := true
  iteration := inOrder

/-- Texts by what stands in them: a configuration, with its headers in order, or nothing that
parses. -/
def parsedText : TomlText (Option (AppConfig × List (Str × Str))) where
  fromStr
    | some (c, _) =>
      if c.Readable then .ok { c with configDir := none } else .error "invalid value"
    | none => .error "expected '='"
  toStringPretty c headers := .ok (some (c, headers))

lemma parsedText_roundTrips : parsedText.RoundTrips where
  read {text c} h := by
    obtain _ | ⟨c₀, headers⟩ := text
    · cases h
    · simp only [parsedText] at h
      split_ifs at h with hreadable
      cases h
      exact ⟨rfl, fun leaf hleaf => Leaf.read_iff.2 (hreadable leaf hleaf)⟩
  readBack {c headers text} hc _ h := by
    cases h
    exact if_pos hc
  ordered {c headers headers' text} _ _ h h' := by
    cases h
    cases h'
    rfl

end CrossHostOps.Config
