import CrossHostOps.ConfigLoad
import CrossHostOps.Targets

/-!
The ways to change the gateways of `config.toml`: the mutations of the RPC `update_config`, and the
commands `xho host add` and `xho host remove`, which write the file themselves.
-/

namespace CrossHostOps.GatewayCommands

open Text Config Results ConfigLoad List
open Targets (rsplitOnce)

/-! ### `update_config` -/

/-- An `UpdateConfigRequest`, by its `mutation_type`. -/
inductive Mutation
  | addGateway (name kind address identityFile knownHostsPath : Str)
  | removeGateway (name : Str)
  | other (mutationType : Str)
  deriving DecidableEq

def nameIsEmpty : Str := "name must not be empty"

/-- The checks of `add_gateway`, against the gateways of the configuration. -/
def checkAdd (gateways : List GatewayConfig) (name kind : Str) : Except Str Unit :=
  let «alias» := trim name
  if «alias» = [] then .error nameIsEmpty
  else if «alias» ∈ reservedNames then
    .error ("name '" ++ «alias» ++ "' is reserved (reserved names: [\"local\"])")
  else if gateways.any (·.name = «alias») then
    .error ("name '" ++ «alias» ++ "' is already used by an existing gateway")
  else if trim kind = "xhod" then .ok ()
  else .error ("add_gateway via RPC only supports kind 'xhod', got '" ++ trim kind ++
    "'")

def newEntry (name address identityFile knownHostsPath : Str) : GatewayConfig :=
  .xhod { name := trim name, address, identityFile, knownHostsPath }

/-- `retain(|g| g.name() != alias)`. -/
def without (gateways : List GatewayConfig) (name : Str) : List GatewayConfig :=
  gateways.filter (·.name ≠ name)

/-- What `remove_gateway` leaves of the gateways. -/
def removeEntry (gateways : List GatewayConfig) (name : Str) : Except Str (List GatewayConfig) :=
  let «alias» := trim name
  if «alias» = [] then .error nameIsEmpty
  else if (without gateways «alias»).length = gateways.length then
    .error ("gateway '" ++ «alias» ++ "' not found")
  else .ok (without gateways «alias»)

/-- The gateways that `update_config` writes, when no other request comes between. -/
def updateGateways (gateways : List GatewayConfig) : Mutation → Except Str (List GatewayConfig)
  | .addGateway name kind address identityFile knownHostsPath => do
    checkAdd gateways name kind
    .ok (gateways ++ [newEntry name address identityFile knownHostsPath])
  | .removeGateway name => removeEntry gateways name
  | .other mutationType =>
    .error ("unknown mutation_type: '" ++ mutationType ++ "'")

/-! ### `xho host` -/

structure AddressDefaults where
  user : Str
  port : ℕ

structure RemoteAddress where
  user : Str
  host : Str
  port : ℕ

inductive AddressError
  | emptyInput
  | invalidPort
  | emptyHost

namespace RemoteAddress

/-- `[user@]host[:port]`. -/
def parse (input : Str) (defaults : AddressDefaults) : Except AddressError RemoteAddress :=
  let trimmed := trim input
  if trimmed = [] then .error .emptyInput
  else
    let (user, hostPort) :=
      if '@' ∈ trimmed then (trimmed.takeWhile (· ≠ '@'), (trimmed.dropWhile (· ≠ '@')).tail)
      else ([], trimmed)
    let parts : Except AddressError (Str × Option ℕ) :=
      match rsplitOnce hostPort with
      | none => .ok (hostPort, none)
      | some (host, portStr) =>
        match parseUnsigned 10 (2 ^ 16) portStr with
        | none => .error .invalidPort
        | some port => .ok (host, some port)
    do
      let (host, port) ← parts
      if host = [] then .error .emptyHost
      else .ok {
        user := if user = [] then defaults.user else user
        host
        port := port.getD defaults.port }

def format (address : RemoteAddress) : Str :=
  address.user ++ '@' :: address.host ++ ':' :: showNat address.port

end RemoteAddress

def defaultKnownHostsPath (p : Process) : Str :=
  joinPath (joinPath (p.home.getD ".") ".xho") "known_hosts"

def normalizePaths (p : Process) (identityFile knownHostsPath : Option Str) :
    Except Str (Str × Str) := do
  let identityFile ← expandTilde p (identityFile.getD "~/.ssh/id_ed25519")
  let knownHostsPath ← expandTilde p (knownHostsPath.getD (defaultKnownHostsPath p))
  .ok (identityFile, knownHostsPath)

inductive HostCommand
  | add (name address : Str) (identityFile knownHosts : Option Str)
  | remove (name : Str)

/-- The command returns an exit code, or fails with an error. -/
inductive Outcome
  | exit (code : ℕ)
  | failed (error : Str)
  deriving DecidableEq

section Files

variable {T : Type} (toml : TomlText T) (p : Process)

/-- `load(..).unwrap_or_default()`. -/
def loadOrDefault (dir : Option Str) (file : FileContent T) : AppConfig :=
  match AppConfig.load toml p dir file with
  | .ok config => config
  | .error _ => .default p

variable {toml p} in
lemma load_of_isOk {dir : Option Str} {file : FileContent T}
    (h : (AppConfig.load toml p dir file).isOk) :
    AppConfig.load toml p dir file = .ok (loadOrDefault toml p dir file) := by
  rw [loadOrDefault]
  cases hload : AppConfig.load toml p dir file with
  | ok c => rfl
  | error e =>
    rw [hload] at h
    cases h

/-- From the configuration that was loaded to the one that is written. `trusted` is the outcome of
the host-key check, the question for the token and the bootstrap. -/
def HostCommand.plan (trusted : Except Str Unit) (config : AppConfig) :
    HostCommand → Except Outcome AppConfig
  | .add name address identityFile knownHosts =>
    if name ∈ reservedNames then .error (.exit 1)
    else if config.gateways.any (·.name = name) then .error (.exit 1)
    else match RemoteAddress.parse address ⟨"xho", 2222⟩ with
      | .error _ => .error (.exit 1)
      | .ok remoteAddr => do
        let paths ← (normalizePaths p identityFile knownHosts).mapError .failed
        trusted.mapError .failed
        .ok { config with gateways := config.gateways ++ [.xhod {
          name
          address := remoteAddr.format
          identityFile := paths.1
          knownHostsPath := paths.2 }] }
  | .remove name =>
    match config.gateways.find? (·.name = name) with
    | none => .error (.exit 1)
    | some entry =>
      if entry.gatewayKind ≠ .xhod then .error (.exit 1)
      else .ok { config with gateways := without config.gateways name }

/-- How `fs::write` ends. It truncates the file first, so that it may stop with any part of the new
text in it. -/
inductive WriteResult (T : Type)
  | done
  | notOpened (error : Str)
  | stopped (left : FileContent T) (error : Str)

def WriteResult.apply (text : T) (old : FileContent T) : WriteResult T → Outcome × FileContent T
  | .done => (.exit 0, .content text)
  | .notOpened error => (.failed error, old)
  | .stopped left error => (.failed error, left)

def HostCommand.output (dir : Option Str) (trusted : Except Str Unit) (cmd : HostCommand)
    (file : FileContent T) : Except Outcome T := do
  let config ← cmd.plan p trusted (loadOrDefault toml p dir file)
  (config.print toml p).mapError fun _ => .failed "failed to serialize config"

def HostCommand.run (dir : Option Str) (trusted : Except Str Unit) (write : WriteResult T)
    (cmd : HostCommand) (file : FileContent T) : Outcome × FileContent T :=
  match cmd.output toml p dir trusted file with
  | .error outcome => (outcome, file)
  | .ok text => write.apply text file

end Files

/-! ### What the commands do to the gateways -/

variable {p : Process} {trusted : Except Str Unit} {c c' : AppConfig} {name : Str}
  {gateways : List GatewayConfig}

lemma mem_names_iff : (gateways.any (·.name = name)) = true ↔
    name ∈ gateways.map GatewayConfig.name := by
  simp

lemma names_without : (without gateways name).map GatewayConfig.name =
    (gateways.map GatewayConfig.name).filter (· ≠ name) := by
  rw [filter_map]
  rfl

lemma format_ne_nil (address : RemoteAddress) : address.format ≠ [] := by
  simp [RemoteAddress.format]

lemma plan_error {cmd : HostCommand} {outcome : Outcome}
    (h : cmd.plan p trusted c = .error outcome) : outcome ≠ .exit 0 := by
  have hexit : Outcome.exit 1 ≠ .exit 0 := by decide
  cases cmd with
  | add name address identityFile knownHosts =>
    rw [HostCommand.plan] at h
    split_ifs at h
    · exact Except.error.inj h ▸ hexit
    · exact Except.error.inj h ▸ hexit
    · cases hparse : RemoteAddress.parse address ⟨"xho", 2222⟩ with
      | error e =>
        simp only [hparse] at h
        exact Except.error.inj h ▸ hexit
      | ok remoteAddr =>
        simp only [hparse] at h
        rcases bind_error.1 h with h | ⟨paths, -, h⟩
        · obtain ⟨e, -, rfl⟩ := mapError_error.1 h
          exact Outcome.noConfusion
        · rcases bind_error.1 h with h | ⟨⟨⟩, -, h⟩
          · obtain ⟨e, -, rfl⟩ := mapError_error.1 h
            exact Outcome.noConfusion
          · cases h
  | remove name =>
    rw [HostCommand.plan] at h
    cases hfind : c.gateways.find? (·.name = name) with
    | none =>
      simp only [hfind] at h
      exact Except.error.inj h ▸ hexit
    | some entry =>
      simp only [hfind] at h
      split_ifs at h
      exact Except.error.inj h ▸ hexit

/-- A command that does not come to the write does not report success. -/
lemma output_error {T : Type} {toml : TomlText T} {dir : Option Str} {cmd : HostCommand}
    {file : FileContent T} {outcome : Outcome}
    (h : cmd.output toml p dir trusted file = .error outcome) : outcome ≠ .exit 0 := by
  rcases bind_error.1 h with h | ⟨c', -, h⟩
  · exact plan_error h
  · obtain ⟨e, -, rfl⟩ := mapError_error.1 h
    exact Outcome.noConfusion

/-- An entry that `host add` appends. -/
structure Appendable (p : Process) (c : AppConfig) (g : GatewayConfig) : Prop where
  notReserved : g.name ∉ reservedNames
  fresh : g.name ∉ c.gateways.map GatewayConfig.name
  required_ne_nil : g.requiredField.2 ≠ []
  expands : ∃ g', g.expandPaths p = .ok g'
  leaves : g.leaves = []

variable {identityFile knownHosts : Option Str}

lemma normalizePaths_expands {paths : Str × Str}
    (h : normalizePaths p identityFile knownHosts = .ok paths) (address : Str) :
    ∃ g', GatewayConfig.expandPaths p (.xhod {
      name, address, identityFile := paths.1, knownHostsPath := paths.2 }) = .ok g' := by
  obtain ⟨identity, hidentity, h⟩ := bind_ok.1 h
  obtain ⟨known, hknown, h⟩ := bind_ok.1 h
  cases h
  obtain ⟨identity', hidentity'⟩ := expandTilde_again hidentity
  obtain ⟨known', hknown'⟩ := expandTilde_again hknown
  exact ⟨_, bind_ok.2 ⟨identity', hidentity', bind_ok.2 ⟨known', hknown', rfl⟩⟩⟩

lemma plan_add {address : Str}
    (h : (HostCommand.add name address identityFile knownHosts).plan p trusted c = .ok c') :
    ∃ g, g.name = name ∧ Appendable p c g ∧ c' = { c with gateways := c.gateways ++ [g] } := by
  rw [HostCommand.plan] at h
  split_ifs at h with hreserved hused
  cases hparse : RemoteAddress.parse address ⟨"xho", 2222⟩ with
  | error e => simp only [hparse, reduceCtorEq] at h
  | ok remoteAddr =>
    simp only [hparse] at h
    obtain ⟨paths, hpaths, h⟩ := bind_ok.1 h
    obtain ⟨⟨⟩, -, h⟩ := bind_ok.1 h
    cases h
    refine ⟨.xhod ⟨name, remoteAddr.format, paths.1, paths.2⟩, rfl,
      ⟨hreserved, fun hmem => hused (mem_names_iff.2 hmem), ?_, ?_, rfl⟩, rfl⟩
    · exact format_ne_nil remoteAddr
    · exact normalizePaths_expands (mapError_ok.1 hpaths) _

lemma plan_remove (h : (HostCommand.remove name).plan p trusted c = .ok c') :
    name ∈ c.gateways.map GatewayConfig.name ∧
      c' = { c with gateways := without c.gateways name } := by
  rw [HostCommand.plan] at h
  cases hfind : c.gateways.find? (·.name = name) with
  | none => simp [hfind] at h
  | some entry =>
    simp only [hfind] at h
    split_ifs at h
    cases h
    have hname := find?_some hfind
    rw [decide_eq_true_iff] at hname
    exact ⟨mem_map.2 ⟨entry, mem_of_find?_eq_some hfind, hname⟩, rfl⟩

lemma checkAdd_ok {kind : Str} (h : checkAdd gateways name kind = .ok ()) :
    trim name ≠ [] ∧ trim name ∉ reservedNames ∧
      trim name ∉ gateways.map GatewayConfig.name := by
  simp only [checkAdd] at h
  split_ifs at h with hempty hreserved hused
  exact ⟨hempty, hreserved, fun hmem => hused (mem_names_iff.2 hmem)⟩

lemma removeEntry_ok {gateways' : List GatewayConfig}
    (h : removeEntry gateways name = .ok gateways') :
    gateways' = without gateways (trim name) ∧
      trim name ∈ gateways.map GatewayConfig.name := by
  simp only [removeEntry] at h
  split_ifs at h with hempty hlength
  cases h
  refine ⟨rfl, ?_⟩
  by_contra hmem
  refine hlength (length_filter_eq_length_iff.2 fun g hg => decide_eq_true ?_)
  exact fun hname => hmem (mem_map.2 ⟨g, hg, hname⟩)

lemma without_append {g : GatewayConfig} (h : g.name ∉ gateways.map GatewayConfig.name) :
    without (gateways ++ [g]) g.name = gateways := by
  rw [without, filter_append, filter_eq_self.2]
  · simp
  · exact fun g' hg' => decide_eq_true fun hname => h (mem_map.2 ⟨g', hg', hname⟩)

/-- What the commands and requests do to the gateways brings no leaves. -/
lemma leaves_append {g : GatewayConfig} (h : g.leaves = []) :
    ∀ g' ∈ gateways ++ [g], g' ∈ gateways ∨ g'.leaves = [] := by
  intro g' hg'
  rcases mem_append.1 hg' with hmem | hlast
  · exact .inl hmem
  · rw [mem_singleton.1 hlast]
    exact .inr h

lemma leaves_without (name : Str) :
    ∀ g ∈ without gateways name, g ∈ gateways ∨ g.leaves = [] :=
  fun _ hg => .inl (mem_of_mem_filter hg)

/-! ### Whether the gateways stay valid -/

variable {g g' : GatewayConfig}

lemma sound_append (hc : SoundGateways c) (hg : Appendable p c g) (hg' : g.expandPaths p = .ok g') :
    SoundGateways { c with gateways := c.gateways ++ [g'] } ↔ g.name ≠ [] := by
  obtain ⟨hname, hrequired, -⟩ := name_of_expandPaths hg'
  constructor
  · intro h
    rw [← hname]
    exact (h.valid g' (by simp)).name_ne_nil
  · intro hne
    refine ⟨?_, ?_, ?_⟩
    · rw [forall_mem_append, forall_mem_singleton]
      refine ⟨hc.valid, ⟨?_, ?_, ?_⟩⟩
      · rwa [hname]
      · rw [hname]
        exact hg.notReserved
      · rw [hrequired]
        exact hg.required_ne_nil
    · rw [map_append, map_singleton, hname, nodup_append]
      refine ⟨hc.nodup, nodup_singleton _, ?_⟩
      rintro name hmem name' hname' rfl
      exact hg.fresh (mem_singleton.1 hname' ▸ hmem)
    · intro name hmem
      refine (hc.fallback name hmem).imp_right fun hname => ?_
      rw [map_append]
      exact mem_append_left _ hname

lemma sound_without (hc : SoundGateways c) (hname : name ∈ c.gateways.map GatewayConfig.name) :
    SoundGateways { c with gateways := without c.gateways name } ↔
      .gateway name ∉ c.ssh.fallback := by
  constructor
  · intro h hmem
    rcases h.fallback name hmem with hlocal | hstill
    · obtain ⟨g, hg, rfl⟩ := mem_map.1 hname
      exact (hc.valid g hg).notReserved (mem_singleton.2 hlocal)
    · rw [names_without] at hstill
      exact of_decide_eq_true (mem_filter.1 hstill).2 rfl
  · intro hmem
    refine ⟨fun g hg => hc.valid g (mem_of_mem_filter hg), ?_, fun name' hname' => ?_⟩
    · rw [names_without]
      exact hc.nodup.filter _
    · refine (hc.fallback name' hname').imp_right fun hstill => ?_
      rw [names_without]
      refine mem_filter.2 ⟨hstill, decide_eq_true ?_⟩
      rintro rfl
      exact hmem hname'

end CrossHostOps.GatewayCommands
