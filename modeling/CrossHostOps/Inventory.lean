import CrossHostOps.Config
import Mathlib.Data.List.Sort

/-!
The server inventory (`config/inventory.rs`): `server.toml` and its entries, and the hosts of an
OpenSSH client configuration.
-/

namespace CrossHostOps.Inventory

open Text Config Results List

/-! ### `server.toml` -/

structure ServerDefaults where
  identityFile : Option Str := none
  shell : Str := []

structure ServerHostConfig where
  host : Str
  port : Option UInt16 := none
  user : Str
  identityFile : Option Str := none
  password : Option Secret := none
  shell : Option Str := none
  deriving DecidableEq

/-- The hash map of the servers, in the order in which it is iterated. -/
structure Servers where
  entries : List (Str × ServerHostConfig)
  nodup : (entries.map Prod.fst).Nodup

namespace Servers

def empty : Servers := ⟨[], .nil⟩

def get (servers : Servers) (name : Str) : Option ServerHostConfig := servers.entries.lookup name

def aliases (servers : Servers) : List Str := servers.entries.map Prod.fst

variable {servers : Servers} {name : Str} {server : ServerHostConfig}

lemma mem_of_get (h : servers.get name = some server) : (name, server) ∈ servers.entries := by
  obtain ⟨l, l', hl, -⟩ := lookup_eq_some_iff.1 h
  rw [hl]
  simp

lemma get_of_mem (h : (name, server) ∈ servers.entries) : servers.get name = some server := by
  obtain ⟨entries, hnodup⟩ := servers
  obtain ⟨l, l', rfl⟩ := append_of_mem h
  rw [map_append, nodup_append] at hnodup
  refine lookup_eq_some_iff.2 ⟨l, l', rfl, fun entry hentry => ?_⟩
  rw [bne_iff_ne]
  exact (hnodup.2.2 _ (mem_map_of_mem hentry) name (by simp)).symm

lemma isSome_get : (servers.get name).isSome = true ↔ name ∈ servers.aliases := by
  rw [Option.isSome_iff_exists, aliases, mem_map]
  constructor
  · rintro ⟨server, h⟩
    exact ⟨(name, server), mem_of_get h, rfl⟩
  · rintro ⟨⟨_, server⟩, h, rfl⟩
    exact ⟨server, get_of_mem h⟩

end Servers

structure ServerConfigFile where
  defaults : ServerDefaults := {}
  servers : Servers := .empty

inductive DirectAuth
  | key (identityFile : Str)
  | password (password : Str)
  | none
  | reverseProxy
  deriving DecidableEq

structure ServerEntry where
  «alias» : Str
  host : Str
  port : UInt16
  user : Str
  auth : DirectAuth
  deriving DecidableEq

/-- The part of `resolve_server_entry` that finds the credentials. Without a resolver a password
stays a placeholder. -/
def resolveAuth (name : Str) (server : ServerHostConfig) (defaults : ServerDefaults)
    (resolver : Option (Secret → Except Str Str)) : Except Str DirectAuth :=
  match server.password with
  | some password =>
    match resolver with
    | some resolve =>
      (DirectAuth.password <$> resolve password).mapError fun _ =>
        "failed to resolve password for server entry " ++ name
    | none => .ok (.password [])
  | none =>
    match server.identityFile <|> defaults.identityFile with
    | some identityFile => .ok (.key identityFile)
    | none => .error ("server entry " ++ name ++ (" is missing authentication; set " ++
        "password, identity_file, or defaults.identity_file").toList)

def resolveServerEntry (name : Str) (server : ServerHostConfig) (defaults : ServerDefaults)
    (resolver : Option (Secret → Except Str Str)) : Except Str ServerEntry := do
  let auth ← resolveAuth name server defaults resolver
  .ok {
    «alias» := name
    host := server.host
    port := server.port.getD 22
    user := server.user
    auth }

def validateServer (defaults : ServerDefaults) (entry : Str × ServerHostConfig) :
    Except Str Unit :=
  let (name, server) := entry
  let fails (problem : String) : Except Str Unit :=
    .error ("server entry " ++ name ++ problem.toList)
  if trim server.host = [] then fails " is missing host"
  else if trim server.user = [] then fails " is missing user"
  else if server.password.isSome && server.identityFile.isSome then
    fails " cannot set both password and identity_file"
  else do
    let _ ← resolveServerEntry name server defaults none
    .ok ()

def validateServerConfig (c : ServerConfigFile) : Except Str Unit :=
  forM c.servers.entries (validateServer c.defaults)

def expandServerPath (p : Process) (entry : Str × ServerHostConfig) :
    Except Str (Str × ServerHostConfig) := do
  let identityFile ← entry.2.identityFile.mapM (expandTilde p)
  .ok (entry.1, { entry.2 with identityFile })

lemma expandServerPath_keys {p : Process} {l l' : List (Str × ServerHostConfig)}
    (h : l.mapM (expandServerPath p) = .ok l') : l'.map Prod.fst = l.map Prod.fst := by
  rw [mapM_ok] at h
  induction h with
  | nil => rfl
  | cons hentry _ ih =>
    obtain ⟨identityFile, -, hentry⟩ := bind_ok.1 hentry
    cases hentry
    simp [ih]

def expandServerConfigPaths (p : Process) (c : ServerConfigFile) :
    Except Str ServerConfigFile := do
  let identityFile ← c.defaults.identityFile.mapM (expandTilde p)
  match h : c.servers.entries.mapM (expandServerPath p) with
  | .error e => .error e
  | .ok entries =>
    .ok {
      defaults := { c.defaults with identityFile }
      servers := ⟨entries, by rw [expandServerPath_keys h]; exact c.servers.nodup⟩ }

def loadServerConfig (p : Process) : FileContent ServerConfigFile → Except Str ServerConfigFile
  | .missing => .ok {}
  | .unreadable error => .error error
  | .content c => do
    let c ← expandServerConfigPaths p c
    validateServerConfig c
    .ok c

/-- `load_server_config(..).unwrap_or_default()`. -/
def loadServerConfigOrDefault (p : Process) (file : FileContent ServerConfigFile) :
    ServerConfigFile :=
  match loadServerConfig p file with
  | .ok c => c
  | .error _ => {}

/-- The entries of a loaded `server.toml`, sorted by their names. -/
def listEntries (c : ServerConfigFile) : Except Str (List ServerEntry) := do
  let entries ← c.servers.entries.mapM fun (name, server) =>
    resolveServerEntry name server c.defaults none
  .ok (entries.insertionSort fun a b => a.alias ≤ b.alias)

def listServerEntries (p : Process) (file : FileContent ServerConfigFile) :
    Except Str (List ServerEntry) := do
  let c ← loadServerConfig p file
  listEntries c

lemma alias_of_resolve {name : Str} {server : ServerHostConfig} {defaults : ServerDefaults}
    {resolver : Option (Secret → Except Str Str)} {entry : ServerEntry}
    (h : resolveServerEntry name server defaults resolver = .ok entry) : entry.alias = name := by
  obtain ⟨auth, -, h⟩ := bind_ok.1 h
  cases h
  rfl

def ServerConfigFile.Sound (c : ServerConfigFile) : Prop :=
  ∀ entry ∈ c.servers.entries, ∃ e, resolveServerEntry entry.1 entry.2 c.defaults none = .ok e

lemma sound_default : ServerConfigFile.Sound {} := by
  intro entry h
  cases h

lemma sound_of_load {p : Process} {file : FileContent ServerConfigFile} {c : ServerConfigFile}
    (h : loadServerConfig p file = .ok c) : c.Sound := by
  cases file with
  | missing =>
    cases h
    exact sound_default
  | unreadable error => cases h
  | content c₀ =>
    obtain ⟨c₁, -, h⟩ := bind_ok.1 h
    obtain ⟨⟨⟩, hvalid, h⟩ := bind_ok.1 h
    cases h
    intro entry hentry
    have hserver := forM_ok.1 hvalid entry hentry
    rw [validateServer] at hserver
    split_ifs at hserver
    obtain ⟨e, he, -⟩ := bind_ok.1 hserver
    exact ⟨e, he⟩

lemma sound_loadServerConfigOrDefault (p : Process) (file : FileContent ServerConfigFile) :
    (loadServerConfigOrDefault p file).Sound := by
  rw [loadServerConfigOrDefault]
  cases h : loadServerConfig p file with
  | ok c => exact sound_of_load h
  | error e => exact sound_default

lemma exists_listEntries {c : ServerConfigFile} (h : c.Sound) :
    ∃ entries, listEntries c = .ok entries ∧
      (entries.map ServerEntry.alias).Perm c.servers.aliases := by
  have hall : ∀ l : List (Str × ServerHostConfig), (∀ entry ∈ l, entry ∈ c.servers.entries) →
      ∃ entries, (l.mapM fun entry => resolveServerEntry entry.1 entry.2 c.defaults none) =
        .ok entries ∧ entries.map ServerEntry.alias = l.map Prod.fst := by
    intro l hl
    induction l with
    | nil => exact ⟨[], rfl, rfl⟩
    | cons entry l ih =>
      rw [forall_mem_cons] at hl
      obtain ⟨e, he⟩ := h entry hl.1
      obtain ⟨entries, hentries, hnames⟩ := ih hl.2
      refine ⟨e :: entries, ?_, ?_⟩
      · rw [mapM_ok] at hentries ⊢
        exact .cons he hentries
      · rw [map_cons, map_cons, hnames, alias_of_resolve he]
  obtain ⟨entries, hentries, hnames⟩ := hall _ fun _ => id
  refine ⟨_, bind_ok.2 ⟨entries, hentries, rfl⟩, ?_⟩
  rw [Servers.aliases, ← hnames]
  exact (perm_insertionSort _ entries).map _

/-! ### OpenSSH client configuration -/

structure SshHostEntry where
  patterns : List Str := []
  hostName : Option Str := none
  port : Option ℕ := none
  user : Option Str := none
  identityFile : Option Str := none
  proxyCommand : Option Str := none
  pubkeyAcceptedAlgorithms : Option Str := none

/-- `glob_match_inner`, on what is left of pattern and text. -/
def globMatch : Str → Str → Bool
  | [], text => text.isEmpty
  | '*' :: pattern, text => text.tails.any (globMatch pattern)
  | '?' :: pattern, text => text ≠ [] && globMatch pattern text.tail
  | ch :: pattern, text => text.head? == some ch && globMatch pattern text.tail

def SshHostEntry.matches (entry : SshHostEntry) (host : Str) : Bool :=
  entry.patterns.any fun pattern => globMatch pattern host

/-- A block counts once it has patterns: what stands before the first `Host` is dropped. -/
def endBlock (entries : List SshHostEntry) (current : SshHostEntry) : List SshHostEntry :=
  if current.patterns = [] then entries else entries ++ [current]

def sshConfigSetting (p : Process) (current : SshHostEntry) (key value : Str) :
    Except Str SshHostEntry :=
  let key := key.map Char.toLower
  if key = "hostname" then .ok { current with hostName := some value }
  else if key = "port" then .ok { current with port := parseUnsigned 10 (2 ^ 16) value }
  else if key = "user" then .ok { current with user := some value }
  else if key = "identityfile" then do
    let path ← expandTilde p value
    .ok { current with identityFile := some path }
  else if key = "proxycommand" then .ok { current with proxyCommand := some value }
  else if key = "pubkeyacceptedalgorithms" then
    .ok { current with pubkeyAcceptedAlgorithms := some value }
  else .ok current

def sshConfigLine (p : Process) (read : List SshHostEntry × SshHostEntry) (rawLine : Str) :
    Except Str (List SshHostEntry × SshHostEntry) :=
  let line := trim rawLine
  if line = [] ∨ line.head? = some '#' then .ok read
  else
    let key := line.takeWhile fun c => !isWhitespace c
    let value := trim (line.dropWhile fun c => !isWhitespace c).tail
    if key.map Char.toLower = "host" then
      .ok (endBlock read.1 read.2, { patterns := splitWhitespace value })
    else do
      let current ← sshConfigSetting p read.2 key value
      .ok (read.1, current)

def parseSshConfig (p : Process) : FileContent Str → Except Str (List SshHostEntry)
  | .missing => .ok []
  | .unreadable error => .error error
  | .content text => do
    let read ← (lines text).foldlM (sshConfigLine p) ([], {})
    .ok (endBlock read.1 read.2)

/-- The first value of each setting wins. -/
def SshHostEntry.fill (resolved entry : SshHostEntry) : SshHostEntry where
  patterns := resolved.patterns
  hostName := resolved.hostName <|> entry.hostName
  port := resolved.port <|> entry.port
  user := resolved.user <|> entry.user
  identityFile := resolved.identityFile <|> entry.identityFile
  proxyCommand := resolved.proxyCommand <|> entry.proxyCommand
  pubkeyAcceptedAlgorithms := resolved.pubkeyAcceptedAlgorithms <|> entry.pubkeyAcceptedAlgorithms

def resolveSshHost (entries : List SshHostEntry) (host : Str) : Option SshHostEntry :=
  match entries.filter (·.matches host) with
  | [] => none
  | found => some (found.foldl SshHostEntry.fill { patterns := [host] })

end CrossHostOps.Inventory
