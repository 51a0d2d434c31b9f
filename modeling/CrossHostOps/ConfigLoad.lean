import CrossHostOps.Config

/-!
What `AppConfig::load` accepts, and what it makes of a configuration that was written back.
-/

namespace CrossHostOps.ConfigLoad

open Text Config Results

variable {T : Type} {toml : TomlText T} {p : Process} {dir : Option Str} {c c' : AppConfig}
  {file : FileContent T} {text : T} {gateways gateways' : List GatewayConfig}

/-! ### Paths -/

/-- The second configuration is the first with its paths expanded. -/
structure Expanded (p : Process) (c c' : AppConfig) : Prop where
  audit : c.audit.path.mapM (expandTilde p) = .ok c'.audit.path
  server : c.server.expandPaths p = .ok c'.server
  ssh : c.ssh.expandPaths p = .ok c'.ssh
  secret : c.secret.expandPaths p = .ok c'.secret
  gateways : c.gateways.mapM (GatewayConfig.expandPaths p) = .ok c'.gateways
  reverseProxy : c.reverseProxy.expandPaths p = .ok c'.reverseProxy
  others : c' = { c with
    server := c'.server, ssh := c'.ssh, secret := c'.secret, gateways := c'.gateways
    reverseProxy := c'.reverseProxy, audit := { c.audit with path := c'.audit.path } }

lemma expandPaths_ok : c.expandPaths p = .ok c' ↔ Expanded p c c' := by
  rw [AppConfig.expandPaths, bind_ok]
  constructor
  · rintro ⟨auditPath, haudit, h⟩
    obtain ⟨server, hserver, h⟩ := bind_ok.1 h
    obtain ⟨ssh, hssh, h⟩ := bind_ok.1 h
    obtain ⟨secret, hsecret, h⟩ := bind_ok.1 h
    obtain ⟨gateways, hgateways, h⟩ := bind_ok.1 h
    obtain ⟨reverseProxy, hreverse, h⟩ := bind_ok.1 h
    cases h
    exact ⟨haudit, hserver, hssh, hsecret, hgateways, hreverse, rfl⟩
  · rintro ⟨haudit, hserver, hssh, hsecret, hgateways, hreverse, hothers⟩
    refine ⟨_, haudit, bind_ok.2 ⟨_, hserver, bind_ok.2 ⟨_, hssh, bind_ok.2 ⟨_, hsecret,
      bind_ok.2 ⟨_, hgateways, bind_ok.2 ⟨_, hreverse, ?_⟩⟩⟩⟩⟩⟩
    exact congrArg Except.ok hothers.symm

variable {path path' home : Str}

/-- A path stays as it is, or it gets the home directory. -/
lemma expandTilde_cases (h : expandTilde p path = .ok path') :
    expandTilde p path' = .ok path' ∨
      ∃ home, p.home = some home ∧ (path' = home ∨ ∃ rest, path' = joinPath home rest) := by
  have hpath := h
  unfold expandTilde Process.homeDir at h
  cases hhome : p.home with
  | none =>
    simp only [hhome] at h
    split_ifs at h
    split at h
    · cases h
    · cases h
      exact .inl hpath
  | some home =>
    simp only [hhome] at h
    split_ifs at h
    · cases h
      exact .inr ⟨path', rfl, .inl rfl⟩
    · split at h
      · cases h
        exact .inr ⟨home, rfl, .inr ⟨_, rfl⟩⟩
      · cases h
        exact .inl hpath

lemma exists_expandTilde (hhome : p.home = some home) (path : Str) :
    ∃ path', expandTilde p path = .ok path' := by
  unfold expandTilde
  rw [Process.homeDir, hhome]
  split_ifs
  · exact ⟨home, rfl⟩
  · split
    · exact ⟨_, rfl⟩
    · exact ⟨path, rfl⟩

lemma expandTilde_again (h : expandTilde p path = .ok path') :
    ∃ path'', expandTilde p path' = .ok path'' := by
  rcases expandTilde_cases h with hfixed | ⟨home, hhome, -⟩
  · exact ⟨path', hfixed⟩
  · exact exists_expandTilde hhome path'

lemma name_of_expandPaths {g g' : GatewayConfig} (h : g.expandPaths p = .ok g') :
    g'.name = g.name ∧ g'.requiredField = g.requiredField ∧ g'.leaves = g.leaves := by
  cases g with
  | xhod c =>
    obtain ⟨identityFile, -, h⟩ := bind_ok.1 h
    obtain ⟨knownHostsPath, -, h⟩ := bind_ok.1 h
    cases h
    exact ⟨rfl, rfl, rfl⟩
  | jumpserver | direct =>
    obtain ⟨identityFile, -, h⟩ := bind_ok.1 h
    cases h
    exact ⟨rfl, rfl, rfl⟩

/-! ### Leaves -/

/-- All durations are read back. -/
lemma readable_iff : c.Readable ↔
    (∀ entry ∈ c.ssh.fallback, (Leaf.fallback entry).Readable) ∧
      ∀ g ∈ c.gateways, ∀ leaf ∈ g.leaves, leaf.Readable := by
  rw [AppConfig.Readable, AppConfig.leaves, List.forall_mem_append, List.forall_mem_append,
    List.forall_mem_map, List.forall_mem_map]
  simp only [List.mem_flatMap, forall_exists_index, and_imp]
  constructor
  · rintro ⟨⟨-, hfallback⟩, hgateways⟩
    exact ⟨hfallback, fun g hg leaf hleaf => hgateways leaf g hg hleaf⟩
  · rintro ⟨hfallback, hgateways⟩
    refine ⟨⟨fun seconds _ => ?_, hfallback⟩, fun leaf g hg hleaf => hgateways g hg leaf hleaf⟩
    exact deserializeDuration_serializeDuration seconds

lemma readable_default (p : Process) : (AppConfig.default p).Readable := by
  rw [readable_iff]
  refine ⟨?_, fun g hg => by cases hg⟩
  rintro entry hentry
  cases List.mem_singleton.1 hentry
  rfl

lemma Expanded.readable (h : Expanded p c c') (hc : c.Readable) : c'.Readable := by
  obtain ⟨hfallback, hgateways⟩ := readable_iff.1 hc
  refine readable_iff.2 ⟨?_, fun g' hg' => ?_⟩
  · obtain ⟨sshConfigPath, -, hssh⟩ := bind_ok.1 h.ssh
    obtain ⟨serverConfigPath, -, hssh⟩ := bind_ok.1 hssh
    rwa [← Except.ok.inj hssh]
  · obtain ⟨g, hg, hexpand⟩ := exists_of_mem_mapM h.gateways hg'
    rw [(name_of_expandPaths hexpand).2.2]
    exact hgateways g hg

/-- Gateways without leaves do no harm. -/
lemma readable_gateways (hc : c.Readable)
    (hgateways : ∀ g ∈ gateways, g ∈ c.gateways ∨ g.leaves = []) :
    { c with gateways }.Readable := by
  obtain ⟨hfallback, hold⟩ := readable_iff.1 hc
  refine readable_iff.2 ⟨hfallback, fun g hg => ?_⟩
  rcases hgateways g hg with hmem | hnil
  · exact hold g hmem
  · rw [hnil]
    exact List.forall_mem_nil _

/-! ### Validation -/

lemma validateFallbackReferences_ok {gateways : List GatewayConfig}
    {fallback : List FallbackEntry} :
    validateFallbackReferences gateways fallback = .ok () ↔
      ∀ name, .gateway name ∈ fallback → name = localName ∨
        name ∈ gateways.map GatewayConfig.name := by
  induction fallback with
  | nil => simp [validateFallbackReferences]
  | cons entry rest ih =>
    cases entry with
    | «local» => simp [validateFallbackReferences, ih]
    | gateway name =>
      have hany : gateways.any (·.name = name) ↔ name ∈ gateways.map GatewayConfig.name := by
        simp
      simp only [validateFallbackReferences, hany]
      split_ifs with hname
      · rw [ih]
        simp only [List.mem_cons, FallbackEntry.gateway.injEq, forall_eq_or_imp, hname, true_and]
      · simp only [List.mem_cons, FallbackEntry.gateway.injEq, forall_eq_or_imp, hname, false_and]

/-- What `validate` demands of the gateways and of those who name them. -/
structure SoundGateways (c : AppConfig) : Prop where
  valid : ∀ g ∈ c.gateways, g.Valid
  nodup : (c.gateways.map GatewayConfig.name).Nodup
  fallback : ∀ name, .gateway name ∈ c.ssh.fallback → name = localName ∨
    name ∈ c.gateways.map GatewayConfig.name

/-- The part of `validate` that does not look at the gateways. -/
def SoundOthers (p : Process) (c : AppConfig) : Prop :=
  c.server.validate p = .ok () ∧ c.reverseProxy.validate = .ok ()

lemma validate_ok : c.validate p = .ok () ↔ SoundOthers p c ∧ SoundGateways c := by
  rw [AppConfig.validate, bind_ok]
  constructor
  · rintro ⟨⟨⟩, hserver, h⟩
    obtain ⟨⟨⟩, hgateways, h⟩ := bind_ok.1 h
    obtain ⟨⟨⟩, hfallback, h⟩ := bind_ok.1 h
    rw [mapError_ok, validateGateways_ok] at hgateways
    exact ⟨⟨hserver, h⟩, hgateways.1, hgateways.2, validateFallbackReferences_ok.1 hfallback⟩
  · rintro ⟨⟨hserver, hreverse⟩, hvalid, hnodup, hfallback⟩
    refine ⟨(), hserver, bind_ok.2 ⟨(), mapError_ok.2 (validateGateways_ok.2 ⟨hvalid, hnodup⟩),
      bind_ok.2 ⟨(), validateFallbackReferences_ok.2 hfallback, hreverse⟩⟩⟩

/-! ### Loading -/

lemma settle_ok : AppConfig.settle p dir c = .ok c' ↔
    Expanded p { c with configDir := dir } c' ∧ SoundOthers p c' ∧ SoundGateways c' := by
  rw [AppConfig.settle, bind_ok]
  constructor
  · rintro ⟨c₁, hexpand, h⟩
    obtain ⟨⟨⟩, hvalid, h⟩ := bind_ok.1 h
    cases h
    exact ⟨expandPaths_ok.1 hexpand, validate_ok.1 hvalid⟩
  · rintro ⟨hexpand, hvalid⟩
    exact ⟨c', expandPaths_ok.2 hexpand, bind_ok.2 ⟨(), validate_ok.2 hvalid, rfl⟩⟩

/-- What has been loaded is complete: there is nothing left to fill in from the environment. -/
structure Loaded (p : Process) (dir : Option Str) (c : AppConfig) : Prop where
  apiKey : c.fillApiKey p = c
  configDir : c.configDir = dir
  others : SoundOthers p c
  gateways : SoundGateways c
  readable : c.Readable

lemma fillApiKey_fillApiKey : (c.fillApiKey p).fillApiKey p = c.fillApiKey p := by
  rw [AppConfig.fillApiKey, AppConfig.fillApiKey]
  cases c.review.apiKey <;> cases defaultReviewApiKey p <;> rfl

lemma fillApiKey_eq_iff :
    c.fillApiKey p = c ↔ (c.review.apiKey <|> defaultReviewApiKey p) = c.review.apiKey := by
  constructor
  · intro h
    exact congrArg (fun c => c.review.apiKey) h
  · intro h
    rw [AppConfig.fillApiKey, h]

lemma loaded_of_settle (hfill : c.fillApiKey p = c) (hreadable : c.Readable)
    (h : AppConfig.settle p dir c = .ok c') : Loaded p dir c' := by
  obtain ⟨hexpanded, hothers, hgateways⟩ := settle_ok.1 h
  have hreview : c'.review = c.review := by rw [hexpanded.others]
  refine ⟨?_, by rw [hexpanded.others], hothers, hgateways, hexpanded.readable hreadable⟩
  rw [fillApiKey_eq_iff, hreview]
  exact fillApiKey_eq_iff.1 hfill

lemma loaded_of_load (htoml : toml.RoundTrips) (h : AppConfig.load toml p dir file = .ok c) :
    Loaded p dir c := by
  cases file with
  | missing =>
    refine loaded_of_settle (fillApiKey_eq_iff.2 ?_) (readable_default p) h
    cases hkey : defaultReviewApiKey p <;> simp [AppConfig.default, hkey]
  | unreadable error => cases h
  | content text =>
    obtain ⟨c₀, hread, h⟩ := bind_ok.1 h
    have hleaves : c₀.Readable := fun leaf hleaf =>
      Leaf.read_iff.1 ((htoml.read hread).2 leaf hleaf)
    exact loaded_of_settle fillApiKey_fillApiKey hleaves h

/-! ### Writing and loading again -/

lemma fromStr_print (htoml : toml.RoundTrips) (hc : c.Readable) (h : c.print toml p = .ok text) :
    toml.fromStr text = .ok { c with configDir := none } :=
  htoml.readBack hc (p.iteration.perm _) h

/-- What is written is read back with its paths expanded once more. -/
lemma load_print (htoml : toml.RoundTrips) (hc : c.Readable) (h : c.print toml p = .ok text) :
    AppConfig.load toml p dir (.content text) = AppConfig.settle p dir (c.fillApiKey p) := by
  rw [AppConfig.load, fromStr_print htoml hc h]
  rfl

/-- Nothing in the configuration is changed by expanding it once more. -/
def Stable (p : Process) (c : AppConfig) : Prop := c.expandPaths p = .ok c

lemma expanded_gateways :
    Expanded p { c with gateways } { c with gateways := gateways' } ↔
      Stable p { c with gateways := [] } ∧
        gateways.mapM (GatewayConfig.expandPaths p) = .ok gateways' := by
  rw [Stable, expandPaths_ok]
  constructor
  · intro h
    exact ⟨⟨h.audit, h.server, h.ssh, h.secret, rfl, h.reverseProxy, rfl⟩, h.gateways⟩
  · rintro ⟨h, hgateways⟩
    exact ⟨h.audit, h.server, h.ssh, h.secret, hgateways, h.reverseProxy, rfl⟩

lemma stable_iff : Stable p c ↔ Stable p { c with gateways := [] } ∧
    c.gateways.mapM (GatewayConfig.expandPaths p) = .ok c.gateways := by
  rw [← expanded_gateways]
  exact expandPaths_ok

/-- A loaded configuration with other gateways, written and loaded again. -/
lemma reload_ok (htoml : toml.RoundTrips) (h : Loaded p dir c)
    (hleaves : ∀ g ∈ gateways, g ∈ c.gateways ∨ g.leaves = [])
    (hprint : { c with gateways }.print toml p = .ok text) (gateways' : List GatewayConfig) :
    AppConfig.load toml p dir (.content text) = .ok { c with gateways := gateways' } ↔
      Stable p { c with gateways := [] } ∧
        gateways.mapM (GatewayConfig.expandPaths p) = .ok gateways' ∧
          SoundGateways { c with gateways := gateways' } := by
  have hfill : { c with gateways }.fillApiKey p = { c with gateways } := by
    rw [fillApiKey_eq_iff]
    exact (fillApiKey_eq_iff (c := c)).1 h.apiKey
  have hdir : { { c with gateways } with configDir := dir } = { c with gateways } := by
    rw [← h.configDir]
  rw [load_print htoml (readable_gateways h.readable hleaves) hprint, hfill, settle_ok, hdir,
    expanded_gateways, and_assoc]
  exact and_congr_right fun _ => and_congr_right fun _ => and_iff_right h.others

/-! ### An absolute home directory -/

/-- The home directory, if there is one, is an absolute path. -/
def AbsoluteHome (p : Process) : Prop := ∀ home, p.home = some home → home.head? = some '/'

lemma absoluteHome_bareHost : AbsoluteHome bareHost := by
  rintro home ⟨⟩
  rfl

lemma expandTilde_absolute (h : path.head? = some '/') : expandTilde p path = .ok path := by
  cases path with
  | nil => cases h
  | cons c rest =>
    cases h
    rfl

lemma head?_joinPath (hhome : home.head? = some '/') (rest : Str) :
    (joinPath home rest).head? = some '/' := by
  rw [joinPath]
  split_ifs with hrest
  · exact hrest
  · rw [List.head?_append, hhome]
    rfl
  · rw [List.head?_append, hhome]
    rfl

section Fixed

variable (hhome : AbsoluteHome p)
include hhome

lemma expandTilde_fixed {path path' : Str} (h : expandTilde p path = .ok path') :
    expandTilde p path' = .ok path' := by
  rcases expandTilde_cases h with hfixed | ⟨home, hp, rfl | ⟨rest, rfl⟩⟩
  · exact hfixed
  · exact expandTilde_absolute (hhome path' hp)
  · exact expandTilde_absolute (head?_joinPath (hhome home hp) rest)

lemma server_fixed {c c' : ServerConfig} (h : c.expandPaths p = .ok c') :
    c'.expandPaths p = .ok c' := by
  obtain ⟨logPath, hlog, h⟩ := bind_ok.1 h
  obtain ⟨socketPath, hsocket, h⟩ := bind_ok.1 h
  obtain ⟨tcpLockFile, hlock, h⟩ := bind_ok.1 h
  obtain ⟨remoteHostKey, hremoteKey, h⟩ := bind_ok.1 h
  obtain ⟨remoteKeys, hremoteKeys, h⟩ := bind_ok.1 h
  obtain ⟨proxyHostKey, hproxyKey, h⟩ := bind_ok.1 h
  obtain ⟨proxyKeys, hproxyKeys, h⟩ := bind_ok.1 h
  obtain ⟨sftp, hsftp, h⟩ := bind_ok.1 h
  cases h
  refine bind_ok.2 ⟨logPath, option_mapM_fixed (expandTilde_fixed hhome) hlog, ?_⟩
  refine bind_ok.2 ⟨socketPath, expandTilde_fixed hhome hsocket, ?_⟩
  refine bind_ok.2 ⟨tcpLockFile, expandTilde_fixed hhome hlock, ?_⟩
  refine bind_ok.2 ⟨remoteHostKey, expandTilde_fixed hhome hremoteKey, ?_⟩
  refine bind_ok.2 ⟨remoteKeys, expandTilde_fixed hhome hremoteKeys, ?_⟩
  refine bind_ok.2 ⟨proxyHostKey, expandTilde_fixed hhome hproxyKey, ?_⟩
  refine bind_ok.2 ⟨proxyKeys, expandTilde_fixed hhome hproxyKeys, ?_⟩
  exact bind_ok.2 ⟨sftp, option_mapM_fixed (expandTilde_fixed hhome) hsftp, rfl⟩

lemma ssh_fixed {c c' : SshConfig} (h : c.expandPaths p = .ok c') : c'.expandPaths p = .ok c' := by
  obtain ⟨sshConfigPath, hssh, h⟩ := bind_ok.1 h
  obtain ⟨serverConfigPath, hserver, h⟩ := bind_ok.1 h
  cases h
  refine bind_ok.2 ⟨sshConfigPath, expandTilde_fixed hhome hssh, ?_⟩
  exact bind_ok.2 ⟨serverConfigPath, expandTilde_fixed hhome hserver, rfl⟩

lemma secret_fixed {c c' : SecretConfig} (h : c.expandPaths p = .ok c') :
    c'.expandPaths p = .ok c' := by
  obtain ⟨vaultPath, hvault, h⟩ := bind_ok.1 h
  obtain ⟨keySource, hkey, h⟩ := bind_ok.1 h
  cases h
  refine bind_ok.2 ⟨vaultPath, option_mapM_fixed (expandTilde_fixed hhome) hvault, ?_⟩
  exact bind_ok.2 ⟨keySource, option_mapM_fixed (expandTilde_fixed hhome) hkey, rfl⟩

lemma gateway_fixed {g g' : GatewayConfig} (h : g.expandPaths p = .ok g') :
    g'.expandPaths p = .ok g' := by
  cases g with
  | xhod c =>
    obtain ⟨identityFile, hidentity, h⟩ := bind_ok.1 h
    obtain ⟨knownHostsPath, hknown, h⟩ := bind_ok.1 h
    cases h
    refine bind_ok.2 ⟨identityFile, expandTilde_fixed hhome hidentity, ?_⟩
    exact bind_ok.2 ⟨knownHostsPath, expandTilde_fixed hhome hknown, rfl⟩
  | jumpserver | direct =>
    obtain ⟨identityFile, hidentity, h⟩ := bind_ok.1 h
    cases h
    exact bind_ok.2 ⟨identityFile, expandTilde_fixed hhome hidentity, rfl⟩

lemma reverseProxy_fixed {c c' : ReverseProxyClientConfig} (h : c.expandPaths p = .ok c') :
    c'.expandPaths p = .ok c' := by
  obtain ⟨identityFile, hidentity, h⟩ := bind_ok.1 h
  obtain ⟨knownHostsPath, hknown, h⟩ := bind_ok.1 h
  obtain ⟨workdir, hworkdir, h⟩ := bind_ok.1 h
  cases h
  refine bind_ok.2 ⟨identityFile, expandTilde_fixed hhome hidentity, ?_⟩
  refine bind_ok.2 ⟨knownHostsPath, expandTilde_fixed hhome hknown, ?_⟩
  exact bind_ok.2 ⟨workdir, option_mapM_fixed (expandTilde_fixed hhome) hworkdir, rfl⟩

lemma stable_of_expanded (h : Expanded p c c') : Stable p c' :=
  expandPaths_ok.2 {
    audit := option_mapM_fixed (expandTilde_fixed hhome) h.audit
    server := server_fixed hhome h.server
    ssh := ssh_fixed hhome h.ssh
    secret := secret_fixed hhome h.secret
    gateways := mapM_fixed (gateway_fixed hhome) h.gateways
    reverseProxy := reverseProxy_fixed hhome h.reverseProxy
    others := rfl }

lemma stable_of_load (h : AppConfig.load toml p dir file = .ok c) : Stable p c := by
  cases file with
  | missing => exact stable_of_expanded hhome (settle_ok.1 h).1
  | unreadable error => cases h
  | content text =>
    obtain ⟨c₀, -, h⟩ := bind_ok.1 h
    exact stable_of_expanded hhome (settle_ok.1 h).1

end Fixed

end CrossHostOps.ConfigLoad
