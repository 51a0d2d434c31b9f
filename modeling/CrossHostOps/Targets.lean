import CrossHostOps.Inventory

/-!
The target resolver of the daemon (`daemon/resolver.rs`): from the target string of a client to
the candidate routes, each a gateway and the target it is given.
-/

namespace CrossHostOps.Targets

open Text Config Inventory Results List

structure Route where
  gatewayName : Str
  endTarget : Str
  deriving DecidableEq

inductive ServerListSource
  | «local»
  | gateway (path : Str)
  deriving DecidableEq

inductive ServerListSourceStatus
  | ok
  | unsupported
  | error (detail : Str)
  deriving DecidableEq

structure ServerListRow where
  source : ServerListSource
  server : ServerEntry
  deriving DecidableEq

structure ResolveResult where
  routes : List Route
  warning : Option Str := none
  deriving DecidableEq

def selfTarget : Str := "_self"

def serverListSourceToString : ServerListSource → Str
  | .local => localName
  | .gateway path => path

/-- `format!("{}:{}", ..)`. -/
def qualified (first rest : Str) : Str := first ++ ':' :: rest

/-! ### Names and sources -/

def fullTargetName : ServerListSource → Str → Str
  | .local, name => qualified localName name
  | .gateway path, name => qualified path name

/-- `full_target_name_strip_local`. -/
def userFriendlyTargetName (fullName : Str) : Str :=
  let head := qualified localName []
  if head.isPrefixOf fullName then fullName.drop head.length else fullName

/-- What stands before the first colon. -/
def firstSegment (s : Str) : Str := s.takeWhile (· ≠ ':')

/-- What stands behind the first colon. -/
def furtherSegments (s : Str) : Str := (s.dropWhile (· ≠ ':')).tail

/-- `split_once(':')`. -/
def splitOnce (s : Str) : Option (Str × Str) :=
  if ':' ∈ s then some (firstSegment s, furtherSegments s) else none

/-- `rsplit_once(':')`: what stands before and behind the last colon. -/
def rsplitOnce (s : Str) : Option (Str × Str) :=
  if ':' ∈ s then some ((s.rdropWhile (· ≠ ':')).dropLast, s.rtakeWhile (· ≠ ':')) else none

def routeFromSource : ServerListSource → Str → Except Str Route
  | .local, name => .ok ⟨localName, name⟩
  | .gateway path, name =>
    let (gatewayName, rest) := (splitOnce path).getD (path, [])
    if gatewayName = [] then
      .error ("invalid empty gateway in server-list source '" ++ path ++ "'")
    else .ok ⟨gatewayName, if rest = [] then name else qualified rest name⟩

def parseExplicitQualified (input : Str) : Option (Str × Str) :=
  match splitOnce input with
  | none => none
  | some (gatewayName, endTarget) =>
    if gatewayName = [] ∨ endTarget = [] then none
    -- the colon of an IPv6 address
    else if endTarget.head? = some ':' then none
    -- a port
    else if endTarget.all Char.isDigit then none
    else some (gatewayName, endTarget)

/-- `foo-192-0-2-163` stands for `192.0.2.163`. -/
def deriveTargetIp (input : Str) : Str :=
  let parts := split '-' input
  let tail := parts.drop (parts.length - 4)
  if 4 ≤ parts.length ∧ tail.all (·.all Char.isDigit) then List.intercalate ['.'] tail else input

def explicitSourcePath (jumpName serverAlias : Str) : Str :=
  match rsplitOnce serverAlias with
  | some (nestedSource, _) => qualified jumpName nestedSource
  | none => jumpName

/-! ### `Resolver` -/

/-- `sshConfig` is the file at `config.ssh.ssh_config_path`. -/
structure Resolver where
  process : Process
  config : AppConfig
  sshConfig : FileContent Str
  serverConfig : ServerConfigFile
  gateways : List GatewayConfig
  mergedRows : List ServerListRow := []
  sourceStatus : List (ServerListSource × ServerListSourceStatus) := []
  dynamicGatewayNames : List Str := []

namespace Resolver

variable (R : Resolver)

def isAnyGatewayName (name : Str) : Bool :=
  R.gateways.any (·.name = name) || R.dynamicGatewayNames.contains name

def lookupLocalServer (name : Str) : Option Route := do
  let server ← R.serverConfig.servers.get name
  let entry ← (resolveServerEntry name server R.serverConfig.defaults none).toOption
  some ⟨localName, entry.alias⟩

def lookupLocalServerByHost (host : Str) : Option Route := do
  let (name, server) ← R.serverConfig.servers.entries.find? (·.2.host = host)
  let entry ← (resolveServerEntry name server R.serverConfig.defaults none).toOption
  some ⟨localName, entry.alias⟩

/-- `append_server_config_routes`: by alias, by host, by the address in the name. -/
def serverConfigRoutes (input : Str) : List Route :=
  match R.lookupLocalServer input with
  | some route => [route]
  | none =>
    match R.lookupLocalServerByHost input with
    | some route => [route]
    | none =>
      let ip := deriveTargetIp input
      if ip ≠ input then (R.lookupLocalServerByHost ip).toList else []

def resolveSshConfigRoute (input ip : Str) : Except Str (Option Route) := do
  let entries ← parseSshConfig R.process R.sshConfig
  match resolveSshHost entries ip with
  | none => .ok none
  | some entry =>
    if entry.proxyCommand.isSome then
      .error "ProxyCommand is not supported for direct SSH targets"
    else if entry.user.isNone || entry.identityFile.isNone then .ok none
    else .ok (some ⟨localName, input⟩)

def fallbackRoutes (input : Str) : List FallbackEntry → Except Str (List Route)
  | [] => .ok []
  | .local :: rest => do
    let route ← R.resolveSshConfigRoute input (deriveTargetIp input)
    let routes ← fallbackRoutes input rest
    .ok (route.toList ++ routes)
  | .gateway name :: rest =>
    match R.gateways.find? (·.name = name) with
    | none => .error ("ssh.fallback references gateway '" ++ name ++
        "' which is not defined in [[gateways]]")
    | some gc => do
      let routes ← fallbackRoutes input rest
      .ok (⟨gc.name, input⟩ :: routes)

def gatewaySourceStatus (path : Str) : Option ServerListSourceStatus :=
  R.sourceStatus.findSome? fun (source, status) =>
    if source = .gateway path then some status else none

def explicitSourceReportedOk (jumpName serverAlias : Str) : Bool :=
  let exactSource := explicitSourcePath jumpName serverAlias
  match R.gatewaySourceStatus exactSource with
  | some status => status = .ok
  | none =>
    if exactSource ≠ jumpName then R.gatewaySourceStatus jumpName = some .ok else false

def listed (displayName : Str) : Bool :=
  R.mergedRows.any fun row => fullTargetName row.source row.server.alias = displayName

def resolveExplicit (jumpName serverAlias : Str) : Except Str (List Route) :=
  if jumpName = localName then
    match R.lookupLocalServer serverAlias with
    | some route => .ok [route]
    | none => .error ("server alias '" ++ serverAlias ++
        "' not found in local server config")
  else match R.gateways.find? (·.name = jumpName) with
    | none =>
      if R.dynamicGatewayNames.contains jumpName then .ok [⟨jumpName, serverAlias⟩]
      else .error ("gateway name '" ++ jumpName ++ "' not found")
    | some gc =>
      let inputDisplayName := qualified jumpName serverAlias
      if R.explicitSourceReportedOk jumpName serverAlias && !R.listed inputDisplayName then
        .error ("target '" ++ inputDisplayName ++
          "' not found in merged server list")
      else .ok [⟨gc.name, serverAlias⟩]

/-- The loop of `resolve_bare_from_merged_view` over the rows with the alias: display names and
routes, without duplicates. -/
def bareMatches (name : Str) (found : List (Str × Route)) :
    List ServerListRow → Except Str (List (Str × Route))
  | [] => .ok found
  | row :: rows =>
    let displayName := fullTargetName row.source name
    if found.any (·.1 = displayName) then bareMatches name found rows
    else do
      let route ← routeFromSource row.source name
      bareMatches name (found ++ [(displayName, route)]) rows

def ambiguityWarning (name : Str) (chosen : Str) (others : List Str) : Str :=
  "warning: target '" ++ name ++ "' matched multiple sources; using " ++
    userFriendlyTargetName chosen ++ "; also found " ++
    List.intercalate ", " (others.map userFriendlyTargetName)

def resolveBareFromMergedView (name : Str) : Except Str (Option ResolveResult) := do
  match R.mergedRows.filter (·.server.alias = name) with
  | [] => .ok none
  | matchingRows =>
    match ← bareMatches name [] matchingRows with
    | [] => .error "no resolved target candidates"
    | [chosen] => .ok (some ⟨[chosen.2], none⟩)
    | chosen :: others =>
      .ok (some ⟨[chosen.2], some (ambiguityWarning name chosen.1 (others.map Prod.fst))⟩)

/-- The end of `resolve_with_warning`: the candidates of `ssh.fallback`. -/
def resolveFallback (input : Str) : Except Str ResolveResult := do
  match ← R.fallbackRoutes input R.config.ssh.fallback with
  | [] => .error ("target '" ++ input ++
      "' does not match any server config entry or ssh.fallback source")
  | candidates => .ok ⟨candidates, none⟩

/-- The part of `resolve_with_warning` for a name without qualification. -/
def resolveBare (input : Str) : Except Str ResolveResult :=
  if R.mergedRows ≠ [] then do
    match ← R.resolveBareFromMergedView input with
    | some result => .ok result
    | none => R.resolveFallback input
  else match R.serverConfigRoutes input with
    | [] => R.resolveFallback input
    | candidates => .ok ⟨candidates, none⟩

def resolveWithWarning (input : Str) : Except Str ResolveResult :=
  if input = selfTarget then
    if R.isAnyGatewayName selfTarget then .ok ⟨[⟨selfTarget, selfTarget⟩], none⟩
    else .error "'_self' target is not available on this daemon"
  else match parseExplicitQualified input with
    | some (jumpName, serverAlias) => do
      let routes ← R.resolveExplicit jumpName serverAlias
      .ok ⟨routes, none⟩
    | none =>
      if R.isAnyGatewayName input ∧ input ≠ localName then .ok ⟨[⟨input, selfTarget⟩], none⟩
      else R.resolveBare input

def resolve (input : Str) : Except Str (List Route) := do
  let result ← R.resolveWithWarning input
  .ok result.routes

def new (process : Process) (config : AppConfig) (sshConfig : FileContent Str)
    (serverConfig : ServerConfigFile) (gateways : List GatewayConfig) : Resolver :=
  { process, config, sshConfig, serverConfig, gateways }

def withMergedView (process : Process) (config : AppConfig) (sshConfig : FileContent Str)
    (serverConfig : ServerConfigFile) (gateways : List GatewayConfig)
    (mergedRows : List ServerListRow)
    (sourceStatus : List (ServerListSource × ServerListSourceStatus)) : Resolver :=
  { process, config, sshConfig, serverConfig, gateways, mergedRows, sourceStatus }

def withDynamicGateways (names : List Str) : Resolver := { R with dynamicGatewayNames := names }

end Resolver

/-! ### What the parts answer -/

lemma segments_of_notMem {s : Str} (h : ':' ∉ s) : firstSegment s = s ∧ furtherSegments s = [] := by
  have hall : ∀ c ∈ s, decide (c ≠ ':') = true := by
    intro c hc
    rw [decide_eq_true_iff]
    rintro rfl
    exact h hc
  rw [firstSegment, furtherSegments, takeWhile_eq_self_iff.2 hall, dropWhile_eq_nil_iff.2 hall]
  exact ⟨rfl, rfl⟩

lemma segments_qualified {first : Str} (h : ':' ∉ first) (rest : Str) :
    firstSegment (qualified first rest) = first ∧
      furtherSegments (qualified first rest) = rest := by
  have hall : ∀ c ∈ first, decide (c ≠ ':') = true := by
    intro c hc
    rw [decide_eq_true_iff]
    rintro rfl
    exact h hc
  rw [firstSegment, furtherSegments, qualified, takeWhile_append_of_pos hall,
    dropWhile_append_of_pos hall]
  simp

/-- A source leads to a gateway: the first segment of its path is not empty. -/
def Routable (source : ServerListSource) : Prop :=
  firstSegment (serverListSourceToString source) ≠ []
  deriving Decidable

variable {source source' : ServerListSource} {name : Str}

lemma fullTargetName_eq : fullTargetName source name =
    qualified (serverListSourceToString source) name := by
  cases source <;> rfl

lemma Routable.of_name (h : fullTargetName source name = fullTargetName source' name)
    (hsource : Routable source) : Routable source' := by
  rw [fullTargetName_eq, fullTargetName_eq] at h
  have hpath := append_cancel_right h
  unfold Routable at *
  rwa [← hpath]

lemma routeFromSource_gateway (path : Str) : routeFromSource (.gateway path) name =
    if firstSegment path = [] then
      .error ("invalid empty gateway in server-list source '" ++ path ++ "'")
    else .ok ⟨firstSegment path,
      if furtherSegments path = [] then name else qualified (furtherSegments path) name⟩ := by
  rw [routeFromSource, splitOnce]
  by_cases hcolon : ':' ∈ path
  · rw [if_pos hcolon]
    rfl
  · rw [if_neg hcolon, (segments_of_notMem hcolon).1, (segments_of_notMem hcolon).2]
    rfl

lemma exists_routeFromSource :
    (∃ route, routeFromSource source name = .ok route) ↔ Routable source := by
  cases source with
  | «local» =>
    have hlocal : Routable .local := by decide
    exact ⟨fun _ => hlocal, fun _ => ⟨_, rfl⟩⟩
  | gateway path =>
    rw [routeFromSource_gateway]
    change _ ↔ firstSegment path ≠ []
    split_ifs with h <;> simp [h]

/-- The first candidate of an answer. -/
def Chooses (answer : Except Str ResolveResult) (r : Route) : Prop :=
  ∃ result, answer = .ok result ∧ result.routes.head? = some r

lemma chooses_ok {result : ResolveResult} {r : Route} :
    Chooses (.ok result) r ↔ result.routes.head? = some r :=
  ⟨fun ⟨_, h, hr⟩ => (by cases h; exact hr), fun h => ⟨result, rfl, h⟩⟩

lemma not_chooses_error {e : Str} {r : Route} : ¬ Chooses (.error e) r := by
  rintro ⟨result, h, -⟩
  cases h

instance (answer : Except Str ResolveResult) (r : Route) : Decidable (Chooses answer r) :=
  match answer with
  | .ok _ => decidable_of_iff _ chooses_ok.symm
  | .error _ => isFalse not_chooses_error

namespace Resolver

variable {R : Resolver} {rows : List ServerListRow}

lemma bareMatches_ok (found : List (Str × Route)) (h : ∀ row ∈ rows, Routable row.source) :
    ∃ more, bareMatches name found rows = .ok (found ++ more) := by
  induction rows generalizing found with
  | nil => exact ⟨[], by simp [bareMatches]⟩
  | cons row rows ih =>
    rw [forall_mem_cons] at h
    rw [bareMatches]
    split_ifs with hfound
    · exact ih found h.2
    · obtain ⟨route, hroute⟩ := exists_routeFromSource.2 h.1
      obtain ⟨more, hmore⟩ := ih (found ++ [(fullTargetName row.source name, route)]) h.2
      rw [hroute]
      refine ⟨(fullTargetName row.source name, route) :: more, ?_⟩
      rw [append_cons, ← hmore]
      rfl

/-- One row that leads nowhere makes the whole look-up fail. -/
lemma bareMatches_error {found : List (Str × Route)}
    (hfound : ∀ m ∈ found, ∃ source, Routable source ∧ m.1 = fullTargetName source name)
    (h : ∃ row ∈ rows, ¬ Routable row.source) :
    ∃ e, bareMatches name found rows = .error e := by
  induction rows generalizing found with
  | nil => simp at h
  | cons row rows ih =>
    rw [bareMatches]
    rw [exists_mem_cons_iff] at h
    split_ifs with hany
    · have hrow : Routable row.source := by
        obtain ⟨m, hm, hname⟩ := any_eq_true.1 hany
        obtain ⟨source, hsource, heq⟩ := hfound m hm
        exact hsource.of_name (heq.symm.trans (of_decide_eq_true hname))
      exact ih hfound (h.resolve_left (not_not_intro hrow))
    · by_cases hrow : Routable row.source
      · obtain ⟨route, hroute⟩ := exists_routeFromSource.2 hrow
        rw [hroute]
        refine ih ?_ (h.resolve_left (not_not_intro hrow))
        intro m hm
        rcases mem_append.1 hm with hm | hm
        · exact hfound m hm
        · rw [mem_singleton.1 hm]
          exact ⟨row.source, hrow, rfl⟩
      · cases hroute : routeFromSource row.source name with
        | ok route => exact absurd (exists_routeFromSource.1 ⟨route, hroute⟩) hrow
        | error e => exact ⟨e, rfl⟩

section MergedView

variable {row : ServerListRow}

lemma resolveBareFromMergedView_of_listed
    (hfilter : R.mergedRows.filter (·.server.alias = name) = row :: rows)
    (hall : ∀ row' ∈ row :: rows, Routable row'.source) {route : Route}
    (hroute : routeFromSource row.source name = .ok route) :
    ∃ warning, R.resolveBareFromMergedView name = .ok (some ⟨[route], warning⟩) := by
  obtain ⟨more, hmore⟩ : ∃ more, bareMatches name [(fullTargetName row.source name, route)] rows =
      .ok ([(fullTargetName row.source name, route)] ++ more) :=
    bareMatches_ok _ (forall_mem_cons.1 hall).2
  have hmatches : bareMatches name [] (row :: rows) =
      .ok ((fullTargetName row.source name, route) :: more) := by
    rw [bareMatches, hroute]
    exact hmore
  simp only [resolveBareFromMergedView, hfilter, hmatches]
  cases more with
  | nil => exact ⟨none, rfl⟩
  | cons m more => exact ⟨some _, rfl⟩

lemma resolveBareFromMergedView_of_unroutable
    (hfilter : R.mergedRows.filter (·.server.alias = name) = row :: rows)
    (hrow : ∃ row' ∈ row :: rows, ¬ Routable row'.source) :
    ∃ e, R.resolveBareFromMergedView name = .error e := by
  obtain ⟨e, he⟩ : ∃ e, bareMatches name [] (row :: rows) = .error e :=
    bareMatches_error (by simp) hrow
  simp only [resolveBareFromMergedView, hfilter, he]
  exact ⟨e, rfl⟩

/-- The merged view chooses by the first row with the name, if every such row leads to a
gateway. -/
lemma chooses_resolveBare {r : Route} (hrows : R.mergedRows ≠ []) :
    Chooses (R.resolveBare name) r ↔
      match R.mergedRows.filter (·.server.alias = name) with
      | [] => Chooses (R.resolveFallback name) r
      | row :: rows => (∀ row' ∈ row :: rows, Routable row'.source) ∧
          routeFromSource row.source name = .ok r := by
  rw [resolveBare, if_pos hrows]
  cases hfilter : R.mergedRows.filter (·.server.alias = name) with
  | nil =>
    simp only [resolveBareFromMergedView, hfilter]
    rfl
  | cons row rows =>
    by_cases hall : ∀ row' ∈ row :: rows, Routable row'.source
    · obtain ⟨route, hroute⟩ : ∃ route, routeFromSource row.source name = .ok route :=
        exists_routeFromSource.2 (hall row (by simp))
      obtain ⟨warning, hwarning⟩ := resolveBareFromMergedView_of_listed hfilter hall hroute
      rw [hwarning]
      change Chooses (.ok ⟨[route], warning⟩) r ↔ _
      rw [chooses_ok]
      simp only [hroute, head?_cons, Option.some.injEq, Except.ok.injEq, and_iff_right hall]
    · have hunroutable := hall
      push Not at hunroutable
      obtain ⟨e, he⟩ := resolveBareFromMergedView_of_unroutable hfilter hunroutable
      rw [he]
      exact ⟨fun h => absurd h not_chooses_error, fun h => absurd h.1 hall⟩

end MergedView

/-! ### Look-ups in `server.toml` -/

variable {input : Str} {r : Route}

lemma lookupLocalServer_eq (h : R.serverConfig.Sound) :
    R.lookupLocalServer name =
      if name ∈ R.serverConfig.servers.aliases then some ⟨localName, name⟩ else none := by
  rw [lookupLocalServer]
  split_ifs with hname
  · obtain ⟨server, hserver⟩ := Option.isSome_iff_exists.1 (Servers.isSome_get.2 hname)
    obtain ⟨e, he⟩ := h _ (Servers.mem_of_get hserver)
    simp [hserver, toOption_eq_some.2 he, alias_of_resolve he]
  · rw [← Servers.isSome_get, Option.not_isSome_iff_eq_none] at hname
    rw [hname]
    rfl

lemma lookupLocalServerByHost_mem {host : Str} (h : R.lookupLocalServerByHost host = some r) :
    ∃ entry ∈ R.serverConfig.servers.entries, entry.2.host = host ∧ r = ⟨localName, entry.1⟩ := by
  obtain ⟨⟨name, server⟩, hfind, h⟩ := Option.bind_eq_some_iff.1 h
  obtain ⟨e, he, h⟩ := Option.bind_eq_some_iff.1 h
  cases h
  have hhost := find?_some hfind
  rw [decide_eq_true_iff] at hhost
  rw [toOption_eq_some] at he
  exact ⟨(name, server), mem_of_find?_eq_some hfind, hhost, by rw [alias_of_resolve he]⟩

lemma serverConfigRoutes_of_mem (h : R.serverConfig.Sound)
    (hinput : input ∈ R.serverConfig.servers.aliases) :
    R.serverConfigRoutes input = [⟨localName, input⟩] := by
  rw [serverConfigRoutes, lookupLocalServer_eq h, if_pos hinput]

lemma mem_serverConfigRoutes (h : R.serverConfig.Sound) (hr : r ∈ R.serverConfigRoutes input) :
    ∃ name ∈ R.serverConfig.servers.aliases, r = ⟨localName, name⟩ := by
  have hhost : ∀ {host}, R.lookupLocalServerByHost host = some r →
      ∃ name ∈ R.serverConfig.servers.aliases, r = ⟨localName, name⟩ := by
    intro host hsome
    obtain ⟨entry, hentry, -, rfl⟩ := lookupLocalServerByHost_mem hsome
    exact ⟨entry.1, mem_map_of_mem hentry, rfl⟩
  by_cases hinput : input ∈ R.serverConfig.servers.aliases
  · rw [serverConfigRoutes_of_mem h hinput, mem_singleton] at hr
    exact ⟨input, hinput, hr⟩
  · rw [serverConfigRoutes, lookupLocalServer_eq h, if_neg hinput] at hr
    cases hbyHost : R.lookupLocalServerByHost input with
    | some route =>
      simp only [hbyHost, mem_singleton] at hr
      exact hhost (hr ▸ hbyHost)
    | none =>
      simp only [hbyHost] at hr
      split_ifs at hr with hip
      · exact hhost (Option.mem_toList.1 hr)
      · cases hr

/-! ### Candidates -/

lemma resolveWithWarning_bare (hself : input ≠ selfTarget)
    (hparse : parseExplicitQualified input = none)
    (hgateway : ¬ (R.isAnyGatewayName input ∧ input ≠ localName)) :
    R.resolveWithWarning input = R.resolveBare input := by
  rw [resolveWithWarning, if_neg hself, hparse]
  exact if_neg hgateway

lemma resolveWithWarning_explicit {jumpName serverAlias : Str}
    (hparse : parseExplicitQualified input = some (jumpName, serverAlias)) :
    R.resolveWithWarning input =
      (fun routes => ⟨routes, none⟩) <$> R.resolveExplicit jumpName serverAlias := by
  have hself : input ≠ selfTarget := by
    rintro rfl
    cases hparse
  rw [resolveWithWarning, if_neg hself, hparse]
  rfl

lemma resolveSshConfigRoute_some {ip : Str}
    (h : R.resolveSshConfigRoute input ip = .ok (some r)) : r = ⟨localName, input⟩ := by
  obtain ⟨entries, -, h⟩ := bind_ok.1 h
  cases hhost : resolveSshHost entries ip with
  | none =>
    simp only [hhost] at h
    cases h
  | some entry =>
    simp only [hhost] at h
    split_ifs at h <;> cases h
    rfl

lemma mem_fallbackRoutes {entries : List FallbackEntry} {routes : List Route}
    (h : R.fallbackRoutes input entries = .ok routes) :
    r ∈ routes ↔
      .local ∈ entries ∧
          R.resolveSshConfigRoute input (deriveTargetIp input) = .ok (some r) ∨
        ∃ gc ∈ R.gateways, .gateway gc.name ∈ entries ∧ r = ⟨gc.name, input⟩ := by
  induction entries generalizing routes with
  | nil =>
    cases h
    simp
  | cons entry rest ih =>
    cases entry with
    | «local» =>
      obtain ⟨route, hroute, h⟩ := bind_ok.1 h
      obtain ⟨routes', hrest, h⟩ := bind_ok.1 h
      cases h
      rw [mem_append, ih hrest, hroute, Option.mem_toList]
      simp only [mem_cons, reduceCtorEq, false_or, Except.ok.injEq]
      tauto
    | gateway name =>
      rw [fallbackRoutes] at h
      cases hfind : R.gateways.find? (·.name = name) with
      | none => simp [hfind] at h
      | some gc =>
        simp only [hfind] at h
        obtain ⟨routes', hrest, h⟩ := bind_ok.1 h
        cases h
        have hgc := mem_of_find?_eq_some hfind
        have hname := find?_some hfind
        rw [decide_eq_true_iff] at hname
        subst hname
        rw [mem_cons, ih hrest]
        simp only [mem_cons, reduceCtorEq, false_or, FallbackEntry.gateway.injEq]
        constructor
        · rintro (rfl | hlocal | ⟨gc', hgc', hentry, rfl⟩)
          · exact .inr ⟨gc, hgc, .inl rfl, rfl⟩
          · exact .inl hlocal
          · exact .inr ⟨gc', hgc', .inr hentry, rfl⟩
        · rintro (hlocal | ⟨gc', hgc', heq | hentry, rfl⟩)
          · exact .inr (.inl hlocal)
          · exact .inl (by rw [heq])
          · exact .inr (.inr ⟨gc', hgc', hentry, rfl⟩)

lemma resolveFallback_ok {result : ResolveResult} (h : R.resolveFallback input = .ok result) :
    R.fallbackRoutes input R.config.ssh.fallback = .ok result.routes := by
  obtain ⟨routes, hroutes, h⟩ := bind_ok.1 h
  cases routes with
  | nil => cases h
  | cons route routes =>
    cases h
    exact hroutes

/-- Every candidate of `ssh.fallback` is asked for the input itself. -/
lemma endTarget_of_fallback (h : Chooses (R.resolveFallback input) r) : r.endTarget = input := by
  obtain ⟨result, hresult, hr⟩ := h
  rcases (mem_fallbackRoutes (resolveFallback_ok hresult)).1 (mem_of_head? hr) with
    ⟨-, hssh⟩ | ⟨gc, -, -, rfl⟩
  · rw [resolveSshConfigRoute_some hssh]
  · rfl

end Resolver

end CrossHostOps.Targets
