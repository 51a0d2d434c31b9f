import CrossHostOps.ServerList

/-!
The merged view against the local `server.toml`: which targets that `Resolver::new` finds there
still have their route when the resolver is given the merged list of servers.
-/

namespace CrossHostOps.MergedView

open Text Config Inventory Targets Results List Resolver

variable {p : Process} {config : AppConfig} {ssh : FileContent Str} {c : ServerConfigFile}
  {gateways : List GatewayConfig} {input : Str} {r : Route}
  {loc rest : List ServerListRow} {status : List (ServerListSource × ServerListSourceStatus)}

def Qualified (input : Str) : Prop := ∃ name, parseExplicitQualified input = some (localName, name)

/-- The resolver answers from the local server configuration: for a target qualified with
`local`, or for a bare name that is no gateway's. -/
def FromServerConfig (R : Resolver) (input : Str) (r : Route) : Prop :=
  R.resolve input = .ok [r] ∧
    (Qualified input ∨
      input ≠ selfTarget ∧ parseExplicitQualified input = none ∧
        ¬ (R.isAnyGatewayName input ∧ input ≠ localName) ∧ R.serverConfigRoutes input ≠ [])

/-- Rows that list every server of the local configuration, in any order. -/
def ListsLocal (c : ServerConfigFile) (loc : List ServerListRow) : Prop :=
  ∃ entries, listEntries c = .ok entries ∧ loc.Perm (entries.map fun server => ⟨.local, server⟩)

/-- The first row with the input as its alias has this route. -/
def FirstListed (rows : List ServerListRow) (input : Str) (r : Route) : Prop :=
  ∃ row, (rows.filter (·.server.alias = input)).head? = some row ∧
    routeFromSource row.source input = .ok r

variable {R : Resolver}

lemma resolve_ok {routes : List Route} :
    R.resolve input = .ok routes ↔
      ∃ warning, R.resolveWithWarning input = .ok ⟨routes, warning⟩ := by
  rw [resolve, bind_ok]
  constructor
  · rintro ⟨⟨routes', warning⟩, hresult, h⟩
    cases h
    exact ⟨warning, hresult⟩
  · rintro ⟨warning, hresult⟩
    exact ⟨_, hresult, rfl⟩

lemma source_of_listsLocal {row : ServerListRow} (hloc : ListsLocal c loc) (hrow : row ∈ loc) :
    row.source = .local := by
  obtain ⟨entries, -, hperm⟩ := hloc
  obtain ⟨server, -, rfl⟩ := mem_map.1 (hperm.mem_iff.1 hrow)
  rfl

lemma mem_aliases_iff (hsound : c.Sound) (hloc : ListsLocal c loc) :
    input ∈ c.servers.aliases ↔ ∃ row ∈ loc, row.server.alias = input := by
  obtain ⟨entries, hentries, hperm⟩ := hloc
  obtain ⟨entries', hentries', hnames⟩ := exists_listEntries hsound
  cases hentries.symm.trans hentries'
  rw [← hnames.mem_iff]
  simp [hperm.mem_iff]

/-- A row of the local configuration comes first. -/
lemma filter_of_mem_aliases (hsound : c.Sound) (hloc : ListsLocal c loc)
    (hinput : input ∈ c.servers.aliases) :
    ∃ row rows, loc.filter (·.server.alias = input) = row :: rows ∧ row.source = .local := by
  obtain ⟨row, hrow, hname⟩ := (mem_aliases_iff hsound hloc).1 hinput
  have hmem : row ∈ loc.filter (·.server.alias = input) :=
    mem_filter.2 ⟨hrow, decide_eq_true hname⟩
  cases hfilter : loc.filter (·.server.alias = input) with
  | nil => simp [hfilter] at hmem
  | cons first rows =>
    refine ⟨first, rows, rfl, source_of_listsLocal hloc ?_⟩
    exact mem_of_mem_filter (hfilter ▸ mem_cons_self)

lemma filter_of_notMem_aliases (hsound : c.Sound) (hloc : ListsLocal c loc)
    (hinput : input ∉ c.servers.aliases) : loc.filter (·.server.alias = input) = [] := by
  rw [filter_eq_nil_iff]
  intro row hrow hname
  exact hinput ((mem_aliases_iff hsound hloc).2 ⟨row, hrow, of_decide_eq_true hname⟩)

lemma resolveBare_of_empty (hrows : R.mergedRows = []) (hroutes : R.serverConfigRoutes input ≠ []) :
    R.resolveBare input = .ok ⟨R.serverConfigRoutes input, none⟩ := by
  rw [resolveBare, if_neg (not_not_intro hrows)]
  cases h : R.serverConfigRoutes input with
  | nil => exact absurd h hroutes
  | cons route routes => rfl

lemma routable_filter_iff {rows : List ServerListRow} :
    (∀ row ∈ rows, row.server.alias = input → Routable row.source) ↔
      ∀ row ∈ rows.filter (·.server.alias = input), Routable row.source := by
  simp

/-- A bare name: the local rows decide if it is one of them, the first other row otherwise. -/
lemma merged_bare_iff (hsound : c.Sound) (hloc : ListsLocal c loc) (hconfig : R.serverConfig = c)
    (hrows : R.mergedRows = loc ++ rest) (hr : R.serverConfigRoutes input = [r]) :
    Chooses (R.resolveBare input) r ↔
      (∀ row ∈ rest, row.server.alias = input → Routable row.source) ∧
        (input ∈ c.servers.aliases ∨ FirstListed rest input r) := by
  subst hconfig
  have hmem : r ∈ R.serverConfigRoutes input := by simp [hr]
  obtain ⟨name, hname, rfl⟩ := mem_serverConfigRoutes hsound hmem
  have hne : R.mergedRows ≠ [] := by
    obtain ⟨row, hrow, -⟩ := (mem_aliases_iff hsound hloc).1 hname
    rw [hrows]
    exact append_ne_nil_of_left_ne_nil (ne_nil_of_mem hrow) _
  rw [chooses_resolveBare hne, hrows, filter_append]
  by_cases hinput : input ∈ R.serverConfig.servers.aliases
  · obtain ⟨row, rows, hfilter, hsource⟩ := filter_of_mem_aliases hsound hloc hinput
    rw [serverConfigRoutes_of_mem hsound hinput] at hr
    cases hr
    rw [hfilter, cons_append]
    constructor
    · rintro ⟨hall, -⟩
      refine ⟨fun row' hrow' hname' => hall row' ?_, .inl hinput⟩
      simp [hrow', hname']
    · rintro ⟨hrest, -⟩
      refine ⟨?_, by rw [hsource]; rfl⟩
      rw [← cons_append, ← hfilter, ← filter_append]
      intro row' hrow'
      obtain ⟨hrow', hname'⟩ := mem_filter.1 hrow'
      rcases mem_append.1 hrow' with hrow' | hrow'
      · rw [source_of_listsLocal hloc hrow']
        decide
      · exact hrest row' hrow' (of_decide_eq_true hname')
  · rw [filter_of_notMem_aliases hsound hloc hinput]
    have hother : name ≠ input := fun heq => hinput (heq ▸ hname)
    rw [routable_filter_iff, FirstListed, or_iff_right hinput]
    cases rest.filter (·.server.alias = input) with
    | nil =>
      -- what `ssh.fallback` gives is asked for the input, and not for the alias
      simp only [head?_nil, reduceCtorEq, false_and, exists_false, and_false, iff_false]
      exact fun h => hother (endTarget_of_fallback h)
    | cons row rows => simp

theorem merged_keeps_local_iff {file : FileContent ServerConfigFile}
    (hlocal : FromServerConfig
      (.new p config ssh (loadServerConfigOrDefault p file) gateways) input r)
    (hloc : ListsLocal (loadServerConfigOrDefault p file) loc) :
    Chooses ((Resolver.withMergedView p config ssh (loadServerConfigOrDefault p file) gateways
        (loc ++ rest) status).resolveWithWarning input) r ↔
      Qualified input ∨
        (∀ row ∈ rest, row.server.alias = input → Routable row.source) ∧
          (input ∈ (loadServerConfigOrDefault p file).servers.aliases ∨
            FirstListed rest input r) := by
  have hsound := sound_loadServerConfigOrDefault p file
  obtain ⟨hresolve, ⟨name, hparse⟩ | ⟨hself, hparse, hgateway, hroutes⟩⟩ := hlocal
  · obtain ⟨warning, hresolve⟩ := resolve_ok.1 hresolve
    rw [resolveWithWarning_explicit hparse] at hresolve ⊢
    exact ⟨fun _ => .inl ⟨name, hparse⟩, fun _ => ⟨_, hresolve, rfl⟩⟩
  · obtain ⟨warning, hresolve⟩ := resolve_ok.1 hresolve
    rw [resolveWithWarning_bare hself hparse hgateway, resolveBare_of_empty rfl hroutes]
      at hresolve
    have hr := congrArg ResolveResult.routes (Except.ok.inj hresolve)
    have hbare : ¬ Qualified input := by
      rintro ⟨name, hname⟩
      rw [hname] at hparse
      cases hparse
    have hmerged := resolveWithWarning_bare
      (R := .withMergedView p config ssh (loadServerConfigOrDefault p file) gateways (loc ++ rest)
        status) hself hparse hgateway
    rw [hmerged, or_iff_right hbare]
    exact merged_bare_iff hsound hloc rfl rfl hr

/-! ### One server -/

def oneServer : FileContent ServerConfigFile :=
  .content { servers := ⟨[("web01", {
    host := "10.0.0.1", user := "root", identityFile := some "/key" })],
    by decide⟩ }

def webRow (source : ServerListSource) : ServerListRow :=
  ⟨source, {
    «alias» := "web01", host := "10.0.0.1", port := 22, user := "root"
    auth := .key "/key" }⟩

def webRoute : Route := ⟨localName, "web01"⟩

/-- The resolver of a daemon with one server and these merged rows. -/
def oneServerResolver (rows : List ServerListRow) : Resolver :=
  .withMergedView bareHost (.default bareHost) .missing
    (loadServerConfigOrDefault bareHost oneServer) [] rows []

lemma listsLocal_oneServer :
    ListsLocal (loadServerConfigOrDefault bareHost oneServer) [webRow .local] :=
  ⟨_, rfl, .refl _⟩

theorem merged_keeps_local_iff_shadowed :
    FromServerConfig (oneServerResolver []) "web01" webRoute ∧
      Chooses ((oneServerResolver [webRow .local, webRow (.gateway "gw")]).resolveWithWarning
        "web01") webRoute := by
  have hlocal : FromServerConfig (oneServerResolver []) "web01" webRoute :=
    ⟨by decide +kernel, .inr ⟨by decide, by decide, by decide +kernel, by decide +kernel⟩⟩
  refine ⟨hlocal, (merged_keeps_local_iff hlocal listsLocal_oneServer).2 (.inr ⟨?_, .inl ?_⟩)⟩
  · decide +kernel
  · decide +kernel

/-- The host of a server is found without the merged view only; and one row that leads nowhere
makes the name of a local server fail. -/
theorem merged_loses_local :
    (FromServerConfig (oneServerResolver []) "10.0.0.1" webRoute ∧
      ¬ Chooses ((oneServerResolver [webRow .local]).resolveWithWarning "10.0.0.1")
        webRoute) ∧
    FromServerConfig (oneServerResolver []) "web01" webRoute ∧
      ¬ Chooses ((oneServerResolver
        [webRow .local, webRow (.gateway ":x")]).resolveWithWarning "web01")
          webRoute := by
  refine ⟨⟨⟨?_, .inr ⟨?_, ?_, ?_, ?_⟩⟩, ?_⟩, ⟨?_, .inr ⟨?_, ?_, ?_, ?_⟩⟩, ?_⟩ <;> decide +kernel

end CrossHostOps.MergedView
