import CrossHostOps.LocalRoutes

/-!
The names of the merged list: when the full name of a row of `process_list_servers`, given to the
resolver that has the list, leads to the route of the row's source.
-/

namespace CrossHostOps.ListedNames

open Text Config Inventory Targets ServerList MergedView List

variable {R : Resolver} {d : Daemon} {row : ServerListRow} {source : ServerListSource}
  {path name gateway rest : Str} {route : Route}

/-- The full name of a row leads to its route, and to no other. -/
def ResolvesListed (d : Daemon) (row : ServerListRow) : Prop :=
  ∃ route, routeFromSource row.source row.server.alias = .ok route ∧
    d.mergedResolver.resolve (fullTargetName row.source row.server.alias) = .ok [route]

/-- What a name has in front of its first colon and behind it says where it leads: to a server of
`server.toml`, or to a gateway or a node. -/
structure Addressable (d : Daemon) (gateway rest : Str) : Prop where
  gateway_ne_nil : gateway ≠ []
  rest_ne_nil : rest ≠ []
  noAddress : rest.head? ≠ some ':'
  noPort : ∃ c ∈ rest, ¬ c.isDigit
  known : if gateway = localName then rest ∈ d.serverConfig.servers.aliases
    else gateway ∈ d.config.gateways.map GatewayConfig.name ∨ gateway ∈ d.dynamicNames

/-! ### The parts of a full name -/

lemma notMem_firstSegment (s : Str) : ':' ∉ firstSegment s := fun hmem => by
  simpa using mem_takeWhile_imp hmem

lemma qualified_segments (h : ':' ∈ path) :
    qualified (firstSegment path) (furtherSegments path) = path := by
  have hne : path.dropWhile (· ≠ ':') ≠ [] := by
    intro hnil
    have hall := dropWhile_eq_nil_iff.1 hnil ':' h
    simp at hall
  have hhead : (path.dropWhile (· ≠ ':')).head? = some ':' := by
    rw [head?_eq_some_head hne]
    simpa using head_dropWhile_not (· ≠ ':') hne
  calc qualified (firstSegment path) (furtherSegments path)
      = path.takeWhile (· ≠ ':') ++ path.dropWhile (· ≠ ':') :=
        congrArg (firstSegment path ++ ·) (cons_head?_tail hhead)
    _ = path := takeWhile_append_dropWhile

lemma segments_full :
    firstSegment (qualified path name) = firstSegment path ∧
      furtherSegments (qualified path name) =
        if ':' ∈ path then qualified (furtherSegments path) name else name := by
  split_ifs with hcolon
  · have hname : qualified path name =
        qualified (firstSegment path) (qualified (furtherSegments path) name) := by
      nth_rewrite 1 [← qualified_segments hcolon]
      simp [qualified]
    rw [hname]
    exact segments_qualified (notMem_firstSegment path) _
  · rw [(segments_of_notMem hcolon).1]
    exact segments_qualified hcolon name

lemma mem_full : ':' ∈ fullTargetName source name := by
  rw [fullTargetName_eq]
  simp [qualified]

/-- A name that reads as a qualified one is cut where the source is. -/
lemma routeFromSource_of_parse
    (hparse : parseExplicitQualified (fullTargetName source name) = some (gateway, rest)) :
    routeFromSource source name = .ok ⟨gateway, rest⟩ := by
  simp only [parseExplicitQualified, splitOnce, if_pos mem_full] at hparse
  split_ifs at hparse with hempty haddress
  cases hparse
  cases source with
  | «local» =>
    obtain ⟨hfirst, hfurther⟩ := @segments_qualified localName (by decide) name
    rw [fullTargetName, hfirst, hfurther, routeFromSource]
  | gateway path =>
    obtain ⟨hfirst, hfurther⟩ : firstSegment (fullTargetName (.gateway path) name) = _ ∧
        furtherSegments (fullTargetName (.gateway path) name) = _ := segments_full
    rw [hfirst] at hempty
    rw [hfurther] at haddress
    rw [hfirst, hfurther, routeFromSource_gateway, if_neg fun h => hempty (.inl h)]
    split_ifs at haddress ⊢ with hnil hcolon
    · -- a path that ends with a colon: what is behind it begins with one
      rw [hnil] at haddress
      exact absurd rfl haddress
    · rfl
    · rfl
    · rename_i hcolon
      exact absurd (segments_of_notMem hcolon).2 hnil

/-- The route of a source goes to a shorter name, by a gateway without a colon. -/
lemma shorter_of_routeFromSource (h : routeFromSource source name = .ok route) :
    ':' ∉ route.gatewayName ∧ route.endTarget.length < (fullTargetName source name).length := by
  cases source with
  | «local» =>
    cases h
    have hlocal : ':' ∉ localName := by decide
    refine ⟨hlocal, ?_⟩
    simp only [fullTargetName, qualified, length_append, length_cons]
    omega
  | gateway path =>
    rw [routeFromSource_gateway] at h
    split_ifs at h with hempty hnil
    · cases h
      refine ⟨notMem_firstSegment path, ?_⟩
      simp only [fullTargetName, qualified, length_append, length_cons]
      omega
    · cases h
      refine ⟨notMem_firstSegment path, ?_⟩
      have hcolon : ':' ∈ path := by
        by_contra hcolon
        exact hnil (segments_of_notMem hcolon).2
      have hpath := congrArg length (qualified_segments hcolon)
      simp only [qualified, length_append, length_cons, fullTargetName] at hpath ⊢
      omega

/-- No route for a bare name is to a shorter one, apart from the daemon behind a gateway. -/
lemma longer_of_bare (hrows : R.mergedRows ≠ []) (hself : name ≠ selfTarget)
    (hparse : parseExplicitQualified name = none) (h : R.resolve name = .ok [route]) :
    route.gatewayName = name ∨ name.length ≤ route.endTarget.length := by
  obtain ⟨warning, hresult⟩ := resolve_ok.1 h
  by_cases hgateway : R.isAnyGatewayName name ∧ name ≠ localName
  · rw [Resolver.resolveWithWarning, if_neg hself, hparse] at hresult
    simp only [if_pos hgateway] at hresult
    cases hresult
    exact .inl rfl
  · rw [Resolver.resolveWithWarning_bare hself hparse hgateway] at hresult
    have hchooses : Chooses (R.resolveBare name) route := ⟨_, hresult, rfl⟩
    rw [Resolver.chooses_resolveBare hrows] at hchooses
    refine .inr ?_
    cases hfilter : R.mergedRows.filter (·.server.alias = name) with
    | nil =>
      rw [hfilter] at hchooses
      rw [Resolver.endTarget_of_fallback hchooses]
    | cons row rows =>
      rw [hfilter] at hchooses
      have hroute := hchooses.2
      cases hsource : row.source with
      | «local» =>
        rw [hsource] at hroute
        cases hroute
        rfl
      | gateway path =>
        rw [hsource, routeFromSource_gateway] at hroute
        split_ifs at hroute <;> cases hroute
        · rfl
        · simp only [qualified, length_append, length_cons]
          omega

/-! ### Qualified names -/

/-- What becomes of the name of a listed row that reads as a qualified one. -/
lemma resolve_listed_iff (hsound : R.serverConfig.Sound) (hrow : row ∈ R.mergedRows)
    (hparse : parseExplicitQualified (fullTargetName row.source row.server.alias) =
      some (gateway, rest)) :
    R.resolve (fullTargetName row.source row.server.alias) = .ok [⟨gateway, rest⟩] ↔
      if gateway = localName then rest ∈ R.serverConfig.servers.aliases
      else gateway ∈ R.gateways.map GatewayConfig.name ∨ gateway ∈ R.dynamicGatewayNames := by
  have hlisted : R.listed (qualified gateway rest) = true := by
    refine any_eq_true.2 ⟨row, hrow, decide_eq_true ?_⟩
    simp only [parseExplicitQualified, splitOnce, if_pos mem_full] at hparse
    split_ifs at hparse
    cases hparse
    exact (qualified_segments mem_full).symm
  have hresolve : R.resolve (fullTargetName row.source row.server.alias) = .ok [⟨gateway, rest⟩] ↔
      R.resolveExplicit gateway rest = .ok [⟨gateway, rest⟩] := by
    rw [resolve_ok, Resolver.resolveWithWarning_explicit hparse]
    cases R.resolveExplicit gateway rest <;> simp [Functor.map, Except.map]
  rw [hresolve, Resolver.resolveExplicit, Resolver.lookupLocalServer_eq hsound]
  by_cases hlocal : gateway = localName
  · rw [if_pos hlocal, if_pos hlocal]
    by_cases hname : rest ∈ R.serverConfig.servers.aliases <;> simp [hlocal, hname]
  · rw [if_neg hlocal, if_neg hlocal]
    cases hfind : R.gateways.find? (·.name = gateway) with
    | some gc =>
      have hname := find?_some hfind
      rw [decide_eq_true_iff] at hname
      have hmem : gateway ∈ R.gateways.map GatewayConfig.name :=
        mem_map.2 ⟨gc, mem_of_find?_eq_some hfind, hname⟩
      simp [hlisted, hname, hmem]
    | none =>
      have hmem : gateway ∉ R.gateways.map GatewayConfig.name := by
        intro hmem
        obtain ⟨gc, hgc, heq⟩ := mem_map.1 hmem
        exact find?_eq_none.1 hfind gc hgc (decide_eq_true heq)
      by_cases hnode : gateway ∈ R.dynamicGatewayNames <;> simp [hmem, hnode]

lemma parseExplicitQualified_iff (hcolon : ':' ∈ name) :
    parseExplicitQualified name = some (gateway, rest) ↔
      (firstSegment name = gateway ∧ furtherSegments name = rest) ∧
        gateway ≠ [] ∧ rest ≠ [] ∧ rest.head? ≠ some ':' ∧ ∃ c ∈ rest, ¬ c.isDigit := by
  simp only [parseExplicitQualified, splitOnce, if_pos hcolon]
  split_ifs with hempty haddress hport
  · simp only [false_iff]
    rintro ⟨⟨rfl, rfl⟩, hgateway, hrest, -⟩
    exact hempty.elim hgateway hrest
  · simp only [false_iff]
    rintro ⟨⟨rfl, rfl⟩, -, -, hhead, -⟩
    exact hhead haddress
  · simp only [false_iff]
    rintro ⟨⟨rfl, rfl⟩, -, -, -, c, hc, hdigit⟩
    exact hdigit (all_eq_true.1 hport c hc)
  · simp only [Option.some.injEq, Prod.mk.injEq]
    refine ⟨?_, fun h => h.1⟩
    rintro ⟨rfl, rfl⟩
    rw [not_or] at hempty
    exact ⟨⟨rfl, rfl⟩, hempty.1, hempty.2, haddress, by simpa using hport⟩

/-- **Listed names**: the full name of a row leads to the route of its source if, and only if,
what it has around its first colon is addressable. -/
theorem listed_name_resolves_iff (hrow : row ∈ (d.listing false).rows) :
    ResolvesListed d row ↔
      Addressable d (firstSegment (fullTargetName row.source row.server.alias))
        (furtherSegments (fullTargetName row.source row.server.alias)) := by
  have hsound : d.mergedResolver.serverConfig.Sound :=
    sound_loadServerConfigOrDefault d.process d.serverToml
  have hcolon : ':' ∈ fullTargetName row.source row.server.alias := mem_full
  have hself : fullTargetName row.source row.server.alias ≠ selfTarget := by
    intro heq
    rw [heq] at hcolon
    exact absurd hcolon (by decide)
  cases hparse : parseExplicitQualified (fullTargetName row.source row.server.alias) with
  | some parts =>
    obtain ⟨gateway, rest⟩ := parts
    obtain ⟨⟨hfirst, hfurther⟩, hgateway, hrest, haddress, hport⟩ :=
      (parseExplicitQualified_iff hcolon).1 hparse
    have hresolve := resolve_listed_iff hsound hrow hparse
    rw [ResolvesListed, routeFromSource_of_parse hparse, hfirst, hfurther]
    constructor
    · rintro ⟨route, hroute, hok⟩
      cases hroute
      exact ⟨hgateway, hrest, haddress, hport, hresolve.1 hok⟩
    · exact fun h => ⟨_, rfl, hresolve.2 h.known⟩
  | none =>
    refine iff_of_false ?_ fun h => ?_
    · rintro ⟨route, hroute, hok⟩
      obtain ⟨hgateway, hlt⟩ := shorter_of_routeFromSource hroute
      rcases longer_of_bare (ne_nil_of_mem hrow) hself hparse hok with heq | hle
      · rw [heq] at hgateway
        exact hgateway hcolon
      · exact absurd hle (not_le.2 hlt)
    · have hsome := (parseExplicitQualified_iff hcolon).2
        ⟨⟨rfl, rfl⟩, h.gateway_ne_nil, h.rest_ne_nil, h.noAddress, h.noPort⟩
      rw [hparse] at hsome
      cases hsome

/-! ### Gateways and a node -/

/-- The daemon `hub` has the gateways `gw` and `a:b`, which list two servers each, and the node
`node`. -/
def hub : Daemon where
  process := bareHost
  config := { AppConfig.default bareHost with
    gateways := [.xhod { name := "gw", address := "h" },
      .xhod { name := "a:b", address := "h" }] }
  serverToml := oneServer
  sshConfig := .missing
  hostname := []
  user := []
  answers _ := .response ⟨[], some [
    ⟨some ⟨"app", [], 22, [], "key"⟩, "edge"⟩,
    ⟨some ⟨"8080", [], 22, [], "key"⟩, localName⟩]⟩
  nodes := [⟨"node", [], [], none⟩]

def appRow (gateway : String) : ServerListRow :=
  ⟨.gateway (qualified gateway.toList "edge"), ⟨"app", [], 22, [], .key []⟩⟩

/-- The name of this server reads as a port. -/
def portRow : ServerListRow :=
  ⟨.gateway "gw", ⟨"8080", [], 22, [], .key []⟩⟩

def nodeRowOfHub : ServerListRow :=
  ⟨.local, ⟨"node", "node", 0, [], .reverseProxy⟩⟩

theorem listed_name_resolves_iff_hub :
    ResolvesListed hub (appRow "gw") := by
  have hrow : appRow "gw" ∈ (hub.listing false).rows := by decide +kernel
  exact (listed_name_resolves_iff hrow).2
    ⟨by decide +kernel, by decide +kernel, by decide +kernel,
      ⟨'e', by decide +kernel, by decide⟩, by decide +kernel⟩

/-- A server behind a gateway with a colon in its name, one whose name reads as a port, and the row
made up for a node are not found under their full names. -/
theorem listed_name_not_resolved :
    validateGateways hub.config.gateways = .ok () ∧
      ∀ row ∈ [appRow "a:b", portRow, nodeRowOfHub], row ∈ (hub.listing false).rows ∧
        (hub.mergedResolver.resolve (fullTargetName row.source row.server.alias)).isOk = false := by
  constructor <;> decide +kernel

end CrossHostOps.ListedNames
