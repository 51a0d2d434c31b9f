import CrossHostOps.LocalRoutes

/-!
Reverse nodes and the targets of the daemon they register with: what a set of nodes, with names
and lists of their own choosing, changes about where a target leads.
-/

namespace CrossHostOps.ReverseNodes

open Text Config Inventory Targets ServerList Results MergedView LocalRoutes List Resolver

variable {R : Resolver} {target : Str} {r : Route} {more : List ServerListRow}
  {moreStatus : List (ServerListSource × ServerListSourceStatus)} {names : List Str}

/-- The resolver with further rows, statuses and dynamic gateways. -/
def extended (R : Resolver) (more : List ServerListRow)
    (moreStatus : List (ServerListSource × ServerListSourceStatus)) (names : List Str) : Resolver :=
  { R with
    mergedRows := R.mergedRows ++ more
    sourceStatus := R.sourceStatus ++ moreStatus
    dynamicGatewayNames := names }

/-- The further rows leave a bare name alone: all of them with the name lead to a gateway, and
they stand behind another row with it, or there is none, or the first leads where the name did. -/
structure LeavesBare (R : Resolver) (more : List ServerListRow) (target : Str) (r : Route) :
    Prop where
  routable : ∀ row ∈ more, row.server.alias = target → Routable row.source
  first : (∃ row ∈ R.mergedRows, row.server.alias = target) ∨
    (∀ row ∈ more, row.server.alias ≠ target) ∨ FirstListed more target r

lemma leavesBare_iff : LeavesBare R more target r ↔
    (∀ row ∈ more, row.server.alias = target → Routable row.source) ∧
      ((∃ row ∈ R.mergedRows, row.server.alias = target) ∨
        (∀ row ∈ more, row.server.alias ≠ target) ∨ FirstListed more target r) :=
  ⟨fun h => ⟨h.routable, h.first⟩, fun h => ⟨h.1, h.2⟩⟩

/-- The rows and statuses leave a qualified target alone: it is a local one, or listed if its
source now counts as listed. -/
def LeavesQualified (R : Resolver) (jumpName serverAlias : Str) : Prop :=
  jumpName = localName ∨
    (R.explicitSourceReportedOk jumpName serverAlias → R.listed (qualified jumpName serverAlias))

/-! ### Bare names -/

/-- How a bare name has its route: by the first row with it, or by `ssh.fallback` where no row has
it. -/
lemma bare_cases (hconfigured : R.mergedRows = [] → R.serverConfigRoutes target = [])
    (h : Chooses (R.resolveBare target) r) :
    (∃ row rows, R.mergedRows.filter (·.server.alias = target) = row :: rows ∧
        (∀ row' ∈ row :: rows, Routable row'.source) ∧ routeFromSource row.source target = .ok r) ∨
      R.mergedRows.filter (·.server.alias = target) = [] ∧
        Chooses (R.resolveFallback target) r := by
  by_cases hrows : R.mergedRows = []
  · rw [resolveBare, if_neg (not_not_intro hrows), hconfigured hrows] at h
    exact .inr ⟨by simp [hrows], h⟩
  · rw [chooses_resolveBare hrows] at h
    cases hfilter : R.mergedRows.filter (·.server.alias = target) with
    | nil =>
      rw [hfilter] at h
      exact .inr ⟨rfl, h⟩
    | cons row rows =>
      rw [hfilter] at h
      exact .inl ⟨row, rows, rfl, h⟩

lemma fallbackRoutes_extended (entries : List FallbackEntry) :
    (extended R more moreStatus names).fallbackRoutes target entries =
      R.fallbackRoutes target entries := by
  induction entries with
  | nil => rfl
  | cons entry entries ih =>
    cases entry with
    | «local» | gateway =>
      rw [fallbackRoutes, ih]
      rfl

lemma resolveFallback_extended : (extended R more moreStatus names).resolveFallback target =
    R.resolveFallback target := by
  rw [resolveFallback, fallbackRoutes_extended]
  rfl

lemma extended_nil_bare : (extended R [] moreStatus names).resolveBare target =
    R.resolveBare target := by
  have hrows : (extended R [] moreStatus names).mergedRows = R.mergedRows := append_nil _
  have hview : (extended R [] moreStatus names).resolveBareFromMergedView target =
      R.resolveBareFromMergedView target := by
    rw [resolveBareFromMergedView, resolveBareFromMergedView, hrows]
  rw [resolveBare, resolveFallback_extended, hrows, hview]
  rfl

lemma mem_of_filter_eq_cons {all rows : List ServerListRow} {row : ServerListRow}
    (h : all.filter (·.server.alias = target) = row :: rows) :
    row ∈ all ∧ row.server.alias = target := by
  have hrow : row ∈ all.filter (·.server.alias = target) := by simp [h]
  obtain ⟨hmem, hname⟩ := mem_filter.1 hrow
  exact ⟨hmem, of_decide_eq_true hname⟩

lemma chooses_extended_bare
    (hconfigured : more ≠ [] → R.mergedRows = [] → R.serverConfigRoutes target = [])
    (h : Chooses (R.resolveBare target) r) :
    Chooses ((extended R more moreStatus names).resolveBare target) r ↔
      LeavesBare R more target r := by
  by_cases hmore : more = []
  · subst hmore
    rw [extended_nil_bare]
    exact iff_of_true h ⟨by simp, .inr (.inl (by simp))⟩
  have hne : (extended R more moreStatus names).mergedRows ≠ [] :=
    append_ne_nil_of_right_ne_nil _ hmore
  rw [chooses_resolveBare hne, leavesBare_iff, routable_filter_iff,
    resolveFallback_extended, extended, filter_append]
  obtain ⟨row, rows, hfilter, hall, hroute⟩ | ⟨hfilter, hfallback⟩ :=
    bare_cases (hconfigured hmore) h
  · -- the first row is still the first
    have hlisted : ∃ row ∈ R.mergedRows, row.server.alias = target :=
      ⟨row, mem_of_filter_eq_cons hfilter⟩
    rw [hfilter, cons_append]
    constructor
    · rintro ⟨hall', -⟩
      exact ⟨fun row' hrow' => hall' row' (by simp [mem_filter.1 hrow']), .inl hlisted⟩
    · rintro ⟨hmoreRows, -⟩
      refine ⟨fun row' hrow' => ?_, hroute⟩
      rw [← cons_append, mem_append] at hrow'
      exact hrow'.elim (hall row') (hmoreRows row')
  · have hunlisted : ¬ ∃ row ∈ R.mergedRows, row.server.alias = target := by
      simpa using hfilter
    rw [hfilter, or_iff_right hunlisted]
    cases hmoreRows : more.filter (·.server.alias = target) with
    | nil =>
      have hnone : ∀ row ∈ more, row.server.alias ≠ target := by
        simpa using hmoreRows
      exact iff_of_true hfallback ⟨by simp, .inl hnone⟩
    | cons row rows =>
      have hsome : ¬ ∀ row ∈ more, row.server.alias ≠ target := by
        intro hnone
        obtain ⟨hmem, hname⟩ := mem_of_filter_eq_cons hmoreRows
        exact hnone row hmem hname
      rw [or_iff_right hsome]
      simp [FirstListed, hmoreRows]

/-! ### All targets -/

lemma chooses_extended_explicit {jumpName serverAlias : Str} (hstatic : R.dynamicGatewayNames = [])
    (hparse : parseExplicitQualified target = some (jumpName, serverAlias))
    (h : Chooses (R.resolveWithWarning target) r) :
    Chooses ((extended R more moreStatus names).resolveWithWarning target) r ↔
      LeavesQualified (extended R more moreStatus names) jumpName serverAlias := by
  rw [resolveWithWarning_explicit hparse] at h ⊢
  by_cases hjump : jumpName = localName
  · subst hjump
    exact iff_of_true h (.inl rfl)
  rw [LeavesQualified, or_iff_right hjump]
  have hsame : (extended R more moreStatus names).gateways = R.gateways := rfl
  rw [resolveExplicit, if_neg hjump] at h ⊢
  rw [hsame]
  cases hfind : R.gateways.find? (·.name = jumpName) with
  | none =>
    rw [hfind, hstatic] at h
    exact absurd h not_chooses_error
  | some gc =>
    simp only [hfind] at h ⊢
    have hroute : Chooses (.ok ⟨[⟨gc.name, serverAlias⟩], none⟩) r := by
      split_ifs at h
      · exact absurd h not_chooses_error
      · exact h
    split_ifs with hcheck
    · rw [Bool.and_eq_true, Bool.not_eq_true'] at hcheck
      exact iff_of_false not_chooses_error fun hleaves => by simp [hcheck] at hleaves
    · exact iff_of_true hroute (by simpa using hcheck)

/-- Neither a static gateway nor one of the nodes has the name, so that it is resolved. -/
lemma chooses_extended_iff (hstatic : R.dynamicGatewayNames = [])
    (hgateway : ¬ (R.gateways.any (·.name = target) ∧ target ≠ localName))
    (hnode : target ∉ names ∨ target = localName)
    (hconfigured : more ≠ [] → R.mergedRows = [] → R.serverConfigRoutes target = [])
    (h : Chooses (R.resolveWithWarning target) r) :
    Chooses ((extended R more moreStatus names).resolveWithWarning target) r ↔
      match parseExplicitQualified target with
      | some (jumpName, serverAlias) =>
        LeavesQualified (extended R more moreStatus names) jumpName serverAlias
      | none => LeavesBare R more target r := by
  have hbefore : ¬ (R.isAnyGatewayName target ∧ target ≠ localName) := by
    simpa [isAnyGatewayName, hstatic] using hgateway
  have hafter : ¬ ((extended R more moreStatus names).isAnyGatewayName target ∧
      target ≠ localName) := by
    rintro ⟨hany, hne⟩
    rw [isAnyGatewayName, Bool.or_eq_true] at hany
    rcases hany with hany | hany
    · exact hgateway ⟨hany, hne⟩
    · exact hnode.elim (fun hnode => hnode (by simpa [extended] using hany)) hne
  cases hparse : parseExplicitQualified target with
  | some parts => exact chooses_extended_explicit hstatic hparse h
  | none =>
    by_cases hself : target = selfTarget
    · subst hself
      have hnone : R.isAnyGatewayName selfTarget = false := by
        simpa [show selfTarget ≠ localName by decide] using hbefore
      rw [resolveWithWarning, hnone] at h
      exact absurd h not_chooses_error
    · rw [resolveWithWarning_bare hself hparse hbefore] at h
      rw [resolveWithWarning_bare hself hparse hafter]
      exact chooses_extended_bare hconfigured h

/-- A route taken from a row for a bare name is not to the host of the gateway itself. -/
lemma endTarget_ne_self {source : ServerListSource} {name : Str} (hname : name ≠ selfTarget)
    (h : routeFromSource source name = .ok r) : r.endTarget ≠ selfTarget := by
  cases source with
  | «local» =>
    cases h
    exact hname
  | gateway path =>
    rw [routeFromSource_gateway] at h
    split_ifs at h with hfirst hrest
    · cases h
      exact hname
    · cases h
      intro heq
      have hcolon : ':' ∈ selfTarget := by
        rw [← heq]
        simp [qualified]
      exact absurd hcolon (by decide)

lemma jumpName_ne_of_parse {jumpName serverAlias : Str}
    (h : parseExplicitQualified target = some (jumpName, serverAlias)) : jumpName ≠ target := by
  have hcolon : ':' ∈ target := by
    by_contra hno
    simp [parseExplicitQualified, splitOnce, hno] at h
  have hjump : firstSegment target = jumpName := by
    simp only [parseExplicitQualified, splitOnce, if_pos hcolon] at h
    split_ifs at h
    cases h
    rfl
  have hno : ':' ∉ firstSegment target := fun hmem => by
    simpa using mem_takeWhile_imp hmem
  rintro rfl
  exact hno (hjump.symm ▸ hcolon)

/-- A name that is no gateway's never leads to the host of a gateway of this name. -/
lemma route_ne_self (hsound : R.serverConfig.Sound) (hne : target ≠ localName)
    (hgateway : R.isAnyGatewayName target = false) (h : Chooses (R.resolveWithWarning target) r) :
    r ≠ ⟨target, selfTarget⟩ := by
  rintro rfl
  obtain ⟨⟨routes, warning⟩, hresolve, hr⟩ := h
  have hresolved := Resolved.of_resolve hsound (resolve_ok.2 ⟨warning, hresolve⟩)
  have hmem := mem_of_head? hr
  cases hresolved with
  | self hself hany =>
    rw [hself, hany] at hgateway
    cases hgateway
  | explicitLocal name hparse hname =>
    cases mem_singleton.1 hmem
    exact hne rfl
  | explicitGateway jumpName serverAlias hparse hjump =>
    cases mem_singleton.1 hmem
    exact jumpName_ne_of_parse hparse rfl
  | gateway hany =>
    rw [hany.1] at hgateway
    cases hgateway
  | listed hbare route hfirst =>
    obtain ⟨row, -, hroute⟩ := hfirst
    cases mem_singleton.1 hmem
    exact endTarget_ne_self hbare.1 hroute rfl
  | configured hbare hrows hroutes =>
    obtain ⟨name, -, heq⟩ := mem_serverConfigRoutes hsound hmem
    exact hne (congrArg Route.gatewayName heq)
  | fallback hbare hunlisted routes hroutes =>
    rcases (mem_fallbackRoutes hroutes).1 hmem with ⟨-, hssh⟩ | ⟨gc, -, -, heq⟩
    · exact hbare.1 (congrArg Route.endTarget (resolveSshConfigRoute_some hssh)).symm
    · exact hbare.1 (congrArg Route.endTarget heq).symm

/-! ### Registration -/

/-- The daemon before any node has registered. -/
def alone (d : Daemon) : Daemon := { d with nodes := [] }

def nodeRows (nodes : List Node) : List ServerListRow :=
  nodes.flatMap fun node => (nodeListing node).rows

def nodeStatus (nodes : List Node) : List (ServerListSource × ServerListSourceStatus) :=
  nodes.flatMap fun node => (nodeListing node).sourceStatus

/-- The target is the name of a gateway the daemon was configured with. -/
def NamesGateway (d : Daemon) (target : Str) : Prop :=
  target ∈ d.gateways.map Prod.fst ∧ target ≠ localName

/-- The resolver is given the target without the merged view. -/
def Plain (target : Str) : Prop := ':' ∈ target ∧ target.head? ≠ some '['
  deriving Decidable

/-- The nodes leave the target alone. A configured gateway's name stays; any other target must
not be the name of a node, and if the merged view is asked for it, the rows and statuses of the
nodes must leave it alone too. -/
def Undisturbed (d : Daemon) (target : Str) (r : Route) : Prop :=
  NamesGateway d target ∨
    (target ∉ d.dynamicNames ∨ target = localName) ∧
      (Plain target ∨
        match parseExplicitQualified target with
        | some (jumpName, serverAlias) => LeavesQualified d.mergedResolver jumpName serverAlias
        | none => LeavesBare (alone d).mergedResolver (nodeRows d.nodes) target r)

variable {d : Daemon}

lemma rows_listing (d : Daemon) (noRecurse : Bool) :
    (d.listing noRecurse).rows = ((alone d).listing noRecurse).rows ++ nodeRows d.nodes := by
  rw [Daemon.listing, Daemon.listing, (processListServers_eq _ _ _).1, (processListServers_eq _ _
    _).1, append_assoc]
  rfl

lemma sourceStatus_listing (d : Daemon) (noRecurse : Bool) :
    (d.listing noRecurse).sourceStatus =
      ((alone d).listing noRecurse).sourceStatus ++ nodeStatus d.nodes := by
  rw [Daemon.listing, Daemon.listing, (processListServers_eq _ _ _).2,
    (processListServers_eq _ _ _).2, append_assoc]
  rfl

lemma mergedResolver_eq (d : Daemon) :
    d.mergedResolver = extended (alone d).mergedResolver (nodeRows d.nodes) (nodeStatus d.nodes)
      d.dynamicNames := by
  rw [Daemon.mergedResolver, rows_listing, sourceStatus_listing]
  rfl

/-- What `DirectGateway` lists, without the error. -/
lemma listsLocal_direct (d : Daemon) (name : Str) :
    ListsLocal d.serverConfig
      (staticListing false ⟨name, .direct, d.listServers name .direct⟩).rows := by
  rw [Daemon.serverConfig, loadServerConfigOrDefault]
  cases hload : loadServerConfig d.process d.serverToml with
  | error e =>
    refine ⟨[], rfl, ?_⟩
    simp only [Daemon.listServers, directListServers, listServerEntries, hload]
    exact .refl _
  | ok c =>
    obtain ⟨entries, hentries, -⟩ := exists_listEntries (sound_of_load hload)
    refine ⟨entries, hentries, ?_⟩
    have hlist : listServerEntries d.process d.serverToml = .ok entries :=
      bind_ok.2 ⟨c, hload, hentries⟩
    simp only [Daemon.listServers, directListServers, hlist]
    exact .refl _

/-- The servers of `server.toml` come first in the merged list. -/
lemma exists_listsLocal (d : Daemon) :
    ∃ loc rest, ListsLocal d.serverConfig loc ∧ (d.listing false).rows = loc ++ rest := by
  have hlocal := listsLocal_direct d localName
  exact ⟨_, _, hlocal, rfl⟩

lemma serverConfigRoutes_of_empty (h : (d.listing false).rows = []) :
    d.mergedResolver.serverConfigRoutes target = [] := by
  have hsound : d.serverConfig.Sound := sound_loadServerConfigOrDefault d.process d.serverToml
  obtain ⟨loc, rest, hloc, hrows⟩ := exists_listsLocal d
  rw [h] at hrows
  obtain ⟨rfl, -⟩ := append_eq_nil_iff.1 hrows.symm
  rw [eq_nil_iff_forall_not_mem]
  intro route hroute
  obtain ⟨name, hname, -⟩ := mem_serverConfigRoutes (R := d.mergedResolver) hsound hroute
  obtain ⟨row, hrow, -⟩ := (mem_aliases_iff hsound hloc).1 hname
  cases hrow

lemma not_gateway_of_not_namesGateway (h : ¬ NamesGateway d target) :
    ¬ (d.config.gateways.any (·.name = target) ∧ target ≠ localName) := by
  rintro ⟨hany, hne⟩
  obtain ⟨gc, hgc, hname⟩ := any_eq_true.1 hany
  refine h ⟨?_, hne⟩
  rw [Daemon.gateways, Daemon.buildGateways]
  simp only [map_append, map_cons, map_map, mem_append, mem_cons]
  exact .inl (.inr (mem_map.2 ⟨gc, hgc, of_decide_eq_true hname⟩))

lemma resolveTargetWithMergedView_of_name
    (h : (target ∈ d.gateways.map Prod.fst ∨ target ∈ d.dynamicNames) ∧ target ≠ localName) :
    Chooses (d.resolveTargetWithMergedView target) r ↔ r = ⟨target, selfTarget⟩ := by
  rw [Daemon.resolveTargetWithMergedView, if_pos h, chooses_ok]
  simp [eq_comm]

lemma resolveTargetWithMergedView_of_other (hgateway : ¬ NamesGateway d target)
    (hnode : target ∉ d.dynamicNames ∨ target = localName) :
    d.resolveTargetWithMergedView target =
      if Plain target then d.plainResolver.resolveWithWarning target
      else d.mergedResolver.resolveWithWarning target := by
  rw [Daemon.resolveTargetWithMergedView, if_neg]
  · rfl
  · rintro ⟨hname | hname, hne⟩
    · exact hgateway ⟨hname, hne⟩
    · exact hnode.elim (fun h => h hname) hne

/-- Without the merged view nothing depends on the nodes but their names. -/
lemma chooses_plain (hgateway : ¬ NamesGateway d target)
    (hnode : target ∉ d.dynamicNames ∨ target = localName)
    (h : Chooses ((alone d).plainResolver.resolveWithWarning target) r) :
    Chooses (d.plainResolver.resolveWithWarning target) r := by
  refine (chooses_extended_iff rfl (not_gateway_of_not_namesGateway hgateway) hnode
    (fun hne => absurd rfl hne) h).2 ?_
  cases parseExplicitQualified target with
  | none => exact ⟨by simp, .inr (.inl (by simp))⟩
  | some parts =>
    refine .inr fun hreported => ?_
    have hstatus : ∀ path,
        (extended (alone d).plainResolver [] [] d.dynamicNames).gatewaySourceStatus path = none :=
      fun _ => rfl
    simp [explicitSourceReportedOk, hstatus] at hreported

/-- **Registration and other targets**: a target keeps its route when nodes register exactly if
they leave it alone. -/
theorem registration_keeps_route_iff
    (h : Chooses ((alone d).resolveTargetWithMergedView target) r) :
    Chooses (d.resolveTargetWithMergedView target) r ↔ Undisturbed d target r := by
  by_cases hgateway : NamesGateway d target
  · rw [resolveTargetWithMergedView_of_name (d := alone d) ⟨.inl hgateway.1, hgateway.2⟩] at h
    rw [resolveTargetWithMergedView_of_name ⟨.inl hgateway.1, hgateway.2⟩]
    exact iff_of_true h (.inl hgateway)
  rw [Undisturbed, or_iff_right hgateway]
  have hany := not_gateway_of_not_namesGateway hgateway
  have hnone : target ∉ (alone d).dynamicNames := not_mem_nil
  rw [resolveTargetWithMergedView_of_other (d := alone d) hgateway (.inl hnone)] at h
  by_cases hnode : target ∉ d.dynamicNames ∨ target = localName
  · rw [resolveTargetWithMergedView_of_other hgateway hnode, and_iff_right hnode]
    split_ifs at h ⊢ with hplain
    · exact iff_of_true (chooses_plain hgateway hnode h) (.inl hplain)
    · rw [or_iff_right hplain, mergedResolver_eq]
      exact chooses_extended_iff rfl hany hnode
        (fun _ hrows => serverConfigRoutes_of_empty (d := alone d) hrows) h
  · refine iff_of_false ?_ fun hundisturbed => hnode hundisturbed.1
    rw [not_or, not_not] at hnode
    rw [resolveTargetWithMergedView_of_name ⟨.inr hnode.1, hnode.2⟩]
    have hsound : d.serverConfig.Sound := sound_loadServerConfigOrDefault d.process d.serverToml
    have hname : (d.config.gateways.any (·.name = target) || ([] : List Str).contains target) =
        false := by
      simpa [hnode.2] using hany
    split_ifs at h
    · exact route_ne_self (R := (alone d).plainResolver) hsound hnode.2 hname h
    · exact route_ne_self (R := (alone d).mergedResolver) hsound hnode.2 hname h

/-! ### One server and some nodes -/

def listingNode (name : Str) (servers : List Str) : Node where
  name
  hostname := []
  user := []
  outcome := some <| .rows <| servers.map fun server => ⟨.gateway name, {
    «alias» := server, host := [], port := 22, user := [], auth := .key [] }⟩

/-- A daemon with one server, whose client configuration has the host `db`. -/
def daemonWith (nodes : List Node) : Daemon where
  process := bareHost
  config := .default bareHost
  serverToml := oneServer
  sshConfig := .content sshConfigText
  hostname := []
  user := []
  answers _ := .timedOut
  nodes

theorem registration_keeps_route_iff_listed :
    Chooses ((daemonWith [listingNode "node" ["web01"]]).resolveTargetWithMergedView
      "web01") webRoute := by
  refine (registration_keeps_route_iff ?_).2 (.inr ⟨.inl ?_, .inr ⟨?_, .inl ?_⟩⟩) <;>
    decide +kernel

/-- A node takes a server's name over, or with its list the route of a host of the client
configuration; and one row of a node with a name that leads nowhere makes a server's name fail. -/
theorem registration_redirects :
    (Chooses ((daemonWith []).resolveTargetWithMergedView "web01") webRoute ∧
      Chooses ((daemonWith [listingNode "web01" []]).resolveTargetWithMergedView
        "web01") ⟨"web01", selfTarget⟩) ∧
    (Chooses ((daemonWith []).resolveTargetWithMergedView "db") ⟨localName, "db"⟩ ∧
      Chooses ((daemonWith [listingNode "node" ["db"]]).resolveTargetWithMergedView
        "db") ⟨"node", "db"⟩) ∧
    ∀ r, ¬ Chooses ((daemonWith
      [listingNode ":x" ["web01"]]).resolveTargetWithMergedView "web01")
        r := by
  refine ⟨⟨?_, ?_⟩, ⟨?_, ?_⟩, ?_⟩
  · decide +kernel
  · decide +kernel
  · decide +kernel
  · decide +kernel
  · have herror : ((daemonWith [listingNode ":x"
        ["web01"]]).resolveTargetWithMergedView "web01").isOk = false := by
      decide +kernel
    rintro r ⟨result, hresult, -⟩
    rw [hresult] at herror
    cases herror

end CrossHostOps.ReverseNodes
