import CrossHostOps.MergedView

/-!
Routes through the gateway `local`: which of them `DirectGateway` can open, that is, for which
its `resolve_target` finds an entry in the `server.toml` that the resolver has read.
-/

namespace CrossHostOps.LocalRoutes

open Text Config Inventory Targets ServerList Results MergedView Resolver

variable {p : Process} {file : FileContent ServerConfigFile} {R : Resolver} {input : Str}
  {r : Route} {routes : List Route}

/-- `resolve_target` finds an entry for the target. -/
def FindsEntry (p : Process) (file : FileContent ServerConfigFile) (target : Str) : Prop :=
  ∃ c server, loadServerConfig p file = .ok c ∧ c.servers.get target = some server

lemma findsEntry_iff {target : Str} :
    FindsEntry p file target ↔ target ∈ (loadServerConfigOrDefault p file).servers.aliases := by
  rw [← Servers.isSome_get, Option.isSome_iff_exists, loadServerConfigOrDefault, FindsEntry]
  cases loadServerConfig p file with
  | ok c => simp
  | error e => simp [Servers.get, Servers.empty]

/-- `resolve_target` has an answer for the target, once the password that the entry may have is
resolved. -/
lemma findsEntry_iff_resolveTarget {target : Str} : FindsEntry p file target ↔
    ∃ secretResolver resolved, resolveTarget p file secretResolver target = .ok resolved := by
  constructor
  · rintro ⟨c, server, hload, hget⟩
    obtain ⟨entry, hentry⟩ := sound_of_load hload _ (Servers.mem_of_get hget)
    -- a resolver that answers always is as good as none
    have hanswers : resolveServerEntry target server c.defaults (some fun _ => .ok []) =
        .ok entry := by
      rw [← hentry, resolveServerEntry, resolveServerEntry, resolveAuth, resolveAuth]
      cases server.password <;> rfl
    refine ⟨fun _ _ => .ok [], ⟨entry.host, entry.port, entry.user, entry.auth, server.shell,
      c.defaults.shell⟩, bind_ok.2 ⟨c, by rw [hload]; rfl, ?_⟩⟩
    simp only [hget]
    exact bind_ok.2 ⟨entry, by rw [hanswers]; rfl, rfl⟩
  · rintro ⟨secretResolver, resolved, h⟩
    obtain ⟨c, hload, h⟩ := bind_ok.1 h
    cases hfile : loadServerConfig p file with
    | error e =>
      rw [hfile] at hload
      cases hload
    | ok c' =>
      rw [hfile] at hload
      cases hload
      cases hget : c.servers.get target with
      | none =>
        simp only [hget] at h
        cases h
      | some server => exact ⟨c, server, hfile, hget⟩

/-- The input is a name that stands for itself: not qualified, and no gateway's. -/
def Bare (R : Resolver) (input : Str) : Prop :=
  input ≠ selfTarget ∧ parseExplicitQualified input = none ∧
    ¬ (R.isAnyGatewayName input ∧ input ≠ localName)

/-- Neither the merged view nor, without one, the server configuration knows the name. -/
def Unlisted (R : Resolver) (input : Str) : Prop :=
  if R.mergedRows ≠ [] then R.mergedRows.filter (·.server.alias = input) = []
  else R.serverConfigRoutes input = []

/-- `ssh.fallback` has `local`, and the SSH client configuration a host with user and identity
file for the name. -/
def HasSshRoute (R : Resolver) (input : Str) : Prop :=
  .local ∈ R.config.ssh.fallback ∧
    R.resolveSshConfigRoute input (deriveTargetIp input) = .ok (some ⟨localName, input⟩)

/-- A bare name for which a route through `local` is made has an entry: where it comes from the
SSH client configuration, under the name; where it comes from the merged view, under the target
that the first row with the name leads to. -/
structure Backed (R : Resolver) (file : FileContent ServerConfigFile) (input : Str) : Prop where
  ssh : Bare R input → Unlisted R input → HasSshRoute R input →
    FindsEntry R.process file input
  listed : Bare R input → ∀ r, FirstListed R.mergedRows input r → r.gatewayName = localName →
    FindsEntry R.process file r.endTarget

/-- The ways in which `resolve` comes to its routes. -/
inductive Resolved (R : Resolver) (input : Str) : List Route → Prop
  | self (hself : input = selfTarget) (hgateway : R.isAnyGatewayName selfTarget) :
      Resolved R input [⟨selfTarget, selfTarget⟩]
  | explicitLocal (name : Str) (hparse : parseExplicitQualified input = some (localName, name))
      (hname : name ∈ R.serverConfig.servers.aliases) : Resolved R input [⟨localName, name⟩]
  | explicitGateway (jumpName serverAlias : Str)
      (hparse : parseExplicitQualified input = some (jumpName, serverAlias))
      (hjump : jumpName ≠ localName) : Resolved R input [⟨jumpName, serverAlias⟩]
  | gateway (hgateway : R.isAnyGatewayName input ∧ input ≠ localName) :
      Resolved R input [⟨input, selfTarget⟩]
  | listed (hbare : Bare R input) (route : Route) (hfirst : FirstListed R.mergedRows input route) :
      Resolved R input [route]
  | configured (hbare : Bare R input) (hrows : R.mergedRows = [])
      (hroutes : R.serverConfigRoutes input ≠ []) : Resolved R input (R.serverConfigRoutes input)
  | fallback (hbare : Bare R input) (hunlisted : Unlisted R input) (routes : List Route)
      (hroutes : R.fallbackRoutes input R.config.ssh.fallback = .ok routes) :
      Resolved R input routes

lemma Resolved.of_explicit {jumpName serverAlias : Str} (hsound : R.serverConfig.Sound)
    (hparse : parseExplicitQualified input = some (jumpName, serverAlias))
    (h : R.resolveExplicit jumpName serverAlias = .ok routes) : Resolved R input routes := by
  rw [resolveExplicit] at h
  by_cases hjump : jumpName = localName
  · subst hjump
    rw [lookupLocalServer_eq hsound] at h
    by_cases hname : serverAlias ∈ R.serverConfig.servers.aliases
    · rw [if_pos hname] at h
      cases h
      exact .explicitLocal serverAlias hparse hname
    · rw [if_neg hname] at h
      cases h
  · cases hfind : R.gateways.find? (·.name = jumpName) with
    | none =>
      simp only [hfind] at h
      split_ifs at h
      cases h
      exact .explicitGateway jumpName serverAlias hparse hjump
    | some gc =>
      simp only [hfind] at h
      split_ifs at h
      cases h
      have hname := List.find?_some hfind
      rw [decide_eq_true_iff] at hname
      rw [hname]
      exact .explicitGateway jumpName serverAlias hparse hjump

lemma Resolved.of_bare {result : ResolveResult} (hbare : Bare R input)
    (h : R.resolveBare input = .ok result) : Resolved R input result.routes := by
  by_cases hrows : R.mergedRows = []
  · by_cases hroutes : R.serverConfigRoutes input = []
    · refine .fallback hbare ?_ _ (resolveFallback_ok ?_)
      · rwa [Unlisted, if_neg (not_not_intro hrows)]
      · rwa [resolveBare, if_neg (not_not_intro hrows), hroutes] at h
    · rw [resolveBare_of_empty hrows hroutes] at h
      cases h
      exact .configured hbare hrows hroutes
  · cases hfilter : R.mergedRows.filter (·.server.alias = input) with
    | nil =>
      refine .fallback hbare ?_ _ (resolveFallback_ok ?_)
      · rwa [Unlisted, if_pos hrows]
      · simp only [resolveBare, if_pos hrows, resolveBareFromMergedView, hfilter] at h
        exact h
    | cons row rows =>
      by_cases hall : ∀ row' ∈ row :: rows, Routable row'.source
      · obtain ⟨route, hroute⟩ : ∃ route, routeFromSource row.source input = .ok route :=
          exists_routeFromSource.2 (hall row List.mem_cons_self)
        obtain ⟨warning, hwarning⟩ :=
          resolveBareFromMergedView_of_listed hfilter hall hroute
        rw [resolveBare, if_pos hrows, hwarning] at h
        cases h
        exact .listed hbare route ⟨row, by rw [hfilter]; rfl, hroute⟩
      · push Not at hall
        obtain ⟨e, he⟩ := resolveBareFromMergedView_of_unroutable hfilter hall
        rw [resolveBare, if_pos hrows, he] at h
        cases h

lemma Resolved.of_resolve (hsound : R.serverConfig.Sound) (h : R.resolve input = .ok routes) :
    Resolved R input routes := by
  obtain ⟨warning, h⟩ := resolve_ok.1 h
  by_cases hself : input = selfTarget
  · rw [resolveWithWarning] at h
    split_ifs at h with hgateway
    cases h
    exact .self hself hgateway
  cases hparse : parseExplicitQualified input with
  | some parts =>
    rw [resolveWithWarning_explicit hparse] at h
    obtain ⟨routes', hroutes, h⟩ := map_ok.1 h
    cases h
    exact .of_explicit hsound hparse hroutes
  | none =>
    by_cases hgateway : R.isAnyGatewayName input ∧ input ≠ localName
    · simp only [resolveWithWarning, if_neg hself, hparse, if_pos hgateway] at h
      cases h
      exact .gateway hgateway
    · rw [resolveWithWarning_bare hself hparse hgateway] at h
      exact .of_bare ⟨hself, hparse, hgateway⟩ h

lemma firstListed_unique {rows : List ServerListRow} {r r' : Route}
    (h : FirstListed rows input r) (h' : FirstListed rows input r') : r = r' := by
  obtain ⟨row, hrow, hr⟩ := h
  obtain ⟨row', hrow', hr'⟩ := h'
  cases hrow.symm.trans hrow'
  exact Except.ok.inj (hr.symm.trans hr')

lemma not_unlisted {rows : List ServerListRow} (hrows : R.mergedRows = rows)
    (h : FirstListed rows input r) : ¬ Unlisted R input := by
  obtain ⟨row, hrow, -⟩ := h
  have hmem := List.mem_of_head? hrow
  have hne : R.mergedRows ≠ [] := by
    rw [hrows]
    exact List.ne_nil_of_mem (List.mem_of_mem_filter hmem)
  rw [Unlisted, if_pos hne, hrows]
  exact List.ne_nil_of_mem hmem

lemma backed_of_not_bare (h : ¬ Bare R input) : Backed R file input :=
  ⟨fun hbare => absurd hbare h, fun hbare => absurd hbare h⟩

lemma name_ne_local (hgateways : validateGateways R.gateways = .ok ()) {gc : GatewayConfig}
    (hgc : gc ∈ R.gateways) : gc.name ≠ localName := by
  have hvalid := (validateGateways_ok.1 hgateways).1 gc hgc
  exact fun h => hvalid.notReserved (List.mem_singleton.2 h)

/-- **Local routes**: a route through `local` can be opened exactly where it does not come from
the SSH client configuration, nor from a row of the merged view for a server that `server.toml`
does not have. -/
theorem local_routes_open_iff (hconfig : R.serverConfig = loadServerConfigOrDefault R.process file)
    (hgateways : validateGateways R.gateways = .ok ()) (hresolve : R.resolve input = .ok routes) :
    (∀ r ∈ routes, r.gatewayName = localName → FindsEntry R.process file r.endTarget) ↔
      Backed R file input := by
  have hsound : R.serverConfig.Sound := by
    rw [hconfig]
    exact sound_loadServerConfigOrDefault R.process file
  have hfinds : ∀ name ∈ R.serverConfig.servers.aliases, FindsEntry R.process file name := by
    rw [hconfig]
    exact fun name hname => findsEntry_iff.2 hname
  cases Resolved.of_resolve hsound hresolve with
  | self hself hgateway =>
    have hbare : ¬ Bare R input := fun h => h.1 hself
    have hne : selfTarget ≠ localName := by decide
    simp [backed_of_not_bare hbare, hne]
  | explicitLocal name hparse hname =>
    have hbare : ¬ Bare R input := fun h => by simp [h.2.1] at hparse
    simp [backed_of_not_bare hbare, hfinds name hname]
  | explicitGateway jumpName serverAlias hparse hjump =>
    have hbare : ¬ Bare R input := fun h => by simp [h.2.1] at hparse
    simp [backed_of_not_bare hbare, hjump]
  | gateway hgateway =>
    have hbare : ¬ Bare R input := fun h => h.2.2 hgateway
    simp [backed_of_not_bare hbare, hgateway.2]
  | listed hbare route hfirst =>
    rw [List.forall_mem_singleton]
    constructor
    · intro hroute
      refine ⟨fun _ hunlisted => absurd hunlisted (not_unlisted rfl hfirst), fun _ r hr => ?_⟩
      rwa [firstListed_unique hr hfirst]
    · exact fun h => h.listed hbare route hfirst
  | configured hbare hrows hroutes =>
    have hopen : ∀ r ∈ R.serverConfigRoutes input, r.gatewayName = localName →
        FindsEntry R.process file r.endTarget := by
      intro r hr _
      obtain ⟨name, hname, rfl⟩ := mem_serverConfigRoutes hsound hr
      exact hfinds name hname
    refine iff_of_true hopen ⟨fun _ hunlisted => ?_, fun _ r hr => ?_⟩
    · rw [Unlisted, if_neg (not_not_intro hrows)] at hunlisted
      exact absurd hunlisted hroutes
    · obtain ⟨row, hrow, -⟩ := hr
      simp [hrows] at hrow
  | fallback hbare hunlisted routes hroutes =>
    constructor
    · intro hopen
      refine ⟨fun _ _ hssh => ?_, fun _ r hr => absurd hunlisted (not_unlisted rfl hr)⟩
      exact hopen _ ((mem_fallbackRoutes hroutes).2 (.inl hssh)) rfl
    · intro hbacked r hr hlocal
      rcases (mem_fallbackRoutes hroutes).1 hr with ⟨hmem, hssh⟩ | ⟨gc, hgc, -, rfl⟩
      · cases resolveSshConfigRoute_some hssh
        exact hbacked.ssh hbare hunlisted ⟨hmem, hssh⟩
      · exact absurd hlocal (name_ne_local hgateways hgc)

theorem local_routes_open_iff_listed :
    (oneServerResolver [webRow .local]).resolve "web01" = .ok [webRoute] ∧
      Backed (oneServerResolver [webRow .local]) oneServer "web01" := by
  have hresolve : (oneServerResolver [webRow .local]).resolve "web01" = .ok [webRoute] := by
    decide +kernel
  have hentry : FindsEntry bareHost oneServer webRoute.endTarget :=
    findsEntry_iff.2 (by decide +kernel)
  refine ⟨hresolve, (local_routes_open_iff rfl (by decide) hresolve).1 ?_⟩
  rw [List.forall_mem_singleton]
  exact fun _ => hentry

/-- A client configuration with a host that `server.toml` does not have. -/
def sshConfigText : Str := "Host db\n  User root\n  IdentityFile /key\n"

/-- The host is routed through `local`, which does not know it. -/
theorem ssh_config_route_not_open :
    (Resolver.new bareHost (.default bareHost) (.content sshConfigText)
        (loadServerConfigOrDefault bareHost oneServer) []).resolve "db" =
      .ok [⟨localName, "db"⟩] ∧
    resolveTarget bareHost oneServer (fun _ _ => .ok []) "db" =
      .error (targetNotFound "db") := by
  constructor <;> decide +kernel

end CrossHostOps.LocalRoutes
