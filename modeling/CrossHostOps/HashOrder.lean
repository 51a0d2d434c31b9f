import CrossHostOps.LocalRoutes

/-!
The hash map of the servers has no order of its own, and `lookup_local_server_by_host` takes the
first server that it comes to: whether a target is resolved the same way in every order.
-/

namespace CrossHostOps.HashOrder

open Text Config Inventory Targets LocalRoutes Resolver List

variable (R : Resolver) (input : Str)

/-- The resolver, with the servers and the names of the dynamic gateways in another order. -/
def reorder (servers : Servers) (names : List Str) : Resolver :=
  { R with serverConfig := { R.serverConfig with servers }, dynamicGatewayNames := names }

/-- The input is resolved the same way in every order. -/
def OrderFree : Prop :=
  ∀ (servers : Servers) (names : List Str),
    servers.entries.Perm R.serverConfig.servers.entries → names.Perm R.dynamicGatewayNames →
      (reorder R servers names).resolveWithWarning input = R.resolveWithWarning input

def usable (e : Str × ServerHostConfig) : Bool :=
  (resolveServerEntry e.1 e.2 R.serverConfig.defaults none).toOption.isSome

/-- If a server with the host has credentials, it is the only one with the host. -/
def Settled (host : Str) : Prop :=
  ∀ e ∈ R.serverConfig.servers.entries, e.2.host = host → usable R e = true →
    ∀ e' ∈ R.serverConfig.servers.entries, e'.2.host = host → e' = e

/-- The look-up comes to the hosts: the input is a bare name, there is no merged view, and no
server of the name has credentials. -/
structure ByHost : Prop where
  bare : Bare R input
  unmerged : R.mergedRows = []
  unnamed : ∀ e ∈ R.serverConfig.servers.entries, e.1 = input → usable R e = false

/-- Where the look-up comes to the hosts, neither the input nor, if no server with that host has
credentials, the address in it leaves a choice. -/
def Unambiguous : Prop :=
  ByHost R input → Settled R input ∧
    ((∃ e ∈ R.serverConfig.servers.entries, e.2.host = input ∧ usable R e = true) ∨
      deriveTargetIp input = input ∨ Settled R (deriveTargetIp input))

def routeTo (e : Str × ServerHostConfig) : Option Route :=
  if usable R e then some ⟨localName, e.1⟩ else none

variable {R input}

/-! ### Look-ups -/

section lookups

variable {e : Str × ServerHostConfig} {host : Str} {route : Route}

lemma mem_of_first
    (h : R.serverConfig.servers.entries.find? (·.2.host = host) = some e) :
    e ∈ R.serverConfig.servers.entries ∧ e.2.host = host :=
  ⟨mem_of_find?_eq_some h, by simpa using find?_some h⟩

lemma routeTo_eq (name : Str) (server : ServerHostConfig) :
    ((resolveServerEntry name server R.serverConfig.defaults none).toOption.bind fun entry =>
      some (⟨localName, entry.alias⟩ : Route)) = routeTo R (name, server) := by
  rw [routeTo, usable]
  cases hentry : resolveServerEntry name server R.serverConfig.defaults none with
  | error error => rfl
  | ok entry =>
    change some (⟨localName, entry.alias⟩ : Route) = some ⟨localName, name⟩
    rw [alias_of_resolve hentry]

lemma lookupLocalServer_eq (name : Str) : R.lookupLocalServer name =
    (R.serverConfig.servers.get name).bind fun server => routeTo R (name, server) := by
  simp only [← routeTo_eq]
  rfl

lemma lookupLocalServerByHost_eq (host : Str) : R.lookupLocalServerByHost host =
    (R.serverConfig.servers.entries.find? (·.2.host = host)).bind (routeTo R) := by
  have hroute : routeTo R = fun e => routeTo R (e.1, e.2) := rfl
  rw [hroute]
  simp only [← routeTo_eq]
  rfl

/-- The look-up by host goes by the first server with the host. -/
lemma lookupLocalServerByHost_some (h : R.lookupLocalServerByHost host = some route) :
    ∃ e, R.serverConfig.servers.entries.find? (·.2.host = host) = some e ∧
      route = ⟨localName, e.1⟩ := by
  rw [lookupLocalServerByHost_eq] at h
  obtain ⟨e, hfind, hroute⟩ := Option.bind_eq_some_iff.1 h
  rw [routeTo] at hroute
  split_ifs at hroute
  exact ⟨e, hfind, (Option.some.inj hroute).symm⟩

lemma first_of_only (hmem : e ∈ R.serverConfig.servers.entries) (hhost : e.2.host = host)
    (h : ∀ e' ∈ R.serverConfig.servers.entries, e'.2.host = host → e' = e) :
    R.serverConfig.servers.entries.find? (·.2.host = host) = some e := by
  have hsome : (R.serverConfig.servers.entries.find? (·.2.host = host)).isSome = true :=
    find?_isSome.2 ⟨e, hmem, by simpa using hhost⟩
  obtain ⟨e', hfind⟩ := Option.isSome_iff_exists.1 hsome
  obtain ⟨hmem', hhost'⟩ := mem_of_first hfind
  rw [hfind, h e' hmem' hhost']

lemma lookupLocalServerByHost_of_first (huse : usable R e = true)
    (h : R.serverConfig.servers.entries.find? (·.2.host = host) = some e) :
    R.lookupLocalServerByHost host = some ⟨localName, e.1⟩ := by
  rw [lookupLocalServerByHost_eq, h, Option.bind_some, routeTo, if_pos huse]

lemma lookupLocalServerByHost_of_unusable
    (h : ∀ e ∈ R.serverConfig.servers.entries, e.2.host = host → usable R e = false) :
    R.lookupLocalServerByHost host = none := by
  rw [lookupLocalServerByHost_eq, Option.bind_eq_none_iff]
  intro e hfind
  obtain ⟨hmem, hhost⟩ := mem_of_first hfind
  rw [routeTo, h e hmem hhost]
  rfl

lemma lookupLocalServer_of_unnamed (h : ByHost R input) : R.lookupLocalServer input = none := by
  rw [lookupLocalServer_eq, Option.bind_eq_none_iff]
  intro server hget
  rw [routeTo, h.unnamed _ (Servers.mem_of_get hget) rfl]
  rfl

lemma resolve_byHost (h : ByHost R input) : R.resolveWithWarning input =
    match R.lookupLocalServerByHost input with
    | some route => .ok ⟨[route], none⟩
    | none =>
      match if deriveTargetIp input ≠ input then R.lookupLocalServerByHost (deriveTargetIp input)
        else none with
      | some route => .ok ⟨[route], none⟩
      | none => R.resolveFallback input := by
  have hmerged : ¬ R.mergedRows ≠ [] := not_not_intro h.unmerged
  rw [resolveWithWarning_bare h.bare.1 h.bare.2.1 h.bare.2.2, resolveBare,
    if_neg hmerged, serverConfigRoutes, lookupLocalServer_of_unnamed h]
  cases R.lookupLocalServerByHost input with
  | some route => rfl
  | none =>
    simp only
    split_ifs with hip
    · cases R.lookupLocalServerByHost (deriveTargetIp input) <;> rfl
    · rfl

/-- A server with credentials is the answer only as the first of its host. -/
lemma first_of_resolve (h : ByHost R input) (hmem : e ∈ R.serverConfig.servers.entries)
    (huse : usable R e = true)
    (hres : R.resolveWithWarning input = .ok ⟨[⟨localName, e.1⟩], none⟩) :
    R.serverConfig.servers.entries.find? (·.2.host = e.2.host) = some e := by
  have hfirst : ∀ {host}, R.lookupLocalServerByHost host = some ⟨localName, e.1⟩ →
      R.serverConfig.servers.entries.find? (·.2.host = e.2.host) = some e := by
    intro host hlookup
    obtain ⟨e', hfind, hroute⟩ := lookupLocalServerByHost_some hlookup
    obtain ⟨hmem', hhost⟩ := mem_of_first hfind
    have he' : e' = e := inj_on_of_nodup_map R.serverConfig.servers.nodup hmem' hmem
      (Route.mk.inj hroute).2.symm
    rw [he'] at hfind hhost
    rwa [hhost]
  rw [resolve_byHost h] at hres
  split at hres
  case h_1 route hlookup =>
    cases hres
    exact hfirst hlookup
  case h_2 =>
    split at hres
    case h_1 route hlookup =>
      cases hres
      split_ifs at hlookup
      exact hfirst hlookup
    case h_2 =>
      -- the routes of `ssh.fallback` end in the input, which is no such server's name
      have hname : e.1 = input := endTarget_of_fallback ⟨_, hres, rfl⟩
      rw [h.unnamed e hmem hname] at huse
      cases huse

end lookups

/-! ### Orders -/

section orders

variable {servers : Servers} {names : List Str} {host : Str}

lemma isAnyGatewayName_reorder (hnames : names.Perm R.dynamicGatewayNames) (name : Str) :
    (reorder R servers names).isAnyGatewayName name = R.isAnyGatewayName name := by
  have hcontains : names.contains name = R.dynamicGatewayNames.contains name := by
    rw [Bool.eq_iff_iff, contains_iff_mem, contains_iff_mem, hnames.mem_iff]
  rw [isAnyGatewayName, isAnyGatewayName, ← hcontains]
  rfl

lemma resolveFallback_reorder (input : Str) :
    (reorder R servers names).resolveFallback input = R.resolveFallback input := by
  have hroutes : ∀ entries, (reorder R servers names).fallbackRoutes input entries =
      R.fallbackRoutes input entries := by
    intro entries
    induction entries with
    | nil => rfl
    | cons entry entries ih =>
      cases entry <;> rw [fallbackRoutes, ih] <;> rfl
  rw [resolveFallback, hroutes]
  rfl

variable (hservers : servers.entries.Perm R.serverConfig.servers.entries)

include hservers

lemma lookupLocalServer_reorder (name : Str) :
    (reorder R servers names).lookupLocalServer name = R.lookupLocalServer name := by
  have hget : servers.get name = R.serverConfig.servers.get name := by
    refine Option.ext fun server => ⟨fun h => ?_, fun h => ?_⟩
    · exact Servers.get_of_mem (hservers.mem_iff.1 (Servers.mem_of_get h))
    · exact Servers.get_of_mem (hservers.mem_iff.2 (Servers.mem_of_get h))
  rw [lookupLocalServer_eq, lookupLocalServer_eq, ← hget]
  rfl

lemma resolveExplicit_reorder (hnames : names.Perm R.dynamicGatewayNames)
    (jumpName serverAlias : Str) :
    (reorder R servers names).resolveExplicit jumpName serverAlias =
      R.resolveExplicit jumpName serverAlias := by
  have hcontains : names.contains jumpName = R.dynamicGatewayNames.contains jumpName := by
    rw [Bool.eq_iff_iff, contains_iff_mem, contains_iff_mem, hnames.mem_iff]
  rw [resolveExplicit, resolveExplicit, lookupLocalServer_reorder hservers, ← hcontains]
  rfl

lemma ByHost.reorder (hnames : names.Perm R.dynamicGatewayNames) (h : ByHost R input) :
    ByHost (reorder R servers names) input where
  bare := by
    rw [Bare, isAnyGatewayName_reorder hnames]
    exact h.bare
  unmerged := h.unmerged
  unnamed e he := h.unnamed e (hservers.mem_iff.1 he)

lemma lookupLocalServerByHost_reorder (h : Settled R host) :
    (reorder R servers names).lookupLocalServerByHost host = R.lookupLocalServerByHost host := by
  by_cases hany : ∃ e ∈ R.serverConfig.servers.entries, e.2.host = host ∧ usable R e = true
  · obtain ⟨e, hmem, hhost, huse⟩ := hany
    have honly := h e hmem hhost huse
    rw [lookupLocalServerByHost_of_first huse (first_of_only hmem hhost honly)]
    refine lookupLocalServerByHost_of_first huse
      (first_of_only (hservers.mem_iff.2 hmem) hhost fun e' hmem' => ?_)
    exact honly e' (hservers.mem_iff.1 hmem')
  · have hunusable : ∀ e ∈ R.serverConfig.servers.entries, e.2.host = host →
        usable R e = false := by
      intro e hmem hhost
      rw [← Bool.not_eq_true]
      exact fun huse => hany ⟨e, hmem, hhost, huse⟩
    rw [lookupLocalServerByHost_of_unusable hunusable]
    exact lookupLocalServerByHost_of_unusable fun e hmem => hunusable e (hservers.mem_iff.1 hmem)

omit hservers in
lemma exists_first (R : Resolver) {e : Str × ServerHostConfig}
    (hmem : e ∈ R.serverConfig.servers.entries) :
    ∃ servers : Servers, servers.entries.Perm R.serverConfig.servers.entries ∧
      servers.entries.find? (·.2.host = e.2.host) = some e := by
  have hperm := (perm_cons_erase hmem).symm
  have hnodup := (hperm.map Prod.fst).nodup_iff.2 R.serverConfig.servers.nodup
  exact ⟨⟨_, hnodup⟩, hperm, find?_cons_of_pos (by simp)⟩

end orders

/-! ### The answer -/

variable {R : Resolver} {input host : Str}

/-- Where the look-up does not come to the hosts, nothing depends on the order. -/
lemma orderFree_of_not_byHost (h : ¬ ByHost R input) : OrderFree R input := by
  intro servers names hservers hnames
  by_cases hbare : Bare R input
  · have hbare' : Bare (reorder R servers names) input := by
      rwa [Bare, isAnyGatewayName_reorder hnames]
    rw [resolveWithWarning_bare hbare.1 hbare.2.1 hbare.2.2, resolveWithWarning_bare hbare'.1
      hbare'.2.1 hbare'.2.2, resolveBare, resolveBare, resolveFallback_reorder]
    by_cases hmerged : R.mergedRows = []
    · have hnamed : ∃ e ∈ R.serverConfig.servers.entries, e.1 = input ∧ usable R e = true := by
        by_contra hno
        refine h ⟨hbare, hmerged, fun e hmem hname => ?_⟩
        rw [← Bool.not_eq_true]
        exact fun huse => hno ⟨e, hmem, hname, huse⟩
      obtain ⟨⟨name, server⟩, hmem, hname, huse⟩ := hnamed
      have hlookup : R.lookupLocalServer input = some ⟨localName, input⟩ := by
        cases hname
        rw [lookupLocalServer_eq, Servers.get_of_mem hmem, Option.bind_some, routeTo, if_pos huse]
      rw [serverConfigRoutes, serverConfigRoutes, lookupLocalServer_reorder hservers, hlookup]
      rfl
    · rw [if_pos hmerged, if_pos (show (reorder R servers names).mergedRows ≠ [] from hmerged)]
      rfl
  · rw [resolveWithWarning, resolveWithWarning, isAnyGatewayName_reorder hnames,
      isAnyGatewayName_reorder hnames]
    by_cases hself : input = selfTarget
    · rw [if_pos hself, if_pos hself]
    · cases hparse : parseExplicitQualified input with
      | some parts => simp only [resolveExplicit_reorder hservers hnames]
      | none =>
        have hgateway : R.isAnyGatewayName input = true ∧ input ≠ localName := by
          by_contra hno
          exact hbare ⟨hself, hparse, hno⟩
        simp only [if_pos hgateway]

lemma orderFree_of_unambiguous (h : Unambiguous R input) : OrderFree R input := by
  by_cases hby : ByHost R input
  · intro servers names hservers hnames
    obtain ⟨hinput, hip⟩ := h hby
    rw [resolve_byHost (hby.reorder hservers hnames), resolve_byHost hby,
      lookupLocalServerByHost_reorder hservers hinput, resolveFallback_reorder]
    rcases hip with ⟨e, hmem, hhost, huse⟩ | hsame | hip
    · have hfirst := first_of_only hmem hhost (hinput e hmem hhost huse)
      rw [lookupLocalServerByHost_of_first huse hfirst]
    · rw [if_neg (not_not_intro hsame), if_neg (not_not_intro hsame)]
    · rw [lookupLocalServerByHost_reorder hservers hip]
  · exact orderFree_of_not_byHost hby

/-- A host is settled if the first of its servers is the answer in every order: two of them cannot
both be the first. -/
lemma settled_of_orderFree (hfree : OrderFree R input) (hby : ByHost R input)
    (hanswer : ∀ (servers : Servers) (e : Str × ServerHostConfig),
      servers.entries.Perm R.serverConfig.servers.entries → usable R e = true →
      servers.entries.find? (·.2.host = host) = some e →
        (reorder R servers R.dynamicGatewayNames).resolveWithWarning input =
          .ok ⟨[⟨localName, e.1⟩], none⟩) : Settled R host := by
  intro e hmem hhost huse e' hmem' hhost'
  obtain ⟨servers, hservers, hfirst⟩ := exists_first R hmem
  obtain ⟨servers', hservers', hfirst'⟩ := exists_first R hmem'
  rw [hhost] at hfirst
  have hresolve := hanswer servers e hservers huse hfirst
  rw [hfree servers _ hservers (.refl _), ← hfree servers' _ hservers' (.refl _)] at hresolve
  have hagain := first_of_resolve (hby.reorder hservers' (.refl _)) (hservers'.mem_iff.2 hmem) huse
    hresolve
  rw [hhost, ← hhost'] at hagain
  exact Option.some.inj (hfirst'.symm.trans hagain)

lemma unambiguous_of_orderFree (h : OrderFree R input) : Unambiguous R input := by
  intro hby
  have hinput : Settled R input := by
    refine settled_of_orderFree h hby fun servers e hservers huse hfirst => ?_
    have hfound : (reorder R servers R.dynamicGatewayNames).lookupLocalServerByHost input =
        some ⟨localName, e.1⟩ := lookupLocalServerByHost_of_first huse hfirst
    rw [resolve_byHost (hby.reorder hservers (.refl _)), hfound]
  refine ⟨hinput, ?_⟩
  by_contra hno
  simp only [not_or, not_exists, not_and, Bool.not_eq_true] at hno
  obtain ⟨hunusable, hne, hunsettled⟩ := hno
  refine hunsettled (settled_of_orderFree h hby fun servers e hservers huse hfirst => ?_)
  have hnone : (reorder R servers R.dynamicGatewayNames).lookupLocalServerByHost input = none :=
    lookupLocalServerByHost_of_unusable fun e' hmem' => hunusable e' (hservers.mem_iff.1 hmem')
  have hfound : (reorder R servers R.dynamicGatewayNames).lookupLocalServerByHost
      (deriveTargetIp input) = some ⟨localName, e.1⟩ :=
    lookupLocalServerByHost_of_first huse hfirst
  rw [resolve_byHost (hby.reorder hservers (.refl _)), hnone]
  simp [hne, hfound]

/-- **A target is resolved the same way in every order of the hash map if, and only if, the
look-up by host, where it comes to that, leaves no choice.** -/
theorem resolve_order_free_iff (R : Resolver) (input : Str) :
    OrderFree R input ↔ Unambiguous R input :=
  ⟨unambiguous_of_orderFree, orderFree_of_unambiguous⟩

def serverFor (user : String) : Str × ServerHostConfig :=
  (user.toList, {
    host := "10.0.0.1", user := user.toList, identityFile := some "/key" })

def rootAndDeploy : Servers := ⟨[serverFor "root", serverFor "deploy"], by decide⟩

def deployAndRoot : Servers := ⟨[serverFor "deploy", serverFor "root"], by decide⟩

/-- The address is another server from order to order. -/
theorem resolve_follows_order :
    deployAndRoot.entries.Perm rootAndDeploy.entries ∧
      (Resolver.new bareHost (.default bareHost) .missing
          { servers := rootAndDeploy } []).resolveWithWarning "10.0.0.1" =
        .ok ⟨[⟨localName, "root"⟩], none⟩ ∧
      (new bareHost (.default bareHost) .missing
          { servers := deployAndRoot } []).resolveWithWarning "10.0.0.1" =
        .ok ⟨[⟨localName, "deploy"⟩], none⟩ := by
  refine ⟨.swap .., ?_, ?_⟩ <;> decide +kernel

end CrossHostOps.HashOrder
