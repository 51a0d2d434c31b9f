import CrossHostOps.GatewayCommands

/-!
Writing `config.toml` back: what a command that is to change one gateway leaves of the other
settings, and what of the environment gets into the file.
-/

namespace CrossHostOps.WriteBack

open Text Config Results ConfigLoad GatewayCommands AppConfig

variable {T : Type} {toml : TomlText T} {p : Process} {dir : Option Str}
  {trusted : Except Str Unit} {write : WriteResult T} {cmd : HostCommand} {file : FileContent T}
  {c c' : AppConfig} {text : T}

/-! ### `xho host` -/

/-- The second configuration is the first but for the one gateway of the command. -/
def ChangesOne (c c' : AppConfig) : HostCommand → Prop
  | .add name _ _ _ => ∃ g, g.name = name ∧ c' = { c with gateways := c.gateways ++ [g] }
  | .remove name => c' = { c with gateways := without c.gateways name }

/-- The file loads to the same settings but for the one gateway, or the command has failed and left
it alone. -/
def ChangesOnlyOne (toml : TomlText T) (p : Process) (dir : Option Str)
    (trusted : Except Str Unit) (write : WriteResult T) (cmd : HostCommand)
    (file : FileContent T) : Prop :=
  let result := cmd.run toml p dir trusted write file
  (∃ c c', load toml p dir file = .ok c ∧ load toml p dir result.2 = .ok c' ∧
      ChangesOne c c' cmd) ∨
    result.1 ≠ .exit 0 ∧ result.2 = file

/-- What is left of the loaded configuration can be written and loaded again: the new name is not
empty, the removed one is not a fallback, and no path is one that expands a second time. -/
def Reloads (p : Process) (c : AppConfig) : HostCommand → Prop
  | .add name _ _ _ => name ≠ [] ∧ Stable p c
  | .remove name =>
    .gateway name ∉ c.ssh.fallback ∧ Stable p { c with gateways := without c.gateways name }

/-- The write is not stopped half-way. -/
def Whole (write : WriteResult T) : Prop := ∀ left error, write ≠ .stopped left error

/-- The written file against the configuration it was made from. -/
lemma changesOne_iff_reloads (htoml : toml.RoundTrips) (hc : Loaded p dir c)
    (hplan : cmd.plan p trusted c = .ok c') (hprint : c'.print toml p = .ok text) :
    (∃ c'', load toml p dir (.content text) = .ok c'' ∧ ChangesOne c c'' cmd) ↔
      Reloads p c cmd := by
  cases cmd with
  | add name address identityFile knownHosts =>
    obtain ⟨g, rfl, hg, rfl⟩ := plan_add hplan
    obtain ⟨g', hg'⟩ := hg.expands
    have hreload := reload_ok htoml hc (leaves_append hg.leaves) hprint
    have hmapM : ∀ g'', (c.gateways ++ [g]).mapM (GatewayConfig.expandPaths p) =
        .ok (c.gateways ++ [g'']) ↔
          c.gateways.mapM (GatewayConfig.expandPaths p) = .ok c.gateways ∧ g' = g'' := by
      intro g''
      rw [mapM_append_singleton, hg', Except.ok.injEq]
    constructor
    · rintro ⟨c'', hload, g'', -, rfl⟩
      rw [hreload, hmapM] at hload
      obtain ⟨hothers, ⟨hgateways, rfl⟩, hsound⟩ := hload
      exact ⟨(sound_append hc.gateways hg hg').1 hsound, stable_iff.2 ⟨hothers, hgateways⟩⟩
    · rintro ⟨hne, hstable⟩
      obtain ⟨hothers, hgateways⟩ := stable_iff.1 hstable
      refine ⟨_, (hreload _).2 ⟨hothers, (hmapM g').2 ⟨hgateways, rfl⟩, ?_⟩, g', ?_, rfl⟩
      · exact (sound_append hc.gateways hg hg').2 hne
      · exact (name_of_expandPaths hg').1
  | remove name =>
    obtain ⟨hname, rfl⟩ := plan_remove hplan
    have hstable : Stable p { c with gateways := without c.gateways name } ↔
        Stable p { c with gateways := [] } ∧
          (without c.gateways name).mapM (GatewayConfig.expandPaths p) =
            .ok (without c.gateways name) := stable_iff
    simp only [ChangesOne, exists_eq_right, reload_ok htoml hc (leaves_without name) hprint,
      sound_without hc.gateways hname, Reloads]
    tauto

/-- **Host commands**: unless its write is stopped half-way, a command changes nothing but its
gateway exactly if it does not come to the write, or the file was one that loads and what it
leaves loads again. -/
theorem host_command_changes_only_one_iff (htoml : toml.RoundTrips) (hwrite : Whole write) :
    ChangesOnlyOne toml p dir trusted write cmd file ↔
      (∃ outcome, cmd.output toml p dir trusted file = .error outcome) ∨
        (∃ error, write = .notOpened error) ∨
          ∃ c, load toml p dir file = .ok c ∧ Reloads p c cmd := by
  cases houtput : cmd.output toml p dir trusted file with
  | error outcome =>
    refine iff_of_true (.inr ?_) (.inl ⟨outcome, rfl⟩)
    rw [HostCommand.run, houtput]
    exact ⟨output_error houtput, rfl⟩
  | ok text =>
    cases write with
    | stopped left error => exact absurd rfl (hwrite left error)
    | notOpened error =>
      refine iff_of_true (.inr ?_) (.inr (.inl ⟨error, rfl⟩))
      rw [HostCommand.run, houtput]
      exact ⟨Outcome.noConfusion, rfl⟩
    | done =>
      obtain ⟨c', hplan, hprint⟩ := bind_ok.1 houtput
      rw [ChangesOnlyOne, HostCommand.run, houtput]
      simp only [reduceCtorEq, exists_false, false_or]
      rw [or_iff_left fun h => h.1 rfl]
      cases hload : load toml p dir file with
      | error e => simp
      | ok c =>
        rw [loadOrDefault, hload] at hplan
        simp only [Except.ok.injEq, exists_and_left, exists_eq_left']
        exact changesOne_iff_reloads htoml (loaded_of_load htoml hload) hplan
          (mapError_ok.1 hprint)

/-! #### A file with one gateway -/

/-- A file with the gateway `gw`, which may stand in `ssh.fallback`. -/
def oneGateway (fallback : List FallbackEntry) :
    FileContent (Option (AppConfig × List (Str × Str))) :=
  .content (some ({ AppConfig.default bareHost with
    ssh := { fallback }
    gateways := [.xhod { name := "gw", address := "xho@h:2222" }] }, []))

def addEdge : HostCommand := .add "edge" "h" none none

def removeGw : HostCommand := .remove "gw"

theorem host_command_changes_only_one_iff_added :
    ChangesOnlyOne parsedText bareHost none (.ok ()) .done addEdge
      (oneGateway [.gateway "gw"]) := by
  refine (host_command_changes_only_one_iff parsedText_roundTrips
    fun _ _ h => by cases h).2 (.inr (.inr ?_))
  have hload : (load parsedText bareHost none (oneGateway [.gateway "gw"])).isOk := by
    decide +kernel
  exact ⟨_, load_of_isOk hload, by decide,
    stable_of_load absoluteHome_bareHost (load_of_isOk hload)⟩

lemma not_changesOnlyOne
    (hload : (load toml p dir (cmd.run toml p dir trusted write file).2).isOk = false ∨
      (load toml p dir file).isOk = false)
    (hfile : (cmd.run toml p dir trusted write file).1 = .exit 0 ∨
      (cmd.run toml p dir trusted write file).2 ≠ file) :
    ¬ ChangesOnlyOne toml p dir trusted write cmd file := by
  rintro (⟨c, c', hc, hc', -⟩ | ⟨hexit, hsame⟩)
  · rw [hc, hc'] at hload
    simp [Except.toBool] at hload
  · exact hfile.elim hexit fun h => h hsame

/-- A file that does not parse is replaced by the default settings; a gateway that `ssh.fallback`
names is removed, and the file does not load any more; and a write that is stopped leaves part of a
file. -/
theorem host_command_changes_more :
    ¬ ChangesOnlyOne parsedText bareHost none (.ok ()) .done addEdge (.content none) ∧
    ¬ ChangesOnlyOne parsedText bareHost none (.ok ()) .done removeGw
      (oneGateway [.gateway "gw"]) ∧
    ¬ ChangesOnlyOne parsedText bareHost none (.ok ()) (.stopped (.content none) []) addEdge
      (oneGateway []) := by
  refine ⟨not_changesOnlyOne (.inr ?_) (.inl ?_), not_changesOnlyOne (.inl ?_) (.inl ?_),
    not_changesOnlyOne (.inl ?_) (.inr ?_)⟩ <;> decide +kernel

/-! ### The environment -/

/-- What two runs may differ in: the variables that `default_review_api_key` reads, in this order,
and the order of hash maps. -/
structure Run where
  review : Option Str
  openai : Option Str
  iteration : Iteration

def Run.apiKey (run : Run) : Option Str := run.review <|> run.openai

def during (p : Process) (run : Run) : Process :=
  { p with
    env := fun name =>
      if name = "XHO_REVIEW_API_KEY" then run.review
      else if name = "OPENAI_API_KEY" then run.openai
      else p.env name
    iteration := run.iteration }

inductive Writer
  | updateConfig (mutation : Mutation)
  | host (cmd : HostCommand)

section Writers

variable (toml : TomlText T) (p : Process) (dir : Option Str) (trusted : Except Str Unit)
  (file : FileContent T)

/-- The configuration that is written, if one is. The daemon has loaded its own at its start. -/
def planned : Writer → Option AppConfig
  | .updateConfig mutation => do
    let config ← (load toml p dir file).toOption
    let gateways ← (updateGateways config.gateways mutation).toOption
    some { config with gateways }
  | .host cmd => (cmd.plan p trusted (loadOrDefault toml p dir file)).toOption

def written (writer : Writer) : Option T := do
  let c ← planned toml p dir trusted file writer
  (c.print toml p).toOption

def apiKeyOf : FileContent T → Option Str
  | .content text => (toml.fromStr text).toOption.bind fun c => c.review.apiKey
  | _ => none

/-- What is written is the same in all runs, and it has no key that the file does not have. -/
def LeaksNothing (writer : Writer) : Prop :=
  (∀ run run', written toml (during p run) dir trusted file writer =
      written toml (during p run') dir trusted file writer) ∧
    ∀ run text key, written toml (during p run) dir trusted file writer = some text →
      apiKeyOf toml (.content text) = some key → apiKeyOf toml file = some key

/-- The key that is written. Of a file that does not load nothing is kept. -/
def writtenKey (run : Run) : Option Str :=
  if (load toml p dir file).isOk then apiKeyOf toml file <|> run.apiKey else run.apiKey

/-- The file keeps its own key, and its headers are in the one order there is. -/
structure KeepsText : Prop where
  ownKey : (apiKeyOf toml file).isSome
  loads : (load toml p dir file).isOk
  headers : (loadOrDefault toml p dir file).review.headers.entries.length ≤ 1

end Writers

def setKey (c : AppConfig) (key : Option Str) : AppConfig :=
  { c with review := { c.review with apiKey := key } }

variable {run run' : Run} {key : Option Str} {writer : Writer}

/-- The key is no business of `load` but for the default. -/
lemma settle_setKey :
    settle (during p run) dir (setKey c key) = (setKey · key) <$> settle p dir c := by
  have hexpand : expandPaths (during p run) { setKey c key with configDir := dir } =
      (setKey · key) <$> expandPaths p { c with configDir := dir } := by
    simp only [expandPaths, map_bind]
    rfl
  rw [settle, hexpand, settle, map_bind, bind_map_left]
  refine bind_congr fun c' => ?_
  rw [map_bind]
  rfl

lemma load_during :
    load toml (during p run) dir file =
      (setKey · (apiKeyOf toml file <|> run.apiKey)) <$> load toml p dir file := by
  cases file with
  | missing =>
    have hdefault : default (during p run) = setKey (default p) run.apiKey := rfl
    rw [load, hdefault, settle_setKey]
    rfl
  | unreadable error => rfl
  | content text =>
    rw [load, load, apiKeyOf]
    cases toml.fromStr text with
    | error e => rfl
    | ok c =>
      have hfill : c.fillApiKey (during p run) =
          setKey (c.fillApiKey p) (c.review.apiKey <|> run.apiKey) := rfl
      change settle (during p run) dir (c.fillApiKey (during p run)) = _
      rw [hfill, settle_setKey]
      rfl

lemma plan_setKey :
    cmd.plan (during p run) trusted (setKey c key) = (setKey · key) <$> cmd.plan p trusted c := by
  have hsame : (setKey c key).gateways = c.gateways := rfl
  cases cmd with
  | add name address identityFile knownHosts =>
    rw [HostCommand.plan, HostCommand.plan, hsame]
    split_ifs
    · rfl
    · rfl
    · cases RemoteAddress.parse address ⟨"xho", 2222⟩ with
      | error e => rfl
      | ok remoteAddr =>
        simp only [map_bind]
        rfl
  | remove name =>
    rw [HostCommand.plan, HostCommand.plan, hsame]
    cases c.gateways.find? (·.name = name) with
    | none => rfl
    | some entry =>
      simp only
      split_ifs
      · rfl
      · rfl

lemma loadOrDefault_during :
    loadOrDefault toml (during p run) dir file =
      setKey (loadOrDefault toml p dir file) (writtenKey toml p dir file run) := by
  rw [loadOrDefault, loadOrDefault, load_during, writtenKey]
  cases load toml p dir file with
  | ok | error => rfl

lemma planned_during :
    planned toml (during p run) dir trusted file writer =
      (setKey · (writtenKey toml p dir file run)) <$> planned toml p dir trusted file writer := by
  cases writer with
  | updateConfig mutation =>
    rw [planned, planned, load_during, writtenKey]
    cases load toml p dir file with
    | error e => rfl
    | ok c =>
      change ((updateGateways c.gateways mutation).toOption >>= fun gateways =>
          some { setKey c _ with gateways }) =
        (setKey · _) <$> ((updateGateways c.gateways mutation).toOption >>= fun gateways =>
          some { c with gateways })
      cases (updateGateways c.gateways mutation).toOption with
      | none | some => rfl
  | host cmd =>
    rw [planned, planned, loadOrDefault_during, plan_setKey]
    cases cmd.plan p trusted (loadOrDefault toml p dir file) with
    | error | ok => rfl

lemma updateGateways_leaves {gateways gateways' : List GatewayConfig} {mutation : Mutation}
    (h : updateGateways gateways mutation = .ok gateways') :
    ∀ g ∈ gateways', g ∈ gateways ∨ g.leaves = [] := by
  cases mutation with
  | addGateway name kind address identityFile knownHostsPath =>
    obtain ⟨⟨⟩, -, h⟩ := bind_ok.1 h
    cases h
    exact leaves_append rfl
  | removeGateway name =>
    obtain ⟨rfl, -⟩ := removeEntry_ok h
    exact leaves_without _
  | other mutationType => cases h

lemma loadOrDefault_readable (htoml : toml.RoundTrips) :
    (loadOrDefault toml p dir file).Readable := by
  rw [loadOrDefault]
  cases hload : load toml p dir file with
  | error e => exact readable_default p
  | ok c => exact (loaded_of_load htoml hload).readable

/-! #### Orders -/

def reversed : Iteration := ⟨fun headers => headers.entries.reverse, fun _ => List.reverse_perm _⟩

lemma length_le_one {headers : Headers} (h : inOrder.list headers = reversed.list headers) :
    headers.entries.length ≤ 1 := by
  obtain ⟨entries, hsorted⟩ := headers
  have hback : (entries.map Prod.fst).Pairwise fun a b => List.Lex (· < ·) b a := by
    have hsame : entries = entries.reverse := h
    rw [← List.pairwise_reverse, ← List.map_reverse, ← hsame]
    exact hsorted
  clear h
  obtain _ | ⟨a, _ | ⟨b, rest⟩⟩ := entries
  · exact Nat.zero_le 1
  · exact le_rfl
  · exact absurd (List.rel_of_pairwise_cons hback List.mem_cons_self)
      (List.lex_asymm Char.lt_asymm (List.rel_of_pairwise_cons hsorted List.mem_cons_self))

lemma list_eq {headers : Headers} (h : headers.entries.length ≤ 1) (iteration : Iteration) :
    iteration.list headers = headers.entries := by
  have hperm := iteration.perm headers
  obtain hentries | ⟨entry, hentries⟩ := Nat.le_one_iff_eq_zero_or_eq_one.1 h |>.imp
    List.length_eq_zero_iff.1 List.length_eq_one_iff.1
  · rw [hentries] at hperm ⊢
    exact List.perm_nil.1 hperm
  · rw [hentries] at hperm ⊢
    exact List.perm_singleton.1 hperm

/-! #### When nothing leaks -/

lemma writtenKey_of_own (hkey : (apiKeyOf toml file).isSome) (hload : (load toml p dir file).isOk)
    (run : Run) : writtenKey toml p dir file run = apiKeyOf toml file := by
  obtain ⟨key, hkey⟩ := Option.isSome_iff_exists.1 hkey
  rw [writtenKey, if_pos hload, hkey]
  rfl

lemma writtenKey_of_not_own
    (h : ¬ ((apiKeyOf toml file).isSome ∧ (load toml p dir file).isOk)) (run : Run) :
    writtenKey toml p dir file run = run.apiKey := by
  rw [writtenKey]
  split_ifs with hload
  · have hkey : apiKeyOf toml file = none :=
      Option.not_isSome_iff_eq_none.1 fun hkey => h ⟨hkey, hload⟩
    rw [hkey]
    rfl
  · rfl

lemma leaksNothing_of_none
    (h : ∀ run, written toml (during p run) dir trusted file writer = none) :
    LeaksNothing toml p dir trusted file writer := by
  refine ⟨fun run run' => by rw [h, h], fun run text key hwritten => ?_⟩
  rw [h] at hwritten
  cases hwritten

section Planned

variable (htoml : toml.RoundTrips)
  (hplanned : planned toml p dir trusted file writer = some c)

include hplanned

/-- Where something is planned, a run writes the text of the configuration with its key, in its
order. -/
lemma written_during :
    written toml (during p run) dir trusted file writer = some text ↔
      toml.toStringPretty (setKey c (writtenKey toml p dir file run))
        (run.iteration.list c.review.headers) = .ok text := by
  rw [written, planned_during, hplanned]
  exact toOption_eq_some

/-- What is planned differs from what is there in its gateways only. -/
lemma planned_eq (hloaded : loadOrDefault toml p dir file = c') :
    ∃ gateways, c = { c' with gateways } ∧ ∀ g ∈ gateways, g ∈ c'.gateways ∨ g.leaves = [] := by
  subst hloaded
  cases writer with
  | updateConfig mutation =>
    obtain ⟨config, hload, hplanned⟩ := Option.bind_eq_some_iff.1 hplanned
    obtain ⟨gateways, hgateways, hplanned⟩ := Option.bind_eq_some_iff.1 hplanned
    cases hplanned
    rw [loadOrDefault, toOption_eq_some.1 hload]
    exact ⟨gateways, rfl, updateGateways_leaves (toOption_eq_some.1 hgateways)⟩
  | host cmd =>
    have hplan := toOption_eq_some.1 hplanned
    cases cmd with
    | add name address identityFile knownHosts =>
      obtain ⟨g, -, hg, rfl⟩ := plan_add hplan
      exact ⟨_, rfl, leaves_append hg.leaves⟩
    | remove name =>
      obtain ⟨-, rfl⟩ := plan_remove hplan
      exact ⟨_, rfl, leaves_without name⟩

include htoml

lemma apiKeyOf_written
    (hwritten : written toml (during p run) dir trusted file writer = some text) :
    apiKeyOf toml (.content text) = writtenKey toml p dir file run := by
  have hreadable : c.Readable := by
    obtain ⟨gateways, rfl, hleaves⟩ := planned_eq hplanned rfl
    exact readable_gateways (loadOrDefault_readable htoml) hleaves
  have hread := htoml.readBack (c := setKey c (writtenKey toml p dir file run)) hreadable
    (run.iteration.perm _) ((written_during hplanned).1 hwritten)
  rw [apiKeyOf, hread]
  rfl

/-- If all runs write the same text, it has no key of the environment and no order of its own. -/
lemma keepsText_of_same
    (h : ∀ run, written toml (during p run) dir trusted file writer = some text) :
    KeepsText toml p dir file := by
  have hown : (apiKeyOf toml file).isSome ∧ (load toml p dir file).isOk := by
    by_contra hown
    have hkey := fun run => apiKeyOf_written htoml hplanned (h run)
    have hset := hkey ⟨some [], none, inOrder⟩
    rw [hkey ⟨none, none, inOrder⟩, writtenKey_of_not_own hown, writtenKey_of_not_own hown] at hset
    cases hset
  have hprint : ∀ iteration : Iteration, toml.toStringPretty (setKey c (apiKeyOf toml file))
      (iteration.list c.review.headers) = .ok text := by
    intro iteration
    have hrun := (written_during hplanned).1 (h ⟨none, none, iteration⟩)
    rwa [writtenKey_of_own hown.1 hown.2] at hrun
  have hheaders : inOrder.list c.review.headers = reversed.list c.review.headers :=
    htoml.ordered (c := setKey c (apiKeyOf toml file)) (inOrder.perm _) (reversed.perm _)
      (hprint inOrder) (hprint reversed)
  obtain ⟨gateways, rfl, -⟩ := planned_eq hplanned rfl
  exact ⟨hown.1, hown.2, length_le_one hheaders⟩

lemma KeepsText.leaksNothing (h : KeepsText toml p dir file) :
    LeaksNothing toml p dir trusted file writer := by
  refine ⟨fun run run' => Option.ext fun text => ?_, fun run text key hwritten hkey => ?_⟩
  · have hheaders : c.review.headers.entries.length ≤ 1 := by
      obtain ⟨gateways, rfl, -⟩ := planned_eq hplanned rfl
      exact h.headers
    rw [written_during hplanned, written_during hplanned, list_eq hheaders, list_eq hheaders,
      writtenKey_of_own h.ownKey h.loads, writtenKey_of_own h.ownKey h.loads]
  · rwa [apiKeyOf_written htoml hplanned hwritten, writtenKey_of_own h.ownKey h.loads] at hkey

end Planned

/-- **The environment**: what is written is the same in all runs, and has no key that was not in the
file, exactly if nothing is ever written, or the file loads, has a key of its own and has no two
headers. -/
theorem write_back_leaks_nothing_iff (htoml : toml.RoundTrips) :
    LeaksNothing toml p dir trusted file writer ↔
      (∀ run, written toml (during p run) dir trusted file writer = none) ∨
        KeepsText toml p dir file := by
  constructor
  · intro h
    rw [or_iff_not_imp_left]
    intro hsome
    obtain ⟨run, hrun⟩ := not_forall.1 hsome
    obtain ⟨text, htext⟩ := Option.ne_none_iff_exists'.1 hrun
    cases hplanned : planned toml p dir trusted file writer with
    | none =>
      rw [written, planned_during, hplanned] at htext
      cases htext
    | some c => exact keepsText_of_same htoml hplanned fun run' => (h.1 run' run).trans htext
  · intro h
    cases hplanned : planned toml p dir trusted file writer with
    | none =>
      refine leaksNothing_of_none fun run => ?_
      rw [written, planned_during, hplanned]
      rfl
    | some c =>
      rcases h with hnone | hkeeps
      · exact leaksNothing_of_none hnone
      · exact hkeeps.leaksNothing htoml hplanned

/-! #### A secret in the environment -/

/-- A file with one gateway, a key of its own and these headers. -/
def ownKey (headers : Headers) : FileContent (Option (AppConfig × List (Str × Str))) :=
  .content (some ({ AppConfig.default bareHost with
    review := { apiKey := some "own", headers }
    gateways := [.xhod { name := "gw", address := "xho@h:2222" }] }, []))

def addEdgeByRpc : Writer :=
  .updateConfig (.addGateway "edge" "xhod" "h" [] [])

theorem write_back_leaks_nothing_iff_own_key :
    LeaksNothing parsedText bareHost none (.ok ()) (ownKey ⟨[("A", "1")], by simp⟩)
      addEdgeByRpc := by
  refine (write_back_leaks_nothing_iff parsedText_roundTrips).2 (.inr ⟨?_, ?_, ?_⟩) <;>
    decide +kernel

lemma not_leaksNothing {key : Str}
    (hwritten : (written toml (during p run) dir trusted file writer).bind
      (fun text => apiKeyOf toml (.content text)) = some key)
    (hfile : apiKeyOf toml file = none) : ¬ LeaksNothing toml p dir trusted file writer := by
  intro h
  obtain ⟨text, htext, hkey⟩ := Option.bind_eq_some_iff.1 hwritten
  rw [h.2 run text key htext hkey] at hfile
  cases hfile

def secretRun : Run := ⟨some "sk", none, inOrder⟩

def twoHeaders : Headers where
  entries := [("A", "1"), ("B", "2")]
  sorted := by
    refine List.pairwise_pair.2 (.rel ?_)
    decide

/-- The key of the environment is written into a file that has none, by the daemon and by the
commands; `host add` writes it in place of a file that does not parse; and of two headers either may
come first. -/
theorem write_back_leaks :
    ¬ LeaksNothing parsedText bareHost none (.ok ()) (oneGateway []) addEdgeByRpc ∧
    ¬ LeaksNothing parsedText bareHost none (.ok ()) (oneGateway []) (.host removeGw) ∧
    ¬ LeaksNothing parsedText bareHost none (.ok ()) (.content none) (.host addEdge) ∧
    ¬ LeaksNothing parsedText bareHost none (.ok ()) (ownKey twoHeaders) (.host addEdge) := by
  have hleak : ∀ (file : FileContent (Option (AppConfig × List (Str × Str)))) (writer : Writer),
      (written parsedText (during bareHost secretRun) none (.ok ()) file writer).bind
          (fun text => apiKeyOf parsedText (.content text)) = some "sk" →
        apiKeyOf parsedText file = none →
          ¬ LeaksNothing parsedText bareHost none (.ok ()) file writer :=
    fun _ _ => not_leaksNothing
  refine ⟨hleak _ _ ?_ ?_, hleak _ _ ?_ ?_, hleak _ _ ?_ ?_, fun h => ?_⟩
  case refine_7 =>
    -- only the headers are compared, not the texts of the prompts
    have hsame := congrArg (·.bind (·.map Prod.snd)) <|
      h.1 ⟨none, none, inOrder⟩ ⟨none, none, reversed⟩
    revert hsame
    decide +kernel
  all_goals decide +kernel

end CrossHostOps.WriteBack
