import CrossHostOps.GatewayCommands
import CrossHostOps.Runs

/-!
`update_config` with any number of requests at once: a section under the lock of the configuration,
the write of the file and the read of the file are steps of their own.
-/

namespace CrossHostOps.ConfigUpdate

open Text Config AppConfig Results ConfigLoad GatewayCommands Runs List

structure UpdateConfigResponse where
  success : Bool
  message : Str
  deriving DecidableEq

/-- What a request has done to the gateways in memory. A removal keeps which entries of other
requests it took. -/
inductive Change
  | add (entry : GatewayConfig)
  | remove («alias» : Str) (removed : List (ℕ × Str))
  deriving DecidableEq

def Change.succeeded : Change → UpdateConfigResponse
  | .add entry => ⟨true, "gateway '" ++ entry.name ++ "' added successfully"⟩
  | .remove «alias» _ => ⟨true, "gateway '" ++ «alias» ++ "' removed successfully"⟩

def failedToWrite (error : Str) : UpdateConfigResponse :=
  ⟨false, "failed to write config: " ++ error⟩

inductive Phase
  | start (mutation : Mutation)
  | pushing (entry : GatewayConfig)
  | cloning (change : Change)
  | writing (change : Change) (config : AppConfig)
  | rollingBack (entry : GatewayConfig) (error : Str)
  | reloading (change : Change) (answer : UpdateConfigResponse)
  | swapping (change : Change) (answer : UpdateConfigResponse) (loaded : AppConfig)
  | answered (answer : UpdateConfigResponse)
  deriving DecidableEq

/-- What the requests share. `kept` are the entries that requests have added and no other has
removed: the number of the request and the name. -/
structure Shared (T : Type) where
  memory : AppConfig
  disk : FileContent T
  kept : List (ℕ × Str)

section Steps

variable {T : Type} (toml : TomlText T)

namespace Shared

variable (sh : Shared T)

def setGateways (gateways : List GatewayConfig) : Shared T :=
  { sh with memory := { sh.memory with gateways } }

/-- A removal that fails has removed nothing. -/
def answer (change : Change) (response : UpdateConfigResponse) : Shared T :=
  match change with
  | .add _ => sh
  | .remove _ removed => if response.success then sh else { sh with kept := sh.kept ++ removed }

end Shared

/-- `atomic_write_config` fails. -/
def failWrite (error : Str) : Phase → Option Phase
  | .writing (.add entry) _ => some (.rollingBack entry error)
  | .writing (.remove «alias» removed) _ =>
    some (.reloading (.remove «alias» removed) (failedToWrite error))
  | _ => none

variable (p : Process) (dir : Option Str)

def advance (i : ℕ) (sh : Shared T) : Phase → Option (Shared T × Phase)
  | .start (.addGateway name kind address identityFile knownHostsPath) =>
    match checkAdd sh.memory.gateways name kind with
    | .error message => some (sh, .answered ⟨false, message⟩)
    | .ok () => some (sh, .pushing (newEntry name address identityFile knownHostsPath))
  | .start (.removeGateway name) =>
    match removeEntry sh.memory.gateways name with
    | .error message => some (sh, .answered ⟨false, message⟩)
    | .ok gateways =>
      some ({ sh.setGateways gateways with kept := sh.kept.filter (·.2 ≠ trim name) },
        .cloning (.remove (trim name) (sh.kept.filter (·.2 = trim name))))
  | .start (.other mutationType) =>
    some (sh, .answered ⟨false, "unknown mutation_type: '" ++ mutationType ++ "'"⟩)
  | .pushing entry =>
    some ({ sh.setGateways (sh.memory.gateways ++ [entry]) with
      kept := sh.kept ++ [(i, entry.name)] }, .cloning (.add entry))
  | .cloning change => some (sh, .writing change sh.memory)
  | .writing change config =>
    match config.print toml p with
    | .error _ =>
      (failWrite "failed to serialize config to TOML" (.writing change config)).map (sh, ·)
    | .ok text => some ({ sh with disk := .content text }, .reloading change change.succeeded)
  | .rollingBack entry error =>
    some ({ sh.setGateways (without sh.memory.gateways entry.name) with
      kept := sh.kept.filter (· ≠ (i, entry.name)) }, .answered (failedToWrite error))
  -- `reload_config` keeps the prior configuration where it does not like the new one
  | .reloading change answer =>
    match load toml p dir sh.disk with
    | .error _ => some (sh.answer change answer, .answered answer)
    | .ok config =>
      match validateGateways config.gateways with
      | .error _ => some (sh.answer change answer, .answered answer)
      | .ok () => some (sh, .swapping change answer config)
  | .swapping change answer config =>
    some ({ sh with memory := { sh.memory with
      gateways := config.gateways, audit := config.audit } }.answer change answer,
        .answered answer)
  | .answered _ => none

structure State (T : Type) where
  shared : Shared T
  requests : List Phase

inductive Event
  | request (mutation : Mutation)
  | turn (i : ℕ)
  | failWrite (i : ℕ) (error : Str)

def step (s : State T) : Event → Option (State T)
  | .request mutation => some { s with requests := s.requests ++ [.start mutation] }
  | .turn i => do
    let phase ← s.requests[i]?
    let (shared, phase') ← advance toml p dir i s.shared phase
    some ⟨shared, s.requests.set i phase'⟩
  | .failWrite i error => do
    let phase ← s.requests[i]?
    let phase' ← failWrite error phase
    some { s with requests := s.requests.set i phase' }

def started (config : AppConfig) (disk : FileContent T) : State T := ⟨⟨config, disk, []⟩, []⟩

/-- The step is the one with which the `i`-th request answers. -/
def Answers (s s' : State T) (i : ℕ) (response : UpdateConfigResponse) : Prop :=
  s'.requests[i]? = some (.answered response) ∧ s.requests[i]? ≠ some (.answered response)
  deriving Decidable

instance (disk : FileContent T) (gateways : List GatewayConfig) :
    Decidable (∃ c, load toml p dir disk = .ok c ∧
      (c.gateways.map GatewayConfig.name).Nodup ∧ gateways = c.gateways) :=
  match load toml p dir disk with
  | .ok c => decidable_of_iff
      ((c.gateways.map GatewayConfig.name).Nodup ∧ gateways = c.gateways) (by simp)
  | .error _ => isFalse (by simp)

/-- What holds when the `i`-th request answers: after a success the file loads, with unique names
and the gateways that are in memory; after a failure the entries of the other requests are in
place. -/
def AnswerHolds (sh : Shared T) (i : ℕ) (response : UpdateConfigResponse) : Prop :=
  if response.success then
    ∃ c, load toml p dir sh.disk = .ok c ∧ (c.gateways.map GatewayConfig.name).Nodup ∧
      sh.memory.gateways = c.gateways
  else ∀ entry ∈ sh.kept, entry.1 ≠ i → entry.2 ∈ sh.memory.gateways.map GatewayConfig.name
  deriving Decidable

/-! ### Requests one after the other -/

/-- The request has begun and has not answered. -/
def Phase.inFlight : Phase → Bool
  | .start _ | .answered _ => false
  | _ => true

/-- The mutation leaves a file that loads: a new gateway has an address and paths that can be
expanded, and a gateway that is removed is not one of `ssh.fallback`. -/
def Harmless (memory : AppConfig) : Mutation → Prop
  | .addGateway name _ address identityFile knownHostsPath =>
    address ≠ [] ∧ ((newEntry name address identityFile knownHostsPath).expandPaths p).isOk
  | .removeGateway name => .gateway (trim name) ∉ memory.ssh.fallback
  | .other _ => True

/-- A request begins only while no other is in flight, and with a harmless mutation. -/
def MayBegin (s : State T) : Phase → Prop
  | .start mutation =>
    (∀ phase ∈ s.requests, phase.inFlight = false) ∧ Harmless p s.shared.memory mutation
  | _ => True

def Serial (s : State T) : Event → Prop
  | .turn i => ∀ phase ∈ s.requests[i]?, MayBegin p s phase
  | _ => True

/-! ### The invariant -/

/-- At rest: memory is what the file loads to, with the entries of all requests. -/
structure Settled (sh : Shared T) : Prop where
  agreed : load toml p dir sh.disk = .ok sh.memory
  kept : ∀ entry ∈ sh.kept, entry.2 ∈ sh.memory.gateways.map GatewayConfig.name

structure Addable (c : AppConfig) (entry : GatewayConfig) : Prop
    extends Appendable p c entry where
  name_ne_nil : entry.name ≠ []

/-- Memory is what the file loads to, but for the change. -/
def Changed (i : ℕ) (sh : Shared T) : Change → Prop
  | .add entry => ∃ c, load toml p dir sh.disk = .ok c ∧
      sh.memory = { c with gateways := c.gateways ++ [entry] } ∧ Addable p c entry ∧
        ∀ e ∈ sh.kept, e = (i, entry.name) ∨ e.2 ∈ c.gateways.map GatewayConfig.name
  | .remove «alias» removed => ∃ c, load toml p dir sh.disk = .ok c ∧
      sh.memory = { c with gateways := without c.gateways «alias» } ∧
        «alias» ∈ c.gateways.map GatewayConfig.name ∧ .gateway «alias» ∉ c.ssh.fallback ∧
          (∀ e ∈ sh.kept, e.2 ∈ c.gateways.map GatewayConfig.name ∧ e.2 ≠ «alias») ∧
            ∀ e ∈ removed, e.2 ∈ c.gateways.map GatewayConfig.name

/-- Memory differs from what was loaded in its gateways only, and the load brings the entries of
all requests back. -/
def Reloads (sh : Shared T) (c : AppConfig) (change : Change) (response : UpdateConfigResponse) :
    Prop :=
  c = { sh.memory with gateways := c.gateways } ∧
    ∀ e ∈ (sh.answer change response).kept, e.2 ∈ c.gateways.map GatewayConfig.name

def Fits (i : ℕ) (sh : Shared T) : Phase → Prop
  | .start _ | .answered _ => Settled toml p dir sh
  | .pushing entry => Settled toml p dir sh ∧ Addable p sh.memory entry
  | .cloning change => Changed toml p dir i sh change
  | .writing change config => Changed toml p dir i sh change ∧ config = sh.memory
  | .rollingBack entry _ => Changed toml p dir i sh (.add entry)
  | .reloading change response =>
    ∃ c, load toml p dir sh.disk = .ok c ∧ Reloads sh c change response
  | .swapping change response c =>
    load toml p dir sh.disk = .ok c ∧ Reloads sh c change response

end Steps

variable {T : Type} {toml : TomlText T} {p : Process} {dir : Option Str} {i : ℕ}
  {sh sh' : Shared T} {phase phase' : Phase}

lemma Settled.holds (htoml : toml.RoundTrips) (h : Settled toml p dir sh) (i : ℕ)
    (response : UpdateConfigResponse) : AnswerHolds toml p dir sh i response := by
  rw [AnswerHolds]
  split_ifs
  · exact ⟨sh.memory, h.agreed, (loaded_of_load htoml h.agreed).gateways.nodup, rfl⟩
  · exact fun entry hentry _ => h.kept entry hentry

/-! ### Steps of one request -/

lemma fits_of_start {mutation : Mutation} (h : Settled toml p dir sh)
    (hharmless : Harmless p sh.memory mutation)
    (hadvance : advance toml p dir i sh (.start mutation) = some (sh', phase')) :
    Fits toml p dir i sh' phase' := by
  revert hharmless hadvance
  generalize hphase : Phase.start mutation = phase
  fun_cases advance toml p dir i sh phase <;> intro hharmless hadvance <;> cases hphase <;>
    cases hadvance
  · exact h
  next hcheck =>
    obtain ⟨hempty, hreserved, hfresh⟩ := checkAdd_ok hcheck
    obtain ⟨haddress, hexpands⟩ := hharmless
    exact ⟨h, {
      notReserved := hreserved
      fresh := hfresh
      required_ne_nil := haddress
      expands := isOk_iff.1 hexpands
      leaves := rfl
      name_ne_nil := hempty }⟩
  · exact h
  next hremove =>
    obtain ⟨rfl, hmem⟩ := removeEntry_ok hremove
    refine ⟨sh.memory, h.agreed, rfl, hmem, hharmless, fun e he => ?_, fun e he => ?_⟩
    · obtain ⟨he, hne⟩ := mem_filter.1 he
      exact ⟨h.kept e he, of_decide_eq_true hne⟩
    · exact h.kept e (mem_of_mem_filter he)
  · exact h

variable {entry : GatewayConfig} {change : Change} {error : Str} {response : UpdateConfigResponse}
  {text : T}

lemma fits_of_pushing (h : Settled toml p dir sh) (hentry : Addable p sh.memory entry) :
    Changed toml p dir i { sh.setGateways (sh.memory.gateways ++ [entry]) with
      kept := sh.kept ++ [(i, entry.name)] } (.add entry) := by
  refine ⟨sh.memory, h.agreed, rfl, hentry, fun e he => ?_⟩
  rcases mem_append.1 he with he | he
  · exact .inr (h.kept e he)
  · exact .inl (mem_singleton.1 he)

/-- A removal that could not be written reloads the old file. -/
lemma fits_of_failWrite {config : AppConfig} (h : Changed toml p dir i sh change)
    (hfail : failWrite error (.writing change config) = some phase') :
    Fits toml p dir i sh phase' := by
  cases change with
  | add entry =>
    cases hfail
    exact h
  | remove «alias» removed =>
    cases hfail
    obtain ⟨c, hload, hmemory, -, -, hkept, hremoved⟩ := h
    refine ⟨c, hload, by rw [hmemory], fun e he => ?_⟩
    rcases mem_append.1 he with he | he
    · exact (hkept e he).1
    · exact hremoved e he

lemma fits_of_rollback (h : Changed toml p dir i sh (.add entry)) :
    Settled toml p dir { sh.setGateways (without sh.memory.gateways entry.name) with
      kept := sh.kept.filter (· ≠ (i, entry.name)) } := by
  obtain ⟨c, hload, hmemory, hentry, hkept⟩ := h
  have hback : { sh.memory with gateways := without sh.memory.gateways entry.name } = c := by
    rw [hmemory, without_append hentry.fresh]
  refine ⟨hload.trans (congrArg Except.ok hback.symm), fun e he => ?_⟩
  obtain ⟨he, hne⟩ := mem_filter.1 he
  rw [hmemory, without_append hentry.fresh]
  exact (hkept e he).resolve_left (of_decide_eq_true hne)

lemma answer_eq (change : Change) (response : UpdateConfigResponse) (memory : AppConfig) :
    { sh with memory }.answer change response =
      { sh with memory := memory, kept := (sh.answer change response).kept } := by
  cases change with
  | add entry => rfl
  | remove «alias» removed =>
    rw [Shared.answer, Shared.answer]
    split_ifs <;> rfl

lemma fits_of_swap {c : AppConfig} (hload : load toml p dir sh.disk = .ok c)
    (h : Reloads sh c change response) :
    Settled toml p dir ({ sh with memory := { sh.memory with
      gateways := c.gateways, audit := c.audit } }.answer change response) := by
  have hmemory : { sh.memory with gateways := c.gateways, audit := c.audit } = c := by
    rw [h.1]
  rw [hmemory, answer_eq]
  exact ⟨hload, h.2⟩

/-! ### Runs -/

variable {s s' : State T} {e : Event} {config : AppConfig} {disk : FileContent T}

/-- No request but the `i`-th is in flight. -/
def OthersIdle (s : State T) (i : ℕ) : Prop :=
  ∀ {j phase}, j ≠ i → s.requests[j]? = some phase → phase.inFlight = false

def FitsAt (toml : TomlText T) (p : Process) (dir : Option Str) (s : State T) (i : ℕ) : Prop :=
  match s.requests[i]? with
  | some phase => Fits toml p dir i s.shared phase
  | none => Settled toml p dir s.shared

/-- One request may be in flight, and memory and file are as it has left them. -/
def Consistent (toml : TomlText T) (p : Process) (dir : Option Str) (s : State T) : Prop :=
  ∃ i, OthersIdle s i ∧ FitsAt toml p dir s i

lemma Consistent.settled (h : Consistent toml p dir s)
    (hidle : ∀ phase ∈ s.requests, phase.inFlight = false) : Settled toml p dir s.shared := by
  obtain ⟨i, -, hfits⟩ := h
  rw [FitsAt] at hfits
  cases hphase : s.requests[i]? with
  | none => simpa [hphase] using hfits
  | some phase =>
    simp only [hphase] at hfits
    have hphase := hidle phase (mem_of_getElem? hphase)
    cases phase with
    | start | answered => exact hfits
    | _ => cases hphase

/-- The request that is in flight is the one that the invariant is about. -/
lemma Consistent.fits (h : Consistent toml p dir s) (hphase : s.requests[i]? = some phase)
    (hbegun : phase.inFlight) : OthersIdle s i ∧ Fits toml p dir i s.shared phase := by
  obtain ⟨j, hothers, hfits⟩ := h
  have hij : i = j := by
    by_contra hne
    rw [hothers hne hphase] at hbegun
    cases hbegun
  subst hij
  simp only [FitsAt, hphase] at hfits
  exact ⟨hothers, hfits⟩

lemma consistent_set (hothers : OthersIdle s i) (hphase : s.requests[i]? = some phase)
    (hfits : Fits toml p dir i sh' phase') :
    Consistent toml p dir ⟨sh', s.requests.set i phase'⟩ := by
  refine ⟨i, fun {j phase''} hne hj => ?_, ?_⟩
  · rw [List.getElem?_set_ne hne.symm] at hj
    exact hothers hne hj
  · have hself : (s.requests.set i phase')[i]? = some phase' :=
      List.getElem?_set_self (List.getElem?_eq_some_iff.1 hphase).1
    simp only [FitsAt, hself]
    exact hfits

lemma consistent_request (h : Consistent toml p dir s) (mutation : Mutation) :
    Consistent toml p dir { s with requests := s.requests ++ [.start mutation] } := by
  have hnew : ∀ {j : ℕ} {phase : Phase}, (s.requests ++ [.start mutation])[j]? = some phase →
      s.requests[j]? = some phase ∨ s.requests[j]? = none ∧ phase = .start mutation := by
    intro j phase hj
    rw [getElem?_append] at hj
    split_ifs at hj with hlt
    · exact .inl hj
    · exact .inr ⟨getElem?_eq_none (not_lt.1 hlt), mem_singleton.1 (mem_of_getElem? hj)⟩
  obtain ⟨i, hothers, hfits⟩ := h
  refine ⟨i, fun {j phase} hne hj => ?_, ?_⟩
  · rcases hnew hj with hold | ⟨-, rfl⟩
    · exact hothers hne hold
    · rfl
  · rw [FitsAt] at hfits ⊢
    cases hi : (s.requests ++ [.start mutation])[i]? with
    | none =>
      have hnone : s.requests[i]? = none := by
        rw [getElem?_eq_none_iff] at hi ⊢
        simp only [length_append] at hi
        omega
      simpa [hnone] using hfits
    | some phase =>
      rcases hnew hi with hold | ⟨hnone, rfl⟩
      · simpa [hold] using hfits
      · simp only [hnone] at hfits
        exact hfits

lemma fits_of_fail (h : Consistent toml p dir s) (hphase : s.requests[i]? = some phase)
    (hfail : failWrite error phase = some phase') :
    OthersIdle s i ∧ Fits toml p dir i s.shared phase' := by
  cases phase with
  | writing change config =>
    obtain ⟨hothers, hfits⟩ := h.fits hphase rfl
    exact ⟨hothers, fits_of_failWrite hfits.1 hfail⟩
  | _ => cases hfail

lemma consistent_started (hload : load toml p dir disk = .ok config) :
    Consistent toml p dir (started config disk) := by
  refine ⟨0, fun _ hj => ?_, hload, fun entry hentry => ?_⟩
  · cases hj
  · cases hentry

/-! ### Texts that are read back -/

section RoundTrips

variable (htoml : toml.RoundTrips) (hhome : AbsoluteHome p)

include htoml hhome

/-- The file that is written loads. -/
lemma fits_of_written (h : Changed toml p dir i sh change)
    (hprint : sh.memory.print toml p = .ok text) :
    ∃ c, load toml p dir (.content text) = .ok c ∧
      Reloads { sh with disk := .content text } c change change.succeeded := by
  cases change with
  | add entry =>
    obtain ⟨c, hload, hmemory, hentry, hkept⟩ := h
    have hc := loaded_of_load htoml hload
    obtain ⟨hothers, hgateways⟩ := stable_iff.1 (stable_of_load hhome hload)
    obtain ⟨entry', hentry'⟩ := hentry.expands
    have hsound := (sound_append hc.gateways hentry.toAppendable hentry').2 hentry.name_ne_nil
    refine ⟨{ c with gateways := c.gateways ++ [entry'] }, ?_, ?_, fun e he => ?_⟩
    · rw [hmemory] at hprint
      exact (reload_ok htoml hc (leaves_append hentry.leaves) hprint _).2
        ⟨hothers, mapM_append_singleton.2 ⟨hgateways, hentry'⟩, hsound⟩
    · rw [hmemory]
    · rw [map_append, mem_append, map_singleton, (name_of_expandPaths hentry').1]
      rcases hkept e he with rfl | hname
      · exact .inr (mem_singleton_self _)
      · exact .inl hname
  | remove «alias» removed =>
    obtain ⟨c, hload, hmemory, hname, hfallback, hkept, -⟩ := h
    have hc := loaded_of_load htoml hload
    obtain ⟨hothers, hgateways⟩ := stable_iff.1 (stable_of_load hhome hload)
    have hrest := mapM_self.2 fun g (hg : g ∈ without c.gateways «alias») =>
      mapM_self.1 hgateways g (mem_of_mem_filter hg)
    refine ⟨{ c with gateways := without c.gateways «alias» }, ?_, ?_, fun e he => ?_⟩
    · rw [hmemory] at hprint
      exact (reload_ok htoml hc (leaves_without «alias») hprint _).2
        ⟨hothers, hrest, (sound_without hc.gateways hname).2 hfallback⟩
    · rw [hmemory]
    · obtain ⟨hmem, hne⟩ := hkept e he
      rw [names_without]
      exact mem_filter.2 ⟨hmem, decide_eq_true hne⟩

lemma fits_of_advance (h : Fits toml p dir i sh phase)
    (hbegun : phase.inFlight) (hadvance : advance toml p dir i sh phase = some (sh', phase')) :
    Fits toml p dir i sh' phase' := by
  cases phase with
  | start | answered => cases hbegun
  | pushing entry =>
    cases hadvance
    exact fits_of_pushing h.1 h.2
  | cloning change =>
    cases hadvance
    exact ⟨h, rfl⟩
  | writing change config =>
    obtain ⟨hchanged, rfl⟩ := h
    cases hprint : sh.memory.print toml p with
    | error e =>
      simp only [advance, hprint] at hadvance
      obtain ⟨phase'', hfail, hsame⟩ := Option.map_eq_some_iff.1 hadvance
      cases hsame
      exact fits_of_failWrite hchanged hfail
    | ok text =>
      simp only [advance, hprint] at hadvance
      cases hadvance
      exact fits_of_written htoml hhome hchanged hprint
  | rollingBack entry error =>
    cases hadvance
    exact fits_of_rollback h
  | reloading change response =>
    obtain ⟨c, hload, hreloads⟩ := h
    have hvalid : validateGateways c.gateways = .ok () :=
      validateGateways_ok.2 ⟨(loaded_of_load htoml hload).gateways.valid,
        (loaded_of_load htoml hload).gateways.nodup⟩
    simp only [advance, hload, hvalid] at hadvance
    cases hadvance
    exact ⟨hload, hreloads⟩
  | swapping change response c =>
    cases hadvance
    exact fits_of_swap h.1 h.2

lemma fits_of_turn (h : Consistent toml p dir s)
    (hserial : Serial p s (.turn i))
    (hphase : s.requests[i]? = some phase)
    (hadvance : advance toml p dir i s.shared phase = some (sh', phase')) :
    OthersIdle s i ∧ Fits toml p dir i sh' phase' := by
  cases hbegun : phase.inFlight with
  | true =>
    obtain ⟨hothers, hfits⟩ := h.fits hphase hbegun
    exact ⟨hothers, fits_of_advance htoml hhome hfits hbegun hadvance⟩
  | false =>
    cases phase with
    | start mutation =>
      obtain ⟨hidle, hharmless⟩ := hserial _ hphase
      refine ⟨fun _ hj => hidle _ (mem_of_getElem? hj), ?_⟩
      exact fits_of_start (h.settled hidle) hharmless hadvance
    | answered response => cases hadvance
    | _ => cases hbegun

/-- An event is a new request, or a step of one that leaves it as the invariant has it. -/
lemma fits_of_step (h : Consistent toml p dir s) (hserial : Serial p s e)
    (hstep : step toml p dir s e = some s') :
    (∃ mutation, s' = { s with requests := s.requests ++ [.start mutation] }) ∨
      ∃ i phase phase' sh', s' = ⟨sh', s.requests.set i phase'⟩ ∧ s.requests[i]? = some phase ∧
        OthersIdle s i ∧ Fits toml p dir i sh' phase' := by
  cases e with
  | request mutation =>
    cases hstep
    exact .inl ⟨mutation, rfl⟩
  | turn i =>
    obtain ⟨phase, hphase, hstep⟩ := Option.bind_eq_some_iff.1 hstep
    obtain ⟨⟨sh', phase'⟩, hadvance, hstep⟩ := Option.bind_eq_some_iff.1 hstep
    cases hstep
    exact .inr ⟨i, phase, phase', sh', rfl, hphase,
      fits_of_turn htoml hhome h hserial hphase hadvance⟩
  | failWrite i error =>
    obtain ⟨phase, hphase, hstep⟩ := Option.bind_eq_some_iff.1 hstep
    obtain ⟨phase', hfail, hstep⟩ := Option.bind_eq_some_iff.1 hstep
    cases hstep
    exact .inr ⟨i, phase, phase', s.shared, rfl, hphase, fits_of_fail h hphase hfail⟩

lemma step_consistent (h : Consistent toml p dir s) (hserial : Serial p s e)
    (hstep : step toml p dir s e = some s') : Consistent toml p dir s' := by
  obtain ⟨mutation, rfl⟩ | ⟨i, phase, phase', sh', rfl, hphase, hothers, hfits⟩ :=
    fits_of_step htoml hhome h hserial hstep
  · exact consistent_request h mutation
  · exact consistent_set hothers hphase hfits

/-- A request that answers leaves memory and file at rest. -/
lemma settled_of_answers (h : Consistent toml p dir s)
    (hserial : Serial p s e) (hstep : step toml p dir s e = some s')
    (hanswers : Answers s s' i response) : Settled toml p dir s'.shared := by
  obtain ⟨hanswered, hold⟩ := hanswers
  obtain ⟨mutation, rfl⟩ | ⟨j, phase, phase', sh', rfl, hphase, -, hfits⟩ :=
    fits_of_step htoml hhome h hserial hstep
  · rw [List.getElem?_append] at hanswered
    split_ifs at hanswered
    · exact absurd hanswered hold
    · cases List.mem_singleton.1 (List.mem_of_getElem? hanswered)
  · -- the step has changed the phase of the request
    by_cases hji : j = i
    · subst hji
      rw [List.getElem?_set_self (List.getElem?_eq_some_iff.1 hphase).1] at hanswered
      cases hanswered
      exact hfits
    · rw [List.getElem?_set_ne hji] at hanswered
      exact absurd hanswered hold

end RoundTrips

/-- **Updates of the configuration**: in a run in which requests begin one after the other, with
harmless mutations, the file and memory agree whenever one succeeds, and one that fails leaves the
entries of the others in place. -/
theorem update_config_answer_holds {events : List Event} (htoml : toml.RoundTrips)
    (hhome : AbsoluteHome p)
    (hload : load toml p dir disk = .ok config)
    (hmeets : Meets (step toml p dir) (Serial p) (started config disk) events)
    (hrun : run (step toml p dir) (started config disk) events = some s) (hserial : Serial p s e)
    (hstep : step toml p dir s e = some s') {response : UpdateConfigResponse}
    (hanswers : Answers s s' i response) : AnswerHolds toml p dir s'.shared i response := by
  have hconsistent : Consistent toml p dir s :=
    run_invariant (fun h hserial hstep => step_consistent htoml hhome h hserial hstep)
      (consistent_started hload) hmeets hrun
  exact (settled_of_answers htoml hhome hconsistent hserial hstep hanswers).holds htoml i response

/-! ### Some runs -/

instance (p : Process) (memory : AppConfig) (mutation : Mutation) :
    Decidable (Harmless p memory mutation) :=
  match mutation with
  | .addGateway _ _ _ _ _ => inferInstanceAs (Decidable (_ ∧ _))
  | .removeGateway _ => inferInstanceAs (Decidable (_ ∉ _))
  | .other _ => isTrue trivial

instance (p : Process) (s : State T) (phase : Phase) : Decidable (MayBegin p s phase) :=
  match phase with
  | .start _ => inferInstanceAs (Decidable (_ ∧ _))
  | .pushing _ | .cloning _ | .writing _ _ | .rollingBack _ _ | .reloading _ _
  | .swapping _ _ _ | .answered _ => isTrue trivial

instance (p : Process) (s : State T) (e : Event) : Decidable (Serial p s e) :=
  match e with
  | .request _ | .failWrite _ _ => isTrue trivial
  | .turn _ => inferInstanceAs (Decidable (∀ phase ∈ _, MayBegin p s phase))

def defaultText : Option (AppConfig × List (Str × Str)) := some (.default bareHost, [])

def initial : State (Option (AppConfig × List (Str × Str))) :=
  started (loadOrDefault parsedText bareHost none (.content defaultText)) (.content defaultText)

def addEdge (address : Str) : Event :=
  .request (.addGateway "edge" "xhod" address [] [])

def edgeAdded : UpdateConfigResponse := ⟨true, "gateway 'edge' added successfully"⟩

theorem update_config_answer_holds_added :
    ∃ s s', run (step parsedText bareHost none) initial
        ([addEdge "h"] ++ List.replicate 5 (.turn 0)) = some s ∧
      step parsedText bareHost none s (.turn 0) = some s' ∧ Answers s s' 0 edgeAdded ∧
      AnswerHolds parsedText bareHost none s'.shared 0 edgeAdded := by
  have hend : ((run (step parsedText bareHost none) initial
      ([addEdge "h"] ++ replicate 5 (.turn 0))).bind fun s =>
        (step parsedText bareHost none s (.turn 0)).filter fun s' =>
          Serial bareHost s (.turn 0) ∧ Answers s s' 0 edgeAdded).isSome := by
    decide +kernel
  obtain ⟨s', hend⟩ := Option.isSome_iff_exists.1 hend
  obtain ⟨s, hrun, hend⟩ := Option.bind_eq_some_iff.1 hend
  obtain ⟨hstep, hlast⟩ := Option.filter_eq_some_iff.1 hend
  obtain ⟨hserial, hanswers⟩ := of_decide_eq_true hlast
  have hload : (load parsedText bareHost none (.content defaultText)).isOk := by decide +kernel
  refine ⟨s, s', hrun, hstep, hanswers, ?_⟩
  exact update_config_answer_holds parsedText_roundTrips absoluteHome_bareHost
    (load_of_isOk hload) (by decide +kernel) hrun hserial hstep hanswers

/-- A request answers at the end of the run, and what should hold then does not. -/
def Breaks (events : List Event) (e : Event) (i : ℕ) (response : UpdateConfigResponse) : Prop :=
  ∃ s s', run (step parsedText bareHost none) initial events = some s ∧
    step parsedText bareHost none s e = some s' ∧ Answers s s' i response ∧
      ¬ AnswerHolds parsedText bareHost none s'.shared i response

lemma breaks_of_run {events : List Event}
    (h : ((run (step parsedText bareHost none) initial events).bind fun s =>
      (step parsedText bareHost none s e).filter fun s' =>
        Answers s s' i response ∧
          ¬ AnswerHolds parsedText bareHost none s'.shared i response).isSome) :
    Breaks events e i response := by
  obtain ⟨s', h⟩ := Option.isSome_iff_exists.1 h
  obtain ⟨s, hrun, h⟩ := Option.bind_eq_some_iff.1 h
  obtain ⟨hstep, hlast⟩ := Option.filter_eq_some_iff.1 h
  exact ⟨s, s', hrun, hstep, of_decide_eq_true hlast⟩

/-- Two requests that both find the name free: both push it, and the first succeeds with a file
that does not load. -/
def bothPush : List Event :=
  [addEdge "h", addEdge "h", .turn 0, .turn 1, .turn 0, .turn 1]

/-- A request succeeds with a file that does not load, in a race for a name or, on its own, with an
empty address; and one that fails takes the entry of the other along. -/
theorem update_config_breaks :
    Breaks (bothPush ++ [.turn 0, .turn 0]) (.turn 0) 0 edgeAdded ∧
    Breaks ([addEdge []] ++ List.replicate 4 (.turn 0)) (.turn 0) 0 edgeAdded ∧
    Breaks (bothPush ++ [.turn 1, .failWrite 1 []]) (.turn 1) 1 (failedToWrite []) := by
  refine ⟨breaks_of_run ?_, breaks_of_run ?_, breaks_of_run ?_⟩ <;> decide +kernel

end CrossHostOps.ConfigUpdate
