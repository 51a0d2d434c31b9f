import CrossHostOps.Config
import CrossHostOps.Inodes
import CrossHostOps.Runs

/-!
`atomic_write_config` in a daemon with any number of calls at once: each clones the configuration,
writes its text to `.config.toml.tmp.{pid}` and renames that over `config.toml`. Opening the file,
each write and the rename are steps of their own.
-/

namespace CrossHostOps.AtomicWrite

open Text Config Inodes Runs List

/-- The names in the directory of the configuration that the calls use. -/
inductive Name
  | config
  | tmp
  deriving DecidableEq

/-- Where a call stands. One that has returned `Ok` keeps what its rename has put at
`config_path`. -/
inductive Call
  | cloned (text : Bytes)
  | writing (text : Bytes) (handle offset : ℕ)
  | closed (text : Bytes)
  | installed (text content : Bytes)
  | failed
  deriving DecidableEq

/-- The state of the daemon. `past` are the configurations it has had in memory, the present one
included. -/
structure State where
  memory : AppConfig
  past : List AppConfig
  files : Directory Name UInt8
  calls : List Call

inductive Event
  | mutate (config : AppConfig)
  | call
  | openTmp (i : ℕ)
  | writeTmp (i count : ℕ)
  | closeTmp (i : ℕ)
  | renameTmp (i : ℕ)
  | fail (i : ℕ)

def State.setCall (s : State) (i : ℕ) (call : Call) : State :=
  { s with calls := s.calls.set i call }

-- the text that `toml::to_string_pretty` makes of a configuration
variable (serialize : AppConfig → Bytes)

def step (s : State) : Event → Option State
  | .mutate config => some { s with memory := config, past := config :: s.past }
  | .call => some { s with calls := s.calls ++ [.cloned (serialize s.memory)] }
  | .openTmp i =>
    match s.calls[i]? with
    | some (.cloned text) =>
      let (files, handle) := s.files.openTruncate .tmp
      some ({ s with files }.setCall i (.writing text handle 0))
    | _ => none
  | .writeTmp i count =>
    match s.calls[i]? with
    | some (.writing text handle offset) =>
      if 0 < count ∧ offset + count ≤ text.length then
        let files := s.files.writeAt 0 handle offset ((text.drop offset).take count)
        some ({ s with files }.setCall i (.writing text handle (offset + count)))
      else none
    | _ => none
  | .closeTmp i =>
    match s.calls[i]? with
    | some (.writing text _ offset) =>
      if offset = text.length then some (s.setCall i (.closed text)) else none
    | _ => none
  | .renameTmp i =>
    match s.calls[i]? with
    | some (.closed text) =>
      match s.files.rename .tmp .config with
      | some files =>
        some ({ s with files }.setCall i (.installed text ((files.content .config).getD [])))
      | none => some (s.setCall i .failed)
    | _ => none
  | .fail i =>
    match s.calls[i]? with
    | some (.cloned _) | some (.writing _ _ _) | some (.closed _) => some (s.setCall i .failed)
    | _ => none

/-- The call is between its open and its rename. -/
def Call.usesTmp : Call → Bool
  | .writing _ _ _ | .closed _ => true
  | _ => false

/-- A call opens the temporary file only while no other call uses it. -/
def Alone (s : State) : Event → Prop
  | .openTmp _ => ∀ call ∈ s.calls, call.usesTmp = false
  | _ => True

/-- The text of a configuration that has been in memory. -/
def Whole (past : List AppConfig) (text : Bytes) : Prop := ∃ c ∈ past, text = serialize c

/-- The file at `config_path` is the original one or the whole text of a configuration that has
been in memory, and each call that has returned `Ok` has put its own text there. -/
structure Intact (original : Option Bytes) (s : State) : Prop where
  whole : s.files.content .config = original ∨
    ∃ text, s.files.content .config = some text ∧ Whole serialize s.past text
  own : ∀ {text content}, .installed text content ∈ s.calls → content = text

/-! ### The invariant -/

/-- A call has the text of a configuration, and a call that uses the temporary file has put there
what it has written. -/
def Fits (files : Directory Name UInt8) (past : List AppConfig) : Call → Prop
  | .cloned text => Whole serialize past text
  | .writing text handle offset => Whole serialize past text ∧ files.entry .tmp = some handle ∧
      files.data handle = text.take offset ∧ offset ≤ text.length
  | .closed text => Whole serialize past text ∧ files.content .tmp = some text
  | .installed text content => content = text
  | .failed => True

structure Consistent (original : Option Bytes) (s : State) : Prop where
  memory : s.memory ∈ s.past
  whole : s.files.content .config = original ∨
    ∃ text, s.files.content .config = some text ∧ Whole serialize s.past text
  fits : ∀ call ∈ s.calls, Fits serialize s.files s.past call
  single : ∀ {i j : ℕ} {call call' : Call}, s.calls[i]? = some call → s.calls[j]? = some call' →
    call.usesTmp → call'.usesTmp → i = j

variable {serialize} {original : Option Bytes} {s s' : State} {e : Event} {call new : Call} {i : ℕ}
  {files : Directory Name UInt8} {past past' : List AppConfig}

lemma Consistent.intact (h : Consistent serialize original s) : Intact serialize original s :=
  ⟨h.whole, fun hmem => h.fits _ hmem⟩

lemma Fits.of_idle {files' : Directory Name UInt8} (hidle : call.usesTmp = false)
    (h : Fits serialize files past call) : Fits serialize files' past call := by
  cases call with
  | cloned text => exact h
  | writing | closed => cases hidle
  | installed text content => exact h
  | failed => trivial

lemma Whole.mono (hpast : past ⊆ past') {text : Bytes} (h : Whole serialize past text) :
    Whole serialize past' text := by
  obtain ⟨c, hc, htext⟩ := h
  exact ⟨c, hpast hc, htext⟩

lemma Fits.mono (hpast : past ⊆ past') (h : Fits serialize files past call) :
    Fits serialize files past' call := by
  cases call with
  | cloned text => exact Whole.mono hpast h
  | writing | closed => exact ⟨h.1.mono hpast, h.2⟩
  | installed text content => exact h
  | failed => trivial

/-- No call but the `i`-th uses the temporary file. -/
def OthersIdle (s : State) (i : ℕ) : Prop :=
  ∀ {j call}, j ≠ i → s.calls[j]? = some call → call.usesTmp = false

lemma Consistent.othersIdle (h : Consistent serialize original s) (hcall : s.calls[i]? = some call)
    (huses : call.usesTmp) : OthersIdle s i := by
  intro j call' hne hcall'
  by_contra hbusy
  rw [Bool.not_eq_false] at hbusy
  exact hne (h.single hcall' hcall hbusy huses)

lemma getElem?_setCall {j : ℕ} (h : (s.setCall i new).calls[j]? = some call) :
    j = i ∧ call = new ∨ j ≠ i ∧ s.calls[j]? = some call := by
  rw [State.setCall] at h
  by_cases hj : j = i
  · subst hj
    rw [getElem?_set_self'] at h
    obtain ⟨_, -, hcall⟩ := Option.map_eq_some_iff.1 h
    exact .inl ⟨rfl, hcall.symm⟩
  · rw [getElem?_set_ne (Ne.symm hj)] at h
    exact .inr ⟨hj, h⟩

namespace Consistent

variable (h : Consistent serialize original s)

include h

/-- One call moves on: nobody else uses the temporary file, or it is not touched. -/
lemma setCall (hothers : OthersIdle s i ∨ files = s.files ∧ new.usesTmp = false)
    (hwhole : files.content .config = original ∨
      ∃ text, files.content .config = some text ∧ Whole serialize s.past text)
    (hnew : Fits serialize files s.past new) :
    Consistent serialize original ({ s with files }.setCall i new) := by
  refine ⟨h.memory, hwhole, fun call hcall => ?_, fun {j k call call'} hj hk huses huses' => ?_⟩
  · obtain ⟨j, hj⟩ := mem_iff_getElem?.1 hcall
    rcases getElem?_setCall hj with ⟨-, rfl⟩ | ⟨hne, hj⟩
    · exact hnew
    · have hfits := h.fits call (mem_iff_getElem?.2 ⟨j, hj⟩)
      rcases hothers with hidle | ⟨rfl, -⟩
      · exact hfits.of_idle (hidle hne hj)
      · exact hfits
  · rcases getElem?_setCall hj with ⟨rfl, rfl⟩ | ⟨hne, hold⟩ <;>
      rcases getElem?_setCall hk with ⟨rfl, rfl⟩ | ⟨hne', hold'⟩
    · rfl
    · rcases hothers with hidle | ⟨-, hidle⟩
      · exact absurd huses' (by rw [hidle hne' hold']; exact Bool.false_ne_true)
      · exact absurd huses (by rw [hidle]; exact Bool.false_ne_true)
    · rcases hothers with hidle | ⟨-, hidle⟩
      · exact absurd huses (by rw [hidle hne hold]; exact Bool.false_ne_true)
      · exact absurd huses' (by rw [hidle]; exact Bool.false_ne_true)
    · exact h.single hold hold' huses huses'

/-! ### Steps -/

lemma mutate (config : AppConfig) :
    Consistent serialize original { s with memory := config, past := config :: s.past } := by
  have hpast : s.past ⊆ config :: s.past := subset_cons_self _ _
  refine ⟨mem_cons_self, ?_, fun call hcall => (h.fits call hcall).mono hpast, h.single⟩
  exact h.whole.imp_right fun ⟨text, hcontent, htext⟩ => ⟨text, hcontent, htext.mono hpast⟩

lemma called :
    Consistent serialize original
      { s with calls := s.calls ++ [.cloned (serialize s.memory)] } := by
  have hold : ∀ {j : ℕ} {call : Call}, (s.calls ++ [.cloned (serialize s.memory)])[j]? = some call →
      call.usesTmp → s.calls[j]? = some call := by
    intro j call hj huses
    rw [getElem?_append] at hj
    split_ifs at hj
    · exact hj
    · cases mem_singleton.1 (mem_of_getElem? hj)
      cases huses
  refine ⟨h.memory, h.whole, ?_, fun hj hk huses huses' =>
    h.single (hold hj huses) (hold hk huses') huses huses'⟩
  rw [forall_mem_append, forall_mem_singleton]
  exact ⟨h.fits, s.memory, h.memory, rfl⟩

variable {text : Bytes} {handle : ℕ}

lemma opened (hcall : s.calls[i]? = some (.cloned text))
    (halone : ∀ call ∈ s.calls, call.usesTmp = false) :
    Consistent serialize original
      ({ s with files := (s.files.openTruncate .tmp).1 }.setCall i
        (.writing text (s.files.openTruncate .tmp).2 0)) := by
  obtain ⟨hentry, hdata⟩ := s.files.openTruncate_self Name.tmp
  have htext : Whole serialize s.past text := h.fits _ (mem_of_getElem? hcall)
  refine h.setCall (.inl fun _ hj => halone _ (mem_of_getElem? hj)) ?_ ?_
  · rw [Directory.content_openTruncate_of_ne Name.noConfusion]
    exact h.whole
  · exact ⟨htext, hentry, hdata, Nat.zero_le _⟩

lemma written {offset count : ℕ} (hcall : s.calls[i]? = some (.writing text handle offset))
    (hcount : offset + count ≤ text.length) :
    Consistent serialize original
      ({ s with files := s.files.writeAt 0 handle offset ((text.drop offset).take count) }.setCall i
        (.writing text handle (offset + count))) := by
  obtain ⟨htext, hentry, hdata, hle⟩ := h.fits _ (mem_of_getElem? hcall)
  refine h.setCall (.inl (h.othersIdle hcall rfl)) ?_ ⟨htext, hentry, ?_, hcount⟩
  · have hconfig : s.files.entry .config ≠ some handle := fun hconfig =>
      Name.noConfusion (s.files.inj hconfig hentry)
    rw [Directory.writeAt, Directory.content_setData_of_ne hconfig]
    exact h.whole
  · have hlength : (text.take offset).length = offset := length_take_of_le hle
    have hend := Directory.data_writeAt_end hdata 0 ((text.drop offset).take count)
    rw [hlength] at hend
    rw [hend, take_add]

lemma closed (hcall : s.calls[i]? = some (.writing text handle text.length)) :
    Consistent serialize original (s.setCall i (.closed text)) := by
  obtain ⟨htext, hentry, hdata, -⟩ := h.fits _ (mem_of_getElem? hcall)
  rw [take_length] at hdata
  exact h.setCall (.inl (h.othersIdle hcall rfl)) h.whole
    ⟨htext, Directory.content_eq_some hentry hdata⟩

lemma renamed (hcall : s.calls[i]? = some (.closed text))
    (hrename : s.files.rename .tmp .config = some files) :
    Consistent serialize original
      ({ s with files }.setCall i (.installed text ((files.content .config).getD []))) := by
  obtain ⟨htext, hcontent⟩ := h.fits _ (mem_of_getElem? hcall)
  have hinstalled : files.content .config = some text :=
    (Directory.rename_ok hrename).trans hcontent
  refine h.setCall (.inl (h.othersIdle hcall rfl)) (.inr ⟨text, hinstalled, htext⟩) ?_
  rw [hinstalled]
  exact rfl

lemma failed (i : ℕ) : Consistent serialize original (s.setCall i .failed) :=
  h.setCall (.inr ⟨rfl, rfl⟩) h.whole trivial

lemma step (halone : Alone s e) (hstep : AtomicWrite.step serialize s e = some s') :
    Consistent serialize original s' := by
  revert halone hstep
  fun_cases AtomicWrite.step serialize s e <;> intro halone hstep <;> cases hstep
  next config => exact h.mutate config
  · exact h.called
  next hcall _ _ hopen =>
    have hconsistent := h.opened hcall halone
    rwa [hopen] at hconsistent
  next hcall hcount _ => exact h.written hcall hcount.2
  next hcall => exact h.closed hcall
  next hcall _ hrename => exact h.renamed hcall hrename
  all_goals exact h.failed _

end Consistent

/-! ### Runs -/

def started (config : AppConfig) (files : Directory Name UInt8) : State where
  memory := config
  past := [config]
  files
  calls := []

lemma consistent_started (config : AppConfig) (files : Directory Name UInt8) :
    Consistent serialize (files.content .config) (started config files) where
  memory := mem_singleton_self config
  whole := .inl rfl
  fits _ h := nomatch h
  single h := nomatch h

/-- **The file is never torn** in a run in which no call opens the temporary file while another
uses it. -/
theorem config_file_intact {config : AppConfig} {files : Directory Name UInt8} {events : List Event}
    (hmeets : Meets (step serialize) Alone (started config files) events)
    (hrun : run (step serialize) (started config files) events = some s) :
    Intact serialize (files.content .config) s :=
  (run_invariant (fun h halone hstep => h.step halone hstep)
    (consistent_started config files) hmeets hrun).intact

/-! ### Two calls -/

/-- A text of two bytes that tells how many gateways there are. -/
def shortText (c : AppConfig) : Bytes := [1, UInt8.ofNat c.gateways.length]

def oneFile : Directory Name UInt8 where
  entry
    | .config => some 0
    | .tmp => none
  data _ := [7]
  next := 1
  lt_next {name i} h := by
    cases name with
    | config => exact Option.some.inj h ▸ Nat.one_pos
    | tmp => cases h
  inj {name name' i} h h' := by
    cases name with
    | config =>
      cases name' with
      | config => rfl
      | tmp => cases h'
    | tmp => cases h

instance (s : State) (e : Event) : Decidable (Alone s e) :=
  match e with
  | .openTmp _ => inferInstanceAs (Decidable (∀ call ∈ s.calls, call.usesTmp = false))
  | .mutate _ | .call | .writeTmp _ _ | .closeTmp _ | .renameTmp _ | .fail _ => isTrue trivial

def wholeWrite (i : ℕ) : List Event := [.openTmp i, .writeTmp i 1, .writeTmp i 1, .closeTmp i]

def inTurn : List Event :=
  [.call, .mutate { AppConfig.default bareHost with gateways := [.xhod ⟨[], [], [], []⟩] },
    .call] ++
    wholeWrite 0 ++ [.renameTmp 0] ++ wholeWrite 1 ++ [.renameTmp 1]

theorem config_file_intact_inTurn :
    ∃ s, run (step shortText) (started (.default bareHost) oneFile) inTurn = some s ∧
      Intact shortText (some [7]) s := by
  have hrun : (run (step shortText) (started (.default bareHost) oneFile) inTurn).isSome := by
    decide +kernel
  obtain ⟨s, hs⟩ := Option.isSome_iff_exists.1 hrun
  exact ⟨s, hs, config_file_intact (by decide +kernel) hs⟩

/-- Two calls at once: the second truncates what the first is about to rename, which then returns
`Ok` and leaves an empty file. -/
theorem config_file_torn :
    ∃ s, run (step shortText) (started (.default bareHost) oneFile)
        ([.call, .call] ++ wholeWrite 0 ++ [.openTmp 1, .renameTmp 0]) = some s ∧
      s.files.content .config = some [] ∧ .installed [1, 0] [] ∈ s.calls ∧
      ¬ Intact shortText (some [7]) s := by
  have hrun : (run (step shortText) (started (.default bareHost) oneFile)
      ([.call, .call] ++ wholeWrite 0 ++ [.openTmp 1, .renameTmp 0])).map
        (fun s => (s.files.content .config, s.calls)) =
      some (some [], [.installed [1, 0] [], .writing [1, 0] 1 0]) := by
    decide +kernel
  obtain ⟨s, hs, hend⟩ := Option.map_eq_some_iff.1 hrun
  rw [Prod.mk.injEq] at hend
  have hinstalled : .installed [1, 0] [] ∈ s.calls := by simp [hend.2]
  exact ⟨s, hs, hend.1, hinstalled, fun hintact => absurd (hintact.own hinstalled) (by decide)⟩

end CrossHostOps.AtomicWrite
