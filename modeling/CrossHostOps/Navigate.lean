import CrossHostOps.JumpserverEngine
import CrossHostOps.Results

/-!
`JumpserverGateway::navigate_to_asset`: from the first prompt of a bastion, through its menu and
the table of assets, to the shell of the asset.

The loop looks at what has arrived so far after each chunk, and acts on the first thing it
knows.
-/

namespace CrossHostOps.Navigate

open Text Utf8 Results JumpserverEngine List

/-- What is not the output of the bastion. -/
structure Bastion where
  /-- The MFA code, from the TOTP secret or from the user. -/
  mfaCode : Except Str Str
  /-- Whether the `n`-th line gets through. -/
  write : ℕ → Except Str Unit

inductive Line
  | mfa (code : Str)
  | search (ip : Str)
  | nextPage
  | assetId (id : Str)
  deriving DecidableEq

inductive NavError
  | read
  | write (message : Str)
  | mfa (message : Str)
  | engine (e : EngineError)
  | noExactMatchAfter (ip : Str) (pages : ℕ)
  | noPageStatus (ip : Str)
  | candidatesOnly (ip : Str)
  deriving DecidableEq

/-- The locals of the loop, and the shell. -/
structure Nav where
  pending : Bytes
  searchSent : Bool
  assetIdSent : Bool
  mfaSent : Bool
  /-- The chunks read so far. -/
  reads : ℕ
  /-- The lines sent so far, each with the chunks read before it. -/
  sent : List (Line × ℕ)
  deriving DecidableEq

namespace Nav

def new : Nav := ⟨[], false, false, false, 0, []⟩

def read (s : Nav) (chunk : Bytes) : Nav :=
  { s with pending := s.pending ++ chunk, reads := s.reads + 1 }

/-- `write_line` and `clear_pending`. -/
def send (s : Nav) (b : Bastion) (line : Line) : Except NavError Nav :=
  match b.write s.sent.length with
  | .ok _ => .ok { s with pending := [], sent := s.sent ++ [(line, s.reads)] }
  | .error e => .error (.write e)

/-- The asset ids sent so far, each with the chunks read before it. -/
def ids (s : Nav) : List (Str × ℕ) :=
  s.sent.filterMap fun (line, n) => match line with
    | .assetId id => some (id, n)
    | _ => none

end Nav

inductive Next
  | again (s : Nav)
  | arrived (s : Nav)

def engine {α : Type} (x : Except EngineError α) : Except NavError α := x.mapError .engine

variable (b : Bastion)

def sendMfa (s : Nav) : Except NavError Next := do
  let code ← b.mfaCode.mapError NavError.mfa
  let s ← s.send b (.mfa code)
  pure (.again { s with mfaSent := true })

def sendSearch (ip : Str) (s : Nav) : Except NavError Next := do
  let s ← s.send b (.search ip)
  pure (.again { s with searchSent := true })

def sendAssetId (id : Str) (s : Nav) : Except NavError Next := do
  let s ← s.send b (.assetId id)
  pure (.again { s with assetIdSent := true })

/-- At the prompt of a page: the next one, if there is one. -/
def turnPage (ip : Str) (status : Option PageStatus) (s : Nav) : Except NavError Next :=
  match status with
  | some status =>
    if status.current < status.total then (s.send b .nextPage).map .again
    else .error (.noExactMatchAfter ip status.total)
  | none => .error (.noPageStatus ip)

/-- The end of a turn: a shell prompt after the search ends the loop. -/
def settle (s : Nav) : Except NavError Next :=
  if s.searchSent && looksLikePrompt s.pending then .ok (.arrived s) else .ok (.again s)

/-- Between search and selection. -/
def choose (ip text : Str) (s : Nav) : Except NavError Next := do
  match ← engine (selectExactAssetId text ip) with
  | some id => sendAssetId b id s
  | none =>
    if ← engine (containsPagePrompt text) then turnPage b ip (← engine (parsePageStatus text)) s
    else if (← engine (containsMenuPrompt text)) && !(← engine (parseAssetRows text)).isEmpty then
      throw (.candidatesOnly ip)
    else settle s

/-- A check that is not made once its line is sent. -/
def unlessSent (sent : Bool) (check : Except EngineError Bool) : Except NavError Bool :=
  if sent then .ok false else engine check

def step (ip : Str) (s : Nav) (chunk : Bytes) : Except NavError Next := do
  let s := s.read chunk
  let text := decodeLossy s.pending
  if ← unlessSent s.mfaSent (containsMfaPrompt text) then sendMfa b s
  else if ← unlessSent s.searchSent (containsMenuPrompt text) then sendSearch b ip s
  else if s.searchSent && !s.assetIdSent then choose b ip text s
  else settle s

/-- The loop over the chunks that arrive; behind them a read fails. -/
def navigate (ip : Str) : List Bytes → Nav → Except NavError Nav
  | [], _ => .error .read
  | chunk :: chunks, s =>
    match step b ip s chunk with
    | .error e => .error e
    | .ok (.arrived s) => .ok { s with pending := [] }
    | .ok (.again s) => navigate ip chunks s

def navigateToAsset (target : Str) (chunks : List Bytes) : Except NavError Nav :=
  navigate b (deriveTargetIp target) chunks .new

/-! ### Pages -/

/-- The lines of a text that are complete. -/
def completeLines (s : Str) : Str := s.rdropWhile (· != '\n')

def targetRows (ip clean : Str) : List JumpserverAssetRow :=
  (assetRows clean).filter fun row => row.ip = ip

/-- A page has one row with the address, and the line of that row is complete. -/
def shows (page : Bytes) (row : JumpserverAssetRow) : Bool :=
  match stripAnsi (decodeLossy page) with
  | .error _ => false
  | .ok clean =>
    targetRows row.ip clean == [row] && targetRows row.ip (completeLines clean) == [row]

/-- Each chunk, with the page of which it is a piece. A page is all that the bastion shows until
it gets the next line. -/
def paged (pages : List (List Bytes)) : List (Bytes × Bytes) :=
  pages.flatMap fun page => page.map fun chunk => (chunk, page.flatten)

/-- Behind the first `reads` chunks one id was sent. It is not empty, and it is that of the only row
with the address on the page that was arriving. -/
def Selected (ip : Str) (reads : ℕ) (shown : List (Bytes × Bytes)) (t : Nav) : Prop :=
  ∃ id n chunk page, t.ids = [(id, reads + n + 1)] ∧ shown[n]? = some (chunk, page) ∧ id ≠ [] ∧
    shows page ⟨id, ip⟩ = true

/-- Between search and selection, what has arrived does not mislead: one row with the address has
an id and is the page's own, and where there is none yet nothing reads like a shell prompt. -/
def reliable (ip : Str) (page : Bytes) (s : Nav) (chunk : Bytes) : Bool :=
  !s.searchSent || s.assetIdSent ||
    match stripAnsi (decodeLossy (s.pending ++ chunk)) with
    | .error _ => true
    | .ok seen =>
      -- the turn answers an MFA prompt, whatever else there is
      (!s.mfaSent && contains mfaPrompt seen) ||
        match targetRows ip seen with
        | [] =>
          isPagePrompt seen || (contains menuPrompt seen && !(assetRows seen).isEmpty) ||
            !looksLikePrompt (s.pending ++ chunk)
        | [row] => row.id ≠ [] && shows page row
        | _ => true

/-- Every turn of the loop can rely on what has arrived. -/
def orderly (ip : Str) : List (Bytes × Bytes) → Nav → Bool
  | [], _ => true
  | (chunk, page) :: shown, s =>
    reliable ip page s chunk &&
      match step b ip s chunk with
      | .ok (.again t) => orderly ip shown t
      | _ => true

variable {b} {ip : Str} {s t : Nav} {chunk : Bytes} {next : Next}

lemma map_fst_paged (pages : List (List Bytes)) : (paged pages).map Prod.fst = pages.flatten := by
  induction pages with
  | nil => rfl
  | cons page pages ih =>
    have hpage : (page.map fun chunk => (chunk, page.flatten)).map Prod.fst = page := by
      rw [map_map]
      exact map_id page
    rw [flatten_cons, ← ih, paged, flatMap_cons, map_append, hpage, paged]

variable {page : Bytes} {line : Line} {text : Str} {p : Str → Bool} {sent : Bool}
  {chunks : List Bytes} {shown : List (Bytes × Bytes)}

lemma reliable_of_unsearched (h : s.searchSent = false) : reliable ip page s chunk = true := by
  simp [reliable, h]

lemma reliable_of_sent (h : s.assetIdSent = true) : reliable ip page s chunk = true := by
  simp [reliable, h]

/-- Between search and selection, with no MFA prompt to answer, the rows decide. -/
lemma reliable_eq (ip : Str) (page : Bytes) {seen : Str} (hsearch : s.searchSent = true)
    (hunsent : s.assetIdSent = false)
    (hseen : stripAnsi (decodeLossy (s.pending ++ chunk)) = .ok seen)
    (hmfa : (!s.mfaSent && contains mfaPrompt seen) = false) :
    reliable ip page s chunk =
      match targetRows ip seen with
      | [] =>
        isPagePrompt seen || (contains menuPrompt seen && !(assetRows seen).isEmpty) ||
          !looksLikePrompt (s.pending ++ chunk)
      | [row] => row.id ≠ [] && shows page row
      | _ => true := by
  simp [reliable, hsearch, hunsent, hseen, hmfa]

/-! ### What a turn does -/

lemma engine_ok {α : Type} {x : Except EngineError α} {a : α} : engine x = .ok a ↔ x = .ok a := by
  cases x <;> simp [engine, Except.mapError]

lemma send_ok (h : s.send b line = .ok t) :
    t = { s with pending := [], sent := s.sent ++ [(line, s.reads)] } := by
  unfold Nav.send at h
  split at h <;> cases h
  rfl

lemma ids_of_sent {n : ℕ} (hsent : t.sent = s.sent ++ [(line, n)])
    (hline : ∀ id, line ≠ .assetId id) : t.ids = s.ids := by
  unfold Nav.ids
  rw [hsent]
  cases line with
  | assetId id => exact absurd rfl (hline id)
  | _ => simp

lemma check_ok {v : Bool} (h : engine ((stripAnsi text).map p) = .ok v) :
    ∃ clean, stripAnsi text = .ok clean ∧ p clean = v := by
  rw [engine_ok] at h
  exact map_ok.1 h

lemma unlessSent_true (h : unlessSent sent ((stripAnsi text).map p) = .ok true) :
    sent = false ∧ ∃ clean, stripAnsi text = .ok clean ∧ p clean = true := by
  cases sent with
  | true => cases h
  | false => exact ⟨rfl, check_ok h⟩

lemma unlessSent_false {clean : Str} (h : unlessSent sent ((stripAnsi text).map p) = .ok false)
    (hclean : stripAnsi text = .ok clean) : (!sent && p clean) = false := by
  cases sent with
  | true => rfl
  | false =>
    obtain ⟨clean', hclean', hp⟩ := check_ok h
    rw [hclean] at hclean'
    cases hclean'
    simpa using hp

/-- What is selected are the rows with the address: none, or one. -/
lemma select_cases {selected : Option Str} (h : selectExactAssetId text ip = .ok selected) :
    ∃ clean, stripAnsi text = .ok clean ∧
      ((selected = none ∧ targetRows ip clean = []) ∨
        ∃ id, selected = some id ∧ targetRows ip clean = [⟨id, ip⟩]) := by
  obtain ⟨rows, hrows, h⟩ := bind_ok.1 h
  obtain ⟨clean, hclean, rfl⟩ := map_ok.1 hrows
  refine ⟨clean, hclean, ?_⟩
  rcases hfilter : (assetRows clean).filter (fun row => row.ip = ip) with
    _ | ⟨row, _ | ⟨row', rows⟩⟩
  · rw [hfilter] at h
    cases h
    exact .inl ⟨rfl, hfilter⟩
  · rw [hfilter] at h
    have hip : row.ip = ip := by
      have hmem : row ∈ (assetRows clean).filter (fun row => row.ip = ip) := by simp [hfilter]
      simpa using (mem_filter.1 hmem).2
    obtain ⟨id, ip'⟩ := row
    obtain rfl : ip' = ip := hip
    cases h
    exact .inr ⟨id, rfl, hfilter⟩
  · rw [hfilter] at h
    cases h

/-- What a turn can do: go on without an id, send an id, or leave the loop. -/
inductive Moves (ip : Str) (s : Nav) (chunk : Bytes) : Next → Prop
  | goesOn {t : Nav} (ids : t.ids = s.ids) (idSent : t.assetIdSent = s.assetIdSent)
      (reads : t.reads = s.reads + 1) (reliable : ∀ page, reliable ip page s chunk = true) :
      Moves ip s chunk (.again t)
  | chose {t : Nav} {id : Str} (unsent : s.assetIdSent = false)
      (ids : t.ids = s.ids ++ [(id, s.reads + 1)]) (idSent : t.assetIdSent = true)
      (reads : t.reads = s.reads + 1)
      (reliable : ∀ page, reliable ip page s chunk = (decide (id ≠ []) && shows page ⟨id, ip⟩)) :
      Moves ip s chunk (.again t)
  | arrived (reliable : s.assetIdSent = false → ∀ page, reliable ip page s chunk = false) :
      Moves ip s chunk (.arrived (s.read chunk))

lemma choose_moves (hsearch : s.searchSent = true) (hunsent : s.assetIdSent = false)
    (hmfa : ∀ seen, stripAnsi (decodeLossy (s.pending ++ chunk)) = .ok seen →
      (!s.mfaSent && contains mfaPrompt seen) = false)
    (h : choose b ip (decodeLossy (s.pending ++ chunk)) (s.read chunk) = .ok next) :
    Moves ip s chunk next := by
  obtain ⟨selected, hselect, h⟩ := bind_ok.1 h
  rw [engine_ok] at hselect
  obtain ⟨seen, hseen, hrows⟩ := select_cases hselect
  have hreliable := fun page => reliable_eq ip page hsearch hunsent hseen
    (hmfa seen hseen)
  rcases hrows with ⟨rfl, hrows⟩ | ⟨id, rfl, hrows⟩
  · simp only [hrows] at hreliable
    obtain ⟨page, hpage, h⟩ := bind_ok.1 h
    obtain ⟨_, hclean, rfl⟩ := check_ok hpage
    cases hseen.symm.trans hclean
    by_cases hprompt : isPagePrompt seen = true
    · rw [if_pos hprompt] at h
      obtain ⟨status, -, h⟩ := bind_ok.1 h
      unfold turnPage at h
      cases status with
      | none => cases h
      | some status =>
        simp only at h
        split_ifs at h
        obtain ⟨t, hsend, rfl⟩ := map_ok.1 h
        rw [send_ok hsend]
        exact .goesOn (ids_of_sent rfl (by simp)) rfl rfl (by simp [hreliable, hprompt])
    · rw [if_neg hprompt] at h
      obtain ⟨menu, hmenu, h⟩ := bind_ok.1 h
      obtain ⟨_, hclean, rfl⟩ := check_ok hmenu
      cases hseen.symm.trans hclean
      obtain ⟨rows, hparse, h⟩ := bind_ok.1 h
      rw [parseAssetRows, hseen] at hparse
      cases hparse
      by_cases hcandidates : (contains menuPrompt seen && !(assetRows seen).isEmpty) = true
      · rw [if_pos hcandidates] at h
        cases h
      · unfold settle at h
        split_ifs at h with harrived
        · cases h
          rw [Bool.and_eq_true] at harrived
          have hlooks : looksLikePrompt (s.pending ++ chunk) = true := harrived.2
          exact .arrived fun _ page => by simp [hreliable, hprompt, hcandidates, hlooks]
        · cases h
          have hlooks : looksLikePrompt (s.pending ++ chunk) = false := by
            simpa [Nav.read, hsearch] using harrived
          exact .goesOn rfl rfl rfl fun page => by simp [hreliable, hlooks]
  · simp only [hrows] at hreliable
    obtain ⟨t, hsend, h⟩ := bind_ok.1 h
    cases h
    rw [send_ok hsend]
    exact .chose hunsent (by simp [Nav.ids, Nav.read]) rfl rfl hreliable

lemma step_moves (h : step b ip s chunk = .ok next) : Moves ip s chunk next := by
  obtain ⟨mfa, hmfa, h⟩ := bind_ok.1 h
  cases mfa with
  | true =>
    obtain ⟨hmfaSent, seen, hseen, hprompt⟩ := unlessSent_true hmfa
    have hmfaSent : s.mfaSent = false := hmfaSent
    have hseen : stripAnsi (decodeLossy (s.pending ++ chunk)) = .ok seen := hseen
    obtain ⟨code, -, h⟩ := bind_ok.1 h
    obtain ⟨t, hsend, h⟩ := bind_ok.1 h
    cases h
    rw [send_ok hsend]
    refine .goesOn (ids_of_sent rfl (by simp)) rfl rfl fun page => ?_
    simp [reliable, hseen, hmfaSent, hprompt]
  | false =>
    obtain ⟨menu, hmenu, h⟩ := bind_ok.1 h
    cases menu with
    | true =>
      obtain ⟨hunsearched, -⟩ := unlessSent_true hmenu
      obtain ⟨t, hsend, h⟩ := bind_ok.1 h
      cases h
      rw [send_ok hsend]
      exact .goesOn (ids_of_sent rfl (by simp)) rfl rfl fun _ => reliable_of_unsearched hunsearched
    | false =>
      by_cases hchoose : (s.read chunk).searchSent && !(s.read chunk).assetIdSent
      · rw [if_pos hchoose] at h
        rw [Bool.and_eq_true, Bool.not_eq_true'] at hchoose
        exact choose_moves hchoose.1 hchoose.2 (fun seen hseen => unlessSent_false hmfa hseen) h
      · rw [if_neg (by simp)] at h
        have hchoose : s.searchSent = true → s.assetIdSent = true := by
          simpa [Nav.read] using hchoose
        unfold settle at h
        split_ifs at h with harrived
        · cases h
          refine .arrived fun hunsent => ?_
          rw [Bool.and_eq_true] at harrived
          rw [hchoose harrived.1] at hunsent
          cases hunsent
        · cases h
          refine .goesOn rfl rfl rfl fun page => ?_
          cases hsearch : s.searchSent with
          | false => exact reliable_of_unsearched hsearch
          | true => exact reliable_of_sent (hchoose hsearch)

/-! ### Runs -/

/-- Once the id is sent, no other follows. -/
lemma navigate_ids (hsent : s.assetIdSent = true) (h : navigate b ip chunks s = .ok t) :
    t.ids = s.ids := by
  fun_induction navigate b ip chunks s with
  | case1 | case2 => cases h
  | case3 s chunk chunks u hstep =>
    cases h
    cases step_moves hstep
    rfl
  | case4 s chunk chunks u hstep ih =>
    cases step_moves hstep with
    | goesOn ids idSent => rw [ih (idSent.trans hsent) h, ids]
    | chose unsent => cases hsent.symm.trans unsent

lemma orderly_of_sent (hsent : s.assetIdSent = true) : orderly b ip shown s = true := by
  fun_induction orderly b ip shown s with
  | case1 => rfl
  | case2 s chunk page shown ih =>
    rw [reliable_of_sent hsent]
    split
    next u hstep =>
      cases step_moves hstep with
      | goesOn ids idSent => exact ih u (idSent.trans hsent)
      | chose unsent => cases hsent.symm.trans unsent
    · rfl

lemma reads_lt_of_mem_ids (h : navigate b ip chunks s = .ok t) :
    ∀ sent ∈ t.ids, sent ∈ s.ids ∨ s.reads < sent.2 := by
  intro sent hmem
  fun_induction navigate b ip chunks s with
  | case1 | case2 => cases h
  | case3 s chunk chunks u hstep =>
    cases h
    cases step_moves hstep
    exact .inl hmem
  | case4 s chunk chunks u hstep ih =>
    have hsent := ih h
    cases step_moves hstep with
    | goesOn ids idSent reads =>
      rw [ids] at hsent
      exact hsent.imp_right fun hlt => by omega
    | chose unsent ids idSent reads =>
      rw [ids, mem_append, mem_singleton] at hsent
      rcases hsent with (hsent | rfl) | hlt
      · exact .inl hsent
      · exact .inr (by simp)
      · exact .inr (by omega)

/-- A turn that sends no id is not the one the id was chosen in. -/
lemma selected_cons {reads : ℕ} {piece : Bytes × Bytes}
    (hids : ∀ sent ∈ t.ids, reads + 1 < sent.2) :
    Selected ip reads (piece :: shown) t ↔ Selected ip (reads + 1) shown t := by
  constructor
  · rintro ⟨id, n, chunk, page, hid, hshown, hne, hshows⟩
    cases n with
    | zero => exact absurd (hids (id, reads + 0 + 1) (by simp [hid])) (by simp)
    | succ n =>
      refine ⟨id, n, chunk, page, ?_, hshown, hne, hshows⟩
      rw [hid, Nat.add_right_comm reads 1 n, Nat.add_assoc reads n 1]
  · rintro ⟨id, n, chunk, page, hid, hshown, hne, hshows⟩
    refine ⟨id, n + 1, chunk, page, ?_, hshown, hne, hshows⟩
    rw [hid, Nat.add_right_comm reads 1 n, Nat.add_assoc reads n 1]

/-- As long as no id was sent, a run that ends well is still to choose one, and chooses well just
when no turn is misled. -/
lemma selected_iff_orderly : ∀ {s : Nav}, s.assetIdSent = false →
    s.ids = [] → navigate b ip (shown.map Prod.fst) s = .ok t →
    (Selected ip s.reads shown t ↔ orderly b ip shown s = true) := by
  induction shown with
  | nil => exact fun _ _ h => by cases h
  | cons piece shown ih =>
    intro s hunsent hids h
    obtain ⟨chunk, page⟩ := piece
    rw [map_cons, navigate] at h
    rw [orderly]
    cases hstep : step b ip s chunk with
    | error e =>
      rw [hstep] at h
      cases h
    | ok next =>
      rw [hstep] at h
      cases step_moves hstep with
      | @goesOn t' ids idSent reads hreliable =>
        have hlate : ∀ sent ∈ t.ids, s.reads + 1 < sent.2 := by
          intro sent hmem
          have hsent := reads_lt_of_mem_ids h sent hmem
          rwa [ids, hids, reads, mem_nil_iff, false_or] at hsent
        rw [selected_cons hlate, ← reads, ih (idSent.trans hunsent) (ids.trans hids) h]
        simp [hreliable page]
      | @chose t' id unsent ids idSent reads hreliable =>
        have htids : t.ids = [(id, s.reads + 1)] := by
          rw [navigate_ids idSent h, ids, hids, nil_append]
        have horderly : orderly b ip shown t' = true := orderly_of_sent idSent
        simp only [horderly, hreliable page, Bool.and_true, Bool.and_eq_true, decide_eq_true_eq]
        constructor
        · rintro ⟨id', n, chunk', page', hid, hshown, hne, hshows⟩
          rw [htids] at hid
          obtain ⟨rfl, hn⟩ : id = id' ∧ s.reads + 1 = s.reads + n + 1 := by simpa using hid
          obtain rfl : n = 0 := by omega
          cases hshown
          exact ⟨hne, hshows⟩
        · rintro ⟨hne, hshows⟩
          exact ⟨id, 0, chunk, page, htids, rfl, hne, hshows⟩
      | arrived hreliable =>
        cases h
        rw [hreliable hunsent page]
        refine iff_of_false ?_ (by simp)
        rintro ⟨id, n, _, _, hid, -⟩
        exact absurd (hids.symm.trans hid) (by simp)

/-- **Which bastions are left only at the requested asset**: a run that ends well has sent the id
of the only row with the address just when no turn between search and selection is misled by what
has arrived so far. -/
theorem navigate_selects_iff (b : Bastion) (target : Str) (pages : List (List Bytes)) (t : Nav)
    (h : navigateToAsset b target pages.flatten = .ok t) :
    Selected (deriveTargetIp target) 0 (paged pages) t ↔
      orderly b (deriveTargetIp target) (paged pages) .new = true := by
  rw [← map_fst_paged] at h
  exact selected_iff_orderly rfl rfl h

/-- A bastion that asks for no MFA code, over a connection that works. -/
def plainBastion : Bastion := ⟨.error [], fun _ => .ok ()⟩

/-- The menu, a table of two assets in three chunks, and the shell. -/
def twoAssets : List (List Bytes) :=
  [[ascii "Opt> "],
    [ascii "1 | a | 10.0.0.10 |\n2 | b | ", ascii "10.0.0.1 |",
      ascii "\nOpt> "],
    [ascii "b:~$ "]]

theorem navigate_selects_second_row :
    ∃ t, navigateToAsset plainBastion "10.0.0.1" twoAssets.flatten = .ok t ∧
      Selected (deriveTargetIp "10.0.0.1") 0 (paged twoAssets) t := by
  have hrun : navigateToAsset plainBastion "10.0.0.1" twoAssets.flatten =
      .ok ⟨[], true, true, false, 5,
        [(.search "10.0.0.1", 1), (.assetId "2", 3)]⟩ := by
    decide +kernel
  have horderly : orderly plainBastion (deriveTargetIp "10.0.0.1") (paged twoAssets)
      .new = true := by
    decide +kernel
  exact ⟨_, hrun, (navigate_selects_iff plainBastion _ twoAssets _ hrun).2 horderly⟩

/-- The row of `10.0.0.10` is cut behind `10.0.0.1`. -/
def cutRow : List (List Bytes) :=
  [[ascii "Opt> "], [ascii "1 | a | 10.0.0.1", ascii "0 |\nOpt> "],
    [ascii "a:~$ "]]

/-- The answer to the search ends like a shell prompt. -/
def dollarSign : List (List Bytes) := [[ascii "Opt> "], [ascii "price in $ "]]

/-- The id of `10.0.0.10` is sent for `10.0.0.1`, or none at all. -/
theorem navigate_goes_astray :
    (∃ t, navigateToAsset plainBastion "10.0.0.1".toList cutRow.flatten = .ok t ∧
      ¬ Selected (deriveTargetIp "10.0.0.1".toList) 0 (paged cutRow) t) ∧
    ∃ t, navigateToAsset plainBastion "10.0.0.1".toList dollarSign.flatten = .ok t ∧
      ¬ Selected (deriveTargetIp "10.0.0.1".toList) 0 (paged dollarSign) t := by
  have hcut : navigateToAsset plainBastion "10.0.0.1".toList cutRow.flatten =
      .ok ⟨[], true, true, false, 4,
        [(.search "10.0.0.1".toList, 1), (.assetId "1".toList, 2)]⟩ := by
    decide +kernel
  have hdollar : navigateToAsset plainBastion "10.0.0.1".toList dollarSign.flatten =
      .ok ⟨[], true, false, false, 2, [(.search "10.0.0.1".toList, 1)]⟩ := by
    decide +kernel
  have hpage : (paged cutRow)[1]? = some (ascii "1 | a | 10.0.0.1".toList,
      ascii "1 | a | 10.0.0.10 |\nOpt> ".toList) := by
    decide +kernel
  have hhidden : shows (ascii "1 | a | 10.0.0.10 |\nOpt> ".toList)
      ⟨"1".toList, deriveTargetIp "10.0.0.1".toList⟩ = false := by
    decide +kernel
  refine ⟨⟨_, hcut, ?_⟩, _, hdollar, ?_⟩
  · rintro ⟨id, n, chunk, page, hid, hshown, -, hshows⟩
    have hsent : ("1".toList, 2) = (id, 0 + n + 1) := head_eq_of_cons_eq hid
    obtain ⟨rfl, hn⟩ := Prod.mk.inj hsent
    obtain rfl : n = 1 := by omega
    obtain ⟨-, rfl⟩ := Prod.mk.inj (Option.some.inj (hpage.symm.trans hshown))
    rw [hhidden] at hshows
    cases hshows
  · rintro ⟨id, n, chunk, page, hid, -⟩
    cases hid

end CrossHostOps.Navigate
