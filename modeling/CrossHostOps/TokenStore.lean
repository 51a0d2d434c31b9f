import Mathlib.Data.List.AList
import CrossHostOps.Lines

/-!
The store of bootstrap tokens of `daemon/token_store.rs`: tokens are generated, validated,
invalidated and listed, each operation under the lock of the store.

A store keeps hashes only. What an entry says about the token behind its hash is the history of the
calls that led to it, and the results below are about whole histories.
-/

namespace CrossHostOps.TokenStore

open Text List

def TOKEN_BYTES : ℕ := 32

def PREFIX_LEN : ℕ := 8

/-! ### The text of a token -/

/-- The character of a value below 64 in the alphabet for URLs. -/
def urlSymbol (v : ℕ) : Char :=
  if v < 26 then Char.ofNat (65 + v)
  else if v < 52 then Char.ofNat (97 + (v - 26))
  else if v < 62 then Char.ofNat (48 + (v - 52))
  else if v = 62 then '-'
  else '_'

/-- `URL_SAFE_NO_PAD.encode`. -/
def urlSafeNoPad : Bytes → Str
  | [] => []
  | [a] => [urlSymbol (a.toNat / 4), urlSymbol (a.toNat % 4 * 16)]
  | [a, b] =>
    [urlSymbol (a.toNat / 4), urlSymbol (a.toNat % 4 * 16 + b.toNat / 16),
      urlSymbol (b.toNat % 16 * 4)]
  | a :: b :: c :: rest =>
    urlSymbol (a.toNat / 4) :: urlSymbol (a.toNat % 4 * 16 + b.toNat / 16) ::
      urlSymbol (b.toNat % 16 * 4 + c.toNat / 64) :: urlSymbol (c.toNat % 64) :: urlSafeNoPad rest

lemma length_urlSafeNoPad (bytes : Bytes) :
    (urlSafeNoPad bytes).length = (4 * bytes.length + 2) / 3 := by
  induction bytes using urlSafeNoPad.induct with
  | case1 => rfl
  | case2 | case3 => simp [urlSafeNoPad]
  | case4 a b c rest ih =>
    simp only [urlSafeNoPad, length_cons]
    omega

lemma isWhitespace_urlSymbol (v : ℕ) : isWhitespace (urlSymbol v) = false := by
  have hsmall : ∀ v < 63, isWhitespace (urlSymbol v) = false := by decide
  by_cases hv : v < 63
  · exact hsmall v hv
  · have hlast : urlSymbol v = '_' := by
      unfold urlSymbol
      rw [if_neg (by omega), if_neg (by omega), if_neg (by omega), if_neg (by omega)]
    rw [hlast]
    rfl

lemma isWhitespace_urlSafeNoPad {bytes : Bytes} {c : Char} (hc : c ∈ urlSafeNoPad bytes) :
    isWhitespace c = false := by
  induction bytes using urlSafeNoPad.induct with
  | case1 => cases hc
  | case2 a =>
    simp only [urlSafeNoPad, mem_cons, not_mem_nil, or_false] at hc
    rcases hc with rfl | rfl <;> exact isWhitespace_urlSymbol _
  | case3 a b =>
    simp only [urlSafeNoPad, mem_cons, not_mem_nil, or_false] at hc
    rcases hc with rfl | rfl | rfl <;> exact isWhitespace_urlSymbol _
  | case4 a b c rest ih =>
    simp only [urlSafeNoPad, mem_cons] at hc
    rcases hc with rfl | rfl | rfl | rfl | hc
    · exact isWhitespace_urlSymbol _
    · exact isWhitespace_urlSymbol _
    · exact isWhitespace_urlSymbol _
    · exact isWhitespace_urlSymbol _
    · exact ih hc

/-! ### The store -/

/-- What `fill_bytes` may fill. -/
abbrev RandomBytes := { bytes : Bytes // bytes.length = TOKEN_BYTES }

def tokenOf (bytes : RandomBytes) : Str := urlSafeNoPad bytes

lemma length_tokenOf (bytes : RandomBytes) : (tokenOf bytes).length = 43 := by
  rw [tokenOf, length_urlSafeNoPad, bytes.2]
  rfl

lemma trim_tokenOf (bytes : RandomBytes) : trim (tokenOf bytes) = tokenOf bytes :=
  trim_of_forall fun _ => isWhitespace_urlSafeNoPad

lemma trim_take_tokenOf (bytes : RandomBytes) (n : ℕ) :
    trim ((tokenOf bytes).take n) = (tokenOf bytes).take n :=
  trim_of_forall fun _ hc => isWhitespace_urlSafeNoPad (mem_of_mem_take hc)

/-- The metadata of an issued token; times count from the epoch. -/
structure TokenEntry where
  tokenPrefix : Str
  hash : Str
  expiresAt : ℕ
  once : Bool
  consumed : Bool
  createdAt : ℕ
  label : Option Str
deriving DecidableEq

def TokenEntry.isExpired (now : ℕ) (entry : TokenEntry) : Bool := entry.expiresAt < now

/-- The entries by hash. -/
abbrev Tokens := AList fun _ : Str => TokenEntry

/-- `for k in ks { map.remove(&k) }`. -/
def removeAll (ks : List Str) (map : Tokens) : Tokens := ks.foldl (fun m k => m.erase k) map

lemma lookup_removeAll (ks : List Str) (map : Tokens) (k : Str) :
    (removeAll ks map).lookup k = if k ∈ ks then none else map.lookup k := by
  unfold removeAll
  induction ks generalizing map with
  | nil => rfl
  | cons k' ks ih =>
    rw [foldl_cons, ih]
    by_cases hk : k = k'
    · subst hk
      simp
    · simp [hk]

variable {map : Tokens} {k : Str} {entry : TokenEntry} {p : TokenEntry → Bool}

lemma lookup_erase {k' : Str} (h : (map.erase k').lookup k = some entry) :
    k ≠ k' ∧ map.lookup k = some entry := by
  have hk : k ≠ k' := by
    rintro rfl
    simp at h
  exact ⟨hk, AList.lookup_erase_ne hk ▸ h⟩

/-- The keys of the entries that meet a condition. -/
def keysWith (p : TokenEntry → Bool) (map : Tokens) : List Str :=
  (map.entries.filter fun e => p e.2).map (·.1)

lemma mem_keysWith (hk : map.lookup k = some entry) : k ∈ keysWith p map ↔ p entry = true := by
  have hentry : ∀ e, ⟨k, e⟩ ∈ map.entries ↔ e = entry := by
    intro e
    rw [← AList.mem_lookup_iff, hk, Option.mem_some_iff, eq_comm]
  simp only [keysWith, mem_map, mem_filter, Sigma.exists]
  constructor
  · rintro ⟨k', e, ⟨hmem, hp⟩, rfl⟩
    rw [(hentry e).1 hmem] at hp
    exact hp
  · intro hp
    exact ⟨k, entry, ⟨(hentry entry).2 rfl, hp⟩, rfl⟩

/-- What is left after the removal of the entries that meet a condition. -/
lemma lookup_removeAll_keysWith :
    (removeAll (keysWith p map) map).lookup k = some entry ↔
      map.lookup k = some entry ∧ p entry = false := by
  rw [lookup_removeAll]
  cases hk : map.lookup k with
  | none => simp
  | some e =>
    simp only [mem_keysWith hk]
    constructor
    · intro h
      split_ifs at h with hp
      cases h
      exact ⟨rfl, Bool.eq_false_iff.2 hp⟩
    · rintro ⟨⟨⟩, hp⟩
      rw [if_neg (Bool.eq_false_iff.1 hp)]

section Operations

variable (hexSha256 : Str → Str)

def generate (bytes : RandomBytes) (ttl : ℕ) (once : Bool) (label : Option Str) (now : ℕ)
    (map : Tokens) : Str × Tokens :=
  let token := tokenOf bytes
  let hash := hexSha256 token
  (token, map.insert hash
    { tokenPrefix := token.take PREFIX_LEN, hash, expiresAt := now + ttl, once, consumed := false,
      createdAt := now, label })

def validate (raw : Str) (now : ℕ) (map : Tokens) : Bool × Tokens :=
  let hash := hexSha256 raw
  match map.lookup hash with
  | none => (false, map)
  | some entry =>
    if entry.isExpired now then (false, map.erase hash)
    else if entry.once && entry.consumed then (false, map)
    else if entry.once then (true, map.insert hash { entry with consumed := true })
    else (true, map)

def invalidate (tokenOrPrefix : Str) (map : Tokens) : Bool × Tokens :=
  let needle := trim tokenOrPrefix
  let hash := hexSha256 needle
  if (map.lookup hash).isSome then (true, map.erase hash)
  else
    let toRemove := keysWith (fun entry => entry.tokenPrefix = needle) map
    (!toRemove.isEmpty, removeAll toRemove map)

def list (now : ℕ) (map : Tokens) : List TokenEntry × Tokens :=
  let map := removeAll (keysWith (·.isExpired now) map) map
  ((map.entries.map (·.2)).mergeSort fun a b => a.expiresAt ≤ b.expiresAt, map)

variable {hexSha256} {raw needle : Str} {now : ℕ}

lemma lookup_generate {bytes : RandomBytes} {ttl : ℕ} {once : Bool} {label : Option Str}
    (h : (generate hexSha256 bytes ttl once label now map).2.lookup k = some entry) :
    k = hexSha256 (tokenOf bytes) ∧ entry.tokenPrefix = (tokenOf bytes).take PREFIX_LEN ∧
        entry.expiresAt = now + ttl ∧ entry.once = once ∨
      k ≠ hexSha256 (tokenOf bytes) ∧ map.lookup k = some entry := by
  by_cases hk : k = hexSha256 (tokenOf bytes)
  · subst hk
    rw [generate, AList.lookup_insert] at h
    cases h
    exact .inl ⟨rfl, rfl, rfl, rfl⟩
  · rw [generate, AList.lookup_insert_ne hk] at h
    exact .inr ⟨hk, h⟩

/-- A token is accepted on an entry that is in time and not used up, and the entry of a `once`
token is used up by that. -/
lemma validate_true (h : (validate hexSha256 raw now map).1 = true) :
    ∃ entry, map.lookup (hexSha256 raw) = some entry ∧ now ≤ entry.expiresAt ∧
      (entry.once = true → entry.consumed = false ∧
        (validate hexSha256 raw now map).2 =
          map.insert (hexSha256 raw) { entry with consumed := true }) := by
  revert h
  fun_cases validate hexSha256 raw now map <;> intro h <;> try cases h
  next entry hentry htime hunused honce =>
    refine ⟨entry, hentry, by simpa [TokenEntry.isExpired] using htime, fun _ => ⟨?_, rfl⟩⟩
    simpa [honce] using hunused
  next entry hentry htime _ honce =>
    exact ⟨entry, hentry, by simpa [TokenEntry.isExpired] using htime, fun h => absurd h honce⟩

/-- Validation only removes entries and uses them up. -/
lemma lookup_validate (h : (validate hexSha256 raw now map).2.lookup k = some entry) :
    ∃ old, map.lookup k = some old ∧ (entry = old ∨ entry = { old with consumed := true }) := by
  revert h
  fun_cases validate hexSha256 raw now map <;> intro h
  · exact ⟨entry, h, .inl rfl⟩
  · exact ⟨entry, (lookup_erase h).2, .inl rfl⟩
  · exact ⟨entry, h, .inl rfl⟩
  next hash old hold _ _ _ =>
    by_cases hk : k = hash
    · subst hk
      rw [AList.lookup_insert] at h
      exact ⟨old, hold, .inr (Option.some.inj h).symm⟩
    · exact ⟨entry, AList.lookup_insert_ne hk ▸ h, .inl rfl⟩
  · exact ⟨entry, h, .inl rfl⟩

/-- An entry survives an invalidation that names neither its hash nor, if there is no entry for the
hash of the name, its prefix. -/
lemma lookup_invalidate (h : (invalidate hexSha256 needle map).2.lookup k = some entry) :
    map.lookup k = some entry ∧ k ≠ hexSha256 (trim needle) ∧
      (map.lookup (hexSha256 (trim needle)) = none → entry.tokenPrefix ≠ trim needle) := by
  unfold invalidate at h
  dsimp only at h
  split at h
  next hfound =>
    obtain ⟨hk, hold⟩ := lookup_erase h
    refine ⟨hold, hk, fun hnone => ?_⟩
    rw [hnone] at hfound
    cases hfound
  next hmissing =>
    obtain ⟨hmap, hshown⟩ := lookup_removeAll_keysWith.1 h
    refine ⟨hmap, ?_, fun _ => by simpa using hshown⟩
    rintro rfl
    exact hmissing (by rw [hmap]; rfl)

lemma lookup_list (h : (list now map).2.lookup k = some entry) : map.lookup k = some entry :=
  (lookup_removeAll_keysWith.1 h).1

end Operations

/-! ### Histories -/

inductive Operation where
  | generate (bytes : RandomBytes) (ttl : ℕ) (once : Bool) (label : Option Str)
  | validate (raw : Str)
  | invalidate (tokenOrPrefix : Str)
  | list
deriving DecidableEq

/-- An operation with what it reads off the clock. -/
structure Call where
  now : ℕ
  op : Operation
deriving DecidableEq

inductive Reply where
  | token (raw : Str)
  | verdict (ok : Bool)
  | entries (es : List TokenEntry)
deriving DecidableEq

def Call.issues (c : Call) : Option Str :=
  match c.op with
  | .generate bytes _ _ _ => some (tokenOf bytes)
  | _ => none

def Call.hashes (c : Call) : List Str :=
  match c.op with
  | .generate bytes _ _ _ => [tokenOf bytes]
  | .validate raw => [raw]
  | .invalidate tokenOrPrefix => [trim tokenOrPrefix]
  | .list => []

def issued (calls : List Call) : List Str := calls.filterMap Call.issues

def hashed (calls : List Call) : List Str := calls.flatMap Call.hashes

variable (hexSha256 : Str → Str)

/-- No two strings hashed in a history have one hash. -/
def CollisionFree (calls : List Call) : Prop :=
  ∀ x ∈ hashed calls, ∀ y ∈ hashed calls, hexSha256 x = hexSha256 y → x = y
  deriving Decidable

def perform (map : Tokens) (c : Call) : Reply × Tokens :=
  match c.op with
  | .generate bytes ttl once label =>
    let (token, map) := generate hexSha256 bytes ttl once label c.now map
    (.token token, map)
  | .validate raw =>
    let (ok, map) := validate hexSha256 raw c.now map
    (.verdict ok, map)
  | .invalidate tokenOrPrefix =>
    let (removed, map) := invalidate hexSha256 tokenOrPrefix map
    (.verdict removed, map)
  | .list =>
    let (es, map) := list c.now map
    (.entries es, map)

def after (calls : List Call) : Tokens := calls.foldl (fun map c => (perform hexSha256 map c).2) ∅

/-- The calls of a history with their replies. -/
def replies (map : Tokens) : List Call → List (Call × Reply)
  | [] => []
  | c :: cs => (c, (perform hexSha256 map c).1) :: replies (perform hexSha256 map c).2 cs

/-- The validations of a token that returned true. -/
def acceptances (x : Str) (calls : List Call) : ℕ :=
  (replies hexSha256 ∅ calls).countP fun r => r.1.op = .validate x ∧ r.2 = .verdict true

variable {hexSha256}

lemma after_concat (calls : List Call) (c : Call) :
    after hexSha256 (calls ++ [c]) = (perform hexSha256 (after hexSha256 calls) c).2 := by
  rw [after, foldl_concat]
  rfl

lemma replies_concat (map : Tokens) (calls : List Call) (c : Call) :
    replies hexSha256 map (calls ++ [c]) = replies hexSha256 map calls ++
      [(c, (perform hexSha256 (calls.foldl (fun m c => (perform hexSha256 m c).2) map) c).1)] := by
  induction calls generalizing map with
  | nil => rfl
  | cons c' calls ih =>
    rw [cons_append, replies, ih]
    rfl

lemma acceptances_concat (x : Str) (calls : List Call) (c : Call) :
    acceptances hexSha256 x (calls ++ [c]) = acceptances hexSha256 x calls +
      if c.op = .validate x ∧ (perform hexSha256 (after hexSha256 calls) c).1 = .verdict true
      then 1 else 0 := by
  rw [acceptances, replies_concat, countP_append, countP_singleton]
  simp only [decide_eq_true_eq]
  rfl

/-- A call that issued a token, the time the token runs out, and whether it is a `once` token. -/
def Call.Issues (c : Call) (x : Str) (expiresAt : ℕ) (once : Bool) : Prop :=
  ∃ bytes ttl label, c.op = .generate bytes ttl once label ∧ x = tokenOf bytes ∧
    expiresAt = c.now + ttl

/-- The invalidation of a token, by the token or by the prefix shown for it. -/
def Call.Invalidates (c : Call) (x : Str) : Prop :=
  c.op = .invalidate x ∨ c.op = .invalidate (x.take PREFIX_LEN)

/-- A history in which a token was issued and not invalidated since. -/
def Live (calls : List Call) (x : Str) (expiresAt : ℕ) (once : Bool) : Prop :=
  ∃ before c later, calls = before ++ c :: later ∧ c.Issues x expiresAt once ∧
    ∀ c' ∈ later, ¬ c'.Invalidates x

variable {calls : List Call} {x : Str} {t : ℕ} {once : Bool} {c : Call}

lemma Live.concat (h : Live calls x t once) (hc : ¬ c.Invalidates x) :
    Live (calls ++ [c]) x t once := by
  obtain ⟨before, c₀, later, rfl, hissues, hlater⟩ := h
  refine ⟨before, c₀, later ++ [c], by simp, hissues, ?_⟩
  intro c' hc'
  rcases mem_append.1 hc' with hc' | hc'
  · exact hlater c' hc'
  · rw [mem_singleton.1 hc']
    exact hc

lemma Live.concat_of_issues (h : c.Issues x t once) : Live (calls ++ [c]) x t once :=
  ⟨calls, c, [], rfl, h, by simp⟩

lemma Live.exists_bytes (h : Live calls x t once) : ∃ bytes, x = tokenOf bytes := by
  obtain ⟨_, _, _, _, ⟨bytes, _, _, _, hx, _⟩, _⟩ := h
  exact ⟨bytes, hx⟩

lemma Live.mem_issued (h : Live calls x t once) : x ∈ issued calls := by
  obtain ⟨before, c, later, rfl, ⟨bytes, ttl, label, hop, rfl, _⟩, _⟩ := h
  refine mem_filterMap.2 ⟨c, by simp, ?_⟩
  rw [Call.issues, hop]

lemma mem_hashed_of_mem_issued (h : x ∈ issued calls) : x ∈ hashed calls := by
  obtain ⟨c, hc, hx⟩ := mem_filterMap.1 h
  refine mem_flatMap.2 ⟨c, hc, ?_⟩
  unfold Call.issues at hx
  unfold Call.hashes
  split at hx
  next hop =>
    cases hx
    rw [hop]
    exact mem_singleton_self _
  · cases hx

lemma hashed_append (calls rest : List Call) :
    hashed (calls ++ rest) = hashed calls ++ hashed rest := by
  simp [hashed]

lemma CollisionFree.left {rest : List Call} (h : CollisionFree hexSha256 (calls ++ rest)) :
    CollisionFree hexSha256 calls := by
  intro x hx y hy
  rw [CollisionFree, hashed_append] at h
  exact h x (mem_append_left _ hx) y (mem_append_left _ hy)

/-- A string hashed last and an issued token with its hash are equal. -/
lemma CollisionFree.eq_of_issued {y : Str} (h : CollisionFree hexSha256 (calls ++ [c]))
    (hx : x ∈ issued calls) (hy : y ∈ c.hashes) (heq : hexSha256 x = hexSha256 y) : x = y := by
  have hlast : y ∈ hashed [c] := by simpa [hashed] using hy
  rw [CollisionFree, hashed_append] at h
  exact h x (mem_append_left _ (mem_hashed_of_mem_issued hx)) y
    (mem_append_right _ hlast) heq

/-- Every entry of a store stands for a token issued and not invalidated since. -/
def Traced (hexSha256 : Str → Str) (calls : List Call) (map : Tokens) : Prop :=
  ∀ k entry, map.lookup k = some entry → ∃ x, k = hexSha256 x ∧
    entry.tokenPrefix = x.take PREFIX_LEN ∧ Live calls x entry.expiresAt entry.once

variable {now : ℕ}

/-- An entry that survives an invalidation was not named by it. -/
lemma not_invalidates_of_lookup {needle : Str} (hfree : CollisionFree hexSha256 (calls ++ [c]))
    (htraced : Traced hexSha256 calls map) (hc : c.op = .invalidate needle)
    (hlive : Live calls x entry.expiresAt entry.once)
    (hentry : entry.tokenPrefix = x.take PREFIX_LEN)
    (h : (invalidate hexSha256 needle map).2.lookup (hexSha256 x) = some entry) :
    ¬ c.Invalidates x := by
  obtain ⟨-, hhash, hfallback⟩ := lookup_invalidate h
  obtain ⟨bytes, rfl⟩ := hlive.exists_bytes
  rintro (hx | hx)
  · -- the token itself: its hash is found
    rw [hc] at hx
    cases hx
    rw [trim_tokenOf] at hhash
    exact hhash rfl
  · -- its prefix: no token is as short as that, so the look-up of its hash fails
    rw [hc] at hx
    cases hx
    rw [trim_take_tokenOf] at hfallback
    refine hfallback ?_ hentry
    cases hfound : map.lookup (hexSha256 ((tokenOf bytes).take PREFIX_LEN)) with
    | none => rfl
    | some other =>
      obtain ⟨y, hy, -, hylive⟩ := htraced _ _ hfound
      have hyeq : y = (tokenOf bytes).take PREFIX_LEN := by
        refine hfree.eq_of_issued hylive.mem_issued ?_ hy.symm
        simp [Call.hashes, hc, trim_take_tokenOf]
      obtain ⟨bytes', rfl⟩ := hylive.exists_bytes
      have hlength := congrArg length hyeq
      rw [length_take, length_tokenOf, length_tokenOf] at hlength
      exact absurd hlength (by decide)

lemma Traced.perform (hfree : CollisionFree hexSha256 (calls ++ [c]))
    (h : Traced hexSha256 calls map) :
    Traced hexSha256 (calls ++ [c]) (perform hexSha256 map c).2 := by
  intro k entry hk
  unfold TokenStore.perform at hk
  cases hc : c.op with
  | generate bytes ttl once label =>
    rw [hc] at hk
    rcases lookup_generate hk with ⟨hhash, hshown, hexpires, honce⟩ | ⟨-, hold⟩
    · exact ⟨_, hhash, hshown, Live.concat_of_issues ⟨bytes, ttl, label, honce ▸ hc, rfl, hexpires⟩⟩
    · obtain ⟨x, hx, hshown, hlive⟩ := h k entry hold
      exact ⟨x, hx, hshown, hlive.concat (by simp [Call.Invalidates, hc])⟩
  | validate raw =>
    rw [hc] at hk
    obtain ⟨old, hold, heq⟩ := lookup_validate hk
    obtain ⟨x, hx, hshown, hlive⟩ := h k old hold
    have hlive' := hlive.concat (c := c) (by simp [Call.Invalidates, hc])
    rcases heq with rfl | rfl
    · exact ⟨x, hx, hshown, hlive'⟩
    · exact ⟨x, hx, hshown, hlive'⟩
  | invalidate needle =>
    rw [hc] at hk
    obtain ⟨x, rfl, hshown, hlive⟩ := h k entry (lookup_invalidate hk).1
    exact ⟨x, rfl, hshown, hlive.concat (not_invalidates_of_lookup hfree h hc hlive hshown hk)⟩
  | list =>
    rw [hc] at hk
    obtain ⟨x, hx, hshown, hlive⟩ := h k entry (lookup_list hk)
    exact ⟨x, hx, hshown, hlive.concat (by simp [Call.Invalidates, hc])⟩

theorem traced_after (hfree : CollisionFree hexSha256 calls) :
    Traced hexSha256 calls (after hexSha256 calls) := by
  induction calls using reverseRecOn with
  | nil =>
    intro k entry hk
    cases hk
  | append_singleton calls c ih =>
    rw [after_concat]
    exact (ih hfree.left).perform hfree

lemma live_of_validate (hfree : CollisionFree hexSha256 (calls ++ [⟨now, .validate x⟩]))
    (h : (validate hexSha256 x now (after hexSha256 calls)).1 = true) :
    ∃ entry, (after hexSha256 calls).lookup (hexSha256 x) = some entry ∧
      now ≤ entry.expiresAt ∧ Live calls x entry.expiresAt entry.once := by
  obtain ⟨entry, hentry, htime, -⟩ := validate_true h
  obtain ⟨y, hy, -, hlive⟩ := traced_after hfree.left _ _ hentry
  have hyx : y = x := hfree.eq_of_issued hlive.mem_issued (mem_singleton_self x) hy.symm
  exact ⟨entry, hentry, htime, hyx ▸ hlive⟩

/-! ### Tokens for one use -/

/-- An entry after a call was issued by it, or was there before and is at most used up since. -/
lemma lookup_perform {k : Str} (h : (perform hexSha256 map c).2.lookup k = some entry) :
    (∃ x, c.issues = some x ∧ k = hexSha256 x) ∨
      ∃ old, map.lookup k = some old ∧ (entry = old ∨ entry = { old with consumed := true }) := by
  unfold perform at h
  cases hc : c.op with
  | generate bytes ttl once label =>
    rw [hc] at h
    rcases lookup_generate h with ⟨hk, -⟩ | ⟨-, hold⟩
    · exact .inl ⟨tokenOf bytes, by rw [Call.issues, hc], hk⟩
    · exact .inr ⟨entry, hold, .inl rfl⟩
  | validate raw =>
    rw [hc] at h
    exact .inr (lookup_validate h)
  | invalidate needle =>
    rw [hc] at h
    exact .inr ⟨entry, (lookup_invalidate h).1, .inl rfl⟩
  | list =>
    rw [hc] at h
    exact .inr ⟨entry, lookup_list h, .inl rfl⟩

/-- A token not accepted so far, or accepted once and used up. -/
def Spent (hexSha256 : Str → Str) (x : Str) (calls : List Call) : Prop :=
  acceptances hexSha256 x calls = 0 ∨
    acceptances hexSha256 x calls = 1 ∧ x ∈ issued calls ∧
      ∀ entry, (after hexSha256 calls).lookup (hexSha256 x) = some entry →
        entry.once = true ∧ entry.consumed = true

lemma issued_concat (calls : List Call) (c : Call) :
    issued (calls ++ [c]) = issued calls ++ c.issues.toList := by
  cases h : c.issues <;> simp [issued, h]

lemma Call.mem_hashes_of_issues (h : c.issues = some x) : x ∈ c.hashes := by
  have hx : x ∈ hashed [c] := mem_hashed_of_mem_issued (by simp [issued, h])
  simpa [hashed] using hx

/-- A call that does not accept the token leaves it used up. -/
lemma Spent.concat_of_not (hfree : CollisionFree hexSha256 (calls ++ [c]))
    (hnodup : (issued (calls ++ [c])).Nodup) (h : Spent hexSha256 x calls)
    (hc : acceptances hexSha256 x (calls ++ [c]) = acceptances hexSha256 x calls) :
    Spent hexSha256 x (calls ++ [c]) := by
  unfold Spent
  rw [hc]
  rcases h with hzero | ⟨hone, hissued, hused⟩
  · exact .inl hzero
  refine .inr ⟨hone, by rw [issued_concat]; exact mem_append_left _ hissued, ?_⟩
  intro entry hentry
  rw [after_concat] at hentry
  rcases lookup_perform hentry with ⟨y, hy, hhash⟩ | ⟨old, hold, heq⟩
  · -- the token would be issued a second time
    have hxy : x = y := hfree.eq_of_issued hissued (Call.mem_hashes_of_issues hy) hhash
    rw [issued_concat, hy] at hnodup
    have hdisjoint := (nodup_append.1 hnodup).2.2 x hissued y (by simp)
    exact absurd hxy hdisjoint
  · obtain ⟨honce, hconsumed⟩ := hused old hold
    rcases heq with rfl | rfl
    · exact ⟨honce, hconsumed⟩
    · exact ⟨honce, rfl⟩

/-- The one acceptance of a `once` token uses it up. -/
lemma Spent.concat_of_accepted (hfree : CollisionFree hexSha256 (calls ++ [⟨now, .validate x⟩]))
    (honce : ∀ t once, Live calls x t once → once = true) (h : Spent hexSha256 x calls)
    (haccepted : (validate hexSha256 x now (after hexSha256 calls)).1 = true) :
    Spent hexSha256 x (calls ++ [⟨now, .validate x⟩]) := by
  obtain ⟨entry, hentry, -, hlive⟩ := live_of_validate hfree haccepted
  have hentryOnce : entry.once = true := honce _ _ hlive
  obtain ⟨entry', hentry', -, huse⟩ := validate_true haccepted
  obtain rfl : entry = entry' := Option.some.inj (hentry.symm.trans hentry')
  obtain ⟨hfresh, hnew⟩ := huse hentryOnce
  have hcount : acceptances hexSha256 x (calls ++ [⟨now, .validate x⟩]) =
      acceptances hexSha256 x calls + 1 := by
    rw [acceptances_concat, if_pos ⟨rfl, congrArg Reply.verdict haccepted⟩]
  rcases h with hzero | ⟨-, -, hused⟩
  · refine .inr ⟨by rw [hcount, hzero], ?_, ?_⟩
    · rw [issued_concat]
      exact mem_append_left _ hlive.mem_issued
    · intro e he
      have hafter : after hexSha256 (calls ++ [⟨now, .validate x⟩]) =
          (validate hexSha256 x now (after hexSha256 calls)).2 := after_concat _ _
      rw [hafter, hnew, AList.lookup_insert] at he
      cases he
      exact ⟨hentryOnce, rfl⟩
  · have := (hused entry hentry).2
    rw [hfresh] at this
    cases this

theorem spent_of_once (hfree : CollisionFree hexSha256 calls) (hnodup : (issued calls).Nodup)
    (honce : ∀ c ∈ calls, ∀ t once, c.Issues x t once → once = true) :
    Spent hexSha256 x calls := by
  induction calls using reverseRecOn with
  | nil => exact .inl rfl
  | append_singleton calls c ih =>
    have hnodup' : (issued calls).Nodup := by
      rw [issued_concat] at hnodup
      exact hnodup.of_append_left
    have hspent := ih hfree.left hnodup' fun c' hc' => honce c' (mem_append_left _ hc')
    by_cases hc : c.op = .validate x ∧
        (perform hexSha256 (after hexSha256 calls) c).1 = .verdict true
    · obtain ⟨now, op⟩ := c
      obtain ⟨rfl, hverdict⟩ := hc
      refine hspent.concat_of_accepted hfree ?_ (Reply.verdict.inj hverdict)
      rintro t once ⟨before, c₀, later, rfl, hissues, -⟩
      exact honce c₀ (by simp) t once hissues
    · refine hspent.concat_of_not hfree hnodup ?_
      rw [acceptances_concat, if_neg hc]
      rfl

/-- With different tokens, the calls that issue one token are one call. -/
lemma eq_of_issues (hnodup : (issued calls).Nodup) {c' : Call} (hc : c ∈ calls) (hc' : c' ∈ calls)
    (h : c.issues = some x) (h' : c'.issues = some x) : c = c' := by
  by_contra hne
  have : Std.Symm fun a b : Call =>
      ∀ x, a.issues = some x → ∀ y, b.issues = some y → x ≠ y :=
    ⟨fun a b hab x hx y hy => (hab y hy x hx).symm⟩
  exact (pairwise_filterMap.1 hnodup).forall hc hc' hne x h x h' rfl

lemma Call.Issues.issues_eq (h : c.Issues x t once) : c.issues = some x := by
  obtain ⟨bytes, ttl, label, hop, rfl, -⟩ := h
  rw [Call.issues, hop]

lemma Call.Issues.once_eq {t' : ℕ} {once' : Bool} (h : c.Issues x t once)
    (h' : c.Issues x t' once') : once = once' := by
  obtain ⟨_, _, _, hop, -⟩ := h
  obtain ⟨_, _, _, hop', -⟩ := h'
  rw [hop] at hop'
  cases hop'
  rfl

/-- **Token lifecycle**: in a history with different tokens and no colliding hashes, a validation
returns true only for a token issued before, in time and not invalidated since, and at most once
for a `once` token. -/
theorem token_lifecycle (hexSha256 : Str → Str) (calls : List Call)
    (hdistinct : (issued calls).Nodup) (hfree : CollisionFree hexSha256 calls) :
    (∀ earlier now x rest, calls = earlier ++ ⟨now, .validate x⟩ :: rest →
      (perform hexSha256 (after hexSha256 earlier) ⟨now, .validate x⟩).1 = .verdict true →
      ∃ expiresAt once, Live earlier x expiresAt once ∧ now ≤ expiresAt) ∧
    ∀ c ∈ calls, ∀ x expiresAt, c.Issues x expiresAt true → acceptances hexSha256 x calls ≤ 1 := by
  constructor
  · rintro earlier now x rest rfl hverdict
    have hfree' : CollisionFree hexSha256 (earlier ++ [⟨now, .validate x⟩]) := by
      rw [append_cons] at hfree
      exact hfree.left
    obtain ⟨entry, -, htime, hlive⟩ := live_of_validate hfree' (Reply.verdict.inj hverdict)
    exact ⟨entry.expiresAt, entry.once, hlive, htime⟩
  · intro c hc x t hissues
    have honce : ∀ c' ∈ calls, ∀ t once, c'.Issues x t once → once = true := by
      intro c' hc' t' once' hissues'
      obtain rfl := eq_of_issues hdistinct hc hc' hissues.issues_eq hissues'.issues_eq
      exact (hissues.once_eq hissues').symm
    rcases spent_of_once hfree hdistinct honce with hzero | ⟨hone, -⟩
    · omega
    · omega

/-- The token of 32 zero bytes. -/
def zeroBytes : RandomBytes := ⟨List.replicate 32 0, rfl⟩

/-- SHA-256 of that token, the only text that is hashed below. -/
def hashOfZeroToken (_ : Str) : Str :=
  "0f007385b6f9d4b7eeb2748605afe1a984a0a3bfa3f014d09e2a784ce9e5cd1a"

/-- A token for one use, presented twice and listed. -/
def presentedTwice : List Call :=
  [⟨0, .generate zeroBytes 10 true none⟩, ⟨5, .validate (tokenOf zeroBytes)⟩, ⟨6, .list⟩,
    ⟨7, .validate (tokenOf zeroBytes)⟩]

theorem token_lifecycle_presentedTwice :
    (∃ expiresAt once,
      Live (presentedTwice.take 1) (tokenOf zeroBytes) expiresAt once ∧ 5 ≤ expiresAt) ∧
    acceptances hashOfZeroToken (tokenOf zeroBytes) presentedTwice ≤ 1 := by
  have h := token_lifecycle hashOfZeroToken presentedTwice (by decide +kernel) (by decide +kernel)
  refine ⟨h.1 (presentedTwice.take 1) 5 _ (presentedTwice.drop 2) rfl (by decide +kernel), ?_⟩
  exact h.2 _ (mem_cons_self) _ 10 ⟨zeroBytes, 10, none, rfl, rfl, rfl⟩

end CrossHostOps.TokenStore
