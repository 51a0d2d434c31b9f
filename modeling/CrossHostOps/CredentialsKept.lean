import CrossHostOps.SecretEncrypt

/-!
When `xho secret encrypt` preserves the credentials: each secret that the configuration holds, as
a literal or by reference, has the plaintext it had, and no supported field holds a literal.
-/

namespace CrossHostOps.CredentialsKept

open Text Results Config SecretVault Toml SecretEncrypt List

variable {κ ν γ : Type} (host : Host κ ν γ) (s : Settings)

/-! ### Resolution by the daemon -/

def secretResolver (fallbackIdentity : Option Str) : SecretResolver where
  vaultPath := s.vaultPath
  keySource := s.config.secret.keySource <|>
    (if s.config.server.remote.enable then some s.config.server.remote.hostKeyPath else none) <|>
      fallbackIdentity

def bastionIdentity (gateway : Str) : GatewayConfig → Option Str
  | .jumpserver c => if c.name = gateway then some c.identityFile else none
  | _ => none

/-- The identity that the reader of a field passes to `secret_resolver`: the review passes none, a
bastion its own. The password of a gateway has no reader; it is taken as that of a server. -/
def fallbackIdentity : Field → Option Str
  | .serverPassword _ => s.server.defaults.identityFile
  | .apiKey => none
  | .header _ => none
  | .gatewayPassword _ => s.server.defaults.identityFile
  | .gatewayTotp gateway =>
    s.config.gateways.findSome? (bastionIdentity gateway) <|> s.server.defaults.identityFile

def fieldResolver (field : Field) : SecretResolver := secretResolver s (fallbackIdentity s field)

def resolveSlot (vault : FileContent (Vault ν γ)) (slot : Slot) : Except Str Str :=
  resolve host (fieldResolver s slot.field) vault (Secret.fromReference slot.value)

/-- A `vault:` reference, with the resolver of the place it stands in. -/
structure Reference where
  name : Str
  resolver : SecretResolver

def slotReference (slot : Slot) : Option Reference :=
  match (Secret.fromReference slot.value).source with
  | .vault name => some ⟨name, fieldResolver s slot.field⟩
  | _ => none

/-- What a reference resolved to, it still resolves to. -/
def KeepsReference (vault vault' : FileContent (Vault ν γ)) (r : Reference) : Prop :=
  ∀ text, resolveVault host r.resolver vault r.name = .ok text →
    resolveVault host r.resolver vault' r.name = .ok text

/-- Every credential is preserved; `elsewhere` are the references in places other than the
supported fields. -/
structure Preserves (elsewhere : List Reference) (files files' : Files ν γ) : Prop where
  fields : List.Forall₂ (fun slot slot' => slot'.field = slot.field ∧
    ∀ text, resolveSlot host s files.vault slot = .ok text →
      resolveSlot host s files'.vault slot' = .ok text) files.slots files'.slots
  references : ∀ r ∈ elsewhere, KeepsReference host files.vault files'.vault r
  encrypted : ∀ slot ∈ files'.slots, ¬slot.Plain

/-! ### The condition -/

/-- The reader of a field derives the key from the identity that the command encrypts with. -/
def SharesKey (field : Field) : Prop :=
  ∃ key source identity identity', keySource host.process s = .ok key ∧
    (fieldResolver s field).keySource = some source ∧
      loadIdentity host key = .ok identity ∧ loadIdentity host source = .ok identity' ∧
        identity'.fingerprint = identity.fingerprint

/-- All plaintexts are where the command looks, their readers share its key, and no entry that it
stores takes the place of another plaintext, of this run or of a reference. -/
structure Keeps (elsewhere : List Reference) (dryRun : Bool) (files : Files ν γ) : Prop where
  seen : ∀ slot ∈ files.slots, slot.Plain → slot.seen ∧ dryRun = false
  sharesKey : ∀ slot ∈ files.slots, slot.Plain → SharesKey host s slot.field
  apart : ∀ slot ∈ files.slots, ∀ slot' ∈ files.slots, slot.Plain → slot'.Plain →
    slot.field.entry = slot'.field.entry → slot.value = slot'.value
  unused : ∀ r ∈ files.slots.filterMap (slotReference s) ++ elsewhere,
    ∀ slot ∈ files.slots, slot.Plain → slot.field.entry = r.name →
      ∀ text, resolveVault host r.resolver files.vault r.name = .ok text → text = slot.value

/-! ### The vault after the command -/

variable {host} {s} {found : List Found} {vault vault' : Vault ν γ} {k : κ} {name : Str}

/-- What a vault holds once all of `found` is stored in it under the key `k`. -/
structure Stored (host : Host κ ν γ) (found : List Found) (k : κ) (vault vault' : Vault ν γ) :
    Prop where
  header : SameHeader vault vault'
  old : ∀ name ∉ found.map Found.entry, vault'.entries.lookup name = vault.entries.lookup name
  new : ∀ name ∈ found.map Found.entry, ∃ f ∈ found, f.entry = name ∧
    ∃ nonce, vault'.entries.lookup name = some ⟨nonce, host.aead.encrypt k nonce f.plaintext⟩

lemma stored_of_setAll {key : Str} {nonces : ℕ → ν} (hk : deriveKey host vault key = .ok k)
    (h : setAll host key nonces found vault = .ok vault') : Stored host found k vault vault' := by
  induction found generalizing vault with
  | nil =>
    cases h
    exact ⟨⟨rfl, rfl⟩, fun _ _ => rfl, fun _ hname => absurd hname not_mem_nil⟩
  | cons f rest ih =>
    obtain ⟨next, hset, h⟩ := bind_ok.1 h
    obtain ⟨k', hk', hset⟩ := bind_ok.1 hset
    cases hk.symm.trans hk'
    cases hset
    have hheader : SameHeader vault (insert vault f.entry
        ⟨nonces rest.length, host.aead.encrypt k (nonces rest.length) f.plaintext⟩) := ⟨rfl, rfl⟩
    have hrest := ih ((hheader.deriveKey_eq key).trans hk) h
    refine ⟨⟨hrest.header.1, hrest.header.2⟩, fun name hname => ?_, fun name hname => ?_⟩
    · rw [map_cons, mem_cons, not_or] at hname
      rw [hrest.old name hname.2, lookup_insert, if_neg hname.1]
    · by_cases hlater : name ∈ rest.map Found.entry
      · obtain ⟨f', hf', hentry⟩ := hrest.new name hlater
        exact ⟨f', mem_cons_of_mem _ hf', hentry⟩
      · -- no later entry of this name replaces the one just stored
        have hname : name = f.entry := (mem_cons.1 hname).resolve_right hlater
        refine ⟨f, mem_cons_self, hname.symm, nonces rest.length, ?_⟩
        rw [hrest.old name hlater, lookup_insert, if_pos hname]

namespace Stored

lemma get_old (h : Stored host found k vault vault') (hname : name ∉ found.map Found.entry)
    (source : Str) : get host vault' name source = get host vault name source := by
  rw [SecretVault.get, SecretVault.get, h.old name hname, h.header.deriveKey_eq]

/-- A stored entry opens to one plaintext of its name, with every key source of the vault. -/
lemma get_new {key : Str} (h : Stored host found k vault vault')
    (hk : deriveKey host vault key = .ok k) (hname : name ∈ found.map Found.entry) :
    ∃ f ∈ found, f.entry = name ∧ ∀ source text, get host vault' name source = .ok text ↔
      (∃ k', deriveKey host vault source = .ok k') ∧ text = f.plaintext := by
  obtain ⟨f, hf, hentry, nonce, hlookup⟩ := h.new name hname
  refine ⟨f, hf, hentry, fun source text => ?_⟩
  rw [get_ok, h.header.deriveKey_eq]
  constructor
  · rintro ⟨entry, k', hlookup', hk', hplain⟩
    cases hlookup.symm.trans hlookup'
    cases deriveKey_unique hk hk'
    rw [host.aead.decrypt_encrypt] at hplain
    exact ⟨⟨k, hk'⟩, (Option.some.inj hplain).symm⟩
  · rintro ⟨⟨k', hk'⟩, rfl⟩
    cases deriveKey_unique hk hk'
    exact ⟨_, k, hlookup, hk', host.aead.decrypt_encrypt k nonce f.plaintext⟩

end Stored

/-! ### The ways in which the command succeeds -/

variable {files files' : Files ν γ} {dryRun : Bool} {salt : Bytes} {nonces : ℕ → ν}
  {elsewhere : List Reference}

structure Encrypted (host : Host κ ν γ) (s : Settings) (files files' : Files ν γ) (key : Str)
    (k : κ) (vault vault' : Vault ν γ) : Prop where
  key_ok : keySource host.process s = .ok key
  opened : files.vault = .content vault ∨ files.vault = .missing
  derived : deriveKey host vault key = .ok k
  stored : Stored host (files.slots.filterMap Slot.found) k vault vault'
  slots_eq : files'.slots = files.slots.map Slot.rewritten
  vault_eq : files'.vault = .content vault'

lemma opened_of_openOrInit {path key : Str} {file : FileContent (Vault ν γ)}
    (h : openOrInit host path key salt file = .ok vault) :
    file = .content vault ∨ file = .missing := by
  cases file with
  | missing => exact .inr rfl
  | unreadable e => cases h
  | content vault' => cases h; exact .inl rfl

lemma encrypt_ok (h : encrypt host s salt nonces dryRun files = .ok files') :
    (files' = files ∧ (files.slots.filterMap Slot.found = [] ∨ dryRun = true)) ∨
      dryRun = false ∧ ∃ key k vault vault', Encrypted host s files files' key k vault vault' := by
  obtain ⟨config, hconfig, h⟩ := bind_ok.1 h
  obtain ⟨server, hserver, h⟩ := bind_ok.1 h
  have hfound : collect server config = files.slots.filterMap Slot.found :=
    (tracks_files hserver hconfig files.vault).2
  rw [hfound] at h
  by_cases hnothing : (files.slots.filterMap Slot.found).isEmpty || dryRun
  · rw [if_pos hnothing] at h
    cases h
    rw [Bool.or_eq_true, List.isEmpty_iff] at hnothing
    exact .inl ⟨rfl, hnothing⟩
  · rw [if_neg hnothing] at h
    obtain ⟨key, hkey, h⟩ := bind_ok.1 h
    obtain ⟨vault, hopen, h⟩ := bind_ok.1 h
    obtain ⟨vault', hset, h⟩ := bind_ok.1 h
    cases h
    rw [Bool.or_eq_true, List.isEmpty_iff, not_or, Bool.not_eq_true] at hnothing
    -- the first entry of the loop has derived the key
    obtain ⟨k, hk⟩ : ∃ k, deriveKey host vault key = .ok k := by
      obtain ⟨f, rest, hcons⟩ := List.exists_cons_of_ne_nil hnothing.1
      rw [hcons] at hset
      obtain ⟨next, hnext, -⟩ := bind_ok.1 hset
      obtain ⟨k, hk, -⟩ := bind_ok.1 hnext
      exact ⟨k, hk⟩
    exact .inr ⟨hnothing.2, key, k, vault, vault', hkey, opened_of_openOrInit hopen, hk,
      stored_of_setAll hk hset, (tracks_files hserver hconfig _).1, rfl⟩

/-! ### Slots -/

variable {slot : Slot}

lemma source_of_plain (h : slot.Plain) :
    (Secret.fromReference slot.value).source = .literal slot.value := by
  have hreference : isReference slot.value = false := by
    simp only [Slot.Plain, isPlaintext, Bool.and_eq_true, Bool.not_eq_true'] at h
    exact h.2
  -- each prefix of a reference is one that the command knows
  unfold Secret.fromReference
  split
  · rename_i hvalue
    rw [hvalue] at hreference
    cases hreference
  · rename_i hvalue
    rw [hvalue] at hreference
    cases hreference
  · rename_i hvalue
    rw [hvalue] at hreference
    cases hreference
  · rfl

lemma resolveSlot_of_plain (h : slot.Plain) (file : FileContent (Vault ν γ)) :
    resolveSlot host s file slot = .ok slot.value := by
  rw [resolveSlot, resolve, source_of_plain h]

lemma slotReference_of_plain (h : slot.Plain) : slotReference s slot = none := by
  rw [slotReference, source_of_plain h]

lemma rewritten_of_plain (hseen : slot.seen) (h : slot.Plain) :
    slot.rewritten = { slot with value := vaultReference slot.field.entry } :=
  if_pos ⟨hseen, h⟩

lemma rewritten_of_not_plain (h : ¬slot.Plain) : slot.rewritten = slot :=
  if_neg fun hboth => h hboth.2

lemma field_rewritten (slot : Slot) : slot.rewritten.field = slot.field := by
  rw [Slot.rewritten]
  split_ifs <;> rfl

lemma not_plain_reference (field : Field) (entry : Str) (seen : Bool) :
    ¬(Slot.mk field (vaultReference entry) seen).Plain := by
  have hreference : isReference (vaultReference entry) = true := rfl
  rw [Slot.Plain, isPlaintext, hreference]
  simp

lemma mem_found {f : Found} :
    f ∈ files.slots.filterMap Slot.found ↔
      ∃ slot ∈ files.slots, (slot.seen ∧ slot.Plain) ∧ Found.at slot.field slot.value = f := by
  simp [Slot.found]

lemma mem_found_entries :
    name ∈ (files.slots.filterMap Slot.found).map Found.entry ↔
      ∃ slot ∈ files.slots, (slot.seen ∧ slot.Plain) ∧ slot.field.entry = name := by
  rw [mem_map]
  constructor
  · rintro ⟨f, hf, rfl⟩
    obtain ⟨slot, hslot, hboth, rfl⟩ := mem_found.1 hf
    exact ⟨slot, hslot, hboth, rfl⟩
  · rintro ⟨slot, hslot, hboth, rfl⟩
    exact ⟨_, mem_found.2 ⟨slot, hslot, hboth, rfl⟩, rfl⟩

/-! ### A run that encrypts -/

namespace Encrypted

variable {key : Str} {r : Reference} {slot : Slot} {text : Str}

lemma resolveSlot_rewritten (hseen : slot.seen) (hplain : slot.Plain) :
    resolveSlot host s files'.vault slot.rewritten =
      resolveVault host (fieldResolver s slot.field) files'.vault slot.field.entry := by
  rw [rewritten_of_plain hseen hplain]
  rfl

lemma resolveSlot_of_reference (hr : slotReference s slot = some r)
    (file : FileContent (Vault ν γ)) :
    resolveSlot host s file slot = resolveVault host r.resolver file r.name := by
  rw [slotReference] at hr
  rw [resolveSlot, resolve]
  split at hr
  · rename_i name hsource
    cases hr
    simp [hsource]
  · cases hr

lemma resolveSlot_of_no_reference (hr : slotReference s slot = none)
    (file file' : FileContent (Vault ν γ)) :
    resolveSlot host s file slot = resolveSlot host s file' slot := by
  rw [slotReference] at hr
  rw [resolveSlot, resolveSlot, resolve, resolve]
  cases hsource : (Secret.fromReference slot.value).source with
  | vault name => simp [hsource] at hr
  | literal | env | file => rfl

variable (h : Encrypted host s files files' key k vault vault')

include h

lemma sharesKey_iff (field : Field) :
    SharesKey host s field ↔
      ∃ source k', (fieldResolver s field).keySource = some source ∧
        deriveKey host vault source = .ok k' := by
  obtain ⟨identity, hidentity, hsame, -⟩ := deriveKey_ok.1 h.derived
  constructor
  · rintro ⟨key', source, identity', identity'', hkey, hsource, hload, hload', hprint⟩
    cases h.key_ok.symm.trans hkey
    cases hidentity.symm.trans hload
    exact ⟨source, _, hsource, deriveKey_ok.2 ⟨identity'', hload', hprint.trans hsame, rfl⟩⟩
  · rintro ⟨source, k', hsource, hk'⟩
    obtain ⟨identity', hload', hsame', -⟩ := deriveKey_ok.1 hk'
    exact ⟨key, source, identity, identity', h.key_ok, hsource, hidentity, hload',
      hsame'.trans hsame.symm⟩

/-- What a reference resolved to before was in the vault that the command has opened. -/
lemma before (hok : resolveVault host r.resolver files.vault r.name = .ok text) :
    ∃ source k', r.resolver.keySource = some source ∧
      deriveKey host vault source = .ok k' ∧ get host vault r.name source = .ok text := by
  obtain ⟨source, opened, hsource, hfile, hget⟩ := resolveVault_ok.1 hok
  rcases h.opened with hopened | hmissing
  · cases hopened.symm.trans hfile
    obtain ⟨entry, k', -, hk', -⟩ := get_ok.1 hget
    exact ⟨source, k', hsource, hk', hget⟩
  · cases hmissing.symm.trans hfile

/-- The entry of an encrypted field holds the plaintext of a field with this entry. -/
lemma after (hslot : slot ∈ files.slots) (hseen : slot.seen) (hplain : slot.Plain) :
    ∃ last ∈ files.slots, (last.seen ∧ last.Plain) ∧ last.field.entry = slot.field.entry ∧
      ∀ resolver text, resolveVault host resolver files'.vault slot.field.entry = .ok text ↔
        (∃ source k', resolver.keySource = some source ∧
          deriveKey host vault source = .ok k') ∧ text = last.value := by
  obtain ⟨f, hf, hentry, hget⟩ :=
    h.stored.get_new h.derived (mem_found_entries.2 ⟨slot, hslot, ⟨hseen, hplain⟩, rfl⟩)
  obtain ⟨last, hlast, hboth, rfl⟩ := mem_found.1 hf
  refine ⟨last, hlast, hboth, hentry, fun resolver text => ?_⟩
  rw [h.vault_eq, resolveVault_ok]
  constructor
  · rintro ⟨source, opened, hsource, hfile, hok⟩
    cases hfile
    obtain ⟨⟨k', hk'⟩, htext⟩ := (hget source text).1 hok
    exact ⟨⟨source, k', hsource, hk'⟩, htext⟩
  · rintro ⟨⟨source, k', hsource, hk'⟩, htext⟩
    exact ⟨source, vault', hsource, rfl, (hget source text).2 ⟨⟨k', hk'⟩, htext⟩⟩

/-- A reference keeps its plaintext unless an entry of its name is stored with another. -/
lemma keepsReference_iff
    (hapart : ∀ slot ∈ files.slots, ∀ slot' ∈ files.slots, slot.Plain → slot'.Plain →
      slot.field.entry = slot'.field.entry → slot.value = slot'.value) :
    KeepsReference host files.vault files'.vault r ↔
      ∀ slot ∈ files.slots, slot.seen → slot.Plain → slot.field.entry = r.name →
        ∀ text, resolveVault host r.resolver files.vault r.name = .ok text →
          text = slot.value := by
  constructor
  · intro hkeeps slot hslot hseen hplain hentry text hok
    obtain ⟨last, hlast, hboth, hsame, hafter⟩ := h.after hslot hseen hplain
    rw [hentry] at hafter
    have htext : text = last.value := ((hafter _ _).1 (hkeeps text hok)).2
    rw [htext]
    exact hapart last hlast slot hslot hboth.2 hplain hsame
  · intro hsame text hok
    obtain ⟨source, k', hsource, hk', hget⟩ := h.before hok
    by_cases hname : r.name ∈ (files.slots.filterMap Slot.found).map Found.entry
    · obtain ⟨slot, hslot, ⟨hseen, hplain⟩, hentry⟩ := mem_found_entries.1 hname
      obtain ⟨last, hlast, hboth, hlastEntry, hafter⟩ := h.after hslot hseen hplain
      rw [hentry] at hafter
      refine (hafter _ _).2 ⟨⟨source, k', hsource, hk'⟩, ?_⟩
      exact hsame last hlast hboth.1 hboth.2 (hlastEntry.trans hentry) text hok
    · rw [h.vault_eq, resolveVault_ok]
      exact ⟨source, vault', hsource, rfl, (h.stored.get_old hname source).trans hget⟩

lemma fields_iff :
    List.Forall₂ (fun slot slot' => slot'.field = slot.field ∧
      ∀ text, resolveSlot host s files.vault slot = .ok text →
        resolveSlot host s files'.vault slot' = .ok text) files.slots files'.slots ↔
    ∀ slot ∈ files.slots, ∀ text, resolveSlot host s files.vault slot = .ok text →
      resolveSlot host s files'.vault slot.rewritten = .ok text := by
  rw [h.slots_eq, forall₂_map_right_iff, forall₂_same]
  exact forall₂_congr fun slot _ => and_iff_right (field_rewritten slot)

lemma preserves_of_keeps (hk : Keeps host s elsewhere false files) :
    Preserves host s elsewhere files files' := by
  have hkeeps : ∀ r ∈ files.slots.filterMap (slotReference s) ++ elsewhere,
      KeepsReference host files.vault files'.vault r := by
    intro r hr
    rw [h.keepsReference_iff hk.apart]
    exact fun slot hslot _ hplain hentry => hk.unused r hr slot hslot hplain hentry
  refine ⟨h.fields_iff.2 fun slot hslot text hok => ?_, fun r hr => ?_, fun slot hslot => ?_⟩
  · by_cases hplain : slot.Plain
    · have hseen := (hk.seen slot hslot hplain).1
      obtain ⟨last, hlast, hboth, hentry, hafter⟩ := h.after hslot hseen hplain
      rw [resolveSlot_of_plain hplain] at hok
      cases hok
      rw [resolveSlot_rewritten hseen hplain, hafter]
      exact ⟨(h.sharesKey_iff slot.field).1 (hk.sharesKey slot hslot hplain),
        hk.apart slot hslot last hlast hplain hboth.2 hentry.symm⟩
    · rw [rewritten_of_not_plain hplain]
      cases hr : slotReference s slot with
      | none => rwa [resolveSlot_of_no_reference hr files'.vault files.vault]
      | some r =>
        rw [resolveSlot_of_reference hr] at hok ⊢
        exact hkeeps r (mem_append_left _ (mem_filterMap.2 ⟨slot, hslot, hr⟩)) text hok
  · exact hkeeps r (mem_append_right _ hr)
  · rw [h.slots_eq] at hslot
    obtain ⟨old, hold, rfl⟩ := mem_map.1 hslot
    by_cases hplain : old.Plain
    · rw [rewritten_of_plain (hk.seen old hold hplain).1 hplain]
      exact not_plain_reference _ _ _
    · rwa [rewritten_of_not_plain hplain]

variable (hp : Preserves host s elsewhere files files')

include hp

lemma seen_of_preserves (hslot : slot ∈ files.slots) (hplain : slot.Plain) : slot.seen := by
  by_contra hunseen
  have hsame : slot.rewritten = slot := if_neg fun hboth => hunseen hboth.1
  refine hp.encrypted slot ?_ hplain
  rw [h.slots_eq]
  exact mem_map.2 ⟨slot, hslot, hsame⟩

/-- The reference in the place of a literal resolves to it. -/
lemma literal_of_preserves (hslot : slot ∈ files.slots) (hplain : slot.Plain) :
    resolveVault host (fieldResolver s slot.field) files'.vault slot.field.entry =
      .ok slot.value := by
  rw [← resolveSlot_rewritten (h.seen_of_preserves hp hslot hplain) hplain]
  exact h.fields_iff.1 hp.fields slot hslot slot.value (resolveSlot_of_plain hplain files.vault)

lemma apart_of_preserves :
    ∀ slot ∈ files.slots, ∀ slot' ∈ files.slots, slot.Plain → slot'.Plain →
      slot.field.entry = slot'.field.entry → slot.value = slot'.value := by
  intro slot hslot slot' hslot' hplain hplain' hentry
  obtain ⟨last, -, -, -, hafter⟩ :=
    h.after hslot (h.seen_of_preserves hp hslot hplain) hplain
  have hliteral' := h.literal_of_preserves hp hslot' hplain'
  rw [← hentry] at hliteral'
  calc slot.value
    _ = last.value := ((hafter _ _).1 (h.literal_of_preserves hp hslot hplain)).2
    _ = slot'.value := ((hafter _ _).1 hliteral').2.symm

lemma keepsReference_of_preserves (hr : r ∈ files.slots.filterMap (slotReference s) ++ elsewhere) :
    KeepsReference host files.vault files'.vault r := by
  rcases mem_append.1 hr with hr | hr
  · obtain ⟨holder, hholder, hr⟩ := mem_filterMap.1 hr
    have hnot : ¬holder.Plain := by
      intro hplain
      cases (slotReference_of_plain hplain).symm.trans hr
    intro text hok
    rw [← resolveSlot_of_reference hr] at hok ⊢
    rw [← rewritten_of_not_plain hnot]
    exact h.fields_iff.1 hp.fields holder hholder text hok
  · exact hp.references r hr

lemma keeps_of_preserves : Keeps host s elsewhere false files := by
  refine ⟨fun slot hslot hplain => ⟨h.seen_of_preserves hp hslot hplain, rfl⟩, ?_,
    h.apart_of_preserves hp, ?_⟩
  · intro slot hslot hplain
    obtain ⟨last, -, -, -, hafter⟩ :=
      h.after hslot (h.seen_of_preserves hp hslot hplain) hplain
    rw [h.sharesKey_iff slot.field]
    exact ((hafter _ _).1 (h.literal_of_preserves hp hslot hplain)).1
  · intro r hr slot hslot hplain hentry
    have hkeeps := h.keepsReference_of_preserves hp hr
    rw [h.keepsReference_iff (h.apart_of_preserves hp)] at hkeeps
    exact hkeeps slot hslot (h.seen_of_preserves hp hslot hplain) hplain hentry

end Encrypted

/-! ### A run that leaves all as it is -/

lemma preserves_unchanged_iff
    (h : files.slots.filterMap Slot.found = [] ∨ dryRun = true) :
    Preserves host s elsewhere files files ↔ Keeps host s elsewhere dryRun files := by
  constructor
  · intro hp
    have hnone : ∀ {P : Prop}, ∀ slot ∈ files.slots, slot.Plain → P :=
      fun slot hslot hplain => absurd hplain (hp.encrypted slot hslot)
    exact ⟨fun slot hslot => hnone slot hslot, fun slot hslot => hnone slot hslot, fun slot hslot _
      _ => hnone slot hslot, fun _ _ slot hslot hplain => hnone slot hslot hplain⟩
  · intro hk
    have hnone : ∀ slot ∈ files.slots, ¬slot.Plain := by
      intro slot hslot hplain
      obtain ⟨hseen, hdry⟩ := hk.seen slot hslot hplain
      rcases h with hempty | hdry'
      · exact not_mem_nil (hempty ▸ mem_found.2 ⟨slot, hslot, ⟨hseen, hplain⟩, rfl⟩)
      · exact absurd (hdry.symm.trans hdry') (by decide)
    exact ⟨forall₂_same.2 fun _ _ => ⟨rfl, fun _ => id⟩, fun _ _ _ => id, hnone⟩

theorem encrypt_preserves_iff (h : encrypt host s salt nonces dryRun files = .ok files')
    (elsewhere : List Reference) :
    Preserves host s elsewhere files files' ↔ Keeps host s elsewhere dryRun files := by
  obtain ⟨rfl, hnothing⟩ | ⟨rfl, key, k, vault, vault', hencrypted⟩ := encrypt_ok h
  · exact preserves_unchanged_iff hnothing
  · exact ⟨hencrypted.keeps_of_preserves, hencrypted.preserves_of_keeps⟩

/-! ### Runs -/

section Runs

/-- A cipher that puts the key beside the text. -/
def pairing : Aead Bytes Unit (Bytes × Str) where
  encrypt key _ text := (key, text)
  decrypt key _ ciphertext := if ciphertext.1 = key then some ciphertext.2 else none
  decrypt_encrypt _ _ _ := if_pos rfl

/-- A host on which every path holds a private key, another one for each. -/
def keyedHost : Host Bytes Unit (Bytes × Str) where
  process := bareHost
  readFile _ := .error []
  privateKey path := .ok ⟨path, ascii path⟩
  hkdf salt ikm := salt ++ ikm
  aead := pairing
  ikm_eq := by
    intro path path' identity identity' h h' hsame
    cases h
    cases h'
    exact congrArg ascii hsame

def identityPath : Str := "/root/.ssh/id_ed25519"

/-- Only the defaults of `server.toml` name an identity. -/
def localSettings : Settings where
  config := .default bareHost
  server := { defaults := { identityFile := some identityPath } }
  vaultPath := "/root/.xho/secrets"

/-- `[secret].key_source` is set. -/
def keySettings : Settings :=
  { localSettings with
    config := { AppConfig.default bareHost with secret := { keySource := some identityPath } } }

/-- A vault with one entry, for the identity of the host. -/
def vaultWith (name text : Str) : FileContent (Vault Unit (Bytes × Str)) :=
  .content ⟨[], identityPath, [(name, ⟨(), ascii identityPath, text⟩)]⟩

def webEntry : Table :=
  [("host", .str "10.0.0.1"), ("user", .str "root"),
    ("password", .str "hunter2")]

def serverDoc : FileContent Table :=
  .content [("servers", .table [("web", .table webEntry)])]

/-- The same servers, as `servers = {web = {…}}`. -/
def inlineDoc : FileContent Table :=
  .content [("servers", .inlineTable [("web", .inlineTable webEntry)])]

def reviewDoc : FileContent Table :=
  .content [("review", .table [("api_key", .str "sk-1")])]

def tokenReference (s : Settings) (name : Str) : Reference := ⟨name, secretResolver s none⟩

def mixedFiles : Files Unit (Bytes × Str) :=
  ⟨serverDoc, reviewDoc, vaultWith "token" "t-0"⟩

theorem encrypt_preserves_iff_keySet :
    ∃ files', encrypt keyedHost keySettings [] (fun _ => ()) false mixedFiles = .ok files' ∧
      Preserves keyedHost keySettings [tokenReference keySettings "token"] mixedFiles
        files' := by
  obtain ⟨files', h⟩ := isOk_iff.1 (show (encrypt keyedHost keySettings [] (fun _ => ()) false
    mixedFiles).isOk from by decide +kernel)
  refine ⟨files', h, (encrypt_preserves_iff h _).2 ⟨by decide +kernel, fun slot _ _ => ?_,
    by decide +kernel, fun r hr slot hslot _ hentry => ?_⟩⟩
  · exact ⟨identityPath, identityPath, _, _, rfl, rfl, rfl, rfl, rfl⟩
  · have hfree : ∀ r ∈ mixedFiles.slots.filterMap (slotReference keySettings) ++
        [tokenReference keySettings "token"],
          ∀ slot ∈ mixedFiles.slots, slot.field.entry ≠ r.name := by decide +kernel
    exact absurd hentry (hfree r hr slot hslot)

/-- Without a key source the review cannot open what the command has stored. -/
def reviewFiles : Files Unit (Bytes × Str) := ⟨.missing, reviewDoc, .missing⟩

def inlineFiles : Files Unit (Bytes × Str) := ⟨inlineDoc, .missing, .missing⟩

/-- The entry of the review's key is already there, for the token. -/
def takenFiles : Files Unit (Bytes × Str) :=
  ⟨.missing, reviewDoc, vaultWith "review.api_key" "t-0"⟩

/-- Three documents, and in each a part of what the command should keep is lost: the review's key
does not resolve any more, a password stays a literal, the token resolves to the review's key. -/
theorem encrypt_loses_credentials :
    (∃ files', encrypt keyedHost localSettings [] (fun _ => ()) false reviewFiles = .ok files' ∧
      ¬Preserves keyedHost localSettings [] reviewFiles files') ∧
    (∃ files', encrypt keyedHost keySettings [] (fun _ => ()) false inlineFiles = .ok files' ∧
      ¬Preserves keyedHost keySettings [] inlineFiles files') ∧
    ∃ files', encrypt keyedHost keySettings [] (fun _ => ()) false takenFiles = .ok files' ∧
      ¬Preserves keyedHost keySettings
        [tokenReference keySettings "review.api_key"] takenFiles files' := by
  refine ⟨⟨_, rfl, fun h => ?_⟩, ⟨_, rfl, fun h => ?_⟩, ⟨_, rfl, fun h => ?_⟩⟩
  · have hfields : List.Forall₂ _ [Slot.mk .apiKey "sk-1" true]
        [Slot.mk .apiKey "vault:review.api_key" true] := h.fields
    obtain ⟨⟨-, hresolve⟩, -⟩ := forall₂_cons.1 hfields
    have hlost := hresolve "sk-1" rfl
    cases hlost
  · have hslot : Slot.mk (.serverPassword "web") "hunter2" false ∈
        inlineFiles.slots := mem_singleton_self _
    exact h.encrypted _ hslot (by decide)
  · have htoken := h.references _ (mem_singleton_self _) "t-0" rfl
    cases htoken

end Runs

end CrossHostOps.CredentialsKept
