import CrossHostOps.CredentialsKept

/-!
The change of a vault's identity (`Vault::rekey`): the entries are decrypted with the old one, the
header is made anew, and the entries are encrypted with the new one. The vault is changed in place,
between calls that can fail.
-/

namespace CrossHostOps.VaultRekey

open Text Results SecretVault List

def saltLen : ℕ := 32

variable {κ ν γ : Type} (host : Host κ ν γ)

/-- The last loop of `rekey`, with the nonces that its calls of `set` draw. -/
def setEntries (new : Str) (nonces : Str → ν) :
    List (Str × Str) → Vault ν γ → Vault ν γ × Except Str Unit
  | [], vault => (vault, .ok ())
  | (name, plaintext) :: rest, vault =>
    match set host vault name plaintext new (nonces name) with
    | .error e => (vault, .error e)
    | .ok vault => setEntries new nonces rest vault

/-- `rekey`, with the salt that it draws: what it leaves of the vault, and its result. -/
def rekey (vault : Vault ν γ) (old new : Str) (salt : Bytes) (nonces : Str → ν) :
    Vault ν γ × Except Str Unit :=
  match vault.entries.mapM fun e => (get host vault e.1 old).map (e.1, ·) with
  | .error e => (vault, .error e)
  | .ok plaintexts =>
    let vault := { vault with salt }
    match loadIdentity host new with
    | .error e => (vault, .error e)
    | .ok identity =>
      setEntries host new nonces plaintexts
        { vault with keyFingerprint := identity.fingerprint, entries := [] }

/-- The new identity opens what the old one did, or nothing has changed. -/
def AllOrNothing (vault : Vault ν γ) (old new : Str) : Vault ν γ × Except Str Unit → Prop
  | (vault', .ok _) => ∀ name, get host vault' name new = get host vault name old
  | (vault', .error _) => vault' = vault

variable {host} {vault : Vault ν γ} {old new : Str} {key : κ} {nonces : Str → ν}

/-- With a key for the vault the loop stores the text of every name. -/
lemma setEntries_ok (nonces : Str → ν) (hkey : deriveKey host vault new = .ok key)
    (text : Str → Str) (names : List Str) :
    ∃ vault', setEntries host new nonces (names.map fun name => (name, text name)) vault =
        (vault', .ok ()) ∧ SameHeader vault vault' ∧
      ∀ name, vault'.entries.lookup name =
        if name ∈ names then some ⟨nonces name, host.aead.encrypt key (nonces name) (text name)⟩
        else vault.entries.lookup name := by
  induction names generalizing vault with
  | nil => exact ⟨vault, rfl, ⟨rfl, rfl⟩, fun name => rfl⟩
  | cons first rest ih =>
    have hset : set host vault first (text first) new (nonces first) = .ok (insert vault first _) :=
      bind_ok.2 ⟨key, hkey, rfl⟩
    -- `insert` leaves the header, and with it the key
    obtain ⟨vault', hrest, hheader, hlookup⟩ := @ih (insert vault first _) hkey
    refine ⟨vault', ?_, hheader, fun name => ?_⟩
    · rw [map_cons, setEntries, hset]
      exact hrest
    · rw [hlookup, lookup_insert]
      by_cases hname : name = first
      · subst hname
        simp
      · simp [hname]

section Opened

variable (hopens : ∀ e ∈ vault.entries, ∃ text, get host vault e.1 old = .ok text)

include hopens

/-- A vault that is opened is read as a whole. -/
lemma mapM_get_ok :
    ∃ text : Str → Str, (∀ e ∈ vault.entries, get host vault e.1 old = .ok (text e.1)) ∧
      vault.entries.mapM (fun e => (get host vault e.1 old).map (e.1, ·)) =
        .ok ((vault.entries.map Prod.fst).map fun name => (name, text name)) := by
  have hread : ∀ e ∈ vault.entries,
      get host vault e.1 old = .ok ((get host vault e.1 old).toOption.getD []) := by
    intro e he
    obtain ⟨text, htext⟩ := hopens e he
    rw [htext]
    rfl
  refine ⟨fun name => (get host vault name old).toOption.getD [], hread, mapM_ok.2 ?_⟩
  rw [map_map, forall₂_map_right_iff, forall₂_same]
  exact fun e he => map_ok.2 ⟨_, hread e he, rfl⟩

lemma rekey_ok {identity : Identity} (hload : loadIdentity host new = .ok identity) (salt : Bytes) :
    AllOrNothing host vault old new (rekey host vault old new salt nonces) := by
  obtain ⟨text, hread, hmap⟩ := mapM_get_ok hopens
  have hkey : deriveKey host ⟨salt, identity.fingerprint, []⟩ new =
      .ok (host.hkdf salt identity.ikm) := deriveKey_ok.2 ⟨identity, hload, rfl, rfl⟩
  obtain ⟨vault', hrun, hheader, hlookup⟩ :=
    setEntries_ok nonces hkey text (vault.entries.map Prod.fst)
  simp only [rekey, hmap, hload, hrun]
  intro name
  have hname := hlookup name
  by_cases hmem : name ∈ vault.entries.map Prod.fst
  · rw [if_pos hmem] at hname
    obtain ⟨e, he, rfl⟩ := mem_map.1 hmem
    rw [hread e he, get_ok]
    exact ⟨_, _, hname, (hheader.deriveKey_eq new).trans hkey, host.aead.decrypt_encrypt _ _ _⟩
  · have hnone : vault.entries.lookup name = none :=
      lookup_eq_none_iff.2 fun e he => by
        simpa using fun h : name = e.1 => hmem (h ▸ mem_map_of_mem he)
    rw [SecretVault.get, hname, if_neg hmem, SecretVault.get, hnone]
    rfl

/-- **`rekey` is all or nothing exactly if the new identity can be loaded**, for a vault that the
old one opens. -/
theorem rekey_all_or_nothing_iff :
    (∀ salt : Bytes, salt.length = saltLen →
      AllOrNothing host vault old new (rekey host vault old new salt nonces)) ↔
      ∃ identity, loadIdentity host new = .ok identity := by
  constructor
  · intro h
    cases hload : loadIdentity host new with
    | ok identity => exact ⟨identity, rfl⟩
    | error e =>
      obtain ⟨text, -, hmap⟩ := mapM_get_ok hopens
      -- the header has the new salt already, and one of two salts is not the old one
      have hsalt (byte : UInt8) : replicate saltLen byte = vault.salt := by
        have hsame := h (replicate saltLen byte) length_replicate
        simp only [rekey, hmap, hload] at hsame
        exact congrArg Vault.salt hsame
      exact absurd ((hsalt 0).trans (hsalt 1).symm) (by decide)
  · rintro ⟨identity, hload⟩ salt -
    exact rekey_ok hopens hload salt

end Opened

section Runs

open CredentialsKept

def newPath : Str := "/root/.ssh/id_new"

/-- A vault with one entry, for the identity of the host. -/
def dbVault : Vault Unit (Bytes × Str) :=
  ⟨[], identityPath, [("db", ⟨(), ascii identityPath, "hunter2"⟩)]⟩

/-- Both identities are there. -/
theorem rekey_all_or_nothing_iff_both :
    AllOrNothing keyedHost dbVault identityPath newPath
      (rekey keyedHost dbVault identityPath newPath (List.replicate saltLen 7) fun _ => ()) :=
  (rekey_all_or_nothing_iff (forall_mem_singleton.2 ⟨_, rfl⟩)).2 ⟨_, rfl⟩ _ (by decide)

/-- A host with the old identity only. -/
def oneKeyHost : Host Bytes Unit (Bytes × Str) :=
  { keyedHost with
    privateKey := fun path =>
      if path = identityPath then keyedHost.privateKey path
      else .error "No such file or directory"
    ikm_eq := by
      intro path path' identity identity' h h'
      split_ifs at h h'
      exact keyedHost.ikm_eq h h' }

/-- The new identity is missing: `rekey` fails, and the old one opens the entry no more. -/
theorem rekey_loses_entry :
    let rekeyed := rekey oneKeyHost dbVault identityPath newPath (replicate saltLen 7)
      fun _ => ()
    get oneKeyHost dbVault "db" identityPath = .ok "hunter2" ∧
      (∃ e, rekeyed.2 = .error e) ∧ rekeyed.1 ≠ dbVault ∧
        ∃ e, get oneKeyHost rekeyed.1 "db" identityPath = .error e := by
  refine ⟨rfl, ⟨_, rfl⟩, fun h => ?_, ⟨_, rfl⟩⟩
  exact absurd (congrArg Vault.salt h) (by decide)

end Runs

end CrossHostOps.VaultRekey
