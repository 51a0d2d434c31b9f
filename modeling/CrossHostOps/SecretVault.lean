import CrossHostOps.Config

/-!
The encrypted vault (`secret/vault.rs`) and the resolution of secrets against it
(`config/secret.rs`).

Names and plaintexts are texts. The cipher, the key derivation and the private keys of the host
are parameters, with what the vault relies on.
-/

namespace CrossHostOps.SecretVault

open Text Results Config

/-- An authenticated cipher: it decrypts what it has encrypted. -/
structure Aead (κ ν γ : Type) where
  encrypt : κ → ν → Str → γ
  decrypt : κ → ν → γ → Option Str
  decrypt_encrypt : ∀ key nonce text, decrypt key nonce (encrypt key nonce text) = some text

/-- A private key: the fingerprint of its public half, and the material of the derivation. -/
structure Identity where
  fingerprint : Str
  ikm : Bytes

/-- What a secret is resolved with. `privateKey` is `load_secret_key` on a path. -/
structure Host (κ ν γ : Type) where
  process : Process
  readFile : Str → Except Str Str
  privateKey : Str → Except Str Identity
  hkdf : Bytes → Bytes → κ
  aead : Aead κ ν γ
  /-- A fingerprint stands for one key. -/
  ikm_eq : ∀ {path path' : Str} {identity identity' : Identity},
    privateKey path = .ok identity → privateKey path' = .ok identity' →
      identity.fingerprint = identity'.fingerprint → identity.ikm = identity'.ikm

structure Entry (ν γ : Type) where
  nonce : ν
  ciphertext : γ

/-- The vault file. Its `entries` are a map. -/
structure Vault (ν γ : Type) where
  salt : Bytes
  keyFingerprint : Str
  entries : List (Str × Entry ν γ)

variable {κ ν γ : Type} (host : Host κ ν γ)

def loadIdentity (keySource : Str) : Except Str Identity := do
  let path ← expandTilde host.process keySource
  (host.privateKey path).mapError fun e =>
    "failed to load identity " ++ path ++
      (" for vault key derivation (passphrase-protected keys are not supported): " ++ e)

/-! ### Operations -/

def «open» (path : Str) : FileContent (Vault ν γ) → Except Str (Vault ν γ)
  | .missing => .error ("vault " ++ path ++
      " does not exist; create entries with `xho secret set <name>`")
  | .unreadable e => .error e
  | .content vault => .ok vault

/-- `open_or_init`, with the salt it draws for a new vault. -/
def openOrInit (path keySource : Str) (salt : Bytes) :
    FileContent (Vault ν γ) → Except Str (Vault ν γ)
  | .missing => do
    let identity ← loadIdentity host keySource
    .ok ⟨salt, identity.fingerprint, []⟩
  | file => «open» path file

def deriveKey (vault : Vault ν γ) (keySource : Str) : Except Str κ := do
  let identity ← loadIdentity host keySource
  if identity.fingerprint ≠ vault.keyFingerprint then
    .error ("identity file " ++ keySource ++ " (fingerprint " ++
      identity.fingerprint ++
      ") does not match the one used for this vault (fingerprint " ++
      vault.keyFingerprint ++
      "); use `xho secret rekey` to re-encrypt under a new identity")
  else .ok (host.hkdf vault.salt identity.ikm)

def get (vault : Vault ν γ) (name keySource : Str) : Except Str Str :=
  match vault.entries.lookup name with
  | none => .error ("vault has no entry `" ++ name ++ "`")
  | some entry => do
    let key ← deriveKey host vault keySource
    match host.aead.decrypt key entry.nonce entry.ciphertext with
    | none => .error ("failed to decrypt vault entry `" ++ name ++
        "`; the identity file may not match the one used to encrypt it")
    | some text => .ok text

def insert (vault : Vault ν γ) (name : Str) (entry : Entry ν γ) : Vault ν γ :=
  { vault with entries := (name, entry) :: vault.entries.filter (·.1 ≠ name) }

/-- `set`, with the nonce it draws. -/
def set (vault : Vault ν γ) (name plaintext keySource : Str) (nonce : ν) :
    Except Str (Vault ν γ) := do
  let key ← deriveKey host vault keySource
  .ok (insert vault name ⟨nonce, host.aead.encrypt key nonce plaintext⟩)

/-- `SecretResolver`: the path of the vault and the identity that its key is derived from. -/
structure SecretResolver where
  vaultPath : Str
  keySource : Option Str

def resolveVault (resolver : SecretResolver) (file : FileContent (Vault ν γ)) (name : Str) :
    Except Str Str :=
  match resolver.keySource with
  | none => .error ("secret `vault:" ++ name ++
      ("` requires an identity file to derive the vault key; set [secret].key_source or " ++
        "[defaults].identity_file").toList)
  | some keySource => do
    let vault ← («open» resolver.vaultPath file).mapError fun e =>
      "failed to open vault " ++ resolver.vaultPath ++ ": " ++ e
    get host vault name keySource

def resolve (resolver : SecretResolver) (file : FileContent (Vault ν γ)) (secret : Secret) :
    Except Str Str :=
  match secret.source with
  | .literal value => .ok value
  | .env name => match host.process.env name with
    | some value => .ok value
    | none =>
      .error ("secret references env var `" ++ name ++ "`, which is not set")
  | .file path => do
    let raw ← (host.readFile path).mapError fun e =>
      "failed to read secret file " ++ path ++ ": " ++ e
    .ok (raw.rdropWhile fun c => c == '\n' || c == '\r')
  | .vault name => resolveVault host resolver file name

/-! ### What they do -/

variable {host} {vault vault' : Vault ν γ} {name plaintext keySource : Str} {key : κ}

lemma deriveKey_ok :
    deriveKey host vault keySource = .ok key ↔
      ∃ identity, loadIdentity host keySource = .ok identity ∧
        identity.fingerprint = vault.keyFingerprint ∧
          key = host.hkdf vault.salt identity.ikm := by
  rw [deriveKey, bind_ok]
  refine exists_congr fun identity => and_congr_right fun _ => ?_
  by_cases hsame : identity.fingerprint = vault.keyFingerprint
  · simp [hsame, eq_comm]
  · simp [hsame]

/-- All identities that open a vault give the same key. -/
lemma deriveKey_unique {keySource' : Str} {key' : κ}
    (h : deriveKey host vault keySource = .ok key)
    (h' : deriveKey host vault keySource' = .ok key') : key = key' := by
  obtain ⟨identity, hload, hsame, rfl⟩ := deriveKey_ok.1 h
  obtain ⟨identity', hload', hsame', rfl⟩ := deriveKey_ok.1 h'
  obtain ⟨path, -, hpath⟩ := bind_ok.1 hload
  obtain ⟨path', -, hpath'⟩ := bind_ok.1 hload'
  rw [host.ikm_eq (mapError_ok.1 hpath) (mapError_ok.1 hpath') (hsame.trans hsame'.symm)]

lemma get_ok :
    get host vault name keySource = .ok plaintext ↔
      ∃ entry key, vault.entries.lookup name = some entry ∧
        deriveKey host vault keySource = .ok key ∧
          host.aead.decrypt key entry.nonce entry.ciphertext = some plaintext := by
  rw [get]
  cases hentry : vault.entries.lookup name with
  | none => simp
  | some entry =>
    constructor
    · intro h
      obtain ⟨key, hkey, h⟩ := bind_ok.1 h
      cases hplain : host.aead.decrypt key entry.nonce entry.ciphertext with
      | none => simp [hplain] at h
      | some text =>
        simp only [hplain, Except.ok.injEq] at h
        exact ⟨entry, key, rfl, hkey, by rw [hplain, h]⟩
    · rintro ⟨entry', key, hentry', hkey, hplain⟩
      cases hentry'
      exact bind_ok.2 ⟨key, hkey, by rw [hplain]⟩

lemma lookup_insert (entry : Entry ν γ) (name' : Str) :
    (insert vault name entry).entries.lookup name' =
      if name' = name then some entry else vault.entries.lookup name' := by
  rw [insert, List.lookup_cons]
  by_cases hname : name' = name
  · simp [hname]
  · rw [beq_eq_false_iff_ne.2 hname, if_neg hname]
    -- the filter takes out entries of another name only
    induction vault.entries with
    | nil => rfl
    | cons first rest ih =>
      obtain ⟨other, value⟩ := first
      by_cases hother : other = name
      · subst hother
        rw [List.filter_cons_of_neg (by simp), List.lookup_cons, beq_eq_false_iff_ne.2 hname]
        exact ih
      · rw [List.filter_cons_of_pos (by simpa using hother), List.lookup_cons, List.lookup_cons]
        cases name' == other
        · exact ih
        · rfl

/-- A vault has the header of another. -/
def SameHeader (vault vault' : Vault ν γ) : Prop :=
  vault'.salt = vault.salt ∧ vault'.keyFingerprint = vault.keyFingerprint

lemma SameHeader.deriveKey_eq (h : SameHeader vault vault') (keySource : Str) :
    deriveKey host vault' keySource = deriveKey host vault keySource := by
  rw [deriveKey, deriveKey, h.1, h.2]

lemma resolveVault_ok {resolver : SecretResolver} {file : FileContent (Vault ν γ)} :
    resolveVault host resolver file name = .ok plaintext ↔
      ∃ keySource vault, resolver.keySource = some keySource ∧ file = .content vault ∧
        get host vault name keySource = .ok plaintext := by
  rw [resolveVault]
  cases hsource : resolver.keySource with
  | none => simp
  | some keySource =>
    constructor
    · intro h
      obtain ⟨vault, hopen, hget⟩ := bind_ok.1 h
      refine ⟨keySource, vault, rfl, ?_, hget⟩
      cases file with
      | content vault' => cases mapError_ok.1 hopen; rfl
      | missing | unreadable => cases mapError_ok.1 hopen
    · rintro ⟨keySource', vault, hsource', rfl, hget⟩
      cases hsource'
      exact bind_ok.2 ⟨vault, rfl, hget⟩

end CrossHostOps.SecretVault
