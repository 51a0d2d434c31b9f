import CrossHostOps.Inventory
import CrossHostOps.SecretVault
import CrossHostOps.Toml

/-!
`xho secret encrypt` (`cli/secret.rs`): the plaintext secrets of `server.toml` and `config.toml` go
into the vault, and references take their places.

The command looks for secrets in the documents themselves, and the daemon reads the same fields
through serde, for which a table may be written in any way. A `Slot` is a field as the daemon reads
it, with whether the command looks where it is written. On slots the command is a map, and whether
it preserves the credentials is a question about slots and the vault.
-/

namespace CrossHostOps.SecretEncrypt

open Text Config Inventory SecretVault Toml List

/-! ### Fields and their entries -/

inductive Field
  | serverPassword («alias» : Str)
  | apiKey
  | header (name : Str)
  | gatewayPassword (gateway : Str)
  | gatewayTotp (gateway : Str)

namespace Field

/-- The name of the field's entry in the vault. -/
def entry : Field → Str
  | .serverPassword «alias» => "server." ++ «alias» ++ ".password"
  | .apiKey => "review.api_key"
  | .header name => "review.header." ++ name
  | .gatewayPassword gateway => "gateway." ++ gateway ++ ".password"
  | .gatewayTotp gateway => "gateway." ++ gateway ++ ".totp"

def file : Field → Str
  | .serverPassword _ => "server.toml"
  | _ => "config.toml"

/-- An empty TOTP secret means that there is none. -/
def mayBeEmpty : Field → Bool
  | .gatewayTotp _ => true
  | _ => false

end Field

def isReference (value : Str) : Bool :=
  ["env:".toList, "file:".toList, "vault:".toList].any (·.isPrefixOf value)

def isPlaintext (field : Field) (value : Str) : Bool :=
  !(field.mayBeEmpty && value.isEmpty) && !isReference value

def vaultReference (entry : Str) : Str := "vault:" ++ entry

/-! ### The command -/

structure Found where
  entry : Str
  plaintext : Str
  file : Str

def Found.at (field : Field) (plaintext : Str) : Found := ⟨field.entry, plaintext, field.file⟩

def plaintextAt (t : Table) (key : Str) (field : Field) : Option Str :=
  (strAt t key).filter (isPlaintext field)

def collectAt (t : Table) (key : Str) (field : Field) : List Found :=
  ((plaintextAt t key field).map (Found.at field)).toList

def rewriteAt (t : Table) (key : Str) (field : Field) : Table :=
  if (plaintextAt t key field).isSome then setStr t key (vaultReference field.entry) else t

def passwordKey : Str := "password"
def serversKey : Str := "servers"
def reviewKey : Str := "review"
def apiKeyKey : Str := "api_key"
def headersKey : Str := "headers"
def gatewaysKey : Str := "gateways"
def totpKey : Str := "totp_secret_base32"

def collectServerSecrets (doc : Table) : List Found :=
  match (doc.lookup serversKey).bind Item.asTable with
  | none => []
  | some servers => servers.flatMap fun («alias», entry) =>
    match entry.asTableLike with
    | none => []
    | some table => collectAt table passwordKey (.serverPassword «alias»)

def rewriteServer («alias» : Str) (table : Table) : Table :=
  rewriteAt table passwordKey (.serverPassword «alias»)

def rewriteServerSecrets (doc : Table) : Table :=
  modify doc serversKey <| Item.mapTable fun servers =>
    servers.map fun («alias», entry) => («alias», entry.mapTableLike (rewriteServer «alias»))

/-- The value of a header is looked up under the key that the loop is at. -/
def collectHeader (header : Str) (item : Item) : List Found :=
  ((item.asStr.filter (isPlaintext (.header header))).map (Found.at (.header header))).toList

def collectReview (review : Table) : List Found :=
  collectAt review apiKeyKey .apiKey ++
    match (review.lookup headersKey).bind Item.asTable with
    | none => []
    | some headers => headers.flatMap fun (header, item) => collectHeader header item

def rewriteHeader (header : Str) (item : Item) : Item :=
  if (item.asStr.filter (isPlaintext (.header header))).isSome then
    .str (vaultReference (Field.header header).entry)
  else item

def rewriteReview (review : Table) : Table :=
  modify (rewriteAt review apiKeyKey .apiKey) headersKey <| Item.mapTable fun headers =>
    headers.map fun (header, item) => (header, rewriteHeader header item)

def gatewayName (gw : Table) : Str := (strAt gw "name").getD "unnamed"

def collectGateway (gw : Table) : List Found :=
  collectAt gw passwordKey (.gatewayPassword (gatewayName gw)) ++
    collectAt gw totpKey (.gatewayTotp (gatewayName gw))

def rewriteGateway (gw : Table) : Table :=
  rewriteAt (rewriteAt gw passwordKey (.gatewayPassword (gatewayName gw))) totpKey
    (.gatewayTotp (gatewayName gw))

def collectConfigSecrets (doc : Table) : List Found :=
  (match (doc.lookup reviewKey).bind Item.asTable with
    | none => []
    | some review => collectReview review) ++
  match (doc.lookup gatewaysKey).bind Item.asArrayOfTables with
  | none => []
  | some gateways => gateways.flatMap collectGateway

def rewriteConfigSecrets (doc : Table) : Table :=
  modify (modify doc reviewKey (Item.mapTable rewriteReview)) gatewaysKey
    (Item.mapArrayOfTables rewriteGateway)

/-- The two documents and the vault. -/
structure Files (ν γ : Type) where
  server : FileContent Table
  config : FileContent Table
  vault : FileContent (Vault ν γ)

/-- The configuration as loaded. What decides about keys is not among the fields that the command
rewrites. -/
structure Settings where
  config : AppConfig
  server : ServerConfigFile
  vaultPath : Str

def keySource (p : Process) (s : Settings) : Except Str Str :=
  match s.config.secret.keySource with
  | some keySource => expandTilde p keySource
  | none =>
    if s.config.server.remote.enable then .ok s.config.server.remote.hostKeyPath
    else match s.server.defaults.identityFile with
      | some identity => .ok identity
      | none => .error ("no vault key source: set [secret].key_source in config.toml, enable " ++
          "[server.remote] (to reuse the host key), or set [defaults].identity_file in " ++
          "server.toml").toList

def readDoc : FileContent Table → Except Str (Option Table)
  | .missing => .ok none
  | .unreadable e => .error e
  | .content doc => .ok (some doc)

def rewriteDoc (rewrite : Table → Table) : FileContent Table → FileContent Table
  | .content doc => .content (rewrite doc)
  | file => file

section Command

variable {κ ν γ : Type} (host : Host κ ν γ)

/-- The loop of `vault.set`; `nonces n` is drawn when `n` more are to come. -/
def setAll (key : Str) (nonces : ℕ → ν) : List Found → Vault ν γ → Except Str (Vault ν γ)
  | [], vault => .ok vault
  | f :: rest, vault => do
    let vault ← set host vault f.entry f.plaintext key (nonces rest.length)
    setAll key nonces rest vault

def collect (server config : Option Table) : List Found :=
  server.elim [] collectServerSecrets ++ config.elim [] collectConfigSecrets

/-- `encrypt`, as far as no write of a file fails. -/
def encrypt (s : Settings) (salt : Bytes) (nonces : ℕ → ν) (dryRun : Bool) (files : Files ν γ) :
    Except Str (Files ν γ) := do
  let config ← readDoc files.config
  let server ← readDoc files.server
  let found := collect server config
  if found.isEmpty || dryRun then .ok files
  else do
    let key ← keySource host.process s
    let vault ← openOrInit host s.vaultPath key salt files.vault
    let vault ← setAll host key nonces found vault
    .ok {
      server := rewriteDoc rewriteServerSecrets files.server
      config := rewriteDoc rewriteConfigSecrets files.config
      vault := .content vault }

end Command

/-! ### The daemon's view -/

/-- A supported field that holds a string. `seen` says that the command looks where it is. -/
structure Slot where
  field : Field
  value : Str
  seen : Bool

def slotAt (t : Table) (key : Str) (field : Field) (seen : Bool) : List Slot :=
  ((strAt t key).map fun value => ⟨field, value, seen⟩).toList

/-- The tables that serde reads at a place, with whether the command takes them for one. -/
def tableAt (t : Table) (key : Str) : Option (Table × Bool) :=
  match t.lookup key with
  | some (.table entries) => some (entries, true)
  | some (.inlineTable entries) => some (entries, false)
  | _ => none

def tablesAt (t : Table) (key : Str) : List Table × Bool :=
  match t.lookup key with
  | some (.arrayOfTables tables) => (tables, true)
  | some (.array items) => (items.filterMap Item.asTableLike, false)
  | _ => ([], false)

def serverSlots (doc : Table) : List Slot :=
  match tableAt doc serversKey with
  | none => []
  | some (servers, seen) => servers.flatMap fun («alias», entry) =>
    match entry.asTableLike with
    | none => []
    | some table => slotAt table passwordKey (.serverPassword «alias») seen

def headerSlot (seen : Bool) (header : Str) (item : Item) : List Slot :=
  (item.asStr.map fun value => ⟨.header header, value, seen⟩).toList

def reviewSlots (review : Table) (seen : Bool) : List Slot :=
  slotAt review apiKeyKey .apiKey seen ++
    match tableAt review headersKey with
    | none => []
    | some (headers, own) => headers.flatMap fun (header, item) =>
      headerSlot (seen && own) header item

def gatewaySlots (seen : Bool) (gw : Table) : List Slot :=
  slotAt gw passwordKey (.gatewayPassword (gatewayName gw)) seen ++
    slotAt gw totpKey (.gatewayTotp (gatewayName gw)) seen

def docReviewSlots (doc : Table) : List Slot :=
  match tableAt doc reviewKey with
  | none => []
  | some (review, seen) => reviewSlots review seen

def docGatewaySlots (doc : Table) : List Slot :=
  let (tables, seen) := tablesAt doc gatewaysKey
  tables.flatMap (gatewaySlots seen)

def configSlots (doc : Table) : List Slot := docReviewSlots doc ++ docGatewaySlots doc

def docSlots (slots : Table → List Slot) : FileContent Table → List Slot
  | .content doc => slots doc
  | _ => []

def Files.slots {ν γ : Type} (files : Files ν γ) : List Slot :=
  docSlots serverSlots files.server ++ docSlots configSlots files.config

namespace Slot

variable (slot : Slot)

/-- The field holds a plaintext literal. -/
def Plain : Prop := isPlaintext slot.field slot.value = true
  deriving Decidable

/-- What the command makes of a field. -/
def rewritten : Slot :=
  if slot.seen ∧ slot.Plain then { slot with value := vaultReference slot.field.entry } else slot

def found : Option Found :=
  if slot.seen ∧ slot.Plain then some (.at slot.field slot.value) else none

end Slot

/-! ### The command on slots -/

/-- A part of a document before and after the command, as slots, and what the command has found
there. -/
def Tracks (before after : List Slot) (found : List Found) : Prop :=
  after = before.map Slot.rewritten ∧ found = before.filterMap Slot.found

namespace Tracks

lemma nil : Tracks [] [] [] := ⟨rfl, rfl⟩

lemma append {a b a' b' : List Slot} {c d : List Found} (h : Tracks a a' c) (h' : Tracks b b' d) :
    Tracks (a ++ b) (a' ++ b') (c ++ d) := by
  obtain ⟨rfl, rfl⟩ := h
  obtain ⟨rfl, rfl⟩ := h'
  exact ⟨map_append.symm, filterMap_append.symm⟩

lemma flatMap {α : Type} {l : List α} {f g : α → List Slot} {c : α → List Found}
    (h : ∀ a, Tracks (f a) (g a) (c a)) : Tracks (l.flatMap f) (l.flatMap g) (l.flatMap c) := by
  induction l with
  | nil => exact nil
  | cons a l ih =>
    exact (h a).append ih

/-- Where the command does not look, it finds and changes nothing. -/
lemma of_unseen {l : List Slot} (h : ∀ slot ∈ l, slot.seen = false) : Tracks l l [] := by
  have hnot : ∀ slot ∈ l, ¬(slot.seen ∧ slot.Plain) := fun slot hslot hboth => by
    rw [h slot hslot] at hboth
    exact absurd hboth.1 (by decide)
  constructor
  · have hmap : l.map Slot.rewritten = l.map id :=
      map_congr_left fun slot hslot => if_neg (hnot slot hslot)
    rw [hmap, map_id]
  · exact (filterMap_eq_nil_iff.2 fun slot hslot => if_neg (hnot slot hslot)).symm

end Tracks

lemma strAt_rewriteAt (t : Table) (key : Str) (field : Field) :
    strAt (rewriteAt t key field) key =
      (strAt t key).map fun value =>
        if isPlaintext field value then vaultReference field.entry else value := by
  rw [rewriteAt, plaintextAt]
  cases hvalue : strAt t key with
  | none => simp [hvalue]
  | some value =>
    by_cases hplain : isPlaintext field value
    · simp [hplain, strAt_setStr_self _ hvalue]
    · simp [hplain, hvalue]

lemma lookup_rewriteAt_of_ne {key key' : Str} (t : Table) (field : Field) (h : key' ≠ key) :
    (rewriteAt t key field).lookup key' = t.lookup key' := by
  rw [rewriteAt]
  split_ifs
  · exact lookup_modify_of_ne t _ h
  · rfl

lemma strAt_rewriteAt_of_ne {key key' : Str} (t : Table) (field : Field) (h : key' ≠ key) :
    strAt (rewriteAt t key field) key' = strAt t key' := by
  rw [strAt, lookup_rewriteAt_of_ne t field h, strAt]

lemma tracks_slot (field : Field) (value : Str) :
    Tracks [⟨field, value, true⟩]
      [⟨field, if isPlaintext field value then vaultReference field.entry else value, true⟩]
      ((some value).filter (isPlaintext field) |>.map (Found.at field)).toList := by
  by_cases hplain : isPlaintext field value <;>
    simp [Tracks, Slot.rewritten, Slot.found, Slot.Plain, hplain]

lemma tracks_at (t : Table) (key : Str) (field : Field) :
    Tracks (slotAt t key field true) (slotAt (rewriteAt t key field) key field true)
      (collectAt t key field) := by
  rw [slotAt, slotAt, strAt_rewriteAt, collectAt, plaintextAt]
  cases strAt t key with
  | none => exact .nil
  | some value => exact tracks_slot field value

lemma unseen_slotAt (t : Table) (key : Str) (field : Field) :
    ∀ slot ∈ slotAt t key field false, slot.seen = false := by
  intro slot hslot
  rw [slotAt, Option.mem_toList, Option.map_eq_some_iff] at hslot
  obtain ⟨value, -, rfl⟩ := hslot
  rfl

lemma unseen_headerSlot (header : Str) (item : Item) :
    ∀ slot ∈ headerSlot false header item, slot.seen = false := by
  intro slot hslot
  rw [headerSlot, Option.mem_toList, Option.map_eq_some_iff] at hslot
  obtain ⟨value, -, rfl⟩ := hslot
  rfl

/-- The three ways in which a table can be at a key: not at all, where the command takes it for
one, and inline. -/
lemma tableAt_cases (t : Table) (key : Str) :
    (tableAt t key = none ∧ (t.lookup key).bind Item.asTable = none ∧
      ∀ f, tableAt (modify t key (Item.mapTable f)) key = none) ∨
    (∃ entries, tableAt t key = some (entries, true) ∧
      (t.lookup key).bind Item.asTable = some entries ∧
        ∀ f, tableAt (modify t key (Item.mapTable f)) key = some (f entries, true)) ∨
    ∃ entries, tableAt t key = some (entries, false) ∧
      (t.lookup key).bind Item.asTable = none ∧
        ∀ f, tableAt (modify t key (Item.mapTable f)) key = some (entries, false) := by
  have hmodify : ∀ f, (modify t key (Item.mapTable f)).lookup key = _ :=
    fun f => lookup_modify_self t key _
  simp only [tableAt, hmodify]
  cases t.lookup key with
  | none => exact .inl ⟨rfl, rfl, fun _ => rfl⟩
  | some item =>
    cases item with
    | table entries => exact .inr (.inl ⟨entries, rfl, rfl, fun _ => rfl⟩)
    | inlineTable entries => exact .inr (.inr ⟨entries, rfl, rfl, fun _ => rfl⟩)
    | str | other | array | arrayOfTables => exact .inl ⟨rfl, rfl, fun _ => rfl⟩

lemma tracks_server (doc : Table) :
    Tracks (serverSlots doc) (serverSlots (rewriteServerSecrets doc))
      (collectServerSecrets doc) := by
  rw [serverSlots, serverSlots, rewriteServerSecrets, collectServerSecrets]
  obtain ⟨h, hbind, hmodify⟩ | ⟨servers, h, hbind, hmodify⟩ | ⟨servers, h, hbind, hmodify⟩ :=
    tableAt_cases doc serversKey
  · rw [h, hbind, hmodify]
    exact .nil
  · rw [h, hbind, hmodify]
    simp only [flatMap_map]
    refine .flatMap fun ⟨name, entry⟩ => ?_
    simp only [Item.asTableLike_mapTableLike]
    cases entry.asTableLike with
    | none => exact .nil
    | some table => exact tracks_at table passwordKey _
  · rw [h, hbind, hmodify]
    refine .of_unseen fun slot hslot => ?_
    obtain ⟨⟨name, entry⟩, -, hslot⟩ := mem_flatMap.1 hslot
    cases htable : entry.asTableLike with
    | none => simp [htable] at hslot
    | some table =>
      simp only [htable] at hslot
      exact unseen_slotAt table passwordKey _ slot hslot

lemma tracks_header (header : Str) (item : Item) :
    Tracks (headerSlot true header item) (headerSlot true header (rewriteHeader header item))
      (collectHeader header item) := by
  rw [headerSlot, headerSlot, rewriteHeader, collectHeader]
  cases hvalue : item.asStr with
  | none =>
    simp only [Option.filter, Option.isSome_none, Bool.false_eq_true, if_false, hvalue]
    exact .nil
  | some value =>
    have := tracks_slot (.header header) value
    by_cases hplain : isPlaintext (.header header) value
    · simpa [hplain, Item.asStr] using this
    · simpa [hplain, hvalue] using this

lemma tracks_review (review : Table) :
    Tracks (reviewSlots review true) (reviewSlots (rewriteReview review) true)
      (collectReview review) := by
  rw [rewriteReview]
  refine .append ?_ ?_
  · rw [slotAt, slotAt, strAt_modify_of_ne _ _ (by decide)]
    exact tracks_at review apiKeyKey .apiKey
  · have hlookup : (rewriteAt review apiKeyKey .apiKey).lookup headersKey =
        review.lookup headersKey := lookup_rewriteAt_of_ne review .apiKey (by decide)
    have htable : tableAt review headersKey =
        tableAt (rewriteAt review apiKeyKey .apiKey) headersKey := by
      rw [tableAt, tableAt, hlookup]
    rw [htable, ← hlookup]
    obtain ⟨h, hbind, hmodify⟩ | ⟨headers, h, hbind, hmodify⟩ | ⟨headers, h, hbind, hmodify⟩ :=
      tableAt_cases (rewriteAt review apiKeyKey .apiKey) headersKey
    · rw [h, hbind, hmodify]
      exact .nil
    · rw [h, hbind, hmodify]
      simp only [flatMap_map]
      exact .flatMap fun ⟨header, item⟩ => tracks_header header item
    · rw [h, hbind, hmodify]
      refine .of_unseen fun slot hslot => ?_
      obtain ⟨⟨header, item⟩, -, hslot⟩ := mem_flatMap.1 hslot
      exact unseen_headerSlot header item slot hslot

lemma unseen_reviewSlots (review : Table) :
    ∀ slot ∈ reviewSlots review false, slot.seen = false := by
  intro slot hslot
  rw [reviewSlots, mem_append] at hslot
  rcases hslot with hslot | hslot
  · exact unseen_slotAt review apiKeyKey .apiKey slot hslot
  · cases htable : tableAt review headersKey with
    | none => simp [htable] at hslot
    | some table =>
      simp only [htable] at hslot
      obtain ⟨⟨header, item⟩, -, hslot⟩ := mem_flatMap.1 hslot
      exact unseen_headerSlot header item slot hslot

lemma gatewayName_rewriteAt {key : Str} (gw : Table) (field : Field) (h : "name" ≠ key) :
    gatewayName (rewriteAt gw key field) = gatewayName gw := by
  rw [gatewayName, strAt_rewriteAt_of_ne gw field h, gatewayName]

lemma tracks_gateway (gw : Table) :
    Tracks (gatewaySlots true gw) (gatewaySlots true (rewriteGateway gw)) (collectGateway gw) := by
  have hname : gatewayName (rewriteGateway gw) = gatewayName gw := by
    rw [rewriteGateway, gatewayName_rewriteAt _ _ (by decide),
      gatewayName_rewriteAt _ _ (by decide)]
  rw [gatewaySlots, gatewaySlots, hname, rewriteGateway]
  refine .append ?_ ?_
  · rw [slotAt, slotAt, strAt_rewriteAt_of_ne _ _ (by decide)]
    exact tracks_at gw passwordKey _
  · have hother : strAt (rewriteAt gw passwordKey (.gatewayPassword (gatewayName gw))) totpKey =
        strAt gw totpKey := strAt_rewriteAt_of_ne gw _ (by decide)
    have := tracks_at (rewriteAt gw passwordKey (.gatewayPassword (gatewayName gw))) totpKey
      (.gatewayTotp (gatewayName gw))
    rw [slotAt, collectAt, plaintextAt, hother] at this
    exact this

lemma unseen_gatewaySlots (gw : Table) : ∀ slot ∈ gatewaySlots false gw, slot.seen = false := by
  intro slot hslot
  rcases mem_append.1 hslot with hslot | hslot
  · exact unseen_slotAt gw passwordKey _ slot hslot
  · exact unseen_slotAt gw totpKey _ slot hslot

lemma tracks_docReview (doc : Table) :
    Tracks (docReviewSlots doc)
      (docReviewSlots (modify doc reviewKey (Item.mapTable rewriteReview)))
      (match (doc.lookup reviewKey).bind Item.asTable with
        | none => []
        | some review => collectReview review) := by
  rw [docReviewSlots, docReviewSlots]
  obtain ⟨h, hbind, hmodify⟩ | ⟨review, h, hbind, hmodify⟩ | ⟨review, h, hbind, hmodify⟩ :=
    tableAt_cases doc reviewKey
  · rw [h, hbind, hmodify]
    exact .nil
  · rw [h, hbind, hmodify]
    exact tracks_review review
  · rw [h, hbind, hmodify]
    exact .of_unseen (unseen_reviewSlots review)

lemma tracks_docGateways (doc : Table) :
    Tracks (docGatewaySlots doc)
      (docGatewaySlots (modify doc gatewaysKey (Item.mapArrayOfTables rewriteGateway)))
      (match (doc.lookup gatewaysKey).bind Item.asArrayOfTables with
        | none => []
        | some gateways => gateways.flatMap collectGateway) := by
  simp only [docGatewaySlots, tablesAt, lookup_modify_self]
  cases doc.lookup gatewaysKey with
  | none => exact .nil
  | some item =>
    cases item with
    | arrayOfTables tables =>
      simp only [Option.map_some, Item.mapArrayOfTables, flatMap_map]
      exact .flatMap tracks_gateway
    | array items =>
      refine .of_unseen fun slot hslot => ?_
      obtain ⟨gw, -, hslot⟩ := mem_flatMap.1 hslot
      exact unseen_gatewaySlots gw slot hslot
    | str | other | table | inlineTable => exact .nil

lemma tracks_config (doc : Table) :
    Tracks (configSlots doc) (configSlots (rewriteConfigSecrets doc))
      (collectConfigSecrets doc) := by
  have hreview (f : Item → Item) :
      docReviewSlots (modify (modify doc reviewKey f) gatewaysKey
        (Item.mapArrayOfTables rewriteGateway)) = docReviewSlots (modify doc reviewKey f) := by
    rw [docReviewSlots, docReviewSlots, tableAt, tableAt, lookup_modify_of_ne _ _ (by decide)]
  have hgateways : docGatewaySlots (modify doc reviewKey (Item.mapTable rewriteReview)) =
      docGatewaySlots doc := by
    rw [docGatewaySlots, docGatewaySlots, tablesAt, tablesAt, lookup_modify_of_ne _ _ (by decide)]
  have hlookup : (modify doc reviewKey (Item.mapTable rewriteReview)).lookup gatewaysKey =
      doc.lookup gatewaysKey := lookup_modify_of_ne _ _ (by decide)
  rw [configSlots, configSlots, rewriteConfigSecrets, hreview]
  refine .append (tracks_docReview doc) ?_
  have := tracks_docGateways (modify doc reviewKey (Item.mapTable rewriteReview))
  rwa [hgateways, hlookup] at this

variable {ν γ : Type}

/-- The slots of documents that can be read, and what the command finds in them. -/
lemma tracks_files {files : Files ν γ} {server config : Option Table}
    (hserver : readDoc files.server = .ok server) (hconfig : readDoc files.config = .ok config)
    (vault : FileContent (Vault ν γ)) :
    Tracks files.slots
      (Files.slots ⟨rewriteDoc rewriteServerSecrets files.server,
        rewriteDoc rewriteConfigSecrets files.config, vault⟩)
      (collect server config) := by
  refine .append ?_ ?_
  · cases hfile : files.server with
    | missing => rw [hfile] at hserver; cases hserver; exact .nil
    | unreadable e => rw [hfile] at hserver; cases hserver
    | content doc => rw [hfile] at hserver; cases hserver; exact tracks_server doc
  · cases hfile : files.config with
    | missing => rw [hfile] at hconfig; cases hconfig; exact .nil
    | unreadable e => rw [hfile] at hconfig; cases hconfig
    | content doc => rw [hfile] at hconfig; cases hconfig; exact tracks_config doc

end CrossHostOps.SecretEncrypt
