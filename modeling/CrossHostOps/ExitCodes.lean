import CrossHostOps.ServerList

/-!
The exit codes of the CLI: `exit_codes.rs`, and the classification of the daemon's error messages
in `cli/mod.rs`.
-/

namespace CrossHostOps.ExitCodes

open Text ServerList
open JumpserverShells (ErrorKind)
open List hiding contains

def EXIT_GENERAL_ERROR : ℤ := 1
def EXIT_USAGE_ERROR : ℤ := 2
def EXIT_TIMEOUT : ℤ := 124
def EXIT_INTERNAL : ℤ := 125
def EXIT_CANNOT_EXECUTE : ℤ := 126
def EXIT_TARGET_NOT_FOUND : ℤ := 127

def capRemoteExitCode (c : ℤ) : ℤ :=
  if c < 0 then EXIT_INTERNAL else if 124 ≤ c then 123 else c

inductive XhoError where
  | timeout (detail : Str)
  | internal (msg : Str)
  | usageError (msg : Str)
  | cannotExecute (msg : Str)
  | targetNotFound (msg : Str)
  | general (msg : Str)
deriving DecidableEq

def XhoError.exitCode : XhoError → ℤ
  | .timeout _ => EXIT_TIMEOUT
  | .internal _ => EXIT_INTERNAL
  | .usageError _ => EXIT_USAGE_ERROR
  | .cannotExecute _ => EXIT_CANNOT_EXECUTE
  | .targetNotFound _ => EXIT_TARGET_NOT_FOUND
  | .general _ => EXIT_GENERAL_ERROR

/-! ### The daemon's messages -/

def retryHint : Str := "; please retry the operation to open a fresh connection"

def userMessage (e : GatewayError) : Str :=
  if e.kind = .transport then e.toStr ++ retryHint else e.toStr

def toAsciiLowercase (s : Str) : Str := s.map Char.toLower

def containsAny (phrases : List String) (s : Str) : Bool :=
  phrases.any fun p => contains p.toList s

def notFoundPhrases : List String :=
  ["[resolution]", "not found", "unknown target", "[unsupported]", "no route"]

def deniedPhrases : List String := ["auth", "denied", "review", "host key", "permission denied"]

def timeoutPhrases : List String := ["timed out", "timeout"]

def transportPhrases : List String := ["[transport]", "connection"]

def classifyDaemonError (message : Str) : XhoError :=
  let lower := toAsciiLowercase message
  if containsAny notFoundPhrases lower then .targetNotFound message
  else if containsAny deniedPhrases lower then .cannotExecute message
  else if containsAny timeoutPhrases lower then .timeout message
  else if containsAny transportPhrases lower then .internal message
  else .general message

def gatewayExitCode (e : GatewayError) : ℤ := (classifyDaemonError (userMessage e)).exitCode

/-- The phrasings that tell on an error, by class: of a target that is not found, of a denial, of a
timeout and of a lost connection. -/
def phrasings : List (List String) :=
  [["[resolution]", "not found", "unknown target", "[unsupported]", "no route"],
    ["auth", "denied", "review", "host key", "permission denied"],
    ["timed out", "timeout"],
    ["[transport]", "connection"]]

/-- One of the first `n` classes occurs in a text, in whatever case. -/
def Mentions (n : ℕ) (text : Str) : Prop :=
  ∃ phrase ∈ (phrasings.take n).flatten, phrase.toList <:+: toAsciiLowercase text

/-- A phrase that cannot begin in `a` and end after it. -/
def Apart (p a : Str) : Prop := ¬ p <:+: a ∧ ∀ p₁ ∈ p.inits, p₁ ≠ [] → ¬ p₁ <:+ a
  deriving Decidable

variable {p a s : Str} {phrases : List String}

lemma contains_append_left (h : Apart p a) (s : Str) : contains p (a ++ s) = contains p s := by
  unfold contains
  rw [decide_eq_decide, infix_append_iff_ne_nil]
  constructor
  · rintro (hin | hin | ⟨p₁, p₂, hne, -, rfl, hsuffix, -⟩)
    · exact absurd hin h.1
    · exact hin
    · exact absurd hsuffix (h.2 p₁ ((mem_inits _ _).2 (prefix_append _ _)) hne)
  · exact fun hin => .inr (.inl hin)

/-- A phrase without the first character of `b` cannot end in it. -/
lemma contains_append_right {b : Str} {c : Char} (hp : c ∉ p) (hb : ¬ p <:+: c :: b) (s : Str) :
    contains p (s ++ c :: b) = contains p s := by
  unfold contains
  rw [decide_eq_decide, infix_append_iff_ne_nil]
  constructor
  · rintro (hin | hin | ⟨p₁, p₂, -, hne, rfl, -, hstart⟩)
    · exact hin
    · exact absurd hin hb
    · obtain ⟨d, p₃, rfl⟩ := exists_cons_of_ne_nil hne
      obtain rfl := (cons_prefix_cons.1 hstart).1
      exact absurd (by simp) hp
  · exact fun hin => .inl hin

lemma containsAny_congr {t : Str} (h : ∀ p ∈ phrases, contains p.toList s = contains p.toList t) :
    containsAny phrases s = containsAny phrases t := by
  unfold containsAny
  induction phrases with
  | nil => rfl
  | cons p phrases ih =>
    rw [any_cons, any_cons, h p mem_cons_self, ih fun q hq => h q (mem_cons_of_mem _ hq)]

/-- The text of a kind before the source of an error adds none of these phrases. -/
lemma containsAny_after (h : ∀ p ∈ phrases, Apart p.toList a) (s : Str) :
    containsAny phrases (a ++ s) = containsAny phrases s :=
  containsAny_congr fun p hp => contains_append_left (h p hp) s

/-- The hint after the source of an error adds none of these phrases. -/
lemma containsAny_before_hint (h : ∀ p ∈ phrases, ';' ∉ p.toList ∧ ¬ p.toList <:+: retryHint)
    (s : Str) :
    containsAny phrases (s ++ retryHint) = containsAny phrases s :=
  containsAny_congr fun p hp => contains_append_right (h p hp).1 (h p hp).2 s

lemma containsAny_of_mem {p : String} (hp : p ∈ phrases) (h : p.toList <:+: s) :
    containsAny phrases s = true :=
  any_eq_true.2 ⟨p, hp, decide_eq_true h⟩

lemma toAsciiLowercase_append (s t : Str) :
    toAsciiLowercase (s ++ t) = toAsciiLowercase s ++ toAsciiLowercase t :=
  map_append

/-- What stands before the source of an error. -/
def kindText : ErrorKind → Str
  | .resolution => "[resolution] "
  | .transport => "[transport] "
  | .execution => "[execution] "
  | .unsupported => "[unsupported] "

lemma toStr_eq (kind : ErrorKind) (source : Str) :
    GatewayError.toStr ⟨kind, source⟩ = kindText kind ++ source := by
  have hkind : ∀ kind, GatewayError.toStr ⟨kind, []⟩ = kindText kind := by
    intro kind
    cases kind <;> decide +kernel
  rw [← hkind, GatewayError.toStr, GatewayError.toStr, append_nil]

lemma lower_kindText (kind : ErrorKind) : toAsciiLowercase (kindText kind) = kindText kind := by
  cases kind <;> decide +kernel

lemma lower_toStr (kind : ErrorKind) (source : Str) :
    toAsciiLowercase (GatewayError.toStr ⟨kind, source⟩) =
      kindText kind ++ toAsciiLowercase source := by
  rw [toStr_eq, toAsciiLowercase_append, lower_kindText]

/-- The message of an error in lower case: its kind, its source, and a hint where there is one. -/
lemma lower_userMessage (kind : ErrorKind) (source : Str) :
    toAsciiLowercase (userMessage ⟨kind, source⟩) =
      kindText kind ++ toAsciiLowercase source ++ if kind = .transport then retryHint else [] := by
  have hhint : toAsciiLowercase retryHint = retryHint := by decide +kernel
  unfold userMessage
  split
  · rw [toAsciiLowercase_append, lower_toStr, hhint]
  · rw [lower_toStr, append_nil]

/-- A kind that is itself a phrase of a class. -/
lemma containsAny_kind (kind : ErrorKind) {p : String} (hp : p ∈ phrases)
    (hkind : p.toList <:+: kindText kind) (source : Str) :
    containsAny phrases (toAsciiLowercase (userMessage ⟨kind, source⟩)) = true := by
  rw [lower_userMessage, append_assoc]
  exact containsAny_of_mem hp (hkind.trans (prefix_append _ _).isInfix)

/-- A class of which neither the kind nor the hint can make a phrase. -/
lemma containsAny_source (kind : ErrorKind) (phrases : List String)
    (hkind : ∀ p ∈ phrases, Apart p.toList (kindText kind))
    (hhint : kind = .transport → ∀ p ∈ phrases, ';' ∉ p.toList ∧ ¬ p.toList <:+: retryHint)
    (source : Str) :
    containsAny phrases (toAsciiLowercase (userMessage ⟨kind, source⟩)) =
      containsAny phrases (toAsciiLowercase source) := by
  rw [lower_userMessage]
  split
  next htransport => rw [containsAny_before_hint (hhint htransport), containsAny_after hkind]
  · rw [append_nil, containsAny_after hkind]

lemma exitCode_classifyDaemonError (message : Str) :
    (classifyDaemonError message).exitCode =
      if containsAny notFoundPhrases (toAsciiLowercase message) then 127
      else if containsAny deniedPhrases (toAsciiLowercase message) then 126
      else if containsAny timeoutPhrases (toAsciiLowercase message) then 124
      else if containsAny transportPhrases (toAsciiLowercase message) then 125
      else 1 := by
  simp only [classifyDaemonError, apply_ite XhoError.exitCode]
  rfl

/-- Resolution errors and unsupported operations have 127 whatever their source; the others have
the code of the first class of phrasing in their source, and the code of their kind without one. -/
lemma gatewayExitCode_eq (e : GatewayError) :
    gatewayExitCode e =
      match e.kind with
      | .resolution | .unsupported => 127
      | .transport =>
        if containsAny notFoundPhrases (toAsciiLowercase e.source) then 127
        else if containsAny deniedPhrases (toAsciiLowercase e.source) then 126
        else if containsAny timeoutPhrases (toAsciiLowercase e.source) then 124
        else 125
      | .execution =>
        if containsAny notFoundPhrases (toAsciiLowercase e.source) then 127
        else if containsAny deniedPhrases (toAsciiLowercase e.source) then 126
        else if containsAny timeoutPhrases (toAsciiLowercase e.source) then 124
        else if containsAny transportPhrases (toAsciiLowercase e.source) then 125
        else 1 := by
  obtain ⟨kind, source⟩ := e
  rw [gatewayExitCode, exitCode_classifyDaemonError]
  cases kind with
  | resolution =>
    have hfound : "[resolution]" ∈ notFoundPhrases := by simp [notFoundPhrases]
    rw [containsAny_kind .resolution hfound (by decide +kernel), if_pos rfl]
  | unsupported =>
    have hfound : "[unsupported]" ∈ notFoundPhrases := by simp [notFoundPhrases]
    rw [containsAny_kind .unsupported hfound (by decide +kernel), if_pos rfl]
  | transport =>
    have hfound : "[transport]" ∈ transportPhrases := by simp [transportPhrases]
    rw [containsAny_kind .transport hfound (by decide +kernel), if_pos rfl,
      containsAny_source .transport notFoundPhrases (by decide +kernel) (by decide +kernel),
      containsAny_source .transport deniedPhrases (by decide +kernel) (by decide +kernel),
      containsAny_source .transport timeoutPhrases (by decide +kernel) (by decide +kernel)]
  | execution =>
    rw [containsAny_source .execution notFoundPhrases (by decide +kernel) (by decide +kernel),
      containsAny_source .execution deniedPhrases (by decide +kernel) (by decide +kernel),
      containsAny_source .execution timeoutPhrases (by decide +kernel) (by decide +kernel),
      containsAny_source .execution transportPhrases (by decide +kernel) (by decide +kernel)]

lemma mentions_succ {n : ℕ} (h : phrasings[n]? = some phrases) (source : Str) :
    Mentions (n + 1) source ↔
      Mentions n source ∨ containsAny phrases (toAsciiLowercase source) = true := by
  simp only [Mentions, take_add_one, h, Option.toList_some, flatten_append, flatten_singleton,
    mem_append, or_and_right, exists_or, containsAny, contains, any_eq_true, decide_eq_true_eq]

/-- What the chain of tests has found after each of its classes. -/
lemma mentions_iff (source : Str) :
    (Mentions 1 source ↔ containsAny notFoundPhrases (toAsciiLowercase source) = true) ∧
    (Mentions 2 source ↔ Mentions 1 source ∨
      containsAny deniedPhrases (toAsciiLowercase source) = true) ∧
    (Mentions 3 source ↔ Mentions 2 source ∨
      containsAny timeoutPhrases (toAsciiLowercase source) = true) ∧
    (Mentions 4 source ↔ Mentions 3 source ∨
      containsAny transportPhrases (toAsciiLowercase source) = true) := by
  have hnone : ¬ Mentions 0 source := by simp [Mentions]
  refine ⟨?_, mentions_succ rfl source, mentions_succ rfl source, mentions_succ rfl source⟩
  rw [mentions_succ (n := 0) rfl, or_iff_right hnone]
  rfl

/-- **When exit codes depend on the kind alone**: always for resolution errors and unsupported
operations. Transport errors must mention none of the first three classes; two execution errors
have the same code if the first class that one mentions is the first of the other. -/
theorem exit_code_by_kind_iff (kind : ErrorKind) (source source' : Str) :
    (gatewayExitCode ⟨kind, source⟩ = gatewayExitCode ⟨kind, source'⟩ ∧
        (kind = .resolution ∨ kind = .unsupported → gatewayExitCode ⟨kind, source⟩ = 127) ∧
        (kind = .transport → gatewayExitCode ⟨kind, source⟩ = 125)) ↔
      (kind = .transport → ¬ Mentions 3 source ∧ ¬ Mentions 3 source') ∧
        (kind = .execution → ∀ n, Mentions n source ↔ Mentions n source') := by
  have hupto : (∀ n, Mentions n source ↔ Mentions n source') ↔
      ∀ n ∈ [1, 2, 3, 4], (Mentions n source ↔ Mentions n source') := by
    refine ⟨fun h n _ => h n, fun h n => ?_⟩
    rcases n with _ | _ | _ | _ | n
    · simp [Mentions]
    · exact h 1 (by decide)
    · exact h 2 (by decide)
    · exact h 3 (by decide)
    · have hall : phrasings.take (n + 4) = phrasings.take 4 :=
        take_of_length_le (Nat.le_add_left _ _)
      simpa only [Mentions, hall] using h 4 (by decide)
  obtain ⟨hfound, hdenied, htimeout, htransport⟩ := mentions_iff source
  obtain ⟨hfound', hdenied', htimeout', htransport'⟩ := mentions_iff source'
  rw [gatewayExitCode_eq, gatewayExitCode_eq, hupto]
  cases kind with
  | resolution => simp
  | unsupported => simp
  | transport =>
    simp only [htimeout, hdenied, hfound, htimeout', hdenied', hfound']
    split_ifs <;> simp_all
  | execution =>
    simp only [forall_mem_cons, htransport, htransport', htimeout, hdenied, hfound, htimeout',
      hdenied', hfound']
    split_ifs <;> simp_all

/-- Refused connections, all of them transport errors: the code is another one for a host with
`auth`, `review` or `timeout` in its name. -/
theorem exit_code_of_host_name :
    ["app", "auth.example.com", "preview01", "timeout-lab"].map (fun host => gatewayExitCode
        ⟨.transport, "failed to connect to root@" ++ host.toList ++
          ":22 (key): Connection refused (os error 111)"⟩) = [125, 126, 126, 124] := by
  decide +kernel

end CrossHostOps.ExitCodes
