import CrossHostOps.PtyShell

/-!
`PtyShell::run_raw_passthrough`: bytes both ways between a terminal and the shell of an asset,
until the channel ends or, in sentinel mode, the wrapped command has ended.

What the shell shows goes through the scanner; what comes as extended data goes past it.
-/

namespace CrossHostOps.Passthrough

open Text Search Sentinel PtyShell List

/-- What one turn of the `select!` receives; `written` and `heard` say whether what is passed on
from it gets through. -/
inductive Turn
  | stdin (data : Option Bytes) (written : Bool)
  | resize (size : Option (ℕ × ℕ))
  | channel (msg : Option ChannelMsg) (heard : Bool)

/-- Why the loop was left. -/
inductive Ending
  | sentinel (leftover : Bytes)
  | hangUp
  | unheard
  | unwritten
  deriving DecidableEq

structure Locals where
  scanner : Option SentinelScanner
  exitCode : ℤ
  stdinOpen : Bool
  reusable : Bool
  /-- What has been sent on `stdout_tx`. -/
  sent : List Bytes

/-- `as i32` of a `u32`. -/
def toI32 (n : ℕ) : ℤ := if n < 2 ^ 31 then n else n - 2 ^ 32

namespace Locals

def new (sentinel : Option Bytes) : Locals where
  scanner := sentinel.map SentinelScanner.new
  exitCode := 0
  stdinOpen := true
  reusable := sentinel.isSome
  sent := []

/-- Nothing empty is sent. -/
def send (l : Locals) (bytes : Bytes) : Locals :=
  if bytes = [] then l else { l with sent := l.sent ++ [bytes] }

def lost (l : Locals) : Locals := { l with reusable := false }

/-- Output of the shell, through the scanner in sentinel mode. -/
def output (l : Locals) (chunk : Bytes) (heard : Bool) : Locals × Option Ending :=
  match l.scanner with
  | some sc =>
    let (forward, sc) := sc.feed chunk
    let l := ({ l with scanner := some sc }).send forward
    if forward ≠ [] ∧ heard = false then (l.lost, some .unheard)
    else if sc.done then ({ l with exitCode := sc.exitCode }, some (.sentinel sc.leftover))
    else (l, none)
  | none =>
    let l := { l with sent := l.sent ++ [chunk] }
    if heard then (l, none) else (l.lost, some .unheard)

def turn (l : Locals) : Turn → Locals × Option Ending
  | .stdin (some _) written =>
    if l.stdinOpen = true ∧ written = false then (l.lost, some .unwritten) else (l, none)
  | .stdin none _ => ({ l with stdinOpen := false }, none)
  | .resize _ => (l, none)
  | .channel (some (.data chunk)) heard => l.output chunk heard
  | .channel (some (.extendedData chunk)) heard =>
    let l := { l with sent := l.sent ++ [chunk] }
    if heard then (l, none) else (l.lost, some .unheard)
  | .channel (some (.exitStatus status)) _ => ({ l with exitCode := toI32 status }, none)
  | .channel (some .exitSignal) _ => ({ l with exitCode := 255, reusable := false }, none)
  | .channel (some .eof) _ | .channel (some .close) _ | .channel none _ => (l.lost, some .hangUp)
  | .channel (some .other) _ => (l, none)

/-- Go on where the loop has not been left. -/
def andThen (r : Locals × Option Ending) (next : Locals → Locals × Option Ending) :
    Locals × Option Ending :=
  match r with
  | (l, some ending) => (l, some ending)
  | (l, none) => next l

/-- The loop; without an ending it waits for the next turn. -/
def loop (l : Locals) : List Turn → Locals × Option Ending
  | [] => (l, none)
  | t :: turns => andThen (l.turn t) fun l => l.loop turns

end Locals

/-- The pending bytes are the first output; whether they are heard does not matter. -/
def start (sentinel : Option Bytes) (pending : Bytes) : Locals × Option Ending :=
  if pending = [] then (.new sentinel, none) else (Locals.new sentinel).output pending true

def runRawPassthrough (sentinel : Option Bytes) (pending : Bytes) (turns : List Turn) :
    Locals × Option Ending :=
  Locals.andThen (start sentinel pending) fun l => l.loop turns

/-! ### What is received -/

def hangsUp : Option ChannelMsg → Bool
  | some .eof | some .close | none => true
  | _ => false

def Turn.data : Turn → Bytes
  | .channel (some (.data bytes)) _ => bytes
  | _ => []

def Turn.received : Turn → Bytes
  | .channel (some (.data bytes)) _ => bytes
  | .channel (some (.extendedData bytes)) _ => bytes
  | _ => []

/-- The bytes that go through the scanner. -/
def scanned (pending : Bytes) (turns : List Turn) : Bytes :=
  pending ++ (turns.map Turn.data).flatten

def received (pending : Bytes) (turns : List Turn) : Bytes :=
  pending ++ (turns.map Turn.received).flatten

/-- Extended data arrives only where no end of the output may become a sentinel. -/
def NoneOvertaken (marker pending : Bytes) (turns : List Turn) : Prop :=
  ∀ before bytes heard behind,
    turns = before ++ .channel (some (.extendedData bytes)) heard :: behind → bytes ≠ [] →
    ¬ EndsOpen marker (scanned pending before)

/-! ### The loop -/

section Loop

open SentinelScanner

variable {marker pending : Bytes} {turns before : List Turn} {l l' : Locals}

lemma andThen_eq_none {r : Locals × Option Ending} {next : Locals → Locals × Option Ending}
    (h : Locals.andThen r next = (l', none)) : ∃ l, r = (l, none) ∧ next l = (l', none) := by
  obtain ⟨l, _ | ending⟩ := r
  · exact ⟨l, rfl, h⟩
  · cases h

variable {msg : Option ChannelMsg} {forward chunk : Bytes} {sc : SentinelScanner} {heard : Bool}
  {t : Turn}

lemma loop_concat_hangUp (hmsg : hangsUp msg = true) (heard : Bool)
    (h : l.loop turns = (l', none)) :
    l.loop (turns ++ [.channel msg heard]) = (l'.lost, some .hangUp) := by
  induction turns generalizing l with
  | nil =>
    cases h
    match msg, hmsg with
    | some .eof, _ | some .close, _ | none, _ => rfl
  | cons t turns ih =>
    obtain ⟨l₁, hturn, hloop⟩ := andThen_eq_none h
    rw [cons_append, Locals.loop, hturn]
    exact ih hloop

lemma run_concat_hangUp {sentinel : Option Bytes} (hmsg : hangsUp msg = true) (heard : Bool)
    (h : runRawPassthrough sentinel pending turns = (l, none)) :
    runRawPassthrough sentinel pending (turns ++ [.channel msg heard]) =
      (l.lost, some .hangUp) := by
  obtain ⟨l₀, hstart, hloop⟩ := andThen_eq_none h
  rw [runRawPassthrough, hstart]
  exact loop_concat_hangUp hmsg heard hloop

@[simp] lemma flatten_send (l : Locals) (bytes : Bytes) :
    (l.send bytes).sent.flatten = l.sent.flatten ++ bytes := by
  unfold Locals.send
  split_ifs with h
  · rw [h, append_nil]
  · simp

@[simp] lemma scanner_send (l : Locals) (bytes : Bytes) : (l.send bytes).scanner = l.scanner := by
  unfold Locals.send
  split_ifs <;> rfl

lemma NoneOvertaken.of_append {behind : List Turn}
    (h : NoneOvertaken marker pending (before ++ behind)) :
    NoneOvertaken marker pending before := by
  rintro before' bytes heard behind' rfl hne
  exact h before' bytes heard (behind' ++ behind) (by simp) hne

/-- Output that does not end the loop: what was held goes before it, and some of it is held. -/
lemma output_scans {s : Bytes} (hne : marker ≠ []) (hscanner : l.scanner = some sc)
    (hscanning : Scanning marker s forward sc) (hout : l.output chunk heard = (l', none)) :
    ∃ forward sc', l'.scanner = some sc' ∧ Scanning marker (s ++ chunk) forward sc' ∧
      l'.sent.flatten ++ sc'.hold = l.sent.flatten ++ (sc.hold ++ chunk) := by
  simp only [Locals.output, hscanner] at hout
  by_cases hheard : (sc.feed chunk).1 ≠ [] ∧ heard = false
  · rw [if_pos hheard] at hout
    cases hout
  rw [if_neg hheard] at hout
  by_cases hdone : (sc.feed chunk).2.done = true
  · rw [if_pos hdone] at hout
    cases hout
  rw [if_neg hdone] at hout
  cases hout
  rcases hscanning.feed hne chunk with hgo | ⟨left, code, hfin⟩
  · refine ⟨_, (sc.feed chunk).2, scanner_send _ _, hgo, ?_⟩
    have heq := hgo.append_hold
    rw [← hscanning.append_hold, append_assoc, append_assoc] at heq
    rw [flatten_send, append_assoc, append_cancel_left heq]
  · exact absurd hfin.done hdone

lemma noneOvertaken_of_notMem {m : UInt8} (hm : m ∉ scanned pending turns) :
    NoneOvertaken (m :: marker) pending turns := by
  rintro before bytes heard behind rfl -
  refine not_endsOpen_of_notMem fun hmem => hm ?_
  rw [scanned, map_append, flatten_append, ← append_assoc]
  exact mem_append_left _ hmem

/-- While the loop goes on, all but what the scanner holds has been sent: in number, and where no
extended data has overtaken held bytes also in order. -/
structure Relays (marker pending : Bytes) (turns : List Turn) (l : Locals) (forward : Bytes)
    (sc : SentinelScanner) : Prop where
  scanner : l.scanner = some sc
  scanning : Scanning marker (scanned pending turns) forward sc
  length : l.sent.flatten.length + sc.hold.length = (received pending turns).length
  inOrder : NoneOvertaken marker pending turns → l.sent.flatten ++ sc.hold = received pending turns

lemma relays_start (hne : marker ≠ []) (h : start (some marker) pending = (l, none)) :
    ∃ forward sc, Relays marker pending [] l forward sc := by
  have hscanned : scanned pending [] = pending := append_nil pending
  have hreceived : received pending [] = pending := append_nil pending
  unfold start at h
  split_ifs at h with hnil
  · cases h
    subst hnil
    exact ⟨[], .new marker, rfl, scanning_new hne, rfl, fun _ => rfl⟩
  · obtain ⟨forward, sc, hsc, hgo, hsent⟩ := output_scans hne rfl (scanning_new hne) h
    have hsent : l.sent.flatten ++ sc.hold = pending := hsent
    refine ⟨forward, sc, hsc, by rwa [hscanned], ?_, fun _ => hsent.trans hreceived.symm⟩
    rw [hreceived, ← length_append, hsent]

namespace Relays

variable (hne : marker ≠ []) (h : Relays marker pending before l forward sc)

include h

/-- A turn that brings no output. -/
lemma quiet (ht : t.received = []) (hscanner : l'.scanner = l.scanner) (hsent : l'.sent = l.sent) :
    Relays marker pending (before ++ [t]) l' forward sc := by
  have hdata : t.data = [] := by
    unfold Turn.received at ht
    unfold Turn.data
    split at ht <;> simp_all
  have hscanned : scanned pending (before ++ [t]) = scanned pending before := by
    simp [scanned, hdata]
  have hreceived : received pending (before ++ [t]) = received pending before := by
    simp [received, ht]
  exact ⟨hscanner.trans h.scanner, hscanned ▸ h.scanning, by rw [hsent, hreceived, h.length],
    fun hno => by rw [hsent, hreceived, h.inOrder hno.of_append]⟩

/-- Extended data goes past the scanner. -/
lemma extended : Relays marker pending (before ++ [.channel (some (.extendedData chunk)) heard])
      { l with sent := l.sent ++ [chunk] } forward sc := by
  have hscanned : scanned pending (before ++ [.channel (some (.extendedData chunk)) heard]) =
      scanned pending before := by simp [scanned, Turn.data]
  have hreceived : received pending (before ++ [.channel (some (.extendedData chunk)) heard]) =
      received pending before ++ chunk := by simp [received, Turn.received]
  refine ⟨h.scanner, hscanned ▸ h.scanning, ?_, fun hno => ?_⟩
  · have hall := h.length
    simp only [flatten_append, flatten_singleton, hreceived, length_append]
    omega
  · have hbefore := h.inOrder hno.of_append
    rw [hreceived, ← hbefore]
    by_cases hchunk : chunk = []
    · simp [hchunk]
    · -- nothing is held, so nothing is overtaken
      have hnil := h.scanning.hold_eq_nil (hno before chunk heard [] rfl hchunk)
      simp [hnil]

include hne

lemma output (hout : l.output chunk heard = (l', none)) :
    ∃ forward sc, Relays marker pending (before ++ [.channel (some (.data chunk)) heard]) l'
      forward sc := by
  have hscanned : scanned pending (before ++ [.channel (some (.data chunk)) heard]) =
      scanned pending before ++ chunk := by simp [scanned, Turn.data]
  have hreceived : received pending (before ++ [.channel (some (.data chunk)) heard]) =
      received pending before ++ chunk := by simp [received, Turn.received]
  obtain ⟨forward, sc', hsc', hgo, hsent⟩ := output_scans hne h.scanner h.scanning hout
  refine ⟨forward, sc', hsc', hscanned ▸ hgo, ?_, fun hno => ?_⟩
  · have hlen := congrArg List.length hsent
    have hall := h.length
    simp only [List.length_append] at hlen
    rw [hreceived, List.length_append]
    omega
  · rw [hsent, hreceived, ← List.append_assoc, h.inOrder hno.of_append]

lemma turn (hturn : l.turn t = (l', none)) :
    ∃ forward sc, Relays marker pending (before ++ [t]) l' forward sc := by
  match t, hturn with
  | .stdin (some _) written, hturn =>
    rw [Locals.turn] at hturn
    by_cases hwritten : l.stdinOpen = true ∧ written = false
    · rw [if_pos hwritten] at hturn
      cases hturn
    · rw [if_neg hwritten] at hturn
      cases hturn
      exact ⟨forward, sc, h.quiet rfl rfl rfl⟩
  | .channel (some (.data _)) _, hturn => exact h.output hne hturn
  | .channel (some (.extendedData _)) heard, hturn =>
    cases heard with
    | true =>
      cases hturn
      exact ⟨forward, sc, h.extended⟩
    | false => cases hturn
  | .stdin none _, hturn | .resize _, hturn | .channel (some (.exitStatus _)) _, hturn
  | .channel (some .exitSignal) _, hturn | .channel (some .other) _, hturn =>
    cases hturn
    exact ⟨forward, sc, h.quiet rfl rfl rfl⟩

lemma loop (hloop : l.loop turns = (l', none)) :
    ∃ forward sc, Relays marker pending (before ++ turns) l' forward sc := by
  induction turns generalizing before l forward sc with
  | nil =>
    cases hloop
    exact ⟨forward, sc, by simpa using h⟩
  | cons t turns ih =>
    obtain ⟨l₁, hturn, hrest⟩ := andThen_eq_none hloop
    obtain ⟨forward, sc, h₁⟩ := h.turn hne hturn
    obtain ⟨forward, sc, h'⟩ := ih h₁ hrest
    exact ⟨forward, sc, by simpa using h'⟩

end Relays

end Loop

/-- **Every byte of output gets through when nothing is held as the channel ends**: in sentinel
mode the scanner holds the end of the output when it may become a sentinel, and that end is not
sent when the channel ends, while extended data goes past it. -/
theorem passthrough_complete {marker : Bytes} (hne : marker ≠ []) (pending : Bytes)
    (turns : List Turn) {msg : Option ChannelMsg} (hmsg : hangsUp msg = true)
    (heard : Bool) {l : Locals}
    (hgo : runRawPassthrough (some marker) pending turns = (l, none)) :
    let out := runRawPassthrough (some marker) pending (turns ++ [.channel msg heard])
    out.2 = some .hangUp ∧
    (¬ EndsOpen marker (scanned pending turns) → NoneOvertaken marker pending turns →
      out.1.sent.flatten = received pending turns) ∧
    (NonOverlapping marker (scanned pending turns) →
      out.1.sent.flatten = received pending turns → ¬ EndsOpen marker (scanned pending turns)) := by
  intro out
  have hout : out = (l.lost, some .hangUp) := run_concat_hangUp hmsg heard hgo
  obtain ⟨l₀, hstart, hloop⟩ := andThen_eq_none hgo
  obtain ⟨_, _, h₀⟩ := relays_start hne hstart
  obtain ⟨forward, sc, h⟩ := h₀.loop hne hloop
  rw [nil_append] at h
  refine ⟨by rw [hout], fun hend hno => ?_, fun hno hsent => ?_⟩
  · have hall := h.inOrder hno
    rw [h.scanning.hold_eq_nil hend, append_nil] at hall
    rw [hout]
    exact hall
  · refine h.scanning.not_endsOpen hno (length_eq_zero_iff.1 ?_)
    have hlen := h.length
    rw [hout] at hsent
    rw [← hsent] at hlen
    exact Nat.add_eq_left.1 hlen

def endMarker : Bytes := ascii "__E__"

/-- A program that writes to both streams and takes the shell down with it. -/
def killed : List Turn :=
  [.channel (some (.data (ascii "out"))) true,
    .channel (some (.extendedData (ascii "err"))) true]

theorem passthrough_complete_killed :
    (runRawPassthrough (some endMarker) (ascii "a")
      (killed ++ [.channel none true])).1.sent.flatten = ascii "aouterr" := by
  have hgo : (runRawPassthrough (some endMarker) (ascii "a") killed).2 = none := by
    decide +kernel
  have hout : 95 ∉ scanned (ascii "a") killed := by decide +kernel
  exact (passthrough_complete (by decide) _ killed rfl true (Prod.ext rfl hgo)).2.1
    (not_endsOpen_of_notMem hout) (noneOvertaken_of_notMem hout)

/-- The last byte of this output, an underscore, may begin a marker. -/
def underscore : List Turn := [.channel (some (.data (ascii "out_"))) true]

theorem passthrough_loses_underscore :
    let out := runRawPassthrough (some endMarker) [] (underscore ++ [.channel (some .eof) true])
    out.2 = some .hangUp ∧ out.1.sent.flatten = ascii "out" ∧
      received [] underscore = ascii "out_" := by
  decide +kernel

end CrossHostOps.Passthrough
