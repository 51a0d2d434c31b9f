import CrossHostOps.B64Decoder
import CrossHostOps.PtyShell

/-!
`PtyShell::run_command_raw` and `run_command_raw_b64`: a command between two markers, on a
terminal in raw mode. Its output is forwarded as it is, or decoded from base64.

Several commands run on one shell. What the last chunk of a command brings behind its sentinel is
pending when the next one begins.
-/

namespace CrossHostOps.RawCommand

open Text Search Sentinel PtyShell B64 List SentinelScanner

inductive RawPayload
  | plain
  | base64 (decodeLen : ℕ)

/-- A command, by its two fresh markers and the form of its payload. -/
structure Command where
  beginMarker : Bytes
  endMarker : Bytes
  payload : RawPayload

inductive RawError
  | read (e : ReadError)
  | decode (e : DecodeError)

/-- The locals behind the begin marker, with what has been sent and what the decoder was fed. -/
structure Feeding where
  decoder : Option B64Decoder
  scanner : SentinelScanner
  sent : List Bytes
  fed : List Bytes

/-- The end of a command, with what is pending then and the messages that are left. -/
structure RawRun where
  result : Except RawError ℤ
  sent : List Bytes
  fed : List Bytes
  pending : Bytes
  msgs : List ChannelMsg

namespace Feeding

def new (cmd : Command) : Feeding where
  decoder := match cmd.payload with
    | .plain => none
    | .base64 decodeLen => some (.new decodeLen)
  scanner := .new cmd.endMarker
  sent := []
  fed := []

def feedRawChunk (f : Feeding) (chunk : Bytes) : Feeding × Except DecodeError (Option ℤ) :=
  let (forward, sc) := f.scanner.feed chunk
  let code := if sc.done then some sc.exitCode else none
  match f.decoder with
  | some d =>
    let f := { f with fed := f.fed ++ [chunk] }
    match d.feed chunk with
    | .error e => (f, .error e)
    | .ok (decoded, d) =>
      -- the scanner only looks for the end
      ({ f with decoder := some d, scanner := sc, sent := f.sent ++ nonempty decoded }, .ok code)
  | none => ({ f with scanner := sc, sent := f.sent ++ nonempty forward }, .ok code)

def stop (f : Feeding) (result : Except RawError ℤ) (pending : Bytes) (msgs : List ChannelMsg) :
    RawRun := ⟨result, f.sent, f.fed, pending, msgs⟩

/-- The sentinel was found: the decoder must have got what it expects. -/
def conclude (f : Feeding) (code : ℤ) : Except RawError ℤ :=
  match f.decoder with
  | some d =>
    match d.finish with
    | .error e => .error (.decode e)
    | .ok () => .ok code
  | none => .ok code

def feedChunks (f : Feeding) : List ChannelMsg → RawRun
  | [] => f.stop (.error (.read .waiting)) [] []
  | msg :: msgs =>
    match readChunk msg with
    | .error e => f.stop (.error (.read e)) [] msgs
    | .ok chunk =>
      match f.feedRawChunk chunk with
      | (f, .error e) => f.stop (.error (.decode e)) [] msgs
      | (f, .ok none) => f.feedChunks msgs
      | (f, .ok (some code)) => f.stop (f.conclude code) f.scanner.leftover msgs

end Feeding

/-- What is pending, with what the begin marker's chunk brings behind it, is the first chunk. -/
def runCommandRaw (cmd : Command) (pending : Bytes) (msgs : List ChannelMsg) : RawRun :=
  match discardUntil cmd.beginMarker 2 [] msgs with
  | .error e => (Feeding.new cmd).stop (.error (.read e)) (clearPromptRemainder pending) []
  | .ok (after, msgs) =>
    (Feeding.new cmd).feedChunks
      ((nonempty (clearPromptRemainder pending ++ after)).map .data ++ msgs)

/-- Commands one after the other; a shell on which one fails is given up. -/
def runCommands (pending : Bytes) (msgs : List ChannelMsg) : List Command → List RawRun
  | [] => []
  | cmd :: cmds =>
    let run := runCommandRaw cmd pending msgs
    run :: match run.result with
      | .ok _ => runCommands run.pending run.msgs cmds
      | .error _ => []

/-! ### What the terminal shows -/

/-- The output of a command, in the chunks in which it arrives: noise and the begin marker, the
payload, and the sentinel with what its chunk brings behind it. -/
structure Output where
  noise : Bytes
  payload : Bytes
  tail : Bytes
  left : Bytes
  code : ℤ
  chunks : List Bytes

/-- What is scanned for the end marker. -/
def Output.scanned (o : Output) (cmd : Command) (stale : Bytes) : Bytes :=
  stale ++ o.payload ++ (cmd.endMarker ++ o.tail) ++ o.left

/-- The terminal shows the output, and the markers are fresh: the begin marker is not in the noise,
the end marker neither in the payload nor in what is left over from before. -/
structure Shows (cmd : Command) (stale : Bytes) (o : Output) : Prop where
  begin_ne : cmd.beginMarker ≠ []
  end_ne : cmd.endMarker ≠ []
  flatten : o.chunks.flatten =
    o.noise ++ cmd.beginMarker ++ o.payload ++ (cmd.endMarker ++ o.tail) ++ o.left
  sentinel : SentinelTail o.code o.tail
  finishing : o.chunks.dropLast.flatten.length + o.left.length < o.chunks.flatten.length
  begin_fresh : ∀ q < o.noise.length, ¬ OccursAt cmd.beginMarker (o.noise ++ cmd.beginMarker) q
  end_fresh : ∀ q < (stale ++ o.payload).length, ¬ OccursAt cmd.endMarker (o.scanned cmd stale) q
  end_apart : NonOverlapping cmd.endMarker (o.scanned cmd stale)

/-- What is taken over from what the command before has left. -/
def stale (pending : Bytes) : Bytes := clearPromptRemainder pending

/-- The outputs of commands that run one after the other. -/
def ShowsAll (pending : Bytes) : List (Command × Output) → Prop
  | [] => True
  | (cmd, o) :: shown => Shows cmd (stale pending) o ∧ ShowsAll o.left shown

/-- What one command forwards: behind what is taken over, a plain command its payload; a decoder
sees everything up to the end of the sentinel's chunk, unless it refuses a part of it. -/
def Forwards (cmd : Command) (stale : Bytes) (o : Output) (run : RawRun) : Prop :=
  match cmd.payload with
  | .plain => run.result = .ok o.code ∧ run.sent.flatten = stale ++ o.payload
  | .base64 _ => run.fed.flatten <+: o.scanned cmd stale ∧
      (run.result = .ok o.code ∧ run.fed.flatten = o.scanned cmd stale ∨
        ∃ e, run.result = .error (.decode e))

def ForwardsAll (pending : Bytes) : List (Command × Output) → List RawRun → Prop
  | [], runs => runs = []
  | (cmd, o) :: shown, runs =>
    ∃ run runs', runs = run :: runs' ∧ Forwards cmd (stale pending) o run ∧
      match run.result with
      | .ok _ => ForwardsAll o.left shown runs'
      | .error _ => runs' = []

/-! ### One command -/

section One

variable {f : Feeding} {init : List Bytes} {last : Bytes}

lemma not_done_of_feedAll {sc : SentinelScanner} {chunk : Bytes} {chunks : List Bytes}
    (h : (sc.feedAll (chunk :: chunks)).2.done = false) : (sc.feed chunk).2.done = false := by
  by_contra hdone
  rw [Bool.not_eq_false] at hdone
  have hstays : (sc.feedAll (chunk :: chunks)).2 = (sc.feed chunk).2 := by
    simp [feedAll, feedAll_done hdone]
  rw [hstays, hdone] at h
  cases h

lemma feedChunks_plain (hplain : f.decoder = none)
    (hinit : (f.scanner.feedAll init).2.done = false)
    (hlast : (f.scanner.feedAll (init ++ [last])).2.done = true) (msgs : List ChannelMsg) :
    ∃ sent, sent.flatten = f.sent.flatten ++ (f.scanner.feedAll (init ++ [last])).1 ∧
      f.feedChunks ((init ++ [last]).map .data ++ msgs) =
        ⟨.ok (f.scanner.feedAll (init ++ [last])).2.exitCode, sent, f.fed,
          (f.scanner.feedAll (init ++ [last])).2.leftover, msgs⟩ := by
  induction init generalizing f with
  | nil =>
    have hdone : (f.scanner.feed last).2.done = true := hlast
    refine ⟨f.sent ++ nonempty (f.scanner.feed last).1, ?_, ?_⟩
    · simp [flatten_nonempty, feedAll]
    · simp [Feeding.feedChunks, readChunk, Feeding.feedRawChunk, hplain, hdone, Feeding.stop,
        Feeding.conclude, feedAll]
  | cons chunk init ih =>
    have hnot := not_done_of_feedAll hinit
    have hstep : f.feedRawChunk chunk = (⟨none, (f.scanner.feed chunk).2,
        f.sent ++ nonempty (f.scanner.feed chunk).1, f.fed⟩, .ok none) := by
      simp [Feeding.feedRawChunk, hplain, hnot]
    obtain ⟨sent, hsent, hrun⟩ := ih (f := ⟨none, (f.scanner.feed chunk).2,
      f.sent ++ nonempty (f.scanner.feed chunk).1, f.fed⟩) rfl hinit hlast
    refine ⟨sent, ?_, Eq.trans ?_ hrun⟩
    · rw [hsent]
      simp [flatten_nonempty, feedAll]
    · simp [Feeding.feedChunks, readChunk, hstep]

/-- A decoder is fed chunk after chunk, until it refuses one. -/
lemma feedChunks_base64 {d : B64Decoder} (hdecoder : f.decoder = some d)
    (hinit : (f.scanner.feedAll init).2.done = false)
    (hlast : (f.scanner.feedAll (init ++ [last])).2.done = true) (msgs : List ChannelMsg) :
    let run := f.feedChunks ((init ++ [last]).map .data ++ msgs)
    run.fed.flatten <+: f.fed.flatten ++ (init ++ [last]).flatten ∧
      (run.result = .ok (f.scanner.feedAll (init ++ [last])).2.exitCode ∧
        run.fed.flatten = f.fed.flatten ++ (init ++ [last]).flatten ∧
        run.pending = (f.scanner.feedAll (init ++ [last])).2.leftover ∧ run.msgs = msgs ∨
      ∃ e, run.result = .error (.decode e)) := by
  induction init generalizing f d with
  | nil =>
    have hdone : (f.scanner.feed last).2.done = true := hlast
    rcases hfeed : d.feed last with e | ⟨decoded, d'⟩
    · simp [Feeding.feedChunks, readChunk, Feeding.feedRawChunk, hdecoder, hfeed, Feeding.stop]
    · rcases hfinish : d'.finish with e | _ <;>
      simp [Feeding.feedChunks, readChunk, Feeding.feedRawChunk, hdecoder, hfeed, hdone,
        Feeding.stop, Feeding.conclude, hfinish, feedAll]
  | cons chunk init ih =>
    have hnot := not_done_of_feedAll hinit
    rcases hfeed : d.feed chunk with e | ⟨decoded, d'⟩
    · have hstep : f.feedRawChunk chunk =
          (⟨some d, f.scanner, f.sent, f.fed ++ [chunk]⟩, .error e) := by
        simp [Feeding.feedRawChunk, hdecoder, hfeed]
      simp [Feeding.feedChunks, readChunk, hstep, Feeding.stop]
    · have hstep : f.feedRawChunk chunk = (⟨some d', (f.scanner.feed chunk).2,
          f.sent ++ nonempty decoded, f.fed ++ [chunk]⟩, .ok none) := by
        simp [Feeding.feedRawChunk, hdecoder, hfeed, hnot]
      have hrun := ih (f := ⟨some d', (f.scanner.feed chunk).2, f.sent ++ nonempty decoded,
        f.fed ++ [chunk]⟩) rfl hinit hlast
      simpa [Feeding.feedChunks, readChunk, hstep, feedAll] using hrun

variable {cmd : Command} {st : Bytes} {o : Output}

/-- The chunk that completes the begin marker. -/
lemma Shows.cut (h : Shows cmd st o) : ∃ before chunk behind after,
    o.chunks = before ++ chunk :: behind ∧
      before.flatten ++ chunk = o.noise ++ cmd.beginMarker ++ after ∧
      before.flatten.length < (o.noise ++ cmd.beginMarker).length ∧
      st ++ after ++ behind.flatten = o.scanned cmd st := by
  have hpos : 0 < (o.noise ++ cmd.beginMarker).length := by
    have := length_pos_iff.2 h.begin_ne
    rw [length_append]
    omega
  have hall : o.chunks.flatten = o.noise ++ cmd.beginMarker ++
      (o.payload ++ (cmd.endMarker ++ o.tail) ++ o.left) := by
    rw [h.flatten]
    simp
  have hle : (o.noise ++ cmd.beginMarker).length ≤ o.chunks.flatten.length := by
    rw [hall]
    simp only [length_append]
    omega
  obtain ⟨before, chunk, behind, hchunks, hlt, hge⟩ := exists_piece hpos hle
  have hflat : o.chunks.flatten = before.flatten ++ chunk ++ behind.flatten := by
    simp [hchunks]
  have hpre : o.noise ++ cmd.beginMarker <+: before.flatten ++ chunk :=
    prefix_of_prefix_length_le (hall ▸ prefix_append _ _)
      (hflat ▸ prefix_append _ _) hge
  obtain ⟨after, hafter⟩ := hpre
  refine ⟨before, chunk, behind, after, hchunks, hafter.symm, hlt, ?_⟩
  rw [hflat, ← hafter, append_assoc] at hall
  rw [append_assoc, append_cancel_left hall]
  simp [Output.scanned]

/-- The sentinel of the command is the first one. -/
lemma Shows.first (h : Shows cmd st o) :
    FirstSentinel cmd.endMarker (o.scanned cmd st) (st ++ o.payload).length o.code
      (st ++ o.payload ++ (cmd.endMarker ++ o.tail)).length := by
  refine ⟨⟨o.tail, h.sentinel, ?_, ?_⟩, fun q code stop hq => ?_⟩
  · rw [Output.scanned, append_assoc _ (cmd.endMarker ++ o.tail), drop_left]
    exact prefix_append _ _
  · simp only [length_append]
    omega
  · by_contra hlt
    exact h.end_fresh q (by omega) hq.occursAt

/-- Where all but the last piece fall short of `n`, the `n`-th element is in the last one. -/
lemma behind_eq_nil {pieces before behind : List Bytes} {piece : Bytes} {n : ℕ}
    (hpieces : pieces = before ++ piece :: behind) (hshort : pieces.dropLast.flatten.length < n)
    (hle : n ≤ (before.flatten ++ piece).length) : behind = [] := by
  by_contra hne
  have hdrop : pieces.dropLast = before ++ piece :: behind.dropLast := by
    rw [hpieces, dropLast_append_of_ne_nil (cons_ne_nil _ _), dropLast_cons_of_ne_nil hne]
  rw [hdrop, flatten_append, flatten_cons, ← append_assoc, length_append]
    at hshort
  omega

/-- The scan ends with the last chunk, behind the sentinel. -/
lemma Shows.scan (h : Shows cmd st o) {before behind : List Bytes} {chunk after : Bytes}
    (hchunks : o.chunks = before ++ chunk :: behind)
    (hscanned : st ++ after ++ behind.flatten = o.scanned cmd st) :
    ∃ init last, nonempty (st ++ after) ++ behind = init ++ [last] ∧
      ((SentinelScanner.new cmd.endMarker).feedAll init).2.done = false ∧
      let out := (new cmd.endMarker).feedAll (init ++ [last])
      out.2.done = true ∧ out.1 = st ++ o.payload ∧ out.2.exitCode = o.code ∧
        out.2.leftover = o.left := by
  have hflat : (nonempty (st ++ after) ++ behind).flatten = o.scanned cmd st := by
    rw [flatten_append, flatten_nonempty, hscanned]
  have hshort : (nonempty (st ++ after) ++ behind).dropLast.flatten.length <
      (st ++ o.payload ++ (cmd.endMarker ++ o.tail)).length := by
    have hpos := length_pos_iff.2 h.end_ne
    have hlen := congrArg length hscanned
    have hfinishing := h.finishing
    by_cases hnil : behind = []
    · have hdrop : (nonempty (st ++ after) ++ behind).dropLast = [] := by
        unfold nonempty
        split_ifs <;> simp [hnil]
      rw [hdrop]
      simp only [flatten_nil, length_nil, length_append]
      omega
    · rw [hchunks, dropLast_append_of_ne_nil (cons_ne_nil _ _),
        dropLast_cons_of_ne_nil hnil] at hfinishing
      rw [dropLast_append_of_ne_nil hnil, flatten_append, flatten_nonempty]
      simp only [Output.scanned, flatten_append, flatten_cons, length_append]
        at hfinishing hlen ⊢
      omega
  have hno := h.end_apart
  rw [← hflat] at hno
  rcases feedAll_new h.end_ne (nonempty (st ++ after) ++ behind) hno with hgo |
    ⟨p, code, stop, hfirst, hdone, htake, hcode, init, last, rest, hpieces, hlt, hle, hleft, hinit⟩
  · rw [hflat] at hgo
    exact absurd h.first.1 (hgo.absent _ _ _ h.end_apart)
  · rw [hflat] at hfirst htake
    obtain ⟨rfl, rfl, rfl⟩ := hfirst.unique h.first
    obtain rfl := behind_eq_nil hpieces hshort hle
    have hwhole : init.flatten ++ last = o.scanned cmd st := by
      rw [← hflat, hpieces]
      simp
    refine ⟨init, last, hpieces, hinit, ?_⟩
    rw [← hpieces]
    refine ⟨hdone, ?_, hcode, ?_⟩
    · rw [htake, Output.scanned, append_assoc _ (cmd.endMarker ++ o.tail), take_left]
    · rw [hleft, hwhole, Output.scanned, drop_left]

/-- One command: what it forwards, and what it leaves behind. -/
lemma runCommandRaw_forwards {pending : Bytes} (h : Shows cmd (stale pending) o)
    (msgs : List ChannelMsg) :
    let run := runCommandRaw cmd pending (o.chunks.map .data ++ msgs)
    Forwards cmd (stale pending) o run ∧
      ∀ code, run.result = .ok code → run.pending = o.left ∧ run.msgs = msgs := by
  obtain ⟨before, chunk, behind, after, hchunks, hcut, hlate, hscanned⟩ := h.cut
  obtain ⟨init, last, hpieces, hinit, hdone, hout, hcode, hleft⟩ := h.scan hchunks hscanned
  have hflat : (init ++ [last]).flatten = o.scanned cmd (stale pending) := by
    rw [← hpieces, flatten_append, flatten_nonempty, hscanned]
  have hdiscard : discardUntil cmd.beginMarker 2 [] (o.chunks.map .data ++ msgs) =
      .ok (after, behind.map .data ++ msgs) := by
    have hrun := discardUntil_data h.begin_ne le_rfl hcut hlate h.begin_fresh
      (behind.map .data ++ msgs)
    simpa [hchunks] using hrun
  have hrun : runCommandRaw cmd pending (o.chunks.map .data ++ msgs) =
      (Feeding.new cmd).feedChunks ((init ++ [last]).map .data ++ msgs) := by
    rw [runCommandRaw, hdiscard, ← hpieces, map_append, append_assoc]
    rfl
  rw [hrun]
  unfold Forwards
  cases hpayload : cmd.payload with
  | plain =>
    have hdecoder : (Feeding.new cmd).decoder = none := by simp [Feeding.new, hpayload]
    obtain ⟨sent, hsent, hfeed⟩ := feedChunks_plain hdecoder hinit hdone msgs
    have hscanner : (Feeding.new cmd).scanner = .new cmd.endMarker := rfl
    rw [hfeed, hscanner]
    refine ⟨⟨by rw [hcode], ?_⟩, fun _ _ => ⟨hleft, rfl⟩⟩
    rw [hsent, hscanner, hout]
    rfl
  | base64 decodeLen =>
    have hdecoder : (Feeding.new cmd).decoder = some (.new decodeLen) := by
      simp [Feeding.new, hpayload]
    obtain ⟨hpre, hend⟩ := feedChunks_base64 hdecoder hinit hdone msgs
    have hfed : (Feeding.new cmd).fed.flatten ++ (init ++ [last]).flatten =
        o.scanned cmd (stale pending) := hflat
    rw [hfed] at hpre hend
    refine ⟨⟨hpre, ?_⟩, fun code hok => ?_⟩
    · refine hend.imp (fun hok => ⟨?_, hok.2.1⟩) id
      rw [hok.1]
      exact congrArg Except.ok hcode
    · rcases hend with ⟨-, -, hpending, hmsgs⟩ | ⟨e, herror⟩
      · exact ⟨hpending.trans hleft, hmsgs⟩
      · rw [herror] at hok
        cases hok

end One

/-- What raw commands forward, one after the other: a plain command its payload, the decoder of a
base64 command all up to the end of the sentinel's chunk, each behind what is taken over. -/
lemma runCommands_forward (pending : Bytes) (shown : List (Command × Output))
    (msgs : List ChannelMsg) (h : ShowsAll pending shown) :
    ForwardsAll pending shown (runCommands pending
      (shown.flatMap (fun s => s.2.chunks.map .data) ++ msgs) (shown.map (·.1))) := by
  induction shown generalizing pending with
  | nil => rfl
  | cons s shown ih =>
    obtain ⟨cmd, o⟩ := s
    obtain ⟨hhere, hrest⟩ := h
    obtain ⟨hforwards, hleaves⟩ := runCommandRaw_forwards hhere
      (shown.flatMap (fun s => s.2.chunks.map .data) ++ msgs)
    rw [← append_assoc] at hforwards hleaves
    refine ⟨_, _, rfl, hforwards, ?_⟩
    split
    · next code hresult =>
      obtain ⟨hpending, hmsgs⟩ := hleaves code hresult
      simp only [flatMap_cons]
      rw [hpending, hmsgs]
      exact ih o.left hrest
    · rfl

/-- Where nothing is taken over a command forwards what is its own. -/
def IsolatedAll (pending : Bytes) : List (Command × Output) → List RawRun → Prop
  | [], runs => runs = []
  | (cmd, o) :: shown, runs => ∃ run runs', runs = run :: runs' ∧
      (stale pending = [] → Forwards cmd [] o run) ∧
      match run.result with
      | .ok _ => IsolatedAll o.left shown runs'
      | .error _ => runs' = []

lemma ForwardsAll.isolated {pending : Bytes} {shown : List (Command × Output)} {runs : List RawRun}
    (h : ForwardsAll pending shown runs) : IsolatedAll pending shown runs := by
  induction shown generalizing pending runs with
  | nil => exact h
  | cons s shown ih =>
    obtain ⟨run, runs', hruns, hforwards, hrest⟩ := h
    refine ⟨run, runs', hruns, fun hstale => hstale ▸ hforwards, ?_⟩
    cases hresult : run.result with
    | ok code =>
      rw [hresult] at hrest
      exact ih hrest
    | error e =>
      rw [hresult] at hrest
      exact hrest

/-- **Raw commands are isolated from each other** where what is pending between them is nothing, or
looks like a prompt: a plain command forwards its payload, and the decoder of a base64 command is
fed its payload and the sentinel, with the rest of the sentinel's chunk. -/
theorem runCommands_isolated (pending : Bytes) (shown : List (Command × Output))
    (msgs : List ChannelMsg) (h : ShowsAll pending shown) :
    IsolatedAll pending shown (runCommands pending
      (shown.flatMap (fun s => s.2.chunks.map .data) ++ msgs) (shown.map (·.1))) :=
  (runCommands_forward pending shown msgs h).isolated

/-- Two commands and the prompt between them, which comes with the first sentinel. -/
def prompted : List (Command × Output) :=
  [(⟨ascii "B", ascii "E", .plain⟩,
    { noise := [], payload := ascii "x", tail := ascii ":0\n",
      left := ascii "ab$ ", code := 0,
      chunks := [ascii "Bx", ascii "E:0\nab$ "] }),
  (⟨ascii "C", ascii "_F", .base64 2⟩,
    { noise := [], payload := ascii "aGk=", tail := ascii ":0\n",
      left := [], code := 0, chunks := [ascii "CaGk=", ascii "_F:0\n"] })]

lemma sentinelTail_success : SentinelTail 0 (ascii ":0\n") :=
  ⟨ascii "0", [lf], by decide +kernel⟩

theorem runCommands_isolated_prompted :
    IsolatedAll [] prompted (runCommands []
      (prompted.flatMap (fun s => s.2.chunks.map .data) ++ []) (prompted.map (·.1))) := by
  refine runCommands_isolated [] prompted [] ⟨⟨by decide, by decide, by decide +kernel,
    sentinelTail_success, by decide +kernel, by decide +kernel, by decide +kernel,
    by decide +kernel⟩, ⟨by decide, by decide, by decide +kernel, sentinelTail_success,
    by decide +kernel, by decide +kernel, by decide +kernel, by decide +kernel⟩, trivial⟩

/-- A prompt of which one half comes with the first sentinel. -/
def tornPrompt : List (Command × Output) :=
  [(⟨ascii "B", ascii "E", .plain⟩,
    { noise := [], payload := ascii "x", tail := ascii ":0\n",
      left := ascii "ab", code := 0,
      chunks := [ascii "Bx", ascii "E:0\nab"] }),
  (⟨ascii "C", ascii "F", .plain⟩,
    { noise := ascii "$ ", payload := ascii "y", tail := ascii ":0\n",
      left := [], code := 0, chunks := [ascii "$ Cy", ascii "F:0\n"] })]

/-- The decoder is fed the sentinel, and half a prompt is forwarded as output. -/
theorem runCommands_mix_payloads :
    (runCommands [] (prompted.flatMap fun s => s.2.chunks.map .data)
      (prompted.map (·.1))).map (·.fed.flatten) = [[], ascii "aGk=_F:0\n"] ∧
    (runCommands [] (tornPrompt.flatMap fun s => s.2.chunks.map .data)
      (tornPrompt.map (·.1))).map (·.sent.flatten) = [ascii "x", ascii "aby"] := by
  decide +kernel

end CrossHostOps.RawCommand
