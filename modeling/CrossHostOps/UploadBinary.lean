import CrossHostOps.PtyShell

/-!
`PtyShell::upload_binary`: a receiver is started on the asset, its ready marker is awaited, the
data are written, and the sentinel of the receiver is awaited.

The scanner first sees what arrives while the data are written, and only then what came with
the ready marker.
-/

namespace CrossHostOps.UploadBinary

open Text Search Sentinel PtyShell SentinelScanner List

inductive UploadEnd
  | returned (code : ℤ) (pending : Bytes)
  | exitedEarly (code : ℤ)
  | failed (e : ReadError)
  deriving DecidableEq

/-- The exit code that is returned or reported. -/
def UploadEnd.code? : UploadEnd → Option ℤ
  | .returned code _ => some code
  | .exitedEarly code => some code
  | .failed _ => none

/-- `n` messages are there without waiting. -/
def drainAndScanEarly : ℕ → SentinelScanner → List ChannelMsg →
    Except ReadError (SentinelScanner × List ChannelMsg)
  | 0, sc, msgs => .ok (sc, msgs)
  | _ + 1, sc, [] => .ok (sc, [])
  | n + 1, sc, .data bytes :: msgs =>
    let sc := (sc.feed bytes).2
    if sc.done then .ok (sc, msgs) else drainAndScanEarly n sc msgs
  | _ + 1, _, .close :: _ | _ + 1, _, .eof :: _ => .error .closed
  | n + 1, sc, _ :: msgs => drainAndScanEarly n sc msgs

/-- The data are written piece by piece; behind each one, what has arrived is drained. -/
def writeData : List ℕ → SentinelScanner → List ChannelMsg →
    Except UploadEnd (SentinelScanner × List ChannelMsg)
  | [], sc, msgs => .ok (sc, msgs)
  | n :: drains, sc, msgs =>
    match drainAndScanEarly n sc msgs with
    | .error e => .error (.failed e)
    | .ok (sc, msgs) =>
      if sc.done then .error (.exitedEarly sc.exitCode) else writeData drains sc msgs

def awaitSentinel (sc : SentinelScanner) : List ChannelMsg → UploadEnd
  | [] => .failed .waiting
  | msg :: msgs =>
    match readChunk msg with
    | .error e => .failed e
    | .ok chunk =>
      let sc := (sc.feed chunk).2
      if sc.done then .returned sc.exitCode sc.leftover else awaitSentinel sc msgs

/-- All data are written: what is pending is scanned, and what is still to come. -/
def finalWait (pending : Bytes) (sc : SentinelScanner) (msgs : List ChannelMsg) : UploadEnd :=
  if pending = [] then awaitSentinel sc msgs
  else
    let sc := (sc.feed pending).2
    if sc.done then .returned sc.exitCode sc.leftover else awaitSentinel sc msgs

/-- The messages in the order of their arrival, and how many of them are drained behind each
piece of the data. -/
def uploadBinary (ready endMarker pending : Bytes) (msgs : List ChannelMsg) (drains : List ℕ) :
    UploadEnd :=
  match discardUntil ready 4 [] msgs with
  | .error e => .failed e
  | .ok (after, msgs) =>
    let pending := clearPromptRemainder pending ++ after
    match writeData drains (.new endMarker) msgs with
    | .error e => e
    | .ok (sc, msgs) => finalWait pending sc msgs

/-- The output behind the ready marker, in the order in which the scanner sees it. -/
def scanOrder (pending after : Bytes) (behind : List Bytes) (early : ℕ) : Bytes :=
  (behind.take early).flatten ++ (clearPromptRemainder pending ++ after) ++
    (behind.drop early).flatten

/-! ### The phases over a stream of data -/

section Phases

variable {sc : SentinelScanner} {endMarker : Bytes}

/-- The code of a scan that is done. -/
def verdict (sc : SentinelScanner) : Option ℤ := if sc.done then some sc.exitCode else none

lemma verdict_eq_some {code : ℤ} :
    verdict sc = some code ↔ sc.done = true ∧ sc.exitCode = code := by
  unfold verdict
  split_ifs with h
  · simp [h]
  · simp [h]

lemma drain_data (n : ℕ) (sc : SentinelScanner) (chunks : List Bytes) :
    ∃ rest, drainAndScanEarly n sc (chunks.map .data) = .ok ((sc.feedAll (chunks.take n)).2, rest) ∧
      ((sc.feedAll (chunks.take n)).2.done = false → rest = (chunks.drop n).map .data) := by
  induction n generalizing sc chunks with
  | zero => exact ⟨chunks.map .data, rfl, fun _ => rfl⟩
  | succ n ih =>
    cases chunks with
    | nil => exact ⟨[], rfl, fun _ => rfl⟩
    | cons chunk chunks =>
      by_cases hdone : (sc.feed chunk).2.done = true
      · -- what is fed to a scanner that is done changes nothing
        have hrest := feedAll_done hdone (chunks.take n)
        refine ⟨chunks.map .data, ?_, fun hnot => ?_⟩
        · simp [drainAndScanEarly, hdone, feedAll, hrest]
        · simp [feedAll, hrest, hdone] at hnot
      · obtain ⟨rest, hrun, hrest⟩ := ih (sc.feed chunk).2 chunks
        refine ⟨rest, ?_, hrest⟩
        rw [map_cons, drainAndScanEarly, if_neg hdone, hrun]
        rfl

lemma writeData_data (drains : List ℕ) (sc : SentinelScanner) (hsc : sc.done = false)
    (chunks : List Bytes) :
    let out := (sc.feedAll (chunks.take drains.sum)).2
    writeData drains sc (chunks.map .data) =
      if out.done then .error (.exitedEarly out.exitCode)
      else .ok (out, (chunks.drop drains.sum).map .data) := by
  induction drains generalizing sc chunks with
  | nil => simp [writeData, feedAll, hsc]
  | cons n drains ih =>
    obtain ⟨rest, hrun, hrest⟩ := drain_data n sc chunks
    have hsplit : (sc.feedAll (chunks.take (n + drains.sum))).2 =
        ((sc.feedAll (chunks.take n)).2.feedAll ((chunks.drop n).take drains.sum)).2 := by
      rw [← feedAll_append, take_add]
    rw [writeData, hrun, sum_cons, hsplit]
    by_cases hdone : (sc.feedAll (chunks.take n)).2.done = true
    · simp [feedAll_done hdone, hdone]
    · rw [Bool.not_eq_true] at hdone
      rw [hrest hdone]
      have hih := ih _ hdone (chunks.drop n)
      simp only [hdone, Bool.false_eq_true, if_false, hih, drop_drop]

lemma awaitSentinel_data (hsc : sc.done = false) (chunks : List Bytes) :
    (awaitSentinel sc (chunks.map .data)).code? = verdict (sc.feedAll chunks).2 := by
  induction chunks generalizing sc with
  | nil => simp [awaitSentinel, UploadEnd.code?, verdict, feedAll, hsc]
  | cons chunk chunks ih =>
    by_cases hdone : (sc.feed chunk).2.done = true
    · simp [awaitSentinel, readChunk, UploadEnd.code?, verdict, feedAll, hdone, feedAll_done hdone]
    · rw [Bool.not_eq_true] at hdone
      simpa [awaitSentinel, readChunk, feedAll, hdone] using ih hdone

lemma finalWait_data (hsc : sc.done = false) (pending : Bytes) (chunks : List Bytes) :
    (finalWait pending sc (chunks.map .data)).code? =
      verdict (sc.feedAll (nonempty pending ++ chunks)).2 := by
  unfold finalWait nonempty
  by_cases hnil : pending = []
  · simpa [hnil] using awaitSentinel_data hsc chunks
  simp only [hnil, if_false, singleton_append, feedAll]
  by_cases hdone : (sc.feed pending).2.done = true
  · simp [hdone, feedAll_done hdone, UploadEnd.code?, verdict]
  · rw [if_neg hdone]
    exact awaitSentinel_data (by simpa using hdone) chunks

/-- A whole upload: the scanner sees the early chunks, what is pending, and the rest. -/
lemma uploadBinary_data {ready noise after chunk : Bytes} {before behind : List Bytes}
    (hready : ready ≠ []) (endMarker pending : Bytes)
    (hcut : before.flatten ++ chunk = noise ++ ready ++ after)
    (hlate : before.flatten.length < (noise ++ ready).length)
    (hfirst : ∀ q < noise.length, ¬ OccursAt ready (noise ++ ready) q) (drains : List ℕ) :
    ∃ chunks, chunks.flatten = scanOrder pending after behind drains.sum ∧
      (uploadBinary ready endMarker pending ((before ++ chunk :: behind).map .data) drains).code? =
        verdict ((SentinelScanner.new endMarker).feedAll chunks).2 := by
  have hdiscard : discardUntil ready 4 [] ((before ++ chunk :: behind).map .data) =
      .ok (after, behind.map .data) := by
    have h := discardUntil_data hready (by omega : 2 ≤ 4) hcut hlate hfirst (behind.map .data)
    simpa using h
  have hwrite := writeData_data drains (new endMarker) rfl behind
  refine ⟨behind.take drains.sum ++ (nonempty (clearPromptRemainder pending ++ after) ++
    behind.drop drains.sum), ?_, ?_⟩
  · simp [scanOrder, flatten_nonempty]
  rw [uploadBinary, hdiscard, feedAll_append]
  simp only [hwrite]
  by_cases hdone : ((new endMarker).feedAll (behind.take drains.sum)).2.done = true
  · simp [hdone, feedAll_done hdone, UploadEnd.code?, verdict]
  · rw [Bool.not_eq_true] at hdone
    simp only [hdone]
    exact finalWait_data hdone _ _

end Phases

/-- **An upload ends with the code of the first sentinel in the order of scanning**: behind the
ready marker, the chunks that are drained while the data are written come before what was pending
already, and everything else comes last. -/
theorem uploadBinary_code_iff {ready endMarker : Bytes} (hready : ready ≠ [])
    (hend : endMarker ≠ []) (pending noise after chunk : Bytes) (before behind : List Bytes)
    (hcut : before.flatten ++ chunk = noise ++ ready ++ after)
    (hlate : before.flatten.length < (noise ++ ready).length)
    (hfirst : ∀ q < noise.length, ¬ OccursAt ready (noise ++ ready) q) (drains : List ℕ)
    (hno : NonOverlapping endMarker (scanOrder pending after behind drains.sum)) (code : ℤ) :
    (uploadBinary ready endMarker pending ((before ++ chunk :: behind).map .data) drains).code? =
        some code ↔
      ∃ p stop, FirstSentinel endMarker (scanOrder pending after behind drains.sum) p code
        stop := by
  obtain ⟨chunks, hchunks, hcode⟩ :=
    uploadBinary_data hready endMarker pending hcut hlate hfirst drains
  rw [← hchunks] at hno ⊢
  rw [hcode, verdict_eq_some]
  exact feedAll_done_iff hend chunks hno code

def ready : Bytes := ascii "READY"
def endMarker : Bytes := ascii "END"

/-- The sentinel in two chunks, of which the first arrives while the data are written. -/
def tornLate : List Bytes := [ascii "END:", ascii "0\n"]

theorem uploadBinary_code_iff_tornLate :
    (uploadBinary ready endMarker [] (([] ++ ascii "$ READY" :: tornLate).map .data)
      [1]).code? = some 0 := by
  refine (uploadBinary_code_iff (by decide) (by decide) [] (ascii "$ ") [] _ [] tornLate
    (by decide +kernel) (by decide +kernel) (by decide +kernel) [1] (by decide +kernel) 0).2
    ⟨0, 6, ?_, fun _ _ _ _ => Nat.zero_le _⟩
  exact ⟨ascii ":0\n", ⟨ascii "0", [lf], by decide +kernel⟩, by decide +kernel, rfl⟩

/-- The sentinel begins in the chunk of the ready marker and ends in one that arrives while the
data are written: its end is scanned before its beginning. -/
def tornEarly : List Bytes := [ascii "READYEND:", ascii "0\n"]

theorem uploadBinary_misses_sentinel :
    tornEarly.flatten = ready ++ endMarker ++ ascii ":0\n" ∧
      uploadBinary ready endMarker [] (tornEarly.map .data) [1] = .failed .waiting := by
  decide +kernel

end CrossHostOps.UploadBinary
