import CrossHostOps.JumpserverEngine
import CrossHostOps.Sentinel

/-!
`PtyShell`: the shell of an asset behind a terminal. Its output arrives as messages of a channel;
what one command leaves unread is pending when the next one starts.
-/

namespace CrossHostOps.PtyShell

open Text Search JumpserverEngine List

inductive ChannelMsg
  | data (bytes : Bytes)
  | extendedData (bytes : Bytes)
  /-- A `u32`. -/
  | exitStatus (status : ℕ)
  | exitSignal
  | eof
  | close
  | other

inductive ReadError
  | closed
  /-- No further message has arrived. -/
  | waiting
  deriving DecidableEq

def readChunk : ChannelMsg → Except ReadError Bytes
  | .data bytes => .ok bytes
  | .extendedData bytes => .ok bytes
  | .close | .eof => .error .closed
  | _ => .ok []

def clearPromptRemainder (pending : Bytes) : Bytes :=
  if looksLikePrompt pending then [] else pending

/-- An empty chunk is not fed. -/
def nonempty (bytes : Bytes) : List Bytes := if bytes = [] then [] else [bytes]

lemma flatten_nonempty (bytes : Bytes) : (nonempty bytes).flatten = bytes := by
  unfold nonempty
  split_ifs with h
  · exact h.symm
  · simp

/-- Of a buffer longer than `limit` markers the last two marker lengths are kept. -/
def trimmed (marker : Bytes) (limit : ℕ) (buf : Bytes) : Bytes :=
  if buf.length > marker.length * limit then buf.drop (buf.length - marker.length * 2) else buf

/-- Output is dropped up to a marker: what its chunk brings behind it, and the messages left. -/
def discardUntil (marker : Bytes) (limit : ℕ) (buf : Bytes) :
    List ChannelMsg → Except ReadError (Bytes × List ChannelMsg)
  | [] => .error .waiting
  | msg :: msgs => do
    let buf := buf ++ (← readChunk msg)
    match findSubslice marker buf with
    | some pos => .ok (buf.drop (pos + marker.length), msgs)
    | none => discardUntil marker limit (trimmed marker limit buf) msgs

section Discard

variable {marker old buf : Bytes} {limit : ℕ}

/-- What is trimmed is long enough for a marker that is still to be completed. -/
lemma exists_trimmed (hlimit : 2 ≤ limit) (marker buf : Bytes) :
    ∃ old, buf = old ++ trimmed marker limit buf ∧
      (old = [] ∨ marker.length ≤ (trimmed marker limit buf).length) := by
  unfold trimmed
  split_ifs with hlong
  · have hmul : marker.length * 2 ≤ marker.length * limit := Nat.mul_le_mul_left _ hlimit
    refine ⟨buf.take (buf.length - marker.length * 2), (take_append_drop _ _).symm, .inr ?_⟩
    rw [length_drop]
    omega
  · exact ⟨[], rfl, .inl rfl⟩

variable {noise after chunk : Bytes} {before : List Bytes}

/-- The search goes on behind `old`, of which nothing is needed any more. -/
lemma discardUntil_from (hne : marker ≠ []) (hlimit : 2 ≤ limit)
    (hkept : old = [] ∨ marker.length ≤ buf.length)
    (hcut : old ++ buf ++ before.flatten ++ chunk = noise ++ marker ++ after)
    (hlate : (old ++ buf ++ before.flatten).length < (noise ++ marker).length)
    (hfirst : ∀ q < noise.length, ¬ OccursAt marker (noise ++ marker) q) (msgs : List ChannelMsg) :
    discardUntil marker limit buf ((before ++ [chunk]).map .data ++ msgs) = .ok (after, msgs) := by
  induction before generalizing old buf with
  | nil =>
    rw [flatten_nil, append_nil] at hcut hlate
    have hnone : findSubslice marker (old ++ buf) = none :=
      findSubslice_none_of_short hfirst (hcut ▸ prefix_append _ _) hlate
    have hfind := findSubslice_append_of_none hne hnone hkept chunk
    rw [hcut, findSubslice_cut hne hfirst] at hfind
    obtain ⟨pos, hpos, hnoise⟩ := Option.map_eq_some_iff.1 hfind.symm
    have hafter : (buf ++ chunk).drop (pos + marker.length) = after := by
      have hdrop := congrArg (drop (noise.length + marker.length)) hcut
      rw [← length_append, drop_left, length_append, ← hnoise, Nat.add_assoc,
        append_assoc, drop_length_add_append] at hdrop
      exact hdrop
    simp [discardUntil, readChunk, bind, Except.bind, hpos, hafter]
  | cons c before ih =>
    rw [flatten_cons, ← append_assoc] at hcut hlate
    have hshort : (old ++ buf ++ c).length < (noise ++ marker).length := by
      rw [length_append] at hlate
      omega
    have hpre : old ++ buf ++ c <+: noise ++ marker ++ after := by
      rw [← hcut, append_assoc _ before.flatten]
      exact prefix_append _ _
    have hnone : findSubslice marker (old ++ buf) = none := by
      refine findSubslice_none_of_short hfirst ((prefix_append _ c).trans hpre) ?_
      rw [length_append] at hshort
      omega
    have hfind := findSubslice_append_of_none hne hnone hkept c
    rw [findSubslice_none_of_short hfirst hpre hshort] at hfind
    have hhere : findSubslice marker (buf ++ c) = none := Option.map_eq_none_iff.1 hfind.symm
    -- what is trimmed away cannot take part in the marker
    obtain ⟨old', hbuf, hkept'⟩ := exists_trimmed hlimit marker (buf ++ c)
    have hall : old ++ buf ++ c = old ++ old' ++ trimmed marker limit (buf ++ c) := by
      rw [append_assoc, append_assoc, ← hbuf]
    have hkept'' : old ++ old' = [] ∨ marker.length ≤ (trimmed marker limit (buf ++ c)).length := by
      rcases hkept' with rfl | hle
      · rw [nil_append] at hbuf
        rw [append_nil, ← hbuf, length_append]
        exact hkept.imp_right fun hle => by omega
      · exact .inr hle
    rw [hall] at hcut hlate
    have hrun := ih hkept'' hcut hlate
    simpa [discardUntil, readChunk, bind, Except.bind, hhere] using hrun

/-- In a stream of chunks the first marker is found with the chunk that completes it. -/
lemma discardUntil_data (hne : marker ≠ []) (hlimit : 2 ≤ limit)
    (hcut : before.flatten ++ chunk = noise ++ marker ++ after)
    (hlate : before.flatten.length < (noise ++ marker).length)
    (hfirst : ∀ q < noise.length, ¬ OccursAt marker (noise ++ marker) q) (msgs : List ChannelMsg) :
    discardUntil marker limit [] ((before ++ [chunk]).map .data ++ msgs) = .ok (after, msgs) :=
  discardUntil_from hne hlimit (.inl (rfl : ([] : Bytes) = [])) hcut hlate hfirst msgs

end Discard

end CrossHostOps.PtyShell
