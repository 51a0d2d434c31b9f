import CrossHostOps.PtyShell
import CrossHostOps.ShellNoise

/-!
`PtyShell::run_command_plain`: a command on a terminal that echoes. Its output is sent while it
arrives, all but its end, until the shell shows a prompt; the exit code stands behind a marker.
-/

namespace CrossHostOps.CookedCommand

open Text Search Sentinel PtyShell JumpserverEngine ShellNoise List

/-- What is pending up to the first line feed is dropped; without one, more is read, until a read
fails. -/
def drainEchoLine (pending : Bytes) : List ChannelMsg → Bytes × List ChannelMsg
  | [] => if lf ∈ pending then ((pending.dropWhile (· ≠ lf)).tail, []) else (pending, [])
  | msg :: msgs =>
    if lf ∈ pending then ((pending.dropWhile (· ≠ lf)).tail, msg :: msgs)
    else
      match readChunk msg with
      | .error _ => (pending, msgs)
      | .ok chunk => drainEchoLine (pending ++ chunk) msgs

/-- Where the prompt begins, at the end of a buffer. -/
def promptOutputSplit (buffer : Bytes) : Option ℕ :=
  if looksLikePrompt buffer then some (buffer.rdropWhile (· ≠ lf)).length else none

/-- The number in the rest of a line, or 0. -/
def statusOf (status : Bytes) : ℤ :=
  (parseI32 (trim (Utf8.decodeLossy (status.takeWhile (· ≠ lf))))).getD 0

/-- The exit code, and what comes before the marker. -/
def extractMarker (buf marker : Bytes) : ℤ × Bytes :=
  match findSubslice marker buf with
  | some pos =>
    match buf.drop (pos + marker.length) with
    | b :: status => if b = colon then (statusOf status, buf.take pos) else (0, buf)
    | [] => (0, buf)
  | none => (0, buf)

/-- The end of a command, with what is pending then. -/
structure PlainRun where
  result : Except ReadError ℤ
  sent : List Bytes
  pending : Bytes

/-- A command ends with this code, and this is all that was sent. -/
def PlainRun.Gives (run : PlainRun) (code : ℤ) (output : Bytes) : Prop :=
  run.result = .ok code ∧ run.sent.flatten = output

/-- What is kept back while the output arrives. -/
def keep (marker : Bytes) : ℕ := marker.length + 32

/-- Noise is stripped from what is sent first. -/
def strippedIf (firstOutput : Bool) (data : Bytes) : Bytes :=
  if firstOutput then stripLeadingShellNoise data else data

def plainLoop (marker : Bytes) (firstOutput : Bool) (sent : List Bytes) (pending : Bytes) :
    List ChannelMsg → PlainRun
  | [] => ⟨.error .waiting, sent, pending⟩
  | msg :: msgs =>
    match readChunk msg with
    | .error e => ⟨.error e, sent, pending⟩
    | .ok chunk =>
      let pending := pending ++ chunk
      match promptOutputSplit pending with
      | some split =>
        let (code, clean) := extractMarker (pending.take split) marker
        ⟨.ok code, sent ++ nonempty (strippedIf firstOutput clean), pending.drop split⟩
      | none =>
        if pending.length > keep marker then
          let safe := pending.length - keep marker
          plainLoop marker false (sent ++ nonempty (strippedIf firstOutput (pending.take safe)))
            (pending.drop safe) msgs
        else plainLoop marker firstOutput sent pending msgs

def runCommandPlain (marker pending : Bytes) (msgs : List ChannelMsg) : PlainRun :=
  let (pending, msgs) := drainEchoLine (clearPromptRemainder pending) msgs
  plainLoop marker true [] pending msgs

/-! ### What the terminal shows -/

def markerLine (marker : Bytes) (code : ℕ) : Bytes :=
  marker ++ (colon :: ascii (showNat code)) ++ [cr, lf]

/-- The bytes of which markers are made. -/
def isWord (b : UInt8) : Bool :=
  isDigit b || (65 ≤ b && b ≤ 90) || (97 ≤ b && b ≤ 122) || b == 95

/-- All that is shown behind the echoed command. -/
def shown (output marker : Bytes) (code : ℕ) (prompt : Bytes) : Bytes :=
  output ++ markerLine marker code ++ prompt

/-- What is pending when `read` bytes have been read and `flushed` of them are sent. -/
def window (all : Bytes) (flushed read : ℕ) : Bytes := (all.drop flushed).take (read - flushed)

/-- The chunks come when `read` bytes of `all` have been read and `flushed` of them are sent. With
each of them, while the output arrives, what is kept is no prompt, no part of the marker is sent,
and what is sent first has all the noise of the output; at the prompt, the marker is the first
one. -/
def Orderly (output marker all : Bytes) (flushed read : ℕ) : List Bytes → Prop
  | [] => True
  | chunk :: rest =>
    let read := read + chunk.length
    if looksLikePrompt (window all flushed read) then
      output.length < read ∧
        ∀ q, flushed ≤ q → q < output.length → ¬ OccursAt marker (output ++ marker) q
    else
      read ≤ output.length + keep marker ∧
        (flushed = 0 → keep marker < read → noiseLen output ≤ read - keep marker) ∧
        Orderly output marker all (max flushed (read - keep marker)) read rest

instance decidableOrderly (output marker all : Bytes) :
    ∀ flushed read chunks, Decidable (Orderly output marker all flushed read chunks)
  | _, _, [] => inferInstanceAs (Decidable True)
  | flushed, read, chunk :: rest =>
    have := decidableOrderly output marker all
      (max flushed (read + chunk.length - keep marker)) (read + chunk.length) rest
    decidable_of_iff _ (Iff.of_eq (Orderly.eq_2 output marker all flushed read chunk rest)).symm

/-- Something is read behind the chunk that ends the echoed line, and it comes orderly. -/
def OrderlyBehind (echo output marker all : Bytes) (chunks : List Bytes) : Prop :=
  ∃ before chunk behind, chunks = before ++ chunk :: behind ∧
    before.flatten.length ≤ echo.length ∧ echo.length < (before.flatten ++ chunk).length ∧
    behind ≠ [] ∧
    Orderly output marker all 0 ((before.flatten ++ chunk).length - (echo.length + 1)) behind

variable {o m p : Bytes} {c f n : ℕ}

/-! ### The line of the marker -/

def Visible (b : UInt8) : Prop := b < 0x80 ∧ b ≠ 0x20 ∧ b ≠ 0x0D

lemma visible_of_isWord {b : UInt8} (h : isWord b = true) : Visible b := by
  unfold isWord isDigit at h
  unfold Visible
  grind

lemma not_prompt_of_visible {b : UInt8} (hb : Visible b) (x : Bytes) :
    looksLikePrompt (x ++ [b]) = false :=
  not_prompt_concat hb.1 hb.2.1 hb.2.2 x

/-- While a line of visible characters arrives there is no prompt. -/
lemma not_prompt_of_part {line y : Bytes} (hvisible : ∀ b ∈ line, Visible b) (hline : line ≠ [])
    (hy : y <+: line ++ [cr, lf]) (hne : y ≠ []) (x : Bytes) :
    looksLikePrompt (x ++ y) = false := by
  have hinside : ∀ y ≠ [], y <+: line → looksLikePrompt (x ++ y) = false := by
    intro y hne hy
    obtain ⟨y', b, rfl⟩ := (eq_nil_or_concat' y).resolve_left hne
    rw [← append_assoc]
    exact not_prompt_of_visible (hvisible b (hy.subset (by simp))) _
  rcases prefix_or_prefix_of_prefix hy (prefix_append line _) with hpart | ⟨t, rfl⟩
  · exact hinside y hne hpart
  · obtain ⟨line', d, rfl⟩ := (eq_nil_or_concat' line).resolve_left hline
    have ht : t <+: [cr, lf] := (prefix_append_right_inj _).1 hy
    rcases prefix_cons_iff.1 ht with rfl | ⟨t', rfl, ht'⟩
    · rw [append_nil]
      exact hinside _ hline (prefix_refl _)
    rcases prefix_cons_iff.1 ht' with rfl | ⟨t'', rfl, ht''⟩
    · have hd := hvisible d (by simp)
      have hend : x ++ (line' ++ [d] ++ [cr]) = x ++ line' ++ [d, 0x0D] := by simp [cr]
      rw [hend]
      exact not_prompt_concat_cr hd.1 hd.2.1 hd.2.2 _
    · rw [prefix_nil.1 ht'', append_cons _ cr, ← append_assoc]
      exact not_prompt_of_visible ⟨by decide, by decide, by decide⟩ _

lemma isDigit_of_mem_showNat {c : ℕ} (hc : c < 256) :
    ∀ b ∈ ascii (showNat c), isDigit b = true := by
  have hall : ∀ c < 256, (ascii (showNat c)).all isDigit = true := by decide +kernel
  exact all_eq_true.1 (hall c hc)

/-- The prompt begins behind every line that is complete. -/
lemma prefix_rdropWhile (a y : Bytes) : a ++ [lf] <+: (a ++ [lf] ++ y).rdropWhile (· ≠ lf) := by
  induction y using reverseRecOn with
  | nil => rw [append_nil, rdropWhile_concat_neg _ _ _ (by simp)]
  | append_singleton y b ih =>
    rw [← append_assoc]
    by_cases hb : b = lf
    · rw [rdropWhile_concat_neg _ _ _ (by simpa using hb), append_assoc (a ++ [lf])]
      exact prefix_append _ _
    · rw [rdropWhile_concat_pos _ _ _ (by simpa using hb)]
      exact ih

lemma statusOf_code {c : ℕ} (hc : c < 256) (z : Bytes) :
    statusOf (ascii (showNat c) ++ [cr] ++ lf :: z) = c := by
  have hparse : ∀ c < 256, parseI32 (trim (Utf8.decodeLossy (ascii (showNat c) ++ [cr]))) =
      some (c : ℤ) := by decide +kernel
  have hline : ∀ b ∈ ascii (showNat c) ++ [cr], decide (b ≠ lf) = true := by
    intro b hb
    rcases mem_append.1 hb with hb | hb
    · have hdigit := isDigit_of_mem_showNat hc b hb
      refine decide_eq_true fun h => ?_
      rw [h] at hdigit
      cases hdigit
    · rw [mem_singleton.1 hb]
      rfl
  rw [statusOf, takeWhile_append_of_pos hline, takeWhile_cons_of_neg (by simp),
    append_nil, hparse c hc]
  rfl

section Extract

/-- The code is read at the first marker. -/
lemma extractMarker_first (hm : m ≠ []) (hc : c < 256)
    (hfirst : ∀ q < o.length, ¬ OccursAt m (o ++ m) q) (z : Bytes) :
    extractMarker (o ++ markerLine m c ++ z) m = ((c : ℤ), o) := by
  have hbuf : o ++ markerLine m c ++ z =
      o ++ m ++ (colon :: (ascii (showNat c) ++ [cr] ++ lf :: z)) := by simp [markerLine]
  rw [hbuf]
  simp only [extractMarker, findSubslice_cut hm hfirst]
  rw [← length_append, drop_left]
  simp only [if_pos, statusOf_code hc]
  rw [append_assoc, take_left]

/-- What follows a marker that begins in the output is not the colon. -/
lemma not_colon_of_lt {q : ℕ} {rest : Bytes} (hword : ∀ b ∈ m, isWord b = true)
    (ho : ∀ q, ¬ OccursAt m o q) (hq : q < o.length)
    (h : m ++ [colon] <+: (o ++ (m ++ rest)).drop q) : False := by
  have hmarker : OccursAt m (o ++ (m ++ rest)) q := (prefix_append m _).trans h
  have hbeyond : o.length < q + m.length := by
    by_contra hle
    exact ho q (hmarker.of_append (by omega))
  obtain ⟨t, ht⟩ := h
  have hat : ((o ++ (m ++ rest)).drop q)[m.length]? = some colon := by
    rw [← ht]
    simp
  rw [getElem?_drop, getElem?_append_right (by omega), getElem?_append_left (by omega)] at hat
  have hcolon := hword colon (mem_of_getElem? hat)
  cases hcolon

/-- A code other than 0 is the one behind the output. -/
lemma extractMarker_found {raw : Bytes} {f : ℕ} (hword : ∀ b ∈ m, isWord b = true)
    (ho : ∀ q, ¬ OccursAt m o q) (hlast : ∀ q, o.length < q → ¬ OccursAt m (shown o m c p) q)
    (hraw : raw <+: (shown o m c p).drop f) (hcode : (extractMarker raw m).1 ≠ 0) :
    f ≤ o.length ∧ (extractMarker raw m).2 = o.drop f ∧ o.length < f + raw.length ∧
      ∀ q, f ≤ q → q < o.length → ¬ OccursAt m (o ++ m) q := by
  obtain ⟨rest, hshown⟩ : ∃ rest, shown o m c p = o ++ (m ++ rest) :=
    ⟨colon :: ascii (showNat c) ++ [cr, lf] ++ p, by simp [shown, markerLine]⟩
  rw [hshown] at hlast hraw
  unfold extractMarker at hcode ⊢
  cases hfind : findSubslice m raw with
  | none => simp [hfind] at hcode
  | some pos =>
    cases hafter : raw.drop (pos + m.length) with
    | nil => simp [hfind, hafter] at hcode
    | cons b status =>
      by_cases hb : b = colon
      · subst hb
        simp only [hafter]
        obtain ⟨hm, hocc, hbefore⟩ := findSubslice_some hfind
        have hle : pos + m.length ≤ raw.length := hocc.add_length_le hm
        have hpos := length_pos_iff.2 hm
        have hhere : m ++ [colon] <+: (o ++ (m ++ rest)).drop (f + pos) := by
          obtain ⟨t, ht⟩ := hocc
          have hcolon : t = colon :: status := by
            rw [← hafter, ← drop_drop, ← ht, drop_left]
          rw [← drop_drop]
          refine List.IsPrefix.trans ?_ (hraw.drop pos)
          rw [← ht, hcolon]
          exact ⟨status, by simp⟩
        have hend : f + pos = o.length := by
          rcases Nat.lt_trichotomy (f + pos) o.length with hlt | heq | hgt
          · exact (not_colon_of_lt hword ho hlt hhere).elim
          · exact heq
          · exact absurd ((prefix_append m _).trans hhere) (hlast _ hgt)
        obtain ⟨t, ht⟩ := hraw
        refine ⟨by omega, ?_, by omega, fun q hfq hq hocc' => ?_⟩
        · calc raw.take pos = ((o ++ (m ++ rest)).drop f).take pos := by
                rw [← ht, take_append_of_le_length (by omega)]
            _ = ((o ++ (m ++ rest)).take o.length).drop f := by rw [take_drop, hend]
            _ = o.drop f := by rw [take_left]
        · have hraw' : OccursAt m (raw ++ t) (q - f) := by
            rw [ht, occursAt_drop, Nat.add_sub_cancel' hfq, ← append_assoc]
            exact hocc'.append rest
          exact hbefore (q - f) (by omega) (hraw'.of_append (by omega))
      · simp [hfind, hafter, hb] at hcode

end Extract

/-! ### The loop, over what has been read -/

section Window

variable {all : Bytes} {k : ℕ}

lemma length_window (hn : n ≤ all.length) : (window all f n).length = n - f := by
  rw [window, length_take, length_drop]
  omega

lemma window_append (hf : f ≤ k) (hk : k ≤ n) :
    window all f k ++ window all k n = window all f n := by
  have hsum : n - f = (k - f) + (n - k) := by omega
  rw [window, window, window, hsum, take_add, drop_drop, Nat.add_sub_cancel' hf]

lemma take_window (hk : k ≤ n) : (window all f n).take (k - f) = window all f k := by
  rw [window, window, take_take, Nat.min_eq_left (by omega)]

lemma drop_window (hf : f ≤ k) : (window all f n).drop (k - f) = window all k n := by
  rw [window, drop_take, drop_drop, Nat.add_sub_cancel' hf]
  congr 1
  omega

lemma window_left {o y : Bytes} (hf : f ≤ k) (hk : k ≤ o.length) :
    window (o ++ y) f k = window o f k := by
  rw [window, window, drop_append_of_le_length (hf.trans hk), take_append_of_le_length]
  rw [length_drop]
  omega

lemma window_length (all : Bytes) (f : ℕ) : window all f all.length = all.drop f := by
  rw [window, take_of_length_le (by rw [length_drop])]

end Window

section Loop

variable {all chunk : Bytes} {rest : List Bytes}

lemma window_chunk (hf : f ≤ n) (hcut : (chunk :: rest).flatten = all.drop n) :
    window all f n ++ chunk = window all f (n + chunk.length) := by
  have hchunk : window all n (n + chunk.length) = chunk := by
    rw [window, Nat.add_sub_cancel_left, ← hcut, flatten_cons, take_left]
  rw [← window_append hf (Nat.le_add_right n chunk.length), hchunk]

lemma rest_chunk (hcut : (chunk :: rest).flatten = all.drop n) :
    rest.flatten = all.drop (n + chunk.length) := by
  rw [← drop_drop, ← hcut, flatten_cons, drop_left]

lemma read_chunk (hn : n ≤ all.length) (hcut : (chunk :: rest).flatten = all.drop n) :
    n + chunk.length ≤ all.length := by
  have hlen := congrArg length hcut
  rw [flatten_cons, length_append, length_drop] at hlen
  omega

def finished (marker : Bytes) (firstOutput : Bool) (sent : List Bytes) (pending : Bytes) :
    PlainRun :=
  let raw := pending.rdropWhile (· ≠ lf)
  ⟨.ok (extractMarker raw marker).1,
    sent ++ nonempty (strippedIf firstOutput (extractMarker raw marker).2),
    pending.drop raw.length⟩

lemma plainLoop_chunk (hf : f ≤ n) (hn : n ≤ all.length)
    (hcut : (chunk :: rest).flatten = all.drop n) (firstOutput : Bool) (sent : List Bytes) :
    plainLoop m firstOutput sent (window all f n) ((chunk :: rest).map .data) =
      if looksLikePrompt (window all f (n + chunk.length)) then
        finished m firstOutput sent (window all f (n + chunk.length))
      else if f < n + chunk.length - keep m then
        plainLoop m false
          (sent ++ nonempty (strippedIf firstOutput (window all f (n + chunk.length - keep m))))
          (window all (n + chunk.length - keep m) (n + chunk.length)) (rest.map .data)
      else plainLoop m firstOutput sent (window all f (n + chunk.length)) (rest.map .data) := by
  have hlen : (window all f (n + chunk.length)).length = n + chunk.length - f :=
    length_window (read_chunk hn hcut)
  rw [map_cons, plainLoop]
  by_cases hprompt : looksLikePrompt (window all f (n + chunk.length)) = true
  · simp only [readChunk, window_chunk hf hcut, promptOutputSplit, if_pos hprompt, finished]
    rw [← prefix_iff_eq_take.1 (List.rdropWhile_prefix _ _)]
  · simp only [readChunk, window_chunk hf hcut, promptOutputSplit, if_neg hprompt, hlen]
    by_cases hflush : f < n + chunk.length - keep m
    · have hsafe : n + chunk.length - f - keep m = n + chunk.length - keep m - f := by omega
      rw [if_pos (by omega), if_pos hflush, hsafe, take_window (by omega), drop_window (by omega)]
    · rw [if_neg (by omega), if_neg hflush]

end Loop

/-! ### A command and its prompt -/

/-- A command with a fresh marker, whose prompt is one that is looked for. -/
structure Answers (output marker : Bytes) (code : ℕ) (prompt : Bytes) : Prop where
  marker_ne : marker ≠ []
  word : ∀ b ∈ marker, isWord b = true
  fresh : ∀ q, ¬ OccursAt marker output q
  code_lt : code < 256
  prompt_end : [0x24, 0x20] <:+ prompt ∨ [0x23, 0x20] <:+ prompt

section Command

variable {sent : List Bytes} {firstOutput : Bool}

lemma window_output {k : ℕ} (hf : f ≤ k) (hk : k ≤ o.length) :
    window (shown o m c p) f k = window o f k := by
  rw [shown, append_assoc, window_left hf hk]

/-- What is sent in between and what is left make up the output. -/
lemma window_drop {k : ℕ} (hf : f ≤ k) (hk : k ≤ o.length) :
    window o f k ++ o.drop k = o.drop f := by
  rw [← window_length o k, window_append hf hk, window_length]

/-- What is sent and what is left make up what is to be sent, if what is sent first has all the
noise. -/
lemma flush_iff {k : ℕ} (hf : f ≤ k) (hk : k ≤ o.length) :
    strippedIf (f = 0) (window (shown o m c p) f k) ++ o.drop k = strippedIf (f = 0) (o.drop f) ↔
      (f = 0 → noiseLen o ≤ k) := by
  rw [window_output hf hk]
  by_cases hzero : f = 0
  · subst hzero
    simp only [strippedIf, decide_true, if_true, forall_const]
    rw [← strip_take_iff hk, window, drop_zero, Nat.sub_zero]
  · simp [strippedIf, hzero, window_drop hf hk]

variable (h : Answers o m c p)

include h

/-- While the line of the marker arrives there is no prompt. -/
lemma not_prompt_in_line (hf : f ≤ o.length) (hn : o.length < n)
    (hline : n ≤ o.length + (markerLine m c).length) :
    looksLikePrompt (window (shown o m c p) f n) = false := by
  have hvisible : ∀ b ∈ m ++ colon :: ascii (showNat c), Visible b := by
    intro b hb
    rcases mem_append.1 hb with hb | hb
    · exact visible_of_isWord (h.word b hb)
    rcases mem_cons.1 hb with rfl | hb
    · exact ⟨by decide, by decide, by decide⟩
    · refine visible_of_isWord ?_
      rw [isWord, isDigit_of_mem_showNat h.code_lt b hb]
      rfl
  have hpart : window (shown o m c p) o.length n = (markerLine m c).take (n - o.length) := by
    rw [window, shown, append_assoc, drop_left, take_append_of_le_length (by omega)]
  have hne : (markerLine m c).take (n - o.length) ≠ [] := by
    rw [← length_pos_iff, length_take]
    omega
  rw [← window_append hf hn.le, hpart]
  exact not_prompt_of_part hvisible (by simp) (List.take_prefix _ _) hne _

lemma prompt_at_end (hf : f ≤ o.length) :
    looksLikePrompt (window (shown o m c p) f (shown o m c p).length) = true := by
  obtain ⟨x, d, hd, rfl⟩ : ∃ x d, (d = 0x24 ∨ d = 0x23) ∧ x ++ [d, 0x20] = p := by
    rcases h.prompt_end with ⟨x, hx⟩ | ⟨x, hx⟩
    · exact ⟨x, 0x24, .inl rfl, hx⟩
    · exact ⟨x, 0x23, .inr rfl, hx⟩
  rw [window_length, shown, append_assoc, drop_append_of_le_length hf,
    ← append_assoc, ← append_assoc]
  exact prompt_of_suffix hd _

/-- So without a prompt there is more to read. -/
lemma more_to_read (hf : f ≤ o.length) (hn : n ≤ (shown o m c p).length)
    {rest : List Bytes} (hcut : rest.flatten = (shown o m c p).drop n)
    (hprompt : ¬ looksLikePrompt (window (shown o m c p) f n) = true) : rest ≠ [] := by
  rintro rfl
  have hend : n = (shown o m c p).length :=
    Nat.le_antisymm hn (drop_eq_nil_iff.1 hcut.symm)
  exact hprompt (hend ▸ prompt_at_end h hf)

/-- At a prompt behind the output the code and the rest of the output are found. -/
lemma finished_shown (hf : f ≤ o.length) (hn : o.length < n)
    (hprompt : looksLikePrompt (window (shown o m c p) f n) = true)
    (hfirst : ∀ q, f ≤ q → q < o.length → ¬ OccursAt m (o ++ m) q) :
    (finished m firstOutput sent (window (shown o m c p) f n)).Gives c
      (sent.flatten ++ strippedIf firstOutput (o.drop f)) := by
  have hbehind : o.length + (markerLine m c).length < n := by
    by_contra hle
    rw [not_prompt_in_line h hf hn (by omega)] at hprompt
    cases hprompt
  obtain ⟨line, hline⟩ : ∃ line, markerLine m c = line ++ [lf] :=
    ⟨m ++ (colon :: ascii (showNat c)) ++ [cr], by simp [markerLine]⟩
  have hwindow : window (shown o m c p) f n = o.drop f ++ line ++ [lf] ++
      p.take (n - o.length - (markerLine m c).length) := by
    rw [← window_append hf hn.le, window_output hf le_rfl, window_length, window, shown,
      append_assoc, drop_left, take_append, take_of_length_le (by omega), hline]
    simp
  obtain ⟨z, hz⟩ := prefix_rdropWhile (o.drop f ++ line) (p.take (n - o.length -
    (markerLine m c).length))
  have hfirst' : ∀ q < (o.drop f).length, ¬ OccursAt m (o.drop f ++ m) q := by
    intro q hq
    rw [length_drop] at hq
    rw [← drop_append_of_le_length hf, occursAt_drop]
    exact hfirst (f + q) (by omega) (by omega)
  have hextract := extractMarker_first h.marker_ne h.code_lt hfirst' z
  rw [hline, ← append_assoc (o.drop f)] at hextract
  simp only [PlainRun.Gives, finished, hwindow, ← hz, hextract, flatten_append,
    flatten_nonempty, and_self]

/-- A code other than 0 is found behind the output, with the rest of it. -/
lemma shown_of_finished (hlast : ∀ q, o.length < q → ¬ OccursAt m (shown o m c p) q) (hf : f ≤ n)
    (hn : n ≤ (shown o m c p).length) {code : ℤ} (hcode : code ≠ 0)
    (hrun : (finished m firstOutput sent (window (shown o m c p) f n)).result = .ok code) :
    f ≤ o.length ∧ o.length < n ∧ (∀ q, f ≤ q → q < o.length → ¬ OccursAt m (o ++ m) q) ∧
      (finished m firstOutput sent (window (shown o m c p) f n)).sent.flatten =
        sent.flatten ++ strippedIf firstOutput (o.drop f) := by
  set raw := (window (shown o m c p) f n).rdropWhile (· ≠ lf) with hraw
  have hpre : raw <+: window (shown o m c p) f n := rdropWhile_prefix _ _
  have hlen := hpre.length_le
  rw [length_window hn] at hlen
  have hfound : (extractMarker raw m).1 = code := by
    simpa only [finished, Except.ok.injEq] using hrun
  obtain ⟨hfo, hclean, hbehind, hfirst⟩ := extractMarker_found h.word h.fresh hlast
    (hpre.trans (List.take_prefix _ _)) (hfound ▸ hcode)
  refine ⟨hfo, by omega, hfirst, ?_⟩
  simp only [finished, ← hraw, hclean, flatten_append, flatten_nonempty]

/-! ### The chunks -/

lemma plainLoop_gives (rest : List Bytes) (hne : rest ≠ []) (hf : f ≤ n)
    (hn : n ≤ (shown o m c p).length) (hfo : f ≤ o.length)
    (hcut : rest.flatten = (shown o m c p).drop n) (horder : Orderly o m (shown o m c p) f n rest)
    (sent : List Bytes) :
    (plainLoop m (f = 0) sent (window (shown o m c p) f n) (rest.map .data)).Gives c
      (sent.flatten ++ strippedIf (f = 0) (o.drop f)) := by
  induction rest generalizing f n sent with
  | nil => exact absurd rfl hne
  | cons chunk rest ih =>
    have hn' := read_chunk hn hcut
    have hcut' := rest_chunk hcut
    rw [Orderly] at horder
    rw [plainLoop_chunk hf hn hcut]
    by_cases hprompt : looksLikePrompt (window (shown o m c p) f (n + chunk.length)) = true
    · rw [if_pos hprompt] at horder ⊢
      exact finished_shown h hfo horder.1 hprompt horder.2
    · rw [if_neg hprompt] at horder ⊢
      obtain ⟨hkeep, hnoise, horder⟩ := horder
      have hmore := more_to_read h hfo hn' hcut' hprompt
      by_cases hflush : f < n + chunk.length - keep m
      · rw [max_eq_right hflush.le] at horder
        have hrest := ih hmore (by omega) hn' (by omega) hcut' horder
          (sent ++ nonempty (strippedIf (f = 0)
            (window (shown o m c p) f (n + chunk.length - keep m))))
        have hlater : decide (n + chunk.length - keep m = 0) = false := decide_eq_false (by omega)
        have hall := (flush_iff (m := m) (c := c) (p := p) hflush.le (by omega)).2
          fun hzero => hnoise hzero (by omega)
        rw [hlater, flatten_append, flatten_nonempty, append_assoc,
          strippedIf.eq_def false, if_neg Bool.false_ne_true, hall] at hrest
        rwa [if_pos hflush]
      · rw [max_eq_left (by omega)] at horder
        rw [if_neg hflush]
        exact ih hmore (by omega) hn' hfo hcut' horder sent

/-- A code other than 0 tells that no chunk came between; what is sent first is only known to have
all the noise where all is sent. -/
lemma orderly_of_result
    (hlast : ∀ q, o.length < q → ¬ OccursAt m (shown o m c p) q) (rest : List Bytes)
    (hf : f ≤ n) (hn : n ≤ (shown o m c p).length)
    (hcut : rest.flatten = (shown o m c p).drop n) {code : ℤ} (hcode : code ≠ 0)
    (sent : List Bytes)
    (hrun : (plainLoop m (f = 0) sent (window (shown o m c p) f n) (rest.map .data)).result =
      .ok code)
    (hall : f = 0 →
      (plainLoop m (f = 0) sent (window (shown o m c p) f n) (rest.map .data)).sent.flatten =
        sent.flatten ++ strippedIf (f = 0) (o.drop f)) :
    f ≤ o.length ∧ rest ≠ [] ∧ Orderly o m (shown o m c p) f n rest ∧
      (plainLoop m (f = 0) sent (window (shown o m c p) f n) (rest.map .data)).sent.flatten =
        sent.flatten ++ strippedIf (f = 0) (o.drop f) := by
  induction rest generalizing f n sent with
  | nil => cases hrun
  | cons chunk rest ih =>
    have hn' := read_chunk hn hcut
    have hcut' := rest_chunk hcut
    rw [Orderly]
    rw [plainLoop_chunk hf hn hcut] at hrun hall ⊢
    by_cases hprompt : looksLikePrompt (window (shown o m c p) f (n + chunk.length)) = true
    · rw [if_pos hprompt] at hrun ⊢
      obtain ⟨hfo, hbehind, hfirst, hsent⟩ := shown_of_finished h hlast (by omega) hn' hcode hrun
      rw [if_pos hprompt]
      exact ⟨hfo, cons_ne_nil _ _, ⟨hbehind, hfirst⟩, hsent⟩
    · rw [if_neg hprompt] at hrun hall ⊢
      rw [if_neg hprompt]
      by_cases hflush : f < n + chunk.length - keep m
      · rw [if_pos hflush] at hrun hall ⊢
        have hlater : decide (n + chunk.length - keep m = 0) = false := decide_eq_false (by omega)
        obtain ⟨hfo, -, horder, hsent⟩ := ih (f := n + chunk.length - keep m) (by omega) hn' hcut'
          _ (by rwa [hlater]) (fun hzero => by omega)
        rw [hlater, flatten_append, flatten_nonempty, append_assoc,
          strippedIf.eq_def false, if_neg Bool.false_ne_true] at hsent
        rw [hsent, append_cancel_left_eq, flush_iff hflush.le hfo] at hall ⊢
        rw [max_eq_right hflush.le]
        have hnoise : f = 0 → noiseLen o ≤ n + chunk.length - keep m :=
          fun hzero => hall hzero hzero
        exact ⟨by omega, cons_ne_nil _ _, ⟨by omega, fun hzero _ => hnoise hzero, horder⟩, hnoise⟩
      · rw [if_neg hflush] at hrun hall ⊢
        obtain ⟨hfo, -, horder, hsent⟩ := ih (by omega) hn' hcut' _ hrun hall
        rw [max_eq_left (by omega)]
        exact ⟨hfo, cons_ne_nil _ _, ⟨by omega, fun hzero hlong => by omega, horder⟩, hsent⟩

end Command

/-! ### The echoed line -/

section Echo

variable {pending echo a : Bytes}

lemma drainEchoLine_of_line (hpending : lf ∉ pending) (msgs : List ChannelMsg) :
    drainEchoLine (pending ++ lf :: a) msgs = (a, msgs) := by
  have hline : ∀ b ∈ pending, decide (b ≠ lf) = true :=
    fun b hb => decide_eq_true fun h => hpending (h ▸ hb)
  have hdrop : ((pending ++ lf :: a).dropWhile (· ≠ lf)).tail = a := by
    rw [dropWhile_append_of_pos hline, dropWhile_cons_of_neg (by simp), tail_cons]
  have hmem : lf ∈ pending ++ lf :: a := by simp
  cases msgs with
  | nil | cons => rw [drainEchoLine, if_pos hmem, hdrop]

/-- The echoed line goes with the chunk that ends it. -/
lemma drainEchoLine_data {before : List Bytes} {chunk : Bytes} (hpending : lf ∉ pending)
    (hecho : lf ∉ echo) (hcut : before.flatten ++ chunk = echo ++ lf :: a)
    (hlate : before.flatten.length ≤ echo.length) (msgs : List ChannelMsg) :
    drainEchoLine pending ((before ++ [chunk]).map .data ++ msgs) = (a, msgs) := by
  induction before generalizing pending echo with
  | nil =>
    rw [flatten_nil, nil_append] at hcut
    have hboth : lf ∉ pending ++ echo := by simp [hpending, hecho]
    simp only [nil_append, map_cons, map_nil, cons_append, drainEchoLine,
      if_neg hpending, readChunk, hcut]
    rw [← append_assoc, drainEchoLine_of_line hboth]
  | cons c before ih =>
    rw [flatten_cons, length_append] at hlate
    rw [flatten_cons, append_assoc] at hcut
    obtain ⟨echo', rfl⟩ : c <+: echo := by
      have hc : c <+: echo ++ lf :: a := hcut ▸ prefix_append _ _
      exact prefix_of_prefix_length_le hc (prefix_append _ _) (by omega)
    rw [mem_append, not_or] at hecho
    have hboth : lf ∉ pending ++ c := by simp [hpending, hecho.1]
    rw [append_assoc, append_cancel_left_eq] at hcut
    rw [length_append] at hlate
    simp only [cons_append, map_cons, drainEchoLine, if_neg hpending]
    exact ih hboth hecho.2 hcut (by omega)

end Echo

section Pending

/-- Behind the last line feed there is none. -/
lemma lf_notMem_drop (b : Bytes) : lf ∉ b.drop (b.rdropWhile (· ≠ lf)).length := by
  induction b using reverseRecOn with
  | nil => simp
  | append_singleton b x ih =>
    by_cases hx : x = lf
    · rw [rdropWhile_concat_neg _ _ _ (by simpa using hx), drop_length]
      exact not_mem_nil
    · rw [rdropWhile_concat_pos _ _ _ (by simpa using hx),
        drop_append_of_le_length (List.rdropWhile_prefix _ _).length_le, mem_append, not_or]
      exact ⟨ih, by simpa using Ne.symm hx⟩

/-- A finished command leaves no complete line pending. -/
lemma lf_notMem_pending {m : Bytes} {code : ℤ} {firstOutput : Bool} {sent : List Bytes}
    {pending : Bytes} {msgs : List ChannelMsg}
    (h : (plainLoop m firstOutput sent pending msgs).result = .ok code) :
    lf ∉ (plainLoop m firstOutput sent pending msgs).pending := by
  induction msgs generalizing firstOutput sent pending with
  | nil => cases h
  | cons msg msgs ih =>
    rw [plainLoop] at h ⊢
    cases hread : readChunk msg with
    | error e =>
      rw [hread] at h
      cases h
    | ok chunk =>
      simp only [hread, promptOutputSplit] at h ⊢
      by_cases hprompt : looksLikePrompt (pending ++ chunk) = true
      · simp only [if_pos hprompt]
        exact lf_notMem_drop _
      · split_ifs at h ⊢
        · exact ih h
        · exact ih h

lemma lf_notMem_remainder {pending : Bytes} (h : lf ∉ pending) :
    lf ∉ clearPromptRemainder pending := by
  unfold clearPromptRemainder
  split_ifs
  · exact not_mem_nil
  · exact h

end Pending

section Run

variable {stale echo : Bytes} {chunks : List Bytes}

/-- The loop begins with what the echoed line's chunk has brought behind it. -/
lemma runCommandPlain_eq (hstale : lf ∉ clearPromptRemainder stale) (hecho : lf ∉ echo)
    (hcut : chunks.flatten = echo ++ lf :: shown o m c p) {before behind : List Bytes}
    {chunk : Bytes} (hchunks : chunks = before ++ chunk :: behind)
    (hbefore : before.flatten.length ≤ echo.length)
    (hchunk : echo.length < (before.flatten ++ chunk).length) :
    ∃ n, (before.flatten ++ chunk).length - (echo.length + 1) = n ∧ n ≤ (shown o m c p).length ∧
      behind.flatten = (shown o m c p).drop n ∧
      runCommandPlain m stale (chunks.map .data) =
        plainLoop m true [] (window (shown o m c p) 0 n) (behind.map .data) := by
  have hall : before.flatten ++ chunk ++ behind.flatten = echo ++ lf :: shown o m c p := by
    rw [← hcut, hchunks]
    simp
  obtain ⟨a, ha⟩ : echo ++ [lf] <+: before.flatten ++ chunk := by
    have hecho' : echo ++ [lf] <+: echo ++ lf :: shown o m c p := ⟨shown o m c p, by simp⟩
    have hread : before.flatten ++ chunk <+: echo ++ lf :: shown o m c p :=
      hall ▸ prefix_append _ _
    refine prefix_of_prefix_length_le hecho' hread ?_
    rw [length_append]
    exact hchunk
  have hline : before.flatten ++ chunk = echo ++ lf :: a := by
    rw [← ha]
    simp
  have hshown : a ++ behind.flatten = shown o m c p := by
    rw [hline, append_assoc, append_cancel_left_eq] at hall
    exact (cons_inj_right lf).1 hall
  have hwindow : window (shown o m c p) 0 a.length = a := by
    rw [window, ← hshown, drop_zero, Nat.sub_zero, take_left]
  refine ⟨a.length, ?_, ?_, ?_, ?_⟩
  · rw [hline, length_append, length_cons]
    omega
  · rw [← hshown, length_append]
    omega
  · rw [← hshown, drop_left]
  · have hmsgs : chunks.map ChannelMsg.data =
        (before ++ [chunk]).map .data ++ behind.map .data := by
      rw [hchunks]
      simp
    rw [runCommandPlain, hmsgs, drainEchoLine_data hstale hecho hline hbefore, hwindow]

/-- **A command gives its code and its output when its chunks come orderly**, and a command that
fails gives them only then. No complete line is pending when it starts, and none when it has
ended. -/
theorem runCommandPlain_gives (h : Answers o m c p)
    (hstale : lf ∉ clearPromptRemainder stale) (hecho : lf ∉ echo)
    (hcut : chunks.flatten = echo ++ lf :: shown o m c p) :
    (OrderlyBehind echo o m (shown o m c p) chunks →
      (runCommandPlain m stale (chunks.map .data)).Gives c (stripLeadingShellNoise o) ∧
      lf ∉ clearPromptRemainder (runCommandPlain m stale (chunks.map .data)).pending) ∧
    (c ≠ 0 → (∀ q, o.length < q → ¬ OccursAt m (shown o m c p) q) →
      (runCommandPlain m stale (chunks.map .data)).Gives c (stripLeadingShellNoise o) →
      OrderlyBehind echo o m (shown o m c p) chunks) := by
  constructor
  · rintro ⟨before, chunk, behind, hchunks, hbefore, hchunk, hne, horder⟩
    obtain ⟨n, hread, hn, hrest, hloop⟩ :=
      runCommandPlain_eq hstale hecho hcut hchunks hbefore hchunk
    rw [hread] at horder
    rw [hloop]
    have hgives := plainLoop_gives h behind hne (Nat.zero_le n) hn (Nat.zero_le _) hrest horder []
    exact ⟨hgives, lf_notMem_remainder (lf_notMem_pending hgives.1)⟩
  · intro hc hlast hgives
    have hlen : echo.length + 1 ≤ chunks.flatten.length := by
      rw [hcut]
      simp
    obtain ⟨before, chunk, behind, hchunks, hbefore, hchunk⟩ :=
      exists_piece (Nat.succ_pos echo.length) hlen
    obtain ⟨n, hread, hn, hrest, hloop⟩ :=
      runCommandPlain_eq hstale hecho hcut hchunks (by omega) hchunk
    rw [hloop] at hgives
    have hcode : (c : ℤ) ≠ 0 := Int.natCast_ne_zero.2 hc
    obtain ⟨-, hne, horder, -⟩ := orderly_of_result h hlast behind (Nat.zero_le n) hn hrest hcode []
      hgives.1 fun _ => hgives.2
    exact ⟨before, chunk, behind, hchunks, by omega, hchunk, hne, hread ▸ horder⟩

end Run

/-! ### Chunks that come orderly, and chunks that do not -/

def exitMarker : Bytes := ascii "__M__"

/-- A line end, and an output of which some is sent before its end has come. -/
def letters : Bytes := cr :: lf :: List.replicate 40 97

def echoedLine : Bytes := ascii "ls\r"

def tornLine : List Bytes :=
  [ascii "l", ascii "s\r\n", letters.take 40, ascii "aa__M",
    ascii "__:3\r\n", ascii "# "]

theorem runCommandPlain_gives_tornLine :
    (runCommandPlain exitMarker (ascii "$ ") (tornLine.map .data)).Gives 3
      (List.replicate 40 97) := by
  have hanswers : Answers letters exitMarker 3 (ascii "# ") :=
    { marker_ne := by decide
      word := all_eq_true.1 (by decide)
      fresh := by
        intro q hocc
        have hmem : (95 : UInt8) ∈ letters.drop q := hocc.subset (by decide)
        exact absurd (mem_of_mem_drop hmem) (by decide)
      code_lt := by decide
      prompt_end := .inr ⟨[], rfl⟩ }
  have hstrip : stripLeadingShellNoise letters = replicate 40 97 := strip_of_none (by decide)
  have horder : Orderly letters exitMarker (shown letters exitMarker 3 (ascii "# ")) 0 0
      (tornLine.drop 2) := by
    decide +kernel
  have hcut : tornLine.flatten = echoedLine ++ lf :: shown letters exitMarker 3
      (ascii "# ") := by
    decide +kernel
  rw [← hstrip]
  exact ((runCommandPlain_gives hanswers (by decide +kernel) (by decide) hcut).1
    ⟨[ascii "l"], ascii "s\r\n", tornLine.drop 2, rfl, by decide, by decide,
      by decide, horder⟩).1

/-- All comes with the end of the echoed line, or what is shown stops at what may be a prompt. -/
theorem runCommandPlain_misses_answer :
    (runCommandPlain exitMarker [] [.data (echoedLine ++ lf ::
      shown (ascii "a\r\n") exitMarker 3 (ascii "$ "))]).result = .error .waiting ∧
    (runCommandPlain exitMarker [] [.data (echoedLine ++ [lf]), .data (ascii "a\r\n5$ "),
      .data (shown (ascii "each\r\n") exitMarker 3 (ascii "$ "))]).result = .ok 0 := by
  decide +kernel

end CrossHostOps.CookedCommand
