import CrossHostOps.SplitSession

/-!
How far `drive_exec` reads the events of a session: up to the first that is terminal.
-/

namespace CrossHostOps.DriveExec

open Text SplitSession

/-- Behind this event nothing is read of a stream. -/
def isTerminal : SessionEvent → Bool
  | .stdout _ | .stderr _ => false
  | .exitStatus _ | .exitSignal _ | .eof => true

/-- The events up to the first terminal one. -/
def upTo : List SessionEvent → List SessionEvent
  | [] => []
  | e :: es => if isTerminal e then [e] else e :: upTo es

/-- A stream has come to a terminal event. -/
def Terminated (es : List SessionEvent) : Prop := ∃ e ∈ es, isTerminal e = true
  deriving Decidable

section upTo

variable {es fs : List SessionEvent}

lemma not_terminated : ¬ Terminated es ↔ ∀ e ∈ es, isTerminal e = false := by
  simp [Terminated]

lemma not_terminated_cons {e : SessionEvent} :
    ¬ Terminated (e :: es) ↔ isTerminal e = false ∧ ¬ Terminated es := by
  simp [Terminated]

lemma Terminated.append (h : Terminated es) (fs : List SessionEvent) : Terminated (es ++ fs) := by
  obtain ⟨e, he, hterminal⟩ := h
  exact ⟨e, List.mem_append_left fs he, hterminal⟩

lemma Terminated.of_prefix (h : Terminated es) (hpre : es <+: fs) : Terminated fs := by
  obtain ⟨rest, rfl⟩ := hpre
  exact h.append rest

lemma upTo_append_of_terminated (h : Terminated es) (fs : List SessionEvent) :
    upTo (es ++ fs) = upTo es := by
  induction es with
  | nil => simp [Terminated] at h
  | cons e es ih =>
    cases he : isTerminal e with
    | true => simp [upTo, he]
    | false =>
      have hes : Terminated es := by simpa [Terminated, he] using h
      simp [upTo, ih hes]

lemma upTo_append_of_not (h : ∀ e ∈ es, isTerminal e = false) (fs : List SessionEvent) :
    upTo (es ++ fs) = es ++ upTo fs := by
  induction es with
  | nil => rfl
  | cons e es ih =>
    simp [upTo, h e List.mem_cons_self, ih fun e' he' => h e' (List.mem_cons_of_mem e he')]

lemma upTo_of_not (h : ∀ e ∈ es, isTerminal e = false) : upTo es = es := by
  simpa [upTo] using upTo_append_of_not h []

lemma terminated_upTo : Terminated (upTo es) ↔ Terminated es := by
  induction es with
  | nil => rfl
  | cons e es ih =>
    cases he : isTerminal e with
    | true => simp [upTo, Terminated, he]
    | false => simpa [upTo, Terminated, he] using ih

lemma upTo_mono (h : es <+: fs) : upTo es <+: upTo fs := by
  obtain ⟨rest, rfl⟩ := h
  by_cases hes : Terminated es
  · rw [upTo_append_of_terminated hes]
  · have hnot := not_terminated.1 hes
    rw [upTo_append_of_not hnot, upTo_of_not hnot]
    exact List.prefix_append es _

lemma upTo_eq_of_le (hes : Terminated es) (h : upTo es <+: upTo fs) : upTo es = upTo fs := by
  induction es generalizing fs with
  | nil => simp [Terminated] at hes
  | cons e es ih =>
    cases fs with
    | nil => cases he : isTerminal e <;> simp [upTo, he] at h
    | cons f fs =>
      obtain rfl : e = f := by
        cases he : isTerminal e <;> cases hf : isTerminal f <;> simp [upTo, he, hf] at h
        all_goals first | exact h | exact h.1
      cases he : isTerminal e with
      | true => simp [upTo, he]
      | false =>
        have htail : upTo es <+: upTo fs := by simpa [upTo, he] using h
        have hes' : Terminated es := by simpa [Terminated, he] using hes
        simp [upTo, ih hes' htail]

/-- `drive_exec` reads no further than the first terminal event. -/
lemma driveExec_upTo (es : List SessionEvent) : driveExec (upTo es) = driveExec es := by
  induction es with
  | nil => rfl
  | cons e es ih => cases e <;> simp [upTo, isTerminal, driveExec, ih]

end upTo

/-! ### What is forwarded -/

inductive Stream
  | stdout
  | stderr
  deriving DecidableEq

def Stream.event : Stream → Bytes → SessionEvent
  | .stdout => .stdout
  | .stderr => .stderr

/-- The bytes of one stream among the events that are forwarded. -/
def forwarded (stream : Stream) : List ServerEvent → Bytes
  | [] => []
  | .stdout data :: events =>
    (if stream = .stdout then data else []) ++ forwarded stream events
  | .stderr data :: events =>
    (if stream = .stderr then data else []) ++ forwarded stream events

/-- The bytes of one stream among the events of a session. -/
def output (stream : Stream) : List SessionEvent → Bytes
  | [] => []
  | .stdout data :: events => (if stream = .stdout then data else []) ++ output stream events
  | .stderr data :: events => (if stream = .stderr then data else []) ++ output stream events
  | _ :: events => output stream events

section forwarded

variable {stream : Stream} {es : List SessionEvent}

lemma forwarded_append (events events' : List ServerEvent) :
    forwarded stream (events ++ events') = forwarded stream events ++ forwarded stream events' := by
  induction events with
  | nil => rfl
  | cons e events ih => cases e <;> simp [forwarded, ih]

lemma output_append (es fs : List SessionEvent) :
    output stream (es ++ fs) = output stream es ++ output stream fs := by
  induction es with
  | nil => rfl
  | cons e es ih => cases e <;> simp [output, ih]

lemma driveExec_append (h : ¬ Terminated es) (fs : List SessionEvent) :
    driveExec (es ++ fs) = ((driveExec es).1 ++ (driveExec fs).1, (driveExec fs).2) := by
  induction es with
  | nil => rfl
  | cons e es ih =>
    obtain ⟨he, hes⟩ := not_terminated_cons.1 h
    cases e with
    | stdout | stderr => simp [driveExec, ih hes]
    | _ => cases he

lemma forwarded_driveExec (h : ¬ Terminated es) :
    forwarded stream (driveExec es).1 = output stream es := by
  induction es with
  | nil => rfl
  | cons e es ih =>
    obtain ⟨he, hes⟩ := not_terminated_cons.1 h
    cases e with
    | stdout | stderr => simp [driveExec, forwarded, output, ih hes]
    | _ => cases he

/-- Behind an exit status nothing is forwarded. -/
lemma driveExec_status (h : ¬ Terminated es) (code : ℤ) (rest : List SessionEvent) :
    driveExec (es ++ .exitStatus code :: rest) = ((driveExec es).1, code) := by
  rw [driveExec_append h]
  simp [driveExec]

end forwarded

end CrossHostOps.DriveExec
