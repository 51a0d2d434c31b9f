import CrossHostOps.DriveExec

/-!
`TunneledSession` of `daemon/session/tunnel.rs` over the `open_session` handler of `daemon/mod.rs`:
the events of a session become responses of a stream, and events again at its other end. Hops are
nested to any depth, and all their tasks interleave.
-/

namespace CrossHostOps.Tunnel

open Text Runs SplitSession DriveExec List

inductive SessionResponse
  | started
  | data (data : Bytes)
  | stderr (data : Bytes)
  | exitStatus (code : ℤ)
  | exitSignal (signal : Str)
  | eof
  | error (message : Str)

/-- What the downlink of `open_session` sends for an event. It stops behind a terminal one. -/
def downlink : SessionEvent → List SessionResponse
  | .stdout data => [.data data]
  | .stderr data => [.stderr data]
  | .exitStatus code => [.exitStatus code, .eof]
  | .exitSignal signal => [.exitSignal signal]
  | .eof => [.eof]

/-- What the downlink of `driver` sends for a response. It goes on until the stream ends. -/
def driver : SessionResponse → List SessionEvent
  | .started => []
  | .data data => [.stdout data]
  | .stderr data => [.stderr data]
  | .exitStatus code => [.exitStatus code]
  | .exitSignal signal => [.exitSignal signal, .exitStatus 255]
  | .eof => [.eof]
  | .error message => [.stderr (ascii (message ++ ['\n'])), .exitStatus 255]

/-- One hop: how many events the remote end has read, the responses it has sent, how many of them
have been received, and the events sent for these. -/
structure Hop where
  read : ℕ
  downlink : Bool
  wire : List SessionResponse
  received : ℕ
  driver : Bool
  sent : List SessionEvent

/-- An inner session, behind any number of hops. -/
inductive Net
  | inner (sent rest : List SessionEvent)
  | hop (below : Net) (h : Hop)

inductive Move
  /-- The inner session sends its next event. -/
  | produce
  /-- A task of a hop further down. -/
  | deeper (m : Move)
  | downlink
  | driver

def Hop.start : Hop := ⟨0, true, [.started], 0, true, []⟩

/-- The remote end reads an event, or finds the stream ended. -/
def Hop.stepDownlink (h : Hop) (below : List SessionEvent) (ended : Bool) : Option Hop :=
  if h.downlink then
    match below[h.read]? with
    | some e => some { h with
        read := h.read + 1
        wire := h.wire ++ Tunnel.downlink e
        downlink := !isTerminal e }
    | none => if ended then some { h with downlink := false } else none
  else none

/-- The near end receives a response, or finds that the remote end has closed the stream. -/
def Hop.stepDriver (h : Hop) : Option Hop :=
  if h.driver then
    match h.wire[h.received]? with
    | some r => some { h with received := h.received + 1, sent := h.sent ++ Tunnel.driver r }
    | none =>
      if h.downlink then none else some { h with driver := false, sent := h.sent ++ [.eof] }
  else none

namespace Hop

variable {h h' : Hop} {below : List SessionEvent} {ended : Bool}

lemma stepDownlink_eq_some : h.stepDownlink below ended = some h' ↔ h.downlink = true ∧
    ((∃ e, below[h.read]? = some e ∧ h' = { h with
        read := h.read + 1
        wire := h.wire ++ Tunnel.downlink e
        downlink := !isTerminal e }) ∨
      below[h.read]? = none ∧ ended = true ∧ h' = { h with downlink := false }) := by
  unfold stepDownlink
  cases h.downlink <;> cases below[h.read]? <;> cases ended <;> simp [eq_comm]

lemma stepDriver_eq_some : h.stepDriver = some h' ↔ h.driver = true ∧
    ((∃ r, h.wire[h.received]? = some r ∧ h' = { h with
        received := h.received + 1
        sent := h.sent ++ Tunnel.driver r }) ∨
      h.wire[h.received]? = none ∧ h.downlink = false ∧
        h' = { h with driver := false, sent := h.sent ++ [.eof] }) := by
  unfold stepDriver
  cases h.driver <;> cases h.wire[h.received]? <;> cases h.downlink <;> simp [eq_comm]

end Hop

namespace Net

def start (events : List SessionEvent) : ℕ → Net
  | 0 => .inner [] events
  | k + 1 => .hop (start events k) .start

def sent : Net → List SessionEvent
  | .inner sent _ => sent
  | .hop _ h => h.sent

@[simp] lemma sent_hop (below : Net) (h : Hop) : (hop below h).sent = h.sent := rfl

def ended : Net → Bool
  | .inner _ rest => rest.isEmpty
  | .hop _ h => !h.driver

def step : Net → Move → Option Net
  | .inner sent (e :: rest), .produce => some (.inner (sent ++ [e]) rest)
  | .hop below h, .deeper m => (below.step m).map (.hop · h)
  | .hop below h, .downlink => (h.stepDownlink below.sent below.ended).map (.hop below)
  | .hop below h, .driver => h.stepDriver.map (.hop below)
  | _, _ => none

end Net

/-! ### What a hop makes of a stream -/

/-- The events at the near end for one at the remote end. -/
def relay (e : SessionEvent) : List SessionEvent := (downlink e).flatMap driver

lemma upTo_relay (es : List SessionEvent) : upTo (es.flatMap relay) = upTo es := by
  induction es with
  | nil => rfl
  | cons e es ih => cases e <;> simp [relay, downlink, driver, upTo, isTerminal, ih]

lemma terminated_relay {es : List SessionEvent} :
    Terminated (es.flatMap relay) ↔ Terminated es := by
  rw [← terminated_upTo, upTo_relay, terminated_upTo]

/-- How a hop stands to the events of the session behind it. -/
structure Hop.Follows (below : List SessionEvent) (h : Hop) : Prop where
  read : h.read ≤ below.length
  wire : h.wire = .started :: (below.take h.read).flatMap Tunnel.downlink
  stopped : h.downlink = false ↔ Terminated (below.take h.read)
  received : h.received ≤ h.wire.length
  sent : h.driver = true → h.sent = (h.wire.take h.received).flatMap Tunnel.driver
  closed : h.driver = false →
    h.downlink = false ∧ h.sent = h.wire.flatMap Tunnel.driver ++ [.eof]

namespace Hop.Follows

variable {below below' : List SessionEvent} {h h' : Hop} (hf : h.Follows below)

include hf

lemma flatMap_wire : h.wire.flatMap Tunnel.driver = (below.take h.read).flatMap relay := by
  rw [hf.wire, flatMap_cons, flatMap_assoc]
  rfl

lemma grow (hpre : below <+: below') : h.Follows below' := by
  obtain ⟨rest, rfl⟩ := hpre
  have htake : (below ++ rest).take h.read = below.take h.read :=
    take_append_of_le_length hf.read
  have hread : h.read ≤ (below ++ rest).length := hf.read.trans (by simp)
  refine ⟨hread, ?_, ?_, hf.received, hf.sent, hf.closed⟩
  · rw [htake]
    exact hf.wire
  · rw [htake]
    exact hf.stopped

/-- As long as the remote end reads, the near end receives. -/
lemma driver_of_downlink (hdownlink : h.downlink = true) : h.driver = true := by
  cases hdriver : h.driver with
  | true => rfl
  | false => exact absurd (hf.closed hdriver).1 (by simp [hdownlink])

lemma not_terminated (hdownlink : h.downlink = true) : ¬ Terminated (below.take h.read) := by
  rw [← hf.stopped]
  simp [hdownlink]

lemma stepDownlink {ended : Bool} (hended : ended = true → Terminated below)
    (hstep : h.stepDownlink below ended = some h') : h'.Follows below := by
  obtain ⟨hdownlink, hcases⟩ := stepDownlink_eq_some.1 hstep
  have hnot := hf.not_terminated hdownlink
  have hdriver := hf.driver_of_downlink hdownlink
  rcases hcases with ⟨e, hnext, rfl⟩ | ⟨hnext, hend, -⟩
  · obtain ⟨hlt, rfl⟩ := List.getElem?_eq_some_iff.1 hnext
    have htake : below.take (h.read + 1) = below.take h.read ++ [below[h.read]] :=
      List.take_succ_eq_append_getElem hlt
    have hlast : Terminated (below.take h.read ++ [below[h.read]]) ↔
        isTerminal below[h.read] = true := by
      simp only [Terminated, List.mem_append, or_and_right, exists_or, List.mem_singleton,
        exists_eq_left]
      exact or_iff_right hnot
    refine ⟨hlt, ?_, ?_, ?_, fun _ => ?_, fun hclosed => ?_⟩
    · simp only [htake, List.flatMap_append, List.flatMap_singleton, hf.wire, List.cons_append]
    · rw [htake, hlast]
      simp
    · exact hf.received.trans (by simp)
    · simp only [List.take_append_of_le_length hf.received]
      exact hf.sent hdriver
    · rw [hdriver] at hclosed
      cases hclosed
  · -- the stream cannot have ended, nothing terminal has been read of it
    have hall : below.take h.read = below :=
      List.take_of_length_le (List.getElem?_eq_none_iff.1 hnext)
    rw [hall] at hnot
    exact absurd (hended hend) hnot

lemma stepDriver (hstep : h.stepDriver = some h') : h'.Follows below := by
  obtain ⟨hdriver, ⟨r, hnext, rfl⟩ | ⟨hnext, hdownlink, rfl⟩⟩ := stepDriver_eq_some.1 hstep
  · obtain ⟨hlt, rfl⟩ := List.getElem?_eq_some_iff.1 hnext
    refine ⟨hf.read, hf.wire, hf.stopped, hlt, fun _ => ?_, fun hclosed => ?_⟩
    · simp only [hf.sent hdriver, List.take_succ_eq_append_getElem hlt, List.flatMap_append,
        List.flatMap_singleton]
    · rw [hdriver] at hclosed
      cases hclosed
  · have hall : h.wire.take h.received = h.wire :=
      List.take_of_length_le (List.getElem?_eq_none_iff.1 hnext)
    refine ⟨hf.read, hf.wire, hf.stopped, hf.received, nofun, fun _ => ⟨hdownlink, ?_⟩⟩
    simp [hf.sent hdriver, hall]

lemma terminated_wire (hdownlink : h.downlink = false) :
    Terminated (h.wire.flatMap Tunnel.driver) := by
  rw [hf.flatMap_wire, terminated_relay]
  exact hf.stopped.1 hdownlink

/-- What has been sent is, up to a terminal event, what the session behind has sent. -/
lemma upTo_sent : upTo h.sent <+: upTo below := by
  have hread : upTo (below.take h.read) <+: upTo below := upTo_mono (List.take_prefix _ _)
  have hall : upTo (h.wire.flatMap Tunnel.driver) = upTo (below.take h.read) := by
    rw [hf.flatMap_wire, upTo_relay]
  cases hdriver : h.driver with
  | true =>
    have hsent : h.sent <+: h.wire.flatMap Tunnel.driver := by
      rw [hf.sent hdriver]
      conv_rhs => rw [← take_append_drop h.received h.wire, flatMap_append]
      exact prefix_append _ _
    exact (hall ▸ upTo_mono hsent).trans hread
  | false =>
    obtain ⟨hdownlink, hsent⟩ := hf.closed hdriver
    rw [hsent, upTo_append_of_terminated (hf.terminated_wire hdownlink), hall]
    exact hread

lemma terminated_sent (hdownlink : h.downlink = false)
    (hreceived : h.driver = false ∨ h.received = h.wire.length) : Terminated h.sent := by
  have hterminated := hf.terminated_wire hdownlink
  cases hdriver : h.driver with
  | true =>
    have hall := hreceived.resolve_left (by simp [hdriver])
    rw [hf.sent hdriver, hall, take_length]
    exact hterminated
  | false =>
    rw [(hf.closed hdriver).2]
    exact hterminated.append _

end Hop.Follows

/-! ### Hops behind hops -/

namespace Net

variable {events : List SessionEvent} {n n' : Net} {m : Move}

/-- Every hop follows the one behind it, down to the inner session. -/
def Follows (events : List SessionEvent) : Net → Prop
  | .inner sent rest => sent ++ rest = events
  | .hop below h => below.Follows events ∧ h.Follows below.sent

lemma follows_start (events : List SessionEvent) : ∀ k, (start events k).Follows events
  | 0 => rfl
  | k + 1 => ⟨follows_start events k, Nat.zero_le _, rfl, by simp [Terminated, Hop.start],
      Nat.zero_le _, fun _ => rfl, nofun⟩

lemma Follows.upTo_sent (h : n.Follows events) : upTo n.sent <+: upTo events := by
  induction n with
  | inner sent rest => exact upTo_mono ⟨rest, h⟩
  | hop below hop ih => exact h.2.upTo_sent.trans (ih h.1)

lemma Follows.terminated_of_ended (h : n.Follows events) (hevents : Terminated events)
    (hended : n.ended = true) : Terminated n.sent := by
  cases n with
  | inner sent rest =>
    have hrest : rest = [] := isEmpty_iff.1 hended
    rw [Follows, hrest, append_nil] at h
    exact h ▸ hevents
  | hop below hop =>
    have hdriver : hop.driver = false := by simpa [ended] using hended
    exact h.2.terminated_sent (h.2.closed hdriver).1 (.inl hdriver)

lemma sent_grows (hstep : n.step m = some n') : n.sent <+: n'.sent := by
  revert hstep
  fun_cases Net.step n m <;> intro hstep
  · cases hstep
    exact prefix_append _ _
  · obtain ⟨below', -, rfl⟩ := Option.map_eq_some_iff.1 hstep
    exact prefix_rfl
  · obtain ⟨h', hh', rfl⟩ := Option.map_eq_some_iff.1 hstep
    obtain ⟨-, ⟨e, -, rfl⟩ | ⟨-, -, rfl⟩⟩ := Hop.stepDownlink_eq_some.1 hh' <;>
      exact prefix_rfl
  · obtain ⟨h', hh', rfl⟩ := Option.map_eq_some_iff.1 hstep
    obtain ⟨-, ⟨r, -, rfl⟩ | ⟨-, -, rfl⟩⟩ := Hop.stepDriver_eq_some.1 hh' <;>
      exact prefix_append _ _
  · cases hstep

lemma Follows.step (hevents : Terminated events) (h : n.Follows events)
    (hstep : n.step m = some n') : n'.Follows events := by
  fun_induction Net.step n m generalizing n' with
  | case1 =>
    cases hstep
    simpa [Follows] using h
  | case2 below hop m ih =>
    obtain ⟨below', hbelow, rfl⟩ := Option.map_eq_some_iff.1 hstep
    exact ⟨ih h.1 hbelow, h.2.grow (sent_grows hbelow)⟩
  | case3 =>
    obtain ⟨hop', hhop, rfl⟩ := Option.map_eq_some_iff.1 hstep
    exact ⟨h.1, h.2.stepDownlink (h.1.terminated_of_ended hevents) hhop⟩
  | case4 =>
    obtain ⟨hop', hhop, rfl⟩ := Option.map_eq_some_iff.1 hstep
    exact ⟨h.1, h.2.stepDriver hhop⟩
  | case5 => cases hstep

/-- Where nothing can go on, the terminal event is there. -/
lemma Follows.terminated_of_stuck (hevents : Terminated events) (h : n.Follows events)
    (hstuck : ∀ m, n.step m = none) : Terminated n.sent := by
  induction n with
  | inner sent rest =>
    cases rest with
    | nil =>
      rw [Follows, append_nil] at h
      exact h ▸ hevents
    | cons e rest => exact absurd (hstuck .produce) nofun
  | hop below hop ih =>
    have hbelow : Terminated below.sent :=
      ih h.1 fun m => Option.map_eq_none_iff.1 (hstuck (.deeper m))
    have hdownlink : hop.downlink = false := by
      by_contra hrunning
      rw [Bool.not_eq_false] at hrunning
      have hnot := h.2.not_terminated hrunning
      rcases hnext : below.sent[hop.read]? with _ | e
      · rw [take_of_length_le (getElem?_eq_none_iff.1 hnext)] at hnot
        exact hnot hbelow
      · have hnone := Option.map_eq_none_iff.1 (hstuck .downlink)
        simp [Hop.stepDownlink, hrunning, hnext] at hnone
    refine h.2.terminated_sent hdownlink (.inl ?_)
    have hnone := Option.map_eq_none_iff.1 (hstuck .driver)
    cases hdriver : hop.driver with
    | false => rfl
    | true =>
      cases hnext : hop.wire[hop.received]? <;>
        simp [Hop.stepDriver, hdriver, hnext, hdownlink] at hnone

/-- A bound on the steps that are left, where each event that is sent takes `w` steps further up. -/
def left : Net → ℕ → ℕ
  | .inner _ rest, w => rest.length * (w + 1)
  | .hop below h, w =>
    below.left (4 * w + 3) + (below.sent.length - h.read) * (4 * w + 3) +
      (if h.downlink then 1 else 0) + (h.wire.length - h.received) * (2 * w + 1) +
      if h.driver then w + 1 else 0

lemma left_hop (below : Net) (h : Hop) (w : ℕ) : (hop below h).left w =
    below.left (4 * w + 3) + (below.sent.length - h.read) * (4 * w + 3) +
      (if h.downlink then 1 else 0) + (h.wire.length - h.received) * (2 * w + 1) +
      if h.driver then w + 1 else 0 := rfl

lemma left_step {w : ℕ} (hstep : n.step m = some n') :
    n'.left w + (n'.sent.length - n.sent.length) * w + 1 ≤ n.left w := by
  fun_induction Net.step n m generalizing n' w with
  | case1 =>
    cases hstep
    simp only [left, Net.sent, List.length_cons, List.length_append, List.length_nil,
      Nat.add_sub_cancel_left, Nat.succ_mul]
    omega
  | case2 below h m ih =>
    obtain ⟨below', hbelow, rfl⟩ := Option.map_eq_some_iff.1 hstep
    have hle := ih (w := 4 * w + 3) hbelow
    have hsplit : below'.sent.length - h.read ≤
        (below'.sent.length - below.sent.length) + (below.sent.length - h.read) := by omega
    have hmul := Nat.mul_le_mul_right (4 * w + 3) hsplit
    rw [Nat.add_mul] at hmul
    simp only [left_hop, sent_hop, Nat.sub_self]
    omega
  | case3 below h =>
    obtain ⟨h', hh', rfl⟩ := Option.map_eq_some_iff.1 hstep
    obtain ⟨hdownlink, ⟨e, hnext, rfl⟩ | ⟨-, -, rfl⟩⟩ := Hop.stepDownlink_eq_some.1 hh'
    · -- an event makes two responses at most
      obtain ⟨hlt, -⟩ := List.getElem?_eq_some_iff.1 hnext
      have hread : below.sent.length - h.read = (below.sent.length - (h.read + 1)) + 1 := by omega
      have hwire : (h.wire ++ Tunnel.downlink e).length - h.received ≤
          (h.wire.length - h.received) + 2 := by
        have hlen : (Tunnel.downlink e).length ≤ 2 := by cases e <;> simp [Tunnel.downlink]
        rw [List.length_append]
        omega
      have hmul := Nat.mul_le_mul_right (2 * w + 1) hwire
      rw [Nat.add_mul] at hmul
      have hflag : (if (!isTerminal e) = true then 1 else 0) ≤ 1 := by split <;> omega
      simp only [left_hop, sent_hop, Nat.sub_self, hdownlink, if_true]
      rw [hread, Nat.add_mul]
      omega
    · simp only [left_hop, sent_hop, Nat.sub_self, hdownlink, if_true, Bool.false_eq_true, if_false]
      omega
  | case4 below h =>
    obtain ⟨h', hh', rfl⟩ := Option.map_eq_some_iff.1 hstep
    obtain ⟨hdriver, ⟨r, hnext, rfl⟩ | ⟨-, -, rfl⟩⟩ := Hop.stepDriver_eq_some.1 hh'
    · -- a response makes two events at most
      obtain ⟨hlt, -⟩ := List.getElem?_eq_some_iff.1 hnext
      have hwire : h.wire.length - h.received = (h.wire.length - (h.received + 1)) + 1 := by omega
      have hsent : (h.sent ++ Tunnel.driver r).length - h.sent.length ≤ 2 := by
        cases r <;> simp [Tunnel.driver]
      have hmul := Nat.mul_le_mul_right w hsent
      simp only [left_hop, sent_hop]
      rw [hwire, Nat.add_mul (h.wire.length - (h.received + 1))]
      omega
    · have hsent : (h.sent ++ [SessionEvent.eof]).length - h.sent.length = 1 := by simp
      simp only [left_hop, sent_hop, hdriver, if_true, Bool.false_eq_true, if_false, hsent]
      omega
  | case5 => cases hstep

/-- Every step of a run takes one of the steps that were left. -/
lemma length_add_left_le {moves : List Move} (hrun : run step n moves = some n') :
    moves.length + n'.left 0 ≤ n.left 0 := by
  induction moves generalizing n with
  | nil =>
    cases hrun
    simp
  | cons m moves ih =>
    obtain ⟨n₁, hstep, hrest⟩ := Option.bind_eq_some_iff.1 hrun
    have hle := ih hrest
    have hfirst := left_step (w := 0) hstep
    simp only [length_cons]
    omega

lemma follows_of_run {k : ℕ} {moves : List Move} (hevents : Terminated events)
    (hrun : run step (start events k) moves = some n) : n.Follows events :=
  run_keeps (Follows.step hevents) (follows_start events k) hrun

/-- What `drive_exec` has read up to a terminal event is what the inner session has sent. -/
lemma Follows.driveExec_eq {seen : List SessionEvent} (h : n.Follows events)
    (hpre : seen <+: n.sent) (hseen : Terminated seen) : driveExec seen = driveExec events := by
  have hupTo : upTo seen <+: upTo events := (upTo_mono hpre).trans h.upTo_sent
  rw [← driveExec_upTo seen, ← driveExec_upTo events, upTo_eq_of_le hseen hupTo]

/-- **Hops are transparent.** Over any number of them, and however their tasks interleave, a
`drive_exec` that has read a terminal event forwards and returns what it does over the inner
session; no run goes on for ever, and a run that cannot go on has brought the terminal event. -/
theorem tunnel_transparent {k : ℕ} {moves : List Move} (hevents : Terminated events)
    (hrun : run step (start events k) moves = some n) :
    (∀ seen, seen <+: n.sent → Terminated seen → driveExec seen = driveExec events) ∧
      moves.length ≤ (start events k).left 0 ∧
      ((∀ m, n.step m = none) → Terminated n.sent) := by
  have hfollows := follows_of_run hevents hrun
  refine ⟨fun seen hpre hseen => hfollows.driveExec_eq hpre hseen, ?_,
    hfollows.terminated_of_stuck hevents⟩
  have hle := length_add_left_le hrun
  omega

/-- A signal ends the command; what follows it is not read. -/
def killed : List SessionEvent :=
  [.stdout (ascii "a"), .stderr (ascii "b"), .exitSignal "TERM", .eof]

def twoHops : List Move :=
  [.deeper (.deeper .produce), .deeper .downlink, .deeper .driver, .deeper (.deeper .produce),
    .deeper .driver, .downlink, .deeper .downlink, .driver, .deeper .driver,
    .deeper (.deeper .produce), .deeper .downlink, .downlink, .deeper .driver, .downlink, .driver,
    .driver, .driver]

theorem tunnel_transparent_killed :
    ∃ n, run step (start killed 2) twoHops = some n ∧ Terminated n.sent ∧
      driveExec n.sent = driveExec killed := by
  have hsome : (run step (start killed 2) twoHops).map (fun n => decide (Terminated n.sent)) =
      some true := by decide +kernel
  obtain ⟨n, hrun, hn⟩ := Option.map_eq_some_iff.1 hsome
  have hterminated := of_decide_eq_true hn
  have hkilled : Terminated killed := by decide +kernel
  exact ⟨n, hrun, hterminated, (tunnel_transparent hkilled hrun).1 n.sent prefix_rfl hterminated⟩

end Net

end CrossHostOps.Tunnel
