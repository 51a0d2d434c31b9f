import Mathlib.Data.List.Basic
import CrossHostOps.DriveExec

/-!
`DirectSshSession` of `daemon/session/direct.rs`: the commands that use one pooled handle one after
the other, the messages of their channels, and the cell with an exit status that they share.
-/

namespace CrossHostOps.DirectExec

open Text Runs SplitSession DriveExec List

/-- The messages of a channel. A signal has the text that `{:?}` gives for it. -/
inductive ChannelMsg
  | data (bytes : Bytes)
  | extendedData (bytes : Bytes)
  | exitStatus (code : UInt32)
  | exitSignal (signalName : Str)
  | eof
  | close
  | other
  deriving DecidableEq

/-- The sentinel of the cell. -/
def noExit : UInt32 := 4294967295

def asI32 (code : UInt32) : ℤ := code.toInt32.toInt

/-- The best information about the exit that there is without a message about it. -/
def fallback (cell : UInt32) : SessionEvent :=
  if cell ≠ noExit then .exitStatus (asI32 cell) else .eof

namespace ChannelMsg

def payload (stream : Stream) : ChannelMsg → Bytes
  | data bytes => if stream = .stdout then bytes else []
  | extendedData bytes => if stream = .stderr then bytes else []
  | _ => []

/-- `exit_status` and `exit_signal` of `ClientHandler`: what they store in the cell. -/
def stored : ChannelMsg → Option UInt32
  | exitStatus code => some code
  | exitSignal _ => some 255
  | _ => none

/-- `drive_exec` returns when this message is read. -/
def ends : ChannelMsg → Bool
  | exitStatus _ | exitSignal _ | eof | close => true
  | data _ | extendedData _ | other => false

end ChannelMsg

def received (stream : Stream) (messages : List ChannelMsg) : Bytes :=
  messages.flatMap (·.payload stream)

/-- The channel's own exit status; `drive_exec` returns 0 for a channel that has none. -/
def ownStatus (messages : List ChannelMsg) : ℤ :=
  ((messages.findSome? (·.stored)).map asI32).getD 0

/-- The orders of messages there are: the last one is the only `Close`, and there is at most one
`Eof` and one message about the exit. -/
def Allowed (messages : List ChannelMsg) : Prop :=
  messages.getLast? = some .close ∧ messages.count .close = 1 ∧ messages.count .eof ≤ 1 ∧
    (messages.filter (·.stored.isSome)).length ≤ 1
  deriving Decidable

/-- No data comes behind the first message that ends the command for `drive_exec`. -/
def Ordered (messages : List ChannelMsg) : Prop :=
  ∀ m ∈ messages.dropWhile (!·.ends), m.payload .stdout = [] ∧ m.payload .stderr = []
  deriving Decidable

/-! ### One channel -/

/-- Where `read_driver` is: in its loop, behind it, or at its end. -/
inductive Reader
  | reading
  | left
  | done
  deriving DecidableEq

/-- A channel: all its messages, those that have not arrived and those that have not been read. -/
structure Channel where
  messages : List ChannelMsg
  incoming : List ChannelMsg
  queue : List ChannelMsg
  reader : Reader
  exitSent : Bool
  listening : Bool
  sent : List SessionEvent

inductive ChannelEvent
  | arrive
  | read
  | readEnd
  | finish
  /-- `drive_exec` has returned and drops its receiver. -/
  | drop

namespace Channel

def start (messages : List ChannelMsg) : Channel :=
  ⟨messages, messages, [], .reading, false, true, []⟩

variable (c : Channel)

def send (event : SessionEvent) : Channel :=
  if c.listening then { c with sent := c.sent ++ [event] } else c

def sendFallback (cell : UInt32) : Channel :=
  if c.exitSent then c else c.send (fallback cell)

/-- The loop of `read_driver` at one message. -/
def handle (cell : UInt32) : ChannelMsg → Channel
  | .data bytes => if c.listening then c.send (.stdout bytes) else { c with reader := .left }
  | .extendedData bytes =>
    if c.listening then c.send (.stderr bytes) else { c with reader := .left }
  | .exitStatus code => { c with exitSent := true }.send (.exitStatus (asI32 code))
  | .exitSignal signalName => { c with exitSent := true }.send (.exitSignal signalName)
  | .eof | .close => { c.sendFallback cell with reader := .left }
  | .other => c

def step (cell : UInt32) (lost : Bool) : ChannelEvent → Option Channel
  | .arrive =>
    match c.incoming with
    | m :: incoming =>
      if lost = false then some { c with incoming := incoming, queue := c.queue ++ [m] } else none
    | [] => none
  | .read =>
    match c.reader, c.queue with
    | .reading, m :: queue => some ({ c with queue := queue }.handle cell m)
    | _, _ => none
  | .readEnd =>
    -- `wait` gives `None` only when the connection is gone
    if c.reader = .reading ∧ c.queue = [] ∧ lost = true then some { c with reader := .left }
    else none
  | .finish =>
    if c.reader = .left then some { c.sendFallback cell with reader := .done } else none
  | .drop => if Terminated c.sent then some { c with listening := false } else none

/-- `drive_exec` forwards all data of the channel, and beside it only what it says itself, and
returns the channel's own exit status. -/
def Delivered : Prop :=
  (∀ stream, forwarded stream (driveExec c.sent).1 =
    received stream c.messages ++ forwarded stream (driveExec (c.sent.filter isTerminal)).1) ∧
  (driveExec c.sent).2 = ownStatus c.messages

/-- When the end is read before a message about the exit, the cell tells the channel's own
status. -/
def Knows (cell : UInt32) : Prop :=
  c.exitSent = false → c.queue.head? = some .eof ∨ c.queue.head? = some .close →
    (driveExec [fallback cell]).2 = ownStatus c.messages
  deriving Decidable

end Channel

/-! ### What holds of a channel -/

section received

variable {stream : Stream} {messages read rest : List ChannelMsg} {m : ChannelMsg}

lemma received_append (read rest : List ChannelMsg) :
    received stream (read ++ rest) = received stream read ++ received stream rest :=
  flatMap_append

lemma received_cons : received stream (m :: rest) = m.payload stream ++ received stream rest :=
  flatMap_cons

lemma payload_of_ends (h : m.ends = true) : m.payload stream = [] := by
  cases m <;> first | rfl | cases h

/-- Nothing is lost just when the messages behind the one that ends the command have no data. -/
lemma ordered_iff (hread : ∀ m ∈ read, m.ends = false) (hends : m.ends = true) :
    Ordered (read ++ m :: rest) ↔ ∀ stream, received stream rest = [] := by
  have hdrop : (read ++ m :: rest).dropWhile (!·.ends) = m :: rest := by
    rw [dropWhile_append_of_pos (by simpa using hread), dropWhile_cons_of_neg (by simpa)]
  have hstream : Ordered (read ++ m :: rest) ↔ ∀ stream, ∀ m' ∈ rest, m'.payload stream = [] := by
    simp only [Ordered, hdrop, forall_mem_cons, payload_of_ends hends, true_and]
    exact ⟨fun h stream m' hm' => stream.casesOn (h m' hm').1 (h m' hm').2,
      fun h m' hm' => ⟨h .stdout m' hm', h .stderr m' hm'⟩⟩
  simp [hstream, received]

lemma findSome_stored (hread : ∀ m ∈ read, m.ends = false) :
    (read ++ rest).findSome? (·.stored) = rest.findSome? (·.stored) := by
  have hnone : read.findSome? (·.stored) = none := by
    rw [findSome?_eq_none_iff]
    intro m hm
    have hplain := hread m hm
    cases m <;> first | rfl | cases hplain
  rw [findSome?_append, hnone, Option.none_or]

end received

namespace Channel

/-- The reader has passed on what it has read, and `drive_exec` waits for more. -/
structure Waiting (c : Channel) : Prop where
  reader : c.reader = .reading
  exitSent : c.exitSent = false
  listening : c.listening = true
  closes : .close ∈ c.messages
  running : ¬ Terminated c.sent
  read : ∃ read, c.messages = read ++ (c.queue ++ c.incoming) ∧ (∀ m ∈ read, m.ends = false) ∧
    ∀ stream, output stream c.sent = received stream read

/-- `drive_exec` has returned, and the reader does not look at the cell for it any more. -/
structure Told (c : Channel) : Prop where
  terminated : Terminated c.sent
  reader : c.exitSent = true ∨ c.reader ≠ .reading

variable {c c' : Channel} {cell : UInt32} {lost : Bool} {event : ChannelEvent}

lemma waiting_start {messages : List ChannelMsg} (h : Allowed messages) :
    (start messages).Waiting where
  reader := rfl
  exitSent := rfl
  listening := rfl
  closes := mem_of_getLast? h.1
  running := by simp [start, Terminated]
  read := ⟨[], rfl, by simp, fun _ => rfl⟩

variable {e : SessionEvent} {m : ChannelMsg} {queue : List ChannelMsg}

lemma delivered_told {before : List SessionEvent} {read rest : List ChannelMsg}
    (hrunning : ¬ Terminated before) (he : isTerminal e = true) (hsent : c.sent = before ++ [e])
    (hmessages : c.messages = read ++ m :: rest) (hread : ∀ m ∈ read, m.ends = false)
    (hends : m.ends = true) (houtput : ∀ stream, output stream before = received stream read) :
    c.Delivered ↔
      Ordered c.messages ∧ (driveExec [e]).2 = ownStatus c.messages := by
  have hfilter : c.sent.filter isTerminal = [e] := by
    have hnone : before.filter isTerminal = [] :=
      filter_eq_nil_iff.2 fun e' he' => by simp [not_terminated.1 hrunning e' he']
    rw [hsent, filter_append, hnone]
    simp [he]
  refine and_congr ?_ ?_
  · rw [hmessages, ordered_iff hread hends, hfilter, hsent, driveExec_append hrunning]
    refine forall_congr' fun stream => ?_
    rw [forwarded_append, forwarded_driveExec hrunning, houtput, received_append, received_cons,
      payload_of_ends hends, nil_append, append_cancel_right_eq, self_eq_append_right]
  · rw [hsent, driveExec_append hrunning]

/-- What becomes of a channel for which `drive_exec` waits. -/
inductive After (c : Channel) (cell : UInt32) (lost : Bool) (event : ChannelEvent) (c' : Channel) :
    Prop
  | waiting (waiting : c'.Waiting) (messages : c'.messages = c.messages)
      (knows : event = .read → c.Knows cell)
  | told (told : c'.Told) (read : event = .read)
      (delivered : c'.Delivered ↔ Ordered c.messages ∧ c.Knows cell)
  | cut (lost : lost = true) (incoming : c'.incoming ≠ [])

/-- The reader passes a message on that does not end the command. -/
lemma Waiting.read_plain (events : List SessionEvent) (h : c.Waiting)
    (hqueue : c.queue = m :: queue) (hm : m.ends = false)
    (hevents : ∀ e ∈ events, isTerminal e = false)
    (houtput : ∀ stream, output stream events = m.payload stream) :
    After c cell lost .read { c with queue := queue, sent := c.sent ++ events } := by
  obtain ⟨read, hmessages, hplain, hread⟩ := h.read
  rw [hqueue] at hmessages
  have hknows : c.Knows cell := by
    intro _ hhead
    rw [hqueue] at hhead
    rcases hhead with hhead | hhead <;> cases hhead <;> cases hm
  refine .waiting { h with
    running := not_terminated.2 (forall_mem_append.2 ⟨not_terminated.1 h.running, hevents⟩)
    read := ⟨read ++ [m], by simpa using hmessages, ?_, fun stream => ?_⟩ } rfl fun _ => hknows
  · simpa [or_imp, forall_and, hm] using hplain
  · rw [output_append, houtput, hread]
    simp [received]

/-- The reader answers a message that ends the command. -/
lemma Waiting.read_ends (h : c.Waiting) (hqueue : c.queue = m :: queue) (hm : m.ends = true)
    (he : isTerminal e = true) (hmessages : c'.messages = c.messages)
    (hsent : c'.sent = c.sent ++ [e]) (hreader : c'.exitSent = true ∨ c'.reader ≠ .reading)
    (hknows : (driveExec [e]).2 = ownStatus c.messages ↔ c.Knows cell) :
    After c cell lost .read c' := by
  obtain ⟨read, hsplit, hplain, hread⟩ := h.read
  rw [hqueue] at hsplit
  refine .told ⟨⟨e, by simp [hsent], he⟩, hreader⟩ rfl ?_
  rw [delivered_told h.running he hsent (hmessages.trans hsplit) hplain hm hread, hmessages, hknows]

lemma Waiting.read_step (h : c.Waiting) (hqueue : c.queue = m :: queue) :
    After c cell lost .read ({ c with queue := queue }.handle cell m) := by
  obtain ⟨read, hsplit, hplain, -⟩ := h.read
  rw [hqueue] at hsplit
  -- the status that a message about the exit has is the channel's own
  have hown : m.stored.isSome → ownStatus c.messages = (m.stored.map asI32).getD 0 := by
    intro hstored
    obtain ⟨code, hcode⟩ := Option.isSome_iff_exists.1 hstored
    rw [ownStatus, hsplit, findSome_stored hplain]
    simp [hcode]
  have hknows : c.exitSent = false → (m = .eof ∨ m = .close) →
      ((driveExec [fallback cell]).2 = ownStatus c.messages ↔ c.Knows cell) := by
    intro hexit hm
    simp [Knows, hexit, hqueue, hm]
  have hother : m ≠ .eof → m ≠ .close → c.Knows cell := by
    intro heof hclose _ hhead
    rw [hqueue] at hhead
    rcases hhead with hhead | hhead <;> cases hhead
    · exact absurd rfl heof
    · exact absurd rfl hclose
  have hfallback : isTerminal (fallback cell) = true := by
    unfold fallback
    split <;> rfl
  cases m with
  | data bytes =>
    simp only [handle, send, if_pos h.listening]
    exact h.read_plain [.stdout bytes] hqueue rfl (by simp [isTerminal]) fun stream => by
      simp [output, ChannelMsg.payload]
  | extendedData bytes =>
    simp only [handle, send, if_pos h.listening]
    exact h.read_plain [.stderr bytes] hqueue rfl (by simp [isTerminal]) fun stream => by
      simp [output, ChannelMsg.payload]
  | exitStatus code =>
    simp only [h.listening]
    refine h.read_ends (e := .exitStatus (asI32 code)) hqueue rfl rfl rfl rfl (.inl rfl) ?_
    exact iff_of_true (hown rfl).symm (hother (by simp) (by simp))
  | exitSignal name =>
    simp only [h.listening]
    refine h.read_ends (e := .exitSignal name) hqueue rfl rfl rfl rfl (.inl rfl) ?_
    exact iff_of_true (hown rfl).symm (hother (by simp) (by simp))
  | eof =>
    simp only [h.exitSent, h.listening]
    exact h.read_ends hqueue rfl hfallback rfl rfl (.inr (by simp [handle, sendFallback]))
      (hknows h.exitSent (.inl rfl))
  | close =>
    simp only [h.exitSent, h.listening]
    exact h.read_ends hqueue rfl hfallback rfl rfl (.inr (by simp [handle, sendFallback]))
      (hknows h.exitSent (.inr rfl))
  | other =>
    have hread : After c cell lost .read _ := h.read_plain [] hqueue rfl (by simp) fun _ => rfl
    rwa [append_nil] at hread

lemma Waiting.step (h : c.Waiting) (hstep : c.step cell lost event = some c') :
    After c cell lost event c' := by
  revert hstep
  fun_cases Channel.step c cell lost event <;> intro hstep <;> cases hstep
  next hincoming _ =>
    obtain ⟨read, hsplit, hplain, hread⟩ := h.read
    exact .waiting { h with
      read := ⟨read, by simpa [hincoming] using hsplit, hplain, hread⟩ } rfl nofun
  next hqueue _ => exact h.read_step hqueue
  next hcond =>
    obtain ⟨read, hsplit, hplain, -⟩ := h.read
    refine .cut hcond.2.2 fun hincoming => ?_
    -- all messages would have been read, and one of them is `Close`
    have hclose : .close ∈ read := by
      have hcloses := h.closes
      rwa [hsplit, hcond.2.1, show c.incoming = [] from hincoming, nil_append,
        append_nil] at hcloses
    cases hplain _ hclose
  next hreader =>
    rw [h.reader] at hreader
    cases hreader
  next hterminated => exact absurd hterminated h.running

/-- The channel has grown, if at all, by events for which nobody waits. -/
structure Grown (lost : Bool) (c c' : Channel) : Prop where
  messages : c'.messages = c.messages
  incoming : lost = true → c'.incoming = c.incoming
  sent : c.sent <+: c'.sent
  exitSent : c.exitSent = true → c'.exitSent = true
  reader : c.reader ≠ .reading → c'.reader ≠ .reading

lemma grown_rfl : Grown lost c c := ⟨rfl, fun _ => rfl, prefix_rfl, id, id⟩

lemma grown_send (event : SessionEvent) : Grown lost c (c.send event) := by
  unfold send
  split
  · exact { grown_rfl with sent := prefix_append _ _ }
  · exact grown_rfl

lemma grown_sendFallback (cell : UInt32) : Grown lost c (c.sendFallback cell) := by
  unfold sendFallback
  split
  · exact grown_rfl
  · exact grown_send _

lemma grown_handle (hreader : c.reader = .reading) (cell : UInt32) (m : ChannelMsg) :
    Grown lost c (c.handle cell m) := by
  have hleft : ∀ {d : Channel} {r : Reader}, Grown lost c d → Grown lost c { d with reader := r } :=
    fun h => { h with reader := fun hne => absurd hreader hne }
  have hexit : ∀ event, Grown lost c ({ c with exitSent := true }.send event) := by
    intro event
    have h : Grown lost { c with exitSent := true } _ := grown_send event
    exact { h with exitSent := fun _ => h.exitSent rfl }
  cases m with
  | data | extendedData =>
    simp only [handle]
    split
    · exact grown_send _
    · exact hleft grown_rfl
  | exitStatus | exitSignal => exact hexit _
  | eof | close => exact hleft (grown_sendFallback cell)
  | other => exact grown_rfl

lemma grown_step (hstep : c.step cell lost event = some c') : Grown lost c c' := by
  revert hstep
  fun_cases Channel.step c cell lost event <;> intro hstep <;> cases hstep
  next hlost => exact ⟨rfl, fun h => by simp [h] at hlost, prefix_rfl, id, id⟩
  next m queue hqueue hreader =>
    have h := @grown_handle { c with queue := queue } lost hreader cell m
    exact { h with }
  · exact { grown_rfl with reader := fun _ => nofun }
  · exact { grown_sendFallback cell with reader := fun _ => nofun }
  · exact { grown_rfl with }

lemma incoming_handle (c : Channel) (cell : UInt32) (m : ChannelMsg) :
    (c.handle cell m).incoming = c.incoming := by
  cases m <;> simp only [handle, sendFallback, send] <;> split_ifs <;> rfl

lemma queue_handle (c : Channel) (cell : UInt32) (m : ChannelMsg) :
    (c.handle cell m).queue = c.queue := by
  cases m <;> simp only [handle, sendFallback, send] <;> split_ifs <;> rfl

/-- `drive_exec` does not see what comes behind a terminal event. -/
lemma driveExec_of_prefix {sent sent' : List SessionEvent} (h : Terminated sent)
    (hpre : sent <+: sent') : driveExec sent' = driveExec sent := by
  obtain ⟨more, rfl⟩ := hpre
  rw [← driveExec_upTo, upTo_append_of_terminated h, driveExec_upTo]

lemma Told.step (h : c.Told) (hstep : c.step cell lost event = some c') :
    c'.Told ∧ (c'.Delivered ↔ c.Delivered) ∧ (event = .read → c.Knows cell) := by
  have hgrown := grown_step hstep
  have hfilter : Terminated (c.sent.filter isTerminal) := by
    obtain ⟨e, he, hterminal⟩ := h.terminated
    exact ⟨e, mem_filter.2 ⟨he, hterminal⟩, hterminal⟩
  refine ⟨⟨h.terminated.of_prefix hgrown.sent, h.reader.imp hgrown.exitSent hgrown.reader⟩, ?_, ?_⟩
  · rw [Delivered, Delivered, hgrown.messages, driveExec_of_prefix h.terminated hgrown.sent,
      driveExec_of_prefix hfilter (hgrown.sent.filter _)]
  · rintro rfl hexit -
    rcases h.reader with hsent | hreader
    · rw [hexit] at hsent
      cases hsent
    · simp only [Channel.step] at hstep
      split at hstep
      · exact absurd ‹_› hreader
      · cases hstep

end Channel

/-! ### The handle -/

/-- The handle with its cell, the callback that is still to be made for the last message, and a
channel for each command. -/
structure Handle where
  cell : UInt32
  callback : Option UInt32
  lost : Bool
  channels : List Channel

inductive Event
  /-- `DirectSshSession::new` for a channel with these messages. -/
  | new (messages : List ChannelMsg)
  | callback
  | lose
  | on (i : ℕ) (event : ChannelEvent)

namespace Handle

def start : Handle := ⟨noExit, none, false, []⟩

variable (s : Handle)

def step : Event → Option Handle
  | .new messages =>
    -- the handle goes back to the pool when the tasks of its last session have ended
    if (∀ c ∈ s.channels, c.reader = .done) ∧ Allowed messages then
      some { s with cell := noExit, channels := s.channels ++ [.start messages] }
    else none
  | .callback => s.callback.map fun code => { s with cell := code, callback := none }
  | .lose => some { s with lost := true }
  | .on i .arrive =>
    -- the client's task handles one message after the other
    if s.callback = none then
      (s.channels[i]?).bind fun c => (c.step s.cell s.lost .arrive).map fun c' =>
        { s with callback := c.incoming.head?.bind (·.stored), channels := s.channels.set i c' }
    else none
  | .on i event =>
    (s.channels[i]?).bind fun c => (c.step s.cell s.lost event).map fun c' =>
      { s with channels := s.channels.set i c' }

/-- What the messages of the `i`-th channel, and the cell, have to be like. -/
def Cond (i : ℕ) (s : Handle) : Event → Prop
  | .new messages => s.channels.length = i → Ordered messages
  | .on j .read => j = i → ∀ c ∈ s.channels[i]?, c.Knows s.cell
  | _ => True

instance decidableCond (i : ℕ) : ∀ s e, Decidable (Cond i s e)
  | s, .new messages => inferInstanceAs (Decidable (s.channels.length = i → Ordered messages))
  | s, .on j .read => inferInstanceAs (Decidable (j = i → ∀ c ∈ s.channels[i]?, c.Knows s.cell))
  | _, .callback | _, .lose | _, .on _ .arrive | _, .on _ .readEnd | _, .on _ .finish
  | _, .on _ .drop => inferInstanceAs (Decidable True)

variable {s} {s' : Handle} {i : ℕ} {c : Channel} {e : Event}

lemma step_on {event : ChannelEvent} (hstep : s.step (.on i event) = some s') :
    ∃ c c', s.channels[i]? = some c ∧ c.step s.cell s.lost event = some c' ∧
      s'.channels = s.channels.set i c' ∧ s'.lost = s.lost := by
  cases event with
  | arrive =>
    simp only [step] at hstep
    split_ifs at hstep
    obtain ⟨c, hc, hmap⟩ := Option.bind_eq_some_iff.1 hstep
    obtain ⟨c', hc', rfl⟩ := Option.map_eq_some_iff.1 hmap
    exact ⟨c, c', hc, hc', rfl, rfl⟩
  | _ =>
    obtain ⟨c, hc, hmap⟩ := Option.bind_eq_some_iff.1 hstep
    obtain ⟨c', hc', rfl⟩ := Option.map_eq_some_iff.1 hmap
    exact ⟨c, c', hc, hc', rfl, rfl⟩

lemma step_channel (hc : s.channels[i]? = some c) (hstep : s.step e = some s') :
    ∃ c', s'.channels[i]? = some c' ∧ (s.lost = true → s'.lost = true) ∧
      (c' = c ∧ (∀ event, e ≠ .on i event) ∨
        ∃ event, e = .on i event ∧ c.step s.cell s.lost event = some c') := by
  have hlt : i < s.channels.length := (List.getElem?_eq_some_iff.1 hc).1
  cases e with
  | new messages =>
    simp only [step] at hstep
    split_ifs at hstep
    cases hstep
    exact ⟨c, by rw [List.getElem?_append_left hlt, hc], id, .inl ⟨rfl, nofun⟩⟩
  | callback =>
    obtain ⟨code, -, rfl⟩ := Option.map_eq_some_iff.1 hstep
    exact ⟨c, hc, id, .inl ⟨rfl, nofun⟩⟩
  | lose =>
    cases hstep
    exact ⟨c, hc, fun _ => rfl, .inl ⟨rfl, nofun⟩⟩
  | on j event =>
    obtain ⟨d, d', hd, hd', hchannels, hlost⟩ := step_on hstep
    rw [hchannels, hlost]
    by_cases hj : j = i
    · subst hj
      rw [hc, Option.some.injEq] at hd
      subst hd
      exact ⟨d', List.getElem?_set_self hlt, id, .inr ⟨event, rfl, hd'⟩⟩
    · refine ⟨c, by rw [List.getElem?_set_ne hj, hc], id, .inl ⟨rfl, fun event' he => ?_⟩⟩
      cases he
      exact hj rfl

lemma step_absent (hlength : s.channels.length ≤ i) (hstep : s.step e = some s') :
    (∃ messages, e = .new messages ∧ s.channels.length = i ∧ Allowed messages ∧
        s'.channels[i]? = some (.start messages)) ∨
      s'.channels.length ≤ i ∧ Cond i s e := by
  cases e with
  | new messages =>
    simp only [step] at hstep
    split_ifs at hstep with hcond
    cases hstep
    by_cases hi : s.channels.length = i
    · subst hi
      exact .inl ⟨messages, rfl, rfl, hcond.2, List.getElem?_concat_length⟩
    · refine .inr ⟨?_, fun h => absurd h hi⟩
      rw [List.length_append, List.length_singleton]
      omega
  | callback =>
    obtain ⟨code, -, rfl⟩ := Option.map_eq_some_iff.1 hstep
    exact .inr ⟨hlength, trivial⟩
  | lose =>
    cases hstep
    exact .inr ⟨hlength, trivial⟩
  | on j event =>
    obtain ⟨d, d', hd, -, hchannels, -⟩ := step_on hstep
    have hj : j < s.channels.length := (List.getElem?_eq_some_iff.1 hd).1
    refine .inr ⟨by rw [hchannels, List.length_set]; exact hlength, ?_⟩
    cases event with
    | read =>
      rintro rfl
      omega
    | _ => trivial

lemma cond_of_ne (hc : s.channels[i]? = some c) (he : ∀ event, e ≠ .on i event) : Cond i s e := by
  cases e with
  | new messages =>
    intro hlength
    rw [← hlength, getElem?_length] at hc
    cases hc
  | callback | lose => trivial
  | on j event =>
    cases event with
    | read =>
      rintro rfl
      exact absurd rfl (he .read)
    | _ => trivial

lemma cond_on (hc : s.channels[i]? = some c) {event : ChannelEvent} :
    Cond i s (.on i event) ↔ (event = .read → c.Knows s.cell) := by
  cases event <;> simp [Cond, hc]

/-- Where the `i`-th channel can be as long as no message of it is lost. -/
def Sound (i : ℕ) (s : Handle) : Prop := ∀ c, s.channels[i]? = some c → c.Waiting ∨ c.Told

/-- A message of the `i`-th channel is lost with the connection. -/
def Cut (i : ℕ) (s : Handle) : Prop :=
  s.lost = true ∧ ∃ c, s.channels[i]? = some c ∧ c.incoming ≠ []

/-- What `drive_exec` has delivered, or can still deliver, is right. -/
def Right (i : ℕ) (s : Handle) : Prop :=
  ∀ c ∈ s.channels[i]?, if Terminated c.sent then c.Delivered else Ordered c.messages

lemma right_absent (hc : s.channels[i]? = none) : s.Right i := by simp [Right, hc]

lemma right_waiting (hc : s.channels[i]? = some c) (h : c.Waiting) :
    s.Right i ↔ Ordered c.messages := by
  simp [Right, hc, h.running]

lemma right_told (hc : s.channels[i]? = some c) (h : c.Told) : s.Right i ↔ c.Delivered := by
  simp [Right, hc, h.terminated]

/-- On a lost connection nothing more arrives. -/
lemma Cut.step (h : s.Cut i) (hstep : s.step e = some s') : s'.Cut i := by
  obtain ⟨hlost, c, hc, hincoming⟩ := h
  obtain ⟨c', hc', hlost', ⟨rfl, -⟩ | ⟨event, -, hevent⟩⟩ := step_channel hc hstep
  · exact ⟨hlost' hlost, c', hc', hincoming⟩
  · refine ⟨hlost' hlost, c', hc', ?_⟩
    rwa [(Channel.grown_step hevent).incoming hlost]

lemma Sound.step_absent (hc : s.channels[i]? = none) (hstep : s.step e = some s') :
    s'.Sound i ∧ (s'.Right i ↔ Cond i s e) := by
  obtain ⟨messages, rfl, hlast, hallowed, hc'⟩ | ⟨hlength', hcond⟩ :=
    Handle.step_absent (getElem?_eq_none_iff.1 hc) hstep
  · have hwaiting := Channel.waiting_start hallowed
    refine ⟨fun d hd => ?_, ?_⟩
    · rw [hc', Option.some.injEq] at hd
      exact .inl (hd ▸ hwaiting)
    · rw [right_waiting hc' hwaiting]
      exact ⟨fun h _ => h, fun h => h hlast⟩
  · have hc' : s'.channels[i]? = none := getElem?_eq_none hlength'
    exact ⟨fun d hd => by simp [hc'] at hd, iff_of_true (right_absent hc') hcond⟩

lemma Sound.step (h : s.Sound i) (hstep : s.step e = some s') :
    s'.Cut i ∨ s'.Sound i ∧ (s'.Right i ↔ s.Right i ∧ Cond i s e) := by
  cases hc : s.channels[i]? with
  | none =>
    rw [and_iff_right (right_absent hc)]
    exact .inr (Sound.step_absent hc hstep)
  | some c =>
    obtain ⟨c', hc', hlost, hsame⟩ := step_channel hc hstep
    have hsound : c'.Waiting ∨ c'.Told → s'.Sound i := fun h d hd =>
      Option.some.inj (hc'.symm.trans hd) ▸ h
    obtain ⟨rfl, he⟩ | ⟨event, rfl, hevent⟩ := hsame
    · rw [and_iff_left (cond_of_ne hc he), Right, Right, hc, hc']
      exact .inr ⟨hsound (h c' hc), Iff.rfl⟩
    · rw [cond_on hc]
      rcases h c hc with hwaiting | htold
      · rw [right_waiting hc hwaiting]
        cases hwaiting.step hevent with
        | waiting waiting messages knows =>
          rw [right_waiting hc' waiting, messages, and_iff_left knows]
          exact .inr ⟨hsound (.inl waiting), Iff.rfl⟩
        | told told read delivered =>
          rw [right_told hc' told, delivered, forall_prop_of_true read]
          exact .inr ⟨hsound (.inr told), Iff.rfl⟩
        | cut lost incoming => exact .inl ⟨hlost lost, c', hc', incoming⟩
      · obtain ⟨told, hdelivered, hknows⟩ := htold.step hevent
        rw [right_told hc htold, right_told hc' told, hdelivered, and_iff_left hknows]
        exact .inr ⟨hsound (.inr told), Iff.rfl⟩

def Returned (s : Handle) (i : ℕ) : Prop := ∃ c, s.channels[i]? = some c ∧ Terminated c.sent

/-- When all messages have arrived the reader comes to the end of the command by itself. -/
lemma exists_returned (hc : s.channels[i]? = some c) (h : c.Waiting) (hall : c.incoming = []) :
    ∃ k t, run step s (List.replicate k (.on i .read)) = some t ∧ t.Returned i := by
  have hlt : i < s.channels.length := (List.getElem?_eq_some_iff.1 hc).1
  induction hqueue : c.queue generalizing s c with
  | nil =>
    obtain ⟨read, hsplit, hplain, -⟩ := h.read
    have hclose : .close ∈ read := by
      have hcloses := h.closes
      rwa [hsplit, hqueue, hall, List.append_nil, List.append_nil] at hcloses
    cases hplain _ hclose
  | cons m queue ih =>
    have hread : c.step s.cell s.lost .read = some ({ c with queue := queue }.handle s.cell m) := by
      simp [Channel.step, h.reader, hqueue]
    generalize hc' : { c with queue := queue }.handle s.cell m = c' at hread
    have hall' : c'.incoming = [] := by rw [← hc', Channel.incoming_handle, hall]
    have hstep : s.step (.on i .read) = some { s with channels := s.channels.set i c' } := by
      simp [step, hc, hread]
    have hset : ({ s with channels := s.channels.set i c' } : Handle).channels[i]? = some c' :=
      List.getElem?_set_self hlt
    cases h.step hread with
    | waiting waiting =>
      have hqueue' : c'.queue = queue := by rw [← hc', Channel.queue_handle]
      obtain ⟨k, t, hrun, hreturned⟩ := ih hset waiting hall' (by simpa using hlt) hqueue'
      refine ⟨k + 1, t, ?_, hreturned⟩
      rw [List.replicate_succ, run, hstep]
      exact hrun
    | told told => exact ⟨1, _, by rw [List.replicate_one, run, hstep]; rfl, c', hset,
        told.terminated⟩
    | cut lost incoming => exact absurd hall' incoming

/-- **Output and exit status over a direct connection**: when all messages of a channel have
arrived `drive_exec` returns, and what it has delivered is right just when no data came behind the
first message that ends the command and, where `Eof` or `Close` was read first, the cell told the
channel's own status. -/
theorem directExec_delivered_iff {events : List Event} (hrun : run step start events = some s)
    (hc : s.channels[i]? = some c) (hall : c.incoming = []) :
    (∃ k t, run step s (List.replicate k (.on i .read)) = some t ∧ t.Returned i) ∧
      (Terminated c.sent → (c.Delivered ↔ Meets step (Cond i) start events)) := by
  have hcut : ¬ s.Cut i := by
    rintro ⟨-, d, hd, hincoming⟩
    exact hincoming (Option.some.inj (hc.symm.trans hd) ▸ hall)
  obtain ⟨hsound, hright⟩ := run_iff_meets_of_unspoilt (I := Sound i) Sound.step Cut.step
    (fun c hc => by simp [start] at hc) hrun hcut
  rw [and_iff_right (right_absent (by simp [start]))] at hright
  rcases hsound c hc with hwaiting | htold
  · exact ⟨exists_returned hc hwaiting hall, fun hreturned => absurd hreturned hwaiting.running⟩
  · rw [right_told hc htold] at hright
    exact ⟨⟨0, s, rfl, c, hc, htold.terminated⟩, fun _ => hright⟩

/-- Two commands on one handle: the first one fails, the second one has no status. -/
def reuse : List Event :=
  [.new [.data (ascii "no"), .exitStatus 7, .eof, .close], .on 0 .arrive, .on 0 .arrive,
    .on 0 .read, .callback, .on 0 .read, .on 0 .arrive, .on 0 .arrive, .on 0 .read, .on 0 .finish,
    .new [.extendedData (ascii "yes"), .eof, .close], .on 1 .arrive, .on 1 .arrive,
    .on 1 .read, .on 1 .read, .on 1 .arrive]

theorem directExec_delivered_iff_reuse :
    Meets step (Cond 1) start reuse ∧ ∃ s c, run step start reuse = some s ∧
      s.channels[1]? = some c ∧ Terminated c.sent ∧ c.Delivered := by
  have hmeets : Meets step (Cond 1) start reuse := by decide +kernel
  have hrun : run step start reuse = some _ := rfl
  have hterminated : Terminated [.stderr (ascii "yes"), .eof] := ⟨.eof, by simp, rfl⟩
  exact ⟨hmeets, _, _, hrun, rfl, hterminated,
    ((directExec_delivered_iff hrun rfl rfl).2 hterminated).2 hmeets⟩

/-- Data that comes behind the exit status. -/
def lateData : List Event :=
  [.new [.exitStatus 0, .data (ascii "late"), .eof, .close], .on 0 .arrive, .callback,
    .on 0 .arrive, .on 0 .arrive, .on 0 .arrive, .on 0 .read, .on 0 .read]

/-- An exit status that comes behind `Eof`. -/
def lateStatus : List Event :=
  [.new [.eof, .exitStatus 3, .close], .on 0 .arrive, .on 0 .read, .on 0 .finish, .on 0 .arrive,
    .callback, .on 0 .arrive]

/-- The status of the first command comes while the second one runs. -/
def leakedStatus : List Event :=
  [.new [.eof, .exitStatus 3, .close], .on 0 .arrive, .on 0 .read, .on 0 .finish,
    .new [.eof, .exitStatus 0, .close], .on 0 .arrive, .callback, .on 1 .arrive, .on 1 .read,
    .on 1 .arrive, .callback, .on 1 .arrive]

theorem directExec_late :
    (run step start lateData).map (fun s => s.channels.map (driveExec ·.sent)) = some [([], 0)] ∧
    (run step start lateStatus).map (fun s => s.channels.map (driveExec ·.sent)) =
      some [([], 0)] ∧
    (run step start leakedStatus).map (fun s => s.channels.map (driveExec ·.sent)) =
      some [([], 0), ([], 3)] := by
  decide +kernel

end Handle

end CrossHostOps.DirectExec
