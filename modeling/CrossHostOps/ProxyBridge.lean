import CrossHostOps.Runs
import CrossHostOps.Text
import Mathlib.Logic.Function.Basic

/-!
The channels of the transparent SSH proxy (`daemon/proxy_server.rs`). Messages that come before the
session of a channel is started wait in its entry; `spawn_bridge` leaves them to a task of their
own, while later messages go into the queue of the bridge at once.
-/

namespace CrossHostOps.ProxyBridge

open Text Runs

abbrev ChannelId := ℕ

inductive ProxyMsg
  | data (data : Bytes)
  | resize (cols rows : ℕ)
  | signal (name : Str)
  | eof
  deriving DecidableEq

structure ChannelEntry where
  pending : List ProxyMsg

/-- The task of a bridge opens the session, and then sends on what comes out of its queue; where it
fails the queue is dropped. -/
inductive BridgeTask
  | opening
  | uplink
  | failed
  deriving DecidableEq

/-- A bridge, with what the task that flushes still holds and what the uplink has received. -/
structure Bridge where
  queue : List ProxyMsg
  flushing : List ProxyMsg
  task : BridgeTask
  received : List ProxyMsg

inductive BridgeEvent
  | flush
  | opened
  | failed
  | receive

namespace Bridge

variable (b : Bridge)

/-- `send` on the queue of the bridge; nobody receives from a queue that has been dropped. -/
def send (msg : ProxyMsg) : Bridge :=
  match b.task with
  | .failed => b
  | .opening | .uplink => { b with queue := b.queue ++ [msg] }

def step : BridgeEvent → Option Bridge
  | .flush =>
    match b.flushing with
    | [] => none
    | msg :: rest =>
      match b.task with
      -- the task returns at the first error
      | .failed => some { b with flushing := [] }
      | .opening | .uplink => some { b.send msg with flushing := rest }
  | .opened => if b.task = .opening then some { b with task := .uplink } else none
  | .failed => if b.task = .opening then some { b with task := .failed, queue := [] } else none
  | .receive =>
    match b.task, b.queue with
    | .uplink, msg :: rest => some { b with queue := rest, received := b.received ++ [msg] }
    | _, _ => none

end Bridge

/-- The handler of a connection, with all messages that have come on its channels. -/
structure Handler where
  user : Option Str
  channels : ChannelId → Option ChannelEntry
  bridges : ChannelId → Option Bridge
  arrived : ChannelId → List ProxyMsg

inductive Event
  | authPublickey (user : Str)
  | channelOpenSession (channel : ChannelId)
  | message (channel : ChannelId) (msg : ProxyMsg)
  | startSession (channel : ChannelId)
  | bridge (channel : ChannelId) (e : BridgeEvent)

def spawnBridge (entry : ChannelEntry) : Bridge := ⟨[], entry.pending, .opening, []⟩

namespace Handler

def new : Handler := ⟨none, fun _ => none, fun _ => none, fun _ => []⟩

variable (h : Handler)

def forwardOrBuffer (channel : ChannelId) (msg : ProxyMsg) : Handler :=
  match h.bridges channel with
  | some b => { h with bridges := Function.update h.bridges channel (some (b.send msg)) }
  | none =>
    match h.channels channel with
    | some entry => { h with
        channels := Function.update h.channels channel (some ⟨entry.pending ++ [msg]⟩) }
    | none => h

def startSession (channel : ChannelId) : Handler × Bool :=
  match h.user, h.channels channel with
  | some _, some entry =>
    ({ h with
        channels := Function.update h.channels channel none
        bridges := Function.update h.bridges channel (some (spawnBridge entry)) }, true)
  | _, _ => (h, false)

/-- A channel is opened under a number that has not been used, and messages come on open channels
only. -/
def step : Event → Option Handler
  | .authPublickey user => some { h with user := some user }
  | .channelOpenSession channel =>
    if h.channels channel = none ∧ h.bridges channel = none then
      some { h with channels := Function.update h.channels channel (some ⟨[]⟩) }
    else none
  | .message channel msg =>
    if h.channels channel = none ∧ h.bridges channel = none then none
    else some { h.forwardOrBuffer channel msg with
      arrived := Function.update h.arrived channel (h.arrived channel ++ [msg]) }
  | .startSession channel => some (h.startSession channel).1
  | .bridge channel e => do
    let b ← h.bridges channel
    let b' ← b.step e
    some { h with bridges := Function.update h.bridges channel (some b') }

end Handler

/-! ### One bridge -/

namespace Bridge

variable {b b' : Bridge} {arrived : List ProxyMsg}

lemma send_of_ne (h : b.task ≠ .failed) (msg : ProxyMsg) :
    b.send msg = { b with queue := b.queue ++ [msg] } := by
  rw [send]
  cases hb : b.task with
  | failed => exact absurd hb h
  | opening | uplink => rfl

lemma step_flush {msg : ProxyMsg} {rest : List ProxyMsg} (htask : b.task ≠ .failed)
    (hflushing : b.flushing = msg :: rest) :
    b.step .flush = some { b with queue := b.queue ++ [msg], flushing := rest } := by
  simp only [step, hflushing, send_of_ne htask]
  cases hb : b.task with
  | failed => exact absurd hb htask
  | opening | uplink => rfl

/-- What has come is what the uplink has received, and then what waits, in its order. -/
def Holds (b : Bridge) (arrived : List ProxyMsg) : Prop :=
  b.task ≠ .failed → b.received ++ b.queue ++ b.flushing = arrived

lemma Holds.send (h : b.Holds arrived) (hflushed : b.flushing = []) (msg : ProxyMsg) :
    (b.send msg).Holds (arrived ++ [msg]) := by
  by_cases hb : b.task = .failed
  · intro htask
    rw [Bridge.send, hb] at htask
    exact absurd hb htask
  · intro _
    have heq := h hb
    simp only [send_of_ne hb, hflushed, List.append_nil] at heq ⊢
    rw [← heq, List.append_assoc]

lemma Holds.step {e : BridgeEvent} (h : b.Holds arrived) (hstep : b.step e = some b') :
    b'.Holds arrived := by
  revert hstep
  fun_cases Bridge.step b e <;> intro hstep <;> cases hstep <;> intro htask
  next htask' => exact absurd htask' htask
  next msg rest hflushing htask' =>
    have hsent : b.task ≠ .failed := by simp [htask']
    simpa [send_of_ne hsent, hflushing] using h hsent
  next msg rest hflushing htask' =>
    have hsent : b.task ≠ .failed := by simp [htask']
    simpa [send_of_ne hsent, hflushing] using h hsent
  next htask' => exact h (by simp [htask'])
  · exact absurd rfl htask
  next msg rest hqueue _ => simpa [hqueue] using h htask

/-- How far a bridge is from having received everything. -/
def rank (b : Bridge) : ℕ :=
  (if b.task = .opening then 1 else 0) + 2 * b.flushing.length + b.queue.length

/-- Short of that, a bridge that has not failed can always go on. -/
lemma exists_step (htask : b.task ≠ .failed)
    (hleft : ¬ (b.task = .uplink ∧ b.flushing = [] ∧ b.queue = [])) :
    ∃ e b', b.step e = some b' ∧ b'.task ≠ .failed ∧ b'.rank < b.rank := by
  cases hb : b.task with
  | failed => exact absurd hb htask
  | opening =>
    have hstep : b.step .opened = some { b with task := .uplink } := by simp [Bridge.step, hb]
    exact ⟨_, _, hstep, by simp, by simp [rank, hb]⟩
  | uplink =>
    cases hflushing : b.flushing with
    | cons msg rest =>
      refine ⟨_, _, step_flush htask hflushing, htask, ?_⟩
      simp only [rank, hflushing, List.length_cons, List.length_append, List.length_nil]
      omega
    | nil =>
      obtain ⟨msg, rest, hqueue⟩ := List.exists_cons_of_ne_nil fun hqueue =>
        hleft ⟨hb, hflushing, hqueue⟩
      have hstep : b.step .receive =
          some { b with queue := rest, received := b.received ++ [msg] } := by
        simp [Bridge.step, hb, hqueue]
      exact ⟨_, _, hstep, htask, by simp [rank, hqueue]⟩

/-- Where the bridge has not failed the uplink comes to have received what has come. -/
lemma Holds.leads (h : b.Holds arrived) (htask : b.task ≠ .failed) : ∃ b',
    Leads Bridge.step (fun _ _ => True) b b' ∧ b'.task = .uplink ∧ b'.received = arrived := by
  have hlead : ∃ b', Leads Bridge.step (fun _ _ => True) b b' ∧
      (b'.Holds arrived ∧ b'.task ≠ .failed) ∧
        b'.task = .uplink ∧ b'.flushing = [] ∧ b'.queue = [] := by
    refine exists_leads rank (fun {b} ⟨hb, htask⟩ hleft => ?_) ⟨h, htask⟩
    obtain ⟨e, b', hstep, htask', hlower⟩ := exists_step htask hleft
    exact ⟨e, b', trivial, hstep, ⟨hb.step hstep, htask'⟩, hlower⟩
  obtain ⟨b', hlead, ⟨hb', htask'⟩, huplink, hflushed, hqueue⟩ := hlead
  refine ⟨b', hlead, huplink, ?_⟩
  simpa [hqueue, hflushed] using hb' htask'

end Bridge

/-! ### All channels -/

namespace Handler

/-- No message comes on a channel while the task that flushes still holds messages of it. -/
def Flushed (h : Handler) : Event → Prop
  | .message channel _ => ∀ b ∈ h.bridges channel, b.flushing = []
  | _ => True

instance decidableFlushed (h : Handler) : ∀ e, Decidable (Flushed h e)
  | .message channel _ => inferInstanceAs (Decidable (∀ b ∈ h.bridges channel, b.flushing = []))
  | .authPublickey _ | .channelOpenSession _ | .startSession _ | .bridge .. =>
    inferInstanceAs (Decidable True)

/-- The messages of a channel are all there, in the order in which they came. -/
structure InOrder (h : Handler) (channel : ChannelId) : Prop where
  unused : h.channels channel = none → h.bridges channel = none → h.arrived channel = []
  entry : ∀ {entry}, h.channels channel = some entry →
    h.bridges channel = none ∧ entry.pending = h.arrived channel
  bridge : ∀ {b}, h.bridges channel = some b → b.Holds (h.arrived channel)

variable {h h' : Handler} {channel : ChannelId}

namespace InOrder

variable (hin : InOrder h channel)

include hin

lemma of_eq (hchannels : h'.channels channel = h.channels channel)
    (hbridges : h'.bridges channel = h.bridges channel)
    (harrived : h'.arrived channel = h.arrived channel) : InOrder h' channel where
  unused := by
    rw [hchannels, hbridges, harrived]
    exact hin.unused
  entry := by
    rw [hchannels, hbridges, harrived]
    exact hin.entry
  bridge := by
    rw [hbridges, harrived]
    exact hin.bridge

lemma channelOpenSession (hchannel : h.channels channel = none)
    (hbridge : h.bridges channel = none) : InOrder
      { h with channels := Function.update h.channels channel (some ⟨[]⟩) } channel where
  unused hnone := by simp at hnone
  entry hentry := by
    simp only [Function.update_self, Option.some.injEq] at hentry
    exact ⟨hbridge, by rw [← hentry, hin.unused hchannel hbridge]⟩
  bridge hb := by
    rw [hbridge] at hb
    cases hb

lemma message {msg : ProxyMsg} (hopen : ¬ (h.channels channel = none ∧ h.bridges channel = none))
    (hflushed : Flushed h (.message channel msg)) :
    InOrder { h.forwardOrBuffer channel msg with
      arrived := Function.update h.arrived channel (h.arrived channel ++ [msg]) } channel := by
  cases hb : h.bridges channel with
  | some b =>
    rw [forwardOrBuffer, hb]
    refine ⟨by simp, fun hentry => ?_, fun hb' => ?_⟩
    · rw [(hin.entry hentry).1] at hb
      cases hb
    · simp only [Function.update_self, Option.some.injEq] at hb' ⊢
      rw [← hb']
      exact (hin.bridge hb).send (hflushed b hb) msg
  | none =>
    cases hentry : h.channels channel with
    | none => exact absurd ⟨hentry, hb⟩ hopen
    | some entry =>
      rw [forwardOrBuffer, hb]
      simp only [hentry]
      refine ⟨by simp, fun hentry' => ⟨hb, ?_⟩, fun hb' => ?_⟩
      · simp only [Function.update_self, Option.some.injEq] at hentry' ⊢
        rw [← hentry', (hin.entry hentry).2]
      · rw [hb] at hb'
        cases hb'

lemma startSession {entry : ChannelEntry} (hentry : h.channels channel = some entry) :
    InOrder { h with
      channels := Function.update h.channels channel none
      bridges := Function.update h.bridges channel (some (spawnBridge entry)) } channel where
  unused _ hnone := by simp at hnone
  entry hentry' := by simp at hentry'
  bridge hb _ := by
    simp only [Function.update_self, Option.some.injEq] at hb
    rw [← hb]
    exact (hin.entry hentry).2

lemma step_bridge {b b' : Bridge} {e : BridgeEvent} (hb : h.bridges channel = some b)
    (hstep : b.step e = some b') :
    InOrder { h with bridges := Function.update h.bridges channel (some b') } channel where
  unused _ hnone := by simp at hnone
  entry hentry := by
    rw [(hin.entry hentry).1] at hb
    cases hb
  bridge hb' := by
    simp only [Function.update_self, Option.some.injEq] at hb'
    rw [← hb']
    exact (hin.bridge hb).step hstep

end InOrder

/-- **The order is kept on every channel.** -/
theorem InOrder.step {e : Event} (hin : ∀ channel, InOrder h channel) (hflushed : Flushed h e)
    (hstep : h.step e = some h') (channel : ChannelId) : InOrder h' channel := by
  cases e with
  | authPublickey user =>
    cases hstep
    exact (hin channel).of_eq rfl rfl rfl
  | channelOpenSession opened =>
    simp only [Handler.step] at hstep
    split_ifs at hstep with hnew
    cases hstep
    by_cases hsame : channel = opened
    · subst hsame
      exact (hin channel).channelOpenSession hnew.1 hnew.2
    · exact (hin channel).of_eq (Function.update_of_ne hsame _ _) rfl rfl
  | message on msg =>
    simp only [Handler.step] at hstep
    split_ifs at hstep with hopen
    cases hstep
    by_cases hsame : channel = on
    · subst hsame
      exact (hin channel).message hopen hflushed
    · refine (hin channel).of_eq ?_ ?_ (Function.update_of_ne hsame _ _)
      all_goals
        unfold forwardOrBuffer
        split
        · simp [Function.update_of_ne hsame]
        · split <;> simp [Function.update_of_ne hsame]
  | startSession started =>
    cases hstep
    unfold Handler.startSession
    split
    · by_cases hsame : channel = started
      · subst hsame
        exact (hin channel).startSession ‹_›
      · exact (hin channel).of_eq (Function.update_of_ne hsame _ _)
          (Function.update_of_ne hsame _ _) rfl
    · exact hin channel
  | bridge moved e =>
    obtain ⟨b, hb, hstep⟩ := Option.bind_eq_some_iff.1 hstep
    obtain ⟨b', hb', hstep⟩ := Option.bind_eq_some_iff.1 hstep
    cases hstep
    by_cases hsame : channel = moved
    · subst hsame
      exact (hin channel).step_bridge hb hb'
    · exact (hin channel).of_eq rfl (Function.update_of_ne hsame _ _) rfl

lemma inOrder_new (channel : ChannelId) : InOrder new channel := ⟨fun _ _ => rfl, nofun, nofun⟩

/-- What a bridge can do by itself the handler can let it do. -/
lemma leads_bridge {b b' : Bridge} (hb : h.bridges channel = some b)
    (hlead : Leads Bridge.step (fun _ _ => True) b b') :
    ∃ h', Leads Handler.step Flushed h h' ∧ h'.bridges channel = some b' ∧
      h'.arrived = h.arrived := by
  obtain ⟨es, -, hrun⟩ := hlead
  induction es generalizing h b with
  | nil =>
    cases hrun
    exact ⟨h, .refl h, hb, rfl⟩
  | cons e es ih =>
    obtain ⟨b₁, hb₁, hrest⟩ := Option.bind_eq_some_iff.1 hrun
    obtain ⟨h', hlead, hb', harrived⟩ := ih
      (h := { h with bridges := Function.update h.bridges channel (some b₁) })
      (Function.update_self ..) hrest
    have hstep : h.step (.bridge channel e) =
        some { h with bridges := Function.update h.bridges channel (some b₁) } := by
      simp [Handler.step, hb, hb₁]
    exact ⟨h', hlead.head (e := .bridge channel e) trivial hstep, hb', harrived⟩

/-- **The proxy keeps the order of messages** in every run in which none comes on a channel while
earlier ones of it are still being flushed: what the uplink of a bridge has received, and then what
waits for it, is what has come; and the uplink gets to receive all of it. -/
theorem proxy_keeps_order {events : List Event} (hmeets : Meets step Flushed new events)
    (hrun : run step new events = some h) {b : Bridge} (hb : h.bridges channel = some b)
    (htask : b.task ≠ .failed) :
    b.received ++ b.queue ++ b.flushing = h.arrived channel ∧
      ∃ h' b', Leads step Flushed h h' ∧ h'.bridges channel = some b' ∧ b'.task = .uplink ∧
        h'.arrived = h.arrived ∧ b'.received = h.arrived channel := by
  have hin : ∀ channel, InOrder h channel :=
    run_invariant (I := fun h => ∀ channel, InOrder h channel) InOrder.step inOrder_new hmeets hrun
  have hholds := (hin channel).bridge hb
  obtain ⟨b', hlead, htask', hreceived⟩ := hholds.leads htask
  obtain ⟨h', hlead', hb', harrived⟩ := leads_bridge hb hlead
  exact ⟨hholds htask, h', b', hlead', hb', htask', harrived, hreceived⟩

/-- Two messages come before the request, and one when they have been flushed. -/
def patient : List Event :=
  [.authPublickey "node", .channelOpenSession 0, .message 0 (.data (ascii "a")),
    .message 0 (.resize 80 24), .startSession 0, .bridge 0 .flush, .bridge 0 .opened,
    .bridge 0 .receive, .bridge 0 .flush, .message 0 .eof]

theorem proxy_keeps_order_patient : ∃ h b, run step new patient = some h ∧
    h.bridges 0 = some b ∧
    b.received ++ b.queue ++ b.flushing = [.data (ascii "a"), .resize 80 24, .eof] := by
  have hsome : ((run step new patient).bind fun h => (h.bridges 0).map fun b =>
      (b.task, h.arrived 0)) =
      some (.uplink, [.data (ascii "a"), .resize 80 24, .eof]) := by decide +kernel
  obtain ⟨h, hrun, hs⟩ := Option.bind_eq_some_iff.1 hsome
  obtain ⟨b, hb, hs⟩ := Option.map_eq_some_iff.1 hs
  obtain ⟨htask, harrived⟩ := Prod.mk.inj hs
  refine ⟨h, b, hrun, hb, ?_⟩
  rw [(proxy_keeps_order (by decide +kernel) hrun hb (by simp [htask])).1, harrived]

/-- The second message comes before the first has been flushed. -/
def hurried : List Event :=
  [.authPublickey "node", .channelOpenSession 0, .message 0 (.data (ascii "a")),
    .startSession 0, .message 0 (.data (ascii "b")), .bridge 0 .flush, .bridge 0 .opened,
    .bridge 0 .receive, .bridge 0 .receive]

/-- The uplink receives them the other way round. -/
theorem proxy_loses_order :
    ((run step new hurried).bind fun h => (h.bridges 0).map fun b => (b.received, h.arrived 0)) =
      some ([.data (ascii "b"), .data (ascii "a")],
        [.data (ascii "a"), .data (ascii "b")]) := by
  decide +kernel

end Handler

end CrossHostOps.ProxyBridge
