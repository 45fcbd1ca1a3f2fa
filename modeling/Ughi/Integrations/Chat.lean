import Ughi.Lib.EvictingQueue
import Ughi.Lib.Run
import Ughi.Lib.Vec

/-!
# Chat bridges

A hub sends and receives messages over the bridges registered with it.  What
was sent and what was received is kept in two queues that evict their oldest
messages.  Clock readings are milliseconds.
-/

namespace Ughi.Integrations

open Ughi.Lib

/-- Maximum inbox/outbox size. -/
def maxQueueSize : Nat :=
  1024

inductive ChatPlatform where
  | whatsApp
  | telegram
  | discord
  | slack
  | signal
  | matrix
  | iMessage
deriving DecidableEq, Repr

def ChatPlatform.display : ChatPlatform → String
  | .whatsApp => "WhatsApp"
  | .telegram => "Telegram"
  | .discord => "Discord"
  | .slack => "Slack"
  | .signal => "Signal"
  | .matrix => "Matrix"
  | .iMessage => "iMessage"

/-- Secret wrapper. -/
structure Secret where
  value : String

structure ChatBridge where
  platform : ChatPlatform
  webhookUrl : String
  apiToken : Secret
  enabled : Bool
  messagesSent : UInt64
  messagesReceived : UInt64

def ChatBridge.new (platform : ChatPlatform) (webhookUrl apiToken : String) :
    ChatBridge :=
  { platform
    webhookUrl
    apiToken := { value := apiToken }
    enabled := true
    messagesSent := 0
    messagesReceived := 0 }

/-- What a send looks for. -/
def ChatBridge.route (bridge : ChatBridge) : ChatPlatform × Bool :=
  (bridge.platform, bridge.enabled)

structure ChatMessage where
  platform : ChatPlatform
  sender : String
  content : String
  timestampMs : UInt64
  isCommand : Bool
deriving DecidableEq, Repr

/-- A message to a platform. -/
def ChatMessage.sent (platform : ChatPlatform) (content : String)
    (now : UInt64) : ChatMessage :=
  { platform
    sender := "UGHI"
    content
    timestampMs := now
    isCommand := false }

/-- A message from a platform; commands begin in one of two ways. -/
def ChatMessage.received (platform : ChatPlatform) (sender content : String)
    (now : UInt64) : ChatMessage :=
  { platform
    sender
    content
    timestampMs := now
    isCommand :=
      "/".toList.isPrefixOf content.toList ||
        "UGHI ".toList.isPrefixOf content.toList }

/-- Unified chat hub managing all platform bridges. -/
structure ChatHub where
  bridges : List ChatBridge
  inbox : List ChatMessage
  outbox : List ChatMessage

/-- Evict oldest if at capacity. -/
def enqueue (queue : List ChatMessage) (message : ChatMessage) :
    List ChatMessage :=
  evictingPush maxQueueSize (maxQueueSize / 4) queue message

namespace ChatHub

def new : ChatHub :=
  { bridges := []
    inbox := []
    outbox := [] }

/-- Register a chat platform bridge. -/
def register (hub : ChatHub) (bridge : ChatBridge) : ChatHub :=
  { hub with bridges := hub.bridges ++ [bridge] }

/-- Send a message to a platform. -/
def send (hub : ChatHub) (platform : ChatPlatform) (content : String)
    (now : UInt64) : Except String Unit × ChatHub :=
  match hub.bridges.findIdx? fun b =>
      decide (b.platform = platform) && b.enabled with
  | none => (.error (platform.display ++ " bridge not configured"), hub)
  | some index =>
      (.ok (),
        { hub with
          bridges := hub.bridges.modify index fun bridge =>
            { bridge with messagesSent := bridge.messagesSent + 1 }
          outbox := enqueue hub.outbox (.sent platform content now) })

/-- Receive/queue a message from a platform. -/
def receive (hub : ChatHub) (platform : ChatPlatform)
    (sender content : String) (now : UInt64) : ChatHub :=
  let bridges :=
    match hub.bridges.findIdx? fun b => decide (b.platform = platform) with
    | none => hub.bridges
    | some index =>
        hub.bridges.modify index fun bridge =>
          { bridge with messagesReceived := bridge.messagesReceived + 1 }
  { hub with
    bridges
    inbox := enqueue hub.inbox (.received platform sender content now) }

/-- Get pending commands from inbox. -/
def pendingCommands (hub : ChatHub) : List ChatMessage :=
  hub.inbox.filter ChatMessage.isCommand

/-- The platforms of all enabled bridges, each with its turn. -/
def enabledPlatforms (hub : ChatHub) : List (ChatPlatform × Nat) :=
  let platforms := (hub.bridges.filter ChatBridge.enabled).map
    ChatBridge.platform
  platforms.zipIdx

/-- Broadcast to all enabled platforms.  The clock is read at every turn, and
the results are ignored. -/
def broadcast (hub : ChatHub) (content : String) (times : Nat → UInt64) :
    ChatHub :=
  hub.enabledPlatforms.foldl
    (fun hub target => (hub.send target.1 content (times target.2)).2) hub

/-- One operation on the hub. -/
inductive Call where
  | register (bridge : ChatBridge)
  | send (platform : ChatPlatform) (content : String) (now : UInt64)
  | receive (platform : ChatPlatform) (sender content : String)
      (now : UInt64)
  | broadcast (content : String) (times : Nat → UInt64)

def serve (hub : ChatHub) : Call → ChatHub
  | .register bridge => hub.register bridge
  | .send platform content now => (hub.send platform content now).2
  | .receive platform sender content now =>
      hub.receive platform sender content now
  | .broadcast content times => hub.broadcast content times

/-- An enabled bridge of the platform is registered. -/
def Configured (hub : ChatHub) (platform : ChatPlatform) : Prop :=
  (platform, true) ∈ hub.bridges.map ChatBridge.route

theorem send_ok_iff (hub : ChatHub) (platform : ChatPlatform)
    (content : String) (now : UInt64) :
    (hub.send platform content now).1 = .ok () ↔
      hub.Configured platform := by
  have found_iff : (hub.bridges.findIdx? fun b =>
      decide (b.platform = platform) && b.enabled) ≠ none ↔
        hub.Configured platform := by
    simp [Configured, ChatBridge.route, List.findIdx?_eq_none_iff]
  rw [← found_iff, send]
  split
  next missing => simp [missing]
  next index found => simp [found]

theorem configured_send (hub : ChatHub) (platform other : ChatPlatform)
    (content : String) (now : UInt64) :
    (hub.send platform content now).2.Configured other ↔
      hub.Configured other := by
  rw [send]
  split
  next missing => exact Iff.rfl
  next index found =>
    have kept : ∀ bridge : ChatBridge,
        ChatBridge.route
            { bridge with messagesSent := bridge.messagesSent + 1 } =
          bridge.route := by
      intro bridge
      rfl
    rw [Configured, map_modify_of_kept kept, Configured]

theorem configured_of_mem {hub : ChatHub} {target : ChatPlatform × Nat}
    (member : target ∈ hub.enabledPlatforms) :
    hub.Configured target.1 := by
  obtain ⟨bridge, kept, same⟩ :=
    List.mem_map.mp (List.fst_mem_of_mem_zipIdx member)
  obtain ⟨registered, enabled⟩ := List.mem_filter.mp kept
  apply List.mem_map.mpr
  exact ⟨bridge, registered, Prod.ext same enabled⟩

/-- A hub with everything received and everything successfully sent. -/
structure Logged where
  hub : ChatHub
  received : List ChatMessage
  sent : List ChatMessage

namespace Logged

def new : Logged :=
  { hub := ChatHub.new
    received := []
    sent := [] }

/-- A send is logged when it succeeds. -/
def send (logged : Logged) (platform : ChatPlatform) (content : String)
    (now : UInt64) : Logged :=
  let answer := logged.hub.send platform content now
  { logged with
    hub := answer.2
    sent :=
      match answer.1 with
      | .ok () => logged.sent ++ [.sent platform content now]
      | .error _ => logged.sent }

def receive (logged : Logged) (platform : ChatPlatform)
    (sender content : String) (now : UInt64) : Logged :=
  { logged with
    hub := logged.hub.receive platform sender content now
    received := logged.received ++ [.received platform sender content now] }

/-- The sends of a broadcast, one after the other. -/
def broadcast (logged : Logged) (content : String) (times : Nat → UInt64) :
    Logged :=
  logged.hub.enabledPlatforms.foldl
    (fun logged target => logged.send target.1 content (times target.2))
    logged

def serve (logged : Logged) : Call → Logged
  | .register bridge => { logged with hub := logged.hub.register bridge }
  | .send platform content now => logged.send platform content now
  | .receive platform sender content now =>
      logged.receive platform sender content now
  | .broadcast content times => logged.broadcast content times

theorem hub_broadcast (logged : Logged) (content : String)
    (times : Nat → UInt64) :
    (logged.broadcast content times).hub =
      logged.hub.broadcast content times := by
  symm
  exact List.foldl_hom hub fun _ _ => rfl

theorem hub_serve (logged : Logged) (call : Call) :
    (logged.serve call).hub = logged.hub.serve call := by
  cases call with
  | register bridge => rfl
  | send platform content now => rfl
  | receive platform sender content now => rfl
  | broadcast content times => exact hub_broadcast logged content times

theorem hub_run (calls : List Call) :
    (runCalls serve new calls).hub =
      runCalls ChatHub.serve ChatHub.new calls :=
  view_runCalls hub_serve new calls

theorem sent_send {logged : Logged} {platform : ChatPlatform}
    (configured : logged.hub.Configured platform) (content : String)
    (now : UInt64) :
    (logged.send platform content now).sent =
      logged.sent ++ [.sent platform content now] := by
  have ok := (logged.hub.send_ok_iff platform content now).mpr configured
  simp only [send, ok]

theorem sent_foldl_send {targets : List (ChatPlatform × Nat)}
    {content : String} {times : Nat → UInt64} {logged : Logged}
    (configured : ∀ target ∈ targets, logged.hub.Configured target.1) :
    (targets.foldl
        (fun logged target =>
          logged.send target.1 content (times target.2))
        logged).sent =
      logged.sent ++ targets.map fun target =>
        .sent target.1 content (times target.2) := by
  induction targets generalizing logged with
  | nil => simp
  | cons target targets induction =>
      obtain ⟨now, later⟩ := List.forall_mem_cons.mp configured
      have laterConfigured : ∀ other ∈ targets,
          (logged.send target.1 content (times target.2)).hub.Configured
            other.1 := by
        intro other member
        apply (configured_send _ _ _ _ _).mpr
        exact later other member
      rw [List.foldl_cons, induction laterConfigured, sent_send now,
        List.map_cons, List.append_assoc, List.singleton_append]

/-- No send of a broadcast fails: it reaches every enabled bridge. -/
theorem sent_broadcast (logged : Logged) (content : String)
    (times : Nat → UInt64) :
    (logged.broadcast content times).sent =
      logged.sent ++ logged.hub.enabledPlatforms.map fun target =>
        .sent target.1 content (times target.2) :=
  sent_foldl_send fun _ member => configured_of_mem member

/-- Inbox and outbox hold the last messages of the two logs. -/
structure Queued (logged : Logged) : Prop where
  inbox : Recent maxQueueSize (maxQueueSize / 4) logged.received
    logged.hub.inbox
  outbox : Recent maxQueueSize (maxQueueSize / 4) logged.sent
    logged.hub.outbox

theorem new_queued : new.Queued where
  inbox := recent_nil
  outbox := recent_nil

theorem Queued.send {logged : Logged} (queued : logged.Queued)
    (platform : ChatPlatform) (content : String) (now : UInt64) :
    (logged.send platform content now).Queued := by
  rw [Logged.send, ChatHub.send]
  split
  next missing =>
    exact queued
  next index found =>
    exact
      { inbox := queued.inbox
        outbox := queued.outbox.push (by decide) (by decide) _ }

theorem Queued.receive {logged : Logged} (queued : logged.Queued)
    (platform : ChatPlatform) (sender content : String) (now : UInt64) :
    (logged.receive platform sender content now).Queued where
  inbox := queued.inbox.push (by decide) (by decide) _
  outbox := queued.outbox

theorem Queued.serve {logged : Logged} (queued : logged.Queued)
    (call : Call) : (logged.serve call).Queued := by
  cases call with
  | register bridge =>
      exact
        { inbox := queued.inbox
          outbox := queued.outbox }
  | send platform content now => exact queued.send platform content now
  | receive platform sender content now =>
      exact queued.receive platform sender content now
  | broadcast content times =>
      refine List.foldlRecOn _ _ queued ?_
      intro logged queued turn _
      exact queued.send turn.1 content (times turn.2)

theorem queued_run (calls : List Call) :
    (runCalls serve new calls).Queued := by
  have kept : ∀ logged call, Queued logged → Queued (serve logged call) := by
    intro logged call queued
    exact queued.serve call
  exact invariant_of_calls kept new_queued calls

/-- After every sequence of operations inbox and outbox are bounded, and are
the last messages received and successfully sent, in order and at least the
last 769 of them. -/
theorem queues_of_run (calls : List Call) :
    let logged := runCalls serve new calls
    let hub := runCalls ChatHub.serve ChatHub.new calls
    (hub.inbox.length ≤ maxQueueSize ∧
        hub.inbox <:+ logged.received ∧
        min 769 logged.received.length ≤ hub.inbox.length ∧
        logged.received.drop (logged.received.length - 769) <:+ hub.inbox) ∧
      hub.outbox.length ≤ maxQueueSize ∧
        hub.outbox <:+ logged.sent ∧
        min 769 logged.sent.length ≤ hub.outbox.length ∧
        logged.sent.drop (logged.sent.length - 769) <:+ hub.outbox := by
  intro logged hub
  have same : logged.hub = hub := hub_run calls
  obtain ⟨inbox, outbox⟩ : logged.Queued := queued_run calls
  rw [same] at inbox outbox
  exact ⟨⟨inbox.bounded, inbox.suffix, inbox.kept, inbox.last_suffix⟩,
    outbox.bounded, outbox.suffix, outbox.kept, outbox.last_suffix⟩

/-- The pending commands are the last of the commands received. -/
theorem pendingCommands_suffix (calls : List Call) :
    (runCalls ChatHub.serve ChatHub.new calls).pendingCommands <:+
      (runCalls serve new calls).received.filter ChatMessage.isCommand := by
  rw [← hub_run]
  exact (queued_run calls).inbox.suffix.filter _

end Logged

end ChatHub

end Ughi.Integrations
