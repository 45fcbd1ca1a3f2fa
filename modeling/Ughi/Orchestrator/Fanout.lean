import Mathlib.Logic.Function.Basic
import Ughi.Lib.Channel
import Ughi.Lib.Run
import Ughi.Orchestrator.Tree

/-!
# Fan-out of tree events

The tree hands every subscriber a buffered channel of its own.  A broadcast
offers its event to the channel of each subscriber without waiting for any of
them, and an unsubscription closes the channel it takes off the list.  The
subscriber lock makes each of these one step, and a receive is one step of its
channel.

`Window` reads off the calls of a run alone which events a subscriber was
offered: those broadcast from its subscription to its unsubscription.
-/

namespace Ughi.Orchestrator

open Ughi.Lib

abbrev EventChannel : Type := Channel TreeEvent 64

/-- The channels made so far are those below `made`; any other address stands
for a channel of another origin. -/
structure EventBus where
  made : Nat
  channels : Nat → EventChannel
  subscribers : List Nat

namespace EventBus

def new : EventBus :=
  { made := 0
    channels := fun _ => Channel.make TreeEvent 64
    subscribers := [] }

def subscribe (bus : EventBus) : Nat × EventBus :=
  (bus.made,
    { made := bus.made + 1
      channels := Function.update bus.channels bus.made
        (Channel.make TreeEvent 64)
      subscribers := bus.subscribers ++ [bus.made] })

def unsubscribe (ch : Nat) (bus : EventBus) :
    Except ChannelPanic EventBus :=
  if ch ∈ bus.subscribers then do
    let closed ← (bus.channels ch).close
    return { bus with
      channels := Function.update bus.channels ch closed
      subscribers := bus.subscribers.erase ch }
  else return bus

/-- Offer the event to one subscriber. -/
def offer (event : TreeEvent) (channels : Nat → EventChannel) (ch : Nat) :
    Except ChannelPanic (Nat → EventChannel) := do
  let sent ← (channels ch).trySend event
  return Function.update channels ch sent

def broadcast (event : TreeEvent) (bus : EventBus) :
    Except ChannelPanic EventBus := do
  let channels ← bus.subscribers.foldlM (offer event) bus.channels
  return { bus with channels := channels }

def receive (ch : Nat) (bus : EventBus) : Receipt TreeEvent × EventBus :=
  let received := (bus.channels ch).receive
  (received.1,
    { bus with channels := Function.update bus.channels ch received.2 })

inductive Call where
  | subscribe
  | unsubscribe (ch : Nat)
  | broadcast (event : TreeEvent)
  | receive (ch : Nat)
deriving DecidableEq, Repr

/-- The bus, and what has been received from each channel. -/
structure Session where
  bus : EventBus
  received : Nat → List TreeEvent

def Session.start : Session :=
  { bus := new
    received := fun _ => [] }

def serve (session : Session) : Call → Except ChannelPanic Session
  | .subscribe => return { session with bus := session.bus.subscribe.2 }
  | .unsubscribe ch => do
      let bus ← session.bus.unsubscribe ch
      return { session with bus := bus }
  | .broadcast event => do
      let bus ← session.bus.broadcast event
      return { session with bus := bus }
  | .receive ch =>
      let answer := session.bus.receive ch
      return {
        bus := answer.2
        received := Function.update session.received ch
          (session.received ch ++ answer.1.items) }

/-- A channel as the calls of a run tell of it: whether it is subscribed, and
the events broadcast while it was. -/
structure Window where
  made : Nat
  subscribed : Bool
  offered : List TreeEvent
deriving DecidableEq, Repr

def Window.after (ch : Nat) (window : Window) : Call → Window
  | .subscribe =>
      { window with
        made := window.made + 1
        subscribed := window.subscribed || window.made == ch }
  | .unsubscribe other =>
      { window with subscribed := window.subscribed && other != ch }
  | .broadcast event =>
      { window with
        offered :=
          if window.subscribed then window.offered ++ [event]
          else window.offered }
  | .receive _ => window

def window (ch : Nat) (calls : List Call) : Window :=
  runCalls (Window.after ch)
    { made := 0
      subscribed := false
      offered := [] } calls

/-- The subscribers are the channels the calls subscribed, each of them open,
and nothing has come out of a channel or waits in it but what it was
offered. -/
structure Linked (calls : List Call) (session : Session) : Prop where
  made : ∀ ch, (window ch calls).made = session.bus.made
  distinct : session.bus.subscribers.Nodup
  below : ∀ ch ∈ session.bus.subscribers, ch < session.bus.made
  subscribed : ∀ ch,
    ch ∈ session.bus.subscribers ↔ (window ch calls).subscribed = true
  isOpen : ∀ ch ∈ session.bus.subscribers,
    (session.bus.channels ch).closed = false
  inOrder : ∀ ch,
    (session.received ch ++ (session.bus.channels ch).buffer).Sublist
      (window ch calls).offered

@[simp] theorem window_append (ch : Nat) (calls : List Call) (call : Call) :
    window ch (calls ++ [call]) = (window ch calls).after ch call := by
  simp [window]

theorem linked_start : Linked [] Session.start where
  made := fun _ => rfl
  distinct := List.nodup_nil
  below := by simp [Session.start, new]
  subscribed := by simp [Session.start, new, window]
  isOpen := by simp [Session.start, new]
  inOrder := by simp [Session.start, new, window]

theorem foldlM_offer {event : TreeEvent} {subscribers : List Nat}
    {channels : Nat → EventChannel} (distinct : subscribers.Nodup)
    (isOpen : ∀ ch ∈ subscribers, (channels ch).closed = false) :
    subscribers.foldlM (offer event) channels =
      .ok fun ch =>
        if ch ∈ subscribers then (channels ch).enqueue event
        else channels ch := by
  induction subscribers generalizing channels with
  | nil => simp [pure, Except.pure]
  | cons first rest induction =>
      obtain ⟨notInRest, restDistinct⟩ := List.nodup_cons.mp distinct
      have firstOpen : (channels first).closed = false :=
        isOpen first List.mem_cons_self
      have offered : offer event channels first =
          .ok (Function.update channels first
            ((channels first).enqueue event)) := by
        rw [offer, Channel.trySend_of_open firstOpen]
        rfl
      have restOpen : ∀ ch ∈ rest,
          (Function.update channels first
            ((channels first).enqueue event) ch).closed = false := by
        intro ch member
        have other : ch ≠ first := by
          intro same
          exact notInRest (same ▸ member)
        rw [Function.update_of_ne other]
        exact isOpen ch (List.mem_cons_of_mem first member)
      rw [List.foldlM_cons, offered]
      change rest.foldlM (offer event) _ = _
      rw [induction restDistinct restOpen]
      congr 1
      funext ch
      by_cases same : ch = first
      · subst same
        simp [notInRest]
      · simp [same]

/-- The bus a broadcast leaves when no subscribed channel is closed. -/
def offered (event : TreeEvent) (bus : EventBus) : EventBus :=
  { bus with
    channels := fun ch =>
      if ch ∈ bus.subscribers then (bus.channels ch).enqueue event
      else bus.channels ch }

/-- The bus without a subscriber whose channel was open. -/
def withdrawn (ch : Nat) (bus : EventBus) : EventBus :=
  { bus with
    channels := Function.update bus.channels ch
      { bus.channels ch with closed := true }
    subscribers := bus.subscribers.erase ch }

theorem serve_broadcast {calls : List Call} {session : Session}
    (linked : Linked calls session) (event : TreeEvent) :
    serve session (.broadcast event) =
      .ok { session with bus := session.bus.offered event } := by
  rw [serve, broadcast, foldlM_offer linked.distinct linked.isOpen]
  rfl

theorem serve_unsubscribe {calls : List Call} {session : Session}
    (linked : Linked calls session) {ch : Nat}
    (member : ch ∈ session.bus.subscribers) :
    serve session (.unsubscribe ch) =
      .ok { session with bus := session.bus.withdrawn ch } := by
  rw [serve, unsubscribe, if_pos member,
    Channel.close_of_open (linked.isOpen ch member)]
  rfl

theorem linked_broadcast {calls : List Call} {session : Session}
    (linked : Linked calls session) (event : TreeEvent) :
    ∃ next, serve session (.broadcast event) = .ok next ∧
      Linked (calls ++ [.broadcast event]) next := by
  refine ⟨_, serve_broadcast linked event, ?_⟩
  constructor
  case made =>
    intro ch
    simpa [Window.after, offered] using linked.made ch
  case distinct => exact linked.distinct
  case below => exact linked.below
  case subscribed =>
    intro ch
    simpa [Window.after, offered] using linked.subscribed ch
  case isOpen =>
    intro ch member
    have listed : ch ∈ session.bus.subscribers := member
    simpa [offered, listed] using linked.isOpen ch listed
  case inOrder =>
    intro ch
    have before := linked.inOrder ch
    have agree := linked.subscribed ch
    by_cases member : ch ∈ session.bus.subscribers
    · have listening := agree.mp member
      simp only [window_append, Window.after, listening, if_true,
        offered, if_pos member]
      rcases Channel.buffer_enqueue_cases event
        (session.bus.channels ch) with ⟨_, held⟩ | ⟨_, held⟩
      · rw [held, ← List.append_assoc]
        exact before.append (List.Sublist.refl [event])
      · rw [held]
        exact before.trans (List.sublist_append_left _ _)
    · have silent : (window ch calls).subscribed = false := by
        simpa [member] using agree
      simpa [Window.after, silent, offered, member] using before

theorem linked_subscribe {calls : List Call} {session : Session}
    (linked : Linked calls session) :
    ∃ next, serve session .subscribe = .ok next ∧
      Linked (calls ++ [.subscribe]) next := by
  refine ⟨_, rfl, ?_⟩
  have unlisted : session.bus.made ∉ session.bus.subscribers := by
    intro member
    exact absurd (linked.below _ member) (Nat.lt_irrefl _)
  constructor
  case made =>
    intro ch
    simp [Window.after, subscribe, linked.made ch]
  case distinct =>
    have longer := List.Nodup.concat unlisted linked.distinct
    rwa [List.concat_eq_append] at longer
  case below =>
    intro ch member
    have cases := List.mem_append.mp member
    rw [List.mem_singleton] at cases
    rcases cases with earlier | rfl
    · exact Nat.lt_succ_of_lt (linked.below ch earlier)
    · exact Nat.lt_succ_self _
  case subscribed =>
    intro ch
    have agree := linked.subscribed ch
    change ch ∈ session.bus.subscribers ++ [session.bus.made] ↔ _
    rw [List.mem_append, List.mem_singleton, agree, window_append,
      Window.after, linked.made ch, Bool.or_eq_true, beq_iff_eq]
    exact or_congr_right eq_comm
  case isOpen =>
    intro ch member
    by_cases same : ch = session.bus.made
    · simp [subscribe, same]
    · have earlier : ch ∈ session.bus.subscribers := by
        simpa [subscribe, same] using member
      simpa [subscribe, same] using linked.isOpen ch earlier
  case inOrder =>
    intro ch
    have before := linked.inOrder ch
    by_cases same : ch = session.bus.made
    · subst same
      have received := (List.sublist_append_left _ _).trans before
      simpa [Window.after, subscribe] using received
    · simpa [Window.after, subscribe, same] using before

theorem linked_unsubscribe {calls : List Call} {session : Session}
    (linked : Linked calls session) (ch : Nat) :
    ∃ next, serve session (.unsubscribe ch) = .ok next ∧
      Linked (calls ++ [.unsubscribe ch]) next := by
  by_cases member : ch ∈ session.bus.subscribers
  · refine ⟨_, serve_unsubscribe linked member, ?_⟩
    constructor
    case made =>
      intro other
      simpa [Window.after, withdrawn] using linked.made other
    case distinct => exact linked.distinct.erase ch
    case below =>
      intro other remains
      exact linked.below other (List.mem_of_mem_erase remains)
    case subscribed =>
      intro other
      have agree := linked.subscribed other
      change other ∈ session.bus.subscribers.erase ch ↔ _
      rw [linked.distinct.mem_erase_iff, agree, window_append,
        Window.after, Bool.and_eq_true, bne_iff_ne, and_comm,
        ne_comm]
    case isOpen =>
      intro other remains
      have kept := linked.distinct.mem_erase_iff.mp remains
      simpa [withdrawn, kept.1] using linked.isOpen other kept.2
    case inOrder =>
      intro other
      have before := linked.inOrder other
      by_cases same : other = ch
      · subst same
        simpa [Window.after, withdrawn] using before
      · simpa [Window.after, withdrawn, same] using before
  · refine ⟨session, ?_, ?_⟩
    · rw [serve, unsubscribe, if_neg member]
      rfl
    · constructor
      case made =>
        intro other
        simpa [Window.after] using linked.made other
      case distinct => exact linked.distinct
      case below => exact linked.below
      case subscribed =>
        intro other
        have agree := linked.subscribed other
        by_cases same : other = ch
        · subst same
          simp [Window.after, member]
        · simp [Window.after, agree, Ne.symm same]
      case isOpen => exact linked.isOpen
      case inOrder =>
        intro other
        simpa [Window.after] using linked.inOrder other

theorem linked_receive {calls : List Call} {session : Session}
    (linked : Linked calls session) (ch : Nat) :
    ∃ next, serve session (.receive ch) = .ok next ∧
      Linked (calls ++ [.receive ch]) next := by
  refine ⟨_, rfl, ?_⟩
  constructor
  case made =>
    intro other
    simpa [Window.after, receive] using linked.made other
  case distinct => exact linked.distinct
  case below => exact linked.below
  case subscribed =>
    intro other
    simpa [Window.after, receive] using linked.subscribed other
  case isOpen =>
    intro other member
    have isOpen := linked.isOpen other member
    by_cases same : other = ch
    · subst same
      simpa [receive, Channel.receive] using isOpen
    · simpa [receive, same] using isOpen
  case inOrder =>
    intro other
    have before := linked.inOrder other
    by_cases same : other = ch
    · subst same
      have split :=
        Channel.items_receipt_append (session.bus.channels other)
      simpa [Window.after, receive, Channel.receive, split] using before
    · simpa [Window.after, receive, same] using before

theorem linked_serve (calls : List Call) (session : Session) (call : Call)
    (linked : Linked calls session) :
    ∃ next, serve session call = .ok next ∧
      Linked (calls ++ [call]) next := by
  cases call with
  | subscribe => exact linked_subscribe linked
  | unsubscribe ch => exact linked_unsubscribe linked ch
  | broadcast event => exact linked_broadcast linked event
  | receive ch => exact linked_receive linked ch

/-- What a broadcast does to the buffer of a subscriber. -/
def Offers (event : TreeEvent) (before after : List TreeEvent) : Prop :=
  (before.length < 64 ∧ after = before ++ [event]) ∨
    (before.length = 64 ∧ after = before)

theorem offers_broadcast {calls : List Call} {session : Session}
    (linked : Linked calls session) (event : TreeEvent) :
    ∃ next, serve session (.broadcast event) = .ok next ∧
      ∀ ch, (window ch calls).subscribed = true →
        Offers event (session.bus.channels ch).buffer
          (next.bus.channels ch).buffer := by
  refine ⟨_, serve_broadcast linked event, ?_⟩
  intro ch subscribed
  have member := (linked.subscribed ch).mpr subscribed
  simp only [EventBus.offered, if_pos member]
  exact Channel.buffer_enqueue_cases event (session.bus.channels ch)

/-- No run sends on a closed channel or closes one twice.  After it every
channel has given out a part, in order, of what was broadcast while it was
subscribed, holds at most 64 events, and is passed over by the next broadcast
only when it holds 64. -/
theorem fanOut_run (calls : List Call) :
    ∃ session, runFallible serve Session.start calls = .ok session ∧
      (∀ ch, (session.received ch).Sublist (window ch calls).offered) ∧
      (∀ ch, (session.bus.channels ch).buffer.length ≤ 64) ∧
      ∀ event, ∃ next, serve session (.broadcast event) = .ok next ∧
        ∀ ch, (window ch calls).subscribed = true →
          Offers event (session.bus.channels ch).buffer
            (next.bus.channels ch).buffer := by
  obtain ⟨session, reached, linked⟩ :=
    exists_runFallible linked_start linked_serve calls
  refine ⟨session, reached, ?_, ?_, ?_⟩
  · intro ch
    exact (List.sublist_append_left _ _).trans (linked.inOrder ch)
  · intro ch
    exact (session.bus.channels ch).bounded
  · exact offers_broadcast linked

end EventBus

end Ughi.Orchestrator
