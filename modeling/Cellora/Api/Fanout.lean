/-
# Fan-out of events

The events the API hears of go into one broadcast channel.  Each GraphQL subscription and the
dispatcher of webhooks has a receiver of its own there, and each reads at its own pace.  The
dispatcher goes on when it is told that it has missed events.  A subscription takes that for
the end of the channel: its stream ends, although events are sent and retained, and agrees
with the dispatcher only as long as the client is never late.
-/
import Cellora.Api.Delivery
import Cellora.Lib.Broadcast

namespace Cellora

namespace Api

open Broadcast

/-! ### The channel and its consumers -/

/-- The capacity of `event_tx`.  `channel(1000)` rounds up to a power of two. -/
def AppState.eventCapacity : ℕ := 1024

/-- A subscription, which reads in a loop `while let Ok(event)`. -/
def subscription (capacity : ℕ) (ch : Broadcast.Channel ApiEvent)
    (ms : List (Broadcast.Move ApiEvent)) : Consumer ApiEvent :=
  ch.subscribe.run capacity Recv.isErr ms

/-- The dispatcher, which leaves its loop on `Closed` only. -/
def dispatcher (capacity : ℕ) (ch : Broadcast.Channel ApiEvent)
    (ms : List (Broadcast.Move ApiEvent)) : Consumer ApiEvent :=
  ch.subscribe.run capacity Recv.isClosed ms

/-- `load_webhooks`. -/
def loadWebhooks (eventType : String) (rows : List Webhook) : List Webhook :=
  rows.filter fun w => w.events.contains eventType

/-- `run_webhook_dispatcher`, on what `rx.recv()` returns one after the other, each with the
table `webhooks` if it can be read then: the calls of `dispatch_webhook`. -/
def runWebhookDispatcher : List (Recv ApiEvent × Option (List Webhook)) →
    List (Webhook × ApiEvent)
  | [] => []
  | (.ok event, some rows) :: rx =>
      ((loadWebhooks event.eventType rows).map fun w => (w, event)) ++ runWebhookDispatcher rx
  | (.ok _, none) :: rx => runWebhookDispatcher rx
  | (.closed, _) :: _ => []
  | (.lagged _, _) :: rx => runWebhookDispatcher rx

/-- The dispatcher serves every event it receives before the channel is closed, whatever it
has missed before: each webhook that asks for the event, if the table can be read. -/
lemma mem_runWebhookDispatcher_iff {rx : List (Recv ApiEvent × Option (List Webhook))}
    (hrx : ∀ p ∈ rx, p.1.isClosed = false) {w : Webhook} {event : ApiEvent} :
    (w, event) ∈ runWebhookDispatcher rx ↔
      ∃ rows, (.ok event, some rows) ∈ rx ∧ w ∈ loadWebhooks event.eventType rows := by
  induction rx with
  | nil => simp [runWebhookDispatcher]
  | cons p rx ih =>
      obtain ⟨hp, hrest⟩ := List.forall_mem_cons.1 hrx
      obtain ⟨r, table⟩ := p
      cases r with
      | ok event' =>
          cases table with
          | none => simp [runWebhookDispatcher, ih hrest]
          | some rows =>
              simp only [runWebhookDispatcher, List.mem_append, List.mem_map, ih hrest,
                List.mem_cons, Prod.mk.injEq, Recv.ok.injEq, Option.some.injEq]
              constructor
              · rintro (⟨w', hw, rfl, rfl⟩ | ⟨rows', hmem, hw⟩)
                · exact ⟨rows, .inl ⟨rfl, rfl⟩, hw⟩
                · exact ⟨rows', .inr hmem, hw⟩
              · rintro ⟨rows', ⟨rfl, rfl⟩ | hmem, hw⟩
                · exact .inl ⟨w, hw, rfl, rfl⟩
                · exact .inr ⟨rows', hmem, hw⟩
      | lagged skipped => simp [runWebhookDispatcher, ih hrest]
      | closed => cases hp

/-! ### What a stream yields -/

/-- What `blocks_latest` yields for an event. -/
def blockItem : ApiEvent → Option GraphBlockMinedEvent
  | .blockMined block => some (.ofEvent block)
  | .cellCreated _ => none

/-- What `cells` yields for an event. -/
def cellItem (lockHash : String) : ApiEvent → Option GraphCellCreatedEvent
  | .blockMined _ => none
  | .cellCreated cell => if cell.lockHash = lockHash then some (.ofEvent cell) else none

lemma blocksLatest_map_some (events : List ApiEvent) :
    SubscriptionRoot.blocksLatest (events.map some) = events.filterMap blockItem := by
  induction events with
  | nil => rfl
  | cons event events ih =>
      cases event with
      | blockMined block => simp [SubscriptionRoot.blocksLatest, blockItem, ih]
      | cellCreated cell =>
          simp [SubscriptionRoot.blocksLatest, blockItem, ih, List.filterMap_cons]

lemma cells_map_some (lockHash : String) (events : List ApiEvent) :
    SubscriptionRoot.cells lockHash (events.map some) =
      events.filterMap (cellItem lockHash) := by
  induction events with
  | nil => rfl
  | cons event events ih =>
      cases event with
      | blockMined block => simp [SubscriptionRoot.cells, cellItem, ih, List.filterMap_cons]
      | cellCreated cell =>
          by_cases hlock : cell.lockHash = lockHash
          · simp [SubscriptionRoot.cells, cellItem, hlock, ih]
          · simp [SubscriptionRoot.cells, cellItem, hlock, ih]

/-- A loop that has not ended was handed values only. -/
lemma map_ok_of_not_ended {c : Consumer ApiEvent} (h : ¬ c.Ended Recv.isErr) :
    c.results.map Recv.ok? = c.received.map some := by
  have hall : ∀ r ∈ c.results, r.isErr = false := fun r hr =>
    Bool.eq_false_iff.2 fun herr => h ⟨r, hr, herr⟩
  rw [Consumer.received]
  generalize c.results = results at hall
  induction results with
  | nil => rfl
  | cons r results ih =>
      obtain ⟨hr, hrest⟩ := List.forall_mem_cons.1 hall
      cases r with
      | ok event =>
          rw [List.map_cons, ih hrest]
          rfl
      | lagged skipped => cases hr
      | closed => cases hr

/-! ### Streams that go on -/

/-- While there is a sender, the stream runs on, and has yielded what matches of the events
that the dispatcher receives at the same pace. -/
def KeepsReceiving {β : Type} (yielded : List (Option ApiEvent) → List β)
    (item : ApiEvent → Option β) (capacity : ℕ) (ch : Broadcast.Channel ApiEvent)
    (ms : List (Broadcast.Move ApiEvent)) : Prop :=
  ∀ pre, pre <+: ms → Move.close ∉ pre →
    ¬ (subscription capacity ch pre).Ended Recv.isErr ∧
      yielded ((subscription capacity ch pre).results.map Recv.ok?) =
        (dispatcher capacity ch pre).received.filterMap item

/-- A stream that yields what matches of the values it is handed keeps receiving exactly if
the client is never late. -/
lemma keepsReceiving_iff {β : Type} {yielded : List (Option ApiEvent) → List β}
    {item : ApiEvent → Option β}
    (hyielded : ∀ events : List ApiEvent, yielded (events.map some) = events.filterMap item)
    (capacity : ℕ) (sent : List ApiEvent) (ms : List (Broadcast.Move ApiEvent)) :
    KeepsReceiving yielded item capacity ⟨sent, false⟩ ms ↔ InTime capacity ms := by
  have hopen : (⟨sent, false⟩ : Broadcast.Channel ApiEvent).closed = false := rfl
  rw [← not_ended_iff_inTime hopen ms]
  constructor
  · intro h pre hpre hclose
    exact (h pre hpre hclose).1
  · intro h pre hpre hclose
    have hrun : ¬ (subscription capacity ⟨sent, false⟩ pre).Ended Recv.isErr := h pre hpre hclose
    refine ⟨hrun, ?_⟩
    have hsame : dispatcher capacity ⟨sent, false⟩ pre = subscription capacity ⟨sent, false⟩ pre :=
      Consumer.run_eq_of_not_ended Recv.isErr_of_isClosed _ hrun
    rw [hsame, map_ok_of_not_ended hrun, hyielded]

/-- **Fan-out of events.**  Both streams go on like the dispatcher exactly if no `recv` finds
its subscription more than the capacity behind.  The dispatcher never stops while there is a
sender, and receives every event that is retained when it gets there. -/
theorem subscriptions_keep_receiving_iff (capacity : ℕ) (sent : List ApiEvent)
    (ms : List (Broadcast.Move ApiEvent)) :
    (KeepsReceiving SubscriptionRoot.blocksLatest blockItem capacity ⟨sent, false⟩ ms ↔
        InTime capacity ms) ∧
      (∀ lockHash, KeepsReceiving (SubscriptionRoot.cells lockHash) (cellItem lockHash) capacity
        ⟨sent, false⟩ ms ↔ InTime capacity ms) ∧
      ∀ pre, pre <+: ms → Move.close ∉ pre →
        ¬ (dispatcher capacity ⟨sent, false⟩ pre).Ended Recv.isClosed ∧
          Accounts capacity (dispatcher capacity ⟨sent, false⟩ pre).channel.sent sent.length
            (dispatcher capacity ⟨sent, false⟩ pre).results
            (dispatcher capacity ⟨sent, false⟩ pre).next := by
  refine ⟨keepsReceiving_iff blocksLatest_map_some capacity sent ms,
    fun lockHash => keepsReceiving_iff (cells_map_some lockHash) capacity sent ms, ?_⟩
  intro pre _ hclose
  exact ⟨not_ended_isClosed rfl hclose, accounts_run _ pre⟩

/-- What the dispatcher of a run calls `dispatch_webhook` for: the events it received, with the
webhooks of the table at that time. -/
theorem mem_dispatches_iff {capacity : ℕ} {sent : List ApiEvent}
    {ms : List (Broadcast.Move ApiEvent)} (hms : Move.close ∉ ms)
    (tables : List (Option (List Webhook))) {w : Webhook} {event : ApiEvent} :
    (w, event) ∈ runWebhookDispatcher
        ((dispatcher capacity ⟨sent, false⟩ ms).results.zip tables) ↔
      ∃ rows, (.ok event, some rows) ∈ (dispatcher capacity ⟨sent, false⟩ ms).results.zip tables ∧
        w ∈ loadWebhooks event.eventType rows := by
  have hrun : ¬ (dispatcher capacity ⟨sent, false⟩ ms).Ended Recv.isClosed :=
    not_ended_isClosed rfl hms
  refine mem_runWebhookDispatcher_iff fun p hp => ?_
  have hmem : p.1 ∈ (dispatcher capacity ⟨sent, false⟩ ms).results := (List.of_mem_zip hp).1
  exact Bool.eq_false_iff.2 fun h => hrun ⟨p.1, hmem, h⟩

/-! ### A client that is late once -/

namespace FanoutSample

/-- A block. -/
def event : ApiEvent := .blockMined ⟨7, "aa", "bb", 0⟩

/-- One more event than the channel retains. -/
def burst : List (Broadcast.Move ApiEvent) :=
  List.replicate (AppState.eventCapacity + 1) (.send event)

/-- Then the client reads twice. -/
def late : List (Broadcast.Move ApiEvent) := burst ++ [.recv] ++ [.recv]

lemma run_replicate_send (capacity : ℕ) (stops : Recv ApiEvent → Bool) (n : ℕ) :
    Consumer.run capacity stops (Broadcast.Channel.subscribe ⟨[], false⟩)
        (List.replicate n (.send event)) =
      ⟨⟨List.replicate n event, false⟩, 0, []⟩ := by
  induction n with
  | zero => rfl
  | succ n ih =>
      rw [List.replicate_succ', Consumer.run_concat, ih, List.replicate_succ']
      rfl

lemma recv_burst (n : ℕ) :
    Broadcast.Channel.recv n ⟨List.replicate (n + 1) event, false⟩ 0 = some (.lagged 1, 1) := by
  simp [Broadcast.Channel.recv]

lemma recv_after_lag {n : ℕ} (hn : 0 < n) :
    Broadcast.Channel.recv n ⟨List.replicate (n + 1) event, false⟩ 1 = some (.ok event, 2) := by
  have hkept : ¬ 1 + n < n + 1 := by omega
  simp only [Broadcast.Channel.recv, List.length_replicate, if_neg hkept, List.getElem?_replicate,
    if_pos (Nat.succ_lt_succ hn)]

/-- After the burst the first `recv` reports the lag, whatever the loop stops at. -/
lemma run_burst_recv (stops : Recv ApiEvent → Bool) :
    Consumer.run AppState.eventCapacity stops (Broadcast.Channel.subscribe ⟨[], false⟩)
        (burst ++ [.recv]) =
      ⟨⟨List.replicate (AppState.eventCapacity + 1) event, false⟩, 1, [.lagged 1]⟩ := by
  rw [Consumer.run_concat, burst, run_replicate_send]
  refine Consumer.exec_recv_of_some _ _ ?_ (recv_burst _)
  rintro ⟨r, hr, -⟩
  exact List.not_mem_nil hr

/-- The subscription has ended then. -/
lemma subscription_late :
    (subscription AppState.eventCapacity ⟨[], false⟩ late).results = [.lagged 1] := by
  rw [subscription, late, Consumer.run_concat, run_burst_recv, Consumer.exec, if_pos]
  exact ⟨.lagged 1, List.mem_cons_self, rfl⟩

/-- The dispatcher receives the oldest event that is retained. -/
lemma dispatcher_late :
    (dispatcher AppState.eventCapacity ⟨[], false⟩ late).results = [.lagged 1, .ok event] := by
  rw [dispatcher, late, Consumer.run_concat, run_burst_recv,
    Consumer.exec_recv_of_some _ _ ?_ (recv_after_lag (by decide))]
  · rfl
  · rintro ⟨r, hr, hstop⟩
    rw [List.mem_singleton.1 hr] at hstop
    cases hstop

end FanoutSample

section Sample

open FanoutSample

/-- With the channel open and an event retained, the stream has ended and yields nothing; the
dispatcher has gone on. -/
theorem late_subscription_ends :
    ¬ KeepsReceiving SubscriptionRoot.blocksLatest blockItem AppState.eventCapacity ⟨[], false⟩
        late ∧
      SubscriptionRoot.blocksLatest
        ((subscription AppState.eventCapacity ⟨[], false⟩ late).results.map Recv.ok?) = [] ∧
      (dispatcher AppState.eventCapacity ⟨[], false⟩ late).received = [event] := by
  have hclose : Move.close ∉ late := by simp [late, burst, List.mem_replicate]
  refine ⟨fun h => ?_, ?_, ?_⟩
  · obtain ⟨hrun, -⟩ := h late (List.prefix_refl _) hclose
    refine hrun ⟨.lagged 1, ?_, rfl⟩
    rw [subscription_late]
    exact List.mem_cons_self
  · rw [subscription_late]
    rfl
  · rw [Consumer.received, dispatcher_late]
    rfl

end Sample

end Api

end Cellora
