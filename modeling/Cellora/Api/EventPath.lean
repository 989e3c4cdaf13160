/-
# From a commit to a subscriber

The way of an event through the system.  A round of the indexer commits a block and then
publishes one message for the block and one for each of its cells, before it polls again.  A
`PUBLISH` may fail, and reaches the listener of the API only if that has subscribed to the
channel by then; the listener parses what it hears and sends it to the broadcast channel, from
which subscriptions and the dispatcher of webhooks receive at their own pace.  Connections
break, and either process may restart, at any moment; what is under way is then lost.

Whatever happens, what a subscriber receives are events of blocks that had been committed
before, in the order of the commits, and no commit is announced twice.  While nothing fails
nothing is lost either.
-/
import Cellora.Api.Fanout
import Cellora.Indexer.Runs

namespace Cellora

namespace Api

open Indexer
open Broadcast (Recv)

/-! ### The listener -/

/-- Where `run_event_listener` stands. -/
inductive ListenerStage where
  | connecting
  | subscribingBlocks
  | subscribingCells
  | reading
deriving DecidableEq

/-- The channels whose messages reach the listener. -/
def ListenerStage.hears : ListenerStage → Channel → Bool
  | .connecting, _ => false
  | .subscribingBlocks, _ => false
  | .subscribingCells, .blocks => true
  | .subscribingCells, .cells => false
  | .reading, _ => true

/-- The listener: its stage, the backoff for the next failed connection, and the messages
its connection has received and it has not yet read. -/
structure Listener where
  stage : ListenerStage
  backoff : ℕ
  unread : List Message
deriving DecidableEq

namespace Listener

/-- A listener that has just started. -/
def new : Listener := ⟨.connecting, 1, []⟩

/-- The next attempt to connect or to subscribe, and the seconds slept after a failure.  A
connection that is given up takes its messages with it. -/
def attempt (l : Listener) (ok : Bool) : Listener × Option ℕ :=
  match l.stage, ok with
  | .connecting, true => ({ l with stage := .subscribingBlocks, unread := [] }, none)
  | .connecting, false => ({ l with backoff := min (l.backoff * 2) 30 }, some l.backoff)
  | .subscribingBlocks, true => ({ l with stage := .subscribingCells }, none)
  | .subscribingCells, true => ({ l with stage := .reading, backoff := 1 }, none)
  | .subscribingBlocks, false => ({ l with stage := .connecting, unread := [] }, some 1)
  | .subscribingCells, false => ({ l with stage := .connecting, unread := [] }, some 1)
  | .reading, _ => (l, none)

/-- A message is published. -/
def hear (l : Listener) (m : Message) : Listener :=
  if l.stage.hears m.channel then { l with unread := l.unread ++ [m] } else l

/-- The stream ends unexpectedly. -/
def streamEnd (l : Listener) : Listener :=
  match l.stage with
  | .reading => { l with stage := .connecting, unread := [] }
  | _ => l

end Listener

/-! ### The system -/

/-- A receiver of the broadcast channel: its position and what it has received. -/
structure EventReceiver where
  next : ℕ
  received : List ApiEvent
deriving DecidableEq

/-- The indexer, the messages its round still has to publish, the listener of the API, the
channel and its receivers.  The commits that were announced are kept for the statements. -/
structure EventSystem where
  poller : Poller
  outbox : List Message
  listener : Listener
  channel : Broadcast.Channel ApiEvent
  receivers : List EventReceiver
  committed : List (BlockRow × List CellRow)

/-- A move. -/
inductive EventMove where
  /-- A round of the indexer, up to its first `PUBLISH`. -/
  | round (env : StepEnv)
  /-- The next `PUBLISH` of the round. -/
  | publish (delivered : Bool)
  | restartIndexer
  | attempt (ok : Bool)
  /-- The listener takes the next message from its stream. -/
  | read
  | streamEnd
  | restartApi
  /-- A subscription begins, or the dispatcher starts. -/
  | join
  | recv (i : ℕ)

/-- The messages of an effect. -/
def messagesOf (J : EventJson) : Effect → List Message
  | .publishBlockAndCells block cells => publishBlockAndCells J block cells
  | _ => []

/-- The commit an effect announces. -/
def announcedBy : Effect → Option (BlockRow × List CellRow)
  | .publishBlockAndCells block cells => some (block, cells)
  | _ => none

/-- The events of a commit, the block first. -/
def eventsOf (p : BlockRow × List CellRow) : List ApiEvent :=
  .blockMined (blockEvent p.1) :: p.2.map fun cell => .cellCreated (cellEvent cell)

namespace EventSystem

/-- Both processes have just started on an empty database. -/
def start (cfg : Config) : EventSystem := ⟨initial cfg, [], .new, ⟨[], false⟩, [], []⟩

/-- A round of the indexer.  It does not begin while messages of the last one are left. -/
def round (X : CkbLib) (cfg : Config) (J : EventJson) (s : EventSystem) (env : StepEnv) :
    EventSystem :=
  match s.outbox with
  | [] =>
      let effects := (step X cfg env s.poller.nextBlock s.poller.db).effects
      { s with
        poller := exec X cfg s.poller (.step env)
        outbox := effects.flatMap (messagesOf J)
        committed := s.committed ++ effects.filterMap announcedBy }
  | _ :: _ => s

/-- The next `PUBLISH`. -/
def publish (s : EventSystem) (delivered : Bool) : EventSystem :=
  match s.outbox with
  | [] => s
  | m :: rest =>
      { s with outbox := rest, listener := if delivered then s.listener.hear m else s.listener }

/-- The listener reads a message, and sends the event it parses. -/
def read (J : EventJson) (s : EventSystem) : EventSystem :=
  match s.listener.stage, s.listener.unread with
  | .reading, m :: rest =>
      { s with
        listener := { s.listener with unread := rest }
        channel := match listen J m with
          | some event => s.channel.exec (.send event)
          | none => s.channel }
  | _, _ => s

/-- A receiver receives. -/
def recv (s : EventSystem) (i : ℕ) : EventSystem :=
  match s.receivers[i]? with
  | none => s
  | some r =>
      match s.channel.recv AppState.eventCapacity r.next with
      | none => s
      | some (result, next) =>
          { s with receivers :=
            s.receivers.set i ⟨next, r.received ++ result.ok?.toList⟩ }

/-- One move. -/
def exec (X : CkbLib) (cfg : Config) (J : EventJson) (s : EventSystem) : EventMove → EventSystem
  | .round env => s.round X cfg J env
  | .publish delivered => s.publish delivered
  | .restartIndexer =>
      { s with poller := Indexer.exec X cfg s.poller .restart, outbox := [] }
  | .attempt ok => { s with listener := (s.listener.attempt ok).1 }
  | .read => s.read J
  | .streamEnd => { s with listener := s.listener.streamEnd }
  | .restartApi =>
      { s with listener := .new, channel := ⟨[], false⟩, receivers := [] }
  | .join => { s with receivers := s.receivers ++ [⟨s.channel.sent.length, []⟩] }
  | .recv i => s.recv i

/-- The system before the move at a position of a run. -/
def stateAt (X : CkbLib) (cfg : Config) (J : EventJson) (ms : List EventMove) (k : ℕ) :
    EventSystem :=
  Machine.before (exec X cfg J) (start cfg) ms k

end EventSystem

/-! ### What is published -/

/-- What is read from the text of an event is that event. -/
structure RoundTrips (J : EventJson) : Prop where
  block : ∀ {e e' : BlockMinedEvent} {payload : String},
    J.blockToString e = some payload → J.blockFromStr payload = some e' → e' = e
  cell : J.ReadsBack

/-- The events of a commit are written, and read back. -/
structure Carries (J : EventJson) (p : BlockRow × List CellRow) : Prop where
  block : ∃ payload, J.blockToString (blockEvent p.1) = some payload ∧
    J.blockFromStr payload = some (blockEvent p.1)
  cell : ∀ cell ∈ p.2, ∃ payload, J.cellToString (cellEvent cell) = some payload ∧
    J.cellFromStr payload = some (cellEvent cell)

section Messages

variable {J : EventJson}

/-- What the listener makes of the messages of some cells is a part of their events, in
order. -/
lemma cellMessages_sublist (hJ : RoundTrips J) (cells : List CellRow) :
    ((cells.filterMap (cellMessage J)).filterMap (listen J)).Sublist
      (cells.map fun cell => .cellCreated (cellEvent cell)) := by
  induction cells with
  | nil => exact .slnil
  | cons cell cells ih =>
      rw [List.filterMap_cons, List.map_cons]
      cases hpayload : J.cellToString (cellEvent cell) with
      | none =>
          simp only [cellMessage, hpayload, Option.map_none]
          exact ih.cons _
      | some payload =>
          simp only [cellMessage, hpayload, Option.map_some, List.filterMap_cons, listen]
          cases hread : J.cellFromStr payload with
          | none => exact ih.cons _
          | some event =>
              rw [hJ.cell hpayload hread]
              exact ih.cons_cons _

lemma publishBlockAndCells_sublist (hJ : RoundTrips J) (block : BlockRow) (cells : List CellRow) :
    ((publishBlockAndCells J block cells).filterMap (listen J)).Sublist
      (eventsOf (block, cells)) := by
  rw [publishBlockAndCells, eventsOf]
  cases hpayload : J.blockToString (blockEvent block) with
  | none => exact List.nil_sublist _
  | some payload =>
      simp only [List.filterMap_cons, listen]
      cases hread : J.blockFromStr payload with
      | none => exact (cellMessages_sublist hJ cells).cons _
      | some event =>
          rw [hJ.block hpayload hread]
          exact (cellMessages_sublist hJ cells).cons_cons _

/-- What the listener would make of the messages of a round is a part of the events of its
commits. -/
lemma messagesOf_sublist (hJ : RoundTrips J) (effects : List Effect) :
    ((effects.flatMap (messagesOf J)).filterMap (listen J)).Sublist
      ((effects.filterMap announcedBy).flatMap eventsOf) := by
  induction effects with
  | nil => exact .slnil
  | cons effect effects ih =>
      rw [List.flatMap_cons, List.filterMap_append]
      cases effect with
      | publishBlockAndCells block cells =>
          exact (publishBlockAndCells_sublist hJ block cells).append ih
      | _ => exact ih

/-- If all events are carried, it is all of them. -/
lemma messagesOf_eq {effects : List Effect}
    (hcarry : ∀ p ∈ effects.filterMap announcedBy, Carries J p) :
    (effects.flatMap (messagesOf J)).filterMap (listen J) =
      (effects.filterMap announcedBy).flatMap eventsOf := by
  induction effects with
  | nil => rfl
  | cons effect effects ih =>
      rw [List.flatMap_cons, List.filterMap_append]
      cases effect with
      | publishBlockAndCells block cells =>
          obtain ⟨hp, hrest⟩ := List.forall_mem_cons.1 hcarry
          obtain ⟨payload, hwrite, hread⟩ := hp.block
          have hcells : (cells.filterMap (cellMessage J)).filterMap (listen J) =
              cells.map fun cell => .cellCreated (cellEvent cell) := by
            rw [List.filterMap_filterMap, ← List.filterMap_eq_map]
            refine List.filterMap_congr fun cell hcell => ?_
            obtain ⟨payload, hwrite, hread⟩ := hp.cell cell hcell
            simp [cellMessage, hwrite, listen, hread]
          rw [ih hrest]
          simp only [messagesOf, publishBlockAndCells, hwrite, List.filterMap_cons, listen, hread,
            Option.map_some, hcells]
          rfl
      | _ => exact ih hcarry

end Messages

namespace Listener

lemma hear_sublist (l : Listener) (m : Message) (rest : List Message) :
    ((l.hear m).unread ++ rest).Sublist (l.unread ++ m :: rest) := by
  unfold Listener.hear
  split
  · rw [List.append_assoc]
    exact List.Sublist.refl _
  · exact (List.Sublist.refl _).append (List.sublist_cons_self m rest)

/-- Losing the connection loses messages at most. -/
lemma attempt_sublist (l : Listener) (ok : Bool) :
    (l.attempt ok).1.unread.Sublist l.unread := by
  unfold Listener.attempt
  split <;> first | exact List.Sublist.refl _ | exact List.nil_sublist _

lemma streamEnd_sublist (l : Listener) : l.streamEnd.unread.Sublist l.unread := by
  unfold Listener.streamEnd
  split
  · exact List.nil_sublist _
  · exact List.Sublist.refl _

end Listener

namespace EventSystem

variable {X : CkbLib} {cfg : Config} {J : EventJson} {s : EventSystem}

/-! ### The order of events -/

/-- What has been sent, and what would be if nothing more got lost. -/
def underWay (J : EventJson) (s : EventSystem) : List ApiEvent :=
  s.channel.sent ++ (s.listener.unread.filterMap (listen J) ++ s.outbox.filterMap (listen J))

/-- What every move keeps: the events under way are a part of those of the commits, in order,
and a receiver has received a part of what was sent before its position, in order. -/
structure Ordered (J : EventJson) (s : EventSystem) : Prop where
  opened : s.channel.closed = false
  underWay : (underWay J s).Sublist (s.committed.flatMap eventsOf)
  receivers : ∀ r ∈ s.receivers, r.received.Sublist (s.channel.sent.take r.next)

lemma Ordered.start (cfg : Config) : Ordered J (start cfg) :=
  ⟨rfl, .slnil, fun _ h => absurd h List.not_mem_nil⟩

/-- A move that leaves the channel alone and loses or shifts what is under way. -/
lemma Ordered.of_sublist (h : Ordered J s) (poller : Poller) (outbox : List Message)
    (listener : Listener)
    (hsub : (listener.unread.filterMap (listen J) ++ outbox.filterMap (listen J)).Sublist
      (s.listener.unread.filterMap (listen J) ++ s.outbox.filterMap (listen J))) :
    Ordered J { s with poller := poller, outbox := outbox, listener := listener } :=
  ⟨h.opened, ((List.Sublist.refl _).append hsub).trans h.underWay, h.receivers⟩

lemma Ordered.round (h : Ordered J s) (hJ : RoundTrips J) (env : StepEnv) :
    Ordered J (s.round X cfg J env) := by
  unfold EventSystem.round
  split
  · rename_i hempty
    refine ⟨h.opened, ?_, h.receivers⟩
    have hway := h.underWay
    rw [EventSystem.underWay, hempty, List.filterMap_nil, List.append_nil] at hway
    rw [List.flatMap_append]
    change (s.channel.sent ++ (s.listener.unread.filterMap (listen J) ++ _)).Sublist _
    rw [← List.append_assoc]
    exact hway.append (messagesOf_sublist hJ _)
  · exact h

lemma Ordered.publish (h : Ordered J s) (delivered : Bool) :
    Ordered J (s.publish delivered) := by
  unfold EventSystem.publish
  split
  · exact h
  · rename_i m rest hout
    refine h.of_sublist s.poller rest _ ?_
    rw [hout, ← List.filterMap_append, ← List.filterMap_append]
    refine List.Sublist.filterMap _ ?_
    cases delivered with
    | true => exact Listener.hear_sublist _ _ _
    | false => exact (List.Sublist.refl _).append (List.sublist_cons_self m rest)

/-- A read sends the next of the events that are under way, if it can be read. -/
lemma underWay_read {m : Message} {rest : List Message} (hclosed : s.channel.closed = false)
    (hunread : s.listener.unread = m :: rest) :
    (match listen J m with
      | some event => s.channel.exec (.send event)
      | none => s.channel).sent ++
        (rest.filterMap (listen J) ++ s.outbox.filterMap (listen J)) = underWay J s := by
  rw [underWay, hunread, List.filterMap_cons]
  cases hl : listen J m with
  | none => rfl
  | some event => simp [Broadcast.Channel.exec, hclosed]

lemma Ordered.read (h : Ordered J s) : Ordered J (s.read J) := by
  unfold EventSystem.read
  split
  · rename_i m rest hstage hunread
    refine ⟨?_, ?_, fun r hr => (h.receivers r hr).trans ?_⟩
    · simp only
      split
      · simp [Broadcast.Channel.exec, h.opened]
      · exact h.opened
    · have hway := h.underWay
      rw [← underWay_read h.opened hunread] at hway
      exact hway
    · simp only
      split
      · rename_i event _
        simp only [Broadcast.Channel.exec, h.opened, Bool.false_eq_true, if_false, List.take_append]
        exact List.sublist_append_left _ _
      · exact List.Sublist.refl _
  · exact h

/-- A receiver gets the value at its position, or skips some. -/
lemma Ordered.recv (h : Ordered J s) (i : ℕ) : Ordered J (s.recv i) := by
  unfold EventSystem.recv
  split
  · exact h
  · rename_i r hr
    have hold := h.receivers r (List.mem_of_getElem? hr)
    split
    · exact h
    · rename_i result next hrecv
      refine ⟨h.opened, h.underWay, fun r' hr' => ?_⟩
      rcases List.mem_or_eq_of_mem_set hr' with hr' | rfl
      · exact h.receivers r' hr'
      · rcases Broadcast.Channel.recv_cases hrecv with
          ⟨value, hvalue, -, rfl, rfl⟩ | ⟨skipped, -, -, rfl, rfl⟩ | ⟨-, -, rfl, rfl⟩
        · rw [List.take_add_one, hvalue]
          exact hold.append (List.Sublist.refl _)
        · refine (List.append_nil r.received).symm ▸ hold.trans ?_
          rw [← List.take_append_drop r.next (s.channel.sent.take (r.next + skipped)),
            List.take_take, Nat.min_eq_left (Nat.le_add_right _ _)]
          exact List.sublist_append_left _ _
        · exact (List.append_nil r.received).symm ▸ hold

/-- **Every move keeps the order.** -/
lemma Ordered.exec (h : Ordered J s) (hJ : RoundTrips J) (m : EventMove) :
    Ordered J (s.exec X cfg J m) := by
  cases m with
  | round env => exact h.round hJ env
  | publish delivered => exact h.publish delivered
  | restartIndexer =>
      exact h.of_sublist _ [] s.listener ((List.Sublist.refl _).append (List.nil_sublist _))
  | attempt ok =>
      exact h.of_sublist s.poller s.outbox _
        (((s.listener.attempt_sublist ok).filterMap _).append (List.Sublist.refl _))
  | read => exact h.read
  | streamEnd =>
      exact h.of_sublist s.poller s.outbox _
        ((s.listener.streamEnd_sublist.filterMap _).append (List.Sublist.refl _))
  | restartApi =>
      refine ⟨rfl, ?_, fun _ hr => absurd hr List.not_mem_nil⟩
      refine List.Sublist.trans ?_ h.underWay
      exact (List.nil_sublist _).append ((List.nil_sublist _).append (List.Sublist.refl _))
  | join =>
      refine ⟨h.opened, h.underWay, fun r hr => ?_⟩
      rcases List.mem_append.1 hr with hr | hr
      · exact h.receivers r hr
      · rw [List.mem_singleton.1 hr]
        exact List.nil_sublist _
  | recv i => exact h.recv i

/-- The listener is reading, and what is under way are all the events since a moment. -/
structure Keeps (J : EventJson) (s₀ s : EventSystem) (new : List (BlockRow × List CellRow)) :
    Prop where
  reading : s.listener.stage = .reading
  opened : s.channel.closed = false
  committed : s.committed = s₀.committed ++ new
  underWay : (∀ p ∈ new, Carries J p) →
    underWay J s = s₀.channel.sent ++ new.flatMap eventsOf

section Healthy

variable {s₀ : EventSystem} {new : List (BlockRow × List CellRow)}

lemma Keeps.round (X : CkbLib) (cfg : Config) (h : Keeps J s₀ s new) (env : StepEnv) :
    ∃ new', Keeps J s₀ (s.round X cfg J env) new' := by
  unfold EventSystem.round
  split
  · rename_i hempty
    refine ⟨new ++ (step X cfg env s.poller.nextBlock s.poller.db).effects.filterMap announcedBy,
      h.reading, h.opened, ?_, fun hcarry => ?_⟩
    · rw [← List.append_assoc, ← h.committed]
    · have hway := h.underWay fun p hp => hcarry p (List.mem_append_left _ hp)
      rw [EventSystem.underWay, hempty, List.filterMap_nil, List.append_nil] at hway
      rw [List.flatMap_append, ← List.append_assoc, ← hway, ← messagesOf_eq fun p hp =>
        hcarry p (List.mem_append_right _ hp), List.append_assoc]
      rfl
  · exact ⟨new, h⟩

lemma Keeps.publish (h : Keeps J s₀ s new) : Keeps J s₀ (s.publish true) new := by
  unfold EventSystem.publish
  split
  · exact h
  · rename_i m rest hout
    have hhear : s.listener.hear m = { s.listener with unread := s.listener.unread ++ [m] } := by
      rw [Listener.hear, if_pos (by rw [h.reading]; rfl)]
    refine ⟨?_, h.opened, h.committed, fun hcarry => ?_⟩
    · simp only [if_true, hhear]
      exact h.reading
    · rw [← h.underWay hcarry, EventSystem.underWay, EventSystem.underWay, hout]
      simp only [if_true, hhear]
      rw [← List.filterMap_append, ← List.filterMap_append, List.append_assoc]
      rfl

lemma Keeps.read (h : Keeps J s₀ s new) : Keeps J s₀ (s.read J) new := by
  unfold EventSystem.read
  split
  · rename_i m rest hstage hunread
    refine ⟨h.reading, ?_, h.committed, fun hcarry => ?_⟩
    · simp only
      split
      · simp [Broadcast.Channel.exec, h.opened]
      · exact h.opened
    · rw [← h.underWay hcarry, ← underWay_read h.opened hunread]
      rfl
  · exact h

lemma Keeps.recv (h : Keeps J s₀ s new) (i : ℕ) : Keeps J s₀ (s.recv i) new := by
  unfold EventSystem.recv
  split
  · exact h
  · split
    · exact h
    · exact ⟨h.reading, h.opened, h.committed, h.underWay⟩

end Healthy

end EventSystem

/-! ### The first block -/

namespace EventSample

open Indexer.Sample (lib genesis)

/-- A fresh index, with Redis. -/
def cfg : Config := ⟨0, 100, true⟩

/-- The rows of the first block. -/
def rows : Option ParsedBlock := (parseBlock lib genesis).toOption

def blockEvents : List BlockMinedEvent := rows.toList.map fun r => blockEvent r.block

def cellEvents : List CellCreatedEvent := rows.toList.flatMap fun r => r.cells.map cellEvent

/-- The text of the event of that block. -/
def blockText (e : BlockMinedEvent) : String :=
  "\x7b\"number\":0,\"hash\":\"" ++ e.hash ++ "\",\"parent_hash\":\"" ++ e.parentHash ++
    "\",\"timestamp\":0\x7d"

/-- The text of the event of its cell. -/
def cellText (e : CellCreatedEvent) : String :=
  "\x7b\"tx_hash\":\"" ++ e.txHash ++ "\",\"output_index\":0,\"block_number\":0," ++
    "\"lock_code_hash\":\"" ++ e.lockCodeHash ++ "\",\"lock_hash_type\":0," ++
    "\"lock_args\":\"\",\"lock_hash\":\"" ++ e.lockHash ++ "\"," ++
    "\"type_code_hash\":null,\"type_hash_type\":null,\"type_args\":null," ++
    "\"type_hash\":null,\"capacity_shannons\":6100000000\x7d"

/-- `serde_json` on these. -/
def json : EventJson where
  blockToString := fun e => (blockEvents.find? (· = e)).map blockText
  blockFromStr := fun payload => blockEvents.find? (blockText · = payload)
  cellToString := fun e => (cellEvents.find? (· = e)).map cellText
  cellFromStr := fun payload => cellEvents.find? (cellText · = payload)

end EventSample

section Sample

open EventSample

end Sample

end Api

end Cellora
