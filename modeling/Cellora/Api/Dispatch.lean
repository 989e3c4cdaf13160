/-
# The dispatcher of webhooks

`run_webhook_dispatcher` as it runs beside everything else: events are sent into the channel,
users create and delete webhooks, the loop receives an event, reads the table and spawns one
delivery for each webhook that asks for the event, and the deliveries resolve, connect and post
on their own, in any order.

However these steps interleave, what is posted is what `dispatch_webhook` sends for an event of
the channel and a webhook of the table it was read from, and it is posted once.
-/
import Cellora.Api.Fanout
import Mathlib.Data.List.Perm.Subperm

namespace Cellora

namespace Api

open Broadcast

/-! ### The machine -/

/-- How far a delivery has come. -/
inductive DeliveryStage where
  /-- It is about to resolve the host. -/
  | spawned
  /-- It has its client. -/
  | pinned (client : Client)
  | over
deriving DecidableEq

/-- A delivery that was spawned, with the position of its event in the channel. -/
structure DeliveryTask where
  seq : ℕ
  event : ApiEvent
  webhook : Webhook
  body : Bytes
  stage : DeliveryStage

/-- A request that was posted. -/
structure PostedRequest where
  seq : ℕ
  webhook : Webhook
  request : WebhookRequest

/-- Where `run_webhook_dispatcher` is. -/
inductive DispatcherLoop where
  | selecting
  /-- It waits for `load_webhooks`. -/
  | loading (seq : ℕ) (event : ApiEvent)
  /-- It has left the loop and waits for the deliveries. -/
  | draining
  | returned

/-- The table, the channel, the dispatcher with its receiver, the deliveries, what was posted,
and what `recv` has returned, each with the table if it was read. -/
structure Dispatch where
  webhooks : List Webhook
  channel : Broadcast.Channel ApiEvent
  next : ℕ
  loop : DispatcherLoop
  tasks : List DeliveryTask
  posted : List PostedRequest
  rx : List (Recv ApiEvent × Option (List Webhook))

/-- A move. -/
inductive DispatchMove where
  /-- A user calls `create_webhook`. -/
  | create (user : Uuid) (now : ℕ) (id : Uuid) (lookupHost : Resolver) (reply : StatementReply)
      (req : CreateWebhookRequest)
  /-- A user calls `delete_webhook`. -/
  | delete (user : Uuid) (reply : StatementReply) (raw : String)
  | channel (m : Broadcast.Move ApiEvent)
  | recv
  /-- `load_webhooks` returns. -/
  | load (readable : Bool)
  | cancel
  /-- The deliveries are done, or the time for them is over. -/
  | drained
  /-- A delivery builds its client. -/
  | pin (i : ℕ) (lookupHost : Resolver)
  /-- A delivery signs and posts. -/
  | post (i : ℕ) (timestamp : ℤ)

/-- The delivery that `dispatch_webhook` spawns, if the payload can be serialised. -/
def spawnDelivery (L : DeliveryLib) (seq : ℕ) (event : ApiEvent) (webhook : Webhook) :
    Option DeliveryTask :=
  (L.toVec event.eventType event).map fun body => ⟨seq, event, webhook, body, .spawned⟩

/-- The request of a delivery. -/
def DeliveryTask.request (L : DeliveryLib) (t : DeliveryTask) (client : Client) (timestamp : ℤ) :
    WebhookRequest where
  client := client
  url := t.webhook.url
  headers := ("content-type", "application/json") ::
    signatureHeaders L timestamp t.webhook.secret t.body
  body := t.body

namespace Dispatch

/-- A process that has just started. -/
def start (webhooks : List Webhook) (sent : List ApiEvent) : Dispatch :=
  ⟨webhooks, ⟨sent, false⟩, sent.length, .selecting, [], [], []⟩

/-- The next `recv` of the dispatcher. -/
def recv (s : Dispatch) : Dispatch :=
  match s.loop with
  | .selecting =>
      match s.channel.recv AppState.eventCapacity s.next with
      | none => s
      | some (.ok event, next) => { s with next := next, loop := .loading s.next event }
      | some (.lagged skipped, next) =>
          { s with next := next, rx := s.rx ++ [(.lagged skipped, none)] }
      | some (.closed, next) =>
          { s with next := next, loop := .draining, rx := s.rx ++ [(.closed, none)] }
  | _ => s

/-- `load_webhooks` returns, and the deliveries are spawned. -/
def load (L : DeliveryLib) (s : Dispatch) (readable : Bool) : Dispatch :=
  match s.loop with
  | .loading seq event =>
      if readable then
        { s with
          loop := .selecting
          tasks := s.tasks ++
            (loadWebhooks event.eventType s.webhooks).filterMap (spawnDelivery L seq event)
          rx := s.rx ++ [(.ok event, some s.webhooks)] }
      else { s with loop := .selecting, rx := s.rx ++ [(.ok event, none)] }
  | _ => s

/-- A delivery resolves the host and builds its client. -/
def pin (L : DeliveryLib) (s : Dispatch) (i : ℕ) (lookupHost : Resolver) : Dispatch :=
  match s.tasks[i]? with
  | none => s
  | some t =>
      match t.stage with
      | .spawned =>
          match buildPinnedClient L lookupHost t.webhook.url with
          | .error _ => { s with tasks := s.tasks.set i { t with stage := .over } }
          | .ok (client, _) => { s with tasks := s.tasks.set i { t with stage := .pinned client } }
      | _ => s

/-- A delivery posts its request. -/
def post (L : DeliveryLib) (s : Dispatch) (i : ℕ) (timestamp : ℤ) : Dispatch :=
  match s.tasks[i]? with
  | none => s
  | some t =>
      match t.stage with
      | .pinned client =>
          { s with
            tasks := s.tasks.set i { t with stage := .over }
            posted := s.posted ++ [⟨t.seq, t.webhook, t.request L client timestamp⟩] }
      | _ => s

/-- One move. -/
def exec (L : DeliveryLib) (U : UuidLib) (s : Dispatch) : DispatchMove → Dispatch
  | .create user now id lookupHost reply req =>
      { s with webhooks :=
          (createWebhook U L.parseUrl lookupHost user now id reply req s.webhooks).2 }
  | .delete user reply raw => { s with webhooks := (deleteWebhook U user reply raw s.webhooks).2 }
  | .channel m => { s with channel := s.channel.exec m }
  | .recv => s.recv
  | .load readable => s.load L readable
  | .cancel => match s.loop with
      | .selecting => { s with loop := .draining }
      | _ => s
  | .drained => match s.loop with
      | .draining => { s with loop := .returned }
      | _ => s
  | .pin i lookupHost => s.pin L i lookupHost
  | .post i timestamp => s.post L i timestamp

/-- The state before the move at a position of a run. -/
def stateAt (L : DeliveryLib) (U : UuidLib) (s₀ : Dispatch) (ms : List DispatchMove) (k : ℕ) :
    Dispatch :=
  Machine.before (exec L U) s₀ ms k

/-! ### What a move can do -/

/-- The effects of a move. -/
inductive Moved (L : DeliveryLib) (s : Dispatch) : Dispatch → Prop
  | idle : Moved L s s
  | table {webhooks : List Webhook}
      (hids : (s.webhooks.map Webhook.id).Nodup → (webhooks.map Webhook.id).Nodup) :
      Moved L s { s with webhooks := webhooks }
  | channel (m : Broadcast.Move ApiEvent) : Moved L s { s with channel := s.channel.exec m }
  | received {event : ApiEvent} (hloop : s.loop = .selecting)
      (hevent : s.channel.sent[s.next]? = some event) :
      Moved L s { s with next := s.next + 1, loop := .loading s.next event }
  | lagged (skipped : ℕ) (hloop : s.loop = .selecting) :
      Moved L s { s with next := s.next + skipped, rx := s.rx ++ [(.lagged skipped, none)] }
  | closed (hloop : s.loop = .selecting) :
      Moved L s { s with loop := .draining, rx := s.rx ++ [(.closed, none)] }
  | loaded {seq : ℕ} {event : ApiEvent} (hloop : s.loop = .loading seq event) :
      Moved L s { s with
        loop := .selecting
        tasks := s.tasks ++
          (loadWebhooks event.eventType s.webhooks).filterMap (spawnDelivery L seq event)
        rx := s.rx ++ [(.ok event, some s.webhooks)] }
  | unreadable {seq : ℕ} {event : ApiEvent} (hloop : s.loop = .loading seq event) :
      Moved L s { s with loop := .selecting, rx := s.rx ++ [(.ok event, none)] }
  | left (loop : DispatcherLoop) (hloop : loop = .draining ∨ loop = .returned) :
      Moved L s { s with loop := loop }
  | pinned {i : ℕ} {t : DeliveryTask} {lookupHost : Resolver} {client : Client}
      {addr : SocketAddr} (ht : s.tasks[i]? = some t) (hstage : t.stage = .spawned)
      (hbuild : buildPinnedClient L lookupHost t.webhook.url = .ok (client, addr)) :
      Moved L s { s with tasks := s.tasks.set i { t with stage := .pinned client } }
  | refused {i : ℕ} {t : DeliveryTask} (ht : s.tasks[i]? = some t) (hstage : t.stage = .spawned) :
      Moved L s { s with tasks := s.tasks.set i { t with stage := .over } }
  | posted {i : ℕ} {t : DeliveryTask} {client : Client} (ht : s.tasks[i]? = some t)
      (hstage : t.stage = .pinned client) (timestamp : ℤ) :
      Moved L s { s with
        tasks := s.tasks.set i { t with stage := .over }
        posted := s.posted ++ [⟨t.seq, t.webhook, t.request L client timestamp⟩] }

section Moves

variable {L : DeliveryLib} {s : Dispatch}

lemma moved_recv : Moved L s s.recv := by
  rw [recv]
  split
  · rename_i hloop
    cases hrecv : s.channel.recv AppState.eventCapacity s.next with
    | none => exact .idle
    | some p =>
        obtain ⟨r, next⟩ := p
        rcases Channel.recv_cases hrecv with ⟨event, hevent, -, rfl, rfl⟩ |
          ⟨skipped, -, -, rfl, rfl⟩ | ⟨-, -, rfl, rfl⟩
        · exact .received hloop hevent
        · exact .lagged skipped hloop
        · exact .closed hloop
  · exact .idle

lemma moved_load (readable : Bool) : Moved L s (s.load L readable) := by
  rw [load]
  split
  · rename_i hloop
    cases readable with
    | false => exact .unreadable hloop
    | true => exact .loaded hloop
  · exact .idle

lemma moved_pin (i : ℕ) (lookupHost : Resolver) : Moved L s (s.pin L i lookupHost) := by
  rw [pin]
  split
  · exact .idle
  · rename_i t ht
    split
    · rename_i hstage
      split
      · exact .refused ht hstage
      · rename_i hbuild
        exact .pinned ht hstage hbuild
    · exact .idle

lemma moved_post (i : ℕ) (timestamp : ℤ) : Moved L s (s.post L i timestamp) := by
  rw [post]
  split
  · exact .idle
  · rename_i t ht
    split
    · rename_i client hstage
      exact .posted ht hstage timestamp
    · exact .idle

/-- The statements keep the primary key of the table. -/
lemma nodup_execute {β : Type} {reply : StatementReply} {rows : List Webhook}
    {result : Except DbError (β × List Webhook)} (h : (rows.map Webhook.id).Nodup)
    (hresult : ∀ b rows', result = .ok (b, rows') → (rows'.map Webhook.id).Nodup) :
    ((reply.execute result rows).2.map Webhook.id).Nodup := by
  unfold StatementReply.execute
  split
  · exact h
  · exact h
  · exact h
  · rename_i b rows' message
    exact hresult b rows' rfl
  · rename_i b rows'
    exact hresult b rows' rfl

lemma nodup_createWebhook {U : UuidLib} {parse : String → Option ParsedUrl}
    {lookupHost : Resolver} {user : Uuid} {now : ℕ} {id : Uuid} {reply : StatementReply}
    {req : CreateWebhookRequest} {rows : List Webhook} (h : (rows.map Webhook.id).Nodup) :
    ((createWebhook U parse lookupHost user now id reply req rows).2.map Webhook.id).Nodup := by
  rw [createWebhook]
  split
  · exact h
  · split
    · exact h
    · refine nodup_execute h fun row rows' hinsert => ?_
      rw [Webhooks.insert] at hinsert
      split at hinsert
      · cases hinsert
      · rename_i hfresh
        cases hinsert
        rw [List.contains_iff_mem] at hfresh
        exact Table.nodup_map_concat h hfresh

lemma nodup_deleteWebhook {U : UuidLib} {user : Uuid} {reply : StatementReply} {raw : String}
    {rows : List Webhook} (h : (rows.map Webhook.id).Nodup) :
    ((deleteWebhook U user reply raw rows).2.map Webhook.id).Nodup := by
  rw [deleteWebhook]
  split
  · exact h
  · refine nodup_execute h fun affected rows' hdelete => ?_
    cases hdelete
    exact h.sublist (List.filter_sublist.map _)

/-- **Inversion of a move.** -/
lemma moved (L : DeliveryLib) (U : UuidLib) (s : Dispatch) (m : DispatchMove) :
    Moved L s (s.exec L U m) := by
  cases m with
  | create user now id lookupHost reply req => exact .table nodup_createWebhook
  | delete user reply raw => exact .table nodup_deleteWebhook
  | channel m => exact .channel m
  | recv => exact moved_recv
  | load readable => exact moved_load readable
  | cancel =>
      rw [exec]
      split
      · exact .left _ (.inl rfl)
      · exact .idle
  | drained =>
      rw [exec]
      split
      · exact .left _ (.inr rfl)
      · exact .idle
  | pin i lookupHost => exact moved_pin i lookupHost
  | post i timestamp => exact moved_post i timestamp

end Moves

/-! ### Every delivery is of an event and a webhook -/

end Dispatch

/-- An event and a webhook. -/
def DeliveryTask.key (t : DeliveryTask) : ℕ × Uuid := (t.seq, t.webhook.id)

/-- An event and a webhook. -/
def PostedRequest.key (d : PostedRequest) : ℕ × Uuid := (d.seq, d.webhook.id)

/-- What a delivery can still post for. -/
def DeliveryTask.pending (t : DeliveryTask) : Option (ℕ × Uuid) :=
  match t.stage with
  | .over => none
  | _ => some t.key

/-- Before the move at position `k`, the event at the position had been received and the webhook
been in the table at the same time. -/
def LoadedBefore (hist : ℕ → Dispatch) (k seq : ℕ) (webhook : Webhook) : Prop :=
  ∃ j < k, seq < (hist j).next ∧ webhook ∈ (hist j).webhooks

lemma LoadedBefore.succ {hist : ℕ → Dispatch} {k seq : ℕ} {w : Webhook}
    (h : LoadedBefore hist k seq w) : LoadedBefore hist (k + 1) seq w := by
  obtain ⟨j, hj, hrest⟩ := h
  exact ⟨j, Nat.lt_succ_of_lt hj, hrest⟩

/-- The delivery is of an event of the channel and of a webhook that asked for it. -/
structure DeliveryTask.Ok (L : DeliveryLib) (hist : ℕ → Dispatch) (k : ℕ) (sent : List ApiEvent)
    (t : DeliveryTask) : Prop where
  event : sent[t.seq]? = some t.event
  asked : t.webhook.events.contains t.event.eventType = true
  body : L.toVec t.event.eventType t.event = some t.body
  loaded : LoadedBefore hist k t.seq t.webhook
  client : ∀ client, t.stage = .pinned client → ∃ lookupHost addr,
    buildPinnedClient L lookupHost t.webhook.url = .ok (client, addr)

/-- The request is the one that `dispatch_webhook` sends for an event of the channel and a
webhook that asked for it. -/
structure PostedRequest.Ok (L : DeliveryLib) (hist : ℕ → Dispatch) (k : ℕ) (sent : List ApiEvent)
    (d : PostedRequest) : Prop where
  sound : ∃ event, sent[d.seq]? = some event ∧ d.webhook.events.contains event.eventType = true ∧
    ∃ lookupHost timestamp, dispatchWebhook L lookupHost timestamp d.webhook event = some d.request
  loaded : LoadedBefore hist k d.seq d.webhook

namespace Dispatch

/-- The invariant of the dispatcher at a position of a run. -/
structure Inv (L : DeliveryLib) (hist : ℕ → Dispatch) (k : ℕ) (s : Dispatch) : Prop where
  ids : (s.webhooks.map Webhook.id).Nodup
  below : ∀ t ∈ s.tasks, t.seq < s.next
  loading : ∀ seq event, s.loop = .loading seq event →
    s.next = seq + 1 ∧ s.channel.sent[seq]? = some event ∧ ∀ t ∈ s.tasks, t.seq < seq
  tasks : ∀ t ∈ s.tasks, t.Ok L hist k s.channel.sent
  posted : ∀ d ∈ s.posted, d.Ok L hist k s.channel.sent
  keys : (s.tasks.map DeliveryTask.key).Nodup
  once : (s.posted.map PostedRequest.key ++ s.tasks.filterMap DeliveryTask.pending).Subperm
    (s.tasks.map DeliveryTask.key)

section Steps

variable {L : DeliveryLib} {hist : ℕ → Dispatch} {k : ℕ} {s s' : Dispatch}

lemma getElem?_later {α : Type} {l l' : List α} {i : ℕ} {a : α} (hl : l <+: l')
    (h : l[i]? = some a) : l'[i]? = some a := by
  obtain ⟨rest, rfl⟩ := hl
  rw [List.getElem?_append_left (List.getElem?_eq_some_iff.1 h).1]
  exact h

lemma later_task {sent sent' : List ApiEvent} {t : DeliveryTask} (h : t.Ok L hist k sent)
    (hsent : sent <+: sent') : t.Ok L hist (k + 1) sent' :=
  ⟨getElem?_later hsent h.event, h.asked, h.body, h.loaded.succ, h.client⟩

lemma later_posted {sent sent' : List ApiEvent} {d : PostedRequest} (h : d.Ok L hist k sent)
    (hsent : sent <+: sent') : d.Ok L hist (k + 1) sent' := by
  obtain ⟨event, hevent, hrest⟩ := h.sound
  exact ⟨⟨event, getElem?_later hsent hevent, hrest⟩, h.loaded.succ⟩

/-- A move that touches no delivery. -/
lemma Inv.frame (h : Inv L hist k s) (hids : (s'.webhooks.map Webhook.id).Nodup)
    (htasks : s'.tasks = s.tasks) (hposted : s'.posted = s.posted) (hnext : s.next ≤ s'.next)
    (hsent : s.channel.sent <+: s'.channel.sent)
    (hloading : ∀ seq event, s'.loop = .loading seq event →
      s'.next = seq + 1 ∧ s'.channel.sent[seq]? = some event ∧ ∀ t ∈ s.tasks, t.seq < seq) :
    Inv L hist (k + 1) s' where
  ids := hids
  below := fun t ht => lt_of_lt_of_le (h.below t (htasks ▸ ht)) hnext
  loading := by
    rw [htasks]
    exact hloading
  tasks := fun t ht => later_task (h.tasks t (htasks ▸ ht)) hsent
  posted := fun d hd => later_posted (h.posted d (hposted ▸ hd)) hsent
  keys := htasks ▸ h.keys
  once := by
    rw [htasks, hposted]
    exact h.once

/-- A delivery that goes on is still of the same event and webhook. -/
lemma mem_set_stage {tasks : List DeliveryTask} {i : ℕ} {t t' : DeliveryTask}
    {stage : DeliveryStage} (h : t' ∈ tasks.set i { t with stage := stage }) :
    t' ∈ tasks ∨ t' = { t with stage := stage } :=
  List.mem_or_eq_of_mem_set h

/-- A delivery goes to its next stage, and may post its request. -/
lemma Inv.setStage (h : Inv L hist k s) {i : ℕ} {t : DeliveryTask} (ht : s.tasks[i]? = some t)
    (stage : DeliveryStage) (posted : List PostedRequest)
    (hclient : ∀ client, stage = .pinned client → ∃ lookupHost addr,
      buildPinnedClient L lookupHost t.webhook.url = .ok (client, addr))
    (hposted : ∀ d ∈ posted, d.Ok L hist (k + 1) s.channel.sent)
    (honce : (posted.map PostedRequest.key ++
      (DeliveryTask.pending { t with stage := stage }).toList).Sublist t.pending.toList) :
    Inv L hist (k + 1) { s with
      tasks := s.tasks.set i { t with stage := stage }
      posted := s.posted ++ posted } := by
  have hmem : t ∈ s.tasks := List.mem_of_getElem? ht
  have hkeys : (s.tasks.set i { t with stage := stage }).map DeliveryTask.key =
      s.tasks.map DeliveryTask.key := Machine.map_set_of_eq ht rfl
  have hseq : ∀ t' ∈ s.tasks.set i { t with stage := stage }, ∃ t'' ∈ s.tasks,
      t''.seq = t'.seq := by
    intro t' ht'
    rcases mem_set_stage ht' with hold | rfl
    · exact ⟨t', hold, rfl⟩
    · exact ⟨t, hmem, rfl⟩
  refine {
    ids := h.ids
    below := fun t' ht' => ?_
    loading := fun seq event hloop => ?_
    tasks := fun t' ht' => ?_
    posted := fun d hd => ?_
    keys := hkeys ▸ h.keys
    once := ?_ }
  · obtain ⟨t'', ht'', hs⟩ := hseq t' ht'
    exact hs ▸ h.below t'' ht''
  · obtain ⟨hnext, hevent, hbelow⟩ := h.loading seq event hloop
    refine ⟨hnext, hevent, fun t' ht' => ?_⟩
    obtain ⟨t'', ht'', hs⟩ := hseq t' ht'
    exact hs ▸ hbelow t'' ht''
  · rcases mem_set_stage ht' with hold | rfl
    · exact later_task (h.tasks t' hold) (List.prefix_refl _)
    · have hok := h.tasks t hmem
      exact ⟨hok.event, hok.asked, hok.body, hok.loaded.succ, hclient⟩
  · rcases List.mem_append.1 hd with hold | hnew
    · exact later_posted (h.posted d hold) (List.prefix_refl _)
    · exact hposted d hnew
  · -- what the delivery posts and can still post for, it could post for before
    have hset := Machine.perm_filterMap_set (f := DeliveryTask.pending) ht
      { t with stage := stage }
    have hpending : ((s.tasks.set i { t with stage := stage }).filterMap DeliveryTask.pending ++
        posted.map PostedRequest.key).Subperm (s.tasks.filterMap DeliveryTask.pending) := by
      rw [← List.subperm_append_right (DeliveryTask.pending { t with stage := stage }).toList,
        List.append_assoc]
      exact (honce.append_left _).subperm.trans hset.subperm
    rw [hkeys, List.map_append, List.append_assoc]
    refine List.Subperm.trans ?_ h.once
    refine (List.Perm.append_left _ List.perm_append_comm).subperm.trans ?_
    exact (List.subperm_append_left _).2 hpending

/-- The deliveries that are spawned for an event. -/
lemma spawned_eq {seq : ℕ} {event : ApiEvent} {body : Bytes}
    (hbody : L.toVec event.eventType event = some body) (ws : List Webhook) :
    ws.filterMap (spawnDelivery L seq event) =
      ws.map fun w => ⟨seq, event, w, body, .spawned⟩ := by
  rw [← List.filterMap_eq_map]
  refine List.filterMap_congr fun w _ => ?_
  rw [spawnDelivery, hbody]
  rfl

lemma spawned_eq_nil {seq : ℕ} {event : ApiEvent}
    (hbody : L.toVec event.eventType event = none) (ws : List Webhook) :
    ws.filterMap (spawnDelivery L seq event) = [] := by
  rw [List.filterMap_eq_nil_iff]
  intro w _
  rw [spawnDelivery, hbody]
  rfl

/-- The deliveries for an event are new, one for each webhook. -/
lemma Inv.spawn (h : Inv L hist k s) (hk : hist k = s) {seq : ℕ} {event : ApiEvent}
    (hloop : s.loop = .loading seq event) {body : Bytes}
    (hbody : L.toVec event.eventType event = some body)
    (rx : List (Recv ApiEvent × Option (List Webhook))) :
    Inv L hist (k + 1) { s with
      loop := .selecting
      tasks := s.tasks ++ (loadWebhooks event.eventType s.webhooks).map fun w =>
        ⟨seq, event, w, body, .spawned⟩
      rx := rx } := by
  obtain ⟨hnext, hevent, hbelow⟩ := h.loading seq event hloop
  have hkeys : ((loadWebhooks event.eventType s.webhooks).map fun w =>
      (⟨seq, event, w, body, .spawned⟩ : DeliveryTask)).map DeliveryTask.key =
        ((loadWebhooks event.eventType s.webhooks).map Webhook.id).map (Prod.mk seq) := by
    rw [List.map_map, List.map_map]
    rfl
  refine {
    ids := h.ids
    below := fun t ht => ?_
    loading := fun seq event hloop => by cases hloop
    tasks := fun t ht => ?_
    posted := fun d hd => later_posted (h.posted d hd) (List.prefix_refl _)
    keys := ?_
    once := ?_ }
  · rcases List.mem_append.1 ht with hold | hnew
    · exact h.below t hold
    · obtain ⟨w, -, rfl⟩ := List.mem_map.1 hnew
      show seq < s.next
      omega
  · rcases List.mem_append.1 ht with hold | hnew
    · exact later_task (h.tasks t hold) (List.prefix_refl _)
    · obtain ⟨w, hw, rfl⟩ := List.mem_map.1 hnew
      obtain ⟨hmem, hasked⟩ := List.mem_filter.1 hw
      refine ⟨hevent, hasked, hbody, ⟨k, Nat.lt_succ_self k, ?_, ?_⟩, fun client hc => by cases hc⟩
      · rw [hk]
        show seq < s.next
        omega
      · rw [hk]
        exact hmem
  · rw [List.map_append, hkeys]
    refine List.nodup_append.2 ⟨h.keys, ?_, ?_⟩
    · refine List.Nodup.map (Prod.mk_right_injective seq) ?_
      exact h.ids.sublist (List.filter_sublist.map _)
    · -- the deliveries so far are of earlier events
      rintro key hkey key' hkey' rfl
      obtain ⟨t, ht, rfl⟩ := List.mem_map.1 hkey
      obtain ⟨id, -, hid⟩ := List.mem_map.1 hkey'
      have hseq : seq = t.seq := congrArg Prod.fst hid
      exact absurd (hbelow t ht) (by omega)
  · have hpending : ((loadWebhooks event.eventType s.webhooks).map fun w =>
        (⟨seq, event, w, body, .spawned⟩ : DeliveryTask)).filterMap DeliveryTask.pending =
          ((loadWebhooks event.eventType s.webhooks).map fun w =>
            (⟨seq, event, w, body, .spawned⟩ : DeliveryTask)).map DeliveryTask.key := by
      rw [List.filterMap_map, List.map_map, ← List.filterMap_eq_map]
      rfl
    rw [List.filterMap_append, List.map_append, hpending, ← List.append_assoc]
    exact h.once.append (List.Subperm.refl _)

/-- The channel only grows. -/
lemma sent_exec (ch : Broadcast.Channel ApiEvent) (m : Broadcast.Move ApiEvent) :
    ch.sent <+: (ch.exec m).sent := by
  cases m with
  | send event =>
      rw [Channel.exec]
      split
      · exact List.prefix_refl _
      · exact List.prefix_append _ _
  | close => exact List.prefix_refl _
  | recv => exact List.prefix_refl _

/-- The two steps of a delivery make the request of `dispatch_webhook`. -/
lemma dispatchWebhook_of_task {t : DeliveryTask} {client : Client} {addr : SocketAddr}
    {lookupHost : Resolver} (hbody : L.toVec t.event.eventType t.event = some t.body)
    (hbuild : buildPinnedClient L lookupHost t.webhook.url = .ok (client, addr))
    (timestamp : ℤ) :
    dispatchWebhook L lookupHost timestamp t.webhook t.event =
      some (t.request L client timestamp) := by
  rw [dispatchWebhook, hbody]
  simp only [hbuild]
  rfl

/-- **Every move keeps the invariant.** -/
lemma Inv.moved (h : Inv L hist k s) (hk : hist k = s) (hm : Moved L s s') :
    Inv L hist (k + 1) s' := by
  cases hm with
  | idle => exact h.frame h.ids rfl rfl le_rfl (List.prefix_refl _) h.loading
  | table hids => exact h.frame (hids h.ids) rfl rfl le_rfl (List.prefix_refl _) h.loading
  | channel m =>
      refine h.frame h.ids rfl rfl le_rfl (sent_exec _ m) fun seq event hloop => ?_
      obtain ⟨hnext, hevent, hbelow⟩ := h.loading seq event hloop
      exact ⟨hnext, getElem?_later (sent_exec _ m) hevent, hbelow⟩
  | received hloop hevent =>
      refine h.frame h.ids rfl rfl (Nat.le_succ _) (List.prefix_refl _) fun seq event heq => ?_
      cases heq
      exact ⟨rfl, hevent, h.below⟩
  | lagged skipped hloop =>
      refine h.frame h.ids rfl rfl (Nat.le_add_right _ _) (List.prefix_refl _)
        fun seq event heq => ?_
      rw [hloop] at heq
      cases heq
  | closed hloop =>
      exact h.frame h.ids rfl rfl le_rfl (List.prefix_refl _) fun seq event heq => by cases heq
  | @loaded seq event hloop =>
      cases hbody : L.toVec event.eventType event with
      | none =>
          rw [spawned_eq_nil hbody, List.append_nil]
          exact h.frame h.ids rfl rfl le_rfl (List.prefix_refl _) fun seq event heq => by cases heq
      | some body =>
          rw [spawned_eq hbody]
          exact h.spawn hk hloop hbody _
  | unreadable hloop =>
      exact h.frame h.ids rfl rfl le_rfl (List.prefix_refl _) fun seq event heq => by cases heq
  | left loop hloop =>
      refine h.frame h.ids rfl rfl le_rfl (List.prefix_refl _) fun seq event heq => ?_
      rcases hloop with rfl | rfl
      · cases heq
      · cases heq
  | @pinned i t lookupHost client addr ht hstage hbuild =>
      have hset := h.setStage ht (.pinned client) [] (fun client' heq => by
          cases heq
          exact ⟨lookupHost, addr, hbuild⟩) (fun d hd => absurd hd List.not_mem_nil)
        (by rw [DeliveryTask.pending, DeliveryTask.pending, hstage]; exact List.Sublist.refl _)
      rwa [List.append_nil] at hset
  | @refused i t ht hstage =>
      have hset := h.setStage ht .over [] (fun client' heq => by cases heq)
        (fun d hd => absurd hd List.not_mem_nil) (List.nil_sublist _)
      rwa [List.append_nil] at hset
  | @posted i t client ht hstage timestamp =>
      have hok := h.tasks t (List.mem_of_getElem? ht)
      obtain ⟨lookupHost, addr, hbuild⟩ := hok.client client hstage
      refine h.setStage ht .over _ (fun client' heq => by cases heq) (fun d hd => ?_)
        (by rw [DeliveryTask.pending, DeliveryTask.pending, hstage]; exact List.Sublist.refl _)
      obtain rfl := List.mem_singleton.1 hd
      exact ⟨⟨t.event, hok.event, hok.asked, lookupHost, timestamp,
        dispatchWebhook_of_task hok.body hbuild timestamp⟩, hok.loaded.succ⟩

end Steps

/-! ### The deliveries are those of the sequential dispatcher -/

section Spawns

variable {L : DeliveryLib} {s s' : Dispatch}

/-- The dispatcher is in its loop. -/
def inLoop (s : Dispatch) : Bool :=
  match s.loop with
  | .selecting => true
  | .loading _ _ => true
  | _ => false

/-- The deliveries are those of the calls of `dispatch_webhook` whose payload can be
serialised. -/
structure Spawns (L : DeliveryLib) (s : Dispatch) : Prop where
  spawned : s.tasks.map (fun t => (t.webhook, t.event)) =
    (runWebhookDispatcher s.rx).filter fun p => (L.toVec p.2.eventType p.2).isSome
  running : s.inLoop = true → ∀ p ∈ s.rx, p.1.isClosed = false

lemma runWebhookDispatcher_append {rx rx' : List (Recv ApiEvent × Option (List Webhook))}
    (hrx : ∀ p ∈ rx, p.1.isClosed = false) :
    runWebhookDispatcher (rx ++ rx') = runWebhookDispatcher rx ++ runWebhookDispatcher rx' := by
  induction rx with
  | nil => rfl
  | cons p rx ih =>
      obtain ⟨hp, hrest⟩ := List.forall_mem_cons.1 hrx
      obtain ⟨r, table⟩ := p
      cases r with
      | ok event =>
          cases table with
          | none => exact ih hrest
          | some rows =>
              rw [List.cons_append, runWebhookDispatcher, runWebhookDispatcher, ih hrest,
                List.append_assoc]
      | lagged skipped => exact ih hrest
      | closed => cases hp

/-- Something was received that calls nothing. -/
lemma Spawns.skip (h : Spawns L s) (hloop : s.inLoop = true)
    (p : Recv ApiEvent × Option (List Webhook)) (hp : runWebhookDispatcher [p] = [])
    (htasks : s'.tasks = s.tasks) (hrx : s'.rx = s.rx ++ [p])
    (hclosed : s'.inLoop = true → p.1.isClosed = false) : Spawns L s' where
  spawned := by
    rw [htasks, hrx, runWebhookDispatcher_append (h.running hloop), hp, List.append_nil]
    exact h.spawned
  running := by
    intro hloop' q hq
    rw [hrx] at hq
    rcases List.mem_append.1 hq with hold | hnew
    · exact h.running hloop q hold
    · rw [List.mem_singleton.1 hnew]
      exact hclosed hloop'

/-- Nothing was received. -/
lemma Spawns.same (h : Spawns L s)
    (htasks : s'.tasks.map (fun t => (t.webhook, t.event)) =
      s.tasks.map fun t => (t.webhook, t.event))
    (hrx : s'.rx = s.rx) (hloop : s'.inLoop = true → s.inLoop = true) : Spawns L s' where
  spawned := by
    rw [htasks, hrx]
    exact h.spawned
  running := by
    rw [hrx]
    exact fun hloop' => h.running (hloop hloop')

lemma filterMap_spawnDelivery {seq : ℕ} (event : ApiEvent) (ws : List Webhook) :
    (ws.filterMap (spawnDelivery L seq event)).map (fun t => (t.webhook, t.event)) =
      (ws.map fun w => (w, event)).filter fun p => (L.toVec p.2.eventType p.2).isSome := by
  cases hbody : L.toVec event.eventType event with
  | none =>
      rw [spawned_eq_nil hbody, List.map_nil, eq_comm, List.filter_eq_nil_iff]
      intro p hp
      obtain ⟨w, -, rfl⟩ := List.mem_map.1 hp
      simp [hbody]
  | some body =>
      rw [spawned_eq hbody, List.map_map, eq_comm]
      refine List.filter_eq_self.2 fun p hp => ?_
      obtain ⟨w, -, rfl⟩ := List.mem_map.1 hp
      simp [hbody]

lemma inLoop_of_selecting (h : s.loop = .selecting) : s.inLoop = true := by
  rw [inLoop, h]

lemma inLoop_of_loading {seq : ℕ} {event : ApiEvent} (h : s.loop = .loading seq event) :
    s.inLoop = true := by
  rw [inLoop, h]

/-- **Every move keeps the deliveries those of the sequential dispatcher.** -/
lemma Spawns.moved (h : Spawns L s) (hm : Moved L s s') : Spawns L s' := by
  cases hm with
  | idle => exact h
  | table hids => exact h.same rfl rfl id
  | channel m => exact h.same rfl rfl id
  | received hloop hevent => exact h.same rfl rfl fun _ => inLoop_of_selecting hloop
  | lagged skipped hloop =>
      exact h.skip (inLoop_of_selecting hloop) (.lagged skipped, none) rfl rfl rfl fun _ => rfl
  | closed hloop =>
      exact h.skip (inLoop_of_selecting hloop) (.closed, none) rfl rfl rfl fun hl => by cases hl
  | @loaded seq event hloop =>
      have hrun := h.running (inLoop_of_loading hloop)
      refine ⟨?_, fun _ p hp => ?_⟩
      · rw [List.map_append, filterMap_spawnDelivery, runWebhookDispatcher_append hrun,
          List.filter_append, h.spawned, runWebhookDispatcher, runWebhookDispatcher,
          List.append_nil]
      · rcases List.mem_append.1 hp with hold | hnew
        · exact hrun p hold
        · rw [List.mem_singleton.1 hnew]
          rfl
  | @unreadable seq event hloop =>
      exact h.skip (inLoop_of_loading hloop) (.ok event, none) rfl rfl rfl fun _ => rfl
  | left loop hloop =>
      refine h.same rfl rfl fun hl => ?_
      rcases hloop with rfl | rfl
      · cases hl
      · cases hl
  | pinned ht hstage hbuild => exact h.same (Machine.map_set_of_eq ht rfl) rfl id
  | refused ht hstage => exact h.same (Machine.map_set_of_eq ht rfl) rfl id
  | posted ht hstage timestamp => exact h.same (Machine.map_set_of_eq ht rfl) rfl id

end Spawns

/-! ### Whole runs -/

end Dispatch

/-- The check of a receiver: it recomputes the signature over the timestamp and the body. -/
def WebhookRequest.verifies (L : DeliveryLib) (secret : String) (r : WebhookRequest) : Bool :=
  match r.headers.lookup "x-webhook-timestamp", r.headers.lookup "x-webhook-signature" with
  | some timestamp, some signature =>
      signature == "sha256=" ++ Hex.encode
        (L.hmacSha256 secret.toUTF8.toList ((timestamp ++ ".").toUTF8.toList ++ r.body))
  | _, _ => false

/-- A request is signed with the secret of its webhook, follows no redirect, and connects to no
blocked address. -/
lemma dispatchWebhook_spec {L : DeliveryLib} {lookupHost : Resolver} {timestamp : ℤ}
    {webhook : Webhook} {event : ApiEvent} {r : WebhookRequest}
    (h : dispatchWebhook L lookupHost timestamp webhook event = some r) :
    (∀ secret, webhook.secret = some secret → r.verifies L secret = true) ∧
      r.client.followsRedirects = false ∧ ∀ a ∈ r.client.addrs, isBlockedIp a.ip = false := by
  rw [dispatchWebhook] at h
  split at h
  · cases h
  · rename_i body hbody
    split at h
    · cases h
    · rename_i client pinned hbuild
      cases h
      obtain ⟨host, addrs, -, hhead, hall, rfl, -⟩ := buildPinnedClient_eq_ok_iff.1 hbuild
      refine ⟨fun secret hsecret => ?_, rfl, fun a ha => ?_⟩
      · simp [WebhookRequest.verifies, signatureHeaders, hsecret, List.lookup_cons]
      · obtain rfl := List.mem_singleton.1 ha
        exact hall _ (List.mem_of_head? hhead)

namespace Dispatch

section Runs

variable {L : DeliveryLib} {U : UuidLib} {webhooks : List Webhook}

lemma inv_stateAt (hids : (webhooks.map Webhook.id).Nodup) (sent : List ApiEvent)
    (ms : List DispatchMove) (k : ℕ) :
    Inv L (stateAt L U (start webhooks sent) ms) k (stateAt L U (start webhooks sent) ms k) := by
  refine Machine.before_induction (exec L U)
    (fun k s => Inv L (stateAt L U (start webhooks sent) ms) k s) ?_ ?_ ?_ k
  · exact {
      ids := hids
      below := fun t ht => absurd ht List.not_mem_nil
      loading := fun seq event hloop => by cases hloop
      tasks := fun t ht => absurd ht List.not_mem_nil
      posted := fun d hd => absurd hd List.not_mem_nil
      keys := List.nodup_nil
      once := List.Subperm.refl _ }
  · exact fun k m _ h => h.moved rfl (moved L U _ m)
  · exact fun k s h => h.frame h.ids rfl rfl le_rfl (List.prefix_refl _) h.loading

lemma spawns_stateAt (sent : List ApiEvent) (ms : List DispatchMove) (k : ℕ) :
    Spawns L (stateAt L U (start webhooks sent) ms k) := by
  refine Machine.before_induction (exec L U) (fun _ s => Spawns L s) ?_ ?_ (fun _ _ h => h) k
  · exact ⟨rfl, fun _ p hp => absurd hp List.not_mem_nil⟩
  · exact fun k m _ h => h.moved (moved L U _ m)

/-- The receiver only goes forward. -/
lemma next_le_exec (s : Dispatch) (m : DispatchMove) : s.next ≤ (s.exec L U m).next := by
  have hm := moved L U s m
  generalize s.exec L U m = s' at hm
  cases hm with
  | received hloop hevent => exact Nat.le_succ _
  | lagged skipped hloop => exact Nat.le_add_right _ _
  | _ => exact le_rfl

lemma next_le_stateAt {s₀ : Dispatch} {ms : List DispatchMove} {j k : ℕ} (hjk : j ≤ k) :
    (stateAt L U s₀ ms j).next ≤ (stateAt L U s₀ ms k).next := by
  induction hjk with
  | refl => exact le_rfl
  | @step k _ ih =>
      refine le_trans ih ?_
      cases hm : ms[k]? with
      | none => rw [stateAt, stateAt, Machine.before_succ_of_none _ hm]
      | some m =>
          rw [stateAt, stateAt, Machine.before_succ _ hm]
          exact next_le_exec _ m

/-- **Deliveries of webhooks.**  At every moment of every run, whatever is sent, created, deleted,
resolved or cancelled in between: no event was posted twice to a webhook; every posted request
is the one `dispatch_webhook` sends for an event of the channel to a webhook that asked for it,
signed with the secret of that webhook and connected to no blocked address; once a webhook is
deleted, it is posted only events that the dispatcher had received by then; and the deliveries
that were spawned are those of the sequential dispatcher on what it received. -/
theorem webhooks_posted_once (L : DeliveryLib) (U : UuidLib) (webhooks : List Webhook)
    (sent : List ApiEvent) (hids : (webhooks.map Webhook.id).Nodup) (ms : List DispatchMove)
    (k : ℕ) :
    let s := stateAt L U (start webhooks sent) ms
    ((s k).posted.map PostedRequest.key).Nodup ∧
    (∀ d ∈ (s k).posted,
      (∃ event, (s k).channel.sent[d.seq]? = some event ∧
        d.webhook.events.contains event.eventType = true ∧
        ∃ lookupHost timestamp,
          dispatchWebhook L lookupHost timestamp d.webhook event = some d.request) ∧
      (∀ secret, d.webhook.secret = some secret → d.request.verifies L secret = true) ∧
      d.request.client.followsRedirects = false ∧
      ∀ a ∈ d.request.client.addrs, isBlockedIp a.ip = false) ∧
    (∀ j₀, ∀ d ∈ (s k).posted,
      (∀ j, j₀ ≤ j → j < k → d.webhook.id ∉ (s j).webhooks.map Webhook.id) →
      d.seq < (s j₀).next) ∧
    (s k).tasks.map (fun t => (t.webhook, t.event)) =
      (runWebhookDispatcher (s k).rx).filter fun p => (L.toVec p.2.eventType p.2).isSome := by
  intro s
  have hinv := inv_stateAt (L := L) (U := U) hids sent ms k
  refine ⟨?_, fun d hd => ?_, fun j₀ d hd hdeleted => ?_, (spawns_stateAt sent ms k).spawned⟩
  · have honce : ((s k).posted.map PostedRequest.key).Subperm
        ((s k).tasks.map DeliveryTask.key) :=
      (List.sublist_append_left _ _).subperm.trans hinv.once
    obtain ⟨keys, hperm, hsub⟩ := honce
    exact hperm.nodup_iff.1 (hinv.keys.sublist hsub)
  · obtain ⟨event, hevent, hasked, lookupHost, timestamp, hdispatch⟩ := (hinv.posted d hd).sound
    exact ⟨⟨event, hevent, hasked, lookupHost, timestamp, hdispatch⟩,
      dispatchWebhook_spec hdispatch⟩
  · obtain ⟨j, hj, hseq, hmem⟩ := (hinv.posted d hd).loaded
    -- the table was read before the webhook was deleted
    have hbefore : j < j₀ := by
      by_contra hle
      exact hdeleted j (Nat.le_of_not_lt hle) hj (List.mem_map_of_mem hmem)
    exact lt_of_lt_of_le hseq (next_le_stateAt hbefore.le)

end Runs

end Dispatch

namespace DispatchSample

/-- A webhook for blocks. -/
def hook : Webhook := ⟨1, 2, DeliverySample.raw, ["block_mined"], none, 0⟩

/-- The object of the sample block. -/
def text : String :=
  "\x7b\"data\":\x7b\"hash\":\"aa\",\"number\":7,\"parent_hash\":\"bb\"," ++
    "\"timestamp\":0\x7d,\"event\":\"block_mined\"\x7d"

/-- The crates, on this webhook and this block. -/
def lib : DeliveryLib := { DeliverySample.lib with toVec := fun _ _ => some text.toUTF8.toList }

def uuids : UuidLib where
  parseStr := fun raw => if raw = "00000000-0000-0000-0000-000000000001" then some 1 else none
  toString := fun _ => ""

/-- The block is mined twice, and the webhook is deleted in between. -/
def moves : List DispatchMove :=
  [.channel (.send FanoutSample.event), .recv, .load true,
    .delete 2 .answered "00000000-0000-0000-0000-000000000001",
    .channel (.send FanoutSample.event), .recv, .load true,
    .pin 0 (DeliverySample.answering (.v4 93 184 216 34)), .post 0 0, .post 0 1]

/-- The state before a move. -/
def stateBefore (k : ℕ) : Dispatch := Dispatch.stateAt lib uuids (.start [hook] []) moves k

lemma posted_keys : (stateBefore 10).posted.map PostedRequest.key = [(0, 1)] := by decide +kernel

lemma deleted : ∀ j : Fin 10, 4 ≤ j.1 → (stateBefore j).webhooks = [] := by decide +kernel

lemma received_before : (stateBefore 4).next = 1 := by decide +kernel

end DispatchSample

section Sample

open DispatchSample

/-- One event is posted, once, and it is the one received before the webhook was deleted. -/
theorem webhooks_posted_once_sample :
    (stateBefore 10).posted.map PostedRequest.key = [(0, 1)] ∧
      ∀ d ∈ (stateBefore 10).posted, d.seq < 1 ∧
        ∀ a ∈ d.request.client.addrs, isBlockedIp a.ip = false := by
  obtain ⟨-, hsound, hlast, -⟩ := Dispatch.webhooks_posted_once lib uuids [hook] []
    (List.nodup_singleton _) moves 10
  refine ⟨posted_keys, fun d hd => ⟨?_, (hsound d hd).2.2.2⟩⟩
  refine received_before ▸ hlast 4 d hd fun j hj hlt hmem => ?_
  have hnil : (stateBefore j).webhooks = [] := deleted ⟨j, hlt⟩ hj
  change d.webhook.id ∈ (stateBefore j).webhooks.map Webhook.id at hmem
  rw [hnil] at hmem
  exact List.not_mem_nil hmem

end Sample

end Api

end Cellora
