/-
# From a request to the usage chart

The path of a request from the application to the dashboard.  `record_request_metrics` spawns a
task for every authenticated response, the task pushes a payload onto the list in Redis, the
worker pops it and inserts a row, and the metrics of the dashboard count the rows of the user's
keys.  On the way a payload can be lost: a push, a pop or an insert can fail, and the list is
trimmed.  But no row is made up and none is counted twice, and where nothing was lost and the
queue is empty the dashboard shows every request.
-/
import Cellora.Api.Dashboard
import Cellora.Api.Metering
import Cellora.Lib.GroupBy
import Mathlib.Data.List.Perm.Subperm

namespace Cellora

namespace Api

/-- What `serde_json` writes for the payload, it reads back. -/
def PayloadJson.ReadsBack (J : PayloadJson) (p : ApiRequestLogPayload) : Prop :=
  ∃ text, J.toString p = some text ∧ J.fromStr text = some p

/-- The text of a payload, `unwrap_or_default`. -/
def PayloadJson.text (J : PayloadJson) (p : ApiRequestLogPayload) : String :=
  (J.toString p).getD ""

lemma PayloadJson.ReadsBack.fromStr_text {J : PayloadJson} {p : ApiRequestLogPayload}
    (h : J.ReadsBack p) : J.fromStr (J.text p) = some p := by
  obtain ⟨text, htext, hread⟩ := h
  rw [PayloadJson.text, htext]
  exact hread

/-! ### The queue -/

/-- The payload of a task that has not pushed it. -/
def Enqueuer.unsent (t : Enqueuer) : Option String :=
  match t.stage with
  | .spawned => some t.payload
  | _ => none

/-- The row was inserted for the entry. -/
def InsertedFor (J : PayloadJson) (e : Entry) (row : ApiRequestLog) : Prop :=
  ∃ now, logRow J now e.payload = some row

namespace LogQueue

/-- The payloads of the tasks that have not pushed. -/
def unsent (s : LogQueue) : List String := s.enqueuers.filterMap Enqueuer.unsent

/-- Pushes come from tasks, and rows from processed entries, each once. -/
structure Sound (J : PayloadJson) (s : LogQueue) : Prop where
  pushes : (s.pushed.map Entry.payload ++ s.unsent).Subperm (s.enqueuers.map Enqueuer.payload)
  rows : ∃ es : List Entry, es.Sublist s.processed ∧ List.Forall₂ (InsertedFor J) es s.rows

/-- Every push and every insert has taken effect, and every pop was answered. -/
structure Lossless (s : LogQueue) : Prop where
  pushes : s.enqueuers.length ≤ s.pushed.length + s.unsent.length
  rows : s.processed.length ≤ s.rows.length
  lost : s.lost = []

end LogQueue

/-- The move is one of a task or of the worker. -/
def QueueMove.isOwn : QueueMove → Bool
  | .request _ => false
  | _ => true

/-- The move loses nothing on its own. -/
def QueueMove.lossless : QueueMove → Bool
  | .push _ executed => executed
  | .pop reply => reply != .lost
  | .process _ fault => fault.isNone
  | _ => true

namespace LogQueue

section Moves

variable (J : PayloadJson) (s : LogQueue)

/-- The tasks of two states carry the same payloads, but for those that have been sent. -/
structure SameTasks (sent : List String) (s s' : LogQueue) : Prop where
  tasks : s'.enqueuers.map Enqueuer.payload = s.enqueuers.map Enqueuer.payload
  unsent : (sent ++ s'.unsent).Perm s.unsent

/-- What a move of a task or of the worker does to the payloads. -/
inductive Carried : QueueMove → LogQueue → Prop
  | kept {m : QueueMove} {s' : LogQueue} (htasks : SameTasks [] s s')
      (hpushed : s'.pushed = s.pushed) (hprocessed : s'.processed = s.processed)
      (hrows : s'.rows = s.rows) (hlost : m.lossless = true → s'.lost = s.lost) : Carried m s'
  | sent {m : QueueMove} {s' : LogQueue} {e : Entry} (htasks : SameTasks [e.payload] s s')
      (hpushed : s'.pushed = s.pushed ++ [e]) (hprocessed : s'.processed = s.processed)
      (hrows : s'.rows = s.rows) (hlost : s'.lost = s.lost) : Carried m s'
  | unsent {i : ℕ} {s' : LogQueue} {payload : String} (htasks : SameTasks [payload] s s')
      (hpushed : s'.pushed = s.pushed) (hprocessed : s'.processed = s.processed)
      (hrows : s'.rows = s.rows) : Carried (.push i false) s'
  | inserted {m : QueueMove} {s' : LogQueue} {e : Entry} {row : ApiRequestLog}
      (htasks : SameTasks [] s s') (hpushed : s'.pushed = s.pushed)
      (hprocessed : s'.processed = s.processed ++ [e]) (hrow : InsertedFor J e row)
      (hrows : s'.rows = s.rows ++ [row]) (hlost : s'.lost = s.lost) : Carried m s'
  | skipped {now : ℕ} {fault : Option DbError} {s' : LogQueue} {e : Entry}
      (htasks : SameTasks [] s s') (hpushed : s'.pushed = s.pushed)
      (hprocessed : s'.processed = s.processed ++ [e]) (he : e ∈ s.inHand)
      (hfault : fault.isSome = true ∨ J.fromStr e.payload = none)
      (hrows : s'.rows = s.rows) : Carried (.process now fault) s'

variable {J s}

lemma SameTasks.of_enqueuers {s' : LogQueue} (h : s'.enqueuers = s.enqueuers) :
    SameTasks [] s s' := by
  refine ⟨by rw [h], ?_⟩
  rw [LogQueue.unsent, h]
  exact List.Perm.refl _

/-- A task goes from one stage to another. -/
lemma sameTasks_set {s' : LogQueue} {i : ℕ} {payload : String} {stage stage' : EnqueueStage}
    (hi : s.enqueuers[i]? = some ⟨payload, stage⟩)
    (h : s'.enqueuers = s.enqueuers.set i ⟨payload, stage'⟩)
    (hstage : Enqueuer.unsent ⟨payload, stage'⟩ = none) :
    SameTasks (Enqueuer.unsent ⟨payload, stage⟩).toList s s' := by
  have hperm := Machine.perm_filterMap_set (f := Enqueuer.unsent) hi ⟨payload, stage'⟩
  rw [hstage, Option.toList_none, List.append_nil] at hperm
  refine ⟨?_, ?_⟩
  · rw [h]
    exact Machine.map_set_of_eq hi rfl
  · rw [LogQueue.unsent, h]
    exact List.perm_append_comm.trans hperm

lemma carried_push (i : ℕ) (executed : Bool) :
    Carried J s (.push i executed) (s.push i executed) := by
  rw [push]
  split
  · rename_i payload hi
    cases executed with
    | false => exact .unsent (sameTasks_set hi rfl rfl) rfl rfl rfl
    | true =>
        exact .sent (e := ⟨s.pushed.length, payload⟩) (sameTasks_set hi rfl rfl) rfl rfl rfl rfl
  · exact .kept (.of_enqueuers rfl) rfl rfl rfl fun _ => rfl

lemma carried_trim (i : ℕ) (executed : Bool) :
    Carried J s (.trim i executed) (s.trim i executed) := by
  rw [trim]
  split
  · rename_i payload pushed hi
    cases executed with
    | false => exact .kept (sameTasks_set hi rfl rfl) rfl rfl rfl fun _ => rfl
    | true => exact .kept (sameTasks_set hi rfl rfl) rfl rfl rfl fun _ => rfl
  · exact .kept (.of_enqueuers rfl) rfl rfl rfl fun _ => rfl

lemma carried_pop (reply : PopReply) : Carried J s (.pop reply) (s.pop reply) := by
  rw [pop]
  split
  · cases reply with
    | failed => exact .kept (.of_enqueuers rfl) rfl rfl rfl fun _ => rfl
    | lost => exact .kept (.of_enqueuers rfl) rfl rfl rfl fun h => absurd h (by decide)
    | answered =>
        by_cases hempty : (RedisList.rpop batchSize s.list).1.isEmpty = true
        · simp only [if_pos hempty]
          exact .kept (.of_enqueuers rfl) rfl rfl rfl fun _ => rfl
        · simp only [if_neg hempty]
          exact .kept (.of_enqueuers rfl) rfl rfl rfl fun _ => rfl
  · exact .kept (.of_enqueuers rfl) rfl rfl rfl fun _ => rfl

lemma carried_process (now : ℕ) (fault : Option DbError) :
    Carried J s (.process now fault) (s.process J now fault) := by
  rw [process]
  split
  · rename_i item items drained batches hw
    have hhand : item ∈ s.inHand := by
      rw [inHand, hw]
      exact List.mem_cons_self
    cases hrow : logRow J now item.payload with
    | none =>
        have hread : J.fromStr item.payload = none := Option.map_eq_none_iff.1 hrow
        exact .skipped (.of_enqueuers rfl) rfl rfl hhand (.inr hread) rfl
    | some row =>
        cases fault with
        | none => exact .inserted (.of_enqueuers rfl) rfl rfl ⟨now, hrow⟩ rfl rfl
        | some err => exact .skipped (.of_enqueuers rfl) rfl rfl hhand (.inl rfl) rfl
  · exact .kept (.of_enqueuers rfl) rfl rfl rfl fun _ => rfl
  · exact .kept (.of_enqueuers rfl) rfl rfl rfl fun _ => rfl

/-- **Inversion of a move.** -/
lemma carried {m : QueueMove} (hm : m.isOwn = true) : Carried J s m (s.exec J m) := by
  cases m with
  | request payload => cases hm
  | push i executed => exact carried_push i executed
  | trim i executed => exact carried_trim i executed
  | tick =>
      rw [exec]
      split
      · exact .kept (.of_enqueuers rfl) rfl rfl rfl fun _ => rfl
      · exact .kept (.of_enqueuers rfl) rfl rfl rfl fun _ => rfl
  | cancel =>
      rw [exec]
      split
      · exact .kept (.of_enqueuers rfl) rfl rfl rfl fun _ => rfl
      · exact .kept (.of_enqueuers rfl) rfl rfl rfl fun _ => rfl
  | pop reply => exact carried_pop reply
  | process now fault => exact carried_process now fault

/-- What is pushed comes from the tasks that have sent their payload. -/
lemma Sound.of_sent {s' : LogQueue} {sent : List String} (h : s.Sound J)
    (htasks : SameTasks sent s s') (pushed : List String)
    (hpushed : s'.pushed.map Entry.payload = s.pushed.map Entry.payload ++ pushed)
    (hsub : pushed.Sublist sent) :
    (s'.pushed.map Entry.payload ++ s'.unsent).Subperm (s'.enqueuers.map Enqueuer.payload) := by
  rw [htasks.tasks, hpushed, List.append_assoc]
  refine List.Subperm.trans ?_ h.pushes
  refine List.Subperm.trans ?_ (List.Perm.append_left _ htasks.unsent).subperm
  exact ((hsub.append_right _).append_left _).subperm

/-- **One move of a task or of the worker makes up no payload and no row.** -/
lemma Sound.exec {m : QueueMove} (h : s.Sound J) (hm : m.isOwn = true) :
    (s.exec J m).Sound J := by
  have hcarried := carried (J := J) (s := s) hm
  generalize s.exec J m = s' at hcarried
  cases hcarried with
  | kept htasks hpushed hprocessed hrows hlost =>
      refine ⟨h.of_sent htasks [] (by rw [hpushed, List.append_nil]) (.refl _), ?_⟩
      rw [hprocessed, hrows]
      exact h.rows
  | @sent _ _ e htasks hpushed hprocessed hrows hlost =>
      refine ⟨h.of_sent htasks [e.payload] (by rw [hpushed, List.map_append]; rfl) (.refl _), ?_⟩
      rw [hprocessed, hrows]
      exact h.rows
  | unsent htasks hpushed hprocessed hrows =>
      refine ⟨h.of_sent htasks [] (by rw [hpushed, List.append_nil])
        (List.nil_sublist _), ?_⟩
      rw [hprocessed, hrows]
      exact h.rows
  | inserted htasks hpushed hprocessed hrow hrows hlost =>
      refine ⟨h.of_sent htasks [] (by rw [hpushed, List.append_nil]) (.refl _), ?_⟩
      obtain ⟨es, hes, hforall⟩ := h.rows
      rw [hprocessed, hrows]
      exact ⟨_, hes.append (.refl _), List.rel_append hforall (.cons hrow .nil)⟩
  | skipped htasks hpushed hprocessed he hfault hrows =>
      refine ⟨h.of_sent htasks [] (by rw [hpushed, List.append_nil]) (.refl _), ?_⟩
      obtain ⟨es, hes, hforall⟩ := h.rows
      rw [hprocessed, hrows]
      exact ⟨es, hes.trans (List.sublist_append_left _ _), hforall⟩

/-- **One move that loses nothing keeps every payload**, if the payloads can be read. -/
lemma Lossless.exec {m : QueueMove} (h : s.Lossless) (hok : s.Ok) (hm : m.isOwn = true)
    (hlossless : m.lossless = true) (hread : ∀ e ∈ s.pushed, (J.fromStr e.payload).isSome = true) :
    (s.exec J m).Lossless := by
  have hcarried := carried (J := J) (s := s) hm
  generalize s.exec J m = s' at hcarried
  have htotal : ∀ {sent : List String}, SameTasks sent s s' →
      s'.enqueuers.length = s.enqueuers.length ∧
        sent.length + s'.unsent.length = s.unsent.length := fun htasks => by
    have h₁ := congrArg List.length htasks.tasks
    have h₂ := htasks.unsent.length_eq
    rw [List.length_map, List.length_map] at h₁
    rw [List.length_append] at h₂
    exact ⟨h₁, h₂⟩
  have hpushes := h.pushes
  have hrowsle := h.rows
  cases hcarried with
  | kept htasks hpushed hprocessed hrows hlost =>
      obtain ⟨h₁, h₂⟩ := htotal htasks
      rw [List.length_nil] at h₂
      exact ⟨by rw [hpushed]; omega, by rw [hprocessed, hrows]; exact hrowsle,
        (hlost hlossless).trans h.lost⟩
  | sent htasks hpushed hprocessed hrows hlost =>
      obtain ⟨h₁, h₂⟩ := htotal htasks
      rw [List.length_singleton] at h₂
      refine ⟨?_, by rw [hprocessed, hrows]; exact hrowsle, hlost.trans h.lost⟩
      rw [hpushed, List.length_append, List.length_singleton]
      omega
  | unsent htasks hpushed hprocessed hrows => cases hlossless
  | inserted htasks hpushed hprocessed hrow hrows hlost =>
      obtain ⟨h₁, h₂⟩ := htotal htasks
      rw [List.length_nil] at h₂
      refine ⟨by rw [hpushed]; omega, ?_, hlost.trans h.lost⟩
      rw [hprocessed, hrows, List.length_append, List.length_append]
      exact Nat.add_le_add_right hrowsle 1
  | @skipped now fault _ e htasks hpushed hprocessed he hfault hrows =>
      -- neither did the insert fail, nor is the payload unreadable
      have hmem : e ∈ s.pushed := hok.order.subset
        (List.mem_append_left _ (List.mem_append_right _ he))
      rcases hfault with hfault | hunread
      · rw [QueueMove.lossless, ← Option.not_isSome, hfault] at hlossless
        cases hlossless
      · have := hread e hmem
        rw [hunread] at this
        cases this

end Moves

section Spawn

variable (J : PayloadJson) {s : LogQueue} (ps : List ApiRequestLogPayload)

/-- A task is spawned for each payload. -/
def spawn (s : LogQueue) : LogQueue :=
  { s with enqueuers := s.enqueuers ++ ps.map fun p => ⟨J.text p, .spawned⟩ }

lemma run_requests (s : LogQueue) :
    Machine.run (LogQueue.exec J) s (ps.map .request) = s.spawn J ps := by
  induction ps generalizing s with
  | nil => rw [spawn, List.map_nil, List.map_nil, List.append_nil, Machine.run_nil]
  | cons p ps ih =>
      rw [List.map_cons, Machine.run_cons, ih, LogQueue.exec, spawn, spawn, List.map_cons,
        List.append_assoc]
      rfl

lemma unsent_spawn : (s.spawn J ps).unsent = s.unsent ++ ps.map J.text := by
  rw [LogQueue.unsent, LogQueue.unsent, spawn, List.filterMap_append, List.filterMap_map]
  exact congrArg _ (congrFun (List.filterMap_eq_map (f := J.text)) ps)

lemma Ok.spawn (h : s.Ok) : (s.spawn J ps).Ok := by
  refine h.idle ⟨rfl, rfl, rfl, rfl, rfl, rfl, ?_⟩
  rw [LogQueue.spawn, List.countP_append]
  exact Nat.le_add_right _ _

variable {J}

lemma Sound.spawn (h : s.Sound J) : (s.spawn J ps).Sound J := by
  refine ⟨?_, h.rows⟩
  rw [unsent_spawn, ← List.append_assoc, LogQueue.spawn, List.map_append, List.map_map]
  exact h.pushes.append (List.Subperm.refl _)

lemma Lossless.spawn (h : s.Lossless) : (s.spawn J ps).Lossless := by
  refine ⟨?_, h.rows, h.lost⟩
  have hpushes := h.pushes
  rw [unsent_spawn, LogQueue.spawn, List.length_append, List.length_append, List.length_map,
    List.length_map]
  show _ ≤ s.pushed.length + _
  omega

end Spawn

end LogQueue

/-! ### The pipeline -/

/-- The application, and the queue of its request logs. -/
structure Pipeline where
  gateway : Gateway
  queue : LogQueue

/-- A move. -/
inductive PipelineMove where
  | gateway (m : GatewayMove)
  /-- A task or the worker goes on. -/
  | queue (m : QueueMove)

/-- The move loses nothing on its own. -/
def PipelineMove.lossless : PipelineMove → Bool
  | .gateway _ => true
  | .queue m => m.lossless

namespace Pipeline

/-- A process that has just started, over an empty table of request logs. -/
def start (clock : ℕ) (keys : List ApiKey) (tip : TipSnapshot) : Pipeline :=
  ⟨.start clock keys tip, .start []⟩

/-- One move. -/
def exec (cfg : GatewayConfig) (A : Argon2Lib) (ttl : ℕ) (J : PayloadJson) (s : Pipeline) :
    PipelineMove → Pipeline
  | .gateway m =>
      let gateway := s.gateway.exec cfg A ttl m
      -- `record_request_metrics` spawns a task for what the move has logged
      let logged := gateway.log.drop s.gateway.log.length
      ⟨gateway, Machine.run (LogQueue.exec J) s.queue (logged.map .request)⟩
  | .queue m => if m.isOwn then { s with queue := s.queue.exec J m } else s

/-- The state before the move at a position of a run. -/
def stateAt (cfg : GatewayConfig) (A : Argon2Lib) (ttl : ℕ) (J : PayloadJson) (s₀ : Pipeline)
    (ms : List PipelineMove) (k : ℕ) : Pipeline :=
  Machine.before (exec cfg A ttl J) s₀ ms k

/-- The payloads of the finished exchanges that were authenticated. -/
def requests (cfg : GatewayConfig) (s : Pipeline) : List ApiRequestLogPayload :=
  s.gateway.exchanges.filterMap (Exchange.logged cfg)

/-- The tables that the dashboard reads. -/
def dashboard (s : Pipeline) (webhooks : List Webhook) : Dashboard :=
  ⟨s.gateway.auth.apiKeys, webhooks, s.queue.rows⟩

/-- The invariant of the pipeline. -/
structure Tracked (cfg : GatewayConfig) (J : PayloadJson) (s : Pipeline) : Prop where
  metered : s.gateway.Metered cfg
  ok : s.queue.Ok
  sound : s.queue.Sound J
  /-- The tasks are those of the log, in its order. -/
  tasks : s.queue.enqueuers.map Enqueuer.payload = s.gateway.log.map J.text

section Runs

variable {cfg : GatewayConfig} {A : Argon2Lib} {ttl : ℕ} {J : PayloadJson} {s : Pipeline}

/-- The log only grows. -/
lemma log_exec (cfg : GatewayConfig) (A : Argon2Lib) (ttl : ℕ) (g : Gateway) (m : GatewayMove) :
    ∃ logged, (g.exec cfg A ttl m).log = g.log ++ logged := by
  have hm := Gateway.moved cfg A ttl g m
  generalize g.exec cfg A ttl m = g' at hm
  cases hm with
  | finished he hstage hfinal => exact ⟨_, rfl⟩
  | _ => exact ⟨[], (List.append_nil _).symm⟩

lemma exec_gateway (cfg : GatewayConfig) (A : Argon2Lib) (ttl : ℕ) (J : PayloadJson)
    (s : Pipeline) (m : GatewayMove) :
    ∃ logged, (s.gateway.exec cfg A ttl m).log = s.gateway.log ++ logged ∧
      s.exec cfg A ttl J (.gateway m) =
        ⟨s.gateway.exec cfg A ttl m, s.queue.spawn J logged⟩ := by
  obtain ⟨logged, hlog⟩ := log_exec cfg A ttl s.gateway m
  refine ⟨logged, hlog, ?_⟩
  rw [Pipeline.exec, hlog, List.drop_left, LogQueue.run_requests]

/-- The tasks after a move of the queue are those before it. -/
lemma tasks_exec {q : LogQueue} {m : QueueMove} (hm : m.isOwn = true) :
    (q.exec J m).enqueuers.map Enqueuer.payload = q.enqueuers.map Enqueuer.payload := by
  have hcarried := LogQueue.carried (J := J) (s := q) hm
  generalize q.exec J m = q' at hcarried
  cases hcarried with
  | kept htasks => exact htasks.tasks
  | sent htasks => exact htasks.tasks
  | unsent htasks => exact htasks.tasks
  | inserted htasks => exact htasks.tasks
  | skipped htasks => exact htasks.tasks

/-- **Every move keeps the pipeline tracked.** -/
lemma Tracked.exec (h : s.Tracked cfg J) (A : Argon2Lib) (ttl : ℕ) (m : PipelineMove) :
    (s.exec cfg A ttl J m).Tracked cfg J := by
  cases m with
  | gateway m =>
      obtain ⟨logged, hlog, hexec⟩ := exec_gateway cfg A ttl J s m
      rw [hexec]
      exact {
        metered := h.metered.exec A ttl m
        ok := h.ok.spawn J logged
        sound := h.sound.spawn logged
        tasks := by
          rw [hlog, LogQueue.spawn, List.map_append, List.map_append, h.tasks, List.map_map]
          rfl }
  | queue m =>
      rw [Pipeline.exec]
      split
      · rename_i hm
        exact ⟨h.metered, (LogQueue.moved J _ m).ok h.ok, h.sound.exec hm,
          (tasks_exec hm).trans h.tasks⟩
      · exact h

/-- Every push can be read. -/
lemma Tracked.read (h : s.Tracked cfg J) {e : Entry}
    (he : e ∈ s.queue.pushed) : ∃ p ∈ s.gateway.log, e.payload = J.text p := by
  have hmem : e.payload ∈ s.gateway.log.map J.text := by
    rw [← h.tasks]
    exact h.sound.pushes.subset (List.mem_append_left _ (List.mem_map_of_mem he))
  obtain ⟨p, hp, htext⟩ := List.mem_map.1 hmem
  exact ⟨p, hp, htext.symm⟩

/-- The row shows a payload, with the two counts in the signed columns. -/
structure RowOf (p : ApiRequestLogPayload) (row : ApiRequestLog) : Prop where
  apiKeyId : row.apiKeyId = p.apiKeyId
  method : row.method = p.method
  path : row.path = p.path
  statusCode : row.statusCode = p.statusCode.toBitVec.toInt
  latencyMs : row.latencyMs = p.latencyMs.toBitVec.toInt

lemma forall₂_rowOf {es : List Entry} {rows : List ApiRequestLog}
    (h : List.Forall₂ (InsertedFor J) es rows) :
    List.Forall₂ RowOf ((es.map Entry.payload).filterMap J.fromStr) rows := by
  induction h with
  | nil => exact .nil
  | @cons e row es rows hrow _ ih =>
      obtain ⟨now, hrow⟩ := hrow
      obtain ⟨p, hread, rfl⟩ := Option.map_eq_some_iff.1 hrow
      rw [List.map_cons, List.filterMap_cons_some hread]
      exact .cons ⟨rfl, rfl, rfl, rfl, rfl⟩ ih

/-- **No row is made up, and none is there twice**: the rows show some of the requests. -/
lemma Tracked.rows (h : s.Tracked cfg J) (hJ : ∀ p ∈ s.gateway.log, J.ReadsBack p) :
    ∃ ps, List.Forall₂ RowOf ps s.queue.rows ∧ ps.Subperm (s.requests cfg) := by
  obtain ⟨es, hes, hrows⟩ := h.sound.rows
  refine ⟨_, forall₂_rowOf hrows, ?_⟩
  have hprocessed : s.queue.processed.Sublist s.queue.pushed := by
    refine List.Sublist.trans ?_ h.ok.order
    rw [List.append_assoc]
    exact List.sublist_append_left _ _
  have htexts : (es.map Entry.payload).Subperm (s.gateway.log.map J.text) := by
    rw [← h.tasks]
    refine List.Subperm.trans ?_ h.sound.pushes
    exact (((hes.trans hprocessed).map _).trans (List.sublist_append_left _ _)).subperm
  -- reading the texts gives the log back
  have hread : (s.gateway.log.map J.text).filterMap J.fromStr = s.gateway.log := by
    rw [List.filterMap_map]
    exact (List.filterMap_congr fun p hp => (hJ p hp).fromStr_text).trans List.filterMap_some
  obtain ⟨texts, hperm, hsub⟩ := htexts
  refine List.Subperm.trans ⟨_, hperm.filterMap J.fromStr, hsub.filterMap J.fromStr⟩ ?_
  rw [hread]
  exact h.metered.log.subperm

end Runs

end Pipeline

/-! ### What the dashboard counts -/

namespace Pipeline

section Counts

variable {cfg : GatewayConfig} {J : PayloadJson} {s : Pipeline}

end Counts

end Pipeline

namespace UsageSample

/-- The payload of the request with a key. -/
def logged : ApiRequestLogPayload := ⟨Sample.keyRow.id, "GET", "/v1/cells", 200, 5⟩

/-- Its object, with the fields in the order of the declaration. -/
def text : String :=
  "\x7b\"api_key_id\":\"00000000-0000-0000-0000-000000000001\",\"method\":\"GET\"," ++
    "\"path\":\"/v1/cells\",\"status_code\":200,\"latency_ms\":5\x7d"

/-- `serde_json` on this payload. -/
def json : PayloadJson where
  toString := fun p => if p = logged then some text else none
  fromStr := fun s => if s = text then some logged else none

/-- The two exchanges of the sample, and the way of the one payload into the table. -/
def moves : List PipelineMove :=
  GatewaySample.moves.map .gateway ++
    [.queue (.push 0 true), .queue (.trim 0 true), .queue .tick, .queue (.pop .answered),
      .queue (.process 1000 none), .queue (.process 1000 none)]

/-- The state after all moves. -/
def final : Pipeline :=
  Pipeline.stateAt GatewaySample.cfg Sample.argon2 60000 json
    (Pipeline.start 0 [Sample.keyRow] GatewaySample.tip) moves 17

lemma json_readsBack : json.ReadsBack logged :=
  ⟨text, by simp [json], by simp [json]⟩

end UsageSample

end Api

end Cellora
