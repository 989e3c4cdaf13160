/-
# The queue of request logs

Every authenticated request spawns a task that pushes a payload on the Redis list
`api_request_logs` and then trims the list; a worker pops batches from the other end once a
second and inserts the payloads into the table of the same name.  Each command is one atomic
step on the list.  A command can fail without an effect, and the answer to a pop can be lost
on the way after the pop took effect.

An element of the list carries the number of its push, so that two requests with the same
payload are told apart; the records of all pushes, of what was trimmed and of what was lost
are there to state what happens to it.
-/
import Cellora.Db.ApiKeys
import Cellora.Lib.Machine
import Cellora.Lib.RedisList
import Mathlib.Data.List.Range

namespace Cellora

namespace Api

/-- `ApiRequestLogPayload`. -/
structure ApiRequestLogPayload where
  apiKeyId : Uuid
  method : String
  path : String
  statusCode : UInt16
  latencyMs : UInt32
deriving DecidableEq

/-- The functions of `serde_json` on payloads. -/
structure PayloadJson where
  toString : ApiRequestLogPayload → Option String
  fromStr : String → Option ApiRequestLogPayload

/-- A row of `api_request_logs`.  The serial number is left out. -/
structure ApiRequestLog where
  timestamp : ℕ
  apiKeyId : Uuid
  method : String
  path : String
  statusCode : ℤ
  latencyMs : ℤ
deriving DecidableEq

/-- An element of the list: a payload, and the number of its push. -/
structure Entry where
  seq : ℕ
  payload : String
deriving DecidableEq

/-- `MAX_BUFFERED_LOGS`. -/
def maxBufferedLogs : ℕ := 100000

/-- `BATCH_SIZE`. -/
def batchSize : ℕ := 100

/-- `MAX_BATCHES_PER_TICK`. -/
def maxBatchesPerTick : ℕ := 10

/-- How far a spawned task has come.  The flag says whether its push took effect. -/
inductive EnqueueStage where
  | spawned
  | trimming (pushed : Bool)
  /-- Its trim took effect. -/
  | trimmed
  /-- Its trim failed. -/
  | untrimmed (pushed : Bool)
deriving DecidableEq

/-- A spawned task. -/
structure Enqueuer where
  payload : String
  stage : EnqueueStage
deriving DecidableEq

/-- The state of the worker. -/
inductive Worker where
  /-- It waits for the next tick. -/
  | waiting
  /-- It is about to pop, with the number of batches that remain in this tick. -/
  | popping (batchesRemaining : ℕ)
  /-- It inserts the items of a batch of the given size. -/
  | inserting (items : List Entry) (drained batchesRemaining : ℕ)
  | stopped
deriving DecidableEq

/-- How a pop ends. -/
inductive PopReply where
  | answered
  /-- It took effect, but its answer was lost. -/
  | lost
  | failed
deriving DecidableEq

/-- The Redis list, the tasks and the worker, the rows the worker has inserted, and the records
of what was pushed, processed, trimmed and lost. -/
structure LogQueue where
  list : List Entry
  enqueuers : List Enqueuer
  worker : Worker
  rows : List ApiRequestLog
  pushed : List Entry
  processed : List Entry
  trimmed : List Entry
  lost : List Entry

/-- A move. -/
inductive QueueMove where
  /-- An authenticated request is answered. -/
  | request (payload : ApiRequestLogPayload)
  /-- The `LPUSH` of a task. -/
  | push (i : ℕ) (executed : Bool)
  /-- The `LTRIM` of a task. -/
  | trim (i : ℕ) (executed : Bool)
  | tick
  | cancel
  /-- The next `RPOP` of the worker. -/
  | pop (reply : PopReply)
  /-- The worker goes on with its batch; the `INSERT` may fail. -/
  | process (now : ℕ) (fault : Option DbError)

/-- The push of the task took effect, and its trim has not. -/
def Enqueuer.owesTrim (t : Enqueuer) : Bool :=
  match t.stage with
  | .trimming pushed => pushed
  | .untrimmed pushed => pushed
  | _ => false

/-- The worker after a batch, with the number of batches that remain. -/
def Worker.loop : ℕ → Worker
  | 0 => .waiting
  | batches + 1 => .popping (batches + 1)

/-- The row that the worker inserts for a payload, if it can be read. -/
def logRow (J : PayloadJson) (now : ℕ) (payload : String) : Option ApiRequestLog :=
  (J.fromStr payload).map fun p =>
    ⟨now, p.apiKeyId, p.method, p.path, p.statusCode.toBitVec.toInt, p.latencyMs.toBitVec.toInt⟩

namespace LogQueue

/-- An empty list, no tasks and a worker that has just started. -/
def start (rows : List ApiRequestLog) : LogQueue := ⟨[], [], .waiting, rows, [], [], [], []⟩

/-- The items the worker has popped and not yet processed. -/
def inHand (s : LogQueue) : List Entry :=
  match s.worker with
  | .inserting items _ _ => items
  | _ => []

/-- The `LPUSH` of a task. -/
def push (s : LogQueue) (i : ℕ) (executed : Bool) : LogQueue :=
  match s.enqueuers[i]? with
  | some ⟨payload, .spawned⟩ =>
      let s := { s with enqueuers := s.enqueuers.set i ⟨payload, .trimming executed⟩ }
      if executed then
        let entry : Entry := ⟨s.pushed.length, payload⟩
        { s with list := RedisList.lpush entry s.list, pushed := s.pushed ++ [entry] }
      else s
  | _ => s

/-- The `LTRIM` of a task, which it issues even if its push failed. -/
def trim (s : LogQueue) (i : ℕ) (executed : Bool) : LogQueue :=
  match s.enqueuers[i]? with
  | some ⟨payload, .trimming pushed⟩ =>
      if executed then
        { s with
          enqueuers := s.enqueuers.set i ⟨payload, .trimmed⟩
          list := RedisList.ltrim 0 (maxBufferedLogs - 1) s.list
          trimmed := s.trimmed ++ s.list.drop maxBufferedLogs }
      else { s with enqueuers := s.enqueuers.set i ⟨payload, .untrimmed pushed⟩ }
  | _ => s

/-- The next `RPOP` of the worker. -/
def pop (s : LogQueue) (reply : PopReply) : LogQueue :=
  match s.worker with
  | .popping (batches + 1) =>
      let (items, rest) := RedisList.rpop batchSize s.list
      match reply with
      | .failed => { s with worker := .waiting }
      | .lost => { s with list := rest, lost := s.lost ++ items, worker := .waiting }
      | .answered =>
          if items.isEmpty then { s with list := rest, worker := .waiting }
          else { s with list := rest, worker := .inserting items items.length batches }
  | _ => s

/-- The worker goes on with its batch: it processes the next item, or ends the batch. -/
def process (J : PayloadJson) (s : LogQueue) (now : ℕ) (fault : Option DbError) : LogQueue :=
  match s.worker with
  | .inserting (item :: items) drained batches =>
      let s := { s with
        processed := s.processed ++ [item]
        worker := .inserting items drained batches }
      match logRow J now item.payload, fault with
      | some row, none => { s with rows := s.rows ++ [row] }
      | _, _ => s
  | .inserting [] drained batches =>
      { s with worker := if drained < batchSize then .waiting else Worker.loop batches }
  | _ => s

/-- One move. -/
def exec (J : PayloadJson) (s : LogQueue) : QueueMove → LogQueue
  | .request payload =>
      { s with enqueuers := s.enqueuers ++ [⟨(J.toString payload).getD "", .spawned⟩] }
  | .push i executed => s.push i executed
  | .trim i executed => s.trim i executed
  | .tick => match s.worker with
      | .waiting => { s with worker := Worker.loop maxBatchesPerTick }
      | _ => s
  | .cancel => match s.worker with
      | .waiting => { s with worker := .stopped }
      | _ => s
  | .pop reply => s.pop reply
  | .process now fault => s.process J now fault

/-- The state before the move at a position of a run. -/
def stateAt (J : PayloadJson) (rows : List ApiRequestLog) (ms : List QueueMove) (k : ℕ) :
    LogQueue :=
  Machine.before (exec J) (start rows) ms k

/-! ### One move -/

/-- The part of the state that a move can change without touching the list or an item: it
keeps the records, and no task that owes a trim is forgotten. -/
structure SameItems (s s' : LogQueue) : Prop where
  list : s'.list = s.list
  inHand : s'.inHand = s.inHand
  pushed : s'.pushed = s.pushed
  processed : s'.processed = s.processed
  trimmed : s'.trimmed = s.trimmed
  lost : s'.lost = s.lost
  owes : s.enqueuers.countP Enqueuer.owesTrim ≤ s'.enqueuers.countP Enqueuer.owesTrim

/-- What a move can do. -/
inductive Moved (s : LogQueue) : LogQueue → Prop
  | idle {s' : LogQueue} (h : SameItems s s') : Moved s s'
  | pushed {payload : String} {enqueuers : List Enqueuer}
      (howes : enqueuers.countP Enqueuer.owesTrim =
        s.enqueuers.countP Enqueuer.owesTrim + 1) :
      Moved s { s with
        enqueuers := enqueuers
        list := RedisList.lpush ⟨s.pushed.length, payload⟩ s.list
        pushed := s.pushed ++ [⟨s.pushed.length, payload⟩] }
  | trimmed (enqueuers : List Enqueuer) :
      Moved s { s with
        enqueuers := enqueuers
        list := s.list.take maxBufferedLogs
        trimmed := s.trimmed ++ s.list.drop maxBufferedLogs }
  | popped (hhand : s.inHand = []) (w : Worker)
      (hw : ({ s with worker := w } : LogQueue).inHand = (RedisList.rpop batchSize s.list).1) :
      Moved s { s with list := (RedisList.rpop batchSize s.list).2, worker := w }
  | lost (hhand : s.inHand = []) :
      Moved s { s with
        list := (RedisList.rpop batchSize s.list).2
        lost := s.lost ++ (RedisList.rpop batchSize s.list).1
        worker := .waiting }
  | processed {item : Entry} {items : List Entry} {drained batches : ℕ}
      (hw : s.worker = .inserting (item :: items) drained batches) (rows : List ApiRequestLog) :
      Moved s { s with
        processed := s.processed ++ [item]
        worker := .inserting items drained batches
        rows := rows }

lemma SameItems.refl (s : LogQueue) : SameItems s s := ⟨rfl, rfl, rfl, rfl, rfl, rfl, le_rfl⟩

lemma moved_push (s : LogQueue) (i : ℕ) (executed : Bool) : Moved s (s.push i executed) := by
  rw [push]
  split
  · rename_i payload hi
    have hcount := Machine.countP_set_add (p := Enqueuer.owesTrim) hi ⟨payload, .trimming executed⟩
    cases executed with
    | false => exact .idle ⟨rfl, rfl, rfl, rfl, rfl, rfl, hcount.ge⟩
    | true => exact .pushed hcount
  · exact .idle (.refl s)

lemma moved_trim (s : LogQueue) (i : ℕ) (executed : Bool) : Moved s (s.trim i executed) := by
  rw [trim]
  split
  · rename_i payload pushed hi
    cases executed with
    | false =>
        have hcount := Machine.countP_set_add (p := Enqueuer.owesTrim) hi
          ⟨payload, .untrimmed pushed⟩
        refine .idle ⟨rfl, rfl, rfl, rfl, rfl, rfl, ?_⟩
        cases pushed <;> exact (Nat.add_right_cancel hcount).ge
    | true =>
        rw [if_pos rfl, RedisList.ltrim_zero (by decide)]
        exact .trimmed _
  · exact .idle (.refl s)

lemma moved_pop (s : LogQueue) (reply : PopReply) : Moved s (s.pop reply) := by
  rw [pop]
  split
  · rename_i batches hw
    have hhand : s.inHand = [] := by
      rw [inHand, hw]
    cases reply with
    | failed => exact .idle ⟨rfl, hhand.symm, rfl, rfl, rfl, rfl, le_rfl⟩
    | lost => exact .lost hhand
    | answered =>
        by_cases hempty : (RedisList.rpop batchSize s.list).1.isEmpty = true
        · simp only [if_pos hempty]
          exact .popped hhand .waiting (List.isEmpty_iff.1 hempty).symm
        · simp only [if_neg hempty]
          exact .popped hhand _ rfl
  · exact .idle (.refl s)

lemma moved_process (J : PayloadJson) (s : LogQueue) (now : ℕ) (fault : Option DbError) :
    Moved s (s.process J now fault) := by
  rw [process]
  split
  · rename_i item items drained batches hw
    split
    · exact .processed hw _
    · exact .processed hw _
  · rename_i drained batches hw
    refine .idle ⟨rfl, ?_, rfl, rfl, rfl, rfl, le_rfl⟩
    have hhand : s.inHand = [] := by
      rw [inHand, hw]
    rw [hhand, inHand]
    split_ifs
    · rfl
    · cases batches <;> rfl
  · exact .idle (.refl s)

/-- **Inversion of a move.** -/
lemma moved (J : PayloadJson) (s : LogQueue) (m : QueueMove) : Moved s (s.exec J m) := by
  cases m with
  | request payload =>
      refine .idle ⟨rfl, rfl, rfl, rfl, rfl, rfl, ?_⟩
      rw [exec, List.countP_append]
      exact Nat.le_add_right _ _
  | push i executed => exact moved_push s i executed
  | trim i executed => exact moved_trim s i executed
  | tick =>
      rw [exec]
      split
      · rename_i hw
        refine .idle ⟨rfl, ?_, rfl, rfl, rfl, rfl, le_rfl⟩
        rw [inHand, inHand, hw]
        rfl
      · exact .idle (.refl s)
  | cancel =>
      rw [exec]
      split
      · rename_i hw
        refine .idle ⟨rfl, ?_, rfl, rfl, rfl, rfl, le_rfl⟩
        rw [inHand, inHand, hw]
      · exact .idle (.refl s)
  | pop reply => exact moved_pop s reply
  | process now fault => exact moved_process J s now fault

/-! ### Whole runs -/

/-- The invariant of the queue. -/
structure Ok (s : LogQueue) : Prop where
  /-- The pushes are numbered in order. -/
  seqs : s.pushed.map Entry.seq = List.range s.pushed.length
  /-- What was processed, is in hand and is queued are pushes, in the order of the pushes. -/
  order : (s.processed ++ s.inHand ++ RedisList.queue s.list).Sublist s.pushed
  bound : s.list.length ≤ maxBufferedLogs + s.enqueuers.countP Enqueuer.owesTrim
  /-- Every push is in exactly one place. -/
  placed : ∀ e, s.pushed.count e = s.processed.count e + s.inHand.count e + s.list.count e +
    s.trimmed.count e + s.lost.count e

lemma ok_start (rows : List ApiRequestLog) : Ok (start rows) :=
  ⟨rfl, List.Sublist.refl _, Nat.zero_le _, fun _ => rfl⟩

lemma count_rpop (count : ℕ) (l : List Entry) (e : Entry) :
    l.count e = (RedisList.rpop count l).1.count e + (RedisList.rpop count l).2.count e := by
  have := congrArg (List.count e) (RedisList.rpop_append count l)
  rw [List.count_append, RedisList.queue, RedisList.queue, List.count_reverse,
    List.count_reverse] at this
  exact this.symm

lemma Ok.idle {s s' : LogQueue} (h : Ok s) (hsame : SameItems s s') : Ok s' := by
  obtain ⟨hlist, hhand, hpushed, hprocessed, htrimmed, hlost, howes⟩ := hsame
  refine ⟨?_, ?_, ?_, ?_⟩
  · rw [hpushed]
    exact h.seqs
  · rw [hprocessed, hhand, hlist, hpushed]
    exact h.order
  · rw [hlist]
    exact h.bound.trans (Nat.add_le_add_left howes _)
  · rw [hprocessed, hhand, hlist, hpushed, htrimmed, hlost]
    exact h.placed

/-- A push goes to the end of the queue, and its enqueuer owes a trim. -/
lemma Ok.pushed {s : LogQueue} (h : Ok s) (payload : String) {enqueuers : List Enqueuer}
    (howes : enqueuers.countP Enqueuer.owesTrim = s.enqueuers.countP Enqueuer.owesTrim + 1) :
    Ok { s with
      enqueuers := enqueuers
      list := RedisList.lpush ⟨s.pushed.length, payload⟩ s.list
      pushed := s.pushed ++ [⟨s.pushed.length, payload⟩] } := by
  refine ⟨?_, ?_, ?_, fun e => ?_⟩
  · simp only [List.map_append, List.map_singleton, h.seqs, List.length_append,
      List.length_singleton, List.range_succ]
  · simp only [RedisList.queue_lpush, ← List.append_assoc]
    exact h.order.append (List.Sublist.refl _)
  · have := h.bound
    simp only [RedisList.lpush, List.length_cons]
    omega
  · have := h.placed e
    simp only [RedisList.lpush, List.count_append, List.count_cons, List.count_nil] at this ⊢
    change _ = _ + s.inHand.count e + _ + _ + _
    omega

/-- A trim drops the oldest pushes of the queue. -/
lemma Ok.trimmed {s : LogQueue} (h : Ok s) (enqueuers : List Enqueuer) :
    Ok { s with
      enqueuers := enqueuers
      list := s.list.take maxBufferedLogs
      trimmed := s.trimmed ++ s.list.drop maxBufferedLogs } := by
  refine ⟨h.seqs, ?_, ?_, fun e => ?_⟩
  · refine List.Sublist.trans ?_ h.order
    rw [← RedisList.queue_take maxBufferedLogs s.list]
    exact List.Sublist.append_left (List.sublist_append_right _ _) _
  · simp only [List.length_take]
    omega
  · have := h.placed e
    have hsplit := congrArg (List.count e) (List.take_append_drop maxBufferedLogs s.list)
    rw [List.count_append] at hsplit
    simp only [List.count_append]
    change _ = _ + s.inHand.count e + _ + _ + _
    omega

/-- The worker takes the front of the queue in its hand. -/
lemma Ok.popped {s : LogQueue} (h : Ok s) (hhand : s.inHand = []) {w : Worker}
    (hw : ({ s with worker := w } : LogQueue).inHand = (RedisList.rpop batchSize s.list).1) :
    Ok { s with list := (RedisList.rpop batchSize s.list).2, worker := w } := by
  refine ⟨h.seqs, ?_, ?_, fun e => ?_⟩
  · have := h.order
    rw [hhand, List.append_nil, ← RedisList.rpop_append batchSize, ← List.append_assoc] at this
    change (s.processed ++ ({ s with worker := w } : LogQueue).inHand ++ _).Sublist _
    rw [hw]
    exact this
  · exact (RedisList.length_rpop_le _ _).trans h.bound
  · have := h.placed e
    rw [hhand, count_rpop batchSize s.list e] at this
    change s.pushed.count e = s.processed.count e +
      ({ s with worker := w } : LogQueue).inHand.count e +
      (RedisList.rpop batchSize s.list).2.count e + s.trimmed.count e + s.lost.count e
    rw [hw, this, List.count_nil]
    omega

/-- The front of the queue is lost on its way to the worker. -/
lemma Ok.lost {s : LogQueue} (h : Ok s) (hhand : s.inHand = []) :
    Ok { s with
      list := (RedisList.rpop batchSize s.list).2
      lost := s.lost ++ (RedisList.rpop batchSize s.list).1
      worker := .waiting } := by
  refine ⟨h.seqs, ?_, ?_, fun e => ?_⟩
  · refine List.Sublist.trans ?_ h.order
    rw [hhand, ← RedisList.rpop_append batchSize s.list]
    exact List.Sublist.append_left (List.sublist_append_right _ _) _
  · exact (RedisList.length_rpop_le _ _).trans h.bound
  · have := h.placed e
    rw [hhand, count_rpop batchSize s.list e] at this
    change s.pushed.count e = s.processed.count e + List.count e [] +
      (RedisList.rpop batchSize s.list).2.count e + s.trimmed.count e +
      (s.lost ++ (RedisList.rpop batchSize s.list).1).count e
    rw [this, List.count_append]
    omega

/-- The worker is done with the first push in its hand. -/
lemma Ok.processed {s : LogQueue} (h : Ok s) {item : Entry} {items : List Entry}
    {drained batches : ℕ} (hw : s.worker = .inserting (item :: items) drained batches)
    (rows : List ApiRequestLog) :
    Ok { s with
      processed := s.processed ++ [item]
      worker := .inserting items drained batches
      rows := rows } := by
  have hhand : s.inHand = item :: items := by
    rw [inHand, hw]
  refine ⟨h.seqs, ?_, h.bound, fun e => ?_⟩
  · have := h.order
    rw [hhand] at this
    change (s.processed ++ [item] ++ items ++ _).Sublist _
    rwa [List.append_assoc s.processed]
  · have := h.placed e
    rw [hhand] at this
    change s.pushed.count e = (s.processed ++ [item]).count e + items.count e +
      s.list.count e + s.trimmed.count e + s.lost.count e
    rw [this, List.count_append, List.count_cons, List.count_singleton]
    omega

/-- **One move keeps the queue in order.** -/
lemma Moved.ok {s s' : LogQueue} (h : Ok s) (hm : Moved s s') : Ok s' := by
  cases hm with
  | idle hsame => exact h.idle hsame
  | pushed howes => exact h.pushed _ howes
  | trimmed enqueuers => exact h.trimmed enqueuers
  | popped hhand w hw => exact h.popped hhand hw
  | lost hhand => exact h.lost hhand
  | processed hw rows => exact h.processed hw rows

/-- The invariant holds before every move of a run. -/
lemma ok_stateAt (J : PayloadJson) (rows : List ApiRequestLog) (ms : List QueueMove) (k : ℕ) :
    Ok (stateAt J rows ms k) := by
  refine Machine.before_induction (exec J) (fun _ s => Ok s) (ok_start rows)
    (fun k m _ hk => ?_) (fun _ _ h => h) k
  exact (moved J _ m).ok hk

/-- The list holds the pushes with the newest first. -/
lemma Ok.pairwise {s : LogQueue} (h : Ok s) : s.list.Pairwise fun e e' => e'.seq < e.seq := by
  have hpushed : s.pushed.Pairwise fun e e' => e.seq < e'.seq := by
    have hrange := List.pairwise_lt_range (n := s.pushed.length)
    rw [← h.seqs, List.pairwise_map] at hrange
    exact hrange
  have hqueue := (hpushed.sublist h.order).sublist (List.sublist_append_right _ _)
  rwa [RedisList.queue, List.pairwise_reverse] at hqueue

lemma Ok.nodup_pushed {s : LogQueue} (h : Ok s) : s.pushed.Nodup := by
  refine List.Nodup.of_map Entry.seq ?_
  rw [h.seqs]
  exact List.nodup_range

/-- What a trim discards had as many newer payloads above it in the list as the list may
keep. -/
lemma Ok.newer_of_trim {s : LogQueue} (h : Ok s) {i : ℕ} {executed : Bool} {e : Entry}
    (he : e ∈ s.list) (hgone : e ∉ (s.trim i executed).list) :
    maxBufferedLogs ≤ s.list.countP fun e' => e.seq < e'.seq := by
  rw [trim] at hgone
  split at hgone
  · cases executed with
    | false => exact absurd he hgone
    | true =>
        rw [if_pos rfl, RedisList.ltrim_zero (by decide)] at hgone
        -- it is in the part that is cut off
        have hdrop : e ∈ s.list.drop maxBufferedLogs := by
          rw [← List.take_append_drop maxBufferedLogs s.list] at he
          exact (List.mem_append.1 he).resolve_left hgone
        obtain ⟨hlen, hnewer⟩ := RedisList.take_newer h.pairwise hdrop
        calc maxBufferedLogs = (s.list.take maxBufferedLogs).length := hlen.symm
          _ = (s.list.take maxBufferedLogs).countP fun e' => e.seq < e'.seq :=
              (List.countP_eq_length.2 fun e' he' => decide_eq_true (hnewer e' he')).symm
          _ ≤ s.list.countP fun e' => e.seq < e'.seq :=
              (List.take_sublist _ _).countP_le
  · exact absurd he hgone

end LogQueue

/-- **The queue of request logs keeps the order and loses only overflow.**  Before every move of
a run: the payloads the worker has processed are a subsequence of the pushes, none of them
twice; a trim discards a payload only if at least `MAX_BUFFERED_LOGS` newer ones are in the
list; the list is not longer than that and the number of tasks that have pushed and not yet
trimmed; and every push is processed, in the hands of the worker, in the list, trimmed, or was
in an answer to the worker that got lost. -/
theorem request_log_queue_ordered (J : PayloadJson) (rows : List ApiRequestLog)
    (ms : List QueueMove) (k : ℕ) :
    let s := LogQueue.stateAt J rows ms k
    s.pushed.map Entry.seq = List.range s.pushed.length ∧
    s.processed.Sublist s.pushed ∧ s.processed.Nodup ∧
    (∀ i executed, ∀ e ∈ s.list, e ∉ (s.exec J (.trim i executed)).list →
      maxBufferedLogs ≤ s.list.countP fun e' => e.seq < e'.seq) ∧
    s.list.length ≤ maxBufferedLogs + s.enqueuers.countP Enqueuer.owesTrim ∧
    s.pushed.Perm (s.processed ++ s.inHand ++ s.list ++ s.trimmed ++ s.lost) := by
  intro s
  have hok : s.Ok := LogQueue.ok_stateAt J rows ms k
  have horder : s.processed.Sublist s.pushed := by
    refine List.Sublist.trans ?_ hok.order
    rw [List.append_assoc]
    exact List.sublist_append_left _ _
  refine ⟨hok.seqs, horder, hok.nodup_pushed.sublist horder,
    fun i executed e he hgone => hok.newer_of_trim he hgone, hok.bound, ?_⟩
  rw [List.perm_iff_count]
  intro e
  simp only [List.count_append]
  exact hok.placed e

end Api

end Cellora
