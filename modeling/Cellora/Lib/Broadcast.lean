/-
# A bounded broadcast channel

Every receiver of the channel gets, in order, the values that are sent after it subscribed.
The channel retains the last `capacity` values.  A receiver that falls further behind is told
once how many values it has missed, and goes on with the oldest one that is retained.

A consumer is a loop over `recv`, and the results it stops at are a parameter.  One that stops
only when the channel is closed receives every value that is still retained when it gets there
(`accounts_run`).  One that stops at every error agrees with it exactly as long as no `recv`
finds it more than `capacity` values behind (`not_ended_iff_inTime`).
-/
import Cellora.Lib.Machine
import Mathlib.Data.List.Induction

namespace Cellora

namespace Broadcast

variable {α : Type}

/-! ### The channel -/

/-- What `recv` returns. -/
inductive Recv (α : Type) where
  | ok (value : α)
  | lagged (skipped : ℕ)
  | closed
deriving DecidableEq

/-- `Result::ok`. -/
def Recv.ok? : Recv α → Option α
  | .ok value => some value
  | .lagged _ => none
  | .closed => none

/-- The channel, with all values that were ever sent. -/
structure Channel (α : Type) where
  sent : List α
  /-- All senders are gone. -/
  closed : Bool
deriving DecidableEq

/-- `recv` for a receiver at the position `next`: the result and the new position, or `none` if
it has to wait. -/
def Channel.recv (capacity : ℕ) (ch : Channel α) (next : ℕ) : Option (Recv α × ℕ) :=
  if next + capacity < ch.sent.length then
    some (.lagged (ch.sent.length - capacity - next), ch.sent.length - capacity)
  else
    match ch.sent[next]? with
    | some value => some (.ok value, next + 1)
    | none => if ch.closed then some (.closed, next) else none

/-- A move of the senders or of the consumer. -/
inductive Move (α : Type) where
  | send (value : α)
  | close
  | recv
deriving DecidableEq

/-- What a move does to the channel. -/
def Channel.exec (ch : Channel α) : Move α → Channel α
  | .send value => if ch.closed then ch else { ch with sent := ch.sent ++ [value] }
  | .close => { ch with closed := true }
  | .recv => ch

/-- What `recv` can do. -/
lemma Channel.recv_cases {capacity next next' : ℕ} {ch : Channel α} {r : Recv α}
    (h : ch.recv capacity next = some (r, next')) :
    (∃ value, ch.sent[next]? = some value ∧ ch.sent.length ≤ next + capacity ∧
        r = .ok value ∧ next' = next + 1) ∨
      (∃ skipped, 0 < skipped ∧ next + skipped + capacity = ch.sent.length ∧
        r = .lagged skipped ∧ next' = next + skipped) ∨
      (ch.closed = true ∧ ch.sent.length ≤ next ∧ r = .closed ∧ next' = next) := by
  rw [Channel.recv] at h
  split at h
  · rename_i hlag
    cases h
    exact .inr (.inl ⟨_, by omega, by omega, rfl, by omega⟩)
  · rename_i hkept
    split at h
    · rename_i value hvalue
      cases h
      exact .inl ⟨value, hvalue, by omega, rfl, rfl⟩
    · rename_i hnone
      split at h
      · rename_i hclosed
        cases h
        exact .inr (.inr ⟨hclosed, List.getElem?_eq_none_iff.1 hnone, rfl, rfl⟩)
      · cases h

/-- A receiver that waits has received everything. -/
lemma Channel.length_le_of_recv_eq_none {capacity next : ℕ} {ch : Channel α}
    (h : ch.recv capacity next = none) : ch.sent.length ≤ next := by
  rw [Channel.recv] at h
  split at h
  · cases h
  · split at h
    · cases h
    · rename_i hnone
      exact List.getElem?_eq_none_iff.1 hnone

/-! ### A consumer -/

/-- A task in a loop over `recv`. -/
structure Consumer (α : Type) where
  channel : Channel α
  /-- The position of its receiver. -/
  next : ℕ
  /-- What `recv` has returned to it. -/
  results : List (Recv α)
deriving DecidableEq

/-- `subscribe`: the receiver gets what is sent from now on. -/
def Channel.subscribe (ch : Channel α) : Consumer α := ⟨ch, ch.sent.length, []⟩

/-- The values a consumer has received. -/
def Consumer.received (c : Consumer α) : List α := c.results.filterMap Recv.ok?

/-- The loop has seen a result that it stops at. -/
def Consumer.Ended (stops : Recv α → Bool) (c : Consumer α) : Prop :=
  ∃ r ∈ c.results, stops r = true

instance (stops : Recv α → Bool) (c : Consumer α) : Decidable (c.Ended stops) :=
  inferInstanceAs (Decidable (∃ r ∈ c.results, stops r = true))

/-- A move of the senders, or one round of the loop. -/
def Consumer.exec (capacity : ℕ) (stops : Recv α → Bool) (c : Consumer α) (m : Move α) :
    Consumer α :=
  match m with
  | .send value => { c with channel := c.channel.exec (.send value) }
  | .close => { c with channel := c.channel.exec .close }
  | .recv =>
      if c.Ended stops then c
      else
        match c.channel.recv capacity c.next with
        | none => c
        | some (r, next) => { c with next := next, results := c.results ++ [r] }

section Step

variable (capacity : ℕ) (stops : Recv α → Bool)

lemma Consumer.exec_recv_of_some {c : Consumer α} {r : Recv α} {next : ℕ}
    (hended : ¬ c.Ended stops) (hrecv : c.channel.recv capacity c.next = some (r, next)) :
    c.exec capacity stops .recv = { c with next := next, results := c.results ++ [r] } := by
  simp only [Consumer.exec, if_neg hended, hrecv]

/-- What a round of the loop can do. -/
lemma Consumer.exec_recv_cases (c : Consumer α) :
    (c.exec capacity stops .recv = c ∧
        (c.Ended stops ∨ c.channel.recv capacity c.next = none)) ∨
      ∃ r next, ¬ c.Ended stops ∧ c.channel.recv capacity c.next = some (r, next) ∧
        c.exec capacity stops .recv = { c with next := next, results := c.results ++ [r] } := by
  by_cases hended : c.Ended stops
  · exact .inl ⟨if_pos hended, .inl hended⟩
  · cases hrecv : c.channel.recv capacity c.next with
    | none =>
        refine .inl ⟨?_, .inr rfl⟩
        simp only [Consumer.exec, if_neg hended, hrecv]
    | some p =>
        exact .inr ⟨p.1, p.2, hended, rfl, c.exec_recv_of_some capacity stops hended hrecv⟩

@[simp] lemma Consumer.exec_channel (c : Consumer α) (m : Move α) :
    (c.exec capacity stops m).channel = c.channel.exec m := by
  cases m with
  | send value => rfl
  | close => rfl
  | recv =>
      obtain ⟨h, -⟩ | ⟨r, next, -, -, h⟩ := c.exec_recv_cases capacity stops
      · rw [h]
        rfl
      · rw [h]
        rfl

variable {stops}

lemma Consumer.ended_concat_iff {channel : Channel α} {next : ℕ} {results : List (Recv α)}
    {r : Recv α} :
    Consumer.Ended stops ⟨channel, next, results ++ [r]⟩ ↔
      (∃ r ∈ results, stops r = true) ∨ stops r = true := by
  simp [Consumer.Ended, or_and_right, exists_or]

/-- A loop that has ended stays so. -/
lemma Consumer.Ended.exec {c : Consumer α} (h : c.Ended stops) (m : Move α) :
    (c.exec capacity stops m).Ended stops := by
  cases m with
  | send value => exact h
  | close => exact h
  | recv =>
      rw [Consumer.exec, if_pos h]
      exact h

/-- With the channel open, a round ends the loop only if it stops at a lag and is too late. -/
lemma Consumer.not_ended_exec_recv {c : Consumer α} (hopen : c.channel.closed = false)
    (hok : ∀ value, stops (.ok value) = false)
    (hlag : c.next + capacity < c.channel.sent.length → ∀ skipped, stops (.lagged skipped) = false)
    (h : ¬ c.Ended stops) : ¬ (c.exec capacity stops .recv).Ended stops := by
  obtain ⟨hsame, -⟩ | ⟨r, next, -, hrecv, hexec⟩ := c.exec_recv_cases capacity stops
  · rw [hsame]
    exact h
  · rw [hexec, Consumer.ended_concat_iff]
    rintro (hended | hstop)
    · exact h hended
    · obtain ⟨value, -, -, rfl, -⟩ | ⟨skipped, hpos, hlate, rfl, -⟩ | ⟨hclosed, -⟩ :=
        Channel.recv_cases hrecv
      · rw [hok] at hstop
        cases hstop
      · rw [hlag (by omega)] at hstop
        cases hstop
      · rw [hopen] at hclosed
        cases hclosed

end Step

/-! ### Runs -/

/-- The consumer after some moves. -/
def Consumer.run (capacity : ℕ) (stops : Recv α → Bool) (c : Consumer α) (ms : List (Move α)) :
    Consumer α :=
  Machine.run (Consumer.exec capacity stops) c ms

section Run

variable {capacity : ℕ} {stops : Recv α → Bool}

lemma Consumer.run_concat (c : Consumer α) (ms : List (Move α)) (m : Move α) :
    c.run capacity stops (ms ++ [m]) = (c.run capacity stops ms).exec capacity stops m :=
  Machine.run_concat _ c ms m

/-- As long as no sender is dropped, the channel is open. -/
lemma Consumer.closed_run (capacity : ℕ) (stops : Recv α → Bool) {c : Consumer α}
    (hopen : c.channel.closed = false) {ms : List (Move α)} (hms : Move.close ∉ ms) :
    (c.run capacity stops ms).channel.closed = false := by
  induction ms using List.reverseRecOn with
  | nil => exact hopen
  | append_singleton ms m ih =>
      have ih := ih fun h => hms (List.mem_append_left _ h)
      rw [Consumer.run_concat, Consumer.exec_channel]
      cases m with
      | send value =>
          rw [Channel.exec, if_neg (by simp [ih])]
          exact ih
      | close => exact absurd (List.mem_append_right ms (List.mem_singleton_self _)) hms
      | recv => exact ih

/-- A loop that has not ended could have stopped at less. -/
lemma Consumer.run_eq_of_not_ended {stops' : Recv α → Bool}
    (hstops : ∀ r, stops' r = true → stops r = true) (c : Consumer α) {ms : List (Move α)}
    (h : ¬ (c.run capacity stops ms).Ended stops) :
    c.run capacity stops' ms = c.run capacity stops ms := by
  induction ms using List.reverseRecOn with
  | nil => rfl
  | append_singleton ms m ih =>
      rw [Consumer.run_concat] at h
      have hbefore : ¬ (c.run capacity stops ms).Ended stops := fun he => h (he.exec capacity m)
      rw [Consumer.run_concat, Consumer.run_concat, ih hbefore]
      cases m with
      | send value => rfl
      | close => rfl
      | recv =>
          have hbefore' : ¬ (c.run capacity stops ms).Ended stops' := by
            rintro ⟨r, hr, hstop⟩
            exact hbefore ⟨r, hr, hstops r hstop⟩
          simp only [Consumer.exec, if_neg hbefore, if_neg hbefore']

/-! ### Every value is received or was gone -/

/-- The results, in order, account for every position from `start` on: each value is received
at its position, and a position is skipped only once `capacity` later values were sent. -/
inductive Accounts (capacity : ℕ) (sent : List α) (start : ℕ) : List (Recv α) → ℕ → Prop
  | subscribed : Accounts capacity sent start [] start
  | ok {results : List (Recv α)} {next : ℕ} {value : α}
      (before : Accounts capacity sent start results next) (h : sent[next]? = some value) :
      Accounts capacity sent start (results ++ [.ok value]) (next + 1)
  | lagged {results : List (Recv α)} {next skipped : ℕ}
      (before : Accounts capacity sent start results next) (hpos : 0 < skipped)
      (h : next + skipped + capacity ≤ sent.length) :
      Accounts capacity sent start (results ++ [.lagged skipped]) (next + skipped)
  | closed {results : List (Recv α)} {next : ℕ}
      (before : Accounts capacity sent start results next) :
      Accounts capacity sent start (results ++ [.closed]) next

/-- Later values change nothing. -/
lemma Accounts.send {sent : List α} {start next : ℕ} {results : List (Recv α)}
    (h : Accounts capacity sent start results next) (value : α) :
    Accounts capacity (sent ++ [value]) start results next := by
  induction h with
  | subscribed => exact .subscribed
  | ok _ hvalue ih =>
      have hlt := (List.getElem?_eq_some_iff.1 hvalue).1
      exact .ok ih ((List.getElem?_append_left hlt).trans hvalue)
  | lagged _ hpos hle ih =>
      refine .lagged ih hpos ?_
      rw [List.length_append]
      omega
  | closed _ ih => exact .closed ih

lemma Accounts.exec {c : Consumer α} {start : ℕ}
    (h : Accounts capacity c.channel.sent start c.results c.next) (m : Move α) :
    Accounts capacity (c.exec capacity stops m).channel.sent start
      (c.exec capacity stops m).results (c.exec capacity stops m).next := by
  cases m with
  | send value =>
      rw [Consumer.exec_channel, Channel.exec]
      split
      · exact h
      · exact h.send value
  | close => exact h
  | recv =>
      obtain ⟨hsame, -⟩ | ⟨r, next, -, hrecv, hexec⟩ := c.exec_recv_cases capacity stops
      · rw [hsame]
        exact h
      · rw [hexec]
        obtain ⟨value, hvalue, -, rfl, rfl⟩ | ⟨skipped, hpos, hle, rfl, rfl⟩ | ⟨-, -, rfl, rfl⟩ :=
          Channel.recv_cases hrecv
        · exact h.ok hvalue
        · exact h.lagged hpos (Nat.le_of_eq hle)
        · exact h.closed

/-- **No value is lost while it is retained.** -/
theorem accounts_run (ch : Channel α) (ms : List (Move α)) :
    Accounts capacity (ch.subscribe.run capacity stops ms).channel.sent ch.sent.length
      (ch.subscribe.run capacity stops ms).results (ch.subscribe.run capacity stops ms).next := by
  induction ms using List.reverseRecOn with
  | nil => exact .subscribed
  | append_singleton ms m ih =>
      rw [Consumer.run_concat]
      exact ih.exec m

/-! ### Consumers that stop -/

/-- The loop of `while let Ok(_)`. -/
def Recv.isErr (r : Recv α) : Bool := r.ok?.isNone

/-- The loop that only stops when the channel is closed. -/
def Recv.isClosed : Recv α → Bool
  | .closed => true
  | _ => false

lemma Recv.isErr_of_isClosed (r : Recv α) (h : r.isClosed = true) : r.isErr = true := by
  cases r with
  | ok value => cases h
  | lagged skipped => cases h
  | closed => rfl

/-- A loop that goes on after a lag ends only with the channel. -/
lemma not_ended_isClosed {ch : Channel α} (hopen : ch.closed = false) {ms : List (Move α)}
    (hms : Move.close ∉ ms) :
    ¬ (ch.subscribe.run capacity Recv.isClosed ms).Ended Recv.isClosed := by
  induction ms using List.reverseRecOn with
  | nil =>
      rintro ⟨r, hr, -⟩
      exact List.not_mem_nil hr
  | append_singleton ms m ih =>
      have hms' : Move.close ∉ ms := fun h => hms (List.mem_append_left _ h)
      have ih := ih hms'
      rw [Consumer.run_concat]
      cases m with
      | send value => exact ih
      | close => exact ih
      | recv =>
          exact Consumer.not_ended_exec_recv capacity (Consumer.closed_run _ _ hopen hms')
            (fun _ => rfl) (fun _ _ => rfl) ih

/-! ### Falling behind -/

/-- How far behind a consumer is that has missed nothing so far: the values sent, less those it
could receive. -/
def backlog (ms : List (Move α)) : ℕ :=
  ms.foldl
    (fun n m =>
      match m with
      | .send _ => n + 1
      | .close => n
      | .recv => n - 1)
    0

@[simp] lemma backlog_concat_send (ms : List (Move α)) (value : α) :
    backlog (ms ++ [.send value]) = backlog ms + 1 := by
  simp [backlog]

@[simp] lemma backlog_concat_recv (ms : List (Move α)) :
    backlog (ms ++ [.recv]) = backlog ms - 1 := by
  simp [backlog]

/-- No `recv` comes when the consumer is more than `capacity` values behind, as long as there
is a sender. -/
def InTime (capacity : ℕ) (ms : List (Move α)) : Prop :=
  ∀ pre, pre ++ [.recv] <+: ms → Move.close ∉ pre → backlog pre ≤ capacity

/-- A loop that stops at every error is as far behind as the moves say. -/
lemma length_eq_of_not_ended {ch : Channel α} (hopen : ch.closed = false) {ms : List (Move α)}
    (hms : Move.close ∉ ms)
    (h : ¬ (ch.subscribe.run capacity Recv.isErr ms).Ended Recv.isErr) :
    (ch.subscribe.run capacity Recv.isErr ms).channel.sent.length =
      (ch.subscribe.run capacity Recv.isErr ms).next + backlog ms := by
  induction ms using List.reverseRecOn with
  | nil => rfl
  | append_singleton ms m ih =>
      have hms' : Move.close ∉ ms := fun h => hms (List.mem_append_left _ h)
      rw [Consumer.run_concat] at h ⊢
      have hbefore : ¬ (ch.subscribe.run capacity Recv.isErr ms).Ended Recv.isErr :=
        fun he => h (he.exec capacity m)
      have ih := ih hms' hbefore
      have hstill : (ch.subscribe.run capacity Recv.isErr ms).channel.closed = false :=
        Consumer.closed_run capacity Recv.isErr hopen hms'
      generalize ch.subscribe.run capacity Recv.isErr ms = c at *
      cases m with
      | send value =>
          have hsent : (c.exec capacity Recv.isErr (.send value)).channel.sent =
              c.channel.sent ++ [value] := by
            rw [Consumer.exec_channel, Channel.exec, if_neg (by simp [hstill])]
          rw [hsent, List.length_append, ih, backlog_concat_send]
          exact Nat.add_assoc _ _ _
      | close => exact absurd (List.mem_append_right ms (List.mem_singleton_self _)) hms
      | recv =>
          rw [backlog_concat_recv]
          obtain ⟨hsame, hwait⟩ | ⟨r, next, -, hrecv, hexec⟩ :=
            c.exec_recv_cases capacity Recv.isErr
          · have hle := Channel.length_le_of_recv_eq_none (hwait.resolve_left hbefore)
            rw [hsame]
            omega
          · rw [hexec, Consumer.ended_concat_iff, not_or] at h
            obtain ⟨value, hvalue, -, rfl, rfl⟩ | ⟨skipped, -, -, rfl, -⟩ | ⟨-, -, rfl, -⟩ :=
              Channel.recv_cases hrecv
            · have hlt := (List.getElem?_eq_some_iff.1 hvalue).1
              rw [hexec]
              dsimp only
              omega
            · exact absurd rfl h.2
            · exact absurd rfl h.2

/-- A `recv` that comes too late ends the loop. -/
lemma ended_of_capacity_lt {ch : Channel α} (hopen : ch.closed = false) {ms : List (Move α)}
    (hms : Move.close ∉ ms)
    (h : ¬ (ch.subscribe.run capacity Recv.isErr ms).Ended Recv.isErr)
    (hlate : capacity < backlog ms) :
    (ch.subscribe.run capacity Recv.isErr (ms ++ [.recv])).Ended Recv.isErr := by
  have hlength := length_eq_of_not_ended hopen hms h
  rw [Consumer.run_concat]
  obtain ⟨-, hwait⟩ | ⟨r, next, -, hrecv, hexec⟩ :=
    (ch.subscribe.run capacity Recv.isErr ms).exec_recv_cases capacity Recv.isErr
  · have hle := Channel.length_le_of_recv_eq_none (hwait.resolve_left h)
    omega
  · rw [hexec, Consumer.ended_concat_iff]
    obtain ⟨value, -, hle, -⟩ | ⟨skipped, -, -, rfl, -⟩ | ⟨-, -, rfl, -⟩ :=
      Channel.recv_cases hrecv
    · omega
    · exact .inr rfl
    · exact .inr rfl

/-- A loop whose every `recv` is in time sees no error. -/
lemma not_ended_of_inTime {ch : Channel α} (hopen : ch.closed = false) {ms : List (Move α)}
    (hms : Move.close ∉ ms) (h : InTime capacity ms) :
    ¬ (ch.subscribe.run capacity Recv.isErr ms).Ended Recv.isErr := by
  induction ms using List.reverseRecOn with
  | nil =>
      rintro ⟨r, hr, -⟩
      exact List.not_mem_nil hr
  | append_singleton ms m ih =>
      have hms' : Move.close ∉ ms := fun h => hms (List.mem_append_left _ h)
      have ih := ih hms' fun pre hpre => h pre (hpre.trans (List.prefix_append ms [m]))
      rw [Consumer.run_concat]
      cases m with
      | send value => exact ih
      | close => exact ih
      | recv =>
          have hbacklog := h ms (List.prefix_refl _) hms'
          have hlength := length_eq_of_not_ended hopen hms' ih
          exact Consumer.not_ended_exec_recv capacity (Consumer.closed_run _ _ hopen hms')
            (fun _ => rfl) (fun hlate => by omega) ih

/-- **Stopping at an error.**  A loop that stops at every error runs on while there is a sender
exactly if each `recv` is in time. -/
theorem not_ended_iff_inTime {ch : Channel α} (hopen : ch.closed = false) (ms : List (Move α)) :
    (∀ pre, pre <+: ms → Move.close ∉ pre →
        ¬ (ch.subscribe.run capacity Recv.isErr pre).Ended Recv.isErr) ↔
      InTime capacity ms := by
  constructor
  · intro h pre hpre hclose
    have hbefore := h pre ((List.prefix_append pre [.recv]).trans hpre) hclose
    by_contra hlate
    have hclose' : Move.close ∉ pre ++ [.recv] := by simp [hclose]
    exact h _ hpre hclose' (ended_of_capacity_lt hopen hclose hbefore (Nat.lt_of_not_le hlate))
  · intro h pre hpre hclose
    exact not_ended_of_inTime hopen hclose fun pre' hpre' => h pre' (hpre'.trans hpre)

end Run

end Broadcast

end Cellora
