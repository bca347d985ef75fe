import Mathlib.Algebra.BigOperators.Group.List.Basic
import Mathlib.Algebra.GroupWithZero.Nat
import Mathlib.Data.List.Perm.Basic
import Mathlib.Data.List.Count

/-!
# Worker pools

A coordinator puts tasks and one quit marker for each worker into a queue, spawns
the workers, and collects their messages until every worker has said that it is
done. The queue and the channel are first in, first out, and any worker may take
the next task. Whatever the schedule, the last `done` arrives behind every other
message, so the coordinator returns with one message for each task.
-/

namespace PqcUtils.WorkerPool

universe u v

inductive Worker (Task : Type u) (Message : Type v) where
  | receiving
  | working (task : Task)
  | sending (message : Message)
  | quitting
  | exited
  deriving DecidableEq, Repr

/-- The coordinator: it spawns the workers that are left, then counts down those it awaits. -/
inductive Collector (Message : Type v) where
  | spawning (left : Nat)
  | collecting (awaited : Nat) (collected : List Message)
  | returned (collected : List Message)
  | underflowed
  deriving DecidableEq, Repr

structure State (Task : Type u) (Message : Type v) where
  queue : List Task
  workers : List (Worker Task Message)
  channel : List Message
  collector : Collector Message
  deriving DecidableEq, Repr

/-- What the tasks and messages mean. -/
structure Protocol (Task : Type u) (Message : Type v) where
  /-- A worker that receives such a task quits. -/
  quits : Task → Bool
  marker : Task
  done : Message
  /-- The task a message is about. -/
  task : Message → Option Task
  /-- What a worker may send for a task. -/
  Performs : Task → Message → Prop
  quits_marker : quits marker = true
  task_done : task done = none
  task_of_performs : ∀ {about message}, Performs about message → task message = some about

variable {Task : Type u} {Message : Type v}

namespace Worker

def tasks (protocol : Protocol Task Message) : Worker Task Message → List Task
  | working task => [task]
  | sending message => (protocol.task message).toList
  | _ => []

@[simp] def isQuitting : Worker Task Message → Bool
  | quitting => true
  | _ => false

@[simp] def isExited : Worker Task Message → Bool
  | exited => true
  | _ => false

end Worker

namespace Collector

@[simp] def toSpawn : Collector Message → Nat
  | spawning left => left
  | _ => 0

@[simp] def awaited (threads : Nat) : Collector Message → Nat
  | spawning _ => threads
  | collecting awaited _ => awaited
  | _ => 0

@[simp] def collected : Collector Message → List Message
  | collecting _ collected => collected
  | returned collected => collected
  | _ => []

@[simp] def isRunning : Collector Message → Bool
  | spawning _ => true
  | collecting _ _ => true
  | _ => false

end Collector

/-! ## Steps -/

section Steps

variable (protocol : Protocol Task Message)

def initial (tasks : List Task) (threads : Nat) : State Task Message :=
  ⟨tasks ++ List.replicate threads protocol.marker, [], [], .spawning threads⟩

/-- Everything that can happen next, whichever worker it happens to. -/
inductive Transition (threads : Nat) : State Task Message → State Task Message → Prop where
  | spawn {queue workers channel left} :
    Transition threads ⟨queue, workers, channel, .spawning (left + 1)⟩
      ⟨queue, workers ++ [.receiving], channel, .spawning left⟩
  | ready {queue workers channel} :
    Transition threads ⟨queue, workers, channel, .spawning 0⟩
      ⟨queue, workers, channel, .collecting threads []⟩
  | take {task queue before after channel collector} (stays : protocol.quits task = false) :
    Transition threads ⟨task :: queue, before ++ .receiving :: after, channel, collector⟩
      ⟨queue, before ++ .working task :: after, channel, collector⟩
  | quit {task queue before after channel collector} (quits : protocol.quits task = true) :
    Transition threads ⟨task :: queue, before ++ .receiving :: after, channel, collector⟩
      ⟨queue, before ++ .quitting :: after, channel, collector⟩
  | hangUp {before after channel collector} (gone : collector.isRunning = false) :
    Transition threads ⟨[], before ++ .receiving :: after, channel, collector⟩
      ⟨[], before ++ .exited :: after, channel, collector⟩
  | finish {task message queue before after channel collector}
      (performed : protocol.Performs task message) :
    Transition threads ⟨queue, before ++ .working task :: after, channel, collector⟩
      ⟨queue, before ++ .sending message :: after, channel, collector⟩
  | send {message queue before after channel collector} :
    Transition threads ⟨queue, before ++ .sending message :: after, channel, collector⟩
      ⟨queue, before ++ .receiving :: after, channel ++ [message], collector⟩
  | sendDone {queue before after channel collector} :
    Transition threads ⟨queue, before ++ .quitting :: after, channel, collector⟩
      ⟨queue, before ++ .exited :: after, channel ++ [protocol.done], collector⟩
  | collect {message queue workers channel awaited collected} (content : message ≠ protocol.done) :
    Transition threads ⟨queue, workers, message :: channel, .collecting awaited collected⟩
      ⟨queue, workers, channel, .collecting awaited (collected ++ [message])⟩
  | countDown {queue workers channel awaited collected} :
    Transition threads
      ⟨queue, workers, protocol.done :: channel, .collecting (awaited + 1) collected⟩
      ⟨queue, workers, channel,
        if awaited = 0 then .returned collected else .collecting awaited collected⟩
  | underflow {queue workers channel collected} :
    Transition threads ⟨queue, workers, protocol.done :: channel, .collecting 0 collected⟩
      ⟨queue, workers, channel, .underflowed⟩

end Steps

/-! ## Invariants -/

section Invariants

variable (protocol : Protocol Task Message)

def Protocol.Genuine (message : Message) : Prop := ∃ task, protocol.Performs task message

theorem Protocol.Genuine.ne_done {protocol : Protocol Task Message} {message : Message}
    (genuine : protocol.Genuine message) : message ≠ protocol.done := by
  rintro rfl
  obtain ⟨task, performed⟩ := genuine
  have about := protocol.task_of_performs performed
  rw [protocol.task_done] at about
  cases about

/-- Only the channel holds `done`; everything else in it and elsewhere was performed. -/
structure Faithful (state : State Task Message) : Prop where
  sending : ∀ message, .sending message ∈ state.workers → protocol.Genuine message
  channel : ∀ message ∈ state.channel, message = protocol.done ∨ protocol.Genuine message
  collected : ∀ message ∈ state.collector.collected, protocol.Genuine message

variable {protocol}

theorem Faithful.step {threads : Nat} {before after : State Task Message}
    (faithful : Faithful protocol before) (transition : Transition protocol threads before after) :
    Faithful protocol after := by
  obtain ⟨sending, channel, collected⟩ := faithful
  cases transition with
  | spawn | ready => exact ⟨by simpa using sending, channel, by simp [Collector.collected]⟩
  | take | quit | hangUp => exact ⟨by simpa using sending, channel, collected⟩
  | finish performed =>
    refine ⟨fun message membership => ?_, channel, collected⟩
    simp only [List.mem_append, List.mem_cons, Worker.sending.injEq] at membership
    rcases membership with earlier | rfl | later
    · exact sending message (by simp [earlier])
    · exact ⟨_, performed⟩
    · exact sending message (by simp [later])
  | send =>
    refine ⟨fun message membership => ?_, fun message membership => ?_, collected⟩
    · apply sending
      simp only [List.mem_append, List.mem_cons, reduceCtorEq, false_or] at membership ⊢
      exact membership.imp_right .inr
    · rcases List.mem_append.mp membership with earlier | now
      · exact channel message earlier
      · cases List.mem_singleton.mp now
        exact .inr (sending _ (by simp))
  | sendDone =>
    refine ⟨by simpa using sending, fun message membership => ?_, collected⟩
    rcases List.mem_append.mp membership with earlier | now
    · exact channel message earlier
    · exact .inl (List.mem_singleton.mp now)
  | @collect message _ _ _ _ _ content =>
    refine ⟨sending, fun other membership => channel other (by simp [membership]), ?_⟩
    intro other membership
    rcases List.mem_append.mp membership with earlier | now
    · exact collected other earlier
    · cases List.mem_singleton.mp now
      exact (channel message (by simp)).resolve_left content
  | @countDown _ _ _ awaited _ =>
    refine ⟨sending, fun other membership => channel other (by simp [membership]), ?_⟩
    by_cases last : awaited = 0 <;> simpa [last, Collector.collected] using collected
  | underflow =>
    exact ⟨sending, fun other membership => channel other (by simp [membership]),
      by simp [Collector.collected]⟩

variable [DecidableEq Message] {tasks : List Task} {threads : Nat}

structure Counted (protocol : Protocol Task Message) (tasks : List Task) (threads : Nat)
    (state : State Task Message) : Prop where
  crew : state.workers.length + state.collector.toSpawn = threads
  markers : state.queue.countP protocol.quits + state.workers.countP Worker.isQuitting +
    state.workers.countP Worker.isExited = threads + tasks.countP protocol.quits
  dones : state.workers.countP Worker.isExited + state.collector.awaited threads =
    state.channel.count protocol.done + threads
  bounded : state.collector.awaited threads ≤ threads
  positive : ∀ awaited collected, state.collector = .collecting awaited collected →
    0 < threads → 0 < awaited
  returned : ∀ collected, state.collector = .returned collected → 0 < threads
  stable : state.collector ≠ .underflowed

theorem Counted.exited_le {state : State Task Message}
    (counted : Counted protocol tasks threads state) :
    state.workers.countP Worker.isExited ≤ threads := by
  have bound := List.countP_le_length (p := Worker.isExited) (l := state.workers)
  have crew := counted.crew
  omega

theorem Counted.running_of_receiving {queue : List Task} {left right : List (Worker Task Message)}
    {channel : List Message} {collector : Collector Message}
    (counted : Counted protocol tasks threads
      ⟨queue, left ++ .receiving :: right, channel, collector⟩) : collector.isRunning = true := by
  have bound := List.countP_le_length (p := Worker.isExited) (l := left ++ right)
  obtain ⟨crew, -, dones, -, -, -, -⟩ := counted
  cases collector with
  | spawning | collecting => rfl
  | returned | underflowed =>
    simp at crew dones bound
    omega

theorem Counted.step {before after : State Task Message}
    (counted : Counted protocol tasks threads before) (faithful : Faithful protocol before)
    (transition : Transition protocol threads before after) :
    Counted protocol tasks threads after := by
  have exited := counted.exited_le
  have held := counted
  obtain ⟨crew, markers, dones, bounded, positive, returned, stable⟩ := counted
  cases transition with
  | spawn =>
    refine ⟨?_, ?_, ?_, bounded, by simp, by simp, by simp⟩ <;>
      simp at crew markers dones ⊢ <;> omega
  | ready =>
    refine ⟨by simpa using crew, by simpa using markers, by simpa using dones, bounded, ?_, by simp,
      by simp⟩
    rintro awaited collected same
    cases same
    exact id
  | take stays =>
    refine ⟨?_, ?_, ?_, bounded, positive, returned, stable⟩ <;>
      simp [stays] at crew markers dones ⊢ <;> omega
  | quit quits =>
    refine ⟨?_, ?_, ?_, bounded, positive, returned, stable⟩ <;>
      simp [List.countP_cons, quits] at crew markers dones ⊢ <;> omega
  | hangUp gone =>
    rw [held.running_of_receiving] at gone
    cases gone
  | finish performed =>
    refine ⟨?_, ?_, ?_, bounded, positive, returned, stable⟩ <;>
      simp at crew markers dones ⊢ <;> omega
  | @send message =>
    have content : message ≠ protocol.done := (faithful.sending message (by simp)).ne_done
    refine ⟨?_, ?_, ?_, bounded, positive, returned, stable⟩ <;>
      simp [content] at crew markers dones ⊢ <;> omega
  | sendDone =>
    refine ⟨?_, ?_, ?_, bounded, positive, returned, stable⟩ <;>
      simp [List.countP_cons] at crew markers dones ⊢ <;> omega
  | collect content =>
    refine ⟨crew, markers, ?_, bounded, ?_, by simp, by simp⟩
    · simpa [content] using dones
    · rintro awaited collected same
      cases same
      exact positive _ _ rfl
  | @countDown _ _ _ awaited _ =>
    simp only [Collector.awaited] at bounded dones
    by_cases last : awaited = 0
    · refine ⟨?_, markers, ?_, by simp [last], by simp [last], fun _ _ => by omega,
        by simp [last]⟩ <;> simp [last] at crew dones ⊢ <;> omega
    · refine ⟨?_, markers, ?_, ?_, ?_, by simp [last], by simp [last]⟩
      · simpa [last] using crew
      · simp [last] at dones ⊢
        omega
      · simp [last]
        omega
      · rintro awaited' collected' same _
        simp only [last, if_false, Collector.collecting.injEq] at same
        omega
  | underflow =>
    -- One more would have said that it is done than there are.
    simp at dones exited
    omega

/-- Any message that is not `done` has fewer `done` before it than are awaited. -/
def Ordered (protocol : Protocol Task Message) (threads : Nat) (state : State Task Message) :
    Prop :=
  ∀ before message after, state.channel = before ++ message :: after →
    message ≠ protocol.done → before.count protocol.done < state.collector.awaited threads

omit [DecidableEq Message] in
theorem split_append_singleton {Holds : List Message → Message → Prop} {channel : List Message}
    {last : Message} (earlier : ∀ before message after, channel = before ++ message :: after →
      Holds before message) (now : Holds channel last) :
    ∀ before message after, channel ++ [last] = before ++ message :: after →
      Holds before message := by
  intro before message after split
  rcases List.eq_nil_or_concat after with rfl | ⟨after, final, rfl⟩
  · obtain ⟨rfl, same⟩ := List.append_inj' split rfl
    cases same
    exact now
  · rw [List.concat_eq_append, ← List.cons_append, ← List.append_assoc] at split
    obtain ⟨split, -⟩ := List.append_inj' split rfl
    exact earlier before message after split

theorem Ordered.step {before after : State Task Message} (ordered : Ordered protocol threads before)
    (counted : Counted protocol tasks threads before)
    (transition : Transition protocol threads before after) : Ordered protocol threads after := by
  cases transition with
  | spawn | ready | take | quit | hangUp | finish => exact ordered
  | @send message queue before after channel collector =>
    -- The sender has not exited, so some `done` is still to come.
    have crew := counted.crew
    have dones := counted.dones
    have left := List.countP_le_length (p := Worker.isExited) (l := before)
    have right := List.countP_le_length (p := Worker.isExited) (l := after)
    simp only [List.length_append, List.length_cons, List.countP_append, List.countP_cons,
      Worker.isExited] at crew dones
    refine split_append_singleton ordered fun _ => ?_
    simp only [Bool.false_eq_true, if_false] at dones ⊢
    omega
  | sendDone =>
    exact split_append_singleton ordered fun content => absurd rfl content
  | collect content =>
    intro before message after split other
    have count := ordered (_ :: before) message after (congrArg (List.cons _) split) other
    simpa [content] using count
  | @countDown _ _ _ awaited _ =>
    intro before message after split other
    have count := ordered (_ :: before) message after (congrArg (List.cons _) split) other
    by_cases last : awaited = 0
    · simp [last] at count
    · simpa [last] using count
  | underflow =>
    intro before message after split other
    have count := ordered (_ :: before) message after (congrArg (List.cons _) split) other
    simp at count

/-- The tasks in the queue, in the hands of workers, and in messages sent and collected. -/
def State.holding (protocol : Protocol Task Message) (state : State Task Message) : List Task :=
  state.queue.filter (fun task => !protocol.quits task) ++
    state.workers.flatMap (Worker.tasks protocol) ++ state.channel.filterMap protocol.task ++
    state.collector.collected.filterMap protocol.task

/-- No step loses a task or makes one up. -/
theorem Transition.holding_perm {before after : State Task Message}
    (transition : Transition protocol threads before after)
    (counted : Counted protocol tasks threads before) :
    (after.holding protocol).Perm (before.holding protocol) := by
  classical
  rw [List.perm_iff_count]
  intro task
  cases transition with
  | spawn | ready => simp [State.holding, Worker.tasks]
  | take stays =>
    simp [State.holding, Worker.tasks, stays, List.count_cons]
    omega
  | quit quits => simp [State.holding, Worker.tasks, quits]
  | hangUp gone => simp [State.holding, Worker.tasks]
  | finish performed =>
    simp [State.holding, Worker.tasks, protocol.task_of_performs performed]
  | @send message =>
    cases about : protocol.task message <;>
      simp [State.holding, Worker.tasks, about, List.count_cons]
    omega
  | sendDone => simp [State.holding, Worker.tasks, protocol.task_done]
  | @collect message =>
    cases about : protocol.task message <;>
      simp [State.holding, about, List.count_cons]
    omega
  | @countDown _ _ _ awaited _ =>
    by_cases last : awaited = 0 <;> simp [State.holding, last, protocol.task_done]
  | underflow =>
    have exited := counted.exited_le
    have dones := counted.dones
    simp at dones exited
    omega

/-- The invariant of the pool. The queue is what is left of the queue at the start. -/
structure Sound (protocol : Protocol Task Message) (tasks : List Task) (threads : Nat)
    (state : State Task Message) : Prop where
  faithful : Faithful protocol state
  counted : Counted protocol tasks threads state
  ordered : Ordered protocol threads state
  fifo : state.queue <:+ tasks ++ List.replicate threads protocol.marker
  kept : (state.holding protocol).Perm (tasks.filter fun task => !protocol.quits task)

theorem sound_initial (protocol : Protocol Task Message) (tasks : List Task) (threads : Nat) :
    Sound protocol tasks threads (initial protocol tasks threads) where
  faithful := ⟨by simp [initial], by simp [initial], by simp [initial]⟩
  counted := by
    refine ⟨by simp [initial], ?_, by simp [initial], by simp [initial], by simp [initial],
      by simp [initial], by simp [initial]⟩
    simp [initial, List.countP_replicate, protocol.quits_marker, Nat.add_comm]
  ordered := by simp [initial, Ordered]
  fifo := List.suffix_rfl
  kept := by simp [initial, State.holding, protocol.quits_marker]

theorem Sound.step {before after : State Task Message}
    (sound : Sound protocol tasks threads before)
    (transition : Transition protocol threads before after) :
    Sound protocol tasks threads after where
  faithful := sound.faithful.step transition
  counted := sound.counted.step sound.faithful transition
  ordered := sound.ordered.step sound.counted transition
  fifo := by
    have fifo := sound.fifo
    cases transition with
    | take | quit => exact (List.suffix_cons _ _).trans fifo
    | _ => exact fifo
  kept := (transition.holding_perm sound.counted).trans sound.kept

/-! ## The end of a run -/

/-- If no task is a request to quit, the first such request in the queue is a marker. -/
theorem Sound.queue_of_quits {state : State Task Message}
    (sound : Sound protocol tasks threads state)
    (plain : ∀ task ∈ tasks, protocol.quits task = false) {task : Task} {queue : List Task}
    (next : state.queue = task :: queue) (quits : protocol.quits task = true) :
    ∃ left < threads, state.queue = List.replicate (left + 1) protocol.marker := by
  have markers : task :: queue <:+ List.replicate threads protocol.marker := by
    obtain ⟨front, split⟩ := sound.fifo
    rw [next] at split
    obtain ⟨between, same, rest⟩ | ⟨between, -, rest⟩ := List.append_eq_append_iff.mp split
    · cases between with
      | nil => exact ⟨[], rest⟩
      | cons first between =>
        obtain ⟨rfl, -⟩ := List.cons.inj rest
        have stays := plain task (by simp [same])
        rw [quits] at stays
        cases stays
    · exact ⟨between, rest.symm⟩
  obtain ⟨front, split⟩ := markers
  obtain ⟨lengths, -, same⟩ := List.append_eq_replicate_iff.mp split
  rw [List.length_cons] at lengths same
  exact ⟨queue.length, by omega, next.trans same⟩

/-- When the coordinator returns, all workers have exited and nothing is left on the way. -/
theorem Sound.at_return {state : State Task Message} (sound : Sound protocol tasks threads state)
    (plain : ∀ task ∈ tasks, protocol.quits task = false) {collected : List Message}
    (returned : state.collector = .returned collected) :
    state.queue = [] ∧ (∀ worker ∈ state.workers, worker.isExited) ∧ state.channel = [] := by
  have counted := sound.counted
  have exited := counted.exited_le
  have crew := counted.crew
  have dones := counted.dones
  have markers := counted.markers
  have positive := counted.returned collected returned
  have noQuits : tasks.countP protocol.quits = 0 := by
    rw [List.countP_eq_zero]
    intro task membership
    simp [plain task membership]
  rw [returned] at crew dones
  simp only [Collector.toSpawn, Collector.awaited] at crew dones
  refine ⟨?_, ?_, ?_⟩
  · -- The markers are at the end of the queue, and none of them is left.
    by_contra nonempty
    obtain ⟨front, split⟩ := sound.fifo
    have last : state.queue.getLast? = some protocol.marker := by
      have same := congrArg List.getLast? split
      rw [List.getLast?_append_of_ne_nil _ nonempty, List.getLast?_append_of_ne_nil _
        (by simp; omega), List.getLast?_replicate, if_neg (by omega)] at same
      exact same
    have left : 0 < state.queue.countP protocol.quits :=
      List.countP_pos_iff.mpr ⟨_, List.mem_of_getLast? last, protocol.quits_marker⟩
    omega
  · rw [← List.countP_eq_length]
    omega
  · cases content : state.channel with
    | nil => rfl
    | cons message rest =>
      by_cases isDone : message = protocol.done
      · rw [content, isDone, List.count_cons_self] at dones
        omega
      · have count := sound.ordered [] message rest content isDone
        simp [returned] at count

omit [DecidableEq Message] in
theorem map_eq_map_some_filterMap {protocol : Protocol Task Message} {messages : List Message}
    (genuine : ∀ message ∈ messages, protocol.Genuine message) :
    messages.map protocol.task = (messages.filterMap protocol.task).map some := by
  induction messages with
  | nil => rfl
  | cons message messages ih =>
    simp only [List.mem_cons, forall_eq_or_imp] at genuine
    obtain ⟨⟨task, performed⟩, others⟩ := genuine
    have about := protocol.task_of_performs performed
    rw [List.map_cons, about, List.filterMap_cons_some about, List.map_cons, ih others]

/-- The coordinator returns with one message for each task. -/
theorem Sound.collected_perm {state : State Task Message}
    (sound : Sound protocol tasks threads state)
    (plain : ∀ task ∈ tasks, protocol.quits task = false) {collected : List Message}
    (returned : state.collector = .returned collected) :
    (collected.map protocol.task).Perm (tasks.map some) := by
  obtain ⟨queue, exited, channel⟩ := sound.at_return plain returned
  have genuine := sound.faithful.collected
  have idle : state.workers.flatMap (Worker.tasks protocol) = [] := by
    rw [List.flatMap_eq_nil_iff]
    intro worker membership
    cases worker with
    | exited => rfl
    | _ => simpa using exited _ membership
  have all : tasks.filter (fun task => !protocol.quits task) = tasks := by
    rw [List.filter_eq_self]
    intro task membership
    simp [plain task membership]
  have kept := sound.kept
  rw [State.holding, queue, idle, channel, returned, all] at kept
  rw [returned] at genuine
  have same := map_eq_map_some_filterMap genuine
  simp only [Collector.collected] at same kept
  rw [same]
  exact kept.map some

/-! ## Progress -/

omit [DecidableEq Message] in
theorem countP_quitting_add_exited_le (workers : List (Worker Task Message)) :
    workers.countP Worker.isQuitting + workers.countP Worker.isExited ≤ workers.length := by
  induction workers with
  | nil => simp
  | cons worker workers ih => cases worker <;> simp [List.countP_cons] <;> omega

/-- While somebody is awaited and the channel is empty, some worker has not exited. -/
theorem Counted.exists_alive {state : State Task Message}
    (counted : Counted protocol tasks threads state) {awaited : Nat} {collected : List Message}
    (collecting : state.collector = .collecting awaited collected) (positive : 0 < awaited)
    (silent : state.channel = []) : ∃ worker ∈ state.workers, worker.isExited = false := by
  by_contra exited
  push Not at exited
  have all : state.workers.countP Worker.isExited = state.workers.length := by
    rw [List.countP_eq_length]
    intro worker membership
    simpa using exited worker membership
  have crew := counted.crew
  have dones := counted.dones
  simp [collecting, silent] at crew dones
  omega

/-- A worker that waits for a task will get one: not every marker was taken. -/
theorem Counted.queue_ne_nil {state : State Task Message}
    (counted : Counted protocol tasks threads state) (waiting : .receiving ∈ state.workers) :
    state.queue ≠ [] := by
  intro empty
  obtain ⟨before, after, split⟩ := List.append_of_mem waiting
  have bound := countP_quitting_add_exited_le (before ++ after)
  have crew := counted.crew
  have markers := counted.markers
  simp [empty, split] at bound crew markers
  omega

/-- Until the coordinator returns something can happen, if there is a worker at all. -/
theorem Sound.progress {state : State Task Message} (sound : Sound protocol tasks threads state)
    (positive : 0 < threads) (performable : ∀ task, ∃ message, protocol.Performs task message)
    (unfinished : ∀ collected, state.collector ≠ .returned collected) :
    ∃ next, Transition protocol threads state next := by
  obtain ⟨queue, workers, channel, collector⟩ := state
  cases collector with
  | spawning left =>
    cases left with
    | zero => exact ⟨_, .ready⟩
    | succ left => exact ⟨_, .spawn⟩
  | returned collected => exact absurd rfl (unfinished collected)
  | underflowed => exact absurd rfl sound.counted.stable
  | collecting awaited collected =>
    cases channel with
    | cons message channel =>
      by_cases isDone : message = protocol.done
      · subst isDone
        cases awaited with
        | zero => exact ⟨_, .underflow⟩
        | succ awaited => exact ⟨_, .countDown⟩
      · exact ⟨_, .collect isDone⟩
    | nil =>
      have awaitedPositive := sound.counted.positive awaited collected rfl positive
      obtain ⟨worker, membership, alive⟩ := sound.counted.exists_alive rfl awaitedPositive rfl
      obtain ⟨before, after, rfl⟩ := List.append_of_mem membership
      cases worker with
      | exited => simp at alive
      | working task =>
        obtain ⟨message, performed⟩ := performable task
        exact ⟨_, .finish performed⟩
      | sending message => exact ⟨_, .send⟩
      | quitting => exact ⟨_, .sendDone⟩
      | receiving =>
        cases queue with
        | nil => exact absurd rfl (sound.counted.queue_ne_nil membership)
        | cons task queue =>
          cases quits : protocol.quits task with
          | true => exact ⟨_, .quit quits⟩
          | false => exact ⟨_, .take quits⟩

/-! ## Termination -/

def Worker.stepsLeft : Worker Task Message → Nat
  | working _ => 3
  | sending _ => 2
  | quitting => 2
  | _ => 0

def Collector.stepsLeft : Collector Message → Nat
  | spawning left => left + 1
  | _ => 0

/-- A task takes four steps from the queue to the coordinator, and a marker three. -/
def State.stepsLeft (protocol : Protocol Task Message) (state : State Task Message) : Nat :=
  3 * state.queue.length + state.queue.countP (fun task => !protocol.quits task) +
    (state.workers.map Worker.stepsLeft).sum + state.channel.length + state.collector.stepsLeft

theorem Transition.stepsLeft {before after : State Task Message}
    (transition : Transition protocol threads before after)
    (counted : Counted protocol tasks threads before) :
    before.stepsLeft protocol = after.stepsLeft protocol + 1 := by
  cases transition with
  | hangUp gone =>
    rw [counted.running_of_receiving] at gone
    cases gone
  | take stays =>
    simp [State.stepsLeft, Worker.stepsLeft, stays]
    omega
  | quit quits =>
    simp [State.stepsLeft, Worker.stepsLeft, quits]
    omega
  | @countDown _ _ _ awaited _ =>
    by_cases last : awaited = 0 <;>
      simp [State.stepsLeft, Collector.stepsLeft, last, Nat.add_assoc]
  | spawn | ready | collect | underflow =>
    simp [State.stepsLeft, Worker.stepsLeft, Collector.stepsLeft, Nat.add_assoc]
  | finish | send | sendDone =>
    simp [State.stepsLeft, Worker.stepsLeft]
    omega

theorem Sound.stepsLeft_of_returned {state : State Task Message}
    (sound : Sound protocol tasks threads state)
    (plain : ∀ task ∈ tasks, protocol.quits task = false) {collected : List Message}
    (returned : state.collector = .returned collected) : state.stepsLeft protocol = 0 := by
  obtain ⟨queue, exited, channel⟩ := sound.at_return plain returned
  have idle : (state.workers.map Worker.stepsLeft).sum = 0 := by
    apply List.sum_eq_zero
    intro left membership
    obtain ⟨worker, among, rfl⟩ := List.mem_map.mp membership
    cases worker with
    | exited => rfl
    | _ => simpa using exited _ among
  simp [State.stepsLeft, queue, idle, channel, returned, Collector.stepsLeft]

omit [DecidableEq Message] in
theorem stepsLeft_initial (protocol : Protocol Task Message) (tasks : List Task) (threads : Nat)
    (plain : ∀ task ∈ tasks, protocol.quits task = false) :
    (initial protocol tasks threads).stepsLeft protocol =
      4 * tasks.length + 4 * threads + 1 := by
  have stay : tasks.countP (fun task => !protocol.quits task) = tasks.length := by
    rw [List.countP_eq_length]
    intro task membership
    simp [plain task membership]
  simp [State.stepsLeft, Collector.stepsLeft, initial, List.countP_replicate, stay,
    protocol.quits_marker]
  omega

end Invariants

end PqcUtils.WorkerPool
