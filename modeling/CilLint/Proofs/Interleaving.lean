import CilLint.Stress.Run
import Mathlib.Algebra.Ring.Nat
import Mathlib.Logic.Relation
import Mathlib.Order.WellFounded

/-!
# Stress runs under every schedule

A stress run is defined as if its actors worked one after another. Here they are tasks that run side
by side: each comes to a barrier, waits there until all tasks of its batch have come, sweeps over
the symbols, and lets others run from time to time. `Job.Step` lets any one task go on by the
smallest thing that it can do, so the runs of this relation are all schedules, on any number of
threads. When all tasks of a batch have finished, what they counted is collected and the next batch
begins.

The schedule makes no difference:

* what a task will have counted in the end never changes (`total_of_advances`), so what is collected
  is the same as in `runBatch` (`Sound.step`, `sound_of_reachable`);
* a run that is not over can go on (`Sound.exists_step`), since a closed barrier means that some
  task has yet to come to it;
* every step brings the end closer (`rest_lt_of_step`), so every run ends (`wellFounded_step`).
-/

namespace CilLint.Stress

/-! ### Tallies -/

namespace Tally

/-- A tally so many times over. -/
def times (n : Nat) (t : Tally) : Tally := ⟨n * t.operations, n * t.findings, n * t.faults⟩

theorem add_times_zero (a b : Tally) : a.add (b.times 0) = a := by
  simp [add, times]

theorem add_times_succ (a b : Tally) (n : Nat) :
    (a.add b).add (b.times n) = a.add (b.times (n + 1)) := by
  simp only [add, times, Nat.succ_mul, mk.injEq]
  omega

/-- Adding a tally over and over. An actor does this once for each sweep. -/
theorem repeat_add (b : Tally) (n : Nat) : Nat.repeat b.add n {} = b.times n := by
  induction n with
  | zero => simp [Nat.repeat, times]
  | succ n ih =>
    rw [Nat.repeat, ih]
    simp only [add, times, Nat.succ_mul, mk.injEq]
    omega

end Tally

/-! ### Tasks -/

/-- What all tasks of a run share. -/
structure Job where
  plan : Plan
  timing : Timing
  ctx : RuleContext
  symbols : List Symbol
  rules : List Rule

/-- Where a task is. -/
inductive Phase where
  /-- The task has not come to the barrier. -/
  | spawned
  /-- The task waits at the barrier. -/
  | waiting
  /-- The task has done some sweeps and is in the next one: it has some symbols left and has counted
  something on the others. -/
  | sweeping (done : Nat) (total : Tally) (left : List Symbol) (counted : Tally)
  /-- The task lets others run after some sweeps. -/
  | yielding (done : Nat) (total : Tally)
  | finished (total : Tally)

/-- A task applies one rule. -/
structure Task where
  rule : Rule
  phase : Phase

/-- The barrier of a batch opens when all its tasks have come to it. -/
def IsOpen (tasks : List Task) : Prop := ∀ task ∈ tasks, task.phase ≠ .spawned

/-- A run in the midst of a batch. -/
structure State where
  batch : Nat
  /-- The tasks of the batch, in the order of the rules. -/
  tasks : List Task
  /-- What was collected from earlier batches. -/
  actors : List Actor

namespace Job

variable (job : Job)

/-- Whether a task lets others run after so many sweeps. -/
def YieldsAfter (done : Nat) : Prop :=
  0 < job.plan.yieldEvery ∧ done % job.plan.yieldEvery = 0

/-- Where a task goes on after so many sweeps. -/
def goOn (done : Nat) (total : Tally) : Phase :=
  if done < job.plan.iterations then .sweeping done total job.symbols {} else .finished total

/-- The smallest things that a task can do. -/
inductive Advances (isOpen : Prop) (rule : Rule) : Phase → Phase → Prop
  | arrive : Advances isOpen rule .spawned .waiting
  | pass (h : isOpen) : Advances isOpen rule .waiting (job.goOn 0 {})
  | look (done : Nat) (total : Tally) (s : Symbol) (left : List Symbol) (counted : Tally) :
      Advances isOpen rule (.sweeping done total (s :: left) counted)
        (.sweeping done total left (counted.add (tally job.ctx rule s)))
  | pause (done : Nat) (total counted : Tally) (h : job.YieldsAfter (done + 1)) :
      Advances isOpen rule (.sweeping done total [] counted)
        (.yielding (done + 1) (total.add counted))
  | turn (done : Nat) (total counted : Tally) (h : ¬ job.YieldsAfter (done + 1)) :
      Advances isOpen rule (.sweeping done total [] counted)
        (job.goOn (done + 1) (total.add counted))
  | resume (done : Nat) (total : Tally) :
      Advances isOpen rule (.yielding done total) (job.goOn done total)

/-- The tasks at the start of a batch. -/
def spawn : List Task := job.rules.map fun r => ⟨r, .spawned⟩

/-- What a finished task of a batch leaves behind. -/
def record (batch : Nat) (p : (Rule × Tally) × Nat) : Actor where
  batch := batch
  actor := p.2
  rule := p.1.1.id
  operations := p.1.2.operations
  findings := p.1.2.findings
  faults := p.1.2.faults
  elapsed := job.timing.actor batch p.2

/-- **What can happen next in a run:** one of the tasks goes on, or all have finished and the next
batch begins. -/
inductive Step : State → State → Prop
  | advance {batch : Nat} {before after : List Task} {rule : Rule} {p p' : Phase}
      {actors : List Actor} (hbatch : batch < job.plan.batches)
      (h : job.Advances (IsOpen (before ++ ⟨rule, p⟩ :: after)) rule p p') :
      Step ⟨batch, before ++ ⟨rule, p⟩ :: after, actors⟩
        ⟨batch, before ++ ⟨rule, p'⟩ :: after, actors⟩
  | join {batch : Nat} {actors : List Actor} (totals : List (Rule × Tally))
      (hbatch : batch < job.plan.batches) :
      Step ⟨batch, totals.map fun p => ⟨p.1, .finished p.2⟩, actors⟩
        ⟨batch + 1, job.spawn, actors ++ totals.zipIdx.map (job.record batch)⟩

/-- The start of a run. -/
def initial : State := ⟨0, job.spawn, []⟩

/-- The states that some schedule leads to. -/
def Reachable (s : State) : Prop := Relation.ReflTransGen job.Step job.initial s

/-! ### What tasks count -/

/-- What a task will have counted in the end. -/
def total (rule : Rule) : Phase → Tally
  | .spawned | .waiting => (sweep job.ctx job.symbols rule).times job.plan.iterations
  | .sweeping done total left counted =>
    (total.add (left.foldl (fun n s => n.add (tally job.ctx rule s)) counted)).add
      ((sweep job.ctx job.symbols rule).times (job.plan.iterations - (done + 1)))
  | .yielding done total =>
    total.add ((sweep job.ctx job.symbols rule).times (job.plan.iterations - done))
  | .finished total => total

/-- Whether a task goes on with a sweep or finishes, it will have counted the same. It finishes when
no sweep is left to do. -/
theorem total_goOn (rule : Rule) (done : Nat) (total : Tally) :
    job.total rule (job.goOn done total)
      = total.add ((sweep job.ctx job.symbols rule).times (job.plan.iterations - done)) := by
  rw [goOn]
  split_ifs with hdone
  · -- The sweep that begins is one of those left.
    have hleft : job.plan.iterations - done = job.plan.iterations - (done + 1) + 1 := by omega
    rw [Job.total, hleft, ← Tally.add_times_succ]
    rfl
  · have hleft : job.plan.iterations - done = 0 := by omega
    rw [Job.total, hleft, Tally.add_times_zero]

/-- **What a task will have counted** does not change when it goes on. What it has counted grows by
just what there is left to count less. -/
theorem total_of_advances {isOpen : Prop} {rule : Rule} {p p' : Phase}
    (h : job.Advances isOpen rule p p') : job.total rule p' = job.total rule p := by
  cases h with
  | arrive => rfl
  | pass _ =>
    rw [total_goOn, Nat.sub_zero, Job.total]
    simp [Tally.add]
  -- A symbol that was looked at has moved from what is left to what was counted.
  | look done total s left counted => rfl
  | pause done total counted _ => rfl
  | turn done total counted _ => exact job.total_goOn rule (done + 1) (total.add counted)
  | resume done total => exact job.total_goOn rule done total

/-- Tasks that have counted all they will count leave behind what a batch leaves behind. This is the
only place where a run and `runBatch` meet. -/
theorem map_record_eq_runBatch (batch : Nat) :
    ((job.rules.map fun r => (r, job.total r .spawned)).zipIdx).map (job.record batch)
      = runBatch job.plan job.timing job.ctx job.symbols job.rules batch := by
  -- Tasks keep the positions of their rules, which are the numbers of the actors.
  rw [runBatch, List.zipIdx_map, List.map_map]
  refine List.map_congr_left fun p _ => ?_
  obtain ⟨rule, actor⟩ := p
  simp only [runActor, Tally.repeat_add]
  rfl

/-! ### What steps keep -/

/-- What holds in every state of a run. -/
structure Sound (s : State) : Prop where
  batch : s.batch ≤ job.plan.batches
  rules : s.tasks.map Task.rule = job.rules
  /-- Every task will have counted what it should. -/
  totals : ∀ task ∈ s.tasks, job.total task.rule task.phase = job.total task.rule .spawned
  /-- What was collected is what the batches so far leave behind. -/
  actors : s.actors = (List.range s.batch).flatMap
    (runBatch job.plan job.timing job.ctx job.symbols job.rules)

theorem map_rule_spawn : job.spawn.map Task.rule = job.rules := by
  rw [spawn, List.map_map]
  exact List.map_id _

theorem phase_of_mem_spawn {task : Task} (h : task ∈ job.spawn) : task.phase = .spawned := by
  obtain ⟨r, -, rfl⟩ := List.mem_map.mp h
  rfl

variable {job}

/-- At the start nothing was collected. -/
theorem sound_initial : job.Sound job.initial where
  batch := Nat.zero_le _
  rules := job.map_rule_spawn
  totals task h := by rw [job.phase_of_mem_spawn h]
  actors := rfl

/-- **Steps keep a run sound.** A task that goes on keeps its total, and the end of a batch collects
the totals. -/
theorem Sound.step {s s' : State} (hs : job.Sound s) (h : job.Step s s') : job.Sound s' := by
  cases h with
  | @advance batch before after rule p p' actors hbatch hadvances =>
    refine ⟨hs.batch, ?_, ?_, hs.actors⟩
    · have hrules := hs.rules
      simp only [List.map_append, List.map_cons] at hrules ⊢
      exact hrules
    · -- The task that went on has the same total as before, and the others are not touched.
      have hmember : job.total rule p = job.total rule .spawned :=
        hs.totals ⟨rule, p⟩ (List.mem_append_right _ List.mem_cons_self)
      intro task htask
      rcases List.mem_append.mp htask with hbefore | hrest
      · exact hs.totals task (List.mem_append_left _ hbefore)
      · rcases List.mem_cons.mp hrest with rfl | hafter
        · exact (job.total_of_advances hadvances).trans hmember
        · exact hs.totals task (List.mem_append_right _ (List.mem_cons_of_mem _ hafter))
  | @join batch actors totals hbatch =>
    refine ⟨hbatch, job.map_rule_spawn, ?_, ?_⟩
    · intro task htask
      rw [job.phase_of_mem_spawn htask]
    · -- Each task has finished with its total, so the totals are those of the rules.
      have hrules : totals.map Prod.fst = job.rules := by
        have hrules := hs.rules
        rw [List.map_map] at hrules
        exact hrules
      have htotals : totals = job.rules.map fun r => (r, job.total r .spawned) := by
        rw [← hrules, List.map_map]
        conv_lhs => rw [← List.map_id totals]
        refine List.map_congr_left fun p hp => ?_
        have htotal : p.2 = job.total p.1 .spawned :=
          hs.totals ⟨p.1, .finished p.2⟩ (List.mem_map.mpr ⟨p, hp, rfl⟩)
        rw [Function.comp_apply, ← htotal]
        rfl
      have hactors : actors = (List.range batch).flatMap
          (runBatch job.plan job.timing job.ctx job.symbols job.rules) := hs.actors
      change actors ++ totals.zipIdx.map (job.record batch) = _
      rw [hactors, htotals, job.map_record_eq_runBatch, List.range_succ, List.flatMap_append,
        List.flatMap_singleton]

/-- **Every state of a run is sound,** whatever the schedule. -/
theorem sound_of_reachable {s : State} (h : job.Reachable s) : job.Sound s := by
  induction h with
  | refl => exact sound_initial
  | tail _ hstep ih => exact ih.step hstep

/-! ### Runs go on -/

/-- A task that has not finished can go on, unless it waits at a closed barrier. -/
theorem exists_advances {isOpen : Prop} (rule : Rule) {p : Phase}
    (hfinished : ∀ total, p ≠ .finished total) (hopen : isOpen ∨ p = .spawned) :
    ∃ p', job.Advances isOpen rule p p' := by
  cases p with
  | spawned => exact ⟨_, .arrive⟩
  | waiting =>
    rcases hopen with hopen | hspawned
    · exact ⟨_, .pass hopen⟩
    · cases hspawned
  -- A sweep goes on to the next symbol, or it ends and others may run.
  | sweeping done total left counted =>
    cases left with
    | cons s left => exact ⟨_, .look done total s left counted⟩
    | nil =>
      by_cases hyields : job.YieldsAfter (done + 1)
      · exact ⟨_, .pause done total counted hyields⟩
      · exact ⟨_, .turn done total counted hyields⟩
  | yielding done total => exact ⟨_, .resume done total⟩
  | finished total => exact absurd rfl (hfinished total)

/-- **No deadlock:** as long as batches are left, something can happen. Tasks wait only at the
barrier, and if it is closed, then there is a task that has yet to come to it and need not wait. -/
theorem Sound.exists_step {s : State} (hs : job.Sound s) (hbatch : s.batch < job.plan.batches) :
    ∃ s', job.Step s s' := by
  obtain ⟨batch, tasks, actors⟩ := s
  -- It is enough to find one task that can go on.
  have hadvance : ∀ task ∈ tasks, (∀ total, task.phase ≠ .finished total) →
      IsOpen tasks ∨ task.phase = .spawned → ∃ s', job.Step ⟨batch, tasks, actors⟩ s' := by
    intro task htask hfinished hopen
    have hnext : ∃ p', job.Advances (IsOpen tasks) task.rule task.phase p' :=
      exists_advances task.rule hfinished hopen
    obtain ⟨p', hp'⟩ := hnext
    obtain ⟨before, after, rfl⟩ := List.append_of_mem htask
    exact ⟨_, .advance hbatch hp'⟩
  -- If the barrier is open, all tasks have finished or one of them can go on.
  by_cases hopen : IsOpen tasks
  · by_cases hdone : ∀ task ∈ tasks, ∃ total, task.phase = .finished total
    · have htasks : (tasks.map fun task => (task.rule, job.total task.rule task.phase)).map
          (fun p => (⟨p.1, .finished p.2⟩ : Task)) = tasks := by
        rw [List.map_map]
        conv_rhs => rw [← List.map_id tasks]
        refine List.map_congr_left fun task htask => ?_
        obtain ⟨total, htotal⟩ := hdone task htask
        obtain ⟨rule, phase⟩ := task
        subst htotal
        rfl
      have hjoin : ∃ s', job.Step ⟨batch, _, actors⟩ s' :=
        ⟨_, .join (tasks.map fun task => (task.rule, job.total task.rule task.phase)) hbatch⟩
      rw [htasks] at hjoin
      exact hjoin
    · push Not at hdone
      obtain ⟨task, htask, hfinished⟩ := hdone
      exact hadvance task htask hfinished (.inl hopen)
  · -- The barrier is closed, so some task has yet to come to it.
    rw [IsOpen] at hopen
    push Not at hopen
    obtain ⟨task, htask, hspawned⟩ := hopen
    exact hadvance task htask (by simp [hspawned]) (.inr hspawned)

/-! ### Runs end -/

variable (job)

/-- The most that a task has to do after so many sweeps. A sweep takes one step for each symbol, one
to end it and perhaps one to go on after others have run. -/
def workAfter (done : Nat) : Nat := (job.plan.iterations - done) * (job.symbols.length + 2)

/-- The most that a task has to do. -/
def work : Phase → Nat
  | .spawned => job.workAfter 0 + 2
  | .waiting => job.workAfter 0 + 1
  | .sweeping done _ left _ => job.workAfter (done + 1) + left.length + 2
  | .yielding done _ => job.workAfter done + 1
  | .finished _ => 0

/-- What there is to do after some sweeps does not depend on what they counted. -/
theorem work_goOn (done : Nat) (total : Tally) :
    job.work (job.goOn done total) = job.workAfter done := by
  -- The sweep that begins is one of those that were left.
  rw [goOn]
  split_ifs with hdone
  · have hleft : job.plan.iterations - done = job.plan.iterations - (done + 1) + 1 := by omega
    rw [work, workAfter, workAfter, hleft, Nat.succ_mul, Nat.add_assoc]
  · have hleft : job.plan.iterations - done = 0 := by omega
    rw [work, workAfter, hleft, Nat.zero_mul]

/-- **A task that goes on has less to do.** Ending a sweep pays for the step that a task may take to
let others run. -/
theorem work_lt_of_advances {isOpen : Prop} {rule : Rule} {p p' : Phase}
    (h : job.Advances isOpen rule p p') : job.work p' < job.work p := by
  cases h with
  | arrive => exact Nat.lt_succ_self _
  | pass _ =>
    rw [work_goOn]
    exact Nat.lt_succ_self _
  | look done total s left counted => exact Nat.lt_succ_self _
  | pause done total counted _ => exact Nat.lt_succ_self _
  | turn done total counted _ =>
    rw [work_goOn, work]
    omega
  | resume done total =>
    rw [work_goOn]
    exact Nat.lt_succ_self _

/-- The most that some tasks have to do. -/
def workOfTasks (tasks : List Task) : Nat := (tasks.map fun task => job.work task.phase).sum

/-- The most that can happen until a run is over. -/
def rest (s : State) : Nat :=
  if s.batch < job.plan.batches then
    -- The batches to come, with the step that ends each, and then the one that runs.
    (job.plan.batches - (s.batch + 1)) * (job.workOfTasks job.spawn + 1)
      + (job.workOfTasks s.tasks + 1)
  else 0

/-- **Every step brings the end closer.** The end of a batch is a step of its own, so it is counted as
one. -/
theorem rest_lt_of_step {s s' : State} (h : job.Step s s') : job.rest s' < job.rest s := by
  cases h with
  -- Only one task has less to do, and the batch is the same.
  | @advance batch before after rule p p' actors hbatch hadvances =>
    have hlt := job.work_lt_of_advances hadvances
    simp only [rest, hbatch, if_true, workOfTasks, List.map_append, List.map_cons, List.sum_append,
      List.sum_cons]
    omega
  | @join batch actors totals hbatch =>
    simp only [rest, hbatch, if_true]
    split_ifs with hmore
    · -- One batch less is left, and what there is to do in the next one is paid for by that.
      have hleft : job.plan.batches - (batch + 1) = job.plan.batches - (batch + 1 + 1) + 1 := by
        omega
      rw [hleft, Nat.succ_mul]
      omega
    · exact Nat.succ_pos _

/-- **Every run ends,** whatever the schedule. There is no sequence of steps without an end, even if a
scheduler were free to favour one task. -/
theorem wellFounded_step : WellFounded fun s' s => job.Step s s' :=
  Subrelation.wf (fun h => job.rest_lt_of_step h) (measure job.rest).wf

variable {job}

/-- Every run can be brought to its end, since steps can be taken until it is there and not
forever. -/
theorem exists_run {s : State} (h : job.Reachable s) :
    ∃ s', Relation.ReflTransGen job.Step s s' ∧ s'.batch = job.plan.batches := by
  -- By induction on what is left of the run.
  induction s using job.wellFounded_step.induction with
  | _ s ih =>
    have hsound := sound_of_reachable h
    rcases hsound.batch.lt_or_eq with hbatch | hbatch
    · obtain ⟨next, hstep⟩ := hsound.exists_step hbatch
      obtain ⟨last, hrun, hlast⟩ := ih next hstep (h.tail hstep)
      exact ⟨last, hrun.head hstep, hlast⟩
    · exact ⟨s, .refl, hbatch⟩

end Job

end CilLint.Stress
