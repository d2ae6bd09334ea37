import CilLint.Progress
import CilLint.Validator
import Mathlib.Algebra.Ring.Nat
import Mathlib.Data.List.Nodup
import Mathlib.Logic.Relation
import Mathlib.Order.WellFounded

/-!
# Checkpoints under every schedule

`Progress.checkpoints` is what a pass tells about its progress if it takes one type after another.
Here the types are worked on side by side. Each has a task that checks the type, if it is eligible,
then counts it, and then tells how far the pass got, if this is due. The counter is shared and is
read and raised in one step; nothing else is. Between counting and telling other tasks may go on, so
what is told may come in any order.

The schedule makes no difference to what is told and how often:

* what was told and what counted tasks have yet to tell is what a pass tells up to the present count,
  in some order (`Sound.told`);
* when all tasks are over, nothing is left to tell and the count is the number of types, so all
  checkpoints have been told (`Sound.perm_checkpoints`);
* every schedule comes to this end (`wellFounded_step`, `exists_step`).

Checkpoints themselves are described by divisibility (`mem_checkpoints_iff`).
-/

namespace CilLint

/-! ### Checkpoints in order -/

namespace Progress

/-- Whether a count is told: it is one of every so many, or the last. An interval of zero counts as
one. -/
def IsDue (interval total now : Nat) : Prop := max interval 1 ∣ now ∨ now = total

instance (interval total now : Nat) : Decidable (IsDue interval total now) :=
  inferInstanceAs (Decidable (_ ∨ _))

/-- Counting one type, in terms of what is due. -/
theorem tick_eq (interval total done : Nat) :
    tick interval total done
      = (done + 1, if IsDue interval total (done + 1) then some ⟨done + 1, total⟩ else none) := by
  simp only [tick, IsDue, Nat.dvd_iff_mod_eq_zero]

theorem ticks_succ (interval total types done : Nat) :
    ticks interval total (types + 1) done
      = (tick interval total done).2.toList ++ ticks interval total types (done + 1) :=
  rfl

/-- One more type is told after those before it. Tasks count one after the other, so this is how the
checkpoints of a pass grow. -/
theorem ticks_concat (interval total types done : Nat) :
    ticks interval total (types + 1) done
      = ticks interval total types done ++ (tick interval total (done + types)).2.toList := by
  -- `ticks` goes from the front, so the count at the start has to vary.
  induction types generalizing done with
  | zero => exact List.append_nil _
  | succ types ih =>
    have hnext : done + 1 + types = done + (types + 1) := by omega
    rw [ticks_succ, ih, hnext, ticks_succ, List.append_assoc]

/-- What is told over some types: the counts that are due, in their order. -/
theorem ticks_eq (interval total types done : Nat) :
    ticks interval total types done
      = ((List.range' (done + 1) types).filter fun k => IsDue interval total k).map (⟨·, total⟩) := by
  induction types generalizing done with
  | zero => rfl
  | succ types ih =>
    rw [ticks_succ, tick_eq, ih, List.range'_succ, List.filter_cons]
    by_cases hdue : IsDue interval total (done + 1)
    · simp [hdue]
    · simp [hdue]

/-- Without the number of types, checkpoints are counts. -/
theorem map_done_checkpoints (interval total : Nat) :
    (checkpoints interval total).map done
      = (List.range' 1 total).filter fun k => IsDue interval total k := by
  rw [checkpoints, ticks_eq, List.map_map]
  exact List.map_id _

/-- **The counts that are told** are all that are due. A count is due if the interval divides it, and
the last one is due in any case. -/
theorem mem_checkpoints_iff {interval total k : Nat} :
    k ∈ (checkpoints interval total).map done ↔ (1 ≤ k ∧ k ≤ total) ∧ IsDue interval total k := by
  rw [map_done_checkpoints, List.mem_filter, List.mem_range'_1, decide_eq_true_eq]
  constructor
  · rintro ⟨⟨hone, hle⟩, hdue⟩
    exact ⟨⟨hone, by omega⟩, hdue⟩
  · rintro ⟨⟨hone, hle⟩, hdue⟩
    exact ⟨⟨hone, by omega⟩, hdue⟩

/-- No count is told twice. Checkpoints come from a list of counts by leaving some of them out. -/
theorem nodup_checkpoints (interval total : Nat) : ((checkpoints interval total).map done).Nodup := by
  rw [map_done_checkpoints]
  exact List.Pairwise.filter _ List.nodup_range'

theorem total_of_mem_checkpoints {interval total : Nat} {p : Progress}
    (h : p ∈ checkpoints interval total) : p.total = total := by
  rw [checkpoints, ticks_eq] at h
  obtain ⟨k, -, rfl⟩ := List.mem_map.mp h
  rfl

/-! The interval need not divide the number of types. -/

example : (checkpoints 2 5).map done = [2, 4, 5] ∧ (checkpoints 0 3).map done = [1, 2, 3] ∧
    checkpoints 7 0 = [] := by decide

end Progress

namespace Checkpoints

/-! ### Tasks -/

/-- A pass over a table that tells how far it got. -/
structure Job where
  validator : Validator
  table : SymbolTable
  interval : Nat

/-- Where the task of a type is. -/
inductive Phase where
  | waiting
  | checked (part : Report)
  /-- The type was counted, and perhaps there is something to tell. -/
  | counted (part : Report) (due : Option Progress)
  | finished (part : Report)

/-- The report on the type, as soon as there is one. -/
def Phase.part? : Phase → Option Report
  | waiting => none
  | checked part | counted part _ | finished part => some part

/-- Whether the type was counted. -/
def Phase.isCounted : Phase → Bool
  | waiting | checked _ => false
  | counted _ _ | finished _ => true

/-- What the task has yet to tell. -/
def Phase.pending : Phase → List Progress
  | counted _ due => due.toList
  | waiting | checked _ | finished _ => []

/-- How much the task has to do. -/
def Phase.work : Phase → Nat
  | waiting => 3
  | checked _ => 2
  | counted _ _ => 1
  | finished _ => 0

/-- A task works on one type. -/
structure Task where
  entry : TypeEntry
  phase : Phase

/-- A pass in the midst of its work. -/
structure State where
  /-- The counter that all tasks share. -/
  count : Nat
  /-- The tasks, in the order of the types. -/
  tasks : List Task
  /-- What was told, in the order in which it was told. -/
  told : List Progress

/-- A pass is finished when all its tasks are over. -/
def State.Finished (s : State) : Prop := ∀ task ∈ s.tasks, ∃ part, task.phase = .finished part

/-- How much there is to do until all tasks are over. -/
def State.work (s : State) : Nat := (s.tasks.map fun task => task.phase.work).sum

namespace Job

variable (job : Job)

/-- The number of types. -/
def total : Nat := job.table.types.length

/-- What the type contributes to the report; nothing, if it is not eligible. -/
def part (entry : TypeEntry) : Report :=
  if job.validator.eligibleType entry then
    Validator.checkType (job.validator.context job.table) job.validator.activeRules entry
  else {}

/-- What a task does when the count is as given: where it goes on, the count after that, and what it
tells. -/
inductive Advances (entry : TypeEntry) (count : Nat) : Phase → Phase → Nat → List Progress → Prop
  | check : Advances entry count .waiting (.checked (job.part entry)) count []
  | count (part : Report) : Advances entry count (.checked part)
      (.counted part (Progress.tick job.interval job.total count).2)
      (Progress.tick job.interval job.total count).1 []
  | tell (part : Report) (due : Option Progress) :
      Advances entry count (.counted part due) (.finished part) count due.toList

/-- **What can happen next in a pass:** one of the tasks goes on. -/
inductive Step : State → State → Prop
  | advance {count count' : Nat} {before after : List Task} {entry : TypeEntry} {p p' : Phase}
      {told new : List Progress} (h : job.Advances entry count p p' count' new) :
      Step ⟨count, before ++ ⟨entry, p⟩ :: after, told⟩
        ⟨count', before ++ ⟨entry, p'⟩ :: after, told ++ new⟩

/-- The start of a pass. -/
def initial : State := ⟨0, job.table.types.map (⟨·, .waiting⟩), []⟩

/-- The states that some schedule leads to. -/
def Reachable (s : State) : Prop := Relation.ReflTransGen job.Step job.initial s

/-! ### What steps keep -/

/-- What holds in every state of a pass. -/
structure Sound (s : State) : Prop where
  entries : s.tasks.map Task.entry = job.table.types
  /-- The count is the number of tasks that were counted. -/
  count : s.count = s.tasks.countP fun task => task.phase.isCounted
  /-- What was told and what is yet to be told is what a pass tells up to the present count. -/
  told : (s.told ++ s.tasks.flatMap fun task => task.phase.pending).Perm
    (Progress.ticks job.interval job.total s.count 0)
  /-- Tasks that have checked their types have the right reports. -/
  parts : ∀ task ∈ s.tasks, ∀ r ∈ task.phase.part?, r = job.part task.entry

variable {job}

/-- At the start no type was counted and nothing was told. No task has a report yet either. -/
theorem sound_initial : job.Sound job.initial := by
  have hwaiting : ∀ task ∈ job.initial.tasks, task.phase = .waiting := by
    intro task htask
    obtain ⟨entry, -, rfl⟩ := List.mem_map.mp htask
    rfl
  -- All four follow from the fact that every task is waiting.
  refine ⟨?_, ?_, ?_, ?_⟩
  · rw [initial, List.map_map]
    exact List.map_id _
  · have hnone : job.initial.tasks.countP (fun task => task.phase.isCounted) = 0 := by
      rw [List.countP_eq_zero]
      intro task htask
      rw [hwaiting task htask]
      exact Bool.false_ne_true
    exact hnone.symm
  · have hpending : (job.initial.tasks.flatMap fun task => task.phase.pending) = [] := by
      rw [List.flatMap_eq_nil_iff]
      intro task htask
      rw [hwaiting task htask]
      rfl
    rw [hpending]
    exact .refl _
  · intro task htask r hr
    rw [hwaiting task htask] at hr
    cases hr

/-- The count goes up by one exactly when a task is counted. Tasks are counted one after the other, so
no count is skipped and none is used twice. -/
theorem Advances.count_eq {entry : TypeEntry} {count count' : Nat} {p p' : Phase}
    {new : List Progress} (h : job.Advances entry count p p' count' new) :
    (count' + if p.isCounted = true then 1 else 0) = count + if p'.isCounted = true then 1 else 0 := by
  cases h with
  | check => rfl
  | count part => rfl
  | tell part due => rfl

/-- What a task tells and has yet to tell after it went on is what it had to tell before, and a
checkpoint if it counted. -/
theorem Advances.perm_told {entry : TypeEntry} {count count' : Nat} {p p' : Phase}
    {new : List Progress} (h : job.Advances entry count p p' count' new) :
    ∃ extra, Progress.ticks job.interval job.total count' 0
        = Progress.ticks job.interval job.total count 0 ++ extra ∧
      (new ++ p'.pending).Perm (p.pending ++ extra) := by
  cases h with
  | check => exact ⟨[], (List.append_nil _).symm, .refl _⟩
  | count part =>
    -- The new checkpoint is the last one of those up to the raised count.
    have hticks := Progress.ticks_concat job.interval job.total count 0
    rw [Nat.zero_add] at hticks
    exact ⟨_, hticks, .refl _⟩
  | tell part due => exact ⟨[], (List.append_nil _).symm, .refl _⟩

/-- A task does not lose the report on its type. -/
theorem Advances.part_eq {entry : TypeEntry} {count count' : Nat} {p p' : Phase}
    {new : List Progress} (h : job.Advances entry count p p' count' new)
    (hp : ∀ r ∈ p.part?, r = job.part entry) : ∀ r ∈ p'.part?, r = job.part entry := by
  cases h with
  | check =>
    intro r hr
    exact (Option.some.inj hr).symm
  | count part => exact hp
  | tell part due => exact hp

/-- **Steps keep a pass sound.** A task that counts makes one more checkpoint, which is pending until
it is told. -/
theorem Sound.step {s s' : State} (hs : job.Sound s) (h : job.Step s s') : job.Sound s' := by
  obtain @⟨count, count', before, after, entry, p, p', told, new, h⟩ := h
  refine ⟨?_, ?_, ?_, ?_⟩
  · have hentries := hs.entries
    simp only [List.map_append, List.map_cons] at hentries ⊢
    exact hentries
  · have hcount := hs.count
    have hadvance := h.count_eq
    simp only [List.countP_append, List.countP_cons] at hcount ⊢
    omega
  · obtain ⟨extra, hticks, hnew⟩ := h.perm_told
    rw [hticks]
    -- Only how often each checkpoint occurs matters.
    rw [List.perm_iff_count]
    intro c
    have htold := hs.told.count_eq c
    have hnew := hnew.count_eq c
    simp only [List.flatMap_append, List.flatMap_cons, List.count_append] at htold hnew ⊢
    omega
  -- The report of the task that went on is still right, and the others are not touched.
  · intro task htask
    rcases List.mem_append.mp htask with hbefore | hrest
    · exact hs.parts task (List.mem_append_left _ hbefore)
    · rcases List.mem_cons.mp hrest with rfl | hafter
      · exact h.part_eq (hs.parts ⟨entry, p⟩ (List.mem_append_right _ List.mem_cons_self))
      · exact hs.parts task (List.mem_append_right _ (List.mem_cons_of_mem _ hafter))

/-- **Every state of a pass is sound,** whatever the schedule. The induction is on the steps that were
taken. -/
theorem sound_of_reachable {s : State} (h : job.Reachable s) : job.Sound s := by
  induction h with
  | refl => exact sound_initial
  | tail _ hstep ih => exact ih.step hstep

/-! ### The end -/

/-- **All checkpoints have been told** when a pass is finished, and none of them twice. No task has
anything left to tell, so what was told is all there is. -/
theorem Sound.perm_checkpoints {s : State} (hs : job.Sound s) (hfinished : s.Finished) :
    s.told.Perm (Progress.checkpoints job.interval job.total) := by
  -- All tasks are over, so all were counted and none has anything left to tell.
  have hcount : s.count = job.total := by
    rw [hs.count, total, ← hs.entries, List.length_map, List.countP_eq_length]
    intro task htask
    obtain ⟨part, hdone⟩ := hfinished task htask
    rw [hdone]
    rfl
  have hpending : (s.tasks.flatMap fun task => task.phase.pending) = [] := by
    rw [List.flatMap_eq_nil_iff]
    intro task htask
    obtain ⟨part, hdone⟩ := hfinished task htask
    rw [hdone]
    rfl
  have htold := hs.told
  rw [hpending, List.append_nil, hcount] at htold
  exact htold

/-- The reports of the tasks make up the report on all types. -/
theorem Sound.mergeAll_parts {s : State} (hs : job.Sound s) (hfinished : s.Finished) :
    Report.mergeAll (s.tasks.filterMap fun task => task.phase.part?)
      = job.validator.checkTypes (job.validator.context job.table) := by
  have hparts : (s.tasks.filterMap fun task => task.phase.part?) = job.table.types.map job.part := by
    -- No task is without a report any more, so `filterMap` leaves nothing out.
    rw [← hs.entries, List.map_map, ← List.filterMap_eq_map]
    refine List.filterMap_congr fun task htask => ?_
    obtain ⟨part, hdone⟩ := hfinished task htask
    have hpart := hs.parts task htask part (by rw [hdone]; rfl)
    rw [hdone, Function.comp_apply, Function.comp_apply, ← hpart]
    rfl
  rw [hparts]
  rfl

/-- A pass that is not finished can go on. Tasks do not wait for each other, so any one that is not
over will do. -/
theorem exists_step {s : State} (h : ¬ s.Finished) : ∃ s', job.Step s s' := by
  obtain ⟨count, tasks, told⟩ := s
  unfold State.Finished at h
  push Not at h
  obtain ⟨⟨entry, p⟩, htask, hdone⟩ := h
  obtain ⟨before, after, rfl⟩ := List.append_of_mem htask
  cases p with
  | waiting => exact ⟨_, .advance .check⟩
  | checked part => exact ⟨_, .advance (.count part)⟩
  | counted part due => exact ⟨_, .advance (.tell part due)⟩
  | finished part => exact absurd rfl (hdone part)

/-- Whatever a task does, it has less to do afterwards, and so has the pass. -/
theorem Advances.work_lt {entry : TypeEntry} {count count' : Nat} {p p' : Phase}
    {new : List Progress} (h : job.Advances entry count p p' count' new) : p'.work < p.work := by
  cases h with
  | check => exact Nat.lt_succ_self _
  | count part => exact Nat.lt_succ_self _
  | tell part due => exact Nat.lt_succ_self _

theorem work_lt_of_step {s s' : State} (h : job.Step s s') : s'.work < s.work := by
  obtain @⟨count, count', before, after, entry, p, p', told, new, h⟩ := h
  have hwork := h.work_lt
  simp only [State.work, List.map_append, List.map_cons, List.sum_append, List.sum_cons]
  omega

variable (job)

/-- **Every pass comes to its end,** whatever the schedule. Each step makes the work that is left
smaller, and it is a number. -/
theorem wellFounded_step : WellFounded fun s' s => job.Step s s' :=
  Subrelation.wf (fun h => work_lt_of_step h) (measure State.work).wf

variable {job}

/-- Some schedule comes to an end. In fact all of them do, but that there is one at all has to be
shown apart. -/
theorem exists_finished {s : State} (h : job.Reachable s) : ∃ s', job.Reachable s' ∧ s'.Finished := by
  induction s using job.wellFounded_step.induction with
  | _ s ih =>
    by_cases hfinished : s.Finished
    · exact ⟨s, h, hfinished⟩
    · obtain ⟨next, hstep⟩ := exists_step hfinished
      exact ih next hstep (h.tail hstep)

end Job

/-- What is told of a pass over so many types. -/
structure ToldInFull (interval types : Nat) (told : List Progress) : Prop where
  total : ∀ p ∈ told, p.total = types
  nodup : (told.map Progress.done).Nodup
  mem_iff : ∀ k, k ∈ told.map Progress.done ↔
    (1 ≤ k ∧ k ≤ types) ∧ (max interval 1 ∣ k ∨ k = types)
  /-- The end is told once, if there is anything to do, -/
  last : 0 < types → (told.map Progress.done).count types = 1
  /-- and otherwise nothing is told. -/
  nothing : types = 0 → told = []

/-- What is told in any order has all that the checkpoints have. -/
theorem toldInFull_of_perm {interval total : Nat} {told : List Progress}
    (h : told.Perm (Progress.checkpoints interval total)) : ToldInFull interval total told := by
  have hdone := h.map Progress.done
  have hnodup : (told.map Progress.done).Nodup :=
    hdone.nodup_iff.mpr (Progress.nodup_checkpoints interval total)
  have hmem : ∀ k, k ∈ told.map Progress.done ↔
      (1 ≤ k ∧ k ≤ total) ∧ (max interval 1 ∣ k ∨ k = total) :=
    fun k => hdone.mem_iff.trans Progress.mem_checkpoints_iff
  -- The end is due and no count is told twice, so it is told once.
  refine ⟨?_, hnodup, hmem, ?_, ?_⟩
  · intro p hp
    exact Progress.total_of_mem_checkpoints (h.mem_iff.mp hp)
  · intro hpos
    exact List.count_eq_one_of_mem hnodup ((hmem total).mpr ⟨⟨hpos, Nat.le_refl _⟩, .inr rfl⟩)
  · rintro rfl
    exact h.eq_nil

end Checkpoints

/-- **Checkpoints are complete and unique under every schedule.** The tasks of a pass over a table
never get stuck and come to their end, in whatever order they go on. Then the counts that were told
are those that the interval divides and the last one, each once and with the number of types, and the
reports of the tasks make up the report on all types. -/
theorem checkpoints_complete_and_unique (job : Checkpoints.Job) :
    (WellFounded fun s' s => job.Step s s') ∧
      (∀ s, job.Reachable s → s.Finished ∨ ∃ s', job.Step s s') ∧
      (∃ s, job.Reachable s ∧ s.Finished) ∧
      ∀ s, job.Reachable s → s.Finished →
        Checkpoints.ToldInFull job.interval job.table.types.length s.told ∧
          Report.mergeAll (s.tasks.filterMap fun task => task.phase.part?)
            = job.validator.checkTypes (job.validator.context job.table) := by
  -- That every schedule comes to an end is a matter of measure. All else follows from what every
  -- state keeps.
  refine ⟨job.wellFounded_step, ?_, Checkpoints.Job.exists_finished .refl, ?_⟩
  · intro s _
    by_cases hfinished : s.Finished
    · exact .inl hfinished
    · exact .inr (Checkpoints.Job.exists_step hfinished)
  · intro s hreachable hfinished
    have hsound := Checkpoints.Job.sound_of_reachable hreachable
    exact ⟨Checkpoints.toldInFull_of_perm (hsound.perm_checkpoints hfinished),
      hsound.mergeAll_parts hfinished⟩

/-! One of two types is in a module that is left out, and counts all the same. -/

/-- Two modules with one type each, of which only the first is eligible. -/
def doorAndWall : Checkpoints.Job where
  validator := { eligible := (· == "Game") }
  table := .ofModules [
    .ofManifest { name := "Game", types := [.node { name := "Door" } [] []] },
    .ofManifest { name := "Vendor", types := [.node { name := "Wall" } [] []] }]
  interval := 1

/-- The types are counted in their order, and what the second has to tell comes first. -/
theorem told_doorAndWall :
    ∃ s, doorAndWall.Reachable s ∧ s.Finished ∧ s.told = [⟨2, 2⟩, ⟨1, 2⟩] ∧
      Checkpoints.ToldInFull 1 2 s.told := by
  have htotal : doorAndWall.table.types.length = 2 := by decide +kernel
  obtain ⟨door, wall, htypes⟩ := List.length_eq_two.mp htotal
  -- In a state with two tasks either of them may go on.
  have hdoor {count count' : Nat} {p p' q : Checkpoints.Phase} {told new : List Progress}
      (h : doorAndWall.Advances door count p p' count' new) :
      doorAndWall.Step ⟨count, [⟨door, p⟩, ⟨wall, q⟩], told⟩
        ⟨count', [⟨door, p'⟩, ⟨wall, q⟩], told ++ new⟩ :=
    @Checkpoints.Job.Step.advance _ _ _ [] _ _ _ _ _ _ h
  have hwall {count count' : Nat} {p p' q : Checkpoints.Phase} {told new : List Progress}
      (h : doorAndWall.Advances wall count p p' count' new) :
      doorAndWall.Step ⟨count, [⟨door, q⟩, ⟨wall, p⟩], told⟩
        ⟨count', [⟨door, q⟩, ⟨wall, p'⟩], told ++ new⟩ :=
    @Checkpoints.Job.Step.advance _ _ _ [⟨door, q⟩] _ _ _ _ _ _ h
  have hstart : doorAndWall.Reachable ⟨0, [⟨door, .waiting⟩, ⟨wall, .waiting⟩], []⟩ := by
    rw [Checkpoints.Job.Reachable, Checkpoints.Job.initial, htypes]
    exact .refl
  have hchecked := (hstart.tail (hdoor .check)).tail (hwall .check)
  have hcounted := (hchecked.tail (hdoor (.count _))).tail (hwall (.count _))
  have hdone := (hcounted.tail (hwall (.tell _ _))).tail (hdoor (.tell _ _))
  have hfinished : ∀ task ∈ ([⟨door, .finished (doorAndWall.part door)⟩,
      ⟨wall, .finished (doorAndWall.part wall)⟩] : List Checkpoints.Task),
      ∃ part, task.phase = .finished part := by
    simp
  refine ⟨_, hdone, hfinished, ?_, ?_⟩
  · have hinterval : doorAndWall.interval = 1 := rfl
    simp [Progress.tick, Checkpoints.Job.total, htotal, hinterval]
  · have hfull := ((checkpoints_complete_and_unique doorAndWall).2.2.2 _ hdone hfinished).1
    rw [htotal] at hfull
    exact hfull

end CilLint
