import CilLint.Proofs.Pass
import Mathlib.Algebra.Ring.Nat
import Mathlib.Data.List.Dedup
import Mathlib.Data.List.DropRight

/-!
# Registries that are shared

Clients work on one registry side by side. Each has a list of calls to make. Registering one rule and
emptying the registry are done in one go, while several rules are registered one by one, and others
may come in between. `Step` lets any one client go on by the smallest thing that it can do, so the
runs of this relation are all ways in which the calls of the clients can come together.

A run leaves the list of what happened to the registry, in the order of time. That list alone
determines the registry (`Run.rules_eq`): its rules are those that came first with their ids since it
was emptied last. The rest is bookkeeping, which no order of steps can upset:

* what the clients have submitted and what they have yet to submit is always what they were given
  (`Run.perm_pending`);
* as long as the registry is not emptied, it has as many rules as the clients were told that theirs
  were taken (`Run.gained_add_length`);
* every run can be carried on until all clients have finished (`exists_run_finished`).
-/

namespace CilLint.Registration

/-! ### The first rule for each id -/

/-- The rules that come first with their ids, in order. -/
def firstPerId : List Rule → List Rule
  | [] => []
  | rule :: rules => rule :: (firstPerId rules).filter fun later => later.id != rule.id

/-- No id is lost, and none is there twice. So these rules are one for each id, and of those with one
id the first. -/
theorem mem_ids_firstPerId {rules : List Rule} {id : String} :
    id ∈ (firstPerId rules).map Rule.id ↔ id ∈ rules.map Rule.id := by
  induction rules with
  | nil => rfl
  | cons rule rules ih =>
    rw [firstPerId, List.map_cons, List.map_cons, List.mem_cons, List.mem_cons, ← ih]
    by_cases heq : id = rule.id
    · simp [heq]
    · -- Only rules with another id are dropped.
      simp only [heq, false_or, List.mem_map, List.mem_filter]
      refine ⟨?_, ?_⟩
      · rintro ⟨later, ⟨hlater, -⟩, hid⟩
        exact ⟨later, hlater, hid⟩
      · rintro ⟨later, hlater, rfl⟩
        exact ⟨later, ⟨hlater, by simpa using heq⟩, rfl⟩

theorem nodup_ids_firstPerId (rules : List Rule) : ((firstPerId rules).map Rule.id).Nodup := by
  induction rules with
  | nil => exact List.nodup_nil
  | cons rule rules ih =>
    rw [firstPerId, List.map_cons, List.nodup_cons]
    refine ⟨?_, ih.sublist (List.filter_sublist.map _)⟩
    rw [List.mem_map]
    rintro ⟨later, hlater, heq⟩
    simp [heq] at hlater

/-- One more rule at the end comes first with its id or does not matter. -/
theorem firstPerId_concat (rules : List Rule) (rule : Rule) :
    firstPerId (rules ++ [rule])
      = if rule.id ∈ rules.map Rule.id then firstPerId rules else firstPerId rules ++ [rule] := by
  induction rules with
  | nil => rfl
  | cons first rules ih =>
    rw [List.cons_append, firstPerId, firstPerId, ih, List.map_cons]
    by_cases hmem : rule.id ∈ rules.map Rule.id
    · rw [if_pos hmem, if_pos (List.mem_cons_of_mem _ hmem)]
    · -- The new rule passes all but perhaps the first one, which drops it if it has the same id.
      rw [if_neg hmem, List.filter_append]
      by_cases heq : rule.id = first.id
      · rw [if_pos (heq ▸ List.mem_cons_self)]
        simp [heq]
      · rw [if_neg (by simp [heq, hmem])]
        simp [heq]

/-- There are as many of these rules as different ids. -/
theorem length_firstPerId (rules : List Rule) :
    (firstPerId rules).length = (rules.map Rule.id).dedup.length := by
  have hperm : ((firstPerId rules).map Rule.id).Perm (rules.map Rule.id).dedup := by
    refine (List.perm_ext_iff_of_nodup (nodup_ids_firstPerId rules) (List.nodup_dedup _)).mpr ?_
    intro id
    rw [mem_ids_firstPerId, List.mem_dedup]
  rw [← hperm.length_eq, List.length_map]

/-- A rule is taken if its id is free, and then it comes last. Otherwise nothing happens. Registering
is one step here, however many clients there are. -/
theorem fst_register (r : Registry) (rule : Rule) :
    (r.register rule).1 = decide (rule.id ∉ r.ids) := by
  rw [Registry.register]
  by_cases hmem : rule.id ∈ r.ids
  · rw [if_pos (Registry.contains_iff.mpr hmem)]
    simp [hmem]
  · rw [if_neg (Registry.contains_iff.not.mpr hmem)]
    simp [hmem]

theorem rules_register (r : Registry) (rule : Rule) :
    (r.register rule).2.rules = if rule.id ∈ r.ids then r.rules else r.rules ++ [rule] := by
  rw [Registry.register]
  by_cases hmem : rule.id ∈ r.ids
  · rw [if_pos (Registry.contains_iff.mpr hmem), if_pos hmem]
  · rw [if_neg (Registry.contains_iff.not.mpr hmem), if_neg hmem]

theorem length_rules_register (r : Registry) (rule : Rule) :
    (r.register rule).2.rules.length = r.rules.length + (r.register rule).1.toNat := by
  rw [rules_register, fst_register]
  by_cases hmem : rule.id ∈ r.ids
  · simp [hmem]
  · simp [hmem]

theorem rules_prefix_register (r : Registry) (rule : Rule) :
    r.rules <+: (r.register rule).2.rules := by
  rw [rules_register]
  split_ifs
  · exact List.prefix_rfl
  · exact List.prefix_append _ _

/-! ### Clients -/

/-- What a client asks for. -/
inductive Call where
  | register (rule : Rule)
  | registerAll (rules : List Rule)
  | reset

/-- What a client is told. -/
inductive Answer where
  | taken (isTaken : Bool)
  | count (number : Nat)
  | done

/-- How many rules an answer says were taken. -/
def Answer.gain : Answer → Nat
  | taken isTaken => isTaken.toNat
  | count number => number
  | done => 0

/-- Where a client is. -/
inductive Phase where
  | idle
  /-- The client registers several rules: some are left, and some of the others were taken. -/
  | registering (left : List Rule) (count : Nat)

/-- One that works on a registry. -/
structure Client where
  /-- The calls that it has yet to make, in order. -/
  todo : List Call
  phase : Phase := .idle
  /-- What it was told, in order. -/
  answers : List Answer := []

/-- What happens to a registry. -/
inductive Event where
  | submit (rule : Rule) (isTaken : Bool)
  | reset

namespace Event

/-- Whether the registry was emptied. -/
def isReset : Event → Bool
  | submit _ _ => false
  | reset => true

/-- The rule that was submitted. -/
def rule? : Event → Option Rule
  | submit rule _ => some rule
  | reset => none

end Event

/-- The rules that were submitted since the registry was emptied last, in the order of time. -/
def sinceReset (events : List Event) : List Rule :=
  (events.rtakeWhile fun e => !e.isReset).filterMap Event.rule?

/-- A rule that is submitted is the last one so far, and when the registry is emptied all start
anew. -/
theorem sinceReset_submit (events : List Event) (rule : Rule) (isTaken : Bool) :
    sinceReset (events ++ [.submit rule isTaken]) = sinceReset events ++ [rule] := by
  rw [sinceReset, List.rtakeWhile_concat_pos _ _ _ rfl, List.filterMap_append]
  rfl

theorem sinceReset_reset (events : List Event) : sinceReset (events ++ [.reset]) = [] := by
  rw [sinceReset, List.rtakeWhile_concat_neg _ _ _ Bool.false_ne_true]
  rfl

/-- If the registry was not emptied, all rules that were submitted count. -/
theorem sinceReset_eq_filterMap {events : List Event} (h : .reset ∉ events) :
    sinceReset events = events.filterMap Event.rule? := by
  have hall : ∀ e ∈ events, (!e.isReset) = true := by
    intro e he
    cases e with
    | submit rule isTaken => rfl
    | reset => exact absurd he h
  rw [sinceReset, List.rtakeWhile_eq_self_iff.mpr hall]

/-- **The smallest things that a client can do,** with what happens to the registry. -/
inductive Client.Acts (r : Registry) : Client → Option Event → Registry → Client → Prop
  | register (rule : Rule) (todo : List Call) (answers : List Answer) :
      Acts r ⟨.register rule :: todo, .idle, answers⟩
        (some (.submit rule (r.register rule).1)) (r.register rule).2
        ⟨todo, .idle, answers ++ [.taken (r.register rule).1]⟩
  | begin (rules : List Rule) (todo : List Call) (answers : List Answer) :
      Acts r ⟨.registerAll rules :: todo, .idle, answers⟩ none r
        ⟨todo, .registering rules 0, answers⟩
  | next (rule : Rule) (left : List Rule) (count : Nat) (todo : List Call) (answers : List Answer) :
      Acts r ⟨todo, .registering (rule :: left) count, answers⟩
        (some (.submit rule (r.register rule).1)) (r.register rule).2
        ⟨todo, .registering left (count + (r.register rule).1.toNat), answers⟩
  | finish (count : Nat) (todo : List Call) (answers : List Answer) :
      Acts r ⟨todo, .registering [] count, answers⟩ none r
        ⟨todo, .idle, answers ++ [.count count]⟩
  | reset (todo : List Call) (answers : List Answer) :
      Acts r ⟨.reset :: todo, .idle, answers⟩ (some .reset) r.reset
        ⟨todo, .idle, answers ++ [.done]⟩

/-- A registry and those who work on it. -/
structure State where
  registry : Registry
  clients : List Client

/-- Clients with their calls, and an empty registry. -/
def State.start (programs : List (List Call)) : State :=
  ⟨{}, programs.map fun calls => ⟨calls, .idle, []⟩⟩

/-- **What can happen next:** one of the clients goes on. -/
inductive Step : State → Option Event → State → Prop
  | act {r r' : Registry} {c c' : Client} {e : Option Event} (before after : List Client)
      (h : c.Acts r e r' c') : Step ⟨r, before ++ c :: after⟩ e ⟨r', before ++ c' :: after⟩

/-- **Runs,** with all that happens to the registry in the order of time. -/
inductive Run (s : State) : List Event → State → Prop
  | refl : Run s [] s
  | step {events : List Event} {e : Option Event} {t u : State} (h : Run s events t)
      (hstep : Step t e u) : Run s (events ++ e.toList) u

/-- A run can go on from where another one ended, and then all that happened is in the list. -/
theorem Run.trans {s t u : State} {events events' : List Event} (h : Run s events t)
    (h' : Run t events' u) : Run s (events ++ events') u := by
  induction h' with
  | refl => rwa [List.append_nil]
  | step _ hstep ih =>
    rw [← List.append_assoc]
    exact ih.step hstep

/-! ### What the registry has -/

/-- A registry has the rules that came first with their ids. -/
def Follows (r : Registry) (events : List Event) : Prop := r.rules = firstPerId (sinceReset events)

/-- Registering keeps this. Whether the id is free can be seen from what was submitted, since the ids
of the registry are the ids of that. -/
theorem Follows.register {r : Registry} {events : List Event} (h : Follows r events) (rule : Rule)
    (isTaken : Bool) : Follows (r.register rule).2 (events ++ [.submit rule isTaken]) := by
  -- The ids of the registry are those of all rules that were submitted.
  have hids : rule.id ∈ r.ids ↔ rule.id ∈ (sinceReset events).map Rule.id := by
    rw [Registry.ids, h, mem_ids_firstPerId]
  rw [Follows, rules_register, sinceReset_submit, firstPerId_concat, ← h]
  simp only [hids]

/-- **Whatever a client does keeps this.** What two of the steps do to the registry is registering one
rule, and two others leave it alone. -/
theorem Client.Acts.follows {r r' : Registry} {c c' : Client} {e : Option Event}
    {events : List Event} (h : c.Acts r e r' c') (hr : Follows r events) :
    Follows r' (events ++ e.toList) := by
  cases h with
  | register rule todo answers => exact hr.register rule _
  | begin rules todo answers => rwa [Option.toList_none, List.append_nil]
  | next rule left count todo answers => exact hr.register rule _
  | finish count todo answers => rwa [Option.toList_none, List.append_nil]
  | reset todo answers =>
    change [] = firstPerId (sinceReset (events ++ [.reset]))
    rw [sinceReset_reset]
    rfl

/-- **What happened determines the registry.** Who did what does not matter, only the order of time
does. -/
theorem Run.rules_eq {programs : List (List Call)} {events : List Event} {s : State}
    (h : Run (.start programs) events s) : s.registry.rules = firstPerId (sinceReset events) := by
  change Follows s.registry events
  induction h with
  | refl => rfl
  | step _ hstep ih =>
    cases hstep with
    | act before after hacts => exact hacts.follows ih

/-- A rule is taken if there is none with its id, and otherwise nothing changes. -/
theorem Client.Acts.submit {r r' : Registry} {c c' : Client} {rule : Rule} {isTaken : Bool}
    (h : c.Acts r (some (.submit rule isTaken)) r' c') :
    (isTaken = true ↔ rule.id ∉ r.ids) ∧
      r'.rules = if isTaken then r.rules ++ [rule] else r.rules := by
  -- A rule is submitted by itself or as one of several, and both register it.
  have hregister : ((r.register rule).1 = true ↔ rule.id ∉ r.ids) ∧ (r.register rule).2.rules
      = if (r.register rule).1 then r.rules ++ [rule] else r.rules := by
    rw [fst_register, rules_register]
    by_cases hmem : rule.id ∈ r.ids
    · simp [hmem]
    · simp [hmem]
  cases h with
  | register rule todo answers => exact hregister
  | next rule left count todo answers => exact hregister

/-- A registry that is not emptied only grows: a rule that is taken is put behind the others. -/
theorem Client.Acts.rules_prefix {r r' : Registry} {c c' : Client} {e : Option Event}
    (h : c.Acts r e r' c') (he : .reset ∉ e.toList) : r.rules <+: r'.rules := by
  cases h with
  | register rule todo answers => exact rules_prefix_register r rule
  | begin rules todo answers => exact List.prefix_rfl
  | next rule left count todo answers => exact rules_prefix_register r rule
  | finish count todo answers => exact List.prefix_rfl
  | reset todo answers => exact absurd (List.mem_singleton_self _) he

/-- What one sees first is a prefix of what one sees later, as long as the registry is not emptied in
between. -/
theorem Run.rules_prefix {s t : State} {events : List Event} (h : Run s events t)
    (hreset : .reset ∉ events) : s.registry.rules <+: t.registry.rules := by
  induction h with
  | refl => exact List.prefix_rfl
  | step _ hstep ih =>
    -- Neither the run so far nor its last step empties the registry.
    obtain ⟨hbefore, he⟩ := not_or.mp (List.mem_append.not.mp hreset)
    cases hstep with
    | act before after hacts => exact (ih hbefore).trans (hacts.rules_prefix he)

/-! ### What the clients were told -/

namespace Client

/-- How many rules a client was told were taken. -/
def gained (c : Client) : Nat := (c.answers.map Answer.gain).sum

/-- How many rules were taken in a call that a client is in the midst of. -/
def underway (c : Client) : Nat :=
  match c.phase with
  | .idle => 0
  | .registering _ count => count

/-- As long as the registry is not emptied, it grows by what the client gains. -/
theorem Acts.gained_add_length {r r' : Registry} {c c' : Client} {e : Option Event}
    (h : c.Acts r e r' c') (he : .reset ∉ e.toList) :
    c'.gained + c'.underway + r.rules.length = c.gained + c.underway + r'.rules.length := by
  cases h with
  | register rule todo answers =>
    rw [length_rules_register]
    simp only [gained, underway, List.map_append, List.map_singleton, List.sum_append,
      List.sum_singleton, Answer.gain]
    omega
  | begin rules todo answers => simp [gained, underway]
  | next rule left count todo answers =>
    rw [length_rules_register]
    simp only [gained, underway]
    omega
  -- What was taken in the call is now part of the answer.
  | finish count todo answers => simp [gained, underway, Answer.gain]
  | reset todo answers => exact absurd (List.mem_singleton_self _) he

end Client

/-- **The registry has as many rules as the clients gained.** What is gained in a call under way
counts as well, since its client is told only when the call is finished. -/
theorem Run.gained_add_length {s t : State} {events : List Event} (h : Run s events t)
    (hreset : .reset ∉ events) :
    (t.clients.map fun c => c.gained + c.underway).sum + s.registry.rules.length
      = (s.clients.map fun c => c.gained + c.underway).sum + t.registry.rules.length := by
  induction h with
  | refl => rfl
  | step _ hstep ih =>
    obtain ⟨hbefore, he⟩ := not_or.mp (List.mem_append.not.mp hreset)
    have ih := ih hbefore
    cases hstep with
    | act before after hacts =>
      -- In both sums only the client that goes on counts.
      have hact := hacts.gained_add_length he
      simp only [List.map_append, List.map_cons, List.sum_append, List.sum_cons] at ih ⊢
      omega

/-! ### What the clients were given -/

/-- The rules that a call submits, sooner or later. -/
def Call.rules : Call → List Rule
  | register rule => [rule]
  | registerAll rules => rules
  | reset => []

namespace Client

/-- The rules that a client has yet to submit. -/
def pending (c : Client) : List Rule :=
  match c.phase with
  | .idle => c.todo.flatMap Call.rules
  | .registering left _ => left ++ c.todo.flatMap Call.rules

/-- A client submits the first of its rules, or none. Beginning and finishing a call moves rules from
one place to another and submits none. -/
theorem Acts.pending_eq {r r' : Registry} {c c' : Client} {e : Option Event}
    (h : c.Acts r e r' c') : c.pending = e.toList.filterMap Event.rule? ++ c'.pending := by
  cases h with
  | register rule todo answers => rfl
  | begin rules todo answers => rfl
  | next rule left count todo answers => rfl
  | finish count todo answers => rfl
  | reset todo answers => rfl

/-- A client has made all its calls. -/
def IsFinished (c : Client) : Prop := c.todo = [] ∧ c.phase = .idle

end Client

/-- All clients have made all their calls. -/
def State.IsFinished (s : State) : Prop := ∀ c ∈ s.clients, c.IsFinished

/-- **No rule is lost or made up:** what was submitted and what is yet to be submitted are the rules
of the calls. -/
theorem Run.perm_pending {s t : State} {events : List Event} (h : Run s events t) :
    (s.clients.flatMap Client.pending).Perm
      (events.filterMap Event.rule? ++ t.clients.flatMap Client.pending) := by
  induction h with
  | refl => exact List.Perm.refl _
  | step _ hstep ih =>
    refine ih.trans ?_
    cases hstep with
    | act before after hacts =>
      -- The rule moves from the front of what its client has left to the end of what was submitted.
      rw [List.filterMap_append, List.append_assoc, List.flatMap_append, List.flatMap_append,
        List.flatMap_cons, List.flatMap_cons, hacts.pending_eq]
      refine List.Perm.append_left _ ?_
      rw [List.append_assoc]
      exact List.perm_append_comm_assoc _ _ _

theorem flatMap_pending_start (programs : List (List Call)) :
    (State.start programs).clients.flatMap Client.pending
      = programs.flatMap fun calls => calls.flatMap Call.rules := by
  rw [State.start, List.flatMap_map]
  rfl

/-- When all clients have finished, the rules of all calls have been submitted. Their order is that of
time, which may be any. -/
theorem Run.perm_submitted {programs : List (List Call)} {events : List Event} {s : State}
    (h : Run (.start programs) events s) (hfinished : s.IsFinished) :
    (events.filterMap Event.rule?).Perm (programs.flatMap fun calls => calls.flatMap Call.rules) := by
  -- Nobody has anything left to submit.
  have hpending : s.clients.flatMap Client.pending = [] := by
    refine List.flatMap_eq_nil_iff.mpr fun c hc => ?_
    obtain ⟨htodo, hphase⟩ := hfinished c hc
    rw [Client.pending, hphase, htodo]
    rfl
  have hperm := h.perm_pending
  rw [hpending, List.append_nil, flatMap_pending_start] at hperm
  exact hperm.symm

/-- A client that has finished was told of all that it gained. -/
theorem sum_underway_eq_zero {s : State} (h : s.IsFinished) :
    (s.clients.map fun c => c.gained + c.underway).sum = (s.clients.map Client.gained).sum := by
  refine congrArg List.sum (List.map_congr_left fun c hc => ?_)
  rw [Client.underway, (h c hc).2]
  rfl

/-! ### Every run can be finished -/

/-- How many steps a call takes: several rules take one each, one to begin and one to finish. -/
def Call.steps : Call → Nat
  | register _ => 1
  | registerAll rules => rules.length + 2
  | reset => 1

namespace Client

/-- How many steps a client has yet to do. -/
def rest (c : Client) : Nat :=
  (c.todo.map Call.steps).sum +
    match c.phase with
    | .idle => 0
    | .registering left _ => left.length + 1

/-- Whatever a client does, it has less to do afterwards. -/
theorem Acts.rest_lt {r r' : Registry} {c c' : Client} {e : Option Event} (h : c.Acts r e r' c') :
    c'.rest < c.rest := by
  cases h with
  | register rule todo answers => simp [rest, Call.steps]
  | begin rules todo answers =>
    simp only [rest, List.map_cons, List.sum_cons, Call.steps]
    omega
  | next rule left count todo answers => simp [rest]
  | finish count todo answers => simp [rest]
  | reset todo answers => simp [rest, Call.steps]

/-- A client that has not finished can go on, whatever the others did. -/
theorem exists_acts (r : Registry) {c : Client} (h : ¬ c.IsFinished) :
    ∃ e r' c', c.Acts r e r' c' := by
  obtain ⟨todo, phase, answers⟩ := c
  -- An idle client makes its next call. In the midst of a call it submits the next rule or
  -- finishes.
  rcases phase with _ | ⟨_ | ⟨rule, left⟩, count⟩
  · rcases todo with _ | ⟨_ | _ | _, todo⟩
    · exact absurd ⟨rfl, rfl⟩ h
    · exact ⟨_, _, _, .register _ _ _⟩
    · exact ⟨_, _, _, .begin _ _ _⟩
    · exact ⟨_, _, _, .reset _ _⟩
  · exact ⟨_, _, _, .finish _ _ _⟩
  · exact ⟨_, _, _, .next _ _ _ _ _⟩

end Client

/-- **Every run can be carried on** until all clients have finished. No client ever waits for
another. -/
theorem exists_run_finished (s : State) : ∃ events t, Run s events t ∧ t.IsFinished := by
  -- The induction is on what all clients together have yet to do.
  induction hn : (s.clients.map Client.rest).sum using Nat.strongRecOn generalizing s with
  | ind n ih =>
    by_cases hfinished : s.IsFinished
    · exact ⟨[], s, .refl, hfinished⟩
    · -- One client goes on. What all have left to do gets less, so the rest of the run is there.
      simp only [State.IsFinished, not_forall] at hfinished
      obtain ⟨c, hc, hunfinished⟩ := hfinished
      obtain ⟨r, clients⟩ := s
      obtain ⟨before, after, rfl⟩ := List.append_of_mem hc
      obtain ⟨e, r', c', hacts⟩ := c.exists_acts r hunfinished
      have hlt : ((before ++ c' :: after).map Client.rest).sum < n := by
        have hrest := hacts.rest_lt
        rw [← hn]
        simp only [List.map_append, List.map_cons, List.sum_append, List.sum_cons]
        omega
      obtain ⟨events, t, hrun, ht⟩ := ih _ hlt ⟨r', before ++ c' :: after⟩ rfl
      exact ⟨_, t, (Run.refl.step (.act before after hacts)).trans hrun, ht⟩

/-- While nobody comes in between, registering several rules is `Registry.registerAll`. So a client
that is alone sees nothing of the steps. -/
theorem exists_run_registering (r : Registry) (before after : List Client) (todo : List Call)
    (answers : List Answer) (rules : List Rule) (count : Nat) :
    ∃ events, Run ⟨r, before ++ ⟨todo, .registering rules count, answers⟩ :: after⟩ events
      ⟨(r.registerAll rules).2,
        before ++ ⟨todo, .idle, answers ++ [.count (count + (r.registerAll rules).1)]⟩ :: after⟩ := by
  induction rules generalizing r count with
  | nil => exact ⟨_, Run.refl.step (.act before after (.finish count todo answers))⟩
  | cons rule rules ih =>
    obtain ⟨events, hrun⟩ := ih (r.register rule).2 (count + (r.register rule).1.toNat)
    have hcount : count + (r.registerAll (rule :: rules)).1
        = count + (r.register rule).1.toNat + ((r.register rule).2.registerAll rules).1 := by
      change count + (((r.register rule).2.registerAll rules).1 + (r.register rule).1.toNat) = _
      omega
    rw [hcount]
    exact ⟨_, (Run.refl.step (.act before after (.next rule rules count todo answers))).trans hrun⟩

/-! ### Consistency -/

/-- **What it means that clients with some calls share a registry consistently.** -/
structure Consistent (programs : List (List Call)) : Prop where
  /-- No two rules have the same id, whenever one looks. -/
  nodup : ∀ events s, Run (.start programs) events s → s.registry.ids.Nodup
  /-- The rules are those that came first with their ids since the registry was emptied last. -/
  rules : ∀ events s, Run (.start programs) events s →
    s.registry.rules = firstPerId (sinceReset events)
  /-- A client that registers a rule is told that it was taken exactly if there was none with its id.
  If there was one, nothing changes. -/
  register : ∀ r rule todo answers e r' c',
    Client.Acts r ⟨.register rule :: todo, .idle, answers⟩ e r' c' →
      ∃ isTaken, e = some (.submit rule isTaken) ∧ c'.answers = answers ++ [.taken isTaken]
  submit : ∀ s rule isTaken s', Step s (some (.submit rule isTaken)) s' →
    (isTaken = true ↔ rule.id ∉ s.registry.ids) ∧
      s'.registry.rules = if isTaken then s.registry.rules ++ [rule] else s.registry.rules
  /-- What one sees first is a prefix of what one sees later, if the registry is not emptied. -/
  snapshots : ∀ s events t, Run s events t → .reset ∉ events →
    s.registry.rules <+: t.registry.rules
  /-- If it is never emptied, then in the end it has as many rules as the clients were told were
  taken, and as many as there are different ids in their calls. -/
  total : ∀ events s, Run (.start programs) events s → .reset ∉ events → s.IsFinished →
    (s.clients.map Client.gained).sum = s.registry.rules.length ∧
      s.registry.rules.length
        = ((programs.flatMap fun calls => calls.flatMap Call.rules).map Rule.id).dedup.length
  /-- Every run can be carried on until there is nothing left to do. -/
  finishes : ∀ events s, Run (.start programs) events s →
    ∃ events' t, Run s events' t ∧ t.IsFinished
  /-- Several rules that are registered without interruption are registered as a whole. -/
  registerAll : ∀ r before after rules todo answers,
    ∃ events, Run ⟨r, before ++ ⟨.registerAll rules :: todo, .idle, answers⟩ :: after⟩ events
      ⟨(r.registerAll rules).2,
        before ++ ⟨todo, .idle, answers ++ [.count (r.registerAll rules).1]⟩ :: after⟩

/-- **A registry stays consistent** whatever its clients do and in whatever order. Each part follows
from an invariant of single steps, along the run. -/
theorem shared_registry_is_consistent (programs : List (List Call)) : Consistent programs where
  nodup := by
    intro events s h
    rw [Registry.ids, h.rules_eq]
    exact nodup_ids_firstPerId _
  rules := fun _ _ h => h.rules_eq
  register := by
    rintro r rule todo answers e r' c' ⟨⟩
    exact ⟨_, rfl, rfl⟩
  submit := by
    rintro s rule isTaken s' ⟨before, after, hacts⟩
    exact hacts.submit
  snapshots := fun _ _ _ h hreset => h.rules_prefix hreset
  total := by
    intro events s h hreset hfinished
    have hsum := h.gained_add_length hreset
    -- At the start nobody has gained anything.
    have hstart : ((State.start programs).clients.map fun c => c.gained + c.underway).sum = 0 := by
      rw [State.start, List.map_map]
      change (programs.map fun _ => 0).sum = 0
      simp
    rw [sum_underway_eq_zero hfinished, hstart, Nat.zero_add] at hsum
    refine ⟨hsum, ?_⟩
    have hids := (h.perm_submitted hfinished).map Rule.id
    -- The order in which the rules came does not matter for the number of ids.
    rw [h.rules_eq, sinceReset_eq_filterMap hreset, length_firstPerId]
    exact hids.dedup.length_eq
  finishes := fun _ s _ => exists_run_finished s
  registerAll := by
    intro r before after rules todo answers
    obtain ⟨events, hrun⟩ := exists_run_registering r before after todo answers rules 0
    rw [Nat.zero_add] at hrun
    exact ⟨_, (Run.refl.step (.act before after (.begin rules todo answers))).trans hrun⟩

end CilLint.Registration
