import Mathlib.Data.List.DropRight
import Mathlib.Data.List.Induction
import ClusterControl.Health.Registry
import ClusterControl.Proofs.SortedMap

/-!
# What the health registry tells

A registry keeps one record for every part and forgets the rest of what it was told.  What it tells
is compared here with the whole list of calls it has taken.

* `Notice` is what a call says about one part; `Registry.holds_ofCalls` says what the registry holds
  for a part after any calls, and `Registry.ready_ofCalls` whether startup has finished.
* `Registry.worst_overall` is the overall status, and `Registry.blocker_eq_some` the part that a
  refusal names.
* `Registry.reflects_calls` puts together what `/healthz` and `/readyz` answer from.
-/

namespace ClusterControl.Health

/-! ## Calls -/

/-- A call that changes a registry. -/
inductive Call
  | register (name : String)
  | registerAll (names : List String)
  | setHealthy (name : String)
  | setDegraded (name message : String)
  | setUnhealthy (name message : String)
  | setReady (ready : Bool)

namespace Registry

/-- The registry after a call at a time. -/
def call (g : Registry) (now : Int) : Call → Registry
  | .register name => g.register now name
  | .registerAll names => g.registerAll now names
  | .setHealthy name => g.report now name .healthy none
  | .setDegraded name message => g.report now name .degraded (some message)
  | .setUnhealthy name message => g.report now name .unhealthy (some message)
  | .setReady ready => g.setReady ready

/-- The registry after calls, each with its time. -/
def ofCalls (calls : List (Int × Call)) : Registry :=
  calls.foldl (fun g c => g.call c.1 c.2) empty

end Registry

/-! ## What was said about a part -/

/-- What a call says about a part: that it starts afresh, or how it is doing. -/
inductive Notice
  | started
  | healthy
  | degraded (message : String)
  | unhealthy (message : String)
  deriving DecidableEq

namespace Notice

def status : Notice → Status
  | started => .healthy
  | healthy => .healthy
  | degraded _ => .degraded
  | unhealthy _ => .unhealthy

def message : Notice → Option String
  | started => none
  | healthy => none
  | degraded message => some message
  | unhealthy message => some message

def isFailure : Notice → Bool
  | started => false
  | healthy => false
  | degraded _ => true
  | unhealthy _ => true

end Notice

/-- What the call says about the part, if it is about it. -/
def Call.notice? (part : String) : Call → Option Notice
  | register name => if name = part then some .started else none
  | registerAll names => if part ∈ names then some .started else none
  | setHealthy name => if name = part then some .healthy else none
  | setDegraded name message => if name = part then some (.degraded message) else none
  | setUnhealthy name message => if name = part then some (.unhealthy message) else none
  | setReady _ => none

/-- All that was said about the part, in order. -/
def notices (part : String) (calls : List (Int × Call)) : List Notice :=
  calls.filterMap fun c => c.2.notice? part

/-- How many failures were reported since the part last started or was healthy. -/
def failuresInRow (l : List Notice) : Nat := (l.rtakeWhile Notice.isFailure).length

/-- The part is unhealthy by what was last said about it. -/
def IsUnhealthy (part : String) (calls : List (Int × Call)) : Prop :=
  ∃ message, (notices part calls).getLast? = some (.unhealthy message)

/-- What the call says about startup. -/
def Call.ready? : Call → Option Bool
  | setReady ready => some ready
  | _ => none

/-- What was last said about startup. -/
def lastReady? (calls : List (Int × Call)) : Option Bool :=
  (calls.filterMap fun c => c.2.ready?).getLast?

/-! ## One part -/

theorem failuresInRow_concat (l : List Notice) (n : Notice) :
    failuresInRow (l ++ [n]) = if n.isFailure then failuresInRow l + 1 else 0 := by
  rw [failuresInRow, List.rtakeWhile_concat]
  split
  · rw [List.length_append, List.length_singleton, failuresInRow]
  · rfl

/-- What is held for a part after some notices about it: nothing when there was none, and else the
status and message of the last one and a capped count of failures. -/
inductive Holds : List Notice → Option Component → Prop
  | nothing : Holds [] none
  | last {l : List Notice} {n : Notice} {c : Component} (status : c.status = n.status)
      (message : c.message = n.message)
      (failures : c.failures = min maxFailures (failuresInRow (l ++ [n]))) :
      Holds (l ++ [n]) (some c)

/-- The count goes on from the record before, whose cap does not matter. -/
theorem Holds.report {l : List Notice} {previous : Option Component} (h : Holds l previous)
    (n : Notice) (now : Int) :
    Holds (l ++ [n]) (some (.report n.status n.message now previous)) := by
  refine .last rfl rfl ?_
  have hone : 1 ≤ maxFailures := by decide
  rw [failuresInRow_concat]
  cases n with
  | started | healthy => rfl
  | degraded | unhealthy =>
    cases h with
    | nothing => exact (min_eq_right hone).symm
    | last _ _ hfailures =>
      simp only [Component.report, Notice.status, Notice.isFailure, hfailures, if_true]
      omega

/-! ## All parts -/

namespace Registry

theorem registerAll_eq (g : Registry) (now : Int) (names : List String) :
    g.registerAll now names =
      ⟨names.foldl (fun m name => m.insert name (.report .healthy none now none)) g.components,
        g.ready⟩ := by
  induction names generalizing g with
  | nil => rfl
  | cons name rest ih => exact ih (g.register now name)

/-- A call writes the records of the parts it is about, each from the one before. -/
theorem get?_call (g : Registry) (now : Int) (c : Call) (part : String) :
    (g.call now c).components.get? part =
      match c.notice? part with
      | none => g.components.get? part
      | some n => some (.report n.status n.message now (g.components.get? part)) := by
  cases c with
  | registerAll names =>
    rw [call, registerAll_eq, SortedMap.get?_foldl_insert, Call.notice?]
    split <;> rfl
  | setReady ready => rfl
  | register name | setHealthy name | setDegraded name message | setUnhealthy name message =>
    simp only [call, register, report, Call.notice?, SortedMap.get?_insert]
    by_cases hname : part = name
    · subst hname
      simp [Notice.status, Notice.message, Component.report]
    · simp [hname, Ne.symm hname]

theorem ready_call (g : Registry) (now : Int) (c : Call) :
    (g.call now c).ready = c.ready?.getD g.ready := by
  cases c with
  | registerAll names =>
    rw [call, registerAll_eq]
    rfl
  | _ => rfl

theorem ofCalls_concat (calls : List (Int × Call)) (c : Int × Call) :
    ofCalls (calls ++ [c]) = (ofCalls calls).call c.1 c.2 := by
  rw [ofCalls, List.foldl_append, List.foldl_cons, List.foldl_nil, ← ofCalls]

/-- After any calls the registry holds for every part what was said about it. -/
theorem holds_ofCalls (calls : List (Int × Call)) (part : String) :
    Holds (notices part calls) ((ofCalls calls).components.get? part) := by
  induction calls using List.reverseRecOn with
  | nil => exact .nothing
  | append_singleton calls c ih =>
    rw [ofCalls_concat, get?_call, notices, List.filterMap_append, ← notices]
    cases hn : c.2.notice? part with
    | none => simpa [hn] using ih
    | some n => simpa [hn] using ih.report n c.1

theorem ready_ofCalls (calls : List (Int × Call)) :
    (ofCalls calls).ready = (lastReady? calls).getD false := by
  induction calls using List.reverseRecOn with
  | nil => rfl
  | append_singleton calls c ih =>
    rw [ofCalls_concat, ready_call, lastReady?, List.filterMap_append, ih, lastReady?]
    cases hc : c.2.ready? with
    | none => simp [hc]
    | some ready => simp [hc]

end Registry

namespace Holds

variable {l : List Notice} {held : Option Component} {c : Component}

theorem isSome_iff (h : Holds l held) : (∃ c, held = some c) ↔ l ≠ [] := by
  cases h with
  | nothing => simp
  | last => simp

theorem failures (h : Holds l (some c)) : c.failures = min maxFailures (failuresInRow l) := by
  cases h with
  | last _ _ hfailures => exact hfailures

theorem last_notice (h : Holds l (some c)) :
    ∃ n, l.getLast? = some n ∧ c.status = n.status ∧ c.message = n.message := by
  cases h with
  | last hstatus hmessage _ => exact ⟨_, List.getLast?_concat, hstatus, hmessage⟩

/-- Only a report makes a part unhealthy, and a report of that kind has a message. -/
theorem unhealthy (h : Holds l (some c)) (hstatus : c.status = .unhealthy) :
    ∃ message, l.getLast? = some (.unhealthy message) ∧ c.message = some message := by
  obtain ⟨n, hlast, hn, hmessage⟩ := h.last_notice
  rw [hstatus] at hn
  cases n with
  | unhealthy message => exact ⟨message, hlast, hmessage⟩
  | started | healthy | degraded => cases hn

theorem of_unhealthy (h : Holds l held) {message : String}
    (hlast : l.getLast? = some (.unhealthy message)) : ∃ c, held = some c ∧ c.status = .unhealthy := by
  cases h with
  | nothing => cases hlast
  | last hstatus _ _ =>
    rw [List.getLast?_concat, Option.some.injEq] at hlast
    exact ⟨_, rfl, by rw [hstatus, hlast, Notice.status]⟩

end Holds

/-! ## The worst status -/

/-- Statuses from best to worst. -/
def Status.severity : Status → Nat
  | healthy => 0
  | degraded => 1
  | unhealthy => 2

theorem Status.severity_worse (a b : Status) :
    (a.worse b).severity = max a.severity b.severity := by
  cases a <;> cases b <;> rfl

theorem Status.worse_eq_or (a b : Status) : a.worse b = a ∨ a.worse b = b := by
  cases a <;> cases b <;> simp [worse]

/-- The worst of some statuses is none of the better ones, and it is one of them. -/
theorem Status.worst_foldl (l : List Status) (a : Status) :
    (∀ b ∈ a :: l, b.severity ≤ (l.foldl worse a).severity) ∧ l.foldl worse a ∈ a :: l := by
  induction l generalizing a with
  | nil => simp
  | cons b l ih =>
    obtain ⟨hle, hmem⟩ := ih (a.worse b)
    have hworse := hle _ List.mem_cons_self
    rw [severity_worse, Nat.max_le] at hworse
    refine ⟨?_, ?_⟩
    · intro d hd
      rw [List.mem_cons, List.mem_cons] at hd
      obtain rfl | rfl | hd := hd
      · exact hworse.1
      · exact hworse.2
      · exact hle d (List.mem_cons_of_mem _ hd)
    · rw [List.foldl_cons]
      obtain heq | hmem := List.mem_cons.1 hmem
      · obtain h | h := worse_eq_or a b
        · exact List.mem_cons.2 (.inl (heq.trans h))
        · exact List.mem_cons_of_mem _ (List.mem_cons.2 (.inl (heq.trans h)))
      · exact List.mem_cons_of_mem _ (List.mem_cons_of_mem _ hmem)

namespace Registry

/-- The overall status is no better than that of any part; it is the status of a part, or the best
one when there is no part. -/
theorem worst_overall (g : Registry) :
    (∀ part c, g.components.get? part = some c → c.status.severity ≤ g.overall.severity) ∧
    ((∃ part c, g.components.get? part = some c ∧ c.status = g.overall) ∨
      (∀ part, g.components.get? part = none) ∧ g.overall = .healthy) := by
  obtain ⟨hle, hmem⟩ := Status.worst_foldl (g.components.values.map Component.status) .healthy
  rw [← overall] at hle hmem
  have hbest : ∀ part c, g.components.get? part = some c →
      c.status.severity ≤ g.overall.severity := by
    intro part c hc
    refine hle _ (List.mem_cons_of_mem _ (List.mem_map_of_mem ?_))
    exact SortedMap.mem_values_iff.2 ⟨part, hc⟩
  refine ⟨hbest, ?_⟩
  obtain hhealthy | hmem := List.mem_cons.1 hmem
  · by_cases hnone : ∀ part, g.components.get? part = none
    · exact .inr ⟨hnone, hhealthy⟩
    · -- a part that is there is no worse than healthy, so it is healthy
      obtain ⟨part, hpart⟩ := not_forall.1 hnone
      obtain ⟨c, hc⟩ := Option.ne_none_iff_exists'.1 hpart
      have hzero := hbest part c hc
      rw [hhealthy] at hzero ⊢
      refine .inl ⟨part, c, hc, ?_⟩
      cases hstatus : c.status with
      | healthy => rfl
      | degraded | unhealthy =>
        rw [hstatus] at hzero
        exact absurd hzero (by decide)
  · obtain ⟨c, hc, heq⟩ := List.mem_map.1 hmem
    obtain ⟨part, hpart⟩ := SortedMap.mem_values_iff.1 hc
    exact .inl ⟨part, c, hpart, heq⟩

/-! ## The part that blocks -/

/-- A critical part is unhealthy. -/
def Blocks (g : Registry) (part : String) (c : Component) : Prop :=
  isCritical part = true ∧ g.components.get? part = some c ∧ c.status = .unhealthy

variable {g : Registry}

/-- Nothing blocks when no part is critical and unhealthy. -/
theorem blocker_eq_none : g.blocker = none ↔ ∀ part c, ¬g.Blocks part c := by
  rw [blocker, List.find?_eq_none]
  constructor
  · rintro h part c ⟨hcritical, hc, hstatus⟩
    exact h _ (SortedMap.get?_eq_some_iff.1 hc) (by simp [hcritical, hstatus])
  · rintro h ⟨part, c⟩ hmem htest
    simp only [Bool.and_eq_true, beq_iff_eq] at htest
    exact h part c ⟨htest.1, SortedMap.get?_eq_some_iff.2 hmem, htest.2⟩

/-- The part that blocks is the first of them by name. -/
theorem blocker_eq_some {part : String} {c : Component} (h : g.blocker = some (part, c)) :
    g.Blocks part c ∧ ∀ other d, g.Blocks other d → part ≤ other := by
  obtain ⟨htest, before, after, hentries, hbefore⟩ := List.find?_eq_some_iff_append.1 h
  simp only [Bool.and_eq_true, beq_iff_eq] at htest
  have hmem : (part, c) ∈ g.components.entries := List.mem_of_find?_eq_some h
  refine ⟨⟨htest.1, SortedMap.get?_eq_some_iff.2 hmem, htest.2⟩, ?_⟩
  rintro other d ⟨hcritical, hd, hstatus⟩
  have hother := SortedMap.get?_eq_some_iff.1 hd
  rw [hentries, List.mem_append, List.mem_cons] at hother
  obtain hearlier | heq | hlater := hother
  · -- an entry before the one that was found does not block
    exact absurd (hbefore _ hearlier) (by simp [hcritical, hstatus])
  · obtain rfl : other = part := congrArg Prod.fst heq
    exact String.le_refl other
  · have hsorted := g.components.sorted
    rw [hentries, List.pairwise_append, List.pairwise_cons] at hsorted
    exact String.not_lt.1 (String.lt_asymm (hsorted.2.1.1 _ hlater))

theorem exists_blocks_iff (calls : List (Int × Call)) (part : String) :
    (∃ c, (ofCalls calls).Blocks part c) ↔ isCritical part = true ∧ IsUnhealthy part calls := by
  have hholds := holds_ofCalls calls part
  constructor
  · rintro ⟨c, hcritical, hc, hstatus⟩
    rw [hc] at hholds
    obtain ⟨message, hlast, -⟩ := hholds.unhealthy hstatus
    exact ⟨hcritical, message, hlast⟩
  · rintro ⟨hcritical, message, hlast⟩
    obtain ⟨c, hc, hstatus⟩ := hholds.of_unhealthy hlast
    exact ⟨c, hcritical, hc, hstatus⟩

end Registry

/-! ## Whether work is accepted -/

/-- What is answered after the calls to the question whether work is accepted: no before startup
has finished; no while a critical part is unhealthy, and the first of them by name is the reason;
and else yes. -/
inductive Answers (calls : List (Int × Call)) : Readiness → Prop
  | starting (hstarting : lastReady? calls ≠ some true) :
      Answers calls ⟨false, some "Group controller is still starting"⟩
  | blocked (hstarted : lastReady? calls = some true) {first message : String}
      (hcritical : isCritical first = true)
      (hlast : (notices first calls).getLast? = some (.unhealthy message))
      (hfirst : ∀ other, isCritical other = true → IsUnhealthy other calls → first ≤ other) :
      Answers calls ⟨false, some (first ++ " is unhealthy: " ++ message)⟩
  | accepting (hstarted : lastReady? calls = some true)
      (hnone : ∀ part, isCritical part = true → ¬IsUnhealthy part calls) :
      Answers calls ⟨true, none⟩

namespace Answers

variable {calls : List (Int × Call)} {r : Readiness}

theorem ready_iff (h : Answers calls r) : r.ready = true ↔
    lastReady? calls = some true ∧ ∀ part, isCritical part = true → ¬IsUnhealthy part calls := by
  cases h with
  | starting hstarting => exact ⟨nofun, fun h => absurd h.1 hstarting⟩
  | blocked _ hcritical hlast _ => exact ⟨nofun, fun h => absurd ⟨_, hlast⟩ (h.2 _ hcritical)⟩
  | accepting hstarted hnone => exact ⟨fun _ => ⟨hstarted, hnone⟩, fun _ => rfl⟩

theorem reason_of_ready (h : Answers calls r) (hready : r.ready = true) : r.reason = none := by
  cases h with
  | starting | blocked => cases hready
  | accepting => rfl

theorem reason_of_starting (h : Answers calls r) (hstarting : lastReady? calls ≠ some true) :
    r.reason = some "Group controller is still starting" := by
  cases h with
  | starting => rfl
  | blocked hstarted | accepting hstarted => exact absurd hstarted hstarting

theorem reason_of_blocked (h : Answers calls r) (hstarted : lastReady? calls = some true)
    {part : String} (hpart : isCritical part = true) (hunhealthy : IsUnhealthy part calls) :
    ∃ first message, isCritical first = true ∧
      (notices first calls).getLast? = some (.unhealthy message) ∧
      (∀ other, isCritical other = true → IsUnhealthy other calls → first ≤ other) ∧
      r.reason = some (first ++ " is unhealthy: " ++ message) := by
  cases h with
  | starting hstarting => exact absurd hstarted hstarting
  | blocked _ hcritical hlast hfirst => exact ⟨_, _, hcritical, hlast, hfirst, rfl⟩
  | accepting _ hnone => exact absurd hunhealthy (hnone part hpart)

end Answers

namespace Registry

theorem readiness_of_not_ready {g : Registry} (h : g.ready = false) :
    g.readiness = ⟨false, some "Group controller is still starting"⟩ := by
  rw [readiness, h]
  rfl

theorem answers_ofCalls (calls : List (Int × Call)) :
    Answers calls (ofCalls calls).readiness := by
  have hready := ready_ofCalls calls
  by_cases hstarted : lastReady? calls = some true
  · rw [hstarted, Option.getD_some] at hready
    cases hblocker : (ofCalls calls).blocker with
    | none =>
      have heq : (ofCalls calls).readiness = ⟨true, none⟩ := by
        simp [readiness, hready, hblocker]
      rw [heq]
      refine .accepting hstarted fun part hcritical hunhealthy => ?_
      obtain ⟨c, hc⟩ := (exists_blocks_iff calls part).2 ⟨hcritical, hunhealthy⟩
      exact blocker_eq_none.1 hblocker part c hc
    | some entry =>
      obtain ⟨first, c⟩ := entry
      obtain ⟨⟨hcritical, hc, hstatus⟩, hleast⟩ := blocker_eq_some hblocker
      obtain ⟨message, hlast, hmessage⟩ := (hc ▸ holds_ofCalls calls first).unhealthy hstatus
      have heq : (ofCalls calls).readiness =
          ⟨false, some (first ++ " is unhealthy: " ++ message)⟩ := by
        simp [readiness, hready, hblocker, hmessage]
      rw [heq]
      refine .blocked hstarted hcritical hlast fun other hother hunhealthy => ?_
      obtain ⟨d, hd⟩ := (exists_blocks_iff calls other).2 ⟨hother, hunhealthy⟩
      exact hleast other d hd
  · have hnot : (ofCalls calls).ready = false := by
      rw [hready]
      cases hlast : lastReady? calls with
      | none => rfl
      | some ready => exact Bool.eq_false_iff.2 fun htrue => hstarted (hlast.trans (htrue ▸ rfl))
    rw [readiness_of_not_ready hnot]
    exact .starting hstarted

/-! ## What is told -/

/-- What a registry that has taken the calls tells. -/
structure Reflects (calls : List (Int × Call)) (g : Registry) : Prop where
  /-- The parts that are listed are those that a call was about. -/
  listed : ∀ part, (∃ c, g.summary.components.get? part = some c) ↔ notices part calls ≠ []
  /-- A part's failures are counted from when it last started or was healthy. -/
  failures : ∀ part c, g.summary.components.get? part = some c →
    c.failures = min maxFailures (failuresInRow (notices part calls))
  /-- A part's status and message are those of what was last said about it. -/
  last : ∀ part c, g.summary.components.get? part = some c →
    ∃ n, (notices part calls).getLast? = some n ∧ c.status = n.status ∧ c.message = n.message
  /-- No part is worse than the whole. -/
  worst : ∀ part c, g.summary.components.get? part = some c →
    c.status.severity ≤ g.summary.status.severity
  /-- The whole is as bad as one of its parts, or healthy when there is none. -/
  attained : (∃ part c, g.summary.components.get? part = some c ∧ c.status = g.summary.status) ∨
    (∀ part, g.summary.components.get? part = none) ∧ g.summary.status = .healthy
  /-- Work is accepted after startup while no critical part is unhealthy. -/
  ready : g.readiness.ready = true ↔
    lastReady? calls = some true ∧ ∀ part, isCritical part = true → ¬IsUnhealthy part calls
  accepting : g.readiness.ready = true → g.readiness.reason = none
  starting : lastReady? calls ≠ some true →
    g.readiness.reason = some "Group controller is still starting"
  /-- After startup the reason is the first unhealthy critical part by name, with its message. -/
  blocked : lastReady? calls = some true → ∀ part, isCritical part = true →
    IsUnhealthy part calls → ∃ first message, isCritical first = true ∧
      (notices first calls).getLast? = some (.unhealthy message) ∧
      (∀ other, isCritical other = true → IsUnhealthy other calls → first ≤ other) ∧
      g.readiness.reason = some (first ++ " is unhealthy: " ++ message)

/-- After any calls, about parts of any names, the registry reflects all that it was told. -/
theorem reflects_calls (calls : List (Int × Call)) : Reflects calls (ofCalls calls) := by
  have hholds := holds_ofCalls calls
  have hheld : ∀ part c, (ofCalls calls).components.get? part = some c →
      Holds (notices part calls) (some c) := fun part c hc => hc ▸ hholds part
  obtain ⟨hworst, hattained⟩ := worst_overall (ofCalls calls)
  have hanswers := answers_ofCalls calls
  exact
    { listed := fun part => (hholds part).isSome_iff
      failures := fun part c hc => (hheld part c hc).failures
      last := fun part c hc => (hheld part c hc).last_notice
      worst := hworst
      attained := hattained
      ready := hanswers.ready_iff
      accepting := hanswers.reason_of_ready
      starting := hanswers.reason_of_starting
      blocked := fun hstarted _ => hanswers.reason_of_blocked hstarted }

/-- A registration ends a row of failures, and a part that is only degraded stops nothing. -/
example :
    let g := ofCalls [(0, .setUnhealthy monitoring "queue closed"), (1, .setReady true),
      (2, .register monitoring), (3, .setDegraded stateMachine "slow")]
    g.readiness = ⟨true, none⟩ ∧ g.summary.status = .degraded := by
  decide

end Registry

end ClusterControl.Health
