import ClusterControl.Proofs.Planning.Assignments
import Mathlib.Data.Nat.ModEq

/-!
# Hosts in rotation

Round robin looks at the hosts in cyclic order from a position, and goes on after the host that it
found.  The position that a batch ends with is stored for the batch after it, which may be offered
other hosts.

* `Placement.turn_step` is one machine's turn: it goes to the first host with room, or to none.
* `Placement.AheadOf.goesTo_or` is the step behind fairness.  A host that is met before another one
  stays so until a machine goes to it, or passes it by for want of room.
* `Placement.takes_turns` says what round robin does with every batch of a sequence.
-/

namespace ClusterControl

namespace Placement

variable {α : Type}

/-! ## One turn -/

/-- Index of the host at an offset from the position, in cyclic order. -/
def Progress.around (s : Progress α) (offset : Nat) : Nat :=
  (s.position + offset) % s.hosts.length

/-- Indices at offsets from the position repeat with the number of hosts, and no sooner. -/
theorem Progress.around_inj {s : Progress α} {m n : Nat} (hm : m < s.hosts.length)
    (hn : n < s.hosts.length) (h : s.around m = s.around n) : m = n := by
  have hcongr : s.position + m ≡ s.position + n [MOD s.hosts.length] := h
  exact (Nat.ModEq.add_left_cancel' _ hcongr).eq_of_lt_of_lt hm hn

theorem Progress.exists_around (s : Progress α) {i : Nat} (hi : i < s.hosts.length) :
    ∃ offset < s.hosts.length, s.around offset = i := by
  have hcycle : i ∈ cycleFrom s.position s.hosts.length := mem_cycleFrom hi
  obtain ⟨offset, hoffset, h⟩ := List.mem_map.1 hcycle
  exact ⟨offset, List.mem_range.1 hoffset, h⟩

variable [Quantity α]

/-- The first host with room for a machine, in cyclic order from the position. -/
structure Finds (s : Progress α) (vm : Vm α) (offset : Nat) (k : Host α) : Prop where
  inside : offset < s.hosts.length
  host : s.hosts[s.around offset]? = some k
  room : k.canTake vm = true
  full : ∀ earlier < offset, ∀ h, s.hosts[s.around earlier]? = some h → h.canTake vm = false

/-- The host that is found is the first one with room. -/
theorem exists_finds {s : Progress α} {vm : Vm α} {i : Nat}
    (hi : choose .roundRobin s vm = some i) :
    ∃ offset k, Finds s vm offset k ∧ s.around offset = i := by
  obtain ⟨k, hk, hroom, -⟩ := step_of_choose_eq_some hi
  rw [choose, nextFitting, cycleFrom, List.find?_map] at hi
  obtain ⟨offset, hfirst, rfl⟩ := Option.map_eq_some_iff.1 hi
  obtain ⟨-, hinside, hbefore⟩ := List.find?_range_eq_some.1 hfirst
  refine ⟨offset, k, ⟨List.mem_range.1 hinside, hk, hroom, fun earlier hearlier h hh => ?_⟩, rfl⟩
  have hnot := hbefore earlier hearlier
  rw [Function.comp_apply, show s.hosts[(s.position + earlier) % s.hosts.length]? = some h from hh]
    at hnot
  simpa using hnot

/-- No host with room comes before the first one. -/
theorem Finds.offset_le {s : Progress α} {vm : Vm α} {m n : Nat} {h k : Host α}
    (hm : Finds s vm m h) (hn : Finds s vm n k) : m ≤ n := by
  by_contra hlt
  have hroom := hn.room
  rw [hm.full n (not_le.1 hlt) k hn.host] at hroom
  exact absurd hroom (by simp)

/-- What one machine's turn comes to.  It goes to the first host with room, and the position is then
the one after that; or it fits nowhere, and the position stays. -/
inductive Turn (s : Progress α) (vm : Vm α) (s' : Progress α) : Prop
  | goes (offset : Nat) (k : Host α) (hfinds : Finds s vm offset k)
      (hafter : s' = ⟨s.plan.assign vm k.id, s.hosts.set (s.around offset) (k.assign vm),
        (s.around offset + 1) % s.hosts.length⟩)
  | stays (hfull : ∀ h ∈ s.hosts, h.canTake vm = false)
      (hafter : s' = { s with plan := s.plan.leave vm })

theorem turn_step (s : Progress α) (vm : Vm α) : Turn s vm (step .roundRobin s vm) := by
  cases hchoice : choose .roundRobin s vm with
  | some i =>
    obtain ⟨k, hk, -, hstep⟩ := step_of_choose_eq_some hchoice
    obtain ⟨offset, k', hfinds, rfl⟩ := exists_finds hchoice
    obtain rfl := Option.some.inj (hk.symm.trans hfinds.host)
    exact .goes offset k hfinds hstep
  | none =>
    obtain ⟨hfull, hstep⟩ := step_of_choose_eq_none hchoice
    exact .stays hfull hstep

/-- The machine goes to the host at an index. -/
def GoesTo (s : Progress α) (vm : Vm α) (i : Nat) : Prop :=
  ∃ offset k, Finds s vm offset k ∧ s.around offset = i

/-- The machine goes past the host at an index, which has no room for it. -/
def Skips (s : Progress α) (vm : Vm α) (j : Nat) : Prop :=
  (∀ h, s.hosts[j]? = some h → h.canTake vm = false) ∧
    ∃ offset k earlier, Finds s vm offset k ∧ earlier < offset ∧ s.around earlier = j

theorem Finds.skips {s : Progress α} {vm : Vm α} {offset earlier : Nat} {k : Host α}
    (h : Finds s vm offset k) (hearlier : earlier < offset) : Skips s vm (s.around earlier) :=
  ⟨h.full earlier hearlier, offset, k, earlier, h, hearlier, rfl⟩

/-! ## Fairness -/

omit [Quantity α] in
/-- From the position, the host at `j` is met before the one at `i`. -/
def AheadOf (s : Progress α) (j i : Nat) : Prop :=
  ∃ m n, m < n ∧ n < s.hosts.length ∧ s.around m = j ∧ s.around n = i

omit [Quantity α] in
/-- After a host has had its turn, the cyclic order starts with the next one. -/
theorem around_after {s : Progress α} (plan : PlacementPlan α) {hosts : List (Host α)}
    (hlen : hosts.length = s.hosts.length) (offset n : Nat) :
    Progress.around ⟨plan, hosts, (s.around offset + 1) % s.hosts.length⟩ n =
      s.around (offset + 1 + n) := by
  rw [Progress.around, Progress.around, Progress.around, hlen, Nat.mod_add_mod, Nat.add_assoc,
    Nat.mod_add_mod]
  congr 1
  omega

/-- Once a machine went to a host, every other host is met before it. -/
theorem Turn.aheadOf {s s' : Progress α} {vm : Vm α} {i j : Nat} (hturn : Turn s vm s')
    (hgoes : GoesTo s vm i) (hj : j < s.hosts.length) (hne : j ≠ i) : AheadOf s' j i := by
  obtain ⟨offset, k, hfinds, rfl⟩ := hgoes
  cases hturn with
  | stays hfull _ =>
    have hroom := hfinds.room
    rw [hfull k (List.mem_of_getElem? hfinds.host)] at hroom
    exact absurd hroom (by simp)
  | goes offset' k' hfinds' hafter =>
    obtain rfl := (hfinds.offset_le hfinds').antisymm (hfinds'.offset_le hfinds)
    have hlen : (s.hosts.set (s.around offset) (k'.assign vm)).length = s.hosts.length :=
      List.length_set
    have hlast : s'.around (s.hosts.length - 1) = s.around offset := by
      have hinside := hfinds.inside
      rw [hafter, around_after _ hlen, Nat.add_assoc, Nat.add_sub_cancel' (by omega)]
      rw [Progress.around, ← Nat.add_assoc, Nat.add_mod_right, Progress.around]
    have hcount : s'.hosts.length = s.hosts.length := by rw [hafter, hlen]
    obtain ⟨m, hm, rfl⟩ := s'.exists_around (hcount.symm ▸ hj)
    refine ⟨m, s.hosts.length - 1, ?_, by omega, rfl, hlast⟩
    have hother : m ≠ s.hosts.length - 1 := fun heq => hne (by rw [heq, hlast])
    omega

/-- A host that is met before another one is so after a machine's turn, unless the machine goes to
it or past it. -/
theorem AheadOf.goesTo_or {s s' : Progress α} {vm : Vm α} {i j : Nat} (hahead : AheadOf s j i)
    (hturn : Turn s vm s') : GoesTo s vm j ∨ Skips s vm j ∨ AheadOf s' j i := by
  obtain ⟨m, n, hmn, hn, rfl, rfl⟩ := hahead
  cases hturn with
  | stays _ hafter =>
    rw [hafter]
    exact .inr (.inr ⟨m, n, hmn, hn, rfl, rfl⟩)
  | goes offset k hfinds hafter =>
    rcases Nat.lt_trichotomy offset m with hlt | rfl | hgt
    · rw [hafter]
      have hlen : (s.hosts.set (s.around offset) (k.assign vm)).length = s.hosts.length :=
        List.length_set
      refine .inr (.inr ⟨m - (offset + 1), n - (offset + 1), by omega, ?_, ?_, ?_⟩)
      · rw [hlen]
        omega
      · rw [around_after _ hlen]
        congr 1
        omega
      · rw [around_after _ hlen]
        congr 1
        omega
    · exact .inl ⟨offset, k, hfinds, rfl⟩
    · exact .inr (.inl (hfinds.skips hgt))

/-- A machine that goes to a host goes past those that are met before it. -/
theorem AheadOf.skips {s : Progress α} {vm : Vm α} {i j : Nat} (hahead : AheadOf s j i)
    (hgoes : GoesTo s vm i) : Skips s vm j := by
  obtain ⟨m, n, hmn, hn, rfl, rfl⟩ := hahead
  obtain ⟨offset, k, hfinds, hoffset⟩ := hgoes
  obtain rfl := Progress.around_inj hfinds.inside hn hoffset
  exact hfinds.skips hmn

/-! ## A sequence of batches -/

/-- The position that is stored after a sequence of batches, each with the hosts it was offered. -/
def cursorAfter (batches : List (List (Vm α) × List (Host α))) : Nat :=
  batches.foldl (fun cursor b => (place .roundRobin cursor b.1 b.2).position) 0

/-- How round robin treats a batch, given the cursor that it finds and the one that it stores. -/
structure TakesTurns (cursor : Nat) (vms : List (Vm α)) (hosts : List (Host α)) (cursor' : Nat) :
    Prop where
  /-- Without hosts nothing is assigned, and the cursor stays. -/
  idle : hosts = [] →
    place .roundRobin cursor vms hosts = ⟨⟨[], vms⟩, [], cursor⟩ ∧ cursor' = cursor
  /-- The first machine's search starts at the cursor. -/
  start : hosts ≠ [] →
    moment .roundRobin cursor vms hosts 0 = ⟨.empty, hosts, cursor % hosts.length⟩
  /-- Every machine has its turn. -/
  turn : ∀ t vm, vms[t]? = some vm →
    Turn (moment .roundRobin cursor vms hosts t) vm (moment .roundRobin cursor vms hosts (t + 1))
  /-- After the last turn the batch is done, and the position is stored. -/
  stored : moment .roundRobin cursor vms hosts vms.length = place .roundRobin cursor vms hosts ∧
    cursor' = (place .roundRobin cursor vms hosts).position
  /-- No position and no index is beyond the hosts. -/
  inside : hosts ≠ [] → ∀ t,
    (moment .roundRobin cursor vms hosts t).hosts.length = hosts.length ∧
      (moment .roundRobin cursor vms hosts t).position < hosts.length ∧
      ∀ offset, (moment .roundRobin cursor vms hosts t).around offset < hosts.length
  /-- Between two machines that go to one host, every other host is gone to or gone past. -/
  fair : ∀ {a b v w i j}, a < b → vms[a]? = some v → vms[b]? = some w →
    GoesTo (moment .roundRobin cursor vms hosts a) v i →
    GoesTo (moment .roundRobin cursor vms hosts b) w i → j < hosts.length → j ≠ i →
      (∃ t u, a < t ∧ t < b ∧ vms[t]? = some u ∧
        GoesTo (moment .roundRobin cursor vms hosts t) u j) ∨
      ∃ t u, a < t ∧ t ≤ b ∧ vms[t]? = some u ∧
        Skips (moment .roundRobin cursor vms hosts t) u j

section

variable (cursor : Nat) (vms : List (Vm α)) (hosts : List (Host α))

theorem length_place : (place .roundRobin cursor vms hosts).hosts.length = hosts.length := by
  obtain ⟨choices, -, -, hfills⟩ := exists_choices .roundRobin cursor vms hosts
  exact hfills.length_eq

variable {hosts} in
/-- The position is that of a host, whatever the cursor was. -/
theorem position_lt (hsome : 0 < hosts.length) :
    (place .roundRobin cursor vms hosts).position < hosts.length := by
  induction vms using List.reverseRecOn with
  | nil =>
    rw [place_eq_foldl]
    exact Nat.mod_lt _ hsome
  | append_singleton earlier vm ih =>
    have hlen := length_place cursor earlier hosts
    rw [place_append, List.foldl_cons, List.foldl_nil]
    cases turn_step (place .roundRobin cursor earlier hosts) vm with
    | goes offset k _ hafter =>
      rw [hafter, hlen]
      exact Nat.mod_lt _ hsome
    | stays _ hafter =>
      rw [hafter]
      exact ih

variable {cursor vms hosts}

/-- Every machine of a batch has its turn. -/
theorem turn_moment {t : Nat} {vm : Vm α} (hvm : vms[t]? = some vm) :
    Turn (moment .roundRobin cursor vms hosts t) vm
      (moment .roundRobin cursor vms hosts (t + 1)) := by
  rw [moment_succ _ _ _ _ hvm]
  exact turn_step _ vm

/-- After a machine went to a host, every other host is met before that one, until a machine goes
to it or past it. -/
theorem aheadOf_moment {a b i j : Nat} {v : Vm α} (hv : vms[a]? = some v)
    (hgoes : GoesTo (moment .roundRobin cursor vms hosts a) v i) (hj : j < hosts.length)
    (hne : j ≠ i) (hab : a < b) (hb : b ≤ vms.length) :
    (∃ t u, a < t ∧ t < b ∧ vms[t]? = some u ∧
        (GoesTo (moment .roundRobin cursor vms hosts t) u j ∨
          Skips (moment .roundRobin cursor vms hosts t) u j)) ∨
      AheadOf (moment .roundRobin cursor vms hosts b) j i := by
  induction b, hab using Nat.le_induction with
  | base =>
    have hlen : (moment .roundRobin cursor vms hosts a).hosts.length = hosts.length :=
      length_place _ _ _
    exact .inr ((turn_moment hv).aheadOf hgoes (hlen.symm ▸ hj) hne)
  | succ b hab ih =>
    have hget := List.getElem?_eq_getElem (show b < vms.length from hb)
    rcases ih (by omega) with ⟨t, u, hat, htb, hu, hmet⟩ | hahead
    · exact .inl ⟨t, u, hat, by omega, hu, hmet⟩
    · rcases hahead.goesTo_or (turn_moment hget) with hmet | hmet | hahead'
      · exact .inl ⟨b, _, hab, by omega, hget, .inl hmet⟩
      · exact .inl ⟨b, _, hab, by omega, hget, .inr hmet⟩
      · exact .inr hahead'

end

/-- Round robin takes turns with every batch of a sequence, whichever hosts it is offered. -/
theorem takes_turns (batches : List (List (Vm α) × List (Host α))) (vms : List (Vm α))
    (hosts : List (Host α)) :
    TakesTurns (cursorAfter batches) vms hosts (cursorAfter (batches ++ [(vms, hosts)])) := by
  have hstored : cursorAfter (batches ++ [(vms, hosts)]) =
      (place .roundRobin (cursorAfter batches) vms hosts).position := by
    rw [cursorAfter, List.foldl_append]
    rfl
  rw [hstored]
  refine ⟨fun hnone => ?_, fun hsome => ?_, fun t vm hvm => turn_moment hvm, ?_, fun hsome t => ?_,
    fun {a b v w i j} hab hv hw hi hi' hj hne => ?_⟩
  · subst hnone
    exact ⟨rfl, rfl⟩
  · rw [moment, List.take_zero, place_eq_foldl]
    rfl
  · exact ⟨moment_length .roundRobin (cursorAfter batches) vms hosts, rfl⟩
  · have hpos := List.length_pos_iff.2 hsome
    have hlen : (moment .roundRobin (cursorAfter batches) vms hosts t).hosts.length =
        hosts.length := length_place _ _ _
    refine ⟨hlen, position_lt _ _ hpos, fun offset => ?_⟩
    rw [Progress.around, hlen]
    exact Nat.mod_lt _ hpos
  · have hb := (List.getElem?_eq_some_iff.1 hw).1
    rcases aheadOf_moment hv hi hj hne hab hb.le with ⟨t, u, hat, htb, hu, hmet | hmet⟩ | hahead
    · exact .inl ⟨t, u, hat, htb, hu, hmet⟩
    · exact .inr ⟨t, u, hat, htb.le, hu, hmet⟩
    · exact .inr ⟨b, w, hab, le_rfl, hw, hahead.skips hi'⟩

/-- The second machine goes to the first host; a batch without hosts leaves the cursor there. -/
theorem takes_turns_offered :
    cursorAfter [(arriving, offered)] = 1 ∧ cursorAfter [(arriving, offered), (arriving, [])] = 1 ∧
      TakesTurns (cursorAfter [(arriving, offered), (arriving, [])]) arriving offered
        (cursorAfter ([(arriving, offered), (arriving, [])] ++ [(arriving, offered)])) :=
  ⟨by decide +kernel, by decide +kernel, takes_turns _ arriving offered⟩

end Placement

end ClusterControl
