import ClusterControl.Proofs.Planning.Evacuation

/-!
# Net effects

A planner moves machines one after another and records every move with the place where the machine
is at that moment.  The plan it ends with holds the net effect of these moves: how often a machine
moved, and where it has been in between, does not show.

* `NetEntry` says what a plan holds for one machine; `MigrationPlan.entry_add` is what one more move
  makes of it, and `Travels.net_move` and `Travels.net_run` what the moves of a whole run do.
* `MigrationPlan.carriedOut_apply` says where a plan takes a machine.
* `MigrationPlan.net_effect` is the account of a plan after any moves.
-/

namespace ClusterControl

/-- Where every machine is: on a host, or nowhere. -/
abbrev Locations := VmId → Option HostId

/-- A machine, and the host it moves to. -/
abbrev Transfer := VmId × HostId

namespace Locations

/-- One machine has moved. -/
def move (places : Locations) (m : Transfer) : Locations := Function.update places m.1 (some m.2)

/-- The moves are made one by one. -/
def run (places : Locations) (moves : List Transfer) : Locations := moves.foldl move places

theorem move_self (places : Locations) (m : Transfer) : places.move m m.1 = some m.2 :=
  Function.update_self ..

theorem move_of_ne (places : Locations) {m : Transfer} {v : VmId} (h : v ≠ m.1) :
    places.move m v = places v :=
  Function.update_of_ne h ..

/-- A machine that does not move stays where it is. -/
theorem run_of_notMem {v : VmId} {moves : List Transfer} (hv : v ∉ moves.map Prod.fst) :
    ∀ places : Locations, places.run moves v = places v := by
  induction moves with
  | nil =>
    intro places
    rfl
  | cons m rest ih =>
    intro places
    rw [List.map_cons, List.mem_cons, not_or] at hv
    calc places.run (m :: rest) v = (places.move m).run rest v := rfl
      _ = places.move m v := ih hv.2 _
      _ = places v := places.move_of_ne hv.1

/-- A machine that only moves to one host ends there. -/
theorem run_of_mem {v : VmId} {d : HostId} {moves : List Transfer} (hv : v ∈ moves.map Prod.fst)
    (hd : ∀ m ∈ moves, m.1 = v → m.2 = d) : ∀ places : Locations, places.run moves v = some d := by
  induction moves with
  | nil => exact absurd hv List.not_mem_nil
  | cons m rest ih =>
    intro places
    have hrest : ∀ m' ∈ rest, m'.1 = v → m'.2 = d :=
      fun m' hm' => hd m' (List.mem_cons_of_mem m hm')
    by_cases hlater : v ∈ rest.map Prod.fst
    · exact ih hlater hrest (places.move m)
    · -- this is the machine's last move
      have hm : v = m.1 := by
        rw [List.map_cons, List.mem_cons] at hv
        exact hv.resolve_right hlater
      calc places.run (m :: rest) v = (places.move m).run rest v := rfl
        _ = places.move m v := run_of_notMem hlater _
        _ = some m.2 := by rw [hm, places.move_self]
        _ = some d := congrArg some (hd m List.mem_cons_self hm.symm)

end Locations

/-! ## What a plan holds for a machine -/

/-- What a plan holds for a machine that started at one place and is at another: nothing if it is
at home, and else one migration from where it started to where it is. -/
inductive NetEntry (v : VmId) (start : Option HostId) : Option HostId → Option Migration → Prop
  | home : NetEntry v start start none
  | away (d : HostId) (h : some d ≠ start) : NetEntry v start (some d) (some ⟨v, start, d⟩)

namespace NetEntry

variable {v : VmId} {start place : Option HostId} {entry : Option Migration} {m : Migration}

theorem isSome_iff (h : NetEntry v start place entry) : (∃ m, entry = some m) ↔ place ≠ start := by
  cases h with
  | home => simp
  | away d hd => simp [hd]

/-- A migration that the plan holds leads from the machine's first place to its last one. -/
theorem eq_of_some (h : NetEntry v start place (some m)) :
    m.vm = v ∧ m.source = start ∧ place = some m.destination := by
  cases h with
  | away d hd => exact ⟨rfl, rfl, rfl⟩

theorem eq_home (h : NetEntry v start place none) : place = start := by
  cases h with
  | home => rfl

end NetEntry

namespace MigrationPlan

theorem get?_add_home {p : MigrationPlan} {vm : VmId} {source : Option HostId} {d : HostId}
    (h : p.startOf vm source = some d) : (p.add vm source d).migrations.get? vm = none := by
  have hadd : (p.add vm source d).migrations = p.migrations.erase vm :=
    congrArg MigrationPlan.migrations (if_pos h)
  rw [hadd, SortedMap.get?_erase, if_pos rfl]

/-- A machine whose move is recorded with the place where it is has started where it started: the
plan inherits the first place, also when that is nowhere, and a machine that is not in the plan is
at its first place. -/
theorem startOf_of_entry {p : MigrationPlan} {v : VmId} {start place : Option HostId}
    (h : NetEntry v start place (p.migrations.get? v)) : p.startOf v place = start := by
  rw [startOf]
  cases hentry : p.migrations.get? v with
  | none =>
    rw [hentry] at h
    exact h.eq_home
  | some m =>
    rw [hentry] at h
    exact h.eq_of_some.2.1

/-- One more move of a machine, recorded with the place where it is. -/
theorem entry_add {p : MigrationPlan} {v : VmId} {start place : Option HostId}
    (h : NetEntry v start place (p.migrations.get? v)) (d : HostId) :
    NetEntry v start (some d) ((p.add v place d).migrations.get? v) := by
  have hstart := startOf_of_entry h
  by_cases hd : some d = start
  · rw [get?_add_home (hstart.trans hd.symm), hd]
    exact .home
  · rw [get?_add_self (by rw [hstart]; exact Ne.symm hd), hstart]
    exact .away d hd

/-! ## Carrying out a plan -/

/-- Where the machines are when the plan has been carried out. -/
def carriedOut (p : MigrationPlan) (places : Locations) : Locations :=
  places.run (p.moves.map fun m => (m.vm, m.destination))

/-- A plan that files every migration under its machine takes the machine to the destination of its
migration, and leaves the others. -/
theorem carriedOut_apply {p : MigrationPlan} (hvm : ∀ v m, p.migrations.get? v = some m → m.vm = v)
    (places : Locations) (v : VmId) :
    p.carriedOut places v = match p.migrations.get? v with
      | some m => some m.destination
      | none => places v := by
  have hfiled : ∀ m ∈ p.moves, p.migrations.get? m.vm = some m := by
    intro m hm
    obtain ⟨k, hk⟩ := SortedMap.mem_values_iff.1 hm
    rw [hvm k m hk, hk]
  cases hentry : p.migrations.get? v with
  | none =>
    refine Locations.run_of_notMem ?_ places
    intro hmem
    rw [List.map_map] at hmem
    obtain ⟨m, hm, rfl⟩ := List.mem_map.1 hmem
    exact absurd ((hfiled m hm).symm.trans hentry) (by simp)
  | some m =>
    have hm : m ∈ p.moves := SortedMap.mem_values_iff.2 ⟨v, hentry⟩
    refine Locations.run_of_mem ?_ ?_ places
    · rw [List.map_map]
      exact List.mem_map.2 ⟨m, hm, hvm v m hentry⟩
    · intro move hmove hv
      obtain ⟨m', hm', rfl⟩ := List.mem_map.1 hmove
      have hsame : some m' = some m := by rw [← hfiled m' hm', ← hentry, ← hv]
      rw [Option.some.inj hsame]

end MigrationPlan

/-! ## Moves and their record -/

/-- Machines that are moved one by one, and the plan in which it is recorded. -/
structure Travels where
  plan : MigrationPlan
  places : Locations

namespace Travels

/-- Nothing has moved yet. -/
def start (first : Locations) : Travels := ⟨.empty, first⟩

/-- A machine moves, and the plan records the move with the place where the machine was. -/
def move (t : Travels) (m : Transfer) : Travels :=
  ⟨t.plan.add m.1 (t.places m.1) m.2, t.places.move m⟩

def run (t : Travels) (moves : List Transfer) : Travels := moves.foldl move t

/-- The plan holds the net effect of the moves so far, for every machine. -/
def Net (first : Locations) (t : Travels) : Prop :=
  ∀ v, NetEntry v (first v) (t.places v) (t.plan.migrations.get? v)

variable {first : Locations} {t : Travels}

theorem places_run (moves : List Transfer) : (t.run moves).places = t.places.run moves := by
  induction moves generalizing t with
  | nil => rfl
  | cons m rest ih => exact ih

theorem net_start (first : Locations) : Net first (start first) := by
  intro v
  exact .home

/-- A move keeps the plan the net effect. -/
theorem net_move (h : t.Net first) (m : Transfer) : (t.move m).Net first := by
  intro v
  by_cases hv : v = m.1
  · subst hv
    rw [show (t.move m).places m.1 = some m.2 from t.places.move_self m]
    exact MigrationPlan.entry_add (h m.1) m.2
  · rw [show (t.move m).places v = t.places v from t.places.move_of_ne hv,
      show (t.move m).plan.migrations.get? v = t.plan.migrations.get? v from
        t.plan.get?_add_of_ne _ _ hv]
    exact h v

/-- So do any moves. -/
theorem net_run (h : t.Net first) (moves : List Transfer) : (t.run moves).Net first := by
  induction moves generalizing t with
  | nil => exact h
  | cons m rest ih => exact ih (net_move h m)

end Travels

/-- The plan of the moves, made one by one from where the machines are first. -/
def MigrationPlan.ofTransfers (first : Locations) (moves : List Transfer) : MigrationPlan :=
  ((Travels.start first).run moves).plan

namespace MigrationPlan

theorem entry_ofTransfers (first : Locations) (moves : List Transfer) (v : VmId) :
    NetEntry v (first v) (first.run moves v) ((ofTransfers first moves).migrations.get? v) := by
  have hnet := Travels.net_run (Travels.net_start first) moves v
  rwa [Travels.places_run] at hnet

/-- The plan of any moves is their net effect.  It holds a migration for the machines that have
moved and are not at home at the end, from their first place to their last one; its destinations
are these last places, each once; and carried out at once, it takes every machine where the moves
have taken it one by one. -/
theorem net_effect (first : Locations) (moves : List Transfer) :
    (∀ v, (∃ m, (ofTransfers first moves).migrations.get? v = some m) ↔
      v ∈ moves.map Prod.fst ∧ first.run moves v ≠ first v) ∧
    (∀ v m, (ofTransfers first moves).migrations.get? v = some m →
      m.vm = v ∧ m.source = first v ∧ some m.destination = first.run moves v) ∧
    (∀ d, d ∈ (ofTransfers first moves).destinations ↔
      ∃ v ∈ moves.map Prod.fst, first.run moves v ≠ first v ∧ first.run moves v = some d) ∧
    (ofTransfers first moves).destinations.Nodup ∧
    (ofTransfers first moves).carriedOut first = first.run moves := by
  have hentry := entry_ofTransfers first moves
  have hmoved : ∀ {v}, first.run moves v ≠ first v → v ∈ moves.map Prod.fst := by
    intro v hne
    by_contra hv
    exact hne (Locations.run_of_notMem hv first)
  have hmigration : ∀ v m, (ofTransfers first moves).migrations.get? v = some m →
      m.vm = v ∧ m.source = first v ∧ first.run moves v = some m.destination := by
    intro v m hm
    exact (hm ▸ hentry v).eq_of_some
  have hheld : ∀ v, (∃ m, (ofTransfers first moves).migrations.get? v = some m) ↔
      first.run moves v ≠ first v := fun v => (hentry v).isSome_iff
  refine ⟨?_, ?_, ?_, SortedMap.nodup_keys _, ?_⟩
  · intro v
    rw [hheld v]
    exact ⟨fun hne => ⟨hmoved hne, hne⟩, And.right⟩
  · intro v m hm
    obtain ⟨hvm, hsource, hplace⟩ := hmigration v m hm
    exact ⟨hvm, hsource, hplace.symm⟩
  · intro d
    rw [mem_destinations_iff]
    constructor
    · rintro ⟨m, hm, rfl⟩
      obtain ⟨v, hv⟩ := SortedMap.mem_values_iff.1 hm
      have hne := (hheld v).1 ⟨m, hv⟩
      exact ⟨v, hmoved hne, hne, (hmigration v m hv).2.2⟩
    · rintro ⟨v, -, hne, hd⟩
      obtain ⟨m, hm⟩ := (hheld v).2 hne
      obtain ⟨-, -, hplace⟩ := hmigration v m hm
      rw [hd] at hplace
      exact ⟨m, SortedMap.mem_values_iff.2 ⟨v, hm⟩, (Option.some.inj hplace).symm⟩
  · funext v
    rw [carriedOut_apply fun v m hm => (hmigration v m hm).1]
    cases hm : (ofTransfers first moves).migrations.get? v with
    | none => exact (hm ▸ hentry v).eq_home.symm
    | some m => exact (hmigration v m hm).2.2.symm

/-- A machine that comes home leaves the plan, and is back in it when it leaves home again. -/
example : (ofTransfers (fun _ => some "a") [("vm", "b"), ("vm", "a"), ("vm", "c")]).moves =
    [⟨"vm", some "a", "c"⟩] := by
  cbv

end MigrationPlan

end ClusterControl
