import ClusterControl.Proofs.Program.Outcomes

/-!
# What operators' actions leave in the store

An operator's action is passed on to the host of the machine, or it has the machine migrated.  It is
turned down, it is carried out, or it is a migration that fails on the way.

* `Control.Permitted` are the actions that get as far as a host.
* `Control.Ends` are the ways in which an action ends, and what each leaves in the store.
* `Control.achieves_run` says that an action that runs alone ends in one of these ways, and that no
  host hears of one that is not permitted.
-/

namespace ClusterControl

variable {α : Type} [Quantity α]

/-- What a machine asks of a host does not depend on how much of the histories is shown. -/
theorem Host.canTake_trim (h : Host α) (n : Nat) (vm : Vm α) :
    (h.trim n).canTake vm = h.canTake vm := by
  have hrequested : (h.trim n).requested = h.requested := by
    rw [Host.requested, Host.trim, SortedMap.values_mapValues, List.map_map]
    rfl
  rw [Host.canTake, hrequested]
  rfl

omit [Quantity α] in
/-- A plan of one move between two hosts. -/
theorem MigrationPlan.moves_add_empty {source d : HostId} (h : source ≠ d) (vm : VmId) :
    (MigrationPlan.empty.add vm (some source) d).moves = [⟨vm, some source, d⟩] := by
  have hne : ¬some source = some d := fun heq => h (Option.some.inj heq)
  have hnone : (MigrationPlan.empty.migrations.get? vm : Option Migration) = none := rfl
  simp only [MigrationPlan.add, hnone, if_neg hne]
  rfl

namespace Control

/-- The machine is on a host, and a migration of it leads to another host that is known, is not
passive and has room for it. -/
def Permitted (s : Store α) (vm : VmId) (action : VmAction) : Prop :=
  ∃ source w, s.recordOn source vm = some w ∧ ∀ d, action = .migrate d →
    ∃ target, s.hosts.get? d = some target ∧ target.status ≠ .passive ∧ d ≠ source ∧
      target.canTake w = true

omit [Quantity α] in
/-- Where an action that is carried out leaves a machine, and with what record. -/
def effect (source : HostId) (w : Vm α) : VmAction → Option HostId × Option (Vm α)
  | .suspend => (some source, some (w.withStatus .paused none))
  | .resume | .reboot => (some source, some (w.withStatus .running none))
  | .shutdown | .destroy => (none, none)
  | .migrate d => (some d, some ((w.on d).withStatus .running none))

/-- How an action on a machine ends that found the store `s`. -/
inductive Ends (s s' : Store α) (vm : VmId) (action : VmAction) : Except WorkflowError Unit → Prop
  /-- It is carried out. -/
  | done {source : HostId} {w : Vm α} (permitted : Permitted s vm action)
    (recordOn : s.recordOn source vm = some w)
    (effect : s.Relocates s' vm (effect source w action).1 (effect source w action).2) :
    Ends s s' vm action (.ok ())
  /-- It is a migration that fails once it is started. -/
  | failed {source d : HostId} {w : Vm α} (reason : String) (isMigration : action = .migrate d)
    (permitted : Permitted s vm action) (recordOn : s.recordOn source vm = some w)
    (effect :
      s.Relocates s' vm (some source) (some (w.withStatus .error (some .migrationFailed)))) :
    Ends s s' vm action (.error (.control (.rejected d reason)))
  /-- It is turned down, and not by the hosts that carry out a migration. -/
  | refused {e : WorkflowError} (other : ∀ d e', action = .migrate d → e ≠ .control e')
    (same : s' = s) : Ends s s' vm action (.error e)

/-- An action that found the scene `g` has asked hosts for nothing that is not permitted, and has
ended. -/
def Answers (g g' : Scene α) (vm : VmId) (action : VmAction) (r : Except WorkflowError Unit) :
    Prop :=
  (g.calls.length < g'.calls.length → Permitted g.store vm action) ∧
    Ends g.store g'.store vm action r

variable {c : Settings α} {g : Scene α} {vm : VmId}

/-- An action that is refused before a host has heard of it. -/
theorem answers_refused {action : VmAction} {e : WorkflowError} (he : ∀ e', e ≠ .control e') :
    Answers g g vm action (.error e) :=
  ⟨fun h => absurd h (Nat.lt_irrefl _), .refused (fun _ e' _ => he e') rfl⟩

/-- A machine is located on the host that it is recorded on. -/
theorem attains_locate (hs : g.store.Consistent) {Q : Scene α → Vm α × HostId → Prop}
    {E : Scene α → WorkflowError → Prop}
    (hfound : ∀ source w, g.store.recordOn source vm = some w → Q g (w, source))
    (hlost : ∀ e, (∀ e', e ≠ .control e') → E g e) : Program.Attains c (locate vm) g Q E := by
  refine Program.attains_bind.2 (Program.attains_storeOrFail.2 ?_)
  simp only [StoreRequest.apply]
  cases hvm : g.store.vm? vm with
  | none => exact Program.attains_throw.2 (hlost _ fun _ => by simp)
  | some w =>
    cases hhost : w.hostId with
    | none =>
      simp only [hhost]
      exact Program.attains_throw.2 (hlost _ fun _ => by simp)
    | some source =>
      simp only [hhost]
      exact Program.attains_pure.2 (hfound source w (hs.recordOn_of_vm? hvm hhost).2)

/-! ## Actions that are passed on -/

/-- Once the host agreed, the store follows. -/
theorem attains_follow (hs : g.store.Consistent) {source : HostId} {w : Vm α}
    (hw : g.store.recordOn source vm = some w) {action : VmAction}
    (haction : ∀ d, action ≠ .migrate d) {E : Scene α → WorkflowError → Prop} :
    Program.Attains c (follow vm action) g (fun g' _ => g'.busy = g.busy ∧
      g.store.Relocates g'.store vm (effect source w action).1 (effect source w action).2) E := by
  have hstatus : ∀ status : VmStatus,
      Program.Attains c (Program.storeOrFail (.setVmStatus vm status none)) g
        (fun g' _ => g'.busy = g.busy ∧
          g.store.Relocates g'.store vm (some source) (some (w.withStatus status none))) E := by
    intro status
    obtain ⟨u, hset, hmoved⟩ := hs.relocates_setVmStatus hw status none
    refine Program.attains_storeOrFail.2 ?_
    simp only [StoreRequest.apply, hset]
    exact ⟨trivial, hmoved⟩
  have hremoved : ∀ {Q : Scene α → Unit → Prop},
      Q { g with store := (g.store.removeVm vm).2 } () →
        Program.Attains c (do let _ ← Program.storeOrFail (.removeVm vm)) g Q E := fun h =>
    Program.attains_bind.2 (Program.attains_storeOrFail.2 (Program.attains_pure.2 h))
  cases action with
  | suspend => exact hstatus .paused
  | resume | reboot => exact hstatus .running
  | shutdown | destroy => exact hremoved ⟨rfl, hs.removeVm_relocates vm⟩
  | migrate d => exact absurd rfl (haction d)

/-- An action that is passed on to the host of the machine. -/
theorem attains_forward (hs : g.store.Consistent) {action : VmAction}
    (haction : ∀ d, action ≠ .migrate d) :
    Program.Attains c (forward vm action) g
      (fun g' _ => g'.busy = g.busy ∧ Answers g g' vm action (.ok ()))
      fun g' e => g'.busy = g.busy ∧ Answers g g' vm action (.error e) := by
  refine Program.attains_bind.2 (attains_locate hs ?_ fun e he => ⟨rfl, answers_refused he⟩)
  intro source w hw
  have hpermitted : Permitted g.store vm action :=
    ⟨source, w, hw, fun d hd => absurd hd (haction d)⟩
  refine Program.attains_bind.2 (Program.attains_mk.2 (Program.achieves_bind.2
    (Program.achieves_host.2 ?_)))
  rintro (e | _)
  · exact Program.achieves_pure.2
      ⟨rfl, fun _ => hpermitted, .refused (fun d _ hd => absurd hd (haction d)) rfl⟩
  · refine Program.achieves_pure.2 (Program.Attains.mono (attains_follow (g := { g with
      calls := g.calls ++ [.control source vm action] }) hs hw haction) ?_ fun _ _ h => h)
    rintro g' - ⟨hbusy, hmoved⟩
    exact ⟨hbusy, fun _ => hpermitted, .done hpermitted hw hmoved⟩

/-! ## Migrations -/

/-- A machine departs for a destination that accepts it, and its migration is permitted. -/
theorem permitted_of_accepts (hs : g.store.Consistent) {source d : HostId} {w : Vm α}
    {target : Host α} (hw : g.store.recordOn source vm = some w)
    (htarget : g.store.host? d 0 = some target) (haccepts : accepts target source w = true) :
    g.store.Departs ⟨vm, some source, d⟩ source w ∧ Permitted g.store vm (.migrate d) := by
  obtain ⟨h, hget, rfl⟩ := Option.map_eq_some_iff.1 htarget
  simp only [accepts, Bool.and_eq_true, bne_iff_ne, ne_eq] at haccepts
  obtain ⟨⟨hpassive, hother⟩, htake⟩ := haccepts
  have hother : d ≠ source := by
    rw [← hs.host_id hget]
    exact hother
  refine ⟨⟨rfl, hw, by rw [hget]; rfl, hother⟩, source, w, hw, ?_⟩
  rintro _ ⟨⟩
  exact ⟨h, hget, hpassive, hother, by rwa [Host.canTake_trim] at htake⟩

/-- A migration by itself. -/
theorem attains_migrate (hs : g.store.Consistent) (d : HostId) :
    Program.Attains c (migrate vm d) g (fun g' _ => Answers g g' vm (.migrate d) (.ok ()))
      fun g' e => Answers g g' vm (.migrate d) (.error e) := by
  refine Program.attains_bind.2 (attains_locate hs ?_ fun e he => answers_refused he)
  intro source w hw
  refine Program.attains_bind.2 (Program.attains_storeOrFail.2 ?_)
  simp only [StoreRequest.apply]
  cases htarget : g.store.host? d 0 with
  | none => exact Program.attains_throw.2 (answers_refused fun _ => by simp)
  | some target =>
    dsimp only
    split
    · exact Program.attains_bind.2
        (Program.attains_throw.2 (answers_refused fun _ => by simp))
    rename_i haccepts
    rw [Bool.not_eq_true', Bool.not_eq_false] at haccepts
    obtain ⟨hdeparts, hpermitted⟩ := permitted_of_accepts hs hw htarget haccepts
    refine Program.attains_bind.2 (Program.attains_lift.2 (Program.achieves_enforce.2
      ⟨MigrationPlan.built_empty.add vm (some source) d, fun calls report hcovers => ?_⟩))
    -- the report has one result, that of the machine
    rw [EnforcementReport.Covers, MigrationPlan.moves_add_empty hdeparts.elsewhere.symm] at hcovers
    obtain ⟨⟨m, outcome⟩, hresults, rfl⟩ := List.map_eq_singleton_iff.1 hcovers
    have houtcome : report.outcomeOf vm = some outcome := by
      rw [EnforcementReport.outcomeOf, hresults]
      simp
    refine Program.attains_bind.2 (Program.attains_lift.2 ?_)
    rw [Commit.report, hresults, houtcome]
    refine Program.achieves_bind.2 ((Commit.achieves_result (g := { g with calls := calls }) hs
      (r := ⟨⟨vm, some source, d⟩, outcome⟩) hdeparts).mono ?_)
    rintro _ - ⟨u, rfl, hmoved⟩
    refine Program.achieves_pure.2 ?_
    cases outcome with
    | failed reason =>
      have hhost : w.hostId = some source := (hs.on_host hw).2
      have hmarked : g.store.Relocates u vm (some source)
          (some (w.withStatus .error (some .migrationFailed))) := by
        rw [← hhost]
        exact hmoved
      exact Program.attains_throw.2
        ⟨fun _ => hpermitted, .failed reason rfl hpermitted hw hmarked⟩
    | migrated | forcedSuspend =>
      exact Program.attains_pure.2 ⟨fun _ => hpermitted, .done hpermitted hw hmoved⟩

/-! ## Every action -/

/-- An action that finds the gate open ends in one of these ways and leaves the gate open. -/
theorem achieves_run (hs : g.store.Consistent) (hbusy : g.busy = false) (vm : VmId)
    (action : VmAction) : (run vm action).Achieves c g fun g' r =>
      g'.busy = false ∧ Answers g g' vm action r := by
  by_cases hmigrate : ∃ d, action = .migrate d
  · obtain ⟨d, rfl⟩ := hmigrate
    refine Program.achieves_gated.2 ?_
    rw [hbusy, if_neg (by simp)]
    exact Program.Attains.mono (attains_migrate (g := { g with busy := true }) hs d)
      (fun _ _ h => ⟨rfl, h⟩) fun _ _ h => ⟨rfl, h⟩
  · have haction : ∀ d, action ≠ .migrate d := fun d hd => hmigrate ⟨d, hd⟩
    have hrun : run vm action = (forward vm action : ExceptT _ (Program α) _).run := by
      cases action with
      | migrate d => exact absurd rfl (haction d)
      | _ => rfl
    rw [hrun]
    refine Program.Achieves.mono (attains_forward hs haction) ?_
    rintro g' (e | _) ⟨hsame, hanswers⟩
    · exact ⟨hsame.trans hbusy, hanswers⟩
    · exact ⟨hsame.trans hbusy, hanswers⟩

end Control

end ClusterControl
