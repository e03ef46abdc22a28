import ClusterControl.Proofs.Controller.Chronicle
import ClusterControl.Proofs.Controller.Outcomes
import ClusterControl.Proofs.Program.Reserve

/-!
# The reserve is kept

While no other operation runs, powering down idle hosts leaves a reserve alone: the idle hosts with
the lowest ids.

* `Power.Spares` is what powering down all idle hosts but a reserve leaves behind.
* `Controller.reserve_spared` says that this is what comes of it on every store that can come about,
  whatever the hosts answer, and that it comes to its end.
-/

namespace ClusterControl

variable {α : Type} {s s' : Store α}

namespace PowerDown

/-- Who is asked to power down is on the log, and nobody else. -/
theorem mem_exchanges {l : List PowerDown} {action a : PowerAction} {id : HostId} :
    Exchange.asked (.powerDown id a) ∈ l.flatMap (exchanges action) ↔
      id ∈ l.map host ∧ a = action := by
  simp only [List.mem_flatMap, exchanges, List.mem_map]
  constructor
  · rintro ⟨d, hd, hmem⟩
    obtain ⟨rfl, rfl⟩ : id = d.host ∧ a = action := by simpa using hmem
    exact ⟨⟨d, hd, rfl⟩, rfl⟩
  · rintro ⟨⟨d, hd, rfl⟩, rfl⟩
    exact ⟨d, hd, by simp⟩

end PowerDown

namespace Power

/-- Powering down all idle hosts but the first `reserved` found the store `s` and left the store
`s'`; the log is what passed between the controller and the hosts, and `down` are the hosts that are
reported. -/
structure Spares (s : Store α) (reserved : Nat) (action : PowerAction) (s' : Store α)
    (log : List Exchange) (down : List HostId) : Prop where
  /-- Each idle host beyond the reserve was asked once, and nothing else was asked of anybody; those
  that powered down are reported. -/
  asked : ∃ l : List PowerDown, l.map PowerDown.host = s.idle.drop reserved ∧
    log = l.flatMap (PowerDown.exchanges action) ∧ down = PowerDown.down l
  increasing : down.Pairwise (· < ·)
  /-- Every host that was asked was active and had no machine. -/
  idle : ∀ id a, .asked (.powerDown id a) ∈ log → s.status? id = some .active ∧ s.Empties id
  /-- The reserve are the idle hosts with the lowest ids, and none of them was asked. -/
  reserve : ∀ id ∈ s.idle.take reserved, (∀ k ∈ s.idle.drop reserved, id < k) ∧
    ∀ a, .asked (.powerDown id a) ∉ log
  passive : ∀ id ∈ down, s'.status? id = some .passive
  /-- The other idle hosts are active, also those that failed to power down. -/
  active : ∀ id ∈ s.idle, id ∉ down → s'.status? id = some .active
  /-- All other hosts are as they were, and those that powered down are but for their power. -/
  hosts : ∀ id, s'.hosts.get? id =
    if id ∈ down then (s.hosts.get? id).map (Host.withStatus · .passive) else s.hosts.get? id
  machines : ∀ v, s.SameOf s' v
  kept : min reserved s.idle.length ≤ s'.idle.length

/-- What was asked, and which hosts were switched, settles the rest. -/
theorem Spares.of_switches (hs : s.Keyed) {reserved : Nat} {action : PowerAction}
    {l : List PowerDown} (hasked : l.map PowerDown.host = s.idle.drop reserved)
    (h : s.Switches .active .passive s' (PowerDown.down l)) :
    Spares s reserved action s' (l.flatMap (PowerDown.exchanges action)) (PowerDown.down l) := by
  have hdown : (PowerDown.down l).Sublist (s.idle.drop reserved) := by
    rw [← hasked]
    exact PowerDown.sublist_down l
  have hsorted := Store.sorted_idle hs
  have hlowest : ∀ id ∈ s.idle.take reserved, ∀ k ∈ s.idle.drop reserved, id < k := by
    have happend := hsorted
    rw [← List.take_append_drop reserved s.idle, List.pairwise_append] at happend
    exact happend.2.2
  have hapart : ∀ id ∈ s.idle.take reserved, id ∉ s.idle.drop reserved :=
    fun id hid hmem => String.lt_irrefl id (hlowest id hid id hmem)
  have hactive : ∀ id ∈ s.idle, id ∉ PowerDown.down l → s'.status? id = some .active := by
    intro id hid hnot
    rw [h.status, if_neg hnot]
    exact ((Store.mem_idle hs).1 hid).1
  refine ⟨⟨l, hasked, rfl, rfl⟩, hsorted.sublist (hdown.trans (List.drop_sublist ..)),
    fun id a hmem => ?_, fun id hid => ⟨hlowest id hid, fun a hmem => ?_⟩, fun id hid => ?_, hactive,
    h.hosts, h.sameOf, ?_⟩
  · have hdrop : id ∈ s.idle.drop reserved := hasked ▸ (PowerDown.mem_exchanges.1 hmem).1
    exact (Store.mem_idle hs).1 (List.mem_of_mem_drop hdrop)
  · exact hapart id hid (hasked ▸ (PowerDown.mem_exchanges.1 hmem).1)
  · rw [h.status, if_pos hid]
  · -- the reserve is idle as before
    have hsubset : s.idle.take reserved ⊆ s'.idle := by
      intro id hid
      have hmem := List.mem_of_mem_take hid
      have hnot : id ∉ PowerDown.down l := fun hin => hapart id hid (hdown.subset hin)
      exact (Store.mem_idle (h.keyed hs)).2 ⟨hactive id hmem hnot,
        (h.empties_iff id).2 ((Store.mem_idle hs).1 hmem).2⟩
    have hnodup := (Store.nodup_idle hs).sublist (List.take_sublist reserved _)
    rw [← List.length_take]
    exact (hnodup.subperm hsubset).length_le

end Power

/-- What a job that powers idle hosts down has come to. -/
def Job.Lowered (g : Chronicle α) (reserved : Nat) (action : PowerAction) (g' : Chronicle α) :
    (j : Job α) → j.Result → Prop
  | .powerDown .., r => Power.Lowered g reserved action g' r
  | _, _ => True

namespace Controller

variable [Quantity α]

/-- Powering down idle hosts, begun while no other operation runs, with the gate open and no watch
under way, comes to its end whatever the hosts answer.  By then it has given the gate back, it
reports the hosts that powered down, and it has spared the reserve. -/
theorem reserve_spared {s s₁ : Controller α} (hmade : s.store.Made) (hopen : s.busy = false)
    (hover : s.own.enforcement.Over) {reserved : Nat} {action : PowerAction}
    (hbegin : s.begin (.powerDown reserved action) = some s₁) :
    (∀ s₂, Runs (fun _ m => m.Alone s.tasks.length) s₁ s₂ →
      ∃ s₃, Runs (fun _ m => m.Alone s.tasks.length) s₂ s₃ ∧ s₃.Finished s.tasks.length) ∧
    ∀ moves s₂ r, (∀ m ∈ moves, m.Serves .own s.tasks.length) → s₁.replay moves = some s₂ →
      s₂.Returns s.tasks.length (.powerDown reserved action) r →
        s₂.busy = false ∧ ∃ down, r = .ok down ∧
          Power.Spares s.store reserved action s₂.store (s₁.transcript moves) down := by
  refine ⟨fun s₂ => exists_finished_of_ends hbegin (Power.ends_powerDownIdle reserved action), ?_⟩
  intro moves s₂ r hmoves hreplay hreturns
  have hyields := Power.yields_powerDownIdle (e := .own) (g := s.chronicle .own [] false)
    hmade.keyed hopen rfl reserved action
  have htells : s₁.Tells .own s.tasks.length
      (Job.Lowered (s.chronicle .own [] false) reserved action) [] :=
    tells_of_begin hbegin hover hyields
  obtain ⟨issued, batch, hget⟩ := hreturns
  obtain ⟨base, calls, launched, ⟨l, u, hchronicle, hasked, hr, hswitches⟩, hlog, -, hbefore⟩ :=
    (htells.replay hmoves hreplay).finished hget rfl
  obtain ⟨rfl, hbusy, -, rfl, rfl⟩ := Chronicle.mk.inj hchronicle
  rw [hbefore rfl, List.nil_append, List.map_nil, List.append_nil] at hlog
  refine ⟨hbusy.trans hopen, _, hr, ?_⟩
  rw [hlog]
  exact .of_switches hmade.keyed hasked hswitches

/-- A host with a machine, and three without. -/
def calm : Store ℚ :=
  let a : Store ℚ := Store.empty.addHost (.new "a" ⟨8, 8, 8, 8⟩ 1)
  let b := a.addHost (.new "b" ⟨8, 8, 8, 8⟩ 1)
  let c := b.addHost (.new "c" ⟨8, 8, 8, 8⟩ 1)
  let d := c.addHost (.new "d" ⟨8, 8, 8, 8⟩ 1)
  (d.addVm ((Vm.new "v" ⟨2, 2, 2, 2⟩ 1).on "b")).2

theorem made_calm : calm.Made := by
  have hnone : (Store.empty : Store ℚ).Made := .ofHosts []
  have hhosts := (((hnone.addHost (.new "a" ⟨8, 8, 8, 8⟩ 1)).addHost (.new "b" ⟨8, 8, 8, 8⟩ 1)).addHost
    (.new "c" ⟨8, 8, 8, 8⟩ 1)).addHost (.new "d" ⟨8, 8, 8, 8⟩ 1)
  exact hhosts.addVm _

/-- One host refuses to power down, and the next one does. -/
def oneInUse : List (Move ℚ) :=
  List.replicate 4 (.run 0) ++ [.answer 0 (.done (.error (.rejected "c" "in use")))] ++
    List.replicate 4 (.run 0) ++ [.answer 0 (.done (.ok ()))] ++ List.replicate 3 (.run 0)

theorem serves_oneInUse : ∀ m ∈ oneInUse, m.Serves .own 0 := by
  simp [oneInUse, Move.Serves]

/-- The hosts that a job has powered down, with the reserve and the action. -/
def spared? : Task ℚ → Option (Nat × PowerAction × List HostId)
  | ⟨.powerDown reserved action, .done (.ok down), _, _⟩ => some (reserved, action, down)
  | _ => none

theorem exists_of_spared {s : Controller ℚ} {moves : List (Move ℚ)} {reserved : Nat}
    {action : PowerAction} {down : List HostId}
    (h : (s.replayed (.powerDown reserved action) moves).bind spared? =
      some (reserved, action, down)) :
    ∃ s₁ s₂, s.begin (.powerDown reserved action) = some s₁ ∧ s₁.replay moves = some s₂ ∧
      s₂.Returns 0 (.powerDown reserved action) (.ok down) := by
  obtain ⟨task, htask, hread⟩ := Option.bind_eq_some_iff.1 h
  obtain ⟨s₁, s₂, hbegin, hreplay, hget⟩ := exists_of_replayed htask
  unfold spared? at hread
  split at hread
  · cases hread
    exact ⟨s₁, s₂, hbegin, hreplay, _, _, hget⟩
  · exact absurd hread (by simp)

theorem reserve_spared_of_calm : calm.idle = ["a", "c", "d"] ∧
    ∃ s₁ s₂, (start .standard calm).begin (.powerDown 1 .shutdown) = some s₁ ∧
      s₁.replay oneInUse = some s₂ ∧ s₂.busy = false ∧
        Power.Spares calm 1 .shutdown s₂.store (s₁.transcript oneInUse) ["d"] := by
  have hend : ((start .standard calm).replayed (.powerDown 1 .shutdown) oneInUse).bind
      spared? = some (1, .shutdown, ["d"]) := by
    cbv
  obtain ⟨s₁, s₂, hbegin, hreplay, hreturns⟩ := exists_of_spared hend
  have hrest : (start .standard calm).own.enforcement.Over := Enforcement.over_idle _
  obtain ⟨hopen, down, hdown, hspares⟩ := (reserve_spared (s := start .standard calm) made_calm rfl
    hrest hbegin).2 oneInUse s₂ _ serves_oneInUse hreplay hreturns
  obtain rfl := Except.ok.inj hdown
  exact ⟨by cbv, s₁, s₂, hbegin, hreplay, hopen, hspares⟩

end Controller

end ClusterControl
