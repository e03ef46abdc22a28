import ClusterControl.Inventory.Request
import ClusterControl.Proofs.Store.Changes

/-!
# One place for every machine

A store that started empty has seen some sequence of requests.  Whatever they were, its maps agree,
and a machine has at most one record.

* `Store.Consistent.apply` says that every request keeps the maps consistent.
* `Store.copies_eq` says that a look-up finds the one record of a machine.
* `Store.apply_of_declined` says that a request that is turned down changes nothing.
* `Store.Reached.one_place` puts these together over every sequence of requests.
-/

namespace ClusterControl

variable {α : Type}

/-- What a caller owes the store before it asks: a host may only be registered with machines that
it alone lists. -/
def StoreRequest.Admissible : StoreRequest α → Store α → Prop
  | .addHost h, s => s.Admits h
  | _, _ => True

/-- The answer turns the request down: it is an error, a no, or nothing. -/
def StoreRequest.Declined : (q : StoreRequest α) → Except StoreError q.Answer → Prop
  | _, .error _ => True
  | .setHostStatus .., .ok known => known = false
  | .transition .., .ok done => done = false
  | .addVm .., .ok done => done = false
  | .findHost .., .ok found => found = none
  | .findVm .., .ok found => found = none
  | .removeVm .., .ok found => found = none
  | _, .ok _ => False

namespace Store

/-! ## Every request keeps the maps consistent -/

/-- A machine that is added is filed where it says, or refused. -/
theorem Consistent.addVm {s : Store α} (hs : s.Consistent) (vm : Vm α) :
    (s.addVm vm).2.Consistent := by
  cases hhost : vm.hostId with
  | none =>
    obtain ⟨s', heq, hmoved⟩ := hs.addVm_unassigned hhost
    rw [heq]
    refine hs.relocate hmoved ?_ (by simp)
    rintro v ⟨⟩
    exact ⟨rfl, hhost⟩
  | some t =>
    cases hget : s.hosts.get? t with
    | none => rwa [addVm_unknown hhost hget]
    | some h =>
      obtain ⟨s', heq, hmoved⟩ := hs.addVm_assigned hhost hget
      rw [heq]
      refine hs.relocate hmoved ?_ (by simp)
      rintro v ⟨⟩
      exact ⟨rfl, rfl⟩

theorem Consistent.moveVm {s : Store α} (hs : s.Consistent) (vm : VmId) (d : HostId) :
    (s.moveVm vm d).2.Consistent := by
  obtain ⟨e, heq⟩ | heq | ⟨source, v, s', heq, -, hv, hmoved⟩ := hs.moveVm_cases vm d
  · rwa [heq]
  · rwa [heq]
  · rw [heq]
    refine hs.relocate hmoved ?_ (by simp)
    rintro w ⟨⟩
    exact ⟨(hs.on_host hv).1, rfl⟩

theorem Consistent.removeVm {s : Store α} (hs : s.Consistent) (vm : VmId) :
    (s.removeVm vm).2.Consistent :=
  hs.relocate (hs.removeVm_relocates vm) (by simp) (by simp)

/-- Every request keeps the maps consistent. -/
theorem Consistent.apply {s : Store α} (hs : s.Consistent) (q : StoreRequest α)
    (hq : q.Admissible s) : (q.apply s).2.Consistent := by
  cases q with
  | addHost h => exact hs.addHost hq
  | listHosts | findHost | hostStatus | findVm => exact hs
  | setHostStatus id status => exact hs.refresh (refreshes_setHostStatus s id status)
  | transition id expected next => exact hs.refresh (refreshes_transition s id expected next)
  | addVm vm => exact hs.addVm vm
  | setVmStatus vm status code => exact hs.refresh (refreshes_setVmStatus s vm status code)
  | moveVm vm d => exact hs.moveVm vm d
  | removeVm vm => exact hs.removeVm vm
  | addHostSample id sample => exact hs.refresh (refreshes_addHostSample s id sample)
  | addVmSample vm sample => exact hs.refresh (refreshes_addVmSample s vm sample)

/-! ## One record of a machine -/

/-- Every record that the store keeps under the id of a machine. -/
def copies (s : Store α) (v : VmId) : List (Vm α) :=
  s.hosts.values.filterMap (fun h => h.vms.get? v) ++ (s.unassigned.get? v).toList

/-- A list of entries yields one value when only one key does. -/
theorem filterMap_values_of_unique {β γ : Type} {m : SortedMap β} {f : β → Option γ} {k : String}
    {b : β} {c : γ} (hget : m.get? k = some b) (hc : f b = some c)
    (hothers : ∀ {k' b'}, m.get? k' = some b' → k' ≠ k → f b' = none) :
    m.values.filterMap f = [c] := by
  obtain ⟨l₁, l₂, hsplit⟩ := List.append_of_mem (SortedMap.get?_eq_some_iff.1 hget)
  have hnd := m.nodup_keys
  rw [SortedMap.keys, hsplit, List.map_append, List.map_cons, List.nodup_middle,
    List.nodup_cons] at hnd
  have hnone : ∀ e ∈ l₁ ++ l₂, f e.2 = none := by
    intro e he
    have hentry : e ∈ m.entries → m.get? e.1 = some e.2 := fun he => SortedMap.get?_eq_some_iff.2 he
    refine hothers (hentry ?_) fun hk => hnd.1 ?_
    · rw [hsplit]
      rcases List.mem_append.1 he with he | he
      · exact List.mem_append_left _ he
      · exact List.mem_append_right _ (List.mem_cons_of_mem _ he)
    · rw [← List.map_append]
      exact List.mem_map.2 ⟨e, he, hk⟩
  have hempty : ∀ l : List (String × β), (∀ e ∈ l, e ∈ l₁ ++ l₂) →
      (l.map (·.2)).filterMap f = [] := by
    intro l hl
    rw [List.filterMap_eq_nil_iff]
    intro b' hb'
    obtain ⟨e, he, rfl⟩ := List.mem_map.1 hb'
    exact hnone e (hl e he)
  rw [SortedMap.values, hsplit, List.map_append, List.map_cons, List.filterMap_append,
    List.filterMap_cons_some hc, hempty l₁ fun e he => List.mem_append_left _ he,
    hempty l₂ fun e he => List.mem_append_right _ he, List.nil_append]

/-- A look-up finds the one record of a machine, if there is any. -/
theorem copies_eq {s : Store α} (hs : s.Consistent) (v : VmId) :
    s.copies v = (s.vm? v).toList := by
  rw [copies, vm?, hostOf]
  cases hp : s.index.get? v with
  | none =>
    have hnil : s.hosts.values.filterMap (fun h => h.vms.get? v) = [] := by
      rw [List.filterMap_eq_nil_iff]
      intro h hh
      obtain ⟨id, hget⟩ := SortedMap.mem_values_iff.1 hh
      rw [← recordOn_of_get? hget]
      exact hs.placed.recordOn_of_index_none hp id
    rw [hnil, List.nil_append]
  | some p =>
    obtain ⟨w, hw⟩ := hs.placed.recordOn_of_index hp
    obtain ⟨h, hget, hv⟩ := Option.bind_eq_some_iff.1 hw
    have hone := filterMap_values_of_unique (f := fun h : Host α => h.vms.get? v) hget hv
      fun {id k} hk hne => by
        rw [← recordOn_of_get? hk]
        exact hs.placed.recordOn_of_index_ne hp hne
    have hun : s.unassigned.get? v = none := hs.placed.unassigned_of_recordOn hw
    simp only [hone, hun, hget, hv, Option.bind_some, Option.toList_some, Option.toList_none,
      List.append_nil]

/-! ## Requests that are turned down -/

theorem modifyVmOn_error {s : Store α} {host : HostId} {vm : VmId} {f : Vm α → Vm α}
    {e : StoreError} (h : (s.modifyVmOn host vm f).1 = .error e) :
    (s.modifyVmOn host vm f).2 = s := by
  unfold modifyVmOn at h ⊢
  split
  · rfl
  · split
    · rfl
    · simp_all

/-- Nothing is forgotten of a machine that is not there. -/
theorem Consistent.removeVm_none {s : Store α} (hs : s.Consistent) {vm : VmId}
    (h : (s.removeVm vm).1 = none) : (s.removeVm vm).2 = s := by
  simp only [Store.removeVm, hostOf] at h ⊢
  cases hp : s.index.get? vm with
  | none =>
    simp only [hp] at h
    simp only [SortedMap.erase_eq_self h]
  | some host =>
    obtain ⟨w, hw⟩ := hs.placed.recordOn_of_index hp
    simp only [hp] at h
    rw [← recordOn, hw] at h
    exact absurd h (by simp)

/-- A request that is turned down changes nothing. -/
theorem apply_of_declined {s : Store α} (hs : s.Consistent) (q : StoreRequest α)
    (h : q.Declined (q.apply s).1) : (q.apply s).2 = s := by
  cases q with
  | addHost => exact absurd h id
  | listHosts | findHost | hostStatus | findVm => rfl
  | setHostStatus id status =>
    simp only [StoreRequest.apply, StoreRequest.Declined, setHostStatus] at h ⊢
    split <;> simp_all
  | transition id expected next =>
    simp only [StoreRequest.apply, transition] at h ⊢
    split
    · rfl
    · split
      · simp_all [StoreRequest.Declined]
      · rfl
  | addVm vm =>
    simp only [StoreRequest.apply, StoreRequest.Declined] at h ⊢
    cases hhost : vm.hostId with
    | none =>
      obtain ⟨s', heq, -⟩ := hs.addVm_unassigned hhost
      rw [heq] at h
      exact absurd h (by simp)
    | some t =>
      cases hget : s.hosts.get? t with
      | none => rw [addVm_unknown hhost hget]
      | some k =>
        obtain ⟨s', heq, -⟩ := hs.addVm_assigned hhost hget
        rw [heq] at h
        exact absurd h (by simp)
  | setVmStatus vm status code =>
    simp only [StoreRequest.apply, setVmStatus] at h ⊢
    split
    · rename_i host hhost
      simp only [hhost] at h
      cases hanswer : (s.modifyVmOn host vm fun v => v.withStatus status code).1 with
      | error e => exact modifyVmOn_error hanswer
      | ok => rw [hanswer] at h; exact absurd h id
    · split
      · simp_all [StoreRequest.Declined]
      · rfl
  | moveVm vm d =>
    simp only [StoreRequest.apply] at h ⊢
    obtain ⟨e, heq⟩ | heq | ⟨source, v, s', heq, -⟩ := hs.moveVm_cases vm d
    · rw [heq]
    · rw [heq]
    · rw [heq] at h
      exact absurd h id
  | removeVm vm => exact hs.removeVm_none h
  | addHostSample id sample =>
    simp only [StoreRequest.apply, addHostSample] at h ⊢
    split
    · simp_all [StoreRequest.Declined]
    · rfl
  | addVmSample vm sample =>
    simp only [StoreRequest.apply, addVmSample] at h ⊢
    split
    · rename_i host hhost
      simp only [hhost] at h
      cases hanswer : (s.modifyVmOn host vm fun v => v.observe sample).1 with
      | error e => exact modifyVmOn_error hanswer
      | ok => rw [hanswer] at h; exact absurd h id
    · rfl

/-! ## Every sequence of requests -/

/-- The stores that requests lead to from the empty one. -/
inductive Reached : Store α → Prop
  | empty : Reached .empty
  | apply {s : Store α} (q : StoreRequest α) : Reached s → q.Admissible s → Reached (q.apply s).2

theorem Reached.consistent {s : Store α} (h : s.Reached) : s.Consistent := by
  induction h with
  | empty => exact consistent_empty
  | apply q _ hq ih => exact ih.apply q hq

/-- After any sequence of requests the maps of the store agree on the place of each machine, a
look-up finds the one record there is, and a request that is turned down changes nothing. -/
theorem Reached.one_place {s : Store α} (h : s.Reached) :
    s.Consistent ∧ (∀ v, s.copies v = (s.vm? v).toList) ∧
      ∀ q : StoreRequest α, q.Declined (q.apply s).1 → (q.apply s).2 = s :=
  ⟨h.consistent, copies_eq h.consistent, fun q => apply_of_declined h.consistent q⟩

/-- A store that was given a host and then a machine for it. -/
def twoRequests : Store Nat :=
  let host : Host Nat :=
    { id := "h1", address := "", status := .active, capacity := ⟨4, 4, 4, 4⟩, vms := .empty
      history := .empty 1, thresholds := .uniform 0 1 }
  let vm : Vm Nat := { Vm.new "v1" ⟨1, 1, 1, 1⟩ 1 with hostId := some "h1" }
  ((StoreRequest.addVm vm).apply ((StoreRequest.addHost host).apply .empty).2).2

theorem one_place_of_twoRequests : twoRequests.Reached ∧
    (twoRequests.copies "v1").length = 1 ∧ twoRequests.Consistent ∧
      (∀ v, twoRequests.copies v = (twoRequests.vm? v).toList) ∧
        ∀ q : StoreRequest Nat, q.Declined (q.apply twoRequests).1 →
          (q.apply twoRequests).2 = twoRequests := by
  have hreached : twoRequests.Reached := by
    refine .apply _ (.apply _ .empty ?_) trivial
    exact ⟨fun h => absurd h (by simp), fun h => absurd h (by simp), fun h => absurd h (by simp)⟩
  exact ⟨hreached, by decide, hreached.one_place⟩

end Store

end ClusterControl
