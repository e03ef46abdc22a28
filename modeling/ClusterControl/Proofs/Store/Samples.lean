import ClusterControl.Inventory.Observation
import ClusterControl.Proofs.Store.Histories
import ClusterControl.Proofs.Store.OnePlace
import ClusterControl.Proofs.Store.Power

/-!
# Samples in the store

A sample goes to the history of the host or machine that it is about, wherever the machine is by
then.  Moves and changes of statuses take histories along as they are.

* `Store.Gathers` says that from one store to another the histories of hosts and machines grew by a
  list of observations; such growth adds up (`Store.Gathers.trans`).
* `Store.gathers_take` is the growth by one observation, and `Store.gathers_apply` says that nothing
  is lost or added by a request that rearranges the cluster.
* `Store.Filed` is all that this needs of the store, and `Store.Filed.take` and
  `Store.Filed.rearrange` keep it.
-/

namespace ClusterControl

variable {α : Type}

/-! ## Observations -/

namespace Observation

/-- The sample, if the observation is about the host. -/
def ofHost? (id : HostId) : Observation α → Option (Sample α)
  | host k sample => if k = id then some sample else none
  | vm .. => none

/-- The sample, if the observation is about the machine. -/
def ofVm? (v : VmId) : Observation α → Option (Sample α)
  | host .. => none
  | vm u sample => if u = v then some sample else none

end Observation

namespace Store

variable {s t u : Store α}

/-- What the observation is about is there: a host that is registered, or a machine on a host. -/
def Knows (s : Store α) : Observation α → Prop
  | .host id _ => (s.hosts.get? id).isSome = true
  | .vm v _ => ∃ p w, s.recordOn p v = some w

/-- The store that has taken an observation in. -/
def take (s : Store α) : Observation α → Store α
  | .host id sample => ((s.addHostSample id sample).2.transition id .wokenUp .active).2
  | .vm v sample => (s.addVmSample v sample).2

/-! ## Records and what becomes of them -/

/-- A host may change in all but its machines without any record changing. -/
theorem recordOn_insert_of_vms {id : HostId} {h k : Host α} (hget : s.hosts.get? id = some h)
    (hvms : k.vms = h.vms) (id' : HostId) (v : VmId) :
    recordOn { s with hosts := s.hosts.insert id k } id' v = s.recordOn id' v := by
  rw [recordOn_insert, hvms]
  by_cases hid : id' = id
  · rw [if_pos hid, hid, recordOn_of_get? hget]
  · rw [if_neg hid]

theorem recordOn_setHostStatus (s : Store α) (id : HostId) (status : HostStatus) (id' : HostId)
    (v : VmId) : (s.setHostStatus id status).2.recordOn id' v = s.recordOn id' v := by
  unfold setHostStatus
  split
  · rename_i h hget
    exact recordOn_insert_of_vms (k := h.withStatus status) hget rfl id' v
  · rfl

theorem recordOn_transition (s : Store α) (id : HostId) (expected next : HostStatus) (id' : HostId)
    (v : VmId) : (s.transition id expected next).2.recordOn id' v = s.recordOn id' v := by
  unfold transition
  split
  · rfl
  · rename_i h hget
    split
    · exact recordOn_insert_of_vms (k := h.withStatus next) hget rfl id' v
    · rfl

theorem recordOn_addHostSample (s : Store α) (id : HostId) (sample : Sample α) (id' : HostId)
    (v : VmId) : (s.addHostSample id sample).2.recordOn id' v = s.recordOn id' v := by
  unfold addHostSample
  split
  · rename_i h hget
    exact recordOn_insert_of_vms (k := h.observe sample) hget rfl id' v
  · rfl

/-- Changing the record of a machine on a host changes that record and no other. -/
theorem recordOn_modifyVmOn (s : Store α) (host : HostId) (vm : VmId) (f : Vm α → Vm α)
    (id : HostId) (v : VmId) : (s.modifyVmOn host vm f).2.recordOn id v =
      if id = host ∧ v = vm then (s.recordOn id v).map f else s.recordOn id v := by
  unfold modifyVmOn
  split
  · rename_i hnone
    split
    · rename_i hboth
      rw [hboth.1, recordOn_of_get?_none hnone, Option.map_none]
    · rfl
  · rename_i h hget
    split
    · rename_i hnone
      split
      · rename_i hboth
        rw [hboth.1, hboth.2, recordOn_of_get? hget, hnone, Option.map_none]
      · rfl
    · rename_i w hw
      rw [recordOn_insert]
      by_cases hid : id = host
      · subst hid
        rw [if_pos rfl, SortedMap.get?_insert, recordOn_of_get? hget]
        by_cases hv : v = vm
        · rw [if_pos hv, if_pos ⟨rfl, hv⟩, hv, hw, Option.map_some]
        · rw [if_neg hv, if_neg fun h => hv h.2]
      · rw [if_neg hid, if_neg fun h => hid h.1]

/-- The record of a machine on a host changes, wherever that is. -/
theorem Placed.recordOn_modifyVmOn (hs : s.Placed) {host : HostId} {vm : VmId}
    (hindex : s.hostOf vm = some host) (f : Vm α → Vm α) (id : HostId) (v : VmId) :
    (s.modifyVmOn host vm f).2.recordOn id v =
      if v = vm then (s.recordOn id v).map f else s.recordOn id v := by
  rw [Store.recordOn_modifyVmOn]
  by_cases hid : id = host
  · simp only [hid, true_and]
  · by_cases hv : v = vm
    · rw [if_neg fun h => hid h.1, if_pos hv, hv, hs.recordOn_of_index_ne hindex hid, Option.map_none]
    · rw [if_neg fun h => hid h.1, if_neg hv]

theorem Placed.recordOn_setVmStatus (hs : s.Placed) (vm : VmId) (status : VmStatus)
    (code : Option VmErrorCode) (id : HostId) (v : VmId) :
    (s.setVmStatus vm status code).2.recordOn id v =
      if v = vm then (s.recordOn id v).map (Vm.withStatus · status code) else s.recordOn id v := by
  unfold setVmStatus
  split
  · rename_i host hindex
    exact hs.recordOn_modifyVmOn hindex _ id v
  · rename_i hindex
    have hnone : s.recordOn id vm = none := hs.recordOn_of_index_none hindex id
    have hsame : s.recordOn id v =
        if v = vm then (s.recordOn id v).map (Vm.withStatus · status code) else s.recordOn id v := by
      split
      · rename_i hv
        rw [hv, hnone, Option.map_none]
      · rfl
    split <;> exact hsame

theorem Placed.recordOn_addVmSample (hs : s.Placed) (vm : VmId) (sample : Sample α)
    (id : HostId) (v : VmId) : (s.addVmSample vm sample).2.recordOn id v =
      if v = vm then (s.recordOn id v).map (Vm.observe · sample) else s.recordOn id v := by
  unfold addVmSample
  split
  · rename_i host hindex
    exact hs.recordOn_modifyVmOn hindex _ id v
  · rename_i hindex
    split
    · rename_i hv
      rw [hv, hs.recordOn_of_index_none hindex id, Option.map_none]
    · rfl

/-! ## Unassigned machines -/

theorem unassigned_transition (s : Store α) (id : HostId) (expected next : HostStatus) :
    (s.transition id expected next).2.unassigned = s.unassigned := by
  unfold transition
  split
  · rfl
  · split <;> rfl

theorem unassigned_addHostSample (s : Store α) (id : HostId) (sample : Sample α) :
    (s.addHostSample id sample).2.unassigned = s.unassigned := by
  unfold addHostSample
  split <;> rfl

theorem unassigned_addVmSample (s : Store α) (vm : VmId) (sample : Sample α) :
    (s.addVmSample vm sample).2.unassigned = s.unassigned := by
  unfold addVmSample
  split
  · unfold modifyVmOn
    split
    · rfl
    · split <;> rfl
  · rfl

/-! ## Growing histories -/

/-- From `s` to `s'` the histories of the hosts, and of the machines on hosts wherever these are by
now, have taken in what the observations say about them. -/
structure Gathers (s s' : Store α) (l : List (Observation α)) : Prop where
  hosts : ∀ {id h}, s.hosts.get? id = some h → ∃ h', s'.hosts.get? id = some h' ∧
    h'.history = (l.filterMap (Observation.ofHost? id)).foldl History.push h.history
  machines : ∀ {p v w}, s.recordOn p v = some w → ∃ q w', s'.recordOn q v = some w' ∧
    w'.history = (l.filterMap (Observation.ofVm? v)).foldl History.push w.history

theorem Gathers.refl (s : Store α) : s.Gathers s [] :=
  ⟨fun h => ⟨_, h, rfl⟩, fun h => ⟨_, _, h, rfl⟩⟩

/-- Observations may come in one after the other. -/
theorem Gathers.trans {l k : List (Observation α)} (h : s.Gathers t l) (h' : t.Gathers u k) :
    s.Gathers u (l ++ k) := by
  constructor
  · intro id x hx
    obtain ⟨y, hy, hgrown⟩ := h.hosts hx
    obtain ⟨z, hz, hgrown'⟩ := h'.hosts hy
    exact ⟨z, hz, by rw [hgrown', hgrown, List.filterMap_append, List.foldl_append]⟩
  · intro p v x hx
    obtain ⟨q, y, hy, hgrown⟩ := h.machines hx
    obtain ⟨q', z, hz, hgrown'⟩ := h'.machines hy
    exact ⟨q', z, hz, by rw [hgrown', hgrown, List.filterMap_append, List.foldl_append]⟩

/-- Where histories have changed in place, by what one observation says about them. -/
theorem gathers_in_place {l : List (Observation α)}
    (hhosts : ∀ id, (t.hosts.get? id).map Host.history = (s.hosts.get? id).map fun h =>
      (l.filterMap (Observation.ofHost? id)).foldl History.push h.history)
    (hrecords : ∀ id v, (t.recordOn id v).map Vm.history = (s.recordOn id v).map fun w =>
      (l.filterMap (Observation.ofVm? v)).foldl History.push w.history) : s.Gathers t l := by
  constructor
  · intro id h hget
    have hmap := hhosts id
    rw [hget, Option.map_some] at hmap
    obtain ⟨h', hget', hgrown⟩ := Option.map_eq_some_iff.1 hmap
    exact ⟨h', hget', hgrown⟩
  · intro p v w hw
    have hmap := hrecords p v
    rw [hw, Option.map_some] at hmap
    obtain ⟨w', hw', hgrown⟩ := Option.map_eq_some_iff.1 hmap
    exact ⟨p, w', hw', hgrown⟩

/-! ## Samples -/

theorem history_of_bare {id : HostId}
    (h : (t.hosts.get? id).map Host.bare = (s.hosts.get? id).map Host.bare) :
    (t.hosts.get? id).map Host.history = (s.hosts.get? id).map Host.history := by
  have hhistory : ∀ o : Option (Host α), o.map Host.history = (o.map Host.bare).map Host.history :=
    fun o => by rw [Option.map_map]; rfl
  rw [hhistory, h, ← hhistory]

theorem history_transition (s : Store α) (id : HostId) (expected next : HostStatus) (id' : HostId) :
    ((s.transition id expected next).2.hosts.get? id').map Host.history =
      (s.hosts.get? id').map Host.history := by
  unfold transition
  split
  · rfl
  · rename_i h hget
    split
    · rw [SortedMap.get?_insert]
      by_cases hid : id' = id
      · rw [if_pos hid, hid, hget]
        rfl
      · rw [if_neg hid]
    · rfl

theorem history_setHostStatus (s : Store α) (id : HostId) (status : HostStatus) (id' : HostId) :
    ((s.setHostStatus id status).2.hosts.get? id').map Host.history =
      (s.hosts.get? id').map Host.history := by
  unfold setHostStatus
  split
  · rename_i h hget
    rw [SortedMap.get?_insert]
    by_cases hid : id' = id
    · rw [if_pos hid, hid, hget]
      rfl
    · rw [if_neg hid]
  · rfl

theorem history_addHostSample (s : Store α) (id : HostId) (sample : Sample α) (id' : HostId) :
    ((s.addHostSample id sample).2.hosts.get? id').map Host.history = (s.hosts.get? id').map
      fun h => if id = id' then h.history.push sample else h.history := by
  unfold addHostSample
  split
  · rename_i h hget
    rw [SortedMap.get?_insert]
    by_cases hid : id' = id
    · simp [hid, hget, Host.observe]
    · simp [hid, Ne.symm hid]
  · rename_i hnone
    by_cases hid : id = id'
    · simp [← hid, hnone]
    · simp [hid]

/-- An observation goes to the history of what it is about. -/
theorem gathers_take (hs : s.Placed) (o : Observation α) : s.Gathers (s.take o) [o] := by
  cases o with
  | host id sample =>
    refine gathers_in_place (fun id' => ?_) fun id' v => ?_
    · rw [take, history_transition, history_addHostSample]
      refine congrArg (Option.map · _) (funext fun h => ?_)
      by_cases hid : id = id' <;> simp [Observation.ofHost?, hid]
    · rw [take, recordOn_transition, recordOn_addHostSample]
      rfl
  | vm v sample =>
    refine gathers_in_place (fun id => ?_) fun id u => ?_
    · exact history_of_bare (bare_addVmSample s v sample id)
    · rw [take, hs.recordOn_addVmSample]
      by_cases hu : u = v
      · simp [hu, Observation.ofVm?, Vm.observe, Function.comp_def]
      · simp [hu, Ne.symm hu, Observation.ofVm?]

/-- An observation of what is not there goes nowhere. -/
theorem gathers_of_not_knows {o : Observation α} (h : ¬s.Knows o) : s.Gathers s [o] := by
  constructor
  · intro id k hget
    have hother : o.ofHost? id = none := by
      cases o with
      | vm => rfl
      | host id' sample =>
        refine if_neg fun hid => h ?_
        rw [Knows, hid, hget]
        rfl
    exact ⟨k, hget, by rw [List.filterMap_cons_none hother]; rfl⟩
  · intro p v w hw
    have hother : o.ofVm? v = none := by
      cases o with
      | host => rfl
      | vm v' sample => exact if_neg fun hv => h ⟨p, w, by rwa [hv]⟩
    exact ⟨p, w, hw, by rw [List.filterMap_cons_none hother]; rfl⟩

/-- A sample makes the host that it is about active if it was woken, and changes no other power. -/
theorem status_take (s : Store α) (o : Observation α) (id : HostId) :
    (s.take o).status? id =
      if (o.ofHost? id).isSome = true ∧ s.status? id = some .wokenUp then some .active
      else s.status? id := by
  cases o with
  | host k sample =>
    rw [take, status_transition, status_addHostSample, status_addHostSample]
    by_cases hid : id = k
    · simp [hid, Observation.ofHost?]
    · simp [hid, Ne.symm hid, Observation.ofHost?]
  | vm v sample =>
    rw [take, status_of_bare (bare_addVmSample s v sample id)]
    simp [Observation.ofHost?]

/-- A sample leaves the records of machines on hosts but for their histories. -/
theorem Placed.recordOn_take (hs : s.Placed) (o : Observation α) (id : HostId) (v : VmId) :
    (s.take o).recordOn id v = (s.recordOn id v).map fun w =>
      { w with history := (o.ofVm? v).toList.foldl History.push w.history } := by
  cases o with
  | host k sample =>
    rw [take, recordOn_transition, recordOn_addHostSample]
    simp [Observation.ofVm?]
  | vm u sample =>
    rw [take, hs.recordOn_addVmSample]
    by_cases hv : v = u
    · simp only [hv, Observation.ofVm?, if_true]
      rfl
    · simp [hv, Ne.symm hv, Observation.ofVm?]

/-- A sample leaves the unassigned machines as they are. -/
theorem unassigned_take (s : Store α) (o : Observation α) :
    (s.take o).unassigned = s.unassigned := by
  cases o with
  | host id sample => rw [take, unassigned_transition, unassigned_addHostSample]
  | vm v sample => rw [take, unassigned_addVmSample]

theorem Filed.take (hs : s.Filed) (o : Observation α) : (s.take o).Filed := by
  cases o with
  | host id sample =>
    exact (hs.refresh (refreshes_addHostSample s id sample)).refresh (refreshes_transition _ _ _ _)
  | vm v sample => exact hs.refresh (refreshes_addVmSample s v sample)

end Store

/-! ## Requests that rearrange the cluster -/

/-- The request moves a machine, sets the status of a machine or of a host, or only reads. -/
def StoreRequest.Rearranges : StoreRequest α → Prop
  | .addHost _ | .addVm _ | .removeVm _ | .addHostSample .. | .addVmSample .. => False
  | _ => True

namespace Store

variable {s : Store α}

/-- Rearranging the cluster leaves every machine in one place, under its own id. -/
theorem Filed.rearrange (hs : s.Filed) {q : StoreRequest α} (hq : q.Rearranges) :
    (q.apply s).2.Filed := by
  cases q with
  | addHost | addVm | removeVm | addHostSample | addVmSample => exact hq.elim
  | listHosts | findHost | hostStatus | findVm => exact hs
  | setHostStatus id status => exact hs.refresh (refreshes_setHostStatus s id status)
  | transition id expected next => exact hs.refresh (refreshes_transition s id expected next)
  | setVmStatus vm status code => exact hs.refresh (refreshes_setVmStatus s vm status code)
  | moveVm vm d =>
    simp only [StoreRequest.apply]
    obtain ⟨e, heq⟩ | heq | ⟨source, w, k, s', heq, -, hw, hmoved⟩ := hs.moveVm_cases vm d
    · rwa [heq]
    · rwa [heq]
    · rw [heq]
      have hid : w.id = vm := hs.own_id hw
      refine hs.relocate hmoved ?_ (by simp)
      rintro v ⟨⟩
      exact hid

/-- Rearranging the cluster leaves every history as it is. -/
theorem gathers_apply (hs : s.Filed) {q : StoreRequest α} (hq : q.Rearranges) :
    s.Gathers (q.apply s).2 [] := by
  cases q with
  | addHost | addVm | removeVm | addHostSample | addVmSample => exact hq.elim
  | listHosts | findHost | hostStatus | findVm => exact .refl s
  | setHostStatus id status =>
    refine gathers_in_place (history_setHostStatus s id status) fun id' v => ?_
    simp only [StoreRequest.apply, recordOn_setHostStatus]
    rfl
  | transition id expected next =>
    refine gathers_in_place (history_transition s id expected next) fun id' v => ?_
    simp only [StoreRequest.apply, recordOn_transition]
    rfl
  | setVmStatus vm status code =>
    refine gathers_in_place (fun id => history_of_bare (bare_setVmStatus s vm status code id))
      fun id v => ?_
    simp only [StoreRequest.apply, hs.recordOn_setVmStatus]
    split
    · rw [Option.map_map]
      rfl
    · rfl
  | moveVm vm d =>
    simp only [StoreRequest.apply]
    obtain ⟨e, heq⟩ | heq | ⟨source, w, k, s', heq, -, hw, hmoved⟩ := hs.moveVm_cases vm d
    · rw [heq]
      exact .refl s
    · rw [heq]
      exact .refl s
    · rw [heq]
      constructor
      · intro id h hget
        have hmap := history_of_bare (hmoved.hosts id)
        rw [hget, Option.map_some] at hmap
        exact Option.map_eq_some_iff.1 hmap
      · intro p v x hx
        by_cases hv : v = vm
        · -- the record that moved is the only one of its machine
          subst hv
          obtain rfl := hs.recordOn_unique hw hx
          rw [hw] at hx
          obtain rfl := Option.some.inj hx
          exact ⟨d, w.on k.id, by rw [hmoved.recordOn, if_pos rfl, if_pos rfl], rfl⟩
        · exact ⟨p, x, by rw [hmoved.recordOn, if_neg hv, hx], rfl⟩

end Store

end ClusterControl
