import ClusterControl.Proofs.Store.Listing
import ClusterControl.Proofs.Store.Traffic

/-!
# Hosts under their ids

The store files every host under its own id, whatever hosts it was made from and whatever was asked
of it.  Nothing more is needed to say which host an id means.

* `Store.Made` are the stores that can come about, also those whose maps do not agree.
* `Store.Made.keyed` says that they file every host under its id.
-/

namespace ClusterControl.Store

variable {α : Type} {s t : Store α}

/-! ## Requests that leave the hosts but for their machines -/

theorem bare_addVm (s : Store α) (vm : Vm α) (id : HostId) :
    ((s.addVm vm).2.hosts.get? id).map Host.bare = (s.hosts.get? id).map Host.bare := by
  unfold addVm
  split
  · exact bare_dropPrevious _ vm.id (s.hostOf vm.id) none id
  · rename_i target _
    split
    · rfl
    · rename_i h hget
      refine (bare_dropPrevious _ vm.id (s.hostOf vm.id) (some target) id).trans ?_
      exact bare_insert hget (h.bare_assign vm) id

theorem bare_moveVm (s : Store α) (vm : VmId) (destination : HostId) (id : HostId) :
    ((s.moveVm vm destination).2.hosts.get? id).map Host.bare = (s.hosts.get? id).map Host.bare := by
  unfold moveVm
  split
  · rfl
  split
  · rfl
  rename_i source _
  split
  · rfl
  split
  · rfl
  rename_i v _
  refine (bare_modify _ destination (fun h => h.bare_assign v) id).trans ?_
  exact bare_modify s.hosts source (fun h => h.bare_unassign vm) id

theorem bare_removeVm (s : Store α) (vm : VmId) (id : HostId) :
    ((s.removeVm vm).2.hosts.get? id).map Host.bare = (s.hosts.get? id).map Host.bare := by
  unfold removeVm
  split
  · rename_i host _
    exact bare_modify s.hosts host (fun h => h.bare_unassign vm) id
  · rfl

/-! ## Requests in general -/

theorem keyed_empty : (empty : Store α).Keyed := by
  intro id h hget
  exact absurd hget (by simp [empty])

theorem Keyed.of_bare (hs : s.Keyed)
    (h : ∀ id, (t.hosts.get? id).map Host.bare = (s.hosts.get? id).map Host.bare) : t.Keyed := by
  intro id k hget
  obtain ⟨k', hget', hbare⟩ := exists_of_map_eq (h id) hget
  exact (Host.id_of_bare hbare).trans (hs hget')

/-- A host that is filed under its id takes the place of another one, or of none. -/
theorem Keyed.insert (hs : s.Keyed) {p : HostId} {k : Host α} (hk : k.id = p)
    (ht : t.hosts = s.hosts.insert p k) : t.Keyed := by
  intro id h hget
  rw [ht, SortedMap.get?_insert] at hget
  split at hget
  · rename_i hid
    rw [← Option.some.inj hget, hk, hid]
  · exact hs hget

theorem Keyed.addHost (hs : s.Keyed) (k : Host α) : (s.addHost k).Keyed := by
  intro id h hget
  rw [hosts_addHost] at hget
  split at hget
  · rename_i hid
    rw [← Option.some.inj hget, hid]
  · exact hs hget

theorem Keyed.transition (hs : s.Keyed) (id : HostId) (expected next : HostStatus) :
    (s.transition id expected next).2.Keyed := by
  unfold Store.transition
  split
  · exact hs
  · rename_i h hget
    have hid : h.id = id := hs hget
    split
    · exact hs.insert (k := h.withStatus next) hid rfl
    · exact hs

theorem Keyed.setHostStatus (hs : s.Keyed) (id : HostId) (status : HostStatus) :
    (s.setHostStatus id status).2.Keyed := by
  unfold Store.setHostStatus
  split
  · rename_i h hget
    have hid : h.id = id := hs hget
    exact hs.insert (k := h.withStatus status) hid rfl
  · exact hs

theorem Keyed.addHostSample (hs : s.Keyed) (id : HostId) (sample : Sample α) :
    (s.addHostSample id sample).2.Keyed := by
  unfold Store.addHostSample
  split
  · rename_i h hget
    have hid : h.id = id := hs hget
    exact hs.insert (k := h.observe sample) hid rfl
  · exact hs

/-- No request files a host under another id. -/
theorem Keyed.apply (hs : s.Keyed) (q : StoreRequest α) : (q.apply s).2.Keyed := by
  cases q with
  | listHosts | findHost | hostStatus | findVm => exact hs
  | addHost host => exact hs.addHost host
  | setHostStatus host status => exact hs.setHostStatus host status
  | transition host expected next => exact hs.transition host expected next
  | addHostSample host sample => exact hs.addHostSample host sample
  | addVm vm => exact hs.of_bare (bare_addVm s vm)
  | setVmStatus vm status code => exact hs.of_bare (bare_setVmStatus s vm status code)
  | moveVm vm destination => exact hs.of_bare (bare_moveVm s vm destination)
  | removeVm vm => exact hs.of_bare (bare_removeVm s vm)
  | addVmSample vm sample => exact hs.of_bare (bare_addVmSample s vm sample)

/-! ## Every store -/

/-- The stores that are made from a list of hosts, and those that requests make of them. -/
inductive Made : Store α → Prop
  | ofHosts (hosts : List (Host α)) : Made (ofHosts hosts)
  | apply {s : Store α} (q : StoreRequest α) : Made s → Made (q.apply s).2

theorem Made.addHost (h : s.Made) (host : Host α) : (s.addHost host).Made := h.apply (.addHost host)

theorem Made.addVm (h : s.Made) (vm : Vm α) : (s.addVm vm).2.Made := h.apply (.addVm vm)

theorem keyed_ofHosts (hosts : List (Host α)) : (Store.ofHosts hosts).Keyed := by
  induction hosts using List.reverseRecOn with
  | nil => exact keyed_empty
  | append_singleton hosts k ih =>
    rw [ofHosts_concat]
    exact ih.insert rfl rfl

theorem Made.keyed (h : s.Made) : s.Keyed := by
  induction h with
  | ofHosts hosts => exact keyed_ofHosts hosts
  | apply q _ ih => exact ih.apply q

end ClusterControl.Store
