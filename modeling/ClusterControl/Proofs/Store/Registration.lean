import ClusterControl.Proofs.Store.Listing

/-!
# Registering hosts with their machines

A host is registered together with the machines that it lists.  The index then names it for each of
them, but copies that other hosts or the unassigned machines have are not dropped, as they are when
a single machine is added.  So every machine stays in one place exactly when there are no such
copies.

* `Store.Placed.addHost_iff` says when one registration keeps every machine in one place.
* `Store.Placed.settling` and `Store.Settling.placed` say for which lists of hosts a whole store is
  built that way.
* `Store.filed_ofHosts` says that hosts with different machines make such a store, whatever their
  records name.
-/

namespace ClusterControl

variable {α : Type}

/-- Every machine is filed under its id, on one host; its record may name any host, or none. -/
structure Host.Distinct (hosts : List (Host α)) : Prop where
  ids : (hosts.map Host.id).Nodup
  filed : ∀ {h}, h ∈ hosts → ∀ {v w}, h.vms.get? v = some w → w.id = v
  once : ∀ {h k}, h ∈ hosts → k ∈ hosts → ∀ {v}, h.Has v → k.Has v → h.id = k.id

namespace Store

/-! ## One more host -/

/-- No machine that the host lists is stored anywhere but on the host that it replaces. -/
def ClearFor (s : Store α) (h : Host α) : Prop :=
  ∀ v, h.Has v → s.unassigned.get? v = none ∧ ∀ id, id ≠ h.id → s.recordOn id v = none

/-- A machine that the host lists is on no other host afterwards. -/
theorem Placed.clear_elsewhere {s : Store α} {h : Host α} (hs : (s.addHost h).Placed) {v : VmId}
    (hv : h.Has v) {id : HostId} (hid : id ≠ h.id) : s.recordOn id v = none := by
  have hnew : ((s.addHost h).recordOn h.id v).isSome = true := by
    rw [recordOn_addHost, if_pos rfl]
    exact hv
  have hold : (s.addHost h).recordOn id v = s.recordOn id v := by
    rw [recordOn_addHost, if_neg hid]
  rw [← Option.not_isSome_iff_eq_none, ← hold]
  intro hsome
  exact hid (hs.eq_of_recordOn hsome hnew)

/-- Nor is it among the unassigned machines. -/
theorem Placed.clear_unassigned {s : Store α} {h : Host α} (hs : (s.addHost h).Placed) {v : VmId}
    (hv : h.Has v) : s.unassigned.get? v = none := by
  rw [← Option.not_isSome_iff_eq_none]
  intro hsome
  have hnone : (s.addHost h).recordOn h.id v = none :=
    hs.apart (by rw [unassigned_addHost]; exact hsome)
  rw [recordOn_addHost, if_pos rfl] at hnone
  rw [Host.Has, hnone] at hv
  exact absurd hv (by simp)

/-- The index keeps up with a host that brings no machine from elsewhere. -/
theorem Placed.indexed_addHost {s : Store α} (hs : s.Placed) {h : Host α} (hclear : s.ClearFor h)
    (v : VmId) (id : HostId) :
    (s.addHost h).index.get? v = some id ↔ ((s.addHost h).recordOn id v).isSome = true := by
  rw [index_addHost, recordOn_addHost]
  by_cases hv : (h.vms.get? v).isSome = true
  · -- the host lists the machine, so nobody else does
    rw [if_pos hv, Option.some.injEq]
    by_cases hid : id = h.id
    · simp [hid, hv]
    · have hgone := (hclear v hv).2 id hid
      simp [Ne.symm hid, hid, hgone]
  · rw [if_neg hv]
    by_cases hprev : (s.recordOn h.id v).isSome = true
    · -- the host that is replaced had the machine, and it alone
      rw [if_pos hprev]
      by_cases hid : id = h.id
      · simpa [hid] using hv
      · have hgone : ¬(s.recordOn id v).isSome = true := fun hsome =>
          hid (hs.eq_of_recordOn hsome hprev)
        simpa [hid] using hgone
    · rw [if_neg hprev, hs.indexed]
      by_cases hid : id = h.id
      · rw [if_pos hid, hid]
        exact iff_of_false hprev hv
      · rw [if_neg hid]

/-- Registering a host keeps every machine in one place exactly when the host brings no machine
that is stored elsewhere. -/
theorem Placed.addHost_iff {s : Store α} (hs : s.Placed) (h : Host α) :
    (s.addHost h).Placed ↔ s.ClearFor h := by
  constructor
  · intro hplaced v hv
    exact ⟨hplaced.clear_unassigned hv, fun id hid => hplaced.clear_elsewhere hv hid⟩
  · intro hclear
    refine ⟨fun {v id} => hs.indexed_addHost hclear v id, fun {v id} hun => ?_⟩
    rw [unassigned_addHost] at hun
    rw [recordOn_addHost]
    by_cases hid : id = h.id
    · rw [if_pos hid, ← Option.not_isSome_iff_eq_none]
      intro hv
      rw [(hclear v hv).1] at hun
      exact absurd hun (by simp)
    · rw [if_neg hid]
      exact hs.apart hun

/-! ## A list of hosts -/

/-- The host on a list that was registered last under an id, and so is the one that stays. -/
def lastWithId (hosts : List (Host α)) (id : HostId) : Option (Host α) :=
  hosts.reverse.find? fun h => h.id == id

/-- The host on a list that was the last to come with a machine. -/
def lastWith (hosts : List (Host α)) (v : VmId) : Option (Host α) :=
  hosts.reverse.find? fun h => h.vms.contains v

theorem id_of_lastWithId {hosts : List (Host α)} {id : HostId} {h : Host α}
    (h' : lastWithId hosts id = some h) : h.id = id := by
  have hfound := List.find?_some h'
  simpa using hfound

theorem has_of_lastWith {hosts : List (Host α)} {v : VmId} {h : Host α}
    (h' : lastWith hosts v = some h) : h.Has v := by
  have hfound := List.find?_some h'
  exact hfound

/-- Of the hosts with one id the last one stays. -/
theorem get?_ofHosts_eq (hosts : List (Host α)) (id : HostId) :
    (ofHosts hosts).hosts.get? id = lastWithId hosts id := by
  induction hosts using List.reverseRecOn with
  | nil => rfl
  | append_singleton hosts k ih =>
    rw [ofHosts_concat, insertHost, SortedMap.get?_insert, lastWithId, List.reverse_concat,
      List.find?_cons, ih, lastWithId]
    by_cases hid : id = k.id
    · simp [hid]
    · have hne : (k.id == id) = false := by simpa using Ne.symm hid
      rw [if_neg hid, hne]

/-- The index names the last host that came with a machine, whether it stays or not. -/
theorem index_ofHosts_eq (hosts : List (Host α)) (v : VmId) :
    (ofHosts hosts).index.get? v = (lastWith hosts v).map Host.id := by
  induction hosts using List.reverseRecOn with
  | nil => rfl
  | append_singleton hosts k ih =>
    rw [ofHosts_concat, insertHost, SortedMap.get?_foldl_insert, ih, lastWith, lastWith,
      List.reverse_concat, List.find?_cons, SortedMap.contains_eq]
    by_cases hv : v ∈ k.vms.keys
    · rw [if_pos hv, SortedMap.mem_keys_iff.1 hv, Option.map_some]
    · have hlists : (k.vms.get? v).isSome = false := by
        rw [← Bool.not_eq_true, ← SortedMap.mem_keys_iff]
        exact hv
      rw [if_neg hv, hlists]

/-- The first entries that pass two tests are the same when each passes the other test too. -/
theorem find?_eq_of_both {β : Type} {p q : β → Bool} {l : List β} {a b : β}
    (ha : l.find? p = some a) (hb : l.find? q = some b) (hqa : q a = true) (hpb : p b = true) :
    a = b := by
  induction l with
  | nil => simp at ha
  | cons c l ih =>
    rw [List.find?_cons] at ha hb
    cases hp : p c with
    | true =>
      obtain rfl : c = a := by simpa [hp] using ha
      simpa [hqa] using hb
    | false =>
      cases hq : q c with
      | true =>
        obtain rfl : c = b := by simpa [hq] using hb
        rw [hpb] at hp
        exact absurd hp (by simp)
      | false =>
        rw [hp] at ha
        rw [hq] at hb
        exact ih ha hb

/-- A host has a record of a machine when the last host with its id lists it. -/
theorem recordOn_ofHosts_isSome {hosts : List (Host α)} {id : HostId} {v : VmId} :
    ((ofHosts hosts).recordOn id v).isSome = true ↔
      ∃ h, lastWithId hosts id = some h ∧ h.Has v := by
  rw [recordOn, get?_ofHosts_eq]
  cases lastWithId hosts id with
  | none => simp
  | some h => simp [Host.Has]

/-- The index names a host when the last host that came with the machine has that id. -/
theorem index_ofHosts_eq_some {hosts : List (Host α)} {id : HostId} {v : VmId} :
    (ofHosts hosts).index.get? v = some id ↔ ∃ h, lastWith hosts v = some h ∧ h.id = id := by
  rw [index_ofHosts_eq, Option.map_eq_some_iff]

/-- The hosts that stay and list a machine are the last one that came with it, and no other. -/
def Settling (hosts : List (Host α)) : Prop :=
  ∀ v h, lastWith hosts v = some h ↔ lastWithId hosts h.id = some h ∧ h.Has v

theorem Placed.settling {hosts : List (Host α)} (hs : (ofHosts hosts).Placed) : Settling hosts := by
  intro v h
  constructor
  · intro hlast
    have hindex : (ofHosts hosts).index.get? v = some h.id :=
      index_ofHosts_eq_some.2 ⟨h, hlast, rfl⟩
    obtain ⟨k, hstays, hk⟩ := recordOn_ofHosts_isSome.1 (hs.indexed.1 hindex)
    obtain rfl : k = h := find?_eq_of_both hstays hlast hk (by simp)
    exact ⟨hstays, hk⟩
  · rintro ⟨hstays, hv⟩
    have hindex := hs.indexed.2 (recordOn_ofHosts_isSome.2 ⟨h, hstays, hv⟩)
    obtain ⟨k, hlast, hid⟩ := index_ofHosts_eq_some.1 hindex
    obtain rfl : k = h := find?_eq_of_both hlast hstays (by simpa using hid) hv
    exact hlast

theorem Settling.placed {hosts : List (Host α)} (hs : Settling hosts) : (ofHosts hosts).Placed := by
  refine ⟨fun {v id} => ?_, fun {v id} hun => ?_⟩
  · rw [index_ofHosts_eq_some, recordOn_ofHosts_isSome]
    constructor
    · rintro ⟨h, hlast, rfl⟩
      exact ⟨h, (hs v h).1 hlast⟩
    · rintro ⟨h, hstays, hv⟩
      obtain rfl := id_of_lastWithId hstays
      exact ⟨h, (hs v h).2 ⟨hstays, hv⟩, rfl⟩
  · rw [unassigned_ofHosts, SortedMap.get?_empty] at hun
    exact absurd hun (by simp)

/-! ## Hosts with different machines -/

/-- A machine is recorded on the host that comes with it. -/
theorem recordOn_ofHosts {hosts : List (Host α)} (hosts' : Host.Distinct hosts) {h : Host α}
    (hh : h ∈ hosts) {v : VmId} {w : Vm α} (hw : h.vms.get? v = some w) :
    (ofHosts hosts).recordOn h.id v = some w := by
  have hget : (ofHosts hosts).hosts.get? h.id = some h := (get?_ofHosts hosts'.ids).2 ⟨hh, rfl⟩
  rw [recordOn_of_get? hget, hw]

/-- A record on a host came with it. -/
theorem mem_of_recordOn_ofHosts {hosts : List (Host α)} (hosts' : Host.Distinct hosts)
    {id : HostId} {v : VmId} {w : Vm α} (hw : (ofHosts hosts).recordOn id v = some w) :
    ∃ h ∈ hosts, h.id = id ∧ h.vms.get? v = some w := by
  obtain ⟨h, hget, hvm⟩ := Option.bind_eq_some_iff.1 hw
  obtain ⟨hh, hid⟩ := (get?_ofHosts hosts'.ids).1 hget
  exact ⟨h, hh, hid, hvm⟩

/-- The index names the host that comes with a machine. -/
theorem index_ofHosts {hosts : List (Host α)} (hosts' : Host.Distinct hosts) {h : Host α}
    (hh : h ∈ hosts) {v : VmId} {w : Vm α} (hw : h.vms.get? v = some w) :
    (ofHosts hosts).index.get? v = some h.id := by
  have hlisted : h.Has v := Option.isSome_iff_exists.2 ⟨w, hw⟩
  rw [index_ofHosts_eq_some]
  cases hlast : lastWith hosts v with
  | none => exact absurd hlisted (List.find?_eq_none.1 hlast h (List.mem_reverse.2 hh))
  | some k =>
    have hk : k ∈ hosts := List.mem_reverse.1 (List.mem_of_find?_eq_some hlast)
    exact ⟨k, rfl, hosts'.once hk hh (has_of_lastWith hlast) hlisted⟩

/-- A store that is built from hosts with different machines files each of them in one place, under
its own id, whatever the records name. -/
theorem filed_ofHosts {hosts : List (Host α)} (hosts' : Host.Distinct hosts) :
    (ofHosts hosts).Filed := by
  refine ⟨⟨fun {v id} => ⟨fun hindex => ?_, fun hrecord => ?_⟩, fun {v id} hun => ?_⟩,
    fun {id v w} hw => ?_⟩
  · obtain ⟨h, hlast, rfl⟩ := index_ofHosts_eq_some.1 hindex
    have hh : h ∈ hosts := List.mem_reverse.1 (List.mem_of_find?_eq_some hlast)
    obtain ⟨w, hw⟩ := Option.isSome_iff_exists.1 (has_of_lastWith hlast)
    rw [recordOn_ofHosts hosts' hh hw]
    rfl
  · obtain ⟨w, hw⟩ := Option.isSome_iff_exists.1 hrecord
    obtain ⟨h, hh, rfl, hvm⟩ := mem_of_recordOn_ofHosts hosts' hw
    exact index_ofHosts hosts' hh hvm
  · rw [unassigned_ofHosts, SortedMap.get?_empty] at hun
    exact absurd hun (by simp)
  · obtain ⟨h, hh, -, hvm⟩ := mem_of_recordOn_ofHosts hosts' hw
    exact hosts'.filed hh hvm

/-! ## One place for every machine -/

/-- Registering a host keeps every machine in one place exactly when the host brings none that is
stored elsewhere; and a store that is built from a list of hosts has every machine in one place
exactly when the hosts that stay and list a machine are the last one that came with it. -/
theorem placed_registered_iff {s : Store α} (hs : s.Placed) (h : Host α) (hosts : List (Host α)) :
    ((s.addHost h).Placed ↔ s.ClearFor h) ∧ ((ofHosts hosts).Placed ↔ Settling hosts) :=
  ⟨hs.addHost_iff h, Placed.settling, Settling.placed⟩

/-- A host with one machine. -/
def bearer (id : HostId) (v : VmId) : Host Nat :=
  { id, address := "", status := .active, capacity := ⟨4, 4, 4, 4⟩, history := .empty 1
    thresholds := .uniform 0 1
    vms := SortedMap.empty.insert v { Vm.new v ⟨1, 1, 1, 1⟩ 1 with hostId := some id } }

theorem has_bearer (id : HostId) (v u : VmId) : (bearer id v).Has u ↔ u = v := by
  rw [Host.Has, bearer, SortedMap.get?_insert]
  by_cases hu : u = v <;> simp [hu]

theorem filed_bearer (id : HostId) (v : VmId) {u : VmId} {w : Vm Nat}
    (hw : (bearer id v).vms.get? u = some w) : w.id = u ∧ w.hostId = some id := by
  rw [bearer, SortedMap.get?_insert] at hw
  by_cases hu : u = v
  · rw [if_pos hu] at hw
    rw [← Option.some.inj hw, hu]
    exact ⟨rfl, rfl⟩
  · rw [if_neg hu] at hw
    exact absurd hw (by simp)

theorem placed_bearer (id : HostId) (v : VmId) : (ofHosts [bearer id v]).Placed := by
  have hnodup : ([bearer id v].map Host.id).Nodup := by simp
  refine (consistent_ofHosts hnodup ⟨fun hh u w hw => ?_, fun hh hk u _ _ => ?_⟩).placed
  · rw [List.mem_singleton.1 hh] at hw ⊢
    exact filed_bearer id v hw
  · rw [List.mem_singleton.1 hh, List.mem_singleton.1 hk]

theorem placed_registered_iff_of_bearers :
    (ofHosts [bearer "a" "v"]).Placed ∧
      ((ofHosts [bearer "a" "v"]).addHost (bearer "b" "w")).Placed ∧
        ¬(ofHosts [bearer "a" "v", bearer "a" "w"]).Placed := by
  have hs : (ofHosts [bearer "a" "v"]).Placed := placed_bearer "a" "v"
  obtain ⟨hadd, hlist⟩ :=
    placed_registered_iff hs (bearer "b" "w") [bearer "a" "v", bearer "a" "w"]
  refine ⟨hs, hadd.2 fun v hv => ?_, fun hplaced => ?_⟩
  · obtain rfl := (has_bearer "b" "w" v).1 hv
    refine ⟨by rw [unassigned_ofHosts, SortedMap.get?_empty], fun id _ => ?_⟩
    rw [← Option.not_isSome_iff_eq_none, recordOn_ofHosts_isSome]
    rintro ⟨h, hstays, hw⟩
    obtain rfl : h = bearer "a" "v" := by
      simpa using List.mem_of_find?_eq_some hstays
    exact absurd ((has_bearer "a" "v" "w").1 hw) (by decide)
  · -- the index still names "a" for a machine that left with the host that was replaced
    have hstays := (hlist.1 hplaced "v" (bearer "a" "v")).1 (by decide)
    exact absurd hstays.1 (by decide)

/-- A host that brings a machine of another host leaves the copy there: afterwards the machine is
on both, whether the two are registered one after the other or given as a list. -/
theorem placed_lost : (ofHosts [bearer "a" "v"]).Placed ∧
    (∀ u w, (bearer "b" "v").vms.get? u = some w → w.id = u) ∧
      ¬((ofHosts [bearer "a" "v"]).addHost (bearer "b" "v")).Placed ∧
        ¬(ofHosts [bearer "a" "v", bearer "b" "v"]).Placed := by
  have hadded : ∀ id ∈ ["a", "b"],
      (((ofHosts [bearer "a" "v"]).addHost (bearer "b" "v")).recordOn id "v").isSome = true := by
    decide
  have hlisted : ∀ id ∈ ["a", "b"],
      ((ofHosts [bearer "a" "v", bearer "b" "v"]).recordOn id "v").isSome = true := by
    decide
  refine ⟨placed_bearer "a" "v", fun u w hw => (filed_bearer "b" "v" hw).1, fun hs => ?_,
    fun hs => ?_⟩
  · have heq := hs.eq_of_recordOn (hadded "a" (by simp)) (hadded "b" (by simp))
    exact absurd heq (by decide)
  · have heq := hs.eq_of_recordOn (hlisted "a" (by simp)) (hlisted "b" (by simp))
    exact absurd heq (by decide)

end Store

end ClusterControl
