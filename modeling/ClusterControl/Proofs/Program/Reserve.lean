import ClusterControl.Proofs.Program.Alone
import ClusterControl.Proofs.Program.Chronicle
import ClusterControl.Proofs.Store.Keyed
import ClusterControl.Proofs.Store.Switches

/-!
# Powering down all but a reserve

The idle hosts beyond a reserve are claimed and asked to power down, one after the other; where one
does not, the claim is taken back.

* `Store.idle` are the idle hosts in the order of their ids, as `Store.sorted_idle` and
  `Store.mem_idle` say.
* `PowerDown` is a request to power down with the answer to it; `Power.yields_powerDownAll` says
  what a series of them leaves in the store.
* `Power.Lowered` says which hosts are asked and that no error comes of it, as
  `Power.yields_powerDownIdle` proves.
-/

namespace ClusterControl

variable {α : Type} {e : Engine} {g : Chronicle α} {s t : Store α}

/-! ## Idle hosts -/

namespace Store

/-- The ids of the idle hosts, as the store lists them: active ones without machines. -/
def idle (s : Store α) : List HostId := (s.hosts.values.filter Power.isIdle).map Host.id

theorem isIdle_trim (h : Host α) (n : Nat) : Power.isIdle (h.trim n) = Power.isIdle h := by
  have hvms : (h.trim n).hasVms = h.hasVms := congrArg (!·) (List.isEmpty_map ..)
  rw [Power.isIdle, Power.isIdle, hvms]
  rfl

/-- The listing that leaves passive hosts out shows every idle one, and no sample. -/
theorem idle_hostList (s : Store α) :
    ((s.hostList 0 true false).filter Power.isIdle).map Host.id = s.idle := by
  have htrim : (Power.isIdle ∘ fun h : Host α => h.trim 0) = Power.isIdle :=
    funext fun h => isIdle_trim h 0
  have hids : (Host.id ∘ fun h : Host α => h.trim 0) = Host.id := rfl
  have hpassive : ∀ h : Host α, (Power.isIdle h && !(true && h.isPassive)) = Power.isIdle h := by
    intro h
    rw [Power.isIdle, Host.isPassive]
    cases h.status <;> simp
  simp only [hostList, Bool.false_eq_true, if_false, List.filter_map, List.map_map, htrim, hids,
    List.filter_filter, hpassive]
  rfl

theorem mem_idle (hs : s.Keyed) {id : HostId} :
    id ∈ s.idle ↔ s.status? id = some .active ∧ s.Empties id := by
  simp only [idle, List.mem_map, List.mem_filter, SortedMap.mem_values_iff]
  constructor
  · rintro ⟨h, ⟨⟨k, hget⟩, hidle⟩, rfl⟩
    obtain ⟨hactive, hvms⟩ := Bool.and_eq_true_iff.1 hidle
    obtain rfl := hs hget
    exact ⟨by rw [status?, hget, Option.map_some, beq_iff_eq.1 hactive],
      (empties_iff hget).2 (by simpa using hvms)⟩
  · rintro ⟨hactive, hempty⟩
    obtain ⟨h, hget, hstatus⟩ := Option.map_eq_some_iff.1 hactive
    refine ⟨h, ⟨⟨id, hget⟩, ?_⟩, hs hget⟩
    rw [Power.isIdle, hstatus, (empties_iff hget).1 hempty]
    rfl

/-- Idle hosts are listed by their ids, lowest first. -/
theorem sorted_idle (hs : s.Keyed) : s.idle.Pairwise (· < ·) :=
  hs.sorted_values.sublist (List.filter_sublist.map Host.id)

theorem nodup_idle (hs : s.Keyed) : s.idle.Nodup := (sorted_idle hs).imp String.ne_of_lt

end Store

/-! ## Requests to power down -/

/-- A host was asked to power down, and this is its answer. -/
structure PowerDown where
  host : HostId
  answer : Except ControlError Unit

namespace PowerDown

def succeeded (d : PowerDown) : Bool := d.answer.isOk

/-- The request, and the answer behind it. -/
def exchanges (action : PowerAction) (d : PowerDown) : List Exchange :=
  [.asked (.powerDown d.host action), .answered (.done d.answer)]

/-- The hosts that powered down. -/
def down (l : List PowerDown) : List HostId := (l.filter succeeded).map host

theorem down_append (l k : List PowerDown) : down (l ++ k) = down l ++ down k := by simp [down]

theorem down_cons (d : PowerDown) (l : List PowerDown) :
    down (d :: l) = if d.succeeded then d.host :: down l else down l := by
  rw [down, List.filter_cons]
  cases d.succeeded <;> rfl

theorem sublist_down (l : List PowerDown) : (down l).Sublist (l.map host) :=
  List.filter_sublist.map host

end PowerDown

/-- What a chronicle is after a series of requests to power down that left the store `u`. -/
def Chronicle.lowered (g : Chronicle α) (action : PowerAction) (l : List PowerDown) (u : Store α) :
    Chronicle α :=
  { g with store := u, log := g.log ++ l.flatMap (PowerDown.exchanges action) }

theorem Chronicle.lowered_nil (g : Chronicle α) (action : PowerAction) :
    g.lowered action [] g.store = g := by
  rw [lowered, List.flatMap_nil, List.append_nil]

theorem Chronicle.lowered_lowered (g : Chronicle α) (action : PowerAction) (l k : List PowerDown)
    (t u : Store α) : (g.lowered action l t).lowered action k u = g.lowered action (l ++ k) u := by
  simp only [lowered, List.flatMap_append, List.append_assoc]

namespace Power

/-- An active host is powered down, or it is as it was. -/
theorem yields_powerDownOne {host : HostId} (action : PowerAction) (hbefore : g.launched = false)
    (h : g.store.status? host = some .active) :
    ((powerDownOne action host).run : Program α (Except WorkflowError Bool)).Yields e g
      fun g' r => ∃ (d : PowerDown) (u : Store α), g' = g.lowered action [d] u ∧ d.host = host ∧
        r = .ok d.succeeded ∧ g.store.Switches .active .passive u (PowerDown.down [d]) := by
  obtain ⟨t, hclaim, hswitches, hback⟩ := Store.switches_transition h .passive
  unfold powerDownOne
  refine Program.yields_run_store hclaim ?_
  rw [if_pos rfl]
  refine Program.yields_run_lift (Program.yields_powerDown hbefore ?_)
  rintro (err | _)
  · have hundo : (StoreRequest.transition host .passive .active).apply t = (.ok true, g.store) :=
      hback
    refine Program.yields_run_store hundo ?_
    refine Program.yields_run_lift (Program.yields_event.2 (Program.yields_pure.2 ?_))
    exact ⟨⟨host, .error err⟩, g.store, rfl, rfl, rfl, .refl _ _ g.store⟩
  · refine Program.yields_run_lift (Program.yields_count.2 ?_)
    refine Program.yields_run_lift (Program.yields_event.2 (Program.yields_pure.2 ?_))
    exact ⟨⟨host, .ok ()⟩, t, rfl, rfl, rfl, hswitches⟩

/-- Active hosts are asked to power down one after the other, each once. -/
theorem yields_powerDownAll {hosts : List HostId} (action : PowerAction)
    (hbefore : g.launched = false) (hnodup : hosts.Nodup)
    (h : ∀ host ∈ hosts, g.store.status? host = some .active) :
    ((powerDownAll action hosts).run : Program α (Except WorkflowError (List HostId))).Yields e g
      fun g' r => ∃ (l : List PowerDown) (u : Store α), g' = g.lowered action l u ∧
        l.map PowerDown.host = hosts ∧ r = .ok (PowerDown.down l) ∧
          g.store.Switches .active .passive u (PowerDown.down l) := by
  induction hosts generalizing g with
  | nil =>
    exact Program.yields_pure.2 ⟨[], g.store, (g.lowered_nil action).symm, rfl, rfl, .refl _ _ _⟩
  | cons host rest ih =>
    obtain ⟨hfirst, hrest⟩ := List.forall_mem_cons.1 h
    obtain ⟨hnot, hdistinct⟩ := List.nodup_cons.1 hnodup
    refine Program.yields_run_bind ((yields_powerDownOne action hbefore hfirst).mono ?_)
    rintro _ _ ⟨d, t, rfl, rfl, rfl, hone⟩
    refine ⟨?_, by simp⟩
    rintro _ ⟨⟩
    -- no host is asked twice, so those that are still to come are as active as before
    have hactive : ∀ k ∈ rest, t.status? k = some .active := by
      intro k hk
      have hne : k ∉ PowerDown.down [d] := fun hmem =>
        hnot (List.mem_singleton.1 ((PowerDown.sublist_down [d]).subset hmem) ▸ hk)
      rw [hone.status, if_neg hne]
      exact hrest k hk
    have hmore := ih (g := g.lowered action [d] t) hbefore hdistinct hactive
    refine Program.yields_run_bind (hmore.mono ?_)
    rintro _ _ ⟨l, u, rfl, rfl, rfl, hothers⟩
    refine ⟨?_, by simp⟩
    rintro _ ⟨⟩
    have hall := hone.trans (by simp) hothers
    rw [← PowerDown.down_append] at hall
    refine Program.yields_pure.2 ⟨d :: l, u, g.lowered_lowered action [d] l t u, rfl, ?_, hall⟩
    rw [PowerDown.down_cons]

/-- From the chronicle `g`, powering down all idle hosts but the first `reserved` has come to `g'`:
each idle host beyond the reserve was asked, and no other host was; those that powered down are
reported and passive, and nothing else has changed. -/
def Lowered (g : Chronicle α) (reserved : Nat) (action : PowerAction) (g' : Chronicle α)
    (r : Except WorkflowError (List HostId)) : Prop :=
  ∃ (l : List PowerDown) (u : Store α), g' = g.lowered action l u ∧
    l.map PowerDown.host = g.store.idle.drop reserved ∧ r = .ok (PowerDown.down l) ∧
      g.store.Switches .active .passive u (PowerDown.down l)

theorem yields_powerDownIdle (hs : g.store.Keyed) (hopen : g.busy = false)
    (hbefore : g.launched = false) (reserved : Nat) (action : PowerAction) :
    (powerDownIdle reserved action).Yields e g (Lowered g reserved action) := by
  refine Program.yields_gated hopen (Program.yields_run_store rfl ?_)
  rw [List.map_drop, Store.idle_hostList]
  have hnodup := (Store.nodup_idle hs).sublist (List.drop_sublist reserved _)
  have hall := yields_powerDownAll (e := e) (g := { g with busy := true }) action hbefore hnodup
    fun host hhost => ((Store.mem_idle hs).1 (List.mem_of_mem_drop hhost)).1
  refine hall.mono ?_
  rintro _ r ⟨l, u, rfl, hhosts, rfl, hswitches⟩
  refine ⟨l, u, ?_, hhosts, rfl, hswitches⟩
  rw [Chronicle.lowered, Chronicle.lowered, ← hopen]

variable [Quantity α] {c : Settings α}

theorem ends_powerDownOne (action : PowerAction) (host : HostId) :
    ((powerDownOne action host).run : Program α (Except WorkflowError Bool)).Ends c := by
  refine (Program.ends_storeOrFail _).run_bind ?_
  rintro (_ | _)
  · exact Program.ends_pure _
  refine (Program.ends_run_lift (Program.ends_ask (by simp))).run_bind ?_
  rintro (err | _)
  · refine (Program.ends_storeOrFail _).run_bind fun _ => ?_
    exact (Program.ends_run_lift (Program.ends_ask (by simp))).run_bind fun _ =>
      Program.ends_pure _
  · exact (Program.ends_run_lift (Program.ends_ask (by simp))).run_bind fun _ =>
      (Program.ends_run_lift (Program.ends_ask (by simp))).run_bind fun _ => Program.ends_pure _

theorem ends_powerDownAll (action : PowerAction) (hosts : List HostId) :
    ((powerDownAll action hosts).run : Program α (Except WorkflowError (List HostId))).Ends c := by
  induction hosts with
  | nil => exact Program.ends_pure _
  | cons host rest ih =>
    exact (ends_powerDownOne action host).run_bind fun _ => ih.run_bind fun _ => Program.ends_pure _

theorem ends_powerDownIdle (reserved : Nat) (action : PowerAction) :
    (powerDownIdle (α := α) reserved action).Ends c :=
  Program.ends_gated ((Program.ends_storeOrFail _).run_bind fun _ => ends_powerDownAll action _)

end Power

end ClusterControl
