import ClusterControl.Proofs.Program.Requests
import ClusterControl.Proofs.Store.Keyed
import ClusterControl.Proofs.Store.Power

/-!
# What power management asks of the store

While a workflow powers hosts down behind the gate, wake-ups and monitoring go on outside it.

* `Program.AsksOnly` bounds what a program asks of the store, and `Casual.status` says that nothing
  that jobs ask outside the gate changes a passive host, unless it claims the host.
* `Program.Lowers` counts how often a program has made one host passive and has not taken that back.
  `Power.lowers_powerDownIdle` says that this happened at least once to every host that is reported
  as powered down.
-/

namespace ClusterControl

variable {α ρ σ ε : Type}

/-- Powering idle hosts down, waking hosts, and taking samples in. -/
def Job.ChangesPower : Job α → Prop
  | .powerDown .. | .wake _ | .markActive _ | .observe _ | .observeAll _ => True
  | _ => False

/-- What a job may ask outside the gate; only a wake-up claims hosts. -/
def Job.Tends (j : Job α) (q : StoreRequest α) : Prop :=
  Casual j q ∧ ∀ id, q = .transition id .passive .wokenUp → ∃ hosts, j = .wake hosts

/-- A passive host stays passive, or it is claimed. -/
theorem Casual.status {j : Job α} {q : StoreRequest α} (hq : Casual j q) {s : Store α} {id : HostId}
    (hpassive : s.status? id = some .passive) : (q.apply s).2.status? id = some .passive ∨
      q = .transition id .passive .wokenUp ∧ (q.apply s).2.status? id = some .wokenUp := by
  have hkept : (q.apply s).2.status? id = s.status? id →
      (q.apply s).2.status? id = some .passive := fun h => h.trans hpassive
  have hother : ∀ {host next}, ((s.transition host .wokenUp next).2).status? id = s.status? id := by
    intro host next
    rw [Store.status_transition, if_neg]
    rintro ⟨rfl, hwoken⟩
    rw [hpassive] at hwoken
    exact absurd hwoken (by simp)
  cases hq with
  | listHosts | findHost | findVm => exact .inl hpassive
  | setVmStatus vm status code =>
    exact .inl (hkept (Store.status_of_bare (Store.bare_setVmStatus s vm status code id)))
  | removeVm vm => exact .inl (hkept (Store.status_of_bare (Store.bare_removeVm s vm id)))
  | addHostSample host sample => exact .inl (hkept (Store.status_addHostSample s host sample id))
  | addVmSample vm sample =>
    exact .inl (hkept (Store.status_of_bare (Store.bare_addVmSample s vm sample id)))
  | activate | giveUp => exact .inl (hkept hother)
  | claim host =>
    by_cases hid : id = host
    · subst hid
      refine .inr ⟨rfl, ?_⟩
      simp only [StoreRequest.apply]
      rw [Store.status_transition, if_pos ⟨rfl, hpassive⟩]
    · refine .inl (hkept ?_)
      simp only [StoreRequest.apply]
      rw [Store.status_transition, if_neg fun h => hid h.1]

/-! ## Requests outside the gate -/

/-- Whatever answers the program gets, it asks of the store only what satisfies `P`. -/
def Program.AsksOnly (P : StoreRequest α → Prop) : Program α ρ → Prop
  | .done _ => True
  | .call q next => (∀ sq, q = .store sq → P sq) ∧ ∀ r, (next r).AsksOnly P

namespace Program

variable {P : StoreRequest α → Prop}

theorem asksOnly_pure (r : ρ) : (pure r : Program α ρ).AsksOnly P := trivial

theorem AsksOnly.bind {p : Program α ρ} {f : ρ → Program α σ} (hp : p.AsksOnly P)
    (hf : ∀ r, (f r).AsksOnly P) : (p >>= f).AsksOnly P := by
  induction p with
  | done r => exact hf r
  | call q next ih => exact ⟨hp.1, fun r => ih r (hp.2 r)⟩

/-- What follows an answer asks for nothing else either. -/
theorem AsksOnly.next {p : Program α ρ} (h : p.AsksOnly P) {q : Request α}
    {next : q.Answer → Program α ρ} (hp : p = .call q next) (r : q.Answer) :
    (next r).AsksOnly P := by
  subst hp
  exact h.2 r

theorem asksOnly_store {q : StoreRequest α} (hq : P q) : (store q).AsksOnly P := by
  refine ⟨?_, fun _ => trivial⟩
  rintro _ ⟨⟩
  exact hq

/-- What is not asked of the store does not matter. -/
theorem asksOnly_ask {q : Request α} (hq : ∀ sq, q ≠ .store sq) : (ask q).AsksOnly P :=
  ⟨fun sq heq => absurd heq (hq sq), fun _ => trivial⟩

theorem AsksOnly.mono {P' : StoreRequest α → Prop} {p : Program α ρ} (h : p.AsksOnly P)
    (hP : ∀ q, P q → P' q) : p.AsksOnly P' := by
  induction p with
  | done r => trivial
  | call q next ih => exact ⟨fun sq hq => hP sq (h.1 sq hq), fun a => ih a (h.2 a)⟩

theorem AsksOnly.run_bind {p : ExceptT ε (Program α) ρ} {f : ρ → ExceptT ε (Program α) σ}
    (hp : (p.run : Program α (Except ε ρ)).AsksOnly P)
    (hf : ∀ a, ((f a).run : Program α (Except ε σ)).AsksOnly P) :
    ((p >>= f).run : Program α (Except ε σ)).AsksOnly P := by
  refine AsksOnly.bind hp ?_
  rintro (err | a)
  · exact asksOnly_pure _
  · exact hf a

theorem asksOnly_storeOrFail {q : StoreRequest α} (hq : P q) :
    ((storeOrFail q).run : Program α (Except WorkflowError q.Answer)).AsksOnly P := by
  refine (asksOnly_store hq).bind ?_
  rintro (err | a) <;> exact asksOnly_pure _

theorem asksOnly_gated (a : Activity) {body : ExceptT WorkflowError (Program α) ρ}
    (h : (body.run : Program α (Except WorkflowError ρ)).AsksOnly P) :
    (gated a body).AsksOnly P := by
  refine (asksOnly_ask (by simp)).bind ?_
  rintro (_ | _)
  · exact asksOnly_pure _
  · exact h.bind fun _ => (asksOnly_ask (by simp)).bind fun _ => asksOnly_pure _

end Program

open Program in
theorem Power.asksOnly_wakeAll {all : List HostId} (hosts : List HostId) :
    (Power.wakeAll hosts).AsksOnly (Job.wake (α := α) all).Tends := by
  have hone : ∀ host, (Power.wakeOne host).AsksOnly (Job.wake (α := α) all).Tends := by
    intro host
    refine (asksOnly_store ⟨.claim host, fun _ _ => ⟨all, rfl⟩⟩).bind ?_
    rintro (e | _ | _)
    · exact asksOnly_pure _
    · exact asksOnly_pure _
    refine AsksOnly.bind (asksOnly_ask (by simp)) ?_
    rintro (e | r)
    · refine (asksOnly_store ⟨.giveUp (j := .wake all) trivial host, by simp⟩).bind ?_
      rintro (e | r)
      · exact asksOnly_pure _
      · exact (asksOnly_ask (by simp)).bind fun _ => asksOnly_pure _
    · exact (asksOnly_ask (by simp)).bind fun _ =>
        (asksOnly_ask (by simp)).bind fun _ => asksOnly_pure _
  induction hosts with
  | nil => exact asksOnly_pure _
  | cons host rest ih => exact (hone host).bind fun _ => ih.bind fun _ => asksOnly_pure _

open Program in
theorem Monitoring.asksOnly_handle {j : Job α} (o : Observation α) :
    (Monitoring.handle o).AsksOnly j.Tends := by
  have hkeep : (Monitoring.keep o).AsksOnly j.Tends := by
    cases o with
    | host host sample =>
      refine (asksOnly_store ⟨.addHostSample host sample, by simp⟩).bind ?_
      rintro (e | r)
      · exact asksOnly_pure _
      refine AsksOnly.bind (p := Power.markActive host)
        (asksOnly_store ⟨.activate host, by simp⟩) ?_
      rintro (e | r) <;> exact asksOnly_pure _
    | vm vm sample => exact asksOnly_store ⟨.addVmSample vm sample, by simp⟩
  refine hkeep.bind ?_
  rintro (e | r)
  · exact asksOnly_pure _
  · exact (asksOnly_ask (by simp)).bind fun _ =>
      (asksOnly_ask (by simp)).bind fun _ => asksOnly_pure _

open Program in
theorem Monitoring.asksOnly_handleAll {j : Job α} (l : List (Observation α)) :
    (Monitoring.handleAll l).AsksOnly j.Tends := by
  induction l with
  | nil => exact asksOnly_pure _
  | cons o rest ih =>
    exact (asksOnly_handle o).bind fun _ => ih.bind fun _ => asksOnly_pure _

/-- Wake-ups and monitoring ask the store for nothing else. -/
theorem Job.asksOnly_program [Quantity α] (c : Settings α) {j : Job α} (hj : j.ChangesPower)
    (hfree : ∀ reserved action, j ≠ .powerDown reserved action) :
    (j.program c).AsksOnly j.Tends := by
  cases j with
  | powerDown reserved action => exact absurd rfl (hfree reserved action)
  | wake hosts =>
    refine (Power.asksOnly_wakeAll hosts).bind ?_
    rintro (_ | _) <;> exact Program.asksOnly_pure _
  | markActive host => exact Program.asksOnly_store ⟨.activate host, by simp⟩
  | observe o => exact Monitoring.asksOnly_handle o
  | observeAll l => exact Monitoring.asksOnly_handleAll l
  | _ => exact hj.elim

/-! ## Requests behind the gate -/

/-- The program has made a host passive `n` times without taking it back, and asks for something;
`R` holds of the answer and of how often it is then. -/
def Request.Lowers (id : HostId) (n : Nat) : (q : Request α) → (Nat → q.Answer → Prop) → Prop
  | .store (.listHosts ..), R => ∀ r, R n r
  | .store (.transition target .active .passive), R =>
    R (if target = id then n + 1 else n) (.ok true) ∧ ∀ r, r ≠ .ok true → R n r
  | .store (.transition target .passive .active), R => ∀ r, R (if target = id then n - 1 else n) r
  | .store _, _ => False
  | _, R => ∀ r, R n r

/-- A program that powers hosts down has made one host passive `n` times without taking it back, and
`Q` holds of the result and of how often it is in the end. -/
def Program.Lowers (id : HostId) : Program α ρ → Nat → (Nat → ρ → Prop) → Prop
  | .done r, n, Q => Q n r
  | .call q next, n, Q => q.Lowers id n fun m a => (next a).Lowers id m Q

/-- What a program that powers hosts down asks of the store. -/
theorem Request.Lowers.store_cases {id : HostId} {n : Nat} {q : StoreRequest α}
    {R : Nat → Except StoreError q.Answer → Prop} (h : (Request.store q).Lowers id n R) :
    (∃ entries excludePassive monitoring, q = .listHosts entries excludePassive monitoring) ∨
      (∃ host, q = .transition host .active .passive) ∨
        ∃ host, q = .transition host .passive .active := by
  cases q with
  | listHosts entries excludePassive monitoring => exact .inl ⟨_, _, _, rfl⟩
  | transition host expected next =>
    cases expected <;> cases next <;>
      first
        | exact .inr (.inl ⟨host, rfl⟩)
        | exact .inr (.inr ⟨host, rfl⟩)
        | exact h.elim
  | _ => exact h.elim

/-- A request to somebody else changes nothing about that. -/
theorem Request.lowers_other {id : HostId} {n : Nat} {q : Request α} (hq : ∀ sq, q ≠ .store sq)
    {R : Nat → q.Answer → Prop} : q.Lowers id n R ↔ ∀ r, R n r := by
  cases q with
  | store sq => exact absurd rfl (hq sq)
  | _ => exact Iff.rfl

theorem Request.Lowers.mono {id : HostId} {n : Nat} {q : Request α} {R R' : Nat → q.Answer → Prop}
    (h : q.Lowers id n R) (hR : ∀ m a, R m a → R' m a) : q.Lowers id n R' := by
  by_cases hq : ∃ sq, q = .store sq
  · obtain ⟨sq, rfl⟩ := hq
    obtain ⟨_, _, _, rfl⟩ | ⟨host, rfl⟩ | ⟨host, rfl⟩ := h.store_cases
    · exact fun r => hR _ _ (h r)
    · exact ⟨hR _ _ h.1, fun r hr => hR _ _ (h.2 r hr)⟩
    · exact fun r => hR _ _ (h r)
  · have hq : ∀ sq, q ≠ .store sq := fun sq heq => hq ⟨sq, heq⟩
    rw [Request.lowers_other hq] at h ⊢
    exact fun r => hR _ _ (h r)

namespace Program

variable {id : HostId} {n : Nat}

theorem Lowers.mono {p : Program α ρ} {Q Q' : Nat → ρ → Prop} (h : p.Lowers id n Q)
    (hQ : ∀ m r, Q m r → Q' m r) : p.Lowers id n Q' := by
  induction p generalizing n with
  | done r => exact hQ _ _ h
  | call q next ih => exact Request.Lowers.mono h fun _ a ha => ih a ha

theorem lowers_bind {p : Program α ρ} {f : ρ → Program α σ} {Q : Nat → σ → Prop} :
    (p >>= f).Lowers id n Q ↔ p.Lowers id n fun m r => (f r).Lowers id m Q := by
  induction p generalizing n with
  | done r => exact Iff.rfl
  | call q next ih =>
    constructor
    · exact fun h => Request.Lowers.mono h fun _ a ha => (ih a).1 ha
    · exact fun h => Request.Lowers.mono h fun _ a ha => (ih a).2 ha

theorem lowers_host {q : HostRequest α} {Q : Nat → Except ControlError q.Answer → Prop} :
    (host q).Lowers id n Q ↔ ∀ r, Q n r := Iff.rfl

theorem lowers_event {e : Event α} {Q : Nat → Unit → Prop} :
    (event e).Lowers id n Q ↔ ∀ u, Q n u := Iff.rfl

theorem lowers_count {series : Series} {m : Nat} {Q : Nat → Unit → Prop} :
    (count (α := α) series m).Lowers id n Q ↔ ∀ u, Q n u := Iff.rfl

/-- A workflow that powers hosts down; nothing is said about its errors. -/
def LowersOrFails (id : HostId) (x : ExceptT ε (Program α) ρ) (n : Nat) (Q : Nat → ρ → Prop) :
    Prop :=
  Lowers id (x.run : Program α (Except ε ρ)) n fun m r => ∀ a, r = .ok a → Q m a

theorem lowersOrFails_pure {r : ρ} {Q : Nat → ρ → Prop} (h : Q n r) :
    LowersOrFails id (pure r : ExceptT ε (Program α) ρ) n Q := by
  rintro a ⟨⟩
  exact h

theorem LowersOrFails.bind {x : ExceptT ε (Program α) ρ} {f : ρ → ExceptT ε (Program α) σ}
    {Q : Nat → σ → Prop} (h : LowersOrFails id x n fun m r => LowersOrFails id (f r) m Q) :
    LowersOrFails id (x >>= f) n Q := by
  refine lowers_bind.2 (Lowers.mono h ?_)
  rintro m (e | r) hr
  · exact fun a ha => absurd ha (by simp)
  · exact hr r rfl

theorem LowersOrFails.lift {p : Program α ρ} {f : ρ → ExceptT ε (Program α) σ} {Q : Nat → σ → Prop}
    (h : p.Lowers id n fun m r => LowersOrFails id (f r) m Q) :
    LowersOrFails id (ExceptT.lift p >>= f) n Q := by
  refine LowersOrFails.bind (lowers_bind.2 (h.mono ?_))
  rintro m r hr _ ⟨⟩
  exact hr

theorem LowersOrFails.mono {x : ExceptT ε (Program α) ρ} {Q Q' : Nat → ρ → Prop}
    (h : LowersOrFails id x n Q) (hQ : ∀ m r, Q m r → Q' m r) : LowersOrFails id x n Q' :=
  Lowers.mono h fun _ _ hr a ha => hQ _ _ (hr a ha)

/-- The store is asked, and its errors end the workflow. -/
theorem lowersOrFails_storeOrFail {q : StoreRequest α} {Q : Nat → q.Answer → Prop}
    (h : (Request.store q).Lowers id n fun m r => ∀ a, r = .ok a → Q m a) :
    LowersOrFails id (storeOrFail q) n Q := by
  refine lowers_bind.2 (Request.Lowers.mono h ?_)
  rintro m (e | a) hr
  · rintro a ⟨⟩
  · rintro _ ⟨⟩
    exact hr a rfl

end Program

namespace Power

open Program

variable {id : HostId} {n : Nat}

/-- A host that is powered down has been made passive, and one that is not is left as it was. -/
theorem lowers_powerDownOne (action : PowerAction) (host : HostId) :
    LowersOrFails id (powerDownOne (α := α) action host) n fun m down =>
      m = n + (if down then [host] else []).count id := by
  refine LowersOrFails.bind (lowersOrFails_storeOrFail ⟨?_, ?_⟩)
  · rintro _ ⟨⟩
    refine LowersOrFails.lift (lowers_host.2 ?_)
    rintro (e | r)
    · refine LowersOrFails.bind (lowersOrFails_storeOrFail fun r a _ => ?_)
      refine LowersOrFails.lift (lowers_event.2 fun _ => lowersOrFails_pure ?_)
      by_cases hid : host = id <;> simp [hid]
    · refine LowersOrFails.lift (lowers_count.2 fun _ => ?_)
      refine LowersOrFails.lift (lowers_event.2 fun _ => lowersOrFails_pure ?_)
      by_cases hid : host = id <;> simp [hid]
  · rintro r hr (_ | _) rfl
    · exact lowersOrFails_pure (by simp)
    · exact absurd rfl hr

theorem lowers_powerDownAll (action : PowerAction) (hosts : List HostId) :
    LowersOrFails id (powerDownAll (α := α) action hosts) n fun m down =>
      m = n + down.count id := by
  induction hosts generalizing n with
  | nil => exact lowersOrFails_pure (by simp)
  | cons host rest ih =>
    refine LowersOrFails.bind ((lowers_powerDownOne action host).mono ?_)
    rintro m down rfl
    refine LowersOrFails.bind (ih.mono ?_)
    rintro _ others rfl
    refine lowersOrFails_pure ?_
    cases down with
    | true =>
      simp only [if_true, List.count_cons, List.count_nil]
      omega
    | false => simp

/-- Every host that is reported as powered down has been made passive, and not because of what came
before. -/
theorem lowers_powerDownIdle (reserved : Nat) (action : PowerAction) :
    (powerDownIdle (α := α) reserved action).Lowers id 0 fun n r =>
      ∀ hosts, r = .ok hosts → id ∈ hosts → 0 < n := by
  have hbody : LowersOrFails id (do
      let hosts ← storeOrFail (.listHosts 0 true false)
      powerDownAll (α := α) action (((hosts.filter isIdle).drop reserved).map Host.id)) 0
        fun n hosts => id ∈ hosts → 0 < n := by
    refine LowersOrFails.bind (lowersOrFails_storeOrFail fun r hosts _ => ?_)
    refine (lowers_powerDownAll action _).mono ?_
    rintro m down rfl hmem
    rw [Nat.zero_add]
    exact List.count_pos_iff.2 hmem
  refine lowers_bind.2 ?_
  rintro (_ | _)
  · rintro hosts ⟨⟩
  · refine lowers_bind.2 (Lowers.mono hbody ?_)
    rintro m r hr _ hosts rfl
    exact hr hosts rfl

end Power

/-- The job reports the host as powered down. -/
def Job.Reports (id : HostId) : (j : Job α) → j.Result → Prop
  | .powerDown .., r => ∃ hosts, r = .ok hosts ∧ id ∈ hosts
  | _, _ => False

/-- A job has made every host passive that it reports as powered down. -/
theorem Job.lowers_program [Quantity α] (c : Settings α) (id : HostId) (reserved : Nat)
    (action : PowerAction) : ((Job.powerDown reserved action).program c).Lowers id 0 fun n r =>
      (Job.powerDown (α := α) reserved action).Reports id r → 0 < n := by
  refine (Power.lowers_powerDownIdle reserved action).mono ?_
  rintro n r hr ⟨hosts, rfl, hmem⟩
  exact hr hosts rfl hmem

end ClusterControl
