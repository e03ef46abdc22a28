import ClusterControl.Proofs.Controller.Chronicle
import ClusterControl.Proofs.Controller.Outcomes
import ClusterControl.Proofs.Program.Resolutions

/-!
# What resolutions leave behind

A resolution that runs while no other operation does either carries its plan out or leaves the
cluster as it was, but for hosts that it woke.

* `Resolution.GivenUp` is what a resolution leaves that is given up: nothing was migrated, no
  machine has changed, and the hosts that woke up when they were asked to are awake.
* `Resolution.CarriedOut` is what a resolution leaves that succeeds: the passive destinations of the
  plan were woken, each once, before anything was migrated, and no other host was.
* `Controller.resolution_leaves` says that every resolution leaves one or the other, on every store
  that can come about and whatever the hosts answer.
-/

namespace ClusterControl

variable {α : Type}

/-- Wake-ups are not migrations. -/
theorem Waking.not_mem_exchanges (l : List Waking) (m : Migration) :
    Exchange.asked (.migrate m) ∉ l.flatMap Waking.exchanges := by
  intro hmem
  obtain ⟨w, -, hw⟩ := List.mem_flatMap.1 hmem
  simp [exchanges] at hw

variable [Quantity α]

namespace Resolution

/-- A resolution found the store `s` and was given up with `err`; it leaves the store `s'` and a
phase, and the log is what passed between the controller and the hosts. -/
structure GivenUp (c : Settings α) (s : Store α) (host : HostId) (state : LoadState) (s' : Store α)
    (phase : ResolutionPhase) (log : List Exchange) (err : ResolutionError) : Prop where
  phase : phase = .idle
  /-- There is a reason in the store, or hosts that did not wake up. -/
  excuse : Excuses c s host state err
  /-- The hosts that the plan needs woken were asked to wake up, if it came that far, and nothing
  else was asked of anybody; those that did wake up have another status, and nothing else has
  changed in the store. -/
  wakings : ∃ wakings : List Waking, Tried c s host state wakings err ∧
    log = wakings.flatMap Waking.exchanges ∧ s.Wakes s' (Waking.woken wakings)
  unmigrated : ∀ m, Exchange.asked (.migrate m) ∉ log
  machines : ∀ v, s.SameOf s' v
  /-- The hosts that did not wake up are passive as before. -/
  asleep : ∀ failed, err = .wakeupFailed failed → ∀ id ∈ failed, s'.status? id = some .passive

/-- A resolution found the store `s` and succeeded with the report `r`. -/
structure CarriedOut (c : Settings α) (s : Store α) (host : HostId) (state : LoadState)
    (s' : Store α) (log : List Exchange) (r : ResolutionReport) : Prop where
  planned : plan? c s host state = some r.plan
  /-- The hosts that were woken are the passive ones among the destinations of the plan. -/
  woken : ∀ id, id ∈ r.woken ↔ id ∈ r.plan.destinations ∧ s.status? id = some .passive
  once : r.woken.Nodup
  /-- First they were asked to wake up, and did; what was asked for after that carries plans
  out. -/
  log : ∃ calls : List HostCall, (∀ call ∈ calls, call.Enforces) ∧
    log = (r.woken.map Waking.granted).flatMap Waking.exchanges ++ calls.map .asked
  power : ∀ id, s'.status? id = if id ∈ r.woken then some .wokenUp else s.status? id

/-- What a resolution leaves that found the store `s`. -/
def Leaves (c : Settings α) (s : Store α) (host : HostId) (state : LoadState) (s' : Store α)
    (phase : ResolutionPhase) (log : List Exchange) :
    Except ResolutionError ResolutionReport → Prop
  | .error err => GivenUp c s host state s' phase log err
  | .ok r => CarriedOut c s host state s' log r

/-- A resolution leaves what it came to, with a transcript that goes on with requests of the engine
if a plan was handed over. -/
theorem Comes.leaves {c : Settings α} {s : Store α} {host : HostId} {state : LoadState}
    {g : Chronicle α} {x : Except ResolutionError ResolutionReport}
    (h : Comes c s host state g x) (hidle : ∀ err, x = .error err → g.phase = .idle)
    {calls : List HostCall} (hcalls : ∀ call ∈ calls, call.Enforces)
    (hbefore : g.launched = false → calls = []) :
    Leaves c s host state g.store g.phase (g.log ++ calls.map .asked) x := by
  cases x with
  | error err =>
    obtain ⟨wakings, hgiven⟩ := h
    -- what is given up was not handed over, so the engine has asked for nothing
    have hlog : g.log ++ calls.map .asked = wakings.flatMap Waking.exchanges := by
      rw [hbefore hgiven.launched, List.map_nil, List.append_nil, hgiven.log]
    refine ⟨hidle err rfl, hgiven.excuse, ⟨wakings, hgiven.tried, hlog, hgiven.wakes⟩, ?_,
      hgiven.wakes.sameOf, ?_⟩
    · rw [hlog]
      exact Waking.not_mem_exchanges wakings
    · rintro failed rfl id hid
      obtain ⟨rfl, plan, -, hhosts⟩ := hgiven.tried
      have hnodup : (wakings.map Waking.host).Nodup := by
        rw [hhosts]
        exact plan.nodup_asleep s
      rw [hgiven.wakes.status, if_neg (Waking.not_mem_woken hnodup hid)]
      exact hgiven.excuse.2 id hid
  | ok r =>
    refine ⟨h.planned, fun id => ?_, ?_, ⟨calls, hcalls, by rw [h.log]⟩, h.power⟩
    · rw [h.woken]
      exact MigrationPlan.mem_asleep
    · rw [h.woken]
      exact r.plan.nodup_asleep s

end Resolution

namespace Controller

/-- A resolution that begins while no other operation runs, with the gate open and no watch under
way, leaves one or the other, whatever the store is and whatever the hosts answer. -/
theorem resolution_leaves {s s₁ s₂ : Controller α} (hmade : s.store.Made) (hopen : s.busy = false)
    {j : Job α} {e : Engine} {host : HostId} {state : LoadState}
    (hj : j.resolution? = some (e, host, state)) (hover : (s.enforcement e).Over)
    (hbegin : s.begin j = some s₁) {moves : List (Move α)}
    (hmoves : ∀ m ∈ moves, m.Serves e s.tasks.length) (hreplay : s₁.replay moves = some s₂)
    {r : j.Result} (hreturns : s₂.Returns s.tasks.length j r) :
    ∃ x, j.Answers r x ∧ Resolution.Leaves s.settings s.store host state s₂.store
      (s₂.bench e).phase (s₁.transcript moves) x := by
  have hyields := Job.yields_program (c := s.settings) (g := s.chronicle e [] false) hj
    hmade.keyed hopen rfl rfl
  -- the task starts with nothing on its log, and ends where its program does
  have htells : s₁.Tells e s.tasks.length (fun g j r => ∃ x, j.Answers r x ∧
      Resolution.Comes s.settings s.store host state g x ∧
        ∀ err, x = .error err → g.phase = .idle) [] := tells_of_begin hbegin hover hyields
  obtain ⟨issued, batch, hget⟩ := hreturns
  obtain ⟨base, calls, launched, ⟨x, hanswers, hcomes, hidle⟩, hlog, hcalls, hbefore⟩ :=
    (htells.replay hmoves hreplay).finished hget rfl
  refine ⟨x, hanswers, ?_⟩
  have hleaves := hcomes.leaves hidle hcalls hbefore
  rw [List.nil_append] at hlog
  rw [hlog]
  exact hleaves

theorem made_crowded : crowded.Made := by
  have hnone : (Store.empty : Store ℚ).Made := .ofHosts []
  have hboth := (hnone.addHost (.new "a" ⟨3, 3, 3, 3⟩ 1)).addHost (.new "b" ⟨8, 8, 8, 8⟩ 1)
  have hhosts := hboth.addHost ((Host.new "p" ⟨8, 8, 8, 8⟩ 1).withStatus .passive)
  exact ((hhosts.addVm _).addVm _).addVm _

theorem serves_oneLate : ∀ m ∈ oneLate, m.Serves .own 0 := by
  simp [oneLate, Move.Serves]

/-- A busy host with two machines that both have to leave, and two passive hosts with room for one
each. -/
def twoAsleep : Store ℚ :=
  let busy : Store ℚ := Store.empty.addHost (.new "b" ⟨8, 8, 8, 8⟩ 1)
  let one := busy.addHost ((Host.new "p" ⟨3, 3, 3, 3⟩ 1).withStatus .passive)
  let hosts := one.addHost ((Host.new "q" ⟨3, 3, 3, 3⟩ 1).withStatus .passive)
  let v := ((Vm.new "v" ⟨2, 2, 2, 2⟩ 1).observe ⟨0, ⟨8, 8, 8, 8⟩⟩).on "b"
  let w := ((Vm.new "w" ⟨2, 2, 2, 2⟩ 1).observe ⟨0, ⟨8, 8, 8, 8⟩⟩).on "b"
  ((hosts.addVm v).2.addVm w).2

theorem made_twoAsleep : twoAsleep.Made := by
  have hnone : (Store.empty : Store ℚ).Made := .ofHosts []
  have hbusy := hnone.addHost (.new "b" ⟨8, 8, 8, 8⟩ 1)
  have hone := hbusy.addHost ((Host.new "p" ⟨3, 3, 3, 3⟩ 1).withStatus .passive)
  have hhosts := hone.addHost ((Host.new "q" ⟨3, 3, 3, 3⟩ 1).withStatus .passive)
  exact (hhosts.addVm _).addVm _

/-- The first passive host wakes up, and the other one refuses to. -/
def oneRefused : List (Move ℚ) :=
  List.replicate 6 (.run 0) ++ [.answer 0 (.done (.ok ()))] ++ List.replicate 4 (.run 0) ++
    [.answer 0 (.done (.error (.rejected "q" "no power")))] ++ List.replicate 4 (.run 0)

theorem serves_oneRefused : ∀ m ∈ oneRefused, m.Serves .trial 0 := by
  simp [oneRefused, Move.Serves]

/-- Why a resolution on trial was given up, with what it was asked to resolve. -/
def givenUp : Task ℚ → Option (HostId × LoadState × ResolutionError × ResolutionPhase)
  | ⟨.tryResolve host state, .done (.error e, phase), _, _⟩ => some (host, state, e, phase)
  | _ => none

theorem exists_of_givenUp {s : Controller ℚ} {host : HostId} {state : LoadState}
    {moves : List (Move ℚ)} {err : ResolutionError} {phase : ResolutionPhase}
    (h : (s.replayed (.tryResolve host state) moves).bind givenUp =
      some (host, state, err, phase)) :
    ∃ s₁ s₂, s.begin (.tryResolve host state) = some s₁ ∧ s₁.replay moves = some s₂ ∧
      s₂.Returns 0 (.tryResolve host state) (.error err, phase) := by
  obtain ⟨task, htask, hread⟩ := Option.bind_eq_some_iff.1 h
  obtain ⟨s₁, s₂, hbegin, hreplay, hget⟩ := exists_of_replayed htask
  unfold givenUp at hread
  split at hread
  · cases hread
    exact ⟨s₁, s₂, hbegin, hreplay, _, _, hget⟩
  · exact absurd hread (by simp)

theorem resolution_leaves_of_twoAsleep :
    (∃ s₁ s₂, (start .standard twoAsleep).begin (.tryResolve "b" .overloaded) = some s₁ ∧
      s₁.replay oneRefused = some s₂ ∧ Resolution.GivenUp .standard twoAsleep "b" .overloaded
        s₂.store (s₂.bench .trial).phase (s₁.transcript oneRefused) (.wakeupFailed ["q"])) ∧
    ∃ s₁ s₂ report, (start .standard crowded).begin (.resolve "b" .overloaded) = some s₁ ∧
      s₁.replay oneLate = some s₂ ∧ report.woken = ["p"] ∧
        Resolution.CarriedOut .standard crowded "b" .overloaded s₂.store (s₁.transcript oneLate)
          report := by
  constructor
  · have hend : ((start .standard twoAsleep).replayed (.tryResolve "b" .overloaded)
        oneRefused).bind givenUp = some ("b", .overloaded, .wakeupFailed ["q"], .idle) := by
      cbv
    obtain ⟨s₁, s₂, hbegin, hreplay, hreturns⟩ := exists_of_givenUp hend
    have hrest : ((start .standard twoAsleep).enforcement .trial).Over := Enforcement.over_idle _
    obtain ⟨x, hx, hleaves⟩ := resolution_leaves (s := start .standard twoAsleep) made_twoAsleep rfl
      rfl hrest hbegin serves_oneRefused hreplay hreturns
    obtain rfl : Except.error (.wakeupFailed ["q"]) = x := hx
    exact ⟨s₁, s₂, hbegin, hreplay, hleaves⟩
  · have hend : (((start .standard crowded).replayed (.resolve "b" .overloaded) oneLate).bind
        resolved).map (fun x => (x.1, x.2.1, x.2.2.woken)) = some ("b", .overloaded, ["p"]) := by
      cbv
    obtain ⟨⟨host, state, report⟩, hend, hread⟩ := Option.map_eq_some_iff.1 hend
    obtain ⟨rfl, rfl, hwoken⟩ : host = "b" ∧ state = .overloaded ∧ report.woken = ["p"] := by
      simpa using hread
    obtain ⟨s₁, s₂, hbegin, hreplay, hreturns⟩ := replay_of_resolved hend
    have hrest : ((start .standard crowded).enforcement .own).Over := Enforcement.over_idle _
    obtain ⟨x, hx, hleaves⟩ := resolution_leaves (s := start .standard crowded) made_crowded rfl
      rfl hrest hbegin serves_oneLate hreplay hreturns
    cases x with
    | error err => exact absurd hx (by simp [Job.Answers, Except.mapError])
    | ok r =>
      obtain rfl := Except.ok.inj hx
      exact ⟨s₁, s₂, report, hbegin, hreplay, hwoken, hleaves⟩

end Controller

end ClusterControl
