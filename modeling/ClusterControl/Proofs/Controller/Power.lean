import ClusterControl.Proofs.Controller.Outcomes
import ClusterControl.Proofs.Controller.SingleFlight
import ClusterControl.Proofs.Program.Power

/-!
# Hosts that are powered down

A workflow makes a host passive before it asks the host to power down.  In the meantime wake-ups and
samples come in, in whatever order.

* `Controller.step_fares` says what a step does to one task, and what it does to the store
  meanwhile.
* `Controller.Tended.step` carries along, of one host, how often a task has taken it down and what
  became of it since.
* `Controller.passive_unless_roused` says that a host that is reported as powered down is passive
  then, unless a wake-up has claimed it since it was made passive.
-/

namespace ClusterControl

variable {α : Type}

/-- Hosts are powered down, wake-ups and samples come in, and only tasks use the store. -/
def Move.OfPower : Move α → Prop
  | .begin j => j.ChangesPower
  | .submit .. | .amend _ => False
  | _ => True

/-- Whether a task is finished does not depend on what it has handed over. -/
theorem Task.isFinished_issued (task : Task α) (issued : Bool) (batch : Nat) :
    ({ task with issued, batch } : Task α).isFinished = task.isFinished := by
  obtain ⟨j, p, issued', batch'⟩ := task
  cases p <;> rfl

/-- A call that holds the gate goes on to hold it until it is over. -/
theorem Task.Life.owes_next [Quantity α] {c : Settings α} {a : Activity} {task : Task α}
    (h : task.Life c a) {q : Request α}
    {next : q.Answer → Program α task.job.Result} (hprogram : task.program = .call q next)
    (howes : task.program.Owes a) {r : q.Answer} (hr : q.MayGet r) :
    (∃ x, next r = .done x) ∨ (next r).Owes a := by
  cases h with
  | waits hwaits =>
    rw [hwaits] at howes
    exact (howes.elim (by simp) fun h => h.1.elim : False).elim
  | runs h =>
    rw [hprogram] at h
    rcases h with ⟨-, hdone⟩ | ⟨-, hnext⟩
    · obtain ⟨x, hx, -⟩ := hdone r
      exact .inl ⟨x, hx⟩
    · exact .inr (hnext r hr).owes
  | ended x h =>
    rw [hprogram] at h
    exact absurd h (by simp)

namespace Controller

variable [Quantity α] {s s' : Controller α} {m : Move α} {t : Nat}

/-! ## Steps that use the store -/

/-- The step has left the store alone, or it was the turn of another task with its request. -/
def Elsewhere (s : Controller α) (m : Move α) (s' : Controller α) (t : Nat) : Prop :=
  s'.store = s.store ∨ ∃ (u : Nat) (task : Task α) (q : StoreRequest α) (next : _), u ≠ t ∧
    m = .run u ∧ s.tasks[u]? = some task ∧ task.program = .call (.store q) next ∧
      s'.store = (q.apply s.store).2

/-- How a task came to be what it is after a step, and what has become of the store. -/
inductive Fares (s : Controller α) (m : Move α) (s' : Controller α) (t : Nat) : Task α → Prop
  /-- It has the same program as before. -/
  | rests {task : Task α} (issued : Bool) (batch : Nat) (hget : s.tasks[t]? = some task)
    (hstore : Elsewhere s m s' t) : Fares s m s' t { task with issued, batch }
  /-- The store has served its request. -/
  | served {task : Task α} {q : StoreRequest α}
    {next : Except StoreError q.Answer → Program α task.job.Result} (hget : s.tasks[t]? = some task)
    (hprogram : task.program = .call (.store q) next) (hmove : m = .run t)
    (hstore : s'.store = (q.apply s.store).2) :
    Fares s m s' t { task with program := next (q.apply s.store).1, issued := false }
  /-- The store has failed it. -/
  | failed {task : Task α} {q : StoreRequest α}
    {next : Except StoreError q.Answer → Program α task.job.Result} (e : StoreError)
    (hget : s.tasks[t]? = some task) (hprogram : task.program = .call (.store q) next)
    (hstore : s'.store = s.store) :
    Fares s m s' t { task with program := next (.error e), issued := false }
  /-- Somebody else has answered it. -/
  | answered {task : Task α} {q : Request α} {next : q.Answer → Program α task.job.Result}
    (r : q.Answer) (hget : s.tasks[t]? = some task) (hprogram : task.program = .call q next)
    (hother : ∀ sq, q ≠ .store sq) (hstore : s'.store = s.store) :
    Fares s m s' t { task with program := next r, issued := false }
  /-- It has just come in. -/
  | created {j : Job α} (hget : s.tasks[t]? = none) (hj : j.ChangesPower) :
    Fares s m s' t (.create s.settings j)

/-- A task that the step does not touch. -/
theorem Fares.untouched {task' : Task α} (hget : s.tasks[t]? = some task')
    (hstore : Elsewhere s m s' t) : Fares s m s' t task' :=
  .rests task'.issued task'.batch hget hstore

/-- One task goes on, and the others stay. -/
theorem Fares.goOn {u : Nat} {task task₁ task' : Task α} (hget : s.tasks[u]? = some task)
    (htasks : s'.tasks = s.tasks.set u task₁) (hself : Fares s m s' u task₁)
    (hothers : u ≠ t → Elsewhere s m s' t) (hget' : s'.tasks[t]? = some task') :
    Fares s m s' t task' := by
  have hlt : u < s.tasks.length := (List.getElem?_eq_some_iff.1 hget).1
  rw [htasks] at hget'
  by_cases hut : u = t
  · subst hut
    rw [List.getElem?_set_self hlt] at hget'
    rwa [← Option.some.inj hget']
  · rw [List.getElem?_set_ne hut] at hget'
    exact .untouched hget' (hothers hut)

/-- A request to somebody else leaves the store and the tasks alone. -/
theorem store_perform {q : Request α} (hother : ∀ sq, q ≠ .store sq) {r : q.Answer}
    {s₁ : Controller α} (hs : s.perform q = some (r, s₁)) :
    s₁.store = s.store ∧ s₁.tasks = s.tasks := by
  refine ⟨?_, (perform_spec hs).1⟩
  cases q with
  | store sq => exact absurd rfl (hother sq)
  | host | enforce => cases hs
  | acquire a => exact (perform_spec hs).2.2.1
  | note n =>
    obtain ⟨rfl, rfl⟩ := Prod.mk.inj (Option.some.inj hs)
    cases n <;> rfl
  | setPhase e p =>
    obtain ⟨rfl, rfl⟩ := Prod.mk.inj (Option.some.inj hs)
    cases e <;> rfl
  | release | isBusy | phase | inFlight | place | file =>
    obtain ⟨rfl, rfl⟩ := Prod.mk.inj (Option.some.inj hs)
    rfl

theorem runTask_fares {u : Nat} {task : Task α} (hget : s.tasks[u]? = some task)
    (hs : s.runTask u task = some s') {task' : Task α} (hget' : s'.tasks[t]? = some task') :
    Fares s (.run u) s' t task' := by
  cases hprogram : task.program with
  | done r =>
    simp only [runTask, hprogram] at hs
    exact absurd hs (by simp)
  | call q next =>
    have hother : ∀ {r} {s₁ : Controller α}, (∀ sq, q ≠ .store sq) → s₁.store = s.store →
        s₁.tasks = s.tasks → s₁.proceed u task (next r) = s' → Fares s (.run u) s' t task' := by
      rintro r s₁ hq hstore htasks rfl
      refine .goOn hget ?_ (.answered r hget hprogram hq hstore) (fun _ => .inl hstore) hget'
      rw [proceed, setTask, htasks]
    cases q with
    | store q =>
      simp only [runTask, hprogram] at hs
      obtain ⟨⟨r, s₁⟩, hperform, rfl⟩ := Option.map_eq_some_iff.1 hs
      obtain ⟨rfl, rfl⟩ := Prod.mk.inj (Option.some.inj hperform)
      refine .goOn hget rfl (.served hget hprogram rfl rfl) (fun hut => ?_) hget'
      exact .inr ⟨u, task, q, next, hut, rfl, hget, hprogram, rfl⟩
    | host q =>
      simp only [runTask, hprogram] at hs
      split at hs
      · exact absurd hs (by simp)
      · rw [← Option.some.inj hs] at hget' ⊢
        refine .goOn hget ?_ (.rests true task.batch hget (.inl rfl)) (fun _ => .inl rfl) hget'
        simp only [hprogram]
        rfl
    | enforce e plan =>
      simp only [runTask, hprogram] at hs
      split at hs
      · obtain ⟨r, -, rfl⟩ := Option.map_eq_some_iff.1 hs
        exact hother (by simp) rfl rfl rfl
      · rw [← Option.some.inj hs] at hget' ⊢
        have hstore : ((s.setEnforcement e ((s.enforcement e).start plan)).setTask u
            { task with issued := true, batch := (s.enforcement e).batches }).store = s.store := by
          cases e <;> rfl
        refine .goOn hget ?_ (.rests true (s.enforcement e).batches hget (.inl ?_))
          (fun _ => .inl ?_) hget'
        · simp only [hprogram]
          cases e <;> rfl
        · simpa only [hprogram] using hstore
        · simpa only [hprogram] using hstore
    | _ =>
      simp only [runTask, hprogram] at hs
      obtain ⟨⟨r, s₁⟩, hperform, rfl⟩ := Option.map_eq_some_iff.1 hs
      obtain ⟨hstore, htasks⟩ := store_perform (by simp) hperform
      exact hother (by simp) hstore htasks rfl

/-- What a step does to a task, and to the store meanwhile. -/
theorem step_fares (hm : m.OfPower) (hs : s.step m = some s') {task' : Task α}
    (hget' : s'.tasks[t]? = some task') : Fares s m s' t task' := by
  cases m with
  | submit | amend => exact hm.elim
  | begin j =>
    have hstarted : s' = { s with tasks := s.tasks ++ [.create s.settings j] } := by
      cases j with
      | submission => exact hm.elim
      | _ => exact (Option.some.inj hs).symm
    subst hstarted
    rcases Nat.lt_trichotomy t s.tasks.length with hlt | rfl | hgt
    · rw [List.getElem?_append_left hlt] at hget'
      exact .untouched hget' (.inl rfl)
    · rw [List.getElem?_concat_length] at hget'
      rw [← Option.some.inj hget']
      exact .created (List.getElem?_eq_none (Nat.le_refl _)) hm
    · rw [List.getElem?_eq_none (by simpa using Nat.succ_le_of_lt hgt)] at hget'
      exact absurd hget' (by simp)
  | run u =>
    obtain ⟨task, hget, hrun⟩ := Option.bind_eq_some_iff.1 hs
    exact runTask_fares hget hrun hget'
  | fault u reason =>
    obtain ⟨task, hget, hfault⟩ := Option.bind_eq_some_iff.1 hs
    unfold faultTask at hfault
    split at hfault
    · rename_i q next hprogram
      rw [← Option.some.inj hfault] at hget' ⊢
      exact .goOn hget rfl (.failed _ hget hprogram rfl) (fun _ => .inl rfl) hget'
    · exact absurd hfault (by simp)
  | answer u a =>
    obtain ⟨task, hget, hanswer⟩ := Option.bind_eq_some_iff.1 hs
    unfold answerTask at hanswer
    split at hanswer
    · rename_i q next hprogram
      split at hanswer
      · obtain ⟨r, -, rfl⟩ := Option.map_eq_some_iff.1 hanswer
        exact .goOn hget rfl (.answered r hget hprogram (by simp) rfl) (fun _ => .inl rfl) hget'
      · exact absurd hanswer (by simp)
    · exact absurd hanswer (by simp)
  | poll e i order =>
    obtain rfl := Option.some.inj hs
    unfold pollWatch at hget' ⊢
    dsimp only at hget' ⊢
    split at hget' <;> cases e <;> exact .untouched hget' (.inl rfl)
  | answerMigrate e i r =>
    obtain ⟨f, -, rfl⟩ := Option.map_eq_some_iff.1 hs
    cases e <;> exact .untouched hget' (.inl rfl)
  | answerSuspend e i r =>
    obtain ⟨f, -, rfl⟩ := Option.map_eq_some_iff.1 hs
    cases e <;> exact .untouched hget' (.inl rfl)
  | signal e vm success =>
    obtain rfl := Option.some.inj hs
    cases e <;> exact .untouched hget' (.inl rfl)
  | finish e =>
    obtain rfl := Option.some.inj hs
    cases e <;> exact .untouched hget' (.inl rfl)
  | note n =>
    obtain rfl := Option.some.inj hs
    cases n <;> exact .untouched hget' (.inl rfl)
  | collect | setReady =>
    obtain rfl := Option.some.inj hs
    exact .untouched hget' (.inl rfl)
  | elapse ms =>
    simp only [step] at hs
    split at hs
    · obtain rfl := Option.some.inj hs
      exact .untouched hget' (.inl rfl)
    · exact absurd hs (by simp)

/-- A task that is not finished after a step was not finished before. -/
theorem Fares.unfinished {task' : Task α} (h : Fares s m s' t task')
    (hunfinished : task'.isFinished = false) {task : Task α} (hget : s.tasks[t]? = some task) :
    task.isFinished = false := by
  have hcall : ∀ {other : Task α} {q : Request α} {next : q.Answer → Program α other.job.Result},
      s.tasks[t]? = some other → other.program = .call q next → task.isFinished = false := by
    intro other q next hother hprogram
    rw [hget] at hother
    obtain rfl := Option.some.inj hother
    rw [Task.isFinished, Task.result?, hprogram]
    rfl
  cases h with
  | rests issued batch hget' =>
    rw [hget] at hget'
    obtain rfl := Option.some.inj hget'
    rwa [Task.isFinished_issued] at hunfinished
  | served hget' hprogram => exact hcall hget' hprogram
  | failed e hget' hprogram => exact hcall hget' hprogram
  | answered r hget' hprogram => exact hcall hget' hprogram
  | created hnone =>
    rw [hget] at hnone
    exact absurd hnone (by simp)

/-! ## What has happened on the way -/

/-- With one of the moves task `t` has made the active host passive, and `P` holds of the state it
has left and of the moves since. -/
def TakesDown (s : Controller α) (moves : List (Move α)) (t : Nat) (id : HostId)
    (P : Controller α → List (Move α) → Prop) : Prop :=
  ∃ l rest u v, moves = l ++ .run t :: rest ∧ s.replay l = some u ∧ u.step (.run t) = some v ∧
    u.store.status? id = some .active ∧ v.store.status? id = some .passive ∧ P v rest

/-- The step is a wake-up's that claims the passive host. -/
def Rouses (id : HostId) (u : Controller α) (m : Move α) (v : Controller α) : Prop :=
  ∃ w task hosts, m = .run w ∧ u.tasks[w]? = some task ∧ task.job = .wake hosts ∧
    u.store.status? id = some .passive ∧ v.store.status? id = some .wokenUp

variable {first : Controller α} {moves : List (Move α)} {id : HostId} {n : Nat}

theorem TakesDown.concat {P P' : Controller α → List (Move α) → Prop}
    (h : first.TakesDown moves t id P) (hs : first.replay moves = some s)
    (hP : ∀ {v rest}, v.replay rest = some s → P v rest → P' v (rest ++ [m])) :
    first.TakesDown (moves ++ [m]) t id P' := by
  obtain ⟨l, rest, u, v, rfl, hu, hv, hbefore, hafter, hrest⟩ := h
  have hlast : v.replay rest = some s := by
    rw [replay_append, hu, Option.bind_some, replay, hv] at hs
    exact hs
  exact ⟨l, rest ++ [m], u, v, by simp, hu, hv, hbefore, hafter, hP hlast hrest⟩

/-- Task `t` has taken the host down `n` times without bringing it up again.  The host is passive
since the one time, or a wake-up has claimed it since. -/
def Down (first : Controller α) (moves : List (Move α)) (s : Controller α) (t : Nat) (id : HostId)
    (n : Nat) : Prop :=
  0 < n → first.TakesDown moves t id fun v rest =>
    n = 1 ∧ s.store.status? id = some .passive ∨ v.Passes rest (Rouses id)

/-- A step keeps the host passive, or a wake-up claims it. -/
theorem Down.step (h : first.Down moves s t id n) (hs : first.replay moves = some s)
    (hstep : s.step m = some s') (hkept : 0 < n → s.store.status? id = some .passive →
      s'.store.status? id = some .passive ∨ Rouses id s m s') :
    first.Down (moves ++ [m]) s' t id n := by
  intro hn
  refine (h hn).concat hs ?_
  rintro v rest hlast (⟨hone, hpassive⟩ | hroused)
  · rcases hkept hn hpassive with hpassive' | hrouses
    · exact .inl ⟨hone, hpassive'⟩
    · exact .inr ⟨rest, m, [], s, s', rfl, hlast, hstep, hrouses⟩
  · exact .inr (hroused.concat m)

/-- The task takes the host down once more; a wake-up has claimed it in between. -/
theorem Down.claim (h : first.Down moves s t id n) (hs : first.replay moves = some s)
    (hstep : s.step (.run t) = some s') (hbefore : s.store.status? id = some .active)
    (hafter : s'.store.status? id = some .passive) :
    first.Down (moves ++ [.run t]) s' t id (n + 1) := by
  intro _
  by_cases hn : 0 < n
  · refine (h hn).concat hs ?_
    rintro v rest - (⟨-, hpassive⟩ | hroused)
    · rw [hbefore] at hpassive
      exact absurd hpassive (by simp)
    · exact .inr (hroused.concat _)
  · refine ⟨moves, [], s, s', rfl, hs, hstep, hbefore, hafter, .inl ⟨?_, hafter⟩⟩
    rw [Nat.eq_zero_of_not_pos hn]

/-- The task brings the host up again; what was before has been overtaken by a wake-up. -/
theorem Down.undo (h : first.Down moves s t id n) (hs : first.replay moves = some s) :
    first.Down (moves ++ [m]) s' t id (n - 1) := by
  intro hn
  refine (h (Nat.pos_of_ne_zero fun hzero => ?_)).concat hs ?_
  · rw [hzero] at hn
    exact absurd hn (Nat.lt_irrefl 0)
  · rintro v rest - (⟨hone, -⟩ | hroused)
    · rw [hone] at hn
      exact absurd hn (Nat.lt_irrefl 0)
    · exact .inr (hroused.concat m)

/-! ## Tasks on their way -/

/-- Where a task is on its way that powers hosts down: how often it has taken one host down, and
that it holds the gate from the first time on. -/
def Lowering (first : Controller α) (moves : List (Move α)) (s : Controller α) (t : Nat)
    (id : HostId) (task : Task α) : Prop :=
  ∃ n, (task.program.Lowers id n fun m r => task.job.Reports id r → 0 < m) ∧
    (task.isFinished = false → 0 < n → task.program.Owes .powerManagement) ∧
      first.Down moves s t id n

/-- Power has been managed and samples have come in since the start. -/
structure Tended (c : Settings α) (s₀ : Store α) (moves : List (Move α)) (s : Controller α)
    (id : HostId) : Prop where
  replayed : (start c s₀).replay moves = some s
  jobs : ∀ {t : Nat} {task}, s.tasks[t]? = some task → task.job.ChangesPower
  outside : ∀ {t : Nat} {task}, s.tasks[t]? = some task →
    (∀ reserved action, task.job ≠ .powerDown reserved action) →
      task.program.AsksOnly task.job.Tends
  inside : ∀ {t : Nat} {task} {reserved action}, s.tasks[t]? = some task →
    task.job = .powerDown reserved action → task.isFinished = false →
      Lowering (start c s₀) moves s t id task

variable {c : Settings α} {s₀ : Store α}

/-- A call of power management that asks the store for something holds the gate. -/
theorem Tended.owes (h : Tended c s₀ moves s id) {task : Task α} (hget : s.tasks[t]? = some task)
    {reserved : Nat} {action : PowerAction} (hjob : task.job = .powerDown reserved action)
    {q : StoreRequest α} {next : Except StoreError q.Answer → Program α task.job.Result}
    (hprogram : task.program = .call (.store q) next) :
    task.Life c .powerManagement ∧ task.program.Owes .powerManagement := by
  have hlife : task.Life c .powerManagement :=
    (reachable_of_replay h.replayed).guarded.2 hget (by rw [hjob]; rfl)
  refine ⟨hlife, hlife.owes_iff.2 ⟨?_, fun b next' hacquire => ?_⟩⟩
  · rw [Task.isFinished, Task.result?, hprogram]
    rfl
  · rw [hprogram] at hacquire
    exact absurd hacquire (by simp)

/-- While a task powers hosts down, what another one asks of the store keeps a host passive, or a
wake-up claims it. -/
theorem Tended.elsewhere (h : Tended c s₀ moves s id) {task : Task α}
    (hget : s.tasks[t]? = some task) (howes : task.program.Owes .powerManagement)
    (hstore : Elsewhere s m s' t) (hpassive : s.store.status? id = some .passive) :
    s'.store.status? id = some .passive ∨ Rouses id s m s' := by
  obtain hsame | ⟨u, other, q, next, hut, rfl, hother, hprogram, hserved⟩ := hstore
  · exact .inl (by rwa [hsame])
  by_cases hjob : ∃ reserved action, other.job = .powerDown reserved action
  · -- two tasks would hold the gate
    obtain ⟨reserved, action, hjob⟩ := hjob
    obtain ⟨o, hguarded⟩ := (reachable_of_replay h.replayed).guarded.1
    obtain ⟨k, hk, rfl, -⟩ := hguarded.running_iff.1 ⟨task, hget, howes⟩
    obtain ⟨k', hk', rfl, -⟩ :=
      hguarded.running_iff.1 ⟨other, hother, (h.owes hother hjob hprogram).2⟩
    rw [hk] at hk'
    exact absurd (congrArg Holder.task (Option.some.inj hk').symm) hut
  · have htends := h.outside hother fun reserved action heq => hjob ⟨reserved, action, heq⟩
    rw [hprogram] at htends
    obtain ⟨hcasual, hwakes⟩ := htends.1 q rfl
    rw [hserved]
    rcases hcasual.status hpassive with hkept | ⟨rfl, hwoken⟩
    · exact .inl hkept
    · obtain ⟨hosts, hwake⟩ := hwakes id rfl
      exact .inr ⟨u, other, hosts, rfl, hother, hwake, hpassive, by rwa [hserved]⟩

/-- A request of the task that powers hosts down is served: it may take the host down, or bring it
up again. -/
theorem Down.served (h : first.Down moves s t id n) (hs : first.replay moves = some s)
    (hstep : s.step (.run t) = some s') {q : StoreRequest α}
    (hstore : s'.store = (q.apply s.store).2) {R : Nat → Except StoreError q.Answer → Prop}
    (hlowers : (Request.store q).Lowers id n R) :
    ∃ n', R n' (q.apply s.store).1 ∧ first.Down (moves ++ [.run t]) s' t id n' := by
  have hkept : (∀ host, q = .transition host .passive .active → host ≠ id) →
      s.store.status? id = some .passive → s'.store.status? id = some .passive := by
    intro hq hpassive
    rw [hstore]
    obtain ⟨_, _, _, rfl⟩ | ⟨host, rfl⟩ | ⟨host, rfl⟩ := hlowers.store_cases
    · exact hpassive
    · simp only [StoreRequest.apply]
      rw [Store.status_transition]
      split
      · rfl
      · exact hpassive
    · simp only [StoreRequest.apply]
      rw [Store.status_transition, if_neg fun hid => hq host rfl hid.1.symm]
      exact hpassive
  have hsame : (∀ host, q = .transition host .passive .active → host ≠ id) →
      first.Down (moves ++ [.run t]) s' t id n := fun hq =>
    h.step hs hstep fun _ hpassive => .inl (hkept hq hpassive)
  obtain ⟨_, _, _, rfl⟩ | ⟨host, rfl⟩ | ⟨host, rfl⟩ := hlowers.store_cases
  · exact ⟨n, hlowers _, hsame (by simp)⟩
  · by_cases hdone : (s.store.transition host .active .passive).1 = .ok true
    · refine ⟨if host = id then n + 1 else n, ?_, ?_⟩
      · simp only [StoreRequest.apply, hdone]
        exact hlowers.1
      · obtain ⟨st, hbefore, hactive⟩ := Store.answer_transition hdone
        obtain rfl := hactive.1 rfl
        by_cases hid : host = id
        · subst hid
          rw [if_pos rfl]
          refine h.claim hs hstep hbefore ?_
          rw [hstore]
          simp only [StoreRequest.apply]
          rw [Store.status_transition, if_pos ⟨rfl, hbefore⟩]
        · rw [if_neg hid]
          exact hsame (by simp)
    · exact ⟨n, hlowers.2 _ hdone, hsame (by simp)⟩
  · refine ⟨_, hlowers _, ?_⟩
    by_cases hid : host = id
    · rw [if_pos hid]
      exact h.undo hs
    · rw [if_neg hid]
      refine hsame ?_
      rintro _ ⟨⟩
      exact hid

/-- A request of the task fails, and the store is as it was. -/
theorem Down.failed (h : first.Down moves s t id n) (hs : first.replay moves = some s)
    (hstep : s.step m = some s') (hstore : s'.store = s.store) {q : StoreRequest α}
    {R : Nat → Except StoreError q.Answer → Prop} (hlowers : (Request.store q).Lowers id n R)
    (e : StoreError) : ∃ n', R n' (.error e) ∧ first.Down (moves ++ [m]) s' t id n' := by
  have hsame : first.Down (moves ++ [m]) s' t id n :=
    h.step hs hstep fun _ hpassive => .inl (by rwa [hstore])
  obtain ⟨_, _, _, rfl⟩ | ⟨host, rfl⟩ | ⟨host, rfl⟩ := hlowers.store_cases
  · exact ⟨n, hlowers _, hsame⟩
  · exact ⟨n, hlowers.2 _ (by simp), hsame⟩
  · refine ⟨_, hlowers _, ?_⟩
    by_cases hid : host = id
    · rw [if_pos hid]
      exact h.undo hs
    · rw [if_neg hid]
      exact hsame

/-- A step takes a task that powers hosts down further on its way. -/
theorem Tended.lowering (h : Tended c s₀ moves s id) (hm : m.OfPower) (hstep : s.step m = some s')
    {task' : Task α} (hget' : s'.tasks[t]? = some task') {reserved : Nat} {action : PowerAction}
    (hjob' : task'.job = .powerDown reserved action)
    (hbefore : ∀ {task}, s.tasks[t]? = some task → task.isFinished = false) :
    Lowering (start c s₀) (moves ++ [m]) s' t id task' := by
  -- the rest of a program holds the gate if the program did, unless it is over
  have howes : ∀ {task : Task α} {q : Request α} {next : q.Answer → Program α task.job.Result}
      {r : q.Answer}, task.Life c .powerManagement → task.program = .call q next →
        task.program.Owes .powerManagement → q.MayGet r →
          ({ task with program := next r, issued := false } : Task α).isFinished = false →
            (next r).Owes .powerManagement := by
    intro task q next r hlife hprogram howes hr hunfinished
    refine (hlife.owes_next hprogram howes hr).resolve_left ?_
    rintro ⟨x, hx⟩
    rw [Task.isFinished, Task.result?, hx] at hunfinished
    exact absurd hunfinished (by simp)
  cases step_fares hm hstep hget' with
  | @rests task issued batch hget hstore =>
    obtain ⟨n, hlowers, hholds, hdown⟩ := h.inside hget hjob' (hbefore hget)
    refine ⟨n, hlowers, fun _ hn => hholds (hbefore hget) hn, hdown.step h.replayed hstep ?_⟩
    exact fun hn => h.elsewhere hget (hholds (hbefore hget) hn) hstore
  | @served task q next hget hprogram hmove hstore =>
    subst hmove
    obtain ⟨hlife, hholds⟩ := h.owes hget hjob' hprogram
    obtain ⟨n, hlowers, -, hdown⟩ := h.inside hget hjob' (hbefore hget)
    rw [hprogram] at hlowers
    obtain ⟨n', hnext, hdown'⟩ := hdown.served h.replayed hstep hstore hlowers
    exact ⟨n', hnext, fun hunfinished _ =>
      howes hlife hprogram hholds (.inl ⟨s.store, rfl⟩) hunfinished, hdown'⟩
  | @failed task q next e hget hprogram hstore =>
    obtain ⟨hlife, hholds⟩ := h.owes hget hjob' hprogram
    obtain ⟨n, hlowers, -, hdown⟩ := h.inside hget hjob' (hbefore hget)
    rw [hprogram] at hlowers
    obtain ⟨n', hnext, hdown'⟩ := hdown.failed h.replayed hstep hstore hlowers e
    exact ⟨n', hnext, fun hunfinished _ =>
      howes hlife hprogram hholds (.inr ⟨e, rfl⟩) hunfinished, hdown'⟩
  | @answered task q next r hget hprogram hother hstore =>
    obtain ⟨n, hlowers, hholds, hdown⟩ := h.inside hget hjob' (hbefore hget)
    have hlife : task.Life c .powerManagement :=
      (reachable_of_replay h.replayed).guarded.2 hget (by rw [hjob']; rfl)
    have hr : q.MayGet r := by
      cases q with
      | store sq => exact absurd rfl (hother sq)
      | _ => trivial
    rw [hprogram] at hlowers
    refine ⟨n, (Request.lowers_other hother).1 hlowers r, fun hunfinished hn =>
      howes hlife hprogram (hholds (hbefore hget) hn) hr hunfinished,
        hdown.step h.replayed hstep fun _ hpassive => .inl (by rwa [hstore])⟩
  | @created j hnone hj =>
    obtain rfl : j = .powerDown reserved action := hjob'
    exact ⟨0, Job.lowers_program s.settings id reserved action,
      fun _ hn => absurd hn (Nat.lt_irrefl 0), fun hn => absurd hn (Nat.lt_irrefl 0)⟩

/-- What has been tended stays so with every step. -/
theorem Tended.step (h : Tended c s₀ moves s id) (hm : m.OfPower) (hstep : s.step m = some s') :
    Tended c s₀ (moves ++ [m]) s' id := by
  refine ⟨replay_concat h.replayed hstep, fun {t task'} hget' => ?_, fun {t task'} hget' hjob => ?_,
    fun {t task'} _ _ hget' hjob hunfinished => ?_⟩
  · cases step_fares hm hstep hget' with
    | rests _ _ hget | served hget | failed _ hget | answered _ hget =>
      have hchanges := h.jobs hget
      exact hchanges
    | created _ hj => exact hj
  · cases step_fares hm hstep hget' with
    | rests _ _ hget =>
      have hasks := h.outside hget hjob
      exact hasks
    | served hget hprogram => exact (h.outside hget hjob).next hprogram _
    | failed e hget hprogram => exact (h.outside hget hjob).next hprogram _
    | answered r hget hprogram => exact (h.outside hget hjob).next hprogram r
    | created _ hj => exact Job.asksOnly_program _ hj hjob
  · exact h.lowering hm hstep hget' hjob fun hget =>
      (step_fares hm hstep hget').unfinished hunfinished hget

theorem tended_replay (hmoves : ∀ x ∈ moves, x.OfPower)
    (hs : (start c s₀).replay moves = some s) (id : HostId) : Tended c s₀ moves s id := by
  induction moves using List.reverseRecOn generalizing s with
  | nil =>
    obtain rfl := Option.some.inj hs
    have hnone : ∀ {t : Nat} {task : Task α}, (start c s₀).tasks[t]? ≠ some task := by
      simp [start]
    exact ⟨rfl, fun hget => absurd hget hnone, fun hget => absurd hget hnone,
      fun hget => absurd hget hnone⟩
  | append_singleton rest m ih =>
    rw [replay_append] at hs
    obtain ⟨u, hu, hlast⟩ := Option.bind_eq_some_iff.1 hs
    obtain ⟨v, hv, hend⟩ := Option.bind_eq_some_iff.1 hlast
    obtain rfl := Option.some.inj hend
    exact (ih (fun x hx => hmoves x (by simp [hx])) hu).step (hmoves m (by simp)) hv

/-! ## Hosts that are reported as powered down -/

/-- However power-downs, wake-ups and samples interleave: when a call returns and reports a host as
powered down, it has made the host passive, and the host is passive still, unless a wake-up has
claimed it since. -/
theorem passive_unless_roused (c : Settings α) {s₀ : Store α}
    (hmoves : ∀ x ∈ moves ++ [m], x.OfPower) (hs : (start c s₀).replay moves = some s)
    (hstep : s.step m = some s') {task : Task α} (hget : s.tasks[t]? = some task)
    (hunfinished : task.isFinished = false) {reserved : Nat} {action : PowerAction}
    {hosts : List HostId} (hreturns : s'.Returns t (.powerDown reserved action) (.ok hosts)) :
    ∀ id ∈ hosts, (start c s₀).TakesDown (moves ++ [m]) t id fun v rest =>
      s'.store.status? id = some .passive ∨ v.Passes rest (Rouses id) := by
  intro id hid
  obtain ⟨issued, batch, hget'⟩ := hreturns
  have htended := tended_replay (fun x hx => hmoves x (by simp [hx])) hs id
  obtain ⟨n, hlowers, -, hdown⟩ := htended.lowering (hmoves m (by simp)) hstep hget' rfl
    fun hother => by rw [hget] at hother; rwa [← Option.some.inj hother]
  obtain ⟨l, rest, u, v, hsplit, hu, hv, hbefore, hafter, hrest⟩ :=
    hdown (hlowers ⟨hosts, rfl, hid⟩)
  exact ⟨l, rest, u, v, hsplit, hu, hv, hbefore, hafter, hrest.imp_left And.right⟩

/-- A cluster of one active host without machines. -/
def warm : Store ℚ := Store.empty.addHost (.new "p" ⟨4, 4, 4, 4⟩ 1)

/-- The host is made passive and asked to power down, and a wake-up claims it and asks it to get up
before it has answered. -/
def wokenMeanwhile : List (Move ℚ) :=
  [.begin (.powerDown 0 .shutdown), .run 0, .run 0, .run 0, .run 0, .begin (.wake ["p"]), .run 1,
    .run 1]

/-- The host agrees to power down, and the task that has asked it goes on. -/
def poweredDown : List (Move ℚ) := [.answer 0 (.done (.ok ())), .run 0, .run 0]

/-- What a call of power management has returned. -/
def returned : Task ℚ → Option (Nat × PowerAction × Except WorkflowError (List HostId))
  | ⟨.powerDown reserved action, .done r, _, _⟩ => some (reserved, action, r)
  | _ => none

theorem returns_of_returned {s : Controller ℚ} {t : Nat} {task : Task ℚ}
    (hget : s.tasks[t]? = some task) {reserved : Nat} {action : PowerAction}
    {r : Except WorkflowError (List HostId)} (h : returned task = some (reserved, action, r)) :
    s.Returns t (.powerDown reserved action) r := by
  unfold returned at h
  split at h
  · cases h
    exact ⟨_, _, hget⟩
  · exact absurd h (by simp)

theorem exists_of_wokenMeanwhile : ∃ s u v task,
    (start .standard warm).replay wokenMeanwhile = some s ∧ s.replay poweredDown = some u ∧
      u.step (.run 0) = some v ∧ u.tasks[0]? = some task ∧ task.isFinished = false ∧
        v.Returns 0 (.powerDown 0 .shutdown) (.ok ["p"]) ∧
          s.calls.map CallRecord.call = [.powerDown "p" .shutdown, .wakeUp "p"] ∧
            v.calls.map CallRecord.call = s.calls.map CallRecord.call ∧
              v.store.status? "p" = some .wokenUp := by
  have hend : (((start .standard warm).replay wokenMeanwhile).bind fun s =>
      (s.replay poweredDown).bind fun u => (u.step (.run 0)).bind fun v =>
        u.tasks[0]?.bind fun task => v.tasks[0]?.bind fun task' =>
          (returned task').map fun r => (r, task.isFinished, s.calls.map CallRecord.call,
            v.calls.map CallRecord.call, v.store.status? "p")) =
      some ((0, .shutdown, .ok ["p"]), false, [.powerDown "p" .shutdown, .wakeUp "p"],
        [.powerDown "p" .shutdown, .wakeUp "p"], some .wokenUp) := by
    cbv
  obtain ⟨s, hs, hend⟩ := Option.bind_eq_some_iff.1 hend
  obtain ⟨u, hu, hend⟩ := Option.bind_eq_some_iff.1 hend
  obtain ⟨v, hv, hend⟩ := Option.bind_eq_some_iff.1 hend
  obtain ⟨task, hget, hend⟩ := Option.bind_eq_some_iff.1 hend
  obtain ⟨task', hget', hend⟩ := Option.bind_eq_some_iff.1 hend
  obtain ⟨r, hr, hend⟩ := Option.map_eq_some_iff.1 hend
  simp only [Prod.mk.injEq] at hend
  obtain ⟨rfl, hunfinished, hbefore, hafter, hstatus⟩ := hend
  exact ⟨s, u, v, task, hs, hu, hv, hget, hunfinished, returns_of_returned hget' hr, hbefore,
    hafter.trans hbefore.symm, hstatus⟩

theorem ofPower_wokenMeanwhile :
    ∀ x ∈ wokenMeanwhile ++ poweredDown ++ [.run 0], x.OfPower := by
  simp [wokenMeanwhile, poweredDown, Move.OfPower, Job.ChangesPower]

/-- The wake-up has claimed the host since it was made passive. -/
theorem passive_unless_roused_of_wokenMeanwhile : ∃ u v task,
    (start .standard warm).replay (wokenMeanwhile ++ poweredDown) = some u ∧
      u.step (.run 0) = some v ∧ u.tasks[0]? = some task ∧ task.isFinished = false ∧
        v.Returns 0 (.powerDown 0 .shutdown) (.ok ["p"]) ∧
          (start .standard warm).TakesDown (wokenMeanwhile ++ poweredDown ++ [.run 0]) 0 "p"
            fun x rest => x.Passes rest (Rouses "p") := by
  obtain ⟨s, u, v, task, hs, hu, hv, hget, hunfinished, hreturns, -, -, hstatus⟩ :=
    exists_of_wokenMeanwhile
  have hreplay : (start .standard warm).replay (wokenMeanwhile ++ poweredDown) = some u := by
    rw [replay_append, hs, Option.bind_some, hu]
  refine ⟨u, v, task, hreplay, hv, hget, hunfinished, hreturns, ?_⟩
  obtain ⟨l, rest, x, y, hsplit, hx, hy, hbefore, hafter, hrest⟩ := passive_unless_roused .standard
    ofPower_wokenMeanwhile hreplay hv hget hunfinished hreturns "p" (by simp)
  refine ⟨l, rest, x, y, hsplit, hx, hy, hbefore, hafter, hrest.resolve_left ?_⟩
  rw [hstatus]
  simp

/-- The host is reported as powered down and is not passive then, although nobody has asked it to
get up after it had agreed to power down: the wake-up had asked before. -/
theorem reported_while_awake : ∃ s u v task,
    (start .standard warm).replay wokenMeanwhile = some s ∧
      s.replay (.answer 0 (.done (.ok ())) :: [.run 0, .run 0]) = some u ∧
        u.step (.run 0) = some v ∧ (∀ x ∈ wokenMeanwhile ++ poweredDown ++ [.run 0], x.OfPower) ∧
          u.tasks[0]? = some task ∧ task.isFinished = false ∧
            v.Returns 0 (.powerDown 0 .shutdown) (.ok ["p"]) ∧
              s.calls.map CallRecord.call = [.powerDown "p" .shutdown, .wakeUp "p"] ∧
                v.calls.map CallRecord.call = s.calls.map CallRecord.call ∧
                  v.store.status? "p" ≠ some .passive := by
  obtain ⟨s, u, v, task, hs, hu, hv, hget, hunfinished, hreturns, hbefore, hafter, hstatus⟩ :=
    exists_of_wokenMeanwhile
  refine ⟨s, u, v, task, hs, hu, hv, ofPower_wokenMeanwhile, hget, hunfinished, hreturns, hbefore,
    hafter, ?_⟩
  rw [hstatus]
  simp

end Controller

end ClusterControl
