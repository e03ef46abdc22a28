import ClusterControl.Controller.Builder
import ClusterControl.Proofs.Controller.Gate
import ClusterControl.Proofs.Program.Submissions
import ClusterControl.Proofs.Program.Workflows

/-!
# Moves and the gate

Every move that the contract permits leaves the gate guarded, whoever the holder is afterwards
(`Controller.Guarded.step`), and so does every run of such moves (`Controller.Guarded.run`).
-/

namespace ClusterControl

variable {α : Type}

namespace Controller

variable [Quantity α] {C : Contract α} {c : Settings α} {s : Controller α} {o : Option (Holder α)}

/-! ## A task does what its program asks for -/

/-- A request to the store, made by the holder or outside the gate. -/
theorem Guarded.perform_store {t : Nat} {task : Task α} {q : StoreRequest α}
    {next : Except StoreError q.Answer → Program α task.job.Result} (h : Guarded C c s o)
    (hget : s.tasks[t]? = some task) (hprogram : task.program = .call (.store q) next)
    (hadmitted : C.admits task.job s.busy s.store q) :
    ∃ o', Guarded C c ({ s with store := (q.apply s.store).2 }.proceed t task
      (next (q.apply s.store).1)) o' := by
  have hmeets := h.tasks hget
  rw [hprogram] at hmeets
  obtain hout | ⟨k, rfl, hk⟩ := Holder.standing_cases o t
  · rw [hout] at hmeets
    obtain ⟨hgood, hrely, hnext⟩ := hmeets.1 s.busy s.store h.good hadmitted
    have hgate : Gate C { s with store := (q.apply s.store).2 } o := by
      refine ⟨hgood, fun hk => C.trans (h.rely hk) (hrely ?_), h.busy, h.activity, h.phase⟩
      rw [h.busy, hk]
      rfl
    refine ⟨o, h.proceed hget hgate rfl rfl (fun e => by cases e <;> rfl) (fun _ _ => rfl)
      (fun hk => .inr (h.present hk)) ?_⟩
    rw [hout]
    exact hnext
  · subst hk
    rw [Holder.standing_self] at hmeets
    obtain ⟨hgood, hnext⟩ := hmeets.1 s.store h.good (h.rely rfl)
    have hgate : Gate C { s with store := (q.apply s.store).2 }
        (some { k with last := (q.apply s.store).2 }) := by
      refine ⟨hgood, ?_, h.busy, h.activity, ?_⟩
      · rintro _ ⟨⟩
        exact C.refl _
      · intro hp
        obtain ⟨k', hk', hphase, hactivity⟩ := h.phase hp
        obtain rfl := Option.some.inj hk'
        exact ⟨_, rfl, hphase, hactivity⟩
    refine ⟨_, h.proceed hget hgate rfl rfl (fun e => by cases e <;> rfl) (fun u hu => ?_) ?_ ?_⟩
    · exact Holder.standing_others rfl hu
    · rintro _ ⟨⟩
      exact .inl rfl
    · exact (Holder.standing_self { k with last := (q.apply s.store).2 }).symm ▸ hnext

/-- A free gate is taken, and the task that takes it is the holder. -/
theorem Guarded.perform_acquire {t : Nat} {task : Task α} {a : Activity}
    {next : Bool → Program α task.job.Result} (h : Guarded C c s o)
    (hget : s.tasks[t]? = some task) (hprogram : task.program = .call (.acquire a) next)
    {s₁ : Controller α} (hs : s.acquire a = some s₁) :
    Guarded C c (s₁.proceed t task (next true)) (some ⟨t, a, .idle, s.store⟩) := by
  have hmeets := h.tasks hget
  rw [hprogram] at hmeets
  unfold acquire at hs
  split at hs
  · exact absurd hs (by simp)
  rename_i hbusy
  obtain rfl := Option.some.inj hs
  obtain ⟨rfl, hidle⟩ := h.free hbusy
  obtain ⟨-, -, hnext⟩ := hmeets
  refine h.proceed hget ⟨h.good, ?_, rfl, rfl, ?_⟩ rfl rfl (fun e => by cases e <;> rfl) ?_ ?_ ?_
  · rintro _ ⟨⟩
    exact C.refl _
  · exact fun hp => absurd hidle hp
  · exact fun u hu => Holder.standing_of_ne hu
  · rintro _ ⟨⟩
    exact .inl rfl
  · exact (Holder.standing_self ⟨t, a, .idle, s.store⟩).symm ▸ hnext s.store h.good

/-- The holder gives the gate back. -/
theorem Guarded.perform_release {t : Nat} {task : Task α} {a : Activity}
    {next : Unit → Program α task.job.Result} (h : Guarded C c s o)
    (hget : s.tasks[t]? = some task) (hprogram : task.program = .call (.release a) next) :
    Guarded C c ((s.release a).proceed t task (next ())) none := by
  have hmeets := h.tasks hget
  rw [hprogram] at hmeets
  obtain hout | ⟨k, rfl, hk⟩ := Holder.standing_cases o t
  · rw [hout] at hmeets
    exact hmeets.elim
  · subst hk
    rw [Holder.standing_self] at hmeets
    obtain ⟨-, -, hidle, hnext⟩ := hmeets
    refine h.proceed hget ⟨h.good, (by simp), rfl, rfl, fun hp => ?_⟩ rfl rfl
      (fun e => by cases e <;> rfl) ?_ (by simp) hnext
    · obtain ⟨k', hk', hphase, -⟩ := h.phase hp
      obtain rfl := Option.some.inj hk'
      exact absurd (hphase.trans hidle) hp
    · exact fun u hu => (Holder.standing_of_ne hu).symm

/-- The holder of the gate sets the phase of its resolution. -/
theorem Guarded.perform_setPhase {t : Nat} {task : Task α} {p : ResolutionPhase}
    {next : Unit → Program α task.job.Result} (h : Guarded C c s o)
    (hget : s.tasks[t]? = some task) (hprogram : task.program = .call (.setPhase .own p) next) :
    ∃ o', Guarded C c ((s.setPhase .own p).proceed t task (next ())) o' := by
  have hmeets := h.tasks hget
  rw [hprogram] at hmeets
  obtain hout | ⟨k, rfl, hk⟩ := Holder.standing_cases o t
  · rw [hout] at hmeets
    exact hmeets.elim
  · subst hk
    rw [Holder.standing_self] at hmeets
    obtain ⟨hactivity, hnext⟩ := hmeets
    have hgate : Gate C (s.setPhase .own p) (some { k with phase := p }) := by
      have hrely := h.rely rfl
      refine ⟨h.good, ?_, h.busy, h.activity, fun _ => ⟨_, rfl, rfl, hactivity⟩⟩
      rintro _ ⟨⟩
      exact hrely
    refine ⟨_, h.proceed hget hgate rfl rfl (fun e => by cases e <;> rfl) (fun u hu => ?_) ?_ ?_⟩
    · exact Holder.standing_others rfl hu
    · rintro _ ⟨⟩
      exact .inl rfl
    · exact (Holder.standing_self { k with phase := p }).symm ▸ hnext

/-- The next thing that a task asks for is done. -/
theorem Guarded.perform {t : Nat} {task : Task α} {q : Request α}
    {next : q.Answer → Program α task.job.Result} (h : Guarded C c s o)
    (hget : s.tasks[t]? = some task) (hprogram : task.program = .call q next)
    (hpermit : s.Permits C (.run t)) {r : q.Answer} {s₁ : Controller α}
    (hs : s.perform q = some (r, s₁)) : ∃ o', Guarded C c (s₁.proceed t task (next r)) o' := by
  have hmeets := h.tasks hget
  rw [hprogram] at hmeets
  cases q with
  | store q =>
    obtain ⟨rfl, rfl⟩ := Prod.mk.inj (Option.some.inj hs)
    exact h.perform_store hget hprogram (hpermit hget hprogram)
  | host | enforce => cases hs
  | acquire a =>
    simp only [Controller.perform] at hs
    split at hs
    · rename_i s₂ hacquire
      obtain ⟨rfl, rfl⟩ := Prod.mk.inj (Option.some.inj hs)
      exact ⟨_, h.perform_acquire hget hprogram hacquire⟩
    · obtain ⟨rfl, rfl⟩ := Prod.mk.inj (Option.some.inj hs)
      refine ⟨o, h.proceed_idles hget (.refl s) ?_⟩
      obtain hout | ⟨k, rfl, rfl⟩ := Holder.standing_cases o t
      · rw [hout] at hmeets ⊢
        exact hmeets.2.1
      · rw [Holder.standing_self] at hmeets
        exact hmeets.elim
  | release a =>
    obtain ⟨rfl, rfl⟩ := Prod.mk.inj (Option.some.inj hs)
    exact ⟨_, h.perform_release hget hprogram⟩
  | isBusy | phase | inFlight =>
    obtain ⟨rfl, rfl⟩ := Prod.mk.inj (Option.some.inj hs)
    exact ⟨o, h.proceed_idles hget (.refl s) (hmeets _)⟩
  | setPhase e p =>
    obtain ⟨rfl, rfl⟩ := Prod.mk.inj (Option.some.inj hs)
    cases e with
    | own => exact h.perform_setPhase hget hprogram
    | trial => exact ⟨o, h.proceed_idles hget (idles_setPhase_trial s p) hmeets⟩
  | place vms hosts =>
    obtain ⟨rfl, rfl⟩ := Prod.mk.inj (Option.some.inj hs)
    refine ⟨o, h.proceed_idles hget ?_ (hmeets _ (.inr ⟨s.cursor, by rw [h.settings]⟩))⟩
    exact ⟨rfl, rfl, rfl, rfl, rfl, rfl, fun e => by cases e <;> rfl⟩
  | note n =>
    obtain ⟨rfl, rfl⟩ := Prod.mk.inj (Option.some.inj hs)
    exact ⟨o, h.proceed_idles hget (idles_note s n) hmeets⟩
  | file r =>
    obtain ⟨rfl, rfl⟩ := Prod.mk.inj (Option.some.inj hs)
    refine ⟨o, h.proceed_idles hget ?_ hmeets⟩
    exact ⟨rfl, rfl, rfl, rfl, rfl, rfl, fun e => by cases e <;> rfl⟩

/-- A task hands a request over to a host. -/
theorem Guarded.issue_host {t : Nat} {task : Task α} {q : HostRequest α}
    {next : Except ControlError q.Answer → Program α task.job.Result} (h : Guarded C c s o)
    (hget : s.tasks[t]? = some task) (hprogram : task.program = .call (.host q) next) :
    Guarded C c ((s.setTask t { task with issued := true }).recordCall q.call) o := by
  have hmeets := h.tasks hget
  refine Guarded.idles ?_ (idles_recordCall _ _)
  refine h.goOn hget h.toGate rfl rfl (fun _ _ _ hserves => hserves) h.numbered (fun _ _ => rfl)
    (fun hk => .inr (h.present hk)) hmeets ?_
  unfold Tracks
  simp only [hprogram]

/-- A task has a plan carried out. -/
theorem Guarded.issue_enforce {t : Nat} {task : Task α} {e : Engine} {plan : MigrationPlan}
    {next : EnforcementReport → Program α task.job.Result} (h : Guarded C c s o)
    (hget : s.tasks[t]? = some task) (hprogram : task.program = .call (.enforce e plan) next) :
    Guarded C c ((s.setEnforcement e ((s.enforcement e).start plan)).setTask t
      { task with issued := true, batch := (s.enforcement e).batches }) o := by
  set s₁ := s.setEnforcement e ((s.enforcement e).start plan) with hs₁
  have hself : s₁.enforcement e = (s.enforcement e).start plan := by cases e <;> rfl
  have hother : ∀ e', e' ≠ e → s₁.enforcement e' = s.enforcement e' := by
    intro e' hne
    cases e <;> cases e' <;> first | rfl | exact absurd rfl hne
  have hgate : Gate C s₁ o := by
    cases e with
    | own => exact ⟨h.good, h.rely, h.busy, h.activity, h.phase⟩
    | trial => exact ⟨h.good, h.rely, h.busy, h.activity, h.phase⟩
  have htasks : s₁.tasks = s.tasks := by cases e <;> rfl
  have hsettings : s₁.settings = s.settings := by cases e <;> rfl
  have hmeets := h.tasks hget
  refine h.goOn hget hgate htasks hsettings (fun e' batch plan' hserves => ?_) (fun e' => ?_)
    (fun _ _ => rfl) (fun hk => .inr (h.present hk)) hmeets ?_
  · by_cases he : e' = e
    · rw [he, hself]
      exact (he ▸ hserves).start plan
    · rw [hother e' he]
      exact hserves
  · by_cases he : e' = e
    · rw [he, hself]
      exact (h.numbered e).start plan
    · rw [hother e' he]
      exact h.numbered e'
  · unfold Tracks
    simp only [hprogram, hself]
    exact fun _ => (h.numbered e).serves_start plan

/-- A task does the next thing that its program asks for. -/
theorem Guarded.runTask {t : Nat} {task : Task α} (h : Guarded C c s o)
    (hget : s.tasks[t]? = some task) (hpermit : s.Permits C (.run t)) {s' : Controller α}
    (hs : s.runTask t task = some s') : ∃ o', Guarded C c s' o' := by
  cases hprogram : task.program with
  | done r =>
    simp only [Controller.runTask, hprogram] at hs
    exact absurd hs (by simp)
  | call q next =>
    have hother : ∀ {r s₁}, s.perform q = some (r, s₁) →
        ∃ o', Guarded C c (s₁.proceed t task (next r)) o' :=
      fun hperform => h.perform hget hprogram hpermit hperform
    cases q with
    | host q =>
      simp only [Controller.runTask, hprogram] at hs
      split at hs
      · exact absurd hs (by simp)
      · rw [← Option.some.inj hs]
        exact ⟨o, by simpa only [hprogram] using h.issue_host hget hprogram⟩
    | enforce e plan =>
      simp only [Controller.runTask, hprogram] at hs
      split at hs
      · rename_i hissued
        obtain ⟨r, hr, rfl⟩ := Option.map_eq_some_iff.1 hs
        have hmeets := h.tasks hget
        have htracks := h.tracks hget
        rw [hprogram] at hmeets
        unfold Tracks at htracks
        rw [hprogram] at htracks
        refine ⟨o, h.proceed_idles hget (.refl s) (hmeets r (.inr ?_))⟩
        exact (htracks hissued).report hr
      · rw [← Option.some.inj hs]
        exact ⟨o, by simpa only [hprogram] using h.issue_enforce hget hprogram⟩
    | _ =>
      simp only [Controller.runTask, hprogram] at hs
      obtain ⟨⟨r, s₁⟩, hperform, rfl⟩ := Option.map_eq_some_iff.1 hs
      exact hother hperform

/-! ## Tasks that come in -/

/-- An accepted submission holds the gate from the start. -/
theorem Guarded.submit (hC : C.Serves c) (hgated : C.gated) (h : Guarded C c s o) {task : TaskId}
    {vms : List (Vm α)} (hvms : C.accepts vms) {s' : Controller α}
    (hs : s.submit task vms = some s') : ∃ o', Guarded C c s' o' := by
  obtain ⟨s₁, hacquire, rfl⟩ := Option.map_eq_some_iff.1 hs
  unfold acquire at hacquire
  split at hacquire
  · exact absurd hacquire (by simp)
  rename_i hbusy
  obtain rfl := Option.some.inj hacquire
  obtain ⟨rfl, hidle⟩ := h.free hbusy
  refine ⟨some ⟨s.tasks.length, .submitting, .idle, s.store⟩, h.join ⟨h.good, ?_, rfl, rfl, ?_⟩ rfl
    rfl (fun e => by cases e <;> rfl) ?_ ?_ ?_ rfl⟩
  · rintro _ ⟨⟩
    exact C.refl _
  · exact fun hp => absurd hidle hp
  · exact fun u hu => Holder.standing_of_ne (Nat.ne_of_lt hu)
  · rintro _ ⟨⟩
    exact Nat.le_refl _
  · have hmeets := hC.meets_submission (j := .submission task vms) hgated task hvms s.store
    rw [← h.settings] at hmeets ⊢
    exact (Holder.standing_self ⟨s.tasks.length, .submitting, .idle, s.store⟩).symm ▸ hmeets

theorem Guarded.begin (hC : C.Serves c) (hgated : C.gated) (h : Guarded C c s o) {j : Job α}
    {s' : Controller α} (hs : s.begin j = some s') : ∃ o', Guarded C c s' o' := by
  have hjob : (∀ task vms, j ≠ .submission task vms) ∧
      s' = { s with tasks := s.tasks ++ [.create s.settings j] } := by
    cases j with
    | submission => cases hs
    | _ => exact ⟨fun _ _ => (by simp), (Option.some.inj hs).symm⟩
  obtain ⟨hj, rfl⟩ := hjob
  have hout : Holder.standing o s.tasks.length = .outside := by
    obtain hout | ⟨k, rfl, hk⟩ := Holder.standing_cases o s.tasks.length
    · exact hout
    · exact absurd (h.present rfl) (by rw [hk]; exact Nat.lt_irrefl _)
  refine ⟨o, h.join ⟨h.good, h.rely, h.busy, h.activity, h.phase⟩ rfl rfl
    (fun e => by cases e <;> rfl) (fun _ _ => rfl) (fun hk => Nat.le_of_lt (h.present hk)) ?_ rfl⟩
  rw [hout, ← h.settings]
  exact h.settings.symm ▸ hC.free_program hgated hj

/-! ## Moves -/

/-- A move that the contract permits leaves the gate guarded, whoever holds it then. -/
theorem Guarded.step (hC : C.Serves c) (hgated : C.gated) (h : Guarded C c s o) {m : Move α}
    (hpermit : s.Permits C m) {s' : Controller α} (hs : s.step m = some s') :
    ∃ o', Guarded C c s' o' := by
  cases m with
  | submit task vms => exact h.submit hC hgated hpermit hs
  | begin j => exact h.begin hC hgated hs
  | run t =>
    obtain ⟨task, hget, hrun⟩ := Option.bind_eq_some_iff.1 hs
    exact h.runTask hget hpermit hrun
  | fault t reason =>
    obtain ⟨task, hget, hfault⟩ := Option.bind_eq_some_iff.1 hs
    unfold faultTask at hfault
    split at hfault
    · rename_i q next hprogram
      rw [← Option.some.inj hfault]
      have hmeets := h.tasks hget
      rw [hprogram] at hmeets
      refine ⟨o, h.proceed_idles hget (.refl s) ?_⟩
      obtain hout | ⟨k, rfl, rfl⟩ := Holder.standing_cases o t
      · rw [hout] at hmeets ⊢
        exact hmeets.2 hpermit _
      · rw [Holder.standing_self] at hmeets ⊢
        exact hmeets.2 hpermit _
    · exact absurd hfault (by simp)
  | answer t a =>
    obtain ⟨task, hget, hanswer⟩ := Option.bind_eq_some_iff.1 hs
    unfold answerTask at hanswer
    split at hanswer
    · rename_i q next hprogram
      split at hanswer
      · obtain ⟨r, -, rfl⟩ := Option.map_eq_some_iff.1 hanswer
        have hmeets := h.tasks hget
        rw [hprogram] at hmeets
        exact ⟨o, h.proceed_idles hget (.refl s) (hmeets r)⟩
      · exact absurd hanswer (by simp)
    · exact absurd hanswer (by simp)
  | poll e i order =>
    obtain rfl := Option.some.inj hs
    refine ⟨o, h.idles ?_⟩
    have hengine := idles_setEnforcement s
      (Enforcement.work_poll (s.enforcement e) s.now i order)
    unfold pollWatch
    dsimp only
    split
    · exact hengine.trans (idles_recordCall _ _)
    · exact hengine
  | answerMigrate e i r =>
    obtain ⟨f, hf, rfl⟩ := Option.map_eq_some_iff.1 hs
    exact ⟨o, h.idles (idles_setEnforcement s (Enforcement.work_answerMigrate hf))⟩
  | answerSuspend e i r =>
    obtain ⟨f, hf, rfl⟩ := Option.map_eq_some_iff.1 hs
    exact ⟨o, h.idles (idles_setEnforcement s (Enforcement.work_answerSuspend hf))⟩
  | signal e vm success =>
    obtain rfl := Option.some.inj hs
    exact ⟨o, h.idles (idles_setEnforcement s
      (Enforcement.work_signal (s.enforcement e) vm success))⟩
  | collect task =>
    obtain rfl := Option.some.inj hs
    exact ⟨o, h.idles ⟨rfl, rfl, rfl, rfl, rfl, rfl, fun e => by cases e <;> rfl⟩⟩
  | amend q =>
    obtain rfl := Option.some.inj hs
    have hgate : Gate C { s with store := (q.apply s.store).2 } o :=
      ⟨C.good_of_lax hpermit _, fun _ => C.rely_of_lax hpermit _ _, h.busy, h.activity, h.phase⟩
    exact ⟨o, hgate, h.settings, h.present, h.tasks, h.numbered, h.tracks⟩
  | finish e =>
    obtain rfl := Option.some.inj hs
    cases e with
    | trial => exact ⟨o, h.idles (idles_setPhase_trial s .idle)⟩
    | own =>
      have hgate : Gate C (s.setPhase .own .idle) o :=
        ⟨h.good, h.rely, h.busy, h.activity, fun hp => absurd rfl hp⟩
      have hengines : ∀ e, (s.setPhase .own .idle).enforcement e = s.enforcement e :=
        fun e => by cases e <;> rfl
      refine ⟨o, hgate, h.settings, h.present, h.tasks, fun e => ?_, fun {t task} hget => ?_⟩
      · rw [hengines]
        exact h.numbered e
      · refine (h.tracks hget).mono fun e batch plan hserves => ?_
        rwa [hengines]
  | note n =>
    obtain rfl := Option.some.inj hs
    exact ⟨o, h.idles (idles_note s n)⟩
  | setReady ready =>
    obtain rfl := Option.some.inj hs
    exact ⟨o, h.idles ⟨rfl, rfl, rfl, rfl, rfl, rfl, fun e => by cases e <;> rfl⟩⟩
  | elapse ms =>
    simp only [Controller.step] at hs
    split at hs
    · obtain rfl := Option.some.inj hs
      exact ⟨o, h.idles ⟨rfl, rfl, rfl, rfl, rfl, rfl, fun e => by cases e <;> rfl⟩⟩
    · exact absurd hs (by simp)

/-! ## Runs -/

/-- A controller that has just started holds no gate and has no tasks. -/
theorem guarded_start {s : Store α} (hs : C.good s) : Guarded C c (start c s) none := by
  refine ⟨⟨hs, (by simp), rfl, rfl, fun hp => absurd rfl hp⟩, rfl, (by simp), ?_, ?_, ?_⟩
  · exact fun {t task} hget => absurd hget (by simp [start])
  · intro e
    cases e <;> exact Enforcement.numbered_idle _
  · exact fun {t task} hget => absurd hget (by simp [start])

/-- A controller that was built is open to workflows. -/
theorem guarded_of_build {b : Builder α} {s : Controller α} (hb : b.build = .ok s)
    (hgood : ∀ t, b.store = some t → C.good t) : Guarded C b.settings s none := by
  obtain ⟨t, hstore, -, rfl⟩ := Builder.build_eq_ok_iff.1 hb
  exact guarded_start (hgood t hstore)

/-- The states that a sequence of moves can lead to when each move is allowed where it is made. -/
inductive Runs (allowed : Controller α → Move α → Prop) (s : Controller α) : Controller α → Prop
  | refl : Runs allowed s s
  | step {t u : Controller α} (m : Move α) : Runs allowed s t → allowed t m → t.step m = some u →
    Runs allowed s u

/-- The controller after some moves; `none` when one of them is not possible. -/
def replay (s : Controller α) : List (Move α) → Option (Controller α)
  | [] => some s
  | m :: rest => (s.step m).bind fun t => t.replay rest

theorem Runs.prepend {allowed : Controller α → Move α → Prop} {s t u : Controller α} {m : Move α}
    (h : Runs allowed t u) (hm : allowed s m) (moved : s.step m = some t) : Runs allowed s u := by
  induction h with
  | refl => exact .step m .refl hm moved
  | step m' _ hm' moved' ih => exact .step m' ih hm' moved'

/-- A run may go on from where another has led. -/
theorem Runs.trans {allowed : Controller α → Move α → Prop} {s t u : Controller α}
    (h : Runs allowed s t) (k : Runs allowed t u) : Runs allowed s u := by
  induction k with
  | refl => exact h
  | step m _ hm moved ih => exact .step m ih hm moved

/-- A run stays one when more is allowed. -/
theorem Runs.mono {allowed allowed' : Controller α → Move α → Prop} {s t : Controller α}
    (h : Runs allowed s t) (hmore : ∀ u m, allowed u m → allowed' u m) : Runs allowed' s t := by
  induction h with
  | refl => exact .refl
  | step m _ hm moved ih => exact .step m ih (hmore _ m hm) moved

/-- Moves that are allowed anywhere make up a run. -/
theorem runs_replay {allowed : Controller α → Move α → Prop} {moves : List (Move α)}
    (hallowed : ∀ s, ∀ m ∈ moves, allowed s m) {s t : Controller α}
    (h : s.replay moves = some t) : Runs allowed s t := by
  induction moves generalizing s with
  | nil => exact Option.some.inj h ▸ .refl
  | cons m rest ih =>
    obtain ⟨u, hu, hrest⟩ := Option.bind_eq_some_iff.1 h
    have hmoved := ih (fun s m' hm' => hallowed s m' (List.mem_cons_of_mem _ hm')) hrest
    exact hmoved.prepend (hallowed s m List.mem_cons_self) hu

/-- The controller after some moves; `none` when one of them is not possible, or not allowed where
it would be made. -/
def replayWithin (allowed : Controller α → Move α → Prop) [∀ s m, Decidable (allowed s m)]
    (s : Controller α) : List (Move α) → Option (Controller α)
  | [] => some s
  | m :: rest =>
    if allowed s m then (s.step m).bind fun t => t.replayWithin allowed rest else none

theorem runs_replayWithin {allowed : Controller α → Move α → Prop}
    [∀ s m, Decidable (allowed s m)] {moves : List (Move α)} {s t : Controller α}
    (h : s.replayWithin allowed moves = some t) : Runs allowed s t := by
  induction moves generalizing s with
  | nil => exact Option.some.inj h ▸ .refl
  | cons m rest ih =>
    obtain ⟨hm, h⟩ := Option.ite_none_right_eq_some.1 h
    obtain ⟨u, hu, hrest⟩ := Option.bind_eq_some_iff.1 h
    exact (ih hrest).prepend hm hu

theorem replay_append (s : Controller α) (l l' : List (Move α)) :
    s.replay (l ++ l') = (s.replay l).bind fun u => u.replay l' := by
  induction l generalizing s with
  | nil => rfl
  | cons m rest ih =>
    simp only [List.cons_append, replay, Option.bind_assoc]
    exact congrArg _ (funext fun u => ih u)

theorem replay_concat {s u v : Controller α} {m : Move α} {moves : List (Move α)}
    (hs : s.replay moves = some u) (hstep : u.step m = some v) : s.replay (moves ++ [m]) = some v := by
  rw [replay_append, hs, Option.bind_some, replay, hstep]
  rfl

theorem reachable_of_replay {s u : Controller α} {moves : List (Move α)}
    (hs : s.replay moves = some u) : Reachable s u := by
  induction moves generalizing s with
  | nil => exact Option.some.inj hs ▸ .refl
  | cons m rest ih =>
    obtain ⟨v, hv, hrest⟩ := Option.bind_eq_some_iff.1 hs
    exact (Reachable.step m .refl hv).trans (ih hrest)

/-- One of the moves makes a step that satisfies `P`. -/
def Passes (s : Controller α) (moves : List (Move α))
    (P : Controller α → Move α → Controller α → Prop) : Prop :=
  ∃ l m rest u v, moves = l ++ m :: rest ∧ s.replay l = some u ∧ u.step m = some v ∧ P u m v

theorem Passes.concat {P : Controller α → Move α → Controller α → Prop} {moves : List (Move α)}
    (h : s.Passes moves P) (m : Move α) : s.Passes (moves ++ [m]) P := by
  obtain ⟨l, m', rest, u, v, rfl, hs, hstep, hP⟩ := h
  exact ⟨l, m', rest ++ [m], u, v, by simp, hs, hstep, hP⟩

/-- A step on the way is a step that was made before, or the last one. -/
theorem passes_concat_iff {P : Controller α → Move α → Controller α → Prop} {first u v : Controller α}
    {m : Move α} {moves : List (Move α)} (hs : first.replay moves = some u)
    (hstep : u.step m = some v) :
    first.Passes (moves ++ [m]) P ↔ first.Passes moves P ∨ P u m v := by
  constructor
  · rintro ⟨l, m', rest, u', v', heq, hs', hstep', hP⟩
    obtain rfl | ⟨rest, x, rfl⟩ := rest.eq_nil_or_concat
    · obtain ⟨rfl, hm⟩ := List.append_inj' heq rfl
      obtain rfl := List.singleton_inj.1 hm
      rw [hs] at hs'
      obtain rfl := Option.some.inj hs'
      rw [hstep] at hstep'
      exact .inr (Option.some.inj hstep' ▸ hP)
    · rw [List.concat_eq_append, ← List.cons_append, ← List.append_assoc] at heq
      exact .inl ⟨l, m', rest, u', v', (List.append_inj' heq rfl).1, hs', hstep', hP⟩
  · rintro (h | hP)
    · exact h.concat m
    · exact ⟨moves, m, [], u, v, rfl, hs, hstep, hP⟩

/-- Whatever permitted moves lead to, the gate is guarded. -/
theorem Guarded.run (hC : C.Serves c) (hgated : C.gated) (h : Guarded C c s o)
    {allowed : Controller α → Move α → Prop}
    (hallowed : ∀ {t m}, allowed t m → Permits C t m) {t : Controller α} (ht : Runs allowed s t) :
    ∃ o', Guarded C c t o' := by
  induction ht with
  | refl => exact ⟨o, h⟩
  | step m _ hm moved ih =>
    obtain ⟨o', h'⟩ := ih
    exact h'.step hC hgated (hallowed hm) moved

end Controller

end ClusterControl
