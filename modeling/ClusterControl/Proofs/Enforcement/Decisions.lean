import ClusterControl.Proofs.Enforcement.Reports

/-!
# What becomes of an accepted signal

Plans may overlap: an engine may start one while others are under way, and a machine may be under
way in several of them.  The table still names only watches that a signal may reach, and a watch
that has accepted a signal is left to itself.

* `Enforcement.Tabled` is what every act keeps (`Enforcement.Session.step_handled`); `Watch.Decided`
  is a watch that has accepted a signal, and `Watch.Heeds` says how it goes on.
* `Enforcement.Session.signal_decides` says of every session that an accepted signal decides the
  outcome, unless the watch finds that the request has failed and looks at that before its mail.
* `Enforcement.Session.signal_overlooked` is a session in which it does.
-/

namespace ClusterControl

/-- The outcome that a signal announces. -/
def MigrationOutcome.signalled : Bool → MigrationOutcome
  | true => .migrated
  | false => .failed "migration reported failure"

theorem Mailbox.outcome_sent (success : Bool) :
    (sent success).outcome? = some (.signalled success) := by
  cases success <;> rfl

/-- The mail is looked at before the answer to the request. -/
def Branch.MailFirst (order : List Branch) : Prop :=
  ∀ before after, order = before ++ request :: after → mail ∈ before

namespace Watch

/-- A signal was accepted, and what it said waits for the watch. -/
structure Decided (w : Watch) (success : Bool) : Prop where
  source : w.migration.source ≠ none
  waits : w.isUnderWay = true ∨ w.stage = .yielding
  mailbox : w.mailbox = .sent success
  terminated : w.terminated = true

/-- How a watch goes on that has accepted a signal and looks around in the given order. -/
inductive Heeds (w : Watch) (success : Bool) (order : List Branch) (w' : Watch) : Prop
  | waits (h : w'.Decided success)
  | hears (h : w'.stage = .finished (.signalled success))
  /-- The request has failed, and the mail was not looked at before. -/
  | overlooks {asked : Bool} {err : ControlError}
    (hanswer : w.stage = .starting asked (some (.error err))) (horder : ¬ Branch.MailFirst order)
    (h : w'.stage = .finished (.failed err.message))

variable {w : Watch} {success : Bool}

/-- A watch that waits on stays decided. -/
theorem Decided.setStage (h : w.Decided success) {s : Stage}
    (hs : { w with stage := s }.isUnderWay = true ∨ s = .yielding) :
    { w with stage := s }.Decided success :=
  ⟨h.source, hs, h.mailbox, h.terminated⟩

end Watch

namespace Enforcement

variable {e e' : Enforcement} {now i : Nat} {w : Watch}

/-! ## The table -/

/-- The table may name the watch for a machine. -/
def Names (e : Enforcement) (v : VmId) (j : Nat) : Prop :=
  ∃ w, e.watches[j]? = some w ∧ w.migration.vm = v ∧ w.migration.source ≠ none ∧
    w.isOpen = true ∧ w.terminated = false

/-- The table names watches that a signal may reach, and nothing has come for a watch that has not
begun. -/
structure Tabled (e : Enforcement) : Prop where
  named : ∀ {v j}, e.table.get? v = some j → e.Names v j
  created : ∀ {i : Nat} {w : Watch}, e.watches[i]? = some w → w.stage = .created →
    w.mailbox = .empty ∧ w.terminated = false

/-- The engine has changed in the hands of a watch: those that the table does not name are as they
were. -/
structure Handled (e e' : Enforcement) (i : Nat) : Prop where
  tabled : e'.Tabled
  others : ∀ {j : Nat}, j ≠ i → (∀ v, e.table.get? v ≠ some j) → e'.watches[j]? = e.watches[j]?

/-- A watch that the table does not name is as it was, or it is the one in whose hands the engine
was. -/
theorem Handled.eq_or_same {j : Nat} (h : Handled e e' i) (hfree : ∀ v, e.table.get? v ≠ some j) :
    j = i ∨ e'.watches[j]? = e.watches[j]? :=
  or_iff_not_imp_left.2 fun hj => h.others hj hfree

theorem tabled_idle (timeout : Nat) : (idle timeout).Tabled where
  named h := by simp [idle] at h
  created h := by simp [idle] at h

/-- A watch is named under its own machine alone. -/
theorem Tabled.vm_of_named (h : e.Tabled) (hw : e.watches[i]? = some w) {v : VmId}
    (hv : e.table.get? v = some i) : v = w.migration.vm := by
  obtain ⟨x, hx, rfl, -⟩ := h.named hv
  rw [hw] at hx
  rw [Option.some.inj hx]

/-- A watch that is not open is not named. -/
theorem Tabled.not_named (h : e.Tabled) (hw : e.watches[i]? = some w)
    (hclosed : w.isOpen = false ∨ w.terminated = true) (v : VmId) : e.table.get? v ≠ some i := by
  intro hv
  obtain ⟨x, hx, -, -, hopen, hterm⟩ := h.named hv
  rw [hw] at hx
  obtain rfl := Option.some.inj hx
  rcases hclosed with hclosed | hclosed
  · rw [hclosed] at hopen
    exact absurd hopen (by simp)
  · rw [hclosed] at hterm
    exact absurd hterm (by simp)

/-- What the table named before and names now is as good as before if it was left alone. -/
theorem Tabled.of_changes (h : e.Tabled)
    (hnamed : ∀ {v j}, e'.table.get? v = some j → e'.Names v j ∨
      e.table.get? v = some j ∧ e'.watches[j]? = e.watches[j]?)
    (hcreated : ∀ {j : Nat} {x : Watch}, e'.watches[j]? = some x → x.stage = .created →
      e.watches[j]? = some x) : e'.Tabled := by
  refine ⟨fun {v j} hv => ?_, fun hx hstage => h.created (hcreated hx hstage) hstage⟩
  obtain hnames | ⟨hbefore, hsame⟩ := hnamed hv
  · exact hnames
  · obtain ⟨x, hx, hrest⟩ := h.named hbefore
    exact ⟨x, hsame.trans hx, hrest⟩

/-! ## Parts of an act -/

theorem getElem?_modify_self (hw : e.watches[i]? = some w) (f : Watch → Watch) :
    (e.modify i f).watches[i]? = some (f w) := by
  rw [watches_modify hw]
  exact List.getElem?_set_self (List.getElem?_eq_some_iff.1 hw).1

theorem getElem?_modify_of_ne {j : Nat} (hj : j ≠ i) (f : Watch → Watch) :
    (e.modify i f).watches[j]? = e.watches[j]? :=
  List.getElem?_modify_ne _ _ hj.symm

/-- Dropping a machine touches the watch that is named for it, and no other. -/
theorem getElem?_drop {vm : VmId} {j : Nat} (hj : e.table.get? vm ≠ some j) :
    (e.drop vm).watches[j]? = e.watches[j]? := by
  unfold drop
  split
  · rename_i k hk
    exact getElem?_modify_of_ne (fun (heq : j = k) => hj (heq ▸ hk)) Watch.close
  · rfl

/-- Dropping a machine closes a watch that has begun, so one that has not is as it was. -/
theorem created_drop {vm : VmId}
    (hbegun : ∀ k, e.table.get? vm = some k → ∃ y, e.watches[k]? = some y ∧ y.stage ≠ .created)
    {j : Nat} {x : Watch} (hx : (e.drop vm).watches[j]? = some x) (hstage : x.stage = .created) :
    e.watches[j]? = some x := by
  by_cases hnamed : e.table.get? vm = some j
  · obtain ⟨y, hy, hbegun⟩ := hbegun j hnamed
    obtain ⟨w', -, hsame, hwatches⟩ := watches_drop hy fun k hk => by
      rw [hnamed] at hk
      exact (Option.some.inj hk).symm
    rw [hwatches, List.getElem?_set_self (List.getElem?_eq_some_iff.1 hy).1] at hx
    rw [← Option.some.inj hx, hsame] at hstage
    exact absurd hstage hbegun
  · rwa [getElem?_drop hnamed] at hx

theorem Tabled.begun (h : e.Tabled) {v : VmId} {k : Nat} (hk : e.table.get? v = some k) :
    ∃ y, e.watches[k]? = some y ∧ y.stage ≠ .created := by
  obtain ⟨y, hy, -, -, hopen, -⟩ := h.named hk
  refine ⟨y, hy, fun hstage => ?_⟩
  have hunder := (Watch.isOpen_iff.1 hopen).1
  rw [Watch.isUnderWay, hstage] at hunder
  exact absurd hunder (by simp)

/-- What is named for another machine is left alone when a machine is dropped. -/
theorem Tabled.named_of_drop (h : e.Tabled) {vm v : VmId} {j : Nat}
    (hv : (e.drop vm).table.get? v = some j) : v ≠ vm ∧ e.table.get? v = some j ∧
      e.table.get? vm ≠ some j := by
  rw [table_drop] at hv
  split at hv
  · exact absurd hv (by simp)
  · rename_i hne
    obtain ⟨x, hx, hvm, -⟩ := h.named hv
    refine ⟨hne, hv, fun hnamed => hne ?_⟩
    rw [h.vm_of_named hx hnamed, hvm]

theorem Tabled.handled_drop (h : e.Tabled) (vm : VmId) : Handled e (e.drop vm) i := by
  refine ⟨h.of_changes (fun {v j} hv => ?_) (created_drop fun _ hk => h.begun hk),
    fun _ hj => getElem?_drop (hj vm)⟩
  obtain ⟨-, hbefore, hfree⟩ := h.named_of_drop hv
  exact .inr ⟨hbefore, getElem?_drop hfree⟩

/-- A watch is changed that has begun, and stays one that the table may name if it does. -/
theorem Tabled.handled_modify (h : e.Tabled) (hw : e.watches[i]? = some w) {f : Watch → Watch}
    (hstage : (f w).stage ≠ .created)
    (hnamed : ∀ v, e.table.get? v = some i → (e.modify i f).Names v i) :
    Handled e (e.modify i f) i := by
  refine ⟨h.of_changes (fun {v j} hv => ?_) (fun {j x} hx hx' => ?_), fun hj _ =>
    getElem?_modify_of_ne hj f⟩
  · by_cases hj : j = i
    · subst hj
      exact .inl (hnamed v hv)
    · exact .inr ⟨hv, getElem?_modify_of_ne hj f⟩
  · by_cases hj : j = i
    · subst hj
      rw [getElem?_modify_self hw] at hx
      exact absurd (Option.some.inj hx ▸ hx') hstage
    · rwa [getElem?_modify_of_ne hj] at hx

/-- A watch is changed that has begun, and its machine leaves the table. -/
theorem Tabled.handled_modify_drop (h : e.Tabled) (hw : e.watches[i]? = some w) {f : Watch → Watch}
    (hstage : (f w).stage ≠ .created) : Handled e ((e.modify i f).drop w.migration.vm) i := by
  refine ⟨h.of_changes (fun {v j} hv => ?_) (fun {j x} hx hx' => ?_), fun {j} hj hfree => ?_⟩
  · have hdropped : (e.drop w.migration.vm).table.get? v = some j := by rwa [table_drop] at hv ⊢
    obtain ⟨hne, hbefore, hfree⟩ := h.named_of_drop hdropped
    have hj : j ≠ i := by
      rintro rfl
      exact hne (h.vm_of_named hw hbefore)
    exact .inr ⟨hbefore, (getElem?_drop (e := e.modify i f) hfree).trans
      (getElem?_modify_of_ne hj f)⟩
  · have hbegun : ∀ k, (e.modify i f).table.get? w.migration.vm = some k →
        ∃ y, (e.modify i f).watches[k]? = some y ∧ y.stage ≠ .created := by
      intro k hk
      by_cases hki : k = i
      · subst hki
        exact ⟨f w, getElem?_modify_self hw f, hstage⟩
      · obtain ⟨y, hy, hbegun⟩ := h.begun hk
        exact ⟨y, (getElem?_modify_of_ne hki f).trans hy, hbegun⟩
    have hmodified := created_drop hbegun hx hx'
    by_cases hj : j = i
    · subst hj
      rw [getElem?_modify_self hw] at hmodified
      exact absurd (Option.some.inj hmodified ▸ hx') hstage
    · rwa [getElem?_modify_of_ne hj] at hmodified
  · exact (getElem?_drop (e := e.modify i f) (hfree _)).trans (getElem?_modify_of_ne hj f)

/-- A watch ends. -/
theorem Tabled.handled_finish (h : e.Tabled) (hw : e.watches[i]? = some w) (o : MigrationOutcome) :
    Handled e (e.finish i w o) i := by
  have hhandled := h.handled_modify_drop (f := fun w => { w with stage := .finished o }) hw
    (by simp)
  exact ⟨⟨hhandled.tabled.named, hhandled.tabled.created⟩, hhandled.others⟩

/-- A watch goes on to a stage that is under way when a signal may reach it. -/
theorem Tabled.handled_setStage (h : e.Tabled) (hw : e.watches[i]? = some w) {s : Stage}
    (hs : s ≠ .created)
    (hunder : w.isOpen = true → w.terminated = false → { w with stage := s }.isUnderWay = true) :
    Handled e (e.setStage i s) i := by
  refine h.handled_modify hw hs fun v hv => ?_
  obtain ⟨x, hx, hvm, hsource, hopen, hterm⟩ := h.named hv
  rw [hw] at hx
  obtain rfl := Option.some.inj hx
  refine ⟨{ w with stage := s }, getElem?_modify_self hw _, hvm, hsource, ?_, hterm⟩
  exact Watch.isOpen_iff.2 ⟨hunder hopen hterm, (Watch.isOpen_iff.1 hopen).2⟩

/-- A signal is accepted by the watch that is named, or it changes nothing. -/
theorem Tabled.signal_cases (h : e.Tabled) (vm : VmId) (success : Bool) :
    e.signal vm success = (false, e) ∧ e.table.get? vm = none ∨
      ∃ j x, e.table.get? vm = some j ∧ e.watches[j]? = some x ∧ x.migration.vm = vm ∧
        x.migration.source ≠ none ∧ x.isOpen = true ∧
          e.signal vm success = (true, ({ e with table := e.table.erase vm } : Enforcement).modify j
            fun w => { w with terminated := true, mailbox := .sent success }) := by
  cases hnamed : e.table.get? vm with
  | none => exact .inl ⟨signal_eq_of_none hnamed success, rfl⟩
  | some j =>
    obtain ⟨x, hx, hvm, hsource, hopen, hterm⟩ := h.named hnamed
    exact .inr ⟨j, x, rfl, hx, hvm, hsource, hopen, signal_eq_of_some hnamed hx hterm success⟩

theorem Tabled.handled_signal (h : e.Tabled) (vm : VmId) (success : Bool) :
    Handled e (e.signal vm success).2 i := by
  obtain ⟨hsignal, -⟩ | ⟨k, y, hk, hy, hvm, hsource, hopen, hsignal⟩ := h.signal_cases vm success
  · rw [hsignal]
    exact ⟨h, fun _ _ => rfl⟩
  · rw [hsignal]
    have hfree : ∀ v j, (e.table.erase vm).get? v = some j → e.table.get? v = some j ∧ j ≠ k := by
      intro v j hv
      rw [SortedMap.get?_erase] at hv
      split at hv
      · exact absurd hv (by simp)
      · rename_i hne
        refine ⟨hv, ?_⟩
        rintro rfl
        exact hne ((h.vm_of_named hy hv).trans hvm)
    refine ⟨h.of_changes (fun {v j} hv => ?_) (fun {j x} hx hx' => ?_), fun {j} _ hj => ?_⟩
    · obtain ⟨hbefore, hj⟩ := hfree v j hv
      exact .inr ⟨hbefore, getElem?_modify_of_ne hj _⟩
    · by_cases hj : j = k
      · subst hj
        rw [getElem?_modify_self (show ({ e with table := e.table.erase vm } :
          Enforcement).watches[j]? = some y from hy)] at hx
        obtain ⟨y', hy', hbegun⟩ := h.begun hk
        rw [hy] at hy'
        rw [← Option.some.inj hx] at hx'
        exact absurd (Option.some.inj hy' ▸ hx') hbegun
      · rwa [getElem?_modify_of_ne hj] at hx
    · exact getElem?_modify_of_ne (fun (heq : j = k) => hj vm (heq ▸ hk)) _

/-- What is handled twice in the same hands is handled. -/
theorem Handled.trans {e'' : Enforcement} (h : Handled e e' i) (k : Handled e' e'' i)
    (hnamed : ∀ {v j}, j ≠ i → e'.table.get? v = some j → e.table.get? v = some j) :
    Handled e e'' i :=
  ⟨k.tabled, fun hj hfree =>
    (k.others hj fun v hv => hfree v (hnamed hj hv)).trans (h.others hj hfree)⟩

/-- A watch is entered for its machine in place of any other. -/
theorem Tabled.handled_register (h : e.Tabled) (hw : e.watches[i]? = some w)
    (hsource : w.migration.source ≠ none) (hstage : w.stage = .created) :
    Handled e (e.register now i w) i := by
  obtain ⟨hmail, hterm⟩ := h.created hw hstage
  have hfree : ∀ v, e.table.get? v ≠ some i := h.not_named hw (.inl (by
    rw [Watch.isOpen, Watch.isUnderWay, hstage]
    rfl))
  have hdropped := h.handled_drop w.migration.vm (i := i)
  let entered : Enforcement :=
    { e.drop w.migration.vm with table := (e.drop w.migration.vm).table.insert w.migration.vm i }
  have hget : entered.watches[i]? = some w := (getElem?_drop (hfree _)).trans hw
  have hregister : e.register now i w = entered.modify i fun w =>
      { w with stage := .starting false none, deadline := now + entered.timeout } := rfl
  have hothers : ∀ {j : Nat}, j ≠ i →
      (e.register now i w).watches[j]? = (e.drop w.migration.vm).watches[j]? :=
    fun hj => getElem?_modify_of_ne (e := entered) hj _
  rw [hregister] at hothers ⊢
  refine ⟨hdropped.tabled.of_changes (fun {v j} hv => ?_) (fun {j x} hx hx' => ?_),
    fun {j} hj hnot => (hothers hj).trans (getElem?_drop (hnot _))⟩
  · have hentry : entered.table.get? v = some j := hv
    rw [SortedMap.get?_insert] at hentry
    split at hentry
    · rename_i hvm
      obtain rfl := Option.some.inj hentry
      exact .inl ⟨_, getElem?_modify_self hget _, hvm.symm, hsource,
        Watch.isOpen_iff.2 ⟨rfl, hmail⟩, hterm⟩
    · have hj : j ≠ i := by
        rintro rfl
        exact hfree v (h.named_of_drop hentry).2.1
      exact .inr ⟨hentry, hothers hj⟩
  · by_cases hj : j = i
    · subst hj
      rw [getElem?_modify_self hget] at hx
      rw [← Option.some.inj hx] at hx'
      exact absurd hx' (by simp)
    · rwa [hothers hj] at hx

/-- The deadline has passed. -/
theorem Tabled.handled_force (h : e.Tabled) (hw : e.watches[i]? = some w) (source : HostId) :
    Handled e (e.force i w source).engine i := by
  unfold force
  split
  · rename_i hterm
    refine h.handled_setStage hw (by simp) fun _ hopen => ?_
    rw [hterm] at hopen
    exact absurd hopen (by simp)
  · exact h.handled_modify_drop hw (by simp)
      (f := fun w => { w with terminated := true, stage := .suspending none })

/-- The destination has answered. -/
theorem Tabled.handled_settle (h : e.Tabled) (hw : e.watches[i]? = some w)
    (r : Except ControlError MigrationStart) : Handled e (e.settle i w r) i := by
  have hrunning : Handled e (e.setStage i .running) i :=
    h.handled_setStage hw (by simp) fun _ _ => rfl
  unfold settle
  split
  · exact hrunning.trans (hrunning.tabled.handled_signal w.migration.vm true) fun _ hv => hv
  · exact hrunning
  · exact h.handled_finish hw _

theorem Tabled.handled_select (h : e.Tabled) (hw : e.watches[i]? = some w) (source : HostId)
    (asked : Bool) (answer : Option (Except ControlError MigrationStart)) (order : List Branch) :
    Handled e (e.select now i w source asked answer order).engine i := by
  induction order with
  | nil => exact ⟨h, fun _ _ => rfl⟩
  | cons b rest ih =>
    cases b <;> unfold select
    · split
      · exact h.handled_finish hw _
      · exact ih
    · split
      · exact h.handled_settle hw _
      · split
        · exact ih
        · exact h.handled_setStage hw (by simp) fun _ _ => rfl
    · split
      · exact h.handled_force hw source
      · exact ih

theorem Tabled.handled_await (h : e.Tabled) (hw : e.watches[i]? = some w) (source : HostId)
    (order : List Branch) : Handled e (e.await now i w source order).engine i := by
  induction order with
  | nil => exact ⟨h, fun _ _ => rfl⟩
  | cons b rest ih =>
    cases b <;> unfold await
    · split
      · exact h.handled_finish hw _
      · exact ih
    · exact ih
    · split
      · exact h.handled_force hw source
      · exact ih

/-- A watch looks around. -/
theorem Tabled.handled_poll (h : e.Tabled) (now i : Nat) (order : List Branch) :
    Handled e (e.poll now i order).engine i := by
  unfold poll
  split
  · exact ⟨h, fun _ _ => rfl⟩
  · rename_i w hw
    split
    · split
      · exact ⟨h, fun _ _ => rfl⟩
      · exact h.handled_finish hw _
    · rename_i source hsource
      split
      · rename_i hstage
        exact h.handled_register hw (by simp [hsource]) hstage
      · exact h.handled_select hw source _ _ order
      · exact h.handled_await hw source order
      · split
        · exact h.handled_finish hw _
        · exact ⟨h, fun _ _ => rfl⟩
      · exact h.handled_finish hw _
      · exact h.handled_finish hw _
      · exact ⟨h, fun _ _ => rfl⟩
      · exact ⟨h, fun _ _ => rfl⟩

/-- The destination answers the request of a watch. -/
theorem Tabled.handled_answerMigrate (h : e.Tabled) {r : Except ControlError MigrationStart}
    (hanswer : e.answerMigrate i r = some e') : Handled e e' i := by
  obtain ⟨w, hw, -, rfl⟩ := exists_of_answerMigrate hanswer
  exact h.handled_setStage hw (by simp) fun _ _ => rfl

/-- The source answers a watch that asked it to suspend its copy. -/
theorem Tabled.handled_answerSuspend (h : e.Tabled) {r : Except ControlError Unit}
    (hanswer : e.answerSuspend i r = some e') : Handled e e' i := by
  obtain ⟨w, hw, hstage, rfl⟩ := exists_of_answerSuspend hanswer
  refine h.handled_setStage hw (by simp) fun hopen _ => ?_
  have hunder := (Watch.isOpen_iff.1 hopen).1
  rw [Watch.isUnderWay, hstage] at hunder
  exact absurd hunder (by simp)

/-- A plan starts beside those that are under way. -/
theorem Tabled.start (h : e.Tabled) (plan : MigrationPlan) : (e.start plan).Tabled := by
  have hold : ∀ {j : Nat} {x : Watch}, e.watches[j]? = some x →
      (e.start plan).watches[j]? = some x := fun hx =>
    (List.getElem?_append_left (List.getElem?_eq_some_iff.1 hx).1).trans hx
  refine ⟨fun {v j} hv => ?_, fun {j x} hx hstage => ?_⟩
  · obtain ⟨x, hx, hrest⟩ := h.named hv
    exact ⟨x, hold hx, hrest⟩
  · obtain hbefore | ⟨m, -, rfl⟩ := start_watches hx
    · exact h.created hbefore hstage
    · exact ⟨rfl, rfl⟩

/-! ## A watch that has accepted a signal -/

variable {success : Bool}

/-- A watch that the table does not name ends as it was told. -/
theorem getElem?_finish (hw : e.watches[i]? = some w) (hfree : ∀ v, e.table.get? v ≠ some i)
    (o : MigrationOutcome) :
    (e.finish i w o).watches[i]? = some { w with stage := .finished o } :=
  (getElem?_drop (e := e.setStage i (.finished o)) (hfree _)).trans (getElem?_modify_self hw _)

theorem heeds_force (hw : e.watches[i]? = some w) (h : w.Decided success) (order : List Branch)
    (source : HostId) : ∃ w', (e.force i w source).engine.watches[i]? = some w' ∧
      w'.migration = w.migration ∧ w.Heeds success order w' := by
  refine ⟨{ w with stage := .yielding }, ?_, rfl, .waits (h.setStage (.inr rfl))⟩
  rw [force, if_pos h.terminated]
  exact getElem?_modify_self hw _

theorem heeds_finish (he : e.Tabled) (hw : e.watches[i]? = some w) (h : w.Decided success)
    (order : List Branch) {o : MigrationOutcome} (ho : w.mailbox.outcome? = some o) :
    ∃ w', (e.finish i w o).watches[i]? = some w' ∧ w'.migration = w.migration ∧
      w.Heeds success order w' := by
  rw [h.mailbox, Mailbox.outcome_sent] at ho
  refine ⟨_, getElem?_finish hw (he.not_named hw (.inr h.terminated)) o, rfl, .hears ?_⟩
  rw [Option.some.inj ho]

theorem heeds_settle (he : e.Tabled) (hw : e.watches[i]? = some w) (h : w.Decided success)
    {asked : Bool} {r : Except ControlError MigrationStart}
    (hstage : w.stage = .starting asked (some r)) {order : List Branch} (horder : ¬ Branch.MailFirst order) :
    ∃ w', (e.settle i w r).watches[i]? = some w' ∧ w'.migration = w.migration ∧
      w.Heeds success order w' := by
  have hfree := he.not_named hw (.inr h.terminated)
  have hget : (e.setStage i .running).watches[i]? = some { w with stage := .running } :=
    getElem?_modify_self hw _
  have hwaits : w.Heeds success order { w with stage := .running } := .waits (h.setStage (.inl rfl))
  unfold settle
  split
  · have htabled : (e.setStage i .running).Tabled :=
      (he.handled_setStage hw (by simp) fun _ _ => rfl).tabled
    refine ⟨_, Eq.trans ?_ hget, rfl, hwaits⟩
    obtain ⟨hsignal, -⟩ | ⟨k, y, hk, -, -, -, -, hsignal⟩ :=
      htabled.signal_cases w.migration.vm true
    · rw [hsignal]
    · rw [hsignal]
      exact getElem?_modify_of_ne (fun (heq : i = k) => hfree w.migration.vm (heq ▸ hk)) _
  · exact ⟨_, hget, rfl, hwaits⟩
  · exact ⟨_, getElem?_finish hw hfree _, rfl, .overlooks hstage horder rfl⟩

theorem heeds_select (he : e.Tabled) (hw : e.watches[i]? = some w) (h : w.Decided success)
    (source : HostId) {asked : Bool} {answer : Option (Except ControlError MigrationStart)}
    (hstage : w.stage = .starting asked answer) {before order : List Branch}
    (hbefore : .mail ∉ before) (rest : List Branch) (horder : order = before ++ rest) :
    ∃ w', (e.select now i w source asked answer rest).engine.watches[i]? = some w' ∧
      w'.migration = w.migration ∧ w.Heeds success order w' := by
  induction rest generalizing before with
  | nil => exact ⟨w, hw, rfl, .waits h⟩
  | cons b rest ih =>
    have hnext : .mail ∉ before ++ [b] → ∃ w',
        (e.select now i w source asked answer rest).engine.watches[i]? = some w' ∧
          w'.migration = w.migration ∧ w.Heeds success order w' := fun hmail =>
      ih hmail (by rw [horder, List.append_assoc, List.singleton_append])
    cases b <;> unfold select
    · split
      · rename_i o ho
        exact heeds_finish he hw h order ho
      · rename_i hnone
        rw [h.mailbox, Mailbox.outcome_sent] at hnone
        exact absurd hnone (by simp)
    · split
      · rename_i r
        exact heeds_settle he hw h hstage fun hfirst => hbefore (hfirst before rest horder)
      · split
        · exact hnext (by simpa using hbefore)
        · exact ⟨_, getElem?_modify_self hw _, rfl, .waits (h.setStage (.inl rfl))⟩
    · split
      · exact heeds_force hw h order source
      · exact hnext (by simpa using hbefore)

theorem heeds_await (he : e.Tabled) (hw : e.watches[i]? = some w) (h : w.Decided success)
    (source : HostId) (order rest : List Branch) :
    ∃ w', (e.await now i w source rest).engine.watches[i]? = some w' ∧
      w'.migration = w.migration ∧ w.Heeds success order w' := by
  induction rest with
  | nil => exact ⟨w, hw, rfl, .waits h⟩
  | cons b rest ih =>
    cases b <;> unfold await
    · split
      · rename_i o ho
        exact heeds_finish he hw h order ho
      · exact ih
    · exact ih
    · split
      · exact heeds_force hw h order source
      · exact ih

/-- A watch that has accepted a signal looks around. -/
theorem heeds_poll (he : e.Tabled) (hw : e.watches[i]? = some w) (h : w.Decided success)
    (order : List Branch) : ∃ w', (e.poll now i order).engine.watches[i]? = some w' ∧
      w'.migration = w.migration ∧ w.Heeds success order w' := by
  have hwaits : ∀ {s : Stage}, w.stage = s → s ≠ .yielding →
      { w with stage := s }.isUnderWay = true := by
    intro s hs hyielding
    obtain hunder | hstage := h.waits
    · rwa [← hs]
    · exact absurd (hs.symm.trans hstage) hyielding
  unfold poll
  rw [hw]
  dsimp only
  split
  · rename_i hsource
    exact absurd hsource h.source
  · rename_i source hsource
    split
    · rename_i hstage
      exact absurd (hwaits hstage (by simp)) (by simp [Watch.isUnderWay])
    · rename_i asked answer hstage
      have hnone : Branch.mail ∉ [] := List.not_mem_nil
      exact heeds_select he hw h source hstage hnone order rfl
    · exact heeds_await he hw h source order order
    · split
      · rename_i o ho
        exact heeds_finish he hw h order ho
      · exact ⟨w, hw, rfl, .waits h⟩
    · rename_i hstage
      exact absurd (hwaits hstage (by simp)) (by simp [Watch.isUnderWay])
    · rename_i hstage
      exact absurd (hwaits hstage (by simp)) (by simp [Watch.isUnderWay])
    · exact ⟨w, hw, rfl, .waits h⟩
    · exact ⟨w, hw, rfl, .waits h⟩

/-- A watch that has ended does nothing any more. -/
theorem poll_of_isFinished (hw : e.watches[i]? = some w) (h : w.isFinished = true)
    (order : List Branch) : e.poll now i order = quiet e := by
  unfold poll
  rw [hw]
  dsimp only
  split
  · rw [if_pos h]
  · split <;> simp_all [Watch.isFinished]

/-- A watch that has accepted a signal and looks at its mail first ends as the signal says. -/
theorem poll_mail (he : e.Tabled) (hw : e.watches[i]? = some w) (h : w.Decided success)
    (rest : List Branch) : ((e.poll now i (.mail :: rest)).engine.watches[i]?).bind Watch.result? =
      some ⟨w.migration, .signalled success⟩ := by
  have hfinish : ((e.finish i w (.signalled success)).watches[i]?).bind Watch.result? =
      some ⟨w.migration, .signalled success⟩ := by
    rw [getElem?_finish hw (he.not_named hw (.inr h.terminated))]
    rfl
  obtain ⟨source, hsource⟩ := Option.ne_none_iff_exists'.1 h.source
  have hmail : w.mailbox.outcome? = some (.signalled success) := by
    rw [h.mailbox, Mailbox.outcome_sent]
  unfold poll
  rw [hw]
  dsimp only
  rw [hsource]
  obtain hunder | hstage := h.waits
  · cases hstage : w.stage with
    | starting asked answer => simpa only [select, hmail, quiet] using hfinish
    | running => simpa only [await, hmail, quiet] using hfinish
    | created | yielding | suspending | finished => simp [Watch.isUnderWay, hstage] at hunder
  · simpa only [hstage, hmail, quiet] using hfinish

/-! ## Sessions with overlapping plans -/

namespace Session

variable {s t u : Session}

/-- What any sequence of acts leads to, while plans start at any time. -/
inductive Lives (s : Session) : Session → Prop
  | refl : Lives s s
  | act {t u : Session} (a : Act) : Lives s t → t.step a = some u → Lives s u
  | start {t : Session} (plan : MigrationPlan) : Lives s t →
    Lives s { t with engine := t.engine.start plan }

theorem Lives.trans (h : Lives s t) (k : Lives t u) : Lives s u := by
  induction k with
  | refl => exact h
  | act a _ hstep ih => exact .act a ih hstep
  | start plan _ ih => exact .start plan ih

theorem Runs.lives (h : Runs s t) : Lives s t := by
  induction h with
  | refl => exact .refl
  | step a _ hstep ih => exact .act a ih hstep

/-- An act keeps the table, and touches a watch that is not named only if it is about that watch. -/
theorem step_handled (h : s.engine.Tabled) {a : Act} (hstep : s.step a = some t) :
    t.engine.Tabled ∧ ∀ i, (∀ v, s.engine.table.get? v ≠ some i) →
      t.engine.watches[i]? = s.engine.watches[i]? ∨ (∃ order, a = .poll i order) ∨
        (∃ r, a = .answerMigrate i r) ∨ ∃ r, a = .answerSuspend i r := by
  cases a with
  | poll j order =>
    obtain rfl := Option.some.inj hstep
    have hhandled := h.handled_poll s.now j order
    refine ⟨hhandled.tabled, fun i hfree => ?_⟩
    obtain rfl | hsame := hhandled.eq_or_same hfree
    · exact .inr (.inl ⟨order, rfl⟩)
    · exact .inl hsame
  | answerMigrate j r =>
    obtain ⟨e, he, rfl⟩ := Option.map_eq_some_iff.1 hstep
    have hhandled := h.handled_answerMigrate he
    refine ⟨hhandled.tabled, fun i hfree => ?_⟩
    obtain rfl | hsame := hhandled.eq_or_same hfree
    · exact .inr (.inr (.inl ⟨r, rfl⟩))
    · exact .inl hsame
  | answerSuspend j r =>
    obtain ⟨e, he, rfl⟩ := Option.map_eq_some_iff.1 hstep
    have hhandled := h.handled_answerSuspend he
    refine ⟨hhandled.tabled, fun i hfree => ?_⟩
    obtain rfl | hsame := hhandled.eq_or_same hfree
    · exact .inr (.inr (.inr ⟨r, rfl⟩))
    · exact .inl hsame
  | signal vm success =>
    obtain rfl := Option.some.inj hstep
    refine ⟨(h.handled_signal (i := 0) vm success).tabled, fun i hfree => .inl ?_⟩
    exact (h.handled_signal (i := i + 1) vm success).others (Nat.ne_of_lt i.lt_succ_self) hfree
  | elapse ms =>
    obtain rfl := Option.some.inj hstep
    exact ⟨h, fun i _ => .inl rfl⟩

theorem Lives.tabled (h : Lives s t) (hs : s.engine.Tabled) : t.engine.Tabled := by
  induction h with
  | refl => exact hs
  | act a _ hstep ih => exact (step_handled ih hstep).1
  | start plan _ ih => exact ih.start plan

/-- A watch that has accepted a signal waits on, unless it looks around. -/
theorem step_decided (h : s.engine.Tabled) {i : Nat} {w : Watch} {success : Bool}
    (hw : s.engine.watches[i]? = some w) (hdecided : w.Decided success) {a : Act}
    (hstep : s.step a = some t) : ∃ w', t.engine.watches[i]? = some w' ∧
      w'.migration = w.migration ∧
        (w'.Decided success ∨ ∃ order, a = .poll i order ∧ w.Heeds success order w') := by
  have hfree := h.not_named hw (.inr hdecided.terminated)
  obtain hsame | ⟨order, rfl⟩ | ⟨r, rfl⟩ | ⟨r, rfl⟩ := (step_handled h hstep).2 i hfree
  · exact ⟨w, hsame.trans hw, rfl, .inl hdecided⟩
  · obtain rfl := Option.some.inj hstep
    obtain ⟨w', hw', hmigration, hheeds⟩ := heeds_poll h hw hdecided order
    exact ⟨w', hw', hmigration, .inr ⟨order, rfl, hheeds⟩⟩
  · obtain ⟨e, he, rfl⟩ := Option.map_eq_some_iff.1 hstep
    obtain ⟨x, -, -, rfl⟩ := exists_of_answerMigrate he
    exact ⟨_, getElem?_modify_self hw _, rfl, .inl (hdecided.setStage (.inl rfl))⟩
  · obtain ⟨e, he, -⟩ := Option.map_eq_some_iff.1 hstep
    obtain ⟨x, hx, hstage, -⟩ := exists_of_answerSuspend he
    rw [hw] at hx
    obtain rfl := Option.some.inj hx
    have hwaits := hdecided.waits
    rw [Watch.isUnderWay, hstage] at hwaits
    exact absurd hwaits (by simp)

/-- A watch that has ended stays as it is. -/
theorem step_finished (h : s.engine.Tabled) {i : Nat} {w : Watch}
    (hw : s.engine.watches[i]? = some w) (hfinished : w.isFinished = true) {a : Act}
    (hstep : s.step a = some t) : t.engine.watches[i]? = some w := by
  have hfree := h.not_named hw (.inl (Watch.isOpen_of_isFinished hfinished))
  have hended : ∀ {x : Watch}, s.engine.watches[i]? = some x → x.isFinished = true := by
    intro x hx
    rw [hw] at hx
    rwa [← Option.some.inj hx]
  obtain hsame | ⟨order, rfl⟩ | ⟨r, rfl⟩ | ⟨r, rfl⟩ := (step_handled h hstep).2 i hfree
  · exact hsame.trans hw
  · obtain rfl := Option.some.inj hstep
    show (s.engine.poll s.now i order).engine.watches[i]? = some w
    rwa [poll_of_isFinished hw hfinished]
  · obtain ⟨e, he, -⟩ := Option.map_eq_some_iff.1 hstep
    obtain ⟨x, hx, hstage, -⟩ := exists_of_answerMigrate he
    exact absurd (hended hx) (by simp [Watch.isFinished, hstage])
  · obtain ⟨e, he, -⟩ := Option.map_eq_some_iff.1 hstep
    obtain ⟨x, hx, hstage, -⟩ := exists_of_answerSuspend he
    exact absurd (hended hx) (by simp [Watch.isFinished, hstage])

/-- Some time after `s` the watch found that its request had failed, and did not look at its mail
before. -/
def Overlooks (s t : Session) (i : Nat) (err : ControlError) : Prop :=
  ∃ p q order w asked, Lives s p ∧ p.engine.watches[i]? = some w ∧
    w.stage = .starting asked (some (.error err)) ∧ ¬ Branch.MailFirst order ∧
      p.step (.poll i order) = some q ∧ Lives q t

/-- What has become of a watch at `t` that had accepted a signal at `s`. -/
inductive Fate (s t : Session) (i : Nat) (m : Migration) (success : Bool) : Prop
  /-- It still waits.  If it looks at its mail first next time, it ends as the signal says. -/
  | waits {w : Watch} (hw : t.engine.watches[i]? = some w) (hm : w.migration = m)
    (hdecided : w.Decided success)
    (hnext : ∀ rest, ((t.engine.poll t.now i (.mail :: rest)).engine.watches[i]?).bind
      Watch.result? = some ⟨m, .signalled success⟩)
  | hears {w : Watch} (hw : t.engine.watches[i]? = some w)
    (hresult : w.result? = some ⟨m, .signalled success⟩)
  | overlooks {w : Watch} {err : ControlError} (hw : t.engine.watches[i]? = some w)
    (hresult : w.result? = some ⟨m, .failed err.message⟩) (h : Overlooks s t i err)

theorem Fate.of_decided (h : t.engine.Tabled) {i : Nat} {w : Watch} {success : Bool}
    (hw : t.engine.watches[i]? = some w) (hdecided : w.Decided success) :
    Fate s t i w.migration success :=
  .waits hw rfl hdecided (poll_mail h hw hdecided)

theorem isFinished_of_result {w : Watch} {x : MigrationResult} (h : w.result? = some x) :
    w.isFinished = true := by
  unfold Watch.result? at h
  unfold Watch.isFinished
  split at h <;> simp_all

/-- A watch that has ended keeps its fate. -/
theorem Fate.finished {i : Nat} {m : Migration} {success : Bool} (h : Fate s t i m success)
    (hu : Lives t u) (hsame : ∀ w, t.engine.watches[i]? = some w → w.isFinished = true →
      u.engine.watches[i]? = some w)
    (hwaits : ∀ w, t.engine.watches[i]? = some w → w.migration = m → w.Decided success →
      Fate s u i m success) : Fate s u i m success := by
  cases h with
  | waits hw hm hdecided _ => exact hwaits _ hw hm hdecided
  | hears hw hresult => exact .hears (hsame _ hw (isFinished_of_result hresult)) hresult
  | overlooks hw hresult h =>
    obtain ⟨p, q, order, w, asked, hp, hget, hstage, horder, hstep, hq⟩ := h
    exact .overlooks (hsame _ hw (isFinished_of_result hresult)) hresult
      ⟨p, q, order, w, asked, hp, hget, hstage, horder, hstep, hq.trans hu⟩

/-- From the moment on at which a watch has accepted a signal, it has one of these fates. -/
theorem Lives.fate (h : Lives s t) (hs : s.engine.Tabled) {i : Nat} {w : Watch} {success : Bool}
    (hw : s.engine.watches[i]? = some w) (hdecided : w.Decided success) :
    Fate s t i w.migration success := by
  induction h with
  | refl => exact .of_decided hs hw hdecided
  | @act t u a hst hstep ih =>
    have ht := hst.tabled hs
    have hu : u.engine.Tabled := (step_handled ht hstep).1
    refine ih.finished (.act a .refl hstep)
      (fun x hx hfinished => step_finished ht hx hfinished hstep) fun x hx hm hdecided => ?_
    obtain ⟨y, hy, hmigration, hwaits | ⟨order, rfl, hheeds⟩⟩ := step_decided ht hx hdecided hstep
    · rw [← hm, ← hmigration]
      exact .of_decided hu hy hwaits
    · cases hheeds with
      | waits hwaits =>
        rw [← hm, ← hmigration]
        exact .of_decided hu hy hwaits
      | hears hstage =>
        refine .hears hy ?_
        rw [Watch.result?, hstage, ← hm, ← hmigration]
      | overlooks hanswer horder hstage =>
        refine .overlooks hy ?_ ⟨t, u, order, x, _, hst, hx, hanswer, horder, hstep, .refl⟩
        rw [Watch.result?, hstage, ← hm, ← hmigration]
  | @start t plan hst ih =>
    have hold : ∀ x, t.engine.watches[i]? = some x → (t.engine.start plan).watches[i]? = some x :=
      fun x hx => (List.getElem?_append_left (List.getElem?_eq_some_iff.1 hx).1).trans hx
    refine ih.finished (.start plan .refl) (fun x hx _ => hold x hx) fun x hx hm hdecided => ?_
    rw [← hm]
    exact .of_decided ((hst.tabled hs).start plan) (hold x hx) hdecided

/-- Whatever plans are under way and whatever happens, a signal that is accepted is accepted by a
watch that is registered for the machine, and decides what that watch reports, unless the watch
finds that its request has failed and looks at that before its mail. -/
theorem signal_decides {timeout now : Nat} (hs : Lives ⟨idle timeout, now, []⟩ s) {vm : VmId}
    {success : Bool} (haccepted : (s.engine.signal vm success).1 = true) :
    ∃ i w, s.engine.table.get? vm = some i ∧ s.engine.watches[i]? = some w ∧
      w.migration.vm = vm ∧ w.isUnderWay = true ∧
        ∀ t u, s.step (.signal vm success) = some t → Lives t u →
          Fate t u i w.migration success := by
  have htabled := hs.tabled (tabled_idle timeout)
  obtain ⟨hsignal, -⟩ | ⟨i, w, hi, hw, hvm, hsource, hopen, hsignal⟩ :=
    htabled.signal_cases vm success
  · rw [hsignal] at haccepted
    exact absurd haccepted (by simp)
  · refine ⟨i, w, hi, hw, hvm, (Watch.isOpen_iff.1 hopen).1, fun t u hstep hu => ?_⟩
    have ht := (step_handled htabled hstep).1
    obtain rfl := Option.some.inj hstep
    have hget : (s.engine.signal vm success).2.watches[i]? =
        some { w with terminated := true, mailbox := .sent success } := by
      rw [hsignal]
      exact getElem?_modify_self (e := { s.engine with table := s.engine.table.erase vm }) hw _
    exact hu.fate (w := { w with terminated := true, mailbox := .sent success }) ht hget
      ⟨hsource, .inl (Watch.isOpen_iff.1 hopen).1, rfl, rfl⟩

/-- One machine moves. -/
def oneMove : MigrationPlan := .recorded [⟨"v", some "a", "b"⟩]

/-- The destination has refused the machine, and the watch has not looked at its answer. -/
def refused : List Act :=
  [.poll 0 [], .poll 0 Branch.all, .answerMigrate 0 (.error (.rejected "b" "no"))]

theorem signal_decides_of_refused : ∃ s t u, Lives ⟨idle 10, 0, []⟩ s ∧
    (s.engine.signal "v" false).1 = true ∧ s.step (.signal "v" false) = some t ∧ Lives t u ∧
      (u.engine.watches[0]?).bind Watch.result? =
        some ⟨⟨"v", some "a", "b"⟩, .failed "migration reported failure"⟩ ∧
      Fate t u 0 ⟨"v", some "a", "b"⟩ false := by
  -- The plan is started once more before the watch looks around.
  have hend : ((begin (idle 10) oneMove 0).play refused).bind (fun s =>
      if (s.engine.signal "v" false).1 && s.engine.table.get? "v" == some 0 then
        (s.step (.signal "v" false)).bind fun t =>
          (Session.play { t with engine := t.engine.start oneMove }
            [.poll 1 [], .poll 0 [.mail, .request, .deadline]]).bind fun u =>
              (u.engine.watches[0]?).bind Watch.result?
      else none) = some ⟨⟨"v", some "a", "b"⟩, .failed "migration reported failure"⟩ := by
    decide +kernel
  obtain ⟨s, hs, hend⟩ := Option.bind_eq_some_iff.1 hend
  obtain ⟨hboth, hend⟩ := Option.ite_none_right_eq_some.1 hend
  obtain ⟨haccepted, hnamed⟩ := Bool.and_eq_true_iff.1 hboth
  obtain ⟨t, ht, hend⟩ := Option.bind_eq_some_iff.1 hend
  obtain ⟨u, hu, hresult⟩ := Option.bind_eq_some_iff.1 hend
  have hlives : Lives ⟨idle 10, 0, []⟩ s := (Lives.start oneMove .refl).trans (runs_play hs).lives
  have hmore : Lives t u := (Lives.start oneMove .refl).trans (runs_play hu).lives
  obtain ⟨i, w, hi, hw, -, -, hfate⟩ := signal_decides hlives haccepted
  rw [beq_iff_eq.1 hnamed] at hi
  obtain rfl := Option.some.inj hi
  have hmigration : w.migration = ⟨"v", some "a", "b"⟩ := by
    have hfirst : ((begin (idle 10) oneMove 0).play refused).bind (fun s =>
        (s.engine.watches[0]?).map Watch.migration) = some ⟨"v", some "a", "b"⟩ := by
      decide +kernel
    rw [hs, Option.bind_some, hw, Option.map_some] at hfirst
    exact Option.some.inj hfirst
  have hfated := hfate t u ht hmore
  rw [hmigration] at hfated
  exact ⟨s, t, u, hlives, haccepted, ht, hmore, hresult, hfated⟩

/-- The machine has arrived, and the signal that says so is accepted; but the watch looks at the
refusal first, and that is what it reports. -/
theorem signal_overlooked : ∃ s t u r err, Lives ⟨idle 10, 0, []⟩ s ∧
    (s.engine.signal "v" true).1 = true ∧ s.step (.signal "v" true) = some t ∧ Lives t u ∧
      u.engine.report? 0 = some r ∧
        r.results = [⟨⟨"v", some "a", "b"⟩, .failed (ControlError.message err)⟩] := by
  have hend : ((begin (idle 10) oneMove 0).play refused).bind (fun s =>
      if (s.engine.signal "v" true).1 then (s.step (.signal "v" true)).bind fun t =>
        (t.play [.poll 0 [.request, .deadline, .mail]]).bind fun u =>
          (u.engine.report? 0).map EnforcementReport.results else none) =
      some [⟨⟨"v", some "a", "b"⟩, .failed (ControlError.message (.rejected "b" "no"))⟩] := by
    decide +kernel
  obtain ⟨s, hs, hend⟩ := Option.bind_eq_some_iff.1 hend
  obtain ⟨haccepted, hend⟩ := Option.ite_none_right_eq_some.1 hend
  obtain ⟨t, ht, hend⟩ := Option.bind_eq_some_iff.1 hend
  obtain ⟨u, hu, hend⟩ := Option.bind_eq_some_iff.1 hend
  obtain ⟨r, hr, hresults⟩ := Option.map_eq_some_iff.1 hend
  exact ⟨s, t, u, r, _, (Lives.start oneMove .refl).trans (runs_play hs).lives, haccepted, ht,
    (runs_play hu).lives, hr, hresults⟩

end Session

end Enforcement

end ClusterControl
