import ClusterControl.Proofs.Enforcement.Decisions

/-!
# What engines ask hosts for

An engine asks destinations to take machines on and sources to suspend their copies, and nothing
else.  Once all its watches have come to their ends, it asks for nothing.

* `Enforcement.enforces_poll` says what a poll may ask for.
* `Enforcement.Over` are the engines that ask for nothing, and stay so.
-/

namespace ClusterControl

/-- A request that engines make when they carry plans out. -/
def HostCall.Enforces : HostCall → Prop
  | migrate _ => True
  | suspend .. => True
  | _ => False

namespace Enforcement

variable {e : Enforcement}

/-! ## Engines without a watch under way -/

/-- Every watch has come to its end. -/
def Over (e : Enforcement) : Prop := ∀ w ∈ e.watches, w.isFinished = true

theorem over_idle (timeout : Nat) : (idle timeout).Over := fun _ h => absurd h List.not_mem_nil

theorem Over.get (h : e.Over) {i : Nat} {w : Watch} (hw : e.watches[i]? = some w) :
    w.isFinished = true := h w (List.mem_of_getElem? hw)

theorem Over.modify (h : e.Over) (i : Nat) {f : Watch → Watch}
    (hf : ∀ w, (f w).isFinished = w.isFinished) : (e.modify i f).Over := by
  intro w hw
  obtain ⟨j, hj⟩ := List.getElem?_of_mem hw
  rw [Enforcement.modify, List.getElem?_modify] at hj
  obtain ⟨v, hv, rfl⟩ := Option.map_eq_some_iff.1 hj
  split
  · rw [hf]
    exact h.get hv
  · exact h.get hv

theorem Over.signal (h : e.Over) (vm : VmId) (success : Bool) : (e.signal vm success).2.Over := by
  have hclose : ∀ w : Watch, w.close.isFinished = w.isFinished := by
    intro w
    unfold Watch.close
    split <;> rfl
  unfold Enforcement.signal
  split
  · exact h
  rename_i j _
  have htaken : ({ e with table := e.table.erase vm } : Enforcement).Over := h
  dsimp only
  split
  · exact h
  · split
    · exact htaken.modify j hclose
    · exact htaken.modify j fun _ => rfl

theorem Over.poll (h : e.Over) (now i : Nat) (order : List Branch) :
    e.poll now i order = quiet e := by
  cases hw : e.watches[i]? with
  | none => rw [Enforcement.poll, hw]
  | some w => exact poll_of_isFinished hw (h.get hw) order

theorem Over.answerMigrate (h : e.Over) (i : Nat) (r : Except ControlError MigrationStart) :
    e.answerMigrate i r = none := by
  unfold Enforcement.answerMigrate
  split
  · rename_i w hw
    have hfinished := h.get hw
    split
    · rename_i hstage
      exact absurd hfinished (by simp [Watch.isFinished, hstage])
    · rfl
  · rfl

theorem Over.answerSuspend (h : e.Over) (i : Nat) (r : Except ControlError Unit) :
    e.answerSuspend i r = none := by
  unfold Enforcement.answerSuspend
  split
  · rename_i w hw
    have hfinished := h.get hw
    split
    · rename_i hstage
      exact absurd hfinished (by simp [Watch.isFinished, hstage])
    · rfl
  · rfl

/-! ## What engines ask for -/

/-- A step asks for nothing, or for what carries plans out. -/
def Progress.Enforces (p : Progress) : Prop := ∀ c ∈ p.call, c.Enforces

theorem enforces_quiet (e : Enforcement) : (quiet e).Enforces := by simp [quiet, Progress.Enforces]

theorem enforces_force (e : Enforcement) (i : Nat) (w : Watch) (source : HostId) :
    (e.force i w source).Enforces := by
  unfold force
  split
  · exact enforces_quiet _
  · rintro c ⟨⟩
    trivial

theorem enforces_select (e : Enforcement) (now i : Nat) (w : Watch) (source : HostId)
    (asked : Bool) (answer : Option (Except ControlError MigrationStart)) (order : List Branch) :
    (e.select now i w source asked answer order).Enforces := by
  induction order with
  | nil => exact enforces_quiet e
  | cons b rest ih =>
    cases b with
    | mail =>
      unfold select
      split
      · exact enforces_quiet _
      · exact ih
    | request =>
      unfold select
      split
      · exact enforces_quiet _
      · split
        · exact ih
        · rintro c ⟨⟩
          trivial
    | deadline =>
      unfold select
      split
      · exact enforces_force e i w source
      · exact ih

theorem enforces_await (e : Enforcement) (now i : Nat) (w : Watch) (source : HostId)
    (order : List Branch) : (e.await now i w source order).Enforces := by
  induction order with
  | nil => exact enforces_quiet e
  | cons b rest ih =>
    cases b with
    | mail =>
      unfold await
      split
      · exact enforces_quiet _
      · exact ih
    | request => exact ih
    | deadline =>
      unfold await
      split
      · exact enforces_force e i w source
      · exact ih

/-- A poll asks for nothing but what carries plans out. -/
theorem enforces_poll (e : Enforcement) (now i : Nat) (order : List Branch) :
    (e.poll now i order).Enforces := by
  unfold Enforcement.poll
  split
  · exact enforces_quiet e
  split
  · split <;> exact enforces_quiet _
  split
  · exact enforces_quiet _
  · exact enforces_select e now i _ _ _ _ order
  · exact enforces_await e now i _ _ order
  · split <;> exact enforces_quiet _
  all_goals exact enforces_quiet _

end Enforcement

end ClusterControl
