import ClusterControl.Proofs.Enforcement.Batches
import ClusterControl.Proofs.Enforcement.Session
import ClusterControl.Proofs.SortedMap

/-!
# What an act does to a watch

An act changes one watch at most, and the table at the machine of that watch only.  `Watch.Turn`
lists the ways in which a watch goes on, each with what is seen of it; `Enforcement.Orderly` is what
keeps the watches out of each other's way.  Every act on an orderly engine is a turn of one watch or
changes nothing (`Enforcement.Orderly.poll` for a look around, `Enforcement.Orderly.signal` for a
signal, and likewise for the answers of hosts), and an orderly engine stays orderly
(`Enforcement.Turned.orderly`).
-/

namespace ClusterControl

open Enforcement (Deed)

namespace Watch

/-- The watch is registered and waits for a signal, an answer or the deadline. -/
def isUnderWay (w : Watch) : Bool :=
  match w.stage with
  | .starting .. => true
  | .running => true
  | _ => false

/-- A signal may still reach the watch. -/
def isOpen (w : Watch) : Bool := w.isUnderWay && w.mailbox == .empty

/-- The flag and the channel agree: nothing was decided, or a signal has decided. -/
def Agrees (w : Watch) : Prop :=
  (w.mailbox = .empty ∧ w.terminated = false) ∨ ∃ b, w.mailbox = .sent b ∧ w.terminated = true

/-- The channel and the flag are as the stage of the watch demands. -/
def Coherent (w : Watch) : Prop :=
  (w.stage = .created → w.mailbox = .empty ∧ w.terminated = false) ∧
    (w.isUnderWay = true → w.Agrees)

theorem Agrees.terminated_of_empty {w : Watch} (h : w.Agrees) (hmail : w.mailbox = .empty) :
    w.terminated = false := by
  rcases h with ⟨-, hterm⟩ | ⟨b, hsent, -⟩
  · exact hterm
  · rw [hmail] at hsent
    exact absurd hsent (by simp)

theorem isFinished_of_stage {w : Watch} {o : MigrationOutcome} (h : w.stage = .finished o) :
    w.isFinished = true := by
  rw [isFinished, h]

/-- A watch that a signal may still reach is under way, and nothing has come for it. -/
theorem isOpen_iff {w : Watch} : w.isOpen = true ↔ w.isUnderWay = true ∧ w.mailbox = .empty := by
  rw [isOpen, Bool.and_eq_true, beq_iff_eq]

theorem isFinished_of_isUnderWay {w : Watch} (h : w.isUnderWay = true) : w.isFinished = false := by
  unfold isUnderWay at h
  unfold isFinished
  split at h <;> simp_all

/-- A watch that stays under way is as open as before. -/
theorem isOpen_of_isUnderWay {w : Watch} {s : Stage} (h : w.isUnderWay = true)
    (h' : { w with stage := s }.isUnderWay = true) : { w with stage := s }.isOpen = w.isOpen := by
  rw [isOpen, isOpen, h, h']

theorem isOpen_of_isFinished {w : Watch} (h : w.isFinished = true) : w.isOpen = false := by
  by_contra hopen
  rw [Bool.not_eq_false, isOpen_iff] at hopen
  rw [isFinished_of_isUnderWay hopen.1] at h
  exact absurd h (by simp)

theorem Coherent.terminated_of_isOpen {w : Watch} (h : w.Coherent) (hopen : w.isOpen = true) :
    w.terminated = false :=
  (h.2 (isOpen_iff.1 hopen).1).terminated_of_empty (isOpen_iff.1 hopen).2

theorem Coherent.terminated_of_sent {w : Watch} (h : w.Coherent) (hunder : w.isUnderWay = true)
    {b : Bool} (hsent : w.mailbox = .sent b) : w.terminated = true := by
  rcases h.2 hunder with ⟨hmail, -⟩ | ⟨-, -, hterm⟩
  · rw [hsent] at hmail
    exact absurd hmail (by simp)
  · exact hterm

/-! ## Turns -/

/-- How a watch goes on, and what is seen of it. -/
inductive Turn (now timeout : Nat) (w w' : Watch) : List Deed → Prop
  /-- A machine without a source cannot be migrated. -/
  | lapse {reason : String} (hsource : w.migration.source = none)
    (hstage' : w'.stage = .finished (.failed reason)) : Turn now timeout w w' []
  | register (hstage : w.stage = .created)
    (hw' : w' = { w with stage := .starting false none, deadline := now + timeout }) :
    Turn now timeout w w' [.registered w.migration.vm]
  | ask {answer : Option (Except ControlError MigrationStart)}
    (hstage : w.stage = .starting false answer)
    (hw' : w' = { w with stage := .starting true none }) :
    Turn now timeout w w' [.called (.migrate w.migration)]
  | answered (r : Except ControlError MigrationStart) (hstage : w.stage = .starting true none)
    (hw' : w' = { w with stage := .starting true (some r) }) : Turn now timeout w w' []
  | started {asked : Bool} (hstage : w.stage = .starting asked (some (.ok .started)))
    (hw' : w' = { w with stage := .running }) : Turn now timeout w w' []
  /-- The migration was over at once, and nothing else had come in. -/
  | completed {asked : Bool} (hstage : w.stage = .starting asked (some (.ok .completed)))
    (hopen : w.isOpen = true)
    (hw' : w' = { w with stage := .running, terminated := true, mailbox := .sent true }) :
    Turn now timeout w w' [.signalled w.migration.vm true true]
  /-- The migration was over at once, but a signal had come in before. -/
  | overtaken {asked : Bool} (hstage : w.stage = .starting asked (some (.ok .completed)))
    (hw' : w' = { w with stage := .running }) :
    Turn now timeout w w' [.signalled w.migration.vm true false]
  | refused {asked : Bool} {err : ControlError}
    (hstage : w.stage = .starting asked (some (.error err)))
    (hstage' : w'.stage = .finished (.failed err.message)) : Turn now timeout w w' []
  /-- A signal is accepted. -/
  | accept (success : Bool) (hopen : w.isOpen = true)
    (hw' : w' = { w with terminated := true, mailbox := .sent success }) :
    Turn now timeout w w' [.signalled w.migration.vm success true]
  /-- What came through the channel ends the matter. -/
  | hear {o : MigrationOutcome} (hwaits : w.isUnderWay = true ∨ w.stage = .yielding)
    (hmail : w.mailbox.outcome? = some o) (hstage' : w'.stage = .finished o) :
    Turn now timeout w w' []
  /-- The deadline has passed, but a signal was accepted before. -/
  | yield (hwaits : w.isUnderWay = true) (hterm : w.terminated = true)
    (hw' : w' = { w with stage := .yielding }) : Turn now timeout w w' []
  /-- The deadline has passed, and the source is asked to suspend its copy. -/
  | expire {source : HostId} (hsource : w.migration.source = some source)
    (hwaits : w.isUnderWay = true) (hdue : w.deadline ≤ now) (hterm : w.terminated = false)
    (hstage' : w'.stage = .suspending none) :
    Turn now timeout w w' [.called (.suspend source w.migration.vm)]
  | suspended (r : Except ControlError Unit) (hstage : w.stage = .suspending none)
    (hstage' : w'.stage = .suspending (some r)) : Turn now timeout w w' []
  /-- The source has answered, one way or the other. -/
  | forced {r : Except ControlError Unit} {o : MigrationOutcome}
    (hstage : w.stage = .suspending (some r)) (hstage' : w'.stage = .finished o)
    (ho : o = .forcedSuspend ∨ ∃ reason, o = .failed reason) : Turn now timeout w w' []

end Watch

namespace Enforcement

/-! ## Engines whose watches keep out of each other's way -/

/-- The table names the watches that a signal may still reach, and no two unfinished watches are
about one machine. -/
structure Orderly (e : Enforcement) : Prop where
  table : ∀ {v j}, e.table.get? v = some j ↔
    ∃ w, e.watches[j]? = some w ∧ w.migration.vm = v ∧ w.isOpen = true
  distinct : ∀ {i j : Nat} {w w' : Watch}, e.watches[i]? = some w → e.watches[j]? = some w' →
    w.isFinished = false → w'.isFinished = false → w.migration.vm = w'.migration.vm → i = j
  coherent : ∀ {i : Nat} {w : Watch}, e.watches[i]? = some w → w.Coherent

/-- From `e` to `e'` one watch takes a turn, and only its own entry in the table changes. -/
structure Turned (e e' : Enforcement) (now i : Nat) (w w' : Watch) (ds : List Deed) : Prop where
  get : e.watches[i]? = some w
  unfinished : w.isFinished = false
  turn : Watch.Turn now e.timeout w w' ds
  label : w'.label = w.label
  watches : e'.watches = e.watches.set i w'
  table : ∀ v, e'.table.get? v =
    if v = w.migration.vm then (if w'.isOpen then some i else none) else e.table.get? v
  completed : e'.completed = if w'.isFinished then e.completed ++ [i] else e.completed
  timeout : e'.timeout = e.timeout

variable {e e' : Enforcement} {now i : Nat} {w w' : Watch} {ds : List Deed}

/-- The table knows an unfinished watch if and only if a signal may still reach it. -/
theorem Orderly.lookup (h : e.Orderly) (hw : e.watches[i]? = some w)
    (hunfinished : w.isFinished = false) :
    e.table.get? w.migration.vm = if w.isOpen then some i else none := by
  by_cases hopen : w.isOpen = true
  · rw [if_pos hopen]
    exact h.table.2 ⟨w, hw, rfl, hopen⟩
  · rw [if_neg hopen]
    by_contra hsome
    obtain ⟨j, hj⟩ := Option.ne_none_iff_exists'.1 hsome
    obtain ⟨w₁, hw₁, hvm, hopen₁⟩ := h.table.1 hj
    have hunfinished₁ := Watch.isFinished_of_isUnderWay (Watch.isOpen_iff.1 hopen₁).1
    obtain rfl := h.distinct hw hw₁ hunfinished hunfinished₁ hvm.symm
    rw [hw] at hw₁
    exact hopen (Option.some.inj hw₁ ▸ hopen₁)

theorem Turned.get' (h : Turned e e' now i w w' ds) : e'.watches[i]? = some w' := by
  rw [h.watches]
  exact List.getElem?_set_self (List.getElem?_eq_some_iff.1 h.get).1

theorem Turned.vm (h : Turned e e' now i w w' ds) : w'.migration.vm = w.migration.vm :=
  congrArg (fun l : Nat × Migration => l.2.vm) h.label

/-- The turn of a watch leaves the other ones alone. -/
theorem Turned.others (h : Turned e e' now i w w' ds) {j : Nat} (hj : j ≠ i) :
    e'.watches[j]? = e.watches[j]? := by
  rw [h.watches, List.getElem?_set_ne hj.symm]

/-- After a turn the channel and the flag are as the stage demands. -/
theorem Watch.Turn.coherent {timeout : Nat} (h : Watch.Turn now timeout w w' ds)
    (hw : w.Coherent) : w'.Coherent := by
  have hended : ∀ {s : Stage}, w'.stage = s → s ≠ .created → (∀ a r, s ≠ .starting a r) →
      s ≠ .running → w'.Coherent := by
    intro s hs hcreated hstarting hrunning
    refine ⟨fun h => absurd (hs.symm.trans h) hcreated, fun h => ?_⟩
    unfold Watch.isUnderWay at h
    split at h
    · rename_i a r hstage
      exact absurd (hs.symm.trans hstage) (hstarting a r)
    · rename_i hstage
      exact absurd (hs.symm.trans hstage) hrunning
    · exact absurd h (by simp)
  have hstays : w.isUnderWay = true → w'.mailbox = w.mailbox → w'.terminated = w.terminated →
      w'.stage ≠ .created → w'.Coherent := by
    intro hunder hmail hterm hstage
    refine ⟨fun h => absurd h hstage, fun _ => ?_⟩
    rw [Watch.Agrees, hmail, hterm]
    exact hw.2 hunder
  cases h with
  | lapse _ hstage' | refused _ hstage' | hear _ _ hstage' | forced _ hstage' _ =>
    exact hended hstage' (by simp) (by simp) (by simp)
  | expire _ _ _ _ hstage' | suspended _ _ hstage' =>
    exact hended hstage' (by simp) (by simp) (by simp)
  | yield _ _ hw' => exact hended (by rw [hw']) (by simp) (by simp) (by simp)
  | register hstage hw' =>
    subst hw'
    exact ⟨by simp, fun _ => .inl (hw.1 hstage)⟩
  | ask hstage hw' | answered _ hstage hw' | started hstage hw' | overtaken hstage hw' =>
    subst hw'
    exact hstays (by rw [Watch.isUnderWay, hstage]) rfl rfl (by simp)
  | completed _ _ hw' =>
    subst hw'
    exact ⟨by simp, fun _ => .inr ⟨true, rfl, rfl⟩⟩
  | accept success hopen hw' =>
    subst hw'
    refine ⟨fun h => ?_, fun _ => .inr ⟨success, rfl, rfl⟩⟩
    have hunder := (Watch.isOpen_iff.1 hopen).1
    rw [Watch.isUnderWay, show w.stage = .created from h] at hunder
    exact absurd hunder (by simp)

/-- A turn leaves the watches out of each other's way. -/
theorem Turned.orderly (h : Turned e e' now i w w' ds) (he : e.Orderly) : e'.Orderly := by
  have hcases : ∀ {j : Nat} {u : Watch}, e'.watches[j]? = some u →
      (j = i ∧ u = w') ∨ (j ≠ i ∧ e.watches[j]? = some u) := by
    intro j u hu
    by_cases hj : j = i
    · subst hj
      rw [h.get'] at hu
      exact .inl ⟨rfl, (Option.some.inj hu).symm⟩
    · rw [h.others hj] at hu
      exact .inr ⟨hj, hu⟩
  refine ⟨fun {v j} => ?_, fun {j k u u'} hu hu' hunfinished hunfinished' hvm => ?_,
    fun {j u} hu => ?_⟩
  · rw [h.table]
    by_cases hv : v = w.migration.vm
    · rw [if_pos hv]
      constructor
      · intro hj
        split at hj
        · rename_i hopen
          obtain rfl := Option.some.inj hj
          exact ⟨w', h.get', h.vm.trans hv.symm, hopen⟩
        · exact absurd hj (by simp)
      · rintro ⟨u, hu, hvm, hopen⟩
        obtain ⟨rfl, rfl⟩ | ⟨hj, hu⟩ := hcases hu
        · rw [if_pos hopen]
        · have hunder := Watch.isFinished_of_isUnderWay (Watch.isOpen_iff.1 hopen).1
          exact absurd (he.distinct hu h.get hunder h.unfinished (hvm.trans hv)) hj
    · rw [if_neg hv, he.table]
      constructor
      · rintro ⟨u, hu, hvm, hopen⟩
        have hj : j ≠ i := by
          rintro rfl
          rw [h.get] at hu
          exact hv (hvm ▸ congrArg (fun w : Watch => w.migration.vm) (Option.some.inj hu).symm)
        exact ⟨u, by rw [h.others hj, hu], hvm, hopen⟩
      · rintro ⟨u, hu, hvm, hopen⟩
        obtain ⟨rfl, rfl⟩ | ⟨-, hu⟩ := hcases hu
        · exact absurd (hvm.symm.trans h.vm) hv
        · exact ⟨u, hu, hvm, hopen⟩
  · obtain ⟨rfl, rfl⟩ | ⟨hj, hu⟩ := hcases hu <;> obtain ⟨rfl, rfl⟩ | ⟨hk, hu'⟩ := hcases hu'
    · rfl
    · exact absurd (he.distinct hu' h.get hunfinished' h.unfinished (hvm.symm.trans h.vm)) hk
    · exact absurd (he.distinct hu h.get hunfinished h.unfinished (hvm.trans h.vm)) hj
    · exact he.distinct hu hu' hunfinished hunfinished' hvm
  · obtain ⟨-, rfl⟩ | ⟨-, hu⟩ := hcases hu
    · exact Watch.Turn.coherent h.turn (he.coherent h.get)
    · exact he.coherent hu

/-! ## The table and the parts of an act -/

theorem watches_modify (hw : e.watches[i]? = some w) (f : Watch → Watch) :
    (e.modify i f).watches = e.watches.set i (f w) := by
  rw [modify, List.modify_eq_set_getElem?, hw]
  rfl

theorem table_drop (f : Enforcement) (vm v : VmId) :
    (f.drop vm).table.get? v = if v = vm then none else f.table.get? v := by
  unfold drop
  split
  · exact SortedMap.get?_erase f.table vm v
  · rename_i hnone
    by_cases hv : v = vm
    · rw [if_pos hv, hv, hnone]
    · rw [if_neg hv]

/-- Dropping a machine closes the channel of its watch at most. -/
theorem watches_drop {vm : VmId} (hw : e.watches[i]? = some w)
    (hlookup : ∀ j, e.table.get? vm = some j → j = i) : ∃ w', w'.label = w.label ∧
      w'.stage = w.stage ∧ (e.drop vm).watches = e.watches.set i w' := by
  unfold drop
  split
  · rename_i j hj
    obtain rfl := hlookup j hj
    refine ⟨w.close, w.label_close, ?_, watches_modify hw Watch.close⟩
    unfold Watch.close
    split <;> rfl
  · refine ⟨w, rfl, rfl, ?_⟩
    rw [← (List.getElem?_eq_some_iff.1 hw).2, List.set_getElem_self]

theorem Orderly.lookup_eq (h : e.Orderly) (hw : e.watches[i]? = some w)
    (hunfinished : w.isFinished = false) {j : Nat}
    (hj : e.table.get? w.migration.vm = some j) : j = i := by
  rw [h.lookup hw hunfinished] at hj
  split at hj
  · exact (Option.some.inj hj).symm
  · exact absurd hj (by simp)

/-- A watch is given another stage, and the table stays as it is. -/
theorem Orderly.turned_setStage (h : e.Orderly) (hw : e.watches[i]? = some w)
    (hunfinished : w.isFinished = false) {s : Stage}
    (hopen : { w with stage := s }.isOpen = w.isOpen)
    (hs : { w with stage := s }.isFinished = false)
    (hturn : Watch.Turn now e.timeout w { w with stage := s } ds) :
    Turned e (e.setStage i s) now i w { w with stage := s } ds := by
  refine ⟨hw, hunfinished, hturn, rfl, watches_modify hw _, fun v => ?_, ?_, rfl⟩
  · by_cases hv : v = w.migration.vm
    · rw [if_pos hv, hopen, hv]
      exact h.lookup hw hunfinished
    · rw [if_neg hv]
      rfl
  · rw [hs]
    rfl

/-- A change of one watch that takes its machine out of the table. -/
theorem Orderly.turned_drop (h : e.Orderly) (hw : e.watches[i]? = some w)
    (hunfinished : w.isFinished = false) {f : Watch → Watch} (hlabel : (f w).label = w.label)
    {s : Stage} (hstage : (f w).stage = s) (hs : ∀ u : Watch, u.stage = s → u.isOpen = false)
    (hturn : ∀ w', w'.stage = s → Watch.Turn now e.timeout w w' ds) :
    ∃ w', w'.stage = s ∧ w'.label = w.label ∧ Watch.Turn now e.timeout w w' ds ∧
      ((e.modify i f).drop w.migration.vm).watches = e.watches.set i w' ∧
      ∀ v, ((e.modify i f).drop w.migration.vm).table.get? v =
        if v = w.migration.vm then (if w'.isOpen then some i else none) else e.table.get? v := by
  have hget : (e.modify i f).watches[i]? = some (f w) := by
    rw [watches_modify hw f]
    exact List.getElem?_set_self (List.getElem?_eq_some_iff.1 hw).1
  obtain ⟨w', hlabel', hstage', hwatches⟩ := watches_drop hget
    fun _ hj => h.lookup_eq hw hunfinished hj
  refine ⟨w', hstage'.trans hstage, hlabel'.trans hlabel, hturn w' (hstage'.trans hstage), ?_,
    fun v => ?_⟩
  · rw [hwatches, watches_modify hw f, List.set_set]
  · rw [table_drop, hs w' (hstage'.trans hstage)]
    rfl

@[simp]
theorem completed_drop (f : Enforcement) (vm : VmId) : (f.drop vm).completed = f.completed := by
  unfold drop
  split <;> rfl

@[simp]
theorem timeout_drop (f : Enforcement) (vm : VmId) : (f.drop vm).timeout = f.timeout := by
  unfold drop
  split <;> rfl

/-- A watch ends. -/
theorem Orderly.turned_finish (h : e.Orderly) (hw : e.watches[i]? = some w)
    (hunfinished : w.isFinished = false) {o : MigrationOutcome}
    (hturn : ∀ w', w'.stage = .finished o → Watch.Turn now e.timeout w w' ds) :
    ∃ w', w'.stage = .finished o ∧ Turned e (e.finish i w o) now i w w' ds := by
  obtain ⟨w', hstage', hlabel, hturned, hwatches, htable⟩ := h.turned_drop
    (f := fun w => { w with stage := .finished o }) hw hunfinished rfl rfl
    (fun u hu => Watch.isOpen_of_isFinished (Watch.isFinished_of_stage hu)) hturn
  refine ⟨w', hstage', hw, hunfinished, hturned, hlabel, hwatches, htable, ?_, ?_⟩
  · rw [Watch.isFinished_of_stage hstage', if_pos rfl]
    exact congrArg (· ++ [i]) (completed_drop (e.setStage i (.finished o)) w.migration.vm)
  · exact timeout_drop (e.setStage i (.finished o)) w.migration.vm

/-! ## Polls -/

/-- A poll has changed nothing, or a watch has taken a turn that shows in the deeds. -/
def Turns (e : Enforcement) (now i : Nat) (w : Watch) (p : Progress) : Prop :=
  p = quiet e ∨ ∃ w', Turned e p.engine now i w w'
    (deeds ((e.setStage i .running).signal w.migration.vm true).1 w w' ++
      p.call.toList.map .called)

/-- A turn that ends a watch is no deed, apart from a request. -/
theorem deeds_of_finished {accepted : Bool} {o : MigrationOutcome}
    (h : w'.stage = .finished o) : deeds accepted w w' = [] := by
  unfold deeds
  rw [h]
  split <;> simp_all

theorem Orderly.turns_finish (h : e.Orderly) (hw : e.watches[i]? = some w)
    (hunfinished : w.isFinished = false) {o : MigrationOutcome}
    (hturn : ∀ w', w'.stage = .finished o → Watch.Turn now e.timeout w w' []) :
    e.Turns now i w (quiet (e.finish i w o)) := by
  obtain ⟨w', hstage', hturned⟩ := h.turned_finish hw hunfinished hturn
  exact .inr ⟨w', by simpa [quiet, deeds_of_finished hstage'] using hturned⟩

/-- Past the deadline the source is asked to suspend its copy, unless a signal was accepted. -/
theorem Orderly.turns_force (h : e.Orderly) (hw : e.watches[i]? = some w)
    (hunder : w.isUnderWay = true) {source : HostId} (hsource : w.migration.source = some source)
    (hdue : w.deadline ≤ now) : e.Turns now i w (e.force i w source) := by
  have hunfinished := Watch.isFinished_of_isUnderWay hunder
  unfold force
  split
  · rename_i hterm
    have hclosed : w.isOpen = false := by
      by_contra hopen
      rw [Bool.not_eq_false] at hopen
      rw [(h.coherent hw).terminated_of_isOpen hopen] at hterm
      exact absurd hterm (by simp)
    refine .inr ⟨{ w with stage := .yielding }, ?_⟩
    have hdeeds : ∀ a, deeds a w { w with stage := .yielding } = [] := by
      intro a
      unfold deeds
      split <;> simp_all
    rw [hdeeds]
    exact h.turned_setStage hw hunfinished (by rw [hclosed]; rfl) rfl (.yield hunder hterm rfl)
  · rename_i hterm
    rw [Bool.not_eq_true] at hterm
    have hturn : ∀ w' : Watch, w'.stage = .suspending none → Watch.Turn now e.timeout w w'
        [.called (.suspend source w.migration.vm)] := fun w' hstage' =>
      .expire hsource hunder hdue hterm hstage'
    obtain ⟨w', hstage', hlabel, hturned, hwatches, htable⟩ := h.turned_drop
      (f := fun w => { w with terminated := true, stage := .suspending none }) hw hunfinished rfl
      rfl (fun u hu => by rw [Watch.isOpen, Watch.isUnderWay, hu]; rfl) hturn
    have hdeeds : deeds ((e.setStage i .running).signal w.migration.vm true).1 w w' = [] := by
      unfold deeds
      rw [hstage']
      split <;> simp_all
    refine .inr ⟨w', ?_⟩
    rw [hdeeds]
    refine ⟨hw, hunfinished, hturned, hlabel, hwatches, htable, ?_, timeout_drop _ _⟩
    rw [Watch.isFinished, hstage']
    exact completed_drop _ _

/-! ## Signals -/

/-- A machine that is not in the table accepts no signal. -/
theorem signal_eq_of_none {vm : VmId} (h : e.table.get? vm = none) (success : Bool) :
    e.signal vm success = (false, e) := by
  rw [signal, h]

theorem signal_eq_of_some {vm : VmId} (h : e.table.get? vm = some i)
    (hw : e.watches[i]? = some w) (hterm : w.terminated = false) (success : Bool) :
    e.signal vm success = (true, ({ e with table := e.table.erase vm } : Enforcement).modify i
      fun w => { w with terminated := true, mailbox := .sent success }) := by
  rw [signal, h]
  dsimp only
  rw [hw]
  simp [hterm]

/-- A watch is given another stage, and then it accepts a signal. -/
theorem Orderly.turned_accept (h : e.Orderly) (hw : e.watches[i]? = some w)
    (hopen : w.isOpen = true) {s : Stage} (success : Bool)
    (hs : { w with stage := s }.isFinished = false)
    (hturn : Watch.Turn now e.timeout w
      { w with stage := s, terminated := true, mailbox := .sent success } ds) :
    ((e.setStage i s).signal w.migration.vm success).1 = true ∧
      Turned e ((e.setStage i s).signal w.migration.vm success).2 now i w
        { w with stage := s, terminated := true, mailbox := .sent success } ds := by
  have hunfinished := Watch.isFinished_of_isUnderWay (Watch.isOpen_iff.1 hopen).1
  have hlookup : (e.setStage i s).table.get? w.migration.vm = some i := by
    have hlookup := h.lookup hw hunfinished
    rwa [if_pos hopen] at hlookup
  have hwatches : (e.setStage i s).watches = e.watches.set i { w with stage := s } :=
    watches_modify hw _
  have hget : (e.setStage i s).watches[i]? = some { w with stage := s } := by
    rw [hwatches]
    exact List.getElem?_set_self (List.getElem?_eq_some_iff.1 hw).1
  have hterm := (h.coherent hw).terminated_of_isOpen hopen
  have hclosed : { w with stage := s, terminated := true, mailbox := .sent success }.isOpen
      = false := Bool.and_false _
  rw [signal_eq_of_some hlookup hget hterm]
  refine ⟨rfl, hw, hunfinished, hturn, rfl, ?_, fun v => ?_, ?_, rfl⟩
  · exact (watches_modify hget _).trans (by rw [hwatches, List.set_set])
  · rw [hclosed]
    exact SortedMap.get?_erase e.table w.migration.vm v
  · rw [show Watch.isFinished { w with stage := s, terminated := true, mailbox := .sent success }
      = false from hs]
    rfl

theorem setStage_self (hw : e.watches[i]? = some w) : e.setStage i w.stage = e := by
  have hwatches : (e.setStage i w.stage).watches = e.watches := by
    rw [setStage, watches_modify hw, ← (List.getElem?_eq_some_iff.1 hw).2, List.set_getElem_self]
  rw [setStage, modify] at hwatches ⊢
  dsimp only at hwatches
  rw [hwatches]

/-- A signal is accepted by the watch that it reaches, or it changes nothing. -/
theorem Orderly.signal (h : e.Orderly) (now : Nat) (vm : VmId) (success : Bool) :
    e.signal vm success = (false, e) ∨ ∃ i w w',
      Turned e (e.signal vm success).2 now i w w' [.signalled vm success true] ∧
        (e.signal vm success).1 = true := by
  cases hlookup : e.table.get? vm with
  | none => exact .inl (signal_eq_of_none hlookup success)
  | some i =>
    obtain ⟨w, hw, rfl, hopen⟩ := h.table.1 hlookup
    have hunfinished := Watch.isFinished_of_isUnderWay (Watch.isOpen_iff.1 hopen).1
    have hturn : Watch.Turn now e.timeout w
        { w with stage := w.stage, terminated := true, mailbox := .sent success }
          [.signalled w.migration.vm success true] := .accept success hopen rfl
    have haccept := h.turned_accept hw hopen success hunfinished hturn
    rw [setStage_self hw] at haccept
    exact .inr ⟨i, w, _, haccept.2, haccept.1⟩

/-! ## Answers and polls -/

theorem Orderly.answerMigrate (h : e.Orderly) (now : Nat) {r : Except ControlError MigrationStart}
    (hanswer : e.answerMigrate i r = some e') : ∃ w w', Turned e e' now i w w' [] := by
  obtain ⟨w, hw, hstage, rfl⟩ := exists_of_answerMigrate hanswer
  have hunder : w.isUnderWay = true := by rw [Watch.isUnderWay, hstage]
  exact ⟨w, _, h.turned_setStage hw (Watch.isFinished_of_isUnderWay hunder)
    (Watch.isOpen_of_isUnderWay hunder rfl) rfl (.answered r hstage rfl)⟩

theorem Orderly.answerSuspend (h : e.Orderly) (now : Nat) {r : Except ControlError Unit}
    (hanswer : e.answerSuspend i r = some e') : ∃ w w', Turned e e' now i w w' [] := by
  obtain ⟨w, hw, hstage, rfl⟩ := exists_of_answerSuspend hanswer
  have hunfinished : w.isFinished = false := by rw [Watch.isFinished, hstage]
  refine ⟨w, _, h.turned_setStage hw hunfinished ?_ rfl (.suspended r hstage rfl)⟩
  simp [Watch.isOpen, Watch.isUnderWay, hstage]

/-- The destination's answer settles the request, or moves the watch on. -/
theorem Orderly.turns_settle (h : e.Orderly) (hw : e.watches[i]? = some w) {asked : Bool}
    {r : Except ControlError MigrationStart} (hstage : w.stage = .starting asked (some r)) :
    e.Turns now i w (quiet (e.settle i w r)) := by
  have hunder : w.isUnderWay = true := by rw [Watch.isUnderWay, hstage]
  have hunfinished := Watch.isFinished_of_isUnderWay hunder
  have hopen' := Watch.isOpen_of_isUnderWay (s := .running) hunder rfl
  unfold settle
  split
  · by_cases hopen : w.isOpen = true
    · have hturn : Watch.Turn now e.timeout w
          { w with stage := .running, terminated := true, mailbox := .sent true }
            [.signalled w.migration.vm true true] := .completed hstage hopen rfl
      obtain ⟨haccepted, hturned⟩ := h.turned_accept hw hopen true rfl hturn
      refine .inr ⟨{ w with stage := .running, terminated := true, mailbox := .sent true }, ?_⟩
      rw [haccepted]
      simpa [deeds, hstage, quiet] using hturned
    · have hlookup : (e.setStage i .running).table.get? w.migration.vm = none := by
        have hlookup := h.lookup hw hunfinished
        rwa [if_neg hopen] at hlookup
      have hturn : Watch.Turn now e.timeout w { w with stage := .running }
          [.signalled w.migration.vm true false] := .overtaken hstage rfl
      have hturned := h.turned_setStage hw hunfinished hopen' rfl hturn
      refine .inr ⟨{ w with stage := .running }, ?_⟩
      rw [signal_eq_of_none hlookup]
      simpa [deeds, hstage, quiet] using hturned
  · have hturn : Watch.Turn now e.timeout w { w with stage := .running } [] := .started hstage rfl
    have hturned := h.turned_setStage hw hunfinished hopen' rfl hturn
    refine .inr ⟨{ w with stage := .running }, ?_⟩
    simpa [deeds, hstage, quiet] using hturned
  · exact h.turns_finish hw hunfinished fun _ hstage' => .refused hstage hstage'

theorem Orderly.turns_select (h : e.Orderly) (hw : e.watches[i]? = some w) {source : HostId}
    (hsource : w.migration.source = some source) {asked : Bool}
    {answer : Option (Except ControlError MigrationStart)}
    (hstage : w.stage = .starting asked answer) (order : List Branch) :
    e.Turns now i w (e.select now i w source asked answer order) := by
  have hunder : w.isUnderWay = true := by rw [Watch.isUnderWay, hstage]
  have hunfinished := Watch.isFinished_of_isUnderWay hunder
  induction order with
  | nil => exact .inl rfl
  | cons b rest ih =>
    cases b <;> unfold select
    · split
      · rename_i o hmail
        exact h.turns_finish hw hunfinished fun _ hstage' => .hear (.inl hunder) hmail hstage'
      · exact ih
    · split
      · exact h.turns_settle hw hstage
      · split
        · exact ih
        · rename_i hasked
          rw [Bool.not_eq_true] at hasked
          subst hasked
          have hturn : Watch.Turn now e.timeout w { w with stage := .starting true none }
              [.called (.migrate w.migration)] := .ask hstage rfl
          have hturned := h.turned_setStage hw hunfinished
            (Watch.isOpen_of_isUnderWay hunder rfl) rfl hturn
          refine .inr ⟨{ w with stage := .starting true none }, ?_⟩
          simpa [deeds, hstage] using hturned
    · split
      · rename_i hdue
        exact h.turns_force hw hunder hsource hdue
      · exact ih

theorem Orderly.turns_await (h : e.Orderly) (hw : e.watches[i]? = some w) {source : HostId}
    (hsource : w.migration.source = some source) (hstage : w.stage = .running)
    (order : List Branch) : e.Turns now i w (e.await now i w source order) := by
  have hunder : w.isUnderWay = true := by rw [Watch.isUnderWay, hstage]
  induction order with
  | nil => exact .inl rfl
  | cons b rest ih =>
    cases b <;> unfold await
    · split
      · rename_i o hmail
        exact h.turns_finish hw (Watch.isFinished_of_isUnderWay hunder) fun _ hstage' =>
          .hear (.inl hunder) hmail hstage'
      · exact ih
    · exact ih
    · split
      · rename_i hdue
        exact h.turns_force hw hunder hsource hdue
      · exact ih

theorem Orderly.turns_register (h : e.Orderly) (hw : e.watches[i]? = some w)
    (hstage : w.stage = .created) : e.Turns now i w (quiet (e.register now i w)) := by
  have hunfinished : w.isFinished = false := by rw [Watch.isFinished, hstage]
  have hclosed : w.isOpen = false := by simp [Watch.isOpen, Watch.isUnderWay, hstage]
  have hdrop : e.drop w.migration.vm = e := by
    have hlookup := h.lookup hw hunfinished
    rw [hclosed, if_neg (by simp)] at hlookup
    rw [drop, hlookup]
  have hopen' : { w with stage := .starting false none, deadline := now + e.timeout }.isOpen
      = true := by
    rw [Watch.isOpen_iff]
    exact ⟨rfl, ((h.coherent hw).1 hstage).1⟩
  refine .inr ⟨{ w with stage := .starting false none, deadline := now + e.timeout }, ?_⟩
  have hdeeds : ∀ a, deeds a w { w with stage := .starting false none, deadline := now + e.timeout }
      = [.registered w.migration.vm] := by
    intro a
    simp [deeds, hstage]
  rw [hdeeds, quiet, register, hdrop]
  refine ⟨hw, hunfinished, .register hstage rfl, rfl, ?_, fun v => ?_, rfl, rfl⟩
  · exact List.modify_eq_set_getElem? .. |>.trans (by rw [hw]; rfl)
  · rw [hopen']
    exact SortedMap.get?_insert e.table w.migration.vm i v

/-- A poll of a watch changes nothing, or is a turn of that watch. -/
theorem Orderly.turns_poll (h : e.Orderly) (hw : e.watches[i]? = some w) (order : List Branch) :
    e.Turns now i w (e.poll now i order) := by
  unfold poll
  rw [hw]
  dsimp only
  split
  · rename_i hsource
    split
    · exact .inl rfl
    · rename_i hunfinished
      exact h.turns_finish hw (by simpa using hunfinished) fun _ hstage' => .lapse hsource hstage'
  · rename_i source hsource
    split
    · rename_i hstage
      exact h.turns_register hw hstage
    · rename_i hstage
      exact h.turns_select hw hsource hstage order
    · rename_i hstage
      exact h.turns_await hw hsource hstage order
    · rename_i hstage
      have hunfinished : w.isFinished = false := by rw [Watch.isFinished, hstage]
      split
      · rename_i o hmail
        exact h.turns_finish hw hunfinished fun _ hstage' => .hear (.inr hstage) hmail hstage'
      · exact .inl rfl
    · rename_i hstage
      have hunfinished : w.isFinished = false := by rw [Watch.isFinished, hstage]
      exact h.turns_finish hw hunfinished fun _ hstage' => .forced hstage hstage' (.inl rfl)
    · rename_i hstage
      have hunfinished : w.isFinished = false := by rw [Watch.isFinished, hstage]
      exact h.turns_finish hw hunfinished fun _ hstage' =>
        .forced hstage hstage' (.inr ⟨_, rfl⟩)
    · exact .inl rfl
    · exact .inl rfl

/-- A poll shows nothing and changes nothing, or it is a turn that shows in its deeds. -/
theorem Orderly.poll (h : e.Orderly) (now i : Nat) (order : List Branch) :
    ((e.poll now i order).engine = e ∧ e.pollDeeds now i order = []) ∨
      ∃ w w', Turned e (e.poll now i order).engine now i w w' (e.pollDeeds now i order) := by
  cases hw : e.watches[i]? with
  | none =>
    refine .inl ⟨by rw [Enforcement.poll, hw]; rfl, ?_⟩
    unfold pollDeeds
    rw [hw]
  | some w =>
    rcases h.turns_poll hw order with hquiet | ⟨w', hturned⟩
    · refine .inl ⟨by rw [hquiet]; rfl, ?_⟩
      have hsame : ∀ a, deeds a w w = [] := by
        intro a
        unfold deeds
        split <;> simp_all
      simp [pollDeeds, hquiet, quiet, hw, hsame]
    · refine .inr ⟨w, w', ?_⟩
      rw [pollDeeds, hw, hturned.get']
      exact hturned

end Enforcement

end ClusterControl
