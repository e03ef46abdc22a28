import Mathlib.Data.List.Induction
import ClusterControl.Proofs.Enforcement.Accounts
import ClusterControl.Proofs.Planning.Growth

/-!
# Reports

Watches finish in any order, but the report on a plan lists its migrations as the plan does.

* `Enforcement.Charged.report_results` gives the report on a plan without the order in which its
  watches finished.
* `Enforcement.AtRest.one_winner` is what a session can do to the machines of its plan, and what the
  report says about them: one winner for each machine, and nothing left behind in the table.
-/

namespace ClusterControl

/-! ## Plans in the order of their machines -/

/-- A plan files every move under its machine. -/
theorem MigrationPlan.Built.vm_eq {p : MigrationPlan} (h : p.Built) :
    ∀ {v : VmId} {m : Migration}, p.migrations.get? v = some m → m.vm = v := by
  obtain ⟨moves, hmoves⟩ := h
  rw [hmoves]
  unfold recorded
  clear hmoves
  induction moves using List.reverseRecOn with
  | nil =>
    intro v m h
    exact absurd h (by simp [empty])
  | append_singleton moves m₀ ih =>
    intro v m h
    rw [List.foldl_append, List.foldl_cons, List.foldl_nil] at h
    rcases get?_add h with ⟨hv, hm, -⟩ | ⟨-, hbefore⟩
    · exact hm.trans hv.symm
    · exact ih hbefore

/-- The moves of a plan are in the order of their machines. -/
theorem MigrationPlan.Built.sorted {p : MigrationPlan} (h : p.Built) :
    p.moves.Pairwise fun m m' => m.vm < m'.vm := by
  rw [moves, SortedMap.values, List.pairwise_map]
  refine p.migrations.sorted.imp_of_mem fun {a b} ha hb hlt => ?_
  rw [h.vm_eq (SortedMap.get?_eq_some_iff.2 ha), h.vm_eq (SortedMap.get?_eq_some_iff.2 hb)]
  exact hlt

namespace Enforcement

variable {e e' : Enforcement} {now i batch : Nat} {w w' : Watch} {ds : List Deed}
  {plan : MigrationPlan}

/-! ## The watches of a plan -/

/-- The engine was charged with a plan: the watches that bear its number carry out its moves, in the
order of the plan. -/
def Charged (e : Enforcement) (batch : Nat) (plan : MigrationPlan) : Prop :=
  (e.work.1.filter (·.1 == batch)).map Prod.snd = plan.moves

theorem Charged.of_work (h : e.Charged batch plan) (hwork : e'.work = e.work) :
    e'.Charged batch plan := by
  rw [Charged, hwork]
  exact h

theorem Charged.migrations (h : e.Charged batch plan) :
    (e.watches.filter (·.batch == batch)).map Watch.migration = plan.moves := by
  rw [← h, work, List.filter_map, List.map_map]
  rfl

theorem Charged.mem_moves (h : e.Charged batch plan) (hw : e.watches[i]? = some w)
    (hbatch : w.batch = batch) : w.migration ∈ plan.moves := by
  rw [← h.migrations]
  exact List.mem_map.2
    ⟨w, List.mem_filter.2 ⟨List.mem_of_getElem? hw, by simpa using hbatch⟩, rfl⟩

/-- A machine has one watch in a plan. -/
theorem Charged.index_eq (h : e.Charged batch plan) (hplan : plan.Built) {i j : Nat}
    (hw : e.watches[i]? = some w) (hw' : e.watches[j]? = some w') (hbatch : w.batch = batch)
    (hbatch' : w'.batch = batch) (hvm : w.migration.vm = w'.migration.vm) : i = j := by
  have hdiffer : e.watches.Pairwise fun u u' => u.batch = batch → u'.batch = batch →
      u.migration.vm ≠ u'.migration.vm := by
    have hsorted := hplan.sorted
    rw [← h.migrations, List.pairwise_map, List.pairwise_filter] at hsorted
    refine hsorted.imp fun {u u'} hlt hu hu' => ?_
    exact String.ne_of_lt (hlt (by simpa using hu) (by simpa using hu'))
  rw [List.pairwise_iff_getElem] at hdiffer
  obtain ⟨hi, rfl⟩ := List.getElem?_eq_some_iff.1 hw
  obtain ⟨hj, rfl⟩ := List.getElem?_eq_some_iff.1 hw'
  rcases Nat.lt_trichotomy i j with hlt | rfl | hlt
  · exact absurd hvm (hdiffer i j hi hj hlt hbatch hbatch')
  · rfl
  · exact absurd hvm.symm (hdiffer j i hj hi hlt hbatch' hbatch)

/-- Who has finished is counted once. -/
structure Tallied (e : Enforcement) : Prop where
  nodup : e.completed.Nodup
  mem : ∀ i, i ∈ e.completed ↔ ∃ w, e.watches[i]? = some w ∧ w.isFinished = true

theorem Turned.tallied (h : Turned e e' now i w w' ds) (he : e.Tallied) : e'.Tallied := by
  have hfresh : i ∉ e.completed := by
    rw [he.mem]
    rintro ⟨u, hu, hfinished⟩
    rw [h.get] at hu
    rw [← Option.some.inj hu, h.unfinished] at hfinished
    exact absurd hfinished (by simp)
  have hmem : ∀ j, (∃ u, e'.watches[j]? = some u ∧ u.isFinished = true) ↔
      (j = i ∧ w'.isFinished = true) ∨ j ∈ e.completed := by
    intro j
    by_cases hj : j = i
    · subst hj
      rw [h.get']
      simp [hfresh]
    · rw [h.others hj, he.mem]
      simp [hj]
  refine ⟨?_, fun j => ?_⟩
  · rw [h.completed]
    split
    · exact List.nodup_append.2 ⟨he.nodup, List.nodup_singleton i, fun j hj k hk => by
        rintro rfl
        rw [List.mem_singleton.1 hk] at hj
        exact hfresh hj⟩
    · exact he.nodup
  · rw [h.completed, hmem]
    split
    · rename_i hfinished
      simp [hfinished, or_comm]
    · rename_i hunfinished
      simp [hunfinished]

/-- Reading a list at all its indices that pass a test. -/
theorem filterMap_range {β : Type} (l : List β) (p : β → Bool) :
    ((List.range l.length).filter fun i => l[i]?.any p).filterMap (fun i => l[i]?) =
      l.filter p := by
  have hread : (List.range l.length).map (fun i => l[i]?) = l.map some := by
    refine List.ext_getElem (by simp) fun i hi hi' => ?_
    simp at hi
    simp [hi]
  have hfilter : ∀ l : List β, l.filter p =
      (l.map some).filterMap fun o => if o.any p then o else none := by
    intro l
    rw [List.filterMap_map, ← List.filterMap_eq_filter]
    rfl
  rw [hfilter, ← hread, List.filterMap_map, List.filterMap_filter]
  rfl

/-- The finished watches, in whatever order they finished. -/
theorem Tallied.perm (h : e.Tallied) :
    (e.completed.filterMap fun i => e.watches[i]?).Perm (e.watches.filter Watch.isFinished) := by
  have hindices : e.completed.Perm ((List.range e.watches.length).filter fun i =>
      e.watches[i]?.any Watch.isFinished) := by
    refine (List.perm_ext_iff_of_nodup h.nodup (List.nodup_range.filter _)).2 fun i => ?_
    rw [h.mem, List.mem_filter, List.mem_range]
    constructor
    · rintro ⟨w, hw, hfinished⟩
      exact ⟨(List.getElem?_eq_some_iff.1 hw).1, by simp [hw, hfinished]⟩
    · rintro ⟨hlt, hany⟩
      rw [List.getElem?_eq_getElem hlt] at hany
      exact ⟨_, List.getElem?_eq_getElem hlt, hany⟩
  rw [← filterMap_range]
  exact hindices.filterMap _

/-! ## The report -/

theorem migration_of_result {x : MigrationResult} (h : w.result? = some x) :
    x.migration = w.migration ∧ w.stage = .finished x.outcome := by
  unfold Watch.result? at h
  split at h
  · rename_i o hstage
    rw [← Option.some.inj h]
    exact ⟨rfl, hstage⟩
  · exact absurd h (by simp)

/-- Finished watches have one result each. -/
theorem map_results {l : List Watch} (h : ∀ w ∈ l, w.isFinished = true) :
    (l.filterMap Watch.result?).map MigrationResult.migration = l.map Watch.migration := by
  induction l with
  | nil => rfl
  | cons w rest ih =>
    have hw := h w List.mem_cons_self
    unfold Watch.isFinished at hw
    split at hw
    · rename_i o hstage
      rw [List.filterMap_cons, Watch.result?, hstage]
      simp only [List.map_cons]
      rw [ih fun u hu => h u (List.mem_cons_of_mem w hu)]
    · exact absurd hw (by simp)

/-- A report lists its results by machine, in whatever order they came in. -/
theorem results_ofResults {l k : List MigrationResult} (hperm : l.Perm k)
    (hsorted : k.Pairwise fun x y => x.migration.vm < y.migration.vm) :
    (EnforcementReport.ofResults l).results = k := by
  have hmerged : (EnforcementReport.ofResults l).results.Pairwise fun x y =>
      decide (x.migration.vm ≤ y.migration.vm) = true := by
    refine List.pairwise_mergeSort (fun x y z hxy hyz => ?_) (fun x y => ?_) l
    · simp only [decide_eq_true_eq] at hxy hyz ⊢
      exact String.le_trans hxy hyz
    · simpa using String.le_total x.migration.vm y.migration.vm
  have hnodup : (k.map fun x => x.migration.vm).Nodup := by
    rw [List.Nodup, List.pairwise_map]
    exact hsorted.imp fun h => String.ne_of_lt h
  have hresults : (EnforcementReport.ofResults l).results.Perm k :=
    (List.mergeSort_perm l _).trans hperm
  refine hresults.eq_of_pairwise (fun x y hx hy hxy hyx => ?_) hmerged (hsorted.imp fun h => ?_)
  · simp only [decide_eq_true_eq] at hxy hyx
    exact List.inj_on_of_nodup_map hnodup (hresults.mem_iff.1 hx) hy (String.le_antisymm hxy hyx)
  · simpa using String.not_lt.1 (String.lt_asymm h)

/-- The report lists the results of the plan's watches in the order of the plan. -/
theorem Charged.report_results (h : e.Charged batch plan) (hplan : plan.Built) (he : e.Tallied)
    {r : EnforcementReport} (hr : e.report? batch = some r) :
    r.results = (e.watches.filter (·.batch == batch)).filterMap Watch.result? ∧
      ∀ w ∈ e.watches, w.batch = batch → w.isFinished = true := by
  unfold report? at hr
  split at hr
  · rename_i hall
    rw [List.all_eq_true] at hall
    have hsorted : ((e.watches.filter (·.batch == batch)).filterMap Watch.result?).Pairwise
        fun x y => x.migration.vm < y.migration.vm := by
      rw [← List.pairwise_map (f := MigrationResult.migration) (R := fun m m' => m.vm < m'.vm),
        map_results hall, h.migrations]
      exact hplan.sorted
    have hperm : (((e.completed.filterMap fun i => e.watches[i]?).filter
        (·.batch == batch)).filterMap Watch.result?).Perm
          ((e.watches.filter (·.batch == batch)).filterMap Watch.result?) := by
      refine ((he.perm.filter _).trans (.of_eq ?_)).filterMap _
      rw [List.filter_filter]
      refine List.filter_congr fun w hw => ?_
      by_cases hbatch : (w.batch == batch) = true
      · rw [hbatch, hall w (List.mem_filter.2 ⟨hw, hbatch⟩)]
        rfl
      · rw [Bool.not_eq_true] at hbatch
        rw [hbatch]
        rfl
    rw [← Option.some.inj hr]
    refine ⟨?_, fun w hw hbatch => hall w (List.mem_filter.2 ⟨hw, by simpa using hbatch⟩)⟩
    exact results_ofResults hperm hsorted
  · exact absurd hr (by simp)

/-! ## Sessions -/

namespace Session

/-- What an act does to a session: a watch takes a turn, or the engine stays as it is and a signal
is turned down at most. -/
inductive Moves (s t : Session) : Prop
  | turn {i : Nat} {w w' : Watch} {ds : List Deed}
    (hturned : Turned s.engine t.engine s.now i w w' ds)
    (hlog : t.log = s.log ++ ds.map (s.now, ·)) : Moves s t
  | idle {ds : List Deed} (hengine : t.engine = s.engine)
    (hlog : t.log = s.log ++ ds.map (s.now, ·))
    (hds : ds = [] ∨ ∃ v b, ds = [.signalled v b false]) : Moves s t

variable {s t : Session} {timeout : Nat}

theorem step_moves (h : s.engine.Orderly) {a : Act} (hstep : s.step a = some t) : Moves s t := by
  cases a with
  | poll i order =>
    obtain rfl := Option.some.inj hstep
    rcases h.poll s.now i order with ⟨hengine, hdeeds⟩ | ⟨w, w', hturned⟩
    · exact .idle hengine rfl (.inl hdeeds)
    · exact .turn hturned rfl
  | answerMigrate i r =>
    obtain ⟨e, he, rfl⟩ := Option.map_eq_some_iff.1 hstep
    obtain ⟨w, w', hturned⟩ := h.answerMigrate s.now he
    exact .turn hturned rfl
  | answerSuspend i r =>
    obtain ⟨e, he, rfl⟩ := Option.map_eq_some_iff.1 hstep
    obtain ⟨w, w', hturned⟩ := h.answerSuspend s.now he
    exact .turn hturned rfl
  | signal vm success =>
    obtain rfl := Option.some.inj hstep
    rcases h.signal s.now vm success with hrefused | ⟨i, w, w', hturned, haccepted⟩
    · rw [hrefused]
      exact .idle rfl rfl (.inr ⟨vm, success, rfl⟩)
    · rw [haccepted]
      exact .turn hturned rfl
  | elapse ms =>
    obtain rfl := Option.some.inj hstep
    have hlog : s.log = s.log ++ [].map (s.now, ·) := (List.append_nil s.log).symm
    exact .idle rfl hlog (.inl rfl)

theorem step_work {a : Act} (hstep : s.step a = some t) : t.engine.work = s.engine.work := by
  cases a with
  | poll i order =>
    obtain rfl := Option.some.inj hstep
    exact s.engine.work_poll s.now i order
  | answerMigrate i r =>
    obtain ⟨e, he, rfl⟩ := Option.map_eq_some_iff.1 hstep
    exact work_answerMigrate he
  | answerSuspend i r =>
    obtain ⟨e, he, rfl⟩ := Option.map_eq_some_iff.1 hstep
    exact work_answerSuspend he
  | signal vm success =>
    obtain rfl := Option.some.inj hstep
    exact s.engine.work_signal vm success
  | elapse ms =>
    obtain rfl := Option.some.inj hstep
    rfl

/-- What holds of a session at any time: the watches keep out of each other's way, those of earlier
plans are finished, and the log bears out those of the plan. -/
structure Sound (timeout batch : Nat) (plan : MigrationPlan) (s : Session) : Prop where
  orderly : s.engine.Orderly
  tallied : s.engine.Tallied
  timed : s.engine.timeout = timeout
  numbered : s.engine.Numbered
  charged : s.engine.Charged batch plan
  past : ∀ {i : Nat} {w : Watch}, s.engine.watches[i]? = some w → w.batch ≠ batch →
    w.isFinished = true
  tells : ∀ {i : Nat} {w : Watch}, s.engine.watches[i]? = some w → w.batch = batch →
    w.Tells timeout s.log
  calls : ∀ x ∈ s.log, ∀ c, x.2 = .called c → ∃ m ∈ plan.moves, c = .migrate m ∨
    ∃ source, m.source = some source ∧ c = .suspend source m.vm

/-- An act that leaves the engine as it is keeps a session sound. -/
theorem Sound.idle (h : s.Sound timeout batch plan) (hengine : t.engine = s.engine)
    {ds : List Deed} (hlog : t.log = s.log ++ ds.map (s.now, ·))
    (hds : ds = [] ∨ ∃ v b, ds = [.signalled v b false]) : t.Sound timeout batch plan := by
  have hspares : ∀ v, Log.Spares (ds.map (s.now, ·)) v := by
    intro v
    rcases hds with rfl | ⟨u, b, rfl⟩
    · exact ⟨rfl, rfl, rfl, rfl⟩
    · exact Log.spares_refused s.now u v b
  obtain ⟨horderly, htallied, htimed, hnumbered, hcharged, hpast, htells, hcalls⟩ := h
  rw [← hengine] at horderly htallied htimed hnumbered hcharged
  refine ⟨horderly, htallied, htimed, hnumbered, hcharged, fun hw hne => ?_,
    fun hw hbatch => ?_, ?_⟩
  · rw [hengine] at hw
    exact hpast hw hne
  · rw [hengine] at hw
    rw [hlog]
    exact (htells hw hbatch).append (hspares _)
  · rw [hlog]
    refine fun x hx c hc => (List.mem_append.1 hx).elim (fun hx => hcalls x hx c hc) fun hx => ?_
    obtain ⟨d, hd, rfl⟩ := List.mem_map.1 hx
    rcases hds with rfl | ⟨u, b, rfl⟩
    · exact absurd hd (by simp)
    · rw [List.mem_singleton.1 hd] at hc
      exact absurd hc (by simp)

/-- A turn of a watch keeps a session sound: the watch is one of the plan, and the others have
another machine. -/
theorem Sound.turn (h : s.Sound timeout batch plan) (hplan : plan.Built)
    (hwork : t.engine.work = s.engine.work) {i : Nat} {w w' : Watch} {ds : List Deed}
    (hturned : Turned s.engine t.engine s.now i w w' ds)
    (hlog : t.log = s.log ++ ds.map (s.now, ·)) : t.Sound timeout batch plan := by
  have hbatch : w.batch = batch := by
    by_contra hne
    exact absurd (h.past hturned.get hne) (by simp [hturned.unfinished])
  have hbatch' : w'.batch = batch := (congrArg Prod.fst hturned.label).trans hbatch
  have hturn := hturned.turn
  rw [h.timed] at hturn
  refine ⟨hturned.orderly h.orderly, hturned.tallied h.tallied, hturned.timeout.trans h.timed,
    h.numbered.of_work hwork, h.charged.of_work hwork, fun {j u} hu hne => ?_,
    fun {j u} hu hu' => ?_, ?_⟩
  · by_cases hj : j = i
    · subst hj
      rw [hturned.get'] at hu
      exact absurd (Option.some.inj hu ▸ hbatch') hne
    · rw [hturned.others hj] at hu
      exact h.past hu hne
  · rw [hlog]
    by_cases hj : j = i
    · subst hj
      rw [hturned.get'] at hu
      rw [← Option.some.inj hu]
      exact hturn.tells hturned.label (h.orderly.coherent hturned.get) hturned.unfinished
        (h.tells hturned.get hbatch)
    · rw [hturned.others hj] at hu
      exact (h.tells hu hu').append (hturn.spares fun hvm =>
        hj (h.charged.index_eq hplan hu hturned.get hu' hbatch hvm))
  · rw [hlog]
    refine fun x hx c hc => (List.mem_append.1 hx).elim (fun hx => h.calls x hx c hc) fun hx => ?_
    obtain ⟨d, hd, rfl⟩ := List.mem_map.1 hx
    have hc' : d = .called c := hc
    exact ⟨w.migration, h.charged.mem_moves hturned.get hbatch, hturn.called (hc' ▸ hd)⟩

/-- An act keeps a session sound. -/
theorem Sound.step (h : s.Sound timeout batch plan) (hplan : plan.Built) {a : Act}
    (hstep : s.step a = some t) : t.Sound timeout batch plan := by
  cases step_moves h.orderly hstep with
  | idle hengine hlog hds => exact h.idle hengine hlog hds
  | turn hturned hlog => exact h.turn hplan (step_work hstep) hturned hlog

theorem Sound.run (h : s.Sound timeout batch plan) (hplan : plan.Built) (hrun : s.Runs t) :
    t.Sound timeout batch plan := by
  induction hrun with
  | refl => exact h
  | step a _ hstep ih => exact ih.step hplan hstep

end Session

/-! ## Engines at rest -/

/-- Nothing is under way. -/
structure Quiet (timeout : Nat) (e : Enforcement) : Prop where
  orderly : e.Orderly
  tallied : e.Tallied
  timed : e.timeout = timeout
  numbered : e.Numbered
  finished : ∀ {i : Nat} {w : Watch}, e.watches[i]? = some w → w.isFinished = true

variable {timeout : Nat}

theorem quiet_idle (timeout : Nat) : Quiet timeout (idle timeout) where
  orderly :=
    { table := by simp [idle]
      distinct := by simp [idle]
      coherent := by simp [idle] }
  tallied := ⟨List.nodup_nil, by simp [idle]⟩
  timed := rfl
  numbered := numbered_idle timeout
  finished := by simp [idle]

/-- The table of an engine without watches under way is empty. -/
theorem Orderly.table_eq_none (h : e.Orderly)
    (hfinished : ∀ {i : Nat} {w : Watch}, e.watches[i]? = some w → w.isFinished = true) (v : VmId) :
    e.table.get? v = none := by
  by_contra hsome
  obtain ⟨j, hj⟩ := Option.ne_none_iff_exists'.1 hsome
  obtain ⟨w, hw, -, hopen⟩ := h.table.1 hj
  rw [Watch.isOpen_of_isFinished (hfinished hw)] at hopen
  exact absurd hopen (by simp)

/-- A plan gives an engine new watches, and nothing else. -/
theorem start_watches (hw : (e.start plan).watches[i]? = some w) : e.watches[i]? = some w ∨
    ∃ m ∈ plan.moves, w = .create e.batches m := by
  rw [start, List.getElem?_append] at hw
  split at hw
  · exact .inl hw
  · obtain ⟨m, hm, rfl⟩ := List.mem_map.1 (List.mem_of_getElem? hw)
    exact .inr ⟨m, hm, rfl⟩

theorem Numbered.charged_start (h : e.Numbered) (plan : MigrationPlan) :
    (e.start plan).Charged e.batches plan := by
  have hold : e.work.1.filter (·.1 == e.batches) = [] := by
    refine List.filter_eq_nil_iff.2 fun l hl hbatch => ?_
    have hlt := h l hl
    rw [show l.1 = e.batches by simpa using hbatch] at hlt
    exact absurd hlt (Nat.lt_irrefl _)
  rw [Charged, work_start, List.filter_append, hold, List.nil_append, List.filter_map,
    List.map_map]
  simp [Function.comp_def]

/-- A session that begins with an engine at rest is sound. -/
theorem Quiet.begin (h : e.Quiet timeout) (hplan : plan.Built) (now : Nat) :
    (Session.begin e plan now).Sound timeout e.batches plan := by
  have hcharged := h.numbered.charged_start plan
  have hbatch : ∀ {i : Nat} {w : Watch}, (e.start plan).watches[i]? = some w →
      w.isFinished = false → ∃ m ∈ plan.moves, w = .create e.batches m := by
    intro i w hw hunfinished
    rcases start_watches hw with hold | hnew
    · exact absurd (h.finished hold) (by simp [hunfinished])
    · exact hnew
  refine ⟨⟨fun {v j} => ?_, fun {i j w w'} hw hw' hunfinished hunfinished' hvm => ?_,
    fun {i w} hw => ?_⟩, ⟨h.tallied.nodup, fun i => ?_⟩, h.timed, h.numbered.start plan, hcharged,
    fun {i w} hw hne => ?_, fun {i w} hw hb => ?_, fun x hx => absurd hx (by simp [Session.begin])⟩
  · constructor
    · intro hj
      exact absurd hj (by
        rw [show (Session.begin e plan now).engine.table = e.table from rfl,
          h.orderly.table_eq_none h.finished]
        simp)
    · rintro ⟨w, hw, -, hopen⟩
      obtain ⟨m, -, rfl⟩ := hbatch hw (Watch.isFinished_of_isUnderWay (Watch.isOpen_iff.1 hopen).1)
      exact absurd hopen (by simp [Watch.isOpen, Watch.isUnderWay, Watch.create])
  · obtain ⟨m, -, rfl⟩ := hbatch hw hunfinished
    obtain ⟨m', -, rfl⟩ := hbatch hw' hunfinished'
    exact hcharged.index_eq hplan hw hw' rfl rfl hvm
  · rcases start_watches hw with hold | ⟨m, -, rfl⟩
    · exact h.orderly.coherent hold
    · exact ⟨fun _ => ⟨rfl, rfl⟩, fun hunder =>
        absurd hunder (by simp [Watch.isUnderWay, Watch.create])⟩
  · rw [show (Session.begin e plan now).engine.completed = e.completed from rfl, h.tallied.mem]
    constructor
    · rintro ⟨w, hw, hfinished⟩
      refine ⟨w, ?_, hfinished⟩
      exact (List.getElem?_append_left (List.getElem?_eq_some_iff.1 hw).1).trans hw
    · rintro ⟨w, hw, hfinished⟩
      rcases start_watches hw with hold | ⟨m, -, rfl⟩
      · exact ⟨w, hold, hfinished⟩
      · exact absurd hfinished (by simp [Watch.isFinished, Watch.create])
  · rcases start_watches hw with hold | ⟨m, -, rfl⟩
    · exact h.finished hold
    · exact absurd rfl hne
  · rcases start_watches hw with hold | ⟨m, -, rfl⟩
    · have hlt : w.batch < e.batches :=
        h.numbered w.label (List.mem_map_of_mem (List.mem_of_getElem? hold))
      rw [hb] at hlt
      exact absurd hlt (Nat.lt_irrefl _)
    · exact ⟨rfl, rfl, rfl, rfl⟩

/-- Once there is a report, nothing is under way. -/
theorem Session.Sound.quiet {s : Session} {batch : Nat} (h : s.Sound timeout batch plan)
    (hplan : plan.Built) {r : EnforcementReport} (hr : s.engine.report? batch = some r) :
    s.engine.Quiet timeout := by
  obtain ⟨-, hfinished⟩ := h.charged.report_results hplan h.tallied hr
  refine ⟨h.orderly, h.tallied, h.timed, h.numbered, fun {i w} hw => ?_⟩
  by_cases hbatch : w.batch = batch
  · exact hfinished w (List.mem_of_getElem? hw) hbatch
  · exact h.past hw hbatch

theorem AtRest.quiet (h : AtRest timeout e) : e.Quiet timeout := by
  induction h with
  | idle => exact quiet_idle timeout
  | served _ hplan hrun hr ih => exact ((ih.begin hplan _).run hplan hrun).quiet hplan hr

/-! ## One winner for each machine -/

namespace Session

/-- What a report on a plan says: one result for each move, in the order of the machines whatever
the order in which they finished, each borne out by the log; and nothing is left in the table. -/
structure Reported (s : Session) (batch : Nat) (plan : MigrationPlan) (r : EnforcementReport) :
    Prop where
  complete : r.results.map MigrationResult.migration = plan.moves
  sorted : r.results.Pairwise fun x y => x.migration.vm < y.migration.vm
  results : r.results = (s.engine.watches.filter (·.batch == batch)).filterMap Watch.result?
  cleared : ∀ v, s.engine.table.get? v = none
  migrated : ∀ x ∈ r.results, x.outcome = .migrated →
    s.log.acceptances x.migration.vm = [true] ∧ s.log.suspensions x.migration.vm = []
  suspended : ∀ x ∈ r.results, s.log.suspensions x.migration.vm ≠ [] →
    x.outcome = .forcedSuspend ∨ ∃ reason, x.outcome = .failed reason

variable {s : Session}

theorem Sound.account (h : s.Sound timeout batch plan) {m : Migration} (hm : m ∈ plan.moves) :
    s.log.Account timeout m.vm := by
  rw [← h.charged.migrations] at hm
  obtain ⟨w, hw, rfl⟩ := List.mem_map.1 hm
  obtain ⟨hmem, hbatch⟩ := List.mem_filter.1 hw
  obtain ⟨i, hi⟩ := List.mem_iff_getElem?.1 hmem
  exact Watch.Tells.account (h.tells hi (by simpa using hbatch))

theorem Sound.reported (h : s.Sound timeout batch plan) (hplan : plan.Built)
    {r : EnforcementReport} (hr : s.engine.report? batch = some r) : s.Reported batch plan r := by
  obtain ⟨hresults, hfinished⟩ := h.charged.report_results hplan h.tallied hr
  have hcomplete : r.results.map MigrationResult.migration = plan.moves := by
    rw [hresults, map_results, h.charged.migrations]
    intro w hw
    obtain ⟨hmem, hbatch⟩ := List.mem_filter.1 hw
    exact hfinished w hmem (by simpa using hbatch)
  have hbears : ∀ x ∈ r.results, s.log.Bears timeout x.migration.vm x.outcome := by
    intro x hx
    rw [hresults] at hx
    obtain ⟨w, hw, hresult⟩ := List.mem_filterMap.1 hx
    obtain ⟨hmem, hbatch⟩ := List.mem_filter.1 hw
    obtain ⟨i, hi⟩ := List.mem_iff_getElem?.1 hmem
    obtain ⟨hmigration, hstage⟩ := migration_of_result hresult
    have htells := h.tells hi (by simpa using hbatch)
    rw [Watch.Tells, hstage] at htells
    rw [hmigration]
    exact htells.1
  refine ⟨hcomplete, ?_, hresults, h.orderly.table_eq_none (h.quiet hplan hr).finished,
    fun x hx hmigrated => ?_, fun x hx hsuspended => ?_⟩
  · have hsorted := hplan.sorted
    rwa [← hcomplete, List.pairwise_map] at hsorted
  · rcases (hbears x hx).2 with ⟨hsus, -, hacc⟩ | ⟨-, -, ho⟩
    · exact ⟨hacc hmigrated, hsus⟩
    · rw [hmigrated] at ho
      exact absurd ho (by simp)
  · rcases (hbears x hx).2 with ⟨hsus, -, -⟩ | ⟨-, -, ho⟩
    · exact absurd hsus hsuspended
    · exact ho

end Session

/-- Whatever hosts answer and signals come, in whatever order things happen while a plan is carried
out: every machine of the plan is asked for once, suspended once and signalled once at most, it is
suspended late only and never against an accepted signal, hosts are asked for nothing else, and a
report lists the moves of the plan with outcomes that the log bears out. -/
theorem AtRest.one_winner (he : AtRest timeout e) (hplan : plan.Built) {now : Nat} {s : Session}
    (hrun : (Session.begin e plan now).Runs s) :
    (∀ m ∈ plan.moves, s.log.Account timeout m.vm) ∧
      (∀ x ∈ s.log, ∀ c, x.2 = .called c → ∃ m ∈ plan.moves, c = .migrate m ∨
        ∃ source, m.source = some source ∧ c = .suspend source m.vm) ∧
      ∀ r, s.engine.report? e.batches = some r → s.Reported e.batches plan r := by
  have hsound := (he.quiet.begin hplan now).run hplan hrun
  exact ⟨fun m hm => hsound.account hm, hsound.calls, fun r hr => hsound.reported hplan hr⟩

namespace Session

/-- The session after some acts; `none` when one of them is not possible. -/
def play (s : Session) : List Act → Option Session
  | [] => some s
  | a :: rest => (s.step a).bind fun t => t.play rest

theorem Runs.prepend {s t u : Session} {a : Act} (h : t.Runs u) (ha : s.step a = some t) :
    s.Runs u := by
  induction h with
  | refl => exact .step a .refl ha
  | step b _ hb ih => exact .step b ih hb

theorem runs_play {acts : List Act} {s t : Session} (h : s.play acts = some t) : s.Runs t := by
  induction acts generalizing s with
  | nil => exact Option.some.inj h ▸ .refl
  | cons a rest ih =>
    obtain ⟨u, hu, hrest⟩ := Option.bind_eq_some_iff.1 h
    exact (ih hrest).prepend hu

end Session

/-- Two machines move to one host. -/
def twoMoves : MigrationPlan := .recorded [⟨"v1", some "a", "c"⟩, ⟨"v2", some "b", "c"⟩]

/-- One machine is signalled twice; the other one is stuck, and finishes first. -/
def signalledAndStuck : List Act :=
  [.poll 1 [], .poll 0 [], .poll 0 Branch.all, .poll 1 Branch.all,
    .answerMigrate 0 (.ok .started), .poll 0 Branch.all, .signal "v1" true, .signal "v1" true,
    .elapse 10, .poll 1 Branch.all, .signal "v2" true, .answerSuspend 1 (.ok ()), .poll 1 [],
    .poll 0 Branch.all]

theorem one_winner_of_signalledAndStuck : ∃ s r,
    (Session.begin (idle 10) twoMoves 0).play signalledAndStuck = some s ∧
      s.engine.report? 0 = some r ∧
        r.results.map MigrationResult.outcome = [.migrated, .forcedSuspend] ∧
          s.log.suspensions "v2" = [10] ∧
            (∀ m ∈ twoMoves.moves, s.log.Account 10 m.vm) ∧ s.Reported 0 twoMoves r := by
  have hend : ((Session.begin (idle 10) twoMoves 0).play signalledAndStuck).any (fun s =>
      (s.engine.report? 0).isSome && s.log.suspensions "v2" == [10] &&
        ((s.engine.watches.filter (·.batch == 0)).filterMap Watch.result?).map
          MigrationResult.outcome == [.migrated, .forcedSuspend]) = true := by decide +kernel
  obtain ⟨s, hs, hend⟩ := (Option.any_eq_true _ _).1 hend
  rw [Bool.and_eq_true, Bool.and_eq_true, beq_iff_eq, beq_iff_eq] at hend
  obtain ⟨⟨hsome, hsuspensions⟩, houtcomes⟩ := hend
  obtain ⟨r, hr⟩ := Option.isSome_iff_exists.1 hsome
  have hrest : AtRest 10 (idle 10) := .idle
  have hone := AtRest.one_winner hrest ⟨_, rfl⟩ (Session.runs_play hs)
  have hreported := hone.2.2 r hr
  refine ⟨s, r, hs, hr, ?_, hsuspensions, hone.1, hreported⟩
  rw [hreported.results]
  exact houtcomes

end Enforcement

end ClusterControl
