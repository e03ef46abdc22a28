import ClusterControl.Workflow.Job

/-!
# What programs count

A program adds to the series of the controller on its way.  How much it adds is read off the program
alone, whatever its requests are answered.

* `Program.Counts` says what a program has added to a series by its end.
* `Reconfiguration.counts_run` and `Resolution.counts_run` say so of the released hosts: a
  reconfiguration counts all that its plan releases, and a resolution only if no migration failed.
-/

namespace ClusterControl

variable {α ρ σ ε : Type}

/-! ## Series -/

namespace Metrics

/-- What is dropped about one series says nothing about another one. -/
theorem lookup_filter_of_ne {x y : Series} (hxy : x ≠ y) (l : List (Series × Nat)) :
    (l.filter (·.1 != y)).lookup x = l.lookup x := by
  induction l with
  | nil => rfl
  | cons entry rest ih =>
    rw [List.filter_cons, List.lookup_cons]
    by_cases hy : entry.1 = y
    · have hx : (x == entry.1) = false := beq_eq_false_iff_ne.2 (hy ▸ hxy)
      rw [if_neg (by simp [hy]), hx, ih]
    · rw [if_pos (by simpa using hy), List.lookup_cons, ih]

theorem get_set (m : Metrics) (x y : Series) (n : Nat) :
    (m.set y n).get x = if x = y then n else m.get x := by
  rw [get, set, List.lookup_cons]
  by_cases hxy : x = y
  · rw [if_pos hxy, beq_iff_eq.2 hxy]
    rfl
  · rw [if_neg hxy, beq_eq_false_iff_ne.2 hxy, lookup_filter_of_ne hxy]
    rfl

theorem get_add (m : Metrics) (x y : Series) (n : Nat) :
    (m.add y n).get x = m.get x + if y = x then n else 0 := by
  rw [add, get_set]
  by_cases hxy : x = y
  · rw [if_pos hxy, if_pos hxy.symm, hxy]
  · rw [if_neg hxy, if_neg fun h => hxy h.symm, Nat.add_zero]

end Metrics

/-- The gate keeps the series by itself: whether it is taken, and how often it was. -/
def Series.OfGate : Series → Prop
  | .busy | .workflowDuration _ => True
  | _ => False

/-- What a request adds to a series that the gate does not keep. -/
def Request.counts (x : Series) : Request α → Nat
  | .note (.count y n) => if y = x then n else 0
  | _ => 0

namespace Program

/-! ## Programs -/

/-- When the series has come to `n`, the program goes on and ends with `Q` of what the series has
come to by then, whatever its requests are answered. -/
def Counts (x : Series) : Program α ρ → Nat → (Nat → ρ → Prop) → Prop
  | .done r, n, Q => Q n r
  | .call q next, n, Q => ∀ a, (next a).Counts x (n + q.counts x) Q

variable {x : Series} {n : Nat}

theorem Counts.mono {p : Program α ρ} {Q Q' : Nat → ρ → Prop} (h : p.Counts x n Q)
    (hQ : ∀ n' r, Q n' r → Q' n' r) : p.Counts x n Q' := by
  induction p generalizing n with
  | done r => exact hQ n r h
  | call q next ih => exact fun a => ih a (h a)

theorem counts_done {r : ρ} {Q : Nat → ρ → Prop} :
    (done r : Program α ρ).Counts x n Q ↔ Q n r := Iff.rfl

theorem counts_call {q : Request α} {next : q.Answer → Program α ρ} {Q : Nat → ρ → Prop} :
    (call q next).Counts x n Q ↔ ∀ a, (next a).Counts x (n + q.counts x) Q := Iff.rfl

theorem counts_pure {r : ρ} {Q : Nat → ρ → Prop} :
    (pure r : Program α ρ).Counts x n Q ↔ Q n r := Iff.rfl

theorem counts_ask {q : Request α} {Q : Nat → q.Answer → Prop} :
    (ask q).Counts x n Q ↔ ∀ a, Q (n + q.counts x) a := Iff.rfl

theorem counts_bind {p : Program α ρ} {f : ρ → Program α σ} {Q : Nat → σ → Prop} :
    (p >>= f).Counts x n Q ↔ p.Counts x n fun n' r => (f r).Counts x n' Q := by
  induction p generalizing n with
  | done r => exact Iff.rfl
  | call q next ih => exact forall_congr' fun a => ih a

/-- A workflow goes on after a result, and ends with an error. -/
theorem counts_run_bind {x : Series} {p : ExceptT ε (Program α) ρ}
    {f : ρ → ExceptT ε (Program α) σ} {Q : Nat → Except ε σ → Prop} :
    ((p >>= f).run : Program α (Except ε σ)).Counts x n Q ↔
      (p.run : Program α (Except ε ρ)).Counts x n fun n' r =>
        match r with
        | .ok a => ((f a).run : Program α (Except ε σ)).Counts x n' Q
        | .error err => Q n' (.error err) := by
  refine counts_bind.trans ⟨fun h => h.mono ?_, fun h => h.mono ?_⟩
  · rintro n' (err | a) h' <;> exact h'
  · rintro n' (err | a) h' <;> exact h'

/-- A workflow goes on after the answer to what cannot fail. -/
theorem counts_run_lift {p : Program α ρ} {f : ρ → ExceptT ε (Program α) σ}
    {Q : Nat → Except ε σ → Prop} :
    ((ExceptT.lift p >>= f).run : Program α (Except ε σ)).Counts x n Q ↔
      p.Counts x n fun n' r => ((f r).run : Program α (Except ε σ)).Counts x n' Q :=
  counts_run_bind.trans counts_bind

/-! ## Programs that leave a series alone -/

/-- The program adds nothing to the series. -/
def Silent (x : Series) (p : Program α ρ) : Prop := ∀ n, p.Counts x n fun n' _ => n' = n

theorem silent_pure (r : ρ) : (pure r : Program α ρ).Silent x := fun _ => counts_pure.2 rfl

theorem silent_ask {q : Request α} (hq : q.counts x = 0) : (ask q).Silent x := by
  intro n
  rw [counts_ask, hq]
  exact fun _ => rfl

theorem Silent.bind {p : Program α ρ} {f : ρ → Program α σ} (hp : p.Silent x)
    (hf : ∀ r, (f r).Silent x) : (p >>= f).Silent x := by
  refine fun n => counts_bind.2 ((hp n).mono ?_)
  rintro _ r rfl
  exact hf r _

theorem silent_count {y : Series} (hxy : y ≠ x) (n : Nat) :
    (count y n : Program α Unit).Silent x := silent_ask (if_neg hxy)

theorem Silent.run_bind {p : ExceptT ε (Program α) ρ} {f : ρ → ExceptT ε (Program α) σ}
    (hp : (p.run : Program α (Except ε ρ)).Silent x)
    (hf : ∀ a, ((f a).run : Program α (Except ε σ)).Silent x) :
    ((p >>= f).run : Program α (Except ε σ)).Silent x := by
  refine hp.bind ?_
  rintro (err | a)
  · exact silent_pure _
  · exact hf a

theorem silent_run_lift {p : Program α ρ} (hp : p.Silent x) :
    ((ExceptT.lift p : ExceptT ε (Program α) ρ).run : Program α (Except ε ρ)).Silent x :=
  hp.bind fun r => silent_pure (Except.ok r)

theorem silent_storeOrFail (q : StoreRequest α) :
    ((storeOrFail q).run : Program α (Except WorkflowError q.Answer)).Silent x := by
  refine (silent_ask rfl).bind ?_
  rintro (err | a) <;> exact silent_pure _

/-- A program goes on with what it has counted before. -/
theorem Silent.counts_bind {p : Program α ρ} (hp : p.Silent x) {f : ρ → Program α σ}
    {Q : Nat → σ → Prop} (hf : ∀ r, (f r).Counts x n Q) : (p >>= f).Counts x n Q := by
  refine Program.counts_bind.2 ((hp n).mono ?_)
  rintro _ r rfl
  exact hf r

/-- A workflow counts behind the gate what it counts, and nothing when it is refused. -/
theorem counts_gated {a : Activity} {p : ExceptT WorkflowError (Program α) ρ}
    {Q : Nat → Except WorkflowError ρ → Prop} (hbusy : Q n (.error .busy))
    (hp : (p.run : Program α (Except WorkflowError ρ)).Counts x n Q) :
    (gated a p).Counts x n Q := by
  refine (silent_ask rfl).counts_bind ?_
  rintro (_ | _)
  · exact hbusy
  · refine Program.counts_bind.2 (hp.mono fun n' r hr => ?_)
    exact (silent_ask (q := .release a) rfl).counts_bind fun _ => hr

-- a program is read one request at a time, and not run ahead
attribute [irreducible] Counts

end Program

/-! ## Released hosts -/

open Program

namespace Commit

/-- Committing outcomes counts migrations only. -/
theorem silent_result {x : Series} (hx : ∀ outcome, Series.migrations outcome ≠ x)
    (r : MigrationResult) : (result r : Program α Unit).Silent x := by
  refine (silent_count (hx _) 1).bind fun _ => (silent_ask rfl).bind fun _ => ?_
  split
  · refine (silent_ask rfl).bind ?_
    rintro (err | _)
    · exact silent_pure _
    · exact (silent_ask rfl).bind fun _ => silent_pure _
  · exact (silent_ask rfl).bind fun _ => silent_pure _

theorem silent_report {x : Series} (hx : ∀ outcome, Series.migrations outcome ≠ x)
    (r : EnforcementReport) : (report r : Program α Unit).Silent x := by
  unfold report
  induction r.results with
  | nil => exact silent_pure _
  | cons r rest ih => exact (silent_result hx r).bind fun _ => ih

end Commit

namespace Power

/-- Waking hosts counts woken hosts only. -/
theorem silent_wakeOne {x : Series} (hx : Series.hostsWoken ≠ x) (host : HostId) :
    (wakeOne host : Program α Bool).Silent x := by
  refine (silent_ask rfl).bind ?_
  rintro (err | _ | _)
  · exact silent_pure _
  · exact silent_pure _
  · refine (silent_ask rfl).bind ?_
    rintro (err | _)
    · refine (silent_ask rfl).bind ?_
      rintro (err | _)
      · exact silent_pure _
      · exact (silent_ask rfl).bind fun _ => silent_pure _
    · exact (silent_count hx 1).bind fun _ => (silent_ask rfl).bind fun _ => silent_pure _

theorem silent_wakeAll {x : Series} (hx : Series.hostsWoken ≠ x) (hosts : List HostId) :
    (wakeAll hosts : Program α (List HostId)).Silent x := by
  induction hosts with
  | nil => exact silent_pure _
  | cons host rest ih =>
    exact (silent_wakeOne hx host).bind fun _ => ih.bind fun _ => silent_pure _

end Power

variable [Quantity α] (c : Settings α)

/-- What a reconfiguration counts as released: all that its plan releases. -/
theorem Reconfiguration.counts_run (n : Nat) : (run c).Counts .hostsReleased n fun n' r =>
    n' = n + match r with
      | .ok report => report.plan.hostsReleased
      | .error _ => 0 := by
  refine counts_gated rfl (counts_run_bind.2 ((silent_storeOrFail _ n).mono ?_))
  rintro _ (err | hosts) rfl
  · rfl
  have henforce : ∀ plan, (enforce plan : Program α _).Silent .hostsReleased := by
    intro plan
    unfold enforce
    split
    · exact silent_pure _
    · exact silent_ask rfl
  refine counts_run_lift.2 ((henforce _ _).mono ?_)
  rintro _ r rfl
  refine counts_run_lift.2 ((Commit.silent_report (by simp) r).counts_bind fun _ => ?_)
  refine (silent_count (by simp) 1).counts_bind fun _ => Program.counts_bind.2 ?_
  exact counts_ask.2 fun _ => counts_ask.2 fun _ => counts_pure.2 rfl

namespace Resolution

/-- Relieving a host counts woken hosts only. -/
theorem silent_relieve {x : Series} (hx : Series.hostsWoken ≠ x) (e : Engine) (host : HostId)
    (state : LoadState) :
    ((relieve c e host state).run : Program α (Except ResolutionError _)).Silent x := by
  have hstore : ∀ q : StoreRequest α,
      ((storeOrAbandon q).run : Program α (Except ResolutionError q.Answer)).Silent x := by
    intro q
    refine (silent_ask rfl).bind ?_
    rintro (err | a) <;> exact silent_pure _
  have hwake : ∀ hosts : List HostId,
      ((wakeOrAbandon hosts).run : Program α (Except ResolutionError Unit)).Silent x := by
    intro hosts
    unfold wakeOrAbandon
    split
    · exact silent_pure _
    · refine ((Power.silent_wakeAll hx hosts).bind ?_).bind ?_
      · rintro (_ | _) <;> exact silent_pure _
      · rintro (err | _) <;> exact silent_pure _
  unfold relieve
  split
  · exact silent_pure _
  refine (hstore _).run_bind fun source => ?_
  split
  · exact silent_pure _
  refine (silent_run_lift (silent_ask rfl)).run_bind fun _ => (hstore _).run_bind fun listed => ?_
  dsimp only
  split
  · exact silent_pure (Except.error (ResolutionError.noDestinationCandidates host))
  split
  · exact silent_pure (Except.error (ResolutionError.emptyPlan host))
  refine (hwake _).run_bind fun _ => ?_
  refine (silent_run_lift (silent_ask rfl)).run_bind fun _ => ?_
  exact (silent_run_lift (silent_ask rfl)).run_bind fun _ => silent_pure _

/-- What a resolution counts as released: what its plan releases, unless a migration failed. -/
theorem counts_run (host : HostId) (state : LoadState) (n : Nat) :
    (run c host state).Counts .hostsReleased n fun n' r =>
      n' = n + match r with
        | .ok report => if report.enforcement.failed = 0 then report.plan.hostsReleased else 0
        | .error _ => 0 := by
  refine counts_gated rfl (Program.counts_bind.2 ?_)
  refine (silent_ask rfl).counts_bind fun _ => ?_
  refine (silent_relieve c (by simp) .own host state).counts_bind fun r => ?_
  refine (silent_ask rfl).counts_bind fun _ => counts_pure.2 ?_
  cases r with
  | error err =>
    refine (silent_count (by simp) 1).counts_bind fun _ => ?_
    exact (silent_ask rfl).counts_bind fun _ => counts_pure.2 rfl
  | ok r =>
    refine Program.counts_bind.2 ((Commit.silent_report (by simp) _).counts_bind fun _ => ?_)
    refine (silent_count (by simp) 1).counts_bind fun _ => ?_
    dsimp only
    split
    · rename_i hcounted
      refine Program.counts_bind.2 (counts_ask.2 fun _ => ?_)
      refine (silent_ask rfl).counts_bind fun _ => counts_ask.2 fun _ => counts_pure.2 ?_
      dsimp only
      rw [if_pos hcounted.2]
      rfl
    · rename_i hsilent
      refine (silent_ask rfl).counts_bind fun _ => counts_ask.2 fun _ => counts_pure.2 ?_
      dsimp only
      split
      · rename_i hnone
        have hzero : r.plan.hostsReleased = 0 :=
          Nat.eq_zero_of_not_pos fun hpos => hsilent ⟨hpos, hnone⟩
        rw [hzero]
        rfl
      · rfl

end Resolution

end ClusterControl
