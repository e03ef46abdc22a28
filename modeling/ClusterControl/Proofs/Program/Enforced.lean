import ClusterControl.Proofs.Enforcement.Session
import ClusterControl.Proofs.Program.Alone

/-!
# Programs that run alone and have plans carried out

A program that runs alone with an engine at its service finds what it left, and gets a report on
every plan that it has carried out: one result for each move of the plan, whatever the outcomes.

* `Program.Achieves` says where such a program leads from a scene, whatever the hosts answer and the
  reports say.
* `Program.Attains` says so of a workflow that may end with an error.
-/

namespace ClusterControl

/-- The report lists one result for each move of the plan, in the order of the plan. -/
def EnforcementReport.Covers (r : EnforcementReport) (plan : MigrationPlan) : Prop :=
  r.results.map MigrationResult.migration = plan.moves

variable {α ρ σ ε : Type} [Quantity α] {c : Settings α} {g : Scene α}

/-- After a request `R` holds of the scene and the answer.  A plan that is carried out is the net
effect of some moves; hosts are asked for something meanwhile, and any report that covers the plan
may come of it. -/
def Scene.Obtains (c : Settings α) (g : Scene α) :
    (q : Request α) → (Scene α → q.Answer → Prop) → Prop
  | .enforce .own plan, R =>
    plan.Built ∧ ∀ calls r, r.Covers plan → R { g with calls := calls } r
  | q, R => g.Asks c q R

namespace Program

/-- From a scene a program that runs alone ends with `Q`, whatever the hosts answer and the reports
on its plans say. -/
def Achieves (c : Settings α) : Program α ρ → Scene α → (Scene α → ρ → Prop) → Prop
  | .done r, g, Q => Q g r
  | .call q next, g, Q => g.Obtains c q fun g' a => (next a).Achieves c g' Q

end Program

/-- Where no plan is carried out, a request is answered as it is without an engine. -/
theorem Scene.obtains_iff_asks {q : Request α} (hq : ∀ plan, q ≠ .enforce .own plan)
    {R : Scene α → q.Answer → Prop} : g.Obtains c q R ↔ g.Asks c q R := by
  cases q with
  | enforce e plan =>
    cases e with
    | own => exact absurd rfl (hq plan)
    | trial => exact Iff.rfl
  | _ => exact Iff.rfl

/-- A weaker statement about scene and answer follows. -/
theorem Scene.Obtains.mono {q : Request α} {R R' : Scene α → q.Answer → Prop}
    (h : g.Obtains c q R) (hR : ∀ g' a, R g' a → R' g' a) : g.Obtains c q R' := by
  by_cases hq : ∃ plan, q = .enforce .own plan
  · obtain ⟨plan, rfl⟩ := hq
    exact ⟨h.1, fun calls r hr => hR _ _ (h.2 calls r hr)⟩
  · have hq : ∀ plan, q ≠ .enforce .own plan := fun plan heq => hq ⟨plan, heq⟩
    rw [Scene.obtains_iff_asks hq] at h ⊢
    exact h.mono hR

namespace Program

theorem Achieves.mono {p : Program α ρ} {Q Q' : Scene α → ρ → Prop} (h : p.Achieves c g Q)
    (hQ : ∀ g' r, Q g' r → Q' g' r) : p.Achieves c g Q' := by
  induction p generalizing g with
  | done r => exact hQ _ _ h
  | call q next ih => exact Scene.Obtains.mono h fun _ a ha => ih a ha

theorem achieves_done {r : ρ} {Q : Scene α → ρ → Prop} :
    (done r : Program α ρ).Achieves c g Q ↔ Q g r := Iff.rfl

theorem achieves_call {q : Request α} {next : q.Answer → Program α ρ} {Q : Scene α → ρ → Prop} :
    (call q next).Achieves c g Q ↔ g.Obtains c q fun g' a => (next a).Achieves c g' Q := Iff.rfl

@[simp]
theorem achieves_pure {r : ρ} {Q : Scene α → ρ → Prop} :
    (pure r : Program α ρ).Achieves c g Q ↔ Q g r := Iff.rfl

@[simp]
theorem achieves_bind {p : Program α ρ} {f : ρ → Program α σ} {Q : Scene α → σ → Prop} :
    (p >>= f).Achieves c g Q ↔ p.Achieves c g fun g' r => (f r).Achieves c g' Q := by
  induction p generalizing g with
  | done r => exact Iff.rfl
  | call q next ih =>
    constructor
    · exact fun h => Scene.Obtains.mono h fun _ a ha => (ih a).1 ha
    · exact fun h => Scene.Obtains.mono h fun _ a ha => (ih a).2 ha

@[simp]
theorem achieves_store {q : StoreRequest α} {Q : Scene α → Except StoreError q.Answer → Prop} :
    (store q).Achieves c g Q ↔ Q { g with store := (q.apply g.store).2 } (q.apply g.store).1 :=
  Iff.rfl

@[simp]
theorem achieves_host {q : HostRequest α} {Q : Scene α → Except ControlError q.Answer → Prop} :
    (host q).Achieves c g Q ↔ ∀ r, Q { g with calls := g.calls ++ [q.call] } r := Iff.rfl

@[simp]
theorem achieves_setPhase {e : Engine} {p : ResolutionPhase} {Q : Scene α → Unit → Prop} :
    (ask (.setPhase e p)).Achieves c g Q ↔ Q g () := Iff.rfl

@[simp]
theorem achieves_event {e : Event α} {Q : Scene α → Unit → Prop} :
    (event e).Achieves c g Q ↔ Q g () := Iff.rfl

@[simp]
theorem achieves_count {series : Series} {n : Nat} {Q : Scene α → Unit → Prop} :
    (count series n).Achieves c g Q ↔ Q g () := Iff.rfl

theorem achieves_enforce {plan : MigrationPlan} {Q : Scene α → EnforcementReport → Prop} :
    (ask (.enforce .own plan)).Achieves c g Q ↔
      plan.Built ∧ ∀ calls r, r.Covers plan → Q { g with calls := calls } r := Iff.rfl

/-! ## Workflows that may end with an error -/

/-- From a scene a workflow ends with `Q`, or with an error and `E`. -/
def Attains (c : Settings α) (x : ExceptT ε (Program α) ρ) (g : Scene α) (Q : Scene α → ρ → Prop)
    (E : Scene α → ε → Prop) : Prop :=
  Achieves c (x.run : Program α (Except ε ρ)) g fun g' r =>
    match r with
    | .ok a => Q g' a
    | .error e => E g' e

section

variable {Q : Scene α → ρ → Prop} {E : Scene α → ε → Prop}

@[simp]
theorem attains_pure {r : ρ} : Attains c (pure r : ExceptT ε (Program α) ρ) g Q E ↔ Q g r := Iff.rfl

@[simp]
theorem attains_throw {e : ε} : Attains c (throw e : ExceptT ε (Program α) ρ) g Q E ↔ E g e :=
  Iff.rfl

@[simp]
theorem attains_mk {p : Program α (Except ε ρ)} : Attains c (ExceptT.mk p) g Q E ↔
    p.Achieves c g fun g' r =>
      match r with
      | .ok a => Q g' a
      | .error e => E g' e := Iff.rfl

@[simp]
theorem attains_lift {p : Program α ρ} :
    Attains c (ExceptT.lift p : ExceptT ε (Program α) ρ) g Q E ↔ p.Achieves c g Q :=
  achieves_bind

theorem attains_bind {x : ExceptT ε (Program α) ρ} {f : ρ → ExceptT ε (Program α) σ}
    {Q : Scene α → σ → Prop} :
    Attains c (x >>= f) g Q E ↔ Attains c x g (fun g' r => Attains c (f r) g' Q E) E := by
  refine achieves_bind.trans ⟨fun h => h.mono ?_, fun h => h.mono ?_⟩
  · rintro g' (e | r) h'
    · exact h'
    · exact h'
  · rintro g' (e | r) h'
    · exact h'
    · exact h'

theorem Attains.mono {x : ExceptT ε (Program α) ρ} {Q' : Scene α → ρ → Prop}
    {E' : Scene α → ε → Prop} (h : Attains c x g Q E) (hQ : ∀ g' r, Q g' r → Q' g' r)
    (hE : ∀ g' e, E g' e → E' g' e) : Attains c x g Q' E' := by
  refine Achieves.mono h ?_
  rintro g' (e | r) h'
  · exact hE g' e h'
  · exact hQ g' r h'

/-- A store that can tell answers as it does alone. -/
theorem attains_storeOrFail {q : StoreRequest α} {Q : Scene α → q.Answer → Prop}
    {E : Scene α → WorkflowError → Prop} : Attains c (storeOrFail q) g Q E ↔
      match (q.apply g.store).1 with
      | .ok a => Q { g with store := (q.apply g.store).2 } a
      | .error e => E { g with store := (q.apply g.store).2 } (.store e) := by
  refine attains_mk.trans (achieves_bind.trans (achieves_store.trans ?_))
  cases (q.apply g.store).1 <;> exact Iff.rfl

end

/-- A workflow that finds the gate open takes it, and gives it back however it ends. -/
theorem achieves_gated {a : Activity} {x : ExceptT WorkflowError (Program α) ρ}
    {Q : Scene α → Except WorkflowError ρ → Prop} : (gated a x).Achieves c g Q ↔
      if g.busy then Q { g with busy := true } (.error .busy)
      else Attains c x { g with busy := true } (fun g' r => Q { g' with busy := false } (.ok r))
        fun g' e => Q { g' with busy := false } (.error e) := by
  have hacquire : (gated a x).Achieves c g Q ↔ (if !g.busy then
      ((x.run : Program α (Except WorkflowError ρ)) >>= fun r => ask (.release a) >>= fun _ =>
        pure r : Program α (Except WorkflowError ρ)) else pure (.error .busy)).Achieves c
          { g with busy := true } Q := Iff.rfl
  rw [hacquire]
  cases g.busy with
  | true => exact Iff.rfl
  | false =>
    have hiff : ∀ (g' : Scene α) (r : Except WorkflowError ρ),
        (ask (.release a) >>= fun _ => pure r : Program α (Except WorkflowError ρ)).Achieves c g' Q ↔
          Q { g' with busy := false } r := fun _ _ => Iff.rfl
    refine achieves_bind.trans ⟨fun h => Achieves.mono h ?_, fun h => Achieves.mono h ?_⟩
    · rintro g' (e | r) h'
      · exact (hiff g' _).1 h'
      · exact (hiff g' _).1 h'
    · rintro g' (e | r) h'
      · exact (hiff g' _).2 h'
      · exact (hiff g' _).2 h'

-- a program is read one request at a time, and not run ahead
attribute [irreducible] Achieves

end Program

end ClusterControl
