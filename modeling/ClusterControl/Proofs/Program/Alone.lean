import ClusterControl.Workflow.Job

/-!
# Programs that run alone

While nothing else goes on, a program finds what it left: the store, the gate, the cursor of
placements and the responses on file change with its own requests only.  What comes of it is then
settled by what the hosts answer.

* `Scene` is what a program that runs alone finds and changes.
* `Program.Leads` says where a program leads from a scene, whatever the hosts answer.  It is read
  off one request at a time.
* `Program.Ends` says that a program comes to an end from every scene.
-/

namespace ClusterControl

variable {α ρ σ ε : Type}

/-- What a program finds, and changes with its requests, when it runs alone. -/
structure Scene (α : Type) where
  store : Store α
  /-- Where the next cyclic placement starts. -/
  cursor : Nat
  submissions : SortedMap SubmissionResponse
  /-- The gate is taken. -/
  busy : Bool
  /-- The requests to hosts so far. -/
  calls : List HostCall

variable [Quantity α] {c : Settings α} {g : Scene α}

/-- After a request `R` holds of the scene and the answer, whatever a host answers.  Carrying out a
plan is left to an engine, so a program that runs alone does not ask for it. -/
def Scene.Asks (c : Settings α) (g : Scene α) :
    (q : Request α) → (Scene α → q.Answer → Prop) → Prop
  | .store q, R => R { g with store := (q.apply g.store).2 } (q.apply g.store).1
  | .host q, R => ∀ r, R { g with calls := g.calls ++ [q.call] } r
  | .acquire _, R => R { g with busy := true } !g.busy
  | .release _, R => R { g with busy := false } ()
  | .isBusy, R => R g g.busy
  | .phase _, R => ∀ p, R g p
  | .inFlight _, R => ∀ n, R g n
  | .setPhase _ _, R => R g ()
  | .place vms hosts, R =>
    let done := Placement.place c.placementPolicy g.cursor vms hosts
    R { g with cursor := done.position } done.plan
  | .enforce _ _, _ => False
  | .note _, R => R g ()
  | .file r, R => R { g with submissions := g.submissions.insert r.task r } ()

namespace Program

/-- From a scene a program that runs alone ends with `Q`, whatever the hosts answer. -/
def Leads (c : Settings α) : Program α ρ → Scene α → (Scene α → ρ → Prop) → Prop
  | .done r, g, Q => Q g r
  | .call q next, g, Q => g.Asks c q fun g' a => (next a).Leads c g' Q

end Program

/-- A weaker statement about scene and answer follows. -/
theorem Scene.Asks.mono {q : Request α} {R R' : Scene α → q.Answer → Prop} (h : g.Asks c q R)
    (hR : ∀ g' a, R g' a → R' g' a) : g.Asks c q R' := by
  cases q with
  | host | phase | inFlight => exact fun a => hR _ _ (h a)
  | enforce => exact h
  | _ => exact hR _ _ h

namespace Program

theorem Leads.mono {p : Program α ρ} {Q Q' : Scene α → ρ → Prop} (h : p.Leads c g Q)
    (hQ : ∀ g' r, Q g' r → Q' g' r) : p.Leads c g Q' := by
  induction p generalizing g with
  | done r => exact hQ _ _ h
  | call q next ih => exact Scene.Asks.mono h fun _ a ha => ih a ha

theorem leads_done {r : ρ} {Q : Scene α → ρ → Prop} :
    (done r : Program α ρ).Leads c g Q ↔ Q g r := Iff.rfl

theorem leads_call {q : Request α} {next : q.Answer → Program α ρ} {Q : Scene α → ρ → Prop} :
    (call q next).Leads c g Q ↔ g.Asks c q fun g' a => (next a).Leads c g' Q := Iff.rfl

@[simp]
theorem leads_pure {r : ρ} {Q : Scene α → ρ → Prop} :
    (pure r : Program α ρ).Leads c g Q ↔ Q g r := Iff.rfl

@[simp]
theorem leads_ask {q : Request α} {Q : Scene α → q.Answer → Prop} :
    (ask q).Leads c g Q ↔ g.Asks c q Q := Iff.rfl

@[simp]
theorem leads_bind {p : Program α ρ} {f : ρ → Program α σ} {Q : Scene α → σ → Prop} :
    (p >>= f).Leads c g Q ↔ p.Leads c g fun g' r => (f r).Leads c g' Q := by
  induction p generalizing g with
  | done r => exact Iff.rfl
  | call q next ih =>
    constructor
    · exact fun h => Scene.Asks.mono h fun _ a ha => (ih a).1 ha
    · exact fun h => Scene.Asks.mono h fun _ a ha => (ih a).2 ha

@[simp]
theorem leads_store {q : StoreRequest α} {Q : Scene α → Except StoreError q.Answer → Prop} :
    (store q).Leads c g Q ↔ Q { g with store := (q.apply g.store).2 } (q.apply g.store).1 := Iff.rfl

@[simp]
theorem leads_host {q : HostRequest α} {Q : Scene α → Except ControlError q.Answer → Prop} :
    (host q).Leads c g Q ↔ ∀ r, Q { g with calls := g.calls ++ [q.call] } r := Iff.rfl

@[simp]
theorem leads_place {vms : List (Vm α)} {hosts : List (Host α)}
    {Q : Scene α → PlacementPlan α → Prop} : (ask (.place vms hosts)).Leads c g Q ↔
      Q { g with cursor := (Placement.place c.placementPolicy g.cursor vms hosts).position }
        (Placement.place c.placementPolicy g.cursor vms hosts).plan := Iff.rfl

@[simp]
theorem leads_event {e : Event α} {Q : Scene α → Unit → Prop} :
    (event e).Leads c g Q ↔ Q g () := Iff.rfl

@[simp]
theorem leads_count {series : Series} {n : Nat} {Q : Scene α → Unit → Prop} :
    (count series n).Leads c g Q ↔ Q g () := Iff.rfl

/-! ## Programs that come to an end -/

/-- From every scene the program comes to an end, so it needs no engine for that. -/
def Ends (c : Settings α) (p : Program α ρ) : Prop := ∀ g, p.Leads c g fun _ _ => True

theorem ends_pure (r : ρ) : (pure r : Program α ρ).Ends c := fun _ => leads_pure.2 trivial

theorem Ends.bind {p : Program α ρ} {f : ρ → Program α σ} (hp : p.Ends c)
    (hf : ∀ r, (f r).Ends c) : (p >>= f).Ends c :=
  fun g => leads_bind.2 ((hp g).mono fun g' r _ => hf r g')

/-- A request that needs no engine is answered. -/
theorem ends_ask {q : Request α} (henforce : ∀ e p, q ≠ .enforce e p) : (ask q).Ends c := by
  intro g
  cases q with
  | host | phase | inFlight => exact fun _ => trivial
  | enforce e p => exact absurd rfl (henforce e p)
  | _ => exact trivial

theorem Ends.run_bind {x : ExceptT ε (Program α) ρ} {f : ρ → ExceptT ε (Program α) σ}
    (hx : (x.run : Program α (Except ε ρ)).Ends c)
    (hf : ∀ a, ((f a).run : Program α (Except ε σ)).Ends c) :
    ((x >>= f).run : Program α (Except ε σ)).Ends c := by
  refine Ends.bind hx ?_
  rintro (err | a)
  · exact ends_pure _
  · exact hf a

theorem ends_run_lift {p : Program α ρ} (hp : p.Ends c) :
    ((ExceptT.lift p : ExceptT ε (Program α) ρ).run : Program α (Except ε ρ)).Ends c :=
  hp.bind fun r => ends_pure (Except.ok r)

theorem ends_storeOrFail (q : StoreRequest α) :
    ((storeOrFail q).run : Program α (Except WorkflowError q.Answer)).Ends c := by
  refine (ends_ask (by simp)).bind ?_
  rintro (err | a) <;> exact ends_pure _

theorem ends_gated {a : Activity} {x : ExceptT WorkflowError (Program α) ρ}
    (hx : (x.run : Program α (Except WorkflowError ρ)).Ends c) : (gated a x).Ends c := by
  refine (ends_ask (by simp)).bind ?_
  rintro (_ | _)
  · exact ends_pure _
  · exact hx.bind fun r => (ends_ask (by simp)).bind fun _ => ends_pure r

-- a program is read one request at a time, and not run ahead
attribute [irreducible] Leads

end Program

end ClusterControl
