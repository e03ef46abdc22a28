import ClusterControl.Controller.Step

/-!
# Programs and what passes between them and the hosts

A program that runs alone finds what it left, asks hosts, and may have a plan carried out by an
engine.  What passes between it and the hosts until then is on a log, each request before its
answer.

* `Chronicle` is what such a program finds and changes, the log among it.
* `Program.Yields` says where a program leads from a chronicle, whatever the hosts answer.
-/

namespace ClusterControl

/-- What passes between a controller and the hosts. -/
inductive Exchange
  /-- A request goes out. -/
  | asked (c : HostCall)
  /-- A host answers the request of a task. -/
  | answered (a : HostAnswer)

/-- What a program finds and changes that runs alone with an engine at its service. -/
structure Chronicle (α : Type) where
  store : Store α
  /-- The gate is taken. -/
  busy : Bool
  /-- The phase of the resolution that the engine serves. -/
  phase : ResolutionPhase
  /-- What has passed between the program and the hosts. -/
  log : List Exchange
  /-- A plan was handed over to the engine. -/
  launched : Bool

variable {α ρ σ ε : Type} {e : Engine} {g : Chronicle α}

/-- After a request `R` holds of the chronicle and the answer, whatever a host answers.  Once a plan
was handed over, the program asks no host; any report may come of the plan. -/
def Chronicle.Hears (e : Engine) (g : Chronicle α) :
    (q : Request α) → (Chronicle α → q.Answer → Prop) → Prop
  | .store q, R => R { g with store := (q.apply g.store).2 } (q.apply g.store).1
  | .host q, R => g.launched = false ∧ ∀ a r, a.to? q = some r →
    R { g with log := g.log ++ [.asked q.call, .answered a] } r
  | .acquire _, R => R { g with busy := true } !g.busy
  | .release _, R => R { g with busy := false } ()
  | .isBusy, R => R g g.busy
  | .phase f, R => ∀ p, (f = e → p = g.phase) → R g p
  | .inFlight _, R => ∀ n, R g n
  | .setPhase f p, R => R { g with phase := if f = e then p else g.phase } ()
  | .place _ _, R => ∀ p, R g p
  | .enforce f _, R => f = e ∧ ∀ r, R { g with launched := true } r
  | .note _, R => R g ()
  | .file _, R => R g ()

namespace Program

/-- From a chronicle a program that runs alone with the engine `e` ends with `Q`, whatever the hosts
answer and the reports on its plans say. -/
def Yields (e : Engine) : Program α ρ → Chronicle α → (Chronicle α → ρ → Prop) → Prop
  | .done r, g, Q => Q g r
  | .call q next, g, Q => g.Hears e q fun g' a => (next a).Yields e g' Q

end Program

/-- A weaker statement about chronicle and answer follows. -/
theorem Chronicle.Hears.mono {q : Request α} {R R' : Chronicle α → q.Answer → Prop}
    (h : g.Hears e q R) (hR : ∀ g' a, R g' a → R' g' a) : g.Hears e q R' := by
  cases q with
  | host => exact ⟨h.1, fun a r ha => hR _ _ (h.2 a r ha)⟩
  | phase => exact fun p hp => hR _ _ (h p hp)
  | inFlight | place => exact fun a => hR _ _ (h a)
  | enforce => exact ⟨h.1, fun r => hR _ _ (h.2 r)⟩
  | _ => exact hR _ _ h

namespace Program

theorem Yields.mono {p : Program α ρ} {Q Q' : Chronicle α → ρ → Prop} (h : p.Yields e g Q)
    (hQ : ∀ g' r, Q g' r → Q' g' r) : p.Yields e g Q' := by
  induction p generalizing g with
  | done r => exact hQ _ _ h
  | call q next ih => exact Chronicle.Hears.mono h fun _ a ha => ih a ha

theorem yields_done {r : ρ} {Q : Chronicle α → ρ → Prop} :
    (done r : Program α ρ).Yields e g Q ↔ Q g r := Iff.rfl

theorem yields_call {q : Request α} {next : q.Answer → Program α ρ} {Q : Chronicle α → ρ → Prop} :
    (call q next).Yields e g Q ↔ g.Hears e q fun g' a => (next a).Yields e g' Q := Iff.rfl

@[simp]
theorem yields_pure {r : ρ} {Q : Chronicle α → ρ → Prop} :
    (pure r : Program α ρ).Yields e g Q ↔ Q g r := Iff.rfl

@[simp]
theorem yields_ask {q : Request α} {Q : Chronicle α → q.Answer → Prop} :
    (ask q).Yields e g Q ↔ g.Hears e q Q := Iff.rfl

@[simp]
theorem yields_bind {p : Program α ρ} {f : ρ → Program α σ} {Q : Chronicle α → σ → Prop} :
    (p >>= f).Yields e g Q ↔ p.Yields e g fun g' r => (f r).Yields e g' Q := by
  induction p generalizing g with
  | done r => exact Iff.rfl
  | call q next ih =>
    constructor
    · exact fun h => Chronicle.Hears.mono h fun _ a ha => (ih a).1 ha
    · exact fun h => Chronicle.Hears.mono h fun _ a ha => (ih a).2 ha

@[simp]
theorem yields_store {q : StoreRequest α} {Q : Chronicle α → Except StoreError q.Answer → Prop} :
    (store q).Yields e g Q ↔ Q { g with store := (q.apply g.store).2 } (q.apply g.store).1 :=
  Iff.rfl

@[simp]
theorem yields_event {v : Event α} {Q : Chronicle α → Unit → Prop} :
    (event v).Yields e g Q ↔ Q g () := Iff.rfl

@[simp]
theorem yields_count {series : Series} {n : Nat} {Q : Chronicle α → Unit → Prop} :
    (count series n).Yields e g Q ↔ Q g () := Iff.rfl

theorem yields_setPhase {p : ResolutionPhase} {Q : Chronicle α → Unit → Prop} :
    (ask (.setPhase e p)).Yields e g Q ↔ Q { g with phase := p } () := by
  rw [yields_ask, Chronicle.Hears, if_pos rfl]

/-- The host's answer is on the log behind the request. -/
theorem yields_wakeUp {host : HostId} {Q : Chronicle α → Except ControlError Unit → Prop}
    (hbefore : g.launched = false) (h : ∀ r : Except ControlError Unit,
      Q { g with log := g.log ++ [.asked (.wakeUp host), .answered (.done r)] } r) :
    (Program.host (.wakeUp host)).Yields e g Q := by
  refine ⟨hbefore, fun a r ha => ?_⟩
  cases a with
  | started => exact absurd ha (by simp [HostAnswer.to?])
  | done r' =>
    obtain rfl := Option.some.inj ha
    exact h r'

theorem yields_powerDown {host : HostId} {action : PowerAction}
    {Q : Chronicle α → Except ControlError Unit → Prop} (hbefore : g.launched = false)
    (h : ∀ r : Except ControlError Unit,
      Q { g with log := g.log ++ [.asked (.powerDown host action), .answered (.done r)] } r) :
    (Program.host (.powerDown host action)).Yields e g Q := by
  refine ⟨hbefore, fun a r ha => ?_⟩
  cases a with
  | started => exact absurd ha (by simp [HostAnswer.to?])
  | done r' =>
    obtain rfl := Option.some.inj ha
    exact h r'

/-- A workflow goes on after a result, and ends with an error. -/
theorem yields_run_bind {x : ExceptT ε (Program α) ρ} {f : ρ → ExceptT ε (Program α) σ}
    {Q : Chronicle α → Except ε σ → Prop}
    (h : (x.run : Program α (Except ε ρ)).Yields e g fun g' r =>
      (∀ a, r = .ok a → ((f a).run : Program α (Except ε σ)).Yields e g' Q) ∧
        ∀ err, r = .error err → Q g' (.error err)) :
    ((x >>= f).run : Program α (Except ε σ)).Yields e g Q := by
  refine yields_bind.2 (h.mono ?_)
  rintro g' (err | a) ⟨hok, herror⟩
  · exact herror err rfl
  · exact hok a rfl

/-- A workflow goes on after the answer to what cannot fail. -/
theorem yields_run_lift {p : Program α ρ} {f : ρ → ExceptT ε (Program α) σ}
    {Q : Chronicle α → Except ε σ → Prop}
    (h : p.Yields e g fun g' r => ((f r).run : Program α (Except ε σ)).Yields e g' Q) :
    ((ExceptT.lift p >>= f).run : Program α (Except ε σ)).Yields e g Q := by
  refine yields_run_bind (yields_bind.2 (h.mono ?_))
  intro g' r hr
  refine yields_pure.2 ⟨?_, by simp⟩
  rintro _ ⟨⟩
  exact hr

/-- A workflow goes on with what the store answers. -/
theorem yields_run_store {q : StoreRequest α} {a : q.Answer} {t : Store α}
    {f : q.Answer → ExceptT WorkflowError (Program α) σ}
    {Q : Chronicle α → Except WorkflowError σ → Prop} (hq : q.apply g.store = (.ok a, t))
    (h : ((f a).run : Program α (Except WorkflowError σ)).Yields e { g with store := t } Q) :
    ((storeOrFail q >>= f).run : Program α (Except WorkflowError σ)).Yields e g Q := by
  refine yields_run_bind (yields_bind.2 (yields_store.2 ?_))
  rw [hq]
  refine yields_pure.2 ⟨?_, by simp⟩
  rintro _ ⟨⟩
  exact h

/-- A workflow that finds the gate open takes it, and gives it back however it ends. -/
theorem yields_gated {a : Activity} {x : ExceptT WorkflowError (Program α) ρ}
    {Q : Chronicle α → Except WorkflowError ρ → Prop} (hopen : g.busy = false)
    (h : (x.run : Program α (Except WorkflowError ρ)).Yields e { g with busy := true } fun g' r =>
      Q { g' with busy := false } r) : (gated a x).Yields e g Q := by
  refine yields_bind.2 ?_
  rw [yields_ask, Chronicle.Hears, hopen]
  exact yields_bind.2 (h.mono fun _ _ hr => hr)

-- a program is read one request at a time, and not run ahead
attribute [irreducible] Yields

end Program

end ClusterControl
